import ShaderTrace.Identifier
import ShaderTrace.Node.Basic

/-!
# Names in the target language

How types, inputs, outputs and local variables are spelled in a shader. A declared name that the language or the
generator needs for itself gets an underscore at its end.
-/

namespace ShaderTrace.Glsl

/-- The uniform that holds the extent of the computation. -/
def dispatchSize : String := "dispatch_size"

/-- The built-in variable that holds the coordinate of a fragment. -/
def fragCoord : String := "gl_FragCoord"

/-- The words that no input or output may be spelled as: keywords and reserved words of the language, its types, and the
functions and names that the generator writes. -/
def reserved : List String :=
  -- keywords
  ["attribute", "const", "uniform", "varying", "layout", "centroid", "flat", "smooth", "noperspective", "break",
    "continue", "do", "for", "while", "switch", "case", "default", "if", "else", "in", "out", "inout", "true", "false",
    "invariant", "discard", "return", "struct", "precision", "lowp", "mediump", "highp",
    -- types
    "void", "bool", "int", "uint", "float", "vec2", "vec3", "vec4", "bvec2", "bvec3", "bvec4", "ivec2", "ivec3", "ivec4",
    "uvec2", "uvec3", "uvec4", "mat2", "mat3", "mat4", "mat2x2", "mat2x3", "mat2x4", "mat3x2", "mat3x3", "mat3x4",
    "mat4x2", "mat4x3", "mat4x4", "sampler1D", "sampler2D", "sampler3D", "samplerCube", "sampler1DShadow",
    "sampler2DShadow", "samplerCubeShadow", "sampler1DArray", "sampler2DArray", "sampler1DArrayShadow",
    "sampler2DArrayShadow", "isampler1D", "isampler2D", "isampler3D", "isamplerCube", "isampler1DArray",
    "isampler2DArray", "usampler1D", "usampler2D", "usampler3D", "usamplerCube", "usampler1DArray", "usampler2DArray",
    "sampler2DRect", "sampler2DRectShadow", "isampler2DRect", "usampler2DRect", "samplerBuffer", "isamplerBuffer",
    "usamplerBuffer", "sampler2DMS", "isampler2DMS", "usampler2DMS", "sampler2DMSArray", "isampler2DMSArray",
    "usampler2DMSArray",
    -- words kept for later versions
    "common", "partition", "active", "asm", "class", "union", "enum", "typedef", "template", "this", "packed", "goto",
    "inline", "noinline", "volatile", "public", "static", "extern", "external", "interface", "long", "short", "double",
    "half", "fixed", "unsigned", "superp", "input", "output", "hvec2", "hvec3", "hvec4", "dvec2", "dvec3", "dvec4",
    "fvec2", "fvec3", "fvec4", "sampler3DRect", "filter", "image1D", "image2D", "image3D", "imageCube", "iimage1D",
    "iimage2D", "iimage3D", "iimageCube", "uimage1D", "uimage2D", "uimage3D", "uimageCube", "image1DArray",
    "image2DArray", "iimage1DArray", "iimage2DArray", "uimage1DArray", "uimage2DArray", "image1DShadow",
    "image2DShadow", "image1DArrayShadow", "image2DArrayShadow", "imageBuffer", "iimageBuffer", "uimageBuffer",
    "sizeof", "cast", "namespace", "using", "row_major",
    -- functions that the generator calls
    "texelFetch", "sin", "cos", "tan", "asin", "acos", "atan", "sinh", "cosh", "tanh", "asinh", "acosh", "atanh", "pow",
    "exp", "log", "exp2", "log2", "sqrt", "abs", "sign", "floor", "ceil", "min", "max", "clamp", "isnan", "isinf",
    "length", "distance", "dot", "cross", "normalize",
    -- names that the generator defines
    "main", dispatchSize]

def isReserved (name : String) : Bool := reserved.contains name

/-- The spelling of an input or output of the given name: the name itself, or with an underscore after it if the name is
reserved or could be that of a local variable. -/
def identFor (name : String) : String :=
  if isReserved name || Identifier.isLocal name then name ++ "_" else name

/-- The spelling of a local variable. -/
def localName (symbol : SymbolId) : String := "v" ++ toString symbol.index

/-- The sampler that reads a buffer of elements of the given kind. -/
def samplerName? (oneDimensional : Bool) : ScalarKind → Option String
  | .bool => none
  | .int => some (if oneDimensional then "isamplerBuffer" else "isampler2DRect")
  | .uint => some (if oneDimensional then "usamplerBuffer" else "usampler2DRect")
  | .float => some (if oneDimensional then "samplerBuffer" else "sampler2DRect")

/-- The spellings of the types that are no buffers. -/
def plainTypeNames : List (ValueType × String) :=
  [(.bool, "bool"), (.int, "int"), (.uint, "uint"), (.float, "float"), (.int2, "ivec2"), (.uint2, "uvec2"),
    (.float2, "vec2"), (.int3, "ivec3"), (.uint3, "uvec3"), (.float3, "vec3"), (.int4, "ivec4"), (.uint4, "uvec4"),
    (.float4, "vec4")]

/-- The spelling of a type; void has none. -/
def typeName? (ty : ValueType) : Option String :=
  if !ty.isValid then none
  else if ty.isBuffer then ty.scalarKind?.bind (samplerName? ty.isBuffer1d)
  else plainTypeNames.lookup ty

/-- The lanes that an element of so many lanes takes from a fetched texel of four; nothing is said if it takes all. -/
def texelLanes? : (lanes : Nat) → Option String
  | 1 => some "x"
  | 2 => some "xy"
  | 3 => some "xyz"
  | _ => none

end ShaderTrace.Glsl
