import ShaderTrace.Proofs.Blocks.Reached
import ShaderTrace.Proofs.Generator.Capture
import ShaderTrace.Proofs.Recording.Script
import ShaderTrace.Proofs.Text.Written

/-!
# Expressions are read back

The operator tree that an expression node denotes is said by recursion over the recorded tree (`operation?`). The text that is
generated for the node stands for that operator tree, and for no other (`expression_reads_back`). That needs one thing of the
scope, that variables are spelled as names: a recording only lets names be declared that the language can spell.
-/

namespace ShaderTrace.Glsl.Grammar

open Identifier

/-! ## What a tree denotes -/

/-- The variable of a symbol. -/
def variableNamed (scope : Scope) (symbol : SymbolId) : Phrase := .name (scope.variableOf symbol).spelling

/-- The integer coordinate of the fragment. -/
def coordinate : Phrase := .call "ivec2" [.field (.name "gl_FragCoord") "xy"]

/-- The coordinate of the fragment divided by the extent of the computation. -/
def relativeCoordinate : Phrase :=
  .binary .div (.field (.name "gl_FragCoord") "xy") (.call "vec2" [.name "dispatch_size"])

/-- The lanes of an element, taken from a texel of four. -/
def elementOf (type : ValueType) (texel : Phrase) : Phrase :=
  match texelLanes? type.lanes with
  | some lanes => .field texel lanes
  | none => texel

/-- The function that a call node names by its first child. -/
def calledBy (tree : Tree) : Option Builtin :=
  match tree.children.head?.bind (·.head.literal?) with
  | some (.int id) => Builtin.ofId? id
  | _ => none

/-- The application of a built-in function. -/
def application : Builtin → List Phrase → Phrase
  | .index, _ => coordinate
  | .normalizedIndex, _ => relativeCoordinate
  | function, arguments => .call (Expr.functionName function) arguments

/-- What a node denotes, if its children denote `operands`. -/
def denoted (scope : Scope) (tree : Tree) (operands : List (Option Phrase)) : Option Phrase :=
  match tree.kind with
  | .var => tree.head.symbol?.map (variableNamed scope)
  | .literal => tree.head.literal?.map constantOf
  | .member =>
    match tree.head.payload with
    | .member owner _ lane => some (.field (variableNamed scope owner) lane.accessor)
    | _ => none
  | .index => some coordinate
  | .normalizedIndex => some relativeCoordinate
  | .cast | .constructor => do return .call (← typeName? tree.type) (← operands.mapM id)
  | .function => do return application (← calledBy tree) (← operands.tail.mapM id)
  | .sample1d =>
    match operands with
    | [some buffer, some index] => some (elementOf tree.type (.call "texelFetch" [buffer, index]))
    | _ => none
  | .sample2d =>
    match operands with
    | [some buffer, some x, some y] => some (elementOf tree.type (.call "texelFetch" [buffer, .call "ivec2" [x, y]]))
    | _ => none
  | kind =>
    match operands with
    | [some operand] => (UnaryOp.ofKind? kind).map fun op => .unary op operand
    | [some left, some right] => (BinaryOp.ofKind? kind).map fun op => .binary op left right
    | _ => none

mutual

/-- The operator tree that an expression tree denotes. -/
def operation? (scope : Scope) : Tree → Option Phrase
  | .node id head children => denoted scope (.node id head children) (operations scope children)

def operations (scope : Scope) : List Tree → List (Option Phrase)
  | [] => []
  | tree :: trees => operation? scope tree :: operations scope trees

end

/-- The operations of trees in a row are those of each. -/
theorem operations_eq_map (scope : Scope) (trees : List Tree) : operations scope trees = trees.map (operation? scope) := by
  induction trees with
  | nil => rfl
  | cons tree trees ih => rw [operations, ih, List.map_cons]

/-- The operation of a tree is denoted by those of its children. -/
theorem operation?_eq (scope : Scope) (tree : Tree) :
    operation? scope tree = denoted scope tree (tree.children.map (operation? scope)) := by
  obtain ⟨id, head, children⟩ := tree
  rw [operation?, operations_eq_map, Tree.children]

/-! ## Names -/

/-- Inputs and outputs are spelled as names. -/
def Named (scope : Scope) : Prop := ∀ global ∈ scope.globals, IsName global.2

/-- The names of the variables of `main` are names. -/
theorem isName_localName (symbol : SymbolId) : IsName (localName symbol) := by
  have hne : ∀ word : String, word.toList.head? ≠ some 'v' → localName symbol ≠ word := by
    rintro _ hword rfl
    rw [toList_localName] at hword
    exact hword rfl
  refine ⟨?_, hne "true" (by decide), hne "false" (by decide)⟩
  rw [isIdentifier, toList_localName, isIdentifierChars, Bool.and_eq_true, List.all_eq_true]
  refine ⟨by decide, fun c hc => ?_⟩
  rw [isContinue, isDigit_of_mem_toDigits hc, Bool.or_true, Bool.true_or]

/-- Every variable has a name. -/
theorem Named.isName {scope : Scope} (h : Named scope) (symbol : SymbolId) :
    IsName (scope.variableOf symbol).spelling := by
  rw [Scope.variableOf]
  cases hlookup : scope.globals.lookup symbol with
  | none => exact isName_localName symbol
  | some ident => exact h _ (mem_of_lookup hlookup)

/-- The identifier for an identifier is a name. -/
theorem isName_identFor {name : String} (h : isIdentifier name = true) : IsName (identFor name) :=
  ⟨isIdentifier_identFor h, identFor_ne (by decide) (by decide) name, identFor_ne (by decide) (by decide) name⟩

/-- The names of types are names. -/
theorem isName_typeName {type : ValueType} {name : String} (h : typeName? type = some name) : IsName name := by
  unfold typeName? at h
  split at h
  · cases h
  · split at h
    · obtain ⟨kind, -, hsampler⟩ := Option.bind_eq_some_iff.1 h
      have hall : ∀ oneDimensional : Bool, ∀ kind ∈ [ScalarKind.bool, .int, .uint, .float],
          ∀ name ∈ samplerName? oneDimensional kind, IsName name := by decide
      exact hall _ kind (by cases kind <;> decide) name hsampler
    · obtain ⟨before, after, hlist, -⟩ := List.lookup_eq_some_iff.1 h
      have hall : ∀ entry ∈ plainTypeNames, IsName entry.2 := by decide
      exact hall (type, name) (by rw [hlist]; simp)

/-- The names of functions are names, but for the two coordinates. -/
theorem isName_functionName {builtin : Builtin} (hi : builtin ≠ .index) (hn : builtin ≠ .normalizedIndex) :
    IsName (Expr.functionName builtin) := by
  cases builtin with
  | index => exact absurd rfl hi
  | normalizedIndex => exact absurd rfl hn
  | _ => decide

/-! ## The texts of expressions -/

/-- A tree denotes an operator tree, and the text of its expression stands for that. -/
def ReadsBack (scope : Scope) (tree : Tree) (expr : Expr) : Prop :=
  ∃ e, operation? scope tree = some e ∧ Written .operand IsBreak expr.text [e]

/-- Lanes after a point are written as a field. -/
theorem written_lanes {after : Char → Prop} {text lanes : String} {e : Phrase} (h : Written .simple after text [e])
    (hpoint : after '.') (hlanes : IsName lanes) : Written .operand IsBreak (text ++ "." ++ lanes) [.field e lanes] :=
  (written_field h hpoint hlanes).operand fun _ => isContinue_of_isBreak

theorem written_coordinateLanes : Written .operand IsBreak "gl_FragCoord.xy" [.field (.name "gl_FragCoord") "xy"] := by
  have hobject := written_name (by decide : IsName "gl_FragCoord")
  exact written_lanes hobject (by decide) (by decide : IsName "xy")

/-- The index is written as the coordinate. -/
theorem written_index : Written .operand IsBreak Expr.index.text [coordinate] := by
  have hcall := written_call (by decide : IsName "ivec2") (written_argument written_coordinateLanes)
  exact hcall.operand fun _ _ => trivial

/-- The normalized index is written as the relative coordinate. -/
theorem written_normalizedIndex : Written .operand IsBreak Expr.normalizedIndex.text [relativeCoordinate] := by
  have hextent := (written_name (by decide : IsName "dispatch_size")).operand fun _ => isContinue_of_isBreak
  have hcall := (written_call (by decide : IsName "vec2") (written_argument hextent)).operand fun _ _ => trivial
  exact (written_binary .div written_coordinateLanes hcall).operand fun _ _ => trivial

/-- The lanes of an element of a texel. -/
theorem written_texel {type : ValueType} {fetched : Expr} {e : Phrase} (h : Written .simple (fun _ => True) fetched.text [e]) :
    Written .operand IsBreak (Expr.texel type fetched).text [elementOf type e] := by
  have hname : ∀ count lanes, texelLanes? count = some lanes → IsName lanes := by
    intro count lanes hlanes
    unfold texelLanes? at hlanes
    split at hlanes <;> cases hlanes <;> decide
  unfold Expr.texel elementOf
  cases hlanes : texelLanes? type.lanes with
  | none => exact h.operand fun _ _ => trivial
  | some lanes =>
    rw [Expr.text]
    exact written_lanes h trivial (hname _ lanes hlanes)

section Trees

variable {scope : Scope} {tree : Tree} {expr : Expr}

/-- The arguments of a call, one by one. -/
theorem written_textAll {trees : List Tree} {exprs : List Expr} (h : trees.mapM (expression scope) = .ok exprs)
    (ih : ∀ tree ∈ trees, ∀ expr, expression scope tree = .ok expr → ReadsBack scope tree expr) :
    ∃ es, trees.map (operation? scope) = es.map some ∧ Written .arguments IsBreak (Expr.textAll exprs) es := by
  induction trees generalizing exprs with
  | nil =>
    cases h
    exact ⟨[], rfl, [], spelled_nil.mono fun _ _ => trivial, .noArguments⟩
  | cons tree trees ihtrees =>
    obtain ⟨expr, rest, hexpr, hrest, rfl⟩ := mapM_cons_eq_ok_iff.1 h
    obtain ⟨e, he, hwritten⟩ := ih tree List.mem_cons_self expr hexpr
    obtain ⟨es, hes, hwrittenRest⟩ := ihtrees hrest fun other hm => ih other (List.mem_cons_of_mem tree hm)
    refine ⟨e :: es, by rw [List.map_cons, List.map_cons, he, hes], ?_⟩
    cases trees with
    | nil =>
      cases hrest
      cases es with
      | nil => exact written_argument hwritten
      | cons next es => cases hes
    | cons second trees =>
      obtain ⟨_, _, -, -, rfl⟩ := mapM_cons_eq_ok_iff.1 hrest
      cases es with
      | nil => cases hes
      | cons next es => exact written_arguments hwritten hwrittenRest

/-- A variable reads back as its name. -/
theorem readsBack_var (hscope : Named scope) {symbol : SymbolId} (hk : tree.kind = .var)
    (hs : tree.head.symbol? = some symbol) : ReadsBack scope tree (.var (scope.variableOf symbol)) := by
  refine ⟨variableNamed scope symbol, ?_, (written_name (hscope.isName symbol)).operand fun _ => isContinue_of_isBreak⟩
  rw [operation?_eq]
  unfold denoted
  rw [hk, hs]
  rfl

/-- A constant reads back as it. -/
theorem readsBack_literal {value : Literal} (hk : tree.kind = .literal) (hl : tree.head.literal? = some value) :
    ReadsBack scope tree (.literal value) := by
  refine ⟨constantOf value, ?_, written_literal value⟩
  rw [operation?_eq]
  unfold denoted
  rw [hk, hl]
  rfl

/-- A lane reads back as a field of its vector. -/
theorem readsBack_member (hscope : Named scope) {owner : SymbolId} {ownerType : ValueType} {lane : Lane}
    (hk : tree.kind = .member) (hp : tree.head.payload = .member owner ownerType lane) :
    ReadsBack scope tree (.field (.var (scope.variableOf owner)) lane.accessor) := by
  have hlane : IsName lane.accessor := by cases lane <;> decide
  refine ⟨.field (variableNamed scope owner) lane.accessor, ?_, ?_⟩
  · rw [operation?_eq]
    unfold denoted
    rw [hk, hp]
  · rw [Expr.text]
    exact written_lanes (written_name (hscope.isName owner)) (by decide) hlane

theorem readsBack_index (hk : tree.kind = .index) : ReadsBack scope tree .index := by
  refine ⟨coordinate, ?_, written_index⟩
  rw [operation?_eq]
  unfold denoted
  rw [hk]

theorem readsBack_normalizedIndex (hk : tree.kind = .normalizedIndex) : ReadsBack scope tree .normalizedIndex := by
  refine ⟨relativeCoordinate, ?_, written_normalizedIndex⟩
  rw [operation?_eq]
  unfold denoted
  rw [hk]

/-- An operation on one operand reads back if the operand does. -/
theorem readsBack_unary (op : UnaryOp) {operand : Tree} {e : Expr} (hk : tree.kind = op.kind) (hc : tree.children = [operand])
    (h : ReadsBack scope operand e) : ReadsBack scope tree (.unary op e) := by
  obtain ⟨phrase, hphrase, hwritten⟩ := h
  refine ⟨.unary op phrase, ?_, ?_⟩
  · rw [operation?_eq, hc, List.map_singleton, hphrase]
    unfold denoted
    rw [hk]
    cases op <;> rfl
  · rw [Expr.text]
    exact written_unary op hwritten

/-- An operation on two operands reads back if both do. -/
theorem readsBack_binary (op : BinaryOp) {left right : Tree} {l r : Expr} (hk : tree.kind = op.kind)
    (hc : tree.children = [left, right]) (hl : ReadsBack scope left l) (hr : ReadsBack scope right r) :
    ReadsBack scope tree (.binary op l r) := by
  obtain ⟨leftPhrase, hleft, hl⟩ := hl
  obtain ⟨rightPhrase, hright, hr⟩ := hr
  refine ⟨.binary op leftPhrase rightPhrase, ?_, ?_⟩
  · rw [operation?_eq, hc, List.map_cons, List.map_singleton, hleft, hright]
    unfold denoted
    rw [hk]
    cases op <;> rfl
  · rw [Expr.text]
    exact (written_binary op hl hr).operand fun _ _ => trivial

/-- A cast or a constructor reads back as a call if its operands do. -/
theorem readsBack_convert {name : String} {exprs : List Expr} {es : List Phrase}
    (hk : tree.kind = .cast ∨ tree.kind = .constructor) (ht : typeName? tree.type = some name)
    (hes : tree.children.map (operation? scope) = es.map some)
    (hwritten : Written .arguments IsBreak (Expr.textAll exprs) es) : ReadsBack scope tree (.call name exprs) := by
  refine ⟨.call name es, ?_, ?_⟩
  · rw [operation?_eq, hes]
    unfold denoted
    rcases hk with hk | hk <;> simp [hk, ht, mapM_some]
  · rw [Expr.text]
    exact (written_call (isName_typeName ht) hwritten).operand fun _ _ => trivial

/-- A call of a built-in function is written as its application. -/
theorem written_builtin (builtin : Builtin) {exprs : List Expr} {es : List Phrase}
    (h : Written .arguments IsBreak (Expr.textAll exprs) es) :
    Written .operand IsBreak (Expr.builtin builtin exprs).text [application builtin es] := by
  by_cases hi : builtin = .index
  · subst hi
    exact written_index
  · by_cases hn : builtin = .normalizedIndex
    · subst hn
      exact written_normalizedIndex
    · have hcall := (written_call (isName_functionName hi hn) h).operand fun _ _ => trivial
      cases builtin with
      | index => exact absurd rfl hi
      | normalizedIndex => exact absurd rfl hn
      | _ => exact hcall

/-- A call reads back as an application of its function if its arguments do. -/
theorem readsBack_call {first : Tree} {id : Int32} {builtin : Builtin} {arguments : List Tree} {exprs : List Expr}
    {es : List Phrase} (hk : tree.kind = .function) (hc : tree.children = first :: arguments)
    (hl : first.head.literal? = some (.int id)) (hb : Builtin.ofId? id = some builtin)
    (hes : arguments.map (operation? scope) = es.map some)
    (hwritten : Written .arguments IsBreak (Expr.textAll exprs) es) : ReadsBack scope tree (.builtin builtin exprs) := by
  have hcalled : calledBy tree = some builtin := by
    rw [calledBy, hc, List.head?_cons, Option.bind_some, hl]
    exact hb
  refine ⟨application builtin es, ?_, written_builtin builtin hwritten⟩
  rw [operation?_eq, hc, List.map_cons, hes]
  unfold denoted
  simp [hk, hcalled, mapM_some]

/-- A sampling at one index reads back if the buffer and the index do. -/
theorem readsBack_sample1d {buffer index : Tree} {b i : Expr} (hk : tree.kind = .sample1d)
    (hc : tree.children = [buffer, index]) (hb : ReadsBack scope buffer b) (hi : ReadsBack scope index i) :
    ReadsBack scope tree (.texel tree.type (.call "texelFetch" [b, i])) := by
  obtain ⟨bufferPhrase, hbuffer, hb⟩ := hb
  obtain ⟨indexPhrase, hindex, hi⟩ := hi
  have hcall := written_call (by decide : IsName "texelFetch") (written_arguments hb (written_argument hi))
  refine ⟨elementOf tree.type (.call "texelFetch" [bufferPhrase, indexPhrase]), ?_, written_texel ?_⟩
  · rw [operation?_eq, hc, List.map_cons, List.map_singleton, hbuffer, hindex]
    unfold denoted
    rw [hk]
  · rw [Expr.text]
    exact hcall

/-- A sampling at two indices reads back if the buffer and both indices do. -/
theorem readsBack_sample2d {buffer xIndex yIndex : Tree} {b x y : Expr} (hk : tree.kind = .sample2d)
    (hc : tree.children = [buffer, xIndex, yIndex]) (hb : ReadsBack scope buffer b) (hx : ReadsBack scope xIndex x)
    (hy : ReadsBack scope yIndex y) :
    ReadsBack scope tree (.texel tree.type (.call "texelFetch" [b, .call "ivec2" [x, y]])) := by
  obtain ⟨bufferPhrase, hbuffer, hb⟩ := hb
  obtain ⟨xPhrase, hxIndex, hx⟩ := hx
  obtain ⟨yPhrase, hyIndex, hy⟩ := hy
  have hpair := written_call (by decide : IsName "ivec2") (written_arguments hx (written_argument hy))
  have hindex := written_argument (hpair.operand fun _ _ => trivial)
  have hcall := written_call (by decide : IsName "texelFetch") (written_arguments hb hindex)
  refine ⟨elementOf tree.type (.call "texelFetch" [bufferPhrase, .call "ivec2" [xPhrase, yPhrase]]), ?_, written_texel ?_⟩
  · rw [operation?_eq, hc, List.map_cons, List.map_cons, List.map_singleton, hbuffer, hxIndex, hyIndex]
    unfold denoted
    rw [hk]
  · rw [Expr.text]
    exact hcall

/-- Every expression is spelled as what its tree denotes, if variables are spelled as names. The induction is on the number of
nodes, because the operands of a node are not given by the shape of the tree alone. -/
theorem readsBack_of_expression (hscope : Named scope) (h : expression scope tree = .ok expr) : ReadsBack scope tree expr := by
  induction hsize : tree.size using Nat.strongRecOn generalizing tree expr with
  | ind size ih =>
    have hchild : ∀ child ∈ tree.children, ∀ e, expression scope child = .ok e → ReadsBack scope child e :=
      fun child hm e he => ih child.size (hsize ▸ Tree.size_lt_of_mem_children hm) he rfl
    cases expression_eq_ok_iff.1 h with
    | var hk hs _ => exact readsBack_var hscope hk hs
    | literal hk hl => exact readsBack_literal hk hl
    | member hk hp _ => exact readsBack_member hscope hk hp
    | index hk => exact readsBack_index hk
    | normalizedIndex hk => exact readsBack_normalizedIndex hk
    | unary op hk hc hoperand => exact readsBack_unary op hk hc (hchild _ (by simp [hc]) _ hoperand)
    | binary op hk hc hl hr =>
      exact readsBack_binary op hk hc (hchild _ (by simp [hc]) _ hl) (hchild _ (by simp [hc]) _ hr)
    | convert hk ht _ hexprs =>
      obtain ⟨es, hes, hwritten⟩ := written_textAll hexprs hchild
      exact readsBack_convert hk ht hes hwritten
    | call hk hc hl hb _ hexprs =>
      obtain ⟨es, hes, hwritten⟩ := written_textAll hexprs fun child hm =>
        hchild child (hc ▸ List.mem_cons_of_mem _ hm)
      exact readsBack_call hk hc hl hb hes hwritten
    | sample1d hk hc _ _ hb hi =>
      exact readsBack_sample1d hk hc (hchild _ (by simp [hc]) _ hb) (hchild _ (by simp [hc]) _ hi)
    | sample2d hk hc _ _ hb hx hy =>
      exact readsBack_sample2d hk hc (hchild _ (by simp [hc]) _ hb) (hchild _ (by simp [hc]) _ hx)
        (hchild _ (by simp [hc]) _ hy)

end Trees

/-! ## Finished recordings -/

/-- A scope of the shader of a program: its globals are the inputs and the outputs that the program declares. Which symbols have
a declaration differs from one statement to the next and is left open. -/
def IsScopeOf (root : Tree) (scope : Scope) : Prop :=
  ∃ sections inputs outputs, sectionsOf root = .ok sections ∧
    declarations .constVar .inputDeclaration inputSpelling [] (childrenOf sections.inputs) = .ok inputs ∧
    declarations .outVar .outputDeclaration outputSpelling (globalsOf inputs) (childrenOf sections.outputs) = .ok outputs ∧
    scope.globals = globalsOf inputs ++ globalsOf outputs

/-- The scope of a shader is one of its program. -/
theorem isScopeOf_scope {root main : Tree} {shader : Shader} (h : Made root main shader) : IsScopeOf root shader.scope := by
  obtain ⟨hinputs, houtputs⟩ := apartAll_globalsOf_iff.2 ⟨h.symbols, h.idents⟩
  refine ⟨_, shader.inputs, shader.outputs, sectionsOf_eq_ok_iff.2 ⟨h.program, h.sections, h.once, rfl⟩, ?_, ?_, rfl⟩
  · exact declarations_eq_ok_iff.2 ⟨by simpa [Sections.after] using h.inputs, hinputs⟩
  · exact declarations_eq_ok_iff.2 ⟨by simpa [Sections.after] using h.outputs, houtputs⟩

/-- A recording lets only names be declared that the language can spell. -/
theorem isDeclarable_of_mem_names {steps : List Script.Step} {name : String}
    (h : name ∈ (Script.runEvery steps .start).2.session.names) : isDeclarable name = true := by
  obtain ⟨acts, hacts⟩ := Symbols.every_acts steps .start
  obtain ⟨model, hreached⟩ := Blocks.exists_reached acts Blocks.paired_start
  obtain ⟨more, hnames, hall⟩ := hreached.advance.names
  obtain ⟨frame, frames, hsame⟩ := hreached.paired.same.session
  rw [hacts, hsame.names, hnames] at h
  exact hall name h

/-- The heads of a child are among those of the tree. -/
theorem mem_heads_of_mem_children {tree child : Tree} {head : Head} (hm : child ∈ tree.children)
    (h : head ∈ child.term.heads) : head ∈ tree.term.heads := by
  obtain ⟨id, top, children⟩ := tree
  rw [Tree.term_node, Term.heads]
  exact List.mem_cons_of_mem top (Term.mem_headsAll.2 ⟨child.term, List.mem_map_of_mem hm, h⟩)

section Named

variable {Γ : Recording.Ledger} {root : Tree} {names : List String} {kind sectionKind : NodeKind}
  {spelling : String → ValueType → Except GenerateError String} {ds : List Declaration}

/-- The declarations of a section are spelled after names that have been recorded. -/
theorem exists_name_of_declares (hrecorded : Recording.Recorded Γ root names) (hkind : kind = .constVar ∨ kind = .outVar)
    (h : List.Forall₂ (Declares kind spelling) (childrenOf (firstOf sectionKind root.children)) ds) :
    ∀ d ∈ ds, ∃ name ∈ names, d.ident = identFor name := by
  intro d hd
  obtain ⟨tree, htree, hdeclares⟩ : ∃ tree ∈ childrenOf (firstOf sectionKind root.children), Declares kind spelling tree d := by
    generalize childrenOf (firstOf sectionKind root.children) = trees at h
    induction h with
    | nil => cases hd
    | cons hfirst _ ih =>
      rcases List.mem_cons.1 hd with rfl | hd
      · exact ⟨_, List.mem_cons_self, hfirst⟩
      · obtain ⟨tree, htree, hdeclares⟩ := ih hd
        exact ⟨tree, List.mem_cons_of_mem _ htree, hdeclares⟩
  cases hfirst : firstOf sectionKind root.children with
  | none =>
    rw [hfirst] at htree
    cases htree
  | some parent =>
    rw [hfirst] at htree
    have hself : tree.head ∈ tree.term.heads := by
      obtain ⟨id, head, children⟩ := tree
      rw [Tree.term_node, Term.heads]
      exact List.mem_cons_self
    have hhead := mem_heads_of_mem_children (List.mem_of_find?_eq_some hfirst) (mem_heads_of_mem_children htree hself)
    have hdeclared : tree.head.declared? = some d.name := by
      unfold Head.declared?
      rw [show tree.head.kind = kind from hdeclares.kind_eq]
      rcases hkind with rfl | rfl <;> exact hdeclares.name_eq
    refine ⟨d.name, ?_, hdeclares.ident_eq⟩
    rw [hrecorded.names_eq]
    exact List.mem_filterMap.2 ⟨tree.head, hhead, hdeclared⟩

/-- In every scope of a recorded program the symbols have names. -/
theorem named_of_isScopeOf {scope : Scope} (hrecorded : Recording.Recorded Γ root names)
    (hnames : ∀ name ∈ names, isDeclarable name = true) (h : IsScopeOf root scope) : Named scope := by
  obtain ⟨sections, inputs, outputs, hsections, hinputs, houtputs, hglobals⟩ := h
  obtain ⟨-, -, -, rfl⟩ := sectionsOf_eq_ok_iff.1 hsections
  have hin : ∀ d ∈ inputs, ∃ name ∈ names, d.ident = identFor name :=
    exists_name_of_declares hrecorded (.inl rfl) (by simpa [Sections.after] using (declarations_eq_ok_iff.1 hinputs).1)
  have hout : ∀ d ∈ outputs, ∃ name ∈ names, d.ident = identFor name :=
    exists_name_of_declares hrecorded (.inr rfl) (by simpa [Sections.after] using (declarations_eq_ok_iff.1 houtputs).1)
  intro global hglobal
  rw [hglobals, List.mem_append, globalsOf, globalsOf, List.mem_map, List.mem_map] at hglobal
  obtain ⟨name, hname, hident⟩ : ∃ name ∈ names, global.2 = identFor name := by
    rcases hglobal with ⟨d, hd, rfl⟩ | ⟨d, hd, rfl⟩
    · exact hin d hd
    · exact hout d hd
  rw [hident]
  exact isName_identFor (isIdentifier_of_isDeclarable (hnames name hname))

end Named

/-- The text that is generated for an expression tree over the declarations of a finished recording stands for the operator tree
that the expression tree denotes, and for no other. -/
theorem expression_reads_back (steps : List Script.Step) (source : Source) (root tree : Tree) (scope : Scope) (expr : Expr)
    (hfinish : (Script.runEvery steps .start).2.session.finish = .ok source)
    (hroot : source.arena.tree Session.root = .ok root) (hscope : IsScopeOf root scope)
    (hexpr : expression scope tree = .ok expr) :
    ∃ e, operation? scope tree = some e ∧ ∀ e', Reads expr.text e' ↔ e' = e := by
  obtain ⟨Γ, root', hroot', hrecorded⟩ := Recording.exists_recorded_of_finish hfinish
  rw [hroot] at hroot'
  cases hroot'
  have hnamed := named_of_isScopeOf hrecorded (fun _ => isDeclarable_of_mem_names) hscope
  obtain ⟨e, he, hwritten⟩ := readsBack_of_expression hnamed hexpr
  refine ⟨e, he, fun e' => ⟨fun hreads => reads_unique hreads hwritten.reads, ?_⟩⟩
  rintro rfl
  exact hwritten.reads

/-- A minus sign before parentheses, before a number and in the constant expression for the least integer, and an element of a
buffer of two dimensions. The input has the name of a local variable. -/
def productSteps : List Script.Step :=
  [.block (.enter .constData) none
      [.call (.input .int "v0") (some "n") false, .call (.input (.buffer2d .int) "grid") (some "grid") false] false,
    .block (.enter .outData) none [.call (.output .int "result") (some "result") false] false,
    .block (.enter .main) none
      [.call (.sample2d "grid" (.register "n") (.literal (.int 7))) (some "sample") false,
        .call (.express (.binary .sub) [.register "sample", .literal (.int (-5))]) (some "difference") false,
        .call (.express (.unary .neg) [.register "difference"]) (some "opposite") false,
        .call (.express (.binary .mul) [.register "opposite", .literal (.int Int32.minValue)]) (some "product") false,
        .call (.assign "result" (.register "product")) none false] false]

/-- A product in a finished script reads back. -/
theorem expression_reads_back_product :
    (Script.runEvery productSteps .start).2.session.finish = .ok (Recording.sourceOf productSteps) ∧
      ∃ root tree scope expr, (Recording.sourceOf productSteps).arena.tree Session.root = .ok root ∧
        (Recording.sourceOf productSteps).arena.tree ⟨14⟩ = .ok tree ∧ IsScopeOf root scope ∧
        expression scope tree = .ok expr ∧
        expr.text = "(-((texelFetch(grid, ivec2(v0_, 7)).x - -5)) * (-2147483647 - 1))" ∧
        ∃ e, operation? scope tree = some e ∧ ∀ e', Reads expr.text e' ↔ e' = e := by
  have hfinish : (Script.runEvery productSteps .start).2.session.finish = .ok (Recording.sourceOf productSteps) :=
    Recording.finish_eq_ok_iff.2 ⟨by decide +kernel, rfl⟩
  have hrendered : (((Recording.sourceOf productSteps).arena.tree Session.root).toOption.bind fun root =>
      (shaderOf root).toOption.bind fun shader =>
        ((Recording.sourceOf productSteps).arena.tree ⟨14⟩).toOption.bind fun tree =>
          (expression shader.scope tree).toOption.map Expr.text) =
      some "(-((texelFetch(grid, ivec2(v0_, 7)).x - -5)) * (-2147483647 - 1))" := by decide +kernel
  obtain ⟨root, hroot, hrendered⟩ := Option.bind_eq_some_iff.1 hrendered
  obtain ⟨shader, hshader, hrendered⟩ := Option.bind_eq_some_iff.1 hrendered
  obtain ⟨tree, htree, hrendered⟩ := Option.bind_eq_some_iff.1 hrendered
  obtain ⟨expr, hexpr, htext⟩ := Option.map_eq_some_iff.1 hrendered
  obtain ⟨main, hmade⟩ := shaderOf_eq_ok_iff.1 (toOption_eq_some_iff.1 hshader)
  have hread := expression_reads_back productSteps _ root tree shader.scope expr hfinish (toOption_eq_some_iff.1 hroot)
    (isScopeOf_scope hmade) (toOption_eq_some_iff.1 hexpr)
  exact ⟨hfinish, root, tree, shader.scope, expr, toOption_eq_some_iff.1 hroot, toOption_eq_some_iff.1 htree,
    isScopeOf_scope hmade, toOption_eq_some_iff.1 hexpr, htext, hread⟩

end ShaderTrace.Glsl.Grammar
