import ShaderTrace.Proofs.Generator.Naming
import ShaderTrace.Proofs.Generator.Sections

/-!
# Identifiers capture nothing

An input or an output has a spelling that the language leaves to its users and that the generator needs for nothing else: not
for a local variable, and not for a type, a function or a name of its own (`words`). Two declared names have the same spelling
exactly if one of them is a word that is taken, and the other is that word with an underscore after it. The main statement is
`identifiers_capture_free`.
-/

namespace ShaderTrace.Glsl

open Identifier

/-! ## Words that are taken -/

/-- The word is reserved, or a local variable may be spelled so. -/
def Taken (word : String) : Prop := isReserved word = true ∨ isLocal word = true

instance (word : String) : Decidable (Taken word) := inferInstanceAs (Decidable (_ ∨ _))

/-- A name that is taken gets an underscore. -/
theorem identFor_of_taken {name : String} (h : Taken name) : identFor name = name ++ "_" := by
  rw [identFor, if_pos (Bool.or_eq_true _ _ ▸ h)]

/-- Any other name is its own identifier. -/
theorem identFor_of_not_taken {name : String} (h : ¬Taken name) : identFor name = name := by
  rw [identFor, if_neg fun ht => h (by simpa [Taken] using ht)]

/-- No reserved word ends with an underscore. -/
theorem getLast?_of_reserved {word : String} (h : isReserved word = true) : word.toList.getLast? ≠ some '_' := by
  have hall : (reserved.all fun word => word.toList.getLast? != some '_') = true := by decide +kernel
  exact bne_iff_ne.1 (List.all_eq_true.1 hall word (List.contains_iff_mem.1 h))

/-- No name of a variable of `main` ends with an underscore. -/
theorem getLast?_of_local {word : String} (h : isLocal word = true) : word.toList.getLast? ≠ some '_' := by
  rw [isLocal] at h
  unfold isLocalChars at h
  split at h
  · rename_i digits heq
    rw [Bool.and_eq_true, List.all_eq_true, Bool.not_eq_true', List.isEmpty_eq_false_iff] at h
    rw [heq, List.getLast?_cons_of_ne_nil h.1]
    intro hlast
    have hdigit := h.2 '_' (List.mem_of_getLast? hlast)
    cases hdigit
  · cases h

/-- No word that is taken ends with an underscore. -/
theorem Taken.getLast? {word : String} (h : Taken word) : word.toList.getLast? ≠ some '_' :=
  h.elim getLast?_of_reserved getLast?_of_local

/-- With an underscore after it, no word that is taken begins with `gl_`. -/
theorem Taken.toList_ne {word : String} (h : Taken word) : word.toList ≠ ['g', 'l'] := by
  intro heq
  obtain rfl : word = "gl" := String.toList_injective heq
  revert h
  decide

/-- With an underscore at its end no name is taken. -/
theorem not_taken_append_underscore (word : String) : ¬Taken (word ++ "_") := by
  intro h
  refine h.getLast? ?_
  rw [String.toList_append]
  exact List.getLast?_concat

/-- What an input or an output is spelled as is not taken. -/
theorem not_taken_identFor (name : String) : ¬Taken (identFor name) := by
  by_cases h : Taken name
  · rw [identFor_of_taken h]
    exact not_taken_append_underscore name
  · rwa [identFor_of_not_taken h]

/-! ## Declarable names stay declarable -/

/-- Every character of an identifier may stand inside one. -/
theorem isContinue_of_isIdentifierChars {cs : List Char} (h : isIdentifierChars cs = true) {c : Char} (hc : c ∈ cs) :
    isContinue c = true := by
  cases cs with
  | nil => cases hc
  | cons first rest =>
    rw [isIdentifierChars, Bool.and_eq_true, List.all_eq_true] at h
    rcases List.mem_cons.1 hc with rfl | hc
    · have hstart := h.1
      rw [isStart, Bool.or_eq_true] at hstart
      rcases hstart with hletter | hmark <;> simp [isContinue, *]
    · exact h.2 c hc

/-- An identifier stays one with an underscore at its end. -/
theorem isIdentifierChars_append {cs : List Char} (h : isIdentifierChars cs = true) :
    isIdentifierChars (cs ++ ['_']) = true := by
  cases cs with
  | nil => cases h
  | cons c cs =>
    rw [isIdentifierChars, Bool.and_eq_true] at h
    rw [List.cons_append, isIdentifierChars, Bool.and_eq_true, List.all_append, h.2]
    exact ⟨h.1, by decide⟩

/-- The identifier for an identifier is one. -/
theorem isIdentifier_identFor {name : String} (h : isIdentifier name = true) : isIdentifier (identFor name) = true := by
  unfold identFor
  split
  · rw [isIdentifier, String.toList_append]
    exact isIdentifierChars_append h
  · exact h

/-- An underscore at its end does not give a name the reserved beginning, unless it is nearly that. -/
theorem isPrefixOf_append {cs : List Char} (h : "gl_".toList.isPrefixOf cs = false) (hg : cs ≠ ['g', 'l']) :
    "gl_".toList.isPrefixOf (cs ++ ['_']) = false := by
  rcases cs with _ | ⟨a, _ | ⟨b, _ | ⟨c, cs⟩⟩⟩
  · rfl
  · simp [List.isPrefixOf]
  · have hne : a = 'g' → b ≠ 'l' := by simpa using hg
    simpa [List.isPrefixOf, @eq_comm _ 'g', @eq_comm _ 'l'] using hne
  · simpa [List.isPrefixOf] using h

/-- An underscore at its end gives a name no second one in a row, unless it ends with one. -/
theorem hasDoubleUnderscore_append {cs : List Char} (h : hasDoubleUnderscore cs = false) (hl : cs.getLast? ≠ some '_') :
    hasDoubleUnderscore (cs ++ ['_']) = false := by
  fun_induction hasDoubleUnderscore cs with
  | case1 => cases h
  | case2 c cs hno ih =>
    cases cs with
    | nil =>
      have hc : c ≠ '_' := by simpa using hl
      simp [hasDoubleUnderscore, hc]
    | cons d ds =>
      rw [List.cons_append, List.cons_append, hasDoubleUnderscore]
      · exact ih h (by simpa using hl)
      · intro rest hc hrest
        exact hno ds hc (by simpa using (List.cons.inj hrest).1)
  | case3 => rfl

/-- The identifier for a name that can be declared can be declared. -/
theorem isDeclarable_identFor {name : String} (h : isDeclarable name = true) : isDeclarable (identFor name) = true := by
  by_cases ht : Taken name
  · rw [isDeclarable, isDeclarableChars, Bool.and_eq_true, Bool.and_eq_true, Bool.not_eq_true', Bool.not_eq_true'] at h ⊢
    rw [identFor_of_taken ht, String.toList_append]
    exact ⟨⟨isIdentifierChars_append h.1.1, isPrefixOf_append h.1.2 ht.toList_ne⟩, hasDoubleUnderscore_append h.2 ht.getLast?⟩
  · rwa [identFor_of_not_taken ht]

/-- Two names are spelled alike exactly if one is taken and the other is that with an underscore after it. -/
theorem identFor_eq_iff {a b : String} (h : a ≠ b) :
    identFor a = identFor b ↔ ∃ word, Taken word ∧ (a = word ∧ b = word ++ "_" ∨ b = word ∧ a = word ++ "_") := by
  constructor
  · intro heq
    by_cases ha : Taken a
    · rw [identFor_of_taken ha] at heq
      by_cases hb : Taken b
      · rw [identFor_of_taken hb] at heq
        exact absurd ((String.append_left_inj _).1 heq) h
      · rw [identFor_of_not_taken hb] at heq
        exact ⟨a, ha, .inl ⟨rfl, heq.symm⟩⟩
    · rw [identFor_of_not_taken ha] at heq
      by_cases hb : Taken b
      · rw [identFor_of_taken hb] at heq
        exact ⟨b, hb, .inr ⟨rfl, heq⟩⟩
      · rw [identFor_of_not_taken hb] at heq
        exact absurd heq h
  · rintro ⟨word, hword, ⟨rfl, rfl⟩ | ⟨rfl, rfl⟩⟩
    · rw [identFor_of_taken hword, identFor_of_not_taken (not_taken_append_underscore a)]
    · rw [identFor_of_taken hword, identFor_of_not_taken (not_taken_append_underscore b)]

/-! ## The words that the generator writes -/

namespace Expr

mutual

/-- The names of types, of functions, of the language and of the generator in an expression: all names but those of variables
and of lanes. -/
def words : Expr → List String
  | var _ | literal _ => []
  | name spelling => [spelling]
  | field object _ => object.words
  | unary _ operand => operand.words
  | binary _ left right => left.words ++ right.words
  | call function arguments => function :: wordsAll arguments

def wordsAll : List Expr → List String
  | [] => []
  | e :: es => e.words ++ wordsAll es

end

end Expr

namespace Stmt

mutual

def words : Stmt → List String
  | define type _ value => type :: value.words
  | declare type _ => [type]
  | assign _ value | assignLane _ _ value => value.words
  | block body | otherwise body => wordsAll body
  | guarded _ condition body => condition.words ++ wordsAll body
  | count _ start stop body => "int" :: (start.words ++ stop.words ++ wordsAll body)

def wordsAll : List Stmt → List String
  | [] => []
  | stmt :: stmts => stmt.words ++ wordsAll stmts

end

end Stmt

def Shader.words (shader : Shader) : List String :=
  (if shader.usesDispatchSize then ["ivec2", dispatchSize] else []) ++ (shader.inputs ++ shader.outputs).map (·.spelling) ++
    ["void", "main"] ++ Stmt.wordsAll shader.body

/-- A word that no input or output is spelled as. -/
def Barred (word : String) : Prop := isReserved word = true ∨ word = fragCoord

instance (word : String) : Decidable (Barred word) := inferInstanceAs (Decidable (_ ∨ _))

/-- No identifier is one of the words that are barred. -/
theorem identFor_ne_of_barred {name word : String} (hn : isDeclarable name = true) (h : Barred word) :
    identFor name ≠ word := by
  rintro rfl
  rcases h with h | h
  · exact not_taken_identFor name (.inl h)
  · have hdeclarable := isDeclarable_identFor hn
    rw [h] at hdeclarable
    cases hdeclarable

/-- The names of types are barred. -/
theorem barred_typeName {type : ValueType} {name : String} (h : typeName? type = some name) : Barred name := by
  refine .inl ?_
  unfold typeName? at h
  split at h
  · cases h
  · split at h
    · obtain ⟨kind, -, hsampler⟩ := Option.bind_eq_some_iff.1 h
      have hall : ∀ oneDimensional : Bool, ∀ kind ∈ [ScalarKind.bool, .int, .uint, .float],
          ∀ name ∈ samplerName? oneDimensional kind, isReserved name = true := by decide +kernel
      exact hall _ kind (by cases kind <;> decide) name hsampler
    · obtain ⟨before, after, hlist, -⟩ := List.lookup_eq_some_iff.1 h
      have hall : ∀ entry ∈ plainTypeNames, isReserved entry.2 = true := by decide +kernel
      exact hall (type, name) (by rw [hlist]; simp)

/-- The names of functions are barred. -/
theorem barred_functionName {builtin : Builtin} (hi : builtin ≠ .index) (hn : builtin ≠ .normalizedIndex) :
    Barred (Expr.functionName builtin) := by
  refine .inl ?_
  cases builtin with
  | index => exact absurd rfl hi
  | normalizedIndex => exact absurd rfl hn
  | _ => decide

/-- The words of the index are barred. -/
theorem barred_index : ∀ word ∈ Expr.index.words, Barred word := by
  have hall : Expr.index.words = ["ivec2", fragCoord] := rfl
  rw [hall]
  decide

/-- The words of the normalized index are barred. -/
theorem barred_normalizedIndex : ∀ word ∈ Expr.normalizedIndex.words, Barred word := by
  have hall : Expr.normalizedIndex.words = [fragCoord, "vec2", dispatchSize] := rfl
  rw [hall]
  decide

/-- If the words of each expression are barred, so are those of the row. -/
theorem barred_wordsAll {exprs : List Expr} (h : ∀ e ∈ exprs, ∀ word ∈ e.words, Barred word) :
    ∀ word ∈ Expr.wordsAll exprs, Barred word := by
  induction exprs with
  | nil => simp [Expr.wordsAll]
  | cons e exprs ih =>
    rw [List.forall_mem_cons] at h
    rw [Expr.wordsAll, List.forall_mem_append]
    exact ⟨h.1, ih h.2⟩

/-- A call of a built-in function brings in nothing but barred words. -/
theorem barred_builtin {builtin : Builtin} {exprs : List Expr} (h : ∀ e ∈ exprs, ∀ word ∈ e.words, Barred word) :
    ∀ word ∈ (Expr.builtin builtin exprs).words, Barred word := by
  unfold Expr.builtin
  split
  · exact barred_index
  · exact barred_normalizedIndex
  · rename_i hi hn
    rw [Expr.words]
    exact List.forall_mem_cons.2 ⟨barred_functionName hi hn, barred_wordsAll h⟩

/-- What is cut off a texel brings no words. -/
theorem words_texel (type : ValueType) (fetched : Expr) : (Expr.texel type fetched).words = fetched.words := by
  unfold Expr.texel
  split <;> rfl

/-- The words of an expression that are no variables are barred. -/
theorem barred_of_expression {scope : Scope} (tree : Tree) {expr : Expr} (h : expression scope tree = .ok expr) :
    ∀ word ∈ expr.words, Barred word := by
  refine @expression_induction scope (fun expr => ∀ word ∈ expr.words, Barred word)
    (fun rendered below belowAll => ?_) tree expr h
  cases rendered with
  | var | literal | member => simp [Expr.words]
  | index => exact barred_index
  | normalizedIndex => exact barred_normalizedIndex
  | unary op _ hc he =>
    rw [Expr.words]
    exact below (by simp [hc]) he
  | binary op _ hc hl hr =>
    rw [Expr.words, List.forall_mem_append]
    exact ⟨below (by simp [hc]) hl, below (by simp [hc]) hr⟩
  | convert _ ht _ hes =>
    rw [Expr.words, List.forall_mem_cons]
    exact ⟨barred_typeName ht, barred_wordsAll (belowAll (List.Subset.refl _) hes)⟩
  | call _ hc _ _ _ hes => exact barred_builtin (belowAll (by simp [hc]) hes)
  | sample1d _ hc _ _ hb hi =>
    rw [words_texel, Expr.words, List.forall_mem_cons]
    simp only [Expr.wordsAll, List.forall_mem_append]
    exact ⟨by decide, below (by simp [hc]) hb, below (by simp [hc]) hi, by simp⟩
  | sample2d _ hc _ _ hb hx hy =>
    rw [words_texel, Expr.words, List.forall_mem_cons]
    simp only [Expr.wordsAll, Expr.words, List.forall_mem_append, List.forall_mem_cons]
    exact ⟨by decide, below (by simp [hc]) hb, ⟨by decide, below (by simp [hc]) hx, below (by simp [hc]) hy, by simp⟩, by simp⟩

theorem wordsAll_append (stmts stmts' : List Stmt) :
    Stmt.wordsAll (stmts ++ stmts') = Stmt.wordsAll stmts ++ Stmt.wordsAll stmts' := by
  induction stmts with
  | nil => rfl
  | cons stmt stmts ih => rw [List.cons_append, Stmt.wordsAll, ih, Stmt.wordsAll, List.append_assoc]

/-- The words of statements that are no variables are barred. -/
theorem barred_of_statements {scope : Scope} {previous : Option NodeKind} (trees : List Tree) {stmts : List Stmt}
    (h : statements scope previous trees = .ok stmts) : ∀ word ∈ Stmt.wordsAll stmts, Barred word := by
  cases trees with
  | nil =>
    cases h
    simp [Stmt.wordsAll]
  | cons tree trees =>
    obtain ⟨-, first, scope', rest, hg, hrest, rfl⟩ := statements_cons_eq_ok_iff.1 h
    have inside : ∀ {body : List Tree} {inner : Scope} {written : List Stmt}, body.Sublist tree.children →
        statements inner none body = .ok written → ∀ word ∈ Stmt.wordsAll written, Barred word := by
      intro body inner written hsub hbody
      have hlt := Tree.sizeAll_lt_of_sublist hsub trees
      exact barred_of_statements body hbody
    have after : ∀ word ∈ Stmt.wordsAll rest, Barred word := by
      have hlt := tree.sizeAll_lt_cons trees
      exact barred_of_statements trees hrest
    rw [wordsAll_append, List.forall_mem_append]
    refine ⟨?_, after⟩
    cases hg with
    | define _ _ hv _ _ _ _ hs =>
      simp only [Stmt.wordsAll, Stmt.words, List.append_nil, List.forall_mem_cons]
      exact ⟨barred_typeName hs, barred_of_expression _ hv⟩
    | assign _ _ hv =>
      simp only [Stmt.wordsAll, Stmt.words, List.append_nil]
      exact barred_of_expression _ hv
    | declareLane _ _ hv _ _ _ _ hs =>
      simp only [Stmt.wordsAll, Stmt.words, List.append_nil, List.singleton_append, List.forall_mem_cons]
      exact ⟨barred_typeName hs, barred_of_expression _ hv⟩
    | assignLane _ _ hv =>
      simp only [Stmt.wordsAll, Stmt.words, List.append_nil]
      exact barred_of_expression _ hv
    | guarded keyword _ hc hcond hb =>
      simp only [Stmt.wordsAll, Stmt.words, List.append_nil, List.forall_mem_append]
      exact ⟨barred_of_expression _ hcond, inside (by rw [hc]; exact List.sublist_cons_self _ _) hb⟩
    | otherwise _ hb | block _ hb =>
      simp only [Stmt.wordsAll, Stmt.words, List.append_nil]
      exact inside (List.Sublist.refl _) hb
    | count _ hc _ hfirst hlast hb =>
      simp only [Stmt.wordsAll, Stmt.words, List.append_nil, List.forall_mem_append, List.forall_mem_cons]
      refine ⟨by decide, ⟨barred_of_expression _ hfirst, barred_of_expression _ hlast⟩, inside ?_ hb⟩
      rw [hc]
      exact (List.sublist_cons_self _ _).trans (List.sublist_cons_self _ _)
termination_by Tree.sizeAll trees

/-- The words of a shader that are no variables are barred. -/
theorem Made.barred {root main : Tree} {shader : Shader} (h : Made root main shader) : ∀ word ∈ shader.words, Barred word := by
  have hspellings : ∀ d ∈ shader.inputs ++ shader.outputs, Barred d.spelling :=
    fun d hd => barred_typeName (h.typeName?_eq hd)
  simp only [Shader.words, List.forall_mem_append, List.forall_mem_map]
  refine ⟨⟨⟨?_, List.forall_mem_append.1 hspellings⟩, by decide⟩, barred_of_statements main.children h.body⟩
  split <;> decide

/-- A declarable name is spelled as an identifier that is declarable too and is not taken. So it is spelled like no local
variable, and like no other word that the generator writes; and that is how the inputs and outputs of a shader are spelled. Two
such names are spelled alike exactly if one of them is taken, and the other is that name with an underscore after it. -/
theorem identifiers_capture_free :
    (∀ name, isDeclarable name = true →
      (isDeclarable (identFor name) = true ∧ isReserved (identFor name) = false ∧ isLocal (identFor name) = false) ∧
      (∀ symbol, identFor name ≠ localName symbol) ∧
      ∀ root shader, shaderOf root = .ok shader → identFor name ∉ shader.words) ∧
    (∀ root shader, shaderOf root = .ok shader → ∀ d ∈ shader.inputs ++ shader.outputs, d.ident = identFor d.name) ∧
    ∀ a b, isDeclarable a = true → isDeclarable b = true → a ≠ b → (identFor a = identFor b ↔
      ∃ word, Taken word ∧ (a = word ∧ b = word ++ "_" ∨ b = word ∧ a = word ++ "_")) := by
  refine ⟨fun name hname => ⟨?_, ?_, ?_⟩, ?_, fun a b _ _ => identFor_eq_iff⟩
  · have hfree := not_or.1 (not_taken_identFor name)
    exact ⟨isDeclarable_identFor hname, Bool.eq_false_iff.2 hfree.1, Bool.eq_false_iff.2 hfree.2⟩
  · intro symbol heq
    exact not_taken_identFor name (.inr (heq ▸ isLocal_localName symbol))
  · intro root shader hshader hmem
    obtain ⟨main, hmade⟩ := shaderOf_eq_ok_iff.1 hshader
    exact identFor_ne_of_barred hname (hmade.barred _ hmem) rfl
  · intro root shader hshader d hd
    obtain ⟨main, hmade⟩ := shaderOf_eq_ok_iff.1 hshader
    exact hmade.ident_eq hd

/-- A program with one input, which has the name of a function. -/
def sineRoot : Tree :=
  .node ⟨0⟩ { kind := .program, type := .void }
    [.node ⟨1⟩ { kind := .constData, type := .void }
      [.node ⟨2⟩ { kind := .constVar, type := .float, payload := .symbol ⟨0⟩, name := some "sin" } []],
      .node ⟨3⟩ { kind := .main, type := .void } []]

def sineShader : Shader := ⟨false, [⟨⟨0⟩, "sin", "sin_", .float, "float"⟩], [], []⟩

/-- The input of the name `sin` is no function, and an input of the name `sin_` would be spelled like it. -/
theorem identifiers_capture_free_function :
    isDeclarable "sin" = true ∧ isDeclarable "sin_" = true ∧ shaderOf sineRoot = .ok sineShader ∧
      isDeclarable (identFor "sin") = true ∧ "sin_" ∉ sineShader.words ∧ identFor "sin" = identFor "sin_" := by
  have hname : isDeclarable "sin" = true := by decide
  have hname' : isDeclarable "sin_" = true := by decide
  have hshader : shaderOf sineRoot = .ok sineShader := by rfl
  obtain ⟨hnames, hidents, hequal⟩ := identifiers_capture_free
  obtain ⟨hfree, -, hcapture⟩ := hnames "sin" hname
  have hident : "sin_" = identFor "sin" := hidents sineRoot sineShader hshader _ List.mem_cons_self
  refine ⟨hname, hname', hshader, hfree.1, ?_, ?_⟩
  · rw [hident]
    exact hcapture sineRoot sineShader hshader
  · exact (hequal "sin" "sin_" hname hname' (by decide)).2 ⟨"sin", .inl (by decide), .inl ⟨rfl, rfl⟩⟩

end ShaderTrace.Glsl
