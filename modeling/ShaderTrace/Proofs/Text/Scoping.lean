import ShaderTrace.Proofs.Execution.Simulation
import ShaderTrace.Proofs.Text.Rows

/-!
# The text of a shader keeps to the rules of scopes

The generator counts symbols as visible, a reader of the text looks names up. At every line that is written for a recording the
two agree (`Mirrors`): a symbol is visible exactly if its spelling is declared, and it then means that symbol. One statement keeps
this, and braces undo what is declared between them (`scoped_of_arranged`). The main statement is `finished_text_scoped`: in the
text of a shader every name that stands for a symbol is declared, nothing is declared twice or hidden, and no input is written to.
-/

namespace ShaderTrace.Glsl

open Execution (Arranged spelling distinct_scope spelling_scope visible_scope arranged_main)
open Recording (Ledger)

/-! ## Variables of expressions -/

/-- A variable of expressions is a variable of one of them. -/
theorem mem_varsAll {v : Variable} {exprs : List Expr} : v ∈ Expr.varsAll exprs ↔ ∃ e ∈ exprs, v ∈ e.vars := by
  induction exprs with
  | nil => simp [Expr.varsAll]
  | cons e exprs ih => simp [Expr.varsAll, ih]

/-- The variables of a call are those of its arguments. -/
theorem vars_builtin {builtin : Builtin} {exprs : List Expr} {v : Variable} (h : v ∈ (Expr.builtin builtin exprs).vars) :
    v ∈ Expr.varsAll exprs := by
  unfold Expr.builtin at h
  split at h
  · simp [Expr.index, Expr.vars, Expr.varsAll] at h
  · simp [Expr.normalizedIndex, Expr.vars, Expr.varsAll] at h
  · exact h

theorem vars_texel (type : ValueType) (fetched : Expr) : (Expr.texel type fetched).vars = fetched.vars := by
  unfold Expr.texel
  split <;> rfl

/-- The variables of a rendered expression stand for visible symbols. -/
theorem visible_of_expression {scope : Scope} (tree : Tree) {expr : Expr} (h : expression scope tree = .ok expr) :
    ∀ v ∈ expr.vars, scope.isVisible v.symbol = true ∧ v = scope.variableOf v.symbol := by
  refine @expression_induction scope
    (fun expr => ∀ v ∈ expr.vars, scope.isVisible v.symbol = true ∧ v = scope.variableOf v.symbol)
    (fun {node _} rendered below belowAll v hv => ?_) tree expr h
  have belowRow : ∀ {children : List Tree} {es : List Expr}, children ⊆ node.children →
      children.mapM (expression scope) = .ok es → v ∈ Expr.varsAll es →
      scope.isVisible v.symbol = true ∧ v = scope.variableOf v.symbol := by
    intro children es hsub hes hv
    obtain ⟨e, he, hv⟩ := mem_varsAll.1 hv
    exact belowAll hsub hes e he v hv
  cases rendered with
  | var _ _ hvisible =>
    obtain rfl := List.mem_singleton.1 hv
    exact ⟨hvisible, rfl⟩
  | literal => cases hv
  | member _ _ hvisible =>
    obtain rfl := List.mem_singleton.1 hv
    exact ⟨hvisible, rfl⟩
  | index | normalizedIndex => cases hv
  | unary op _ hc he => exact below (by simp [hc]) he v hv
  | binary op _ hc hl hr =>
    rcases List.mem_append.1 hv with hv | hv
    · exact below (by simp [hc]) hl v hv
    · exact below (by simp [hc]) hr v hv
  | convert _ _ _ hes => exact belowRow (List.Subset.refl _) hes hv
  | call _ hc _ _ _ hes => exact belowRow (by simp [hc]) hes (vars_builtin hv)
  | sample1d _ hc _ _ hb hi =>
    rw [vars_texel] at hv
    simp only [Expr.vars, Expr.varsAll, List.append_nil, List.mem_append] at hv
    rcases hv with hv | hv
    · exact below (by simp [hc]) hb v hv
    · exact below (by simp [hc]) hi v hv
  | sample2d _ hc _ _ hb hx hy =>
    rw [vars_texel] at hv
    simp only [Expr.vars, Expr.varsAll, List.append_nil, List.mem_append] at hv
    rcases hv with hv | hv | hv
    · exact below (by simp [hc]) hb v hv
    · exact below (by simp [hc]) hx v hv
    · exact below (by simp [hc]) hy v hv

/-! ## Scopes and readings -/

/-- What a reader knows of a symbol that a scope sees. -/
def seenOf (scope : Scope) (symbol : SymbolId) : Seen := ⟨some symbol, spelling scope symbol, scope.isInput symbol⟩

/-- A reader of the text knows exactly what the scope sees. -/
structure Mirrors (scope : Scope) (reading : Reading) : Prop where
  distinct : Function.Injective (spelling scope)
  inputs : ∀ symbol, scope.isInput symbol = true → scope.isVisible symbol = true
  lookup : ∀ symbol, reading.lookup (spelling scope symbol) =
    if scope.isVisible symbol = true then some (seenOf scope symbol) else none
  pending : reading.pending = []

namespace Mirrors

variable {scope : Scope} {reading reading' : Reading} {symbol : SymbolId}

/-- A visible symbol is found by its spelling. -/
theorem visible (h : Mirrors scope reading) (hv : scope.isVisible symbol = true) :
    reading.lookup (spelling scope symbol) = some (seenOf scope symbol) := by
  rw [h.lookup, if_pos hv]

/-- The spelling of a symbol that is not visible finds nothing. -/
theorem invisible (h : Mirrors scope reading) (hn : scope.isVisible symbol = false) :
    reading.lookup (spelling scope symbol) = none := by
  rw [h.lookup, if_neg (Bool.eq_false_iff.1 hn)]

/-- A symbol that is not visible is no input. -/
theorem isInput_eq_false (h : Mirrors scope reading) (hn : scope.isVisible symbol = false) : scope.isInput symbol = false := by
  refine Bool.eq_false_iff.2 fun hi => ?_
  rw [h.inputs symbol hi] at hn
  cases hn

/-- A reading that sees the same mirrors the scope too. -/
theorem of_visible (h : Mirrors scope reading) (hv : reading'.visible = reading.visible) (hp : reading'.pending = []) :
    Mirrors scope reading' where
  distinct := h.distinct
  inputs := h.inputs
  lookup symbol := by
    rw [← h.lookup symbol, Reading.lookup, hv]
    rfl
  pending := hp

/-- A reading that sees one more mirrors the scope in which that is declared. -/
theorem declare (h : Mirrors scope reading) (hn : scope.isVisible symbol = false)
    (hv : reading'.visible = ⟨some symbol, spelling scope symbol, false⟩ :: reading.visible) (hp : reading'.pending = []) :
    Mirrors (scope.declare symbol) reading' where
  distinct := h.distinct
  inputs other hi := isVisible_iff.2 (List.mem_cons_of_mem _ (isVisible_iff.1 (h.inputs other hi)))
  lookup other := by
    show reading'.lookup (spelling scope other) = _
    rw [Reading.lookup, hv, List.find?_cons]
    by_cases heq : other = symbol
    · subst heq
      have hdeclared : (scope.declare other).isVisible other = true := isVisible_iff.2 List.mem_cons_self
      rw [if_pos hdeclared, seenOf, show (scope.declare other).isInput other = false from h.isInput_eq_false hn]
      simp only [beq_self_eq_true]
      rfl
    · have hspelling : spelling scope symbol ≠ spelling scope other := fun hs => heq (h.distinct hs).symm
      have hsame : (scope.declare symbol).isVisible other = scope.isVisible other := by
        rw [Bool.eq_iff_iff, isVisible_iff, isVisible_iff]
        exact ⟨fun hm => (List.mem_cons.1 hm).resolve_left heq, List.mem_cons_of_mem _⟩
      rw [hsame, beq_eq_false_iff_ne.2 hspelling]
      exact h.lookup other
  pending := hp

/-- The variables of a rendered expression are declared. -/
theorem resolved (h : Mirrors scope reading) {tree : Tree} {expr : Expr} (he : expression scope tree = .ok expr) :
    ∀ v ∈ expr.vars, ∃ seen, reading.lookup v.spelling = some seen ∧ seen.symbol? = some v.symbol := by
  intro v hv
  obtain ⟨hvisible, hv⟩ := visible_of_expression tree he v hv
  refine ⟨seenOf scope v.symbol, ?_, rfl⟩
  rw [hv]
  exact h.visible hvisible

/-- A symbol that is no input may be written to. -/
theorem writable (h : Mirrors scope reading) (hi : scope.isInput symbol = false) :
    ∀ seen ∈ reading.lookup (spelling scope symbol), seen.isInput = false := by
  intro seen hm
  rw [h.lookup] at hm
  split at hm
  · cases hm
    exact hi
  · cases hm

end Mirrors

/-! ## Statements -/

section Statements

variable {Γ : Ledger} {scope : Scope} {reading : Reading}

/-- A variable may be defined where its symbol is not visible. -/
theorem allowed_define (h : Mirrors scope reading) {symbol : SymbolId} (hn : scope.isVisible symbol = false) {tree : Tree}
    {value : Expr} (hv : expression scope tree = .ok value) (type : String) :
    Allowed reading (.define type (scope.variableOf symbol) value) where
  resolved := h.resolved hv
  apart := by
    rintro _ ⟨⟩
    exact h.invisible hn
  writable := by
    rintro _ ⟨⟩
    exact h.writable (h.isInput_eq_false hn)

/-- A variable may be declared where its symbol is not visible. -/
theorem allowed_declare (h : Mirrors scope reading) {symbol : SymbolId} (hn : scope.isVisible symbol = false) (type : String) :
    Allowed reading (.declare type (scope.variableOf symbol)) where
  resolved := by
    rintro _ ⟨⟩
  apart := by
    rintro _ ⟨⟩
    exact h.invisible hn
  writable := by
    rintro _ ⟨⟩

/-- A line that gives a value to a variable that is declared, or to a lane of it. -/
theorem allowed_write (h : Mirrors scope reading) {symbol : SymbolId} (hv : scope.isVisible symbol = true)
    (hi : scope.isInput symbol = false) {clause : Clause} {value : Expr}
    (hr : ∀ v ∈ value.vars, ∃ seen, reading.lookup v.spelling = some seen ∧ seen.symbol? = some v.symbol)
    (hu : clause.used = scope.variableOf symbol :: value.vars) (hd : clause.declared? = none)
    (hw : clause.written? = some (scope.variableOf symbol)) : Allowed reading clause where
  resolved := by
    rw [hu]
    intro v hm
    rcases List.mem_cons.1 hm with rfl | hm
    · exact ⟨seenOf scope symbol, h.visible hv, rfl⟩
    · exact hr v hm
  apart := by
    rw [hd]
    rintro _ ⟨⟩
  writable := by
    rw [hw]
    rintro _ ⟨⟩
    exact h.writable hi

/-- A condition is allowed where its expression is rendered. -/
theorem allowed_guarded (h : Mirrors scope reading) {tree : Tree} {condition : Expr}
    (hc : expression scope tree = .ok condition) (keyword : Keyword) : Allowed reading (.guarded keyword condition) where
  resolved := h.resolved hc
  apart := by
    rintro _ ⟨⟩
  writable := by
    rintro _ ⟨⟩

/-- A counter may be declared where its symbol is not visible. -/
theorem allowed_count (h : Mirrors scope reading) {symbol : SymbolId} (hn : scope.isVisible symbol = false) {start stop : Tree}
    {first last : Expr} (hfirst : expression scope start = .ok first) (hlast : expression scope stop = .ok last) :
    Allowed reading (.count (scope.variableOf symbol) first last) where
  resolved := by
    intro v hm
    rcases List.mem_append.1 hm with hm | hm
    · exact h.resolved hfirst v hm
    · exact h.resolved hlast v hm
  apart := by
    rintro _ ⟨⟩
    exact h.invisible hn
  writable := by
    rintro _ ⟨⟩
    exact h.writable (h.isInput_eq_false hn)

/-- A block in braces, after a header that declares nothing but for the block. The rows after the block are read as if it were
not there. -/
theorem scoped_bracedRows {reading' : Reading} (hp : reading.pending = []) (hframe : reading'.frame = reading.frame)
    (houter : reading'.outer = reading.outer) {depth : Nat} {body : List Stmt} {rows : List Row}
    (hbody : Scoped (reading'.step .openBrace) (Stmt.rowsAll (depth + 1) body)) (hrows : Scoped reading rows) :
    Scoped reading' (bracedRows depth (Stmt.rowsAll (depth + 1) body) ++ rows) := by
  have hafter : reading'.after (bracedRows depth (Stmt.rowsAll (depth + 1) body)) = reading := by
    rw [after_bracedRows (Stmt.balanced_rowsAll (depth + 1) body), hframe, houter, ← hp]
  rw [scoped_append, hafter, bracedRows, scoped_cons, scoped_append, scoped_cons]
  exact ⟨⟨allowed_of_plain rfl rfl rfl, hbody, allowed_of_plain rfl rfl rfl, scoped_nil⟩, hrows⟩

/-- What is written for an assignment keeps to the rules, and the reading after it mirrors the scope after it. -/
theorem scoped_assignment {tree : Tree} {stmts : List Stmt} {scope' : Scope} (hg : Generated scope tree stmts scope')
    (hk : tree.kind = .assignment) (h : Mirrors scope reading) (depth : Nat) :
    Scoped reading (Stmt.rowsAll depth stmts) ∧ Mirrors scope' (reading.after (Stmt.rowsAll depth stmts)) := by
  cases hg with
  | define _ _ hv _ _ _ hn _ =>
    exact ⟨scoped_cons.2 ⟨allowed_define h hn hv _, scoped_nil⟩, h.declare hn rfl h.pending⟩
  | assign _ _ hv _ _ hi hn =>
    refine ⟨scoped_cons.2 ⟨allowed_write h hn hi (h.resolved hv) rfl rfl rfl, scoped_nil⟩, ?_⟩
    exact h.of_visible rfl h.pending
  | @declareLane _ _ value owner _ lane type _ _ hv _ _ hi hn _ =>
    have hdeclared : Mirrors (scope.declare owner) (reading.step (.declare type (scope.variableOf owner))) :=
      h.declare hn rfl h.pending
    have hwrite : Allowed (reading.step (.declare type (scope.variableOf owner)))
        (.assignLane (scope.variableOf owner) lane value) := by
      refine allowed_write hdeclared (isVisible_iff.2 List.mem_cons_self) hi ?_ rfl rfl rfl
      -- the value was rendered before its target became visible
      intro v hm
      obtain ⟨hvisible, hv⟩ := visible_of_expression _ hv v hm
      refine ⟨seenOf (scope.declare owner) v.symbol, ?_, rfl⟩
      rw [hv]
      exact hdeclared.visible (isVisible_iff.2 (List.mem_cons_of_mem _ (isVisible_iff.1 hvisible)))
    exact ⟨scoped_cons.2 ⟨allowed_declare h hn type, scoped_cons.2 ⟨hwrite, scoped_nil⟩⟩,
      hdeclared.of_visible rfl hdeclared.pending⟩
  | assignLane _ _ hv _ _ hi hn =>
    refine ⟨scoped_cons.2 ⟨allowed_write h hn hi (h.resolved hv) rfl rfl rfl, scoped_nil⟩, ?_⟩
    exact h.of_visible rfl h.pending
  | guarded keyword hk' =>
    rw [hk] at hk'
    cases keyword <;> cases hk'
  | otherwise hk' | block hk' | count hk' =>
    rw [hk] at hk'
    cases hk'

/-- What is written for a recording keeps to the rules, at a place that mirrors the scope. -/
theorem scoped_of_arranged {trees : List Tree} {stmts : List Stmt} (h : Arranged Γ scope trees stmts) :
    ∀ {reading : Reading} {depth : Nat}, Mirrors scope reading → Scoped reading (Stmt.rowsAll depth stmts) := by
  -- an opening brace hides nothing
  have inside : ∀ {scope : Scope} {reading : Reading}, Mirrors scope reading → Mirrors scope (reading.step .openBrace) := by
    intro scope reading hm
    refine hm.of_visible ?_ rfl
    rw [Reading.visible, Reading.step, hm.pending]
    rfl
  induction h with
  | nil => exact fun _ => scoped_nil
  | assignment hk _ hg _ ih =>
    intro reading depth hm
    obtain ⟨hfirst, hafter⟩ := scoped_assignment hg hk hm depth
    rw [Stmt.rowsAll_append, scoped_append]
    exact ⟨hfirst, ih hafter⟩
  | guarded keyword _ _ _ hcond _ _ ihb ih =>
    intro reading depth hm
    rw [Stmt.rowsAll, Stmt.rows, List.cons_append, scoped_cons]
    exact ⟨allowed_guarded hm hcond keyword, scoped_bracedRows hm.pending rfl rfl (ihb (inside hm)) (ih hm)⟩
  | otherwise _ _ _ ihb ih =>
    intro reading depth hm
    rw [Stmt.rowsAll, Stmt.rows, List.cons_append, scoped_cons]
    exact ⟨allowed_of_plain rfl rfl rfl, scoped_bracedRows hm.pending rfl rfl (ihb (inside hm)) (ih hm)⟩
  | block _ _ _ ihb ih =>
    intro reading depth hm
    rw [Stmt.rowsAll, Stmt.rows]
    exact scoped_bracedRows hm.pending rfl rfl (ihb (inside hm)) (ih hm)
  | count _ _ _ hn _ hfirst _ hlast _ _ ihb ih =>
    intro reading depth hm
    rw [Stmt.rowsAll, Stmt.rows, List.cons_append, scoped_cons]
    refine ⟨allowed_count hm hn hfirst hlast, scoped_bracedRows hm.pending ?_ ?_ ?_ (ih hm)⟩
    · rfl
    · rfl
    · exact ihb (hm.declare hn rfl rfl)

end Statements

/-! ## Names of the whole shader -/

namespace Clause

/-- The line stands before the body of `main`. -/
def isGlobal : Clause → Bool
  | version _ | blank | uniform _ _ _ | output _ _ _ _ | main => true
  | openBrace | closeBrace | guarded _ _ | otherwise | count _ _ _ | define _ _ _ | declare _ _ | assign _ _
  | assignLane _ _ _ => false

/-- A line before the body of `main` only adds the name that it declares. -/
theorem step_of_isGlobal {clause : Clause} (h : clause.isGlobal = true) (reading : Reading) :
    reading.step clause = { reading with frame := clause.declared?.toList ++ reading.frame } := by
  cases clause <;> first | rfl | cases h

/-- A line before the body of `main` uses and writes nothing. -/
theorem used_of_isGlobal {clause : Clause} (h : clause.isGlobal = true) : clause.used = [] ∧ clause.written? = none := by
  cases clause <;> first | exact ⟨rfl, rfl⟩ | cases h

end Clause

/-- What some rows declare, in their order. -/
def namesOf (rows : List Row) : List Seen := rows.filterMap (·.clause.declared?)

section Globals

variable {rows : List Row}

/-- The lines before the body of `main` add the names that they declare. -/
theorem after_globals (h : ∀ row ∈ rows, row.clause.isGlobal = true) (frame : List Seen) :
    Reading.after ⟨frame, [], []⟩ rows = ⟨(namesOf rows).reverse ++ frame, [], []⟩ := by
  induction rows generalizing frame with
  | nil => rfl
  | cons row rows ih =>
    obtain ⟨hrow, hrows⟩ := List.forall_mem_cons.1 h
    show Reading.after (Reading.step _ row.clause) rows = _
    rw [Clause.step_of_isGlobal hrow, ih hrows, namesOf, namesOf, List.filterMap_cons]
    cases row.clause.declared? <;> simp

/-- Names that are different may be declared one after the other. -/
theorem scoped_globals (h : ∀ row ∈ rows, row.clause.isGlobal = true) (hn : ((namesOf rows).map Seen.spelling).Nodup) :
    Scoped .start rows := by
  rintro before row after rfl
  obtain ⟨hu, hw⟩ := Clause.used_of_isGlobal (h row (by simp))
  refine ⟨by simp [hu], ?_, by simp [hw]⟩
  intro seen hseen
  rw [Reading.start, after_globals (fun row hm => h row (List.mem_append_left _ hm)), Reading.lookup, List.find?_eq_none]
  intro earlier hm
  have hearlier : earlier ∈ namesOf before := by simpa [Reading.visible] using hm
  rw [namesOf, List.filterMap_append, List.filterMap_cons, hseen, List.map_append, List.nodup_append] at hn
  have hne := hn.2.2 earlier.spelling (List.mem_map_of_mem hearlier) seen.spelling (by simp)
  simpa using hne

/-- If no spelling occurs twice, a name is found by its own. -/
theorem find?_spelling {names : List Seen} (hn : (names.map Seen.spelling).Nodup) {seen : Seen} (hm : seen ∈ names) :
    names.find? (fun other => other.spelling == seen.spelling) = some seen := by
  induction names with
  | nil => cases hm
  | cons first names ih =>
    rw [List.map_cons, List.nodup_cons] at hn
    rw [List.find?_cons]
    rcases List.mem_cons.1 hm with rfl | hm
    · rw [beq_self_eq_true]
    · have hne : first.spelling ≠ seen.spelling := fun heq => hn.1 (heq ▸ List.mem_map_of_mem hm)
      rw [beq_eq_false_iff_ne.2 hne]
      exact ih hn.2 hm

end Globals

section Shaders

variable {root main : Tree} {shader : Shader}

/-- The names that are declared before the body of `main`. -/
def Shader.names (shader : Shader) : List Seen :=
  (if shader.usesDispatchSize then [⟨none, dispatchSize, true⟩] else [])
    ++ shader.inputs.map (fun d => ⟨some d.symbol, d.ident, true⟩)
    ++ shader.outputs.map (fun d => ⟨some d.symbol, d.ident, false⟩) ++ [⟨none, "main", false⟩]

theorem namesOf_spaced (rows : List Row) : namesOf (spaced rows) = namesOf rows := by
  unfold spaced
  split
  · rename_i h
    rw [List.isEmpty_iff.1 h]
  · rfl

/-- The names that rows declare are those of their parts. -/
theorem namesOf_append (rows rows' : List Row) : namesOf (rows ++ rows') = namesOf rows ++ namesOf rows' :=
  List.filterMap_append

/-- The names that are declared before the body of `main` are those of the shader. -/
theorem namesOf_headerRows (config : Config) (shader : Shader) : namesOf (shader.headerRows config) = shader.names := by
  have hinputs : namesOf (shader.inputs.map fun d => ⟨0, .uniform d.spelling (some d.symbol) d.ident⟩) =
      shader.inputs.map fun d => ⟨some d.symbol, d.ident, true⟩ := by
    rw [namesOf, List.filterMap_map]
    exact congrFun List.filterMap_eq_map _
  have houtputs : namesOf shader.targetRows = shader.outputs.map fun d => ⟨some d.symbol, d.ident, false⟩ := by
    rw [namesOf, Shader.targetRows, List.filterMap_map]
    conv_rhs => rw [← List.zipIdx_map_fst 0 shader.outputs, List.map_map]
    exact congrFun List.filterMap_eq_map _
  have hsize : namesOf (if shader.usesDispatchSize then [⟨0, .uniform "ivec2" none dispatchSize⟩] else []) =
      if shader.usesDispatchSize then [⟨none, dispatchSize, true⟩] else [] := by
    split <;> rfl
  rw [Shader.headerRows, ← List.singleton_append, namesOf_append, namesOf_append, namesOf_append, namesOf_spaced,
    namesOf_spaced, houtputs, Shader.uniformRows, namesOf_append, hinputs, hsize]
  rfl

/-- The rows of the header stand before the body of `main`. -/
theorem isGlobal_headerRows (config : Config) (shader : Shader) :
    ∀ row ∈ shader.headerRows config, row.clause.isGlobal = true := by
  have hspaced : ∀ {rows : List Row}, (∀ row ∈ rows, row.clause.isGlobal = true) →
      ∀ row ∈ spaced rows, row.clause.isGlobal = true := by
    intro rows h row hm
    unfold spaced at hm
    split at hm
    · cases hm
    · rcases List.mem_cons.1 hm with rfl | hm
      · rfl
      · exact h row hm
  have huniforms : ∀ row ∈ shader.uniformRows, row.clause.isGlobal = true := by
    intro row hm
    rcases List.mem_append.1 hm with hm | hm
    · split at hm
      · rw [List.mem_singleton.1 hm]
        rfl
      · cases hm
    · obtain ⟨d, -, rfl⟩ := List.mem_map.1 hm
      rfl
  have htargets : ∀ row ∈ shader.targetRows, row.clause.isGlobal = true := by
    intro row hm
    obtain ⟨d, -, rfl⟩ := List.mem_map.1 hm
    rfl
  intro row hm
  rw [Shader.headerRows, List.mem_cons, List.mem_append, List.mem_append] at hm
  rcases hm with rfl | (hm | hm) | hm
  · rfl
  · exact hspaced huniforms row hm
  · exact hspaced htargets row hm
  · rcases List.mem_cons.1 hm with rfl | hm
    · rfl
    · rw [List.mem_singleton.1 hm]
      rfl

/-- No symbol is spelled as a word that the generator keeps for itself. -/
theorem spelling_ne (hm : Made root main shader) {word : String} (hr : isReserved word = true)
    (hl : Identifier.isLocal word = false) (he : word.toList.getLast? ≠ some '_') (symbol : SymbolId) :
    spelling shader.scope symbol ≠ word := by
  by_cases hv : symbol ∈ shader.scope.visible
  · rw [visible_scope] at hv
    obtain ⟨d, hd, rfl⟩ := List.mem_map.1 hv
    rw [spelling_scope hm hd, hm.ident_eq hd]
    exact identFor_ne hr he d.name
  · have hlookup : shader.scope.globals.lookup symbol = none := by
      rw [List.lookup_eq_none_iff]
      intro global hglobal
      exact bne_iff_ne.2 fun heq => hv (heq ▸ List.mem_map_of_mem hglobal)
    rintro rfl
    rw [spelling, Scope.variableOf, hlookup, Option.getD_none, isLocal_localName] at hl
    cases hl

/-- No variable is spelled `main`. -/
theorem spelling_ne_main (hm : Made root main shader) (symbol : SymbolId) : spelling shader.scope symbol ≠ "main" :=
  spelling_ne hm (by decide +kernel) (by decide +kernel) (by decide +kernel) symbol

/-- No variable is spelled as the extent. -/
theorem spelling_ne_dispatchSize (hm : Made root main shader) (symbol : SymbolId) :
    spelling shader.scope symbol ≠ dispatchSize :=
  spelling_ne hm (by decide +kernel) (by decide +kernel) (by decide +kernel) symbol

/-- The spellings of the names are the extent, if it is used, the inputs, the outputs and `main`. -/
theorem spelling_names (shader : Shader) : shader.names.map Seen.spelling =
    (if shader.usesDispatchSize then [dispatchSize] else [])
      ++ ((shader.inputs ++ shader.outputs).map (·.ident) ++ ["main"]) := by
  cases h : shader.usesDispatchSize <;> simp [Shader.names, h, Function.comp_def]

/-- No spelling is declared twice before the body of `main`. -/
theorem nodup_names (hm : Made root main shader) : (shader.names.map Seen.spelling).Nodup := by
  have hmain : "main" ∉ (shader.inputs ++ shader.outputs).map (·.ident) := by
    intro hmem
    obtain ⟨d, hd, hident⟩ := List.mem_map.1 hmem
    exact spelling_ne_main hm d.symbol ((spelling_scope hm hd).trans hident)
  have hsize : dispatchSize ∉ (shader.inputs ++ shader.outputs).map (·.ident) := by
    intro hmem
    obtain ⟨d, hd, hident⟩ := List.mem_map.1 hmem
    exact spelling_ne_dispatchSize hm d.symbol ((spelling_scope hm hd).trans hident)
  have hrest : ((shader.inputs ++ shader.outputs).map (·.ident) ++ ["main"]).Nodup := by
    rw [← List.concat_eq_append, List.nodup_concat]
    exact ⟨hmain, hm.idents⟩
  rw [spelling_names]
  split
  · rw [List.singleton_append, List.nodup_cons]
    refine ⟨fun hmem => ?_, hrest⟩
    rcases List.mem_append.1 hmem with hmem | hmem
    · exact hsize hmem
    · exact absurd (List.mem_singleton.1 hmem) (by decide)
  · exact hrest

/-- Inputs and outputs are declared as the scope sees them. -/
theorem seenOf_mem_names (hm : Made root main shader) {d : Declaration} (hd : d ∈ shader.inputs ++ shader.outputs) :
    seenOf shader.scope d.symbol ∈ shader.names := by
  rw [seenOf, spelling_scope hm hd]
  have hsymbols := hm.symbols
  rw [List.map_append, List.nodup_append] at hsymbols
  rcases List.mem_append.1 hd with hd | hd
  · have hinput : shader.scope.isInput d.symbol = true := List.contains_iff_mem.2 (List.mem_map_of_mem hd)
    rw [hinput, Shader.names]
    simp only [List.mem_append, List.mem_map]
    exact .inl (.inl (.inr ⟨d, hd, rfl⟩))
  · have hinput : shader.scope.isInput d.symbol = false := by
      refine Bool.eq_false_iff.2 fun hi => ?_
      exact hsymbols.2.2 d.symbol (List.contains_iff_mem.1 hi) d.symbol (List.mem_map_of_mem hd) rfl
    rw [hinput, Shader.names]
    simp only [List.mem_append, List.mem_map]
    exact .inl (.inr ⟨d, hd, rfl⟩)

/-- A reader who has come to the body of `main` knows what the scope of the shader sees. -/
theorem mirrors_scope (hm : Made root main shader) : Mirrors shader.scope ⟨[], [shader.names.reverse], []⟩ where
  distinct := (distinct_scope hm).spelling
  inputs symbol hi := by
    have hmem : symbol ∈ shader.inputs.map (·.symbol) := List.contains_iff_mem.1 hi
    rw [isVisible_iff]
    show symbol ∈ shader.scope.visible
    rw [visible_scope, List.map_append]
    exact List.mem_append_left _ hmem
  lookup symbol := by
    have hvisible : Reading.visible ⟨[], [shader.names.reverse], []⟩ = shader.names.reverse := by simp [Reading.visible]
    have hnodup : (shader.names.reverse.map Seen.spelling).Nodup := by
      rw [List.map_reverse, List.nodup_reverse]
      exact nodup_names hm
    rw [Reading.lookup, hvisible]
    split
    · rename_i hv
      have hmem : symbol ∈ (shader.inputs ++ shader.outputs).map (·.symbol) := by
        rw [← visible_scope]
        exact isVisible_iff.1 hv
      obtain ⟨d, hd, rfl⟩ := List.mem_map.1 hmem
      exact find?_spelling hnodup (List.mem_reverse.2 (seenOf_mem_names hm hd))
    · rename_i hv
      rw [List.find?_eq_none]
      intro seen hseen heq
      have hspelling : spelling shader.scope symbol ∈ shader.names.map Seen.spelling := by
        rw [← beq_iff_eq.1 heq]
        exact List.mem_map_of_mem (List.mem_reverse.1 hseen)
      rw [spelling_names, List.mem_append, List.mem_append] at hspelling
      rcases hspelling with hs | hs | hs
      · split at hs
        · exact spelling_ne_dispatchSize hm symbol (List.mem_singleton.1 hs)
        · cases hs
      · obtain ⟨d, hd, hident⟩ := List.mem_map.1 hs
        rw [← spelling_scope hm hd] at hident
        obtain rfl := (distinct_scope hm).spelling hident
        refine hv (isVisible_iff.2 ?_)
        show d.symbol ∈ shader.scope.visible
        rw [visible_scope]
        exact List.mem_map_of_mem hd
      · exact spelling_ne_main hm symbol (List.mem_singleton.1 hs)
  pending := rfl

/-- The rows of a shader keep to the rules if its body stands beside the main section that it was written for. -/
theorem scoped_rows {Γ : Ledger} (hm : Made root main shader) (h : Arranged Γ shader.scope main.children shader.body)
    (config : Config) : Scoped .start (shader.rows config) := by
  have hglobal := isGlobal_headerRows config shader
  have hnames := namesOf_headerRows config shader
  have hafter : Reading.start.after (shader.headerRows config) = ⟨shader.names.reverse, [], []⟩ := by
    rw [Reading.start, after_globals hglobal, hnames, List.append_nil]
  rw [Shader.rows, scoped_append, hafter]
  refine ⟨scoped_globals hglobal (by rw [hnames]; exact nodup_names hm), ?_⟩
  rw [← List.append_nil (bracedRows 0 _)]
  exact scoped_bracedRows rfl rfl rfl (scoped_of_arranged h (mirrors_scope hm)) scoped_nil

/-- The text of the shader of a finished recording, read line by line: every name that stands for a symbol means a declaration
of that symbol, every declaration has a name that means nothing yet, and no line writes to an input. -/
theorem finished_text_scoped (steps : List Script.Step) (config : Config) (source : Source) (program : Program)
    (hfinish : (Script.runEvery steps .start).2.session.finish = .ok source)
    (hprogram : source.generate config = .ok program) :
    ∃ root shader, source.arena.tree Session.root = .ok root ∧ shaderOf root = .ok shader ∧ program = shader.program config ∧
      program.source = textOf config.indent (shader.rows config) ∧ Scoped .start (shader.rows config) := by
  obtain ⟨Γ, root, hroot, hrecorded⟩ := Recording.exists_recorded_of_finish hfinish
  obtain ⟨root', shader, hroot', hshader, rfl⟩ := generate_eq_ok_iff.1 hprogram
  rw [hroot] at hroot'
  cases hroot'
  obtain ⟨main, hm⟩ := shaderOf_eq_ok_iff.1 hshader
  refine ⟨root, shader, hroot, hshader, rfl, shader.text_eq config, ?_⟩
  exact scoped_rows hm (arranged_main hm hrecorded) config

/-- A vector that is declared for one of its lanes, a loop, and a row of branches that each declare a variable. The output has
the name of the function that all of it stands in. -/
def nestedSteps : List Script.Step :=
  [.block (.enter .constData) none [.call (.input .int "n") (some "n") false] false,
    .block (.enter .outData) none [.call (.output .int "main") (some "sum") false] false,
    .block (.enter .main) none
      [.call (.unbound .int2) (some "pair") false,
        .call (.lane "pair" .x) (some "first") false,
        .call (.assign "first" (.register "n")) none false,
        .block (.forRange "i" (.literal (.int 0)) (.register "n")) (some "i")
          [.call (.express (.binary .gt) [.register "i", .register "first"]) (some "more") false,
            .block (.ifThen (.register "more")) none
              [.call (.var (.register "i")) (some "left") false,
                .call (.update .add "sum" (.register "left")) none false] false,
            .block .otherwise none
              [.call (.var (.register "first")) (some "left") false,
                .call (.assign "sum" (.register "left")) none false] false] false] false]

/-- A script with nested blocks is finished, and its text is scoped. -/
theorem finished_text_scoped_nested :
    (Script.runEvery nestedSteps .start).2.session.finish = .ok (Recording.sourceOf nestedSteps) ∧
      ∃ program root shader, (Recording.sourceOf nestedSteps).generate {} = .ok program ∧
        (Recording.sourceOf nestedSteps).arena.tree Session.root = .ok root ∧ shaderOf root = .ok shader ∧
        program.source = textOf 4 (shader.rows {}) ∧ Scoped .start (shader.rows {}) := by
  have hfinish : (Script.runEvery nestedSteps .start).2.session.finish = .ok (Recording.sourceOf nestedSteps) :=
    Recording.finish_eq_ok_iff.2 ⟨by decide +kernel, rfl⟩
  have hok : ((Recording.sourceOf nestedSteps).generate {}).isOk = true := by decide +kernel
  cases hprogram : (Recording.sourceOf nestedSteps).generate {} with
  | error e =>
    rw [hprogram] at hok
    cases hok
  | ok program =>
    obtain ⟨root, shader, hroot, hshader, -, htext, hscoped⟩ :=
      finished_text_scoped nestedSteps {} _ program hfinish hprogram
    exact ⟨hfinish, program, root, shader, rfl, hroot, hshader, htext, hscoped⟩

end Shaders

end ShaderTrace.Glsl
