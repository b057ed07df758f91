import ShaderTrace.Proofs.Forest
import ShaderTrace.Proofs.Generator.Capture
import ShaderTrace.Proofs.Generator.Failures
import ShaderTrace.Proofs.Heads
import ShaderTrace.Proofs.Text.Manifest
import ShaderTrace.Proofs.Text.Mentions

/-!
# The extent is declared where it is used

The extent of the computation is a uniform that no program declares by itself: a scan over the nodes of main finds out whether
some node needs it. The text of main is made by other walks, which render some nodes as statements, some as expressions, and
some not at all. They agree: the text of a tree has the relative coordinate if a node of the tree needs the extent, and without
such a node it does not even name the extent. The main statement is `extent_declared_iff_used`.
-/

namespace ShaderTrace.Glsl

open Identifier

/-! ## Expressions -/

/-- A literal stands in a literal node. -/
def LiteralHead (head : Head) : Prop := head.literal?.isSome = true → head.kind = .literal

instance (head : Head) : Decidable (LiteralHead head) := inferInstanceAs (Decidable (_ → _))

/-- A test holds somewhere in a tree if it holds of its root or somewhere in its children. -/
theorem any_eq (test : Tree → Bool) (tree : Tree) : tree.any test = (test tree || Tree.anyAll test tree.children) := by
  obtain ⟨id, head, children⟩ := tree
  rw [Tree.any]
  rfl

/-- Nodes of most kinds need by themselves nothing. -/
theorem any_of_kind {tree : Tree} (hk : tree.kind ∉ [NodeKind.normalizedIndex, .function]) :
    tree.any needsDispatchSize = Tree.anyAll needsDispatchSize tree.children := by
  have hneeds : needsDispatchSize tree = false := by
    unfold needsDispatchSize
    split
    · simp_all
    · simp_all
    · rfl
  rw [any_eq, hneeds, Bool.false_or]

/-- The nodes of an arena as they are made: none has too many children, and literals stand in literal nodes. -/
structure Regular (arena : Arena) : Prop where
  roomy : ∀ id, arena.Roomy id
  literals : arena.AllHeads LiteralHead

section Expressions

variable {arena : Arena} {scope : Scope} {tree : Tree}

/-- What may have no children has none. -/
theorem Regular.children_eq_nil (h : Regular arena) (ht : arena.Holds tree) (hk : tree.kind.arity.max = some 0) :
    tree.children = [] := by
  have hlength := h.roomy tree.id _ _ ht.content 0 hk
  rw [List.length_map] at hlength
  exact List.eq_nil_of_length_eq_zero (Nat.le_zero.1 hlength)

/-- Variables, literals and lanes need nothing. -/
theorem Regular.any_leaf (h : Regular arena) (ht : arena.Holds tree)
    (hk : tree.kind ∈ [NodeKind.var, .literal, .member, .index]) : tree.any needsDispatchSize = false := by
  have hkind : ∀ kind ∈ [NodeKind.var, .literal, .member, .index],
      kind.arity.max = some 0 ∧ kind ∉ [NodeKind.normalizedIndex, .function] := by decide
  obtain ⟨hmax, hplain⟩ := hkind _ hk
  rw [any_of_kind hplain, h.children_eq_nil ht hmax, Tree.anyAll]

/-- The arguments of a call show what they need, if each of them does. -/
theorem shows_textAll {trees : List Tree} {exprs : List Expr} (hm : trees.mapM (expression scope) = .ok exprs)
    (h : ∀ tree ∈ trees, ∀ e, expression scope tree = .ok e → Shows (tree.any needsDispatchSize) e.text.toList) :
    Shows (Tree.anyAll needsDispatchSize trees) (Expr.textAll exprs).toList := by
  induction trees generalizing exprs with
  | nil =>
    cases hm
    exact shows_of_plain (by decide)
  | cons tree trees ih =>
    obtain ⟨e, rest, he, hrest, rfl⟩ := mapM_cons_eq_ok_iff.1 hm
    rw [List.forall_mem_cons] at h
    rw [Tree.anyAll]
    exact (h.1 e he).comma (ih hrest h.2)

/-- A function has one number. -/
theorem id_of_ofId? {id : Int32} {builtin : Builtin} (h : Builtin.ofId? id = some builtin) : builtin.id = id := by
  have found : ∀ {id : Int32}, Builtin.ofId? id = some builtin →
      0 ≤ id.toInt ∧ Builtin.all[id.toInt.toNat]? = some builtin := by
    intro id h
    unfold Builtin.ofId? at h
    split at h
    · cases h
    · rename_i hn
      rw [Int32.lt_iff_toInt_lt, Int32.toInt_zero] at hn
      exact ⟨by omega, h⟩
  obtain ⟨hid, hplace⟩ := found h
  obtain ⟨hid', hplace'⟩ := found (ofId?_id builtin)
  have hlt : id.toInt.toNat < Builtin.all.length := (List.getElem?_eq_some_iff.1 hplace).1
  have heq := (List.getElem?_inj hlt (by decide)).1 (hplace.trans hplace'.symm)
  rw [← Int32.toInt_inj]
  omega

/-- A call of a built-in function. Its node needs the extent if the function is the relative coordinate, which has no
arguments; the literal that names the function needs nothing. -/
theorem Regular.shows_call (h : Regular arena) (ht : arena.Holds tree) {first : Tree} {id : Int32} {builtin : Builtin}
    {arguments : List Tree} {exprs : List Expr} (hk : tree.kind = .function) (hc : tree.children = first :: arguments)
    (hl : first.head.literal? = some (.int id)) (hb : Builtin.ofId? id = some builtin)
    (ha : arguments.length = builtin.arity)
    (harguments : Shows (Tree.anyAll needsDispatchSize arguments) (Expr.textAll exprs).toList) :
    Shows (tree.any needsDispatchSize) (Expr.builtin builtin exprs).text.toList := by
  have hfirst : arena.Holds first := ht.child (by rw [hc]; exact List.mem_cons_self)
  have hliteral : first.any needsDispatchSize = false := by
    have hkind : first.kind = .literal := h.literals.tree hfirst (by rw [hl]; rfl)
    exact h.any_leaf hfirst (by rw [hkind]; decide)
  have hneeds : needsDispatchSize tree = true ↔ builtin = .normalizedIndex := by
    have hscan : needsDispatchSize tree = (first.head.literal? == some (.int Builtin.normalizedIndex.id)) := by
      unfold needsDispatchSize
      rw [hk]
      simp only [hc, List.head?_cons, Option.bind_some]
    rw [hscan, hl, beq_iff_eq, Option.some.injEq, Literal.int.injEq]
    constructor
    · rintro rfl
      exact (Option.some.inj (hb.symm.trans (ofId?_id .normalizedIndex)))
    · rintro rfl
      exact (id_of_ofId? hb).symm
  rw [any_eq, hc, Tree.anyAll, hliteral, Bool.false_or]
  by_cases hn : builtin = .normalizedIndex
  · rw [hneeds.2 hn, hn]
    exact List.infix_rfl
  · rw [Bool.eq_false_iff.2 fun ht => hn (hneeds.1 ht), Bool.false_or]
    cases builtin with
    | normalizedIndex => exact absurd rfl hn
    | index =>
      rw [List.eq_nil_of_length_eq_zero ha]
      exact (by decide : ¬Mentions Expr.index.text.toList)
    | _ => exact harguments.call (underscore_functionName hn)

/-- The text of an expression has the relative coordinate if a node of its tree needs the extent, and else does not name the
extent. -/
theorem Regular.shows_expression (h : Regular arena) (hscope : ∀ symbol, Shows false (scope.variableOf symbol).spelling.toList)
    (tree : Tree) (ht : arena.Holds tree) {expr : Expr} (he : expression scope tree = .ok expr) :
    Shows (tree.any needsDispatchSize) expr.text.toList := by
  have below : ∀ child ∈ tree.children, ∀ e, expression scope child = .ok e →
      Shows (child.any needsDispatchSize) e.text.toList := by
    intro child hm e he
    have hlt : child.size < tree.size := Tree.size_lt_of_mem_children hm
    exact Regular.shows_expression h hscope child (ht.child hm) he
  cases rendered_of_expression he with
  | var hk =>
    rw [h.any_leaf ht (by rw [hk]; decide)]
    exact hscope _
  | literal hk =>
    rw [h.any_leaf ht (by rw [hk]; decide)]
    exact shows_of_plain (underscore_literal _)
  | @member owner _ lane hk =>
    rw [h.any_leaf ht (by rw [hk]; decide)]
    exact (show Shows false (Expr.var (scope.variableOf owner)).text.toList from hscope owner).field
      (by cases lane <;> decide)
  | index hk =>
    rw [h.any_leaf ht (by rw [hk]; decide)]
    exact (by decide : ¬Mentions Expr.index.text.toList)
  | normalizedIndex hk =>
    have hneeds : needsDispatchSize tree = true := by rw [needsDispatchSize, hk]
    rw [any_eq, hneeds]
    exact List.infix_rfl
  | unary op hk hc hoperand =>
    rw [any_of_kind (by rw [hk]; cases op <;> decide), hc, Tree.anyAll, Tree.anyAll, Bool.or_false]
    exact (below _ (by simp [hc]) _ hoperand).unary op
  | binary op hk hc hl hr =>
    rw [any_of_kind (by rw [hk]; cases op <;> decide), hc, Tree.anyAll, Tree.anyAll, Tree.anyAll, Bool.or_false]
    exact (below _ (by simp [hc]) _ hl).binary op (below _ (by simp [hc]) _ hr)
  | convert hk htype _ hes =>
    rw [any_of_kind (by rcases hk with hk | hk <;> rw [hk] <;> decide)]
    exact (shows_textAll hes below).call (underscore_typeName htype)
  | call hk hc hl hb ha hes =>
    refine h.shows_call ht hk hc hl hb ha (shows_textAll hes fun child hm => below child ?_)
    rw [hc]
    exact List.mem_cons_of_mem _ hm
  | sample1d hk hc _ _ hb hi =>
    have hes := mapM_cons_eq_ok_iff.2 ⟨_, _, hb, mapM_singleton_eq_ok_iff.2 ⟨_, hi, rfl⟩, rfl⟩
    rw [← hc] at hes
    rw [any_of_kind (by rw [hk]; decide)]
    exact ((shows_textAll hes below).call (by decide)).texel _
  | @sample2d buffer xIndex yIndex _ x y hk hc _ _ hb hx hy =>
    have hpair : [xIndex, yIndex].mapM (expression scope) = .ok [x, y] :=
      mapM_cons_eq_ok_iff.2 ⟨x, [y], hx, mapM_singleton_eq_ok_iff.2 ⟨y, hy, rfl⟩, rfl⟩
    have hindices := shows_textAll hpair fun child hm => below child (by rw [hc]; exact List.mem_cons_of_mem _ hm)
    have hfetched := (below buffer (by simp [hc]) _ hb).comma
      ((hindices.call (by decide : '_' ∉ "ivec2".toList)).comma (shows_of_plain (by decide : '_' ∉ (Expr.textAll []).toList)))
    rw [any_of_kind (by rw [hk]; decide), hc, Tree.anyAll]
    rw [Bool.or_false] at hfetched
    exact (hfetched.call (by decide)).texel _
termination_by tree.size

end Expressions

/-! ## Statements -/

/-- Some row has the relative coordinate if it is needed, and no row names the extent if it is not. -/
def Shown : (needed : Bool) → List Row → Prop
  | true, rows => ∃ row ∈ rows, Shows true row.clause.text.toList
  | false, rows => ∀ row ∈ rows, Shows false row.clause.text.toList

section Statements

variable {arena : Arena} {a b : Bool} {rows rows' : List Row}

/-- Rows show what is needed if both of their parts do. -/
theorem Shown.append (h : Shown a rows) (h' : Shown b rows') : Shown (a || b) (rows ++ rows') := by
  cases a with
  | true =>
    obtain ⟨row, hm, hrow⟩ := h
    exact ⟨row, List.mem_append_left _ hm, hrow⟩
  | false =>
    cases b with
    | true =>
      obtain ⟨row, hm, hrow⟩ := h'
      exact ⟨row, List.mem_append_right _ hm, hrow⟩
    | false => exact List.forall_mem_append.2 ⟨h, h'⟩

/-- A row on its own shows what its text shows. -/
theorem shown_row {row : Row} (h : Shows a row.clause.text.toList) : Shown a [row] := by
  cases a with
  | true => exact ⟨row, List.mem_singleton_self row, h⟩
  | false => exact List.forall_mem_singleton.2 h

/-- Rows in braces show what they showed. -/
theorem Shown.braced (h : Shown a rows) (depth : Nat) : Shown a (bracedRows depth rows) := by
  have hopen : Shown false [⟨depth, .openBrace⟩] :=
    shown_row (shows_of_plain (by decide : '_' ∉ Clause.openBrace.text.toList))
  have hclose : Shown false [⟨depth, .closeBrace⟩] :=
    shown_row (shows_of_plain (by decide : '_' ∉ Clause.closeBrace.text.toList))
  have hrows := (hopen.append h).append hclose
  rwa [Bool.false_or, Bool.or_false] at hrows

/-- The rows of statements show what the nodes below them need. -/
theorem Regular.shown_statements (h : Regular arena) {scope : Scope}
    (hscope : ∀ symbol, Shows false (scope.variableOf symbol).spelling.toList) {previous : Option NodeKind} (trees : List Tree)
    (ht : ∀ tree ∈ trees, arena.Holds tree) {stmts : List Stmt} (hs : statements scope previous trees = .ok stmts) (depth : Nat) :
    Shown (Tree.anyAll needsDispatchSize trees) (Stmt.rowsAll depth stmts) := by
  cases trees with
  | nil =>
    cases hs
    exact List.forall_mem_nil _
  | cons tree trees =>
    obtain ⟨-, first, scope', rest, hg, hrest, rfl⟩ := statements_cons_eq_ok_iff.1 hs
    rw [List.forall_mem_cons] at ht
    have inside : ∀ {body : List Tree} {inner : Scope} {written : List Stmt}, body.Sublist tree.children →
        (∀ symbol, Shows false (inner.variableOf symbol).spelling.toList) → statements inner none body = .ok written →
        Shown (Tree.anyAll needsDispatchSize body) (bracedRows depth (Stmt.rowsAll (depth + 1) written)) := by
      intro body inner written hsub hinner hbody
      have hlt := Tree.sizeAll_lt_of_sublist hsub trees
      exact (Regular.shown_statements h hinner body (fun child hm => ht.1.child (hsub.subset hm)) hbody (depth + 1)).braced depth
    have after : (∀ symbol, Shows false (scope'.variableOf symbol).spelling.toList) →
        Shown (Tree.anyAll needsDispatchSize trees) (Stmt.rowsAll depth rest) := by
      intro hscope'
      have hlt := tree.sizeAll_lt_cons trees
      exact Regular.shown_statements h hscope' trees ht.2 hrest depth
    have shows : ∀ {child : Tree} {e : Expr}, child ∈ tree.children → expression scope child = .ok e →
        Shows (child.any needsDispatchSize) e.text.toList :=
      fun hm he => h.shows_expression hscope _ (ht.1.child hm) he
    rw [Tree.anyAll, Stmt.rowsAll_append]
    -- an assignment needs what its right side needs
    have assigned : ∀ {target source : Tree}, tree.kind = .assignment → tree.children = [target, source] →
        target.kind = .var ∨ target.kind = .member → tree.any needsDispatchSize = source.any needsDispatchSize := by
      intro target source hk hc htarget
      have hleaf : target.any needsDispatchSize = false :=
        h.any_leaf (ht.1.child (by simp [hc])) (by rcases htarget with hk | hk <;> rw [hk] <;> decide)
      rw [any_of_kind (by rw [hk]; decide), hc, Tree.anyAll, Tree.anyAll, Tree.anyAll, hleaf, Bool.false_or, Bool.or_false]
    cases hg with
    | @define _ _ _ symbol _ hk hc hv htarget _ _ _ hspelled =>
      refine Shown.append ?_ (after hscope)
      rw [assigned hk hc (.inl htarget)]
      exact shown_row (shows_define (hscope symbol) (shows (by simp [hc]) hv) (underscore_typeName hspelled))
    | @assign _ _ _ symbol hk hc hv htarget =>
      refine Shown.append ?_ (after hscope)
      rw [assigned hk hc (.inl htarget)]
      exact shown_row (shows_assign (hscope symbol) (shows (by simp [hc]) hv))
    | @declareLane _ _ _ owner _ lane _ hk hc hv htarget _ _ _ hspelled =>
      refine Shown.append ?_ (after hscope)
      rw [assigned hk hc (.inr htarget)]
      have hdeclare : Shown false [⟨depth, .declare _ (scope.variableOf owner)⟩] :=
        shown_row (shows_declare (hscope owner) (underscore_typeName hspelled))
      exact hdeclare.append (shown_row (shows_assignLane (hscope owner) (shows (by simp [hc]) hv) lane))
    | @assignLane _ _ _ owner _ lane hk hc hv htarget =>
      refine Shown.append ?_ (after hscope)
      rw [assigned hk hc (.inr htarget)]
      exact shown_row (shows_assignLane (hscope owner) (shows (by simp [hc]) hv) lane)
    | @guarded keyword _ _ cond _ hk hc hcond hb =>
      refine Shown.append ?_ (after hscope)
      rw [any_of_kind (by rw [hk]; cases keyword <;> decide), hc, Tree.anyAll]
      have hheader : Shown _ [⟨depth, .guarded keyword cond⟩] := shown_row (shows_guarded keyword (shows (by simp [hc]) hcond))
      simpa [Stmt.rowsAll, Stmt.rows] using
        hheader.append (inside (by rw [hc]; exact List.sublist_cons_self _ _) hscope hb)
    | otherwise hk hb =>
      refine Shown.append ?_ (after hscope)
      rw [any_of_kind (by rw [hk]; decide)]
      have hheader : Shown false [⟨depth, .otherwise⟩] :=
        shown_row (shows_of_plain (by decide : '_' ∉ Clause.otherwise.text.toList))
      simpa [Stmt.rowsAll, Stmt.rows] using hheader.append (inside (List.Sublist.refl _) hscope hb)
    | block hk hb =>
      refine Shown.append ?_ (after hscope)
      rw [any_of_kind (by rw [hk]; decide)]
      simpa [Stmt.rowsAll, Stmt.rows] using inside (List.Sublist.refl _) hscope hb
    | @count start stop body symbol first last _ hk hc _ hfirst hlast hb =>
      refine Shown.append ?_ (after hscope)
      rw [any_of_kind (by rw [hk]; decide), hc, Tree.anyAll, Tree.anyAll, ← Bool.or_assoc]
      have hheader : Shown _ [⟨depth, .count (scope.variableOf symbol) first last⟩] :=
        shown_row (shows_count (hscope symbol) (shows (by simp [hc]) hfirst) (shows (by simp [hc]) hlast))
      have hsub : body.Sublist tree.children := by
        rw [hc]
        exact (List.sublist_cons_self _ _).trans (List.sublist_cons_self _ _)
      have hinner : ∀ other, Shows false ((scope.declare symbol).variableOf other).spelling.toList := hscope
      simpa [Stmt.rowsAll, Stmt.rows] using hheader.append (inside hsub hinner hb)
termination_by Tree.sizeAll trees

end Statements

/-! ## The lines of a shader -/

/-- A row as a line of text. -/
def Row.written (indent : Nat) (row : Row) : String :=
  String.ofList (List.replicate (indent * row.depth) ' ') ++ row.clause.text

/-- The text of rows is the lines that they are written as. -/
theorem textOf_eq_unlines (indent : Nat) (rows : List Row) : textOf indent rows = unlines (rows.map (Row.written indent)) := by
  rw [textOf, unlines, List.map_map]
  rfl

/-- A row that is indented shows what its text shows. -/
theorem Shows.written {row : Row} {a : Bool} (h : Shows a row.clause.text.toList) (indent : Nat) :
    Shows a (row.written indent).toList := by
  rw [Row.written, String.toList_append, String.toList_ofList]
  exact h.indent _

/-- The rows before main. -/
def Shader.frontRows (config : Config) (shader : Shader) : List Row :=
  ⟨0, .version config.version⟩ :: (spaced shader.uniformRows ++ spaced shader.targetRows ++ [⟨0, .blank⟩])

/-- The text of a shader is what stands before `main`, and `main`. -/
theorem Shader.text_eq_front (config : Config) (shader : Shader) : shader.text config =
    unlines ((shader.frontRows config).map (Row.written config.indent) ++ "void main()" ::
      (bracedRows 0 (Stmt.rowsAll 1 shader.body)).map (Row.written config.indent)) := by
  have hmain : Row.written config.indent ⟨0, .main⟩ = "void main()" := by
    rw [Row.written, Nat.mul_zero]
    rfl
  have hrows : shader.rows config =
      shader.frontRows config ++ ⟨0, .main⟩ :: bracedRows 0 (Stmt.rowsAll 1 shader.body) := by
    simp [Shader.rows, Shader.headerRows, Shader.frontRows]
  rw [Shader.text_eq, textOf_eq_unlines, hrows, List.map_append, List.map_cons, hmain]

/-- The clauses before main. -/
inductive Front (config : Config) (shader : Shader) : Row → Prop
  | version : Front config shader ⟨0, .version config.version⟩
  | blank : Front config shader ⟨0, .blank⟩
  | extent (h : shader.usesDispatchSize = true) : Front config shader ⟨0, .uniform "ivec2" none dispatchSize⟩
  | input {d : Declaration} (hd : d ∈ shader.inputs) :
    Front config shader ⟨0, .uniform d.spelling (some d.symbol) d.ident⟩
  | output {d : Declaration} (hd : d ∈ shader.outputs) (location : Nat) :
    Front config shader ⟨0, .output location d.spelling d.symbol d.ident⟩

section Front

variable {config : Config} {root main : Tree} {shader : Shader} {row : Row}

/-- The uniforms are the extent, if it is used, and the inputs. -/
theorem mem_uniformRows : row ∈ shader.uniformRows ↔
    shader.usesDispatchSize = true ∧ row = ⟨0, .uniform "ivec2" none dispatchSize⟩ ∨
      ∃ d ∈ shader.inputs, ⟨0, .uniform d.spelling (some d.symbol) d.ident⟩ = row := by
  rw [Shader.uniformRows, List.mem_append, List.mem_map]
  cases shader.usesDispatchSize <;> simp

/-- Every row before `main` is of one of a few forms. -/
theorem front_of_mem (h : row ∈ shader.frontRows config) : Front config shader row := by
  have hspaced : ∀ {rows : List Row}, row ∈ spaced rows → row = ⟨0, .blank⟩ ∨ row ∈ rows := by
    intro rows hm
    unfold spaced at hm
    split at hm
    · cases hm
    · exact List.mem_cons.1 hm
  rw [Shader.frontRows, List.mem_cons, List.mem_append, List.mem_append, List.mem_singleton] at h
  rcases h with rfl | (h | h) | rfl
  · exact .version
  · rcases hspaced h with rfl | h
    · exact .blank
    · rcases mem_uniformRows.1 h with ⟨huses, rfl⟩ | ⟨d, hd, rfl⟩
      · exact .extent huses
      · exact .input hd
  · rcases hspaced h with rfl | h
    · exact .blank
    · obtain ⟨⟨d, location⟩, hm, rfl⟩ := List.mem_map.1 h
      exact .output (List.fst_mem_of_mem_zipIdx hm) location
  · exact .blank

/-- The extent is declared if it is used. -/
theorem extent_mem_frontRows (h : shader.usesDispatchSize = true) :
    ⟨0, .uniform "ivec2" none dispatchSize⟩ ∈ shader.frontRows config := by
  have hm : ⟨0, .uniform "ivec2" none dispatchSize⟩ ∈ shader.uniformRows := mem_uniformRows.2 (.inl ⟨h, rfl⟩)
  have hne : shader.uniformRows.isEmpty = false := by
    rw [List.isEmpty_eq_false_iff]
    exact List.ne_nil_of_mem hm
  simp [Shader.frontRows, spaced, hne, hm]

/-- The rows before `main` are not indented. -/
theorem Front.written_eq (h : Front config shader row) (indent : Nat) : row.written indent = row.clause.text := by
  have hdepth : row.depth = 0 := by cases h <;> rfl
  rw [Row.written, hdepth, Nat.mul_zero]
  exact String.empty_append

/-- No line before main looks like it. -/
theorem Front.ne_main (h : Front config shader row) (indent : Nat) : row.written indent ≠ "void main()" := by
  rw [h.written_eq]
  intro heq
  have hfirst : row.clause.text.toList.head? = some 'v' := by rw [heq]; rfl
  cases h with
  | version =>
    change ("#version " ++ toString config.version).toList.head? = _ at hfirst
    simp at hfirst
  | blank | extent => cases hfirst
  | @input d =>
    change ("uniform " ++ d.spelling ++ " " ++ d.ident ++ ";").toList.head? = _ at hfirst
    simp at hfirst
  | @output d _ location =>
    change ("layout(location = " ++ toString location ++ ") out " ++ d.spelling ++ " " ++ d.ident ++ ";").toList.head? = _
      at hfirst
    simp at hfirst

/-- An input or an output whose name is an identifier is not spelled like the extent. -/
theorem shows_identFor {name : String} (h : isIdentifier name = true) : Shows false (identFor name).toList := by
  have hident := isIdentifier_identFor h
  intro hm
  have heq := (mentions_of_word fun _ => isContinue_of_isIdentifierChars hident).1 hm
  exact identFor_ne (by decide +kernel) (by decide) name (String.toList_injective heq)

/-- No variable of `main` names the extent. -/
theorem shows_localName (symbol : SymbolId) : Shows false (localName symbol).toList := by
  refine shows_of_plain ?_
  rw [toList_localName]
  simp

/-- The inputs and outputs of a shader are named by identifiers. -/
def Identified (shader : Shader) : Prop := ∀ d ∈ shader.inputs ++ shader.outputs, isIdentifier d.name = true

/-- No input or output names the extent. -/
theorem Made.shows_ident (hm : Made root main shader) (hn : Identified shader) {d : Declaration}
    (hd : d ∈ shader.inputs ++ shader.outputs) : Shows false d.ident.toList := by
  rw [hm.ident_eq hd]
  exact shows_identFor (hn d hd)

/-- No variable names the extent. -/
theorem Made.shows_variableOf (hm : Made root main shader) (hn : Identified shader) (symbol : SymbolId) :
    Shows false (shader.scope.variableOf symbol).spelling.toList := by
  rw [Scope.variableOf]
  cases hlookup : shader.scope.globals.lookup symbol with
  | none => exact shows_localName symbol
  | some ident =>
    have hmem := mem_of_lookup hlookup
    rw [Shader.scope, Scope.outermost, globalsOf, globalsOf, ← List.map_append] at hmem
    obtain ⟨d, hd, hentry⟩ := List.mem_map.1 hmem
    cases hentry
    exact hm.shows_ident hn hd

/-- Where the extent is not declared, no line before main names it. -/
theorem Front.shows (hm : Made root main shader) (hn : Identified shader) (h : Front config shader row)
    (hu : shader.usesDispatchSize = false) : Shows false row.clause.text.toList := by
  cases h with
  | version =>
    refine shows_of_plain ?_
    show '_' ∉ ("#version " ++ config.version.repr).toList
    rw [String.toList_append, Nat.toList_repr]
    simp
  | blank => exact shows_of_plain (by decide : '_' ∉ [])
  | extent huses =>
    rw [hu] at huses
    cases huses
  | @input d hd =>
    have hd' : d ∈ shader.inputs ++ shader.outputs := List.mem_append_left _ hd
    have htext : ("uniform " ++ d.spelling ++ " " ++ d.ident ++ ";").toList =
        "uniform".toList ++ ' ' :: (d.spelling.toList ++ ' ' :: (d.ident.toList ++ [';'])) := by simp
    have hdeclared : Shows false (d.spelling.toList ++ ' ' :: (d.ident.toList ++ [';'])) :=
      (shows_of_plain (underscore_typeName (hm.typeName?_eq hd'))).append_cons (by decide)
        ((hm.shows_ident hn hd').concat (by decide))
    show Shows false ("uniform " ++ d.spelling ++ " " ++ d.ident ++ ";").toList
    rw [htext]
    exact (shows_of_plain (by decide)).append_cons (by decide) hdeclared
  | @output d hd location =>
    have hd' : d ∈ shader.inputs ++ shader.outputs := List.mem_append_right _ hd
    have htext : ("layout(location = " ++ location.repr ++ ") out " ++ d.spelling ++ " " ++ d.ident ++ ";").toList =
        ("layout(location = ".toList ++ Nat.toDigits 10 location ++ ") out".toList) ++
          ' ' :: (d.spelling.toList ++ ' ' :: (d.ident.toList ++ [';'])) := by simp
    have hlocation : '_' ∉ "layout(location = ".toList ++ Nat.toDigits 10 location ++ ") out".toList := by simp
    have hdeclared : Shows false (d.spelling.toList ++ ' ' :: (d.ident.toList ++ [';'])) :=
      (shows_of_plain (underscore_typeName (hm.typeName?_eq hd'))).append_cons (by decide)
        ((hm.shows_ident hn hd').concat (by decide))
    show Shows false ("layout(location = " ++ location.repr ++ ") out " ++ d.spelling ++ " " ++ d.ident ++ ";").toList
    rw [htext]
    exact (shows_of_plain hlocation).append_cons (by decide) hdeclared

end Front

/-- The text declares the extent of the computation exactly if its main has the relative coordinate, in a condition as
everywhere else, and exactly if its main so much as names the extent. That is so exactly if some node below main, at whatever
depth, is the relative coordinate or calls it as a function. -/
theorem extent_declared_iff_used (config : Config) (edits : List Edit) (root : NodeId) (program : Program)
    (hl : ∀ head, .alloc head ∈ edits → LiteralHead head)
    (h : generate config (Arena.empty.editAll edits) root = .ok program)
    (hn : ∀ name ∈ program.inputs.map (·.name) ++ program.outputs.map (·.name), isIdentifier name = true) :
    ∃ tree main header body, (Arena.empty.editAll edits).tree root = .ok tree ∧ main ∈ tree.children ∧ main.kind = .main ∧
      program.source = unlines (header ++ "void main()" :: body) ∧ "void main()" ∉ header ∧
      List.TFAE ["uniform ivec2 dispatch_size;" ∈ header,
        ∃ line ∈ body, "(gl_FragCoord.xy / vec2(dispatch_size))".toList <:+: line.toList,
        ∃ line ∈ body, Mentions line.toList,
        main.any needsDispatchSize = true] := by
  obtain ⟨tree, shader, htree, hshader, rfl⟩ := generate_eq_ok_iff.1 h
  obtain ⟨main, hmade⟩ := shaderOf_eq_ok_iff.1 hshader
  obtain ⟨hmem, hkind⟩ := (firstOf_eq_some_iff hmade.once).1 hmade.main_eq
  have hregular : Regular (Arena.empty.editAll edits) := ⟨Arena.roomy_editAll edits, Arena.allHeads_editAll edits hl⟩
  have hholds : (Arena.empty.editAll edits).Holds main :=
    ((Arena.owned_editAll edits).tree_eq_ok_iff.1 htree).1.child hmem
  have hidentified : Identified shader := by
    have hinputs : (shader.program config).inputs.map (·.name) = shader.inputs.map (·.name) := map_numbered fun _ _ _ => rfl
    have houtputs : (shader.program config).outputs.map (·.name) = shader.outputs.map (·.name) := map_numbered fun _ _ _ => rfl
    rw [hinputs, houtputs, ← List.map_append] at hn
    exact List.forall_mem_map.1 hn
  have hshown := (hregular.shown_statements (hmade.shows_variableOf hidentified) main.children
    (fun child hm => hholds.child hm) hmade.body 1).braced 0
  rw [← any_of_kind (by rw [hkind]; decide), ← hmade.extent] at hshown
  refine ⟨tree, main, _, _, htree, hmem, hkind, shader.text_eq_front config, ?_, ?_⟩
  · intro hm
    obtain ⟨row, hrow, heq⟩ := List.mem_map.1 hm
    exact (front_of_mem hrow).ne_main _ heq
  · rw [← hmade.extent]
    tfae_have 1 → 4 := by
      intro hm
      obtain ⟨row, hrow, heq⟩ := List.mem_map.1 hm
      have hfront := front_of_mem hrow
      rw [hfront.written_eq] at heq
      refine Bool.eq_true_of_not_eq_false fun hu => hfront.shows hmade hidentified hu ?_
      rw [heq]
      decide
    tfae_have 4 → 1 := by
      intro hu
      have hrow : _ ∈ shader.frontRows config := extent_mem_frontRows hu
      refine List.mem_map.2 ⟨_, hrow, ?_⟩
      rw [(front_of_mem hrow).written_eq]
      rfl
    tfae_have 4 → 2 := by
      intro hu
      rw [hu] at hshown
      obtain ⟨row, hrow, hshows⟩ := hshown
      exact ⟨_, List.mem_map_of_mem hrow, hshows.written config.indent⟩
    tfae_have 2 → 3 := by
      rintro ⟨line, hline, hinfix⟩
      exact ⟨line, hline, mentions_of_infix hinfix⟩
    tfae_have 3 → 4 := by
      rintro ⟨line, hline, hmentions⟩
      obtain ⟨row, hrow, rfl⟩ := List.mem_map.1 hline
      refine Bool.eq_true_of_not_eq_false fun hu => ?_
      rw [hu] at hshown
      exact (hshown row hrow).written config.indent hmentions
    tfae_finish

/-- A program with an input of the name of the extent, and a branch whose condition calls the relative coordinate. -/
def extentEdits : List Edit :=
  [.alloc { kind := .program, type := .void }, .alloc { kind := .constData, type := .void },
    .alloc ((Head.ofSymbol .constVar .float ⟨0⟩).named "dispatch_size"), .attach ⟨1⟩ ⟨2⟩,
    .alloc { kind := .main, type := .void }, .alloc { kind := .ifBranch, type := .void },
    .alloc { kind := .function, type := .float2 }, .alloc (.ofLiteral (.int Builtin.normalizedIndex.id)), .attach ⟨5⟩ ⟨6⟩,
    .attach ⟨4⟩ ⟨5⟩, .attach ⟨3⟩ ⟨4⟩, .attach ⟨0⟩ ⟨1⟩, .attach ⟨0⟩ ⟨3⟩]

def extentProgram : Program where
  source := "#version 330\n\nuniform ivec2 dispatch_size;\nuniform float dispatch_size_;\n\nvoid main()\n\x7b\n" ++
    "    if (gl_FragCoord.xy / vec2(dispatch_size))\n    \x7b\n    \x7d\n\x7d\n"
  inputs := [⟨"dispatch_size", "dispatch_size_", .float, 0⟩]
  outputs := []

def extentMain : Tree :=
  .node ⟨3⟩ { kind := .main, type := .void } [.node ⟨4⟩ { kind := .ifBranch, type := .void }
    [.node ⟨5⟩ { kind := .function, type := .float2 } [.node ⟨6⟩ (.ofLiteral (.int Builtin.normalizedIndex.id)) []]]]

def extentTree : Tree :=
  .node ⟨0⟩ { kind := .program, type := .void } [.node ⟨1⟩ { kind := .constData, type := .void }
    [.node ⟨2⟩ ((Head.ofSymbol .constVar .float ⟨0⟩).named "dispatch_size") []], extentMain]

/-- The extent is declared for the condition, beside the input of that name. -/
theorem extent_declared_iff_used_condition :
    generate {} (Arena.empty.editAll extentEdits) ⟨0⟩ = .ok extentProgram ∧
      ∃ header body, extentProgram.source = unlines (header ++ "void main()" :: body) ∧ "void main()" ∉ header ∧
        "uniform ivec2 dispatch_size;" ∈ header ∧
        ∃ line ∈ body, "(gl_FragCoord.xy / vec2(dispatch_size))".toList <:+: line.toList := by
  have h : generate {} (Arena.empty.editAll extentEdits) ⟨0⟩ = .ok extentProgram := by decide +kernel
  have hliterals : ∀ head, .alloc head ∈ extentEdits → LiteralHead head := by
    intro head hm
    simp only [extentEdits, List.mem_cons, List.not_mem_nil, Edit.alloc.injEq, reduceCtorEq, or_false, false_or] at hm
    rcases hm with rfl | rfl | rfl | rfl | rfl | rfl | rfl <;> decide
  obtain ⟨tree, main, header, body, htree, hmem, hkind, hsource, hmain, htfae⟩ :=
    extent_declared_iff_used {} extentEdits ⟨0⟩ extentProgram hliterals h (by decide)
  have htree' : (Arena.empty.editAll extentEdits).tree ⟨0⟩ = .ok extentTree := by rfl
  obtain rfl : extentTree = tree := Except.ok.inj (htree'.symm.trans htree)
  have hneeded : main.any needsDispatchSize = true := by
    rcases List.mem_cons.1 hmem with rfl | hmem
    · cases hkind
    · obtain rfl := List.mem_singleton.1 hmem
      decide
  exact ⟨h, header, body, hsource, hmain, (htfae.out 3 0).1 hneeded, (htfae.out 3 1).1 hneeded⟩

end ShaderTrace.Glsl
