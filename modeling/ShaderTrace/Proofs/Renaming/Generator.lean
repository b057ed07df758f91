import ShaderTrace.Proofs.Generator.Acceptance
import ShaderTrace.Proofs.Renaming.Recorder

/-!
# Shaders with other symbols

A symbol leaves its mark on a shader by its spelling alone: the declared name of an input or an output, and the number of a local
variable. If the inputs and outputs of a program get other symbols, and its sections another order, the program that is written
stays the same (`Made.renamed`).
-/

namespace ShaderTrace.Glsl

variable {f : SymbolId → SymbolId}

/-! ## Trees -/

/-- The second tree is the first with other symbols, and with any numbers for its nodes. -/
def Renames (f : SymbolId → SymbolId) (tree tree' : Tree) : Prop := tree'.term = tree.term.rename f

namespace Renames

variable {tree tree' : Tree}

theorem head (h : Renames f tree tree') : tree'.head = tree.head.rename f := by
  rw [← Tree.term_head, h, Term.head_rename, Tree.term_head]

theorem kind (h : Renames f tree tree') : tree'.kind = tree.kind := by
  rw [← Tree.term_kind, h, Term.kind_rename, Tree.term_kind]

theorem type (h : Renames f tree tree') : tree'.type = tree.type := by
  rw [Tree.type, h.head]
  rfl

theorem payload (h : Renames f tree tree') : tree'.head.payload = tree.head.payload.rename f := by
  rw [h.head]
  rfl

theorem name (h : Renames f tree tree') : tree'.head.name = tree.head.name := by
  rw [h.head]
  rfl

theorem symbol? (h : Renames f tree tree') : tree'.head.symbol? = tree.head.symbol?.map f := by
  rw [h.head, Head.symbol?, Head.symbol?]
  cases hp : tree.head.payload <;> simp [Head.rename, Payload.rename, hp]

theorem literal? (h : Renames f tree tree') : tree'.head.literal? = tree.head.literal? := by
  rw [h.head, Head.literal?, Head.literal?]
  cases hp : tree.head.payload <;> simp [Head.rename, Payload.rename, hp]

theorem children (h : Renames f tree tree') : List.Forall₂ (Renames f) tree.children tree'.children := by
  have hc : tree'.children.map Tree.term = (tree.children.map Tree.term).map (Term.rename f) := by
    rw [← Tree.term_children, h, Term.children_rename, Tree.term_children]
  generalize tree.children = trees at hc
  generalize tree'.children = trees' at hc
  induction trees generalizing trees' with
  | nil =>
    rw [List.map_nil, List.map_nil, List.map_eq_nil_iff] at hc
    rw [hc]
    exact .nil
  | cons first trees ih =>
    obtain _ | ⟨first', trees'⟩ := trees'
    · cases hc
    · obtain ⟨hfirst, hrest⟩ := List.cons.inj hc
      exact .cons hfirst (ih trees' hrest)

/-- The symbol of a node is renamed. -/
theorem payload_symbol (h : Renames f tree tree') {symbol : SymbolId} (hp : tree.head.payload = .symbol symbol) :
    tree'.head.payload = .symbol (f symbol) := by
  rw [h.payload, hp]
  rfl

/-- The owner of a lane is renamed, and the lane stays. -/
theorem payload_member (h : Renames f tree tree') {owner : SymbolId} {ownerType : ValueType} {lane : Lane}
    (hp : tree.head.payload = .member owner ownerType lane) : tree'.head.payload = .member (f owner) ownerType lane := by
  rw [h.payload, hp]
  rfl

/-- Two children are renamed one by one. -/
theorem two_children (h : Renames f tree tree') {first second : Tree} (hc : tree.children = [first, second]) :
    ∃ first' second', tree'.children = [first', second'] ∧ Renames f first first' ∧ Renames f second second' := by
  have hch := h.children
  rw [hc] at hch
  obtain ⟨first', _, hfirst, hrest, hc'⟩ := List.forall₂_cons_left_iff.1 hch
  obtain ⟨second', _, hsecond, hnil, rfl⟩ := List.forall₂_cons_left_iff.1 hrest
  obtain rfl := List.forall₂_nil_left_iff.1 hnil
  exact ⟨first', second', hc', hfirst, hsecond⟩

/-- A node needs the extent of the computation whatever its symbols are. -/
theorem needsDispatchSize (h : Renames f tree tree') : Glsl.needsDispatchSize tree' = Glsl.needsDispatchSize tree := by
  have hfirst : tree'.children.head?.bind (·.head.literal?) = tree.children.head?.bind (·.head.literal?) := by
    have hc := h.children
    generalize tree.children = trees at hc
    generalize tree'.children = trees' at hc
    cases hc with
    | nil => rfl
    | cons hfirst => exact hfirst.literal?
  unfold Glsl.needsDispatchSize
  rw [h.kind, hfirst]

end Renames

mutual

/-- Whether a tree needs the size of the dispatch does not depend on the symbols. -/
theorem any_renamed : ∀ {tree tree' : Tree}, Renames f tree tree' →
    tree'.any needsDispatchSize = tree.any needsDispatchSize
  | .node _ _ children, .node _ _ children', h => by
    have hc : List.Forall₂ (Renames f) children children' := h.children
    rw [Tree.any, Tree.any, h.needsDispatchSize, anyAll_renamed hc]

/-- Whether some of the trees needs the size of the dispatch does not depend on the symbols. -/
theorem anyAll_renamed : ∀ {trees trees' : List Tree}, List.Forall₂ (Renames f) trees trees' →
    Tree.anyAll needsDispatchSize trees' = Tree.anyAll needsDispatchSize trees
  | [], [], _ => rfl
  | tree :: trees, tree' :: trees', h => by
    cases h with
    | cons hfirst hrest => rw [Tree.anyAll, Tree.anyAll, any_renamed hfirst, anyAll_renamed hrest]

end

/-! ## Scopes -/

/-- Every symbol is seen, and spelled, as its other symbol is. -/
structure SameScope (f : SymbolId → SymbolId) (scope scope' : Scope) : Prop where
  isVisible : ∀ symbol, scope'.isVisible (f symbol) = scope.isVisible symbol
  isInput : ∀ symbol, scope'.isInput (f symbol) = scope.isInput symbol
  spelling : ∀ symbol, (scope'.variableOf (f symbol)).spelling = (scope.variableOf symbol).spelling

/-- Scopes stay the same when a symbol is declared in one and the renamed one in the other. -/
theorem SameScope.declare {scope scope' : Scope} (hf : Function.Injective f) (h : SameScope f scope scope')
    (symbol : SymbolId) : SameScope f (scope.declare symbol) (scope'.declare (f symbol)) := by
  refine ⟨fun other => ?_, h.isInput, h.spelling⟩
  have hsame : (f other == f symbol) = (other == symbol) := by
    rw [Bool.eq_iff_iff, beq_iff_eq, beq_iff_eq, hf.eq_iff]
  have hother := h.isVisible other
  unfold Scope.isVisible at hother ⊢
  rw [Scope.declare, Scope.declare, List.contains_cons, List.contains_cons, hsame, hother]

/-! ## Expressions -/

/-- The texts of arguments depend on the texts of each. -/
theorem textAll_congr {exprs exprs' : List Expr} (h : List.Forall₂ (fun e e' => e'.text = e.text) exprs exprs') :
    Expr.textAll exprs' = Expr.textAll exprs := by
  induction h with
  | nil => rfl
  | cons hfirst hrest ih =>
    cases hrest with
    | nil => rw [Expr.textAll, Expr.textAll, hfirst]
    | cons =>
      show _ ++ ", " ++ Expr.textAll _ = _ ++ ", " ++ Expr.textAll _
      rw [hfirst, ih]

/-- The text of a call depends on the texts of its arguments. -/
theorem text_call_congr (function : String) {exprs exprs' : List Expr}
    (h : List.Forall₂ (fun e e' => e'.text = e.text) exprs exprs') :
    (Expr.call function exprs').text = (Expr.call function exprs).text := by
  rw [Expr.text, Expr.text, textAll_congr h]

/-- The text of a call of a built-in function depends on the texts of its arguments. -/
theorem text_builtin_congr (builtin : Builtin) {exprs exprs' : List Expr}
    (h : List.Forall₂ (fun e e' => e'.text = e.text) exprs exprs') :
    (Expr.builtin builtin exprs').text = (Expr.builtin builtin exprs).text := by
  cases builtin with
  | index | normalizedIndex => rfl
  | _ => exact text_call_congr _ h

/-- The text of a texel depends on that of what is fetched. -/
theorem text_texel_congr (type : ValueType) {e e' : Expr} (h : e'.text = e.text) :
    (Expr.texel type e').text = (Expr.texel type e).text := by
  unfold Expr.texel
  cases texelLanes? type.lanes with
  | none => exact h
  | some lanes => rw [Expr.text, Expr.text, h]

/-- The other tree has an expression that reads the same. -/
def ReadsAlike (scope' : Scope) (tree' : Tree) (e : Expr) : Prop := ∃ e', expression scope' tree' = .ok e' ∧ e'.text = e.text

/-- If each of the trees reads alike renamed, so does the row. -/
theorem mapM_renamed {scope scope' : Scope} {trees trees' : List Tree} (ht : List.Forall₂ (Renames f) trees trees')
    (ih : ∀ tree ∈ trees, ∀ tree' e, Renames f tree tree' → expression scope tree = .ok e → ReadsAlike scope' tree' e)
    {exprs : List Expr} (h : trees.mapM (expression scope) = .ok exprs) :
    ∃ exprs', trees'.mapM (expression scope') = .ok exprs' ∧
      List.Forall₂ (fun e e' => e'.text = e.text) exprs exprs' := by
  induction ht generalizing exprs with
  | nil =>
    cases h
    exact ⟨[], rfl, .nil⟩
  | cons hfirst _ ihrest =>
    obtain ⟨e, es, he, hes, rfl⟩ := mapM_cons_eq_ok_iff.1 h
    obtain ⟨e', he', htext⟩ := ih _ List.mem_cons_self _ e hfirst he
    obtain ⟨es', hes', htexts⟩ := ihrest (fun tree hm => ih tree (List.mem_cons_of_mem _ hm)) hes
    exact ⟨e' :: es', mapM_cons_eq_ok_iff.2 ⟨e', es', he', hes', rfl⟩, .cons htext htexts⟩

/-- The expression of a tree with other symbols reads as before. -/
theorem expression_renamed {scope scope' : Scope} (hs : SameScope f scope scope') (tree : Tree) {tree' : Tree} {e : Expr}
    (ht : Renames f tree tree') (h : expression scope tree = .ok e) : ReadsAlike scope' tree' e := by
  have below : ∀ child ∈ tree.children, ∀ child' e, Renames f child child' → expression scope child = .ok e →
      ReadsAlike scope' child' e := by
    intro child hm child' e hc he
    have hlt : child.size < tree.size := Tree.size_lt_of_mem_children hm
    exact expression_renamed hs child hc he
  have hk := ht.kind
  have hch := ht.children
  cases rendered_of_expression h with
  | @var symbol hkind hsymbol hv =>
    refine ⟨_, expression_of_rendered (.var (hk.trans hkind) ?_ ((hs.isVisible symbol).trans hv)), hs.spelling symbol⟩
    rw [ht.symbol?, hsymbol]
    rfl
  | literal hkind hl => exact ⟨_, expression_of_rendered (.literal (hk.trans hkind) (ht.literal?.trans hl)), rfl⟩
  | @member owner ownerType lane hkind hp hv =>
    refine ⟨_, expression_of_rendered (.member (hk.trans hkind) (ht.payload_member hp) ((hs.isVisible owner).trans hv)), ?_⟩
    rw [Expr.text, Expr.text, Expr.text, Expr.text, hs.spelling]
  | index hkind => exact ⟨_, expression_of_rendered (.index (hk.trans hkind)), rfl⟩
  | normalizedIndex hkind => exact ⟨_, expression_of_rendered (.normalizedIndex (hk.trans hkind)), rfl⟩
  | unary op hkind hc he =>
    rw [hc] at hch below
    obtain ⟨operand', _, hoperand, hnil, hc'⟩ := List.forall₂_cons_left_iff.1 hch
    obtain rfl := List.forall₂_nil_left_iff.1 hnil
    obtain ⟨e', he', htext⟩ := below _ List.mem_cons_self _ _ hoperand he
    refine ⟨_, expression_of_rendered (.unary op (hk.trans hkind) hc' he'), ?_⟩
    rw [Expr.text, Expr.text, htext]
  | binary op hkind hc hl hr =>
    obtain ⟨left', right', hc', hleft, hright⟩ := ht.two_children hc
    rw [hc] at below
    obtain ⟨l', hl', hltext⟩ := below _ (by simp) _ _ hleft hl
    obtain ⟨r', hr', hrtext⟩ := below _ (by simp) _ _ hright hr
    refine ⟨_, expression_of_rendered (.binary op (hk.trans hkind) hc' hl' hr'), ?_⟩
    rw [Expr.text, Expr.text, hltext, hrtext]
  | convert hkind htype hne hes =>
    obtain ⟨es', hes', htexts⟩ := mapM_renamed hch below hes
    have hne' : tree'.children ≠ [] := by
      intro hnil
      rw [hnil] at hch
      exact hne (List.forall₂_nil_right_iff.1 hch)
    exact ⟨_, expression_of_rendered (.convert (by rwa [hk]) (by rwa [ht.type]) hne' hes'), text_call_congr _ htexts⟩
  | call hkind hc hl hb ha hes =>
    rw [hc] at hch below
    obtain ⟨first', arguments', hfirst, hrest, hc'⟩ := List.forall₂_cons_left_iff.1 hch
    obtain ⟨es', hes', htexts⟩ := mapM_renamed hrest (fun tree hm => below tree (List.mem_cons_of_mem _ hm)) hes
    refine ⟨_, expression_of_rendered (.call (hk.trans hkind) hc' (hfirst.literal?.trans hl) hb ?_ hes'), ?_⟩
    · rw [← hrest.length_eq, ha]
    · exact text_builtin_congr _ htexts
  | sample1d hkind hc hv hbuffer hb hi =>
    obtain ⟨buffer', index', hc', hbuf, hindex⟩ := ht.two_children hc
    rw [hc] at below
    obtain ⟨b', hb', hbtext⟩ := below _ (by simp) _ _ hbuf hb
    obtain ⟨i', hi', hitext⟩ := below _ (by simp) _ _ hindex hi
    refine ⟨_, expression_of_rendered (.sample1d (hk.trans hkind) hc' (hbuf.kind.trans hv) (by rwa [hbuf.type]) hb' hi'), ?_⟩
    rw [ht.type]
    exact text_texel_congr _ (text_call_congr _ (.cons hbtext (.cons hitext .nil)))
  | sample2d hkind hc hv hbuffer hb hx hy =>
    rw [hc] at hch below
    obtain ⟨buffer', _, hbuf, hrest, hc'⟩ := List.forall₂_cons_left_iff.1 hch
    obtain ⟨xIndex', _, hxIndex, hlast, rfl⟩ := List.forall₂_cons_left_iff.1 hrest
    obtain ⟨yIndex', _, hyIndex, hnil, rfl⟩ := List.forall₂_cons_left_iff.1 hlast
    obtain rfl := List.forall₂_nil_left_iff.1 hnil
    obtain ⟨b', hb', hbtext⟩ := below _ (by simp) _ _ hbuf hb
    obtain ⟨x', hx', hxtext⟩ := below _ (by simp) _ _ hxIndex hx
    obtain ⟨y', hy', hytext⟩ := below _ (by simp) _ _ hyIndex hy
    refine ⟨_, expression_of_rendered
      (.sample2d (hk.trans hkind) hc' (hbuf.kind.trans hv) (by rwa [hbuf.type]) hb' hx' hy'), ?_⟩
    rw [ht.type]
    exact text_texel_congr _ (text_call_congr _
      (.cons hbtext (.cons (text_call_congr _ (.cons hxtext (.cons hytext .nil))) .nil)))
termination_by tree.size

/-! ## Statements -/

/-- The lines of rows of statements, one row after the other. -/
theorem linesAll_append (depth : Nat) (stmts rest : List Stmt) :
    Stmt.linesAll depth (stmts ++ rest) = Stmt.linesAll depth stmts ++ Stmt.linesAll depth rest := by
  induction stmts with
  | nil => rfl
  | cons stmt stmts ih => rw [List.cons_append, Stmt.linesAll, Stmt.linesAll, ih, List.append_assoc]

/-- The rows of statements have the same lines. -/
def SameLines (stmts stmts' : List Stmt) : Prop := ∀ depth, Stmt.linesAll depth stmts' = Stmt.linesAll depth stmts

/-- What becomes of a statement with other symbols: the same lines, and a scope that goes on to be the same. -/
def GeneratesAlike (f : SymbolId → SymbolId) (scope' : Scope) (tree' : Tree) (stmts : List Stmt) (after : Scope) : Prop :=
  ∃ stmts' after', Generated scope' tree' stmts' after' ∧ SameLines stmts stmts' ∧ SameScope f after after'

section Statements

variable {scope scope' after : Scope} {tree tree' : Tree} {stmts : List Stmt}

/-- A statement, if the bodies of blocks are known to follow. -/
theorem generated_renamed (hf : Function.Injective f) (hs : SameScope f scope scope') (ht : Renames f tree tree')
    (h : Generated scope tree stmts after)
    (below : ∀ {body body' : List Tree} {scope scope' : Scope} {stmts : List Stmt}, body.Sublist tree.children →
      List.Forall₂ (Renames f) body body' → SameScope f scope scope' → statements scope none body = .ok stmts →
        ∃ stmts', statements scope' none body' = .ok stmts' ∧ SameLines stmts stmts') :
    GeneratesAlike f scope' tree' stmts after := by
  have hk := ht.kind
  have hch := ht.children
  cases h with
  | @define target source value symbol type hkind hc hv htarget hp hi hn htype =>
    obtain ⟨target', source', hc', htar, hsource⟩ := ht.two_children hc
    obtain ⟨value', hv', htext⟩ := expression_renamed hs source hsource hv
    refine ⟨_, _, .define (hk.trans hkind) hc' hv' (htar.kind.trans htarget) (htar.payload_symbol hp)
      ((hs.isInput symbol).trans hi) ((hs.isVisible symbol).trans hn) (by rwa [htar.type]), fun depth => ?_,
      hs.declare hf symbol⟩
    simp only [Stmt.linesAll, Stmt.lines, hs.spelling, htext]
  | @assign target source value symbol hkind hc hv htarget hp hi hn =>
    obtain ⟨target', source', hc', htar, hsource⟩ := ht.two_children hc
    obtain ⟨value', hv', htext⟩ := expression_renamed hs source hsource hv
    refine ⟨_, _, .assign (hk.trans hkind) hc' hv' (htar.kind.trans htarget) (htar.payload_symbol hp)
      ((hs.isInput symbol).trans hi) ((hs.isVisible symbol).trans hn), fun depth => ?_, hs⟩
    simp only [Stmt.linesAll, Stmt.lines, hs.spelling, htext]
  | @declareLane target source value owner ownerType lane type hkind hc hv htarget hp hi hn htype =>
    obtain ⟨target', source', hc', htar, hsource⟩ := ht.two_children hc
    obtain ⟨value', hv', htext⟩ := expression_renamed hs source hsource hv
    refine ⟨_, _, .declareLane (hk.trans hkind) hc' hv' (htar.kind.trans htarget) (htar.payload_member hp)
      ((hs.isInput owner).trans hi) ((hs.isVisible owner).trans hn) htype, fun depth => ?_, hs.declare hf owner⟩
    simp only [Stmt.linesAll, Stmt.lines, hs.spelling, htext]
  | @assignLane target source value owner ownerType lane hkind hc hv htarget hp hi hn =>
    obtain ⟨target', source', hc', htar, hsource⟩ := ht.two_children hc
    obtain ⟨value', hv', htext⟩ := expression_renamed hs source hsource hv
    refine ⟨_, _, .assignLane (hk.trans hkind) hc' hv' (htar.kind.trans htarget) (htar.payload_member hp)
      ((hs.isInput owner).trans hi) ((hs.isVisible owner).trans hn), fun depth => ?_, hs⟩
    simp only [Stmt.linesAll, Stmt.lines, hs.spelling, htext]
  | @guarded keyword condition body cond stmts hkind hc hcond hb =>
    rw [hc] at hch
    obtain ⟨condition', body', hcondition, hbody, hc'⟩ := List.forall₂_cons_left_iff.1 hch
    obtain ⟨cond', hcond', htext⟩ := expression_renamed hs condition hcondition hcond
    obtain ⟨stmts', hb', hlines⟩ := below (by rw [hc]; exact List.sublist_cons_self _ _) hbody hs hb
    refine ⟨_, _, .guarded keyword (hk.trans hkind) hc' hcond' hb', fun depth => ?_, hs⟩
    simp only [Stmt.linesAll, Stmt.lines, htext, hlines (depth + 1)]
  | @otherwise stmts hkind hb =>
    obtain ⟨stmts', hb', hlines⟩ := below (List.Sublist.refl _) hch hs hb
    refine ⟨_, _, .otherwise (hk.trans hkind) hb', fun depth => ?_, hs⟩
    simp only [Stmt.linesAll, Stmt.lines, hlines (depth + 1)]
  | @block stmts hkind hb =>
    obtain ⟨stmts', hb', hlines⟩ := below (List.Sublist.refl _) hch hs hb
    refine ⟨_, _, .block (hk.trans hkind) hb', fun depth => ?_, hs⟩
    simp only [Stmt.linesAll, Stmt.lines, hlines (depth + 1)]
  | @count start stop body symbol first last stmts hkind hc hsymbol hfirst hlast hb =>
    rw [hc] at hch
    obtain ⟨start', _, hstart, hrest, hc'⟩ := List.forall₂_cons_left_iff.1 hch
    obtain ⟨stop', body', hstop, hbody, rfl⟩ := List.forall₂_cons_left_iff.1 hrest
    obtain ⟨first', hfirst', hfirstText⟩ := expression_renamed hs start hstart hfirst
    obtain ⟨last', hlast', hlastText⟩ := expression_renamed hs stop hstop hlast
    have hsub : body.Sublist tree.children := by
      rw [hc]
      exact (List.sublist_cons_self _ _).trans (List.sublist_cons_self _ _)
    obtain ⟨stmts', hb', hlines⟩ := below hsub hbody (hs.declare hf symbol) hb
    refine ⟨_, _, .count (hk.trans hkind) hc' ?_ hfirst' hlast' hb', fun depth => ?_, hs⟩
    · rw [ht.symbol?, hsymbol]
      rfl
    · simp only [Stmt.linesAll, Stmt.lines, hs.spelling, hfirstText, hlastText, hlines (depth + 1)]

end Statements

/-- The statements of trees with other symbols have the same lines. -/
theorem statements_renamed (hf : Function.Injective f) (trees : List Tree) {trees' : List Tree} {scope scope' : Scope}
    {previous : Option NodeKind} {stmts : List Stmt} (hs : SameScope f scope scope')
    (ht : List.Forall₂ (Renames f) trees trees') (h : statements scope previous trees = .ok stmts) :
    ∃ stmts', statements scope' previous trees' = .ok stmts' ∧ SameLines stmts stmts' := by
  cases trees with
  | nil =>
    cases ht
    rw [statements] at h
    cases h
    exact ⟨[], by rw [statements], fun _ => rfl⟩
  | cons tree trees =>
    obtain ⟨tree', trees', htree, htrees, rfl⟩ := List.forall₂_cons_left_iff.1 ht
    obtain ⟨hfollows, first, after, rest, hfirst, hrest, rfl⟩ := statements_cons_eq_ok_iff.1 h
    obtain ⟨first', after', hfirst', hlines, hafter⟩ := generated_renamed hf hs htree hfirst
      fun {body} {_} {_} {_} {_} hsub hbody hs hb =>
        have hlt := Tree.sizeAll_lt_of_sublist hsub trees
        statements_renamed hf body hs hbody hb
    have hlt := tree.sizeAll_lt_cons trees
    obtain ⟨rest', hrest', hrestLines⟩ := statements_renamed hf trees hafter htrees hrest
    refine ⟨first' ++ rest', statements_cons_eq_ok_iff.2 ⟨?_, first', after', rest', hfirst', ?_, rfl⟩, fun depth => ?_⟩
    · rwa [htree.kind]
    · rwa [htree.kind]
    · rw [linesAll_append, linesAll_append, hlines depth, hrestLines depth]
termination_by Tree.sizeAll trees

/-! ## Programs -/

def Declaration.rename (f : SymbolId → SymbolId) (d : Declaration) : Declaration := { d with symbol := f d.symbol }

/-- A renamed node declares the renamed symbol, by the same name and type. -/
theorem Declares.renamed {kind : NodeKind} {spelling : String → ValueType → Except GenerateError String} {tree tree' : Tree}
    {d : Declaration} (ht : Renames f tree tree') (h : Declares kind spelling tree d) :
    Declares kind spelling tree' (d.rename f) where
  kind_eq := ht.kind.trans h.kind_eq
  symbol_eq := by
    rw [ht.symbol?, h.symbol_eq]
    rfl
  name_eq := ht.name.trans h.name_eq
  spelling_eq := by
    rw [ht.type]
    exact h.spelling_eq
  ident_eq := h.ident_eq
  type_eq := by
    rw [ht.type]
    exact h.type_eq

/-- Renamed nodes declare the renamed symbols. -/
theorem declares_renamed {kind : NodeKind} {spelling : String → ValueType → Except GenerateError String}
    {trees trees' : List Tree} {ds : List Declaration} (ht : List.Forall₂ (Renames f) trees trees')
    (h : List.Forall₂ (Declares kind spelling) trees ds) :
    List.Forall₂ (Declares kind spelling) trees' (ds.map (Declaration.rename f)) := by
  induction ht generalizing ds with
  | nil =>
    cases h
    exact .nil
  | cons hfirst _ ih =>
    cases h with
    | cons hd hds => exact .cons (hd.renamed hfirst) (ih hds)

def Shader.rename (f : SymbolId → SymbolId) (shader : Shader) (body : List Stmt) : Shader :=
  { shader with
    inputs := shader.inputs.map (Declaration.rename f)
    outputs := shader.outputs.map (Declaration.rename f)
    body }

theorem globalsOf_rename (ds : List Declaration) :
    globalsOf (ds.map (Declaration.rename f)) = (globalsOf ds).map fun entry => (f entry.1, entry.2) := by
  simp [globalsOf, Declaration.rename, Function.comp_def]

/-- A renamed symbol is looked up in renamed globals as the symbol was. -/
theorem lookup_rename (hf : Function.Injective f) (globals : Globals) (symbol : SymbolId) :
    (globals.map fun entry => (f entry.1, entry.2)).lookup (f symbol) = globals.lookup symbol := by
  induction globals with
  | nil => rfl
  | cons entry globals ih =>
    have hsame : (f symbol == f entry.1) = (symbol == entry.1) := by
      rw [Bool.eq_iff_iff, beq_iff_eq, beq_iff_eq, hf.eq_iff]
    rw [List.map_cons, List.lookup_cons, List.lookup_cons, hsame, ih]

/-- A renamed symbol is among renamed symbols exactly if the symbol was. -/
theorem contains_map (hf : Function.Injective f) (symbols : List SymbolId) (symbol : SymbolId) :
    (symbols.map f).contains (f symbol) = symbols.contains symbol := by
  rw [Bool.eq_iff_iff, List.contains_iff_mem, List.contains_iff_mem, List.mem_map_of_injective hf]

/-- Symbols that are not declared keep their spelling if they stay as they are. -/
theorem sameScope_rename (hf : Function.Injective f) {shader : Shader} (body : List Stmt)
    (hfix : ∀ symbol, symbol ∉ (shader.inputs ++ shader.outputs).map (·.symbol) → f symbol = symbol) :
    SameScope f shader.scope (shader.rename f body).scope := by
  have hglobals : (shader.rename f body).scope.globals = shader.scope.globals.map fun entry => (f entry.1, entry.2) := by
    show globalsOf _ ++ globalsOf _ = (globalsOf _ ++ globalsOf _).map _
    rw [List.map_append, ← globalsOf_rename, ← globalsOf_rename]
    rfl
  have hvisible : (shader.rename f body).scope.visible = shader.scope.visible.map f := by
    show (shader.rename f body).scope.globals.map Prod.fst = (shader.scope.globals.map Prod.fst).map f
    rw [hglobals, List.map_map, List.map_map]
    rfl
  have hinputs : (shader.rename f body).scope.inputs = shader.scope.inputs.map f := by
    show (shader.inputs.map (Declaration.rename f)).map (·.symbol) = (shader.inputs.map (·.symbol)).map f
    rw [List.map_map, List.map_map]
    rfl
  refine ⟨fun symbol => ?_, fun symbol => ?_, fun symbol => ?_⟩
  · rw [Scope.isVisible, hvisible, contains_map hf, Scope.isVisible]
  · rw [Scope.isInput, hinputs, contains_map hf, Scope.isInput]
  · show ((shader.rename f body).scope.globals.lookup (f symbol)).getD (localName (f symbol)) =
      (shader.scope.globals.lookup symbol).getD (localName symbol)
    rw [hglobals, lookup_rename hf]
    cases hl : shader.scope.globals.lookup symbol with
    | some ident => rfl
    | none =>
      rw [hfix symbol]
      intro hm
      have hmem : symbol ∈ shader.scope.globals.map Prod.fst := by
        show symbol ∈ (globalsOf _ ++ globalsOf _).map Prod.fst
        rwa [List.map_append, map_fst_globalsOf, map_fst_globalsOf, ← List.map_append]
      obtain ⟨entry, hentry, rfl⟩ := List.mem_map.1 hmem
      have hne := List.lookup_eq_none_iff.1 hl entry hentry
      simp at hne

/-- The text and the tables of a shader do not tell its symbols. -/
theorem program_rename (config : Config) {shader : Shader} {body : List Stmt} (h : SameLines shader.body body) :
    (shader.rename f body).program config = shader.program config := by
  unfold Shader.program Shader.text Shader.uniformLines Shader.targetLines
  simp only [Shader.rename, h 1, List.zipIdx_map, List.map_map, Function.comp_def, Declaration.rename, Prod.map]
  rfl

section Programs

variable {root root' main : Tree} {shader : Shader}

/-- The section of a kind, in a program whose sections have other symbols and another order. -/
theorem section_renamed (hroot : (root'.children.map Tree.term).Perm ((root.children.map Tree.term).map (Term.rename f)))
    (honce : (root.children.map Tree.kind).Nodup) (honce' : (root'.children.map Tree.kind).Nodup) (kind : NodeKind) :
    (firstOf kind root.children = none ∧ firstOf kind root'.children = none) ∨
      ∃ tree tree', firstOf kind root.children = some tree ∧ firstOf kind root'.children = some tree' ∧
        Renames f tree tree' := by
  have hfound : ∀ tree, firstOf kind root.children = some tree →
      ∃ tree', firstOf kind root'.children = some tree' ∧ Renames f tree tree' := by
    intro tree h
    obtain ⟨hm, hk⟩ := (firstOf_eq_some_iff honce).1 h
    have hterm : tree.term.rename f ∈ root'.children.map Tree.term :=
      hroot.mem_iff.2 (List.mem_map_of_mem (List.mem_map_of_mem hm))
    obtain ⟨tree', hm', ht⟩ := List.mem_map.1 hterm
    have hrenames : Renames f tree tree' := ht
    exact ⟨tree', (firstOf_eq_some_iff honce').2 ⟨hm', hrenames.kind.trans hk⟩, hrenames⟩
  cases h : firstOf kind root.children with
  | some tree =>
    obtain ⟨tree', h', ht⟩ := hfound tree h
    exact .inr ⟨tree, tree', rfl, h', ht⟩
  | none =>
    refine .inl ⟨rfl, ?_⟩
    cases h' : firstOf kind root'.children with
    | none => rfl
    | some tree' =>
      obtain ⟨hm', hk'⟩ := (firstOf_eq_some_iff honce').1 h'
      obtain ⟨term, hterm, hren⟩ := List.mem_map.1 (hroot.mem_iff.1 (List.mem_map_of_mem hm'))
      obtain ⟨tree, hm, rfl⟩ := List.mem_map.1 hterm
      have hrenames : Renames f tree tree' := hren.symm
      rw [(firstOf_eq_some_iff honce).2 ⟨hm, hrenames.kind.symm.trans hk'⟩] at h
      cases h

/-- Sections in any order hold the same declarations and statements, renamed. -/
theorem childrenOf_renamed (hroot : (root'.children.map Tree.term).Perm ((root.children.map Tree.term).map (Term.rename f)))
    (honce : (root.children.map Tree.kind).Nodup) (honce' : (root'.children.map Tree.kind).Nodup) (kind : NodeKind) :
    List.Forall₂ (Renames f) (childrenOf (firstOf kind root.children)) (childrenOf (firstOf kind root'.children)) := by
  rcases section_renamed hroot honce honce' kind with ⟨h, h'⟩ | ⟨tree, tree', h, h', ht⟩
  · rw [h, h']
    exact .nil
  · rw [h, h']
    exact ht.children

/-- A program with other symbols for its inputs and outputs, and with its sections in another order, is written as before. -/
theorem Made.renamed (hf : Function.Injective f) (h : Made root main shader) (hk : root'.kind = root.kind)
    (hroot : (root'.children.map Tree.term).Perm ((root.children.map Tree.term).map (Term.rename f)))
    (hfix : ∀ symbol, symbol ∉ (shader.inputs ++ shader.outputs).map (·.symbol) → f symbol = symbol) :
    ∃ main' shader', Made root' main' shader' ∧ ∀ config, shader'.program config = shader.program config := by
  have hkinds : (root'.children.map Tree.kind).Perm (root.children.map Tree.kind) := by
    have hmap := hroot.map Term.kind
    rwa [Term.map_kind_rename, ← Tree.term_children, ← Tree.term_children, map_kind_children, map_kind_children] at hmap
  have honce' := hkinds.nodup_iff.2 h.once
  obtain ⟨hnone, -⟩ | ⟨found, main', hfound, hmain', htmain⟩ := section_renamed hroot h.once honce' .main
  · rw [h.main_eq] at hnone
    cases hnone
  obtain rfl : main = found := Option.some.inj (h.main_eq.symm.trans hfound)
  -- the scope does not depend on the body
  obtain ⟨body, hbody, hlines⟩ :=
    statements_renamed hf main.children (sameScope_rename hf [] hfix) htmain.children h.body
  have hsymbols : ((shader.inputs.map (Declaration.rename f) ++ shader.outputs.map (Declaration.rename f)).map (·.symbol)) =
      ((shader.inputs ++ shader.outputs).map (·.symbol)).map f := by
    rw [← List.map_append, List.map_map, List.map_map]
    rfl
  have hidents : ((shader.inputs.map (Declaration.rename f) ++ shader.outputs.map (Declaration.rename f)).map (·.ident)) =
      (shader.inputs ++ shader.outputs).map (·.ident) := by
    rw [← List.map_append, List.map_map]
    rfl
  refine ⟨main', shader.rename f body, ⟨hk.trans h.program, ?_, honce', hmain', ?_, ?_, ?_, ?_, hbody, ?_⟩,
    fun config => program_rename config hlines⟩
  · intro tree hm
    obtain ⟨other, hother, hsame⟩ := List.mem_map.1 (hkinds.mem_iff.1 (List.mem_map_of_mem hm))
    rw [← hsame]
    exact h.sections other hother
  · exact declares_renamed (childrenOf_renamed hroot h.once honce' .constData) h.inputs
  · exact declares_renamed (childrenOf_renamed hroot h.once honce' .outData) h.outputs
  · exact hsymbols ▸ h.symbols.map hf
  · exact hidents ▸ h.idents
  · exact h.extent.trans (any_renamed htmain).symm

end Programs

end ShaderTrace.Glsl
