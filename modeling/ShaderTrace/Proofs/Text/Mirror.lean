import ShaderTrace.Proofs.Text.Inline

/-!
# Main mirrors its statements

The lines of main are those of the statements below it, one after the other: an assignment is a line, a branch or a loop is a
header and what its own statements are between braces, and a block is the braces alone. A vector that is first written by its
lanes has one line more, which declares it. `Laid` says so of a row of statements, and the generator keeps to it
(`laid_statements`). What the lines look like as a whole follows from there: the braces match and the lines are indented by how
many of them are open (`Laid.course`), and without the braces there are left the lines of each statement in its turn
(`Laid.remaining_eq`). The main statement is `main_mirrors_statements`.
-/

namespace ShaderTrace.Glsl

open Identifier
open Grammar (IsName Named)

/-! ## Statements and their lines -/

/-- What is visible after a statement: an assignment declares its target, or the vector whose lane that is, unless it is visible
already. -/
def Scope.after (scope : Scope) (tree : Tree) : Scope :=
  match tree.kind, tree.children.head?.bind (·.head.mentions?) with
  | .assignment, some symbol => if scope.isVisible symbol then scope else scope.declare symbol
  | _, _ => scope

/-- What is visible between the braces of a statement: a loop declares its counter. -/
def Scope.inside (scope : Scope) (tree : Tree) : Scope :=
  match tree.kind, tree.head.symbol? with
  | .forRange, some symbol => scope.declare symbol
  | _, _ => scope

/-- The texts of a statement by itself, without what stands between its braces. -/
inductive Heading (scope : Scope) (tree : Tree) : List String → Prop
  | define {target source : Tree} {value : Expr} {symbol : SymbolId} {type : String} (hk : tree.kind = .assignment)
    (hc : tree.children = [target, source]) (hv : expression scope source = .ok value)
    (hp : target.head.payload = .symbol symbol) (hn : scope.isVisible symbol = false)
    (hs : typeName? target.type = some type) :
    Heading scope tree [type ++ " " ++ (scope.variableOf symbol).spelling ++ " = " ++ value.text ++ ";"]
  | assign {target source : Tree} {value : Expr} {symbol : SymbolId} (hk : tree.kind = .assignment)
    (hc : tree.children = [target, source]) (hv : expression scope source = .ok value)
    (hp : target.head.payload = .symbol symbol) (hn : scope.isVisible symbol = true) :
    Heading scope tree [(scope.variableOf symbol).spelling ++ " = " ++ value.text ++ ";"]
  /-- A vector that is not visible is declared by a line of its own. -/
  | declareLane {target source : Tree} {value : Expr} {owner : SymbolId} {ownerType : ValueType} {lane : Lane} {type : String}
    (hk : tree.kind = .assignment) (hc : tree.children = [target, source]) (hv : expression scope source = .ok value)
    (hp : target.head.payload = .member owner ownerType lane) (hn : scope.isVisible owner = false)
    (hs : typeName? ownerType = some type) :
    Heading scope tree [type ++ " " ++ (scope.variableOf owner).spelling ++ ";",
      (scope.variableOf owner).spelling ++ "." ++ lane.accessor ++ " = " ++ value.text ++ ";"]
  | assignLane {target source : Tree} {value : Expr} {owner : SymbolId} {ownerType : ValueType} {lane : Lane}
    (hk : tree.kind = .assignment) (hc : tree.children = [target, source]) (hv : expression scope source = .ok value)
    (hp : target.head.payload = .member owner ownerType lane) (hn : scope.isVisible owner = true) :
    Heading scope tree [(scope.variableOf owner).spelling ++ "." ++ lane.accessor ++ " = " ++ value.text ++ ";"]
  | guarded (keyword : Keyword) {condition : Tree} {cond : Expr} (hk : tree.kind = keyword.kind)
    (hc : tree.children.head? = some condition) (hcond : expression scope condition = .ok cond) :
    Heading scope tree [keyword.text ++ " (" ++ stripParens cond.text ++ ")"]
  | otherwise (hk : tree.kind = .elseBranch) : Heading scope tree ["else"]
  | block (hk : tree.kind = .block) : Heading scope tree []
  | count {start stop : Tree} {body : List Tree} {symbol : SymbolId} {first last : Expr} (hk : tree.kind = .forRange)
    (hc : tree.children = start :: stop :: body) (hs : tree.head.symbol? = some symbol)
    (hfirst : expression scope start = .ok first) (hlast : expression scope stop = .ok last) :
    Heading scope tree ["for (int " ++ (scope.variableOf symbol).spelling ++ " = " ++ first.text ++ "; "
      ++ (scope.variableOf symbol).spelling ++ " < " ++ last.text ++ "; " ++ (scope.variableOf symbol).spelling ++ "++)"]

/-- A text as a line at the given depth. -/
def lineAt (indent depth : Nat) (text : String) : String := String.ofList (List.replicate (indent * depth) ' ') ++ text

/-- Lines between braces, which stand at the given depth. -/
def fenced (indent depth : Nat) (body : List String) : List String :=
  lineAt indent depth "\x7b" :: (body ++ [lineAt indent depth "\x7d"])

/-- The lines of a row of statements at the given depth. -/
inductive Laid (indent : Nat) : Scope → (depth : Nat) → List Tree → List String → Prop
  | nil {scope : Scope} {depth : Nat} : Laid indent scope depth [] []
  | leaf {scope : Scope} {depth : Nat} {tree : Tree} {trees : List Tree} {texts lines : List String}
    (hk : tree.kind = .assignment) (hheading : Heading scope tree texts)
    (hrest : Laid indent (scope.after tree) depth trees lines) :
    Laid indent scope depth (tree :: trees) (texts.map (lineAt indent depth) ++ lines)
  | group {scope : Scope} {depth : Nat} {tree : Tree} {trees : List Tree} {texts body lines : List String}
    (hk : tree.kind.isBlock = true) (hheading : Heading scope tree texts)
    (hbody : Laid indent (scope.inside tree) (depth + 1) (tree.children.drop tree.kind.headerLength) body)
    (hrest : Laid indent scope depth trees lines) :
    Laid indent scope depth (tree :: trees) (texts.map (lineAt indent depth) ++ fenced indent depth body ++ lines)

section Generator

variable {scope : Scope} {tree : Tree} {symbol : SymbolId}

/-- An assignment to a symbol that is visible leaves the scope as it is. -/
theorem after_of_isVisible (hk : tree.kind = .assignment) (hs : tree.children.head?.bind (·.head.mentions?) = some symbol)
    (hn : scope.isVisible symbol = true) : scope.after tree = scope := by
  rw [Scope.after, hk, hs]
  exact if_pos hn

/-- An assignment to a symbol that is not visible declares it. -/
theorem after_of_not_isVisible (hk : tree.kind = .assignment) (hs : tree.children.head?.bind (·.head.mentions?) = some symbol)
    (hn : scope.isVisible symbol = false) : scope.after tree = scope.declare symbol := by
  rw [Scope.after, hk, hs]
  exact if_neg (ne_true_of_eq_false hn)

/-- After a block the scope is the one before. -/
theorem after_of_isBlock (hk : tree.kind.isBlock = true) : scope.after tree = scope := by
  unfold Scope.after
  split
  · rename_i heq _
    rw [heq] at hk
    cases hk
  · rfl

/-- Inside a block other than a counting loop the scope is the one before. -/
theorem inside_of_ne (hk : tree.kind ≠ .forRange) : scope.inside tree = scope := by
  unfold Scope.inside
  split
  · exact absurd ‹_› hk
  · rfl

/-- The symbols keep names after a statement. -/
theorem named_after (h : Named scope) (tree : Tree) : Named (scope.after tree) := by
  unfold Scope.after
  split
  · split <;> exact h
  · exact h

/-- The symbols keep names inside a block. -/
theorem named_inside (h : Named scope) (tree : Tree) : Named (scope.inside tree) := by
  unfold Scope.inside
  split <;> exact h

theorem rowsAll_singleton (depth : Nat) (stmt : Stmt) : Stmt.rowsAll depth [stmt] = stmt.rows depth := by
  rw [Stmt.rowsAll, Stmt.rowsAll, List.append_nil]

/-- Rows in braces are written as fenced lines. -/
theorem map_written_bracedRows (indent depth : Nat) (rows : List Row) :
    (bracedRows depth rows).map (Row.written indent) = fenced indent depth (rows.map (Row.written indent)) := by
  rw [bracedRows, fenced, List.map_cons, List.map_append]
  rfl

/-- The rows of statements are laid out as their trees are. -/
theorem laid_statements (indent : Nat) {scope : Scope} {previous : Option NodeKind} (trees : List Tree) {stmts : List Stmt}
    (h : statements scope previous trees = .ok stmts) (depth : Nat) :
    Laid indent scope depth trees ((Stmt.rowsAll depth stmts).map (Row.written indent)) := by
  -- by the number of nodes: the statements between braces are no part of the row, but of its first tree
  cases trees with
  | nil =>
    cases h
    exact .nil
  | cons tree trees =>
    obtain ⟨-, first, scope', rest, hg, hrest, rfl⟩ := statements_cons_eq_ok_iff.1 h
    have after : Laid indent scope' depth trees ((Stmt.rowsAll depth rest).map (Row.written indent)) := by
      have hlt := tree.sizeAll_lt_cons trees
      exact laid_statements indent trees hrest depth
    have leaf : ∀ {texts : List String}, tree.kind = .assignment → Heading scope tree texts → scope.after tree = scope' →
        Laid indent scope depth (tree :: trees)
          (texts.map (lineAt indent depth) ++ (Stmt.rowsAll depth rest).map (Row.written indent)) := by
      rintro texts hk hheading rfl
      exact .leaf hk hheading after
    have group : ∀ {texts : List String} {inner : Scope} {trees' : List Tree} {body : List Stmt}, tree.kind.isBlock = true →
        scope' = scope → Heading scope tree texts → scope.inside tree = inner →
        tree.children.drop tree.kind.headerLength = trees' → statements inner none trees' = .ok body →
        Laid indent scope depth (tree :: trees) (texts.map (lineAt indent depth) ++
          fenced indent depth ((Stmt.rowsAll (depth + 1) body).map (Row.written indent)) ++
            (Stmt.rowsAll depth rest).map (Row.written indent)) := by
      rintro texts inner trees' body hk rfl hheading rfl rfl hbody
      have hlt := Tree.sizeAll_lt_of_sublist (List.drop_sublist tree.kind.headerLength tree.children) trees
      exact .group hk hheading (laid_statements indent _ hbody (depth + 1)) after
    rw [Stmt.rowsAll_append, List.map_append]
    cases hg with
    | define hk hc hv _ hp _ hn hs =>
      exact leaf hk (.define hk hc hv hp hn hs) (after_of_not_isVisible hk (by simp [hc, Head.mentions?, hp]) hn)
    | assign hk hc hv _ hp _ hn =>
      exact leaf hk (.assign hk hc hv hp hn) (after_of_isVisible hk (by simp [hc, Head.mentions?, hp]) hn)
    | declareLane hk hc hv _ hp _ hn hs =>
      exact leaf hk (.declareLane hk hc hv hp hn hs) (after_of_not_isVisible hk (by simp [hc, Head.mentions?, hp]) hn)
    | assignLane hk hc hv _ hp _ hn =>
      exact leaf hk (.assignLane hk hc hv hp hn) (after_of_isVisible hk (by simp [hc, Head.mentions?, hp]) hn)
    | guarded keyword hk hc hcond hb =>
      have hkind : tree.kind.isBlock = true ∧ tree.kind.headerLength = 1 ∧ tree.kind ≠ .forRange := by
        rw [hk]
        cases keyword <;> decide
      have hlaid := group hkind.1 rfl (.guarded keyword hk (by rw [hc]; rfl) hcond) (inside_of_ne hkind.2.2)
        (by rw [hkind.2.1, hc]; rfl) hb
      rw [rowsAll_singleton, Stmt.rows, List.map_cons, map_written_bracedRows]
      exact hlaid
    | otherwise hk hb =>
      have hlaid := group (by rw [hk]; rfl) rfl (.otherwise hk) (inside_of_ne (by rw [hk]; decide)) (by rw [hk]; rfl) hb
      rw [rowsAll_singleton, Stmt.rows, List.map_cons, map_written_bracedRows]
      exact hlaid
    | block hk hb =>
      have hlaid := group (by rw [hk]; rfl) rfl (.block hk) (inside_of_ne (by rw [hk]; decide)) (by rw [hk]; rfl) hb
      rw [rowsAll_singleton, Stmt.rows, map_written_bracedRows]
      exact hlaid
    | count hk hc hs hfirst hlast hb =>
      have hlaid := group (by rw [hk]; rfl) rfl (.count hk hc hs hfirst hlast) (by rw [Scope.inside, hk, hs])
        (by rw [hk, hc]; rfl) hb
      rw [rowsAll_singleton, Stmt.rows, List.map_cons, map_written_bracedRows]
      exact hlaid
termination_by Tree.sizeAll trees

end Generator

/-! ## Texts of statements -/

/-- The text can stand as a line of its own: it keeps to the line, and it begins as a name does. -/
structure Plain (text : String) : Prop where
  inline : Inline text
  start : ∃ c, text.toList.head? = some c ∧ isStart c = true

section Plain

variable {scope : Scope} {tree : Tree} {text : String} {texts : List String}

/-- A plain text stays so with more in its line. -/
theorem Plain.append {rest : String} (h : Plain text) (h' : Inline rest) : Plain (text ++ rest) where
  inline := h.inline.append h'
  start := by
    obtain ⟨c, hc, hstart⟩ := h.start
    refine ⟨c, ?_, hstart⟩
    rw [String.toList_append, List.head?_append, hc]
    rfl

/-- A name is plain. -/
theorem plain_name (h : IsName text) : Plain text where
  inline := inline_name h
  start := by
    have hname := h.1
    unfold isIdentifier isIdentifierChars at hname
    split at hname
    · cases hname
    · rename_i c cs hchars
      exact ⟨c, by rw [hchars]; rfl, (Bool.and_eq_true_iff.1 hname).1⟩

theorem plain_keyword (keyword : Keyword) : Plain keyword.text := by
  cases keyword <;> exact ⟨by decide, _, rfl, by decide⟩

/-- What a statement has by itself are lines. -/
theorem Heading.plain (h : Heading scope tree texts) (hscope : Named scope) : ∀ text ∈ texts, Plain text := by
  have hname : ∀ symbol, Plain (scope.variableOf symbol).spelling := fun symbol => plain_name (hscope.isName symbol)
  have hlane : ∀ (owner : SymbolId) (lane : Lane), Plain ((scope.variableOf owner).spelling ++ "." ++ lane.accessor) :=
    fun owner lane => ((hname owner).append (by decide)).append (inline_lane lane)
  have hassign : ∀ {target : String} {source : Tree} {value : Expr}, Plain target → expression scope source = .ok value →
      Plain (target ++ " = " ++ value.text ++ ";") :=
    fun htarget hv => ((htarget.append (by decide)).append (inline_expression hscope hv)).append (by decide)
  have hdeclare : ∀ {type : ValueType} {name : String} (symbol : SymbolId), typeName? type = some name →
      Plain (name ++ " " ++ (scope.variableOf symbol).spelling) :=
    fun symbol ht => ((plain_name (Grammar.isName_typeName ht)).append (by decide)).append (hname symbol).inline
  cases h with
  | define _ _ hv _ _ hs => exact List.forall_mem_singleton.2 (hassign (hdeclare _ hs) hv)
  | assign _ _ hv => exact List.forall_mem_singleton.2 (hassign (hname _) hv)
  | declareLane _ _ hv _ _ hs =>
    rw [List.forall_mem_cons, List.forall_mem_singleton]
    exact ⟨(hdeclare _ hs).append (by decide), hassign (hlane _ _) hv⟩
  | assignLane _ _ hv => exact List.forall_mem_singleton.2 (hassign (hlane _ _) hv)
  | guarded keyword _ _ hcond =>
    have hcondition := inline_stripParens (inline_expression hscope hcond)
    exact List.forall_mem_singleton.2 ((((plain_keyword keyword).append (by decide)).append hcondition).append (by decide))
  | otherwise => exact List.forall_mem_singleton.2 ⟨by decide, _, rfl, by decide⟩
  | block => exact List.forall_mem_nil _
  | @count _ _ _ symbol _ _ _ _ _ hfirst hlast =>
    have hfor : Plain "for (int " := ⟨by decide, _, rfl, by decide⟩
    have hcounter : Inline (scope.variableOf symbol).spelling := (hname symbol).inline
    have hstart := ((hfor.append hcounter).append (by decide : Inline " = ")).append (inline_expression hscope hfirst)
    have htest := ((hstart.append (by decide : Inline "; ")).append hcounter).append (by decide : Inline " < ")
    have hstop := (htest.append (inline_expression hscope hlast)).append (by decide : Inline "; ")
    exact List.forall_mem_singleton.2 ((hstop.append hcounter).append (by decide))

/-- A text that is indented stays in one line. -/
theorem inline_lineAt (indent depth : Nat) (h : Inline text) : Inline (lineAt indent depth text) := by
  refine Inline.append (fun hm => ?_) h
  rw [String.toList_ofList] at hm
  exact absurd (List.eq_of_mem_replicate hm) (by decide)

/-- Fenced lines are lines. -/
theorem inline_fenced {indent depth : Nat} {body : List String} (h : ∀ line ∈ body, Inline line) :
    ∀ line ∈ fenced indent depth body, Inline line := by
  rw [fenced, List.forall_mem_cons, List.forall_mem_append, List.forall_mem_singleton]
  exact ⟨inline_lineAt indent depth (by decide), h, inline_lineAt indent depth (by decide)⟩

end Plain

/-! ## Nesting -/

/-- A line without the spaces that it begins with. -/
def bare (line : String) : String := String.ofList (flush line.toList)

/-- How many braces are open after a line; none may be closed that is not open. -/
def nestingStep (opened : Nat) (line : String) : Option Nat :=
  if bare line = "\x7b" then some (opened + 1)
  else if bare line = "\x7d" then (if opened = 0 then none else some (opened - 1))
  else some opened

/-- How many braces are open after some lines. -/
def nestingAfter (opened : Nat) (lines : List String) : Option Nat := lines.foldlM nestingStep opened

/-- The braces of the lines match, all of the lines are between the first and the last of them, and each line is indented by the
braces around it. -/
structure NestedLines (indent : Nat) (lines : List String) : Prop where
  closed : nestingAfter 0 lines = some 0
  inside : ∀ front back, lines = front ++ back → front ≠ [] → back ≠ [] → ∃ depth, nestingAfter 0 front = some (depth + 1)
  /-- A brace stands outside of what it opens or closes. -/
  placed : ∀ front line back, lines = front ++ line :: back → ∃ opened opened', nestingAfter 0 front = some opened ∧
    nestingStep opened line = some opened' ∧ line = lineAt indent (min opened opened') (bare line)

/-- Reading the lines, with so many braces open before and after them, and never fewer than `least` before a line. -/
inductive Course (indent least : Nat) : Nat → List String → Nat → Prop
  | nil {opened : Nat} : Course indent least opened [] opened
  | cons {opened opened' final : Nat} {line : String} {lines : List String} (hleast : least ≤ opened)
    (hstep : nestingStep opened line = some opened') (hline : line = lineAt indent (min opened opened') (bare line))
    (hrest : Course indent least opened' lines final) : Course indent least opened (line :: lines) final

section Nesting

variable {indent least opened opened' final : Nat} {line : String} {lines lines' : List String}

/-- The nesting after lines goes on from that after the first. -/
theorem nestingAfter_cons (h : nestingStep opened line = some opened') :
    nestingAfter opened (line :: lines) = nestingAfter opened' lines := by
  rw [nestingAfter, List.foldlM_cons, h]
  rfl

/-- A course ends at the nesting that its lines lead to. -/
theorem Course.nestingAfter_eq (h : Course indent least opened lines final) : nestingAfter opened lines = some final := by
  induction h with
  | nil => rfl
  | cons _ hstep _ _ ih => rw [nestingAfter_cons hstep, ih]

/-- Courses that meet make one. -/
theorem Course.append (h : Course indent least opened lines opened') (h' : Course indent least opened' lines' final) :
    Course indent least opened (lines ++ lines') final := by
  induction h with
  | nil => exact h'
  | cons hleast hstep hline _ ih => exact .cons hleast hstep hline (ih h')

/-- A course that stays above some nesting stays above any lower one. -/
theorem Course.weaken {least' : Nat} (h : Course indent least opened lines final) (hle : least' ≤ least) :
    Course indent least' opened lines final := by
  induction h with
  | nil => exact .nil
  | cons hleast hstep hline _ ih => exact .cons (hle.trans hleast) hstep hline ih

/-- A reading can be interrupted between any two lines. -/
theorem Course.split {front back : List String} (h : Course indent least opened (front ++ back) final) :
    ∃ between, nestingAfter opened front = some between ∧ Course indent least between back final := by
  induction front generalizing opened with
  | nil => exact ⟨opened, rfl, h⟩
  | cons line front ih =>
    cases h with
    | cons _ hstep _ hrest =>
      rw [nestingAfter_cons hstep]
      exact ih hrest

/-- Without its indentation a line is the text that was indented. -/
theorem bare_lineAt {text : String} (h : text.toList.head? ≠ some ' ') (indent depth : Nat) :
    bare (lineAt indent depth text) = text := by
  have hspaces : ∀ c ∈ List.replicate (indent * depth) ' ', (c == ' ') = true := by
    intro c hc
    rw [List.eq_of_mem_replicate hc]
    rfl
  have hstop : text.toList.dropWhile (· == ' ') = text.toList := by
    cases hchars : text.toList with
    | nil => rfl
    | cons c cs =>
      rw [hchars] at h
      exact List.dropWhile_cons_of_neg fun hc => h (congrArg some (beq_iff_eq.1 hc))
  rw [bare, flush, lineAt, String.toList_append, String.toList_ofList, List.dropWhile_append_of_pos hspaces, hstop,
    String.ofList_toList]

/-- The same for a plain text. -/
theorem Plain.bare_lineAt {text : String} (h : Plain text) (indent depth : Nat) : bare (lineAt indent depth text) = text := by
  obtain ⟨c, hc, hstart⟩ := h.start
  refine Glsl.bare_lineAt ?_ indent depth
  rw [hc]
  rintro ⟨⟩
  cases hstart

/-- A plain text is no brace. -/
theorem Plain.ne_brace {text : String} (h : Plain text) : text ≠ "\x7b" ∧ text ≠ "\x7d" := by
  obtain ⟨c, hc, hstart⟩ := h.start
  constructor
  all_goals
    rintro rfl
    cases hc
    cases hstart

/-- An opening brace goes one deeper. -/
theorem nestingStep_opening (opened indent depth : Nat) :
    nestingStep opened (lineAt indent depth "\x7b") = some (opened + 1) := by
  rw [nestingStep, bare_lineAt (by decide), if_pos rfl]

/-- A closing brace goes back. -/
theorem nestingStep_closing (opened indent depth : Nat) :
    nestingStep (opened + 1) (lineAt indent depth "\x7d") = some opened := by
  rw [nestingStep, bare_lineAt (by decide), if_neg (by decide), if_pos rfl, if_neg (Nat.succ_ne_zero _), Nat.add_sub_cancel]

/-- Plain lines stay at their nesting. -/
theorem course_texts {texts : List String} (h : ∀ text ∈ texts, Plain text) (depth : Nat) :
    Course indent depth depth (texts.map (lineAt indent depth)) depth := by
  induction texts with
  | nil => exact .nil
  | cons text texts ih =>
    rw [List.forall_mem_cons] at h
    refine .cons le_rfl ?_ ?_ (ih h.2)
    · rw [nestingStep, h.1.bare_lineAt, if_neg h.1.ne_brace.1, if_neg h.1.ne_brace.2]
    · rw [h.1.bare_lineAt, min_self]

section Fence

variable {depth : Nat} {body : List String} (h : Course indent (depth + 1) (depth + 1) body (depth + 1))
include h

/-- A body with its closing brace goes back to the nesting outside. -/
theorem course_closing : Course indent (depth + 1) (depth + 1) (body ++ [lineAt indent depth "\x7d"]) depth := by
  refine h.append (.cons le_rfl (nestingStep_closing depth indent depth) ?_ .nil)
  rw [bare_lineAt (by decide), Nat.min_eq_right (Nat.le_succ depth)]

/-- Between its braces a body is one level deeper. -/
theorem course_fenced : Course indent depth depth (fenced indent depth body) depth := by
  refine .cons le_rfl (nestingStep_opening depth indent depth) ?_ ((course_closing h).weaken (Nat.le_succ depth))
  rw [bare_lineAt (by decide), Nat.min_eq_left (Nat.le_succ depth)]

end Fence

/-- A body between the outermost braces. -/
theorem nested_fenced {body : List String} (h : Course indent 1 1 body 1) : NestedLines indent (fenced indent 0 body) where
  closed := (course_fenced h).nestingAfter_eq
  inside := by
    intro front back hlines hfront hback
    obtain ⟨first, front, rfl⟩ := List.exists_cons_of_ne_nil hfront
    obtain ⟨line, back, rfl⟩ := List.exists_cons_of_ne_nil hback
    rw [fenced, List.cons_append, List.cons.injEq] at hlines
    obtain ⟨rfl, hlines⟩ := hlines
    -- after the first brace one is open before each line, the last included
    have hcourse := course_closing h
    rw [hlines] at hcourse
    obtain ⟨opened, hafter, hrest⟩ := hcourse.split
    rw [nestingAfter_cons (nestingStep_opening 0 indent 0), hafter]
    cases hrest with
    | cons hleast => exact ⟨opened - 1, congrArg some (Nat.sub_add_cancel hleast).symm⟩
  placed := by
    intro front line back hlines
    have hcourse := course_fenced h
    rw [hlines] at hcourse
    obtain ⟨opened, hafter, hrest⟩ := hcourse.split
    cases hrest with
    | cons _ hstep hline => exact ⟨opened, _, hafter, hstep, hline⟩

end Nesting

/-! ## What is left without the braces -/

mutual

/-- The statements of a tree from its root on, each with what is visible before it. -/
def sites (scope : Scope) : Tree → List (Scope × Tree)
  | .node id head children =>
    let tree := Tree.node id head children
    (scope, tree) :: if head.kind.isBlock then sitesAll (scope.inside tree) head.kind.headerLength children else []

/-- The statements of a row of trees of which the first ones are a header. -/
def sitesAll (scope : Scope) : (header : Nat) → List Tree → List (Scope × Tree)
  | _, [] => []
  | header + 1, _ :: trees => sitesAll scope header trees
  | 0, tree :: trees => sites scope tree ++ sitesAll (scope.after tree) 0 trees

end

/-- The lines that are no braces, without the spaces that they begin with. -/
def remaining (lines : List String) : List String := (lines.map bare).filter fun line => line ∉ ["\x7b", "\x7d"]

section Remaining

variable {indent depth : Nat} {scope : Scope} {tree : Tree} {trees : List Tree} {lines : List String}

/-- The sites of a body are those of the trees after its header. -/
theorem sitesAll_eq_drop (scope : Scope) (header : Nat) (trees : List Tree) :
    sitesAll scope header trees = sitesAll scope 0 (trees.drop header) := by
  induction header generalizing trees with
  | zero => rfl
  | succ header ih =>
    cases trees with
    | nil => rfl
    | cons tree trees => exact ih trees

/-- The sites of a block are its own and those of its body. -/
theorem sites_of_isBlock (hk : tree.kind.isBlock = true) : sites scope tree =
    (scope, tree) :: sitesAll (scope.inside tree) 0 (tree.children.drop tree.kind.headerLength) := by
  obtain ⟨id, head, children⟩ := tree
  rw [sites, ← sitesAll_eq_drop]
  exact congrArg (List.cons _) (if_pos hk)

/-- The site of a statement that is no block is its own. -/
theorem sites_of_not_isBlock (hk : tree.kind.isBlock = false) : sites scope tree = [(scope, tree)] := by
  obtain ⟨id, head, children⟩ := tree
  rw [sites]
  exact congrArg (List.cons _) (if_neg (ne_true_of_eq_false hk))

/-- What remains of lines is what remains of their parts. -/
theorem remaining_append (lines lines' : List String) : remaining (lines ++ lines') = remaining lines ++ remaining lines' := by
  rw [remaining, List.map_append, List.filter_append]
  rfl

/-- Of plain lines their texts remain. -/
theorem remaining_texts {texts : List String} (h : ∀ text ∈ texts, Plain text) :
    remaining (texts.map (lineAt indent depth)) = texts := by
  have hbare : (texts.map (lineAt indent depth)).map bare = texts := by
    rw [List.map_map]
    exact (List.map_congr_left fun text hm => (h text hm).bare_lineAt indent depth).trans (List.map_id texts)
  rw [remaining, hbare, List.filter_eq_self]
  intro text hm
  simpa using (h text hm).ne_brace

/-- Of fenced lines what remains of the body remains. -/
theorem remaining_fenced (body : List String) : remaining (fenced indent depth body) = remaining body := by
  have hbraces : remaining [lineAt indent depth "\x7b"] = [] ∧ remaining [lineAt indent depth "\x7d"] = [] := by
    constructor
    all_goals
      rw [remaining, List.map_singleton, bare_lineAt (by decide)]
      rfl
  rw [fenced, ← List.singleton_append, remaining_append, remaining_append, hbraces.1, hbraces.2, List.nil_append,
    List.append_nil]

end Remaining

/-! ## Layouts -/

namespace Laid

variable {indent depth : Nat} {scope : Scope} {trees : List Tree} {lines : List String}

/-- Lines that are laid out are lines. -/
theorem inline (h : Laid indent scope depth trees lines) (hscope : Named scope) : ∀ line ∈ lines, Inline line := by
  have htexts : ∀ {scope : Scope} {tree : Tree} {texts : List String} (depth : Nat), Named scope → Heading scope tree texts →
      ∀ line ∈ texts.map (lineAt indent depth), Inline line := by
    intro scope tree texts depth hscope hheading
    exact List.forall_mem_map.2 fun text hm => inline_lineAt indent depth (hheading.plain hscope text hm).inline
  induction h with
  | nil => exact List.forall_mem_nil _
  | leaf _ hheading _ ih => exact List.forall_mem_append.2 ⟨htexts _ hscope hheading, ih (named_after hscope _)⟩
  | group _ hheading _ _ ihbody ih =>
    rw [List.forall_mem_append, List.forall_mem_append]
    exact ⟨⟨htexts _ hscope hheading, inline_fenced (ihbody (named_inside hscope _))⟩, ih hscope⟩

/-- The lines close what they open, and each is indented by the braces around it. -/
theorem course (h : Laid indent scope depth trees lines) (hscope : Named scope) : Course indent depth depth lines depth := by
  induction h with
  | nil => exact .nil
  | leaf _ hheading _ ih => exact (course_texts (hheading.plain hscope) _).append (ih (named_after hscope _))
  | group _ hheading _ _ ihbody ih =>
    have hbody := course_fenced (ihbody (named_inside hscope _))
    exact ((course_texts (hheading.plain hscope) _).append hbody).append (ih hscope)

/-- Without the braces there are left the lines of each statement. -/
theorem remaining_eq (h : Laid indent scope depth trees lines) (hscope : Named scope) :
    ∃ groups, List.Forall₂ (fun site texts => Heading site.1 site.2 texts) (sitesAll scope 0 trees) groups ∧
      remaining lines = groups.flatten := by
  induction h with
  | nil => exact ⟨[], .nil, rfl⟩
  | @leaf _ _ _ _ texts _ hk hheading _ ih =>
    obtain ⟨groups, hgroups, hrest⟩ := ih (named_after hscope _)
    refine ⟨texts :: groups, ?_, ?_⟩
    · rw [sitesAll, sites_of_not_isBlock (by rw [hk]; rfl)]
      exact .cons hheading hgroups
    · rw [remaining_append, remaining_texts (hheading.plain hscope), hrest, List.flatten_cons]
  | @group _ _ _ _ texts _ _ hk hheading _ _ ihbody ih =>
    obtain ⟨inner, hinner, hbody⟩ := ihbody (named_inside hscope _)
    obtain ⟨groups, hgroups, hrest⟩ := ih hscope
    refine ⟨texts :: (inner ++ groups), ?_, ?_⟩
    · rw [sitesAll, sites_of_isBlock hk, after_of_isBlock hk]
      exact .cons hheading (List.rel_append hinner hgroups)
    · rw [remaining_append, remaining_append, remaining_texts (hheading.plain hscope), remaining_fenced, hbody, hrest,
        List.flatten_cons, List.flatten_append, List.append_assoc]

end Laid

/-! ## Main -/

/-- Main mirrors the tree of its statements, line by line. Its lines are between braces, and they are those of its statements: an
assignment has one line, with one before it that declares a vector if a lane is written and the vector is not visible; a branch
or a loop has a header, and after it, like a block without one, its own statements between braces. So the braces match, and the
first and the last of them enclose the others; each line is indented by the braces around it; and the other lines are those of
the statements of main from the first to the last, outer ones before inner ones. Nothing is lost at the end of the text, where
one newline ends the line of the last brace. -/
theorem main_mirrors_statements (config : Config) (arena : Arena) (root : NodeId) (program : Program)
    (h : generate config arena root = .ok program)
    (hn : ∀ name ∈ program.inputs.map (·.name) ++ program.outputs.map (·.name), isIdentifier name = true) :
    ∃ tree main shader front body, arena.tree root = .ok tree ∧ main ∈ tree.children ∧ main.kind = .main ∧
      shaderOf tree = .ok shader ∧
      program.source = endLine (shader.untrimmed config) ∧ endLine (shader.untrimmed config) = shader.untrimmed config ∧
      linesOf program.source = (front ++ "void main()" :: fenced config.indent 0 body).map String.toList ++ [[]] ∧
      "void main()" ∉ front ∧
      Laid config.indent shader.scope 1 main.children body ∧
      NestedLines config.indent (fenced config.indent 0 body) ∧
      ∃ groups, List.Forall₂ (fun site texts => Heading site.1 site.2 texts) (sitesAll shader.scope 0 main.children) groups ∧
        remaining (fenced config.indent 0 body) = groups.flatten := by
  obtain ⟨tree, shader, htree, hshader, rfl⟩ := generate_eq_ok_iff.1 h
  obtain ⟨main, hmade⟩ := shaderOf_eq_ok_iff.1 hshader
  obtain ⟨hmem, hkind⟩ := (firstOf_eq_some_iff hmade.once).1 hmade.main_eq
  have hidentified := identified_of_program hn
  have hscope := hmade.named hidentified
  have hlaid := laid_statements config.indent main.children hmade.body 1
  have hfront : ∀ line ∈ (shader.frontRows config).map (Row.written config.indent), Inline line := by
    refine List.forall_mem_map.2 fun row hm => ?_
    rw [(front_of_mem hm).written_eq]
    exact (front_of_mem hm).inline hmade hidentified
  refine ⟨tree, main, shader, (shader.frontRows config).map (Row.written config.indent), _, htree, hmem, hkind, hshader, rfl,
    shader.text_eq_untrimmed config, ?_, ?_, hlaid, nested_fenced (hlaid.course hscope), ?_⟩
  · show linesOf (shader.text config) = _
    rw [Shader.text_eq_front, map_written_bracedRows, linesOf_unlines]
    rw [List.forall_mem_append, List.forall_mem_cons]
    exact ⟨hfront, by decide, inline_fenced (hlaid.inline hscope)⟩
  · intro hm
    obtain ⟨row, hrow, heq⟩ := List.mem_map.1 hm
    exact (front_of_mem hrow).ne_main _ heq
  · rw [remaining_fenced]
    exact hlaid.remaining_eq hscope

/-- A program whose first branch declares a vector for one of its lanes, and whose second one is an empty block. -/
def mirroredEdits : List Edit :=
  [.alloc { kind := .program, type := .void }, .alloc { kind := .constData, type := .void },
    .alloc ((Head.ofSymbol .constVar .int ⟨0⟩).named "n"), .attach ⟨1⟩ ⟨2⟩, .alloc { kind := .main, type := .void },
    .alloc { kind := .ifBranch, type := .void }, .alloc (.ofLiteral (.bool true)), .attach ⟨4⟩ ⟨5⟩,
    .alloc { kind := .assignment, type := .void }, .alloc (.ofMember .int ⟨1⟩ .int2 .x), .alloc (.ofSymbol .var .int ⟨0⟩),
    .attach ⟨6⟩ ⟨7⟩, .attach ⟨6⟩ ⟨8⟩, .attach ⟨4⟩ ⟨6⟩, .alloc { kind := .elseBranch, type := .void },
    .alloc { kind := .block, type := .void }, .attach ⟨9⟩ ⟨10⟩, .attach ⟨3⟩ ⟨4⟩, .attach ⟨3⟩ ⟨9⟩, .attach ⟨0⟩ ⟨1⟩,
    .attach ⟨0⟩ ⟨3⟩]

/-- The lines between the braces of its main, each level indented by one space. -/
def mirroredLines : List String :=
  [" if (true)", " \x7b", "  ivec2 v1;", "  v1.x = n;", " \x7d", " else", " \x7b", "  \x7b", "  \x7d", " \x7d"]

def mirroredProgram : Program where
  source := unlines (["#version 330", "", "uniform int n;", ""] ++ "void main()" :: fenced 1 0 mirroredLines)
  inputs := [⟨"n", "n", .int, 0⟩]
  outputs := []

/-- The two branches stand one after the other, each with its braces, and the vector is declared in the first. -/
theorem main_mirrors_statements_branches :
    generate { indent := 1 } (Arena.empty.editAll mirroredEdits) ⟨0⟩ = .ok mirroredProgram ∧
      ∃ tree main shader, (Arena.empty.editAll mirroredEdits).tree ⟨0⟩ = .ok tree ∧ main ∈ tree.children ∧
        main.kind = .main ∧ shaderOf tree = .ok shader ∧ mirroredProgram.source = shader.untrimmed { indent := 1 } ∧
        Laid 1 shader.scope 1 main.children mirroredLines ∧ NestedLines 1 (fenced 1 0 mirroredLines) ∧
        ∃ groups, List.Forall₂ (fun site texts => Heading site.1 site.2 texts) (sitesAll shader.scope 0 main.children) groups ∧
          groups.flatten = ["if (true)", "ivec2 v1;", "v1.x = n;", "else"] := by
  have h : generate { indent := 1 } (Arena.empty.editAll mirroredEdits) ⟨0⟩ = .ok mirroredProgram := by decide +kernel
  obtain ⟨tree, main, shader, front, body, htree, hmem, hkind, hshader, hsource, htrim, hlines, -, hlaid, hnested, groups,
    hgroups, hremaining⟩ := main_mirrors_statements { indent := 1 } _ ⟨0⟩ mirroredProgram h (by decide)
  -- what stands after the line of main in the text can be read off it
  have hbody : mirroredLines = body := by
    rw [mirroredProgram, linesOf_unlines (by decide)] at hlines
    have hsame := List.map_injective_iff.2 (fun _ _ => String.toList_injective) (List.append_cancel_right hlines)
    obtain ⟨-, -, hfenced⟩ := (List.append_cons_inj_of_notMem (by decide) (by decide)).1 hsame
    exact List.append_cancel_right (List.cons.inj hfenced).2
  subst hbody
  refine ⟨h, tree, main, shader, htree, hmem, hkind, hshader, hsource.trans htrim, hlaid, hnested, groups, hgroups, ?_⟩
  rw [← hremaining]
  decide +kernel

end ShaderTrace.Glsl
