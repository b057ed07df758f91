import ShaderTrace.Proofs.Text.Rows

/-!
# The lines that stand before a place of a text

A reading knows what is declared at a place. Here the lines themselves are kept: those that stand before the place, in the same
block or in one around it (`Standing`). What a reading knows is what these lines declare (`reading_after`).
-/

namespace ShaderTrace.Glsl

/-- The lines before a place, by blocks. -/
structure Standing where
  /-- The lines of the innermost block, the last first. -/
  frame : List Clause
  /-- The lines of the blocks around it, from the inside out. -/
  outer : List (List Clause)
  /-- The header of a loop, which belongs to the block that comes next. -/
  pending : List Clause

namespace Standing

/-- Before the first line. -/
def start : Standing := ⟨[], [], []⟩

/-- The lines in the same block and in those around it, the last first. -/
def lines (standing : Standing) : List Clause := standing.frame ++ standing.outer.flatten

/-- Goes on by one line. -/
def step (standing : Standing) : Clause → Standing
  | .openBrace => ⟨standing.pending, standing.frame :: standing.outer, []⟩
  | .closeBrace => ⟨standing.outer.headD [], standing.outer.tail, []⟩
  | .count counter first last => { standing with pending := [.count counter first last] }
  | clause => { standing with frame := clause :: standing.frame }

def after (standing : Standing) (rows : List Row) : Standing :=
  rows.foldl (fun standing row => standing.step row.clause) standing

/-- What the lines declare. -/
def reading (standing : Standing) : Reading where
  frame := standing.frame.filterMap Clause.declared?
  outer := standing.outer.map (List.filterMap Clause.declared?)
  pending := standing.pending.filterMap Clause.declared?

variable {standing : Standing} {rows rows' : List Row} {clause : Clause}

/-- The lines that stand after the first rows are those from which the others go on. -/
theorem after_append : standing.after (rows ++ rows') = (standing.after rows).after rows' := List.foldl_append

/-- The names that a reading sees are those that the standing lines declare. -/
theorem visible_reading (standing : Standing) : standing.reading.visible = standing.lines.filterMap Clause.declared? := by
  rw [Reading.visible, lines, List.filterMap_append, reading, List.filterMap_flatten]

/-- A step of the standing lines is a step of their reading. -/
theorem reading_step (standing : Standing) (clause : Clause) :
    (standing.step clause).reading = standing.reading.step clause := by
  cases clause with
  | closeBrace =>
    obtain ⟨frame, outer, pending⟩ := standing
    cases outer <;> rfl
  | _ => rfl

/-- The reading after rows is that of the lines that stand after them. -/
theorem reading_after (rows : List Row) (standing : Standing) :
    (standing.after rows).reading = standing.reading.after rows := by
  induction rows generalizing standing with
  | nil => rfl
  | cons row rows ih =>
    show ((standing.step row.clause).after rows).reading = _
    rw [ih, reading_step]
    rfl

/-- All lines that are kept, those of a header that waits for its block among them. -/
def all (standing : Standing) : List Clause := standing.lines ++ standing.pending

/-- After a line nothing stands but that line and what stood before. -/
theorem mem_all_step {next : Clause} (h : clause ∈ (standing.step next).all) : clause = next ∨ clause ∈ standing.all := by
  obtain ⟨frame, outer, pending⟩ := standing
  cases next with
  | closeBrace =>
    cases outer with
    | nil => simp [step, all, lines] at h
    | cons first outer =>
      simp only [step, all, lines, List.headD_cons, List.tail_cons, List.append_nil, List.mem_append] at h
      simp only [all, lines, List.flatten_cons, List.mem_append]
      exact .inr (.inl (.inr h))
  | openBrace =>
    simp only [step, all, lines, List.flatten_cons, List.append_nil, List.mem_append] at h
    simp only [all, lines, List.mem_append]
    exact .inr h.symm
  | count =>
    simp only [step, all, lines, List.mem_append, List.mem_singleton] at h
    simp only [all, lines, List.mem_append]
    exact h.symm.imp_right .inl
  | _ =>
    simp only [step, all, lines, List.cons_append, List.mem_append, List.mem_cons, or_assoc] at h
    simp only [all, lines, List.mem_append, or_assoc]
    exact h

/-- The lines that are kept are lines of the text. -/
theorem mem_of_mem_after (h : clause ∈ (standing.after rows).all) :
    clause ∈ standing.all ∨ ∃ row ∈ rows, row.clause = clause := by
  induction rows generalizing standing with
  | nil => exact .inl h
  | cons row rows ih =>
    rcases ih h with h | ⟨other, hm, hclause⟩
    · rcases mem_all_step h with rfl | h
      · exact .inr ⟨row, List.mem_cons_self, rfl⟩
      · exact .inl h
    · exact .inr ⟨other, List.mem_cons_of_mem _ hm, hclause⟩

/-- What a name means at a place was declared by a line that stands before it. -/
theorem exists_declared_of_lookup {spelling : String} {seen : Seen} (h : standing.reading.lookup spelling = some seen) :
    ∃ clause ∈ standing.lines, clause.declared? = some seen := by
  have hm := List.mem_of_find?_eq_some h
  rw [visible_reading] at hm
  exact List.mem_filterMap.1 hm

/-! ## Blocks -/

/-- After the rows the same blocks are open as before them, and those around the innermost one have stayed as they were. -/
def Enclosed (rows : List Row) : Prop :=
  ∀ standing : Standing, standing.pending = [] → ∃ frame, standing.after rows = ⟨frame, standing.outer, []⟩

/-- Nothing that stands between braces is kept after them. -/
theorem after_bracedRows {body : List Row} (h : Enclosed body) (depth : Nat) (standing : Standing) :
    standing.after (bracedRows depth body) = ⟨standing.frame, standing.outer, []⟩ := by
  obtain ⟨frame, hframe⟩ := h (standing.step .openBrace) rfl
  rw [bracedRows, ← List.singleton_append, after_append, after_append]
  show ((standing.step .openBrace).after body).step .closeBrace = _
  rw [hframe]
  rfl

/-- A header before a block, which may stay before the block or belong to it. -/
theorem enclosed_header {body : List Row} (h : Enclosed body) (depth : Nat) {row : Row}
    (hrow : ∀ standing : Standing, (standing.step row.clause).outer = standing.outer) :
    Enclosed (row :: bracedRows depth body) := by
  intro standing _
  show ∃ frame, (standing.step row.clause).after (bracedRows depth body) = _
  rw [after_bracedRows h, hrow]
  exact ⟨_, rfl⟩

mutual

/-- The rows of a statement are enclosed. -/
theorem enclosed_rows (depth : Nat) : ∀ stmt : Stmt, Enclosed (stmt.rows depth)
  | .define _ _ _ | .declare _ _ | .assign _ _ | .assignLane _ _ _ =>
    fun standing hp => ⟨_, congrArg (Standing.mk _ standing.outer) hp⟩
  | .block body => fun standing _ => ⟨standing.frame, after_bracedRows (enclosed_rowsAll (depth + 1) body) depth standing⟩
  | .guarded _ _ body | .otherwise body | .count _ _ _ body =>
    enclosed_header (enclosed_rowsAll (depth + 1) body) depth fun _ => rfl

/-- The rows of statements are enclosed. -/
theorem enclosed_rowsAll (depth : Nat) : ∀ stmts : List Stmt, Enclosed (Stmt.rowsAll depth stmts)
  | [] => fun standing hp => ⟨standing.frame, congrArg (Standing.mk standing.frame standing.outer) hp⟩
  | stmt :: stmts => by
    intro standing hp
    obtain ⟨frame, hfirst⟩ := enclosed_rows depth stmt standing hp
    rw [Stmt.rowsAll, after_append, hfirst]
    exact enclosed_rowsAll depth stmts _ rfl

end

end Standing

end ShaderTrace.Glsl
