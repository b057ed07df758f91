import ShaderTrace.Proofs.Text.Scoping
import ShaderTrace.Proofs.Text.Standing

/-!
# Reads of variables that have been written

A variable of `main` is declared with its first value, or with none because only a lane of it is written first. So a line that
reads it stands after a line that wrote all of it, or, if it was declared without a value, after a line that wrote some lane of it
(`WrittenBefore`). Every line keeps this but a declaration without a value, and the line after that one writes a lane
(`AllWritten`). The main statement is `finished_reads_written`. That a lane which is read is one of those that were written is not
among it (`lane_read_unwritten`).
-/

namespace ShaderTrace.Glsl

open Execution (Arranged spelling distinct_scope arranged_main)
open Recording (Ledger)

/-! ## Reads and writes -/

/-- What is read of a variable: one lane, or all of it. -/
structure Read where
  target : Variable
  lane? : Option Lane
deriving DecidableEq

/-- The lane that a letter selects. -/
def laneOf? (accessor : String) : Option Lane := [Lane.x, .y, .z, .w].find? (·.accessor == accessor)

namespace Expr

mutual

/-- What an expression reads. -/
def reads : Expr → List Read
  | var target => [⟨target, none⟩]
  | name _ | literal _ => []
  | field (var target) lanes => [⟨target, laneOf? lanes⟩]
  | field object _ => object.reads
  | unary _ operand => operand.reads
  | binary _ left right => left.reads ++ right.reads
  | call _ arguments => readsAll arguments

def readsAll : List Expr → List Read
  | [] => []
  | e :: es => e.reads ++ readsAll es

end

/-- What is read of an expression behind a dot is read of the expression, or one lane of it. -/
theorem map_target_reads_field (object : Expr) (lanes : String) :
    (field object lanes).reads.map Read.target = object.reads.map Read.target := by
  cases object <;> rfl

mutual

/-- The variables of an expression are those that it reads. -/
theorem map_target_reads : ∀ expr : Expr, expr.reads.map Read.target = expr.vars
  | var _ | name _ | literal _ => rfl
  | field object lanes => (map_target_reads_field object lanes).trans (map_target_reads object)
  | unary _ operand => map_target_reads operand
  | binary _ left right => by rw [reads, vars, List.map_append, map_target_reads left, map_target_reads right]
  | call _ arguments => map_target_readsAll arguments

/-- The variables that expressions read are those in them. -/
theorem map_target_readsAll : ∀ exprs : List Expr, (readsAll exprs).map Read.target = varsAll exprs
  | [] => rfl
  | e :: es => by rw [readsAll, varsAll, List.map_append, map_target_reads e, map_target_readsAll es]

end

/-- What an expression reads is a variable in it. -/
theorem mem_vars_of_mem_reads {expr : Expr} {read : Read} (h : read ∈ expr.reads) : read.target ∈ expr.vars := by
  rw [← map_target_reads]
  exact List.mem_map_of_mem h

end Expr

namespace Clause

/-- What a line reads. -/
def reads : Clause → List Read
  | guarded _ condition => condition.reads
  | count _ start stop => start.reads ++ stop.reads
  | define _ _ value | assign _ value | assignLane _ _ value => value.reads
  | version _ | blank | uniform _ _ _ | output _ _ _ _ | main | openBrace | closeBrace | otherwise | declare _ _ => []

/-- The lanes that a line writes of the variable with the given name. -/
def writes (name : String) : Clause → List Lane
  | count v _ _ | define _ v _ | assign v _ => if v.spelling = name then [.x, .y, .z, .w] else []
  | assignLane v lane _ => if v.spelling = name then [lane] else []
  | version _ | blank | uniform _ _ _ | output _ _ _ _ | main | openBrace | closeBrace | guarded _ _ | otherwise
  | declare _ _ => []

/-- The line declares the name. -/
def declares (name : String) (clause : Clause) : Bool := clause.declared?.any fun seen => seen.spelling == name

/-- The line declares a variable and gives it no value. -/
def isBare : Clause → Bool
  | declare _ _ => true
  | version _ | blank | uniform _ _ _ | output _ _ _ _ | main | openBrace | closeBrace | guarded _ _ | otherwise | count _ _ _
  | define _ _ _ | assign _ _ | assignLane _ _ _ => false

variable {clause : Clause}

/-- What a line reads is a variable that it uses. -/
theorem mem_used_of_mem_reads {read : Read} (h : read ∈ clause.reads) : read.target ∈ clause.used := by
  cases clause with
  | guarded keyword condition => exact Expr.mem_vars_of_mem_reads h
  | count v start stop =>
    rw [reads, List.mem_append] at h
    rw [used, List.mem_append]
    exact h.imp Expr.mem_vars_of_mem_reads Expr.mem_vars_of_mem_reads
  | define type v value => exact Expr.mem_vars_of_mem_reads h
  | assign v value => exact List.mem_cons_of_mem _ (Expr.mem_vars_of_mem_reads h)
  | assignLane v lane value => exact List.mem_cons_of_mem _ (Expr.mem_vars_of_mem_reads h)
  | _ => cases h

/-- A line before the body of `main` reads nothing. -/
theorem reads_of_isGlobal (h : clause.isGlobal = true) : clause.reads = [] := by
  cases clause <;> first | rfl | cases h

/-- A declaration in `main` that gives a value gives it to all lanes. -/
theorem mem_writes_of_declares {name : String} (hd : clause.declares name = true) (hb : clause.isBare = false)
    (hg : clause.isGlobal = false) (lane : Lane) : lane ∈ clause.writes name := by
  have hall : lane ∈ [Lane.x, .y, .z, .w] := by cases lane <;> decide
  cases clause with
  | count v | define _ v =>
    have hname : v.spelling = name := by simpa [declares, declared?] using hd
    simpa [writes, hname] using hall
  | declare => cases hb
  | openBrace | closeBrace | guarded | otherwise | assign | assignLane => cases hd
  | _ => cases hg

end Clause

/-- The line that declares a name, of lines that stand before a place, the last first. -/
def declarationOf (name : String) (lines : List Clause) : Option Clause := lines.find? (Clause.declares name)

/-- The lanes of a variable that have been written since its declaration, by lines that stand before a place, the last first. -/
def lanesWritten (name : String) : (lines : List Clause) → List Lane
  | [] => []
  | clause :: earlier => clause.writes name ++ if clause.declares name then [] else lanesWritten name earlier

/-- If the name means a variable of `main`, that one has been written: all of it, or some lane if it was declared without a value. -/
def WrittenBefore (name : String) (lines : List Clause) : Prop :=
  ∀ declaration, declarationOf name lines = some declaration → declaration.isGlobal = false →
    lanesWritten name lines ≠ [] ∧ (declaration.isBare = false → ∀ lane, lane ∈ lanesWritten name lines)

/-- Every variable that is seen has been written. -/
def AllWritten (lines : List Clause) : Prop := ∀ name, WrittenBefore name lines

section Lines

variable {name : String} {lines : List Clause} {clause : Clause}

/-- What was written stays so after a line that does not declare it again. -/
theorem WrittenBefore.cons (h : WrittenBefore name lines) (hd : clause.declares name = false) :
    WrittenBefore name (clause :: lines) := by
  intro declaration hdeclaration hlocal
  rw [declarationOf, List.find?_cons, hd] at hdeclaration
  obtain ⟨hsome, hall⟩ := h declaration hdeclaration hlocal
  rw [lanesWritten, hd]
  refine ⟨by simp [hsome], fun hb lane => ?_⟩
  exact List.mem_append_right _ (hall hb lane)

/-- A line that writes what it declares, or declares nothing of `main`. -/
theorem AllWritten.cons (h : AllWritten lines) (hb : clause.isBare = false) : AllWritten (clause :: lines) := by
  intro name
  cases hd : clause.declares name with
  | false => exact (h name).cons hd
  | true =>
    intro declaration hdeclaration hlocal
    rw [declarationOf, List.find?_cons, hd] at hdeclaration
    cases hdeclaration
    have hwrites := Clause.mem_writes_of_declares hd hb hlocal
    rw [lanesWritten]
    refine ⟨List.ne_nil_of_mem (List.mem_append_left _ (hwrites .x)), fun _ lane => ?_⟩
    exact List.mem_append_left _ (hwrites lane)

/-- A declaration without a value, and a line that writes a lane of it. -/
theorem AllWritten.cons_lane (h : AllWritten lines) (type : String) (v : Variable) (lane : Lane) (value : Expr) :
    AllWritten (.assignLane v lane value :: .declare type v :: lines) := by
  intro name
  by_cases hv : v.spelling = name
  · intro declaration hdeclaration _
    have hbare : declaration = .declare type v := by
      simpa [declarationOf, List.find?_cons, Clause.declares, Clause.declared?, hv] using hdeclaration.symm
    subst hbare
    refine ⟨?_, by rintro ⟨⟩⟩
    simp [lanesWritten, Clause.writes, hv]
  · have hd : (Clause.declare type v).declares name = false := by simpa [Clause.declares, Clause.declared?] using hv
    exact ((h name).cons hd).cons rfl

/-- Before the body of `main` there are no variables of it. -/
theorem settled_of_globals (h : ∀ clause ∈ lines, clause.isGlobal = true) : AllWritten lines := by
  intro name declaration hdeclaration hlocal
  rw [h declaration (List.mem_of_find?_eq_some hdeclaration)] at hlocal
  cases hlocal

end Lines

/-! ## Rows -/

/-- Whatever a row reads has been written, at the place where it stands. -/
def ReadsWritten (standing : Standing) (rows : List Row) : Prop :=
  ∀ before row after, rows = before ++ row :: after →
    ∀ read ∈ row.clause.reads, WrittenBefore read.target.spelling (standing.after before).lines

section Rows

variable {standing : Standing} {row : Row} {rows rows' : List Row}

theorem readsWritten_nil : ReadsWritten standing [] := by
  intro before row after h
  cases before <;> cases h

/-- Rows read what was written exactly if the first one does and the rest do after it. -/
theorem readsWritten_cons : ReadsWritten standing (row :: rows) ↔
    (∀ read ∈ row.clause.reads, WrittenBefore read.target.spelling standing.lines) ∧
      ReadsWritten (standing.step row.clause) rows := by
  constructor
  · intro h
    refine ⟨h [] row rows rfl, fun before other after hrows => ?_⟩
    exact h (row :: before) other after (by rw [hrows]; rfl)
  · rintro ⟨hrow, hrest⟩ before other after h
    cases before with
    | nil =>
      cases h
      exact hrow
    | cons first before =>
      cases h
      exact hrest before other after rfl

/-- Rows read what was written exactly if the first ones do and the others do after those. -/
theorem readsWritten_append : ReadsWritten standing (rows ++ rows') ↔
    ReadsWritten standing rows ∧ ReadsWritten (standing.after rows) rows' := by
  induction rows generalizing standing with
  | nil => exact ⟨fun h => ⟨readsWritten_nil, h⟩, And.right⟩
  | cons row rows ih =>
    rw [List.cons_append, readsWritten_cons, readsWritten_cons, ih, and_assoc]
    rfl

/-- A block, and the rows after it. -/
theorem readsWritten_bracedRows {depth : Nat} {body : List Stmt}
    (hbody : ReadsWritten (standing.step .openBrace) (Stmt.rowsAll (depth + 1) body))
    (hrows : ReadsWritten ⟨standing.frame, standing.outer, []⟩ rows) :
    ReadsWritten standing (bracedRows depth (Stmt.rowsAll (depth + 1) body) ++ rows) := by
  have hafter := Standing.after_bracedRows (Standing.enclosed_rowsAll (depth + 1) body) depth standing
  rw [readsWritten_append, hafter, bracedRows, readsWritten_cons, readsWritten_append, readsWritten_cons]
  refine ⟨⟨?_, hbody, ?_, readsWritten_nil⟩, hrows⟩
  · rintro read ⟨⟩
  · rintro read ⟨⟩

end Rows

/-! ## Statements -/

section Statements

variable {Γ : Ledger} {scope : Scope} {standing : Standing}

/-- What is written for an assignment reads what has been written, and leaves everything written. -/
theorem readsWritten_assignment {tree : Tree} {stmts : List Stmt} {scope' : Scope} (hg : Generated scope tree stmts scope')
    (hk : tree.kind = .assignment) (hi : Function.Injective (spelling scope)) (hs : AllWritten standing.lines) (depth : Nat) :
    ReadsWritten standing (Stmt.rowsAll depth stmts) ∧ AllWritten (standing.after (Stmt.rowsAll depth stmts)).lines ∧
      (standing.after (Stmt.rowsAll depth stmts)).pending = standing.pending ∧ spelling scope' = spelling scope := by
  cases hg with
  | define | assign | assignLane =>
    refine ⟨readsWritten_cons.2 ⟨fun read _ => hs read.target.spelling, readsWritten_nil⟩, ?_, rfl, rfl⟩
    exact hs.cons rfl
  | @declareLane _ _ value owner _ lane type _ _ hv _ _ _ hn =>
    refine ⟨readsWritten_cons.2 ⟨by rintro read ⟨⟩, readsWritten_cons.2 ⟨?_, readsWritten_nil⟩⟩, ?_, rfl, rfl⟩
    · -- the value was rendered before its target became visible
      intro read hread
      obtain ⟨hvisible, htarget⟩ := visible_of_expression _ hv read.target (Expr.mem_vars_of_mem_reads hread)
      refine (hs read.target.spelling).cons ?_
      have hne : spelling scope owner ≠ spelling scope read.target.symbol := by
        intro heq
        rw [hi heq, hvisible] at hn
        cases hn
      rw [htarget, Clause.declares, Clause.declared?, Option.any_some]
      exact beq_eq_false_iff_ne.2 hne
    · exact hs.cons_lane type (scope.variableOf owner) lane value
  | guarded keyword hk' =>
    rw [hk] at hk'
    cases keyword <;> cases hk'
  | otherwise hk' | block hk' | count hk' =>
    rw [hk] at hk'
    cases hk'

/-- What is written for a recording reads what has been written. -/
theorem readsWritten_of_arranged {trees : List Tree} {stmts : List Stmt} (h : Arranged Γ scope trees stmts) :
    ∀ {standing : Standing} {depth : Nat}, Function.Injective (spelling scope) → standing.pending = [] →
      AllWritten standing.lines → ReadsWritten standing (Stmt.rowsAll depth stmts) := by
  -- the lines before a block stand before its body too
  have inside : ∀ {standing : Standing}, standing.pending = [] → AllWritten standing.lines →
      AllWritten (standing.step .openBrace).lines := by
    intro standing hp hs
    rw [Standing.lines, Standing.step, hp]
    exact hs
  induction h with
  | nil => exact fun _ _ _ => readsWritten_nil
  | assignment hk _ hg _ ih =>
    intro standing depth hi hp hs
    obtain ⟨hreads, hafter, hpending, hspelling⟩ := readsWritten_assignment hg hk hi hs depth
    rw [Stmt.rowsAll_append, readsWritten_append]
    exact ⟨hreads, ih (by rw [hspelling]; exact hi) (hpending.trans hp) hafter⟩
  | guarded keyword _ _ _ _ _ _ ihb ih =>
    intro standing depth hi hp hs
    rw [Stmt.rowsAll, Stmt.rows, List.cons_append, readsWritten_cons]
    exact ⟨fun read _ => hs read.target.spelling,
      readsWritten_bracedRows (ihb hi rfl (inside hp (hs.cons rfl))) (ih hi rfl (hs.cons rfl))⟩
  | otherwise _ _ _ ihb ih =>
    intro standing depth hi hp hs
    rw [Stmt.rowsAll, Stmt.rows, List.cons_append, readsWritten_cons]
    exact ⟨by rintro read ⟨⟩, readsWritten_bracedRows (ihb hi rfl (inside hp (hs.cons rfl))) (ih hi rfl (hs.cons rfl))⟩
  | block _ _ _ ihb ih =>
    intro standing depth hi hp hs
    rw [Stmt.rowsAll, Stmt.rows]
    exact readsWritten_bracedRows (ihb hi rfl (inside hp hs)) (ih hi rfl hs)
  | count _ _ _ _ _ _ _ _ _ _ ihb ih =>
    intro standing depth hi hp hs
    rw [Stmt.rowsAll, Stmt.rows, List.cons_append, readsWritten_cons]
    refine ⟨fun read _ => hs read.target.spelling, readsWritten_bracedRows (ihb hi rfl ?_) (ih hi rfl hs)⟩
    -- the header of the loop is the first line of its body
    exact hs.cons rfl

end Statements

/-! ## Whole shaders -/

section Shaders

/-- A line before the body of `main` only joins the frame. -/
theorem step_global {clause : Clause} (h : clause.isGlobal = true) (standing : Standing) :
    standing.step clause = { standing with frame := clause :: standing.frame } := by
  cases clause <;> first | rfl | cases h

/-- The lines before the body of `main` only join the frame. -/
theorem standing_after_globals {rows : List Row} (h : ∀ row ∈ rows, row.clause.isGlobal = true) (standing : Standing) :
    standing.after rows = { standing with frame := (rows.map Row.clause).reverse ++ standing.frame } := by
  induction rows generalizing standing with
  | nil => rfl
  | cons row rows ih =>
    obtain ⟨hrow, hrows⟩ := List.forall_mem_cons.1 h
    show (standing.step row.clause).after rows = _
    rw [step_global hrow, ih hrows]
    simp

/-- The rows of a shader read what has been written, if its body stands beside the main section that it was written for. -/
theorem readsWritten_rows {Γ : Ledger} {root main : Tree} {shader : Shader} (hm : Made root main shader)
    (h : Arranged Γ shader.scope main.children shader.body) (config : Config) :
    ReadsWritten .start (shader.rows config) := by
  have hglobal := isGlobal_headerRows config shader
  have hheader : ReadsWritten .start (shader.headerRows config) := by
    intro before row after hrows read hread
    rw [Clause.reads_of_isGlobal (hglobal row (by rw [hrows]; simp))] at hread
    cases hread
  have hsettled : AllWritten ((shader.headerRows config).map Row.clause).reverse := by
    refine settled_of_globals ?_
    intro clause hclause
    obtain ⟨row, hrow, rfl⟩ := List.mem_map.1 (List.mem_reverse.1 hclause)
    exact hglobal row hrow
  rw [Shader.rows, readsWritten_append, standing_after_globals hglobal, ← List.append_nil (bracedRows 0 _)]
  refine ⟨hheader, readsWritten_bracedRows ?_ readsWritten_nil⟩
  refine readsWritten_of_arranged h (distinct_scope hm).spelling rfl ?_
  simpa [Standing.step, Standing.start, Standing.lines] using hsettled

/-- What a name means is declared by the last line that declares it. -/
theorem exists_declarationOf {standing : Standing} {name : String} {seen : Seen} (h : standing.reading.lookup name = some seen) :
    ∃ declaration, declarationOf name standing.lines = some declaration ∧ declaration.declared? = some seen := by
  rw [Reading.lookup, Standing.visible_reading, List.find?_filterMap] at h
  obtain ⟨declaration, hfind, hdeclared⟩ := Option.bind_eq_some_iff.1 h
  exact ⟨declaration, hfind, hdeclared⟩

/-- What is read means its symbol, and if that is a variable of `main`, then it has been written. -/
def Initialised (lines : List Clause) (read : Read) : Prop :=
  ((declarationOf read.target.spelling lines).bind Clause.declared?).bind Seen.symbol? = some read.target.symbol ∧
    WrittenBefore read.target.spelling lines

/-- The text of the shader of a finished recording, at every line and for everything that the line reads. The name that is read is
declared by a line before it, in the same block or in one around it. If that line stands in `main`, then some lane of the variable
has been written after it, in the same block or in one around it; and every lane has been written, unless the variable was declared
without a value. -/
theorem finished_reads_written (steps : List Script.Step) (config : Config) (source : Source) (program : Program)
    (hfinish : (Script.runEvery steps .start).2.session.finish = .ok source)
    (hprogram : source.generate config = .ok program) :
    ∃ root shader, source.arena.tree Session.root = .ok root ∧ shaderOf root = .ok shader ∧
      program.source = textOf config.indent (shader.rows config) ∧
      ∀ before row after, shader.rows config = before ++ row :: after → ∀ read ∈ row.clause.reads,
        Initialised (Standing.start.after before).lines read := by
  obtain ⟨Γ, root, hroot, hrecorded⟩ := Recording.exists_recorded_of_finish hfinish
  obtain ⟨root', shader, hroot', hshader, rfl⟩ := generate_eq_ok_iff.1 hprogram
  obtain rfl : root = root' := Except.ok.inj (hroot.symm.trans hroot')
  obtain ⟨main, hm⟩ := shaderOf_eq_ok_iff.1 hshader
  have harranged := arranged_main hm hrecorded
  refine ⟨root, shader, hroot, hshader, shader.text_eq config, ?_⟩
  intro before row after hrows read hread
  refine ⟨?_, readsWritten_rows hm harranged config before row after hrows read hread⟩
  have hallowed := scoped_rows hm harranged config before row after hrows
  obtain ⟨seen, hlookup, hsymbol⟩ := hallowed.resolved read.target (Clause.mem_used_of_mem_reads hread)
  rw [show Reading.start = Standing.start.reading from rfl, ← Standing.reading_after] at hlookup
  obtain ⟨declaration, hdeclaration, hdeclared⟩ := exists_declarationOf hlookup
  rw [hdeclaration, Option.bind_some, hdeclared, Option.bind_some, hsymbol]

/-- A script with nested blocks is finished, and all that its text reads was written. -/
theorem finished_reads_written_nested :
    (Script.runEvery nestedSteps .start).2.session.finish = .ok (Recording.sourceOf nestedSteps) ∧
      ∃ program root shader, (Recording.sourceOf nestedSteps).generate {} = .ok program ∧
        (Recording.sourceOf nestedSteps).arena.tree Session.root = .ok root ∧ shaderOf root = .ok shader ∧
        program.source = textOf 4 (shader.rows {}) ∧
        ∀ before row after, shader.rows {} = before ++ row :: after → ∀ read ∈ row.clause.reads,
          Initialised (Standing.start.after before).lines read := by
  have hfinish : (Script.runEvery nestedSteps .start).2.session.finish = .ok (Recording.sourceOf nestedSteps) :=
    Recording.finish_eq_ok_iff.2 ⟨by decide +kernel, rfl⟩
  have hok : ((Recording.sourceOf nestedSteps).generate {}).isOk = true := by decide +kernel
  obtain ⟨program, hprogram⟩ := exists_program_of_isOk hok
  obtain ⟨root, shader, hroot, hshader, htext, hreads⟩ := finished_reads_written nestedSteps {} _ program hfinish hprogram
  exact ⟨hfinish, program, root, shader, hprogram, hroot, hshader, htext, hreads⟩

/-- A vector of which one lane is written, and the other one read. -/
def partialSteps : List Script.Step :=
  [.block (.enter .outData) none [.call (.output .float "len") (some "len") false] false,
    .block (.enter .main) none
      [.call (.unbound .float2) (some "p") false,
        .call (.component "p" .x) (some "px") false,
        .call (.assign "px" (.literal (.float ⟨1077936128⟩))) none false,
        .call (.component "p" .y) (some "py") false,
        .call (.assign "len" (.register "py")) none false] false]

/-- What the row at a place reads of lanes that no row before it has written. -/
def unwrittenAt (rows : List Row) (place : Nat) : List Read :=
  let lines := (Standing.start.after (rows.take place)).lines
  (rows[place]?.toList.flatMap fun row => row.clause.reads).filter fun read =>
    read.lane?.any fun lane => !(lanesWritten read.target.spelling lines).contains lane

/-- A lane may be read that no line writes: where only another lane of the variable was. -/
theorem lane_read_unwritten :
    (Script.runEvery partialSteps .start).2.session.finish = .ok (Recording.sourceOf partialSteps) ∧
      ((Recording.sourceOf partialSteps).generate {}).toOption.map Program.source =
        some ("#version 330\n\nlayout(location = 0) out float len;\n\nvoid main()\n\x7b\n    vec2 v1;\n    v1.x = 3.0;\n" ++
          "    len = v1.y;\n\x7d\n") ∧
      ((Recording.sourceOf partialSteps).arena.tree Session.root).toOption.bind
        (fun root => (shaderOf root).toOption.map fun shader => unwrittenAt (shader.rows {}) 8) =
          some [⟨⟨⟨1⟩, "v1"⟩, some .y⟩] :=
  ⟨Recording.finish_eq_ok_iff.2 ⟨by decide +kernel, rfl⟩, by decide +kernel, by decide +kernel⟩

end Shaders

end ShaderTrace.Glsl
