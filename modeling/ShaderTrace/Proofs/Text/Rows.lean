import ShaderTrace.Glsl.Shader

/-!
# The text of a shader, line by line

A shader as a row of clauses, one for each line of its text: what a line declares, which variables it uses, and which one it
writes to. The text of a shader is the text of its clauses (`Shader.text_eq`), so what is shown of the clauses holds for the text.

A reader goes through the clauses from the first to the last and knows at each of them what is declared (`Reading`), by the rule
of the language: a declaration is seen from the next line to the brace that closes the block it stands in, and the counter of a
loop is seen in the body of the loop.
-/

namespace ShaderTrace.Glsl

/-! ## Clauses -/

namespace Expr

mutual

/-- The variables that an expression uses. -/
def vars : Expr → List Variable
  | var target => [target]
  | name _ | literal _ => []
  | field object _ => object.vars
  | unary _ operand => operand.vars
  | binary _ left right => left.vars ++ right.vars
  | call _ arguments => varsAll arguments

def varsAll : List Expr → List Variable
  | [] => []
  | e :: es => e.vars ++ varsAll es

end

end Expr

/-- What a line of a shader is. -/
inductive Clause where
  | version (number : Nat)
  | blank
  /-- An input, or the extent of the computation, which stands for no symbol. -/
  | uniform (type : String) (symbol? : Option SymbolId) (ident : String)
  | output (location : Nat) (type : String) (symbol : SymbolId) (ident : String)
  | main
  | openBrace
  | closeBrace
  | guarded (keyword : Keyword) (condition : Expr)
  | otherwise
  | count (counter : Variable) (start stop : Expr)
  | define (type : String) (target : Variable) (value : Expr)
  | declare (type : String) (target : Variable)
  | assign (target : Variable) (value : Expr)
  | assignLane (target : Variable) (lane : Lane) (value : Expr)

/-- A declaration as a reader of the text knows it. -/
structure Seen where
  /-- The symbol that is declared; the generator has two names of its own. -/
  symbol? : Option SymbolId
  spelling : String
  isInput : Bool
deriving DecidableEq

namespace Clause

def text : Clause → String
  | version number => "#version " ++ toString number
  | blank => ""
  | uniform type _ ident => "uniform " ++ type ++ " " ++ ident ++ ";"
  | output location type _ ident => "layout(location = " ++ toString location ++ ") out " ++ type ++ " " ++ ident ++ ";"
  | main => "void main()"
  | openBrace => "\x7b"
  | closeBrace => "\x7d"
  | guarded keyword condition => keyword.text ++ " (" ++ stripParens condition.text ++ ")"
  | otherwise => "else"
  | count counter start stop =>
    "for (int " ++ counter.spelling ++ " = " ++ start.text ++ "; " ++ counter.spelling ++ " < " ++ stop.text ++ "; "
      ++ counter.spelling ++ "++)"
  | define type target value => type ++ " " ++ target.spelling ++ " = " ++ value.text ++ ";"
  | declare type target => type ++ " " ++ target.spelling ++ ";"
  | assign target value => target.spelling ++ " = " ++ value.text ++ ";"
  | assignLane target lane value => target.spelling ++ "." ++ lane.accessor ++ " = " ++ value.text ++ ";"

/-- What the line declares. -/
def declared? : Clause → Option Seen
  | uniform _ symbol? ident => some ⟨symbol?, ident, true⟩
  | output _ _ symbol ident => some ⟨some symbol, ident, false⟩
  | main => some ⟨none, "main", false⟩
  | count v _ _ | define _ v _ | declare _ v => some ⟨some v.symbol, v.spelling, false⟩
  | version _ | blank | openBrace | closeBrace | guarded _ _ | otherwise | assign _ _ | assignLane _ _ _ => none

/-- The variables that have to be declared before the line. -/
def used : Clause → List Variable
  | guarded _ condition => condition.vars
  | count _ start stop => start.vars ++ stop.vars
  | define _ _ value => value.vars
  | assign target value | assignLane target _ value => target :: value.vars
  | version _ | blank | uniform _ _ _ | output _ _ _ _ | main | openBrace | closeBrace | otherwise | declare _ _ => []

/-- The variable that gets a value. -/
def written? : Clause → Option Variable
  | count v _ _ | define _ v _ | assign v _ | assignLane v _ _ => some v
  | version _ | blank | uniform _ _ _ | output _ _ _ _ | main | openBrace | closeBrace | guarded _ _ | otherwise
  | declare _ _ => none

end Clause

/-- A clause at its depth of nesting. -/
structure Row where
  depth : Nat
  clause : Clause

def Row.line (row : Row) : Line := ⟨row.depth, row.clause.text⟩

/-- Rows between braces, which stand at the given depth. -/
def bracedRows (depth : Nat) (body : List Row) : List Row := ⟨depth, .openBrace⟩ :: (body ++ [⟨depth, .closeBrace⟩])

namespace Stmt

mutual

/-- The rows of a statement that stands at the given depth. -/
def rows (depth : Nat) : Stmt → List Row
  | define type target value => [⟨depth, .define type target value⟩]
  | declare type target => [⟨depth, .declare type target⟩]
  | assign target value => [⟨depth, .assign target value⟩]
  | assignLane target lane value => [⟨depth, .assignLane target lane value⟩]
  | block body => bracedRows depth (rowsAll (depth + 1) body)
  | guarded keyword condition body => ⟨depth, .guarded keyword condition⟩ :: bracedRows depth (rowsAll (depth + 1) body)
  | otherwise body => ⟨depth, .otherwise⟩ :: bracedRows depth (rowsAll (depth + 1) body)
  | count counter start stop body => ⟨depth, .count counter start stop⟩ :: bracedRows depth (rowsAll (depth + 1) body)

def rowsAll (depth : Nat) : List Stmt → List Row
  | [] => []
  | stmt :: stmts => stmt.rows depth ++ rowsAll depth stmts

end

end Stmt

/-- The rows of statements are those of their parts. -/
theorem Stmt.rowsAll_append (depth : Nat) (stmts stmts' : List Stmt) :
    Stmt.rowsAll depth (stmts ++ stmts') = Stmt.rowsAll depth stmts ++ Stmt.rowsAll depth stmts' := by
  induction stmts with
  | nil => rfl
  | cons stmt stmts ih => rw [List.cons_append, Stmt.rowsAll, Stmt.rowsAll, ih, List.append_assoc]

/-- The lines of rows in braces are their lines in braces. -/
theorem map_line_bracedRows (depth : Nat) (body : List Row) :
    (bracedRows depth body).map Row.line = braced depth (body.map Row.line) := by
  rw [bracedRows, braced, List.map_cons, List.map_append]
  rfl

mutual

/-- The lines of the rows of a statement are its lines. -/
theorem Stmt.map_line_rows (depth : Nat) : ∀ stmt : Stmt, (stmt.rows depth).map Row.line = stmt.lines depth
  | .define _ _ _ | .declare _ _ | .assign _ _ | .assignLane _ _ _ => rfl
  | .block body => by rw [rows, lines, map_line_bracedRows, Stmt.map_line_rowsAll]
  | .guarded keyword condition body => by
    rw [rows, lines, List.map_cons, map_line_bracedRows, Stmt.map_line_rowsAll]
    rfl
  | .otherwise body => by
    rw [rows, lines, List.map_cons, map_line_bracedRows, Stmt.map_line_rowsAll]
    rfl
  | .count counter start stop body => by
    rw [rows, lines, List.map_cons, map_line_bracedRows, Stmt.map_line_rowsAll]
    rfl

/-- The lines of the rows of statements are their lines. -/
theorem Stmt.map_line_rowsAll (depth : Nat) :
    ∀ stmts : List Stmt, (Stmt.rowsAll depth stmts).map Row.line = Stmt.linesAll depth stmts
  | [] => rfl
  | stmt :: stmts => by
    rw [Stmt.rowsAll, Stmt.linesAll, List.map_append, Stmt.map_line_rows depth stmt, Stmt.map_line_rowsAll depth stmts]

end

/-- Rows after a blank one, or nothing if there are none. -/
def spaced (rows : List Row) : List Row := if rows.isEmpty then [] else ⟨0, .blank⟩ :: rows

namespace Shader

def uniformRows (shader : Shader) : List Row :=
  (if shader.usesDispatchSize then [⟨0, .uniform "ivec2" none dispatchSize⟩] else [])
    ++ shader.inputs.map fun d => ⟨0, .uniform d.spelling (some d.symbol) d.ident⟩

def targetRows (shader : Shader) : List Row :=
  shader.outputs.zipIdx.map fun (d, location) => ⟨0, .output location d.spelling d.symbol d.ident⟩

/-- The rows before the body of `main`. -/
def headerRows (config : Config) (shader : Shader) : List Row :=
  ⟨0, .version config.version⟩ ::
    (spaced shader.uniformRows ++ spaced shader.targetRows ++ [⟨0, .blank⟩, ⟨0, .main⟩])

def rows (config : Config) (shader : Shader) : List Row :=
  shader.headerRows config ++ bracedRows 0 (Stmt.rowsAll 1 shader.body)

end Shader

/-! ## The text of the clauses -/

/-- The text of rows, each level indented by so many spaces. -/
def textOf (indent : Nat) (rows : List Row) : String := String.join (rows.map fun row => row.line.render indent)

theorem textOf_cons (indent : Nat) (row : Row) (rows : List Row) :
    textOf indent (row :: rows) = row.line.render indent ++ textOf indent rows := String.join_cons

/-- The text of rows is the texts of their parts. -/
theorem textOf_append (indent : Nat) (rows rows' : List Row) :
    textOf indent (rows ++ rows') = textOf indent rows ++ textOf indent rows' := by
  rw [textOf, List.map_append, String.join_append]
  rfl

theorem render_outermost (indent : Nat) (clause : Clause) : (Row.line ⟨0, clause⟩).render indent = clause.text ++ "\n" := by
  simp [Row.line, Line.render]

/-- Rows with a blank one after them are a group of lines. -/
theorem textOf_spaced (indent : Nat) {rows : List Row} {lines : List String}
    (h : rows.map (fun row => row.line.render indent) = lines.map (· ++ "\n")) : textOf indent (spaced rows) = group lines := by
  have hempty : rows.isEmpty = lines.isEmpty := by
    simpa [List.isEmpty_iff_length_eq_zero] using congrArg (fun texts => texts.isEmpty) h
  unfold spaced group
  rw [hempty]
  split
  · rfl
  · rw [textOf_cons, render_outermost, textOf, h]
    rfl

/-- The rows of the uniforms are their group. -/
theorem textOf_uniformRows (indent : Nat) (shader : Shader) :
    textOf indent (spaced shader.uniformRows) = group shader.uniformLines := by
  refine textOf_spaced indent ?_
  have hinputs : ∀ ds : List Declaration,
      (ds.map fun d => (⟨0, .uniform d.spelling (some d.symbol) d.ident⟩ : Row)).map (fun row => row.line.render indent) =
        (ds.map fun d => "uniform " ++ d.spelling ++ " " ++ d.ident ++ ";").map (· ++ "\n") := by
    intro ds
    rw [List.map_map, List.map_map]
    exact List.map_congr_left fun d _ => render_outermost indent _
  rw [Shader.uniformRows, Shader.uniformLines, List.map_append, List.map_append, hinputs]
  congr 1
  split
  · rw [List.map_singleton, List.map_singleton, render_outermost]
    rfl
  · rfl

/-- The rows of the targets are their group. -/
theorem textOf_targetRows (indent : Nat) (shader : Shader) :
    textOf indent (spaced shader.targetRows) = group shader.targetLines := by
  refine textOf_spaced indent ?_
  rw [Shader.targetRows, Shader.targetLines, List.map_map, List.map_map]
  exact List.map_congr_left fun d _ => render_outermost indent _

/-- A text that ends with the line of a brace stays as it is. -/
theorem endLine_of_brace (text : String) : endLine (text ++ "\x7d\n") = text ++ "\x7d\n" := by
  have htext : (text ++ "\x7d\n").toList.reverse = '\n' :: '\x7d' :: text.toList.reverse := by
    rw [String.toList_append]
    simp
  rw [endLine, htext, List.dropWhile_cons_of_pos (by decide), List.dropWhile_cons_of_neg (by decide), List.reverse_cons,
    List.reverse_reverse, String.ofList_append, String.ofList_toList, String.append_assoc]
  rfl

/-- The text of a shader before the blanks at its end are taken away. -/
def Shader.untrimmed (config : Config) (shader : Shader) : String :=
  "#version " ++ toString config.version ++ "\n" ++ group shader.uniformLines ++ group shader.targetLines
    ++ "\nvoid main()\n" ++ String.join ((braced 0 (Stmt.linesAll 1 shader.body)).map (Line.render config.indent))

/-- The text of a shader before it is trimmed is that of its rows. -/
theorem Shader.untrimmed_eq (config : Config) (shader : Shader) :
    shader.untrimmed config = textOf config.indent (shader.rows config) := by
  have hheader : textOf config.indent (shader.headerRows config) = "#version " ++ toString config.version ++ "\n"
      ++ group shader.uniformLines ++ group shader.targetLines ++ "\nvoid main()\n" := by
    rw [headerRows, textOf_cons, textOf_append, textOf_append, textOf_uniformRows, textOf_targetRows, textOf_cons, textOf_cons,
      render_outermost, render_outermost, render_outermost]
    simp only [String.append_assoc]
    rfl
  have hbody : textOf config.indent (bracedRows 0 (Stmt.rowsAll 1 shader.body)) =
      String.join ((braced 0 (Stmt.linesAll 1 shader.body)).map (Line.render config.indent)) := by
    rw [textOf, ← Stmt.map_line_rowsAll, ← map_line_bracedRows, List.map_map]
    rfl
  rw [untrimmed, ← hheader, ← hbody, ← textOf_append, rows]

/-- Nothing is taken away at the end, where the last brace stands. -/
theorem Shader.text_eq_untrimmed (config : Config) (shader : Shader) : shader.text config = shader.untrimmed config := by
  have hend : ∃ text, textOf config.indent (shader.rows config) = text ++ "\x7d\n" := by
    rw [rows, bracedRows, ← List.cons_append, ← List.append_assoc, textOf_append, textOf_cons, render_outermost]
    exact ⟨_, rfl⟩
  obtain ⟨text, htext⟩ := hend
  rw [Shader.text, ← untrimmed, untrimmed_eq, htext, endLine_of_brace]

/-- The text of a shader is that of its rows. -/
theorem Shader.text_eq (config : Config) (shader : Shader) : shader.text config = textOf config.indent (shader.rows config) := by
  rw [text_eq_untrimmed, untrimmed_eq]

/-! ## Reading a text -/

/-- What is declared at a place of a text. -/
structure Reading where
  /-- What the innermost block declares, the last first. -/
  frame : List Seen
  /-- What the blocks around it declare, from the inside out. -/
  outer : List (List Seen)
  /-- What the header of a loop declares for the block that comes next. -/
  pending : List Seen

namespace Reading

/-- Before the first line. -/
def start : Reading := ⟨[], [], []⟩

def visible (reading : Reading) : List Seen := reading.frame ++ reading.outer.flatten

/-- What a name means: its innermost declaration. -/
def lookup (reading : Reading) (spelling : String) : Option Seen :=
  reading.visible.find? fun seen => seen.spelling == spelling

/-- Reads one line. -/
def step (reading : Reading) : Clause → Reading
  | .openBrace => ⟨reading.pending, reading.frame :: reading.outer, []⟩
  | .closeBrace => ⟨reading.outer.headD [], reading.outer.tail, []⟩
  | .count counter _ _ => { reading with pending := [⟨some counter.symbol, counter.spelling, false⟩] }
  | clause => { reading with frame := clause.declared?.toList ++ reading.frame }

def after (reading : Reading) (rows : List Row) : Reading := rows.foldl (fun reading row => reading.step row.clause) reading

end Reading

/-- A line that keeps to the rules of scopes: each variable that it uses is declared, what it declares has a name of its own, and
it writes to no input. -/
structure Allowed (reading : Reading) (clause : Clause) : Prop where
  resolved : ∀ v ∈ clause.used, ∃ seen, reading.lookup v.spelling = some seen ∧ seen.symbol? = some v.symbol
  apart : ∀ seen ∈ clause.declared?, reading.lookup seen.spelling = none
  writable : ∀ v ∈ clause.written?, ∀ seen ∈ reading.lookup v.spelling, seen.isInput = false

/-- Every row keeps to the rules, at the place where it stands. -/
def Scoped (reading : Reading) (rows : List Row) : Prop :=
  ∀ before row after, rows = before ++ row :: after → Allowed (reading.after before) row.clause

section Rules

variable {reading : Reading} {row : Row} {rows rows' : List Row}

/-- A reading goes on after the first rows with the others. -/
theorem after_append : reading.after (rows ++ rows') = (reading.after rows).after rows' := List.foldl_append

theorem scoped_nil : Scoped reading [] := by
  intro before row after h
  cases before <;> cases h

/-- Rows are scoped exactly if the first one is allowed and the rest are scoped after it. -/
theorem scoped_cons : Scoped reading (row :: rows) ↔ Allowed reading row.clause ∧ Scoped (reading.step row.clause) rows := by
  constructor
  · intro h
    refine ⟨h [] row rows rfl, fun before other after hrows => ?_⟩
    exact h (row :: before) other after (by rw [hrows]; rfl)
  · rintro ⟨hrow, hrest⟩ before other after h
    cases before with
    | nil =>
      cases h
      exact hrow
    | cons first before =>
      cases h
      exact hrest before other after rfl

/-- Rows are scoped exactly if the first ones are and the others are after those. -/
theorem scoped_append : Scoped reading (rows ++ rows') ↔ Scoped reading rows ∧ Scoped (reading.after rows) rows' := by
  induction rows generalizing reading with
  | nil => exact ⟨fun h => ⟨scoped_nil, h⟩, And.right⟩
  | cons row rows ih =>
    rw [List.cons_append, scoped_cons, scoped_cons, ih, and_assoc]
    rfl

/-- A line without variables is allowed anywhere. -/
theorem allowed_of_plain {clause : Clause} (hu : clause.used = []) (hd : clause.declared? = none) (hw : clause.written? = none) :
    Allowed reading clause where
  resolved v hm := by
    rw [hu] at hm
    cases hm
  apart seen hm := by
    rw [hd] at hm
    cases hm
  writable v hm := by
    rw [hw] at hm
    cases hm

end Rules

/-! ## Blocks -/

/-- After the rows the same blocks are open as before them. -/
def Balanced (rows : List Row) : Prop :=
  ∀ reading : Reading, reading.pending = [] → ∃ frame, reading.after rows = ⟨frame, reading.outer, []⟩

/-- What is declared between braces is not seen after them. -/
theorem after_bracedRows {body : List Row} (h : Balanced body) (depth : Nat) (reading : Reading) :
    reading.after (bracedRows depth body) = ⟨reading.frame, reading.outer, []⟩ := by
  obtain ⟨frame, hframe⟩ := h (reading.step .openBrace) rfl
  rw [bracedRows, ← List.singleton_append, after_append, after_append]
  show ((reading.step .openBrace).after body).step .closeBrace = _
  rw [hframe]
  rfl

/-- Balanced rows are so in braces. -/
theorem balanced_bracedRows {body : List Row} (h : Balanced body) (depth : Nat) : Balanced (bracedRows depth body) :=
  fun reading _ => ⟨reading.frame, after_bracedRows h depth reading⟩

/-- A header and the block that it belongs to. -/
theorem balanced_header {body : List Row} (h : Balanced body) (depth : Nat) {row : Row}
    (hrow : ∀ reading : Reading,
      (reading.step row.clause).frame = reading.frame ∧ (reading.step row.clause).outer = reading.outer) :
    Balanced (row :: bracedRows depth body) := by
  intro reading _
  refine ⟨reading.frame, ?_⟩
  show (reading.step row.clause).after (bracedRows depth body) = _
  rw [after_bracedRows h, (hrow reading).1, (hrow reading).2]

mutual

/-- The rows of a statement are balanced. -/
theorem Stmt.balanced_rows (depth : Nat) : ∀ stmt : Stmt, Balanced (stmt.rows depth)
  | .define _ _ _ | .declare _ _ | .assign _ _ | .assignLane _ _ _ =>
    fun reading hp => ⟨_, congrArg (Reading.mk _ reading.outer) hp⟩
  | .block body => balanced_bracedRows (Stmt.balanced_rowsAll (depth + 1) body) depth
  | .guarded _ _ body | .otherwise body | .count _ _ _ body =>
    balanced_header (Stmt.balanced_rowsAll (depth + 1) body) depth fun _ => ⟨rfl, rfl⟩

/-- The rows of statements are balanced. -/
theorem Stmt.balanced_rowsAll (depth : Nat) : ∀ stmts : List Stmt, Balanced (Stmt.rowsAll depth stmts)
  | [] => fun reading hp => ⟨reading.frame, congrArg (Reading.mk reading.frame reading.outer) hp⟩
  | stmt :: stmts => by
    intro reading hp
    obtain ⟨frame, hfirst⟩ := Stmt.balanced_rows depth stmt reading hp
    rw [Stmt.rowsAll, after_append, hfirst]
    exact Stmt.balanced_rowsAll depth stmts _ rfl

end

end ShaderTrace.Glsl
