import ShaderTrace.Proofs.Text.Tokens

/-!
# The grammar of expressions

Which operator tree a row of tokens stands for, by the rules of the language (`Derives`): binary operators bind to the left and
by their precedence, signs before an operand bind stronger than they do, and fields and calls strongest. No row of tokens
stands for two trees (`derives_unique`): a reader that goes from left to right and never turns back finds every tree that the
rules give.
-/

namespace ShaderTrace

/-- The operator that is written as a text. -/
def UnaryOp.ofSign? (text : String) : Option UnaryOp := all.find? (·.sign == text)

/-- A unary operator is found by its sign. -/
@[simp]
theorem UnaryOp.ofSign?_sign (op : UnaryOp) : ofSign? op.sign = some op := by cases op <;> rfl

/-- The operator that is written as a text. -/
def BinaryOp.ofSign? (text : String) : Option BinaryOp := all.find? (·.sign == text)

/-- A binary operator is found by its sign. -/
@[simp]
theorem BinaryOp.ofSign?_sign (op : BinaryOp) : ofSign? op.sign = some op := by cases op <;> rfl

/-- Operators of a greater precedence bind their operands first. -/
def BinaryOp.precedence : BinaryOp → Nat
  | or => 0
  -- the exclusive or of the language, which stands between these two, is no operator here
  | and => 2
  | bitOr => 3
  | bitXor => 4
  | bitAnd => 5
  | eq | ne => 6
  | lt | gt | le | ge => 7
  | shl | shr => 8
  | add | sub => 9
  | mul | div | rem => 10

namespace Glsl.Grammar

/-- What a row of tokens stands for: an operator tree. -/
inductive Phrase where
  | name (name : String)
  | constant (value : Constant)
  | field (object : Phrase) (lanes : String)
  | unary (op : UnaryOp) (operand : Phrase)
  | binary (op : BinaryOp) (left right : Phrase)
  | call (function : String) (arguments : List Phrase)

/-- The rows of tokens that the rules tell apart. -/
inductive Category where
  /-- What needs no parentheses anywhere. -/
  | simple
  /-- What may stand on either side of any operator. -/
  | operand
  /-- What has no operator of a lesser precedence outside of parentheses. -/
  | operation (least : Nat)
  | arguments

/-- The rules. All rows but those of arguments stand for one tree. -/
inductive Derives : Category → List Token → List Phrase → Prop
  | name (name : String) : Derives .simple [.word name] [.name name]
  | constant (value : Constant) : Derives .simple [.constant value] [.constant value]
  | group {tokens : List Token} {e : Phrase} (h : Derives (.operation 0) tokens [e]) :
    Derives .simple (.sign "(" :: tokens ++ [.sign ")"]) [e]
  | field {tokens : List Token} {e : Phrase} (h : Derives .simple tokens [e]) (lanes : String) :
    Derives .simple (tokens ++ [.sign ".", .word lanes]) [.field e lanes]
  | call (function : String) {tokens : List Token} {es : List Phrase} (h : Derives .arguments tokens es) :
    Derives .simple (.word function :: .sign "(" :: tokens ++ [.sign ")"]) [.call function es]
  | simple {tokens : List Token} {e : Phrase} (h : Derives .simple tokens [e]) : Derives .operand tokens [e]
  | unary (op : UnaryOp) {tokens : List Token} {e : Phrase} (h : Derives .operand tokens [e]) :
    Derives .operand (.sign op.sign :: tokens) [.unary op e]
  | operand {tokens : List Token} {e : Phrase} (h : Derives .operand tokens [e]) (least : Nat) :
    Derives (.operation least) tokens [e]
  | binary (op : BinaryOp) {least : Nat} {left right : List Token} {l r : Phrase} (hleast : least ≤ op.precedence)
    (hl : Derives (.operation op.precedence) left [l]) (hr : Derives (.operation (op.precedence + 1)) right [r]) :
    Derives (.operation least) (left ++ .sign op.sign :: right) [.binary op l r]
  | noArguments : Derives .arguments [] []
  | argument {tokens : List Token} {e : Phrase} (h : Derives (.operation 0) tokens [e]) : Derives .arguments tokens [e]
  | arguments {first rest : List Token} {e next : Phrase} {es : List Phrase} (h : Derives (.operation 0) first [e])
    (hrest : Derives .arguments rest (next :: es)) : Derives .arguments (first ++ .sign "," :: rest) (e :: next :: es)

/-- A text stands for an operator tree. -/
def Reads (text : String) (e : Phrase) : Prop := ∃ tokens, lex text = some tokens ∧ Derives (.operation 0) tokens [e]

/-! ## Reading from left to right -/

/-- The fields that follow an object, as many as there are. -/
def readFields : (object : Phrase) → List Token → Phrase × List Token
  | object, .sign text :: .word lanes :: rest =>
    if text = "." then readFields (.field object lanes) rest else (object, .sign text :: .word lanes :: rest)
  | object, rest => (object, rest)

/-- The operator that the tokens begin with, if its precedence is at least that. -/
def operatorAt? (least : Nat) : List Token → Option BinaryOp
  | .sign text :: _ => (BinaryOp.ofSign? text).filter fun op => decide (least ≤ op.precedence)
  | _ => none

mutual

def readOperand : (fuel : Nat) → List Token → Option (Phrase × List Token)
  | _ + 1, .constant value :: rest => some (readFields (.constant value) rest)
  | fuel + 1, .word name :: rest =>
    if rest.head? = some (.sign "(") then
      if rest.tail.head? = some (.sign ")") then some (readFields (.call name []) rest.tail.tail)
      else (readArguments fuel rest.tail).map fun (arguments, rest) => readFields (.call name arguments) rest
    else some (readFields (.name name) rest)
  | fuel + 1, .sign text :: rest =>
    match UnaryOp.ofSign? text with
    | some op => (readOperand fuel rest).map fun (e, rest) => (.unary op e, rest)
    | none =>
      if text = "(" then
        (readOperation fuel 0 rest).bind fun (e, rest) =>
          if rest.head? = some (.sign ")") then some (readFields e rest.tail) else none
      else none
  | _, _ => none

def readOperation : (fuel : Nat) → (least : Nat) → List Token → Option (Phrase × List Token)
  | fuel + 1, least, tokens => (readOperand fuel tokens).bind fun (left, rest) => readMore fuel least left rest
  | 0, _, _ => none

/-- The operators and operands that follow a left operand. -/
def readMore : (fuel : Nat) → (least : Nat) → (left : Phrase) → List Token → Option (Phrase × List Token)
  | fuel + 1, least, left, tokens =>
    match operatorAt? least tokens with
    | some op =>
      (readOperation fuel (op.precedence + 1) tokens.tail).bind fun (right, rest) =>
        readMore fuel least (.binary op left right) rest
    | none => some (left, tokens)
  | 0, _, _, _ => none

/-- Arguments, at least one, and the parenthesis after them. -/
def readArguments : (fuel : Nat) → List Token → Option (List Phrase × List Token)
  | fuel + 1, tokens =>
    (readOperation fuel 0 tokens).bind fun (e, rest) =>
      if rest.head? = some (.sign ")") then some ([e], rest.tail)
      else if rest.head? = some (.sign ",") then
        (readArguments fuel rest.tail).map fun (es, rest) => (e :: es, rest)
      else none
  | 0, _ => none

end

example : readOperation 9 0 [.word "a", .sign "-", .sign "-", .word "b", .sign "*", .word "c", .sign "-", .word "d"] =
    some (.binary .sub (.binary .sub (.name "a") (.binary .mul (.unary .neg (.name "b")) (.name "c"))) (.name "d"), []) := by
  rfl

/-- With enough fuel the reader gives this answer. -/
def Eventually {α : Type} (reader : Nat → Option α) (answer : α) : Prop := ∃ enough, ∀ fuel ≥ enough, reader fuel = some answer

section Eventually

variable {α β γ : Type} {reader : Nat → Option α} {answer answer' : α}

/-- A reader has one answer at most. -/
theorem Eventually.unique (h : Eventually reader answer) (h' : Eventually reader answer') : answer = answer' := by
  obtain ⟨enough, h⟩ := h
  obtain ⟨enough', h'⟩ := h'
  have hsome := h (max enough enough') (Nat.le_max_left _ _)
  rw [h' _ (Nat.le_max_right _ _)] at hsome
  exact (Option.some.inj hsome).symm

/-- A reader that asks two others with one unit of fuel less. -/
theorem Eventually.both {first : Nat → Option β} {second : Nat → Option γ} {b : β} {c : γ} (h : Eventually first b)
    (h' : Eventually second c) (hstep : ∀ fuel, first fuel = some b → second fuel = some c → reader (fuel + 1) = some answer) :
    Eventually reader answer := by
  obtain ⟨enough, h⟩ := h
  obtain ⟨enough', h'⟩ := h'
  refine ⟨max enough enough' + 1, fun fuel hfuel => ?_⟩
  obtain ⟨fuel, rfl⟩ : ∃ n, fuel = n + 1 := ⟨fuel - 1, by omega⟩
  exact hstep fuel (h fuel (by omega)) (h' fuel (by omega))

/-- A reader that goes on from another one after a step answers if that one does. -/
theorem Eventually.step {first : Nat → Option β} {b : β} (h : Eventually first b)
    (hstep : ∀ fuel, first fuel = some b → reader (fuel + 1) = some answer) : Eventually reader answer :=
  h.both h fun fuel hb _ => hstep fuel hb

/-- A reader that answers with any fuel at all answers. -/
theorem eventually_of_succ (h : ∀ fuel, reader (fuel + 1) = some answer) : Eventually reader answer := by
  refine ⟨1, fun fuel hfuel => ?_⟩
  obtain ⟨fuel, rfl⟩ : ∃ n, fuel = n + 1 := ⟨fuel - 1, by omega⟩
  exact h fuel

end Eventually

/-- The tokens go on with nothing that belongs to an operation of operators of at least this precedence. -/
structure Stops (least : Nat) (tokens : List Token) : Prop where
  point : tokens.head? ≠ some (.sign ".")
  parenthesis : tokens.head? ≠ some (.sign "(")
  operator : operatorAt? least tokens = none

/-- An operator is taken exactly if it binds tightly enough. -/
theorem operatorAt?_sign (op : BinaryOp) (least : Nat) (rest : List Token) :
    operatorAt? least (.sign op.sign :: rest) = if least ≤ op.precedence then some op else none := by
  by_cases h : least ≤ op.precedence <;> simp [operatorAt?, Option.filter, h]

/-- What stops operators of some precedence stops those of any higher one. -/
theorem Stops.mono {least greater : Nat} {tokens : List Token} (h : Stops least tokens) (hle : least ≤ greater) :
    Stops greater tokens := by
  refine ⟨h.point, h.parenthesis, ?_⟩
  have hnone := h.operator
  unfold operatorAt? at hnone ⊢
  split at hnone
  · rw [Option.filter_eq_none_iff] at hnone ⊢
    intro op hop hgreater
    exact hnone op hop (decide_eq_true (Nat.le_trans hle (of_decide_eq_true hgreater)))
  · rfl

/-- No operator stands before an operator of the same precedence. -/
theorem stops_sign (op : BinaryOp) (rest : List Token) : Stops (op.precedence + 1) (.sign op.sign :: rest) where
  point := by cases op <;> simp [BinaryOp.sign]
  parenthesis := by cases op <;> simp [BinaryOp.sign]
  operator := by rw [operatorAt?_sign, if_neg (by omega)]

theorem stops_nil (least : Nat) : Stops least [] where
  point := by simp
  parenthesis := by simp
  operator := rfl

/-- A closing parenthesis and a comma stop every operation. -/
theorem stops_mark {mark : String} (h : mark ∈ [")", ","]) (least : Nat) (rest : List Token) :
    Stops least (.sign mark :: rest) := by
  have hnone : ∀ mark ∈ [")", ","], mark ≠ "." ∧ mark ≠ "(" ∧ BinaryOp.ofSign? mark = none := by decide
  obtain ⟨hpoint, hparenthesis, hoperator⟩ := hnone mark h
  exact ⟨by simpa using hpoint, by simpa using hparenthesis, by rw [operatorAt?, hoperator]; rfl⟩

/-- Without a point no lane is read. -/
theorem readFields_of_ne {rest : List Token} (h : rest.head? ≠ some (.sign ".")) (e : Phrase) :
    readFields e rest = (e, rest) := by
  unfold readFields
  split
  · rename_i text lanes rest
    rw [if_neg]
    rintro rfl
    exact h rfl
  · rfl

/-- After a point a lane is read, and then the next one. -/
theorem readFields_field (e : Phrase) (lanes : String) (rest : List Token) :
    readFields e (.sign "." :: .word lanes :: rest) = readFields (.field e lanes) rest := by
  rw [readFields, if_pos rfl]

/-- No operand begins with the parenthesis after it. -/
theorem not_eventually_readArguments (rest : List Token) (answer : List Phrase × List Token) :
    ¬Eventually (readArguments · (.sign ")" :: rest)) answer := by
  rintro ⟨enough, h⟩
  have hsome := h (enough + 3) (by omega)
  have hnone : UnaryOp.ofSign? ")" = none := by decide
  simp [readArguments, readOperation, readOperand, hnone] at hsome

/-- A left operand stands alone if no operator follows. -/
theorem eventually_readMore {least : Nat} {tokens : List Token} (h : operatorAt? least tokens = none) (e : Phrase) :
    Eventually (readMore · least e tokens) (e, tokens) :=
  eventually_of_succ fun fuel => by rw [readMore, h]

/-- The reader finds the trees of a row of tokens. What it does after a left operand is left open, because the row may be
that of the left operand of a greater one. -/
def Parsed : Category → List Token → List Phrase → Prop
  | .simple, tokens, [e] => ∀ rest : List Token, rest.head? ≠ some (.sign "(") →
    Eventually (readOperand · (tokens ++ rest)) (readFields e rest)
  | .operand, tokens, [e] => ∀ rest : List Token, rest.head? ≠ some (.sign ".") → rest.head? ≠ some (.sign "(") →
    Eventually (readOperand · (tokens ++ rest)) (e, rest)
  | .operation least, tokens, [e] => ∀ (lower : Nat) (rest : List Token) (answer : Phrase × List Token), lower ≤ least →
    Stops (least + 1) rest → Eventually (readMore · lower e rest) answer →
      Eventually (readOperation · lower (tokens ++ rest)) answer
  | .arguments, tokens, [] => tokens = []
  | .arguments, tokens, es => ∀ rest : List Token, Eventually (readArguments · (tokens ++ .sign ")" :: rest)) (es, rest)
  | _, _, _ => True

section Parsed

variable {least : Nat} {tokens : List Token} {e : Phrase}

/-- An operation that is read to its end. -/
theorem Parsed.whole (h : Parsed (.operation least) tokens [e]) {rest : List Token} (hrest : Stops least rest) :
    Eventually (readOperation · least (tokens ++ rest)) (e, rest) :=
  h least rest (e, rest) (Nat.le_refl least) (hrest.mono (Nat.le_succ least)) (eventually_readMore hrest.operator e)

/-- What is in parentheses is parsed as the operation inside. -/
theorem parsed_group (h : Parsed (.operation 0) tokens [e]) : Parsed .simple (.sign "(" :: tokens ++ [.sign ")"]) [e] := by
  intro rest _
  have hwhole := h.whole (@stops_mark ")" (by decide) 0 rest)
  have hnone : UnaryOp.ofSign? "(" = none := by decide
  refine hwhole.step fun fuel hfuel => ?_
  simp [readOperand, hnone, hfuel]

/-- A lane is parsed as one of what stands before it. -/
theorem parsed_field (h : Parsed .simple tokens [e]) (lanes : String) :
    Parsed .simple (tokens ++ [.sign ".", .word lanes]) [.field e lanes] := by
  intro rest _
  have hobject := h (.sign "." :: .word lanes :: rest) (by simp)
  rw [readFields_field] at hobject
  simpa using hobject

/-- A word before parentheses is parsed as a call. -/
theorem parsed_call {es : List Phrase} (function : String) (h : Parsed .arguments tokens es) :
    Parsed .simple (.word function :: .sign "(" :: tokens ++ [.sign ")"]) [.call function es] := by
  intro rest _
  cases es with
  | nil =>
    obtain rfl : tokens = [] := h
    exact eventually_of_succ fun fuel => by simp [readOperand]
  | cons first es =>
    have harguments : Eventually (readArguments · (tokens ++ .sign ")" :: rest)) (first :: es, rest) := h rest
    have hhead : (tokens ++ .sign ")" :: rest).head? ≠ some (.sign ")") := by
      intro hhead
      rw [← List.cons_head?_tail hhead] at harguments
      exact not_eventually_readArguments _ _ harguments
    refine harguments.step fun fuel hfuel => ?_
    simp only [List.cons_append, List.append_assoc, List.nil_append, readOperand, List.head?_cons, List.tail_cons, if_true,
      if_neg hhead, hfuel, Option.map_some]

/-- What is simple is parsed as an operand. -/
theorem parsed_simple (h : Parsed .simple tokens [e]) : Parsed .operand tokens [e] := by
  intro rest hpoint hparenthesis
  have hread := h rest hparenthesis
  rwa [readFields_of_ne hpoint] at hread

/-- A sign before an operand is parsed as its operation. -/
theorem parsed_unary (op : UnaryOp) (h : Parsed .operand tokens [e]) :
    Parsed .operand (.sign op.sign :: tokens) [.unary op e] := by
  intro rest hpoint hparenthesis
  refine (h rest hpoint hparenthesis).step fun fuel hfuel => ?_
  simp [readOperand, hfuel]

/-- An operand is parsed as an operation of any precedence. -/
theorem parsed_operand (h : Parsed .operand tokens [e]) (least : Nat) : Parsed (.operation least) tokens [e] := by
  intro lower rest answer _ hstops hmore
  refine (h rest hstops.point hstops.parenthesis).both hmore fun fuel hfuel hmore => ?_
  simp [readOperation, hfuel, hmore]

/-- After the left operand the operator is found, its right operand is read as far as operators of a greater precedence
reach, and the whole is the left operand of what follows. -/
theorem parsed_binary (op : BinaryOp) {left right : List Token} {l r : Phrase} (hleast : least ≤ op.precedence)
    (hl : Parsed (.operation op.precedence) left [l]) (hr : Parsed (.operation (op.precedence + 1)) right [r]) :
    Parsed (.operation least) (left ++ .sign op.sign :: right) [.binary op l r] := by
  intro lower rest answer hlower hstops hmore
  rw [List.append_assoc, List.cons_append]
  refine hl lower _ answer (Nat.le_trans hlower hleast) (stops_sign op _) ?_
  have hright := hr.whole (hstops.mono (Nat.succ_le_succ hleast))
  refine hright.both hmore fun fuel hfuel hmore => ?_
  simp [readMore, operatorAt?_sign, Nat.le_trans hlower hleast, hfuel, hmore]

/-- An operation is parsed as an argument. -/
theorem parsed_argument (h : Parsed (.operation 0) tokens [e]) : Parsed .arguments tokens [e] := by
  intro rest
  refine (h.whole (@stops_mark ")" (by decide) 0 rest)).step fun fuel hfuel => ?_
  simp [readArguments, hfuel]

/-- Operations between commas are parsed as arguments. -/
theorem parsed_arguments {rest : List Token} {next : Phrase} {es : List Phrase} (h : Parsed (.operation 0) tokens [e])
    (hrest : Parsed .arguments rest (next :: es)) :
    Parsed .arguments (tokens ++ .sign "," :: rest) (e :: next :: es) := by
  intro after
  have hfirst := h.whole (@stops_mark "," (by decide) 0 (rest ++ .sign ")" :: after))
  refine hfirst.both (hrest after) fun fuel hfuel hmore => ?_
  simp [readArguments, hfuel, hmore]

end Parsed

/-- What the grammar derives is parsed. -/
theorem parsed_of_derives {category : Category} {tokens : List Token} {es : List Phrase} (h : Derives category tokens es) :
    Parsed category tokens es := by
  induction h with
  | name name =>
    intro rest hrest
    exact eventually_of_succ fun fuel => by simp [readOperand, hrest]
  | constant value => exact fun rest _ => eventually_of_succ fun fuel => by simp [readOperand]
  | group _ ih => exact parsed_group ih
  | field _ lanes ih => exact parsed_field ih lanes
  | call function _ ih => exact parsed_call function ih
  | simple _ ih => exact parsed_simple ih
  | unary op _ ih => exact parsed_unary op ih
  | operand _ least ih => exact parsed_operand ih least
  | binary op hleast _ _ ihl ihr => exact parsed_binary op hleast ihl ihr
  | noArguments => rfl
  | argument _ ih => exact parsed_argument ih
  | arguments _ _ ih ihrest => exact parsed_arguments ih ihrest

/-- A row of tokens stands for one operator tree at most. -/
theorem derives_unique {tokens : List Token} {e e' : Phrase} (h : Derives (.operation 0) tokens [e])
    (h' : Derives (.operation 0) tokens [e']) : e = e' := by
  have hread := (parsed_of_derives h).whole (stops_nil 0)
  have hread' := (parsed_of_derives h').whole (stops_nil 0)
  exact congrArg Prod.fst (hread.unique hread')

/-- A text is read as one phrase at most. -/
theorem reads_unique {text : String} {e e' : Phrase} (h : Reads text e) (h' : Reads text e') : e = e' := by
  obtain ⟨tokens, htokens, hderives⟩ := h
  obtain ⟨tokens', htokens', hderives'⟩ := h'
  rw [htokens] at htokens'
  cases htokens'
  exact derives_unique hderives hderives'

end Glsl.Grammar

end ShaderTrace
