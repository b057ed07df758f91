import ShaderTrace.Proofs.Computations
import ShaderTrace.Proofs.Reference.Script

/-!
# What is found in the registers

A call looks its registers up before it acts. What it finds there is what every register holds, and if it finds nothing of the
right sort, the reason never lies in an arena (`Found`).
-/

namespace ShaderTrace

open Script (Arg StepError)

/-- What is looked up is as `answer` says, or the computation fails for a reason that does not lie in an arena. -/
def Found {α : Type} (answer : α → Prop) : Except StepError α → Prop :=
  Yields answer fun error => ∀ e, error ≠ .trace (.arena e)

namespace Found

variable {α β : Type} {answer : α → Prop} {answer' : β → Prop} {x : Except StepError α}

/-- What is found first may be used to find the next thing. -/
theorem bind {f : α → Except StepError β} (h : Found answer x) (hf : ∀ a, answer a → Found answer' (f a)) :
    Found answer' (x >>= f) :=
  Yields.bind h fun a _ ha => hf a ha

/-- Less may be said of what is found. -/
theorem mono {answer₂ : α → Prop} (h : Found answer x) (ha : ∀ a, answer a → answer₂ a) : Found answer₂ x :=
  Yields.mono h ha fun _ => id

/-- What is found of every element of a row is found of the row. -/
theorem mapM {f : α → Except StepError β} (h : ∀ a, Found answer' (f a)) (as : List α) :
    Found (fun bs => ∀ b ∈ bs, answer' b) (as.mapM f) :=
  Yields.mapM fun a _ => h a

/-- No failure lies in an arena. -/
theorem ne_arena (h : Found answer x) (e : ArenaError) : x ≠ .error (.trace (.arena e)) := by
  rintro rfl
  exact h e rfl

end Found

/-- Every register holds a handle as `holds` says. -/
def Holding (holds : Reference.Handle → Prop) (registers : Reference.Registers) : Prop :=
  ∀ register ∈ registers, holds register.2

section Registers

variable {holds : Reference.Handle → Prop} {registers : Reference.Registers}

/-- A register is set. -/
theorem Holding.set (h : Holding holds registers) (name : String) {handle : Reference.Handle} (hh : holds handle) :
    Holding holds (registers.set name handle) := by
  intro register hm
  rcases List.mem_cons.1 hm with rfl | hm
  · exact hh
  · exact h register (List.mem_filter.1 hm).1

/-- The register for the result is set, if there is one. -/
theorem Holding.setResult (h : Holding holds registers) (name : Option String) {handle : Reference.Handle}
    (hh : holds handle) : Holding holds (registers.setResult name handle) := by
  cases name with
  | none => exact h
  | some name => exact h.set name hh

/-- The handle in a register. -/
theorem Holding.handle (h : Holding holds registers) (name : String) : Found holds (registers.handle name) := by
  unfold Reference.Registers.handle
  cases hl : registers.lookup name with
  | none => rintro _ ⟨⟩
  | some handle =>
    obtain ⟨front, back, hsplit, -⟩ := List.lookup_eq_some_iff.1 hl
    exact h (name, handle) (by rw [hsplit]; simp)

/-- The value in a register. -/
theorem Holding.value (h : Holding holds registers) (name : String) :
    Found (fun value => holds (.value value)) (registers.value name) := by
  refine (h.handle name).bind fun handle hh => ?_
  cases handle with
  | value value => exact hh
  | input => rintro _ ⟨⟩

/-- The input in a register. -/
theorem Holding.input (h : Holding holds registers) (name : String) :
    Found (fun input => holds (.input input)) (registers.input name) := by
  refine (h.handle name).bind fun handle hh => ?_
  cases handle with
  | value => rintro _ ⟨⟩
  | input input => exact hh

/-- What holds of the handles holds of the operands, if it holds of constants too. -/
theorem Holding.operand (h : Holding holds registers) {answer : Reference.Operand → Prop}
    (hh : ∀ handle, holds handle → answer (.handle handle)) (hl : ∀ value, answer (.literal value)) (arg : Arg) :
    Found answer (registers.operand arg) := by
  cases arg with
  | register name => exact (h.handle name).bind fun handle hhandle => hh handle hhandle
  | literal value => exact hl value

/-- An operand that has to be an integer. -/
theorem Found.integer {answer : Reference.Operand → Prop} {arg : Arg} (h : Found answer (registers.operand arg)) :
    Found answer (registers.integer arg) := by
  refine h.bind fun operand ho => ?_
  split
  · exact ho
  · rintro _ ⟨⟩

/-- An operand that has to be a value. -/
theorem Found.valueOperand {answer : Reference.Operand → Prop} {arg : Arg} (h : Found answer (registers.operand arg)) :
    Found (fun value => answer (.ofValue value)) (registers.valueOperand arg) := by
  refine h.bind fun operand ho => ?_
  cases operand with
  | literal => rintro _ ⟨⟩
  | handle handle =>
    cases handle with
    | value value => exact ho
    | input => rintro _ ⟨⟩

end Registers

/-! ## Whatever the registers hold -/

section AnyRegisters

variable (registers : Reference.Registers)

/-- Nothing is asked of registers that may hold any handle. -/
theorem holding_any : Holding anyAnswer registers := fun _ _ => trivial

/-- To look up a register is not to touch the arena. -/
theorem handle_found (name : String) : Found anyAnswer (registers.handle name) := (holding_any registers).handle name

theorem value_found (name : String) : Found anyAnswer (registers.value name) := (holding_any registers).value name

theorem input_found (name : String) : Found anyAnswer (registers.input name) := (holding_any registers).input name

/-- To look up an operand is not to touch the arena. -/
theorem operand_found (arg : Arg) : Found anyAnswer (registers.operand arg) :=
  (holding_any registers).operand (fun _ _ => trivial) (fun _ => trivial) arg

theorem integer_found (arg : Arg) : Found anyAnswer (registers.integer arg) := (operand_found registers arg).integer

theorem valueOperand_found (arg : Arg) : Found anyAnswer (registers.valueOperand arg) :=
  (operand_found registers arg).valueOperand

/-- To look up operands is not to touch the arena. -/
theorem operands_found (args : List Arg) : Found anyAnswer (args.mapM registers.operand) :=
  (Found.mapM (operand_found registers) args).mono fun _ _ => trivial

end AnyRegisters

end ShaderTrace
