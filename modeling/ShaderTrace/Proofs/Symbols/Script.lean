import ShaderTrace.Proofs.Recording.Script
import ShaderTrace.Proofs.Symbols.Recorder

/-!
# Symbols over whole runs

A script is a row of acts: calls, and openings and ends of blocks. After any row of acts the symbols that nodes and handles
mention have been given out, each of them with one type for the whole run; a handle that is bound to a symbol stays bound to
it, and handles that mention the same symbol go back to the same handle (`Disciplined`).

Which handle goes back to which is not part of a machine. `Track` runs acts and notes it: a copy has the origin of the handle
that was copied, and a lane belongs to the family of its vector.
-/

namespace ShaderTrace

/-- The handle stands for a lane. -/
def Handle.isLane : Handle → Bool
  | .value v => v.isMember
  | .input _ => false

namespace Script.Registers

/-- To drop a name does not change what is looked up under another. -/
theorem lookup_filter_ne (registers : Registers) {name other : String} (h : other ≠ name) :
    (registers.filter (·.1 != name)).lookup other = registers.lookup other := by
  induction registers with
  | nil => rfl
  | cons register registers ih =>
    obtain ⟨first, handle⟩ := register
    by_cases hf : first = name
    · subst hf
      rw [List.filter_cons_of_neg (by simp), ih, List.lookup_cons, beq_false_of_ne h]
    · rw [List.filter_cons_of_pos (by simpa using hf), List.lookup_cons, List.lookup_cons, ih]

/-- To set a register does not change what is looked up under another name. -/
theorem lookup_set (registers : Registers) (name : String) (handle : Handle) (other : String) :
    (registers.set name handle).lookup other = if other = name then some handle else registers.lookup other := by
  rw [set, List.lookup_cons]
  by_cases h : other = name
  · subst h
    simp
  · rw [beq_false_of_ne h, if_neg h]
    exact lookup_filter_ne registers h

/-- To set the register for a result does not change what is looked up under another name. -/
theorem lookup_setResult (registers : Registers) (result : Option String) (handle : Handle) (other : String) :
    (registers.setResult result handle).lookup other = if result = some other then some handle else registers.lookup other := by
  cases result with
  | none => rfl
  | some name =>
    rw [setResult, lookup_set]
    simp only [Option.some.injEq, eq_comm]

end Script.Registers

namespace Symbols

open Script (Arg Call Opening Step StepError Reply Registers Machine Action)

/-! ## Acts -/

/-- One thing that a script does to a machine. -/
inductive Act where
  | call (call : Call) (result : Option String)
  | opening (opening : Opening) (result : Option String)
  | leave (block : OpenBlock)

/-- What an act that succeeds does to the registers. -/
inductive Effect where
  | nothing
  /-- A handle that was made goes to the register of the result. -/
  | made (result : Option String)
  | copied (source : String) (result : Option String)
  | changed (target : String)
  /-- A lane of a vector goes to the register of the result, and the vector may get a symbol. -/
  | lane (owner : String) (result : Option String)

namespace Act

def action (act : Act) (registers : Registers) : Except StepError Action :=
  match act with
  | call c result => c.action result registers
  | opening o result => o.action result registers
  | leave block => .ok (Script.silent (Recorder.leave block))

def perform (act : Act) (machine : Machine) : Except StepError Reply × Machine :=
  machine.act (act.action machine.registers)

def effect : Act → Effect
  | call (.copy source) result => .copied source result
  | call (.assign target _) _ | call (.update _ target _) _ | call (.materialize target) _ => .changed target
  | call (.lane owner _) result | call (.component owner _) result => .lane owner result
  | call (.input ..) result | call (.output ..) result | call (.unbound _) result | call (.var _) result
  | call (.express ..) result | call (.sample1d ..) result | call (.sample2d ..) result | call (.sampleAt ..) result
  | call (.beginFor ..) result | opening (.forRange ..) result => .made result
  | _ => .nothing

end Act

/-- The register that another handle goes to. -/
def Effect.result? : Effect → Option String
  | made result | copied _ result | lane _ result => result
  | nothing | changed _ => none

/-- What becomes of a handle that is assigned to, or whose lane is taken. -/
def Becomes (Γ Γ' : TypeLedger) (old new : Handle) : Prop :=
  new = old ∨ old.typing? = none ∧ new.isLane = false ∧ New Γ Γ' new.typing?

/-- The registers before and after an act, between two ledgers. -/
def RegisterMoves (Γ Γ' : TypeLedger) (registers registers' : Registers) : Effect → Prop
  | .nothing => registers' = registers
  | .made result => ∃ handle : Handle, New Γ Γ' handle.typing? ∧
      ∀ name, registers'.lookup name = if result = some name then some handle else registers.lookup name
  | .copied source result => ∃ handle, registers.lookup source = some handle ∧
      ∀ name, registers'.lookup name = if result = some name then some handle else registers.lookup name
  | .changed target => ∃ old new, registers.lookup target = some old ∧ Becomes Γ Γ' old new ∧
      ∀ name, registers'.lookup name = if name = target then some new else registers.lookup name
  | .lane owner result => ∃ old new lane, registers.lookup owner = some old ∧ Becomes Γ Γ' old new ∧ lane.isLane = true ∧
      lane.typing? = new.typing? ∧ ∀ name, registers'.lookup name =
        if result = some name then some lane else if name = owner then some new else registers.lookup name

/-! ## What an act does -/

/-- The action keeps to the ledger, and does to the registers what it should. -/
def Moving (Γ : TypeLedger) (session : Session) (registers : Registers) (effect : Effect) (action : Action) : Prop :=
  Keeping Marked Γ (fun Γ' answer => RegisterMoves Γ Γ' registers answer.2 effect) (action registers session)

section Actions

variable {Γ : TypeLedger} {session : Session} {registers : Registers}

/-- What is found is what is in the register. -/
theorem handle_lookup (registers : Registers) (name : String) :
    Found (fun handle => registers.lookup name = some handle) (registers.handle name) := by
  unfold Registers.handle
  cases h : registers.lookup name with
  | none => rintro _ ⟨⟩
  | some handle => rfl

theorem value_lookup (registers : Registers) (name : String) :
    Found (fun value => registers.lookup name = some (.value value)) (registers.value name) := by
  refine (handle_lookup registers name).bind fun handle hh => ?_
  cases handle with
  | value value => exact hh
  | input => rintro _ ⟨⟩

theorem input_lookup (registers : Registers) (name : String) :
    Found (fun input => registers.lookup name = some (.input input)) (registers.input name) := by
  refine (handle_lookup registers name).bind fun handle hh => ?_
  cases handle with
  | value => rintro _ ⟨⟩
  | input input => exact hh

/-- The handles in the registers keep to the ledger. -/
def ListedAll (Γ : TypeLedger) (registers : Registers) : Prop :=
  ∀ name handle, registers.lookup name = some handle → Listed Γ handle.typing?

section Arguments

variable (hr : ListedAll Γ registers)

include hr

/-- The operand that an argument stands for mentions what is listed. -/
theorem operand_listed (arg : Arg) : Found (fun operand => Listed Γ operand.typing?) (registers.operand arg) := by
  cases arg with
  | register name => exact (handle_lookup registers name).bind fun handle hh => hr name handle hh
  | literal value => exact listed_none Γ

theorem integer_listed (arg : Arg) : Found (fun operand => Listed Γ operand.typing?) (registers.integer arg) := by
  refine (operand_listed hr arg).bind fun operand ho => ?_
  split
  · exact ho
  · rintro _ ⟨⟩

theorem valueOperand_listed (arg : Arg) : Found (fun value => Listed Γ value.typing?) (registers.valueOperand arg) := by
  refine (operand_listed hr arg).bind fun operand ho => ?_
  cases operand with
  | literal => rintro _ ⟨⟩
  | handle handle =>
    cases handle with
    | value value => exact ho
    | input => rintro _ ⟨⟩

/-- The operands that arguments stand for mention what is listed. -/
theorem operands_listed (args : List Arg) :
    Found (fun operands => ∀ operand ∈ operands, Listed Γ operand.typing?) (args.mapM registers.operand) :=
  Found.mapM (operand_listed hr) args

end Arguments

/-- An action that yields a value with a new symbol makes its register. -/
theorem yields_moving (result : Option String) {x : Recorder Value}
    (h : Keeping Marked Γ (fun Γ' value => New Γ Γ' value.typing?) (x session)) :
    Moving Γ session registers (.made result) (Script.yields result x) :=
  h.bind fun value _ _ _ h' hnew =>
    .pure h' ⟨.value value, hnew, Script.Registers.lookup_setResult registers result (.value value)⟩

/-- What becomes of a value becomes of its handle. -/
theorem ValueBecomes.becomes {Γ Γ' : TypeLedger} {old new : Value} (h : ValueBecomes Γ Γ' old new) :
    Becomes Γ Γ' (.value old) (.value new) :=
  h.imp (congrArg Handle.value) id

/-- An action that changes a register changes it as its value becomes. -/
theorem changes_moving {target : String} {old : Value} (ht : registers.lookup target = some (.value old))
    {x : Recorder Value} (h : Keeping Marked Γ (fun Γ' value => ValueBecomes Γ Γ' old value) (x session)) :
    Moving Γ session registers (.changed target) (Script.changes target x) :=
  h.bind fun value _ _ _ h' hf =>
    .pure h' ⟨.value old, .value value, ht, hf.becomes, Script.Registers.lookup_set registers target (.value value)⟩

/-- An action that yields a lane makes one register, and changes that of the owner. -/
theorem yieldsLane_moving {owner : String} {old : Value} (ho : registers.lookup owner = some (.value old))
    (result : Option String) {x : Recorder (Value × Value)}
    (h : Keeping Marked Γ (fun Γ' answer => answer.1.isMember = true ∧ answer.1.typing? = answer.2.typing? ∧
      ValueBecomes Γ Γ' old answer.2) (x session)) :
    Moving Γ session registers (.lane owner result) (Script.yieldsLane owner result x) := by
  refine h.bind fun answer Γ' _ _ h' ha => ?_
  obtain ⟨lane, vector⟩ := answer
  obtain ⟨hlane, htyping, hf⟩ := ha
  refine .pure h' ⟨.value old, .value vector, .value lane, ho, hf.becomes, hlane, htyping, fun name => ?_⟩
  rw [Script.Registers.lookup_setResult, Script.Registers.lookup_set]

/-- A lane of an input mentions the symbol of the input. -/
theorem laneOfInput_moving (h : Marked Γ session) {owner : String} {vector : Input}
    (ho : registers.lookup owner = some (.input vector)) (result : Option String) {which : Lane} {lane : Value}
    (hl : vector.lane? which = some lane) :
    Moving Γ session registers (.lane owner result) (Script.yields result (pure lane)) := by
  obtain ⟨hmember, htyping⟩ : lane.isMember = true ∧ lane.typing? = (Handle.input vector).typing? := by
    unfold Input.lane? at hl
    split at hl
    · obtain ⟨type, -, rfl⟩ := Option.map_eq_some_iff.1 hl
      exact ⟨rfl, rfl⟩
    · cases hl
  refine .pure h ⟨.input vector, .input vector, .value lane, ho, .inl rfl, hmember, htyping, fun name => ?_⟩
  rw [Script.Registers.lookup_setResult]
  by_cases hn : name = owner
  · rw [if_pos hn, hn, ho]
  · rw [if_neg hn]

/-- An action without an answer leaves the registers alone. -/
theorem silent_moving {x : Recorder Unit} (h : Keeping Marked Γ anything (x session)) :
    Moving Γ session registers .nothing (Script.silent x) :=
  h.bind fun _ _ _ _ h' _ => .pure h' rfl

/-- Every call does to the registers what it should. -/
theorem call_moving (h : Marked Γ session) (hr : ListedAll Γ registers) (call : Call) (result : Option String) :
    Found (Moving Γ session registers (Act.call call result).effect) (call.action result registers) := by
  cases call with
  | enter kind => exact (enter_keeping h kind).bind fun _ _ _ _ h' _ => .pure h' rfl
  | exit => exact (exit_keeping h).bind fun _ _ _ _ h' _ => .pure h' rfl
  | nextSymbol => exact (nextSymbol_keeping h .int).bind fun _ _ _ _ h' _ => .pure h' rfl
  | input type name =>
    exact (input_keeping h type name).bind fun input _ _ _ h' hnew =>
      .pure h' ⟨.input input, hnew, Script.Registers.lookup_setResult registers result (.input input)⟩
  | output type name => exact yields_moving result (output_keeping h type name)
  | unbound type =>
    show Found _ (if _ then _ else _)
    split
    · have hunbound : Keeping Marked Γ (fun Γ' value => New Γ Γ' value.typing?)
          ((pure (.unbound type) : Recorder Value) session) := .pure h (new_none Γ Γ)
      exact yields_moving result hunbound
    · rintro _ ⟨⟩
  | copy source =>
    exact (handle_lookup registers source).bind fun handle hh =>
      .pure h ⟨handle, hh, Script.Registers.lookup_setResult registers result handle⟩
  | inspect source => exact (handle_lookup registers source).bind fun handle _ => .pure h rfl
  | assign target value =>
    refine (value_lookup registers target).bind fun old ho => (operand_listed hr value).bind fun value hv => ?_
    exact changes_moving ho (assign_keeping h value (hr target _ ho) hv)
  | update how target value =>
    refine (value_lookup registers target).bind fun old ho => (operand_listed hr value).bind fun value hv => ?_
    exact changes_moving ho (update_keeping h how (hr target _ ho) hv)
  | var value => exact (operand_listed hr value).bind fun value hv => yields_moving result (var_keeping h hv)
  | materialize target =>
    refine (value_lookup registers target).bind fun old ho => ?_
    refine (materialize_keeping h (hr target _ ho)).bind fun answer _ _ _ h' ha => ?_
    exact .pure h' ⟨.value old, .value answer.2, ho, ha.2.becomes,
      Script.Registers.lookup_set registers target (.value answer.2)⟩
  | lane owner which =>
    exact (value_lookup registers owner).bind fun old ho =>
      yieldsLane_moving ho result (lane_keeping h (hr owner _ ho) which)
  | component owner which =>
    refine (handle_lookup registers owner).bind fun handle hh => ?_
    cases handle with
    | value old => exact yieldsLane_moving hh result (component_keeping h (hr owner _ hh) which)
    | input vector =>
      simp only
      cases hlane : vector.lane? which with
      | none => rintro _ ⟨⟩
      | some lane => exact laneOfInput_moving h hh result hlane
  | express operator operands =>
    exact (operands_listed hr operands).bind fun operands ho => yields_moving result (express_keeping h operator ho)
  | sample1d buffer index =>
    refine (input_lookup registers buffer).bind fun input hb => (operand_listed hr index).bind fun index hi => ?_
    refine yields_moving result (@express_keeping Γ session h .sample1d [.ofInput input, index] ?_)
    intro operand hm
    rcases List.mem_pair.1 hm with rfl | rfl
    · exact hr buffer _ hb
    · exact hi
  | sample2d buffer x y =>
    refine (input_lookup registers buffer).bind fun input hb => (operand_listed hr x).bind fun x hx =>
      (operand_listed hr y).bind fun y hy => ?_
    refine yields_moving result (@express_keeping Γ session h .sample2d [.ofInput input, x, y] ?_)
    intro operand hm
    rcases List.mem_cons.1 hm with rfl | hm
    · exact hr buffer _ hb
    · rcases List.mem_pair.1 hm with rfl | rfl
      · exact hx
      · exact hy
  | sampleAt buffer coordinate =>
    refine (input_lookup registers buffer).bind fun input hb => (valueOperand_listed hr coordinate).bind fun _ hc => ?_
    exact yields_moving result (sampleAt_keeping h (hr buffer _ hb) hc)
  | beginIf condition => exact (operand_listed hr condition).bind fun _ hc => silent_moving (beginIf_keeping h hc)
  | beginElseIf condition => exact (operand_listed hr condition).bind fun _ hc => silent_moving (beginElseIf_keeping h hc)
  | beginElse => exact silent_moving (beginElse_keeping h)
  | beginWhile condition => exact (operand_listed hr condition).bind fun _ hc => silent_moving (beginWhile_keeping h hc)
  | beginFor name start stop =>
    exact (integer_listed hr start).bind fun _ hs => (integer_listed hr stop).bind fun _ ht =>
      yields_moving result (beginFor_keeping h name hs ht)

/-- So does whatever opens a block. -/
theorem opening_moving (h : Marked Γ session) (hr : ListedAll Γ registers) (opening : Opening) (result : Option String) :
    Found (Moving Γ session registers (Act.opening opening result).effect) (opening.action result registers) := by
  cases opening with
  | enter kind =>
    have hdiscard : Keeping Marked Γ anything (discard (Recorder.enter kind) session) :=
      (enter_keeping h kind).bind fun _ _ _ _ h' _ => .pure h' trivial
    exact silent_moving hdiscard
  | ifThen condition => exact (operand_listed hr condition).bind fun _ hc => silent_moving (beginIf_keeping h hc)
  | elseIf condition => exact (operand_listed hr condition).bind fun _ hc => silent_moving (reopenElseIf_keeping h hc)
  | otherwise => exact silent_moving (reopenElse_keeping h)
  | whileDo condition => exact (operand_listed hr condition).bind fun _ hc => silent_moving (beginWhile_keeping h hc)
  | forRange name start stop =>
    exact (integer_listed hr start).bind fun _ hs => (integer_listed hr stop).bind fun _ ht =>
      yields_moving result (beginFor_keeping h name hs ht)

/-- Every act does to the registers what its effect says, and keeps to the ledger. -/
theorem act_moving (h : Marked Γ session) (hr : ListedAll Γ registers) (act : Act) :
    Found (Moving Γ session registers act.effect) (act.action registers) := by
  cases act with
  | call call result => exact call_moving h hr call result
  | opening opening result => exact opening_moving h hr opening result
  | leave block => exact silent_moving (leave_keeping h block)

end Actions

/-- What an act leaves behind: the registers as they were if it failed, and as its effect says if it succeeded. -/
theorem perform_moves {Γ : TypeLedger} {machine : Machine} (h : Marked Γ machine.session) (hr : ListedAll Γ machine.registers)
    (act : Act) : ∃ Γ', Γ <+: Γ' ∧ Marked Γ' (act.perform machine).2.session ∧
      ((∃ error, (act.perform machine).1 = .error error ∧ (act.perform machine).2.registers = machine.registers) ∨
        ∃ reply, (act.perform machine).1 = .ok reply ∧
          RegisterMoves Γ Γ' machine.registers (act.perform machine).2.registers act.effect) := by
  have hact := act_moving h hr act
  unfold Act.perform
  cases haction : act.action machine.registers with
  | error e => exact ⟨Γ, List.prefix_rfl, h, .inl ⟨e, rfl, rfl⟩⟩
  | ok action =>
    rw [haction] at hact
    have hmoving : Keeping Marked Γ _ (action machine.registers machine.session) := hact
    simp only [Machine.act, EStateM.run]
    cases hrun : action machine.registers machine.session with
    | ok answer session =>
      rw [hrun] at hmoving
      obtain ⟨Γ', hp, hmarked, hmoves⟩ := hmoving
      exact ⟨Γ', hp, hmarked, .inr ⟨answer.1, rfl, hmoves⟩⟩
    | error e session =>
      rw [hrun] at hmoving
      obtain ⟨Γ', hp, hmarked⟩ := hmoving
      exact ⟨Γ', hp, hmarked, .inl ⟨.trace e, rfl, rfl⟩⟩

/-- A handle that is bound to a symbol stays bound to it, unless another handle takes its register. -/
theorem RegisterMoves.bound {Γ Γ' : TypeLedger} {registers registers' : Registers} {effect : Effect}
    (h : RegisterMoves Γ Γ' registers registers' effect) {name : String} {type : ValueType} {symbol : SymbolId}
    (hl : registers.lookup name = some (.value ⟨type, .bound symbol⟩)) (hn : effect.result? ≠ some name) :
    registers'.lookup name = some (.value ⟨type, .bound symbol⟩) := by
  have kept : ∀ {old new : Handle}, Becomes Γ Γ' old new → some old = some (Handle.value ⟨type, .bound symbol⟩) →
      some new = some (Handle.value ⟨type, .bound symbol⟩) := by
    rintro old new (rfl | ⟨hnone, -⟩) heq
    · exact heq
    · cases heq; cases hnone
  cases effect with
  | nothing => rw [show registers' = registers from h, hl]
  | made result =>
    obtain ⟨handle, -, hall⟩ := h
    rw [Effect.result?] at hn
    rw [hall, if_neg hn, hl]
  | copied source result =>
    obtain ⟨handle, -, hall⟩ := h
    rw [Effect.result?] at hn
    rw [hall, if_neg hn, hl]
  | changed target =>
    obtain ⟨old, new, hold, hbecomes, hall⟩ := h
    rw [hall]
    by_cases ht : name = target
    · rw [if_pos ht]
      exact kept hbecomes (by rw [← hold, ← ht, hl])
    · rw [if_neg ht, hl]
  | lane owner result =>
    obtain ⟨old, new, lane, hold, hbecomes, -, -, hall⟩ := h
    rw [Effect.result?] at hn
    rw [hall, if_neg hn]
    by_cases ho : name = owner
    · rw [if_pos ho]
      exact kept hbecomes (by rw [← hold, ← ho, hl])
    · rw [if_neg ho, hl]

/-! ## Origins -/

/-- Where a handle comes from. -/
structure Origin where
  /-- The act that made the handle, or the one that it is a copy of. -/
  made : Nat
  /-- The act that made the handle whose symbol it mentions: for a lane, that of its vector. -/
  family : Nat

/-- The origins of the handles after an act that succeeded, of which `number` were done before. -/
def Effect.origins (effect : Effect) (number : Nat) (origins : String → Origin) (name : String) : Origin :=
  match effect with
  | made result => if result = some name then ⟨number, number⟩ else origins name
  | copied source result => if result = some name then origins source else origins name
  | lane owner result => if result = some name then ⟨number, (origins owner).family⟩ else origins name
  | nothing | changed _ => origins name

/-- A machine, with the origins of the handles in its registers. -/
structure Track where
  machine : Machine
  origins : String → Origin
  /-- How many acts have been done. -/
  number : Nat

namespace Track

def start : Track := ⟨.start, fun _ => ⟨0, 0⟩, 0⟩

def step (track : Track) (act : Act) : Track where
  machine := (act.perform track.machine).2
  origins :=
    match (act.perform track.machine).1 with
    | .ok _ => act.effect.origins track.number track.origins
    | .error _ => track.origins
  number := track.number + 1

/-- What is left after a row of acts. -/
def after (acts : List Act) : Track := acts.foldl step start

/-- The track after one more act is a step further. -/
theorem after_append (acts : List Act) (act : Act) : after (acts ++ [act]) = (after acts).step act := by
  rw [after, List.foldl_append]
  rfl

end Track

/-! ## What every act keeps -/

/-- The handle keeps to the ledger, the symbol that it mentions was given to its family, and it has a family of its own unless it
is a lane. -/
structure PlacedHandle (Γ : TypeLedger) (families : List Nat) (origin : Origin) (handle : Handle) : Prop where
  listed : Listed Γ handle.typing?
  family : ∀ entry ∈ handle.typing?, families[entry.1.index]? = some origin.family
  made : handle.isLane = false → origin.made = origin.family

/-- What holds of a machine and its origins at every point, with the types of the symbols and the families they were given to. -/
structure Kept (Γ : TypeLedger) (families : List Nat) (track : Track) : Prop where
  marked : Marked Γ track.machine.session
  length : families.length = Γ.length
  registers : ∀ name handle, track.machine.registers.lookup name = some handle →
    PlacedHandle Γ families (track.origins name) handle

/-- At the start no symbol is given out and no register is set. -/
theorem kept_start : Kept [] [] .start where
  marked := by
    refine ⟨rfl, Arena.AllHeads.alloc ?_ (listed_none [])⟩
    intro id node hn
    simp [Arena.get?, Arena.empty] at hn
  length := rfl
  registers := by rintro name handle ⟨⟩

section Placing

variable {Γ Γ' : TypeLedger} {families families' : List Nat} {origin : Origin} {handle old new part : Handle}

/-- A handle stays where it is placed as the ledgers grow. -/
theorem PlacedHandle.extend (hp : Γ <+: Γ') (hf : families <+: families') (h : PlacedHandle Γ families origin handle) :
    PlacedHandle Γ' families' origin handle := by
  refine ⟨h.listed.extend hp, ?_, h.made⟩
  intro entry hm
  obtain ⟨rest, rfl⟩ := hf
  have hlt := (List.getElem?_eq_some_iff.1 (h.family entry hm)).1
  rw [List.getElem?_append_left hlt]
  exact h.family entry hm

/-- The symbols that were given out between two ledgers belong to one family. -/
def familiesAfter (Γ Γ' : TypeLedger) (families : List Nat) (family : Nat) : List Nat :=
  families ++ List.replicate (Γ'.length - Γ.length) family

/-- A handle with a new symbol is placed in the family that the symbol is given to. -/
theorem placed_new (hl : families.length = Γ.length) (hn : New Γ Γ' handle.typing?) (hm : origin.made = origin.family) :
    PlacedHandle Γ' (familiesAfter Γ Γ' families origin.family) origin handle := by
  refine ⟨hn.listed, ?_, fun _ => hm⟩
  intro entry he
  have hlt := hn.listed.lt_length entry he
  have hle := hn.length_le entry he
  rw [familiesAfter, List.getElem?_append_right (by omega), List.getElem?_replicate, if_pos (by omega)]

/-- A handle that mentions no symbol is no lane. -/
theorem isLane_of_typing? (h : handle.typing? = none) : handle.isLane = false := by
  cases handle with
  | input => cases h
  | value value =>
    obtain ⟨type, form⟩ := value
    cases form with
    | member => cases h
    | _ => rfl

/-- A handle stays in its family whatever becomes of it. -/
theorem PlacedHandle.becomes (hp : Γ <+: Γ') (hl : families.length = Γ.length) (h : PlacedHandle Γ families origin old)
    (hb : Becomes Γ Γ' old new) :
    PlacedHandle Γ' (familiesAfter Γ Γ' families origin.family) origin new := by
  rcases hb with rfl | ⟨hnone, -, hnew⟩
  · exact h.extend hp (List.prefix_append _ _)
  · exact placed_new hl hnew (h.made (isLane_of_typing? hnone))

/-- A lane mentions the symbol of its vector. -/
theorem PlacedHandle.lane (h : PlacedHandle Γ families origin new) (number : Nat) (hl : part.isLane = true)
    (ht : part.typing? = new.typing?) : PlacedHandle Γ families ⟨number, origin.family⟩ part := by
  refine ⟨ht ▸ h.listed, ht ▸ h.family, ?_⟩
  intro hfalse
  rw [hl] at hfalse
  cases hfalse

end Placing

/-- The family that an act gives new symbols to. -/
def Effect.family (effect : Effect) (number : Nat) (origins : String → Origin) : Nat :=
  match effect with
  | changed target => (origins target).family
  | lane owner _ => (origins owner).family
  | nothing | made _ | copied _ _ => number

/-- An act that succeeded leaves every handle where it belongs. -/
theorem RegisterMoves.placed {Γ Γ' : TypeLedger} {families : List Nat} {registers registers' : Registers} {effect : Effect}
    {origins : String → Origin} (number : Nat) (hp : Γ <+: Γ') (hl : families.length = Γ.length)
    (hr : ∀ name handle, registers.lookup name = some handle → PlacedHandle Γ families (origins name) handle)
    (h : RegisterMoves Γ Γ' registers registers' effect) : ∀ name handle, registers'.lookup name = some handle →
      PlacedHandle Γ' (familiesAfter Γ Γ' families (effect.family number origins)) (effect.origins number origins name) handle := by
  have hold : ∀ {family : Nat} {name : String} {handle : Handle}, registers.lookup name = some handle →
      PlacedHandle Γ' (familiesAfter Γ Γ' families family) (origins name) handle :=
    fun hlookup => (hr _ _ hlookup).extend hp (List.prefix_append _ _)
  intro name handle hlookup
  cases effect with
  | nothing => rw [show registers' = registers from h] at hlookup; exact hold hlookup
  | made result =>
    obtain ⟨given, hnew, hall⟩ := h
    rw [hall] at hlookup
    rw [Effect.origins, Effect.family]
    split_ifs at hlookup ⊢
    · cases hlookup; exact @placed_new _ _ _ ⟨number, number⟩ _ hl hnew rfl
    · exact hold hlookup
  | copied source result =>
    obtain ⟨given, hgiven, hall⟩ := h
    rw [hall] at hlookup
    rw [Effect.origins, Effect.family]
    split_ifs at hlookup ⊢
    · cases hlookup; exact hold hgiven
    · exact hold hlookup
  | changed target =>
    obtain ⟨old, new, htarget, hbecomes, hall⟩ := h
    rw [hall] at hlookup
    rw [Effect.origins, Effect.family]
    split_ifs at hlookup with ht
    · cases hlookup
      rw [ht]
      exact (hr target old htarget).becomes hp hl hbecomes
    · exact hold hlookup
  | lane owner result =>
    obtain ⟨old, new, lane, howner, hbecomes, hlane, htyping, hall⟩ := h
    have hvector := (hr owner old howner).becomes hp hl hbecomes
    rw [hall] at hlookup
    rw [Effect.origins, Effect.family]
    split_ifs at hlookup ⊢ with hresult ho
    · cases hlookup; exact hvector.lane number hlane htyping
    · cases hlookup; rw [ho]; exact hvector
    · exact hold hlookup

/-- One act keeps the invariant, with ledgers that go on from those before. -/
theorem Kept.step {Γ : TypeLedger} {families : List Nat} {track : Track} (h : Kept Γ families track) (act : Act) :
    ∃ Γ' families', Γ <+: Γ' ∧ Kept Γ' families' (track.step act) := by
  have hlisted : ListedAll Γ track.machine.registers := fun name handle hl => (h.registers name handle hl).listed
  obtain ⟨Γ', hp, hmarked, hcases⟩ := perform_moves h.marked hlisted act
  have hlength : ∀ family, (familiesAfter Γ Γ' families family).length = Γ'.length := by
    intro family
    have := hp.length_le
    rw [familiesAfter, List.length_append, List.length_replicate, h.length]
    omega
  rcases hcases with ⟨error, herror, hsame⟩ | ⟨reply, hreply, hmoves⟩
  · refine ⟨Γ', familiesAfter Γ Γ' families 0, hp, hmarked, hlength 0, ?_⟩
    intro name handle hl
    have horigins : (track.step act).origins = track.origins := by simp only [Track.step, herror]
    rw [horigins]
    exact (h.registers name handle (hsame ▸ hl)).extend hp (List.prefix_append _ _)
  · refine ⟨Γ', _, hp, hmarked, hlength (act.effect.family track.number track.origins), ?_⟩
    have horigins : (track.step act).origins = act.effect.origins track.number track.origins := by
      simp only [Track.step, hreply]
    rw [horigins]
    exact hmoves.placed track.number hp h.length h.registers

/-- A row of acts keeps the invariant. The last ledger has the types of all symbols at every point of the run. -/
theorem exists_kept (acts : List Act) : ∃ Γ, (∃ families, Kept Γ families (Track.after acts)) ∧
    ∀ before, before <+: acts → ∃ Γ' families, Γ' <+: Γ ∧ Kept Γ' families (Track.after before) := by
  induction acts using List.reverseRecOn with
  | nil =>
    refine ⟨[], ⟨[], kept_start⟩, ?_⟩
    intro before hb
    rw [List.prefix_nil.1 hb]
    exact ⟨[], [], List.prefix_rfl, kept_start⟩
  | append_singleton acts act ih =>
    obtain ⟨Γ, ⟨families, hkept⟩, hbefore⟩ := ih
    obtain ⟨Γ', families', hp, hkept'⟩ := hkept.step act
    rw [← Track.after_append] at hkept'
    refine ⟨Γ', ⟨families', hkept'⟩, ?_⟩
    intro before hb
    rcases List.prefix_concat_iff.1 hb with rfl | hb
    · exact ⟨Γ', families', List.prefix_rfl, hkept'⟩
    · obtain ⟨Γ₀, families₀, hp₀, hkept₀⟩ := hbefore before hb
      exact ⟨Γ₀, families₀, hp₀.trans hp, hkept₀⟩

/-! ## Scripts are rows of acts -/

/-- The machine after a row of acts. -/
def performAll (acts : List Act) (machine : Machine) : Machine :=
  acts.foldl (fun machine act => (act.perform machine).2) machine

/-- To perform acts in a row is to perform its parts. -/
theorem performAll_append (acts acts' : List Act) (machine : Machine) :
    performAll (acts ++ acts') machine = performAll acts' (performAll acts machine) := List.foldl_append

/-- The machine of a track is the one on which its acts are performed. -/
theorem machine_foldl_step (acts : List Act) : ∀ track : Track,
    (acts.foldl Track.step track).machine = performAll acts track.machine := by
  induction acts with
  | nil => intro track; rfl
  | cons act acts ih => intro track; exact ih (track.step act)

/-- To repeat is to perform acts if each time is. -/
theorem iterate_acts {body : Machine → Option TraceError × Machine}
    (hb : ∀ machine, ∃ acts, (body machine).2 = performAll acts machine) (times : Nat) :
    ∀ machine, ∃ acts, (Script.iterate body times machine).2 = performAll acts machine := by
  induction times with
  | zero => intro machine; exact ⟨[], rfl⟩
  | succ times ih =>
    intro machine
    obtain ⟨acts, hacts⟩ := hb machine
    simp only [Script.iterate]
    generalize body machine = run at *
    obtain ⟨ended, machine'⟩ := run
    cases ended with
    | some e => exact ⟨acts, hacts⟩
    | none =>
      obtain ⟨acts', hacts'⟩ := ih machine'
      refine ⟨acts ++ acts', ?_⟩
      rw [performAll_append, ← hacts]
      exact hacts'

mutual

/-- Whatever a step does, it does by acts. -/
theorem step_acts : ∀ (step : Step) (machine : Machine), ∃ acts, (step.run machine).2.2 = performAll acts machine
  | .call call result caught, machine => ⟨[.call call result], by rw [Step.run]; rfl⟩
  | .block opening result body caught, machine => by
    have hopen : (machine.act (opening.action result machine.registers)).2 =
        performAll [.opening opening result] machine := rfl
    rw [Step.run]
    generalize machine.act (opening.action result machine.registers) = answer at *
    obtain ⟨outcome, machine₁⟩ := answer
    cases outcome with
    | error e => exact ⟨_, hopen⟩
    | ok reply =>
      obtain ⟨acts, hacts⟩ := steps_acts body machine₁
      simp only
      generalize Script.runAll body machine₁ = run at *
      obtain ⟨entries, ended, machine₂⟩ := run
      have hbody : machine₂ = performAll (.opening opening result :: acts) machine := by
        rw [← List.singleton_append, performAll_append, ← hopen]
        exact hacts
      cases ended with
      | some e => exact ⟨_, hbody⟩
      | none =>
        refine ⟨(.opening opening result :: acts) ++ [.leave machine₁.session.current], ?_⟩
        rw [performAll_append, ← hbody]
        rfl
  | .repeated times body caught, machine => by
    rw [Step.run]
    exact iterate_acts (fun machine => steps_acts body machine) times machine

/-- To run the steps of a body is to perform acts. -/
theorem steps_acts : ∀ (steps : List Step) (machine : Machine),
    ∃ acts, (Script.runAll steps machine).2.2 = performAll acts machine
  | [], machine => ⟨[], by rw [Script.runAll]; rfl⟩
  | step :: steps, machine => by
    obtain ⟨acts, hacts⟩ := step_acts step machine
    rw [Script.runAll]
    generalize step.run machine = run at *
    obtain ⟨entry, ended, machine₁⟩ := run
    cases ended with
    | some e => exact ⟨acts, hacts⟩
    | none =>
      obtain ⟨acts', hacts'⟩ := steps_acts steps machine₁
      refine ⟨acts ++ acts', ?_⟩
      rw [performAll_append, ← hacts]
      exact hacts'

end

/-- To run the steps of a script is to perform acts. -/
theorem every_acts (steps : List Step) : ∀ machine, ∃ acts, (Script.runEvery steps machine).2 = performAll acts machine := by
  induction steps with
  | nil => intro machine; exact ⟨[], rfl⟩
  | cons step steps ih =>
    intro machine
    obtain ⟨acts, hacts⟩ := step_acts step machine
    obtain ⟨acts', hacts'⟩ := ih (step.run machine).2.2
    refine ⟨acts ++ acts', ?_⟩
    rw [performAll_append, ← hacts]
    exact hacts'

/-! ## Whole runs -/

/-- A node of the arena or a handle in a register mentions the symbol, with this type. -/
inductive MentionsSymbol (machine : Machine) (symbol : SymbolId) (type : ValueType) : Prop
  | node {id : NodeId} {node : Node} (h : machine.session.arena.get? id = some node)
    (hs : node.head.typing? = some (symbol, type))
  | handle {name : String} {handle : Handle} (h : machine.registers.lookup name = some handle)
    (hs : handle.typing? = some (symbol, type))

/-- Whatever is mentioned is listed. -/
theorem Kept.listed {Γ : TypeLedger} {families : List Nat} {track : Track} (h : Kept Γ families track) {symbol : SymbolId}
    {type : ValueType} (hm : MentionsSymbol track.machine symbol type) : Listed Γ (some (symbol, type)) := by
  cases hm with
  | node hn hs => exact hs ▸ h.marked.nodes _ _ hn
  | handle hl hs => exact hs ▸ (h.registers _ _ hl).listed

/-- What holds of symbols after a row of acts, and of the act after it. -/
structure Disciplined (acts : List Act) : Prop where
  /-- Every symbol that is mentioned has been given out. -/
  below : ∀ symbol type, MentionsSymbol (Track.after acts).machine symbol type →
    symbol.index < (Track.after acts).machine.session.symbolCount
  /-- Every symbol has one type, at all points of the run. -/
  typed : ∃ typeOf : SymbolId → ValueType, ∀ before, before <+: acts → ∀ symbol type,
    MentionsSymbol (Track.after before).machine symbol type → type = typeOf symbol
  /-- Handles that mention the same symbol belong to one family, and but for lanes they are copies of one handle. -/
  shared : ∀ name other handle handle' symbol type type',
    (Track.after acts).machine.registers.lookup name = some handle → handle.typing? = some (symbol, type) →
    (Track.after acts).machine.registers.lookup other = some handle' → handle'.typing? = some (symbol, type') →
    ((Track.after acts).origins name).family = ((Track.after acts).origins other).family ∧
      (handle.isLane = false → handle'.isLane = false →
        ((Track.after acts).origins name).made = ((Track.after acts).origins other).made)
  /-- Symbols are given out in order. -/
  given : ∀ result, ((Act.call .nextSymbol result).perform (Track.after acts).machine).1 =
    .ok (.symbol ⟨(Track.after acts).machine.session.symbolCount⟩)
  /-- A symbol that the next act gives out has not been mentioned before. -/
  fresh : ∀ act, (Track.after acts).machine.session.symbolCount ≤ (Track.after (acts ++ [act])).machine.session.symbolCount ∧
    ∀ symbol : SymbolId, (Track.after acts).machine.session.symbolCount ≤ symbol.index →
      symbol.index < (Track.after (acts ++ [act])).machine.session.symbolCount →
      ∀ type, ¬MentionsSymbol (Track.after acts).machine symbol type
  /-- A handle that is bound to a symbol stays bound to it, unless another handle takes its register. -/
  bound : ∀ act name type symbol, (Track.after acts).machine.registers.lookup name = some (.value ⟨type, .bound symbol⟩) →
    act.effect.result? ≠ some name →
    (Track.after (acts ++ [act])).machine.registers.lookup name = some (.value ⟨type, .bound symbol⟩)

section Runs

variable {Γ : TypeLedger} {families : List Nat} {track : Track}

/-- Whatever is mentioned was given out. -/
theorem Kept.below (h : Kept Γ families track) {symbol : SymbolId} {type : ValueType}
    (hm : MentionsSymbol track.machine symbol type) : symbol.index < track.machine.session.symbolCount := by
  rw [← h.marked.length]
  exact (h.listed hm).lt_length (symbol, type) rfl

/-- Registers that mention one symbol are of one family. -/
theorem Kept.shared (h : Kept Γ families track) {name other : String} {handle handle' : Handle} {symbol : SymbolId}
    {type type' : ValueType} (hl : track.machine.registers.lookup name = some handle)
    (hs : handle.typing? = some (symbol, type)) (hl' : track.machine.registers.lookup other = some handle')
    (hs' : handle'.typing? = some (symbol, type')) :
    (track.origins name).family = (track.origins other).family ∧
      (handle.isLane = false → handle'.isLane = false → (track.origins name).made = (track.origins other).made) := by
  have hp := h.registers name handle hl
  have hp' := h.registers other handle' hl'
  have hfamily : (track.origins name).family = (track.origins other).family :=
    Option.some.inj ((hp.family (symbol, type) hs).symm.trans (hp'.family (symbol, type') hs'))
  exact ⟨hfamily, fun hlane hlane' => by rw [hp.made hlane, hp'.made hlane', hfamily]⟩

/-- A register keeps its symbol unless another result is put into it. -/
theorem Kept.bound (h : Kept Γ families track) (act : Act) {name : String} {type : ValueType} {symbol : SymbolId}
    (hl : track.machine.registers.lookup name = some (.value ⟨type, .bound symbol⟩)) (hn : act.effect.result? ≠ some name) :
    (track.step act).machine.registers.lookup name = some (.value ⟨type, .bound symbol⟩) := by
  have hlisted : ListedAll Γ track.machine.registers := fun name handle hl => (h.registers name handle hl).listed
  obtain ⟨Γ', -, -, ⟨error, -, hsame⟩ | ⟨reply, -, hmoves⟩⟩ := perform_moves h.marked hlisted act
  · rw [Track.step, hsame, hl]
  · exact hmoves.bound hl hn

/-- Symbols are never taken back. -/
theorem Kept.count_le (h : Kept Γ families track) (act : Act) :
    track.machine.session.symbolCount ≤ (track.step act).machine.session.symbolCount := by
  obtain ⟨Γ', families', hp, h'⟩ := h.step act
  rw [← h.marked.length, ← h'.marked.length]
  exact hp.length_le

end Runs

/-- Symbols are handled with discipline in every run, and every script is a run. -/
theorem every_run_disciplined : (∀ acts : List Act, Disciplined acts) ∧
    ∀ steps : List Step, ∃ acts, (Script.runEvery steps .start).2 = (Track.after acts).machine := by
  constructor
  · intro acts
    obtain ⟨Γ, ⟨families, hkept⟩, hbefore⟩ := exists_kept acts
    refine ⟨fun symbol type => hkept.below, ⟨fun symbol => Γ[symbol.index]?.getD .void, ?_⟩, ?_, fun _ => rfl, ?_, ?_⟩
    · intro before hb symbol type hm
      obtain ⟨Γ', families', hp, hkept'⟩ := hbefore before hb
      have hlast : Γ[symbol.index]? = some type := (hkept'.listed hm).extend hp (symbol, type) rfl
      simp only [hlast, Option.getD_some]
    · intro name other handle handle' symbol type type' hl hs hl' hs'
      exact hkept.shared hl hs hl' hs'
    · intro act
      rw [Track.after_append]
      refine ⟨hkept.count_le act, fun symbol hle _ type hm => ?_⟩
      exact absurd (hkept.below hm) (not_lt.2 hle)
    · intro act name type symbol hl hn
      rw [Track.after_append]
      exact hkept.bound act hl hn
  · intro steps
    obtain ⟨acts, hacts⟩ := every_acts steps .start
    exact ⟨acts, hacts.trans (machine_foldl_step acts .start).symm⟩

end Symbols

end ShaderTrace
