import ShaderTrace.Proofs.Registers
import ShaderTrace.Proofs.Signatures

/-!
# What an action leaves behind

An action of a recorder opens and closes blocks at the inner end of the path of open blocks; what lies below the innermost block
that it leaves open is not touched (`Advance`). An action that is refused leaves the program as it was, whatever it did before,
and never for a reason that lies in an arena. `ActionOutcome` says both of one action; it is proved once for each of them, and
`call_outcome` and `opening_outcome` put them together for calls and for what opens a block.
-/

namespace ShaderTrace.Blocks

open Reference (Block)
open Script (Arg Call Opening StepError)

/-! ## From one point of a recording to a later one -/

/-- The open blocks, from the inside out. -/
def path (session : Reference.Session) : List Block := session.current :: session.outer

/-- The path after some actions: blocks that are new, then one that was open before, with everything around it. The names that
are new can be declared. -/
structure Advance (session session' : Reference.Session) : Prop where
  opened_le : session.opened ≤ session'.opened
  path : ∃ (new : List Block) (top old : Block) (rest : List Block), path session' = new ++ top :: rest ∧
    old :: rest <:+ path session ∧ top.head = old.head ∧ top.number = old.number ∧
    ∀ block ∈ new, session.opened ≤ block.number
  names : ∃ more, session'.names = session.names ++ more ∧ ∀ name ∈ more, Identifier.isDeclarable name = true

/-- The same program has been recorded, under the same names. -/
structure SameProgram (session session' : Reference.Session) : Prop where
  tree : session'.tree = session.tree
  names : session'.names = session.names

section Sessions

variable {a b c : Reference.Session}

/-- Nothing was opened, closed or declared. -/
theorem Advance.of_same (ho : b.opened = a.opened) (hp : Blocks.path b = Blocks.path a) (hn : b.names = a.names) :
    Advance a b where
  opened_le := ho.ge
  path := ⟨[], a.current, a.current, a.outer, hp, List.suffix_rfl, rfl, rfl, by simp⟩
  names := ⟨[], by simp [hn], by simp⟩

theorem Advance.refl (a : Reference.Session) : Advance a a := .of_same rfl rfl rfl

/-- What lies below the innermost block that stays open in both parts is not touched in the whole. -/
theorem Advance.trans (h : Advance a b) (h' : Advance b c) : Advance a c := by
  obtain ⟨hle, ⟨new, top, old, rest, hpath, hold, hhead, hnumber, hnew⟩, more, hnames, hmore⟩ := h
  obtain ⟨hle', ⟨new', top', old', rest', hpath', hold', hhead', hnumber', hnew'⟩, more', hnames', hmore'⟩ := h'
  refine ⟨hle.trans hle', ?_, more ++ more', by simp [hnames, hnames'], ?_⟩
  · have hnew₂ : ∀ block ∈ new', a.opened ≤ block.number := fun block hm => hle.trans (hnew' block hm)
    rw [hpath] at hold'
    rcases suffix_cases hold' with hin | ⟨front, hfront, rfl⟩
    · rcases List.suffix_cons_iff.1 hin with heq | hin
      · -- the block that stayed open is the same in both parts
        obtain ⟨rfl, rfl⟩ : old' = top ∧ rest' = rest := by simpa using heq
        exact ⟨new', top', old, rest', hpath', hold, hhead'.trans hhead, hnumber'.trans hnumber, hnew₂⟩
      · have hrest : old' :: rest' <:+ Blocks.path a := hin.trans ((List.suffix_cons old rest).trans hold)
        exact ⟨new', top', old', rest', hpath', hrest, hhead', hnumber', hnew₂⟩
    · -- a block that the first part opened is still open
      refine ⟨new' ++ top' :: front, top, old, rest, by simp [hpath'], hold, hhead, hnumber, ?_⟩
      intro block hm
      rcases List.mem_append.1 hm with hm | hm
      · exact hnew₂ block hm
      · rcases List.mem_cons.1 hm with rfl | hm
        · rw [hnumber']
          exact hnew old' (hfront.subset (by simp))
        · exact hnew block (hfront.subset (by simp [hm]))
  · intro name hm
    rcases List.mem_append.1 hm with hm | hm
    · exact hmore name hm
    · exact hmore' name hm

/-- Something was added to the innermost open block. -/
theorem Advance.add (session : Reference.Session) (child : Term) :
    Advance session { session with current := session.current.add child } where
  opened_le := Nat.le_refl _
  path := ⟨[], session.current.add child, session.current, session.outer, rfl, List.suffix_rfl, rfl, rfl, by simp⟩
  names := ⟨[], by simp, by simp⟩

theorem SameProgram.refl (a : Reference.Session) : SameProgram a a := ⟨rfl, rfl⟩

/-- Two parts that record nothing are one. -/
theorem SameProgram.trans (h : SameProgram a b) (h' : SameProgram b c) : SameProgram a c :=
  ⟨h'.tree.trans h.tree, h'.names.trans h.names⟩

end Sessions

/-! ## Actions -/

/-- The reason does not lie in an arena. -/
def Refusal (error : TraceError) : Prop := ∀ e, error ≠ .arena e

/-- What an action that was begun in `session` leaves behind, and that `answer` holds of what it answers. -/
def ActionOutcome {α : Type} (session : Reference.Session) (answer : α → Reference.Session → Prop) :
    EStateM.Result TraceError Reference.Session α → Prop :=
  Leaves (fun a session' => Advance session session' ∧ answer a session') fun error session' =>
    Advance session session' ∧ SameProgram session session' ∧ Refusal error

/-- The action changes nothing, and is never refused for a reason that lies in an arena. -/
def Quiet {α : Type} (x : Reference.Recorder α) : Prop :=
  ∀ session, Leaves (fun _ session' => session' = session) (fun error session' => session' = session ∧ Refusal error) (x session)

section Actions

variable {α β : Type} {x : Reference.Recorder α} {f : α → Reference.Recorder β} {session session' : Reference.Session}
  {answer : α → Reference.Session → Prop} {answer' : β → Reference.Session → Prop} {e : TraceError}

/-- An action that changes nothing may come first in any action that may be refused where it begins. -/
theorem Quiet.before {good : β → Reference.Session → Prop} {bad : TraceError → Reference.Session → Prop} (hx : Quiet x)
    (hbad : ∀ error, Refusal error → bad error session)
    (hf : ∀ a, x session = .ok a session → Leaves good bad (f a session)) : Leaves good bad ((x >>= f) session) := by
  refine (hx session).bind ?_ ?_
  · rintro error _ ⟨rfl, hr⟩
    exact hbad error hr
  · rintro a _ hok rfl
    exact hf a hok

/-- To answer changes nothing. -/
theorem Quiet.pure (a : α) : Quiet (Pure.pure a) := fun _ => rfl

/-- To refuse changes nothing. -/
theorem Quiet.refuse (h : Refusal e) : Quiet (throw e : Reference.Recorder α) := fun _ => ⟨rfl, h⟩

/-- Two actions that change nothing are one. -/
theorem Quiet.bind (hx : Quiet x) (hf : ∀ a, Quiet (f a)) : Quiet (x >>= f) := fun session =>
  hx.before (fun _ hr => ⟨rfl, hr⟩) fun a _ => hf a session

/-- A condition under which an action that changes nothing is refused. -/
theorem Quiet.guard {c : Prop} [Decidable c] {g : Unit → Reference.Recorder α} (hr : Refusal e) (hx : Quiet x) :
    Quiet (if c then throw e >>= g else x) := fun session =>
  Leaves.guard (fun _ => ⟨rfl, hr⟩) fun _ => hx session

/-- A check changes nothing. -/
theorem Quiet.check {c : Prop} [Decidable c] (hr : Refusal e) :
    Quiet (if c then throw e else Pure.pure () : Reference.Recorder Unit) := fun _ =>
  Leaves.check (fun _ => ⟨rfl, hr⟩) fun _ => rfl

/-- An action is refused where it was begun. -/
theorem ActionOutcome.error (hr : Refusal e) : ActionOutcome session answer (.error e session) :=
  ⟨.refl session, .refl session, hr⟩

/-- An action answers where it was begun. -/
theorem ActionOutcome.ok {a : α} (h : answer a session) : ActionOutcome session answer (.ok a session) := ⟨.refl session, h⟩

/-- A condition under which an action is refused. -/
theorem ActionOutcome.guard {c : Prop} [Decidable c] {g : Unit → Reference.Recorder α} (hr : Refusal e)
    (hx : ¬c → ActionOutcome session answer (x session)) :
    ActionOutcome session answer ((if c then throw e >>= g else x) session) :=
  Leaves.guard (fun _ => ⟨.refl session, .refl session, hr⟩) hx

/-- An action that changes nothing may come first. -/
theorem Quiet.then (hx : Quiet x) (hf : ∀ a, ActionOutcome session answer' (f a session)) :
    ActionOutcome session answer' ((x >>= f) session) :=
  hx.before (fun _ hr => ⟨.refl session, .refl session, hr⟩) fun a _ => hf a

/-- An action may be taken as begun earlier, if the program has stayed the same since. -/
theorem ActionOutcome.earlier (ha : Advance session session') (hs : SameProgram session session')
    {result : EStateM.Result TraceError Reference.Session α} (h : ActionOutcome session' answer result) :
    ActionOutcome session answer result :=
  Leaves.mono h (fun _ _ hok => ⟨ha.trans hok.1, hok.2⟩) fun _ _ herror => ⟨ha.trans herror.1, hs.trans herror.2.1, herror.2.2⟩

/-- After an action that leaves the program as it was comes another one, which may rely on the answer of the first. -/
theorem ActionOutcome.followed
    (h : ActionOutcome session (fun a session' => SameProgram session session' ∧ answer a session') (x session))
    (hf : ∀ a session', answer a session' → ActionOutcome session' answer' (f a session')) :
    ActionOutcome session answer' ((x >>= f) session) :=
  Leaves.bind h (fun _ _ => id) fun a session' _ ha => (hf a session' ha.2.2).earlier ha.1 ha.2.1

/-- After an action that leaves the program as it was comes another one. -/
theorem ActionOutcome.then (h : ActionOutcome session (fun _ => SameProgram session) (x session))
    (hf : ∀ a session', ActionOutcome session' answer' (f a session')) : ActionOutcome session answer' ((x >>= f) session) :=
  Leaves.bind h (fun _ _ => id) fun a session' _ ha => (hf a session').earlier ha.1 ha.2

/-- After an action comes one that only computes. -/
theorem ActionOutcome.map (h : ActionOutcome session answer (x session))
    (hf : ∀ a session', answer a session' → ∃ b, f a session' = .ok b session' ∧ answer' b session') :
    ActionOutcome session answer' ((x >>= f) session) := by
  refine Leaves.bind h (fun _ _ => id) fun a session' _ ha => ?_
  obtain ⟨b, hb, hanswer⟩ := hf a session' ha.2
  rw [hb]
  exact ⟨ha.1, hanswer⟩

/-- Less may be said of the answer. -/
theorem ActionOutcome.mono {answer₂ : α → Reference.Session → Prop} (ha : ∀ a session, answer a session → answer₂ a session)
    {result : EStateM.Result TraceError Reference.Session α} (h : ActionOutcome session answer result) :
    ActionOutcome session answer₂ result :=
  Leaves.mono h (fun a session' hok => ⟨hok.1, ha a session' hok.2⟩) fun _ _ => id

/-- What an action that changes nothing leaves behind. -/
theorem Quiet.outcome (h : Quiet x) : ActionOutcome session anything (x session) := by
  refine (h session).mono ?_ ?_
  · rintro a session' rfl
    exact ⟨.refl session', trivial⟩
  · rintro error session' ⟨rfl, hr⟩
    exact ⟨.refl session', .refl session', hr⟩

end Actions

section Recorders

variable {session : Reference.Session}

/-! ## Checks and expressions -/

/-- To look at the innermost open block changes nothing. -/
theorem current_quiet : Quiet Reference.current := fun _ => rfl

/-- To check that statements may stand here changes nothing. -/
theorem checkStatements_quiet : Quiet Reference.checkStatements :=
  current_quiet.bind fun _ => .check (by rintro _ ⟨⟩)

/-- To check that a section may be opened changes nothing. -/
theorem checkSection_quiet (kind : NodeKind) : Quiet (Reference.checkSection kind) := by
  refine current_quiet.bind fun block => .guard (by rintro _ ⟨⟩) ?_
  have get_quiet : Quiet (get : Reference.Recorder Reference.Session) := fun _ => rfl
  exact get_quiet.bind fun _ => .check (by rintro _ ⟨⟩)

/-- To check that an alternative may stand here changes nothing. -/
theorem checkFollowsConditional_quiet (next : NodeKind) : Quiet (Reference.checkFollowsConditional next) :=
  current_quiet.bind fun _ => .check (by rintro _ ⟨⟩)

/-- To check a condition changes nothing. -/
theorem checkCondition_quiet (condition : Reference.Operand) : Quiet (Reference.checkCondition condition) :=
  .check (by rintro _ ⟨⟩)

/-- To check that a value may be written changes nothing. -/
theorem checkWritable_quiet (target : Reference.Value) : Quiet (Reference.checkWritable target) := by
  unfold Reference.checkWritable
  split
  · exact .refuse (by rintro _ ⟨⟩)
  · exact .pure ()

/-- To read an operand changes nothing. It is refused if the operand has no value yet. -/
theorem lower_quiet (operand : Reference.Operand) : Quiet (Reference.lower operand) := by
  cases operand with
  | literal value => exact .pure _
  | handle handle =>
    cases handle with
    | input input => exact .pure _
    | value value =>
      obtain ⟨type, form⟩ := value
      cases form with
      | unbound => exact .refuse (by rintro _ ⟨⟩)
      | _ => exact .pure _

/-- To read operands changes nothing. -/
theorem lowerAll_quiet (operands : List Reference.Operand) : Quiet (Reference.lowerAll operands) := by
  induction operands with
  | nil => exact .pure []
  | cons operand operands ih => exact (lower_quiet operand).bind fun _ => ih.bind fun _ => .pure _

/-- To check constant indices changes nothing. -/
theorem checkIndices_quiet (operands : List Reference.Operand) : Quiet (Reference.checkIndices operands) := by
  induction operands with
  | nil => exact .pure ()
  | cons operand operands ih =>
    cases operand with
    | handle => exact ih
    | literal value =>
      cases value with
      | int index => exact .guard (by rintro _ ⟨⟩) ih
      | _ => exact ih

/-- To check the operands of an operator changes nothing. -/
theorem checkOperands_quiet (operator : Operator) (operands : List Reference.Operand) :
    Quiet (Reference.checkOperands operator operands) := by
  cases operator with
  | sample1d | sample2d => exact checkIndices_quiet _
  | _ => exact .pure ()

/-- To build an expression changes nothing, because nothing is shared with the program until it is used. -/
theorem express_quiet (operator : Operator) (operands : List Reference.Operand) :
    Quiet (Reference.express operator operands) := by
  unfold Reference.express
  cases Reference.type? operator operands with
  | none => exact .refuse (by rintro _ ⟨⟩)
  | some type =>
    exact (checkOperands_quiet operator operands).bind fun _ => (lowerAll_quiet _).bind fun _ => .pure _

/-! ## Declarations and assignments -/

/-- Giving a symbol out changes nothing in the program. -/
theorem nextSymbol_then {α : Type} {f : SymbolId → Reference.Recorder α} {answer : α → Reference.Session → Prop}
    (hf : ActionOutcome { session with symbolCount := session.symbolCount + 1 } answer
      (f ⟨session.symbolCount⟩ { session with symbolCount := session.symbolCount + 1 })) :
    ActionOutcome session answer ((Reference.nextSymbol >>= f) session) := by
  have hadvance : Advance session { session with symbolCount := session.symbolCount + 1 } := .of_same rfl rfl rfl
  have hsame : SameProgram session { session with symbolCount := session.symbolCount + 1 } := ⟨rfl, rfl⟩
  exact hf.earlier hadvance hsame

/-- A declaration adds a node to the open section, and its name to the names. -/
theorem declare_outcome (kind sectionKind : NodeKind) (type : ValueType) (name : String) :
    ActionOutcome session anything (Reference.declare kind sectionKind type name session) := by
  refine current_quiet.then fun block => .guard (by rintro _ ⟨⟩) fun _ => .guard (by rintro _ ⟨⟩) fun hname => ?_
  refine .guard (by rintro _ ⟨⟩) fun _ => ?_
  have hadd := Advance.add session (.node ((Head.ofSymbol kind type ⟨session.symbolCount⟩).named name) [])
  refine ⟨⟨hadd.opened_le, hadd.path, [name], rfl, ?_⟩, trivial⟩
  intro other hm
  rw [List.mem_singleton] at hm
  subst hm
  simpa using hname

/-- An input is a declaration in its section. -/
theorem input_outcome (type : ValueType) (name : String) : ActionOutcome session anything (Reference.input type name session) :=
  .guard (by rintro _ ⟨⟩) fun _ =>
    (declare_outcome .constVar .constData type name).map fun symbol _ _ => ⟨⟨type, symbol⟩, rfl, trivial⟩

/-- An output is a declaration in its section. -/
theorem output_outcome (type : ValueType) (name : String) : ActionOutcome session anything (Reference.output type name session) :=
  .guard (by rintro _ ⟨⟩) fun _ =>
    (declare_outcome .outVar .outData type name).map fun symbol _ _ => ⟨⟨type, .bound symbol⟩, rfl, trivial⟩

/-- The result of an operation has a symbol once it is the target of an assignment. -/
def Bound (target result : Reference.Value) : Prop :=
  ∀ term, target.form = .pending term → ∃ symbol, result = ⟨target.type, .bound symbol⟩

/-- The target of an assignment gets a symbol if it has none, which changes nothing in the program. -/
theorem lowerTarget_outcome (target : Reference.Value) :
    ActionOutcome session (fun answer session' => SameProgram session session' ∧ Bound target answer.2)
      (Reference.lowerTarget target session) := by
  obtain ⟨type, form⟩ := target
  cases form with
  | unbound => exact ⟨.of_same rfl rfl rfl, ⟨rfl, rfl⟩, by rintro _ ⟨⟩⟩
  | bound symbol => exact .ok ⟨.refl session, by rintro _ ⟨⟩⟩
  | pending term => exact ⟨.of_same rfl rfl rfl, ⟨rfl, rfl⟩, fun _ _ => ⟨_, rfl⟩⟩
  | member owner ownerType lane writable => exact .ok ⟨.refl session, by rintro _ ⟨⟩⟩

/-- A statement is added to the innermost open block. -/
theorem append_outcome (statement : Term) : ActionOutcome session anything (Reference.append statement session) :=
  checkStatements_quiet.then fun _ => ⟨.add session statement, trivial⟩

/-- An assignment adds a statement, and gives its target a symbol. -/
theorem assign_outcome (target : Reference.Value) (value : Reference.Operand) :
    ActionOutcome session (fun result _ => Bound target result) (Reference.assign target value session) := by
  refine .guard (by rintro _ ⟨⟩) fun _ => checkStatements_quiet.then fun _ => (checkWritable_quiet target).then fun _ => ?_
  refine (lower_quiet value).then fun right => ?_
  refine (lowerTarget_outcome target).followed fun answer _ hbound => ?_
  exact (append_outcome _).map fun _ _ _ => ⟨answer.2, rfl, hbound⟩

/-- A variable is declared by an assignment. -/
theorem var_outcome (value : Reference.Operand) : ActionOutcome session anything (Reference.var value session) :=
  (assign_outcome _ value).mono fun _ _ _ => trivial

/-- An update is an assignment of an expression. -/
theorem update_outcome (how : Update) (target : Reference.Value) (value : Reference.Operand) :
    ActionOutcome session anything (Reference.update how target value session) :=
  .guard (by rintro _ ⟨⟩) fun _ => (express_quiet _ _).then fun _ => (assign_outcome target _).mono fun _ _ _ => trivial

/-- A value has a symbol afterwards, which may have taken an assignment. -/
theorem materialize_outcome (value : Reference.Value) :
    ActionOutcome session (fun answer _ => answer.2 = ⟨value.type, .bound answer.1⟩) (Reference.materialize value session) := by
  obtain ⟨type, form⟩ := value
  cases form with
  | bound symbol => exact .ok rfl
  | unbound => exact ⟨.of_same rfl rfl rfl, rfl⟩
  | member => exact .error (by rintro _ ⟨⟩)
  | pending term =>
    refine (assign_outcome _ _).map fun bound session' hb => ?_
    obtain ⟨symbol, rfl⟩ := hb term rfl
    exact ⟨(symbol, ⟨type, .bound symbol⟩), rfl, rfl⟩

/-- The lane of a vector, which has a symbol afterwards. -/
theorem lane_outcome (owner : Reference.Value) (lane : Lane) :
    ActionOutcome session (fun answer _ => ∃ symbol type, owner.type.lane? = some type ∧
      answer = (⟨type, .member symbol owner.type lane true⟩, ⟨owner.type, .bound symbol⟩))
      (Reference.lane owner lane session) := by
  unfold Reference.lane
  cases htype : owner.type.lane? with
  | none => exact .error (by rintro _ ⟨⟩)
  | some type =>
    refine .guard (by rintro _ ⟨⟩) fun _ => .guard (by rintro _ ⟨⟩) fun _ => ?_
    refine (materialize_outcome owner).map fun answer _ ha => ⟨_, rfl, answer.1, type, rfl, ?_⟩
    rw [ha]

/-- A lane of a vector that has a symbol is only named. -/
theorem lane_of_bound {vector type : ValueType} {lane : Lane} (symbol : SymbolId) (ht : vector.lane? = some type)
    (hv : vector.isVector = true) (hl : lane.index < vector.lanes) (session : Reference.Session) :
    Reference.lane ⟨vector, .bound symbol⟩ lane session =
      .ok (⟨type, .member symbol vector lane true⟩, ⟨vector, .bound symbol⟩) session := by
  simp only [Reference.lane, ht, hv, Nat.not_le.2 hl]
  rfl

/-- A component is a lane of a vector. -/
theorem component_outcome (owner : Reference.Value) (lane : Lane) :
    ActionOutcome session anything (Reference.component owner lane session) :=
  .guard (by rintro _ ⟨⟩) fun _ => (lane_outcome owner lane).mono fun _ _ _ => trivial

/-- Once the coordinate has a symbol, sampling at it cannot be refused. -/
theorem sample_of_bound {buffer : Input} (hv : buffer.type.isValid = true) (hb : buffer.type.isBuffer2d = true)
    (symbol : SymbolId) (session : Reference.Session) :
    ∃ value, (do
      let (y, _) ← Reference.lane ⟨.int2, .bound symbol⟩ .y
      Reference.express .sample2d [.ofInput buffer, .ofValue ⟨.int, .member symbol .int2 .x true⟩, .ofValue y]) session =
        .ok value session := by
  have hint : ValueType.int2.lane? = some .int := by decide
  have hy := lane_of_bound symbol hint (by decide : ValueType.int2.isVector = true)
    (by decide : Lane.y.index < ValueType.int2.lanes) session
  have hresult : Operator.result? .sample2d [buffer.type, .int, .int] = some buffer.type.base := by
    simp [Operator.result?, Typing.sample?, hv, hb]
  have htype : Reference.type? .sample2d [.ofInput buffer, .ofValue ⟨.int, .member symbol .int2 .x true⟩,
      .ofValue ⟨.int, .member symbol .int2 .y true⟩] = some buffer.type.base := hresult
  obtain ⟨value, hvalue⟩ : ∃ value, Reference.express .sample2d [.ofInput buffer,
      .ofValue ⟨.int, .member symbol .int2 .x true⟩, .ofValue ⟨.int, .member symbol .int2 .y true⟩] session =
      .ok value session := by
    rw [Reference.express, htype]
    exact ⟨_, rfl⟩
  exact ⟨value, (bind_of_ok hy).trans hvalue⟩

/-- To sample at a coordinate takes an assignment at most, for the symbol of the coordinate. -/
theorem sampleAt_outcome (buffer : Input) (coordinate : Reference.Value) :
    ActionOutcome session anything (Reference.sampleAt buffer coordinate session) := by
  obtain ⟨type, form⟩ := coordinate
  refine .guard (by rintro _ ⟨⟩) fun hguard => (lane_outcome _ .x).map fun answer session' ha => ?_
  simp only [Bool.or_eq_true, Bool.not_eq_true', Bool.and_eq_false_iff, decide_eq_true_eq, not_or, not_not,
    Bool.not_eq_false] at hguard
  obtain ⟨⟨hvalid, hbuffer⟩, rfl⟩ := hguard
  obtain ⟨symbol, lane, hlane, rfl⟩ := ha
  have hint : ValueType.int2.lane? = some .int := by decide
  obtain rfl : lane = .int := Option.some.inj (hlane.symm.trans hint)
  obtain ⟨value, hvalue⟩ := sample_of_bound hvalid hbuffer symbol session'
  exact ⟨value, hvalue, trivial⟩

/-! ## Blocks, branches and loops -/

/-- One block has been opened, with all that was open before around it. -/
def Opened (kind : NodeKind) (session session' : Reference.Session) : Prop :=
  ∃ block : Block, block.kind = kind ∧ path session' = block :: path session ∧ session.opened ≤ block.number ∧
    block.number < session'.opened

/-- A block that is opened is the innermost one. -/
theorem openBlock_outcome (head : Head) (header : List Term) :
    ActionOutcome session (fun _ => Opened head.kind session) (Reference.openBlock head header session) := by
  have hnew : ∀ block ∈ [(⟨head, header, session.opened⟩ : Block)], session.opened ≤ block.number := by simp
  refine ⟨⟨Nat.le_succ _, ⟨_, session.current, session.current, session.outer, rfl, List.suffix_rfl, rfl, rfl, hnew⟩, [],
    by simp, by simp⟩, ?_⟩
  exact ⟨⟨head, header, session.opened⟩, rfl, rfl, Nat.le_refl _, Nat.lt_succ_self _⟩

/-- A section or a plain block is opened where it may stand. -/
theorem enter_outcome (kind : NodeKind) : ActionOutcome session (fun _ => Opened kind session) (Reference.enter kind session) := by
  cases kind with
  | constData | outData | main => exact (checkSection_quiet _).then fun _ => openBlock_outcome _ _
  | block => exact checkStatements_quiet.then fun _ => openBlock_outcome _ _
  | _ => exact .error (by rintro _ ⟨⟩)

/-- Closing a block changes nothing in the program. -/
theorem exit_outcome : ActionOutcome session (fun _ => SameProgram session) (Reference.exit session) := by
  rw [Reference.exit_eq]
  cases houter : session.outer with
  | nil => exact .error (by rintro _ ⟨⟩)
  | cons parent outer =>
    refine ⟨⟨Nat.le_refl _, ?_, [], by simp, by simp⟩, ?_, rfl⟩
    · refine ⟨[], parent.add session.current.term, parent, outer, rfl, ?_, rfl, rfl, by simp⟩
      rw [path, houter]
      exact List.suffix_cons _ _
    · unfold Reference.Session.tree
      rw [houter]
      rfl

/-- To leave a block changes nothing in the program. -/
theorem leave_outcome (block : Block) : ActionOutcome session (fun _ => SameProgram session) (Reference.leave block session) :=
  .guard (by rintro _ ⟨⟩) fun _ => exit_outcome

/-- To close the branch before an alternative changes nothing in the program. -/
theorem closeLink_outcome (next : NodeKind) :
    ActionOutcome session (fun _ => SameProgram session) (Reference.closeLink next session) :=
  current_quiet.then fun _ => .guard (by rintro _ ⟨⟩) fun _ => exit_outcome

/-- The condition is read, and then the block is opened. -/
theorem openConditional_outcome (kind : NodeKind) (condition : Option Reference.Operand) :
    ActionOutcome session (fun _ => Opened kind session) (Reference.openConditional kind condition session) :=
  (lowerAll_quiet _).then fun _ => openBlock_outcome { kind, type := .void } _

/-- A branch is opened. -/
theorem beginIf_outcome (condition : Reference.Operand) :
    ActionOutcome session (fun _ => Opened .ifBranch session) (Reference.beginIf condition session) :=
  (checkCondition_quiet condition).then fun _ => checkStatements_quiet.then fun _ => openConditional_outcome _ _

/-- A loop with a condition is opened. -/
theorem beginWhile_outcome (condition : Reference.Operand) :
    ActionOutcome session (fun _ => Opened .whileLoop session) (Reference.beginWhile condition session) :=
  (checkCondition_quiet condition).then fun _ => checkStatements_quiet.then fun _ => openConditional_outcome _ _

/-- A loop that counts is opened. -/
theorem beginFor_outcome (name : String) (start stop : Reference.Operand) :
    ActionOutcome session (fun _ => Opened .forRange session) (Reference.beginFor name start stop session) := by
  refine .guard (by rintro _ ⟨⟩) fun _ => checkStatements_quiet.then fun _ => .guard (by rintro _ ⟨⟩) fun _ => ?_
  refine nextSymbol_then ((lowerAll_quiet [start, stop]).then fun bounds => ?_)
  exact (openBlock_outcome _ bounds).map fun _ _ ho => ⟨_, rfl, ho⟩

/-- An alternative with a condition is opened after a closed branch. -/
theorem reopenElseIf_outcome (condition : Reference.Operand) :
    ActionOutcome session (fun _ => Opened .elseIfBranch session) (Reference.reopenElseIf condition session) :=
  (checkCondition_quiet condition).then fun _ => (checkFollowsConditional_quiet _).then fun _ => openConditional_outcome _ _

/-- An alternative is opened after a closed branch. -/
theorem reopenElse_outcome : ActionOutcome session (fun _ => Opened .elseBranch session) (Reference.reopenElse session) :=
  (checkFollowsConditional_quiet _).then fun _ => openConditional_outcome _ _

/-- The branch before an alternative with a condition is closed, which changes nothing in the program, and then the alternative
is opened. -/
theorem beginElseIf_outcome (condition : Reference.Operand) :
    ActionOutcome session anything (Reference.beginElseIf condition session) :=
  (checkCondition_quiet condition).then fun _ => (closeLink_outcome _).then fun _ _ =>
    (openConditional_outcome _ _).mono fun _ _ _ => trivial

/-- The branch before an alternative is closed, and then the alternative is opened. -/
theorem beginElse_outcome : ActionOutcome session anything (Reference.beginElse session) :=
  (closeLink_outcome _).then fun _ _ => (openConditional_outcome _ _).mono fun _ _ _ => trivial

end Recorders

/-! ## Calls -/

/-- Whatever the registers are, the action leaves behind what an action may. -/
def Behaved (session : Reference.Session) (action : Reference.Action) : Prop :=
  ∀ registers, ActionOutcome session anything (action registers session)

/-- The kind of the block that is opened. -/
def kindOf : Opening → NodeKind
  | .enter kind => kind
  | .ifThen _ => .ifBranch
  | .elseIf _ => .elseIfBranch
  | .otherwise => .elseBranch
  | .whileDo _ => .whileLoop
  | .forRange _ _ _ => .forRange

/-- Whatever the registers are, the action opens one block if it is not refused. -/
def Opens (kind : NodeKind) (session : Reference.Session) (action : Reference.Action) : Prop :=
  ∀ registers, ActionOutcome session (fun _ => Opened kind session) (action registers session)

section Calls

variable {α : Type} {session : Reference.Session} {x : Reference.Recorder α} {answer : α → Reference.Session → Prop}

/-- After the recorder has acted, only an answer and registers are put together. -/
theorem ActionOutcome.behaved (h : ActionOutcome session answer (x session))
    {f : Reference.Registers → α → Reference.Recorder (Reference.Reply × Reference.Registers)}
    (hf : ∀ registers a session, ∃ b, f registers a session = .ok b session) :
    Behaved session fun registers => x >>= f registers :=
  fun registers => h.map fun a session' _ => (hf registers a session').imp fun _ hb => ⟨hb, trivial⟩

/-- The block that the recorder opened is the one that the action opens. -/
theorem ActionOutcome.opens {kind : NodeKind} (h : ActionOutcome session (fun _ => Opened kind session) (x session))
    {f : Reference.Registers → α → Reference.Recorder (Reference.Reply × Reference.Registers)}
    (hf : ∀ registers a session, ∃ b, f registers a session = .ok b session) :
    Opens kind session fun registers => x >>= f registers :=
  fun registers => h.map fun a session' ho => (hf registers a session').imp fun _ hb => ⟨hb, ho⟩

variable (registers : Reference.Registers)

/-- What every call leaves behind. -/
theorem call_outcome (call : Call) (result : Option String) :
    Found (Behaved session) (Reference.callAction call result registers) := by
  cases call with
  | enter kind => exact (enter_outcome kind).behaved fun _ _ _ => ⟨_, rfl⟩
  | exit => exact exit_outcome.behaved fun _ _ _ => ⟨_, rfl⟩
  | nextSymbol => exact fun _ => nextSymbol_then (.ok trivial)
  | input type name => exact (input_outcome type name).behaved fun _ _ _ => ⟨_, rfl⟩
  | output type name => exact (output_outcome type name).behaved fun _ _ _ => ⟨_, rfl⟩
  | unbound type =>
    show Found _ (if _ then _ else _)
    split
    · exact (Quiet.pure _).outcome.behaved fun _ _ _ => ⟨_, rfl⟩
    · rintro _ ⟨⟩
  | copy source => exact (handle_found registers source).bind fun _ _ _ => (Quiet.pure _).outcome
  | inspect source => exact (handle_found registers source).bind fun _ _ _ => (Quiet.pure _).outcome
  | assign target value =>
    refine (value_found registers target).bind fun old _ => (operand_found registers value).bind fun value _ => ?_
    exact (assign_outcome old value).behaved fun _ _ _ => ⟨_, rfl⟩
  | update how target value =>
    refine (value_found registers target).bind fun old _ => (operand_found registers value).bind fun value _ => ?_
    exact (update_outcome how old value).behaved fun _ _ _ => ⟨_, rfl⟩
  | var value => exact (operand_found registers value).bind fun value _ => (var_outcome value).behaved fun _ _ _ => ⟨_, rfl⟩
  | materialize target =>
    refine (value_found registers target).bind fun old _ => ?_
    exact (materialize_outcome old).behaved fun _ _ _ => ⟨_, rfl⟩
  | lane owner which =>
    exact (value_found registers owner).bind fun old _ => (lane_outcome old which).behaved fun _ _ _ => ⟨_, rfl⟩
  | component owner which =>
    refine (handle_found registers owner).bind fun handle _ => ?_
    cases handle with
    | value old => exact (component_outcome old which).behaved fun _ _ _ => ⟨_, rfl⟩
    | input vector =>
      simp only
      cases Reference.laneOfInput? vector which with
      | none => rintro _ ⟨⟩
      | some value => exact (Quiet.pure value).outcome.behaved fun _ _ _ => ⟨_, rfl⟩
  | express operator operands =>
    exact (operands_found registers operands).bind fun operands _ =>
      (express_quiet operator operands).outcome.behaved fun _ _ _ => ⟨_, rfl⟩
  | sample1d buffer index =>
    exact (input_found registers buffer).bind fun buffer _ => (operand_found registers index).bind fun index _ =>
      (express_quiet _ _).outcome.behaved fun _ _ _ => ⟨_, rfl⟩
  | sample2d buffer x y =>
    exact (input_found registers buffer).bind fun buffer _ => (operand_found registers x).bind fun x _ =>
      (operand_found registers y).bind fun y _ => (express_quiet _ _).outcome.behaved fun _ _ _ => ⟨_, rfl⟩
  | sampleAt buffer coordinate =>
    exact (input_found registers buffer).bind fun buffer _ => (valueOperand_found registers coordinate).bind fun coordinate _ =>
      (sampleAt_outcome buffer coordinate).behaved fun _ _ _ => ⟨_, rfl⟩
  | beginIf condition =>
    exact (operand_found registers condition).bind fun condition _ =>
      (beginIf_outcome condition).behaved fun _ _ _ => ⟨_, rfl⟩
  | beginElseIf condition =>
    exact (operand_found registers condition).bind fun condition _ =>
      (beginElseIf_outcome condition).behaved fun _ _ _ => ⟨_, rfl⟩
  | beginElse => exact beginElse_outcome.behaved fun _ _ _ => ⟨_, rfl⟩
  | beginWhile condition =>
    exact (operand_found registers condition).bind fun condition _ =>
      (beginWhile_outcome condition).behaved fun _ _ _ => ⟨_, rfl⟩
  | beginFor name start stop =>
    exact (integer_found registers start).bind fun start _ => (integer_found registers stop).bind fun stop _ =>
      (beginFor_outcome name start stop).behaved fun _ _ _ => ⟨_, rfl⟩

/-- What is left behind where a block is opened. -/
theorem opening_outcome (opening : Opening) (result : Option String) :
    Found (Opens (kindOf opening) session) (Reference.openingAction opening result registers) := by
  cases opening with
  | enter kind => exact (enter_outcome kind).opens fun _ _ _ => ⟨_, rfl⟩
  | ifThen condition =>
    exact (operand_found registers condition).bind fun condition _ =>
      (beginIf_outcome condition).opens fun _ _ _ => ⟨_, rfl⟩
  | elseIf condition =>
    exact (operand_found registers condition).bind fun condition _ =>
      (reopenElseIf_outcome condition).opens fun _ _ _ => ⟨_, rfl⟩
  | otherwise => exact reopenElse_outcome.opens fun _ _ _ => ⟨_, rfl⟩
  | whileDo condition =>
    exact (operand_found registers condition).bind fun condition _ =>
      (beginWhile_outcome condition).opens fun _ _ _ => ⟨_, rfl⟩
  | forRange name start stop =>
    exact (integer_found registers start).bind fun start _ => (integer_found registers stop).bind fun stop _ =>
      (beginFor_outcome name start stop).opens fun _ _ _ => ⟨_, rfl⟩

/-- What opens a block leaves behind what an action may. -/
theorem opening_behaved (opening : Opening) (result : Option String) :
    Found (Behaved session) (Reference.openingAction opening result registers) := by
  refine (@opening_outcome session registers opening result).mono fun action h others => ?_
  exact (h others).mono fun _ _ _ => trivial

end Calls

end ShaderTrace.Blocks
