import ShaderTrace.Compile
import ShaderTrace.Proofs.Renaming.Generator
import ShaderTrace.Proofs.Renaming.Script

/-!
# The order of the declarations

A kernel declares its inputs in one section and its outputs in another. Which of the two comes first decides on the symbols of all
that is declared, and on nothing else: the kernel has the same program with its sections swapped, or none in either order
(`compile_sections_commute`).
-/

namespace ShaderTrace

open Script (Call Step StepError)

/-! ## Ports -/

/-- An input or an output that a kernel asks for. -/
structure Port where
  type : ValueType
  name : String

inductive Direction where
  | input
  | output
deriving DecidableEq

namespace Direction

def sectionKind : Direction → NodeKind
  | input => .constData
  | output => .outData

theorem isSection_sectionKind (direction : Direction) : direction.sectionKind.isSection = true := by cases direction <;> rfl

def nodeKind : Direction → NodeKind
  | input => .constVar
  | output => .outVar

/-- The types that can be declared. The others are refused by the host, which goes on without them. -/
def admits : Direction → ValueType → Bool
  | input, type => type.isNameable
  | output, type => type.isNumeric

def call : Direction → Port → Call
  | input, port => .input port.type port.name
  | output, port => .output port.type port.name

/-- The handle that a declaration gives. -/
def handle : Direction → ValueType → SymbolId → Reference.Handle
  | input, type, symbol => .input ⟨type, symbol⟩
  | output, type, symbol => .value ⟨type, .bound symbol⟩

/-- The ports of a section that can be declared. -/
def admitted (direction : Direction) (ports : List Port) : List Port := ports.filter (direction.admits ·.type)

/-- Declares a port. Its handle is held under its name. -/
def declaring (direction : Direction) (port : Port) : Step := .call (direction.call port) (some port.name) false

/-- The section that declares ports. -/
def sectionStep (direction : Direction) (ports : List Port) : Step :=
  .block (.enter direction.sectionKind) none (ports.map direction.declaring) false

end Direction

/-- The main section of a kernel. -/
def mainStep (body : List Step) : Step := .block (.enter .main) none body false

/-- The names can be declared after those that are taken. -/
structure FreshNames (taken : List String) (ports : List Port) : Prop where
  declarable : ∀ port ∈ ports, Identifier.isDeclarable port.name = true
  nodup : (ports.map (·.name)).Nodup
  apart : ∀ port ∈ ports, port.name ∉ taken

theorem freshNames_nil (taken : List String) : FreshNames taken [] := ⟨by simp, List.nodup_nil, by simp⟩

/-- Names are fresh exactly if the first one is and, with it taken, the others are. -/
theorem freshNames_cons_iff {taken : List String} {port : Port} {ports : List Port} : FreshNames taken (port :: ports) ↔
    Identifier.isDeclarable port.name = true ∧ port.name ∉ taken ∧ FreshNames (taken ++ [port.name]) ports := by
  constructor
  · intro h
    obtain ⟨hnew, hnodup⟩ := List.nodup_cons.1 h.nodup
    refine ⟨h.declarable port List.mem_cons_self, h.apart port List.mem_cons_self,
      fun other hm => h.declarable other (List.mem_cons_of_mem _ hm), hnodup, fun other hm => ?_⟩
    rw [List.mem_append, List.mem_singleton, not_or]
    refine ⟨h.apart other (List.mem_cons_of_mem _ hm), fun hsame => hnew ?_⟩
    exact List.mem_map.2 ⟨other, hm, hsame⟩
  · rintro ⟨hdeclarable, hapart, h⟩
    have hne : ∀ other ∈ ports, other.name ∉ taken ∧ other.name ≠ port.name := by
      intro other hm
      have happ := h.apart other hm
      rwa [List.mem_append, List.mem_singleton, not_or] at happ
    refine ⟨List.forall_mem_cons.2 ⟨hdeclarable, h.declarable⟩, List.nodup_cons.2 ⟨?_, h.nodup⟩,
      List.forall_mem_cons.2 ⟨hapart, fun other hm => (hne other hm).1⟩⟩
    intro hm
    obtain ⟨other, hother, hsame⟩ := List.mem_map.1 hm
    exact (hne other hother).2 hsame

/-- Ports that are fresh one section after the other are fresh in the other order. -/
theorem FreshNames.swap {ports others : List Port} (h : FreshNames [] ports) (h' : FreshNames (ports.map (·.name)) others) :
    FreshNames [] others ∧ FreshNames (others.map (·.name)) ports := by
  refine ⟨⟨h'.declarable, h'.nodup, by simp⟩, h.declarable, h.nodup, fun port hm hother => ?_⟩
  obtain ⟨other, hmo, hsame⟩ := List.mem_map.1 hother
  refine h'.apart other hmo ?_
  rw [hsame]
  exact List.mem_map_of_mem hm

namespace Reference

/-! ## What a section leaves behind -/

section Ports

variable (direction : Direction)

/-- The declarations of ports, with symbols from `start` on. -/
def portTerms : (start : Nat) → List Port → List Term
  | _, [] => []
  | start, port :: ports =>
    .node ((Head.ofSymbol direction.nodeKind port.type ⟨start⟩).named port.name) [] :: portTerms (start + 1) ports

def sectionTerm (start : Nat) (ports : List Port) : Term :=
  .node { kind := direction.sectionKind, type := .void } (portTerms direction start ports)

/-- The registers after ports have been declared. -/
def Registers.hold (registers : Registers) : (start : Nat) → List Port → Registers
  | _, [] => registers
  | start, port :: ports => (registers.set port.name (direction.handle port.type ⟨start⟩)).hold (start + 1) ports

/-- The handle of the port of a name. -/
def portHandle? (name : String) : (start : Nat) → List Port → Option Handle
  | _, [] => none
  | start, port :: ports =>
    if name == port.name then some (direction.handle port.type ⟨start⟩) else portHandle? name (start + 1) ports

/-- The machine after ports have been declared in the open section. -/
def Machine.declared (machine : Machine) (ports : List Port) : Machine where
  session :=
    { machine.session with
      current :=
        { machine.session.current with
          children := machine.session.current.children ++ portTerms direction machine.session.symbolCount ports }
      symbolCount := machine.session.symbolCount + ports.length
      names := machine.session.names ++ ports.map (·.name) }
  registers := machine.registers.hold direction machine.session.symbolCount ports

/-- The machine after a section has been opened. -/
def Machine.entered (machine : Machine) : Machine :=
  { machine with
    session :=
      { machine.session with
        current :=
          { head := { kind := direction.sectionKind, type := .void }, children := [], number := machine.session.opened }
        outer := machine.session.current :: machine.session.outer
        opened := machine.session.opened + 1 } }

/-- The machine after a section has declared ports and has been closed. -/
def Machine.withSection (machine : Machine) (ports : List Port) : Machine where
  session :=
    { machine.session with
      current := machine.session.current.add (sectionTerm direction machine.session.symbolCount ports)
      symbolCount := machine.session.symbolCount + ports.length
      names := machine.session.names ++ ports.map (·.name)
      opened := machine.session.opened + 1 }
  registers := machine.registers.hold direction machine.session.symbolCount ports

variable {direction}

theorem Machine.declared_nil (machine : Machine) : machine.declared direction [] = machine := by
  simp [declared, portTerms, Registers.hold]

/-- To declare one port and then the rest is to declare them all. -/
theorem Machine.declared_cons (machine : Machine) (port : Port) (ports : List Port) :
    (machine.declared direction [port]).declared direction ports = machine.declared direction (port :: ports) := by
  simp [declared, portTerms, Registers.hold, Nat.add_comm, Nat.add_left_comm]

/-- A name that is no port has no handle. -/
theorem portHandle?_of_not_mem {name : String} {ports : List Port} (h : name ∉ ports.map (·.name)) (start : Nat) :
    portHandle? direction name start ports = none := by
  induction ports generalizing start with
  | nil => rfl
  | cons port ports ih =>
    rw [List.map_cons, List.mem_cons, not_or] at h
    rw [portHandle?, beq_eq_false_iff_ne.2 h.1, ih h.2]
    rfl

/-- After ports are declared a name is looked up among them first, and then in the registers before. -/
theorem lookup_hold {ports : List Port} (h : (ports.map (·.name)).Nodup) (registers : Registers) (start : Nat) (name : String) :
    (registers.hold direction start ports).lookup name =
      (portHandle? direction name start ports).or (registers.lookup name) := by
  induction ports generalizing registers start with
  | nil => rfl
  | cons port ports ih =>
    obtain ⟨hnew, hnodup⟩ := List.nodup_cons.1 h
    rw [Registers.hold, ih hnodup, Registers.lookup_set, portHandle?]
    cases hname : name == port.name with
    | true =>
      obtain rfl := eq_of_beq hname
      rw [portHandle?_of_not_mem hnew]
      rfl
    | false => rfl

/-- Symbols from `start` on become those from `start'` on. -/
def Shifts (f : SymbolId → SymbolId) (start start' count : Nat) : Prop := ∀ i < count, f ⟨start + i⟩ = ⟨start' + i⟩

/-- What shifts a row of symbols shifts its tail. -/
theorem Shifts.tail {f : SymbolId → SymbolId} {start start' count : Nat} (h : Shifts f start start' (count + 1)) :
    Shifts f (start + 1) (start' + 1) count := by
  intro i hi
  have hshift := h (i + 1) (Nat.succ_lt_succ hi)
  rwa [show start + (i + 1) = start + 1 + i by omega, show start' + (i + 1) = start' + 1 + i by omega] at hshift

section Shifted

variable {f : SymbolId → SymbolId} {ports : List Port} {start start' : Nat}

/-- A shift of the symbols renames the terms of ports to those that start elsewhere. -/
theorem portTerms_rename (h : Shifts f start start' ports.length) :
    (portTerms direction start ports).map (Term.rename f) = portTerms direction start' ports := by
  induction ports generalizing start start' with
  | nil => rfl
  | cons port ports ih =>
    have hfirst : f ⟨start⟩ = ⟨start'⟩ := h 0 (Nat.zero_lt_succ _)
    rw [portTerms, portTerms, List.map_cons, ih h.tail, Term.rename_node, ← hfirst]
    rfl

/-- A shift of the symbols renames a section to the one that starts elsewhere. -/
theorem sectionTerm_rename (h : Shifts f start start' ports.length) :
    (sectionTerm direction start ports).rename f = sectionTerm direction start' ports := by
  rw [sectionTerm, sectionTerm, Term.rename_node, portTerms_rename h]
  rfl

/-- A shift of the symbols renames the handle of a port to the one that starts elsewhere. -/
theorem portHandle?_rename (h : Shifts f start start' ports.length) (name : String) :
    portHandle? direction name start' ports = (portHandle? direction name start ports).map (Handle.rename f) := by
  induction ports generalizing start start' with
  | nil => rfl
  | cons port ports ih =>
    have hfirst : f ⟨start⟩ = ⟨start'⟩ := h 0 (Nat.zero_lt_succ _)
    rw [portHandle?, portHandle?]
    split
    · rw [← hfirst]
      cases direction <;> rfl
    · exact ih h.tail

end Shifted

end Ports

/-! ## Running a section -/

section Run

variable {direction : Direction} {machine : Machine}

/-- In its section a name is declared exactly if it can be and is not taken. -/
theorem declare_eq {session : Session} {kind sectionKind : NodeKind} (hk : session.current.kind = sectionKind)
    (type : ValueType) (name : String) :
    Reference.declare kind sectionKind type name session =
      if Identifier.isDeclarable name = false then .error (.invalidName name) session
      else if name ∈ session.names then .error (.duplicateName name) session
      else .ok ⟨session.symbolCount⟩
        { session with
          current := session.current.add (.node ((Head.ofSymbol kind type ⟨session.symbolCount⟩).named name) [])
          symbolCount := session.symbolCount + 1
          names := session.names ++ [name] } := by
  show (if session.current.kind ≠ sectionKind then throw _ >>= _ else _ : Recorder SymbolId) session = _
  rw [if_neg (not_not.2 hk)]
  cases hd : Identifier.isDeclarable name with
  | false => rfl
  | true =>
    show (if session.names.contains name = true then throw _ >>= _ else _ : Recorder SymbolId) session = _
    by_cases hn : name ∈ session.names
    · rw [if_pos (List.contains_iff_mem.2 hn), if_neg (by simp), if_pos hn]
      rfl
    · rw [if_neg (mt List.contains_iff_mem.1 hn), if_neg (by simp), if_neg hn]
      rfl

/-- What declaring a port does to the session and the registers. -/
theorem action_call (port : Port) (registers : Registers) : ∃ action,
    callAction (direction.call port) (some port.name) registers = .ok action ∧ ∀ registers session,
      action registers session =
        if direction.admits port.type = false then .error .illTyped session
        else (Reference.declare direction.nodeKind direction.sectionKind port.type port.name >>= fun symbol =>
          pure (.handle (direction.handle port.type symbol),
            registers.set port.name (direction.handle port.type symbol)) : Recorder (Reply × Registers)) session := by
  cases direction with
  | input =>
    refine ⟨_, rfl, fun registers session => ?_⟩
    show ((if (!port.type.isNameable) = true then throw _ >>= _ else _ : Recorder Input) >>= _) session =
      if port.type.isNameable = false then _ else _
    cases port.type.isNameable with
    | false => rfl
    | true =>
      show (((Reference.declare .constVar .constData port.type port.name >>= _) >>= _ : Recorder _)) session = _
      rw [bind_assoc]
      rfl
  | output =>
    refine ⟨_, rfl, fun registers session => ?_⟩
    show ((if (!port.type.isNumeric) = true then throw _ >>= _ else _ : Recorder Value) >>= _) session =
      if port.type.isNumeric = false then _ else _
    cases port.type.isNumeric with
    | false => rfl
    | true =>
      show (((Reference.declare .outVar .outData port.type port.name >>= _) >>= _ : Recorder _)) session = _
      rw [bind_assoc]
      rfl

/-- Declaring one port in its section. -/
theorem runStep_declaring (hk : machine.session.current.kind = direction.sectionKind) (port : Port) :
    (runStep (direction.declaring port) machine).2 =
      if direction.admits port.type = false then (none, machine)
      else if Identifier.isDeclarable port.name = false then (some (.invalidName port.name), machine)
      else if port.name ∈ machine.session.names then (some (.duplicateName port.name), machine)
      else (none, machine.declared direction [port]) := by
  obtain ⟨action, hcall, haction⟩ := @action_call direction port machine.registers
  have hdeclare := @declare_eq machine.session direction.nodeKind direction.sectionKind hk port.type port.name
  have hact := haction machine.registers machine.session
  rw [Direction.declaring, runStep, hcall]
  by_cases hadmits : direction.admits port.type = false
  · rw [if_pos hadmits] at hact ⊢
    rw [act_of_error hact]
    rfl
  rw [if_neg hadmits] at hact ⊢
  by_cases hname : Identifier.isDeclarable port.name = false
  · rw [if_pos hname] at hdeclare ⊢
    rw [act_of_error (hact.trans (bind_of_error hdeclare))]
    rfl
  rw [if_neg hname] at hdeclare ⊢
  by_cases htaken : port.name ∈ machine.session.names
  · rw [if_pos htaken] at hdeclare ⊢
    rw [act_of_error (hact.trans (bind_of_error hdeclare))]
    rfl
  · rw [if_neg htaken] at hdeclare ⊢
    rw [act_of_ok (hact.trans (bind_of_ok hdeclare))]
    rfl

/-- Declaring ports in their section. Those of a type that cannot be declared are passed over. -/
theorem runAll_declaring (ports : List Port) (hk : machine.session.current.kind = direction.sectionKind) :
    (FreshNames machine.session.names (direction.admitted ports) →
      (runAll (ports.map direction.declaring) machine).2 =
        (none, machine.declared direction (direction.admitted ports))) ∧
    (¬FreshNames machine.session.names (direction.admitted ports) →
      ∃ error, (runAll (ports.map direction.declaring) machine).2.1 = some error ∧
        (StepError.trace error).ends? = some error) := by
  induction ports generalizing machine with
  | nil =>
    rw [List.map_nil, Direction.admitted, List.filter_nil, runAll, Machine.declared_nil]
    exact ⟨fun _ => rfl, fun h => absurd (freshNames_nil _) h⟩
  | cons port ports ih =>
    have hstep := runStep_declaring hk port
    rw [List.map_cons, Direction.admitted, List.filter_cons, runAll]
    generalize runStep (direction.declaring port) machine = run at hstep
    obtain ⟨entry, ended, machine'⟩ := run
    cases hadmits : direction.admits port.type with
    | false =>
      rw [if_pos hadmits] at hstep
      obtain ⟨rfl, rfl⟩ := Prod.mk.inj hstep
      exact ih hk
    | true =>
      rw [if_neg (by simp [hadmits])] at hstep
      rw [if_pos rfl, freshNames_cons_iff]
      cases hdeclarable : Identifier.isDeclarable port.name with
      | false =>
        rw [if_pos hdeclarable] at hstep
        obtain ⟨rfl, rfl⟩ := Prod.mk.inj hstep
        exact ⟨fun h => absurd h.1 (by simp), fun _ => ⟨_, rfl, rfl⟩⟩
      | true =>
        rw [if_neg (by simp [hdeclarable])] at hstep
        by_cases htaken : port.name ∈ machine.session.names
        · rw [if_pos htaken] at hstep
          obtain ⟨rfl, rfl⟩ := Prod.mk.inj hstep
          exact ⟨fun h => absurd htaken h.2.1, fun _ => ⟨_, rfl, rfl⟩⟩
        · rw [if_neg htaken] at hstep
          obtain ⟨rfl, rfl⟩ := Prod.mk.inj hstep
          obtain ⟨hok, herror⟩ := @ih (machine.declared direction [port]) hk
          refine ⟨fun h => (hok h.2.2).trans ?_, fun h => herror fun hfresh => h ⟨rfl, htaken, hfresh⟩⟩
          rw [Machine.declared_cons]
          rfl

/-- A section that is not there yet is opened in the program. -/
theorem act_enter (hk : machine.session.current.kind = .program) (ho : machine.session.outer = [])
    (hnew : direction.sectionKind ∉ machine.session.current.children.map Term.kind) :
    machine.act (.ok (answers .done (enter direction.sectionKind))) = (.ok .done, machine.entered direction) := by
  have htree : machine.session.tree.children = machine.session.current.children := by
    rw [Session.tree, ho]
    rfl
  have hcheck : checkSection direction.sectionKind machine.session = .ok () machine.session := by
    show (if machine.session.current.kind ≠ .program then throw _ >>= _ else _ : Recorder Unit) machine.session = _
    rw [if_neg (not_not.2 hk)]
    show (if (machine.session.tree.children.map Term.kind).contains direction.sectionKind = true then throw _ else _ :
      Recorder Unit) machine.session = _
    rw [htree, if_neg (mt List.contains_iff_mem.1 hnew)]
    rfl
  have henter : enter direction.sectionKind machine.session = .ok () (machine.entered direction).session := by
    cases direction with
    | input => exact bind_of_ok hcheck
    | output => exact bind_of_ok hcheck
  have hanswer : answers .done (enter direction.sectionKind) machine.registers machine.session =
      .ok (.done, machine.registers) (machine.entered direction).session := bind_of_ok henter
  exact act_of_ok hanswer

/-- The section is closed as the block that was opened. -/
theorem leave_entered (ports : List Port) :
    ((machine.entered direction).declared direction ports).leave (machine.entered direction).session.current =
      (.ok .done, machine.withSection direction ports) := by
  have hleave : Reference.leave (machine.entered direction).session.current
      ((machine.entered direction).declared direction ports).session = .ok () (machine.withSection direction ports).session := by
    show (if machine.session.opened ≠ machine.session.opened then throw _ >>= _ else exit : Recorder Unit) _ = _
    rw [if_neg (not_not.2 rfl), exit_eq]
    rfl
  have hanswer : answers .done (Reference.leave (machine.entered direction).session.current)
      ((machine.entered direction).declared direction ports).registers
      ((machine.entered direction).declared direction ports).session =
      .ok (.done, (machine.withSection direction ports).registers) (machine.withSection direction ports).session :=
    bind_of_ok hleave
  exact act_of_ok hanswer

/-- A section that is opened for the first time declares its ports, if their names are fresh. -/
theorem runStep_section (ports : List Port) (hk : machine.session.current.kind = .program) (ho : machine.session.outer = [])
    (hnew : direction.sectionKind ∉ machine.session.current.children.map Term.kind) :
    (FreshNames machine.session.names (direction.admitted ports) →
      (runStep (direction.sectionStep ports) machine).2 =
        (none, machine.withSection direction (direction.admitted ports))) ∧
    (¬FreshNames machine.session.names (direction.admitted ports) →
      (runStep (direction.sectionStep ports) machine).2.1 ≠ none) := by
  have hopen : machine.act (openingAction (.enter direction.sectionKind) none machine.registers) =
      (.ok .done, machine.entered direction) := act_enter hk ho hnew
  obtain ⟨hok, herror⟩ := @runAll_declaring direction (machine.entered direction) ports rfl
  rw [Direction.sectionStep, runStep, hopen]
  refine ⟨fun h => ?_, fun h => ?_⟩
  · have hrun := hok h
    have hleave := @leave_entered direction machine (direction.admitted ports)
    dsimp only
    generalize runAll (ports.map direction.declaring) (machine.entered direction) = run at hrun
    obtain ⟨entries, ended, after⟩ := run
    obtain ⟨rfl, rfl⟩ := Prod.mk.inj hrun
    dsimp only
    rw [hleave]
    rfl
  · obtain ⟨error, hended, hends⟩ := herror h
    dsimp only
    generalize runAll (ports.map direction.declaring) (machine.entered direction) = run at hended
    obtain ⟨entries, ended, after⟩ := run
    obtain rfl : ended = some error := hended
    show (StepError.trace error).ends? ≠ none
    rw [hends]
    exact Option.some_ne_none error

/-- After a step that succeeds the rest of the body is run. -/
theorem runAll_cons_of_none {step : Step} {steps : List Step} {after : Machine}
    (h : (runStep step machine).2 = (none, after)) : (runAll (step :: steps) machine).2 = (runAll steps after).2 := by
  rw [runAll]
  generalize runStep step machine = run at h
  obtain ⟨entry, ended, machine'⟩ := run
  obtain ⟨rfl, rfl⟩ := Prod.mk.inj h
  rfl

/-- A step that fails makes the body fail. -/
theorem runAll_cons_of_some {step : Step} (steps : List Step) (h : (runStep step machine).2.1 ≠ none) :
    (runAll (step :: steps) machine).2.1 ≠ none := by
  rw [runAll]
  generalize runStep step machine = run at h
  obtain ⟨entry, ended, machine'⟩ := run
  cases ended with
  | none => exact absurd rfl h
  | some error => exact Option.some_ne_none error

end Run

/-- The machine after a kernel has opened two sections. -/
def twoSections (first second : Direction) (ports others : List Port) : Machine :=
  (Machine.start.withSection first ports).withSection second others

/-- Two sections, one after the other, and what follows them. -/
theorem runAll_sections {first second : Direction} (hne : first ≠ second) (ports others : List Port) (rest : List Step) :
    (FreshNames [] (first.admitted ports) → FreshNames ((first.admitted ports).map (·.name)) (second.admitted others) →
      (runAll (first.sectionStep ports :: second.sectionStep others :: rest) .start).2 =
        (runAll rest (twoSections first second (first.admitted ports) (second.admitted others))).2) ∧
    (¬(FreshNames [] (first.admitted ports) ∧ FreshNames ((first.admitted ports).map (·.name)) (second.admitted others)) →
      (runAll (first.sectionStep ports :: second.sectionStep others :: rest) .start).2.1 ≠ none) := by
  obtain ⟨hok, herror⟩ := @runStep_section first .start ports rfl rfl (by simp [Machine.start, Session.start])
  have hnew : second.sectionKind ∉ [first.sectionKind] := by
    cases first <;> cases second <;> first | exact absurd rfl hne | decide
  obtain ⟨hok', herror'⟩ :=
    @runStep_section second (Machine.start.withSection first (first.admitted ports)) others rfl rfl hnew
  refine ⟨fun h h' => ?_, fun h => ?_⟩
  · rw [runAll_cons_of_none (hok h), runAll_cons_of_none (hok' h')]
    rfl
  · by_cases hfirst : FreshNames [] (first.admitted ports)
    · rw [runAll_cons_of_none (hok hfirst)]
      exact runAll_cons_of_some rest (herror' fun hsecond => h ⟨hfirst, hsecond⟩)
    · exact runAll_cons_of_some _ (herror hfirst)

/-! ## Swapping two sections -/

/-- The first `count` symbols change places with the `count'` symbols after them. -/
def swapSymbol (count count' : Nat) (symbol : SymbolId) : SymbolId :=
  if symbol.index < count then ⟨count' + symbol.index⟩
  else if symbol.index < count + count' then ⟨symbol.index - count⟩
  else symbol

/-- The swap moves the symbols of the two sections only. -/
theorem swapSymbol_of_le {count count' : Nat} {symbol : SymbolId} (h : count + count' ≤ symbol.index) :
    swapSymbol count count' symbol = symbol := by
  rw [swapSymbol, if_neg (by omega), if_neg (by omega)]

/-- The swap takes different symbols to different ones. -/
theorem swapSymbol_injective (count count' : Nat) : Function.Injective (swapSymbol count count') := by
  rintro ⟨i⟩ ⟨j⟩ h
  have hindex := congrArg SymbolId.index h
  unfold swapSymbol at hindex
  dsimp only at hindex
  refine congrArg SymbolId.mk ?_
  split_ifs at hindex <;> dsimp only at hindex <;> omega

/-- The swap shifts the symbols of the first section behind those of the second. -/
theorem swapSymbol_shifts_first (count count' : Nat) : Shifts (swapSymbol count count') 0 count' count := by
  intro i hi
  rw [swapSymbol, if_pos (by simpa using hi), Nat.zero_add]

/-- The swap shifts the symbols of the second section to the front. -/
theorem swapSymbol_shifts_second (count count' : Nat) : Shifts (swapSymbol count count') count 0 count' := by
  intro i hi
  rw [swapSymbol, if_neg (by simp), if_pos (by simpa using hi)]
  exact congrArg SymbolId.mk (by dsimp only; omega)

/-- The renaming between kernels with two sections in either order. -/
def swapping (first second : Direction) (ports others : List Port) : Renaming where
  rename := swapSymbol ports.length others.length
  bound := ports.length + others.length
  fixed := fun _ h => swapSymbol_of_le h
  sections := [sectionTerm first 0 ports, sectionTerm second ports.length others]
  sections' := [sectionTerm second 0 others, sectionTerm first others.length ports]
  kinds := .swap _ _ _
  isSection := by
    show ∀ kind ∈ [first.sectionKind, second.sectionKind], _
    simp [Direction.isSection_sectionKind]

/-- Two sections that are swapped are the same ones renamed, in the other order. -/
theorem sections_swapping (first second : Direction) (ports others : List Port) :
    (swapping first second ports others).sections'.Perm
      ((swapping first second ports others).sections.map (Term.rename (swapping first second ports others).rename)) := by
  show List.Perm _ [_, _]
  rw [swapping, sectionTerm_rename (swapSymbol_shifts_first _ _), sectionTerm_rename (swapSymbol_shifts_second _ _)]
  exact .swap _ _ _

/-- The registers after two sections. -/
theorem lookup_twoSections (first second : Direction) {ports others : List Port} (h : FreshNames [] ports)
    (h' : FreshNames (ports.map (·.name)) others) (name : String) :
    (twoSections first second ports others).registers.lookup name =
      (portHandle? second name ports.length others).or (portHandle? first name 0 ports) := by
  have hsecond := @lookup_hold second others h'.nodup (Registers.hold first [] 0 ports) ports.length name
  have hfirst := @lookup_hold first ports h.nodup [] 0 name
  rw [List.lookup_nil, Option.or_none] at hfirst
  rw [hfirst] at hsecond
  rw [← hsecond, twoSections, Machine.withSection, Machine.withSection]
  simp [Machine.start, Session.start]

/-- Kernels that have declared the same in either order are at the same point. -/
theorem twoSections_swap (first second : Direction) {ports others : List Port} (h : FreshNames [] ports)
    (h' : FreshNames (ports.map (·.name)) others) :
    RenamedMachine (swapping first second ports others) (twoSections first second ports others)
      (twoSections second first others ports) := by
  refine ⟨⟨.program ⟨rfl, rfl, [], ?_, ?_⟩, ?_, ?_, ?_, rfl⟩, fun name => ?_⟩
  · simp [twoSections, swapping, Machine.withSection, Machine.start, Session.start, Block.add]
  · simp [twoSections, swapping, Machine.withSection, Machine.start, Session.start, Block.add]
  · simp [twoSections, Machine.withSection, Machine.start, Session.start, Nat.add_comm]
  · simp [twoSections, swapping, Machine.withSection, Machine.start, Session.start]
  · intro name
    simp [twoSections, Machine.withSection, Machine.start, Session.start, or_comm]
  · obtain ⟨hothers, hports⟩ := h.swap h'
    have hfirst := @portHandle?_rename first _ _ _ _ (swapSymbol_shifts_first ports.length others.length) name
    have hsecond := @portHandle?_rename second _ _ _ _ (swapSymbol_shifts_second ports.length others.length) name
    rw [lookup_twoSections first second h h', lookup_twoSections second first hothers hports, hfirst, hsecond, ← Option.map_or]
    -- no name is declared in both sections, so it does not matter which of them is asked first
    refine congrArg (Option.map _) ?_
    by_cases hm : name ∈ ports.map (·.name)
    · have hnot : name ∉ others.map (·.name) := by
        intro hother
        obtain ⟨other, hmo, rfl⟩ := List.mem_map.1 hother
        exact h'.apart other hmo hm
      rw [portHandle?_of_not_mem hnot, Option.or_none, Option.none_or]
    · rw [portHandle?_of_not_mem hm, Option.or_none, Option.none_or]

/-- Every symbol of the ports is that of one of their terms. -/
theorem exists_mem_portTerms (direction : Direction) {ports : List Port} {i : Nat} (h : i < ports.length) (start : Nat) :
    ∃ term ∈ portTerms direction start ports, term.head.symbol? = some ⟨start + i⟩ := by
  induction ports generalizing start i with
  | nil => exact absurd h (Nat.not_lt_zero i)
  | cons port ports ih =>
    cases i with
    | zero => exact ⟨_, List.mem_cons_self, rfl⟩
    | succ i =>
      obtain ⟨term, hm, hs⟩ := ih (Nat.lt_of_succ_lt_succ h) (start + 1)
      exact ⟨term, List.mem_cons_of_mem _ hm, by rw [hs, Nat.add_assoc, Nat.add_comm 1]⟩

/-- The symbols of the ports of a section are declared in the program. -/
theorem exists_mem_declared {root : Term} {direction : Direction} {start : Nat} {ports : List Port}
    (h : sectionTerm direction start ports ∈ root.children) {i : Nat} (hi : i < ports.length) :
    (⟨start + i⟩ : SymbolId) ∈ (Glsl.declared root).filterMap (·.head.symbol?) := by
  obtain ⟨term, hm, hs⟩ := exists_mem_portTerms direction hi start
  have hbelow : term ∈ Glsl.below root direction.sectionKind :=
    List.mem_flatMap.2 ⟨_, List.mem_filter.2 ⟨h, beq_self_eq_true _⟩, hm⟩
  refine List.mem_filterMap.2 ⟨term, ?_, hs⟩
  cases direction with
  | input => exact List.mem_append_left _ hbelow
  | output => exact List.mem_append_right _ hbelow

end Reference

/-! ## Compiling -/

/-- A recording that did not end with an error has a program exactly if its blocks are closed and its tree has a shader. -/
theorem compile_none_eq_ok_iff {session : Session} {tree : Tree} (htree : session.arena.tree Session.root = .ok tree)
    (config : Glsl.Config) (program : Program) :
    session.compile none config = .ok program ↔
      session.outer = [] ∧ ∃ shader, Glsl.shaderOf tree = .ok shader ∧ program = shader.program config := by
  unfold Session.compile Session.finish
  cases session.outer with
  | cons block outer => simp [Except.mapError, Bind.bind, Except.bind]
  | nil =>
    show (Glsl.generate config session.arena Session.root).mapError CompileError.generate = .ok program ↔ _
    have hgenerate : (Glsl.generate config session.arena Session.root).mapError CompileError.generate = .ok program ↔
        Glsl.generate config session.arena Session.root = .ok program := by
      cases Glsl.generate config session.arena Session.root <;> simp [Except.mapError]
    rw [hgenerate, Glsl.generate_eq_ok_iff]
    constructor
    · rintro ⟨found, shader, hfound, hshader, rfl⟩
      obtain rfl : tree = found := Except.ok.inj (htree.symm.trans hfound)
      exact ⟨rfl, shader, hshader, rfl⟩
    · rintro ⟨-, shader, hshader, rfl⟩
      exact ⟨tree, shader, htree, hshader, rfl⟩

/-- What a script compiles to, by what it records by value. -/
theorem exists_tree_compile (steps : List Step) (config : Glsl.Config) :
    ∃ tree : Tree, tree.term = (Reference.runAll steps .start).2.2.session.tree ∧ ∀ program,
      (Script.compile steps config).2 = .ok program ↔ (Reference.runAll steps .start).2.1 = none ∧
        (Reference.runAll steps .start).2.2.session.outer = [] ∧
          ∃ shader, Glsl.shaderOf tree = .ok shader ∧ program = shader.program config := by
  have hrun := Refinement.steps_same steps Refinement.start_same
  obtain ⟨tree, htree, hterm⟩ := hrun.same.session.tree
  have hended := hrun.ended
  have houter : (Script.runAll steps .start).2.2.session.outer = [] ↔
      (Reference.runAll steps .start).2.2.session.outer = [] := by
    obtain ⟨frame, frames, hm⟩ := hrun.same.session
    rw [hm.outer, hm.modelOuter, List.map_eq_nil_iff, List.map_eq_nil_iff]
  refine ⟨tree, hterm, fun program => ?_⟩
  rw [← houter, ← hended, Script.compile]
  generalize Script.runAll steps .start = run at *
  obtain ⟨entries, ended, machine⟩ := run
  cases ended with
  | some error => simp [Session.compile, Bind.bind, Except.bind]
  | none => exact (compile_none_eq_ok_iff htree config program).trans (by simp)

/-- Trees of corresponding sessions have the same program. -/
theorem exists_shaderOf_swapped {first second : Direction} {ports others : List Port} {session session' : Reference.Session}
    (h : Reference.Corresponds (Reference.swapping first second ports others) session session') {tree tree' : Tree}
    (ht : tree.term = session.tree) (ht' : tree'.term = session'.tree) {shader : Glsl.Shader}
    (hs : Glsl.shaderOf tree = .ok shader) :
    ∃ shader', Glsl.shaderOf tree' = .ok shader' ∧ ∀ config, shader'.program config = shader.program config := by
  obtain ⟨main, hmade⟩ := Glsl.shaderOf_eq_ok_iff.1 hs
  obtain ⟨hhead, rest, hchildren, hchildren'⟩ := h.blocks.plug
  have hkind : tree'.kind = tree.kind := by
    rw [← Tree.term_kind, ← Tree.term_kind, ht, ht']
    exact (congrArg Head.kind hhead :)
  have hroot : (tree'.children.map Tree.term).Perm ((tree.children.map Tree.term).map
      (Term.rename (Reference.swapSymbol ports.length others.length))) := by
    rw [← Tree.term_children, ← Tree.term_children, ht, ht', Reference.Session.tree, Reference.Session.tree, hchildren,
      hchildren', List.map_append]
    exact (Reference.sections_swapping first second ports others).append_right _
  have hfix : ∀ symbol, symbol ∉ (shader.inputs ++ shader.outputs).map (·.symbol) →
      Reference.swapSymbol ports.length others.length symbol = symbol := by
    intro symbol hnot
    rw [← (Glsl.declared_eq hmade.once hmade.inputs hmade.outputs).1, ht, Reference.Session.tree] at hnot
    refine Reference.swapSymbol_of_le (not_lt.1 fun hlt => hnot ?_)
    -- every symbol below the bound is that of a port
    have hfirst : Reference.sectionTerm first 0 ports ∈ (Reference.plug session.current session.outer).children := by
      rw [hchildren]
      exact List.mem_append_left rest List.mem_cons_self
    have hsecond : Reference.sectionTerm second ports.length others ∈
        (Reference.plug session.current session.outer).children := by
      rw [hchildren]
      exact List.mem_append_left rest (List.mem_cons_of_mem _ List.mem_cons_self)
    by_cases hports : symbol.index < ports.length
    · have hmem := Reference.exists_mem_declared hfirst hports
      rwa [Nat.zero_add] at hmem
    · have hothers : symbol.index - ports.length < others.length := by omega
      have hmem := Reference.exists_mem_declared hsecond hothers
      rwa [Nat.add_sub_cancel' (not_lt.1 hports)] at hmem
  obtain ⟨main', shader', hmade', hprogram⟩ :=
    hmade.renamed (Reference.swapSymbol_injective ports.length others.length) hkind hroot hfix
  exact ⟨shader', Glsl.shaderOf_eq_ok_iff.2 ⟨main', hmade'⟩, hprogram⟩

/-- A kernel that compiles compiles to the same with its sections swapped. -/
theorem compile_of_swapped {first second : Direction} (hne : first ≠ second) (ports others : List Port) (body : List Step)
    (config : Glsl.Config) {program : Program}
    (h : (Script.compile [first.sectionStep ports, second.sectionStep others, mainStep body] config).2 = .ok program) :
    (Script.compile [second.sectionStep others, first.sectionStep ports, mainStep body] config).2 = .ok program := by
  obtain ⟨tree, hterm, hcompile⟩ :=
    exists_tree_compile [first.sectionStep ports, second.sectionStep others, mainStep body] config
  obtain ⟨tree', hterm', hcompile'⟩ :=
    exists_tree_compile [second.sectionStep others, first.sectionStep ports, mainStep body] config
  obtain ⟨hended, houter, shader, hshader, rfl⟩ := (hcompile program).1 h
  obtain ⟨hrun, hfailed⟩ := Reference.runAll_sections hne ports others [mainStep body]
  obtain ⟨hfirst, hsecond⟩ := not_not.1 fun hnot => hfailed hnot hended
  obtain ⟨hsecond', hfirst'⟩ := hfirst.swap hsecond
  have hrun' := (Reference.runAll_sections hne.symm others ports [mainStep body]).1 hsecond' hfirst'
  rw [hrun hfirst hsecond] at hterm hended houter
  rw [hcompile', hrun']
  rw [hrun'] at hterm'
  obtain ⟨hended', hsame⟩ :=
    Reference.runAll_renamed [mainStep body] (Reference.twoSections_swap first second hfirst hsecond)
  generalize Reference.runAll [mainStep body] (Reference.twoSections first second _ _) = run at *
  generalize Reference.runAll [mainStep body] (Reference.twoSections second first _ _) = run' at *
  obtain ⟨shader', hshader', hprogram⟩ := exists_shaderOf_swapped hsame.session hterm hterm' hshader
  refine ⟨hended'.trans hended, ?_, shader', hshader', (hprogram config).symm⟩
  have hlength := hsame.session.blocks.length
  rw [houter] at hlength
  simpa using hlength

/-- It does not matter in which order a kernel declares its inputs and its outputs. For all inputs, all outputs and every body of
its main section, which holds the handles under their declared names, the kernel compiles to the same program in either order,
with the same text and the same tables of inputs and outputs, or it does not compile in either. -/
theorem compile_sections_commute (inputs outputs : List Port) (body : List Step) (config : Glsl.Config) :
    (Script.compile [Direction.input.sectionStep inputs, Direction.output.sectionStep outputs, mainStep body] config).2.toOption =
      (Script.compile [Direction.output.sectionStep outputs, Direction.input.sectionStep inputs, mainStep body]
        config).2.toOption := by
  ext program
  rw [toOption_eq_some_iff, toOption_eq_some_iff]
  exact ⟨compile_of_swapped (by decide) inputs outputs body config,
    compile_of_swapped (by decide) outputs inputs body config⟩

example : (Script.compile [Direction.output.sectionStep [⟨.float, "level"⟩], Direction.input.sectionStep [⟨.float, "gain"⟩],
    mainStep [.call (.assign "level" (.register "gain")) none false]] {}).2.toOption.map Program.source =
      some ("#version 330\n\nuniform float gain;\n\nlayout(location = 0) out float level;\n\n" ++
        "void main()\n\x7b\n    level = gain;\n\x7d\n") := by
  decide +kernel

end ShaderTrace
