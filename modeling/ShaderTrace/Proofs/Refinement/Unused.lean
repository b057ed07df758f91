import ShaderTrace.Compile
import ShaderTrace.Proofs.Blocks.Outcomes
import ShaderTrace.Proofs.Generator.Numbering
import ShaderTrace.Proofs.Listing
import ShaderTrace.Proofs.Refinement.Script

/-!
# Computations that nobody uses

An expression whose result is not used leaves no trace. It may take over nodes that handles still stand for, so that later uses
copy what they would have adopted, and all later nodes get other numbers; but by value it changes nothing. So one more call
at any point of a script leaves what every other step answers, how the recording ends, and what is made of it
(`unused_call_harmless`).
-/

namespace ShaderTrace

namespace Script

/-- The call builds an expression: it records no statement and gives out no symbol. -/
def Call.isPure : Call → Bool
  | .express .. | .sample1d .. | .sample2d .. => true
  | _ => false

/-- A point in a script: before its first step, or in what comes after the first step, or in the body of the first step. -/
inductive Point where
  | here
  | next (point : Point)
  | inside (point : Point)

namespace Point

variable {α : Type}

/-- Changes what comes from a point on, in rows of items that may have rows of items in them. -/
def edit (onBody : (List α → List α) → α → α) (change : List α → List α) : Point → List α → List α
  | here, items => change items
  | next point, item :: items => item :: point.edit onBody change items
  | inside point, item :: items => onBody (point.edit onBody change) item :: items
  | next _, [] | inside _, [] => []

end Point

def Step.onBody (change : List Step → List Step) : Step → Step
  | step@(.call ..) => step
  | .block opening result body caught => .block opening result (change body) caught
  | .repeated times body caught => .repeated times (change body) caught

def Entry.onBody (change : List Entry → List Entry) : Entry → Entry
  | .mk outcome after body => .mk outcome after (body.map change)

/-- One more call at a point. Nobody takes its result, and nobody heeds its error. -/
def Point.addUnused (point : Point) (call : Call) : List Step → List Step :=
  point.edit Step.onBody (.call call none true :: ·)

section Steps

variable (point : Point) (call : Call) (step : Step) (steps : List Step)

theorem Point.addUnused_here : here.addUnused call steps = .call call none true :: steps := rfl

theorem Point.addUnused_next : point.next.addUnused call (step :: steps) = step :: point.addUnused call steps := rfl

theorem Point.addUnused_inside :
    point.inside.addUnused call (step :: steps) = step.onBody (point.addUnused call) :: steps := rfl

end Steps

/-- The records without that of the step at a point. -/
def Point.erase (point : Point) : List Entry → List Entry := point.edit Entry.onBody List.tail

end Script

namespace Reference

open Script (Call Point Step StepError)

def Entry.onBody (change : List Entry → List Entry) : Entry → Entry
  | .mk outcome after body => .mk outcome after (body.map change)

def erase (point : Point) : List Entry → List Entry := point.edit Entry.onBody List.tail

/-! ## By value nothing happens -/

/-- An action that changes nothing, and whose answer nobody takes. -/
theorem act_quiet (machine : Machine) {x : Recorder Value} (hx : Blocks.Quiet x) :
    (machine.act (.ok (yields none x))).2 = machine := by
  have hquiet := hx machine.session
  simp only [Machine.act, EStateM.run, yields]
  cases hresult : x machine.session with
  | ok value session =>
    rw [hresult] at hquiet
    obtain rfl : session = machine.session := hquiet
    rw [bind_of_ok hresult]
    rfl
  | error error session =>
    rw [hresult] at hquiet
    obtain ⟨rfl, -⟩ := hquiet
    rw [bind_of_error hresult]

/-- Looking up registers changes nothing. -/
theorem act_looked (machine : Machine) {α : Type} {found : Except StepError α} {action : α → Except StepError Action}
    (h : ∀ a, (machine.act (action a)).2 = machine) : (machine.act (found >>= action)).2 = machine := by
  cases found with
  | error e => rfl
  | ok a => exact h a

/-- A call that builds an expression changes nothing, unless somebody takes its result. -/
theorem act_unused (machine : Machine) {call : Call} (h : call.isPure = true) :
    (machine.act (callAction call none machine.registers)).2 = machine := by
  cases call with
  | express operator operands =>
    exact act_looked machine fun operands => act_quiet machine (Blocks.express_quiet operator operands)
  | sample1d buffer index =>
    exact act_looked machine fun buffer => act_looked machine fun index =>
      act_quiet machine (Blocks.express_quiet .sample1d [.ofInput buffer, index])
  | sample2d buffer x y =>
    exact act_looked machine fun buffer => act_looked machine fun x => act_looked machine fun y =>
      act_quiet machine (Blocks.express_quiet .sample2d [.ofInput buffer, x, y])
  | _ => cases h

/-- A step whose result is not used changes neither the session nor the registers. -/
theorem runStep_unused (machine : Machine) {call : Call} (h : call.isPure = true) :
    ∃ entry, runStep (.call call none true) machine = (entry, none, machine) := by
  have hact := act_unused machine h
  rw [runStep]
  generalize machine.act (callAction call none machine.registers) = answer at *
  obtain ⟨outcome, after⟩ := answer
  obtain rfl : after = machine := hact
  cases outcome <;> exact ⟨_, rfl⟩

/-- The changed steps leave the same behind as the steps, and the same records but for the change. -/
def SameRun (change : List Step → List Step) (restore : List Entry → List Entry) : Prop :=
  ∀ steps machine, runAll steps machine = (restore (runAll (change steps) machine).1, (runAll (change steps) machine).2)

/-- A step whose body is changed without effect runs as before, with the log of its body restored. -/
theorem runStep_onBody {change : List Step → List Step} {restore : List Entry → List Entry} (h : SameRun change restore)
    (hnil : restore [] = []) (step : Step) (machine : Machine) :
    runStep step machine =
      ((runStep (step.onBody change) machine).1.onBody restore, (runStep (step.onBody change) machine).2) := by
  cases step with
  | call call result caught => rfl
  | block opening result body caught =>
    rw [Step.onBody, runStep, runStep]
    generalize machine.act (openingAction opening result machine.registers) = answer
    obtain ⟨outcome, opened⟩ := answer
    cases outcome with
    | error e => simp [Machine.entry, Entry.onBody, hnil]
    | ok reply =>
      simp only
      rw [h body opened]
      generalize runAll (change body) opened = run
      obtain ⟨entries, ended, after⟩ := run
      cases ended <;> rfl
  | repeated times body caught =>
    have hbody : (fun machine => (runAll body machine).2) = fun machine => (runAll (change body) machine).2 :=
      funext fun machine => by rw [h body machine]
    rw [Step.onBody, runStep, runStep, hbody]
    rfl

theorem erase_nil (point : Point) : erase point [] = [] := by
  cases point <;> rfl

/-- An unused step that is added to a body has no effect, and its entry in the log alone is new. -/
theorem runAll_addUnused {call : Call} (h : call.isPure = true) (point : Point) :
    SameRun (point.addUnused call) (erase point) := by
  induction point with
  | here =>
    intro steps machine
    obtain ⟨entry, hstep⟩ := runStep_unused machine h
    rw [Point.addUnused_here, runAll, hstep]
    rfl
  | next point ih =>
    rintro (_ | ⟨step, steps⟩) machine
    · rfl
    · rw [Point.addUnused_next, runAll, runAll]
      generalize runStep step machine = run
      obtain ⟨entry, ended, after⟩ := run
      cases ended with
      | some e => exact congrArg (fun entries => (entry :: entries, some e, after)) (erase_nil point).symm
      | none =>
        simp only
        rw [ih steps after]
        rfl
  | inside point ih =>
    rintro (_ | ⟨step, steps⟩) machine
    · rfl
    · rw [Point.addUnused_inside, runAll, runAll, runStep_onBody ih (erase_nil point) step machine]
      generalize runStep (step.onBody (point.addUnused call)) machine = run
      obtain ⟨entry, ended, after⟩ := run
      cases ended <;> rfl

/-- An unused step that is added to a script has no effect, and its entry in the log alone is new. -/
theorem runEvery_addUnused {call : Call} (h : call.isPure = true) (point : Point) : ∀ (steps : List Step) (machine : Machine),
    runEvery steps machine = (erase point (runEvery (point.addUnused call steps) machine).1,
      (runEvery (point.addUnused call steps) machine).2) := by
  induction point with
  | here =>
    intro steps machine
    obtain ⟨entry, hstep⟩ := runStep_unused machine h
    rw [Point.addUnused_here, runEvery, hstep]
    rfl
  | next point ih =>
    rintro (_ | ⟨step, steps⟩) machine
    · rfl
    · rw [Point.addUnused_next, runEvery, runEvery]
      simp only
      rw [ih steps]
      rfl
  | inside point ih =>
    rintro (_ | ⟨step, steps⟩) machine
    · rfl
    · rw [Point.addUnused_inside, runEvery, runEvery, runStep_onBody (runAll_addUnused h point) (erase_nil point) step machine]
      rfl

end Reference

namespace Refinement

open Script (Call Point Step)

/-- Entries stay the same when their bodies are changed alike. -/
theorem SameEntry.onBody {arena : Arena} {change : List Script.Entry → List Script.Entry}
    {change' : List Reference.Entry → List Reference.Entry}
    (hc : ∀ entries others, SameEntries arena entries others → SameEntries arena (change entries) (change' others))
    {entry : Script.Entry} {other : Reference.Entry} (h : SameEntry arena entry other) :
    SameEntry arena (entry.onBody change) (other.onBody change') := by
  obtain ⟨outcome, after, body⟩ := entry
  obtain ⟨outcome', after', body'⟩ := other
  rw [SameEntry] at h
  rw [Script.Entry.onBody, Reference.Entry.onBody, SameEntry]
  refine ⟨h.1, h.2.1, ?_⟩
  have hbody := h.2.2
  cases body with
  | none =>
    cases body' with
    | none => exact hbody
    | some others => exact hbody.elim
  | some entries =>
    cases body' with
    | none => exact hbody.elim
    | some others => exact hc entries others hbody

/-- Logs stay the same when the same entry is erased. -/
theorem SameEntries.erase {arena : Arena} (point : Point) : ∀ (entries : List Script.Entry) (others : List Reference.Entry),
    SameEntries arena entries others → SameEntries arena (point.erase entries) (Reference.erase point others) := by
  induction point with
  | here =>
    rintro (_ | ⟨entry, entries⟩) (_ | ⟨other, others⟩) h
    · exact h
    · exact h.elim
    · exact h.elim
    · exact h.2
  | next point ih =>
    rintro (_ | ⟨entry, entries⟩) (_ | ⟨other, others⟩) h
    · exact h
    · exact h.elim
    · exact h.elim
    · exact ⟨h.1, ih entries others h.2⟩
  | inside point ih =>
    rintro (_ | ⟨entry, entries⟩) (_ | ⟨other, others⟩) h
    · exact h
    · exact h.elim
    · exact h.elim
    · exact ⟨h.1.onBody ih, h.2⟩

end Refinement

/-- What can be seen of a finished recording, but for the numbers of nodes: the number of symbols, the text of its tree, and its
program. -/
def Source.shown (config : Glsl.Config) (style : DumpStyle) (source : Source) :
    Nat × Except ArenaError String × Except GenerateError Program :=
  (source.symbolCount, source.dump style, (source.generate config).mapError GenerateError.unnumbered)

namespace Refinement

open Script (Call Point Step)

/-- The same is seen of sessions that are the same by value. -/
theorem shown_eq {session session' : Session} {model : Reference.Session} (h : Related session model)
    (h' : Related session' model) (config : Glsl.Config) (style : DumpStyle) :
    Source.shown config style ⟨session'.arena, session'.symbolCount⟩ =
      Source.shown config style ⟨session.arena, session.symbolCount⟩ := by
  obtain ⟨tree, htree, hterm⟩ := h.tree
  obtain ⟨tree', htree', hterm'⟩ := h'.tree
  obtain ⟨frame, frames, hm⟩ := h
  obtain ⟨frame', frames', hm'⟩ := h'
  have hterms : tree'.term = tree.term := hterm'.trans hterm.symm
  have hdump : Source.dump ⟨session'.arena, session'.symbolCount⟩ style =
      Source.dump ⟨session.arena, session.symbolCount⟩ style := by
    rw [Source.dump, Source.dump, hm.owned.dump_eq style htree, hm'.owned.dump_eq style htree', hterms]
  have hgenerate : (Source.generate ⟨session'.arena, session'.symbolCount⟩ config).mapError GenerateError.unnumbered =
      (Source.generate ⟨session.arena, session.symbolCount⟩ config).mapError GenerateError.unnumbered := by
    rw [@Glsl.generate_eq_shaderOf ⟨session.arena, _⟩ _ htree, @Glsl.generate_eq_shaderOf ⟨session'.arena, _⟩ _ htree',
      mapError_bind, mapError_bind, Glsl.shaderOf_unnumbered hterms]
  rw [Source.shown, Source.shown, hdump, hgenerate, hm.symbolCount, hm'.symbolCount]

/-- What is made from a finished session depends on its arena and its count of symbols. -/
theorem finish_map {α : Type} (session : Session) (f : Source → α) :
    session.finish.map f = (session.finish.map fun _ => ()).map fun _ => f ⟨session.arena, session.symbolCount⟩ := by
  unfold Session.finish
  split <;> rfl

/-- Such sessions end alike. -/
theorem finish_shown {session session' : Session} {model : Reference.Session} (h : Related session model)
    (h' : Related session' model) (config : Glsl.Config) (style : DumpStyle) :
    session'.finish.map (Source.shown config style) = session.finish.map (Source.shown config style) := by
  rw [finish_map session', finish_map session, h.finish, h'.finish, shown_eq h h']

/-- One more call of an expression at any point of a script, whether it succeeds or not, does no harm if nobody takes its result
and nobody heeds its error. Every other step answers the same as without it but for the numbers of nodes. The recording ends
on both sides or is refused for the same reason; and if it ends, the texts of the trees are the same, and so are the programs,
or there is none for the same reason. -/
theorem unused_call_harmless (steps : List Step) (point : Point) (call : Call) (h : call.isPure = true)
    (config : Glsl.Config) (style : DumpStyle) :
    (∃ others,
      SameEntries (Script.runEvery steps .start).2.session.arena (Script.runEvery steps .start).1 others ∧
      SameEntries (Script.runEvery (point.addUnused call steps) .start).2.session.arena
        (point.erase (Script.runEvery (point.addUnused call steps) .start).1) others) ∧
      (Script.runEvery (point.addUnused call steps) .start).2.session.finish.map (Source.shown config style) =
        (Script.runEvery steps .start).2.session.finish.map (Source.shown config style) := by
  obtain ⟨hsame, -, hentries⟩ := every_same steps start_same
  obtain ⟨hsame', -, hentries'⟩ := every_same (point.addUnused call steps) start_same
  rw [Reference.runEvery_addUnused h point steps .start] at hsame hentries
  exact ⟨⟨_, hentries, SameEntries.erase point _ _ hentries'⟩, finish_shown hsame.session hsame'.session config style⟩

/-- A sum that is assigned to a variable. -/
def sumSteps : List Step :=
  [.block (.enter .main) none
    [.call (.express (.binary .add) [.literal (.int 1), .literal (.int 2)]) (some "sum") false,
      .call (.var (.register "sum")) none false] false]

/-- An unused negation takes over the nodes of the sum, so that the assignment has to copy them. -/
theorem unused_call_harmless_adopted :
    (Call.express (.unary .neg) [.register "sum"]).isPure = true ∧
      (Script.runEvery (Point.here.next.inside.addUnused (.express (.unary .neg) [.register "sum"]) sumSteps)
          .start).2.session.arena.size =
        (Script.runEvery sumSteps .start).2.session.arena.size + 4 ∧
      (Script.runEvery (Point.here.next.inside.addUnused (.express (.unary .neg) [.register "sum"]) sumSteps)
          .start).2.session.finish.map (Source.shown {} {}) =
        (Script.runEvery sumSteps .start).2.session.finish.map (Source.shown {} {}) :=
  ⟨rfl, by decide +kernel,
    (unused_call_harmless sumSteps Point.here.next.inside (.express (.unary .neg) [.register "sum"]) rfl {} {}).2⟩

end Refinement

end ShaderTrace
