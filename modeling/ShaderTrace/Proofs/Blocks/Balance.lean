import ShaderTrace.Proofs.Blocks.Nesting

/-!
# Blocks with a body are closed again

A step that opens a block, runs a body in it and closes it leaves the open blocks as it found them, whatever the body does: calls
that open and close blocks on their own, further blocks with bodies, errors that are caught. A body may close the block itself,
but it cannot open it again, since every block has a number of its own, and the step is then refused (`block_balanced`).
-/

namespace ShaderTrace.Blocks

open Refinement (Frame Matches Later Related Saved)
open Script (Opening Step StepError Machine)
open Symbols (Act performAll)

/-! ## Blocks at two points of a run -/

section Points

variable {session session' : Session} {model model' : Reference.Session} {frame frame' : Frame} {frames frames' : List Frame}

/-- No two open blocks have the same number. -/
theorem nodup_numbers (h : Matches session model frame frames) : ((frame :: frames).map Frame.number).Nodup :=
  List.pairwise_map.2 (h.ordered.imp fun hlt => (Nat.ne_of_lt hlt).symm)

/-- Every open block is told apart by its node as well as by its number. -/
theorem saved_of_mem (h : Matches session model frame frames) {f : Frame} (hf : f ∈ frame :: frames) :
    Saved session model f.id f.number := by
  have hids := nodup_frames h.owned frames frame h.holds
  have hnumbers := nodup_numbers h
  have hopen : session.current :: session.outer = (frame :: frames).map Frame.openBlock := by
    rw [h.current, h.outer, List.map_cons]
  have hpath : model.current :: model.outer = (frame :: frames).map Frame.block := by
    rw [h.modelCurrent, h.modelOuter, List.map_cons]
  refine ⟨(h.blockAt hf).lt_size, ?_, ?_⟩
  · rcases List.mem_cons.1 hf with rfl | hf
    · exact h.numbered
    · exact Nat.lt_trans (h.number_lt hf) h.numbered
  · rw [hopen, hpath]
    refine List.forall₂_map_left_iff.2 (List.forall₂_map_right_iff.2 (List.forall₂_same.2 ?_))
    intro g hg
    constructor
    · intro he
      exact congrArg Frame.number (List.inj_on_of_nodup_map hids hg hf he)
    · intro he
      exact congrArg Frame.id (List.inj_on_of_nodup_map hnumbers hg hf he)

/-- A block that is open at two points has the same node at both. -/
theorem id_eq_of_later (h : Matches session model frame frames) (h' : Matches session' model' frame' frames')
    (hl : Later session model session' model') {f f' : Frame} (hf : f ∈ frame :: frames) (hf' : f' ∈ frame' :: frames')
    (hn : f'.number = f.number) : f'.id = f.id := by
  obtain ⟨-, -, hall⟩ := hl.saved _ _ (saved_of_mem h hf)
  have hopen : session'.current :: session'.outer = (frame' :: frames').map Frame.openBlock := by
    rw [h'.current, h'.outer, List.map_cons]
  have hpath : model'.current :: model'.outer = (frame' :: frames').map Frame.block := by
    rw [h'.modelCurrent, h'.modelOuter, List.map_cons]
  rw [hopen, hpath, List.forall₂_map_left_iff, List.forall₂_map_right_iff, List.forall₂_same] at hall
  exact (hall f' hf').2 hn

/-- Blocks that have the same heads and numbers by value, and the same nodes. -/
theorem map_openBlock_eq {fs fs' : List Frame} (hh : fs'.map Frame.head = fs.map Frame.head)
    (hn : fs'.map Frame.number = fs.map Frame.number) (hid : ∀ f ∈ fs, ∀ f' ∈ fs', f'.number = f.number → f'.id = f.id) :
    fs'.map Frame.openBlock = fs.map Frame.openBlock := by
  induction fs generalizing fs' with
  | nil =>
    rw [List.map_nil, List.map_eq_nil_iff] at hh
    rw [hh]
  | cons f fs ih =>
    rw [List.map_cons] at hh
    obtain ⟨f', rest, rfl, hhead, hheads⟩ := List.map_eq_cons_iff.1 hh
    rw [List.map_cons, List.map_cons, List.cons.injEq] at hn
    have hfirst : f'.openBlock = f.openBlock := by
      rw [Frame.openBlock, Frame.openBlock, hid f (by simp) f' (by simp) hn.1, hhead]
    rw [List.map_cons, List.map_cons, hfirst, ih hheads hn.2 fun g hg g' hg' => hid g (by simp [hg]) g' (by simp [hg'])]

/-- The open blocks of a later point are those of an earlier one that have their heads and numbers. -/
theorem openBlocks_of_later (h : Matches session model frame frames) (h' : Matches session' model' frame' frames')
    (hl : Later session model session' model') {kept : List Frame} (hk : kept ⊆ frame :: frames)
    (hh : (path model').map Reference.Block.head = kept.map Frame.head)
    (hn : (path model').map Reference.Block.number = kept.map Frame.number) :
    openBlocks session' = kept.map Frame.openBlock := by
  have hpath : path model' = (frame' :: frames').map Frame.block := by
    rw [path, h'.modelCurrent, h'.modelOuter, List.map_cons]
  rw [hpath, List.map_map] at hh hn
  rw [openBlocks, h'.current, h'.outer, ← List.map_cons]
  exact map_openBlock_eq hh hn fun f hf f' hf' hnumber => id_eq_of_later h h' hl (hk hf) hf' hnumber

/-- If the innermost block of an earlier point is the innermost one again, its head and everything around it have stayed as they
were. -/
theorem stays_of_advance (h : Matches session model frame frames) (ha : Advance model model')
    (hn : model'.current.number = model.current.number) :
    model'.current.head = model.current.head ∧ model'.outer = model.outer := by
  obtain ⟨-, ⟨new, top, old, rest, hpath, hold, hhead, hnumber, hnew⟩, -⟩ := ha
  have hlt : model.current.number < model.opened := by
    rw [h.modelCurrent]
    exact h.numbered
  cases new with
  | cons first new =>
    -- a block that was opened since has another number
    obtain ⟨hfirst, -⟩ : model'.current = first ∧ model'.outer = new ++ top :: rest := by simpa [path] using hpath
    have hge := hnew first (by simp)
    rw [← hfirst] at hge
    omega
  | nil =>
    obtain ⟨htop, hrest⟩ : model'.current = top ∧ model'.outer = rest := by simpa [path] using hpath
    rw [htop, hnumber] at hn
    rcases List.suffix_cons_iff.1 hold with heq | hin
    · obtain ⟨hcurrent, houter⟩ := List.cons.inj heq
      rw [htop, hhead, hcurrent, hrest]
      exact ⟨rfl, houter⟩
    · -- the blocks around the innermost one have other numbers
      have hmem : old ∈ model.outer := hin.subset (by simp)
      rw [h.modelOuter] at hmem
      obtain ⟨f, hf, rfl⟩ := List.mem_map.1 hmem
      rw [h.modelCurrent] at hn
      have hlt : f.number < frame.number := h.number_lt hf
      have heq : f.number = frame.number := hn
      omega

end Points

/-! ## Leaving a block -/

/-- The session without its innermost open block. -/
theorem leave_eq_ok {session session' : Session} {block : OpenBlock} {u : Unit}
    (h : Recorder.leave block session = .ok u session') :
    session.current.id = block.id ∧ openBlocks session' = session.outer ∧ session'.arena = session.arena := by
  have hcurrent : Recorder.current session = .ok session.current session := rfl
  rw [Recorder.leave, bind_of_ok hcurrent] at h
  by_cases hid : session.current.id = block.id
  · rw [if_neg (not_not.2 hid)] at h
    replace h : (Recorder.exit >>= fun _ => pure ()) session = .ok u session' := h
    cases houter : session.outer with
    | nil =>
      have hexit : Recorder.exit session = .error .unbalancedExit session := by rw [Refinement.exit_eq, houter]
      rw [bind_of_error hexit] at h
      cases h
    | cons parent outer =>
      have hexit : Recorder.exit session = .ok session.current.id { session with current := parent, outer } := by
        rw [Refinement.exit_eq, houter]
      rw [bind_of_ok hexit] at h
      cases h
      exact ⟨hid, rfl, rfl⟩
  · rw [if_pos hid] at h
    cases h

/-- A block that is left was the innermost one, and those around it stay open. -/
theorem of_leave_ok {machine : Machine} {block : OpenBlock} {reply : Script.Reply} (h : (machine.leave block).1 = .ok reply) :
    machine.session.current.id = block.id ∧ openBlocks (machine.leave block).2.session = machine.session.outer ∧
      (machine.leave block).2.session.arena = machine.session.arena := by
  cases hx : Recorder.leave block machine.session with
  | error error session =>
    have hact : machine.leave block = (.error (.trace error), { machine with session }) := by
      simp only [Machine.leave, Machine.act, EStateM.run, Script.silent, bind_of_error hx]
    rw [hact] at h
    cases h
  | ok u session =>
    have hact : machine.leave block = (.ok .done, { machine with session }) := by
      simp only [Machine.leave, Machine.act, EStateM.run, Script.silent, bind_of_ok hx]
      rfl
    rw [hact]
    exact leave_eq_ok hx

/-! ## Steps with a body -/

/-- An action that opens a block has opened it if it was not refused. -/
theorem act_opened {model : Reference.Machine} {action : Except StepError Reference.Action} {kind : NodeKind}
    (h : Found (Opens kind model.session) action) {reply : Reference.Reply} (ho : (model.act action).1 = .ok reply) :
    Opened kind model.session (model.act action).2.session := by
  cases action with
  | error error => cases ho
  | ok action =>
    have hout := h model.registers
    simp only [Reference.Machine.act, EStateM.run] at ho ⊢
    cases hx : action model.registers model.session with
    | ok answer session =>
      rw [hx] at hout
      exact hout.2
    | error error session =>
      rw [hx] at ho
      cases ho

/-- What an opening that succeeds has done, also by value. -/
theorem exists_opened {machine : Machine} {model : Reference.Machine} (h : Paired machine model) {opening : Opening}
    {result : Option String} {reply : Script.Reply} (ho : ((Act.opening opening result).perform machine).1 = .ok reply) :
    ∃ model', Performed machine model ((Act.opening opening result).perform machine) model' ∧
      Opened (kindOf opening) model.session model'.session := by
  have hsame := Refinement.opening_same h.same.session h.same.registers opening result
  have hperformed := performed_of_same h hsame (fun _ hg hr => Recording.opening_keeping hg hr opening result)
    (opening_behaved _ opening result)
  refine ⟨_, hperformed, ?_⟩
  have hout := (Refinement.act_same h.same hsame).outcome
  rw [show (machine.act (opening.action result machine.registers)).1 = .ok reply from ho] at hout
  generalize hr : (model.act (Reference.openingAction opening result model.registers)).1 = answer at hout
  cases hout with
  | ok => exact act_opened (opening_outcome _ opening result) hr

/-- A block that is the innermost one again by its node is so by its number, and has stayed as it was. -/
theorem stays_of_reached {machine machine' : Machine} {model model' : Reference.Machine} (h : Paired machine model)
    (hr : ReachedBoth machine model machine' model') (hid : machine'.session.current.id = machine.session.current.id) :
    model'.session.current.head = model.session.current.head ∧ model'.session.outer = model.session.outer := by
  obtain ⟨frame, frames, hm⟩ := h.same.session
  obtain ⟨-, -, hall⟩ := hr.later.saved _ _ hm.saved_current
  exact stays_of_advance hm hr.advance ((List.forall₂_cons.1 hall).1.1 hid)

/-- From the point where a block has been opened to one where it can be left, nothing around it has changed. -/
theorem outer_eq_of_reached {machine machine₁ machine₂ : Machine} {model model₁ model₂ : Reference.Machine} {kind : NodeKind}
    (h : Paired machine model) (hl : Later machine.session model.session machine₁.session model₁.session)
    (ho : Opened kind model.session model₁.session) (h₁ : Paired machine₁ model₁)
    (hr : ReachedBoth machine₁ model₁ machine₂ model₂) (hid : machine₂.session.current.id = machine₁.session.current.id) :
    machine₂.session.outer = openBlocks machine.session := by
  obtain ⟨frame, frames, hm⟩ := h.same.session
  obtain ⟨frame₂, frames₂, hm₂⟩ := hr.paired.same.session
  obtain ⟨block, -, hpath, -⟩ := ho
  have hblocks : frames₂.map Frame.block = (frame :: frames).map Frame.block := by
    rw [← hm₂.modelOuter, (stays_of_reached h₁ hr hid).2, List.map_cons, ← hm.modelCurrent, ← hm.modelOuter]
    exact (List.cons.inj hpath).2
  have hheads := congrArg (List.map Reference.Block.head) hblocks
  have hnumbers := congrArg (List.map Reference.Block.number) hblocks
  rw [List.map_map, List.map_map] at hheads hnumbers
  rw [hm₂.outer, openBlocks, hm.current, hm.outer, ← List.map_cons]
  refine map_openBlock_eq hheads hnumbers fun f hf f' hf' hn => ?_
  exact id_eq_of_later hm hm₂ (hl.trans hr.later) hf (List.mem_cons_of_mem _ hf') hn

/-- A step with a body that succeeds opens its block, does some acts, and leaves the block again. -/
theorem of_run_block_ok {machine : Machine} {opening : Opening} {result : Option String} {body : List Step} {caught : Bool}
    {reply : Script.Reply} (h : outcomeOf ((Step.block opening result body caught).run machine).1 = .ok reply) :
    ∃ (opened : Script.Reply) (acts : List Act), ((Act.opening opening result).perform machine).1 = .ok opened ∧
      ((performAll acts ((Act.opening opening result).perform machine).2).leave
        ((Act.opening opening result).perform machine).2.session.current).1 = .ok reply ∧
      ((Step.block opening result body caught).run machine).2.2 =
        ((performAll acts ((Act.opening opening result).perform machine).2).leave
          ((Act.opening opening result).perform machine).2.session.current).2 := by
  have hopening : (Act.opening opening result).perform machine = machine.act (opening.action result machine.registers) := rfl
  rw [Step.run] at h ⊢
  rw [hopening]
  generalize machine.act (opening.action result machine.registers) = answer at *
  obtain ⟨outcome, machine₁⟩ := answer
  cases outcome with
  | error error => cases h
  | ok opened =>
    obtain ⟨acts, hacts⟩ := Symbols.steps_acts body machine₁
    simp only at h ⊢
    generalize Script.runAll body machine₁ = run at *
    obtain ⟨entries, ended, machine₂⟩ := run
    obtain rfl : machine₂ = performAll acts machine₁ := hacts
    cases ended with
    | some error => cases h
    | none => exact ⟨opened, acts, rfl, h, rfl⟩

/-- If a step that runs a body in a block succeeds, whatever the body does, the blocks that are open afterwards are those that
were open before, and the block that was opened is the last child of the innermost of them. -/
theorem block_balanced (acts : List Act) (opening : Opening) (result : Option String) (body : List Step) (caught : Bool)
    (reply : Script.Reply)
    (h : outcomeOf ((Step.block opening result body caught).run (performAll acts .start)).1 = .ok reply) :
    openBlocks ((Step.block opening result body caught).run (performAll acts .start)).2.2.session =
        openBlocks (performAll acts .start).session ∧
      ∃ block : OpenBlock, ((Act.opening opening result).perform (performAll acts .start)).2.session.current = block ∧
        block.kind = kindOf opening ∧
        (((Step.block opening result body caught).run (performAll acts .start)).2.2.session.arena.childrenOf
          (performAll acts .start).session.current.id).getLast? = some block.id := by
  obtain ⟨model, hpaired⟩ := exists_paired acts
  generalize performAll acts .start = machine at *
  obtain ⟨opened, acts', hopen, hleave, hrun⟩ := of_run_block_ok h
  obtain ⟨model₁, hperformed, hopened⟩ := exists_opened hpaired hopen
  obtain ⟨model₂, hreached⟩ := exists_reached acts' hperformed.paired
  obtain ⟨hid, hafter, harena⟩ := of_leave_ok hleave
  have houter := outer_eq_of_reached hpaired hperformed.later hopened hperformed.paired hreached hid
  rw [hrun]
  refine ⟨hafter.trans houter, _, rfl, ?_, ?_⟩
  · rw [hperformed.paired.same.session.kind]
    obtain ⟨block, hkind, hpath, -⟩ := hopened
    rw [(List.cons.inj hpath).1, hkind]
  · have hlast := hreached.paired.nested.last
    rw [openBlocks, houter, openBlocks, List.isChain_cons_cons] at hlast
    rw [harena, ← hid]
    exact hlast.1

/-- A loop is open, and there is a condition to branch on. -/
def loopActs : List Act :=
  [.opening (.enter .main) none,
    .call (.express (.binary .lt) [.literal (.int 1), .literal (.int 2)]) (some "test"),
    .opening (.whileDo (.register "test")) none]

/-- A body that opens and closes blocks by calls of its own. Among them are a section, which is refused, a row of branches, and a
block whose body closes it too early. -/
def unrulyBody : List Step :=
  [.call (.enter .block) none false,
    .call (.enter .main) none true,
    .call (.beginIf (.register "test")) none false,
    .call .beginElse none false,
    .block (.enter .block) none [.call .exit none false] true,
    .call .exit none false,
    .block .otherwise none [] true,
    .call .exit none false]

/-- The unruly body in a branch: it succeeds, and the loop is open again, with the branch as its last child. -/
theorem block_balanced_unruly :
    outcomeOf ((Step.block (.ifThen (.register "test")) none unrulyBody false).run (performAll loopActs .start)).1 = .ok .done ∧
      openBlocks ((Step.block (.ifThen (.register "test")) none unrulyBody false).run (performAll loopActs .start)).2.2.session =
        openBlocks (performAll loopActs .start).session ∧
      ∃ block : OpenBlock,
        ((Act.opening (.ifThen (.register "test")) none).perform (performAll loopActs .start)).2.session.current = block ∧
        block.kind = .ifBranch ∧
        (((Step.block (.ifThen (.register "test")) none unrulyBody false).run
          (performAll loopActs .start)).2.2.session.arena.childrenOf (performAll loopActs .start).session.current.id).getLast? =
            some block.id := by
  have h : outcomeOf ((Step.block (.ifThen (.register "test")) none unrulyBody false).run (performAll loopActs .start)).1 =
      .ok .done := by decide +kernel
  exact ⟨h, block_balanced loopActs (.ifThen (.register "test")) none unrulyBody false .done h⟩

end ShaderTrace.Blocks
