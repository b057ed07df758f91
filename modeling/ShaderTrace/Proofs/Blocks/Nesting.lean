import ShaderTrace.Proofs.Blocks.Reached
import ShaderTrace.Proofs.Recording.Program
import ShaderTrace.Proofs.Recording.Typing

/-!
# The open blocks of every run

`Nested` says how the open blocks of a session lie in its arena: each is the last child of the one around it, down to the
program, and the kinds follow one of few patterns. It is read off the frames of the refinement, which are the same blocks with the
trees below them, and off the judgements that those trees satisfy. `every_run_nested` says that every run keeps it, and that no
call of a run is ever refused by the arena.
-/

namespace ShaderTrace

namespace Arena

/-- The kind of a node. -/
def kindAt? (arena : Arena) (id : NodeId) : Option NodeKind := (arena.get? id).map Node.kind

/-- The kind of a node is that of its head. -/
theorem kindAt?_of_content {arena : Arena} {id : NodeId} {head : Head} {children : List NodeId}
    (h : arena.content? id = some (head, children)) : arena.kindAt? id = some head.kind := by
  obtain ⟨node, hnode, hhead, -⟩ := get?_of_content? h
  rw [kindAt?, hnode, Option.map_some, Node.kind, hhead]

/-- The root of a tree that an arena holds has its kind there. -/
theorem Holds.kindAt? {arena : Arena} {tree : Tree} (h : arena.Holds tree) : arena.kindAt? tree.id = some tree.kind :=
  kindAt?_of_content h.content

end Arena

namespace Blocks

open Refinement (Frame Matches plug)
open Recording (Ledger Expression Item Header Spine fits Fitting)
open Script (Step StepError)
open Symbols (Act performAll)

/-- The open blocks of a session, from the inside out. -/
def openBlocks (session : Session) : List OpenBlock := session.current :: session.outer

/-- The blocks that stand among statements. -/
def isInner : NodeKind → Bool
  | .block | .ifBranch | .elseIfBranch | .elseBranch | .whileLoop | .forRange => true
  | _ => false

/-- The kinds of open blocks, from the inside out. -/
inductive Pattern : List NodeKind → Prop
  | program : Pattern [.program]
  | constData : Pattern [.constData, .program]
  | outData : Pattern [.outData, .program]
  | main (inner : List NodeKind) (h : ∀ kind ∈ inner, isInner kind = true) : Pattern (inner ++ [.main, .program])

/-- How the open blocks of a session lie in its arena, and how the nodes of its tree stand next to each other. -/
structure Nested (session : Session) : Prop where
  bottom : (openBlocks session).getLast? = some ⟨Session.root, .program⟩
  distinct : ((openBlocks session).map OpenBlock.id).Nodup
  kindAt : ∀ block ∈ openBlocks session, session.arena.kindAt? block.id = some block.kind
  last : (openBlocks session).IsChain fun inner outer => (session.arena.childrenOf outer.id).getLast? = some inner.id
  pattern : Pattern ((openBlocks session).map OpenBlock.kind)
  sections : ((session.arena.childrenOf Session.root).map session.arena.kindAt?).Nodup
  /-- An alternative directly follows a branch with a condition, wherever it stands below the program. -/
  follows : ∀ parent, Relation.ReflTransGen (fun parent child => child ∈ session.arena.childrenOf parent) Session.root parent →
    ∀ before next after, session.arena.childrenOf parent = before ++ next :: after →
      session.arena.kindAt? next = some .elseIfBranch ∨ session.arena.kindAt? next = some .elseBranch →
      ∃ previous, before.getLast? = some previous ∧
        (session.arena.kindAt? previous = some .ifBranch ∨ session.arena.kindAt? previous = some .elseIfBranch)

/-! ## Frames -/

section Frames

variable {arena : Arena} {Γ : Ledger}

/-- The outermost of the open blocks is the program. -/
theorem getLast?_frames (frames : List Frame) : ∀ frame : Frame, Spine Γ frame.block (frames.map Frame.block) →
    ((frame :: frames).map Frame.openBlock).getLast? = some ⟨(plug frame frames).id, .program⟩ := by
  induction frames with
  | nil =>
    intro frame h
    have hkind : frame.head.kind = .program := h.1
    simp [Frame.openBlock, plug, Frame.tree, Tree.id, hkind]
  | cons parent frames ih =>
    intro frame h
    have hclosed : Spine Γ (parent.add frame.tree).block (frames.map Frame.block) := by
      rw [Frame.block_add, Frame.term_tree]
      exact h.close
    have hparent := ih (parent.add frame.tree) hclosed
    rw [List.map_cons, List.map_cons, List.getLast?_cons_cons]
    exact hparent

/-- No node is open twice. -/
theorem nodup_frames (ho : arena.Owned) (frames : List Frame) : ∀ frame : Frame, arena.Holds (plug frame frames) →
    ((frame :: frames).map Frame.id).Nodup := by
  induction frames with
  | nil => intro frame _; simp
  | cons parent frames ih =>
    intro frame h
    have habove := Refinement.above_of_mem ho (parent :: frames) frame h
    have hparent := ih (parent.add frame.tree) h
    rw [List.map_cons, List.nodup_cons]
    refine ⟨?_, hparent⟩
    intro hm
    obtain ⟨f, hf, he⟩ := List.mem_map.1 hm
    have hcycle := habove f hf
    rw [he] at hcycle
    exact ho.acyclic _ hcycle

/-- Each open block is the last child of the one around it. -/
theorem isChain_frames (frames : List Frame) : ∀ frame : Frame, arena.Holds (plug frame frames) →
    ((frame :: frames).map Frame.openBlock).IsChain
      fun inner outer => (arena.childrenOf outer.id).getLast? = some inner.id := by
  induction frames with
  | nil => intro frame _; simp
  | cons parent frames ih =>
    intro frame h
    have hparent := ih (parent.add frame.tree) h
    have hfocus : arena.Holds (parent.add frame.tree).tree := Refinement.holds_focus frames _ h
    have hchildren : arena.childrenOf parent.id = (parent.closed ++ [frame.tree]).map Tree.id :=
      Arena.childrenOf_eq hfocus.content
    rw [List.map_cons, List.map_cons, List.isChain_cons_cons]
    refine ⟨?_, hparent⟩
    show (arena.childrenOf parent.id).getLast? = some frame.id
    rw [hchildren, List.map_append]
    simp [Frame.tree, Tree.id]

/-- What is open among statements stands among them. -/
theorem isInner_of_fits {kind parent : NodeKind} {before : List NodeKind} (hp : parent ≠ .program) (hb : kind.isBlock = true)
    (hf : fits parent before kind = true) : isInner kind = true := by
  cases kind with
  | block | ifBranch | elseIfBranch | elseBranch | whileLoop | forRange => rfl
  | constData | outData | main => simp [fits, hp] at hf
  | program => cases hf
  | _ => cases hb

/-- A block that fits into the innermost one goes on with the pattern of the open blocks. -/
theorem pattern_cons {kind parent : NodeKind} {kinds before : List NodeKind} (h : Pattern (parent :: kinds))
    (hb : kind.isBlock = true) (hf : fits parent before kind = true) : Pattern (kind :: parent :: kinds) := by
  generalize hall : parent :: kinds = all at h
  cases h with
  | program =>
    obtain ⟨rfl, rfl⟩ : parent = .program ∧ kinds = [] := by simpa using hall
    cases kind with
    | constData => exact .constData
    | outData => exact .outData
    | main => exact .main [] (by simp)
    | program | block | ifBranch | elseIfBranch | elseBranch | whileLoop | forRange => cases hf
    | _ => cases hb
  | constData =>
    obtain ⟨rfl, -⟩ : parent = .constData ∧ kinds = [.program] := by simpa using hall
    rw [Recording.eq_constVar_of_fits before kind hf] at hb
    cases hb
  | outData =>
    obtain ⟨rfl, -⟩ : parent = .outData ∧ kinds = [.program] := by simpa using hall
    rw [Recording.eq_outVar_of_fits before kind hf] at hb
    cases hb
  | main inner hinner =>
    have hp : parent ≠ .program := by
      cases inner with
      | nil =>
        obtain ⟨rfl, -⟩ : parent = .main ∧ kinds = [.program] := by simpa using hall
        decide
      | cons first inner =>
        obtain ⟨rfl, -⟩ : parent = first ∧ kinds = inner ++ [.main, .program] := by simpa using hall
        rintro rfl
        cases hinner .program (by simp)
    refine .main (kind :: inner) ?_
    intro other hm
    rcases List.mem_cons.1 hm with rfl | hm
    · exact isInner_of_fits hp hb hf
    · exact hinner other hm

/-- The path of open blocks of a good session has the pattern. -/
theorem pattern_spine (outer : List Reference.Block) : ∀ block : Reference.Block, Spine Γ block outer →
    Pattern (block.kind :: outer.map Reference.Block.kind) := by
  induction outer with
  | nil =>
    intro block h
    rw [h.1]
    exact .program
  | cons parent outer ih =>
    intro block h
    obtain ⟨hblock, -, hfits, hspine⟩ := h
    exact pattern_cons (ih parent hspine) hblock hfits

end Frames

/-! ## Alternatives -/

section Alternatives

variable {Γ : Ledger} {term : Term} {before after : List Term} {next : Term}

/-- An alternative to a branch. -/
def isAlternative : NodeKind → Bool
  | .elseIfBranch | .elseBranch => true
  | _ => false

/-- No expression is an alternative. -/
theorem not_isAlternative (h : Expression Γ term) : isAlternative term.kind = false := by
  cases h with
  | reference | constant | laneOf => rfl
  | apply operator =>
    cases operator with
    | unary op => cases op <;> rfl
    | binary op => cases op <;> rfl
    | _ => rfl

/-- Whatever fits as an alternative has a branch with a condition before it. -/
theorem conditional_of_fits {parent kind : NodeKind} {before : List NodeKind} (hk : isAlternative kind = true)
    (h : fits parent before kind = true) : ∃ previous, before.getLast? = some previous ∧ previous.isConditional = true := by
  have hany : before.getLast?.any (·.isConditional) = true := by
    cases kind with
    | elseIfBranch | elseBranch => exact (Bool.and_eq_true_iff.1 h).2
    | _ => cases hk
  cases hlast : before.getLast? with
  | none =>
    rw [hlast] at hany
    cases hany
  | some previous =>
    rw [hlast] at hany
    exact ⟨previous, rfl, hany⟩

/-- In an item an alternative directly follows a branch with a condition. -/
theorem follows_of_item (h : Item Γ term) (hc : term.children = before ++ next :: after)
    (hk : isAlternative next.kind = true) :
    ∃ previous, before.getLast? = some previous ∧ previous.kind.isConditional = true := by
  have hmem : next ∈ term.children := by simp [hc]
  have expression : ¬Expression Γ next := by
    intro he
    rw [not_isAlternative he] at hk
    cases hk
  cases h with
  | input | output => cases hmem
  | assign ht hv =>
    rcases List.mem_pair.1 hmem with rfl | rfl
    · exact absurd ht.expression expression
    · exact absurd hv expression
  | @block head header body hh hb hf =>
    -- what stands in the header is an expression, so the alternative stands in the body
    obtain ⟨front, rfl, rfl⟩ : ∃ front, before = header ++ front ∧ body = front ++ next :: after := by
      rcases List.append_eq_append_iff.1 hc with ⟨front, hbefore, hbody⟩ | ⟨back, hheader, hback⟩
      · exact ⟨front, hbefore, hbody⟩
      · cases back with
        | nil => exact ⟨[], by simpa using hheader.symm, by simpa using hback.symm⟩
        | cons first back =>
          obtain ⟨rfl, -⟩ : next = first ∧ after = back ++ body := by simpa using hback
          exact absurd (hh.expression next (by simp [hheader])) expression
    rw [List.map_append, List.map_cons, Recording.fitting_append] at hf
    obtain ⟨kind, hlast, hcond⟩ := conditional_of_fits hk hf.2.1
    rw [List.nil_append, List.getLast?_map] at hlast
    obtain ⟨previous, hprevious, rfl⟩ := Option.map_eq_some_iff.1 hlast
    exact ⟨previous, by simp [List.getLast?_append, hprevious], hcond⟩

/-- An alternative may follow a branch with a condition, and nothing else. -/
theorem isConditional_iff {kind : NodeKind} : kind.isConditional = true ↔ kind = .ifBranch ∨ kind = .elseIfBranch := by
  cases kind <;> simp [NodeKind.isConditional]

/-- Among the nodes below a node of an expression or an item an alternative directly follows a branch with a condition. -/
theorem follows_of_holds {arena : Arena} {tree : Tree} (h : arena.Holds tree)
    (ht : Expression Γ tree.term ∨ Item Γ tree.term) {before after : List NodeId} {next : NodeId}
    (hc : arena.childrenOf tree.id = before ++ next :: after)
    (hk : arena.kindAt? next = some .elseIfBranch ∨ arena.kindAt? next = some .elseBranch) :
    ∃ previous, before.getLast? = some previous ∧
      (arena.kindAt? previous = some .ifBranch ∨ arena.kindAt? previous = some .elseIfBranch) := by
  rw [Arena.childrenOf_eq h.content] at hc
  obtain ⟨front, rest, hsplit, rfl, hrest⟩ := List.map_eq_append_iff.1 hc
  obtain ⟨child, back, rfl, rfl, rfl⟩ := List.map_eq_cons_iff.1 hrest
  have hchild : arena.Holds child := h.child (by simp [hsplit])
  have hterms : tree.term.children = front.map Tree.term ++ child.term :: back.map Tree.term := by
    rw [Tree.term_children, hsplit, List.map_append, List.map_cons]
  have halt : isAlternative child.term.kind = true := by
    rw [Tree.term_kind]
    rw [hchild.kindAt?, Option.some.injEq, Option.some.injEq] at hk
    rcases hk with hk | hk <;> rw [hk] <;> rfl
  rcases ht with he | hi
  · have hexpr := he.children child.term (by simp [hterms])
    rw [not_isAlternative hexpr] at halt
    cases halt
  · obtain ⟨term, hlast, hcond⟩ := follows_of_item hi hterms halt
    rw [List.getLast?_map] at hlast
    obtain ⟨previous, hprevious, rfl⟩ := Option.map_eq_some_iff.1 hlast
    have hheld : arena.Holds previous := h.child (by simp [hsplit, List.mem_of_getLast? hprevious])
    refine ⟨previous.id, by simp [hprevious], ?_⟩
    rw [Tree.term_kind, isConditional_iff] at hcond
    rw [hheld.kindAt?, Option.some.injEq, Option.some.injEq]
    exact hcond

end Alternatives

/-! ## Whole runs -/

/-- The open blocks of a session that has a counterpart by value. -/
theorem Paired.nested {machine : Script.Machine} {model : Reference.Machine} (h : Paired machine model) :
    Nested machine.session := by
  obtain ⟨frame, frames, hm⟩ := h.same.session
  obtain ⟨Γ, hgood, -⟩ := h.good
  have hspine := hgood.spine
  rw [hm.modelCurrent, hm.modelOuter] at hspine
  have hopen : openBlocks machine.session = (frame :: frames).map Frame.openBlock := by
    rw [openBlocks, hm.current, hm.outer, List.map_cons]
  have hplug : Item Γ (plug frame frames).term ∧ (plug frame frames).term.kind = .program := by
    rw [Refinement.term_plug]
    exact hspine.plug
  have hsections := hplug.1.sections hplug.2
  refine ⟨?_, ?_, ?_, ?_, ?_, ?_, ?_⟩
  · rw [hopen, ← hm.root]
    exact getLast?_frames frames frame hspine
  · rw [hopen, List.map_map]
    exact nodup_frames hm.owned frames frame hm.holds
  · intro block hb
    rw [hopen] at hb
    obtain ⟨f, hf, rfl⟩ := List.mem_map.1 hb
    obtain ⟨children, hcontent⟩ := Refinement.content_of_mem frames frame hm.holds f hf
    exact Arena.kindAt?_of_content hcontent
  · rw [hopen]
    exact isChain_frames frames frame hm.holds
  · rw [hopen, List.map_map]
    have := pattern_spine (frames.map Frame.block) frame.block hspine
    rwa [List.map_map] at this
  · have hkinds : (machine.session.arena.childrenOf Session.root).map machine.session.arena.kindAt? =
        ((plug frame frames).term.children.map Term.kind).map some := by
      rw [← hm.root, Arena.childrenOf_eq hm.holds.content, Tree.term_children, List.map_map, List.map_map, List.map_map]
      refine List.map_congr_left fun child hc => ?_
      exact (hm.holds.child hc).kindAt?.trans (by rw [Function.comp, Function.comp, Tree.term_kind])
    rw [hkinds]
    exact hsections.2.map (Option.some_injective _)
  · intro parent hpath before next after hc hk
    rw [← hm.root] at hpath
    obtain ⟨tree, htree, rfl, hterm⟩ := Recording.exists_tree_of_reachable hm.holds hplug.1 hpath
    exact follows_of_holds htree hterm hc hk

/-- What a step answered. -/
def outcomeOf : Script.Entry → Except StepError Script.Reply
  | .mk outcome _ _ => outcome

/-- What a step by value answered. -/
def modelOutcomeOf : Reference.Entry → Except StepError Reference.Reply
  | .mk outcome _ _ => outcome

/-- An error for which an action may be refused does not lie in an arena. -/
theorem found_error {α : Type} {error : TraceError} (h : Refusal error) :
    Found anyAnswer (.error (.trace error) : Except StepError α) := by
  rintro e ⟨⟩
  exact h e rfl

/-- An action that behaves as one does is not refused by an arena. -/
theorem act_found {model : Reference.Machine} {action : Except StepError Reference.Action}
    (h : Found (Behaved model.session) action) : Found anyAnswer (model.act action).1 := by
  have hout := (act_outcome h).2
  cases hanswer : (model.act action).1 with
  | ok reply => trivial
  | error error => exact (hout error hanswer).2

/-- What is left to the body around a step is the error of the step. -/
theorem refusal_of_uncaught {caught : Bool} {outcome : Except StepError Reference.Reply} (h : Found anyAnswer outcome) :
    ∀ error ∈ Reference.uncaught caught outcome, Refusal error := by
  intro error hm e he
  subst he
  cases outcome with
  | ok => cases hm
  | error error =>
    cases caught with
    | true => cases hm
    | false =>
      cases error with
      | noSuchRegister => cases hm
      | trace error =>
        cases error with
        | arena => exact h _ rfl
        | _ => cases hm

/-- A body that is repeated ends with no error of an arena if it does not once. -/
theorem iterate_refusal {body : Reference.Machine → Option TraceError × Reference.Machine}
    (hb : ∀ model, ∀ error ∈ (body model).1, Refusal error) (times : Nat) :
    ∀ model, ∀ error ∈ (Reference.iterate body times model).1, Refusal error := by
  induction times with
  | zero => intro model error hm; cases hm
  | succ times ih =>
    intro model
    have hfirst := hb model
    simp only [Reference.iterate]
    generalize body model = run at *
    obtain ⟨ended, model'⟩ := run
    cases ended with
    | some error => exact hfirst
    | none => exact ih model'

mutual

/-- No step is refused by an arena, and none leaves such an error to the body around it. -/
theorem step_found : ∀ (step : Step) (model : Reference.Machine),
    Found anyAnswer (modelOutcomeOf (Reference.runStep step model).1) ∧ ∀ error ∈ (Reference.runStep step model).2.1, Refusal error
  | .call call result caught, model => by
    have hact := act_found (@call_outcome model.session model.registers call result)
    rw [Reference.runStep]
    exact ⟨hact, refusal_of_uncaught hact⟩
  | .block opening result body caught, model => by
    have hact := act_found (@opening_behaved model.session model.registers opening result)
    rw [Reference.runStep]
    generalize model.act (Reference.openingAction opening result model.registers) = answer at *
    obtain ⟨outcome, model₁⟩ := answer
    cases outcome with
    | error error => exact ⟨hact, refusal_of_uncaught hact⟩
    | ok reply =>
      have hbody := steps_refusal body model₁
      simp only
      generalize Reference.runAll body model₁ = run at *
      obtain ⟨entries, ended, model₂⟩ := run
      cases ended with
      | some error =>
        have herror : Found anyAnswer (.error (.trace error) : Except StepError Reference.Reply) := found_error (hbody error rfl)
        exact ⟨herror, refusal_of_uncaught herror⟩
      | none =>
        have hleave : Found (Behaved model₂.session)
            (.ok (Reference.answers .done (Reference.leave model₁.session.current))) :=
          (leave_outcome model₁.session.current).behaved fun _ _ _ => ⟨_, rfl⟩
        exact ⟨act_found hleave, refusal_of_uncaught (act_found hleave)⟩
  | .repeated times body caught, model => by
    have hiter := @iterate_refusal (fun model => (Reference.runAll body model).2)
      (fun model => steps_refusal body model) times model
    rw [Reference.runStep]
    generalize Reference.iterate (fun model => (Reference.runAll body model).2) times model = run at *
    obtain ⟨ended, model'⟩ := run
    cases ended with
    | some error =>
      have herror : Found anyAnswer (.error (.trace error) : Except StepError Reference.Reply) := found_error (hiter error rfl)
      exact ⟨herror, refusal_of_uncaught herror⟩
    | none => exact ⟨trivial, fun error hm => by cases hm⟩

/-- No row of steps ends with an error of an arena. -/
theorem steps_refusal : ∀ (steps : List Step) (model : Reference.Machine),
    ∀ error ∈ (Reference.runAll steps model).2.1, Refusal error
  | [], model => by
    rw [Reference.runAll]
    intro error hm
    cases hm
  | step :: steps, model => by
    have hstep := (step_found step model).2
    rw [Reference.runAll]
    generalize Reference.runStep step model = run at *
    obtain ⟨entry, ended, model₁⟩ := run
    cases ended with
    | some error => exact hstep
    | none => exact steps_refusal steps model₁

end

/-- Where there is a counterpart by value, no step is refused by the arena. -/
theorem Paired.found {machine : Script.Machine} {model : Reference.Machine} (h : Paired machine model) (step : Step) :
    Found anyAnswer (outcomeOf (step.run machine).1) := by
  have hran := (Refinement.step_same step h.same).entry
  have hfound := (step_found step model).1
  generalize (step.run machine).1 = entry at *
  generalize (Reference.runStep step model).1 = other at *
  obtain ⟨outcome, after, body⟩ := entry
  obtain ⟨outcome', after', body'⟩ := other
  rw [Refinement.SameEntry] at hran
  obtain ⟨hsame, -, -⟩ := hran
  cases hsame with
  | ok => trivial
  | error error => exact hfound

/-- In every run the open blocks are nested in the tree as they were opened, and no call, whether it opens a block, leaves one, runs
a body in one or does anything else, is refused by the arena. Every script is a run. -/
theorem every_run_nested :
    (∀ acts : List Act, Nested (performAll acts .start).session ∧
      (∀ (act : Act) (e : ArenaError), (act.perform (performAll acts .start)).1 ≠ .error (.trace (.arena e))) ∧
      ∀ (step : Step) (e : ArenaError), outcomeOf (step.run (performAll acts .start)).1 ≠ .error (.trace (.arena e))) ∧
    ∀ steps : List Step, ∃ acts, (Script.runEvery steps .start).2 = performAll acts .start := by
  refine ⟨fun acts => ?_, fun steps => Symbols.every_acts steps .start⟩
  obtain ⟨model, hpaired⟩ := exists_paired acts
  refine ⟨hpaired.nested, ?_, fun step => (hpaired.found step).ne_arena⟩
  intro act e he
  obtain ⟨model', hperformed⟩ := exists_performed hpaired act
  exact (hperformed.refused _ he).2 e rfl

end Blocks

end ShaderTrace
