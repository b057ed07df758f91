import ShaderTrace.Proofs.Copying
import ShaderTrace.Proofs.Reference.Recorder

/-!
# Open blocks in an arena

The open blocks of a session are a path from the root of its tree to the last node of a row. A `Frame` is one block of that
path with the trees below it that are closed, and `plug` puts the whole tree together. `Matches` relates a session with an
arena to one that records by value. A detached tree can be made the last child of the innermost block, which changes that
block alone (`Matches.append`, `Matches.push`), and building nodes beside the tree changes nothing in it (`Matches.extend`).
-/

namespace ShaderTrace

/-- A block needs its header and may hold any number of nodes after it. -/
theorem NodeKind.arity_of_isBlock {kind : NodeKind} (h : kind.isBlock = true) : kind.arity = .atLeast kind.headerLength := by
  cases kind with
  | program | constData | outData | main | block | ifBranch | elseIfBranch | elseBranch | whileLoop | forRange => rfl
  | _ => cases h

/-- A block may have any number of children. -/
theorem NodeKind.arity_max_of_isBlock {kind : NodeKind} (h : kind.isBlock = true) : kind.arity.max = none := by
  rw [arity_of_isBlock h]
  rfl

namespace Arena

open Relation

/-- The node is a block. -/
def BlockAt (arena : Arena) (id : NodeId) : Prop :=
  ∃ head children, arena.content? id = some (head, children) ∧ head.kind.isBlock = true

/-- The nodes of `arena` say the same in `arena'`, and those of them that are blocks belong to the same nodes. -/
structure Extends (arena arena' : Arena) : Prop where
  size_le : arena.size ≤ arena'.size
  content : ∀ id, id.index < arena.size → arena'.content? id = arena.content? id
  owner : ∀ id, arena.BlockAt id → arena'.parent? id = arena.parent? id

theorem Extends.refl (arena : Arena) : arena.Extends arena := ⟨Nat.le_refl _, fun _ _ => rfl, fun _ _ => rfl⟩

/-- A block is a node of the arena. -/
theorem BlockAt.lt_size {arena : Arena} {id : NodeId} (h : arena.BlockAt id) : id.index < arena.size := by
  obtain ⟨head, children, hc, -⟩ := h
  exact lt_size_of_content? hc

/-- A block stays one as the arena grows. -/
theorem Extends.blockAt {arena arena' : Arena} (h : arena.Extends arena') {id : NodeId} (hb : arena.BlockAt id) :
    arena'.BlockAt id := by
  have hlt := hb.lt_size
  obtain ⟨head, children, hc, hk⟩ := hb
  exact ⟨head, children, (h.content id hlt).trans hc, hk⟩

/-- An arena that extends an extension is one. -/
theorem Extends.trans {a b c : Arena} (h : a.Extends b) (h' : b.Extends c) : a.Extends c := by
  have hle := h.size_le
  refine ⟨Nat.le_trans hle h'.size_le, ?_, ?_⟩
  · intro id hid
    rw [h'.content id (by omega), h.content id hid]
  · intro id hb
    rw [h'.owner id (h.blockAt hb), h.owner id hb]

/-- A tree stays in the arena as it grows. -/
theorem Extends.holds {arena arena' : Arena} (h : arena.Extends arena') {tree : Tree} (ht : arena.Holds tree) :
    arena'.Holds tree :=
  Holds.of_content tree (fun id hid => h.content id (Holds.lt_size tree ht id hid)) ht

/-- A new node extends the arena. -/
theorem extends_alloc (arena : Arena) (head : Head) : arena.Extends (arena.alloc head).2 := by
  refine ⟨by simp, ?_, ?_⟩
  · intro id hid
    exact content?_alloc_of_lt arena head hid
  · intro id _
    exact parent?_alloc arena head id

/-- A child that is no block, made a child of a node that was not there before. -/
theorem Extends.link {arena arena' : Arena} (h : arena.Extends arena') {parent child : NodeId}
    (hp : arena.size ≤ parent.index) (hc : child.index < arena'.size) (hb : ¬arena'.BlockAt child) :
    arena.Extends (arena'.link parent child) := by
  refine ⟨by simpa using h.size_le, ?_, ?_⟩
  · intro id hid
    have hne : id ≠ parent := by rintro rfl; omega
    rw [content?_link_of_ne _ _ hne, h.content id hid]
  · intro id hid
    have hne : id ≠ child := by rintro rfl; exact hb (h.blockAt hid)
    rw [parent?_link _ _ _ _ hc, if_neg hne, h.owner id hid]

/-- At the root of an expression there is no block. -/
theorem Holds.not_blockAt {arena : Arena} {tree : Tree} (h : arena.Holds tree) (hk : tree.kind.isBlock = false) :
    ¬arena.BlockAt tree.id := by
  rintro ⟨head, children, hc, hb⟩
  rw [h.content] at hc
  cases hc
  rw [Tree.kind] at hk
  simp [hk] at hb

end Arena

namespace Refinement

open Relation

/-- A block that is open: its node, what it says, and the trees that it holds and that are closed. -/
structure Frame where
  id : NodeId
  head : Head
  closed : List Tree
  number : Nat

namespace Frame

def tree (frame : Frame) : Tree := .node frame.id frame.head frame.closed

def add (frame : Frame) (tree : Tree) : Frame := { frame with closed := frame.closed ++ [tree] }

/-- The block as a session with an arena knows it. -/
def openBlock (frame : Frame) : OpenBlock := ⟨frame.id, frame.head.kind⟩

/-- The block as a session without an arena knows it. -/
def block (frame : Frame) : Reference.Block := ⟨frame.head, frame.closed.map Tree.term, frame.number⟩

theorem term_tree (frame : Frame) : frame.tree.term = frame.block.term := by
  simp [tree, block, Reference.Block.term]

theorem block_add (frame : Frame) (tree : Tree) : (frame.add tree).block = frame.block.add tree.term := by
  simp [add, block, Reference.Block.add]

end Frame

/-- The tree around an innermost open block. -/
def plug : Frame → (outer : List Frame) → Tree
  | frame, [] => frame.tree
  | frame, parent :: outer => plug (parent.add frame.tree) outer

/-- The term of the frames put together is that of their blocks put together. -/
theorem term_plug (frames : List Frame) :
    ∀ frame : Frame, (plug frame frames).term = Reference.plug frame.block (frames.map Frame.block) := by
  induction frames with
  | nil => exact Frame.term_tree
  | cons parent frames ih =>
    intro frame
    rw [plug, ih, Frame.block_add, Frame.term_tree]
    rfl

/-- The node at the root stays the same when a tree is added. -/
theorem id_plug_add (frames : List Frame) :
    ∀ (frame : Frame) (child : Tree), (plug (frame.add child) frames).id = (plug frame frames).id := by
  have key : ∀ (frames : List Frame) (f f' : Frame), f'.id = f.id → (plug f' frames).id = (plug f frames).id := by
    intro frames
    induction frames with
    | nil => intro f f' h; exact h
    | cons parent frames ih =>
      intro f f' _
      exact ih _ _ rfl
  intro frame child
  exact key frames frame _ rfl

section Plugged

variable {arena : Arena}

/-- The tree holds each of its open blocks. -/
theorem holds_focus (frames : List Frame) :
    ∀ frame : Frame, arena.Holds (plug frame frames) → arena.Holds frame.tree := by
  induction frames with
  | nil => intro frame h; exact h
  | cons parent frames ih =>
    intro frame h
    have hp : arena.Holds (parent.add frame.tree).tree := ih _ h
    exact hp.child (by simp [Frame.add, Frame.tree, Tree.children])

/-- Every open block is a node with the head that it was opened with. -/
theorem content_of_mem (frames : List Frame) :
    ∀ frame : Frame, arena.Holds (plug frame frames) → ∀ f ∈ frame :: frames,
      ∃ children, arena.content? f.id = some (f.head, children) := by
  induction frames with
  | nil =>
    intro frame h f hf
    rw [List.mem_singleton] at hf
    subst hf
    exact ⟨_, h.content⟩
  | cons parent frames ih =>
    intro frame h f hf
    rcases List.mem_cons.1 hf with rfl | hf
    · exact ⟨_, (holds_focus _ _ h).content⟩
    · rcases List.mem_cons.1 hf with rfl | hf
      · exact ih (f.add frame.tree) h (f.add frame.tree) (by simp)
      · exact ih _ h f (by simp [hf])

/-- The root of the frames put together is one of them. -/
theorem exists_root (frames : List Frame) :
    ∀ frame : Frame, ∃ f ∈ frame :: frames, f.id = (plug frame frames).id := by
  induction frames with
  | nil => intro frame; exact ⟨frame, by simp, rfl⟩
  | cons parent frames ih =>
    intro frame
    obtain ⟨f, hf, hid⟩ := ih (parent.add frame.tree)
    rcases List.mem_cons.1 hf with rfl | hf
    · exact ⟨parent, by simp, hid⟩
    · exact ⟨f, by simp [hf], hid⟩

/-- The innermost open block belongs to every other one, directly or through others. -/
theorem above_of_mem (ho : arena.Owned) (frames : List Frame) :
    ∀ frame : Frame, arena.Holds (plug frame frames) → ∀ f ∈ frames, TransGen arena.Under frame.id f.id := by
  induction frames with
  | nil => intro frame _ f hf; simp at hf
  | cons parent frames ih =>
    intro frame h f hf
    have hp : arena.Holds (parent.add frame.tree).tree := holds_focus frames _ h
    have hu : arena.Under frame.tree.id (parent.add frame.tree).tree.id :=
      ho.under_of_holds hp (by simp [Frame.add, Frame.tree, Tree.children])
    rcases List.mem_cons.1 hf with rfl | hf
    · exact .single hu
    · exact .head hu (ih _ h f hf)

/-- What the innermost open block belongs to, directly or through others, is an open block. -/
theorem mem_of_above (ho : arena.Owned) (frames : List Frame) :
    ∀ frame : Frame, arena.Holds (plug frame frames) → arena.parent? (plug frame frames).id = none →
      ∀ x, ReflTransGen arena.Under frame.id x → ∃ f ∈ frame :: frames, f.id = x := by
  induction frames with
  | nil =>
    intro frame h hd x hx
    rcases hx.cases_head with he | ⟨p, hu, -⟩
    · exact ⟨frame, by simp, he⟩
    · rw [Arena.Under, show frame.id = (plug frame []).id from rfl, hd] at hu
      cases hu
  | cons parent frames ih =>
    intro frame h hd x hx
    have hp : arena.Holds (parent.add frame.tree).tree := holds_focus frames _ h
    rcases hx.cases_head with he | ⟨p, hu, hx⟩
    · exact ⟨frame, by simp, he⟩
    · have hu' : arena.Under frame.tree.id (parent.add frame.tree).tree.id :=
        ho.under_of_holds hp (by simp [Frame.add, Frame.tree, Tree.children])
      have hpp : p = parent.id := Arena.under_rightUnique arena hu hu'
      subst hpp
      obtain ⟨f, hf, he⟩ := ih (parent.add frame.tree) h hd x hx
      rcases List.mem_cons.1 hf with rfl | hf
      · exact ⟨parent, by simp, he⟩
      · exact ⟨f, by simp [hf], he⟩

/-- The innermost open block may be exchanged for one with the same node: nothing around it has to change. -/
theorem holds_refocus {arena' : Arena} (ho : arena.Owned) (frames : List Frame) :
    ∀ frame frame' : Frame, frame'.id = frame.id → arena.Holds (plug frame frames) →
      (∀ id, id.index < arena.size → id ∉ frame.tree.ids → arena'.content? id = arena.content? id) →
      arena'.Holds frame'.tree → arena'.Holds (plug frame' frames) := by
  induction frames with
  | nil => intro frame frame' _ _ _ h; exact h
  | cons parent frames ih =>
    intro frame frame' hid h hc h'
    have hp : arena.Holds (parent.add frame.tree).tree := holds_focus frames _ h
    have hn := ho.nodup_ids _ hp
    rw [Frame.tree, Tree.ids, Frame.add, Tree.idsAll_append, List.nodup_cons, List.nodup_append] at hn
    obtain ⟨hself, -, -, hdis⟩ := hn
    simp only [Tree.idsAll, List.append_nil, List.mem_append, not_or] at hself hdis
    obtain ⟨hpc, hph⟩ := Arena.holds_node.1 hp
    refine ih (parent.add frame.tree) (parent.add frame'.tree) rfl h ?_ (Arena.holds_node.2 ⟨?_, ?_⟩)
    · intro id hlt hnot
      refine hc id hlt fun hm => hnot ?_
      rw [Frame.tree, Tree.ids, Frame.add, Tree.idsAll_append]
      simp [Tree.idsAll, hm]
    · have hlt : parent.id.index < arena.size := Arena.lt_size_of_content? hpc
      refine (hc parent.id hlt hself.2).trans (hpc.trans ?_)
      simp [Frame.add, Frame.tree, Tree.id, hid]
    · intro other hm
      rcases List.mem_append.1 hm with hm | hm
      · have hold : arena.Holds other := hph other (by simp [Frame.add, hm])
        refine Arena.Holds.of_content other (fun id hid' => ?_) hold
        exact hc id (Arena.Holds.lt_size other hold id hid') fun hx =>
          hdis id (Tree.ids_subset_idsAll hm hid') id hx rfl
      · rw [List.mem_singleton] at hm
        subst hm
        exact h'

end Plugged

/-! ## Sessions with and without an arena -/

/-- The two sessions are at the same point: they have the same open blocks, which hold the same trees. -/
structure Matches (session : Session) (model : Reference.Session) (frame : Frame) (frames : List Frame) : Prop where
  owned : session.arena.Owned
  holds : session.arena.Holds (plug frame frames)
  root : (plug frame frames).id = Session.root
  detached : session.arena.parent? Session.root = none
  blocks : ∀ f ∈ frame :: frames, f.head.kind.isBlock = true
  current : session.current = frame.openBlock
  outer : session.outer = frames.map Frame.openBlock
  modelCurrent : model.current = frame.block
  modelOuter : model.outer = frames.map Frame.block
  numbered : frame.number < model.opened
  ordered : (frame :: frames).Pairwise fun f g => g.number < f.number
  symbolCount : session.symbolCount = model.symbolCount
  names : session.names = model.names

def Related (session : Session) (model : Reference.Session) : Prop := ∃ frame frames, Matches session model frame frames

/-- A block that was open at some time, by its node and by its number: among the open blocks the two name the same one. -/
def Saved (session : Session) (model : Reference.Session) (id : NodeId) (number : Nat) : Prop :=
  id.index < session.arena.size ∧ number < model.opened ∧
    List.Forall₂ (fun (block : OpenBlock) (other : Reference.Block) => block.id = id ↔ other.number = number)
      (session.current :: session.outer) (model.current :: model.outer)

/-- What stays true from one point of a recording to a later one: expressions stay what they are, and blocks keep their
names. -/
structure Later (session : Session) (model : Reference.Session) (session' : Session) (model' : Reference.Session) :
    Prop where
  keeps : ∀ tree : Tree, session.arena.Holds tree → tree.kind.isBlock = false → session'.arena.Holds tree
  saved : ∀ id number, Saved session model id number → Saved session' model' id number

theorem Later.refl (session : Session) (model : Reference.Session) : Later session model session model :=
  ⟨fun _ h _ => h, fun _ _ h => h⟩

/-- What comes later than something later does so than what was before that. -/
theorem Later.trans {σ σ' σ'' : Session} {ρ ρ' ρ'' : Reference.Session} (h : Later σ ρ σ' ρ') (h' : Later σ' ρ' σ'' ρ'') :
    Later σ ρ σ'' ρ'' :=
  ⟨fun tree ht hk => h'.keeps tree (h.keeps tree ht hk) hk, fun id n hs => h'.saved id n (h.saved id n hs)⟩

namespace Matches

variable {session : Session} {model : Reference.Session} {frame : Frame} {frames : List Frame}

/-- Every frame is at a block of the arena. -/
theorem blockAt (h : Matches session model frame frames) {f : Frame} (hf : f ∈ frame :: frames) :
    session.arena.BlockAt f.id := by
  obtain ⟨children, hc⟩ := content_of_mem frames frame h.holds f hf
  exact ⟨f.head, children, hc, h.blocks f hf⟩

/-- The tree at the root is that of the frames put together. -/
theorem tree_eq (h : Matches session model frame frames) :
    session.arena.tree Session.root = .ok (plug frame frames) :=
  h.owned.tree_eq_ok_iff.2 ⟨h.holds, h.root⟩

/-- The term of the frames put together is that of the reference. -/
theorem term_eq (h : Matches session model frame frames) : (plug frame frames).term = model.tree := by
  rw [term_plug, Reference.Session.tree, h.modelCurrent, h.modelOuter]

/-- Nodes that are built beside the tree change neither the tree nor an expression. -/
theorem extend (h : Matches session model frame frames) {arena : Arena} (he : session.arena.Extends arena)
    (ho : arena.Owned) :
    Matches { session with arena } model frame frames ∧ Later session model { session with arena } model := by
  have hroot : session.arena.BlockAt Session.root := by
    obtain ⟨f, hf, hid⟩ := exists_root frames frame
    rw [← h.root, ← hid]
    exact h.blockAt hf
  refine ⟨{ h with owned := ho, holds := he.holds h.holds, detached := ?_ }, ?_, ?_⟩
  · rw [he.owner _ hroot, h.detached]
  · intro tree ht _
    exact he.holds ht
  · rintro id number ⟨hid, hn, hf⟩
    exact ⟨Nat.lt_of_lt_of_le hid he.size_le, hn, hf⟩

/-- The frames further out have smaller numbers. -/
theorem number_lt (h : Matches session model frame frames) {f : Frame} (hf : f ∈ frames) : f.number < frame.number :=
  (List.pairwise_cons.1 h.ordered).1 f hf

/-- A detached tree may become the last child of the innermost open block, and nothing else changes by that. -/
theorem linked (h : Matches session model frame frames) {child : Tree} (hc : session.arena.Holds child)
    (hd : session.arena.parent? child.id = none) (hnot : ∀ f ∈ frame :: frames, f.id ≠ child.id) :
    session.arena.checkAttach frame.id child.id = .ok () ∧ (session.arena.link frame.id child.id).Owned ∧
      (session.arena.link frame.id child.id).Holds (plug (frame.add child) frames) ∧
      (session.arena.link frame.id child.id).parent? Session.root = none ∧
      ∀ tree : Tree, session.arena.Holds tree → tree.kind.isBlock = false →
        (session.arena.link frame.id child.id).Holds tree := by
  have hf : session.arena.Holds frame.tree := holds_focus frames frame h.holds
  have hlt : child.id.index < session.arena.size := hc.lt_size_id
  have habove := mem_of_above h.owned frames frame h.holds (h.root ▸ h.detached)
  have hn : ¬ReflTransGen session.arena.Under frame.id child.id := by
    intro hab
    obtain ⟨f, hf, he⟩ := habove _ hab
    exact hnot f hf he
  have hown := h.owned.link hf.lt_size_id hlt hd hn
  obtain ⟨node, hnode, hhead, -⟩ := Arena.get?_of_content? hf.content
  have hkind : node.kind.isBlock = true := by
    rw [Node.kind, hhead]
    exact h.blocks frame (by simp)
  refine ⟨h.owned.checkAttach_eq_ok_iff.2 ⟨node, hnode, ?_, .inr hkind, hlt, hd, hn⟩, hown, ?_, ?_, ?_⟩
  · intro max hmax
    rw [NodeKind.arity_max_of_isBlock hkind] at hmax
    cases hmax
  · refine holds_refocus h.owned frames frame (frame.add child) rfl h.holds ?_ (h.owned.holds_link hf hc hn)
    intro id _ hid
    exact Arena.content?_link_of_ne _ _ fun he => hid (he ▸ Tree.id_mem_ids frame.tree)
  · obtain ⟨f, hf, he⟩ := exists_root frames frame
    have hne : Session.root ≠ child.id := by
      rw [← h.root, ← he]
      exact hnot f hf
    rw [Arena.parent?_link _ _ _ _ hlt, if_neg hne, h.detached]
  · intro tree ht hk
    refine ht.link _ fun hm => ?_
    obtain ⟨f, hf, he⟩ := habove _ (h.owned.above_of_mem_ids tree ht _ hm)
    exact ht.not_blockAt hk (he ▸ h.blockAt hf)

/-- A tree becomes a statement or a declaration of the innermost open block. -/
theorem append (h : Matches session model frame frames) {child : Tree} (hc : session.arena.Holds child)
    (hd : session.arena.parent? child.id = none) (hnot : ∀ f ∈ frame :: frames, f.id ≠ child.id) :
    Matches { session with arena := session.arena.link frame.id child.id }
        { model with current := model.current.add child.term } (frame.add child) frames ∧
      Later session model { session with arena := session.arena.link frame.id child.id }
        { model with current := model.current.add child.term } := by
  obtain ⟨-, ho, hh, hroot, hkeeps⟩ := h.linked hc hd hnot
  refine ⟨⟨ho, hh, ?_, hroot, ?_, h.current, h.outer, ?_, h.modelOuter, h.numbered, ?_, h.symbolCount, h.names⟩,
    hkeeps, ?_⟩
  · exact (id_plug_add frames frame child).trans h.root
  · intro f hf
    rcases List.mem_cons.1 hf with rfl | hf
    · exact h.blocks frame (by simp)
    · exact h.blocks f (by simp [hf])
  · rw [h.modelCurrent, Frame.block_add]
  · exact List.pairwise_cons.2 (List.pairwise_cons.1 h.ordered)
  · rintro id number ⟨hid, hn, hf⟩
    refine ⟨by simpa using hid, hn, ?_⟩
    obtain ⟨hhd, htl⟩ := List.forall₂_cons.1 hf
    exact .cons hhd htl

/-- A block that has its header becomes the innermost open one. -/
theorem push (h : Matches session model frame frames) {child : Tree} (hc : session.arena.Holds child)
    (hd : session.arena.parent? child.id = none) (hnot : ∀ f ∈ frame :: frames, f.id ≠ child.id)
    (hb : child.kind.isBlock = true) :
    Matches
        { session with
          arena := session.arena.link frame.id child.id
          current := ⟨child.id, child.kind⟩
          outer := session.current :: session.outer }
        { model with
          current := ⟨child.head, child.children.map Tree.term, model.opened⟩
          outer := model.current :: model.outer
          opened := model.opened + 1 }
        ⟨child.id, child.head, child.children, model.opened⟩ (frame :: frames) := by
  obtain ⟨-, ho, hh, hroot, -⟩ := h.linked hc hd hnot
  have hplug : plug ⟨child.id, child.head, child.children, model.opened⟩ (frame :: frames) =
      plug (frame.add child) frames := by
    cases child
    rfl
  refine ⟨ho, hplug ▸ hh, ?_, hroot, ?_, rfl, ?_, rfl, ?_, Nat.lt_succ_self _, ?_, h.symbolCount, h.names⟩
  · rw [hplug, id_plug_add]
    exact h.root
  · intro f hf
    rcases List.mem_cons.1 hf with rfl | hf
    · exact hb
    · exact h.blocks f hf
  · rw [h.current, h.outer, List.map_cons]
  · rw [h.modelCurrent, h.modelOuter, List.map_cons]
  · refine List.pairwise_cons.2 ⟨?_, h.ordered⟩
    intro f hf
    rcases List.mem_cons.1 hf with rfl | hf
    · exact h.numbered
    · exact Nat.lt_trans (h.number_lt hf) h.numbered

/-- The innermost open block becomes the last child of the block around it. -/
theorem pop {parent : Frame} (h : Matches session model frame (parent :: frames)) :
    Matches { session with current := parent.openBlock, outer := frames.map Frame.openBlock }
      { model with current := parent.block.add frame.block.term, outer := frames.map Frame.block }
      (parent.add frame.tree) frames := by
  have hord := List.pairwise_cons.1 h.ordered
  have hlt : parent.number < frame.number := h.number_lt (by simp)
  refine ⟨h.owned, h.holds, h.root, h.detached, ?_, rfl, rfl, ?_, rfl, ?_, ?_, h.symbolCount, h.names⟩
  · intro f hf
    rcases List.mem_cons.1 hf with rfl | hf
    · exact h.blocks parent (by simp)
    · exact h.blocks f (by simp [hf])
  · rw [Frame.block_add, Frame.term_tree]
  · exact Nat.lt_trans hlt h.numbered
  · exact List.pairwise_cons.2 (List.pairwise_cons.1 hord.2)

/-- The innermost open block is told apart by its node as well as by its number. -/
theorem saved_current (h : Matches session model frame frames) :
    Saved session model session.current.id model.current.number := by
  rw [h.current, h.modelCurrent]
  refine ⟨(holds_focus frames frame h.holds).lt_size_id, h.numbered, ?_⟩
  rw [h.current, h.modelCurrent, h.outer, h.modelOuter]
  refine .cons (by simp) (List.forall₂_map_left_iff.2 (List.forall₂_map_right_iff.2 (List.forall₂_same.2 ?_)))
  intro f hf
  constructor
  · intro he
    have hab := above_of_mem h.owned frames frame h.holds f hf
    rw [show f.id = frame.id from he] at hab
    exact absurd hab (h.owned.acyclic _)
  · intro he
    have hlt : f.number < frame.number := h.number_lt hf
    have he' : f.number = frame.number := he
    omega

end Matches

end Refinement

end ShaderTrace
