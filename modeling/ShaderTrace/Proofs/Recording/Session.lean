import ShaderTrace.Proofs.Recording.Judgements

/-!
# What holds of a session at every point

`Good` says that the open blocks of a session are items as they stand, that symbols are new where they are introduced, and that
the names taken are those of the declarations. Each way in which a session moves keeps it: giving a symbol out, adding a
statement or a declaration, opening a block and closing one.
-/

namespace ShaderTrace.Recording

open Reference (Block)

/-! ## Symbols where they are introduced -/

/-- What the nodes of the open blocks around a block say. -/
def outerHeads : List Block → List Head
  | [] => []
  | block :: outer => outerHeads outer ++ block.term.heads

/-- The nodes of a recording, with those of the innermost open block last. -/
theorem heads_plug (block : Block) (outer : List Block) :
    (Reference.plug block outer).heads = outerHeads outer ++ block.term.heads := by
  induction outer generalizing block with
  | nil => rfl
  | cons parent outer ih =>
    rw [Reference.plug, ih, outerHeads]
    simp [Reference.Block.term, Reference.Block.add, Term.heads, Term.headsAll_append, Term.headsAll]

/-- What is added to the open block comes last. -/
theorem heads_plug_add (block : Block) (outer : List Block) (child : Term) :
    (Reference.plug (block.add child) outer).heads = (Reference.plug block outer).heads ++ child.heads := by
  rw [heads_plug, heads_plug]
  simp [Reference.Block.term, Reference.Block.add, Term.heads, Term.headsAll_append, Term.headsAll]

/-- A block that is opened comes last. -/
theorem heads_plug_open (block inner : Block) (outer : List Block) :
    (Reference.plug inner (block :: outer)).heads = (Reference.plug block outer).heads ++ inner.term.heads := by
  rw [heads_plug, heads_plug, outerHeads]

/-- A symbol that a node introduces is mentioned by no node before it. -/
def Fresh : (before heads : List Head) → Prop
  | _, [] => True
  | before, head :: heads =>
    (head.introduces = true → ∀ symbol ∈ head.mentions?, ∀ earlier ∈ before, symbol ∉ earlier.mentions?) ∧
      Fresh (before ++ [head]) heads

/-- Heads in a row are fresh exactly if the first ones are, and the others after those. -/
theorem fresh_append {before heads heads' : List Head} :
    Fresh before (heads ++ heads') ↔ Fresh before heads ∧ Fresh (before ++ heads) heads' := by
  induction heads generalizing before with
  | nil => simp [Fresh]
  | cons head heads ih => simp [Fresh, ih, and_assoc]

/-- Nodes that introduce nothing. -/
theorem fresh_of_introduces {before heads : List Head} (h : ∀ head ∈ heads, head.introduces = false) :
    Fresh before heads := by
  induction heads generalizing before with
  | nil => trivial
  | cons head heads ih =>
    refine ⟨?_, ih fun other hm => h other (List.mem_cons_of_mem _ hm)⟩
    intro hi
    rw [h head List.mem_cons_self] at hi
    cases hi

/-! ## What holds of a session at every point -/

/-- What a recording is at every point, with the ledger of the symbols that were given out. -/
structure Good (Γ : Ledger) (session : Reference.Session) : Prop where
  /-- Every symbol is in the ledger. -/
  length : Γ.length = session.symbolCount
  /-- The open blocks are items as they stand. -/
  spine : Spine Γ session.current session.outer
  /-- Symbols are new where they are introduced. -/
  fresh : Fresh [] session.tree.heads
  /-- The names that are taken are those of the declarations, in order. -/
  names : session.names = session.tree.heads.filterMap Head.declared?
  /-- No name is taken twice. -/
  nodup : session.names.Nodup

/-- A session starts good, with an empty ledger. -/
theorem good_start : Good [] .start where
  length := rfl
  spine := ⟨rfl, .block [] [] (.plain (by decide)) (by simp) trivial⟩
  fresh := ⟨by intro h; exact Bool.noConfusion h, trivial⟩
  names := rfl
  nodup := List.nodup_nil

section Moves

variable {Γ : Ledger} {session : Reference.Session}

/-- No node mentions a symbol that has not been given out. -/
theorem Good.lt_length (h : Good Γ session) : ∀ head ∈ session.tree.heads, ∀ symbol ∈ head.mentions?,
    symbol.index < Γ.length :=
  h.spine.plug.1.lt_length

/-- Giving a symbol out. -/
theorem Good.give (h : Good Γ session) (binding : Binding) :
    Good (Γ ++ [binding]) { session with symbolCount := session.symbolCount + 1 } where
  length := by simp [h.length]
  spine := h.spine.extend (List.prefix_append _ _)
  fresh := h.fresh
  names := h.names
  nodup := h.nodup

/-- Closing a block. -/
theorem Good.close (h : Good Γ session) {parent : Block} {outer : List Block} (ho : session.outer = parent :: outer) :
    Good Γ { session with current := parent.add session.current.term, outer } := by
  obtain ⟨current, outer', count, names, opened⟩ := session
  obtain rfl : outer' = parent :: outer := ho
  exact ⟨h.length, h.spine.close, h.fresh, h.names, h.nodup⟩

/-- Adding a statement that introduces and declares nothing. -/
theorem Good.append (h : Good Γ session) {child : Term} (hc : Item Γ child)
    (hf : fits session.current.kind ((bodyOf session.current).map Term.kind) child.kind = true)
    (hi : ∀ head ∈ child.heads, head.introduces = false) (hd : ∀ head ∈ child.heads, head.declared? = none) :
    Good Γ { session with current := session.current.add child } := by
  have hheads := heads_plug_add session.current session.outer child
  refine ⟨h.length, h.spine.add hc hf, ?_, ?_, h.nodup⟩
  · show Fresh [] (Reference.plug (session.current.add child) session.outer).heads
    rw [hheads, fresh_append]
    exact ⟨h.fresh, fresh_of_introduces hi⟩
  · show session.names = (Reference.plug (session.current.add child) session.outer).heads.filterMap Head.declared?
    rw [hheads, List.filterMap_append, List.filterMap_eq_nil_iff.2 hd, List.append_nil]
    exact h.names

/-- Opening a block, whose symbol is new if it has one. -/
theorem Good.open (h : Good Γ session) {head : Head} {header : List Term} {number : Nat} (hh : Header Γ head header)
    (hf : fits session.current.kind ((bodyOf session.current).map Term.kind) head.kind = true)
    (hs : head.introduces = true → ∀ symbol ∈ head.mentions?, ∀ earlier ∈ session.tree.heads,
      symbol ∉ earlier.mentions?) :
    Good Γ { session with
      current := { head, children := header, number }
      outer := session.current :: session.outer
      opened := session.opened + 1 } := by
  have hheads := heads_plug_open session.current { head, children := header, number } session.outer
  have hinner : ∀ other ∈ Term.headsAll header, other.introduces = false ∧ other.declared? = none := by
    intro other hm
    obtain ⟨term, hterm, hother⟩ := Term.mem_headsAll.1 hm
    have := (hh.expression term hterm).heads other hother
    exact ⟨this.1, this.2.1⟩
  have hdeclared : head.declared? = none := by
    cases hh with
    | @plain kind => cases kind <;> rfl
    | @condition kind => cases kind <;> rfl
    | count => rfl
  refine ⟨h.length, ⟨hh.shape.2, ?_, hf, h.spine⟩, ?_, ?_, h.nodup⟩
  · have := Item.block header [] hh (by simp) trivial
    rwa [List.append_nil] at this
  · show Fresh [] (Reference.plug _ (session.current :: session.outer)).heads
    rw [hheads, fresh_append]
    exact ⟨h.fresh, hs, fresh_of_introduces fun other hm => (hinner other hm).1⟩
  · show session.names = (Reference.plug _ (session.current :: session.outer)).heads.filterMap Head.declared?
    have hnil : (Reference.Block.term { head, children := header, number }).heads.filterMap Head.declared? = [] := by
      rw [List.filterMap_eq_nil_iff]
      intro other hm
      rcases List.mem_cons.1 hm with rfl | hm
      · exact hdeclared
      · exact (hinner other hm).2
    rw [hheads, List.filterMap_append, hnil, List.append_nil]
    exact h.names

/-- Declaring an input or an output under a new name and a new symbol. -/
theorem Good.declare (h : Good Γ session) {kind : NodeKind} {name : String} {binding : Binding}
    (hk : kind = .constVar ∨ kind = .outVar)
    (hf : fits session.current.kind ((bodyOf session.current).map Term.kind) kind = true)
    (hi : Item (Γ ++ [binding]) (.node ((Head.ofSymbol kind binding.type ⟨session.symbolCount⟩).named name) []))
    (hn : name ∉ session.names) :
    Good (Γ ++ [binding]) { session with
      current := session.current.add (.node ((Head.ofSymbol kind binding.type ⟨session.symbolCount⟩).named name) [])
      symbolCount := session.symbolCount + 1
      names := session.names ++ [name] } := by
  have hheads := heads_plug_add session.current session.outer
    (.node ((Head.ofSymbol kind binding.type ⟨session.symbolCount⟩).named name) [])
  refine ⟨by simp [h.length], (h.spine.extend (List.prefix_append _ _)).add hi hf, ?_, ?_, ?_⟩
  · show Fresh [] (Reference.plug (session.current.add _) session.outer).heads
    rw [hheads, fresh_append]
    refine ⟨h.fresh, ?_, trivial⟩
    rintro - symbol ⟨⟩ earlier hm hmentions
    have := h.lt_length earlier hm _ hmentions
    rw [h.length] at this
    exact absurd this (by simp)
  · show session.names ++ [name] = (Reference.plug (session.current.add _) session.outer).heads.filterMap Head.declared?
    rw [hheads, List.filterMap_append, h.names]
    rcases hk with rfl | rfl <;> rfl
  · simp only [List.nodup_append, List.nodup_cons, List.mem_singleton]
    exact ⟨h.nodup, ⟨by simp, by simp⟩, fun a ha b hb hab => hn (by rw [← hb, ← hab]; exact ha)⟩

end Moves

end ShaderTrace.Recording
