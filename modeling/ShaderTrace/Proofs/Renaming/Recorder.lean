import Mathlib.Data.List.Forall2
import ShaderTrace.Proofs.Reference.Recorder

/-!
# Recording with other symbols

The symbols of what is declared are numbers, and nothing but the order of the declarations decides on them. Two sessions by
value correspond (`Corresponds`) if one is the other with other symbols, and their programs begin with sections that may stand
in another order. Every operation of the recorder leaves corresponding sessions so, and is refused in both for the same reason,
or in neither (`InStep`). No operation looks at a symbol, and those that are given out from now on are the same on both sides.
-/

namespace ShaderTrace

/-! ## Other symbols -/

section Rename

variable (f : SymbolId → SymbolId)

def Payload.rename : Payload → Payload
  | .symbol s => .symbol (f s)
  | .member owner ownerType lane => .member (f owner) ownerType lane
  | .literal value => .literal value
  | .none => .none

def Head.rename (head : Head) : Head := { head with payload := head.payload.rename f }

def Input.rename (input : Input) : Input := ⟨input.type, f input.symbol⟩

namespace Term

mutual

/-- The term with other symbols. -/
def rename : Term → Term
  | node head children => .node (head.rename f) (renameAll children)

def renameAll : List Term → List Term
  | [] => []
  | term :: terms => term.rename :: renameAll terms

end

/-- Terms in a row are renamed one by one. -/
theorem renameAll_eq_map (terms : List Term) : renameAll f terms = terms.map (rename f) := by
  induction terms with
  | nil => rfl
  | cons term terms ih => rw [renameAll, ih, List.map_cons]

@[simp] theorem rename_node (head : Head) (children : List Term) :
    (node head children).rename f = .node (head.rename f) (children.map (rename f)) := by
  rw [rename, renameAll_eq_map]

theorem head_rename (term : Term) : (term.rename f).head = term.head.rename f := by
  cases term
  rfl

theorem kind_rename (term : Term) : (term.rename f).kind = term.kind := by
  cases term
  rfl

theorem children_rename (term : Term) : (term.rename f).children = term.children.map (rename f) := by
  cases term
  rw [rename_node]
  rfl

theorem map_kind_rename (terms : List Term) : (terms.map (rename f)).map kind = terms.map kind := by
  rw [List.map_map]
  exact List.map_congr_left fun term _ => kind_rename f term

end Term

namespace Reference

def Form.rename : Form → Form
  | .unbound => .unbound
  | .bound symbol => .bound (f symbol)
  | .pending term => .pending (term.rename f)
  | .member owner ownerType lane writable => .member (f owner) ownerType lane writable

def Value.rename (value : Value) : Value := ⟨value.type, value.form.rename f⟩

def Handle.rename : Handle → Handle
  | .value v => .value (v.rename f)
  | .input i => .input (i.rename f)

def Operand.rename : Operand → Operand
  | .handle h => .handle (h.rename f)
  | .literal l => .literal l

@[simp] theorem Value.type_rename (value : Value) : (value.rename f).type = value.type := rfl

@[simp] theorem Handle.type_rename (handle : Handle) : (handle.rename f).type = handle.type := by
  cases handle <;> rfl

@[simp] theorem Operand.type_rename (operand : Operand) : (operand.rename f).type = operand.type := by
  cases operand with
  | handle handle => exact handle.type_rename f
  | literal => rfl

theorem Operand.isCondition_rename (operand : Operand) : (operand.rename f).isCondition = operand.isCondition := by
  cases operand with
  | handle handle => rw [rename, isCondition, isCondition, Handle.type_rename]
  | literal => rfl

/-- The symbol of a renamed value is the renamed symbol. -/
theorem Value.symbol?_rename (value : Value) : (value.rename f).symbol? = value.symbol?.map f := by
  obtain ⟨type, form⟩ := value
  cases form <;> rfl

end Reference

end Rename

namespace Reference

/-! ## Corresponding sessions -/

/-- Other symbols for those that have been given out, and the sections that the two programs begin with. -/
structure Renaming where
  rename : SymbolId → SymbolId
  /-- Symbols from this one on stay as they are. -/
  bound : Nat
  fixed : ∀ symbol, bound ≤ symbol.index → rename symbol = symbol
  sections : List Term
  sections' : List Term
  /-- The same kinds of sections stand on both sides. -/
  kinds : (sections'.map Term.kind).Perm (sections.map Term.kind)
  isSection : ∀ kind ∈ sections.map Term.kind, kind.isSection = true

/-- Blocks with the same children, after those that they begin with. -/
structure SameBlock (f : SymbolId → SymbolId) (first first' : List Term) (block block' : Block) : Prop where
  head : block'.head = block.head.rename f
  number : block'.number = block.number
  children : ∃ rest, block.children = first ++ rest ∧ block'.children = first' ++ rest.map (Term.rename f)

/-- The open blocks, from the inside out. The last one is the program. -/
inductive SameBlocks (ρ : Renaming) : List Block → List Block → Prop
  | program {block block' : Block} (h : SameBlock ρ.rename ρ.sections ρ.sections' block block') :
    SameBlocks ρ [block] [block']
  | inner {block block' : Block} {outer outer' : List Block} (h : SameBlock ρ.rename [] [] block block')
    (rest : SameBlocks ρ outer outer') : SameBlocks ρ (block :: outer) (block' :: outer')

structure Corresponds (ρ : Renaming) (session session' : Session) : Prop where
  blocks : SameBlocks ρ (session.current :: session.outer) (session'.current :: session'.outer)
  symbolCount : session'.symbolCount = session.symbolCount
  bound : ρ.bound ≤ session.symbolCount
  names : ∀ name, name ∈ session'.names ↔ name ∈ session.names
  opened : session'.opened = session.opened

section Blocks

variable {ρ : Renaming} {f : SymbolId → SymbolId} {first first' : List Term} {block block' : Block} {outer outer' : List Block}

theorem SameBlock.kind (h : SameBlock f first first' block block') : block'.kind = block.kind := by
  rw [Block.kind, h.head]
  rfl

/-- Blocks stay the same when a term is added to one and the renamed one to the other. -/
theorem SameBlock.add (h : SameBlock f first first' block block') (child : Term) :
    SameBlock f first first' (block.add child) (block'.add (child.rename f)) := by
  obtain ⟨rest, hc, hc'⟩ := h.children
  refine ⟨h.head, h.number, rest ++ [child], ?_, ?_⟩
  · rw [Block.add, hc, List.append_assoc]
  · rw [Block.add, hc', List.map_append, List.append_assoc]
    rfl

/-- A block that holds nothing else than the block of the other side holds. -/
theorem SameBlock.term (h : SameBlock f [] [] block block') : block'.term = block.term.rename f := by
  obtain ⟨rest, hc, hc'⟩ := h.children
  rw [Block.term, Block.term, Term.rename_node, h.head, hc, hc']
  rfl

/-- The innermost blocks have the same kind and number. -/
theorem SameBlocks.current (h : SameBlocks ρ (block :: outer) (block' :: outer')) :
    block'.kind = block.kind ∧ block'.number = block.number := by
  cases h with
  | program h => exact ⟨h.kind, h.number⟩
  | inner h => exact ⟨h.kind, h.number⟩

/-- The same number of blocks is open. -/
theorem SameBlocks.length {blocks blocks' : List Block} (h : SameBlocks ρ blocks blocks') : blocks'.length = blocks.length := by
  induction h with
  | program => rfl
  | inner _ _ ih => rw [List.length_cons, List.length_cons, ih]

/-- Some block is open. -/
theorem SameBlocks.ne_nil {blocks blocks' : List Block} (h : SameBlocks ρ blocks blocks') : blocks ≠ [] := by
  cases h <;> exact List.cons_ne_nil _ _

/-- The open blocks stay the same when a term is added to the innermost ones. -/
theorem SameBlocks.add (h : SameBlocks ρ (block :: outer) (block' :: outer')) (child : Term) :
    SameBlocks ρ (block.add child :: outer) (block'.add (child.rename ρ.rename) :: outer') := by
  cases h with
  | program h => exact .program (h.add child)
  | inner h rest => exact .inner (h.add child) rest

/-- Closing the innermost of several blocks. -/
theorem SameBlocks.close {parent parent' : Block}
    (h : SameBlocks ρ (block :: parent :: outer) (block' :: parent' :: outer')) :
    SameBlocks ρ (parent.add block.term :: outer) (parent'.add block'.term :: outer') := by
  cases h with
  | inner h rest =>
    rw [h.term]
    exact rest.add block.term

/-- The program of either side: the sections that it begins with, and then the same. -/
theorem SameBlocks.plug (h : SameBlocks ρ (block :: outer) (block' :: outer')) :
    (Reference.plug block' outer').head = (Reference.plug block outer).head.rename ρ.rename ∧
      ∃ rest, (Reference.plug block outer).children = ρ.sections ++ rest ∧
        (Reference.plug block' outer').children = ρ.sections' ++ rest.map (Term.rename ρ.rename) := by
  induction outer generalizing block block' outer' with
  | nil =>
    cases h with
    | program h => exact ⟨h.head, h.children⟩
    | inner _ rest => exact absurd rfl rest.ne_nil
  | cons parent outer ih =>
    cases outer' with
    | nil => simpa using h.length
    | cons parent' outer' => exact (ih h.close :)

/-- No section is a branch, so it does not matter which of them is the last one. -/
theorem any_isConditional_getLast? {terms : List Term} (h : ∀ kind ∈ terms.map Term.kind, kind.isSection = true) :
    (terms.getLast?.map Term.kind).any (·.isConditional) = false := by
  cases hl : terms.getLast? with
  | none => rfl
  | some term =>
    have hs : term.kind.isSection = true := h term.kind (List.mem_map_of_mem (List.mem_of_getLast? hl))
    show term.kind.isConditional = false
    cases hk : term.kind <;> rw [hk] at hs <;> first | rfl | cases hs

/-- Blocks end with a branch alike, whatever sections come first in them. -/
theorem SameBlock.any_isConditional (h : SameBlock f first first' block block')
    (hf : ∀ kind ∈ first.map Term.kind, kind.isSection = true)
    (hf' : ∀ kind ∈ first'.map Term.kind, kind.isSection = true) :
    (block'.children.getLast?.map Term.kind).any (·.isConditional) =
      (block.children.getLast?.map Term.kind).any (·.isConditional) := by
  obtain ⟨rest, hc, hc'⟩ := h.children
  rw [hc, hc', List.getLast?_append, List.getLast?_append, List.getLast?_map]
  cases rest.getLast? with
  | none =>
    rw [Option.map_none, Option.none_or, Option.none_or, any_isConditional_getLast? hf, any_isConditional_getLast? hf']
  | some last =>
    show (last.rename f).kind.isConditional = last.kind.isConditional
    rw [Term.kind_rename]

/-- The innermost blocks end with a branch alike. -/
theorem SameBlocks.any_isConditional (h : SameBlocks ρ (block :: outer) (block' :: outer')) :
    (block'.children.getLast?.map Term.kind).any (·.isConditional) =
      (block.children.getLast?.map Term.kind).any (·.isConditional) := by
  cases h with
  | program h => exact h.any_isConditional ρ.isSection fun kind hk => ρ.isSection kind (ρ.kinds.mem_iff.1 hk)
  | inner h => exact h.any_isConditional (by simp) (by simp)

end Blocks

namespace Corresponds

variable {ρ : Renaming} {session session' : Session}

theorem kind (h : Corresponds ρ session session') : session'.current.kind = session.current.kind := h.blocks.current.1

theorem number (h : Corresponds ρ session session') : session'.current.number = session.current.number :=
  h.blocks.current.2

/-- The same sections are there, in whatever order. -/
theorem mem_kinds (h : Corresponds ρ session session') (kind : NodeKind) :
    kind ∈ session'.tree.children.map Term.kind ↔ kind ∈ session.tree.children.map Term.kind := by
  obtain ⟨-, rest, hc, hc'⟩ := h.blocks.plug
  rw [Session.tree, Session.tree, hc, hc', List.map_append, List.map_append, Term.map_kind_rename, List.mem_append,
    List.mem_append, ρ.kinds.mem_iff]

end Corresponds

/-! ## Corresponding actions -/

/-- Both actions were refused for the same reason, or both succeeded and the second answer is the image of the first. -/
def InStep {α β : Type} (ρ : Renaming) (image : α → β) :
    EStateM.Result TraceError Session α → EStateM.Result TraceError Session β → Prop :=
  Together (fun a session b session' => b = image a ∧ Corresponds ρ session session')
    fun e session e' session' => e' = e ∧ Corresponds ρ session session'

namespace InStep

variable {α β γ δ : Type} {ρ : Renaming} {session session' : Session} {image : α → β} {image' : γ → δ}

/-- Both answer where they were begun. -/
theorem pure (h : Corresponds ρ session session') {a : α} {b : β} (hb : b = image a) :
    InStep ρ image ((Pure.pure a : Recorder α) session) ((Pure.pure b : Recorder β) session') :=
  ⟨hb, h⟩

/-- Both are refused where they were begun. -/
theorem throw (h : Corresponds ρ session session') (e : TraceError) :
    InStep ρ image ((MonadExcept.throw e : Recorder α) session) ((MonadExcept.throw e : Recorder β) session') :=
  ⟨rfl, h⟩

/-- Actions go in step if the first two do and the rest does wherever they end. -/
theorem bind {x : Recorder α} {y : Recorder β} {f : α → Recorder γ} {g : β → Recorder δ}
    (h : InStep ρ image (x session) (y session'))
    (hf : ∀ a session session', Corresponds ρ session session' → InStep ρ image' (f a session) (g (image a) session')) :
    InStep ρ image' ((x >>= f) session) ((y >>= g) session') := by
  refine Together.bind h (fun _ _ _ _ => id) ?_
  rintro a s b s' ⟨rfl, hs⟩
  exact hf a s s' hs

/-- A condition that refuses both, or neither. -/
theorem guard {c c' : Prop} [Decidable c] [Decidable c'] (hc : c' ↔ c) {e e' : TraceError} (he : e' = e)
    (h : Corresponds ρ session session') {f : Unit → Recorder α} {g : Unit → Recorder β} {x : Recorder α}
    {y : Recorder β} (hxy : InStep ρ image (x session) (y session')) :
    InStep ρ image ((if c then MonadExcept.throw e >>= f else x) session)
      ((if c' then MonadExcept.throw e' >>= g else y) session') :=
  Together.guard hc.symm (fun _ => ⟨he, h⟩) fun _ => hxy

/-- A check that refuses both, or neither. -/
theorem check {c c' : Prop} [Decidable c] [Decidable c'] (hc : c' ↔ c) {e e' : TraceError} (he : e' = e)
    (h : Corresponds ρ session session') :
    InStep ρ id ((if c then MonadExcept.throw e else (Pure.pure () : Recorder Unit)) session)
      ((if c' then MonadExcept.throw e' else (Pure.pure () : Recorder Unit)) session') :=
  Together.check hc.symm (fun _ => ⟨he, h⟩) fun _ => ⟨rfl, h⟩

end InStep

section Operations

variable {ρ : Renaming} {session session' : Session}

/-! ## Blocks -/

/-- Statements are accepted at the same places. -/
theorem checkStatements_renamed (h : Corresponds ρ session session') :
    InStep ρ id (checkStatements session) (checkStatements session') := by
  rw [checkStatements_eq, checkStatements_eq, h.kind]
  split
  · exact ⟨rfl, h⟩
  · exact ⟨rfl, h⟩

/-- Symbols that are given out from now on are the same. -/
theorem nextSymbol_renamed (h : Corresponds ρ session session') :
    InStep ρ ρ.rename (nextSymbol session) (nextSymbol session') := by
  refine ⟨?_, { h with symbolCount := ?_, bound := ?_ }⟩
  · rw [ρ.fixed ⟨session.symbolCount⟩ h.bound]
    exact congrArg SymbolId.mk h.symbolCount
  · exact congrArg (· + 1) h.symbolCount
  · exact Nat.le_succ_of_le h.bound

/-- Sections are accepted at the same places. -/
theorem checkSection_renamed (kind : NodeKind) (h : Corresponds ρ session session') :
    InStep ρ id (checkSection kind session) (checkSection kind session') := by
  refine InStep.guard ?_ ?_ h (InStep.check ?_ rfl h)
  · rw [h.kind]
  · rw [h.kind]
  · rw [List.contains_iff_mem, List.contains_iff_mem, h.mem_kinds]

/-- A block is opened with the renamed head and header. -/
theorem openBlock_renamed (head : Head) (header : List Term) (h : Corresponds ρ session session') :
    InStep ρ id (openBlock head header session)
      (openBlock (head.rename ρ.rename) (header.map (Term.rename ρ.rename)) session') := by
  refine ⟨rfl, { h with blocks := .inner ⟨rfl, h.opened, header, rfl, rfl⟩ h.blocks, opened := ?_ }⟩
  exact congrArg (· + 1) h.opened

/-- To open a section is in step. -/
theorem enter_renamed (kind : NodeKind) (h : Corresponds ρ session session') :
    InStep ρ id (enter kind session) (enter kind session') := by
  have hopen : ∀ s s', Corresponds ρ s s' → InStep ρ id (openBlock { kind, type := .void } [] s)
      (openBlock { kind, type := .void } [] s') := fun _ _ h => openBlock_renamed _ _ h
  cases kind with
  | constData | outData | main => exact (checkSection_renamed _ h).bind fun _ s s' h => hopen s s' h
  | block => exact (checkStatements_renamed h).bind fun _ s s' h => hopen s s' h
  | _ => exact InStep.throw h _

/-- To exit is in step. -/
theorem exit_renamed (h : Corresponds ρ session session') : InStep ρ id (exit session) (exit session') := by
  obtain ⟨current, outer, symbolCount, names, opened⟩ := session
  obtain ⟨current', outer', symbolCount', names', opened'⟩ := session'
  have hl := h.blocks.length
  cases outer with
  | nil =>
    cases outer' with
    | nil => exact ⟨rfl, h⟩
    | cons => simp at hl
  | cons parent outer =>
    cases outer' with
    | nil => simp at hl
    | cons parent' outer' => exact ⟨rfl, { h with blocks := h.blocks.close }⟩

/-- Blocks are told apart by their numbers, which are the same. -/
theorem leave_renamed {block block' : Block} (h : Corresponds ρ session session') (hn : block'.number = block.number)
    (hk : block'.kind = block.kind) : InStep ρ id (leave block session) (leave block' session') := by
  refine InStep.guard ?_ ?_ h (exit_renamed h)
  · rw [h.number, hn]
  · rw [h.kind, hk]

/-- To attach a term is in step with attaching the renamed one. -/
theorem attach_renamed (child : Term) (h : Corresponds ρ session session') :
    InStep ρ id (attach child session) (attach (child.rename ρ.rename) session') :=
  ⟨rfl, { h with blocks := h.blocks.add child }⟩

/-- To append a statement is in step with appending the renamed one. -/
theorem append_renamed (statement : Term) (h : Corresponds ρ session session') :
    InStep ρ id (append statement session) (append (statement.rename ρ.rename) session') :=
  (checkStatements_renamed h).bind fun _ _ _ h => attach_renamed statement h

/-! ## Expressions -/

/-- A renamed value is lowered to the renamed term. -/
theorem lowerValue_renamed (value : Value) (h : Corresponds ρ session session') :
    InStep ρ (Term.rename ρ.rename) (lowerValue value session) (lowerValue (value.rename ρ.rename) session') := by
  obtain ⟨type, form⟩ := value
  cases form with
  | unbound => exact InStep.throw h _
  | bound | pending | member => exact InStep.pure h rfl

/-- A renamed operand is lowered to the renamed term. -/
theorem lower_renamed (operand : Operand) (h : Corresponds ρ session session') :
    InStep ρ (Term.rename ρ.rename) (lower operand session) (lower (operand.rename ρ.rename) session') := by
  cases operand with
  | handle handle =>
    cases handle with
    | value value => exact lowerValue_renamed value h
    | input input => exact InStep.pure h rfl
  | literal => exact InStep.pure h rfl

/-- Renamed operands are lowered to the renamed terms. -/
theorem lowerAll_renamed (operands : List Operand) (h : Corresponds ρ session session') :
    InStep ρ (List.map (Term.rename ρ.rename)) (lowerAll operands session)
      (lowerAll (operands.map (Operand.rename ρ.rename)) session') := by
  induction operands generalizing session session' with
  | nil => exact InStep.pure h rfl
  | cons operand operands ih =>
    exact (lower_renamed operand h).bind fun _ _ _ h => (ih h).bind fun _ _ _ h => InStep.pure h rfl

/-- Renamed operands build the renamed value. -/
theorem build_renamed (kind : NodeKind) (type : ValueType) (operands : List Operand) (h : Corresponds ρ session session') :
    InStep ρ (Value.rename ρ.rename) (build kind type operands session)
      (build kind type (operands.map (Operand.rename ρ.rename)) session') := by
  refine (lowerAll_renamed operands h).bind fun children _ _ h => InStep.pure h ?_
  show _ = Value.mk type (.pending ((Term.node { kind, type } children).rename ρ.rename))
  rw [Term.rename_node]
  rfl

/-- Indices are accepted whatever the symbols. -/
theorem checkIndices_renamed (operands : List Operand) (h : Corresponds ρ session session') :
    InStep ρ id (checkIndices operands session) (checkIndices (operands.map (Operand.rename ρ.rename)) session') := by
  induction operands generalizing session session' with
  | nil => exact InStep.pure h rfl
  | cons operand operands ih =>
    cases operand with
    | handle handle => exact ih h
    | literal value =>
      cases value with
      | int index => exact InStep.guard Iff.rfl rfl h (ih h)
      | float | bool | uint => exact ih h

/-- Operands are accepted whatever the symbols. -/
theorem checkOperands_renamed (operator : Operator) (operands : List Operand) (h : Corresponds ρ session session') :
    InStep ρ id (checkOperands operator operands session)
      (checkOperands operator (operands.map (Operand.rename ρ.rename)) session') := by
  cases operator with
  | sample1d | sample2d =>
    show InStep ρ id (checkIndices (operands.drop 1) session)
      (checkIndices ((operands.map (Operand.rename ρ.rename)).drop 1) session')
    rw [← List.map_drop]
    exact checkIndices_renamed _ h
  | _ => exact InStep.pure h rfl

/-- Whether an operation accepts its operands does not depend on the symbols. -/
theorem accepts_renamed (f : SymbolId → SymbolId) (operator : Operator) (operands : List Operand) :
    accepts operator (operands.map (Operand.rename f)) = accepts operator operands := by
  cases operands with
  | nil => rfl
  | cons operand operands =>
    cases operand with
    | handle handle => cases handle <;> cases operator <;> rfl
    | literal => cases operator <;> rfl

/-- The type of an operation does not depend on the symbols. -/
theorem type?_renamed (f : SymbolId → SymbolId) (operator : Operator) (operands : List Operand) :
    type? operator (operands.map (Operand.rename f)) = type? operator operands := by
  have htypes : (operands.map (Operand.rename f)).map Operand.type = operands.map Operand.type := by
    rw [List.map_map]
    exact List.map_congr_left fun operand _ => operand.type_rename f
  rw [type?, type?, accepts_renamed, htypes]

/-- The children of an operation on renamed operands are the renamed ones. -/
theorem childrenOf_renamed (f : SymbolId → SymbolId) (operator : Operator) (operands : List Operand) :
    childrenOf operator (operands.map (Operand.rename f)) = (childrenOf operator operands).map (Operand.rename f) := by
  cases operator <;> rfl

/-- An operation on renamed operands is the renamed value. -/
theorem express_renamed (operator : Operator) (operands : List Operand) (h : Corresponds ρ session session') :
    InStep ρ (Value.rename ρ.rename) (express operator operands session)
      (express operator (operands.map (Operand.rename ρ.rename)) session') := by
  rw [express, express, type?_renamed]
  cases type? operator operands with
  | none => exact InStep.throw h _
  | some type =>
    refine (checkOperands_renamed operator operands h).bind fun _ _ _ h => ?_
    rw [childrenOf_renamed]
    exact build_renamed _ _ _ h

/-! ## Declarations and assignments -/

/-- A name that has been declared on one side has been declared on the other. -/
theorem declare_renamed (kind sectionKind : NodeKind) (type : ValueType) (name : String)
    (h : Corresponds ρ session session') :
    InStep ρ ρ.rename (declare kind sectionKind type name session) (declare kind sectionKind type name session') := by
  have hmem : session'.names.contains name = true ↔ session.names.contains name = true := by
    rw [List.contains_iff_mem, List.contains_iff_mem, h.names]
  refine InStep.guard (by rw [h.kind]) (by rw [h.kind]) h (InStep.guard Iff.rfl rfl h (InStep.guard hmem rfl h ?_))
  have hadd : ∀ s : Session, (modify fun s => { s with names := s.names ++ [name] } : Recorder Unit) s =
      .ok () { s with names := s.names ++ [name] } := fun _ => rfl
  have hnamed : Corresponds ρ { session with names := session.names ++ [name] }
      { session' with names := session'.names ++ [name] } := by
    refine { h with names := fun other => ?_ }
    rw [List.mem_append, List.mem_append, h.names]
  rw [bind_of_ok (hadd session), bind_of_ok (hadd session')]
  refine (nextSymbol_renamed hnamed).bind fun symbol _ _ h => ?_
  exact (attach_renamed (.node ((Head.ofSymbol kind type symbol).named name) []) h).bind fun _ _ _ h => InStep.pure h rfl

/-- An input that is declared is the renamed one. -/
theorem input_renamed (type : ValueType) (name : String) (h : Corresponds ρ session session') :
    InStep ρ (Input.rename ρ.rename) (input type name session) (input type name session') :=
  InStep.guard Iff.rfl rfl h ((declare_renamed _ _ _ _ h).bind fun _ _ _ h => InStep.pure h rfl)

/-- An output that is declared is the renamed one. -/
theorem output_renamed (type : ValueType) (name : String) (h : Corresponds ρ session session') :
    InStep ρ (Value.rename ρ.rename) (output type name session) (output type name session') :=
  InStep.guard Iff.rfl rfl h ((declare_renamed _ _ _ _ h).bind fun _ _ _ h => InStep.pure h rfl)

/-- A renamed target is lowered to the renamed term. -/
theorem lowerTarget_renamed (target : Value) (h : Corresponds ρ session session') :
    InStep ρ (Prod.map (Term.rename ρ.rename) (Value.rename ρ.rename)) (lowerTarget target session)
      (lowerTarget (target.rename ρ.rename) session') := by
  obtain ⟨type, form⟩ := target
  cases form with
  | bound | member => exact InStep.pure h rfl
  | unbound | pending => exact (nextSymbol_renamed h).bind fun _ _ _ h => InStep.pure h rfl

/-- A target is accepted whatever its symbol. -/
theorem checkWritable_renamed (target : Value) (h : Corresponds ρ session session') :
    InStep ρ id (checkWritable target session) (checkWritable (target.rename ρ.rename) session') := by
  obtain ⟨type, form⟩ := target
  cases form with
  | unbound | bound | pending => exact InStep.pure h rfl
  | member owner ownerType lane writable =>
    cases writable with
    | true => exact InStep.pure h rfl
    | false => exact InStep.throw h _

/-- To assign is in step. -/
theorem assign_renamed (target : Value) (value : Operand) (h : Corresponds ρ session session') :
    InStep ρ (Value.rename ρ.rename) (assign target value session)
      (assign (target.rename ρ.rename) (value.rename ρ.rename) session') := by
  refine InStep.guard ?_ rfl h ?_
  · rw [Operand.type_rename, Value.type_rename]
  refine (checkStatements_renamed h).bind fun _ _ _ h => ?_
  refine (checkWritable_renamed target h).bind fun _ _ _ h => ?_
  refine (lower_renamed value h).bind fun right _ _ h => ?_
  refine (lowerTarget_renamed target h).bind fun lowered _ _ h => ?_
  obtain ⟨left, target⟩ := lowered
  have happend := append_renamed (.node { kind := .assignment, type := target.type } [left, right]) h
  rw [Term.rename_node] at happend
  exact happend.bind fun _ _ _ h => InStep.pure h rfl

/-- To make a variable is in step. -/
theorem var_renamed (value : Operand) (h : Corresponds ρ session session') :
    InStep ρ (Value.rename ρ.rename) (var value session) (var (value.rename ρ.rename) session') := by
  rw [var, var, Operand.type_rename]
  exact assign_renamed (.unbound value.type) value h

/-- To update is in step. -/
theorem update_renamed (how : Update) (target : Value) (value : Operand) (h : Corresponds ρ session session') :
    InStep ρ (Value.rename ρ.rename) (update how target value session)
      (update how (target.rename ρ.rename) (value.rename ρ.rename) session') := by
  refine InStep.guard ?_ rfl h ?_
  · rw [Operand.type_rename, Value.type_rename]
  · exact (express_renamed (.binary how.op) [.ofValue target, value] h).bind fun result _ _ h =>
      assign_renamed target (.ofValue result) h

/-- To give a value a symbol is in step. -/
theorem materialize_renamed (value : Value) (h : Corresponds ρ session session') :
    InStep ρ (Prod.map ρ.rename (Value.rename ρ.rename)) (materialize value session)
      (materialize (value.rename ρ.rename) session') := by
  obtain ⟨type, form⟩ := value
  cases form with
  | bound => exact InStep.pure h rfl
  | unbound => exact (nextSymbol_renamed h).bind fun _ _ _ h => InStep.pure h rfl
  | pending term =>
    refine (assign_renamed ⟨type, .pending term⟩ (.ofValue ⟨type, .pending term⟩) h).bind fun bound _ _ h => ?_
    rw [Value.symbol?_rename]
    cases bound.symbol? with
    | none => exact InStep.throw h _
    | some symbol => exact InStep.pure h rfl
  | member => exact InStep.throw h _

/-- To take a lane is in step. -/
theorem lane_renamed (owner : Value) (which : Lane) (h : Corresponds ρ session session') :
    InStep ρ (Prod.map (Value.rename ρ.rename) (Value.rename ρ.rename)) (lane owner which session)
      (lane (owner.rename ρ.rename) which session') := by
  rw [lane, lane, Value.type_rename]
  cases owner.type.lane? with
  | none => exact InStep.throw h _
  | some type =>
    refine InStep.guard Iff.rfl rfl h (InStep.guard Iff.rfl rfl h ?_)
    exact (materialize_renamed owner h).bind fun _ _ _ h => InStep.pure h rfl

/-- To take a component is in step. -/
theorem component_renamed (owner : Value) (which : Lane) (h : Corresponds ρ session session') :
    InStep ρ (Prod.map (Value.rename ρ.rename) (Value.rename ρ.rename)) (component owner which session)
      (component (owner.rename ρ.rename) which session') :=
  InStep.guard Iff.rfl rfl h (lane_renamed owner which h)

/-- To sample at a coordinate is in step. -/
theorem sampleAt_renamed (buffer : Input) (coordinate : Value) (h : Corresponds ρ session session') :
    InStep ρ (Value.rename ρ.rename) (sampleAt buffer coordinate session)
      (sampleAt (buffer.rename ρ.rename) (coordinate.rename ρ.rename) session') := by
  refine InStep.guard Iff.rfl rfl h ?_
  refine (lane_renamed coordinate .x h).bind fun first _ _ h => ?_
  refine (lane_renamed first.2 .y h).bind fun second _ _ h => ?_
  exact express_renamed .sample2d [.ofInput buffer, .ofValue first.1, .ofValue second.1] h

/-! ## Branches and loops -/

/-- To open a branch, a loop or an alternative is in step. -/
theorem openConditional_renamed (kind : NodeKind) (condition : Option Operand) (h : Corresponds ρ session session') :
    InStep ρ id (openConditional kind condition session)
      (openConditional kind (condition.map (Operand.rename ρ.rename)) session') := by
  have hheader := lowerAll_renamed condition.toList h
  rw [← Option.toList_map] at hheader
  exact hheader.bind fun header _ _ h => openBlock_renamed { kind, type := .void } header h

/-- A condition is accepted whatever its symbols. -/
theorem checkCondition_renamed (condition : Operand) (h : Corresponds ρ session session') :
    InStep ρ id (checkCondition condition session) (checkCondition (condition.rename ρ.rename) session') :=
  InStep.check (by rw [Operand.isCondition_rename]) rfl h

/-- To close the branch before an alternative is in step. -/
theorem closeLink_renamed (next : NodeKind) (h : Corresponds ρ session session') :
    InStep ρ id (closeLink next session) (closeLink next session') :=
  InStep.guard (by rw [h.kind]) rfl h (exit_renamed h)

/-- Alternatives are accepted at the same places. -/
theorem checkFollowsConditional_renamed (next : NodeKind) (h : Corresponds ρ session session') :
    InStep ρ id (checkFollowsConditional next session) (checkFollowsConditional next session') :=
  InStep.check (by rw [h.blocks.any_isConditional]) rfl h

theorem beginIf_renamed (condition : Operand) (h : Corresponds ρ session session') :
    InStep ρ id (beginIf condition session) (beginIf (condition.rename ρ.rename) session') :=
  (checkCondition_renamed condition h).bind fun _ _ _ h =>
    (checkStatements_renamed h).bind fun _ _ _ h => openConditional_renamed .ifBranch (some condition) h

theorem beginElseIf_renamed (condition : Operand) (h : Corresponds ρ session session') :
    InStep ρ id (beginElseIf condition session) (beginElseIf (condition.rename ρ.rename) session') :=
  (checkCondition_renamed condition h).bind fun _ _ _ h =>
    (closeLink_renamed _ h).bind fun _ _ _ h => openConditional_renamed .elseIfBranch (some condition) h

theorem beginElse_renamed (h : Corresponds ρ session session') : InStep ρ id (beginElse session) (beginElse session') :=
  (closeLink_renamed _ h).bind fun _ _ _ h => openConditional_renamed .elseBranch none h

theorem beginWhile_renamed (condition : Operand) (h : Corresponds ρ session session') :
    InStep ρ id (beginWhile condition session) (beginWhile (condition.rename ρ.rename) session') :=
  (checkCondition_renamed condition h).bind fun _ _ _ h =>
    (checkStatements_renamed h).bind fun _ _ _ h => openConditional_renamed .whileLoop (some condition) h

/-- To open a counting loop is in step, and its counter is the renamed one. -/
theorem beginFor_renamed (name : String) (start stop : Operand) (h : Corresponds ρ session session') :
    InStep ρ (Value.rename ρ.rename) (beginFor name start stop session)
      (beginFor name (start.rename ρ.rename) (stop.rename ρ.rename) session') := by
  refine InStep.guard ?_ rfl h ?_
  · rw [Operand.type_rename, Operand.type_rename]
  refine (checkStatements_renamed h).bind fun _ _ _ h => InStep.guard Iff.rfl rfl h ?_
  refine (nextSymbol_renamed h).bind fun symbol _ _ h => ?_
  refine (lowerAll_renamed [start, stop] h).bind fun bounds _ _ h => ?_
  exact (openBlock_renamed ((Head.ofSymbol .forRange .void symbol).named name) bounds h).bind fun _ _ _ h =>
    InStep.pure h rfl

theorem reopenElseIf_renamed (condition : Operand) (h : Corresponds ρ session session') :
    InStep ρ id (reopenElseIf condition session) (reopenElseIf (condition.rename ρ.rename) session') :=
  (checkCondition_renamed condition h).bind fun _ _ _ h =>
    (checkFollowsConditional_renamed _ h).bind fun _ _ _ h => openConditional_renamed .elseIfBranch (some condition) h

theorem reopenElse_renamed (h : Corresponds ρ session session') :
    InStep ρ id (reopenElse session) (reopenElse session') :=
  (checkFollowsConditional_renamed _ h).bind fun _ _ _ h => openConditional_renamed .elseBranch none h

end Operations

end Reference

end ShaderTrace
