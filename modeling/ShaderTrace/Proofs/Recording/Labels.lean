import ShaderTrace.Proofs.Generator.Capture
import ShaderTrace.Proofs.Outline
import ShaderTrace.Proofs.Preorder
import ShaderTrace.Proofs.Recording.Script
import ShaderTrace.Proofs.Tags
import ShaderTrace.Proofs.Text.Written

/-!
# Dumps determine what they show

In a recording the kind of a node decides which words its label has: whether a type is shown, what payload there is, and whether
a function and a name follow (`Formed`). No word has a space or an end of a line in it. So the words of a label can be told apart,
and with them what the label shows (`face_eq_of_label`). The main statement is `dump_determines_outline`.
-/

namespace ShaderTrace

/-! ## What the nodes of a kind show -/

inductive PayloadKind where
  | none
  | symbol
  | literal
  | member
deriving DecidableEq

def Payload.kind : Payload → PayloadKind
  | .none => .none
  | .symbol _ => .symbol
  | .literal _ => .literal
  | .member .. => .member

namespace NodeKind

/-- What the nodes of a kind carry in a recording. -/
def payload : NodeKind → PayloadKind
  | forRange | outVar | constVar | var => .symbol
  | literal => .literal
  | member => .member
  | _ => .none

/-- The nodes that are named in a recording. -/
def isNamed : NodeKind → Bool
  | forRange | outVar | constVar => true
  | _ => false

/-- Every kind is found by its name. -/
theorem ofName?_name (kind : NodeKind) : ofName? kind.name = some kind := by cases kind <;> decide +kernel

/-- Different kinds have different names. -/
theorem name_injective {kind kind' : NodeKind} (h : kind.name = kind'.name) : kind = kind' := by
  have hsome : some kind = some kind' := by rw [← ofName?_name, h, ofName?_name]
  exact Option.some.inj hsome

end NodeKind

namespace Term

/-- The node shows what nodes of its kind show. Blocks have no type, and a name is an identifier. -/
structure Formed (term : Term) : Prop where
  type : if term.kind.isBlock then term.type = .void else term.type.isNameable = true
  payload : term.head.payload.kind = term.kind.payload
  literal : ∀ value, term.head.payload = .literal value → value.type = term.type
  called : term.called?.isSome = (term.kind == .function)
  named : term.head.name.isSome = term.kind.isNamed
  name : ∀ name ∈ term.head.name, Identifier.isIdentifier name = true

/-! ## Words -/

/-- The words of a label, without colour. -/
def words (term : Term) : List String := (Word.ofHead true term.head term.called?).map (Word.render false)

def typeWords (term : Term) : List String := if term.type.isVoid then [] else [term.type.text]

def payloadWords (term : Term) : List String := (Word.ofPayload term.head.payload).map (Word.render false)

def calledWords (term : Term) : List String := term.called?.toList.map Builtin.name

def nameWords (term : Term) : List String := term.head.name.toList.map fun name => "\"" ++ name ++ "\""

/-- The words of a term are its kind, its type, its payload, the function it calls and its name. -/
theorem words_eq (term : Term) : term.words =
    term.kind.name :: (term.typeWords ++ (term.payloadWords ++ (term.calledWords ++ term.nameWords))) := by
  have hplain : ∀ (role : Role) (text : String), Word.render false ⟨role, text, ""⟩ = text := by
    intro role text
    simp [Word.render, paint]
  unfold words Word.ofHead typeWords payloadWords calledWords nameWords
  rw [show term.type = term.head.type from rfl]
  cases hvoid : term.head.type.isVoid <;>
    simp [hplain, Function.comp_def, kind]

section Formed

variable {a b : Term}

/-- A formed term shows its type unless it is a block. -/
theorem Formed.typeWords_eq (h : a.Formed) : a.typeWords = if a.kind.isBlock then [] else [a.type.text] := by
  have htype := h.type
  unfold typeWords
  split at htype
  · rename_i hblock
    rw [htype, if_pos hblock]
    rfl
  · rename_i hblock
    rw [ValueType.isNameable, Bool.and_eq_true, Bool.not_eq_true'] at htype
    rw [htype.2, if_neg hblock]
    rfl

/-- A formed term shows one word for its payload exactly if its kind has one. -/
theorem Formed.length_payloadWords (h : a.Formed) :
    a.payloadWords.length = if a.kind.payload = .none then 0 else 1 := by
  have hpayload := h.payload
  unfold payloadWords
  cases hp : a.head.payload <;> rw [hp] at hpayload <;> rw [← hpayload] <;> rfl

/-- A formed term shows a function exactly if it is a call. -/
theorem Formed.length_calledWords (h : a.Formed) : a.calledWords.length = if a.kind = .function then 1 else 0 := by
  have hcalled := h.called
  unfold calledWords
  cases hc : a.called? <;> rw [hc] at hcalled <;> simp_all

end Formed

/-! ## What the words show -/

/-- Different symbols are written differently. -/
theorem toString_symbol_injective {symbol symbol' : SymbolId} (h : toString symbol = toString symbol') : symbol = symbol' := by
  have hindex : toString symbol.index = toString symbol'.index := (String.append_right_inj "$").1 h
  exact Glsl.localName_injective (congrArg ("v" ++ ·) hindex)

/-- The owner and the lane of a member have a point between them. -/
theorem member_injective {owner owner' : SymbolId} {lane lane' : Lane}
    (h : toString owner ++ ("." ++ lane.accessor) = toString owner' ++ ("." ++ lane'.accessor)) :
    owner = owner' ∧ lane = lane' := by
  have hlength : ∀ lane : Lane, ("." ++ lane.accessor).toList.length = 2 := by
    intro lane
    cases lane <;> rfl
  have hlist : (toString owner).toList ++ ("." ++ lane.accessor).toList =
      (toString owner').toList ++ ("." ++ lane'.accessor).toList := by
    rw [← String.toList_append, h, String.toList_append]
  obtain ⟨howner, hlane⟩ := List.append_inj' hlist ((hlength lane).trans (hlength lane').symm)
  refine ⟨toString_symbol_injective (String.toList_injective howner), ?_⟩
  revert hlane
  cases lane <;> cases lane' <;> decide

/-- Formed terms of one kind that show the same type have the same type. -/
theorem type_eq_of_typeWords {a b : Term} (h : a.Formed) (h' : b.Formed) (hkind : a.kind = b.kind)
    (heq : a.typeWords = b.typeWords) : a.type = b.type := by
  rw [h.typeWords_eq, h'.typeWords_eq] at heq
  cases hblock : b.kind.isBlock with
  | true =>
    have ha := h.type
    have hb := h'.type
    rw [hkind, hblock, if_pos rfl] at ha
    rw [hblock, if_pos rfl] at hb
    rw [ha, hb]
  | false =>
    rw [hkind, hblock] at heq
    exact ValueType.text_injective (List.cons.inj heq).1

/-- A payload of a known kind, and of a known type if it is a literal, is shown by its word. -/
theorem payload_face_eq {payload payload' : Payload} (hkind : payload.kind = payload'.kind)
    (htype : ∀ value value', payload = .literal value → payload' = .literal value' → value.type = value'.type)
    (heq : (Word.ofPayload payload).map (Word.render false) = (Word.ofPayload payload').map (Word.render false)) :
    payload.face = payload'.face := by
  cases payload with
  | none =>
    cases payload' with
    | none => rfl
    | _ => cases hkind
  | symbol symbol =>
    cases payload' with
    | symbol symbol' =>
      have hword : toString symbol ++ "" = toString symbol' ++ "" := (List.cons.inj heq).1
      rw [Payload.face, Payload.face, toString_symbol_injective ((String.append_left_inj "").1 hword)]
    | _ => cases hkind
  | literal value =>
    cases payload' with
    | literal value' =>
      have hword : value.text ++ "" = value'.text ++ "" := (List.cons.inj heq).1
      rw [Payload.face, Payload.face, htype value value' rfl rfl, (String.append_left_inj "").1 hword]
    | _ => cases hkind
  | member owner type lane =>
    cases payload' with
    | member owner' type' lane' =>
      obtain ⟨howner, hlane⟩ := member_injective (List.cons.inj heq).1
      rw [Payload.face, Payload.face, howner, hlane]
    | _ => cases hkind

/-- Terms that show the same name have the same name. -/
theorem name_eq_of_nameWords {a b : Term} (h : a.nameWords = b.nameWords) : a.head.name = b.head.name := by
  unfold nameWords at h
  cases ha : a.head.name <;> cases hb : b.head.name <;> rw [ha, hb] at h <;> simp_all

/-- The words of a node show its face: the kind says which of the words is which. -/
theorem face_eq_of_words {a b : Term} (h : a.Formed) (h' : b.Formed) (heq : a.words = b.words) :
    a.head.face = b.head.face := by
  rw [words_eq, words_eq, List.cons.injEq] at heq
  have hkind : a.kind = b.kind := NodeKind.name_injective heq.1
  obtain ⟨htypes, hrest⟩ := List.append_inj heq.2 (by rw [h.typeWords_eq, h'.typeWords_eq, hkind]; split <;> rfl)
  obtain ⟨hpayloads, hrest⟩ := List.append_inj hrest (by rw [h.length_payloadWords, h'.length_payloadWords, hkind])
  obtain ⟨-, hnames⟩ := List.append_inj hrest (by rw [h.length_calledWords, h'.length_calledWords, hkind])
  have htype := type_eq_of_typeWords h h' hkind htypes
  have hpayload : a.head.payload.face = b.head.payload.face := by
    refine payload_face_eq (by rw [h.payload, h'.payload, hkind]) ?_ hpayloads
    intro value value' hv hv'
    rw [h.literal value hv, h'.literal value' hv', htype]
  have hname := name_eq_of_nameWords hnames
  unfold Head.face
  rw [show a.head.kind = b.head.kind from hkind, show a.head.type = b.head.type from htype, hpayload, hname]

/-! ## Characters of words -/

/-- The word has neither a space nor an end of a line in it. -/
def Solid (word : String) : Prop := ' ' ∉ word.toList ∧ '\n' ∉ word.toList

instance (word : String) : Decidable (Solid word) := inferInstanceAs (Decidable (_ ∧ _))

/-- Two solid words make a solid one. -/
theorem Solid.append {left right : String} (h : Solid left) (h' : Solid right) : Solid (left ++ right) :=
  ⟨not_mem_append h.1 h'.1, not_mem_append h.2 h'.2⟩

/-- A word is solid if its characters pass a test that blanks and line ends fail. -/
theorem solid_of_all {word : String} {test : Char → Bool} (h : ∀ c ∈ word.toList, test c = true) (hspace : test ' ' = false)
    (hline : test '\n' = false) : Solid word :=
  ⟨not_mem_of_all h hspace, not_mem_of_all h hline⟩

/-- The words of a payload are solid. -/
theorem solid_payload {payload : Payload} : ∀ word ∈ (Word.ofPayload payload).map (Word.render false), Solid word := by
  intro word hm
  obtain ⟨word, hw, rfl⟩ := List.mem_map.1 hm
  exact solid_of_all (fun _ => isPayloadChar_of_mem hw) (by decide) (by decide)

/-- The words of a formed term are solid. -/
theorem Formed.solid {term : Term} (h : term.Formed) : ∀ word ∈ term.words, Solid word := by
  intro word hm
  rw [words_eq, List.mem_cons, List.mem_append, List.mem_append, List.mem_append] at hm
  rcases hm with rfl | hm | hm | hm | hm
  · cases term.kind <;> decide
  · have hall : ∀ type ∈ ValueType.nameable, Solid type.text := by decide +kernel
    have htype := h.type
    rw [h.typeWords_eq] at hm
    split at hm
    · cases hm
    · rename_i hblock
      rw [if_neg hblock] at htype
      rw [List.mem_singleton.1 hm]
      exact hall _ (ValueType.mem_nameable htype)
  · exact solid_payload word hm
  · obtain ⟨builtin, -, rfl⟩ := List.mem_map.1 hm
    cases builtin <;> decide
  · obtain ⟨name, hname, rfl⟩ := List.mem_map.1 hm
    have hident : Solid name := by
      refine solid_of_all (fun c hc => ?_) (by decide : Identifier.isContinue ' ' = false) (by decide)
      exact Glsl.isContinue_of_isIdentifierChars (h.name name (Option.mem_toList.1 hname)) hc
    exact ((by decide : Solid "\"").append hident).append (by decide)

/-! ## Labels -/

section Labels

variable {a b term : Term}

/-- The words of a formed term are read back from its label at the blanks. -/
theorem Formed.splitOn_label (h : term.Formed) :
    (term.label { types := true }).toList.splitOn ' ' = term.words.map String.toList := by
  show (" ".intercalate term.words).toList.splitOn ' ' = _
  rw [String.toList_intercalate]
  refine List.splitOn_intercalate ' ' ?_ ?_
  · intro cs hm
    obtain ⟨word, hword, rfl⟩ := List.mem_map.1 hm
    exact (h.solid word hword).1
  · rw [words_eq]
    exact List.cons_ne_nil _ _

/-- Formed terms with the same label have the same face. -/
theorem face_eq_of_label (h : a.Formed) (h' : b.Formed) (heq : a.label { types := true } = b.label { types := true }) :
    a.head.face = b.head.face := by
  have hwords : a.words.map String.toList = b.words.map String.toList := by rw [← h.splitOn_label, heq, h'.splitOn_label]
  exact face_eq_of_words h h' (List.map_injective_iff.2 (fun _ _ => String.toList_injective) hwords)

/-- The label of a formed term is one line. -/
theorem Formed.newline_label (h : term.Formed) : '\n' ∉ (term.label { types := true }).toList :=
  not_mem_intercalate (by decide) fun word hm => (h.solid word hm).2

/-- A label begins with the first letter of a kind. -/
theorem space_label (term : Term) : ' ' ∉ (term.label { types := true }).toList.head? := by
  have hkind : ∀ kind : NodeKind, kind.name.toList ≠ [] ∧ ' ' ∉ kind.name.toList.head? := by
    intro kind
    cases kind <;> decide
  have hlabel : ∃ rest, (term.label { types := true }).toList = term.kind.name.toList ++ rest := by
    show ∃ rest, (" ".intercalate term.words).toList = _
    rw [words_eq]
    cases term.typeWords ++ (term.payloadWords ++ (term.calledWords ++ term.nameWords)) with
    | nil => exact ⟨[], by rw [String.intercalate_singleton, List.append_nil]⟩
    | cons next words =>
      rw [String.intercalate_cons_cons, String.append_assoc, String.toList_append]
      exact ⟨_, rfl⟩
  obtain ⟨rest, hrest⟩ := hlabel
  rw [hrest, List.head?_append_of_ne_nil _ (hkind term.kind).1]
  exact (hkind term.kind).2

/-- The lines of nodes show their levels and their faces. -/
theorem faces_eq_of_lines {rows rows' : List (Nat × Term)} (h : ∀ row ∈ rows, row.2.Formed) (h' : ∀ row ∈ rows', row.2.Formed)
    (heq : rows.map (lineOf { types := true }) = rows'.map (lineOf { types := true })) : faces rows = faces rows' := by
  induction rows generalizing rows' with
  | nil =>
    cases rows' with
    | nil => rfl
    | cons => cases heq
  | cons row rows ih =>
    cases rows' with
    | nil => cases heq
    | cons row' rows' =>
      rw [List.map_cons, List.map_cons, List.cons.injEq] at heq
      obtain ⟨hindent, hlabel⟩ := indented_inj (space_label row.2) (space_label row'.2) heq.1
      have hlevel : row.1 = row'.1 := by omega
      have hface := face_eq_of_label (h row List.mem_cons_self) (h' row' List.mem_cons_self) (String.toList_injective hlabel)
      have hrest := ih (fun row hm => h row (List.mem_cons_of_mem _ hm)) (fun row hm => h' row (List.mem_cons_of_mem _ hm)) heq.2
      unfold faces at hrest ⊢
      rw [List.map_cons, List.map_cons, hlevel, hface, hrest]

end Labels

/-! ## Recordings -/

/-- A row of terms is a row of one of them. -/
theorem mem_rowsAll {terms : List Term} {level : Nat} {row : Nat × Term} :
    row ∈ rowsAll level terms ↔ ∃ term ∈ terms, row ∈ term.rows level := by
  induction terms with
  | nil => simp [rowsAll]
  | cons term terms ih => simp [rowsAll, ih]

/-- All nodes of a term show what nodes of their kinds show. -/
def AllFormed (term : Term) : Prop := ∀ level, ∀ row ∈ term.rows level, row.2.Formed

/-- A term is formed throughout if its root is and its children are so throughout. -/
theorem allFormed_node {head : Head} {children : List Term} (h : (node head children).Formed)
    (hc : ∀ child ∈ children, child.AllFormed) : (node head children).AllFormed := by
  intro level row hm
  rw [rows, List.mem_cons, mem_rowsAll] at hm
  rcases hm with rfl | ⟨child, hchild, hm⟩
  · exact h
  · exact hc child hchild _ row hm

end Term

namespace Recording

open Term (AllFormed allFormed_node)

variable {Γ : Ledger} {term : Term} {head : Head} {header : List Term}

/-- The first operand of a call is the number of a function. -/
theorem formed_applied (operator : Operator) (operands : List Term) {type : ValueType} (h : type.isNameable = true) :
    (Term.node { kind := operator.kind, type } (applied operator operands)).Formed := by
  have hkind : operator.kind.isBlock = false ∧ operator.kind.payload = .none ∧ operator.kind.isNamed = false := by
    cases operator with
    | unary op => cases op <;> exact ⟨rfl, rfl, rfl⟩
    | binary op => cases op <;> exact ⟨rfl, rfl, rfl⟩
    | _ => exact ⟨rfl, rfl, rfl⟩
  have hcalled : (Term.node { kind := operator.kind, type } (applied operator operands)).called?.isSome =
      (operator.kind == .function) := by
    cases operator with
    | unary op => cases op <;> rfl
    | binary op => cases op <;> rfl
    | call builtin =>
      show (Builtin.ofId? builtin.id).isSome = true
      rw [Glsl.ofId?_id]
      rfl
    | _ => rfl
  refine ⟨?_, hkind.2.1.symm, ?_, hcalled, hkind.2.2.symm, ?_⟩
  · show if operator.kind.isBlock then type = .void else type.isNameable = true
    rw [hkind.1]
    exact h
  · rintro _ ⟨⟩
  · rintro _ ⟨⟩

/-- A constant is formed throughout. -/
theorem allFormed_constant (value : Literal) : (constant value).AllFormed := by
  refine allFormed_node ⟨ValueType.isNameable_literal value, rfl, ?_, rfl, rfl, ?_⟩ (by simp)
  · rintro _ ⟨⟩
    rfl
  · rintro _ ⟨⟩

/-- An expression is formed throughout. -/
theorem Expression.allFormed (h : Expression Γ term) : term.AllFormed := by
  induction h with
  | reference h =>
    refine allFormed_node ⟨h.isNameable, rfl, ?_, rfl, rfl, ?_⟩ (by simp)
    · rintro _ ⟨⟩
    · rintro _ ⟨⟩
  | constant value => exact allFormed_constant value
  | laneOf h hl =>
    refine allFormed_node ⟨ValueType.isNameable_of_lane? hl.type_eq, rfl, ?_, rfl, rfl, ?_⟩ (by simp)
    · rintro _ ⟨⟩
    · rintro _ ⟨⟩
  | apply operator operands ho ht hs ih =>
    refine allFormed_node (formed_applied operator operands (Expression.apply operator operands ho ht hs).isNameable) ?_
    intro child hm
    cases operator with
    | call builtin =>
      rcases List.mem_cons.1 hm with rfl | hm
      · exact allFormed_constant _
      · exact ih child hm
    | _ => exact ih child hm

/-- A block without a counter shows its kind and nothing else. -/
theorem formed_block {kind : NodeKind} (hb : kind.isBlock = true) (hn : kind.isNamed = false) (children : List Term) :
    (Term.node { kind, type := .void } children).Formed := by
  cases kind with
  | program | constData | outData | main | block | ifBranch | elseIfBranch | elseBranch | whileLoop =>
    refine ⟨rfl, rfl, ?_, rfl, rfl, ?_⟩
    · rintro _ ⟨⟩
    · rintro _ ⟨⟩
  | forRange => cases hn
  | _ => cases hb

/-- A block with a header is formed. -/
theorem Header.formed (h : Header Γ head header) (children : List Term) : (Term.node head children).Formed := by
  have hblock := h.shape.2
  cases h with
  | @plain kind h =>
    have hall : ∀ kind ∈ [NodeKind.program, .constData, .outData, .main, .block, .elseBranch], kind.isNamed = false := by decide
    exact formed_block hblock (hall kind h) children
  | @condition kind _ h =>
    have hall : ∀ kind ∈ [NodeKind.ifBranch, .elseIfBranch, .whileLoop], kind.isNamed = false := by decide
    exact formed_block hblock (hall kind h) children
  | count _ _ _ _ _ hn =>
    refine ⟨rfl, rfl, ?_, rfl, rfl, ?_⟩
    · rintro _ ⟨⟩
    · rintro _ ⟨⟩
      exact hn

/-- An item is formed throughout. -/
theorem Item.allFormed (h : Item Γ term) : term.AllFormed := by
  induction h with
  | input h hn =>
    refine allFormed_node ⟨h.isNameable, rfl, ?_, rfl, rfl, ?_⟩ (by simp)
    · rintro _ ⟨⟩
    · rintro _ ⟨⟩
      exact hn
  | output h _ hn =>
    refine allFormed_node ⟨h.isNameable, rfl, ?_, rfl, rfl, ?_⟩ (by simp)
    · rintro _ ⟨⟩
    · rintro _ ⟨⟩
      exact hn
  | assign ht hv _ =>
    refine allFormed_node ⟨ht.expression.isNameable, rfl, ?_, rfl, rfl, ?_⟩ ?_
    · rintro _ ⟨⟩
    · rintro _ ⟨⟩
    · intro child hm
      rcases List.mem_pair.1 hm with rfl | rfl
      · exact ht.expression.allFormed
      · exact hv.allFormed
  | block header body hh _ _ ih =>
    refine allFormed_node (hh.formed _) fun child hm => ?_
    rcases List.mem_append.1 hm with hm | hm
    · exact (hh.expression child hm).allFormed
    · exact ih child hm

end Recording

/-! ## Dumps -/

namespace Arena

/-- The line of a node: two spaces a level and the label of the node. -/
def LineOf (arena : Arena) (root id : NodeId) (line : List Char) : Prop :=
  ∃ level node label, arena.AtLevel root level id ∧ arena.get? id = some node ∧
    arena.label { types := true } node = .ok label ∧ line = List.replicate (2 * level) ' ' ++ label.toList

/-- A dump whose labels keep to their lines has one line a node. -/
theorem Owned.lines_eq {arena : Arena} (ho : arena.Owned) {tree : Tree} (h : arena.Holds tree) (hf : tree.term.AllFormed) :
    ∃ lines, Glsl.linesOf (Term.listing { types := true } (tree.term.rows 0)) = lines ++ [[]] ∧
      List.Forall₂ (arena.LineOf tree.id) tree.ids lines := by
  refine ⟨_, Term.linesOf_listing fun row hm => (hf 0 row hm).newline_label, ?_⟩
  rw [tree.rows_term 0, tree.ids_eq_levels 0, List.map_map, List.forall₂_map_left_iff, List.forall₂_map_right_iff,
    List.forall₂_same]
  intro row hm
  obtain ⟨hheld, hlevel⟩ := ho.atLevel_levels tree 0 h .root row hm
  obtain ⟨node, hn, hhead, hchildren⟩ := get?_of_content? hheld.content
  exact ⟨row.1, node, _, hlevel, hn, label_eq { types := true } hheld hhead hchildren, rfl⟩

end Arena

namespace Recording

open Relation (ReflTransGen)

/-- A finished recording unfolds to a tree whose nodes show what nodes of their kinds show. -/
theorem exists_formed_of_finish {steps : List Script.Step} {source : Source}
    (h : (Script.runEvery steps .start).2.session.finish = .ok source) : ∃ tree, source.arena.Owned ∧
      source.arena.tree Session.root = .ok tree ∧ tree.term.AllFormed := by
  obtain ⟨Γ, tree, htree, hrecorded⟩ := exists_recorded_of_finish h
  obtain ⟨hsame, -, -⟩ := Refinement.every_same steps Refinement.start_same
  obtain ⟨frame, frames, hm⟩ := hsame.session
  refine ⟨tree, ?_, htree, hrecorded.item.allFormed⟩
  rw [(finish_eq_ok_iff.1 h).2]
  exact hm.owned

/-- Two finished recordings with the same dump have the same outline: their trees agree in the children of every node, and node by
node in kind, type, symbol or owner and lane, type and text of a literal, and name. A dump has one line for each node that belongs
to the program, in the order of a walk, with two spaces a level. -/
theorem dump_determines_outline (steps steps' : List Script.Step) (source source' : Source)
    (h : (Script.runEvery steps .start).2.session.finish = .ok source)
    (h' : (Script.runEvery steps' .start).2.session.finish = .ok source') :
    ∃ tree tree' text text', source.arena.tree Session.root = .ok tree ∧ source'.arena.tree Session.root = .ok tree' ∧
      source.dump { types := true } = .ok text ∧ source'.dump { types := true } = .ok text' ∧
      (text = text' → tree.term.outline = tree'.term.outline) ∧
      ∃ ids lines, source.arena.preorder Session.root = .ok ids ∧ ids.Nodup ∧
        (∀ id, id ∈ ids ↔ ReflTransGen source.arena.Under id Session.root) ∧ Glsl.linesOf text = lines ++ [[]] ∧
        List.Forall₂ (source.arena.LineOf Session.root) ids lines := by
  obtain ⟨tree, ho, htree, hformed⟩ := exists_formed_of_finish h
  obtain ⟨tree', ho', htree', hformed'⟩ := exists_formed_of_finish h'
  obtain ⟨hheld, hroot⟩ := ho.tree_eq_ok_iff.1 htree
  refine ⟨tree, tree', _, _, htree, htree', ho.dump_eq _ htree, ho'.dump_eq _ htree', fun heq => ?_, ?_⟩
  · have hlines : (tree.term.rows 0).map (Term.lineOf { types := true }) =
        (tree'.term.rows 0).map (Term.lineOf { types := true }) := by
      have hsame := congrArg Glsl.linesOf heq
      rw [Term.linesOf_listing fun row hm => (hformed 0 row hm).newline_label,
        Term.linesOf_listing fun row hm => (hformed' 0 row hm).newline_label] at hsame
      exact List.append_cancel_right hsame
    have hfaces := Term.faces_eq_of_lines (hformed 0) (hformed' 0) hlines
    refine (@Term.outline_eq_of_rows tree.term tree'.term 0 [] [] ?_ ?_ ?_).1
    · rintro row ⟨⟩
    · rintro row ⟨⟩
    · rw [hfaces]
  · obtain ⟨lines, htext, hlines⟩ := ho.lines_eq hheld hformed
    rw [← hroot]
    exact ⟨tree.ids, lines, ho.preorder_eq hheld, ho.nodup_ids tree hheld, fun id => ho.mem_ids_iff hheld, htext, hlines⟩

/-- A loop that writes a lane and calls a function with a constant that is no number. Of such constants there are many, and all
are shown alike. -/
def loopSteps (bits : UInt32) : List Script.Step :=
  [.block (.enter .outData) none [.call (.output .float2 "result") (some "result") false] false,
    .block (.enter .main) none
      [.block (.forRange "i" (.literal (.int (-1))) (.literal (.int 4))) none
        [.call (.express (.call .sin) [.literal (.float ⟨bits⟩)]) (some "sine") false,
          .call (.lane "result" .y) (some "lane") false, .call (.assign "lane" (.register "sine")) none false] false] false]

def loopText : String :=
  "Program\n  OutData\n    OutVar float2 $0 \"result\"\n  Main\n    ForRange $1 \"i\"\n      Literal int -1\n" ++
    "      Literal int 4\n      Assignment float\n        Member float $0.y\n        Function float sin\n" ++
    "          Literal int 2\n          Literal float NaN\n"

/-- Two recordings with different constants and the same dump, which have the same outline. -/
theorem dump_determines_outline_nan :
    (sourceOf (loopSteps 0x7fc00000)).dump { types := true } = .ok loopText ∧
      (sourceOf (loopSteps 0xffc00001)).dump { types := true } = .ok loopText ∧
      (sourceOf (loopSteps 0x7fc00000)).arena.get? ⟨9⟩ ≠ (sourceOf (loopSteps 0xffc00001)).arena.get? ⟨9⟩ ∧
      ∃ tree tree', (sourceOf (loopSteps 0x7fc00000)).arena.tree Session.root = .ok tree ∧
        (sourceOf (loopSteps 0xffc00001)).arena.tree Session.root = .ok tree' ∧ tree.term.outline = tree'.term.outline := by
  have hdump : (sourceOf (loopSteps 0x7fc00000)).dump { types := true } = .ok loopText := by decide +kernel
  have hdump' : (sourceOf (loopSteps 0xffc00001)).dump { types := true } = .ok loopText := by decide +kernel
  obtain ⟨tree, tree', text, text', htree, htree', htext, htext', houtline, -⟩ :=
    dump_determines_outline (loopSteps 0x7fc00000) (loopSteps 0xffc00001) _ _
      (finish_eq_ok_iff.2 ⟨by decide +kernel, rfl⟩) (finish_eq_ok_iff.2 ⟨by decide +kernel, rfl⟩)
  refine ⟨hdump, hdump', by decide +kernel, tree, tree', htree, htree', houtline ?_⟩
  rw [hdump] at htext
  rw [hdump'] at htext'
  exact (Except.ok.inj htext).symm.trans (Except.ok.inj htext')

end Recording

end ShaderTrace
