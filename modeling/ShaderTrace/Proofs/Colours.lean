import ShaderTrace.Proofs.Graph
import ShaderTrace.Proofs.Heads
import ShaderTrace.Proofs.Outline
import ShaderTrace.Proofs.Text.Written

/-!
# Colours only decorate

A text for a terminal is cut into the characters that are shown and the sequences that set a colour or reset it (`pieces`). A
coloured text `Decorates` a plain one if it is cut by itself, whatever follows it, shows the plain text and closes each of its
spans on the line on which it was opened. Words between their two sequences do so, and what is put together from such texts does so
again: labels, lines and whole dumps. The only texts in a dump that could be mistaken for a sequence are names, so the main
statement (`colours_decorate`) asks of these that they have no escape character and no end of a line.
-/

namespace ShaderTrace

/-! ## Texts for a terminal -/

/-- A piece of a text for a terminal: a character that is shown, or a sequence with its parameter. -/
inductive Piece where
  | shown (c : Char)
  | code (parameter : String)
deriving DecidableEq

/-- The sequence that a text begins with: its parameter, and the text after it. -/
def sequence? : List Char → Option (String × List Char)
  | '\x1b' :: '[' :: cs =>
    match cs.dropWhile Char.isDigit with
    | 'm' :: rest => some (String.ofList (cs.takeWhile Char.isDigit), rest)
    | _ => none
  | _ => none

/-- A sequence has characters. -/
theorem length_lt_of_sequence? {cs rest : List Char} {parameter : String} (h : sequence? cs = some (parameter, rest)) :
    rest.length < cs.length := by
  unfold sequence? at h
  split at h
  · rename_i digits
    split at h
    · rename_i hdrop
      cases h
      have hle := (List.dropWhile_sublist Char.isDigit (l := digits)).length_le
      rw [hdrop, List.length_cons] at hle
      rw [List.length_cons, List.length_cons]
      omega
    · cases h
  · cases h

/-- A text, cut from its front into characters and sequences. -/
def pieces (cs : List Char) : List Piece :=
  match cs with
  | [] => []
  | c :: rest =>
    match _h : sequence? (c :: rest) with
    | some (parameter, after) => .code parameter :: pieces after
    | none => .shown c :: pieces rest
termination_by cs.length
decreasing_by
  · exact length_lt_of_sequence? _h
  · exact Nat.lt_succ_self _

theorem pieces_nil : pieces [] = [] := by rw [pieces]

/-- A character that does not begin a sequence is shown. -/
theorem pieces_shown {c : Char} (h : c ≠ '\x1b') (cs : List Char) : pieces (c :: cs) = .shown c :: pieces cs := by
  have hnone : sequence? (c :: cs) = none := by
    unfold sequence?
    split
    · rename_i hcons
      exact absurd (List.cons.inj hcons).1 h
    · rfl
  rw [pieces]
  split
  · rename_i hsome
    rw [hnone] at hsome
    cases hsome
  · rfl

/-- A sequence whose parameter has only digits is cut off whole. -/
theorem pieces_code {parameter : String} (h : ∀ c ∈ parameter.toList, c.isDigit = true) (cs : List Char) :
    pieces (("\x1b[" ++ parameter ++ "m").toList ++ cs) = .code parameter :: pieces cs := by
  have hsequence : sequence? ('\x1b' :: '[' :: (parameter.toList ++ 'm' :: cs)) = some (parameter, cs) := by
    have hm : 'm'.isDigit = false := by decide
    rw [sequence?, List.dropWhile_append_of_pos h, List.takeWhile_append_of_pos h,
      List.dropWhile_cons_of_neg (by rw [hm]; exact Bool.false_ne_true),
      List.takeWhile_cons_of_neg (by rw [hm]; exact Bool.false_ne_true), List.append_nil, String.ofList_toList]
    rfl
  have htext : ("\x1b[" ++ parameter ++ "m").toList ++ cs = '\x1b' :: '[' :: (parameter.toList ++ 'm' :: cs) := by
    rw [String.toList_append, String.toList_append, List.append_assoc, List.append_assoc]
    rfl
  rw [htext, pieces]
  split
  · rename_i hsome
    rw [hsequence] at hsome
    cases hsome
    rfl
  · rename_i hnone
    rw [hsequence] at hnone
    cases hnone

/-- The character that is shown, if it is not a sequence. -/
def Piece.char? : Piece → Option Char
  | .shown c => some c
  | .code _ => none

/-- The parameter of a sequence. -/
def Piece.parameter? : Piece → Option String
  | .shown _ => none
  | .code parameter => some parameter

/-- The parameter of the sequence that closes a span. -/
def reset : String := "0"

/-- Whether a span is open after a piece, from whether one was open before it. Nothing follows if the piece may not stand there: an
open span takes no other sequence than a reset and goes over no end of a line, and nothing is reset where no span is open. -/
def Piece.next (inside : Bool) : Piece → Option Bool
  | .shown c => if inside ∧ c = '\n' then none else some inside
  | .code parameter => if (parameter == reset) = inside then some !inside else none

/-- Every span is closed before the next one is opened, before the end of its line and before the end of the text. -/
def Closed (pieces : List Piece) : Prop := pieces.foldlM Piece.next false = some false

/-- The text without its sequences. -/
def uncoloured (text : String) : String := String.ofList ((pieces text.toList).filterMap Piece.char?)

/-! ## Coloured texts -/

/-- The coloured text is cut by itself, whatever follows it. It shows the plain text, its sequences have these parameters, and its
spans are closed. -/
def Decorates (coloured plain : String) (parameters : List String) : Prop :=
  ∃ front, (∀ cs, pieces (coloured.toList ++ cs) = front ++ pieces cs) ∧ front.filterMap Piece.char? = plain.toList ∧
    front.filterMap Piece.parameter? = parameters ∧ Closed front

/-- No sequence begins in the text, and no line ends. -/
def PlainLine (text : String) : Prop := '\x1b' ∉ text.toList ∧ '\n' ∉ text.toList

instance (text : String) : Decidable (PlainLine text) := inferInstanceAs (Decidable (_ ∧ _))

section Decorates

variable {coloured plain coloured' plain' : String} {parameters parameters' : List String}

/-- Two decorated texts in a row are one. -/
theorem Decorates.append (h : Decorates coloured plain parameters) (h' : Decorates coloured' plain' parameters') :
    Decorates (coloured ++ coloured') (plain ++ plain') (parameters ++ parameters') := by
  obtain ⟨front, hcut, hshown, hcodes, hclosed⟩ := h
  obtain ⟨front', hcut', hshown', hcodes', hclosed'⟩ := h'
  refine ⟨front ++ front', fun cs => ?_, ?_, ?_, ?_⟩
  · rw [String.toList_append, List.append_assoc, hcut, hcut', List.append_assoc]
  · rw [List.filterMap_append, hshown, hshown', String.toList_append]
  · rw [List.filterMap_append, hcodes, hcodes']
  · rw [Closed, List.foldlM_append, hclosed]
    exact hclosed'

/-- Characters without an escape character among them are shown one by one. -/
theorem pieces_append_of_not_mem {cs : List Char} (h : '\x1b' ∉ cs) (cs' : List Char) :
    pieces (cs ++ cs') = cs.map .shown ++ pieces cs' := by
  induction cs with
  | nil => rfl
  | cons c cs ih =>
    rw [List.mem_cons, not_or] at h
    rw [List.cons_append, pieces_shown (Ne.symm h.1), ih h.2, List.map_cons, List.cons_append]

/-- Of shown characters all are shown. -/
theorem char?_shown (cs : List Char) : (cs.map Piece.shown).filterMap Piece.char? = cs := by
  rw [List.filterMap_map]
  exact List.filterMap_some

/-- Shown characters have no parameters. -/
theorem parameter?_shown (cs : List Char) : (cs.map Piece.shown).filterMap Piece.parameter? = [] := by
  rw [List.filterMap_map]
  exact List.filterMap_eq_nil_iff.2 fun _ _ => rfl

/-- Characters leave a span open or closed, if no line ends inside of it. -/
theorem next_shown {cs : List Char} {inside : Bool} (h : inside = true → '\n' ∉ cs) :
    (cs.map Piece.shown).foldlM Piece.next inside = some inside := by
  induction cs with
  | nil => rfl
  | cons c cs ih =>
    have hstep : Piece.next inside (.shown c) = some inside := by
      rw [Piece.next, if_neg]
      rintro ⟨hi, rfl⟩
      exact h hi List.mem_cons_self
    rw [List.map_cons, List.foldlM_cons, hstep]
    exact ih fun hi hm => h hi (List.mem_cons_of_mem _ hm)

/-- A text in which no sequence begins decorates itself. -/
theorem decorates_self (h : '\x1b' ∉ plain.toList) : Decorates plain plain [] :=
  ⟨plain.toList.map .shown, pieces_append_of_not_mem h, char?_shown _, parameter?_shown _, next_shown (by rintro ⟨⟩)⟩

/-- A painted text is a span. -/
theorem decorates_paint (role : Role) (h : PlainLine plain) :
    Decorates (paint true role plain) (paint false role plain) [role.colour, reset] := by
  have hdigits : ∀ c ∈ role.colour.toList, c.isDigit = true := List.all_eq_true.1 (by cases role <;> decide)
  have hopen : Piece.next false (.code role.colour) = some true := by cases role <;> decide
  refine ⟨.code role.colour :: (plain.toList.map .shown ++ [.code reset]), fun cs => ?_, ?_, ?_, ?_⟩
  · have htext : (paint true role plain).toList ++ cs =
        ("\x1b[" ++ role.colour ++ "m").toList ++ (plain.toList ++ (("\x1b[" ++ reset ++ "m").toList ++ cs)) := by
      simp only [paint, if_true, String.toList_append, List.append_assoc]
      rfl
    rw [htext, pieces_code hdigits, pieces_append_of_not_mem h.1, pieces_code (List.all_eq_true.1 (by decide)), List.cons_append,
      List.append_assoc]
    rfl
  · rw [List.filterMap_cons_none rfl, List.filterMap_append, char?_shown]
    exact List.append_nil _
  · show role.colour :: (plain.toList.map Piece.shown ++ [Piece.code reset]).filterMap Piece.parameter? = _
    rw [List.filterMap_append, parameter?_shown]
    rfl
  · rw [Closed, List.foldlM_cons, hopen]
    show (plain.toList.map Piece.shown ++ [Piece.code reset]).foldlM Piece.next true = some false
    rw [List.foldlM_append, next_shown fun _ => h.2]
    rfl

end Decorates

/-! ## Words and labels -/

section PlainLine

variable {text text' : String}

/-- Two plain texts in a row are one. -/
theorem PlainLine.append (h : PlainLine text) (h' : PlainLine text') : PlainLine (text ++ text') :=
  ⟨not_mem_append h.1 h'.1, not_mem_append h.2 h'.2⟩

/-- A text is plain if all of its characters pass a test that the escape character and the end of a line fail. -/
theorem plainLine_of_all {test : Char → Bool} (h : ∀ c ∈ text.toList, test c = true) (hescape : test '\x1b' = false)
    (hline : test '\n' = false) : PlainLine text :=
  ⟨not_mem_of_all h hescape, not_mem_of_all h hline⟩

/-- Hexadecimal digits are plain. -/
theorem plainLine_hex (word : UInt32) : PlainLine (ValueType.hex word) := by
  have hdigit : ∀ d < 16, (Nat.digitChar d).isAlphanum = true := by decide
  have hdigits : ∀ (n : Nat), ∀ c ∈ Nat.toDigits 16 n, c.isAlphanum = true := by
    intro n
    induction n using Nat.strong_induction_on with
    | _ n ih =>
      intro c hc
      rw [Nat.toDigits_eq_if (by decide)] at hc
      split at hc
      · rw [List.mem_singleton.1 hc]
        exact hdigit n ‹_›
      · rw [List.mem_append, List.mem_singleton] at hc
        rcases hc with hc | rfl
        · exact ih (n / 16) (by omega) c hc
        · exact hdigit _ (Nat.mod_lt _ (by decide))
  refine plainLine_of_all (fun c hc => hdigits word.toNat c ?_) (by decide) (by decide)
  rwa [ValueType.hex, String.toList_ofList] at hc

/-- No type has a name that could be mistaken for a sequence, and no other word for a type either. -/
theorem plainLine_type (type : ValueType) : PlainLine type.text := by
  have hbase : PlainLine type.baseName := by
    have hall : ∀ entry ∈ ValueType.baseTypes, PlainLine entry.2 := by decide
    unfold ValueType.baseName
    cases hname : ValueType.baseTypes.lookup type.base with
    | none => decide
    | some name =>
      obtain ⟨before, after, heq, -⟩ := List.lookup_eq_some_iff.1 hname
      exact hall (type.base, name) (heq ▸ List.mem_append_right before List.mem_cons_self)
  unfold ValueType.text
  split
  · exact ((by decide : PlainLine "invalid(0x").append (plainLine_hex type.bits)).append (by decide)
  · split
    · exact ((by decide : PlainLine "buffer1d<").append hbase).append (by decide)
    · split
      · exact ((by decide : PlainLine "buffer2d<").append hbase).append (by decide)
      · exact hbase

end PlainLine

namespace Word

/-- The parameters of the sequences around a word. -/
def parameters (word : Word) : List String := [word.role.colour, reset]

/-- The words of a label are quiet if the name in it is. -/
theorem plainLine_ofHead {head : Head} (h : ∀ name ∈ head.name, PlainLine name) (types : Bool) (called : Option Builtin) :
    ∀ word ∈ ofHead types head called, PlainLine (word.text ++ word.tail) := by
  have hempty : PlainLine "" := by decide
  intro word hm
  unfold ofHead at hm
  rw [List.mem_append, List.mem_append, List.mem_append, List.mem_append] at hm
  rcases hm with (((hm | hm) | hm) | hm) | hm
  · rw [List.mem_singleton.1 hm]
    show PlainLine (head.kind.name ++ "")
    cases head.kind <;> decide
  · split at hm
    · rw [List.mem_singleton.1 hm]
      exact (plainLine_type head.type).append hempty
    · cases hm
  · exact plainLine_of_all (fun _ => Term.isPayloadChar_of_mem hm) (by decide) (by decide)
  · obtain ⟨builtin, -, rfl⟩ := List.mem_map.1 hm
    cases builtin <;> decide
  · obtain ⟨name, hname, rfl⟩ := List.mem_map.1 hm
    have hquoted : PlainLine ("\"" ++ name ++ "\"") :=
      ((by decide : PlainLine "\"").append (h name (Option.mem_toList.1 hname))).append (by decide)
    exact hquoted.append hempty

/-- Plain words without colours are a plain text. -/
theorem plainLine_renderAll {words : List Word} (h : ∀ word ∈ words, PlainLine (word.text ++ word.tail)) :
    PlainLine (renderAll false words) := by
  have hwords : ∀ text ∈ words.map (render false), PlainLine text := List.forall_mem_map.2 h
  exact ⟨not_mem_intercalate (by decide) fun text hm => (hwords text hm).1,
    not_mem_intercalate (by decide) fun text hm => (hwords text hm).2⟩

/-- A plain word between its two sequences decorates itself. -/
theorem decorates_render {word : Word} (h : PlainLine (word.text ++ word.tail)) :
    Decorates (word.render true) (word.render false) word.parameters := by
  unfold PlainLine at h
  rw [String.toList_append, List.mem_append, List.mem_append, not_or, not_or] at h
  exact (decorates_paint word.role ⟨h.1.1, h.2.1⟩).append (decorates_self h.1.2)

/-- So does a row of plain words. -/
theorem decorates_renderAll {words : List Word} (h : ∀ word ∈ words, PlainLine (word.text ++ word.tail)) :
    Decorates (renderAll true words) (renderAll false words) (words.flatMap parameters) := by
  unfold renderAll
  induction words with
  | nil => exact decorates_self (by decide)
  | cons word words ih =>
    have hfirst := decorates_render (h word List.mem_cons_self)
    have hrest := ih fun other hm => h other (List.mem_cons_of_mem _ hm)
    cases words with
    | nil =>
      rw [List.flatMap_cons, List.flatMap_nil, List.append_nil]
      exact hfirst
    | cons next words =>
      have hspace : Decorates " " " " [] := decorates_self (by decide)
      have hall := (hfirst.append hspace).append hrest
      rw [List.append_nil] at hall
      rw [List.flatMap_cons, List.map_cons, List.map_cons, List.map_cons, List.map_cons, String.intercalate_cons_cons,
        String.intercalate_cons_cons]
      exact hall

end Word

/-! ## Dumps -/

namespace Term

/-- The words of the label of a term. -/
def labelWords (types : Bool) (term : Term) : List Word := Word.ofHead types term.head term.called?

/-- Lines are decorated if all names in them are quiet. -/
theorem decorates_listing (types : Bool) {rows : List (Nat × Term)} (h : ∀ row ∈ rows, ∀ name ∈ row.2.head.name, PlainLine name) :
    Decorates (listing ⟨types, true⟩ rows) (listing ⟨types, false⟩ rows)
      (rows.flatMap fun row => (row.2.labelWords types).flatMap Word.parameters) := by
  induction rows with
  | nil =>
    rw [listing_nil, listing_nil]
    exact decorates_self (by decide)
  | cons row rows ih =>
    have hindent : Decorates (Arena.indentation row.1) (Arena.indentation row.1) [] := by
      refine decorates_self ?_
      rw [Arena.indentation, String.toList_ofList, List.mem_replicate]
      exact fun hm => absurd hm.2 (by decide)
    have hlabel := Word.decorates_renderAll (Word.plainLine_ofHead (h row List.mem_cons_self) types row.2.called?)
    have hend : Decorates "\n" "\n" [] := decorates_self (by decide)
    have hrest := ih fun other hm => h other (List.mem_cons_of_mem _ hm)
    have hall := ((hindent.append hlabel).append hend).append hrest
    rw [List.nil_append, List.append_nil] at hall
    rw [listing_cons, listing_cons, List.flatMap_cons]
    exact hall

end Term

namespace Arena

section Dumps

variable {arena : Arena}

/-- Nothing is dumped for a number that is no node. -/
theorem dump_of_unknown (style : DumpStyle) {root : NodeId} (h : arena.size ≤ root.index) :
    arena.dump style root = .error (.unknownNode root) := by
  simp [dump, Worklist.run, dumpLine, find_of_unknown h, bind, Except.bind]

/-- What all nodes of an arena say is said by the rows of every dump. -/
theorem AllHeads.rows {holds : Head → Prop} (h : arena.AllHeads holds) (ho : arena.Owned) {tree : Tree} (ht : arena.Holds tree) :
    ∀ row ∈ tree.term.rows 0, holds row.2.head := by
  intro row hm
  rw [tree.rows_term 0] at hm
  obtain ⟨place, hplace, rfl⟩ := List.mem_map.1 hm
  rw [place.2.term_head]
  exact h.tree (ho.atLevel_levels tree 0 ht .root place hplace).1

/-- What all names of an arena have to be for its dumps to be decorated only. -/
def QuietNames (arena : Arena) : Prop := arena.AllHeads fun head => ∀ name ∈ head.name, PlainLine name

/-- Escaping brings in nothing but backslashes. -/
theorem not_mem_escapeChars {c : Char} {cs : List Char} (hc : c ≠ '\\') (h : c ∉ cs) : c ∉ escapeChars cs := by
  induction cs with
  | nil => exact h
  | cons d cs ih =>
    rw [List.mem_cons, not_or] at h
    rw [escapeChars]
    split
    · rw [List.mem_cons, List.mem_cons, not_or, not_or]
      exact ⟨hc, h.1, ih h.2⟩
    · rw [List.mem_cons, not_or]
      exact ⟨h.1, ih h.2⟩

/-- The entries of a node have no escape character in them if its name has none. -/
theorem EntriesOf.plain {types : Bool} {id : NodeId} {entries : List GraphEntry} (hn : arena.QuietNames)
    (h : arena.EntriesOf types id entries) : ∀ entry ∈ entries, '\x1b' ∉ entry.text.toList := by
  have hnumber : ∀ id : NodeId, '\x1b' ∉ (toString id.index).toList :=
    fun id hm => absurd (@isConstantChar_toString _ id.index hm) (by decide)
  obtain ⟨node, label, hnode, hlabel, rfl⟩ := h
  intro entry hm
  rcases List.mem_cons.1 hm with rfl | hm
  · obtain ⟨called, -, hlabel⟩ := bind_eq_ok_iff.1 hlabel
    cases hlabel
    have hquiet := Word.plainLine_renderAll (Word.plainLine_ofHead (hn id node hnode) types called)
    have hescaped : '\x1b' ∉ (escape (Word.renderAll false (Word.ofHead types node.head called))).toList := by
      rw [escape, String.toList_ofList]
      exact not_mem_escapeChars (by decide) hquiet.1
    rw [GraphEntry.text]
    simp only [String.toList_append, List.mem_append, not_or]
    exact ⟨⟨⟨⟨by decide, hnumber id⟩, by decide⟩, hescaped⟩, by decide⟩
  · obtain ⟨child, -, rfl⟩ := List.mem_map.1 hm
    rw [GraphEntry.text]
    simp only [String.toList_append, List.mem_append, not_or]
    exact ⟨⟨⟨⟨by decide, hnumber id⟩, by decide⟩, hnumber child⟩, by decide⟩

/-- Nor have the entries of a row of nodes. -/
theorem plain_entries {types : Bool} {ids : List NodeId} {groups : List (List GraphEntry)} (hn : arena.QuietNames)
    (h : List.Forall₂ (arena.EntriesOf types) ids groups) : ∀ entry ∈ groups.flatten, '\x1b' ∉ entry.text.toList := by
  induction h with
  | nil => exact fun entry hm => by cases hm
  | cons hfirst _ ih =>
    intro entry hm
    rw [List.flatten_cons, List.mem_append] at hm
    exact hm.elim (hfirst.plain hn entry) (ih entry)

/-- A graph has no sequences in it. -/
theorem Owned.plain_dot (ho : arena.Owned) (hn : arena.QuietNames) (types : Bool) {tree : Tree} (ht : arena.Holds tree)
    {text : String} (h : arena.dot types tree.id = .ok text) : '\x1b' ∉ text.toList := by
  obtain ⟨groups, hgroups, hdot⟩ := ho.dot_eq types ht
  have hentries : '\x1b' ∉ (GraphEntry.textAll groups.flatten).toList := by
    rw [GraphEntry.textAll, String.toList_join, List.flatMap_map, List.mem_flatMap]
    rintro ⟨entry, hm, hc⟩
    exact plain_entries hn hgroups entry hm hc
  obtain rfl := Except.ok.inj (h.symm.trans hdot)
  simp only [String.toList_append, List.mem_append, not_or]
  exact ⟨⟨by decide, hentries⟩, by decide⟩

end Dumps

/-- Let no name in the arena have an escape character or an end of a line in it. Without its sequences the coloured dump is the plain
one. Each of its spans is closed before the next one is opened and before the end of its line. If the root is a node of the arena,
there is a dump, and its sequences are those around the words of the labels, in their order. A graph is the same with colours and
without, and has no sequences in it. -/
theorem colours_decorate (arena : Arena) (ho : arena.Owned) (hn : arena.QuietNames) (types : Bool) (root : NodeId) :
    (arena.print .lines ⟨types, true⟩ root).map uncoloured = arena.print .lines ⟨types, false⟩ root ∧
    (∀ text, arena.print .lines ⟨types, true⟩ root = .ok text → Closed (pieces text.toList)) ∧
    (root.index < arena.size → ∃ tree text, arena.tree root = .ok tree ∧ arena.print .lines ⟨types, true⟩ root = .ok text ∧
      (pieces text.toList).filterMap Piece.parameter? =
        (tree.term.rows 0).flatMap fun row => (row.2.labelWords types).flatMap Word.parameters) ∧
    arena.print .graph ⟨types, true⟩ root = arena.print .graph ⟨types, false⟩ root ∧
    ∀ text, arena.print .graph ⟨types, true⟩ root = .ok text → '\x1b' ∉ text.toList := by
  by_cases hroot : root.index < arena.size
  · obtain ⟨tree, hholds, rfl⟩ := ho.exists_tree root hroot
    have htree := ho.tree_eq_ok_iff.2 ⟨hholds, rfl⟩
    have hdump : ∀ coloured, arena.print .lines ⟨types, coloured⟩ tree.id =
        .ok (Term.listing ⟨types, coloured⟩ (tree.term.rows 0)) := fun coloured => ho.dump_eq ⟨types, coloured⟩ htree
    obtain ⟨front, hcut, hshown, hparameters, hclosed⟩ := Term.decorates_listing types (hn.rows ho hholds)
    have hpieces := hcut []
    rw [List.append_nil, pieces_nil, List.append_nil] at hpieces
    refine ⟨?_, fun text htext => ?_, fun _ => ⟨tree, _, htree, hdump true, ?_⟩, rfl, fun text => ho.plain_dot hn types hholds⟩
    · rw [hdump, hdump, Except.map, uncoloured, hpieces, hshown, String.ofList_toList]
    · obtain rfl := Except.ok.inj ((hdump true).symm.trans htext)
      rwa [hpieces]
    · rw [hpieces, hparameters]
  · have hnone : ∀ style, arena.dump style root = .error (.unknownNode root) :=
      fun style => dump_of_unknown style (Nat.le_of_not_lt hroot)
    refine ⟨?_, fun text htext => ?_, fun h => absurd h hroot, rfl, fun text htext => ?_⟩
    · rw [print, print, hnone, hnone]
      rfl
    · rw [print, hnone] at htext
      cases htext
    · rw [print, dot_of_unknown _ (Nat.le_of_not_lt hroot)] at htext
      cases htext

/-- A section with an output whose name has a bracket, a digit and a letter in it, as a sequence has. -/
def paintedEdits : List Edit :=
  [.alloc { kind := .outData, type := .void }, .alloc ((Head.ofSymbol .outVar .float2 ⟨0⟩).named "[0m"), .attach ⟨0⟩ ⟨1⟩]

/-- An output whose name looks like the end of a sequence keeps that name when the colours are taken away. -/
theorem colours_decorate_bracket :
    (Arena.empty.editAll paintedEdits).Owned ∧ (Arena.empty.editAll paintedEdits).QuietNames ∧
      uncoloured ("\x1b[34mOutData\x1b[0m\n" ++
        "  \x1b[34mOutVar\x1b[0m \x1b[2mfloat2\x1b[0m \x1b[2m$0\x1b[0m \x1b[33m\"[0m\"\x1b[0m\n") =
        "OutData\n  OutVar float2 $0 \"[0m\"\n" := by
  have howned := owned_editAll paintedEdits
  have hquiet : (Arena.empty.editAll paintedEdits).QuietNames := by
    refine allHeads_editAll paintedEdits fun head hm name hname => ?_
    simp only [paintedEdits, List.mem_cons, Edit.alloc.injEq, reduceCtorEq, List.not_mem_nil, or_false] at hm
    rcases hm with rfl | rfl
    · cases hname
    · cases hname
      decide
  have hcoloured : (Arena.empty.editAll paintedEdits).print .lines ⟨true, true⟩ ⟨0⟩ = .ok ("\x1b[34mOutData\x1b[0m\n" ++
      "  \x1b[34mOutVar\x1b[0m \x1b[2mfloat2\x1b[0m \x1b[2m$0\x1b[0m \x1b[33m\"[0m\"\x1b[0m\n") := by decide +kernel
  have hplain : (Arena.empty.editAll paintedEdits).print .lines ⟨true, false⟩ ⟨0⟩ =
      .ok "OutData\n  OutVar float2 $0 \"[0m\"\n" := by decide +kernel
  obtain ⟨hstrip, -⟩ := colours_decorate _ howned hquiet true ⟨0⟩
  rw [hcoloured, hplain] at hstrip
  exact ⟨howned, hquiet, Except.ok.inj hstrip⟩

end Arena

end ShaderTrace
