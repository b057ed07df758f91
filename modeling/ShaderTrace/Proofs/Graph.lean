import ShaderTrace.Proofs.Listing
import ShaderTrace.Proofs.Preorder

/-!
# What a graph shows

The graph of a node has one entry a node below it, in the order of a walk, and after it one entry for each edge to a child
(`Owned.dot_eq`). Ownership is sound, so no edge is shown twice and no node either (`count_edge`, `count_vertex`). A label stands
between quotes, and a reader who takes a backslash from before what follows it finds the label and where it ends, whatever
characters it has (`unquote_escapeChars`). The main statement is `dot_shows_graph`.
-/

namespace ShaderTrace

/-- An entry of a graph. -/
inductive GraphEntry where
  | vertex (id : NodeId) (label : String)
  | edge (source target : NodeId)
deriving DecidableEq

namespace GraphEntry

def text : GraphEntry → String
  | vertex id label => "  n" ++ toString id.index ++ " [label=\"" ++ Arena.escape label ++ "\"];\n"
  | edge source target => "  n" ++ toString source.index ++ " -> n" ++ toString target.index ++ ";\n"

/-- Entries one after the other. -/
def textAll (entries : List GraphEntry) : String := String.join (entries.map text)

/-- The entry is that of a node. -/
def isVertexOf (id : NodeId) : GraphEntry → Bool
  | vertex other _ => other == id
  | edge _ _ => false

theorem textAll_cons (entry : GraphEntry) (entries : List GraphEntry) :
    textAll (entry :: entries) = entry.text ++ textAll entries := by
  rw [textAll, List.map_cons, String.join_cons, textAll]

/-- The text of entries in a row is the texts of its parts. -/
theorem textAll_append (entries entries' : List GraphEntry) :
    textAll (entries ++ entries') = textAll entries ++ textAll entries' := by
  rw [textAll, List.map_append, String.join_append, textAll, textAll]

end GraphEntry

namespace Arena

open Relation GraphEntry

/-! ## Labels between quotes -/

/-- Reads a text to the quote that closes it: the text, without the backslashes that stand before other characters, and what
follows the quote. A text that is not closed is not read. -/
def unquote : List Char → Option (List Char × List Char)
  | [] => none
  | '"' :: rest => some ([], rest)
  | ['\\'] => none
  | '\\' :: c :: rest => (unquote rest).map fun (text, rest) => (c :: text, rest)
  | c :: rest => (unquote rest).map fun (text, rest) => (c :: text, rest)

/-- The text with other characters in the place of one. -/
def substitute (c : Char) (others : List Char) (cs : List Char) : List Char :=
  cs.flatMap fun d => if d = c then others else [d]

/-- Backslashes are doubled first, so that those before quotes are not. -/
theorem escapeChars_eq_substitute (cs : List Char) :
    escapeChars cs = substitute '"' ['\\', '"'] (substitute '\\' ['\\', '\\'] cs) := by
  unfold substitute
  induction cs with
  | nil => rfl
  | cons c cs ih =>
    rw [escapeChars, List.flatMap_cons, List.flatMap_append, ← ih]
    by_cases hslash : c = '\\'
    · subst hslash
      rfl
    · by_cases hquote : c = '"'
      · subst hquote
        rfl
      · simp [hslash, hquote]

/-- A character that is neither a backslash nor a quote stands for itself. -/
theorem unquote_plain {c : Char} (hslash : c ≠ '\\') (hquote : c ≠ '"') (rest : List Char) :
    unquote (c :: rest) = (unquote rest).map fun (text, rest) => (c :: text, rest) := by
  rw [unquote]
  · exact hquote
  · exact fun h _ => hslash h
  · exact fun _ _ h _ => hslash h

/-- A label is read back, and reading ends at the quote that closes it. -/
theorem unquote_escapeChars (cs rest : List Char) : unquote (escapeChars cs ++ '"' :: rest) = some (cs, rest) := by
  induction cs with
  | nil => rw [escapeChars, List.nil_append, unquote]
  | cons c cs ih =>
    rw [escapeChars]
    split
    · rw [List.cons_append, List.cons_append, unquote, ih, Option.map_some]
    · rename_i hplain
      rw [not_or] at hplain
      rw [List.cons_append, unquote_plain hplain.1 hplain.2, ih, Option.map_some]

/-- Different texts are escaped differently. -/
theorem escape_injective : Function.Injective escape := by
  intro label label' h
  have hchars : escapeChars label.toList = escapeChars label'.toList := String.ofList_injective h
  have hread := unquote_escapeChars label.toList []
  rw [hchars, unquote_escapeChars, Option.some.injEq, Prod.mk.injEq] at hread
  exact String.toList_injective hread.1.symm

/-! ## Entries -/

/-- The entries of a node: its own, and one for each edge to a child. -/
def EntriesOf (arena : Arena) (types : Bool) (id : NodeId) (entries : List GraphEntry) : Prop :=
  ∃ node label, arena.get? id = some node ∧ arena.label { types } node = .ok label ∧
    entries = .vertex id label :: node.children.map (.edge id)

section Entries

variable {arena : Arena} {types : Bool}

/-- The edges to the children are written one after the other. -/
theorem foldl_edges (id : NodeId) (children : List NodeId) (out : String) :
    children.foldl (fun out child => out ++ s!"  n{id.index} -> n{child.index};\n") out =
      out ++ textAll (children.map (.edge id)) := by
  induction children generalizing out with
  | nil => exact String.append_empty.symm
  | cons child children ih =>
    rw [List.foldl_cons, ih, List.map_cons, textAll_cons, String.append_assoc]
    rfl

/-- Every node of an arena has its entries, and they are what is written for it. -/
theorem Owned.exists_entriesOf (ho : arena.Owned) (types : Bool) {id : NodeId} (hid : id.index < arena.size) :
    ∃ entries, arena.EntriesOf types id entries ∧ arena.dotEntry types id = .ok (textAll entries) := by
  obtain ⟨tree, htree, rfl⟩ := ho.exists_tree id hid
  obtain ⟨node, hnode, hhead, hchildren⟩ := get?_of_content? htree.content
  have hlabel := label_eq { types } htree hhead hchildren
  refine ⟨_, ⟨node, _, hnode, hlabel, rfl⟩, ?_⟩
  unfold dotEntry
  rw [find_eq_ok_iff.2 hnode]
  show (arena.label { types } node >>= fun label => _) = _
  rw [hlabel, textAll_cons, ← foldl_edges]
  rfl

/-- For nodes of an owned arena there are entries, and their texts are what is written. -/
theorem Owned.exists_entriesOfAll (ho : arena.Owned) (types : Bool) {ids : List NodeId} (h : ∀ id ∈ ids, id.index < arena.size) :
    ∃ groups, List.Forall₂ (arena.EntriesOf types) ids groups ∧
      ids.mapM (arena.dotEntry types) = .ok (groups.map textAll) := by
  induction ids with
  | nil => exact ⟨[], .nil, rfl⟩
  | cons id ids ih =>
    obtain ⟨entries, hentries, hwritten⟩ := ho.exists_entriesOf types (h id List.mem_cons_self)
    obtain ⟨groups, hgroups, hall⟩ := ih fun other hother => h other (List.mem_cons_of_mem id hother)
    refine ⟨entries :: groups, .cons hentries hgroups, ?_⟩
    rw [List.mapM_cons, hwritten, hall]
    rfl

/-- What a graph has between its first and its last line. -/
theorem Owned.dot_eq (ho : arena.Owned) (types : Bool) {tree : Tree} (h : arena.Holds tree) :
    ∃ groups, List.Forall₂ (arena.EntriesOf types) tree.ids groups ∧
      arena.dot types tree.id = .ok ("digraph ast \x7b\n" ++ textAll groups.flatten ++ "\x7d\n") := by
  obtain ⟨groups, hgroups, hall⟩ := ho.exists_entriesOfAll types (Holds.lt_size tree h)
  refine ⟨groups, hgroups, ?_⟩
  have hjoin : String.join (groups.map textAll) = textAll groups.flatten := by
    clear hgroups hall
    induction groups with
    | nil => rfl
    | cons entries groups ih => rw [List.map_cons, String.join_cons, ih, List.flatten_cons, textAll_append]
  unfold dot
  rw [ho.preorder_eq h]
  show (tree.ids.mapM (arena.dotEntry types) >>= fun entries => _) = _
  rw [hall, ← hjoin]
  rfl

variable {ids : List NodeId} {groups : List (List GraphEntry)}

/-- A node is shown as often as it is walked to. -/
theorem count_vertex (h : List.Forall₂ (arena.EntriesOf types) ids groups) (id : NodeId) :
    groups.flatten.countP (isVertexOf id) = ids.count id := by
  induction h with
  | nil => rfl
  | cons hfirst _ ih =>
    obtain ⟨node, label, -, -, rfl⟩ := hfirst
    have hedges : ∀ (source : NodeId) (targets : List NodeId), (targets.map (edge source)).countP (isVertexOf id) = 0 := by
      intro source targets
      rw [List.countP_eq_zero]
      intro entry hentry
      obtain ⟨target, -, rfl⟩ := List.mem_map.1 hentry
      exact Bool.false_ne_true
    rw [List.flatten_cons, List.countP_append, List.countP_cons, hedges, ih, List.count_cons, Nat.zero_add, Nat.add_comm]
    rfl

/-- An edge is shown as often as its source is walked to and lists its target. -/
theorem count_edge (h : List.Forall₂ (arena.EntriesOf types) ids groups) (source target : NodeId) :
    groups.flatten.count (.edge source target) = ids.count source * (arena.childrenOf source).count target := by
  induction h with
  | nil => simp
  | @cons id entries ids groups hfirst _ ih =>
    obtain ⟨node, label, hnode, -, rfl⟩ := hfirst
    rw [List.flatten_cons, List.count_append, ih, List.count_cons_of_ne (by simp)]
    by_cases hid : id = source
    · subst hid
      have hinjective : Function.Injective (edge id) := fun a b hab => (GraphEntry.edge.inj hab).2
      rw [List.count_map_of_injective _ _ hinjective, childrenOf_of_get? hnode, List.count_cons_self, Nat.add_mul, Nat.one_mul,
        Nat.add_comm]
    · have hnone : (node.children.map (edge id)).count (.edge source target) = 0 := by
        rw [List.count_eq_zero]
        intro hmem
        obtain ⟨child, -, heq⟩ := List.mem_map.1 hmem
        exact hid (GraphEntry.edge.inj heq).1
      rw [hnone, Nat.zero_add, List.count_cons_of_ne hid]

/-- A number that is too large is the number of no node. -/
theorem find_of_unknown {id : NodeId} (h : arena.size ≤ id.index) : arena.find id = .error (.unknownNode id) := by
  have hnone : arena.get? id = none := by
    rw [← Option.not_isSome_iff_eq_none, get?_isSome_iff]
    omega
  rw [find, hnone]

/-- From a number of no node no graph is drawn. -/
theorem dot_of_unknown (types : Bool) {root : NodeId} (h : arena.size ≤ root.index) :
    arena.dot types root = .error (.unknownNode root) := by
  simp [dot, preorder, Worklist.run, visit, find_of_unknown h, bind, Except.bind]

end Entries

/-- The graph of a node of an arena has, between its first and its last line, the entries of the nodes below it in the order of a
walk: each node once, followed by the edges to its children from left to right. So each edge is shown once, and both of its ends
are shown once as nodes. A label, from its opening quote on, is read back as the label without colour, and reading ends at the
quote that closes it. Nothing but a node of the arena has a graph. Escaping doubles the backslashes and then puts one before each
quote, and different labels stay different. -/
theorem dot_shows_graph (arena : Arena) (ho : arena.Owned) (types : Bool) (root : NodeId) :
    (arena.size ≤ root.index → arena.dot types root = .error (.unknownNode root)) ∧
    (root.index < arena.size → ∃ (ids : List NodeId) (groups : List (List GraphEntry)) (text : String),
      (arena.preorder root = .ok ids ∧ ids.Nodup ∧ ∀ id, id ∈ ids ↔ ReflTransGen arena.Under id root) ∧
      (arena.dot types root = .ok text ∧ text = "digraph ast \x7b\n" ++ textAll groups.flatten ++ "\x7d\n" ∧
        List.Forall₂ (arena.EntriesOf types) ids groups) ∧
      (∀ source target, source ∈ ids → arena.Under target source → groups.flatten.count (.edge source target) = 1) ∧
      (∀ source target, .edge source target ∈ groups.flatten → (source ∈ ids ∧ arena.Under target source) ∧
        groups.flatten.countP (isVertexOf source) = 1 ∧ groups.flatten.countP (isVertexOf target) = 1) ∧
      ∀ before id label after, groups.flatten = before ++ .vertex id label :: after →
        ∃ rest, text.toList =
            ("digraph ast \x7b\n" ++ textAll before ++ "  n" ++ toString id.index ++ " [label=\"").toList ++ rest ∧
          unquote rest = some (label.toList, ("];\n" ++ textAll after ++ "\x7d\n").toList)) ∧
    (∀ label, (escape label).toList = substitute '"' ['\\', '"'] (substitute '\\' ['\\', '\\'] label.toList)) ∧
    Function.Injective escape := by
  refine ⟨dot_of_unknown types, fun hroot => ?_, fun label => ?_, escape_injective⟩
  · obtain ⟨tree, htree, rfl⟩ := ho.exists_tree root hroot
    obtain ⟨groups, hgroups, hdot⟩ := ho.dot_eq types htree
    have hnodup := ho.nodup_ids tree htree
    have hmem : ∀ {id}, id ∈ tree.ids ↔ ReflTransGen arena.Under id tree.id := ho.mem_ids_iff htree
    refine ⟨tree.ids, groups, _, ⟨ho.preorder_eq htree, hnodup, fun id => hmem⟩, ⟨hdot, rfl, hgroups⟩, ?_, ?_, ?_⟩
    · intro source target hsource hunder
      rw [count_edge hgroups, List.count_eq_one_of_mem hnodup hsource,
        List.count_eq_one_of_mem (ho.nodup source) ((ho.linked source target).2 hunder)]
    · intro source target hedge
      have hcount := List.count_pos_iff.2 hedge
      rw [count_edge hgroups] at hcount
      have hsource : source ∈ tree.ids := List.count_pos_iff.1 (Nat.pos_of_mul_pos_right hcount)
      have hunder := (ho.linked source target).1 (List.count_pos_iff.1 (Nat.pos_of_mul_pos_left hcount))
      have htarget : target ∈ tree.ids := hmem.2 (.head hunder (hmem.1 hsource))
      refine ⟨⟨hsource, hunder⟩, ?_, ?_⟩
      · rw [count_vertex hgroups, List.count_eq_one_of_mem hnodup hsource]
      · rw [count_vertex hgroups, List.count_eq_one_of_mem hnodup htarget]
    · intro before id label after hsplit
      refine ⟨escapeChars label.toList ++ '"' :: ("];\n" ++ textAll after ++ "\x7d\n").toList, ?_, unquote_escapeChars _ _⟩
      rw [hsplit, textAll_append, textAll_cons, GraphEntry.text, escape]
      simp
  · rw [escape, String.toList_ofList, escapeChars_eq_substitute]

/-- Two declarations, of which one is named as if its label were closed and an edge followed it. -/
def quotedEdits : List Edit :=
  [.alloc { kind := .constData, type := .void },
    .alloc ((Head.ofSymbol .constVar .float ⟨0⟩).named "\\\"];\n  n0 -> n2;"),
    .alloc ((Head.ofSymbol .constVar .int ⟨1⟩).named "b"),
    .attach ⟨0⟩ ⟨2⟩, .attach ⟨0⟩ ⟨1⟩]

/-- Names with quotes, backslashes and line ends in them cannot forge an edge. -/
theorem dot_shows_graph_quoted :
    (Arena.empty.editAll quotedEdits).Owned ∧ 0 < (Arena.empty.editAll quotedEdits).size ∧
      ∃ groups : List (List GraphEntry), (Arena.empty.editAll quotedEdits).dot true ⟨0⟩ = .ok ("digraph ast \x7b\n" ++
          "  n0 [label=\"ConstData\"];\n  n0 -> n2;\n  n0 -> n1;\n  n2 [label=\"ConstVar int $1 \\\"b\\\"\"];\n" ++
          "  n1 [label=\"ConstVar float $0 \\\"\\\\\\\"];\n  n0 -> n2;\\\"\"];\n" ++ "\x7d\n") ∧
        List.Forall₂ ((Arena.empty.editAll quotedEdits).EntriesOf true) [⟨0⟩, ⟨2⟩, ⟨1⟩] groups ∧
        groups.flatten.count (.edge ⟨0⟩ ⟨2⟩) = 1 := by
  have howned := owned_editAll quotedEdits
  have hroot : (⟨0⟩ : NodeId).index < (Arena.empty.editAll quotedEdits).size := by decide +kernel
  have hwalk : (Arena.empty.editAll quotedEdits).preorder ⟨0⟩ = .ok [⟨0⟩, ⟨2⟩, ⟨1⟩] := by decide +kernel
  have hunder : (Arena.empty.editAll quotedEdits).parent? ⟨2⟩ = some ⟨0⟩ := by decide +kernel
  obtain ⟨-, hgraph, -⟩ := dot_shows_graph _ howned true ⟨0⟩
  obtain ⟨ids, groups, text, ⟨hids, -⟩, ⟨-, -, hgroups⟩, hedges, -⟩ := hgraph hroot
  obtain rfl : [⟨0⟩, ⟨2⟩, ⟨1⟩] = ids := by simpa [hwalk] using hids
  exact ⟨howned, hroot, groups, by decide +kernel, hgroups, hedges ⟨0⟩ ⟨2⟩ List.mem_cons_self hunder⟩

end Arena

end ShaderTrace
