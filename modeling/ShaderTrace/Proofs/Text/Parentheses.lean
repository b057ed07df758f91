import ShaderTrace.Proofs.Generator.Acceptance
import ShaderTrace.Proofs.Text.Composed
import ShaderTrace.Proofs.Text.Mirror

/-!
# Parentheses

A text is `Matched` if as many parentheses are closed in it as are opened, and none is closed before it is opened. The scan that
keeps the depth of open parentheses decides this (`matched_iff`), so the pair that encloses a text is taken away exactly if what is
left is matched. Expressions are put together from spellings without parentheses, one after the other and in parentheses
(`Composed`); so their texts are matched wherever the declared names have no parentheses, and so are the conditions in the headers
of branches and loops (`headers_matched`).
-/

namespace ShaderTrace.Glsl

open Grammar (IsScopeOf)

/-! ## Matched texts -/

/-- As many parentheses are closed as are opened, and at no point more than have been opened before it. -/
def Matched (text : String) : Prop :=
  text.toList.count '(' = text.toList.count ')' ∧ ∀ front, front <+: text.toList → front.count ')' ≤ front.count '('

section Depth

variable {c : Char} {cs : List Char} {depth after : Nat}

/-- Characters other than parentheses do not change the depth. -/
theorem parenDepth?_other (hopen : c ≠ '(') (hclose : c ≠ ')') : parenDepth? depth (c :: cs) = parenDepth? depth cs := by
  rw [parenDepth?]
  · exact hopen
  · exact fun _ h => hclose h
  · exact fun _ _ h => hclose h

/-- What holds of all that a text starts with holds of the empty one, and of all that the rest starts with. -/
theorem forall_front_cons {P : List Char → Prop} :
    (∀ front, front <+: c :: cs → P front) ↔ P [] ∧ ∀ front, front <+: cs → P (c :: front) := by
  simp only [List.prefix_cons_iff]
  constructor
  · intro h
    exact ⟨h [] (.inl rfl), fun front hf => h (c :: front) (.inr ⟨front, rfl, hf⟩)⟩
  · rintro ⟨hnil, hcons⟩ front (rfl | ⟨rest, rfl, hf⟩)
    · exact hnil
    · exact hcons rest hf

/-- The depth after a text, from the numbers of parentheses in it and in what it begins with. -/
theorem parenDepth?_eq_some_iff : parenDepth? depth cs = some after ↔ depth + cs.count '(' = after + cs.count ')' ∧
    ∀ front, front <+: cs → front.count ')' ≤ depth + front.count '(' := by
  induction cs generalizing depth with
  | nil => simp [parenDepth?]
  | cons c cs ih =>
    rw [forall_front_cons]
    by_cases hopen : c = '('
    · subst hopen
      have hne : '(' ≠ ')' := by decide
      simp only [parenDepth?, ih, List.count_cons_self, List.count_cons_of_ne hne, List.count_nil, Nat.zero_le, true_and,
        Nat.add_right_comm depth 1, ← Nat.add_assoc]
    · by_cases hclose : c = ')'
      · subst hclose
        cases depth with
        | zero =>
          -- the first character closes what is not open
          refine iff_of_false (by rintro ⟨⟩) fun h => ?_
          have hfront := h.2.2 [] List.nil_prefix
          simp at hfront
        | succ depth =>
          simp only [parenDepth?, ih, List.count_cons_self, List.count_cons_of_ne hopen, List.count_nil, Nat.zero_le, true_and,
            Nat.add_right_comm depth 1, ← Nat.add_assoc, Nat.add_right_cancel_iff, Nat.add_le_add_iff_right]
      · rw [parenDepth?_other hopen hclose, ih]
        simp only [List.count_cons_of_ne hopen, List.count_cons_of_ne hclose, List.count_nil, Nat.zero_le, true_and]

end Depth

/-- The depth after two texts is that after the second, from that after the first. -/
theorem parenDepth?_append (cs cs' : List Char) (depth : Nat) :
    parenDepth? depth (cs ++ cs') = (parenDepth? depth cs).bind fun depth => parenDepth? depth cs' := by
  fun_induction parenDepth? depth cs with
  | case1 => rfl
  | case2 depth cs ih => rw [List.cons_append, parenDepth?, ih]
  | case3 cs => rfl
  | case4 depth cs ih => rw [List.cons_append, parenDepth?, ih]
  | case5 depth c cs hopen hzero hclose ih =>
    rw [List.cons_append, parenDepth?]
    · exact ih
    · exact hopen
    · exact hzero
    · exact hclose

/-- The scan that keeps the depth decides whether a text is matched. -/
theorem matched_iff {text : String} : Matched text ↔ parenDepth? 0 text.toList = some 0 := by
  simp only [parenDepth?_eq_some_iff, Nat.zero_add]
  rfl

instance (text : String) : Decidable (Matched text) := decidable_of_iff _ matched_iff.symm

section Matched

variable {left right text : String}

/-- A matched text leaves every depth as it is. -/
theorem Matched.depth (h : Matched text) (depth : Nat) : parenDepth? depth text.toList = some depth := by
  refine parenDepth?_eq_some_iff.2 ⟨by rw [h.1], fun front hf => ?_⟩
  exact Nat.le_add_left_of_le (h.2 front hf)

/-- Two matched texts make a matched one. -/
theorem Matched.append (h : Matched left) (h' : Matched right) : Matched (left ++ right) := by
  rw [matched_iff, String.toList_append, parenDepth?_append, h.depth]
  exact h'.depth 0

/-- A matched text is so in parentheses. -/
theorem Matched.wrap (h : Matched text) : Matched ("(" ++ text ++ ")") := by
  rw [matched_iff, String.toList_append, String.toList_append, parenDepth?_append, parenDepth?_append]
  show ((parenDepth? 1 text.toList).bind fun depth => parenDepth? depth [')']) = some 0
  rw [h.depth]
  rfl

/-- A text without parentheses is matched. -/
theorem matched_of_not_mem (hopen : '(' ∉ text.toList) (hclose : ')' ∉ text.toList) : Matched text := by
  refine ⟨by rw [List.count_eq_zero.2 hopen, List.count_eq_zero.2 hclose], fun front hf => ?_⟩
  rw [List.count_eq_zero.2 fun hm => hclose (hf.subset hm)]
  exact Nat.zero_le _

/-- To be matched is kept by what is put together. -/
theorem composed_matched : Composed Matched where
  plain h := matched_of_not_mem (not_mem_of_all h (by decide)) (not_mem_of_all h (by decide))
  append := Matched.append
  wrap := Matched.wrap

end Matched

/-! ## The enclosing pair -/

theorem toList_wrap (text : String) : ("(" ++ text ++ ")").toList = '(' :: (text.toList ++ [')']) := by
  rw [String.toList_append, String.toList_append]
  rfl

/-- Parentheses are stripped off around a matched text, or nothing is. -/
theorem stripParens_cases (text : String) :
    stripParens text = text ∨ text = "(" ++ stripParens text ++ ")" ∧ Matched (stripParens text) := by
  unfold stripParens
  rcases stripParensChars_cases text.toList with heq | ⟨heq, hdepth⟩
  · exact .inl (by rw [heq, String.ofList_toList])
  · refine .inr ⟨String.toList_injective ?_, matched_iff.2 ?_⟩
    · rwa [toList_wrap, String.toList_ofList]
    · rwa [String.toList_ofList]

/-- The parentheses around a matched text are stripped off. -/
theorem stripParens_wrap {inner : String} (h : Matched inner) : stripParens ("(" ++ inner ++ ")") = inner := by
  have hpair : (inner.toList ++ [')']).getLast? = some ')' ∧ parenDepth? 0 (inner.toList ++ [')']).dropLast = some 0 := by
    rw [List.getLast?_concat, List.dropLast_concat]
    exact ⟨rfl, matched_iff.1 h⟩
  rw [stripParens, toList_wrap, stripParensChars, if_pos hpair, List.dropLast_concat, String.ofList_toList]

/-! ## Declared names -/

/-- The names of the inputs and outputs of a program. -/
def declaredNames (root : Tree) : List String := (declared root.term).filterMap (·.head.name)

/-- No declared name has a parenthesis in it. -/
def BareNames (root : Tree) : Prop := ∀ name ∈ declaredNames root, '(' ∉ name.toList ∧ ')' ∉ name.toList

instance (root : Tree) : Decidable (BareNames root) := inferInstanceAs (Decidable (∀ name ∈ declaredNames root, _))

section Names

variable {root : Tree} {scope inside : Scope}

/-- What inputs and outputs are spelled as comes from the declared names. -/
theorem exists_name_of_isScopeOf (h : IsScopeOf root scope) :
    ∀ global ∈ scope.globals, ∃ name ∈ declaredNames root, identFor name = global.2 := by
  obtain ⟨sections, inputs, outputs, hsections, hinputs, houtputs, hglobals⟩ := h
  obtain ⟨-, -, honce, rfl⟩ := sectionsOf_eq_ok_iff.1 hsections
  have hin := (declarations_eq_ok_iff.1 hinputs).1
  have hout := (declarations_eq_ok_iff.1 houtputs).1
  obtain ⟨-, hidents⟩ := @declared_eq root ⟨false, inputs, outputs, []⟩ honce (by simpa [Sections.after] using hin)
    (by simpa [Sections.after] using hout)
  intro global hm
  have hident : global.2 ∈ (inputs ++ outputs).map (·.ident) := by
    rw [hglobals, globalsOf, globalsOf, ← List.map_append] at hm
    obtain ⟨d, hd, rfl⟩ := List.mem_map.1 hm
    exact List.mem_map_of_mem hd
  rw [← hidents] at hident
  exact List.mem_map.1 hident

/-- A scope with the same globals is one of the same program. -/
theorem isScopeOf_of_globals (h : IsScopeOf root scope) (hglobals : inside.globals = scope.globals) : IsScopeOf root inside := by
  obtain ⟨sections, inputs, outputs, hsections, hinputs, houtputs, hscope⟩ := h
  exact ⟨sections, inputs, outputs, hsections, hinputs, houtputs, hglobals.trans hscope⟩

/-- The identifier for a name without parentheses is matched. -/
theorem matched_identFor {name : String} (hopen : '(' ∉ name.toList) (hclose : ')' ∉ name.toList) : Matched (identFor name) := by
  have hname := matched_of_not_mem hopen hclose
  unfold identFor
  split
  · exact hname.append (by decide)
  · exact hname

/-- The variables of a program are matched if its names have no parentheses. -/
theorem BareNames.matched_variableOf (hb : BareNames root) (h : IsScopeOf root scope) (symbol : SymbolId) :
    Matched (scope.variableOf symbol).spelling := by
  rw [Scope.variableOf]
  cases hlookup : scope.globals.lookup symbol with
  | none => exact composed_matched.name (Grammar.isName_localName symbol)
  | some ident =>
    obtain ⟨name, hname, hident⟩ := exists_name_of_isScopeOf h _ (mem_of_lookup hlookup)
    obtain ⟨hopen, hclose⟩ := hb name hname
    rw [Option.getD_some, ← show identFor name = ident from hident]
    exact matched_identFor hopen hclose

end Names

/-! ## Headers -/

section Headers

variable {scope : Scope} {tree : Tree} {trees : List Tree} {texts lines : List String} {depth : Nat} {keyword keyword' : Keyword}
  {inner inner' : String}

/-- The keywords begin with different letters. -/
theorem header_inj (h : keyword.text ++ " (" ++ inner ++ ")" = keyword'.text ++ " (" ++ inner' ++ ")") :
    keyword = keyword' ∧ inner = inner' := by
  have hfirst : ∀ (keyword : Keyword) (inner : String),
      (keyword.text ++ " (" ++ inner ++ ")").toList.head? = keyword.text.toList.head? := by
    intro keyword inner
    cases keyword <;> simp [Keyword.text]
  have hkeyword : keyword = keyword' := by
    have hsame : keyword.text.toList.head? = keyword'.text.toList.head? := by rw [← hfirst, h, hfirst]
    revert hsame
    cases keyword <;> cases keyword' <;> decide
  subst hkeyword
  exact ⟨rfl, (String.append_right_inj _).1 ((String.append_left_inj ")").1 h)⟩

/-- The line of a condition ends with a parenthesis. -/
theorem getLast?_header (keyword : Keyword) (inner : String) :
    (keyword.text ++ " (" ++ inner ++ ")").toList.getLast? = some ')' := by
  rw [String.toList_append]
  exact List.getLast?_concat

/-- A line that reads as a header is that of a branch or a loop with a condition. -/
theorem Heading.exists_condition (h : Heading scope tree texts) (hm : keyword.text ++ " (" ++ inner ++ ")" ∈ texts) :
    ∃ condition value, tree.kind = keyword.kind ∧ tree.children.head? = some condition ∧
      expression scope condition = .ok value ∧ inner = stripParens value.text := by
  have hend : ∀ text : String, keyword.text ++ " (" ++ inner ++ ")" ≠ text ++ ";" := by
    intro text heq
    have hlast := getLast?_header keyword inner
    rw [heq, String.toList_append, show ";".toList = [';'] from rfl, List.getLast?_concat] at hlast
    exact absurd hlast (by decide)
  cases h with
  | define | assign | assignLane => exact absurd (List.mem_singleton.1 hm) (hend _)
  | declareLane =>
    rw [List.mem_cons, List.mem_singleton] at hm
    exact hm.elim (fun heq => absurd heq (hend _)) (fun heq => absurd heq (hend _))
  | guarded keyword' hk hc hcond =>
    obtain ⟨rfl, rfl⟩ := header_inj (List.mem_singleton.1 hm)
    exact ⟨_, _, hk, hc, hcond, rfl⟩
  | otherwise =>
    have hlast := getLast?_header keyword inner
    rw [List.mem_singleton.1 hm] at hlast
    exact absurd hlast (by decide)
  | block => cases hm
  | count =>
    have hfirst := congrArg (fun text : String => text.toList.head?) (List.mem_singleton.1 hm)
    cases keyword <;> simp [Keyword.text] at hfirst

theorem globals_after (scope : Scope) (tree : Tree) : (scope.after tree).globals = scope.globals := by
  unfold Scope.after
  split
  · split <;> rfl
  · rfl

theorem globals_inside (scope : Scope) (tree : Tree) : (scope.inside tree).globals = scope.globals := by
  unfold Scope.inside
  split <;> rfl

theorem lineAt_zero (depth : Nat) (text : String) : lineAt 0 depth text = text := by
  rw [lineAt, Nat.zero_mul]
  exact String.empty_append

theorem map_lineAt_zero (depth : Nat) (texts : List String) : texts.map (lineAt 0 depth) = texts :=
  (List.map_congr_left fun text _ => lineAt_zero depth text).trans (List.map_id texts)

/-- Without indentation, every line is a brace or belongs to one of the statements. -/
theorem Laid.exists_site (h : Laid 0 scope depth trees lines) : ∀ line ∈ lines, line ∈ ["\x7b", "\x7d"] ∨
    ∃ site ∈ sitesAll scope 0 trees, site.1.globals = scope.globals ∧ ∃ texts, Heading site.1 site.2 texts ∧ line ∈ texts := by
  induction h with
  | nil => exact List.forall_mem_nil _
  | @leaf scope _ tree trees texts _ hk hheading _ ih =>
    rw [map_lineAt_zero, sitesAll, sites_of_not_isBlock (by rw [hk]; rfl), List.forall_mem_append]
    refine ⟨fun line hm => .inr ⟨(scope, tree), List.mem_cons_self, rfl, texts, hheading, hm⟩, fun line hm => ?_⟩
    refine (ih line hm).imp_right ?_
    rintro ⟨site, hsite, hglobals, htexts⟩
    exact ⟨site, List.mem_cons_of_mem _ hsite, hglobals.trans (globals_after scope tree), htexts⟩
  | @group scope depth tree trees texts body _ hk hheading _ _ ihbody ih =>
    rw [map_lineAt_zero, fenced, lineAt_zero, lineAt_zero, sitesAll, sites_of_isBlock hk, after_of_isBlock hk,
      List.forall_mem_append, List.forall_mem_append, List.forall_mem_cons, List.forall_mem_append, List.forall_mem_singleton]
    refine ⟨⟨fun line hm => .inr ⟨(scope, tree), List.mem_cons_self, rfl, texts, hheading, hm⟩, .inl (by decide),
      fun line hm => ?_, .inl (by decide)⟩, fun line hm => ?_⟩
    · refine (ihbody line hm).imp_right ?_
      rintro ⟨site, hsite, hglobals, htexts⟩
      exact ⟨site, List.mem_append_left _ (List.mem_cons_of_mem _ hsite), hglobals.trans (globals_inside scope tree), htexts⟩
    · refine (ih line hm).imp_right ?_
      rintro ⟨site, hsite, hrest⟩
      exact ⟨site, List.mem_append_right _ hsite, hrest⟩

/-- Each line of statements that reads as a header has the condition of a branch or a loop among them, without the enclosing pair. -/
theorem exists_condition_of_line {previous : Option NodeKind} {stmts : List Stmt} (h : statements scope previous trees = .ok stmts)
    {line : Line} (hm : line ∈ Stmt.linesAll depth stmts) (htext : line.text = keyword.text ++ " (" ++ inner ++ ")") :
    ∃ inside node condition value, (inside, node) ∈ sitesAll scope 0 trees ∧ inside.globals = scope.globals ∧
      node.kind = keyword.kind ∧ node.children.head? = some condition ∧ expression inside condition = .ok value ∧
      inner = stripParens value.text := by
  rw [← Stmt.map_line_rowsAll] at hm
  obtain ⟨row, hrow, rfl⟩ := List.mem_map.1 hm
  have hwritten : Row.written 0 row = keyword.text ++ " (" ++ inner ++ ")" := (lineAt_zero row.depth row.clause.text).trans htext
  rcases (laid_statements 0 trees h depth).exists_site _ (List.mem_map_of_mem hrow) with
    hbrace | ⟨⟨inside, node⟩, hsite, hglobals, texts, hheading, hin⟩
  · have hlast := getLast?_header keyword inner
    rw [hwritten, List.mem_cons, List.mem_singleton] at hbrace
    rcases hbrace with heq | heq <;> rw [heq] at hlast <;> exact absurd hlast (by decide)
  · rw [hwritten] at hin
    obtain ⟨condition, value, hk, hc, hvalue, hinner⟩ := hheading.exists_condition hin
    exact ⟨inside, node, condition, value, hsite, hglobals, hk, hc, hvalue, hinner⟩

/-- The first line of a branch or a loop with a condition is its header. -/
theorem exists_header (hk : tree.kind = keyword.kind) {stmts : List Stmt} {after : Scope}
    (h : statement scope tree = .ok (stmts, after)) (depth : Nat) :
    ∃ inner rest, Stmt.linesAll depth stmts = ⟨depth, keyword.text ++ " (" ++ inner ++ ")"⟩ :: rest := by
  have hne : keyword.kind ≠ .assignment ∧ keyword.kind ≠ .elseBranch ∧ keyword.kind ≠ .block ∧ keyword.kind ≠ .forRange := by
    cases keyword <;> decide
  cases statement_eq_ok_iff.1 h with
  | define hk' | assign hk' | declareLane hk' | assignLane hk' => exact absurd (hk.symm.trans hk') hne.1
  | @guarded keyword' _ _ value body hk' =>
    have hkeyword : keyword = keyword' := by
      have hkind := hk.symm.trans hk'
      revert hkind
      cases keyword <;> cases keyword' <;> decide
    subst hkeyword
    refine ⟨stripParens value.text, braced depth (Stmt.linesAll (depth + 1) body), ?_⟩
    rw [Stmt.linesAll, Stmt.linesAll, Stmt.lines, List.append_nil]
  | otherwise hk' => exact absurd (hk.symm.trans hk') hne.2.1
  | block hk' => exact absurd (hk.symm.trans hk') hne.2.2.1
  | count hk' => exact absurd (hk.symm.trans hk') hne.2.2.2

end Headers

/-- Taking the enclosing pair of parentheses away is safe. A text loses it exactly if what is left is matched, and stays as it is
otherwise. Let no name that is declared in a program have a parenthesis in it. Then the text of every expression is matched, in
every scope of its shader. A branch or a loop with a condition begins with its header. Each line of the statements that reads as
such a header belongs to such a node, what stands in its parentheses is matched, and with them it is the text of the condition of
this node, or that text in one more pair. -/
theorem headers_matched :
    (∀ text inner, text = "(" ++ inner ++ ")" → Matched inner → stripParens text = inner) ∧
    (∀ text, (∀ inner, text = "(" ++ inner ++ ")" → ¬Matched inner) → stripParens text = text) ∧
    ∀ root scope, IsScopeOf root scope → BareNames root →
      (∀ tree expr, expression scope tree = .ok expr → Matched expr.text) ∧
      (∀ (keyword : Keyword) tree stmts after, tree.kind = keyword.kind → statement scope tree = .ok (stmts, after) →
        ∀ depth, ∃ inner rest, Stmt.linesAll depth stmts = ⟨depth, keyword.text ++ " (" ++ inner ++ ")"⟩ :: rest) ∧
      ∀ previous trees stmts, statements scope previous trees = .ok stmts →
        ∀ depth, ∀ line ∈ Stmt.linesAll depth stmts, ∀ (keyword : Keyword) inner, line.text = keyword.text ++ " (" ++ inner ++ ")" →
          Matched inner ∧ ∃ inside node condition value, (inside, node) ∈ sitesAll scope 0 trees ∧ node.kind = keyword.kind ∧
            node.children.head? = some condition ∧ expression inside condition = .ok value ∧
            ("(" ++ inner ++ ")" = value.text ∨ "(" ++ inner ++ ")" = "(" ++ value.text ++ ")") := by
  refine ⟨?_, fun text hnone => ?_, fun root scope hscope hbare => ?_⟩
  · rintro text inner rfl hinner
    exact stripParens_wrap hinner
  · rcases stripParens_cases text with heq | ⟨heq, hinner⟩
    · exact heq
    · exact absurd hinner (hnone _ heq)
  · have hmatched : ∀ {inside : Scope} {tree : Tree} {expr : Expr}, inside.globals = scope.globals →
        expression inside tree = .ok expr → Matched expr.text := fun hglobals hexpr =>
      composed_matched.expression (hbare.matched_variableOf (isScopeOf_of_globals hscope hglobals)) hexpr
    refine ⟨fun tree expr => hmatched rfl, fun keyword tree stmts after hk hs => exists_header hk hs, ?_⟩
    intro previous trees stmts hstmts depth line hline keyword inner htext
    obtain ⟨inside, node, condition, value, hsite, hglobals, hk, hc, hvalue, rfl⟩ := exists_condition_of_line hstmts hline htext
    rcases stripParens_cases value.text with heq | ⟨heq, hinner⟩
    · rw [heq]
      exact ⟨hmatched hglobals hvalue, inside, node, condition, value, hsite, hk, hc, hvalue, .inr rfl⟩
    · exact ⟨hinner, inside, node, condition, value, hsite, hk, hc, hvalue, .inl heq.symm⟩

/-- A branch on a comparison with an input that is named as a keyword is. -/
def comparedEdits : List Edit :=
  [.alloc { kind := .program, type := .void }, .alloc { kind := .constData, type := .void },
    .alloc ((Head.ofSymbol .constVar .int ⟨0⟩).named "if"), .alloc { kind := .main, type := .void },
    .alloc { kind := .ifBranch, type := .void }, .alloc { kind := .less, type := .bool }, .alloc (.ofSymbol .var .int ⟨0⟩),
    .alloc (.ofLiteral (.int (-2147483648))), .attach ⟨5⟩ ⟨6⟩, .attach ⟨5⟩ ⟨7⟩, .attach ⟨4⟩ ⟨5⟩, .attach ⟨3⟩ ⟨4⟩, .attach ⟨1⟩ ⟨2⟩,
    .attach ⟨0⟩ ⟨1⟩, .attach ⟨0⟩ ⟨3⟩]

/-- The parentheses around the whole comparison go, and those of the constant stay. -/
theorem headers_matched_compared :
    stripParens "((a) + (b))" = "(a) + (b)" ∧ stripParens "(a) + (b)" = "(a) + (b)" ∧
      ∃ root shader, (Arena.empty.editAll comparedEdits).tree ⟨0⟩ = .ok root ∧ shaderOf root = .ok shader ∧ BareNames root ∧
        ⟨0, "if (if_ < (-2147483647 - 1))"⟩ ∈ Stmt.linesAll 0 shader.body ∧ Matched "if_ < (-2147483647 - 1)" ∧
        ∃ inside condition value, expression inside condition = .ok value ∧
          ("(if_ < (-2147483647 - 1))" = value.text ∨ "(if_ < (-2147483647 - 1))" = "(" ++ value.text ++ ")") := by
  have hevaluated : (((Arena.empty.editAll comparedEdits).tree ⟨0⟩).toOption.bind fun root =>
      (shaderOf root).toOption.bind fun shader => if BareNames root then some (Stmt.linesAll 0 shader.body) else none) =
      some [⟨0, "if (if_ < (-2147483647 - 1))"⟩, ⟨0, "\x7b"⟩, ⟨0, "\x7d"⟩] := by decide +kernel
  obtain ⟨root, hroot, hevaluated⟩ := Option.bind_eq_some_iff.1 hevaluated
  obtain ⟨shader, hshader, hevaluated⟩ := Option.bind_eq_some_iff.1 hevaluated
  obtain ⟨hbare, hlines⟩ : BareNames root ∧ Stmt.linesAll 0 shader.body =
      [⟨0, "if (if_ < (-2147483647 - 1))"⟩, ⟨0, "\x7b"⟩, ⟨0, "\x7d"⟩] := by
    split at hevaluated
    · exact ⟨‹_›, Option.some.inj hevaluated⟩
    · cases hevaluated
  obtain ⟨main, hmade⟩ := shaderOf_eq_ok_iff.1 (toOption_eq_some_iff.1 hshader)
  obtain ⟨hstrip, hkeep, hheaders⟩ := headers_matched
  have hline : ⟨0, "if (if_ < (-2147483647 - 1))"⟩ ∈ Stmt.linesAll 0 shader.body := hlines ▸ List.mem_cons_self
  obtain ⟨hmatched, inside, -, condition, value, -, -, -, hvalue, htext⟩ :=
    (hheaders root shader.scope (Grammar.isScopeOf_scope hmade) hbare).2.2 none main.children shader.body hmade.body 0 _ hline .if
      "if_ < (-2147483647 - 1)" rfl
  refine ⟨hstrip _ "(a) + (b)" rfl (by decide), hkeep _ ?_, root, shader, toOption_eq_some_iff.1 hroot,
    toOption_eq_some_iff.1 hshader, hbare, hline, hmatched, inside, condition, value, hvalue, htext⟩
  intro inner heq
  have hinner : inner = "a) + (b" := (String.append_right_inj "(").1 ((String.append_left_inj ")").1 heq.symm)
  subst hinner
  decide

end ShaderTrace.Glsl
