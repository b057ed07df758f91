import ShaderTrace.Glsl.Statement
import ShaderTrace.Proofs.Generator.Expressions

/-!
# The statements of a tree

What the generator makes of one statement, with one case a way in which it can succeed (`statement_eq_ok_iff`), and how a row of
statements is taken apart (`statements_cons_eq_ok_iff`).
-/

namespace ShaderTrace.Glsl

/-- The kind of a node that is written with the keyword. -/
def Keyword.kind : Keyword → NodeKind
  | .if => .ifBranch
  | .elseIf => .elseIfBranch
  | .while => .whileLoop

/-- What becomes of a statement: the statements that are written, and the scope after them. -/
inductive Generated (scope : Scope) (tree : Tree) : List Stmt → Scope → Prop
  | define {target source : Tree} {value : Expr} {symbol : SymbolId} {type : String} (hk : tree.kind = .assignment)
    (hc : tree.children = [target, source]) (hv : expression scope source = .ok value) (ht : target.kind = .var)
    (hp : target.head.payload = .symbol symbol) (hi : scope.isInput symbol = false)
    (hn : scope.isVisible symbol = false) (hs : typeName? target.type = some type) :
    Generated scope tree [.define type (scope.variableOf symbol) value] (scope.declare symbol)
  | assign {target source : Tree} {value : Expr} {symbol : SymbolId} (hk : tree.kind = .assignment)
    (hc : tree.children = [target, source]) (hv : expression scope source = .ok value) (ht : target.kind = .var)
    (hp : target.head.payload = .symbol symbol) (hi : scope.isInput symbol = false)
    (hn : scope.isVisible symbol = true) : Generated scope tree [.assign (scope.variableOf symbol) value] scope
  | declareLane {target source : Tree} {value : Expr} {owner : SymbolId} {ownerType : ValueType} {lane : Lane}
    {type : String} (hk : tree.kind = .assignment) (hc : tree.children = [target, source])
    (hv : expression scope source = .ok value) (ht : target.kind = .member)
    (hp : target.head.payload = .member owner ownerType lane) (hi : scope.isInput owner = false)
    (hn : scope.isVisible owner = false) (hs : typeName? ownerType = some type) :
    Generated scope tree [.declare type (scope.variableOf owner), .assignLane (scope.variableOf owner) lane value]
      (scope.declare owner)
  | assignLane {target source : Tree} {value : Expr} {owner : SymbolId} {ownerType : ValueType} {lane : Lane}
    (hk : tree.kind = .assignment) (hc : tree.children = [target, source]) (hv : expression scope source = .ok value)
    (ht : target.kind = .member) (hp : target.head.payload = .member owner ownerType lane)
    (hi : scope.isInput owner = false) (hn : scope.isVisible owner = true) :
    Generated scope tree [.assignLane (scope.variableOf owner) lane value] scope
  | guarded (keyword : Keyword) {condition : Tree} {body : List Tree} {cond : Expr} {stmts : List Stmt}
    (hk : tree.kind = keyword.kind) (hc : tree.children = condition :: body)
    (hcond : expression scope condition = .ok cond) (hb : statements scope none body = .ok stmts) :
    Generated scope tree [.guarded keyword cond stmts] scope
  | otherwise {stmts : List Stmt} (hk : tree.kind = .elseBranch) (hb : statements scope none tree.children = .ok stmts) :
    Generated scope tree [.otherwise stmts] scope
  | block {stmts : List Stmt} (hk : tree.kind = .block) (hb : statements scope none tree.children = .ok stmts) :
    Generated scope tree [.block stmts] scope
  | count {start stop : Tree} {body : List Tree} {symbol : SymbolId} {first last : Expr} {stmts : List Stmt}
    (hk : tree.kind = .forRange) (hc : tree.children = start :: stop :: body) (hs : tree.head.symbol? = some symbol)
    (hfirst : expression scope start = .ok first) (hlast : expression scope stop = .ok last)
    (hb : statements (scope.declare symbol) none body = .ok stmts) :
    Generated scope tree [.count (scope.variableOf symbol) first last stmts] scope

section Statements

variable {scope scope' : Scope} {tree : Tree} {stmts : List Stmt}

/-- An assignment node is generated as an assignment. -/
theorem statement_assignment (hk : tree.kind = .assignment) : statement scope tree = assignment scope tree := by
  obtain ⟨id, head, children⟩ := tree
  unfold statement
  rw [show head.kind = .assignment from hk]

/-- A branch or a loop with a condition is generated from its condition and its body. -/
theorem statement_guarded (keyword : Keyword) (hk : tree.kind = keyword.kind) {condition : Tree} {body : List Tree}
    (hc : tree.children = condition :: body) :
    statement scope tree = expression scope condition >>= fun cond => statements scope none body >>= fun stmts =>
      .ok ([.guarded keyword cond stmts], scope) := by
  obtain ⟨id, head, children⟩ := tree
  obtain rfl : children = condition :: body := hc
  unfold statement
  rw [show head.kind = keyword.kind from hk]
  cases keyword <;> rfl

/-- An alternative is generated from its body. -/
theorem statement_otherwise (hk : tree.kind = .elseBranch) :
    statement scope tree = statements scope none tree.children >>= fun stmts => .ok ([.otherwise stmts], scope) := by
  obtain ⟨id, head, children⟩ := tree
  unfold statement
  rw [show head.kind = .elseBranch from hk]
  rfl

/-- A block is generated from its body. -/
theorem statement_block (hk : tree.kind = .block) :
    statement scope tree = statements scope none tree.children >>= fun stmts => .ok ([.block stmts], scope) := by
  obtain ⟨id, head, children⟩ := tree
  unfold statement
  rw [show head.kind = .block from hk]
  rfl

/-- A counting loop is generated from its bounds, and from its body with the counter declared. -/
theorem statement_count (hk : tree.kind = .forRange) {start stop : Tree} {body : List Tree}
    (hc : tree.children = start :: stop :: body) :
    statement scope tree = tree.symbolOf >>= fun symbol => expression scope start >>= fun first =>
      expression scope stop >>= fun last => statements (scope.declare symbol) none body >>= fun stmts =>
        .ok ([.count (scope.variableOf symbol) first last stmts], scope) := by
  obtain ⟨id, head, children⟩ := tree
  obtain rfl : children = start :: stop :: body := hc
  unfold statement
  rw [show head.kind = .forRange from hk]
  rfl

/-- An assignment is generated by one of the rules. -/
theorem generated_of_assignment (hk : tree.kind = .assignment) (h : assignment scope tree = .ok (stmts, scope')) :
    Generated scope tree stmts scope' := by
  unfold assignment at h
  split at h
  · rename_i target source hc
    obtain ⟨value, hv, h⟩ := bind_eq_ok_iff.1 h
    split at h
    · rename_i symbol ht hp
      simp only at h
      split at h
      · cases h
      · rename_i hi
        split at h
        · rename_i hn
          cases h
          exact .assign hk hc hv ht hp (by simpa using hi) hn
        · rename_i hn
          obtain ⟨type, hs, h⟩ := bind_eq_ok_iff.1 h
          cases h
          exact .define hk hc hv ht hp (by simpa using hi) (by simpa using hn) (spell_eq_ok_iff.1 hs)
    · rename_i owner ownerType lane ht hp
      simp only at h
      split at h
      · cases h
      · rename_i hi
        split at h
        · rename_i hn
          cases h
          exact .assignLane hk hc hv ht hp (by simpa using hi) hn
        · rename_i hn
          obtain ⟨type, hs, h⟩ := bind_eq_ok_iff.1 h
          cases h
          exact .declareLane hk hc hv ht hp (by simpa using hi) (by simpa using hn) (spell_eq_ok_iff.1 hs)
    · cases h
  · cases h

/-- Whatever is generated is so by one of the rules. -/
theorem generated_of_statement (h : statement scope tree = .ok (stmts, scope')) : Generated scope tree stmts scope' := by
  have guarded : ∀ (keyword : Keyword) (condition : Tree) (body : List Tree), tree.kind = keyword.kind →
      tree.children = condition :: body → Generated scope tree stmts scope' := by
    intro keyword condition body hk hc
    rw [statement_guarded keyword hk hc] at h
    obtain ⟨cond, hcond, h⟩ := bind_eq_ok_iff.1 h
    obtain ⟨stmts, hb, h⟩ := bind_eq_ok_iff.1 h
    cases h
    exact .guarded keyword hk hc hcond hb
  have hrow := h
  obtain ⟨id, head, children⟩ := tree
  unfold statement at hrow
  split at hrow
  case h_1 => exact generated_of_assignment ‹head.kind = .assignment› hrow
  case h_2 => exact guarded .if _ _ ‹head.kind = .ifBranch› rfl
  case h_3 => exact guarded .elseIf _ _ ‹head.kind = .elseIfBranch› rfl
  case h_4 => exact guarded .while _ _ ‹head.kind = .whileLoop› rfl
  case h_5 =>
    obtain ⟨stmts, hb, hrow⟩ := bind_eq_ok_iff.1 hrow
    cases hrow
    exact .otherwise ‹head.kind = .elseBranch› hb
  case h_6 =>
    obtain ⟨stmts, hb, hrow⟩ := bind_eq_ok_iff.1 hrow
    cases hrow
    exact .block ‹head.kind = .block› hb
  case h_7 =>
    obtain ⟨symbol, hs, hrow⟩ := bind_eq_ok_iff.1 hrow
    obtain ⟨first, hfirst, hrow⟩ := bind_eq_ok_iff.1 hrow
    obtain ⟨last, hlast, hrow⟩ := bind_eq_ok_iff.1 hrow
    obtain ⟨stmts, hb, hrow⟩ := bind_eq_ok_iff.1 hrow
    cases hrow
    exact .count ‹head.kind = .forRange› rfl (symbolOf_eq_ok_iff.1 hs) hfirst hlast hb
  case h_8 =>
    obtain ⟨symbol, -, hrow⟩ := bind_eq_ok_iff.1 hrow
    cases hrow
  all_goals cases hrow

/-- What the rules allow is generated. -/
theorem statement_of_generated (h : Generated scope tree stmts scope') : statement scope tree = .ok (stmts, scope') := by
  cases h with
  | define hk hc hv ht hp hi hn hs =>
    rw [statement_assignment hk, assignment, hc]
    simp only [hv, ht, hp, hi, hn, spell_eq_ok_iff.2 hs, Bind.bind, Except.bind, Bool.false_eq_true, if_false]
    rfl
  | assign hk hc hv ht hp hi hn =>
    rw [statement_assignment hk, assignment, hc]
    simp only [hv, ht, hp, hi, hn, Bind.bind, Except.bind, Bool.false_eq_true, if_false, if_true]
  | declareLane hk hc hv ht hp hi hn hs =>
    rw [statement_assignment hk, assignment, hc]
    simp only [hv, ht, hp, hi, hn, spell_eq_ok_iff.2 hs, Bind.bind, Except.bind, Bool.false_eq_true, if_false]
    rfl
  | assignLane hk hc hv ht hp hi hn =>
    rw [statement_assignment hk, assignment, hc]
    simp only [hv, ht, hp, hi, hn, Bind.bind, Except.bind, Bool.false_eq_true, if_false, if_true]
  | guarded keyword hk hc hcond hb =>
    rw [statement_guarded keyword hk hc]
    simp only [hcond, hb, Bind.bind, Except.bind]
  | otherwise hk hb =>
    rw [statement_otherwise hk, hb]
    rfl
  | block hk hb =>
    rw [statement_block hk, hb]
    rfl
  | count hk hc hs hfirst hlast hb =>
    rw [statement_count hk hc, symbolOf_eq_ok_iff.2 hs]
    simp only [hfirst, hlast, hb, Bind.bind, Except.bind]

/-- What the generator makes of a statement. -/
theorem statement_eq_ok_iff : statement scope tree = .ok (stmts, scope') ↔ Generated scope tree stmts scope' :=
  ⟨generated_of_statement, statement_of_generated⟩

/-- Whether a statement may stand after one of the given kind. -/
def Follows (previous : Option NodeKind) (kind : NodeKind) : Prop :=
  kind = .elseIfBranch ∨ kind = .elseBranch → ∃ before, previous = some before ∧ before.isConditional = true

/-- A node is let pass exactly if it may stand after the one before. -/
theorem checkFollows_eq_ok_iff {previous : Option NodeKind} {u : Unit} :
    checkFollows previous tree = .ok u ↔ Follows previous tree.kind := by
  unfold checkFollows Follows
  split
  · rename_i hk
    rw [hk]
    cases previous <;> simp
  · rename_i hk
    rw [hk]
    cases previous <;> simp
  · rename_i h₁ h₂
    exact ⟨fun _ h => (h.elim h₁ h₂).elim, fun _ => rfl⟩

/-- Statements in a row are generated exactly if the first one is and, in the scope it leaves, the rest. -/
theorem statements_cons_eq_ok_iff {previous : Option NodeKind} {trees : List Tree} :
    statements scope previous (tree :: trees) = .ok stmts ↔ Follows previous tree.kind ∧
      ∃ first scope' rest, Generated scope tree first scope' ∧
        statements scope' (some tree.kind) trees = .ok rest ∧ stmts = first ++ rest := by
  rw [statements, bind_eq_ok_iff]
  constructor
  · rintro ⟨⟨⟩, hf, h⟩
    obtain ⟨⟨first, scope'⟩, hfirst, h⟩ := bind_eq_ok_iff.1 h
    obtain ⟨rest, hrest, h⟩ := bind_eq_ok_iff.1 h
    cases h
    exact ⟨checkFollows_eq_ok_iff.1 hf, first, scope', rest, statement_eq_ok_iff.1 hfirst, hrest, rfl⟩
  · rintro ⟨hf, first, scope', rest, hfirst, hrest, rfl⟩
    refine ⟨(), checkFollows_eq_ok_iff.2 hf, bind_eq_ok_iff.2 ⟨_, statement_eq_ok_iff.2 hfirst, ?_⟩⟩
    exact bind_eq_ok_iff.2 ⟨rest, hrest, rfl⟩

end Statements

end ShaderTrace.Glsl
