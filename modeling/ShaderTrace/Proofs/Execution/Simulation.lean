import ShaderTrace.Proofs.Execution.Placement
import ShaderTrace.Proofs.Generator.Naming
import ShaderTrace.Proofs.Text.Rows

/-!
# A shader does what its kernel does

The variables that a shader has at a point are exactly the symbols that the generator counts as visible there, each with the value
of its cell (`bindings`). One step keeps this for every statement that is placed as in `Placed`, hence whole runs do
(`runsAlike`), with the same bound on both sides. The main statement is `shader_runs_as_kernel`: the two end together, with
equal values in every output.
-/

namespace ShaderTrace.Execution

open Glsl (Expr Stmt Keyword Scope Shader Declaration expression statements)
open Recording (Ledger Expression Item Fresh)

variable {V : Type} {I : Interpretation V} {store : Store V} {env : Env V} {scope scope' : Scope}

/-! ## Variables and cells -/

/-- The spelling of the variable that stands for a symbol. -/
def spelling (scope : Scope) (symbol : SymbolId) : String := (scope.variableOf symbol).spelling

/-- The variables that stand for symbols, with the values of their cells. -/
def envOf (spell : SymbolId → String) (symbols : List SymbolId) (store : Store V) : Env V :=
  symbols.map fun symbol => (spell symbol, store symbol)

/-- The variables that a scope sees. -/
def bindings (scope : Scope) (store : Store V) : Env V := envOf (spelling scope) scope.visible store

section Variables

variable {spell : SymbolId → String} {symbols : List SymbolId} {symbol : SymbolId}

theorem envOf_cons : envOf spell (symbol :: symbols) store = (spell symbol, store symbol) :: envOf spell symbols store := rfl

/-- A variable holds the value of its cell, if no two symbols are spelled alike. -/
theorem lookup_envOf (hs : Function.Injective spell) (hm : symbol ∈ symbols) :
    (envOf spell symbols store).lookup (spell symbol) = some (store symbol) := by
  induction symbols with
  | nil => cases hm
  | cons other symbols ih =>
    rw [envOf_cons, List.lookup_cons]
    by_cases heq : symbol = other
    · rw [heq, beq_self_eq_true]
    · rw [beq_eq_false_iff_ne.2 fun hspell => heq (hs hspell)]
      exact ih ((List.mem_cons.1 hm).resolve_left heq)

/-- Only the cells that variables stand for matter. -/
theorem envOf_congr {store' : Store V} (h : ∀ symbol ∈ symbols, store symbol = store' symbol) :
    envOf spell symbols store = envOf spell symbols store' :=
  List.map_congr_left fun symbol hm => by rw [h symbol hm]

/-- A cell that no variable stands for may change. -/
theorem envOf_update_of_not_mem (hm : symbol ∉ symbols) (value : V) :
    envOf spell symbols (Function.update store symbol value) = envOf spell symbols store := by
  refine envOf_congr fun other ho => Function.update_of_ne ?_ value store
  rintro rfl
  exact hm ho

/-- To write a variable is to write its cell. -/
theorem write_envOf (hs : Function.Injective spell) (hn : symbols.Nodup) (hm : symbol ∈ symbols) (value : V) :
    Env.write (envOf spell symbols store) (spell symbol) value =
      some (envOf spell symbols (Function.update store symbol value)) := by
  induction symbols with
  | nil => cases hm
  | cons other symbols ih =>
    obtain ⟨hother, hn⟩ := List.nodup_cons.1 hn
    rw [envOf_cons, envOf_cons, Env.write]
    by_cases heq : other = symbol
    · subst heq
      rw [if_pos rfl, Function.update_self, envOf_update_of_not_mem hother]
    · rw [if_neg fun hspell => heq (hs hspell), Function.update_of_ne heq,
        ih hn ((List.mem_cons.1 hm).resolve_left (Ne.symm heq)), Option.map_some]

end Variables

/-- The symbols that a scope sees are different, and so are the spellings of all symbols. -/
structure Distinct (scope : Scope) : Prop where
  spelling : Function.Injective (spelling scope)
  nodup : scope.visible.Nodup

/-- A symbol that is not visible can be declared without a clash. -/
theorem Distinct.declare (h : Distinct scope) {symbol : SymbolId} (hn : scope.isVisible symbol = false) :
    Distinct (scope.declare symbol) where
  spelling := h.spelling
  nodup := List.nodup_cons.2 ⟨Glsl.not_mem_seen_iff.2 hn, h.nodup⟩

/-- The scope sees all that the other sees, declared before what it sees beyond that. -/
def Widens (scope scope' : Scope) : Prop := scope'.globals = scope.globals ∧ scope.visible <:+ scope'.visible

theorem Widens.refl (scope : Scope) : Widens scope scope := ⟨rfl, List.suffix_refl _⟩

/-- A scope sees what it saw two steps before. -/
theorem Widens.trans {scope'' : Scope} (h : Widens scope scope') (h' : Widens scope' scope'') : Widens scope scope'' :=
  ⟨h'.1.trans h.1, h.2.trans h'.2⟩

/-- A declaration adds to what is seen. -/
theorem widens_declare (scope : Scope) (symbol : SymbolId) : Widens scope (scope.declare symbol) :=
  ⟨rfl, List.suffix_cons _ _⟩

/-- A symbol is spelled the same in the wider scope. -/
theorem Widens.spelling_eq (h : Widens scope scope') : spelling scope' = spelling scope := by
  funext symbol
  rw [spelling, spelling, Scope.variableOf, Scope.variableOf, h.1]

section Bindings

/-- A visible variable holds the value of its cell. -/
theorem lookup_bindings (h : Function.Injective (spelling scope)) {symbol : SymbolId} (hv : scope.isVisible symbol = true) :
    (bindings scope store).lookup (spelling scope symbol) = some (store symbol) :=
  lookup_envOf h (Glsl.isVisible_iff.1 hv)

/-- All visible variables hold the values of their cells. -/
theorem holdsCells_bindings (h : Function.Injective (spelling scope)) : HoldsCells scope store (bindings scope store) :=
  fun _ hv => lookup_bindings h hv

/-- To write a visible variable is to write its cell. -/
theorem write_bindings (h : Distinct scope) {symbol : SymbolId} (hv : scope.isVisible symbol = true) (value : V) :
    Env.write (bindings scope store) (spelling scope symbol) value =
      some (bindings scope (Function.update store symbol value)) :=
  write_envOf h.spelling h.nodup (Glsl.isVisible_iff.1 hv) value

/-- To count a visible variable up is to count its cell up. -/
theorem countUp_bindings (h : Distinct scope) {symbol : SymbolId} (hv : scope.isVisible symbol = true) :
    Env.countUp I (bindings scope store) (spelling scope symbol) =
      some (bindings scope (Function.update store symbol (I.next (store symbol)))) := by
  rw [Env.countUp, lookup_bindings h.spelling hv]
  exact write_bindings h hv _

/-- A declaration makes a variable of a cell that had none. -/
theorem bindings_declare {symbol : SymbolId} (hn : scope.isVisible symbol = false) (value : V) :
    (spelling scope symbol, value) :: bindings scope store =
      bindings (scope.declare symbol) (Function.update store symbol value) := by
  have hvisible : symbol ∉ scope.visible := Glsl.not_mem_seen_iff.2 hn
  show _ = envOf (spelling scope) (symbol :: scope.visible) (Function.update store symbol value)
  rw [envOf_cons, Function.update_self, envOf_update_of_not_mem hvisible, bindings]

/-- The variables of the outer scope are left, with the values that they have now. -/
theorem leave_bindings (h : Widens scope scope') (store' : Store V) :
    Env.leave (bindings scope store) (bindings scope' store') = bindings scope store' := by
  obtain ⟨new, hnew⟩ := h.2
  rw [Env.leave, bindings, bindings, bindings, h.spelling_eq, envOf, envOf, envOf, ← hnew]
  simp

end Bindings

/-! ## Statements -/

section Rows

variable {bound : Nat} {tree : Tree} {trees body : List Tree} {value : V}

/-- A kernel carries an assignment out and goes on. -/
theorem runTrees_assignment (hk : tree.kind = .assignment) : runTrees I (bound + 1) (tree :: trees) store =
    Outcome.ofOption (assignTree I store tree) >>= runTrees I bound trees := by
  unfold runTrees
  simp only [hk]

/-- A branch that is reached. -/
theorem runTrees_branch {condition : Tree} (hk : tree.kind = .ifBranch ∨ tree.kind = .elseIfBranch)
    (hc : tree.children = condition :: body) (hv : evalTree I store condition = some value) :
    runTrees I (bound + 1) (tree :: trees) store =
      if I.isTrue value then runTrees I bound body store >>= runTrees I bound (trees.dropWhile isElse)
      else runTrees I bound trees store := by
  rw [runTrees.eq_def]
  rcases hk with hk | hk <;> simp only [hk, hc, hv] <;> rfl

/-- A kernel runs the body of a loop while the condition holds, and then goes on. -/
theorem runTrees_while {condition : Tree} (hk : tree.kind = .whileLoop) (hc : tree.children = condition :: body)
    (hv : evalTree I store condition = some value) :
    runTrees I (bound + 1) (tree :: trees) store =
      if I.isTrue value then runTrees I bound body store >>= runTrees I bound (tree :: trees)
      else runTrees I bound trees store := by
  rw [runTrees.eq_def]
  simp only [hk, hc, hv]
  rfl

/-- A kernel runs the statements of a plain block, or of an alternative that it comes to, and goes on. -/
theorem runTrees_block (hk : tree.kind = .elseBranch ∨ tree.kind = .block) :
    runTrees I (bound + 1) (tree :: trees) store = runTrees I bound tree.children store >>= runTrees I bound trees := by
  rw [runTrees.eq_def]
  rcases hk with hk | hk <;> simp only [hk]

/-- A kernel sets the cell of the counter, counts, and goes on. -/
theorem runTrees_count {start stop : Tree} {symbol : SymbolId} (hk : tree.kind = .forRange)
    (hc : tree.children = start :: stop :: body) (hs : tree.head.symbol? = some symbol)
    (hv : evalTree I store start = some value) :
    runTrees I (bound + 1) (tree :: trees) store =
      countTrees I bound symbol stop body (Function.update store symbol value) >>= runTrees I bound trees := by
  rw [runTrees.eq_def]
  simp only [hk, hc, hs, hv]
  rfl

/-- An assignment to a variable sets its cell. -/
theorem assignTree_var {target source : Tree} {symbol : SymbolId} (hc : tree.children = [target, source])
    (ht : target.kind = .var) (hp : target.head.payload = .symbol symbol) (hv : evalTree I store source = some value) :
    assignTree I store tree = some (Function.update store symbol value) := by
  unfold assignTree
  simp only [hc, hv, ht, hp, Option.bind_some]

/-- An assignment to a lane sets that lane in the cell of the vector. -/
theorem assignTree_lane {target source : Tree} {owner : SymbolId} {ownerType : ValueType} {lane : Lane}
    (hc : tree.children = [target, source]) (ht : target.kind = .member)
    (hp : target.head.payload = .member owner ownerType lane) (hv : evalTree I store source = some value) :
    assignTree I store tree = some (Function.update store owner (I.setLane lane (store owner) value)) := by
  unfold assignTree
  simp only [hc, hv, ht, hp, Option.bind_some]

/-- A keyword other than that of a loop is one of a branch. -/
theorem kind_of_ne_while {keyword : Keyword} (h : keyword ≠ .while) :
    keyword.kind = .ifBranch ∨ keyword.kind = .elseIfBranch := by
  cases keyword with
  | «if» => exact .inl rfl
  | elseIf => exact .inr rfl
  | «while» => exact absurd rfl h

/-- A shader takes a branch and passes over the alternatives to it, or does not and goes on with them. -/
theorem runStmts_branch {keyword : Keyword} (h : keyword ≠ .while) {condition : Expr} {inner stmts : List Stmt}
    (hv : evalExpr I env condition = some value) :
    runStmts I (bound + 1) (.guarded keyword condition inner :: stmts) env =
      if I.isTrue value then
        runStmts I bound inner env >>= fun after => runStmts I bound (stmts.dropWhile continues) (env.leave after)
      else runStmts I bound stmts env := by
  rw [runStmts.eq_def]
  cases keyword with
  | «if» | elseIf => simp only [hv]; rfl
  | «while» => exact absurd rfl h

end Rows

/-! ## One step -/

/-- Neither run has ended, or both have, and the variables of the shader stand for the cells of the kernel. -/
inductive Alike (scope : Scope) : Outcome (Store V) → Outcome (Env V) → Prop
  | outOfSteps : Alike scope .outOfSteps .outOfSteps
  | done {scope' : Scope} (h : Widens scope scope') (store : Store V) :
    Alike scope (.done store) (.done (bindings scope' store))

/-- Runs that end alike in a wider scope end alike in the narrower one. -/
theorem Alike.of_widens (he : Widens scope scope') {a : Outcome (Store V)} {b : Outcome (Env V)} (h : Alike scope' a b) :
    Alike scope a b := by
  cases h with
  | outOfSteps => exact .outOfSteps
  | done h store => exact .done (he.trans h) store

/-- A block, and what comes after it with the variables that the block leaves. -/
theorem Alike.leave (he : Widens scope scope') {a : Outcome (Store V)} {b : Outcome (Env V)} (h : Alike scope' a b)
    {next : Store V → Outcome (Store V)} (next' : Env V → Outcome (Env V))
    (hnext : ∀ store, Alike scope (next store) (next' (bindings scope store))) :
    Alike scope (a >>= next) (b >>= fun inner => next' ((bindings scope store).leave inner)) := by
  cases h with
  | outOfSteps => exact .outOfSteps
  | @done scope'' h final =>
    show Alike scope (next final) (next' ((bindings scope store).leave (bindings scope'' final)))
    rw [leave_bindings (he.trans h)]
    exact hnext final

/-- Rows of statements that stand beside each other run alike within a bound. -/
def RunsAlike (Γ : Ledger) (I : Interpretation V) (bound : Nat) : Prop :=
  ∀ {scope : Scope} {trees : List Tree} {stmts : List Stmt}, Placed Γ scope trees stmts → Distinct scope →
    ∀ store : Store V, Alike scope (runTrees I bound trees store) (runStmts I bound stmts (bindings scope store))

/-- Loops that count run alike within a bound, once their variable is declared. -/
def CountsAlike (Γ : Ledger) (I : Interpretation V) (bound : Nat) : Prop :=
  ∀ {scope : Scope} {symbol : SymbolId} {stop : Tree} {last : Expr} {body : List Tree} {inner : List Stmt},
    Placed Γ (scope.declare symbol) body inner → Distinct (scope.declare symbol) → Expression Γ stop.term →
      expression scope stop = .ok last → ∀ store : Store V, Alike (scope.declare symbol)
        (countTrees I bound symbol stop body store)
        (countStmts I bound (spelling scope symbol) last inner (bindings (scope.declare symbol) store))

section Steps

variable {Γ : Ledger} {bound : Nat}

/-- With one step more, statements still run alike. -/
theorem runsAlike_succ (hrun : RunsAlike Γ I bound) (hcount : CountsAlike Γ I bound) : RunsAlike Γ I (bound + 1) := by
  intro scope trees stmts hplaced hd store
  have henv : HoldsCells scope store (bindings scope store) := holdsCells_bindings hd.spelling
  cases hplaced with
  | nil => exact .done (Widens.refl scope) store
  | define hk hc hr hv ht hp hn rest =>
    obtain ⟨value, hvalue, hvalue'⟩ := eval_expression (I := I) henv _ hv hr
    rw [runTrees_assignment hk, assignTree_var hc ht hp hvalue, runStmts, hvalue']
    show Alike scope (runTrees I bound _ _) (runStmts I bound _ ((spelling scope _, value) :: bindings scope store))
    rw [bindings_declare hn]
    exact (hrun rest (hd.declare hn) _).of_widens (widens_declare scope _)
  | assign hk hc hr hv ht hp hn rest =>
    obtain ⟨value, hvalue, hvalue'⟩ := eval_expression (I := I) henv _ hv hr
    rw [runTrees_assignment hk, assignTree_var hc ht hp hvalue, runStmts, hvalue']
    show Alike scope (runTrees I bound _ _) (Outcome.ofOption (Env.write _ (spelling scope _) value) >>= _)
    rw [write_bindings hd hn]
    exact hrun rest hd _
  | assignLane hk hc hr hv ht hp hn rest =>
    obtain ⟨value, hvalue, hvalue'⟩ := eval_expression (I := I) henv _ hv hr
    rw [runTrees_assignment hk, assignTree_lane hc ht hp hvalue, runStmts, hvalue']
    show Alike scope (runTrees I bound _ _) (Outcome.ofOption (List.lookup (spelling scope _) _) >>= _)
    rw [lookup_bindings hd.spelling hn]
    show Alike scope (runTrees I bound _ _) (Outcome.ofOption (Env.write _ (spelling scope _) _) >>= _)
    rw [write_bindings hd hn]
    exact hrun rest hd _
  | guarded keyword hk hc hr hcond hb rest =>
    obtain ⟨value, hvalue, hvalue'⟩ := eval_expression (I := I) henv _ hcond hr
    have hbody := hrun hb hd store
    by_cases hw : keyword = .while
    · subst hw
      rw [runTrees_while hk hc hvalue, runStmts, hvalue']
      show Alike scope _ (if I.isTrue value then _ else _)
      split
      · exact hbody.leave (Widens.refl scope) _ (hrun (.guarded .while hk hc hr hcond hb rest) hd)
      · exact hrun rest hd store
    · rw [runTrees_branch (hk ▸ kind_of_ne_while hw) hc hvalue, runStmts_branch hw hvalue']
      split
      · exact hbody.leave (Widens.refl scope) _ (hrun rest.dropWhile hd)
      · exact hrun rest hd store
  | otherwise hk hb rest =>
    rw [runTrees_block (.inl hk), runStmts]
    exact (hrun hb hd store).leave (Widens.refl scope) _ (hrun rest hd)
  | block hk hb rest =>
    rw [runTrees_block (.inr hk), runStmts]
    exact (hrun hb hd store).leave (Widens.refl scope) _ (hrun rest hd)
  | count hk hc hs hn hr hfirst hr' hlast hb rest =>
    obtain ⟨value, hvalue, hvalue'⟩ := eval_expression (I := I) henv _ hfirst hr
    rw [runTrees_count hk hc hs hvalue, runStmts, hvalue']
    show Alike scope _ (countStmts I bound (spelling scope _) _ _ ((spelling scope _, value) :: bindings scope store) >>= _)
    rw [bindings_declare hn]
    exact (hcount hb (hd.declare hn) hr' hlast _).leave (widens_declare scope _) _ (hrun rest hd)

/-- With one step more, loops still count alike. -/
theorem countsAlike_succ (hrun : RunsAlike Γ I bound) (hcount : CountsAlike Γ I bound) : CountsAlike Γ I (bound + 1) := by
  intro scope symbol stop last body inner hb hd hr hlast store
  have hvisible : (scope.declare symbol).isVisible symbol = true := by simp [Scope.isVisible, Scope.declare]
  -- the end is written in the scope around the loop, and evaluated inside it
  have henv : HoldsCells scope store (bindings (scope.declare symbol) store) := by
    intro other hv
    refine lookup_bindings hd.spelling ?_
    rw [Glsl.isVisible_iff, Glsl.seen_declare]
    exact Set.mem_insert_of_mem _ (Glsl.isVisible_iff.1 hv)
  obtain ⟨value, hvalue, hvalue'⟩ := eval_expression (I := I) henv _ hlast hr
  rw [countTrees, countStmts, hvalue, hvalue', show spelling scope symbol = spelling (scope.declare symbol) symbol from rfl,
    lookup_bindings hd.spelling hvisible]
  show Alike _ (if I.isTrue (I.binary .lt (store symbol) value) then _ else _)
    (if I.isTrue (I.binary .lt (store symbol) value) then _ else _)
  split
  · refine (hrun hb hd store).leave (Widens.refl _) (fun env =>
      Outcome.ofOption (env.countUp I (spelling (scope.declare symbol) symbol)) >>= _) fun store => ?_
    rw [countUp_bindings hd hvisible]
    exact hcount hb hd hr hlast _
  · exact .done (Widens.refl _) store

/-! ## Whole runs -/

/-- Statements that stand beside each other run alike, whatever the bound. -/
theorem runsAlike (Γ : Ledger) (I : Interpretation V) (bound : Nat) : RunsAlike Γ I bound ∧ CountsAlike Γ I bound := by
  induction bound with
  | zero => exact ⟨fun _ _ _ => .outOfSteps, fun _ _ _ _ _ => .outOfSteps⟩
  | succ bound ih => exact ⟨runsAlike_succ ih.1 ih.2, countsAlike_succ ih.1 ih.2⟩

end Steps

/-! ## Shaders -/

section Shaders

variable {root main : Tree} {shader : Shader}

/-- A declared symbol is found among the globals under its identifier. -/
theorem lookup_globalsOf {ds : List Declaration} (hn : (ds.map (·.symbol)).Nodup) {d : Declaration} (hm : d ∈ ds) :
    (Glsl.globalsOf ds).lookup d.symbol = some d.ident := by
  induction ds with
  | nil => cases hm
  | cons first ds ih =>
    rw [List.map_cons, List.nodup_cons] at hn
    rw [Glsl.globalsOf, List.map_cons, List.lookup_cons]
    rcases List.mem_cons.1 hm with rfl | hm
    · rw [beq_self_eq_true]
    · have hne : d.symbol ≠ first.symbol := fun heq => hn.1 (List.mem_map.2 ⟨d, hm, heq⟩)
      rw [beq_eq_false_iff_ne.2 hne]
      exact ih hn.2 hm

/-- The variable of a declaration is spelled with its identifier. -/
theorem spelling_scope (hm : Glsl.Made root main shader) {d : Declaration} (hd : d ∈ shader.inputs ++ shader.outputs) :
    spelling shader.scope d.symbol = d.ident := by
  rw [spelling, Scope.variableOf, globals_scope, lookup_globalsOf hm.symbols hd, Option.getD_some]

/-- The declarations of a shader have different symbols and different spellings. -/
theorem distinct_scope (hm : Glsl.Made root main shader) : Distinct shader.scope where
  spelling := by
    intro a b h
    refine Scope.symbol_eq_of_spelling_eq ?_ ?_ h
    · rw [globals_scope, Glsl.map_snd_globalsOf]
      exact hm.idents
    · rw [globals_scope, Glsl.map_snd_globalsOf, List.forall_mem_map]
      intro d hd
      rw [hm.ident_eq hd, Glsl.isLocal_identFor]
  nodup := by
    rw [visible_scope]
    exact hm.symbols

/-- A shader starts with the variables that its scope sees. -/
theorem initialEnv_eq (hm : Glsl.Made root main shader) (store : Store V) :
    initialEnv shader store = bindings shader.scope store := by
  rw [bindings, visible_scope, envOf, List.map_map, initialEnv]
  exact List.map_congr_left fun d hd => by rw [Function.comp_apply, spelling_scope hm hd]

/-- A shader without variables that are declared without a value runs as its kernel does. -/
theorem sameEnd_of_placed {Γ : Ledger} (hm : Glsl.Made root main shader) (h : Placed Γ shader.scope main.children shader.body)
    (I : Interpretation V) (store : Store V) (bound : Nat) :
    SameEnd shader.outputs (runTrees I bound main.children store) (runStmts I bound shader.body (initialEnv shader store)) := by
  have halike := (runsAlike Γ I bound).1 h (distinct_scope hm) store
  rw [initialEnv_eq hm]
  generalize runTrees I bound main.children store = kernel at halike ⊢
  generalize runStmts I bound shader.body (bindings shader.scope store) = written at halike ⊢
  cases halike with
  | outOfSteps => exact .outOfSteps
  | done he final =>
    refine .done fun d hd => ?_
    have hmem : d ∈ shader.inputs ++ shader.outputs := List.mem_append_right _ hd
    rw [← spelling_scope hm hmem, bindings, he.spelling_eq]
    refine lookup_envOf (distinct_scope hm).spelling (he.2.subset ?_)
    rw [visible_scope]
    exact List.mem_map_of_mem hmem

/-- A finished recording that has a program: the text of the program is that of the rows of a shader. If no variable is declared
without a value in it, the statements of the shader do what the main section of the recording does. -/
theorem shader_runs_as_kernel (steps : List Script.Step) (config : Glsl.Config) (source : Source) (program : Program)
    (hfinish : (Script.runEvery steps .start).2.session.finish = .ok source)
    (hprogram : source.generate config = .ok program) :
    ∃ root main shader, source.arena.tree Session.root = .ok root ∧ main ∈ root.children ∧ main.kind = .main ∧
      Glsl.shaderOf root = .ok shader ∧ program = shader.program config ∧
      program.source = Glsl.textOf config.indent (shader.rows config) ∧
      (anyDeclaresUnset shader.body = false → ∀ (V : Type) (I : Interpretation V) (store : Store V) (bound : Nat),
        SameEnd shader.outputs (runTrees I bound main.children store)
          (runStmts I bound shader.body (initialEnv shader store))) := by
  obtain ⟨Γ, root, hroot, hrecorded⟩ := Recording.exists_recorded_of_finish hfinish
  obtain ⟨root', shader, hroot', hshader, rfl⟩ := Glsl.generate_eq_ok_iff.1 hprogram
  rw [hroot] at hroot'
  cases hroot'
  obtain ⟨main, hm⟩ := Glsl.shaderOf_eq_ok_iff.1 hshader
  obtain ⟨hmem, hmain⟩ := (Glsl.firstOf_eq_some_iff hm.once).1 hm.main_eq
  refine ⟨root, main, shader, hroot, hmem, hmain, hshader, rfl, shader.text_eq config, fun hset V I store bound => ?_⟩
  exact sameEnd_of_placed hm (placed_main hm hrecorded hset) I store bound

/-- A loop that declares a variable in its body, in each branch of a row of three, and in a loop inside one of them. -/
def branchingSteps : List Script.Step :=
  [.block (.enter .constData) none [.call (.input .int "n") (some "n") false] false,
    .block (.enter .outData) none [.call (.output .int "total") (some "total") false] false,
    .block (.enter .main) none
      [.block (.forRange "i" (.literal (.int 0)) (.register "n")) (some "i")
        [.call (.var (.register "total")) (some "old") false,
          .call (.express (.binary .gt) [.register "old", .register "i"]) (some "first") false,
          .block (.ifThen (.register "first")) none
            [.call (.var (.register "i")) (some "left") false,
              .call (.express (.binary .gt) [.register "left", .literal (.int 0)]) (some "some") false,
              .block (.whileDo (.register "some")) none
                [.call (.update .sub "left" (.literal (.int 1))) none false,
                  .call (.var (.register "left")) (some "step") false,
                  .call (.update .add "total" (.register "step")) none false] false] false,
          .call (.express (.binary .eq) [.register "i", .literal (.int 1)]) (some "second") false,
          .block (.elseIf (.register "second")) none [.call (.update .mul "total" (.literal (.int 5))) none false] false,
          .block .otherwise none
            [.call (.var (.register "old")) (some "last") false,
              .call (.assign "total" (.register "last")) none false] false] false] false]

/-- There is a shader, and in it no variable that is declared without a value. -/
def allSet (source : Source) : Bool :=
  match source.arena.tree Session.root with
  | .ok root => (Glsl.shaderOf root).toOption.any fun shader => !anyDeclaresUnset shader.body
  | .error _ => false

/-- The shader that the check has found. -/
theorem exists_shader_of_allSet {source : Source} (h : allSet source = true) : ∃ root shader,
    source.arena.tree Session.root = .ok root ∧ Glsl.shaderOf root = .ok shader ∧ anyDeclaresUnset shader.body = false := by
  unfold allSet at h
  split at h
  · rename_i root hroot
    cases hshader : Glsl.shaderOf root with
    | error e =>
      rw [hshader] at h
      cases h
    | ok shader =>
      rw [hshader] at h
      exact ⟨root, shader, hroot, hshader, by simpa [Except.toOption] using h⟩
  · cases h

/-- A loop with branches and a loop inside it runs as its kernel, whatever its operations mean. -/
theorem shader_runs_as_kernel_branching :
    (Script.runEvery branchingSteps .start).2.session.finish = .ok (Recording.sourceOf branchingSteps) ∧
      ∃ root main shader, (Recording.sourceOf branchingSteps).generate {} = .ok (shader.program {}) ∧
        (Recording.sourceOf branchingSteps).arena.tree Session.root = .ok root ∧ main ∈ root.children ∧
        Glsl.shaderOf root = .ok shader ∧ (shader.program {}).source = Glsl.textOf 4 (shader.rows {}) ∧
        anyDeclaresUnset shader.body = false ∧
        ∀ (V : Type) (I : Interpretation V) (store : Store V) (bound : Nat),
          SameEnd shader.outputs (runTrees I bound main.children store)
            (runStmts I bound shader.body (initialEnv shader store)) := by
  have hfinish : (Script.runEvery branchingSteps .start).2.session.finish = .ok (Recording.sourceOf branchingSteps) :=
    Recording.finish_eq_ok_iff.2 ⟨by decide +kernel, rfl⟩
  obtain ⟨root, shader, hroot, hshader, hset⟩ :=
    @exists_shader_of_allSet (Recording.sourceOf branchingSteps) (by decide +kernel)
  have hprogram : (Recording.sourceOf branchingSteps).generate {} = .ok (shader.program {}) := by
    rw [Glsl.generate_eq_shaderOf hroot, hshader]
    rfl
  obtain ⟨root', main, shader', hroot', hmem, -, hshader', -, htext, hrun⟩ :=
    shader_runs_as_kernel branchingSteps {} _ _ hfinish hprogram
  obtain rfl : root = root' := Except.ok.inj (hroot.symm.trans hroot')
  obtain rfl : shader = shader' := Except.ok.inj (hshader.symm.trans hshader')
  exact ⟨hfinish, root, main, shader, hprogram, hroot, hmem, hshader, htext, hset, hrun hset⟩

end Shaders

end ShaderTrace.Execution
