import ShaderTrace.Proofs.Generator.Failures

/-!
# The numbers of nodes do not matter

The generator names nodes in its errors and nowhere else. If the nodes of a tree get other numbers, its shader stays the same,
and an error names the other numbers (`shaderOf_renumber`). So trees that differ in the numbers of their nodes alone have the
same shader, or are refused for the same reason (`shaderOf_unnumbered`).
-/

namespace ShaderTrace

/-! ## Other numbers -/

namespace Tree

mutual

/-- The tree with other numbers for its nodes. -/
def renumber (ρ : NodeId → NodeId) : Tree → Tree
  | node id head children => .node (ρ id) head (renumberAll ρ children)

def renumberAll (ρ : NodeId → NodeId) : List Tree → List Tree
  | [] => []
  | tree :: trees => tree.renumber ρ :: renumberAll ρ trees

end

variable (ρ : NodeId → NodeId) (tree : Tree)

/-- Trees in a row are renumbered one by one. -/
theorem renumberAll_eq_map (trees : List Tree) : renumberAll ρ trees = trees.map (renumber ρ) := by
  induction trees with
  | nil => rfl
  | cons tree trees ih => rw [renumberAll, ih, List.map_cons]

@[simp] theorem id_renumber : (tree.renumber ρ).id = ρ tree.id := by
  cases tree
  rfl

@[simp] theorem head_renumber : (tree.renumber ρ).head = tree.head := by
  cases tree
  rfl

@[simp] theorem kind_renumber : (tree.renumber ρ).kind = tree.kind := by rw [kind, head_renumber, kind]

@[simp] theorem type_renumber : (tree.renumber ρ).type = tree.type := by rw [type, head_renumber, type]

/-- The children of a renumbered tree are the renumbered children. -/
@[simp] theorem children_renumber : (tree.renumber ρ).children = tree.children.map (renumber ρ) := by
  cases tree
  exact renumberAll_eq_map ρ _

/-- The tree with one number for all its nodes. -/
def unnumbered (tree : Tree) : Tree := tree.renumber fun _ => ⟨0⟩

mutual

/-- Nothing is left of the numbers. -/
theorem unnumbered_eq : ∀ {tree tree' : Tree}, tree.term = tree'.term → tree.unnumbered = tree'.unnumbered
  | node _ _ children, node _ _ children', h => by
    obtain ⟨rfl, hterms⟩ := Term.node.inj h
    exact congrArg (node ⟨0⟩ _) (unnumberedAll_eq hterms)

/-- Trees with the same terms are the same once their numbers are forgotten. -/
theorem unnumberedAll_eq : ∀ {trees trees' : List Tree}, terms trees = terms trees' →
    renumberAll (fun _ => ⟨0⟩) trees = renumberAll (fun _ => ⟨0⟩) trees'
  | [], [], _ => rfl
  | [], _ :: _, h => by cases h
  | _ :: _, [], h => by cases h
  | tree :: trees, tree' :: trees', h => by
    obtain ⟨hfirst, hrest⟩ := List.cons.inj h
    rw [renumberAll, renumberAll, unnumberedAll_eq hrest]
    exact congrArg (· :: _) (unnumbered_eq hfirst)

end

end Tree

namespace GenerateError

/-- The error with other numbers for the nodes it names. -/
def renumber (ρ : NodeId → NodeId) : GenerateError → GenerateError
  | notAProgram node kind => notAProgram (ρ node) kind
  | missingMain => missingMain
  | duplicateSection node kind => duplicateSection (ρ node) kind
  | unexpectedNode node kind place => unexpectedNode (ρ node) kind place
  | malformedNode node kind found => malformedNode (ρ node) kind found
  | missingName node => missingName (ρ node)
  | duplicateName name => duplicateName name
  | invalidInputType name type => invalidInputType name type
  | invalidOutputType name type => invalidOutputType name type
  | unsupportedType node type => unsupportedType (ρ node) type
  | undeclaredSymbol node symbol => undeclaredSymbol (ρ node) symbol
  | assignToInput node symbol => assignToInput (ρ node) symbol
  | unknownBuiltin node id => unknownBuiltin (ρ node) id
  | builtinArity node builtin expected found => builtinArity (ρ node) builtin expected found
  | danglingElse node kind => danglingElse (ρ node) kind
  | noTree error => noTree error

/-- The error without the numbers of nodes. -/
def unnumbered (error : GenerateError) : GenerateError := error.renumber fun _ => ⟨0⟩

end GenerateError

/-! ## The shape of a node -/

namespace Tree

variable (ρ : NodeId → NodeId) (tree : Tree)

@[simp] theorem unexpected_renumber (place : Place) :
    (tree.renumber ρ).unexpected place = (tree.unexpected place).renumber ρ := by
  simp [unexpected, GenerateError.renumber]

@[simp] theorem malformed_renumber : (tree.renumber ρ).malformed = tree.malformed.renumber ρ := by
  simp [malformed, GenerateError.renumber]

/-- The symbol of a node does not depend on its number, but the error does. -/
theorem symbolOf_renumber : (tree.renumber ρ).symbolOf = tree.symbolOf.mapError (·.renumber ρ) := by
  unfold symbolOf
  rw [head_renumber]
  cases tree.head.symbol? <;> simp

/-- The name of a type does not depend on the node, but the error does. -/
theorem spell_renumber (type : ValueType) : (tree.renumber ρ).spell type = (tree.spell type).mapError (·.renumber ρ) := by
  unfold spell
  cases Glsl.typeName? type <;> simp [GenerateError.renumber]

/-- The result with other numbers for the nodes of its trees, or of its error. -/
def renumbered (result : Except GenerateError (List Tree)) : Except GenerateError (List Tree) :=
  (result.map (·.map (renumber ρ))).mapError (·.renumber ρ)

/-- The children that are asked for are the renumbered ones. -/
theorem childrenExactly_renumber (count : Nat) :
    (tree.renumber ρ).childrenExactly count = renumbered ρ (tree.childrenExactly count) := by
  unfold childrenExactly
  rw [children_renumber, List.length_map]
  split <;> simp [renumbered, Except.map]

/-- The function that is called is the same, and its arguments are the renumbered ones. -/
theorem builtinCall_renumber :
    (tree.renumber ρ).builtinCall =
      (tree.builtinCall.map fun found => (found.1, found.2.map (renumber ρ))).mapError (·.renumber ρ) := by
  unfold builtinCall
  rw [children_renumber]
  cases tree.children with
  | nil => simp [Except.map]
  | cons first arguments =>
    simp only [List.map_cons, head_renumber]
    split
    · split <;> simp [Except.map, GenerateError.renumber]
    · simp [Except.map]

/-- Whether a node is a buffer does not depend on its number. -/
theorem checkBuffer_renumber : (tree.renumber ρ).checkBuffer = tree.checkBuffer.mapError (·.renumber ρ) := by
  unfold checkBuffer
  rw [kind_renumber, type_renumber]
  split <;> simp

/-- The operands of a sampling are the renumbered ones. -/
theorem sampleOperands_renumber (count : Nat) :
    (tree.renumber ρ).sampleOperands count = renumbered ρ (tree.sampleOperands count) := by
  unfold sampleOperands
  rw [childrenExactly_renumber]
  cases tree.childrenExactly count with
  | error e => rfl
  | ok operands =>
    cases operands with
    | nil => simp [renumbered, Except.map, bind, Except.bind]
    | cons buffer indices =>
      simp only [renumbered, Except.map, mapError_ok, bind, Except.bind, List.map_cons, checkBuffer_renumber]
      cases buffer.checkBuffer <;> rfl

/-- The operands of a node are the renumbered ones. -/
theorem operands_renumber : (tree.renumber ρ).operands = renumbered ρ tree.operands := by
  unfold operands
  rw [kind_renumber]
  split
  case h_1 | h_2 | h_3 | h_4 | h_5 => rfl
  case h_6 | h_7 | h_8 => exact childrenExactly_renumber ρ tree 1
  case h_9 | h_10 =>
    rw [type_renumber, spell_renumber, children_renumber]
    cases tree.spell tree.type with
    | error e => rfl
    | ok name => cases tree.children <;> simp [renumbered, bind, Except.bind, Except.map]
  case h_11 =>
    rw [builtinCall_renumber]
    cases tree.builtinCall with
    | error e => rfl
    | ok found =>
      simp only [Except.map, mapError_ok, bind, Except.bind, List.length_map]
      split <;> simp [renumbered, Except.map, GenerateError.renumber]
  case h_12 => exact sampleOperands_renumber ρ tree 2
  case h_13 => exact sampleOperands_renumber ρ tree 3
  case h_14 =>
    split
    · exact childrenExactly_renumber ρ tree 2
    · simp [renumbered, Except.map]

end Tree

namespace Glsl

/-! ## Expressions and statements -/

section Trees

variable (ρ : NodeId → NodeId)

/-- Whether a symbol is visible does not depend on the node that asks, but the error does. -/
theorem resolve_renumber (scope : Scope) (node : NodeId) (symbol : SymbolId) :
    scope.resolve (ρ node) symbol = (scope.resolve node symbol).mapError (·.renumber ρ) := by
  unfold Scope.resolve
  split <;> simp [GenerateError.renumber]

/-- A node is rendered the same whatever its number. -/
theorem render_renumber (scope : Scope) (tree : Tree) (operands : List Expr) :
    render scope (tree.renumber ρ) operands = (render scope tree operands).mapError (·.renumber ρ) := by
  unfold render
  rw [Tree.kind_renumber, Tree.head_renumber, Tree.type_renumber, Tree.id_renumber]
  split
  · rw [Tree.symbolOf_renumber]
    cases tree.symbolOf with
    | error e => rfl
    | ok symbol =>
      simp only [mapError_ok, bind, Except.bind, resolve_renumber]
      cases scope.resolve tree.id symbol <;> rfl
  · split <;> simp
  · split
    · rw [resolve_renumber, mapError_bind]
      rfl
    · simp
  · rfl
  · rfl
  · rw [Tree.spell_renumber, mapError_bind]
    rfl
  · rw [Tree.spell_renumber, mapError_bind]
    rfl
  · rw [Tree.builtinCall_renumber]
    cases tree.builtinCall <;> rfl
  · rfl
  · rfl
  · split <;> simp
  · split <;> simp
  · simp

/-- If each of the trees gives the same expression renumbered, so does the row. -/
theorem mapM_renumber {scope : Scope} {trees : List Tree}
    (h : ∀ tree ∈ trees, expression scope (tree.renumber ρ) = (expression scope tree).mapError (·.renumber ρ)) :
    (trees.map (Tree.renumber ρ)).mapM (expression scope) = (trees.mapM (expression scope)).mapError (·.renumber ρ) := by
  induction trees with
  | nil => rfl
  | cons tree trees ih =>
    rw [List.map_cons, List.mapM_cons, List.mapM_cons, h tree List.mem_cons_self,
      ih fun other hm => h other (List.mem_cons_of_mem _ hm), mapError_bind]
    congr 1
    funext expr
    rw [mapError_bind]
    rfl

/-- The expression of a tree does not depend on its numbers, and an error names the renumbered node. -/
theorem expression_renumber (scope : Scope) (tree : Tree) :
    expression scope (tree.renumber ρ) = (expression scope tree).mapError (·.renumber ρ) := by
  rw [expression_eq, expression_eq, Tree.operands_renumber]
  cases hops : tree.operands with
  | error e => rfl
  | ok operands =>
    -- the operands of a node are smaller than the node
    have hmap := mapM_renumber ρ fun operand hm =>
      have hlt : operand.size < tree.size := Tree.size_lt_of_mem_children ((Tree.sublist_of_operands hops).subset hm)
      expression_renumber scope operand
    show (operands.map (Tree.renumber ρ)).mapM (expression scope) >>= render scope (tree.renumber ρ) =
      (operands.mapM (expression scope) >>= render scope tree).mapError (·.renumber ρ)
    rw [hmap, mapError_bind]
    congr 1
    exact funext (render_renumber ρ scope tree)
termination_by tree.size

/-- The statements of an assignment do not depend on its numbers. -/
theorem assignment_renumber (scope : Scope) (tree : Tree) :
    assignment scope (tree.renumber ρ) = (assignment scope tree).mapError (·.renumber ρ) := by
  unfold assignment
  rw [Tree.children_renumber]
  rcases tree.children with _ | ⟨target, _ | ⟨source, _ | ⟨extra, rest⟩⟩⟩
  · simp
  · simp
  · simp only [List.map_cons, List.map_nil, Tree.kind_renumber, Tree.head_renumber, Tree.type_renumber, Tree.id_renumber,
      Tree.spell_renumber, Tree.unexpected_renumber, expression_renumber, mapError_bind]
    congr 1
    funext value
    split
    · split
      · rfl
      · split
        · rfl
        · rw [mapError_bind]
          rfl
    · split
      · rfl
      · split
        · rfl
        · rw [mapError_bind]
          rfl
    · rfl
  · simp

/-- Where a node may stand does not depend on its number. -/
theorem checkFollows_renumber (previous : Option NodeKind) (tree : Tree) :
    checkFollows previous (tree.renumber ρ) = (checkFollows previous tree).mapError (·.renumber ρ) := by
  unfold checkFollows
  rw [Tree.kind_renumber, Tree.id_renumber]
  split
  · split <;> rfl
  · split <;> rfl
  · rfl

/-- A branch or a loop that should have a condition and holds nothing. -/
theorem statement_headless {scope : Scope} {tree : Tree} (keyword : Keyword) (hk : tree.kind = keyword.kind)
    (hc : tree.children = []) : statement scope tree = .error tree.malformed := by
  obtain ⟨id, head, children⟩ := tree
  obtain rfl : children = [] := hc
  unfold statement
  rw [show head.kind = keyword.kind from hk]
  cases keyword <;> rfl

/-- A counted loop that should have two bounds. -/
theorem statement_boundless {scope : Scope} {tree : Tree} (hk : tree.kind = .forRange) (hc : tree.children.length < 2) :
    statement scope tree = tree.symbolOf >>= fun _ => .error tree.malformed := by
  obtain ⟨id, head, children⟩ := tree
  unfold statement
  rw [show head.kind = .forRange from hk]
  rcases children with _ | ⟨start, _ | ⟨stop, body⟩⟩
  · rfl
  · rfl
  · exact absurd hc (by simp [Tree.children])

/-- A node of which no statement is made. -/
theorem statement_unexpected {scope : Scope} {tree : Tree} (hk : Recording.isStatement tree.kind = false) :
    statement scope tree = .error (tree.unexpected .statement) := by
  obtain ⟨id, head, children⟩ := tree
  unfold statement
  replace hk : Recording.isStatement head.kind = false := hk
  cases h : head.kind with
  | assignment | ifBranch | elseIfBranch | whileLoop | elseBranch | block | forRange => rw [h] at hk; cases hk
  | _ => rfl

/-- A statement, if the bodies of blocks are known to follow. -/
theorem statement_renumber {tree : Tree} (scope : Scope)
    (ih : ∀ (scope : Scope) (body : List Tree), body.Sublist tree.children →
      statements scope none (body.map (Tree.renumber ρ)) = (statements scope none body).mapError (·.renumber ρ)) :
    statement scope (tree.renumber ρ) = (statement scope tree).mapError (·.renumber ρ) := by
  have hchildren := Tree.children_renumber ρ tree
  have guarded (keyword : Keyword) (hk : tree.kind = keyword.kind) :
      statement scope (tree.renumber ρ) = (statement scope tree).mapError (·.renumber ρ) := by
    have hk' := (Tree.kind_renumber ρ tree).trans hk
    cases hc : tree.children with
    | nil =>
      rw [hc] at hchildren
      rw [statement_headless keyword hk hc, statement_headless keyword hk' hchildren, Tree.malformed_renumber, mapError_error]
    | cons condition body =>
      rw [hc] at hchildren
      have hbody := ih scope body (by rw [hc]; exact List.sublist_cons_self _ _)
      rw [statement_guarded keyword hk hc, statement_guarded keyword hk' hchildren]
      simp only [mapError_bind, mapError_ok, expression_renumber, hbody]
  have other (hk : Recording.isStatement tree.kind = false) :
      statement scope (tree.renumber ρ) = (statement scope tree).mapError (·.renumber ρ) := by
    rw [statement_unexpected hk, statement_unexpected ((congrArg _ (Tree.kind_renumber ρ tree)).trans hk),
      Tree.unexpected_renumber, mapError_error]
  cases hk : tree.kind with
  | assignment =>
    rw [statement_assignment hk, statement_assignment ((Tree.kind_renumber ρ tree).trans hk), assignment_renumber]
  | ifBranch => exact guarded .if hk
  | elseIfBranch => exact guarded .elseIf hk
  | whileLoop => exact guarded .while hk
  | elseBranch =>
    rw [statement_otherwise hk, statement_otherwise ((Tree.kind_renumber ρ tree).trans hk), hchildren,
      ih scope _ (List.Sublist.refl _), mapError_bind]
    rfl
  | block =>
    rw [statement_block hk, statement_block ((Tree.kind_renumber ρ tree).trans hk), hchildren,
      ih scope _ (List.Sublist.refl _), mapError_bind]
    rfl
  | forRange =>
    have hk' := (Tree.kind_renumber ρ tree).trans hk
    have boundless (hc : tree.children.length < 2) :
        statement scope (tree.renumber ρ) = (statement scope tree).mapError (·.renumber ρ) := by
      rw [statement_boundless hk hc, statement_boundless hk' (by simpa using hc), Tree.symbolOf_renumber,
        Tree.malformed_renumber, mapError_bind]
      rfl
    rcases hc : tree.children with _ | ⟨start, _ | ⟨stop, body⟩⟩
    · exact boundless (by simp [hc])
    · exact boundless (by simp [hc])
    · rw [hc] at hchildren
      have hbody : ∀ scope, _ := fun scope =>
        ih scope body (by rw [hc]; exact (List.sublist_cons_self _ _).trans (List.sublist_cons_self _ _))
      rw [statement_count hk hc, statement_count hk' hchildren]
      simp only [mapError_bind, mapError_ok, expression_renumber, Tree.symbolOf_renumber, hbody]
  | _ => exact other (by rw [hk]; rfl)

/-- The statements of trees in a row do not depend on their numbers. -/
theorem statements_renumber (scope : Scope) (previous : Option NodeKind) (trees : List Tree) :
    statements scope previous (trees.map (Tree.renumber ρ)) = (statements scope previous trees).mapError (·.renumber ρ) := by
  cases trees with
  | nil => rfl
  | cons tree trees =>
    have hfirst := @statement_renumber ρ tree scope fun scope body hsub =>
      have hlt := Tree.sizeAll_lt_of_sublist hsub trees
      statements_renumber scope none body
    have hrest : ∀ (scope : Scope) (previous : Option NodeKind), _ := fun scope previous =>
      have hlt := tree.sizeAll_lt_cons trees
      statements_renumber scope previous trees
    rw [List.map_cons, statements, statements, checkFollows_renumber, hfirst, Tree.kind_renumber]
    simp only [mapError_bind, hrest]
    rfl
termination_by Tree.sizeAll trees

end Trees

/-! ## Programs -/

section Programs

variable (ρ : NodeId → NodeId)

def Sections.renumber (sections : Sections) : Sections where
  inputs := sections.inputs.map (Tree.renumber ρ)
  outputs := sections.outputs.map (Tree.renumber ρ)
  main := sections.main.map (Tree.renumber ρ)

/-- A section is added to renumbered sections as to the ones before. -/
theorem add_renumber (sections : Sections) (tree : Tree) :
    (sections.renumber ρ).add (tree.renumber ρ) = ((sections.add tree).map (Sections.renumber ρ)).mapError (·.renumber ρ) := by
  unfold Sections.add
  simp only [Tree.kind_renumber, Tree.id_renumber, Tree.unexpected_renumber, Sections.renumber, Option.isSome_map]
  split
  · split <;> rfl
  · split <;> rfl
  · split <;> rfl
  · rfl

/-- The sections that are gathered from renumbered trees are the renumbered ones. -/
theorem foldlM_add_renumber (trees : List Tree) : ∀ sections : Sections,
    (trees.map (Tree.renumber ρ)).foldlM Sections.add (sections.renumber ρ) =
      ((trees.foldlM Sections.add sections).map (Sections.renumber ρ)).mapError (·.renumber ρ) := by
  induction trees with
  | nil => exact fun _ => rfl
  | cons tree trees ih =>
    intro sections
    rw [List.map_cons, List.foldlM_cons, List.foldlM_cons, add_renumber]
    cases sections.add tree with
    | error e => rfl
    | ok after => exact ih after

/-- The sections of a renumbered tree are the renumbered sections. -/
theorem sectionsOf_renumber (root : Tree) :
    sectionsOf (root.renumber ρ) = ((sectionsOf root).map (Sections.renumber ρ)).mapError (·.renumber ρ) := by
  unfold sectionsOf
  rw [Tree.kind_renumber, Tree.children_renumber, Tree.id_renumber]
  split
  · exact foldlM_add_renumber ρ root.children {}
  · rfl

/-- The children of a renumbered section are the renumbered children. -/
theorem childrenOf_renumber (section? : Option Tree) :
    childrenOf (section?.map (Tree.renumber ρ)) = (childrenOf section?).map (Tree.renumber ρ) := by
  cases section? with
  | none => rfl
  | some tree => exact Tree.children_renumber ρ tree

section Declarations

variable {spelling : String → ValueType → Except GenerateError String}
  (hs : ∀ name type, (spelling name type).mapError (·.renumber ρ) = spelling name type) (kind : NodeKind) (place : Place)

include hs

/-- A declaration does not depend on the number of its node. -/
theorem declaration_renumber (globals : Globals) (tree : Tree) :
    declaration kind place spelling globals (tree.renumber ρ) =
      (declaration kind place spelling globals tree).mapError (·.renumber ρ) := by
  unfold declaration
  simp only [Tree.kind_renumber, Tree.head_renumber, Tree.type_renumber, Tree.id_renumber, Tree.symbolOf_renumber,
    Tree.unexpected_renumber]
  split
  · rfl
  · rw [mapError_bind]
    congr 1
    funext symbol
    cases tree.head.name with
    | none => rfl
    | some name =>
      show spelling name tree.type >>= _ = (spelling name tree.type >>= _).mapError _
      rw [mapError_bind, hs]
      congr 1
      funext spelled
      split <;> rfl

/-- The declarations of trees in a row do not depend on their numbers. -/
theorem declarations_renumber (trees : List Tree) : ∀ globals : Globals,
    declarations kind place spelling globals (trees.map (Tree.renumber ρ)) =
      (declarations kind place spelling globals trees).mapError (·.renumber ρ) := by
  induction trees with
  | nil => exact fun _ => rfl
  | cons tree trees ih =>
    intro globals
    rw [List.map_cons, declarations, declarations, declaration_renumber ρ hs]
    simp only [mapError_bind, ih]
    rfl

end Declarations

/-- The spelling of an input fails with no node. -/
theorem inputSpelling_renumber (name : String) (type : ValueType) :
    (inputSpelling name type).mapError (·.renumber ρ) = inputSpelling name type := by
  unfold inputSpelling
  split
  · split <;> rfl
  · rfl

/-- The spelling of an output fails with no node. -/
theorem outputSpelling_renumber (name : String) (type : ValueType) :
    (outputSpelling name type).mapError (·.renumber ρ) = outputSpelling name type := by
  unfold outputSpelling
  split
  · split <;> rfl
  · rfl

theorem needsDispatchSize_renumber (tree : Tree) : needsDispatchSize (tree.renumber ρ) = needsDispatchSize tree := by
  unfold needsDispatchSize
  rw [Tree.kind_renumber, Tree.children_renumber]
  cases tree.children <;> simp

mutual

/-- Whether a tree needs the size of the dispatch does not depend on its numbers. -/
theorem any_renumber : ∀ tree : Tree, (tree.renumber ρ).any needsDispatchSize = tree.any needsDispatchSize
  | .node id head children => by
    have h := needsDispatchSize_renumber ρ (.node id head children)
    rw [Tree.renumber] at h ⊢
    rw [Tree.any, Tree.any, h, anyAll_renumber children]

/-- Whether some of the trees needs the size of the dispatch does not depend on their numbers. -/
theorem anyAll_renumber : ∀ trees : List Tree,
    Tree.anyAll needsDispatchSize (Tree.renumberAll ρ trees) = Tree.anyAll needsDispatchSize trees
  | [] => rfl
  | tree :: trees => by rw [Tree.renumberAll, Tree.anyAll, Tree.anyAll, any_renumber tree, anyAll_renumber trees]

end

/-- The shader of a program with other numbers, or the error that names them. -/
theorem shaderOf_renumber (root : Tree) : shaderOf (root.renumber ρ) = (shaderOf root).mapError (·.renumber ρ) := by
  have hsections := sectionsOf_renumber ρ root
  cases h : sectionsOf root with
  | error e =>
    rw [h] at hsections
    unfold shaderOf
    rw [h, hsections]
    rfl
  | ok sections =>
    rw [h] at hsections
    cases hm : sections.main with
    | none => rw [shaderOf_of_missing h hm, shaderOf_of_missing hsections (by simp [Sections.renumber, hm])]; rfl
    | some main =>
      rw [shaderOf_of_found h hm,
        shaderOf_of_found hsections (show (sections.renumber ρ).main = some (main.renumber ρ) by simp [Sections.renumber, hm])]
      simp only [Sections.renumber, childrenOf_renumber, Tree.children_renumber, any_renumber, mapError_bind, mapError_ok,
        declarations_renumber ρ (inputSpelling_renumber ρ), declarations_renumber ρ (outputSpelling_renumber ρ),
        statements_renumber]

/-- Programs with the same nodes have the same shader, or are refused for the same reason. -/
theorem shaderOf_unnumbered {root root' : Tree} (h : root.term = root'.term) :
    (shaderOf root).mapError GenerateError.unnumbered = (shaderOf root').mapError GenerateError.unnumbered := by
  have hroot : shaderOf root.unnumbered = shaderOf root'.unnumbered := congrArg shaderOf (Tree.unnumbered_eq h)
  exact (shaderOf_renumber _ root).symm.trans (hroot.trans (shaderOf_renumber _ root'))

end Programs

end Glsl

end ShaderTrace
