import RowQuery.Proofs.Path.Branches

/-! # Leaves

The leaves of a node are the nodes that are met when nested arrays are flattened, none of which is
an array. The positions of the items on the way to a leaf make up its address
(`RowQuery.Node.LeafAt`), and the lexicographic order of the addresses is the order of the document,
in which the leaves are listed (`RowQuery.Node.flattens_addressed`,
`RowQuery.Node.map_snd_addressed`).
-/

namespace RowQuery.Node

/-- A leaf with the positions of the items that lead to it through nested arrays. -/
inductive LeafAt : Node → List Nat → Node → Prop
  | here {node : Node} (single : ∀ items, node ≠ .array items) : LeafAt node [] node
  | inside {items : List Node} {position : Nat} {item leaf : Node} {address : List Nat}
      (choice : items[position]? = some item) (below : LeafAt item address leaf) :
      LeafAt (.array items) (position :: address) leaf

/-- A list of all leaves of a node with their addresses, in document order. -/
structure Flattens (node : Node) (listed : List (List Nat × Node)) : Prop where
  mem_iff : ∀ address leaf, (address, leaf) ∈ listed ↔ LeafAt node address leaf
  ordered : listed.Pairwise fun earlier later => earlier.1 < later.1

mutual

/-- The leaves of a node with their addresses. -/
def addressed : Node → List (List Nat × Node)
  | .array items => addressedFrom 0 items
  | node => [([], node)]

/-- The leaves of the items from a position on. -/
def addressedFrom (position : Nat) : List Node → List (List Nat × Node)
  | [] => []
  | item :: rest =>
    (item.addressed.map fun (address, leaf) => (position :: address, leaf)) ++
      addressedFrom (position + 1) rest

end

theorem addressed_of_ne_array {node : Node} (single : ∀ items, node ≠ .array items) :
    node.addressed = [([], node)] := by
  cases node with
  | array items => exact absurd rfl (single items)
  | _ => rfl

theorem leafAt_of_ne_array_iff {node leaf : Node} {address : List Nat}
    (single : ∀ items, node ≠ .array items) :
    LeafAt node address leaf ↔ address = [] ∧ leaf = node := by
  constructor
  · intro met
    cases met with
    | here _ => exact ⟨rfl, rfl⟩
    | inside _ _ => exact absurd rfl (single _)
  · rintro ⟨rfl, rfl⟩
    exact .here single

theorem leafAt_array_iff {items : List Node} {leaf : Node} {address : List Nat} :
    LeafAt (.array items) address leaf ↔
      ∃ position item below, items[position]? = some item ∧ address = position :: below ∧
        LeafAt item below leaf := by
  constructor
  · intro met
    cases met with
    | here single => exact absurd rfl (single items)
    | inside choice below => exact ⟨_, _, _, choice, rfl, below⟩
  · rintro ⟨position, item, below, choice, rfl, met⟩
    exact .inside choice met

/-- What holds of every node that is no array, and of every array of whose items it holds, holds of
every node. -/
theorem induction_on_arrays {holds : Node → Prop}
    (single : ∀ node, (∀ items, node ≠ .array items) → holds node)
    (array : ∀ items, (∀ item ∈ items, holds item) → holds (.array items)) :
    ∀ node, holds node
  | .array items => array items fun item _ => induction_on_arrays single array item
  | .null => single _ nofun
  | .boolean _ => single _ nofun
  | .number _ => single _ nofun
  | .text _ => single _ nofun
  | .object _ => single _ nofun

theorem map_snd_addressed (node : Node) : node.addressed.map Prod.snd = node.leaves := by
  induction node using induction_on_arrays with
  | single node single => rw [addressed_of_ne_array single, leaves_of_ne_array single]; rfl
  | array items ih =>
      rw [addressed, leaves_array]
      generalize 0 = position
      induction items generalizing position with
      | nil => rfl
      | cons item rest inner =>
          obtain ⟨here, later⟩ := List.forall_mem_cons.mp ih
          rw [addressedFrom, List.map_append, List.map_map, inner later, List.flatMap_cons, ← here]
          rfl

theorem isArray_of_mem_leaves {node leaf : Node} (member : leaf ∈ node.leaves) :
    leaf.isArray = false := by
  induction node using induction_on_arrays with
  | single node single =>
      rw [leaves_of_ne_array single, List.mem_singleton] at member
      exact member ▸ isArray_eq_false_iff.mpr single
  | array items ih =>
      rw [leaves_array, List.mem_flatMap] at member
      obtain ⟨item, inside, below⟩ := member
      exact ih item inside below

theorem leaves_of_mem_leaves {node leaf : Node} (member : leaf ∈ node.leaves) :
    leaf.leaves = [leaf] :=
  leaves_of_ne_array (isArray_eq_false_iff.mp (isArray_of_mem_leaves member))

/-- The leaves of the items from a position on are those of the items at these positions. -/
theorem mem_addressedFrom_iff {items : List Node} {start : Nat} {address : List Nat} {leaf : Node}
    (each : ∀ item ∈ items, ∀ address leaf,
      (address, leaf) ∈ item.addressed ↔ LeafAt item address leaf) :
    (address, leaf) ∈ addressedFrom start items ↔
      ∃ position item below, items[position]? = some item ∧ address = (start + position) :: below ∧
        LeafAt item below leaf := by
  induction items generalizing start with
  | nil => simp only [addressedFrom, List.not_mem_nil, List.getElem?_nil, reduceCtorEq, false_and,
      exists_false]
  | cons item rest ih =>
      obtain ⟨here, later⟩ := List.forall_mem_cons.mp each
      simp only [addressedFrom, List.mem_append, List.mem_map, Prod.exists, Prod.mk.injEq, here,
        ih later]
      constructor
      · rintro (⟨below, _, met, rfl, rfl⟩ | ⟨position, other, below, choice, rfl, met⟩)
        · exact ⟨0, item, below, rfl, rfl, met⟩
        · exact ⟨position + 1, other, below, choice, by rw [Nat.add_right_comm, Nat.add_assoc], met⟩
      · rintro ⟨position, other, below, choice, rfl, met⟩
        cases position with
        | zero =>
            obtain rfl := Option.some.inj choice
            exact .inl ⟨below, leaf, met, rfl, rfl⟩
        | succ position =>
            exact .inr ⟨position, other, below, choice, by rw [Nat.add_right_comm, Nat.add_assoc],
              met⟩

theorem mem_addressed_iff (node : Node) (address : List Nat) (leaf : Node) :
    (address, leaf) ∈ node.addressed ↔ LeafAt node address leaf := by
  induction node using induction_on_arrays generalizing address leaf with
  | single node single =>
      rw [addressed_of_ne_array single, leafAt_of_ne_array_iff single, List.mem_singleton,
        Prod.mk.injEq]
  | array items ih =>
      rw [addressed, mem_addressedFrom_iff ih, leafAt_array_iff]
      simp only [Nat.zero_add]

theorem addressedFrom_ordered {items : List Node}
    (each : ∀ item ∈ items, item.addressed.Pairwise fun earlier later => earlier.1 < later.1)
    (start : Nat) :
    (addressedFrom start items).Pairwise fun earlier later => earlier.1 < later.1 := by
  induction items generalizing start with
  | nil => exact .nil
  | cons item rest ih =>
      obtain ⟨here, later⟩ := List.forall_mem_cons.mp each
      rw [addressedFrom, List.pairwise_append, List.pairwise_map]
      refine ⟨here.imp fun before => List.cons_lt_cons_iff.mpr (.inr ⟨rfl, before⟩),
        ih later (start + 1), ?_⟩
      rintro ⟨_, _⟩ first ⟨address, leaf⟩ second
      obtain ⟨⟨below, _⟩, _, same⟩ := List.mem_map.mp first
      obtain ⟨rfl, rfl⟩ := Prod.mk.inj same
      rw [mem_addressedFrom_iff fun item _ => mem_addressed_iff item] at second
      obtain ⟨position, _, _, _, rfl, _⟩ := second
      exact List.cons_lt_cons_iff.mpr (.inl (by omega))

/-- The leaves with their addresses stand in document order. -/
theorem flattens_addressed (node : Node) : node.Flattens node.addressed where
  mem_iff := mem_addressed_iff node
  ordered := by
    induction node using induction_on_arrays with
    | single node single =>
        rw [addressed_of_ne_array single]
        exact List.pairwise_singleton _ _
    | array items ih => exact addressedFrom_ordered ih 0

end RowQuery.Node
