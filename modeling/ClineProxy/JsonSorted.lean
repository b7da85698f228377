import ClineProxy.JsonTrees
import Mathlib.Data.List.Sort
import Mathlib.Data.String.Basic

/-! Documents up to the order of the members of their objects. -/

namespace JsonGrammar.JsonTree

variable {First Second Third : Type}

theorem induction {holds : JsonTree First → Prop} (null : holds .null)
    (bool : ∀ value, holds (.bool value)) (number : ∀ value, holds (.number value))
    (string : ∀ text, holds (.string text))
    (array : ∀ items, (∀ item ∈ items, holds item) → holds (.array items))
    (object : ∀ members, (∀ member ∈ members, holds member.2) → holds (.object members))
    (tree : JsonTree First) : holds tree :=
  @JsonTree.rec First holds (fun items => ∀ item ∈ items, holds item)
    (fun members => ∀ member ∈ members, holds member.2) (fun member => holds member.2)
    null bool number string array object
    (fun _ none_ => by cases none_)
    (fun _ _ head later => List.forall_mem_cons.mpr ⟨head, later⟩)
    (fun _ none_ => by cases none_)
    (fun _ _ head later => List.forall_mem_cons.mpr ⟨head, later⟩)
    (fun _ _ held => held) tree

mutual

def map (change : First → Second) : JsonTree First → JsonTree Second
  | .null => .null
  | .bool value => .bool value
  | .number value => .number (change value)
  | .string text => .string text
  | .array items => .array (mapItems change items)
  | .object members => .object (mapMembers change members)

def mapItems (change : First → Second) : List (JsonTree First) → List (JsonTree Second)
  | [] => []
  | item :: rest => item.map change :: mapItems change rest

def mapMembers (change : First → Second) :
    List (String × JsonTree First) → List (String × JsonTree Second)
  | [] => []
  | (name, value) :: rest => (name, value.map change) :: mapMembers change rest

end

theorem map_array (change : First → Second) (items : List (JsonTree First)) :
    (array items).map change = .array (items.map (map change)) := by
  have every : mapItems change items = items.map (map change) := by
    induction items with
    | nil => rfl
    | cons item rest ih => rw [mapItems, ih, List.map_cons]
  rw [map, every]

theorem map_object (change : First → Second) (members : List (String × JsonTree First)) :
    (object members).map change =
      .object (members.map fun member => (member.1, member.2.map change)) := by
  have every : mapMembers change members =
      members.map fun member => (member.1, member.2.map change) := by
    induction members with
    | nil => rfl
    | cons member rest ih => rw [mapMembers, ih, List.map_cons]
  rw [map, every]

theorem map_map (change : First → Second) (again : Second → Third) (tree : JsonTree First) :
    (tree.map change).map again = tree.map (again ∘ change) := by
  induction tree using induction with
  | null | bool | number | string => rfl
  | array items ih =>
      rw [map_array, map_array, map_array, List.map_map]
      exact congrArg JsonTree.array (List.map_congr_left ih)
  | object members ih =>
      rw [map_object, map_object, map_object, List.map_map]
      exact congrArg JsonTree.object (List.map_congr_left fun member held =>
        congrArg (Prod.mk member.1) (ih member held))

mutual

def numbers : JsonTree First → List First
  | .number value => [value]
  | .array items => numbersOfItems items
  | .object members => numbersOfMembers members
  | .null | .bool _ | .string _ => []

def numbersOfItems : List (JsonTree First) → List First
  | [] => []
  | item :: rest => item.numbers ++ numbersOfItems rest

def numbersOfMembers : List (String × JsonTree First) → List First
  | [] => []
  | (_, value) :: rest => value.numbers ++ numbersOfMembers rest

end

theorem mem_numbers_array {value : First} {items : List (JsonTree First)} :
    value ∈ (array items).numbers ↔ ∃ item ∈ items, value ∈ item.numbers := by
  rw [numbers]
  induction items with
  | nil => simp [numbersOfItems]
  | cons item rest ih => simp [numbersOfItems, ih]

theorem mem_numbers_object {value : First} {members : List (String × JsonTree First)} :
    value ∈ (object members).numbers ↔ ∃ member ∈ members, value ∈ member.2.numbers := by
  rw [numbers]
  induction members with
  | nil => simp [numbersOfMembers]
  | cons member rest ih => simp [numbersOfMembers, ih]

theorem mem_numbers_map {change : First → Second} {value : Second} (tree : JsonTree First) :
    value ∈ (tree.map change).numbers ↔ ∃ held ∈ tree.numbers, change held = value := by
  induction tree using induction with
  | null | bool | string => simp [map, numbers]
  | number held => simp [map, numbers, eq_comm]
  | array items ih =>
      simp only [map_array, mem_numbers_array, List.mem_map, exists_exists_and_eq_and]
      constructor
      · rintro ⟨item, member, inside⟩
        obtain ⟨held, here, changed⟩ := (ih item member).mp inside
        exact ⟨held, ⟨item, member, here⟩, changed⟩
      · rintro ⟨held, ⟨item, member, here⟩, changed⟩
        exact ⟨item, member, (ih item member).mpr ⟨held, here, changed⟩⟩
  | object members ih =>
      simp only [map_object, mem_numbers_object, List.mem_map, exists_exists_and_eq_and]
      constructor
      · rintro ⟨member, inMembers, inside⟩
        obtain ⟨held, here, changed⟩ := (ih member inMembers).mp inside
        exact ⟨held, ⟨member, inMembers, here⟩, changed⟩
      · rintro ⟨held, ⟨member, inMembers, here⟩, changed⟩
        exact ⟨member, inMembers, (ih member inMembers).mpr ⟨held, here, changed⟩⟩

theorem map_eq_map_iff (tree : JsonTree First) (change other : First → Second) :
    tree.map change = tree.map other ↔ ∀ value ∈ tree.numbers, change value = other value := by
  induction tree using induction with
  | null | bool | string => exact iff_of_true rfl fun _ none_ => by cases none_
  | number value => simp [map, numbers]
  | array items ih =>
      rw [map_array, map_array, JsonTree.array.injEq, List.map_inj_left]
      constructor
      · intro same value held
        obtain ⟨item, member, inside⟩ := mem_numbers_array.mp held
        exact (ih item member).mp (same item member) value inside
      · intro same item member
        exact (ih item member).mpr fun value inside =>
          same value (mem_numbers_array.mpr ⟨item, member, inside⟩)
  | object members ih =>
      rw [map_object, map_object, JsonTree.object.injEq, List.map_inj_left]
      constructor
      · intro same value held
        obtain ⟨member, inMembers, inside⟩ := mem_numbers_object.mp held
        exact (ih member inMembers).mp (Prod.mk.inj (same member inMembers)).2 value inside
      · intro same member inMembers
        exact congrArg (Prod.mk member.1) ((ih member inMembers).mpr fun value inside =>
          same value (mem_numbers_object.mpr ⟨member, inMembers, inside⟩))

theorem map_id_iff (tree : JsonTree First) (change : First → First) :
    tree.map change = tree ↔ ∀ value ∈ tree.numbers, change value = value := by
  have same : tree.map id = tree := by
    induction tree using induction with
    | null | bool | number | string => rfl
    | array items ih => rw [map_array, List.map_congr_left ih, List.map_id']
    | object members ih =>
        rw [map_object]
        exact congrArg JsonTree.object ((List.map_congr_left fun member held =>
          congrArg (Prod.mk member.1) (ih member held)).trans (List.map_id' members))
  have compared := map_eq_map_iff tree change id
  rwa [same] at compared

def byName (members : List (String × JsonTree First)) : List (String × JsonTree First) :=
  members.insertionSort fun first second => first.1 ≤ second.1

theorem byName_perm (members : List (String × JsonTree First)) : (byName members).Perm members :=
  List.perm_insertionSort _ members

theorem byName_map (change : JsonTree First → JsonTree Second)
    (members : List (String × JsonTree First)) :
    (byName members).map (fun member => (member.1, change member.2)) =
      byName (members.map fun member => (member.1, change member.2)) :=
  List.map_insertionSort _ _ _ _ fun _ _ _ _ => Iff.rfl

theorem byName_byName (members : List (String × JsonTree First)) :
    byName (byName members) = byName members := by
  have : Std.Total fun first second : String × JsonTree First => first.1 ≤ second.1 :=
    ⟨fun first second => le_total first.1 second.1⟩
  have : IsTrans (String × JsonTree First) fun first second => first.1 ≤ second.1 :=
    ⟨fun _ _ _ => le_trans⟩
  exact (List.pairwise_insertionSort _ members).insertionSort_eq

mutual

/-- The tree with the members of every object in the order of their names: trees that differ in
the order of members only are sorted to one tree. -/
def sorted : JsonTree First → JsonTree First
  | .array items => .array (sortedItems items)
  | .object members => .object (byName (sortedMembers members))
  | .null => .null
  | .bool value => .bool value
  | .number value => .number value
  | .string text => .string text

def sortedItems : List (JsonTree First) → List (JsonTree First)
  | [] => []
  | item :: rest => item.sorted :: sortedItems rest

def sortedMembers : List (String × JsonTree First) → List (String × JsonTree First)
  | [] => []
  | (name, value) :: rest => (name, value.sorted) :: sortedMembers rest

end

theorem sorted_array (items : List (JsonTree First)) :
    (array items).sorted = .array (items.map sorted) := by
  have every : sortedItems items = items.map sorted := by
    induction items with
    | nil => rfl
    | cons item rest ih => rw [sortedItems, ih, List.map_cons]
  rw [sorted, every]

theorem sorted_object (members : List (String × JsonTree First)) : (object members).sorted =
    .object (byName (members.map fun member => (member.1, member.2.sorted))) := by
  have every : sortedMembers members = members.map fun member => (member.1, member.2.sorted) := by
    induction members with
    | nil => rfl
    | cons member rest ih => rw [sortedMembers, ih, List.map_cons]
  rw [sorted, every]

theorem sorted_map (change : First → Second) (tree : JsonTree First) :
    (tree.map change).sorted = tree.sorted.map change := by
  induction tree using induction with
  | null | bool | number | string => rfl
  | array items ih =>
      rw [map_array, sorted_array, sorted_array, map_array, List.map_map, List.map_map]
      exact congrArg JsonTree.array (List.map_congr_left ih)
  | object members ih =>
      rw [map_object, sorted_object, sorted_object, map_object, byName_map, List.map_map,
        List.map_map]
      exact congrArg (JsonTree.object ∘ byName) (List.map_congr_left fun member held =>
        congrArg (Prod.mk member.1) (ih member held))

theorem sorted_sorted (tree : JsonTree First) : tree.sorted.sorted = tree.sorted := by
  induction tree using induction with
  | null | bool | number | string => rfl
  | array items ih =>
      rw [sorted_array, sorted_array, List.map_map]
      exact congrArg JsonTree.array (List.map_congr_left ih)
  | object members ih =>
      rw [sorted_object, sorted_object, byName_map, List.map_map, byName_byName]
      exact congrArg (JsonTree.object ∘ byName) (List.map_congr_left fun member held =>
        congrArg (Prod.mk member.1) (ih member held))

theorem mem_numbers_sorted {value : First} (tree : JsonTree First) :
    value ∈ tree.sorted.numbers ↔ value ∈ tree.numbers := by
  induction tree using induction with
  | null | bool | number | string => rfl
  | array items ih =>
      rw [sorted_array, mem_numbers_array, mem_numbers_array]
      simp only [List.mem_map, exists_exists_and_eq_and]
      exact exists_congr fun item => and_congr_right (ih item)
  | object members ih =>
      rw [sorted_object, mem_numbers_object, mem_numbers_object]
      simp only [(byName_perm _).mem_iff, List.mem_map, exists_exists_and_eq_and]
      exact exists_congr fun member => and_congr_right (ih member)

theorem literals_iff (document : Document) :
    Literals document ↔ ∀ literal ∈ document.numbers, isNumber literal = true := by
  induction document using induction with
  | null | bool | string => exact iff_of_true trivial fun _ none_ => by cases none_
  | number literal => simp [Literals, numbers]
  | array items ih =>
      have every : Literals (.array items) ↔ ∀ item ∈ items, Literals item := by
        rw [Literals]
        clear ih
        induction items with
        | nil => exact iff_of_true trivial fun _ none_ => by cases none_
        | cons item rest ih => rw [LiteralItems, ih, List.forall_mem_cons]
      simp only [every, mem_numbers_array]
      exact ⟨fun held literal ⟨item, member, inside⟩ =>
        (ih item member).mp (held item member) literal inside,
        fun held item member => (ih item member).mpr fun literal inside =>
          held literal ⟨item, member, inside⟩⟩
  | object members ih =>
      have every : Literals (.object members) ↔ ∀ member ∈ members, Literals member.2 := by
        rw [Literals]
        clear ih
        induction members with
        | nil => exact iff_of_true trivial fun _ none_ => by cases none_
        | cons member rest ih => rw [LiteralMembers, ih, List.forall_mem_cons]
      simp only [every, mem_numbers_object]
      exact ⟨fun held literal ⟨member, inMembers, inside⟩ =>
        (ih member inMembers).mp (held member inMembers) literal inside,
        fun held member inMembers => (ih member inMembers).mpr fun literal inside =>
          held literal ⟨member, inMembers, inside⟩⟩

theorem literals_sorted {document : Document} (literals : Literals document) :
    Literals document.sorted :=
  (literals_iff _).mpr fun literal inside =>
    (literals_iff document).mp literals literal ((mem_numbers_sorted document).mp inside)

mutual

def size : JsonTree First → Nat
  | .array items => 1 + sizeOfItems items
  | .object members => 1 + sizeOfMembers members
  | .null | .bool _ | .number _ | .string _ => 1

def sizeOfItems : List (JsonTree First) → Nat
  | [] => 0
  | item :: rest => item.size + sizeOfItems rest

def sizeOfMembers : List (String × JsonTree First) → Nat
  | [] => 0
  | (_, value) :: rest => value.size + sizeOfMembers rest

end

theorem size_array (items : List (JsonTree First)) :
    (array items).size = 1 + (items.map size).sum := by
  have every : sizeOfItems items = (items.map size).sum := by
    induction items with
    | nil => rfl
    | cons item rest ih => rw [sizeOfItems, ih, List.map_cons, List.sum_cons]
  rw [size, every]

theorem size_object (members : List (String × JsonTree First)) :
    (object members).size = 1 + (members.map fun member => member.2.size).sum := by
  have every : sizeOfMembers members = (members.map fun member => member.2.size).sum := by
    induction members with
    | nil => rfl
    | cons member rest ih => rw [sizeOfMembers, ih, List.map_cons, List.sum_cons]
  rw [size, every]

theorem size_map (change : First → Second) (tree : JsonTree First) :
    (tree.map change).size = tree.size := by
  induction tree using induction with
  | null | bool | number | string => rfl
  | array items ih =>
      rw [map_array, size_array, size_array, List.map_map]
      exact congrArg (fun sizes : List Nat => 1 + sizes.sum) (List.map_congr_left ih)
  | object members ih =>
      rw [map_object, size_object, size_object, List.map_map]
      exact congrArg (fun sizes : List Nat => 1 + sizes.sum) (List.map_congr_left ih)

theorem size_sorted (tree : JsonTree First) : tree.sorted.size = tree.size := by
  induction tree using induction with
  | null | bool | number | string => rfl
  | array items ih =>
      rw [sorted_array, size_array, size_array, List.map_map]
      exact congrArg (fun sizes : List Nat => 1 + sizes.sum) (List.map_congr_left ih)
  | object members ih =>
      rw [sorted_object, size_object, size_object, ((byName_perm _).map _).sum_nat, List.map_map]
      exact congrArg (fun sizes : List Nat => 1 + sizes.sum) (List.map_congr_left ih)

mutual

def depth : JsonTree First → Nat
  | .array items => 1 + depthOfItems items
  | .object members => 1 + depthOfMembers members
  | .null | .bool _ | .number _ | .string _ => 0

def depthOfItems : List (JsonTree First) → Nat
  | [] => 0
  | item :: rest => max item.depth (depthOfItems rest)

def depthOfMembers : List (String × JsonTree First) → Nat
  | [] => 0
  | (_, value) :: rest => max value.depth (depthOfMembers rest)

end

theorem depth_array_le {items : List (JsonTree First)} {bound : Nat} :
    (array items).depth ≤ bound + 1 ↔ ∀ item ∈ items, item.depth ≤ bound := by
  rw [depth, Nat.add_comm, Nat.add_le_add_iff_right]
  induction items with
  | nil => simp [depthOfItems]
  | cons item rest ih => rw [depthOfItems, Nat.max_le, ih, List.forall_mem_cons]

theorem depth_object_le {members : List (String × JsonTree First)} {bound : Nat} :
    (object members).depth ≤ bound + 1 ↔ ∀ member ∈ members, member.2.depth ≤ bound := by
  rw [depth, Nat.add_comm, Nat.add_le_add_iff_right]
  induction members with
  | nil => simp [depthOfMembers]
  | cons member rest ih => rw [depthOfMembers, Nat.max_le, ih, List.forall_mem_cons]

theorem depth_map_le (change : First → Second) {tree : JsonTree First} {bound : Nat}
    (within : tree.depth ≤ bound) : (tree.map change).depth ≤ bound := by
  induction tree using induction generalizing bound with
  | null | bool | number | string => exact within
  | array items ih =>
      cases bound with
      | zero => exact absurd within (by rw [depth]; omega)
      | succ bound =>
          rw [map_array, depth_array_le, List.forall_mem_map]
          exact fun item member => ih item member (depth_array_le.mp within item member)
  | object members ih =>
      cases bound with
      | zero => exact absurd within (by rw [depth]; omega)
      | succ bound =>
          rw [map_object, depth_object_le, List.forall_mem_map]
          exact fun member held => ih member held (depth_object_le.mp within member held)

theorem depth_sorted_le {tree : JsonTree First} {bound : Nat} (within : tree.depth ≤ bound) :
    tree.sorted.depth ≤ bound := by
  induction tree using induction generalizing bound with
  | null | bool | number | string => exact within
  | array items ih =>
      cases bound with
      | zero => exact absurd within (by rw [depth]; omega)
      | succ bound =>
          rw [sorted_array, depth_array_le, List.forall_mem_map]
          exact fun item member => ih item member (depth_array_le.mp within item member)
  | object members ih =>
      cases bound with
      | zero => exact absurd within (by rw [depth]; omega)
      | succ bound =>
          rw [sorted_object, depth_object_le]
          intro member held
          obtain ⟨original, member_, rfl⟩ := List.mem_map.mp ((byName_perm _).mem_iff.mp held)
          exact ih original member_ (depth_object_le.mp within original member_)

mutual

/-- No object names a member twice. -/
def Distinct : JsonTree First → Prop
  | .array items => DistinctItems items
  | .object members => (members.map Prod.fst).Nodup ∧ DistinctMembers members
  | .null | .bool _ | .number _ | .string _ => True

def DistinctItems : List (JsonTree First) → Prop
  | [] => True
  | item :: rest => item.Distinct ∧ DistinctItems rest

def DistinctMembers : List (String × JsonTree First) → Prop
  | [] => True
  | (_, value) :: rest => value.Distinct ∧ DistinctMembers rest

end

theorem distinct_array {items : List (JsonTree First)} :
    (array items).Distinct ↔ ∀ item ∈ items, item.Distinct := by
  rw [Distinct]
  induction items with
  | nil => exact iff_of_true trivial fun _ none_ => by cases none_
  | cons item rest ih => rw [DistinctItems, ih, List.forall_mem_cons]

theorem distinct_object {members : List (String × JsonTree First)} : (object members).Distinct ↔
    (members.map Prod.fst).Nodup ∧ ∀ member ∈ members, member.2.Distinct := by
  have every : DistinctMembers members ↔ ∀ member ∈ members, member.2.Distinct := by
    induction members with
    | nil => exact iff_of_true trivial fun _ none_ => by cases none_
    | cons member rest ih => rw [DistinctMembers, ih, List.forall_mem_cons]
  rw [Distinct, every]

theorem Distinct.map {tree : JsonTree First} (distinct : tree.Distinct) (change : First → Second) :
    (tree.map change).Distinct := by
  induction tree using induction with
  | null | bool | number | string => trivial
  | array items ih =>
      rw [map_array, distinct_array, List.forall_mem_map]
      exact fun item member => ih item member (distinct_array.mp distinct item member)
  | object members ih =>
      obtain ⟨names, inside⟩ := distinct_object.mp distinct
      rw [map_object, distinct_object, List.map_map, List.forall_mem_map]
      exact ⟨names, fun member held => ih member held (inside member held)⟩

theorem Distinct.sorted {tree : JsonTree First} (distinct : tree.Distinct) :
    tree.sorted.Distinct := by
  induction tree using induction with
  | null | bool | number | string => trivial
  | array items ih =>
      rw [sorted_array, distinct_array, List.forall_mem_map]
      exact fun item member => ih item member (distinct_array.mp distinct item member)
  | object members ih =>
      obtain ⟨names, inside⟩ := distinct_object.mp distinct
      rw [sorted_object, distinct_object, ((byName_perm _).map _).nodup_iff, List.map_map]
      refine ⟨names, fun member held => ?_⟩
      obtain ⟨original, member_, rfl⟩ := List.mem_map.mp ((byName_perm _).mem_iff.mp held)
      exact ih original member_ (inside original member_)

end JsonGrammar.JsonTree
