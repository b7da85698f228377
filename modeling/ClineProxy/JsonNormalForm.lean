import ClineProxy.JsonCoding
import Mathlib.Data.List.Perm.Basic

/-! Values with the members of their objects in the order of their names. -/

namespace Json

open JsonGrammar (Document JsonTree)

variable {numbers : NumberCoding}

theorem everyMemberNumber_iff {holds : Number → Prop} {fields : Map} :
    EveryMemberNumber holds fields ↔ ∀ member ∈ fields, member.2.EveryNumber holds := by
  induction fields with
  | nil => exact iff_of_true trivial fun _ none_ => by cases none_
  | cons member rest ih => rw [EveryMemberNumber, ih, List.forall_mem_cons]

theorem everyMemberNumber_insert {holds : Number → Prop} {fields : Map}
    (held : EveryMemberNumber holds fields) (key : String) {value : Value}
    (new : value.EveryNumber holds) : EveryMemberNumber holds (fields.insert key value) := by
  induction fields with
  | nil => exact ⟨new, trivial⟩
  | cons member rest ih =>
      obtain ⟨other, old⟩ := member
      rw [Map.insert]
      split
      next => exact ⟨new, held.2⟩
      next => exact ⟨held.1, ih held.2⟩

theorem distinctMembers_iff {fields : Map} :
    DistinctMembers fields ↔ ∀ member ∈ fields, member.2.Distinct := by
  induction fields with
  | nil => exact iff_of_true trivial fun _ none_ => by cases none_
  | cons member rest ih => rw [DistinctMembers, ih, List.forall_mem_cons]

theorem NumberCoding.Readable.inj {first second : Number} (readable : numbers.Readable first)
    (other : numbers.Readable second) (same : numbers.write first = numbers.write second) :
    first = second := by
  have read := readable.readBack
  rw [same, other.readBack] at read
  exact (Option.some.inj read).symm

theorem itemDocuments_eq (items : List Value) :
    itemDocuments numbers items = items.map (Value.document numbers) := by
  induction items with
  | nil => rfl
  | cons item rest ih => rw [itemDocuments, ih, List.map_cons]

def NumberCoding.Writes (numbers : NumberCoding) (holds : Number → Prop) : Prop :=
  ∀ number, holds number → JsonGrammar.isNumber (numbers.write number) = true

theorem NumberCoding.writes_readable (numbers : NumberCoding) : numbers.Writes numbers.Readable :=
  fun _ => NumberCoding.Readable.literal

mutual

theorem literals_document {holds : Number → Prop} (written : numbers.Writes holds) :
    (value : Value) → value.EveryNumber holds → JsonGrammar.Literals (value.document numbers)
  | .null, _ | .bool _, _ | .string _, _ => trivial
  | .number number, held => written number held
  | .array items, held => literals_itemDocuments written items held
  | .object fields, held => literals_memberDocuments written fields held

theorem literals_itemDocuments {holds : Number → Prop} (written : numbers.Writes holds) :
    (items : List Value) → EveryItemNumber holds items →
    JsonGrammar.LiteralItems (itemDocuments numbers items)
  | [], _ => trivial
  | item :: rest, held =>
      ⟨literals_document written item held.1, literals_itemDocuments written rest held.2⟩

theorem literals_memberDocuments {holds : Number → Prop} (written : numbers.Writes holds) :
    (fields : List (String × Value)) → EveryMemberNumber holds fields →
    JsonGrammar.LiteralMembers (memberDocuments numbers fields)
  | [], _ => trivial
  | (_, value) :: rest, held =>
      ⟨literals_document written value held.1, literals_memberDocuments written rest held.2⟩

end

mutual

theorem everyNumber_ofDocument {holds : Number → Prop}
    (read : ∀ literal number, numbers.read literal = some number → holds number) :
    (document : Document) → {value : Value} → ofDocument numbers document = some value →
    value.EveryNumber holds
  | .null, _, rfl | .bool _, _, rfl | .string _, _, rfl => trivial
  | .number literal, value, made => by
      obtain ⟨number, found, rfl⟩ := Option.map_eq_some_iff.mp made
      exact read literal number found
  | .array items, value, made => by
      obtain ⟨values, found, rfl⟩ := Option.map_eq_some_iff.mp made
      exact everyNumber_ofItems read items found
  | .object members, value, made => by
      obtain ⟨fields, found, rfl⟩ := Option.map_eq_some_iff.mp made
      exact everyNumber_ofMembers read members found trivial

theorem everyNumber_ofItems {holds : Number → Prop}
    (read : ∀ literal number, numbers.read literal = some number → holds number) :
    (items : List Document) → {values : List Value} → ofItems numbers items = some values →
    EveryItemNumber holds values
  | [], _, rfl => trivial
  | item :: rest, values, made => by
      simp only [ofItems, Option.bind_eq_bind, Option.bind_eq_some_iff, Option.pure_def,
        Option.some.injEq] at made
      obtain ⟨value, first, others, later, rfl⟩ := made
      exact ⟨everyNumber_ofDocument read item first, everyNumber_ofItems read rest later⟩

theorem everyNumber_ofMembers {holds : Number → Prop}
    (read : ∀ literal number, numbers.read literal = some number → holds number) :
    (members : List (String × Document)) → {fields out : Map} →
    ofMembers numbers members fields = some out → EveryMemberNumber holds fields →
    EveryMemberNumber holds out
  | [], _, _, rfl, held => held
  | (name, tree) :: rest, fields, out, made, held => by
      simp only [ofMembers, Option.bind_eq_bind, Option.bind_eq_some_iff] at made
      obtain ⟨value, first, later⟩ := made
      exact everyNumber_ofMembers read rest later
        (everyMemberNumber_insert held name (everyNumber_ofDocument read tree first))

end

mutual

theorem isSome_ofDocument : (document : Document) → ((ofDocument numbers document).isSome ↔
    ∀ literal ∈ document.numbers, (numbers.read literal).isSome)
  | .null | .bool _ | .string _ => iff_of_true rfl fun _ none_ => by cases none_
  | .number literal => by
      rw [ofDocument, Option.isSome_map, JsonTree.numbers]
      simp
  | .array items => by
      rw [ofDocument, Option.isSome_map, JsonTree.numbers]
      exact isSome_ofItems items
  | .object members => by
      rw [ofDocument, Option.isSome_map, JsonTree.numbers]
      exact isSome_ofMembers members []

theorem isSome_ofItems : (items : List Document) → ((ofItems numbers items).isSome ↔
    ∀ literal ∈ JsonTree.numbersOfItems items, (numbers.read literal).isSome)
  | [] => iff_of_true rfl fun _ none_ => by cases none_
  | item :: rest => by
      rw [JsonTree.numbersOfItems, List.forall_mem_append, ← isSome_ofDocument item,
        ← isSome_ofItems rest, ofItems]
      cases ofDocument numbers item <;> cases ofItems numbers rest <;> simp

theorem isSome_ofMembers : (members : List (String × Document)) → (fields : Map) →
    ((ofMembers numbers members fields).isSome ↔
      ∀ literal ∈ JsonTree.numbersOfMembers members, (numbers.read literal).isSome)
  | [], _ => iff_of_true rfl fun _ none_ => by cases none_
  | (name, tree) :: rest, fields => by
      rw [JsonTree.numbersOfMembers, List.forall_mem_append, ← isSome_ofDocument tree, ofMembers]
      cases ofDocument numbers tree with
      | none => simp
      | some value => simpa using isSome_ofMembers rest (fields.insert name value)

end

theorem perm_of_map {Item Image : Type} {image : Item → Image} {first second : List Item}
    (moved : (first.map image).Perm (second.map image)) :
    ∃ middle : List Item, first.map image = middle.map image ∧ middle.Perm second :=
  (congrFun (congrFun (List.eq_map_comp_perm image) (first.map image)) second).mpr moved

/-! Values that have one sorted document differ in the order of members only -/

mutual

theorem reordered_of_sorted : (value : Value) → {other : Value} →
    value.EveryNumber numbers.Readable → other.EveryNumber numbers.Readable →
    (value.document numbers).sorted = (other.document numbers).sorted → Reordered value other
  | .null, other, _, _, same => by
      cases other with
      | null => exact .same _
      | bool | number | string | array | object => cases same
  | .bool value, other, _, _, same => by
      cases other with
      | bool => cases same; exact .same _
      | null | number | string | array | object => cases same
  | .string text, other, _, _, same => by
      cases other with
      | string => cases same; exact .same _
      | null | bool | number | array | object => cases same
  | .number value, other, readable, otherReadable, same => by
      cases other with
      | number found =>
          have equal := readable.inj otherReadable (JsonTree.number.inj same)
          exact equal ▸ .same _
      | null | bool | string | array | object => cases same
  | .array items, other, readable, otherReadable, same => by
      cases other with
      | array others =>
          rw [Value.document, Value.document, JsonTree.sorted_array, JsonTree.sorted_array,
            JsonTree.array.injEq, itemDocuments_eq, itemDocuments_eq, List.map_map,
            List.map_map] at same
          exact .array (reorderedItems_of_sorted items readable otherReadable same)
      | null | bool | number | string | object => cases same
  | .object fields, other, readable, otherReadable, same => by
      cases other with
      | object others =>
          rw [Value.document, Value.document, JsonTree.sorted_object, JsonTree.sorted_object,
            JsonTree.object.injEq, memberDocuments_eq, memberDocuments_eq, List.map_map,
            List.map_map] at same
          have moved := (JsonTree.byName_perm _).symm.trans
            ((List.Perm.of_eq same).trans (JsonTree.byName_perm _))
          obtain ⟨middle, equal, order⟩ := perm_of_map moved
          have middleReadable : EveryMemberNumber numbers.Readable middle :=
            everyMemberNumber_iff.mpr fun member held =>
              everyMemberNumber_iff.mp otherReadable member (order.mem_iff.mp held)
          exact .object (reorderedMembers_of_sorted fields readable middleReadable equal) order
      | null | bool | number | string | array => cases same

theorem reorderedItems_of_sorted : (items : List Value) → {others : List Value} →
    EveryItemNumber numbers.Readable items → EveryItemNumber numbers.Readable others →
    items.map (JsonTree.sorted ∘ Value.document numbers) =
      others.map (JsonTree.sorted ∘ Value.document numbers) → ReorderedItems items others
  | [], others, _, _, same => by
      rw [List.map_eq_nil_iff.mp same.symm]
      exact .nil
  | item :: rest, others, readable, otherReadable, same => by
      cases others with
      | nil => cases same
      | cons other others =>
          rw [List.map_cons, List.map_cons, List.cons.injEq] at same
          exact .cons (reordered_of_sorted item readable.1 otherReadable.1 same.1)
            (reorderedItems_of_sorted rest readable.2 otherReadable.2 same.2)

theorem reorderedMembers_of_sorted : (fields : List (String × Value)) →
    {others : List (String × Value)} → EveryMemberNumber numbers.Readable fields →
    EveryMemberNumber numbers.Readable others →
    fields.map ((fun member => (member.1, member.2.sorted)) ∘
        fun member => (member.1, member.2.document numbers)) =
      others.map ((fun member => (member.1, member.2.sorted)) ∘
        fun member => (member.1, member.2.document numbers)) → ReorderedMembers fields others
  | [], others, _, _, same => by
      rw [List.map_eq_nil_iff.mp same.symm]
      exact .nil
  | (name, value) :: rest, others, readable, otherReadable, same => by
      cases others with
      | nil => cases same
      | cons other others =>
          obtain ⟨otherName, otherValue⟩ := other
          rw [List.map_cons, List.map_cons, List.cons.injEq] at same
          obtain ⟨rfl, equal⟩ := Prod.mk.inj same.1
          exact .cons name (reordered_of_sorted value readable.1 otherReadable.1 equal)
            (reorderedMembers_of_sorted rest readable.2 otherReadable.2 same.2)

end

mutual

def Value.sortKeys : Value → Value
  | .array items => .array (sortItemKeys items)
  | .object fields =>
      .object ((sortMemberKeys fields).insertionSort fun first second => first.1 ≤ second.1)
  | .null => .null
  | .bool value => .bool value
  | .number value => .number value
  | .string text => .string text

def sortItemKeys : List Value → List Value
  | [] => []
  | item :: rest => item.sortKeys :: sortItemKeys rest

def sortMemberKeys : List (String × Value) → List (String × Value)
  | [] => []
  | (name, value) :: rest => (name, value.sortKeys) :: sortMemberKeys rest

end

mutual

theorem reordered_sortKeys : (value : Value) → Reordered value value.sortKeys
  | .null | .bool _ | .number _ | .string _ => .same _
  | .array items => .array (reordered_sortItemKeys items)
  | .object fields =>
      .object (reordered_sortMemberKeys fields) (List.perm_insertionSort _ _).symm

theorem reordered_sortItemKeys : (items : List Value) → ReorderedItems items (sortItemKeys items)
  | [] => .nil
  | item :: rest => .cons (reordered_sortKeys item) (reordered_sortItemKeys rest)

theorem reordered_sortMemberKeys :
    (fields : List (String × Value)) → ReorderedMembers fields (sortMemberKeys fields)
  | [] => .nil
  | (name, value) :: rest => .cons name (reordered_sortKeys value) (reordered_sortMemberKeys rest)

end

mutual

theorem Reordered.distinct : {value other : Value} → Reordered value other → value.Distinct →
    other.Distinct
  | _, _, .same _, distinct => distinct
  | _, _, .array items, distinct => reorderedItems_distinct items distinct
  | _, _, @Reordered.object fields middle others members moved, distinct => by
      have names : (middle.map Prod.fst).Nodup := reorderedMembers_keys members ▸ distinct.1
      refine ⟨(moved.map Prod.fst).nodup_iff.mp names, distinctMembers_iff.mpr ?_⟩
      intro member held
      exact distinctMembers_iff.mp (reorderedMembers_distinct members distinct.2) member
        (moved.mem_iff.mpr held)

theorem reorderedItems_distinct : {items others : List Value} → ReorderedItems items others →
    DistinctItems items → DistinctItems others
  | _, _, .nil, _ => trivial
  | _, _, .cons item rest, distinct =>
      ⟨item.distinct distinct.1, reorderedItems_distinct rest distinct.2⟩

theorem reorderedMembers_distinct : {fields others : List (String × Value)} →
    ReorderedMembers fields others → DistinctMembers fields → DistinctMembers others
  | _, _, .nil, _ => trivial
  | _, _, .cons _ value rest, distinct =>
      ⟨value.distinct distinct.1, reorderedMembers_distinct rest distinct.2⟩

end

mutual

theorem Reordered.everyNumber {holds : Number → Prop} : {value other : Value} →
    Reordered value other → value.EveryNumber holds → other.EveryNumber holds
  | _, _, .same _, every => every
  | _, _, .array items, every => reorderedItems_everyNumber items every
  | _, _, .object members moved, every => everyMemberNumber_iff.mpr fun member held =>
      everyMemberNumber_iff.mp (reorderedMembers_everyNumber members every) member
        (moved.mem_iff.mpr held)

theorem reorderedItems_everyNumber {holds : Number → Prop} : {items others : List Value} →
    ReorderedItems items others → EveryItemNumber holds items → EveryItemNumber holds others
  | _, _, .nil, _ => trivial
  | _, _, .cons item rest, every =>
      ⟨item.everyNumber every.1, reorderedItems_everyNumber rest every.2⟩

theorem reorderedMembers_everyNumber {holds : Number → Prop} :
    {fields others : List (String × Value)} → ReorderedMembers fields others →
    EveryMemberNumber holds fields → EveryMemberNumber holds others
  | _, _, .nil, _ => trivial
  | _, _, .cons _ value rest, every =>
      ⟨value.everyNumber every.1, reorderedMembers_everyNumber rest every.2⟩

end

mutual

theorem document_sortKeys : (value : Value) →
    value.sortKeys.document numbers = (value.document numbers).sorted
  | .null | .bool _ | .number _ | .string _ => rfl
  | .array items => by
      rw [Value.sortKeys, Value.document, Value.document, JsonTree.sorted,
        documents_sortItemKeys items]
  | .object fields => by
      rw [Value.sortKeys, Value.document, Value.document, JsonTree.sorted,
        ← documents_sortMemberKeys fields, memberDocuments_eq, memberDocuments_eq]
      exact congrArg JsonTree.object (List.map_insertionSort _ _ _ _ fun _ _ _ _ => Iff.rfl)

theorem documents_sortItemKeys : (items : List Value) →
    itemDocuments numbers (sortItemKeys items) = JsonTree.sortedItems (itemDocuments numbers items)
  | [] => rfl
  | item :: rest => by
      rw [sortItemKeys, itemDocuments, itemDocuments, JsonTree.sortedItems, document_sortKeys item,
        documents_sortItemKeys rest]

theorem documents_sortMemberKeys : (fields : List (String × Value)) →
    memberDocuments numbers (sortMemberKeys fields) =
      JsonTree.sortedMembers (memberDocuments numbers fields)
  | [] => rfl
  | (name, value) :: rest => by
      rw [sortMemberKeys, memberDocuments, memberDocuments, JsonTree.sortedMembers,
        document_sortKeys value, documents_sortMemberKeys rest]

end

end Json
