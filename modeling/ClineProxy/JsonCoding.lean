import ClineProxy.JsonAlike
import ClineProxy.JsonSorted

/-! The documents that stand for values, and the values that documents are read as. -/

namespace Json

open JsonGrammar (Document JsonTree)

/-- How numbers are written and read. -/
structure NumberCoding where
  write : Number → List Char
  read : List Char → Option Number

/-- A literal as it is written after it was read. -/
def NumberCoding.again (numbers : NumberCoding) (literal : List Char) : List Char :=
  match numbers.read literal with
  | some value => numbers.write value
  | none => literal

variable (numbers : NumberCoding)

mutual

def Value.document : Value → Document
  | .null => .null
  | .bool value => .bool value
  | .number value => .number (numbers.write value)
  | .string text => .string text
  | .array items => .array (itemDocuments items)
  | .object fields => .object (memberDocuments fields)

def itemDocuments : List Value → List Document
  | [] => []
  | item :: rest => item.document :: itemDocuments rest

def memberDocuments : List (String × Value) → List (String × Document)
  | [] => []
  | (name, value) :: rest => (name, value.document) :: memberDocuments rest

end

mutual

/-- A member that is named again takes the place of the earlier one. -/
def ofDocument : Document → Option Value
  | .null => some .null
  | .bool value => some (.bool value)
  | .number literal => (numbers.read literal).map .number
  | .string text => some (.string text)
  | .array items => (ofItems items).map .array
  | .object members => (ofMembers members []).map .object

def ofItems : List Document → Option (List Value)
  | [] => some []
  | item :: rest => do
      let value ← ofDocument item
      let values ← ofItems rest
      return value :: values

def ofMembers : List (String × Document) → Map → Option Map
  | [], fields => some fields
  | (name, value) :: rest, fields => do
      let value ← ofDocument value
      ofMembers rest (fields.insert name value)

end

theorem memberDocuments_eq (fields : Map) : memberDocuments numbers fields =
    fields.map fun member => (member.1, member.2.document numbers) := by
  induction fields with
  | nil => rfl
  | cons member rest ih => rw [memberDocuments, ih, List.map_cons]

theorem memberDocuments_append (fields others : Map) :
    memberDocuments numbers (fields ++ others) =
      memberDocuments numbers fields ++ memberDocuments numbers others := by
  rw [memberDocuments_eq, memberDocuments_eq, memberDocuments_eq, List.map_append]

theorem Map.insert_absent {fields : Map} {key : String} (absent : key ∉ fields.map Prod.fst)
    (value : Value) : fields.insert key value = fields ++ [(key, value)] := by
  induction fields with
  | nil => rfl
  | cons member rest ih =>
      obtain ⟨other, held⟩ := member
      rw [List.map_cons, List.mem_cons, not_or] at absent
      rw [insert, if_neg absent.1, ih absent.2, List.cons_append]

theorem fresh_append {fields : Map} {name : String} {names : List String} (value : Value)
    (other : name ∉ names) (fresh : ∀ other ∈ names, other ∉ fields.map Prod.fst) :
    ∀ other ∈ names, other ∉ (fields ++ [(name, value)]).map Prod.fst := by
  intro later member
  rw [List.map_append, List.mem_append, not_or]
  refine ⟨fresh later member, fun same => other ?_⟩
  rw [List.map_singleton, List.mem_singleton] at same
  exact (show later = name from same) ▸ member

mutual

theorem document_ofDocument : (tree : Document) → {value : Value} →
    ofDocument numbers tree = some value → tree.Distinct →
    value.document numbers = tree.map numbers.again
  | .null, _, rfl, _ => rfl
  | .bool _, _, rfl, _ => rfl
  | .string _, _, rfl, _ => rfl
  | .number literal, value, read, _ => by
      rw [ofDocument, Option.map_eq_some_iff] at read
      obtain ⟨number, found, rfl⟩ := read
      rw [Value.document, JsonTree.map, NumberCoding.again, found]
  | .array items, value, read, distinct => by
      rw [ofDocument, Option.map_eq_some_iff] at read
      obtain ⟨values, found, rfl⟩ := read
      rw [Value.document, JsonTree.map, documents_ofItems items found distinct]
  | .object members, value, read, distinct => by
      rw [ofDocument, Option.map_eq_some_iff] at read
      obtain ⟨fields, found, rfl⟩ := read
      rw [Value.document, JsonTree.map, documents_ofMembers members found distinct.1
        (fun _ _ none_ => by cases none_) distinct.2]
      rfl

theorem documents_ofItems : (items : List Document) → {values : List Value} →
    ofItems numbers items = some values → JsonTree.DistinctItems items →
    itemDocuments numbers values = JsonTree.mapItems numbers.again items
  | [], _, rfl, _ => rfl
  | item :: rest, values, read, distinct => by
      simp only [ofItems, Option.bind_eq_bind, Option.bind_eq_some_iff, Option.pure_def,
        Option.some.injEq] at read
      obtain ⟨value, first, others, later, rfl⟩ := read
      rw [itemDocuments, JsonTree.mapItems, document_ofDocument item first distinct.1,
        documents_ofItems rest later distinct.2]

theorem documents_ofMembers : (members : List (String × Document)) → {fields out : Map} →
    ofMembers numbers members fields = some out → (members.map Prod.fst).Nodup →
    (∀ name ∈ members.map Prod.fst, name ∉ fields.map Prod.fst) → JsonTree.DistinctMembers members →
    memberDocuments numbers out =
      memberDocuments numbers fields ++ JsonTree.mapMembers numbers.again members
  | [], _, _, rfl, _, _, _ => (List.append_nil _).symm
  | (name, tree) :: rest, fields, out, read, names, fresh, distinct => by
      simp only [ofMembers, Option.bind_eq_bind, Option.bind_eq_some_iff] at read
      obtain ⟨value, first, later⟩ := read
      rw [List.map_cons, List.nodup_cons] at names
      rw [List.map_cons, List.forall_mem_cons] at fresh
      rw [Map.insert_absent fresh.1] at later
      have still := fresh_append value names.1 fresh.2
      rw [documents_ofMembers rest later names.2 still distinct.2, memberDocuments_append,
        List.append_assoc, JsonTree.mapMembers, ← document_ofDocument tree first distinct.1]
      rfl

end

theorem size_pos (tree : Document) : 0 < tree.size := by
  cases tree <;> rw [JsonTree.size] <;> omega

theorem size_insert (fields : Map) (key : String) (value : Value) :
    let before := JsonTree.sizeOfMembers (memberDocuments numbers fields)
    let after := JsonTree.sizeOfMembers (memberDocuments numbers (fields.insert key value))
    after ≤ before + (value.document numbers).size ∧
      (key ∈ fields.map Prod.fst → after < before + (value.document numbers).size) := by
  dsimp only
  induction fields with
  | nil => exact ⟨by simp [Map.insert, memberDocuments, JsonTree.sizeOfMembers], fun none_ => by
      cases none_⟩
  | cons member rest ih =>
      obtain ⟨other, held⟩ := member
      have positive := size_pos (held.document numbers)
      rw [Map.insert]
      split
      next => simp only [memberDocuments, JsonTree.sizeOfMembers]; omega
      next different =>
        simp only [memberDocuments, JsonTree.sizeOfMembers, List.map_cons, List.mem_cons]
        refine ⟨by omega, ?_⟩
        rintro (same | there)
        · exact absurd same different
        · have := ih.2 there
          omega

mutual

theorem size_ofDocument : (tree : Document) → {value : Value} →
    ofDocument numbers tree = some value → (value.document numbers).size ≤ tree.size ∧
      (tree.size ≤ (value.document numbers).size → tree.Distinct)
  | .null, _, rfl => ⟨le_refl _, fun _ => trivial⟩
  | .bool _, _, rfl => ⟨le_refl _, fun _ => trivial⟩
  | .string _, _, rfl => ⟨le_refl _, fun _ => trivial⟩
  | .number literal, value, read => by
      rw [ofDocument, Option.map_eq_some_iff] at read
      obtain ⟨number, _, rfl⟩ := read
      exact ⟨le_refl _, fun _ => trivial⟩
  | .array items, value, read => by
      rw [ofDocument, Option.map_eq_some_iff] at read
      obtain ⟨values, found, rfl⟩ := read
      obtain ⟨smaller, distinct⟩ := size_ofItems items found
      rw [Value.document, JsonTree.size, JsonTree.size]
      exact ⟨by omega, fun larger => distinct (by omega)⟩
  | .object members, value, read => by
      rw [ofDocument, Option.map_eq_some_iff] at read
      obtain ⟨fields, found, rfl⟩ := read
      obtain ⟨smaller, distinct⟩ := size_ofMembers members found
      rw [memberDocuments, JsonTree.sizeOfMembers] at smaller distinct
      rw [Value.document, JsonTree.size, JsonTree.size]
      refine ⟨by omega, fun larger => ?_⟩
      obtain ⟨names, _, inside⟩ := distinct (by omega)
      exact ⟨names, inside⟩

theorem size_ofItems : (items : List Document) → {values : List Value} →
    ofItems numbers items = some values →
    JsonTree.sizeOfItems (itemDocuments numbers values) ≤ JsonTree.sizeOfItems items ∧
      (JsonTree.sizeOfItems items ≤ JsonTree.sizeOfItems (itemDocuments numbers values) →
        JsonTree.DistinctItems items)
  | [], _, rfl => ⟨le_refl _, fun _ => trivial⟩
  | item :: rest, values, read => by
      simp only [ofItems, Option.bind_eq_bind, Option.bind_eq_some_iff, Option.pure_def,
        Option.some.injEq] at read
      obtain ⟨value, first, others, later, rfl⟩ := read
      have head := size_ofDocument item first
      have tail := size_ofItems rest later
      rw [itemDocuments, JsonTree.sizeOfItems, JsonTree.sizeOfItems]
      exact ⟨by omega, fun larger => ⟨head.2 (by omega), tail.2 (by omega)⟩⟩

theorem size_ofMembers : (members : List (String × Document)) → {fields out : Map} →
    ofMembers numbers members fields = some out →
    JsonTree.sizeOfMembers (memberDocuments numbers out) ≤
        JsonTree.sizeOfMembers (memberDocuments numbers fields) + JsonTree.sizeOfMembers members ∧
      (JsonTree.sizeOfMembers (memberDocuments numbers fields) + JsonTree.sizeOfMembers members ≤
          JsonTree.sizeOfMembers (memberDocuments numbers out) →
        (members.map Prod.fst).Nodup ∧
          (∀ name ∈ members.map Prod.fst, name ∉ fields.map Prod.fst) ∧
          JsonTree.DistinctMembers members)
  | [], _, _, rfl => ⟨le_refl _, fun _ =>
      ⟨List.nodup_nil, (fun _ none_ => by cases none_), trivial⟩⟩
  | (name, tree) :: rest, fields, out, read => by
      simp only [ofMembers, Option.bind_eq_bind, Option.bind_eq_some_iff] at read
      obtain ⟨value, first, later⟩ := read
      have head := size_ofDocument tree first
      have tail := size_ofMembers rest later
      have inserted := size_insert numbers fields name value
      rw [JsonTree.sizeOfMembers]
      refine ⟨by omega, fun larger => ?_⟩
      obtain ⟨names, fresh, inside⟩ := tail.2 (by omega)
      have absent : name ∉ fields.map Prod.fst := by
        intro there
        have := inserted.2 there
        omega
      rw [Map.insert_absent absent, List.map_append, List.map_singleton] at fresh
      have notLater : name ∉ rest.map Prod.fst := fun there =>
        fresh name there (List.mem_append_right _ (List.mem_singleton_self name))
      refine ⟨List.nodup_cons.mpr ⟨notLater, names⟩, ?_, head.2 (by omega), inside⟩
      rw [List.map_cons, List.forall_mem_cons]
      exact ⟨absent, fun other member there =>
        fresh other member (List.mem_append_left _ there)⟩

end

/-- A number that is written as a literal and read back from it. -/
structure NumberCoding.Readable (value : Number) : Prop where
  literal : JsonGrammar.isNumber (numbers.write value) = true
  readBack : numbers.read (numbers.write value) = some value

mutual

def Value.EveryNumber (holds : Number → Prop) : Value → Prop
  | .number value => holds value
  | .array items => EveryItemNumber holds items
  | .object fields => EveryMemberNumber holds fields
  | .null | .bool _ | .string _ => True

def EveryItemNumber (holds : Number → Prop) : List Value → Prop
  | [] => True
  | item :: rest => item.EveryNumber holds ∧ EveryItemNumber holds rest

def EveryMemberNumber (holds : Number → Prop) : List (String × Value) → Prop
  | [] => True
  | (_, value) :: rest => value.EveryNumber holds ∧ EveryMemberNumber holds rest

end

mutual

theorem Value.EveryNumber.imp {holds other : Number → Prop}
    (weaker : ∀ number, holds number → other number) :
    {value : Value} → value.EveryNumber holds → value.EveryNumber other
  | .number number, held => weaker number held
  | .array _, held => EveryItemNumber.imp weaker held
  | .object _, held => EveryMemberNumber.imp weaker held
  | .null, _ | .bool _, _ | .string _, _ => trivial

theorem EveryItemNumber.imp {holds other : Number → Prop}
    (weaker : ∀ number, holds number → other number) :
    {items : List Value} → EveryItemNumber holds items → EveryItemNumber other items
  | [], _ => trivial
  | _ :: _, held => ⟨Value.EveryNumber.imp weaker held.1, EveryItemNumber.imp weaker held.2⟩

theorem EveryMemberNumber.imp {holds other : Number → Prop}
    (weaker : ∀ number, holds number → other number) :
    {fields : List (String × Value)} → EveryMemberNumber holds fields →
      EveryMemberNumber other fields
  | [], _ => trivial
  | _ :: _, held => ⟨Value.EveryNumber.imp weaker held.1, EveryMemberNumber.imp weaker held.2⟩

end

mutual

theorem ofDocument_document : (value : Value) → value.Distinct →
    value.EveryNumber numbers.Readable →
    ofDocument numbers (value.document numbers) = some value
  | .null, _, _ => rfl
  | .bool _, _, _ => rfl
  | .string _, _, _ => rfl
  | .number number, _, readable => by
      rw [Value.document, ofDocument, readable.readBack, Option.map_some]
  | .array items, distinct, readable => by
      rw [Value.document, ofDocument, ofItems_documents items distinct readable, Option.map_some]
  | .object fields, distinct, readable => by
      rw [Value.document, ofDocument, ofMembers_documents fields [] distinct.1
        (fun _ _ none_ => by cases none_) distinct.2 readable, Option.map_some, List.nil_append]

theorem ofItems_documents : (items : List Value) → DistinctItems items →
    EveryItemNumber numbers.Readable items →
    ofItems numbers (itemDocuments numbers items) = some items
  | [], _, _ => rfl
  | item :: rest, distinct, readable => by
      rw [itemDocuments, ofItems, ofDocument_document item distinct.1 readable.1,
        ofItems_documents rest distinct.2 readable.2]
      rfl

theorem ofMembers_documents : (members : List (String × Value)) → (fields : Map) →
    (members.map Prod.fst).Nodup → (∀ name ∈ members.map Prod.fst, name ∉ fields.map Prod.fst) →
    DistinctMembers members → EveryMemberNumber numbers.Readable members →
    ofMembers numbers (memberDocuments numbers members) fields = some (fields ++ members)
  | [], fields, _, _, _, _ => by
      rw [List.append_nil]
      rfl
  | (name, value) :: rest, fields, names, fresh, distinct, readable => by
      rw [List.map_cons, List.nodup_cons] at names
      rw [List.map_cons, List.forall_mem_cons] at fresh
      have still := fresh_append value names.1 fresh.2
      rw [memberDocuments, ofMembers, ofDocument_document value distinct.1 readable.1]
      simp only [Option.bind_eq_bind, Option.bind_some]
      rw [Map.insert_absent fresh.1, ofMembers_documents rest _ names.2 still distinct.2 readable.2,
        List.append_assoc]
      rfl

end

end Json
