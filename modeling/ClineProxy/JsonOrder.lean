import ClineProxy.JsonValue

/-! Documents up to the order of the members of their objects. -/

namespace Json

def Map.Distinct (fields : Map) : Prop := (fields.map Prod.fst).Nodup

mutual

/-- No object of the document names a member twice. -/
def Value.Distinct : Value → Prop
  | .array items => DistinctItems items
  | .object fields => Map.Distinct fields ∧ DistinctMembers fields
  | .null | .bool _ | .number _ | .string _ => True

def DistinctItems : List Value → Prop
  | [] => True
  | item :: rest => item.Distinct ∧ DistinctItems rest

def DistinctMembers : List (String × Value) → Prop
  | [] => True
  | (_, value) :: rest => value.Distinct ∧ DistinctMembers rest

end

mutual

/-- The same document, the members of its objects, at any depth, in another order. -/
inductive Reordered : Value → Value → Prop
  | same (value : Value) : Reordered value value
  | array {items others : List Value} :
      ReorderedItems items others → Reordered (.array items) (.array others)
  | object {fields middle others : List (String × Value)} :
      ReorderedMembers fields middle → middle.Perm others →
      Reordered (.object fields) (.object others)

inductive ReorderedItems : List Value → List Value → Prop
  | nil : ReorderedItems [] []
  | cons {item other : Value} {rest others : List Value} :
      Reordered item other → ReorderedItems rest others →
      ReorderedItems (item :: rest) (other :: others)

inductive ReorderedMembers : List (String × Value) → List (String × Value) → Prop
  | nil : ReorderedMembers [] []
  | cons (key : String) {value other : Value} {rest others : List (String × Value)} :
      Reordered value other → ReorderedMembers rest others →
      ReorderedMembers ((key, value) :: rest) ((key, other) :: others)

end

theorem reorderedMembers_keys : {fields others : List (String × Value)} →
    ReorderedMembers fields others → others.map Prod.fst = fields.map Prod.fst
  | _, _, .nil => rfl
  | _, _, .cons key _ rest => congrArg (key :: ·) (reorderedMembers_keys rest)

mutual

def Value.mapNumbers (round : Number → Number) : Value → Value
  | .number value => .number (round value)
  | .array items => .array (mapItemNumbers round items)
  | .object fields => .object (mapMemberNumbers round fields)
  | .null => .null
  | .bool value => .bool value
  | .string text => .string text

def mapItemNumbers (round : Number → Number) : List Value → List Value
  | [] => []
  | item :: rest => item.mapNumbers round :: mapItemNumbers round rest

def mapMemberNumbers (round : Number → Number) : List (String × Value) → List (String × Value)
  | [] => []
  | (key, value) :: rest => (key, value.mapNumbers round) :: mapMemberNumbers round rest

end

variable (round : Number → Number)

theorem mapMemberNumbers_eq (fields : List (String × Value)) : mapMemberNumbers round fields =
    fields.map fun member => (member.1, member.2.mapNumbers round) := by
  induction fields with
  | nil => rfl
  | cons member rest ih => rw [mapMemberNumbers, ih, List.map_cons]

mutual

theorem Value.Distinct.mapNumbers : {value : Value} → value.Distinct →
    (value.mapNumbers round).Distinct
  | .array _, distinct => distinctItems_mapNumbers distinct
  | .object fields, distinct => by
      refine ⟨?_, distinctMembers_mapNumbers distinct.2⟩
      rw [Map.Distinct, mapMemberNumbers_eq, List.map_map]
      exact distinct.1
  | .null, _ | .bool _, _ | .number _, _ | .string _, _ => trivial

theorem distinctItems_mapNumbers : {items : List Value} → DistinctItems items →
    DistinctItems (mapItemNumbers round items)
  | [], _ => trivial
  | _ :: _, distinct => ⟨distinct.1.mapNumbers, distinctItems_mapNumbers distinct.2⟩

theorem distinctMembers_mapNumbers : {fields : List (String × Value)} → DistinctMembers fields →
    DistinctMembers (mapMemberNumbers round fields)
  | [], _ => trivial
  | _ :: _, distinct => ⟨distinct.1.mapNumbers, distinctMembers_mapNumbers distinct.2⟩

end

mutual

theorem Reordered.mapNumbers : {value other : Value} → Reordered value other →
    Reordered (value.mapNumbers round) (other.mapNumbers round)
  | _, _, .same value => .same (value.mapNumbers round)
  | _, _, .array items => .array (reorderedItems_mapNumbers items)
  | _, _, .object members moved => .object (reorderedMembers_mapNumbers members) (by
      rw [mapMemberNumbers_eq, mapMemberNumbers_eq]
      exact moved.map _)

theorem reorderedItems_mapNumbers : {items others : List Value} → ReorderedItems items others →
    ReorderedItems (mapItemNumbers round items) (mapItemNumbers round others)
  | _, _, .nil => .nil
  | _, _, .cons item rest => .cons item.mapNumbers (reorderedItems_mapNumbers rest)

theorem reorderedMembers_mapNumbers : {fields others : List (String × Value)} →
    ReorderedMembers fields others →
    ReorderedMembers (mapMemberNumbers round fields) (mapMemberNumbers round others)
  | _, _, .nil => .nil
  | _, _, .cons key value rest => .cons key value.mapNumbers (reorderedMembers_mapNumbers rest)

end

end Json
