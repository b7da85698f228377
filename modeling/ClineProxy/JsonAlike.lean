import ClineProxy.JsonOrder

/-! Objects that have the same members, some of them with related values. -/

namespace Json

namespace Map

theorem keys_insert (key : String) (value : Value) (fields : Map) :
    (fields.insert key value).map Prod.fst =
      if key ∈ fields.map Prod.fst then fields.map Prod.fst else fields.map Prod.fst ++ [key] := by
  induction fields with
  | nil => simp [insert]
  | cons member rest ih =>
      obtain ⟨other, held⟩ := member
      by_cases same : key = other
      · simp [insert, same]
      · rw [insert, if_neg same, List.map_cons, ih, List.map_cons]
        by_cases there : key ∈ rest.map Prod.fst
        · rw [if_pos there, if_pos (List.mem_cons_of_mem _ there)]
        · rw [if_neg there, if_neg (by simp only [List.mem_cons, not_or]; exact ⟨same, there⟩),
            List.cons_append]

theorem Distinct.insert {fields : Map} (distinct : fields.Distinct) (key : String)
    (value : Value) : (fields.insert key value).Distinct := by
  rw [Distinct, keys_insert]
  split
  next => exact distinct
  next absent =>
    refine List.nodup_append.mpr ⟨distinct, List.nodup_singleton key, ?_⟩
    intro name member other added same
    rw [List.mem_singleton] at added
    exact absent (added ▸ same ▸ member)

theorem distinctMembers_insert {fields : Map} (members : DistinctMembers fields) {key : String}
    {value : Value} (distinct : value.Distinct) : DistinctMembers (fields.insert key value) := by
  induction fields with
  | nil => exact ⟨distinct, trivial⟩
  | cons member rest ih =>
      obtain ⟨other, held⟩ := member
      rw [insert]
      split
      next => exact ⟨distinct, members.2⟩
      next => exact ⟨members.1, ih members.2⟩

theorem distinctMembers_get {fields : Map} (members : DistinctMembers fields) {key : String}
    {value : Value} (found : fields.get key = some value) : value.Distinct := by
  induction fields with
  | nil => cases found
  | cons member rest ih =>
      obtain ⟨other, held⟩ := member
      rw [get, OrderedMap.lookup] at found
      split at found
      next => exact Option.some.inj found ▸ members.1
      next => exact ih members.2 found

theorem keys_update (key : String) (change : Value → Value) (fields : Map) :
    (fields.update key change).map Prod.fst = fields.map Prod.fst := by
  induction fields with
  | nil => rfl
  | cons member rest ih =>
      rw [update]
      split
      next => rfl
      next => rw [List.map_cons, ih, List.map_cons]

theorem Distinct.update {fields : Map} (distinct : fields.Distinct) (key : String)
    (change : Value → Value) : (fields.update key change).Distinct := by
  rw [Distinct, keys_update]
  exact distinct

theorem perm_remove (key : String) (fields : Map) :
    (fields.remove key).Sublist fields ∨ ∃ member, (member :: fields.remove key).Perm fields := by
  induction fields with
  | nil => exact .inl (List.Sublist.refl _)
  | cons member rest ih =>
      obtain ⟨other, held⟩ := member
      rw [remove]
      split
      next =>
        split
        next => exact .inl (List.nil_sublist _)
        next last found =>
          refine .inr ⟨(other, held), List.Perm.cons _ ?_⟩
          have shape := List.dropLast_append_getLast? last found
          calc (last :: rest.dropLast).Perm (rest.dropLast ++ [last]) :=
                (List.perm_append_singleton last _).symm
            _ = rest := shape
      next =>
        rcases ih with sub | ⟨removed, moved⟩
        · exact .inl (sub.cons_cons _)
        · exact .inr ⟨removed, (List.Perm.swap _ _ _).trans (moved.cons _)⟩

theorem Distinct.remove {fields : Map} (distinct : fields.Distinct) (key : String) :
    (fields.remove key).Distinct := by
  rcases perm_remove key fields with sub | ⟨member, moved⟩
  · exact (sub.map Prod.fst).nodup distinct
  · have whole := ((moved.map Prod.fst).nodup_iff).mpr distinct
    exact (List.nodup_cons.mp whole).2

end Map

/-- The same name, and the same value or one that is related to it under that name. -/
def MemberAlike (related : String → Value → Value → Prop) (first second : String × Value) : Prop :=
  first.1 = second.1 ∧ (first.2 = second.2 ∨ related first.1 first.2 second.2)

def Map.Alike (related : String → Value → Value → Prop) (first second : Map) : Prop :=
  List.Forall₂ (MemberAlike related) first second

namespace Map.Alike

variable {related : String → Value → Value → Prop} {first second : Map}

theorem refl (fields : Map) : Alike related fields fields :=
  List.forall₂_same.mpr fun _ _ => ⟨rfl, .inl rfl⟩

theorem keys (alike : Alike related first second) :
    first.map Prod.fst = second.map Prod.fst := by
  induction alike with
  | nil => rfl
  | cons head _ ih => rw [List.map_cons, List.map_cons, head.1, ih]

theorem get (alike : Alike related first second) (query : String) :
    Option.Rel (fun value other => value = other ∨ related query value other)
      (first.get query) (second.get query) := by
  induction alike with
  | nil => exact .none
  | @cons member other rest others head _ ih =>
      obtain ⟨name, value⟩ := member
      obtain ⟨otherName, otherValue⟩ := other
      obtain ⟨rfl, held⟩ : name = otherName ∧ _ := head
      rw [Map.get, OrderedMap.lookup, Map.get, OrderedMap.lookup]
      split
      next same => exact .some (same ▸ held)
      next => exact ih

theorem get_eq (alike : Alike related first second) {query : String}
    (silent : ∀ value other, ¬related query value other) :
    first.get query = second.get query := by
  have found := alike.get query
  generalize first.get query = given, second.get query = other at found ⊢
  cases found with
  | none => rfl
  | some same => exact congrArg some (same.resolve_right (silent _ _))

theorem insert (alike : Alike related first second) (key : String) (value : Value) :
    Alike related (first.insert key value) (second.insert key value) := by
  induction alike with
  | nil => exact refl _
  | @cons member other rest others head tail ih =>
      obtain ⟨name, held⟩ := member
      obtain ⟨otherName, otherHeld⟩ := other
      obtain ⟨rfl, same⟩ : name = otherName ∧ _ := head
      rw [Map.insert, Map.insert]
      split
      next => exact .cons ⟨rfl, .inl rfl⟩ tail
      next => exact .cons ⟨rfl, same⟩ ih

theorem getLast? (alike : Alike related first second) :
    Option.Rel (MemberAlike related) first.getLast? second.getLast? := by
  induction alike with
  | nil => exact .none
  | @cons member other rest others head tail ih =>
      cases tail with
      | nil => exact .some head
      | cons => exact ih

theorem dropLast (alike : Alike related first second) :
    Alike related first.dropLast second.dropLast := by
  rw [List.dropLast_eq_take, List.dropLast_eq_take, List.Forall₂.length_eq alike]
  exact List.forall₂_take _ alike

theorem remove (alike : Alike related first second) (key : String) :
    Alike related (first.remove key) (second.remove key) := by
  induction alike with
  | nil => exact refl _
  | @cons member other rest others head tail ih =>
      obtain ⟨name, held⟩ := member
      obtain ⟨otherName, otherHeld⟩ := other
      obtain ⟨rfl, same⟩ : name = otherName ∧ _ := head
      rw [Map.remove, Map.remove]
      split
      next =>
        have last := Alike.getLast? tail
        cases given : rest.getLast? <;> cases found : others.getLast? <;>
          rw [given, found] at last
        · exact .nil
        · cases last
        · cases last
        · cases last with
          | some moved => exact .cons moved (Alike.dropLast tail)
      next => exact .cons ⟨rfl, same⟩ ih

end Map.Alike

namespace Map

/-- The same members but for the value of one. -/
def SameBut (key : String) (first second : Map) : Prop :=
  Alike (fun name _ _ => name = key) first second

namespace SameBut

variable {key : String} {first second : Map}

theorem insert (same : SameBut key first second) (value other : Value) :
    SameBut key (first.insert key value) (second.insert key other) := by
  induction same with
  | nil => exact .cons ⟨rfl, .inr rfl⟩ .nil
  | @cons member second rest others head tail ih =>
      obtain ⟨name, held⟩ := member
      obtain ⟨otherName, otherHeld⟩ := second
      obtain ⟨rfl, equal⟩ : name = otherName ∧ _ := head
      rw [Map.insert, Map.insert]
      split
      next => exact .cons ⟨rfl, .inr rfl⟩ tail
      next => exact .cons ⟨rfl, equal⟩ ih

theorem update (same : SameBut key first second) (change other : Value → Value) :
    SameBut key (first.update key change) (second.update key other) := by
  induction same with
  | nil => exact .nil
  | @cons member second rest others head tail ih =>
      obtain ⟨name, held⟩ := member
      obtain ⟨otherName, otherHeld⟩ := second
      obtain ⟨rfl, equal⟩ : name = otherName ∧ _ := head
      rw [Map.update, Map.update]
      split
      next asked => exact .cons ⟨rfl, .inr asked.symm⟩ tail
      next => exact .cons ⟨rfl, equal⟩ ih

theorem eq_of_absent (same : SameBut key first second) (absent : key ∉ first.map Prod.fst) :
    first = second := by
  induction same with
  | nil => rfl
  | @cons member second rest others head tail ih =>
      obtain ⟨name, held⟩ := member
      obtain ⟨otherName, otherHeld⟩ := second
      obtain ⟨rfl, equal⟩ : name = otherName ∧ _ := head
      simp only [List.map_cons, List.mem_cons, not_or] at absent
      obtain rfl : held = otherHeld := equal.resolve_right (Ne.symm absent.1)
      rw [ih absent.2]

theorem eq (same : SameBut key first second) (distinct : first.Distinct)
    (found : first.get key = second.get key) : first = second := by
  induction same with
  | nil => rfl
  | @cons member second rest others head tail ih =>
      obtain ⟨name, held⟩ := member
      obtain ⟨otherName, otherHeld⟩ := second
      obtain ⟨rfl, equal⟩ : name = otherName ∧ _ := head
      obtain ⟨absent, distinctRest⟩ := List.nodup_cons.mp distinct
      rw [Map.get, OrderedMap.lookup, Map.get, OrderedMap.lookup] at found
      split at found
      next asked =>
        subst asked
        rw [Option.some.inj found, eq_of_absent tail absent]
      next different =>
        obtain rfl : held = otherHeld := equal.resolve_right (Ne.symm different)
        rw [ih distinctRest found]

end SameBut

theorem get_eq_some {fields : Map} (distinct : fields.Distinct) {key : String} {value : Value} :
    fields.get key = some value ↔ (key, value) ∈ fields := by
  refine ⟨OrderedMap.mem_of_lookup, fun member => ?_⟩
  induction fields with
  | nil => cases member
  | cons entry rest ih =>
      obtain ⟨other, held⟩ := entry
      obtain ⟨absent, distinctRest⟩ := List.nodup_cons.mp distinct
      rw [get, OrderedMap.lookup]
      rcases List.mem_cons.mp member with equal | later
      · obtain ⟨rfl, rfl⟩ := Prod.mk.inj equal
        rw [if_pos rfl]
      · rw [if_neg fun same => absent (List.mem_map.mpr ⟨_, later, same⟩)]
        exact ih distinctRest later

theorem get_perm {fields others : Map} (distinct : fields.Distinct) (moved : fields.Perm others)
    (key : String) : fields.get key = others.get key := by
  have otherDistinct : Distinct others := (moved.map Prod.fst).nodup_iff.mp distinct
  ext value
  rw [get_eq_some distinct, get_eq_some otherDistinct, moved.mem_iff]

theorem get_remove {fields : Map} (distinct : fields.Distinct) {key query : String}
    (different : query ≠ key) : (fields.remove key).get query = fields.get query := by
  induction fields with
  | nil => rfl
  | cons entry rest ih =>
      obtain ⟨other, held⟩ := entry
      obtain ⟨absent, distinctRest⟩ := List.nodup_cons.mp distinct
      rw [remove]
      split
      next same =>
        subst same
        have behind : get query ((key, held) :: rest) = get query rest := by
          rw [get, OrderedMap.lookup, if_neg different, get]
        rw [behind]
        split
        next none_ =>
          rw [List.getLast?_eq_none_iff.mp none_]
        next last found =>
          refine (get_perm distinctRest ?_ query).symm
          have shape := List.dropLast_append_getLast? last found
          calc rest = rest.dropLast ++ [last] := shape.symm
            List.Perm _ (last :: rest.dropLast) := List.perm_append_singleton last _
      next =>
        have later := ih distinctRest
        rw [get, OrderedMap.lookup, get, OrderedMap.lookup]
        split
        next => rfl
        next => exact later

theorem get_remove_self {fields : Map} (distinct : fields.Distinct) (key : String) :
    (fields.remove key).get key = none := by
  induction fields with
  | nil => rfl
  | cons entry rest ih =>
      obtain ⟨other, held⟩ := entry
      obtain ⟨absent, distinctRest⟩ := List.nodup_cons.mp distinct
      rw [remove]
      split
      next same =>
        subst same
        have behind : get key rest = none :=
          OrderedMap.lookup_of_fresh_key.mpr absent
        split
        next => rfl
        next last found =>
          rw [← behind]
          refine (get_perm distinctRest ?_ key).symm
          have shape := List.dropLast_append_getLast? last found
          calc rest = rest.dropLast ++ [last] := shape.symm
            List.Perm _ (last :: rest.dropLast) := List.perm_append_singleton last _
      next different =>
        rw [get, OrderedMap.lookup, if_neg different]
        exact ih distinctRest

theorem remove_absent {fields : Map} {key : String} (absent : fields.get key = none) :
    fields.remove key = fields := by
  induction fields with
  | nil => rfl
  | cons entry rest ih =>
      obtain ⟨other, held⟩ := entry
      rw [get, OrderedMap.lookup] at absent
      split at absent
      next => cases absent
      next different => rw [remove, if_neg different, ih absent]

end Map

end Json
