import Mathlib.Algebra.GroupWithZero.Nat
import Mathlib.Data.List.Basic
import Mathlib.Data.List.Nodup

/-! Finite maps as association lists kept in key order, looked up by first match. -/

namespace OrderedMap

universe u v w

variable {Key : Type u} {Value : Type v} {Item : Type w}

section Lookup

variable [DecidableEq Key]

def lookup (key : Key) : List (Key × Value) → Option Value
  | [] => none
  | (other, value) :: rest => if key = other then some value else lookup key rest

theorem mem_of_lookup {key : Key} {value : Value} {entries : List (Key × Value)}
    (found : lookup key entries = some value) : (key, value) ∈ entries := by
  induction entries with
  | nil => simp [lookup] at found
  | cons entry rest ih =>
      obtain ⟨other, held⟩ := entry
      simp only [lookup] at found
      split at found
      · rename_i same
        simp only [Option.some.injEq] at found
        simp [same, found]
      · exact List.mem_cons_of_mem _ (ih found)

theorem lookup_eq_none {key : Key} {entries : List (Key × Value)} :
    lookup key entries = none ↔ ∀ entry ∈ entries, entry.1 ≠ key := by
  induction entries with
  | nil => simp [lookup]
  | cons entry rest ih =>
      obtain ⟨other, held⟩ := entry
      by_cases same : key = other
      · simp [lookup, same]
      · simp [lookup, same, ih, Ne.symm same]

theorem lookup_append (key : Key) (first second : List (Key × Value)) :
    lookup key (first ++ second) = (lookup key first).or (lookup key second) := by
  induction first with
  | nil => rfl
  | cons entry rest ih =>
      rw [List.cons_append, lookup, lookup, ih]
      split <;> rfl

theorem lookup_map {Other : Type w} (key : Key) (change : Key → Value → Other)
    (entries : List (Key × Value)) :
    lookup key (entries.map fun entry => (entry.1, change entry.1 entry.2)) =
      (lookup key entries).map (change key) := by
  induction entries with
  | nil => rfl
  | cons entry rest ih =>
      rw [List.map_cons, lookup, lookup, ih]
      split
      next same => rw [same, Option.map_some]
      next => rfl

theorem lookup_filter (key : Key) (keep : Key → Bool) (entries : List (Key × Value)) :
    lookup key (entries.filter fun entry => keep entry.1) =
      if keep key then lookup key entries else none := by
  induction entries with
  | nil => simp [lookup]
  | cons entry rest ih =>
      rw [List.filter_cons, lookup]
      split
      next kept =>
        rw [lookup, ih]
        split
        next same => rw [if_pos (same ▸ kept)]
        next => rfl
      next dropped =>
        rw [ih]
        split
        next kept =>
          have different : key ≠ entry.1 := by
            rintro rfl
            exact dropped kept
          rw [if_neg different]
        next => rfl

theorem lookup_of_distinct {key : Key} {value : Value} {entries : List (Key × Value)}
    (distinct : (entries.map Prod.fst).Nodup) (member : (key, value) ∈ entries) :
    lookup key entries = some value := by
  induction entries with
  | nil => cases member
  | cons entry rest ih =>
      obtain ⟨fresh, distinct⟩ := List.nodup_cons.mp distinct
      rw [lookup]
      rcases List.mem_cons.mp member with rfl | later
      · rw [if_pos rfl]
      · have different : key ≠ entry.1 := by
          rintro rfl
          exact fresh (List.mem_map.mpr ⟨_, later, rfl⟩)
        rw [if_neg different, ih distinct later]

/-- Replaces the value of a key that is there, else puts it at the end. -/
def put (key : Key) (value : Value) : List (Key × Value) → List (Key × Value)
  | [] => [(key, value)]
  | (other, held) :: rest =>
      if key = other then (key, value) :: rest else (other, held) :: put key value rest

theorem lookup_put (key query : Key) (value : Value) (entries : List (Key × Value)) :
    lookup query (put key value entries) =
      if query = key then some value else lookup query entries := by
  induction entries with
  | nil => rfl
  | cons entry rest ih =>
      rw [put]
      split
      next same =>
        rw [lookup, lookup, ← same]
        split <;> rfl
      next different =>
        rw [lookup, lookup, ih]
        split
        next same => rw [if_neg (same ▸ Ne.symm different)]
        next => rfl

theorem put_of_lookup {key : Key} {value held : Value} {entries : List (Key × Value)}
    (found : lookup key entries = some held) :
    ∃ before after, entries = before ++ (key, held) :: after ∧
      (∀ entry ∈ before, entry.1 ≠ key) ∧ put key value entries = before ++ (key, value) :: after := by
  induction entries with
  | nil => cases found
  | cons entry rest ih =>
      obtain ⟨other, first⟩ := entry
      rw [lookup] at found
      rw [put]
      split at found
      next same =>
        cases found
        rw [if_pos same]
        exact ⟨[], rest, by rw [same]; rfl, nofun, rfl⟩
      next different =>
        rw [if_neg different]
        obtain ⟨before, after, rfl, others, made⟩ := ih found
        refine ⟨(other, first) :: before, after, rfl, ?_, by rw [made]; rfl⟩
        intro entry member
        rcases List.mem_cons.mp member with rfl | later
        · exact Ne.symm different
        · exact others entry later

theorem put_of_fresh {key : Key} {value : Value} {entries : List (Key × Value)}
    (fresh : lookup key entries = none) : put key value entries = entries ++ [(key, value)] := by
  induction entries with
  | nil => rfl
  | cons entry rest ih =>
      rw [lookup] at fresh
      split at fresh
      next => cases fresh
      next different => rw [put, if_neg different, ih fresh, List.cons_append]

theorem lookup_of_fresh_key {key : Key} {entries : List (Key × Value)} :
    lookup key entries = none ↔ key ∉ entries.map Prod.fst := by
  rw [lookup_eq_none, List.mem_map]
  constructor
  · rintro absent ⟨entry, member, same⟩
    exact absent entry member same
  · exact fun absent entry member same => absent ⟨entry, member, same⟩

theorem filter_of_fresh {key : Key} {entries : List (Key × Value)}
    (fresh : lookup key entries = none) : (entries.filter fun entry => entry.1 ≠ key) = entries :=
  List.filter_eq_self.mpr fun entry member => decide_eq_true (lookup_eq_none.mp fresh entry member)

theorem sum_of_lookup (weight : Value → Nat) {key : Key} {value : Value}
    {entries : List (Key × Value)} (distinct : (entries.map Prod.fst).Nodup)
    (found : lookup key entries = some value) :
    (entries.map fun entry => weight entry.2).sum =
      weight value +
        ((entries.filter fun entry => entry.1 ≠ key).map fun entry => weight entry.2).sum := by
  induction entries with
  | nil => cases found
  | cons entry rest ih =>
      obtain ⟨fresh, distinct⟩ := List.nodup_cons.mp distinct
      rw [lookup] at found
      rw [List.map_cons, List.sum_cons, List.filter_cons]
      split at found
      next same =>
        cases found
        have others : lookup key rest = none := lookup_of_fresh_key.mpr (same ▸ fresh)
        have dropped : ¬decide (entry.1 ≠ key) = true :=
          mt of_decide_eq_true (not_not.mpr same.symm)
        rw [if_neg dropped, filter_of_fresh others]
      next different =>
        have kept : decide (entry.1 ≠ key) = true := decide_eq_true (Ne.symm different)
        rw [if_pos kept, List.map_cons, List.sum_cons, ih distinct found]
        exact Nat.add_left_comm ..

theorem put_keys (key : Key) (value : Value) (entries : List (Key × Value)) :
    (put key value entries).map Prod.fst =
      if (lookup key entries).isNone then entries.map Prod.fst ++ [key] else entries.map Prod.fst := by
  cases found : lookup key entries with
  | none => simp [put_of_fresh found]
  | some held =>
      obtain ⟨before, after, rfl, -, made⟩ := @put_of_lookup _ _ _ _ value _ _ found
      simp [made]

theorem sum_put_fresh (weight : Value → Nat) {key : Key} (value : Value)
    {entries : List (Key × Value)} (fresh : lookup key entries = none) :
    ((put key value entries).map fun entry => weight entry.2).sum =
      (entries.map fun entry => weight entry.2).sum + weight value := by
  simp [put_of_fresh fresh]

theorem sum_put_held (weight : Value → Nat) {key : Key} (value : Value) {held : Value}
    {entries : List (Key × Value)} (found : lookup key entries = some held) :
    ((put key value entries).map fun entry => weight entry.2).sum + weight held =
      (entries.map fun entry => weight entry.2).sum + weight value := by
  obtain ⟨before, after, rfl, -, made⟩ := @put_of_lookup _ _ _ _ value _ _ found
  simp only [made, List.map_append, List.map_cons, List.sum_append, List.sum_cons]
  omega

theorem mem_put {key : Key} {value : Value} {entries : List (Key × Value)} {entry : Key × Value}
    (member : entry ∈ put key value entries) : entry = (key, value) ∨ entry ∈ entries := by
  cases found : lookup key entries with
  | none =>
      rw [put_of_fresh found, List.mem_append, List.mem_singleton] at member
      exact member.symm
  | some held =>
      obtain ⟨before, after, rfl, -, made⟩ := @put_of_lookup _ _ _ _ value _ _ found
      rw [made, List.mem_append, List.mem_cons] at member
      rw [List.mem_append, List.mem_cons]
      rcases member with early | same | later
      · exact .inr (.inl early)
      · exact .inl same
      · exact .inr (.inr (.inr later))

variable [LT Key] [DecidableLT Key]

/-- Replaces the value of a key that is there, else inserts it before the first larger key. -/
def insert (key : Key) (value : Value) : List (Key × Value) → List (Key × Value)
  | [] => [(key, value)]
  | (other, held) :: rest =>
      if key = other then (key, value) :: rest
      else if key < other then (key, value) :: (other, held) :: rest
      else (other, held) :: insert key value rest

theorem lookup_insert (key query : Key) (value : Value) (entries : List (Key × Value)) :
    lookup query (insert key value entries) =
      if query = key then some value else lookup query entries := by
  induction entries with
  | nil => simp [insert, lookup]
  | cons entry rest ih =>
      obtain ⟨other, held⟩ := entry
      by_cases same : key = other
      · subst other
        by_cases asked : query = key <;> simp [insert, lookup, asked]
      · by_cases smaller : key < other
        · simp [insert, lookup, same, smaller]
        · by_cases asked : query = other
          · subst other
            simp [insert, lookup, same, smaller, Ne.symm same]
          · simp [insert, lookup, same, smaller, asked, ih]

theorem mem_insert {key : Key} {value : Value} {entries : List (Key × Value)}
    {entry : Key × Value} (member : entry ∈ insert key value entries) :
    entry = (key, value) ∨ entry ∈ entries := by
  induction entries with
  | nil => simpa [insert] using member
  | cons head rest ih =>
      obtain ⟨other, held⟩ := head
      simp only [insert] at member
      split at member
      · rcases List.mem_cons.mp member with same | later
        · exact Or.inl same
        · exact Or.inr (List.mem_cons_of_mem _ later)
      · split at member
        · exact List.mem_cons.mp member
        · rcases List.mem_cons.mp member with same | later
          · exact Or.inr (by simp [same])
          · exact (ih later).imp id (List.mem_cons_of_mem _)

def collect (key : Item → Key) (value : Item → Value) (items : List Item) : List (Key × Value) :=
  items.foldl (fun entries item => insert (key item) (value item) entries) []

theorem lookup_foldl_insert (key : Item → Key) (value : Item → Value) (query : Key)
    (items : List Item) (entries : List (Key × Value))
    (distinct : (items.map key).Nodup) :
    lookup query (items.foldl (fun entries item => insert (key item) (value item) entries) entries) =
      match items.find? (fun item => key item = query) with
      | some item => some (value item)
      | none => lookup query entries := by
  induction items generalizing entries with
  | nil => rfl
  | cons item rest ih =>
      simp only [List.map_cons, List.nodup_cons] at distinct
      rw [List.foldl_cons, ih _ distinct.2, List.find?_cons]
      by_cases same : key item = query
      · have absent : rest.find? (fun item => key item = query) = none := by
          rw [List.find?_eq_none]
          intro other member
          simp only [decide_eq_true_eq]
          intro equal
          exact distinct.1 (List.mem_map.mpr ⟨other, member, equal.trans same.symm⟩)
        simp [absent, same, lookup_insert]
      · simp only [same, decide_false]
        cases rest.find? (fun item => key item = query) with
        | none => simp [lookup_insert, Ne.symm same]
        | some found => rfl

theorem lookup_collect (key : Item → Key) (value : Item → Value) (query : Key)
    (items : List Item) (distinct : (items.map key).Nodup) :
    lookup query (collect key value items) =
      (items.find? (fun item => key item = query)).map value := by
  rw [collect, lookup_foldl_insert key value query items [] distinct]
  cases items.find? (fun item => key item = query) <;> rfl

theorem insert_map_value {Other : Type w} (change : Value → Other) (key : Key) (value : Value)
    (entries : List (Key × Value)) :
    (insert key value entries).map (fun entry => (entry.1, change entry.2)) =
      insert key (change value) (entries.map fun entry => (entry.1, change entry.2)) := by
  induction entries with
  | nil => rfl
  | cons entry rest ih =>
      simp only [insert, List.map_cons]
      split
      · rfl
      · split
        · rfl
        · rw [List.map_cons, ih]

theorem collect_map_value {Other : Type w} (change : Value → Other) (key : Item → Key)
    (value : Item → Value) (items : List Item) :
    (collect key value items).map (fun entry => (entry.1, change entry.2)) =
      collect key (fun item => change (value item)) items := by
  have general : ∀ entries : List (Key × Value),
      (items.foldl (fun entries item => insert (key item) (value item) entries) entries).map
          (fun entry => (entry.1, change entry.2)) =
        items.foldl (fun entries item => insert (key item) (change (value item)) entries)
          (entries.map fun entry => (entry.1, change entry.2)) := by
    induction items with
    | nil => exact fun _ => rfl
    | cons item rest ih =>
        intro entries
        rw [List.foldl_cons, ih, insert_map_value, List.foldl_cons]
  exact general []

theorem collect_map {Other : Type w} (key : Other → Key) (value : Other → Value)
    (change : Item → Other) (items : List Item) :
    collect key value (items.map change) =
      collect (fun item => key (change item)) (fun item => value (change item)) items := by
  rw [collect, List.foldl_map, collect]

theorem collect_inj {first second : List (Key × Value)} (distinct : (first.map Prod.fst).Nodup)
    (sameKeys : second.map Prod.fst = first.map Prod.fst)
    (same : collect Prod.fst Prod.snd second = collect Prod.fst Prod.snd first) :
    second = first := by
  have valueOf : ∀ entries : List (Key × Value), (entries.map Prod.fst).Nodup →
      ∀ entry ∈ entries, lookup entry.1 (collect Prod.fst Prod.snd entries) = some entry.2 := by
    intro entries once entry member
    rw [lookup_collect _ _ _ _ once]
    cases found : entries.find? (fun other => other.1 = entry.1) with
    | none =>
        have different := List.find?_eq_none.mp found entry member
        simp at different
    | some other =>
        have sameKey : other.1 = entry.1 := by simpa using List.find?_some found
        have equal := List.inj_on_of_nodup_map once (List.mem_of_find?_eq_some found) member sameKey
        simp [equal]
  apply List.ext_getElem?
  intro index
  have keysAt := congrArg (fun keys : List Key => keys[index]?) sameKeys
  simp only [List.getElem?_map] at keysAt
  cases atFirst : first[index]? with
  | none =>
      rw [atFirst, Option.map_none, Option.map_eq_none_iff] at keysAt
      exact keysAt
  | some entry =>
      rw [atFirst, Option.map_some, Option.map_eq_some_iff] at keysAt
      obtain ⟨other, atSecond, sameKey⟩ := keysAt
      have firstValue := valueOf first distinct entry (List.mem_of_getElem? atFirst)
      have secondValue := valueOf second (sameKeys ▸ distinct) other (List.mem_of_getElem? atSecond)
      rw [same, sameKey, firstValue, Option.some.injEq] at secondValue
      rw [atSecond, Option.some.injEq]
      exact Prod.ext sameKey secondValue.symm

theorem mem_collect {key : Item → Key} {value : Item → Value} {items : List Item}
    {entry : Key × Value} (member : entry ∈ collect key value items) :
    ∃ item ∈ items, entry = (key item, value item) := by
  have general : ∀ entries, entry ∈ items.foldl
      (fun entries item => insert (key item) (value item) entries) entries →
      (∃ item ∈ items, entry = (key item, value item)) ∨ entry ∈ entries := by
    clear member
    induction items with
    | nil => exact fun entries there => Or.inr there
    | cons item rest ih =>
        intro entries there
        rcases ih _ there with ⟨other, later, equal⟩ | inserted
        · exact Or.inl ⟨other, List.mem_cons_of_mem _ later, equal⟩
        · rcases mem_insert inserted with equal | before
          · exact Or.inl ⟨item, by simp, equal⟩
          · exact Or.inr before
  rcases general [] member with found | impossible
  · exact found
  · simp at impossible

/-- Keys strictly increase, so no key occurs twice. -/
def Sorted (entries : List (Key × Value)) : Prop := entries.Pairwise fun first second =>
  first.1 < second.1

omit [DecidableLT Key] in
theorem lookup_of_mem (irreflexive : ∀ key : Key, ¬key < key) {key : Key} {value : Value}
    {entries : List (Key × Value)} (sorted : Sorted entries) (member : (key, value) ∈ entries) :
    lookup key entries = some value := by
  induction entries with
  | nil => cases member
  | cons entry rest ih =>
      obtain ⟨first, tail⟩ := List.pairwise_cons.mp sorted
      rcases List.mem_cons.mp member with rfl | later
      · simp [lookup]
      · have below := first _ later
        rw [lookup, if_neg, ih tail later]
        rintro rfl
        exact irreflexive _ below

section Order

variable (connected : ∀ first second : Key, ¬first < second → first ≠ second → second < first)
  (transitive : ∀ first second third : Key, first < second → second < third → first < third)

include connected transitive

theorem insert_sorted {key : Key} {value : Value} {entries : List (Key × Value)}
    (sorted : Sorted entries) : Sorted (insert key value entries) := by
  induction entries with
  | nil => simp [insert, Sorted]
  | cons entry rest ih =>
      obtain ⟨other, held⟩ := entry
      obtain ⟨first, tail⟩ := List.pairwise_cons.mp sorted
      simp only [insert]
      split
      · rename_i same
        subst other
        exact List.pairwise_cons.mpr ⟨first, tail⟩
      · rename_i different
        split
        · rename_i smaller
          refine List.pairwise_cons.mpr ⟨?_, sorted⟩
          intro later member
          rcases List.mem_cons.mp member with rfl | inRest
          · exact smaller
          · exact transitive _ _ _ smaller (first later inRest)
        · rename_i notSmaller
          refine List.pairwise_cons.mpr ⟨?_, ih tail⟩
          intro later member
          rcases mem_insert member with rfl | inRest
          · exact connected _ _ notSmaller different
          · exact first later inRest

theorem collect_sorted (key : Item → Key) (value : Item → Value) (items : List Item) :
    Sorted (collect key value items) := by
  have general : ∀ entries : List (Key × Value), Sorted entries →
      Sorted (items.foldl (fun entries item => insert (key item) (value item) entries) entries) := by
    induction items with
    | nil => exact fun _ sorted => sorted
    | cons item rest ih =>
        intro entries sorted
        exact ih _ (insert_sorted connected transitive sorted)
  exact general [] List.Pairwise.nil

end Order

end Lookup

end OrderedMap
