import ClineProxy.OrderedMap

/-!
JSON documents with insertion-ordered objects, their accessors, and a codec between
documents and text.
-/

namespace Json

/-- A number is an unsigned or a negative 64-bit integer, or a float given by its bits. -/
inductive Number where
  | posInt (value : UInt64)
  | negInt (value : Int64)
  | float (bits : UInt64)
  deriving DecidableEq

inductive Value where
  | null
  | bool (value : Bool)
  | number (value : Number)
  | string (value : String)
  | array (items : List Value)
  | object (fields : List (String × Value))

abbrev Map := List (String × Value)

instance : Inhabited Value := ⟨.null⟩

mutual

def Value.same : Value → Value → Bool
  | .null, .null => true
  | .bool first, .bool second => first = second
  | .number first, .number second => first = second
  | .string first, .string second => first = second
  | .array first, .array second => sameItems first second
  | .object first, .object second => sameFields first second
  | _, _ => false

def sameItems : List Value → List Value → Bool
  | [], [] => true
  | first :: rest, second :: more => first.same second && sameItems rest more
  | _, _ => false

def sameFields : List (String × Value) → List (String × Value) → Bool
  | [], [] => true
  | (key, first) :: rest, (name, second) :: more =>
      key = name && first.same second && sameFields rest more
  | _, _ => false

end

mutual

theorem same_iff : (first second : Value) → first.same second = true ↔ first = second
  | .null, second => by cases second <;> simp [Value.same]
  | .bool first, second => by cases second <;> simp [Value.same]
  | .number first, second => by cases second <;> simp [Value.same]
  | .string first, second => by cases second <;> simp [Value.same]
  | .array first, second => by
      cases second with
      | array items => simp [Value.same, sameItems_iff first items]
      | _ => simp [Value.same]
  | .object first, second => by
      cases second with
      | object fields => simp [Value.same, sameFields_iff first fields]
      | _ => simp [Value.same]

theorem sameItems_iff : (first second : List Value) →
    sameItems first second = true ↔ first = second
  | [], second => by cases second <;> simp [sameItems]
  | _ :: _, [] => by simp [sameItems]
  | first :: rest, second :: more => by
      simp [sameItems, same_iff first second, sameItems_iff rest more]

theorem sameFields_iff : (first second : List (String × Value)) →
    sameFields first second = true ↔ first = second
  | [], second => by cases second <;> simp [sameFields]
  | _ :: _, [] => by simp [sameFields]
  | (key, first) :: rest, (name, second) :: more => by
      simp [sameFields, same_iff first second, sameFields_iff rest more]

end

instance : DecidableEq Value := fun first second =>
  decidable_of_iff (first.same second = true) (same_iff first second)

def Number.asU64 : Number → Option UInt64
  | .posInt value => some value
  | _ => none

namespace Value

def ofNat (value : Nat) : Value := .number (.posInt (UInt64.ofNat value))

def get (key : String) : Value → Option Value
  | .object fields => OrderedMap.lookup key fields
  | _ => none

def asStr : Value → Option String
  | .string value => some value
  | _ => none

def asBool : Value → Option Bool
  | .bool value => some value
  | _ => none

def asU64 : Value → Option UInt64
  | .number value => value.asU64
  | _ => none

def asArray : Value → Option (List Value)
  | .array items => some items
  | _ => none

def asObject : Value → Option Map
  | .object fields => some fields
  | _ => none

def isString (value : Value) : Bool := value.asStr.isSome

def isBoolean (value : Value) : Bool := value.asBool.isSome

def isObject (value : Value) : Bool := value.asObject.isSome

def isNumber : Value → Bool
  | .number _ => true
  | _ => false

@[simp] theorem asStr_string (text : String) : (Value.string text).asStr = some text := rfl

@[simp] theorem asObject_object (fields : Map) : (Value.object fields).asObject = some fields := rfl

@[simp] theorem asArray_array (items : List Value) : (Value.array items).asArray = some items := rfl

@[simp] theorem get_object (key : String) (fields : Map) :
    (Value.object fields).get key = OrderedMap.lookup key fields := rfl

theorem asObject_eq_some {value : Value} {fields : Map} (found : value.asObject = some fields) :
    value = .object fields := by
  cases value <;> simp_all [asObject]

theorem asArray_eq_some {value : Value} {items : List Value} (found : value.asArray = some items) :
    value = .array items := by
  cases value <;> simp_all [asArray]

theorem asStr_eq_some {value : Value} {text : String} (found : value.asStr = some text) :
    value = .string text := by
  cases value <;> simp_all [asStr]

end Value

def Map.get (key : String) (map : Map) : Option Value := OrderedMap.lookup key map

/-- Replaces the member where it stands, or appends a new one. -/
def Map.insert (key : String) (value : Value) : Map → Map
  | [] => [(key, value)]
  | (other, held) :: rest =>
      if key = other then (key, value) :: rest else (other, held) :: Map.insert key value rest

theorem Map.get_insert (key query : String) (value : Value) (map : Map) :
    (map.insert key value).get query = if query = key then some value else map.get query := by
  induction map with
  | nil => simp [Map.insert, Map.get, OrderedMap.lookup]
  | cons entry rest ih =>
      obtain ⟨other, held⟩ := entry
      simp only [Map.get] at ih ⊢
      by_cases same : key = other
      · subst other
        by_cases asked : query = key <;> simp [Map.insert, OrderedMap.lookup, asked]
      · by_cases asked : query = other
        · subst other
          simp [Map.insert, OrderedMap.lookup, same, Ne.symm same]
        · simp [Map.insert, OrderedMap.lookup, same, asked, ih]

theorem Map.insert_eq_self {key : String} {value held : Value} {map : Map}
    (found : map.get key = some held) : map.insert key value = map ↔ value = held := by
  induction map with
  | nil => cases found
  | cons entry rest ih =>
      obtain ⟨other, first⟩ := entry
      by_cases same : key = other
      · have first_ : first = held := by simpa [Map.get, OrderedMap.lookup, same] using found
        simp [Map.insert, same, first_]
      · have later : Map.get key rest = some held := by
          simpa [Map.get, OrderedMap.lookup, same] using found
        simp [Map.insert, same, ih later]

def Map.update (key : String) (change : Value → Value) : Map → Map
  | [] => []
  | (other, held) :: rest =>
      if key = other then (other, change held) :: rest
      else (other, held) :: Map.update key change rest

theorem Map.get_update (key query : String) (change : Value → Value) (map : Map) :
    (map.update key change).get query =
      if query = key then (map.get key).map change else map.get query := by
  induction map with
  | nil => simp [Map.update, Map.get, OrderedMap.lookup]
  | cons entry rest ih =>
      obtain ⟨other, held⟩ := entry
      simp only [Map.get] at ih ⊢
      by_cases same : key = other
      · subst other
        by_cases asked : query = key <;> simp [Map.update, OrderedMap.lookup, asked]
      · by_cases asked : query = other
        · subst other
          simp [Map.update, OrderedMap.lookup, same, Ne.symm same]
        · simp [Map.update, OrderedMap.lookup, same, asked, ih]

theorem Map.update_eq_self {key : String} {change : Value → Value} {map : Map} :
    map.update key change = map ↔ ∀ held, map.get key = some held → change held = held := by
  induction map with
  | nil => simp [Map.update, Map.get, OrderedMap.lookup]
  | cons entry rest ih =>
      obtain ⟨other, first⟩ := entry
      simp only [Map.get] at ih ⊢
      by_cases same : key = other <;> simp [Map.update, OrderedMap.lookup, same, ih]

theorem Map.update_congr {key : String} {change other : Value → Value} {map : Map}
    (same : ∀ held, map.get key = some held → change held = other held) :
    map.update key change = map.update key other := by
  induction map with
  | nil => rfl
  | cons entry rest ih =>
      obtain ⟨name, first⟩ := entry
      simp only [Map.get] at ih same
      by_cases equal : key = name
      · rw [update, update, if_pos equal, if_pos equal,
          same first (by simp [OrderedMap.lookup, equal])]
      · rw [update, update, if_neg equal, if_neg equal,
          ih (by simpa [OrderedMap.lookup, equal] using same)]

theorem Map.insert_eq_update {key : String} {value held : Value} {map : Map}
    (found : map.get key = some held) : map.insert key value = map.update key fun _ => value := by
  induction map with
  | nil => cases found
  | cons entry rest ih =>
      obtain ⟨name, first⟩ := entry
      simp only [Map.get] at ih found
      by_cases equal : key = name
      · rw [insert, update, if_pos equal, if_pos equal, equal]
      · rw [insert, update, if_neg equal, if_neg equal,
          ih (by simpa [OrderedMap.lookup, equal] using found)]

theorem Map.update_update (key : String) (change again : Value → Value) (map : Map) :
    (map.update key change).update key again = map.update key (again ∘ change) := by
  induction map with
  | nil => rfl
  | cons entry rest ih =>
      obtain ⟨name, first⟩ := entry
      by_cases equal : key = name <;> simp [update, equal, ih]

/-- Removes the member; the last one takes its place. -/
def Map.remove (key : String) : Map → Map
  | [] => []
  | (other, held) :: rest =>
      if key = other then
        match rest.getLast? with
        | none => []
        | some last => last :: rest.dropLast
      else (other, held) :: Map.remove key rest

namespace Value

def update (key : String) (change : Value → Value) : Value → Value
  | .object fields => .object (Map.update key change fields)
  | value => value

def mapArray (change : List Value → List Value) : Value → Value
  | .array items => .array (change items)
  | value => value

def mapObject (change : Map → Map) : Value → Value
  | .object fields => .object (change fields)
  | value => value

theorem get_update (key query : String) (change : Value → Value) (value : Value) :
    (value.update key change).get query =
      if query = key then (value.get key).map change else value.get query := by
  cases value with
  | object fields => exact Map.get_update key query change fields
  | null | bool | number | string | array => simp [update, get]

theorem update_eq_self {key : String} {change : Value → Value} {value : Value} :
    value.update key change = value ↔
      ∀ held, value.get key = some held → change held = held := by
  cases value with
  | object fields =>
      rw [update, Value.object.injEq]
      exact Map.update_eq_self
  | null | bool | number | string | array => simp [update, get]

theorem update_congr {key : String} {change other : Value → Value} {value : Value}
    (same : ∀ held, value.get key = some held → change held = other held) :
    value.update key change = value.update key other := by
  cases value with
  | object fields => exact congrArg Value.object (Map.update_congr same)
  | null | bool | number | string | array => rfl

theorem update_update (key : String) (change again : Value → Value) (value : Value) :
    (value.update key change).update key again = value.update key (again ∘ change) := by
  cases value with
  | object fields => exact congrArg Value.object (Map.update_update key change again fields)
  | null | bool | number | string | array => rfl

theorem asArray_mapArray (change : List Value → List Value) (value : Value) :
    (value.mapArray change).asArray = value.asArray.map change := by
  cases value <;> rfl

theorem mapArray_mapArray (change again : List Value → List Value) (value : Value) :
    (value.mapArray change).mapArray again = value.mapArray (again ∘ change) := by
  cases value <;> rfl

theorem mapArray_congr {change other : List Value → List Value} {value : Value}
    (same : ∀ items, value = .array items → change items = other items) :
    value.mapArray change = value.mapArray other := by
  cases value with
  | array items => exact congrArg Value.array (same items rfl)
  | null | bool | number | string | object => rfl

theorem mapArray_eq_self {change : List Value → List Value} {value : Value} :
    value.mapArray change = value ↔ ∀ items, value = .array items → change items = items := by
  cases value <;> simp [mapArray]

theorem mapObject_eq_self {change : Map → Map} {value : Value} :
    value.mapObject change = value ↔ ∀ fields, value = .object fields → change fields = fields := by
  cases value <;> simp [mapObject]

end Value

/-- A library's reading and writing of JSON text. -/
structure Codec where
  fromStr : String → Option Value
  fromSlice : List UInt8 → Option Value
  toText : Value → String

end Json
