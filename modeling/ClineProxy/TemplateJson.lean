import ClineProxy.CanonicalChecks
import ClineProxy.PythonDumps

/-! `template.rs`: the JSON text that the chat template is filled with, against Python's. -/

namespace Json

open Python (Object)

mutual

def Value.pythonObject : Value → Object
  | .null => .none
  | .bool value => .bool value
  | .number (.posInt value) => .int value.toNat
  | .number (.negInt value) => .int value.toInt
  | .number (.float bits) => .float bits
  | .string text => .str text
  | .array items => .list (pythonObjects items)
  | .object fields => .dict (pythonMembers fields)

def pythonObjects : List Value → List Object
  | [] => []
  | item :: rest => item.pythonObject :: pythonObjects rest

def pythonMembers : List (String × Value) → List (String × Object)
  | [] => []
  | (name, value) :: rest => (name, value.pythonObject) :: pythonMembers rest

end

/-- A 64-bit integer; one that is not negative is held as an unsigned number. -/
def Number.IsInteger : Number → Prop
  | .posInt _ => True
  | .negInt value => value.toInt < 0
  | .float _ => False

variable {floats : Floats}

theorem readNumber_writeNumber {number : Number} (integer : number.IsInteger) :
    readNumber floats (writeNumber floats number) = some number := by
  cases number with
  | posInt value =>
      rw [writeNumber, readNumber_toDigits floats value.toNat_lt, UInt64.ofNat_toNat]
  | negInt value =>
      have negative : value.toInt < 0 := integer
      have least := value.le_toInt
      have held : -(value.toInt.natAbs : Int) = value.toInt := by omega
      rw [writeNumber, if_pos negative, readNumber_minus floats (by omega) (by omega), held,
        Int64.ofInt_toInt]
  | float bits => exact integer.elim

theorem readable_integer {number : Number} (integer : number.IsInteger) :
    floats.numbers.Readable number :=
  have read := readNumber_writeNumber integer
  ⟨isNumber_of_read floats read, read⟩

theorem repr_toList (number : Int) : number.repr.toList =
    if number < 0 then '-' :: Nat.toDigits 10 number.natAbs
    else Nat.toDigits 10 number.natAbs := by
  cases number with
  | ofNat value =>
      have whole : ¬Int.ofNat value < 0 := Int.not_lt.mpr (Int.natCast_nonneg value)
      rw [Int.repr, Nat.toList_repr, if_neg whole]
      rfl
  | negSucc value =>
      rw [Int.repr, String.toList_append, Nat.toList_repr, if_pos (Int.negSucc_lt_zero value),
        Int.natAbs_negSucc]
      rfl

variable (floats)

theorem writeNumber_posInt_eq (value : UInt64) :
    writeNumber floats (.posInt value) = (value.toNat : Int).repr.toList := by
  rw [writeNumber, repr_toList, if_neg (by omega), Int.natAbs_natCast]

theorem writeNumber_negInt_eq (value : Int64) :
    writeNumber floats (.negInt value) = value.toInt.repr.toList := by
  rw [writeNumber, repr_toList]

variable (floatRepr : UInt64 → String)

mutual

theorem document_pythonObject : (value : Value) → value.EveryNumber Number.IsInteger →
    value.pythonObject.document floatRepr = value.document floats.numbers
  | .null, _ => rfl
  | .bool _, _ => rfl
  | .number (.posInt value), _ => congrArg _ (writeNumber_posInt_eq floats value).symm
  | .number (.negInt value), _ => congrArg _ (writeNumber_negInt_eq floats value).symm
  | .number (.float _), integers => integers.elim
  | .string _, _ => rfl
  | .array items, integers => congrArg _ (itemDocuments_pythonObjects items integers)
  | .object fields, integers => congrArg _ (memberDocuments_pythonMembers fields integers)

theorem itemDocuments_pythonObjects : (items : List Value) →
    EveryItemNumber Number.IsInteger items →
    Python.itemDocuments floatRepr (pythonObjects items) = itemDocuments floats.numbers items
  | [], _ => rfl
  | item :: rest, integers => by
      rw [pythonObjects, Python.itemDocuments, itemDocuments,
        document_pythonObject item integers.1, itemDocuments_pythonObjects rest integers.2]

theorem memberDocuments_pythonMembers : (fields : List (String × Value)) →
    EveryMemberNumber Number.IsInteger fields →
    Python.memberDocuments floatRepr (pythonMembers fields) = memberDocuments floats.numbers fields
  | [], _ => rfl
  | (name, value) :: rest, integers => by
      rw [pythonMembers, Python.memberDocuments, memberDocuments,
        document_pythonObject value integers.1, memberDocuments_pythonMembers rest integers.2]

end

end Json

namespace ClineProxy

open Json

mutual

/-- Writing a text does not fail. -/
def pythonJson (codec : Codec) : Value → String
  | .null => "null"
  | .bool flag => if flag then "true" else "false"
  | .number number => codec.toText (.number number)
  | .string text => codec.toText (.string text)
  | .array items => "[" ++ ", ".intercalate (pythonJsonItems codec items) ++ "]"
  | .object fields => "\x7b" ++ ", ".intercalate (pythonJsonMembers codec fields) ++ "\x7d"

def pythonJsonItems (codec : Codec) : List Value → List String
  | [] => []
  | item :: rest => pythonJson codec item :: pythonJsonItems codec rest

def pythonJsonMembers (codec : Codec) : List (String × Value) → List String
  | [] => []
  | (key, value) :: rest =>
      (codec.toText (.string key) ++ ": " ++ pythonJson codec value) ::
        pythonJsonMembers codec rest

end

/-- What the template engine supplies to its filters. -/
structure TemplateEngine (Template Refusal : Type) where
  optionalFlag : Option Template → Except Refusal (Option Bool)
  unusedArgument : String → Refusal
  invalidOperation : String → Refusal
  toValue : Template → Except String Value

/-- The flag is read and has no effect. -/
def tojson {Template Refusal : Type} (engine : TemplateEngine Template Refusal) (codec : Codec)
    (value : Template) (kwargs : List (String × Template)) : Except Refusal String := do
  let _ensureAscii ← engine.optionalFlag (OrderedMap.lookup "ensure_ascii" kwargs)
  match kwargs.find? fun argument => argument.1 ≠ "ensure_ascii" with
  | some (name, _) => .error (engine.unusedArgument name)
  | none =>
      match engine.toValue value with
      | .error error => .error (engine.invalidOperation ("tojson failed: " ++ error))
      | .ok jsonValue => .ok (pythonJson codec jsonValue)

section Text

variable {floats : Floats} {bound : Nat} {codec : Codec}

mutual

theorem pythonJson_toList (follows : FollowsGrammar floats.numbers bound codec) :
    (value : Value) → (pythonJson codec value).toList =
      JsonGrammar.writeSpaced JsonGrammar.oneBlank (value.document floats.numbers)
  | .null => by
      rw [pythonJson]
      rfl
  | .bool value => by
      rw [pythonJson]
      cases value <;> rfl
  | .number value => by
      rw [pythonJson, follows.number, String.toList_ofList]
      rfl
  | .string text => by
      rw [pythonJson, follows.string, String.toList_ofList]
      rfl
  | .array items => by
      rw [pythonJson, Value.document, JsonGrammar.writeSpaced_array,
        ← pythonJsonItems_toList follows items, String.toList_append, String.toList_append,
        String.toList_intercalate]
      rfl
  | .object fields => by
      rw [pythonJson, Value.document, JsonGrammar.writeSpaced_object,
        ← pythonJsonMembers_toList follows fields, String.toList_append, String.toList_append,
        String.toList_intercalate]
      rfl

theorem pythonJsonItems_toList (follows : FollowsGrammar floats.numbers bound codec) :
    (items : List Value) → (pythonJsonItems codec items).map String.toList =
      (itemDocuments floats.numbers items).map (JsonGrammar.writeSpaced JsonGrammar.oneBlank)
  | [] => rfl
  | item :: rest => by
      rw [pythonJsonItems, itemDocuments, List.map_cons, List.map_cons,
        pythonJson_toList follows item, pythonJsonItems_toList follows rest]

theorem pythonJsonMembers_toList (follows : FollowsGrammar floats.numbers bound codec) :
    (fields : List (String × Value)) → (pythonJsonMembers codec fields).map String.toList =
      (memberDocuments floats.numbers fields).map
        (JsonGrammar.writeSpacedMember JsonGrammar.oneBlank)
  | [] => rfl
  | (key, value) :: rest => by
      rw [pythonJsonMembers, memberDocuments, List.map_cons, List.map_cons,
        pythonJsonMembers_toList follows rest, String.toList_append, String.toList_append,
        follows.string, String.toList_ofList, pythonJson_toList follows value,
        JsonGrammar.writeSpacedMember, List.append_assoc]
      rfl

end

theorem pythonJson_eq (follows : FollowsGrammar floats.numbers bound codec)
    (floatRepr : UInt64 → String) {value : Value} (integers : value.EveryNumber Number.IsInteger) :
    pythonJson codec value = Python.dumps floatRepr value.pythonObject := by
  refine String.toList_inj.mp ?_
  rw [pythonJson_toList follows, Python.dumps_toList,
    document_pythonObject floats floatRepr value integers]

theorem tojson_dumps {Template Refusal : Type} {engine : TemplateEngine Template Refusal}
    {template : Template} {kwargs : List (String × Template)} {text : String} {value : Value}
    (follows : FollowsGrammar floats.numbers bound codec) (floatRepr : UInt64 → String)
    (holds : engine.toValue template = .ok value) (integers : value.EveryNumber Number.IsInteger)
    (filtered : tojson engine codec template kwargs = .ok text) :
    text = Python.dumps floatRepr value.pythonObject := by
  obtain ⟨_, -, passed⟩ := bind_eq_ok.mp filtered
  split at passed
  next => cases passed
  next =>
    rw [holds] at passed
    cases passed
    exact pythonJson_eq follows floatRepr integers

/-- The text is the one that Python dumps, also through the filter, and it is read as the value, by
`serde_json` when the value nests no deeper than it reads. -/
theorem python_json_dumps (follows : FollowsGrammar floats.numbers bound codec)
    (floatRepr : UInt64 → String) (value : Value) (distinct : value.Distinct)
    (integers : value.EveryNumber Number.IsInteger) :
    pythonJson codec value = Python.dumps floatRepr value.pythonObject ∧
      (∀ (Template Refusal : Type) (engine : TemplateEngine Template Refusal) template kwargs text,
        engine.toValue template = .ok value → tojson engine codec template kwargs = .ok text →
          text = Python.dumps floatRepr value.pythonObject) ∧
      (JsonGrammar.readDocument (pythonJson codec value).toList).bind
        (ofDocument floats.numbers) = some value ∧
      codec.fromStr (pythonJson codec value) =
        if (value.document floats.numbers).depth ≤ bound then some value else none := by
  have dumped := pythonJson_eq follows floatRepr integers
  have readable := integers.imp fun _ => @readable_integer floats _
  have same := document_pythonObject floats floatRepr value integers
  have read : JsonGrammar.readDocument (pythonJson codec value).toList =
      some (value.document floats.numbers) := by
    rw [dumped, Python.readDocument_dumps, same]
    rw [same]
    exact literals_document floats.numbers.writes_readable value readable
  have parsed := ofDocument_document floats.numbers value distinct readable
  refine ⟨dumped, ?_, ?_, ?_⟩
  · exact fun _ _ _ _ _ _ holds => tojson_dumps follows floatRepr holds integers
  · rw [read, Option.bind_some, parsed]
  · rw [follows.fromStr, read, Option.bind_some, parsed]

end Text

def mixedValue : Value :=
  .object [("k\n", .array [.number (.posInt 2), .number (.negInt (-1)), .array [], .null]),
    ("\x01", .object [("\"", .object []), ("\\é", .bool true)])]

theorem python_json_dumps_mixed :
    pythonJson (grammarCodec wholeNumbers 127) mixedValue =
        "\x7b\"k\\n\": [2, -1, [], null], " ++
          "\"\\u0001\": \x7b\"\\\"\": \x7b\x7d, \"\\\\é\": true\x7d\x7d" ∧
      (grammarCodec wholeNumbers 127).fromStr (pythonJson (grammarCodec wholeNumbers 127)
        mixedValue) = some mixedValue := by
  have distinct : mixedValue.Distinct := by
    simp [mixedValue, Value.Distinct, DistinctItems, DistinctMembers, Map.Distinct]
  have integers : mixedValue.EveryNumber Number.IsInteger :=
    ⟨⟨trivial, (by decide : (-1 : Int64).toInt < 0), trivial, trivial, trivial⟩,
      ⟨trivial, trivial, trivial⟩, trivial⟩
  obtain ⟨dumped, -, -, parsed⟩ := python_json_dumps (follows_grammarCodec wholeNumbers 127)
    (fun _ => "") mixedValue distinct integers
  refine ⟨dumped.trans (by decide +kernel), parsed.trans (if_pos ?_)⟩
  decide +kernel

end ClineProxy
