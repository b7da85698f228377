import ClineProxy.JsonTrees

/-!
`json.dumps` of Python, with `ensure_ascii=False` and the separators that it has by default, and
its text as one that JSON readers accept.
-/

namespace Python

open JsonGrammar (Document Literals)

inductive Object where
  | none
  | bool (value : Bool)
  | int (value : Int)
  | float (bits : UInt64)
  | str (text : String)
  | list (items : List Object)
  | dict (members : List (String × Object))

def unicodeEscape (code : Nat) : List Char :=
  let digits := Nat.toDigits 16 code
  '\\' :: 'u' :: (List.replicate (4 - digits.length) '0' ++ digits)

/-- The entries of `ESCAPE_DCT`; one that stands behind another of its key was not set. -/
def escapeDict : List (Char × List Char) :=
  [('\\', ['\\', '\\']), ('"', ['\\', '"']), ('\x08', ['\\', 'b']), ('\x0c', ['\\', 'f']),
      ('\n', ['\\', 'n']), ('\r', ['\\', 'r']), ('\t', ['\\', 't'])] ++
    (List.range 0x20).map fun code => (Char.ofNat code, unicodeEscape code)

def isEscaped (character : Char) : Bool :=
  character.toNat ≤ 0x1f ||
    ['\\', '"', '\x08', '\x0c', '\n', '\r', '\t'].contains character

def encodeCharacter (character : Char) : List Char :=
  if isEscaped character then (escapeDict.lookup character).getD [] else [character]

def encodeBasestring (text : String) : String :=
  String.ofList ('"' :: (text.toList.flatMap encodeCharacter ++ ['"']))

section Dumps

variable (floatRepr : UInt64 → String)

mutual

def dumps : Object → String
  | .none => "null"
  | .bool true => "true"
  | .bool false => "false"
  | .int value => value.repr
  | .float bits => floatRepr bits
  | .str text => encodeBasestring text
  | .list [] => "[]"
  | .list (first :: rest) => "[" ++ (dumps first ++ dumpsItems rest)
  | .dict [] => "\x7b\x7d"
  | .dict ((key, value) :: rest) =>
      "\x7b" ++ (encodeBasestring key ++ (": " ++ (dumps value ++ dumpsMembers rest)))

def dumpsItems : List Object → String
  | [] => "]"
  | item :: rest => ", " ++ (dumps item ++ dumpsItems rest)

def dumpsMembers : List (String × Object) → String
  | [] => "\x7d"
  | (key, value) :: rest =>
      ", " ++ (encodeBasestring key ++ (": " ++ (dumps value ++ dumpsMembers rest)))

end

example : dumps (fun _ => "") (.dict [("a\n", .list [.int (-1), .none, .list [], .dict []])]) =
    "\x7b\"a\\n\": [-1, null, [], \x7b\x7d]\x7d" := by
  decide +kernel

mutual

def Object.document : Object → Document
  | .none => .null
  | .bool value => .bool value
  | .int value => .number value.repr.toList
  | .float bits => .number (floatRepr bits).toList
  | .str text => .string text
  | .list items => .array (itemDocuments items)
  | .dict members => .object (memberDocuments members)

def itemDocuments : List Object → List Document
  | [] => []
  | item :: rest => item.document :: itemDocuments rest

def memberDocuments : List (String × Object) → List (String × Document)
  | [] => []
  | (key, value) :: rest => (key, value.document) :: memberDocuments rest

end

end Dumps

theorem encodeCharacter_control {code : Nat} (control : code < 32) :
    encodeCharacter (Char.ofNat code) = JsonGrammar.escape (Char.ofNat code) := by
  have each : (List.range 32).all (fun code =>
      encodeCharacter (Char.ofNat code) = JsonGrammar.escape (Char.ofNat code)) = true := by
    decide +kernel
  exact of_decide_eq_true (List.all_eq_true.mp each code (List.mem_range.mpr control))

theorem encodeCharacter_eq (character : Char) :
    encodeCharacter character = JsonGrammar.escape character := by
  by_cases control : character.toNat < 32
  · have escaped := encodeCharacter_control control
    rwa [Char.ofNat_toNat] at escaped
  by_cases backslash : character = '\\'
  · subst backslash
    decide
  by_cases mark : character = '"'
  · subst mark
    decide
  have apart {other : Char} (below : other.toNat < 32) : character ≠ other := by
    rintro rfl
    exact control below
  have literal : isEscaped character = false := by
    rw [isEscaped, Bool.or_eq_false_iff]
    refine ⟨decide_eq_false (by omega), ?_⟩
    simp [backslash, mark, @apart '\x08' (by decide), @apart '\x0c' (by decide),
      @apart '\n' (by decide), @apart '\r' (by decide), @apart '\t' (by decide)]
  rw [encodeCharacter, literal, if_neg Bool.false_ne_true, JsonGrammar.escape, if_neg mark,
    if_neg backslash, if_neg (apart (by decide)), if_neg (apart (by decide)),
    if_neg (apart (by decide)), if_neg (apart (by decide)), if_neg (apart (by decide)),
    if_neg control]

theorem encodeBasestring_toList (text : String) :
    (encodeBasestring text).toList = JsonGrammar.quote text := by
  rw [encodeBasestring, String.toList_ofList, JsonGrammar.quote,
    funext encodeCharacter_eq]

section Texts

variable (floatRepr : UInt64 → String)

mutual

theorem dumps_toList : (object : Object) → (dumps floatRepr object).toList =
    JsonGrammar.writeSpaced JsonGrammar.oneBlank (object.document floatRepr)
  | .none => by
      rw [dumps]
      rfl
  | .bool true => by
      rw [dumps]
      rfl
  | .bool false => by
      rw [dumps]
      rfl
  | .int _ => rfl
  | .float _ => rfl
  | .str text => encodeBasestring_toList text
  | .list [] => by
      rw [dumps]
      rfl
  | .list (first :: rest) => by
      rw [dumps, String.toList_append, String.toList_append, dumps_toList first,
        dumpsItems_toList rest]
      rfl
  | .dict [] => by
      rw [dumps]
      rfl
  | .dict ((key, value) :: rest) => by
      rw [dumps, String.toList_append, String.toList_append, String.toList_append,
        String.toList_append, encodeBasestring_toList, dumps_toList value,
        dumpsMembers_toList rest]
      rfl

theorem dumpsItems_toList : (items : List Object) → (dumpsItems floatRepr items).toList =
    JsonGrammar.writeSpacedItems JsonGrammar.oneBlank (itemDocuments floatRepr items)
  | [] => by
      rw [dumpsItems]
      rfl
  | item :: rest => by
      rw [dumpsItems, String.toList_append, String.toList_append, dumps_toList item,
        dumpsItems_toList rest]
      rfl

theorem dumpsMembers_toList :
    (members : List (String × Object)) → (dumpsMembers floatRepr members).toList =
      JsonGrammar.writeSpacedMembers JsonGrammar.oneBlank (memberDocuments floatRepr members)
  | [] => by
      rw [dumpsMembers]
      rfl
  | (key, value) :: rest => by
      rw [dumpsMembers, String.toList_append, String.toList_append, String.toList_append,
        String.toList_append, encodeBasestring_toList, dumps_toList value,
        dumpsMembers_toList rest]
      rfl

end

theorem readDocument_dumps {object : Object}
    (literals : Literals (object.document floatRepr)) :
    JsonGrammar.readDocument (dumps floatRepr object).toList =
      some (object.document floatRepr) := by
  rw [dumps_toList, JsonGrammar.readDocument_writeSpaced _ literals]

end Texts

end Python
