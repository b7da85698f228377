import ClineProxy.JsonValue

/-!
The compact text of JSON documents without floats and control characters, the codec of a
few documents, and the chunks that upstream responses are made of.
-/

namespace Json

def textBytes (text : String) : List UInt8 := text.toUTF8.toList

def quoteBytes (text : String) : List UInt8 :=
  34 :: (textBytes text).flatMap (fun byte =>
    if byte = 34 ∨ byte = 92 then [92, byte] else [byte]) ++ [34]

def Number.render : Number → List UInt8
  | .posInt value => textBytes (toString value.toNat)
  | .negInt value => textBytes (toString value.toInt)
  | .float _ => textBytes "0.0"

mutual

def Value.render : Value → List UInt8
  | .null => textBytes "null"
  | .bool value => textBytes (if value then "true" else "false")
  | .number value => value.render
  | .string text => quoteBytes text
  | .array items => 91 :: renderItems items ++ [93]
  | .object fields => 123 :: renderFields fields ++ [125]

def renderItems : List Value → List UInt8
  | [] => []
  | [item] => item.render
  | item :: rest => item.render ++ 44 :: renderItems rest

def renderFields : List (String × Value) → List UInt8
  | [] => []
  | [(name, value)] => quoteBytes name ++ 58 :: value.render
  | (name, value) :: rest => quoteBytes name ++ 58 :: value.render ++ 44 :: renderFields rest

end

/-- Reads the compact texts of the documents, and no others. -/
def documentCodec (documents : List Value) : Codec where
  fromStr := fun text => documents.find? fun value => value.render = textBytes text
  fromSlice := fun bytes => documents.find? fun value => value.render = bytes
  toText := fun value => String.ofList (value.render.map fun byte => Char.ofNat byte.toNat)

example : (Value.object [("a", .array [.ofNat 1, .string "x\"y"])]).render =
    textBytes "\x7b\"a\":[1,\"x\\\"y\"]\x7d" := by decide +kernel

def chunkOf (delta : Map) (finish : Map) : Value :=
  .object [("choices", .array [.object (("delta", .object delta) :: finish)])]

def finished (reason : String) : Map := [("finish_reason", .string reason)]

def wholeCall (index : Nat) (id name arguments : String) : Value :=
  .object [("index", .ofNat index), ("id", .string id),
    ("function", .object [("name", .string name), ("arguments", .string arguments)])]

def eventBytes (documents : List Value) : List UInt8 :=
  documents.flatMap fun value => textBytes "data: " ++ value.render ++ textBytes "\n\n"

def doneBytes : List UInt8 := textBytes "data: [DONE]\n\n"

def leanQuery : Value := .object [("query", .string "lean")]

def leanQueryText : String := "\x7b\"query\":\"lean\"\x7d"

end Json
