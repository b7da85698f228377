import ClineProxy.PromptPolicy
import Mathlib.Data.List.Sort

/-!
The prompt passes of `cache.rs`: billing headers, canonical tool arguments, the stable prefix;
and the system messages of `anthropic.rs`.
-/

namespace ClineProxy

open Json Text

def billingHeaderPrefix : List Char := "x-anthropic-billing-header:".toList

def isLineBreak (character : Char) : Bool := character == '\n' || character == '\r'

/-- How many characters the leading header line takes, with its terminator. -/
def billingHeaderCut (text : List Char) : Nat :=
  if startsWith billingHeaderPrefix text then
    let rest := text.drop billingHeaderPrefix.length
    let lineEnd := match rest.findIdx? isLineBreak with
      | some position => billingHeaderPrefix.length + position
      | none => text.length
    if startsWith ['\r', '\n'] (text.drop lineEnd) then lineEnd + 2
    else if startsWith ['\r'] (text.drop lineEnd) || startsWith ['\n'] (text.drop lineEnd) then
      lineEnd + 1
    else lineEnd
  else 0

def stripBillingHeader (text : String) : String :=
  String.ofList (text.toList.drop (billingHeaderCut text.toList))

def stripBillingText : Value → Value
  | .string text => .string (stripBillingHeader text)
  | value => value

def stripBillingBlock (block : Value) : Value :=
  if (block.get "type").bind Value.asStr = some "text" then block.update "text" stripBillingText
  else block

def stripBillingSystem : Value → Value
  | .string text => .string (stripBillingHeader text)
  | .array blocks => .array (blocks.map stripBillingBlock)
  | value => value

def stripBillingHeaderInAnthropicSystem (request : Value) : Value :=
  request.update "system" stripBillingSystem

def normalizeSystemMessage (message : Value) : Value :=
  if role message = some "system" then message.update "content" stripBillingSystem else message

def normalizeSystemMessages (body : Value) : Value :=
  body.update "messages" (Value.mapArray (List.map normalizeSystemMessage))

/-! Canonical tool arguments -/

def sortMembers (members : List (String × String)) : List (String × String) :=
  members.insertionSort fun first second => first.1 ≤ second.1

mutual

def canonicalJsonString (codec : Codec) : Value → String
  | .object fields =>
      "\x7b" ++ ",".intercalate ((sortMembers (canonicalMembers codec fields)).map fun member =>
        codec.toText (.string member.1) ++ ":" ++ member.2) ++ "\x7d"
  | .array items => "[" ++ ",".intercalate (canonicalItems codec items) ++ "]"
  | .string text => codec.toText (.string text)
  | .null => codec.toText .null
  | .bool value => codec.toText (.bool value)
  | .number value => codec.toText (.number value)

def canonicalItems (codec : Codec) : List Value → List String
  | [] => []
  | item :: rest => canonicalJsonString codec item :: canonicalItems codec rest

def canonicalMembers (codec : Codec) : List (String × Value) → List (String × String)
  | [] => []
  | (key, value) :: rest => (key, canonicalJsonString codec value) :: canonicalMembers codec rest

end

/-- The canonical text of arguments; none that are not JSON or are canonical already. -/
def rewrittenArguments (codec : Codec) (arguments : String) : Option String :=
  match codec.fromStr arguments with
  | none => none
  | some parsed =>
      let canonical := canonicalJsonString codec parsed
      if canonical = arguments then none else some canonical

def canonicalizeFunction (codec : Codec) (function : Map) : Map :=
  match (function.get "arguments").bind Value.asStr with
  | none => function
  | some arguments =>
      match rewrittenArguments codec arguments with
      | none => function
      | some canonical => function.insert "arguments" (.string canonical)

def canonicalizeCall (codec : Codec) (call : Value) : Value :=
  call.update "function" (Value.mapObject (canonicalizeFunction codec))

def canonicalizeCalls (codec : Codec) (message : Value) : Value :=
  message.update "tool_calls" (Value.mapArray (List.map (canonicalizeCall codec)))

def isAction (message : Value) : Bool :=
  role message == some "user" || role message == some "tool"

def canonicalizeMessage (codec : Codec) (lastAction index : Nat) (message : Value) : Value :=
  if role message = some "assistant" ∧ index < lastAction then canonicalizeCalls codec message
  else message

def canonicalizeMessages (codec : Codec) (messages : List Value) : List Value :=
  match Positions.rposition isAction messages with
  | none => messages
  | some lastAction => messages.mapIdx (canonicalizeMessage codec lastAction)

def canonicalizeToolArguments (codec : Codec) (object : Map) : Map :=
  object.update "messages" (Value.mapArray (canonicalizeMessages codec))

/-! The stable prefix -/

/-- What the hash is taken of: the sections with their bytes. -/
def stablePrefix (codec : Codec) (object : Map) : List (String × String) :=
  ["system", "messages", "tools"].filterMap fun section_ =>
    (object.get section_).map fun value => (section_, codec.toText value)

end ClineProxy
