import ClineProxy.AggregateChecks
import ClineProxy.OpenedBlocks
import ClineProxy.RoundTools

/-! The message that a client puts together from the frames of a stream. -/

namespace ClineProxy

open Json FirstSeen
open StreamState (fragmentCalls)

/-- A content block: what it was opened with and what its deltas added. -/
structure ClientBlock where
  opened : Value
  added : String
  signature : Option String
  closed : Bool
  deriving DecidableEq

namespace ClientBlock

def start (opened : Value) : ClientBlock := ⟨opened, "", none, false⟩

def addDelta (kind text : String) (block : ClientBlock) : ClientBlock :=
  if kind = "signature_delta" then { block with signature := some text }
  else { block with added := block.added ++ text }

/-- The block once it is closed; the arguments of a call are read as the gateway reads them. -/
def value (codec : Codec) (block : ClientBlock) : Value :=
  match (block.opened.get "type").bind Value.asStr, block.opened with
  | some "text", .object fields => .object (Map.insert "text" (.string block.added) fields)
  | some "thinking", .object fields => .object (Map.insert "signature"
      (.string (block.signature.getD "")) (Map.insert "thinking" (.string block.added) fields))
  | some "tool_use", .object fields =>
      .object (Map.insert "input" ((toolInput codec block.added).getD .null) fields)
  | _, opened => opened

end ClientBlock

structure ClientMessage where
  message : Option Value
  blocks : List ClientBlock
  ending : Option (Value × Value × Value)
  complete : Bool

namespace ClientMessage

def empty : ClientMessage := ⟨none, [], none, false⟩

def read (client : ClientMessage) : SseFrame → ClientMessage
  | .messageStart message => { client with message := some message }
  | .blockStart _ block => { client with blocks := client.blocks ++ [.start block] }
  | .blockDelta index kind _ text =>
      { client with blocks := client.blocks.modify index (ClientBlock.addDelta kind text) }
  | .blockStop index =>
      { client with blocks := client.blocks.modify index fun block => { block with closed := true } }
  | .messageDelta stopReason stopSequence usage =>
      { client with ending := some (stopReason, stopSequence, usage) }
  | .messageStop => { client with complete := true }
  | .error _ | .ping => client

def readAll (client : ClientMessage) (frames : List SseFrame) : ClientMessage :=
  frames.foldl read client

theorem readAll_append (client : ClientMessage) (first second : List SseFrame) :
    client.readAll (first ++ second) = (client.readAll first).readAll second :=
  List.foldl_append

end ClientMessage

inductive BlockKey where
  | thinking
  | text
  | tool (index : UInt64)
  deriving DecidableEq

def BlockKey.kind : BlockKey → BlockKind
  | thinking => .thinking
  | text => .text
  | tool _ => .tool

def callShows (call : Value) : Bool :=
  (toolCallName call).isSome || !(toolCallArguments call).isEmpty

def Fragment.key : Fragment → Option BlockKey
  | .reasoning _ => some .thinking
  | .text _ => some .text
  | .call given => if callShows given then some (.tool (toolCallIndex given)) else none

def openedKeys (fragments : List Fragment) : List BlockKey :=
  firstSeen (fragments.filterMap Fragment.key)

def Fragment.adds (key : BlockKey) : Fragment → String
  | .reasoning said => if key = .thinking then said else ""
  | .text said => if key = .text then said else ""
  | .call given => if key = .tool (toolCallIndex given) then toolCallArguments given else ""

def addedText (key : BlockKey) (fragments : List Fragment) : String :=
  String.join (fragments.map (Fragment.adds key))

/-- The calls of a tool up to the first one that shows it. -/
def upToShown : List Value → List Value
  | [] => []
  | call :: rest => if callShows call then [call] else call :: upToShown rest

def lastName (calls : List Value) : Option String := calls.reverse.findSome? toolCallName

def openedWith (fragments : List Fragment) : BlockKey → Value
  | .thinking => .object [("type", .string "thinking"), ("thinking", .string "")]
  | .text => .object [("type", .string "text"), ("text", .string "")]
  | .tool index =>
      let calls := upToShown (callsAt index (fragmentCalls fragments))
      toolBlock (idOr index (calls.reverse.findSome? toolCallId)) (nameOr (lastName calls))
        (.object [])

def clientBlock (fragments : List Fragment) (key : BlockKey) : ClientBlock :=
  ⟨openedWith fragments key, addedText key fragments, none, false⟩

end ClineProxy
