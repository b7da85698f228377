import ClineProxy.JsonValue
import ClineProxy.Text

/-! The protocol errors of `anthropic.rs` and its readers of object members. -/

namespace ClineProxy

open Json

inductive StallKind where
  | firstEvent
  | firstSemantic
  | streamIdle
  | semanticIdle
  deriving DecidableEq

namespace StallKind

def asStr : StallKind → String
  | firstEvent => "upstream_first_event_timeout"
  | firstSemantic => "upstream_first_semantic_timeout"
  | streamIdle => "upstream_stream_idle_timeout"
  | semanticIdle => "upstream_semantic_idle_timeout"

def message : StallKind → String
  | firstEvent => "upstream produced no stream event before the first-event timeout"
  | firstSemantic =>
      "upstream produced no reasoning/text/tool progress before the first-semantic timeout"
  | streamIdle => "upstream stream was idle (no bytes) beyond the configured limit"
  | semanticIdle =>
      "upstream produced no reasoning/text/tool progress beyond the semantic idle limit"

end StallKind

structure ProtocolError where
  errorType : String
  message : String
  stallKind : Option String
  deriving DecidableEq

namespace ProtocolError

def invalid (message : String) : ProtocolError := ⟨"invalid_request_error", message, none⟩

def upstream (message : String) : ProtocolError := ⟨"api_error", message, none⟩

def stall (kind : StallKind) : ProtocolError := ⟨"api_error", kind.message, some kind.asStr⟩

end ProtocolError

/-- How a conversion ends without a result; slicing inside a character panics. -/
inductive Abort where
  | rejected (error : ProtocolError)
  | panicked
  deriving DecidableEq

abbrev Fallible := Except Abort

def reject {Result : Type} (message : String) : Fallible Result :=
  .error (.rejected (.invalid message))

def orReject {Result : Type} (message : String) : Option Result → Fallible Result
  | some result => .ok result
  | none => reject message

def requiredString (object : Map) (name : String) : Fallible String :=
  orReject (name ++ " must be a non-empty string")
    (((object.get name).bind Value.asStr).filter fun text => !text.isEmpty)

def optionalBool (object : Map) (name : String) : Fallible (Option Bool) :=
  match object.get name with
  | none => .ok none
  | some value => (orReject (name ++ " must be a boolean") value.asBool).map some

def copyNumber (input output : Map) (name : String) : Fallible Map :=
  match input.get name with
  | none => .ok output
  | some value =>
      if value.isNumber then .ok (output.insert name value)
      else reject (name ++ " must be a number")

def copyPositiveInteger (input output : Map) (name : String) : Fallible Map :=
  match input.get name with
  | none => .ok output
  | some value =>
      if (value.asU64.filter fun number => 0 < number).isSome then .ok (output.insert name value)
      else reject (name ++ " must be a positive integer")

theorem bind_eq_ok {Error First Second : Type} {first : Except Error First}
    {next : First → Except Error Second} {result : Second} :
    (first >>= next) = .ok result ↔ ∃ value, first = .ok value ∧ next value = .ok result := by
  cases first with
  | error abort => simp [bind, Except.bind]
  | ok value => simp [bind, Except.bind]

theorem ok_of_isOk {Error Result : Type} {result : Except Error Result}
    (ok : result.isOk = true) : ∃ value, result = .ok value := by
  cases result with
  | error => cases ok
  | ok value => exact ⟨value, rfl⟩

theorem map_eq_ok {Error First Second : Type} {first : Except Error First}
    {next : First → Second} {result : Second} :
    first.map next = .ok result ↔ ∃ value, first = .ok value ∧ next value = result := by
  cases first with
  | error abort => simp [Except.map]
  | ok value => simp [Except.map]

theorem bind_eq_error {First Second : Type} {first : Fallible First}
    {next : First → Fallible Second} {abort : Abort} :
    (first >>= next) = .error abort ↔
      first = .error abort ∨ ∃ value, first = .ok value ∧ next value = .error abort := by
  cases first with
  | error other => simp [bind, Except.bind]
  | ok value => simp [bind, Except.bind]

theorem map_eq_error {First Second : Type} {first : Fallible First} {next : First → Second}
    {abort : Abort} : first.map next = .error abort ↔ first = .error abort := by
  cases first with
  | error other => simp [Except.map]
  | ok value => simp [Except.map]

theorem orReject_eq_ok {Result : Type} {message : String} {found : Option Result}
    {result : Result} : orReject message found = .ok result ↔ found = some result := by
  cases found <;> simp [orReject, reject]

theorem requiredString_eq_ok {object : Map} {name text : String} :
    requiredString object name = .ok text ↔
      (object.get name).bind Value.asStr = some text ∧ text.isEmpty = false := by
  rw [requiredString, orReject_eq_ok, Option.filter_eq_some_iff]
  simp

end ClineProxy
