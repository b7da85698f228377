import ClineProxy.AnthropicRequest

/-! What the settings of a request add to its body. -/

namespace ClineProxy

open Json

def insertAll (members output : Map) : Map :=
  members.foldl (fun output member => output.insert member.1 member.2) output

/-- What is copied into a body does not depend on the body, and is no messages. -/
def Inserts (copy : Map → Fallible Map) : Prop :=
  ∃ added : Fallible Map, (∀ members, added = .ok members → ∀ member ∈ members,
    member.1 ≠ "messages") ∧ ∀ output, copy output = added.map fun members => insertAll members output

namespace Inserts

theorem members {members : Map} (other : ∀ member ∈ members, member.1 ≠ "messages") :
    Inserts fun output => .ok (insertAll members output) := by
  refine ⟨.ok members, ⟨?_, fun _ => rfl⟩⟩
  intro held same
  obtain rfl := Except.ok.inj same
  exact other

theorem none : Inserts .ok := @members [] (by simp)

theorem one {name : String} (other : name ≠ "messages") (value : Value) :
    Inserts fun output => .ok (output.insert name value) :=
  @members [(name, value)] (by simpa using other)

theorem error (abort : Abort) : Inserts fun _ => .error abort := by
  refine ⟨.error abort, ⟨?_, fun _ => rfl⟩⟩
  intro _ impossible
  cases impossible

theorem ite {first second : Map → Fallible Map} (condition : Prop) [Decidable condition]
    (firstInserts : Inserts first) (secondInserts : Inserts second) :
    Inserts fun output => if condition then first output else second output := by
  by_cases held : condition
  · simpa only [if_pos held] using firstInserts
  · simpa only [if_neg held] using secondInserts

theorem bind {Result : Type} (found : Fallible Result) {next : Result → Map → Fallible Map}
    (inserts : ∀ result, Inserts (next result)) :
    Inserts fun output => found >>= fun result => next result output := by
  cases found with
  | error abort => exact error abort
  | ok result => exact inserts result

theorem accepts {copy : Map → Fallible Map} (inserts : Inserts copy) {first result : Map}
    (done : copy first = .ok result) (second : Map) : ∃ other, copy second = .ok other := by
  obtain ⟨added, -, copies⟩ := inserts
  rw [copies] at done
  obtain ⟨members, found, -⟩ := map_eq_ok.mp done
  exact ⟨_, (copies second).trans (map_eq_ok.mpr ⟨members, found, rfl⟩)⟩

end Inserts

section Settings

variable (object : Map)

theorem copyNumber_inserts {name : String} (other : name ≠ "messages") :
    Inserts fun output => copyNumber object output name := by
  simp only [copyNumber]
  cases object.get name with
  | none => exact .none
  | some value => exact .ite _ (.one other value) (.error _)

theorem copyPositiveInteger_inserts {name : String} (other : name ≠ "messages") :
    Inserts fun output => copyPositiveInteger object output name := by
  simp only [copyPositiveInteger]
  cases object.get name with
  | none => exact .none
  | some value => exact .ite _ (.one other value) (.error _)

theorem copyStopSequences_inserts : Inserts (copyStopSequences object) := by
  unfold copyStopSequences
  cases object.get "stop_sequences" with
  | none => exact .none
  | some stop => exact .bind _ fun _ => .ite _ (.error _) (.one (by decide) stop)

theorem copyMetadata_inserts : Inserts (copyMetadata object) := by
  unfold copyMetadata
  cases object.get "metadata" with
  | none => exact .none
  | some metadata => exact .ite _ (.one (by decide) metadata) (.error _)

theorem copyTools_inserts : Inserts fun output => (copyTools object output).map Prod.fst := by
  simp only [copyTools]
  cases object.get "tools" with
  | none => exact .none
  | some tools =>
      dsimp only
      cases convertTools tools with
      | error abort => exact .error abort
      | ok result =>
          cases empty : result.1.isEmpty with
          | true => simpa [empty, bind, Except.bind, pure, Except.pure, Except.map] using Inserts.none
          | false =>
              have inserts := Inserts.one (by decide : "tools" ≠ "messages") (.array result.1)
              simpa [empty, bind, Except.bind, pure, Except.pure, Except.map] using inserts

theorem copyToolChoice_inserts : Inserts (copyToolChoice object) := by
  unfold copyToolChoice
  cases object.get "tool_choice" with
  | none => exact .none
  | some value =>
      refine .bind _ fun chosen => ?_
      obtain ⟨choice, parallel⟩ := chosen
      cases parallel with
      | none => exact .one (by decide) choice
      | some allowed =>
          have both := @Inserts.members [("tool_choice", choice),
            ("parallel_tool_calls", .bool allowed)] (by simp)
          exact both

theorem copyOutputFormat_inserts (format : Option Value) : Inserts (copyOutputFormat format) := by
  cases format with
  | none => exact .none
  | some value =>
      unfold copyOutputFormat
      dsimp only
      cases convertOutputFormat value with
      | error abort => exact .error abort
      | ok converted => exact .one (by decide) converted

theorem copyOutputConfig_inserts : Inserts (copyOutputConfig object) := by
  unfold copyOutputConfig
  cases object.get "output_config" with
  | none => exact .none
  | some config => exact .ite _ (copyOutputFormat_inserts _) (.error _)

/-- Whether the settings are accepted does not depend on the body that they are written to. -/
theorem copySettings_accepts {stream : Bool} {first : Map} {result : Map × ServerToolConfig}
    (done : copySettings object stream first = .ok result) (second : Map) :
    ∃ other, copySettings object stream second = .ok other := by
  obtain ⟨_, temperature, done⟩ := bind_eq_ok.mp done
  obtain ⟨_, topP, done⟩ := bind_eq_ok.mp done
  obtain ⟨_, topK, done⟩ := bind_eq_ok.mp done
  obtain ⟨_, stop, done⟩ := bind_eq_ok.mp done
  obtain ⟨_, metadata, done⟩ := bind_eq_ok.mp done
  obtain ⟨pair, tools, done⟩ := bind_eq_ok.mp done
  obtain ⟨_, choice, done⟩ := bind_eq_ok.mp done
  obtain ⟨_, config, done⟩ := bind_eq_ok.mp done
  obtain ⟨_, format, -⟩ := bind_eq_ok.mp done
  have numbers {name : String} (other : name ≠ "messages") := copyNumber_inserts object other
  have integers := copyPositiveInteger_inserts object (by decide : "top_k" ≠ "messages")
  obtain ⟨one, temperature⟩ := (numbers (by decide)).accepts temperature second
  obtain ⟨two, topP⟩ := (numbers (by decide)).accepts topP one
  obtain ⟨three, topK⟩ := integers.accepts topK two
  obtain ⟨four, stop⟩ := (copyStopSequences_inserts object).accepts stop three
  obtain ⟨five, metadata⟩ := (copyMetadata_inserts object).accepts metadata four
  obtain ⟨_, tools⟩ := (copyTools_inserts object).accepts (map_eq_ok.mpr ⟨pair, tools, rfl⟩) five
  obtain ⟨six, tools, -⟩ := map_eq_ok.mp tools
  obtain ⟨seven, choice⟩ := (copyToolChoice_inserts object).accepts choice six.1
  obtain ⟨eight, config⟩ := (copyOutputConfig_inserts object).accepts config seven
  obtain ⟨nine, format⟩ := (copyOutputFormat_inserts _).accepts format eight
  exact ⟨_, bind_eq_ok.mpr ⟨one, temperature, bind_eq_ok.mpr ⟨two, topP,
    bind_eq_ok.mpr ⟨three, topK, bind_eq_ok.mpr ⟨four, stop, bind_eq_ok.mpr ⟨five, metadata,
    bind_eq_ok.mpr ⟨six, tools, bind_eq_ok.mpr ⟨seven, choice, bind_eq_ok.mpr ⟨eight, config,
    bind_eq_ok.mpr ⟨nine, format, rfl⟩⟩⟩⟩⟩⟩⟩⟩⟩⟩

theorem copySettings_congr {object other : Map}
    (same : ∀ name, name ≠ "system" → name ≠ "messages" → object.get name = other.get name)
    (stream : Bool) (output : Map) :
    copySettings object stream output = copySettings other stream output := by
  simp only [copySettings, copyNumber, copyPositiveInteger, copyStopSequences, copyMetadata,
    copyTools, copyToolChoice, copyOutputConfig, same "temperature" (by decide) (by decide),
    same "top_p" (by decide) (by decide), same "top_k" (by decide) (by decide),
    same "stop_sequences" (by decide) (by decide), same "metadata" (by decide) (by decide),
    same "tools" (by decide) (by decide), same "tool_choice" (by decide) (by decide),
    same "output_config" (by decide) (by decide), same "output_format" (by decide) (by decide)]

end Settings

end ClineProxy
