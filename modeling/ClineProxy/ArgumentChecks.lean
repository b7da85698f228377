import ClineProxy.CanonicalChecks
import ClineProxy.PassthroughChecks
import ClineProxy.SerdeNumbers

/-! What making tool arguments canonical keeps of them. -/

namespace ClineProxy

open Json
open JsonGrammar (Document JsonTree decimal)

/-- What a text denotes: its document up to the order of members, with the exact values of its
numbers. -/
def denoted (text : String) : Option (JsonTree (Option ℚ)) :=
  (JsonGrammar.readDocument text.toList).map fun document => (document.map decimal).sorted

def SameDocument (before after : String) : Prop :=
  (denoted before).isSome ∧ denoted after = denoted before

def canonicalText (codec : Codec) (text : String) : String :=
  (rewrittenArguments codec text).getD text

theorem canonicalText_eq {codec : Codec} {text : String} : canonicalText codec text =
    match codec.fromStr text with
    | none => text
    | some value => canonicalJsonString codec value := by
  rw [canonicalText, rewrittenArguments]
  cases codec.fromStr text with
  | none => rfl
  | some value =>
      dsimp only
      split
      next same => exact same.symm
      next => rfl

variable {floats : Floats} {bound : Nat} {codec : Codec}

/-- A document whose canonical text denotes it and is canonical itself. -/
structure Kept (floats : Floats) (document : Document) : Prop where
  distinct : document.Distinct
  sameValue : ∀ literal ∈ document.numbers, ∀ bits,
    readNumber floats literal = some (.float bits) →
      decimal (floats.write bits) = decimal literal
  settled : (∀ literal ∈ document.numbers,
      (readNumber floats (floats.numbers.again literal)).isSome) →
    ∀ literal ∈ document.numbers,
      floats.numbers.again (floats.numbers.again literal) = floats.numbers.again literal

section Documents

variable (follows : FollowsGrammar floats.numbers bound codec) (written : floats.Written)
  {text : String} {document : Document} {value : Value}
  (read : JsonGrammar.readDocument text.toList = some document)
  (made : ofDocument floats.numbers document = some value)

include follows written made

theorem readDocument_rewritten :
    JsonGrammar.readDocument (canonicalJsonString codec value).toList =
      some (value.document floats.numbers).sorted :=
  readDocument_canonical follows (literals_document (writes_read written) value
    (everyNumber_ofDocument (fun literal _ found => ⟨literal, found⟩) document made))

include read

theorem sameDocument_iff : SameDocument text (canonicalJsonString codec value) ↔
    document.Distinct ∧ ∀ literal ∈ document.numbers,
      decimal (floats.numbers.again literal) = decimal literal := by
  have before : denoted text = some (document.map decimal).sorted := by
    rw [denoted, read, Option.map_some]
  have after : denoted (canonicalJsonString codec value) =
      some (((value.document floats.numbers).sorted).map decimal).sorted := by
    rw [denoted, readDocument_rewritten follows written made, Option.map_some]
  rw [SameDocument, before, after, Option.some.injEq, JsonTree.sorted_map, JsonTree.sorted_map,
    JsonTree.sorted_sorted]
  have numbers (distinct : document.Distinct) :
      (value.document floats.numbers).sorted.map decimal = document.sorted.map decimal ↔
        ∀ literal ∈ document.numbers,
          decimal (floats.numbers.again literal) = decimal literal := by
    rw [document_ofDocument floats.numbers document made distinct, JsonTree.sorted_map,
      JsonTree.map_map, JsonTree.map_eq_map_iff]
    exact forall_congr' fun literal =>
      imp_congr_left (JsonTree.mem_numbers_sorted document)
  constructor
  · rintro ⟨_, same⟩
    have sizes := congrArg JsonTree.size same
    rw [JsonTree.size_map, JsonTree.size_map, JsonTree.size_sorted, JsonTree.size_sorted] at sizes
    have distinct := (size_ofDocument floats.numbers document made).2 (le_of_eq sizes.symm)
    exact ⟨distinct, (numbers distinct).mp same⟩
  · rintro ⟨distinct, same⟩
    exact ⟨rfl, (numbers distinct).mpr same⟩

omit read in
theorem canonicalText_steady_iff (distinct : document.Distinct)
    (within : document.depth ≤ bound) :
    canonicalText codec (canonicalJsonString codec value) = canonicalJsonString codec value ↔
      ((∀ literal ∈ document.numbers,
          (readNumber floats (floats.numbers.again literal)).isSome) →
        ∀ literal ∈ document.numbers,
          floats.numbers.again (floats.numbers.again literal) = floats.numbers.again literal) := by
  have kept := document_ofDocument floats.numbers document made distinct
  have again : (value.document floats.numbers).sorted = document.sorted.map floats.numbers.again :=
    by rw [kept, JsonTree.sorted_map]
  have nested : (value.document floats.numbers).sorted.depth ≤ bound := by
    rw [kept]
    exact JsonTree.depth_sorted_le (JsonTree.depth_map_le _ within)
  have second : codec.fromStr (canonicalJsonString codec value) =
      ofDocument floats.numbers (value.document floats.numbers).sorted := by
    rw [follows.fromStr, readDocument_rewritten follows written made, Option.bind_some,
      if_pos nested]
  have inside {holds : List Char → Prop} :
      (∀ literal ∈ (value.document floats.numbers).sorted.numbers, holds literal) ↔
        ∀ literal ∈ document.numbers, holds (floats.numbers.again literal) := by
    simp only [again, JsonTree.mem_numbers_map, JsonTree.mem_numbers_sorted]
    exact ⟨fun every literal held => every _ ⟨literal, held, rfl⟩,
      fun every _ ⟨literal, held, same⟩ => same ▸ every literal held⟩
  have readable := @isSome_ofDocument floats.numbers
    (value.document floats.numbers).sorted
  rw [inside] at readable
  rw [canonicalText_eq, second]
  cases reread : ofDocument floats.numbers (value.document floats.numbers).sorted with
  | none =>
      rw [reread] at readable
      refine iff_of_true rfl fun every => ?_
      cases readable.mpr every
  | some other =>
      rw [reread] at readable
      have sorted : (value.document floats.numbers).sorted.Distinct := by
        rw [again]
        exact distinct.sorted.map _
      have equal : canonicalJsonString codec other = canonicalJsonString codec value ↔
          (value.document floats.numbers).sorted.map floats.numbers.again =
            (value.document floats.numbers).sorted := by
        rw [← JsonTree.sorted_sorted (value.document floats.numbers), ← JsonTree.sorted_map,
          JsonTree.sorted_sorted, ← document_ofDocument floats.numbers _ reread sorted]
        constructor
        · intro same
          have first := readDocument_rewritten follows written reread
          rw [same, readDocument_rewritten follows written made] at first
          exact (Option.some.inj first).symm
        · intro same
          rw [← String.toList_inj, canonical_toList follows, canonical_toList follows, same]
      rw [equal, JsonTree.map_id_iff, inside]
      exact ⟨fun settled _ => settled, fun settled => settled (readable.mp rfl)⟩

theorem kept_iff (within : document.depth ≤ bound) : Kept floats document ↔
    SameDocument text (canonicalJsonString codec value) ∧
      canonicalText codec (canonicalJsonString codec value) = canonicalJsonString codec value := by
  have readable : ∀ literal ∈ document.numbers, (readNumber floats literal).isSome :=
    (@isSome_ofDocument floats.numbers document).mp (by rw [made]; rfl)
  have values : (∀ literal ∈ document.numbers,
        decimal (floats.numbers.again literal) = decimal literal) ↔
      ∀ literal ∈ document.numbers, ∀ bits, readNumber floats literal = some (.float bits) →
        decimal (floats.write bits) = decimal literal := by
    refine forall₂_congr fun literal held => ?_
    obtain ⟨number, found⟩ := Option.isSome_iff_exists.mp (readable literal held)
    have again : floats.numbers.again literal = writeNumber floats number := by
      rw [NumberCoding.again, show floats.numbers.read literal = some number from found]
      rfl
    rw [again, decimal_again floats found, found]
    simp only [Option.some.injEq]
  rw [sameDocument_iff follows written read made, values]
  constructor
  · intro kept
    exact ⟨⟨kept.distinct, kept.sameValue⟩, (canonicalText_steady_iff follows written made
      kept.distinct within).mpr kept.settled⟩
  · rintro ⟨⟨distinct, same⟩, steady⟩
    exact ⟨distinct, same,
      (canonicalText_steady_iff follows written made distinct within).mp steady⟩

end Documents

/-! Where the arguments stand -/

namespace ToolArguments

def messagesOf (object : Map) : Option (List Value) :=
  (object.get "messages").bind Value.asArray

def toolCallsOf (message : Value) : Option (List Value) :=
  (message.get "tool_calls").bind Value.asArray

def argumentsOf (call : Value) : Option String :=
  (call.get "function").bind fun function => (function.get "arguments").bind Value.asStr

def argumentsIn (object : Map) (index call : Nat) : Option String :=
  (messagesOf object).bind fun messages => messages[index]?.bind fun message =>
    (toolCallsOf message).bind fun calls => calls[call]?.bind argumentsOf

/-- An assistant message that a user or tool message follows. -/
def historical (object : Map) (index : Nat) : Bool :=
  match messagesOf object with
  | none => false
  | some messages =>
      messages[index]?.any (fun message => role message == some "assistant") &&
        (messages.drop (index + 1)).any isAction

theorem historical_eq {object : Map} {messages : List Value} {index : Nat} {message : Value}
    (given : messagesOf object = some messages) (there : messages[index]? = some message) :
    historical object index = (role message == some "assistant" &&
      (messages.drop (index + 1)).any isAction) := by
  rw [historical, given]
  dsimp only
  rw [there, Option.any_some]

def mapText (change : String → String) : Value → Value
  | .string text => .string (change text)
  | value => value

def mapCallArguments (change : String → String) (call : Value) : Value :=
  call.update "function" (Value.update "arguments" (mapText change))

def mapMessageArguments (change : String → String) (message : Value) : Value :=
  message.update "tool_calls" (Value.mapArray (List.map (mapCallArguments change)))

def mapArguments (change : Nat → String → String) (object : Map) : Map :=
  object.update "messages"
    (Value.mapArray (List.mapIdx fun index => mapMessageArguments (change index)))

section Changes

variable (change : String → String)

theorem asStr_mapText (value : Value) : (mapText change value).asStr = value.asStr.map change := by
  cases value <;> rfl

theorem argumentsOf_map (call : Value) :
    argumentsOf (mapCallArguments change call) = (argumentsOf call).map change := by
  rw [argumentsOf, argumentsOf, mapCallArguments, Value.get_update, if_pos rfl, Option.bind_map,
    Option.map_bind]
  refine congrArg (Option.bind _) (funext fun function => ?_)
  dsimp only [Function.comp_apply]
  rw [Value.get_update, if_pos rfl, Option.bind_map, Option.map_bind]
  exact congrArg (Option.bind _) (funext (asStr_mapText change))

theorem toolCallsOf_map (message : Value) : toolCallsOf (mapMessageArguments change message) =
    (toolCallsOf message).map (List.map (mapCallArguments change)) := by
  rw [toolCallsOf, toolCallsOf, mapMessageArguments, Value.get_update, if_pos rfl, Option.bind_map,
    Option.map_bind]
  exact congrArg (Option.bind _) (funext (Value.asArray_mapArray _))

theorem role_map (message : Value) : role (mapMessageArguments change message) = role message := by
  rw [role, mapMessageArguments, Value.get_update, if_neg (by decide)]
  rfl

end Changes

section Bodies

variable (change : Nat → String → String) (object : Map)

theorem messagesOf_map : messagesOf (mapArguments change object) =
    (messagesOf object).map (List.mapIdx fun index => mapMessageArguments (change index)) := by
  rw [messagesOf, messagesOf, mapArguments, Map.get_update, if_pos rfl, Option.bind_map,
    Option.map_bind]
  exact congrArg (Option.bind _) (funext (Value.asArray_mapArray _))

theorem argumentsIn_map (index call : Nat) : argumentsIn (mapArguments change object) index call =
    (argumentsIn object index call).map (change index) := by
  rw [argumentsIn, argumentsIn, messagesOf_map, Option.bind_map, Option.map_bind]
  refine congrArg (Option.bind _) (funext fun messages => ?_)
  dsimp only [Function.comp_apply]
  rw [List.getElem?_mapIdx, Option.bind_map, Option.map_bind]
  refine congrArg (Option.bind _) (funext fun message => ?_)
  dsimp only [Function.comp_apply]
  rw [toolCallsOf_map, Option.bind_map, Option.map_bind]
  refine congrArg (Option.bind _) (funext fun calls => ?_)
  dsimp only [Function.comp_apply]
  rw [List.getElem?_map, Option.bind_map, Option.map_bind]
  exact congrArg (Option.bind _) (funext (argumentsOf_map (change index)))

theorem any_drop_iff {Item : Type} {wanted : Item → Bool} {items : List Item} {start : Nat} :
    (items.drop start).any wanted = true ↔
      ∃ offset item, items[start + offset]? = some item ∧ wanted item = true := by
  rw [List.any_eq_true]
  constructor
  · rintro ⟨item, member, held⟩
    obtain ⟨offset, there⟩ := List.mem_iff_getElem?.mp member
    exact ⟨offset, item, List.getElem?_drop ▸ there, held⟩
  · rintro ⟨offset, item, there, held⟩
    exact ⟨item, List.mem_iff_getElem?.mpr ⟨offset, List.getElem?_drop ▸ there⟩, held⟩

theorem historical_map (index : Nat) :
    historical (mapArguments change object) index = historical object index := by
  rw [historical, historical, messagesOf_map]
  cases messagesOf object with
  | none => rfl
  | some messages =>
      have actions : ((messages.mapIdx fun index => mapMessageArguments (change index)).drop
          (index + 1)).any isAction = (messages.drop (index + 1)).any isAction := by
        rw [Bool.eq_iff_iff, any_drop_iff, any_drop_iff]
        simp only [List.getElem?_mapIdx, Option.map_eq_some_iff]
        constructor
        · rintro ⟨offset, _, ⟨message, there, rfl⟩, action⟩
          rw [isAction, role_map, ← isAction] at action
          exact ⟨offset, message, there, action⟩
        · rintro ⟨offset, message, there, action⟩
          refine ⟨offset, _, ⟨message, there, rfl⟩, ?_⟩
          rw [isAction, role_map, ← isAction]
          exact action
      rw [Option.map_some]
      dsimp only
      rw [List.getElem?_mapIdx, actions]
      cases messages[index]? with
      | none => rfl
      | some message =>
          simp only [Option.map_some, Option.any_some]
          rw [role_map]

end Bodies

theorem mapCallArguments_congr {change other : String → String} {call : Value}
    (same : ∀ text, argumentsOf call = some text → change text = other text) :
    mapCallArguments change call = mapCallArguments other call := by
  refine Value.update_congr fun function found => Value.update_congr fun held given => ?_
  cases held with
  | string text =>
      refine congrArg Value.string (same text ?_)
      rw [argumentsOf, found, Option.bind_some, given]
      rfl
  | null | bool | number | array | object => rfl

theorem mapMessageArguments_congr {change other : String → String} {message : Value}
    (same : ∀ calls call text, toolCallsOf message = some calls → call ∈ calls →
      argumentsOf call = some text → change text = other text) :
    mapMessageArguments change message = mapMessageArguments other message := by
  refine Value.update_congr fun held found => Value.mapArray_congr fun calls array => ?_
  have given : toolCallsOf message = some calls := by
    rw [toolCallsOf, found, array]
    rfl
  exact List.map_congr_left fun call member =>
    mapCallArguments_congr fun text => same calls call text given member

theorem mapArguments_congr {change other : Nat → String → String} {object : Map}
    (same : ∀ index call text, argumentsIn object index call = some text →
      change index text = other index text) :
    mapArguments change object = mapArguments other object := by
  refine Map.update_congr fun held found => Value.mapArray_congr fun messages array => ?_
  have given : messagesOf object = some messages := by
    rw [messagesOf, found, array]
    rfl
  refine List.ext_getElem? fun index => ?_
  rw [List.getElem?_mapIdx, List.getElem?_mapIdx]
  refine Option.map_congr fun message there => ?_
  refine mapMessageArguments_congr fun calls call text inMessage member found => ?_
  obtain ⟨place, stands⟩ := List.mem_iff_getElem?.mp member
  refine same index place text ?_
  rw [argumentsIn, given, Option.bind_some, there, Option.bind_some, inMessage, Option.bind_some,
    stands, Option.bind_some, found]

theorem mapText_mapText (change again : String → String) :
    mapText again ∘ mapText change = mapText (again ∘ change) := by
  funext value
  cases value <;> rfl

theorem mapCallArguments_mapCallArguments (change again : String → String) (call : Value) :
    mapCallArguments again (mapCallArguments change call) =
      mapCallArguments (again ∘ change) call := by
  rw [mapCallArguments, mapCallArguments, Value.update_update]
  refine Value.update_congr fun function _ => ?_
  rw [Function.comp_apply, Value.update_update, mapText_mapText]

theorem mapMessageArguments_mapMessageArguments (change again : String → String)
    (message : Value) : mapMessageArguments again (mapMessageArguments change message) =
      mapMessageArguments (again ∘ change) message := by
  rw [mapMessageArguments, mapMessageArguments, Value.update_update]
  refine Value.update_congr fun held _ => ?_
  rw [Function.comp_apply, Value.mapArray_mapArray]
  refine Value.mapArray_congr fun calls _ => ?_
  rw [Function.comp_apply, List.map_map]
  exact List.map_congr_left fun call _ => mapCallArguments_mapCallArguments change again call

theorem mapArguments_mapArguments (change again : Nat → String → String) (object : Map) :
    mapArguments again (mapArguments change object) =
      mapArguments (fun index => again index ∘ change index) object := by
  rw [mapArguments, mapArguments, Map.update_update]
  refine Map.update_congr fun held _ => ?_
  rw [Function.comp_apply, Value.mapArray_mapArray]
  refine Value.mapArray_congr fun messages _ => ?_
  rw [Function.comp_apply, List.mapIdx_mapIdx]
  refine List.ext_getElem? fun index => ?_
  rw [List.getElem?_mapIdx, List.getElem?_mapIdx]
  exact Option.map_congr fun message _ =>
    mapMessageArguments_mapMessageArguments (change index) (again index) message

theorem mapMessageArguments_id (message : Value) : mapMessageArguments id message = message := by
  refine Value.update_eq_self.mpr fun held _ => Value.mapArray_eq_self.mpr fun calls _ => ?_
  refine map_eq_self.mpr fun call _ => Value.update_eq_self.mpr fun function _ =>
    Value.update_eq_self.mpr fun held _ => ?_
  cases held <;> rfl

def historyChange (codec : Codec) (object : Map) (index : Nat) : String → String :=
  if historical object index then canonicalText codec else id

theorem canonicalizeFunction_eq (codec : Codec) (function : Map) :
    canonicalizeFunction codec function =
      function.update "arguments" (mapText (canonicalText codec)) := by
  rw [canonicalizeFunction]
  split
  next absent =>
    refine (Map.update_eq_self.mpr fun held found => ?_).symm
    rw [found, Option.bind_some] at absent
    cases held with
    | string => cases absent
    | null | bool | number | array | object => rfl
  next arguments known =>
    obtain ⟨held, found, text⟩ := Option.bind_eq_some_iff.mp known
    obtain rfl := Value.asStr_eq_some text
    split
    next steady =>
      refine (Map.update_eq_self.mpr fun held given => ?_).symm
      obtain rfl := Option.some.inj (found.symm.trans given)
      rw [mapText, canonicalText, steady, Option.getD_none]
    next canonical rewritten =>
      rw [Map.insert_eq_update found]
      refine Map.update_congr fun held given => ?_
      obtain rfl := Option.some.inj (found.symm.trans given)
      rw [mapText, canonicalText, rewritten, Option.getD_some]

theorem canonicalizeCalls_eq (codec : Codec) (message : Value) :
    canonicalizeCalls codec message = mapMessageArguments (canonicalText codec) message := by
  refine Value.update_congr fun held _ => Value.mapArray_congr fun calls _ => ?_
  refine List.map_congr_left fun call _ => Value.update_congr fun function _ => ?_
  cases function with
  | object fields => exact congrArg Value.object (canonicalizeFunction_eq codec fields)
  | null | bool | number | string | array => rfl

theorem canonicalizeToolArguments_eq (codec : Codec) (object : Map) :
    canonicalizeToolArguments codec object =
      mapArguments (historyChange codec object) object := by
  refine Map.update_congr fun held found => Value.mapArray_congr fun messages array => ?_
  have given : messagesOf object = some messages := by
    rw [messagesOf, found, array]
    rfl
  have change (index : Nat) (message : Value) (there : messages[index]? = some message) :
      historyChange codec object index =
        if role message = some "assistant" ∧ (messages.drop (index + 1)).any isAction = true then
          canonicalText codec else id := by
    simp only [historyChange, historical_eq given there, Bool.and_eq_true, beq_iff_eq]
  refine List.ext_getElem? fun index => ?_
  have ahead := @Positions.lt_rposition_iff _ isAction messages index
  rw [List.getElem?_mapIdx, canonicalizeMessages]
  split
  next absent =>
    cases there : messages[index]? with
    | none => rfl
    | some message =>
        rw [absent] at ahead
        rw [Option.map_some, change index message there, if_neg, mapMessageArguments_id]
        rintro ⟨_, action⟩
        obtain ⟨_, none_, _⟩ := ahead.mpr action
        cases none_
  next last action =>
    rw [List.getElem?_mapIdx]
    refine Option.map_congr fun message there => ?_
    simp only [action, Option.some.injEq, exists_eq_left'] at ahead
    rw [change index message there, canonicalizeMessage]
    split
    next history =>
      rw [if_pos ⟨history.1, ahead.mp history.2⟩]
      exact canonicalizeCalls_eq codec message
    next current =>
      rw [if_neg fun history => current ⟨history.1, ahead.mpr history.2⟩]
      exact (mapMessageArguments_id message).symm

end ToolArguments

open ToolArguments

structure MeaningKept (codec : Codec) (object : Map) : Prop where
  /-- What is rewritten denotes the same document. -/
  sameDocument : ∀ index call before after, argumentsIn object index call = some before →
    argumentsIn (canonicalizeToolArguments codec object) index call = some after →
      after ≠ before → SameDocument before after
  /-- What is no JSON is left. -/
  noJson : ∀ index call text, argumentsIn object index call = some text →
    codec.fromStr text = none →
      argumentsIn (canonicalizeToolArguments codec object) index call = some text
  /-- Only arguments of messages before the last user or tool message are changed. -/
  history : ∃ change : Nat → String → String,
    canonicalizeToolArguments codec object = mapArguments change object ∧
      ∀ index, historical object index = false → change index = id
  settled : canonicalizeToolArguments codec (canonicalizeToolArguments codec object) =
    canonicalizeToolArguments codec object

section Bodies

variable {floats : Floats} {bound : Nat} {codec : Codec}

theorem argumentsIn_canonicalize (codec : Codec) (object : Map) (index call : Nat) :
    argumentsIn (canonicalizeToolArguments codec object) index call =
      (argumentsIn object index call).map (historyChange codec object index) := by
  rw [canonicalizeToolArguments_eq, argumentsIn_map]

theorem canonicalize_twice_iff {object : Map} :
    canonicalizeToolArguments codec (canonicalizeToolArguments codec object) =
        canonicalizeToolArguments codec object ↔
      ∀ index call text, historical object index = true →
        argumentsIn object index call = some text →
          canonicalText codec (canonicalText codec text) = canonicalText codec text := by
  have change : historyChange codec (canonicalizeToolArguments codec object) =
      historyChange codec object := by
    funext index
    rw [historyChange, canonicalizeToolArguments_eq, historical_map, historyChange]
  have twice : canonicalizeToolArguments codec (canonicalizeToolArguments codec object) =
      mapArguments (fun index =>
        historyChange codec object index ∘ historyChange codec object index) object := by
    rw [canonicalizeToolArguments_eq, change, canonicalizeToolArguments_eq,
      mapArguments_mapArguments]
  rw [twice, canonicalizeToolArguments_eq]
  constructor
  · intro same index call text history found
    have here := congrArg (fun object => argumentsIn object index call) same
    rw [argumentsIn_map, argumentsIn_map, found, historyChange, if_pos history] at here
    exact Option.some.inj here
  · intro steady
    refine mapArguments_congr fun index call text found => ?_
    rw [historyChange]
    split
    next history => exact steady index call text history found
    next => rfl

/-- Canonical arguments mean what the arguments meant exactly when no object of theirs names a
member twice, every number is an integer of 64 bits or a float that is written with its exact
value, and what is written is read as what is written so again. -/
theorem arguments_kept (follows : FollowsGrammar floats.numbers bound codec)
    (written : floats.Written) (object : Map) : MeaningKept codec object ↔
    ∀ index call text document, historical object index = true →
      argumentsIn object index call = some text → (codec.fromStr text).isSome = true →
      JsonGrammar.readDocument text.toList = some document → Kept floats document := by
  have changed {index : Nat} (history : historical object index = true) :
      historyChange codec object index = canonicalText codec := by
    rw [historyChange, if_pos history]
  constructor
  · intro kept index call text document history found accepted read
    obtain ⟨value, parsed⟩ := Option.isSome_iff_exists.mp accepted
    obtain ⟨document_, read_, within, made⟩ := follows.parsed parsed
    obtain rfl := Option.some.inj (read.symm.trans read_)
    have after : canonicalText codec text = canonicalJsonString codec value := by
      rw [canonicalText_eq, parsed]
    rw [kept_iff follows written read made within, ← after]
    refine ⟨?_, canonicalize_twice_iff.mp kept.settled index call text history found⟩
    have stands : argumentsIn (canonicalizeToolArguments codec object) index call =
        some (canonicalText codec text) := by
      rw [argumentsIn_canonicalize, found, changed history, Option.map_some]
    by_cases same : canonicalText codec text = text
    · rw [same]
      refine ⟨?_, rfl⟩
      rw [denoted, read]
      rfl
    · exact kept.sameDocument index call text _ found stands same
  · intro kept
    have texts {index call : Nat} {text : String} {value : Value}
        (history : historical object index = true)
        (found : argumentsIn object index call = some text)
        (parsed : codec.fromStr text = some value) :
        SameDocument text (canonicalText codec text) ∧
          canonicalText codec (canonicalText codec text) = canonicalText codec text := by
      obtain ⟨document, read, within, made⟩ := follows.parsed parsed
      have here := kept index call text document history found (by rw [parsed]; rfl) read
      have after : canonicalText codec text = canonicalJsonString codec value := by
        rw [canonicalText_eq, parsed]
      rw [after]
      exact (kept_iff follows written read made within).mp here
    have otherText {text : String} (none_ : codec.fromStr text = none) :
        canonicalText codec text = text := by
      rw [canonicalText_eq, none_]
    refine ⟨?_, ?_, ⟨historyChange codec object,
      canonicalizeToolArguments_eq codec object, ?_⟩, ?_⟩
    · intro index call before after found stands rewritten
      rw [argumentsIn_canonicalize, found, Option.map_some, Option.some.injEq,
        historyChange] at stands
      split at stands
      next history =>
        subst stands
        cases parsed : codec.fromStr before with
        | none => exact absurd (otherText parsed) rewritten
        | some value => exact (texts history found parsed).1
      next => exact absurd stands.symm rewritten
    · intro index call text found none_
      rw [argumentsIn_canonicalize, found, Option.map_some, historyChange]
      split
      next => rw [otherText none_]
      next => rfl
    · intro index current
      rw [historyChange, current]
      rfl
    · refine canonicalize_twice_iff.mpr fun index call text history found => ?_
      cases parsed : codec.fromStr text with
      | none => rw [otherText parsed, otherText parsed]
      | some value => exact (texts history found parsed).2

end Bodies

def longNumber : Floats where
  write _ := "1.2345678901234568e+22".toList
  read literal :=
    if literal = "12345678901234567890123".toList ∨ literal = "1.2345678901234568e+22".toList then
      some 0x4484ea15b273b38a
    else none

def oneCall (arguments : String) : Map :=
  [("messages", .array [.object [("role", .string "assistant"), ("tool_calls", .array [
      .object [("function", .object [("arguments", .string arguments)])]])],
    .object [("role", .string "user")]])]

def movedDocument : Document :=
  .object [("b", .number ['1']), ("a", .array [.number ['2']])]

theorem argumentsIn_oneCall {arguments text : String} {index call : Nat}
    (found : argumentsIn (oneCall arguments) index call = some text) : text = arguments := by
  match index, call with
  | 0, 0 => exact (Option.some.inj found).symm
  | 0, _ + 1 | 1, _ | _ + 2, _ => cases found

theorem arguments_kept_moved : MeaningKept (grammarCodec longNumber.numbers 127)
    (oneCall "\x7b\"b\":1,\"a\":[2]\x7d") := by
  have written : longNumber.Written := fun _ _ _ =>
    (by decide +kernel : JsonGrammar.isNumber "1.2345678901234568e+22".toList = true)
  refine (arguments_kept (follows_grammarCodec _ _) written _).mpr ?_
  intro index call text document _ found _ read
  obtain rfl := argumentsIn_oneCall found
  have literals : JsonGrammar.Literals movedDocument :=
    ⟨(by decide +kernel : JsonGrammar.isNumber ['1'] = true),
      ⟨(by decide +kernel : JsonGrammar.isNumber ['2'] = true), trivial⟩, trivial⟩
  have known : JsonGrammar.readDocument "\x7b\"b\":1,\"a\":[2]\x7d".toList = some movedDocument :=
    JsonGrammar.readDocument_write literals
  obtain rfl := Option.some.inj (known.symm.trans read)
  have numbers : JsonTree.numbers movedDocument = [['1'], ['2']] := rfl
  have whole : ∀ literal ∈ JsonTree.numbers movedDocument,
      longNumber.numbers.again literal = literal := by
    rw [numbers, List.forall_mem_cons, List.forall_mem_singleton]
    exact ⟨by decide +kernel, by decide +kernel⟩
  refine ⟨⟨by decide, trivial, ⟨trivial, trivial⟩, trivial⟩, ?_, ?_⟩
  · rw [numbers, List.forall_mem_cons, List.forall_mem_singleton]
    have first : readNumber longNumber ['1'] = some (.posInt 1) := by decide +kernel
    have second : readNumber longNumber ['2'] = some (.posInt 2) := by decide +kernel
    refine ⟨fun bits float => ?_, fun bits float => ?_⟩
    · cases first.symm.trans float
    · cases second.symm.trans float
  · intro _ literal held
    rw [whole literal held, whole literal held]

theorem arguments_changed :
    ¬MeaningKept (grammarCodec longNumber.numbers 127)
        (oneCall "\x7b\"n\":12345678901234567890123\x7d") ∧
      ¬MeaningKept (grammarCodec longNumber.numbers 127)
        (oneCall "\x7b\"a\":1,\"a\":2\x7d") := by
  have numbers {before after : String} (same : SameDocument before after) :
      (denoted before).map JsonTree.numbers = (denoted after).map JsonTree.numbers :=
    congrArg (Option.map JsonTree.numbers) same.2.symm
  constructor
  · intro kept
    have same := kept.sameDocument 0 0 _ "\x7b\"n\":1.2345678901234568e+22\x7d" rfl
      (by decide +kernel) (by decide)
    exact absurd (numbers same) (by decide +kernel)
  · intro kept
    have same := kept.sameDocument 0 0 _ "\x7b\"a\":2\x7d" rfl (by decide +kernel) (by decide)
    exact absurd (numbers same) (by decide +kernel)

end ClineProxy
