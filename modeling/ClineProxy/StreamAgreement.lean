import ClineProxy.StreamedMessages
import ClineProxy.TruncationChecks

/-!
Streams whose content comes in order: the message that a client puts together from one is the
message that a client that does not stream is given.
-/

namespace FirstSeen

universe u v

variable {Item : Type u} [DecidableEq Item] {Other : Type v} [DecidableEq Other]

theorem filterMap_firstSeen {pick : Item → Option Other}
    (apart : ∀ first second other, pick first = some other → pick second = some other →
      first = second) (items : List Item) :
    (firstSeen items).filterMap pick = firstSeen (items.filterMap pick) := by
  induction items using List.reverseRecOn with
  | nil => rfl
  | append_singleton items item ih =>
      rw [firstSeen_append, List.filterMap_append, addNew]
      cases picked : pick item with
      | none =>
          rw [List.filterMap_cons_none picked, List.filterMap_nil, List.append_nil, ← ih]
          split
          next => rfl
          next => rw [List.filterMap_append, List.filterMap_cons_none picked, List.filterMap_nil,
            List.append_nil]
      | some other =>
          rw [List.filterMap_cons_some picked, List.filterMap_nil, firstSeen_append, ← ih, addNew]
          have same : item ∈ firstSeen items ↔ other ∈ (firstSeen items).filterMap pick := by
            rw [List.mem_filterMap]
            constructor
            · exact fun member => ⟨item, member, picked⟩
            · rintro ⟨held, member, pickedHeld⟩
              rwa [apart item held other picked pickedHeld]
          by_cases member : item ∈ firstSeen items
          · rw [if_pos member, if_pos (same.mp member)]
          · rw [if_neg member, if_neg fun held => member (same.mpr held), List.filterMap_append,
              List.filterMap_cons_some picked, List.filterMap_nil]

end FirstSeen

namespace ClineProxy

open Json FirstSeen OpenedBlocks
open StreamState (fragmentCalls fragmentCalls_chunk)

theorem fragmentCalls_stream (exposeThinking : Bool) (values : List Value) :
    fragmentCalls (streamFragments exposeThinking values) = allCalls values := by
  rw [fragmentCalls, streamFragments, List.filterMap_flatMap, allCalls]
  exact congrArg (fun calls => values.flatMap calls)
    (funext fun value => fragmentCalls_chunk exposeThinking value)

theorem addedText_append (key : BlockKey) (first second : List Fragment) :
    addedText key (first ++ second) = addedText key first ++ addedText key second := by
  simp [addedText, String.join_append]

theorem addedText_calls (key : BlockKey) (calls : List Value) :
    addedText key (calls.map .call) =
      match key with
      | .tool index => argumentsAt index calls
      | _ => "" := by
  induction calls with
  | nil => cases key <;> rfl
  | cons call rest ih =>
      rw [List.map_cons, addedText, List.map_cons, String.join_cons, ← addedText, ih]
      cases key with
      | thinking => rfl
      | text => rfl
      | tool index =>
          by_cases same : toolCallIndex call = index
          · simp [Fragment.adds, same, argumentsAt, callsAt, String.join_cons]
          · simp [Fragment.adds, Ne.symm same, same, argumentsAt, callsAt]

theorem addedText_chunk (exposeThinking : Bool) (key : BlockKey) (value : Value) :
    addedText key (chunkFragments exposeThinking value) =
      match key with
      | .thinking => if exposeThinking then chunkReasoning value else ""
      | .text => chunkText value
      | .tool index => argumentsAt index (chunkCalls value) := by
  rw [chunkFragments, addedText_append, addedText_append, addedText_calls]
  have reasoning : addedText key (if (chunkReasoning value).isEmpty || !exposeThinking then []
      else [.reasoning (chunkReasoning value)]) =
        if key = .thinking ∧ exposeThinking = true then chunkReasoning value else "" := by
    cases exposeThinking <;> by_cases silent : (chunkReasoning value).isEmpty = true <;>
      simp_all [addedText, Fragment.adds, String.isEmpty_iff]
  have text : addedText key (if (chunkText value).isEmpty then []
      else [.text (chunkText value)]) = if key = .text then chunkText value else "" := by
    by_cases silent : (chunkText value).isEmpty = true <;>
      simp_all [addedText, Fragment.adds, String.isEmpty_iff]
  rw [reasoning, text]
  cases key <;> simp

theorem addedText_stream (exposeThinking : Bool) (key : BlockKey) (values : List Value) :
    addedText key (streamFragments exposeThinking values) =
      match key with
      | .thinking => if exposeThinking then String.join (values.map chunkReasoning) else ""
      | .text => String.join (values.map chunkText)
      | .tool index => argumentsAt index (allCalls values) := by
  induction values with
  | nil => cases key <;> simp [streamFragments, addedText, argumentsAt, allCalls, callsAt]
  | cons value rest ih =>
      have cut : streamFragments exposeThinking (value :: rest) =
          chunkFragments exposeThinking value ++ streamFragments exposeThinking rest := rfl
      rw [cut, addedText_append, ih, addedText_chunk]
      cases key with
      | thinking => cases exposeThinking <;> simp [String.join_cons]
      | text => simp [String.join_cons]
      | tool index =>
          simp [argumentsAt, allCalls, callsAt_append, String.join_append]

theorem mem_chunkFragments {exposeThinking : Bool} {value : Value} {fragment : Fragment} :
    fragment ∈ chunkFragments exposeThinking value ↔
      (fragment = .reasoning (chunkReasoning value) ∧ chunkReasoning value ≠ "" ∧
        exposeThinking = true) ∨
      (fragment = .text (chunkText value) ∧ chunkText value ≠ "") ∨
      ∃ call ∈ chunkCalls value, fragment = .call call := by
  rw [chunkFragments, List.mem_append, List.mem_append, List.mem_map, or_assoc]
  refine or_congr ?_ (or_congr ?_ ?_)
  · by_cases silent : (chunkReasoning value).isEmpty = true <;> cases exposeThinking <;>
      simp_all [String.isEmpty_iff]
  · by_cases silent : (chunkText value).isEmpty = true <;> simp_all [String.isEmpty_iff]
  · exact exists_congr fun call => and_congr_right fun _ => eq_comm

theorem text_opened_iff (exposeThinking : Bool) (values : List Value) :
    .text ∈ openedKeys (streamFragments exposeThinking values) ↔
      String.join (values.map chunkText) ≠ "" := by
  rw [mem_openedKeys, ne_eq, join_eq_empty]
  constructor
  · rintro ⟨fragment, member, opens⟩ silent
    obtain ⟨value, inside, made⟩ := List.mem_flatMap.mp member
    rcases mem_chunkFragments.mp made with ⟨rfl, -⟩ | ⟨rfl, filled⟩ | ⟨call, -, rfl⟩
    · cases opens
    · exact filled.elim (silent _ (List.mem_map_of_mem inside))
    · rw [Fragment.key] at opens
      split at opens <;> cases opens
  · intro speaks
    by_contra none_
    refine speaks fun text member => ?_
    obtain ⟨value, inside, rfl⟩ := List.mem_map.mp member
    by_contra filled
    exact none_ ⟨.text (chunkText value), List.mem_flatMap.mpr ⟨value, inside,
      mem_chunkFragments.mpr (.inr (.inl ⟨rfl, filled⟩))⟩, rfl⟩

theorem thinking_opened_iff (exposeThinking : Bool) (values : List Value) :
    .thinking ∈ openedKeys (streamFragments exposeThinking values) ↔
      exposeThinking = true ∧ String.join (values.map chunkReasoning) ≠ "" := by
  rw [mem_openedKeys, ne_eq, join_eq_empty]
  constructor
  · rintro ⟨fragment, member, opens⟩
    obtain ⟨value, inside, made⟩ := List.mem_flatMap.mp member
    rcases mem_chunkFragments.mp made with ⟨rfl, filled, shown⟩ | ⟨rfl, -⟩ | ⟨call, -, rfl⟩
    · exact ⟨shown, fun silent => filled (silent _ (List.mem_map_of_mem inside))⟩
    · cases opens
    · rw [Fragment.key] at opens
      split at opens <;> cases opens
  · rintro ⟨shown, speaks⟩
    by_contra none_
    refine speaks fun text member => ?_
    obtain ⟨value, inside, rfl⟩ := List.mem_map.mp member
    by_contra filled
    exact none_ ⟨.reasoning (chunkReasoning value), List.mem_flatMap.mpr ⟨value, inside,
      mem_chunkFragments.mpr (.inl ⟨rfl, filled, shown⟩)⟩, rfl⟩

/-- The first part of every call brings its id and its name. -/
def NamedFirst (calls : List Value) : Prop :=
  ∀ index first rest, callsAt index calls = first :: rest →
    (toolCallId first).isSome = true ∧ (toolCallName first).isSome = true

theorem namedFirst_iff {calls : List Value} : NamedFirst calls ↔
    ∀ index ∈ seenIndexes calls, ∀ first ∈ (callsAt index calls).head?,
      (toolCallId first).isSome = true ∧ (toolCallName first).isSome = true := by
  constructor
  · intro named index _ first leads
    obtain ⟨rest, found⟩ := List.head?_eq_some_iff.mp (Option.mem_def.mp leads)
    exact named index first rest found
  · intro all index first rest found
    refine all index (mem_seenIndexes.mpr ?_) first (by rw [found]; rfl)
    rw [found]
    exact List.cons_ne_nil first rest

-- the indexes that occur are tried, not all there are
instance (calls : List Value) : Decidable (NamedFirst calls) :=
  @decidable_of_iff' _ _ namedFirst_iff (List.decidableBAll _ _)

theorem callShows_of_named {call : Value} (named : (toolCallName call).isSome = true) :
    callShows call = true := by
  rw [callShows, named]
  rfl

theorem NamedFirst.init {calls : List Value} {last : Value} (named : NamedFirst (calls ++ [last])) :
    NamedFirst calls := by
  intro index first rest found
  refine named index first (rest ++ callsAt index [last]) ?_
  rw [callsAt_append, found, List.cons_append]

theorem seenIndexes_shown {calls : List Value} (named : NamedFirst calls) :
    firstSeen ((calls.filter callShows).map toolCallIndex) = seenIndexes calls := by
  induction calls using List.reverseRecOn with
  | nil => rfl
  | append_singleton calls call ih =>
      have before := ih named.init
      have all : seenIndexes (calls ++ [call]) =
          addNew (seenIndexes calls) (toolCallIndex call) := by
        rw [seenIndexes, List.map_append, List.map_singleton, firstSeen_append, seenIndexes]
      rw [List.filter_append, all, List.filter_singleton]
      cases shows : callShows call with
      | true =>
          rw [cond_true, List.map_append, List.map_singleton, firstSeen_append, before]
      | false =>
        have known : toolCallIndex call ∈ seenIndexes calls := by
          rw [mem_seenIndexes]
          intro unsaid
          have first : callsAt (toolCallIndex call) (calls ++ [call]) = [call] := by
            rw [callsAt_append, unsaid]
            simp [callsAt]
          rw [callShows_of_named (named _ call [] first).2] at shows
          cases shows
        rw [cond_false, List.append_nil, before, addNew, if_pos known]

def BlockKey.toolIndex : BlockKey → Option UInt64
  | .tool index => some index
  | _ => none

theorem toolIndexes_keys (fragments : List Fragment) :
    (fragments.filterMap Fragment.key).filterMap BlockKey.toolIndex =
      ((fragmentCalls fragments).filter callShows).map toolCallIndex := by
  induction fragments with
  | nil => rfl
  | cons fragment rest ih =>
      cases fragment with
      | reasoning said => exact ih
      | text said => exact ih
      | call call =>
          have calls : fragmentCalls (.call call :: rest) = call :: fragmentCalls rest := rfl
          rw [calls]
          cases shows : callShows call with
          | true =>
              have key : (Fragment.call call).key = some (.tool (toolCallIndex call)) :=
                if_pos shows
              rw [List.filterMap_cons_some key, List.filter_cons_of_pos shows, List.map_cons, ← ih]
              rfl
          | false =>
              have key : (Fragment.call call).key = none := if_neg (by simp [shows])
              rw [List.filterMap_cons_none key, List.filter_cons_of_neg (by simp [shows]), ih]

theorem toolIndexes_opened {fragments : List Fragment}
    (named : NamedFirst (fragmentCalls fragments)) :
    (openedKeys fragments).filterMap BlockKey.toolIndex = seenIndexes (fragmentCalls fragments) := by
  have apart : ∀ first second index, BlockKey.toolIndex first = some index →
      BlockKey.toolIndex second = some index → first = second := by
    intro first second index picked other
    cases first <;> cases second <;> simp_all [BlockKey.toolIndex]
  rw [openedKeys, filterMap_firstSeen apart, toolIndexes_keys, seenIndexes_shown named]

def BlockKey.rank : BlockKey → Nat
  | .thinking => 0
  | .text => 1
  | .tool _ => 2

/-- The thinking is shown before the text and the text before the calls. -/
def ShownInOrder (fragments : List Fragment) : Prop :=
  (openedKeys fragments).Pairwise fun first second => first.rank ≤ second.rank

instance (fragments : List Fragment) : Decidable (ShownInOrder fragments) :=
  inferInstanceAs (Decidable (List.Pairwise _ (openedKeys fragments)))

theorem keys_of_ordered {keys : List BlockKey}
    (ordered : keys.Pairwise fun first second => first.rank ≤ second.rank) :
    keys = keys.filter (· = .thinking) ++ keys.filter (· = .text) ++
      (keys.filterMap BlockKey.toolIndex).map .tool := by
  induction keys with
  | nil => rfl
  | cons key rest ih =>
      obtain ⟨least, ordered⟩ := List.pairwise_cons.mp ordered
      have tail := ih ordered
      have gone : ∀ other : BlockKey, other.rank < key.rank → rest.filter (· = other) = [] := by
        intro other below
        refine List.filter_eq_nil_iff.mpr fun held member => ?_
        rw [decide_eq_true_eq]
        rintro rfl
        exact absurd (least held member) (Nat.not_le.mpr below)
      cases key with
      | thinking =>
          have picked : BlockKey.toolIndex .thinking = none := rfl
          rw [List.filterMap_cons_none picked, List.filter_cons_of_pos (by simp),
            List.filter_cons_of_neg (by simp), List.cons_append, List.cons_append, ← tail]
      | text =>
          have picked : BlockKey.toolIndex .text = none := rfl
          have thought := gone .thinking Nat.zero_lt_one
          rw [thought] at tail
          rw [List.filterMap_cons_none picked, List.filter_cons_of_neg (by simp), thought,
            List.filter_cons_of_pos (by simp), List.nil_append, List.cons_append]
          exact congrArg (BlockKey.text :: ·) tail
      | tool index =>
          have picked : BlockKey.toolIndex (.tool index) = some index := rfl
          have thought := gone .thinking Nat.zero_lt_two
          have said := gone .text Nat.one_lt_two
          rw [thought, said] at tail
          rw [List.filterMap_cons_some picked, List.filter_cons_of_neg (by simp), thought,
            List.filter_cons_of_neg (by simp), said, List.map_cons]
          exact congrArg (BlockKey.tool index :: ·) tail

theorem filter_key {keys : List BlockKey} (distinct : keys.Nodup) (key : BlockKey) :
    keys.filter (· = key) = if key ∈ keys then [key] else [] := by
  rw [List.filter_eq, distinct.count]
  split <;> rfl

section NamedCalls

variable {calls : List Value} (named : NamedFirst calls) {index : UInt64}
include named

theorem usable_of_named (seen : index ∈ seenIndexes calls) : usable calls index = true := by
  obtain ⟨first, rest, found⟩ := List.exists_cons_of_ne_nil (mem_seenIndexes.mp seen)
  obtain ⟨name, given⟩ := Option.isSome_iff_exists.mp (named index first rest found).2
  simp [usable, firstNameAt, found, given]

theorem toolOpened_of_named (codec : Codec) (seen : index ∈ seenIndexes calls) :
    toolBlock (idOr index ((upToShown (callsAt index calls)).reverse.findSome? toolCallId))
      (nameOr (lastName (upToShown (callsAt index calls)))) (callInput codec calls index) =
        aggregatedTool codec calls index := by
  obtain ⟨first, rest, found⟩ := List.exists_cons_of_ne_nil (mem_seenIndexes.mp seen)
  obtain ⟨hasId, hasName⟩ := named index first rest found
  obtain ⟨id, identified⟩ := Option.isSome_iff_exists.mp hasId
  obtain ⟨name, given⟩ := Option.isSome_iff_exists.mp hasName
  have shown : upToShown (first :: rest) = [first] := if_pos (callShows_of_named hasName)
  simp [aggregatedTool, firstIdAt, firstNameAt, found, shown, lastName, identified, given]

end NamedCalls

def chunkString (name : String) (value : Value) : Option String :=
  (value.get name).bind Value.asStr

def firstString (name : String) (values : List Value) : Option String :=
  values.head?.bind (chunkString name)

namespace NonStreamAccumulator

theorem handleValue_names (accumulator : NonStreamAccumulator) (value : Value) :
    (accumulator.handleValue value).id = accumulator.id.or (chunkString "id" value) ∧
      (accumulator.handleValue value).model =
        accumulator.model.or (chunkString "model" value) := by
  rw [handleValue_eq, foldl_calls]
  exact ⟨rfl, rfl⟩

theorem names_kept {id model : String} (values : List Value) {accumulator : NonStreamAccumulator}
    (hasId : accumulator.id = some id) (hasModel : accumulator.model = some model) :
    (values.foldl handleValue accumulator).id = some id ∧
      (values.foldl handleValue accumulator).model = some model := by
  induction values generalizing accumulator with
  | nil => exact ⟨hasId, hasModel⟩
  | cons value rest ih =>
      obtain ⟨sameId, sameModel⟩ := handleValue_names accumulator value
      exact ih (by rw [sameId, hasId, Option.some_or]) (by rw [sameModel, hasModel, Option.some_or])

theorem names_first {id model : String} {values : List Value}
    (hasId : firstString "id" values = some id)
    (hasModel : firstString "model" values = some model) :
    (values.foldl handleValue .new).id = some id ∧
      (values.foldl handleValue .new).model = some model := by
  cases values with
  | nil => cases hasId
  | cons value rest =>
      obtain ⟨sameId, sameModel⟩ := handleValue_names .new value
      exact names_kept rest (sameId.trans hasId) (sameModel.trans hasModel)

end NonStreamAccumulator

/-- What both clients are shown of the content; only the signature of the thinking differs. -/
def agreedContent (codec : Codec) (exposeThinking : Bool) (values : List Value)
    (signature : String) : List Value :=
  let reasoning := if exposeThinking then String.join (values.map chunkReasoning) else ""
  let text := String.join (values.map chunkText)
  (if reasoning.isEmpty then [] else [.object [("type", .string "thinking"),
      ("thinking", .string reasoning), ("signature", .string signature)]]) ++
    (if text.isEmpty then [] else [textContent text]) ++
    (seenIndexes (allCalls values)).map (aggregatedTool codec (allCalls values))

def agreedMessage (codec : Codec) (exposeThinking : Bool) (values : List Value)
    (signature : String) : Value := .object [
  ("id", .string ((firstString "id" values).getD "")), ("type", .string "message"),
  ("role", .string "assistant"),
  ("content", .array (agreedContent codec exposeThinking values signature)),
  ("model", .string ((firstString "model" values).getD "")),
  ("stop_reason", mapStopReason (lastFinish values)), ("stop_sequence", .null),
  ("usage", convertUsageWith (some (lastObjectUsage values)) 0)]

/-- A stream whose content comes in order, each call led by its id and name, that names itself
at its start, has no stop sequence and whose last usage is the one to count. -/
structure Orderly (exposeThinking : Bool) (values : List Value) : Prop where
  named : NamedFirst (allCalls values)
  inOrder : ShownInOrder (streamFragments exposeThinking values)
  id : (firstString "id" values).isSome = true
  model : (firstString "model" values).isSome = true
  usage : lastUsageMember values = lastObjectUsage values
  stop : lastStop values = .null

def ClientMessage.value (codec : Codec) (client : ClientMessage) : Option Value :=
  match client.message, client.ending with
  | some (.object fields), some (stopReason, stopSequence, usage) => some (.object
      (Map.insert "usage" usage (Map.insert "stop_sequence" stopSequence
        (Map.insert "stop_reason" stopReason
          (Map.insert "content" (.array (client.blocks.map (ClientBlock.value codec))) fields)))))
  | _, _ => none

namespace Orderly

variable {exposeThinking : Bool} {values : List Value}

theorem openedKeys_eq (orderly : Orderly exposeThinking values) :
    openedKeys (streamFragments exposeThinking values) =
      (if exposeThinking = true ∧ String.join (values.map chunkReasoning) ≠ "" then [.thinking]
        else []) ++
      (if String.join (values.map chunkText) ≠ "" then [.text] else []) ++
      (seenIndexes (allCalls values)).map .tool := by
  have named : NamedFirst (fragmentCalls (streamFragments exposeThinking values)) := by
    rw [fragmentCalls_stream]
    exact orderly.named
  have keys := keys_of_ordered orderly.inOrder
  rw [filter_key (nodup_openedKeys _), filter_key (nodup_openedKeys _), toolIndexes_opened named,
    fragmentCalls_stream] at keys
  simpa only [text_opened_iff, thinking_opened_iff] using keys

theorem lateIndexes_eq (orderly : Orderly exposeThinking values) :
    lateIndexes (streamFragments exposeThinking values) = [] := by
  rw [lateIndexes, List.filter_eq_nil_iff, fragmentCalls_stream]
  intro index seen
  rw [orderly.openedKeys_eq]
  simp [seen]

theorem blocks_eq (orderly : Orderly exposeThinking values) (codec : Codec) (signature : String) :
    ((openedKeys (streamFragments exposeThinking values)).map (finishedBlock signature
      (streamFragments exposeThinking values))).map (ClientBlock.value codec) =
        agreedContent codec exposeThinking values signature := by
  have thinking : (finishedBlock signature (streamFragments exposeThinking values)
      .thinking).value codec = .object [("type", .string "thinking"),
        ("thinking", .string (if exposeThinking then String.join (values.map chunkReasoning)
          else "")), ("signature", .string signature)] := by
    have added := addedText_stream exposeThinking .thinking values
    dsimp only at added
    rw [← added]
    rfl
  have text : (finishedBlock signature (streamFragments exposeThinking values) .text).value codec =
      textContent (String.join (values.map chunkText)) := by
    have added := addedText_stream exposeThinking .text values
    dsimp only at added
    rw [← added]
    rfl
  have tool : ∀ index ∈ seenIndexes (allCalls values),
      (finishedBlock signature (streamFragments exposeThinking values) (.tool index)).value codec =
        aggregatedTool codec (allCalls values) index := by
    intro index seen
    have added := addedText_stream exposeThinking (.tool index) values
    dsimp only at added
    rw [← toolOpened_of_named orderly.named codec seen, callInput, ← added,
      ← fragmentCalls_stream exposeThinking values]
    rfl
  have tools : (seenIndexes (allCalls values)).map (fun index =>
      (finishedBlock signature (streamFragments exposeThinking values) (.tool index)).value codec) =
        (seenIndexes (allCalls values)).map (aggregatedTool codec (allCalls values)) :=
    List.map_congr_left tool
  rw [orderly.openedKeys_eq, agreedContent, List.map_map, List.map_append, List.map_append,
    List.map_map]
  refine congr (congrArg _ (congr (congrArg _ ?_) ?_)) tools
  · cases exposeThinking with
    | false => rfl
    | true => by_cases silent : String.join (values.map chunkReasoning) = "" <;> simp [silent, thinking]
  · by_cases silent : String.join (values.map chunkText) = "" <;> simp [silent, text]

theorem streamed_value (orderly : Orderly exposeThinking values) (platform : Platform)
    (requestId fallbackModel : String) :
    (streamedMessage platform requestId fallbackModel exposeThinking values []).value
        platform.codec = some (agreedMessage platform.codec exposeThinking values
          (platform.thinkingSignature "streamed" requestId)) := by
  obtain ⟨id, hasId⟩ := Option.isSome_iff_exists.mp orderly.id
  obtain ⟨model, hasModel⟩ := Option.isSome_iff_exists.mp orderly.model
  have blocks := orderly.blocks_eq platform.codec (platform.thinkingSignature "streamed" requestId)
  cases values with
  | nil => cases hasId
  | cons first rest =>
      have sameId : (first.get "id").bind Value.asStr = some id := hasId
      have sameModel : (first.get "model").bind Value.asStr = some model := hasModel
      rw [agreedMessage, hasId, hasModel, ← blocks, ← orderly.usage, ClientMessage.value,
        streamedMessage, List.head?_cons, Option.map_some, startedMessage, sameId, sameModel,
        orderly.stop, List.map_nil, List.append_nil]
      rfl

theorem aggregated_value (orderly : Orderly exposeThinking values) (platform : Platform)
    (requestId fallbackModel : String) (finished : (lastFinish values).isSome = true)
    (arguments : ArgumentsParse platform.codec (allCalls values)) :
    convertAccumulated platform (values.foldl NonStreamAccumulator.handleValue .new) requestId
        fallbackModel exposeThinking = .ok (agreedMessage platform.codec exposeThinking values
          (platform.thinkingSignature (if exposeThinking then
            String.join (values.map chunkReasoning) else "") requestId)) := by
  obtain ⟨id, hasId⟩ := Option.isSome_iff_exists.mp orderly.id
  obtain ⟨model, hasModel⟩ := Option.isSome_iff_exists.mp orderly.model
  obtain ⟨keptId, keptModel⟩ := NonStreamAccumulator.names_first hasId hasModel
  obtain ⟨reason, said⟩ := Option.isSome_iff_exists.mp finished
  have speaks : values.any chunkSpeaks = true := by
    obtain ⟨value, member, finishes⟩ := List.exists_of_findSome?_eq_some said
    exact List.any_eq_true.mpr ⟨value, List.mem_reverse.mp member, by simp [chunkSpeaks, finishes]⟩
  have used : usableIndexes values = seenIndexes (allCalls values) :=
    List.filter_eq_self.mpr fun index seen => usable_of_named orderly.named seen
  have parse := (Accumulated.argumentsParse_iff platform.codec values).mp arguments
  rw [(accumulated_values values).convert_eq platform requestId fallbackModel exposeThinking speaks,
    Accumulated.toolBlocks_eq parse, used, keptId, keptModel, agreedMessage, hasId, hasModel, said]
  rfl

end Orderly

/-- An orderly stream that ends with a finish reason is the same message to a client that reads
its frames and to one that does not stream, up to the signature of the thinking. -/
theorem orderly_paths_agree (platform : Platform) (requestId fallbackModel : String)
    {exposeThinking : Bool} {events : List SseEvent} {values : List Value} {done : SseEvent}
    (chunks : events.map (fun event => readPayload platform.codec (String.ofList event.data)) =
      values.map .chunk)
    (last : isDone (String.ofList done.data) = true)
    (finished : (lastFinish values).isSome = true)
    (arguments : ArgumentsParse platform.codec (allCalls values))
    (orderly : Orderly exposeThinking values) :
    (ClientMessage.empty.readAll (StreamBody.handleEvents platform
        (.new requestId fallbackModel exposeThinking) (events ++ [done])).2).value platform.codec =
      some (agreedMessage platform.codec exposeThinking values
        (platform.thinkingSignature "streamed" requestId)) ∧
    ∃ accumulator,
      Aggregation.handleEvents platform.codec .new (events ++ [done]) = .ok accumulator ∧
      convertAccumulated platform accumulator requestId fallbackModel exposeThinking =
        .ok (agreedMessage platform.codec exposeThinking values
          (platform.thinkingSignature (if exposeThinking then
            String.join (values.map chunkReasoning) else "") requestId)) := by
  constructor
  · obtain ⟨late, perm, read⟩ :=
      (StreamedTo.start requestId fallbackModel exposeThinking).events platform chunks last
        (by simpa using finished)
    rw [List.nil_append, orderly.lateIndexes_eq, List.perm_nil] at perm
    rw [read, perm, List.nil_append]
    exact orderly.streamed_value platform requestId fallbackModel
  · have payloads : (events ++ [done]).map (fun event =>
        readPayload platform.codec (String.ofList event.data)) =
          values.map Payload.chunk ++ [Payload.done] := by
      rw [List.map_append, chunks, List.map_singleton, readPayload, if_pos last]
    have formed : (values.map Payload.chunk ++ [Payload.done]).all Payload.wellFormed = true := by
      simp [Payload.wellFormed]
    have read : payloadValues (values.map Payload.chunk ++ [Payload.done]) = values := by
      simp [payloadValues, List.filterMap_map, Function.comp_def, Payload.value?]
    refine ⟨_, (aggregateEvents_ok platform.codec _ _ _).mpr ⟨_, payloads, formed, rfl⟩, ?_⟩
    rw [read]
    exact orderly.aggregated_value platform requestId fallbackModel finished arguments

def orderlyChunks : List Value := [
  .object [("id", .string "gen-1"), ("model", .string "glm"), ("choices", .array [.object [
    ("delta", .object [("reasoning", .string "hm")])]])],
  chunkOf [("content", .string "Loo")] [],
  chunkOf [("content", .string "king")] [],
  chunkOf [("tool_calls", .array [wholeCall 0 "call_1" "lookup" "\x7b\"query\":"])] [],
  chunkOf [("tool_calls", .array [.object [("function", .object [
    ("arguments", .string "\"lean\"\x7d")])]])] (finished "tool_calls")]

def orderlyPlatform : Platform where
  codec := documentCodec (leanQuery :: orderlyChunks)
  thinkingSignature := fun _ requestId => "cline-proxy-v1-" ++ requestId
  order := id
  order_perm := perm_id

theorem orderlyChunks_read : ∀ value ∈ orderlyChunks,
    isDone (orderlyPlatform.codec.toText value) = false ∧
      orderlyPlatform.codec.fromStr (orderlyPlatform.codec.toText value) = some value ∧
      (value.get "error").isSome = false := by
  decide +kernel

instance (codec : Codec) (calls : List Value) : Decidable (ArgumentsParse codec calls) :=
  List.decidableBAll (fun index => (toolInput codec (argumentsAt index calls)).isSome = true) _

theorem orderly_paths_agree_call :
    (ClientMessage.empty.readAll (StreamBody.handleEvents orderlyPlatform (.new "req" "glm" true)
      (orderlyChunks.map (chunkEvent orderlyPlatform.codec) ++ [⟨none, "[DONE]".toList⟩])).2).value
        orderlyPlatform.codec =
      some (agreedMessage orderlyPlatform.codec true orderlyChunks "cline-proxy-v1-req") :=
  (orderly_paths_agree orderlyPlatform "req" "glm" (readPayload_events orderlyChunks_read)
    (by decide +kernel) (by decide +kernel) (by decide +kernel)
    ⟨by decide +kernel, by decide +kernel, by decide +kernel, by decide +kernel, by decide +kernel,
      by decide +kernel⟩).1

end ClineProxy
