import ClineProxy.ResponsesReplay

/-! Which runs of the converter give an output that can be fed back. -/

namespace ClineProxy

open Json ResponsesConverter

section Output

variable {names : List String} {exposeThinking : Bool} {track : Track}
  {converter closed : ResponsesConverter} {events sent : List ResponsesEvent}
  {response : ResponseObject}

theorem final_shownOutput (converter : ResponsesConverter)
    (backed : ∀ item ∈ converter.outputItems, Backed exposeThinking converter item) :
    ∀ item ∈ shownOutput converter, item.isFinal = true := by
  intro item member
  obtain ⟨entry, listed, final, _⟩ := mem_shownOutput member
  cases entry with
  | text id =>
      obtain rfl := Option.some.inj final
      rfl
  | functionCall id =>
      obtain ⟨slot, _, rfl⟩ := Option.map_eq_some_iff.mp final
      rfl
  | webSearchCall held =>
      obtain rfl := Option.some.inj final
      have search := (backed _ listed).2
      cases held with
      | webSearchCall => rfl
      | text | functionCall => cases search

def CallRound.Complete (names : List String) (round : CallRound) : Prop :=
  ∀ call ∈ round.clients names, round.finalId call ≠ "" ∧ round.finalName call ≠ ""

theorem Finish.named_iff
    (finish : Finish names exposeThinking track converter events closed sent response)
    (distinct : (track.round.registered.map signedCallIndex).Nodup) :
    (∀ item ∈ response.output, item.Named) ↔ track.round.Complete names := by
  obtain ⟨round, _⟩ := round_finished exposeThinking track
  have perm := finish.callsPerm distinct
  have owned := @Board.ownItems _ _ _ _ _ finish.board (track.round.clients names)
    (fun call member => round ▸ (List.mem_filter.mp member).1)
  rw [round] at owned
  constructor
  · intro named call member
    obtain ⟨item, there, id, rfl⟩ := forall₂_member owned (List.mem_map.mpr ⟨call, member, rfl⟩)
    have listed := (List.mem_filter.mp (perm.mem_iff.mpr there)).1
    exact named _ listed _ _ rfl
  · intro complete item member callId name called
    have isCall : item.isCall = true := by
      cases item with
      | functionCall => rfl
      | text | webSearchCall => cases called
    have there := perm.mem_iff.mp (List.mem_filter.mpr ⟨member, isCall⟩)
    obtain ⟨call, listed, id, same⟩ := forall₂_member owned.flip there
    obtain ⟨value, client, rfl⟩ := List.mem_map.mp listed
    rw [same] at called
    obtain ⟨rfl, rfl⟩ := Prod.mk.inj (Option.some.inj called)
    exact complete value client

theorem spoken_finished (exposeThinking : Bool) (track : Track) :
    ((track.finished exposeThinking).said .message).spoken = track.message.spoken := by
  rw [Track.finished, Track.said_setSaid, if_pos rfl]
  split
  next => rw [Track.said_setSaid, if_neg (by decide)]; rfl
  next => rfl

theorem Finish.message_iff
    (finish : Finish names exposeThinking track converter events closed sent response) :
    (∃ item ∈ response.output, item.messageText.isSome = true) ↔ track.message.spoken ≠ [] := by
  obtain ⟨_, opened⟩ := round_finished exposeThinking track
  have shelf : Shelf exposeThinking (track.finished exposeThinking).opened closed
      (events ++ sent) := opened ▸ finish.shelf
  rw [finish.output, ← spoken_finished exposeThinking]
  constructor
  · rintro ⟨item, member, text⟩
    obtain ⟨entry, listed, final, _⟩ := mem_shownOutput member
    have backed := shelf.backed entry listed
    cases entry with
    | text id =>
        obtain ⟨kind, state, _, held, rfl⟩ := backed
        obtain rfl := Option.some.inj final
        have own := (finish.board.textIds kind state held).1
        cases kind with
        | message => exact finish.board.said .message state held
        | reasoning =>
            rw [ResponsesItem.messageText, isReasoning, own] at text
            cases text
    | functionCall id =>
        obtain ⟨slot, _, rfl⟩ := Option.map_eq_some_iff.mp final
        cases text
    | webSearchCall held =>
        obtain rfl := Option.some.inj final
        have search := backed.2
        cases held with
        | webSearchCall => cases text
        | text | functionCall => cases search
  · intro spoken
    cases held : closed.textState .message with
    | none =>
        have silent := finish.board.silent .message held
        rw [silent] at spoken
        exact absurd rfl spoken
    | some state =>
        have own := (finish.board.textIds .message state held).1
        obtain ⟨⟨item, member, mine⟩, same⟩ := shown_text finish.board shelf rfl held
        refine ⟨item, member, ?_⟩
        rw [same item member mine, ResponsesItem.messageText, isReasoning, own]
        rfl

theorem nonReasoning_iff (output : List ResponsesItem) :
    (∃ item ∈ output, isReasoning item = false) ↔
      (∃ item ∈ output, item.messageText.isSome = true) ∨
        output.filter ResponsesItem.isCall ≠ [] ∨
          output.filterMap ResponsesItem.searchFailed ≠ [] := by
  constructor
  · rintro ⟨item, member, shown⟩
    cases item with
    | text id content =>
        refine .inl ⟨_, member, ?_⟩
        rw [ResponsesItem.messageText, shown]
        rfl
    | functionCall =>
        exact .inr (.inl (List.ne_nil_of_mem (List.mem_filter.mpr ⟨member, rfl⟩)))
    | webSearchCall =>
        exact .inr (.inr (List.ne_nil_of_mem (List.mem_filterMap.mpr ⟨_, member, rfl⟩)))
  · rintro (⟨item, member, text⟩ | calls | searches)
    · refine ⟨item, member, ?_⟩
      cases item with
      | text id content =>
          rw [ResponsesItem.messageText] at text
          split at text
          next => cases text
          next shown => simpa using shown
      | functionCall | webSearchCall => rfl
    · obtain ⟨item, there⟩ := List.exists_mem_of_ne_nil _ calls
      obtain ⟨member, isCall⟩ := List.mem_filter.mp there
      cases item with
      | functionCall => exact ⟨_, member, rfl⟩
      | text | webSearchCall => cases isCall
    · obtain ⟨flag, there⟩ := List.exists_mem_of_ne_nil _ searches
      obtain ⟨item, member, search⟩ := List.mem_filterMap.mp there
      cases item with
      | webSearchCall => exact ⟨_, member, rfl⟩
      | text | functionCall => cases search

theorem failedSearch_iff (output : List ResponsesItem) :
    (∀ item ∈ output, item.failedSearch = false) ↔
      true ∉ output.filterMap ResponsesItem.searchFailed := by
  rw [List.mem_filterMap]
  constructor
  · rintro fine ⟨item, member, failed⟩
    have known := fine item member
    cases item with
    | webSearchCall id flag =>
        obtain rfl := Option.some.inj failed
        cases known
    | text | functionCall => cases failed
  · intro none_ item member
    cases item with
    | webSearchCall id failed query sources =>
        cases failed with
        | false => rfl
        | true => exact absurd ⟨_, member, rfl⟩ none_
    | text | functionCall => rfl

theorem Finish.calls_iff
    (finish : Finish names exposeThinking track converter events closed sent response)
    (distinct : (track.round.registered.map signedCallIndex).Nodup) :
    response.output.filter ResponsesItem.isCall ≠ [] ↔ track.round.clients names ≠ [] := by
  obtain ⟨round, _⟩ := round_finished exposeThinking track
  have owned := @Board.ownItems _ _ _ _ _ finish.board (track.round.clients names)
    (fun call member => round ▸ (List.mem_filter.mp member).1)
  have length := (finish.callsPerm distinct).length_eq
  rw [← owned.length_eq, List.length_map] at length
  rw [← List.length_pos_iff, ← List.length_pos_iff, length]

end Output

/-- What has to hold of the moves of a run. -/
structure Replayable (names : List String) (exposeThinking : Bool) (moves : List ConverterMove) :
    Prop where
  named : (trackOf names exposeThinking moves).round.Complete names
  shown : (∃ text, .text text ∈ moves) ∨
    (trackOf names exposeThinking moves).round.clients names ≠ [] ∨
      ∃ outcome, .searched outcome ∈ moves
  searched : ∀ outcome, .searched outcome ∈ moves → outcome.error = none

theorem searched_flags (moves : List ConverterMove) :
    (moves.filterMap ConverterMove.searchFailed ≠ [] ↔ ∃ outcome, .searched outcome ∈ moves) ∧
      (true ∉ moves.filterMap ConverterMove.searchFailed ↔
        ∀ outcome, .searched outcome ∈ moves → outcome.error = none) := by
  have known (flag : Bool) : flag ∈ moves.filterMap ConverterMove.searchFailed ↔
      ∃ outcome, .searched outcome ∈ moves ∧ outcome.error.isSome = flag := by
    rw [List.mem_filterMap]
    constructor
    · rintro ⟨move, member, same⟩
      cases move with
      | searched outcome => exact ⟨outcome, member, Option.some.inj same⟩
      | _ => cases same
    · rintro ⟨outcome, member, rfl⟩
      exact ⟨_, member, rfl⟩
  constructor
  · constructor
    · intro some_
      obtain ⟨flag, member⟩ := List.exists_mem_of_ne_nil _ some_
      obtain ⟨outcome, there, _⟩ := (known flag).mp member
      exact ⟨outcome, there⟩
    · rintro ⟨outcome, member⟩
      exact List.ne_nil_of_mem ((known _).mpr ⟨outcome, member, rfl⟩)
  · rw [known]
    simp only [not_exists, not_and, Bool.not_eq_true, Option.isSome_eq_false_iff,
      Option.isNone_iff_eq_none]

/-- The output of a completed run can be fed back, and is read as what it was, exactly when its
calls are complete, something was shown, and no search failed. -/
theorem responses_replay (codec : Codec) (uuid : Nat → String) (answer : ResponsesItem → String)
    (responseId : String) (createdAt : UInt64) (model : String) (exposeThinking : Bool)
    (names : List String) (calls : List ConverterCall) (response : ResponseObject) :
    let sent := ((withServerTools responseId createdAt model exposeThinking names).applyAll
      (calls ++ [.finish none])).events
    Unfinished calls → sent.getLast? = some (.terminal response) → response.status = .completed →
      (ReplaysWell codec uuid answer response.output ↔
        Replayable names exposeThinking (calls.flatMap callMoves)) := by
  intro sent going ends _
  let fresh := withServerTools responseId createdAt model exposeThinking names
  let moves := calls.flatMap callMoves
  have start := board_new responseId createdAt model exposeThinking names
  have board : Board names exposeThinking (trackOf names exposeThinking moves)
      (fresh.moveAll moves).1 ([] ++ (fresh.moveAll moves).events) := start.movedAll moves
  have shelf : Shelf exposeThinking (trackOf names exposeThinking moves).opened
      (fresh.moveAll moves).1 ([] ++ (fresh.moveAll moves).events) :=
    Shelf.movedAll (shelf_new responseId createdAt model exposeThinking names) start moves
  obtain ⟨closed, more, other, finish⟩ := finish_finish board shelf
  have all : sent = [] ++ (fresh.moveAll moves).events ++
      ((fresh.moveAll moves).1.finish none).events := finishing_events fresh going none
  rw [all, finish.emitted, ← List.append_assoc, List.getLast?_concat] at ends
  obtain rfl := ResponsesEvent.terminal.inj (Option.some.inj ends)
  have distinct := trackOf_distinct names exposeThinking moves
  have flags : other.output.filterMap ResponsesItem.searchFailed =
      moves.filterMap ConverterMove.searchFailed := by
    have items : closed.searchFlags = (fresh.moveAll moves).1.searchFlags := by
      rw [searchFlags, finish.items, searchFlags]
    rw [finish.output, shownOutput_searches, items, searchFlags_moveAll]
    rfl
  obtain ⟨some_, fine⟩ := searched_flags moves
  rw [replaysWell_iff codec uuid answer other.output
      (finish.output ▸ final_shownOutput closed finish.shelf.backed),
    finish.named_iff distinct, nonReasoning_iff, failedSearch_iff, finish.message_iff,
    finish.calls_iff distinct, flags, some_, fine, (trackOf_message names exposeThinking moves).spoken]
  exact ⟨fun held => ⟨held.1, held.2.1, held.2.2⟩,
    fun held => ⟨held.named, held.shown, held.searched⟩⟩

def spokenCalls : List ConverterCall := [
  deltaCall [("content", .string "a")],
  deltaCall [("tool_calls", .array [wholeCall 0 "c" "f" "\x7b\x7d"])]]

instance (names : List String) (round : CallRound) : Decidable (round.Complete names) :=
  inferInstanceAs (Decidable (∀ call ∈ round.clients names, _))

theorem responses_replay_spoken : ∃ response,
    ((withServerTools "resp_1" 0 "glm" false []).applyAll
      (spokenCalls ++ [.finish none])).events.getLast? = some (.terminal response) ∧
      response.status = .completed ∧
        ReplaysWell (documentCodec []) (fun _ => "1") (fun _ => "done") response.output := by
  have going : Unfinished spokenCalls := by
    intro call member error
    simp only [spokenCalls, List.mem_cons, List.not_mem_nil, or_false] at member
    rcases member with rfl | rfl <;> simp [deltaCall]
  have flags := searched_flags (spokenCalls.flatMap callMoves)
  refine ⟨_, rfl, rfl, (responses_replay (documentCodec []) (fun _ => "1") (fun _ => "done")
    "resp_1" 0 "glm" false [] spokenCalls _ going rfl rfl).mpr ⟨by decide +kernel, .inl ?_, ?_⟩⟩
  · rw [← (trackOf_message [] false (spokenCalls.flatMap callMoves)).spoken]
    decide +kernel
  · rw [← flags.2]
    decide +kernel

def failedCalls : List ConverterCall := [
  deltaCall [("tool_calls", .array [wholeCall 0 "c" webSearchFunctionName leanQueryText])],
  .searchRound [⟨"c", webSearchFunctionName, leanQueryText⟩] [.failed "lean" .unavailable],
  deltaCall [("content", .string "a")]]

theorem responses_replay_fails : Unfinished failedCalls ∧ ∃ response,
    ((withServerTools "resp_1" 0 "glm" false [webSearchFunctionName]).applyAll
      (failedCalls ++ [.finish none])).events.getLast? = some (.terminal response) ∧
      response.status = .completed ∧
        ¬ReplaysWell (documentCodec []) (fun _ => "1") (fun _ => "done") response.output := by
  constructor
  · intro call member error
    simp only [failedCalls, List.mem_cons, List.not_mem_nil, or_false] at member
    rcases member with rfl | rfl | rfl <;> simp [deltaCall]
  · refine ⟨_, rfl, rfl, fun well => ?_⟩
    have fine := (failuresShown_iff (documentCodec []) (fun _ => "1") _).mp well.2
    revert fine
    decide +kernel

end ClineProxy
