import ClineProxy.RestoredLoops
import ClineProxy.ShadowInputs
import ClineProxy.ShadowIsolation

/-!
The commits of a loop, between operations of other sessions, and what the store holds of them.
-/

namespace ClineProxy

open Json Clock ReasoningShadowStore

def ShadowAction.events (fingerprint : String) (now swept : Instant) :
    ShadowAction → List ShadowEvent
  | keep => []
  | clear => [.clear fingerprint]
  | store toolCallIds reasoning => [.store fingerprint now swept toolCallIds reasoning]

/-- The history of the store while a loop goes on: its first request clears the session, then each
turn commits, with reads and the operations of other sessions in between. -/
inductive LoopCommits (fingerprint : String) (oldest : Instant) :
    List LoopTurn → List ShadowEvent → Prop
  | start (events : List ShadowEvent) :
      LoopCommits fingerprint oldest [] (events ++ [.clear fingerprint])
  | other {turns : List LoopTurn} {events : List ShadowEvent} {event : ShadowEvent}
      (going : LoopCommits fingerprint oldest turns events)
      (apart : onSession fingerprint event = false) :
      LoopCommits fingerprint oldest turns (events ++ [event])
  | read {turns : List LoopTurn} {events : List ShadowEvent}
      (going : LoopCommits fingerprint oldest turns events) (now : Instant)
      (toolCallIds : List String) :
      LoopCommits fingerprint oldest turns (events ++ [.restore fingerprint now toolCallIds])
  | commit {turns : List LoopTurn} {events : List ShadowEvent} {turn : LoopTurn}
      {action : ShadowAction} {now swept : Instant}
      (going : LoopCommits fingerprint oldest turns events)
      (alike : action.Alike (storeReasoningShadow turn.upstream)) (since : oldest ≤ now) :
      LoopCommits fingerprint oldest (turns ++ [turn])
        (events ++ action.events fingerprint now swept)

section Turn

variable {codec : Codec} {turn : LoopTurn} {hash : String → UInt64} {limits : ShadowLimits}
  {fingerprint : String} {key : ShadowKey} {events : List ShadowEvent}

theorem LoopTurn.Answered.callIds (answered : turn.Answered codec) :
    callIds (upstreamCalls turn.upstream) = turn.ids := by
  have reads := answered.reads
  rw [ids]
  generalize upstreamCalls turn.upstream = given at reads ⊢
  generalize turn.calls = calls at reads ⊢
  induction reads with
  | nil => rfl
  | cons head _ ih =>
      rw [List.map_cons, ← ih]
      exact List.filterMap_cons_some head.1

theorem storeReasoningShadow_answered (answered : turn.Answered codec) :
    storeReasoningShadow turn.upstream =
      if turn.reasoning = "" then .keep else .store turn.ids turn.reasoning := by
  have ids := answered.callIds
  have called : turn.ids ≠ [] := by
    rw [LoopTurn.ids, ne_eq, List.map_eq_nil_iff]
    exact answered.called
  rw [LoopTurn.reasoning, storeReasoningShadow]
  rw [upstreamCalls, upstreamMessage] at ids
  rw [upstreamMessage]
  cases found : ((firstChoice turn.upstream).bind fun choice => choice.get "message").bind
      Value.asObject with
  | none =>
      rw [found] at ids
      exact absurd ids.symm called
  | some message =>
      rw [found, Option.getD_some] at ids
      dsimp only
      rw [ids, if_neg (by simpa using called), Option.getD_some]
      by_cases silent : reasoningText message = ""
      · rw [if_pos (by simp [silent]), if_pos silent]
      · rw [if_neg (by simpa using silent), if_neg silent]

theorem expectedEntry_commit (answered : turn.Answered codec)
    (small : turn.reasoning.utf8ByteSize ≤ limits.maxEntryBytes) {action : ShadowAction}
    (alike : action.Alike (storeReasoningShadow turn.upstream)) (now swept : Instant) :
    expectedEntry hash limits fingerprint key (events ++ action.events fingerprint now swept) =
      if turn.reasoning ≠ "" ∧ key ∈ turn.ids.map (keyOf hash fingerprint) then
        some ⟨turn.reasoning, now⟩
      else expectedEntry hash limits fingerprint key events := by
  have called : turn.ids ≠ [] := by
    rw [LoopTurn.ids, ne_eq, List.map_eq_nil_iff]
    exact answered.called
  rw [storeReasoningShadow_answered answered] at alike
  by_cases silent : turn.reasoning = ""
  · rw [if_pos silent, ShadowAction.Alike] at alike
    rw [if_neg fun both => both.1 silent]
    cases action with
    | keep => rw [ShadowAction.events, List.append_nil]
    | clear => cases alike
    | store toolCallIds reasoning =>
        rw [ShadowAction.settled] at alike
        split at alike
        next passed =>
          have skipped : skips limits toolCallIds reasoning = true := by
            rw [skips, passed, Bool.true_or]
          rw [ShadowAction.events, expectedEntry_snoc, expectedStep,
            if_neg fun both => Bool.false_ne_true (both.2.1.symm.trans skipped)]
        next => cases alike
  · rw [if_neg silent, ShadowAction.Alike, ShadowAction.settled_store called silent] at alike
    cases action with
    | keep => cases alike
    | clear => cases alike
    | store toolCallIds reasoning =>
        rw [ShadowAction.settled] at alike
        split at alike
        next => cases alike
        next filled =>
          cases alike with | store ids =>
          have kept : skips limits toolCallIds turn.reasoning = false := by
            rw [Bool.not_eq_true] at filled
            rw [skips, filled, Bool.false_or, decide_eq_false_iff_not]
            omega
          rw [ShadowAction.events, expectedEntry_snoc, expectedStep]
          refine if_congr ?_ rfl rfl
          rw [(ids.map _).mem_iff]
          exact ⟨fun both => ⟨silent, both.2.2⟩, fun both => ⟨rfl, kept, both.2⟩⟩

end Turn

section Loop

variable {codec : Codec} {turns : List LoopTurn} {hash : String → UInt64} {limits : ShadowLimits}
  {ttl : Duration} {fingerprint : String} {oldest : Instant} {events : List ShadowEvent}

theorem LoopCommits.expected_known (commits : LoopCommits fingerprint oldest turns events)
    (answered : ∀ turn ∈ turns, turn.Answered codec)
    (small : ∀ turn ∈ turns, turn.reasoning.utf8ByteSize ≤ limits.maxEntryBytes) {key : ShadowKey}
    (unknown : key ∉ (turns.flatMap LoopTurn.ids).map (keyOf hash fingerprint)) :
    expectedEntry hash limits fingerprint key events = none := by
  induction commits with
  | start events =>
      rw [expectedEntry_snoc, expectedStep, if_pos rfl]
  | other _ apart ih =>
      rw [expectedEntry_snoc, expectedStep_other apart, ih answered small unknown]
  | read _ _ _ ih =>
      rw [expectedEntry_snoc, expectedStep, ih answered small unknown]
  | @commit turns events turn action now swept _ alike _ ih =>
      have last : turn ∈ turns ++ [turn] := List.mem_append_right _ (List.mem_singleton_self turn)
      rw [List.flatMap_append, List.map_append, List.mem_append, not_or] at unknown
      have notOwn : key ∉ turn.ids.map (keyOf hash fingerprint) := by
        have own := unknown.2
        rwa [List.flatMap_singleton] at own
      rw [expectedEntry_commit (answered turn last) (small turn last) alike,
        if_neg fun both => notOwn both.2]
      exact ih (fun other member => answered other (List.mem_append_left _ member))
        (fun other member => small other (List.mem_append_left _ member)) unknown.1

theorem LoopCommits.expected (commits : LoopCommits fingerprint oldest turns events)
    (answered : ∀ turn ∈ turns, turn.Answered codec)
    (small : ∀ turn ∈ turns, turn.reasoning.utf8ByteSize ≤ limits.maxEntryBytes)
    (distinct : (turns.flatMap LoopTurn.ids).Nodup)
    (injective : Set.InjOn hash {id | id ∈ turns.flatMap LoopTurn.ids}) :
    ∀ turn ∈ turns, ∀ id ∈ turn.ids,
      if turn.reasoning = "" then
        expectedEntry hash limits fingerprint (keyOf hash fingerprint id) events = none
      else ∃ created, oldest ≤ created ∧ expectedEntry hash limits fingerprint
        (keyOf hash fingerprint id) events = some ⟨turn.reasoning, created⟩ := by
  induction commits with
  | start => exact fun _ member => absurd member List.not_mem_nil
  | other _ apart ih =>
      intro turn member id listed
      rw [expectedEntry_snoc, expectedStep_other apart]
      exact ih answered small distinct injective turn member id listed
  | read _ _ _ ih =>
      intro turn member id listed
      rw [expectedEntry_snoc, expectedStep]
      exact ih answered small distinct injective turn member id listed
  | @commit turns events last action now swept going alike since ih =>
      have before : ∀ turn ∈ turns, turn ∈ turns ++ [last] :=
        fun turn member => List.mem_append_left _ member
      have there : last ∈ turns ++ [last] := List.mem_append_right _ (List.mem_singleton_self last)
      have answeredBefore : ∀ turn ∈ turns, turn.Answered codec :=
        fun turn member => answered turn (before turn member)
      have smallBefore : ∀ turn ∈ turns, turn.reasoning.utf8ByteSize ≤ limits.maxEntryBytes :=
        fun turn member => small turn (before turn member)
      have parts : (turns ++ [last]).flatMap LoopTurn.ids =
          turns.flatMap LoopTurn.ids ++ last.ids := by
        rw [List.flatMap_append, List.flatMap_singleton]
      rw [parts, List.nodup_append] at distinct
      rw [parts] at injective
      obtain ⟨distinctBefore, -, disjoint⟩ := distinct
      -- an id of an earlier turn and one of the last have different keys
      have otherKey (first second : String) (early : first ∈ turns.flatMap LoopTurn.ids)
          (late : second ∈ last.ids) :
          keyOf hash fingerprint first ≠ keyOf hash fingerprint second := by
        intro same
        have hashes : hash first = hash second := congrArg ShadowKey.toolCall same
        have ids := injective (List.mem_append_left _ early) (List.mem_append_right _ late) hashes
        exact disjoint first early second late ids
      intro turn member id listed
      have step := @expectedEntry_commit codec last hash limits fingerprint
        (keyOf hash fingerprint id) events (answered last there) (small last there) action alike
        now swept
      rcases List.mem_append.mp member with early | own
      · have inside : id ∈ turns.flatMap LoopTurn.ids := List.mem_flatMap.mpr ⟨turn, early, listed⟩
        have notLast : keyOf hash fingerprint id ∉ last.ids.map (keyOf hash fingerprint) := by
          intro inLast
          obtain ⟨other, late, same⟩ := List.mem_map.mp inLast
          exact otherKey id other inside late same.symm
        rw [if_neg fun both => notLast both.2] at step
        rw [step]
        exact ih answeredBefore smallBefore distinctBefore
          (injective.mono fun _ held => List.mem_append_left _ held) turn early id listed
      · obtain rfl := List.mem_singleton.mp own
        by_cases silent : turn.reasoning = ""
        · rw [if_neg fun both => both.1 silent] at step
          rw [if_pos silent, step]
          refine going.expected_known answeredBefore smallBefore ?_
          intro known
          obtain ⟨other, early, same⟩ := List.mem_map.mp known
          exact otherKey other id early listed same
        · rw [if_pos ⟨silent, List.mem_map_of_mem listed⟩] at step
          rw [if_neg silent]
          exact ⟨now, since, step⟩

/-- A store that has not evicted the session remembers the loop as long as nothing gets old. -/
theorem LoopCommits.remembers (commits : LoopCommits fingerprint oldest turns events)
    (answered : ∀ turn ∈ turns, turn.Answered codec)
    (small : ∀ turn ∈ turns, turn.reasoning.utf8ByteSize ≤ limits.maxEntryBytes)
    (distinct : (turns.flatMap LoopTurn.ids).Nodup)
    (injective : Set.InjOn hash {id | id ∈ turns.flatMap LoopTurn.ids})
    {run : ShadowRun} (ran : (shadowStore hash limits ttl).runFrom (.start ttl) events = some run)
    (kept : ∀ id ∈ turns.flatMap LoopTurn.ids,
      ¬EvictedSince hash limits ttl events fingerprint id)
    {clock : Nat → Instant} (later : ∀ index, run.clock ≤ clock index)
    (fresh : ∀ index, clock index - oldest ≤ ttl) :
    Remembers hash fingerprint clock turns run.shadow := by
  intro turn member id listed
  have expected := commits.expected answered small distinct injective turn member id listed
  obtain ⟨sameTtl, held⟩ : Linked hash limits ttl fingerprint id events run := run_linked ran
  by_cases silent : turn.reasoning = ""
  · rw [if_pos silent] at expected ⊢
    rcases held with held | ⟨gone, -⟩
    · exact held.trans expected
    · exact gone
  · rw [if_neg silent] at expected ⊢
    obtain ⟨created, since, found⟩ := expected
    have young (index : Nat) : ¬ttl < clock index - created := by
      have bound := fresh index
      have fewer : clock index - created ≤ clock index - oldest := Nat.sub_le_sub_left since _
      exact Nat.not_lt.mpr (fewer.trans bound)
    rcases held with held | ⟨-, ⟨entry, stored, late⟩ | evicted⟩
    · exact ⟨⟨turn.reasoning, created⟩, held.trans found, rfl, fun index => sameTtl ▸ young index⟩
    · obtain rfl := Option.some.inj (found.symm.trans stored)
      have behind : run.clock - created ≤ clock 0 - created :=
        Nat.sub_le_sub_right (later 0) created
      exact absurd (late.trans_le behind) (young 0)
    · exact absurd evicted (kept id (List.mem_flatMap.mpr ⟨turn, member, listed⟩))

end Loop

end ClineProxy
