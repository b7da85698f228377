import Mathlib.Data.List.Induction
import ClineProxy.ResponsesSlots

/-! What the moves themselves say of the texts and the calls, in the order they came. -/

namespace ClineProxy

open Json

def FreshIndex (moves : List ConverterMove) (index : Int) : Prop :=
  ∀ before call after, moves = before ++ .register call :: after →
    signedCallIndex call = index → .newRound ∈ after

def Closes (moves : List ConverterMove) : Prop :=
  ∃ before call after, moves = before ++ .register call :: after ∧
    (∀ index, FreshIndex before index) ∧ ∃ text, .text text ∈ before

/-- The message is closed, and then there is more text. -/
def Resumes (moves : List ConverterMove) : Prop :=
  ∃ before text after, moves = before ++ .text text :: after ∧ Closes before

/-- A search round begins while a call that is the client's is open. -/
def Drops (names : List String) (moves : List ConverterMove) : Prop :=
  ∃ before call after, moves = before ++ .register call :: after ∧
    FreshIndex before (signedCallIndex call) ∧ names.contains (fragmentName call) = false ∧
      .newRound ∈ after

theorem snoc_split {moves before after : List ConverterMove} {last move : ConverterMove} :
    moves ++ [last] = before ++ move :: after ↔
      (moves = before ∧ last = move ∧ after = []) ∨
        ∃ rest, moves = before ++ move :: rest ∧ after = rest ++ [last] := by
  rcases List.eq_nil_or_concat after with rfl | ⟨rest, final, rfl⟩
  · simp
  · have regroup : before ++ move :: (rest ++ [final]) = (before ++ move :: rest) ++ [final] := by
      simp
    rw [List.concat_eq_append, regroup]
    constructor
    · intro same
      obtain ⟨front, back⟩ := List.append_inj' same rfl
      exact .inr ⟨rest, front, by rw [List.singleton_inj.mp back]⟩
    · rintro (⟨_, _, nothing⟩ | ⟨other, rfl, same⟩)
      · simp at nothing
      · obtain ⟨rfl, back⟩ := List.append_inj' same rfl
        rw [List.singleton_inj.mp back]

section Snoc

variable {moves : List ConverterMove} {last : ConverterMove}

theorem freshIndex_snoc (index : Int) : FreshIndex (moves ++ [last]) index ↔
    last = .newRound ∨
      FreshIndex moves index ∧ ∀ call, last = .register call → signedCallIndex call ≠ index := by
  constructor
  · intro fresh
    by_cases begins : last = .newRound
    · exact .inl begins
    · refine .inr ⟨fun before call after split same => ?_, fun call now same => ?_⟩
      · have later := fresh before call (after ++ [last]) (by simp [split]) same
        simpa [Ne.symm begins] using later
      · subst now
        simpa using fresh moves call [] rfl same
  · intro fresh before call after split same
    rcases snoc_split.mp split with ⟨rfl, now, rfl⟩ | ⟨rest, earlier, rfl⟩
    · subst now
      rcases fresh with begins | ⟨_, different⟩
      · cases begins
      · exact absurd same (different call rfl)
    · rcases fresh with rfl | ⟨known, _⟩
      · simp
      · exact List.mem_append_left _ (known before call rest earlier same)

theorem closes_snoc : Closes (moves ++ [last]) ↔ Closes moves ∨
    (∃ call, last = .register call) ∧ (∀ index, FreshIndex moves index) ∧
      ∃ text, .text text ∈ moves := by
  constructor
  · rintro ⟨before, call, after, split, fresh, spoken⟩
    rcases snoc_split.mp split with ⟨rfl, now, rfl⟩ | ⟨rest, earlier, rfl⟩
    · exact .inr ⟨⟨call, now⟩, fresh, spoken⟩
    · exact .inl ⟨before, call, rest, earlier, fresh, spoken⟩
  · rintro (⟨before, call, after, rfl, rest⟩ | ⟨⟨call, rfl⟩, rest⟩)
    · exact ⟨before, call, after ++ [last], by simp, rest⟩
    · exact ⟨moves, call, [], rfl, rest⟩

theorem resumes_snoc : Resumes (moves ++ [last]) ↔
    Resumes moves ∨ (∃ text, last = .text text) ∧ Closes moves := by
  constructor
  · rintro ⟨before, text, after, split, closed⟩
    rcases snoc_split.mp split with ⟨rfl, now, rfl⟩ | ⟨rest, earlier, rfl⟩
    · exact .inr ⟨⟨text, now⟩, closed⟩
    · exact .inl ⟨before, text, rest, earlier, closed⟩
  · rintro (⟨before, text, after, rfl, closed⟩ | ⟨⟨text, rfl⟩, closed⟩)
    · exact ⟨before, text, after ++ [last], by simp, closed⟩
    · exact ⟨moves, text, [], rfl, closed⟩

def OpenClient (names : List String) (moves : List ConverterMove) : Prop :=
  ∃ before call after, moves = before ++ .register call :: after ∧
    FreshIndex before (signedCallIndex call) ∧ names.contains (fragmentName call) = false ∧
      .newRound ∉ after

theorem openClient_snoc (names : List String) : OpenClient names (moves ++ [last]) ↔
    last ≠ .newRound ∧ (OpenClient names moves ∨ ∃ call, last = .register call ∧
      FreshIndex moves (signedCallIndex call) ∧ names.contains (fragmentName call) = false) := by
  constructor
  · rintro ⟨before, call, after, split, fresh, client, going⟩
    rcases snoc_split.mp split with ⟨rfl, rfl, rfl⟩ | ⟨rest, earlier, rfl⟩
    · exact ⟨by simp, .inr ⟨call, rfl, fresh, client⟩⟩
    · simp only [List.mem_append, List.mem_singleton, not_or] at going
      exact ⟨Ne.symm going.2, .inl ⟨before, call, rest, earlier, fresh, client, going.1⟩⟩
  · rintro ⟨going, ⟨before, call, after, rfl, fresh, client, open_⟩ | ⟨call, rfl, fresh, client⟩⟩
    · exact ⟨before, call, after ++ [last], by simp, fresh, client, by
        simp [open_, Ne.symm going]⟩
    · exact ⟨moves, call, [], rfl, fresh, client, by simp⟩

theorem drops_snoc (names : List String) : Drops names (moves ++ [last]) ↔
    Drops names moves ∨ last = .newRound ∧ OpenClient names moves := by
  constructor
  · rintro ⟨before, call, after, split, fresh, client, dropped⟩
    rcases snoc_split.mp split with ⟨rfl, rfl, rfl⟩ | ⟨rest, earlier, rfl⟩
    · cases dropped
    · by_cases before_ : .newRound ∈ rest
      · exact .inl ⟨before, call, rest, earlier, fresh, client, before_⟩
      · refine .inr ⟨?_, before, call, rest, earlier, fresh, client, before_⟩
        simpa [before_, eq_comm] using dropped
  · rintro (⟨before, call, after, rfl, fresh, client, dropped⟩ |
      ⟨rfl, before, call, after, rfl, fresh, client, _⟩)
    · exact ⟨before, call, after ++ [last], by simp, fresh, client, by simp [dropped]⟩
    · exact ⟨before, call, after ++ [.newRound], by simp, fresh, client, by simp⟩

end Snoc

/-- What the converter has heard after some moves. -/
def trackOf (names : List String) (exposeThinking : Bool) (moves : List ConverterMove) : Track :=
  Track.new.moveAll names exposeThinking moves

variable (names : List String) (exposeThinking : Bool)

theorem trackOf_snoc (moves : List ConverterMove) (last : ConverterMove) :
    trackOf names exposeThinking (moves ++ [last]) =
      (trackOf names exposeThinking moves).move names exposeThinking last := by
  simp [trackOf, Track.moveAll]

theorem firstAt_register_iff {round : CallRound} {call : Value} (index : Int) :
    (round.register call).firstAt index = none ↔
      round.firstAt index = none ∧ signedCallIndex call ≠ index := by
  simp [CallRound.firstAt, CallRound.register, List.find?_append]

theorem trackOf_firstAt (moves : List ConverterMove) (index : Int) :
    (trackOf names exposeThinking moves).round.firstAt index = none ↔ FreshIndex moves index := by
  induction moves using List.reverseRecOn generalizing index with
  | nil => simp [trackOf, Track.moveAll, Track.new, CallRound.new, CallRound.firstAt, FreshIndex]
  | append_singleton moves last ih =>
      rw [trackOf_snoc, freshIndex_snoc, ← ih]
      cases last with
      | start | note | finish => simp [Track.move]
      | reasoning | text => simp [Track.move]
      | searched => simp [Track.move]
      | newRound => simp [Track.move, CallRound.new, CallRound.firstAt]
      | extend call =>
          simp only [Track.move]
          split <;> simp [CallRound.firstAt_extend]
      | register call =>
          rw [Track.move]
          split
          next held =>
            have different : (trackOf names exposeThinking moves).round.firstAt index = none →
                signedCallIndex call ≠ index := by
              rintro absent rfl
              simp [absent] at held
            simpa using different
          next =>
            simp [Track.register, firstAt_register_iff]

theorem registered_nil_iff (round : CallRound) :
    round.registered = [] ↔ ∀ index, round.firstAt index = none := by
  constructor
  · intro nothing index
    simp [CallRound.firstAt, nothing]
  · intro absent
    cases registered : round.registered with
    | nil => rfl
    | cons call rest =>
        have none_there := absent (signedCallIndex call)
        simp [CallRound.firstAt, registered] at none_there

theorem Said.closed_hear (said : Said) (text : String) : (said.hear text).closed = said.closed := by
  rw [hear]
  split <;> rfl

theorem Said.resumed_hear (said : Said) (text : String) :
    (said.hear text).resumed ≠ [] ↔ said.resumed ≠ [] ∨ said.closed = true := by
  rw [hear]
  split <;> simp [*]

structure MessageTold (said : Said) (moves : List ConverterMove) : Prop where
  spoken : said.spoken ≠ [] ↔ ∃ text, .text text ∈ moves
  closed : said.closed = true ↔ Closes moves
  resumed : said.resumed ≠ [] ↔ Resumes moves

theorem MessageTold.closed_spoken {said : Said} {moves : List ConverterMove}
    (told : MessageTold said moves) (closed : said.closed = true) : said.spoken ≠ [] := by
  obtain ⟨before, call, after, rfl, _, text, member⟩ := told.closed.mp closed
  exact told.spoken.mpr ⟨text, List.mem_append_left _ member⟩

theorem MessageTold.aside {said : Said} {moves : List ConverterMove}
    (told : MessageTold said moves) {last : ConverterMove} (noText : ∀ text, last ≠ .text text)
    (noCall : ∀ call, last ≠ .register call) : MessageTold said (moves ++ [last]) where
  spoken := by simpa [Ne.symm (noText _)] using told.spoken
  closed := by simpa [closes_snoc, noCall] using told.closed
  resumed := by simpa [resumes_snoc, noText] using told.resumed

theorem MessageTold.hear {said : Said} {moves : List ConverterMove}
    (told : MessageTold said moves) (text : String) :
    MessageTold (said.hear text) (moves ++ [.text text]) where
  spoken := iff_of_true (Said.hear_spoken text told.closed_spoken) ⟨text, by simp⟩
  closed := by simpa [closes_snoc, Said.closed_hear] using told.closed
  resumed := by simp [resumes_snoc, Said.resumed_hear, told.resumed, told.closed]

theorem MessageTold.call {said : Said} {moves : List ConverterMove}
    (told : MessageTold said moves) (call : Value) (opens : Bool)
    (fresh : opens = true ↔ ∀ index, FreshIndex moves index) :
    MessageTold (if opens then said.close else said) (moves ++ [.register call]) where
  spoken := by
    have same : (if opens then said.close else said).spoken = said.spoken := by split <;> rfl
    simpa [same] using told.spoken
  closed := by
    rw [closes_snoc, ← told.closed, ← fresh, ← told.spoken]
    cases opens <;> simp [Said.close]
  resumed := by
    have same : (if opens then said.close else said).resumed = said.resumed := by split <;> rfl
    simpa [same, resumes_snoc] using told.resumed

theorem trackOf_message (moves : List ConverterMove) :
    MessageTold (trackOf names exposeThinking moves).message moves := by
  induction moves using List.reverseRecOn with
  | nil =>
      refine ⟨by simp [trackOf, Track.moveAll, Track.new, Said.new], ?_, ?_⟩
      · simp [trackOf, Track.moveAll, Track.new, Said.new, Closes]
      · simp [trackOf, Track.moveAll, Track.new, Said.new, Resumes]
  | append_singleton moves last ih =>
      rw [trackOf_snoc]
      cases last with
      | start | note | finish | reasoning | searched | newRound =>
          exact ih.aside (by simp) (by simp)
      | extend call =>
          rw [Track.move]
          split <;> exact ih.aside (by simp) (by simp)
      | text text => exact ih.hear text
      | register call =>
          have opens : (trackOf names exposeThinking moves).round.registered.isEmpty = true ↔
              ∀ index, FreshIndex moves index := by
            rw [List.isEmpty_iff, registered_nil_iff]
            exact forall_congr' fun index => trackOf_firstAt names exposeThinking moves index
          have told := ih.call call _ opens
          rw [Track.move]
          split
          next held =>
            have busy : (trackOf names exposeThinking moves).round.registered.isEmpty = false := by
              cases registered : (trackOf names exposeThinking moves).round.registered with
              | nil => simp [CallRound.firstAt, registered] at held
              | cons => rfl
            simpa [busy] using told
          next =>
            have message : ((trackOf names exposeThinking moves).closing.register names
                call).message = if (trackOf names exposeThinking moves).round.registered.isEmpty then
                  (trackOf names exposeThinking moves).message.close
                else (trackOf names exposeThinking moves).message := by
              rw [Track.register, Track.closing]
              split <;> rfl
            rw [message]
            exact told

theorem Said.hear_open {said : Said} (text : String)
    (going : said.closed = false ∧ said.resumed = []) :
    (said.hear text).closed = false ∧ (said.hear text).resumed = [] := by
  simp [hear, going]

theorem trackOf_reasoning (moves : List ConverterMove) :
    (trackOf names exposeThinking moves).reasoning.closed = false ∧
      (trackOf names exposeThinking moves).reasoning.resumed = [] := by
  induction moves using List.reverseRecOn with
  | nil => exact ⟨rfl, rfl⟩
  | append_singleton moves last ih =>
      rw [trackOf_snoc]
      cases last with
      | start | note | finish | searched | newRound | text => exact ih
      | reasoning text => exact Said.hear_open text ih
      | extend call =>
          rw [Track.move]
          split <;> exact ih
      | register call =>
          rw [Track.move, Track.closing]
          split
          next => exact ih
          next => split <;> exact ih

theorem trackOf_clients (moves : List ConverterMove) :
    ((∃ call ∈ (trackOf names exposeThinking moves).round.registered,
        names.contains (fragmentName call) = false) ↔ OpenClient names moves) ∧
      ((trackOf names exposeThinking moves).Lost names ↔ Drops names moves) := by
  induction moves using List.reverseRecOn with
  | nil =>
      constructor
      · simp [trackOf, Track.moveAll, Track.new, CallRound.new, OpenClient]
      · simp [trackOf, Track.moveAll, Track.new, Track.Lost, Drops]
  | append_singleton moves last ih =>
      obtain ⟨clients, lost⟩ := ih
      rw [trackOf_snoc, openClient_snoc, drops_snoc, ← clients, ← lost]
      cases last with
      | start | note | finish | searched => simp [Track.move, Track.Lost]
      | reasoning | text => simp [Track.move, Track.Lost]
      | newRound =>
          constructor
          · simp [Track.move, CallRound.new]
          · simp [Track.move, lost_newRound]
      | extend call =>
          rw [Track.move]
          split <;> simp [CallRound.extend, Track.Lost]
      | register call =>
          have fresh := trackOf_firstAt names exposeThinking moves (signedCallIndex call)
          rw [Track.move]
          split
          next held =>
            have known : ¬FreshIndex moves (signedCallIndex call) := by
              rw [← fresh]
              intro absent
              simp [absent] at held
            simp [known]
          next absent =>
            have new : FreshIndex moves (signedCallIndex call) := by
              rw [← fresh]
              simpa using absent
            constructor
            · simp [Track.register, CallRound.register, new, or_and_right, exists_or]
            · simp [Track.register, Track.Lost]

end ClineProxy
