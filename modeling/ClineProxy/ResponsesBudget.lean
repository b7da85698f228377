import ClineProxy.JsonText
import ClineProxy.ResponsesPumpFacts

/-! How many searches a Responses request runs over all of its rounds. -/

namespace ClineProxy

open Json

theorem min_positive {first second : UInt64} (one : 0 < first.toNat) (other : 0 < second.toNat) :
    0 < (min first second).toNat := by
  change 0 < (if first ≤ second then first else second).toNat
  split
  next => exact one
  next => exact other

theorem clampedUses_positive (uses : UInt64) : 0 < (clampedUses uses).toNat := by
  refine min_positive ?_ (by decide)
  change 0 < (if uses ≤ 1 then 1 else uses).toNat
  split
  next => decide
  next many =>
    rw [UInt64.le_iff_toNat_le, UInt64.toNat_one] at many
    omega

theorem declaredUses_positive {tool : Value} {least : Option UInt64}
    (positive : ∀ uses ∈ least, 0 < uses.toNat) :
    ∀ uses ∈ declaredUses tool least, 0 < uses.toNat := by
  intro uses declared
  rw [declaredUses] at declared
  split at declared
  next => exact positive uses declared
  next asked _ =>
    obtain rfl := Option.some.inj declared
    cases least with
    | none => exact clampedUses_positive asked
    | some other => exact min_positive (positive other rfl) (clampedUses_positive asked)

theorem webSearchMaxUses_positive {tools : List Value} {uses : Nat}
    (declared : webSearchMaxUses tools = some uses) : 0 < uses := by
  have folded (tools : List Value) (least : Option UInt64)
      (positive : ∀ uses ∈ least, 0 < uses.toNat) :
      ∀ uses ∈ tools.foldl (fun least tool => declaredUses tool least) least,
        0 < uses.toNat := by
    induction tools generalizing least with
    | nil => exact positive
    | cons tool rest ih => exact ih _ (declaredUses_positive positive)
  simp only [webSearchMaxUses] at declared
  split at declared
  next => cases declared
  next =>
    obtain rfl := Option.some.inj declared
    cases least : (tools.filter fun tool =>
        (tool.get "type").bind Value.asStr = some "web_search").foldl
        (fun least tool => declaredUses tool least) none with
    | none => decide
    | some uses => exact folded _ none (by simp) uses least

def SearchRound.queries (codec : Codec) (round : SearchRound) : List String :=
  round.calls.filterMap fun call => (queryFromArguments codec call.arguments).toOption

theorem searchedQueries_eq (codec : Codec) (usesLeft : Nat) (calls : List OpenAiToolCall) :
    searchedQueries codec usesLeft calls = (calls.filterMap fun call =>
      (queryFromArguments codec call.arguments).toOption).take usesLeft := by
  induction calls generalizing usesLeft with
  | nil => simp [searchedQueries]
  | cons call rest ih =>
      rw [searchedQueries, List.filterMap_cons]
      split
      next spent => simp [spent, ih]
      next left =>
        cases asked : queryFromArguments codec call.arguments with
        | error code => simp [ih, Except.toOption]
        | ok query =>
            obtain ⟨fewer, rfl⟩ := Nat.exists_eq_succ_of_ne_zero left
            simp [ih, Except.toOption]

/-- The searches of the run are those of its rounds, each with the whole budget. -/
theorem run_searches (codec : Codec) (pump : ResponsesPump) (arrivals : List PumpArrival)
    (alive : pump.done = false) (whole : pump.crashed = false) (noFailure : pump.failure = none)
    (noRounds : pump.rounds = []) (noSearches : pump.searches = []) :
    (pump.run codec arrivals).1.searches =
      (pump.run codec arrivals).1.rounds.flatMap fun round : SearchRound =>
        (round.queries codec).take (ResponsesPump.maxUses pump.webSearch) := by
  refine @ResponsesPump.log_run pump codec pump.webSearch (fun log => log.searches =
    log.rounds.flatMap fun round : SearchRound =>
      (round.queries codec).take (ResponsesPump.maxUses pump.webSearch)) ?_
    arrivals alive whole noFailure rfl ?_
  · intro log replies calls held _
    have recorded : log.searches ++
        searchedQueries codec (ResponsesPump.maxUses pump.webSearch) calls =
        (log.rounds ++ [SearchRound.mk calls (executeWebSearchRound codec replies.search
          (ResponsesPump.maxUses pump.webSearch) calls).1]).flatMap fun round =>
          (round.queries codec).take (ResponsesPump.maxUses pump.webSearch) := by
      rw [List.flatMap_append, ← held, searchedQueries_eq]
      simp [SearchRound.queries]
    simp only [PumpLog.record]
    split
    next => exact recorded
    next => exact recorded
  · simp [ResponsesPump.log, noRounds, noSearches]

def SearchRound.searching (codec : Codec) (round : SearchRound) : Bool :=
  !(round.queries codec).isEmpty

theorem searched_le (codec : Codec) (uses : Nat) (rounds : List SearchRound) :
    (rounds.flatMap fun round => (round.queries codec).take uses).length ≤
      (rounds.flatMap (SearchRound.queries codec)).length := by
  induction rounds with
  | nil => exact Nat.le_refl _
  | cons round rest ih =>
      simp only [List.flatMap_cons, List.length_append, List.length_take]
      omega

theorem searched_in_full {codec : Codec} {uses : Nat} {rounds : List SearchRound}
    (left : (rounds.flatMap fun round => (round.queries codec).take uses).length < uses) :
    (rounds.flatMap (SearchRound.queries codec)).length =
      (rounds.flatMap fun round => (round.queries codec).take uses).length := by
  induction rounds with
  | nil => rfl
  | cons round rest ih =>
      simp only [List.flatMap_cons, List.length_append, List.length_take] at left ⊢
      have later := ih (by omega)
      omega

theorem searching_none (codec : Codec) (uses : Nat) (positive : 0 < uses)
    (rounds : List SearchRound) : rounds.countP (SearchRound.searching codec) = 0 ↔
      (rounds.flatMap fun round => (round.queries codec).take uses).length = 0 := by
  induction rounds with
  | nil => simp
  | cons round rest ih =>
      simp only [List.flatMap_cons, List.length_append, List.length_take, List.countP_cons,
        SearchRound.searching, Bool.not_eq_true', List.isEmpty_eq_false_iff,
        ← List.length_pos_iff] at ih ⊢
      split <;> omega

theorem searched_within (codec : Codec) (uses : Nat) (positive : 0 < uses)
    (rounds : List SearchRound) :
    (rounds.flatMap fun round => (round.queries codec).take uses).length ≤ uses ↔
      (rounds.flatMap (SearchRound.queries codec)).length ≤ uses ∨
        rounds.countP (SearchRound.searching codec) ≤ 1 := by
  induction rounds with
  | nil => simp
  | cons round rest ih =>
      have quiet := searching_none codec uses positive rest
      have full := @searched_in_full codec uses rest
      have most := searched_le codec uses rest
      simp only [List.flatMap_cons, List.length_append, List.length_take, List.countP_cons,
        SearchRound.searching, Bool.not_eq_true', List.isEmpty_eq_false_iff,
        ← List.length_pos_iff] at ih quiet ⊢
      by_cases asks : 0 < (round.queries codec).length
      · rw [if_pos asks]
        omega
      · rw [if_neg asks]
        omega

/-- The searches of a request stay in its budget exactly when its rounds ask for no more
together or only one of them asks at all: every round starts with the whole budget. -/
theorem responses_search_budget (codec : Codec) (delivery : Delivery) (responseId : String)
    (createdAt : UInt64) (model : String) (exposeThinking : Bool) (tools : List Value)
    (uses : Nat) (domains : Option DomainFilter) (chatBody : Value) (arrivals : List PumpArrival)
    (declared : webSearchMaxUses tools = some uses) :
    let last := ((ResponsesPump.start delivery responseId createdAt model exposeThinking
      (some ⟨uses, domains⟩) chatBody).run codec arrivals).1
    last.searches.length ≤ uses ↔
      (last.rounds.flatMap (SearchRound.queries codec)).length ≤ uses ∨
        last.rounds.countP (SearchRound.searching codec) ≤ 1 := by
  intro last
  have searches := run_searches codec (ResponsesPump.start delivery responseId createdAt model
    exposeThinking (some ⟨uses, domains⟩) chatBody) arrivals rfl rfl rfl rfl rfl
  rw [show last.searches = _ from searches]
  exact searched_within codec uses (webSearchMaxUses_positive declared) last.rounds

def searchTools : List Value :=
  [.object [("type", .string "web_search"), ("max_uses", .ofNat 2)]]

def twoSearches : Value :=
  chunkOf [("tool_calls", .array [wholeCall 0 "call_0" webSearchFunctionName leanQueryText,
    wholeCall 1 "call_1" webSearchFunctionName leanQueryText])] (finished "tool_calls")

def searchReplies : RoundReplies :=
  ⟨fun _ => "", fun _ query => ⟨query, [], none⟩, .success⟩

def searchArrival (chunk : Value) : PumpArrival :=
  .bytes (eventBytes [chunk] ++ doneBytes) searchReplies

theorem responses_search_budget_once :
    let last := ((ResponsesPump.start .streamed "resp_1" 0 "glm" false (some ⟨2, none⟩)
      (.object [])).run (documentCodec [leanQuery, twoSearches]) [searchArrival twoSearches]).1
    last.searches.length ≤ 2 ↔
      (last.rounds.flatMap (SearchRound.queries (documentCodec [leanQuery, twoSearches]))).length
        ≤ 2 ∨
      last.rounds.countP (SearchRound.searching (documentCodec [leanQuery, twoSearches])) ≤ 1 :=
  responses_search_budget _ .streamed "resp_1" 0 "glm" false searchTools 2 none _ _
    (by decide +kernel)

theorem responses_search_budget_fails : webSearchMaxUses searchTools = some 2 ∧
    ∀ delivery, ((ResponsesPump.start delivery "resp_1" 0 "glm" false (some ⟨2, none⟩)
      (.object [])).run (documentCodec [leanQuery, twoSearches])
      [searchArrival twoSearches, searchArrival twoSearches]).1.searches.length = 4 := by
  refine ⟨by decide +kernel, fun delivery => ?_⟩
  cases delivery <;> decide +kernel

end ClineProxy
