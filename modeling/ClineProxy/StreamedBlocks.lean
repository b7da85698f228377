import ClineProxy.ClientMessages

/-! What a client has put together after any fragments of a stream without server tools. -/

namespace ClineProxy

open Json FirstSeen OpenedBlocks
open StreamState (fragmentCalls)

section Snoc

variable (fragments : List Fragment) (fragment : Fragment)

theorem openedKeys_snoc : openedKeys (fragments ++ [fragment]) =
    match fragment.key with
    | some key => addNew (openedKeys fragments) key
    | none => openedKeys fragments := by
  rw [openedKeys, List.filterMap_append]
  cases opened : fragment.key with
  | none => simp [List.filterMap_cons_none opened, openedKeys]
  | some key => rw [List.filterMap_cons_some opened, List.filterMap_nil, firstSeen_append]; rfl

theorem addedText_snoc (key : BlockKey) : addedText key (fragments ++ [fragment]) =
    addedText key fragments ++ fragment.adds key := by
  simp [addedText, String.join_append]

theorem fragmentCalls_snoc : fragmentCalls (fragments ++ [fragment]) =
    fragmentCalls fragments ++ fragment.call?.toList := by
  rw [fragmentCalls, List.filterMap_append]
  cases fragment <;> rfl

end Snoc

theorem nodup_openedKeys (fragments : List Fragment) : (openedKeys fragments).Nodup :=
  nodup_firstSeen _

theorem mem_openedKeys {fragments : List Fragment} {key : BlockKey} :
    key ∈ openedKeys fragments ↔ ∃ fragment ∈ fragments, fragment.key = some key := by
  rw [openedKeys, mem_firstSeen, List.mem_filterMap]

theorem adds_unopened {fragment : Fragment} {key : BlockKey} (other : fragment.key ≠ some key) :
    fragment.adds key = "" := by
  cases fragment with
  | reasoning said => exact if_neg fun same : key = .thinking => other (by rw [same]; rfl)
  | text said => exact if_neg fun same : key = .text => other (by rw [same]; rfl)
  | call given =>
      by_cases same : key = .tool (toolCallIndex given)
      · have silent : callShows given = false := by
          cases shows : callShows given with
          | false => rfl
          | true => exact absurd (by rw [Fragment.key, if_pos shows, same]) other
        rw [callShows, Bool.or_eq_false_iff, Bool.not_eq_false'] at silent
        rw [Fragment.adds, if_pos same, String.isEmpty_iff.mp silent.2]
      · exact if_neg same

theorem addedText_unopened {fragments : List Fragment} {key : BlockKey}
    (closed : key ∉ openedKeys fragments) : addedText key fragments = "" := by
  rw [addedText, join_eq_empty]
  intro text member
  obtain ⟨fragment, there, rfl⟩ := List.mem_map.mp member
  exact adds_unopened fun opens => closed (mem_openedKeys.mpr ⟨fragment, there, opens⟩)

theorem mem_openedKeys_tool {fragments : List Fragment} {index : UInt64} :
    .tool index ∈ openedKeys fragments ↔
      ∃ call ∈ callsAt index (fragmentCalls fragments), callShows call = true := by
  rw [mem_openedKeys]
  constructor
  · rintro ⟨fragment, member, opens⟩
    cases fragment with
    | reasoning => cases opens
    | text => cases opens
    | call given =>
        rw [Fragment.key] at opens
        split at opens
        next shows =>
          have same : toolCallIndex given = index := by simpa using opens
          refine ⟨given, List.mem_filter.mpr ⟨?_, by simpa using same⟩, shows⟩
          exact List.mem_filterMap.mpr ⟨_, member, rfl⟩
        next => cases opens
  · rintro ⟨call, member, shows⟩
    obtain ⟨there, same⟩ := List.mem_filter.mp member
    obtain ⟨fragment, held, called⟩ := List.mem_filterMap.mp there
    refine ⟨fragment, held, ?_⟩
    cases fragment with
    | reasoning => cases called
    | text => cases called
    | call given =>
        cases called
        rw [Fragment.key, if_pos shows, of_decide_eq_true same]

theorem upToShown_append {calls : List Value} (shown : ∃ call ∈ calls, callShows call = true)
    (more : List Value) : upToShown (calls ++ more) = upToShown calls := by
  induction calls with
  | nil =>
      obtain ⟨call, member, -⟩ := shown
      cases member
  | cons first rest ih =>
      rw [List.cons_append, upToShown, upToShown]
      split
      next => rfl
      next silent =>
        obtain ⟨call, member, shows⟩ := shown
        have later : call ∈ rest := (List.mem_cons.mp member).resolve_left fun same =>
          silent (same ▸ shows)
        rw [ih ⟨call, later, shows⟩]

theorem upToShown_snoc {calls : List Value} (silent : ∀ call ∈ calls, callShows call = false)
    (last : Value) : upToShown (calls ++ [last]) = calls ++ [last] := by
  induction calls with
  | nil =>
      rw [List.nil_append, upToShown]
      split <;> rfl
  | cons first rest ih =>
      rw [List.cons_append, upToShown, silent first List.mem_cons_self,
        ih fun other member => silent other (List.mem_cons_of_mem _ member)]
      rfl

section Blocks

variable {fragments : List Fragment} {fragment : Fragment} {key : BlockKey}

theorem openedWith_snoc (opened : key ∈ openedKeys fragments) (fragment : Fragment) :
    openedWith (fragments ++ [fragment]) key = openedWith fragments key := by
  cases key with
  | thinking => rfl
  | text => rfl
  | tool index =>
      have shown := mem_openedKeys_tool.mp opened
      rw [openedWith, fragmentCalls_snoc, callsAt_append, upToShown_append shown]
      rfl

theorem clientBlock_snoc (opened : key ∈ openedKeys fragments) (fragment : Fragment) :
    clientBlock (fragments ++ [fragment]) key =
      { clientBlock fragments key with
        added := addedText key fragments ++ fragment.adds key } := by
  rw [clientBlock, openedWith_snoc opened, addedText_snoc, clientBlock]

theorem clientBlock_same (opened : key ∈ openedKeys fragments)
    (other : fragment.key ≠ some key) :
    clientBlock (fragments ++ [fragment]) key = clientBlock fragments key := by
  rw [clientBlock_snoc opened, adds_unopened other, String.append_empty]
  rfl

theorem clientBlocks_kept (same : openedKeys (fragments ++ [fragment]) = openedKeys fragments)
    (nothing : ∀ key, fragment.adds key = "") :
    (openedKeys (fragments ++ [fragment])).map (clientBlock (fragments ++ [fragment])) =
      (openedKeys fragments).map (clientBlock fragments) := by
  rw [same]
  refine List.map_congr_left fun key member => ?_
  rw [clientBlock_snoc member, nothing, String.append_empty]
  rfl

theorem clientBlocks_open {place : Nat} (opens : fragment.key = some key)
    (found : position key (openedKeys fragments) = some place) {kind : String}
    (unsigned : kind ≠ "signature_delta") :
    (openedKeys (fragments ++ [fragment])).map (clientBlock (fragments ++ [fragment])) =
      ((openedKeys fragments).map (clientBlock fragments)).modify place
        (ClientBlock.addDelta kind (fragment.adds key)) := by
  have opened : key ∈ openedKeys fragments := by
    by_contra closed
    rw [position_eq_none.mpr closed] at found
    cases found
  rw [openedKeys_snoc, opens, modify_position (nodup_openedKeys fragments) found]
  simp only [addNew, opened, ↓reduceIte]
  refine List.map_congr_left fun other member => ?_
  split
  next same =>
    rw [same, clientBlock_snoc opened, ClientBlock.addDelta, if_neg unsigned]
    rfl
  next different => exact clientBlock_same member (by simpa [opens] using Ne.symm different)

theorem clientBlocks_fresh (opens : fragment.key = some key)
    (closed : key ∉ openedKeys fragments) :
    (openedKeys (fragments ++ [fragment])).map (clientBlock (fragments ++ [fragment])) =
      (openedKeys fragments).map (clientBlock fragments) ++
        [⟨openedWith (fragments ++ [fragment]) key, fragment.adds key, none, false⟩] := by
  rw [openedKeys_snoc, opens]
  simp only [addNew, closed, ↓reduceIte, List.map_append, List.map_singleton]
  congr 1
  · refine List.map_congr_left fun other member => clientBlock_same member ?_
    rw [opens]
    exact fun same => closed (Option.some.inj same ▸ member)
  · rw [clientBlock, addedText_snoc, addedText_unopened closed, String.empty_append]

end Blocks

def heldTool (fragments : List Fragment) (index : UInt64) : Option ToolStream :=
  if callsAt index (fragmentCalls fragments) = [] then none
  else some {
    blockIndex := position (.tool index) (openedKeys fragments)
    id := lastIdAt toolCallIndex index (fragmentCalls fragments)
    name := lastName (callsAt index (fragmentCalls fragments))
    pendingArguments := ""
    server := false }

structure Assembled (fragments : List Fragment) (state : StreamState) (client : ClientMessage) :
    Prop where
  clientBlocks : client.blocks = (openedKeys fragments).map (clientBlock fragments)
  kinds : state.blocks = (openedKeys fragments).map BlockKey.kind
  textIndex : state.textIndex = position .text (openedKeys fragments)
  thinkingIndex : state.thinkingIndex = position .thinking (openedKeys fragments)
  tools : ∀ index, OrderedMap.lookup index state.tools = heldTool fragments index
  noServerTools : state.serverToolNames = []
  unbuffered : state.bufferClientTools = false

theorem heldTool_other {fragments : List Fragment} {fragment : Fragment} {index : UInt64}
    (other : ∀ call, fragment = .call call → toolCallIndex call ≠ index) :
    heldTool (fragments ++ [fragment]) index = heldTool fragments index := by
  have apart : ∀ key, fragment.key = some key → key ≠ .tool index := by
    intro key opens same
    cases fragment with
    | reasoning => cases opens; cases same
    | text => cases opens; cases same
    | call given =>
        rw [Fragment.key] at opens
        split at opens
        next =>
          cases opens
          exact other given rfl (BlockKey.tool.inj same)
        next => cases opens
  have calls : callsAt index (fragment.call?.toList) = [] := by
    cases fragment with
    | reasoning => rfl
    | text => rfl
    | call given => simp [Fragment.call?, callsAt, other given rfl]
  have ids : lastIdAt toolCallIndex index (fragmentCalls fragments ++ fragment.call?.toList) =
      lastIdAt toolCallIndex index (fragmentCalls fragments) := by
    cases fragment with
    | reasoning => simp [Fragment.call?]
    | text => simp [Fragment.call?]
    | call given =>
        have different := other given rfl
        simp [Fragment.call?, lastIdAt_snoc, different]
  have place : position (.tool index) (openedKeys (fragments ++ [fragment])) =
      position (.tool index) (openedKeys fragments) := by
    rw [openedKeys_snoc]
    cases opens : fragment.key with
    | none => rfl
    | some key => exact position_addNew_other (apart key opens) _
  rw [heldTool, heldTool, fragmentCalls_snoc, callsAt_append, calls, List.append_nil, ids, place]

namespace Assembled

variable {fragments : List Fragment} {state : StreamState} {client : ClientMessage}

theorem length_eq (held : Assembled fragments state client) :
    state.blocks.length = client.blocks.length := by
  rw [held.kinds, held.clientBlocks, List.length_map, List.length_map]

theorem tools_snoc (held : Assembled fragments state client) {fragment : Fragment}
    (noCall : fragment.call? = none) (index : UInt64) :
    OrderedMap.lookup index state.tools = heldTool (fragments ++ [fragment]) index := by
  rw [held.tools, heldTool_other]
  rintro call rfl
  cases noCall

theorem readText (held : Assembled fragments state client) (said : String) :
    Assembled (fragments ++ [.text said]) (state.handleFragment (.text said)).1
      (client.readAll (state.handleFragment (.text said)).2) := by
  have opens : (Fragment.text said).key = some .text := rfl
  have keys : openedKeys (fragments ++ [.text said]) = addNew (openedKeys fragments) .text :=
    openedKeys_snoc fragments (.text said)
  have thinking : state.thinkingIndex =
      position .thinking (openedKeys (fragments ++ [.text said])) := by
    rw [keys, position_addNew_other (by decide), held.thinkingIndex]
  cases found : state.textIndex with
  | some place =>
      have there : position .text (openedKeys fragments) = some place := by
        rw [← held.textIndex, found]
      have opened : BlockKey.text ∈ openedKeys fragments := by
        by_contra closed
        rw [position_eq_none.mpr closed] at there
        cases there
      have same : openedKeys (fragments ++ [.text said]) = openedKeys fragments := by
        rw [keys, addNew, if_pos opened]
      have step : state.handleFragment (.text said) =
          (state, [.blockDelta place "text_delta" "text" said]) := by
        simp [StreamState.handleFragment, StreamState.ensureText, found, Emission.andThen,
          StreamState.delta]
      rw [step]
      refine ⟨?_, ?_, ?_, thinking, held.tools_snoc rfl, held.noServerTools, held.unbuffered⟩
      · rw [clientBlocks_open opens there (by decide : "text_delta" ≠ "signature_delta"),
          ← held.clientBlocks]
        rfl
      · rw [same, held.kinds]
      · rw [same, held.textIndex]
  | none =>
      have closed : BlockKey.text ∉ openedKeys fragments := by
        rw [← position_eq_none, ← held.textIndex, found]
      have step : state.handleFragment (.text said) =
          ({ state with
              textIndex := some state.blocks.length
              blocks := state.blocks ++ [.text] },
            [.blockStart state.blocks.length (openedWith (fragments ++ [.text said]) .text),
              .blockDelta state.blocks.length "text_delta" "text" said]) := by
        simp [StreamState.handleFragment, StreamState.ensureText, found, Emission.andThen,
          StreamState.delta, StreamState.pushBlock, openedWith]
      rw [step]
      refine ⟨?_, ?_, ?_, thinking, held.tools_snoc rfl, held.noServerTools, held.unbuffered⟩
      · rw [clientBlocks_fresh opens closed, ← held.clientBlocks, held.length_eq]
        simp [ClientMessage.readAll, ClientMessage.read, modify_last, ClientBlock.start,
          ClientBlock.addDelta, Fragment.adds]
      · rw [keys, addNew, if_neg closed, List.map_append, ← held.kinds]
        rfl
      · rw [keys, addNew, if_neg closed, position_snoc closed, held.kinds, List.length_map]

theorem readReasoning (held : Assembled fragments state client) (said : String) :
    Assembled (fragments ++ [.reasoning said]) (state.handleFragment (.reasoning said)).1
      (client.readAll (state.handleFragment (.reasoning said)).2) := by
  have opens : (Fragment.reasoning said).key = some .thinking := rfl
  have keys : openedKeys (fragments ++ [.reasoning said]) =
      addNew (openedKeys fragments) .thinking := openedKeys_snoc fragments (.reasoning said)
  have text : state.textIndex = position .text (openedKeys (fragments ++ [.reasoning said])) := by
    rw [keys, position_addNew_other (by decide), held.textIndex]
  cases found : state.thinkingIndex with
  | some place =>
      have there : position .thinking (openedKeys fragments) = some place := by
        rw [← held.thinkingIndex, found]
      have opened : BlockKey.thinking ∈ openedKeys fragments := by
        by_contra closed
        rw [position_eq_none.mpr closed] at there
        cases there
      have same : openedKeys (fragments ++ [.reasoning said]) = openedKeys fragments := by
        rw [keys, addNew, if_pos opened]
      have step : state.handleFragment (.reasoning said) =
          (state, [.blockDelta place "thinking_delta" "thinking" said]) := by
        simp [StreamState.handleFragment, StreamState.ensureThinking, found, Emission.andThen,
          StreamState.delta]
      rw [step]
      refine ⟨?_, ?_, text, ?_, held.tools_snoc rfl, held.noServerTools, held.unbuffered⟩
      · rw [clientBlocks_open opens there (by decide : "thinking_delta" ≠ "signature_delta"),
          ← held.clientBlocks]
        rfl
      · rw [same, held.kinds]
      · rw [same, held.thinkingIndex]
  | none =>
      have closed : BlockKey.thinking ∉ openedKeys fragments := by
        rw [← position_eq_none, ← held.thinkingIndex, found]
      have step : state.handleFragment (.reasoning said) =
          ({ state with
              thinkingIndex := some state.blocks.length
              blocks := state.blocks ++ [.thinking] },
            [.blockStart state.blocks.length
                (openedWith (fragments ++ [.reasoning said]) .thinking),
              .blockDelta state.blocks.length "thinking_delta" "thinking" said]) := by
        simp [StreamState.handleFragment, StreamState.ensureThinking, found, Emission.andThen,
          StreamState.delta, StreamState.pushBlock, openedWith]
      rw [step]
      refine ⟨?_, ?_, text, ?_, held.tools_snoc rfl, held.noServerTools, held.unbuffered⟩
      · rw [clientBlocks_fresh opens closed, ← held.clientBlocks, held.length_eq]
        simp [ClientMessage.readAll, ClientMessage.read, modify_last, ClientBlock.start,
          ClientBlock.addDelta, Fragment.adds]
      · rw [keys, addNew, if_neg closed, List.map_append, ← held.kinds]
        rfl
      · rw [keys, addNew, if_neg closed, position_snoc closed, held.kinds, List.length_map]

end Assembled

section Calls

variable {fragments : List Fragment} {call : Value}

theorem callsAt_call (fragments : List Fragment) (call : Value) :
    callsAt (toolCallIndex call) (fragmentCalls (fragments ++ [.call call])) =
      callsAt (toolCallIndex call) (fragmentCalls fragments) ++ [call] := by
  rw [fragmentCalls_snoc, callsAt_append]
  simp [Fragment.call?, callsAt]

/-- The calls of a tool whose block is not open bring no name. -/
theorem silent_of_closed {index : UInt64} (closed : .tool index ∉ openedKeys fragments) :
    ∀ call ∈ callsAt index (fragmentCalls fragments), callShows call = false := by
  intro call member
  by_contra shows
  exact closed (mem_openedKeys_tool.mpr ⟨call, member, Bool.eq_true_of_not_eq_false shows⟩)

theorem lastName_silent {calls : List Value} (silent : ∀ call ∈ calls, callShows call = false) :
    lastName calls = none := by
  rw [lastName, List.findSome?_eq_none_iff]
  intro call member
  have quiet := silent call (List.mem_reverse.mp member)
  rw [callShows, Bool.or_eq_false_iff] at quiet
  simpa using quiet.1

theorem lastName_snoc (calls : List Value) (call : Value) :
    lastName (calls ++ [call]) = (toolCallName call).or (lastName calls) := by
  rw [lastName, List.reverse_append, List.reverse_singleton, List.singleton_append,
    List.findSome?_cons]
  cases toolCallName call <;> rfl

theorem heldTool_getD (fragments : List Fragment) (index : UInt64) :
    (heldTool fragments index).getD .empty = {
      blockIndex := position (.tool index) (openedKeys fragments)
      id := lastIdAt toolCallIndex index (fragmentCalls fragments)
      name := lastName (callsAt index (fragmentCalls fragments))
      pendingArguments := ""
      server := false } := by
  rw [heldTool]
  split
  next unsaid =>
    have closed : .tool index ∉ openedKeys fragments := by
      rw [mem_openedKeys_tool, unsaid]
      simp
    have noId : lastIdAt toolCallIndex index (fragmentCalls fragments) = none := by
      rw [callsAt] at unsaid
      rw [lastIdAt, unsaid]
      rfl
    rw [position_eq_none.mpr closed, noId, unsaid]
    rfl
  next => rfl

def readTool (fragments : List Fragment) (call : Value) (place : Option Nat) : ToolStream where
  blockIndex := place
  id := lastIdAt toolCallIndex (toolCallIndex call) (fragmentCalls (fragments ++ [.call call]))
  name := lastName (callsAt (toolCallIndex call) (fragmentCalls (fragments ++ [.call call])))
  pendingArguments := ""
  server := false

theorem heldTool_call (fragments : List Fragment) (call : Value) :
    heldTool (fragments ++ [.call call]) (toolCallIndex call) =
      some (readTool fragments call
        (position (.tool (toolCallIndex call)) (openedKeys (fragments ++ [.call call])))) := by
  rw [heldTool, if_neg (by rw [callsAt_call]; simp)]
  rfl

end Calls

namespace Assembled

variable {fragments : List Fragment} {state : StreamState} {client : ClientMessage}

theorem namedTool_eq (held : Assembled fragments state client) (call : Value) :
    state.namedTool call = readTool fragments call
      (position (.tool (toolCallIndex call)) (openedKeys fragments)) := by
  have ids : lastIdAt toolCallIndex (toolCallIndex call) (fragmentCalls (fragments ++ [.call call])) =
      (toolCallId call).or
        (lastIdAt toolCallIndex (toolCallIndex call) (fragmentCalls fragments)) := by
    rw [fragmentCalls_snoc]
    exact (lastIdAt_snoc _ _ _ _).trans (if_pos rfl)
  rw [StreamState.namedTool, held.tools, heldTool_getD, readTool, callsAt_call, lastName_snoc, ids,
    held.noServerTools]
  simp

theorem tools_call (held : Assembled fragments state client) (call : Value) (index : UInt64) :
    OrderedMap.lookup index (OrderedMap.insert (toolCallIndex call) (readTool fragments call
        (position (.tool (toolCallIndex call)) (openedKeys (fragments ++ [.call call]))))
      state.tools) = heldTool (fragments ++ [.call call]) index := by
  rw [OrderedMap.lookup_insert]
  split
  next same => rw [same, heldTool_call]
  next other =>
    rw [held.tools, heldTool_other]
    rintro given same
    cases same
    exact Ne.symm other

theorem appendArguments_open {next : StreamState} {call : Value} {place : Nat}
    (there : OrderedMap.lookup (toolCallIndex call) next.tools =
      some (readTool fragments call (some place))) :
    next.appendArguments (toolCallIndex call) (toolCallArguments call) =
      (next, if (toolCallArguments call).isEmpty then []
        else [.blockDelta place "input_json_delta" "partial_json" (toolCallArguments call)]) := by
  simp only [StreamState.appendArguments, there, Option.getD_some, readTool]
  split <;> rfl

theorem readCall_open (held : Assembled fragments state client) {call : Value} {place : Nat}
    (found : position (.tool (toolCallIndex call)) (openedKeys fragments) = some place) :
    Assembled (fragments ++ [.call call]) (state.handleFragment (.call call)).1
      (client.readAll (state.handleFragment (.call call)).2) := by
  have opened : BlockKey.tool (toolCallIndex call) ∈ openedKeys fragments := by
    by_contra closed
    rw [position_eq_none.mpr closed] at found
    cases found
  have same : openedKeys (fragments ++ [.call call]) = openedKeys fragments := by
    rw [openedKeys_snoc, Fragment.key]
    split
    next shows =>
      split at shows
      next => cases shows; rw [addNew, if_pos opened]
      next => cases shows
    next => rfl
  have tools := held.tools_call call
  rw [same, found] at tools
  have step : state.handleFragment (.call call) =
      (state.setTool (toolCallIndex call) (readTool fragments call (some place)),
        if (toolCallArguments call).isEmpty then []
        else [.blockDelta place "input_json_delta" "partial_json" (toolCallArguments call)]) := by
    rw [StreamState.handleFragment, StreamState.handleTool, held.namedTool_eq, found]
    simp only [StreamState.startsTool, readTool, Option.isNone_some, Bool.false_and,
      Bool.false_eq_true, ↓reduceIte]
    refine @appendArguments_open fragments _ call place ?_
    rw [StreamState.setTool, OrderedMap.lookup_insert, if_pos rfl]
    rfl
  rw [step]
  refine ⟨?_, ?_, ?_, ?_, tools, held.noServerTools, held.unbuffered⟩
  · by_cases quiet : (toolCallArguments call).isEmpty = true
    · rw [if_pos quiet, clientBlocks_kept same fun key => ?_]
      · exact held.clientBlocks
      · rw [Fragment.adds, String.isEmpty_iff.mp quiet, ite_self]
    · have opens : (Fragment.call call).key = some (.tool (toolCallIndex call)) := by
        rw [Fragment.key, if_pos (by simp [callShows, quiet])]
      rw [if_neg quiet, clientBlocks_open opens found
        (by decide : "input_json_delta" ≠ "signature_delta"), ← held.clientBlocks,
        Fragment.adds, if_pos rfl]
      rfl
  · rw [same]
    exact held.kinds
  · rw [same]
    exact held.textIndex
  · rw [same]
    exact held.thinkingIndex

theorem readCall_silent (held : Assembled fragments state client) {call : Value}
    (closed : position (.tool (toolCallIndex call)) (openedKeys fragments) = none)
    (silent : callShows call = false) :
    Assembled (fragments ++ [.call call]) (state.handleFragment (.call call)).1
      (client.readAll (state.handleFragment (.call call)).2) := by
  have quiet : (toolCallName call).isSome = false ∧ (toolCallArguments call).isEmpty = true := by
    rw [callShows, Bool.or_eq_false_iff, Bool.not_eq_false'] at silent
    exact silent
  have same : openedKeys (fragments ++ [.call call]) = openedKeys fragments := by
    rw [openedKeys_snoc, Fragment.key, silent]
    rfl
  have tools := held.tools_call call
  rw [same, closed] at tools
  have unnamed : (readTool fragments call none).name = none := by
    have noName := lastName_silent (silent_of_closed (position_eq_none.mp closed))
    rw [readTool, callsAt_call, lastName_snoc, noName]
    simpa using quiet.1
  have step : state.handleFragment (.call call) =
      (state.setTool (toolCallIndex call) (readTool fragments call none), []) := by
    rw [StreamState.handleFragment, StreamState.handleTool, held.namedTool_eq, closed]
    simp [StreamState.startsTool, unnamed, quiet.2, Emission.andThen,
      StreamState.appendArguments]
  rw [step]
  refine ⟨?_, ?_, ?_, ?_, tools, held.noServerTools, held.unbuffered⟩
  · rw [clientBlocks_kept same fun key => ?_]
    · exact held.clientBlocks
    · rw [Fragment.adds, String.isEmpty_iff.mp quiet.2, ite_self]
  · rw [same]
    exact held.kinds
  · rw [same]
    exact held.textIndex
  · rw [same]
    exact held.thinkingIndex

theorem readCall_fresh (held : Assembled fragments state client) {call : Value}
    (closed : position (.tool (toolCallIndex call)) (openedKeys fragments) = none)
    (shows : callShows call = true) :
    Assembled (fragments ++ [.call call]) (state.handleFragment (.call call)).1
      (client.readAll (state.handleFragment (.call call)).2) := by
  have fresh := position_eq_none.mp closed
  have silent := silent_of_closed fresh
  have opens : (Fragment.call call).key = some (.tool (toolCallIndex call)) := by
    rw [Fragment.key, if_pos shows]
  have keys : openedKeys (fragments ++ [.call call]) =
      openedKeys fragments ++ [.tool (toolCallIndex call)] := by
    rw [openedKeys_snoc, opens]
    exact if_neg fresh
  have tools := held.tools_call call
  rw [keys, position_snoc fresh, ← List.length_map BlockKey.kind, ← held.kinds] at tools
  have name : (readTool fragments call none).name = toolCallName call := by
    rw [readTool, callsAt_call, lastName_snoc, lastName_silent silent, Option.or_none]
  have starts : state.startsTool (readTool fragments call none) (toolCallArguments call) = true := by
    rw [callShows] at shows
    rw [StreamState.startsTool, name, shows, held.noServerTools, held.unbuffered]
    rfl
  have block : toolBlock (idOr (toolCallIndex call) (readTool fragments call none).id)
      (nameOr (readTool fragments call none).name) (.object []) =
        openedWith (fragments ++ [.call call]) (.tool (toolCallIndex call)) := by
    rw [openedWith, callsAt_call, upToShown_snoc silent, readTool, callsAt_call, lastIdAt,
      ← callsAt_call]
    rfl
  have started : state.startTool (toolCallIndex call) (readTool fragments call none) =
      ({ state with
          blocks := state.blocks ++ [.tool]
          tools := OrderedMap.insert (toolCallIndex call)
            (readTool fragments call (some state.blocks.length)) state.tools },
        [.blockStart state.blocks.length
          (openedWith (fragments ++ [.call call]) (.tool (toolCallIndex call)))]) := by
    rw [← block]
    rfl
  have step : state.handleFragment (.call call) =
      ({ state with
          blocks := state.blocks ++ [.tool]
          tools := OrderedMap.insert (toolCallIndex call)
            (readTool fragments call (some state.blocks.length)) state.tools },
        .blockStart state.blocks.length
            (openedWith (fragments ++ [.call call]) (.tool (toolCallIndex call))) ::
          if (toolCallArguments call).isEmpty then []
          else [.blockDelta state.blocks.length "input_json_delta" "partial_json"
            (toolCallArguments call)]) := by
    rw [StreamState.handleFragment, StreamState.handleTool, held.namedTool_eq, closed]
    simp only [starts, ↓reduceIte, started, Emission.andThen]
    rw [@appendArguments_open fragments _ call state.blocks.length
      (by rw [OrderedMap.lookup_insert, if_pos rfl])]
    rfl
  rw [step]
  refine ⟨?_, ?_, ?_, ?_, tools, held.noServerTools, held.unbuffered⟩
  · rw [clientBlocks_fresh opens fresh, ← held.clientBlocks, held.length_eq, Fragment.adds,
      if_pos rfl]
    by_cases quiet : (toolCallArguments call).isEmpty = true
    · rw [if_pos quiet, String.isEmpty_iff.mp quiet]
      rfl
    · rw [if_neg quiet]
      simp [ClientMessage.readAll, ClientMessage.read, modify_last, ClientBlock.start,
        ClientBlock.addDelta]
  · rw [keys, List.map_append, ← held.kinds]
    rfl
  · rw [keys, position_snoc_other (by simp), held.textIndex]
  · rw [keys, position_snoc_other (by simp), held.thinkingIndex]

theorem readFragment (held : Assembled fragments state client) (fragment : Fragment) :
    Assembled (fragments ++ [fragment]) (state.handleFragment fragment).1
      (client.readAll (state.handleFragment fragment).2) := by
  cases fragment with
  | reasoning said => exact held.readReasoning said
  | text said => exact held.readText said
  | call call =>
      cases found : position (.tool (toolCallIndex call)) (openedKeys fragments) with
      | some place => exact held.readCall_open found
      | none =>
          cases shows : callShows call with
          | true => exact held.readCall_fresh found shows
          | false => exact held.readCall_silent found shows

theorem readFragments (held : Assembled fragments state client) (more : List Fragment) :
    Assembled (fragments ++ more) (state.handleFragments more).1
      (client.readAll (state.handleFragments more).2) := by
  induction more generalizing fragments state client with
  | nil => simpa [StreamState.handleFragments, ClientMessage.readAll] using held
  | cons fragment rest ih =>
      have later := ih (held.readFragment fragment)
      rw [List.append_assoc, List.singleton_append] at later
      rw [StreamState.handleFragments, Emission.andThen, ClientMessage.readAll_append]
      exact later

end Assembled

end ClineProxy
