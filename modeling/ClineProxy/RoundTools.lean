import ClineProxy.StreamFacts
import Mathlib.Data.List.Perm.Basic
import Mathlib.Data.List.Nodup

/-! The tool calls of a round as a stream holds them, and as its chunks say them. -/

namespace OrderedMap

universe u v w

variable {Key : Type u} {Value : Type v} {Item : Type w} [DecidableEq Key]

omit [DecidableEq Key] in
theorem nodup_of_sorted [LT Key] (irreflexive : ∀ key : Key, ¬key < key)
    {entries : List (Key × Value)} (sorted : Sorted entries) : (entries.map Prod.fst).Nodup := by
  rw [List.Nodup, List.pairwise_map]
  refine sorted.imp fun {first second} below same => ?_
  rw [same] at below
  exact irreflexive _ below

theorem perm_tabulated {entries : List (Key × Value)} {keys : List Key} {item : Value → Item}
    {said : Key → Item} (distinct : (entries.map Prod.fst).Nodup) (once : keys.Nodup)
    (held : ∀ key, (lookup key entries).map item = if key ∈ keys then some (said key) else none) :
    (entries.map fun entry => item entry.2).Perm (keys.map said) := by
  have mapped : (entries.map fun entry => item entry.2) = (entries.map Prod.fst).map said := by
    rw [List.map_map]
    refine List.map_congr_left fun entry member => ?_
    have found := held entry.1
    rw [lookup_of_distinct distinct member, Option.map_some] at found
    split at found
    next => exact Option.some.inj found
    next => cases found
  rw [mapped]
  refine ((List.perm_ext_iff_of_nodup distinct once).mpr fun key => ?_).map said
  rw [← not_iff_not, ← lookup_of_fresh_key, ← Option.map_eq_none_iff, held key]
  simp

end OrderedMap

namespace ClineProxy

open Json FirstSeen

def lastIdAt {Index : Type} [DecidableEq Index] (indexOf : Value → Index) (index : Index)
    (calls : List Value) : Option String :=
  (calls.filter fun call => indexOf call = index).reverse.findSome? toolCallId

theorem lastIdAt_snoc {Index : Type} [DecidableEq Index] (indexOf : Value → Index)
    (index : Index) (calls : List Value) (call : Value) :
    lastIdAt indexOf index (calls ++ [call]) =
      if indexOf call = index then (toolCallId call).or (lastIdAt indexOf index calls)
      else lastIdAt indexOf index calls := by
  rw [lastIdAt, List.filter_append]
  by_cases same : indexOf call = index
  · cases found : toolCallId call <;> simp [same, lastIdAt, found]
  · simp [same, lastIdAt]

def Fragment.call? : Fragment → Option Value
  | call value => some value
  | reasoning _ | text _ => none

namespace StreamState

/-- The tools of a state that has read `calls`. -/
structure ToolsRead (calls : List Value) (tools : List (UInt64 × ToolStream)) : Prop where
  sorted : OrderedMap.Sorted tools
  ids : ∀ index, (OrderedMap.lookup index tools).map ToolStream.id =
    if callsAt index calls = [] then none else some (lastIdAt toolCallIndex index calls)

theorem toolsRead_nil : ToolsRead [] [] := ⟨List.Pairwise.nil, fun _ => rfl⟩

variable {calls : List Value} {tools : List (UInt64 × ToolStream)}

theorem sorted_insert (sorted : OrderedMap.Sorted tools) (index : UInt64) (tool : ToolStream) :
    OrderedMap.Sorted (OrderedMap.insert index tool tools) :=
  OrderedMap.insert_sorted
    (fun _ _ notLess different =>
      UInt64.lt_of_le_of_ne (UInt64.not_lt.mp notLess) (Ne.symm different))
    (fun _ _ _ => UInt64.lt_trans) sorted

theorem ToolsRead.replace (read : ToolsRead calls tools) {index : UInt64} {held : ToolStream}
    (there : OrderedMap.lookup index tools = some held) {tool : ToolStream}
    (same : tool.id = held.id) : ToolsRead calls (OrderedMap.insert index tool tools) := by
  refine ⟨sorted_insert read.sorted index tool, fun query => ?_⟩
  rw [OrderedMap.lookup_insert, ← read.ids query]
  split
  next asked => rw [asked, there, Option.map_some, Option.map_some, same]
  next => rfl

theorem ToolsRead.set (read : ToolsRead calls tools) (call : Value) {tool : ToolStream}
    (id : tool.id = (toolCallId call).or
      ((OrderedMap.lookup (toolCallIndex call) tools).bind ToolStream.id)) :
    ToolsRead (calls ++ [call]) (OrderedMap.insert (toolCallIndex call) tool tools) := by
  refine ⟨sorted_insert read.sorted _ tool, fun query => ?_⟩
  rw [OrderedMap.lookup_insert, lastIdAt_snoc, callsAt_append]
  have held := read.ids query
  by_cases asked : query = toolCallIndex call
  · subst asked
    have last : (OrderedMap.lookup (toolCallIndex call) tools).bind ToolStream.id =
        lastIdAt toolCallIndex (toolCallIndex call) calls := by
      cases there : OrderedMap.lookup (toolCallIndex call) tools with
      | none =>
          rw [there, Option.map_none] at held
          split at held
          next unread =>
            rw [callsAt] at unread
            rw [lastIdAt, unread]
            rfl
          next => cases held
      | some tool =>
          rw [there, Option.map_some] at held
          split at held
          next => cases held
          next => exact Option.some.inj held
    simp [callsAt, id, last]
  · rw [if_neg asked, held]
    simp [callsAt, Ne.symm asked]

theorem toolsRead_appendArguments {state : StreamState} (read : ToolsRead calls state.tools)
    {index : UInt64} {held : ToolStream} (there : OrderedMap.lookup index state.tools = some held)
    (arguments : String) : ToolsRead calls (state.appendArguments index arguments).1.tools := by
  simp only [appendArguments, there, Option.getD_some]
  split
  next => exact read
  next =>
    split
    next => exact read
    next => exact read.replace there rfl

theorem toolsRead_handleTool {state : StreamState} (read : ToolsRead calls state.tools)
    (call : Value) : ToolsRead (calls ++ [call]) (state.handleTool call).1.tools := by
  have named : (state.namedTool call).id = (toolCallId call).or
      ((OrderedMap.lookup (toolCallIndex call) state.tools).bind ToolStream.id) := by
    simp only [namedTool]
    cases OrderedMap.lookup (toolCallIndex call) state.tools <;> rfl
  have inserted (tool : ToolStream) : OrderedMap.lookup (toolCallIndex call)
      (OrderedMap.insert (toolCallIndex call) tool state.tools) = some tool := by
    rw [OrderedMap.lookup_insert, if_pos rfl]
  simp only [handleTool, Emission.andThen]
  split
  next =>
    refine toolsRead_appendArguments ?_ (inserted _) _
    exact read.set call (by exact named)
  next =>
    refine toolsRead_appendArguments ?_ (inserted _) _
    exact read.set call named

def fragmentCalls (fragments : List Fragment) : List Value :=
  fragments.filterMap Fragment.call?

theorem fragmentCalls_chunk (exposeThinking : Bool) (value : Value) :
    fragmentCalls (chunkFragments exposeThinking value) = chunkCalls value := by
  have made (calls : List Value) : fragmentCalls (calls.map .call) = calls := by
    rw [fragmentCalls, List.filterMap_map]
    exact List.filterMap_some
  rw [chunkFragments, fragmentCalls, List.filterMap_append, List.filterMap_append,
    ← fragmentCalls, ← fragmentCalls, ← fragmentCalls, made]
  split <;> split <;> rfl

theorem toolsRead_fragments (fragments : List Fragment) {state : StreamState}
    (read : ToolsRead calls state.tools) :
    ToolsRead (calls ++ fragmentCalls fragments) (state.handleFragments fragments).1.tools := by
  induction fragments generalizing calls state with
  | nil => simpa [fragmentCalls, handleFragments] using read
  | cons fragment rest ih =>
      have step : ToolsRead (calls ++ fragmentCalls [fragment])
          (state.handleFragment fragment).1.tools := by
        cases fragment with
        | reasoning text =>
            have same : state.ensureThinking.1.tools = state.tools := by
              rw [ensureThinking]
              split <;> rfl
            have silent : fragmentCalls [.reasoning text] = [] := rfl
            simpa [silent, handleFragment, Emission.andThen, delta, same] using read
        | text text =>
            have same : state.ensureText.1.tools = state.tools := by
              rw [ensureText]
              split <;> rfl
            have silent : fragmentCalls [.text text] = [] := rfl
            simpa [silent, handleFragment, Emission.andThen, delta, same] using read
        | call call => exact toolsRead_handleTool read call
      have later := ih step
      rwa [List.append_assoc, fragmentCalls, fragmentCalls, ← List.filterMap_append,
        List.singleton_append, ← fragmentCalls] at later

theorem toolsRead_handleValue {state : StreamState} (read : ToolsRead calls state.tools)
    (value : Value) : ToolsRead (calls ++ chunkCalls value) (state.handleValue value).1.tools := by
  have later := @toolsRead_fragments calls (chunkFragments state.exposeThinking value)
    (state.noted value) read
  rw [fragmentCalls_chunk] at later
  rw [handleValue_eq]
  exact later

theorem toolsRead_openTools (keys : List UInt64) {state : StreamState}
    (read : ToolsRead calls state.tools)
    (there : ∀ index ∈ keys, (OrderedMap.lookup index state.tools).isSome = true) :
    ToolsRead calls (state.openTools keys).1.tools := by
  induction keys generalizing state with
  | nil => exact read
  | cons index rest ih =>
      obtain ⟨tool, found⟩ := Option.isSome_iff_exists.mp (there index List.mem_cons_self)
      have opened (held : ToolStream) : (state.startTool index held).1.tools =
          OrderedMap.insert index { held with
            blockIndex := some state.blocks.length, pendingArguments := "" } state.tools := rfl
      simp only [openTools, Emission.andThen, found, Option.getD_some]
      refine ih ?_ fun other member => ?_
      · rw [opened]
        exact read.replace found rfl
      · rw [opened, OrderedMap.lookup_insert]
        split
        next => rfl
        next => exact there other (List.mem_cons_of_mem _ member)

theorem toolsRead_finalize (platform : Platform) {state : StreamState}
    (read : ToolsRead calls state.tools) :
    ToolsRead calls (state.finalize platform).1.tools := by
  rw [finalize]
  split
  next => exact read
  next =>
    refine toolsRead_openTools _ read fun index member => ?_
    have kept := (List.mem_filter.mp member).2
    rw [Option.any_eq_true] at kept
    obtain ⟨tool, found, -⟩ := kept
    rw [found]
    rfl

theorem toolsRead_handle (platform : Platform) {state : StreamState}
    (read : ToolsRead calls state.tools) (data : String) :
    ToolsRead (calls ++ allCalls (readPayload platform.codec data).value?.toList)
      (state.handle platform data).1.tools := by
  rw [handle_eq]
  cases readPayload platform.codec data with
  | malformed => simpa [Payload.value?, allCalls, fail] using read
  | failed => simpa [Payload.value?, allCalls, fail] using read
  | chunk value => simpa [Payload.value?, allCalls] using toolsRead_handleValue read value
  | done =>
      have same : calls ++ allCalls (Payload.value? .done).toList = calls := by
        simp [Payload.value?, allCalls]
      rw [same]
      dsimp only
      split
      next => exact read
      next =>
        split
        next => exact toolsRead_finalize platform read
        next => exact read

end StreamState

end ClineProxy
