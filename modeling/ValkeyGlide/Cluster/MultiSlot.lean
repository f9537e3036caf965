import ValkeyGlide.Cluster.Routing
import ValkeyGlide.Foundation.Scatter

/-!
# Splitting and merging multi-key commands

A command whose keys lie in several slots is split into one command per slot,
and the array replies are merged back in the order of the original keys
(`cluster_routing.rs`).  The main result says that for `MGET` and `JSON.MGET`
the split is invisible: the merged reply is the reply of a single node to the
whole command.
-/

namespace ValkeyGlide.Cluster

open Foundation Protocol

/-! ## Splitting -/

def commandForMultiSlotIndices (originalCmd : Cmd) (indices : List Nat) : Cmd :=
  indices.foldl (fun newCmd index => newCmd.arg (originalCmd.argIdx (index + 1)))
    (Cmd.arg ⟨[]⟩ (originalCmd.argIdx 0))

/-! ## Merging -/

def stepBy (step : Nat) (indices : List Nat) : List Nat :=
  (indices.zipIdx.filter fun entry => entry.2 % step == 0).map Prod.fst

def debugIndices (indices : List Nat) : String :=
  "[" ++ ", ".intercalate (indices.map toString) ++ "]"

def checkIndicesInput (stepCount : Nat) : RouteIndices → RedisResult Unit
  | [] => .ok ()
  | (_, indices) :: rest =>
    if indices.length % stepCount ≠ 0 then
      .error (.withDescriptionAndDetail .clientError "Invalid indices input detected"
        ("Expected argument pattern with tuples of size " ++ toString stepCount ++
          ", but found indices: " ++ debugIndices indices))
    else checkIndicesInput stepCount rest

/-- The result positions of one route; `none` where the source panics. -/
def resultIndices (argsPattern : MultiSlotArgPattern) (indices : List Nat) : Option (List Nat) :=
  match argsPattern with
  | .keysOnly => some indices
  | .keysAndLastArg =>
    match indices with
    | [] => none
    | _ => some indices.dropLast
  | .keyWithTwoArgTriples => some ((stepBy 3 indices).map (· / 3))
  | .keyValuePairs => some ((stepBy 2 indices).map (· / 2))

def calculateMultiSlotResultIndices (routeArgIndices : RouteIndices)
    (argsPattern : MultiSlotArgPattern) : RedisResult (List (Option (List Nat))) := do
  match argsPattern with
  | .keyWithTwoArgTriples => checkIndicesInput 3 routeArgIndices
  | .keyValuePairs => checkIndicesInput 2 routeArgIndices
  | _ => pure ()
  return routeArgIndices.map fun entry => resultIndices argsPattern entry.2

def resultsLength (values : List Value) : Nat :=
  values.foldl (fun length value =>
    match value with
    | .array values => values.length + length
    | _ => 0) 0

/-- The two nested loops that place the replies; `none` where the source panics. -/
def placeResults : List Value → List (Option (List Nat) × Value) →
    Option (RedisResult (List Value))
  | results, [] => some (.ok results)
  | _, (none, _) :: _ => none
  | results, (some keyIndices, .array values) :: rest =>
    if values.length = keyIndices.length then
      match scatter results (keyIndices.zip values) with
      | none => none
      | some results => placeResults results rest
    else none
  | _, (some _, _) :: _ =>
    some (.error (.withDescription .typeError "expected array of values as response"))

def combineAndSortArrayResults (values : List Value) (routeArgIndices : RouteIndices)
    (argsPattern : MultiSlotArgPattern) : Option (RedisResult Value) :=
  match calculateMultiSlotResultIndices routeArgIndices argsPattern with
  | .error error => some (.error error)
  | .ok indices =>
    if values.length ≠ indices.length then
      some (.error (.withDescriptionAndDetail .clientError
        "Mismatch in the number of multi-slot results compared to the expected result count."
        ("Expected: " ++ toString values.length ++ ", Found: " ++ toString indices.length)))
    else
      match placeResults (List.replicate (resultsLength values) .nil) (indices.zip values) with
      | none => none
      | some (.error error) => some (.error error)
      | some (.ok results) => some (.ok (.array results))

/-! ## The sub-commands -/

private theorem foldl_arg (args : List Bytes) (indices : List Nat) (start : List Bytes) :
    indices.foldl (fun newCmd index => newCmd.arg ((Cmd.ofBytes args).argIdx (index + 1)))
      (Cmd.ofBytes start) =
    Cmd.ofBytes (start ++ indices.filterMap fun index => args[index + 1]?) := by
  induction indices generalizing start with
  | nil => simp
  | cons index rest ih =>
    rw [List.foldl_cons, Cmd.argIdx_ofBytes]
    cases harg : args[index + 1]? with
    | none => simpa [Cmd.arg, harg] using ih start
    | some data =>
      have hpush : (Cmd.ofBytes start).arg (some data) = Cmd.ofBytes (start ++ [data]) := by
        simp [Cmd.arg, Cmd.ofBytes]
      rw [hpush, ih]
      simp [harg]

theorem commandForMultiSlotIndices_ofBytes (name : Bytes) (params : List Bytes)
    (indices : List Nat) :
    commandForMultiSlotIndices (Cmd.ofBytes (name :: params)) indices =
      Cmd.ofBytes (name :: indices.filterMap fun index => params[index]?) := by
  have hstart : Cmd.arg ⟨[]⟩ ((Cmd.ofBytes (name :: params)).argIdx 0) = Cmd.ofBytes [name] := by
    simp only [Cmd.argIdx_ofBytes]
    rfl
  rw [commandForMultiSlotIndices, hstart, foldl_arg]
  simp

/-! ## Keys and routes -/

/--
The argument positions held by `routes` are the first `count` positions of `keys`,
each exactly once and under the route of its key.
-/
structure Splits (crc16 : Bytes → Nat) (isReadonly : Bool) (keys : List Bytes) (count : Nat)
    (routes : RouteIndices) : Prop where
  indices : (routes.flatMap Prod.snd).Perm (List.range count)
  routed : ∀ entry ∈ routes, ∀ index ∈ entry.2, ∃ key, keys[index]? = some key ∧
    getRoute crc16 isReadonly key = entry.1

theorem flatMap_pushIndices (routes : RouteIndices) (route : Route) (indices : List Nat) :
    ((pushIndices routes route indices).flatMap Prod.snd).Perm
      (routes.flatMap Prod.snd ++ indices) := by
  induction routes with
  | nil => simp [pushIndices]
  | cons entry rest ih =>
    obtain ⟨known, held⟩ := entry
    simp only [pushIndices]
    split_ifs
    · simp only [List.flatMap_cons, List.append_assoc]
      exact List.Perm.append_left held List.perm_append_comm
    · simp only [List.flatMap_cons, List.append_assoc]
      exact List.Perm.append_left held ih

variable {routes : RouteIndices} {count fuel : Nat} {crc16 : Bytes → Nat} {isReadonly : Bool}

def Holds (routes : RouteIndices) (route : Route) (index : Nat) : Prop :=
  ∃ indices, (route, indices) ∈ routes ∧ index ∈ indices

theorem holds_pushIndices {route known : Route} {indices : List Nat} {index : Nat} :
    Holds (pushIndices routes route indices) known index ↔
      Holds routes known index ∨ known = route ∧ index ∈ indices := by
  induction routes with
  | nil => simp [Holds, pushIndices]
  | cons entry rest ih =>
    simp only [Holds, pushIndices] at ih ⊢
    grind

namespace Splits

variable {crc16 : Bytes → Nat} {isReadonly : Bool} {keys : List Bytes} {count : Nat}
  {routes : RouteIndices}

theorem nil : Splits crc16 isReadonly keys 0 [] := ⟨by simp, by simp⟩

theorem push (hsplits : Splits crc16 isReadonly keys count routes) {key : Bytes}
    (hkey : keys[count]? = some key) :
    Splits crc16 isReadonly keys (count + 1)
      (pushIndices routes (getRoute crc16 isReadonly key) [count]) where
  indices := by
    rw [List.range_succ]
    exact (flatMap_pushIndices _ _ _).trans (hsplits.indices.append_right [count])
  routed := by
    intro entry hentry index hindex
    rcases holds_pushIndices.mp ⟨entry.2, hentry, hindex⟩ with ⟨held, hold, hmem⟩ | ⟨hroute, hmem⟩
    · exact hsplits.routed (entry.1, held) hold index hmem
    · rw [List.mem_singleton] at hmem
      exact ⟨key, by rw [hmem, hkey], hroute.symm⟩

theorem perm (hsplits : Splits crc16 isReadonly keys count routes) {visited : RouteIndices}
    (hperm : visited.Perm routes) : Splits crc16 isReadonly keys count visited where
  indices := (hperm.flatMap_right Prod.snd).trans hsplits.indices
  routed := fun entry hentry => hsplits.routed entry (hperm.mem_iff.mp hentry)

end Splits

theorem multiShardLoop_keysOnly {name : Bytes} {keys : List Bytes}
    (hsplits : Splits crc16 isReadonly keys count routes) (hcount : count ≤ keys.length)
    (hfuel : keys.length < fuel + count) :
    ∃ routes', multiShardLoop crc16 (Cmd.ofBytes (name :: keys)) 1 isReadonly .keysOnly
        fuel count routes = some routes' ∧
      Splits crc16 isReadonly keys keys.length routes' := by
  induction fuel generalizing count routes with
  | zero => omega
  | succ fuel ih =>
    have harg : (Cmd.ofBytes (name :: keys)).argIdx (1 + count) = keys[count]? := by
      simp [Nat.add_comm 1 count]
    cases hkey : keys[count]? with
    | none =>
      have hend : keys.length ≤ count := List.getElem?_eq_none_iff.mp hkey
      obtain rfl : count = keys.length := by omega
      exact ⟨routes, by simp [multiShardLoop, harg], hsplits⟩
    | some key =>
      have hlt : count < keys.length := (List.getElem?_eq_some_iff.mp hkey).1
      simp only [multiShardLoop, harg, hkey]
      exact ih (hsplits.push hkey) hlt (by omega)

theorem multiShardLoop_keysAndLastArg {name : Bytes} {keys : List Bytes} {path : Bytes}
    (hsplits : Splits crc16 isReadonly keys count routes) (hcount : count < keys.length)
    (hfuel : keys.length ≤ fuel + count) :
    ∃ routes', multiShardLoop crc16 (Cmd.ofBytes (name :: (keys ++ [path]))) 1 isReadonly
        .keysAndLastArg fuel count routes =
          some (routes'.map fun entry => (entry.1, entry.2 ++ [keys.length])) ∧
      Splits crc16 isReadonly keys keys.length routes' := by
  induction fuel generalizing count routes with
  | zero => omega
  | succ fuel ih =>
    have hkey : keys[count]? = some keys[count] := List.getElem?_eq_getElem hcount
    have harg : (Cmd.ofBytes (name :: (keys ++ [path]))).argIdx (1 + count) =
        some keys[count] := by
      simp [Nat.add_comm 1 count, List.getElem?_append_left hcount]
    have hnext : (Cmd.ofBytes (name :: (keys ++ [path]))).argIdx (1 + count + 2) =
        (keys ++ [path])[count + 2]? := by
      rw [Cmd.argIdx_ofBytes, show 1 + count + 2 = (count + 2) + 1 by omega,
        List.getElem?_cons_succ]
    simp only [multiShardLoop, harg, hnext]
    by_cases hlast : count + 1 = keys.length
    · have hnone : (keys ++ [path])[count + 2]? = none := by
        rw [List.getElem?_eq_none_iff]
        simp
        omega
      refine ⟨_, ?_, hlast ▸ hsplits.push hkey⟩
      rw [hnone, hlast]
    · have hlt : count + 2 < (keys ++ [path]).length := by
        simp
        omega
      simp only [List.getElem?_eq_getElem hlt]
      exact ih (hsplits.push hkey) (by omega) (by omega)

/-! ## Merging the replies -/

private theorem placeResults_arrays (value : Nat → Value) (routes : RouteIndices)
    (results : List Value) :
    placeResults results (routes.map fun entry => (some entry.2, .array (entry.2.map value))) =
      (scatter results (routes.flatMap fun entry => entry.2.map fun index =>
        (index, value index))).map .ok := by
  induction routes generalizing results with
  | nil => rfl
  | cons entry rest ih =>
    have hzip : entry.2.zip (entry.2.map value) =
        entry.2.map fun index => (index, value index) := by
      conv_lhs => rw [← List.map_id entry.2, List.map_map, List.zip_map']
      rfl
    simp only [List.map_cons, placeResults, List.length_map, if_true, hzip,
      List.flatMap_cons, scatter_append]
    cases hscatter : scatter results (entry.2.map fun index => (index, value index)) with
    | none => rfl
    | some next => exact ih next

private theorem resultsLength_arrays (value : Nat → Value) (routes : RouteIndices) :
    resultsLength (routes.map fun entry => .array (entry.2.map value)) =
      (routes.flatMap Prod.snd).length := by
  have hfold : ∀ start, (routes.map fun entry => Value.array (entry.2.map value)).foldl
      (fun length value =>
        match value with
        | .array values => values.length + length
        | _ => 0) start = (routes.flatMap Prod.snd).length + start := by
    induction routes with
    | nil => simp
    | cons entry rest ih =>
      intro start
      simp only [List.map_cons, List.foldl_cons, List.length_map, ih, List.flatMap_cons,
        List.length_append]
      omega
  simpa [resultsLength] using hfold 0

theorem combineAndSortArrayResults_of_perm {argsPattern : MultiSlotArgPattern}
    {routeArgIndices : RouteIndices} (value : Nat → Value)
    (hindices : calculateMultiSlotResultIndices routeArgIndices argsPattern =
      .ok (routes.map fun entry => some entry.2))
    (hperm : (routes.flatMap Prod.snd).Perm (List.range count)) :
    combineAndSortArrayResults (routes.map fun entry => .array (entry.2.map value))
      routeArgIndices argsPattern = some (.ok (.array ((List.range count).map value))) := by
  have hlength : (routes.flatMap Prod.snd).length = count := by simpa using hperm.length_eq
  have hwrites : scatter (List.replicate count Value.nil)
      (routes.flatMap fun entry => entry.2.map fun index => (index, value index)) =
        some ((List.range (List.replicate count Value.nil).length).map value) := by
    apply scatter_eq_table
    · intro write hwrite
      obtain ⟨entry, -, hmem⟩ := List.mem_flatMap.mp hwrite
      obtain ⟨index, -, rfl⟩ := List.mem_map.mp hmem
      rfl
    · simpa [List.map_flatMap, Function.comp_def] using hperm
  rw [List.length_replicate] at hwrites
  simp only [combineAndSortArrayResults, hindices, List.length_map, ne_eq, not_true_eq_false,
    if_false, List.zip_map', placeResults_arrays, resultsLength_arrays, hlength, hwrites, Option.map_some]

/-! ## Reads of several keys -/

inductive MultiKeyRead where
  | mget (keys : List Bytes)
  | jsonMget (keys : List Bytes) (path : Bytes)

namespace MultiKeyRead

def name : MultiKeyRead → Bytes
  | mget _ => bytes "MGET"
  | jsonMget _ _ => bytes "JSON.MGET"

def keys : MultiKeyRead → List Bytes
  | mget keys => keys
  | jsonMget keys _ => keys

def path : MultiKeyRead → Option Bytes
  | mget _ => none
  | jsonMget _ path => some path

def argsPattern : MultiKeyRead → MultiSlotArgPattern
  | mget _ => .keysOnly
  | jsonMget _ _ => .keysAndLastArg

def toCmd (read : MultiKeyRead) (word : Bytes) : Cmd :=
  Cmd.ofBytes (word :: (read.keys ++ read.path.toList))

end MultiKeyRead

/--
The reply of one node that holds `store`: the values of the keys in order, at the
path given by the last argument where the command takes one.
-/
def nodeReply (store : Option Bytes → Bytes → Value) (argsPattern : MultiSlotArgPattern)
    (cmd : Cmd) : Value :=
  let params := cmd.data.drop 1
  match argsPattern with
  | .keysAndLastArg => .array (params.dropLast.map (store params.getLast?))
  | _ => .array (params.map (store none))

/--
Sending the parts of `cmd` to their slots and merging the replies gives the reply
of one node to `cmd`.  A command that is not split has all its keys in the slot
it is sent to, and only a command without keys is not routed.
-/
def SplitIsInvisible (crc16 : Bytes → Nat) (store : Option Bytes → Bytes → Value)
    (read : MultiKeyRead) (cmd : Cmd) : Option RoutingInfo → Prop
  | some (.multiNode (.multiSlot routes argsPattern) policy) =>
    argsPattern = read.argsPattern ∧ policy = some .combineArrays ∧
    combineAndSortArrayResults
      (routes.map fun entry =>
        nodeReply store argsPattern (commandForMultiSlotIndices cmd entry.2))
      routes argsPattern = some (.ok (nodeReply store argsPattern cmd))
  | some (.singleNode (.specificNode route)) =>
    ∀ key ∈ read.keys, getSlot crc16 key = route.slot
  | _ => read.keys = []

theorem nodeReply_toCmd (store : Option Bytes → Bytes → Value) (read : MultiKeyRead)
    (word : Bytes) :
    nodeReply store read.argsPattern (read.toCmd word) =
      .array (read.keys.map (store read.path)) := by
  cases read <;> simp [nodeReply, MultiKeyRead.toCmd, MultiKeyRead.argsPattern,
    MultiKeyRead.keys, MultiKeyRead.path]

theorem getRoute_slot (crc16 : Bytes → Nat) (isReadonly : Bool) (key : Bytes) :
    (getRoute crc16 isReadonly key).slot = getSlot crc16 key := by
  cases isReadonly <;> rfl

private theorem map_range_getD (keys : List Bytes) (value : Bytes → Value) :
    (List.range keys.length).map (fun index => value (keys.getD index [])) =
      keys.map value := by
  apply List.ext_getElem (by simp)
  intro index hrange hkeys
  have hlt : index < keys.length := by simpa using hrange
  simp [List.getD_eq_getElem?_getD, List.getElem?_eq_getElem hlt]

section Routes

variable {crc16 : Bytes → Nat} {isReadonly : Bool} {keys : List Bytes}

variable {routes : RouteIndices}

private theorem Splits.filterMap_keys (hsplits : Splits crc16 isReadonly keys keys.length routes)
    {entry : Route × List Nat} (hentry : entry ∈ routes) (rest : List Bytes) :
    entry.2.filterMap (fun index => (keys ++ rest)[index]?) =
      entry.2.map fun index => keys.getD index [] := by
  rw [← List.filterMap_eq_map]
  apply List.filterMap_congr
  intro index hindex
  obtain ⟨key, hkey, -⟩ := hsplits.routed entry hentry index hindex
  have hlt : index < keys.length := (List.getElem?_eq_some_iff.mp hkey).1
  simp [List.getElem?_append_left hlt, hkey]

private theorem Splits.keys_of_single {route : Route} {indices : List Nat}
    (hsplits : Splits crc16 isReadonly keys keys.length [(route, indices)]) :
    ∀ key ∈ keys, getSlot crc16 key = route.slot := by
  intro key hkey
  obtain ⟨index, hlt, rfl⟩ := List.mem_iff_getElem.mp hkey
  have hmem : index ∈ indices := by
    simpa using hsplits.indices.mem_iff.mpr (List.mem_range.mpr hlt)
  obtain ⟨found, hfound, hroute⟩ :=
    hsplits.routed (route, indices) (by simp) index hmem
  obtain rfl : keys[index] = found := by
    simpa [List.getElem?_eq_getElem hlt] using hfound
  rw [← getRoute_slot crc16 isReadonly, hroute]

private theorem Splits.keys_of_nil (hsplits : Splits crc16 isReadonly keys keys.length []) :
    keys = [] :=
  List.eq_nil_of_length_eq_zero (by simpa using hsplits.indices.length_eq.symm)

variable (store : Option Bytes → Bytes → Value) (word : Bytes)

theorem Splits.combine_keysOnly (hsplits : Splits crc16 isReadonly keys keys.length routes) :
    combineAndSortArrayResults
      (routes.map fun entry => nodeReply store .keysOnly
        (commandForMultiSlotIndices (Cmd.ofBytes (word :: keys)) entry.2))
      routes .keysOnly =
    some (.ok (nodeReply store .keysOnly (Cmd.ofBytes (word :: keys)))) := by
  have hreply : routes.map (fun entry => nodeReply store .keysOnly
      (commandForMultiSlotIndices (Cmd.ofBytes (word :: keys)) entry.2)) =
      routes.map fun entry => .array (entry.2.map fun index =>
        store none (keys.getD index [])) := by
    apply List.map_congr_left
    intro entry hentry
    have hkeys := hsplits.filterMap_keys hentry []
    rw [List.append_nil] at hkeys
    simp [commandForMultiSlotIndices_ofBytes, nodeReply, hkeys, Function.comp_def]
  rw [hreply, combineAndSortArrayResults_of_perm _ (by rfl) hsplits.indices,
    map_range_getD keys (store none)]
  simp [nodeReply]

theorem Splits.combine_keysAndLastArg (hsplits : Splits crc16 isReadonly keys keys.length routes)
    (path : Bytes) :
    combineAndSortArrayResults
      ((routes.map fun entry => (entry.1, entry.2 ++ [keys.length])).map fun entry =>
        nodeReply store .keysAndLastArg
          (commandForMultiSlotIndices (Cmd.ofBytes (word :: (keys ++ [path]))) entry.2))
      (routes.map fun entry => (entry.1, entry.2 ++ [keys.length])) .keysAndLastArg =
    some (.ok (nodeReply store .keysAndLastArg (Cmd.ofBytes (word :: (keys ++ [path]))))) := by
  have hreply : (routes.map fun entry => (entry.1, entry.2 ++ [keys.length])).map
      (fun entry => nodeReply store .keysAndLastArg
        (commandForMultiSlotIndices (Cmd.ofBytes (word :: (keys ++ [path]))) entry.2)) =
      routes.map fun entry => .array (entry.2.map fun index =>
        store (some path) (keys.getD index [])) := by
    rw [List.map_map]
    apply List.map_congr_left
    intro entry hentry
    have hkeys := hsplits.filterMap_keys hentry [path]
    simp [commandForMultiSlotIndices_ofBytes, nodeReply, hkeys, Function.comp_def]
  have hindices : calculateMultiSlotResultIndices
      (routes.map fun entry => (entry.1, entry.2 ++ [keys.length])) .keysAndLastArg =
        .ok (routes.map fun entry => some entry.2) := by
    simp only [calculateMultiSlotResultIndices, List.map_map]
    congr 1
    apply List.map_congr_left
    intro entry _
    simp [resultIndices]
  rw [hreply, combineAndSortArrayResults_of_perm _ hindices hsplits.indices,
    map_range_getD keys (store (some path))]
  simp [nodeReply]

end Routes

private theorem multiShard_mget (crc16 : Bytes → Nat) (order : IterationOrder)
    (store : Option Bytes → Bytes → Value) (word : Bytes) (keys : List Bytes) :
    SplitIsInvisible crc16 store (.mget keys) (Cmd.ofBytes (word :: keys))
      (multiShard crc16 order (Cmd.ofBytes (word :: keys)) (bytes "MGET") 1 .keysOnly) := by
  obtain ⟨routes, hloop, hsplits⟩ : ∃ routes,
      multiShardLoop crc16 (Cmd.ofBytes (word :: keys)) 1 (isReadonlyCmd (bytes "MGET"))
        .keysOnly ((Cmd.ofBytes (word :: keys)).args.length + 1) 0 [] = some routes ∧
      Splits crc16 (isReadonlyCmd (bytes "MGET")) keys keys.length routes :=
    multiShardLoop_keysOnly .nil (Nat.zero_le _) (by
      rw [Cmd.length_args_ofBytes, List.length_cons]
      omega)
  have hvisited := hsplits.perm (order.perm routes)
  simp only [multiShard, hloop, Option.bind_eq_bind, Option.bind_some]
  rcases hvisit : order.visit routes with _ | ⟨⟨route, indices⟩, _ | ⟨second, rest⟩⟩
  · exact (hvisit ▸ hvisited).keys_of_nil
  · exact (hvisit ▸ hvisited).keys_of_single
  · exact ⟨rfl, by decide, (hvisit ▸ hvisited).combine_keysOnly store word⟩

theorem visit_map_append (order : IterationOrder) (routes : RouteIndices) (last : Nat) :
    ∃ visited : RouteIndices, visited.Perm routes ∧
      order.visit (routes.map fun entry => (entry.1, entry.2 ++ [last])) =
        visited.map fun entry => (entry.1, entry.2 ++ [last]) := by
  have hperm := order.perm (routes.map fun entry => (entry.1, entry.2 ++ [last]))
  refine ⟨(order.visit (routes.map fun entry => (entry.1, entry.2 ++ [last]))).map
    fun entry => (entry.1, entry.2.dropLast), ?_, ?_⟩
  · simpa [Function.comp_def] using
      hperm.map fun entry : Route × List Nat => (entry.1, entry.2.dropLast)
  · rw [List.map_map]
    conv_lhs => rw [← List.map_id (order.visit _)]
    apply List.map_congr_left
    intro entry hentry
    obtain ⟨old, -, rfl⟩ := List.mem_map.mp (hperm.mem_iff.mp hentry)
    simp

private theorem multiShard_jsonMget (crc16 : Bytes → Nat) (order : IterationOrder)
    (store : Option Bytes → Bytes → Value) (word : Bytes) (keys : List Bytes) (path : Bytes) :
    SplitIsInvisible crc16 store (.jsonMget keys path) (Cmd.ofBytes (word :: (keys ++ [path])))
      (multiShard crc16 order (Cmd.ofBytes (word :: (keys ++ [path]))) (bytes "JSON.MGET") 1
        .keysAndLastArg) := by
  by_cases hkeys : keys = []
  · -- the path is taken for a key, and there is nothing to split
    subst hkeys
    have hloop : multiShardLoop crc16 (Cmd.ofBytes [word, path]) 1
        (isReadonlyCmd (bytes "JSON.MGET")) .keysAndLastArg
          ((Cmd.ofBytes [word, path]).args.length + 1) 0 [] =
        some [(getRoute crc16 (isReadonlyCmd (bytes "JSON.MGET")) path, [0, 1])] := by
      simp [multiShardLoop, pushIndices]
    have hvisit : order.visit [(getRoute crc16 (isReadonlyCmd (bytes "JSON.MGET")) path,
        [0, 1])] = [(getRoute crc16 (isReadonlyCmd (bytes "JSON.MGET")) path, [0, 1])] :=
      List.perm_singleton.mp (order.perm _)
    simp only [multiShard, List.nil_append, hloop, Option.bind_eq_bind, Option.bind_some, hvisit]
    simp [SplitIsInvisible, MultiKeyRead.keys]
  · obtain ⟨routes, hloop, hsplits⟩ : ∃ routes,
        multiShardLoop crc16 (Cmd.ofBytes (word :: (keys ++ [path]))) 1
          (isReadonlyCmd (bytes "JSON.MGET")) .keysAndLastArg
          ((Cmd.ofBytes (word :: (keys ++ [path]))).args.length + 1) 0 [] =
            some (routes.map fun entry => (entry.1, entry.2 ++ [keys.length])) ∧
        Splits crc16 (isReadonlyCmd (bytes "JSON.MGET")) keys keys.length routes :=
      multiShardLoop_keysAndLastArg .nil (List.length_pos_iff.mpr hkeys) (by
        simp only [Cmd.length_args_ofBytes, List.length_cons, List.length_append]
        omega)
    obtain ⟨visited, hperm, hvisit⟩ := visit_map_append order routes keys.length
    have hvisited := hsplits.perm hperm
    simp only [multiShard, hloop, Option.bind_eq_bind, Option.bind_some, hvisit]
    rcases visited with _ | ⟨⟨route, indices⟩, _ | ⟨second, rest⟩⟩
    · exact hvisited.keys_of_nil
    · exact hvisited.keys_of_single
    · exact ⟨rfl, by decide, hvisited.combine_keysAndLastArg store word path⟩

/--
Reads of several keys can be split over slots without being noticed: for every
store, the merged replies of the parts are the reply of one node to the whole
command, which lists the value of each key at the position of that key.
-/
theorem multiKeyRead_split_invisible (crc16 : Bytes → Nat) (order : IterationOrder)
    (store : Option Bytes → Bytes → Value) (read : MultiKeyRead) (word : Bytes)
    (hword : asciiUppercase word = read.name) :
    SplitIsInvisible crc16 store read (read.toCmd word)
        (forRoutable crc16 order (read.toCmd word)) ∧
      nodeReply store read.argsPattern (read.toCmd word) =
        .array (read.keys.map (store read.path)) := by
  refine ⟨?_, nodeReply_toCmd store read word⟩
  cases read with
  | mget keys =>
    simp only [MultiKeyRead.name] at hword
    have hcommand := Cmd.command_of_one_word keys hword (by decide)
    have hbase : baseRouting (bytes "MGET") = .multiShard .keysOnly := by decide
    simp only [forRoutable, MultiKeyRead.toCmd, MultiKeyRead.keys, MultiKeyRead.path,
      Option.toList_none, List.append_nil, hcommand, Option.bind_eq_bind, Option.bind_some,
      hbase]
    exact multiShard_mget crc16 order store word keys
  | jsonMget keys path =>
    simp only [MultiKeyRead.name] at hword
    have hcommand := Cmd.command_of_one_word (keys ++ [path]) hword (by decide)
    have hbase : baseRouting (bytes "JSON.MGET") = .multiShard .keysAndLastArg := by decide
    simp only [forRoutable, MultiKeyRead.toCmd, MultiKeyRead.keys, MultiKeyRead.path,
      Option.toList_some, hcommand, Option.bind_eq_bind, Option.bind_some, hbase]
    exact multiShard_jsonMget crc16 order store word keys path

theorem mget_three_keys_split_invisible :
    SplitIsInvisible (fun key => key.length) (fun _ key => .bulkString key)
        (.mget [bytes "a", bytes "bb", bytes "c"])
        (Cmd.ofBytes [bytes "mget", bytes "a", bytes "bb", bytes "c"])
        (some (.multiNode (.multiSlot
          [(⟨1, .replicaOptional⟩, [0, 2]), (⟨2, .replicaOptional⟩, [1])] .keysOnly)
          (some .combineArrays))) ∧
      nodeReply (fun _ key => .bulkString key) .keysOnly
          (Cmd.ofBytes [bytes "mget", bytes "a", bytes "bb", bytes "c"]) =
        .array [.bulkString (bytes "a"), .bulkString (bytes "bb"), .bulkString (bytes "c")] :=
  multiKeyRead_split_invisible (fun key => key.length) ⟨id, fun _ => .refl _⟩
    (fun _ key => .bulkString key) (.mget [bytes "a", bytes "bb", bytes "c"]) (bytes "mget")
    (by decide)

end ValkeyGlide.Cluster
