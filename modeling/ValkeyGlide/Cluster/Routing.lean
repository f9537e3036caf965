import ValkeyGlide.Cluster.RoutingTables
import ValkeyGlide.Cluster.SlotMap

/-!
# Routing a command

From a command to the nodes it is sent to (`cluster_routing.rs`,
`cluster_topology.rs`).  The checksum of the key is a parameter, its
implementation being a dependency of the source; so is the order in which a hash
map yields its entries.
-/

namespace ValkeyGlide.Cluster

open Protocol

inductive SingleNodeRoutingInfo where
  | random
  | randomPrimary
  | specificNode (route : Route)
  | byAddress (host : String) (port : Nat)
  deriving DecidableEq, Repr

abbrev RouteIndices := List (Route × List Nat)

inductive MultipleNodeRoutingInfo where
  | allNodes
  | allMasters
  | multiSlot (routes : RouteIndices) (argsPattern : MultiSlotArgPattern)
  deriving DecidableEq, Repr

inductive RoutingInfo where
  | singleNode (info : SingleNodeRoutingInfo)
  | multiNode (info : MultipleNodeRoutingInfo) (policy : Option ResponsePolicy)
  deriving DecidableEq, Repr

/-- The order in which the entries of a hash map of routes are visited. -/
structure IterationOrder where
  visit : RouteIndices → RouteIndices
  perm : ∀ routes, (visit routes).Perm routes

def IterationOrder.inserted : IterationOrder := ⟨id, fun _ => .refl _⟩

/-! ## Slots -/

def getHashtag (key : Bytes) : Option Bytes := do
  let openAt ← key.findIdx? (· == 123)
  let close ← (key.drop openAt).findIdx? (· == 125)
  let tag := (key.drop (openAt + 1)).take (close - 1)
  if tag = [] then none else some tag

def getSlot (crc16 : Bytes → Nat) (key : Bytes) : Nat :=
  crc16 ((getHashtag key).getD key) % slotCount

def getRoute (crc16 : Bytes → Nat) (isReadonly : Bool) (key : Bytes) : Route :=
  if isReadonly then ⟨getSlot crc16 key, .replicaOptional⟩ else ⟨getSlot crc16 key, .master⟩

/-! ## Splitting by slot -/

def pushIndices : RouteIndices → Route → List Nat → RouteIndices
  | [], route, indices => [(route, indices)]
  | (known, held) :: rest, route, indices =>
    if known = route then (known, held ++ indices) :: rest
    else (known, held) :: pushIndices rest route indices

/--
The position after `currArgIdx`, if the command has an argument there.  The
source looks the position up without adding the index of the first key.
-/
def incrAddNextArg (cmd : Cmd) (currArgIdx : Nat) : Option Nat :=
  match cmd.argIdx (currArgIdx + 1) with
  | some _ => some (currArgIdx + 1)
  | none => none

section

variable (crc16 : Bytes → Nat) (order : IterationOrder)

/-- The loop over the keys.  Each round uses at least one argument of the command. -/
def multiShardLoop (cmd : Cmd) (firstKeyIndex : Nat) (isReadonly : Bool)
    (argsPattern : MultiSlotArgPattern) : Nat → Nat → RouteIndices → Option RouteIndices
  | 0, _, routes => some routes
  | fuel + 1, currArgIdx, routes =>
    match cmd.argIdx (firstKeyIndex + currArgIdx) with
    | none => some routes
    | some arg =>
      let route := getRoute crc16 isReadonly arg
      match argsPattern with
      | .keysOnly =>
        multiShardLoop cmd firstKeyIndex isReadonly argsPattern fuel (currArgIdx + 1)
          (pushIndices routes route [currArgIdx])
      | .keyValuePairs => do
          let value ← incrAddNextArg cmd currArgIdx
          multiShardLoop cmd firstKeyIndex isReadonly argsPattern fuel (value + 1)
            (pushIndices routes route [currArgIdx, value])
      | .keysAndLastArg =>
        let routes := pushIndices routes route [currArgIdx]
        match cmd.argIdx (firstKeyIndex + currArgIdx + 2) with
        | none => some (routes.map fun entry => (entry.1, entry.2 ++ [currArgIdx + 1]))
        | some _ =>
          multiShardLoop cmd firstKeyIndex isReadonly argsPattern fuel (currArgIdx + 1)
            routes
      | .keyWithTwoArgTriples => do
          let first ← incrAddNextArg cmd currArgIdx
          let second ← incrAddNextArg cmd first
          multiShardLoop cmd firstKeyIndex isReadonly argsPattern fuel (second + 1)
            (pushIndices routes route [currArgIdx, first, second])

def multiShard (routable : Cmd) (cmd : Bytes) (firstKeyIndex : Nat)
    (argsPattern : MultiSlotArgPattern) : Option RoutingInfo := do
  let routes ← multiShardLoop crc16 routable firstKeyIndex (isReadonlyCmd cmd) argsPattern
    (routable.args.length + 1) 0 []
  match order.visit routes with
  | [] => none
  | [(route, _)] => some (.singleNode (.specificNode route))
  | routes =>
    some (.multiNode (.multiSlot routes argsPattern) (ResponsePolicy.forCommand cmd))

/-! ## Routing information -/

def forKey (cmd key : Bytes) : RoutingInfo :=
  .singleNode (.specificNode (getRoute crc16 (isReadonlyCmd cmd) key))

def keyAfterCount (routable : Cmd) (cmd : Bytes) (countIndex : Nat) : Option RoutingInfo := do
  let keyCount ← parseUnsigned (2 ^ 64 - 1) (← routable.argIdx countIndex)
  if keyCount = 0 then return .singleNode .random
  else return forKey crc16 cmd (← routable.argIdx (countIndex + 1))

def forRoutable (routable : Cmd) : Option RoutingInfo := do
  let cmd ← routable.command
  match baseRouting cmd with
  | .allNodes => some (.multiNode .allNodes (ResponsePolicy.forCommand cmd))
  | .allPrimaries => some (.multiNode .allMasters (ResponsePolicy.forCommand cmd))
  | .multiShard argsPattern => multiShard crc16 order routable cmd 1 argsPattern
  | .random => some (.singleNode .random)
  | .thirdArgAfterKeyCount => keyAfterCount crc16 routable cmd 2
  | .secondArg => (routable.argIdx 2).map (forKey crc16 cmd)
  | .thirdArg => (routable.argIdx 3).map (forKey crc16 cmd)
  | .secondArgAfterKeyCount => keyAfterCount crc16 routable cmd 1
  | .streamsIndex => do
      let streamsPosition ← routable.position (bytes "STREAMS")
      (routable.argIdx (streamsPosition + 1)).map (forKey crc16 cmd)
  | .secondArgSlot => do
      let slot ← parseUnsigned (2 ^ 16 - 1) (← routable.argIdx 2)
      return .singleNode (.specificNode ⟨slot, .master⟩)
  | .firstKey =>
    match routable.argIdx 1 with
    | some key => some (forKey crc16 cmd key)
    | none => some (.singleNode .random)
  | .undefined => none

end

/-! ## The key of a command -/

def countedKey (cmd : Cmd) (countIndex : Nat) : Option Bytes := do
  let keyCount ← parseUnsigned (2 ^ 64 - 1) (← cmd.argIdx countIndex)
  if keyCount = 0 then none else cmd.argIdx (countIndex + 1)

def keyForCommand (cmd : Cmd) : Option Bytes := do
  match baseRouting (← cmd.command) with
  | .allNodes | .allPrimaries | .random | .secondArgSlot | .undefined => none
  | .multiShard _ => none
  | .firstKey => cmd.argIdx 1
  | .secondArg => cmd.argIdx 2
  | .thirdArg => cmd.argIdx 3
  | .thirdArgAfterKeyCount => countedKey cmd 2
  | .secondArgAfterKeyCount => countedKey cmd 1
  | .streamsIndex =>
    let streamsPosition ← cmd.position (bytes "STREAMS")
    cmd.argIdx (streamsPosition + 1)

end ValkeyGlide.Cluster
