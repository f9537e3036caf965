import Mathlib.Algebra.Order.Group.Nat
import Mathlib.Data.List.AList
import ValkeyGlide.Cluster.ShardAddrs
import ValkeyGlide.Foundation.RangeMap

/-!
# The slot map

The mapping from hash slots to shards (`cluster_slotmap.rs`).  A slot range is
keyed by its last slot.  Ranges and nodes share their shard and their
round-robin counter by reference in the source; here both live in a heap inside
the map (`shards`, `nodeIndexes`) and are referred to by position, so equality
of references is equality of positions.
-/

namespace ValkeyGlide.Cluster

open Foundation Protocol

def slotCount : Nat := 16384

abbrev ShardId := Nat

abbrev NodeIndexId := Nat

inductive IpAddr where
  | v4 (bits : BitVec 32)
  | v6 (bits : BitVec 128)
  deriving DecidableEq, Repr

structure SlotMapValue where
  start : Nat
  addrs : ShardId
  lastUsedNodeIndex : NodeIndexId
  deriving DecidableEq, Repr

inductive ReadFromReplicaStrategy where
  | alwaysFromPrimary
  | roundRobin
  | azAffinity (zone : String)
  | azAffinityReplicasAndPrimary (zone : String)
  | allNodes
  | azAffinityAllNodes (zone : String)
  deriving DecidableEq, Repr

inductive SlotAddr where
  | master
  | replicaOptional
  | replicaRequired
  deriving DecidableEq, Repr

structure Route where
  slot : Nat
  slotAddr : SlotAddr
  deriving DecidableEq, Repr

structure Slot where
  start : Nat
  rangeEnd : Nat
  master : Address
  replicas : List Address
  deriving DecidableEq, Repr

abbrev NodesMap := AList fun _ : Address => Option IpAddr × ShardId

structure SlotMap where
  slots : OrderedMap Nat SlotMapValue
  nodesMap : NodesMap
  readFromReplica : ReadFromReplicaStrategy
  shards : List ShardAddrs
  nodeIndexes : List Nat

namespace SlotMap

def newWithReadStrategy (readFromReplica : ReadFromReplicaStrategy) : SlotMap where
  slots := .empty
  nodesMap := ∅
  readFromReplica := readFromReplica
  shards := []
  nodeIndexes := []

/-! ## The heap -/

def allocShard (map : SlotMap) (shard : ShardAddrs) : ShardId × SlotMap :=
  (map.shards.length, { map with shards := map.shards ++ [shard] })

def allocNodeIndex (map : SlotMap) : NodeIndexId × SlotMap :=
  (map.nodeIndexes.length, { map with nodeIndexes := map.nodeIndexes ++ [0] })

/-- The atomic increment of a counter wraps at the word size. -/
def fetchAddNodeIndex (map : SlotMap) (id : NodeIndexId) : Nat × SlotMap :=
  let old := map.nodeIndexes.getD id 0
  (old, { map with nodeIndexes := map.nodeIndexes.set id ((old + 1) % 2 ^ 64) })

/-! ## Construction -/

abbrev IpMappings := AList fun _ : Address => IpAddr

/-- A node that is in the map already keeps its entry. -/
def addNode (map : SlotMap) (ipMappings : IpMappings) (address : Address) (shard : ShardId) :
    SlotMap :=
  match map.nodesMap.lookup address with
  | some _ => map
  | none =>
    { map with nodesMap := map.nodesMap.insert address (ipMappings.lookup address, shard) }

def shardOf (map : SlotMap) (ipMappings : IpMappings) (slot : Slot) : ShardId × SlotMap :=
  match map.nodesMap.lookup slot.master with
  | some (_, shard) => (shard, map)
  | none =>
    let (shard, map) := map.allocShard ⟨slot.master, slot.replicas⟩
    (shard, map.addNode ipMappings slot.master shard)

def addSlot (ipMappings : IpMappings) (map : SlotMap) (slot : Slot) : SlotMap :=
  let (shard, map) := map.shardOf ipMappings slot
  let replicas := (map.shards[shard]?.map ShardAddrs.replicas).getD []
  let map := replicas.foldl (fun map replica => map.addNode ipMappings replica shard) map
  let (index, map) := map.allocNodeIndex
  { map with slots := map.slots.insert slot.rangeEnd ⟨slot.start, shard, index⟩ }

/-- From parsed slot data; a later range with the same end replaces an earlier one. -/
def new (slots : List Slot) (ipMappings : IpMappings)
    (readFromReplica : ReadFromReplicaStrategy) : SlotMap :=
  slots.foldl (addSlot ipMappings) (newWithReadStrategy readFromReplica)

/-! ## Lookups -/

def roundRobinReplica (map : SlotMap) (value : SlotMapValue) (shard : ShardAddrs) :
    Option Address × SlotMap :=
  let (count, map) := map.fetchAddNodeIndex value.lastUsedNodeIndex
  (shard.replicas[count % shard.replicas.length]?, map)

def roundRobinAllNodes (map : SlotMap) (value : SlotMapValue) (shard : ShardAddrs) :
    Option Address × SlotMap :=
  let (count, map) := map.fetchAddNodeIndex value.lastUsedNodeIndex
  match count % (shard.replicas.length + 1) with
  | 0 => (some shard.primary, map)
  | index + 1 => (shard.replicas[index]?, map)

def getAddressFromSlot (map : SlotMap) (value : SlotMapValue) (slotAddr : SlotAddr) :
    Option Address × SlotMap :=
  match map.shards[value.addrs]? with
  | none => (none, map)
  | some shard =>
    if slotAddr = .master ∨ shard.replicas = [] then
      (some shard.primary, map)
    else
      match map.readFromReplica with
      | .alwaysFromPrimary => (some shard.primary, map)
      | .roundRobin => map.roundRobinReplica value shard
      | .allNodes => map.roundRobinAllNodes value shard
      | .azAffinity _ => map.roundRobinReplica value shard
      | .azAffinityReplicasAndPrimary _ => map.roundRobinAllNodes value shard
      | .azAffinityAllNodes _ =>
        if slotAddr = .replicaRequired then map.roundRobinReplica value shard
        else map.roundRobinAllNodes value shard

def slotValueForRoute (map : SlotMap) (route : Route) : Option SlotMapValue :=
  match map.slots.lowerBound route.slot with
  | none => none
  | some (rangeEnd, value) =>
    if route.slot ≤ rangeEnd ∧ value.start ≤ route.slot then some value else none

def slotAddrForRoute (map : SlotMap) (route : Route) : Option Address × SlotMap :=
  match map.slotValueForRoute route with
  | none => (none, map)
  | some value => map.getAddressFromSlot value route.slotAddr

/--
The shard of the first range that ends at or after `slot`.  Unlike the other
lookups this one does not compare `slot` with the start of that range.
-/
def shardAddrsForSlot (map : SlotMap) (slot : Nat) : Option ShardId :=
  (map.slots.lowerBound slot).map fun entry => entry.2.addrs

def nodeAddressForSlot (map : SlotMap) (slot : Nat) (slotAddr : SlotAddr) :
    Option Address × SlotMap :=
  match map.slots.lowerBound slot with
  | none => (none, map)
  | some (_, value) =>
    if value.start ≤ slot then map.getAddressFromSlot value slotAddr else (none, map)

def getSlotsOfNode (map : SlotMap) (nodeAddress : Address) : List Nat :=
  map.slots.entries.flatMap fun (rangeEnd, value) =>
    match map.shards[value.addrs]? with
    | none => []
    | some shard =>
      if shard.primary = nodeAddress ∨ nodeAddress ∈ shard.replicas then
        -- the end of the range is a number of sixteen bits
        List.range' value.start ((rangeEnd + 1) % 2 ^ 16 - value.start)
      else []

/-! ## Well-formed maps -/

/-- The shard that owns a slot, through the range containing it. -/
def ownerOf (map : SlotMap) (slot : Nat) : Option ShardId :=
  RangeMap.ownerAt? SlotMapValue.start SlotMapValue.addrs map.slots slot

def primaryOf (map : SlotMap) (slot : Nat) : Option Address :=
  (map.ownerOf slot).bind fun shard => map.shards[shard]?.map ShardAddrs.primary

/--
The ranges are nonempty and disjoint, and every reference points into the heap.
Slots may be uncovered.
-/
structure WellFormed (map : SlotMap) : Prop where
  ranges : RangeMap.Valid SlotMapValue.start map.slots
  slot_shards : ∀ entry ∈ map.slots, entry.2.addrs < map.shards.length
  node_shards : ∀ address node, map.nodesMap.lookup address = some node →
    node.2 < map.shards.length

theorem slotValueForRoute_eq (map : SlotMap) (route : Route) :
    map.slotValueForRoute route =
      (RangeMap.containing? SlotMapValue.start map.slots route.slot).map Prod.snd := by
  unfold slotValueForRoute RangeMap.containing?
  cases hbound : map.slots.lowerBound route.slot with
  | none => rfl
  | some entry =>
    have hle := (OrderedMap.lowerBound_eq_some_iff.mp hbound).2.1
    by_cases hstart : entry.2.start ≤ route.slot <;> simp [hle, hstart]

theorem slotAddrForRoute_master (map : SlotMap) (slot : Nat) :
    map.slotAddrForRoute ⟨slot, .master⟩ = (map.primaryOf slot, map) := by
  unfold slotAddrForRoute primaryOf ownerOf RangeMap.ownerAt?
  rw [slotValueForRoute_eq]
  cases RangeMap.containing? SlotMapValue.start map.slots slot with
  | none => rfl
  | some entry =>
    simp only [Option.map_some, getAddressFromSlot, Option.bind_some]
    cases map.shards[entry.2.addrs]? <;> simp

variable {map : SlotMap} {shard : ShardId} {slot : Nat}

theorem ownerOf_lt_length (hwf : map.WellFormed) (howner : map.ownerOf slot = some shard) :
    shard < map.shards.length := by
  obtain ⟨entry, hmem, -, rfl⟩ := (RangeMap.ownerAt?_eq_some_iff hwf.ranges).mp howner
  exact hwf.slot_shards entry hmem

theorem shardAddrsForSlot_of_ownerOf (howner : map.ownerOf slot = some shard) :
    map.shardAddrsForSlot slot = some shard := by
  unfold ownerOf RangeMap.ownerAt? RangeMap.containing? at howner
  unfold shardAddrsForSlot
  cases hbound : map.slots.lowerBound slot with
  | none => simp [hbound] at howner
  | some entry =>
    simp only [hbound] at howner
    split_ifs at howner with hstart
    · simpa using howner
    · simp at howner

end SlotMap

end ValkeyGlide.Cluster
