import Mathlib.Algebra.Group.Int.Defs
import Mathlib.Data.List.Sort
import ValkeyGlide.Cluster.SlotMap
import ValkeyGlide.Foundation.Election
import ValkeyGlide.Foundation.Overflow
import ValkeyGlide.Foundation.Returns
import ValkeyGlide.Protocol.Value

/-!
# The topology vote

Nodes answer `CLUSTER SLOTS` with their view of the cluster; the client keeps the view
that most of them share (`cluster_topology.rs`).  Views are counted by a hash, and the
counted views are visited in the order of a hash map.

Slot numbers and counters have 16 bits; whether an overflow panics or wraps is up to the
build.
-/

namespace ValkeyGlide.Cluster

open Foundation Protocol

/-! ## Parsing a view -/

structure ParseEnv where
  fromUtf8Lossy : Bytes → String
  parseIpAddr : String → Option IpAddr
  addressResolver : Option (String → Nat → String × Nat)
  debugValue : Value → String

def u16 : MachineInt := ⟨0, 2 ^ 16 - 1⟩

def asU16 (value : Int) : Nat := (value % 2 ^ 16).toNat

structure NodeMetadata where
  ip : Option IpAddr := none
  hostname : Option String := none

structure ParsedSlotsResult where
  slotsCount : Nat
  slots : List Slot
  addressToIpMap : SlotMap.IpMappings

/-- `slots_count += end - start + 1`. -/
def addRangeSize (overflow : Overflow) (slotsCount start rangeEnd : Nat) : Option Nat := do
  let distance ← u16.result overflow (rangeEnd - start)
  let size ← u16.result overflow (distance + 1)
  let count ← u16.result overflow (slotsCount + size)
  return count.toNat

/-- The replicas are sorted, as nodes may name them in different orders. -/
def pushSlot (overflow : Overflow) (parsed : ParsedSlotsResult) (start rangeEnd : Nat)
    (master : Address) (replicas : List Address) : Option ParsedSlotsResult := do
  let slotsCount ← addRangeSize overflow parsed.slotsCount start rangeEnd
  return { parsed with
    slotsCount := slotsCount
    slots := parsed.slots ++ [⟨start, rangeEnd, master, replicas.insertionSort (· ≤ ·)⟩] }

section Node

variable (env : ParseEnv)

def getConnectionAddr (host : String) (port : Nat) : Address :=
  let (host, port) := match env.addressResolver with
    | some resolve => resolve host port
    | none => (host, port)
  s!"{host}:{port}"

def processKv (metadata : NodeMetadata) (key value : Value) : NodeMetadata :=
  match key, value with
  | .bulkString key, .bulkString value =>
    if env.fromUtf8Lossy key = "ip" then
      { metadata with ip := env.parseIpAddr (env.fromUtf8Lossy value) }
    else if env.fromUtf8Lossy key = "hostname" then
      if env.fromUtf8Lossy value = "" then metadata
      else { metadata with hostname := some (env.fromUtf8Lossy value) }
    else metadata
  | _, _ => metadata

def processChunks : NodeMetadata → List Value → NodeMetadata
  | metadata, key :: value :: rest => processChunks (processKv env metadata key value) rest
  | metadata, _ => metadata

def parseMetadata : Value → NodeMetadata
  | .array metadata => processChunks env {} metadata
  | .map metadata => metadata.foldl (fun known entry => processKv env known entry.1 entry.2) {}
  | _ => {}

/-- An empty or missing host is that of the answering node, and `?` an unknown one. -/
def primaryIdentifier (addrOfAnsweringNode : String) : Value → Option String
  | .bulkString data =>
    let received := env.fromUtf8Lossy data
    if received = "" then some addrOfAnsweringNode
    else if received = "?" then none
    else some received
  | .nil => some addrOfAnsweringNode
  | _ => none

def parseNode (addrOfAnsweringNode : String) : Value → Option (Address × Option IpAddr)
  | .array (address :: .int port :: rest) => do
      let primary ← primaryIdentifier env addrOfAnsweringNode address
      if primary = "" then none
      else
        let metadata := match rest with
          | _ :: metadata :: _ => parseMetadata env metadata
          | _ => {}
        let (hostname, ip) := match env.parseIpAddr primary with
          | some ip => (metadata.hostname.getD primary, some ip)
          | none => (primary, metadata.ip)
        return (getConnectionAddr env hostname (asU16 port), ip)
  | _ => none

def recordIp (known : SlotMap.IpMappings) (node : Address × Option IpAddr) : SlotMap.IpMappings :=
  match node.2 with
  | some ip => known.insert node.1 ip
  | none => known

end Node

section Parse

variable (overflow : Overflow) (env : ParseEnv) (addrOfAnsweringNode : String)

/-- The loop ends at the first item that is no array and passes over malformed arrays. -/
def parseItems : List Value → ParsedSlotsResult → Option ParsedSlotsResult
  | .array (.int start :: .int rangeEnd :: nodes) :: rest, parsed =>
    let nodes := nodes.filterMap (parseNode env addrOfAnsweringNode)
    let parsed := { parsed with addressToIpMap := nodes.foldl recordIp parsed.addressToIpMap }
    match nodes.map Prod.fst with
    | [] => parseItems rest parsed
    | master :: replicas => do
        let parsed ← pushSlot overflow parsed (asU16 start) (asU16 rangeEnd) master replicas
        parseItems rest parsed
  | .array _ :: rest, parsed => parseItems rest parsed
  | _, parsed => some parsed

def parseAndCountSlots (rawSlotResp : Value) : ExceptT RedisError Option ParsedSlotsResult := do
  let items := match rawSlotResp with
    | .array items => items
    | _ => []
  let parsed ← liftM (parseItems overflow env addrOfAnsweringNode items ⟨0, [], ∅⟩)
  if parsed.slots = [] then
    throw (.withDescriptionAndDetail .responseError "Error parsing slots: No healthy node found"
      ("Raw slot map response: " ++ env.debugValue rawSlotResp))
  else return parsed

end Parse

/-! ## Counting the views -/

/-- What makes two views equal: the number of slots and the slots. -/
abbrev View := Nat × List Slot

structure TopologyView where
  hashValue : Nat
  nodesCount : Nat
  slotsAndCount : View
  addressToIpMap : SlotMap.IpMappings

/-- The order in which the values of the hash map of views are visited. -/
structure ViewOrder where
  visit : List TopologyView → List TopologyView
  perm : ∀ views, (visit views).Perm views

/-- The first entry with the hash of the view is counted up, or the view is added. -/
def countView (overflow : Overflow) (view : TopologyView) :
    List TopologyView → Option (List TopologyView)
  | [] => some [{ view with nodesCount := 1 }]
  | entry :: rest =>
    if entry.hashValue = view.hashValue then do
      let nodesCount ← u16.result overflow (entry.nodesCount + 1)
      return { entry with nodesCount := nodesCount.toNat } :: rest
    else (entry :: ·) <$> countView overflow view rest

def defaultNumberOfRefreshSlotsRetries : Nat := 3

def noTopologyViews : RedisError := .withDescription .responseError "No topology views found"

def noMajority : RedisError :=
  .withDescription .responseError
    "Slot refresh error: Failed to obtain a majority in topology views"

def lowAccuracy : RedisError :=
  .withDescription .responseError "Slot refresh error: The accuracy of the topology view is too low"

/-- `agrees` compares the rate of nodes that share a view with the minimal rate. -/
structure VoteEnv extends ParseEnv where
  overflow : Overflow
  hash : View → Nat
  agrees : Nat → Nat → Bool

section Vote

variable (env : VoteEnv)

def countViews : List (String × Value) → List TopologyView → Option (List TopologyView)
  | [], counted => some counted
  | (host, view) :: rest, counted =>
    match (parseAndCountSlots env.overflow env.toParseEnv host view).run with
    | none => none
    | some (.error _) => countViews rest counted
    | some (.ok parsed) => do
        let view : View := (parsed.slotsCount, parsed.slots)
        countViews rest
          (← countView env.overflow ⟨env.hash view, 0, view, parsed.addressToIpMap⟩ counted)

def chooseView (currRetry numOfQueriedNodes : Nat) : List TopologyView → RedisResult TopologyView
  | [] => .error noTopologyViews
  | first :: rest =>
    let (mostFrequentTopology, nonUniqueMaxNodeCount) :=
      elect TopologyView.nodesCount (fun view => view.slotsAndCount.1) first rest
    if nonUniqueMaxNodeCount then
      if defaultNumberOfRefreshSlotsRetries ≤ currRetry ∨ numOfQueriedNodes < 3 then
        .ok mostFrequentTopology
      else .error noMajority
    else if env.agrees mostFrequentTopology.nodesCount numOfQueriedNodes then
      .ok mostFrequentTopology
    else .error lowAccuracy

def calculateTopology (order : ViewOrder) (topologyViews : List (String × Value))
    (currRetry numOfQueriedNodes : Nat) (readFromReplica : ReadFromReplicaStrategy) :
    ExceptT RedisError Option (SlotMap × Nat) := do
  let counted ← liftM (countViews env topologyViews [])
  let view ← liftExcept (chooseView env currRetry numOfQueriedNodes (order.visit counted))
  return (.new view.slotsAndCount.2 view.addressToIpMap readFromReplica, view.hashValue)

end Vote

end ValkeyGlide.Cluster
