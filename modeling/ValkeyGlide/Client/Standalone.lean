import ValkeyGlide.Cluster.ReadRouting

/-!
# Standalone read routing

Which node a standalone client sends a command to (`standalone_client.rs`).
Writes go to the primary.  Reads rotate over the nodes or over those that are not the primary,
passing over nodes that are not connected, and the strategies with a zone try the nodes
of the client's zone first.  Every search makes at most one round over the nodes, and
what it stores is the index of a node (`getConnection_index_lt`), so that its sums of an index
and a count of checks are exact as machine words.
-/

namespace ValkeyGlide.Client

open Cluster Foundation Foundation.Rotation
open Protocol

/-! ## Connections -/

structure MultiplexedConnection where
  az : Option String

inductive ConnectionState where
  | connected (connection : MultiplexedConnection)
  | reconnecting
  | initializedDisconnected

namespace ConnectionState

/-- A connection that was never made counts as connected here. -/
def isConnected : ConnectionState → Bool
  | .reconnecting => false
  | _ => true

def tryGetConnection : ConnectionState → Option MultiplexedConnection
  | .connected connection => some connection
  | _ => none

def reconnect (_ : ConnectionState) : ConnectionState := .reconnecting

end ConnectionState

/-- The connections that a client holds: one that was not made began to reconnect at once. -/
structure ReconnectingConnection where
  state : ConnectionState
  begun : state ≠ .initializedDisconnected

namespace ReconnectingConnection

def createConnection : RedisResult MultiplexedConnection → ReconnectingConnection
  | .ok connection => ⟨.connected connection, nofun⟩
  | .error _ => ⟨ConnectionState.initializedDisconnected.reconnect, nofun⟩

def reconnect (connection : ReconnectingConnection) : ReconnectingConnection :=
  ⟨connection.state.reconnect, nofun⟩

def reconnected (_ : ReconnectingConnection) (connection : MultiplexedConnection) :
    ReconnectingConnection :=
  ⟨.connected connection, nofun⟩

def isConnected (connection : ReconnectingConnection) : Bool := connection.state.isConnected

def tryGetConnection (connection : ReconnectingConnection) : Option MultiplexedConnection :=
  connection.state.tryGetConnection

theorem isConnected_eq (connection : ReconnectingConnection) :
    connection.isConnected = connection.tryGetConnection.isSome := by
  obtain ⟨state, hbegun⟩ := connection
  cases state with
  | connected connection => rfl
  | reconnecting => rfl
  | initializedDisconnected => contradiction

end ReconnectingConnection

/-! ## The client -/

inductive ReadFrom where
  | primary
  | preferReplica (latestReadReplicaIndex : Nat)
  | allNodes (latestReadNodeIndex : Nat)
  | azAffinity (clientAz : String) (lastReadReplicaIndex : Nat)
  | azAffinityReplicasAndPrimary (clientAz : String) (latestReadNodeIndex : Nat)
  | azAffinityAllNodes (clientAz : String) (latestReadNodeIndex : Nat)

namespace ReadFrom

def index : ReadFrom → Nat
  | .primary => 0
  | .preferReplica latest => latest
  | .allNodes latest => latest
  | .azAffinity _ last => last
  | .azAffinityReplicasAndPrimary _ latest => latest
  | .azAffinityAllNodes _ latest => latest

def withIndex : ReadFrom → Nat → ReadFrom
  | .primary, _ => .primary
  | .preferReplica _, latest => .preferReplica latest
  | .allNodes _, latest => .allNodes latest
  | .azAffinity clientAz _, last => .azAffinity clientAz last
  | .azAffinityReplicasAndPrimary clientAz _, latest =>
    .azAffinityReplicasAndPrimary clientAz latest
  | .azAffinityAllNodes clientAz _, latest => .azAffinityAllNodes clientAz latest

def prefersReplicas : ReadFrom → Bool
  | .preferReplica _ => true
  | .azAffinity _ _ => true
  | _ => false

def usesAllNodes : ReadFrom → Bool
  | .allNodes _ => true
  | .azAffinityReplicasAndPrimary _ _ => true
  | .azAffinityAllNodes _ _ => true
  | _ => false

def clientAz? : ReadFrom → Option String
  | .azAffinity clientAz _ => some clientAz
  | .azAffinityReplicasAndPrimary clientAz _ => some clientAz
  | .azAffinityAllNodes clientAz _ => some clientAz
  | _ => none

theorem withIndex_index (readFrom : ReadFrom) : readFrom.withIndex readFrom.index = readFrom := by
  cases readFrom <;> rfl

theorem withIndex_withIndex (readFrom : ReadFrom) (first second : Nat) :
    (readFrom.withIndex first).withIndex second = readFrom.withIndex second := by
  cases readFrom <;> rfl

end ReadFrom

structure StandaloneClient where
  primaryIndex : Nat
  nodes : List ReconnectingConnection
  readFrom : ReadFrom
  primary_lt : primaryIndex < nodes.length

/-- Without interference the exchange is made, unless it fails spuriously. -/
def compareExchangeWeak (exchanged : Bool) (current new : Nat) : Nat :=
  if exchanged then new else current

namespace StandaloneClient

section Selection

variable (client : StandaloneClient)

def getPrimaryConnection : Nat := client.primaryIndex

def connectedNode (index : Nat) : Option Nat :=
  match client.nodes[index]? with
  | none => none
  | some connection => if connection.isConnected then some index else none

def localNode (clientAz : String) (index : Nat) : Option Nat :=
  match client.nodes[index]?.bind ReconnectingConnection.tryGetConnection with
  | none => none
  | some connection => if connection.az = some clientAz then some index else none

def skipPrimary (visit : Nat → Option Nat) (index : Nat) : Option Nat :=
  if index = client.primaryIndex then none else visit index

variable (exchanged : Bool)

/-- The node, and the stored index afterwards. -/
def roundRobinReadFromReplica (latestReadReplicaIndex : Nat) : Nat × Nat :=
  match search client.nodes.length latestReadReplicaIndex
      (client.skipPrimary client.connectedNode) with
  | none => (client.getPrimaryConnection, latestReadReplicaIndex)
  | some (index, node) => (node, compareExchangeWeak exchanged latestReadReplicaIndex index)

def roundRobinReadFromAllNodes (latestReadNodeIndex : Nat) : Nat × Nat :=
  match search client.nodes.length latestReadNodeIndex client.connectedNode with
  | none => (client.getPrimaryConnection, latestReadNodeIndex)
  | some (index, node) => (node, compareExchangeWeak exchanged latestReadNodeIndex index)

def getNextLocalNode (latestReadNodeIndex : Nat) (clientAz : String) (includePrimary : Bool) :
    Option (Nat × Nat) :=
  let visit :=
    if includePrimary then client.localNode clientAz
    else client.skipPrimary (client.localNode clientAz)
  match search client.nodes.length latestReadNodeIndex visit with
  | none => none
  | some (index, node) => some (node, compareExchangeWeak exchanged latestReadNodeIndex index)

def roundRobinReadFromReplicaAzAwareness (lastReadReplicaIndex : Nat) (clientAz : String) :
    Nat × Nat :=
  match client.getNextLocalNode exchanged lastReadReplicaIndex clientAz false with
  | some replica => replica
  | none => client.roundRobinReadFromReplica exchanged lastReadReplicaIndex

def roundRobinReadFromReplicaAzAwarenessReplicasAndPrimary (latestReadNodeIndex : Nat)
    (clientAz : String) : Nat × Nat :=
  match client.getNextLocalNode exchanged latestReadNodeIndex clientAz false with
  | some replica => replica
  | none =>
    match client.localNode clientAz client.getPrimaryConnection with
    | some primary => (primary, latestReadNodeIndex)
    | none => client.roundRobinReadFromAllNodes exchanged latestReadNodeIndex

def roundRobinReadFromAllNodesAzAwareness (latestReadNodeIndex : Nat) (clientAz : String) :
    Nat × Nat :=
  match client.getNextLocalNode exchanged latestReadNodeIndex clientAz true with
  | some node => node
  | none => client.roundRobinReadFromAllNodes exchanged latestReadNodeIndex

def getConnection (readonly : Bool) : Nat × StandaloneClient :=
  if client.nodes.length = 1 ∨ readonly = false then (client.getPrimaryConnection, client)
  else
    match client.readFrom with
    | .primary => (client.getPrimaryConnection, client)
    | .preferReplica latest =>
      let (node, latest) := client.roundRobinReadFromReplica exchanged latest
      (node, { client with readFrom := .preferReplica latest })
    | .allNodes latest =>
      let (node, latest) := client.roundRobinReadFromAllNodes exchanged latest
      (node, { client with readFrom := .allNodes latest })
    | .azAffinity clientAz last =>
      let (node, last) := client.roundRobinReadFromReplicaAzAwareness exchanged last clientAz
      (node, { client with readFrom := .azAffinity clientAz last })
    | .azAffinityReplicasAndPrimary clientAz latest =>
      let (node, latest) :=
        client.roundRobinReadFromReplicaAzAwarenessReplicasAndPrimary exchanged latest clientAz
      (node, { client with readFrom := .azAffinityReplicasAndPrimary clientAz latest })
    | .azAffinityAllNodes clientAz latest =>
      let (node, latest) := client.roundRobinReadFromAllNodesAzAwareness exchanged latest clientAz
      (node, { client with readFrom := .azAffinityAllNodes clientAz latest })

end Selection

/-! ## The documented order -/

def preferences : ReadFrom → List ReadPreference
  | .primary => [⟨.primary, none⟩]
  | .preferReplica _ => [⟨.replicas, none⟩]
  | .allNodes _ => [⟨.allNodes, none⟩]
  | .azAffinity clientAz _ => [⟨.replicas, some clientAz⟩, ⟨.replicas, none⟩]
  | .azAffinityReplicasAndPrimary clientAz _ =>
    [⟨.replicas, some clientAz⟩, ⟨.primary, some clientAz⟩, ⟨.allNodes, none⟩]
  | .azAffinityAllNodes clientAz _ => [⟨.allNodes, some clientAz⟩, ⟨.allNodes, none⟩]

section Spec

variable (client : StandaloneClient)

def Connected (index : Nat) : Prop :=
  ∃ connection, client.nodes[index]?.bind ReconnectingConnection.tryGetConnection = some connection

def InZone (clientAz : String) (index : Nat) : Prop :=
  ∃ connection, client.nodes[index]?.bind ReconnectingConnection.tryGetConnection =
    some connection ∧ connection.az = some clientAz

def nodesOf : NodeGroup → List Nat
  | .primary => [client.primaryIndex]
  | .replicas => (List.range client.nodes.length).filter (· ≠ client.primaryIndex)
  | .allNodes => List.range client.nodes.length

def reach : Option String → Nat → Option Nat
  | none => client.connectedNode
  | some clientAz => client.localNode clientAz

def available (preference : ReadPreference) : List Nat :=
  (client.nodesOf preference.group).filterMap (client.reach preference.zone)

def eligibleNodes : List Nat :=
  firstNonempty ((preferences client.readFrom).map client.available)

end Spec

/-! ## Reads as choices -/

section Tiers

variable (client : StandaloneClient) (exchanged : Bool) (latest : Nat)

def tier (preference : ReadPreference) : Tier Nat :=
  match preference.group with
  | .primary => .single (client.reach preference.zone client.primaryIndex)
  | .replicas =>
    .rotating client.nodes.length (client.skipPrimary (client.reach preference.zone))
  | .allNodes => .rotating client.nodes.length (client.reach preference.zone)

theorem candidates_tier (preference : ReadPreference) :
    (client.tier preference).candidates = client.available preference := by
  obtain ⟨group, zone⟩ := preference
  rw [available]
  cases group with
  | primary =>
    simp only [tier, Tier.candidates, nodesOf]
    cases hreach : client.reach zone client.primaryIndex <;> simp [hreach]
  | replicas =>
    simp only [tier, Tier.candidates, nodesOf, List.filterMap_filter]
    congr 1
    funext index
    by_cases hindex : index = client.primaryIndex <;> simp [skipPrimary, hindex]
  | allNodes => rfl

/-- The choice, or the primary, and the stored index afterwards. -/
def follow (tiers : List (Tier Nat)) : Nat × Nat :=
  ((choose tiers latest).1.getD client.primaryIndex,
    compareExchangeWeak exchanged latest (choose tiers latest).2)

theorem follow_nil : client.follow exchanged latest [] = (client.primaryIndex, latest) := by
  simp [follow, choose, compareExchangeWeak]

theorem follow_single (candidate : Option Nat) (rest : List (Tier Nat)) :
    client.follow exchanged latest (.single candidate :: rest) =
      match candidate with
      | some node => (node, latest)
      | none => client.follow exchanged latest rest := by
  cases candidate with
  | none => rfl
  | some node => simp [follow, choose, compareExchangeWeak]

theorem follow_rotating (total : Nat) (visit : Nat → Option Nat) (rest : List (Tier Nat)) :
    client.follow exchanged latest (.rotating total visit :: rest) =
      match search total latest visit with
      | some (index, node) => (node, compareExchangeWeak exchanged latest index)
      | none => client.follow exchanged latest rest := by
  simp only [follow, choose]
  cases search total latest visit <;> rfl

theorem roundRobinReadFromReplica_eq :
    client.roundRobinReadFromReplica exchanged latest =
      client.follow exchanged latest [client.tier ⟨.replicas, none⟩] := by
  rw [tier, follow_rotating, follow_nil]
  unfold roundRobinReadFromReplica
  dsimp only [reach]
  cases search _ _ _ <;> rfl

theorem roundRobinReadFromAllNodes_eq :
    client.roundRobinReadFromAllNodes exchanged latest =
      client.follow exchanged latest [client.tier ⟨.allNodes, none⟩] := by
  rw [tier, follow_rotating, follow_nil]
  unfold roundRobinReadFromAllNodes
  dsimp only [reach]
  cases search _ _ _ <;> rfl

theorem getNextLocalNode_eq (clientAz : String) (includePrimary : Bool) (rest : List (Tier Nat)) :
    (client.getNextLocalNode exchanged latest clientAz includePrimary).getD
        (client.follow exchanged latest rest) =
      client.follow exchanged latest
        (.rotating client.nodes.length (if includePrimary then client.localNode clientAz
          else client.skipPrimary (client.localNode clientAz)) :: rest) := by
  rw [follow_rotating]
  unfold getNextLocalNode
  dsimp only
  cases search _ _ _ <;> rfl

theorem roundRobinReadFromReplicaAzAwareness_eq (clientAz : String) :
    client.roundRobinReadFromReplicaAzAwareness exchanged latest clientAz =
      client.follow exchanged latest
        [client.tier ⟨.replicas, some clientAz⟩, client.tier ⟨.replicas, none⟩] := by
  refine Eq.trans ?_ (client.getNextLocalNode_eq exchanged latest clientAz false _)
  rw [← roundRobinReadFromReplica_eq]
  unfold roundRobinReadFromReplicaAzAwareness
  cases client.getNextLocalNode exchanged latest clientAz false <;> rfl

theorem roundRobinReadFromReplicaAzAwarenessReplicasAndPrimary_eq (clientAz : String) :
    client.roundRobinReadFromReplicaAzAwarenessReplicasAndPrimary exchanged latest clientAz =
      client.follow exchanged latest
        [client.tier ⟨.replicas, some clientAz⟩, client.tier ⟨.primary, some clientAz⟩,
          client.tier ⟨.allNodes, none⟩] := by
  have hprimary : client.tier ⟨.primary, some clientAz⟩ =
      .single (client.localNode clientAz client.getPrimaryConnection) := rfl
  refine Eq.trans ?_ (client.getNextLocalNode_eq exchanged latest clientAz false _)
  rw [hprimary, follow_single, ← roundRobinReadFromAllNodes_eq]
  unfold roundRobinReadFromReplicaAzAwarenessReplicasAndPrimary
  cases client.getNextLocalNode exchanged latest clientAz false with
  | none => cases client.localNode clientAz client.getPrimaryConnection <;> rfl
  | some found => rfl

theorem roundRobinReadFromAllNodesAzAwareness_eq (clientAz : String) :
    client.roundRobinReadFromAllNodesAzAwareness exchanged latest clientAz =
      client.follow exchanged latest
        [client.tier ⟨.allNodes, some clientAz⟩, client.tier ⟨.allNodes, none⟩] := by
  refine Eq.trans ?_ (client.getNextLocalNode_eq exchanged latest clientAz true _)
  rw [← roundRobinReadFromAllNodes_eq]
  unfold roundRobinReadFromAllNodesAzAwareness
  cases client.getNextLocalNode exchanged latest clientAz true <;> rfl

theorem connectedNode_eq_some_iff {index node : Nat} :
    client.connectedNode index = some node ↔ index = node ∧ client.Connected index := by
  unfold connectedNode Connected
  cases client.nodes[index]? with
  | none => simp
  | some connection =>
    rw [Option.bind_some, ← Option.isSome_iff_exists, ← connection.isConnected_eq]
    cases hconnected : connection.isConnected <;> simp [hconnected]

theorem localNode_eq_some_iff {clientAz : String} {index node : Nat} :
    client.localNode clientAz index = some node ↔ index = node ∧ client.InZone clientAz index := by
  unfold localNode InZone
  cases client.nodes[index]?.bind ReconnectingConnection.tryGetConnection with
  | none => simp
  | some connection => by_cases haz : connection.az = some clientAz <;> simp [haz]

/-- The groups that a read searches: a single node is not searched for. -/
def tiers : List (Tier Nat) :=
  if client.nodes.length = 1 then [] else (preferences client.readFrom).map client.tier

def readFollowing : Nat × Nat := client.follow exchanged client.readFrom.index client.tiers

theorem getConnection_read :
    client.getConnection exchanged true =
      ((client.readFollowing exchanged).1, { client with
        readFrom := client.readFrom.withIndex (client.readFollowing exchanged).2 }) := by
  unfold getConnection readFollowing tiers
  by_cases hsingle : client.nodes.length = 1
  · rw [if_pos (.inl hsingle), if_pos hsingle, follow_nil, ReadFrom.withIndex_index]
    rfl
  · rw [if_neg (by simp [hsingle]), if_neg hsingle]
    cases hreadFrom : client.readFrom with
    | primary =>
      have hclient : { client with readFrom := .primary } = client := by rw [← hreadFrom]
      have hnode : (client.follow exchanged 0 [client.tier ⟨.primary, none⟩]).1 =
          client.primaryIndex := by
        rw [tier, follow_single, follow_nil]
        dsimp only [reach]
        cases hnode : client.connectedNode client.primaryIndex with
        | none => rfl
        | some node => exact (client.connectedNode_eq_some_iff.mp hnode).1.symm
      exact Prod.ext hnode.symm hclient.symm
    | preferReplica latest => simp only [roundRobinReadFromReplica_eq]; rfl
    | allNodes latest => simp only [roundRobinReadFromAllNodes_eq]; rfl
    | azAffinity clientAz last => simp only [roundRobinReadFromReplicaAzAwareness_eq]; rfl
    | azAffinityReplicasAndPrimary clientAz latest =>
      simp only [roundRobinReadFromReplicaAzAwarenessReplicasAndPrimary_eq]; rfl
    | azAffinityAllNodes clientAz latest =>
      simp only [roundRobinReadFromAllNodesAzAwareness_eq]; rfl

end Tiers

/-! ## Eligible nodes -/

theorem preferences_zoned (readFrom : ReadFrom) :
    (preferences readFrom).Pairwise fun first second =>
      second.zone ≠ none → first.zone = second.zone := by
  cases readFrom <;> simp [preferences]

section Eligible

variable {client : StandaloneClient} {preference : ReadPreference} {index node : Nat}
  {zone : Option String}

def Reaches (client : StandaloneClient) : Option String → Nat → Prop
  | none => client.Connected
  | some clientAz => client.InZone clientAz

theorem Reaches.connected (hreaches : client.Reaches zone index) : client.Connected index := by
  cases zone with
  | none => exact hreaches
  | some clientAz =>
    obtain ⟨connection, hconnection, -⟩ := hreaches
    exact ⟨connection, hconnection⟩

theorem Connected.lt_length (hconnected : client.Connected index) :
    index < client.nodes.length := by
  obtain ⟨connection, hconnection⟩ := hconnected
  obtain ⟨_, hnode, -⟩ := Option.bind_eq_some_iff.mp hconnection
  exact (List.getElem?_eq_some_iff.mp hnode).1

theorem reach_eq_some_iff :
    client.reach zone index = some node ↔ index = node ∧ client.Reaches zone index := by
  cases zone with
  | none => exact client.connectedNode_eq_some_iff
  | some clientAz => exact client.localNode_eq_some_iff

theorem mem_available_iff :
    node ∈ client.available preference ↔
      node ∈ client.nodesOf preference.group ∧ client.Reaches preference.zone node := by
  simp only [available, List.mem_filterMap, reach_eq_some_iff]
  constructor
  · rintro ⟨_, hmem, rfl, hreaches⟩
    exact ⟨hmem, hreaches⟩
  · rintro ⟨hmem, hreaches⟩
    exact ⟨node, hmem, rfl, hreaches⟩

theorem exists_preference_of_eligible (hnode : node ∈ client.eligibleNodes) :
    ∃ preference ∈ preferences client.readFrom, node ∈ client.available preference := by
  obtain ⟨group, hgroup, hmem⟩ := exists_mem_of_mem_firstNonempty hnode
  obtain ⟨preference, hpreference, rfl⟩ := List.mem_map.mp hgroup
  exact ⟨preference, hpreference, hmem⟩

theorem not_reaches_of_eligible_eq_nil (hnone : client.eligibleNodes = [])
    (hpreference : preference ∈ preferences client.readFrom)
    (hindex : index ∈ client.nodesOf preference.group) :
    ¬ client.Reaches preference.zone index := by
  rw [eligibleNodes, firstNonempty_eq_nil_iff, List.forall_mem_map] at hnone
  intro hreaches
  have hmem := mem_available_iff.mpr ⟨hindex, hreaches⟩
  rw [hnone preference hpreference] at hmem
  contradiction

theorem eligible_tiers (hseveral : client.nodes.length ≠ 1) :
    eligible client.tiers = client.eligibleNodes := by
  have hcandidates : Tier.candidates ∘ client.tier = client.available :=
    funext client.candidates_tier
  rw [tiers, if_neg hseveral, eligible, List.map_map, hcandidates, eligibleNodes]

theorem eligibleNodes_of_single (hsingle : client.nodes.length = 1) :
    client.eligibleNodes = [] ∨ client.eligibleNodes = [client.primaryIndex] := by
  have hprimary : client.primaryIndex = 0 := by
    have := client.primary_lt
    omega
  have havailable : ∀ preference, client.available preference = [] ∨
      client.available preference = [client.primaryIndex] := by
    rintro ⟨group, zone⟩
    have hnodes : client.nodesOf group = [] ∨ client.nodesOf group = [client.primaryIndex] := by
      cases group <;> simp [nodesOf, hsingle, hprimary]
    rw [available]
    rcases hnodes with hnodes | hnodes
    · exact .inl (by rw [hnodes, List.filterMap_nil])
    · rw [hnodes]
      cases hreach : client.reach zone client.primaryIndex with
      | none => exact .inl (by simp [hreach])
      | some node =>
        obtain ⟨rfl, -⟩ := reach_eq_some_iff.mp hreach
        exact .inr (by simp [hreach])
  refine (firstNonempty_mem ((preferences client.readFrom).map client.available)).elim .inl ?_
  intro hmem
  obtain ⟨preference, -, hpreference⟩ := List.mem_map.mp hmem
  rw [eligibleNodes, ← hpreference]
  exact havailable preference

theorem getConnection_ordered (client : StandaloneClient) (exchanged : Bool) :
    client.eligibleNodes = [] ∧ (client.getConnection exchanged true).1 = client.primaryIndex ∨
      (client.getConnection exchanged true).1 ∈ client.eligibleNodes := by
  rw [getConnection_read]
  dsimp only [readFollowing, follow]
  by_cases hsingle : client.nodes.length = 1
  · have hnode : (choose client.tiers client.readFrom.index).1.getD client.primaryIndex =
        client.primaryIndex := by
      rw [tiers, if_pos hsingle]
      rfl
    rw [hnode]
    rcases eligibleNodes_of_single hsingle with hnone | hone
    · exact .inl ⟨hnone, rfl⟩
    · exact .inr (by rw [hone]; exact List.mem_cons_self)
  · rw [← eligible_tiers hsingle]
    cases hchoose : (choose client.tiers client.readFrom.index).1 with
    | none => exact .inl ⟨choose_fst_eq_none_iff.mp hchoose, rfl⟩
    | some node => exact .inr (mem_eligible_of_choose hchoose)

end Eligible

/-! ## Reads in a row -/

section Consecutive

variable {client other : StandaloneClient}

def read (client : StandaloneClient) : Option Nat × StandaloneClient :=
  (some (client.getConnection true true).1, (client.getConnection true true).2)

structure SharesNodes (client other : StandaloneClient) : Prop where
  primaryIndex : other.primaryIndex = client.primaryIndex
  nodes : other.nodes = client.nodes
  readFrom : ∃ index, other.readFrom = client.readFrom.withIndex index

theorem SharesNodes.tiers (hshares : client.SharesNodes other) : other.tiers = client.tiers := by
  obtain ⟨primaryIndex, nodes, readFrom, hlt⟩ := other
  obtain ⟨rfl, rfl, index, rfl⟩ := hshares
  have hpreferences : preferences (client.readFrom.withIndex index) =
      preferences client.readFrom := by
    cases client.readFrom <;> rfl
  unfold StandaloneClient.tiers
  rw [hpreferences]
  rfl

theorem index_withIndex_choose (client : StandaloneClient) :
    (client.readFrom.withIndex (choose client.tiers client.readFrom.index).2).index =
      (choose client.tiers client.readFrom.index).2 := by
  unfold tiers
  cases client.readFrom with
  | primary =>
    split_ifs
    · rfl
    · simp only [preferences, tier, List.map_cons, List.map_nil]
      cases client.reach none client.primaryIndex <;> rfl
  | preferReplica latest => rfl
  | allNodes latest => rfl
  | azAffinity clientAz last => rfl
  | azAffinityReplicasAndPrimary clientAz latest => rfl
  | azAffinityAllNodes clientAz latest => rfl

theorem read_follows (hsome : eligible client.tiers ≠ []) :
    Follows client.tiers (fun state => state.readFrom.index) client.SharesNodes read := by
  refine ⟨fun state hshares => ?_, fun state hshares => ?_, fun state hshares => ?_⟩
  · rw [read, getConnection_read]
    dsimp only [readFollowing, follow]
    rw [hshares.tiers]
    cases hchoose : (choose client.tiers state.readFrom.index).1 with
    | none => exact absurd (choose_fst_eq_none_iff.mp hchoose) hsome
    | some node => rfl
  · rw [read, getConnection_read]
    exact hshares.tiers ▸ state.index_withIndex_choose
  · rw [read, getConnection_read]
    obtain ⟨index, hreadFrom⟩ := hshares.readFrom
    refine ⟨hshares.primaryIndex, hshares.nodes, (state.readFollowing true).2, ?_⟩
    dsimp only
    rw [hreadFrom, ReadFrom.withIndex_withIndex]

theorem SharesNodes.refl (client : StandaloneClient) : client.SharesNodes client :=
  ⟨rfl, rfl, client.readFrom.index, client.readFrom.withIndex_index.symm⟩

theorem reads_perm (client : StandaloneClient) :
    (results read client.eligibleNodes.length client).Perm (client.eligibleNodes.map some) := by
  cases hnodes : client.eligibleNodes with
  | nil => exact .nil
  | cons first rest =>
    rw [← hnodes]
    by_cases hsingle : client.nodes.length = 1
    · rcases eligibleNodes_of_single hsingle with hnone | hone
      · exact absurd (hnone.symm.trans hnodes) (List.cons_ne_nil first rest).symm
      · have hnode : (client.getConnection true true).1 = client.primaryIndex := by
          rw [getConnection, if_pos (.inl hsingle)]
          rfl
        rw [hone]
        simp [results, read, hnode]
    · rw [← eligible_tiers hsingle]
      have hsome : eligible client.tiers ≠ [] := by
        rw [eligible_tiers hsingle, hnodes]
        exact List.cons_ne_nil first rest
      exact (read_follows hsome).results_perm (.refl client)

end Consecutive

/-! ## Commands -/

structure RoutesCommands (client : StandaloneClient) (exchanged : Bool) : Prop where
  write : (client.getConnection exchanged false).1 = client.primaryIndex
  preferred : client.readFrom.prefersReplicas →
    (client.getConnection exchanged true).1 = client.primaryIndex →
      ∀ index ≠ client.primaryIndex, ¬ client.Connected index
  connected : client.readFrom.usesAllNodes →
    ¬ client.Connected (client.getConnection exchanged true).1 → ∀ index, ¬ client.Connected index
  inZone : ∀ clientAz, client.readFrom.clientAz? = some clientAz → ∀ index,
    client.readFrom.usesAllNodes ∨ index ≠ client.primaryIndex → client.InZone clientAz index →
      client.InZone clientAz (client.getConnection exchanged true).1
  replicasFirst : ∀ clientAz latest,
    client.readFrom = .azAffinityReplicasAndPrimary clientAz latest →
      ∀ index ≠ client.primaryIndex, client.InZone clientAz index →
        (client.getConnection exchanged true).1 ≠ client.primaryIndex
  ordered : client.eligibleNodes = [] ∧
      (client.getConnection exchanged true).1 = client.primaryIndex ∨
    (client.getConnection exchanged true).1 ∈ client.eligibleNodes
  eligible : ∀ node ∈ client.eligibleNodes, client.Connected node
  fair : exchanged = true → client.eligibleNodes.Nodup ∧
    (results read client.eligibleNodes.length client).Perm (client.eligibleNodes.map some)

section Commands

variable {client : StandaloneClient} {index : Nat}

theorem eligibleNodes_nodup (client : StandaloneClient) : client.eligibleNodes.Nodup := by
  have havailable : ∀ preference, (client.available preference).Nodup := by
    rintro ⟨group, zone⟩
    have hnodes : (client.nodesOf group).Nodup := by
      cases group with
      | primary => exact List.nodup_singleton _
      | replicas => exact List.nodup_range.filter _
      | allNodes => exact List.nodup_range
    refine hnodes.filterMap fun first second node hfirst hsecond => ?_
    rw [(reach_eq_some_iff.mp hfirst).1, (reach_eq_some_iff.mp hsecond).1]
  rcases firstNonempty_mem ((preferences client.readFrom).map client.available) with hempty | hmem
  · rw [eligibleNodes, hempty]
    exact List.nodup_nil
  · obtain ⟨preference, -, hpreference⟩ := List.mem_map.mp hmem
    rw [eligibleNodes, ← hpreference]
    exact havailable preference

variable {readFrom : ReadFrom} {exchanged : Bool} {clientAz : String}

theorem prefersReplicas_preferences (hprefers : readFrom.prefersReplicas) :
    ⟨.replicas, none⟩ ∈ preferences readFrom ∧
      ∀ preference ∈ preferences readFrom, preference.group = .replicas := by
  cases readFrom <;> simp_all [ReadFrom.prefersReplicas, preferences]

theorem usesAllNodes_preferences (huses : readFrom.usesAllNodes) :
    ⟨.allNodes, none⟩ ∈ preferences readFrom := by
  cases readFrom <;> simp_all [ReadFrom.usesAllNodes, preferences]

theorem mem_nodesOf_replicas :
    index ∈ client.nodesOf .replicas ↔
      index < client.nodes.length ∧ index ≠ client.primaryIndex := by
  simp [nodesOf]

theorem getConnection_primary (hprefers : client.readFrom.prefersReplicas)
    (hprimary : (client.getConnection exchanged true).1 = client.primaryIndex)
    (hindex : index ≠ client.primaryIndex) : ¬ client.Connected index := by
  obtain ⟨hreplicas, hgroups⟩ := prefersReplicas_preferences hprefers
  intro hconnected
  rcases client.getConnection_ordered exchanged with ⟨hnone, -⟩ | hnode
  · exact not_reaches_of_eligible_eq_nil hnone hreplicas
      (mem_nodesOf_replicas.mpr ⟨hconnected.lt_length, hindex⟩) hconnected
  · obtain ⟨preference, hpreference, havailable⟩ := exists_preference_of_eligible hnode
    have hmem := (mem_available_iff.mp havailable).1
    rw [hgroups preference hpreference, mem_nodesOf_replicas] at hmem
    exact hmem.2 hprimary

theorem getConnection_disconnected (huses : client.readFrom.usesAllNodes)
    (hdisconnected : ¬ client.Connected (client.getConnection exchanged true).1) :
    ¬ client.Connected index := by
  intro hconnected
  rcases client.getConnection_ordered exchanged with ⟨hnone, -⟩ | hnode
  · exact not_reaches_of_eligible_eq_nil hnone (usesAllNodes_preferences huses)
      (List.mem_range.mpr hconnected.lt_length) hconnected
  · obtain ⟨preference, -, havailable⟩ := exists_preference_of_eligible hnode
    exact hdisconnected (mem_available_iff.mp havailable).2.connected

theorem getConnection_zoned {preference : ReadPreference}
    (hpreference : preference ∈ preferences client.readFrom)
    (hzone : preference.zone = some clientAz) (hindex : index ∈ client.nodesOf preference.group)
    (hinZone : client.InZone clientAz index) :
    client.InZone clientAz (client.getConnection exchanged true).1 := by
  have hreaches : client.Reaches preference.zone index := by rwa [hzone]
  rcases client.getConnection_ordered exchanged with ⟨hnone, -⟩ | hnode
  · exact absurd hreaches (not_reaches_of_eligible_eq_nil hnone hpreference hindex)
  · have hsome : client.available preference ≠ [] :=
      List.ne_nil_of_mem (mem_available_iff.mpr ⟨hindex, hreaches⟩)
    obtain ⟨other, -, hother, havailable⟩ :=
      label_of_mem_firstNonempty (preferences_zoned _) hpreference hzone hsome hnode
    have hfound := (mem_available_iff.mp havailable).2
    rwa [hother] at hfound

theorem considered_preference (hclientAz : readFrom.clientAz? = some clientAz)
    (hlt : index < client.nodes.length)
    (hconsidered : readFrom.usesAllNodes ∨ index ≠ client.primaryIndex) :
    ∃ preference ∈ preferences readFrom, preference.zone = some clientAz ∧
      index ∈ client.nodesOf preference.group := by
  cases readFrom with
  | azAffinity az last =>
    obtain rfl := Option.some.inj hclientAz
    have hindex := hconsidered.resolve_left Bool.false_ne_true
    exact ⟨⟨.replicas, some az⟩, List.mem_cons_self, rfl, mem_nodesOf_replicas.mpr ⟨hlt, hindex⟩⟩
  | azAffinityReplicasAndPrimary az latest =>
    obtain rfl := Option.some.inj hclientAz
    by_cases hindex : index = client.primaryIndex
    · exact ⟨⟨.primary, some az⟩, by simp [preferences], rfl, List.mem_singleton.mpr hindex⟩
    · exact ⟨⟨.replicas, some az⟩, List.mem_cons_self, rfl,
        mem_nodesOf_replicas.mpr ⟨hlt, hindex⟩⟩
  | azAffinityAllNodes az latest =>
    obtain rfl := Option.some.inj hclientAz
    exact ⟨⟨.allNodes, some az⟩, List.mem_cons_self, rfl, List.mem_range.mpr hlt⟩
  | primary => exact nomatch hclientAz
  | preferReplica latest => exact nomatch hclientAz
  | allNodes latest => exact nomatch hclientAz

theorem InZone.lt_length (hinZone : client.InZone clientAz index) :
    index < client.nodes.length :=
  Connected.lt_length (Reaches.connected (show client.Reaches (some clientAz) index from hinZone))

theorem getConnection_replica {latest : Nat}
    (hreadFrom : client.readFrom = .azAffinityReplicasAndPrimary clientAz latest)
    (hindex : index ≠ client.primaryIndex) (hinZone : client.InZone clientAz index) :
    (client.getConnection exchanged true).1 ≠ client.primaryIndex := by
  have hmem : index ∈ client.available ⟨.replicas, some clientAz⟩ :=
    mem_available_iff.mpr ⟨mem_nodesOf_replicas.mpr ⟨hinZone.lt_length, hindex⟩, hinZone⟩
  have heligible : client.eligibleNodes = client.available ⟨.replicas, some clientAz⟩ := by
    rw [eligibleNodes, hreadFrom, preferences, List.map_cons, firstNonempty,
      if_neg (List.ne_nil_of_mem hmem)]
  rcases client.getConnection_ordered exchanged with ⟨hnone, -⟩ | hnode
  · rw [← heligible, hnone] at hmem
    contradiction
  · rw [heligible, mem_available_iff, mem_nodesOf_replicas] at hnode
    exact hnode.1.2

end Commands

/-- For every client and outcome of the exchange. -/
theorem getConnection_routesCommands (client : StandaloneClient) (exchanged : Bool) :
    client.RoutesCommands exchanged where
  write := by
    rw [getConnection, if_pos (.inr rfl)]
    rfl
  preferred hprefers hprimary index hindex := getConnection_primary hprefers hprimary hindex
  connected huses hdisconnected index := getConnection_disconnected huses hdisconnected
  inZone clientAz hclientAz index hconsidered hinZone := by
    obtain ⟨preference, hpreference, hzone, hindex⟩ :=
      considered_preference hclientAz hinZone.lt_length hconsidered
    exact getConnection_zoned hpreference hzone hindex hinZone
  replicasFirst clientAz latest hreadFrom index hindex hinZone :=
    getConnection_replica hreadFrom hindex hinZone
  ordered := client.getConnection_ordered exchanged
  eligible node hnode := by
    obtain ⟨preference, -, havailable⟩ := exists_preference_of_eligible hnode
    exact (mem_available_iff.mp havailable).2.connected
  fair _ := ⟨client.eligibleNodes_nodup, client.reads_perm⟩

/-- The primary and two replicas are in the client's zone, the first replica reconnects. -/
def fourNodes (readFrom : ReadFrom) : StandaloneClient where
  primaryIndex := 0
  nodes := [.createConnection (.ok ⟨some "x"⟩), .reconnect (.createConnection (.ok ⟨some "x"⟩)),
    .createConnection (.ok ⟨some "x"⟩), .createConnection (.ok ⟨some "y"⟩)]
  readFrom := readFrom
  primary_lt := by decide

example : results read 4 (fourNodes (.preferReplica 0)) = [some 2, some 3, some 2, some 3] := by
  decide

example : results read 2 (fourNodes (.azAffinity "x" 0)) = [some 2, some 2] := by
  decide

-- no node of the client's zone is left, so the reads rotate over all that are connected
example : results read 3 (fourNodes (.azAffinityReplicasAndPrimary "z" 0)) =
    [some 2, some 3, some 0] := by
  decide

end StandaloneClient

end ValkeyGlide.Client
