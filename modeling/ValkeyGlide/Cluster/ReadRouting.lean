import ValkeyGlide.Cluster.SlotMap
import ValkeyGlide.Foundation.Rotation

/-!
# Read routing

Which connection a route leads to (`connections_container.rs`).  A read rotates
over the replicas or over all nodes of the shard, over those of the client's
availability zone first where the strategy asks for it, and every rotation starts
behind the index that is stored with the slot range.  `preferences` is the documented
order of the groups of nodes; the lookups are shown to follow it.

The stored index is a natural number here.  In the source the sums of an index and a
count of checks are machine words, which are exact as long as the index is below the word
size by the number of nodes; a lookup stores only indices of nodes
(`connectionForRoute_loadIndex`), so that only the unchecked increments of the slot map's own
lookups, a whole word of them, could bring it there.  A lookup reads only the
connection of a node that serves users.
-/

namespace ValkeyGlide.Cluster

open Foundation Foundation.Rotation Protocol

structure ConnectionDetails (Connection : Type) where
  conn : Connection
  az : Option String

structure ClusterNode (Connection : Type) where
  userConnection : ConnectionDetails Connection
  managementConnection : Option (ConnectionDetails Connection)

def ClusterNode.connectionsCount {Connection : Type} (node : ClusterNode Connection) : Nat :=
  if node.managementConnection.isSome then 2 else 1

abbrev ConnectionAndAddress (Connection : Type) := Address × Connection

/-- Every slot range refers to a stored index. -/
@[ext] structure ConnectionsContainer (Connection : Type) where
  connectionMap : AList fun _ : Address => ClusterNode Connection
  slotMap : SlotMap
  readFromReplicaStrategy : ReadFromReplicaStrategy
  counted : ∀ entry ∈ slotMap.slots, entry.2.lastUsedNodeIndex < slotMap.nodeIndexes.length

inductive NodeGroup where
  | primary
  | replicas
  | allNodes

def NodeGroup.nodes (shard : ShardAddrs) : NodeGroup → List Address
  | .primary => [shard.primary]
  | .replicas => shard.replicas
  | .allNodes => shard.primary :: shard.replicas

structure ReadPreference where
  group : NodeGroup
  zone : Option String

abbrev Lookup (Connection : Type) :=
  Option (ConnectionAndAddress Connection) × ConnectionsContainer Connection

namespace ConnectionsContainer

variable {Connection : Type}

/-! ## The lookups -/

section Lookups

variable (container : ConnectionsContainer Connection)

def azForAddress (address : Address) : Option String :=
  (container.connectionMap.lookup address).bind fun node => node.userConnection.az

def connectionForAddress (address : Address) : Option (ConnectionAndAddress Connection) :=
  (container.connectionMap.lookup address).map fun node => (address, node.userConnection.conn)

def connectionDetailsForAddress (address : Address) :
    Option (ConnectionAndAddress (ConnectionDetails Connection)) :=
  (container.connectionMap.lookup address).map fun node => (address, node.userConnection)

def connectionInAz (clientAz : String) (address : Address) :
    Option (ConnectionAndAddress Connection) :=
  match container.connectionDetailsForAddress address with
  | none => none
  | some (address, connectionDetails) =>
    if container.azForAddress address = some clientAz then some (address, connectionDetails.conn)
    else none

def loadIndex (value : SlotMapValue) : Nat :=
  container.slotMap.nodeIndexes.getD value.lastUsedNodeIndex 0

/-- Without interference the exchange is made, unless it fails spuriously. -/
def compareExchangeWeak (exchanged : Bool) (value : SlotMapValue) (current new : Nat) :
    ConnectionsContainer Connection :=
  if exchanged ∧ container.loadIndex value = current then
    { container with
      slotMap := { container.slotMap with
        nodeIndexes := container.slotMap.nodeIndexes.set value.lastUsedNodeIndex new }
      counted := by simpa using container.counted }
  else container

def nodeAddress (shard : ShardAddrs) (index : Nat) : Option Address :=
  if index = 0 then some shard.primary else shard.replicas[index - 1]?

variable (exchanged : Bool) (value : SlotMapValue) (shard : ShardAddrs)

def roundRobinReadFromAllNodes : Lookup Connection :=
  let totalNodes := shard.replicas.length + 1
  let initialIndex := container.loadIndex value
  let visit index := (nodeAddress shard index).bind container.connectionForAddress
  match search totalNodes initialIndex visit with
  | none => (none, container)
  | some (index, connection) =>
    (some connection, container.compareExchangeWeak exchanged value initialIndex index)

def roundRobinReadFromReplica : Lookup Connection :=
  let initialIndex := container.loadIndex value
  let visit index := shard.replicas[index]?.bind container.connectionForAddress
  match search shard.replicas.length initialIndex visit with
  | none => (container.connectionForAddress shard.primary, container)
  | some (index, connection) =>
    (some connection, container.compareExchangeWeak exchanged value initialIndex index)

def roundRobinReadFromAllNodesWithAzAwareness (clientAz : String) : Lookup Connection :=
  let totalNodes := shard.replicas.length + 1
  let initialIndex := container.loadIndex value
  let visit index := (nodeAddress shard index).bind (container.connectionInAz clientAz)
  match search totalNodes initialIndex visit with
  | none => container.roundRobinReadFromAllNodes exchanged value shard
  | some (index, connection) =>
    (some connection, container.compareExchangeWeak exchanged value initialIndex index)

def getConnectionByAzAffinityStrategy (clientAz : String) (checkPrimary : Bool) :
    Lookup Connection :=
  let initialIndex := container.loadIndex value
  let visit index := shard.replicas[index]?.bind (container.connectionInAz clientAz)
  match search shard.replicas.length initialIndex visit with
  | some (index, connection) =>
    (some connection, container.compareExchangeWeak exchanged value initialIndex index)
  | none =>
    let primary :=
      if checkPrimary then container.connectionInAz clientAz shard.primary else none
    match primary with
    | some connection => (some connection, container)
    | none => container.roundRobinReadFromReplica exchanged value shard

def roundRobinReadFromReplicaWithAzAwareness (clientAz : String) : Lookup Connection :=
  container.getConnectionByAzAffinityStrategy exchanged value shard clientAz false

def roundRobinReadFromReplicaWithAzAwarenessReplicasAndPrimary (clientAz : String) :
    Lookup Connection :=
  container.getConnectionByAzAffinityStrategy exchanged value shard clientAz true

def slotMapValue (route : Route) : Option (SlotMapValue × ShardAddrs) := do
  let value ← container.slotMap.slotValueForRoute route
  let shard ← container.slotMap.shards[value.addrs]?
  return (value, shard)

def lookupRoute (route : Route) : Lookup Connection :=
  match container.slotMapValue route with
  | none => (none, container)
  | some (value, shard) =>
    if shard.replicas = [] then (container.connectionForAddress shard.primary, container)
    else
      match route.slotAddr with
      | .master => (container.connectionForAddress shard.primary, container)
      | .replicaOptional =>
        match container.readFromReplicaStrategy with
        | .alwaysFromPrimary => (container.connectionForAddress shard.primary, container)
        | .roundRobin => container.roundRobinReadFromReplica exchanged value shard
        | .allNodes => container.roundRobinReadFromAllNodes exchanged value shard
        | .azAffinity az =>
          container.roundRobinReadFromReplicaWithAzAwareness exchanged value shard az
        | .azAffinityReplicasAndPrimary az =>
          container.roundRobinReadFromReplicaWithAzAwarenessReplicasAndPrimary exchanged
            value shard az
        | .azAffinityAllNodes az =>
          container.roundRobinReadFromAllNodesWithAzAwareness exchanged value shard az
      | .replicaRequired =>
        match container.readFromReplicaStrategy with
        | .azAffinity az =>
          container.roundRobinReadFromReplicaWithAzAwareness exchanged value shard az
        | .azAffinityReplicasAndPrimary az =>
          container.roundRobinReadFromReplicaWithAzAwarenessReplicasAndPrimary exchanged
            value shard az
        | .azAffinityAllNodes az =>
          container.roundRobinReadFromReplicaWithAzAwareness exchanged value shard az
        | _ => container.roundRobinReadFromReplica exchanged value shard

def connectionForRoute (route : Route) : Lookup Connection :=
  match container.lookupRoute exchanged route with
  | (some connection, container) => (some connection, container)
  | (none, container) =>
    if route.slotAddr ≠ .master then container.lookupRoute exchanged ⟨route.slot, .master⟩
    else (none, container)

end Lookups

/-! ## The documented order -/

def preferences (strategy : ReadFromReplicaStrategy) : SlotAddr → List ReadPreference
  | .master => [⟨.primary, none⟩]
  | .replicaOptional =>
    match strategy with
    | .alwaysFromPrimary => [⟨.primary, none⟩]
    | .roundRobin => [⟨.replicas, none⟩, ⟨.primary, none⟩]
    | .allNodes => [⟨.allNodes, none⟩]
    | .azAffinity az => [⟨.replicas, some az⟩, ⟨.replicas, none⟩, ⟨.primary, none⟩]
    | .azAffinityReplicasAndPrimary az =>
      [⟨.replicas, some az⟩, ⟨.primary, some az⟩, ⟨.replicas, none⟩, ⟨.primary, none⟩]
    | .azAffinityAllNodes az => [⟨.allNodes, some az⟩, ⟨.allNodes, none⟩]
  | .replicaRequired =>
    match strategy with
    | .azAffinity az => [⟨.replicas, some az⟩, ⟨.replicas, none⟩, ⟨.primary, none⟩]
    | .azAffinityReplicasAndPrimary az =>
      [⟨.replicas, some az⟩, ⟨.primary, some az⟩, ⟨.replicas, none⟩, ⟨.primary, none⟩]
    | .azAffinityAllNodes az => [⟨.replicas, some az⟩, ⟨.replicas, none⟩, ⟨.primary, none⟩]
    | _ => [⟨.replicas, none⟩, ⟨.primary, none⟩]

/-- The primary, unless the strategy or the route also admits replicas. -/
def allowedNodes (strategy : ReadFromReplicaStrategy) (slotAddr : SlotAddr) (shard : ShardAddrs) :
    List Address :=
  match slotAddr, strategy with
  | .master, _ => [shard.primary]
  | .replicaOptional, .alwaysFromPrimary => [shard.primary]
  | _, _ => shard.primary :: shard.replicas

section Spec

variable (container : ConnectionsContainer Connection)

def reach : Option String → Address → Option (ConnectionAndAddress Connection)
  | none => container.connectionForAddress
  | some zone => container.connectionInAz zone

def available (shard : ShardAddrs) (preference : ReadPreference) :
    List (ConnectionAndAddress Connection) :=
  (preference.group.nodes shard).filterMap (container.reach preference.zone)

def eligibleFor (route : Route) : List (ConnectionAndAddress Connection) :=
  match container.slotMapValue route with
  | none => []
  | some (_, shard) =>
    firstNonempty ((preferences container.readFromReplicaStrategy route.slotAddr).map
      (container.available shard))

def allowedFor (route : Route) : List Address :=
  match container.slotMapValue route with
  | none => []
  | some (_, shard) => allowedNodes container.readFromReplicaStrategy route.slotAddr shard

end Spec

/-! ## Lookups as choices -/

section Tiers

variable (container : ConnectionsContainer Connection) (exchanged : Bool) (value : SlotMapValue)
  (shard : ShardAddrs)

def tier (preference : ReadPreference) : Tier (ConnectionAndAddress Connection) :=
  match preference.group with
  | .primary => .single (container.reach preference.zone shard.primary)
  | .replicas =>
    .rotating shard.replicas.length fun index =>
      shard.replicas[index]?.bind (container.reach preference.zone)
  | .allNodes =>
    .rotating (shard.replicas.length + 1) fun index =>
      (nodeAddress shard index).bind (container.reach preference.zone)

theorem available_primary (zone : Option String) :
    container.available shard ⟨.primary, zone⟩ = (container.reach zone shard.primary).toList := by
  rw [available, NodeGroup.nodes]
  cases hreach : container.reach zone shard.primary <;> simp [hreach]

theorem candidates_tier (preference : ReadPreference) :
    (container.tier shard preference).candidates = container.available shard preference := by
  obtain ⟨group, zone⟩ := preference
  cases group with
  | primary => exact (container.available_primary shard zone).symm
  | replicas => exact filterMap_range_getElem? shard.replicas (container.reach zone)
  | allNodes =>
    have hnode : nodeAddress shard = fun index => (shard.primary :: shard.replicas)[index]? := by
      funext index
      cases index <;> rfl
    simp only [tier, Tier.candidates, hnode]
    exact filterMap_range_getElem? (shard.primary :: shard.replicas) (container.reach zone)

def follow (tiers : List (Tier (ConnectionAndAddress Connection))) : Lookup Connection :=
  ((choose tiers (container.loadIndex value)).1,
    container.compareExchangeWeak exchanged value (container.loadIndex value)
      (choose tiers (container.loadIndex value)).2)

theorem compareExchangeWeak_loadIndex :
    container.compareExchangeWeak exchanged value (container.loadIndex value)
      (container.loadIndex value) = container := by
  unfold compareExchangeWeak
  split_ifs
  · have hset : container.slotMap.nodeIndexes.set value.lastUsedNodeIndex
        (container.loadIndex value) = container.slotMap.nodeIndexes := by
      by_cases hlt : value.lastUsedNodeIndex < container.slotMap.nodeIndexes.length
      · simp [loadIndex, List.getD_eq_getElem?_getD, hlt]
      · exact List.set_eq_of_length_le (Nat.not_lt.mp hlt)
    ext1
    · rfl
    · simp [hset]
    · rfl
  · rfl

variable {exchanged value} in
theorem follow_nil : container.follow exchanged value [] = (none, container) := by
  simp [follow, choose, compareExchangeWeak_loadIndex]

variable {container exchanged value} in
theorem follow_single (candidate : Option (ConnectionAndAddress Connection))
    (rest : List (Tier (ConnectionAndAddress Connection))) :
    container.follow exchanged value (.single candidate :: rest) =
      match candidate with
      | some connection => (some connection, container)
      | none => container.follow exchanged value rest := by
  cases candidate with
  | none => rfl
  | some connection => simp [follow, choose, compareExchangeWeak_loadIndex]

variable {container exchanged value} in
theorem follow_rotating (total : Nat) (visit : Nat → Option (ConnectionAndAddress Connection))
    (rest : List (Tier (ConnectionAndAddress Connection))) :
    container.follow exchanged value (.rotating total visit :: rest) =
      match search total (container.loadIndex value) visit with
      | some (index, connection) =>
        (some connection, container.compareExchangeWeak exchanged value
          (container.loadIndex value) index)
      | none => container.follow exchanged value rest := by
  simp only [follow, choose]
  cases search total (container.loadIndex value) visit <;> rfl

theorem roundRobinReadFromAllNodes_eq :
    container.roundRobinReadFromAllNodes exchanged value shard =
      container.follow exchanged value [container.tier shard ⟨.allNodes, none⟩] := by
  rw [tier, follow_rotating, follow_nil]
  unfold roundRobinReadFromAllNodes
  dsimp only [reach]
  cases search _ _ _ <;> rfl

theorem roundRobinReadFromReplica_eq :
    container.roundRobinReadFromReplica exchanged value shard =
      container.follow exchanged value
        [container.tier shard ⟨.replicas, none⟩, container.tier shard ⟨.primary, none⟩] := by
  rw [tier, tier, follow_rotating, follow_single, follow_nil]
  unfold roundRobinReadFromReplica
  dsimp only [reach]
  cases search _ _ _ with
  | none => cases container.connectionForAddress shard.primary <;> rfl
  | some found => rfl

theorem roundRobinReadFromAllNodesWithAzAwareness_eq (clientAz : String) :
    container.roundRobinReadFromAllNodesWithAzAwareness exchanged value shard clientAz =
      container.follow exchanged value
        [container.tier shard ⟨.allNodes, some clientAz⟩,
          container.tier shard ⟨.allNodes, none⟩] := by
  rw [tier, follow_rotating, ← roundRobinReadFromAllNodes_eq]
  unfold roundRobinReadFromAllNodesWithAzAwareness
  dsimp only [reach]
  cases search _ _ _ <;> rfl

theorem getConnectionByAzAffinityStrategy_eq (clientAz : String) (checkPrimary : Bool) :
    container.getConnectionByAzAffinityStrategy exchanged value shard clientAz checkPrimary =
      container.follow exchanged value
        (container.tier shard ⟨.replicas, some clientAz⟩ ::
          ((if checkPrimary then [container.tier shard ⟨.primary, some clientAz⟩] else []) ++
            [container.tier shard ⟨.replicas, none⟩, container.tier shard ⟨.primary, none⟩])) := by
  rw [tier, follow_rotating]
  unfold getConnectionByAzAffinityStrategy
  dsimp only [reach]
  cases search _ _ _ with
  | some found => rfl
  | none =>
    cases checkPrimary with
    | false => exact container.roundRobinReadFromReplica_eq exchanged value shard
    | true =>
      rw [if_pos rfl, if_pos rfl, List.singleton_append, tier, follow_single,
        ← roundRobinReadFromReplica_eq]
      rfl

def tiers (slotAddr : SlotAddr) : List (Tier (ConnectionAndAddress Connection)) :=
  if shard.replicas = [] then [container.tier shard ⟨.primary, none⟩]
  else (preferences container.readFromReplicaStrategy slotAddr).map (container.tier shard)

theorem follow_primary :
    container.follow exchanged value [container.tier shard ⟨.primary, none⟩] =
      (container.connectionForAddress shard.primary, container) := by
  rw [tier, follow_single, follow_nil]
  dsimp only [reach]
  cases container.connectionForAddress shard.primary <;> rfl

theorem lookupRoute_eq {route : Route} {value : SlotMapValue} {shard : ShardAddrs}
    (hvalue : container.slotMapValue route = some (value, shard)) :
    container.lookupRoute exchanged route =
      container.follow exchanged value (container.tiers shard route.slotAddr) := by
  unfold lookupRoute tiers
  simp only [hvalue]
  split_ifs with hreplicas
  · exact (container.follow_primary exchanged value shard).symm
  · cases route.slotAddr with
    | master => exact (container.follow_primary exchanged value shard).symm
    | replicaOptional =>
      cases container.readFromReplicaStrategy with
      | alwaysFromPrimary => exact (container.follow_primary exchanged value shard).symm
      | roundRobin => exact container.roundRobinReadFromReplica_eq exchanged value shard
      | allNodes => exact container.roundRobinReadFromAllNodes_eq exchanged value shard
      | azAffinity az =>
        exact container.getConnectionByAzAffinityStrategy_eq exchanged value shard az false
      | azAffinityReplicasAndPrimary az =>
        exact container.getConnectionByAzAffinityStrategy_eq exchanged value shard az true
      | azAffinityAllNodes az =>
        exact container.roundRobinReadFromAllNodesWithAzAwareness_eq exchanged value shard az
    | replicaRequired =>
      cases container.readFromReplicaStrategy with
      | alwaysFromPrimary | roundRobin | allNodes =>
        exact container.roundRobinReadFromReplica_eq exchanged value shard
      | azAffinity az | azAffinityAllNodes az =>
        exact container.getConnectionByAzAffinityStrategy_eq exchanged value shard az false
      | azAffinityReplicasAndPrimary az =>
        exact container.getConnectionByAzAffinityStrategy_eq exchanged value shard az true

end Tiers

/-! ## Eligible connections -/

section Eligible

variable (container : ConnectionsContainer Connection) (shard : ShardAddrs) {address : Address}
  {slotAddr : SlotAddr} {exchanged : Bool} {value : SlotMapValue}

theorem connectionInAz_eq (zone : String) (address : Address) :
    container.connectionInAz zone address =
      if container.azForAddress address = some zone then container.connectionForAddress address
      else none := by
  unfold connectionInAz connectionDetailsForAddress connectionForAddress
  cases container.connectionMap.lookup address with
  | none => simp
  | some node => rfl

theorem preferred_of_allowed {strategy : ReadFromReplicaStrategy} {shard : ShardAddrs}
    (hallowed : address ∈ allowedNodes strategy slotAddr shard) :
    ∃ preference ∈ preferences strategy slotAddr, preference.zone = none ∧
      address ∈ preference.group.nodes shard := by
  cases slotAddr <;> cases strategy <;>
    simp [allowedNodes, preferences, NodeGroup.nodes, or_and_right, exists_or,
      or_comm] at hallowed ⊢ <;>
    assumption

theorem primary_mem_allowedNodes (strategy : ReadFromReplicaStrategy) (slotAddr : SlotAddr) :
    shard.primary ∈ allowedNodes strategy slotAddr shard := by
  unfold allowedNodes
  split <;> exact List.mem_cons_self

theorem available_of_no_replicas (hreplicas : shard.replicas = []) (preference : ReadPreference) :
    container.available shard preference = [] ∨
      container.available shard preference =
        (container.connectionForAddress shard.primary).toList := by
  obtain ⟨group, zone⟩ := preference
  have hprimary : container.available shard ⟨.primary, zone⟩ = [] ∨
      container.available shard ⟨.primary, zone⟩ =
        (container.connectionForAddress shard.primary).toList := by
    rw [available_primary]
    cases zone with
    | none => exact .inr rfl
    | some zone =>
      rw [reach, connectionInAz_eq]
      split_ifs
      · exact .inr rfl
      · exact .inl rfl
  cases group with
  | primary => exact hprimary
  | replicas => exact .inl (by rw [available, NodeGroup.nodes, hreplicas, List.filterMap_nil])
  | allNodes =>
    rw [available, NodeGroup.nodes, hreplicas]
    exact hprimary

theorem eligible_tiers (slotAddr : SlotAddr) :
    eligible (container.tiers shard slotAddr) =
      firstNonempty ((preferences container.readFromReplicaStrategy slotAddr).map
        (container.available shard)) := by
  have hcandidates : Tier.candidates ∘ container.tier shard = container.available shard :=
    funext (container.candidates_tier shard)
  unfold tiers
  split_ifs with hreplicas
  · have hsingle : eligible [container.tier shard ⟨.primary, none⟩] =
        (container.connectionForAddress shard.primary).toList :=
      firstNonempty_eq_of_forall (by rintro _ (_ | ⟨_, ⟨⟩⟩); exact .inr rfl) List.mem_cons_self
    rw [hsingle]
    refine (firstNonempty_eq_of_forall ?_ ?_).symm
    · rw [List.forall_mem_map]
      exact fun preference _ => container.available_of_no_replicas shard hreplicas preference
    · obtain ⟨⟨group, zone⟩, hmem, rfl, hnode⟩ := preferred_of_allowed
        (primary_mem_allowedNodes shard container.readFromReplicaStrategy slotAddr)
      refine List.mem_map.mpr ⟨_, hmem, ?_⟩
      cases group with
      | primary => exact container.available_primary shard none
      | replicas =>
        rw [NodeGroup.nodes, hreplicas] at hnode
        contradiction
      | allNodes =>
        rw [available, NodeGroup.nodes, hreplicas]
        exact container.available_primary shard none
  · rw [eligible, List.map_map, hcandidates]

theorem connectionForAddress_eq_none (hnone : eligible (container.tiers shard slotAddr) = [])
    (hallowed : address ∈ allowedNodes container.readFromReplicaStrategy slotAddr shard) :
    container.connectionForAddress address = none := by
  rw [eligible_tiers, firstNonempty_eq_nil_iff, List.forall_mem_map] at hnone
  obtain ⟨⟨group, zone⟩, hmem, rfl, hnode⟩ := preferred_of_allowed hallowed
  exact List.filterMap_eq_nil_iff.mp (hnone _ hmem) address hnode

theorem follow_of_eligible_eq_nil {tiers : List (Tier (ConnectionAndAddress Connection))}
    (hnone : eligible tiers = []) : container.follow exchanged value tiers = (none, container) := by
  rw [follow, choose_eq_of_eligible_eq_nil hnone, compareExchangeWeak_loadIndex]

theorem connectionForRoute_eq {route : Route} {shard : ShardAddrs}
    (hvalue : container.slotMapValue route = some (value, shard)) :
    container.connectionForRoute exchanged route =
      container.follow exchanged value (container.tiers shard route.slotAddr) := by
  have hmaster : container.slotMapValue ⟨route.slot, .master⟩ = some (value, shard) := hvalue
  unfold connectionForRoute
  rw [container.lookupRoute_eq exchanged hvalue]
  cases hnone : eligible (container.tiers shard route.slotAddr) with
  | nil =>
    have hprimary := container.connectionForAddress_eq_none shard hnone
      (primary_mem_allowedNodes shard _ _)
    have hlookup : container.lookupRoute exchanged ⟨route.slot, .master⟩ = (none, container) := by
      rw [container.lookupRoute_eq exchanged hmaster, tiers, preferences, List.map_singleton,
        ite_self, follow_primary, hprimary]
    rw [container.follow_of_eligible_eq_nil hnone]
    simp [hlookup]
  | cons first rest =>
    rcases hfollow : container.follow exchanged value (container.tiers shard route.slotAddr) with
      ⟨_ | connection, after⟩
    · have hresult := congrArg Prod.fst hfollow
      rw [follow, choose_fst_eq_none_iff, hnone] at hresult
      exact nomatch hresult
    · rfl

end Eligible

/-! ## Zones first -/

theorem preferences_zoned (strategy : ReadFromReplicaStrategy) (slotAddr : SlotAddr) :
    (preferences strategy slotAddr).Pairwise fun first second =>
      second.zone ≠ none → first.zone = second.zone := by
  cases slotAddr <;> cases strategy <;> simp [preferences]

theorem azForAddress_of_available {container : ConnectionsContainer Connection} {shard : ShardAddrs}
    {preference : ReadPreference} {zone : String} (hzone : preference.zone = some zone)
    {connection : ConnectionAndAddress Connection}
    (havailable : connection ∈ container.available shard preference) :
    container.azForAddress connection.1 = some zone := by
  obtain ⟨address, -, hreach⟩ := List.mem_filterMap.mp havailable
  rw [hzone, reach, connectionInAz_eq] at hreach
  split_ifs at hreach with haz
  obtain ⟨node, -, rfl⟩ := Option.map_eq_some_iff.mp hreach
  exact haz

/-! ## Lookups in a row -/

structure SharesNodes (container other : ConnectionsContainer Connection) : Prop where
  connectionMap : other.connectionMap = container.connectionMap
  strategy : other.readFromReplicaStrategy = container.readFromReplicaStrategy
  slots : other.slotMap.slots = container.slotMap.slots
  shards : other.slotMap.shards = container.slotMap.shards

section Consecutive

variable {container other : ConnectionsContainer Connection} {route : Route}
  {value : SlotMapValue} {shard : ShardAddrs}

theorem SharesNodes.refl (container : ConnectionsContainer Connection) :
    container.SharesNodes container := ⟨rfl, rfl, rfl, rfl⟩

theorem SharesNodes.slotMapValue (hshares : container.SharesNodes other) :
    other.slotMapValue route = container.slotMapValue route := by
  unfold ConnectionsContainer.slotMapValue SlotMap.slotValueForRoute
  rw [hshares.slots, hshares.shards]

theorem SharesNodes.tiers (hshares : container.SharesNodes other) (slotAddr : SlotAddr) :
    other.tiers shard slotAddr = container.tiers shard slotAddr := by
  have hreach : other.reach = container.reach := by
    have hconnection : other.connectionForAddress = container.connectionForAddress := by
      funext address
      rw [connectionForAddress, connectionForAddress, hshares.connectionMap]
    have haz : other.azForAddress = container.azForAddress := by
      funext address
      rw [azForAddress, azForAddress, hshares.connectionMap]
    funext zone address
    cases zone with
    | none => exact congrFun hconnection address
    | some zone => rw [reach, reach, connectionInAz_eq, connectionInAz_eq, haz, hconnection]
  have htier : other.tier shard = container.tier shard := by
    funext preference
    simp [tier, hreach]
  simp [ConnectionsContainer.tiers, htier, hshares.strategy]

theorem SharesNodes.compareExchangeWeak (hshares : container.SharesNodes other) (exchanged : Bool)
    (current new : Nat) :
    container.SharesNodes (other.compareExchangeWeak exchanged value current new) := by
  unfold ConnectionsContainer.compareExchangeWeak
  split_ifs
  · exact ⟨hshares.connectionMap, hshares.strategy, hshares.slots, hshares.shards⟩
  · exact hshares

section

variable (hvalue : container.slotMapValue route = some (value, shard))
include hvalue

theorem lastUsedNodeIndex_lt :
    value.lastUsedNodeIndex < container.slotMap.nodeIndexes.length := by
  obtain ⟨found, hfound, hshard⟩ := Option.bind_eq_some_iff.mp hvalue
  obtain ⟨_, -, hpair⟩ := Option.bind_eq_some_iff.mp hshard
  obtain ⟨rfl, -⟩ := Prod.mk.inj (Option.some.inj hpair)
  unfold SlotMap.slotValueForRoute at hfound
  split at hfound
  · exact nomatch hfound
  · next rangeEnd value hbound =>
      split_ifs at hfound
      cases hfound
      exact container.counted _ (OrderedMap.lowerBound_eq_some_iff.mp hbound).1

theorem loadIndex_compareExchangeWeak (new : Nat) :
    (container.compareExchangeWeak true value (container.loadIndex value) new).loadIndex value =
      new := by
  have hlt := lastUsedNodeIndex_lt hvalue
  simp [compareExchangeWeak, loadIndex, List.getD_eq_getElem?_getD, hlt]

theorem connectionForRoute_follows :
    Follows (container.tiers shard route.slotAddr) (fun state => state.loadIndex value)
      container.SharesNodes fun state => state.connectionForRoute true route := by
  have hfollow : ∀ state, container.SharesNodes state → state.connectionForRoute true route =
      state.follow true value (container.tiers shard route.slotAddr) := by
    intro state hshares
    rw [state.connectionForRoute_eq (hshares.slotMapValue.trans hvalue), hshares.tiers]
  refine ⟨fun state hshares => ?_, fun state hshares => ?_, fun state hshares => ?_⟩
  · rw [hfollow state hshares, follow]
  · rw [hfollow state hshares, follow,
      loadIndex_compareExchangeWeak (hshares.slotMapValue.trans hvalue)]
  · rw [hfollow state hshares]
    exact hshares.compareExchangeWeak true _ _

end

end Consecutive

/-! ## Routes -/

section Routes

variable (container : ConnectionsContainer Connection) (route : Route)

structure RoutesReads (exchanged : Bool) : Prop where
  master : route.slotAddr = .master →
    (container.connectionForRoute exchanged route).1 =
      (container.slotMap.primaryOf route.slot).bind container.connectionForAddress
  answers : ∀ address ∈ container.allowedFor route,
    (container.connectionForAddress address).isSome →
      (container.connectionForRoute exchanged route).1.isSome
  ordered : (container.connectionForRoute exchanged route).1 = none ∧
      container.eligibleFor route = [] ∨
    ∃ connection ∈ container.eligibleFor route,
      (container.connectionForRoute exchanged route).1 = some connection
  inZone : ∀ value shard, container.slotMapValue route = some (value, shard) →
    ∀ preference ∈ preferences container.readFromReplicaStrategy route.slotAddr, ∀ zone,
      preference.zone = some zone → container.available shard preference ≠ [] →
        ∃ connection, (container.connectionForRoute exchanged route).1 = some connection ∧
          container.azForAddress connection.1 = some zone
  fair : exchanged = true →
    (results (fun state => state.connectionForRoute true route)
      (container.eligibleFor route).length container).Perm ((container.eligibleFor route).map some)

theorem primaryOf_eq :
    container.slotMap.primaryOf route.slot =
      (container.slotMapValue route).map fun found => found.2.primary := by
  unfold SlotMap.primaryOf SlotMap.ownerOf RangeMap.ownerAt? slotMapValue
  rw [SlotMap.slotValueForRoute_eq]
  cases RangeMap.containing? SlotMapValue.start container.slotMap.slots route.slot with
  | none => rfl
  | some entry =>
    simp only [Option.map_some, Option.bind_some, Option.bind_eq_bind]
    cases container.slotMap.shards[entry.2.addrs]? <;> rfl

theorem connectionForRoute_eq_none (exchanged : Bool)
    (hvalue : container.slotMapValue route = none) :
    container.connectionForRoute exchanged route = (none, container) := by
  have hmaster : container.slotMapValue ⟨route.slot, .master⟩ = none := hvalue
  simp [connectionForRoute, lookupRoute, hvalue, hmaster]

section Found

variable {container route} {exchanged : Bool} {value : SlotMapValue} {shard : ShardAddrs}
  (hvalue : container.slotMapValue route = some (value, shard))

include hvalue

theorem eligibleFor_eq :
    container.eligibleFor route = eligible (container.tiers shard route.slotAddr) := by
  simp only [eligibleFor, hvalue]
  exact (container.eligible_tiers shard route.slotAddr).symm

theorem connectionForRoute_fst :
    (container.connectionForRoute exchanged route).1 =
      (choose (container.tiers shard route.slotAddr) (container.loadIndex value)).1 := by
  rw [container.connectionForRoute_eq hvalue, follow]

variable (exchanged) in
theorem connectionForRoute_ordered :
    (container.connectionForRoute exchanged route).1 = none ∧ container.eligibleFor route = [] ∨
      ∃ connection ∈ container.eligibleFor route,
        (container.connectionForRoute exchanged route).1 = some connection := by
  rw [connectionForRoute_fst hvalue, eligibleFor_eq hvalue]
  cases hchoose : (choose (container.tiers shard route.slotAddr) (container.loadIndex value)).1 with
  | none => exact .inl ⟨rfl, choose_fst_eq_none_iff.mp hchoose⟩
  | some connection => exact .inr ⟨connection, mem_eligible_of_choose hchoose, rfl⟩

theorem connectionForRoute_master (hmaster : route.slotAddr = .master) :
    (container.connectionForRoute exchanged route).1 =
      (container.slotMap.primaryOf route.slot).bind container.connectionForAddress := by
  have htiers : container.tiers shard route.slotAddr = [container.tier shard ⟨.primary, none⟩] := by
    rw [hmaster, tiers, preferences, List.map_singleton, ite_self]
  rw [container.connectionForRoute_eq hvalue, htiers, follow_primary, primaryOf_eq, hvalue]
  rfl

theorem connectionForRoute_isSome {address : Address}
    (hallowed : address ∈ container.allowedFor route)
    (hsome : (container.connectionForAddress address).isSome) :
    (container.connectionForRoute exchanged route).1.isSome := by
  rw [connectionForRoute_fst hvalue, Option.isSome_iff_ne_none]
  intro hnone
  simp only [allowedFor, hvalue] at hallowed
  rw [container.connectionForAddress_eq_none shard (choose_fst_eq_none_iff.mp hnone) hallowed]
    at hsome
  exact nomatch hsome

theorem connectionForRoute_inZone {preference : ReadPreference}
    (hmem : preference ∈ preferences container.readFromReplicaStrategy route.slotAddr)
    {zone : String} (hzone : preference.zone = some zone)
    (hsome : container.available shard preference ≠ []) :
    ∃ connection, (container.connectionForRoute exchanged route).1 = some connection ∧
      container.azForAddress connection.1 = some zone := by
  have hordered := connectionForRoute_ordered exchanged hvalue
  simp only [eligibleFor, hvalue] at hordered
  rcases hordered with ⟨-, hnone⟩ | ⟨connection, hconnection, hlookup⟩
  · rw [firstNonempty_eq_nil_iff, List.forall_mem_map] at hnone
    exact absurd (hnone preference hmem) hsome
  · obtain ⟨other, -, hother, havailable⟩ :=
      label_of_mem_firstNonempty (preferences_zoned _ _) hmem hzone hsome hconnection
    exact ⟨connection, hlookup, azForAddress_of_available hother havailable⟩

end Found

/-- For every container, route and outcome of the exchange. -/
theorem connectionForRoute_routesReads (exchanged : Bool) :
    container.RoutesReads route exchanged := by
  cases hvalue : container.slotMapValue route with
  | none =>
    have hnone := container.connectionForRoute_eq_none route exchanged hvalue
    have heligible : container.eligibleFor route = [] := by simp [eligibleFor, hvalue]
    have hallowed : container.allowedFor route = [] := by simp [allowedFor, hvalue]
    refine ⟨fun _ => ?_, ?_, .inl ⟨by rw [hnone], heligible⟩, fun _ _ hsome => ?_, fun _ => ?_⟩
    · rw [primaryOf_eq, hvalue, hnone]
      rfl
    · simp [hallowed]
    · exact nomatch hvalue.symm.trans hsome
    · rw [heligible]
      exact .nil
  | some found =>
    obtain ⟨value, shard⟩ := found
    refine ⟨connectionForRoute_master hvalue, fun address => connectionForRoute_isSome hvalue,
      connectionForRoute_ordered exchanged hvalue,
      fun _ _ hfound preference hmem zone hzone hsome => ?_,
      fun _ => ?_⟩
    · exact connectionForRoute_inZone hfound hmem hzone hsome
    · rw [eligibleFor_eq hvalue]
      exact (connectionForRoute_follows hvalue).results_perm (.refl container)

end Routes

def threeNodes : ConnectionsContainer Unit where
  connectionMap := (∅ : AList _).insert "a:1" ⟨⟨(), some "x"⟩, none⟩
    |>.insert "b:1" ⟨⟨(), some "y"⟩, none⟩
  slotMap := .new [⟨0, 16383, "a:1", ["b:1", "c:1"]⟩] ∅ .allNodes
  readFromReplicaStrategy := .allNodes
  counted := by decide

example : (results (fun state => state.connectionForRoute true ⟨7, .replicaOptional⟩) 4
    threeNodes).map (Option.map Prod.fst) = [some "b:1", some "a:1", some "b:1", some "a:1"] := by
  decide

end ConnectionsContainer

end ValkeyGlide.Cluster
