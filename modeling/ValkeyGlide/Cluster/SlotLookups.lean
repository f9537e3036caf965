import ValkeyGlide.Cluster.Moved

/-!
# The lookups of a slot

The slot map answers for a slot in three ways: with the shard of the first range
that ends at or after it, with the range a route falls into, and with the address
of a node (`cluster_slotmap.rs`).  On the maps that the operations of the slot
map build, every reference points into the heap, and the three answers agree
unless the slot lies in a gap in front of a range.
-/

namespace ValkeyGlide.Cluster.SlotMap

open Foundation Protocol

/-! ## Addresses resolved later -/

def populateIps (map : SlotMap) (resolvedIps : List (Address × IpAddr)) : SlotMap :=
  resolvedIps.foldl (fun map resolved =>
    match map.nodesMap.lookup resolved.1 with
    | none => map
    | some (_, shard) =>
      { map with nodesMap := map.nodesMap.insert resolved.1 (some resolved.2, shard) }) map

def carryOverIpsFrom (map old : SlotMap) : SlotMap :=
  old.nodesMap.entries.foldl (fun map entry =>
    match entry.2.1 with
    | none => map
    | some ip =>
      match map.nodesMap.lookup entry.1 with
      | some (none, shard) =>
        { map with nodesMap := map.nodesMap.insert entry.1 (some ip, shard) }
      | _ => map) map

/-! ## References -/

/-- Every shard that a range or a node refers to is in the heap. -/
structure Referenced (map : SlotMap) : Prop where
  slot_shards : ∀ entry ∈ map.slots, entry.2.addrs < map.shards.length
  node_shards : ∀ address node, map.nodesMap.lookup address = some node →
    node.2 < map.shards.length

namespace Referenced

variable {map : SlotMap}

theorem insertNode (href : map.Referenced) (address : Address) (ipAddr : Option IpAddr)
    {shard : ShardId} (hshard : shard < map.shards.length) :
    Referenced { map with nodesMap := map.nodesMap.insert address (ipAddr, shard) } where
  slot_shards := href.slot_shards
  node_shards := by
    intro other node hlookup
    by_cases hsame : other = address
    · subst hsame
      simp only [AList.lookup_insert] at hlookup
      rw [← Option.some.inj hlookup]
      exact hshard
    · simp only [AList.lookup_insert_ne hsame] at hlookup
      exact href.node_shards other node hlookup

theorem allocShard (href : map.Referenced) (shard : ShardAddrs) :
    (map.allocShard shard).2.Referenced where
  slot_shards := by
    intro entry hentry
    simp only [SlotMap.allocShard, List.length_append, List.length_singleton]
    exact Nat.lt_succ_of_lt (href.slot_shards entry hentry)
  node_shards := by
    intro address node hlookup
    simp only [SlotMap.allocShard, List.length_append, List.length_singleton]
    exact Nat.lt_succ_of_lt (href.node_shards address node hlookup)

theorem insertSlot (href : map.Referenced) (rangeEnd : Nat) {value : SlotMapValue}
    (hvalue : value.addrs < map.shards.length) :
    Referenced { map with slots := map.slots.insert rangeEnd value } where
  slot_shards := by
    intro entry hentry
    rcases OrderedMap.mem_insert.mp hentry with rfl | ⟨hold, -⟩
    · exact hvalue
    · exact href.slot_shards entry hold
  node_shards := href.node_shards

theorem setCounters (href : map.Referenced) (nodeIndexes : List Nat) :
    Referenced { map with nodeIndexes := nodeIndexes } :=
  ⟨href.slot_shards, href.node_shards⟩

theorem setShard (href : map.Referenced) (id : ShardId) (shard : ShardAddrs) :
    (map.setShard id shard).Referenced where
  slot_shards := by simpa [SlotMap.setShard] using href.slot_shards
  node_shards := by simpa [SlotMap.setShard] using href.node_shards

end Referenced

/-! ## Construction -/

variable {map : SlotMap} {value : SlotMapValue} {shard : ShardAddrs}

private theorem addNode_referenced (href : map.Referenced) (ipMappings : IpMappings)
    (address : Address) {shard : ShardId} (hshard : shard < map.shards.length) :
    (map.addNode ipMappings address shard).Referenced ∧
      (map.addNode ipMappings address shard).shards = map.shards := by
  unfold addNode
  split
  · exact ⟨href, rfl⟩
  · exact ⟨href.insertNode address _ hshard, rfl⟩

private theorem shardOf_referenced (href : map.Referenced) (ipMappings : IpMappings) (slot : Slot) :
    (map.shardOf ipMappings slot).2.Referenced ∧
      (map.shardOf ipMappings slot).1 < (map.shardOf ipMappings slot).2.shards.length := by
  unfold shardOf
  split
  · rename_i hlookup
    exact ⟨href, href.node_shards _ _ hlookup⟩
  · have hlt : map.shards.length < (map.allocShard ⟨slot.master, slot.replicas⟩).2.shards.length := by
      simp [allocShard]
    obtain ⟨hadded, hshards⟩ := addNode_referenced
      (href.allocShard ⟨slot.master, slot.replicas⟩) ipMappings slot.master hlt
    refine ⟨hadded, ?_⟩
    rw [← hshards] at hlt
    exact hlt

private theorem addNodes_referenced (href : map.Referenced) (ipMappings : IpMappings)
    (replicas : List Address) {shard : ShardId} (hshard : shard < map.shards.length) :
    (replicas.foldl (fun map replica => map.addNode ipMappings replica shard) map).Referenced ∧
      (replicas.foldl (fun map replica => map.addNode ipMappings replica shard) map).shards =
        map.shards := by
  induction replicas generalizing map with
  | nil => exact ⟨href, rfl⟩
  | cons replica rest ih =>
    obtain ⟨hadded, hshards⟩ := addNode_referenced href ipMappings replica hshard
    rw [← hshards] at hshard
    obtain ⟨hrest, hrestShards⟩ := ih hadded hshard
    exact ⟨hrest, hrestShards.trans hshards⟩

private theorem addSlot_referenced (href : map.Referenced) (ipMappings : IpMappings) (slot : Slot) :
    (addSlot ipMappings map slot).Referenced := by
  obtain ⟨hnext, hshard⟩ := shardOf_referenced href ipMappings slot
  simp only [addSlot]
  obtain ⟨hadded, hshards⟩ := addNodes_referenced hnext ipMappings
    (((map.shardOf ipMappings slot).2.shards[(map.shardOf ipMappings slot).1]?.map
      ShardAddrs.replicas).getD []) hshard
  rw [← hshards] at hshard
  exact (hadded.setCounters _).insertSlot slot.rangeEnd hshard

theorem new_referenced (slots : List Slot) (ipMappings : IpMappings)
    (readFromReplica : ReadFromReplicaStrategy) :
    (new slots ipMappings readFromReplica).Referenced := by
  have hfold : ∀ map : SlotMap, map.Referenced →
      (slots.foldl (addSlot ipMappings) map).Referenced := by
    induction slots with
    | nil => exact fun map href => href
    | cons slot rest ih => exact fun map href => ih _ (addSlot_referenced href ipMappings slot)
  refine hfold _ ⟨?_, ?_⟩
  · simp [newWithReadStrategy, OrderedMap.empty, OrderedMap.mem_def]
  · simp [newWithReadStrategy]

/-! ## Updates -/

namespace Referenced

variable {map : SlotMap} (href : map.Referenced)

include href

theorem find? {rangeEnd : Nat} (hfind : map.slots.find? rangeEnd = some value) :
    value.addrs < map.shards.length :=
  href.slot_shards _ (OrderedMap.find?_eq_some_iff.mp hfind)

variable {slot : Nat} {shard : ShardId} {entry : Nat × SlotMapValue}

theorem lowerBound (hbound : map.slots.lowerBound slot = some entry) :
    entry.2.addrs < map.shards.length :=
  href.slot_shards _ (OrderedMap.lowerBound_eq_some_iff.mp hbound).1

theorem containing (hentry : RangeMap.containing? SlotMapValue.start map.slots slot = some entry) :
    entry.2.addrs < map.shards.length := by
  unfold RangeMap.containing? at hentry
  split at hentry
  · contradiction
  · rename_i hbound
    split_ifs at hentry
    cases hentry
    exact href.lowerBound hbound

theorem moveEnd (rangeEnd newEnd : Nat) (hvalue : value.addrs < map.shards.length) :
    Referenced { map with slots := (map.slots.erase rangeEnd).insert newEnd value } where
  slot_shards := by
    intro entry hentry
    rcases OrderedMap.mem_insert.mp hentry with rfl | ⟨hold, -⟩
    · exact hvalue
    · exact href.slot_shards entry (OrderedMap.mem_erase.mp hold).1
  node_shards := href.node_shards

theorem modifySlot (rangeEnd : Nat) {change : SlotMapValue → SlotMapValue}
    (hchange : ∀ value, value.addrs < map.shards.length →
      (change value).addrs < map.shards.length) :
    Referenced { map with slots := map.slots.modify rangeEnd change } where
  slot_shards := by
    intro entry hentry
    rcases OrderedMap.mem_modify.mp hentry with ⟨hold, -⟩ | ⟨value, hold, rfl⟩
    · exact href.slot_shards entry hold
    · exact hchange value (href.slot_shards _ hold)
  node_shards := href.node_shards

theorem setStart (rangeEnd start : Nat) : (map.setStart rangeEnd start).Referenced :=
  href.modifySlot rangeEnd fun _ hvalue => hvalue

theorem insertSingleSlot (slot : Nat) (hshard : shard < map.shards.length) :
    (map.insertSingleSlot slot shard).2.Referenced :=
  (href.setCounters (map.nodeIndexes ++ [0])).insertSlot slot hshard

theorem updateEndRange (currEnd newEnd : Nat) :
    (map.updateEndRange currEnd newEnd).2.Referenced := by
  unfold SlotMap.updateEndRange
  split
  · rename_i hfind
    exact href.moveEnd currEnd newEnd (href.find? hfind)
  · exact href

private theorem updateCovered {currEnd : Nat} {curr : SlotMapValue}
    (hcurr : RangeMap.containing? SlotMapValue.start map.slots slot = some (currEnd, curr))
    (hshard : shard < map.shards.length) :
    (map.updateSlotRange slot shard).2.Referenced := by
  simp only [SlotMap.updateSlotRange, hcurr]
  split_ifs with hsame hsingle hend hstart hinner
  · exact href
  · exact href.modifySlot currEnd fun _ _ => hshard
  · rcases map.tryMergeToNextRange_cases slot shard with
      hmerge | ⟨nextEnd, next, -, -, -, -, hmerge⟩ <;> simp [hmerge]
    · have hinserted := href.insertSingleSlot currEnd hshard
      simp only [SlotMap.insertSingleSlot] at hinserted ⊢
      split
      · rename_i hfind
        obtain ⟨hheld, rfl⟩ := Prod.mk.inj hfind
        exact hinserted.insertSlot (currEnd - 1) (href.find? hheld)
      · rename_i hfind
        obtain ⟨-, rfl⟩ := Prod.mk.inj hfind
        exact hinserted
    · exact (href.setStart nextEnd slot).updateEndRange currEnd (currEnd - 1)
  · have hraised := href.setStart currEnd (curr.start + 1)
    rcases (map.setStart currEnd (curr.start + 1)).tryMergeToPrevRange_cases slot shard with
      hmerge | ⟨prevEnd, prev, hprev, -, -, hmerge⟩ <;> simp [hmerge]
    · exact hraised.insertSingleSlot slot hshard
    · exact hraised.moveEnd prevEnd slot (hraised.slot_shards _ hprev)
  · exact ((href.setStart currEnd (slot + 1)).insertSlot (slot - 1)
      (href.containing hcurr)).insertSingleSlot slot hshard
  · exact href

private theorem updateUncovered
    (hcurr : RangeMap.containing? SlotMapValue.start map.slots slot = none)
    (hshard : shard < map.shards.length) : (map.updateSlotRange slot shard).2.Referenced := by
  simp only [SlotMap.updateSlotRange, hcurr]
  rcases map.tryMergeToPrevRange_cases slot shard with
    hprev | ⟨prevEnd, prev, hmem, -, -, hprev⟩ <;> simp [hprev]
  · rcases map.tryMergeToNextRange_cases slot shard with
      hnext | ⟨nextEnd, next, -, -, -, -, hnext⟩ <;> simp [hnext]
    · exact href.insertSingleSlot slot hshard
    · exact href.setStart nextEnd slot
  · exact href.moveEnd prevEnd slot (href.slot_shards _ hmem)

theorem updateSlotRange (slot : Nat) (hshard : shard < map.shards.length) :
    (map.updateSlotRange slot shard).2.Referenced := by
  cases hcurr : RangeMap.containing? SlotMapValue.start map.slots slot with
  | none => exact href.updateUncovered hcurr hshard
  | some entry => exact href.updateCovered hcurr hshard

theorem addNewPrimary (slot : Nat) (node : Address) (ipAddr : Option IpAddr) :
    (map.addNewPrimary slot node ipAddr).2.Referenced := by
  have hlt : map.shards.length < (map.allocShard (.newWithPrimary node)).2.shards.length := by
    simp [SlotMap.allocShard]
  exact ((href.allocShard (.newWithPrimary node)).insertNode node ipAddr hlt).updateSlotRange
    slot hlt

theorem populateIps (resolvedIps : List (Address × IpAddr)) :
    (map.populateIps resolvedIps).Referenced := by
  unfold SlotMap.populateIps
  induction resolvedIps generalizing map with
  | nil => exact href
  | cons resolved rest ih =>
    refine ih ?_
    dsimp only
    split
    · exact href
    · rename_i hlookup
      exact href.insertNode resolved.1 _ (href.node_shards _ _ hlookup)

theorem carryOverIpsFrom (old : SlotMap) : (map.carryOverIpsFrom old).Referenced := by
  unfold SlotMap.carryOverIpsFrom
  generalize old.nodesMap.entries = entries
  induction entries generalizing map with
  | nil => exact href
  | cons entry rest ih =>
    refine ih ?_
    dsimp only
    split
    · exact href
    · split
      · rename_i hlookup
        exact href.insertNode entry.1 _ (href.node_shards _ _ hlookup)
      · exact href

end Referenced

/-! ## Counters -/

def HasNode (map : SlotMap) (id : ShardId) (address : Address) : Prop :=
  ∃ shard, map.shards[id]? = some shard ∧ (address = shard.primary ∨ address ∈ shard.replicas)

/-- A node of the shard, with nothing changed but a counter. -/
def AnswersFrom (map : SlotMap) (id : ShardId) (answer : Option Address × SlotMap) : Prop :=
  ∃ address counters, map.HasNode id address ∧
    answer = (some address, { map with nodeIndexes := counters })

private theorem roundRobinReplica_answersFrom (hshard : map.shards[value.addrs]? = some shard)
    (hreplicas : shard.replicas ≠ []) :
    map.AnswersFrom value.addrs (map.roundRobinReplica value shard) := by
  let count := map.nodeIndexes.getD value.lastUsedNodeIndex 0
  have hlt : count % shard.replicas.length < shard.replicas.length :=
    Nat.mod_lt _ (List.length_pos_of_ne_nil hreplicas)
  refine ⟨shard.replicas[count % shard.replicas.length],
    map.nodeIndexes.set value.lastUsedNodeIndex ((count + 1) % 2 ^ 64),
    ⟨shard, hshard, .inr (List.getElem_mem hlt)⟩, ?_⟩
  rw [← List.getElem?_eq_getElem hlt]
  rfl

private theorem roundRobinAllNodes_answersFrom (hshard : map.shards[value.addrs]? = some shard) :
    map.AnswersFrom value.addrs (map.roundRobinAllNodes value shard) := by
  have hlt := Nat.mod_lt (map.nodeIndexes.getD value.lastUsedNodeIndex 0)
    (Nat.succ_pos shard.replicas.length)
  simp only [roundRobinAllNodes, fetchAddNodeIndex]
  split
  · exact ⟨shard.primary, _, ⟨shard, hshard, .inl rfl⟩, rfl⟩
  · rename_i index hindex
    rw [Nat.succ_eq_add_one, hindex] at hlt
    have hindexLt : index < shard.replicas.length := by omega
    rw [List.getElem?_eq_getElem hindexLt]
    exact ⟨_, _, ⟨shard, hshard, .inr (List.getElem_mem hindexLt)⟩, rfl⟩

theorem getAddressFromSlot_answersFrom (hvalue : value.addrs < map.shards.length)
    (slotAddr : SlotAddr) :
    map.AnswersFrom value.addrs (map.getAddressFromSlot value slotAddr) := by
  obtain ⟨shard, hshard⟩ : ∃ shard, map.shards[value.addrs]? = some shard :=
    ⟨_, List.getElem?_eq_getElem hvalue⟩
  have hprimary : map.AnswersFrom value.addrs (some shard.primary, map) :=
    ⟨shard.primary, map.nodeIndexes, ⟨shard, hshard, .inl rfl⟩, rfl⟩
  have hall := roundRobinAllNodes_answersFrom hshard
  simp only [getAddressFromSlot, hshard]
  by_cases hdirect : slotAddr = .master ∨ shard.replicas = []
  · rw [if_pos hdirect]
    exact hprimary
  · rw [if_neg hdirect]
    have hreplica := roundRobinReplica_answersFrom hshard fun hnone => hdirect (.inr hnone)
    split
    · exact hprimary
    · exact hreplica
    · exact hall
    · exact hreplica
    · exact hall
    · split_ifs
      · exact hreplica
      · exact hall

theorem Referenced.slotAddrForRoute (href : map.Referenced) (route : Route) :
    (map.slotAddrForRoute route).2.Referenced := by
  unfold SlotMap.slotAddrForRoute
  split
  · exact href
  · rename_i value hvalue
    rw [slotValueForRoute_eq] at hvalue
    obtain ⟨entry, hentry, rfl⟩ := Option.map_eq_some_iff.mp hvalue
    obtain ⟨address, counters, -, hanswer⟩ :=
      getAddressFromSlot_answersFrom (href.containing hentry) route.slotAddr
    rw [hanswer]
    exact href.setCounters counters

theorem Referenced.nodeAddressForSlot (href : map.Referenced) (slot : Nat) (slotAddr : SlotAddr) :
    (map.nodeAddressForSlot slot slotAddr).2.Referenced := by
  unfold SlotMap.nodeAddressForSlot
  split
  · exact href
  · rename_i value hbound
    split_ifs
    · obtain ⟨address, counters, -, hanswer⟩ :=
        getAddressFromSlot_answersFrom (href.lowerBound hbound) slotAddr
      rw [hanswer]
      exact href.setCounters counters
    · exact href

/-! ## Maps in use -/

/-- The maps that the operations of a slot map and of its shards lead to. -/
inductive Built : SlotMap → Prop
  | new (slots : List Slot) (ipMappings : IpMappings)
      (readFromReplica : ReadFromReplicaStrategy) : Built (.new slots ipMappings readFromReplica)
  | populateIps {map : SlotMap} (hbuilt : Built map) (resolvedIps : List (Address × IpAddr)) :
      Built (map.populateIps resolvedIps)
  | carryOverIpsFrom {map : SlotMap} (hbuilt : Built map) (old : SlotMap) :
      Built (map.carryOverIpsFrom old)
  | slotAddrForRoute {map : SlotMap} (hbuilt : Built map) (route : Route) :
      Built (map.slotAddrForRoute route).2
  | nodeAddressForSlot {map : SlotMap} (hbuilt : Built map) (slot : Nat) (slotAddr : SlotAddr) :
      Built (map.nodeAddressForSlot slot slotAddr).2
  | updateSlotRange {map : SlotMap} (hbuilt : Built map) (slot : Nat) {shard : ShardId}
      (hshard : shard < map.shards.length) : Built (map.updateSlotRange slot shard).2
  | addNewPrimary {map : SlotMap} (hbuilt : Built map) (slot : Nat) (node : Address)
      (ipAddr : Option IpAddr) : Built (map.addNewPrimary slot node ipAddr).2
  | attemptShardRoleUpdate {map : SlotMap} (hbuilt : Built map) {id : ShardId}
      {shard : ShardAddrs} (hshard : map.shards[id]? = some shard) (newPrimary : Address) :
      Built (map.setShard id (shard.attemptShardRoleUpdate newPrimary).2)
  | removeReplica {map : SlotMap} (hbuilt : Built map) {id : ShardId} {shard kept : ShardAddrs}
      (hshard : map.shards[id]? = some shard) {replica : Address}
      (hremove : shard.removeReplica replica = .ok kept) : Built (map.setShard id kept)

theorem Built.referenced (hbuilt : Built map) : map.Referenced := by
  induction hbuilt with
  | new slots ipMappings readFromReplica => exact new_referenced slots ipMappings readFromReplica
  | populateIps _ resolvedIps href => exact href.populateIps resolvedIps
  | carryOverIpsFrom _ old href => exact href.carryOverIpsFrom old
  | slotAddrForRoute _ route href => exact href.slotAddrForRoute route
  | nodeAddressForSlot _ slot slotAddr href => exact href.nodeAddressForSlot slot slotAddr
  | updateSlotRange _ slot hshard href => exact href.updateSlotRange slot hshard
  | addNewPrimary _ slot node ipAddr href => exact href.addNewPrimary slot node ipAddr
  | attemptShardRoleUpdate _ _ _ href => exact href.setShard _ _
  | removeReplica _ _ _ href => exact href.setShard _ _

theorem Built.updateUponMovedError (hbuilt : Built map) (slot : Nat) (newPrimary : Address) :
    Built (map.updateUponMovedError slot newPrimary).2 := by
  have hroles : Built (map.updateRolesForSlot slot newPrimary).2 := by
    unfold updateRolesForSlot
    split
    · exact hbuilt
    · split
      · exact hbuilt
      · rename_i hshard
        exact hbuilt.attemptShardRoleUpdate hshard newPrimary
  have hinstall : ∀ base : SlotMap, Built base →
      Built (base.installFromNodes slot newPrimary).2 := by
    intro base hbase
    unfold installFromNodes
    split
    · exact hbase.addNewPrimary slot newPrimary none
    · rename_i id hlookup
      split
      · exact hbase.addNewPrimary slot newPrimary none
      · rename_i shard hshard
        split_ifs
        · exact hbase.updateSlotRange slot (hbase.referenced.node_shards _ _ hlookup)
        · split
          · exact hbase
          · rename_i hremove
            exact (hbase.removeReplica hshard hremove).addNewPrimary slot newPrimary _
  unfold SlotMap.updateUponMovedError
  split <;> rename_i hrole <;> rw [hrole] at hroles
  · exact hroles
  · exact hroles
  · exact hinstall _ hroles

/-! ## Agreement -/

/-- The three lookups identify one shard, or none when no range covers the slot. -/
structure LookupsAgree (map : SlotMap) (slot : Nat) : Prop where
  route : ∀ slotAddr, map.shardForRoute ⟨slot, slotAddr⟩ = map.shardAddrsForSlot slot
  node_found : ∀ slotAddr id, map.shardAddrsForSlot slot = some id →
    map.AnswersFrom id (map.nodeAddressForSlot slot slotAddr)
  node_missing : ∀ slotAddr, map.shardAddrsForSlot slot = none →
    map.nodeAddressForSlot slot slotAddr = (none, map)
  uncovered : (∀ entry ∈ map.slots, ¬ RangeMap.Covers SlotMapValue.start entry slot) →
    map.shardAddrsForSlot slot = none

/-- The first range that ends at or after the slot starts after it. -/
def BeforeRange (map : SlotMap) (slot : Nat) : Prop :=
  ∃ entry, map.slots.lowerBound slot = some entry ∧ slot < entry.2.start

theorem lookupsAgree_iff {map : SlotMap} (hbuilt : Built map) (slot : Nat) :
    LookupsAgree map slot ↔ ¬ map.BeforeRange slot := by
  constructor
  · -- in a gap the lookup by route finds nothing, the lookup by slot the next range
    rintro hagree ⟨entry, hbound, hstart⟩
    have hroute := hagree.route .master
    simp [shardForRoute, slotValueForRoute, shardAddrsForSlot, hbound, hstart.not_ge] at hroute
  · intro hnot
    cases hbound : map.slots.lowerBound slot with
    | none =>
      have hnone : map.shardAddrsForSlot slot = none := by simp [shardAddrsForSlot, hbound]
      refine ⟨?_, ?_, ?_, fun _ => hnone⟩
      · simp [shardForRoute, slotValueForRoute, hbound, hnone]
      · simp [hnone]
      · simp [nodeAddressForSlot, hbound]
    | some entry =>
      obtain ⟨rangeEnd, value⟩ := entry
      have hstart : value.start ≤ slot := by
        by_contra hlt
        exact hnot ⟨(rangeEnd, value), hbound, not_le.mp hlt⟩
      obtain ⟨hmem, hend, -⟩ := OrderedMap.lowerBound_eq_some_iff.mp hbound
      have hsome : map.shardAddrsForSlot slot = some value.addrs := by
        simp [shardAddrsForSlot, hbound]
      refine ⟨?_, ?_, ?_, ?_⟩
      · have hle : slot ≤ rangeEnd := hend
        simp [shardForRoute, slotValueForRoute, hbound, hsome, hstart, hle]
      · intro slotAddr id hid
        obtain rfl : value.addrs = id := Option.some.inj (hsome.symm.trans hid)
        simp only [nodeAddressForSlot, hbound, if_pos hstart]
        exact getAddressFromSlot_answersFrom (hbuilt.referenced.slot_shards _ hmem) slotAddr
      · simp [hsome]
      · exact fun hall => absurd ⟨hstart, hend⟩ (hall _ hmem)

def oneRangeMap : SlotMap := .new [⟨50, 100, "a:1", ["b:1"]⟩] ∅ .roundRobin

theorem covered_slot_lookups_agree : LookupsAgree oneRangeMap 60 := by
  refine (lookupsAgree_iff (.new _ _ _) 60).mpr ?_
  rintro ⟨entry, hbound, hstart⟩
  obtain rfl : (100, ⟨50, 0, 0⟩) = entry := Option.some.inj hbound
  simp at hstart

theorem gap_slot_lookups_disagree :
    (∀ entry ∈ oneRangeMap.slots, ¬ RangeMap.Covers SlotMapValue.start entry 10) ∧
      oneRangeMap.slotValueForRoute ⟨10, .master⟩ = none ∧
      (oneRangeMap.nodeAddressForSlot 10 .master).1 = none ∧
      oneRangeMap.shardAddrsForSlot 10 = some 0 ∧ ¬ LookupsAgree oneRangeMap 10 := by
  have huncovered : ∀ entry ∈ oneRangeMap.slots,
      ¬ RangeMap.Covers SlotMapValue.start entry 10 := by
    have hentries : oneRangeMap.slots.entries = [(100, ⟨50, 0, 0⟩)] := rfl
    simp [OrderedMap.mem_def, hentries, RangeMap.Covers]
  refine ⟨huncovered, rfl, rfl, rfl, fun hagree => ?_⟩
  have hnone : some 0 = none := hagree.uncovered huncovered
  contradiction

end ValkeyGlide.Cluster.SlotMap
