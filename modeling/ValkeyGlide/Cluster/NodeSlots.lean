import ValkeyGlide.Cluster.SlotMapBuild
import ValkeyGlide.Cluster.TopologyParse

/-!
# The slots of a node

`get_slots_of_node` lists the stored ranges of a node, and a lookup searches by the end of
a range (`cluster_slotmap.rs`).  The end of a listed range is one past the last slot, in
sixteen bits.
-/

namespace ValkeyGlide.Cluster.SlotMap

open Foundation Protocol

/-- `get_slots_of_node` in machine arithmetic; `none` is a panic. -/
def slotsOfNode (overflow : Overflow) (map : SlotMap) (nodeAddress : Address) :
    Option (List Nat) :=
  map.slots.entries.foldr (fun (rangeEnd, value) rest =>
    match map.shards[value.addrs]? with
    | none => rest
    | some shard =>
      if shard.primary = nodeAddress ∨ nodeAddress ∈ shard.replicas then do
        let stop ← u16.add overflow rangeEnd 1
        return List.range' value.start (stop.toNat - value.start) ++ (← rest)
      else rest) (some [])

/-- The operations that change a slot map or one of its shards. -/
inductive Update where
  | populateIps (resolvedIps : List (Address × IpAddr))
  | carryOverIpsFrom (old : SlotMap)
  | updateSlotRange (slot : Nat) (shard : ShardId)
  | addNewPrimary (slot : Nat) (node : Address) (ipAddr : Option IpAddr)
  | attemptShardRoleUpdate (id : ShardId) (newPrimary : Address)
  | removeReplica (id : ShardId) (replica : Address)

def update (map : SlotMap) : Update → SlotMap
  | .populateIps resolvedIps => map.populateIps resolvedIps
  | .carryOverIpsFrom old => map.carryOverIpsFrom old
  | .updateSlotRange slot shard => (map.updateSlotRange slot shard).2
  | .addNewPrimary slot node ipAddr => (map.addNewPrimary slot node ipAddr).2
  | .attemptShardRoleUpdate id newPrimary =>
    match map.shards[id]? with
    | none => map
    | some shard => map.setShard id (shard.attemptShardRoleUpdate newPrimary).2
  | .removeReplica id replica =>
    match map.shards[id]? with
    | none => map
    | some shard =>
      match shard.removeReplica replica with
      | .ok kept => map.setShard id kept
      | .error _ => map

def Update.Below (bound : Nat) : Update → Prop
  | .updateSlotRange slot _ | .addNewPrimary slot _ _ => slot < bound
  | _ => True

/-- Without duplicates, the slots whose lookup yields a shard of the node. -/
def SlotsAgree (overflow : Overflow) (map : SlotMap) (address : Address) : Prop :=
  ∃ slots, map.slotsOfNode overflow address = some slots ∧ slots.Nodup ∧
    ∀ route : Route, route.slot ∈ slots ↔
      ∃ value, map.slotValueForRoute route = some value ∧ map.HasNode value.addrs address

structure Bounded (bound : Nat) (map : SlotMap) : Prop where
  ranges : RangeMap.Valid SlotMapValue.start map.slots
  below : ∀ entry ∈ map.slots, entry.1 < bound

variable {map : SlotMap} {bound : Nat}

theorem Bounded.updateSlotRange (hbounded : Bounded bound map) (hbound : bound ≤ 2 ^ 16 - 1)
    {slot : Nat} (hslot : slot < bound) (shard : ShardId) :
    Bounded bound (map.updateSlotRange slot shard).2 := by
  obtain ⟨map', hupdate, hupdates⟩ :=
    updateSlotRange_spec hbounded.ranges (hslot.trans_le hbound) shard
  rw [hupdate]
  exact ⟨hupdates.ranges, hupdates.bounded hbounded.ranges hslot hbounded.below⟩

theorem slots_foldl {α : Type} (change : SlotMap → α → SlotMap)
    (hchange : ∀ map item, (change map item).slots = map.slots) (items : List α) :
    (items.foldl change map).slots = map.slots := by
  induction items generalizing map with
  | nil => rfl
  | cons item rest ih => rw [List.foldl_cons, ih, hchange]

theorem Bounded.update (hbounded : Bounded bound map) (hbound : bound ≤ 2 ^ 16 - 1)
    {change : Update} (hbelow : change.Below bound) : Bounded bound (map.update change) := by
  have hkept : ∀ {next : SlotMap}, next.slots = map.slots → Bounded bound next := fun hslots =>
    ⟨hslots ▸ hbounded.ranges, hslots ▸ hbounded.below⟩
  cases change with
  | populateIps | carryOverIpsFrom =>
    refine hkept (slots_foldl _ (fun map item => ?_) _)
    grind
  | updateSlotRange slot shard => exact hbounded.updateSlotRange hbound hbelow shard
  | addNewPrimary slot node ipAddr =>
    have hnode : Bounded bound { map with
      shards := map.shards ++ [.newWithPrimary node]
      nodesMap := map.nodesMap.insert node (ipAddr, map.shards.length) } := hkept rfl
    exact hnode.updateSlotRange hbound hbelow _
  | attemptShardRoleUpdate | removeReplica =>
    refine hkept ?_
    simp only [SlotMap.update]
    grind [setShard]

theorem slotsOfNode_eq (hbelow : ∀ entry ∈ map.slots, entry.1 < 2 ^ 16 - 1) (overflow : Overflow)
    (address : Address) : map.slotsOfNode overflow address = some (map.getSlotsOfNode address) := by
  unfold slotsOfNode getSlotsOfNode
  have hentries : ∀ entry ∈ map.slots.entries, entry.1 < 2 ^ 16 - 1 := hbelow
  generalize map.slots.entries = entries at hentries ⊢
  induction entries with
  | nil => rfl
  | cons entry rest ih =>
    obtain ⟨hentry, hrest⟩ := List.forall_mem_cons.mp hentries
    have hstop : u16.add overflow entry.1 1 = some (entry.1 + 1 : Int) :=
      MachineInt.result_of_contains ⟨by simp [u16]; omega, by simp [u16]; omega⟩
    have hmod : (entry.1 + 1) % 2 ^ 16 = entry.1 + 1 := Nat.mod_eq_of_lt (by omega)
    rw [List.foldr_cons, ih hrest, List.flatMap_cons]
    cases hshard : map.shards[entry.2.addrs]? with
    | none => simp [hshard]
    | some shard =>
      by_cases hnode : shard.primary = address ∨ address ∈ shard.replicas
      · simp only [hshard, if_pos hnode, hstop, hmod]
        simp
      · simp [hshard, hnode]

theorem Bounded.slotsAgree (hbounded : Bounded (2 ^ 16 - 1) map) (overflow : Overflow)
    (address : Address) : SlotsAgree overflow map address := by
  have hranges := hbounded.ranges
  have hmem : ∀ entry ∈ map.slots, ∀ point, (point ∈ match map.shards[entry.2.addrs]? with
      | none => []
      | some shard =>
        if shard.primary = address ∨ address ∈ shard.replicas then
          List.range' entry.2.start ((entry.1 + 1) % 2 ^ 16 - entry.2.start)
        else []) ↔
      RangeMap.Covers SlotMapValue.start entry point ∧ map.HasNode entry.2.addrs address := by
    intro entry hentry point
    have hstart := hranges.nonempty entry hentry
    have hstop : (entry.1 + 1) % 2 ^ 16 = entry.1 + 1 :=
      Nat.mod_eq_of_lt (by have := hbounded.below entry hentry; omega)
    rw [hstop]
    unfold RangeMap.Covers HasNode
    grind
  refine ⟨_, slotsOfNode_eq hbounded.below overflow address, ?_, fun route => ?_⟩
  · refine List.nodup_flatMap.mpr ⟨fun entry _ => ?_, map.slots.sorted.imp_of_mem ?_⟩
    · grind [List.nodup_range']
    · intro first second hfirst hsecond hlt point hin hin'
      rw [hranges.disjoint first hfirst second hsecond point ((hmem first hfirst point).mp hin).1
        ((hmem second hsecond point).mp hin').1] at hlt
      exact lt_irrefl _ hlt
  · simp only [getSlotsOfNode, List.mem_flatMap, slotValueForRoute_eq, Option.map_eq_some_iff,
      RangeMap.containing?_eq_some_iff hranges]
    constructor
    · rintro ⟨entry, hentry, hin⟩
      obtain ⟨hcovers, hnode⟩ := (hmem entry hentry _).mp hin
      exact ⟨entry.2, ⟨entry, ⟨hentry, hcovers⟩, rfl⟩, hnode⟩
    · rintro ⟨_, ⟨entry, ⟨hentry, hcovers⟩, rfl⟩, hnode⟩
      exact ⟨entry, hentry, (hmem entry hentry _).mpr ⟨hcovers, hnode⟩⟩

theorem new_bounded {slots : List Slot} (hranges : DisjointRanges slots) (ipMappings : IpMappings)
    (readFromReplica : ReadFromReplicaStrategy) :
    Bounded slotCount (new slots ipMappings readFromReplica) := by
  have hbuilt := new_builtFrom hranges.ends_nodup ipMappings readFromReplica
  refine ⟨hbuilt.valid hranges, fun entry hentry => ?_⟩
  obtain ⟨slot, hslot, hholds⟩ := hbuilt.ranges entry hentry
  rw [hholds.rangeEnd]
  exact (hranges.ranges slot hslot).2

/--
From disjoint ranges, and with any updates of slots but the last one of sixteen bits, the
slots listed for a node are those whose lookup yields a shard of the node.
-/
theorem slots_of_node_agree {slots : List Slot} (hranges : DisjointRanges slots)
    (ipMappings : IpMappings) (readFromReplica : ReadFromReplicaStrategy) {updates : List Update}
    (hbelow : ∀ change ∈ updates, change.Below (2 ^ 16 - 1)) (overflow : Overflow)
    (address : Address) :
    SlotsAgree overflow (updates.foldl update (new slots ipMappings readFromReplica)) address := by
  have hnew := new_bounded hranges ipMappings readFromReplica
  have hinit : Bounded (2 ^ 16 - 1) (new slots ipMappings readFromReplica) :=
    ⟨hnew.ranges, fun entry hentry => (hnew.below entry hentry).trans (by decide)⟩
  have hreached : Bounded (2 ^ 16 - 1) (updates.foldl update _) :=
    List.foldlRecOn updates update hinit
      fun map hbounded change hchange => hbounded.update le_rfl (hbelow change hchange)
  exact hreached.slotsAgree overflow address

theorem oneRange_disjoint : DisjointRanges [⟨0, 99, "a:1", ["b:1"]⟩] :=
  ⟨by simp [slotCount], List.pairwise_singleton _ _⟩

theorem moved_slot_listed :
    SlotsAgree .panics
      (update (new [⟨0, 99, "a:1", ["b:1"]⟩] ∅ .roundRobin) (.addNewPrimary 50 "c:1" none)) "a:1" :=
  @slots_of_node_agree _ oneRange_disjoint ∅ .roundRobin [.addNewPrimary 50 "c:1" none]
    (by simp [Update.Below]) .panics "a:1"

def lastSlotMoved : SlotMap :=
  update (new [⟨0, 99, "a:1", ["b:1"]⟩] ∅ .roundRobin) (.addNewPrimary 65535 "c:1" none)

theorem last_slot_not_listed : ¬ SlotsAgree .wraps lastSlotMoved "c:1" := by
  rintro ⟨slots, hslots, -, hagree⟩
  cases hslots
  have hlisted := (hagree ⟨65535, .master⟩).mpr ⟨_, rfl, ⟨⟨"c:1", []⟩, rfl, .inl rfl⟩⟩
  contradiction

end ValkeyGlide.Cluster.SlotMap
