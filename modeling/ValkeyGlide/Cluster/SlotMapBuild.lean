import Mathlib.Data.List.Induction
import ValkeyGlide.Cluster.SlotLookups

/-!
# The slot map of a topology

`SlotMap.new` takes the parsed ranges one after another and looks the master of a
range up among the nodes it has met.  A node is entered once, with the shard of
the range in which it comes first, so a master that was met as a replica brings
in the shard of another primary.  What the construction does to the nodes is an
assignment of roles: the primary under which each was entered.
-/

namespace ValkeyGlide.Cluster

open Foundation Protocol

/-! ## Roles -/

abbrev Roles := Address → Option Address

def Roles.assign (roles : Roles) (slot : Slot) : Roles :=
  match roles slot.master with
  | some _ => roles
  | none => fun address =>
    (roles address).or
      (if address = slot.master ∨ address ∈ slot.replicas then some slot.master else none)

def rolesAfter (slots : List Slot) : Roles := slots.foldl Roles.assign fun _ => none

namespace Roles

variable {roles : Roles} {slot : Slot} {address primary : Address}

theorem assign_of_known (hmaster : roles slot.master = some primary) :
    roles.assign slot = roles := by
  unfold assign
  rw [hmaster]

theorem assign_of_new (hmaster : roles slot.master = none) (address : Address) :
    roles.assign slot address = (roles address).or
      (if address = slot.master ∨ address ∈ slot.replicas then some slot.master else none) := by
  unfold assign
  rw [hmaster]

theorem assign_of_some (hrole : roles address = some primary) :
    roles.assign slot address = some primary := by
  cases hmaster : roles slot.master with
  | some known => rw [assign_of_known hmaster, hrole]
  | none => rw [assign_of_new hmaster, hrole, Option.some_or]

theorem assign_master_isSome (roles : Roles) (slot : Slot) :
    (roles.assign slot slot.master).isSome := by
  cases hmaster : roles slot.master with
  | some known => rw [assign_of_some hmaster]; rfl
  | none => rw [assign_of_new hmaster, hmaster]; simp

end Roles

theorem rolesAfter_concat (slots : List Slot) (slot : Slot) :
    rolesAfter (slots ++ [slot]) = (rolesAfter slots).assign slot := by
  simp [rolesAfter]

variable {slots : List Slot} {address primary : Address} {slot : Slot}

theorem rolesAfter_append_of_some (hrole : rolesAfter slots address = some primary)
    (rest : List Slot) :
    rolesAfter (slots ++ rest) address = some primary := by
  induction rest using List.reverseRecOn with
  | nil => rwa [List.append_nil]
  | append_singleton rest slot ih =>
    rw [← List.append_assoc, rolesAfter_concat]
    exact Roles.assign_of_some ih

theorem rolesAfter_eq_some_iff :
    rolesAfter slots address = some primary ↔
      ∃ before range after, slots = before ++ range :: after ∧
        rolesAfter before address = none ∧ rolesAfter before range.master = none ∧
        range.master = primary ∧ (address = range.master ∨ address ∈ range.replicas) := by
  constructor
  · intro hrole
    induction slots using List.reverseRecOn with
    | nil => contradiction
    | append_singleton slots slot ih =>
      cases hbefore : rolesAfter slots address with
      | some known =>
        obtain rfl : primary = known :=
          Option.some.inj (hrole.symm.trans (rolesAfter_append_of_some hbefore [slot]))
        obtain ⟨before, range, after, rfl, hnew⟩ := ih hbefore
        exact ⟨before, range, after ++ [slot], by simp, hnew⟩
      | none =>
        rw [rolesAfter_concat] at hrole
        cases hmaster : rolesAfter slots slot.master with
        | some known =>
          rw [Roles.assign_of_known hmaster, hbefore] at hrole
          contradiction
        | none =>
          rw [Roles.assign_of_new hmaster, hbefore, Option.none_or] at hrole
          obtain ⟨hmem, hprimary⟩ := Option.ite_none_right_eq_some.mp hrole
          exact ⟨slots, slot, [], rfl, hbefore, hmaster, Option.some.inj hprimary, hmem⟩
  · rintro ⟨before, range, after, rfl, hnew, hmaster, rfl, hmem⟩
    rw [List.append_cons]
    refine rolesAfter_append_of_some ?_ after
    rw [rolesAfter_concat, Roles.assign_of_new hmaster, hnew, if_pos hmem]
    rfl

theorem rolesAfter_master_isSome (hslot : slot ∈ slots) :
    (rolesAfter slots slot.master).isSome := by
  obtain ⟨before, after, rfl⟩ := List.append_of_mem hslot
  have hassigned := Roles.assign_master_isSome (rolesAfter before) slot
  rw [← rolesAfter_concat] at hassigned
  obtain ⟨primary, hrole⟩ := Option.isSome_iff_exists.mp hassigned
  rw [List.append_cons, rolesAfter_append_of_some hrole]
  rfl

theorem master_ne_of_rolesAfter_none (hrole : rolesAfter slots address = none)
    (hslot : slot ∈ slots) : slot.master ≠ address := by
  rintro rfl
  have hsome := rolesAfter_master_isSome hslot
  rw [hrole] at hsome
  contradiction

theorem rolesAfter_primary (hrole : rolesAfter slots address = some primary) :
    (∃ slot ∈ slots, slot.master = primary) ∧ rolesAfter slots primary = some primary := by
  obtain ⟨before, range, after, rfl, hnew, hmaster, rfl, hmem⟩ := rolesAfter_eq_some_iff.mp hrole
  exact ⟨⟨range, by simp, rfl⟩,
    rolesAfter_eq_some_iff.mpr ⟨before, range, after, rfl, hmaster, hmaster, rfl, .inl rfl⟩⟩

/--
A range that is the first of its master lists as a replica a node that owned no range so far
and is the master of a later one.
-/
def PromotedLater (slots : List Slot) : Prop :=
  ∃ before range between promoted after,
    slots = before ++ range :: (between ++ promoted :: after) ∧
    (∀ slot ∈ before, slot.master ≠ range.master) ∧
    promoted.master ∈ range.replicas ∧
    ∀ slot ∈ before ++ [range], slot.master ≠ promoted.master

theorem rolesAfter_append_ne {before : List Slot} {known : Address}
    (hmasters : ∀ slot ∈ before, slot.master ≠ address)
    (hknown : rolesAfter before address = some known) (rest : List Slot) :
    rolesAfter (before ++ rest) address ≠ some address := by
  obtain ⟨⟨slot, hslot, rfl⟩, -⟩ := rolesAfter_primary hknown
  rw [rolesAfter_append_of_some hknown]
  exact fun heq => hmasters slot hslot (Option.some.inj heq)

theorem promotedLater_iff :
    PromotedLater slots ↔ ∃ slot ∈ slots, rolesAfter slots slot.master ≠ some slot.master := by
  constructor
  · rintro ⟨before, range, between, promoted, after, rfl, hrange, hreplica, hpromoted⟩
    obtain ⟨hbefore, hne⟩ := List.forall_mem_append.mp hpromoted
    have hne : range.master ≠ promoted.master := hne range (by simp)
    cases hmaster : rolesAfter before range.master with
    | some known =>
      -- the range itself is one whose master came as a replica
      exact ⟨range, by simp, rolesAfter_append_ne hrange hmaster _⟩
    | none =>
      refine ⟨promoted, by simp, ?_⟩
      cases hknown : rolesAfter before promoted.master with
      | some known => exact rolesAfter_append_ne hbefore hknown _
      | none =>
        have hrole : rolesAfter (before ++ range :: (between ++ promoted :: after))
            promoted.master = some range.master :=
          rolesAfter_eq_some_iff.mpr
            ⟨before, range, _, rfl, hknown, hmaster, rfl, .inr hreplica⟩
        rw [hrole]
        exact fun heq => hne (Option.some.inj heq)
  · rintro ⟨slot, hslot, hrole⟩
    obtain ⟨primary, hprimary⟩ := Option.isSome_iff_exists.mp (rolesAfter_master_isSome hslot)
    have hne : primary ≠ slot.master := by
      rintro rfl
      exact hrole hprimary
    obtain ⟨before, range, after, rfl, hnew, hmaster, rfl, hmem⟩ :=
      rolesAfter_eq_some_iff.mp hprimary
    have hbefore : ∀ other ∈ before, other.master ≠ slot.master :=
      fun other => master_ne_of_rolesAfter_none hnew
    have hafter : slot ∈ after := by
      rcases List.mem_append.mp hslot with hearly | hlate
      · exact absurd rfl (hbefore slot hearly)
      · rcases List.mem_cons.mp hlate with rfl | hlate
        · exact absurd rfl hne
        · exact hlate
    obtain ⟨between, rest, rfl⟩ := List.append_of_mem hafter
    refine ⟨before, range, between, slot, rest, rfl, ?_, hmem.resolve_left (Ne.symm hne), ?_⟩
    · exact fun other => master_ne_of_rolesAfter_none hmaster
    · exact List.forall_mem_append.mpr ⟨hbefore, by simpa using hne⟩

/-! ## The construction -/

def Slot.Contains (slot : Slot) (point : Nat) : Prop := slot.start ≤ point ∧ point ≤ slot.rangeEnd

namespace SlotMap

def addressesForAllPrimaries (map : SlotMap) : List Address :=
  map.nodesMap.entries.filterMap fun entry => map.shards[entry.2.2]?.map ShardAddrs.primary

def primaryAt (map : SlotMap) (shard : ShardId) : Option Address :=
  map.shards[shard]?.map ShardAddrs.primary

def roleOf (map : SlotMap) (address : Address) : Option Address :=
  (map.nodesMap.lookup address).bind fun node => map.primaryAt node.2

section AddNodes

variable (ipMappings : IpMappings) (shard : ShardId)

def addNodes (map : SlotMap) (addresses : List Address) : SlotMap :=
  addresses.foldl (fun map address => map.addNode ipMappings address shard) map

variable {ipMappings shard}

variable {map : SlotMap}

theorem addNode_of_known (hknown : (map.nodesMap.lookup address).isSome) :
    map.addNode ipMappings address shard = map := by
  obtain ⟨node, hnode⟩ := Option.isSome_iff_exists.mp hknown
  unfold addNode
  rw [hnode]

theorem addNode_of_new (hnew : map.nodesMap.lookup address = none) :
    map.addNode ipMappings address shard =
      { map with nodesMap := map.nodesMap.insert address (ipMappings.lookup address, shard) } := by
  unfold addNode
  rw [hnew]

theorem addNodes_of_known {addresses : List Address}
    (hknown : ∀ address ∈ addresses, (map.nodesMap.lookup address).isSome) :
    map.addNodes ipMappings shard addresses = map := by
  induction addresses with
  | nil => rfl
  | cons address addresses ih =>
    obtain ⟨hfirst, hrest⟩ := List.forall_mem_cons.mp hknown
    unfold addNodes at ih ⊢
    rw [List.foldl_cons, addNode_of_known hfirst, ih hrest]

theorem addNode_lookup (map : SlotMap) (address other : Address) :
    (map.addNode ipMappings address shard).nodesMap.lookup other =
      (map.nodesMap.lookup other).or
        (if other = address then some (ipMappings.lookup other, shard) else none) := by
  cases hlookup : map.nodesMap.lookup address with
  | some node =>
    rw [addNode_of_known (by rw [hlookup]; rfl)]
    by_cases hother : other = address
    · rw [hother, hlookup, Option.some_or]
    · rw [if_neg hother, Option.or_none]
  | none =>
    rw [addNode_of_new hlookup]
    by_cases hother : other = address
    · rw [hother, AList.lookup_insert, hlookup, if_pos rfl, Option.none_or]
    · rw [AList.lookup_insert_ne hother, if_neg hother, Option.or_none]

theorem addNodes_lookup (map : SlotMap) (addresses : List Address) (other : Address) :
    (map.addNodes ipMappings shard addresses).nodesMap.lookup other =
      (map.nodesMap.lookup other).or
        (if other ∈ addresses then some (ipMappings.lookup other, shard) else none) := by
  induction addresses generalizing map with
  | nil => simp [addNodes]
  | cons address addresses ih =>
    unfold addNodes at ih ⊢
    rw [List.foldl_cons, ih, addNode_lookup, Option.or_assoc]
    congr 1
    by_cases hother : other = address <;> simp [hother]

theorem addNodes_frame (map : SlotMap) (addresses : List Address) :
    (map.addNodes ipMappings shard addresses).shards = map.shards ∧
      (map.addNodes ipMappings shard addresses).slots = map.slots := by
  induction addresses generalizing map with
  | nil => exact ⟨rfl, rfl⟩
  | cons address addresses ih =>
    obtain ⟨hshards, hslots⟩ := ih (map.addNode ipMappings address shard)
    have hfirst : (map.addNode ipMappings address shard).shards = map.shards ∧
        (map.addNode ipMappings address shard).slots = map.slots := by
      unfold addNode
      split <;> exact ⟨rfl, rfl⟩
    exact ⟨hshards.trans hfirst.1, hslots.trans hfirst.2⟩

end AddNodes

def insertRange (map : SlotMap) (slot : Slot) (shard : ShardId) : SlotMap :=
  { map with
    nodeIndexes := map.nodeIndexes ++ [0]
    slots := map.slots.insert slot.rangeEnd ⟨slot.start, shard, map.nodeIndexes.length⟩ }

variable {map : SlotMap} {slot : Slot} {ipMappings : IpMappings}

theorem Referenced.insertRange (href : map.Referenced) (slot : Slot) {shard : ShardId}
    (hshard : shard < map.shards.length) :
    (map.insertRange slot shard).Referenced := by
  refine ⟨fun entry hentry => ?_, href.node_shards⟩
  rcases OrderedMap.mem_insert.mp hentry with rfl | ⟨hold, -⟩
  · exact hshard
  · exact href.slot_shards entry hold

theorem addSlot_of_known {node : Option IpAddr × ShardId}
    (hmaster : map.nodesMap.lookup slot.master = some node)
    (hreplicas : ∀ shard ∈ map.shards, ∀ replica ∈ shard.replicas,
      (map.nodesMap.lookup replica).isSome) :
    addSlot ipMappings map slot = map.insertRange slot node.2 := by
  have hshard : map.shardOf ipMappings slot = (node.2, map) := by
    unfold shardOf
    rw [hmaster]
  have hnodes : map.addNodes ipMappings node.2
      ((map.shards[node.2]?.map ShardAddrs.replicas).getD []) = map := by
    refine addNodes_of_known fun replica hreplica => ?_
    cases hfound : map.shards[node.2]? with
    | none => simp [hfound] at hreplica
    | some shard =>
      rw [hfound] at hreplica
      exact hreplicas shard (List.mem_of_getElem? hfound) replica hreplica
  unfold addNodes at hnodes
  unfold addSlot
  rw [hshard]
  simp only [hnodes]
  rfl

def enterShard (ipMappings : IpMappings) (map : SlotMap) (slot : Slot) : SlotMap :=
  (map.allocShard ⟨slot.master, slot.replicas⟩).2.addNodes ipMappings map.shards.length
    (slot.master :: slot.replicas)

theorem addSlot_of_new (hmaster : map.nodesMap.lookup slot.master = none) :
    addSlot ipMappings map slot =
      (enterShard ipMappings map slot).insertRange slot map.shards.length := by
  have hshard : map.shardOf ipMappings slot = (map.shards.length,
      (map.allocShard ⟨slot.master, slot.replicas⟩).2.addNode ipMappings slot.master
        map.shards.length) := by
    unfold shardOf
    rw [hmaster]
    rfl
  have hreplicas : (((map.allocShard ⟨slot.master, slot.replicas⟩).2.addNode ipMappings slot.master
      map.shards.length).shards[map.shards.length]?.map ShardAddrs.replicas).getD [] =
        slot.replicas := by
    have hnew :
        (map.allocShard ⟨slot.master, slot.replicas⟩).2.nodesMap.lookup slot.master = none :=
      hmaster
    rw [addNode_of_new hnew]
    simp [allocShard]
  unfold addSlot
  rw [hshard]
  simp only [hreplicas]
  rfl

/-! ## Nodes -/

structure NodesFrom (done : List Slot) (map : SlotMap) : Prop where
  referenced : map.Referenced
  roles : ∀ address, map.roleOf address = rolesAfter done address
  replicas : ∀ shard ∈ map.shards, ∀ replica ∈ shard.replicas,
    (map.nodesMap.lookup replica).isSome

/-- What one range adds to the map. -/
structure AddsRange (map after : SlotMap) (done : List Slot) (slot : Slot) : Prop where
  nodes : NodesFrom (done ++ [slot]) after
  kept : ∀ shard, shard < map.shards.length → after.primaryAt shard = map.primaryAt shard
  range : ∃ value, after.slots = map.slots.insert slot.rangeEnd value ∧ value.start = slot.start ∧
    after.primaryAt value.addrs = rolesAfter (done ++ [slot]) slot.master

namespace NodesFrom

variable {done : List Slot} {map : SlotMap} {slot : Slot} (ipMappings : IpMappings)
  {node : Option IpAddr × ShardId} {shard : ShardId}

theorem role_of_lookup (hnodes : NodesFrom done map)
    (hlookup : map.nodesMap.lookup address = some node) :
    map.primaryAt node.2 = rolesAfter done address := by
  rw [← hnodes.roles, roleOf, hlookup]
  rfl

theorem lookup_eq_none_iff (hnodes : NodesFrom done map) (address : Address) :
    map.nodesMap.lookup address = none ↔ rolesAfter done address = none := by
  rw [← hnodes.roles, roleOf]
  cases hlookup : map.nodesMap.lookup address with
  | none => simp
  | some node =>
    have hlt := hnodes.referenced.node_shards address node hlookup
    simp [primaryAt, List.getElem?_eq_getElem hlt]

theorem insertRange (hnodes : NodesFrom done map) (slot : Slot)
    (hshard : shard < map.shards.length) : NodesFrom done (map.insertRange slot shard) :=
  ⟨hnodes.referenced.insertRange slot hshard, hnodes.roles, hnodes.replicas⟩

theorem addSlot_known (hnodes : NodesFrom done map)
    (hmaster : map.nodesMap.lookup slot.master = some node) :
    AddsRange map (addSlot ipMappings map slot) done slot := by
  have hrole := hnodes.role_of_lookup hmaster
  have hlt := hnodes.referenced.node_shards _ _ hmaster
  obtain ⟨primary, hprimary⟩ : ∃ primary, rolesAfter done slot.master = some primary := by
    rw [← hrole, primaryAt, List.getElem?_eq_getElem hlt]
    exact ⟨_, rfl⟩
  have hroles : rolesAfter (done ++ [slot]) = rolesAfter done := by
    rw [rolesAfter_concat, Roles.assign_of_known hprimary]
  have hentered : NodesFrom (done ++ [slot]) map :=
    ⟨hnodes.referenced, hroles ▸ hnodes.roles, hnodes.replicas⟩
  rw [addSlot_of_known hmaster hnodes.replicas]
  refine ⟨hentered.insertRange slot hlt, fun _ _ => rfl, ⟨_, rfl, rfl, ?_⟩⟩
  rw [hroles]
  exact hrole

private theorem enterShard_lookup (map : SlotMap) (slot : Slot) (address : Address) :
    (enterShard ipMappings map slot).nodesMap.lookup address =
      (map.nodesMap.lookup address).or
        (if address = slot.master ∨ address ∈ slot.replicas then
          some (ipMappings.lookup address, map.shards.length) else none) := by
  unfold enterShard
  rw [addNodes_lookup]
  simp only [List.mem_cons]
  rfl

private theorem enterShard_shards (map : SlotMap) (slot : Slot) :
    (enterShard ipMappings map slot).shards = map.shards ++ [⟨slot.master, slot.replicas⟩] :=
  (addNodes_frame _ _).1

private theorem enterShard_primaryAt (map : SlotMap) (slot : Slot)
    (hshard : shard < map.shards.length) :
    (enterShard ipMappings map slot).primaryAt shard = map.primaryAt shard := by
  rw [primaryAt, enterShard_shards, List.getElem?_append_left hshard, primaryAt]

private theorem enterShard_primaryAt_new (map : SlotMap) (slot : Slot) :
    (enterShard ipMappings map slot).primaryAt map.shards.length = some slot.master := by
  rw [primaryAt, enterShard_shards]
  simp

private theorem enterShard_slots (map : SlotMap) (slot : Slot) :
    (enterShard ipMappings map slot).slots = map.slots :=
  (addNodes_frame _ _).2

private theorem enterShard_roleOf (hnodes : NodesFrom done map)
    (hmaster : map.nodesMap.lookup slot.master = none) (address : Address) :
    (enterShard ipMappings map slot).roleOf address = rolesAfter (done ++ [slot]) address := by
  have hrole := (hnodes.lookup_eq_none_iff slot.master).mp hmaster
  rw [rolesAfter_concat, Roles.assign_of_new hrole, roleOf, enterShard_lookup]
  cases hlookup : map.nodesMap.lookup address with
  | some node =>
    have hlt := hnodes.referenced.node_shards address node hlookup
    rw [← hnodes.role_of_lookup hlookup, Option.some_or, Option.bind_some,
      enterShard_primaryAt ipMappings map slot hlt, primaryAt, List.getElem?_eq_getElem hlt]
    rfl
  | none =>
    rw [(hnodes.lookup_eq_none_iff address).mp hlookup, Option.none_or, Option.none_or]
    split_ifs
    · exact enterShard_primaryAt_new ipMappings map slot
    · rfl

private theorem enterShard_referenced (href : map.Referenced) (slot : Slot) :
    (enterShard ipMappings map slot).Referenced := by
  refine ⟨fun entry hentry => ?_, fun address node hlookup => ?_⟩
  · rw [enterShard_slots] at hentry
    rw [enterShard_shards, List.length_append]
    exact Nat.lt_add_right _ (href.slot_shards entry hentry)
  · rw [enterShard_lookup] at hlookup
    rw [enterShard_shards, List.length_append, List.length_singleton]
    rcases Option.or_eq_some_iff.mp hlookup with hold | ⟨-, hnew⟩
    · exact Nat.lt_succ_of_lt (href.node_shards address node hold)
    · obtain ⟨-, hnode⟩ := Option.ite_none_right_eq_some.mp hnew
      rw [← Option.some.inj hnode]
      exact Nat.lt_succ_self _

theorem enterShard (hnodes : NodesFrom done map)
    (hmaster : map.nodesMap.lookup slot.master = none) :
    NodesFrom (done ++ [slot]) (enterShard ipMappings map slot) := by
  refine ⟨enterShard_referenced ipMappings hnodes.referenced slot,
    enterShard_roleOf ipMappings hnodes hmaster, fun shard hshard replica hreplica => ?_⟩
  rw [enterShard_lookup, Option.isSome_or]
  rw [enterShard_shards] at hshard
  rcases List.mem_append.mp hshard with hold | hnew
  · rw [hnodes.replicas shard hold replica hreplica]
    rfl
  · obtain rfl := List.mem_singleton.mp hnew
    rw [if_pos (.inr hreplica)]
    simp

theorem addSlot_new (hnodes : NodesFrom done map)
    (hmaster : map.nodesMap.lookup slot.master = none) :
    AddsRange map (addSlot ipMappings map slot) done slot := by
  have hentered := hnodes.enterShard ipMappings hmaster
  have hprimary := enterShard_primaryAt_new ipMappings map slot
  have hlength : map.shards.length < (SlotMap.enterShard ipMappings map slot).shards.length := by
    rw [enterShard_shards]
    simp
  rw [addSlot_of_new hmaster]
  refine ⟨hentered.insertRange slot hlength,
    fun shard hshard => enterShard_primaryAt ipMappings map slot hshard, ?_⟩
  refine ⟨⟨slot.start, map.shards.length,
    (SlotMap.enterShard ipMappings map slot).nodeIndexes.length⟩, ?_, rfl, ?_⟩
  · rw [SlotMap.insertRange, enterShard_slots]
  · have hrole := (hnodes.lookup_eq_none_iff slot.master).mp hmaster
    rw [rolesAfter_concat, Roles.assign_of_new hrole, hrole, if_pos (.inl rfl)]
    exact hprimary

theorem addsRange (hnodes : NodesFrom done map) (slot : Slot) :
    AddsRange map (addSlot ipMappings map slot) done slot := by
  cases hmaster : map.nodesMap.lookup slot.master with
  | some node => exact hnodes.addSlot_known ipMappings hmaster
  | none => exact hnodes.addSlot_new ipMappings hmaster

end NodesFrom

/-! ## Ranges -/

structure HoldsRange (done : List Slot) (map : SlotMap) (slot : Slot) (entry : Nat × SlotMapValue) :
    Prop where
  rangeEnd : entry.1 = slot.rangeEnd
  start : entry.2.start = slot.start
  primary : map.primaryAt entry.2.addrs = rolesAfter done slot.master

/-- The map of the ranges `done`: nodes have their roles, and each range has its entry. -/
structure BuiltFrom (done : List Slot) (map : SlotMap) : Prop where
  nodes : NodesFrom done map
  ranges : ∀ entry ∈ map.slots, ∃ slot ∈ done, HoldsRange done map slot entry
  ranged : ∀ slot ∈ done, ∃ entry ∈ map.slots, HoldsRange done map slot entry

theorem BuiltFrom.step {done : List Slot} (hbuilt : BuiltFrom done map)
    (hends : ∀ other ∈ done, other.rangeEnd ≠ slot.rangeEnd) (ipMappings : IpMappings) :
    BuiltFrom (done ++ [slot]) (addSlot ipMappings map slot) := by
  obtain ⟨hnodes, hkept, value, hslots, hstart, hprimary⟩ :=
    hbuilt.nodes.addsRange ipMappings slot
  -- the masters of the earlier ranges keep their roles, and the shards their primaries
  have hold : ∀ other ∈ done, ∀ entry ∈ map.slots, HoldsRange done map other entry →
      HoldsRange (done ++ [slot]) (addSlot ipMappings map slot) other entry := by
    intro other hother entry hentry hholds
    obtain ⟨primary, hrole⟩ := Option.isSome_iff_exists.mp (rolesAfter_master_isSome hother)
    refine ⟨hholds.rangeEnd, hholds.start, ?_⟩
    rw [hkept _ (hbuilt.nodes.referenced.slot_shards entry hentry), hholds.primary, hrole,
      rolesAfter_append_of_some hrole]
  refine ⟨hnodes, fun entry hentry => ?_, fun other hother => ?_⟩
  · rw [hslots] at hentry
    rcases OrderedMap.mem_insert.mp hentry with rfl | ⟨hentry, -⟩
    · exact ⟨slot, by simp, rfl, hstart, hprimary⟩
    · obtain ⟨other, hother, hholds⟩ := hbuilt.ranges entry hentry
      exact ⟨other, by simp [hother], hold other hother entry hentry hholds⟩
  · rw [hslots]
    rcases List.mem_append.mp hother with hother | hother
    · obtain ⟨entry, hentry, hholds⟩ := hbuilt.ranged other hother
      refine ⟨entry, OrderedMap.mem_insert.mpr (.inr ⟨hentry, ?_⟩),
        hold other hother entry hentry hholds⟩
      rw [hholds.rangeEnd]
      exact hends other hother
    · obtain rfl := List.mem_singleton.mp hother
      exact ⟨_, OrderedMap.mem_insert.mpr (.inl rfl), rfl, hstart, hprimary⟩

theorem new_builtFrom (hends : (slots.map Slot.rangeEnd).Nodup) (ipMappings : IpMappings)
    (readFromReplica : ReadFromReplicaStrategy) :
    BuiltFrom slots (new slots ipMappings readFromReplica) := by
  induction slots using List.reverseRecOn with
  | nil =>
    refine ⟨⟨⟨?_, ?_⟩, fun _ => rfl, ?_⟩, ?_, ?_⟩ <;>
      simp [new, newWithReadStrategy, OrderedMap.empty, OrderedMap.mem_def]
  | append_singleton slots slot ih =>
    rw [List.map_append, List.map_singleton, List.nodup_append] at hends
    obtain ⟨hdone, -, hfresh⟩ := hends
    unfold new at ih ⊢
    rw [List.foldl_append]
    refine (ih hdone).step (fun other hother => ?_) ipMappings
    exact hfresh _ (List.mem_map_of_mem hother) _ (List.mem_singleton_self _)

/-! ## The topology -/

/-- Slots resolve to their masters, other slots to nothing, and the primaries are the masters. -/
structure HonoursTopology (slots : List Slot) (map : SlotMap) : Prop where
  covered : ∀ slot ∈ slots, ∀ point, slot.Contains point → ∀ slotAddr,
    ∃ value, map.slotValueForRoute ⟨point, slotAddr⟩ = some value ∧
      map.primaryAt value.addrs = some slot.master
  uncovered : ∀ point, (∀ slot ∈ slots, ¬ slot.Contains point) → ∀ slotAddr,
    map.slotValueForRoute ⟨point, slotAddr⟩ = none
  primaries : ∀ address, address ∈ map.addressesForAllPrimaries ↔
    ∃ slot ∈ slots, slot.master = address

/-- Ranges of slots that do not overlap. -/
structure DisjointRanges (slots : List Slot) : Prop where
  ranges : ∀ slot ∈ slots, slot.start ≤ slot.rangeEnd ∧ slot.rangeEnd < slotCount
  disjoint : slots.Pairwise fun first second => ∀ point,
    ¬ (first.Contains point ∧ second.Contains point)

namespace DisjointRanges

variable {slots : List Slot}

theorem eq_of_contains (hranges : DisjointRanges slots) {first second : Slot}
    (hfirst : first ∈ slots) (hsecond : second ∈ slots) {point : Nat}
    (hin : first.Contains point) (hin' : second.Contains point) : first = second := by
  by_contra hne
  have : Std.Symm fun first second : Slot => ∀ point,
      ¬ (first.Contains point ∧ second.Contains point) :=
    ⟨fun _ _ hnot point hboth => hnot point hboth.symm⟩
  exact hranges.disjoint.forall hfirst hsecond hne point ⟨hin, hin'⟩

theorem ends_nodup (hranges : DisjointRanges slots) : (slots.map Slot.rangeEnd).Nodup := by
  refine List.pairwise_map.mpr (hranges.disjoint.imp_of_mem ?_)
  intro first second hfirst hsecond hnot heq
  refine hnot first.rangeEnd ⟨⟨(hranges.ranges first hfirst).1, le_rfl⟩, ?_, heq.le⟩
  rw [heq]
  exact (hranges.ranges second hsecond).1

end DisjointRanges

namespace BuiltFrom

variable {slots : List Slot} {map : SlotMap} {point : Nat}

theorem valid (hbuilt : BuiltFrom slots map) (hranges : DisjointRanges slots) :
    RangeMap.Valid SlotMapValue.start map.slots := by
  refine ⟨fun entry hentry => ?_, fun first hfirst second hsecond point hin hin' => ?_⟩
  · obtain ⟨slot, hslot, hholds⟩ := hbuilt.ranges entry hentry
    rw [hholds.rangeEnd, hholds.start]
    exact (hranges.ranges slot hslot).1
  · obtain ⟨slot, hslot, hholds⟩ := hbuilt.ranges first hfirst
    obtain ⟨other, hother, hholds'⟩ := hbuilt.ranges second hsecond
    unfold RangeMap.Covers at hin hin'
    rw [hholds.rangeEnd, hholds.start] at hin
    rw [hholds'.rangeEnd, hholds'.start] at hin'
    obtain rfl := hranges.eq_of_contains hslot hother hin hin'
    exact OrderedMap.eq_of_mem_of_key_eq _ hfirst hsecond
      (hholds.rangeEnd.trans hholds'.rangeEnd.symm)

theorem slotValueForRoute (hbuilt : BuiltFrom slots map) (hranges : DisjointRanges slots)
    (hslot : slot ∈ slots) (hin : slot.Contains point) (slotAddr : SlotAddr) :
    ∃ value, map.slotValueForRoute ⟨point, slotAddr⟩ = some value ∧
      map.primaryAt value.addrs = rolesAfter slots slot.master := by
  obtain ⟨entry, hentry, hholds⟩ := hbuilt.ranged slot hslot
  refine ⟨entry.2, ?_, hholds.primary⟩
  have hcovers : RangeMap.Covers SlotMapValue.start entry point := by
    unfold RangeMap.Covers
    rw [hholds.rangeEnd, hholds.start]
    exact hin
  rw [slotValueForRoute_eq,
    (RangeMap.containing?_eq_some_iff (hbuilt.valid hranges)).mpr ⟨hentry, hcovers⟩]
  rfl

theorem slotValueForRoute_none (hbuilt : BuiltFrom slots map) (hranges : DisjointRanges slots)
    (hout : ∀ slot ∈ slots, ¬ slot.Contains point) (slotAddr : SlotAddr) :
    map.slotValueForRoute ⟨point, slotAddr⟩ = none := by
  rw [slotValueForRoute_eq, (RangeMap.containing?_eq_none_iff (hbuilt.valid hranges)).mpr,
    Option.map_none]
  intro entry hentry hcovers
  obtain ⟨slot, hslot, hholds⟩ := hbuilt.ranges entry hentry
  unfold RangeMap.Covers at hcovers
  rw [hholds.rangeEnd, hholds.start] at hcovers
  exact hout slot hslot hcovers

theorem mem_addressesForAllPrimaries (hbuilt : BuiltFrom slots map) (address : Address) :
    address ∈ map.addressesForAllPrimaries ↔ ∃ node, rolesAfter slots node = some address := by
  unfold addressesForAllPrimaries
  rw [List.mem_filterMap]
  constructor
  · rintro ⟨⟨name, node⟩, hentry, hprimary⟩
    have hlookup : map.nodesMap.lookup name = some node := AList.mem_lookup_iff.mpr hentry
    exact ⟨name, (hbuilt.nodes.role_of_lookup hlookup).symm.trans hprimary⟩
  · rintro ⟨name, hrole⟩
    cases hlookup : map.nodesMap.lookup name with
    | none =>
      rw [(hbuilt.nodes.lookup_eq_none_iff name).mp hlookup] at hrole
      contradiction
    | some node =>
      exact ⟨⟨name, node⟩, AList.mem_lookup_iff.mp hlookup,
        (hbuilt.nodes.role_of_lookup hlookup).trans hrole⟩

end BuiltFrom

/-- The map honours the topology exactly when no replica of a first range is promoted later. -/
theorem new_honoursTopology_iff (slots : List Slot) (ipMappings : IpMappings)
    (readFromReplica : ReadFromReplicaStrategy) (hranges : DisjointRanges slots) :
    HonoursTopology slots (new slots ipMappings readFromReplica) ↔ ¬ PromotedLater slots := by
  have hbuilt := new_builtFrom hranges.ends_nodup ipMappings readFromReplica
  rw [promotedLater_iff]
  constructor
  · rintro hhonours ⟨slot, hslot, hrole⟩
    have hin : slot.Contains slot.rangeEnd := ⟨(hranges.ranges slot hslot).1, le_rfl⟩
    obtain ⟨value, hvalue, hprimary⟩ := hhonours.covered slot hslot _ hin .master
    obtain ⟨found, hfound, hassigned⟩ := hbuilt.slotValueForRoute hranges hslot hin .master
    rw [hfound] at hvalue
    rw [← Option.some.inj hvalue, hassigned] at hprimary
    exact hrole hprimary
  · intro hroles
    have hmaster : ∀ slot ∈ slots, rolesAfter slots slot.master = some slot.master := by
      simpa using hroles
    refine ⟨fun slot hslot point hin slotAddr => ?_, fun point hout slotAddr =>
      hbuilt.slotValueForRoute_none hranges hout slotAddr, fun address => ?_⟩
    · rw [← hmaster slot hslot]
      exact hbuilt.slotValueForRoute hranges hslot hin slotAddr
    · rw [hbuilt.mem_addressesForAllPrimaries]
      constructor
      · rintro ⟨node, hrole⟩
        exact (rolesAfter_primary hrole).1
      · rintro ⟨slot, hslot, rfl⟩
        exact ⟨slot.master, hmaster slot hslot⟩

private def twoRanges : List Slot := [⟨0, 99, "a:1", ["b:1"]⟩, ⟨100, 199, "c:1", ["b:1"]⟩]

private def promotedRanges : List Slot := [⟨0, 99, "a:1", ["b:1"]⟩, ⟨100, 199, "b:1", ["a:1"]⟩]

theorem twoRanges_honoured : HonoursTopology twoRanges (new twoRanges ∅ .alwaysFromPrimary) := by
  have hranges : DisjointRanges twoRanges := by
    constructor
    · simp [twoRanges, slotCount]
    · simp only [twoRanges, Slot.Contains, List.pairwise_cons, List.mem_singleton, forall_eq]
      refine ⟨?_, by simp⟩
      intro point hpoint
      omega
  rw [new_honoursTopology_iff twoRanges ∅ .alwaysFromPrimary hranges, promotedLater_iff]
  decide

theorem promotedRanges_not_honoured :
    DisjointRanges promotedRanges ∧
      ((new promotedRanges ∅ .alwaysFromPrimary).slotValueForRoute ⟨150, .master⟩).bind
        (fun value => (new promotedRanges ∅ .alwaysFromPrimary).primaryAt value.addrs) =
          some "a:1" ∧
      (new promotedRanges ∅ .alwaysFromPrimary).addressesForAllPrimaries = ["a:1", "a:1"] := by
  refine ⟨⟨?_, ?_⟩, by decide, by decide⟩
  · simp [promotedRanges, slotCount]
  · simp only [promotedRanges, Slot.Contains, List.pairwise_cons, List.mem_singleton, forall_eq]
    refine ⟨?_, by simp⟩
    intro point hpoint
    omega

end SlotMap

end ValkeyGlide.Cluster
