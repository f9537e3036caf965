import Mathlib.Data.List.Induction
import ValkeyGlide.Cluster.SlotLookups

/-!
# Addresses by IP and port

The slot map keeps an index from IP and port to the address of a node, in which a pair that
several nodes have is marked as ambiguous (`cluster_slotmap.rs`).  It is rebuilt, in the
order of a hash map, at the end of each operation on the nodes.  `portOf` stands for the
port that `parse_cluster_address` reads in an address.
-/

namespace ValkeyGlide.Cluster

open Foundation

abbrev NodeEntry := Sigma fun _ : Address => Option IpAddr × ShardId

structure NodeOrder where
  visit : List NodeEntry → List NodeEntry
  perm : ∀ entries, (visit entries).Perm entries

abbrev ExactIpPortIndex := AList fun _ : IpAddr × Nat => Option Address

def NodeEntry.ipPort (portOf : Address → Option Nat) (entry : NodeEntry) : Option (IpAddr × Nat) :=
  do return (← entry.2.1, ← portOf entry.1)

def indexEntry (portOf : Address → Option Nat) (index : ExactIpPortIndex) (entry : NodeEntry) :
    ExactIpPortIndex :=
  match entry.ipPort portOf with
  | none => index
  | some key =>
    match index.lookup key with
    | none => index.insert key (some entry.1)
    | some indexed => if indexed ≠ some entry.1 then index.insert key none else index

structure IndexedMap where
  map : SlotMap
  exactIpPortIndex : ExactIpPortIndex

inductive NodesOperation where
  | populateIps (resolvedIps : List (Address × IpAddr))
  | carryOverIpsFrom (old : SlotMap)
  | addNewPrimary (slot : Nat) (nodeAddr : Address) (ipAddr : Option IpAddr)

def NodesOperation.apply (map : SlotMap) : NodesOperation → SlotMap
  | .populateIps resolvedIps => map.populateIps resolvedIps
  | .carryOverIpsFrom old => map.carryOverIpsFrom old
  | .addNewPrimary slot nodeAddr ipAddr => (map.addNewPrimary slot nodeAddr ipAddr).2

namespace IndexedMap

variable (portOf : Address → Option Nat)

def rebuildExactIpPortIndex (map : SlotMap) (order : NodeOrder) : IndexedMap :=
  ⟨map, (order.visit map.nodesMap.entries).foldl (indexEntry portOf) ∅⟩

def step (indexed : IndexedMap) (operation : NodesOperation × NodeOrder) : IndexedMap :=
  rebuildExactIpPortIndex portOf (operation.1.apply indexed.map) operation.2

def nodeAddressForIpAndPort (indexed : IndexedMap) (ip : IpAddr) (port : Nat) : Option Address :=
  (indexed.exactIpPortIndex.lookup (ip, port)).join

end IndexedMap

variable {portOf : Address → Option Nat}

/-! ## The index -/

def indexedAs : List Address → Option (Option Address)
  | [] => none
  | [address] => some (some address)
  | _ => some none

theorem indexedAs_join_eq_some_iff {addresses : List Address} {address : Address} :
    (indexedAs addresses).join = some address ↔ addresses = [address] := by
  rcases addresses with _ | ⟨first, _ | ⟨second, rest⟩⟩ <;> simp [indexedAs]

def addressesWith (portOf : Address → Option Nat) (key : IpAddr × Nat) (entries : List NodeEntry) :
    List Address :=
  (entries.filter fun entry => entry.ipPort portOf = some key).map Sigma.fst

theorem addressesWith_sublist (key : IpAddr × Nat) (entries : List NodeEntry) :
    (addressesWith portOf key entries).Sublist (entries.map Sigma.fst) :=
  List.filter_sublist.map _

theorem lookup_indexEntries (key : IpAddr × Nat) {entries : List NodeEntry}
    (hnodup : (entries.map Sigma.fst).Nodup) :
    (entries.foldl (indexEntry portOf) ∅).lookup key =
      indexedAs (addressesWith portOf key entries) := by
  induction entries using List.reverseRecOn with
  | nil => rfl
  | append_singleton entries entry ih =>
    rw [List.map_append, List.nodup_append] at hnodup
    have hindexed := ih hnodup.1
    have hfresh : entry.1 ∉ addressesWith portOf key entries := fun hmem =>
      hnodup.2.2 _ ((addressesWith_sublist key entries).subset hmem) _ (by simp) rfl
    rw [List.foldl_append, List.foldl_cons, List.foldl_nil, indexEntry]
    by_cases hkey : entry.ipPort portOf = some key
    · have hwith : addressesWith portOf key (entries ++ [entry]) =
          addressesWith portOf key entries ++ [entry.1] := by simp [addressesWith, hkey]
      rw [hkey, hwith]
      -- the pair is new, was that of one other address, or was ambiguous already
      rcases haddresses : addressesWith portOf key entries with _ | ⟨first, _ | ⟨second, rest⟩⟩ <;>
        rw [haddresses] at hindexed hfresh
      · simp [hindexed, indexedAs]
      · have hne : first ≠ entry.1 := fun heq => hfresh (heq ▸ List.mem_singleton_self _)
        simp [hindexed, indexedAs, hne]
      · simp [hindexed, indexedAs]
    · have hwith : addressesWith portOf key (entries ++ [entry]) =
          addressesWith portOf key entries := by simp [addressesWith, hkey]
      rw [hwith, ← hindexed]
      cases hother : entry.ipPort portOf with
      | none => rfl
      | some other =>
        have hne : key ≠ other := fun heq => hkey (heq ▸ hother)
        dsimp only
        split
        · exact AList.lookup_insert_ne hne
        · split_ifs
          · exact AList.lookup_insert_ne hne
          · rfl

/-! ## The nodes -/

namespace SlotMap

/-- The one node of the table with the IP and the port. -/
def IsOnlyNode (portOf : Address → Option Nat) (map : SlotMap) (ip : IpAddr) (port : Nat)
    (address : Address) : Prop :=
  ∀ other, (∃ shard, map.nodesMap.lookup other = some (some ip, shard)) ∧
    portOf other = some port ↔ other = address

theorem mem_addressesWith (map : SlotMap) (order : NodeOrder) (ip : IpAddr) (port : Nat)
    (address : Address) :
    address ∈ addressesWith portOf (ip, port) (order.visit map.nodesMap.entries) ↔
      (∃ shard, map.nodesMap.lookup address = some (some ip, shard)) ∧
        portOf address = some port := by
  have hmem : ∀ node, map.nodesMap.lookup address = some node ↔
      ⟨address, node⟩ ∈ map.nodesMap.entries := fun node => AList.mem_lookup_iff
  simp only [addressesWith, List.mem_map, List.mem_filter, (order.perm _).mem_iff, hmem,
    NodeEntry.ipPort]
  constructor
  · rintro ⟨⟨address, held, shard⟩, ⟨hentry, hkey⟩, rfl⟩
    obtain ⟨rfl, hport⟩ : held = some ip ∧ portOf address = some port := by
      simpa [Option.bind_eq_some_iff] using hkey
    exact ⟨⟨shard, hentry⟩, hport⟩
  · rintro ⟨⟨shard, hentry⟩, hport⟩
    exact ⟨_, ⟨hentry, by simp [hport]⟩, rfl⟩

theorem rebuild_exact (map : SlotMap) (order : NodeOrder) (ip : IpAddr) (port : Nat)
    (address : Address) :
    (IndexedMap.rebuildExactIpPortIndex portOf map order).nodeAddressForIpAndPort ip port =
      some address ↔ map.IsOnlyNode portOf ip port address := by
  have hnodup : ((order.visit map.nodesMap.entries).map Sigma.fst).Nodup :=
    ((order.perm _).map _).nodup_iff.mpr map.nodesMap.nodupKeys
  rw [IndexedMap.nodeAddressForIpAndPort, IndexedMap.rebuildExactIpPortIndex,
    lookup_indexEntries _ hnodup, indexedAs_join_eq_some_iff, ← List.perm_singleton,
    List.perm_ext_iff_of_nodup ((addressesWith_sublist _ _).nodup hnodup) (List.nodup_singleton _)]
  simp [mem_addressesWith, IsOnlyNode]

theorem lookup_carryOverIpsFrom {map : SlotMap} (old : SlotMap) {address : Address} {ip : IpAddr}
    {shard : ShardId} (hlookup : map.nodesMap.lookup address = some (some ip, shard)) :
    (map.carryOverIpsFrom old).nodesMap.lookup address = some (some ip, shard) := by
  refine List.foldlRecOn (motive := fun next : SlotMap =>
    next.nodesMap.lookup address = some (some ip, shard)) _ _ hlookup fun next hnext entry _ => ?_
  split
  · exact hnext
  · split
    · next other hother =>
      have hne : address ≠ entry.1 := by
        rintro rfl
        rw [hnext] at hother
        cases hother
      exact (AList.lookup_insert_ne hne).trans hnext
    · exact hnext

end SlotMap

/--
After any operations on the nodes, and in whichever order the tables are visited, the index
returns exactly the address of the only node with the IP and the port, and an IP that is
known is not replaced by one carried over.
-/
theorem address_index_exact (portOf : Address → Option Nat) (slots : List Slot)
    (ipMappings : SlotMap.IpMappings) (readFromReplica : ReadFromReplicaStrategy)
    (order : NodeOrder) (operations : List (NodesOperation × NodeOrder)) :
    let indexed := operations.foldl (IndexedMap.step portOf)
      (.rebuildExactIpPortIndex portOf (.new slots ipMappings readFromReplica) order)
    (∀ ip port address, indexed.nodeAddressForIpAndPort ip port = some address ↔
      indexed.map.IsOnlyNode portOf ip port address) ∧
    ∀ old address ip shard, indexed.map.nodesMap.lookup address = some (some ip, shard) →
      (indexed.map.carryOverIpsFrom old).nodesMap.lookup address = some (some ip, shard) := by
  refine ⟨fun ip port address => ?_, fun old _ _ _ => SlotMap.lookup_carryOverIpsFrom old⟩
  rcases List.eq_nil_or_concat operations with rfl | ⟨earlier, last, rfl⟩
  · exact SlotMap.rebuild_exact _ order ip port address
  · rw [List.concat_eq_append, List.foldl_append]
    exact SlotMap.rebuild_exact _ last.2 ip port address

end ValkeyGlide.Cluster
