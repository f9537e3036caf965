import ValkeyGlide.Cluster.SlotUpdate
import ValkeyGlide.Foundation.Run

/-!
# Handling a MOVED redirect

`updateUponMovedError` (`cluster_async/mod.rs`) applies a redirect of one slot to
a new primary.  It first tries to change roles inside the shard found for the
slot, then looks the new primary up among the known nodes, and finally adds it
as the primary of a new shard.
-/

namespace ValkeyGlide.Cluster.SlotMap

open Foundation Protocol

def setShard (map : SlotMap) (id : ShardId) (shard : ShardAddrs) : SlotMap :=
  { map with shards := map.shards.set id shard }

def addNewPrimary (map : SlotMap) (slot : Nat) (nodeAddr : Address) (ipAddr : Option IpAddr) :
    RedisResult Unit × SlotMap :=
  let (shardAddrs, map) := map.allocShard (.newWithPrimary nodeAddr)
  let map := { map with nodesMap := map.nodesMap.insert nodeAddr (ipAddr, shardAddrs) }
  map.updateSlotRange slot shardAddrs

def updateRolesForSlot (map : SlotMap) (slot : Nat) (newPrimary : Address) :
    ShardUpdateResult × SlotMap :=
  match map.shardAddrsForSlot slot with
  | none => (.nodeNotFound, map)
  | some id =>
    match map.shards[id]? with
    | none => (.nodeNotFound, map)
    | some shard =>
      let (result, shard) := shard.attemptShardRoleUpdate newPrimary
      (result, map.setShard id shard)

/--
Scenario 3, the primary of another shard; scenario 4, a replica of another shard;
scenario 5, an unknown node.
-/
def installFromNodes (map : SlotMap) (slot : Nat) (newPrimary : Address) :
    RedisResult Unit × SlotMap :=
  match map.nodesMap.lookup newPrimary with
  | none => map.addNewPrimary slot newPrimary none
  | some (ipAddr, id) =>
    match map.shards[id]? with
    | none => map.addNewPrimary slot newPrimary none
    | some shard =>
      if shard.primary = newPrimary then
        map.updateSlotRange slot id
      else
        match shard.removeReplica newPrimary with
        | .error error => (.error error, map)
        | .ok shard => (map.setShard id shard).addNewPrimary slot newPrimary ipAddr

def updateUponMovedError (map : SlotMap) (slot : Nat) (newPrimary : Address) :
    RedisResult Unit × SlotMap :=
  match map.updateRolesForSlot slot newPrimary with
  | (.alreadyPrimary, map) => (.ok (), map)
  | (.promoted, map) => (.ok (), map)
  | (.nodeNotFound, map) => map.installFromNodes slot newPrimary

/-! ## Effects on shards and owners -/

/--
Every shard keeps its primary, and its replicas except for an occurrence of
`node`.
-/
def KeepsShards (map map' : SlotMap) (node : Address) : Prop :=
  ∀ (id : ShardId) (shard : ShardAddrs), map.shards[id]? = some shard →
    ∃ shard' : ShardAddrs, map'.shards[id]? = some shard' ∧ shard'.primary = shard.primary ∧
      (shard'.replicas = shard.replicas ∨ shard'.replicas = shard.replicas.erase node)

@[simp] theorem setShard_ownerOf (map : SlotMap) (id : ShardId) (shard : ShardAddrs)
    (slot : Nat) : (map.setShard id shard).ownerOf slot = map.ownerOf slot := rfl

@[simp] theorem setShard_shards (map : SlotMap) (id : ShardId) (shard : ShardAddrs) :
    (map.setShard id shard).shards = map.shards.set id shard := rfl

variable {map map' : SlotMap} {id : ShardId} {shard : ShardAddrs} {node : Address} {slot : Nat}

theorem setShard_self (hshard : map.shards[id]? = some shard) : map.setShard id shard = map := by
  have hset : map.shards.set id shard = map.shards := by
    apply List.ext_getElem?
    intro index
    rw [List.getElem?_set]
    split_ifs with hindex hlt
    · rw [← hindex, hshard]
    · rw [← hindex, List.getElem?_eq_none (by omega)]
    · rfl
  simp [setShard, hset]

theorem setShard_wellFormed (hwf : map.WellFormed) (id : ShardId) (shard : ShardAddrs) :
    (map.setShard id shard).WellFormed where
  ranges := hwf.ranges
  slot_shards := by simpa [setShard] using hwf.slot_shards
  node_shards := by simpa [setShard] using hwf.node_shards

theorem setShard_keepsShards {shard' : ShardAddrs} (hshard : map.shards[id]? = some shard)
    (hprimary : shard'.primary = shard.primary)
    (hreplicas : shard'.replicas = shard.replicas.erase node) :
    KeepsShards map (map.setShard id shard') node := by
  intro other kept hkept
  by_cases hid : id = other
  · subst hid
    obtain rfl : shard = kept := Option.some.inj (hshard.symm.trans hkept)
    have hlt : id < map.shards.length := (List.getElem?_eq_some_iff.mp hshard).1
    exact ⟨shard', by simp [setShard, hlt], hprimary, .inr hreplicas⟩
  · exact ⟨kept, by simpa [setShard, List.getElem?_set, hid] using hkept, rfl, .inl rfl⟩

theorem primaryOf_congr (hwf : map.WellFormed) (hkeeps : KeepsShards map map' node)
    (howner : map'.ownerOf slot = map.ownerOf slot) :
    map'.primaryOf slot = map.primaryOf slot := by
  unfold primaryOf
  rw [howner]
  cases hid : map.ownerOf slot with
  | none => rfl
  | some id =>
    have hlt := ownerOf_lt_length hwf hid
    obtain ⟨shard', hshard', hprimary, -⟩ :=
      hkeeps id (map.shards[id]) (List.getElem?_eq_getElem hlt)
    simp [hshard', hprimary, List.getElem?_eq_getElem hlt]

theorem addNewPrimary_spec (hwf : map.WellFormed) (hslot : slot < 2 ^ 16 - 1) (node : Address)
    (ipAddr : Option IpAddr) :
    ∃ map', map.addNewPrimary slot node ipAddr = (.ok (), map') ∧ map'.WellFormed ∧
      map'.shards = map.shards ++ [.newWithPrimary node] ∧
      map'.ownerOf slot = some map.shards.length ∧
      ∀ other, other ≠ slot → map'.ownerOf other = map.ownerOf other := by
  let extended : SlotMap :=
    { map with
      shards := map.shards ++ [.newWithPrimary node]
      nodesMap := map.nodesMap.insert node (ipAddr, map.shards.length) }
  have hextended : extended.WellFormed := by
    refine ⟨hwf.ranges, ?_, ?_⟩
    · intro entry hentry
      simp only [extended, List.length_append, List.length_singleton]
      exact Nat.lt_succ_of_lt (hwf.slot_shards entry hentry)
    · intro address known hlookup
      simp only [extended, List.length_append, List.length_singleton] at hlookup ⊢
      by_cases hsame : address = node
      · subst hsame
        rw [AList.lookup_insert] at hlookup
        simp [← Option.some.inj hlookup]
      · rw [AList.lookup_insert_ne hsame] at hlookup
        exact Nat.lt_succ_of_lt (hwf.node_shards address known hlookup)
  obtain ⟨map', hupdate, hupdates⟩ :=
    updateSlotRange_spec hextended.ranges hslot map.shards.length
  refine ⟨map', hupdate, hupdates.wellFormed hextended ?_, hupdates.shards,
    hupdates.ownerOf_slot, ?_⟩
  · simp [extended]
  · intro other hne
    exact hupdates.ownerOf_of_ne hextended.ranges hne

private theorem addNewPrimary_installs {base : SlotMap} (hbase : base.WellFormed)
    (hslot : slot < 2 ^ 16 - 1) {ipAddr : Option IpAddr} (hkeeps : KeepsShards map base node)
    (howners : ∀ other, base.ownerOf other = map.ownerOf other)
    (hadd : base.addNewPrimary slot node ipAddr = (.ok (), map')) :
    map'.WellFormed ∧ map'.primaryOf slot = some node ∧ KeepsShards map map' node ∧
      ∀ other, other ≠ slot → map'.ownerOf other = map.ownerOf other := by
  obtain ⟨_, hok, hwf', hshards, howner, hothers⟩ := addNewPrimary_spec hbase hslot node ipAddr
  obtain rfl := (Prod.mk.inj (hok.symm.trans hadd)).2
  refine ⟨hwf', ?_, ?_, fun other hne => (hothers other hne).trans (howners other)⟩
  · simp [primaryOf, howner, hshards, ShardAddrs.newWithPrimary]
  · intro id shard hshard
    obtain ⟨shard', hshard', hkept⟩ := hkeeps id shard hshard
    have hlt : id < base.shards.length := (List.getElem?_eq_some_iff.mp hshard').1
    exact ⟨shard', by rw [hshards, List.getElem?_append_left hlt, hshard'], hkept⟩

theorem installFromNodes_spec (hwf : map.WellFormed) (hslot : slot < 2 ^ 16 - 1)
    (hinstall : map.installFromNodes slot node = (.ok (), map')) :
    map'.WellFormed ∧ map'.primaryOf slot = some node ∧ KeepsShards map map' node ∧
      ∀ other, other ≠ slot → map'.ownerOf other = map.ownerOf other := by
  have hself : KeepsShards map map node := fun id shard hshard =>
    ⟨shard, hshard, rfl, .inl rfl⟩
  unfold installFromNodes at hinstall
  split at hinstall
  · exact addNewPrimary_installs hwf hslot hself (fun _ => rfl) hinstall
  · next ipAddr id hlookup =>
      have hlt : id < map.shards.length := hwf.node_shards node _ hlookup
      simp only [List.getElem?_eq_getElem hlt] at hinstall
      split_ifs at hinstall with hprimary
      · obtain ⟨_, hok, hupdates⟩ := updateSlotRange_spec hwf.ranges hslot id
        obtain rfl := (Prod.mk.inj (hok.symm.trans hinstall)).2
        refine ⟨hupdates.wellFormed hwf hlt, ?_, ?_, fun other hne =>
          hupdates.ownerOf_of_ne hwf.ranges hne⟩
        · simp [primaryOf, hupdates.ownerOf_slot, hupdates.shards,
            List.getElem?_eq_getElem hlt, hprimary]
        · intro other shard hshard
          exact ⟨shard, by rw [hupdates.shards, hshard], rfl, .inl rfl⟩
      · split at hinstall
        · simp at hinstall
        · next shard hremove =>
            obtain ⟨hprimary', hreplicas⟩ := ShardAddrs.removeReplica_eq_ok hremove
            exact addNewPrimary_installs (setShard_wellFormed hwf id shard) hslot
              (setShard_keepsShards (List.getElem?_eq_getElem hlt) hprimary' hreplicas)
              (fun _ => rfl) hinstall

theorem installFromNodes_error (hwf : map.WellFormed) (hslot : slot < 2 ^ 16 - 1)
    {error : RedisError}
    (hinstall : map.installFromNodes slot node = (.error error, map')) : map' = map := by
  have hadd : ∀ base : SlotMap, base.WellFormed → ∀ ipAddr,
      base.addNewPrimary slot node ipAddr ≠ (.error error, map') := by
    intro base hbase ipAddr hfailed
    obtain ⟨_, hok, -⟩ := addNewPrimary_spec hbase hslot node ipAddr
    simp [hok] at hfailed
  unfold installFromNodes at hinstall
  split at hinstall
  · exact absurd hinstall (hadd map hwf none)
  · next ipAddr id hlookup =>
      split at hinstall
      · exact absurd hinstall (hadd map hwf none)
      · next shard hshard =>
          split_ifs at hinstall with hprimary
          · obtain ⟨_, hok, -⟩ := updateSlotRange_spec hwf.ranges hslot id
            simp [hok] at hinstall
          · split at hinstall
            · exact (Prod.mk.inj hinstall).2.symm
            · next kept _ =>
                exact absurd hinstall (hadd _ (setShard_wellFormed hwf id kept) ipAddr)

/-! ## The redirect -/

/-- What an accepted redirect of `slot` to `newPrimary` should do to the map. -/
structure InstallsRedirect (map map' : SlotMap) (slot : Nat) (newPrimary : Address) : Prop where
  slot_lookup : (map'.slotAddrForRoute ⟨slot, .master⟩).1 = some newPrimary
  other_lookup : ∀ other, other ≠ slot →
    (map'.slotAddrForRoute ⟨other, .master⟩).1 ≠ (map.slotAddrForRoute ⟨other, .master⟩).1 →
      ∃ id shard, map.ownerOf slot = some id ∧ map.ownerOf other = some id ∧
        map.shards[id]? = some shard ∧ newPrimary ∈ shard.replicas
  other_shards : ∀ (id : ShardId) (shard : ShardAddrs), map.ownerOf slot ≠ some id →
    map.shards[id]? = some shard →
      ∃ shard' : ShardAddrs, map'.shards[id]? = some shard' ∧
        shard'.primary = shard.primary ∧
        (shard'.replicas = shard.replicas ∨
          shard'.replicas = shard.replicas.erase newPrimary)

/--
The slot is uncovered and the new primary already belongs to the shard of the
next range, which `shardAddrsForSlot` reports for the slot.
-/
def RedirectsGapToNextShard (map : SlotMap) (slot : Nat) (newPrimary : Address) : Prop :=
  map.ownerOf slot = none ∧
    ∃ id shard, map.shardAddrsForSlot slot = some id ∧ map.shards[id]? = some shard ∧
      (shard.primary = newPrimary ∨ newPrimary ∈ shard.replicas)

theorem InstallsRedirect.of_keepsShards (hwf : map.WellFormed)
    (hslot : map'.primaryOf slot = some node) (hkeeps : KeepsShards map map' node)
    (hothers : ∀ other, other ≠ slot → map'.ownerOf other = map.ownerOf other) :
    InstallsRedirect map map' slot node where
  slot_lookup := by rw [slotAddrForRoute_master, hslot]
  other_lookup := by
    intro other hne hchanged
    rw [slotAddrForRoute_master, slotAddrForRoute_master] at hchanged
    exact absurd (primaryOf_congr hwf hkeeps (hothers other hne)) hchanged
  other_shards := fun id shard _ hshard => hkeeps id shard hshard

theorem InstallsRedirect.of_promotion {promoted : ShardAddrs} (howner : map.ownerOf slot = some id)
    (hshard : map.shards[id]? = some shard) (hreplica : node ∈ shard.replicas)
    (hpromoted : promoted.primary = node) :
    InstallsRedirect map (map.setShard id promoted) slot node where
  slot_lookup := by
    have hlt : id < map.shards.length := (List.getElem?_eq_some_iff.mp hshard).1
    simp [slotAddrForRoute_master, primaryOf, howner, hlt, hpromoted]
  other_lookup := by
    intro other _ hchanged
    rw [slotAddrForRoute_master, slotAddrForRoute_master] at hchanged
    refine ⟨id, shard, howner, ?_, hshard, hreplica⟩
    by_contra hother
    apply hchanged
    unfold primaryOf
    rw [setShard_ownerOf]
    cases hid : map.ownerOf other with
    | none => rfl
    | some otherId =>
      have hne : id ≠ otherId := by
        rintro rfl
        exact hother hid
      simp [List.getElem?_set, hne]
  other_shards := by
    intro other kept hnot hkept
    have hne : id ≠ other := by
      rintro rfl
      exact hnot howner
    exact ⟨kept, by simpa [setShard, List.getElem?_set, hne] using hkept, rfl, .inl rfl⟩

theorem updateRolesForSlot_cases (map : SlotMap) (slot : Nat) (node : Address) :
    (∃ id shard, map.shardAddrsForSlot slot = some id ∧ map.shards[id]? = some shard ∧
      shard.primary = node ∧ map.updateRolesForSlot slot node = (.alreadyPrimary, map)) ∨
    (∃ id shard replicas, map.shardAddrsForSlot slot = some id ∧
      map.shards[id]? = some shard ∧ node ∈ shard.replicas ∧
      map.updateRolesForSlot slot node = (.promoted, map.setShard id ⟨node, replicas⟩)) ∨
    ((∀ id shard, map.shardAddrsForSlot slot = some id → map.shards[id]? = some shard →
      shard.primary ≠ node ∧ node ∉ shard.replicas) ∧
      map.updateRolesForSlot slot node = (.nodeNotFound, map)) := by
  cases hid : map.shardAddrsForSlot slot with
  | none => exact .inr (.inr ⟨by simp, by simp [updateRolesForSlot, hid]⟩)
  | some id =>
    cases hshard : map.shards[id]? with
    | none =>
      refine .inr (.inr ⟨?_, by simp [updateRolesForSlot, hid, hshard]⟩)
      rintro _ shard ⟨⟩ hsome
      simp [hshard] at hsome
    | some shard =>
      have hself := setShard_self hshard
      rcases shard.attemptShardRoleUpdate_cases node with
        ⟨hprimary, hrole⟩ | ⟨-, hreplica, replicas, hrole⟩ | ⟨hprimary, hreplica, hrole⟩
      · exact .inl ⟨id, shard, rfl, hshard, hprimary,
          by simp [updateRolesForSlot, hid, hshard, hrole, hself]⟩
      · exact .inr (.inl ⟨id, shard, replicas, rfl, hshard, hreplica,
          by simp [updateRolesForSlot, hid, hshard, hrole]⟩)
      · refine .inr (.inr ⟨?_, by simp [updateRolesForSlot, hid, hshard, hrole, hself]⟩)
        rintro _ other ⟨⟩ hother
        obtain rfl : shard = other := Option.some.inj (hshard.symm.trans hother)
        exact ⟨hprimary, hreplica⟩

private theorem ownerOf_of_found (hfound : map.shardAddrsForSlot slot = some id)
    (hshard : map.shards[id]? = some shard) (hmember : shard.primary = node ∨ node ∈ shard.replicas)
    (hnogap : ¬ RedirectsGapToNextShard map slot node) : map.ownerOf slot = some id := by
  cases howner : map.ownerOf slot with
  | none => exact absurd ⟨howner, id, shard, hfound, hshard, hmember⟩ hnogap
  | some other =>
    rw [shardAddrsForSlot_of_ownerOf howner] at hfound
    exact hfound

/--
An accepted redirect is installed, and disturbs nothing else, exactly when it
does not redirect an uncovered slot to a node of the next range's shard.
-/
theorem updateUponMovedError_installs_iff {map : SlotMap} (hwf : map.WellFormed) (slot : Nat)
    (hslot : slot < 2 ^ 16 - 1) (newPrimary : Address) :
    (∀ map', map.updateUponMovedError slot newPrimary = (.ok (), map') →
      InstallsRedirect map map' slot newPrimary) ↔
    ¬ RedirectsGapToNextShard map slot newPrimary := by
  constructor
  · -- a redirect into a gap is accepted and leaves the slot uncovered
    rintro hinstalls ⟨hgap, id, shard, hfound, hshard, hmember⟩
    rcases map.updateRolesForSlot_cases slot newPrimary with
      ⟨_, _, -, -, -, hrole⟩ | ⟨other, _, replicas, -, -, -, hrole⟩ | ⟨hnone, -⟩
    · have hslot := (hinstalls map (by simp [updateUponMovedError, hrole])).slot_lookup
      simp [slotAddrForRoute_master, primaryOf, hgap] at hslot
    · have hslot := (hinstalls (map.setShard other ⟨newPrimary, replicas⟩)
        (by simp [updateUponMovedError, hrole])).slot_lookup
      simp [slotAddrForRoute_master, primaryOf, hgap] at hslot
    · obtain ⟨hprimary, hreplica⟩ := hnone id shard hfound hshard
      exact hmember.elim hprimary hreplica
  · intro hnogap map' hupdate
    rcases map.updateRolesForSlot_cases slot newPrimary with
      ⟨id, shard, hfound, hshard, hprimary, hrole⟩ |
      ⟨id, shard, replicas, hfound, hshard, hreplica, hrole⟩ | ⟨-, hrole⟩
    · obtain rfl : map = map' := by simpa [updateUponMovedError, hrole] using hupdate
      have howner := ownerOf_of_found hfound hshard (.inl hprimary) hnogap
      refine .of_keepsShards hwf ?_ (fun _ kept hkept => ⟨kept, hkept, rfl, .inl rfl⟩)
        fun _ _ => rfl
      simp [primaryOf, howner, hshard, hprimary]
    · obtain rfl : map.setShard id ⟨newPrimary, replicas⟩ = map' := by
        simpa [updateUponMovedError, hrole] using hupdate
      exact .of_promotion (ownerOf_of_found hfound hshard (.inr hreplica) hnogap)
        hshard hreplica rfl
    · have hinstall : map.installFromNodes slot newPrimary = (.ok (), map') := by
        simpa [updateUponMovedError, hrole] using hupdate
      obtain ⟨-, hprimary, hkeeps, hothers⟩ := installFromNodes_spec hwf hslot hinstall
      exact .of_keepsShards hwf hprimary hkeeps hothers

/-! ## Sequences of redirects -/

theorem updateUponMovedError_keeps (hwf : map.WellFormed) (hslot : slot < 2 ^ 16 - 1)
    (newPrimary : Address) :
    (map.updateUponMovedError slot newPrimary).2.WellFormed ∧
      ∀ other, map.primaryOf other ≠ none →
        (map.updateUponMovedError slot newPrimary).2.primaryOf other ≠ none := by
  rcases map.updateRolesForSlot_cases slot newPrimary with
    ⟨_, _, -, -, -, hrole⟩ | ⟨id, _, replicas, -, -, -, hrole⟩ | ⟨-, hrole⟩
  · simpa [updateUponMovedError, hrole] using hwf
  · have hwf' := setShard_wellFormed hwf id ⟨newPrimary, replicas⟩
    simpa [updateUponMovedError, hrole, primaryOf] using hwf'
  · simp only [updateUponMovedError, hrole]
    rcases hinstall : map.installFromNodes slot newPrimary with ⟨⟨error⟩ | ⟨⟩, map'⟩
    · rw [installFromNodes_error hwf hslot hinstall]
      exact ⟨hwf, fun _ hprimary => hprimary⟩
    · obtain ⟨hwf', hnew, hkeeps, hothers⟩ := installFromNodes_spec hwf hslot hinstall
      refine ⟨hwf', fun other hprimary => ?_⟩
      by_cases hother : other = slot
      · simp [hother, hnew]
      · rwa [primaryOf_congr hwf hkeeps (hothers other hother)]

def handleRedirect (map : SlotMap) (redirect : Nat × Address) : Option SlotMap :=
  some (map.updateUponMovedError redirect.1 redirect.2).2

/--
Any sequence of redirects, of slots but the last one of sixteen bits, leaves the slot map a
set of disjoint ranges, in which every slot that had a primary still finds one.
-/
theorem run_handleRedirect_keeps_slots {redirects : List (Nat × Address)} (hwf : map.WellFormed)
    (hslots : ∀ redirect ∈ redirects, redirect.1 < 2 ^ 16 - 1)
    (hrun : run handleRedirect map redirects = some map') :
    map'.WellFormed ∧ ∀ slot, (map.slotAddrForRoute ⟨slot, .master⟩).1 ≠ none →
      (map'.slotAddrForRoute ⟨slot, .master⟩).1 ≠ none := by
  simp only [slotAddrForRoute_master]
  refine run_invariant (fun state => state.WellFormed ∧ ∀ slot, map.primaryOf slot ≠ none →
    state.primaryOf slot ≠ none) ?_ ⟨hwf, fun _ hprimary => hprimary⟩
    (along_of_mem hslots map) hrun
  rintro before ⟨slot, newPrimary⟩ after ⟨hbefore, hkept⟩ hslot hstep
  obtain rfl : (before.updateUponMovedError slot newPrimary).2 = after := by
    simpa [handleRedirect] using hstep
  obtain ⟨hafter, hkeeps⟩ := updateUponMovedError_keeps hbefore hslot newPrimary
  exact ⟨hafter, fun other hprimary => hkeeps other (hkept other hprimary)⟩

/-! ## A gap in front of a range -/

def gappedMap : SlotMap where
  slots := ⟨[(100, ⟨50, 0, 0⟩)], by simp⟩
  nodesMap := ((∅ : NodesMap).insert "a:1" (none, 0)).insert "b:1" (none, 0)
  readFromReplica := .alwaysFromPrimary
  shards := [⟨"a:1", ["b:1"]⟩]
  nodeIndexes := [0]

theorem gappedMap_wellFormed : gappedMap.WellFormed := by
  refine ⟨⟨?_, ?_⟩, ?_, ?_⟩
  · simp [gappedMap, OrderedMap.mem_def]
  · simp [gappedMap, OrderedMap.mem_def]
  · simp [gappedMap, OrderedMap.mem_def]
  · intro address node hlookup
    simp only [gappedMap] at hlookup ⊢
    by_cases hreplica : address = "b:1"
    · rw [hreplica, AList.lookup_insert] at hlookup
      simp [← Option.some.inj hlookup]
    · rw [AList.lookup_insert_ne hreplica] at hlookup
      by_cases hprimary : address = "a:1"
      · rw [hprimary, AList.lookup_insert] at hlookup
        simp [← Option.some.inj hlookup]
      · rw [AList.lookup_insert_ne hprimary] at hlookup
        simp at hlookup

theorem gappedMap_redirects_keep_slots :
    let redirects := [(60, "x:1"), (10, "b:1"), (70, "a:1")]
    ∃ map', run handleRedirect gappedMap redirects = some map' ∧ map'.WellFormed ∧
      (map'.slotAddrForRoute ⟨60, .master⟩).1 ≠ none := by
  intro redirects
  obtain ⟨hwf, hkept⟩ := run_handleRedirect_keeps_slots gappedMap_wellFormed (by decide)
    (rfl : run handleRedirect gappedMap redirects = some _)
  exact ⟨_, rfl, hwf, hkept 60 (Option.some_ne_none "a:1")⟩

theorem updateUponMovedError_gap_not_installed :
    gappedMap.WellFormed ∧
      gappedMap.updateUponMovedError 10 "b:1" =
        (.ok (), gappedMap.setShard 0 ⟨"b:1", ["a:1"]⟩) ∧
      ((gappedMap.setShard 0 ⟨"b:1", ["a:1"]⟩).slotAddrForRoute ⟨10, .master⟩).1 = none ∧
      (gappedMap.slotAddrForRoute ⟨60, .master⟩).1 = some "a:1" ∧
      ((gappedMap.setShard 0 ⟨"b:1", ["a:1"]⟩).slotAddrForRoute ⟨60, .master⟩).1 = some "b:1" ∧
      ¬ InstallsRedirect gappedMap (gappedMap.setShard 0 ⟨"b:1", ["a:1"]⟩) 10 "b:1" := by
  refine ⟨gappedMap_wellFormed, rfl, rfl, rfl, rfl, fun hinstalls => ?_⟩
  have hslot : (none : Option Address) = some "b:1" := hinstalls.slot_lookup
  contradiction

theorem updateUponMovedError_failover_installed :
    InstallsRedirect gappedMap (gappedMap.setShard 0 ⟨"b:1", ["a:1"]⟩) 60 "b:1" := by
  refine (updateUponMovedError_installs_iff gappedMap_wellFormed 60 (by decide)
    "b:1").mpr ?_ _ rfl
  rintro ⟨hgap, -⟩
  have hcovered : gappedMap.ownerOf 60 = some 0 := rfl
  rw [hcovered] at hgap
  contradiction

end ValkeyGlide.Cluster.SlotMap
