import ValkeyGlide.Cluster.SlotMap

/-!
# Moving one slot to another shard

`updateSlotRange` (`cluster_slotmap.rs`) hands a single slot to a shard by
splitting, shrinking and merging ranges in place.  Its six scenarios are stated
one by one as reassignments of ranges; together they give
`updateSlotRange_spec`: the update always succeeds, keeps the map well formed
and changes the owner of exactly that slot.
-/

namespace ValkeyGlide.Cluster.SlotMap

open Foundation Protocol

/-! ## The update -/

def insertSingleSlot (map : SlotMap) (slot : Nat) (shardAddrs : ShardId) :
    Option SlotMapValue × SlotMap :=
  let (nodeIndex, map) := map.allocNodeIndex
  (map.slots.find? slot, { map with slots := map.slots.insert slot ⟨slot, shardAddrs, nodeIndex⟩ })

def updateEndRange (map : SlotMap) (currEnd newEnd : Nat) : RedisResult Unit × SlotMap :=
  match map.slots.find? currEnd with
  | some currSlotVal =>
    (.ok (), { map with slots := (map.slots.erase currEnd).insert newEnd currSlotVal })
  | none =>
    -- the text of the source is not interpolated
    (.error (.withDescription .clientError
      "Couldn't find slot range with end: \x7bcurr_end:?\x7d in the slot map"), map)

def setStart (map : SlotMap) (rangeEnd start : Nat) : SlotMap :=
  { map with slots := map.slots.modify rangeEnd fun value => { value with start := start } }

def setAddrs (map : SlotMap) (rangeEnd : Nat) (addrs : ShardId) : SlotMap :=
  { map with slots := map.slots.modify rangeEnd fun value => { value with addrs := addrs } }

/-- The slot after the last one of sixteen bits is 0, unless the build checks the sum. -/
def tryMergeToNextRange (map : SlotMap) (slot : Nat) (newAddrs : ShardId) : Bool × SlotMap :=
  match map.slots.lowerBound ((slot + 1) % 2 ^ 16) with
  | some (nextEnd, nextSlotValue) =>
    if nextSlotValue.start = (slot + 1) % 2 ^ 16 ∧ nextSlotValue.addrs = newAddrs then
      (true, map.setStart nextEnd slot)
    else (false, map)
  | none => (false, map)

def tryMergeToPrevRange (map : SlotMap) (slot : Nat) (newAddrs : ShardId) :
    RedisResult Bool × SlotMap :=
  match map.slots.lastBelow slot with
  | some (prevEnd, prevSlotValue) =>
    if prevEnd = slot - 1 ∧ prevSlotValue.addrs = newAddrs then
      match map.updateEndRange prevEnd slot with
      | (.ok (), map) => (.ok true, map)
      | (.error error, map) => (.error error, map)
    else (.ok false, map)
  | none => (.ok false, map)

def updateSlotRange (map : SlotMap) (slot : Nat) (newAddrs : ShardId) :
    RedisResult Unit × SlotMap :=
  -- the first range ending at or after the slot, if it starts at or before it
  match RangeMap.containing? SlotMapValue.start map.slots slot with
  | some (currEnd, currSlotVal) =>
    -- Scenario 1: same shard owner
    if currSlotVal.addrs = newAddrs then
      (.ok (), map)
    -- Scenario 2: the slot is the only slot in the current range
    else if currSlotVal.start = currEnd ∧ currSlotVal.start = slot then
      (.ok (), map.setAddrs currEnd newAddrs)
    -- Scenario 3: the slot matches the end of the current range
    else if slot = currEnd then
      match map.tryMergeToNextRange slot newAddrs with
      | (true, map) => map.updateEndRange currEnd (currEnd - 1)
      | (false, map) =>
        match map.insertSingleSlot currEnd newAddrs with
        | (some currSlotVal, map) =>
          (.ok (), { map with slots := map.slots.insert (currEnd - 1) currSlotVal })
        | (none, map) => (.ok (), map)
    -- Scenario 4: the slot matches the start of the current range
    else if slot = currSlotVal.start then
      let map := map.setStart currEnd (currSlotVal.start + 1)
      match map.tryMergeToPrevRange slot newAddrs with
      | (.error error, map) => (.error error, map)
      | (.ok true, map) => (.ok (), map)
      | (.ok false, map) => (.ok (), (map.insertSingleSlot slot newAddrs).2)
    -- Scenario 5: the slot is within the current range
    else if currSlotVal.start < slot ∧ slot < currEnd then
      let map := map.setStart currEnd (slot + 1)
      let map := { map with slots := map.slots.insert (slot - 1) currSlotVal }
      (.ok (), (map.insertSingleSlot slot newAddrs).2)
    else (.ok (), map)
  -- Scenario 6: the slot is not covered by any existing range
  | none =>
    match map.tryMergeToPrevRange slot newAddrs with
    | (.error error, map) => (.error error, map)
    | (.ok true, map) => (.ok (), map)
    | (.ok false, map) =>
      match map.tryMergeToNextRange slot newAddrs with
      | (true, map) => (.ok (), map)
      | (false, map) => (.ok (), (map.insertSingleSlot slot newAddrs).2)

/-! ## The steps of the update -/

variable {map : SlotMap} {slot : Nat}

theorem updateEndRange_of_mem {currEnd : Nat} {value : SlotMapValue}
    (hmem : (currEnd, value) ∈ map.slots) (newEnd : Nat) :
    map.updateEndRange currEnd newEnd =
      (.ok (), { map with slots := (map.slots.erase currEnd).insert newEnd value }) := by
  simp [updateEndRange, OrderedMap.find?_eq_some_iff.mpr hmem]

theorem tryMergeToPrevRange_cases (map : SlotMap) (slot : Nat) (newAddrs : ShardId) :
    map.tryMergeToPrevRange slot newAddrs = (.ok false, map) ∨
    ∃ prevEnd prev, (prevEnd, prev) ∈ map.slots ∧ prevEnd + 1 = slot ∧
      prev.addrs = newAddrs ∧
      map.tryMergeToPrevRange slot newAddrs =
        (.ok true, { map with slots := (map.slots.erase prevEnd).insert slot prev }) := by
  unfold tryMergeToPrevRange
  cases hlast : map.slots.lastBelow slot with
  | none => exact .inl rfl
  | some entry =>
    obtain ⟨prevEnd, prev⟩ := entry
    obtain ⟨hmem, hlt⟩ := OrderedMap.lastBelow_eq_some hlast
    by_cases hmerge : prevEnd = slot - 1 ∧ prev.addrs = newAddrs
    · refine .inr ⟨prevEnd, prev, hmem, ?_, hmerge.2, ?_⟩
      · have : prevEnd < slot := hlt
        omega
      · simp [hmerge, updateEndRange_of_mem (hmerge.1 ▸ hmem)]
    · exact .inl (by simp [hmerge])

theorem tryMergeToNextRange_cases (map : SlotMap) (slot : Nat) (newAddrs : ShardId) :
    map.tryMergeToNextRange slot newAddrs = (false, map) ∨
    ∃ nextEnd next, (nextEnd, next) ∈ map.slots ∧ (slot + 1) % 2 ^ 16 ≤ nextEnd ∧
      next.start = (slot + 1) % 2 ^ 16 ∧ next.addrs = newAddrs ∧
      map.tryMergeToNextRange slot newAddrs = (true, map.setStart nextEnd slot) := by
  unfold tryMergeToNextRange
  cases hbound : map.slots.lowerBound ((slot + 1) % 2 ^ 16) with
  | none => exact .inl rfl
  | some entry =>
    obtain ⟨nextEnd, next⟩ := entry
    obtain ⟨hmem, hle, -⟩ := OrderedMap.lowerBound_eq_some_iff.mp hbound
    by_cases hmerge : next.start = (slot + 1) % 2 ^ 16 ∧ next.addrs = newAddrs
    · exact .inr ⟨nextEnd, next, hmem, hle, hmerge.1, hmerge.2, by simp only [if_pos hmerge]⟩
    · exact .inl (by simp only [if_neg hmerge])

/-! ## The scenarios as reassignments -/

/-- `after` hands `slot` to `newAddrs` and leaves every other slot with its owner. -/
def Reassigns (before after : OrderedMap Nat SlotMapValue) (slot : Nat)
    (newAddrs : ShardId) : Prop :=
  RangeMap.Reassign SlotMapValue.start SlotMapValue.addrs before after slot newAddrs

section Scenarios

variable {slots after : OrderedMap Nat SlotMapValue} {slot currEnd prevEnd nextEnd : Nat}
  {curr prev next : SlotMapValue} {newAddrs : ShardId}

-- the conditions on ranges, as inequalities between their ends
private theorem reassigns_of_ranges (hvalid : RangeMap.Valid SlotMapValue.start slots)
    (hranges : (∀ entry ∈ slots, entry.2.start ≤ entry.1) →
      (∀ first ∈ slots, ∀ second ∈ slots, first.1 < second.1 → first.1 < second.2.start) →
      (∀ entry ∈ after, entry.2.start ≤ entry.1) ∧
      (∀ first ∈ after, ∀ second ∈ after, first.1 < second.1 → first.1 < second.2.start) ∧
      ∀ point shard,
        (∃ rangeEnd value, (rangeEnd, value) ∈ after ∧ value.start ≤ point ∧ point ≤ rangeEnd ∧
          value.addrs = shard) ↔
        if point = slot then shard = newAddrs
        else ∃ rangeEnd value, (rangeEnd, value) ∈ slots ∧ value.start ≤ point ∧
          point ≤ rangeEnd ∧ value.addrs = shard) :
    Reassigns slots after slot newAddrs := by
  obtain ⟨hnonempty, hseparated⟩ := (RangeMap.valid_iff_separated _).mp hvalid
  obtain ⟨hafter, hapart, howned⟩ := hranges hnonempty hseparated
  refine ⟨(RangeMap.valid_iff_separated _).mpr ⟨hafter, hapart⟩, fun point shard => ?_⟩
  simpa [RangeMap.Owned, RangeMap.Covers, and_assoc] using howned point shard

section

variable (hvalid : RangeMap.Valid SlotMapValue.start slots)
include hvalid

section Covered

variable (hmem : (currEnd, curr) ∈ slots)
include hmem

private theorem reassigns_self (hlow : curr.start ≤ slot) (hhigh : slot ≤ currEnd) :
    Reassigns slots slots slot curr.addrs := by
  refine reassigns_of_ranges hvalid fun hnonempty hseparated => ?_
  refine ⟨hnonempty, hseparated, ?_⟩
  grind

private theorem reassigns_setAddrs (hstart : curr.start = currEnd) :
    Reassigns slots (slots.modify currEnd fun value => { value with addrs := newAddrs })
      currEnd newAddrs := by
  refine reassigns_of_ranges hvalid fun hnonempty hseparated => ?_
  simp only [OrderedMap.mem_modify_of_mem hmem]
  grind

private theorem reassigns_shrinkEnd_mergeNext (hstart : curr.start < currEnd)
    (hnext : (nextEnd, next) ∈ slots) (hlt : currEnd < nextEnd)
    (hnextStart : next.start = currEnd + 1) :
    Reassigns slots
      (((slots.modify nextEnd fun value => { value with start := currEnd }).erase currEnd).insert
        (currEnd - 1) curr) currEnd next.addrs := by
  refine reassigns_of_ranges hvalid fun hnonempty hseparated => ?_
  simp only [OrderedMap.mem_insert, OrderedMap.mem_erase, OrderedMap.mem_modify_of_mem hnext]
  grind

private theorem reassigns_shrinkEnd_insert (hstart : curr.start < currEnd)
    (nodeIndex : NodeIndexId) :
    Reassigns slots
      ((slots.insert currEnd ⟨currEnd, newAddrs, nodeIndex⟩).insert (currEnd - 1) curr)
      currEnd newAddrs := by
  refine reassigns_of_ranges hvalid fun hnonempty hseparated => ?_
  simp only [OrderedMap.mem_insert]
  grind

private theorem reassigns_raiseStart_mergePrev (hlt : curr.start < currEnd)
    (hprev : (prevEnd, prev) ∈ slots) (hprevEnd : prevEnd + 1 = curr.start) :
    Reassigns slots
      (((slots.modify currEnd fun value => { value with start := curr.start + 1 }).erase
        prevEnd).insert curr.start prev) curr.start prev.addrs := by
  refine reassigns_of_ranges hvalid fun hnonempty hseparated => ?_
  simp only [OrderedMap.mem_insert, OrderedMap.mem_erase, OrderedMap.mem_modify_of_mem hmem]
  grind

private theorem reassigns_raiseStart_insert (hlt : curr.start < currEnd) (nodeIndex : NodeIndexId) :
    Reassigns slots
      ((slots.modify currEnd fun value => { value with start := curr.start + 1 }).insert
        curr.start ⟨curr.start, newAddrs, nodeIndex⟩) curr.start newAddrs := by
  refine reassigns_of_ranges hvalid fun hnonempty hseparated => ?_
  simp only [OrderedMap.mem_insert, OrderedMap.mem_modify_of_mem hmem]
  grind

private theorem reassigns_split (hstart : curr.start < slot) (hlt : slot < currEnd)
    (nodeIndex : NodeIndexId) :
    Reassigns slots
      (((slots.modify currEnd fun value => { value with start := slot + 1 }).insert
        (slot - 1) curr).insert slot ⟨slot, newAddrs, nodeIndex⟩) slot newAddrs := by
  refine reassigns_of_ranges hvalid fun hnonempty hseparated => ?_
  simp only [OrderedMap.mem_insert, OrderedMap.mem_modify_of_mem hmem]
  grind

end Covered

variable (hfree : ∀ entry ∈ slots, ¬ RangeMap.Covers SlotMapValue.start entry slot)
include hfree

private theorem reassigns_mergePrev (hprev : (prevEnd, prev) ∈ slots)
    (hprevEnd : prevEnd + 1 = slot) :
    Reassigns slots ((slots.erase prevEnd).insert slot prev) slot prev.addrs := by
  refine reassigns_of_ranges hvalid fun hnonempty hseparated => ?_
  simp only [RangeMap.Covers] at hfree
  simp only [OrderedMap.mem_insert, OrderedMap.mem_erase]
  grind

private theorem reassigns_mergeNext (hnext : (nextEnd, next) ∈ slots) (hlt : slot < nextEnd)
    (hstart : next.start = slot + 1) :
    Reassigns slots (slots.modify nextEnd fun value => { value with start := slot })
      slot next.addrs := by
  refine reassigns_of_ranges hvalid fun hnonempty hseparated => ?_
  simp only [RangeMap.Covers] at hfree
  simp only [OrderedMap.mem_modify_of_mem hnext]
  grind

private theorem reassigns_insert (nodeIndex : NodeIndexId) :
    Reassigns slots (slots.insert slot ⟨slot, newAddrs, nodeIndex⟩) slot newAddrs := by
  refine reassigns_of_ranges hvalid fun hnonempty hseparated => ?_
  simp only [RangeMap.Covers] at hfree
  simp only [OrderedMap.mem_insert, or_and_right, exists_or, Prod.mk.injEq, exists_eq_left,
    and_assoc, exists_and_left]
  grind

end

end Scenarios

/-! ## The specification -/

/-- What `updateSlotRange` leaves alone, and how it reassigns the slot. -/
structure Updates (map map' : SlotMap) (slot : Nat) (newAddrs : ShardId) : Prop where
  shards : map'.shards = map.shards
  nodesMap : map'.nodesMap = map.nodesMap
  readFromReplica : map'.readFromReplica = map.readFromReplica
  reassigns : Reassigns map.slots map'.slots slot newAddrs

private theorem Updates.of_slots {slots : OrderedMap Nat SlotMapValue} {newAddrs : ShardId}
    (hreassigns : Reassigns map.slots slots slot newAddrs) (nodeIndexes : List Nat) :
    Updates map { map with slots := slots, nodeIndexes := nodeIndexes } slot newAddrs :=
  ⟨rfl, rfl, rfl, hreassigns⟩

section

variable (hvalid : RangeMap.Valid SlotMapValue.start map.slots) (hslot : slot < 2 ^ 16 - 1)
include hvalid hslot

private theorem updateSlotRange_covered (newAddrs : ShardId) {currEnd : Nat} {curr : SlotMapValue}
    (hcurr : RangeMap.containing? SlotMapValue.start map.slots slot = some (currEnd, curr)) :
    ∃ map', map.updateSlotRange slot newAddrs = (.ok (), map') ∧
      Updates map map' slot newAddrs := by
  obtain ⟨hmem, hlow, hhigh⟩ := (RangeMap.containing?_eq_some_iff hvalid).mp hcurr
  have hnextSlot : (slot + 1) % 2 ^ 16 = slot + 1 := Nat.mod_eq_of_lt (by omega)
  simp only at hlow hhigh
  simp only [updateSlotRange, hcurr]
  by_cases hsame : curr.addrs = newAddrs
  · subst hsame
    exact ⟨map, if_pos rfl, .of_slots (reassigns_self hvalid hmem hlow hhigh) _⟩
  rw [if_neg hsame]
  by_cases hsingle : curr.start = currEnd ∧ curr.start = slot
  · obtain rfl : slot = currEnd := by omega
    exact ⟨map.setAddrs slot newAddrs, if_pos hsingle,
      .of_slots (reassigns_setAddrs hvalid hmem hsingle.1) _⟩
  rw [if_neg hsingle]
  by_cases hend : slot = currEnd
  · subst hend
    rw [if_pos rfl]
    have hstart : curr.start < slot := by omega
    rcases map.tryMergeToNextRange_cases slot newAddrs with
      hmerge | ⟨nextEnd, next, hnext, hle, hnextStart, rfl, hmerge⟩
    · have hfind := OrderedMap.find?_eq_some_iff.mpr hmem
      refine ⟨_, ?_, .of_slots (reassigns_shrinkEnd_insert hvalid hmem hstart
        map.nodeIndexes.length) (map.nodeIndexes ++ [0])⟩
      simp [hmerge, insertSingleSlot, allocNodeIndex, hfind]
    · rw [hnextSlot] at hle hnextStart
      have hlt : slot < nextEnd := hle
      have hkept : (slot, curr) ∈ (map.setStart nextEnd slot).slots :=
        OrderedMap.mem_modify.mpr (.inl ⟨hmem, hlt.ne⟩)
      refine ⟨_, ?_, .of_slots (reassigns_shrinkEnd_mergeNext hvalid hmem hstart hnext hlt
        hnextStart) map.nodeIndexes⟩
      simp only [hmerge, updateEndRange_of_mem hkept]
      rfl
  rw [if_neg hend]
  have hlt : slot < currEnd := by omega
  by_cases hstart : slot = curr.start
  · subst hstart
    rw [if_pos rfl]
    rcases (map.setStart currEnd (curr.start + 1)).tryMergeToPrevRange_cases curr.start newAddrs with
      hmerge | ⟨prevEnd, prev, hprev, hprevEnd, rfl, hmerge⟩
    · refine ⟨_, ?_, .of_slots (reassigns_raiseStart_insert hvalid hmem hlt
        map.nodeIndexes.length) (map.nodeIndexes ++ [0])⟩
      simp only [hmerge]
      rfl
    · have hprevMem : (prevEnd, prev) ∈ map.slots := by
        rcases (OrderedMap.mem_modify_of_mem hmem).mp hprev with heq | ⟨hkept, -⟩
        · have : prevEnd = currEnd := congrArg Prod.fst heq
          omega
        · exact hkept
      refine ⟨_, ?_, .of_slots (reassigns_raiseStart_mergePrev hvalid hmem hlt hprevMem
        hprevEnd) map.nodeIndexes⟩
      simp only [hmerge]
      rfl
  · have hlow' : curr.start < slot := by omega
    rw [if_neg hstart, if_pos ⟨hlow', hlt⟩]
    exact ⟨_, rfl, .of_slots (reassigns_split hvalid hmem hlow' hlt
      map.nodeIndexes.length) (map.nodeIndexes ++ [0])⟩

private theorem updateSlotRange_uncovered
    (newAddrs : ShardId) (hcurr : RangeMap.containing? SlotMapValue.start map.slots slot = none) :
    ∃ map', map.updateSlotRange slot newAddrs = (.ok (), map') ∧
      Updates map map' slot newAddrs := by
  have hfree := (RangeMap.containing?_eq_none_iff hvalid).mp hcurr
  have hnextSlot : (slot + 1) % 2 ^ 16 = slot + 1 := Nat.mod_eq_of_lt (by omega)
  simp only [updateSlotRange, hcurr]
  rcases map.tryMergeToPrevRange_cases slot newAddrs with
    hprev | ⟨prevEnd, prev, hmem, hprevEnd, rfl, hprev⟩
  · rcases map.tryMergeToNextRange_cases slot newAddrs with
      hnext | ⟨nextEnd, next, hmem, hle, hstart, rfl, hnext⟩
    · refine ⟨_, ?_, .of_slots (reassigns_insert hvalid hfree
        map.nodeIndexes.length) (map.nodeIndexes ++ [0])⟩
      simp only [hprev, hnext]
      rfl
    · rw [hnextSlot] at hle hstart
      refine ⟨_, ?_, .of_slots (reassigns_mergeNext hvalid hfree hmem hle hstart) map.nodeIndexes⟩
      simp only [hprev, hnext]
      rfl
  · refine ⟨_, ?_, .of_slots (reassigns_mergePrev hvalid hfree hmem hprevEnd)
      map.nodeIndexes⟩
    simp [hprev]

theorem updateSlotRange_spec (newAddrs : ShardId) :
    ∃ map', map.updateSlotRange slot newAddrs = (.ok (), map') ∧
      Updates map map' slot newAddrs := by
  cases hcurr : RangeMap.containing? SlotMapValue.start map.slots slot with
  | none => exact updateSlotRange_uncovered hvalid hslot newAddrs hcurr
  | some entry => exact updateSlotRange_covered hvalid hslot newAddrs hcurr

end

namespace Updates

variable {map map' : SlotMap} {slot : Nat} {newAddrs : ShardId}

theorem ranges (hupdates : Updates map map' slot newAddrs) :
    RangeMap.Valid SlotMapValue.start map'.slots := hupdates.reassigns.valid

theorem ownerOf_slot (hupdates : Updates map map' slot newAddrs) :
    map'.ownerOf slot = some newAddrs := hupdates.reassigns.ownerAt?_point

theorem ownerOf_of_ne (hvalid : RangeMap.Valid SlotMapValue.start map.slots)
    (hupdates : Updates map map' slot newAddrs) {other : Nat} (hne : other ≠ slot) :
    map'.ownerOf other = map.ownerOf other := hupdates.reassigns.ownerAt?_of_ne hvalid hne

theorem wellFormed (hwf : map.WellFormed) (hupdates : Updates map map' slot newAddrs)
    (hnew : newAddrs < map.shards.length) : map'.WellFormed where
  ranges := hupdates.ranges
  slot_shards := by
    intro entry hentry
    rw [hupdates.shards]
    -- the end of a stored range is a slot, and its owner is the shard of the range
    have howner : map'.ownerOf entry.1 = some entry.2.addrs :=
      hupdates.ranges.ownerAt?_key hentry
    by_cases hslot : entry.1 = slot
    · rw [hslot, hupdates.ownerOf_slot] at howner
      simpa [← Option.some.inj howner] using hnew
    · rw [hupdates.ownerOf_of_ne hwf.ranges hslot] at howner
      exact ownerOf_lt_length hwf howner
  node_shards := by
    intro address node hlookup
    rw [hupdates.nodesMap] at hlookup
    rw [hupdates.shards]
    exact hwf.node_shards address node hlookup

theorem bounded (hvalid : RangeMap.Valid SlotMapValue.start map.slots)
    (hupdates : Updates map map' slot newAddrs) {bound : Nat} (hslot : slot < bound)
    (hbound : ∀ entry ∈ map.slots, entry.1 < bound) : ∀ entry ∈ map'.slots, entry.1 < bound := by
  intro entry hentry
  have howner : map'.ownerOf entry.1 = some entry.2.addrs :=
    hupdates.ranges.ownerAt?_key hentry
  by_cases hsame : entry.1 = slot
  · rw [hsame]
    exact hslot
  · rw [hupdates.ownerOf_of_ne hvalid hsame] at howner
    obtain ⟨old, hold, hcovers, -⟩ := (RangeMap.ownerAt?_eq_some_iff hvalid).mp howner
    exact hcovers.2.trans_lt (hbound old hold)

end Updates

/-! ## The update seen by a lookup -/

def shardForRoute (map : SlotMap) (route : Route) : Option ShardId :=
  (map.slotValueForRoute route).map SlotMapValue.addrs

theorem shardForRoute_eq (map : SlotMap) (route : Route) :
    map.shardForRoute route = map.ownerOf route.slot := by
  simp [shardForRoute, slotValueForRoute_eq, ownerOf, RangeMap.ownerAt?, Function.comp_def]

structure PointUpdate (map map' : SlotMap) (slot : Nat) (shard : ShardId) : Prop where
  slot_lookup : ∀ slotAddr, map'.shardForRoute ⟨slot, slotAddr⟩ = some shard
  other_lookup : ∀ other slotAddr, other ≠ slot →
    map'.shardForRoute ⟨other, slotAddr⟩ = map.shardForRoute ⟨other, slotAddr⟩
  shards : map'.shards = map.shards
  ranges : RangeMap.Valid SlotMapValue.start map'.slots
  bounded : ∀ entry ∈ map'.slots, entry.1 < slotCount

theorem updateSlotRange_pointUpdate {map : SlotMap}
    (hvalid : RangeMap.Valid SlotMapValue.start map.slots)
    (hbounded : ∀ entry ∈ map.slots, entry.1 < slotCount) {slot : Nat} (hslot : slot < slotCount)
    (shard : ShardId) :
    ∃ map', map.updateSlotRange slot shard = (.ok (), map') ∧ PointUpdate map map' slot shard := by
  obtain ⟨map', hupdate, hupdates⟩ :=
    updateSlotRange_spec hvalid (hslot.trans (by decide)) shard
  refine ⟨map', hupdate, ?_, ?_, hupdates.shards, hupdates.ranges,
    hupdates.bounded hvalid hslot hbounded⟩
  · intro slotAddr
    rw [shardForRoute_eq]
    exact hupdates.ownerOf_slot
  · intro other slotAddr hne
    rw [shardForRoute_eq, shardForRoute_eq]
    exact hupdates.ownerOf_of_ne hvalid hne

def twoShardMap : SlotMap where
  slots := ⟨[(100, ⟨50, 0, 0⟩), (300, ⟨200, 1, 1⟩)], by simp⟩
  nodesMap := ∅
  readFromReplica := .alwaysFromPrimary
  shards := [⟨"a:1", []⟩, ⟨"c:1", []⟩]
  nodeIndexes := [0, 0]

theorem twoShardMap_ranges : RangeMap.Valid SlotMapValue.start twoShardMap.slots := by
  constructor
  · simp [twoShardMap, OrderedMap.mem_def]
  · simp only [twoShardMap, OrderedMap.mem_def, RangeMap.Covers, List.mem_cons,
      List.not_mem_nil, or_false]
    rintro first (rfl | rfl) second (rfl | rfl) point ⟨hlow, hhigh⟩ ⟨hlow', hhigh'⟩
    · rfl
    · simp only at hhigh hlow'
      omega
    · simp only at hhigh' hlow
      omega
    · rfl

theorem inner_slot_updated :
    ∃ map', twoShardMap.updateSlotRange 75 1 = (.ok (), map') ∧
      PointUpdate twoShardMap map' 75 1 :=
  updateSlotRange_pointUpdate twoShardMap_ranges
    (by simp [twoShardMap, OrderedMap.mem_def, slotCount]) (by decide) 1

end ValkeyGlide.Cluster.SlotMap
