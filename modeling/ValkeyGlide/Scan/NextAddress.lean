import Mathlib.Order.Bounds.Basic
import ValkeyGlide.Cluster.SlotLookups
import ValkeyGlide.Scan.Coverage

/-!
# The next address to scan

`next_address_to_scan`, started at the slot that `next_slot` finds
(`cluster_scan.rs`).  `Selection` is what the loop is for, in terms of the slots
that are not scanned yet and the nodes that serve a slot; the loop is shown to
end with a selection for every bitmap and every slot map.
-/

namespace ValkeyGlide.Scan

open Cluster Foundation Protocol

/-! ## Slots and their nodes -/

def Topology.Serves (topology : Topology) (slot : Nat) (address : Address) : Prop :=
  ∃ shard, topology.slotMap.ownerOf slot = some shard ∧ topology.slotMap.HasNode shard address

def Topology.Served (topology : Topology) (slot : Nat) : Prop :=
  ∃ address, topology.Serves slot address

theorem Topology.addressOf_cases (topology : Topology) (slot : Nat) :
    (∃ address, topology.addressOf slot = some address ∧ topology.Serves slot address) ∨
      topology.addressOf slot = none ∧ ¬ topology.Served slot := by
  unfold addressOf SlotMap.nodeAddressForSlot Served Serves SlotMap.ownerOf RangeMap.ownerAt?
    RangeMap.containing?
  cases topology.slotMap.slots.lowerBound slot with
  | none => exact .inr ⟨rfl, by simp⟩
  | some entry =>
    by_cases hstart : entry.2.start ≤ slot
    · by_cases hshard : entry.2.addrs < topology.slotMap.shards.length
      · obtain ⟨address, counters, hnode, hanswer⟩ :=
          SlotMap.getAddressFromSlot_answersFrom hshard .replicaRequired
        simp only [if_pos hstart, hanswer]
        exact .inl ⟨address, rfl, _, rfl, hnode⟩
      · have hnone : topology.slotMap.shards[entry.2.addrs]? = none :=
          List.getElem?_eq_none (Nat.not_lt.mp hshard)
        simp only [if_pos hstart, SlotMap.getAddressFromSlot, hnone]
        refine .inr ⟨trivial, ?_⟩
        rintro ⟨address, shard, hfound, node, hnode, -⟩
        cases hfound
        cases hnone.symm.trans hnode
    · simp only [if_neg hstart]
      exact .inr ⟨trivial, by simp⟩

/-! ## Selections -/

def unscanned (map : SlotsBitsArray) : Set Nat :=
  { slot | slot < slotCount ∧ map.isSet slot = false }

/-- The outcomes of choosing a node: the least unscanned slot that is served decides, and the
slots passed over on the way to it are marked. -/
inductive Selection (topology : Topology) (allow : Bool) (map : SlotsBitsArray) :
    Option (Except RedisError (NextNodeResult × SlotsBitsArray)) → Prop
  | address {least : Nat} {address : Address} {map' : SlotsBitsArray}
      (hleast : IsLeast { slot ∈ unscanned map | topology.Served slot } least)
      (hserves : topology.Serves least address)
      (hallowed : allow = false → map' = map)
      (hmarked : ∀ slot, map'.isSet slot ↔ map.isSet slot ∨
        slot < least ∧ slot ∈ unscanned map ∧ ¬ topology.Served slot) :
      Selection topology allow map (some (.ok (.address address, map')))
  | allSlotsCompleted {map' : SlotsBitsArray}
      (hcompleted : ∀ slot ∈ unscanned map, allow = true ∧ ¬ topology.Served slot) :
      Selection topology allow map (some (.ok (.allSlotsCompleted, map')))
  | notAllSlotsCovered {least : Nat} (hdisallowed : allow = false)
      (hleast : IsLeast (unscanned map) least) (hnot : ¬ topology.Served least) :
      Selection topology allow map (some (.error Scan.notAllSlotsCovered))

section Loop

variable {topology : Topology} {allow : Bool} {slot : Nat} {map marked : SlotsBitsArray}

theorem nextSlot_least (hnext : nextSlot map = some slot) :
    (slot = endOfScan ∧ unscanned map = ∅) ∨ slot < slotCount ∧ IsLeast (unscanned map) slot := by
  rcases nextSlot_cases hnext with ⟨hend, hall⟩ | ⟨hlt, hclear⟩
  · refine .inl ⟨hend, Set.eq_empty_of_forall_notMem fun other ⟨hother, hnot⟩ => ?_⟩
    rw [hall other hother] at hnot
    contradiction
  · refine .inr ⟨hlt, ⟨hlt, hclear⟩, fun other ⟨_, hnot⟩ => ?_⟩
    -- a smaller clear bit would have been found first
    by_contra hless
    unfold nextSlot at hnext
    split_ifs at hnext with hfull
    · exact absurd (Option.some.inj hnext) (Nat.ne_of_gt hlt)
    · rw [Bitmap.isSet_of_lt_firstClear? hnext (Nat.not_le.mp hless)] at hnot
      contradiction

theorem mem_unscanned_marked (hmark : markSlotAsScanned map slot = some marked) {other : Nat} :
    other ∈ unscanned marked ↔ other ∈ unscanned map ∧ other ≠ slot := by
  have hset := Bitmap.isSet_set? hmark other
  simp only [unscanned, Set.mem_ofPred_eq, hset, Bool.or_eq_false_iff, decide_eq_false_iff_not]
  tauto

theorem Selection.of_marked {outcome : Option (Except RedisError (NextNodeResult × SlotsBitsArray))}
    (hleast : IsLeast (unscanned map) slot) (hnot : ¬ topology.Served slot)
    (hmark : markSlotAsScanned map slot = some marked)
    (hselection : Selection topology true marked outcome) :
    Selection topology true map outcome := by
  have hmem : ∀ other, topology.Served other →
      (other ∈ unscanned marked ↔ other ∈ unscanned map) := fun other hserved =>
    (mem_unscanned_marked hmark).trans
      (and_iff_left fun heq => hnot (heq ▸ hserved))
  cases hselection with
  | @address least address map' hleast' hserves hallowed hmarked =>
    obtain ⟨⟨hclear, hserved⟩, hlower⟩ := hleast'
    have hless : slot < least := by
      obtain ⟨hclear, hne⟩ := (mem_unscanned_marked hmark).mp hclear
      exact Nat.lt_of_le_of_ne (hleast.2 hclear) (Ne.symm hne)
    refine .address ⟨⟨(hmem least hserved).mp hclear, hserved⟩, ?_⟩ hserves (nomatch ·) ?_
    · exact fun other ⟨hother, hservedOther⟩ =>
        hlower ⟨(hmem other hservedOther).mpr hother, hservedOther⟩
    · intro other
      rw [hmarked other, mem_unscanned_marked hmark, Bitmap.isSet_set? hmark, Bool.or_eq_true,
        decide_eq_true_iff]
      constructor
      · rintro ((rfl | hset) | ⟨hlt, ⟨hother, -⟩, hunserved⟩)
        · exact .inr ⟨hless, hleast.1, hnot⟩
        · exact .inl hset
        · exact .inr ⟨hlt, hother, hunserved⟩
      · rintro (hset | ⟨hlt, hother, hunserved⟩)
        · exact .inl (.inr hset)
        · by_cases heq : other = slot
          · exact .inl (.inl heq)
          · exact .inr ⟨hlt, ⟨hother, heq⟩, hunserved⟩
  | allSlotsCompleted hcompleted =>
    refine .allSlotsCompleted fun other hother => ⟨rfl, ?_⟩
    by_cases heq : other = slot
    · rwa [heq]
    · exact (hcompleted other ((mem_unscanned_marked hmark).mpr ⟨hother, heq⟩)).2
  | notAllSlotsCovered hdisallowed => exact nomatch hdisallowed

theorem nextAddressLoop_selection {rounds : Nat} (hnext : nextSlot map = some slot)
    (hrounds : map.clear.card < rounds) :
    Selection topology allow map (nextAddressLoop topology allow rounds slot map).run := by
  induction rounds generalizing slot map with
  | zero => contradiction
  | succ rounds ih =>
    unfold nextAddressLoop
    rcases nextSlot_least hnext with ⟨hend, hempty⟩ | ⟨hlt, hleast⟩
    · rw [if_pos hend]
      exact .allSlotsCompleted fun other hother => by simp [hempty] at hother
    · have hend : slot ≠ endOfScan := Nat.ne_of_lt hlt
      rw [if_neg hend]
      rcases topology.addressOf_cases slot with ⟨address, haddress, hserves⟩ | ⟨hnone, hnot⟩
      · rw [haddress]
        refine .address ⟨⟨hleast.1, address, hserves⟩, fun other hother => hleast.2 hother.1⟩
          hserves (fun _ => rfl) fun other => ⟨.inl, ?_⟩
        rintro (hset | ⟨hless, hother, -⟩)
        · exact hset
        · exact absurd (hleast.2 hother) (Nat.not_le.mpr hless)
      · rw [hnone]
        cases allow with
        | false => exact .notAllSlotsCovered rfl hleast hnot
        | true =>
          obtain ⟨marked, next, hmark, hnext', hfewer⟩ := exists_marked hlt hleast.1.2
          have hcard := Nat.lt_of_lt_of_le hfewer (Nat.le_of_lt_succ hrounds)
          refine .of_marked hleast hnot hmark ?_
          rw [if_pos rfl, hmark, lift_some_bind, hnext', lift_some_bind]
          exact ih hnext' hcard

theorem nextAddressToScan_selection (hnext : nextSlot map = some slot) :
    Selection topology allow map (nextAddressToScan topology allow slot map).run := by
  have hle := Bitmap.card_clear_le map
  refine nextAddressLoop_selection hnext ?_
  unfold slotCount
  omega

end Loop

/-! ## Choosing the next node -/

structure Chooses (topology : Topology) (allow : Bool) (map : SlotsBitsArray)
    (choice : Call (NextNodeResult × SlotsBitsArray)) : Prop where
  ends : choice.run ≠ none
  address : ∀ address map', Returns choice (.address address, map') →
    ∃ least, IsLeast { slot ∈ unscanned map | topology.Served slot } least ∧
      topology.Serves least address ∧ (allow = false → map' = map) ∧
      ∀ slot, map'.isSet slot ↔ map.isSet slot ∨
        slot < least ∧ slot ∈ unscanned map ∧ ¬ topology.Served slot
  completed : (∃ map', Returns choice (.allSlotsCompleted, map')) ↔
    ∀ slot ∈ unscanned map, allow = true ∧ ¬ topology.Served slot
  fails : (∃ error, choice.run = some (.error error)) ↔
    allow = false ∧ ∃ least, IsLeast (unscanned map) least ∧ ¬ topology.Served least

theorem Selection.chooses {topology : Topology} {allow : Bool} {map : SlotsBitsArray}
    {choice : Call (NextNodeResult × SlotsBitsArray)}
    (hselection : Selection topology allow map choice.run) :
    Chooses topology allow map choice := by
  generalize hrun : choice.run = outcome at hselection
  cases hselection with
  | address hleast hserves hallowed hmarked =>
    have hclear := hleast.1.1
    have hserved := hleast.1.2
    refine ⟨by simp [hrun], fun address map' hreturns => ?_, ⟨?_, fun hcompleted => ?_⟩, ?_⟩
    · obtain ⟨⟨rfl⟩, rfl⟩ : _ ∧ _ := by simpa [Returns, hrun] using hreturns
      exact ⟨_, hleast, hserves, hallowed, hmarked⟩
    · simp [Returns, hrun]
    · exact absurd hserved (hcompleted _ hclear).2
    · refine ⟨by simp [hrun], ?_⟩
      rintro ⟨hdisallowed, first, hfirst, hnot⟩
      -- the first unscanned slot would lie below the least served one and be marked
      have hless : first < _ := Nat.lt_of_le_of_ne (hfirst.2 hclear)
        fun heq => hnot (heq ▸ hserved)
      have hset := (hmarked first).mpr (.inr ⟨hless, hfirst.1, hnot⟩)
      rw [hallowed hdisallowed, hfirst.1.2] at hset
      contradiction
  | allSlotsCompleted hcompleted =>
    refine ⟨by simp [hrun], ?_, ⟨fun _ => hcompleted, fun _ => ⟨_, hrun⟩⟩, by simp [hrun], ?_⟩
    · simp [Returns, hrun]
    · rintro ⟨rfl, first, hfirst, -⟩
      exact absurd (hcompleted first hfirst.1).1 Bool.false_ne_true
  | notAllSlotsCovered hdisallowed hleast hnot =>
    refine ⟨by simp [hrun], ?_, ⟨?_, fun hcompleted => ?_⟩,
      ⟨fun _ => ⟨hdisallowed, _, hleast, hnot⟩, fun _ => ⟨_, hrun⟩⟩⟩
    · simp [Returns, hrun]
    · simp [Returns, hrun]
    · rw [hdisallowed] at hcompleted
      exact absurd (hcompleted _ hleast.1).1 Bool.false_ne_true

theorem nextAddressToScan_chooses (topology : Topology) (allow : Bool) (map : SlotsBitsArray) :
    ∃ slot, nextSlot map = some slot ∧
      Chooses topology allow map (nextAddressToScan topology allow slot map) := by
  obtain ⟨slot, hnext⟩ := nextSlot_isSome map
  exact ⟨slot, hnext, (nextAddressToScan_selection hnext).chooses⟩

end ValkeyGlide.Scan
