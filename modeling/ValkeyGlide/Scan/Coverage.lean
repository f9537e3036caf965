import ValkeyGlide.Foundation.Returns
import ValkeyGlide.Foundation.Run
import ValkeyGlide.Scan.State

/-!
# Coverage of a cluster scan

Which slots a call may mark as scanned, and what that means for a whole scan.
-/

namespace ValkeyGlide.Scan

open Cluster Foundation Protocol

def Topology.Covers (topology : Topology) (slot : Nat) : Prop := topology.addressOf slot ≠ none

/-! ## Selecting an address -/

section Select

variable {topology : Topology} {allow : Bool} {slot rounds : Nat} {map map' : SlotsBitsArray}
  {state : ScanState}

theorem nextSlot_isSome (map : SlotsBitsArray) : ∃ slot, nextSlot map = some slot := by
  unfold nextSlot
  split_ifs with hfull
  · exact ⟨_, rfl⟩
  · cases hfirst : map.firstClear? with
    | some slot => exact ⟨slot, rfl⟩
    | none =>
      exact absurd (Bitmap.isFull_iff.mpr fun index hlt =>
        Bitmap.isSet_of_firstClear?_eq_none hfirst hlt) hfull

theorem nextSlot_cases (hnext : nextSlot map = some slot) :
    (slot = endOfScan ∧ ∀ other < slotCount, map.isSet other) ∨
      slot < slotCount ∧ map.isSet slot = false := by
  unfold nextSlot at hnext
  split_ifs at hnext with hfull
  · exact .inl ⟨(Option.some.inj hnext).symm, Bitmap.isFull_iff.mp hfull⟩
  · exact .inr (Bitmap.firstClear?_eq_some hnext)

structure Marks (topologies : List Topology) (allow : Bool) (map map' : SlotsBitsArray) : Prop where
  kept : ∀ slot, map.isSet slot → map'.isSet slot
  gained : ∀ slot, map'.isSet slot →
    map.isSet slot ∨ allow = true ∧ ∃ topology ∈ topologies, ¬ topology.Covers slot

theorem Marks.refl (topologies : List Topology) (allow : Bool) (map : SlotsBitsArray) :
    Marks topologies allow map map :=
  ⟨fun _ => id, fun _ => .inl⟩

theorem Marks.trans {topologies : List Topology} {map'' : SlotsBitsArray}
    (hfirst : Marks topologies allow map map') (hsecond : Marks topologies allow map' map'') :
    Marks topologies allow map map'' where
  kept slot hset := hsecond.kept slot (hfirst.kept slot hset)
  gained slot hset := (hsecond.gained slot hset).elim (hfirst.gained slot) .inr

theorem Marks.mono {few many : List Topology} (hmarks : Marks few allow map map')
    (hsub : few ⊆ many) : Marks many allow map map' where
  kept := hmarks.kept
  gained slot hset := (hmarks.gained slot hset).imp_right fun ⟨hallow, topology, hmem, hcovers⟩ =>
    ⟨hallow, topology, hsub hmem, hcovers⟩

theorem marks_markSlotAsScanned (hmark : markSlotAsScanned map slot = some map')
    (hallow : allow = true) (hcovers : ¬ topology.Covers slot) :
    Marks [topology] allow map map' := by
  have hset := Bitmap.isSet_set? hmark
  constructor
  · intro other hother
    simp [hset, hother]
  · intro other hother
    rw [hset, Bool.or_eq_true, decide_eq_true_iff] at hother
    rcases hother with rfl | hother
    · exact .inr ⟨hallow, topology, List.mem_singleton.mpr rfl, hcovers⟩
    · exact .inl hother

theorem nextAddressLoop_returns {result : NextNodeResult} (hnext : nextSlot map = some slot)
    (hloop : Returns (nextAddressLoop topology allow rounds slot map) (result, map')) :
    Marks [topology] allow map map' ∧
      (result = .allSlotsCompleted ∧ (∀ other < slotCount, map'.isSet other) ∨
        ∃ address other, result = .address address ∧ other < slotCount ∧
          map'.isSet other = false ∧ topology.addressOf other = some address) := by
  induction rounds generalizing slot map with
  | zero => simp [nextAddressLoop] at hloop
  | succ rounds ih =>
    unfold nextAddressLoop at hloop
    rcases nextSlot_cases hnext with ⟨hend, hall⟩ | ⟨hlt, hclear⟩
    · rw [if_pos hend, returns_pure, Prod.mk.injEq] at hloop
      obtain ⟨rfl, rfl⟩ := hloop
      exact ⟨.refl _ _ _, .inl ⟨rfl, hall⟩⟩
    · have hend : slot ≠ endOfScan := Nat.ne_of_lt hlt
      rw [if_neg hend] at hloop
      split at hloop
      next address haddress =>
        rw [returns_pure, Prod.mk.injEq] at hloop
        obtain ⟨rfl, rfl⟩ := hloop
        exact ⟨.refl _ _ _, .inr ⟨address, slot, rfl, hlt, hclear, haddress⟩⟩
      next haddress =>
        split_ifs at hloop with hallow
        · simp only [returns_bind, returns_lift] at hloop
          obtain ⟨marked, hmark, next, hnext', hloop⟩ := hloop
          obtain ⟨hmarks, hresult⟩ := ih hnext' hloop
          have hfirst := marks_markSlotAsScanned hmark hallow (not_not.mpr haddress)
          exact ⟨hfirst.trans hmarks, hresult⟩
        · simp at hloop

theorem exists_marked (hlt : slot < slotCount) (hclear : map.isSet slot = false) :
    ∃ marked next, markSlotAsScanned map slot = some marked ∧ nextSlot marked = some next ∧
      marked.clear.card < map.clear.card := by
  have hbound : slot < 64 * 256 := hlt
  obtain ⟨marked, hmark⟩ : ∃ marked, markSlotAsScanned map slot = some marked :=
    Bitmap.set?_isSome hbound
  obtain ⟨next, hnext⟩ := nextSlot_isSome marked
  exact ⟨marked, next, hmark, hnext, Bitmap.card_clear_lt hmark hbound hclear⟩

theorem nextAddressLoop_ends (hnext : nextSlot map = some slot)
    (hrounds : map.clear.card < rounds) :
    (∃ result, Returns (nextAddressLoop topology allow rounds slot map) result) ∨
      allow = false ∧
        (nextAddressLoop topology allow rounds slot map).run = some (.error notAllSlotsCovered) := by
  induction rounds generalizing slot map with
  | zero => contradiction
  | succ rounds ih =>
    unfold nextAddressLoop
    rcases nextSlot_cases hnext with ⟨hend, -⟩ | ⟨hlt, hclear⟩
    · rw [if_pos hend]
      exact .inl ⟨_, returns_pure.mpr rfl⟩
    · have hend : slot ≠ endOfScan := Nat.ne_of_lt hlt
      rw [if_neg hend]
      cases topology.addressOf slot with
      | some address => exact .inl ⟨_, returns_pure.mpr rfl⟩
      | none =>
        cases allow with
        | false => exact .inr ⟨rfl, rfl⟩
        | true =>
          obtain ⟨marked, next, hmark, hnext', hfewer⟩ := exists_marked hlt hclear
          have hcard := Nat.lt_of_lt_of_le hfewer (Nat.le_of_lt_succ hrounds)
          rcases ih hnext' hcard with ⟨result, hresult⟩ | ⟨hallow, -⟩
          · exact .inl ⟨result, by simp [hmark, hnext', hresult]⟩
          · exact nomatch hallow

structure SelectedIn (topology : Topology) (state : ScanState) : Prop where
  left : ∃ other < slotCount, state.scannedSlotsMap.isSet other = false
  routed : ∃ other, topology.addressOf other = some state.addressInScan
  epoch : state.addressEpoch = topology.epochOrZero state.addressInScan
  status : state.scanStatus = .inProgress

theorem selectFrom_returns {selected : Option ScanState} (hnext : nextSlot map = some slot)
    (hselect : Returns (selectFrom topology allow slot map) selected) :
    (selected = none ∧ ∀ other < slotCount, map.isSet other ∨
      allow = true ∧ ¬ topology.Covers other) ∨
    ∃ state, selected = some state ∧ Marks [topology] allow map state.scannedSlotsMap ∧
      SelectedIn topology state := by
  unfold selectFrom at hselect
  rw [returns_bind] at hselect
  obtain ⟨⟨result, map'⟩, hloop, hselect⟩ := hselect
  obtain ⟨hmarks, ⟨rfl, hall⟩ | ⟨address, other, rfl, hlt, hclear, haddress⟩⟩ :=
    nextAddressLoop_returns hnext hloop
  · refine .inl ⟨(returns_pure.mp hselect).symm, fun other hlt => ?_⟩
    simpa using hmarks.gained other (hall other hlt)
  · obtain rfl := returns_pure.mp hselect
    exact .inr ⟨_, rfl, hmarks, ⟨other, hlt, hclear⟩, ⟨other, haddress⟩, rfl, rfl⟩

theorem selectFrom_exhausted (hnext : nextSlot map = some slot)
    (hall : ∀ other < slotCount, map.isSet other = false → topology.addressOf other = none) :
    Returns (selectFrom topology true slot map) none := by
  have hle := Bitmap.card_clear_le map
  have hrounds : map.clear.card < slotCount + 1 := by
    unfold slotCount
    omega
  rw [selectFrom, returns_bind]
  unfold nextAddressToScan
  generalize slotCount + 1 = rounds at hrounds ⊢
  rcases nextAddressLoop_ends hnext hrounds with ⟨⟨result, map'⟩, hloop⟩ | ⟨hallow, -⟩
  · obtain ⟨hmarks, ⟨rfl, -⟩ | ⟨address, other, rfl, hlt, hclear, haddress⟩⟩ :=
      nextAddressLoop_returns hnext hloop
    · exact ⟨_, hloop, returns_pure.mpr rfl⟩
    · have hbefore : map.isSet other = false :=
        Bool.eq_false_of_not_eq_true fun hset => by simp [hmarks.kept other hset] at hclear
      exact nomatch (hall other hlt hbefore).symm.trans haddress
  · exact nomatch hallow

theorem nextSlot_zero : nextSlot (.zero 256) = some 0 := by decide +kernel

theorem nextSlot_getD (map : SlotsBitsArray) : nextSlot map = some ((nextSlot map).getD 0) := by
  obtain ⟨slot, hslot⟩ := nextSlot_isSome map
  rw [hslot, Option.getD_some]

theorem newScanState_returns (hstate : Returns (newScanState topology allow map) state) :
    (state = .createFinishedState ∧ ∀ other < slotCount, map.isSet other ∨
      allow = true ∧ ¬ topology.Covers other) ∨
    Marks [topology] allow map state.scannedSlotsMap ∧ SelectedIn topology state := by
  obtain ⟨selected, hselect, rfl⟩ := returns_map.mp hstate
  obtain ⟨rfl, hall⟩ | ⟨state, rfl, hmarks, hselected⟩ :=
    selectFrom_returns (nextSlot_getD map) hselect
  · exact .inl ⟨rfl, hall⟩
  · exact .inr ⟨hmarks, hselected⟩

theorem initiateScan_eq : initiateScan topology allow = newScanState topology allow (.zero 256) := by
  rw [initiateScan, newScanState, nextSlot_zero]
  rfl

end Select

/-! ## The parts of a call -/

def retried (attempts : List Attempt) : List Topology :=
  attempts.filterMap fun attempt =>
    match attempt with
    | .failure _ (.ok topology) => some topology
    | _ => none

/-- The topology in which the address of the reply was selected, if a failure came before it. -/
def lastRetried : List Attempt → Option Topology
  | .failure _ (.ok topology) :: rest => some ((lastRetried rest).getD topology)
  | _ => none

variable {topology : Topology} {state : ScanState}

theorem mem_retried_of_lastRetried {attempts : List Attempt}
    (hlast : lastRetried attempts = some topology) : topology ∈ retried attempts := by
  fun_induction lastRetried attempts generalizing topology with
  | case1 error first rest ih =>
    obtain rfl := Option.some.inj hlast
    show _ ∈ first :: retried rest
    cases hrest : lastRetried rest with
    | none => exact List.mem_cons_self ..
    | some last => exact List.mem_cons_of_mem _ (ih hrest)
  | case2 => contradiction

section Parts

variable {allow : Bool} {state scanned : ScanState}

theorem tryScan_returns {topology : Topology} {attempts : List Attempt} {reply : Nat × List Value}
    (hscan : Returns (tryScan allow topology state attempts) (reply, scanned)) :
    (∀ other < slotCount, state.scannedSlotsMap.isSet other ∨
      allow = true ∧ ∃ topology ∈ retried attempts, ¬ topology.Covers other) ∨
    Marks (retried attempts) allow state.scannedSlotsMap scanned.scannedSlotsMap ∧
      (lastRetried attempts = none ∧ scanned = state ∨
        ∃ topology, lastRetried attempts = some topology ∧ SelectedIn topology scanned) := by
  induction attempts generalizing topology state with
  | nil => simp [tryScan] at hscan
  | cons attempt rest ih =>
    cases attempt with
    | reply response =>
      unfold tryScan at hscan
      split_ifs at hscan
      · simp only [returns_bind, returns_pure, Prod.mk.injEq] at hscan
        obtain ⟨-, -, -, rfl⟩ := hscan
        exact .inr ⟨.refl _ _ _, .inl ⟨rfl, rfl⟩⟩
      · simp at hscan
    | failure error refreshed =>
      by_cases hretry : isScanwiseRetryableError
          (if topology.connected state.addressInScan then error
            else noConnection state.addressInScan)
      · simp only [tryScan, hretry, if_true, returns_bind, returns_liftExcept] at hscan
        obtain ⟨next, rfl, selected, hselect, hscan⟩ := hscan
        have hsub : [next] ⊆ next :: retried rest := by simp
        show (∀ other < slotCount, _ ∨ _ ∧ ∃ topology ∈ next :: retried rest, _) ∨
          Marks (next :: retried rest) _ _ _ ∧ _
        obtain ⟨rfl, hall⟩ | ⟨state', rfl, hmarks, hselected⟩ :=
          selectFrom_returns (nextSlot_getD _) hselect
        · refine .inl fun other hlt => ?_
          rcases hall other hlt with hset | ⟨hallow, hcovers⟩
          · exact .inl hset
          · exact .inr ⟨hallow, next, List.mem_cons_self .., hcovers⟩
        · have hfirst := hmarks.mono hsub
          rcases ih hscan with hall | ⟨hrest, hstate⟩
          · refine .inl fun other hlt => ?_
            rcases hall other hlt with hset | ⟨hallow, topology, hmem, hcovers⟩
            · exact hfirst.gained other hset
            · exact .inr ⟨hallow, topology, List.mem_cons_of_mem _ hmem, hcovers⟩
          · refine .inr ⟨hfirst.trans (hrest.mono (List.subset_cons_self _ _)), .inr ?_⟩
            rcases hstate with ⟨hnone, rfl⟩ | ⟨topology, hlast, hscanned⟩
            · exact ⟨next, by rw [lastRetried, hnone]; rfl, hselected⟩
            · exact ⟨topology, by rw [lastRetried, hlast]; rfl, hscanned⟩
      · simp only [tryScan, hretry, Bool.false_eq_true, if_false] at hscan
        exact absurd hscan not_returns_throw

theorem foldlM_markSlotAsScanned {slots : List Nat} {map map' : SlotsBitsArray}
    (hfold : slots.foldlM markSlotAsScanned map = some map') (other : Nat) :
    map'.isSet other ↔ map.isSet other ∨ other ∈ slots := by
  induction slots generalizing map with
  | nil =>
    obtain rfl : map = map' := by simpa using hfold
    simp
  | cons slot rest ih =>
    rw [List.foldlM_cons] at hfold
    obtain ⟨marked, hmark, hrest⟩ := Option.bind_eq_some_iff.mp hfold
    rw [ih hrest, Bitmap.isSet_set? hmark, Bool.or_eq_true, decide_eq_true_iff, List.mem_cons]
    tauto

structure Completes (topology : Topology) (state : ScanState) (map : SlotsBitsArray) : Prop where
  kept : ∀ slot, state.scannedSlotsMap.isSet slot → map.isSet slot
  gained : ∀ slot, map.isSet slot → state.scannedSlotsMap.isSet slot ∨
    slot ∈ topology.slotsOfAddress state.addressInScan ∧
      topology.epochOrZero state.addressInScan = state.addressEpoch

theorem createUpdatedScanState_returns {refreshed : RedisResult Topology} {updated : ScanState}
    (hupdate : Returns (createUpdatedScanStateForCompletedAddress state refreshed allow) updated) :
    ∃ topology map, refreshed = .ok topology ∧ Completes topology state map ∧
      Returns (newScanState topology allow map) updated := by
  unfold createUpdatedScanStateForCompletedAddress at hupdate
  rw [returns_bind] at hupdate
  obtain ⟨topology, hrefreshed, hupdate⟩ := hupdate
  rw [returns_liftExcept] at hrefreshed
  split_ifs at hupdate with hepoch
  · exact ⟨topology, _, hrefreshed, ⟨fun _ => id, fun _ => .inl⟩, hupdate⟩
  · rw [returns_bind] at hupdate
    obtain ⟨map, hfold, hupdate⟩ := hupdate
    rw [returns_lift] at hfold
    have hset := foldlM_markSlotAsScanned hfold
    refine ⟨topology, map, hrefreshed, ?_, hupdate⟩
    exact ⟨fun slot hmem => (hset slot).mpr (.inl hmem),
      fun slot hmem => ((hset slot).mp hmem).imp_right fun hslot => ⟨hslot, not_not.mp hepoch⟩⟩

end Parts

/-! ## Calls -/

namespace Topology

def Answers (topology : Topology) : Prop :=
  ∀ slot address, topology.addressOf slot = some address →
    ∃ epoch, 0 < epoch ∧ topology.addressEpoch address = .ok epoch

theorem epoch_of_addressEpoch {topology : Topology} {address : Address} {epoch : Nat}
    (hepoch : topology.addressEpoch address = .ok epoch) : topology.epoch address = epoch := by
  unfold addressEpoch at hepoch
  split_ifs at hepoch
  exact (topology.truthful address epoch hepoch).symm

end Topology

theorem SelectedIn.epoch_eq (hselected : SelectedIn topology state) (hanswers : topology.Answers) :
    state.addressEpoch = topology.epoch state.addressInScan ∧ 0 < state.addressEpoch := by
  obtain ⟨slot, hrouted⟩ := hselected.routed
  obtain ⟨epoch, hpos, hepoch⟩ := hanswers slot _ hrouted
  have hrecorded : state.addressEpoch = epoch := by
    rw [hselected.epoch, Topology.epochOrZero, hepoch]
  rw [Topology.epoch_of_addressEpoch hepoch, hrecorded]
  exact ⟨rfl, hpos⟩

theorem epoch_eq_of_epochOrZero {address : Address} {epoch : Nat}
    (hepoch : topology.epochOrZero address = epoch) (hpos : 0 < epoch) :
    topology.epoch address = epoch := by
  unfold Topology.epochOrZero at hepoch
  split at hepoch
  next found hfound => rw [← hepoch, Topology.epoch_of_addressEpoch hfound]
  next => omega

/-- The address was selected in `origin`, with the epoch that it had there. -/
def SelectedBy (origin : Option Topology) (state : ScanState) : Prop :=
  ∃ topology, origin = some topology ∧
    (∃ slot, topology.addressOf slot = some state.addressInScan) ∧
    state.addressEpoch = topology.epoch state.addressInScan

theorem SelectedIn.selectedBy (hselected : SelectedIn topology state)
    (hanswers : topology.Answers) : SelectedBy (some topology) state ∧ 0 < state.addressEpoch := by
  obtain ⟨hepoch, hpos⟩ := hselected.epoch_eq hanswers
  exact ⟨⟨topology, rfl, hselected.routed, hepoch⟩, hpos⟩

namespace ScanStateRC

def Marked (cursor : ScanStateRC) (slot : Nat) : Prop :=
  ∃ state, cursor.stateFromWrapper = some state ∧ state.scannedSlotsMap.isSet slot

def Done (cursor : ScanStateRC) (slot : Nat) : Prop := cursor.isFinished ∨ cursor.Marked slot

def Scanning (cursor : ScanStateRC) (origin : Option Topology) : Prop :=
  ∀ state, cursor.stateFromWrapper = some state →
    state.scanStatus = .inProgress ∧ 0 < state.addressEpoch ∧ SelectedBy origin state ∧
      ∃ slot < slotCount, state.scannedSlotsMap.isSet slot = false

end ScanStateRC

namespace ScanCall

variable (call : ScanCall) (cursor : ScanStateRC) (origin : Option Topology)

def selecting : List Topology :=
  match cursor.stateFromWrapper with
  | some _ => retried call.attempts
  | none => call.start :: retried call.attempts

def topologies : List Topology :=
  call.selecting cursor ++
    match call.completion with
    | .ok topology => [topology]
    | .error _ => []

def startOrigin : Option Topology :=
  match cursor.stateFromWrapper with
  | some _ => origin
  | none => some call.start

/--
The topology in which the address that replies to the call was selected; `origin` is the one
for the address of the cursor.
-/
def selector : Option Topology :=
  (lastRetried call.attempts).or (call.startOrigin cursor origin)

/-- The topology in which the address of the next cursor was selected. -/
def nextOrigin (after : ScanStateRC) : Option Topology := do
  let state ← after.stateFromWrapper
  if state.cursor = 0 then call.completion.toOption else call.selector cursor origin

/--
The slot belongs to an address that has been scanned to its end, with the epoch that it had
where it was selected.
-/
def Completed (slot : Nat) : Prop :=
  ∃ state keys selected topology, Returns (call.scan cursor) ((0, keys), state) ∧
    call.selector cursor origin = some selected ∧
    (∃ other, selected.addressOf other = some state.addressInScan) ∧
    call.completion = .ok topology ∧ slot ∈ topology.slotsOfAddress state.addressInScan ∧
    topology.epoch state.addressInScan = selected.epoch state.addressInScan

def PermitsUncovered (slot : Nat) : Prop :=
  call.allowNonCoveredSlots = true ∧ ∃ topology ∈ call.topologies cursor, ¬ topology.Covers slot

def Accounts (slot : Nat) : Prop :=
  cursor.Marked slot ∨ call.Completed cursor origin slot ∨ call.PermitsUncovered cursor slot

structure Sound (after : ScanStateRC) : Prop where
  kept : ∀ slot, cursor.Marked slot → after.Done slot
  gained : ∀ slot < slotCount, after.Done slot → call.Accounts cursor origin slot
  selected : ∀ state, after.stateFromWrapper = some state →
    SelectedBy (call.nextOrigin cursor origin after) state

/--
Nodes tell their epochs.  While uncovered slots are allowed, there is a slot that was
not scanned before the call and is covered whenever the call has to select an address.
-/
structure Regular : Prop where
  answers : ∀ topology ∈ call.topologies cursor, topology.Answers
  left : call.allowNonCoveredSlots = true → ∃ slot < slotCount, ¬ cursor.Marked slot ∧
    ∀ topology ∈ call.selecting cursor, topology.Covers slot

variable {call cursor origin}

theorem selecting_subset : call.selecting cursor ⊆ call.topologies cursor :=
  List.subset_append_left _ _

/-- No mark of the cursor is lost, and the marks that are new are among `gains`. -/
structure Extends (cursor : ScanStateRC) (gains : Nat → Prop) (map : SlotsBitsArray) : Prop where
  kept : ∀ slot, cursor.Marked slot → map.isSet slot
  gained : ∀ slot, map.isSet slot → cursor.Marked slot ∨ gains slot

structure Scanned (cursor : ScanStateRC) (gains : Nat → Prop) (selector : Option Topology)
    (state : ScanState) : Prop extends Extends cursor gains state.scannedSlotsMap where
  status : state.scanStatus = .inProgress
  positive : 0 < state.addressEpoch
  left : ∃ slot < slotCount, state.scannedSlotsMap.isSet slot = false
  selected : SelectedBy selector state

def FoundUncovered (call : ScanCall) (cursor : ScanStateRC) (slot : Nat) : Prop :=
  call.allowNonCoveredSlots = true ∧ ∃ topology ∈ call.selecting cursor, ¬ topology.Covers slot

variable {state scanned : ScanState} {keys : List Value}

theorem Extends.select {gains : Nat → Prop} {map : SlotsBitsArray} {topologies : List Topology}
    {allow : Bool} (hextends : Extends cursor gains map)
    (hmarks : Marks topologies allow map state.scannedSlotsMap) (hgains : ∀ slot, allow = true →
      ∀ topology ∈ topologies, ¬ topology.Covers slot → gains slot)
    (hselected : SelectedIn topology state) (hanswers : topology.Answers) :
    Scanned cursor gains (some topology) state := by
  obtain ⟨hselect, hpos⟩ := hselected.selectedBy hanswers
  refine ⟨⟨fun slot hmarked => hmarks.kept slot (hextends.kept slot hmarked), fun slot hset => ?_⟩,
    hselected.status, hpos, hselected.left, hselect⟩
  rcases hmarks.gained slot hset with hset | ⟨hallow, topology, hmem, hcovers⟩
  · exact hextends.gained slot hset
  · exact .inr (hgains slot hallow topology hmem hcovers)

theorem scanned_start (hregular : call.Regular cursor) (hscanning : cursor.Scanning origin)
    (hstart : Returns (call.scanState cursor) state) :
    Scanned cursor (call.FoundUncovered cursor) (call.startOrigin cursor origin) state := by
  unfold scanState at hstart
  cases hcursor : cursor.stateFromWrapper with
  | some before =>
    rw [hcursor] at hstart
    obtain rfl : before = state := returns_pure.mp hstart
    obtain ⟨hstatus, hpos, hselected, hleft⟩ := hscanning before hcursor
    refine ⟨⟨?_, fun slot hset => .inl ⟨before, hcursor, hset⟩⟩, hstatus, hpos, hleft, ?_⟩
    · rintro slot ⟨other, hother, hset⟩
      obtain rfl := Option.some.inj (hcursor.symm.trans hother)
      exact hset
    · simpa only [startOrigin, hcursor] using hselected
  | none =>
    rw [hcursor] at hstart
    have hmem : call.start ∈ call.selecting cursor := by simp [selecting, hcursor]
    rcases newScanState_returns (initiateScan_eq ▸ hstart) with ⟨-, hall⟩ | ⟨hmarks, hselected⟩
    · simp only [Bitmap.isSet_zero, Bool.false_eq_true, false_or] at hall
      obtain ⟨hallow, -⟩ := hall 0 (by decide)
      obtain ⟨slot, hlt, -, hcovers⟩ := hregular.left hallow
      exact absurd (hcovers call.start hmem) (hall slot hlt).2
    · have hnone : Extends cursor (call.FoundUncovered cursor) (.zero 256) :=
        ⟨by simp [ScanStateRC.Marked, hcursor], by simp⟩
      have hanswers := hregular.answers _ (selecting_subset hmem)
      rw [startOrigin, hcursor]
      refine hnone.select hmarks (fun slot hallow topology hstart hcovers => ?_) hselected hanswers
      obtain rfl := List.mem_singleton.mp hstart
      exact ⟨hallow, _, hmem, hcovers⟩

theorem scan_returns (hregular : call.Regular cursor) (hscanning : cursor.Scanning origin)
    {reply : Nat × List Value} (hscan : Returns (call.scan cursor) (reply, scanned)) :
    Scanned cursor (call.FoundUncovered cursor) (call.selector cursor origin) scanned := by
  unfold scan at hscan
  rw [returns_bind] at hscan
  obtain ⟨state, hstart, hscan⟩ := hscan
  have hstate := scanned_start hregular hscanning hstart
  have hretried : retried call.attempts ⊆ call.selecting cursor := by
    unfold selecting
    split
    · exact List.Subset.refl _
    · exact List.subset_cons_self _ _
  rcases tryScan_returns hscan with
    hall | ⟨hmarks, ⟨hnone, rfl⟩ | ⟨topology, hlast, hselected⟩⟩
  · -- the failures have left no slot to scan
    exfalso
    cases hallow : call.allowNonCoveredSlots with
    | false =>
      obtain ⟨slot, hlt, hclear⟩ := hstate.left
      rcases hall slot hlt with hset | ⟨hallow', -⟩
      · rw [hclear] at hset
        contradiction
      · rw [hallow] at hallow'
        contradiction
    | true =>
      obtain ⟨slot, hlt, hunmarked, hcovers⟩ := hregular.left hallow
      have huncovered : ∃ topology ∈ call.selecting cursor, ¬ topology.Covers slot := by
        rcases hall slot hlt with hset | ⟨-, topology, hmem, huncovered⟩
        · rcases hstate.gained slot hset with hmarked | ⟨-, huncovered⟩
          · exact absurd hmarked hunmarked
          · exact huncovered
        · exact ⟨topology, hretried hmem, huncovered⟩
      obtain ⟨topology, hmem, hnot⟩ := huncovered
      exact hnot (hcovers topology hmem)
  · rw [selector, hnone]
    exact hstate
  · have hmem := selecting_subset (hretried (mem_retried_of_lastRetried hlast))
    rw [selector, hlast]
    exact hstate.select hmarks (fun slot hallow topology hmem hcovers =>
      ⟨hallow, topology, hretried hmem, hcovers⟩) hselected (hregular.answers topology hmem)

/-- The slots that a call accounts for beyond those of the cursor. -/
def Gains (call : ScanCall) (cursor : ScanStateRC) (origin : Option Topology) (slot : Nat) : Prop :=
  call.Completed cursor origin slot ∨ call.PermitsUncovered cursor slot

theorem FoundUncovered.gains {slot : Nat} :
    call.FoundUncovered cursor slot → call.Gains cursor origin slot :=
  fun ⟨hallow, topology, hmem, hcovers⟩ => .inr ⟨hallow, topology, selecting_subset hmem, hcovers⟩

theorem advance_returns (hregular : call.Regular cursor) {newCursor : Nat}
    (hscan : Returns (call.scan cursor) ((newCursor, keys), scanned))
    (hscanned : Scanned cursor (call.FoundUncovered cursor) (call.selector cursor origin) scanned)
    (hadvance : Returns (call.advance newCursor scanned) state) :
    (state.scanStatus = .finished ∧ ∀ slot < slotCount, call.Accounts cursor origin slot) ∨
      Scanned cursor (call.Gains cursor origin)
        (if newCursor = 0 then call.completion.toOption else call.selector cursor origin) state := by
  unfold advance at hadvance
  split_ifs at hadvance with hcursor
  · subst hcursor
    obtain ⟨topology, map, hcompletion, hcompletes, hstate⟩ :=
      createUpdatedScanState_returns hadvance
    have hmem : topology ∈ call.topologies cursor := by simp [topologies, hcompletion]
    have hmap : Extends cursor (call.Gains cursor origin) map := by
      refine ⟨fun slot hmarked => hcompletes.kept slot (hscanned.kept slot hmarked), ?_⟩
      intro slot hset
      rcases hcompletes.gained slot hset with hset | ⟨hslot, hepoch⟩
      · exact (hscanned.gained slot hset).imp_right FoundUncovered.gains
      · have hunchanged := epoch_eq_of_epochOrZero hepoch hscanned.positive
        obtain ⟨selected, hselector, hrouted, hselected⟩ := hscanned.selected
        exact .inr (.inl ⟨scanned, keys, selected, topology, hscan, hselector, hrouted,
          hcompletion, hslot, hunchanged.trans hselected⟩)
    rcases newScanState_returns hstate with ⟨rfl, hall⟩ | ⟨hmarks, hselected⟩
    · refine .inl ⟨rfl, fun slot hlt => ?_⟩
      rcases hall slot hlt with hset | ⟨hallow, hcovers⟩
      · exact hmap.gained slot hset
      · exact .inr (.inr ⟨hallow, topology, hmem, hcovers⟩)
    · rw [if_pos rfl, hcompletion]
      refine .inr (hmap.select hmarks (fun slot hallow other hother hcovers => ?_) hselected
        (hregular.answers topology hmem))
      obtain rfl := List.mem_singleton.mp hother
      exact .inr ⟨hallow, _, hmem, hcovers⟩
  · obtain rfl := returns_pure.mp hadvance
    rw [if_neg hcursor]
    exact .inr { hscanned with
      gained := fun slot hset => (hscanned.gained slot hset).imp_right FoundUncovered.gains }

theorem clusterScan_sound (hregular : call.Regular cursor) (hscanning : cursor.Scanning origin)
    {after : ScanStateRC} (hcall : Returns (call.clusterScan cursor) (after, keys)) :
    call.Sound cursor origin after ∧ after.Scanning (call.nextOrigin cursor origin after) := by
  unfold clusterScan at hcall
  rw [returns_bind] at hcall
  obtain ⟨⟨⟨newCursor, newKeys⟩, scanned⟩, hscan, hcall⟩ := hcall
  rw [returns_bind] at hcall
  obtain ⟨state, hadvance, hcall⟩ := hcall
  have hscanned := scan_returns hregular hscanning hscan
  rcases advance_returns hregular hscan hscanned hadvance with ⟨hfinished, hall⟩ | hcontinues
  · rw [if_pos hfinished, returns_pure, Prod.mk.injEq] at hcall
    obtain ⟨rfl, -⟩ := hcall
    exact ⟨⟨fun _ _ => .inl rfl, fun slot hlt _ => hall slot hlt, nofun⟩, nofun⟩
  · have hunfinished : ¬ state.scanStatus = .finished := by
      rw [hcontinues.status]
      exact nofun
    rw [if_neg hunfinished, returns_pure, Prod.mk.injEq] at hcall
    obtain ⟨rfl, -⟩ := hcall
    refine ⟨⟨?_, ?_, ?_⟩, ?_⟩
    · exact fun slot hmarked => .inr ⟨_, rfl, hcontinues.kept slot hmarked⟩
    · rintro slot - (hfinished | ⟨other, hother, hset⟩)
      · contradiction
      · cases hother
        exact hcontinues.gained slot hset
    · intro other hother
      cases hother
      exact hcontinues.selected
    · intro other hother
      cases hother
      exact ⟨rfl, hcontinues.positive, hcontinues.selected, hcontinues.left⟩

end ScanCall

/-! ## Scans -/

/--
The state that is threaded through the calls.  `origin` is the topology in which its address
was selected, and `accounted` are the slots that have been scanned in the current scan, or
were found uncovered when that is allowed.
-/
structure ScanRun where
  cursor : ScanStateRC
  origin : Option Topology
  accounted : Nat → Prop

namespace ScanRun

def initial : ScanRun := ⟨.new, none, fun _ => False⟩

/-- A call that fails leaves the caller with the state it had. -/
def step (scan : ScanRun) (call : ScanCall) : Option ScanRun :=
  match (call.clusterScan scan.cursor).run with
  | none => none
  | some (.error _) => some scan
  | some (.ok (after, _)) =>
    some ⟨after, call.nextOrigin scan.cursor scan.origin after, fun slot =>
      (scan.cursor.stateFromWrapper ≠ none ∧ scan.accounted slot) ∨
        call.Completed scan.cursor scan.origin slot ∨ call.PermitsUncovered scan.cursor slot⟩

variable {call : ScanCall}

theorem step_of_returns (scan : ScanRun) {after : ScanStateRC} {keys : List Value}
    (hcall : Returns (call.clusterScan scan.cursor) (after, keys)) :
    ∃ next, scan.step call = some next ∧ next.cursor = after := by
  unfold step
  rw [show (call.clusterScan scan.cursor).run = _ from hcall]
  exact ⟨_, rfl, rfl⟩

def Regular (scan : ScanRun) (call : ScanCall) : Prop := call.Regular scan.cursor

def SoundAt (scan : ScanRun) (call : ScanCall) : Prop :=
  ∀ after keys, Returns (call.clusterScan scan.cursor) (after, keys) →
    call.Sound scan.cursor scan.origin after

structure Covered (scan : ScanRun) : Prop where
  scanning : scan.cursor.Scanning scan.origin
  accounted : ∀ slot < slotCount, scan.cursor.Done slot → scan.accounted slot

theorem initial_covered : initial.Covered := by
  refine ⟨nofun, ?_⟩
  rintro slot - (hfinished | ⟨state, hstate, -⟩)
  · contradiction
  · contradiction

theorem Covered.step {scan next : ScanRun} (hcovered : scan.Covered) (hregular : scan.Regular call)
    (hstep : scan.step call = some next) : next.Covered := by
  unfold ScanRun.step at hstep
  split at hstep
  next => contradiction
  next =>
    cases hstep
    exact hcovered
  next after keys hcall =>
    cases hstep
    obtain ⟨hsound, hscanning⟩ :=
      ScanCall.clusterScan_sound hregular hcovered.scanning (show Returns _ _ from hcall)
    refine ⟨hscanning, fun slot hlt hdone => ?_⟩
    rcases hsound.gained slot hlt hdone with hmarked | hnew
    · obtain ⟨state, hstate, -⟩ := id hmarked
      exact .inl ⟨by simp [hstate], hcovered.accounted slot hlt (.inr hmarked)⟩
    · exact .inr hnew

/--
In every run of regular calls each call that returns is sound, and when a scan is
finished all its slots have been scanned or were uncovered with permission.
-/
theorem regular_run_covers {calls : List ScanCall} {final : ScanRun}
    (hregular : Along step Regular initial calls) (hrun : run step initial calls = some final) :
    Along step SoundAt initial calls ∧
      (final.cursor.isFinished → ∀ slot < slotCount, final.accounted slot) := by
  constructor
  · exact along_of_invariant Covered (fun _ _ _ hcovered hregular hstep =>
        hcovered.step hregular hstep)
      (fun _ _ hcovered hregular _ _ hcall =>
        (ScanCall.clusterScan_sound hregular hcovered.scanning hcall).1)
      initial_covered hregular
  · intro hfinished slot hlt
    have hcovered := run_invariant Covered (fun _ _ _ hcovered hregular hstep =>
      hcovered.step hregular hstep) initial_covered hregular hrun
    exact hcovered.accounted slot hlt (.inl hfinished)

end ScanRun

/-! ## Irregular calls -/

def twoNodes : SlotMap where
  slots := ⟨[(0, ⟨0, 0, 0⟩), (16383, ⟨1, 1, 1⟩)], by simp⟩
  nodesMap := ∅
  readFromReplica := .alwaysFromPrimary
  shards := [⟨"a:1", []⟩, ⟨"b:1", []⟩]
  nodeIndexes := [0, 0]

def oneNode : SlotMap := { twoNodes with slots := ⟨[(0, ⟨0, 0, 0⟩)], by simp⟩ }

def topologyOf (slotMap : SlotMap) (epoch : Nat) (answers : Bool) : Topology where
  slotMap := slotMap
  connected address := address = "a:1" ∨ address = "b:1"
  epoch _ := epoch
  clusterInfo _ := if answers then .ok epoch else .error (.ioError .timedOut)
  truthful address value hinfo := by
    split_ifs at hinfo
    exact (Except.ok.inj hinfo).symm

def firstCall : ScanCall :=
  ⟨true, topologyOf twoNodes 1 true, [.reply (.ok (0, []))], .ok (topologyOf twoNodes 1 true)⟩

def firstMarked : SlotsBitsArray := ((Bitmap.zero 256).set? 0).getD (.zero 256)

def afterFirst : ScanStateRC := .fromScanState ⟨0, firstMarked, "b:1", 1, .inProgress⟩

theorem firstCall_returns : Returns (firstCall.clusterScan .new) (afterFirst, []) := rfl

def secondCall : ScanCall :=
  ⟨true, topologyOf twoNodes 1 true,
    [.failure (.ioError .connectionReset) (.ok (topologyOf oneNode 1 true))],
    .ok (topologyOf oneNode 1 true)⟩

def afterSecond : ScanStateRC := .fromScanState ⟨0, .zero 256, "a:1", 1, .inProgress⟩

theorem oneNode_addressOf {slot : Nat} (hslot : slot ≠ 0) :
    (topologyOf oneNode 1 true).addressOf slot = none := by
  cases slot with
  | zero => contradiction
  | succ slot => rfl

theorem oneNode_exhausted :
    Returns (selectFrom (topologyOf oneNode 1 true) true ((nextSlot firstMarked).getD 0) firstMarked)
      none := by
  refine selectFrom_exhausted (nextSlot_getD _) fun other _ hclear => oneNode_addressOf ?_
  rintro rfl
  exact absurd hclear (by decide +kernel)

theorem secondCall_scan :
    Returns (secondCall.scan afterFirst) ((0, []), .createFinishedState) := by
  refine returns_bind.mpr ⟨⟨0, firstMarked, "b:1", 1, .inProgress⟩, rfl, ?_⟩
  exact returns_bind.mpr ⟨_, rfl, returns_bind.mpr ⟨none, oneNode_exhausted, rfl⟩⟩

theorem secondCall_returns : Returns (secondCall.clusterScan afterFirst) (afterSecond, []) :=
  returns_bind.mpr ⟨_, secondCall_scan, rfl⟩

def unansweredCall : ScanCall :=
  ⟨false, topologyOf twoNodes 1 false, [.reply (.ok (0, []))], .ok (topologyOf twoNodes 2 false)⟩

def afterUnanswered : ScanStateRC := .fromScanState ⟨0, firstMarked, "b:1", 0, .inProgress⟩

theorem unansweredCall_not_accounts : ¬ unansweredCall.Accounts .new none 0 := by
  have hscan : Returns (unansweredCall.scan .new)
      ((0, []), ⟨0, .zero 256, "a:1", 0, .inProgress⟩) := rfl
  rintro (⟨state, hstate, -⟩ |
    ⟨state, keys, selected, topology, hother, hselector, -, hcompletion, -, hepoch⟩ | ⟨hallow, -⟩)
  · exact nomatch hstate
  · obtain ⟨-, rfl⟩ := Prod.mk.inj (hscan.unique hother)
    cases hselector
    cases hcompletion
    exact nomatch hepoch
  · exact nomatch hallow

theorem irregular_calls_unsound :
    (Returns (firstCall.clusterScan .new) (afterFirst, []) ∧
      Returns (secondCall.clusterScan afterFirst) (afterSecond, []) ∧
      afterFirst.Marked 0 ∧ ¬ afterSecond.Done 0) ∧
    Returns (unansweredCall.clusterScan .new) (afterUnanswered, []) ∧
      afterUnanswered.Marked 0 ∧ ¬ unansweredCall.Accounts .new none 0 := by
  have hmarked : firstMarked.isSet 0 := by decide +kernel
  refine ⟨⟨firstCall_returns, secondCall_returns, ⟨_, rfl, hmarked⟩, ?_⟩, rfl, ⟨_, rfl, hmarked⟩,
    unansweredCall_not_accounts⟩
  rintro (hfinished | ⟨state, hstate, hset⟩)
  · exact nomatch hfinished
  · cases hstate
    rw [Bitmap.isSet_zero] at hset
    exact nomatch hset

def finishingCall : ScanCall :=
  ⟨true, topologyOf oneNode 1 true, [.reply (.ok (0, []))], .ok (topologyOf oneNode 1 true)⟩

theorem finishingCall_regular : finishingCall.Regular .new := by
  constructor
  · intro topology hmem slot address haddress
    obtain rfl : topology = topologyOf oneNode 1 true := by
      simpa [ScanCall.topologies, ScanCall.selecting, finishingCall, retried,
        ScanStateRC.stateFromWrapper, ScanStateRC.new] using hmem
    by_cases hslot : slot = 0
    · subst hslot
      cases haddress
      exact ⟨1, Nat.one_pos, rfl⟩
    · exact nomatch (oneNode_addressOf hslot).symm.trans haddress
  · refine fun _ => ⟨0, by decide, nofun, ?_⟩
    intro topology hmem
    obtain rfl : topology = topologyOf oneNode 1 true := by
      simpa [ScanCall.selecting, finishingCall, retried, ScanStateRC.stateFromWrapper,
        ScanStateRC.new] using hmem
    exact nofun

theorem finishingCall_returns :
    Returns (finishingCall.clusterScan .new) (.createFinished, []) := by
  have hadvance : Returns (finishingCall.advance 0 ⟨0, .zero 256, "a:1", 1, .inProgress⟩)
      .createFinishedState := by
    rw [ScanCall.advance, if_pos rfl, createUpdatedScanStateForCompletedAddress, returns_bind]
    refine ⟨topologyOf oneNode 1 true, rfl, ?_⟩
    rw [if_neg (by decide), returns_bind]
    refine ⟨firstMarked, rfl, ?_⟩
    rw [newScanState, returns_map]
    exact ⟨none, oneNode_exhausted, rfl⟩
  rw [ScanCall.clusterScan, returns_bind]
  refine ⟨((0, []), ⟨0, .zero 256, "a:1", 1, .inProgress⟩), rfl, ?_⟩
  rw [returns_bind]
  exact ⟨.createFinishedState, hadvance, rfl⟩

theorem finishing_run_covers :
    ∃ final, run ScanRun.step ScanRun.initial [finishingCall] = some final ∧
      final.cursor.isFinished ∧ ∀ slot < slotCount, final.accounted slot := by
  obtain ⟨final, hstep, hcursor⟩ := ScanRun.initial.step_of_returns finishingCall_returns
  have hrun : run ScanRun.step ScanRun.initial [finishingCall] = some final := by
    rw [run_cons, hstep]
    rfl
  have hfinished : final.cursor.isFinished := by
    rw [hcursor]
    rfl
  exact ⟨final, hrun, hfinished,
    (ScanRun.regular_run_covers (along_singleton.mpr finishingCall_regular) hrun).2 hfinished⟩

end ValkeyGlide.Scan
