import ValkeyGlide.Scan.NextAddress

/-!
# The end of a cluster scan

A call of `cluster_scan` may find out in three places that nothing is left: when it starts a
scan, when an address has been scanned to its end, and when the node of the state fails and
no other is found (`cluster_scan.rs`).  In the last case `try_scan` hands on a finished
placeholder with the cursor 0, which `cluster_scan` completes like an address, and in the
first the placeholder is scanned like an address.  The call ends as it should exactly when
that happens to find nothing left either.
-/

namespace ValkeyGlide.Scan

open Cluster Foundation Protocol

/-! ## Selecting with nothing left -/

def NothingLeft (topology : Topology) (allow : Bool) (scanned : Nat → Prop) : Prop :=
  ∀ slot < slotCount, scanned slot ∨ allow = true ∧ ¬ topology.Served slot

section Select

variable {topology : Topology} {allow : Bool} {map : SlotsBitsArray}

theorem forall_unscanned_iff {property : Nat → Prop} :
    (∀ slot ∈ unscanned map, property slot) ↔
      ∀ slot < slotCount, map.isSet slot ∨ property slot := by
  constructor
  · intro hall slot hlt
    cases hset : map.isSet slot with
    | true => exact .inl rfl
    | false => exact .inr (hall slot ⟨hlt, hset⟩)
  · rintro hall slot ⟨hlt, hclear⟩
    refine (hall slot hlt).resolve_left ?_
    rw [hclear]
    exact Bool.false_ne_true

theorem selectFrom_none_iff {slot : Nat} (hnext : nextSlot map = some slot) :
    Returns (selectFrom topology allow slot map) none ↔
      NothingLeft topology allow fun slot => map.isSet slot := by
  have hchooses : Chooses topology allow map (nextAddressToScan topology allow slot map) :=
    (nextAddressToScan_selection hnext).chooses
  rw [NothingLeft, ← forall_unscanned_iff, ← hchooses.completed, selectFrom, returns_bind]
  constructor
  · rintro ⟨⟨result, map'⟩, hloop, hselect⟩
    cases result with
    | address address => cases returns_pure.mp hselect
    | allSlotsCompleted => exact ⟨map', hloop⟩
  · rintro ⟨map', hloop⟩
    exact ⟨_, hloop, returns_pure.mpr rfl⟩

theorem newScanState_finished_iff :
    Returns (newScanState topology allow map) .createFinishedState ↔
      NothingLeft topology allow fun slot => map.isSet slot := by
  rw [← selectFrom_none_iff (nextSlot_getD map), newScanState, returns_map]
  constructor
  · rintro ⟨selected, hselect, hstate⟩
    obtain ⟨rfl, -⟩ | ⟨state, rfl, -, hselected⟩ := selectFrom_returns (nextSlot_getD map) hselect
    · exact hselect
    · obtain rfl : state = .createFinishedState := hstate
      cases hselected.status
  · exact fun hselect => ⟨none, hselect, rfl⟩

end Select

/-! ## Completing an address -/

namespace Topology

def Completed (topology : Topology) (state : ScanState) (slot : Nat) : Prop :=
  state.scannedSlotsMap.isSet slot ∨ topology.epochOrZero state.addressInScan = state.addressEpoch ∧
    slot ∈ topology.slotsOfAddress state.addressInScan

def InRange (topology : Topology) (state : ScanState) : Prop :=
  topology.epochOrZero state.addressInScan = state.addressEpoch →
    ∀ slot ∈ topology.slotsOfAddress state.addressInScan, slot < slotCount

end Topology

section Complete

variable {topology : Topology} {allow : Bool} {state updated : ScanState}
  {refreshed : RedisResult Topology}

theorem lt_of_markSlotAsScanned {map map' : SlotsBitsArray} {slot : Nat}
    (hmark : markSlotAsScanned map slot = some map') : slot < slotCount := by
  unfold markSlotAsScanned Bitmap.set? at hmark
  split_ifs at hmark with hword
  unfold slotCount
  omega

theorem foldlM_markSlotAsScanned_isSome_iff (map : SlotsBitsArray) {slots : List Nat} :
    (∃ map', slots.foldlM markSlotAsScanned map = some map') ↔
      ∀ slot ∈ slots, slot < slotCount := by
  induction slots generalizing map with
  | nil => simp
  | cons slot rest ih =>
    rw [List.forall_mem_cons, List.foldlM_cons]
    constructor
    · rintro ⟨map', hfold⟩
      obtain ⟨marked, hmark, hrest⟩ := Option.bind_eq_some_iff.mp hfold
      exact ⟨lt_of_markSlotAsScanned hmark, (ih marked).mp ⟨map', hrest⟩⟩
    · rintro ⟨hlt, hrest⟩
      obtain ⟨marked, hmark⟩ : ∃ marked, markSlotAsScanned map slot = some marked :=
        Bitmap.set?_isSome hlt
      obtain ⟨map', hfold⟩ := (ih marked).mpr hrest
      exact ⟨map', Option.bind_eq_some_iff.mpr ⟨marked, hmark, hfold⟩⟩

theorem nothingLeft_congr {scanned other : Nat → Prop}
    (hscanned : ∀ slot, scanned slot ↔ other slot) :
    NothingLeft topology allow scanned ↔ NothingLeft topology allow other := by
  rw [funext fun slot => propext (hscanned slot)]

theorem createUpdatedScanState_finished_iff :
    Returns (createUpdatedScanStateForCompletedAddress state refreshed allow) .createFinishedState ↔
      ∃ topology, refreshed = .ok topology ∧ topology.InRange state ∧
        NothingLeft topology allow (topology.Completed state) := by
  simp only [createUpdatedScanStateForCompletedAddress, returns_bind, returns_liftExcept]
  refine exists_congr fun topology => and_congr_right fun _ => ?_
  by_cases hepoch : topology.epochOrZero state.addressInScan = state.addressEpoch
  · rw [if_neg (not_not.mpr hepoch)]
    simp only [returns_bind, returns_lift, newScanState_finished_iff]
    have hrange : topology.InRange state ↔ _ := imp_iff_right hepoch
    have hcompleted : ∀ map, (topology.slotsOfAddress state.addressInScan).foldlM markSlotAsScanned
        state.scannedSlotsMap = some map →
          ((NothingLeft topology allow fun slot => map.isSet slot) ↔
            NothingLeft topology allow (topology.Completed state)) := fun map hfold =>
      nothingLeft_congr fun slot => (foldlM_markSlotAsScanned hfold slot).trans
        (or_congr_right (and_iff_right hepoch).symm)
    rw [hrange, ← foldlM_markSlotAsScanned_isSome_iff state.scannedSlotsMap]
    constructor
    · rintro ⟨map, hfold, hleft⟩
      exact ⟨⟨map, hfold⟩, (hcompleted map hfold).mp hleft⟩
    · rintro ⟨⟨map, hfold⟩, hleft⟩
      exact ⟨map, hfold, (hcompleted map hfold).mpr hleft⟩
  · rw [if_pos hepoch, newScanState_finished_iff]
    refine (nothingLeft_congr fun slot => ?_).trans
      (and_iff_right fun heq => absurd heq hepoch).symm
    exact (or_iff_left fun hslot => hepoch hslot.1).symm

theorem createUpdatedScanState_keeps
    (hupdate : Returns (createUpdatedScanStateForCompletedAddress state refreshed allow) updated) :
    updated = .createFinishedState ∨
      updated.scanStatus = .inProgress ∧
        ∀ slot, state.scannedSlotsMap.isSet slot → updated.scannedSlotsMap.isSet slot := by
  obtain ⟨topology, map, -, hcompletes, hnew⟩ := createUpdatedScanState_returns hupdate
  rcases newScanState_returns hnew with ⟨hfinished, -⟩ | ⟨hmarks, hselected⟩
  · exact .inl hfinished
  · exact .inr ⟨hselected.status, fun slot hset => hmarks.kept slot (hcompletes.kept slot hset)⟩

end Complete

/-! ## Attempts -/

def Topology.FailsOver (topology : Topology) (state : ScanState) (error : RedisError) : Prop :=
  isScanwiseRetryableError
    (if topology.connected state.addressInScan then error else noConnection state.addressInScan)

inductive Replies (allow : Bool) :
    Topology → ScanState → List Attempt → Nat × List Value → ScanState → Prop
  | here {topology : Topology} {state : ScanState} {reply : Nat × List Value} {rest : List Attempt}
      (hconnected : topology.connected state.addressInScan) :
      Replies allow topology state (.reply (.ok reply) :: rest) reply state
  | later {topology next : Topology} {state selected final : ScanState} {error : RedisError}
      {reply : Nat × List Value} {rest : List Attempt} (hfails : topology.FailsOver state error)
      (hselect : Returns (nextScanState next allow state) (some selected))
      (hreplies : Replies allow next selected rest reply final) :
      Replies allow topology state (.failure error (.ok next) :: rest) reply final

/-- After some failures nothing is left to scan. -/
inductive Exhausts (allow : Bool) : Topology → ScanState → List Attempt → Prop
  | here {topology next : Topology} {state : ScanState} {error : RedisError} {rest : List Attempt}
      (hfails : topology.FailsOver state error)
      (hleft : NothingLeft next allow fun slot => state.scannedSlotsMap.isSet slot) :
      Exhausts allow topology state (.failure error (.ok next) :: rest)
  | later {topology next : Topology} {state selected : ScanState} {error : RedisError}
      {rest : List Attempt} (hfails : topology.FailsOver state error)
      (hselect : Returns (nextScanState next allow state) (some selected))
      (hexhausts : Exhausts allow next selected rest) :
      Exhausts allow topology state (.failure error (.ok next) :: rest)

section Attempts

variable {allow : Bool} {topology : Topology} {state scanned : ScanState} {attempts : List Attempt}
  {reply : Nat × List Value}

theorem tryScan_failure {error : RedisError} {refreshed : RedisResult Topology}
    {rest : List Attempt} (hfails : topology.FailsOver state error) :
    Returns (tryScan allow topology state (.failure error refreshed :: rest)) (reply, scanned) ↔
      ∃ next, refreshed = .ok next ∧ ∃ selected,
        Returns (nextScanState next allow state) selected ∧
          Returns (selected.elim (pure ((0, []), .createFinishedState))
            fun selected => tryScan allow next selected rest) (reply, scanned) := by
  unfold Topology.FailsOver at hfails
  simp only [tryScan, hfails, if_true, returns_bind, returns_liftExcept]
  refine exists_congr fun next => and_congr_right fun _ => exists_congr fun selected =>
    and_congr_right fun _ => ?_
  cases selected <;> rfl

theorem Replies.tryScan (hreplies : Replies allow topology state attempts reply scanned) :
    Returns (tryScan allow topology state attempts) (reply, scanned) := by
  induction hreplies with
  | here hconnected => simp [Scan.tryScan, hconnected]
  | later hfails hselect _ ih => exact (tryScan_failure hfails).mpr ⟨_, rfl, _, hselect, ih⟩

theorem Exhausts.tryScan (hexhausts : Exhausts allow topology state attempts) :
    Returns (tryScan allow topology state attempts) ((0, []), .createFinishedState) := by
  induction hexhausts with
  | here hfails hleft =>
    have hselect := (selectFrom_none_iff (nextSlot_getD _)).mpr hleft
    exact (tryScan_failure hfails).mpr ⟨_, rfl, none, hselect, returns_pure.mpr rfl⟩
  | later hfails hselect _ ih => exact (tryScan_failure hfails).mpr ⟨_, rfl, _, hselect, ih⟩

theorem tryScan_cases (hscan : Returns (tryScan allow topology state attempts) (reply, scanned)) :
    Replies allow topology state attempts reply scanned ∨
      Exhausts allow topology state attempts := by
  induction attempts generalizing topology state with
  | nil => simp [Scan.tryScan] at hscan
  | cons attempt rest ih =>
    cases attempt with
    | reply response =>
      unfold Scan.tryScan at hscan
      split_ifs at hscan with hconnected
      · simp only [returns_bind, returns_liftExcept, returns_pure, Prod.mk.injEq] at hscan
        obtain ⟨_, rfl, rfl, rfl⟩ := hscan
        exact .inl (.here hconnected)
      · exact absurd hscan not_returns_none
    | failure error refreshed =>
      by_cases hfails : topology.FailsOver state error
      · obtain ⟨next, rfl, selected, hselect, hrest⟩ := (tryScan_failure hfails).mp hscan
        cases selected with
        | none => exact .inr (.here hfails ((selectFrom_none_iff (nextSlot_getD _)).mp hselect))
        | some selected =>
          exact (ih hrest).imp (.later hfails hselect) (.later hfails hselect)
      · unfold Topology.FailsOver at hfails
        simp only [Scan.tryScan, hfails] at hscan
        exact absurd hscan not_returns_throw

theorem Replies.keeps (hreplies : Replies allow topology state attempts reply scanned) {slot : Nat}
    (hset : state.scannedSlotsMap.isSet slot) : scanned.scannedSlotsMap.isSet slot := by
  induction hreplies with
  | here => exact hset
  | later _ hselect _ ih =>
    obtain ⟨hnone, -⟩ | ⟨_, hsome, hmarks, -⟩ := selectFrom_returns (nextSlot_getD _) hselect
    · exact nomatch hnone
    · cases hsome
      exact ih (hmarks.kept slot hset)

theorem Replies.status (hreplies : Replies allow topology state attempts reply scanned) :
    scanned = state ∨ scanned.scanStatus = .inProgress := by
  induction hreplies with
  | here => exact .inl rfl
  | later _ hselect _ ih =>
    obtain ⟨hnone, -⟩ | ⟨_, hsome, -, hselected⟩ := selectFrom_returns (nextSlot_getD _) hselect
    · exact nomatch hnone
    · cases hsome
      exact .inr (ih.elim (· ▸ hselected.status) id)

end Attempts

/-! ## Calls -/

namespace ScanCall

variable {call : ScanCall} {cursor : ScanStateRC} {state : ScanState}

/-- From the state, nothing is left after some failure or once the last address is completed. -/
def EndsFrom (call : ScanCall) (state : ScanState) : Prop :=
  Exhausts call.allowNonCoveredSlots call.start state call.attempts ∨
    ∃ keys scanned topology,
      Replies call.allowNonCoveredSlots call.start state call.attempts (0, keys) scanned ∧
        call.completion = .ok topology ∧
          NothingLeft topology call.allowNonCoveredSlots (topology.Completed scanned)

def StartsEmpty (call : ScanCall) (cursor : ScanStateRC) : Prop :=
  cursor.stateFromWrapper = none ∧
    NothingLeft call.start call.allowNonCoveredSlots fun _ => False

/-- The call finds out that nothing is left: when it starts a scan, or from its first state on. -/
def ComesToEnd (call : ScanCall) (cursor : ScanStateRC) : Prop :=
  call.StartsEmpty cursor ∨ ∃ state, Returns (call.scanState cursor) state ∧ call.EndsFrom state

structure EndsWell (call : ScanCall) (cursor : ScanStateRC) : Prop where
  finishes : call.ComesToEnd cursor →
    ∃ keys, Returns (call.clusterScan cursor) (.createFinished, keys)
  keeps : ∀ next keys, Returns (call.clusterScan cursor) (.fromScanState next, keys) →
    ∀ slot, cursor.Marked slot → next.scannedSlotsMap.isSet slot

/--
The completion of the placeholder finds nothing left, as if no slot had been scanned but
those of the address of the placeholder; the slots of the last address have a bit each; and
a scan that starts with the placeholder comes to an end too, unless the address of the
placeholder replies itself.
-/
structure CompletesPlaceholder (call : ScanCall) (cursor : ScanStateRC) : Prop where
  placeholder : ∀ state, Returns (call.scanState cursor) state →
    Exhausts call.allowNonCoveredSlots call.start state call.attempts →
      ∃ topology, call.completion = .ok topology ∧ topology.InRange .createFinishedState ∧
        NothingLeft topology call.allowNonCoveredSlots (topology.Completed .createFinishedState)
  inRange : ∀ state keys scanned topology, Returns (call.scanState cursor) state →
    Replies call.allowNonCoveredSlots call.start state call.attempts (0, keys) scanned →
      call.completion = .ok topology →
        NothingLeft topology call.allowNonCoveredSlots (topology.Completed scanned) →
          topology.InRange scanned
  empty : call.StartsEmpty cursor → call.EndsFrom .createFinishedState ∨
    ∃ newCursor keys, newCursor ≠ 0 ∧
      Replies call.allowNonCoveredSlots call.start .createFinishedState call.attempts
        (newCursor, keys) .createFinishedState

def afterScan (newCursor : Nat) (updated : ScanState) : ScanStateRC :=
  if updated.scanStatus = .finished then .createFinished
  else .fromScanState { updated with cursor := newCursor, scanStatus := .inProgress }

variable {keys : List Value}

theorem StartsEmpty.scanState (hempty : call.StartsEmpty cursor) :
    Returns (call.scanState cursor) .createFinishedState := by
  obtain ⟨hcursor, hleft⟩ := hempty
  have hnone := (selectFrom_none_iff nextSlot_zero).mpr
    ((nothingLeft_congr fun slot => by simp [Bitmap.isSet_zero]).mp hleft)
  rw [ScanCall.scanState, hcursor]
  exact returns_map.mpr ⟨none, hnone, rfl⟩

section

variable (hstart : Returns (call.scanState cursor) state)
include hstart

theorem clusterScan_returns_iff {after : ScanStateRC} :
    Returns (call.clusterScan cursor) (after, keys) ↔
      ∃ newCursor scanned updated,
        Returns (tryScan call.allowNonCoveredSlots call.start state call.attempts)
          ((newCursor, keys), scanned) ∧
        Returns (call.advance newCursor scanned) updated ∧ afterScan newCursor updated = after := by
  rw [clusterScan, scan, returns_bind]
  constructor
  · rintro ⟨⟨⟨newCursor, newKeys⟩, scanned⟩, hscan, hrest⟩
    obtain ⟨other, hother, hscan⟩ := returns_bind.mp hscan
    obtain rfl := hstart.unique hother
    obtain ⟨updated, hadvance, hreturn⟩ := returns_bind.mp hrest
    unfold afterScan
    split_ifs at hreturn with hfinished
    · obtain ⟨rfl, rfl⟩ := Prod.mk.inj (returns_pure.mp hreturn)
      exact ⟨newCursor, scanned, updated, hscan, hadvance, if_pos hfinished⟩
    · obtain ⟨rfl, rfl⟩ := Prod.mk.inj (returns_pure.mp hreturn)
      exact ⟨newCursor, scanned, updated, hscan, hadvance, if_neg hfinished⟩
  · rintro ⟨newCursor, scanned, updated, hscan, hadvance, rfl⟩
    refine ⟨_, returns_bind.mpr ⟨state, hstart, hscan⟩, returns_bind.mpr ⟨updated, hadvance, ?_⟩⟩
    unfold afterScan
    split_ifs <;> exact returns_pure.mpr rfl

theorem clusterScan_finishes_iff {scanned : ScanState}
    (hscan : Returns (tryScan call.allowNonCoveredSlots call.start state call.attempts)
      ((0, keys), scanned)) :
    (∃ keys, Returns (call.clusterScan cursor) (.createFinished, keys)) ↔
      ∃ topology, call.completion = .ok topology ∧ topology.InRange scanned ∧
        NothingLeft topology call.allowNonCoveredSlots (topology.Completed scanned) := by
  rw [← createUpdatedScanState_finished_iff]
  constructor
  · rintro ⟨keys', hreturns⟩
    obtain ⟨newCursor, other, updated, hother, hadvance, hafter⟩ :=
      (clusterScan_returns_iff hstart).mp hreturns
    obtain ⟨hreply, rfl⟩ := Prod.mk.inj (hscan.unique hother)
    obtain ⟨rfl, -⟩ := Prod.mk.inj hreply
    rw [advance, if_pos rfl] at hadvance
    rcases createUpdatedScanState_keeps hadvance with rfl | ⟨hstatus, -⟩
    · exact hadvance
    · rw [afterScan, hstatus] at hafter
      cases hafter
  · exact fun hcompletes =>
      ⟨keys, (clusterScan_returns_iff hstart).mpr ⟨0, scanned, _, hscan, hcompletes, rfl⟩⟩

theorem CompletesPlaceholder.finishes (hcompletes : call.CompletesPlaceholder cursor)
    (hends : call.EndsFrom state) :
    ∃ keys, Returns (call.clusterScan cursor) (.createFinished, keys) := by
  rcases hends with hexhausts | ⟨keys, scanned, topology, hreplies, hcompletion, hleft⟩
  · exact (clusterScan_finishes_iff hstart hexhausts.tryScan).mpr
      (hcompletes.placeholder state hstart hexhausts)
  · exact (clusterScan_finishes_iff hstart hreplies.tryScan).mpr ⟨topology, hcompletion,
      hcompletes.inRange state keys scanned topology hstart hreplies hcompletion hleft, hleft⟩

theorem CompletesPlaceholder.keeps (hcompletes : call.CompletesPlaceholder cursor)
    {next : ScanState} (hreturns : Returns (call.clusterScan cursor) (.fromScanState next, keys))
    {slot : Nat} (hset : state.scannedSlotsMap.isSet slot) : next.scannedSlotsMap.isSet slot := by
  obtain ⟨newCursor, scanned, updated, hscan, hadvance, hafter⟩ :=
    (clusterScan_returns_iff hstart).mp hreturns
  rcases tryScan_cases hscan with hreplies | hexhausts
  · have hkept := hreplies.keeps hset
    have hnext : updated.scanStatus ≠ .finished ∧
        updated.scannedSlotsMap = next.scannedSlotsMap := by
      unfold afterScan at hafter
      split_ifs at hafter with hfinished
      · exact nomatch hafter
      · obtain rfl : _ = next := by simpa [ScanStateRC.fromScanState] using hafter
        exact ⟨hfinished, rfl⟩
    rw [← hnext.2]
    unfold advance at hadvance
    split_ifs at hadvance
    · rcases createUpdatedScanState_keeps hadvance with rfl | ⟨-, hkeeps⟩
      · exact absurd rfl hnext.1
      · exact hkeeps slot hkept
    · rwa [← returns_pure.mp hadvance]
  · obtain ⟨_, hfinished⟩ := hcompletes.finishes hstart (.inl hexhausts)
    exact nomatch (Prod.mk.inj (hfinished.unique hreturns)).1

end

/-- A finished call from the placeholder has found nothing left, or has a reply to it. -/
theorem endsFrom_placeholder (hstart : Returns (call.scanState cursor) .createFinishedState)
    (hreturns : Returns (call.clusterScan cursor) (.createFinished, keys)) :
    call.EndsFrom .createFinishedState ∨ ∃ newCursor keys, newCursor ≠ 0 ∧
      Replies call.allowNonCoveredSlots call.start .createFinishedState call.attempts
        (newCursor, keys) .createFinishedState := by
  obtain ⟨newCursor, scanned, updated, hscan, hadvance, hafter⟩ :=
    (clusterScan_returns_iff hstart).mp hreturns
  rcases tryScan_cases hscan with hreplies | hexhausts
  · by_cases hcursor : newCursor = 0
    · subst hcursor
      obtain ⟨topology, hcompletion, -, hleft⟩ :=
        (clusterScan_finishes_iff hstart hscan).mp ⟨keys, hreturns⟩
      exact .inl (.inr ⟨keys, scanned, topology, hreplies, hcompletion, hleft⟩)
    · rw [advance, if_neg hcursor] at hadvance
      obtain rfl := returns_pure.mp hadvance
      rcases hreplies.status with rfl | hstatus
      · exact .inr ⟨newCursor, keys, hcursor, hreplies⟩
      · rw [afterScan, hstatus] at hafter
        cases hafter
  · exact .inl (.inl hexhausts)

/-- A call finishes when nothing is left and keeps what was scanned exactly when the completion
of the placeholder would. -/
theorem endsWell_iff_completesPlaceholder (call : ScanCall) (cursor : ScanStateRC) :
    call.EndsWell cursor ↔ call.CompletesPlaceholder cursor := by
  constructor
  · intro hends
    refine ⟨fun state hstart hexhausts => ?_,
      fun state keys scanned topology hstart hreplies hcompletion hleft => ?_, fun hempty => ?_⟩
    · exact (clusterScan_finishes_iff hstart hexhausts.tryScan).mp
        (hends.finishes (.inr ⟨state, hstart, .inl hexhausts⟩))
    · obtain ⟨other, hother, hrange, -⟩ := (clusterScan_finishes_iff hstart hreplies.tryScan).mp
        (hends.finishes
          (.inr ⟨state, hstart, .inr ⟨keys, scanned, topology, hreplies, hcompletion, hleft⟩⟩))
      obtain rfl := Except.ok.inj (hcompletion.symm.trans hother)
      exact hrange
    · obtain ⟨keys, hreturns⟩ := hends.finishes (.inl hempty)
      exact endsFrom_placeholder hempty.scanState hreturns
  · intro hcompletes
    refine ⟨?_, ?_⟩
    · rintro (hempty | ⟨state, hstart, hends⟩)
      · rcases hcompletes.empty hempty with hends | ⟨newCursor, keys, hcursor, hreplies⟩
        · exact hcompletes.finishes hempty.scanState hends
        · exact ⟨keys, (clusterScan_returns_iff hempty.scanState).mpr ⟨newCursor, _, _,
            hreplies.tryScan, by rw [advance, if_neg hcursor]; exact returns_pure.mpr rfl, rfl⟩⟩
      · exact hcompletes.finishes hstart hends
    · rintro next keys hreturns slot ⟨state, hcursor, hset⟩
      have hstart : Returns (call.scanState cursor) state := by
        rw [ScanCall.scanState, hcursor]
        exact returns_pure.mpr rfl
      exact hcompletes.keeps hstart hreturns hset

/-- The cluster covers no slot when the scan starts, and one after the first failure. -/
def emptyStart : ScanCall :=
  ⟨true, topologyOf { oneNode with slots := .empty } 1 true,
    [.failure (.ioError .connectionReset) (.ok (topologyOf oneNode 1 true)), .reply (.ok (5, []))],
    .ok (topologyOf oneNode 1 true)⟩

theorem emptyStart_startsEmpty : emptyStart.StartsEmpty .new := by
  refine ⟨rfl, fun slot _ => .inr ⟨rfl, ?_⟩⟩
  rintro ⟨address, id, howner, -⟩
  exact nomatch howner

theorem exhausted_call_starts_over :
    (∃ state, secondCall.ComesToEnd (.fromScanState state) ∧ state.scannedSlotsMap.isSet 0 ∧
      ∃ next, Returns (secondCall.clusterScan (.fromScanState state)) (.fromScanState next, []) ∧
        next.scannedSlotsMap.isSet 0 = false) ∧
    emptyStart.ComesToEnd .new ∧
      ∃ next, Returns (emptyStart.clusterScan .new) (.fromScanState next, []) := by
  refine ⟨⟨⟨0, firstMarked, "b:1", 1, .inProgress⟩, .inr ⟨_, rfl, .inl (.here rfl ?_)⟩,
    by decide +kernel, _, secondCall_returns, Bitmap.isSet_zero 0⟩, .inl emptyStart_startsEmpty, _,
    (clusterScan_returns_iff emptyStart_startsEmpty.scanState).mpr ⟨5, _, _, rfl, rfl, rfl⟩⟩
  exact (selectFrom_none_iff (nextSlot_getD _)).mp oneNode_exhausted

end ScanCall

end ValkeyGlide.Scan
