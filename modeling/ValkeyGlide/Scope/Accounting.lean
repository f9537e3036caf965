import ValkeyGlide.Foundation.Circulation
import ValkeyGlide.Foundation.Table
import ValkeyGlide.Scope.Steps

/-!
# Accounting of the scope pool

`totalCount` stands for the idle and the borrowed connections, the reservations,
and the connections being cleaned or resynchronised.  The results say which steps
keep it exact, that it stays exact in every run made of such steps, and when a
release that reports failure has left the pool alone.
-/

namespace ValkeyGlide.Scope

open Protocol Foundation Pool

/-! ## Cells -/

def cellId (cells : List ScopedConnection) (index : Nat) : Nat :=
  (cells[index]?.map ScopedConnection.scopeId).getD 0

variable {cells : List ScopedConnection}

theorem cellId_of_getElem? {index : Nat} {conn : ScopedConnection}
    (hconn : cells[index]? = some conn) : cellId cells index = conn.scopeId := by
  simp [cellId, hconn]

def Extends (cells cells' : List ScopedConnection) : Prop :=
  ∀ index < cells.length, index < cells'.length ∧ cellId cells' index = cellId cells index

namespace Extends

theorem refl (cells : List ScopedConnection) : Extends cells cells := fun _ hlt => ⟨hlt, rfl⟩

theorem append (cells : List ScopedConnection) (conn : ScopedConnection) :
    Extends cells (cells ++ [conn]) := by
  intro index hlt
  refine ⟨?_, ?_⟩
  · rw [List.length_append]
    omega
  · simp [cellId, List.getElem?_append_left hlt]

theorem set {cells : List ScopedConnection} {index : Nat} {conn changed : ScopedConnection}
    (hconn : cells[index]? = some conn) (hid : changed.scopeId = conn.scopeId) :
    Extends cells (cells.set index changed) := by
  intro other hlt
  refine ⟨by rwa [List.length_set], ?_⟩
  by_cases hother : index = other
  · subst hother
    rw [cellId_of_getElem? hconn, ← hid]
    exact cellId_of_getElem? (List.getElem?_set_self hlt)
  · simp [cellId, List.getElem?_set_ne hother]

end Extends

def Cleanup.scopeId (cells : List ScopedConnection) (cleanup : Cleanup) : Nat :=
  match cleanup.phase with
  | .settling (some conn) => conn.scopeId
  | _ => cellId cells cleanup.cell

theorem Cleanup.scopeId_extends {cells' : List ScopedConnection} {cleanup : Cleanup}
    (hcells : Extends cells cells') (hplaced : cleanup.cell < cells.length) :
    cleanup.scopeId cells' = cleanup.scopeId cells := by
  unfold Cleanup.scopeId
  split
  · rfl
  · exact (hcells cleanup.cell hplaced).2

namespace ScopeSystem

def population (sys : ScopeSystem) : Nat :=
  sys.pool.idle.length + sys.pool.inUse.length + sys.reservations + sys.resyncs.length +
    sys.cleanups.length

structure Accounted (sys : ScopeSystem) : Prop where
  exact_count : sys.pool.totalCount = sys.population
  within_size : sys.pool.totalCount ≤ sys.pool.config.maxTotal

/-- A release that reports failure leaves the pool as it is. -/
def FalseReleaseKeeps (sys : ScopeSystem) : ScopeAction → Prop
  | .release _ scopeId now =>
    ∀ next, sys.releaseInner scopeId now = some (false, next) →
      next.pool.idle = sys.pool.idle ∧ next.pool.inUse = sys.pool.inUse ∧
        next.pool.totalCount = sys.pool.totalCount
  | _ => True

/--
A scope is released only while it is registered, a cleanup reaches its pool, and the
pool is destroyed only while nothing is reserved, resynchronised or cleaned.
-/
def Orderly (sys : ScopeSystem) : ScopeAction → Prop
  | .release _ scopeId _ => scopeId ∈ sys.pool.inUse → (sys.registry.lookup scopeId).isSome
  | .cleanupSettled index => sys.cleanups[index]?.all Cleanup.poolKnown
  | .destroy => sys.reservations = 0 ∧ sys.resyncs = [] ∧ sys.cleanups = []
  | _ => True

instance (sys : ScopeSystem) (action : ScopeAction) : Decidable (sys.Orderly action) := by
  cases action <;> unfold Orderly <;> infer_instance

def scopeIds (sys : ScopeSystem) : List Nat :=
  sys.pool.idle.map ScopedConnection.scopeId ++ sys.pool.inUse ++
    sys.resyncs.map (fun resync => resync.1.scopeId) ++
    sys.cleanups.map (Cleanup.scopeId sys.cells)

def Filed (registry : AList fun _ : Nat => Nat) (cells : List ScopedConnection) : Prop :=
  ∀ scopeId index, registry.lookup scopeId = some index →
    index < cells.length ∧ cellId cells index = scopeId

structure Consistent (sys : ScopeSystem) : Prop where
  circulation : Circulation sys.scopeIds sys.nextScopeId
  filed : Filed sys.registry sys.cells
  placed : ∀ cleanup ∈ sys.cleanups, cleanup.cell < sys.cells.length

/-! ## The steps -/

structure Moves (sys next : ScopeSystem) (dropped added : List Nat) : Prop where
  turnover : Turnover sys.scopeIds sys.nextScopeId next.scopeIds next.nextScopeId dropped added
  config : next.pool.config = sys.pool.config
  filed : Filed next.registry next.cells
  placed : ∀ cleanup ∈ next.cleanups, cleanup.cell < next.cells.length

section Moves

variable {sys next : ScopeSystem} {dropped added : List Nat} {cells : List ScopedConnection}

theorem Moves.consistent (hmoves : Moves sys next dropped added) (hcons : sys.Consistent) :
    next.Consistent :=
  ⟨hmoves.turnover.circulation hcons.circulation, hmoves.filed, hmoves.placed⟩

theorem length_scopeIds (sys : ScopeSystem) :
    sys.scopeIds.length + sys.reservations = sys.population := by
  simp only [scopeIds, population, List.length_append, List.length_map]
  omega

theorem Moves.population (hmoves : Moves sys next dropped added) :
    next.population + dropped.length + sys.reservations =
      sys.population + added.length + next.reservations := by
  have hlength := hmoves.turnover.length
  have hsys := length_scopeIds sys
  have hnext := length_scopeIds next
  omega

theorem Filed.extends {registry registry' : AList fun _ : Nat => Nat}
    {cells' : List ScopedConnection} (hfiled : Filed registry cells) (hcells : Extends cells cells')
    (hregistry : ∀ scopeId index, registry'.lookup scopeId = some index →
      registry.lookup scopeId = some index) : Filed registry' cells' := by
  intro scopeId index hlookup
  obtain ⟨hlt, hid⟩ := hfiled scopeId index (hregistry scopeId index hlookup)
  obtain ⟨hlt', hid'⟩ := hcells index hlt
  exact ⟨hlt', hid'.trans hid⟩

theorem Consistent.cleanupIds (hcons : sys.Consistent) (hcells : Extends sys.cells cells) :
    sys.cleanups.map (Cleanup.scopeId cells) = sys.cleanups.map (Cleanup.scopeId sys.cells) :=
  List.map_congr_left fun cleanup hmem =>
    Cleanup.scopeId_extends hcells (hcons.placed cleanup hmem)

theorem Consistent.moves_same (hcons : sys.Consistent) (hidle : next.pool.idle = sys.pool.idle)
    (hinUse : next.pool.inUse = sys.pool.inUse) (hresyncs : next.resyncs = sys.resyncs)
    (hcleanups : next.cleanups = sys.cleanups) (hnext : next.nextScopeId = sys.nextScopeId)
    (hconfig : next.pool.config = sys.pool.config) (hcells : Extends sys.cells next.cells)
    (hregistry : ∀ scopeId index, next.registry.lookup scopeId = some index →
      sys.registry.lookup scopeId = some index) : Moves sys next [] [] where
  turnover := by
    have hids : next.scopeIds = sys.scopeIds := by
      simp [scopeIds, hidle, hinUse, hresyncs, hcleanups, hcons.cleanupIds hcells]
    rw [hids, hnext]
    exact .refl _ _
  config := hconfig
  filed := hcons.filed.extends hcells hregistry
  placed := by
    intro cleanup hmem
    rw [hcleanups] at hmem
    exact (hcells cleanup.cell (hcons.placed cleanup hmem)).1

theorem Consistent.moves_perm (hcons : sys.Consistent)
    (hperm : (dropped ++ next.scopeIds).Perm sys.scopeIds)
    (hnext : next.nextScopeId = sys.nextScopeId) (hconfig : next.pool.config = sys.pool.config)
    (hcells : next.cells = sys.cells)
    (hregistry : ∀ scopeId index, next.registry.lookup scopeId = some index →
      sys.registry.lookup scopeId = some index)
    (hplaced : ∀ cleanup ∈ next.cleanups, cleanup.cell < sys.cells.length) :
    Moves sys next dropped [] where
  turnover := by
    rw [hnext]
    exact .of_perm hperm
  config := hconfig
  filed := by
    rw [hcells]
    exact hcons.filed.extends (.refl _) hregistry
  placed := by rwa [hcells]

end Moves

def WithinSize (sys : ScopeSystem) : Prop := sys.pool.totalCount ≤ sys.pool.config.maxTotal

def Succeeds (sys : ScopeSystem) (action : ScopeAction) (next : ScopeSystem) : Prop :=
  ∃ dropped added, Moves sys next dropped added ∧ (sys.WithinSize → next.WithinSize) ∧
    (sys.Accounted → (next.Accounted ↔ sys.Orderly action))

namespace Succeeds

variable {sys next : ScopeSystem} {action : ScopeAction} {dropped added : List Nat} {scopeId : Nat}

private theorem of_giveBack (gone : Nat) (horderly : sys.Orderly action)
    (hmoves : Moves sys next dropped [])
    (hgone : dropped.length + sys.reservations = gone + next.reservations)
    (hcount : next.pool.totalCount = sys.pool.totalCount - gone) :
    Succeeds sys action next := by
  have hsize : sys.WithinSize → next.WithinSize := by
    unfold WithinSize
    rw [hmoves.config]
    omega
  refine ⟨dropped, [], hmoves, hsize, fun haccounted => iff_of_true ?_ horderly⟩
  have hpopulation := hmoves.population
  have hexact := haccounted.exact_count
  rw [List.length_nil] at hpopulation
  exact ⟨by omega, hsize haccounted.within_size⟩

private theorem of_keep (horderly : sys.Orderly action) (hmoves : Moves sys next [] [])
    (hreservations : next.reservations = sys.reservations)
    (hcount : next.pool.totalCount = sys.pool.totalCount) : Succeeds sys action next :=
  of_giveBack 0 horderly hmoves (by rw [hreservations, List.length_nil]) hcount

private theorem of_drop (horderly : sys.Orderly action) (hmoves : Moves sys next [scopeId] [])
    (hreservations : next.reservations = sys.reservations)
    (hcount : next.pool.totalCount = saturatingDec sys.pool.totalCount) :
    Succeeds sys action next :=
  of_giveBack 1 horderly hmoves (by rw [hreservations, List.length_singleton]) hcount

private theorem of_lose (hdisorderly : ¬ sys.Orderly action) (hmoves : Moves sys next [scopeId] [])
    (hreservations : next.reservations = sys.reservations)
    (hcount : next.pool.totalCount = sys.pool.totalCount) : Succeeds sys action next := by
  refine ⟨[scopeId], [], hmoves, ?_, fun haccounted => iff_of_false (fun hnext => ?_) hdisorderly⟩
  · rw [WithinSize, WithinSize, hmoves.config, hcount]
    exact id
  have hpopulation := hmoves.population
  have hexact := haccounted.exact_count
  have hnextExact := hnext.exact_count
  rw [List.length_singleton, List.length_nil] at hpopulation
  omega

private theorem of_reserve (horderly : sys.Orderly action) (hmoves : Moves sys next dropped [])
    (hreservations : next.reservations = sys.reservations + 1)
    (hroom : sys.pool.totalCount - dropped.length < sys.pool.config.maxTotal)
    (hcount : next.pool.totalCount = fetchAdd (sys.pool.totalCount - dropped.length)) :
    Succeeds sys action next := by
  rw [fetchAdd_of_lt hroom sys.pool.config.maxTotal_lt] at hcount
  have hsize : next.WithinSize := by
    rw [WithinSize, hmoves.config]
    omega
  refine ⟨dropped, [], hmoves, fun _ => hsize, fun haccounted => iff_of_true ?_ horderly⟩
  have hpopulation := hmoves.population
  have hexact := haccounted.exact_count
  have hreserved : next.reservations ≤ next.population := by
    unfold population
    omega
  rw [List.length_nil] at hpopulation
  exact ⟨by omega, hsize⟩

end Succeeds

section Steps

variable {sys next : ScopeSystem}

variable {conn : ScopedConnection} {scopeId index : Nat}

section

variable (hcons : sys.Consistent) {evicted : List ScopedConnection} {action : ScopeAction}
  {cleanup : Cleanup}
include hcons

theorem Consistent.notMem_inUse (hmem : conn ∈ sys.pool.idle) :
    conn.scopeId ∉ sys.pool.inUse := by
  have hnodup : (sys.pool.idle.map ScopedConnection.scopeId ++ sys.pool.inUse).Nodup :=
    (hcons.circulation.nodup.of_append_left).of_append_left
  exact List.disjoint_of_nodup_append hnodup (List.mem_map_of_mem hmem)

private theorem moves_borrow (caller : Nat) {original : ScopedConnection}
    {idle : List ScopedConnection} (totalCount : Nat)
    (hperm : (evicted ++ original :: idle).Perm sys.pool.idle)
    (hid : conn.scopeId = original.scopeId) :
    Moves sys (sys.lend caller conn { sys.pool with
        idle := idle
        inUse := sys.pool.inUse.insert conn.scopeId
        totalCount := totalCount })
      (evicted.map ScopedConnection.scopeId) [] where
  turnover := by
    have hcells := Extends.append sys.cells conn
    have hnot : original.scopeId ∉ sys.pool.inUse :=
      hcons.notMem_inUse (hperm.subset (List.mem_append.mpr (.inr List.mem_cons_self)))
    refine .of_perm (List.perm_iff_count.mpr fun id => ?_)
    have hcount := (hperm.map ScopedConnection.scopeId).count_eq id
    simp only [List.map_append, List.map_cons, List.count_append, List.count_cons] at hcount
    simp only [scopeIds, lend, hcons.cleanupIds hcells, hid, List.insert_of_not_mem hnot,
      List.count_append, List.count_cons]
    omega
  config := rfl
  filed := by
    intro scopeId index hlookup
    by_cases hscope : scopeId = conn.scopeId
    · subst hscope
      rw [lend, AList.lookup_insert] at hlookup
      cases hlookup
      exact ⟨by simp [lend], by simp [lend, cellId]⟩
    · rw [lend, AList.lookup_insert_ne hscope] at hlookup
      exact hcons.filed.extends (.append sys.cells _) (fun _ _ => id) scopeId index hlookup
  placed := fun cleanup hmem =>
    (Extends.append sys.cells _ cleanup.cell (hcons.placed cleanup hmem)).1

private theorem moves_evict {idle : List ScopedConnection}
    (hperm : (evicted ++ idle).Perm sys.pool.idle) (totalCount reservations : Nat) :
    Moves sys { sys with
        pool := { sys.pool with idle := idle, totalCount := totalCount }
        reservations := reservations } (evicted.map ScopedConnection.scopeId) [] := by
  refine hcons.moves_perm ?_ rfl rfl rfl (fun _ _ => id) hcons.placed
  refine List.perm_iff_count.mpr fun id => ?_
  have hcount := (hperm.map ScopedConnection.scopeId).count_eq id
  simp only [List.map_append, List.count_append] at hcount
  simp only [scopeIds, List.count_append]
  omega

private theorem succeeds_acquire (caller now : Nat)
    (target : ScopeTarget) (runtimeDb : Nat) (acquisitionSlot : Option Nat) :
    Succeeds sys (.acquire caller now target runtimeDb acquisitionSlot)
      (sys.acquire caller now target runtimeDb acquisitionSlot) := by
  have hacquires := sys.pool.tryAcquire_acquires now target runtimeDb acquisitionSlot
  unfold acquire
  generalize sys.pool.tryAcquire now target runtimeDb acquisitionSlot = outcome at hacquires ⊢
  cases hacquires with
  | reused evicted idle original conn hperm hid =>
    exact .of_giveBack evicted.length trivial (moves_borrow hcons caller _ hperm hid)
      (by rw [List.length_map]; rfl) rfl
  | reserved evicted idle hperm hroom =>
    refine .of_reserve trivial (moves_evict hcons hperm _ _) rfl ?_ ?_
    · rwa [List.length_map]
    · rw [List.length_map]
  | refused result evicted idle hresult hperm =>
    have hmoves := moves_evict hcons hperm (sys.pool.totalCount - evicted.length)
      sys.reservations
    rcases hresult with rfl | rfl <;>
      exact .of_giveBack evicted.length trivial hmoves (by rw [List.length_map]) rfl

private theorem succeeds_prewarm
    (hstep : (match sys.pool.reserveSlot with
      | (true, pool) => some { sys with pool := pool, reservations := sys.reservations + 1 }
      | (false, _) => some sys) = some next) : Succeeds sys .prewarm next := by
  unfold ScopePool.reserveSlot at hstep
  have hsame : Succeeds sys .prewarm sys :=
    .of_keep trivial (hcons.moves_same rfl rfl rfl rfl rfl rfl (.refl _) fun _ _ => id) rfl rfl
  split_ifs at hstep with hrunning hroom
  · cases hstep
    exact hsame
  · cases hstep
    exact .of_reserve trivial (hcons.moves_same rfl rfl rfl rfl rfl rfl (.refl _) fun _ _ => id) rfl
      hroom rfl
  · cases hstep
    exact hsame

private theorem succeeds_dropReservation (horderly : sys.Orderly action)
    (hstep : sys.dropReservation = some next) : Succeeds sys action next := by
  unfold dropReservation at hstep
  split at hstep
  · contradiction
  · next reservations hreserved =>
      cases hstep
      refine .of_giveBack 1 horderly
        (hcons.moves_same rfl rfl rfl rfl rfl rfl (.refl _) fun _ _ => id) ?_ rfl
      simp only [hreserved, List.length_nil]
      omega

private theorem succeeds_createSucceeded (now : Nat) (target : ScopeTarget) (databaseId : Nat)
    (hstep : sys.createSucceeded now target databaseId = some next) :
    Succeeds sys (.createSucceeded now target databaseId) next := by
  unfold createSucceeded at hstep
  by_cases hrunning : sys.pool.state = .running
  · rw [if_neg (not_not.mpr hrunning)] at hstep
    cases hreserved : sys.reservations with
    | zero =>
      simp only [hreserved] at hstep
      contradiction
    | succ reservations =>
      simp only [hreserved] at hstep
      cases hstep
      refine ⟨[], [sys.nextScopeId], ⟨⟨?_, .inr ⟨rfl, rfl⟩⟩, rfl, hcons.filed, hcons.placed⟩,
        id, fun haccounted => iff_of_true ⟨?_, haccounted.within_size⟩ trivial⟩
      · exact .refl _
      · have hexact := haccounted.exact_count
        simp only [population, hreserved] at hexact
        simp only [population, List.length_cons]
        omega
  · rw [if_pos hrunning] at hstep
    exact succeeds_dropReservation hcons trivial hstep

private theorem succeeds_beginResync (target : ScopeTarget) (runtimeDb : Nat) :
    Succeeds sys (.beginResync target runtimeDb) (sys.beginResync target runtimeDb) := by
  obtain ⟨taken, idle, hperm, hnext⟩ := sys.beginResync_cases target runtimeDb
  rw [hnext]
  refine .of_keep trivial (hcons.moves_perm (List.perm_iff_count.mpr fun id => ?_) rfl rfl rfl
    (fun _ _ => id) hcons.placed) rfl rfl
  have hcount := (hperm.map ScopedConnection.scopeId).count_eq id
  have htaken : (taken.toList.map fun conn => (conn, runtimeDb)).map (fun resync => resync.1.scopeId) =
      taken.toList.map ScopedConnection.scopeId := List.map_map
  simp only [List.map_append, List.count_append] at hcount
  simp only [scopeIds, List.nil_append, List.map_append, htaken, List.count_append]
  omega

private theorem succeeds_resyncReplied (index now : Nat)
    (replies : Option (RedisResult (List Value)))
    (hstep : sys.resyncReplied index now replies = some next) :
    Succeeds sys (.resyncReplied index now replies) next := by
  obtain ⟨conn, runtimeDb, hresync, hcases⟩ := resyncReplied_cases hstep
  have hperm := (perm_cons_eraseIdx hresync).map fun resync => resync.1.scopeId
  rcases hcases with ⟨seated, hid, -, rfl⟩ | rfl
  · refine .of_keep trivial (hcons.moves_perm (List.perm_iff_count.mpr fun id => ?_) rfl rfl rfl
      (fun _ _ => id) hcons.placed) rfl rfl
    have hcount := hperm.count_eq id
    simp only [List.map_cons, List.count_cons] at hcount
    simp only [scopeIds, hid, List.nil_append, List.map_cons, List.cons_append, List.count_cons,
      List.count_append]
    omega
  · suffices hmoves : Moves sys { sys.discardSlot with resyncs := sys.resyncs.eraseIdx index }
        [conn.scopeId] [] from .of_drop trivial hmoves rfl rfl
    refine hcons.moves_perm (List.perm_iff_count.mpr fun id => ?_) rfl rfl rfl (fun _ _ => id)
      hcons.placed
    have hcount := hperm.count_eq id
    simp only [List.map_cons, List.count_cons] at hcount
    simp only [scopeIds, discardSlot, List.cons_append, List.nil_append, List.count_cons,
      List.count_append]
    omega

private theorem succeeds_finish (horderly : sys.Orderly action) (index : Nat)
    (result : Option (RedisResult Value)) (hstep : sys.finish index result = some next) :
    Succeeds sys action next := by
  obtain ⟨command, conn, state, -, hconn, rfl⟩ := finish_cases hstep
  exact .of_keep horderly (hcons.moves_same rfl rfl rfl rfl rfl rfl (.set hconn rfl)
    fun _ _ => id) rfl rfl

/-! ## Releasing -/

omit hcons in
private theorem lookup_takeOut (sys : ScopeSystem) (scopeId : Nat) :
    ∀ other index, (sys.takeOut scopeId).registry.lookup other = some index →
      sys.registry.lookup other = some index :=
  fun _ _ hlookup => Table.lookup_of_lookup_erase hlookup

section

variable (hmem : scopeId ∈ sys.pool.inUse)
include hmem

theorem moves_takeOut :
    Moves sys (sys.takeOut scopeId).discardSlot [scopeId] [] := by
  refine hcons.moves_perm (List.perm_iff_count.mpr fun id => ?_) rfl rfl rfl
    (lookup_takeOut sys scopeId) hcons.placed
  have hcount := (List.perm_cons_erase hmem).count_eq id
  simp only [List.count_cons] at hcount
  simp only [scopeIds, takeOut, discardSlot, List.cons_append, List.nil_append, List.count_cons,
    List.count_append]
  omega

private theorem moves_seat (hid : conn.scopeId = scopeId) :
    Moves sys { sys.takeOut scopeId with
      pool := { (sys.takeOut scopeId).pool with idle := conn :: sys.pool.idle } } [] [] := by
  refine hcons.moves_perm (List.perm_iff_count.mpr fun id => ?_) rfl rfl rfl
    (lookup_takeOut sys scopeId) hcons.placed
  have hcount := (List.perm_cons_erase hmem).count_eq id
  simp only [List.count_cons] at hcount
  simp only [scopeIds, takeOut, hid, List.nil_append, List.map_cons, List.cons_append,
    List.count_cons, List.count_append]
  omega

private theorem moves_clean
    (hlookup : sys.registry.lookup scopeId = some index) (parentDb : Nat) (poolKnown : Bool) :
    Moves sys { sys.takeOut scopeId with
      cleanups := sys.cleanups ++ [⟨index, parentDb, poolKnown, .waiting⟩] } [] [] := by
  obtain ⟨hlt, hid⟩ := hcons.filed scopeId index hlookup
  refine hcons.moves_perm (List.perm_iff_count.mpr fun id => ?_) rfl rfl rfl
    (lookup_takeOut sys scopeId) ?_
  · have hcount := (List.perm_cons_erase hmem).count_eq id
    simp only [List.count_cons] at hcount
    simp only [scopeIds, takeOut, List.nil_append, List.map_append, List.map_cons, List.map_nil,
      Cleanup.scopeId, hid, List.count_append, List.count_singleton]
    omega
  · intro cleanup hcleanup
    rcases List.mem_append.mp hcleanup with hold | hnew
    · exact hcons.placed cleanup hold
    · rw [List.mem_singleton.mp hnew]
      exact hlt

private theorem moves_forget :
    Moves sys { sys with pool := { sys.pool with inUse := sys.pool.inUse.erase scopeId } }
      [scopeId] [] := by
  refine hcons.moves_perm (List.perm_iff_count.mpr fun id => ?_) rfl rfl rfl
    (fun _ _ => id) hcons.placed
  have hcount := (List.perm_cons_erase hmem).count_eq id
  simp only [List.count_cons] at hcount
  simp only [scopeIds, List.cons_append, List.nil_append, List.count_cons, List.count_append]
  omega

end

private theorem succeeds_releaseInner (caller scopeId now : Nat)
    {outcome : Bool × ScopeSystem} (hreleases : Releases sys scopeId outcome) :
    Succeeds sys (.release caller scopeId now) outcome.2 := by
  cases hreleases with
  | unknown hnot =>
    exact .of_keep (fun hmem => absurd hmem hnot)
      (hcons.moves_same rfl rfl rfl rfl rfl rfl (.refl _) fun _ _ => id) rfl rfl
  | unregistered hmem hlookup =>
    -- the scope is no longer counted but its slot has not been given back
    refine .of_lose (fun horderly => ?_) (moves_forget hcons hmem) rfl rfl
    have hregistered := horderly hmem
    rw [hlookup] at hregistered
    contradiction
  | discarded index hmem hlookup =>
    exact .of_drop (fun _ => by rw [hlookup]; rfl) (moves_takeOut hcons hmem) rfl rfl
  | seated index conn seated hmem hlookup hconn hfree hid =>
    have hscope : seated.scopeId = scopeId := by
      rw [hid, ← cellId_of_getElem? hconn]
      exact (hcons.filed scopeId index hlookup).2
    exact .of_keep (fun _ => by rw [hlookup]; rfl) (moves_seat hcons hmem hscope) rfl rfl
  | cleaned index parentDb hmem hlookup =>
    exact .of_keep (fun _ => by rw [hlookup]; rfl)
      (moves_clean hcons hmem hlookup parentDb sys.registered) rfl rfl

private theorem succeeds_release (caller scopeId now : Nat)
    (hstep : sys.release caller scopeId now = some next) :
    Succeeds sys (.release caller scopeId now) next := by
  obtain ⟨accepted, inner, hinner, rfl⟩ := release_cases hstep
  obtain ⟨dropped, added, hmoves, hsize, haccounted⟩ :=
    succeeds_releaseInner hcons caller scopeId now (releaseInner_releases hinner)
  refine ⟨dropped, added, ⟨hmoves.turnover, hmoves.config, hmoves.filed, hmoves.placed⟩,
    hsize, fun hsys => ?_⟩
  refine Iff.trans ⟨fun hnext => ?_, fun hnext => ?_⟩ (haccounted hsys)
  · exact ⟨hnext.exact_count, hnext.within_size⟩
  · exact ⟨hnext.exact_count, hnext.within_size⟩

/-! ## Cleaning up -/

omit hcons in
private theorem cleanupIds_set {cells : List ScopedConnection} {cleanups : List Cleanup}
    {changed : Cleanup} (hcleanup : cleanups[index]? = some cleanup)
    (hid : changed.scopeId cells = cleanup.scopeId cells) :
    (cleanups.set index changed).map (Cleanup.scopeId cells) =
      cleanups.map (Cleanup.scopeId cells) := by
  rw [List.map_set, hid]
  refine List.ext_getElem? fun other => ?_
  by_cases hother : index = other
  · subst hother
    have hlt : index < (cleanups.map (Cleanup.scopeId cells)).length := by
      rw [List.length_map]
      exact (List.getElem?_eq_some_iff.mp hcleanup).1
    rw [List.getElem?_set_self hlt, List.getElem?_map, hcleanup, Option.map_some]
  · rw [List.getElem?_set_ne hother]

private theorem moves_setPhase {phase : CleanupPhase}
    (hcleanup : sys.cleanups[index]? = some cleanup)
    (hid : Cleanup.scopeId sys.cells { cleanup with phase := phase } = cleanup.scopeId sys.cells) :
    Moves sys (sys.setPhase index cleanup phase) [] [] := by
  refine hcons.moves_perm (.of_eq ?_) rfl rfl rfl (fun _ _ => id) ?_
  · simp [scopeIds, setPhase, cleanupIds_set hcleanup hid]
  · intro other hmem
    rcases List.mem_or_eq_of_mem_set hmem with hold | rfl
    · exact hcons.placed other hold
    · exact hcons.placed cleanup (List.mem_of_getElem? hcleanup)

private theorem succeeds_cleanupReplied (index now : Nat)
    (replies : Option (RedisResult (List Value)))
    (hstep : sys.cleanupReplied index now replies = some next) :
    Succeeds sys (.cleanupReplied index now replies) next := by
  obtain ⟨cleanup, conn, seated, hcleanup, hconn, hphase, hseated, rfl⟩ := cleanupReplied_cases hstep
  refine .of_keep trivial (moves_setPhase hcons hcleanup ?_) rfl rfl
  cases seated with
  | none => simp [Cleanup.scopeId, hphase]
  | some idle =>
    simp only [Cleanup.scopeId, hphase, cellId_of_getElem? hconn]
    exact (hseated idle rfl).1

private theorem succeeds_cleanupSettled (index : Nat)
    (hstep : sys.cleanupSettled index = some next) :
    Succeeds sys (.cleanupSettled index) next := by
  obtain ⟨cleanup, seated, hcleanup, hphase, hcases⟩ := cleanupSettled_cases hstep
  have hperm := (perm_cons_eraseIdx hcleanup).map (Cleanup.scopeId sys.cells)
  have hplaced : ∀ other ∈ sys.cleanups.eraseIdx index, other.cell < sys.cells.length :=
    fun other hmem => hcons.placed other (List.mem_of_mem_eraseIdx hmem)
  -- a settled cleanup leaves the system unless it is seated
  have hleaves : ∀ totalCount, Moves sys { sys with
      pool := { sys.pool with totalCount := totalCount }
      cleanups := sys.cleanups.eraseIdx index } [cleanup.scopeId sys.cells] [] := by
    intro totalCount
    refine hcons.moves_perm (List.perm_iff_count.mpr fun id => ?_) rfl rfl rfl (fun _ _ => id)
      hplaced
    have hcount := hperm.count_eq id
    simp only [List.map_cons, List.count_cons] at hcount
    simp only [scopeIds, List.cons_append, List.nil_append, List.count_cons, List.count_append]
    omega
  have hall : cleanup.poolKnown = true → sys.Orderly (.cleanupSettled index) := by
    intro hknown
    simp [Orderly, hcleanup, hknown]
  rcases hcases with ⟨conn, rfl, hknown, rfl⟩ | ⟨hknown, rfl⟩ | ⟨hunknown, rfl⟩
  · refine .of_keep (hall hknown) (hcons.moves_perm (List.perm_iff_count.mpr fun id => ?_) rfl rfl
      rfl (fun _ _ => id) hplaced) rfl rfl
    have hcount := hperm.count_eq id
    have hid : cleanup.scopeId sys.cells = conn.scopeId := by
      simp [Cleanup.scopeId, hphase]
    simp only [List.map_cons, List.count_cons, hid] at hcount
    simp only [scopeIds, List.nil_append, List.map_cons, List.cons_append, List.count_cons,
      List.count_append]
    omega
  · exact .of_drop (hall hknown) (hleaves _) rfl rfl
  · refine .of_lose ?_ (hleaves sys.pool.totalCount) rfl rfl
    simp only [Orderly, hcleanup, Option.all_some, hunknown]
    exact Bool.false_ne_true

private theorem succeeds_destroy : Succeeds sys .destroy sys.destroy := by
  refine ⟨sys.pool.idle.map ScopedConnection.scopeId ++ sys.pool.inUse, [],
    hcons.moves_perm ?_ rfl rfl rfl (fun _ _ => Table.lookup_of_lookup_foldl_erase) hcons.placed,
    fun _ => Nat.zero_le _, fun _ => ⟨fun hnext => ?_, fun hquiet => ⟨?_, Nat.zero_le _⟩⟩⟩
  · simp [scopeIds, destroy, ScopePool.destroy]
  · have hexact : 0 = 0 + 0 + sys.reservations + sys.resyncs.length + sys.cleanups.length :=
      hnext.exact_count
    exact ⟨by omega, List.eq_nil_of_length_eq_zero (by omega),
      List.eq_nil_of_length_eq_zero (by omega)⟩
  · obtain ⟨hreservations, hresyncs, hcleanups⟩ := hquiet
    simp [population, destroy, ScopePool.destroy, hreservations, hresyncs, hcleanups]

end

end Steps

variable {action : ScopeAction} {sys : ScopeSystem}

theorem step_succeeds {env : ScopeEnv} {next : ScopeSystem} (hcons : sys.Consistent)
    (hstep : sys.step env action = some next) : Succeeds sys action next := by
  have hsame : ∀ {next : ScopeSystem}, next.pool = sys.pool → next.resyncs = sys.resyncs →
      next.cleanups = sys.cleanups → next.nextScopeId = sys.nextScopeId →
      next.cells = sys.cells → next.reservations = sys.reservations →
      (∀ scopeId index, next.registry.lookup scopeId = some index →
        sys.registry.lookup scopeId = some index) → sys.Orderly action →
      Succeeds sys action next := by
    intro next hpool hresyncs hcleanups hnext hcells hreservations hregistry horderly
    refine .of_keep horderly (hcons.moves_same ?_ ?_ hresyncs hcleanups hnext ?_ ?_ hregistry)
      hreservations ?_
    all_goals first | rw [hpool] | rw [hcells]; exact .refl _
  cases action with
  | acquire caller now target runtimeDb acquisitionSlot =>
    cases hstep
    exact succeeds_acquire hcons caller now target runtimeDb acquisitionSlot
  | prewarm => exact succeeds_prewarm hcons hstep
  | createSucceeded now target databaseId =>
    exact succeeds_createSucceeded hcons now target databaseId hstep
  | dropReservation => exact succeeds_dropReservation hcons trivial hstep
  | beginResync target runtimeDb =>
    cases hstep
    exact succeeds_beginResync hcons target runtimeDb
  | resyncReplied index now replies => exact succeeds_resyncReplied hcons index now replies hstep
  | submit caller scopeId name args =>
    cases hstep
    unfold submit
    split <;> exact hsame rfl rfl rfl rfl rfl rfl (fun _ _ => id) trivial
  | start index =>
    obtain ⟨command, conn, changed, started, -, hconn, hid, -, -, rfl⟩ := start_cases hstep
    exact .of_keep trivial (hcons.moves_same rfl rfl rfl rfl rfl rfl (.set hconn hid)
      fun _ _ => id) rfl rfl
  | finish index result => exact succeeds_finish hcons trivial index (some result) hstep
  | cancelWaiting index | unregister =>
    cases hstep
    exact hsame rfl rfl rfl rfl rfl rfl (fun _ _ => id) trivial
  | cancelRunning index => exact succeeds_finish hcons trivial index none hstep
  | release caller scopeId now => exact succeeds_release hcons caller scopeId now hstep
  | cleanupStart index =>
    obtain ⟨cleanup, hcleanup, hphase, rfl⟩ := cleanupStart_cases hstep
    refine .of_keep trivial (moves_setPhase hcons hcleanup ?_) rfl rfl
    simp [Cleanup.scopeId, hphase]
  | cleanupReplied index now replies =>
    exact succeeds_cleanupReplied hcons index now replies hstep
  | cleanupSettled index => exact succeeds_cleanupSettled hcons index hstep
  | removeEntry scopeId =>
    cases hstep
    exact hsame rfl rfl rfl rfl rfl rfl (fun _ _ => Table.lookup_of_lookup_erase) trivial
  | destroy =>
    cases hstep
    exact succeeds_destroy hcons

/-! ## Runs -/

theorem initial_consistent (config : ScopePoolConfig) (clientName : Bytes) :
    (initial (.new config clientName)).Consistent ∧
      (initial (.new config clientName)).Accounted := by
  refine ⟨⟨⟨?_, ?_⟩, ?_, ?_⟩, ?_, ?_⟩ <;>
    simp [initial, ScopePool.new, scopeIds, population, Filed]

theorem falseReleaseKeeps_of_orderly (horderly : sys.Orderly action) :
    sys.FalseReleaseKeeps action := by
  cases action with
  | release caller scopeId now =>
    intro next hrelease
    cases releaseInner_releases hrelease with
    | unknown hnot => exact ⟨rfl, rfl, rfl⟩
    | unregistered hmem hlookup =>
      have hregistered := horderly hmem
      rw [hlookup] at hregistered
      contradiction
  | _ => trivial

/--
In every run of a new pool whose steps are orderly, the counter is exact and within
the configured size in the state reached, and no release on the way has reported
failure and yet changed the pool.
-/
theorem orderly_run_accounted {env : ScopeEnv} {config : ScopePoolConfig} {clientName : Bytes}
    {actions : List ScopeAction} {final : ScopeSystem}
    (horderly : Along (step env) Orderly (initial (.new config clientName)) actions)
    (hrun : run (step env) (initial (.new config clientName)) actions = some final) :
    final.Accounted ∧
      Along (step env) FalseReleaseKeeps (initial (.new config clientName)) actions := by
  have hpreserved : ∀ (sys : ScopeSystem) (action : ScopeAction) (next : ScopeSystem),
      sys.Consistent ∧ sys.Accounted → sys.Orderly action →
        sys.step env action = some next → next.Consistent ∧ next.Accounted := by
    rintro sys action next ⟨hcons, haccounted⟩ horderly hstep
    obtain ⟨dropped, added, hmoves, -, hiff⟩ := step_succeeds hcons hstep
    exact ⟨hmoves.consistent hcons, (hiff haccounted).mpr horderly⟩
  have hinit := initial_consistent config clientName
  refine ⟨?_, ?_⟩
  · exact (run_invariant (fun sys => sys.Consistent ∧ sys.Accounted) hpreserved hinit horderly
      hrun).2
  · exact along_of_invariant _ hpreserved
      (fun _ _ _ horderly => falseReleaseKeeps_of_orderly horderly) hinit horderly

def soloScope : ScopeSystem := initial (.new ⟨1, 10, one_lt_counter⟩ [])

def borrowSolo : List ScopeAction :=
  [.acquire 1 0 .standalone 0 none, .createSucceeded 0 .standalone 0,
    .acquire 1 0 .standalone 0 none]

theorem disorderly_scopes_not_accounted :
    (∃ sys inner final, run (step standaloneEnv) soloScope (borrowSolo ++ [.removeEntry 1]) =
        some sys ∧
      sys.releaseInner 1 0 = some (false, inner) ∧ sys.pool.inUse = [1] ∧
      inner.pool.inUse = [] ∧ ¬ sys.FalseReleaseKeeps (.release 1 1 0) ∧
      sys.step standaloneEnv (.release 1 1 0) = some final ∧
      final.pool.totalCount = 1 ∧ final.population = 0 ∧ ¬ final.Accounted) ∧
    (∃ final, run (step standaloneEnv) soloScope [.acquire 1 0 .standalone 0 none, .destroy] =
        some final ∧
      final.pool.totalCount = 0 ∧ final.population = 1 ∧ ¬ final.Accounted) ∧
    ∃ final, run (step standaloneEnv) soloScope
        (borrowSolo ++ [.submit 1 1 (bytes "SELECT") [bytes "1"], .start 0, .finish 0 (.ok .okay),
          .unregister, .release 1 1 0, .cleanupStart 0, .cleanupReplied 0 0 (some (.ok [])),
          .cleanupSettled 0]) = some final ∧
      final.pool.totalCount = 1 ∧ final.population = 0 ∧ ¬ final.Accounted := by
  refine ⟨⟨_, _, _, rfl, rfl, rfl, rfl, fun hkeeps => ?_, rfl, rfl, rfl, fun haccounted => ?_⟩,
    ⟨_, rfl, rfl, rfl, fun haccounted => ?_⟩, _, rfl, rfl, rfl, fun haccounted => ?_⟩
  · have hinUse : [] = [1] := (hkeeps _ rfl).2.1
    contradiction
  · have hexact : 1 = 0 := haccounted.exact_count
    contradiction
  · have hexact : 0 = 1 := haccounted.exact_count
    contradiction
  · have hexact : 1 = 0 := haccounted.exact_count
    contradiction

theorem released_scope_accounted :
    ∃ final, run (step standaloneEnv) soloScope
        (borrowSolo ++ [.submit 1 1 (bytes "SELECT") [bytes "1"], .start 0, .finish 0 (.ok .okay),
          .release 1 1 0, .cleanupStart 0, .cleanupReplied 0 0 (some (.ok [])),
          .cleanupSettled 0, .release 1 1 0, .destroy]) = some final ∧ final.Accounted := by
  have horderly : Along (step standaloneEnv) Orderly soloScope
      (borrowSolo ++ [.submit 1 1 (bytes "SELECT") [bytes "1"], .start 0, .finish 0 (.ok .okay),
        .release 1 1 0, .cleanupStart 0, .cleanupReplied 0 0 (some (.ok [])),
        .cleanupSettled 0, .release 1 1 0, .destroy]) := by decide
  exact ⟨_, rfl, (orderly_run_accounted horderly rfl).1⟩

end ScopeSystem

end ValkeyGlide.Scope
