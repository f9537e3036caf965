import Mathlib.Logic.Function.Iterate
import ValkeyGlide.Foundation.Circulation
import ValkeyGlide.Foundation.Table
import ValkeyGlide.Pool.ClientPool

/-!
# Accounting of the client pool

`totalCount` is adjusted by every task on its own.  One case analysis says what a
step does to the clients, to the counter and to the reports.  From it follows
which steps keep the counter equal to the number of clients and reservations it
stands for, and that it is so in every run made of such steps.
-/

namespace ValkeyGlide.Pool

open Foundation

theorem fetchSub_iterate {count times : Nat} (hle : times ≤ count) :
    fetchSub^[times] count = count - times := by
  induction times generalizing count with
  | zero => rfl
  | succ times ih =>
    rw [Function.iterate_succ_apply, fetchSub_of_pos (by omega), ih (by omega)]
    omega

namespace ClientPool

def heldIds (pool : ClientPool) : List Nat :=
  pool.idle.map PooledClient.clientId ++ pool.inUse.keys

def idleIds (pool : ClientPool) : List Nat := pool.idle.map PooledClient.clientId

def Filed (table : ClientTable) : Prop :=
  ∀ id entry, table.lookup id = some entry → entry.clientId = id

variable {table : ClientTable}

theorem Filed.insert (hfiled : Filed table) (entry : PooledClient) :
    Filed (table.insert entry.clientId entry) := by
  intro id found hfound
  by_cases hid : id = entry.clientId
  · subst hid
    rw [AList.lookup_insert] at hfound
    exact congrArg PooledClient.clientId (Option.some.inj hfound).symm
  · rw [AList.lookup_insert_ne hid] at hfound
    exact hfiled id found hfound

theorem Filed.erase (hfiled : Filed table) (id : Nat) : Filed (table.erase id) := by
  intro other found hfound
  by_cases hother : other = id
  · rw [hother, AList.lookup_erase] at hfound
    contradiction
  · rw [AList.lookup_erase_ne hother] at hfound
    exact hfiled other found hfound

structure Acquires (pool pool' : ClientPool) (evicted : List Nat) : Prop where
  count : pool'.totalCount = fetchSub^[evicted.length] pool.totalCount
  ids : (evicted ++ pool'.heldIds).Perm pool.heldIds
  config : pool'.config = pool.config
  filed : Filed pool.inUse → Filed pool'.inUse

theorem Acquires.refl (pool : ClientPool) : Acquires pool pool [] :=
  ⟨rfl, .refl _, rfl, id⟩

theorem acquireIdle_spec (now : Nat) (idle : List PooledClient) (pool : ClientPool) :
    acquireIdle now idle pool = (-3, { pool with
        idle := []
        totalCount := fetchSub^[idle.length] pool.totalCount
        discardedIds := pool.discardedIds ++ idle.map PooledClient.clientId }) ∨
      ∃ expired entry rest, idle = expired ++ entry :: rest ∧
        acquireIdle now idle pool = ((entry.clientId : Int), { pool with
          idle := rest
          inUse := pool.inUse.insert entry.clientId
            { entry with state := .inUse, borrowedAt := some now }
          totalCount := fetchSub^[expired.length] pool.totalCount
          discardedIds := pool.discardedIds ++ expired.map PooledClient.clientId }) := by
  induction idle generalizing pool with
  | nil => exact .inl (by simp [acquireIdle])
  | cons entry rest ih =>
    rw [acquireIdle]
    split
    · rcases ih (pool.discardClient entry.clientId) with hmiss | ⟨expired, hit, below, rfl, hhit⟩
      · refine .inl ?_
        rw [hmiss]
        simp [discardClient]
      · refine .inr ⟨entry :: expired, hit, below, rfl, ?_⟩
        rw [hhit]
        simp [discardClient]
    · exact .inr ⟨[], entry, rest, rfl, by simp⟩

theorem tryAcquire_acquires {pool : ClientPool} (now : Nat) (hnodup : pool.heldIds.Nodup) :
    ∃ evicted, Acquires pool (pool.tryAcquire now).2 evicted ∧
      (pool.tryAcquire now).2.discardedIds = pool.discardedIds ++ evicted := by
  unfold tryAcquire
  split
  · exact ⟨[], .refl pool, (List.append_nil _).symm⟩
  · rcases acquireIdle_spec now pool.idle pool with hmiss | ⟨expired, entry, rest, hidle, hhit⟩
    · rw [hmiss]
      refine ⟨pool.idle.map PooledClient.clientId, ⟨?_, ?_, rfl, id⟩, rfl⟩
      · rw [List.length_map]
      · exact .of_eq (by simp [heldIds])
    · rw [hhit]
      refine ⟨expired.map PooledClient.clientId, ⟨?_, ?_, rfl, fun hfiled =>
        hfiled.insert { entry with state := .inUse, borrowedAt := some now }⟩, rfl⟩
      · rw [List.length_map]
      · have hnot : entry.clientId ∉ pool.inUse.keys := by
          intro hmem
          refine List.disjoint_of_nodup_append hnodup ?_ hmem
          simp [hidle]
        simp only [heldIds, hidle, List.map_append, List.map_cons, List.append_assoc,
          List.cons_append]
        rw [Table.keys_insert_of_notMem _ hnot]
        exact List.Perm.append_left _ List.perm_middle

theorem tryAcquire_cases (pool : ClientPool) (now : Nat) :
    (pool.tryAcquire now).1 < 0 ∧ (pool.tryAcquire now).2.idleIds ⊆ pool.idleIds ∨
      ∃ clientId : Nat, (pool.tryAcquire now).1 = clientId ∧ clientId ∈ pool.idleIds ∧
        clientId ∈ (pool.tryAcquire now).2.inUse.keys ∧
        (pool.tryAcquire now).2.idleIds ⊆ pool.idleIds := by
  unfold tryAcquire
  split
  · exact .inl ⟨by simp, List.Subset.refl _⟩
  · rcases acquireIdle_spec now pool.idle pool with hmiss | ⟨expired, entry, rest, hidle, hhit⟩
    · rw [hmiss]
      exact .inl ⟨by simp, List.nil_subset _⟩
    · rw [hhit]
      refine .inr ⟨entry.clientId, rfl, ?_, ?_, ?_⟩
      · simp [idleIds, hidle]
      · rw [AList.keys_insert]
        exact List.mem_cons_self
      · simp only [idleIds, hidle, List.map_append, List.map_cons]
        exact List.subset_append_of_subset_right _ (List.subset_cons_self _ _)

end ClientPool

namespace PoolSystem

open ClientPool

/-! ## What a step tells its callers -/

def acquiredId (sys : PoolSystem) : PoolAction → Option Nat
  | .acquire now =>
    let result := (sys.pool.tryAcquire now).1
    if result < 0 then none else some result.toNat
  | _ => none

def AcceptsRelease (clientId : Nat) (sys : PoolSystem) (action : PoolAction) : Prop :=
  action = .beginRelease clientId ∧ clientId ∈ sys.pool.inUse.keys

def removedByMonitor (sys : PoolSystem) : PoolAction → Option Nat
  | .monitorDiscard now =>
    sys.abandoned.head?.filter fun clientId =>
      clientId ∈ sys.pool.inUse.keys ∧ clientId ∉ (sys.pool.discardAbandoned now clientId).inUse.keys
  | _ => none

def reportedIds (sys : PoolSystem) : PoolAction → List Nat
  | .drainDiscardedIds => sys.pool.drainDiscardedIds.1
  | _ => []

def destroyedIds (sys : PoolSystem) : PoolAction → List Nat
  | .destroy => sys.pool.heldIds
  | _ => []

/-! ## Where the clients go -/

/--
What one step does to the clients: `dropped` leave the system, `added` enter it
under a new id, and all others stay, perhaps in another place.
-/
structure Moves (sys next : PoolSystem) (dropped added : List Nat) : Prop where
  ids : (dropped ++ next.clientIds).Perm (added ++ sys.clientIds)
  fresh : added = [] ∧ next.nextClientId = sys.nextClientId ∨
    added = [sys.nextClientId] ∧ next.nextClientId = sys.nextClientId + 1
  config : next.pool.config = sys.pool.config
  filed_inUse : Filed next.pool.inUse
  filed_releasing : Filed next.releasing

namespace Moves

variable {sys next : PoolSystem} {dropped added : List Nat}

theorem turnover (hmoves : Moves sys next dropped added) :
    Turnover sys.clientIds sys.nextClientId next.clientIds next.nextClientId dropped added :=
  ⟨hmoves.ids, hmoves.fresh⟩

theorem consistent (hcons : sys.Consistent) (hmoves : Moves sys next dropped added) :
    next.Consistent := by
  have hcirc := hmoves.turnover.circulation ⟨hcons.nodup, hcons.fresh⟩
  exact ⟨hcirc.nodup, hcirc.allocated, hmoves.filed_inUse, hmoves.filed_releasing⟩

theorem population (hmoves : Moves sys next dropped added) :
    next.population + dropped.length + sys.reservations =
      sys.population + added.length + next.reservations := by
  have hlength := hmoves.ids.length_eq
  simp only [clientIds, List.length_append, List.length_map] at hlength
  simp only [PoolSystem.population]
  omega

end Moves

variable {sys next : PoolSystem}

theorem Consistent.heldIds_nodup (hcons : sys.Consistent) :
    sys.pool.heldIds.Nodup :=
  List.Nodup.of_append_left hcons.nodup

theorem Consistent.notMem_releasing (hcons : sys.Consistent) {id : Nat}
    (hmem : id ∈ sys.pool.inUse.keys) : id ∉ sys.releasing.keys := fun hreleasing =>
  (List.disjoint_of_nodup_append hcons.nodup) (List.mem_append.mpr (.inr hmem)) hreleasing

/-! ## The steps -/

section Steps

variable {sys : PoolSystem}

theorem moves_acquire (hcons : sys.Consistent) {pool : ClientPool} {evicted : List Nat}
    (hacquires : Acquires sys.pool pool evicted) (totalCount reservations : Nat) :
    Moves sys { sys with pool := { pool with totalCount := totalCount },
                         reservations := reservations } evicted [] where
  ids := by simpa [clientIds, heldIds] using hacquires.ids.append_right sys.releasing.keys
  fresh := .inl ⟨rfl, rfl⟩
  config := hacquires.config
  filed_inUse := hacquires.filed hcons.filed_inUse
  filed_releasing := hcons.filed_releasing

theorem moves_add (hcons : sys.Consistent) (now totalCount reservations : Nat) :
    Moves sys { sys with
        pool := { sys.pool.addClientReserved sys.nextClientId now with totalCount := totalCount }
        reservations := reservations
        nextClientId := sys.nextClientId + 1 } [] [sys.nextClientId] where
  ids := by simp [clientIds, addClientReserved]
  fresh := .inr ⟨rfl, rfl⟩
  config := rfl
  filed_inUse := hcons.filed_inUse
  filed_releasing := hcons.filed_releasing

theorem moves_none (hcons : sys.Consistent) (totalCount reservations : Nat)
    (discardedIds abandoned : List Nat) :
    Moves sys { sys with
        pool := { sys.pool with totalCount := totalCount, discardedIds := discardedIds }
        reservations := reservations
        abandoned := abandoned } [] [] :=
  ⟨.refl _, .inl ⟨rfl, rfl⟩, rfl, hcons.filed_inUse, hcons.filed_releasing⟩

variable {clientId : Nat} {entry : PooledClient}

section

variable (hcons : sys.Consistent)
include hcons

theorem moves_beginRelease (hlookup : sys.pool.inUse.lookup clientId = some entry) :
    Moves sys { sys with
        pool := { sys.pool with inUse := sys.pool.inUse.erase clientId }
        releasing := sys.releasing.insert entry.clientId entry } [] [] where
  ids := by
    obtain rfl := hcons.filed_inUse clientId entry hlookup
    have hnot := hcons.notMem_releasing (Table.mem_keys_of_lookup hlookup)
    simp only [clientIds, List.nil_append, Table.keys_insert_of_notMem entry hnot]
    rw [List.append_assoc, List.append_assoc]
    refine List.Perm.append_left _ (List.perm_middle.trans ?_)
    exact ((Table.keys_perm_of_lookup hlookup).append_right _).symm
  fresh := .inl ⟨rfl, rfl⟩
  config := rfl
  filed_inUse := Filed.erase hcons.filed_inUse clientId
  filed_releasing := Filed.insert hcons.filed_releasing entry

theorem moves_releaseUnknown (hlookup : sys.pool.inUse.lookup clientId = none) :
    Moves sys { sys with pool := { sys.pool with inUse := sys.pool.inUse.erase clientId } } [] []
    where
  ids := by simp [clientIds, Table.keys_erase_of_lookup_eq_none hlookup]
  fresh := .inl ⟨rfl, rfl⟩
  config := rfl
  filed_inUse := Filed.erase hcons.filed_inUse clientId
  filed_releasing := hcons.filed_releasing

theorem moves_returnToIdle
    (hlookup : sys.releasing.lookup clientId = some entry) (idleEntry : PooledClient)
    (hid : idleEntry.clientId = entry.clientId) :
    Moves sys { sys with
        pool := { sys.pool with idle := idleEntry :: sys.pool.idle }
        releasing := sys.releasing.erase clientId } [] [] where
  ids := by
    obtain rfl := hcons.filed_releasing clientId entry hlookup
    simp only [clientIds, List.nil_append, List.map_cons, List.cons_append, hid]
    refine List.perm_middle.symm.trans (List.Perm.append_left _ ?_)
    exact (Table.keys_perm_of_lookup hlookup).symm
  fresh := .inl ⟨rfl, rfl⟩
  config := rfl
  filed_inUse := hcons.filed_inUse
  filed_releasing := Filed.erase hcons.filed_releasing clientId

theorem moves_discardReleasing (hlookup : sys.releasing.lookup clientId = some entry) :
    Moves sys { sys with
        pool := sys.pool.discardClient entry.clientId
        releasing := sys.releasing.erase clientId } [clientId] [] where
  ids := by
    simp only [clientIds, discardClient, List.nil_append, List.singleton_append]
    refine List.perm_middle.symm.trans (List.Perm.append_left _ ?_)
    exact (Table.keys_perm_of_lookup hlookup).symm
  fresh := .inl ⟨rfl, rfl⟩
  config := rfl
  filed_inUse := hcons.filed_inUse
  filed_releasing := Filed.erase hcons.filed_releasing clientId

theorem moves_discardInUse
    (hlookup : sys.pool.inUse.lookup clientId = some entry) (abandoned : List Nat) :
    Moves sys { sys with
        pool := { sys.pool with inUse := sys.pool.inUse.erase clientId }.discardClient clientId
        abandoned := abandoned } [clientId] [] where
  ids := by
    simp only [clientIds, discardClient, List.nil_append, List.singleton_append]
    rw [← List.cons_append]
    refine List.Perm.append_right _ (List.perm_middle.symm.trans (List.Perm.append_left _ ?_))
    exact (Table.keys_perm_of_lookup hlookup).symm
  fresh := .inl ⟨rfl, rfl⟩
  config := rfl
  filed_inUse := Filed.erase hcons.filed_inUse clientId
  filed_releasing := hcons.filed_releasing

theorem moves_updateInUse (clientId : Nat) {change : PooledClient → PooledClient}
    (hchange : ∀ entry, (change entry).clientId = entry.clientId) :
    Moves sys { sys with pool := sys.pool.updateInUse clientId change } [] [] := by
  unfold updateInUse
  split
  · exact ⟨.refl _, .inl ⟨rfl, rfl⟩, rfl, hcons.filed_inUse, hcons.filed_releasing⟩
  · next entry hlookup =>
      refine ⟨?_, .inl ⟨rfl, rfl⟩, rfl, ?_, hcons.filed_releasing⟩
      · simp only [clientIds, List.nil_append]
        exact ((Table.keys_insert_perm_of_lookup hlookup _).append_left _).append_right _
      · have hid : (change entry).clientId = clientId := by
          rw [hchange, hcons.filed_inUse clientId entry hlookup]
        have hfiled := Filed.insert hcons.filed_inUse (change entry)
        rwa [hid] at hfiled

theorem moves_destroy :
    Moves sys { sys with pool := sys.pool.destroy } sys.pool.heldIds [] where
  ids := by simp [clientIds, heldIds, destroy, List.append_assoc]
  fresh := .inl ⟨rfl, rfl⟩
  config := rfl
  filed_inUse := by
    intro id entry hlookup
    simp [destroy] at hlookup
  filed_releasing := hcons.filed_releasing

end

end Steps

private theorem Moves.accounted {dropped added : List Nat} (hmoves : Moves sys next dropped added)
    (haccounted : sys.Accounted)
    (hcount : next.pool.totalCount + dropped.length + sys.reservations =
      sys.pool.totalCount + added.length + next.reservations)
    (hsize : next.pool.totalCount ≤ sys.pool.config.maxSize) : next.Accounted where
  exact_count := by
    have hpopulation := hmoves.population
    have hexact := haccounted.exact_count
    omega
  within_size := by rwa [hmoves.config]

def Succeeds (sys : PoolSystem) (action : PoolAction) (next : PoolSystem) : Prop :=
  ∃ dropped added, Moves sys next dropped added ∧
    (sys.Accounted → (next.Accounted ↔ sys.Orderly action))

structure Conserves (sys : PoolSystem) (action : PoolAction) (next : PoolSystem)
    (dropped added : List Nat) : Prop where
  moves : Moves sys next dropped added
  reported : (sys.reportedIds action ++ next.pool.discardedIds ++ sys.destroyedIds action).Perm
    (sys.pool.discardedIds ++ dropped)

/-- Where an idle client, or one that is being released, was before the step. -/
structure Traces (sys : PoolSystem) (action : PoolAction) (next : PoolSystem) : Prop where
  idle : ∀ id ∈ next.pool.idleIds,
    id ∈ sys.pool.idleIds ∨ id ∈ sys.releasing.keys ∨ id = sys.nextClientId
  releasing : ∀ id ∈ next.releasing.keys,
    id ∈ sys.releasing.keys ∨ AcceptsRelease id sys action

/-- What one step does to the accounts, to the reports and to the places of the clients. -/
structure Effect (sys : PoolSystem) (action : PoolAction) (next : PoolSystem) : Prop where
  succeeds : Succeeds sys action next
  conserves : ∃ dropped added, Conserves sys action next dropped added
  traces : Traces sys action next

structure Plain (sys : PoolSystem) (action : PoolAction) : Prop where
  reported : sys.reportedIds action = []
  destroyed : sys.destroyedIds action = []
  orderly : sys.Orderly action

section Effects

variable {sys next : PoolSystem} {action : PoolAction} {dropped added : List Nat}

theorem Traces.of_subset (hidle : next.pool.idleIds ⊆ sys.pool.idleIds)
    (hreleasing : next.releasing.keys ⊆ sys.releasing.keys) : Traces sys action next where
  idle _ hmem := .inl (hidle hmem)
  releasing _ hmem := .inl (hreleasing hmem)

theorem Traces.of_same (hidle : next.pool.idleIds = sys.pool.idleIds)
    (hreleasing : next.releasing = sys.releasing) : Traces sys action next :=
  .of_subset (hidle ▸ List.Subset.refl _) (hreleasing ▸ List.Subset.refl _)

theorem Traces.of_seated {id : Nat} (hidle : next.pool.idleIds = id :: sys.pool.idleIds)
    (hid : id ∈ sys.releasing.keys ∨ id = sys.nextClientId)
    (hreleasing : next.releasing.keys ⊆ sys.releasing.keys) : Traces sys action next where
  idle other hmem := by
    rw [hidle] at hmem
    rcases List.mem_cons.mp hmem with rfl | hold
    · exact .inr hid
    · exact .inl hold
  releasing _ hmem := .inl (hreleasing hmem)

theorem Conserves.of_discards (hreported : sys.reportedIds action = [])
    (hdestroyed : sys.destroyedIds action = []) (hmoves : Moves sys next dropped added)
    (hdiscarded : next.pool.discardedIds = sys.pool.discardedIds ++ dropped) :
    Conserves sys action next dropped added :=
  ⟨hmoves, by simp [hreported, hdestroyed, hdiscarded]⟩

section

variable (hplain : Plain sys action)
include hplain

theorem Effect.of_moves (hmoves : Moves sys next dropped added)
    (hcount : sys.Accounted → next.pool.totalCount + dropped.length + sys.reservations =
      sys.pool.totalCount + added.length + next.reservations)
    (hsize : sys.Accounted → next.pool.totalCount ≤ sys.pool.config.maxSize)
    (hdiscarded : next.pool.discardedIds = sys.pool.discardedIds ++ dropped)
    (htraces : Traces sys action next) : Effect sys action next where
  succeeds := ⟨dropped, added, hmoves, fun haccounted => iff_of_true
    (hmoves.accounted haccounted (hcount haccounted) (hsize haccounted)) hplain.orderly⟩
  conserves := ⟨_, _, .of_discards hplain.reported hplain.destroyed hmoves hdiscarded⟩
  traces := htraces

theorem Effect.of_keep (hmoves : Moves sys next [] [])
    (hreservations : next.reservations = sys.reservations)
    (hcount : next.pool.totalCount = sys.pool.totalCount)
    (hdiscarded : next.pool.discardedIds = sys.pool.discardedIds)
    (htraces : Traces sys action next) : Effect sys action next :=
  .of_moves hplain hmoves (fun _ => by rw [hcount, hreservations])
    (fun haccounted => hcount ▸ haccounted.within_size) (by rw [hdiscarded, List.append_nil]) htraces

theorem Effect.of_leave (hmoves : Moves sys next dropped [])
    (hleave : dropped.length + sys.reservations = next.reservations + 1)
    (hcount : next.pool.totalCount = fetchSub sys.pool.totalCount)
    (hdiscarded : next.pool.discardedIds = sys.pool.discardedIds ++ dropped)
    (htraces : Traces sys action next) : Effect sys action next := by
  have hsub : sys.Accounted → next.pool.totalCount + 1 = sys.pool.totalCount := by
    intro haccounted
    have hpopulation := hmoves.population
    have hexact := haccounted.exact_count
    simp only [List.length_nil] at hpopulation
    rw [hcount, fetchSub_of_pos (by omega)]
    omega
  refine .of_moves hplain hmoves (fun haccounted => ?_) (fun haccounted => ?_) hdiscarded htraces
  · have := hsub haccounted
    simp only [List.length_nil]
    omega
  · have := hsub haccounted
    have := haccounted.within_size
    omega

end

theorem updateInUse_eq (pool : ClientPool) (clientId : Nat) (change : PooledClient → PooledClient) :
    ∃ inUse, pool.updateInUse clientId change = { pool with inUse := inUse } := by
  unfold updateInUse
  split
  · exact ⟨pool.inUse, rfl⟩
  · exact ⟨_, rfl⟩

section

variable (hcons : sys.Consistent) {clientId : Nat}
include hcons

private theorem effect_acquire (now : Nat) (hstep : sys.step (.acquire now) = some next) :
    Effect sys (.acquire now) next := by
  obtain ⟨evicted, hacquires, hdiscarded⟩ := tryAcquire_acquires now hcons.heldIds_nodup
  have hidle : (sys.pool.tryAcquire now).2.idleIds ⊆ sys.pool.idleIds := by
    rcases tryAcquire_cases sys.pool now with ⟨-, hsubset⟩ | ⟨_, -, -, -, hsubset⟩ <;> exact hsubset
  simp only [step] at hstep
  set result := sys.pool.tryAcquire now
  have hcount : sys.Accounted → result.2.totalCount + evicted.length = sys.pool.totalCount := by
    intro haccounted
    have hheld := hacquires.ids.length_eq
    have hexact := haccounted.exact_count
    simp only [heldIds, List.length_append, List.length_map] at hheld
    simp only [population] at hexact
    rw [hacquires.count, fetchSub_iterate (by omega)]
    omega
  have htraces : ∀ totalCount reservations, Traces sys (.acquire now) { sys with
      pool := { result.2 with totalCount := totalCount }, reservations := reservations } :=
    fun _ _ => .of_subset hidle (List.Subset.refl _)
  split_ifs at hstep with hreserve
  · cases hstep
    have hroom : result.2.totalCount < sys.pool.config.maxSize := by
      have hcreate := hreserve.2
      rw [shouldCreate, Bool.and_eq_true, decide_eq_true_eq, hacquires.config] at hcreate
      exact hcreate.2
    have hadd := fetchAdd_of_lt hroom sys.pool.config.maxSize_lt
    refine .of_moves ⟨rfl, rfl, trivial⟩ (moves_acquire hcons hacquires _ _) (fun haccounted => ?_)
      (fun haccounted => ?_) hdiscarded (htraces _ _)
    · have := hcount haccounted
      simp only [hadd, List.length_nil]
      omega
    · simp only [hadd]
      omega
  · cases hstep
    refine .of_moves ⟨rfl, rfl, trivial⟩ (moves_acquire hcons hacquires _ _) (fun haccounted => ?_)
      (fun haccounted => ?_) hdiscarded (htraces _ _)
    · have := hcount haccounted
      simp only [List.length_nil]
      omega
    · have := hcount haccounted
      have := haccounted.within_size
      simp only
      omega

private theorem effect_warmUp (now : Nat) (hrunning : sys.pool.state = .running) :
    Effect sys (.warmUp now) { sys with
      pool := sys.pool.addClient sys.nextClientId now
      nextClientId := sys.nextClientId + 1 } := by
  have hmoves := moves_add hcons now (fetchAdd sys.pool.totalCount) sys.reservations
  refine ⟨⟨[], [sys.nextClientId], hmoves, fun haccounted => ⟨fun hnext _ => ?_, fun hroom => ?_⟩⟩,
    ⟨_, _, .of_discards rfl rfl hmoves (List.append_nil _).symm⟩,
    .of_seated rfl (.inr rfl) (List.Subset.refl _)⟩
  · have hpopulation := hmoves.population
    have hexact := haccounted.exact_count
    have hsize := hnext.within_size
    rw [hnext.exact_count] at hsize
    simp only [List.length_nil, List.length_singleton] at hpopulation
    simp only [addClientReserved, addClient] at hsize hpopulation
    omega
  · have hadd := fetchAdd_of_lt (hroom hrunning) sys.pool.config.maxSize_lt
    refine hmoves.accounted haccounted ?_ ?_
    · simp [hadd]
    · have := hroom hrunning
      simp only [hadd]
      omega

private theorem effect_beginRelease (clientId : Nat)
    (hstep : sys.step (.beginRelease clientId) = some next) :
    Effect sys (.beginRelease clientId) next := by
  simp only [step, takeForRelease] at hstep
  cases hlookup : sys.pool.inUse.lookup clientId with
  | none =>
    simp only [hlookup, Option.some.injEq] at hstep
    subst hstep
    exact .of_keep ⟨rfl, rfl, trivial⟩ (moves_releaseUnknown hcons hlookup) rfl rfl rfl
      (.of_same rfl rfl)
  | some entry =>
    simp only [hlookup, Option.some.injEq] at hstep
    subst hstep
    refine .of_keep ⟨rfl, rfl, trivial⟩ (moves_beginRelease hcons hlookup) rfl rfl rfl
      ⟨fun id hmem => .inl hmem, ?_⟩
    intro id hmem
    rw [AList.keys_insert, hcons.filed_inUse clientId entry hlookup] at hmem
    rcases List.mem_cons.mp hmem with rfl | hold
    · exact .inr ⟨rfl, Table.mem_keys_of_lookup hlookup⟩
    · exact .inl (List.mem_of_mem_erase hold)

omit hcons in
private theorem erase_releasing_subset (clientId : Nat) :
    (sys.releasing.erase clientId).keys ⊆ sys.releasing.keys := by
  rw [AList.keys_erase]
  exact List.erase_subset

private theorem effect_discardReleasing {entry : PooledClient} (hplain : Plain sys action)
    (hlookup : sys.releasing.lookup clientId = some entry) :
    Effect sys action { sys with
      pool := sys.pool.discardClient entry.clientId
      releasing := sys.releasing.erase clientId } := by
  have hid : entry.clientId = clientId := hcons.filed_releasing clientId entry hlookup
  exact .of_leave hplain (moves_discardReleasing hcons hlookup) (Nat.add_comm ..) rfl
    (by simp [discardClient, hid])
    (.of_subset (List.Subset.refl _) (erase_releasing_subset clientId))

private theorem effect_monitorDiscard (now clientId : Nat) (rest : List Nat) :
    Effect sys (.monitorDiscard now) { sys with
      pool := sys.pool.discardAbandoned now clientId, abandoned := rest } := by
  have hkept : Effect sys (.monitorDiscard now) { sys with abandoned := rest } :=
    .of_keep ⟨rfl, rfl, trivial⟩ (moves_none hcons _ _ _ _) rfl rfl rfl (.of_same rfl rfl)
  unfold discardAbandoned
  split
  · exact hkept
  · next entry hlookup =>
      split_ifs
      · exact hkept
      · exact hkept
      · exact .of_leave ⟨rfl, rfl, trivial⟩ (moves_discardInUse hcons hlookup rest)
          (Nat.add_comm ..) rfl rfl (.of_same rfl rfl)

private theorem effect_updateInUse {change : PooledClient → PooledClient}
    (hplain : Plain sys action) (hchange : ∀ entry, (change entry).clientId = entry.clientId) :
    Effect sys action { sys with pool := sys.pool.updateInUse clientId change } := by
  have hmoves := moves_updateInUse hcons clientId hchange
  obtain ⟨inUse, heq⟩ := updateInUse_eq sys.pool clientId change
  rw [heq] at hmoves ⊢
  exact .of_keep hplain hmoves rfl rfl rfl (.of_same rfl rfl)

private theorem effect_destroy : Effect sys .destroy { sys with pool := sys.pool.destroy } where
  succeeds := by
    refine ⟨sys.pool.heldIds, [], moves_destroy hcons, fun _ => ⟨fun hnext => ?_, fun hquiet => ?_⟩⟩
    · have hexact : 0 = 0 + 0 + sys.releasing.keys.length + sys.reservations := hnext.exact_count
      exact ⟨List.eq_nil_of_length_eq_zero (by omega), by omega⟩
    · obtain ⟨hreleasing, hreservations⟩ := hquiet
      refine ⟨?_, Nat.zero_le _⟩
      simp [population, destroy, hreleasing, hreservations]
  conserves := ⟨_, [], moves_destroy hcons, by simp [reportedIds, destroyedIds, destroy]⟩
  traces := .of_subset (List.nil_subset _) (List.Subset.refl _)

end

end Effects

theorem step_effect {action : PoolAction} (hcons : sys.Consistent)
    (hstep : sys.step action = some next) : Effect sys action next := by
  cases action with
  | acquire now => exact effect_acquire hcons now hstep
  | warmUp now =>
    simp only [step] at hstep
    split_ifs at hstep with hrunning
    · cases hstep
      exact .of_keep ⟨rfl, rfl, fun hstate => absurd hstate hrunning⟩ (moves_none hcons _ _ _ _)
        rfl rfl rfl (.of_same rfl rfl)
    · cases hstep
      exact effect_warmUp hcons now (not_not.mp hrunning)
  | createSucceeded now =>
    simp only [step] at hstep
    split at hstep
    · contradiction
    · next reservations hreserved =>
        split_ifs at hstep with hrunning
        · cases hstep
          exact .of_leave ⟨rfl, rfl, trivial⟩ (moves_none hcons _ _ _ _) (by simp [hreserved]) rfl
            (List.append_nil _).symm (.of_same rfl rfl)
        · cases hstep
          refine .of_moves ⟨rfl, rfl, trivial⟩ (moves_add hcons now _ _) (fun _ => ?_)
            (fun haccounted => haccounted.within_size) (List.append_nil _).symm
            (.of_seated rfl (.inr rfl) (List.Subset.refl _))
          simp only [addClientReserved, List.length_nil, List.length_singleton, hreserved]
          omega
  | createFailed =>
    simp only [step] at hstep
    split at hstep
    · contradiction
    · next reservations hreserved =>
        cases hstep
        exact .of_leave ⟨rfl, rfl, trivial⟩ (moves_none hcons _ _ _ _) (by simp [hreserved]) rfl
          (List.append_nil _).symm (.of_same rfl rfl)
  | beginRelease clientId => exact effect_beginRelease hcons clientId hstep
  | releaseSucceeded now clientId =>
    simp only [step] at hstep
    split at hstep
    · contradiction
    · next entry hlookup =>
        cases hstep
        unfold returnToIdle
        split_ifs
        · exact effect_discardReleasing hcons ⟨rfl, rfl, trivial⟩ hlookup
        · have hreleasing : entry.clientId ∈ sys.releasing.keys := by
            rw [hcons.filed_releasing clientId entry hlookup]
            exact Table.mem_keys_of_lookup hlookup
          exact .of_keep ⟨rfl, rfl, trivial⟩ (moves_returnToIdle hcons hlookup _ rfl) rfl rfl rfl
            (.of_seated rfl (.inl hreleasing) (erase_releasing_subset clientId))
  | releaseFailed clientId =>
    simp only [step] at hstep
    split at hstep
    · contradiction
    · cases hstep
      exact effect_discardReleasing hcons ⟨rfl, rfl, trivial⟩ ‹_›
  | refreshActivity | beginBlocking | endBlocking =>
    cases hstep
    exact effect_updateInUse hcons ⟨rfl, rfl, trivial⟩ fun _ => rfl
  | monitorScan now =>
    simp only [step] at hstep
    split_ifs at hstep
    all_goals
      cases hstep
      exact .of_keep ⟨rfl, rfl, trivial⟩ (moves_none hcons _ _ _ _) rfl rfl rfl
        (.of_same rfl rfl)
  | monitorDiscard now =>
    simp only [step] at hstep
    split at hstep
    · contradiction
    · cases hstep
      exact effect_monitorDiscard hcons now _ _
  | drainDiscardedIds =>
    cases hstep
    exact ⟨⟨[], [], moves_none hcons _ _ _ _, fun haccounted => iff_of_true
        ⟨haccounted.exact_count, haccounted.within_size⟩ trivial⟩,
      ⟨[], [], moves_none hcons _ _ _ _, by simp [reportedIds, destroyedIds, drainDiscardedIds]⟩,
      .of_same rfl rfl⟩
  | destroy =>
    cases hstep
    exact effect_destroy hcons

/-! ## Runs -/

theorem initial_consistent {config : PoolConfig} {pool : ClientPool}
    (hpool : ClientPool.new config = .ok pool) (nextClientId : Nat) :
    (initial pool nextClientId).Consistent ∧ (initial pool nextClientId).Accounted := by
  unfold ClientPool.new at hpool
  split_ifs at hpool
  cases hpool
  refine ⟨⟨?_, ?_, ?_, ?_⟩, ?_, ?_⟩ <;> simp [initial, clientIds, population]

/--
In every run of a new pool whose steps are orderly, the counter is exact and
within the configured size in the state reached.
-/
theorem run_accounted {config : PoolConfig} {pool : ClientPool}
    (hpool : ClientPool.new config = .ok pool) {nextClientId : Nat}
    {actions : List PoolAction} {final : PoolSystem}
    (horderly : Along step Orderly (initial pool nextClientId) actions)
    (hrun : run step (initial pool nextClientId) actions = some final) :
    final.Accounted := by
  have hinv : final.Consistent ∧ final.Accounted := by
    refine run_invariant (fun sys => sys.Consistent ∧ sys.Accounted) ?_
      (initial_consistent hpool nextClientId) horderly hrun
    rintro sys action next ⟨hcons, haccounted⟩ horderly hstep
    obtain ⟨dropped, added, hmoves, hiff⟩ := (step_effect hcons hstep).succeeds
    exact ⟨hmoves.consistent hcons, (hiff haccounted).mpr horderly⟩
  exact hinv.2

def soloPool : ClientPool :=
  ⟨⟨1, 0, 10, 0, one_lt_counter⟩, [], ∅, 0, .running, []⟩

theorem disorderly_runs_not_accounted :
    ClientPool.new soloPool.config = .ok soloPool ∧
      (∃ final, run step (initial soloPool 1)
          [.acquire 0, .createSucceeded 0, .acquire 0, .beginRelease 1, .destroy,
            .releaseSucceeded 0 1] = some final ∧
        final.population = 0 ∧ final.pool.totalCount = 2 ^ 32 - 1 ∧ ¬ final.Accounted) ∧
      ∃ final, run step (initial soloPool 1) [.acquire 0, .warmUp 0] = some final ∧
        final.pool.totalCount = 2 ∧ final.pool.config.maxSize = 1 ∧ ¬ final.Accounted := by
  refine ⟨rfl, ⟨_, rfl, rfl, rfl, fun haccounted => ?_⟩, _, rfl, rfl, rfl, fun haccounted => ?_⟩
  · have hexact : 2 ^ 32 - 1 = 0 := haccounted.exact_count
    contradiction
  · have hsize : 2 ≤ 1 := haccounted.within_size
    contradiction

theorem release_before_destroy_accounted :
    ∃ final, run step (initial soloPool 1)
        [.acquire 0, .createSucceeded 0, .acquire 0, .beginRelease 1, .releaseSucceeded 0 1,
          .destroy] = some final ∧ final.Accounted := by
  have hpool : ClientPool.new soloPool.config = .ok soloPool := rfl
  have horderly : Along step Orderly (initial soloPool 1)
      [.acquire 0, .createSucceeded 0, .acquire 0, .beginRelease 1, .releaseSucceeded 0 1,
        .destroy] := by decide
  exact ⟨_, rfl, run_accounted hpool horderly rfl⟩

end PoolSystem

end ValkeyGlide.Pool
