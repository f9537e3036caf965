import ValkeyGlide.Pool.ClientAccounting

/-!
# Borrowing from the client pool

Every client the pool has created is in one place: idle, borrowed, being
released, dropped when the pool was destroyed, or discarded and reported.  From
this follows that two borrowers never hold one client, that a client taken away
by the abandon monitor does not come back, and that every discarded client is
reported once.
-/

namespace ValkeyGlide.Pool

open Foundation

namespace PoolSystem

open ClientPool

/-! ## Where a client can turn up -/

variable {sys next : PoolSystem} {action : PoolAction} {clientId : Nat}

theorem mem_idle_of_acquired (hacquired : sys.acquiredId action = some clientId) :
    clientId ∈ sys.pool.idleIds := by
  cases action with
  | acquire now =>
    rcases tryAcquire_cases sys.pool now with ⟨hmiss, -⟩ | ⟨id, hid, hidle, -, -⟩
    · simp [acquiredId, hmiss] at hacquired
    · obtain rfl : id = clientId := by simpa [acquiredId, hid] using hacquired
      exact hidle
  | _ => simp [acquiredId] at hacquired

theorem mem_inUse_of_acquired (hacquired : sys.acquiredId action = some clientId)
    (hstep : sys.step action = some next) : clientId ∈ next.pool.inUse.keys := by
  cases action with
  | acquire now =>
    rcases tryAcquire_cases sys.pool now with ⟨hmiss, -⟩ | ⟨id, hid, -, hinUse, -⟩
    · simp [acquiredId, hmiss] at hacquired
    · obtain rfl : id = clientId := by simpa [acquiredId, hid] using hacquired
      simp only [step, hid] at hstep
      rw [if_neg (by omega)] at hstep
      cases hstep
      exact hinUse
  | _ => simp [acquiredId] at hacquired

theorem idleIds_discardAbandoned (pool : ClientPool) (now clientId : Nat) :
    (pool.discardAbandoned now clientId).idleIds = pool.idleIds := by
  unfold discardAbandoned
  split
  · rfl
  split
  · rfl
  split <;> rfl

theorem step_nextClientId (hcons : sys.Consistent) (hstep : sys.step action = some next) :
    sys.nextClientId ≤ next.nextClientId := by
  obtain ⟨dropped, added, hconserves⟩ := (step_effect hcons hstep).conserves
  exact hconserves.moves.turnover.next_le

theorem step_consistent (hcons : sys.Consistent) (hstep : sys.step action = some next) :
    next.Consistent := by
  obtain ⟨dropped, added, hconserves⟩ := (step_effect hcons hstep).conserves
  exact hconserves.moves.consistent hcons

/-! ## Borrowed and removed clients -/

structure Lent (clientId : Nat) (sys : PoolSystem) : Prop where
  consistent : sys.Consistent
  notIdle : clientId ∉ sys.pool.idleIds
  notReleasing : clientId ∉ sys.releasing.keys
  old : clientId < sys.nextClientId

theorem Lent.step (hlent : Lent clientId sys) (hkept : ¬ AcceptsRelease clientId sys action)
    (hstep : sys.step action = some next) : Lent clientId next where
  consistent := step_consistent hlent.consistent hstep
  notIdle := by
    intro hmem
    rcases (step_effect hlent.consistent hstep).traces.idle clientId hmem with hidle | hreleasing | hnew
    · exact hlent.notIdle hidle
    · exact hlent.notReleasing hreleasing
    · exact absurd hlent.old (by omega)
  notReleasing := by
    intro hmem
    rcases (step_effect hlent.consistent hstep).traces.releasing clientId hmem with hreleasing | haccepts
    · exact hlent.notReleasing hreleasing
    · exact hkept haccepts
  old := Nat.lt_of_lt_of_le hlent.old (step_nextClientId hlent.consistent hstep)

theorem Lent.of_acquired (hcons : sys.Consistent)
    (hacquired : sys.acquiredId action = some clientId) (hstep : sys.step action = some next) :
    Lent clientId next := by
  have hnext := step_consistent hcons hstep
  have hinUse := mem_inUse_of_acquired hacquired hstep
  refine ⟨hnext, ?_, hnext.notMem_releasing hinUse, ?_⟩
  · intro hidle
    exact List.disjoint_of_nodup_append hnext.heldIds_nodup hidle hinUse
  · apply hnext.fresh
    simp [clientIds, hinUse]

theorem Lent.not_acquired (hlent : Lent clientId sys) (action : PoolAction) :
    sys.acquiredId action ≠ some clientId := by
  intro hacquired
  exact hlent.notIdle (mem_idle_of_acquired hacquired)

structure Gone (clientId : Nat) (sys : PoolSystem) : Prop where
  consistent : sys.Consistent
  notHeld : clientId ∉ sys.clientIds
  old : clientId < sys.nextClientId

theorem Gone.step (hgone : Gone clientId sys) (hstep : sys.step action = some next) :
    Gone clientId next where
  consistent := step_consistent hgone.consistent hstep
  notHeld := by
    obtain ⟨dropped, added, hconserves⟩ := (step_effect hgone.consistent hstep).conserves
    exact hconserves.moves.turnover.notMem hgone.old hgone.notHeld
  old := Nat.lt_of_lt_of_le hgone.old (step_nextClientId hgone.consistent hstep)

theorem Gone.lent (hgone : Gone clientId sys) : Lent clientId sys := by
  have hnot := hgone.notHeld
  simp only [clientIds, List.mem_append, not_or] at hnot
  exact ⟨hgone.consistent, hnot.1.1, hnot.2, hgone.old⟩

theorem Gone.release (hgone : Gone clientId sys) :
    sys.step (.beginRelease clientId) = some sys := by
  have hnot := hgone.notHeld
  simp only [clientIds, List.mem_append, not_or] at hnot
  have hlookup : sys.pool.inUse.lookup clientId = none :=
    AList.lookup_eq_none.mpr fun hmem => hnot.1.2 (AList.mem_keys.mp hmem)
  have herase : sys.pool.inUse.erase clientId = sys.pool.inUse :=
    AList.ext (List.kerase_of_notMem_keys hnot.1.2)
  simp [PoolSystem.step, takeForRelease, hlookup, herase]

theorem Gone.of_removed (hcons : sys.Consistent)
    (hremoved : sys.removedByMonitor action = some clientId)
    (hstep : sys.step action = some next) : Gone clientId next := by
  cases action with
  | monitorDiscard now =>
    obtain ⟨hhead, hfilter⟩ := Option.filter_eq_some_iff.mp hremoved
    obtain ⟨hbefore, hafter⟩ := of_decide_eq_true hfilter
    obtain ⟨rest, habandoned⟩ := List.head?_eq_some_iff.mp hhead
    have hnext := step_consistent hcons hstep
    simp only [PoolSystem.step, habandoned] at hstep
    cases hstep
    have hnotIdle : clientId ∉ (sys.pool.discardAbandoned now clientId).idleIds := by
      rw [idleIds_discardAbandoned]
      intro hidle
      exact List.disjoint_of_nodup_append hcons.heldIds_nodup hidle hbefore
    refine ⟨hnext, ?_, hcons.fresh clientId ?_⟩
    · simp only [clientIds, List.mem_append, not_or]
      exact ⟨⟨hnotIdle, hafter⟩, hcons.notMem_releasing hbefore⟩
    · simp [clientIds, hbefore]
  | _ => simp [removedByMonitor] at hremoved

end PoolSystem

/-! ## Runs with their reports -/

/--
The system with what `drain_discarded_ids` has returned so far, and the clients
the pool held when it was destroyed.
-/
structure PoolLedger where
  sys : PoolSystem
  reported : List Nat
  destroyed : List Nat

namespace PoolLedger

open PoolSystem

def initial (pool : ClientPool) (firstClientId : Nat) : PoolLedger :=
  ⟨.initial pool firstClientId, [], []⟩

def step (ledger : PoolLedger) (action : PoolAction) : Option PoolLedger :=
  (ledger.sys.step action).map fun next =>
    ⟨next, ledger.reported ++ ledger.sys.reportedIds action,
      ledger.destroyed ++ ledger.sys.destroyedIds action⟩

def everyId (ledger : PoolLedger) : List Nat :=
  ledger.reported ++ ledger.sys.pool.discardedIds ++ ledger.destroyed ++ ledger.sys.clientIds

structure Complete (firstClientId : Nat) (ledger : PoolLedger) : Prop where
  consistent : ledger.sys.Consistent
  started : firstClientId ≤ ledger.sys.nextClientId
  nodup : ledger.everyId.Nodup
  mem_iff : ∀ id, id ∈ ledger.everyId ↔ firstClientId ≤ id ∧ id < ledger.sys.nextClientId

variable {action : PoolAction} {ledger : PoolLedger} {firstClientId : Nat}

theorem everyId_step {next : PoolLedger} {dropped added : List Nat} {nextSys : PoolSystem}
    (hconserves : Conserves ledger.sys action nextSys dropped added)
    (hnext : next = ⟨nextSys, ledger.reported ++ ledger.sys.reportedIds action,
      ledger.destroyed ++ ledger.sys.destroyedIds action⟩) :
    next.everyId.Perm (added ++ ledger.everyId) := by
  subst hnext
  rw [List.perm_iff_count]
  intro id
  have hids := hconserves.moves.ids.count_eq id
  have hreported := hconserves.reported.count_eq id
  simp only [everyId, List.count_append] at hids hreported ⊢
  omega

theorem Complete.step {next : PoolLedger} (hcomplete : Complete firstClientId ledger)
    (hstep : ledger.step action = some next) : Complete firstClientId next := by
  obtain ⟨nextSys, hsys, hnext⟩ := Option.map_eq_some_iff.mp hstep
  obtain ⟨dropped, added, hconserves⟩ := (step_effect hcomplete.consistent hsys).conserves
  have hperm := everyId_step hconserves hnext.symm
  have hcons : next.sys.Consistent := by
    rw [← hnext]
    exact hconserves.moves.consistent hcomplete.consistent
  have hnew : ledger.sys.nextClientId ∉ ledger.everyId := by
    intro hmem
    have := (hcomplete.mem_iff _).mp hmem
    omega
  have hstarted := hcomplete.started
  rcases hconserves.moves.fresh with ⟨rfl, hsame⟩ | ⟨rfl, hgrown⟩
  · have hid : next.sys.nextClientId = ledger.sys.nextClientId := by rw [← hnext, ← hsame]
    refine ⟨hcons, by omega, hperm.nodup_iff.mpr hcomplete.nodup, ?_⟩
    intro id
    rw [hperm.mem_iff, List.nil_append, hcomplete.mem_iff, hid]
  · have hid : next.sys.nextClientId = ledger.sys.nextClientId + 1 := by rw [← hnext, ← hgrown]
    refine ⟨hcons, by omega, hperm.nodup_iff.mpr (List.nodup_cons.mpr ⟨hnew, hcomplete.nodup⟩), ?_⟩
    intro id
    rw [hperm.mem_iff, List.singleton_append, List.mem_cons, hcomplete.mem_iff, hid]
    omega

theorem Complete.initial {config : PoolConfig} {pool : ClientPool}
    (hpool : ClientPool.new config = .ok pool) (firstClientId : Nat) :
    Complete firstClientId (initial pool firstClientId) := by
  have hcons := (initial_consistent hpool firstClientId).1
  have hnone : (PoolLedger.initial pool firstClientId).everyId = [] := by
    unfold ClientPool.new at hpool
    split_ifs at hpool
    cases hpool
    rfl
  refine ⟨hcons, Nat.le_refl _, by simp [hnone], ?_⟩
  intro id
  have hnext : (PoolLedger.initial pool firstClientId).sys.nextClientId = firstClientId := rfl
  simp only [hnone, List.not_mem_nil, hnext, false_iff]
  omega

/-- What is true of every state of the pool, whatever its tasks have done before. -/
structure Exclusive (firstClientId : Nat) (ledger : PoolLedger) : Prop where
  onePlace : ledger.sys.clientIds.Nodup
  /-- A client that is handed out is not handed out again before its release is accepted. -/
  oneBorrower : ∀ clientId action lent actions later, ledger.sys.acquiredId action = some clientId →
    ledger.sys.step action = some lent → run PoolSystem.step lent actions = some later →
    Along PoolSystem.step (fun sys action => ¬ AcceptsRelease clientId sys action) lent actions →
    ∀ again, later.acquiredId again ≠ some clientId
  /-- A client the monitor took away stays away, and its late release does nothing. -/
  removed : ∀ clientId action gone actions later,
    ledger.sys.removedByMonitor action = some clientId → ledger.sys.step action = some gone →
    run PoolSystem.step gone actions = some later →
    (∀ again, later.acquiredId again ≠ some clientId) ∧
      later.step (.beginRelease clientId) = some later
  reportedOnce : (ledger.reported ++ ledger.sys.pool.discardedIds).Nodup
  /-- Reported, or to be reported by the next drain, are exactly the discarded clients. -/
  reportedAll : ∀ id, id ∈ ledger.reported ++ ledger.sys.pool.discardedIds ↔
    firstClientId ≤ id ∧ id < ledger.sys.nextClientId ∧ id ∉ ledger.sys.clientIds ∧
      id ∉ ledger.destroyed
  /-- A drain reports every client discarded before it, and leaves none to report. -/
  drained : ∃ next, ledger.step .drainDiscardedIds = some next ∧
    next.sys.pool.discardedIds = [] ∧ next.reported.Nodup ∧
    ∀ id, id ∈ next.reported ↔ firstClientId ≤ id ∧ id < ledger.sys.nextClientId ∧
      id ∉ ledger.sys.clientIds ∧ id ∉ ledger.destroyed

theorem Complete.reportedAll (hcomplete : Complete firstClientId ledger) (id : Nat) :
    id ∈ ledger.reported ++ ledger.sys.pool.discardedIds ↔
      firstClientId ≤ id ∧ id < ledger.sys.nextClientId ∧ id ∉ ledger.sys.clientIds ∧
        id ∉ ledger.destroyed := by
  obtain ⟨hplaces, -, hheld⟩ := List.nodup_append'.mp hcomplete.nodup
  obtain ⟨-, -, hdropped⟩ := List.nodup_append'.mp hplaces
  have hmem := hcomplete.mem_iff id
  simp only [everyId, List.mem_append (t := ledger.sys.clientIds),
    List.mem_append (t := ledger.destroyed)] at hmem
  constructor
  · intro hreported
    obtain ⟨hstart, hend⟩ := hmem.mp (.inl (.inl hreported))
    exact ⟨hstart, hend, hheld (List.mem_append_left _ hreported), hdropped hreported⟩
  · rintro ⟨hstart, hend, hnotHeld, hnotDropped⟩
    rcases hmem.mpr ⟨hstart, hend⟩ with (hreported | hdestroyed) | hclient
    · exact hreported
    · exact absurd hdestroyed hnotDropped
    · exact absurd hclient hnotHeld

theorem Complete.exclusive (hcomplete : Complete firstClientId ledger) :
    Exclusive firstClientId ledger where
  onePlace := hcomplete.consistent.nodup
  oneBorrower := by
    intro clientId action lent actions later hacquired hstep hrun hkept
    have hlent : Lent clientId later := by
      refine run_invariant (Lent clientId) ?_ (.of_acquired hcomplete.consistent hacquired hstep)
        hkept hrun
      intro sys action next hsys hnot hstep
      exact hsys.step hnot hstep
    exact hlent.not_acquired
  removed := by
    intro clientId action gone actions later hremoved hstep hrun
    have hgone : Gone clientId later := by
      refine run_invariant_all (Gone clientId) ?_
        (.of_removed hcomplete.consistent hremoved hstep) hrun
      intro sys action next hsys hstep
      exact hsys.step hstep
    exact ⟨hgone.lent.not_acquired, hgone.release⟩
  reportedOnce := hcomplete.nodup.of_append_left.of_append_left
  reportedAll := hcomplete.reportedAll
  drained := ⟨_, rfl, rfl, hcomplete.nodup.of_append_left.of_append_left, hcomplete.reportedAll⟩

theorem pool_run_exclusive {config : PoolConfig} {pool : ClientPool}
    (hpool : ClientPool.new config = .ok pool) (firstClientId : Nat) (actions : List PoolAction)
    (ledger : PoolLedger) (hrun : run step (initial pool firstClientId) actions = some ledger) :
    Exclusive firstClientId ledger := by
  have hcomplete : Complete firstClientId ledger := by
    refine run_invariant_all (Complete firstClientId) ?_ (.initial hpool firstClientId) hrun
    intro ledger action next hledger hstep
    exact hledger.step hstep
  exact hcomplete.exclusive

def abandonment : List PoolAction :=
  [.acquire 0, .createSucceeded 0, .acquire 1, .monitorScan 2, .monitorDiscard 2,
    .drainDiscardedIds, .beginRelease 1, .drainDiscardedIds]

theorem abandoned_client_reported :
    ∃ ledger, run step (initial soloPool 1) abandonment = some ledger ∧
      ledger.reported = [1] ∧ Exclusive 1 ledger := by
  have hpool : ClientPool.new soloPool.config = .ok soloPool := rfl
  have houtcome : (run step (initial soloPool 1) abandonment).map PoolLedger.reported = some [1] :=
    rfl
  obtain ⟨ledger, hrun, hreported⟩ := Option.map_eq_some_iff.mp houtcome
  exact ⟨ledger, hrun, hreported, pool_run_exclusive hpool 1 abandonment ledger hrun⟩

end PoolLedger

end ValkeyGlide.Pool
