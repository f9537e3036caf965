import ValkeyGlide.Scope.Accounting

/-!
# Exclusive use of scoped connections

A scope id stays with its socket, so that it is handed out again with every later
borrow, and a command looks its connection up before it locks it.  The results say
what callers have to observe for a socket to be used by its borrower alone: they use
a scope id that is in use only between acquiring and releasing it, and release it only
when none of their commands still waits for the connection.  A late use of an id that
nobody has borrowed since is turned down and does no harm.
-/

namespace ValkeyGlide.Scope.ScopeSystem

open Protocol Foundation Pool

/--
The step uses a socket on behalf of its borrower: a command starts only on a socket
lent to its caller and ends on one lent to nobody else, and a release that is accepted
takes a socket from the caller it is lent to.
-/
def Exclusive (sys : ScopeSystem) : ScopeAction → Prop
  | .start index =>
    ∀ command conn, sys.waiting[index]? = some command →
      sys.cells[command.cell]? = some conn →
        sys.borrowers.lookup conn.connection = some command.caller
  | .finish index _ | .cancelRunning index =>
    ∀ command conn, sys.running[index]? = some command →
      sys.cells[command.cell]? = some conn →
        ∀ borrower, sys.borrowers.lookup conn.connection = some borrower →
          borrower = command.caller
  | .release caller scopeId now =>
    ∀ inner connection, sys.releaseInner scopeId now = some (true, inner) →
      sys.connectionOf scopeId = some connection →
        sys.borrowers.lookup connection = some caller
  | _ => True

/-- The caller holds the id, and no command of its own under it is still waiting. -/
structure MayReturn (sys : ScopeSystem) (caller scopeId : Nat) : Prop where
  held : (caller, scopeId) ∈ sys.held
  settled : ∀ command ∈ sys.waiting, ¬ (command.caller = caller ∧ command.scopeId = scopeId)

instance (sys : ScopeSystem) (caller scopeId : Nat) : Decidable (sys.MayReturn caller scopeId) :=
  decidable_of_iff (_ ∧ _) ⟨fun hboth => ⟨hboth.1, hboth.2⟩, fun hmay => ⟨hmay.held, hmay.settled⟩⟩

/--
A caller submits commands under a registered id only while it holds it, and releases an id
in use only if it may return it.
-/
def Proper (sys : ScopeSystem) : ScopeAction → Prop
  | .submit caller scopeId _ _ =>
    (sys.registry.lookup scopeId).isSome → (caller, scopeId) ∈ sys.held
  | .release caller scopeId _ => scopeId ∈ sys.pool.inUse → sys.MayReturn caller scopeId
  | _ => True

instance Proper.decidable (sys : ScopeSystem) :
    (action : ScopeAction) → Decidable (sys.Proper action)
  | .submit .. => inferInstanceAs (Decidable (_ → _))
  | .release .. => inferInstanceAs (Decidable (_ → _))
  | .acquire .. | .prewarm | .createSucceeded .. | .dropReservation | .beginResync ..
  | .resyncReplied .. | .start _ | .finish .. | .cancelWaiting _ | .cancelRunning _
  | .cleanupStart _ | .cleanupReplied .. | .cleanupSettled _ | .removeEntry _ | .unregister
  | .destroy => inferInstanceAs (Decidable True)

/-! ## The invariant -/

def freeIds (sys : ScopeSystem) : List Nat :=
  sys.pool.idle.map ScopedConnection.scopeId ++
    sys.resyncs.map (fun resync => resync.1.scopeId) ++
    sys.cleanups.map (Cleanup.scopeId sys.cells)

def seatedConnection (cleanup : Cleanup) : Option ScopedConnection :=
  match cleanup.phase with
  | .settling seated => seated
  | _ => none

def connections (sys : ScopeSystem) : List ScopedConnection :=
  sys.pool.idle ++ sys.resyncs.map Prod.fst ++ sys.cells ++
    sys.cleanups.filterMap seatedConnection

structure Attached (sys : ScopeSystem) (caller scopeId cell : Nat) : Prop where
  placed : cell < sys.cells.length
  filed : cellId sys.cells cell = scopeId
  lent : sys.borrowers.lookup scopeId = some caller
  current : ∀ index, sys.registry.lookup scopeId = some index → index = cell

structure Retired (sys : ScopeSystem) (scopeId cell : Nat) : Prop where
  placed : cell < sys.cells.length
  filed : cellId sys.cells cell = scopeId
  allocated : scopeId < sys.nextScopeId
  free : sys.borrowers.lookup scopeId = none
  gone : scopeId ∉ sys.scopeIds

structure Guarded (sys : ScopeSystem) : Prop where
  consistent : sys.Consistent
  named : ∀ conn ∈ sys.connections, conn.connection = conn.scopeId
  free : ∀ id ∈ sys.freeIds, sys.borrowers.lookup id = none
  allocated : ∀ id borrower, sys.borrowers.lookup id = some borrower → id < sys.nextScopeId
  holds : ∀ caller id, (caller, id) ∈ sys.held → sys.borrowers.lookup id = some caller
  waiting : ∀ command ∈ sys.waiting, sys.Attached command.caller command.scopeId command.cell
  running : ∀ command ∈ sys.running,
    sys.Attached command.caller command.scopeId command.cell ∨
      sys.Retired command.scopeId command.cell

section Frame

variable {sys next : ScopeSystem} {dropped added : List Nat} {caller scopeId cell extra : Nat}

theorem Attached.mono (hattached : sys.Attached caller scopeId cell)
    (hcells : Extends sys.cells next.cells)
    (hborrowers : next.borrowers.lookup scopeId = sys.borrowers.lookup scopeId)
    (hregistry : ∀ index, next.registry.lookup scopeId = some index →
      sys.registry.lookup scopeId = some index) : next.Attached caller scopeId cell where
  placed := (hcells cell hattached.placed).1
  filed := (hcells cell hattached.placed).2.trans hattached.filed
  lent := hborrowers.trans hattached.lent
  current := fun index hlookup => hattached.current index (hregistry index hlookup)

theorem Retired.mono (hretired : sys.Retired scopeId cell)
    (hmoves : Moves sys next dropped added) (hcells : Extends sys.cells next.cells)
    (hborrowers : next.borrowers.lookup scopeId = sys.borrowers.lookup scopeId) :
    next.Retired scopeId cell where
  placed := (hcells cell hretired.placed).1
  filed := (hcells cell hretired.placed).2.trans hretired.filed
  allocated := Nat.lt_of_lt_of_le hretired.allocated hmoves.turnover.next_le
  free := hborrowers.trans hretired.free
  gone := hmoves.turnover.notMem hretired.allocated hretired.gone

theorem mem_connections {conn : ScopedConnection} :
    conn ∈ sys.connections ↔ conn ∈ sys.pool.idle ∨ (∃ resync ∈ sys.resyncs, resync.1 = conn) ∨
      conn ∈ sys.cells ∨ ∃ cleanup ∈ sys.cleanups, seatedConnection cleanup = some conn := by
  simp [connections]

theorem mem_freeIds {id : Nat} :
    id ∈ sys.freeIds ↔ (∃ conn ∈ sys.pool.idle, conn.scopeId = id) ∨
      (∃ resync ∈ sys.resyncs, resync.1.scopeId = id) ∨
        ∃ cleanup ∈ sys.cleanups, cleanup.scopeId sys.cells = id := by
  simp [freeIds]

/-- A connection that may be put aside: its id was free, or is the one that the step frees. -/
def Spare (sys : ScopeSystem) (extra : Nat) (conn : ScopedConnection) : Prop :=
  conn.connection = conn.scopeId ∧ (conn.scopeId ∈ sys.freeIds ∨ conn.scopeId = extra)

def SpareCleanup (sys : ScopeSystem) (extra : Nat) (cells : List ScopedConnection)
    (cleanup : Cleanup) : Prop :=
  (cleanup.scopeId cells ∈ sys.freeIds ∨ cleanup.scopeId cells = extra) ∧
    ∀ conn, seatedConnection cleanup = some conn → conn.connection = conn.scopeId

structure Spares (sys next : ScopeSystem) (extra : Nat) : Prop where
  idle : ∀ conn ∈ next.pool.idle, sys.Spare extra conn
  resyncs : ∀ resync ∈ next.resyncs, sys.Spare extra resync.1
  cells : ∀ conn ∈ next.cells, conn.connection = conn.scopeId
  cleanups : ∀ cleanup ∈ next.cleanups, sys.SpareCleanup extra next.cells cleanup

theorem Spares.named (hspares : Spares sys next extra) :
    ∀ conn ∈ next.connections, conn.connection = conn.scopeId := by
  intro conn hconn
  rcases mem_connections.mp hconn with
    hidle | ⟨resync, hresync, rfl⟩ | hcell | ⟨cleanup, hcleanup, hseated⟩
  · exact (hspares.idle conn hidle).1
  · exact (hspares.resyncs resync hresync).1
  · exact hspares.cells conn hcell
  · exact (hspares.cleanups cleanup hcleanup).2 conn hseated

theorem Spares.free (hspares : Spares sys next extra) :
    ∀ id ∈ next.freeIds, id ∈ sys.freeIds ∨ id = extra := by
  intro id hid
  rcases mem_freeIds.mp hid with
    ⟨conn, hidle, rfl⟩ | ⟨resync, hresync, rfl⟩ | ⟨cleanup, hcleanup, rfl⟩
  · exact (hspares.idle conn hidle).2
  · exact (hspares.resyncs resync hresync).2
  · exact (hspares.cleanups cleanup hcleanup).1

theorem Guarded.spares (hguarded : sys.Guarded) (extra : Nat) : Spares sys sys extra where
  idle := fun conn hmem =>
    ⟨hguarded.named conn (mem_connections.mpr (.inl hmem)),
      .inl (mem_freeIds.mpr (.inl ⟨conn, hmem, rfl⟩))⟩
  resyncs := fun resync hmem =>
    ⟨hguarded.named _ (mem_connections.mpr (.inr (.inl ⟨resync, hmem, rfl⟩))),
      .inl (mem_freeIds.mpr (.inr (.inl ⟨resync, hmem, rfl⟩)))⟩
  cells := fun conn hmem => hguarded.named conn (mem_connections.mpr (.inr (.inr (.inl hmem))))
  cleanups := fun cleanup hmem =>
    ⟨.inl (mem_freeIds.mpr (.inr (.inr ⟨cleanup, hmem, rfl⟩))), fun conn hseated =>
      hguarded.named conn (mem_connections.mpr (.inr (.inr (.inr ⟨cleanup, hmem, hseated⟩))))⟩

theorem Guarded.spareCleanups (hguarded : sys.Guarded) {cells : List ScopedConnection}
    (hcells : Extends sys.cells cells) (extra : Nat) :
    ∀ cleanup ∈ sys.cleanups, sys.SpareCleanup extra cells cleanup := by
  intro cleanup hmem
  rw [SpareCleanup, Cleanup.scopeId_extends hcells (hguarded.consistent.placed cleanup hmem)]
  exact (hguarded.spares extra).cleanups cleanup hmem

theorem Guarded.of_change {touched : Nat} (hguarded : sys.Guarded)
    (hmoves : Moves sys next dropped added) (hcells : Extends sys.cells next.cells)
    (hborrowers : ∀ id, id ≠ touched → next.borrowers.lookup id = sys.borrowers.lookup id)
    (hregistry : ∀ id, id ≠ touched → ∀ index, next.registry.lookup id = some index →
      sys.registry.lookup id = some index) (hspares : Spares sys next touched)
    (hfree : touched ∈ next.freeIds → next.borrowers.lookup touched = none)
    (hallocated : ∀ borrower, next.borrowers.lookup touched = some borrower →
      touched < next.nextScopeId)
    (hheld : ∀ caller id, (caller, id) ∈ next.held →
      (caller, id) ∈ sys.held ∧ id ≠ touched ∨ next.borrowers.lookup id = some caller)
    (hwaiting : ∀ command ∈ next.waiting,
      sys.Attached command.caller command.scopeId command.cell ∧ command.scopeId ≠ touched)
    (hrunning : ∀ command ∈ next.running,
      (sys.Attached command.caller command.scopeId command.cell ∨
        sys.Retired command.scopeId command.cell) ∧ command.scopeId ≠ touched ∨
      next.Retired command.scopeId command.cell) : next.Guarded where
  consistent := hmoves.consistent hguarded.consistent
  named := hspares.named
  free := by
    intro id hid
    by_cases hid' : id = touched
    · subst hid'
      exact hfree hid
    · rw [hborrowers id hid']
      exact hguarded.free id ((hspares.free id hid).resolve_right hid')
  allocated := by
    intro id borrower hlookup
    by_cases hid : id = touched
    · subst hid
      exact hallocated borrower hlookup
    · rw [hborrowers id hid] at hlookup
      exact Nat.lt_of_lt_of_le (hguarded.allocated id borrower hlookup) hmoves.turnover.next_le
  holds := by
    intro caller id hmem
    rcases hheld caller id hmem with ⟨hold, hid⟩ | hnew
    · rw [hborrowers id hid]
      exact hguarded.holds caller id hold
    · exact hnew
  waiting := by
    intro command hmem
    obtain ⟨hattached, hid⟩ := hwaiting command hmem
    exact hattached.mono hcells (hborrowers _ hid) (hregistry _ hid)
  running := by
    intro command hmem
    rcases hrunning command hmem with ⟨hattached | hretired, hid⟩ | hretired
    · exact .inl (hattached.mono hcells (hborrowers _ hid) (hregistry _ hid))
    · exact .inr (hretired.mono hmoves hcells (hborrowers _ hid))
    · exact .inr hretired

theorem Guarded.of_frame (hguarded : sys.Guarded) (hmoves : Moves sys next dropped added)
    (hcells : Extends sys.cells next.cells) (hborrowers : next.borrowers = sys.borrowers)
    (hregistry : ∀ scopeId index, next.registry.lookup scopeId = some index →
      sys.registry.lookup scopeId = some index) (hspares : Spares sys next sys.nextScopeId)
    (hheld : ∀ entry ∈ next.held, entry ∈ sys.held)
    (hwaiting : ∀ command ∈ next.waiting, command ∈ sys.waiting ∨
      sys.Attached command.caller command.scopeId command.cell)
    (hrunning : ∀ command ∈ next.running, command ∈ sys.running ∨
      sys.Attached command.caller command.scopeId command.cell) : next.Guarded := by
  -- nobody has the id that is allocated next
  have hnone : ∀ id borrower, sys.borrowers.lookup id = some borrower → id ≠ sys.nextScopeId :=
    fun id borrower hlookup => Nat.ne_of_lt (hguarded.allocated id borrower hlookup)
  have hfree : next.borrowers.lookup sys.nextScopeId = none := by
    rw [hborrowers]
    exact Option.eq_none_iff_forall_ne_some.mpr fun borrower hlookup => hnone _ borrower hlookup rfl
  refine hguarded.of_change hmoves hcells (fun _ _ => by rw [hborrowers])
    (fun id _ => hregistry id) hspares (fun _ => hfree) ?_ ?_ ?_ ?_
  · intro borrower hlookup
    rw [hfree] at hlookup
    contradiction
  · intro caller id hmem
    exact .inl ⟨hheld _ hmem, hnone id caller (hguarded.holds caller id (hheld _ hmem))⟩
  · intro command hmem
    have hattached := (hwaiting command hmem).elim (hguarded.waiting command) id
    exact ⟨hattached, hnone _ _ hattached.lent⟩
  · intro command hmem
    left
    rcases (hrunning command hmem).elim (hguarded.running command) .inl with hattached | hretired
    · exact ⟨.inl hattached, hnone _ _ hattached.lent⟩
    · exact ⟨.inr hretired, Nat.ne_of_lt hretired.allocated⟩

end Frame

/-! ## The steps -/

section Steps

variable {sys next : ScopeSystem} {dropped added : List Nat}

section

variable (hguarded : sys.Guarded) {index : Nat}
include hguarded

private theorem Guarded.of_free (hmoves : Moves sys next dropped added)
    (hcells : next.cells = sys.cells) (hborrowers : next.borrowers = sys.borrowers)
    (hregistry : ∀ scopeId index, next.registry.lookup scopeId = some index →
      sys.registry.lookup scopeId = some index)
    (hheld : ∀ entry ∈ next.held, entry ∈ sys.held) (hwaiting : next.waiting = sys.waiting)
    (hrunning : next.running = sys.running) (hspares : Spares sys next sys.nextScopeId) :
    next.Guarded := by
  refine hguarded.of_frame hmoves (hcells ▸ .refl _) hborrowers hregistry hspares hheld ?_ ?_
  · rw [hwaiting]
    exact fun _ => .inl
  · rw [hrunning]
    exact fun _ => .inl

private theorem Guarded.of_commands
    (hmoves : Moves sys next dropped added) (hcells : Extends sys.cells next.cells)
    (hborrowers : next.borrowers = sys.borrowers) (hregistry : next.registry = sys.registry)
    (hpool : next.pool = sys.pool) (hresyncs : next.resyncs = sys.resyncs)
    (hcleanups : next.cleanups = sys.cleanups) (hheld : next.held = sys.held)
    (hnamed : ∀ conn ∈ next.cells, conn.connection = conn.scopeId)
    (hwaiting : ∀ command ∈ next.waiting, command ∈ sys.waiting ∨
      sys.Attached command.caller command.scopeId command.cell)
    (hrunning : ∀ command ∈ next.running, command ∈ sys.running ∨
      sys.Attached command.caller command.scopeId command.cell) : next.Guarded := by
  have hspares := hguarded.spares sys.nextScopeId
  refine hguarded.of_frame hmoves hcells hborrowers ?_ ⟨?_, ?_, hnamed, ?_⟩ ?_ hwaiting hrunning
  · rw [hregistry]
    exact fun _ _ => id
  · rw [hpool]
    exact hspares.idle
  · rw [hresyncs]
    exact hspares.resyncs
  · rw [hcleanups]
    exact hguarded.spareCleanups hcells _
  · rw [hheld]
    exact fun _ => id

theorem Guarded.named_cell {conn : ScopedConnection} (hconn : sys.cells[index]? = some conn) :
    conn.connection = conn.scopeId :=
  (hguarded.spares 0).cells conn (List.mem_of_getElem? hconn)

theorem Guarded.named_set {changed : ScopedConnection}
    (hnamed : changed.connection = changed.scopeId) :
    ∀ conn ∈ sys.cells.set index changed, conn.connection = conn.scopeId := by
  intro conn hmem
  rcases List.mem_or_eq_of_mem_set hmem with hold | rfl
  · exact (hguarded.spares 0).cells conn hold
  · exact hnamed

theorem Guarded.attached_of_held {caller scopeId cell : Nat}
    (hheld : (caller, scopeId) ∈ sys.held) (hlookup : sys.registry.lookup scopeId = some cell) :
    sys.Attached caller scopeId cell where
  placed := (hguarded.consistent.filed scopeId cell hlookup).1
  filed := (hguarded.consistent.filed scopeId cell hlookup).2
  lent := hguarded.holds caller scopeId hheld
  current := fun index hindex => by
    rw [hlookup] at hindex
    exact (Option.some.inj hindex).symm

private theorem guarded_submit {caller scopeId : Nat} {name : Bytes}
    {args : List Bytes} (hproper : sys.Proper (.submit caller scopeId name args))
    (hmoves : Moves sys (sys.submit caller scopeId name args) dropped added) :
    (sys.submit caller scopeId name args).Guarded := by
  unfold submit at hmoves ⊢
  cases hlookup : sys.registry.lookup scopeId with
  | none => exact hguarded
  | some cell =>
    simp only [hlookup] at hmoves
    refine hguarded.of_commands hmoves (.refl _) rfl rfl rfl rfl rfl rfl
      (hguarded.spares 0).cells ?_ fun _ => .inl
    exact List.forall_mem_append.mpr ⟨fun _ => .inl,
      List.forall_mem_singleton.mpr (.inr (hguarded.attached_of_held
        (hproper (Option.isSome_of_mem hlookup)) hlookup))⟩

private theorem guarded_start {env : ScopeEnv} (hmoves : Moves sys next dropped added)
    (hstep : sys.start env index = some next) : next.Guarded := by
  obtain ⟨command, conn, changed, started, hcommand, hconn, hid, hconnection, hstarted, rfl⟩ :=
    start_cases hstep
  have hattached := hguarded.waiting command (List.mem_of_getElem? hcommand)
  have hnamed : changed.connection = changed.scopeId := by
    rw [hid, hconnection]
    exact hguarded.named_cell hconn
  refine hguarded.of_commands hmoves (.set hconn hid) rfl rfl rfl rfl rfl rfl
    (hguarded.named_set hnamed) (fun other hmem => .inl (List.mem_of_mem_eraseIdx hmem)) ?_
  refine List.forall_mem_append.mpr ⟨fun _ => .inl, ?_⟩
  rcases hstarted with rfl | ⟨isBlocking, alreadyPoisoned, rfl⟩
  · exact List.forall_mem_nil _
  · exact List.forall_mem_singleton.mpr (.inr hattached)

omit hguarded in
private theorem guarded_finish (index : Nat) (result : Option (RedisResult Value))
    (hguarded : sys.Guarded) (hmoves : Moves sys next dropped added)
    (hstep : sys.finish index result = some next) : next.Guarded := by
  obtain ⟨command, conn, state, hcommand, hconn, rfl⟩ := finish_cases hstep
  have hnamed := hguarded.named_cell hconn
  exact hguarded.of_commands hmoves (.set hconn rfl) rfl rfl rfl rfl rfl rfl
    (hguarded.named_set hnamed) (fun _ => .inl)
    fun other hmem => .inl (List.mem_of_mem_eraseIdx hmem)

private theorem guarded_idle {idle evicted : List ScopedConnection} {totalCount reservations : Nat}
    (hperm : (evicted ++ idle).Perm sys.pool.idle)
    (hmoves : Moves sys { sys with
      pool := { sys.pool with idle := idle, totalCount := totalCount }
      reservations := reservations } dropped added) :
    ({ sys with
      pool := { sys.pool with idle := idle, totalCount := totalCount }
      reservations := reservations } : ScopeSystem).Guarded := by
  have hspares := hguarded.spares sys.nextScopeId
  refine hguarded.of_free hmoves rfl rfl (fun _ _ => id) (fun _ => id) rfl rfl
    { hspares with idle := fun conn hmem => hspares.idle conn ?_ }
  exact hperm.subset (List.mem_append.mpr (.inr hmem))

end

theorem Consistent.notMem_inUse_of_free (hcons : sys.Consistent) {id : Nat}
    (hid : id ∈ sys.freeIds) : id ∉ sys.pool.inUse := by
  have hperm : sys.scopeIds.Perm (sys.freeIds ++ sys.pool.inUse) := by
    refine List.perm_iff_count.mpr fun other => ?_
    simp only [scopeIds, freeIds, List.count_append]
    omega
  exact List.disjoint_of_nodup_append (hperm.nodup_iff.mp hcons.circulation.nodup) hid

theorem mem_scopeIds_of_free {id : Nat} (hid : id ∈ sys.freeIds) : id ∈ sys.scopeIds := by
  simp only [freeIds, scopeIds, List.mem_append] at hid ⊢
  rcases hid with (hidle | hresync) | hcleanup
  · exact .inl (.inl (.inl hidle))
  · exact .inl (.inr hresync)
  · exact .inr hcleanup

private theorem guarded_lend {caller : Nat} {original conn : ScopedConnection}
    {evicted idle : List ScopedConnection} {totalCount : Nat} (hguarded : sys.Guarded)
    (hperm : (evicted ++ original :: idle).Perm sys.pool.idle)
    (hid : conn.scopeId = original.scopeId) (hconnection : conn.connection = original.connection)
    (hnext : next = sys.lend caller conn { sys.pool with
      idle := idle
      inUse := sys.pool.inUse.insert conn.scopeId
      totalCount := totalCount })
    (hmoves : Moves sys next dropped added) : next.Guarded := by
  have hspares := hguarded.spares conn.scopeId
  have hidle := List.forall_mem_cons.mp fun other hmem =>
    hspares.idle other (hperm.subset (List.mem_append.mpr (.inr hmem)))
  have hname : conn.connection = conn.scopeId := by
    rw [hconnection, hid]
    exact hidle.1.1
  -- the connection was idle, so it was lent to nobody and nobody's command uses it
  have hspare : conn.scopeId ∈ sys.freeIds := mem_freeIds.mpr
    (.inl ⟨original, hperm.subset (List.mem_append.mpr (.inr List.mem_cons_self)), hid.symm⟩)
  have hscope := mem_scopeIds_of_free hspare
  have hother : ∀ id borrower, sys.borrowers.lookup id = some borrower → id ≠ conn.scopeId := by
    rintro id borrower hlookup rfl
    rw [hguarded.free _ hspare] at hlookup
    contradiction
  have hconsistent := hmoves.consistent hguarded.consistent
  subst hnext
  refine hguarded.of_change hmoves (.append sys.cells conn) ?_
    (fun id hne index hlookup => (AList.lookup_insert_ne hne).symm.trans hlookup)
    ⟨hidle.2, hspares.resyncs, ?_, hguarded.spareCleanups (.append sys.cells conn) _⟩ ?_ ?_ ?_ ?_ ?_
  · intro id hne
    rw [lend, hname]
    exact AList.lookup_insert_ne hne
  · exact List.forall_mem_append.mpr ⟨hspares.cells, List.forall_mem_singleton.mpr hname⟩
  · exact fun hfree => absurd List.mem_insert_self (hconsistent.notMem_inUse_of_free hfree)
  · exact fun _ _ => hguarded.consistent.circulation.allocated _ hscope
  · intro caller' id hmem
    rcases List.mem_cons.mp hmem with hnew | hold
    · cases hnew
      right
      rw [lend, hname]
      exact AList.lookup_insert _
    · exact .inl ⟨hold, hother id caller' (hguarded.holds caller' id hold)⟩
  · intro command hmem
    have hattached := hguarded.waiting command hmem
    exact ⟨hattached, hother _ _ hattached.lent⟩
  · intro command hmem
    have hcases := hguarded.running command hmem
    refine .inl ⟨hcases, ?_⟩
    rcases hcases with hattached | hretired
    · exact hother _ _ hattached.lent
    · exact fun heq => hretired.gone (heq ▸ hscope)

private theorem guarded_takeBack {caller scopeId : Nat} (hguarded : sys.Guarded)
    (hmay : sys.MayReturn caller scopeId) (hmoves : Moves sys next dropped added)
    (hcells : next.cells = sys.cells) (hregistry : next.registry = sys.registry.erase scopeId)
    (hborrowers : next.borrowers = sys.borrowers.erase scopeId)
    (hheld : next.held = sys.held.filter (· ≠ (caller, scopeId)))
    (hwaiting : next.waiting = sys.waiting) (hrunning : next.running = sys.running)
    (hspares : Spares sys next scopeId)
    (hgone : ∀ command ∈ sys.running, command.scopeId = scopeId →
      sys.Attached command.caller command.scopeId command.cell → scopeId ∉ next.scopeIds) :
    next.Guarded := by
  have hlent := hguarded.holds caller scopeId hmay.held
  have hextends : Extends sys.cells next.cells := hcells ▸ .refl _
  have hfreed : next.borrowers.lookup scopeId = none := by
    rw [hborrowers]
    exact AList.lookup_erase _ _
  refine hguarded.of_change hmoves hextends ?_ ?_ hspares (fun _ => hfreed) ?_ ?_ ?_ ?_
  · intro id hne
    rw [hborrowers]
    exact AList.lookup_erase_ne hne
  · intro id _ index hlookup
    rw [hregistry] at hlookup
    exact Table.lookup_of_lookup_erase hlookup
  · intro borrower hlookup
    rw [hfreed] at hlookup
    contradiction
  · intro caller' id hmem
    rw [hheld, List.mem_filter, decide_eq_true_eq] at hmem
    refine .inl ⟨hmem.1, ?_⟩
    rintro rfl
    have hold := hguarded.holds caller' id hmem.1
    rw [hlent] at hold
    exact hmem.2 (by rw [Option.some.inj hold])
  · intro command hmem
    rw [hwaiting] at hmem
    have hattached := hguarded.waiting command hmem
    refine ⟨hattached, fun heq => ?_⟩
    have hcaller := hattached.lent
    rw [heq, hlent] at hcaller
    exact hmay.settled command hmem ⟨(Option.some.inj hcaller).symm, heq⟩
  · intro command hmem
    rw [hrunning] at hmem
    have hcases := hguarded.running command hmem
    by_cases heq : command.scopeId = scopeId
    · right
      rcases hcases with hattached | hretired
      · obtain ⟨hplaced, hfiled⟩ := hextends _ hattached.placed
        refine ⟨hplaced, hfiled.trans hattached.filed, ?_, heq ▸ hfreed,
          heq ▸ hgone command hmem heq hattached⟩
        exact Nat.lt_of_lt_of_le (hguarded.allocated _ _ hattached.lent) hmoves.turnover.next_le
      · have hnone := hretired.free
        rw [heq, hlent] at hnone
        contradiction
    · exact .inl ⟨hcases, heq⟩

theorem locked_of_running {command : RunningCommand} (hmem : command ∈ sys.running) :
    sys.locked command.cell = true := by
  rw [locked, Bool.or_eq_true]
  exact .inl (List.any_eq_true.mpr ⟨command, hmem, beq_self_eq_true _⟩)

section

variable (hguarded : sys.Guarded) {index scopeId now runtimeDb : Nat} {target : ScopeTarget}
  {replies : Option (RedisResult (List Value))}
include hguarded

theorem connectionOf_eq (hlookup : sys.registry.lookup scopeId = some index) :
    sys.connectionOf scopeId = some scopeId := by
  obtain ⟨hlt, hid⟩ := hguarded.consistent.filed scopeId index hlookup
  have hconn : sys.cells[index]? = some sys.cells[index] := List.getElem?_eq_getElem hlt
  have hname := hguarded.named_cell hconn
  rw [cellId_of_getElem? hconn] at hid
  simp [connectionOf, hlookup, hconn, hname, hid]

omit hguarded in
private theorem not_attached_of_unlocked (hlookup : sys.registry.lookup scopeId = some index)
    (hfree : sys.locked index = false) {command : RunningCommand} (hrunning : command ∈ sys.running)
    (heq : command.scopeId = scopeId) :
    ¬ sys.Attached command.caller command.scopeId command.cell := by
  intro hattached
  rw [hattached.current index (heq ▸ hlookup), locked_of_running hrunning] at hfree
  contradiction

private theorem guarded_release {caller : Nat} (hproper : sys.Proper (.release caller scopeId now))
    (hmoves : Moves sys next dropped added) (hstep : sys.release caller scopeId now = some next) :
    next.Guarded := by
  obtain ⟨accepted, inner, hinner, rfl⟩ := release_cases hstep
  have hheld : ∀ entry ∈ sys.held.filter (· ≠ (caller, scopeId)), entry ∈ sys.held :=
    fun entry hmem => List.mem_of_mem_filter hmem
  have hspares := hguarded.spares scopeId
  cases releaseInner_releases hinner with
  | unknown hnot | unregistered hmem hlookup =>
    exact hguarded.of_free hmoves rfl rfl (fun _ _ => id) hheld rfl rfl
      { hguarded.spares sys.nextScopeId with }
  | discarded index hmem hlookup =>
    have hconnection := connectionOf_eq hguarded hlookup
    refine guarded_takeBack hguarded (hproper hmem) hmoves rfl rfl (by rw [hconnection]) rfl rfl
      rfl { hspares with } fun _ _ _ _ => ?_
    exact (moves_takeOut hguarded.consistent hmem).turnover.notMem_of_dropped
      hguarded.consistent.circulation (List.mem_singleton.mpr rfl)
  | seated index conn seated hmem hlookup hconn hfree hid hname =>
    have hconnection := connectionOf_eq hguarded hlookup
    have hseated : sys.Spare scopeId seated := by
      rw [Spare, hid, hname]
      refine ⟨hguarded.named_cell hconn, .inr ?_⟩
      rw [← cellId_of_getElem? hconn]
      exact (hguarded.consistent.filed scopeId index hlookup).2
    refine guarded_takeBack hguarded (hproper hmem) hmoves rfl rfl (by rw [hconnection]) rfl rfl
      rfl { hspares with idle := List.forall_mem_cons.mpr ⟨hseated, hspares.idle⟩ } ?_
    intro command hrunning heq hattached
    exact absurd hattached (not_attached_of_unlocked hlookup hfree hrunning heq)
  | cleaned index parentDb hmem hlookup hfree =>
    have hconnection := connectionOf_eq hguarded hlookup
    have hcleanup : sys.SpareCleanup scopeId sys.cells ⟨index, parentDb, sys.registered, .waiting⟩ :=
      ⟨.inr (hguarded.consistent.filed scopeId index hlookup).2, nofun⟩
    have hcleanups := List.forall_mem_append.mpr
      ⟨hspares.cleanups, List.forall_mem_singleton.mpr hcleanup⟩
    refine guarded_takeBack hguarded (hproper hmem) hmoves rfl rfl (by rw [hconnection]) rfl rfl
      rfl { hspares with cleanups := hcleanups } ?_
    intro command hrunning heq hattached
    exact absurd hattached (not_attached_of_unlocked hlookup hfree hrunning heq)

private theorem guarded_acquire {caller : Nat} {acquisitionSlot : Option Nat}
    (hmoves : Moves sys (sys.acquire caller now target runtimeDb acquisitionSlot) dropped added) :
    (sys.acquire caller now target runtimeDb acquisitionSlot).Guarded := by
  have hacquires := sys.pool.tryAcquire_acquires now target runtimeDb acquisitionSlot
  unfold acquire at hmoves ⊢
  generalize sys.pool.tryAcquire now target runtimeDb acquisitionSlot = outcome
    at hacquires hmoves ⊢
  cases hacquires with
  | reused evicted idle original conn hperm hid hconnection =>
    exact guarded_lend hguarded hperm hid hconnection rfl hmoves
  | reserved evicted idle hperm hroom => exact guarded_idle hguarded hperm hmoves
  | refused result evicted idle hresult hperm =>
    rcases hresult with rfl | rfl <;> exact guarded_idle hguarded hperm hmoves

private theorem guarded_dropReservation
    (hmoves : Moves sys next dropped added) (hstep : sys.dropReservation = some next) :
    next.Guarded := by
  unfold dropReservation at hstep
  split at hstep
  · contradiction
  · cases hstep
    exact hguarded.of_free hmoves rfl rfl (fun _ _ => id) (fun _ => id) rfl rfl
      { hguarded.spares sys.nextScopeId with }

private theorem guarded_createSucceeded {databaseId : Nat} (hmoves : Moves sys next dropped added)
    (hstep : sys.createSucceeded now target databaseId = some next) : next.Guarded := by
  have hspares := hguarded.spares sys.nextScopeId
  unfold createSucceeded at hstep
  by_cases hrunning : sys.pool.state = .running
  · rw [if_neg (not_not.mpr hrunning)] at hstep
    split at hstep
    · contradiction
    · cases hstep
      exact hguarded.of_free hmoves rfl rfl (fun _ _ => id) (fun _ => id) rfl rfl
        { hspares with idle := List.forall_mem_cons.mpr ⟨⟨rfl, .inr rfl⟩, hspares.idle⟩ }
  · rw [if_pos hrunning] at hstep
    exact guarded_dropReservation hguarded hmoves hstep

private theorem guarded_beginResync
    (hmoves : Moves sys (sys.beginResync target runtimeDb) dropped added) :
    (sys.beginResync target runtimeDb).Guarded := by
  obtain ⟨taken, idle, hperm, hnext⟩ := sys.beginResync_cases target runtimeDb
  rw [hnext] at hmoves ⊢
  have hspares := hguarded.spares sys.nextScopeId
  have hidle := List.forall_mem_append.mp fun conn hmem =>
    hspares.idle conn (hperm.subset hmem)
  refine hguarded.of_free hmoves rfl rfl (fun _ _ => id) (fun _ => id) rfl rfl
    { hspares with
      idle := hidle.2
      resyncs := List.forall_mem_append.mpr ⟨hspares.resyncs, ?_⟩ }
  exact List.forall_mem_map.mpr hidle.1

private theorem guarded_resyncReplied (hmoves : Moves sys next dropped added)
    (hstep : sys.resyncReplied index now replies = some next) : next.Guarded := by
  obtain ⟨conn, runtimeDb, hresync, hcases⟩ := resyncReplied_cases hstep
  have hspares := hguarded.spares sys.nextScopeId
  have hresyncs : ∀ resync ∈ sys.resyncs.eraseIdx index, sys.Spare sys.nextScopeId resync.1 :=
    fun resync hmem => hspares.resyncs resync (List.mem_of_mem_eraseIdx hmem)
  rcases hcases with ⟨seated, hid, hname, rfl⟩ | rfl
  · have hseated : sys.Spare sys.nextScopeId seated := by
      rw [Spare, hid, hname]
      exact hspares.resyncs _ (List.mem_of_getElem? hresync)
    exact hguarded.of_free hmoves rfl rfl (fun _ _ => id) (fun _ => id) rfl rfl
      { hspares with
        idle := List.forall_mem_cons.mpr ⟨hseated, hspares.idle⟩
        resyncs := hresyncs }
  · exact hguarded.of_free hmoves rfl rfl (fun _ _ => id) (fun _ => id) rfl rfl
      { hspares with resyncs := hresyncs }

private theorem guarded_setPhase {cleanup : Cleanup} {phase : CleanupPhase}
    (hcleanup : sys.cleanups[index]? = some cleanup)
    (hid : Cleanup.scopeId sys.cells { cleanup with phase := phase } = cleanup.scopeId sys.cells)
    (hseated : ∀ conn, seatedConnection { cleanup with phase := phase } = some conn →
      conn.connection = conn.scopeId)
    (hmoves : Moves sys (sys.setPhase index cleanup phase) dropped added) :
    (sys.setPhase index cleanup phase).Guarded := by
  have hspares := hguarded.spares sys.nextScopeId
  refine hguarded.of_free hmoves rfl rfl (fun _ _ => id) (fun _ => id) rfl rfl
    { hspares with cleanups := fun other hother => ?_ }
  rcases List.mem_or_eq_of_mem_set hother with hold | rfl
  · exact hspares.cleanups other hold
  · refine ⟨?_, hseated⟩
    rw [setPhase, hid]
    exact (hspares.cleanups cleanup (List.mem_of_getElem? hcleanup)).1

private theorem guarded_cleanupReplied (hmoves : Moves sys next dropped added)
    (hstep : sys.cleanupReplied index now replies = some next) : next.Guarded := by
  obtain ⟨cleanup, conn, seated, hcleanup, hconn, hphase, hseated, rfl⟩ := cleanupReplied_cases hstep
  refine guarded_setPhase hguarded hcleanup ?_ ?_ hmoves
  · cases seated with
    | none => simp [Cleanup.scopeId, hphase]
    | some idle =>
      simp only [Cleanup.scopeId, hphase, cellId_of_getElem? hconn]
      exact (hseated idle rfl).1
  · intro idle hidle
    obtain ⟨hid, hname⟩ := hseated idle hidle
    rw [hid, hname]
    exact hguarded.named_cell hconn

private theorem guarded_cleanupSettled (hmoves : Moves sys next dropped added)
    (hstep : sys.cleanupSettled index = some next) : next.Guarded := by
  obtain ⟨cleanup, seated, hcleanup, hphase, hcases⟩ := cleanupSettled_cases hstep
  have hspares := hguarded.spares sys.nextScopeId
  -- whatever becomes of the cleanup, the others are left as they are
  have hcleanups : ∀ other ∈ sys.cleanups.eraseIdx index,
      sys.SpareCleanup sys.nextScopeId sys.cells other :=
    fun other hmem => hspares.cleanups other (List.mem_of_mem_eraseIdx hmem)
  rcases hcases with ⟨conn, rfl, -, rfl⟩ | ⟨-, rfl⟩ | ⟨-, rfl⟩
  · obtain ⟨hid, hnamed⟩ := hspares.cleanups cleanup (List.mem_of_getElem? hcleanup)
    have hconn : sys.Spare sys.nextScopeId conn := by
      simp only [Cleanup.scopeId, hphase] at hid
      exact ⟨hnamed conn (by rw [seatedConnection, hphase]), hid⟩
    exact hguarded.of_free hmoves rfl rfl (fun _ _ => id) (fun _ => id) rfl rfl
      { hspares with
        idle := List.forall_mem_cons.mpr ⟨hconn, hspares.idle⟩
        cleanups := hcleanups }
  all_goals
    exact hguarded.of_free hmoves rfl rfl (fun _ _ => id) (fun _ => id) rfl rfl
      { hspares with cleanups := hcleanups }

private theorem guarded_destroy
    (hmoves : Moves sys sys.destroy dropped added) : sys.destroy.Guarded :=
  hguarded.of_free hmoves rfl rfl (fun _ _ => Table.lookup_of_lookup_foldl_erase)
    (fun _ => id) rfl rfl
    { hguarded.spares sys.nextScopeId with idle := List.forall_mem_nil _ }

end

end Steps

variable {action : ScopeAction} {sys : ScopeSystem} {conn : ScopedConnection}

theorem Guarded.step {env : ScopeEnv} {next : ScopeSystem} (hguarded : sys.Guarded)
    (hproper : sys.Proper action) (hstep : sys.step env action = some next) : next.Guarded := by
  obtain ⟨dropped, added, hmoves, -⟩ := step_succeeds hguarded.consistent hstep
  cases action with
  | acquire caller now target runtimeDb acquisitionSlot =>
    cases hstep
    exact guarded_acquire hguarded hmoves
  | prewarm =>
    simp only [ScopeSystem.step, ScopePool.reserveSlot] at hstep
    split_ifs at hstep <;> cases hstep
    · exact hguarded
    · have hperm : ([] ++ sys.pool.idle).Perm sys.pool.idle := .refl _
      exact guarded_idle hguarded hperm hmoves
    · exact hguarded
  | createSucceeded now target databaseId => exact guarded_createSucceeded hguarded hmoves hstep
  | dropReservation => exact guarded_dropReservation hguarded hmoves hstep
  | beginResync target runtimeDb =>
    cases hstep
    exact guarded_beginResync hguarded hmoves
  | resyncReplied index now replies => exact guarded_resyncReplied hguarded hmoves hstep
  | submit caller scopeId name args =>
    cases hstep
    exact guarded_submit hguarded hproper hmoves
  | start index => exact guarded_start hguarded hmoves hstep
  | finish index result => exact guarded_finish index (some result) hguarded hmoves hstep
  | cancelWaiting index =>
    cases hstep
    exact hguarded.of_commands hmoves (.refl _) rfl rfl rfl rfl rfl rfl
      (hguarded.spares 0).cells (fun command hmem => .inl (List.mem_of_mem_eraseIdx hmem))
      fun _ => .inl
  | cancelRunning index => exact guarded_finish index none hguarded hmoves hstep
  | release caller scopeId now => exact guarded_release hguarded hproper hmoves hstep
  | cleanupStart index =>
    obtain ⟨cleanup, hcleanup, hphase, rfl⟩ := cleanupStart_cases hstep
    refine guarded_setPhase hguarded hcleanup ?_ (fun _ hconn => by contradiction) hmoves
    simp [Cleanup.scopeId, hphase]
  | cleanupReplied index now replies => exact guarded_cleanupReplied hguarded hmoves hstep
  | cleanupSettled index => exact guarded_cleanupSettled hguarded hmoves hstep
  | removeEntry scopeId =>
    cases hstep
    exact hguarded.of_free hmoves rfl rfl (fun _ _ => Table.lookup_of_lookup_erase)
      (fun _ => id) rfl rfl { hguarded.spares sys.nextScopeId with }
  | unregister =>
    cases hstep
    exact hguarded.of_free hmoves rfl rfl (fun _ _ => id) (fun _ => id) rfl rfl
      { hguarded.spares sys.nextScopeId with }
  | destroy =>
    cases hstep
    exact guarded_destroy hguarded hmoves

/-! ## Exclusive use -/

theorem initial_guarded (config : ScopePoolConfig) (clientName : Bytes) :
    (initial (.new config clientName)).Guarded where
  consistent := (initial_consistent config clientName).1
  named := by simp [initial, ScopePool.new, connections]
  free := by simp [initial, ScopePool.new, freeIds]
  allocated := by simp [initial]
  holds := by simp [initial]
  waiting := by simp [initial]
  running := by simp [initial]

theorem Guarded.connection_eq (hguarded : sys.Guarded) {cell scopeId : Nat}
    (hconn : sys.cells[cell]? = some conn) (hfiled : cellId sys.cells cell = scopeId) :
    conn.connection = scopeId := by
  rw [hguarded.named_cell hconn, ← cellId_of_getElem? hconn, hfiled]

private theorem Guarded.running_exclusive (hguarded : sys.Guarded) {command : RunningCommand}
    (hmem : command ∈ sys.running) (hconn : sys.cells[command.cell]? = some conn) {borrower : Nat}
    (hborrower : sys.borrowers.lookup conn.connection = some borrower) :
    borrower = command.caller := by
  rcases hguarded.running command hmem with hattached | hretired
  · rw [hguarded.connection_eq hconn hattached.filed, hattached.lent] at hborrower
    exact (Option.some.inj hborrower).symm
  · rw [hguarded.connection_eq hconn hretired.filed, hretired.free] at hborrower
    contradiction

theorem Guarded.exclusive (hguarded : sys.Guarded) (hproper : sys.Proper action) :
    sys.Exclusive action := by
  cases action with
  | start index =>
    intro command conn hcommand hconn
    have hattached := hguarded.waiting command (List.mem_of_getElem? hcommand)
    rw [hguarded.connection_eq hconn hattached.filed]
    exact hattached.lent
  | finish index result | cancelRunning index =>
    intro command conn hcommand hconn borrower hborrower
    exact hguarded.running_exclusive (List.mem_of_getElem? hcommand) hconn hborrower
  | release caller scopeId now =>
    intro inner connection hinner hconnection
    obtain ⟨hmem, index, hlookup⟩ :
        scopeId ∈ sys.pool.inUse ∧ ∃ index, sys.registry.lookup scopeId = some index := by
      cases releaseInner_releases hinner with
      | discarded index hmem hlookup => exact ⟨hmem, index, hlookup⟩
      | seated index conn seated hmem hlookup => exact ⟨hmem, index, hlookup⟩
      | cleaned index parentDb hmem hlookup => exact ⟨hmem, index, hlookup⟩
    rw [connectionOf_eq hguarded hlookup] at hconnection
    cases hconnection
    exact hguarded.holds caller scopeId (hproper hmem).held
  | _ => trivial

/--
In every run of a new pool in which callers use an id that is in use only while they hold
it, and release it only when none of their commands still waits, every step uses a socket
on behalf of its borrower.
-/
theorem proper_run_exclusive {env : ScopeEnv} {config : ScopePoolConfig} {clientName : Bytes}
    {actions : List ScopeAction}
    (hproper : Along (step env) Proper (initial (.new config clientName)) actions) :
    Along (step env) Exclusive (initial (.new config clientName)) actions := by
  refine along_of_invariant Guarded ?_ ?_ (initial_guarded config clientName) hproper
  · exact fun sys action next hguarded hproper hstep => hguarded.step hproper hstep
  · exact fun sys action hguarded hproper => hguarded.exclusive hproper

def handOver : List ScopeAction :=
  borrowSolo ++ [.release 1 1 0, .acquire 2 0 .standalone 0 none]

theorem stale_scope_not_exclusive :
    (∃ sys, run (step standaloneEnv) soloScope (handOver ++ [.submit 1 1 (bytes "GET") [[107]]]) =
        some sys ∧
      sys.borrowers.lookup 1 = some 2 ∧ sys.held = [(2, 1)] ∧ ¬ sys.Exclusive (.start 0) ∧
      ¬ sys.Exclusive (.release 1 1 0)) ∧
    ∃ sys, run (step standaloneEnv) soloScope
        (borrowSolo ++ [.submit 1 1 (bytes "GET") [[107]], .release 1 1 0,
          .acquire 2 0 .standalone 0 none]) = some sys ∧
      sys.borrowers.lookup 1 = some 2 ∧ ¬ sys.Exclusive (.start 0) := by
  refine ⟨⟨_, rfl, rfl, rfl, fun hstart => ?_, fun hrelease => ?_⟩, _, rfl, rfl, fun hstart => ?_⟩
  · have hcaller : some 2 = some 1 := hstart _ _ rfl rfl
    contradiction
  · have hcaller : some 2 = some 1 := hrelease _ _ rfl rfl
    contradiction
  · have hcaller : some 2 = some 1 := hstart _ _ rfl rfl
    contradiction

theorem successive_borrowers_exclusive :
    Along (step standaloneEnv) Exclusive soloScope
      (borrowSolo ++ [.submit 1 1 (bytes "GET") [[107]], .start 0, .finish 0 (.ok .okay),
        .release 1 1 0, .submit 1 1 (bytes "GET") [[107]], .release 1 1 0,
        .acquire 2 0 .standalone 0 none, .submit 2 1 (bytes "GET") [[107]],
        .start 0, .release 2 1 0, .finish 0 (.ok .okay)]) :=
  proper_run_exclusive (by decide)

end ValkeyGlide.Scope.ScopeSystem
