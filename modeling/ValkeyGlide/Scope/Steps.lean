import ValkeyGlide.Scope.Pool

/-!
# What the steps of the scope pool can do

One result for each operation that says everything later arguments need of it, so
that they do not look at its definition.
-/

namespace ValkeyGlide.Scope

open Protocol Foundation Pool

namespace ScopePool

/-! ## The pool -/

def expired (config : ScopePoolConfig) (now : Nat) (conn : ScopedConnection) : Bool :=
  config.idleTimeout < now - conn.lastIdleAt

def suits (config : ScopePoolConfig) (now : Nat) (target : ScopeTarget) (runtimeDb : Nat)
    (conn : ScopedConnection) : Bool :=
  !expired config now conn && conn.target = target && conn.state.selectedDb = runtimeDb

theorem searchIdle_eq (config : ScopePoolConfig) (now : Nat) (target : ScopeTarget)
    (runtimeDb : Nat) (idle mismatched : List ScopedConnection) (wrongDb : Bool)
    (totalCount : Nat) :
    searchIdle config now target runtimeDb idle mismatched wrongDb totalCount =
      let passed := idle.takeWhile (!suits config now target runtimeDb ·)
      let reached := idle.dropWhile (!suits config now target runtimeDb ·)
      ⟨reached.head?,
        wrongDb || passed.any fun conn => !expired config now conn && conn.target = target,
        mismatched ++ (passed.filter (!expired config now ·) ++ reached.tail),
        totalCount - (passed.filter (expired config now)).length⟩ := by
  induction idle generalizing mismatched wrongDb totalCount with
  | nil => simp [searchIdle]
  | cons conn rest ih =>
    simp only [searchIdle]
    split_ifs with hexpired htarget hdb
    · simp [ih, suits, expired, hexpired, saturatingDec, Nat.sub_sub, Nat.add_comm]
    · simp [suits, expired, hexpired, htarget, hdb]
    · simp [ih, suits, expired, hexpired, htarget, hdb]
    · simp [ih, suits, expired, hexpired, htarget]

private theorem searchIdle_perm (config : ScopePoolConfig) (now : Nat) (target : ScopeTarget)
    (runtimeDb : Nat) (idle : List ScopedConnection) (totalCount : Nat) :
    ∃ evicted : List ScopedConnection,
      let search := searchIdle config now target runtimeDb idle [] false totalCount
      (evicted ++ (search.found.toList ++ search.idle)).Perm idle ∧
        search.totalCount = totalCount - evicted.length := by
  simp only [searchIdle_eq, List.nil_append]
  set unsuited := (!suits config now target runtimeDb ·)
  refine ⟨(idle.takeWhile unsuited).filter (expired config now), ?_, rfl⟩
  have hreached : (idle.dropWhile unsuited).head?.toList ++ (idle.dropWhile unsuited).tail =
      idle.dropWhile unsuited := by cases idle.dropWhile unsuited <;> rfl
  have hpassed := List.filter_append_perm (expired config now) (idle.takeWhile unsuited)
  refine ((List.perm_append_comm_assoc _ _ _).append_left _).trans ?_
  rw [hreached, ← List.append_assoc]
  exact (hpassed.append_right _).trans (.of_eq List.takeWhile_append_dropWhile)

inductive Acquires (pool : ScopePool) : ScopeAcquire × ScopePool → Prop where
  | reused (evicted idle : List ScopedConnection) (original conn : ScopedConnection)
      (hperm : (evicted ++ original :: idle).Perm pool.idle)
      (hid : conn.scopeId = original.scopeId) (hconnection : conn.connection = original.connection) :
      Acquires pool (.reused conn,
        { pool with
          idle := idle
          inUse := pool.inUse.insert conn.scopeId
          totalCount := pool.totalCount - evicted.length })
  | reserved (evicted idle : List ScopedConnection)
      (hperm : (evicted ++ idle).Perm pool.idle)
      (hroom : pool.totalCount - evicted.length < pool.config.maxTotal) :
      Acquires pool (.reserved,
        { pool with idle := idle, totalCount := fetchAdd (pool.totalCount - evicted.length) })
  | refused (result : ScopeAcquire) (evicted idle : List ScopedConnection)
      (hresult : result = .needsResync ∨ result = .exhausted)
      (hperm : (evicted ++ idle).Perm pool.idle) :
      Acquires pool (result,
        { pool with idle := idle, totalCount := pool.totalCount - evicted.length })

private theorem makeRoom_perm {pool room : ScopePool} (hroom : pool.makeRoom = some room) :
    ∃ evicted idle : List ScopedConnection,
      (evicted ++ idle).Perm pool.idle ∧
        room = { pool with idle := idle, totalCount := pool.totalCount - evicted.length } := by
  unfold makeRoom at hroom
  split_ifs at hroom with hfull hidle
  · cases hroom
    refine ⟨[pool.idle.getLast hidle], pool.idle.dropLast, ?_, rfl⟩
    have hlast := List.dropLast_append_getLast hidle
    exact (List.perm_append_comm).trans (.of_eq hlast)
  · cases hroom
    exact ⟨[], pool.idle, .refl _, rfl⟩

theorem tryAcquire_acquires (pool : ScopePool) (now : Nat) (target : ScopeTarget)
    (runtimeDb : Nat) (acquisitionSlot : Option Nat) :
    Acquires pool (pool.tryAcquire now target runtimeDb acquisitionSlot) := by
  unfold tryAcquire
  split_ifs with hrunning
  · exact .refused _ [] pool.idle (.inr rfl) (.refl _)
  · obtain ⟨evicted, hperm, hcount⟩ :=
      searchIdle_perm pool.config now target runtimeDb pool.idle pool.totalCount
    set search := searchIdle pool.config now target runtimeDb pool.idle [] false pool.totalCount
    simp only
    cases hfound : search.found with
    | some conn =>
      rw [hfound] at hperm
      rw [hcount]
      exact .reused evicted search.idle conn _ hperm rfl rfl
    | none =>
      simp only [hfound, Option.toList_none, List.nil_append] at hperm
      split_ifs
      · rw [hcount]
        exact .refused _ evicted search.idle (.inl rfl) hperm
      · cases hroom : makeRoom { pool with idle := search.idle, totalCount := search.totalCount } with
        | none =>
          rw [hcount]
          exact .refused _ evicted search.idle (.inr rfl) hperm
        | some room =>
          obtain ⟨more, idle, hmore, rfl⟩ := makeRoom_perm hroom
          have hall : (evicted ++ more ++ idle).Perm pool.idle := by
            rw [List.append_assoc]
            exact (hmore.append_left evicted).trans hperm
          have hlength : search.totalCount - more.length =
              pool.totalCount - (evicted ++ more).length := by
            rw [hcount, List.length_append]
            omega
          simp only [reserveSlot, hlength]
          split_ifs with hlt
          · exact .reserved _ idle hall hlt
          · exact .refused _ _ idle (.inr rfl) hall

theorem takeWrongDb_perm (target : ScopeTarget) (runtimeDb : Nat) (idle : List ScopedConnection) :
    ((takeWrongDb target runtimeDb idle).1.toList ++ (takeWrongDb target runtimeDb idle).2).Perm
      idle := by
  induction idle with
  | nil => exact .refl _
  | cons conn rest ih =>
    simp only [takeWrongDb]
    split_ifs
    · exact .refl _
    · exact List.perm_middle.trans (ih.cons conn)

end ScopePool

namespace ScopeSystem

/-! ## The system -/

section Inversion

variable {sys next : ScopeSystem} {index now : Nat} {replies : Option (RedisResult (List Value))}

theorem start_cases {env : ScopeEnv} (hstep : sys.start env index = some next) :
    ∃ command conn changed started,
      sys.waiting[index]? = some command ∧ sys.cells[command.cell]? = some conn ∧
        changed.scopeId = conn.scopeId ∧ changed.connection = conn.connection ∧
        (started = [] ∨ ∃ isBlocking alreadyPoisoned,
          started = [⟨command.caller, command.scopeId, command.cell, isBlocking,
            alreadyPoisoned⟩]) ∧
        next = { sys with
          waiting := sys.waiting.eraseIdx index
          cells := sys.cells.set command.cell changed
          running := sys.running ++ started } := by
  simp only [start, Option.bind_eq_bind, Option.bind_eq_some_iff] at hstep
  obtain ⟨command, hcommand, conn, hconn, hstep⟩ := hstep
  obtain ⟨hid, hconnection⟩ := beginCommand_identity env conn command.name command.args
  split_ifs at hstep
  split at hstep
  · next isBlocking alreadyPoisoned changed hbegin =>
      rw [hbegin] at hid hconnection
      exact ⟨command, conn, changed, _, hcommand, hconn, hid, hconnection,
        .inr ⟨isBlocking, alreadyPoisoned, rfl⟩, (Option.some.inj hstep).symm⟩
  · next dispatch changed _ hbegin =>
      rw [hbegin] at hid hconnection
      refine ⟨command, conn, changed, [], hcommand, hconn, hid, hconnection, .inl rfl, ?_⟩
      rw [List.append_nil]
      exact (Option.some.inj hstep).symm

theorem finish_cases {result : Option (RedisResult Value)}
    (hstep : sys.finish index result = some next) :
    ∃ command conn state, sys.running[index]? = some command ∧
      sys.cells[command.cell]? = some conn ∧
        next = { sys with
          cells := sys.cells.set command.cell { conn with state := state }
          running := sys.running.eraseIdx index } := by
  simp only [finish, Option.bind_eq_bind, Option.bind_eq_some_iff] at hstep
  obtain ⟨command, hcommand, conn, hconn, hstep⟩ := hstep
  exact ⟨command, conn, _, hcommand, hconn, (Option.some.inj hstep).symm⟩

def takeOut (sys : ScopeSystem) (scopeId : Nat) : ScopeSystem :=
  { sys with
    pool := { sys.pool with inUse := sys.pool.inUse.erase scopeId }
    registry := sys.registry.erase scopeId }

inductive Releases (sys : ScopeSystem) (scopeId : Nat) : Bool × ScopeSystem → Prop where
  | unknown (hnot : scopeId ∉ sys.pool.inUse) : Releases sys scopeId (false, sys)
  | unregistered (hmem : scopeId ∈ sys.pool.inUse) (hlookup : sys.registry.lookup scopeId = none) :
      Releases sys scopeId
        (false, { sys with pool := { sys.pool with inUse := sys.pool.inUse.erase scopeId } })
  | discarded (index : Nat) (hmem : scopeId ∈ sys.pool.inUse)
      (hlookup : sys.registry.lookup scopeId = some index) :
      Releases sys scopeId (true, (sys.takeOut scopeId).discardSlot)
  | seated (index : Nat) (conn seated : ScopedConnection) (hmem : scopeId ∈ sys.pool.inUse)
      (hlookup : sys.registry.lookup scopeId = some index) (hconn : sys.cells[index]? = some conn)
      (hfree : sys.locked index = false) (hid : seated.scopeId = conn.scopeId)
      (hconnection : seated.connection = conn.connection) :
      Releases sys scopeId (true, { sys.takeOut scopeId with
        pool := { (sys.takeOut scopeId).pool with idle := seated :: sys.pool.idle } })
  | cleaned (index parentDb : Nat) (hmem : scopeId ∈ sys.pool.inUse)
      (hlookup : sys.registry.lookup scopeId = some index) (hfree : sys.locked index = false) :
      Releases sys scopeId (true, { sys.takeOut scopeId with
        cleanups := sys.cleanups ++ [⟨index, parentDb, sys.registered, .waiting⟩] })

theorem releaseInner_releases {scopeId : Nat} {outcome : Bool × ScopeSystem}
    (hrelease : sys.releaseInner scopeId now = some outcome) : Releases sys scopeId outcome := by
  unfold releaseInner at hrelease
  by_cases hmem : scopeId ∈ sys.pool.inUse
  · rw [if_neg (not_not.mpr hmem)] at hrelease
    dsimp only at hrelease
    cases hlookup : sys.registry.lookup scopeId with
    | none =>
      simp only [hlookup] at hrelease
      cases hrelease
      exact .unregistered hmem hlookup
    | some found =>
      simp only [hlookup] at hrelease
      by_cases hrunning : sys.pool.state = .running
      · rw [if_neg (not_not.mpr hrunning), Option.bind_eq_bind,
          Option.bind_eq_some_iff] at hrelease
        obtain ⟨conn, hconn, hrelease⟩ := hrelease
        split_ifs at hrelease with hlocked hclean hpoisoned
        · cases hrelease
          exact .discarded found hmem hlookup
        · cases hrelease
          exact .seated found conn _ hmem hlookup hconn (Bool.not_eq_true _ ▸ hlocked) rfl rfl
        · cases hrelease
          exact .discarded found hmem hlookup
        · cases hrelease
          exact .cleaned found _ hmem hlookup (Bool.not_eq_true _ ▸ hlocked)
      · rw [if_pos hrunning] at hrelease
        cases hrelease
        exact .discarded found hmem hlookup
  · rw [if_pos hmem] at hrelease
    cases hrelease
    exact .unknown hmem

theorem release_cases {caller scopeId : Nat} (hstep : sys.release caller scopeId now = some next) :
    ∃ accepted inner, sys.releaseInner scopeId now = some (accepted, inner) ∧
      next = { inner with
        borrowers := match accepted, sys.connectionOf scopeId with
          | true, some connection => sys.borrowers.erase connection
          | _, _ => sys.borrowers
        held := sys.held.filter (· ≠ (caller, scopeId)) } := by
  simp only [release, Option.bind_eq_bind, Option.bind_eq_some_iff] at hstep
  obtain ⟨⟨accepted, inner⟩, hinner, hstep⟩ := hstep
  exact ⟨accepted, inner, hinner, (Option.some.inj hstep).symm⟩

theorem beginResync_cases (sys : ScopeSystem) (target : ScopeTarget) (runtimeDb : Nat) :
    ∃ (taken : Option ScopedConnection) (idle : List ScopedConnection),
      (taken.toList ++ idle).Perm sys.pool.idle ∧
        sys.beginResync target runtimeDb = { sys with
          pool := { sys.pool with idle := idle }
          resyncs := sys.resyncs ++ taken.toList.map fun conn => (conn, runtimeDb) } := by
  unfold beginResync ScopePool.takeIdleForResync
  by_cases hrunning : sys.pool.state = .running
  · rw [if_neg (not_not.mpr hrunning)]
    refine ⟨_, _, ScopePool.takeWrongDb_perm target runtimeDb sys.pool.idle, ?_⟩
    cases htaken : (ScopePool.takeWrongDb target runtimeDb sys.pool.idle).1 <;> simp [htaken]
  · rw [if_pos hrunning]
    exact ⟨none, sys.pool.idle, .refl _, by simp⟩

theorem resyncReplied_cases (hstep : sys.resyncReplied index now replies = some next) :
    ∃ conn runtimeDb, sys.resyncs[index]? = some (conn, runtimeDb) ∧
      ((∃ seated : ScopedConnection, seated.scopeId = conn.scopeId ∧
          seated.connection = conn.connection ∧
          next = { sys with
            resyncs := sys.resyncs.eraseIdx index
            pool := { sys.pool with idle := seated :: sys.pool.idle } }) ∨
        next = { sys.discardSlot with resyncs := sys.resyncs.eraseIdx index }) := by
  simp only [resyncReplied, Option.bind_eq_bind, Option.bind_eq_some_iff] at hstep
  obtain ⟨⟨conn, runtimeDb⟩, hresync, hstep⟩ := hstep
  refine ⟨conn, runtimeDb, hresync, ?_⟩
  simp only [ScopePool.reidleAfterResync] at hstep
  split_ifs at hstep
  · exact .inl ⟨{ conn with state := .withConfiguredDb runtimeDb, lastIdleAt := now }, rfl, rfl,
      (Option.some.inj hstep).symm⟩
  · exact .inr (Option.some.inj hstep).symm
  · exact .inr (Option.some.inj hstep).symm

theorem cleanupStart_cases (hstep : sys.cleanupStart index = some next) :
    ∃ cleanup, sys.cleanups[index]? = some cleanup ∧ cleanup.phase = .waiting ∧
      next = sys.setPhase index cleanup .cleaning := by
  simp only [cleanupStart, Option.bind_eq_bind, Option.bind_eq_some_iff] at hstep
  obtain ⟨cleanup, hcleanup, hstep⟩ := hstep
  split_ifs at hstep with hready
  rw [not_or, not_not] at hready
  exact ⟨cleanup, hcleanup, hready.1, (Option.some.inj hstep).symm⟩

theorem cleanupReplied_cases (hstep : sys.cleanupReplied index now replies = some next) :
    ∃ cleanup conn seated, sys.cleanups[index]? = some cleanup ∧
      sys.cells[cleanup.cell]? = some conn ∧ cleanup.phase = .cleaning ∧
        (∀ idle ∈ seated, idle.scopeId = conn.scopeId ∧ idle.connection = conn.connection) ∧
        next = sys.setPhase index cleanup (.settling seated) := by
  simp only [cleanupReplied, Option.bind_eq_bind, Option.bind_eq_some_iff] at hstep
  obtain ⟨cleanup, hcleanup, conn, hconn, hstep⟩ := hstep
  split_ifs at hstep with hphase hreply
  · refine ⟨cleanup, conn, _, hcleanup, hconn, by simpa using hphase, ?_,
      (Option.some.inj hstep).symm⟩
    intro idle hidle
    cases hidle
    exact ⟨rfl, rfl⟩
  · refine ⟨cleanup, conn, none, hcleanup, hconn, by simpa using hphase, ?_,
      (Option.some.inj hstep).symm⟩
    simp

theorem cleanupSettled_cases (hstep : sys.cleanupSettled index = some next) :
    ∃ cleanup seated, sys.cleanups[index]? = some cleanup ∧ cleanup.phase = .settling seated ∧
      ((∃ conn, seated = some conn ∧ cleanup.poolKnown ∧
          next = { sys with
            cleanups := sys.cleanups.eraseIdx index
            pool := { sys.pool with idle := conn :: sys.pool.idle } }) ∨
        (cleanup.poolKnown ∧
          next = { sys.discardSlot with cleanups := sys.cleanups.eraseIdx index }) ∨
        (cleanup.poolKnown = false ∧
          next = { sys with cleanups := sys.cleanups.eraseIdx index })) := by
  simp only [cleanupSettled, Option.bind_eq_bind, Option.bind_eq_some_iff] at hstep
  obtain ⟨cleanup, hcleanup, hstep⟩ := hstep
  split at hstep
  · next seated hphase =>
      refine ⟨cleanup, seated, hcleanup, hphase, ?_⟩
      split_ifs at hstep with hknown
      · cases seated with
        | none => exact .inr (.inl ⟨hknown, (Option.some.inj hstep).symm⟩)
        | some conn =>
          simp only [ScopePool.reidleAfterResync] at hstep
          split_ifs at hstep
          · exact .inl ⟨conn, rfl, hknown, (Option.some.inj hstep).symm⟩
          · exact .inr (.inl ⟨hknown, (Option.some.inj hstep).symm⟩)
      · exact .inr (.inr ⟨by simpa using hknown, (Option.some.inj hstep).symm⟩)
  · contradiction

end Inversion

end ScopeSystem

end ValkeyGlide.Scope
