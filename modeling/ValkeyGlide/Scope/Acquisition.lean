import Mathlib.Data.List.TakeWhile
import ValkeyGlide.Scope.Accounting

/-!
# Acquiring a scope

What `try_acquire` picks from the idle connections, and what it leaves of them.
-/

namespace ValkeyGlide.Scope

open Protocol Foundation Pool

/-! ## Pools that are reached -/

def ScopePool.Reached (pool : ScopePool) : Prop :=
  ∃ env config clientName actions sys,
    run (ScopeSystem.step env) (.initial (.new config clientName)) actions = some sys ∧
      sys.pool = pool

namespace ScopeSystem

structure Sized (sys : ScopeSystem) : Prop where
  consistent : sys.Consistent
  within_size : sys.WithinSize
  empty : sys.pool.config.maxTotal = 0 → sys.Accounted

variable {sys : ScopeSystem}

theorem orderly_of_population (hempty : sys.population = 0) (action : ScopeAction) :
    sys.Orderly action := by
  simp only [population, Nat.add_eq_zero_iff, List.length_eq_zero_iff] at hempty
  obtain ⟨⟨⟨⟨-, hinUse⟩, hreservations⟩, hresyncs⟩, hcleanups⟩ := hempty
  cases action <;> simp [Orderly, hinUse, hreservations, hresyncs, hcleanups]

theorem Sized.step {env : ScopeEnv} {next : ScopeSystem} {action : ScopeAction} (hsized : sys.Sized)
    (hstep : sys.step env action = some next) : next.Sized := by
  obtain ⟨dropped, added, hmoves, hsize, haccounted⟩ := step_succeeds hsized.consistent hstep
  refine ⟨hmoves.consistent hsized.consistent, hsize hsized.within_size, fun hzero => ?_⟩
  rw [hmoves.config] at hzero
  have hsys := hsized.empty hzero
  have hcount := hsys.exact_count
  have hwithin := hsys.within_size
  exact (haccounted hsys).mpr (orderly_of_population (by omega) action)

theorem Sized.idle_eq_nil (hsized : sys.Sized) (hzero : sys.pool.config.maxTotal = 0) :
    sys.pool.idle = [] := by
  have hcount := (hsized.empty hzero).exact_count
  have hwithin := (hsized.empty hzero).within_size
  unfold population at hcount
  exact List.eq_nil_of_length_eq_zero (by omega)

end ScopeSystem

namespace ScopePool

variable {pool : ScopePool}

theorem Reached.sized (hreached : pool.Reached) :
    pool.totalCount ≤ pool.config.maxTotal ∧ (pool.config.maxTotal = 0 → pool.idle = []) := by
  obtain ⟨env, config, clientName, actions, sys, hrun, rfl⟩ := hreached
  have hinit := ScopeSystem.initial_consistent config clientName
  have hsized : sys.Sized := run_invariant_all _ (fun _ _ _ => ScopeSystem.Sized.step)
    ⟨hinit.1, hinit.2.within_size, fun _ => hinit.2⟩ hrun
  exact ⟨hsized.within_size, hsized.idle_eq_nil⟩

/-! ## Acquisition -/

def unexpired (pool : ScopePool) (now : Nat) : List ScopedConnection :=
  pool.idle.filter (!expired pool.config now ·)

def countAfterExpiry (pool : ScopePool) (now : Nat) : Nat :=
  pool.totalCount - (pool.idle.filter (expired pool.config now)).length

def lent (conn : ScopedConnection) (now runtimeDb : Nat) (acquisitionSlot : Option Nat) :
    ScopedConnection :=
  { conn with
    borrowedAt := some now
    acquisitionSlot := acquisitionSlot
    state := conn.state.beginBorrow runtimeDb }

/--
What an acquisition answers, and the idle list, read from the back, that it leaves.  Only a
pool that is full without its expired connections evicts one, the oldest.
-/
def Picks (pool : ScopePool) (now : Nat) (target : ScopeTarget) (runtimeDb : Nat)
    (acquisitionSlot : Option Nat) : ScopeAcquire × ScopePool → Prop
  | (.reused conn, next) => ∃ original passed rest,
    pool.idle.find? (suits pool.config now target runtimeDb) = some original ∧
      conn = lent original now runtimeDb acquisitionSlot ∧
      pool.idle = passed ++ original :: rest ∧
      next.idle = passed.filter (!expired pool.config now ·) ++ rest
  | (.needsResync, next) =>
    (∃ conn ∈ pool.idle, !expired pool.config now conn ∧ conn.target = target) ∧
      (∀ conn ∈ pool.idle, !expired pool.config now conn → conn.target = target →
        conn.state.selectedDb ≠ runtimeDb) ∧ next.idle = pool.unexpired now
  | (.reserved, next) =>
    next.idle = if pool.config.maxTotal ≤ pool.countAfterExpiry now
      then (pool.unexpired now).dropLast else pool.unexpired now
  | (.exhausted, next) => pool.state ≠ .running ∧ next.idle = pool.idle ∨
    pool.config.maxTotal ≤ pool.countAfterExpiry now ∧
      (pool.unexpired now = [] ∨ pool.config.maxTotal ≤ pool.countAfterExpiry now - 1) ∧
      next.idle = (pool.unexpired now).dropLast

theorem tryAcquire_picks (pool : ScopePool) (now : Nat) (target : ScopeTarget) (runtimeDb : Nat)
    (acquisitionSlot : Option Nat) :
    pool.Picks now target runtimeDb acquisitionSlot
      (pool.tryAcquire now target runtimeDb acquisitionSlot) := by
  unfold tryAcquire
  split_ifs with hrunning
  · exact .inl ⟨hrunning, rfl⟩
  · have hsplit := List.takeWhile_append_dropWhile
      (p := (!suits pool.config now target runtimeDb ·)) (l := pool.idle)
    have hfound := pool.idle.find?_eq_head?_dropWhile_not (suits pool.config now target runtimeDb)
    simp only [searchIdle_eq]
    cases hreached : pool.idle.dropWhile (!suits pool.config now target runtimeDb ·) with
    | cons original rest =>
      rw [hreached] at hsplit hfound
      exact ⟨original, _, rest, hfound, rfl, hsplit.symm, rfl⟩
    | nil =>
      rw [hreached, List.append_nil] at hsplit
      simp only [hsplit, List.head?_nil, List.tail_nil, List.append_nil, List.nil_append,
        Bool.false_or]
      split_ifs with hwrong
      · refine ⟨by simpa using hwrong, fun conn hmem hfresh htarget hdb => ?_, rfl⟩
        simpa [suits, hfresh, htarget, hdb] using List.dropWhile_eq_nil_iff.mp hreached conn hmem
      · simp only [makeRoom]
        split_ifs with hfull hidle
        · exact .inr ⟨hfull, .inl hidle, by simp [unexpired, hidle]⟩
        · simp only [reserveSlot, hrunning, if_false]
          split_ifs with hroom
          · exact (if_pos hfull).symm
          · exact .inr ⟨hfull, .inr (Nat.le_of_not_lt hroom), rfl⟩
        · simp only [reserveSlot, hrunning, if_false, if_pos (Nat.lt_of_not_le hfull)]
          exact (if_neg hfull).symm

theorem Reached.exhausted {next : ScopePool} (hreached : pool.Reached) {now : Nat}
    {target : ScopeTarget} {runtimeDb : Nat} {acquisitionSlot : Option Nat}
    (hacquire : pool.tryAcquire now target runtimeDb acquisitionSlot = (.exhausted, next)) :
    (pool.state ≠ .running ∨ pool.totalCount = pool.config.maxTotal ∧ pool.idle = []) ∧
      next.idle = pool.idle := by
  have hpicks := pool.tryAcquire_picks now target runtimeDb acquisitionSlot
  rw [hacquire] at hpicks
  rcases hpicks with ⟨hclosed, hidle⟩ | ⟨hfull, hroom, hidle⟩
  · exact ⟨.inl hclosed, hidle⟩
  · obtain ⟨hsize, hzero⟩ := hreached.sized
    have hlength := pool.idle.length_eq_length_filter_add (expired pool.config now)
    unfold countAfterExpiry at hfull hroom
    have hnothing : pool.idle = [] := by
      by_cases hmax : pool.config.maxTotal = 0
      · exact hzero hmax
      · -- evicting one would have made room
        have hnone : pool.unexpired now = [] := hroom.resolve_right (by omega)
        rw [unexpired] at hnone
        rw [hnone, List.length_nil] at hlength
        exact List.eq_nil_of_length_eq_zero (by omega)
    exact ⟨.inr ⟨by omega, hnothing⟩, by simp [hidle, unexpired, hnothing]⟩

/--
A reused connection is the one of those that suit nearest to the back of the idle list;
otherwise a resynchronisation is asked for only if the target is there on other databases
alone, and a pool that a run has reached is exhausted only if it is closed or full with
nothing idle.
-/
theorem scope_acquisition_picks (pool : ScopePool) (now : Nat) (target : ScopeTarget)
    (runtimeDb : Nat) (acquisitionSlot : Option Nat) :
    pool.Picks now target runtimeDb acquisitionSlot
        (pool.tryAcquire now target runtimeDb acquisitionSlot) ∧
      (pool.Reached → ∀ next,
        pool.tryAcquire now target runtimeDb acquisitionSlot = (.exhausted, next) →
          (pool.state ≠ .running ∨ pool.totalCount = pool.config.maxTotal ∧ pool.idle = []) ∧
            next.idle = pool.idle) :=
  ⟨pool.tryAcquire_picks now target runtimeDb acquisitionSlot,
    fun hreached _ hacquire => hreached.exhausted hacquire⟩

/-- A pool of one connection, which is being made. -/
def busyPool : ScopePool := (ScopeSystem.soloScope.acquire 1 0 .standalone 0 none).pool

theorem busyPool_exhausted :
    busyPool.Reached ∧ ∃ next, busyPool.tryAcquire 0 .standalone 0 none = (.exhausted, next) ∧
      busyPool.totalCount = busyPool.config.maxTotal ∧ next.idle = [] := by
  have hreached : busyPool.Reached :=
    ⟨standaloneEnv, _, _, [.acquire 1 0 .standalone 0 none], _, rfl, rfl⟩
  obtain ⟨hfull, hidle⟩ := (scope_acquisition_picks busyPool 0 .standalone 0 none).2 hreached _ rfl
  exact ⟨hreached, _, rfl, (hfull.resolve_left (by decide)).1, hidle⟩

/-- A full pool evicts its only idle connection, which is to another target. -/
example :
    let idle : ScopedConnection := ⟨1, 1, 0, none, .withConfiguredDb 0, none, none, .standalone⟩
    let acquired := { busyPool with idle := [idle] }.tryAcquire 0 (.clusterPrimary "a:1") 0 none
    acquired.1 = .reserved ∧ acquired.2.idle = [] := by
  decide

end ScopePool

end ValkeyGlide.Scope
