import Mathlib.Algebra.Order.Group.Int
import ValkeyGlide.Foundation.Run

/-!
# Slots for requests in flight

A request reserves a slot before it is sent (`cluster_async/mod.rs`).  `try_new` loads the
shared counter and lowers it by a compare-exchange, and starts again when another thread
was faster; the slot goes back when the last clone of the tracker is dropped.  A run is
any interleaving of these atomic steps.
-/

namespace ValkeyGlide.Cluster

open Foundation

/-- Where a call of `try_new` is: at its load, at its exchange, or returned, with a slot or not. -/
inductive TryNewCall where
  | loading
  | loaded (current : Int)
  | returned (slot : Bool)
  deriving DecidableEq, Repr

structure InflightSlots where
  counter : Int
  calls : List TryNewCall
  trackers : List Nat

inductive InflightAction where
  | tryNew
  | load (call : Nat)
  | compareExchange (call : Nat)
  | clone (tracker : Nat)
  | drop (tracker : Nat)

namespace InflightSlots

def initial (limit : Nat) : InflightSlots := ⟨limit, [], []⟩

def step (slots : InflightSlots) : InflightAction → Option InflightSlots
  | .tryNew => some { slots with calls := slots.calls ++ [.loading] }
  | .load call =>
    match slots.calls[call]? with
    | some .loading =>
      if slots.counter ≤ 0 then
        some { slots with calls := slots.calls.set call (.returned false) }
      else some { slots with calls := slots.calls.set call (.loaded slots.counter) }
    | _ => none
  | .compareExchange call =>
    match slots.calls[call]? with
    | some (.loaded current) =>
      if slots.counter = current then
        some ⟨current - 1, slots.calls.set call (.returned true), slots.trackers ++ [1]⟩
      else some { slots with calls := slots.calls.set call .loading }
    | _ => none
  | .clone tracker => do
      let clones ← slots.trackers[tracker]?
      return { slots with trackers := slots.trackers.set tracker (clones + 1) }
  | .drop tracker => do
      let clones ← slots.trackers[tracker]?
      if clones ≤ 1 then
        return { slots with
          counter := slots.counter + 1
          trackers := slots.trackers.eraseIdx tracker }
      else return { slots with trackers := slots.trackers.set tracker (clones - 1) }

def reservations (slots : InflightSlots) : Nat := slots.trackers.countP (0 < ·)

structure Conserved (limit : Nat) (slots : InflightSlots) : Prop where
  balance : slots.counter + slots.trackers.length = limit
  nonneg : 0 ≤ slots.counter
  alive : ∀ clones ∈ slots.trackers, 0 < clones
  seen : ∀ call ∈ slots.calls, ∀ current, call = .loaded current → 0 < current

variable {limit : Nat} {slots next : InflightSlots} {action : InflightAction}

theorem Conserved.step (hcons : Conserved limit slots) (hstep : slots.step action = some next) :
    Conserved limit next := by
  have hset : ∀ {α : Type} {items : List α} {index : Nat} {new : α} {holds : α → Prop},
      (∀ item ∈ items, holds item) → holds new → ∀ item ∈ items.set index new, holds item :=
    fun hitems hnew item hitem => (List.mem_or_eq_of_mem_set hitem).elim (hitems item) (· ▸ hnew)
  have hbalance := hcons.balance
  have hnonneg := hcons.nonneg
  revert hstep
  fun_cases InflightSlots.step slots action with
  | case1 =>
    rintro ⟨⟩
    exact { hcons with seen := List.forall_mem_append.mpr ⟨hcons.seen, by simp⟩ }
  | case2 call hcall hcounter =>
    rintro ⟨⟩
    exact { hcons with seen := hset hcons.seen (by simp) }
  | case3 call hcall hcounter =>
    rintro ⟨⟩
    exact { hcons with seen := hset hcons.seen (by simpa using hcounter) }
  | case5 call hcall =>
    rintro ⟨⟩
    have hpositive := hcons.seen _ (List.mem_of_getElem? hcall) _ rfl
    refine ⟨?_, Int.sub_nonneg.mpr hpositive, List.forall_mem_append.mpr ⟨hcons.alive, by simp⟩,
      hset hcons.seen (by simp)⟩
    simp only [List.length_append, List.length_singleton]
    omega
  | case6 call current hcall hcurrent =>
    rintro ⟨⟩
    exact { hcons with seen := hset hcons.seen (by simp) }
  | case8 tracker =>
    intro hstep
    obtain ⟨clones, hclones, ⟨⟩⟩ := Option.bind_eq_some_iff.mp hstep
    exact ⟨by simpa using hbalance, hnonneg, hset hcons.alive (by omega), hcons.seen⟩
  | case9 tracker =>
    intro hstep
    obtain ⟨clones, hclones, hstep⟩ := Option.bind_eq_some_iff.mp hstep
    split_ifs at hstep with hlast
    · cases hstep
      obtain ⟨hlt, -⟩ := List.getElem?_eq_some_iff.mp hclones
      refine ⟨?_, Int.add_nonneg hnonneg Int.one_nonneg,
        fun other hmem => hcons.alive other (List.mem_of_mem_eraseIdx hmem), hcons.seen⟩
      simp only [List.length_eraseIdx_of_lt hlt]
      omega
    · cases hstep
      exact ⟨by simpa using hbalance, hnonneg, hset hcons.alive (by omega), hcons.seen⟩
  | _ => nofun

/-- The step by which `call` returns, with a slot or without. -/
def Returns (slots next : InflightSlots) (call : Nat) (slot : Bool) : Prop :=
  slots.calls[call]? ≠ some (.returned slot) ∧ next.calls[call]? = some (.returned slot)

theorem counter_of_returns_none {call : Nat} (hstep : slots.step action = some next)
    (hreturns : Returns slots next call false) : slots.counter ≤ 0 := by
  obtain ⟨hbefore, hafter⟩ := hreturns
  have hset : ∀ {index : Nat} {state : TryNewCall}, state ≠ .returned false →
      (slots.calls.set index state)[call]? ≠ some (.returned false) := by
    intro index state hstate hcall
    rw [List.getElem?_set] at hcall
    split_ifs at hcall
    · exact hstate (Option.some.inj hcall)
    · exact hbefore hcall
  revert hstep
  fun_cases InflightSlots.step slots action with
  | case1 =>
    rintro ⟨⟩
    rw [List.getElem?_append] at hafter
    grind
  | case2 index hindex hcounter => exact fun _ => hcounter
  | case3 | case5 | case6 =>
    rintro ⟨⟩
    exact absurd hafter (hset (by simp))
  | case8 tracker =>
    intro hstep
    obtain ⟨clones, -, ⟨⟩⟩ := Option.bind_eq_some_iff.mp hstep
    exact absurd hafter hbefore
  | case9 tracker =>
    intro hstep
    obtain ⟨clones, -, hstep⟩ := Option.bind_eq_some_iff.mp hstep
    split_ifs at hstep <;> cases hstep <;> exact absurd hafter hbefore
  | _ => nofun

/--
In every state that the atomic steps reach, the counter is the limit less the live
reservations and not negative, and it is zero when the next step makes a call return
without a slot.
-/
theorem slots_conserved {actions : List InflightAction}
    (hrun : run step (initial limit) actions = some slots) :
    slots.counter = limit - slots.reservations ∧ 0 ≤ slots.counter ∧
      ∀ action next call, slots.step action = some next → Returns slots next call false →
        slots.counter = 0 := by
  have hcons : Conserved limit slots := run_invariant_all (Conserved limit)
    (fun slots action next hcons hstep => hcons.step hstep)
    ⟨Int.add_zero _, Int.natCast_nonneg _, List.forall_mem_nil _, List.forall_mem_nil _⟩ hrun
  have hreservations : slots.reservations = slots.trackers.length :=
    List.countP_eq_length.mpr (by simpa using hcons.alive)
  have hbalance := hcons.balance
  have hnonneg := hcons.nonneg
  refine ⟨by omega, hnonneg, fun action next call hstep hreturns => ?_⟩
  have hcounter := counter_of_returns_none hstep hreturns
  omega

/-- Two calls race for one slot; the loser starts again and finds none. -/
def race : List InflightAction :=
  [.tryNew, .tryNew, .load 0, .load 1, .compareExchange 0, .compareExchange 1, .clone 0]

theorem lost_race_returns_none :
    ∃ slots next, run step (initial 1) race = some slots ∧ slots.step (.load 1) = some next ∧
      Returns slots next 1 false ∧ slots.reservations = 1 ∧ slots.counter = 0 := by
  have hrun : run step (initial 1) race = some _ := rfl
  refine ⟨_, _, hrun, rfl, ⟨by decide, rfl⟩, by decide, ?_⟩
  exact (slots_conserved hrun).2.2 (.load 1) _ 1 rfl ⟨by decide, rfl⟩

end InflightSlots

end ValkeyGlide.Cluster
