import Mathlib.Data.List.AList
import ValkeyGlide.Foundation.History

/-!
# The client's circuit breaker

`ClientCircuitBreaker` watches the results of all commands of a client.  Closed,
it keeps a sliding window of results and opens when enough of them are errors;
open, it rejects commands until a timeout has passed; half open, it lets
everything through and closes after a number of successes in a row.  The model
has every field that decides a phase change, the clock readings are arguments,
and times are nanoseconds.

`handle_transition` lists every way in which a reported result or a health check
can change the breaker.
-/

namespace ValkeyGlide.Client

open Foundation.History

inductive CircuitState where
  | closed
  | opened
  | halfOpen
  deriving DecidableEq, Repr

/-- The assertions of `new` on the counts are fields. -/
structure ClientCircuitBreakerConfig where
  windowSize : Nat
  /-- `errors as f32 / total as f32 >= failure_rate_threshold`. -/
  rateReached : (errors total : Nat) → Bool
  minErrors : Nat
  openTimeout : Nat
  consecutiveSuccesses : Nat
  minErrors_pos : 0 < minErrors
  consecutiveSuccesses_pos : 0 < consecutiveSuccesses

structure RequestRecord where
  timestamp : Nat
  isError : Bool
  deriving DecidableEq, Repr

structure BreakerState where
  phase : CircuitState
  records : List RequestRecord
  errorCount : Nat
  openedAt : Option Nat
  consecutiveSuccessCount : Nat
  stragglersForgiven : Nat
  inflightAtTrip : Nat
  errorCounts : AList fun _ : String => Nat

structure ClientCircuitBreaker extends BreakerState where
  healthy : Bool
  tripCount : Nat
  rejectionCount : Nat

def maxWindowRecords : Nat := 10000

namespace ClientCircuitBreaker

def new : ClientCircuitBreaker where
  phase := .closed
  records := []
  errorCount := 0
  openedAt := none
  consecutiveSuccessCount := 0
  stragglersForgiven := 0
  inflightAtTrip := 0
  errorCounts := ∅
  healthy := true
  tripCount := 0
  rejectionCount := 0

/-- `contended`: `try_write` finds the lock taken. -/
def tryAllowProbe (config : ClientCircuitBreakerConfig) (breaker : ClientCircuitBreaker)
    (now : Nat) (contended : Bool) : Bool × ClientCircuitBreaker :=
  if contended then (false, breaker)
  else if breaker.phase ≠ .opened then (breaker.healthy, breaker)
  else if config.openTimeout ≤ now - breaker.openedAt.getD now then
    (true, { breaker with
      phase := .halfOpen, consecutiveSuccessCount := 0, stragglersForgiven := 0, healthy := true })
  else (false, { breaker with rejectionCount := breaker.rejectionCount + 1 })

def isHealthy (config : ClientCircuitBreakerConfig) (breaker : ClientCircuitBreaker)
    (now : Nat) (contended : Bool) : Bool × ClientCircuitBreaker :=
  if breaker.healthy then (true, breaker) else breaker.tryAllowProbe config now contended

def countErrorKind (errorCounts : AList fun _ : String => Nat) (isError : Bool) :
    Option String → AList fun _ : String => Nat
  | none => errorCounts
  | some kind =>
    if isError then errorCounts.insert kind ((errorCounts.lookup kind).getD 0 + 1)
    else errorCounts

def recordResult (config : ClientCircuitBreakerConfig) (breaker : ClientCircuitBreaker)
    (now : Nat) (isError : Bool) (errorKind : Option String) : ClientCircuitBreaker :=
  let records := breaker.records ++ [⟨now, isError⟩]
  let errorCount := if isError then breaker.errorCount + 1 else breaker.errorCount
  let aged := evict RequestRecord.isError
    (fun record _ => decide (now - record.timestamp > config.windowSize)) records errorCount
  let capped := evict RequestRecord.isError
    (fun _ rest => decide (rest.length + 1 > maxWindowRecords)) aged.1 aged.2
  { breaker with
    records := capped.1
    errorCount := capped.2
    errorCounts := countErrorKind breaker.errorCounts isError errorKind }

def trip (breaker : ClientCircuitBreaker) (now currentInflight : Nat) : ClientCircuitBreaker :=
  { breaker with
    phase := .opened
    openedAt := some now
    records := []
    errorCount := 0
    consecutiveSuccessCount := 0
    inflightAtTrip := currentInflight
    errorCounts := ∅
    healthy := false
    tripCount := breaker.tripCount + 1 }

def onResult (config : ClientCircuitBreakerConfig) (breaker : ClientCircuitBreaker)
    (now : Nat) (isError : Bool) (errorKind : Option String) (currentInflight : Nat) :
    ClientCircuitBreaker :=
  match breaker.phase with
  | .closed =>
    let recorded := breaker.recordResult config now isError errorKind
    if config.minErrors ≤ recorded.errorCount ∧
        config.rateReached recorded.errorCount recorded.records.length = true then
      recorded.trip now currentInflight
    else recorded
  | .halfOpen =>
    if isError then
      if currentInflight < breaker.inflightAtTrip ∧ breaker.stragglersForgiven < 2 then
        { breaker with
          consecutiveSuccessCount := 0, stragglersForgiven := breaker.stragglersForgiven + 1 }
      else
        { breaker with
          phase := .opened, openedAt := some now, consecutiveSuccessCount := 0, healthy := false }
    else if config.consecutiveSuccesses ≤ breaker.consecutiveSuccessCount + 1 then
      { breaker with
        phase := .closed
        openedAt := none
        records := []
        errorCount := 0
        consecutiveSuccessCount := breaker.consecutiveSuccessCount + 1
        healthy := true
        rejectionCount := 0 }
    else
      { breaker with consecutiveSuccessCount := breaker.consecutiveSuccessCount + 1 }
  | .opened => breaker

/-! ## Histories -/

inductive Event where
  | result (now : Nat) (isError : Bool) (errorKind : Option String) (currentInflight : Nat)
  | check (now : Nat) (contended : Bool)
  deriving DecidableEq, Repr

namespace Event

def now : Event → Nat
  | result now .. => now
  | check now _ => now

def record? : Event → Option RequestRecord
  | result now isError .. => some ⟨now, isError⟩
  | check .. => none

end Event

def handle (config : ClientCircuitBreakerConfig) (breaker : ClientCircuitBreaker) :
    Event → ClientCircuitBreaker
  | .result now isError errorKind currentInflight =>
    breaker.onResult config now isError errorKind currentInflight
  | .check now contended => (breaker.isHealthy config now contended).2

def replay (config : ClientCircuitBreakerConfig) (history : List Event) : ClientCircuitBreaker :=
  history.foldl (handle config) new

theorem replay_concat (config : ClientCircuitBreakerConfig) (history : List Event) (event : Event) :
    replay config (history ++ [event]) = (replay config history).handle config event := by
  simp [replay]

def Ordered (history : List Event) : Prop :=
  history.Pairwise fun first second => first.now ≤ second.now

instance (history : List Event) : Decidable (Ordered history) :=
  inferInstanceAs (Decidable (history.Pairwise _))

def results (history : List Event) : List RequestRecord :=
  history.filterMap Event.record?

theorem results_concat_result (history : List Event) (now : Nat) (isError : Bool)
    (errorKind : Option String) (currentInflight : Nat) :
    results (history ++ [.result now isError errorKind currentInflight]) =
      results history ++ [⟨now, isError⟩] := by
  simp [results, Event.record?]

theorem Ordered.results {history : List Event} (hordered : Ordered history) :
    (results history).Pairwise fun first second => first.timestamp ≤ second.timestamp := by
  refine List.Pairwise.filterMap Event.record? ?_ hordered
  intro first second hle record hrecord record' hrecord'
  cases first with
  | check => exact nomatch hrecord
  | result =>
    cases second with
    | check => exact nomatch hrecord'
    | result =>
      cases hrecord
      cases hrecord'
      exact hle

/-! ## Transitions -/

/-- Every way in which an event can change the phase, the window, the streak and the flag. -/
inductive Transition (config : ClientCircuitBreakerConfig) (breaker : ClientCircuitBreaker) :
    Event → ClientCircuitBreaker → Prop where
  | admitted (now : Nat) (contended : Bool) (hhealthy : breaker.healthy = true) :
      Transition config breaker (.check now contended) breaker
  | refused (now : Nat) (contended : Bool) (rejectionCount : Nat)
      (hhealthy : breaker.healthy = false) (hphase : contended = false → breaker.phase = .opened) :
      Transition config breaker (.check now contended)
        { breaker with rejectionCount := rejectionCount }
  | raced (now : Nat) (hhealthy : breaker.healthy = false) (hphase : breaker.phase ≠ .opened) :
      Transition config breaker (.check now false) breaker
  | probed (now : Nat) (hhealthy : breaker.healthy = false) (hphase : breaker.phase = .opened)
      (hwaited : config.openTimeout ≤ now - breaker.openedAt.getD now) :
      Transition config breaker (.check now false)
        { breaker with
          phase := .halfOpen, consecutiveSuccessCount := 0, stragglersForgiven := 0,
          healthy := true }
  | ignored (now : Nat) (isError : Bool) (errorKind : Option String) (currentInflight : Nat)
      (hphase : breaker.phase = .opened) :
      Transition config breaker (.result now isError errorKind currentInflight) breaker
  | recorded (now : Nat) (isError : Bool) (errorKind : Option String) (currentInflight : Nat)
      (hphase : breaker.phase = .closed) :
      Transition config breaker (.result now isError errorKind currentInflight)
        (breaker.recordResult config now isError errorKind)
  | tripped (now : Nat) (isError : Bool) (errorKind : Option String) (currentInflight : Nat)
      (hphase : breaker.phase = .closed)
      (herrors :
        config.minErrors ≤ (breaker.recordResult config now isError errorKind).errorCount) :
      Transition config breaker (.result now isError errorKind currentInflight)
        ((breaker.recordResult config now isError errorKind).trip now currentInflight)
  | forgiven (now : Nat) (errorKind : Option String) (currentInflight : Nat)
      (hphase : breaker.phase = .halfOpen) :
      Transition config breaker (.result now true errorKind currentInflight)
        { breaker with
          consecutiveSuccessCount := 0, stragglersForgiven := breaker.stragglersForgiven + 1 }
  | reopened (now : Nat) (errorKind : Option String) (currentInflight : Nat)
      (hphase : breaker.phase = .halfOpen) :
      Transition config breaker (.result now true errorKind currentInflight)
        { breaker with
          phase := .opened, openedAt := some now, consecutiveSuccessCount := 0, healthy := false }
  | counted (now : Nat) (errorKind : Option String) (currentInflight : Nat)
      (hphase : breaker.phase = .halfOpen)
      (hshort : breaker.consecutiveSuccessCount + 1 < config.consecutiveSuccesses) :
      Transition config breaker (.result now false errorKind currentInflight)
        { breaker with consecutiveSuccessCount := breaker.consecutiveSuccessCount + 1 }
  | recovered (now : Nat) (errorKind : Option String) (currentInflight : Nat)
      (hphase : breaker.phase = .halfOpen)
      (henough : config.consecutiveSuccesses ≤ breaker.consecutiveSuccessCount + 1) :
      Transition config breaker (.result now false errorKind currentInflight)
        { breaker with
          phase := .closed
          openedAt := none
          records := []
          errorCount := 0
          consecutiveSuccessCount := breaker.consecutiveSuccessCount + 1
          healthy := true
          rejectionCount := 0 }

theorem handle_transition (config : ClientCircuitBreakerConfig) (breaker : ClientCircuitBreaker)
    (event : Event) : Transition config breaker event (breaker.handle config event) := by
  cases event with
  | check now contended =>
    simp only [handle, isHealthy]
    split
    · exact .admitted now contended ‹_›
    have hhealthy : breaker.healthy = false := by simpa using ‹¬ breaker.healthy = true›
    simp only [tryAllowProbe]
    split
    · exact .refused now contended breaker.rejectionCount hhealthy (by simp_all)
    obtain rfl : contended = false := by simpa using ‹¬ contended = true›
    split
    · exact .raced now hhealthy ‹_›
    have hphase : breaker.phase = .opened := by simpa using ‹¬ breaker.phase ≠ .opened›
    split
    · exact .probed now hhealthy hphase ‹_›
    · exact .refused now false _ hhealthy fun _ => hphase
  | result now isError errorKind currentInflight =>
    simp only [handle, onResult]
    split
    · split
      · rename_i htrip
        exact .tripped now isError errorKind currentInflight ‹_› htrip.1
      · exact .recorded now isError errorKind currentInflight ‹_›
    · cases isError with
      | true =>
        simp only [↓reduceIte]
        split
        · exact .forgiven now errorKind currentInflight ‹_›
        · exact .reopened now errorKind currentInflight ‹_›
      | false =>
        simp only [Bool.false_eq_true, ↓reduceIte]
        split
        · exact .recovered now errorKind currentInflight ‹_› ‹_›
        · exact .counted now errorKind currentInflight ‹_› (by omega)
    · exact .ignored now isError errorKind currentInflight ‹_›

end ClientCircuitBreaker

end ValkeyGlide.Client
