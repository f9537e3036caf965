import ValkeyGlide.Client.CircuitBreaker

/-!
# The protocol of the circuit breaker

The results are about histories: every list of reported results and health
checks at non-decreasing times.  `Explained` is the invariant that ties the
fields of the breaker to its history; from it follow `Consistent`, what the
fields mean after every history, and `Permitted`, what the next event may change.
-/

namespace ValkeyGlide.Client

open Foundation.History

namespace ClientCircuitBreaker

/-! ## What the fields mean -/

def newest (records : List RequestRecord) : Nat :=
  (records.getLast?.map RequestRecord.timestamp).getD 0

/-- The part of the records that counts when the last of them is made. -/
def window (config : ClientCircuitBreakerConfig) (records : List RequestRecord) :
    List RequestRecord :=
  recent RequestRecord.timestamp config.windowSize maxWindowRecords (newest records) records

def During (config : ClientCircuitBreakerConfig) (phase : CircuitState) (history : List Event) :
    Prop :=
  (replay config history).phase = phase

def OpensAt (config : ClientCircuitBreakerConfig) (history : List Event) (time : Nat) : Prop :=
  ∃ before opening, history = before ++ [opening] ∧ ¬ During config .opened before ∧
    opening.now = time

def Succeeded (history : List Event) (count : Nat) : Prop :=
  (∀ record ∈ results history, record.isError = false) ∧ (results history).length = count

structure Explained (config : ClientCircuitBreakerConfig) (history : List Event)
    (breaker : ClientCircuitBreaker) : Prop where
  healthy : breaker.healthy = true ↔ breaker.phase ≠ .opened
  counted : breaker.errorCount = breaker.records.countP RequestRecord.isError
  emptied : breaker.phase ≠ .closed → breaker.records = []
  shows : breaker.phase = .closed → Since history (During config .closed)
    fun _ later => breaker.records = window config (results later)
  opening : breaker.phase = .opened → Since history (During config .opened)
    fun earlier _ => ∃ time, breaker.openedAt = some time ∧ OpensAt config earlier time
  streak : breaker.phase = .halfOpen → Since history (During config .halfOpen)
    fun _ later => Succeeded later breaker.consecutiveSuccessCount
  short : breaker.phase = .halfOpen → breaker.consecutiveSuccessCount < config.consecutiveSuccesses

section Invariant

variable {config : ClientCircuitBreakerConfig} {history : List Event}
  {breaker : ClientCircuitBreaker} {event : Event} {isError : Bool} {now : Nat}

theorem Succeeded.concat {count : Nat} (hsucceeded : Succeeded history count) (now : Nat)
    (errorKind : Option String) (currentInflight : Nat) :
    Succeeded (history ++ [.result now false errorKind currentInflight]) (count + 1) := by
  obtain ⟨hnone, hlength⟩ := hsucceeded
  rw [Succeeded, results_concat_result, List.length_append, hlength]
  refine ⟨?_, rfl⟩
  intro record hrecord
  rcases List.mem_append.mp hrecord with hold | hnew
  · exact hnone record hold
  · rw [List.mem_singleton.mp hnew]

theorem recordResult_records {records : List RequestRecord}
    (hsorted : (records ++ [RequestRecord.mk now isError]).Pairwise
      fun first second => first.timestamp ≤ second.timestamp)
    (hrecords : breaker.records = window config records) (errorKind : Option String) :
    (breaker.recordResult config now isError errorKind).records =
      window config (records ++ [RequestRecord.mk now isError]) := by
  have hlater : newest records ≤ now := by
    cases hlast : records.getLast? with
    | none => simp [newest, hlast]
    | some last =>
      have := (List.pairwise_append.mp hsorted).2.2 last (List.mem_of_getLast? hlast) _
        (List.mem_singleton_self _)
      simpa [newest, hlast] using this
  have hnewest : newest (records ++ [RequestRecord.mk now isError]) = now := by simp [newest]
  rw [window, hnewest, recordResult]
  dsimp only
  rw [hrecords, window]
  exact recent_push config.windowSize maxWindowRecords hsorted hlater rfl _ _

theorem recordResult_errorCount (hcounted :
    breaker.errorCount = breaker.records.countP RequestRecord.isError) (now : Nat)
    (isError : Bool) (errorKind : Option String) :
    (breaker.recordResult config now isError errorKind).errorCount =
      (breaker.recordResult config now isError errorKind).records.countP
        RequestRecord.isError := by
  have hpushed : (if isError then breaker.errorCount + 1 else breaker.errorCount) =
      (breaker.records ++ [RequestRecord.mk now isError]).countP RequestRecord.isError := by
    cases isError <;> simp [hcounted]
  simp only [recordResult]
  rw [hpushed, evict_count, evict_count]

theorem Explained.new (config : ClientCircuitBreakerConfig) : Explained config [] new where
  healthy := by simp [ClientCircuitBreaker.new]
  counted := rfl
  emptied := fun _ => rfl
  shows := fun _ => Since.now rfl (by simp [ClientCircuitBreaker.new, window, recent, results])
  opening := fun hphase => nomatch hphase
  streak := fun hphase => nomatch hphase
  short := fun hphase => nomatch hphase

theorem Explained.quiet (hphase : (replay config (history ++ [event])).phase = breaker.phase)
    (hevent : breaker.phase ≠ .opened → event.record? = none)
    (hexplained : Explained config history breaker) :
    Explained config (history ++ [event]) breaker where
  healthy := hexplained.healthy
  counted := hexplained.counted
  emptied := hexplained.emptied
  shows := by
    intro hclosed
    refine (hexplained.shows hclosed).next (hphase.trans hclosed) ?_
    intro _ later _ hrecords
    have hnone : event.record? = none := hevent (by simp [hclosed])
    simpa [results, hnone] using hrecords
  opening := fun hopened =>
    (hexplained.opening hopened).next (hphase.trans hopened) fun _ _ _ hopens => hopens
  streak := by
    intro hprobing
    refine (hexplained.streak hprobing).next (hphase.trans hprobing) ?_
    intro _ later _ hsucceeded
    have hnone : event.record? = none := hevent (by simp [hprobing])
    simpa [Succeeded, results, hnone] using hsucceeded
  short := hexplained.short

theorem Explained.recorded {errorKind : Option String} {currentInflight : Nat}
    (hordered : Ordered (history ++ [.result now isError errorKind currentInflight]))
    (hnext : replay config (history ++ [.result now isError errorKind currentInflight]) =
      breaker.recordResult config now isError errorKind) (hclosed : breaker.phase = .closed)
    (hexplained : Explained config history breaker) :
    Explained config (history ++ [.result now isError errorKind currentInflight])
      (breaker.recordResult config now isError errorKind) where
  healthy := hexplained.healthy
  counted := recordResult_errorCount hexplained.counted now isError errorKind
  emptied := fun hphase => absurd hclosed hphase
  shows := by
    intro _
    refine (hexplained.shows hclosed).next (by rw [During, hnext]; exact hclosed) ?_
    rintro earlier later rfl hrecords
    rw [List.append_assoc] at hordered
    have hsorted := Ordered.results (hordered.sublist (List.sublist_append_right earlier _))
    rw [results_concat_result] at hsorted ⊢
    exact recordResult_records hsorted hrecords errorKind
  opening := fun hphase => nomatch hclosed.symm.trans hphase
  streak := fun hphase => nomatch hclosed.symm.trans hphase
  short := fun hphase => nomatch hclosed.symm.trans hphase

variable {next : ClientCircuitBreaker}

theorem Explained.cleared (hhealthy : next.healthy = true ↔ next.phase ≠ .opened)
    (hrecords : next.records = []) (hcount : next.errorCount = 0)
    (hduring : During config next.phase history)
    (hopening : next.phase = .opened → ∃ time, next.openedAt = some time ∧
      OpensAt config history time)
    (hprobing : next.phase = .halfOpen → Since history (During config .halfOpen)
        (fun _ later => Succeeded later next.consecutiveSuccessCount) ∧
      next.consecutiveSuccessCount < config.consecutiveSuccesses) :
    Explained config history next where
  healthy := hhealthy
  counted := by simp [hrecords, hcount]
  emptied := fun _ => hrecords
  shows := fun hclosed => Since.now (hclosed ▸ hduring)
    (by simp [hrecords, window, recent, results])
  opening := fun hopened => Since.now (hopened ▸ hduring) (hopening hopened)
  streak := fun hphase => (hprobing hphase).1
  short := fun hphase => (hprobing hphase).2

theorem Explained.errorCount_eq_zero (hexplained : Explained config history breaker)
    (hphase : breaker.phase ≠ .closed) : breaker.errorCount = 0 := by
  rw [hexplained.counted, hexplained.emptied hphase, List.countP_nil]

theorem Explained.step (hnow : replay config history = breaker)
    (hnext : replay config (history ++ [event]) = next) (hordered : Ordered (history ++ [event]))
    (hexplained : Explained config history breaker)
    (htransition : Transition config breaker event next) :
    Explained config (history ++ [event]) next := by
  have hduring : During config next.phase (history ++ [event]) := by rw [During, hnext]
  cases htransition with
  | admitted | raced => exact hexplained.quiet hduring fun _ => rfl
  | refused _ _ rejectionCount =>
    have hkept : Explained config history { breaker with rejectionCount := rejectionCount } :=
      ⟨hexplained.healthy, hexplained.counted, hexplained.emptied, hexplained.shows,
        hexplained.opening, hexplained.streak, hexplained.short⟩
    exact hkept.quiet hduring fun _ => rfl
  | ignored _ _ _ _ hphase => exact hexplained.quiet hduring fun hother => absurd hphase hother
  | recorded _ _ _ _ hphase => exact hexplained.recorded hordered hnext hphase
  | tripped _ _ _ _ hphase =>
    exact .cleared (iff_of_false Bool.false_ne_true (· rfl)) rfl rfl hduring
      (fun _ => ⟨_, rfl, history, _, rfl, by simp [During, hnow, hphase], rfl⟩) (by simp [trip])
  | reopened _ _ _ hphase =>
    have hnot : breaker.phase ≠ .closed := by simp [hphase]
    exact .cleared (iff_of_false Bool.false_ne_true (· rfl)) (hexplained.emptied hnot)
      (hexplained.errorCount_eq_zero hnot) hduring
      (fun _ => ⟨_, rfl, history, _, rfl, by simp [During, hnow, hphase], rfl⟩) (by simp)
  | probed _ _ hphase =>
    have hnot : breaker.phase ≠ .closed := by simp [hphase]
    exact .cleared (by simp) (hexplained.emptied hnot)
      (hexplained.errorCount_eq_zero hnot) hduring (by simp) fun _ =>
        ⟨Since.now hduring (by simp [Succeeded, results]), config.consecutiveSuccesses_pos⟩
  | forgiven _ _ _ hphase =>
    have hnot : breaker.phase ≠ .closed := by simp [hphase]
    refine .cleared hexplained.healthy (hexplained.emptied hnot)
      (hexplained.errorCount_eq_zero hnot) hduring
      (by simp [hphase]) fun _ => ?_
    exact ⟨Since.now (hphase ▸ hduring) (by simp [Succeeded, results]),
      config.consecutiveSuccesses_pos⟩
  | counted now errorKind currentInflight hphase hshort =>
    have hnot : breaker.phase ≠ .closed := by simp [hphase]
    refine .cleared hexplained.healthy (hexplained.emptied hnot)
      (hexplained.errorCount_eq_zero hnot) hduring
      (by simp [hphase]) fun _ => ⟨?_, hshort⟩
    refine (hexplained.streak hphase).next (hphase ▸ hduring) ?_
    intro _ later _ hsucceeded
    exact hsucceeded.concat now errorKind currentInflight
  | recovered => exact .cleared (by simp) rfl rfl hduring (by simp) (by simp)

theorem replay_explained (hordered : Ordered history) :
    Explained config history (replay config history) := by
  induction history using List.reverseRecOn with
  | nil => exact Explained.new config
  | append_singleton history event ih =>
    have hbefore : Ordered history := hordered.sublist (List.sublist_append_left history [event])
    refine (ih hbefore).step rfl rfl hordered ?_
    rw [replay_concat]
    exact handle_transition config _ event

end Invariant

/-! ## The protocol -/

structure Consistent (config : ClientCircuitBreakerConfig) (history : List Event) : Prop where
  healthy : (replay config history).healthy = true ↔ ¬ During config .opened history
  counted : (replay config history).errorCount =
    (replay config history).records.countP RequestRecord.isError
  /-- Closed, the deque is the window of the results reported since the breaker closed. -/
  shows : During config .closed history → Since history (During config .closed)
    fun _ later => (replay config history).records = window config (results later)
  /-- The clock of the window is the last reported result: health checks do not read it. -/
  inside : ∀ record ∈ (replay config history).records,
    newest (replay config history).records - record.timestamp ≤ config.windowSize
  capped : (replay config history).records.length ≤ maxWindowRecords

structure Permitted (config : ClientCircuitBreakerConfig) (history : List Event)
    (event : Event) : Prop where
  reports : ∀ now contended, event = .check now contended →
    (((replay config history).isHealthy config now contended).1 = true ↔
      ¬ During config .opened (history ++ [event]))
  leavesOpen : During config .opened history → ¬ During config .opened (history ++ [event]) →
    During config .halfOpen (history ++ [event]) ∧ Since history (During config .opened)
      fun earlier _ => ∃ time, OpensAt config earlier time ∧ config.openTimeout ≤ event.now - time
  closes : During config .halfOpen history → During config .closed (history ++ [event]) →
    Since history (During config .halfOpen)
      fun _ later => Succeeded (later ++ [event]) config.consecutiveSuccesses
  opens : During config .closed history → During config .opened (history ++ [event]) →
    Since history (During config .closed) fun _ later =>
      config.minErrors ≤ (window config (results (later ++ [event]))).countP RequestRecord.isError

section Protocol

variable {config : ClientCircuitBreakerConfig} {history : List Event}
  {breaker : ClientCircuitBreaker}

theorem newest_window (records : List RequestRecord) :
    newest (window config records) = newest records := by
  induction records using List.reverseRecOn with
  | nil => simp [window, recent]
  | append_singleton records last _ =>
    have hlast : newest (records ++ [last]) = last.timestamp := by simp [newest]
    have hin : inWindow RequestRecord.timestamp config.windowSize last.timestamp last = true :=
      (inWindow_iff _ _).mpr (by omega)
    rw [window, recent, hlast, List.filter_append, List.filter_cons_of_pos hin,
      List.filter_nil, show maxWindowRecords = 9999 + 1 from rfl, List.rtake_concat_succ]
    simp [newest]

theorem replay_consistent (hordered : Ordered history) : Consistent config history := by
  have hexplained : Explained config history (replay config history) := replay_explained hordered
  have hrecords : ∃ records, (replay config history).records = window config records := by
    by_cases hclosed : During config .closed history
    · obtain ⟨_, later, _, _, hwindow⟩ := hexplained.shows hclosed
      exact ⟨_, hwindow⟩
    · exact ⟨[], (hexplained.emptied hclosed).trans (by simp [window, recent])⟩
  obtain ⟨records, hrecords⟩ := hrecords
  refine ⟨hexplained.healthy, hexplained.counted, hexplained.shows, ?_, ?_⟩
  · intro record hrecord
    rw [hrecords] at hrecord ⊢
    rw [newest_window]
    exact age_le_of_mem_recent _ _ hrecord
  · rw [hrecords]
    exact length_recent_le _ _ _ _

theorem isHealthy_reports (hhealthy : breaker.healthy = true ↔ breaker.phase ≠ .opened)
    (now : Nat) (contended : Bool) :
    (breaker.isHealthy config now contended).1 = true ↔
      (breaker.isHealthy config now contended).2.phase ≠ .opened := by
  rw [isHealthy]
  split
  · rename_i hset
    exact ⟨fun _ => hhealthy.mp hset, fun _ => rfl⟩
  · rename_i hset
    -- with the flag down the breaker is open, so the race is not lost here
    have hopened : breaker.phase = .opened := not_not.mp (mt hhealthy.mpr hset)
    rw [tryAllowProbe]
    split
    · simp [hopened]
    · rw [if_neg (not_not.mpr hopened)]
      split <;> simp [hopened]

section Changes

variable {event : Event} {next : ClientCircuitBreaker}

theorem Transition.leaves_opened (htransition : Transition config breaker event next)
    (hphase : breaker.phase = .opened) (hnext : next.phase ≠ .opened) :
    next.phase = .halfOpen ∧ config.openTimeout ≤ event.now - breaker.openedAt.getD event.now := by
  cases htransition with
  | probed _ _ _ hwaited => exact ⟨rfl, hwaited⟩
  | admitted | refused | raced | ignored => exact absurd hphase hnext
  | tripped | reopened => exact absurd rfl hnext
  | recorded _ _ _ _ hclosed => exact nomatch hphase.symm.trans hclosed
  | forgiven _ _ _ hprobing | counted _ _ _ hprobing | recovered _ _ _ hprobing =>
    exact nomatch hphase.symm.trans hprobing

theorem Transition.closes (htransition : Transition config breaker event next)
    (hphase : breaker.phase = .halfOpen) (hnext : next.phase = .closed) :
    ∃ now errorKind currentInflight, event = .result now false errorKind currentInflight ∧
      config.consecutiveSuccesses ≤ breaker.consecutiveSuccessCount + 1 := by
  cases htransition with
  | recovered now errorKind currentInflight _ henough =>
    exact ⟨now, errorKind, currentInflight, rfl, henough⟩
  | admitted | refused | raced | ignored | forgiven | counted =>
    exact nomatch hphase.symm.trans hnext
  | probed | tripped | reopened => exact nomatch hnext
  | recorded _ _ _ _ hclosed => exact nomatch hphase.symm.trans hclosed

theorem Transition.opens (htransition : Transition config breaker event next)
    (hphase : breaker.phase = .closed) (hnext : next.phase = .opened) :
    ∃ now isError errorKind currentInflight,
      event = .result now isError errorKind currentInflight ∧
        config.minErrors ≤ (breaker.recordResult config now isError errorKind).errorCount := by
  cases htransition with
  | tripped now isError errorKind currentInflight _ herrors =>
    exact ⟨now, isError, errorKind, currentInflight, rfl, herrors⟩
  | admitted | refused | raced | ignored | recorded => exact nomatch hphase.symm.trans hnext
  | probed | recovered => exact nomatch hnext
  | reopened _ _ _ hprobing | forgiven _ _ _ hprobing | counted _ _ _ hprobing =>
    exact nomatch hphase.symm.trans hprobing

end Changes

theorem replay_permits {event : Event} (hordered : Ordered (history ++ [event])) :
    Permitted config history event := by
  have hexplained : Explained config history (replay config history) :=
    replay_explained (hordered.sublist (List.sublist_append_left history [event]))
  have htransition := handle_transition config (replay config history) event
  rw [← replay_concat] at htransition
  refine ⟨?_, ?_, ?_, ?_⟩
  · rintro now contended rfl
    rw [During, replay_concat]
    exact isHealthy_reports hexplained.healthy now contended
  · intro hopened hleft
    obtain ⟨hprobing, hwaited⟩ := htransition.leaves_opened hopened hleft
    refine ⟨hprobing, (hexplained.opening hopened).mono ?_⟩
    rintro earlier later ⟨time, htime, hopens⟩
    rw [htime] at hwaited
    exact ⟨time, hopens, hwaited⟩
  · intro hprobing hclosed
    obtain ⟨now, errorKind, currentInflight, rfl, henough⟩ :=
      htransition.closes hprobing hclosed
    have hexact : (replay config history).consecutiveSuccessCount + 1 =
        config.consecutiveSuccesses := by
      have := hexplained.short hprobing
      omega
    refine (hexplained.streak hprobing).mono ?_
    intro earlier later hsucceeded
    rw [← hexact]
    exact hsucceeded.concat now errorKind currentInflight
  · intro hclosed hopened
    obtain ⟨now, isError, errorKind, currentInflight, rfl, herrors⟩ :=
      htransition.opens hclosed hopened
    obtain ⟨earlier, later, rfl, hclosed, hrecords⟩ := hexplained.shows hclosed
    refine ⟨earlier, later, rfl, hclosed, ?_⟩
    rw [List.append_assoc] at hordered
    have hsorted := Ordered.results (hordered.sublist (List.sublist_append_right earlier _))
    rw [results_concat_result] at hsorted ⊢
    rwa [recordResult_errorCount hexplained.counted,
      recordResult_records hsorted hrecords errorKind] at herrors

theorem breaker_protocol (config : ClientCircuitBreakerConfig) (history : List Event)
    (hordered : Ordered history) :
    Consistent config history ∧
      ∀ event, Ordered (history ++ [event]) → Permitted config history event :=
  ⟨replay_consistent hordered, fun _ hnext => replay_permits hnext⟩

end Protocol

def promptConfig : ClientCircuitBreakerConfig where
  windowSize := 10
  rateReached := fun errors total => decide (total ≤ 2 * errors)
  minErrors := 2
  openTimeout := 5
  consecutiveSuccesses := 2
  minErrors_pos := by decide
  consecutiveSuccesses_pos := by decide

def outage : List Event :=
  [.result 1 true (some "Io") 3, .result 2 true none 3, .check 4 false, .check 7 false,
    .result 8 true none 1, .result 9 false none 1]

theorem outage_followed_by_recovery :
    During promptConfig .halfOpen outage ∧
      During promptConfig .closed (outage ++ [.result 9 false none 0]) ∧
      Consistent promptConfig outage ∧
      Permitted promptConfig outage (.result 9 false none 0) := by
  have hprotocol := breaker_protocol promptConfig outage (by decide)
  exact ⟨rfl, rfl, hprotocol.1, hprotocol.2 _ (by decide)⟩

/-! ## Recovery -/

section Recovery

variable {config : ClientCircuitBreakerConfig} {breaker : ClientCircuitBreaker} {missing : Nat}

/-- Closed with no error in the window, or at most `missing` successes away from that. -/
def Recovering (config : ClientCircuitBreakerConfig) (missing : Nat)
    (breaker : ClientCircuitBreaker) : Prop :=
  breaker.healthy = true ∧
    (breaker.phase = .closed ∧ breaker.errorCount = 0 ∨
      breaker.phase = .halfOpen ∧ breaker.consecutiveSuccessCount < config.consecutiveSuccesses ∧
        config.consecutiveSuccesses ≤ breaker.consecutiveSuccessCount + missing)

theorem Recovering.next {event : Event}
    (hrecovering : Recovering config (missing + (results [event]).length) breaker)
    (hevent : ∀ record ∈ results [event], record.isError = false) :
    Recovering config missing (breaker.handle config event) := by
  obtain ⟨hhealthy, hphase⟩ := hrecovering
  cases event with
  | check now contended =>
    simp only [handle, isHealthy, hhealthy, if_true]
    exact ⟨hhealthy, hphase⟩
  | result now isError errorKind currentInflight =>
    obtain rfl : isError = false := hevent _ (List.mem_singleton_self _)
    have hpos := config.minErrors_pos
    rcases hphase with ⟨hclosed, hcount⟩ | ⟨hprobing, hshort, henough⟩
    · have hnone : (breaker.recordResult config now false errorKind).errorCount = 0 := by
        simp [recordResult, hcount, evict_zero]
      simp only [handle, onResult, hclosed, hnone]
      rw [if_neg (by omega)]
      exact ⟨hhealthy, .inl ⟨hclosed, hnone⟩⟩
    · simp only [handle, onResult, hprobing, Bool.false_eq_true, if_false]
      change _ ≤ _ + (missing + 1) at henough
      split_ifs with hlast
      · exact ⟨rfl, .inl ⟨rfl, rfl⟩⟩
      · exact ⟨hhealthy, .inr ⟨rfl, Nat.lt_of_not_le hlast, by dsimp only; omega⟩⟩

variable {history : List Event} {now : Nat} (hordered : Ordered history)
  (hdown : ¬ During config .closed history)
  (hwaited : ∀ event ∈ history, event.now + config.openTimeout ≤ now)
include hordered hdown hwaited

theorem recovering_of_probe (hmissing : config.consecutiveSuccesses ≤ missing) :
    Recovering config missing (replay config (history ++ [.check now false])) := by
  have hexplained : Explained config history _ := replay_explained hordered
  rw [replay_concat, handle, isHealthy]
  split_ifs with hhealthy
  · have hprobing : (replay config history).phase = .halfOpen := by
      have := hexplained.healthy.mp hhealthy
      unfold During at hdown
      cases hphase : (replay config history).phase <;> simp_all
    exact ⟨hhealthy, .inr ⟨hprobing, hexplained.short hprobing, by omega⟩⟩
  · have hopened : (replay config history).phase = .opened :=
      not_not.mp (mt hexplained.healthy.mpr hhealthy)
    obtain ⟨earlier, later, hsplit, -, _, htime, before, opening, hopening, -, rfl⟩ :=
      hexplained.opening hopened
    have := hwaited opening (by simp [hsplit, hopening])
    simp only [tryAllowProbe, hopened, htime, Option.getD_some]
    rw [if_neg Bool.false_ne_true, if_neg (· rfl), if_pos (by omega)]
    exact ⟨rfl, .inr ⟨rfl, config.consecutiveSuccesses_pos, by dsimp only; omega⟩⟩

theorem replay_recovering {later : List Event}
    (hsucceeded : ∀ record ∈ results later, record.isError = false)
    (hmissing : config.consecutiveSuccesses ≤ missing + (results later).length) :
    Recovering config missing (replay config (history ++ .check now false :: later)) := by
  induction later using List.reverseRecOn generalizing missing with
  | nil => exact recovering_of_probe hordered hdown hwaited hmissing
  | append_singleton rest event ih =>
    have hsplit : results (rest ++ [event]) = results rest ++ results [event] := by simp [results]
    rw [hsplit, List.forall_mem_append] at hsucceeded
    rw [hsplit, List.length_append] at hmissing
    rw [← List.cons_append, ← List.append_assoc, replay_concat]
    exact (ih hsucceeded.1 (by omega)).next hsucceeded.2

end Recovery

/--
No outage is for ever.  Once the timeout has passed since the last event, a check that finds
the lock free admits commands again; while they succeed none is refused, and enough of them
close the breaker.
-/
theorem breaker_recovers (config : ClientCircuitBreakerConfig) (history later : List Event)
    (now : Nat) (hordered : Ordered history) (hdown : ¬ During config .closed history)
    (hwaited : ∀ event ∈ history, event.now + config.openTimeout ≤ now)
    (hsucceeded : ∀ record ∈ results later, record.isError = false) :
    (replay config (history ++ .check now false :: later)).healthy = true ∧
      (config.consecutiveSuccesses ≤ (results later).length →
        During config .closed (history ++ .check now false :: later)) := by
  refine ⟨?_, fun henough => ?_⟩
  · exact (replay_recovering hordered hdown hwaited hsucceeded (Nat.le_add_right _ _)).1
  · rw [← Nat.zero_add (results later).length] at henough
    rcases (replay_recovering hordered hdown hwaited hsucceeded henough).2 with
      ⟨hclosed, -⟩ | ⟨-, hshort, hdone⟩
    · exact hclosed
    · omega

theorem outage_of_two_errors_recovers :
    During promptConfig .closed ([.result 1 true none 3, .result 2 true none 3] ++
      .check 7 false :: [.result 8 false none 0, .check 8 true, .result 9 false none 0]) :=
  (breaker_recovers promptConfig _ _ 7 (by decide) (by unfold During; decide) (by decide)
    (by decide)).2 (by decide)

end ClientCircuitBreaker

end ValkeyGlide.Client
