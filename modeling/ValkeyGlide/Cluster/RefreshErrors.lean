import ValkeyGlide.Cluster.Flush
import ValkeyGlide.Foundation.Log

/-!
# Errors of slot refreshes

The error of a failed slot refresh is stored until a flush finds a request to give it
to.  Nothing clears it when the reconnect to the initial nodes that follows has ended:
if no request was there to take it, the first one that is submitted afterwards gets it.
-/

namespace ValkeyGlide.Cluster

open Protocol Foundation

variable {Conn : Type} {event : RefreshEvent} {log : List RefreshEvent}

inductive RefreshEvent where
  | submitted (sender : Nat)
  | delivered (sender : Nat) (result : RedisResult Response)
  | failed (error : RedisError)
  | reconnected

def RefreshEvent.isReport : RefreshEvent → Bool
  | .delivered _ _ | .failed _ => true
  | .submitted _ | .reconnected => false

/--
Each stored error is delivered at most once, and not to a request that was submitted
after the reconnect to the initial nodes had ended.
-/
def OnlyItsRecovery (log : List RefreshEvent) : Prop :=
  ∀ before after sender result, log = before ++ .delivered sender result :: after →
    ∃ error earlier later, result = .error error ∧ before = earlier ++ .failed error :: later ∧
      (∀ event ∈ later, event.isReport = false) ∧
      ¬ ∃ first second third, later = first ++ .reconnected :: (second ++ .submitted sender :: third)

theorem OnlyItsRecovery.nil : OnlyItsRecovery [] := by
  intro before after sender result hlog
  simp at hlog

/-- The error was stored by the last failure, whose recovery has not ended. -/
def Unreported (log : List RefreshEvent) (error : RedisError) : Prop :=
  ∃ earlier later, log = earlier ++ .failed error :: later ∧
    ∀ event ∈ later, event.isReport = false ∧ event ≠ .reconnected

theorem Unreported.snoc {error : RedisError} (hlog : Unreported log error)
    (hevent : event.isReport = false ∧ event ≠ .reconnected) :
    Unreported (log ++ [event]) error := by
  obtain ⟨earlier, later, rfl, hlater⟩ := hlog
  refine ⟨earlier, later ++ [event], by simp, fun other hother => ?_⟩
  rcases List.mem_append.mp hother with hother | hother
  · exact hlater other hother
  · exact List.mem_singleton.mp hother ▸ hevent

theorem OnlyItsRecovery.snoc (hlog : OnlyItsRecovery log)
    (hevent : ∀ sender result, event = .delivered sender result →
      ∃ error, result = .error error ∧ Unreported log error) :
    OnlyItsRecovery (log ++ [event]) := by
  intro before after sender result hsplit
  rcases List.eq_nil_or_concat after with rfl | ⟨kept, last, rfl⟩
  · obtain ⟨rfl, hlast⟩ := List.append_inj' hsplit rfl
    obtain ⟨error, hresult, earlier, later, hbefore, hlater⟩ :=
      hevent sender result (List.singleton_inj.mp hlast)
    refine ⟨error, earlier, later, hresult, hbefore, fun event hmem => (hlater event hmem).1, ?_⟩
    rintro ⟨first, second, third, rfl⟩
    exact (hlater .reconnected (by simp)).2 rfl
  · rw [List.concat_eq_append, ← List.cons_append, ← List.append_assoc] at hsplit
    obtain ⟨rfl, -⟩ := List.append_inj' hsplit rfl
    exact hlog before kept sender result rfl

namespace ClusterConn

variable {conn next : ClusterConn Conn}

def recoveryEvents (conn : ClusterConn Conn) (poll : RecoverPoll) : List RefreshEvent :=
  match conn.state, conn.recoveryResult poll with
  | .recover .refreshingSlots, some (some (.error error)) => [.failed error]
  | .recover .reconnectToInitialNodes, some (some (.ok ())) => [.reconnected]
  | _, _ => []

/-- The answers that `sendRefreshError` adds to those given before. -/
def refreshAnswers (conn : ClusterConn Conn) (position : Nat) : List Answer :=
  (conn.sendRefreshError position).elim [] fun sent => sent.answers.drop conn.answers.length

/-- A flush delivers before it looks at the recovery. -/
def refreshEvents (conn : ClusterConn Conn) : Action Conn → List RefreshEvent
  | .submit sender _ => [.submitted sender]
  | .beginFlush position poll =>
    (conn.refreshAnswers position).map (fun answer => .delivered answer.1 answer.2) ++
      conn.recoveryEvents poll
  | .giveUp _ | .poll _ _ _ | .endFlush => []

theorem recoveryResult_congr (hstate : next.state = conn.state) (poll : RecoverPoll) :
    next.recoveryResult poll = conn.recoveryResult poll := by
  unfold recoveryResult pollRecover
  rw [hstate]
  split <;> try rfl
  split_ifs <;> rfl

/-- When the reconnect to the initial nodes ends, some request is there to take a stored error. -/
def ErrorTaken (conn : ClusterConn Conn) : Action Conn → Prop
  | .beginFlush _ poll =>
    conn.state = .recover .reconnectToInitialNodes → poll ≠ .pending →
      conn.refreshError.isSome →
        (∃ request ∈ conn.inFlightRequests, request.request.isSome) ∨ conn.pendingRequests ≠ []
  | _ => True

structure ErrorTracked (log : List RefreshEvent) (conn : ClusterConn Conn) : Prop where
  only : OnlyItsRecovery log
  stored : ∀ error, conn.refreshError = some error →
    conn.state = .recover .reconnectToInitialNodes ∧ Unreported log error
  polling : conn.completing.isSome → conn.state = .pollComplete

theorem new_errorTracked : ErrorTracked [] (new : ClusterConn Conn) :=
  ⟨.nil, by simp [new], by simp [new]⟩

variable {params : ClusterParams} {log : List RefreshEvent} {given : List Answer} {position : Nat}
  {poll : RecoverPoll}

theorem ErrorTracked.refreshError_none (htracked : ErrorTracked log conn)
    (hcompleting : conn.completing.isSome) : conn.refreshError = none := by
  by_contra hsome
  obtain ⟨error, herror⟩ := Option.ne_none_iff_exists'.mp hsome
  have hstate := (htracked.stored error herror).1
  rw [htracked.polling hcompleting] at hstate
  contradiction

theorem refreshAnswers_eq {sent : ClusterConn Conn}
    (hsent : conn.sendRefreshError position = some sent)
    (hdelivered : Delivered conn position given sent) : conn.refreshAnswers position = given := by
  rw [refreshAnswers, hsent, Option.elim_some, hdelivered.answers_eq, List.drop_left]

theorem onlyItsRecovery_received {sender : Nat} {error : RedisError}
    (hlog : OnlyItsRecovery log) (hunreported : Unreported log error) :
    OnlyItsRecovery (log ++ (conn.received (sender, .error error)).map
      fun answer => .delivered answer.1 answer.2) := by
  rw [received]
  split
  · rwa [List.map_nil, List.append_nil]
  · refine hlog.snoc ?_
    rintro _ _ ⟨⟩
    exact ⟨error, rfl, hunreported⟩

theorem ErrorTracked.delivered (htracked : ErrorTracked log conn)
    (hdelivered : Delivered conn position given next) :
    ErrorTracked (log ++ given.map fun answer => .delivered answer.1 answer.2) next := by
  cases hdelivered with
  | none =>
    rw [List.map_nil, List.append_nil]
    exact htracked
  | inFlight herror | pending herror =>
    exact ⟨onlyItsRecovery_received htracked.only (htracked.stored _ herror).2, by simp,
      htracked.polling⟩

theorem Delivered.refreshError_none (hdelivered : Delivered conn position given next)
    (htaker : conn.refreshError.isSome →
      (∃ request ∈ conn.inFlightRequests, request.request.isSome) ∨ conn.pendingRequests ≠ []) :
    next.refreshError = Option.none := by
  cases hdelivered with
  | none hnone =>
    rcases hnone with hnone | ⟨hinFlight, hpending⟩
    · exact hnone
    · by_contra hsome
      rcases htaker (Option.isSome_iff_ne_none.mpr hsome) with ⟨request, hmem, hrequest⟩ | hne
      · rw [hinFlight request hmem] at hrequest
        contradiction
      · exact hne hpending
  | inFlight | pending => rfl

theorem ne_pending_of_recoveryResult {future : RecoverFuture}
    (hstate : conn.state = .recover future)
    (hresult : conn.recoveryResult poll = some (some (.ok ()))) : poll ≠ .pending := by
  rintro rfl
  simp [recoveryResult, pollRecover, hstate] at hresult

theorem ErrorTracked.flushed (htracked : ErrorTracked log conn) (hidle : conn.completing = none)
    (hflushed : Flushed params poll conn next)
    (hnone : conn.recoveryResult poll = some (some (.ok ())) → conn.refreshError = none) :
    ErrorTracked (log ++ conn.recoveryEvents poll) next := by
  cases hflushed with
  | held hresult =>
    have hevents : conn.recoveryEvents poll = [] := by
      simp [recoveryEvents, hresult]
    rw [hevents, List.append_nil]
    exact ⟨htracked.only, htracked.stored, htracked.polling⟩
  | failed hresult hstate =>
    simp only [recoveryEvents, hresult, hstate]
    refine ⟨htracked.only.snoc (by simp), fun error herror => ⟨rfl, log, [], ?_, by simp⟩, ?_⟩
    · cases herror
      rfl
    · simp [hidle]
  | started hresult =>
    have hcleared := hnone hresult
    refine ⟨?_, by simp [hcleared], fun _ => rfl⟩
    unfold recoveryEvents
    split
    · exact htracked.only.snoc (by simp)
    · exact htracked.only.snoc (by simp)
    · rw [List.append_nil]
      exact htracked.only

theorem ErrorTracked.step {action : Action Conn} (htracked : ErrorTracked log conn)
    (htaken : ErrorTaken conn action) (hstep : Stepped params conn action next) :
    ErrorTracked (log ++ refreshEvents conn action) next := by
  cases hstep with
  | submit hnew =>
    refine ⟨htracked.only.snoc (by simp), fun error herror => ?_, htracked.polling⟩
    obtain ⟨hstate, hlast⟩ := htracked.stored error herror
    exact ⟨hstate, hlast.snoc ⟨rfl, by simp⟩⟩
  | giveUp =>
    rw [refreshEvents, List.append_nil]
    exact ⟨htracked.only, htracked.stored, htracked.polling⟩
  | @beginFlush position poll given sent next hidle hsentTo hdelivered hflushed =>
    obtain ⟨hstate, -, hcompleting, -, -⟩ := hdelivered.frame
    have hsent := htracked.delivered hdelivered
    have hevents : sent.recoveryEvents poll = conn.recoveryEvents poll := by
      rw [recoveryEvents, recoveryEvents, hstate, recoveryResult_congr hstate]
    rw [refreshEvents, refreshAnswers_eq hsentTo hdelivered, ← hevents, ← List.append_assoc]
    refine hsent.flushed (hcompleting.trans hidle) hflushed fun hresult => ?_
    by_contra hsome
    obtain ⟨error, herror⟩ := Option.ne_none_iff_exists'.mp hsome
    have hreconnecting := (hsent.stored error herror).1
    have hended := ne_pending_of_recoveryResult hreconnecting hresult
    exact hsome (hdelivered.refreshError_none (htaken (hstate ▸ hreconnecting) hended))
  | poll hcompleting _ _ hadvanced =>
    rw [refreshEvents, List.append_nil]
    have hpolling := htracked.polling hcompleting
    cases hadvanced with
    | pending => exact ⟨htracked.only, htracked.stored, htracked.polling⟩
    | ready => exact ⟨htracked.only, htracked.stored, fun _ => hpolling⟩
  | endFlush hcompleting =>
    rw [refreshEvents, List.append_nil]
    refine ⟨htracked.only, fun error herror => ?_, by simp⟩
    rw [htracked.refreshError_none hcompleting] at herror
    contradiction

theorem refreshErrors_only_their_recovery (params : ClusterParams) {actions : List (Action Conn)}
    {final : ClusterConn Conn} (htaken : Along (step params) ErrorTaken new actions)
    (hrun : run (step params) new actions = some final) :
    OnlyItsRecovery (logged (step params) refreshEvents new actions) :=
  (logged_invariant ErrorTracked
    (fun _ _ _ _ htracked htaken hstep => htracked.step htaken (step_stepped hstep))
    new_errorTracked htaken hrun).only

section Refresh

private def refreshParams : ClusterParams := ⟨0, none⟩

private def noConnections : RedisError := .withDescription .allConnectionsUnavailable ""

private def failedRefresh : List (Action Unit) :=
  [.submit 0 ⟨.cmd (.singleNode .random)⟩, .beginFlush 0 .pending,
    .poll .plain 0
      (.attempted (.error (.notFound, .withDescription .connectionNotFoundForRoute ""))),
    .endFlush, .beginFlush 0 (.refreshed (.error noConnections))]

private def takenActions : List (Action Unit) :=
  failedRefresh ++ [.submit 1 ⟨.cmd (.singleNode .random)⟩, .beginFlush 0 .ended, .endFlush]

private def idleActions : List (Action Unit) :=
  failedRefresh ++
    [.beginFlush 0 .ended, .endFlush, .submit 1 ⟨.cmd (.singleNode .random)⟩, .beginFlush 0 .pending]

theorem error_taken_during_reconnect :
    logged (step refreshParams) refreshEvents new takenActions =
        [.submitted 0, .failed noConnections, .submitted 1, .delivered 1 (.error noConnections),
          .reconnected] ∧
      OnlyItsRecovery (logged (step refreshParams) refreshEvents new takenActions) := by
  refine ⟨rfl, ?_⟩
  obtain ⟨final, hrun⟩ : ∃ final, run (step refreshParams) new takenActions = some final :=
    ⟨_, rfl⟩
  refine refreshErrors_only_their_recovery refreshParams ?_ hrun
  refine ⟨trivial, ?_, trivial, trivial, ?_, trivial, fun _ _ _ => .inr ?_, trivial, trivial⟩
  · exact fun hstate => nomatch hstate
  · exact fun hstate => nomatch hstate
  · exact List.cons_ne_nil _ _

theorem error_outlives_reconnect :
    ∃ final, run (step refreshParams) new idleActions = some final ∧
      ¬ OnlyItsRecovery (logged (step refreshParams) refreshEvents new idleActions) := by
  refine ⟨_, rfl, fun honly => ?_⟩
  obtain ⟨error, earlier, later, hresult, hbefore, -, hnot⟩ := honly
    [.submitted 0, .failed noConnections, .reconnected, .submitted 1] [] 1
    (.error noConnections) rfl
  cases hresult
  rcases earlier with _ | ⟨head, _ | ⟨second, rest⟩⟩
  · simp at hbefore
  · simp only [List.cons_append, List.nil_append, List.cons.injEq] at hbefore
    exact hnot ⟨[], [], [], hbefore.2.2.symm⟩
  · simp only [List.cons_append, List.cons.injEq] at hbefore
    have hmem : RefreshEvent.failed noConnections ∈ [RefreshEvent.reconnected, .submitted 1] := by
      rw [hbefore.2.2]
      simp
    simp at hmem

end Refresh

end ClusterConn

end ValkeyGlide.Cluster
