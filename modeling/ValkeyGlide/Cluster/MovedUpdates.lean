import ValkeyGlide.Cluster.Flush
import ValkeyGlide.Foundation.Circulation
import ValkeyGlide.Foundation.Log

/-!
# Updates of the slot map after `MOVED`

A `MOVED` reply starts an update of the slot map, which is polled as a request in
flight.  The poll of a request ends at once when the request itself is gone, before
it looks at the update; so the update is only run for a request that is retried.
-/

namespace ValkeyGlide.Cluster

open Protocol Foundation

variable {Conn : Type}

inductive MovedEvent where
  | replied (redirect : RedirectNode)
  | updated (redirect : RedirectNode)
  | givenUp (redirect : RedirectNode)
  deriving DecidableEq, Repr

def PollContext.movedReply (context : PollContext) (address : String) (error : RedisError) :
    Option RedirectNode :=
  if error.kind = .moved then
    (context.movedRedirect error).filter fun redirect =>
      !context.isCircularMovedRedirect (some redirect) address
  else none

def RequestState.redirect? : RequestState → Option RedirectNode
  | .updateMoved redirect => some redirect
  | .future | .sleep => none

namespace Request

/-- What a poll of the request that is ready has to do with `MOVED`. -/
def movedEvents (context : PollContext) (isClosed : Nat → Bool) (request : Request Conn)
    (polled : Polled) : List MovedEvent :=
  match request with
  | ⟨none, _⟩ => []
  | ⟨some pending, state⟩ =>
    match isClosed pending.sender, state, polled with
    | true, .updateMoved redirect, _ => [.givenUp redirect]
    | false, .updateMoved redirect, .updatedMoved _ => [.updated redirect]
    | false, .future, .attempted (.error (.node address, error)) =>
      ((context.movedReply address error).map .replied).toList
    | _, _, _ => []

def updating? (request : Request Conn) : Option RedirectNode :=
  request.request.bind fun _ => request.state.redirect?

end Request

def PollResult.updating? : PollResult Conn → Option RedirectNode
  | .pending request => request.updating?
  | .ready action _ => action.pushed.bind Request.updating?

namespace Request

section Poll

variable {context : PollContext} {numberOfRetries : Nat} {pending : PendingRequest Conn}
  {result : PollResult Conn}

theorem pollFailed_updating {address : String} {error : RedisError} {redirect : RedirectNode}
    (hretries : pending.retry < numberOfRetries)
    (hreply : context.movedReply address error = some redirect)
    (hpoll : pollFailed context numberOfRetries pending (.node address) error = some result) :
    result.updating? = some redirect := by
  unfold PollContext.movedReply at hreply
  split_ifs at hreply with hkind
  obtain ⟨hredirect, hnode⟩ := Option.filter_eq_some_iff.mp hreply
  have hmethod : error.retryMethod = .movedRedirect := by simp [RedisError.retryMethod, hkind]
  simp only [pollFailed, Nat.not_le.mpr hretries, if_false, hkind, reduceCtorEq] at hpoll
  simp only [retryOnNode, hmethod, hredirect] at hpoll
  rw [if_neg (by simpa using hnode)] at hpoll
  unfold redirectAnd at hpoll
  split at hpoll
  · cases hpoll
    rfl
  · contradiction

theorem poll_updates {request : Request Conn} {isClosed : Nat → Bool} {polled : Polled}
    (hpoll : request.poll context numberOfRetries isClosed polled = some result)
    (hretries : ∀ pending address error, request = ⟨some pending, .future⟩ →
      isClosed pending.sender = false → polled = .attempted (.error (.node address, error)) →
      (context.movedReply address error).isSome → pending.retry < numberOfRetries)
    (redirect : RedirectNode) :
    (request.movedEvents context isClosed polled).count (.replied redirect) +
        request.updating?.toList.count redirect ≤
      (request.movedEvents context isClosed polled).count (.updated redirect) +
        (request.movedEvents context isClosed polled).count (.givenUp redirect) +
        result.updating?.toList.count redirect := by
  obtain ⟨held, state⟩ := request
  cases held with
  | none => exact Nat.zero_le _
  | some pending =>
    cases hclosed : isClosed pending.sender with
    | true =>
      cases state with
      | updateMoved other =>
        simp [movedEvents, hclosed, updating?, RequestState.redirect?, List.count_singleton]
      | future | sleep => simp [movedEvents, hclosed, updating?, RequestState.redirect?]
    | false =>
      simp only [poll, hclosed, Bool.false_eq_true, if_false] at hpoll
      split at hpoll
      · simp [movedEvents, hclosed, updating?, RequestState.redirect?]
      · simp [movedEvents, hclosed, updating?, RequestState.redirect?, List.count_singleton]
      · simp [movedEvents, hclosed, updating?, RequestState.redirect?]
      · rename_i target error
        cases target with
        | node address =>
          cases hreply : context.movedReply address error with
          | none => simp [movedEvents, hclosed, hreply, updating?, RequestState.redirect?]
          | some other =>
            have hleft := hretries pending address error rfl hclosed rfl (by simp [hreply])
            have hstarted := pollFailed_updating hleft hreply hpoll
            simp [movedEvents, hclosed, hreply, hstarted, updating?,
              RequestState.redirect?, List.count_singleton]
        | fanOut | notFound | fatalError =>
          simp [movedEvents, hclosed, updating?, RequestState.redirect?]
      · contradiction

end Poll

end Request

namespace ClusterConn

variable {conn next : ClusterConn Conn}

/-- The updates in flight, whether or not the requests they belong to are still there. -/
def updating (conn : ClusterConn Conn) : List RedirectNode :=
  conn.inFlightRequests.filterMap fun request => request.state.redirect?

def movedEvents (conn : ClusterConn Conn) : Action Conn → List MovedEvent
  | .poll context position polled =>
    conn.inFlightRequests[position]?.elim [] fun request =>
      request.movedEvents context conn.isClosed polled
  | .submit _ _ | .giveUp _ | .beginFlush _ _ | .endFlush => []

/-- Every update that a reply asked for was run, was given up by the caller, or is in flight. -/
def MovedFollowed (log : List MovedEvent) (conn : ClusterConn Conn) : Prop :=
  ∀ redirect, log.count (.replied redirect) ≤
    log.count (.updated redirect) + log.count (.givenUp redirect) + conn.updating.count redirect

/--
A reply that the slot has moved comes to a request with retries left, and the error
of a refresh is not given to a request that waits for an update.
-/
def MovedRegular (params : ClusterParams) (conn : ClusterConn Conn) : Action Conn → Prop
  | .poll context position polled =>
    ∀ pending address error, conn.inFlightRequests[position]? = some ⟨some pending, .future⟩ →
      conn.isClosed pending.sender = false → polled = .attempted (.error (.node address, error)) →
      (context.movedReply address error).isSome → pending.retry < params.numberOfRetries
  | .beginFlush position _ =>
    conn.refreshError.isSome → ∀ pending redirect,
      conn.inFlightRequests[position]? ≠ some ⟨some pending, .updateMoved redirect⟩
  | .submit _ _ | .giveUp _ | .endFlush => True

/-! ## Runs -/

def updatingRequests (conn : ClusterConn Conn) : List RedirectNode :=
  conn.inFlightRequests.filterMap Request.updating?

/-- As `MovedFollowed`, but an update counts only with its request. -/
def MovedTracked (log : List MovedEvent) (conn : ClusterConn Conn) : Prop :=
  ∀ redirect, log.count (.replied redirect) ≤
    log.count (.updated redirect) + log.count (.givenUp redirect) +
      conn.updatingRequests.count redirect

variable {params : ClusterParams} {log : List MovedEvent}

section

variable (htracked : MovedTracked log conn) {position : Nat}
include htracked

theorem MovedTracked.followed : MovedFollowed log conn := by
  intro redirect
  refine (htracked redirect).trans (Nat.add_le_add_left (List.Sublist.count_le _ ?_) _)
  unfold updatingRequests updating
  induction conn.inFlightRequests with
  | nil => exact .refl _
  | cons request rest ih =>
    obtain ⟨held, state⟩ := request
    rw [List.filterMap_cons, List.filterMap_cons]
    cases held with
    | none =>
      cases hstate : state.redirect? with
      | none => simpa [Request.updating?, hstate] using ih
      | some redirect => simpa [Request.updating?, hstate] using ih.cons redirect
    | some pending =>
      cases hstate : state.redirect? with
      | none => simpa [Request.updating?, hstate] using ih
      | some redirect => simpa [Request.updating?, hstate] using ih.cons_cons redirect

theorem MovedTracked.congr
    (hcount : ∀ redirect, conn.updatingRequests.count redirect =
      next.updatingRequests.count redirect) : MovedTracked log next := by
  intro redirect
  rw [← hcount]
  exact htracked redirect

theorem MovedTracked.delivered {given : List Answer}
    (hdelivered : Delivered conn position given next)
    (hregular : conn.refreshError.isSome → ∀ pending redirect,
      conn.inFlightRequests[position]? ≠ some ⟨some pending, .updateMoved redirect⟩) :
    MovedTracked log next := by
  cases hdelivered with
  | none => exact htracked
  | pending => exact htracked
  | @inFlight error request state herror hrequest =>
    refine htracked.congr fun redirect => ?_
    have hstate : state.redirect? = Option.none := by
      cases state with
      | updateMoved other => exact absurd hrequest (hregular (by simp [herror]) request other)
      | future | sleep => rfl
    unfold updatingRequests
    rw [count_filterMap_set hrequest, count_filterMap_eraseIdx hrequest]
    simp [Request.updating?, hstate]

theorem MovedTracked.flushed {poll : RecoverPoll}
    (hflushed : Flushed params poll conn next) : MovedTracked log next := by
  cases hflushed with
  | held => exact htracked
  | failed => exact htracked
  | started =>
    refine htracked.congr fun redirect => ?_
    have hnone : ∀ requests : List (PendingRequest Conn),
        (requests.map Request.dispatched).filterMap Request.updating? = [] := by
      intro requests
      rw [List.filterMap_map]
      exact List.filterMap_eq_nil_iff.mpr fun _ _ => rfl
    simp [updatingRequests, hnone]

theorem MovedTracked.advanced {request : Request Conn} {result : PollResult Conn}
    {events : List MovedEvent} (hrequest : conn.inFlightRequests[position]? = some request)
    (hadvanced : Advanced conn position result next) (hevents : ∀ redirect,
      events.count (.replied redirect) + request.updating?.toList.count redirect ≤
        events.count (.updated redirect) + events.count (.givenUp redirect) +
          result.updating?.toList.count redirect) : MovedTracked (log ++ events) next := by
  intro redirect
  have hbefore := htracked redirect
  have hevent := hevents redirect
  unfold updatingRequests at hbefore ⊢
  rw [count_filterMap_eraseIdx hrequest] at hbefore
  simp only [List.count_append]
  cases hadvanced with
  | pending =>
    rw [count_filterMap_set hrequest]
    simp only [PollResult.updating?] at hevent
    omega
  | @ready action =>
    have hpushed : action.pushed.toList.filterMap Request.updating? =
        (action.pushed.bind Request.updating?).toList := by
      cases action.pushed with
      | none => rfl
      | some request => cases hupdating : request.updating? <;> simp [hupdating]
    simp only [PollResult.updating?] at hevent
    simp only [List.filterMap_append, List.count_append, hpushed]
    omega

theorem MovedTracked.step {action : Action Conn}
    (hregular : MovedRegular params conn action) (hstep : Stepped params conn action next) :
    MovedTracked (log ++ movedEvents conn action) next := by
  cases hstep with
  | submit | giveUp | endFlush =>
    rw [movedEvents, List.append_nil]
    exact htracked
  | beginFlush _ _ hdelivered hflushed =>
    rw [movedEvents, List.append_nil]
    exact (htracked.delivered hdelivered hregular).flushed hflushed
  | poll _ hrequest hresult hadvanced =>
    rw [movedEvents, hrequest, Option.elim_some]
    refine htracked.advanced hrequest hadvanced (Request.poll_updates hresult ?_)
    rintro pending address error rfl
    exact hregular pending address error hrequest

end

theorem moved_replies_followed (params : ClusterParams) {actions : List (Action Conn)}
    {final : ClusterConn Conn} (hregular : Along (step params) (MovedRegular params) new actions)
    (hrun : run (step params) new actions = some final) :
    MovedFollowed (logged (step params) movedEvents new actions) final := by
  have hinit : MovedTracked [] (new : ClusterConn Conn) := fun _ => Nat.zero_le _
  exact (logged_invariant MovedTracked
    (fun _ _ _ _ htracked hregular hstep => htracked.step hregular (step_stepped hstep))
    hinit hregular hrun).followed

section Moved

private def movedContext : PollContext where
  texts := ⟨fun _ => ["7", "b"], fun _ => some 7⟩
  reverseLookupAddress _ := none
  addressResolver address := address

private def movedActions : List (Action Unit) :=
  [.submit 0 ⟨.cmd (.singleNode .random)⟩, .beginFlush 0 .pending,
    .poll movedContext 0
      (.attempted (.error (.node "a", .withDescriptionAndDetail .moved "" "7 b"))),
    .poll movedContext 0 (.updatedMoved (.ok ()))]

theorem retried_request_follows_moved :
    ∃ final, run (step ⟨1, none⟩) new movedActions = some final ∧
      logged (step ⟨1, none⟩) movedEvents new movedActions =
        [.replied ⟨"b", 7⟩, .updated ⟨"b", 7⟩] ∧
      MovedFollowed (logged (step ⟨1, none⟩) movedEvents new movedActions) final := by
  obtain ⟨final, hrun⟩ : ∃ final, run (step ⟨1, none⟩) new movedActions = some final := ⟨_, rfl⟩
  refine ⟨final, hrun, rfl, moved_replies_followed ⟨1, none⟩ ?_ hrun⟩
  refine ⟨trivial, ?_, ?_, ?_, trivial⟩
  · exact fun hsome => nomatch hsome
  · rintro pending address error ⟨⟩ - - -
    exact Nat.one_pos
  · intro pending address error hrequest
    exact nomatch hrequest

theorem exhausted_request_ignores_moved :
    ∃ final, run (step ⟨0, none⟩) new movedActions = some final ∧
      logged (step ⟨0, none⟩) movedEvents new movedActions = [.replied ⟨"b", 7⟩] ∧
      ¬ MovedFollowed (logged (step ⟨0, none⟩) movedEvents new movedActions) final := by
  refine ⟨_, rfl, rfl, fun hfollowed => ?_⟩
  exact absurd (hfollowed ⟨"b", 7⟩) (by decide)

end Moved

end ClusterConn

end ValkeyGlide.Cluster
