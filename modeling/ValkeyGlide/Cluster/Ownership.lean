import ValkeyGlide.Cluster.EventLoop
import ValkeyGlide.Foundation.Circulation

/-!
# Every cluster request is answered

A request is owned by the channel, the recovery queue or the requests in flight
until its caller gets a result or gives up.  One branch breaks this: a request
with retries left whose node failed in a way that asks for a reconnect without a
retry is dropped, and its caller is never answered.
-/

namespace ValkeyGlide.Cluster

open Protocol Foundation

variable {Conn : Type}

/-! ## Owners -/

namespace Request

def sender? (request : Request Conn) : Option Nat := request.request.map PendingRequest.sender

/-- The attempt ends in the branch that drops the request. -/
def abandons (numberOfRetries : Nat) (request : Request Conn) (polled : Polled) : Bool :=
  match request, polled with
  | ⟨some pending, .future⟩, .attempted (.error (.node _, error)) =>
    pending.retry < numberOfRetries && error.kind != .allConnectionsUnavailable &&
      error.retryMethod == .reconnect
  | _, _ => false

end Request

namespace ClusterConn

def held (conn : ClusterConn Conn) : List Nat :=
  conn.pendingRequests.map PendingRequest.sender ++
    (conn.recoveryQueue.map PendingRequest.sender ++
      conn.inFlightRequests.filterMap Request.sender?)

def answered (conn : ClusterConn Conn) : List Nat := conn.answers.map Prod.fst

def owners (conn : ClusterConn Conn) : List Nat := conn.held ++ conn.answered

/--
A submitted request whose caller has not given up is in exactly one place, or its
sender was given exactly one result.
-/
structure Owned (conn : ClusterConn Conn) : Prop where
  once : conn.owners.Nodup
  submitted : ∀ sender ∈ conn.owners, sender ∈ conn.submitted
  kept : ∀ sender ∈ conn.submitted, sender ∉ conn.closed → sender ∈ conn.owners

/-- No request whose caller waits is dropped. -/
def Kept (params : ClusterParams) (conn : ClusterConn Conn) : Action Conn → Prop
  | .poll _ position polled =>
    ∀ request ∈ conn.inFlightRequests[position]?, ∀ sender ∈ request.sender?,
      request.abandons params.numberOfRetries polled = true → sender ∈ conn.closed
  | _ => True

/-- An answer is the result of the request's own attempt, or the error of the recovery. -/
def EndedBy (conn : ClusterConn Conn) : Action Conn → Answer → Prop
  | .beginFlush _ _, answer =>
    answer.2 = .error connectionInRecovery ∨
      ∃ error, conn.refreshError = some error ∧ answer.2 = .error error
  | .poll _ position (.attempted result), answer =>
    ∃ request, conn.inFlightRequests[position]? = some request ∧
      request.sender? = some answer.1 ∧ answer.2 = result.mapError Prod.snd
  | _, _ => False

/-! ## Moving requests -/

/--
Requests were moved from `origin` on and allowed answers were given; some requests
are in hand, others had been given up.
-/
structure Balance (origin : ClusterConn Conn) (allowed : Answer → Prop) (hand : List Nat)
    (conn : ClusterConn Conn) : Prop where
  closed : conn.closed = origin.closed
  submitted : conn.submitted = origin.submitted
  kept : ∃ gone, origin.owners.Perm (conn.owners ++ hand ++ gone) ∧
    ∀ sender ∈ gone, sender ∈ origin.closed
  given : ∃ given, conn.answers = origin.answers ++ given ∧ ∀ answer ∈ given, allowed answer

section Balance

variable {origin conn next : ClusterConn Conn} {allowed : Answer → Prop} {hand : List Nat}

theorem balance_refl (conn : ClusterConn Conn) : Balance conn allowed [] conn :=
  ⟨rfl, rfl, ⟨[], by simp, by simp⟩, [], by simp, by simp⟩

theorem count_owners (conn : ClusterConn Conn) (sender : Nat) :
    conn.owners.count sender =
      (conn.pendingRequests.map PendingRequest.sender).count sender +
        (conn.recoveryQueue.map PendingRequest.sender).count sender +
        (conn.inFlightRequests.filterMap Request.sender?).count sender +
        conn.answered.count sender := by
  simp only [owners, held, List.count_append]
  omega

theorem Balance.move {rest : List Nat} (hbalance : Balance origin allowed hand conn)
    (hclosed : next.closed = conn.closed) (hsubmitted : next.submitted = conn.submitted)
    (hanswers : next.answers = conn.answers)
    (hcount : ∀ sender, conn.owners.count sender + hand.count sender =
      next.owners.count sender + rest.count sender) : Balance origin allowed rest next where
  closed := hclosed.trans hbalance.closed
  submitted := hsubmitted.trans hbalance.submitted
  kept := by
    obtain ⟨gone, howners, hgone⟩ := hbalance.kept
    have hperm : (conn.owners ++ hand).Perm (next.owners ++ rest) :=
      List.perm_iff_count.mpr fun sender => by
        rw [List.count_append, List.count_append]
        exact hcount sender
    exact ⟨gone, howners.trans (hperm.append_right gone), hgone⟩
  given := hanswers ▸ hbalance.given

variable {sender position : Nat} {request : Request Conn}

theorem Balance.drop (hbalance : Balance origin allowed (sender :: hand) conn)
    (hclosed : sender ∈ conn.closed) : Balance origin allowed hand conn where
  closed := hbalance.closed
  submitted := hbalance.submitted
  kept := by
    obtain ⟨gone, howners, hgone⟩ := hbalance.kept
    refine ⟨sender :: gone, howners.trans ?_, ?_⟩
    · rw [List.append_assoc, List.append_assoc]
      exact List.Perm.append_left _ List.perm_middle.symm
    · intro other hother
      rcases List.mem_cons.mp hother with rfl | hother
      · exact hbalance.closed ▸ hclosed
      · exact hgone other hother
  given := hbalance.given

theorem Balance.dropAll {senders : List Nat} (hbalance : Balance origin allowed (senders ++ hand) conn)
    (hclosed : ∀ sender ∈ senders, sender ∈ conn.closed) : Balance origin allowed hand conn := by
  induction senders with
  | nil => exact hbalance
  | cons sender rest ih =>
    refine ih (Balance.drop hbalance (hclosed sender List.mem_cons_self)) fun other hother => ?_
    exact hclosed other (List.mem_cons_of_mem _ hother)

theorem mem_closed_of_isClosed (hclosed : conn.isClosed sender = true) :
    sender ∈ conn.closed := by
  simpa [isClosed] using hclosed

theorem Balance.send {result : RedisResult Response}
    (hbalance : Balance origin allowed (sender :: hand) conn) (hallowed : allowed (sender, result)) :
    Balance origin allowed hand (conn.send (sender, result)) := by
  unfold ClusterConn.send
  split
  · rename_i hclosed
    exact hbalance.drop (mem_closed_of_isClosed hclosed)
  · obtain ⟨gone, howners, hgone⟩ := hbalance.kept
    obtain ⟨given, hgiven, hall⟩ := hbalance.given
    refine ⟨hbalance.closed, hbalance.submitted, ⟨gone, howners.trans (.of_eq ?_), hgone⟩,
      given ++ [(sender, result)], by simp [hgiven], fun answer hanswer => ?_⟩
    · simp [owners, held, answered]
    · rcases List.mem_append.mp hanswer with hanswer | hanswer
      · exact hall answer hanswer
      · exact List.mem_singleton.mp hanswer ▸ hallowed

theorem Balance.push (hbalance : Balance origin allowed (request.sender?.toList ++ hand) conn) :
    Balance origin allowed hand (conn.push request) := by
  refine hbalance.move rfl rfl rfl fun sender => ?_
  have hlast : [request].filterMap Request.sender? = request.sender?.toList := by
    cases hsender : request.sender? <;> simp [hsender]
  simp only [count_owners, answered, ClusterConn.push, List.filterMap_append, hlast,
    List.count_append]
  omega

theorem Balance.requeue {request : Option (PendingRequest Conn)}
    (hbalance : Balance origin allowed ((request.map PendingRequest.sender).toList ++ hand) conn) :
    Balance origin allowed hand (conn.requeue request) := by
  cases request with
  | none => exact hbalance
  | some request =>
    refine hbalance.move rfl rfl rfl fun sender => ?_
    simp only [count_owners, answered, ClusterConn.requeue, Option.map_some, Option.toList_some,
      List.map_append, List.map_cons, List.map_nil, List.count_append]
    omega

theorem Balance.foldl {body : ClusterConn Conn → PendingRequest Conn → ClusterConn Conn}
    (hbody : ∀ (conn : ClusterConn Conn) (request : PendingRequest Conn) (hand : List Nat),
      Balance origin allowed (request.sender :: hand) conn → Balance origin allowed hand (body conn request))
    {requests : List (PendingRequest Conn)}
    (hbalance : Balance origin allowed (requests.map PendingRequest.sender ++ hand) conn) :
    Balance origin allowed hand (requests.foldl body conn) := by
  induction requests generalizing conn with
  | nil => exact hbalance
  | cons request rest ih => exact ih (hbody conn request _ hbalance)

theorem Balance.tryRequest {request : PendingRequest Conn}
    (hbalance : Balance origin allowed (request.sender :: hand) conn) :
    Balance origin allowed hand (conn.tryRequest request) := by
  unfold ClusterConn.tryRequest
  split
  · rename_i hclosed
    exact hbalance.drop (mem_closed_of_isClosed hclosed)
  · have hpush : Balance origin allowed ((⟨some request, .future⟩ : Request Conn).sender?.toList ++ hand)
        conn := hbalance
    exact hpush.push

def RecoveryAllowed (allowed : Answer → Prop) : Prop :=
  ∀ sender, allowed (sender, .error connectionInRecovery)

theorem Balance.bufferPendingRequest {request : PendingRequest Conn} (cap : Nat)
    (hbalance : Balance origin allowed (request.sender :: hand) conn)
    (hrecovery : RecoveryAllowed allowed) :
    Balance origin allowed hand (conn.bufferPendingRequest cap request) := by
  unfold ClusterConn.bufferPendingRequest
  split
  · rename_i hclosed
    exact hbalance.drop (mem_closed_of_isClosed hclosed)
  · split
    · refine hbalance.move rfl rfl rfl fun sender => ?_
      simp only [count_owners, answered, List.map_append, List.map_cons, List.map_nil,
        List.count_append, List.count_cons, List.count_nil]
      omega
    · exact hbalance.send (hrecovery _)

section

variable (hbalance : Balance origin allowed hand conn)
include hbalance

theorem Balance.takePending :
    Balance origin allowed (conn.pendingRequests.map PendingRequest.sender ++ hand)
      { conn with pendingRequests := [] } := by
  refine hbalance.move rfl rfl rfl fun sender => ?_
  simp only [count_owners, answered, List.map_nil, List.count_nil, List.count_append]
  omega

theorem Balance.takeQueue :
    Balance origin allowed (conn.recoveryQueue.map PendingRequest.sender ++ hand)
      { conn with recoveryQueue := [] } := by
  refine hbalance.move rfl rfl rfl fun sender => ?_
  simp only [count_owners, answered, List.map_nil, List.count_nil, List.count_append]
  omega

theorem Balance.drainRecoveryQueueToInflight :
    Balance origin allowed hand conn.drainRecoveryQueueToInflight :=
  .foldl (fun _ _ _ hbalance => hbalance.tryRequest) hbalance.takeQueue

theorem Balance.startPendingRequests :
    Balance origin allowed hand conn.startPendingRequests :=
  .foldl (fun _ _ _ hbalance => hbalance.tryRequest) hbalance.takePending

theorem Balance.failPendingRequests (hrecovery : RecoveryAllowed allowed) :
    Balance origin allowed hand conn.failPendingRequests :=
  .foldl (fun _ _ _ hbalance => hbalance.send (hrecovery _)) hbalance.takePending

theorem Balance.failRecoveryQueue
    (hrecovery : RecoveryAllowed allowed) : Balance origin allowed hand conn.failRecoveryQueue :=
  .foldl (fun _ _ _ hbalance => hbalance.send (hrecovery _)) hbalance.takeQueue

end

theorem Balance.reclaimRecoveryQueue (cap : Nat) (hbalance : Balance origin allowed hand conn) :
    Balance origin allowed hand (conn.reclaimRecoveryQueue cap) := by
  unfold ClusterConn.reclaimRecoveryQueue
  split
  · let isOpen : PendingRequest Conn → Bool := fun request => !conn.isClosed request.sender
    have hsplit := (List.filter_append_perm isOpen conn.recoveryQueue).map PendingRequest.sender
    have hmoved : Balance origin allowed
        ((conn.recoveryQueue.filter fun request => !isOpen request).map PendingRequest.sender ++ hand)
        { conn with recoveryQueue := conn.recoveryQueue.filter isOpen } := by
      refine hbalance.move rfl rfl rfl fun sender => ?_
      have hcount := hsplit.count_eq sender
      simp only [List.map_append, List.count_append] at hcount
      simp only [count_owners, answered, List.count_append]
      omega
    refine hmoved.dropAll fun sender hsender => ?_
    obtain ⟨request, hrequest, rfl⟩ := List.mem_map.mp hsender
    have hclosed : conn.isClosed request.sender = true := by
      simpa [isOpen] using (List.mem_filter.mp hrequest).2
    exact mem_closed_of_isClosed hclosed
  · exact hbalance

theorem Balance.holdPendingRequests (params : ClusterParams)
    (hbalance : Balance origin allowed hand conn) (hrecovery : RecoveryAllowed allowed) :
    Balance origin allowed hand (conn.holdPendingRequests params) := by
  unfold ClusterConn.holdPendingRequests
  split
  · exact .foldl (fun _ _ _ hbalance => hbalance.bufferPendingRequest params.cap hrecovery)
      (hbalance.takePending.reclaimRecoveryQueue params.cap)
  · exact hbalance.failPendingRequests hrecovery

theorem Balance.take (hbalance : Balance origin allowed hand conn)
    (hrequest : conn.inFlightRequests[position]? = some request) :
    Balance origin allowed (request.sender?.toList ++ hand)
      { conn with inFlightRequests := conn.inFlightRequests.eraseIdx position } := by
  refine hbalance.move rfl rfl rfl fun sender => ?_
  have hcount := count_filterMap_eraseIdx hrequest Request.sender? sender
  simp only [count_owners, answered, List.count_append]
  omega

theorem Balance.replace {other : Request Conn}
    (hbalance : Balance origin allowed (other.sender?.toList ++ hand) conn)
    (hrequest : conn.inFlightRequests[position]? = some request) :
    Balance origin allowed (request.sender?.toList ++ hand)
      { conn with inFlightRequests := conn.inFlightRequests.set position other } := by
  refine hbalance.move rfl rfl rfl fun sender => ?_
  have hbefore := count_filterMap_eraseIdx hrequest Request.sender? sender
  have hafter := count_filterMap_set hrequest other Request.sender? sender
  simp only [count_owners, answered, List.count_append]
  omega

theorem Balance.sendRefreshError (hbalance : Balance origin allowed hand conn)
    (hrefresh : ∀ sender error, conn.refreshError = some error → allowed (sender, .error error))
    (hsend : conn.sendRefreshError position = some next) : Balance origin allowed hand next := by
  unfold ClusterConn.sendRefreshError at hsend
  split at hsend
  · cases hsend
    exact hbalance
  · rename_i error herror
    split at hsend
    · split at hsend
      · rename_i request state hrequest
        cases hsend
        have hother : Balance origin allowed ((⟨none, state⟩ : Request Conn).sender?.toList ++ hand) conn :=
          hbalance
        have htaken := hother.replace hrequest
        refine Balance.send ?_ (hrefresh request.sender error herror)
        exact htaken.move rfl rfl rfl fun _ => rfl
      · contradiction
    · split at hsend
      · cases hsend
        exact hbalance
      · rename_i request rest hpending
        cases hsend
        refine Balance.send (hbalance.move rfl rfl rfl fun sender => ?_)
          (hrefresh request.sender error herror)
        simp only [count_owners, answered, hpending, List.map_cons, List.count_cons]
        omega

theorem Balance.pollRecover {poll : RecoverPoll} {result : Option (RedisResult Unit)}
    (hbalance : Balance origin allowed hand conn) (hrecovery : RecoveryAllowed allowed)
    (hpoll : conn.pollRecover poll = some (result, next)) : Balance origin allowed hand next := by
  have hrecovered : Balance origin allowed hand conn.recovered.2 := hbalance.move rfl rfl rfl fun _ => rfl
  have hreconnect : Balance origin allowed hand
      { conn.failRecoveryQueue with state := .recover .reconnectToInitialNodes } :=
    (hbalance.failRecoveryQueue hrecovery).move rfl rfl rfl fun _ => rfl
  unfold ClusterConn.pollRecover at hpoll
  split at hpoll
  all_goals try contradiction
  all_goals try split at hpoll
  all_goals
    cases hpoll
    first
      | exact hbalance
      | exact hrecovered
      | exact hreconnect

theorem Balance.beginFlush {params : ClusterParams} {poll : RecoverPoll}
    (hbalance : Balance origin allowed hand conn) (hrecovery : RecoveryAllowed allowed)
    (hrefresh : ∀ sender error, conn.refreshError = some error → allowed (sender, .error error))
    (hflush : conn.beginFlush params position poll = some next) :
    Balance origin allowed hand next := by
  unfold ClusterConn.beginFlush at hflush
  split at hflush
  · contradiction
  · rename_i sent hsent
    have hsent := hbalance.sendRefreshError hrefresh hsent
    split at hflush
    · contradiction
    · rename_i recovering hrecovering
      cases hflush
      exact (hsent.pollRecover hrecovery hrecovering).holdPendingRequests params hrecovery
    · rename_i error recovering hrecovering
      cases hflush
      have hheld := (hsent.pollRecover hrecovery hrecovering).holdPendingRequests params hrecovery
      exact hheld.move rfl rfl rfl fun _ => rfl
    · rename_i recovered hrecovered
      cases hflush
      have hready := hsent.pollRecover hrecovery hrecovered
      exact hready.drainRecoveryQueueToInflight.startPendingRequests.move rfl rfl rfl fun _ => rfl

end Balance

end ClusterConn

/-! ## Polling a request -/

def Next.request? : Next Conn → Option (PendingRequest Conn)
  | .retry request => some request
  | .retryBusyLoadingError request _ => some request
  | .reconnect request _ => request
  | .refreshSlots request _ _ => request
  | .reconnectToInitialNodes request => request
  | .done => none

def Next.sender? (action : Next Conn) : Option Nat := action.request?.map PendingRequest.sender

def PollResult.senders : PollResult Conn → List Nat
  | .pending request => request.sender?.toList
  | .ready next answer => next.sender?.toList ++ (answer.map Prod.fst).toList

def PollResult.answer? : PollResult Conn → Option Answer
  | .pending _ => none
  | .ready _ answer => answer

namespace Request

section Poll

variable {context : PollContext} {request : PendingRequest Conn} {result : PollResult Conn}
  {error : RedisError} {numberOfRetries : Nat}

/-- How a request goes on after a failed attempt; the flag says that it is lost. -/
inductive Failed (request : PendingRequest Conn) (error : RedisError) :
    Bool → PollResult Conn → Prop
  | goesOn {action : Next Conn} {info : RequestInfo Conn}
      (haction : action.request? = some { request with info := info }) :
      Failed request error false (.ready action none)
  | sleeps : Failed request error false (.pending ⟨some request, .sleep⟩)
  | answered {action : Next Conn} (haction : action.request? = none) :
      Failed request error false (.ready action (some (request.sender, .error error)))
  | lost {action : Next Conn} (haction : action.request? = none) :
      Failed request error true (.ready action none)

def GoesOn (request : PendingRequest Conn) (next : PendingRequest Conn → Next Conn)
    (result : PollResult Conn) : Prop :=
  ∃ info, result = .ready (next { request with info := info }) none

variable {next : PendingRequest Conn → Next Conn}

theorem resetAnd_goesOn (hreset : resetAnd request next = some result) :
    GoesOn request next result := by
  unfold resetAnd at hreset
  split at hreset
  · cases hreset
    exact ⟨_, rfl⟩
  · contradiction

theorem redirectAnd_goesOn {redirect : Option Redirect}
    (hredirect : redirectAnd request redirect next = some result) :
    GoesOn request next result := by
  unfold redirectAnd at hredirect
  split at hredirect
  · cases hredirect
    exact ⟨_, rfl⟩
  · contradiction

theorem GoesOn.failed (hgoes : GoesOn request next result)
    (hnext : ∀ other, (next other).request? = some other) : Failed request error false result := by
  obtain ⟨info, rfl⟩ := hgoes
  exact .goesOn (hnext _)

theorem retryOnNode_failed {address : String}
    (hpoll : retryOnNode context request address error = some result) :
    Failed request error (error.retryMethod == .reconnect) result := by
  unfold retryOnNode at hpoll
  split at hpoll <;> rename_i hmethod <;> rw [hmethod]
  · exact (redirectAnd_goesOn hpoll).failed fun _ => rfl
  · dsimp only at hpoll
    split at hpoll
    · exact (resetAnd_goesOn hpoll).failed fun _ => rfl
    · exact (redirectAnd_goesOn hpoll).failed fun _ => rfl
  · exact (resetAnd_goesOn hpoll).failed fun _ => rfl
  · cases hpoll
    exact .sleeps
  · obtain ⟨info, rfl⟩ := resetAnd_goesOn hpoll
    exact .lost rfl
  · exact (resetAnd_goesOn hpoll).failed fun _ => rfl
  · cases hpoll
    exact .goesOn rfl
  · cases hpoll
    exact .goesOn rfl
  · cases hpoll
    exact .answered rfl

theorem lastNext_request? (target : OperationTarget) :
    (lastNext context target error : Next Conn).request? = none := by
  unfold lastNext
  split
  · rfl
  · split
    · rfl
    · split
      · cases target <;> rfl
      · rfl

theorem pollFailed_failed {target : OperationTarget} (hleft : request.retry < numberOfRetries)
    (hpoll : pollFailed context numberOfRetries request target error = some result) :
    Failed { request with retry := request.retry + 1 } error
      (abandons numberOfRetries ⟨some request, .future⟩ (.attempted (.error (target, error))))
      result := by
  rw [pollFailed, if_neg (Nat.not_le.mpr hleft)] at hpoll
  dsimp only at hpoll
  split at hpoll
  · rename_i hkind
    cases hpoll
    have hkept : abandons numberOfRetries ⟨some request, .future⟩
        (.attempted (.error (target, error))) = false := by
      cases target <;> simp [abandons, hkind]
    rw [hkept]
    exact .goesOn rfl
  · rename_i hkind
    split at hpoll
    · have hnode := retryOnNode_failed hpoll
      have hother : (error.kind != .allConnectionsUnavailable) = true := bne_iff_ne.mpr hkind
      simpa [abandons, hother, hleft] using hnode
    · split at hpoll
      · exact (resetAnd_goesOn hpoll).failed fun _ => rfl
      · cases hpoll
        exact .answered rfl
    · exact (resetAnd_goesOn hpoll).failed fun _ => rfl
    · cases hpoll
      exact .answered rfl

/-- What a poll can do with a request. -/
inductive Polls (numberOfRetries : Nat) (isClosed : Nat → Bool) :
    Request Conn → Polled → PollResult Conn → Prop
  | gone {request : Request Conn} {polled : Polled} (hgone : request.sender?.all isClosed) :
      Polls numberOfRetries isClosed request polled (.ready .done none)
  | woken {pending : PendingRequest Conn} {state : RequestState} {polled : Polled}
      (hopen : isClosed pending.sender = false) (hstate : state ≠ .future) :
      Polls numberOfRetries isClosed ⟨some pending, state⟩ polled (.ready (.retry pending) none)
  | answered {pending : PendingRequest Conn} {outcome : OperationResult Response}
      {action : Next Conn} (hopen : isClosed pending.sender = false)
      (hkept : abandons numberOfRetries ⟨some pending, .future⟩ (.attempted outcome) = false)
      (haction : action.request? = none) :
      Polls numberOfRetries isClosed ⟨some pending, .future⟩ (.attempted outcome)
        (.ready action (some (pending.sender, outcome.mapError Prod.snd)))
  | failed {pending : PendingRequest Conn} {target : OperationTarget} {error : RedisError}
      {lost : Bool} {result : PollResult Conn} (hopen : isClosed pending.sender = false)
      (hleft : pending.retry < numberOfRetries)
      (hlost : abandons numberOfRetries ⟨some pending, .future⟩
        (.attempted (.error (target, error))) = lost)
      (hfailed : Failed { pending with retry := pending.retry + 1 } error lost result) :
      Polls numberOfRetries isClosed ⟨some pending, .future⟩ (.attempted (.error (target, error)))
        result

variable {isClosed : Nat → Bool} {polled : Polled} {request : Request Conn}
  (hpoll : request.poll context numberOfRetries isClosed polled = some result)
include hpoll

theorem poll_polls : Polls numberOfRetries isClosed request polled result := by
  obtain ⟨held, state⟩ := request
  unfold poll at hpoll
  split at hpoll
  · rename_i hnone
    obtain rfl : held = none := hnone
    cases hpoll
    exact .gone rfl
  · rename_i pending hpending
    obtain rfl : held = some pending := hpending
    split at hpoll
    · rename_i hclosed
      cases hpoll
      exact .gone (by simpa [sender?] using hclosed)
    · rename_i hopen
      rw [Bool.not_eq_true] at hopen
      split at hpoll <;> rename_i hstate
      · cases hpoll
        exact .woken hopen fun hfuture => nomatch hstate.symm.trans hfuture
      · cases hpoll
        exact .woken hopen fun hfuture => nomatch hstate.symm.trans hfuture
      · obtain rfl : state = .future := hstate
        cases hpoll
        exact .answered hopen rfl rfl
      · rename_i target error
        obtain rfl : state = .future := hstate
        by_cases hleft : pending.retry < numberOfRetries
        · exact .failed hopen hleft rfl (pollFailed_failed hleft hpoll)
        · rw [pollFailed, if_pos (Nat.not_lt.mp hleft)] at hpoll
          cases hpoll
          refine .answered hopen ?_ (lastNext_request? target)
          cases target <;> simp [abandons, hleft]
      · contradiction

theorem poll_senders : result.senders =
      if request.sender?.any isClosed || request.abandons numberOfRetries polled then []
      else request.sender?.toList := by
  cases poll_polls hpoll with
  | gone hgone => cases hsender : request.sender? <;> simp_all [PollResult.senders, Next.sender?, Next.request?]
  | @woken pending state polled hopen hstate =>
    have hkept : abandons numberOfRetries ⟨some pending, state⟩ polled = false := by
      cases state <;> first | contradiction | rfl
    simp [sender?, hopen, hkept, PollResult.senders, Next.sender?, Next.request?]
  | answered hopen hkept haction =>
    simp [sender?, hopen, hkept, PollResult.senders, Next.sender?, haction]
  | failed hopen _ hlost hfailed =>
    cases hfailed <;> simp_all [sender?, PollResult.senders, Next.sender?]

theorem poll_answer {answer : Answer} (hanswer : result.answer? = some answer) :
    ∃ outcome, polled = .attempted outcome ∧ request.sender? = some answer.1 ∧
      answer.2 = outcome.mapError Prod.snd := by
  cases poll_polls hpoll with
  | gone | woken => contradiction
  | answered =>
    cases hanswer
    exact ⟨_, rfl, rfl, rfl⟩
  | failed _ _ _ hfailed =>
    cases hfailed with
    | goesOn | sleeps | lost => contradiction
    | answered =>
      cases hanswer
      exact ⟨_, rfl, rfl, rfl⟩

end Poll

end Request

namespace ClusterConn

variable {origin conn next : ClusterConn Conn} {allowed : Answer → Prop} {hand : List Nat}
  {position : Nat}

theorem Balance.handleNext {action : Next Conn}
    (hbalance : Balance origin allowed (action.sender?.toList ++ hand) conn) :
    Balance origin allowed hand (conn.handleNext action) := by
  have hnoted : ∀ noted, Balance origin allowed (action.sender?.toList ++ hand) (conn.noteAction noted) :=
    fun _ => hbalance.move rfl rfl rfl fun _ => rfl
  cases action with
  | done => exact hbalance
  | retry request | retryBusyLoadingError request address => exact Balance.push hbalance
  | reconnect request target => exact (hnoted _).requeue
  | reconnectToInitialNodes request => exact (hnoted _).requeue
  | refreshSlots request sleeps movedRedirect =>
    cases movedRedirect with
    | some redirect => exact Balance.push (hnoted _)
    | none =>
      cases request with
      | some request => exact Balance.push (hnoted _)
      | none => exact hnoted _

theorem Balance.afterPoll {request : Request Conn} {result : PollResult Conn} {taken : List Nat}
    (hrequest : conn.inFlightRequests[position]? = some request)
    (hbalance : Balance origin allowed taken
      { conn with inFlightRequests := conn.inFlightRequests.eraseIdx position })
    (htaken : taken = result.senders ++ hand)
    (hallowed : ∀ answer, result.answer? = some answer → allowed answer) :
    Balance origin allowed hand (conn.afterPoll position result) := by
  subst htaken
  cases result with
  | pending other =>
    refine hbalance.move rfl rfl rfl fun sender => ?_
    have hset := count_filterMap_set hrequest other Request.sender? sender
    simp only [count_owners, answered, ClusterConn.afterPoll, PollResult.senders,
      List.count_append]
    omega
  | ready action answer =>
    cases answer with
    | none =>
      rw [PollResult.senders, Option.map_none, Option.toList_none, List.append_nil] at hbalance
      exact hbalance.handleNext
    | some answer =>
      refine Balance.handleNext (Balance.send (hbalance.move rfl rfl rfl fun sender => ?_)
        (hallowed answer rfl))
      simp only [PollResult.senders, Option.map_some, Option.toList_some, List.count_append,
        List.count_cons, List.count_nil]
      omega

theorem pollInFlight_balance {params : ClusterParams} {context : PollContext} {polled : Polled}
    (hpoll : conn.pollInFlight context params position polled = some next) :
    Kept params conn (.poll context position polled) ∧
        Balance conn (EndedBy conn (.poll context position polled)) [] next ∨
      ¬ Kept params conn (.poll context position polled) ∧ ∃ sender, sender ∉ conn.closed ∧
        Balance conn (EndedBy conn (.poll context position polled)) [sender] next := by
  unfold pollInFlight at hpoll
  split at hpoll
  · rename_i request _ hrequest
    obtain ⟨result, hresult, rfl⟩ := Option.map_eq_some_iff.mp hpoll
    have hsenders := Request.poll_senders hresult
    have hallowed : ∀ answer, result.answer? = some answer →
        EndedBy conn (.poll context position polled) answer := by
      intro answer hanswer
      obtain ⟨outcome, rfl, hsender, houtcome⟩ := Request.poll_answer hresult hanswer
      exact ⟨request, hrequest, hsender, houtcome⟩
    have htaken := Balance.take
      (balance_refl conn : Balance conn (EndedBy conn (.poll context position polled)) [] conn)
      hrequest
    have hkept : Kept params conn (.poll context position polled) ↔
        ∀ sender ∈ request.sender?, request.abandons params.numberOfRetries polled = true →
          sender ∈ conn.closed := by
      simp [Kept, hrequest]
    rw [hkept]
    cases hsender : request.sender? with
    | none =>
      rw [hsender] at hsenders htaken
      exact .inl ⟨by simp, htaken.afterPoll hrequest (by simp [hsenders]) hallowed⟩
    | some sender =>
      rw [hsender] at hsenders htaken
      by_cases hclosed : sender ∈ conn.closed
      · refine .inl ⟨by simp [hclosed], ?_⟩
        exact (htaken.drop hclosed).afterPoll hrequest (by simp [hsenders, isClosed, hclosed])
          hallowed
      · cases habandons : request.abandons params.numberOfRetries polled with
        | false =>
          refine .inl ⟨by simp, htaken.afterPoll hrequest ?_ hallowed⟩
          simp [hsenders, isClosed, hclosed, habandons]
        | true =>
          refine .inr ⟨by simp [hclosed], sender, hclosed, ?_⟩
          exact htaken.afterPoll hrequest (by simp [hsenders, habandons]) hallowed
  · contradiction

end ClusterConn

end ValkeyGlide.Cluster
