import ValkeyGlide.Cluster.EventLoop

/-!
# The effect of a step of the event loop

What a flush and the poll of a request do to the places where requests are kept,
without the loops and branches they go through: the state after a step is written out
in terms of the state before it.  Of the results given to callers only those are kept
that report the error of a slot refresh.
-/

namespace ValkeyGlide.Cluster

open Protocol

variable {Conn : Type}

def Request.dispatched (request : PendingRequest Conn) : Request Conn := ⟨some request, .future⟩

def Next.requeued : Next Conn → Option (PendingRequest Conn)
  | .reconnect request _ => request
  | .reconnectToInitialNodes request => request
  | _ => none

def Next.pushed : Next Conn → Option (Request Conn)
  | .retry request => some (.dispatched request)
  | .retryBusyLoadingError request _ => some (.dispatched request)
  | .refreshSlots request _ (some redirect) => some ⟨request, .updateMoved redirect⟩
  | .refreshSlots (some request) sleeps none =>
    some ⟨some request, if sleeps then .sleep else .future⟩
  | _ => none

namespace ClusterConn

variable {conn next : ClusterConn Conn}

def isOpen (conn : ClusterConn Conn) (request : PendingRequest Conn) : Bool :=
  !conn.isClosed request.sender

/-! ## The loops -/

def received (conn : ClusterConn Conn) (answer : Answer) : List Answer :=
  if conn.isClosed answer.1 then [] else [answer]

theorem send_eq_received (conn : ClusterConn Conn) (answer : Answer) :
    conn.send answer = { conn with answers := conn.answers ++ conn.received answer } := by
  rw [send, received]
  split
  · rw [List.append_nil]
  · rfl

theorem send_eq (conn : ClusterConn Conn) (answer : Answer) :
    ∃ answers, conn.send answer = { conn with answers := answers } :=
  ⟨_, conn.send_eq_received answer⟩

theorem foldl_failRequest (requests : List (PendingRequest Conn)) (conn : ClusterConn Conn) :
    ∃ answers, requests.foldl failRequest conn = { conn with answers := answers } := by
  induction requests generalizing conn with
  | nil => exact ⟨_, rfl⟩
  | cons request rest ih =>
    obtain ⟨sent, hsent⟩ := conn.send_eq (request.sender, .error connectionInRecovery)
    obtain ⟨answers, hanswers⟩ := ih { conn with answers := sent }
    refine ⟨answers, ?_⟩
    rw [List.foldl_cons, failRequest, hsent, hanswers]

theorem foldl_tryRequest (requests : List (PendingRequest Conn)) (conn : ClusterConn Conn) :
    requests.foldl tryRequest conn =
      { conn with
        inFlightRequests := conn.inFlightRequests ++
          (requests.filter conn.isOpen).map Request.dispatched } := by
  induction requests generalizing conn with
  | nil => simp
  | cons request rest ih =>
    rw [List.foldl_cons, tryRequest]
    cases hclosed : conn.isClosed request.sender with
    | true =>
      have hopen : conn.isOpen request = false := by simp [isOpen, hclosed]
      rw [if_pos rfl, ih, List.filter_cons_of_neg (by simp [hopen])]
    | false =>
      have hopen : conn.isOpen request = true := by simp [isOpen, hclosed]
      have hsame : (conn.push (Request.dispatched request)).isOpen = conn.isOpen := rfl
      rw [if_neg (by simp), ← Request.dispatched, ih, hsame, List.filter_cons_of_pos hopen]
      simp [push]

theorem foldl_bufferPendingRequest (cap : Nat) (requests : List (PendingRequest Conn))
    (conn : ClusterConn Conn) :
    ∃ taken answers,
      requests.foldl (bufferPendingRequest cap) conn =
        { conn with recoveryQueue := conn.recoveryQueue ++ taken, answers := answers } ∧
      taken.Sublist requests ∧
      (conn.recoveryQueue.length ≤ cap → (conn.recoveryQueue ++ taken).length ≤ cap) := by
  induction requests generalizing conn with
  | nil => exact ⟨[], conn.answers, by simp, .refl _, by simp⟩
  | cons request rest ih =>
    rw [List.foldl_cons, bufferPendingRequest]
    split_ifs with hclosed hroom
    · obtain ⟨taken, answers, heq, hsublist, hbound⟩ := ih conn
      exact ⟨taken, answers, heq, hsublist.cons _, hbound⟩
    · obtain ⟨taken, answers, heq, hsublist, hbound⟩ :=
        ih { conn with recoveryQueue := conn.recoveryQueue ++ [request] }
      refine ⟨request :: taken, answers, ?_, hsublist.cons_cons _, fun _ => ?_⟩
      · simpa using heq
      · have hlength : (conn.recoveryQueue ++ [request]).length ≤ cap := by
          rw [List.length_append, List.length_singleton]
          exact hroom
        simpa using hbound hlength
    · obtain ⟨sent, hsent⟩ := conn.send_eq (request.sender, .error connectionInRecovery)
      rw [hsent]
      obtain ⟨taken, answers, heq, hsublist, hbound⟩ := ih { conn with answers := sent }
      exact ⟨taken, answers, heq, hsublist.cons _, hbound⟩

theorem reclaimRecoveryQueue_eq (cap : Nat) (conn : ClusterConn Conn) :
    ∃ queue, conn.reclaimRecoveryQueue cap = { conn with recoveryQueue := queue } ∧
      queue.Sublist conn.recoveryQueue := by
  unfold reclaimRecoveryQueue
  split_ifs
  · exact ⟨_, rfl, List.filter_sublist⟩
  · exact ⟨_, rfl, .refl _⟩

/-! ## The parts of a flush -/

/-- What the recovery queue may be after requests were held back. -/
structure Queued (params : ClusterParams) (conn : ClusterConn Conn)
    (queue : List (PendingRequest Conn)) : Prop where
  sublist : queue.Sublist (conn.recoveryQueue ++ conn.pendingRequests)
  bounded : conn.recoveryQueue.length ≤ params.cap → queue.length ≤ params.cap
  failFast : conn.state = .recover .reconnectToInitialNodes → queue = conn.recoveryQueue

theorem holdPendingRequests_eq (params : ClusterParams) (conn : ClusterConn Conn) :
    ∃ queue answers,
      conn.holdPendingRequests params =
        { conn with pendingRequests := [], recoveryQueue := queue, answers := answers } ∧
      Queued params conn queue := by
  unfold holdPendingRequests
  split_ifs with hbuffers
  · obtain ⟨kept, hkept, hsublist⟩ :=
      reclaimRecoveryQueue_eq params.cap { conn with pendingRequests := [] }
    obtain ⟨taken, answers, heq, htaken, hbound⟩ := foldl_bufferPendingRequest params.cap
      conn.pendingRequests { conn with pendingRequests := [], recoveryQueue := kept }
    refine ⟨kept ++ taken, answers, ?_, hsublist.append htaken, fun hle => ?_, fun hstate => ?_⟩
    · rw [bufferPendingRequestsToRecoveryQueue, hkept]
      exact heq
    · exact hbound (hsublist.length_le.trans hle)
    · rw [hstate] at hbuffers
      simp at hbuffers
  · obtain ⟨answers, hfailed⟩ :=
      foldl_failRequest conn.pendingRequests { conn with pendingRequests := [] }
    exact ⟨conn.recoveryQueue, answers, hfailed, List.sublist_append_left _ _, id, fun _ => rfl⟩

/-- What a flush gives to callers before it looks at the recovery. -/
inductive Delivered (conn : ClusterConn Conn) (position : Nat) :
    List Answer → ClusterConn Conn → Prop
  | none
      (hnone : conn.refreshError = none ∨
        (∀ request ∈ conn.inFlightRequests, request.request = none) ∧
          conn.pendingRequests = []) :
      Delivered conn position [] conn
  | inFlight {error : RedisError} {request : PendingRequest Conn} {state : RequestState}
      (herror : conn.refreshError = some error)
      (hrequest : conn.inFlightRequests[position]? = some ⟨some request, state⟩) :
      Delivered conn position (conn.received (request.sender, .error error))
        { conn with
          refreshError := .none
          inFlightRequests := conn.inFlightRequests.set position ⟨.none, state⟩
          answers := conn.answers ++ conn.received (request.sender, .error error) }
  | pending {error : RedisError} {request : PendingRequest Conn}
      {rest : List (PendingRequest Conn)} (herror : conn.refreshError = some error)
      (hpending : conn.pendingRequests = request :: rest) :
      Delivered conn position (conn.received (request.sender, .error error))
        { conn with
          refreshError := .none
          pendingRequests := rest
          answers := conn.answers ++ conn.received (request.sender, .error error) }

variable {position : Nat} {poll : RecoverPoll} {params : ClusterParams} {given : List Answer}

theorem Delivered.frame (hdelivered : Delivered conn position given next) :
    next.state = conn.state ∧ next.recoveryQueue = conn.recoveryQueue ∧
      next.completing = conn.completing ∧ next.submitted = conn.submitted ∧
      next.closed = conn.closed := by
  cases hdelivered <;> exact ⟨rfl, rfl, rfl, rfl, rfl⟩

theorem Delivered.answers_eq (hdelivered : Delivered conn position given next) :
    next.answers = conn.answers ++ given := by
  cases hdelivered with
  | none => exact (List.append_nil _).symm
  | inFlight | pending => rfl

theorem sendRefreshError_delivered (hsend : conn.sendRefreshError position = some next) :
    ∃ given, Delivered conn position given next := by
  unfold sendRefreshError at hsend
  cases herror : conn.refreshError with
  | none =>
    simp only [herror] at hsend
    cases hsend
    exact ⟨_, .none (.inl herror)⟩
  | some error =>
    simp only [herror] at hsend
    split_ifs at hsend with hany
    · split at hsend
      · rename_i request state hrequest
        cases hsend
        rw [send_eq_received]
        exact ⟨_, .inFlight herror hrequest⟩
      · contradiction
    · cases hpending : conn.pendingRequests with
      | nil =>
        simp only [hpending] at hsend
        cases hsend
        refine ⟨_, .none (.inr ⟨fun request hrequest => ?_, hpending⟩)⟩
        simpa using fun hsome => hany (List.any_eq_true.mpr ⟨request, hrequest, hsome⟩)
      | cons request rest =>
        simp only [hpending] at hsend
        cases hsend
        rw [send_eq_received]
        exact ⟨_, .pending herror hpending⟩

def recoveryResult (conn : ClusterConn Conn) (poll : RecoverPoll) :
    Option (Option (RedisResult Unit)) :=
  (conn.pollRecover poll).map Prod.fst

inductive Flushed (params : ClusterParams) (poll : RecoverPoll) (conn : ClusterConn Conn) :
    ClusterConn Conn → Prop
  | held {queue : List (PendingRequest Conn)} {answers : List Answer}
      (hresult : conn.recoveryResult poll = some none) (hqueued : Queued params conn queue) :
      Flushed params poll conn
        { conn with pendingRequests := [], recoveryQueue := queue, answers := answers }
  | failed {error : RedisError} {answers : List Answer}
      (hresult : conn.recoveryResult poll = some (some (.error error)))
      (hstate : conn.state = .recover .refreshingSlots) :
      Flushed params poll conn
        { conn with
          state := .recover .reconnectToInitialNodes
          pendingRequests := []
          recoveryQueue := []
          refreshError := some error
          answers := answers }
  | started (hresult : conn.recoveryResult poll = some (some (.ok ()))) :
      Flushed params poll conn
        { conn with
          state := .pollComplete
          pendingRequests := []
          recoveryQueue := []
          completing := some .none
          inFlightRequests := conn.inFlightRequests ++
            ((conn.recoveryQueue ++ conn.pendingRequests).filter conn.isOpen).map
              Request.dispatched }

theorem pollRecover_pending (hpoll : conn.pollRecover poll = some (none, next)) : next = conn := by
  unfold pollRecover at hpoll
  split at hpoll
  all_goals try contradiction
  all_goals try split at hpoll
  all_goals
    cases hpoll
    try rfl

theorem pollRecover_error {error : RedisError}
    (hpoll : conn.pollRecover poll = some (some (.error error), next)) :
    conn.state = .recover .refreshingSlots ∧
      next = { conn.failRecoveryQueue with state := .recover .reconnectToInitialNodes } := by
  unfold pollRecover at hpoll
  split at hpoll
  all_goals try contradiction
  all_goals try split at hpoll
  all_goals
    cases hpoll
    try exact ⟨by assumption, rfl⟩

theorem pollRecover_ok (hpoll : conn.pollRecover poll = some (some (.ok ()), next)) :
    next = { conn with state := .pollComplete } := by
  unfold pollRecover at hpoll
  split at hpoll
  all_goals try contradiction
  all_goals try split at hpoll
  all_goals
    rename_i hstate
    cases hpoll
    try first
      | rfl
      | rw [← hstate]

theorem beginFlush_flushed (hflush : conn.beginFlush params position poll = some next) :
    ∃ sent, conn.sendRefreshError position = some sent ∧ Flushed params poll sent next := by
  unfold beginFlush at hflush
  cases hsent : conn.sendRefreshError position with
  | none =>
    rw [hsent] at hflush
    contradiction
  | some sent =>
    refine ⟨sent, rfl, ?_⟩
    simp only [hsent] at hflush
    split at hflush
    · contradiction
    · rename_i recovering hpoll
      cases hflush
      obtain rfl := pollRecover_pending hpoll
      obtain ⟨queue, answers, hheld, hqueued⟩ := holdPendingRequests_eq params recovering
      rw [hheld]
      exact .held (by simp [recoveryResult, hpoll]) hqueued
    · rename_i error recovering hpoll
      cases hflush
      obtain ⟨hstate, rfl⟩ := pollRecover_error hpoll
      obtain ⟨failed, hfailed⟩ :=
        foldl_failRequest sent.recoveryQueue { sent with recoveryQueue := [] }
      rw [← failRecoveryQueue] at hfailed
      obtain ⟨queue, answers, hheld, hqueued⟩ := holdPendingRequests_eq params
        { sent.failRecoveryQueue with state := .recover .reconnectToInitialNodes }
      obtain rfl : queue = [] := by
        rw [hqueued.failFast rfl, hfailed]
      rw [hheld, hfailed]
      exact .failed (by simp [recoveryResult, hpoll]) hstate
    · rename_i recovered hpoll
      cases hflush
      obtain rfl := pollRecover_ok hpoll
      have hstarted : Flushed params poll sent _ := .started (by simp [recoveryResult, hpoll])
      rw [drainRecoveryQueueToInflight, foldl_tryRequest, startPendingRequests,
        foldl_tryRequest]
      rw [List.filter_append, List.map_append, ← List.append_assoc] at hstarted
      exact hstarted

/-! ## Polling a request -/

theorem handleNext_eq (conn : ClusterConn Conn) (action : Next Conn) :
    ∃ completing,
      conn.handleNext action =
        { conn with
          completing := completing
          pendingRequests := conn.pendingRequests ++ action.requeued.toList
          inFlightRequests := conn.inFlightRequests ++ action.pushed.toList } ∧
      completing.isSome = conn.completing.isSome := by
  cases action with
  | done => exact ⟨conn.completing, by simp [handleNext, Next.requeued, Next.pushed], rfl⟩
  | retry request | retryBusyLoadingError request address =>
    exact ⟨conn.completing, by simp [handleNext, push, Next.requeued, Next.pushed,
      Request.dispatched], rfl⟩
  | reconnect request target =>
    refine ⟨conn.completing.map (·.changeState (.reconnect [target])), ?_, by simp⟩
    cases request <;> simp [handleNext, noteAction, requeue, Next.requeued, Next.pushed]
  | reconnectToInitialNodes request =>
    refine ⟨conn.completing.map (·.changeState .reconnectFromInitialConnections), ?_, by simp⟩
    cases request <;> simp [handleNext, noteAction, requeue, Next.requeued, Next.pushed]
  | refreshSlots request sleeps movedRedirect =>
    refine ⟨conn.completing.map (·.changeState .rebuildSlots), ?_, by simp⟩
    cases movedRedirect with
    | some redirect => simp [handleNext, noteAction, push, Next.requeued, Next.pushed]
    | none =>
      cases request with
      | some request => simp [handleNext, noteAction, push, Next.requeued, Next.pushed]
      | none => simp [handleNext, noteAction, Next.requeued, Next.pushed]

inductive Advanced (conn : ClusterConn Conn) (position : Nat) :
    PollResult Conn → ClusterConn Conn → Prop
  | pending {request : Request Conn} :
      Advanced conn position (.pending request)
        { conn with inFlightRequests := conn.inFlightRequests.set position request }
  | ready {action : Next Conn} {answer : Option Answer} {completing : Option PollFlushAction}
      {answers : List Answer} (hcompleting : completing.isSome = conn.completing.isSome) :
      Advanced conn position (.ready action answer)
        { conn with
          completing := completing
          answers := answers
          pendingRequests := conn.pendingRequests ++ action.requeued.toList
          inFlightRequests :=
            conn.inFlightRequests.eraseIdx position ++ action.pushed.toList }

theorem afterPoll_advanced (conn : ClusterConn Conn) (position : Nat) (result : PollResult Conn) :
    Advanced conn position result (conn.afterPoll position result) := by
  cases result with
  | pending request => exact .pending
  | ready action answer =>
    let taken := { conn with inFlightRequests := conn.inFlightRequests.eraseIdx position }
    have hsent : ∃ answers, answer.elim taken taken.send = { taken with answers := answers } := by
      cases answer with
      | none => exact ⟨_, rfl⟩
      | some answer => exact taken.send_eq answer
    obtain ⟨answers, hanswers⟩ := hsent
    obtain ⟨completing, hnext, hcompleting⟩ :=
      handleNext_eq { taken with answers := answers } action
    show Advanced conn position _ ((answer.elim taken taken.send).handleNext action)
    rw [hanswers, hnext]
    exact .ready hcompleting

theorem pollInFlight_advanced {context : PollContext} {polled : Polled}
    (hpoll : conn.pollInFlight context params position polled = some next) :
    ∃ request result, conn.completing.isSome ∧
      conn.inFlightRequests[position]? = some request ∧
      request.poll context params.numberOfRetries conn.isClosed polled = some result ∧
      Advanced conn position result next := by
  unfold pollInFlight at hpoll
  split at hpoll
  · rename_i request hcompleting hrequest
    obtain ⟨result, hresult, rfl⟩ := Option.map_eq_some_iff.mp hpoll
    exact ⟨request, result, by simp [hcompleting], hrequest, hresult,
      conn.afterPoll_advanced position result⟩
  · contradiction

/-! ## Steps -/

inductive Stepped (params : ClusterParams) (conn : ClusterConn Conn) :
    Action Conn → ClusterConn Conn → Prop
  | submit {sender : Nat} {info : RequestInfo Conn} (hnew : sender ∉ conn.submitted) :
      Stepped params conn (.submit sender info)
        { conn with
          submitted := conn.submitted ++ [sender]
          pendingRequests := conn.pendingRequests ++ [⟨0, sender, info⟩] }
  | giveUp {sender : Nat} :
      Stepped params conn (.giveUp sender) { conn with closed := conn.closed ++ [sender] }
  | beginFlush {position : Nat} {poll : RecoverPoll} {given : List Answer}
      {sent next : ClusterConn Conn} (hidle : conn.completing = none)
      (hsent : conn.sendRefreshError position = some sent)
      (hdelivered : Delivered conn position given sent)
      (hflushed : Flushed params poll sent next) :
      Stepped params conn (.beginFlush position poll) next
  | poll {context : PollContext} {position : Nat} {polled : Polled} {request : Request Conn}
      {result : PollResult Conn} {next : ClusterConn Conn} (hcompleting : conn.completing.isSome)
      (hrequest : conn.inFlightRequests[position]? = some request)
      (hresult : request.poll context params.numberOfRetries conn.isClosed polled = some result)
      (hadvanced : Advanced conn position result next) :
      Stepped params conn (.poll context position polled) next
  | endFlush {state : ConnectionState} (hcompleting : conn.completing.isSome) :
      Stepped params conn .endFlush { conn with completing := none, state := state }

theorem step_stepped {action : Action Conn} (hstep : conn.step params action = some next) :
    Stepped params conn action next := by
  cases action with
  | submit sender info =>
    rw [step] at hstep
    split at hstep
    · contradiction
    · rename_i hnew
      cases hstep
      exact .submit hnew
  | giveUp sender =>
    cases hstep
    exact .giveUp
  | beginFlush position poll =>
    rw [step] at hstep
    split at hstep
    · contradiction
    · rename_i hidle
      obtain ⟨sent, hsent, hflushed⟩ := beginFlush_flushed hstep
      obtain ⟨given, hdelivered⟩ := sendRefreshError_delivered hsent
      exact .beginFlush (by simpa using hidle) hsent hdelivered hflushed
  | poll context position polled =>
    obtain ⟨request, result, hcompleting, hrequest, hresult, hadvanced⟩ :=
      pollInFlight_advanced hstep
    exact .poll hcompleting hrequest hresult hadvanced
  | endFlush =>
    rw [step, ClusterConn.endFlush] at hstep
    split at hstep
    · contradiction
    all_goals
      rename_i hcompleting
      cases hstep
      exact .endFlush (by simp [hcompleting])

end ClusterConn

end ValkeyGlide.Cluster
