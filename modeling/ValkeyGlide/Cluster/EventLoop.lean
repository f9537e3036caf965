import ValkeyGlide.Cluster.Request
import ValkeyGlide.Foundation.Run

/-!
# The cluster event loop

Requests wait in a channel, in a queue while a recovery is under way, or are in
flight (`poll_flush` and `poll_complete` in `cluster_async/mod.rs`).  A flush
looks at the recovery first; when there is none, or it has ended, requests are
polled until none is ready.  Submissions and callers that give up come at any
time.

A closed connection and one whose task has panicked are not followed further.
-/

namespace ValkeyGlide.Cluster

open Protocol Foundation

variable {Conn : Type}

inductive RecoverFuture where
  | refreshingSlots
  | reconnectToInitialNodes
  | reconnect
  deriving DecidableEq, Repr

inductive ConnectionState where
  | pollComplete
  | recover (future : RecoverFuture)
  deriving DecidableEq, Repr

inductive RecoverPoll where
  | pending
  | refreshed (result : RedisResult Unit)
  | ended
  | cancelled
  | panicked (detail : String)

inductive PollFlushAction where
  | none
  | rebuildSlots
  | reconnect (addresses : List String)
  | reconnectFromInitialConnections
  deriving DecidableEq, Repr

def PollFlushAction.changeState : PollFlushAction → PollFlushAction → PollFlushAction
  | .none, next => next
  | action, .none => action
  | .reconnectFromInitialConnections, _ => .reconnectFromInitialConnections
  | _, .reconnectFromInitialConnections => .reconnectFromInitialConnections
  | .rebuildSlots, _ => .rebuildSlots
  | _, .rebuildSlots => .rebuildSlots
  | .reconnect addresses, .reconnect others => .reconnect (addresses.union others)

structure ClusterParams where
  numberOfRetries : Nat
  recoveryRequestsQueueSize : Option Nat

def defaultRecoveryRequestsQueueSize : Nat := 1000

def ClusterParams.cap (params : ClusterParams) : Nat :=
  params.recoveryRequestsQueueSize.getD defaultRecoveryRequestsQueueSize

/--
`completing` is the action found so far by a flush that is polling requests.
`submitted`, `closed` and `answers` are the senders of all requests, those whose
callers have given up, and the results given to the others.
-/
structure ClusterConn (Conn : Type) where
  state : ConnectionState
  pendingRequests : List (PendingRequest Conn)
  recoveryQueue : List (PendingRequest Conn)
  inFlightRequests : List (Request Conn)
  refreshError : Option RedisError
  completing : Option PollFlushAction
  submitted : List Nat
  closed : List Nat
  answers : List Answer

namespace ClusterConn

def new : ClusterConn Conn where
  state := .pollComplete
  pendingRequests := []
  recoveryQueue := []
  inFlightRequests := []
  refreshError := none
  completing := none
  submitted := []
  closed := []
  answers := []

def isClosed (conn : ClusterConn Conn) (sender : Nat) : Bool := conn.closed.contains sender

/-- A result for a caller that has given up is lost. -/
def send (conn : ClusterConn Conn) (answer : Answer) : ClusterConn Conn :=
  if conn.isClosed answer.1 then conn else { conn with answers := conn.answers ++ [answer] }

def push (conn : ClusterConn Conn) (request : Request Conn) : ClusterConn Conn :=
  { conn with inFlightRequests := conn.inFlightRequests ++ [request] }

/-! ## Recovery -/

def connectionInRecovery : RedisError := .withDescription .clientError "Connection in recovery"

/-- Requests of callers that have given up are dropped. -/
def tryRequest (conn : ClusterConn Conn) (request : PendingRequest Conn) : ClusterConn Conn :=
  if conn.isClosed request.sender then conn else conn.push ⟨some request, .future⟩

def bufferPendingRequest (cap : Nat) (conn : ClusterConn Conn) (request : PendingRequest Conn) :
    ClusterConn Conn :=
  if conn.isClosed request.sender then conn
  else if conn.recoveryQueue.length < cap then
    { conn with recoveryQueue := conn.recoveryQueue ++ [request] }
  else conn.send (request.sender, .error connectionInRecovery)

def reclaimRecoveryQueue (cap : Nat) (conn : ClusterConn Conn) : ClusterConn Conn :=
  if cap ≤ conn.recoveryQueue.length then
    { conn with
      recoveryQueue := conn.recoveryQueue.filter fun request => !conn.isClosed request.sender }
  else conn

def bufferPendingRequestsToRecoveryQueue (cap : Nat) (conn : ClusterConn Conn) :
    ClusterConn Conn :=
  conn.pendingRequests.foldl (bufferPendingRequest cap)
    (reclaimRecoveryQueue cap { conn with pendingRequests := [] })

def failRequest (conn : ClusterConn Conn) (request : PendingRequest Conn) : ClusterConn Conn :=
  conn.send (request.sender, .error connectionInRecovery)

def failPendingRequests (conn : ClusterConn Conn) : ClusterConn Conn :=
  conn.pendingRequests.foldl failRequest { conn with pendingRequests := [] }

def failRecoveryQueue (conn : ClusterConn Conn) : ClusterConn Conn :=
  conn.recoveryQueue.foldl failRequest { conn with recoveryQueue := [] }

def drainRecoveryQueueToInflight (conn : ClusterConn Conn) : ClusterConn Conn :=
  conn.recoveryQueue.foldl tryRequest { conn with recoveryQueue := [] }

/-- Some request in flight gets the error of the last refresh, or else the next one that waits. -/
def sendRefreshError (conn : ClusterConn Conn) (position : Nat) : Option (ClusterConn Conn) :=
  match conn.refreshError with
  | none => some conn
  | some error =>
    if conn.inFlightRequests.any fun request => request.request.isSome then
      match conn.inFlightRequests[position]? with
      | some ⟨some request, state⟩ =>
        some (send
          { conn with
            refreshError := none
            inFlightRequests := conn.inFlightRequests.set position ⟨none, state⟩ }
          (request.sender, .error error))
      | _ => none
    else
      match conn.pendingRequests with
      | [] => some conn
      | request :: rest =>
        some (send { conn with refreshError := none, pendingRequests := rest }
          (request.sender, .error error))

abbrev Recovered (Conn : Type) := Option (RedisResult Unit) × ClusterConn Conn

def reconnectAfterRefresh (conn : ClusterConn Conn) (error : RedisError) : Recovered Conn :=
  (some (.error error),
    { conn.failRecoveryQueue with state := .recover .reconnectToInitialNodes })

def recovered (conn : ClusterConn Conn) : Recovered Conn :=
  (some (.ok ()), { conn with state := .pollComplete })

/-- The slot refresh is tried again unless no connection is left. -/
def pollRecover (conn : ClusterConn Conn) (poll : RecoverPoll) : Option (Recovered Conn) :=
  match conn.state, poll with
  | .pollComplete, _ => some (some (.ok ()), conn)
  | .recover _, .pending => some (none, conn)
  | .recover .refreshingSlots, .refreshed (.ok ()) => some conn.recovered
  | .recover .refreshingSlots, .refreshed (.error error) =>
    if error.kind = .allConnectionsUnavailable then some (conn.reconnectAfterRefresh error)
    else some (none, conn)
  | .recover .refreshingSlots, .cancelled => some conn.recovered
  | .recover .refreshingSlots, .panicked detail =>
    some (conn.reconnectAfterRefresh
      (.withDescriptionAndDetail .clientError "Slot refresh task panicked" detail))
  | .recover .refreshingSlots, .ended => none
  | .recover _, .refreshed _ => none
  | .recover _, .ended => some conn.recovered
  | .recover _, .cancelled => some conn.recovered
  | .recover _, .panicked _ => some conn.recovered

/-- Requests that wait are failed at once while connecting to the initial nodes. -/
def holdPendingRequests (params : ClusterParams) (conn : ClusterConn Conn) : ClusterConn Conn :=
  if conn.state = .recover .reconnect ∨ conn.state = .recover .refreshingSlots then
    conn.bufferPendingRequestsToRecoveryQueue params.cap
  else conn.failPendingRequests

/-! ## Polling requests -/

def startPendingRequests (conn : ClusterConn Conn) : ClusterConn Conn :=
  conn.pendingRequests.foldl tryRequest { conn with pendingRequests := [] }

def beginFlush (params : ClusterParams) (conn : ClusterConn Conn) (position : Nat)
    (poll : RecoverPoll) : Option (ClusterConn Conn) :=
  match conn.sendRefreshError position with
  | none => none
  | some conn =>
    match conn.pollRecover poll with
    | none => none
    | some (none, conn) => some (conn.holdPendingRequests params)
    | some (some (.error error), conn) =>
      some { conn.holdPendingRequests params with refreshError := some error }
    | some (some (.ok ()), conn) =>
      some { conn.drainRecoveryQueueToInflight.startPendingRequests with
        completing := some .none }

def requeue (conn : ClusterConn Conn) : Option (PendingRequest Conn) → ClusterConn Conn
  | some request => { conn with pendingRequests := conn.pendingRequests ++ [request] }
  | none => conn

def noteAction (conn : ClusterConn Conn) (action : PollFlushAction) : ClusterConn Conn :=
  { conn with completing := conn.completing.map (·.changeState action) }

def handleNext (conn : ClusterConn Conn) : Next Conn → ClusterConn Conn
  | .done => conn
  | .retry request => conn.push ⟨some request, .future⟩
  | .retryBusyLoadingError request _ => conn.push ⟨some request, .future⟩
  | .refreshSlots request sleeps movedRedirect =>
    let conn := conn.noteAction .rebuildSlots
    match movedRedirect, request with
    | some redirect, request => conn.push ⟨request, .updateMoved redirect⟩
    | none, some request => conn.push ⟨some request, if sleeps then .sleep else .future⟩
    | none, none => conn
  | .reconnect request target => (conn.noteAction (.reconnect [target])).requeue request
  | .reconnectToInitialNodes request =>
    (conn.noteAction .reconnectFromInitialConnections).requeue request

def afterPoll (conn : ClusterConn Conn) (position : Nat) : PollResult Conn → ClusterConn Conn
  | .pending request =>
    { conn with inFlightRequests := conn.inFlightRequests.set position request }
  | .ready next answer =>
    let conn := { conn with inFlightRequests := conn.inFlightRequests.eraseIdx position }
    (answer.elim conn conn.send).handleNext next

def pollInFlight (context : PollContext) (params : ClusterParams) (conn : ClusterConn Conn)
    (position : Nat) (polled : Polled) : Option (ClusterConn Conn) :=
  match conn.completing, conn.inFlightRequests[position]? with
  | some _, some request =>
    (request.poll context params.numberOfRetries conn.isClosed polled).map
      (conn.afterPoll position)
  | _, _ => none

def endFlush (conn : ClusterConn Conn) : Option (ClusterConn Conn) :=
  match conn.completing with
  | none => none
  | some .none => some { conn with completing := none }
  | some .rebuildSlots =>
    some { conn with completing := none, state := .recover .refreshingSlots }
  | some .reconnectFromInitialConnections =>
    some { conn with completing := none, state := .recover .reconnectToInitialNodes }
  | some (.reconnect _) => some { conn with completing := none, state := .recover .reconnect }

/-! ## Steps -/

inductive Action (Conn : Type) where
  | submit (sender : Nat) (info : RequestInfo Conn)
  | giveUp (sender : Nat)
  | beginFlush (position : Nat) (poll : RecoverPoll)
  | poll (context : PollContext) (position : Nat) (polled : Polled)
  | endFlush

def step (params : ClusterParams) (conn : ClusterConn Conn) :
    Action Conn → Option (ClusterConn Conn)
  | .submit sender info =>
    if sender ∈ conn.submitted then none
    else
      some
        { conn with
          submitted := conn.submitted ++ [sender]
          pendingRequests := conn.pendingRequests ++ [⟨0, sender, info⟩] }
  | .giveUp sender => some { conn with closed := conn.closed ++ [sender] }
  | .beginFlush position poll =>
    if conn.completing.isSome then none else conn.beginFlush params position poll
  | .poll context position polled => conn.pollInFlight context params position polled
  | .endFlush => conn.endFlush

end ClusterConn

end ValkeyGlide.Cluster
