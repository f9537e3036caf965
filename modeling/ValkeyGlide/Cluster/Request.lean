import ValkeyGlide.Cluster.Operation
import ValkeyGlide.Cluster.Routing

/-!
# Requests in flight

A request of the cluster event loop with its own sender, and what becomes of it
when an attempt ends (`Request::poll` in `cluster_async/mod.rs`).  Durations are
left out, and so is what a request asks for apart from its route; how an attempt
ends is an argument.
-/

namespace ValkeyGlide.Cluster

open Protocol

structure RedirectNode where
  address : String
  slot : Nat
  deriving DecidableEq, Repr

inductive Redirect where
  | moved (address : String)
  | ask (address : String) (shouldExecAsking : Bool)
  deriving DecidableEq, Repr

inductive InternalSingleNodeRouting (Conn : Type) where
  | random
  | specificNode (route : Route)
  | byAddress (address : String)
  | connection (address : String) (conn : Conn)
  | redirect (redirect : Redirect) (previousRouting : InternalSingleNodeRouting Conn)

inductive InternalRoutingInfo (Conn : Type) where
  | singleNode (routing : InternalSingleNodeRouting Conn)
  | multiNode (routing : MultipleNodeRoutingInfo) (policy : Option ResponsePolicy)

inductive CmdArg (Conn : Type) where
  | cmd (routing : InternalRoutingInfo Conn)
  | pipeline (route : Option (InternalSingleNodeRouting Conn))
  | clusterScan
  | operationRequest

structure RequestInfo (Conn : Type) where
  cmd : CmdArg Conn

variable {Conn : Type}

namespace RequestInfo

/-- `none` is a panic. -/
def setRedirect (info : RequestInfo Conn) : Option Redirect → Option (RequestInfo Conn)
  | none => some info
  | some redirect =>
    match info.cmd with
    | .cmd (.singleNode route) => some ⟨.cmd (.singleNode (.redirect redirect route))⟩
    | .cmd (.multiNode _ _) => none
    | .pipeline route => some ⟨.pipeline (some (.redirect redirect (route.getD .random)))⟩
    | .clusterScan => none
    | .operationRequest => none

def fixRoute : InternalSingleNodeRouting Conn → InternalSingleNodeRouting Conn
  | .redirect _ previousRouting => previousRouting
  | .connection address _ => .byAddress address
  | route => route

def resetRouting (info : RequestInfo Conn) : Option (RequestInfo Conn) :=
  match info.cmd with
  | .cmd (.singleNode route) => some ⟨.cmd (.singleNode (fixRoute route))⟩
  | .cmd (.multiNode _ _) => some info
  | .pipeline route => some ⟨.pipeline (route.map fixRoute)⟩
  | .clusterScan => none
  | .operationRequest => none

end RequestInfo

/-- `sender` is the number of the channel on which the caller waits for the result. -/
structure PendingRequest (Conn : Type) where
  retry : Nat
  sender : Nat
  info : RequestInfo Conn

inductive RequestState where
  | future
  | sleep
  | updateMoved (redirect : RedirectNode)
  deriving DecidableEq, Repr

structure Request (Conn : Type) where
  request : Option (PendingRequest Conn)
  state : RequestState

/-- What the event loop is to do next; without a request nothing is sent afterwards. -/
inductive Next (Conn : Type) where
  | retry (request : PendingRequest Conn)
  | retryBusyLoadingError (request : PendingRequest Conn) (address : String)
  | reconnect (request : Option (PendingRequest Conn)) (target : String)
  | refreshSlots (request : Option (PendingRequest Conn)) (sleeps : Bool)
      (movedRedirect : Option RedirectNode)
  | reconnectToInitialNodes (request : Option (PendingRequest Conn))
  | done

inductive Polled where
  | attempted (result : OperationResult Response)
  | slept
  | updatedMoved (result : RedisResult Unit)

structure PollContext where
  texts : RedirectTexts
  reverseLookupAddress : String → Option String
  addressResolver : String → String

namespace PollContext

/-- No address is known by another name. -/
def plain : PollContext where
  texts := ⟨fun _ => [], fun _ => none⟩
  reverseLookupAddress _ := none
  addressResolver address := address

def resolveAddress (context : PollContext) (address : String) : String :=
  (context.reverseLookupAddress address).getD (context.addressResolver address)

def movedRedirect (context : PollContext) (error : RedisError) : Option RedirectNode :=
  (redirectNode context.texts error).map fun node => ⟨context.resolveAddress node.1, node.2⟩

def normalize (context : PollContext) (address : String) : String :=
  (context.reverseLookupAddress address).getD address

def isCircularMovedRedirect (context : PollContext) (redirect : Option RedirectNode)
    (currentAddress : String) : Bool :=
  redirect.any fun node => context.normalize node.address == context.normalize currentAddress

end PollContext

abbrev Answer := Nat × RedisResult Response

inductive PollResult (Conn : Type) where
  | pending (request : Request Conn)
  | ready (next : Next Conn) (answer : Option Answer)

namespace Request

section Failed

variable (context : PollContext)

def lastNext (target : OperationTarget) (error : RedisError) : Next Conn :=
  if error.kind = .allConnectionsUnavailable then .reconnectToInitialNodes none
  else if error.retryMethod = .movedRedirect ∨ error.retryMethod = .refreshSlotsAndRetry ∨
      target = .notFound then
    .refreshSlots none false (context.movedRedirect error)
  else if error.retryMethod = .reconnect ∨ error.retryMethod = .reconnectAndRetry then
    match target with
    | .node address => .reconnect none address
    | _ => .done
  else .done

def respond (request : PendingRequest Conn) (result : RedisResult Response) (next : Next Conn) :
    Option (PollResult Conn) :=
  some (.ready next (some (request.sender, result)))

def goOn (next : Next Conn) : Option (PollResult Conn) := some (.ready next none)

/-- The request goes on with its route reset, which panics for requests without one. -/
def resetAnd (request : PendingRequest Conn) (next : PendingRequest Conn → Next Conn) :
    Option (PollResult Conn) :=
  match request.info.resetRouting with
  | some info => goOn (next { request with info := info })
  | none => none

def redirectAnd (request : PendingRequest Conn) (redirect : Option Redirect)
    (next : PendingRequest Conn → Next Conn) : Option (PollResult Conn) :=
  match request.info.setRedirect redirect with
  | some info => goOn (next { request with info := info })
  | none => none

def retryOnNode (request : PendingRequest Conn) (address : String) (error : RedisError) :
    Option (PollResult Conn) :=
  match error.retryMethod with
  | .askRedirect =>
    redirectAnd request
      ((redirectNode context.texts error).map fun node =>
        .ask (context.resolveAddress node.1) true)
      .retry
  | .movedRedirect =>
    let redirect := context.movedRedirect error
    if context.isCircularMovedRedirect redirect address then
      resetAnd request fun request => .reconnect (some request) address
    else
      redirectAnd request (redirect.map fun node => .moved node.address) fun request =>
        .refreshSlots (some request) false redirect
  | .refreshSlotsAndRetry =>
    resetAnd request fun request => .refreshSlots (some request) true none
  | .waitAndRetry => some (.pending ⟨some request, .sleep⟩)
  | .reconnect =>
    -- the request is not passed on, and its sender is dropped with it
    resetAnd request fun _ => .reconnect none address
  | .reconnectAndRetry => resetAnd request fun request => .reconnect (some request) address
  | .waitAndRetryOnPrimaryRedirectOnReplica => goOn (.retryBusyLoadingError request address)
  | .retryImmediately => goOn (.retry request)
  | .noRetry => respond request (.error error) .done

def pollFailed (numberOfRetries : Nat) (request : PendingRequest Conn)
    (target : OperationTarget) (error : RedisError) : Option (PollResult Conn) :=
  if numberOfRetries ≤ request.retry then
    respond request (.error error) (lastNext context target error)
  else
    let request := { request with retry := request.retry + 1 }
    if error.kind = .allConnectionsUnavailable then goOn (.reconnectToInitialNodes (some request))
    else
      match target with
      | .node address => retryOnNode context request address error
      | .fanOut =>
        if error.kind = .connectionNotFoundForRoute then
          resetAnd request fun request => .refreshSlots (some request) true none
        else respond request (.error error) .done
      | .notFound => resetAnd request fun request => .refreshSlots (some request) true none
      | .fatalError => respond request (.error error) .done

end Failed

/-- `none` when the future is not in the state to end like this, and on a panic. -/
def poll (context : PollContext) (numberOfRetries : Nat) (isClosed : Nat → Bool)
    (request : Request Conn) (polled : Polled) : Option (PollResult Conn) :=
  match request.request with
  | none => goOn .done
  | some pending =>
    if isClosed pending.sender then goOn .done
    else
      match request.state, polled with
      | .sleep, .slept => goOn (.retry pending)
      | .updateMoved _, .updatedMoved _ => goOn (.retry pending)
      | .future, .attempted (.ok response) => respond pending (.ok response) .done
      | .future, .attempted (.error (target, error)) =>
        pollFailed context numberOfRetries pending target error
      | _, _ => none

end Request

end ValkeyGlide.Cluster
