import ValkeyGlide.Pipeline.Plan
import ValkeyGlide.Foundation.Run

/-!
# The rounds of a pipeline

The node pipelines are sent and their answers put back in their places; commands
that failed in a way that can be retried are placed again for a next round
(`cluster_async/pipeline_routing.rs`).

What a node, a lookup of a connection or an update of the slot map answers is
part of the round.  Hash maps are visited in any order.
-/

namespace ValkeyGlide.Pipeline

open Foundation Protocol Cluster

/-- The order in which the entries of a hash map are visited. -/
structure MapOrder (Entry : Type) where
  visit : List Entry → List Entry
  perm : ∀ entries, (visit entries).Perm entries

structure PipelineTexts extends RedirectTexts where
  kindText : ErrorKind → String
  ioText : IoErrorKind → String
  display : ServerError → String
  debugCmd : Cmd → String
  debugSlots : RouteIndices → String
  debugRecvError : String

structure PipelineRetryStrategy where
  retryServerError : Bool
  retryConnectionError : Bool
  deriving DecidableEq, Repr

/-! ## Responses -/

abbrev NodeResponse := Option String × Value

abbrev PipelineResponses := List (List NodeResponse)

def noResponse : NodeResponse :=
  (none, .serverError (.extensionError "PipelineNoResponse" (some "no response from node")))

def cannotOverride : OperationTarget × RedisError :=
  (.fatalError,
    .withDescription .clientError "Existing response is not a ServerError; cannot override.")

def indexNotFound : OperationTarget × RedisError :=
  (.fatalError, .withDescription .clientError "Index not found in pipeline responses")

def placeResponse (responses : List NodeResponse) (innerIndex : Option Nat)
    (response : NodeResponse) : OperationResult (List NodeResponse) :=
  match innerIndex with
  | some innerIndex =>
    let missing := innerIndex + 1 - responses.length
    .ok ((responses ++ List.replicate missing noResponse).set innerIndex response)
  | none =>
    match responses with
    | [] => .ok [response]
    | (_, .serverError _) :: rest => .ok (response :: rest)
    | _ => .error cannotOverride

def addPipelineResult (pipelineResponses : PipelineResponses) (index : Nat)
    (innerIndex : Option Nat) (value : Value) (address : String) :
    OperationResult PipelineResponses :=
  match pipelineResponses[index]? with
  | none => .error indexNotFound
  | some responses =>
    match placeResponse responses innerIndex (some address, value) with
    | .ok placed => .ok (pipelineResponses.set index placed)
    | .error error => .error error

/-! ## Failed commands -/

structure RetryEntry where
  index : Nat
  innerIndex : Option Nat
  address : String
  error : ServerError
  deriving DecidableEq, Repr

abbrev RetryMap := List (RetryMethod × List RetryEntry)

def effectiveRetryMethod (strategy : PipelineRetryStrategy) : RetryMethod → Option RetryMethod
  | .noRetry => none
  | .reconnect => some (if strategy.retryConnectionError then .reconnectAndRetry else .reconnect)
  | .reconnectAndRetry => some .reconnectAndRetry
  | .askRedirect => some .askRedirect
  | .movedRedirect => some .movedRedirect
  | .refreshSlotsAndRetry => none
  | .retryImmediately => if strategy.retryServerError then some .retryImmediately else none
  | .waitAndRetry => if strategy.retryServerError then some .waitAndRetry else none
  | .waitAndRetryOnPrimaryRedirectOnReplica =>
    if strategy.retryServerError then some .waitAndRetryOnPrimaryRedirectOnReplica else none

def updateRetryMap (strategy : PipelineRetryStrategy) (retryMap : RetryMap)
    (retryMethod : RetryMethod) (entry : RetryEntry) : RetryMap :=
  match effectiveRetryMethod strategy retryMethod with
  | none => retryMap
  | some method => pushTo retryMap method entry

/-- What came of a node pipeline; `dropped` when its sender was dropped. -/
inductive SubPipelineResult where
  | dropped
  | answered (result : RedisResult Response)

def ofRedisError (texts : PipelineTexts) : RedisError → ServerError
  | .extensionError code detail => .extensionError code (some detail)
  | .withDescription kind description =>
    match kind.toServerErrorKind with
    | some mapped => .knownError mapped (some description)
    | none => .extensionError (texts.kindText kind) (some description)
  | .withDescriptionAndDetail kind description detail =>
    match kind.toServerErrorKind with
    | some mapped => .knownError mapped (some s!"{description} {detail}")
    | none => .extensionError (texts.kindText kind) (some s!"{description} {detail}")
  | .ioError kind => .extensionError "IoError" (some (texts.ioText kind))

structure Answered where
  placed : PlacedCommand
  value : Value
  retryMethod : RetryMethod

def answerTo (placed : PlacedCommand) (value : Value) : Answered :=
  match value with
  | .serverError error => ⟨placed, value, error.toRedisError.retryMethod⟩
  | _ => ⟨placed, value, .noRetry⟩

def failAll (commands : List PlacedCommand) (error : ServerError) (retryMethod : RetryMethod) :
    List Answered :=
  commands.map fun placed => ⟨placed, .serverError error, retryMethod⟩

def answersOf (texts : PipelineTexts) (strategy : PipelineRetryStrategy)
    (commands : List PlacedCommand) : SubPipelineResult → List Answered
  | .answered (.ok (.multiple values)) => List.zipWith answerTo commands values
  | .answered (.ok (.single _)) =>
    failAll commands
      (.extensionError "SingleResponseError"
        (some "Received a single response for a pipeline with multiple commands."))
      .noRetry
  | .answered (.ok .clusterScanResult) =>
    failAll commands
      (.extensionError "ClusterScanError"
        (some "Received a cluster scan result inside a pipeline."))
      .noRetry
  | .answered (.error error) => failAll commands (ofRedisError texts error) error.retryMethod
  | .dropped =>
    failAll commands
      (.extensionError "BrokenPipe"
        (some ("Cluster: Failed to receive command response from internal sender. " ++
          texts.debugRecvError)))
      (if strategy.retryConnectionError then .reconnectAndRetry else .reconnect)

structure Processing where
  responses : PipelineResponses
  retryMap : RetryMap

def keepFailure (strategy : PipelineRetryStrategy) (address : String) (retryMap : RetryMap)
    (answer : Answered) : RetryMap :=
  match answer.value with
  | .serverError error =>
    updateRetryMap strategy retryMap answer.retryMethod
      ⟨answer.placed.index, answer.placed.innerIndex, address, error⟩
  | _ => retryMap

def processAnswer (strategy : PipelineRetryStrategy) (address : String) (state : Processing)
    (answer : Answered) : OperationResult Processing :=
  let placed := answer.placed
  let retryMap := keepFailure strategy address state.retryMap answer
  if placed.ignore then .ok ⟨state.responses, retryMap⟩
  else
    match addPipelineResult state.responses placed.index placed.innerIndex answer.value address with
    | .ok responses => .ok ⟨responses, retryMap⟩
    | .error error => .error error

def processPipelineResponses (texts : PipelineTexts) (strategy : PipelineRetryStrategy)
    (responses : PipelineResponses) (sent : NodePipelineMap) (results : List SubPipelineResult) :
    OperationResult Processing :=
  (sent.zip results).foldlM
    (fun state node =>
      (answersOf texts strategy node.1.2 node.2).foldlM (processAnswer strategy node.1.1) state)
    ⟨responses, []⟩

/-! ## Placing failed commands again -/

structure PipelineRequest where
  texts : PipelineTexts
  strategy : PipelineRetryStrategy
  numberOfRetries : Nat
  pipeline : List Cmd
  policies : ResponsePolicies

/--
What a round brings: the results of the node pipelines in the order they were
sent, and what happens to the failed command at a place in the list of its
method.
-/
structure Round where
  results : List SubPipelineResult
  methodOrder : MapOrder (RetryMethod × List RetryEntry)
  nodeOrder : MapOrder (String × List PlacedCommand)
  getConnection : RetryMethod → Nat → RedisResult String
  isCircularMoved : Nat → Bool
  updateUponMovedError : Nat → RedisResult Unit

def appendDetail (texts : PipelineTexts) (error other : ServerError) : ServerError :=
  let extended : Option String → String := fun
    | some existing => existing ++ "; " ++ texts.display other
    | none => texts.display other
  match error with
  | .extensionError code detail => .extensionError code (some (extended detail))
  | .knownError kind detail => .knownError kind (some (extended detail))

def originalIndexError (detail : String) : ServerError :=
  .extensionError "IndexNotFoundInPipelineResponses" (some detail)

def getOriginalCmd (request : PipelineRequest) (index : Nat) (innerIndex : Option Nat) :
    Except ServerError Cmd :=
  match request.pipeline[index]? with
  | none => .error (originalIndexError s!"Index {index} was not found in pipeline")
  | some cmd =>
    match innerIndex, request.policies.lookup index with
    | some innerIndex, some (.multiSlot slots _, _) =>
      match slots[innerIndex]? with
      | some slot => .ok (commandForMultiSlotIndices cmd slot.2)
      | none =>
        .error (originalIndexError
          (s!"Inner index {innerIndex} for multi-slot command " ++ request.texts.debugCmd cmd ++
            " was not found in command slots " ++ request.texts.debugSlots slots))
    | _, _ => .ok cmd

structure Retrying where
  responses : PipelineResponses
  map : NodePipelineMap

section Retry

variable (request : PipelineRequest) (round : Round)

def recordFailure (state : Retrying) (entry : RetryEntry) (failure : ServerError) :
    OperationResult Retrying :=
  match addPipelineResult state.responses entry.index entry.innerIndex
    (.serverError (appendDetail request.texts entry.error failure)) entry.address with
  | .ok responses => .ok { state with responses := responses }
  | .error error => .error error

def retryCommand (addAsking : Bool) (connection : RedisResult String) (state : Retrying)
    (entry : RetryEntry) : OperationResult Retrying :=
  match getOriginalCmd request entry.index entry.innerIndex with
  | .error failure => recordFailure request state entry failure
  | .ok cmd =>
    match connection with
    | .ok address =>
      .ok { state with
        map := addCommandToNodePipelineMap state.map address cmd entry.index entry.innerIndex
          addAsking }
    | .error error => recordFailure request state entry (ofRedisError request.texts error)

def appendCommandsToRetry (method : RetryMethod) (state : Retrying)
    (entries : List (RetryEntry × Nat)) : OperationResult Retrying :=
  entries.foldlM
    (fun state entry => retryCommand request false (round.getConnection method entry.2) state entry.1)
    state

/-- Why a redirect cannot be followed; a moved slot is put into the slot map first. -/
def redirectFailure (method : RetryMethod) (entry : RetryEntry × Nat) : Option ServerError :=
  match method, redirectNode request.texts.toRedirectTexts entry.1.error.toRedisError with
  | .movedRedirect, some _ =>
    match round.updateUponMovedError entry.2 with
    | .ok () => none
    | .error error => some (ofRedisError request.texts error)
  | .movedRedirect, none =>
    some (.extensionError "ParsingError" (some "Failed to parse MOVED error"))
  | _, some _ => none
  | _, none => some (.extensionError "RedirectError" (some "Failed to find redirect info"))

def redirectCommand (method : RetryMethod) (state : Retrying) (entry : RetryEntry × Nat) :
    OperationResult Retrying :=
  match redirectFailure request round method entry with
  | some failure => recordFailure request state entry.1 failure
  | none =>
    retryCommand request (method == .askRedirect) (round.getConnection method entry.2) state entry.1

/-- A redirect to the node itself is a reason to reconnect, not to redirect. -/
def isPipelineCircularMovedRedirect (method : RetryMethod) (entry : RetryEntry × Nat) : Bool :=
  method == .movedRedirect && round.isCircularMoved entry.2

def handleRedirectLogic (method : RetryMethod) (state : Retrying) (entries : List RetryEntry) :
    OperationResult Retrying := do
  let circular := entries.zipIdx.filter (isPipelineCircularMovedRedirect round method)
  let normal := entries.zipIdx.filter (!isPipelineCircularMovedRedirect round method ·)
  let state ← appendCommandsToRetry request round method state circular
  normal.foldlM (redirectCommand request round method) state

def handleRetryMethod (state : Retrying) (group : RetryMethod × List RetryEntry) :
    OperationResult Retrying :=
  match group.1 with
  | .noRetry | .refreshSlotsAndRetry | .reconnect => .ok state
  | .reconnectAndRetry | .retryImmediately | .waitAndRetry
  | .waitAndRetryOnPrimaryRedirectOnReplica =>
    appendCommandsToRetry request round group.1 state group.2.zipIdx
  | .movedRedirect | .askRedirect => handleRedirectLogic request round group.1 state group.2

def handleRetryMap (responses : PipelineResponses) (retryMap : RetryMap) :
    OperationResult Retrying :=
  (round.methodOrder.visit retryMap).foldlM (handleRetryMethod request round) ⟨responses, []⟩

end Retry

/-! ## The loop -/

inductive PipelineState where
  | waiting (retry : Nat) (sent : NodePipelineMap) (responses : PipelineResponses)
  | finished (responses : PipelineResponses)
  | failed (error : OperationTarget × RedisError)

namespace PipelineRequest

def start (request : PipelineRequest) (order : MapOrder (String × List PlacedCommand))
    (map : NodePipelineMap) : PipelineState :=
  .waiting 0 (order.visit map) (List.replicate request.pipeline.length [])

def step (request : PipelineRequest) : PipelineState → Round → Option PipelineState
  | .waiting retry sent responses, round =>
    if round.results.length = sent.length then
      match processPipelineResponses request.texts request.strategy responses sent round.results with
      | .error error => some (.failed error)
      | .ok processed =>
        if processed.retryMap.isEmpty ∨ request.numberOfRetries ≤ retry then
          some (.finished processed.responses)
        else
          match handleRetryMap request round processed.responses processed.retryMap with
          | .error error => some (.failed error)
          | .ok retrying =>
            some (.waiting (retry + 1) (round.nodeOrder.visit retrying.map)
              retrying.responses)
    else none
  | .finished _, _ => none
  | .failed _, _ => none

end PipelineRequest

/-! ## The answer -/

abbrev AggregateResolvedResults :=
  List NodeResponse → MultipleNodeRoutingInfo → Option ResponsePolicy → RedisResult Value

def aggregatedValue (texts : PipelineTexts) : RedisResult Value → Value
  | .ok value => value
  | .error error => .serverError (ofRedisError texts error)

def aggregatePipelineMultiNodeCommands (texts : PipelineTexts) (aggregate : AggregateResolvedResults)
    (pipelineResponses : PipelineResponses) (policies : ResponsePolicies) : List Value :=
  pipelineResponses.mapIdx fun index responses =>
    match policies.lookup index with
    | some (routing, policy) => aggregatedValue texts (aggregate responses routing policy)
    | none =>
      match responses with
      | [response] => response.2
      | _ =>
        .serverError (.extensionError "PipelineResponseError"
          (some s!"Expected exactly one response for command {index}, got {responses.length}"))

end ValkeyGlide.Pipeline
