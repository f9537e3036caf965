import ValkeyGlide.Protocol.Value

/-!
# The multiplexed connection

The sink of a multiplexed connection (`multiplexed_connection.rs`): requests of many
callers are written to one socket, and the replies are handed back to the callers in
the order of the requests.  A caller is known by the number of its one-shot channel.
What the sink does to the outside is returned as a list of effects.
-/

namespace ValkeyGlide.Connection

open Protocol

inductive ResponseAggregate where
  | singleCommand
  | pipeline (expectedResponseCount currentResponseCount : Nat) (buffer : List Value)
      (firstErr : Option RedisError) (isTransaction : Bool)

def ResponseAggregate.new (pipelineResponseCount : Option Nat) (isTransaction : Bool) :
    ResponseAggregate :=
  match pipelineResponseCount with
  | some responseCount => .pipeline responseCount 0 [] none isTransaction
  | none => .singleCommand

structure InFlight where
  output : Nat
  responseAggregate : ResponseAggregate
  isFenced : Bool
  fencedResult : Option (RedisResult Value)

structure PipelineMessage where
  output : Nat
  pipelineResponseCount : Option Nat
  isTransaction : Bool
  isFenced : Bool

def PipelineMessage.entry (message : PipelineMessage) : InFlight :=
  ⟨message.output, .new message.pipelineResponseCount message.isTransaction, message.isFenced,
    none⟩

structure PipelineSink where
  inFlight : List InFlight
  error : Option RedisError
  responseSyncLost : Bool
  hasCache : Bool

inductive SinkEffect where
  | send (output : Nat) (result : RedisResult Value)
  | pushRaw (value : Value)
  | invalidate (key : Bytes)
  | flushAll

inductive SendOutcome where
  | skipped
  | written
  | failed
  deriving DecidableEq, Repr

def syncLostError : RedisError :=
  .withDescription .protocolDesync
    "Response synchronization lost - connection must be reestablished"

namespace PipelineSink

def new (hasCache : Bool) : PipelineSink := ⟨[], none, false, hasCache⟩

/-! ## Reading -/

def invalidations (data : List Value) : List SinkEffect :=
  match data with
  | .array keys :: _ =>
    keys.filterMap fun key =>
      match key with
      | .bulkString key => some (.invalidate key)
      | .verbatimString _ text => some (.invalidate (bytes text))
      | _ => none
  | .nil :: _ => [.flushAll]
  | _ => []

def pushEffects (sink : PipelineSink) (kind : PushKind) (data : List Value) : List SinkEffect :=
  .pushRaw (.push kind data) ::
    if kind = .invalidate ∧ sink.hasCache then invalidations data else []

def handleFencedFirstResponse (sink : PipelineSink) (entry : InFlight) (result : RedisResult Value) :
    PipelineSink × List SinkEffect :=
  let store := ({ sink with
    inFlight := { entry with fencedResult := some result } :: sink.inFlight }, [])
  match result with
  | .ok (.simpleString text) =>
    if text = "PONG" ∨ text = "pong" then (sink, [.send entry.output (.ok .nil)]) else store
  | _ => store

section Fence

variable (debug : RedisResult Value → String)

def fenceError (pongResult : RedisResult Value) : RedisError :=
  .withDescriptionAndDetail .protocolDesync
    "Expected PONG for fenced command but received different response"
    ("Response synchronization lost. Got: " ++ debug pongResult)

def handleFencedSecondResponse (sink : PipelineSink) (entry : InFlight)
    (pongResult storedResult : RedisResult Value) : PipelineSink × List SinkEffect :=
  let lost := ({ sink with responseSyncLost := true },
    [.send entry.output (.error (fenceError debug pongResult))])
  match pongResult with
  | .ok (.simpleString text) =>
    if text = "PONG" then (sink, [.send entry.output (storedResult.bind Value.extractError)])
    else lost
  | _ => lost

def handleFencedCommand (sink : PipelineSink) (entry : InFlight) (result : RedisResult Value) :
    PipelineSink × List SinkEffect :=
  match entry.fencedResult with
  | some storedResult => sink.handleFencedSecondResponse debug entry result storedResult
  | none => sink.handleFencedFirstResponse entry result

end Fence

def accumulate (buffer : List Value) (firstErr : Option RedisError) (isTransaction : Bool) :
    RedisResult Value → List Value × Option RedisError
  | .ok (.serverError error) =>
    if isTransaction then (buffer, firstErr <|> some error.toRedisError)
    else (buffer ++ [.serverError error], firstErr)
  | .ok item => (buffer ++ [item], firstErr)
  | .error error => (buffer, firstErr <|> some error)

section Read

variable (debug : RedisResult Value → String)

def answer (sink : PipelineSink) (result : RedisResult Value) : PipelineSink × List SinkEffect :=
  match sink.inFlight with
  | [] => (sink, [])
  | entry :: rest =>
    let popped := { sink with inFlight := rest }
    if entry.isFenced then popped.handleFencedCommand debug entry result
    else
      match entry.responseAggregate with
      | .singleCommand => (popped, [.send entry.output (result.bind Value.extractError)])
      | .pipeline expected current buffer firstErr isTransaction =>
        let (buffer, firstErr) := accumulate buffer firstErr isTransaction result
        if current + 1 < expected then
          let entry := { entry with
            responseAggregate := .pipeline expected (current + 1) buffer firstErr isTransaction }
          ({ sink with inFlight := entry :: rest }, [])
        else
          let response :=
            match firstErr with
            | some error => .error error
            | none => .ok (.array buffer)
          (popped, [.send entry.output response])

def sendResult (sink : PipelineSink) (result : RedisResult Value) :
    PipelineSink × List SinkEffect :=
  if sink.responseSyncLost then
    match sink.inFlight with
    | [] => (sink, [])
    | entry :: rest =>
      ({ sink with inFlight := rest }, [.send entry.output (.error syncLostError)])
  else
    match result with
    | .ok (.push kind data) =>
      if kind.hasReply then
        let (answered, effects) := sink.answer debug result
        (answered, sink.pushEffects kind data ++ effects)
      else (sink, sink.pushEffects kind data)
    | _ => sink.answer debug result

end Read

/-! ## Writing -/

/--
`isClosed` says that nobody waits for the output any more, `socket` what writing to the
socket gives.
-/
def startSend (sink : PipelineSink) (message : PipelineMessage) (isClosed : Bool)
    (socket : RedisResult Unit) : PipelineSink × List SinkEffect × SendOutcome :=
  if isClosed then (sink, [], .skipped)
  else
    match sink.error with
    | some error => ({ sink with error := none }, [.send message.output (.error error)], .failed)
    | none =>
      if sink.responseSyncLost then
        (sink, [.send message.output (.error syncLostError)], .failed)
      else
        match socket with
        | .ok () => ({ sink with inFlight := sink.inFlight ++ [message.entry] }, [], .written)
        | .error error => (sink, [.send message.output (.error error)], .failed)

theorem startSend_cases (sink : PipelineSink) (message : PipelineMessage) (isClosed : Bool)
    (socket : RedisResult Unit) :
    (∃ error effects outcome, outcome ≠ SendOutcome.written ∧
      (∀ effect ∈ effects, ∃ error, effect = .send message.output (.error error)) ∧
      sink.startSend message isClosed socket = ({ sink with error := error }, effects, outcome)) ∨
    sink.responseSyncLost = false ∧ socket = .ok () ∧ sink.startSend message isClosed socket =
      ({ sink with inFlight := sink.inFlight ++ [message.entry] }, [], .written) := by
  obtain ⟨inFlight, failure, lost, hasCache⟩ := sink
  have hrefusal : ∀ error, ∀ effect ∈ [SinkEffect.send message.output (.error error)],
      ∃ error, effect = .send message.output (.error error) :=
    fun error effect hmem => ⟨error, List.mem_singleton.mp hmem⟩
  cases isClosed with
  | true =>
    exact .inl ⟨failure, [], .skipped, by decide, fun _ hmem => absurd hmem List.not_mem_nil, rfl⟩
  | false =>
    cases failure with
    | some error => exact .inl ⟨none, _, .failed, by decide, hrefusal error, rfl⟩
    | none =>
      cases lost with
      | true => exact .inl ⟨none, _, .failed, by decide, hrefusal syncLostError, rfl⟩
      | false =>
        cases socket with
        | ok => exact .inr ⟨rfl, rfl, rfl⟩
        | error error => exact .inl ⟨none, _, .failed, by decide, hrefusal error, rfl⟩

end PipelineSink

end ValkeyGlide.Connection
