import ValkeyGlide.Foundation.Assoc
import ValkeyGlide.Foundation.Overflow
import ValkeyGlide.Cluster.MultiSlot
import ValkeyGlide.Cluster.Operation

/-!
# Replies of several nodes

How the replies of the nodes to one command become one reply: the numeric and
map aggregations of `cluster_routing.rs`, and the two functions of
`cluster_async/mod.rs` that choose among them by the response policy, one for
replies that are still to arrive and one for replies that are there.  Integers
are those of the protocol, and a sum may leave their range.  A hash map is a list
with distinct keys, visited in any order.
-/

namespace ValkeyGlide.Cluster

open Foundation Protocol

/-- The source ends in a value or in an error, or panics. -/
abbrev Aggregated := ExceptT RedisError Option

def panicked {α : Type} : Aggregated α := ExceptT.mk none

def i64 : MachineInt := ⟨-2 ^ 63, 2 ^ 63 - 1⟩

/-! ## Numbers -/

inductive AggregateOp where
  | min
  | sum
  deriving DecidableEq, Repr

inductive LogicalAggregateOp where
  | and
  deriving DecidableEq, Repr

inductive ArrayAggregateOp where
  | min
  deriving DecidableEq, Repr

def expectedIntegers : RedisError :=
  .withDescription .typeError "expected array of integers as response"

def AggregateOp.initialValue : AggregateOp → Int
  | .min => i64.upper
  | .sum => 0

def AggregateOp.combine (overflow : Overflow) : AggregateOp → Int → Int → Option Int
  | .min, acc, int => some (Min.min acc int)
  | .sum, acc, int => i64.add overflow acc int

def aggregateReply (overflow : Overflow) (op : AggregateOp) (acc : Int) : Value → Aggregated Int
  | .int int => liftM (op.combine overflow acc int)
  | _ => throw expectedIntegers

def aggregate (overflow : Overflow) (values : List Value) (op : AggregateOp) :
    Aggregated Value := do
  let result ← values.foldlM (aggregateReply overflow op) op.initialValue
  return .int result

def combineAt {α : Type} (combine : α → Int → α) : List α → Nat → List Value → Aggregated (List α)
  | acc, _, [] => pure acc
  | acc, index, .int int :: rest =>
    match acc[index]? with
    | some old => combineAt combine (acc.set index (combine old int)) (index + 1) rest
    | none => panicked
  | _, _, _ :: _ => throw expectedIntegers

def combineReply {α : Type} (initialValue : α) (combine : α → Int → α) (acc : List α) :
    Value → Aggregated (List α)
  | .array values =>
    let acc := if acc.isEmpty then List.replicate values.length initialValue else acc
    combineAt combine acc 0 values
  | _ => throw expectedIntegers

def combineElementwise {α : Type} (initialValue : α) (combine : α → Int → α)
    (values : List Value) : Aggregated (List α) :=
  values.foldlM (combineReply initialValue combine) []

def LogicalAggregateOp.initialValue : LogicalAggregateOp → Bool
  | .and => true

def LogicalAggregateOp.combine : LogicalAggregateOp → Bool → Int → Bool
  | .and, acc, int => acc && decide (0 < int)

def logicalAggregate (values : List Value) (op : LogicalAggregateOp) : Aggregated Value := do
  let results ← combineElementwise op.initialValue op.combine values
  return .array (results.map fun result => .int result.toInt)

def ArrayAggregateOp.initialValue : ArrayAggregateOp → Int
  | .min => i64.upper

def ArrayAggregateOp.combine : ArrayAggregateOp → Int → Int → Int
  | .min, acc, int => Min.min acc int

def aggregateArray (values : List Value) (op : ArrayAggregateOp) : Aggregated Value := do
  let results ← combineElementwise op.initialValue op.combine values
  return .array (results.map .int)

/-! ## Maps and arrays -/

abbrev Counts := List (Bytes × Int)

structure CountOrder where
  visit : Counts → Counts
  perm : ∀ counts, (visit counts).Perm counts

/-- The same value, where a map is the set of its entries. -/
def SameEntries (left right : Value) : Prop :=
  left = right ∨ ∃ entries entries', left = .map entries ∧ right = .map entries' ∧
    entries.Perm entries'

def addCount (overflow : Overflow) (counts : Counts) (entry : Bytes × Int) : Option Counts := do
  let sum ← i64.add overflow ((Assoc.lookup counts entry.1).getD 0) entry.2
  return (entry.1, sum) :: Assoc.erase counts entry.1

def combineEntries (overflow : Overflow) : Counts → List Value → Aggregated Counts
  | counts, [] => pure counts
  | counts, .bulkString key :: .int value :: rest => do
      let counts ← (liftM (addCount overflow counts (key, value)) : Aggregated Counts)
      combineEntries overflow counts rest
  | _, .bulkString _ :: _ => throw (.withDescription .typeError "expected integer value")
  | _, _ :: _ => throw (.withDescription .typeError "expected string key")

def expectedArrays : RedisError :=
  .withDescription .typeError "expected array of values as response"

def combineMapReply (overflow : Overflow) (counts : Counts) : Value → Aggregated Counts
  | .array elements => combineEntries overflow counts elements
  | _ => throw expectedArrays

def combineMapResults (overflow : Overflow) (order : CountOrder) (values : List Value) :
    Aggregated Value := do
  let counts ← values.foldlM (combineMapReply overflow) []
  return .map ((order.visit counts).map fun entry => (.bulkString entry.1, .int entry.2))

def combineArrayResults (values : List Value) : RedisResult Value := do
  let results ← values.foldlM (fun results value =>
    match value with
    | .array values => .ok (results ++ values)
    | _ => .error expectedArrays) []
  return .array results

/-! ## Replies that are there -/

abbrev NodeReply := Option String × Value

def shouldCheckErrors : Option ResponsePolicy → Bool
  | some .oneSucceeded => false
  | some .firstSucceededNonEmptyOrAllEmpty => false
  | _ => true

def firstServerError : List NodeReply → Option RedisError
  | [] => none
  | (_, .serverError error) :: _ => some error.toRedisError
  | _ :: rest => firstServerError rest

def noConnection : RedisError :=
  .withDescription .allConnectionsUnavailable "Couldn't find any connection"

def oneSucceeded : Option RedisError → List Value → RedisResult Value
  | lastErr, [] => .error (lastErr.getD noConnection)
  | _, .serverError error :: rest => oneSucceeded (some error.toRedisError) rest
  | _, value :: _ => .ok value

def firstNonEmpty (numResults : Nat) : Nat → Option RedisError → List Value → RedisResult Value
  | nilCounter, lastErr, [] =>
    if nilCounter = numResults then .ok .nil else .error (lastErr.getD noConnection)
  | nilCounter, lastErr, .nil :: rest => firstNonEmpty numResults (nilCounter + 1) lastErr rest
  | nilCounter, _, .serverError error :: rest =>
    firstNonEmpty numResults nilCounter (some error.toRedisError) rest
  | _, _, value :: _ => .ok value

def addressedPair (reply : NodeReply) : RedisResult (Value × Value) :=
  match reply.1 with
  | some address => .ok (.bulkString (bytes address), reply.2)
  | none =>
    .error (.withDescription .responseError
      "No address provided for response in Special or None response policy")

def aggregateByPolicy (overflow : Overflow) (order : CountOrder) (resolved : List NodeReply)
    (routing : MultipleNodeRoutingInfo) (policy : Option ResponsePolicy) : Aggregated Value :=
  let values := resolved.map Prod.snd
  match policy with
  | some .allSucceeded =>
    match values.getLast? with
    | some value => pure value
    | none => throw (.withDescription .responseError "No responses to aggregate for AllSucceeded")
  | some .aggregateMin => aggregate overflow values .min
  | some .aggregateSum => aggregate overflow values .sum
  | some .aggregateArrayMin => aggregateArray values .min
  | some .aggregateLogicalAnd => logicalAggregate values .and
  | some .combineArrays =>
    match routing with
    | .multiSlot routes argsPattern =>
      ExceptT.mk (combineAndSortArrayResults values routes argsPattern)
    | _ => liftExcept (combineArrayResults values)
  | some .combineMaps => combineMapResults overflow order values
  | some .special | none => liftExcept (Value.map <$> resolved.mapM addressedPair)
  | some .oneSucceeded => liftExcept (oneSucceeded none values)
  | some .firstSucceededNonEmptyOrAllEmpty =>
    liftExcept (firstNonEmpty values.length 0 none values)

def aggregateResolvedResults (overflow : Overflow) (order : CountOrder) (resolved : List NodeReply)
    (routing : MultipleNodeRoutingInfo) (policy : Option ResponsePolicy) : Aggregated Value :=
  match shouldCheckErrors policy, firstServerError resolved with
  | true, some error => throw error
  | _, _ => aggregateByPolicy overflow order resolved routing policy

/-! ## Replies that arrive -/

inductive Delivery where
  | dropped
  | delivered (result : RedisResult Response)

abbrev Receiver := Option String × Delivery

def convertResult : Delivery → Aggregated Value
  | .dropped =>
    throw (.withDescription .responseError
      "Internal failure: receiver was dropped before delivering a response")
  | .delivered (.error error) => throw error
  | .delivered (.ok (.single value)) => pure value
  | .delivered (.ok (.multiple _)) => panicked
  | .delivered (.ok .clusterScanResult) => panicked

def serverErrorToResult : Value → RedisResult Value
  | .serverError error => .error error.toRedisError
  | value => .ok value

/-- `select_ok` over the replies as they arrive; it takes the first that is `Ok`, and the last
error if there is none.  It panics when there is nothing to wait for. -/
def selectOk : Option RedisError → List Delivery → Aggregated (RedisResult Value)
  | some lastErr, [] => throw lastErr
  | none, [] => panicked
  | _, arrival :: rest => ExceptT.mk (
      match (convertResult arrival).run with
      | none => none
      | some (.ok value) => some (.ok (serverErrorToResult value))
      | some (.error error) => (selectOk (some error) rest).run)

def firstNonEmptyArrival (numOfResults : Nat) :
    Nat → Option RedisError → List Delivery → Aggregated Value
  | nilCounter, lastErr, [] =>
    if nilCounter = numOfResults then pure .nil else throw (lastErr.getD noConnection)
  | nilCounter, lastErr, arrival :: rest => ExceptT.mk (
      match (convertResult arrival).run with
      | none => none
      | some (.ok .nil) => (firstNonEmptyArrival numOfResults (nilCounter + 1) lastErr rest).run
      | some (.ok (.serverError error)) =>
        (firstNonEmptyArrival numOfResults nilCounter (some error.toRedisError) rest).run
      | some (.ok value) => some (.ok value)
      | some (.error error) =>
        (firstNonEmptyArrival numOfResults nilCounter (some error) rest).run)

/-- `try_join_all`: the first error to arrive ends it, otherwise the replies are in the order of
the receivers. -/
def tryJoinAll (receivers arrived : List Receiver) : Aggregated (List NodeReply) := do
  arrived.forM fun receiver => do
    let _ ← convertResult receiver.2
  receivers.mapM fun receiver => do
    let value ← convertResult receiver.2
    return (receiver.1, value)

/-- `arrived` holds the receivers in the order in which their replies arrive. -/
def aggregateResults (overflow : Overflow) (order : CountOrder) (receivers arrived : List Receiver)
    (routing : MultipleNodeRoutingInfo) (policy : Option ResponsePolicy) : Aggregated Value :=
  if receivers.isEmpty then
    throw (.withDescriptionAndDetail .connectionNotFoundForRoute "Connection not found for route"
      "No connections available for multi-node fan-out")
  else
    match policy with
    | some .oneSucceeded => do
        let result ← selectOk none (arrived.map Prod.snd)
        liftExcept result
    | some .firstSucceededNonEmptyOrAllEmpty =>
      firstNonEmptyArrival receivers.length 0 none (arrived.map Prod.snd)
    | _ => do
        let collected ← tryJoinAll receivers arrived
        aggregateResolvedResults overflow order collected routing policy

end ValkeyGlide.Cluster
