import ValkeyGlide.Cluster.SlotMap
import ValkeyGlide.Foundation.Bitmap
import ValkeyGlide.Protocol.Value

/-!
# Cluster scan

Scanning the keys of a whole cluster, node by node (`cluster_scan.rs`).  The state
that is threaded through the calls is a bitmap of the slots already scanned, the
address that is being scanned, the epoch of that address when it was selected, and the
server's cursor.  What a call sees of the cluster is data of the call: the topology
when it starts, the outcome of each `SCAN` that it sends and the topology after each
refresh.  The command sent to the server is left out, as nothing depends on it.
-/

namespace ValkeyGlide.Scan

open Cluster Foundation Protocol

/-- Without a value, a call panics or has not returned. -/
abbrev Call := ExceptT RedisError Option

/-! ## The cluster -/

/--
One view of the cluster: the slot map of the client, the addresses it is connected to,
the epoch of each node, and what the node says about it when asked.
-/
structure Topology where
  slotMap : SlotMap
  connected : Address → Bool
  epoch : Address → Nat
  clusterInfo : Address → RedisResult Nat
  truthful : ∀ address value, clusterInfo address = .ok value → value = epoch address

namespace Topology

def addressEpoch (topology : Topology) (address : Address) : RedisResult Nat :=
  if topology.connected address then topology.clusterInfo address
  else .error (.withDescription .responseError "Failed to parse cluster info")

/-- A failed lookup counts as epoch 0. -/
def epochOrZero (topology : Topology) (address : Address) : Nat :=
  match topology.addressEpoch address with
  | .ok epoch => epoch
  | .error _ => 0

def addressOf (topology : Topology) (slot : Nat) : Option Address :=
  (topology.slotMap.nodeAddressForSlot slot .replicaRequired).1

def slotsOfAddress (topology : Topology) (address : Address) : List Nat :=
  topology.slotMap.getSlotsOfNode address

end Topology

/-! ## The bitmap of scanned slots -/

abbrev SlotsBitsArray := Bitmap 256

def endOfScan : Nat := slotCount

def markSlotAsScanned (scannedSlotsMap : SlotsBitsArray) (slot : Nat) : Option SlotsBitsArray :=
  scannedSlotsMap.set? slot

def nextSlot (scannedSlotsMap : SlotsBitsArray) : Option Nat :=
  if scannedSlotsMap.isFull then some endOfScan else scannedSlotsMap.firstClear?

/-! ## The state -/

inductive ScanStateStage where
  | initiating
  | inProgress
  | finished
  deriving DecidableEq, Repr

structure ScanState where
  cursor : Nat
  scannedSlotsMap : SlotsBitsArray
  addressInScan : Address
  addressEpoch : Nat
  scanStatus : ScanStateStage

def ScanState.createFinishedState : ScanState := ⟨0, .zero 256, "", 0, .finished⟩

structure ScanStateRC where
  scanStateRc : Option ScanState
  status : ScanStateStage

namespace ScanStateRC

def fromScanState (state : ScanState) : ScanStateRC := ⟨some state, .inProgress⟩

def new : ScanStateRC := ⟨none, .initiating⟩

def createFinished : ScanStateRC := ⟨none, .finished⟩

def isFinished (cursor : ScanStateRC) : Bool := cursor.status = .finished

def stateFromWrapper (cursor : ScanStateRC) : Option ScanState :=
  if cursor.status = .initiating ∨ cursor.status = .finished then none else cursor.scanStateRc

end ScanStateRC

/-! ## Selecting the next address -/

inductive NextNodeResult where
  | address (address : Address)
  | allSlotsCompleted
  deriving DecidableEq, Repr

def notAllSlotsCovered : RedisError :=
  .withDescription .notAllSlotsCovered
    ("Could not find an address covering a slot, SCAN operation cannot continue \n \n" ++
      "                    If you want to continue scanning even if some slots are not covered, " ++
      "set allow_non_covered_slots to true \n \n" ++
      "                    Note that this may lead to incomplete scanning, and the SCAN " ++
      "operation lose its all guarantees ")

section Select

variable (topology : Topology) (allowNonCoveredSlots : Bool)

/-- The loop marks a slot in every round, so that `slotCount + 1` rounds are enough. -/
def nextAddressLoop : Nat → Nat → SlotsBitsArray → Call (NextNodeResult × SlotsBitsArray)
  | 0, _, _ => .mk none
  | rounds + 1, slot, scannedSlotsMap =>
    if slot = endOfScan then pure (.allSlotsCompleted, scannedSlotsMap)
    else
      match topology.addressOf slot with
      | some address => pure (.address address, scannedSlotsMap)
      | none =>
        if allowNonCoveredSlots then do
          let scannedSlotsMap ← liftM (markSlotAsScanned scannedSlotsMap slot)
          let slot ← liftM (nextSlot scannedSlotsMap)
          nextAddressLoop rounds slot scannedSlotsMap
        else throw notAllSlotsCovered

def nextAddressToScan (slot : Nat) (scannedSlotsMap : SlotsBitsArray) :
    Call (NextNodeResult × SlotsBitsArray) :=
  nextAddressLoop topology allowNonCoveredSlots (slotCount + 1) slot scannedSlotsMap

def selectFrom (slot : Nat) (scannedSlotsMap : SlotsBitsArray) : Call (Option ScanState) := do
  match ← nextAddressToScan topology allowNonCoveredSlots slot scannedSlotsMap with
  | (.address address, scannedSlotsMap) =>
    return some ⟨0, scannedSlotsMap, address, topology.epochOrZero address, .inProgress⟩
  | (.allSlotsCompleted, _) => return none

def initiateScan : Call ScanState :=
  (·.getD .createFinishedState) <$> selectFrom topology allowNonCoveredSlots 0 (.zero 256)

def newScanState (scannedSlotsMap : SlotsBitsArray) : Call ScanState :=
  (·.getD .createFinishedState) <$>
    selectFrom topology allowNonCoveredSlots ((nextSlot scannedSlotsMap).getD 0) scannedSlotsMap

def nextScanState (state : ScanState) : Call (Option ScanState) :=
  selectFrom topology allowNonCoveredSlots ((nextSlot state.scannedSlotsMap).getD 0)
    state.scannedSlotsMap

end Select

def createUpdatedScanStateForCompletedAddress (state : ScanState) (refreshed : RedisResult Topology)
    (allowNonCoveredSlots : Bool) : Call ScanState := do
  let topology ← liftExcept refreshed
  if topology.epochOrZero state.addressInScan ≠ state.addressEpoch then
    newScanState topology allowNonCoveredSlots state.scannedSlotsMap
  else
    let scannedSlotsMap ← liftM
      ((topology.slotsOfAddress state.addressInScan).foldlM markSlotAsScanned state.scannedSlotsMap)
    newScanState topology allowNonCoveredSlots scannedSlotsMap

/-! ## Scanning -/

inductive Attempt where
  | reply (response : RedisResult (Nat × List Value))
  | failure (error : RedisError) (refreshed : RedisResult Topology)

def noConnection (address : Address) : RedisError :=
  .withDescriptionAndDetail .connectionNotFoundForRoute
    "Cluster scan failed. No connection available for address: " address

def isScanwiseRetryableError (error : RedisError) : Bool :=
  match error.kind with
  | .ioError => true
  | .allConnectionsUnavailable => true
  | .connectionNotFoundForRoute => true
  | .clusterDown => true
  | .fatalSendError => true
  | _ => false

def tryScan (allowNonCoveredSlots : Bool) :
    Topology → ScanState → List Attempt → Call ((Nat × List Value) × ScanState)
  | _, _, [] => .mk none
  | topology, state, .reply response :: _ =>
    if topology.connected state.addressInScan then do
      return (← liftExcept response, state)
    else .mk none
  | topology, state, .failure error refreshed :: rest =>
    let error :=
      if topology.connected state.addressInScan then error else noConnection state.addressInScan
    if isScanwiseRetryableError error then do
      let topology ← liftExcept refreshed
      match ← nextScanState topology allowNonCoveredSlots state with
      | some next => tryScan allowNonCoveredSlots topology next rest
      | none => return ((0, []), .createFinishedState)
    else throw error

structure ScanCall where
  allowNonCoveredSlots : Bool
  start : Topology
  attempts : List Attempt
  completion : RedisResult Topology

namespace ScanCall

def scanState (call : ScanCall) (cursor : ScanStateRC) : Call ScanState :=
  match cursor.stateFromWrapper with
  | some state => pure state
  | none => initiateScan call.start call.allowNonCoveredSlots

def scan (call : ScanCall) (cursor : ScanStateRC) : Call ((Nat × List Value) × ScanState) := do
  let state ← call.scanState cursor
  tryScan call.allowNonCoveredSlots call.start state call.attempts

def advance (call : ScanCall) (newCursor : Nat) (state : ScanState) : Call ScanState :=
  if newCursor = 0 then
    createUpdatedScanStateForCompletedAddress state call.completion call.allowNonCoveredSlots
  else pure state

def clusterScan (call : ScanCall) (cursor : ScanStateRC) : Call (ScanStateRC × List Value) := do
  let ((newCursor, newKeys), state) ← call.scan cursor
  let state ← call.advance newCursor state
  if state.scanStatus = .finished then return (.createFinished, newKeys)
  else
    return (.fromScanState { state with cursor := newCursor, scanStatus := .inProgress }, newKeys)

end ScanCall

end ValkeyGlide.Scan
