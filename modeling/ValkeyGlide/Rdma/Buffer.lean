import Mathlib.Algebra.Order.Group.Nat
import ValkeyGlide.Foundation.Run

/-!
# Registered memory

Memory is registered with the fabric and lent to the server for one transfer at
a time (`buffer.rs`, `endpoint.rs`, `fabric.rs`).  A buffer is in the caller's
hands, lent, or handed to the closing thread by a drop; in the end its memory is
freed, parked in the fabric or leaked.

The codes that `fi_close` returns are arguments of the steps that may call it.
`transfer` is what the server knows of the buffer: it is not part of the client
and only decides when a loan may be ended safely.
-/

namespace ValkeyGlide.Rdma

open Foundation

inductive RdmaError where
  | configuration (message : String)
  | revoked
  | fabric (operation : String) (errno : Int)
  | payloadTooLarge (valueBytes capacity : Nat)
  deriving DecidableEq, Repr

def check (code : Int) (operation : String) : Except RdmaError Unit :=
  if code = 0 then .ok () else .error (.fabric operation code)

/-! ## Regions -/

inductive RegionState where
  | opened
  | closed
  | abandoned (code : Int)
  deriving DecidableEq, Repr

structure Registration where
  region : RegionState
  closes : List Int
  deriving DecidableEq, Repr

namespace Registration

def new : Registration := ⟨.opened, []⟩

def revoke (registration : Registration) (code : Int) : Except RdmaError Unit × Registration :=
  match registration.region with
  | .closed => (.ok (), registration)
  | .abandoned code => (check code "fi_close", registration)
  | .opened =>
    match check code "fi_close" with
    | .ok () => (.ok (), ⟨.closed, registration.closes ++ [code]⟩)
    | .error error => (.error error, ⟨.abandoned code, registration.closes ++ [code]⟩)

def checkOpen (registration : Registration) : Except RdmaError Unit :=
  match registration.region with
  | .opened => .ok ()
  | .closed => .error .revoked
  | .abandoned code => check code "fi_close"

end Registration

/-! ## Buffers and loans -/

inductive HostPlace where
  | buffer
  | lent (windowLength : Nat)
  | dropped
  | droppedLoan
  | freed
  | parked
  | leaked
  deriving DecidableEq, Repr

/-- What the server may do: nothing, or carry out a command that was built, sent or answered. -/
inductive Transfer where
  | none
  | unsent
  | sent
  | replied
  deriving DecidableEq, Repr

/-- `unanswered`: a loan of the buffer ended without a reply. -/
structure HostBuffer where
  registration : Registration
  capacity : Nat
  host : HostPlace
  transfer : Transfer
  unanswered : Bool
  deriving DecidableEq, Repr

structure ReadReceipt where
  bytesWritten : Nat
  deriving DecidableEq, Repr

inductive TransferReply where
  | read (receipt : ReadReceipt)
  | missing
  | stored
  | failed
  deriving DecidableEq, Repr

namespace HostBuffer

def new (capacity : Nat) : HostBuffer := ⟨.new, capacity, .buffer, .none, false⟩

/-- Whether the window lies inside the registered memory; addresses have 64 bits. -/
def window (buffer : HostBuffer) (start length : Nat) : Bool :=
  start + length < 2 ^ 64 && start + length ≤ buffer.capacity

def windowError (start length capacity : Nat) : RdmaError :=
  .configuration (s!"window [{start}, {start}+{length}) runs past the end of a registered region " ++
    s!"of {capacity} bytes")

/-- The buffer rides in the error, so a failed lend hands it back. -/
def lend (buffer : HostBuffer) (start length : Nat) :
    Except (HostBuffer × RdmaError) HostBuffer :=
  match buffer.registration.checkOpen with
  | .error error => .error (buffer, error)
  | .ok () =>
    if buffer.window start length then
      .ok { buffer with host := .lent length, transfer := .unsent }
    else .error (buffer, windowError start length buffer.capacity)

def dismantle (buffer : HostBuffer) : HostBuffer :=
  { buffer with host := .buffer, transfer := .none }

def reclaim (buffer : HostBuffer) (windowLength : Nat) :
    TransferReply → Except (HostBuffer × RdmaError) (HostBuffer × Option ReadReceipt)
  | .read receipt =>
    if windowLength < receipt.bytesWritten then
      .error (buffer.dismantle, .payloadTooLarge receipt.bytesWritten windowLength)
    else .ok (buffer.dismantle, some receipt)
  | .missing | .stored | .failed => .ok (buffer.dismantle, none)

def cancelUnsent (buffer : HostBuffer) : HostBuffer := buffer.dismantle

def revoke (buffer : HostBuffer) (code : Int) : Except RdmaError Unit × HostBuffer :=
  let (result, registration) := buffer.registration.revoke code
  (result, { buffer with registration := registration })

def dropRegistration (buffer : HostBuffer) (code : Int) : HostBuffer :=
  (buffer.revoke code).2

def holdsFabric (buffer : HostBuffer) : Bool :=
  match buffer.host with
  | .buffer | .lent _ | .dropped | .droppedLoan => true
  | .freed | .parked | .leaked => buffer.registration.region != .closed

end HostBuffer

/-! ## The fabric -/

structure RdmaFabric where
  closeStopsWrites : Bool
  buffers : List HostBuffer
  parkedBytes : Nat
  leakedBytes : Nat
  isClosed : Bool
  deriving DecidableEq, Repr

namespace RdmaFabric

def openFabric (closeStopsWrites : Bool) : RdmaFabric := ⟨closeStopsWrites, [], 0, 0, false⟩

def leak (fabric : RdmaFabric) (id : Nat) (buffer : HostBuffer) : RdmaFabric :=
  { fabric with
    buffers := fabric.buffers.set id { buffer with host := .leaked }
    leakedBytes := fabric.leakedBytes + buffer.capacity }

def park (fabric : RdmaFabric) (id : Nat) (buffer : HostBuffer) : RdmaFabric :=
  { fabric with
    buffers := fabric.buffers.set id { buffer with host := .parked }
    parkedBytes := fabric.parkedBytes + buffer.capacity }

def free (fabric : RdmaFabric) (id : Nat) (buffer : HostBuffer) : RdmaFabric :=
  { fabric with buffers := fabric.buffers.set id { buffer with host := .freed } }

def releaseUnanswered (fabric : RdmaFabric) (id : Nat) (buffer : HostBuffer) (closed : Bool) :
    RdmaFabric :=
  if !closed then fabric.leak id buffer
  else if fabric.closeStopsWrites then fabric.free id buffer
  else fabric.park id buffer

def closeDropped (fabric : RdmaFabric) (id : Nat) (buffer : HostBuffer) (code dropCode : Int) :
    RdmaFabric :=
  match buffer.revoke code with
  | (.ok (), buffer) => fabric.free id (buffer.dropRegistration dropCode)
  | (.error _, buffer) => fabric.leak id (buffer.dropRegistration dropCode)

def closeDroppedLoan (fabric : RdmaFabric) (id : Nat) (buffer : HostBuffer)
    (code dropCode : Int) : RdmaFabric :=
  let (result, buffer) := buffer.revoke code
  fabric.releaseUnanswered id (buffer.dropRegistration dropCode) result.isOk

def recallLoan (fabric : RdmaFabric) (id : Nat) (buffer : HostBuffer) (code dropCode : Int) :
    RdmaFabric :=
  match buffer.revoke code with
  | (.error _, buffer) => { fabric with buffers := fabric.buffers.set id buffer }
  | (.ok (), buffer) =>
    fabric.releaseUnanswered id
      { buffer.dropRegistration dropCode with unanswered := true } true

end RdmaFabric

inductive RdmaAction where
  | register (bytes : Nat)
  | lend (id start length : Nat)
  | send (id : Nat)
  | reply (id : Nat)
  | revoke (id : Nat) (code : Int)
  | reclaim (id : Nat) (reply : TransferReply)
  | cancelUnsent (id : Nat)
  | recallLoan (id : Nat) (code dropCode : Int)
  | drop (id : Nat)
  | runClose (id : Nat) (code dropCode : Int)
  | closeFabric
  deriving DecidableEq, Repr

namespace RdmaFabric

/--
`reclaim` and `cancelUnsent` are enabled under their documented safety
conditions.  The closing thread runs the closes of dropped buffers in any order,
and `register` does not wait for them.  Parked memory is freed with the fabric,
so a parked buffer stays where it is.
-/
def step (fabric : RdmaFabric) : RdmaAction → Option RdmaFabric
  | .register bytes =>
    if bytes = 0 ∨ fabric.isClosed then none
    else some { fabric with buffers := fabric.buffers ++ [.new bytes] }
  | .lend id start length => do
      let buffer ← fabric.buffers[id]?
      if buffer.host = .buffer then
        match buffer.lend start length with
        | .ok buffer | .error (buffer, _) =>
          some { fabric with buffers := fabric.buffers.set id buffer }
      else none
  | .send id => do
      let buffer ← fabric.buffers[id]?
      if buffer.transfer = .unsent then
        some { fabric with buffers := fabric.buffers.set id { buffer with transfer := .sent } }
      else none
  | .reply id => do
      let buffer ← fabric.buffers[id]?
      if buffer.transfer = .sent then
        some { fabric with buffers := fabric.buffers.set id { buffer with transfer := .replied } }
      else none
  | .revoke id code => do
      let buffer ← fabric.buffers[id]?
      some { fabric with buffers := fabric.buffers.set id (buffer.revoke code).2 }
  | .reclaim id reply => do
      let buffer ← fabric.buffers[id]?
      match buffer.host with
      | .lent windowLength =>
        if buffer.transfer = .replied ∨ buffer.transfer = .unsent then
          match buffer.reclaim windowLength reply with
          | .ok (buffer, _) | .error (buffer, _) =>
            some { fabric with buffers := fabric.buffers.set id buffer }
        else none
      | _ => none
  | .cancelUnsent id => do
      let buffer ← fabric.buffers[id]?
      match buffer.host with
      | .lent _ =>
        if buffer.transfer = .unsent then
          some { fabric with buffers := fabric.buffers.set id buffer.cancelUnsent }
        else none
      | _ => none
  | .recallLoan id code dropCode => do
      let buffer ← fabric.buffers[id]?
      match buffer.host with
      | .lent _ => some (fabric.recallLoan id buffer code dropCode)
      | _ => none
  | .drop id => do
      let buffer ← fabric.buffers[id]?
      match buffer.host with
      | .buffer =>
        some { fabric with buffers := fabric.buffers.set id { buffer with host := .dropped } }
      | .lent _ =>
        some { fabric with
          buffers := fabric.buffers.set id
            { buffer with host := .droppedLoan, unanswered := true } }
      | _ => none
  | .runClose id code dropCode => do
      let buffer ← fabric.buffers[id]?
      match buffer.host with
      | .dropped => some (fabric.closeDropped id buffer code dropCode)
      | .droppedLoan => some (fabric.closeDroppedLoan id buffer code dropCode)
      | _ => none
  | .closeFabric =>
    if fabric.buffers.any HostBuffer.holdsFabric ∨ fabric.isClosed then none
    else some { fabric with isClosed := true }

end RdmaFabric

end ValkeyGlide.Rdma
