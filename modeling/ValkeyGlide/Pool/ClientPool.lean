import Mathlib.Algebra.Order.Group.Nat
import Mathlib.Data.List.AList
import Mathlib.Tactic.Common
import ValkeyGlide.Foundation.Run

/-!
# The client pool

The pool of client instances (`pool.rs`) and the tasks around it: acquiring with
background creation, warm-up, asynchronous release, the abandon monitor and
destruction.  Every task takes the pool lock for one step at a time, so a run of
the system is a sequence of such steps in any order.

Instants are natural numbers and are supplied to the steps that read the clock.
The idle deque is read from its back, where clients are pushed and popped.
-/

namespace ValkeyGlide.Pool

open Foundation

/-! ## Atomic counters -/

/-- An atomic increment and decrement of a 32-bit counter wrap around. -/
def fetchAdd (count : Nat) : Nat := if count = 2 ^ 32 - 1 then 0 else count + 1

def fetchSub (count : Nat) : Nat := if count = 0 then 2 ^ 32 - 1 else count - 1

theorem one_lt_counter : 1 < 2 ^ 32 := by decide

theorem fetchAdd_of_lt {count bound : Nat} (hlt : count < bound) (hbound : bound < 2 ^ 32) :
    fetchAdd count = count + 1 := if_neg (by omega)

theorem fetchSub_of_pos {count : Nat} (hpos : 0 < count) : fetchSub count = count - 1 :=
  if_neg (by omega)

/-! ## The pool -/

structure PoolConfig where
  maxSize : Nat
  minIdle : Nat
  idleTimeout : Nat
  abandonTimeout : Nat
  maxSize_lt : maxSize < 2 ^ 32

inductive PoolError where
  | invalidConfig (message : String)
  deriving DecidableEq, Repr

inductive PoolState where
  | running
  | closing
  | closed
  deriving DecidableEq, Repr

inductive ClientState where
  | idle
  | inUse
  deriving DecidableEq, Repr

structure PooledClient where
  clientId : Nat
  lastIdleAt : Nat
  borrowedAt : Option Nat
  state : ClientState
  isBlocking : Nat
  deriving DecidableEq, Repr

abbrev ClientTable := AList fun _ : Nat => PooledClient

structure ClientPool where
  config : PoolConfig
  idle : List PooledClient
  inUse : ClientTable
  totalCount : Nat
  state : PoolState
  discardedIds : List Nat

namespace ClientPool

def new (config : PoolConfig) : Except PoolError ClientPool :=
  if config.maxSize < 1 then
    .error (.invalidConfig "max_size must be >= 1")
  else if config.maxSize < config.minIdle then
    .error (.invalidConfig "min_idle must be <= max_size")
  else if config.idleTimeout = 0 then
    .error (.invalidConfig "idle_timeout must be > 0")
  else
    .ok ⟨config, [], ∅, 0, .running, []⟩

def discardClient (pool : ClientPool) (clientId : Nat) : ClientPool :=
  { pool with
    totalCount := fetchSub pool.totalCount
    discardedIds := pool.discardedIds ++ [clientId] }

def releaseReservation (pool : ClientPool) : ClientPool :=
  { pool with totalCount := fetchSub pool.totalCount }

def acquireIdle (now : Nat) : List PooledClient → ClientPool → Int × ClientPool
  | [], pool => (-3, { pool with idle := [] })
  | entry :: rest, pool =>
    if pool.config.idleTimeout < now - entry.lastIdleAt then
      acquireIdle now rest (pool.discardClient entry.clientId)
    else
      let entry := { entry with state := .inUse, borrowedAt := some now }
      (entry.clientId,
        { pool with idle := rest, inUse := pool.inUse.insert entry.clientId entry })

/-- A client id, or `-1` for a pool that is not running and `-3` for no idle client. -/
def tryAcquire (pool : ClientPool) (now : Nat) : Int × ClientPool :=
  if pool.state ≠ .running then (-1, pool) else acquireIdle now pool.idle pool

def shouldCreate (pool : ClientPool) : Bool :=
  pool.state == .running && pool.totalCount < pool.config.maxSize

def addClientReserved (pool : ClientPool) (clientId now : Nat) : ClientPool :=
  { pool with idle := ⟨clientId, now, none, .idle, 0⟩ :: pool.idle }

/-- Unlike the reserved intake, this one counts the client itself. -/
def addClient (pool : ClientPool) (clientId now : Nat) : ClientPool :=
  { pool.addClientReserved clientId now with totalCount := fetchAdd pool.totalCount }

def takeForRelease (pool : ClientPool) (clientId : Nat) : Option PooledClient × ClientPool :=
  (pool.inUse.lookup clientId, { pool with inUse := pool.inUse.erase clientId })

def returnToIdle (pool : ClientPool) (entry : PooledClient) (now : Nat) : ClientPool :=
  if pool.state ≠ .running then
    pool.discardClient entry.clientId
  else
    let entry := { entry with state := .idle, lastIdleAt := now, borrowedAt := none,
                              isBlocking := 0 }
    { pool with idle := entry :: pool.idle }

def destroy (pool : ClientPool) : ClientPool :=
  { pool with state := .closed, idle := [], inUse := ∅, totalCount := 0 }

def drainDiscardedIds (pool : ClientPool) : List Nat × ClientPool :=
  (pool.discardedIds, { pool with discardedIds := [] })

def isAbandoned (pool : ClientPool) (now : Nat) (entry : PooledClient) : Bool :=
  entry.isBlocking == 0 &&
    match entry.borrowedAt with
    | none => false
    | some borrowedAt => pool.config.abandonTimeout < now - borrowedAt

def abandonedIds (pool : ClientPool) (now : Nat) : List Nat :=
  (pool.inUse.entries.filter fun entry => pool.isAbandoned now entry.2).map Sigma.fst

/--
The removal of one scanned client, which looks at it again under the lock.  A
client without a borrow time passes the second look.
-/
def discardAbandoned (pool : ClientPool) (now clientId : Nat) : ClientPool :=
  match pool.inUse.lookup clientId with
  | none => pool
  | some entry =>
    if 0 < entry.isBlocking then pool
    else if entry.borrowedAt.any fun borrowedAt =>
        decide (now - borrowedAt ≤ pool.config.abandonTimeout) then pool
    else { pool with inUse := pool.inUse.erase clientId }.discardClient clientId

def updateInUse (pool : ClientPool) (clientId : Nat) (change : PooledClient → PooledClient) :
    ClientPool :=
  match pool.inUse.lookup clientId with
  | none => pool
  | some entry => { pool with inUse := pool.inUse.insert clientId (change entry) }

end ClientPool

/-! ## The system around the pool -/

/--
The pool together with what its tasks hold: the clients taken out for an
asynchronous release, the creation reservations that have not been settled, and
the clients the abandon monitor found in its last scan.
-/
structure PoolSystem where
  pool : ClientPool
  releasing : ClientTable
  reservations : Nat
  abandoned : List Nat
  nextClientId : Nat

inductive PoolAction where
  | acquire (now : Nat)
  | warmUp (now : Nat)
  | createSucceeded (now : Nat)
  | createFailed
  | beginRelease (clientId : Nat)
  | releaseSucceeded (now clientId : Nat)
  | releaseFailed (clientId : Nat)
  | refreshActivity (now clientId : Nat)
  | beginBlocking (clientId : Nat)
  | endBlocking (clientId : Nat)
  | monitorScan (now : Nat)
  | monitorDiscard (now : Nat)
  | drainDiscardedIds
  | destroy
  deriving DecidableEq, Repr

namespace PoolSystem

def initial (pool : ClientPool) (nextClientId : Nat) : PoolSystem :=
  ⟨pool, ∅, 0, [], nextClientId⟩

def step (sys : PoolSystem) : PoolAction → Option PoolSystem
  | .acquire now =>
    -- one critical section: a miss reserves room for a background creation
    let (result, pool) := sys.pool.tryAcquire now
    if result < 0 ∧ pool.shouldCreate then
      some { sys with
        pool := { pool with totalCount := fetchAdd pool.totalCount }
        reservations := sys.reservations + 1 }
    else some { sys with pool := pool }
  | .warmUp now =>
    if sys.pool.state ≠ .running then some sys
    else some { sys with
      pool := sys.pool.addClient sys.nextClientId now
      nextClientId := sys.nextClientId + 1 }
  | .createSucceeded now =>
    match sys.reservations with
    | 0 => none
    | reservations + 1 =>
      if sys.pool.state ≠ .running then
        some { sys with
          pool := sys.pool.releaseReservation
          reservations := reservations }
      else
        some { sys with
          pool := sys.pool.addClientReserved sys.nextClientId now
          reservations := reservations
          nextClientId := sys.nextClientId + 1 }
  | .createFailed =>
    match sys.reservations with
    | 0 => none
    | reservations + 1 =>
      some { sys with
        pool := sys.pool.releaseReservation
        reservations := reservations }
  | .beginRelease clientId =>
    match sys.pool.takeForRelease clientId with
    | (none, pool) => some { sys with pool := pool }
    | (some entry, pool) =>
      some { sys with
        pool := pool
        releasing := sys.releasing.insert entry.clientId entry }
  | .releaseSucceeded now clientId =>
    match sys.releasing.lookup clientId with
    | none => none
    | some entry =>
      some { sys with
        pool := sys.pool.returnToIdle entry now
        releasing := sys.releasing.erase clientId }
  | .releaseFailed clientId =>
    -- a failed reset, a timeout, or the guard of a cancelled release
    match sys.releasing.lookup clientId with
    | none => none
    | some entry =>
      some { sys with
        pool := sys.pool.discardClient entry.clientId
        releasing := sys.releasing.erase clientId }
  | .refreshActivity now clientId =>
    some { sys with
      pool := sys.pool.updateInUse clientId fun entry =>
        { entry with borrowedAt := some now } }
  | .beginBlocking clientId =>
    some { sys with
      pool := sys.pool.updateInUse clientId fun entry =>
        { entry with isBlocking := fetchAdd entry.isBlocking } }
  | .endBlocking clientId =>
    some { sys with
      pool := sys.pool.updateInUse clientId fun entry =>
        { entry with isBlocking := entry.isBlocking - 1 } }
  | .monitorScan now =>
    if sys.pool.state ≠ .running then some sys
    else some { sys with abandoned := sys.pool.abandonedIds now }
  | .monitorDiscard now =>
    match sys.abandoned with
    | [] => none
    | clientId :: rest =>
      some { sys with
        pool := sys.pool.discardAbandoned now clientId
        abandoned := rest }
  | .drainDiscardedIds => some { sys with pool := sys.pool.drainDiscardedIds.2 }
  | .destroy => some { sys with pool := sys.pool.destroy }

def population (sys : PoolSystem) : Nat :=
  sys.pool.idle.length + sys.pool.inUse.keys.length + sys.releasing.keys.length +
    sys.reservations

structure Accounted (sys : PoolSystem) : Prop where
  exact_count : sys.pool.totalCount = sys.population
  within_size : sys.pool.totalCount ≤ sys.pool.config.maxSize

def clientIds (sys : PoolSystem) : List Nat :=
  sys.pool.idle.map PooledClient.clientId ++ sys.pool.inUse.keys ++ sys.releasing.keys

structure Consistent (sys : PoolSystem) : Prop where
  nodup : sys.clientIds.Nodup
  fresh : ∀ id ∈ sys.clientIds, id < sys.nextClientId
  filed_inUse : ∀ id entry, sys.pool.inUse.lookup id = some entry → entry.clientId = id
  filed_releasing : ∀ id entry, sys.releasing.lookup id = some entry → entry.clientId = id

/--
The pool is destroyed only while no release is running and no creation is
reserved, and a client is added without a reservation only while there is room.
-/
def Orderly (sys : PoolSystem) : PoolAction → Prop
  | .destroy => sys.releasing.keys = [] ∧ sys.reservations = 0
  | .warmUp _ => sys.pool.state = .running → sys.pool.totalCount < sys.pool.config.maxSize
  | _ => True

instance (sys : PoolSystem) (action : PoolAction) : Decidable (sys.Orderly action) := by
  cases action <;> unfold Orderly <;> infer_instance

end PoolSystem

end ValkeyGlide.Pool
