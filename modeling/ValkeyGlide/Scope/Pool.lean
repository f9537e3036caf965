import ValkeyGlide.Pool.ClientPool
import ValkeyGlide.Scope.Connection

/-!
# The scope pool

The pool of scoped connections of one client (`pool.rs`) and the tasks around it:
creation, resynchronisation of an idle connection's database, commands, release and
its cleanup, and the removal of registry entries when the parent is closed.

A borrowed connection lives in a mutex that the global registry, the commands
running on it and its cleanup share, so these refer to it by its index in a list of
cells.  The mutex is held by a command that is running and by a cleanup at work.
The idle deque is read from its back, where connections are pushed and popped.
-/

namespace ValkeyGlide.Scope

open Protocol Foundation Pool

/-! ## The pool -/

structure ScopePoolConfig where
  maxTotal : Nat
  idleTimeout : Nat
  maxTotal_lt : maxTotal < 2 ^ 32

structure ScopePool where
  config : ScopePoolConfig
  idle : List ScopedConnection
  inUse : List Nat
  totalCount : Nat
  state : PoolState
  configuredClientName : Bytes

inductive ScopeAcquire where
  | reused (conn : ScopedConnection)
  | reserved
  | needsResync
  | exhausted
  deriving DecidableEq, Repr

def saturatingDec (totalCount : Nat) : Nat := totalCount - 1

namespace ScopePool

def new (config : ScopePoolConfig) (configuredClientName : Bytes) : ScopePool :=
  ⟨config, [], [], 0, .running, configuredClientName⟩

structure IdleSearch where
  found : Option ScopedConnection
  targetMatchWrongDb : Bool
  idle : List ScopedConnection
  totalCount : Nat

/--
The loop pops from the back.  What it does not take, evict or reach is pushed back
in its old order, so `mismatched` ends up in front of the connections not reached.
-/
def searchIdle (config : ScopePoolConfig) (now : Nat) (target : ScopeTarget) (runtimeDb : Nat) :
    List ScopedConnection → List ScopedConnection → Bool → Nat → IdleSearch
  | [], mismatched, wrongDb, totalCount => ⟨none, wrongDb, mismatched, totalCount⟩
  | conn :: rest, mismatched, wrongDb, totalCount =>
    if config.idleTimeout < now - conn.lastIdleAt then
      searchIdle config now target runtimeDb rest mismatched wrongDb (saturatingDec totalCount)
    else if conn.target = target then
      if conn.state.selectedDb = runtimeDb then
        ⟨some conn, wrongDb, mismatched ++ rest, totalCount⟩
      else
        searchIdle config now target runtimeDb rest (mismatched ++ [conn]) true totalCount
    else
      searchIdle config now target runtimeDb rest (mismatched ++ [conn]) wrongDb totalCount

def reserveSlot (pool : ScopePool) : Bool × ScopePool :=
  if pool.state ≠ .running then (false, pool)
  else if pool.totalCount < pool.config.maxTotal then
    (true, { pool with totalCount := fetchAdd pool.totalCount })
  else (false, pool)

/-- When the pool is full, the connection idle for longest makes room. -/
def makeRoom (pool : ScopePool) : Option ScopePool :=
  if pool.config.maxTotal ≤ pool.totalCount then
    if pool.idle = [] then none
    else some { pool with idle := pool.idle.dropLast, totalCount := saturatingDec pool.totalCount }
  else some pool

def tryAcquire (pool : ScopePool) (now : Nat) (target : ScopeTarget) (runtimeDb : Nat)
    (acquisitionSlot : Option Nat) : ScopeAcquire × ScopePool :=
  if pool.state ≠ .running then (.exhausted, pool)
  else
    let search := searchIdle pool.config now target runtimeDb pool.idle [] false pool.totalCount
    let pool := { pool with idle := search.idle, totalCount := search.totalCount }
    match search.found with
    | some conn =>
      let conn := { conn with
        borrowedAt := some now
        acquisitionSlot := acquisitionSlot
        state := conn.state.beginBorrow runtimeDb }
      (.reused conn, { pool with inUse := pool.inUse.insert conn.scopeId })
    | none =>
      if search.targetMatchWrongDb then (.needsResync, pool)
      else
        match pool.makeRoom with
        | none => (.exhausted, pool)
        | some pool =>
          match pool.reserveSlot with
          | (true, pool) => (.reserved, pool)
          | (false, pool) => (.exhausted, pool)

def takeWrongDb (target : ScopeTarget) (runtimeDb : Nat) :
    List ScopedConnection → Option ScopedConnection × List ScopedConnection
  | [] => (none, [])
  | conn :: rest =>
    if conn.target = target ∧ conn.state.selectedDb ≠ runtimeDb then (some conn, rest)
    else
      let (taken, rest) := takeWrongDb target runtimeDb rest
      (taken, conn :: rest)

def takeIdleForResync (pool : ScopePool) (target : ScopeTarget) (runtimeDb : Nat) :
    Option ScopedConnection × ScopePool :=
  if pool.state ≠ .running then (none, pool)
  else
    let (taken, idle) := takeWrongDb target runtimeDb pool.idle
    (taken, { pool with idle := idle })

def reidleAfterResync (pool : ScopePool) (conn : ScopedConnection) : ScopePool :=
  if pool.state = .running then { pool with idle := conn :: pool.idle }
  else { pool with totalCount := saturatingDec pool.totalCount }

def destroy (pool : ScopePool) : ScopePool :=
  { pool with state := .closed, idle := [], inUse := [], totalCount := 0 }

end ScopePool

def ScopedConnection.seated (conn : ScopedConnection) (db now : Nat) : ScopedConnection :=
  { conn with
    lastIdleAt := now
    borrowedAt := none
    state := .withConfiguredDb db
    pinnedSlot := none
    acquisitionSlot := none }

/-! ## The cleanup of a release -/

def unsubscribeCommand (name : String) (channels : List Bytes) : List Cmd :=
  if channels = [] then [] else [.ofBytes (bytes name :: channels)]

def cleanupPipeline (state : ConnectionState) (parentDb : Nat) (configuredClientName : Bytes) :
    List Cmd :=
  let channels := state.subscriptions.filterMap fun
    | .channel name => some name
    | _ => none
  let patterns := state.subscriptions.filterMap fun
    | .pattern name => some name
    | _ => none
  let sharded := state.subscriptions.filterMap fun
    | .shardedChannel name => some name
    | _ => none
  (if state.multiActive then [.ofBytes [bytes "DISCARD"]]
    else if state.watchActive then [.ofBytes [bytes "UNWATCH"]] else []) ++
  unsubscribeCommand "UNSUBSCRIBE" channels ++ unsubscribeCommand "PUNSUBSCRIBE" patterns ++
  unsubscribeCommand "SUNSUBSCRIBE" sharded ++
  (if state.trackingEnabled then
    [.ofBytes [bytes "CLIENT", bytes "TRACKING", bytes "OFF"]] else []) ++
  (if state.selectedDb ≠ parentDb then
    [.ofBytes [bytes "SELECT", bytes (toString parentDb)]] else []) ++
  (if state.clientNameChanged then
    [.ofBytes [bytes "CLIENT", bytes "SETNAME", configuredClientName]] else [])

def pipelineRepliesOk : Option (RedisResult (List Value)) → Bool
  | some (.ok replies) => !replies.any fun
      | .serverError _ => true
      | _ => false
  | _ => false

/-! ## The system around the pool -/

inductive CleanupPhase where
  | waiting
  | cleaning
  | settling (seated : Option ScopedConnection)
  deriving DecidableEq, Repr

structure Cleanup where
  cell : Nat
  parentDb : Nat
  poolKnown : Bool
  phase : CleanupPhase
  deriving DecidableEq, Repr

structure WaitingCommand where
  caller : Nat
  scopeId : Nat
  cell : Nat
  name : Bytes
  args : List Bytes
  deriving DecidableEq, Repr

structure RunningCommand where
  caller : Nat
  scopeId : Nat
  cell : Nat
  isBlocking : Bool
  alreadyPoisoned : Bool
  deriving DecidableEq, Repr

/--
The pool, the registry and what the tasks around them hold.  `registered` says
whether the pool can be found by its client's id.  The last two fields record who
uses what: `borrowers` the caller each socket is lent to, until a release of it is
accepted, and `held` the scope ids each caller has acquired and not released.
-/
structure ScopeSystem where
  pool : ScopePool
  registry : AList fun _ : Nat => Nat
  cells : List ScopedConnection
  registered : Bool
  reservations : Nat
  resyncs : List (ScopedConnection × Nat)
  cleanups : List Cleanup
  waiting : List WaitingCommand
  running : List RunningCommand
  nextScopeId : Nat
  borrowers : AList fun _ : Nat => Nat
  held : List (Nat × Nat)

inductive ScopeAction where
  | acquire (caller now : Nat) (target : ScopeTarget) (runtimeDb : Nat)
      (acquisitionSlot : Option Nat)
  | prewarm
  | createSucceeded (now : Nat) (target : ScopeTarget) (databaseId : Nat)
  | dropReservation
  | beginResync (target : ScopeTarget) (runtimeDb : Nat)
  | resyncReplied (index now : Nat) (replies : Option (RedisResult (List Value)))
  | submit (caller scopeId : Nat) (name : Bytes) (args : List Bytes)
  | start (index : Nat)
  | finish (index : Nat) (result : RedisResult Value)
  | cancelWaiting (index : Nat)
  | cancelRunning (index : Nat)
  | release (caller scopeId now : Nat)
  | cleanupStart (index : Nat)
  | cleanupReplied (index now : Nat) (replies : Option (RedisResult (List Value)))
  | cleanupSettled (index : Nat)
  | removeEntry (scopeId : Nat)
  | unregister
  | destroy

namespace ScopeSystem

def initial (pool : ScopePool) : ScopeSystem :=
  ⟨pool, ∅, [], true, 0, [], [], [], [], 1, ∅, []⟩

def locked (sys : ScopeSystem) (cell : Nat) : Bool :=
  sys.running.any (fun command => command.cell == cell) ||
    sys.cleanups.any fun cleanup => cleanup.cell == cell && cleanup.phase == .cleaning

def discardSlot (sys : ScopeSystem) : ScopeSystem :=
  { sys with pool := { sys.pool with totalCount := saturatingDec sys.pool.totalCount } }

def dropReservation (sys : ScopeSystem) : Option ScopeSystem :=
  match sys.reservations with
  | 0 => none
  | reservations + 1 => some { sys.discardSlot with reservations := reservations }

def lend (sys : ScopeSystem) (caller : Nat) (conn : ScopedConnection) (pool : ScopePool) :
    ScopeSystem :=
  { sys with
    pool := pool
    cells := sys.cells ++ [conn]
    registry := sys.registry.insert conn.scopeId sys.cells.length
    borrowers := sys.borrowers.insert conn.connection caller
    held := (caller, conn.scopeId) :: sys.held }

def acquire (sys : ScopeSystem) (caller now : Nat) (target : ScopeTarget) (runtimeDb : Nat)
    (acquisitionSlot : Option Nat) : ScopeSystem :=
  match sys.pool.tryAcquire now target runtimeDb acquisitionSlot with
  | (.reused conn, pool) => sys.lend caller conn pool
  | (.reserved, pool) => { sys with pool := pool, reservations := sys.reservations + 1 }
  | (.needsResync, pool) => { sys with pool := pool }
  | (.exhausted, pool) => { sys with pool := pool }

/-- A new socket is named by the scope id it is seated under. -/
def createSucceeded (sys : ScopeSystem) (now : Nat) (target : ScopeTarget) (databaseId : Nat) :
    Option ScopeSystem :=
  if sys.pool.state ≠ .running then sys.dropReservation
  else
    match sys.reservations with
    | 0 => none
    | reservations + 1 =>
      let conn : ScopedConnection :=
        ⟨sys.nextScopeId, sys.nextScopeId, now, none, .withConfiguredDb databaseId, none, none,
          target⟩
      some { sys with
        pool := { sys.pool with idle := conn :: sys.pool.idle }
        reservations := reservations
        nextScopeId := sys.nextScopeId + 1 }

def beginResync (sys : ScopeSystem) (target : ScopeTarget) (runtimeDb : Nat) : ScopeSystem :=
  match sys.pool.takeIdleForResync target runtimeDb with
  | (some conn, pool) =>
    { sys with pool := pool, resyncs := sys.resyncs ++ [(conn, runtimeDb)] }
  | (none, pool) => { sys with pool := pool }

def resyncReplied (sys : ScopeSystem) (index now : Nat)
    (replies : Option (RedisResult (List Value))) : Option ScopeSystem := do
  let (conn, runtimeDb) ← sys.resyncs[index]?
  let sys := { sys with resyncs := sys.resyncs.eraseIdx index }
  if pipelineRepliesOk replies then
    let conn := { conn with state := .withConfiguredDb runtimeDb, lastIdleAt := now }
    return { sys with pool := sys.pool.reidleAfterResync conn }
  else return sys.discardSlot

def submit (sys : ScopeSystem) (caller scopeId : Nat) (name : Bytes) (args : List Bytes) :
    ScopeSystem :=
  match sys.registry.lookup scopeId with
  | some cell => { sys with waiting := sys.waiting ++ [⟨caller, scopeId, cell, name, args⟩] }
  | none => sys

/-- A waiting command gets the mutex; unless it is turned down it is sent and keeps it. -/
def start (env : ScopeEnv) (sys : ScopeSystem) (index : Nat) : Option ScopeSystem := do
  let command ← sys.waiting[index]?
  let conn ← sys.cells[command.cell]?
  if sys.locked command.cell then none
  else
    let sys := { sys with waiting := sys.waiting.eraseIdx index }
    match beginCommand env conn command.name command.args with
    | (.send _ _ isBlocking alreadyPoisoned, conn) =>
      return { sys with
        cells := sys.cells.set command.cell conn
        running := sys.running ++
          [⟨command.caller, command.scopeId, command.cell, isBlocking, alreadyPoisoned⟩] }
    | (_, conn) => return { sys with cells := sys.cells.set command.cell conn }

def finish (sys : ScopeSystem) (index : Nat) (result : Option (RedisResult Value)) :
    Option ScopeSystem := do
  let command ← sys.running[index]?
  let conn ← sys.cells[command.cell]?
  let state := match result with
    | some result => finishCommand conn.state command.isBlocking command.alreadyPoisoned result
    | none => conn.state
  return { sys with
    cells := sys.cells.set command.cell { conn with state := state }
    running := sys.running.eraseIdx index }

def releaseInner (sys : ScopeSystem) (scopeId now : Nat) : Option (Bool × ScopeSystem) :=
  if scopeId ∉ sys.pool.inUse then some (false, sys)
  else
    let sys := { sys with pool := { sys.pool with inUse := sys.pool.inUse.erase scopeId } }
    match sys.registry.lookup scopeId with
    | none => some (false, sys)
    | some index =>
      let sys := { sys with registry := sys.registry.erase scopeId }
      if sys.pool.state ≠ .running then some (true, sys.discardSlot)
      else do
        let conn ← sys.cells[index]?
        if sys.locked index then return (true, sys.discardSlot)
        else if conn.state.isCleanFor conn.state.parentDb then
          let idle := conn.seated conn.state.selectedDb now :: sys.pool.idle
          return (true, { sys with pool := { sys.pool with idle := idle } })
        else if conn.state.blockingInFlight || conn.state.mustDiscard then
          return (true, sys.discardSlot)
        else
          let cleanup := ⟨index, conn.state.parentDb, sys.registered, .waiting⟩
          return (true, { sys with cleanups := sys.cleanups ++ [cleanup] })

def connectionOf (sys : ScopeSystem) (scopeId : Nat) : Option Nat := do
  let index ← sys.registry.lookup scopeId
  let conn ← sys.cells[index]?
  return conn.connection

/-- A caller that releases gives its id up; the socket is free once that is accepted. -/
def release (sys : ScopeSystem) (caller scopeId now : Nat) : Option ScopeSystem := do
  let (accepted, next) ← sys.releaseInner scopeId now
  let borrowers := match accepted, sys.connectionOf scopeId with
    | true, some connection => sys.borrowers.erase connection
    | _, _ => sys.borrowers
  return { next with
    borrowers := borrowers
    held := sys.held.filter (· ≠ (caller, scopeId)) }

def setPhase (sys : ScopeSystem) (index : Nat) (cleanup : Cleanup) (phase : CleanupPhase) :
    ScopeSystem :=
  { sys with cleanups := sys.cleanups.set index { cleanup with phase := phase } }

def cleanupStart (sys : ScopeSystem) (index : Nat) : Option ScopeSystem := do
  let cleanup ← sys.cleanups[index]?
  if cleanup.phase ≠ .waiting ∨ sys.locked cleanup.cell then none
  else return sys.setPhase index cleanup .cleaning

def cleanupReplied (sys : ScopeSystem) (index now : Nat)
    (replies : Option (RedisResult (List Value))) : Option ScopeSystem := do
  let cleanup ← sys.cleanups[index]?
  let conn ← sys.cells[cleanup.cell]?
  if cleanup.phase ≠ .cleaning then none
  else
    let pipeline := cleanupPipeline conn.state cleanup.parentDb sys.pool.configuredClientName
    let seated :=
      if pipeline = [] ∨ pipelineRepliesOk replies then some (conn.seated cleanup.parentDb now)
      else none
    return sys.setPhase index cleanup (.settling seated)

def cleanupSettled (sys : ScopeSystem) (index : Nat) : Option ScopeSystem := do
  let cleanup ← sys.cleanups[index]?
  let sys := { sys with cleanups := sys.cleanups.eraseIdx index }
  match cleanup.phase with
  | .settling seated =>
    if cleanup.poolKnown then
      match seated with
      | some conn => return { sys with pool := sys.pool.reidleAfterResync conn }
      | none => return sys.discardSlot
    else return sys
  | _ => none

def destroy (sys : ScopeSystem) : ScopeSystem :=
  { sys with
    pool := sys.pool.destroy
    registry := sys.pool.inUse.foldl (fun registry scopeId => registry.erase scopeId)
      sys.registry }

def step (env : ScopeEnv) (sys : ScopeSystem) : ScopeAction → Option ScopeSystem
  | .acquire caller now target runtimeDb acquisitionSlot =>
    some (sys.acquire caller now target runtimeDb acquisitionSlot)
  | .prewarm =>
    match sys.pool.reserveSlot with
    | (true, pool) => some { sys with pool := pool, reservations := sys.reservations + 1 }
    | (false, _) => some sys
  | .createSucceeded now target databaseId => sys.createSucceeded now target databaseId
  | .dropReservation => sys.dropReservation
  | .beginResync target runtimeDb => some (sys.beginResync target runtimeDb)
  | .resyncReplied index now replies => sys.resyncReplied index now replies
  | .submit caller scopeId name args => some (sys.submit caller scopeId name args)
  | .start index => sys.start env index
  | .finish index result => sys.finish index (some result)
  | .cancelWaiting index => some { sys with waiting := sys.waiting.eraseIdx index }
  | .cancelRunning index => sys.finish index none
  | .release caller scopeId now => sys.release caller scopeId now
  | .cleanupStart index => sys.cleanupStart index
  | .cleanupReplied index now replies => sys.cleanupReplied index now replies
  | .cleanupSettled index => sys.cleanupSettled index
  | .removeEntry scopeId => some { sys with registry := sys.registry.erase scopeId }
  | .unregister => some { sys with registered := false }
  | .destroy => some sys.destroy

end ScopeSystem

end ValkeyGlide.Scope
