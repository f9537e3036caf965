import Mathlib.Algebra.Order.Group.Nat
import Mathlib.Tactic.Common
import ValkeyGlide.Cluster.Routing

/-!
# Scoped connections

A connection borrowed for isolated execution (`pool.rs`, `scope.rs`): the session
state recorded for it, the slot check of a command, and the two parts of executing
a command, before it is sent and after its result is known.
-/

namespace ValkeyGlide.Scope

open Protocol Cluster

/-! ## Command names -/

/--
The upper case of a text.  Apart from the letters of ASCII these are the letters
whose upper case is ASCII; no name contains the upper case of another letter.
-/
def toUppercase : Bytes → Bytes
  | [] => []
  | 0xC3 :: 0x9F :: rest => bytes "SS" ++ toUppercase rest
  | 0xC4 :: 0xB1 :: rest => bytes "I" ++ toUppercase rest
  | 0xC5 :: 0xBF :: rest => bytes "S" ++ toUppercase rest
  | 0xEF :: 0xAC :: 0x80 :: rest => bytes "FF" ++ toUppercase rest
  | 0xEF :: 0xAC :: 0x81 :: rest => bytes "FI" ++ toUppercase rest
  | 0xEF :: 0xAC :: 0x82 :: rest => bytes "FL" ++ toUppercase rest
  | 0xEF :: 0xAC :: 0x83 :: rest => bytes "FFI" ++ toUppercase rest
  | 0xEF :: 0xAC :: 0x84 :: rest => bytes "FFL" ++ toUppercase rest
  | 0xEF :: 0xAC :: 0x85 :: rest => bytes "ST" ++ toUppercase rest
  | 0xEF :: 0xAC :: 0x86 :: rest => bytes "ST" ++ toUppercase rest
  | byte :: rest => toAsciiUppercase byte :: toUppercase rest

def isBlockingCommandName (name : Bytes) (args : List Bytes) : Bool :=
  let upper := asciiUppercase name
  if upper ∈ ["BLPOP", "BRPOP", "BLMOVE", "BZPOPMAX", "BZPOPMIN", "BRPOPLPUSH", "BLMPOP",
      "BZMPOP", "WAIT", "WAITAOF"].map bytes then true
  else if upper ∈ ["XREAD", "XREADGROUP"].map bytes then
    args.any fun arg => eqIgnoreAsciiCase arg (bytes "BLOCK")
  else false

def isBlockingCommand (cmd : Cmd) : Bool :=
  let command := cmd.command.getD []
  if command ∈ ["XREAD", "XREADGROUP"].map bytes then (cmd.position (bytes "BLOCK")).isSome
  else isBlockingCommandName command []

/-! ## The recorded session state -/

inductive ScopeSubscription where
  | channel (name : Bytes)
  | pattern (name : Bytes)
  | shardedChannel (name : Bytes)
  deriving DecidableEq, Repr

structure ConnectionState where
  watchActive : Bool := false
  multiActive : Bool := false
  trackingEnabled : Bool := false
  selectedDb : Nat := 0
  parentDb : Nat := 0
  clientNameChanged : Bool := false
  subscriptions : List ScopeSubscription := []
  blockingInFlight : Bool := false
  mustDiscard : Bool := false
  deriving DecidableEq, Repr

namespace ConnectionState

def withConfiguredDb (db : Nat) : ConnectionState :=
  { selectedDb := db, parentDb := db }

def beginBorrow (state : ConnectionState) (parentDb : Nat) : ConnectionState :=
  { selectedDb := state.selectedDb, parentDb := parentDb }

def hasSubscriptions (state : ConnectionState) : Bool := !state.subscriptions.isEmpty

def isCleanFor (state : ConnectionState) (parentDb : Nat) : Bool :=
  !state.watchActive && !state.multiActive && !state.trackingEnabled &&
    state.selectedDb == parentDb && !state.clientNameChanged &&
    state.subscriptions.isEmpty && !state.blockingInFlight && !state.mustDiscard

end ConnectionState

def parseDb (arg : Bytes) : Option Nat := parseUnsigned (2 ^ 32 - 1) arg

/-- The record is updated from the command alone, before the command is sent. -/
def updateStateForCommand (state : ConnectionState) (cmd : Bytes) (args : List Bytes) :
    ConnectionState :=
  let name := toUppercase cmd
  if name = bytes "WATCH" then { state with watchActive := true }
  else if name = bytes "UNWATCH" then { state with watchActive := false }
  else if name = bytes "MULTI" then { state with multiActive := true }
  else if name = bytes "EXEC" ∨ name = bytes "DISCARD" then
    { state with watchActive := false, multiActive := false }
  else if name = bytes "SELECT" then
    match args.head?.bind parseDb with
    | some db => { state with selectedDb := db }
    | none => state
  else if name = bytes "CLIENT" then
    match args with
    | sub :: value :: _ =>
      if toUppercase sub = bytes "TRACKING" then
        { state with trackingEnabled := toUppercase value = bytes "ON" }
      else if toUppercase sub = bytes "SETNAME" then { state with clientNameChanged := true }
      else state
    | _ => state
  else if name = bytes "SUBSCRIBE" then
    { state with subscriptions := state.subscriptions ++ args.map .channel }
  else if name = bytes "PSUBSCRIBE" then
    { state with subscriptions := state.subscriptions ++ args.map .pattern }
  else if name = bytes "SSUBSCRIBE" then
    { state with subscriptions := state.subscriptions ++ args.map .shardedChannel }
  else state

/-! ## The slot of a command -/

/-- What the checks of a command depend on besides the connection. -/
structure ScopeEnv where
  crc16 : Bytes → Nat
  order : IterationOrder
  isCluster : Bool

def standaloneEnv : ScopeEnv := ⟨fun _ => 0, .inserted, false⟩

inductive ScopeSlot where
  | unconstrained
  | slot (slot : Nat)
  | crossSlot
  deriving DecidableEq, Repr

def slotOfUnanimousKeys (crc16 : Bytes → Nat) : List Bytes → ScopeSlot
  | [] => .unconstrained
  | first :: rest =>
    let slot := getSlot crc16 first
    if rest.all fun key => getSlot crc16 key == slot then .slot slot else .crossSlot

def scriptCommands : List Bytes :=
  ["EVAL", "EVALSHA", "EVAL_RO", "EVALSHA_RO", "FCALL", "FCALL_RO"].map bytes

/-- `none` is the overflow of the key count, a panic in a build that checks arithmetic. -/
def scopeSlotForCommand (env : ScopeEnv) (cmdName : Bytes) (args : List Bytes) :
    Option ScopeSlot :=
  if toUppercase cmdName ∈ scriptCommands then
    let numkeys := (args[1]?.bind (parseUnsigned (2 ^ 64 - 1))).getD 0
    if 2 ^ 64 ≤ 2 + numkeys then none
    else if 2 + numkeys ≤ args.length then
      some (slotOfUnanimousKeys env.crc16 ((args.drop 2).take numkeys))
    else some .unconstrained
  else
    match forRoutable env.crc16 env.order (.ofBytes (cmdName :: args)) with
    | some (.singleNode (.specificNode route)) => some (.slot route.slot)
    | some (.multiNode (.multiSlot routes _) _) =>
      match routes with
      | [] => some .unconstrained
      | (first, _) :: rest =>
        if rest.all fun entry => entry.1.slot == first.slot then some (.slot first.slot)
        else some .crossSlot
    | _ => some .unconstrained

/-! ## Executing a command -/

inductive ScopeTarget where
  | standalone
  | clusterPrimary (address : String)
  deriving DecidableEq, Repr

/-- `connection` names the socket; a connection keeps its scope id from borrow to borrow. -/
structure ScopedConnection where
  scopeId : Nat
  connection : Nat
  lastIdleAt : Nat
  borrowedAt : Option Nat
  state : ConnectionState
  pinnedSlot : Option Nat
  acquisitionSlot : Option Nat
  target : ScopeTarget
  deriving DecidableEq, Repr

inductive Dispatch where
  | rejected (error : RedisError)
  | panicked
  | send (cmd : Cmd) (deferReauth isBlocking alreadyPoisoned : Bool)

def crossSlotError (detail : String) : RedisError :=
  .withDescriptionAndDetail .crossSlot "CROSSSLOT" detail

def checkSlot (env : ScopeEnv) (conn : ScopedConnection) (cmdName : Bytes)
    (args : List Bytes) : Except Dispatch ScopedConnection :=
  match scopeSlotForCommand env cmdName args with
  | none => .error .panicked
  | some .unconstrained => .ok conn
  | some .crossSlot =>
    .error (.rejected (crossSlotError "Cross-slot error: command keys span multiple slots"))
  | some (.slot slot) =>
    match conn.pinnedSlot.or conn.acquisitionSlot with
    | none => .ok { conn with pinnedSlot := some slot }
    | some pinned =>
      if pinned = slot then .ok { conn with pinnedSlot := some pinned }
      else .error (.rejected (crossSlotError
        s!"Cross-slot error: command targets slot {slot} but scope is pinned to slot {pinned}"))

def beginCommand (env : ScopeEnv) (conn : ScopedConnection) (cmdName : Bytes)
    (args : List Bytes) : Dispatch × ScopedConnection :=
  let multiActiveBefore := conn.state.multiActive
  let subscribedBefore := conn.state.hasSubscriptions
  let conn := { conn with state := updateStateForCommand conn.state cmdName args }
  let checked :=
    if env.isCluster && !multiActiveBefore then checkSlot env conn cmdName args else .ok conn
  match checked with
  | .error dispatch => (dispatch, conn)
  | .ok conn =>
    let cmd := Cmd.ofBytes (cmdName :: args)
    let isBlocking := isBlockingCommand cmd
    let alreadyPoisoned := conn.state.blockingInFlight
    let state := if isBlocking then { conn.state with blockingInFlight := true } else conn.state
    (.send cmd (multiActiveBefore || subscribedBefore) isBlocking alreadyPoisoned,
      { conn with state := state })

variable {args : List Bytes} {cmdName : Bytes} {conn : ScopedConnection} {env : ScopeEnv}

theorem checkSlot_pins {checked : ScopedConnection}
    (hchecked : checkSlot env conn cmdName args = .ok checked) :
    ∃ pinned, checked = { conn with pinnedSlot := pinned } := by
  unfold checkSlot at hchecked
  split at hchecked
  · contradiction
  · exact ⟨_, (Except.ok.inj hchecked).symm⟩
  · contradiction
  · split at hchecked
    · exact ⟨_, (Except.ok.inj hchecked).symm⟩
    · split_ifs at hchecked
      exact ⟨_, (Except.ok.inj hchecked).symm⟩

theorem checkSlot_error {dispatch : Dispatch}
    (hchecked : checkSlot env conn cmdName args = .error dispatch) :
    dispatch = .panicked ∨ ∃ error, dispatch = .rejected error := by
  unfold checkSlot at hchecked
  split at hchecked
  · exact .inl (Except.error.inj hchecked).symm
  · contradiction
  · exact .inr ⟨_, (Except.error.inj hchecked).symm⟩
  · split at hchecked
    · contradiction
    · split_ifs at hchecked
      exact .inr ⟨_, (Except.error.inj hchecked).symm⟩

inductive Begins (conn : ScopedConnection) (cmdName : Bytes) (args : List Bytes) :
    Dispatch × ScopedConnection → Prop where
  | refused (dispatch : Dispatch)
      (hrefused : dispatch = .panicked ∨ ∃ error, dispatch = .rejected error) :
      Begins conn cmdName args
        (dispatch, { conn with state := updateStateForCommand conn.state cmdName args })
  | sent (deferReauth : Bool) (pinned : Option Nat) :
      Begins conn cmdName args
        (.send (.ofBytes (cmdName :: args)) deferReauth
          (isBlockingCommand (.ofBytes (cmdName :: args)))
          (updateStateForCommand conn.state cmdName args).blockingInFlight,
        { conn with
          state :=
            if isBlockingCommand (.ofBytes (cmdName :: args)) then
              { updateStateForCommand conn.state cmdName args with blockingInFlight := true }
            else updateStateForCommand conn.state cmdName args
          pinnedSlot := pinned })

theorem beginCommand_begins (env : ScopeEnv) (conn : ScopedConnection) (cmdName : Bytes)
    (args : List Bytes) : Begins conn cmdName args (beginCommand env conn cmdName args) := by
  unfold beginCommand
  dsimp only
  split
  · next dispatch hchecked =>
      split_ifs at hchecked
      exact .refused dispatch (checkSlot_error hchecked)
  · next checked hchecked =>
      split_ifs at hchecked
      · obtain ⟨pinned, rfl⟩ := checkSlot_pins hchecked
        exact .sent _ pinned
      · cases hchecked
        exact .sent _ conn.pinnedSlot

theorem beginCommand_identity (env : ScopeEnv) (conn : ScopedConnection) (cmdName : Bytes)
    (args : List Bytes) :
    (beginCommand env conn cmdName args).2.scopeId = conn.scopeId ∧
      (beginCommand env conn cmdName args).2.connection = conn.connection := by
  have hbegins := beginCommand_begins env conn cmdName args
  generalize beginCommand env conn cmdName args = begun at hbegins
  cases hbegins <;> exact ⟨rfl, rfl⟩

/-- The result leaves a blocking command's waiter armed, or the connection in doubt. -/
def isPoisoning : RedisResult Value → Bool
  | .ok _ => false
  | .error error => error.isIoError || error.isConnectionDropped || error.kind == .protocolDesync

def finishCommand (state : ConnectionState) (isBlocking alreadyPoisoned : Bool)
    (result : RedisResult Value) : ConnectionState :=
  let state := match result with
    | .error error =>
      if error.kind = .authenticationFailed then { state with mustDiscard := true } else state
    | .ok _ => state
  if isBlocking then
    { state with blockingInFlight := alreadyPoisoned || isPoisoning result }
  else state

end ValkeyGlide.Scope
