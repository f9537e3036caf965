import Mathlib.Algebra.Group.Int.Defs
import ValkeyGlide.Cluster.Routing
import ValkeyGlide.Foundation.Run
import ValkeyGlide.Server.Session

/-!
# The client's record of the selected database

A client keeps the selected database twice: in the connection information of
each node, which a reconnect uses, and in `current_database`, which new scopes
inherit.  Both are updated by handlers that look at the name of a command after
its reply.  The model is a client with any number of nodes, standalone or of a
cluster, and the session of each node on the server.  In a cluster the caller may say
where a command goes, while the handlers update the records of all nodes.
-/

namespace ValkeyGlide.Client

open Protocol Foundation Server Cluster

/-! ## The stored connection information -/

inductive ProtocolVersion where
  | resp2
  | resp3
  deriving DecidableEq, Repr

structure ConnectionInfo where
  db : Int
  protocol : ProtocolVersion := .resp3
  clientName : Option Bytes := none
  username : Option Bytes := none
  password : Option Bytes := none
  deriving DecidableEq, Repr

/-- The standard library's view of byte strings as texts. -/
structure TextEnv where
  isUtf8 : Bytes → Bool
  toUppercase : Bytes → Bytes
  isUtf8_of_ascii : ∀ text : Bytes, (∀ byte ∈ text, byte < 128) → isUtf8 text = true

/-- With the checksum of keys and the order of hash maps, which routing depends on. -/
structure ClientEnv extends TextEnv where
  crc16 : Bytes → Nat
  order : IterationOrder

def TextEnv.fromUtf8 (env : TextEnv) (data : Bytes) : Option Bytes :=
  if env.isUtf8 data then some data else none

structure ClientNode where
  connectionInfo : ConnectionInfo
  session : Session

inductive ClientWrapper where
  | standalone
  | cluster
  deriving DecidableEq, Repr

/-- The nodes of a cluster share their connection information; here each has a copy. -/
structure DatabaseClient where
  wrapper : ClientWrapper
  nodes : List ClientNode
  currentDatabase : Nat
  desiredSubscriptions : List Subscription

namespace DatabaseClient

def updateConnectionInfo (client : DatabaseClient) (change : ConnectionInfo → ConnectionInfo) :
    DatabaseClient :=
  { client with
    nodes := client.nodes.map fun node =>
      { node with connectionInfo := change node.connectionInfo } }

def updateStoredDatabaseId (client : DatabaseClient) (databaseId : Int) : DatabaseClient :=
  client.updateConnectionInfo fun info => { info with db := databaseId }

def updateStoredClientName (client : DatabaseClient) (clientName : Option Bytes) :
    DatabaseClient :=
  client.updateConnectionInfo fun info => { info with clientName := clientName }

def updateStoredUsername (client : DatabaseClient) (username : Option Bytes) : DatabaseClient :=
  client.updateConnectionInfo fun info => { info with username := username }

def updateStoredPassword (client : DatabaseClient) (password : Option Bytes) : DatabaseClient :=
  client.updateConnectionInfo fun info => { info with password := password }

def updateStoredProtocol (client : DatabaseClient) (protocol : ProtocolVersion) :
    DatabaseClient :=
  client.updateConnectionInfo fun info => { info with protocol := protocol }

def removeDesiredSubscriptions (client : DatabaseClient) (kind : SubscriptionKind) :
    DatabaseClient :=
  { client with
    desiredSubscriptions := client.desiredSubscriptions.filter fun entry => entry.1 ≠ kind }

/-! ## The handlers -/

def isCommand (name : String) (cmd : Cmd) : Bool :=
  cmd.command == some (bytes name)

def isSelectCommand : Cmd → Bool := isCommand "SELECT"
def isClientSetNameCommand : Cmd → Bool := isCommand "CLIENT SETNAME"
def isAuthCommand : Cmd → Bool := isCommand "AUTH"
def isHelloCommand : Cmd → Bool := isCommand "HELLO"
def isResetCommand : Cmd → Bool := isCommand "RESET"

def extractDatabaseIdFromSelect (env : TextEnv) (cmd : Cmd) : Except RedisError Int :=
  match cmd.argIdx 1 with
  | none => .error (.withDescription .responseError "SELECT command missing database argument")
  | some data =>
    match env.fromUtf8 data with
    | none => .error (.withDescription .responseError "Invalid database ID format")
    | some text =>
      match parseSigned (2 ^ 63 - 1) text with
      | none => .error (.withDescription .responseError "Database ID must be a valid integer")
      | some databaseId => .ok databaseId

/-- `current_database` has 32 bits. -/
def handleSelectCommand (env : TextEnv) (client : DatabaseClient) (cmd : Cmd) :
    Except RedisError DatabaseClient := do
  let databaseId ← extractDatabaseIdFromSelect env cmd
  return { client.updateStoredDatabaseId databaseId with
    currentDatabase := (databaseId % 2 ^ 32).toNat }

def handleClientSetNameCommand (env : TextEnv) (client : DatabaseClient) (cmd : Cmd) :
    DatabaseClient :=
  client.updateStoredClientName ((cmd.argIdx 2).bind env.fromUtf8)

def extractAuthInfo (env : TextEnv) (cmd : Cmd) : Option Bytes × Option Bytes :=
  match (cmd.argIdx 1).bind env.fromUtf8, (cmd.argIdx 2).bind env.fromUtf8 with
  | some username, some password => (some username, some password)
  | some password, none => (none, some password)
  | none, _ => (none, none)

def storeCredentials (client : DatabaseClient) (username password : Option Bytes) :
    DatabaseClient :=
  let client := if username.isSome then client.updateStoredUsername username else client
  if password.isSome then client.updateStoredPassword password else client

def handleAuthCommand (env : TextEnv) (client : DatabaseClient) (cmd : Cmd) : DatabaseClient :=
  let (username, password) := extractAuthInfo env cmd
  client.storeCredentials username password

structure HelloInfo where
  protocol : Option ProtocolVersion := none
  username : Option Bytes := none
  password : Option Bytes := none
  clientName : Option Bytes := none

def helloProtocol (env : TextEnv) (data : Bytes) : Option ProtocolVersion :=
  (env.fromUtf8 data).bind fun text =>
    if text = bytes "2" then some .resp2 else if text = bytes "3" then some .resp3 else none

def helloOptions (env : TextEnv) : List Bytes → HelloInfo → HelloInfo
  | [], info => info
  | arg :: rest, info =>
    match env.fromUtf8 arg with
    | none => info
    | some text =>
      if env.toUppercase text = bytes "AUTH" then
        helloOptions env (rest.drop 2) { info with
          username := rest.head?.bind env.fromUtf8
          password := rest[1]?.bind env.fromUtf8 }
      else if env.toUppercase text = bytes "SETNAME" then
        helloOptions env (rest.drop 1) { info with clientName := rest.head?.bind env.fromUtf8 }
      else helloOptions env rest info
  termination_by args => args.length
  decreasing_by all_goals simp only [List.length_cons, List.length_drop]; omega

def extractHelloInfo (env : TextEnv) (cmd : Cmd) : HelloInfo :=
  helloOptions env (cmd.data.drop 2) { protocol := (cmd.argIdx 1).bind (helloProtocol env) }

def handleHelloCommand (env : TextEnv) (client : DatabaseClient) (cmd : Cmd) : DatabaseClient :=
  let info := extractHelloInfo env cmd
  let client := match info.protocol with
    | some protocol => client.updateStoredProtocol protocol
    | none => client
  let client := client.storeCredentials info.username info.password
  if info.clientName.isSome then client.updateStoredClientName info.clientName else client

def handleResetCommand (client : DatabaseClient) : DatabaseClient :=
  let client := client.updateStoredDatabaseId 0
  let client := client.updateStoredClientName none
  let client := client.updateStoredProtocol .resp2
  [SubscriptionKind.channel, .pattern, .shardedChannel].foldl removeDesiredSubscriptions client

def handleReply (env : TextEnv) (client : DatabaseClient) (cmd : Cmd) :
    Except RedisError DatabaseClient := do
  let client := if isClientSetNameCommand cmd then client.handleClientSetNameCommand env cmd
    else client
  let client ← if isSelectCommand cmd then client.handleSelectCommand env cmd else pure client
  let client := if isAuthCommand cmd then client.handleAuthCommand env cmd else client
  let client := if isHelloCommand cmd then client.handleHelloCommand env cmd else client
  let client := if isResetCommand cmd then client.handleResetCommand else client
  return client

/-! ## Dispatch -/

def isAllNodes (cmd : Cmd) : Bool :=
  cmd.command.any fun name => baseRouting name == .allNodes

/-- The routing of a command of a cluster client, from the one that the caller asks for. -/
def finalRouting (env : ClientEnv) (cmd : Cmd) (routing : Option RoutingInfo) : RoutingInfo :=
  match routing with
  | some (.singleNode .random) =>
    if isReadonlyCmd (cmd.command.getD []) then .singleNode .random
    else .singleNode .randomPrimary
  | routing => (routing.or (forRoutable env.crc16 env.order cmd)).getD (.singleNode .random)

def goesToAllNodes (env : ClientEnv) (wrapper : ClientWrapper) (cmd : Cmd)
    (routing : Option RoutingInfo) : Bool :=
  match wrapper with
  | .standalone => isAllNodes cmd
  | .cluster =>
    match finalRouting env cmd routing with
    | .multiNode .allNodes _ => true
    | _ => false

/-! ## Runs -/

/--
A command is sent to all nodes or to those at `targets`, which the route resolves to,
and `answered` says whether its reply arrives before the request times out: a request
that has timed out is dropped with its handlers.
-/
inductive Action where
  | command (word : Bytes) (params : List Bytes) (routing : Option RoutingInfo)
      (targets : List Nat) (answered : Bool)
  | reconnect (node : Nat)
  deriving DecidableEq, Repr

def create (wrapper : ClientWrapper) (databaseId : Nat) (nodes : Nat) : DatabaseClient :=
  ⟨wrapper, List.replicate nodes ⟨{ db := databaseId }, .fresh databaseId⟩, databaseId, []⟩

/-- The server selects a database only by its number. -/
def acceptable (word : Bytes) (params : List Bytes) : Bool :=
  asciiUppercase word ≠ bytes "SELECT" || SessionCommand.parse word params ≠ .other

/-- A caller names no plan of slots. -/
def isSplit : RoutingInfo → Bool
  | .multiNode (.multiSlot _ _) _ => true
  | _ => false

def reaches (env : ClientEnv) (client : DatabaseClient) (cmd : Cmd) (routing : Option RoutingInfo)
    (targets : List Nat) (index : Nat) : Bool :=
  goesToAllNodes env client.wrapper cmd routing || targets.contains index

def serve (env : ClientEnv) (client : DatabaseClient) (word : Bytes) (params : List Bytes)
    (routing : Option RoutingInfo) (targets : List Nat) : DatabaseClient :=
  { client with
    nodes := client.nodes.mapIdx fun index entry =>
      if client.reaches env (.ofBytes (word :: params)) routing targets index then
        { entry with session := entry.session.serve (.parse word params) (.accepted []) }
      else entry }

/-- Commands are sent outside a transaction; a new connection selects the stored database. -/
def step (env : ClientEnv) (client : DatabaseClient) : Action → Option DatabaseClient
  | .command word params routing targets answered =>
    if (client.nodes.all fun entry => entry.session.queue == none) && acceptable word params &&
        !routing.any isSplit then
      let served := client.serve env word params routing targets
      if answered then
        match served.handleReply env.toTextEnv (.ofBytes (word :: params)) with
        | .ok client => some client
        | .error _ => some served
      else some served
    else none
  | .reconnect node =>
    some { client with
      nodes := client.nodes.mapIdx fun index entry =>
        if index = node then
          { entry with session := .fresh entry.connectionInfo.db.toNat }
        else entry }

/-- A reconnect and a new scope land on the database that is selected. -/
def Faithful (client : DatabaseClient) : Prop :=
  ∀ entry ∈ client.nodes, entry.connectionInfo.db = entry.session.db ∧
    client.currentDatabase = entry.session.db

/--
`RESET` finds database 0 selected; a change of database reaches every node and is answered
in time, or it reaches none and is not answered.
-/
def Regular (env : ClientEnv) (client : DatabaseClient) : Action → Prop
  | .command word params routing targets answered =>
    let reached := client.reaches env (.ofBytes (word :: params)) routing targets
    match SessionCommand.parse word params with
    | .reset => ∀ index entry, client.nodes[index]? = some entry →
        entry.session.db = 0 ∨ answered = false ∧ reached index = false
    | .select db => ∀ index entry, client.nodes[index]? = some entry →
        entry.session.db = db ∨ reached index = answered
    | _ => True
  | .reconnect _ => True

/-! ## What the steps do to the databases -/

def databases (client : DatabaseClient) : List (Int × Nat) :=
  client.nodes.map fun entry => (entry.connectionInfo.db, entry.session.db)

theorem forall_databases {client : DatabaseClient} {holds : Nat → Int × Nat → Prop} :
    (∀ (index : Nat) entry, client.databases[index]? = some entry → holds index entry) ↔
      ∀ (index : Nat) entry, client.nodes[index]? = some entry →
        holds index (entry.connectionInfo.db, entry.session.db) := by
  refine forall_congr' fun index => ?_
  rw [databases, List.getElem?_map]
  cases client.nodes[index]? <;> simp

variable {client : DatabaseClient}

theorem faithful_iff :
    client.Faithful ↔ ∀ (index : Nat) (entry : Int × Nat), client.databases[index]? = some entry →
      entry.1 = entry.2 ∧ client.currentDatabase = entry.2 := by
  rw [@forall_databases client fun _ entry => entry.1 = entry.2 ∧ client.currentDatabase = entry.2]
  simp only [Faithful, List.mem_iff_getElem?, forall_exists_index]
  exact forall_comm

theorem databases_updateStoredDatabaseId (client : DatabaseClient) (databaseId : Int) :
    (client.updateStoredDatabaseId databaseId).databases =
      client.databases.map fun entry => (databaseId, entry.2) := by
  simp [databases, updateStoredDatabaseId, updateConnectionInfo]

def SameRecord (client client' : DatabaseClient) : Prop :=
  client'.databases = client.databases ∧ client'.currentDatabase = client.currentDatabase

theorem SameRecord.ite {before changed : DatabaseClient} {p : Prop} [Decidable p]
    (hbefore : SameRecord client before) (hchanged : SameRecord before changed) :
    SameRecord client (if p then changed else before) := by
  split
  · exact ⟨hchanged.1.trans hbefore.1, hchanged.2.trans hbefore.2⟩
  · exact hbefore

theorem sameRecord_updateConnectionInfo (client : DatabaseClient)
    {change : ConnectionInfo → ConnectionInfo} (hdb : ∀ info, (change info).db = info.db) :
    SameRecord client (client.updateConnectionInfo change) :=
  ⟨by simp [databases, updateConnectionInfo, hdb], rfl⟩

section Handlers

variable (env : TextEnv) (client : DatabaseClient)

theorem SameRecord.storeCredentials {before : DatabaseClient} (hbefore : SameRecord client before)
    (username password : Option Bytes) :
    SameRecord client (before.storeCredentials username password) := by
  rw [DatabaseClient.storeCredentials]
  refine SameRecord.ite (SameRecord.ite hbefore ?_) ?_
  · exact sameRecord_updateConnectionInfo before fun _ => rfl
  · exact sameRecord_updateConnectionInfo _ fun _ => rfl

theorem sameRecord_handleHelloCommand (cmd : Cmd) :
    SameRecord client (client.handleHelloCommand env cmd) := by
  rw [handleHelloCommand]
  refine SameRecord.ite (SameRecord.storeCredentials client ?_ _ _)
    (sameRecord_updateConnectionInfo _ fun _ => rfl)
  split
  · exact sameRecord_updateConnectionInfo client fun _ => rfl
  · exact ⟨rfl, rfl⟩

theorem handleReply_other {cmd : Cmd} (hselect : isSelectCommand cmd = false)
    (hreset : isResetCommand cmd = false) :
    ∃ client', client.handleReply env cmd = .ok client' ∧ SameRecord client client' := by
  refine ⟨_, by simp only [handleReply, hselect, hreset, Bool.false_eq_true, if_false]; rfl, ?_⟩
  refine SameRecord.ite (SameRecord.ite (SameRecord.ite ⟨rfl, rfl⟩ ?_) ?_) ?_
  · exact sameRecord_updateConnectionInfo client fun _ => rfl
  · exact SameRecord.storeCredentials _ ⟨rfl, rfl⟩ _ _
  · exact sameRecord_handleHelloCommand env _ cmd

theorem isCommand_eq_decide {word : Bytes} (params : List Bytes) (name : String)
    (hspace : 32 ∉ bytes name) (hname : bytes name ∉ Cmd.twoWordCommands.map bytes) :
    isCommand name (.ofBytes (word :: params)) = decide (asciiUppercase word = bytes name) := by
  rw [isCommand, Bool.eq_iff_iff, beq_iff_eq, decide_eq_true_iff]
  exact Cmd.command_eq_some_iff params hspace hname

end Handlers

/-! ## Recognising `SELECT` and `RESET` -/

section Parse

variable {word : Bytes} {params : List Bytes}

theorem parse_select (hword : asciiUppercase word = bytes "SELECT")
    (haccepted : acceptable word params = true) :
    ∃ db arg, params.head? = some arg ∧ parseUnsigned (2 ^ 32 - 1) arg = some db ∧
      SessionCommand.parse word params = .select db := by
  cases hdb : params.head?.bind (parseUnsigned (2 ^ 32 - 1)) with
  | none =>
    have hparse : SessionCommand.parse word params = .other := by
      simp only [SessionCommand.parse, SessionCommand.read, hword, hdb]
      rfl
    simp [acceptable, hword, hparse] at haccepted
  | some db =>
    have hparse : SessionCommand.parse word params = .select db := by
      simp only [SessionCommand.parse, SessionCommand.read, hword, hdb]
      rfl
    obtain ⟨arg, harg, hvalue⟩ := Option.bind_eq_some_iff.mp hdb
    exact ⟨db, arg, harg, hvalue, hparse⟩

theorem parse_reset (hword : asciiUppercase word = bytes "RESET") :
    SessionCommand.parse word params = .reset := by
  rw [SessionCommand.parse, SessionCommand.read, hword]
  rfl

def KeepsDatabase (command : SessionCommand) : Prop :=
  command ≠ .reset ∧ ∀ db, command ≠ .select db

theorem keepsDatabase_readClient (upper : Bytes → Bytes) (args : List Bytes) :
    KeepsDatabase (SessionCommand.readClient upper SessionCommand.parseTracking args) := by
  unfold SessionCommand.readClient SessionCommand.parseTracking
  split
  · split_ifs <;> exact ⟨nofun, nofun⟩
  · exact ⟨nofun, nofun⟩

theorem parse_other (hselect : asciiUppercase word ≠ bytes "SELECT")
    (hreset : asciiUppercase word ≠ bytes "RESET") :
    KeepsDatabase (SessionCommand.parse word params) := by
  simp only [SessionCommand.parse, SessionCommand.read, hselect, hreset, if_false]
  repeat'
    first
    | refine iteInduction (fun _ => ?_) (fun _ => ?_)
    | exact keepsDatabase_readClient _ _
    | exact ⟨nofun, nofun⟩

end Parse

/-! ## Steps and runs -/

section Step

variable {env : ClientEnv} {client next : DatabaseClient} {word : Bytes} {params : List Bytes}
  {routing : Option RoutingInfo} {targets : List Nat} {f : Nat → Int × Nat → Int × Nat}

theorem serve_db {session : Session} (hqueue : session.queue = none) (command : SessionCommand) :
    (session.serve command (.accepted [])).db = (command.apply session.toSettings).db := by
  cases command <;> simp [Session.serve, hqueue, Session.perform, SessionCommand.apply]

theorem databases_mapIdx {change : Nat → ClientNode → ClientNode}
    (hnodes : next.nodes = client.nodes.mapIdx change) (hchange : ∀ index, ∀ entry ∈ client.nodes,
      ((change index entry).connectionInfo.db, (change index entry).session.db) =
        f index (entry.connectionInfo.db, entry.session.db)) (index : Nat) :
    next.databases[index]? = client.databases[index]?.map (f index) := by
  simp only [databases, hnodes, List.getElem?_map, List.getElem?_mapIdx]
  cases hentry : client.nodes[index]? with
  | none => rfl
  | some entry =>
    exact congrArg some (hchange index entry (List.mem_of_getElem? hentry))

theorem databases_serve (hqueue : ∀ entry ∈ client.nodes, entry.session.queue = none) {db : Nat}
    (happly : ∀ settings, ((SessionCommand.parse word params).apply settings).db = db) :
    ∀ index, (client.serve env word params routing targets).databases[index]? =
      client.databases[index]?.map fun entry => (entry.1,
        if client.reaches env (.ofBytes (word :: params)) routing targets index then db
        else entry.2) := by
  refine databases_mapIdx rfl fun index entry hentry => ?_
  split_ifs
  · rw [serve_db (hqueue entry hentry), happly]
  · rfl

theorem databases_serve_other (hqueue : ∀ entry ∈ client.nodes, entry.session.queue = none)
    (hkeeps : KeepsDatabase (SessionCommand.parse word params)) :
    (client.serve env word params routing targets).databases = client.databases := by
  have happly : ∀ settings : Settings,
      ((SessionCommand.parse word params).apply settings).db = settings.db := by
    intro settings
    cases hparse : SessionCommand.parse word params with
    | reset => exact absurd hparse hkeeps.1
    | select db => exact absurd hparse (hkeeps.2 db)
    | _ => rfl
  refine List.ext_getElem? fun index => ?_
  rw [databases_mapIdx (f := fun _ => id) rfl fun index entry hentry => ?_, Option.map_id, id]
  split
  · rw [serve_db (hqueue entry hentry), happly]
    rfl
  · rfl

/-- What an accepted command does to the record, read off its name. -/
inductive Handled (client next : DatabaseClient) (command : SessionCommand) (answered : Bool)
    (reached : Nat → Bool) : Prop where
  | set (db current : Nat) (hcommand : command = .select db ∧ current = db ∨
        command = .reset ∧ db = 0 ∧ current = client.currentDatabase)
      (hdatabases : ∀ index, next.databases[index]? = client.databases[index]?.map fun entry =>
        (if answered then (db : Int) else entry.1, if reached index then db else entry.2))
      (hcurrent : next.currentDatabase = if answered then current else client.currentDatabase)
  | other (hcommand : KeepsDatabase command) (hrecord : SameRecord client next)

theorem handleReply_select {env : TextEnv} {db : Nat} {arg : Bytes}
    (hword : asciiUppercase word = bytes "SELECT") (harg : params.head? = some arg)
    (hdb : parseUnsigned (2 ^ 32 - 1) arg = some db) :
    client.handleReply env (.ofBytes (word :: params)) =
      .ok { client.updateStoredDatabaseId db with currentDatabase := db } := by
  have hcommand : (Cmd.ofBytes (word :: params)).command = some (bytes "SELECT") :=
    Cmd.command_of_one_word params hword (by decide +kernel)
  have hidx : (Cmd.ofBytes (word :: params)).argIdx 1 = some arg := by
    rw [Cmd.argIdx_ofBytes, List.getElem?_cons_succ, ← List.head?_eq_getElem?, harg]
  have hextract : extractDatabaseIdFromSelect env (.ofBytes (word :: params)) = .ok (db : Int) := by
    rw [extractDatabaseIdFromSelect, hidx]
    simp only [TextEnv.fromUtf8, env.isUtf8_of_ascii arg (ascii_of_parseUnsigned hdb), if_true]
    rw [parseSigned_of_parseUnsigned (by decide) hdb]
  have hsmall : ((db : Int) % 2 ^ 32).toNat = db := by
    have := parseUnsigned_le hdb
    omega
  have hhandle : client.handleSelectCommand env (.ofBytes (word :: params)) =
      .ok { client.updateStoredDatabaseId db with currentDatabase := db } := by
    rw [handleSelectCommand, hextract]
    change Except.ok { client.updateStoredDatabaseId db with
      currentDatabase := ((db : Int) % 2 ^ 32).toNat } = _
    rw [hsmall]
  simp only [handleReply, isClientSetNameCommand, isSelectCommand, isAuthCommand, isHelloCommand,
    isResetCommand, isCommand, hcommand]
  change (client.handleSelectCommand env (.ofBytes (word :: params)) >>= pure) = _
  rw [hhandle]
  rfl

theorem handleReply_reset {env : TextEnv} (hword : asciiUppercase word = bytes "RESET") :
    client.handleReply env (.ofBytes (word :: params)) = .ok client.handleResetCommand := by
  have hcommand : (Cmd.ofBytes (word :: params)).command = some (bytes "RESET") :=
    Cmd.command_of_one_word params hword (by decide +kernel)
  simp only [handleReply, isClientSetNameCommand, isSelectCommand, isAuthCommand, isHelloCommand,
    isResetCommand, isCommand, hcommand]
  rfl

theorem databases_handleResetCommand :
    client.handleResetCommand.databases = client.databases.map fun entry => (0, entry.2) := by
  simp [databases, handleResetCommand, updateStoredDatabaseId, updateStoredClientName,
    updateStoredProtocol, updateConnectionInfo, removeDesiredSubscriptions]

theorem handled_set {answered : Bool} {handled : DatabaseClient} {db current : Nat}
    (hqueue : ∀ entry ∈ client.nodes, entry.session.queue = none)
    (hcommand : SessionCommand.parse word params = .select db ∧ current = db ∨
      SessionCommand.parse word params = .reset ∧ db = 0 ∧ current = client.currentDatabase)
    (hnext : (if answered then some handled else some (client.serve env word params routing targets)) =
      some next)
    (hdatabases : handled.databases = (client.serve env word params routing targets).databases.map
      fun entry => ((db : Int), entry.2)) (hcurrent : handled.currentDatabase = current) :
    Handled client next (.parse word params) answered
      (client.reaches env (.ofBytes (word :: params)) routing targets) := by
  have hserved := @databases_serve env client word params routing targets hqueue db fun settings => by
    rcases hcommand with ⟨hparse, -⟩ | ⟨hparse, rfl, -⟩ <;> (rw [hparse]; rfl)
  refine .set db current hcommand (fun index => ?_) ?_
  · cases answered with
    | false =>
      cases hnext
      exact hserved index
    | true =>
      cases hnext
      rw [hdatabases, List.getElem?_map, hserved, Option.map_map]
      rfl
  · cases answered <;> cases hnext
    · rfl
    · exact hcurrent

theorem step_command {answered : Bool}
    (hstep : client.step env (.command word params routing targets answered) = some next) :
    Handled client next (.parse word params) answered
      (client.reaches env (.ofBytes (word :: params)) routing targets) := by
  simp only [step] at hstep
  split at hstep
  · rename_i henabled
    obtain ⟨hopen, -⟩ := Bool.and_eq_true_iff.mp henabled
    obtain ⟨hqueues, haccepted⟩ := Bool.and_eq_true_iff.mp hopen
    have hqueue : ∀ entry ∈ client.nodes, entry.session.queue = none := by
      intro entry hentry
      exact beq_iff_eq.mp (List.all_eq_true.mp hqueues entry hentry)
    by_cases hselect : asciiUppercase word = bytes "SELECT"
    · obtain ⟨db, arg, harg, hdb, hparse⟩ := parse_select hselect haccepted
      rw [handleReply_select hselect harg hdb] at hstep
      exact handled_set hqueue (.inl ⟨hparse, rfl⟩) hstep (databases_updateStoredDatabaseId _ db) rfl
    by_cases hreset : asciiUppercase word = bytes "RESET"
    · rw [handleReply_reset hreset] at hstep
      exact handled_set hqueue (.inr ⟨parse_reset hreset, rfl, rfl⟩) hstep
        databases_handleResetCommand rfl
    · have hkeeps : KeepsDatabase (.parse word params) := parse_other hselect hreset
      have hserved : SameRecord client (client.serve env word params routing targets) :=
        ⟨databases_serve_other hqueue hkeeps, rfl⟩
      refine .other hkeeps ?_
      cases answered with
      | false =>
        cases hstep
        exact hserved
      | true =>
        obtain ⟨handled, hhandle, hrecord⟩ :=
          handleReply_other env.toTextEnv (client.serve env word params routing targets)
            ((isCommand_eq_decide params "SELECT" (by decide +kernel) (by decide +kernel)).trans
              (decide_eq_false hselect))
            ((isCommand_eq_decide params "RESET" (by decide +kernel) (by decide +kernel)).trans
              (decide_eq_false hreset))
        rw [hhandle] at hstep
        cases hstep
        exact ⟨hrecord.1.trans hserved.1, hrecord.2.trans hserved.2⟩
  · exact nomatch hstep

theorem faithful_iff_of_changed
    (hdatabases : ∀ index, next.databases[index]? = client.databases[index]?.map (f index)) :
    next.Faithful ↔ ∀ (index : Nat) (entry : ClientNode), client.nodes[index]? = some entry →
      let changed := f index (entry.connectionInfo.db, entry.session.db)
      changed.1 = changed.2 ∧ next.currentDatabase = changed.2 := by
  rw [faithful_iff, ← @forall_databases client fun index entry =>
    (f index entry).1 = (f index entry).2 ∧ next.currentDatabase = (f index entry).2]
  refine forall_congr' fun index => ?_
  rw [hdatabases]
  cases client.databases[index]? <;> simp

theorem faithful_step {action : Action} (hfaithful : client.Faithful)
    (hstep : client.step env action = some next) : next.Faithful ↔ client.Regular env action := by
  cases action with
  | reconnect node =>
    cases hstep
    refine ⟨fun _ => trivial, fun _ => (faithful_iff_of_changed (f := fun _ => id)
      (databases_mapIdx rfl fun index entry hentry => ?_)).mpr fun index entry hentry =>
        hfaithful entry (List.mem_of_getElem? hentry)⟩
    split
    · have hstored := (hfaithful entry hentry).1
      simp only [Session.fresh, id, Prod.mk.injEq, true_and]
      omega
    · rfl
  | command word params routing targets answered =>
    have hbefore : ∀ (index : Nat) (entry : ClientNode), client.nodes[index]? = some entry →
        entry.connectionInfo.db = entry.session.db ∧ client.currentDatabase = entry.session.db :=
      fun index entry hentry => hfaithful entry (List.mem_of_getElem? hentry)
    cases step_command hstep with
    | set db current hcommand hdatabases hcurrent =>
      rw [faithful_iff_of_changed hdatabases, hcurrent, Regular]
      rcases hcommand with ⟨hcommand, rfl⟩ | ⟨hcommand, rfl, rfl⟩ <;> rw [hcommand]
      all_goals
        refine forall₃_congr fun index entry hentry => ?_
        obtain ⟨hstored, hscope⟩ := hbefore index entry hentry
        cases answered <;>
          cases client.reaches env (.ofBytes (word :: params)) routing targets index <;>
          simp <;> omega
    | other hcommand hrecord =>
      rw [faithful_iff, hrecord.1, hrecord.2, ← faithful_iff, Regular]
      refine ⟨fun _ => ?_, fun _ => hfaithful⟩
      split
      · exact absurd ‹_› hcommand.1
      · exact absurd ‹_› (hcommand.2 _)
      · trivial

end Step

theorem faithful_create (wrapper : ClientWrapper) (databaseId nodes : Nat) :
    (create wrapper databaseId nodes).Faithful := by
  intro entry hentry
  rw [List.eq_of_mem_replicate hentry]
  exact ⟨rfl, rfl⟩

/--
In every run of a new client, the records agree with the sessions in all states
that are passed exactly if every step is regular.
-/
theorem database_faithful_iff_regular (env : ClientEnv) (wrapper : ClientWrapper)
    (databaseId nodes : Nat) (actions : List Action) (final : DatabaseClient)
    (hrun : run (step env) (create wrapper databaseId nodes) actions = some final) :
    Along (step env) (Regular env) (create wrapper databaseId nodes) actions ↔
      ∀ first second passed, actions = first ++ second →
        run (step env) (create wrapper databaseId nodes) first = some passed → passed.Faithful :=
  along_iff_invariant Faithful (fun _ _ _ hfaithful hstep => faithful_step hfaithful hstep)
    (faithful_create wrapper databaseId nodes) hrun

def asciiEnv : ClientEnv where
  isUtf8 := fun text => text.all (· < 128)
  toUppercase := asciiUppercase
  isUtf8_of_ascii := fun _ hascii => List.all_eq_true.mpr fun byte hbyte =>
    decide_eq_true (hascii byte hbyte)
  crc16 := List.length
  order := .inserted

def select (db : String) (routing : Option RoutingInfo) (answered : Bool) : Action :=
  .command (bytes "SELECT") [bytes db] routing [0] answered

def reset : Action := .command (bytes "reset") [] none [0] true

def outcome (wrapper : ClientWrapper) (nodes : Nat) (actions : List Action) :
    Option (List (Int × Nat) × Nat) :=
  (run (step asciiEnv) (create wrapper 0 nodes) actions).map fun client =>
    (client.databases, client.currentDatabase)

theorem unfaithful_of_outcome {wrapper : ClientWrapper} {nodes current : Nat}
    {actions : List Action} {databases : List (Int × Nat)}
    (houtcome : outcome wrapper nodes actions = some (databases, current))
    (hdiffers : ∃ entry ∈ databases, entry.1 ≠ entry.2 ∨ current ≠ entry.2) :
    ∃ passed, run (step asciiEnv) (create wrapper 0 nodes) actions = some passed ∧
      ¬ passed.Faithful := by
  obtain ⟨passed, hrun, hrecord⟩ := Option.map_eq_some_iff.mp houtcome
  obtain ⟨hdatabases, hcurrent⟩ := Prod.mk.inj hrecord
  obtain ⟨entry, hentry, hdiffers⟩ := hdiffers
  obtain ⟨index, hindex⟩ := List.mem_iff_getElem?.mp (hdatabases ▸ hentry)
  refine ⟨passed, hrun, fun hfaithful => ?_⟩
  have := faithful_iff.mp hfaithful index entry hindex
  omega

-- In the third run the caller sends `SELECT` to one of two nodes of a cluster.
theorem reset_or_late_select_unfaithful :
    (∃ passed, run (step asciiEnv) (create .standalone 0 1) [select "4" none true, reset] =
      some passed ∧ ¬ passed.Faithful) ∧
    (∃ passed, run (step asciiEnv) (create .standalone 0 1) [select "4" none false] =
      some passed ∧ ¬ passed.Faithful) ∧
    ∃ passed, run (step asciiEnv) (create .cluster 0 2)
      [select "4" (some (.singleNode (.specificNode ⟨7, .master⟩))) true] =
        some passed ∧ ¬ passed.Faithful := by
  refine ⟨?_, ?_, ?_⟩
  · have houtcome : outcome .standalone 1 [select "4" none true, reset] = some ([(0, 0)], 4) := by
      decide +kernel
    exact unfaithful_of_outcome houtcome ⟨_, .head _, .inr (by decide)⟩
  · have houtcome : outcome .standalone 1 [select "4" none false] = some ([(0, 4)], 0) := by
      decide +kernel
    exact unfaithful_of_outcome houtcome ⟨_, .head _, .inl (by decide)⟩
  · have houtcome : outcome .cluster 2
        [select "4" (some (.singleNode (.specificNode ⟨7, .master⟩))) true] =
          some ([(4, 4), (4, 0)], 4) := by decide +kernel
    exact unfaithful_of_outcome houtcome ⟨_, .tail _ (.head _), .inl (by decide)⟩

theorem select_faithful :
    outcome .cluster 2 [select "4" none true] = some ([(4, 4), (4, 4)], 4) ∧
      ∀ first second passed, [select "4" none true] = first ++ second →
        run (step asciiEnv) (create .cluster 0 2) first = some passed → passed.Faithful := by
  have houtcome : outcome .cluster 2 [select "4" none true] = some ([(4, 4), (4, 4)], 4) := by
    decide +kernel
  obtain ⟨final, hrun, -⟩ := Option.map_eq_some_iff.mp houtcome
  have hparse : SessionCommand.parse (bytes "SELECT") [bytes "4"] = .select 4 := by decide +kernel
  have hall : goesToAllNodes asciiEnv .cluster (.ofBytes [bytes "SELECT", bytes "4"]) none =
      true := by decide +kernel
  refine ⟨houtcome,
    (database_faithful_iff_regular asciiEnv .cluster 0 2 [select "4" none true] final hrun).mp ?_⟩
  rw [along_singleton, select, Regular, hparse]
  intro index entry _
  refine .inr ?_
  change (goesToAllNodes asciiEnv .cluster _ none || _) = true
  rw [hall, Bool.true_or]

end DatabaseClient

end ValkeyGlide.Client
