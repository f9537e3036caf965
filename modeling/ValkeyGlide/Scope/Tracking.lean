import ValkeyGlide.Scope.Pool
import ValkeyGlide.Server.Session

/-!
# Session tracking of a scoped connection

The state recorded for a connection is updated from the commands alone, the session on
the server by what the server makes of them.  A connection whose record is clean is
seated without cleanup, so the next borrower finds the session as it is; the cleanup of
another one undoes what the record names.
-/

namespace ValkeyGlide.Scope

open Protocol Foundation Server

/-! ## How the record reads a command -/

def readTracking (value : Bytes) : SessionCommand := .tracking (value = bytes "ON")

def reading : Bytes → List Bytes → SessionCommand := .read toUppercase readTracking

variable {name : Bytes}

theorem toUppercase_of_asciiUppercase {word : Bytes} (hword : ∀ byte ∈ word, byte < 128)
    (hname : asciiUppercase name = word) : toUppercase name = word := by
  subst hname
  fun_induction toUppercase name with
  | case1 => rfl
  | case12 byte rest _ _ _ _ _ _ _ _ _ _ ih =>
    rw [ih fun other hother => hword other (List.mem_cons_of_mem _ hother)]
    rfl
  | _ => exact absurd (hword _ (List.mem_cons_self ..)) (by decide)

def sessionWords : List Bytes :=
  ["WATCH", "UNWATCH", "MULTI", "EXEC", "DISCARD", "SELECT", "CLIENT", "SUBSCRIBE", "PSUBSCRIBE",
    "SSUBSCRIBE", "UNSUBSCRIBE", "PUNSUBSCRIBE", "SUNSUBSCRIBE", "RESET"].map bytes

theorem read_eq_other {upper : Bytes → Bytes} {tracking : Bytes → SessionCommand}
    (hname : upper name ∉ sessionWords) (args : List Bytes) :
    SessionCommand.read upper tracking name args = .other := by
  simp only [sessionWords, List.map_cons, List.map_nil, List.mem_cons, List.not_mem_nil, or_false,
    not_or] at hname
  simp [SessionCommand.read, hname]

theorem parseTracking_eq_reading (value : Bytes) :
    SessionCommand.parseTracking (asciiUppercase value) = readTracking (toUppercase value) ∨
      SessionCommand.parseTracking (asciiUppercase value) = .other := by
  unfold SessionCommand.parseTracking
  split_ifs with hon hoff
  · rw [toUppercase_of_asciiUppercase (by decide +kernel) hon]
    exact .inl rfl
  · rw [toUppercase_of_asciiUppercase (by decide +kernel) hoff]
    exact .inl rfl
  · exact .inr rfl

theorem parseClient_eq_reading (args : List Bytes) :
    SessionCommand.readClient asciiUppercase SessionCommand.parseTracking args =
        SessionCommand.readClient toUppercase readTracking args ∨
      SessionCommand.readClient asciiUppercase SessionCommand.parseTracking args = .other := by
  unfold SessionCommand.readClient
  split
  · next sub value _ =>
      split_ifs with hsub hother hother
      · exact parseTracking_eq_reading value
      · exact absurd (toUppercase_of_asciiUppercase (by decide +kernel) hsub) hother
      · exact .inr rfl
      · exact .inr rfl
  · exact .inr rfl

theorem parse_eq_reading (name : Bytes) (args : List Bytes) :
    SessionCommand.parse name args = reading name args ∨
      SessionCommand.parse name args = .other := by
  by_cases hname : asciiUppercase name ∈ sessionWords
  · have hascii : ∀ word ∈ sessionWords, ∀ byte ∈ word, byte < 128 := by decide +kernel
    have hupper : toUppercase name = asciiUppercase name :=
      toUppercase_of_asciiUppercase (hascii _ hname) rfl
    simp only [SessionCommand.parse, reading, SessionCommand.read, hupper]
    by_cases hclient : asciiUppercase name = bytes "CLIENT"
    · rw [hclient]
      exact parseClient_eq_reading args
    · simp [hclient]
  · exact .inr (read_eq_other hname args)

def ScopeSubscription.of : SubscriptionKind → Bytes → ScopeSubscription
  | .channel => .channel
  | .pattern => .pattern
  | .shardedChannel => .shardedChannel

namespace ConnectionState

def note (record : ConnectionState) : SessionCommand → ConnectionState
  | .watch _ => { record with watchActive := true }
  | .unwatch => { record with watchActive := false }
  | .multi => { record with multiActive := true }
  | .exec => { record with watchActive := false, multiActive := false }
  | .discard => { record with watchActive := false, multiActive := false }
  | .select db => { record with selectedDb := db }
  | .tracking on => { record with trackingEnabled := on }
  | .subscribe kind names =>
    { record with subscriptions := record.subscriptions ++ names.map (.of kind) }
  | .unsubscribe _ _ => record
  | .reset => record
  | .other => record

end ConnectionState

private theorem note_select (record : ConnectionState) (args : List Bytes) :
    (match args.head?.bind parseDb with
      | some db => { record with selectedDb := db }
      | none => record) =
    record.note (match args.head?.bind parseDb with
      | some db => .select db
      | none => .other) := by
  cases args.head?.bind parseDb <;> rfl

private theorem note_client (record : ConnectionState) (args : List Bytes) :
    ∃ renamed, (match args with
      | sub :: value :: _ =>
        if toUppercase sub = bytes "TRACKING" then
          { record with trackingEnabled := toUppercase value = bytes "ON" }
        else if toUppercase sub = bytes "SETNAME" then { record with clientNameChanged := true }
        else record
      | _ => record) =
    { record.note (.readClient toUppercase readTracking args) with
      clientNameChanged := renamed } := by
  rcases args with _ | ⟨sub, _ | ⟨value, rest⟩⟩
  · exact ⟨_, rfl⟩
  · exact ⟨_, rfl⟩
  · simp only [SessionCommand.readClient]
    split_ifs <;> exact ⟨_, rfl⟩

theorem updateStateForCommand_eq_note (record : ConnectionState) (name : Bytes)
    (args : List Bytes) :
    ∃ renamed, updateStateForCommand record name args =
      { record.note (reading name args) with clientNameChanged := renamed } := by
  unfold updateStateForCommand reading SessionCommand.read
  by_cases hselect : toUppercase name = bytes "SELECT"
  · rw [hselect]
    exact ⟨_, note_select record args⟩
  by_cases hclient : toUppercase name = bytes "CLIENT"
  · rw [hclient]
    exact note_client record args
  by_cases hname : toUppercase name ∈ sessionWords
  · simp only [sessionWords, List.map_cons, List.map_nil, List.mem_cons, List.not_mem_nil,
      or_false, hselect, hclient, false_or] at hname
    rcases hname with hname | hname | hname | hname | hname | hname | hname | hname | hname |
      hname | hname | hname
    all_goals
      rw [hname]
      exact ⟨_, rfl⟩
  · simp only [sessionWords, List.map_cons, List.map_nil, List.mem_cons, List.not_mem_nil,
      or_false, not_or] at hname
    simp only [hname, if_false, or_self]
    exact ⟨_, rfl⟩

/-! ## The record and the session -/

/--
The record knows of everything that is left in the session.  It counts queued
commands as carried out, and looks at the watches of a transaction when it ends.
-/
structure Tracks (record : ConnectionState) (session : Session) : Prop where
  transaction : session.queue ≠ none → record.multiActive = true
  watched : session.queue = none → session.watched ≠ [] → record.watchActive = true
  tracking : session.settled.tracking = true → record.trackingEnabled = true
  database : record.selectedDb = record.parentDb → session.settled.db = record.parentDb
  subscribed : ∀ entry ∈ session.subscriptions, .of entry.1 entry.2 ∈ record.subscriptions

/--
What the record takes for cleared by a command is clear in the session after it:
the watches by `UNWATCH`; the transaction, its watches and, as far as the queued
commands clear them, the database and tracking by `EXEC` and `DISCARD`; the parent's
database by its `SELECT`; tracking by `CLIENT TRACKING` with another value than `ON`.
`RESET`, which the record ignores, does not leave the parent's database.
-/
def Clears (session after : Session) (parentDb : Nat) : SessionCommand → Prop
  | .unwatch => after.queue = none → after.watched = []
  | .exec | .discard =>
    after.queue = none ∧ after.watched = [] ∧
      (session.settled.db = parentDb → after.db = parentDb) ∧
      (session.settled.tracking = false → after.tracking = false)
  | .select db => db = parentDb → after.settled.db = parentDb
  | .tracking on => on = false → after.settled.tracking = false
  | .reset => session.settled.db = parentDb → after.settled.db = parentDb
  | _ => True

instance Clears.decidable (session after : Session) (parentDb : Nat) :
    (command : SessionCommand) → Decidable (Clears session after parentDb command)
  | .unwatch => inferInstanceAs (Decidable (_ → _))
  | .exec | .discard => inferInstanceAs (Decidable (_ ∧ _))
  | .select _ | .tracking _ | .reset => inferInstanceAs (Decidable (_ → _))
  | .watch _ | .multi | .subscribe _ _ | .unsubscribe _ _ | .other =>
    inferInstanceAs (Decidable True)

namespace Tracks

variable {record : ConnectionState} {session : Session} {name : Bytes} {args : List Bytes}
  {outcome : Outcome}

theorem settled_of_closed (hclosed : session.queue = none) :
    session.settled = session.toSettings := by
  simp [Session.settled, hclosed]

theorem serve_settled (hexec : reading name args ≠ .exec) (hdiscard : reading name args ≠ .discard) :
    (session.serve (.parse name args) outcome).settled = session.settled ∨
      (session.serve (.parse name args) outcome).settled =
        (reading name args).apply session.settled := by
  rcases parse_eq_reading name args with hparse | hparse
  · rw [hparse]
    exact Session.serve_settled hexec hdiscard
  · rw [hparse]
    exact .inl ((Session.serve_settled (by decide) (by decide)).elim id id)

variable (htracks : Tracks record session)
  (hclears : Clears session (session.serve (.parse name args) outcome) record.parentDb
    (reading name args))

include htracks hclears

theorem note_transaction (hopen : (session.serve (.parse name args) outcome).queue ≠ none) :
    (record.note (reading name args)).multiActive = true := by
  have hbefore := Session.serve_queue hopen
  cases hread : reading name args with
  | multi => rfl
  | exec | discard =>
    rw [hread] at hclears
    exact absurd hclears.1 hopen
  | _ =>
    refine htracks.transaction (hbefore.resolve_right fun hmulti => ?_)
    rcases parse_eq_reading name args with hparse | hparse <;> simp_all

theorem note_watched (hclosed : (session.serve (.parse name args) outcome).queue = none)
    (hwatched : (session.serve (.parse name args) outcome).watched ≠ []) :
    (record.note (reading name args)).watchActive = true := by
  have hbefore := Session.serve_watched hclosed hwatched
  cases hread : reading name args with
  | watch => rfl
  | unwatch =>
    rw [hread] at hclears
    exact absurd (hclears hclosed) hwatched
  | exec | discard =>
    rw [hread] at hclears
    exact absurd hclears.2.1 hwatched
  | _ =>
    obtain ⟨hqueue, hkeys⟩ := hbefore.resolve_right (by
      rintro ⟨keys, hkeys⟩
      rcases parse_eq_reading name args with hparse | hparse <;> simp_all)
    exact htracks.watched hqueue hkeys

omit htracks in
theorem note_end (hend : reading name args = .exec ∨ reading name args = .discard) :
    (session.settled.db = record.parentDb →
        (session.serve (.parse name args) outcome).settled.db = record.parentDb) ∧
      (session.settled.tracking = false →
        (session.serve (.parse name args) outcome).settled.tracking = false) := by
  rcases hend with hread | hread
  all_goals
    rw [hread] at hclears
    rw [settled_of_closed hclears.1]
    exact hclears.2.2

theorem note_tracking
    (htracking : (session.serve (.parse name args) outcome).settled.tracking = true) :
    (record.note (reading name args)).trackingEnabled = true := by
  by_cases hend : reading name args = .exec ∨ reading name args = .discard
  · have hbefore : session.settled.tracking = true := by
      by_contra hoff
      simp [(note_end hclears hend).2 (by simpa using hoff)] at htracking
    rcases hend with hread | hread <;> rw [hread] <;> exact htracks.tracking hbefore
  · rw [not_or] at hend
    have hsettled := @serve_settled session name args outcome hend.1 hend.2
    cases hread : reading name args with
    | tracking on =>
      rw [hread] at hclears
      cases on with
      | true => rfl
      | false => simp [hclears rfl] at htracking
    | reset =>
      rw [hread] at hsettled
      rcases hsettled with hsettled | hsettled
      · exact htracks.tracking (hsettled ▸ htracking)
      · rw [hsettled] at htracking
        contradiction
    | _ =>
      rw [hread] at hsettled
      refine htracks.tracking ?_
      rcases hsettled with hsettled | hsettled <;> rw [hsettled] at htracking <;> exact htracking

theorem note_database (hparent : (record.note (reading name args)).selectedDb = record.parentDb) :
    (session.serve (.parse name args) outcome).settled.db = record.parentDb := by
  by_cases hend : reading name args = .exec ∨ reading name args = .discard
  · refine (note_end hclears hend).1 (htracks.database ?_)
    rcases hend with hread | hread <;> rw [hread] at hparent <;> exact hparent
  · rw [not_or] at hend
    have hsettled := @serve_settled session name args outcome hend.1 hend.2
    cases hread : reading name args with
    | select db =>
      rw [hread] at hclears hparent
      exact hclears hparent
    | reset =>
      rw [hread] at hclears hparent
      exact hclears (htracks.database hparent)
    | _ =>
      rw [hread] at hsettled hparent
      rcases hsettled with hsettled | hsettled <;> rw [hsettled] <;> exact htracks.database hparent

omit hclears in
theorem note_subscribed :
    ∀ entry ∈ (session.serve (.parse name args) outcome).subscriptions,
      .of entry.1 entry.2 ∈ (record.note (reading name args)).subscriptions := by
  intro entry hentry
  have hkept : record.subscriptions ⊆ (record.note (reading name args)).subscriptions := by
    cases reading name args with
    | subscribe => exact List.subset_append_left _ _
    | _ => exact List.Subset.refl _
  rcases List.mem_append.mp (Session.serve_subscriptions hentry) with hbefore | hnew
  · exact hkept (htracks.subscribed entry hbefore)
  · rcases parse_eq_reading name args with hparse | hparse
    · rw [hparse] at hnew
      cases hread : reading name args with
      | subscribe kind names =>
        rw [hread] at hnew
        obtain ⟨name, hname, rfl⟩ := List.mem_map.mp hnew
        exact List.mem_append_right _ (List.mem_map_of_mem hname)
      | _ => simp [hread, SessionCommand.subscriptions] at hnew
    · simp [hparse, SessionCommand.subscriptions] at hnew

theorem note : Tracks (record.note (reading name args))
    (session.serve (.parse name args) outcome) := by
  have hparentDb : (record.note (reading name args)).parentDb = record.parentDb := by
    cases reading name args <;> rfl
  constructor
  · exact note_transaction htracks hclears
  · exact note_watched htracks hclears
  · exact note_tracking htracks hclears
  · rw [hparentDb]
    exact note_database htracks hclears
  · exact note_subscribed htracks

omit hclears in
theorem flags (renamed blockingInFlight mustDiscard : Bool) :
    Tracks { record with
      clientNameChanged := renamed
      blockingInFlight := blockingInFlight
      mustDiscard := mustDiscard } session :=
  ⟨htracks.transaction, htracks.watched, htracks.tracking, htracks.database, htracks.subscribed⟩

omit hclears in
theorem eq_fresh (hclean : record.isCleanFor record.parentDb)
    (hblocked : session.blocked = true → record.blockingInFlight = true) :
    session = .fresh record.parentDb := by
  simp only [ConnectionState.isCleanFor, Bool.and_eq_true, Bool.not_eq_true', beq_iff_eq,
    List.isEmpty_iff] at hclean
  obtain ⟨⟨⟨⟨⟨⟨⟨hwatch, hmulti⟩, htracking⟩, hdb⟩, -⟩, hsubscriptions⟩, hwaits⟩, -⟩ := hclean
  have hclosed : session.queue = none := by
    by_contra hopen
    simp [htracks.transaction hopen] at hmulti
  have hwatched : session.watched = [] := by
    by_contra hkeys
    simp [htracks.watched hclosed hkeys] at hwatch
  have hsettled := settled_of_closed hclosed
  have hoff : session.tracking = false := by
    by_contra hon
    simp [htracks.tracking (by simpa [hsettled] using hon)] at htracking
  have hselected : session.db = record.parentDb := hsettled ▸ htracks.database hdb
  have hunsubscribed : session.subscribed = [] := by
    refine List.eq_nil_iff_forall_not_mem.mpr fun entry hentry => ?_
    have hmem := htracks.subscribed entry (List.mem_append_left _ hentry)
    simp [hsubscriptions] at hmem
  have hfree : session.blocked = false := by
    by_contra hon
    simp [hblocked (by simpa using hon)] at hwaits
  obtain ⟨⟨db, tracking, subscribed⟩, queue, watched, blocked⟩ := session
  simp_all [Session.fresh]

end Tracks

/-! ## Commands on a connection -/

/--
A command with its result, or without one when its caller gives up; whether it has
been sent, and the connection after it.
-/
def executeScopeCommand (env : ScopeEnv) (conn : ScopedConnection) (cmdName : Bytes)
    (args : List Bytes) (result : Option (RedisResult Value)) : Bool × ScopedConnection :=
  match beginCommand env conn cmdName args with
  | (.send _ _ isBlocking alreadyPoisoned, conn) =>
    match result with
    | some result =>
      (true, { conn with state := finishCommand conn.state isBlocking alreadyPoisoned result })
    | none => (true, conn)
  | (_, conn) => (false, conn)

theorem updateStateForCommand_blockingInFlight (record : ConnectionState) (name : Bytes)
    (args : List Bytes) :
    (updateStateForCommand record name args).blockingInFlight = record.blockingInFlight := by
  obtain ⟨renamed, hupdate⟩ := updateStateForCommand_eq_note record name args
  rw [hupdate]
  cases reading name args <;> rfl

theorem finishCommand_eq (state : ConnectionState) (isBlocking alreadyPoisoned : Bool)
    (reply : RedisResult Value) :
    ∃ mustDiscard, finishCommand state isBlocking alreadyPoisoned reply = { state with
      blockingInFlight :=
        if isBlocking then alreadyPoisoned || isPoisoning reply else state.blockingInFlight
      mustDiscard := mustDiscard } := by
  unfold finishCommand
  cases reply with
  | ok value => cases isBlocking <;> exact ⟨_, rfl⟩
  | error error => cases isBlocking <;> dsimp only <;> split_ifs <;> exact ⟨_, rfl⟩

structure Executes (conn : ScopedConnection) (name : Bytes) (args : List Bytes)
    (result : Option (RedisResult Value)) (sent : Bool) (after : ScopedConnection) : Prop where
  borrowedAt : after.borrowedAt = conn.borrowedAt
  state : after.state = { updateStateForCommand conn.state name args with
    blockingInFlight := after.state.blockingInFlight
    mustDiscard := after.state.mustDiscard }
  poisoned : conn.state.blockingInFlight = true → after.state.blockingInFlight = true
  waits : sent = true → isBlockingCommand (.ofBytes (name :: args)) = true →
    (∀ reply ∈ result, isPoisoning reply = true) → after.state.blockingInFlight = true

theorem executeScopeCommand_executes (env : ScopeEnv) (conn : ScopedConnection) (name : Bytes)
    (args : List Bytes) (result : Option (RedisResult Value)) :
    Executes conn name args result (executeScopeCommand env conn name args result).1
      (executeScopeCommand env conn name args result).2 := by
  have hkept := updateStateForCommand_blockingInFlight conn.state name args
  have hbegins := beginCommand_begins env conn name args
  unfold executeScopeCommand
  generalize beginCommand env conn name args = begun at hbegins
  cases hbegins with
  | refused dispatch hrefused =>
    rcases hrefused with rfl | ⟨error, rfl⟩
    all_goals exact ⟨rfl, rfl, hkept.trans, nofun⟩
  | sent deferReauth pinned =>
    cases hblocking : isBlockingCommand (.ofBytes (name :: args)) with
    | true =>
      cases result with
      | none => exact ⟨rfl, rfl, fun _ => rfl, fun _ _ _ => rfl⟩
      | some reply =>
        obtain ⟨mustDiscard, hfinish⟩ := finishCommand_eq
          { updateStateForCommand conn.state name args with blockingInFlight := true }
          true (updateStateForCommand conn.state name args).blockingInFlight reply
        simp only [if_true, hfinish]
        refine ⟨rfl, rfl, fun hpoisoned => ?_, fun _ _ hreply => ?_⟩
        · simp [hkept, hpoisoned]
        · simp [hreply reply rfl]
    | false =>
      cases result with
      | none => exact ⟨rfl, rfl, hkept.trans, by simp [hblocking]⟩
      | some reply =>
        obtain ⟨mustDiscard, hfinish⟩ := finishCommand_eq
          (updateStateForCommand conn.state name args)
          false (updateStateForCommand conn.state name args).blockingInFlight reply
        simp only [Bool.false_eq_true, if_false, hfinish]
        exact ⟨rfl, rfl, hkept.trans, by simp [hblocking]⟩

theorem isBlockingCommand_of_name {args : List Bytes}
    (hname : isBlockingCommandName name args = true) :
    isBlockingCommand (.ofBytes (name :: args)) = true := by
  unfold isBlockingCommandName at hname
  dsimp only at hname
  split_ifs at hname with hblocking hread
  · have hwords : ∀ word ∈ ["BLPOP", "BRPOP", "BLMOVE", "BZPOPMAX", "BZPOPMIN", "BRPOPLPUSH",
        "BLMPOP", "BZMPOP", "WAIT", "WAITAOF"].map bytes,
        word ∉ Cmd.twoWordCommands.map bytes ∧ word ∉ ["XREAD", "XREADGROUP"].map bytes ∧
          isBlockingCommandName word [] = true := by decide
    obtain ⟨hone, hplain, hblocks⟩ := hwords _ hblocking
    rw [isBlockingCommand, Cmd.command_of_one_word args rfl hone]
    simp only [Option.getD_some, hplain, if_false, hblocks]
  · have hwords : ∀ word ∈ ["XREAD", "XREADGROUP"].map bytes,
        word ∉ Cmd.twoWordCommands.map bytes := by decide
    rw [isBlockingCommand, Cmd.command_of_one_word args rfl (hwords _ hread)]
    simp only [Option.getD_some, hread, if_true, Cmd.position, Cmd.ofBytes]
    rw [List.findIdx?_isSome, List.any_map, List.any_cons]
    exact Bool.or_eq_true_iff.mpr (.inr hname)

/-! ## The cleanup of a release -/

def readCommand (cmd : Cmd) : SessionCommand :=
  match cmd.data with
  | name :: args => .parse name args
  | [] => .other

/-- The end of a transaction that is not open is answered with an error. -/
def acceptCommand (session : Session) (command : SessionCommand) : Option Session :=
  if (command = .exec ∨ command = .discard) ∧ session.queue = none then none
  else some (session.serve command (.accepted []))

/-- The session after the cleanup, if it is accepted: otherwise the connection is given up. -/
def cleanedSession (session : Session) (state : ConnectionState) (configuredClientName : Bytes) :
    Option Session :=
  ((cleanupPipeline state state.parentDb configuredClientName).map readCommand).foldlM
    acceptCommand session

section Cleanup

variable {state : ConnectionState} {session : Session} {kind : SubscriptionKind}
  {settings : Settings}

def leaveCommands (state : ConnectionState) : List SessionCommand :=
  if state.multiActive then [.discard] else if state.watchActive then [.unwatch] else []

def namesOf (kind : SubscriptionKind) (subscriptions : List ScopeSubscription) : List Bytes :=
  subscriptions.filterMap fun subscription =>
    match kind, subscription with
    | .channel, .channel name => some name
    | .pattern, .pattern name => some name
    | .shardedChannel, .shardedChannel name => some name
    | _, _ => none

theorem mem_namesOf {subscriptions : List ScopeSubscription} {name : Bytes} :
    name ∈ namesOf kind subscriptions ↔ .of kind name ∈ subscriptions := by
  rw [namesOf, List.mem_filterMap]
  constructor
  · rintro ⟨subscription, hmem, hname⟩
    cases kind <;> cases subscription <;> simp_all [ScopeSubscription.of]
  · intro hmem
    exact ⟨_, hmem, by cases kind <;> rfl⟩

def unsubscribes (kind : SubscriptionKind) (names : List Bytes) : List SessionCommand :=
  if names = [] then [] else [.unsubscribe kind names]

def restoreCommands (state : ConnectionState) : List SessionCommand :=
  unsubscribes .channel (namesOf .channel state.subscriptions) ++
  unsubscribes .pattern (namesOf .pattern state.subscriptions) ++
  unsubscribes .shardedChannel (namesOf .shardedChannel state.subscriptions) ++
  (if state.trackingEnabled then [.tracking false] else []) ++
  (if state.selectedDb ≠ state.parentDb then [.select state.parentDb] else []) ++
  (if state.clientNameChanged then [.other] else [])

theorem map_unsubscribeCommand {name : String} (names : List Bytes)
    (hparse : ∀ names, SessionCommand.parse (bytes name) names = .unsubscribe kind names) :
    (unsubscribeCommand name names).map readCommand = unsubscribes kind names := by
  unfold unsubscribeCommand unsubscribes
  split_ifs
  · rfl
  · simp [readCommand, hparse]

theorem parse_select_toString {db : Nat} (hdb : db < 2 ^ 32) :
    SessionCommand.parse (bytes "SELECT") [bytes (toString db)] = .select db := by
  have hnumber : parseUnsigned (2 ^ 32 - 1) (bytes (toString db)) = some db := by
    rw [bytes_toString]
    exact parseUnsigned_decimal (by omega)
  have hword : asciiUppercase (bytes "SELECT") = bytes "SELECT" := by decide +kernel
  simp only [SessionCommand.parse, SessionCommand.read, hword, List.head?_cons, Option.bind_some,
    hnumber]
  rfl

theorem map_cleanupPipeline (hdb : state.parentDb < 2 ^ 32) (configuredClientName : Bytes) :
    (cleanupPipeline state state.parentDb configuredClientName).map readCommand =
      leaveCommands state ++ restoreCommands state := by
  have hunsubscribe : ∀ names, SessionCommand.parse (bytes "UNSUBSCRIBE") names =
      .unsubscribe .channel names := fun _ => rfl
  have hpunsubscribe : ∀ names, SessionCommand.parse (bytes "PUNSUBSCRIBE") names =
      .unsubscribe .pattern names := fun _ => rfl
  have hsunsubscribe : ∀ names, SessionCommand.parse (bytes "SUNSUBSCRIBE") names =
      .unsubscribe .shardedChannel names := fun _ => rfl
  have hselect : readCommand (.ofBytes [bytes "SELECT", bytes (toString state.parentDb)]) =
      .select state.parentDb := by
    rw [readCommand, Cmd.data_ofBytes]
    exact parse_select_toString hdb
  unfold cleanupPipeline leaveCommands restoreCommands
  simp only [List.map_append, List.append_assoc, map_unsubscribeCommand _ hunsubscribe,
    map_unsubscribeCommand _ hpunsubscribe, map_unsubscribeCommand _ hsunsubscribe,
    apply_ite (List.map readCommand), List.map_cons, List.map_nil, hselect]
  refine congrArg₂ _ rfl (congrArg₂ _ (congrArg _ ?_) (congrArg₂ _ (congrArg _ ?_)
    (congrArg₂ _ (congrArg _ ?_) rfl)))
  all_goals exact List.filterMap_congr fun subscription _ => by cases subscription <;> rfl

theorem foldl_unsubscribes {names : List Bytes}
    (hnames : ∀ entry ∈ settings.subscribed, entry.1 = kind → entry.2 ∈ names) :
    (unsubscribes kind names).foldl SessionCommand.apply settings =
      { settings with subscribed := settings.subscribed.filter fun entry => entry.1 ≠ kind } := by
  have hfilter : (settings.subscribed.filter fun entry => entry.1 ≠ kind ∨ names ≠ [] ∧
      entry.2 ∉ names) = settings.subscribed.filter fun entry => entry.1 ≠ kind := by
    refine List.filter_congr fun entry hentry => ?_
    by_cases hkind : entry.1 = kind
    · simp [hkind, hnames entry hentry hkind]
    · simp [hkind]
  unfold unsubscribes
  split_ifs with hempty
  · -- nothing of this kind is subscribed to
    have hkept : (settings.subscribed.filter fun entry => entry.1 ≠ kind) = settings.subscribed :=
      List.filter_eq_self.mpr fun entry hentry => by
        by_contra hkind
        have hmem := hnames entry hentry (by simpa using hkind)
        simp [hempty] at hmem
    rw [hkept]
    rfl
  · rw [← hfilter]
    rfl

/-- The commands that undo a record leave a session as a new connection has it. -/
theorem foldl_restoreCommands
    (hdatabase : state.selectedDb = state.parentDb → settings.db = state.parentDb)
    (htracking : state.trackingEnabled = false → settings.tracking = false)
    (hsubscribed : ∀ entry ∈ settings.subscribed, .of entry.1 entry.2 ∈ state.subscriptions) :
    (restoreCommands state).foldl SessionCommand.apply settings = { db := state.parentDb } := by
  have hnames : ∀ kind, ∀ entry ∈ settings.subscribed, entry.1 = kind →
      entry.2 ∈ namesOf kind state.subscriptions := by
    rintro kind entry hentry rfl
    exact mem_namesOf.mpr (hsubscribed entry hentry)
  unfold restoreCommands
  simp only [List.foldl_append]
  rw [foldl_unsubscribes (hnames .channel), foldl_unsubscribes fun entry hentry =>
      hnames .pattern entry (List.mem_of_mem_filter hentry), foldl_unsubscribes fun entry hentry =>
      hnames .shardedChannel entry (List.mem_of_mem_filter (List.mem_of_mem_filter hentry))]
  have hnone : (((settings.subscribed.filter fun entry => entry.1 ≠ .channel).filter fun entry =>
      entry.1 ≠ .pattern).filter fun entry => entry.1 ≠ .shardedChannel) = [] := by
    refine List.filter_eq_nil_iff.mpr fun entry hentry => ?_
    have hpattern := (List.mem_filter.mp hentry).2
    have hchannel := (List.mem_filter.mp (List.mem_filter.mp hentry).1).2
    cases hkind : entry.1 <;> simp_all
  rw [hnone]
  have hoff : (if state.trackingEnabled then [SessionCommand.tracking false] else []).foldl
      SessionCommand.apply { settings with subscribed := [] } = { db := settings.db } := by
    split_ifs with hon
    · rfl
    · simp [htracking (by simpa using hon)]
  have hselected : (if state.selectedDb ≠ state.parentDb then
      [SessionCommand.select state.parentDb] else []).foldl SessionCommand.apply
        { db := settings.db } = { db := state.parentDb } := by
    split_ifs with hother
    · rfl
    · simp [hdatabase (not_not.mp hother)]
  rw [hoff, hselected]
  split_ifs <;> rfl

def ChangesSettings : SessionCommand → Prop
  | .watch _ | .unwatch | .multi | .exec | .discard | .reset => False
  | _ => True

theorem foldlM_acceptCommand {commands : List SessionCommand}
    (hcommands : ∀ command ∈ commands, ChangesSettings command) (settings : Settings) :
    commands.foldlM acceptCommand (Session.leave settings) =
      some (Session.leave (commands.foldl SessionCommand.apply settings)) := by
  induction commands generalizing settings with
  | nil => rfl
  | cons command commands ih =>
    obtain ⟨hcommand, hrest⟩ := List.forall_mem_cons.mp hcommands
    have haccept : acceptCommand (Session.leave settings) command =
        some (Session.leave (command.apply settings)) := by
      cases command <;> first | rfl | exact hcommand.elim
    rw [List.foldlM_cons, haccept, List.foldl_cons]
    exact ih hrest _

theorem changesSettings_restoreCommands : ∀ command ∈ restoreCommands state,
    ChangesSettings command := by
  intro command hcommand
  simp only [restoreCommands, unsubscribes, List.mem_append] at hcommand
  rcases hcommand with ((((hcommand | hcommand) | hcommand) | hcommand) | hcommand) | hcommand
  all_goals
    split_ifs at hcommand
    all_goals first
      | exact absurd hcommand List.not_mem_nil
      | rw [List.mem_singleton.mp hcommand]; trivial

theorem leaveCommands_left {after : Session} (htracks : Tracks state session)
    (hblocked : session.blocked = false)
    (hleave : (leaveCommands state).foldlM acceptCommand session = some after) :
    after = .leave session.toSettings := by
  unfold leaveCommands at hleave
  split_ifs at hleave with hmulti hwatch
  · cases hqueue : session.queue with
    | none => simp [acceptCommand, hqueue] at hleave
    | some queue =>
      simp [acceptCommand, hqueue, Session.serve, Session.enqueue] at hleave
      exact hleave.symm
  · have hclosed : session.queue = none := by
      by_contra hopen
      exact hmulti (htracks.transaction hopen)
    simp [acceptCommand, hclosed, Session.serve, Session.perform] at hleave
    rw [← hleave, Session.leave]
  · have hclosed : session.queue = none := by
      by_contra hopen
      exact hmulti (htracks.transaction hopen)
    have hwatched : session.watched = [] := by
      by_contra hkeys
      exact hwatch (htracks.watched hclosed hkeys)
    cases hleave
    obtain ⟨settings, queue, watched, blocked⟩ := session
    simp_all [Session.leave]

end Cleanup

/-! ## The life of a connection -/

structure ScopedSession where
  conn : ScopedConnection
  session : Session

/--
A command with the server's outcome and the client's result; a release that finds the
record clean, and one with a cleanup that succeeds; a borrow of a connection that is on
the borrower's database; the `SELECT` that brings an idle connection there, when it
succeeds.
-/
inductive SessionAction where
  | command (name : Bytes) (args : List Bytes) (outcome : Outcome)
      (result : Option (RedisResult Value))
  | release (now : Nat)
  | cleanup (now : Nat) (configuredClientName : Bytes)
  | borrow (now runtimeDb : Nat) (acquisitionSlot : Option Nat)
  | resync (now runtimeDb : Nat)

namespace ScopedSession

def opened (conn : ScopedConnection) (db : Nat) : ScopedSession :=
  ⟨{ conn with borrowedAt := none, state := .withConfiguredDb db }, .fresh db⟩

def outcomeOf (env : ScopeEnv) (scope : ScopedSession) (name : Bytes) (args : List Bytes)
    (outcome : Outcome) (result : Option (RedisResult Value)) : Outcome :=
  if (executeScopeCommand env scope.conn name args result).1 then outcome else .rejected

/-- A command waits on the server only outside a transaction, and until it has a reply. -/
def Possible (scope : ScopedSession) (name : Bytes) (args : List Bytes)
    (result : Option (RedisResult Value)) (outcome : Outcome) : Prop :=
  outcome = .waiting → isBlockingCommandName name args = true ∧ scope.session.queue = none ∧
    ∀ reply ∈ result, isPoisoning reply = true

instance (scope : ScopedSession) (name : Bytes) (args : List Bytes)
    (result : Option (RedisResult Value)) (outcome : Outcome) :
    Decidable (scope.Possible name args result outcome) :=
  inferInstanceAs (Decidable (_ → _))

def step (env : ScopeEnv) (scope : ScopedSession) : SessionAction → Option ScopedSession
  | .command name args outcome result =>
    if scope.conn.borrowedAt ≠ none ∧ scope.Possible name args result outcome then
      some ⟨(executeScopeCommand env scope.conn name args result).2,
        scope.session.serve (.parse name args) (scope.outcomeOf env name args outcome result)⟩
    else none
  | .release now =>
    if scope.conn.borrowedAt ≠ none ∧
        scope.conn.state.isCleanFor scope.conn.state.parentDb = true then
      some { scope with conn := scope.conn.seated scope.conn.state.selectedDb now }
    else none
  | .cleanup now configuredClientName =>
    -- a database number has 32 bits
    if scope.conn.borrowedAt ≠ none ∧
        scope.conn.state.isCleanFor scope.conn.state.parentDb = false ∧
        scope.conn.state.blockingInFlight = false ∧ scope.conn.state.mustDiscard = false ∧
        scope.conn.state.parentDb < 2 ^ 32 then
      (cleanedSession scope.session scope.conn.state configuredClientName).map fun session =>
        ⟨scope.conn.seated scope.conn.state.parentDb now, session⟩
    else none
  | .borrow now runtimeDb acquisitionSlot =>
    if scope.conn.borrowedAt = none ∧ scope.conn.state.selectedDb = runtimeDb then
      some { scope with conn := { scope.conn with
        borrowedAt := some now
        acquisitionSlot := acquisitionSlot
        state := scope.conn.state.beginBorrow runtimeDb } }
    else none
  | .resync now runtimeDb =>
    if scope.conn.borrowedAt = none ∧ scope.conn.state.selectedDb ≠ runtimeDb then
      some ⟨{ scope.conn with state := .withConfiguredDb runtimeDb, lastIdleAt := now },
        scope.session.serve (.select runtimeDb) (.accepted [])⟩
    else none

/--
The condition on a step: a command clears what the record takes it to clear, and when a
cleanup drops a transaction, the database and tracking that the record takes for restored
are so without the queued commands.
-/
def Regular (env : ScopeEnv) (scope : ScopedSession) : SessionAction → Prop
  | .command name args outcome result =>
    Clears scope.session
      (scope.session.serve (.parse name args) (scope.outcomeOf env name args outcome result))
      scope.conn.state.parentDb (reading name args)
  | .cleanup _ _ =>
    scope.conn.state.multiActive = true →
      (scope.conn.state.selectedDb = scope.conn.state.parentDb →
        scope.session.db = scope.conn.state.parentDb) ∧
      (scope.conn.state.trackingEnabled = false → scope.session.tracking = false)
  | _ => True

instance Regular.decidable (env : ScopeEnv) (scope : ScopedSession) :
    (action : SessionAction) → Decidable (scope.Regular env action)
  | .command _ _ _ _ => Clears.decidable _ _ _ _
  | .cleanup _ _ => inferInstanceAs (Decidable (_ → _))
  | .release _ | .borrow _ _ _ | .resync _ _ => inferInstanceAs (Decidable True)

/-- A borrower that is given the connection as it is finds the session of a new one. -/
def FindsFresh (scope : ScopedSession) : SessionAction → Prop
  | .borrow _ runtimeDb _ =>
    scope.conn.borrowedAt = none → scope.conn.state.selectedDb = runtimeDb →
      scope.session = .fresh runtimeDb
  | _ => True

structure Tracked (scope : ScopedSession) : Prop where
  tracks : Tracks scope.conn.state scope.session
  blocked : scope.session.blocked = true → scope.conn.state.blockingInFlight = true
  idle : scope.conn.borrowedAt = none → scope.session = .fresh scope.conn.state.selectedDb

theorem tracks_fresh (db : Nat) : Tracks (.withConfiguredDb db) (.fresh db) :=
  ⟨nofun, nofun, nofun, fun _ => rfl, nofun⟩

theorem opened_tracked (conn : ScopedConnection) (db : Nat) : (opened conn db).Tracked :=
  ⟨tracks_fresh db, nofun, fun _ => rfl⟩

variable {env : ScopeEnv} {scope next : ScopedSession}

namespace Tracked

theorem eq_fresh (htracked : scope.Tracked)
    (hclean : scope.conn.state.isCleanFor scope.conn.state.parentDb = true) :
    scope.session = .fresh scope.conn.state.parentDb :=
  htracked.tracks.eq_fresh hclean htracked.blocked

theorem command {name : Bytes} {args : List Bytes} {outcome : Outcome}
    {result : Option (RedisResult Value)} (htracked : scope.Tracked)
    (hborrowed : scope.conn.borrowedAt ≠ none) (hpossible : scope.Possible name args result outcome)
    (hregular : scope.Regular env (.command name args outcome result)) :
    Tracked ⟨(executeScopeCommand env scope.conn name args result).2,
      scope.session.serve (.parse name args) (scope.outcomeOf env name args outcome result)⟩ := by
  have hexecutes := executeScopeCommand_executes env scope.conn name args result
  obtain ⟨renamed, hupdate⟩ := updateStateForCommand_eq_note scope.conn.state name args
  refine ⟨?_, fun hblocked => ?_, fun hidle => absurd (hexecutes.borrowedAt ▸ hidle) hborrowed⟩
  · dsimp only
    rw [hexecutes.state, hupdate]
    exact (htracked.tracks.note hregular).flags renamed _ _
  · rcases Session.serve_blocked hblocked with hbefore | hwaiting
    · exact hexecutes.poisoned (htracked.blocked hbefore)
    · unfold outcomeOf at hwaiting
      split_ifs at hwaiting with hsent
      obtain ⟨hname, -, hreply⟩ := hpossible hwaiting
      exact hexecutes.waits hsent (isBlockingCommand_of_name hname) hreply

theorem cleaned {now : Nat} {configuredClientName : Bytes} {session : Session}
    (htracked : scope.Tracked)
    (hfree : scope.conn.state.blockingInFlight = false) (hdb : scope.conn.state.parentDb < 2 ^ 32)
    (hregular : scope.Regular env (.cleanup now configuredClientName))
    (hcleaned : cleanedSession scope.session scope.conn.state configuredClientName =
      some session) : session = .fresh scope.conn.state.parentDb := by
  obtain ⟨htracks, hblocked, -⟩ := htracked
  have hunblocked : scope.session.blocked = false := by
    by_contra hwaits
    simp [hblocked (by simpa using hwaits)] at hfree
  rw [cleanedSession, map_cleanupPipeline hdb, List.foldlM_append] at hcleaned
  obtain ⟨left, hleave, hrestore⟩ := Option.bind_eq_some_iff.mp hcleaned
  rw [leaveCommands_left htracks hunblocked hleave,
    foldlM_acceptCommand changesSettings_restoreCommands] at hrestore
  -- outside a transaction the record speaks of the settings as they are
  have hsettings : (scope.conn.state.selectedDb = scope.conn.state.parentDb →
      scope.session.db = scope.conn.state.parentDb) ∧
      (scope.conn.state.trackingEnabled = false → scope.session.tracking = false) := by
    by_cases hmulti : scope.conn.state.multiActive = true
    · exact hregular hmulti
    · have hclosed : scope.session.queue = none := by
        by_contra hopen
        exact hmulti (htracks.transaction hopen)
      have hsettled := Tracks.settled_of_closed hclosed
      refine ⟨fun hsame => hsettled ▸ htracks.database hsame, fun hoff => ?_⟩
      by_contra hon
      simp [htracks.tracking (by simpa [hsettled] using hon)] at hoff
  rw [foldl_restoreCommands hsettings.1 hsettings.2 fun entry hentry =>
    htracks.subscribed entry (List.mem_append_left _ hentry)] at hrestore
  exact (Option.some.inj hrestore).symm

theorem step {action : SessionAction} (htracked : scope.Tracked)
    (hregular : scope.Regular env action) (hstep : scope.step env action = some next) :
    next.Tracked := by
  cases action with
  | command name args outcome result =>
    simp only [ScopedSession.step] at hstep
    split_ifs at hstep with hguard
    cases hstep
    exact htracked.command hguard.1 hguard.2 hregular
  | release now =>
    simp only [ScopedSession.step] at hstep
    split_ifs at hstep with hguard
    cases hstep
    have hfresh := htracked.eq_fresh hguard.2
    have hdb : scope.conn.state.selectedDb = scope.conn.state.parentDb := by
      have hclean := hguard.2
      simp only [ConnectionState.isCleanFor, Bool.and_eq_true, beq_iff_eq] at hclean
      exact hclean.1.1.1.1.2
    rw [hfresh, ← hdb]
    exact ⟨tracks_fresh _, nofun, fun _ => rfl⟩
  | cleanup now configuredClientName =>
    simp only [ScopedSession.step] at hstep
    split_ifs at hstep with hguard
    obtain ⟨-, -, hfree, -, hdb⟩ := hguard
    obtain ⟨session, hcleaned, rfl⟩ := Option.map_eq_some_iff.mp hstep
    rw [htracked.cleaned hfree hdb hregular hcleaned]
    exact ⟨tracks_fresh _, nofun, fun _ => rfl⟩
  | borrow now runtimeDb acquisitionSlot =>
    simp only [ScopedSession.step] at hstep
    split_ifs at hstep with hguard
    cases hstep
    obtain ⟨hidle, rfl⟩ := hguard
    rw [htracked.idle hidle]
    exact ⟨tracks_fresh _, nofun, nofun⟩
  | resync now runtimeDb =>
    simp only [ScopedSession.step] at hstep
    split_ifs at hstep with hguard
    cases hstep
    rw [htracked.idle hguard.1]
    exact ⟨tracks_fresh runtimeDb, nofun, fun _ => rfl⟩

end Tracked

/--
In every run of regular steps a connection with a clean record has the session of a
new connection on the parent's database, and so has one that is given to a borrower
as it is.
-/
theorem regular_run_fresh {conn : ScopedConnection} {db : Nat} {actions : List SessionAction}
    {final : ScopedSession} (hregular : Along (step env) (Regular env) (opened conn db) actions)
    (hrun : run (step env) (opened conn db) actions = some final) :
    (final.conn.state.isCleanFor final.conn.state.parentDb = true →
        final.session = .fresh final.conn.state.parentDb) ∧
      Along (step env) FindsFresh (opened conn db) actions := by
  have hpreserved : ∀ scope action next, Tracked scope → Regular env scope action →
      step env scope action = some next → Tracked next :=
    fun _ _ _ htracked hregular hstep => htracked.step hregular hstep
  constructor
  · intro hclean
    exact (run_invariant Tracked hpreserved (opened_tracked conn db) hregular hrun).eq_fresh hclean
  · refine along_of_invariant Tracked hpreserved ?_ (opened_tracked conn db) hregular
    intro scope action htracked _
    cases action with
    | borrow now runtimeDb acquisitionSlot =>
      rintro hidle rfl
      exact htracked.idle hidle
    | _ => trivial

/-! ## Leaks -/

def newConnection : ScopedConnection := ⟨1, 1, 0, none, {}, none, none, .standalone⟩

def accepted (name : String) (args : List String) : SessionAction :=
  .command (bytes name) (args.map bytes) (.accepted []) (some (.ok .okay))

def rejected (name : String) (args : List String) : SessionAction :=
  .command (bytes name) (args.map bytes) .rejected
    (some (.error (ServerError.knownError .responseError none).toRedisError))

def lent (db : Nat) (commands : List SessionAction) : List SessionAction :=
  .borrow 0 db none :: commands ++ [.release 1, .borrow 2 db none]

theorem clean_record_leaks :
    (∃ final, run (step standaloneEnv) (opened newConnection 0)
        (lent 0 [accepted "WATCH" ["k"], rejected "DISCARD" []]) = some final ∧
      final.session = { watched := [bytes "k"] }) ∧
    (∃ final, run (step standaloneEnv) (opened newConnection 0)
        (lent 0 [accepted "WATCH" ["k"], rejected "UNWATCH" ["k"]]) = some final ∧
      final.session = { watched := [bytes "k"] }) ∧
    (∃ final, run (step standaloneEnv) (opened newConnection 0)
        (lent 0 [accepted "SELECT" ["1"], accepted "MULTI" [], accepted "SELECT" ["0"],
          accepted "DISCARD" []]) = some final ∧
      final.session = { db := 1 }) ∧
    (∃ final, run (step standaloneEnv) (opened newConnection 0)
        (lent 0 [accepted "SELECT" ["1"], rejected "SELECT" ["0", "0"]]) = some final ∧
      final.session = { db := 1 }) ∧
    (∃ final, run (step standaloneEnv) (opened newConnection 1)
        (lent 1 [accepted "RESET" []]) = some final ∧
      final.session = { db := 0 }) ∧
    (∃ final, run (step standaloneEnv) (opened newConnection 0)
        (lent 0 [accepted "CLIENT" ["TRACKING", "ON"],
          rejected "CLIENT" ["TRACKING", "OFF", "OFF"]]) = some final ∧
      final.session = { tracking := true }) ∧
    (∃ final, run (step standaloneEnv) (opened newConnection 0)
        (lent 0 [accepted "CLIENT" ["TRACKING", "ON"],
          rejected "CLIENT" ["TRACKING", "NO"]]) = some final ∧
      final.session = { tracking := true }) ∧
    ∃ final, run (step standaloneEnv) (opened newConnection 0)
        [.borrow 0 0 none, accepted "SELECT" ["1"], accepted "MULTI" [], accepted "SELECT" ["0"],
          .cleanup 1 [], .borrow 2 0 none] = some final ∧
      final.session = { db := 1 } :=
  ⟨⟨_, rfl, rfl⟩, ⟨_, rfl, rfl⟩, ⟨_, rfl, rfl⟩, ⟨_, rfl, rfl⟩, ⟨_, rfl, rfl⟩, ⟨_, rfl, rfl⟩,
    ⟨_, rfl, rfl⟩, ⟨_, rfl, rfl⟩⟩

theorem settled_commands_fresh :
    ∃ final, run (step standaloneEnv) (opened newConnection 0)
        [.borrow 0 0 none, accepted "WATCH" ["k"], accepted "MULTI" [], .cleanup 1 [],
          .borrow 2 0 none, accepted "WATCH" ["k"], accepted "MULTI" [], accepted "SELECT" ["1"],
          accepted "EXEC" [], accepted "CLIENT" ["TRACKING", "ON"], rejected "MULTI" ["k"],
          rejected "DISCARD" [], accepted "CLIENT" ["TRACKING", "OFF"],
          accepted "SELECT" ["0"]] = some final ∧
      final.conn.state.isCleanFor 0 = true ∧ final.session = .fresh 0 := by
  have hregular : Along (step standaloneEnv) (Regular standaloneEnv) (opened newConnection 0)
      [.borrow 0 0 none, accepted "WATCH" ["k"], accepted "MULTI" [], .cleanup 1 [],
        .borrow 2 0 none, accepted "WATCH" ["k"], accepted "MULTI" [], accepted "SELECT" ["1"],
        accepted "EXEC" [], accepted "CLIENT" ["TRACKING", "ON"], rejected "MULTI" ["k"],
        rejected "DISCARD" [], accepted "CLIENT" ["TRACKING", "OFF"],
        accepted "SELECT" ["0"]] := by
    decide
  exact ⟨_, rfl, rfl, (regular_run_fresh hregular rfl).1 rfl⟩

end ScopedSession

end ValkeyGlide.Scope
