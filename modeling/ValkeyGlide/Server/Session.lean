import Mathlib.Algebra.Order.Group.Nat
import ValkeyGlide.Protocol.Command

/-!
# The session of a connection on the server

What the server keeps for one connection, and what a command does to it.  This is
the behaviour of the server, not code of the client: inside a transaction commands
are only queued, and whether a command is accepted is up to the server.
-/

namespace ValkeyGlide.Server

open Protocol

inductive SubscriptionKind where
  | channel
  | pattern
  | shardedChannel
  deriving DecidableEq, Repr

abbrev Subscription := SubscriptionKind × Bytes

inductive SessionCommand where
  | watch (keys : List Bytes)
  | unwatch
  | multi
  | exec
  | discard
  | select (db : Nat)
  | tracking (on : Bool)
  | subscribe (kind : SubscriptionKind) (names : List Bytes)
  | unsubscribe (kind : SubscriptionKind) (names : List Bytes)
  | reset
  | other
  deriving DecidableEq, Repr

/-! ## Reading a command -/

namespace SessionCommand

def readClient (upper : Bytes → Bytes) (tracking : Bytes → SessionCommand) :
    List Bytes → SessionCommand
  | sub :: value :: _ => if upper sub = bytes "TRACKING" then tracking (upper value) else .other
  | _ => .other

/--
A command as it is read by somebody who compares words by `upper` and takes the
value of `CLIENT TRACKING` for `tracking`.
-/
def read (upper : Bytes → Bytes) (tracking : Bytes → SessionCommand) (name : Bytes)
    (args : List Bytes) : SessionCommand :=
  let name := upper name
  if name = bytes "WATCH" then .watch args
  else if name = bytes "UNWATCH" then .unwatch
  else if name = bytes "MULTI" then .multi
  else if name = bytes "EXEC" then .exec
  else if name = bytes "DISCARD" then .discard
  else if name = bytes "SELECT" then
    match args.head?.bind (parseUnsigned (2 ^ 32 - 1)) with
    | some db => .select db
    | none => .other
  else if name = bytes "CLIENT" then readClient upper tracking args
  else if name = bytes "SUBSCRIBE" then .subscribe .channel args
  else if name = bytes "PSUBSCRIBE" then .subscribe .pattern args
  else if name = bytes "SSUBSCRIBE" then .subscribe .shardedChannel args
  else if name = bytes "UNSUBSCRIBE" then .unsubscribe .channel args
  else if name = bytes "PUNSUBSCRIBE" then .unsubscribe .pattern args
  else if name = bytes "SUNSUBSCRIBE" then .unsubscribe .shardedChannel args
  else if name = bytes "RESET" then .reset
  else .other

/-- Tracking is switched `ON` or `OFF`; another value is an error. -/
def parseTracking (value : Bytes) : SessionCommand :=
  if value = bytes "ON" then .tracking true
  else if value = bytes "OFF" then .tracking false
  else .other

def parse : Bytes → List Bytes → SessionCommand := read asciiUppercase parseTracking

def subscriptions : SessionCommand → List Subscription
  | .subscribe kind names => names.map (kind, ·)
  | _ => []

end SessionCommand

/-! ## The session -/

structure Settings where
  db : Nat := 0
  tracking : Bool := false
  subscribed : List Subscription := []
  deriving DecidableEq, Repr

/-- The effect of a command that is carried out; no name means all of the kind. -/
def SessionCommand.apply (settings : Settings) : SessionCommand → Settings
  | .select db => { settings with db := db }
  | .tracking on => { settings with tracking := on }
  | .subscribe kind names =>
    { settings with subscribed := settings.subscribed ++ names.map (kind, ·) }
  | .unsubscribe kind names =>
    { settings with subscribed := settings.subscribed.filter fun entry =>
        entry.1 ≠ kind ∨ names ≠ [] ∧ entry.2 ∉ names }
  | .reset => {}
  | _ => settings

/-- `queue` is `none` outside a transaction, `blocked` is a command that still waits. -/
structure Session extends Settings where
  queue : Option (List SessionCommand) := none
  watched : List Bytes := []
  blocked : Bool := false
  deriving DecidableEq, Repr

/--
The server's choice for a command.  `rejected` has no effect: an error, or a command
that did not arrive.  `accepted` names the queued commands that fail when it is an
`EXEC`.  `aborted` is an `EXEC` that carries nothing out.
-/
inductive Outcome where
  | rejected
  | accepted (failed : List Nat)
  | aborted
  | waiting
  deriving DecidableEq, Repr

namespace Session

def fresh (db : Nat) : Session := { db := db }

def settled (session : Session) : Settings :=
  (session.queue.getD []).foldl SessionCommand.apply session.toSettings

def commit (session : Session) (queue : List SessionCommand) (failed : List Nat) : Settings :=
  ((queue.zipIdx.filter fun entry => entry.2 ∉ failed).map Prod.fst).foldl SessionCommand.apply
    session.toSettings

/-- The end of a transaction also ends the watches. -/
def leave (settings : Settings) : Session := { settings with }

def perform (session : Session) : SessionCommand → Session
  | .watch keys => { session with watched := session.watched ++ keys }
  | .unwatch => { session with watched := [] }
  | .multi => { session with queue := some [] }
  | .exec => session
  | .discard => session
  | .reset => {}
  | command => { session with toSettings := command.apply session.toSettings }

def enqueue (session : Session) (queue : List SessionCommand) (failed : List Nat) :
    SessionCommand → Session
  | .exec => leave (session.commit queue failed)
  | .discard => leave session.toSettings
  | .reset => {}
  | .watch _ => session
  | .multi => session
  | command => { session with queue := some (queue ++ [command]) }

/-- A command that is answered finds the connection no longer blocked. -/
def serve (session : Session) (command : SessionCommand) : Outcome → Session
  | .rejected => session
  | .waiting => { session with blocked := true }
  | .aborted =>
    match command, session.queue with
    | .exec, some _ => leave session.toSettings
    | _, _ => session
  | .accepted failed =>
    let session := { session with blocked := false }
    match session.queue with
    | some queue => session.enqueue queue failed command
    | none => session.perform command

/-! ## What a command can change -/

section Serve

variable {session : Session} {command : SessionCommand} {outcome : Outcome}

theorem serve_cases (session : Session) (command : SessionCommand) (outcome : Outcome) :
    (∃ blocked, session.serve command outcome = { session with blocked := blocked } ∧
        (blocked = true → session.blocked = true ∨ outcome = .waiting)) ∨
      (∃ queue, session.queue = some queue ∧ command = .exec ∧
        session.serve command outcome = leave session.toSettings) ∨
      (∃ queue failed, session.queue = some queue ∧ session.serve command outcome =
        enqueue { session with blocked := false } queue failed command) ∨
      (session.queue = none ∧
        session.serve command outcome = perform { session with blocked := false } command) := by
  cases outcome with
  | rejected => exact .inl ⟨session.blocked, rfl, .inl⟩
  | waiting => exact .inl ⟨true, rfl, fun _ => .inr rfl⟩
  | aborted =>
    simp only [serve]
    split
    · next queue hqueue => exact .inr (.inl ⟨queue, hqueue, rfl, rfl⟩)
    · exact .inl ⟨session.blocked, rfl, .inl⟩
  | accepted failed =>
    cases hqueue : session.queue with
    | some queue =>
      refine .inr (.inr (.inl ⟨queue, failed, rfl, ?_⟩))
      simp [serve, hqueue]
    | none =>
      refine .inr (.inr (.inr ⟨rfl, ?_⟩))
      simp [serve, hqueue]

theorem serve_queue (hopen : (session.serve command outcome).queue ≠ none) :
    session.queue ≠ none ∨ command = .multi := by
  rcases serve_cases session command outcome with
    ⟨_, hserve, -⟩ | ⟨queue, hqueue, -, -⟩ | ⟨queue, _, hqueue, -⟩ | ⟨hqueue, hserve⟩
  · rw [hserve] at hopen
    exact .inl hopen
  · exact .inl (by simp [hqueue])
  · exact .inl (by simp [hqueue])
  · rw [hserve] at hopen
    cases command with
    | multi => exact .inr rfl
    | reset => contradiction
    | _ => exact .inl hopen

theorem serve_watched (hclosed : (session.serve command outcome).queue = none)
    (hwatched : (session.serve command outcome).watched ≠ []) :
    session.queue = none ∧ session.watched ≠ [] ∨ ∃ keys, command = .watch keys := by
  rcases serve_cases session command outcome with
    ⟨_, hserve, -⟩ | ⟨_, -, -, hserve⟩ | ⟨queue, failed, hqueue, hserve⟩ | ⟨hqueue, hserve⟩
  · rw [hserve] at hclosed hwatched
    exact .inl ⟨hclosed, hwatched⟩
  · rw [hserve] at hwatched
    contradiction
  · rw [hserve] at hclosed hwatched
    -- a transaction is left with nothing watched, or not left at all
    cases command with
    | exec | discard | reset => contradiction
    | watch | multi => exact nomatch hqueue.symm.trans hclosed
    | _ => contradiction
  · rw [hserve] at hwatched
    cases command with
    | watch keys => exact .inr ⟨keys, rfl⟩
    | unwatch | reset => contradiction
    | _ => exact .inl ⟨hqueue, hwatched⟩

theorem serve_settled (hexec : command ≠ .exec) (hdiscard : command ≠ .discard) :
    (session.serve command outcome).settled = session.settled ∨
      (session.serve command outcome).settled = command.apply session.settled := by
  rcases serve_cases session command outcome with
    ⟨_, hserve, -⟩ | ⟨_, -, hcommand, -⟩ | ⟨queue, failed, hqueue, hserve⟩ | ⟨hqueue, hserve⟩
  · rw [hserve]
    exact .inl rfl
  · contradiction
  · rw [hserve]
    cases command with
    | exec | discard => contradiction
    | reset => exact .inr rfl
    | watch | multi => exact .inl rfl
    | _ => exact .inr (by simp [enqueue, settled, hqueue])
  · rw [hserve]
    cases command with
    | exec | discard => contradiction
    | reset => exact .inr rfl
    | multi => exact .inl (by simp [perform, settled, hqueue])
    | _ => exact .inr (by simp [perform, settled, hqueue, SessionCommand.apply])

theorem serve_blocked (hblocked : (session.serve command outcome).blocked = true) :
    session.blocked = true ∨ outcome = .waiting := by
  rcases serve_cases session command outcome with
    ⟨_, hserve, hcause⟩ | ⟨_, -, -, hserve⟩ | ⟨queue, failed, -, hserve⟩ | ⟨-, hserve⟩
  · rw [hserve] at hblocked
    exact hcause hblocked
  all_goals
    rw [hserve] at hblocked
    cases command <;> contradiction

/-! ## Subscriptions -/

def subscriptions (session : Session) : List Subscription :=
  session.subscribed ++ (session.queue.getD []).flatMap SessionCommand.subscriptions

theorem apply_subscribed (settings : Settings) (command : SessionCommand) :
    (command.apply settings).subscribed ⊆ settings.subscribed ++ command.subscriptions := by
  cases command with
  | subscribe kind names => exact List.Subset.refl _
  | unsubscribe kind names =>
    exact List.subset_append_of_subset_left _ List.filter_sublist.subset
  | reset => exact List.nil_subset _
  | _ => exact List.subset_append_left _ _

theorem commit_subscribed (queue : List SessionCommand) (settings : Settings) :
    (queue.foldl SessionCommand.apply settings).subscribed ⊆
      settings.subscribed ++ queue.flatMap SessionCommand.subscriptions := by
  induction queue generalizing settings with
  | nil => exact List.subset_append_left _ _
  | cons command rest ih =>
    intro entry hentry
    rw [List.flatMap_cons, ← List.append_assoc]
    rcases List.mem_append.mp (ih (command.apply settings) hentry) with hfirst | hrest
    · exact List.mem_append_left _ (apply_subscribed settings command hfirst)
    · exact List.mem_append_right _ hrest

theorem commit_subscriptions {queue : List SessionCommand} (hqueue : session.queue = some queue)
    (failed : List Nat) : (session.commit queue failed).subscribed ⊆ session.subscriptions := by
  intro entry hentry
  rw [subscriptions, hqueue]
  rcases List.mem_append.mp (commit_subscribed _ _ hentry) with hbefore | hqueued
  · exact List.mem_append_left _ hbefore
  · obtain ⟨command, hcommand, hmem⟩ := List.mem_flatMap.mp hqueued
    obtain ⟨⟨queued, index⟩, hindexed, rfl⟩ := List.mem_map.mp hcommand
    refine List.mem_append_right _ (List.mem_flatMap.mpr ⟨queued, ?_, hmem⟩)
    exact List.fst_mem_of_mem_zipIdx (List.mem_filter.mp hindexed).1

theorem serve_subscriptions :
    (session.serve command outcome).subscriptions ⊆
      session.subscriptions ++ command.subscriptions := by
  rcases serve_cases session command outcome with
    ⟨_, hserve, -⟩ | ⟨_, -, -, hserve⟩ | ⟨queue, failed, hqueue, hserve⟩ | ⟨hqueue, hserve⟩
  · rw [hserve]
    exact List.subset_append_left _ _
  · rw [hserve]
    simp [leave, subscriptions]
  · rw [hserve]
    cases command with
    | exec =>
      have hcommit := commit_subscriptions
        (show ({ session with blocked := false } : Session).queue = some queue from hqueue) failed
      simpa [enqueue, leave, subscriptions, SessionCommand.subscriptions] using hcommit
    | discard => simp [enqueue, leave, subscriptions]
    | reset => simp [enqueue, subscriptions]
    | watch | multi => exact List.subset_append_left _ _
    | _ => simp [enqueue, subscriptions, hqueue]
  · rw [hserve]
    cases command with
    | reset => exact List.nil_subset _
    | unsubscribe kind names =>
      simpa [perform, subscriptions, hqueue] using
        apply_subscribed session.toSettings (.unsubscribe kind names)
    | _ => simp [perform, subscriptions, hqueue, SessionCommand.apply, SessionCommand.subscriptions]

end Serve

end Session

end ValkeyGlide.Server
