import ValkeyGlide.Pool.ClientPool
import ValkeyGlide.Server.Session

/-!
# The session of a released client

`release_client_async` takes a client out of the pool, resets its session with
`DISCARD` and `SELECT`, and returns it to the idle clients if the second command
succeeds.  What becomes of the commands is the choice of the server and of the
checks a command passes before it is sent.
-/

namespace ValkeyGlide.Pool

open Server

/-- `served .rejected` also stands for a command that is refused before it is sent. -/
inductive DiscardFate where
  | served (outcome : Outcome)
  | reconnected (db : Nat)
  deriving DecidableEq, Repr

structure ResetFate where
  discard : DiscardFate
  select : Outcome
  /-- The reply to `SELECT` reaches the client. -/
  answered : Bool
  /-- The reset ends before its timeout. -/
  inTime : Bool
  deriving DecidableEq, Repr

def DiscardFate.apply (session : Session) : DiscardFate → Session
  | .served outcome => session.serve .discard outcome
  | .reconnected db => .fresh db

/-- Whether the reset succeeds, which only `SELECT` decides, and the session it leaves. -/
def resetConnectionState (session : Session) (configuredDb : Nat) (fate : ResetFate) :
    Bool × Session :=
  let session := fate.discard.apply session
  match fate.select with
  | .accepted failed =>
    (fate.answered, session.serve (.select configuredDb) (.accepted failed))
  | outcome => (false, session.serve (.select configuredDb) outcome)

def finishRelease (pool : ClientPool) (entry : PooledClient) (now : Nat) (succeeded inTime : Bool) :
    ClientPool :=
  if inTime && succeeded then pool.returnToIdle entry now
  else pool.discardClient entry.clientId

structure Clean (configuredDb : Nat) (session : Session) : Prop where
  outside : session.queue = none
  unwatched : session.watched = []
  selected : session.db = configuredDb

/--
What makes `DISCARD` enough: the connection is replaced, there is nothing to
cancel, or the server carries it out inside a transaction.
-/
def Cancels (session : Session) : DiscardFate → Prop
  | .reconnected _ => True
  | .served outcome =>
    session.queue = none ∧ session.watched = [] ∨
      session.queue ≠ none ∧ ∃ failed, outcome = .accepted failed

section Release

variable {session : Session} {configuredDb : Nat} {fate : ResetFate}

theorem cancels_iff : Cancels session fate.discard ↔
    (fate.discard.apply session).queue = none ∧ (fate.discard.apply session).watched = [] := by
  cases fate.discard with
  | reconnected db => exact ⟨fun _ => ⟨rfl, rfl⟩, fun _ => trivial⟩
  | served outcome =>
    simp only [Cancels, DiscardFate.apply]
    cases hqueue : session.queue with
    | none =>
      have hkept : (session.serve .discard outcome).queue = none ∧
          (session.serve .discard outcome).watched = session.watched := by
        cases outcome <;> simp [Session.serve, Session.perform, hqueue]
      simp [hkept]
    | some queue =>
      cases outcome <;> simp [Session.serve, Session.enqueue, Session.leave, hqueue]

theorem clean_select_iff (failed : List Nat) :
    Clean configuredDb (session.serve (.select configuredDb) (.accepted failed)) ↔
      session.queue = none ∧ session.watched = [] := by
  cases hqueue : session.queue with
  | none =>
    constructor
    · intro hclean
      exact ⟨rfl, by simpa [Session.serve, Session.perform, hqueue] using hclean.unwatched⟩
    · rintro ⟨-, hwatched⟩
      constructor <;>
        simp [Session.serve, Session.perform, SessionCommand.apply, hqueue, hwatched]
  | some queue =>
    constructor
    · intro hclean
      have hopen := hclean.outside
      simp [Session.serve, Session.enqueue, hqueue] at hopen
    · rintro ⟨hclosed, -⟩
      contradiction

theorem succeeded_of_returned {pool : ClientPool} {entry : PooledClient} {now : Nat}
    {succeeded inTime : Bool}
    (hreturned : (finishRelease pool entry now succeeded inTime).idle ≠ pool.idle) :
    succeeded = true := by
  by_contra hfailed
  refine hreturned ?_
  rw [finishRelease, if_neg (by simp [hfailed])]
  rfl

/--
A client that is returned to the idle clients has a clean session exactly if
`DISCARD` was enough for the session it was released with.
-/
theorem returned_client_clean_iff (pool : ClientPool) (entry : PooledClient) (now : Nat)
    (configuredDb : Nat) (session : Session) (fate : ResetFate)
    (hreturned : (finishRelease pool entry now
      (resetConnectionState session configuredDb fate).1 fate.inTime).idle ≠ pool.idle) :
    Clean configuredDb (resetConnectionState session configuredDb fate).2 ↔
      Cancels session fate.discard := by
  have hsucceeded := succeeded_of_returned hreturned
  rw [cancels_iff]
  cases hselect : fate.select with
  | accepted failed =>
    simp only [resetConnectionState, hselect]
    exact clean_select_iff failed
  | rejected | aborted | waiting => simp [resetConnectionState, hselect] at hsucceeded

end Release

def emptyPool : ClientPool :=
  ⟨⟨1, 0, 1, 1, one_lt_counter⟩, [], ∅, 1, .running, []⟩

def takenClient : PooledClient := ⟨0, 0, some 0, .inUse, 0⟩

def refusedDiscard : ResetFate := ⟨.served .rejected, .accepted [], true, true⟩

theorem watch_or_transaction_survives_reset :
    (∃ session : Session, session.queue = none ∧
      (finishRelease emptyPool takenClient 1 (resetConnectionState session 0 refusedDiscard).1
        refusedDiscard.inTime).idle ≠ emptyPool.idle ∧
      ¬ Clean 0 (resetConnectionState session 0 refusedDiscard).2) ∧
    ∃ session : Session, session.watched = [] ∧
      (finishRelease emptyPool takenClient 1 (resetConnectionState session 0 refusedDiscard).1
        refusedDiscard.inTime).idle ≠ emptyPool.idle ∧
      ¬ Clean 0 (resetConnectionState session 0 refusedDiscard).2 := by
  constructor
  · exact ⟨{ watched := [[107]] }, rfl, nofun, fun hclean => nomatch hclean.unwatched⟩
  · exact ⟨{ queue := some [] }, rfl, nofun, fun hclean => nomatch hclean.outside⟩

theorem open_transaction_reset :
    Clean 0 (resetConnectionState { db := 4, queue := some [.other], watched := [[107]] } 0
      { refusedDiscard with discard := .served (.accepted []) }).2 :=
  (returned_client_clean_iff emptyPool takenClient 1 0
    { db := 4, queue := some [.other], watched := [[107]] }
    { refusedDiscard with discard := .served (.accepted []) } nofun).mpr
    (.inr ⟨nofun, [], rfl⟩)

end ValkeyGlide.Pool
