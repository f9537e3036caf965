import Mathlib.Logic.Function.Basic
import ValkeyGlide.Foundation.Circulation
import ValkeyGlide.Foundation.Run
import ValkeyGlide.Protocol.Value

/-!
# Peers of the fabric

The sessions of a fabric share the entries of its address vector (`fabric.rs`).  Opening a
session holds each peer of the handshake in turn, and gives back what it holds when an
insertion fails; dropping a session releases its addresses one by one.
-/

namespace ValkeyGlide.Rdma

open Foundation Protocol

structure PeerEntry where
  handle : Nat
  sessions : Nat

/-- The loop that is running; with no address left to release the fabric is at rest. -/
inductive PeerTask where
  | opening (held rest : List Bytes)
  | releasing (rest : List Bytes)

inductive AvCall where
  | insert (address : Bytes) (handle : Option Nat)
  | remove (address : Bytes) (handle : Nat)

structure PeerTable where
  peers : Bytes → Option PeerEntry
  sessions : List (List Bytes)
  task : PeerTask
  calls : List AvCall

inductive PeerAction where
  | openSession (addresses : List Bytes)
  | holdPeer (inserted : Option Nat)
  | opened
  | dropSession (index : Nat)
  | releasePeer

/-- What a loop does between the start and the end of an operation. -/
def PeerAction.OfLoop : PeerAction → Prop
  | .holdPeer _ | .releasePeer => True
  | _ => False

namespace PeerTable

def initial : PeerTable := ⟨fun _ => none, [], .releasing [], []⟩

def step (table : PeerTable) : PeerAction → Option PeerTable
  | .openSession addresses =>
    match table.task with
    | .releasing [] => some { table with task := .opening [] addresses }
    | _ => none
  | .holdPeer inserted =>
    match table.task with
    | .opening held (address :: rest) =>
      match table.peers address, inserted with
      | some entry, _ =>
        some { table with
          peers := Function.update table.peers address
            (some { entry with sessions := entry.sessions + 1 })
          task := .opening (held ++ [address]) rest }
      | none, some handle =>
        some { table with
          peers := Function.update table.peers address (some ⟨handle, 1⟩)
          task := .opening (held ++ [address]) rest
          calls := table.calls ++ [.insert address (some handle)] }
      | none, none =>
        some { table with
          task := .releasing held
          calls := table.calls ++ [.insert address none] }
    | _ => none
  | .opened =>
    match table.task with
    | .opening held [] =>
      some { table with sessions := table.sessions ++ [held], task := .releasing [] }
    | _ => none
  | .dropSession index =>
    match table.task, table.sessions[index]? with
    | .releasing [], some addresses =>
      some { table with
        sessions := table.sessions.eraseIdx index
        task := .releasing addresses }
    | _, _ => none
  | .releasePeer =>
    match table.task with
    | .releasing (address :: rest) =>
      match table.peers address with
      | none => some { table with task := .releasing rest }
      | some entry =>
        if entry.sessions - 1 = 0 then
          some { table with
            peers := Function.update table.peers address none
            task := .releasing rest
            calls := table.calls ++ [.remove address entry.handle] }
        else
          some { table with
            peers := Function.update table.peers address
              (some { entry with sessions := entry.sessions - 1 })
            task := .releasing rest }
    | _ => none

@[grind] def count (table : PeerTable) (address : Bytes) : Nat :=
  (table.peers address).elim 0 PeerEntry.sessions

@[grind] def insertCalls (table : PeerTable) (address : Bytes) : Nat :=
  table.calls.countP fun
    | .insert other _ => other = address
    | _ => false

@[grind] def inserts (table : PeerTable) (address : Bytes) : Nat :=
  table.calls.countP fun
    | .insert other (some _) => other = address
    | _ => false

@[grind] def removes (table : PeerTable) (address : Bytes) : Nat :=
  table.calls.countP fun
    | .remove other _ => other = address
    | _ => false

@[grind] def multiplicity (table : PeerTable) (address : Bytes) : Nat :=
  table.sessions.flatten.count address

def AtRest (table : PeerTable) : Prop := table.task = .releasing []

@[grind] def references (table : PeerTable) (address : Bytes) : Nat :=
  table.multiplicity address +
    match table.task with
    | .opening held _ => held.count address
    | .releasing rest => rest.count address

structure Exact (table : PeerTable) (address : Bytes) : Prop where
  count : table.count address = table.references address
  positive : ∀ entry, table.peers address = some entry → 0 < entry.sessions

/--
The provider inserts exactly when the count goes from zero to one, and removes when it goes
back; it is asked to insert, with success or without, only at zero.
-/
def CallsOnTransitions (table next : PeerTable) (address : Bytes) : Prop :=
  (next.insertCalls address ≠ table.insertCalls address → table.count address = 0) ∧
  next.inserts address = table.inserts address +
      (if table.count address = 0 ∧ next.count address = 1 then 1 else 0) ∧
    next.removes address = table.removes address +
      if table.count address = 1 ∧ next.count address = 0 then 1 else 0

variable {table next final : PeerTable} {action : PeerAction} {actions loop : List PeerAction}
  {address : Bytes} {addresses : List Bytes}

theorem step_exact (hexact : table.Exact address) (hstep : table.step action = some next) :
    next.Exact address ∧ CallsOnTransitions table next address := by
  obtain ⟨hcount, hpositive⟩ := hexact
  revert hstep
  fun_cases step table action with
  | case9 index addresses hsession =>
    rintro ⟨⟩
    have hperm := (perm_cons_eraseIdx hsession).flatten.count_eq address
    refine ⟨⟨?_, hpositive⟩, ?_, ?_, ?_⟩ <;> grind
  | case2 | case6 | case8 | case10 | case14 => simp
  | _ =>
    rintro ⟨⟩
    refine ⟨⟨?_, ?_⟩, ?_, ?_, ?_⟩ <;> grind [Function.update_apply]

theorem run_exact (hexact : table.Exact address) (hrun : run step table actions = some final) :
    final.Exact address :=
  run_invariant_all (·.Exact address) (fun _ _ _ hexact hstep => (step_exact hexact hstep).1)
    hexact hrun

theorem Exact.of_atRest (hexact : table.Exact address) (hrest : table.AtRest) :
    table.count address = table.multiplicity address := by
  rw [hexact.count, references, hrest]
  rfl

/-- In the opening of a session to `addresses`, none of which is taken twice or left out. -/
structure Opening (addresses : List Bytes) (sessions : List (List Bytes)) (table : PeerTable) :
    Prop where
  sessions : table.sessions = sessions
  addresses : ∀ held rest, table.task = .opening held rest → held ++ rest = addresses

theorem Opening.step {sessions : List (List Bytes)} (hopening : table.Opening addresses sessions)
    (hloop : action.OfLoop) (hstep : table.step action = some next) :
    next.Opening addresses sessions := by
  obtain ⟨hsessions, haddresses⟩ := hopening
  cases action with
  | openSession | opened | dropSession => contradiction
  | holdPeer | releasePeer =>
    simp only [PeerTable.step] at hstep
    constructor <;> grind

theorem opening_of_run (hrest : table.AtRest) (hloop : ∀ action ∈ loop, action.OfLoop)
    (hrun : run step table (.openSession addresses :: loop) = some next) :
    next.Opening addresses table.sessions := by
  rw [run_cons, step, hrest] at hrun
  have hstart : Opening addresses table.sessions { table with task := .opening [] addresses } :=
    ⟨rfl, by rintro _ _ ⟨⟩; rfl⟩
  exact run_invariant (Opening addresses table.sessions)
    (fun _ _ _ hopening hloop hstep => hopening.step hloop hstep) hstart (along_of_mem hloop _) hrun

theorem opened_of_run (hrest : table.AtRest) (hloop : ∀ action ∈ loop, action.OfLoop)
    (hrun : run step table (.openSession addresses :: loop ++ [.opened]) = some next) :
    next.sessions = table.sessions ++ [addresses] ∧ next.AtRest := by
  rw [run_append, Option.bind_eq_some_iff] at hrun
  obtain ⟨last, hlast, hopened⟩ := hrun
  obtain ⟨hsessions, haddresses⟩ := opening_of_run hrest hloop hlast
  rw [run_cons, step] at hopened
  split at hopened
  · next held htask =>
    cases hopened
    have hheld := haddresses held [] htask
    rw [List.append_nil] at hheld
    exact ⟨by rw [hsessions, hheld], rfl⟩
  · cases hopened

/--
In every state of every run: at rest an address is in the table exactly when a live session
holds it, with its multiplicity as the count; an opening that comes to rest without a session
has changed no count, and one that succeeds has added exactly its addresses; the provider is
called exactly on the transitions to one and to zero; and no count is lowered below zero.
-/
theorem peer_counts_exact (hrun : run step initial actions = some table) :
    (table.AtRest → ∀ address, table.count address = table.multiplicity address ∧
      ((table.peers address).isSome ↔ ∃ session ∈ table.sessions, address ∈ session)) ∧
    (∀ addresses loop later, table.AtRest → (∀ action ∈ loop, action.OfLoop) →
      run step table (.openSession addresses :: loop) = some later → later.AtRest →
      ∀ address, later.count address = table.count address) ∧
    (∀ addresses loop later, table.AtRest → (∀ action ∈ loop, action.OfLoop) →
      run step table (.openSession addresses :: loop ++ [.opened]) = some later →
      later.sessions = table.sessions ++ [addresses] ∧
        ∀ address, later.count address = table.count address + addresses.count address) ∧
    (∀ action next, table.step action = some next →
      ∀ address, CallsOnTransitions table next address) ∧
    ∀ address rest, table.task = .releasing (address :: rest) → 0 < table.count address := by
  have hexact : ∀ address, table.Exact address := fun address => run_exact
    ⟨rfl, by simp [initial]⟩ hrun
  refine ⟨fun hrest address => ⟨(hexact address).of_atRest hrest, ?_⟩, ?_, ?_, ?_, ?_⟩
  · have hmem : (∃ session ∈ table.sessions, address ∈ session) ↔ 0 < table.count address := by
      rw [(hexact address).of_atRest hrest, multiplicity, List.count_pos_iff, List.mem_flatten]
    rw [hmem, count]
    cases hlookup : table.peers address with
    | none => simp
    | some entry => simp [(hexact address).positive entry hlookup]
  · intro addresses loop later hrest hloop hopening hlater address
    have hsessions := (opening_of_run hrest hloop hopening).sessions
    rw [(run_exact (hexact address) hopening).of_atRest hlater, (hexact address).of_atRest hrest,
      multiplicity, multiplicity, hsessions]
  · intro addresses loop later hrest hloop hopening
    obtain ⟨hsessions, hlater⟩ := opened_of_run hrest hloop hopening
    refine ⟨hsessions, fun address => ?_⟩
    rw [(run_exact (hexact address) hopening).of_atRest hlater, (hexact address).of_atRest hrest,
      multiplicity, multiplicity, hsessions]
    simp
  · exact fun action next hstep address => (step_exact (hexact address) hstep).2
  · intro address rest htask
    rw [(hexact address).count, references, htask]
    simp only [List.count_cons_self]
    omega

def sharedPeer : List PeerAction :=
  [.openSession [[1], [1]], .holdPeer (some 7), .holdPeer none, .opened]

/-- A second session to a shared peer and to one that cannot be inserted is rolled back. -/
theorem shared_peer_kept :
    let addresses : List Bytes := [[1], [2]]
    let loop : List PeerAction := [.holdPeer none, .holdPeer none, .releasePeer]
    ∃ table later, run step initial sharedPeer = some table ∧ table.count [1] = 2 ∧
      run step table (.openSession addresses :: loop) = some later ∧
      later.calls = [.insert [1] (some 7), .insert [2] none] ∧ later.count [1] = 2 := by
  intro addresses loop
  have hrun : run step initial sharedPeer = some _ := rfl
  have hloop : ∀ action ∈ loop, action.OfLoop := by simp [loop, PeerAction.OfLoop]
  exact ⟨_, _, hrun, rfl, rfl, rfl,
    (peer_counts_exact hrun).2.1 addresses loop _ rfl hloop rfl rfl [1]⟩

end PeerTable

end ValkeyGlide.Rdma
