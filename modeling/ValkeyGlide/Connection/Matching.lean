import Mathlib.Data.List.Nodup
import ValkeyGlide.Connection.PipelineSink
import ValkeyGlide.Foundation.Demultiplex
import ValkeyGlide.Foundation.Run

/-!
# Replies reach their requests

The sink together with a server that answers the requests written to it in order, with
the declared number of replies each.  Requests are written, replies are read and other
push frames arrive in any interleaving.  The main result is that each caller is sent
the response to its own request, made of all the replies to it and of nothing else.
-/

namespace ValkeyGlide.Connection

open Protocol Foundation

/-! ## Requests and their answers -/

/-- A fenced command is followed by a `PING`, because it may have no reply of its own. -/
inductive Request where
  | single
  | pipeline (responseCount : Nat) (isTransaction : Bool)
  | fenced
  deriving DecidableEq, Repr

def Request.message (output : Nat) : Request → PipelineMessage
  | single => ⟨output, none, true, false⟩
  | pipeline responseCount isTransaction => ⟨output, some responseCount, isTransaction, false⟩
  | fenced => ⟨output, none, true, true⟩

/-- The frames that answer a command: all but the pushes that are no confirmation. -/
def isReply : Value → Bool
  | .push kind _ => kind.hasReply
  | _ => true

def isPong : Value → Bool
  | .simpleString text => text = "PONG" ∨ text = "pong"
  | _ => false

/-- A request written to the socket, with the server's own replies to it. -/
structure Exchange where
  output : Nat
  request : Request
  replies : List Value

namespace Exchange

/-- The number of replies is the declared one, and no fenced command is answered `PONG`. -/
def fits (exchange : Exchange) : Bool :=
  exchange.replies.all isReply &&
    match exchange.request with
    | .single => exchange.replies.length = 1
    | .pipeline responseCount _ => 0 < responseCount ∧ exchange.replies.length = responseCount
    | .fenced => exchange.replies.length ≤ 1 ∧ exchange.replies.all fun reply => !isPong reply

def frames (exchange : Exchange) : List Value :=
  match exchange.request with
  | .fenced => exchange.replies ++ [.simpleString "PONG"]
  | _ => exchange.replies

def abortError : Value → Option RedisError
  | .serverError error => some error.toRedisError
  | _ => none

def response (exchange : Exchange) : RedisResult Value :=
  match exchange.request with
  | .pipeline _ isTransaction =>
    match if isTransaction then exchange.replies.findSome? abortError else none with
    | some error => .error error
    | none => .ok (.array exchange.replies)
  | _ => (exchange.replies.headD .nil).extractError

def entry (exchange : Exchange) : InFlight :=
  (exchange.request.message exchange.output).entry

def result (exchange : Exchange) : Nat × RedisResult Value :=
  (exchange.output, exchange.response)

end Exchange

/-! ## The system -/

/-- `replied` are the replies that have been read, `unread` those that are on their way. -/
structure Multiplexed where
  sink : PipelineSink
  calls : Nat
  written : List Exchange
  replied : List Value
  unread : List Value
  effects : List SinkEffect

inductive SinkAction where
  | startSend (request : Request) (isClosed : Bool) (socket : RedisResult (List Value))
  | sinkFailed (error : RedisError)
  | read
  | push (kind : PushKind) (data : List Value)

def sends (effects : List SinkEffect) (output : Nat) : List (RedisResult Value) :=
  effects.filterMap fun effect =>
    match effect with
    | .send other result => if other = output then some result else none
    | _ => none

namespace Multiplexed

def initial (hasCache : Bool) : Multiplexed := ⟨.new hasCache, 0, [], [], [], []⟩

def sentTo (conn : Multiplexed) (output : Nat) : List (RedisResult Value) :=
  sends conn.effects output

def step (debug : RedisResult Value → String) (conn : Multiplexed) : SinkAction → Option Multiplexed
  | .startSend request isClosed socket =>
    let message := request.message conn.calls
    let (sink, effects, outcome) :=
      conn.sink.startSend message isClosed (socket.map fun _ => ())
    let conn := { conn with
      sink := sink, calls := conn.calls + 1, effects := conn.effects ++ effects }
    match outcome, socket with
    | .written, .ok replies =>
      let exchange : Exchange := ⟨message.output, request, replies⟩
      if exchange.fits then
        some { conn with
          written := conn.written ++ [exchange]
          unread := conn.unread ++ exchange.frames }
      else none
    | _, _ => some conn
  | .sinkFailed error => some { conn with sink := { conn.sink with error := some error } }
  | .read =>
    match conn.unread with
    | [] => none
    | frame :: rest =>
      let (sink, effects) := conn.sink.sendResult debug (.ok frame)
      some { conn with
        sink := sink
        replied := conn.replied ++ [frame]
        unread := rest
        effects := conn.effects ++ effects }
  | .push kind data =>
    if kind.hasReply then none
    else
      let (sink, effects) := conn.sink.sendResult debug (.ok (.push kind data))
      some { conn with sink := sink, effects := conn.effects ++ effects }

end Multiplexed

/-! ## One entry -/

section Entry

variable (debug : RedisResult Value → String)

def feed (entry : InFlight) (reply : Value) : Option (InFlight ⊕ (Nat × RedisResult Value)) :=
  match PipelineSink.answer debug ⟨[entry], none, false, false⟩ (.ok reply) with
  | (⟨[next], _, false, _⟩, []) => some (.inl next)
  | (⟨[], _, false, _⟩, [.send output result]) => some (.inr (output, result))
  | _ => none

variable {debug} {entry : InFlight} {rest : List InFlight} {sink : PipelineSink} {reply : Value}

theorem answer_cons (result : RedisResult Value) (hqueue : sink.inFlight = entry :: rest) :
    sink.answer debug result =
      let alone := PipelineSink.answer debug ⟨[entry], none, false, false⟩ result
      ({ sink with
          inFlight := alone.1.inFlight ++ rest
          responseSyncLost := sink.responseSyncLost || alone.1.responseSyncLost }, alone.2) := by
  unfold PipelineSink.answer
  rw [hqueue]
  dsimp only
  by_cases hfenced : entry.isFenced
  · rw [if_pos hfenced, if_pos hfenced]
    unfold PipelineSink.handleFencedCommand
    cases entry.fencedResult with
    | some stored =>
      dsimp only
      unfold PipelineSink.handleFencedSecondResponse
      dsimp only
      split
      · split_ifs <;> simp
      · simp
    | none =>
      dsimp only
      unfold PipelineSink.handleFencedFirstResponse
      dsimp only
      split
      · split_ifs <;> simp
      · simp
  · rw [if_neg hfenced, if_neg hfenced]
    cases entry.responseAggregate with
    | singleCommand => simp
    | pipeline expected current buffer firstErr isTransaction =>
      dsimp only
      split_ifs <;> simp

theorem answer_of_feed_inl {next : InFlight} (hqueue : sink.inFlight = entry :: rest)
    (hfeed : feed debug entry reply = some (.inl next)) :
    sink.answer debug (.ok reply) = ({ sink with inFlight := next :: rest }, []) := by
  unfold feed at hfeed
  split at hfeed
  next halone =>
    obtain rfl := Sum.inl.inj (Option.some.inj hfeed)
    rw [answer_cons _ hqueue, halone]
    simp
  next => simp at hfeed
  next => contradiction

theorem answer_of_feed_inr {result : Nat × RedisResult Value}
    (hqueue : sink.inFlight = entry :: rest) (hfeed : feed debug entry reply = some (.inr result)) :
    sink.answer debug (.ok reply) =
      ({ sink with inFlight := rest }, [.send result.1 result.2]) := by
  unfold feed at hfeed
  split at hfeed
  next => simp at hfeed
  next halone =>
    obtain rfl := Sum.inr.inj (Option.some.inj hfeed)
    rw [answer_cons _ hqueue, halone]
    simp
  next => contradiction

def Quiet (effects : List SinkEffect) : Prop :=
  ∀ output result, .send output result ∉ effects

theorem sends_of_quiet {effects : List SinkEffect} (hquiet : Quiet effects) (output : Nat) :
    sends effects output = [] := by
  refine List.filterMap_eq_nil_iff.mpr ?_
  intro effect hmem
  split
  next other result => exact absurd hmem (hquiet other result)
  next => rfl

theorem invalidations_quiet (data : List Value) : Quiet (PipelineSink.invalidations data) := by
  intro output result hmem
  unfold PipelineSink.invalidations at hmem
  split at hmem
  · obtain ⟨key, -, hkey⟩ := List.mem_filterMap.mp hmem
    split at hkey <;> simp at hkey
  · simp at hmem
  · simp at hmem

theorem pushEffects_quiet (sink : PipelineSink) (kind : PushKind) (data : List Value) :
    Quiet (sink.pushEffects kind data) := by
  intro output result hmem
  rcases List.mem_cons.mp hmem with hpush | hmem
  · contradiction
  · split_ifs at hmem
    · exact invalidations_quiet data output result hmem
    · contradiction

theorem sendResult_reply (hsynced : sink.responseSyncLost = false) (hreply : isReply reply) :
    ∃ pushed, Quiet pushed ∧ sink.sendResult debug (.ok reply) =
      ((sink.answer debug (.ok reply)).1, pushed ++ (sink.answer debug (.ok reply)).2) := by
  unfold PipelineSink.sendResult
  rw [hsynced]
  simp only [Bool.false_eq_true, if_false]
  split
  next kind data hpush =>
    cases hpush
    exact ⟨_, pushEffects_quiet sink kind data, if_pos hreply⟩
  next => exact ⟨[], nofun, rfl⟩

theorem sendResult_push {kind : PushKind} {data : List Value}
    (hsynced : sink.responseSyncLost = false) (hkind : ¬ kind.hasReply) :
    sink.sendResult debug (.ok (.push kind data)) = (sink, sink.pushEffects kind data) := by
  unfold PipelineSink.sendResult
  rw [hsynced]
  exact if_neg hkind

/-! ## A request collects its replies -/

def pipelineResponse (buffer : List Value) (firstErr : Option RedisError) (isTransaction : Bool)
    (replies : List Value) : RedisResult Value :=
  match firstErr <|> if isTransaction then replies.findSome? Exchange.abortError else none with
  | some error => .error error
  | none => .ok (.array (buffer ++ replies))

section Pipeline

variable {buffer buffered : List Value} {firstErr error : Option RedisError} {isTransaction : Bool}

theorem pipelineResponse_accumulate
    (hnext : PipelineSink.accumulate buffer firstErr isTransaction (.ok reply) = (buffered, error))
    (rest : List Value) :
    pipelineResponse buffered error isTransaction rest =
      pipelineResponse buffer firstErr isTransaction (reply :: rest) := by
  unfold PipelineSink.accumulate at hnext
  split at hnext
  next error hreply =>
    cases hreply
    -- in a transaction the error decides, whatever is buffered
    cases isTransaction <;> cases firstErr <;>
      (cases hnext
       simp [pipelineResponse, Exchange.abortError, List.findSome?_cons])
  next item hnot hreply =>
    cases hreply
    cases hnext
    have hskip : Exchange.abortError reply = none := by
      unfold Exchange.abortError
      split
      next error => exact absurd rfl (hnot error)
      next => rfl
    simp [pipelineResponse, hskip]
  next => contradiction

theorem feed_pipeline {output expected current : Nat}
    (hnext : PipelineSink.accumulate buffer firstErr isTransaction (.ok reply) = (buffered, error)) :
    feed debug ⟨output, .pipeline expected current buffer firstErr isTransaction, false, none⟩ reply =
      if current + 1 < expected then
        some (.inl ⟨output, .pipeline expected (current + 1) buffered error isTransaction,
          false, none⟩)
      else some (.inr (output, pipelineResponse buffered error isTransaction [])) := by
  simp only [feed, PipelineSink.answer, hnext, Bool.false_eq_true, if_false]
  split_ifs
  · rfl
  · cases error <;> simp [pipelineResponse]

theorem pipeline_collects {output expected current : Nat} {replies : List Value}
    (hcount : current + replies.length = expected) (hne : replies ≠ []) :
    Collects (feed debug)
      ⟨output, .pipeline expected current buffer firstErr isTransaction, false, none⟩ replies
      (output, pipelineResponse buffer firstErr isTransaction replies) := by
  induction replies generalizing current buffer firstErr with
  | nil => contradiction
  | cons reply rest ih =>
    obtain ⟨buffered, error, hnext⟩ : ∃ buffered error,
        PipelineSink.accumulate buffer firstErr isTransaction (.ok reply) = (buffered, error) :=
      ⟨_, _, rfl⟩
    rw [← pipelineResponse_accumulate hnext]
    simp only [Collects, feed_pipeline hnext]
    cases rest with
    | nil =>
      have hlast : ¬ current + 1 < expected := by
        rw [← hcount]
        exact Nat.lt_irrefl _
      simp [hlast]
    | cons second rest =>
      have hmore : current + 1 < expected := by
        simp only [List.length_cons] at hcount
        omega
      rw [if_pos hmore]
      refine ih ?_ (List.cons_ne_nil _ _)
      simp only [List.length_cons] at hcount ⊢
      omega

end Pipeline

theorem feed_fenced_first {output : Nat} (hreply : isPong reply = false) :
    feed debug ⟨output, .singleCommand, true, none⟩ reply =
      some (.inl ⟨output, .singleCommand, true, some (.ok reply)⟩) := by
  simp only [feed, PipelineSink.answer, if_true, PipelineSink.handleFencedCommand,
    PipelineSink.handleFencedFirstResponse]
  cases reply with
  | simpleString text =>
    have htext : ¬ (text = "PONG" ∨ text = "pong") := by simpa [isPong] using hreply
    simp [if_neg htext]
  | _ => rfl

theorem Exchange.collects {exchange : Exchange} (hfits : exchange.fits) :
    Collects (feed debug) exchange.entry exchange.frames exchange.result := by
  obtain ⟨output, request, replies⟩ := exchange
  obtain ⟨-, hfits⟩ := (Bool.and_eq_true_iff.mp hfits)
  cases request with
  | single =>
    obtain ⟨reply, rfl⟩ := List.length_eq_one_iff.mp (of_decide_eq_true hfits)
    exact ⟨rfl, rfl⟩
  | pipeline responseCount isTransaction =>
    obtain ⟨hpos, hcount⟩ := of_decide_eq_true hfits
    have hne : replies ≠ [] := List.length_pos_iff.mp (hcount ▸ hpos)
    exact pipeline_collects (hcount ▸ Nat.zero_add _) hne
  | fenced =>
    obtain ⟨hlength, hpong⟩ := of_decide_eq_true hfits
    cases replies with
    | nil => exact ⟨rfl, rfl⟩
    | cons reply rest =>
      obtain rfl : rest = [] := by simpa using hlength
      have hfirst : feed debug ⟨output, .singleCommand, true, none⟩ reply =
          some (.inl ⟨output, .singleCommand, true, some (.ok reply)⟩) :=
        feed_fenced_first (by simpa using hpong)
      show Collects (feed debug) ⟨output, .singleCommand, true, none⟩
        [reply, .simpleString "PONG"] (output, reply.extractError)
      simp only [Collects, hfirst]
      exact ⟨trivial, rfl⟩

end Entry

/-! ## Runs -/

namespace Multiplexed

section Runs

variable {debug : RedisResult Value → String} {conn next : Multiplexed}

/-- Who has been sent what, when `answered` have their response and `waiting` do not. -/
structure Accounts (calls : Nat) (answered waiting : List Exchange) (effects : List SinkEffect) :
    Prop where
  outputs : ((answered ++ waiting).map Exchange.output).Nodup
  allocated : ∀ exchange ∈ answered ++ waiting, exchange.output < calls
  unused : ∀ output, calls ≤ output → sends effects output = []
  sent : ∀ exchange ∈ answered, sends effects exchange.output = [exchange.response]
  unsent : ∀ exchange ∈ waiting, sends effects exchange.output = []
  refused : ∀ output ∉ (answered ++ waiting).map Exchange.output,
    ∀ result ∈ sends effects output, ∃ error, result = .error error

section Accounts

variable {calls : Nat} {answered waiting : List Exchange} {effects pushed : List SinkEffect}
  {exchange : Exchange}

theorem sends_append (effects more : List SinkEffect) (output : Nat) :
    sends (effects ++ more) output = sends effects output ++ sends more output :=
  List.filterMap_append

section

variable (haccounts : Accounts calls answered waiting effects)
include haccounts

theorem Accounts.quiet
    (hquiet : Quiet pushed) : Accounts calls answered waiting (effects ++ pushed) := by
  have hsame : sends (effects ++ pushed) = sends effects := by
    funext output
    rw [sends_append, sends_of_quiet hquiet, List.append_nil]
  obtain ⟨houtputs, hallocated, hunused, hanswered, hwaiting, hrefused⟩ := haccounts
  constructor <;> first | assumption | (rw [hsame]; assumption)

theorem Accounts.refuse {refusals : List SinkEffect}
    (hrefusals : ∀ effect ∈ refusals, ∃ error, effect = .send calls (.error error)) :
    Accounts (calls + 1) answered waiting (effects ++ refusals) := by
  have hother : ∀ output ≠ calls, sends (effects ++ refusals) output = sends effects output := by
    intro output hne
    rw [sends_append, List.append_right_eq_self]
    refine List.filterMap_eq_nil_iff.mpr ?_
    intro effect hmem
    obtain ⟨error, rfl⟩ := hrefusals effect hmem
    simp [Ne.symm hne]
  have hne : ∀ exchange ∈ answered ++ waiting, exchange.output ≠ calls := fun exchange hmem =>
    Nat.ne_of_lt (haccounts.allocated exchange hmem)
  constructor
  · exact haccounts.outputs
  · exact fun exchange hmem => Nat.lt_succ_of_lt (haccounts.allocated exchange hmem)
  · intro output hle
    rw [hother output (Nat.ne_of_gt hle)]
    exact haccounts.unused output (Nat.le_of_succ_le hle)
  · intro exchange hmem
    rw [hother _ (hne exchange (List.mem_append_left _ hmem))]
    exact haccounts.sent exchange hmem
  · intro exchange hmem
    rw [hother _ (hne exchange (List.mem_append_right _ hmem))]
    exact haccounts.unsent exchange hmem
  · intro output hnot result hmem
    rw [sends_append, List.mem_append] at hmem
    rcases hmem with hmem | hmem
    · exact haccounts.refused output hnot result hmem
    · obtain ⟨effect, heffect, hsend⟩ := List.mem_filterMap.mp hmem
      obtain ⟨error, rfl⟩ := hrefusals effect heffect
      refine ⟨error, ?_⟩
      simp only [Option.ite_none_right_eq_some] at hsend
      exact (Option.some.inj hsend.2).symm

theorem Accounts.write (houtput : exchange.output = calls) :
    Accounts (calls + 1) answered (waiting ++ [exchange]) effects := by
  have hnew : exchange.output ∉ (answered ++ waiting).map Exchange.output := by
    intro hmem
    obtain ⟨other, hother, heq⟩ := List.mem_map.mp hmem
    exact Nat.lt_irrefl _ (houtput ▸ heq ▸ haccounts.allocated other hother)
  constructor
  · rw [← List.append_assoc, List.map_append, List.map_singleton, ← List.concat_eq_append]
    exact haccounts.outputs.concat hnew
  · rw [← List.append_assoc]
    intro other hmem
    rcases List.mem_append.mp hmem with hmem | hmem
    · exact Nat.lt_succ_of_lt (haccounts.allocated other hmem)
    · rw [List.mem_singleton.mp hmem, houtput]
      exact Nat.lt_succ_self _
  · exact fun output hle => haccounts.unused output (Nat.le_of_succ_le hle)
  · exact haccounts.sent
  · intro other hmem
    rcases List.mem_append.mp hmem with hmem | hmem
    · exact haccounts.unsent other hmem
    · rw [List.mem_singleton.mp hmem, houtput]
      exact haccounts.unused calls (Nat.le_refl _)
  · intro output hnot
    refine haccounts.refused output fun hmem => hnot ?_
    rw [← List.append_assoc, List.map_append]
    exact List.mem_append_left _ hmem

end

theorem Accounts.answer (haccounts : Accounts calls answered (exchange :: waiting) effects) :
    Accounts calls (answered ++ [exchange]) waiting
      (effects ++ [.send exchange.output exchange.response]) := by
  have hother : ∀ output ≠ exchange.output,
      sends (effects ++ [.send exchange.output exchange.response]) output =
        sends effects output := by
    intro output hne
    simp [sends, Ne.symm hne]
  have hdistinct : exchange.output ∉ (answered ++ waiting).map Exchange.output := by
    have hnodup := (List.perm_middle.map Exchange.output).nodup_iff.mp haccounts.outputs
    exact (List.nodup_cons.mp hnodup).1
  have hne : ∀ other ∈ answered ++ waiting, other.output ≠ exchange.output := fun other hmem heq =>
    hdistinct (heq ▸ List.mem_map_of_mem hmem)
  constructor
  · simpa using haccounts.outputs
  · simpa using haccounts.allocated
  · intro output hle
    have hlt := haccounts.allocated exchange (by simp)
    rw [hother output (Nat.ne_of_gt (Nat.lt_of_lt_of_le hlt hle))]
    exact haccounts.unused output hle
  · intro other hmem
    rcases List.mem_append.mp hmem with hmem | hmem
    · rw [hother _ (hne other (List.mem_append_left _ hmem))]
      exact haccounts.sent other hmem
    · obtain rfl := List.mem_singleton.mp hmem
      rw [sends_append, haccounts.unsent other (List.mem_cons_self ..)]
      simp [sends]
  · intro other hmem
    rw [hother _ (hne other (List.mem_append_right _ hmem))]
    exact haccounts.unsent other (List.mem_cons_of_mem _ hmem)
  · intro output hnot
    have hmem : output ∉ (answered ++ exchange :: waiting).map Exchange.output := by
      simpa using hnot
    rw [hother output fun heq => hmem (by simp [heq])]
    exact haccounts.refused output hmem

end Accounts

structure Matches (debug : RedisResult Value → String) (answered waiting : List Exchange)
    (conn : Multiplexed) : Prop where
  synced : conn.sink.responseSyncLost = false
  written : conn.written = answered ++ waiting
  frames : conn.written.flatMap Exchange.frames = conn.replied ++ conn.unread
  replies : ∀ frame ∈ conn.unread, isReply frame
  aligned : Aligned (feed debug) Exchange.entry Exchange.frames Exchange.result
    conn.sink.inFlight conn.unread waiting
  accounts : Accounts conn.calls answered waiting conn.effects

theorem initial_matches (debug : RedisResult Value → String) (hasCache : Bool) :
    Matches debug [] [] (initial hasCache) where
  synced := rfl
  written := rfl
  frames := rfl
  replies := nofun
  aligned := .idle
  accounts := ⟨List.nodup_nil, nofun, fun _ _ => rfl, nofun, nofun, nofun⟩

variable {answered waiting : List Exchange}

theorem frames_reply {exchange : Exchange} (hfits : exchange.fits) :
    ∀ frame ∈ exchange.frames, isReply frame := by
  have hall : ∀ reply ∈ exchange.replies, isReply reply :=
    List.all_eq_true.mp (Bool.and_eq_true_iff.mp hfits).1
  unfold Exchange.frames
  split
  · intro frame hmem
    rcases List.mem_append.mp hmem with hmem | hmem
    · exact hall frame hmem
    · rw [List.mem_singleton.mp hmem]
      rfl
  · exact hall

theorem Matches.startSend (hmatches : Matches debug answered waiting conn) {request : Request}
    {isClosed : Bool} {socket : RedisResult (List Value)}
    (hstep : step debug conn (.startSend request isClosed socket) = some next) :
    ∃ waiting, Matches debug answered waiting next := by
  have houtput : (request.message conn.calls).output = conn.calls := by cases request <;> rfl
  simp only [step, houtput] at hstep
  rcases conn.sink.startSend_cases (request.message conn.calls) isClosed
    (socket.map fun _ => ()) with
    ⟨error, effects, outcome, houtcome, heffects, hsend⟩ | ⟨-, hsocket, hsend⟩
  · rw [hsend] at hstep
    rw [houtput] at heffects
    split at hstep
    next => contradiction
    next =>
      cases hstep
      exact ⟨waiting, hmatches.synced, hmatches.written, hmatches.frames, hmatches.replies,
        hmatches.aligned, hmatches.accounts.refuse heffects⟩
  · rw [hsend] at hstep
    cases socket with
    | error error => contradiction
    | ok replies =>
      simp only [List.append_nil] at hstep
      split at hstep
      case isFalse => contradiction
      next hfits =>
      cases hstep
      refine ⟨waiting ++ [⟨conn.calls, request, replies⟩], ?_⟩
      constructor
      · exact hmatches.synced
      · simp [hmatches.written]
      · simp [hmatches.frames]
      · intro frame hmem
        rcases List.mem_append.mp hmem with hmem | hmem
        · exact hmatches.replies frame hmem
        · exact frames_reply hfits frame hmem
      · exact hmatches.aligned.push (Exchange.collects hfits)
      · exact hmatches.accounts.write rfl

theorem Matches.read (hmatches : Matches debug answered waiting conn)
    (hstep : step debug conn .read = some next) :
    ∃ answered waiting, Matches debug answered waiting next := by
  simp only [step] at hstep
  split at hstep
  next => contradiction
  next frame unread hunread =>
    cases hstep
    have haligned := hmatches.aligned
    have hreplies := hmatches.replies
    rw [hunread] at haligned hreplies
    obtain ⟨hreply, hrest⟩ := List.forall_mem_cons.mp hreplies
    have hframes : conn.written.flatMap Exchange.frames = (conn.replied ++ [frame]) ++ unread := by
      rw [hmatches.frames, hunread, List.append_assoc, List.singleton_append]
    obtain ⟨pushed, hquiet, hsend⟩ := sendResult_reply hmatches.synced hreply
    rw [hsend]
    have haccounts := hmatches.accounts.quiet hquiet
    obtain ⟨entry, queue, hqueue, ⟨entry', hfeed, hnext⟩ | ⟨exchange, later, rfl, hfeed, hnext⟩⟩ :=
      haligned.read
    · rw [answer_of_feed_inl hqueue hfeed, List.append_nil]
      exact ⟨answered, waiting, hmatches.synced, hmatches.written, hframes, hrest, hnext, haccounts⟩
    · rw [answer_of_feed_inr hqueue hfeed, ← List.append_assoc]
      refine ⟨answered ++ [exchange], later, hmatches.synced, ?_, hframes, hrest, hnext,
        haccounts.answer⟩
      rw [hmatches.written, List.append_assoc, List.singleton_append]

theorem push_eq {kind : PushKind} {data : List Value} (hsynced : conn.sink.responseSyncLost = false)
    (hstep : step debug conn (.push kind data) = some next) :
    next = { conn with effects := conn.effects ++ conn.sink.pushEffects kind data } := by
  simp only [step] at hstep
  split at hstep
  next => contradiction
  next hkind =>
    rw [sendResult_push hsynced hkind] at hstep
    exact (Option.some.inj hstep).symm

theorem Matches.step {action : SinkAction} (hmatches : Matches debug answered waiting conn)
    (hstep : Multiplexed.step debug conn action = some next) :
    ∃ answered waiting, Matches debug answered waiting next := by
  cases action with
  | startSend request isClosed socket => exact ⟨answered, hmatches.startSend hstep⟩
  | sinkFailed error =>
    cases hstep
    exact ⟨answered, waiting, hmatches.synced, hmatches.written, hmatches.frames,
      hmatches.replies, hmatches.aligned, hmatches.accounts⟩
  | read => exact hmatches.read hstep
  | push kind data =>
    rw [push_eq hmatches.synced hstep]
    exact ⟨answered, waiting, hmatches.synced, hmatches.written, hmatches.frames,
      hmatches.replies, hmatches.aligned, hmatches.accounts.quiet (pushEffects_quiet _ _ _)⟩

theorem run_exists_matches {hasCache : Bool} {actions : List SinkAction}
    (hrun : run (Multiplexed.step debug) (initial hasCache) actions = some conn) :
    ∃ answered waiting, Matches debug answered waiting conn :=
  run_invariant_all (fun conn => ∃ answered waiting, Matches debug answered waiting conn)
    (fun _ _ _ ⟨_, _, hmatches⟩ hstep => hmatches.step hstep)
    ⟨[], [], initial_matches debug hasCache⟩ hrun

/--
In every run, the replies read so far and the unread ones are those to the written
requests, in order.  A caller whose request has been written is sent its response,
once, when the replies to it and to all requests before it have been read, and nothing
else; other callers are sent nothing but errors.  A push that is no confirmation
changes neither the requests in flight nor what callers have been sent.
-/
theorem run_responses_match (debug : RedisResult Value → String) (hasCache : Bool)
    {actions : List SinkAction} {conn : Multiplexed}
    (hrun : run (Multiplexed.step debug) (initial hasCache) actions = some conn) :
    conn.written.flatMap Exchange.frames = conn.replied ++ conn.unread ∧
    (∀ index (hindex : index < conn.written.length),
      conn.sentTo conn.written[index].output =
        if ((conn.written.take (index + 1)).flatMap Exchange.frames).length ≤ conn.replied.length
        then [conn.written[index].response] else []) ∧
    (∀ output ∉ conn.written.map Exchange.output, ∀ result ∈ conn.sentTo output,
      ∃ error, result = .error error) ∧
    ∀ kind data next, Multiplexed.step debug conn (.push kind data) = some next →
      next.sink.inFlight = conn.sink.inFlight ∧ ∀ output, next.sentTo output = conn.sentTo output := by
  obtain ⟨answered, waiting, hmatches⟩ := run_exists_matches hrun
  refine ⟨hmatches.frames, ?_, ?_, ?_⟩
  · intro index hindex
    have hget := List.getElem_of_eq hmatches.written hindex
    have hanswered := hmatches.aligned.answered_iff (hmatches.written ▸ hmatches.frames)
      (hmatches.written ▸ hindex)
    rw [← hmatches.written] at hanswered
    split_ifs with hread
    · have hlt := hanswered.mpr hread
      rw [hget, List.getElem_append_left hlt]
      exact hmatches.accounts.sent _ (List.getElem_mem hlt)
    · have hge : answered.length ≤ index := Nat.le_of_not_lt fun hlt => hread (hanswered.mp hlt)
      rw [hget, List.getElem_append_right hge]
      exact hmatches.accounts.unsent _ (List.getElem_mem _)
  · rw [hmatches.written]
    exact hmatches.accounts.refused
  · intro kind data next hstep
    rw [push_eq hmatches.synced hstep]
    refine ⟨rfl, fun output => ?_⟩
    rw [sentTo, sends_append, sends_of_quiet (pushEffects_quiet _ _ _), List.append_nil, sentTo]

end Runs

def threeCallers : List SinkAction :=
  [.startSend (.pipeline 2 false) false (.ok [.int 1, .okay]), .startSend .fenced false (.ok []),
    .read, .push .sUnsubscribe [], .startSend .single false (.ok [.int 7]), .read, .read,
    .push .invalidate [.nil], .read]

theorem three_callers_matched :
    ∃ conn, run (step fun _ => "") (initial true) threeCallers = some conn ∧
      conn.sentTo 0 = [.ok (.array [.int 1, .okay])] ∧ conn.sentTo 1 = [.ok .nil] ∧
      conn.sentTo 2 = [.ok (.int 7)] := by
  let conn := (run (step fun _ => "") (initial true) threeCallers).getD (initial true)
  have hrun : run (step fun _ => "") (initial true) threeCallers = some conn := rfl
  obtain ⟨-, hsent, -⟩ := run_responses_match _ true hrun
  exact ⟨conn, hrun, hsent 0 (by decide), hsent 1 (by decide), hsent 2 (by decide)⟩

end Multiplexed

end ValkeyGlide.Connection
