import ValkeyGlide.Foundation.Run
import ValkeyGlide.Protocol.Packing

/-!
# The vectored sink

The writing half of a multiplexed connection (`VectoredSink` in
`multiplexed_connection.rs`).  Packed commands are queued as segments, and the writer is
offered up to 64 of them at a time; it may accept any part of what it is offered.

A poll is given the answers that the writer will make while it lasts, and ends as pending
when they run out.  The main result is that what the writer has accepted is always the
first part of what was sent.
-/

namespace ValkeyGlide.Connection

open Foundation Protocol

inductive SendBuf where
  | contiguous (buf : Bytes)
  | segmented (segments : SegmentedBytes)

def SendBuf.bytes : SendBuf → Bytes
  | contiguous buf => buf
  | segmented segments => segments.toContiguous

structure VectoredSink where
  queue : List Bytes
  queuedBytes : Nat
  deriving DecidableEq, Repr

inductive WriteAnswer where
  | pending
  | accept (count : Nat)
  | failed (error : IoErrorKind)
  deriving DecidableEq, Repr

inductive PollResult where
  | pending
  | ready (result : RedisResult Unit)

def vectoredSinkHighWatermark : Nat := 512 * 1024

def maxWriteSlices : Nat := 64

namespace VectoredSink

def new : VectoredSink := ⟨[], 0⟩

def pushSegment (sink : VectoredSink) (segment : Bytes) : VectoredSink :=
  if segment = [] then sink
  else ⟨sink.queue ++ [segment], sink.queuedBytes + segment.length⟩

def startSend (sink : VectoredSink) : SendBuf → VectoredSink
  | .contiguous buf => sink.pushSegment buf
  | .segmented segments => segments.segments.foldl pushSegment sink

def offered (sink : VectoredSink) : Bytes := (sink.queue.take maxWriteSlices).flatten

def advance : List Bytes → Nat → Option (List Bytes)
  | queue, 0 => some queue
  | [], _ + 1 => none
  | front :: rest, written + 1 =>
    if front.length ≤ written + 1 then advance rest (written + 1 - front.length)
    else some (front.drop (written + 1) :: rest)

def zeroError : RedisError := .ioError .other

/--
The loop of a flush, with the bytes accepted so far.  `flush` is the answer of the writer
when its own buffer is to be flushed; `none` stands for an overflow of the subtraction or
for a failed assertion.
-/
def pollFlushQueue (flush : PollResult) (sink : VectoredSink) (accepted : Bytes) :
    List WriteAnswer → Option (VectoredSink × Bytes × PollResult)
  | [] => some (sink, accepted, if sink.queue = [] then flush else .pending)
  | answer :: rest =>
    if sink.queue = [] then some (sink, accepted, flush)
    else
      match answer with
      | .pending => some (sink, accepted, .pending)
      | .failed error => some (sink, accepted, .ready (.error (.ioError error)))
      | .accept count =>
        let taken := sink.offered.take count
        if taken.length = 0 then some (sink, accepted, .ready (.error zeroError))
        else if sink.queuedBytes < taken.length then none
        else
          match advance sink.queue taken.length with
          | none => none
          | some queue =>
            pollFlushQueue flush ⟨queue, sink.queuedBytes - taken.length⟩
              (accepted ++ taken) rest

def pollReady (flush : PollResult) (sink : VectoredSink) (accepted : Bytes)
    (answers : List WriteAnswer) : Option (VectoredSink × Bytes × PollResult) :=
  if sink.queuedBytes ≤ vectoredSinkHighWatermark then some (sink, accepted, .ready (.ok ()))
  else sink.pollFlushQueue flush accepted answers

def pollClose (flush shutdown : PollResult) (sink : VectoredSink) (accepted : Bytes)
    (answers : List WriteAnswer) : Option (VectoredSink × Bytes × PollResult) :=
  match sink.pollFlushQueue flush accepted answers with
  | some (sink, accepted, .ready (.ok ())) => some (sink, accepted, shutdown)
  | polled => polled

end VectoredSink

/-! ## The system -/

/-- The sink and its writer, what was sent to the sink, and how the last flush ended. -/
structure Writing where
  sink : VectoredSink
  accepted : Bytes
  sent : Bytes
  flushed : Option PollResult

inductive WriteAction where
  | startSend (item : SendBuf)
  | pollReady (answers : List WriteAnswer) (flush : PollResult)
  | pollFlush (answers : List WriteAnswer) (flush : PollResult)
  | pollClose (answers : List WriteAnswer) (flush shutdown : PollResult)

def WriteAction.sent : WriteAction → Bytes
  | startSend item => item.bytes
  | _ => []

namespace Writing

def initial : Writing := ⟨.new, [], [], none⟩

/-- `none` when the sink panics. -/
def step (writing : Writing) : WriteAction → Option Writing
  | .startSend item => some { writing with
      sink := writing.sink.startSend item
      sent := writing.sent ++ item.bytes
      flushed := none }
  | .pollReady answers flush => do
      let (sink, accepted, result) ← writing.sink.pollReady flush writing.accepted answers
      return { writing with
        sink := sink
        accepted := accepted
        flushed :=
          if writing.sink.queuedBytes ≤ vectoredSinkHighWatermark then none else some result }
  | .pollFlush answers flush => do
      let (sink, accepted, result) ← writing.sink.pollFlushQueue flush writing.accepted answers
      return { writing with sink := sink, accepted := accepted, flushed := some result }
  | .pollClose answers flush shutdown => do
      let (sink, accepted, result) ←
        writing.sink.pollClose flush shutdown writing.accepted answers
      return { writing with sink := sink, accepted := accepted, flushed := some result }

end Writing

/-! ## Nothing is lost -/

/-- What was sent is what the writer has accepted, followed by what is queued. -/
structure Queues (sink : VectoredSink) (accepted sent : Bytes) : Prop where
  split : accepted ++ sink.queue.flatten = sent
  counted : sink.queuedBytes = sink.queue.flatten.length
  filled : ∀ segment ∈ sink.queue, segment ≠ []

section Queue

open VectoredSink (advance)

variable {sink : VectoredSink} {accepted sent : Bytes}

theorem Queues.pushSegment (hqueues : Queues sink accepted sent) (segment : Bytes) :
    Queues (sink.pushSegment segment) accepted (sent ++ segment) := by
  unfold VectoredSink.pushSegment
  split_ifs with hempty
  · rwa [hempty, List.append_nil]
  · refine ⟨?_, ?_, ?_⟩
    · simp [← hqueues.split]
    · simp [hqueues.counted]
    · intro other hother
      rcases List.mem_append.mp hother with hother | hother
      · exact hqueues.filled other hother
      · rwa [List.mem_singleton.mp hother]

theorem Queues.pushSegments (hqueues : Queues sink accepted sent) (segments : List Bytes) :
    Queues (segments.foldl VectoredSink.pushSegment sink) accepted (sent ++ segments.flatten) := by
  induction segments generalizing sink sent with
  | nil => rwa [List.flatten_nil, List.append_nil]
  | cons segment rest ih =>
    rw [List.foldl_cons, List.flatten_cons, ← List.append_assoc]
    exact ih (hqueues.pushSegment segment)

theorem Queues.startSend (hqueues : Queues sink accepted sent) (item : SendBuf) :
    Queues (sink.startSend item) accepted (sent ++ item.bytes) := by
  cases item with
  | contiguous buf => exact hqueues.pushSegment buf
  | segmented segments => exact hqueues.pushSegments segments.segments

theorem advance_eq {queue : List Bytes} {written : Nat} (hle : written ≤ queue.flatten.length) :
    ∃ rest, advance queue written = some rest ∧ rest.flatten = queue.flatten.drop written ∧
      ((∀ segment ∈ queue, segment ≠ []) → ∀ segment ∈ rest, segment ≠ []) := by
  induction queue generalizing written with
  | nil =>
    obtain rfl : written = 0 := Nat.le_zero.mp hle
    exact ⟨[], rfl, rfl, id⟩
  | cons front queue ih =>
    cases written with
    | zero => exact ⟨front :: queue, rfl, rfl, id⟩
    | succ written =>
      rw [List.flatten_cons, List.length_append] at hle
      rw [advance]
      split_ifs with hfront
      · obtain ⟨rest, hrest, hflatten, hfilled⟩ :=
          ih (show written + 1 - front.length ≤ queue.flatten.length by omega)
        refine ⟨rest, hrest, ?_, fun hall => hfilled (List.forall_mem_cons.mp hall).2⟩
        rw [hflatten, List.flatten_cons, List.drop_append, List.drop_eq_nil_of_le hfront,
          List.nil_append]
      · refine ⟨_, rfl, ?_, fun hall => ?_⟩
        · rw [List.flatten_cons, List.flatten_cons, List.drop_append_of_le_length (by omega)]
        · refine List.forall_mem_cons.mpr ⟨?_, (List.forall_mem_cons.mp hall).2⟩
          rw [ne_eq, List.drop_eq_nil_iff]
          exact hfront

theorem taken_append (queue : List Bytes) (count : Nat) :
    let taken := ((queue.take maxWriteSlices).flatten).take count
    taken ++ queue.flatten.drop taken.length = queue.flatten := by
  intro taken
  have hoffered : taken <+: (queue.take maxWriteSlices).flatten := List.take_prefix _ _
  have hpart : taken <+: queue.flatten := by
    refine hoffered.trans ?_
    conv_rhs => rw [← List.take_append_drop maxWriteSlices queue]
    rw [List.flatten_append]
    exact List.prefix_append _ _
  obtain ⟨rest, hrest⟩ := hpart
  rw [← hrest, List.drop_left]

section

variable (hqueues : Queues sink accepted sent)
include hqueues

theorem Queues.accept (count : Nat) :
    let taken := sink.offered.take count
    taken.length ≤ sink.queuedBytes ∧ ∃ queue, advance sink.queue taken.length = some queue ∧
      Queues ⟨queue, sink.queuedBytes - taken.length⟩ (accepted ++ taken) sent := by
  intro taken
  have hsplit : taken ++ sink.queue.flatten.drop taken.length = sink.queue.flatten :=
    taken_append sink.queue count
  have hlength : taken.length ≤ sink.queue.flatten.length := by
    rw [← hsplit, List.length_append]
    omega
  obtain ⟨queue, hadvance, hflatten, hfilled⟩ := advance_eq hlength
  refine ⟨hqueues.counted ▸ hlength, queue, hadvance, ?_, ?_, hfilled hqueues.filled⟩
  · rw [hflatten, List.append_assoc, hsplit, hqueues.split]
  · rw [hflatten, List.length_drop, hqueues.counted]

theorem Queues.accepted_of_empty (hempty : sink.queue = []) :
    accepted = sent := by
  rw [← hqueues.split, hempty, List.flatten_nil, List.append_nil]

theorem Queues.pollFlushQueue (flush : PollResult) (answers : List WriteAnswer) :
    ∃ sink' accepted' result,
      sink.pollFlushQueue flush accepted answers = some (sink', accepted', result) ∧
      Queues sink' accepted' sent ∧ (result = .ready (.ok ()) → accepted' = sent) := by
  induction answers generalizing sink accepted with
  | nil =>
    refine ⟨sink, accepted, _, rfl, hqueues, ?_⟩
    split_ifs with hqueue
    · exact fun _ => hqueues.accepted_of_empty hqueue
    · intro hready
      cases hready
  | cons answer rest ih =>
    rw [VectoredSink.pollFlushQueue.eq_def]
    dsimp only
    split_ifs with hqueue
    · exact ⟨sink, accepted, flush, rfl, hqueues, fun _ => hqueues.accepted_of_empty hqueue⟩
    · cases answer with
      | pending =>
        refine ⟨sink, accepted, .pending, rfl, hqueues, fun hready => ?_⟩
        cases hready
      | failed error =>
        refine ⟨sink, accepted, _, rfl, hqueues, fun hready => ?_⟩
        cases hready
      | accept count =>
        dsimp only
        split_ifs with hzero hunderflow
        · refine ⟨sink, accepted, _, rfl, hqueues, fun hready => ?_⟩
          cases hready
        · exact absurd (hqueues.accept count).1 (Nat.not_le.mpr hunderflow)
        · obtain ⟨-, queue, hadvance, hnext⟩ := hqueues.accept count
          rw [hadvance]
          exact ih hnext

end

end Queue

/-! ## Whole runs -/

namespace Writing

structure Sound (writing : Writing) : Prop where
  queues : Queues writing.sink writing.accepted writing.sent
  flushed : writing.flushed = some (.ready (.ok ())) → writing.accepted = writing.sent

theorem initial_sound : initial.Sound :=
  ⟨⟨rfl, rfl, fun _ hmem => absurd hmem List.not_mem_nil⟩, fun hflushed => by cases hflushed⟩

variable {writing : Writing}

theorem sound_polled {sink : VectoredSink} {accepted : Bytes} {result : PollResult}
    (hqueues : Queues sink accepted writing.sent)
    (hall : result = .ready (.ok ()) → accepted = writing.sent) :
    Sound { writing with sink := sink, accepted := accepted, flushed := some result } :=
  ⟨hqueues, fun hflushed => hall (Option.some.inj hflushed)⟩

theorem Sound.step (hsound : writing.Sound) (action : WriteAction) :
    ∃ next, writing.step action = some next ∧ next.Sound ∧
      next.sent = writing.sent ++ action.sent := by
  cases action with
  | startSend item =>
    refine ⟨_, rfl, ⟨hsound.queues.startSend item, fun hflushed => ?_⟩, rfl⟩
    cases hflushed
  | pollReady answers flush =>
    simp only [Writing.step, VectoredSink.pollReady]
    split_ifs with hbelow
    · refine ⟨_, rfl, ⟨hsound.queues, fun hflushed => ?_⟩, (List.append_nil _).symm⟩
      cases hflushed
    · obtain ⟨sink, accepted, result, hpoll, hqueues, hall⟩ :=
        hsound.queues.pollFlushQueue flush answers
      rw [hpoll]
      exact ⟨_, rfl, sound_polled hqueues hall, (List.append_nil _).symm⟩
  | pollFlush answers flush =>
    obtain ⟨sink, accepted, result, hpoll, hqueues, hall⟩ :=
      hsound.queues.pollFlushQueue flush answers
    simp only [Writing.step, hpoll]
    exact ⟨_, rfl, sound_polled hqueues hall, (List.append_nil _).symm⟩
  | pollClose answers flush shutdown =>
    obtain ⟨sink, accepted, result, hpoll, hqueues, hall⟩ :=
      hsound.queues.pollFlushQueue flush answers
    simp only [Writing.step, VectoredSink.pollClose, hpoll]
    split
    next hready =>
      obtain ⟨rfl, rfl, rfl⟩ := by simpa using hready
      exact ⟨_, rfl, sound_polled hqueues fun _ => hall rfl, (List.append_nil _).symm⟩
    next => exact ⟨_, rfl, sound_polled hqueues hall, (List.append_nil _).symm⟩

theorem Sound.run (hsound : writing.Sound) (actions : List WriteAction) :
    ∃ final, Foundation.run Writing.step writing actions = some final ∧ final.Sound ∧
      final.sent = writing.sent ++ actions.flatMap WriteAction.sent := by
  induction actions generalizing writing with
  | nil => exact ⟨writing, rfl, hsound, (List.append_nil _).symm⟩
  | cons action rest ih =>
    obtain ⟨next, hstep, hnext, hsent⟩ := hsound.step action
    obtain ⟨final, hrun, hfinal, hall⟩ := ih hnext
    refine ⟨final, ?_, hfinal, ?_⟩
    · rw [run_cons, hstep, Option.bind_some, hrun]
    · rw [hall, hsent, List.flatMap_cons, List.append_assoc]

/--
Whatever is sent and however the writer answers, nothing panics, the bytes accepted are
the first ones of those sent, the others are counted, and a completed flush leaves none.
-/
theorem run_accepts_in_order (actions : List WriteAction) :
    ∃ final, Foundation.run Writing.step initial actions = some final ∧
      final.accepted <+: actions.flatMap WriteAction.sent ∧
      final.sink.queuedBytes + final.accepted.length =
        (actions.flatMap WriteAction.sent).length ∧
      (final.flushed = some (.ready (.ok ())) →
        final.accepted = actions.flatMap WriteAction.sent) := by
  obtain ⟨final, hrun, hsound, hsent⟩ := initial_sound.run actions
  have hall : final.sent = actions.flatMap WriteAction.sent := hsent
  refine ⟨final, hrun, ?_, ?_, fun hflushed => ?_⟩
  · rw [← hall, ← hsound.queues.split]
    exact List.prefix_append _ _
  · rw [← hall, ← hsound.queues.split, List.length_append, hsound.queues.counted, Nat.add_comm]
  · rw [hsound.flushed hflushed, hall]

end Writing

end ValkeyGlide.Connection
