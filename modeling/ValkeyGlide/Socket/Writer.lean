import ValkeyGlide.Foundation.Log
import ValkeyGlide.Foundation.Table
import ValkeyGlide.Socket.RotatingBuffer

/-!
# Writing responses to the socket

The tasks of one client answer through one writer (`write_to_writer` and `write_to_output` in
`socket_listener.rs`).  All of them run on one thread, so that a task is interrupted only
where it awaits.  A task appends its response to the shared output and then tries to take the
lock; the one that has the lock writes what has been accumulated until nothing is left, and
every other task returns at once.  The main result is that nothing is lost or written twice
by that, however the tasks are interleaved and the writes are cut.
-/

namespace ValkeyGlide.Socket

open Foundation Protocol

variable {Response : Type}

structure Writer where
  socket : Bytes
  locked : Bool
  accumulatedOutputs : Bytes
  deriving DecidableEq, Repr

inductive Awaiting where
  | writable (output : Bytes) (totalWrittenBytes : Nat)
  | closing (reason : ClosingReason)
  deriving DecidableEq, Repr

/--
What the socket does: waiting for it fails, it takes some bytes, it takes none because it
would block or is interrupted, or writing to it fails.
-/
inductive SocketWrite where
  | unwritable (error : IoErrorKind)
  | wrote (writtenBytes : Nat)
  | again
  | failed (error : IoErrorKind)
  deriving DecidableEq, Repr

namespace Writer

def new : Writer := ⟨[], false, []⟩

def writeRound (writer : Writer) (output : Bytes) : Writer × Option Awaiting :=
  if output = [] then ({ writer with locked := false }, none)
  else (writer, some (.writable output 0))

def writeRest (writer : Writer) (output : Bytes) (totalWrittenBytes : Nat) :
    Writer × Option Awaiting :=
  if totalWrittenBytes < output.length then (writer, some (.writable output totalWrittenBytes))
  else { writer with accumulatedOutputs := [] }.writeRound writer.accumulatedOutputs

def writeToOutput (writer : Writer) : Writer × Option Awaiting :=
  if writer.locked then (writer, none)
  else { writer with locked := true, accumulatedOutputs := [] }.writeRound
    writer.accumulatedOutputs

def tryWrite (writer : Writer) (output : Bytes) (totalWrittenBytes : Nat) :
    SocketWrite → Option (Writer × Option Awaiting)
  | .unwritable error => some (writer, some (.closing (.unhandledError (.ioError error))))
  | .wrote writtenBytes =>
    if totalWrittenBytes + writtenBytes ≤ output.length then
      let taken := (output.drop totalWrittenBytes).take writtenBytes
      some ({ writer with socket := writer.socket ++ taken }.writeRest output
        (totalWrittenBytes + writtenBytes))
    else none
  | .again => some (writer.writeRest output totalWrittenBytes)
  | .failed error => some (writer, some (.closing (.unhandledError (.ioError error))))

/--
A response that cannot be encoded takes the accumulated outputs with it: they were taken out
of the cell and are not put back.
-/
def writeToWriter (encode : Response → Except String Bytes) (writer : Writer)
    (response : Response) : Writer × Except String (Option Awaiting) :=
  match encode response with
  | .ok encoded =>
    let (writer, awaiting) := writeToOutput
      { writer with accumulatedOutputs := writer.accumulatedOutputs ++ encoded }
    (writer, .ok awaiting)
  | .error error =>
    ({ writer with accumulatedOutputs := [] }, .error ("failed to encode response: " ++ error))

end Writer

/-! ## Tasks -/

abbrev TaskId := Nat

/-- The writer and the tasks that wait in a call of `write_to_writer`. -/
structure Writing where
  writer : Writer
  tasks : AList fun _ : TaskId => Awaiting

inductive WriteAction (Response : Type) where
  | call (task : TaskId) (response : Response)
  | resume (task : TaskId) (event : SocketWrite)
  | closingSent (task : TaskId)
  deriving DecidableEq, Repr

def WriteAction.response? : WriteAction Response → Option Response
  | call _ response => some response
  | _ => none

def WriteAction.Succeeds (encode : Response → Except String Bytes) :
    WriteAction Response → Prop
  | call _ response => ∃ encoded, encode response = .ok encoded
  | resume _ (.wrote _) => True
  | resume _ .again => True
  | _ => False

def responses (actions : List (WriteAction Response)) : List Response :=
  actions.filterMap WriteAction.response?

namespace Writing

def new : Writing := ⟨.new, ∅⟩

def suspend (writing : Writing) (task : TaskId) : Writer × Option Awaiting → Writing
  | (writer, none) => ⟨writer, writing.tasks.erase task⟩
  | (writer, some awaiting) => ⟨writer, writing.tasks.insert task awaiting⟩

def step (encode : Response → Except String Bytes) (writing : Writing) :
    WriteAction Response → Option Writing
  | .call task response =>
    match writing.tasks.lookup task with
    | some _ => none
    | none =>
      match writing.writer.writeToWriter encode response with
      | (writer, .ok awaiting) => some (writing.suspend task (writer, awaiting))
      | (writer, .error _) => some (writing.suspend task (writer, none))
  | .resume task event =>
    match writing.tasks.lookup task with
    | some (.writable output totalWrittenBytes) =>
      (writing.writer.tryWrite output totalWrittenBytes event).map (writing.suspend task)
    | _ => none
  | .closingSent task =>
    match writing.tasks.lookup task with
    | some (.closing _) =>
      some (writing.suspend task ({ writing.writer with locked := false }, none))
    | _ => none

end Writing

/-! ## One task drains -/

def onlyTask (task : TaskId) (awaiting : Awaiting) : AList fun _ : TaskId => Awaiting :=
  AList.singleton task awaiting

/--
Either no task waits and all of `written` is on the socket, or one task has the lock, and
what it still has to write comes before what has been accumulated meanwhile.
-/
inductive Drains (written : Bytes) : Writing → Prop
  | idle : Drains written ⟨⟨written, false, []⟩, ∅⟩
  | draining (task : TaskId) {socket output accumulated : Bytes} {totalWrittenBytes : Nat}
      (hless : totalWrittenBytes < output.length)
      (hbytes : socket ++ (output.drop totalWrittenBytes ++ accumulated) = written) :
      Drains written ⟨⟨socket, true, accumulated⟩,
        onlyTask task (.writable output totalWrittenBytes)⟩

section Draining

variable {written output : Bytes} {writer : Writer} {writing : Writing} {task : TaskId}
  {tasks : AList fun _ : TaskId => Awaiting} {totalWrittenBytes : Nat}

def NoOther (task : TaskId) (tasks : AList fun _ : TaskId => Awaiting) : Prop :=
  tasks = ∅ ∨ ∃ awaiting, tasks = onlyTask task awaiting

theorem NoOther.erase (htasks : NoOther task tasks) : tasks.erase task = ∅ := by
  rcases htasks with rfl | ⟨awaiting, rfl⟩
  · rfl
  · apply AList.ext
    exact List.kerase_cons_eq rfl

theorem NoOther.insert (htasks : NoOther task tasks) (awaiting : Awaiting) :
    tasks.insert task awaiting = onlyTask task awaiting := by
  rcases htasks with rfl | ⟨_, rfl⟩
  · rfl
  · exact AList.insert_singleton_eq

theorem drains_writeRound (htasks : NoOther task tasks) (hlocked : writer.locked = true)
    (haccumulated : writer.accumulatedOutputs = []) (hbytes : writer.socket ++ output = written) :
    Drains written (Writing.suspend ⟨writer, tasks⟩ task (writer.writeRound output)) := by
  obtain ⟨socket, locked, accumulated⟩ := writer
  obtain rfl : locked = true := hlocked
  obtain rfl : accumulated = [] := haccumulated
  unfold Writer.writeRound
  split_ifs with hempty
  · obtain rfl : socket = written := by rw [← hbytes, hempty, List.append_nil]
    simp only [Writing.suspend, htasks.erase]
    exact .idle
  · simp only [Writing.suspend, htasks.insert]
    apply Drains.draining task (List.length_pos_of_ne_nil hempty)
    rw [List.drop_zero, List.append_nil]
    exact hbytes

theorem drains_writeRest (htasks : NoOther task tasks) (hlocked : writer.locked = true)
    (hbytes : writer.socket ++ (output.drop totalWrittenBytes ++ writer.accumulatedOutputs) =
      written) :
    Drains written (Writing.suspend ⟨writer, tasks⟩ task
      (writer.writeRest output totalWrittenBytes)) := by
  unfold Writer.writeRest
  split_ifs with hless
  · obtain ⟨socket, locked, accumulated⟩ := writer
    obtain rfl : locked = true := hlocked
    simp only [Writing.suspend, htasks.insert]
    exact .draining task hless hbytes
  · rw [List.drop_eq_nil_of_le (Nat.le_of_not_lt hless), List.nil_append] at hbytes
    have hkept : ({ writer with accumulatedOutputs := [] } : Writer).locked = true := hlocked
    exact drains_writeRound htasks hkept rfl hbytes

theorem Drains.writeToOutput (hdrains : Drains written writing) (encoded : Bytes)
    (hfree : writing.tasks.lookup task = none) :
    Drains (written ++ encoded) (writing.suspend task
      (Writer.writeToOutput { writing.writer with
        accumulatedOutputs := writing.writer.accumulatedOutputs ++ encoded })) := by
  cases hdrains with
  | idle => exact drains_writeRound (.inl rfl) rfl rfl rfl
  | draining drainer hless hbytes =>
    simp only [Writer.writeToOutput, if_true, Writing.suspend,
      Table.erase_of_lookup_eq_none hfree]
    apply Drains.draining drainer hless
    rw [← hbytes]
    simp

theorem lookup_onlyTask {drainer : TaskId} {awaiting other : Awaiting}
    (hlookup : (onlyTask drainer awaiting).lookup task = some other) :
    task = drainer ∧ awaiting = other := by
  have hmem : (⟨task, other⟩ : (_ : TaskId) × Awaiting) ∈ [⟨drainer, awaiting⟩] :=
    AList.mem_lookup_iff.mp hlookup
  cases List.mem_singleton.mp hmem
  exact ⟨rfl, rfl⟩

theorem Drains.tryWrite {event : SocketWrite} {result : Writer × Option Awaiting}
    {encode : Response → Except String Bytes} (hdrains : Drains written writing)
    (hwaits : writing.tasks.lookup task = some (.writable output totalWrittenBytes))
    (hevent : (WriteAction.resume task event).Succeeds encode)
    (htry : writing.writer.tryWrite output totalWrittenBytes event = some result) :
    Drains written (writing.suspend task result) := by
  cases hdrains with
  | idle => cases hwaits
  | draining drainer hless hbytes =>
    obtain ⟨rfl, hawaiting⟩ := lookup_onlyTask hwaits
    cases hawaiting
    cases event with
    | unwritable error => cases hevent
    | failed error => cases hevent
    | again =>
      cases htry
      exact drains_writeRest (.inr ⟨_, rfl⟩) rfl hbytes
    | wrote writtenBytes =>
      simp only [Writer.tryWrite] at htry
      split_ifs at htry with hfits
      cases htry
      apply drains_writeRest (.inr ⟨_, rfl⟩) rfl
      rw [← hbytes, ← List.drop_drop, List.append_assoc]
      congr 1
      rw [← List.append_assoc, List.take_append_drop]

end Draining

/-! ## Runs -/

section Runs

variable {encode : Response → Except String Bytes} {writing : Writing}
  {actions : List (WriteAction Response)} {output : Bytes} {task : TaskId} {totalWrittenBytes : Nat}

def encodedOf (encode : Response → Except String Bytes) (response : Response) : Bytes :=
  match encode response with
  | .ok encoded => encoded
  | .error _ => []

theorem drains_step {log : List Response} {next : Writing} {action : WriteAction Response}
    (hdrains : Drains (log.flatMap (encodedOf encode)) writing) (hsucceeds : action.Succeeds encode)
    (hstep : writing.step encode action = some next) :
    Drains ((log ++ action.response?.toList).flatMap (encodedOf encode)) next := by
  cases action with
  | call task response =>
    obtain ⟨encoded, hencoded⟩ := hsucceeds
    have hresponse : (log ++ [response]).flatMap (encodedOf encode) =
        log.flatMap (encodedOf encode) ++ encoded := by
      simp [encodedOf, hencoded]
    simp only [Writing.step] at hstep
    split at hstep
    · cases hstep
    · next hfree =>
        simp only [Writer.writeToWriter, hencoded] at hstep
        cases hstep
        rw [WriteAction.response?, Option.toList_some, hresponse]
        exact hdrains.writeToOutput encoded hfree
  | resume task event =>
    have hnone : (.resume task event : WriteAction Response).response? = none := rfl
    rw [hnone, Option.toList_none, List.append_nil]
    simp only [Writing.step] at hstep
    split at hstep
    · next output totalWrittenBytes hwaits =>
        obtain ⟨result, htry, rfl⟩ := Option.map_eq_some_iff.mp hstep
        exact hdrains.tryWrite hwaits hsucceeds htry
    · cases hstep
  | closingSent task => cases hsucceeds

theorem drains_of_run {final : Writing} (hsucceeds : ∀ action ∈ actions, action.Succeeds encode)
    (hrun : run (Writing.step encode) .new actions = some final) :
    Drains ((responses actions).flatMap (encodedOf encode)) final := by
  have hresponses : responses actions = logged (Writing.step encode)
      (fun _ action => action.response?.toList) Writing.new actions := by
    rw [logged_eq_flatMap hrun]
    exact List.filterMap_eq_flatMap_toList _ _
  rw [hresponses]
  exact logged_invariant (fun log => Drains (log.flatMap (encodedOf encode)))
    (fun _ _ _ _ => drains_step) Drains.idle (along_of_mem hsucceeds Writing.new) hrun

theorem exists_encoded (hsucceeds : ∀ action ∈ actions, action.Succeeds encode) :
    (responses actions).map encode = ((responses actions).map (encodedOf encode)).map .ok := by
  rw [List.map_map]
  apply List.map_congr_left
  intro response hresponse
  obtain ⟨action, haction, hcalled⟩ := List.mem_filterMap.mp hresponse
  cases action with
  | call task called =>
    obtain rfl : called = response := Option.some.inj hcalled
    obtain ⟨encoded, hencoded⟩ := hsucceeds _ haction
    simp [encodedOf, hencoded]
  | resume task event => cases hcalled
  | closingSent task => cases hcalled

/--
However the tasks are interleaved and however many bytes the socket takes at a time: the
socket never has anything but a first part of the encoded responses, in the order of the
calls, and when no task is left it has all of them.
-/
theorem responses_written_whole_and_once (encode : Response → Except String Bytes)
    (actions : List (WriteAction Response)) (final : Writing)
    (hsucceeds : ∀ action ∈ actions, action.Succeeds encode)
    (hrun : run (Writing.step encode) .new actions = some final) :
    ∃ encoded : List Bytes, (responses actions).map encode = encoded.map .ok ∧
      final.writer.socket <+: encoded.flatten ∧
      (final.tasks = ∅ → final.writer.socket = encoded.flatten) := by
  refine ⟨(responses actions).map (encodedOf encode), exists_encoded hsucceeds, ?_⟩
  have hdrains := drains_of_run hsucceeds hrun
  rw [List.flatMap_def] at hdrains
  cases hdrains with
  | idle => exact ⟨List.prefix_refl _, fun _ => rfl⟩
  | draining task hless hbytes =>
    refine ⟨⟨_, hbytes⟩, fun hnone => ?_⟩
    have hkeys := congrArg AList.keys hnone
    cases hkeys

theorem response_appended_while_draining_written :
    let actions : List (WriteAction Bytes) :=
      [.call 0 [1, 2], .resume 0 (.wrote 1), .call 1 [3], .resume 0 .again,
        .resume 0 (.wrote 1), .resume 0 (.wrote 1)]
    ∃ final, run (Writing.step .ok) .new actions = some final ∧ final.tasks = ∅ ∧
      final.writer.socket = [1, 2, 3] := by
  intro actions
  have hrun : run (Writing.step .ok) .new actions = some ⟨⟨[1, 2, 3], false, []⟩, ∅⟩ := rfl
  have hsucceeds : ∀ action ∈ actions, action.Succeeds .ok := by
    simp [actions, WriteAction.Succeeds]
  obtain ⟨encoded, hencoded, -, hall⟩ :=
    responses_written_whole_and_once .ok actions _ hsucceeds hrun
  refine ⟨_, hrun, rfl, ?_⟩
  have hchunks : [[1, 2], [3]] = encoded :=
    List.map_injective_iff.mpr (fun _ _ => Except.ok.inj) hencoded
  rw [hall rfl, ← hchunks]
  rfl

/-! ## Finishing -/

theorem step_wrote_rest {writer : Writer} (hless : totalWrittenBytes < output.length) :
    Writing.step encode ⟨writer, onlyTask task (.writable output totalWrittenBytes)⟩
        (.resume task (.wrote (output.length - totalWrittenBytes))) =
      some (Writing.suspend ⟨writer, onlyTask task (.writable output totalWrittenBytes)⟩ task
        (Writer.writeRound
          { writer with
            socket := writer.socket ++ output.drop totalWrittenBytes
            accumulatedOutputs := [] } writer.accumulatedOutputs)) := by
  have hlookup : (onlyTask task (.writable output totalWrittenBytes)).lookup task =
      some (.writable output totalWrittenBytes) := List.dlookup_cons_eq ..
  have hend : totalWrittenBytes + (output.length - totalWrittenBytes) = output.length := by omega
  have htaken : (output.drop totalWrittenBytes).take (output.length - totalWrittenBytes) =
      output.drop totalWrittenBytes := by
    apply List.take_of_length_le
    rw [List.length_drop]
  simp [Writing.step, hlookup, Writer.tryWrite, hend, htaken, Writer.writeRest]

theorem step_wrote_last {socket : Bytes} {locked : Bool}
    (hless : totalWrittenBytes < output.length) :
    Writing.step encode
        ⟨⟨socket, locked, []⟩, onlyTask task (.writable output totalWrittenBytes)⟩
        (.resume task (.wrote (output.length - totalWrittenBytes))) =
      some ⟨⟨socket ++ output.drop totalWrittenBytes, false, []⟩, ∅⟩ := by
  rw [step_wrote_rest hless, Writer.writeRound, if_pos rfl, Writing.suspend,
    NoOther.erase (.inr ⟨_, rfl⟩)]

/-- The socket has to take what it is given at most twice; then no task waits for it. -/
def CanFinish (encode : Response → Except String Bytes) (written : Bytes) (writing : Writing) :
    Prop :=
  ∃ rest : List (WriteAction Response), rest.length ≤ 2 ∧
    (∀ action ∈ rest, action.Succeeds encode ∧ action.response? = none) ∧
    run (Writing.step encode) writing rest = some ⟨⟨written, false, []⟩, ∅⟩

theorem Drains.can_finish {written : Bytes} (hdrains : Drains written writing) :
    CanFinish encode written writing := by
  cases hdrains with
  | idle => exact ⟨[], Nat.zero_le 2, fun _ hmem => absurd hmem List.not_mem_nil, rfl⟩
  | @draining task socket output accumulated totalWrittenBytes hless hbytes =>
    let write : WriteAction Response := .resume task (.wrote (output.length - totalWrittenBytes))
    have hwrite : write.Succeeds encode ∧ write.response? = none := ⟨trivial, rfl⟩
    by_cases hempty : accumulated = []
    · subst hempty
      refine ⟨[write], Nat.le_succ 1, List.forall_mem_singleton.mpr hwrite, ?_⟩
      rw [run_cons, step_wrote_last hless, ← hbytes, List.append_nil]
      rfl
    · let writeNext : WriteAction Response := .resume task (.wrote (accumulated.length - 0))
      have hnext : writeNext.Succeeds encode ∧ writeNext.response? = none := ⟨trivial, rfl⟩
      refine ⟨[write, writeNext], Nat.le_refl 2,
        List.forall_mem_cons.mpr ⟨hwrite, List.forall_mem_singleton.mpr hnext⟩, ?_⟩
      rw [run_cons, step_wrote_rest hless, Writer.writeRound, if_neg hempty, Writing.suspend,
        NoOther.insert (.inr ⟨_, rfl⟩), Option.bind_some, run_cons,
        step_wrote_last (List.length_pos_of_ne_nil hempty), ← hbytes, ← List.append_assoc]
      rfl

/-- The writer is never stuck, wherever its tasks are, and no response is left behind. -/
theorem run_can_be_written_out (encode : Response → Except String Bytes)
    (actions : List (WriteAction Response)) (writing : Writing)
    (hsucceeds : ∀ action ∈ actions, action.Succeeds encode)
    (hrun : run (Writing.step encode) .new actions = some writing) :
    CanFinish encode ((responses actions).flatMap (encodedOf encode)) writing :=
  (drains_of_run hsucceeds hrun).can_finish

theorem half_written_response_can_be_written_out :
    let actions : List (WriteAction Bytes) :=
      [.call 0 [1, 2], .resume 0 (.wrote 1), .call 1 [3]]
    ∃ writing, run (Writing.step .ok) .new actions = some writing ∧
      CanFinish (.ok : Bytes → _) [1, 2, 3] writing := by
  intro actions
  have hsucceeds : ∀ action ∈ actions, action.Succeeds .ok := by
    simp [actions, WriteAction.Succeeds]
  exact ⟨_, rfl, run_can_be_written_out .ok actions _ hsucceeds rfl⟩

end Runs

end ValkeyGlide.Socket
