import ValkeyGlide.Foundation.BulkArrays
import ValkeyGlide.Protocol.StoredCommand

/-!
# Packing commands

How commands and pipelines become bytes (`cmd.rs`, `pipeline.rs`).  The contiguous form is
one buffer whose size is computed beforehand.  In the segmented form a large argument is a
segment of its own, so that it is not copied; framing and small arguments are collected in
a scratch buffer, which is flushed in front of every such segment.
-/

namespace ValkeyGlide.Protocol

open Foundation

/-! ## The contiguous form -/

/-- Four digits a round; `fuel` bounds the rounds. -/
def countdigitsLoop : Nat → Nat → Nat → Nat
  | 0, _, result => result
  | fuel + 1, v, result =>
    if v < 10 then result
    else if v < 100 then result + 1
    else if v < 1000 then result + 2
    else if v < 10000 then result + 3
    else countdigitsLoop fuel (v / 10000) (result + 4)

def countdigits (v : Nat) : Nat := countdigitsLoop (v + 1) v 1

def bulklen (len : Nat) : Nat := 1 + countdigits len + 2 + len + 2

def argsLen (args : List Arg) (cursor : Nat) : Nat :=
  args.foldl (fun totalLen item =>
    totalLen + bulklen (match item with
      | .cursor => countdigits cursor
      | .simple val => val.length)) (countdigits args.length + 3)

def fenceCommand : Bytes := bytes "*1\r\n$4\r\nPING\r\n"

def argBytes (cursor : Nat) : Arg → Bytes
  | .cursor => decimal cursor
  | .simple val => val

def writeCommand (out : Bytes) (args : List Arg) (cursor : Nat) (isFenced : Bool) : Bytes :=
  let out := out ++ [42] ++ decimal args.length ++ lineBreak
  let out := args.foldl (fun out item =>
    let bytes := argBytes cursor item
    out ++ [36] ++ decimal bytes.length ++ lineBreak ++ bytes ++ lineBreak) out
  if isFenced then out ++ fenceCommand else out

def commandReserve (args : List Arg) (cursor : Nat) (isFenced : Bool) : Nat :=
  argsLen args cursor + if isFenced then fenceCommand.length else 0

namespace StoredCmd

def writePackedCommand (cmd : StoredCmd) (out : Bytes) : Bytes :=
  writeCommand out cmd.argsIter (cmd.cursor.getD 0) cmd.isFenced

def getPackedCommand (cmd : StoredCmd) : Bytes := cmd.writePackedCommand []

def getPackedCommandWithCursor (cmd : StoredCmd) (cursor : Nat) : Option Bytes :=
  if cmd.inScanMode then some (writeCommand [] cmd.argsIter cursor false) else none

def cmdLen (cmd : StoredCmd) : Nat := argsLen cmd.argsIter (cmd.cursor.getD 0)

def named (name : String) : StoredCmd := new.writeArg (bytes name)

end StoredCmd

/-! ## The segmented form -/

structure SegmentedBytes where
  first : Option Bytes
  rest : List Bytes
  len : Nat
  counted : len = (first.toList ++ rest).flatten.length

namespace SegmentedBytes

theorem counted_nil : 0 = ((none : Option Bytes).toList ++ []).flatten.length := rfl

def default : SegmentedBytes := ⟨none, [], 0, counted_nil⟩

def segments (out : SegmentedBytes) : List Bytes := out.first.toList ++ out.rest

def toContiguous (out : SegmentedBytes) : Bytes := out.segments.flatten

def push (out : SegmentedBytes) (bytes : Bytes) : SegmentedBytes :=
  if bytes = [] then out
  else
    match out with
    | ⟨none, [], len, counted⟩ => ⟨some bytes, [], len + bytes.length, by simpa using counted⟩
    | ⟨first, rest, len, counted⟩ =>
      ⟨first, rest ++ [bytes], len + bytes.length, by simp [counted, Nat.add_assoc]⟩

theorem len_eq (out : SegmentedBytes) : out.len = out.toContiguous.length := out.counted

@[simp] theorem toContiguous_push (out : SegmentedBytes) (bytes : Bytes) :
    (out.push bytes).toContiguous = out.toContiguous ++ bytes := by
  unfold push
  split_ifs with hempty
  · rw [hempty, List.append_nil]
  · split <;> simp [toContiguous, segments]

end SegmentedBytes

namespace StoredCmd

def segmentArgs (cmd : StoredCmd) : Nat → List StoredArg → SegmentedBytes → Bytes →
    SegmentedBytes × Bytes
  | _, [], out, scratch => (out, scratch)
  | prev, .inline stop :: rest, out, scratch =>
    let payload := (cmd.data.take stop).drop prev
    cmd.segmentArgs stop rest out
      (scratch ++ [36] ++ decimal payload.length ++ lineBreak ++ payload ++ lineBreak)
  | prev, .cursor :: rest, out, scratch =>
    let cursor := decimal (cmd.cursor.getD 0)
    cmd.segmentArgs prev rest out
      (scratch ++ [36] ++ decimal cursor.length ++ lineBreak ++ cursor ++ lineBreak)
  | prev, .shared payload :: rest, out, scratch =>
    let scratch := scratch ++ [36] ++ decimal payload.length ++ lineBreak
    cmd.segmentArgs prev rest ((out.push scratch).push payload) lineBreak

def writePackedSegments (cmd : StoredCmd) (out : SegmentedBytes) (scratch : Bytes) :
    SegmentedBytes × Bytes :=
  let scratch := scratch ++ [42] ++ decimal cmd.args.length ++ lineBreak
  let (out, scratch) := cmd.segmentArgs 0 cmd.args out scratch
  (out, if cmd.isFenced then scratch ++ fenceCommand else scratch)

def getPackedSegments (cmd : StoredCmd) : SegmentedBytes :=
  let (out, scratch) := cmd.writePackedSegments .default []
  out.push scratch

end StoredCmd

/-! ## Pipelines -/

structure StoredPipeline where
  commands : List StoredCmd
  transactionMode : Bool

namespace StoredPipeline

def writePipeline (out : Bytes) (cmds : List StoredCmd) (atomic : Bool) : Bytes :=
  if atomic then
    let out := (StoredCmd.named "MULTI").writePackedCommand out
    let out := cmds.foldl (fun out cmd => cmd.writePackedCommand out) out
    (StoredCmd.named "EXEC").writePackedCommand out
  else cmds.foldl (fun out cmd => cmd.writePackedCommand out) out

def getPackedPipeline (pipeline : StoredPipeline) : Bytes :=
  writePipeline [] pipeline.commands pipeline.transactionMode

def pipelineReserve (pipeline : StoredPipeline) : Nat :=
  let cmdsLen := (pipeline.commands.map StoredCmd.cmdLen).sum
  if pipeline.transactionMode then
    (StoredCmd.named "MULTI").cmdLen + (StoredCmd.named "EXEC").cmdLen + cmdsLen
  else cmdsLen

def writeSegments (state : SegmentedBytes × Bytes) (cmd : StoredCmd) : SegmentedBytes × Bytes :=
  cmd.writePackedSegments state.1 state.2

def getPackedPipelineSegments (pipeline : StoredPipeline) : SegmentedBytes :=
  let (out, scratch) :=
    if pipeline.transactionMode then
      let state := writeSegments (.default, []) (.named "MULTI")
      let state := pipeline.commands.foldl writeSegments state
      writeSegments state (.named "EXEC")
    else pipeline.commands.foldl writeSegments (.default, [])
  out.push scratch

end StoredPipeline

/-! ## The lengths computed beforehand -/

theorem length_decimal_of_lt {n : Nat} (hlt : n < 10) : (decimal n).length = 1 := by
  rw [decimal_of_lt hlt, List.length_singleton]

theorem length_decimal_of_le {n : Nat} (hle : 10 ≤ n) :
    (decimal n).length = (decimal (n / 10)).length + 1 := by
  rw [decimal_of_le hle, List.length_append, List.length_singleton]

theorem countdigitsLoop_eq {fuel v : Nat} (hfuel : v < fuel) (result : Nat) :
    countdigitsLoop fuel v result + 1 = result + (decimal v).length := by
  induction fuel generalizing v result with
  | zero => omega
  | succ fuel ih =>
    rw [countdigitsLoop]
    split_ifs with hone htwo hthree hfour
    · rw [length_decimal_of_lt hone]
    · rw [length_decimal_of_le (by omega), length_decimal_of_lt (by omega)]
    · rw [length_decimal_of_le (by omega), length_decimal_of_le (by omega),
        length_decimal_of_lt (by omega)]
    · rw [length_decimal_of_le (by omega), length_decimal_of_le (by omega),
        length_decimal_of_le (by omega), length_decimal_of_lt (by omega)]
    · have hround : (decimal v).length = (decimal (v / 10000)).length + 4 := by
        rw [length_decimal_of_le (by omega), length_decimal_of_le (by omega),
          length_decimal_of_le (by omega), length_decimal_of_le (by omega)]
        simp [Nat.div_div_eq_div_mul]
      rw [ih (by omega), hround]
      omega

@[simp] theorem countdigits_eq (v : Nat) : countdigits v = (decimal v).length := by
  have hloop := countdigitsLoop_eq (Nat.lt_add_one v) 1
  unfold countdigits
  omega

theorem bulklen_eq (text : Bytes) : bulklen text.length = (encodeBulk text).length := by
  simp only [bulklen, countdigits_eq, encodeBulk, encodeHeader, lineBreak, List.length_append,
    List.length_cons, List.length_nil]
  omega

theorem argsLen_eq (args : List Arg) (cursor : Nat) :
    argsLen args cursor = (encodeArray (args.map (argBytes cursor))).length := by
  have hitem : ∀ item : Arg, bulklen (match item with
      | .cursor => countdigits cursor
      | .simple val => val.length) = (encodeBulk (argBytes cursor item)).length := by
    intro item
    cases item with
    | simple val => exact bulklen_eq val
    | cursor =>
      rw [countdigits_eq]
      exact bulklen_eq (decimal cursor)
  have hfold : ∀ start, args.foldl (fun totalLen item => totalLen + bulklen (match item with
      | .cursor => countdigits cursor
      | .simple val => val.length)) start =
        start + ((args.map (argBytes cursor)).flatMap encodeBulk).length := by
    induction args with
    | nil => exact fun start => rfl
    | cons item rest ih =>
      intro start
      rw [List.foldl_cons, ih, hitem, List.map_cons, List.flatMap_cons, List.length_append,
        Nat.add_assoc]
  rw [argsLen, hfold, encodeArray, List.length_append, countdigits_eq, encodeHeader,
    List.length_map]
  simp [lineBreak]

/-! ## The bytes of a command -/

theorem fenceCommand_eq : fenceCommand = encodeArray [bytes "PING"] := by decide +kernel

theorem append_bulk (out text : Bytes) :
    out ++ [36] ++ decimal text.length ++ lineBreak ++ text ++ lineBreak =
      out ++ encodeBulk text := by
  simp [encodeBulk, encodeHeader]

theorem append_arrayHeader (out : Bytes) (count : Nat) :
    out ++ [42] ++ decimal count ++ lineBreak = out ++ encodeHeader 42 count := by
  simp [encodeHeader]

theorem writeCommand_eq (out : Bytes) (args : List Arg) (cursor : Nat) (isFenced : Bool) :
    writeCommand out args cursor isFenced =
      out ++ (encodeArray (args.map (argBytes cursor)) ++
        if isFenced then fenceCommand else []) := by
  have hfold : ∀ start, args.foldl (fun out item =>
      out ++ [36] ++ decimal (argBytes cursor item).length ++ lineBreak ++ argBytes cursor item ++
        lineBreak) start = start ++ (args.map (argBytes cursor)).flatMap encodeBulk := by
    induction args with
    | nil => exact fun start => (List.append_nil start).symm
    | cons item rest ih =>
      intro start
      rw [List.foldl_cons, ih, append_bulk, List.map_cons, List.flatMap_cons,
        List.append_assoc]
  simp only [writeCommand, hfold, append_arrayHeader, encodeArray, List.length_map]
  split_ifs <;> simp

namespace StoredCmd

def arguments (cmd : StoredCmd) : List Bytes := cmd.argsIter.map (argBytes (cmd.cursor.getD 0))

def requests (cmd : StoredCmd) : List (List Bytes) :=
  cmd.arguments :: if cmd.isFenced then [[bytes "PING"]] else []

variable (cmd : StoredCmd)

theorem requests_flatMap : cmd.requests.flatMap encodeArray =
      encodeArray cmd.arguments ++ if cmd.isFenced then fenceCommand else [] := by
  rw [requests, List.flatMap_cons]
  split_ifs
  · rw [fenceCommand_eq, List.flatMap_singleton]
  · rfl

theorem writePackedCommand_eq (out : Bytes) :
    cmd.writePackedCommand out = out ++ cmd.requests.flatMap encodeArray := by
  rw [writePackedCommand, writeCommand_eq, requests_flatMap, arguments]

theorem length_getPackedCommand :
    commandReserve cmd.argsIter (cmd.cursor.getD 0) cmd.isFenced =
      cmd.getPackedCommand.length := by
  rw [commandReserve, argsLen_eq, getPackedCommand, writePackedCommand_eq, requests_flatMap,
    List.nil_append, List.length_append, arguments]
  split_ifs <;> rfl

theorem getPackedCommandWithCursor_eq (cursor : Nat) :
    cmd.getPackedCommandWithCursor cursor =
      if cmd.inScanMode then some (encodeArray (cmd.argsIter.map (argBytes cursor))) else none := by
  rw [getPackedCommandWithCursor, writeCommand_eq]
  simp

theorem segmentArgs_eq (prev : Nat) (args : List StoredArg) (out : SegmentedBytes)
    (scratch : Bytes) :
    let packed := cmd.segmentArgs prev args out scratch
    packed.1.toContiguous ++ packed.2 = out.toContiguous ++ scratch ++
      ((argsFrom cmd.data prev args).map (argBytes (cmd.cursor.getD 0))).flatMap encodeBulk := by
  induction args generalizing prev out scratch with
  | nil => simp [segmentArgs, argsFrom]
  | cons arg rest ih =>
    cases arg <;>
      simp [segmentArgs, argsFrom, ih, List.map_cons, List.flatMap_cons, argBytes, encodeBulk,
        encodeHeader, List.append_assoc, List.cons_append, List.nil_append]

theorem writePackedSegments_eq (out : SegmentedBytes) (scratch : Bytes) :
    let packed := cmd.writePackedSegments out scratch
    packed.1.toContiguous ++ packed.2 =
      out.toContiguous ++ scratch ++ cmd.requests.flatMap encodeArray := by
  have hargs := cmd.segmentArgs_eq 0 cmd.args out
    (scratch ++ [42] ++ decimal cmd.args.length ++ lineBreak)
  rw [requests_flatMap, arguments, encodeArray, List.length_map, length_argsIter]
  simp only [writePackedSegments]
  split_ifs
  · rw [← List.append_assoc, hargs, append_arrayHeader]
    simp [argsIter]
  · rw [hargs, append_arrayHeader]
    simp [argsIter]

end StoredCmd

/-! ## The bytes of a pipeline -/

namespace StoredPipeline

def requests (pipeline : StoredPipeline) : List (List Bytes) :=
  let requests := pipeline.commands.flatMap StoredCmd.requests
  if pipeline.transactionMode then [bytes "MULTI"] :: requests ++ [[bytes "EXEC"]] else requests

@[simp] theorem requests_named (name : String) :
    (StoredCmd.named name).requests = [[bytes name]] := by
  have hargs : (StoredCmd.named name).argsIter = [.simple (bytes name)] :=
    StoredCmd.argsIter_writeArg .new (bytes name)
  have hfenced : (StoredCmd.named name).isFenced = false :=
    congrArg CmdAttributes.isFenced (StoredCmd.attributes_writeArg .new (bytes name))
  rw [StoredCmd.requests, StoredCmd.arguments, hargs, hfenced]
  rfl

theorem foldl_writePackedCommand (cmds : List StoredCmd) (out : Bytes) :
    cmds.foldl (fun out cmd => cmd.writePackedCommand out) out =
      out ++ (cmds.flatMap StoredCmd.requests).flatMap encodeArray := by
  induction cmds generalizing out with
  | nil => exact (List.append_nil out).symm
  | cons cmd rest ih =>
    rw [List.foldl_cons, ih, StoredCmd.writePackedCommand_eq, List.flatMap_cons,
      List.flatMap_append, List.append_assoc]

def joined (state : SegmentedBytes × Bytes) : Bytes := state.1.toContiguous ++ state.2

theorem joined_writeSegments (state : SegmentedBytes × Bytes) (cmd : StoredCmd) :
    joined (writeSegments state cmd) = joined state ++ cmd.requests.flatMap encodeArray :=
  cmd.writePackedSegments_eq state.1 state.2

theorem foldl_writeSegments (cmds : List StoredCmd) (state : SegmentedBytes × Bytes) :
    joined (cmds.foldl writeSegments state) =
      joined state ++ (cmds.flatMap StoredCmd.requests).flatMap encodeArray := by
  induction cmds generalizing state with
  | nil => exact (List.append_nil _).symm
  | cons cmd rest ih =>
    rw [List.foldl_cons, ih, joined_writeSegments, List.flatMap_cons, List.flatMap_append,
      List.append_assoc]

theorem getPackedPipeline_eq (pipeline : StoredPipeline) :
    pipeline.getPackedPipeline = pipeline.requests.flatMap encodeArray := by
  unfold getPackedPipeline writePipeline requests
  dsimp only
  rw [StoredCmd.writePackedCommand_eq, foldl_writePackedCommand, foldl_writePackedCommand,
    StoredCmd.writePackedCommand_eq, requests_named, requests_named]
  split_ifs
  · simp
  · exact List.nil_append _

theorem getPackedPipelineSegments_eq (pipeline : StoredPipeline) :
    pipeline.getPackedPipelineSegments.toContiguous = pipeline.requests.flatMap encodeArray := by
  have hjoined : pipeline.getPackedPipelineSegments.toContiguous =
      joined (if pipeline.transactionMode then
        writeSegments (pipeline.commands.foldl writeSegments
          (writeSegments (.default, []) (.named "MULTI"))) (.named "EXEC")
        else pipeline.commands.foldl writeSegments (.default, [])) :=
    SegmentedBytes.toContiguous_push _ _
  rw [hjoined, requests]
  split_ifs
  · rw [joined_writeSegments, foldl_writeSegments, joined_writeSegments, requests_named,
      requests_named]
    simp only [List.flatMap_append, List.flatMap_cons, List.flatMap_nil, List.cons_append,
      List.append_nil, List.append_assoc]
    rfl
  · rw [foldl_writeSegments]
    rfl

end StoredPipeline

/-! ## The lengths of a pipeline -/

theorem StoredCmd.length_requests (cmd : StoredCmd) :
    (cmd.requests.flatMap encodeArray).length =
      cmd.cmdLen + if cmd.isFenced then fenceCommand.length else 0 := by
  rw [requests_flatMap, List.length_append, cmdLen, argsLen_eq, arguments]
  split_ifs <;> rfl

theorem StoredPipeline.length_requests (cmds : List StoredCmd) :
    ((cmds.flatMap StoredCmd.requests).flatMap encodeArray).length =
      (cmds.map StoredCmd.cmdLen).sum +
        cmds.countP (fun cmd => cmd.isFenced) * fenceCommand.length := by
  induction cmds with
  | nil => simp
  | cons cmd rest ih =>
    rw [List.flatMap_cons, List.flatMap_append, List.length_append, ih, cmd.length_requests,
      List.map_cons, List.sum_cons, List.countP_cons]
    split_ifs <;> simp only [Nat.add_mul] <;> omega

theorem StoredPipeline.length_getPackedPipeline (pipeline : StoredPipeline) :
    pipeline.pipelineReserve +
        pipeline.commands.countP (fun cmd => cmd.isFenced) * fenceCommand.length =
      pipeline.getPackedPipeline.length := by
  have hnamed : ∀ name, (StoredCmd.named name).cmdLen = (encodeArray [bytes name]).length := by
    intro name
    have hlength := (StoredCmd.named name).length_requests
    have hfenced : (StoredCmd.named name).isFenced = false :=
      congrArg CmdAttributes.isFenced (StoredCmd.attributes_writeArg .new (bytes name))
    rw [requests_named, hfenced] at hlength
    simpa using hlength.symm
  rw [getPackedPipeline_eq, requests, pipelineReserve]
  have hcmds := length_requests pipeline.commands
  split_ifs
  · simp only [List.cons_append, List.flatMap_cons, List.flatMap_append, List.flatMap_nil,
      List.append_nil, List.length_append, hnamed, hcmds]
    omega
  · exact hcmds.symm

/-! ## Commands built from arguments -/

inductive Addition where
  | arg (value : Bytes)
  | argFmt (text : Bytes)
  | argShared (payload : Bytes)
  | cursorArg (cursor : Nat)
  deriving DecidableEq, Repr

def Addition.sent : Addition → Bytes
  | arg value => value
  | argFmt text => text
  | argShared payload => payload
  | cursorArg cursor => decimal cursor

def StoredCmd.add (cmd : StoredCmd) : Addition → Option StoredCmd
  | .arg value => some (cmd.writeArg value)
  | .argFmt text => some (cmd.writeArgFmt text)
  | .argShared payload => some (cmd.argShared payload)
  | .cursorArg cursor => cmd.cursorArg cursor

structure Construction where
  additions : List Addition
  isFenced : Bool
  deriving DecidableEq, Repr

namespace Construction

def build (construction : Construction) : Option StoredCmd :=
  (construction.additions.foldlM StoredCmd.add .new).map fun cmd =>
    cmd.setFenced construction.isFenced

def requests (construction : Construction) : List (List Bytes) :=
  construction.additions.map Addition.sent ::
    if construction.isFenced then [[bytes "PING"]] else []

end Construction

/-- A command that has no cursor has no argument that stands for one. -/
structure StoredCmd.Holds (cmd : StoredCmd) (arguments : List Bytes) : Prop where
  arguments_eq : cmd.arguments = arguments
  no_cursor : cmd.cursor = none → .cursor ∉ cmd.argsIter

namespace StoredCmd

variable {cmd next : StoredCmd} {arguments : List Bytes}

theorem Holds.append_simple (hholds : cmd.Holds arguments) {value : Bytes}
    (hargs : next.argsIter = cmd.argsIter ++ [.simple value]) (hcursor : next.cursor = cmd.cursor) :
    next.Holds (arguments ++ [value]) := by
  refine ⟨?_, fun hnone => ?_⟩
  · rw [StoredCmd.arguments, hargs, hcursor, List.map_append, ← hholds.arguments_eq]
    rfl
  · rw [hcursor] at hnone
    simpa [hargs] using hholds.no_cursor hnone

theorem Holds.append_cursor (hholds : cmd.Holds arguments) {cursor : Nat}
    (hnext : cmd.cursorArg cursor = some next) : next.Holds (arguments ++ [decimal cursor]) := by
  unfold cursorArg at hnext
  split_ifs at hnext with hscan
  cases hnext
  have hnone : cmd.cursor = none := by simpa [inScanMode] using hscan
  refine ⟨?_, fun hcursor => ?_⟩
  swap
  · cases hcursor
  have hargs : argsFrom cmd.data 0 (cmd.args ++ [.cursor]) = cmd.argsIter ++ [.cursor] :=
    argsIter_append_other cmd .cursor
  have hsame : cmd.argsIter.map (argBytes cursor) = cmd.argsIter.map (argBytes 0) := by
    refine List.map_congr_left fun arg harg => ?_
    cases arg with
    | simple value => rfl
    | cursor => exact absurd harg (hholds.no_cursor hnone)
  rw [← hholds.arguments_eq, StoredCmd.arguments, StoredCmd.arguments, argsIter, hargs, hnone]
  simp only [Option.getD_some, Option.getD_none, List.map_append, hsame]
  rfl

theorem Holds.add {addition : Addition} (hholds : cmd.Holds arguments)
    (hadd : cmd.add addition = some next) : next.Holds (arguments ++ [addition.sent]) := by
  cases addition with
  | arg value =>
    cases hadd
    exact hholds.append_simple (argsIter_writeArg cmd value) (cursor_writeArg cmd value)
  | argFmt text =>
    cases hadd
    exact hholds.append_simple (argsIter_pushInline cmd text) rfl
  | argShared payload =>
    cases hadd
    exact hholds.append_simple (argsIter_argShared cmd payload) (cursor_argShared cmd payload)
  | cursorArg cursor => exact hholds.append_cursor hadd

theorem Holds.addAll {additions : List Addition} (hholds : cmd.Holds arguments)
    (hadd : additions.foldlM StoredCmd.add cmd = some next) :
    next.Holds (arguments ++ additions.map Addition.sent) := by
  induction additions generalizing cmd arguments with
  | nil =>
    cases hadd
    rwa [List.map_nil, List.append_nil]
  | cons addition rest ih =>
    rw [List.foldlM_cons] at hadd
    obtain ⟨added, hfirst, hrest⟩ := Option.bind_eq_some_iff.mp hadd
    have hlater := ih (hholds.add hfirst) hrest
    rwa [List.append_assoc, List.singleton_append] at hlater

end StoredCmd

theorem Construction.requests_build {construction : Construction} {cmd : StoredCmd}
    (hbuild : construction.build = some cmd) : cmd.requests = construction.requests := by
  obtain ⟨added, hadded, rfl⟩ := Option.map_eq_some_iff.mp hbuild
  have hholds : StoredCmd.new.Holds [] := ⟨rfl, fun _ => List.not_mem_nil⟩
  have harguments := (hholds.addAll hadded).arguments_eq
  rw [List.nil_append] at harguments
  rw [requests, ← harguments]
  rfl

theorem Construction.requests_mapM {constructions : List Construction} {cmds : List StoredCmd}
    (hbuild : constructions.mapM build = some cmds) :
    cmds.flatMap StoredCmd.requests = constructions.flatMap requests := by
  induction constructions generalizing cmds with
  | nil =>
    cases hbuild
    rfl
  | cons construction rest ih =>
    rw [List.mapM_cons] at hbuild
    obtain ⟨cmd, hcmd, hbuild⟩ := Option.bind_eq_some_iff.mp hbuild
    obtain ⟨later, hlater, hcons⟩ := Option.bind_eq_some_iff.mp hbuild
    cases hcons
    rw [List.flatMap_cons, List.flatMap_cons, requests_build hcmd, ih hlater]

/-! ## Both forms are exact -/

/-- The two forms agree, the announced length is right, and the server reads `requests`. -/
structure PacksExactly (segments : SegmentedBytes) (packed : Bytes)
    (requests : List (List Bytes)) : Prop where
  same : segments.segments.flatten = packed
  length : segments.len = packed.length
  decoded : decodeArrays packed = some requests

theorem PacksExactly.of_eq {segments : SegmentedBytes} {packed : Bytes}
    {requests : List (List Bytes)} (hsegments : segments.toContiguous = packed)
    (hpacked : packed = requests.flatMap encodeArray) : PacksExactly segments packed requests where
  same := hsegments
  length := by rw [segments.len_eq, hsegments]
  decoded := by rw [hpacked, decodeArrays_flatMap]

theorem StoredCmd.getPackedSegments_eq (cmd : StoredCmd) :
    cmd.getPackedSegments.toContiguous = cmd.getPackedCommand := by
  have hpacked := cmd.writePackedSegments_eq .default []
  rw [getPackedSegments, SegmentedBytes.toContiguous_push, hpacked, getPackedCommand,
    writePackedCommand_eq]
  rfl

/--
A command and a pipeline, of commands built by any additions, in both forms.  The room
reserved beforehand is exactly what is written, where the fences of a pipeline are not counted.
-/
theorem packing_exact :
    (∀ construction cmd, Construction.build construction = some cmd →
      PacksExactly cmd.getPackedSegments cmd.getPackedCommand construction.requests ∧
      commandReserve cmd.argsIter (cmd.cursor.getD 0) cmd.isFenced =
        cmd.getPackedCommand.length) ∧
    ∀ (constructions : List Construction) (cmds : List StoredCmd),
      constructions.mapM Construction.build = some cmds → ∀ atomic,
      let pipeline : StoredPipeline := ⟨cmds, atomic⟩
      let requests := constructions.flatMap Construction.requests
      PacksExactly pipeline.getPackedPipelineSegments pipeline.getPackedPipeline
        (if atomic then [bytes "MULTI"] :: requests ++ [[bytes "EXEC"]] else requests) ∧
      pipeline.pipelineReserve +
          cmds.countP (fun cmd => cmd.isFenced) * fenceCommand.length =
        pipeline.getPackedPipeline.length := by
  refine ⟨fun construction cmd hbuild => ⟨?_, cmd.length_getPackedCommand⟩, ?_⟩
  · refine .of_eq cmd.getPackedSegments_eq ?_
    rw [StoredCmd.getPackedCommand, StoredCmd.writePackedCommand_eq, List.nil_append,
      Construction.requests_build hbuild]
  · intro constructions cmds hbuild atomic pipeline requests
    refine ⟨.of_eq ?_ ?_, pipeline.length_getPackedPipeline⟩
    · rw [pipeline.getPackedPipelineSegments_eq, pipeline.getPackedPipeline_eq]
    · rw [pipeline.getPackedPipeline_eq, StoredPipeline.requests,
        Construction.requests_mapM hbuild]

theorem fenced_scan_with_large_argument_packed :
    let construction : Construction :=
      ⟨[.arg (bytes "SSCAN"), .cursorArg 17, .argShared (List.replicate 5000 7)], true⟩
    ∃ cmd, construction.build = some cmd ∧
      PacksExactly cmd.getPackedSegments cmd.getPackedCommand construction.requests ∧
      PacksExactly (StoredPipeline.mk [cmd] true).getPackedPipelineSegments
        (StoredPipeline.mk [cmd] true).getPackedPipeline
        ([bytes "MULTI"] :: construction.requests ++ [[bytes "EXEC"]]) := by
  intro construction
  refine ⟨_, rfl, (packing_exact.1 construction _ rfl).1, ?_⟩
  have hpipeline := (packing_exact.2 [construction] _ rfl true).1
  rwa [List.flatMap_singleton] at hpipeline

end ValkeyGlide.Protocol
