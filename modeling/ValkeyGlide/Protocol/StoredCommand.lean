import Mathlib.Tactic.SplitIfs
import ValkeyGlide.Protocol.Command

/-!
# Commands as they are stored

The representation of a command (`Cmd` in `cmd.rs`).  Small arguments lie one after the
other in `data`, and an inline argument is the offset at which it ends; large ones are kept
beside it.  What an argument list is to the rest of the library is `argsIter`, and
`StoredCmd.toCmd` the command that routing looks at.

Tracing spans, timeouts and slot trackers are numbers here; nothing looks into them.
-/

namespace ValkeyGlide.Protocol

inductive StoredArg where
  | inline (stop : Nat)
  | shared (payload : Bytes)
  | cursor
  deriving DecidableEq, Repr

def StoredArg.EndsAt : Nat → List StoredArg → Nat → Prop
  | start, [], stop => start = stop
  | start, inline mid :: rest, stop => start ≤ mid ∧ EndsAt mid rest stop
  | start, shared _ :: rest, stop => EndsAt start rest stop
  | start, cursor :: rest, stop => EndsAt start rest stop

structure CmdAttributes where
  noResponse : Bool := false
  span : Option Nat := none
  isFenced : Bool := false
  isBlocking : Bool := false
  responseTimeout : Option Nat := none
  inflightTracker : Option Nat := none
  watchdogPhase : UInt8 := 0
  watchdogRetryCount : UInt8 := 0
  deriving DecidableEq, Repr

structure StoredCmd extends CmdAttributes where
  data : Bytes
  args : List StoredArg
  cursor : Option Nat
  filled : StoredArg.EndsAt 0 args data.length

def sharedArgInlineMax : Nat := 4 * 1024

/-! ## Appending an argument -/

namespace StoredArg

variable {start stop next : Nat} {args : List StoredArg}

theorem EndsAt.le (hends : EndsAt start args stop) : start ≤ stop := by
  induction args generalizing start with
  | nil => exact Nat.le_of_eq hends
  | cons arg rest ih =>
    cases arg with
    | inline mid => exact Nat.le_trans hends.1 (ih hends.2)
    | shared payload => exact ih hends
    | cursor => exact ih hends

theorem EndsAt.append_inline (hends : EndsAt start args stop) (hnext : stop ≤ next) :
    EndsAt start (args ++ [inline next]) next := by
  induction args generalizing start with
  | nil => exact ⟨Nat.le_trans hends.le hnext, rfl⟩
  | cons arg rest ih =>
    cases arg with
    | inline mid => exact ⟨hends.1, ih hends.2⟩
    | shared payload => exact ih hends
    | cursor => exact ih hends

theorem EndsAt.append_other (hends : EndsAt start args stop) (arg : StoredArg)
    (harg : EndsAt stop [arg] stop) : EndsAt start (args ++ [arg]) stop := by
  induction args generalizing start with
  | nil =>
    obtain rfl : start = stop := hends
    exact harg
  | cons first rest ih =>
    cases first with
    | inline mid => exact ⟨hends.1, ih hends.2⟩
    | shared payload => exact ih hends
    | cursor => exact ih hends

end StoredArg

namespace StoredCmd

def new : StoredCmd := { data := [], args := [], cursor := none, filled := rfl }

def pushInline (cmd : StoredCmd) (arg : Bytes) : StoredCmd :=
  { cmd with
    data := cmd.data ++ arg
    args := cmd.args ++ [.inline (cmd.data ++ arg).length]
    filled := cmd.filled.append_inline (by simp) }

def pushShared (cmd : StoredCmd) (arg : Bytes) : StoredCmd :=
  { cmd with
    args := cmd.args ++ [.shared arg]
    filled := cmd.filled.append_other (.shared arg) rfl }

def writeArg (cmd : StoredCmd) (arg : Bytes) : StoredCmd :=
  if sharedArgInlineMax < arg.length then cmd.pushShared arg else cmd.pushInline arg

def writeArgFmt (cmd : StoredCmd) (text : Bytes) : StoredCmd := cmd.pushInline text

def argShared (cmd : StoredCmd) (arg : Bytes) : StoredCmd :=
  if arg.length ≤ sharedArgInlineMax then cmd.writeArg arg else cmd.pushShared arg

def inScanMode (cmd : StoredCmd) : Bool := cmd.cursor.isSome

/-- A second cursor fails an assertion. -/
def cursorArg (cmd : StoredCmd) (cursor : Nat) : Option StoredCmd :=
  if cmd.inScanMode then none
  else some { cmd with
    args := cmd.args ++ [.cursor]
    cursor := some cursor
    filled := cmd.filled.append_other .cursor rfl }

def setFenced (cmd : StoredCmd) (fenced : Bool) : StoredCmd := { cmd with isFenced := fenced }

/-! ## The arguments -/

def argsFrom (data : Bytes) : Nat → List StoredArg → List Arg
  | _, [] => []
  | prev, .inline stop :: rest => .simple ((data.take stop).drop prev) :: argsFrom data stop rest
  | prev, .shared payload :: rest => .simple payload :: argsFrom data prev rest
  | prev, .cursor :: rest => .cursor :: argsFrom data prev rest

def argsIter (cmd : StoredCmd) : List Arg := argsFrom cmd.data 0 cmd.args

def toCmd (cmd : StoredCmd) : Cmd := ⟨cmd.argsIter⟩

theorem length_argsFrom (data : Bytes) (prev : Nat) (args : List StoredArg) :
    (argsFrom data prev args).length = args.length := by
  induction args generalizing prev with
  | nil => rfl
  | cons arg rest ih => cases arg <;> simp [argsFrom, ih]

theorem argsFrom_append {data : Bytes} {start : Nat} {args : List StoredArg}
    (hends : StoredArg.EndsAt start args data.length) (more : Bytes) (later : List StoredArg) :
    argsFrom (data ++ more) start (args ++ later) =
      argsFrom data start args ++ argsFrom (data ++ more) data.length later := by
  induction args generalizing start with
  | nil =>
    obtain rfl : start = data.length := hends
    rfl
  | cons arg rest ih =>
    cases arg with
    | inline stop =>
      have hstop : stop ≤ data.length := hends.2.le
      simp [argsFrom, ih hends.2, List.take_append_of_le_length hstop]
    | shared payload | cursor => simp [argsFrom, ih hends]

section Arguments

variable (cmd : StoredCmd) (arg : Bytes)

@[simp] theorem length_argsIter : cmd.argsIter.length = cmd.args.length :=
  length_argsFrom cmd.data 0 cmd.args

@[simp] theorem argsIter_pushInline :
    (cmd.pushInline arg).argsIter = cmd.argsIter ++ [.simple arg] := by
  simp only [argsIter, pushInline, argsFrom_append cmd.filled, argsFrom, List.take_length,
    List.drop_left]

theorem argsIter_append_other (arg : StoredArg) :
    argsFrom cmd.data 0 (cmd.args ++ [arg]) =
      cmd.argsIter ++ argsFrom cmd.data cmd.data.length [arg] := by
  have happend := argsFrom_append cmd.filled [] [arg]
  rwa [List.append_nil] at happend

@[simp] theorem argsIter_pushShared :
    (cmd.pushShared arg).argsIter = cmd.argsIter ++ [.simple arg] :=
  argsIter_append_other cmd (.shared arg)

@[simp] theorem argsIter_writeArg :
    (cmd.writeArg arg).argsIter = cmd.argsIter ++ [.simple arg] := by
  unfold writeArg
  split_ifs <;> simp

@[simp] theorem argsIter_argShared :
    (cmd.argShared arg).argsIter = cmd.argsIter ++ [.simple arg] := by
  unfold argShared
  split_ifs <;> simp

@[simp] theorem cursor_writeArg : (cmd.writeArg arg).cursor = cmd.cursor := by
  unfold writeArg
  split_ifs <;> rfl

@[simp] theorem attributes_writeArg :
    (cmd.writeArg arg).toCmdAttributes = cmd.toCmdAttributes := by
  unfold writeArg
  split_ifs <;> rfl

@[simp] theorem cursor_argShared : (cmd.argShared arg).cursor = cmd.cursor := by
  unfold argShared
  split_ifs
  · exact cursor_writeArg cmd arg
  · rfl

end Arguments

end StoredCmd

end ValkeyGlide.Protocol
