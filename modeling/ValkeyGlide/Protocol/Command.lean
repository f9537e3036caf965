import ValkeyGlide.Foundation.BulkArrays
import ValkeyGlide.Protocol.Value

/-!
# Commands

A command (`cmd.rs`) is its list of arguments, the command words included.
-/

namespace ValkeyGlide.Protocol

open Foundation

def toAsciiUppercase (byte : UInt8) : UInt8 :=
  if 97 ≤ byte ∧ byte ≤ 122 then byte - 32 else byte

def asciiUppercase (data : Bytes) : Bytes := data.map toAsciiUppercase

def eqIgnoreAsciiCase (first second : Bytes) : Bool :=
  asciiUppercase first == asciiUppercase second

private def parseDigits : Nat → Bytes → Option Nat
  | value, [] => some value
  | value, byte :: rest =>
    if 48 ≤ byte ∧ byte ≤ 57 then parseDigits (value * 10 + (byte.toNat - 48)) rest else none

/--
The parser of unsigned integers of the standard library: an optional plus sign,
then at least one digit, with a value of at most `bound`.
-/
def parseUnsigned (bound : Nat) (text : Bytes) : Option Nat :=
  let digits := match text with
    | 43 :: rest => rest
    | _ => text
  match digits with
  | [] => none
  | _ => (parseDigits 0 digits).filter (· ≤ bound)

def parseSigned (bound : Nat) (text : Bytes) : Option Int :=
  match text with
  | 45 :: rest =>
    match rest with
    | [] => none
    | _ => ((parseDigits 0 rest).filter (· ≤ bound + 1)).map fun value => -(value : Int)
  | _ => (parseUnsigned bound text).map Int.ofNat

variable {value bound : Nat} {text : Bytes}

private theorem ascii_of_parseDigits {start : Nat} (hparse : parseDigits start text = some value) :
    ∀ byte ∈ text, byte < 128 := by
  induction text generalizing start with
  | nil => simp
  | cons byte rest ih =>
    rw [parseDigits] at hparse
    split at hparse
    · rename_i hdigit
      intro other hother
      rcases List.mem_cons.mp hother with rfl | hother
      · exact UInt8.lt_of_le_of_lt hdigit.2 (by decide)
      · exact ih hparse other hother
    · exact nomatch hparse

theorem ascii_of_parseUnsigned (hparse : parseUnsigned bound text = some value) :
    ∀ byte ∈ text, byte < 128 := by
  unfold parseUnsigned at hparse
  dsimp only at hparse
  split at hparse
  · exact nomatch hparse
  · obtain ⟨hdigits, -⟩ := Option.filter_eq_some_iff.mp hparse
    have hascii := ascii_of_parseDigits hdigits
    intro byte hbyte
    split at hascii
    · rcases List.mem_cons.mp hbyte with rfl | hbyte
      · decide
      · exact hascii byte hbyte
    · exact hascii byte hbyte

theorem parseUnsigned_le (hparse : parseUnsigned bound text = some value) : value ≤ bound := by
  unfold parseUnsigned at hparse
  dsimp only at hparse
  split at hparse
  · exact nomatch hparse
  · exact of_decide_eq_true (Option.filter_eq_some_iff.mp hparse).2

private theorem parseDigits_digitByte (start : Nat) {digit : Nat} (hdigit : digit < 10)
    (rest : Bytes) :
    parseDigits start (digitByte digit :: rest) = parseDigits (start * 10 + digit) rest := by
  obtain ⟨hbyte, hvalue⟩ := digitByte_isDigit hdigit
  rw [parseDigits, if_pos hbyte, hvalue]

theorem parseUnsigned_decimal (hle : value ≤ bound) :
    parseUnsigned bound (decimal value) = some value := by
  have hvalue := read_decimal (fun start _ hdigit => parseDigits_digitByte start hdigit) 0 value []
  rw [List.append_nil, Nat.zero_mul, Nat.zero_add, parseDigits] at hvalue
  obtain ⟨digit, hdigit, rest, hdecimal⟩ := decimal_eq_cons value
  rw [hdecimal] at hvalue ⊢
  have hsign : digitByte digit ≠ 43 := by
    interval_cases digit <;> decide
  rw [parseUnsigned]
  · exact Option.filter_eq_some_iff.mpr ⟨hvalue, decide_eq_true hle⟩
  · exact fun _ hcons => hsign (List.cons.inj hcons).1
  · exact List.cons_ne_nil _ _

theorem bytes_toString (n : Nat) : bytes (toString n) = decimal n := by
  have hdigit : ∀ c ∈ Nat.toDigits 10 n, String.utf8EncodeChar c = [UInt8.ofNat c.toNat] := by
    intro c hc
    have hbounds := Char.isDigit_iff_toNat.mp
      (Nat.isDigit_of_mem_toDigits (by decide) (le_refl 10) hc)
    rw [String.utf8EncodeChar_eq_singleton]
    · rfl
    · rw [Char.utf8Size_eq_one_iff, UInt32.le_iff_toNat_le]
      exact le_trans hbounds.2 (by decide)
  rw [bytes, show toString n = String.ofList (Nat.toDigits 10 n) from rfl, decimal]
  simp only [String.toUTF8_eq_toByteArray, String.toByteArray_ofList, List.utf8Encode]
  rw [List.flatMap_congr hdigit, List.map_eq_flatMap]
  simp

theorem parseSigned_of_parseUnsigned {bound' : Nat} (hbound : bound ≤ bound')
    (hparse : parseUnsigned bound text = some value) :
    parseSigned bound' text = some (value : Int) := by
  have hwider : parseUnsigned bound' text = some value := by
    unfold parseUnsigned at hparse ⊢
    dsimp only at hparse ⊢
    generalize hdigits : (match text with | 43 :: rest => rest | _ => text) = digits at hparse ⊢
    cases digits with
    | nil => exact nomatch hparse
    | cons digit rest =>
      obtain ⟨hvalue, hle⟩ := Option.filter_eq_some_iff.mp hparse
      refine Option.filter_eq_some_iff.mpr ⟨hvalue, ?_⟩
      simp only [decide_eq_true_eq] at hle ⊢
      omega
  unfold parseSigned
  split
  · -- a minus sign is no digit
    exact nomatch hparse
  · rw [hwider]
    rfl

inductive Arg where
  | simple (data : Bytes)
  | cursor
  deriving DecidableEq, Repr

structure Cmd where
  args : List Arg
  deriving DecidableEq, Repr

namespace Cmd

def ofBytes (args : List Bytes) : Cmd := ⟨args.map .simple⟩

def data (cmd : Cmd) : List Bytes :=
  cmd.args.filterMap fun
    | .simple data => some data
    | .cursor => none

def arg (cmd : Cmd) (data : Option Bytes) : Cmd :=
  match data with
  | some data => ⟨cmd.args ++ [.simple data]⟩
  | none => cmd

def argIdx (cmd : Cmd) (index : Nat) : Option Bytes :=
  match cmd.args[index]? with
  | some (.simple data) => some data
  | some .cursor => none
  | none => none

def position (cmd : Cmd) (candidate : Bytes) : Option Nat :=
  cmd.args.findIdx? fun
    | .simple data => eqIgnoreAsciiCase data candidate
    | .cursor => false

def twoWordCommands : List String :=
  ["XGROUP", "OBJECT", "SLOWLOG", "FUNCTION", "MODULE", "COMMAND", "PUBSUB", "CONFIG",
    "MEMORY", "XINFO", "CLIENT", "ACL", "SCRIPT", "CLUSTER", "LATENCY", "SENTINEL"]

def command (cmd : Cmd) : Option Bytes := do
  let primaryCommand := asciiUppercase (← cmd.argIdx 0)
  if primaryCommand ∈ twoWordCommands.map bytes then
    match cmd.argIdx 1 with
    | some secondaryCommand =>
      return primaryCommand ++ bytes " " ++ asciiUppercase secondaryCommand
    | none => return primaryCommand
  else
    return primaryCommand

@[simp] theorem argIdx_ofBytes (args : List Bytes) (index : Nat) :
    (ofBytes args).argIdx index = args[index]? := by
  cases hindex : args[index]? <;> simp [argIdx, ofBytes, hindex]

@[simp] theorem data_ofBytes (args : List Bytes) : (ofBytes args).data = args := by
  rw [data, ofBytes, List.filterMap_map]
  exact List.filterMap_some

@[simp] theorem length_args_ofBytes (args : List Bytes) :
    (ofBytes args).args.length = args.length := by
  simp [ofBytes]

theorem command_of_one_word {word name : Bytes} (params : List Bytes)
    (hword : asciiUppercase word = name) (hname : name ∉ twoWordCommands.map bytes) :
    (ofBytes (word :: params)).command = some name := by
  simp only [command, argIdx_ofBytes, List.getElem?_cons_zero, Option.bind_eq_bind,
    Option.bind_some, hword]
  rw [if_neg hname]
  rfl

theorem command_eq_some_iff {word name : Bytes} (params : List Bytes) (hspace : 32 ∉ name)
    (hname : name ∉ twoWordCommands.map bytes) :
    (ofBytes (word :: params)).command = some name ↔ asciiUppercase word = name := by
  refine ⟨fun hcommand => ?_, fun hword => command_of_one_word params hword hname⟩
  simp only [command, argIdx_ofBytes, List.getElem?_cons_zero, Option.bind_eq_bind,
    Option.bind_some] at hcommand
  split at hcommand
  · rename_i htwo
    split at hcommand
    · refine absurd ?_ hspace
      rw [← Option.some.inj hcommand, show bytes " " = [32] by decide +kernel]
      simp
    · rw [Option.some.inj hcommand] at htwo
      exact absurd htwo hname
  · exact Option.some.inj hcommand

end Cmd

end ValkeyGlide.Protocol
