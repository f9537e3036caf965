import ValkeyGlide.Compression.Manager
import ValkeyGlide.Foundation.Positions

/-!
# Compressing the arguments of a command

Which arguments of a command are values, and how they are replaced by their compressed form
before the command is sent (`compression.rs`, `request_type.rs`).  Commands that work on the
bytes of a stored value are refused while compression is on.
-/

namespace ValkeyGlide.Compression

open Protocol Foundation

/-- The request types that compression distinguishes; `other` stands for all the rest. -/
inductive RequestType where
  | invalidRequest
  | customCommand
  | append
  | bitCount
  | bitField
  | bitFieldReadOnly
  | bitOp
  | bitPos
  | decr
  | decrBy
  | delIfEq
  | get
  | getBit
  | getDel
  | getEx
  | getRange
  | getSet
  | incr
  | incrBy
  | incrByFloat
  | lcs
  | mGet
  | mSet
  | mSetNX
  | pSetEx
  | set
  | setBit
  | setEx
  | setNX
  | setRange
  | strlen
  | substr
  | other
  deriving DecidableEq, Repr

inductive CommandCompressionBehavior where
  | compressValues
  | decompressValues
  | noCompression
  deriving DecidableEq, Repr

namespace RequestType

def compressionBehavior : RequestType → CommandCompressionBehavior
  | set => .compressValues
  | mSet => .compressValues
  | mSetNX => .compressValues
  | setEx => .compressValues
  | pSetEx => .compressValues
  | setNX => .compressValues
  | get => .decompressValues
  | mGet => .decompressValues
  | getEx => .decompressValues
  | getDel => .decompressValues
  | getSet => .decompressValues
  | _ => .noCompression

def compressionIncompatibilityReason : RequestType → Option String
  | append =>
    some "APPEND modifies string data on the server, which would corrupt compressed values"
  | getRange =>
    some ("GETRANGE returns a substring of the raw bytes, " ++
      "which would return compressed data instead of the original value")
  | setRange =>
    some "SETRANGE modifies bytes at a specific offset, which would corrupt compressed values"
  | strlen =>
    some ("STRLEN returns the length of the raw bytes, " ++
      "which would return the compressed size instead of the original size")
  | lcs =>
    some ("LCS compares raw bytes between strings, " ++
      "which would compare compressed data instead of original values")
  | substr =>
    some ("SUBSTR (deprecated alias for GETRANGE) returns a substring of raw bytes, " ++
      "which would return compressed data")
  | delIfEq =>
    some ("DELIFEQ compares the stored value against raw bytes on the server, " ++
      "which would compare against compressed data instead of the original value")
  | incr => some "INCR expects a numeric string value, but would receive compressed bytes"
  | incrBy => some "INCRBY expects a numeric string value, but would receive compressed bytes"
  | incrByFloat =>
    some "INCRBYFLOAT expects a numeric string value, but would receive compressed bytes"
  | decr => some "DECR expects a numeric string value, but would receive compressed bytes"
  | decrBy => some "DECRBY expects a numeric string value, but would receive compressed bytes"
  | getBit =>
    some ("GETBIT reads bits from raw bytes, " ++
      "which would read from compressed data instead of original value")
  | setBit => some "SETBIT modifies bits in raw bytes, which would corrupt compressed values"
  | bitCount =>
    some ("BITCOUNT counts bits in raw bytes, " ++
      "which would count bits in compressed data instead of original value")
  | bitPos =>
    some ("BITPOS finds bit positions in raw bytes, " ++
      "which would search in compressed data instead of original value")
  | bitField =>
    some ("BITFIELD performs bit operations on raw bytes, " ++
      "which would operate on compressed data")
  | bitFieldReadOnly =>
    some ("BITFIELD_RO reads bits from raw bytes, " ++
      "which would read from compressed data instead of original value")
  | bitOp =>
    some ("BITOP performs bitwise operations between strings, " ++
      "which would operate on compressed data")
  | _ => none

def commandName : RequestType → Option String
  | invalidRequest => none
  | customCommand => some "CUSTOM"
  | append => some "APPEND"
  | bitCount => some "BITCOUNT"
  | bitField => some "BITFIELD"
  | bitFieldReadOnly => some "BITFIELD_RO"
  | bitOp => some "BITOP"
  | bitPos => some "BITPOS"
  | decr => some "DECR"
  | decrBy => some "DECRBY"
  | delIfEq => some "DELIFEQ"
  | get => some "GET"
  | getBit => some "GETBIT"
  | getDel => some "GETDEL"
  | getEx => some "GETEX"
  | getRange => some "GETRANGE"
  | getSet => some "GETSET"
  | incr => some "INCR"
  | incrBy => some "INCRBY"
  | incrByFloat => some "INCRBYFLOAT"
  | lcs => some "LCS"
  | mGet => some "MGET"
  | mSet => some "MSET"
  | mSetNX => some "MSETNX"
  | pSetEx => some "PSETEX"
  | set => some "SET"
  | setBit => some "SETBIT"
  | setEx => some "SETEX"
  | setNX => some "SETNX"
  | setRange => some "SETRANGE"
  | strlen => some "STRLEN"
  | substr => some "SUBSTR"
  | other => none

end RequestType

/-! ## The arguments -/

def CompressionManager.isEnabled (manager : CompressionManager) : Bool := manager.config.enabled

section Arguments

variable (codecs : Codecs)

def validateCommandCompressionCompatibility (requestType : RequestType)
    (manager : Option CompressionManager) : CompressionResult Unit :=
  match manager with
  | none => .ok ()
  | some manager =>
    if !manager.isEnabled then .ok ()
    else
      match requestType.compressionIncompatibilityReason with
      | some reason =>
        .error (.incompatibleCommand (requestType.commandName.getD "unknown") reason)
      | none => .ok ()

def compressSingleValueCommand (args : List Bytes) (manager : CompressionManager)
    (valueIndex : Nat) : CompressionResult (List Bytes) :=
  if args.length ≤ valueIndex then .ok args
  else .ok (args.modify valueIndex (manager.compressValue codecs))

def compressMSetCommand (args : List Bytes) (manager : CompressionManager) :
    CompressionResult (List Bytes) :=
  .ok (changeAt (List.range' 1 (args.length / 2) 2) (manager.compressValue codecs) args)

def processCommandArgsForCompression (args : List Bytes) (requestType : RequestType)
    (manager : Option CompressionManager) : CompressionResult (List Bytes) :=
  match manager with
  | none => .ok args
  | some manager =>
    if !manager.isEnabled then .ok args
    else
      match requestType.compressionIncompatibilityReason with
      | some reason =>
        .error (.incompatibleCommand (requestType.commandName.getD "unknown") reason)
      | none =>
        if requestType.compressionBehavior ≠ .compressValues then .ok args
        else
          match requestType with
          | .set => compressSingleValueCommand codecs args manager 1
          | .mSet => compressMSetCommand codecs args manager
          | .mSetNX => compressMSetCommand codecs args manager
          | .setEx => compressSingleValueCommand codecs args manager 2
          | .pSetEx => compressSingleValueCommand codecs args manager 2
          | .setNX => compressSingleValueCommand codecs args manager 1
          | _ => .ok args

end Arguments

/-! ## Only values change -/

namespace RequestType

def isValuePosition : RequestType → Nat → Bool
  | set, index => index = 1
  | setNX, index => index = 1
  | setEx, index => index = 2
  | pSetEx, index => index = 2
  | mSet, index => index % 2 = 1
  | mSetNX, index => index % 2 = 1
  | _, _ => false

def valueIndices : RequestType → Nat → List Nat
  | set, _ => [1]
  | setNX, _ => [1]
  | setEx, _ => [2]
  | pSetEx, _ => [2]
  | mSet, argCount => List.range' 1 (argCount / 2) 2
  | mSetNX, argCount => List.range' 1 (argCount / 2) 2
  | _, _ => []

theorem valueIndices_nodup (requestType : RequestType) (argCount : Nat) :
    (requestType.valueIndices argCount).Nodup := by
  cases requestType with
  | mSet | mSetNX => exact List.nodup_range' 2 (Nat.succ_pos 1)
  | _ => simp [valueIndices]

theorem mem_range'_odd {index argCount : Nat} (hindex : index < argCount) :
    index ∈ List.range' 1 (argCount / 2) 2 ↔ index % 2 = 1 := by
  rw [List.mem_range']
  constructor
  · rintro ⟨pair, -, rfl⟩
    omega
  · intro hodd
    exact ⟨index / 2, by omega, by omega⟩

theorem mem_valueIndices_iff {requestType : RequestType} {index argCount : Nat}
    (hindex : index < argCount) :
    index ∈ requestType.valueIndices argCount ↔ requestType.isValuePosition index := by
  cases requestType with
  | mSet | mSetNX =>
    simp [valueIndices, isValuePosition, mem_range'_odd hindex]
  | _ => simp [valueIndices, isValuePosition]

end RequestType

section OnlyValues

variable {codecs : Codecs} {manager : CompressionManager} {requestType : RequestType}

theorem isCompressed_of_compress {backend : CompressionBackendType} {data stored : Bytes}
    {level : Option Int} (hcompress : compress codecs backend data level = .ok stored) :
    isCompressed backend stored := by
  cases backend with
  | zstd =>
    obtain ⟨level, encoded, -, rfl⟩ := zstdCompress_eq_ok hcompress
    exact isCompressed_createHeader .zstd _
  | lz4 =>
    obtain ⟨mode, block, -, -, rfl⟩ := lz4CompressData_eq_ok hcompress
    exact isCompressed_createHeader .lz4 _

theorem length_lt_of_compressed {value stored : Bytes}
    (hcompressed : manager.compressed codecs value = some stored) : stored.length < value.length := by
  unfold CompressionManager.compressed at hcompressed
  split_ifs at hcompressed
  split at hcompressed
  next result hresult =>
    split_ifs at hcompressed with hshorter
    rwa [Option.some.inj hcompressed] at hshorter
  next => contradiction

theorem compressValue_compressValue (manager : CompressionManager) (value : Bytes) :
    manager.compressValue codecs (manager.compressValue codecs value) =
      manager.compressValue codecs value := by
  cases hcompressed : manager.compressed codecs value with
  | none =>
    have hsame : manager.compressValue codecs value = value := by
      rw [CompressionManager.compressValue, hcompressed, Option.getD_none]
    rw [hsame, hsame]
  | some stored =>
    have hstored : manager.compressValue codecs value = stored := by
      rw [CompressionManager.compressValue, hcompressed, Option.getD_some]
    obtain ⟨-, hcompress⟩ := CompressionManager.compressed_eq_some hcompressed
    -- the header of the first pass stops the second
    have hagain : manager.compressed codecs stored = none := by
      unfold CompressionManager.compressed
      split_ifs
      · rfl
      · rfl
      next hplain => exact absurd (isCompressed_of_compress hcompress) hplain
    rw [hstored, CompressionManager.compressValue, hagain, Option.getD_none]

theorem compressSingleValueCommand_eq (args : List Bytes) (valueIndex : Nat) :
    compressSingleValueCommand codecs args manager valueIndex =
      .ok (changeAt [valueIndex] (manager.compressValue codecs) args) := by
  unfold compressSingleValueCommand
  split_ifs with hshort
  · exact congrArg Except.ok (List.modify_eq_self hshort).symm
  · rfl

theorem processCommandArgs_eq (henabled : manager.isEnabled)
    (hcompatible : requestType.compressionIncompatibilityReason = none) (args : List Bytes) :
    processCommandArgsForCompression codecs args requestType (some manager) =
      .ok (changeAt (requestType.valueIndices args.length) (manager.compressValue codecs) args) := by
  simp only [processCommandArgsForCompression, henabled, hcompatible]
  cases requestType <;>
    first | exact compressSingleValueCommand_eq args _ | rfl

theorem processCommandArgs_cases {manager : Option CompressionManager} {args processed : List Bytes}
    (hprocess : processCommandArgsForCompression codecs args requestType manager = .ok processed) :
    (processed = args ∧ ∀ args, processCommandArgsForCompression codecs args requestType manager =
      .ok args) ∨
    ∃ enabled, manager = some enabled ∧ enabled.isEnabled ∧
      requestType.compressionIncompatibilityReason = none ∧
      processed = changeAt (requestType.valueIndices args.length)
        (enabled.compressValue codecs) args := by
  cases manager with
  | none => exact .inl ⟨(Except.ok.inj hprocess).symm, fun _ => rfl⟩
  | some manager =>
    by_cases henabled : manager.isEnabled
    · cases hcompatible : requestType.compressionIncompatibilityReason with
      | some reason =>
        simp only [processCommandArgsForCompression, henabled, hcompatible] at hprocess
        contradiction
      | none =>
        rw [processCommandArgs_eq henabled hcompatible] at hprocess
        exact .inr ⟨manager, rfl, henabled, rfl, (Except.ok.inj hprocess).symm⟩
    · have hkept : ∀ args, processCommandArgsForCompression codecs args requestType
          (some manager) = .ok args := by
        intro args
        simp [processCommandArgsForCompression, henabled]
      exact .inl ⟨(Except.ok.inj ((hkept args).symm.trans hprocess)).symm, hkept⟩

/--
The number of arguments stays, and so does every argument that is no value.  A value is kept
or replaced by its compressed form, which is not longer.  Processing the result again does
not change it.
-/
theorem processCommandArgs_changes_only_values {manager : Option CompressionManager}
    {requestType : RequestType} {args processed : List Bytes}
    (hprocess : processCommandArgsForCompression codecs args requestType manager = .ok processed) :
    processed.length = args.length ∧
    (∀ index, ¬ requestType.isValuePosition index → processed[index]? = args[index]?) ∧
    (∀ index value, requestType.isValuePosition index → args[index]? = some value →
      ∃ stored, processed[index]? = some stored ∧ stored.length ≤ value.length ∧
        (stored = value ∨ ∃ enabled ∈ manager,
          compress codecs enabled.backend value enabled.config.compressionLevel = .ok stored)) ∧
    processCommandArgsForCompression codecs processed requestType manager = .ok processed := by
  rcases processCommandArgs_cases hprocess with
    ⟨rfl, hkept⟩ | ⟨enabled, rfl, henabled, hcompatible, rfl⟩
  · refine ⟨rfl, fun _ _ => rfl, ?_, hkept processed⟩
    exact fun index value _ hvalue => ⟨value, hvalue, Nat.le_refl _, .inl rfl⟩
  · have hdistinct := requestType.valueIndices_nodup args.length
    have hread := getElem?_changeAt hdistinct (enabled.compressValue codecs) args
    refine ⟨length_changeAt _ _ _, ?_, ?_, ?_⟩
    · intro index hother
      rw [hread]
      split_ifs with hmem
      · rcases Nat.lt_or_ge index args.length with hlt | hge
        · exact absurd ((RequestType.mem_valueIndices_iff hlt).mp hmem) hother
        · rw [List.getElem?_eq_none hge, Option.map_none]
      · rfl
    · intro index value hposition hvalue
      obtain ⟨hlt, -⟩ := List.getElem?_eq_some_iff.mp hvalue
      rw [hread, if_pos ((RequestType.mem_valueIndices_iff hlt).mpr hposition), hvalue]
      refine ⟨_, rfl, ?_⟩
      unfold CompressionManager.compressValue
      cases hcompressed : enabled.compressed codecs value with
      | none => exact ⟨Nat.le_refl _, .inl rfl⟩
      | some stored =>
        obtain ⟨-, hcompress⟩ := CompressionManager.compressed_eq_some hcompressed
        exact ⟨(length_lt_of_compressed hcompressed).le, .inr ⟨enabled, rfl, hcompress⟩⟩
    · rw [processCommandArgs_eq henabled hcompatible, length_changeAt,
        changeAt_changeAt hdistinct (compressValue_compressValue enabled)]

theorem mset_compresses_second_value :
    processCommandArgsForCompression packCodecs
        [bytes "k", bytes "v", bytes "l", List.replicate 64 7, bytes "m"] .mSet
        (some ⟨.zstd, .new .zstd⟩) =
      .ok [bytes "k", bytes "v", bytes "l", createHeader 1 ++ [1], bytes "m"] ∧
    processCommandArgsForCompression packCodecs
        [bytes "k", bytes "v", bytes "l", createHeader 1 ++ [1], bytes "m"] .mSet
        (some ⟨.zstd, .new .zstd⟩) =
      .ok [bytes "k", bytes "v", bytes "l", createHeader 1 ++ [1], bytes "m"] := by
  have hprocess : processCommandArgsForCompression packCodecs
      [bytes "k", bytes "v", bytes "l", List.replicate 64 7, bytes "m"] .mSet
      (some ⟨.zstd, .new .zstd⟩) =
        .ok [bytes "k", bytes "v", bytes "l", createHeader 1 ++ [1], bytes "m"] := by
    rfl
  exact ⟨hprocess, (processCommandArgs_changes_only_values hprocess).2.2.2⟩

end OnlyValues

end ValkeyGlide.Compression
