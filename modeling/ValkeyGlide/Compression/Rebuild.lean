import ValkeyGlide.Compression.Arguments
import ValkeyGlide.Protocol.StoredCommand
import ValkeyGlide.Scope.Connection

/-!
# Rebuilding a command

Before a command is sent, it is emptied and built again from its arguments with the values
compressed (`process_command_for_compression` in `socket_listener.rs`).  The main result says
which commands come out with nothing but their values changed.
-/

namespace ValkeyGlide.Compression

open Protocol Foundation

def compressionCommands : List (String × RequestType) :=
  [("SET", .set), ("MSET", .mSet), ("MSETNX", .mSetNX), ("SETEX", .setEx), ("PSETEX", .pSetEx),
    ("SETNX", .setNX),
    ("APPEND", .append), ("GETRANGE", .getRange), ("SETRANGE", .setRange), ("STRLEN", .strlen),
    ("LCS", .lcs), ("SUBSTR", .substr), ("DELIFEQ", .delIfEq),
    ("INCR", .incr), ("INCRBY", .incrBy), ("INCRBYFLOAT", .incrByFloat), ("DECR", .decr),
    ("DECRBY", .decrBy),
    ("GETBIT", .getBit), ("SETBIT", .setBit), ("BITCOUNT", .bitCount), ("BITPOS", .bitPos),
    ("BITFIELD", .bitField), ("BITFIELD_RO", .bitFieldReadOnly), ("BITOP", .bitOp)]

def compressionRequestType (commandName : Bytes) : Option RequestType :=
  (compressionCommands.find? fun entry => bytes entry.1 = Scope.toUppercase commandName).map
    Prod.snd

def rebuild (commandName : Bytes) (args : List Bytes) : StoredCmd :=
  args.foldl StoredCmd.writeArg (StoredCmd.new.writeArg commandName)

/-- The command afterwards, and the error if it is refused. -/
def processCommandForCompression (codecs : Codecs) (cmd : StoredCmd)
    (manager : Option CompressionManager) : StoredCmd × CompressionResult Unit :=
  if (manager.map fun manager => !manager.isEnabled).getD true then (cmd, .ok ())
  else
    -- cursor arguments are skipped
    match cmd.toCmd.data with
    | [] => (cmd, .ok ())
    | commandName :: rest =>
      match compressionRequestType commandName with
      | none => (cmd, .ok ())
      | some requestType =>
        let args := do
          validateCommandCompressionCompatibility requestType manager
          processCommandArgsForCompression codecs rest requestType manager
        match args with
        | .error error => (cmd, .error error)
        | .ok args => (rebuild commandName args, .ok ())

/-! ## What is built -/

@[simp] theorem argsIter_foldl_writeArg (cmd : StoredCmd) (args : List Bytes) :
    (args.foldl StoredCmd.writeArg cmd).argsIter = cmd.argsIter ++ args.map .simple := by
  induction args generalizing cmd with
  | nil => simp
  | cons arg rest ih => simp [ih]

@[simp] theorem attributes_foldl_writeArg (cmd : StoredCmd) (args : List Bytes) :
    (args.foldl StoredCmd.writeArg cmd).toCmdAttributes = cmd.toCmdAttributes := by
  induction args generalizing cmd with
  | nil => rfl
  | cons arg rest ih => simp [ih]

@[simp] theorem cursor_foldl_writeArg (cmd : StoredCmd) (args : List Bytes) :
    (args.foldl StoredCmd.writeArg cmd).cursor = cmd.cursor := by
  induction args generalizing cmd with
  | nil => rfl
  | cons arg rest ih => simp [ih]

theorem argsIter_rebuild (commandName : Bytes) (args : List Bytes) :
    (rebuild commandName args).argsIter = (commandName :: args).map .simple := by
  simp only [rebuild, argsIter_foldl_writeArg, StoredCmd.argsIter_writeArg, List.map_cons]
  rfl

theorem attributes_rebuild (commandName : Bytes) (args : List Bytes) :
    (rebuild commandName args).toCmdAttributes = {} := by
  rw [rebuild, attributes_foldl_writeArg, StoredCmd.attributes_writeArg]
  rfl

theorem cursor_rebuild (commandName : Bytes) (args : List Bytes) :
    (rebuild commandName args).cursor = none := by
  rw [rebuild, cursor_foldl_writeArg, StoredCmd.cursor_writeArg]
  rfl

/-- A command that compression is meant for, while compression is on. -/
def IsRebuilt (manager : Option CompressionManager) (cmd : StoredCmd) : Prop :=
  (∃ enabled ∈ manager, enabled.isEnabled) ∧
  ∃ commandName ∈ cmd.toCmd.data.head?, ∃ requestType ∈ compressionRequestType commandName,
    requestType.compressionBehavior = .compressValues

theorem compressValues_iff_of_compressionRequestType {commandName : Bytes}
    {requestType : RequestType} (htype : compressionRequestType commandName = some requestType) :
    requestType.compressionBehavior = .compressValues ↔
      requestType.compressionIncompatibilityReason = none := by
  have hall : ∀ entry ∈ compressionCommands,
      (entry.2.compressionBehavior = .compressValues ↔
        entry.2.compressionIncompatibilityReason = none) := by decide
  obtain ⟨entry, hfind, rfl⟩ := Option.map_eq_some_iff.mp htype
  exact hall entry (List.mem_of_find?_eq_some hfind)

section Cases

variable {cmd : StoredCmd}

theorem not_isRebuilt_of_disabled {disabled : CompressionManager} (hdisabled : ¬ disabled.isEnabled) :
    ¬ IsRebuilt (some disabled) cmd := by
  rintro ⟨⟨enabled, henabled, hon⟩, -⟩
  cases henabled
  exact hdisabled hon

theorem isRebuilt_iff {enabled : CompressionManager} (henabled : enabled.isEnabled)
    {commandName : Bytes} {rest : List Bytes} (hdata : cmd.toCmd.data = commandName :: rest) :
    IsRebuilt (some enabled) cmd ↔ ∃ requestType ∈ compressionRequestType commandName,
      requestType.compressionBehavior = .compressValues := by
  unfold IsRebuilt
  rw [hdata]
  simp [henabled]

theorem processCommandForCompression_cases (codecs : Codecs) (cmd : StoredCmd)
    (manager : Option CompressionManager) :
    (¬ IsRebuilt manager cmd ∧ (processCommandForCompression codecs cmd manager).1 = cmd) ∨
    ∃ enabled commandName rest requestType, manager = some enabled ∧
      cmd.toCmd.data = commandName :: rest ∧
      compressionRequestType commandName = some requestType ∧
      IsRebuilt manager cmd ∧
      (processCommandForCompression codecs cmd manager).1 = rebuild commandName
        (changeAt (requestType.valueIndices rest.length) (enabled.compressValue codecs) rest) := by
  cases manager with
  | none => exact .inl ⟨fun ⟨⟨_, hmem, _⟩, _⟩ => by simp at hmem, rfl⟩
  | some enabled =>
    by_cases henabled : enabled.isEnabled
    · cases hdata : cmd.toCmd.data with
      | nil =>
        refine .inl ⟨?_, ?_⟩
        · rintro ⟨-, commandName, hname, -⟩
          rw [hdata] at hname
          contradiction
        · simp [processCommandForCompression, henabled, hdata]
      | cons commandName rest =>
        have hrebuilt := isRebuilt_iff henabled hdata
        cases htype : compressionRequestType commandName with
        | none =>
          refine .inl ⟨?_, by simp [processCommandForCompression, henabled, hdata, htype]⟩
          rw [hrebuilt, htype]
          simp
        | some requestType =>
          rw [htype] at hrebuilt
          have hvalues := compressValues_iff_of_compressionRequestType htype
          cases hreason : requestType.compressionIncompatibilityReason with
          | some reason =>
            refine .inl ⟨?_, ?_⟩
            · simp [hrebuilt, hvalues, hreason]
            · simp [processCommandForCompression, henabled, hdata, htype,
                validateCommandCompressionCompatibility, hreason, bind, Except.bind]
          | none =>
            refine .inr ⟨enabled, commandName, rest, requestType, rfl, rfl, htype, ?_, ?_⟩
            · simp [hrebuilt, hvalues, hreason]
            · simp [processCommandForCompression, henabled, hdata, htype,
                processCommandArgs_eq henabled hreason rest,
                validateCommandCompressionCompatibility, hreason, bind, Except.bind]
    · refine .inl ⟨not_isRebuilt_of_disabled henabled, ?_⟩
      simp [processCommandForCompression, henabled]

end Cases

/-! ## What stays -/

/--
The attributes and the cursor stay, and so does every argument, except that a value may be
replaced by its compressed form.
-/
structure OnlyValuesChanged (codecs : Codecs) (manager : Option CompressionManager)
    (cmd after : StoredCmd) : Prop where
  attributes : after.toCmdAttributes = cmd.toCmdAttributes
  cursor : after.cursor = cmd.cursor
  count : after.argsIter.length = cmd.argsIter.length
  args : ∀ index (arg : Arg), cmd.argsIter[index]? = some arg →
    after.argsIter[index]? = some arg ∨
    ∃ enabled ∈ manager, ∃ commandName requestType position value stored,
      cmd.argsIter.head? = some (.simple commandName) ∧
      compressionRequestType commandName = some requestType ∧
      index = position + 1 ∧ requestType.isValuePosition position ∧
      arg = .simple value ∧ enabled.compressed codecs value = some stored ∧
      after.argsIter[index]? = some (.simple stored)

theorem onlyValuesChanged_refl (codecs : Codecs) (manager : Option CompressionManager)
    (cmd : StoredCmd) : OnlyValuesChanged codecs manager cmd cmd :=
  ⟨rfl, rfl, rfl, fun _ _ harg => .inl harg⟩

theorem cursor_not_mem_iff (args : List Arg) :
    .cursor ∉ args ↔ (Cmd.mk args).data.length = args.length := by
  rw [Cmd.data, List.filterMap_length_eq_length]
  constructor
  · intro hcursor arg hmem
    cases arg with
    | simple data => rfl
    | cursor => exact absurd hmem hcursor
  · intro hall hmem
    exact absurd (hall .cursor hmem) Bool.false_ne_true

theorem map_simple_data {args : List Arg} (hcursor : .cursor ∉ args) :
    (Cmd.mk args).data.map .simple = args := by
  induction args with
  | nil => rfl
  | cons arg rest ih =>
    cases arg with
    | simple data =>
      have hrest := ih fun hmem => hcursor (List.mem_cons_of_mem _ hmem)
      exact congrArg (.simple data :: ·) hrest
    | cursor => exact absurd (List.mem_cons_self ..) hcursor

section Rebuilt

variable {codecs : Codecs} {enabled : CompressionManager} {cmd : StoredCmd}

theorem rebuild_onlyValuesChanged {commandName : Bytes} {rest : List Bytes}
    {requestType : RequestType} (hdata : cmd.argsIter = (commandName :: rest).map .simple)
    (htype : compressionRequestType commandName = some requestType)
    (hattributes : cmd.toCmdAttributes = {}) (hcursor : cmd.cursor = none) :
    OnlyValuesChanged codecs (some enabled) cmd (rebuild commandName
      (changeAt (requestType.valueIndices rest.length) (enabled.compressValue codecs) rest)) := by
  constructor
  · rw [attributes_rebuild, hattributes]
  · rw [cursor_rebuild, hcursor]
  · rw [argsIter_rebuild, hdata]
    simp
  · intro index arg harg
    rw [hdata] at harg ⊢
    rw [argsIter_rebuild]
    cases index with
    | zero => exact .inl harg
    | succ position =>
      simp only [List.map_cons, List.getElem?_cons_succ, List.getElem?_map,
        getElem?_changeAt (requestType.valueIndices_nodup _)] at harg ⊢
      obtain ⟨value, hvalue, rfl⟩ := Option.map_eq_some_iff.mp harg
      obtain ⟨hlt, -⟩ := List.getElem?_eq_some_iff.mp hvalue
      rw [hvalue]
      split_ifs with hposition
      · cases hcompressed : enabled.compressed codecs value with
        | none => exact .inl (by simp [CompressionManager.compressValue, hcompressed])
        | some stored =>
          refine .inr ⟨enabled, rfl, commandName, requestType, position, value, stored, rfl,
            htype, rfl, (RequestType.mem_valueIndices_iff hlt).mp hposition, rfl,
            hcompressed, ?_⟩
          simp [CompressionManager.compressValue, hcompressed]
      · exact .inl rfl

end Rebuilt

/--
A command comes out with only its values changed exactly when it is not one that is built
again, or it has neither a cursor nor any attribute that differs from that of a new command.
-/
theorem processCommand_changes_only_values_iff (codecs : Codecs) (cmd : StoredCmd)
    (manager : Option CompressionManager) :
    OnlyValuesChanged codecs manager cmd (processCommandForCompression codecs cmd manager).1 ↔
      (IsRebuilt manager cmd →
        cmd.toCmdAttributes = {} ∧ cmd.cursor = none ∧ .cursor ∉ cmd.argsIter) := by
  rcases processCommandForCompression_cases codecs cmd manager with
    ⟨hleft, hsame⟩ | ⟨enabled, commandName, rest, requestType, rfl, hdata, htype, hrebuilt, hnew⟩
  · rw [hsame]
    exact ⟨fun _ hrebuilt => absurd hrebuilt hleft, fun _ => onlyValuesChanged_refl _ _ _⟩
  · rw [hnew]
    constructor
    · intro hchanged _
      refine ⟨?_, ?_, (cursor_not_mem_iff cmd.argsIter).mpr ?_⟩
      · rw [← hchanged.attributes, attributes_rebuild]
      · rw [← hchanged.cursor, cursor_rebuild]
      · rw [← hchanged.count, argsIter_rebuild]
        show cmd.toCmd.data.length = _
        rw [hdata]
        simp
    · intro hplain
      obtain ⟨hattributes, hcursor, hargs⟩ := hplain hrebuilt
      refine rebuild_onlyValuesChanged ?_ htype hattributes hcursor
      rw [← hdata]
      exact (map_simple_data hargs).symm

theorem traced_set_loses_span :
    let manager : CompressionManager := ⟨.zstd, .new .zstd⟩
    let cmd := { rebuild (bytes "SET") [bytes "key", bytes "value"] with span := some 7 }
    let after := (processCommandForCompression packCodecs cmd (some manager)).1
    after.argsIter = cmd.argsIter ∧ after.span = none ∧
      ¬ OnlyValuesChanged packCodecs (some manager) cmd after := by
  intro manager cmd after
  have hspan : after.span = none := by decide +kernel
  refine ⟨by decide +kernel, hspan, fun hchanged => ?_⟩
  have hkept : after.span = some 7 := congrArg CmdAttributes.span hchanged.attributes
  rw [hspan] at hkept
  contradiction

end ValkeyGlide.Compression
