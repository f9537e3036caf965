import ValkeyGlide.Compression.Arguments
import ValkeyGlide.Foundation.Loop
import ValkeyGlide.Scope.Connection

/-!
# Decompressing replies

What becomes of the values in a reply (`compression.rs`), and what the callers do when one of
them cannot be decompressed (`client/mod.rs`, `socket_listener.rs`).  The main result says for
which replies to a multi-value read and to a batch every value is read on its own.
-/

namespace ValkeyGlide.Compression

open Protocol Foundation

namespace CompressionError

def isIncompatibleCommand : CompressionError → Bool
  | incompatibleCommand _ _ => true
  | _ => false

def isSizeLimitExceeded : CompressionError → Bool
  | sizeLimitExceeded _ _ _ _ => true
  | _ => false

def shouldPropagate (error : CompressionError) : Bool :=
  error.isIncompatibleCommand || error.isSizeLimitExceeded

end CompressionError

def fromUtf8 (data : Bytes) : Option String := String.fromUTF8? ⟨data.toArray⟩

section Replies

variable (codecs : Codecs)

def decompressSingleValueResponse (manager : CompressionManager) :
    Value → CompressionResult Value
  | .bulkString data =>
    if !hasMagicHeader data then .ok (.bulkString data)
    else do
      let decompressed ← manager.decompressValue codecs data
      return .bulkString decompressed
  | .simpleString text =>
    if !hasMagicHeader (bytes text) then .ok (.simpleString text)
    else do
      let decompressed ← manager.decompressValue codecs (bytes text)
      match fromUtf8 decompressed with
      | some text => return .simpleString text
      | none => return .bulkString decompressed
  | value => .ok value

def decompressMGetResponse (manager : CompressionManager) : Value → CompressionResult Value
  | .array values => do
      return .array (← values.mapM (decompressSingleValueResponse codecs manager))
  | value => .ok value

def processResponseForDecompression (value : Value) (requestType : RequestType)
    (manager : Option CompressionManager) : CompressionResult Value :=
  match manager with
  | none => .ok value
  | some manager =>
    if !manager.isEnabled then .ok value
    else if requestType.compressionBehavior ≠ .decompressValues then .ok value
    else
      match value with
      | .nil => .ok .nil
      | value =>
        match requestType with
        | .get => decompressSingleValueResponse codecs manager value
        | .mGet => decompressMGetResponse codecs manager value
        | .getEx => decompressSingleValueResponse codecs manager value
        | .getDel => decompressSingleValueResponse codecs manager value
        | .getSet => decompressSingleValueResponse codecs manager value
        | _ => .ok value

mutual

def decompressBatchResponse (manager : CompressionManager) : Value → CompressionResult Value
  | .array responses =>
    if !manager.isEnabled then .ok (.array responses)
    else do return .array (← decompressBatchResponses manager responses)
  | other =>
    if !manager.isEnabled then .ok other
    else decompressSingleValueResponse codecs manager other

def decompressBatchResponses (manager : CompressionManager) :
    List Value → CompressionResult (List Value)
  | [] => .ok []
  | .array values :: rest => do
      let processed ← decompressBatchResponse manager (.array values)
      return processed :: (← decompressBatchResponses manager rest)
  | other :: rest => do
      let processed ← decompressSingleValueResponse codecs manager other
      return processed :: (← decompressBatchResponses manager rest)

end

/-! ## The callers -/

def extractRequestTypeFromCmd (cmd : Cmd) : Option RequestType := do
  let command := Scope.toUppercase (← cmd.command)
  if command = bytes "GET" then some .get
  else if command = bytes "MGET" then some .mGet
  else if command = bytes "GETEX" then some .getEx
  else if command = bytes "GETDEL" then some .getDel
  else if command = bytes "GETSET" then some .getSet
  else if command = bytes "SET" then
    let hasGetOption := (cmd.args.drop 3).any fun
      | .simple data => eqIgnoreAsciiCase data (bytes "GET")
      | .cursor => false
    if hasGetOption then some .getSet else none
  else none

def decompressionError (display : CompressionError → String) (error : CompressionError) :
    RedisError :=
  .withDescriptionAndDetail .ioError "Decompression error" (display error)

/-- The end of `execute_command_owned`: a reply that cannot be decompressed is kept as it is. -/
def processedValue (display : CompressionError → String) (manager : Option CompressionManager)
    (cmd : Cmd) (rawValue : Value) : RedisResult Value :=
  match manager with
  | none => .ok rawValue
  | some manager =>
    match extractRequestTypeFromCmd cmd with
    | none => .ok rawValue
    | some requestType =>
      match processResponseForDecompression codecs rawValue requestType (some manager) with
      | .ok decompressedValue => .ok decompressedValue
      | .error error =>
        if error.shouldPropagate then .error (decompressionError display error)
        else .ok rawValue

def processBatchResponseForDecompression (response : Value)
    (manager : Option CompressionManager) : CompressionResult Value :=
  match manager with
  | none => .ok response
  | some manager => decompressBatchResponse codecs manager response

def batchResult (manager : Option CompressionManager) (value : Value) : Value :=
  match processBatchResponseForDecompression codecs value manager with
  | .ok processedValue => processedValue
  | .error _ => value

end Replies

/-! ## Values in nested arrays -/

section Nested

mutual

def leaves : Value → List Value
  | .array values => leavesOf values
  | other => [other]

def leavesOf : List Value → List Value
  | [] => []
  | value :: rest => leaves value ++ leavesOf rest

end

mutual

def mapLeaves (change : Value → Value) : Value → Value
  | .array values => .array (mapLeavesOf change values)
  | other => change other

def mapLeavesOf (change : Value → Value) : List Value → List Value
  | [] => []
  | value :: rest => mapLeaves change value :: mapLeavesOf change rest

end

def isArray : Value → Bool
  | .array _ => true
  | _ => false

theorem array_induction {motive : Value → Prop}
    (harray : ∀ values, (∀ value ∈ values, motive value) → motive (.array values))
    (hleaf : ∀ value, isArray value = false → motive value) (value : Value) : motive value := by
  cases hvalue : isArray value with
  | false => exact hleaf value hvalue
  | true =>
    cases value with
    | array values => exact harray values fun inner hmem => array_induction harray hleaf inner
    | _ => contradiction
termination_by sizeOf value
decreasing_by
  have hlt := List.sizeOf_lt_of_mem hmem
  simp only [Value.array.sizeOf_spec]
  omega

theorem leaves_array (values : List Value) : leaves (.array values) = values.flatMap leaves := by
  rw [leaves]
  induction values with
  | nil => rfl
  | cons value rest ih => rw [leavesOf, ih, List.flatMap_cons]

variable {value : Value}

theorem leaves_leaf (hleaf : isArray value = false) : leaves value = [value] := by
  cases value with
  | array values => contradiction
  | _ => rfl

theorem mapLeaves_array (change : Value → Value) (values : List Value) :
    mapLeaves change (.array values) = .array (values.map (mapLeaves change)) := by
  rw [mapLeaves]
  congr 1
  induction values with
  | nil => rfl
  | cons value rest ih => rw [mapLeavesOf, ih, List.map_cons]

theorem mapLeaves_leaf (change : Value → Value) (hleaf : isArray value = false) :
    mapLeaves change value = change value := by
  cases value with
  | array values => contradiction
  | _ => rfl

theorem map_eq_self_iff {change : Value → Value} {values : List Value} :
    values.map change = values ↔ ∀ value ∈ values, change value = value := by
  have hall : values.map change = values.map id ↔ ∀ value ∈ values, change value = id value :=
    List.map_inj_left
  rwa [List.map_id] at hall

theorem mapLeaves_eq_self_iff (change : Value → Value) (value : Value) :
    mapLeaves change value = value ↔ ∀ leaf ∈ leaves value, change leaf = leaf := by
  induction value using array_induction with
  | harray values ih =>
    rw [mapLeaves_array, leaves_array, Value.array.injEq, map_eq_self_iff]
    simp only [List.mem_flatMap, forall_exists_index, and_imp]
    constructor
    · intro hsame leaf value hvalue
      exact (ih value hvalue).mp (hsame value hvalue) leaf
    · intro hsame value hvalue
      exact (ih value hvalue).mpr fun leaf => hsame leaf value hvalue
  | hleaf value hleaf =>
    rw [mapLeaves_leaf change hleaf, leaves_leaf hleaf, List.forall_mem_singleton]

end Nested

/-! ## Each value on its own -/

section Alone

variable (codecs : Codecs) (manager : Option CompressionManager)

def decompressOne (value : Value) : CompressionResult Value :=
  match manager with
  | none => .ok value
  | some manager => decompressSingleValueResponse codecs manager value

def readAlone (value : Value) : Value := resultOr (decompressOne codecs manager) id value

/-- Every value is read on its own, or one above the size limit fails the whole read. -/
def ReadsEachAlone (display : CompressionError → String) (values : List Value)
    (result : RedisResult Value) : Prop :=
  result = .ok (.array (values.map (readAlone codecs manager))) ∨
  ∃ value ∈ values, ∃ error, decompressOne codecs manager value = .error error ∧
    error.isSizeLimitExceeded ∧ result = .error (decompressionError display error)

def EveryKept (values : List Value) : Prop :=
  ∀ value ∈ values, readAlone codecs manager value = value

end Alone

section Disabled

variable {codecs : Codecs} {manager : CompressionManager}

theorem fromUtf8_bytes (text : String) : fromUtf8 (bytes text) = some text := by
  unfold fromUtf8 bytes
  rw [Array.toArray_toList]
  exact dif_pos text.isValidUTF8

theorem decompressSingle_of_disabled (hdisabled : ¬ manager.isEnabled) (value : Value) :
    decompressSingleValueResponse codecs manager value = .ok value := by
  have hvalue : ∀ data, manager.decompressValue codecs data = .ok data := fun data =>
    CompressionManager.decompressValue_of_plain (.inl (Bool.eq_false_iff.mpr hdisabled))
  unfold decompressSingleValueResponse
  split
  · rw [hvalue]
    split_ifs <;> rfl
  · rw [hvalue]
    split_ifs
    · rfl
    · simp [bind, Except.bind, fromUtf8_bytes, pure, Except.pure]
  · rfl

end Disabled

section Errors

/-- Decompressing never reports that a command is incompatible with compression. -/
def Compatible {α : Type} (result : CompressionResult α) : Prop :=
  ∀ error, result = .error error → error.isIncompatibleCommand = false

variable {codecs : Codecs} {data : Bytes} {α : Type}

theorem compatible_ok (value : α) : Compatible (.ok value) :=
  fun _ herror => by cases herror

theorem compatible_error {error : CompressionError} (hkind : error.isIncompatibleCommand = false) :
    Compatible (.error error : Except _ α) := by
  intro other hother
  rwa [← Except.error.inj hother]

theorem Compatible.bind {β : Type} {result : CompressionResult α} (hresult : Compatible result)
    {next : α → CompressionResult β} (hnext : ∀ value, Compatible (next value)) :
    Compatible (result >>= next) := by
  cases result with
  | error error => exact compatible_error (hresult error rfl)
  | ok value => exact hnext value

theorem readStream_compatible (max : Nat) (decoder : Decoder) (index : Nat) (acc : Bytes) :
    Compatible (readStream data max decoder index acc).result := by
  fun_induction readStream data max decoder index acc with
  | case1 => exact compatible_error rfl
  | case2 => exact compatible_ok _
  | case3 => exact compatible_error rfl
  | case4 _ _ _ _ _ _ _ ih => exact ih

theorem decompress_compatible (backend : CompressionBackendType) (maxSize : Option Nat) :
    Compatible (decompress codecs backend data maxSize).result := by
  cases backend with
  | zstd =>
    simp only [decompress, zstdDecompress]
    split_ifs
    · exact compatible_error rfl
    · split <;> split
      · exact compatible_error rfl
      · exact readStream_compatible _ _ 0 []
      · exact compatible_error rfl
      · exact compatible_ok _
  | lz4 =>
    simp only [decompress, lz4DecompressData]
    split_ifs
    · exact compatible_error rfl
    · exact compatible_error rfl
    · unfold lz4DecompressBlock
      split
      · exact compatible_error rfl
      · split_ifs
        · exact compatible_error rfl
        · split
          · exact compatible_error rfl
          · exact compatible_ok _

theorem decompressValue_compatible (manager : CompressionManager) :
    Compatible (manager.decompressValue codecs data) := by
  unfold CompressionManager.decompressValue CompressionManager.decompressValueStream
  dsimp only
  split_ifs
  · exact compatible_ok data
  · exact compatible_ok data
  · split
    next backendId _ =>
      split_ifs
      · exact decompress_compatible _ _
      · unfold getBackendForDecompression
        split_ifs
        · exact decompress_compatible _ _
        · exact decompress_compatible _ _
        · exact compatible_error rfl
    next => exact compatible_ok data

theorem decompressOne_compatible (manager : Option CompressionManager) (value : Value) :
    Compatible (decompressOne codecs manager value) := by
  cases manager with
  | none => exact compatible_ok value
  | some manager =>
    unfold decompressOne decompressSingleValueResponse
    dsimp only
    split
    · split_ifs
      · exact compatible_ok _
      · exact (decompressValue_compatible manager).bind fun _ => compatible_ok _
    · split_ifs
      · exact compatible_ok _
      · refine (decompressValue_compatible manager).bind fun decompressed => ?_
        split <;> exact compatible_ok _
    · exact compatible_ok _

end Errors

/-! ## The first failure decides -/

section ClosedForms

variable {codecs : Codecs} {manager : CompressionManager}

theorem decompressBatch_leaf (henabled : manager.isEnabled) {value : Value}
    (hleaf : isArray value = false) :
    decompressBatchResponse codecs manager value =
      decompressSingleValueResponse codecs manager value := by
  cases value with
  | array values => contradiction
  | _ => simp [decompressBatchResponse, henabled]

theorem decompressBatchResponses_cons (henabled : manager.isEnabled) (value : Value)
    (rest : List Value) :
    decompressBatchResponses codecs manager (value :: rest) = do
      let processed ← decompressBatchResponse codecs manager value
      return processed :: (← decompressBatchResponses codecs manager rest) := by
  cases value with
  | array values => rw [decompressBatchResponses]
  | _ =>
    rw [decompressBatch_leaf henabled rfl]
    rfl

theorem decompressBatch_eq (henabled : manager.isEnabled) (response : Value) :
    let single := decompressSingleValueResponse codecs manager
    decompressBatchResponse codecs manager response =
      (firstError single (leaves response)).elim
        (.ok (mapLeaves (resultOr single id) response)) .error := by
  intro single
  induction response using array_induction with
  | hleaf value hleaf =>
    rw [decompressBatch_leaf henabled hleaf, leaves_leaf hleaf, mapLeaves_leaf _ hleaf]
    show single value = _
    simp only [firstError, resultOr]
    cases hsingle : single value <;> simp [hsingle]
  | harray values ih =>
    have hlist : decompressBatchResponses codecs manager values =
        (firstError single (values.flatMap leaves)).elim
          (.ok (values.map (mapLeaves (resultOr single id)))) .error := by
      induction values with
      | nil => rfl
      | cons value rest ihRest =>
        rw [decompressBatchResponses_cons henabled, ih value (List.mem_cons_self ..),
          ihRest fun value hmem => ih value (List.mem_cons_of_mem _ hmem),
          List.flatMap_cons, firstError_append]
        cases firstError single (leaves value) with
        | some error => rfl
        | none => cases firstError single (rest.flatMap leaves) <;> rfl
    rw [decompressBatchResponse, hlist, leaves_array, mapLeaves_array]
    simp only [henabled, Bool.not_true, Bool.false_eq_true, if_false]
    cases firstError single (values.flatMap leaves) <;> rfl

theorem decompressMGet_eq (values : List Value) :
    let single := decompressSingleValueResponse codecs manager
    decompressMGetResponse codecs manager (.array values) =
      (firstError single values).elim (.ok (.array (values.map (resultOr single id)))) .error := by
  intro single
  rw [decompressMGetResponse, mapM_eq_firstError id]
  show (do return Value.array (← (firstError single values).elim _ _)) = _
  cases firstError single values <;> rfl

theorem decompressOne_some : decompressOne codecs (some manager) =
    decompressSingleValueResponse codecs manager := rfl

variable {manager : Option CompressionManager}

theorem firstError_of_unchanged (hone : ∀ value, decompressOne codecs manager value = .ok value)
    (values : List Value) : firstError (decompressOne codecs manager) values = none :=
  firstError_eq_none_iff.mpr fun value _ => ⟨value, hone value⟩

theorem readAlone_of_unchanged (hone : ∀ value, decompressOne codecs manager value = .ok value)
    (value : Value) : readAlone codecs manager value = value := by
  rw [readAlone, resultOr, hone]

theorem processedValue_mGet (display : CompressionError → String) {cmd : Cmd}
    (hcmd : extractRequestTypeFromCmd cmd = some .mGet) (values : List Value) :
    processedValue codecs display manager cmd (.array values) =
      (firstError (decompressOne codecs manager) values).elim
        (.ok (.array (values.map (readAlone codecs manager))))
        fun error =>
          if error.shouldPropagate then .error (decompressionError display error)
          else .ok (.array values) := by
  have hkept : (∀ value, decompressOne codecs manager value = .ok value) →
      values.map (readAlone codecs manager) = values := fun hone =>
    map_eq_self_iff.mpr fun value _ => readAlone_of_unchanged hone value
  cases manager with
  | none =>
    have hone : ∀ value, decompressOne codecs none value = .ok value := fun _ => rfl
    rw [firstError_of_unchanged hone, hkept hone]
    rfl
  | some manager =>
    by_cases henabled : manager.isEnabled
    · simp only [processedValue, hcmd, processResponseForDecompression, henabled, Bool.not_true,
        Bool.false_eq_true, if_false, RequestType.compressionBehavior, ne_eq, not_true_eq_false,
        decompressMGet_eq]
      rw [decompressOne_some]
      cases firstError (decompressSingleValueResponse codecs manager) values <;> rfl
    · have hone : ∀ value, decompressOne codecs (some manager) value = .ok value :=
        decompressSingle_of_disabled henabled
      rw [firstError_of_unchanged hone, hkept hone]
      simp [processedValue, hcmd, processResponseForDecompression, henabled]

theorem batchResult_eq (response : Value) :
    batchResult codecs manager response =
      (firstError (decompressOne codecs manager) (leaves response)).elim
        (mapLeaves (readAlone codecs manager) response) fun _ => response := by
  have hkept : (∀ value, decompressOne codecs manager value = .ok value) →
      mapLeaves (readAlone codecs manager) response = response := fun hone =>
    (mapLeaves_eq_self_iff _ response).mpr fun leaf _ => readAlone_of_unchanged hone leaf
  cases manager with
  | none =>
    have hone : ∀ value, decompressOne codecs none value = .ok value := fun _ => rfl
    rw [firstError_of_unchanged hone, hkept hone]
    rfl
  | some manager =>
    by_cases henabled : manager.isEnabled
    · simp only [batchResult, processBatchResponseForDecompression, decompressBatch_eq henabled]
      rw [decompressOne_some]
      cases firstError (decompressSingleValueResponse codecs manager) (leaves response) <;> rfl
    · have hone : ∀ value, decompressOne codecs (some manager) value = .ok value :=
        decompressSingle_of_disabled henabled
      have hsame : decompressBatchResponse codecs manager response = .ok response := by
        cases response <;> simp [decompressBatchResponse, henabled]
      rw [firstError_of_unchanged hone, hkept hone]
      simp [batchResult, processBatchResponseForDecompression, hsame]

end ClosedForms

/-! ## When values are read on their own -/

section Independent

variable {codecs : Codecs} {manager : Option CompressionManager}

theorem shouldPropagate_of_firstError {values : List Value} {error : CompressionError}
    (hfirst : firstError (decompressOne codecs manager) values = some error) :
    error.shouldPropagate = error.isSizeLimitExceeded := by
  obtain ⟨value, -, hvalue⟩ := exists_of_firstError hfirst
  rw [CompressionError.shouldPropagate, decompressOne_compatible manager value error hvalue,
    Bool.false_or]

theorem mget_read_alone_iff {display : CompressionError → String} {cmd : Cmd}
    (hcmd : extractRequestTypeFromCmd cmd = some .mGet) (values : List Value) :
    ReadsEachAlone codecs manager display values
        (processedValue codecs display manager cmd (.array values)) ↔
      EveryKept codecs manager values ∨
      ∀ error, firstError (decompressOne codecs manager) values = some error →
        error.isSizeLimitExceeded := by
  rw [processedValue_mGet display hcmd]
  cases hfirst : firstError (decompressOne codecs manager) values with
  | none =>
    refine ⟨fun _ => .inr fun _ hsome => ?_, fun _ => .inl rfl⟩
    contradiction
  | some error =>
    obtain ⟨value, hmem, hvalue⟩ := exists_of_firstError hfirst
    simp only [Option.elim_some, shouldPropagate_of_firstError hfirst]
    split_ifs with hlimit
    · refine ⟨fun _ => .inr fun other hother => ?_, fun _ => .inr ?_⟩
      · rwa [← Option.some.inj hother]
      · exact ⟨value, hmem, error, hvalue, hlimit, rfl⟩
    · rw [EveryKept, ← map_eq_self_iff]
      constructor
      · rintro (hsame | ⟨_, _, _, _, _, herror⟩)
        · exact .inl (Value.array.inj (Except.ok.inj hsame)).symm
        · contradiction
      · rintro (hsame | hall)
        · exact .inl (by rw [hsame])
        · exact absurd (hall error rfl) hlimit

theorem batch_read_alone_iff (response : Value) :
    batchResult codecs manager response = mapLeaves (readAlone codecs manager) response ↔
      EveryKept codecs manager (leaves response) ∨
      ∀ value ∈ leaves response, ∃ decompressed,
        decompressOne codecs manager value = .ok decompressed := by
  rw [batchResult_eq, ← firstError_eq_none_iff]
  cases hfirst : firstError (decompressOne codecs manager) (leaves response) with
  | none => exact ⟨fun _ => .inr rfl, fun _ => rfl⟩
  | some error =>
    have hkept := mapLeaves_eq_self_iff (readAlone codecs manager) response
    simp only [Option.elim_some, reduceCtorEq, or_false]
    exact eq_comm.trans hkept

/--
The values of a multi-value read are read on their own exactly when all of them are stored
as they are read, or the first one that cannot be decompressed, if there is one, exceeds the
size limit.  Those of a batch are read on their own exactly when all of them are stored as
they are read, or each of them can be decompressed.
-/
theorem values_read_alone_iff (codecs : Codecs) (display : CompressionError → String)
    (manager : Option CompressionManager) {cmd : Cmd}
    (hcmd : extractRequestTypeFromCmd cmd = some .mGet) (values : List Value) (response : Value) :
    (ReadsEachAlone codecs manager display values
        (processedValue codecs display manager cmd (.array values)) ↔
      EveryKept codecs manager values ∨
      ∀ error, firstError (decompressOne codecs manager) values = some error →
        error.isSizeLimitExceeded) ∧
    (batchResult codecs manager response = mapLeaves (readAlone codecs manager) response ↔
      EveryKept codecs manager (leaves response) ∨
      ∀ value ∈ leaves response, ∃ decompressed,
        decompressOne codecs manager value = .ok decompressed) :=
  ⟨mget_read_alone_iff hcmd values, batch_read_alone_iff response⟩

theorem packed_decompressOne :
    decompressOne packCodecs (some ⟨.zstd, .new .zstd⟩) (.bulkString (createHeader 1 ++ [1])) =
      .ok (.bulkString (List.replicate 64 7)) :=
  congrArg (Except.map Value.bulkString) (packed_read (by decide) (createHeader 1 ++ [1]))

theorem mget_of_readable_values_read_alone :
    let manager : Option CompressionManager := some ⟨.zstd, .new .zstd⟩
    let cmd := Cmd.ofBytes [bytes "mget", bytes "first", bytes "second"]
    let values : List Value := [.bulkString (createHeader 1 ++ [1]), .bulkString (bytes "plain")]
    ReadsEachAlone packCodecs manager (fun _ => "") values
        (processedValue packCodecs (fun _ => "") manager cmd (.array values)) ∧
      batchResult packCodecs manager (.array values) =
        mapLeaves (readAlone packCodecs manager) (.array values) := by
  intro manager cmd values
  have hcmd : extractRequestTypeFromCmd cmd = some .mGet := by decide +kernel
  have hfirst : firstError (decompressOne packCodecs manager) values = none :=
    firstError_cons_of_ok packed_decompressOne _
  obtain ⟨hread, hbatch⟩ :=
    values_read_alone_iff packCodecs (fun _ => "") manager hcmd values (.array values)
  refine ⟨hread.mpr (.inr fun error herror => ?_), hbatch.mpr (.inr ?_)⟩
  · rw [hfirst] at herror
    contradiction
  · exact firstError_eq_none_iff.mp hfirst

theorem undecodable_value_keeps_others_compressed :
    let manager : Option CompressionManager := some ⟨.zstd, .new .zstd⟩
    let cmd := Cmd.ofBytes [bytes "MGET", bytes "first", bytes "second"]
    let values : List Value := [.bulkString (createHeader 1 ++ [1]), .bulkString (createHeader 5)]
    let result := processedValue packCodecs (fun _ => "") manager cmd (.array values)
    values.map (readAlone packCodecs manager) =
        [.bulkString (List.replicate 64 7), .bulkString (createHeader 5)] ∧
      result = .ok (.array values) ∧
      ¬ ReadsEachAlone packCodecs manager (fun _ => "") values result ∧
      batchResult packCodecs manager (.array values) = .array values := by
  intro manager cmd values result
  have halone : values.map (readAlone packCodecs manager) =
      [.bulkString (List.replicate 64 7), .bulkString (createHeader 5)] := by
    simp only [values, manager, List.map_cons, readAlone, resultOr, packed_decompressOne]
    rfl
  have hcmd : extractRequestTypeFromCmd cmd = some .mGet := by decide +kernel
  have hfirst : firstError (decompressOne packCodecs manager) values =
      some (.unsupportedBackend "backend ID 0x05") := firstError_cons_of_ok packed_decompressOne _
  have hresult : result = .ok (.array values) := by
    show processedValue packCodecs (fun _ => "") manager cmd (.array values) = _
    rw [processedValue_mGet _ hcmd, hfirst]
    rfl
  have hbatch : batchResult packCodecs manager (.array values) = .array values := by
    rw [batchResult_eq, show leaves (.array values) = values from rfl, hfirst]
    rfl
  refine ⟨halone, hresult, ?_, hbatch⟩
  rw [hresult]
  rintro (hsame | ⟨_, _, _, _, _, herror⟩)
  · rw [halone] at hsame
    simp [values, createHeader, createHeaderWithVersion, magicPrefix] at hsame
  · contradiction

end Independent

end ValkeyGlide.Compression
