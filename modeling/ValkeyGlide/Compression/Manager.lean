import ValkeyGlide.Compression.Backend

/-!
# The compression manager

Which values are compressed on the way to the server, and how they are restored on the
way back (`compression.rs`).  Whether a value was compressed is not recorded; it is
recognised by its header.
-/

namespace ValkeyGlide.Compression

open Protocol

def defaultMaxDecompressedSize : Nat := 512 * 1024 * 1024

structure CompressionConfig where
  enabled : Bool
  backend : CompressionBackendType
  compressionLevel : Option Int
  minCompressionSize : Nat
  maxDecompressedSize : Option Nat
  deriving DecidableEq, Repr

namespace CompressionConfig

def new (backend : CompressionBackendType) : CompressionConfig :=
  ⟨true, backend, some backend.defaultLevel, 64, some defaultMaxDecompressedSize⟩

def validate (config : CompressionConfig) : CompressionResult Unit :=
  if config.minCompressionSize < minCompressedSize then
    .error (.invalidConfiguration config.backend.backendName
      s!"min_compression_size ({config.minCompressionSize}) must be at least {minCompressedSize}")
  else .ok ()

def shouldCompress (config : CompressionConfig) (dataSize : Nat) : Bool :=
  config.enabled && config.minCompressionSize ≤ dataSize

end CompressionConfig

structure CompressionManager where
  backend : CompressionBackendType
  config : CompressionConfig

def hexByte (byte : UInt8) : String :=
  let digit (number : Nat) : Char := Nat.digitChar number
  String.ofList [digit (byte.toNat / 16), digit (byte.toNat % 16)]

def getBackendForDecompression (backendId : UInt8) : CompressionResult CompressionBackendType :=
  if backendId = 0x01 then .ok .zstd
  else if backendId = 0x02 then .ok .lz4
  else .error (.unsupportedBackend ("backend ID 0x" ++ hexByte backendId))

namespace CompressionManager

variable (codecs : Codecs)

def new (backend : CompressionBackendType) (config : CompressionConfig) :
    CompressionResult CompressionManager := do
  config.validate
  if backend.backendId ≠ config.backend.backendId then
    throw (.invalidConfiguration config.backend.backendName
      (s!"backend mismatch: expected {config.backend.backendName} " ++
        s!"(id: {config.backend.backendId}), got backend with id {backend.backendId}"))
  validateCompressionLevel codecs backend config.compressionLevel
  return ⟨backend, config⟩

def compressed (manager : CompressionManager) (value : Bytes) : Option Bytes :=
  if !manager.config.enabled || !manager.config.shouldCompress value.length then none
  else if isCompressed manager.backend value then none
  else
    match compress codecs manager.backend value manager.config.compressionLevel with
    | .ok compressed => if compressed.length < value.length then some compressed else none
    | .error _ => none

def compressValue (manager : CompressionManager) (value : Bytes) : Bytes :=
  (manager.compressed codecs value).getD value

def decompressValueStream (manager : CompressionManager) (value : Bytes) : Production :=
  let kept : Production := ⟨.ok value, 0⟩
  if !manager.config.enabled then kept
  else if !hasMagicHeader value then kept
  else
    match extractBackendId value with
    | some backendId =>
      if backendId = manager.backend.backendId then
        decompress codecs manager.backend value manager.config.maxDecompressedSize
      else
        match getBackendForDecompression backendId with
        | .error error => .refuse error
        | .ok backend => decompress codecs backend value manager.config.maxDecompressedSize
    | none => kept

def decompressValue (manager : CompressionManager) (value : Bytes) : CompressionResult Bytes :=
  (manager.decompressValueStream codecs value).result

section RoundTrip

variable {codecs} {backend : CompressionBackendType} {config : CompressionConfig}
  {manager : CompressionManager} {value stored : Bytes}

theorem new_eq_ok (hnew : new codecs backend config = .ok manager) : manager = ⟨backend, config⟩ := by
  simp only [new, bind, Except.bind, pure, Except.pure] at hnew
  split at hnew
  · contradiction
  · split_ifs at hnew
    split at hnew
    · contradiction
    · exact (Except.ok.inj hnew).symm

theorem compressed_eq_some (hcompressed : manager.compressed codecs value = some stored) :
    manager.config.enabled ∧
      compress codecs manager.backend value manager.config.compressionLevel = .ok stored := by
  unfold compressed at hcompressed
  split_ifs at hcompressed with hskip
  refine ⟨by simp_all, ?_⟩
  split at hcompressed
  next result hresult =>
    split_ifs at hcompressed
    rw [hresult, Option.some.inj hcompressed]
  next => contradiction

theorem decompressValue_of_isCompressed (henabled : manager.config.enabled)
    (hstored : isCompressed manager.backend stored) :
    manager.decompressValue codecs stored =
      (decompress codecs manager.backend stored manager.config.maxDecompressedSize).result := by
  obtain ⟨hheader, hbackend⟩ := of_decide_eq_true hstored
  simp [decompressValue, decompressValueStream, henabled, hheader, hbackend]

theorem decompressValue_of_plain
    (hplain : manager.config.enabled = false ∨ hasMagicHeader value = false) :
    manager.decompressValue codecs value = .ok value := by
  rcases hplain with hdisabled | hheader
  · simp [decompressValue, decompressValueStream, hdisabled]
  · simp [decompressValue, decompressValueStream, hheader]

/--
A value that is stored as it is comes back, unless it starts like a compressed one.  A
value that is stored compressed comes back if the limit allows its size, and is refused
for its size otherwise.
-/
theorem decompressValue_compressValue (hinverts : codecs.Inverts)
    (hnew : new codecs backend config = .ok manager) (value : Bytes) :
    let restored := manager.decompressValue codecs (manager.compressValue codecs value)
    (manager.compressed codecs value = none →
      config.enabled = false ∨ hasMagicHeader value = false → restored = .ok value) ∧
    ∀ stored, manager.compressed codecs value = some stored →
      Restores backend value stored config.maxDecompressedSize restored := by
  obtain rfl := new_eq_ok hnew
  intro restored
  constructor
  · intro hnone hplain
    have hstored : compressValue codecs ⟨backend, config⟩ value = value := by
      rw [compressValue, hnone, Option.getD_none]
    show decompressValue codecs _ (compressValue codecs _ value) = _
    rw [hstored, decompressValue_of_plain hplain]
  · intro stored hsome
    have hstored : compressValue codecs ⟨backend, config⟩ value = stored := by
      rw [compressValue, hsome, Option.getD_some]
    obtain ⟨henabled, hcompress⟩ := compressed_eq_some hsome
    obtain ⟨hheader, hrestores⟩ := decompress_compress hinverts hcompress config.maxDecompressedSize
    show Restores _ _ _ _ (decompressValue codecs _ (compressValue codecs _ value))
    rw [hstored, decompressValue_of_isCompressed henabled hheader]
    exact hrestores

end RoundTrip

end CompressionManager

/-! ## A codec that compresses one value -/

def pack (data : Bytes) : Bytes := if data = List.replicate 64 7 then [1] else 0 :: data

def unpack : Bytes → Bytes
  | 0 :: data => data
  | _ => List.replicate 64 7

def decoderOf (data : Bytes) : Decoder := fun index =>
  .ok ⟨(data.drop (index * bufferSize)).take bufferSize, List.length_take_le ..⟩

def packCodecs : Codecs where
  zstdLevels := (-7, 22)
  zstdEncode data _ := .ok (pack data)
  zstdDecoder encoded := .ok (decoderOf (unpack encoded))
  zstdDecodeAll encoded := .ok (unpack encoded)
  lz4Compress data _ := .ok (pack data)
  lz4Decompress block size := .ok ⟨(unpack block).take size, List.length_take_le ..⟩

theorem unpack_pack (data : Bytes) : unpack (pack data) = data := by
  unfold pack
  split_ifs with hdata
  · exact hdata.symm
  · rfl

theorem decoderOf_reads (data : Bytes) (index : Nat) :
    (decoderOf data).Reads index (data.drop (index * bufferSize)) := by
  by_cases hend : data.drop (index * bufferSize) = []
  · rw [hend]
    exact .done rfl (by simp [hend])
  · have hmore : (decoderOf data).Reads index _ :=
      .more rfl (by simpa [bufferSize, Nat.sub_eq_zero_iff_le] using hend)
        (decoderOf_reads data (index + 1))
    rwa [Nat.succ_mul, ← List.drop_drop, List.take_append_drop] at hmore
termination_by data.length - index * bufferSize
decreasing_by
  have hlt : index * bufferSize < data.length := by simpa using hend
  simp only [bufferSize] at hlt ⊢
  omega

theorem packCodecs_inverts : packCodecs.Inverts where
  zstdDecoder data level encoded hencode := by
    cases hencode
    refine ⟨_, rfl, ?_⟩
    rw [unpack_pack]
    exact decoderOf_reads data 0
  zstdDecodeAll data level encoded hencode := by
    cases hencode
    exact congrArg Except.ok (unpack_pack data)
  lz4 data mode block hblock := by
    cases hblock
    simp [packCodecs, unpack_pack]

theorem packed_read {max : Nat} (hmax : 64 ≤ max) (stored : Bytes) :
    (readStream stored max (decoderOf (List.replicate 64 7)) 0 []).result =
      .ok (List.replicate 64 7) :=
  readStream_of_le (decoderOf_reads _ 0) (by simpa using hmax)

namespace CompressionManager

theorem header_or_size_not_restored :
    let manager : CompressionManager := ⟨.zstd, ⟨true, .zstd, some 3, 64, some 50⟩⟩
    packCodecs.Inverts ∧ new packCodecs manager.backend manager.config = .ok manager ∧
      manager.decompressValue packCodecs (manager.compressValue packCodecs [0, 1, 2, 0, 5]) =
        .error (.unsupportedBackend "backend ID 0x05") ∧
      manager.decompressValue packCodecs (manager.compressValue packCodecs [0, 1, 2, 0, 1, 0, 9]) =
        .ok [9] ∧
      manager.decompressValue packCodecs
          (manager.compressValue packCodecs (List.replicate 64 7)) =
        .error (.sizeLimitExceeded "zstd" 6 64 50) := by
  refine ⟨packCodecs_inverts, rfl, rfl, ?_, ?_⟩
  · show (readStream _ 50 (decoderOf [9]) 0 []).result = _
    simp [readStream, decoderOf, bufferSize]
  · show (readStream _ 50 (decoderOf (List.replicate 64 7)) 0 []).result = _
    rw [readStream]
    rfl

theorem compressible_value_restored :
    let manager : CompressionManager := ⟨.zstd, .new .zstd⟩
    manager.decompressValue packCodecs
      (manager.compressValue packCodecs (List.replicate 64 7)) = .ok (List.replicate 64 7) := by
  intro manager
  have hnew : new packCodecs .zstd (.new .zstd) = .ok manager := rfl
  obtain ⟨-, hcompressed⟩ := decompressValue_compressValue packCodecs_inverts hnew
    (List.replicate 64 7)
  exact (hcompressed _ rfl).within (by decide)

end CompressionManager

end ValkeyGlide.Compression
