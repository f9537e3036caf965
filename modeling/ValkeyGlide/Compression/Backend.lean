import ValkeyGlide.Foundation.LittleEndian
import ValkeyGlide.Protocol.Value

/-!
# Compression backends

The format of compressed values and the two backends that write and read it
(`compression.rs`).  The compression libraries themselves are parameters; a text that
they report is kept as it is.
-/

namespace ValkeyGlide.Compression

open Foundation Protocol

inductive CompressionError where
  | compressionFailed (backend : String) (level : Option Int) (dataSize : Nat) (reason : String)
  | decompressionFailed (backend : String) (dataSize : Nat) (reason : String)
  | sizeLimitExceeded (backend : String) (compressedSize decompressedSize maxSize : Nat)
  | unsupportedBackend (backendName : String)
  | invalidConfiguration (backend reason : String)
  | incompatibleCommand (command reason : String)
  deriving DecidableEq, Repr

abbrev CompressionResult := Except CompressionError

inductive CompressionBackendType where
  | zstd
  | lz4
  deriving DecidableEq, Repr

namespace CompressionBackendType

def backendId : CompressionBackendType → UInt8
  | zstd => 0x01
  | lz4 => 0x02

def backendName : CompressionBackendType → String
  | zstd => "zstd"
  | lz4 => "lz4"

def defaultLevel : CompressionBackendType → Int
  | zstd => 3
  | lz4 => 0

end CompressionBackendType

/-! ## The header -/

def magicPrefix : Bytes := [0x00, 0x01, 0x02]

def currentVersion : UInt8 := 0x00

def headerSize : Nat := 5

def minCompressedSize : Nat := headerSize + 1

def hasMagicHeader (data : Bytes) : Bool :=
  headerSize ≤ data.length ∧ data.take 3 = magicPrefix

def extractBackendId (data : Bytes) : Option UInt8 :=
  if hasMagicHeader data then data[4]? else none

def createHeaderWithVersion (backendId version : UInt8) : Bytes :=
  magicPrefix ++ [version, backendId]

def createHeader (backendId : UInt8) : Bytes := createHeaderWithVersion backendId currentVersion

@[simp] theorem hasMagicHeader_createHeader (backendId : UInt8) (data : Bytes) :
    hasMagicHeader (createHeader backendId ++ data) = true := by
  simp [hasMagicHeader, createHeader, createHeaderWithVersion, magicPrefix, headerSize]

@[simp] theorem extractBackendId_createHeader (backendId : UInt8) (data : Bytes) :
    extractBackendId (createHeader backendId ++ data) = some backendId := by
  rw [extractBackendId, hasMagicHeader_createHeader]
  rfl

@[simp] theorem drop_createHeader (backendId : UInt8) (data : Bytes) :
    (createHeader backendId ++ data).drop headerSize = data := rfl

/-! ## The libraries -/

inductive Lz4Mode where
  | highCompression (level : Int)
  | fast (acceleration : Int)
  | default
  deriving DecidableEq, Repr

def bufferSize : Nat := 8192

abbrev Chunk := { chunk : Bytes // chunk.length ≤ bufferSize }

/-- What the reads from a decoder give, one after the other; an empty chunk is the end. -/
abbrev Decoder := Nat → Except String Chunk

inductive Decoder.Reads (decoder : Decoder) : Nat → Bytes → Prop where
  | done {index : Nat} {chunk : Chunk} (hread : decoder index = .ok chunk)
      (hend : chunk.val.length = 0) : Reads decoder index []
  | more {index : Nat} {chunk : Chunk} {rest : Bytes} (hread : decoder index = .ok chunk)
      (hmore : chunk.val.length ≠ 0) (hrest : Reads decoder (index + 1) rest) :
      Reads decoder index (chunk.val ++ rest)

/-- A decoder need not ever end.  The block codec returns at most as many bytes as it is told. -/
structure Codecs where
  zstdLevels : Int × Int
  zstdEncode : Bytes → Int → Except String Bytes
  zstdDecoder : Bytes → Except String Decoder
  zstdDecodeAll : Bytes → Except String Bytes
  lz4Compress : Bytes → Lz4Mode → Except String Bytes
  lz4Decompress : Bytes → (size : Nat) → Except String { output : Bytes // output.length ≤ size }

structure Codecs.Inverts (codecs : Codecs) : Prop where
  zstdDecoder : ∀ data level encoded, codecs.zstdEncode data level = .ok encoded →
    ∃ decoder, codecs.zstdDecoder encoded = .ok decoder ∧ decoder.Reads 0 data
  zstdDecodeAll : ∀ data level encoded, codecs.zstdEncode data level = .ok encoded →
    codecs.zstdDecodeAll encoded = .ok data
  lz4 : ∀ data mode block, codecs.lz4Compress data mode = .ok block →
    codecs.lz4Decompress block data.length = .ok ⟨data, Nat.le_refl _⟩

/-! ## The backends -/

def i32Max : Nat := 2147483647

def isCompressed (backend : CompressionBackendType) (data : Bytes) : Bool :=
  hasMagicHeader data ∧ extractBackendId data = some backend.backendId

section Backends

variable (codecs : Codecs)

def levelRange : CompressionBackendType → Int × Int
  | .zstd => codecs.zstdLevels
  | .lz4 => (-128, 12)

def validateCompressionLevel (backend : CompressionBackendType) :
    Option Int → CompressionResult Unit
  | none => .ok ()
  | some level =>
    let range := levelRange codecs backend
    if range.1 ≤ level ∧ level ≤ range.2 then .ok ()
    else .error (.invalidConfiguration backend.backendName
      s!"compression level {level} is out of valid range {range.1}..={range.2}")

def failed (backend : CompressionBackendType) (level : Int) (data : Bytes) (reason : String) :
    CompressionError :=
  .compressionFailed backend.backendName (some level) data.length reason

def undecodable (backend : CompressionBackendType) (data : Bytes) (reason : String) :
    CompressionError :=
  .decompressionFailed backend.backendName data.length reason

def zstdCompress (data : Bytes) (level : Option Int) : CompressionResult Bytes := do
  let level := level.getD CompressionBackendType.zstd.defaultLevel
  validateCompressionLevel codecs .zstd (some level)
  let compressed ← (codecs.zstdEncode data level).mapError (failed .zstd level data)
  return createHeader CompressionBackendType.zstd.backendId ++ compressed

def lz4Mode (level : Int) : Lz4Mode :=
  if level > 0 then .highCompression level
  else if level < 0 then .fast (-level)
  else .default

def lz4CompressData (data : Bytes) (level : Option Int) : CompressionResult Bytes := do
  let level := level.getD CompressionBackendType.lz4.defaultLevel
  validateCompressionLevel codecs .lz4 (some level)
  if i32Max < data.length then
    throw (.invalidConfiguration CompressionBackendType.lz4.backendName
      s!"Data too large for LZ4: {data.length} bytes (max: {i32Max} bytes)")
  let block ← (codecs.lz4Compress data (lz4Mode level)).mapError (failed .lz4 level data)
  return createHeader CompressionBackendType.lz4.backendId ++ (toLeBytes 4 data.length ++ block)

def compress : CompressionBackendType → Bytes → Option Int → CompressionResult Bytes
  | .zstd => zstdCompress codecs
  | .lz4 => lz4CompressData codecs

/-- The result of a decompression, and how many bytes the codec has given out for it. -/
structure Production where
  result : CompressionResult Bytes
  produced : Nat

def Production.refuse (error : CompressionError) : Production := ⟨.error error, 0⟩

/-- The loop ends although the decoder may not: each chunk but the last has a byte. -/
def readStream (data : Bytes) (max : Nat) (decoder : Decoder) (index : Nat)
    (decompressed : Bytes) : Production :=
  match decoder index with
  | .error reason => ⟨.error (undecodable .zstd data reason), decompressed.length⟩
  | .ok chunk =>
    if chunk.val.length = 0 then ⟨.ok decompressed, decompressed.length⟩
    else
      let totalRead := decompressed.length + chunk.val.length
      if max < totalRead then
        ⟨.error (.sizeLimitExceeded CompressionBackendType.zstd.backendName data.length totalRead
          max), totalRead⟩
      else readStream data max decoder (index + 1) (decompressed ++ chunk.val)
termination_by max - decompressed.length

def zstdDecompress (data : Bytes) (maxSize : Option Nat) : Production :=
  if !isCompressed .zstd data then
    .refuse (undecodable .zstd data "data is not compressed or has invalid header")
  else
    match maxSize with
    | some max =>
      match codecs.zstdDecoder (data.drop headerSize) with
      | .error reason => .refuse (undecodable .zstd data reason)
      | .ok decoder => readStream data max decoder 0 []
    | none =>
      match codecs.zstdDecodeAll (data.drop headerSize) with
      | .error reason => .refuse (undecodable .zstd data reason)
      | .ok decompressed => ⟨.ok decompressed, decompressed.length⟩

/-- The codec gets a buffer of the size that the header claims, if that is within the limit. -/
def lz4DecompressBlock (data block : Bytes) (originalSize : Nat) (maxSize : Option Nat) :
    Production :=
  match maxSize.filter fun max => max < originalSize with
  | some max =>
    .refuse (.sizeLimitExceeded CompressionBackendType.lz4.backendName data.length originalSize
      max)
  | none =>
    if i32Max < originalSize then
      .refuse (undecodable .lz4 data
        s!"Uncompressed size {originalSize} bytes exceeds LZ4 block API limit ({i32Max} bytes)")
    else
      match codecs.lz4Decompress block originalSize with
      | .error reason => ⟨.error (undecodable .lz4 data reason), originalSize⟩
      | .ok output => ⟨.ok output.val, originalSize⟩

def lz4DecompressData (data : Bytes) (maxSize : Option Nat) : Production :=
  if !isCompressed .lz4 data then
    .refuse (undecodable .lz4 data "data is not compressed or has invalid header")
  else
    let compressed := data.drop headerSize
    if compressed.length < 4 then
      .refuse (undecodable .lz4 data "compressed data too short: missing size header")
    else
      lz4DecompressBlock codecs data (compressed.drop 4) (fromLeBytes (compressed.take 4)) maxSize

def decompress : CompressionBackendType → Bytes → Option Nat → Production
  | .zstd => zstdDecompress codecs
  | .lz4 => lz4DecompressData codecs

end Backends

/-! ## Decompressing what was compressed -/

def withinLimit (maxSize : Option Nat) (size : Nat) : Bool := maxSize.all fun max => size ≤ max

section RoundTrip

variable {codecs : Codecs} {backend : CompressionBackendType} {data stored acc : Bytes}
  {level : Option Int} {decoder : Decoder} {index max : Nat}

theorem isCompressed_createHeader (backend : CompressionBackendType) (data : Bytes) :
    isCompressed backend (createHeader backend.backendId ++ data) = true := by
  simp [isCompressed]

theorem readStream_of_le (hreads : decoder.Reads index data)
    (hle : acc.length + data.length ≤ max) :
    (readStream stored max decoder index acc).result = .ok (acc ++ data) := by
  induction hreads generalizing acc with
  | done hread hend => simp [readStream, hread, hend]
  | @more index chunk rest hread hmore _ ih =>
    rw [List.length_append, ← Nat.add_assoc] at hle
    have hfits : ¬ max < acc.length + chunk.val.length := by omega
    rw [readStream, hread]
    simp only [if_neg hmore, if_neg hfits]
    rw [ih (by rwa [List.length_append]), List.append_assoc]

theorem readStream_of_lt (hreads : decoder.Reads index data) (hacc : acc.length ≤ max)
    (hlt : max < acc.length + data.length) :
    ∃ size, max < size ∧ (readStream stored max decoder index acc).result =
      .error (.sizeLimitExceeded "zstd" stored.length size max) := by
  induction hreads generalizing acc with
  | done => exact absurd hacc (Nat.not_le.mpr hlt)
  | more hread hmore _ ih =>
    rw [readStream, hread]
    simp only [if_neg hmore]
    split_ifs with hexceeds
    · exact ⟨_, hexceeds, rfl⟩
    · refine ih ?_ ?_
      · simpa using Nat.le_of_not_lt hexceeds
      · simpa [Nat.add_assoc] using hlt

theorem zstdCompress_eq_ok (hcompress : zstdCompress codecs data level = .ok stored) :
    ∃ level encoded, codecs.zstdEncode data level = .ok encoded ∧
      stored = createHeader CompressionBackendType.zstd.backendId ++ encoded := by
  simp only [zstdCompress, bind, Except.bind, pure, Except.pure] at hcompress
  split at hcompress
  · contradiction
  · refine ⟨level.getD CompressionBackendType.zstd.defaultLevel, ?_⟩
    cases hencode : codecs.zstdEncode data (level.getD CompressionBackendType.zstd.defaultLevel) with
    | error reason => simp [hencode, Except.mapError] at hcompress
    | ok encoded =>
      simp only [hencode, Except.mapError, Except.ok.injEq] at hcompress
      exact ⟨encoded, rfl, hcompress.symm⟩

theorem lz4CompressData_eq_ok (hcompress : lz4CompressData codecs data level = .ok stored) :
    ∃ mode block, codecs.lz4Compress data mode = .ok block ∧ data.length ≤ i32Max ∧
      stored = createHeader CompressionBackendType.lz4.backendId ++
        (toLeBytes 4 data.length ++ block) := by
  simp only [lz4CompressData, bind, Except.bind, pure, Except.pure] at hcompress
  split at hcompress
  · contradiction
  · split_ifs at hcompress with hlarge
    refine ⟨lz4Mode (level.getD CompressionBackendType.lz4.defaultLevel), ?_⟩
    cases hblock : codecs.lz4Compress data
        (lz4Mode (level.getD CompressionBackendType.lz4.defaultLevel)) with
    | error reason => simp [hblock, Except.mapError] at hcompress
    | ok block =>
      simp only [hblock, Except.mapError, Except.ok.injEq] at hcompress
      exact ⟨block, rfl, Nat.le_of_not_lt hlarge, hcompress.symm⟩

/-- What comes back from the backend that wrote it: the data, unless they exceed the limit. -/
structure Restores (backend : CompressionBackendType) (data stored : Bytes) (maxSize : Option Nat)
    (result : CompressionResult Bytes) : Prop where
  within : withinLimit maxSize data.length → result = .ok data
  exceeds : ¬ withinLimit maxSize data.length → ∃ max size, maxSize = some max ∧ max < size ∧
    result = .error (.sizeLimitExceeded backend.backendName stored.length size max)

theorem zstd_restores (hinverts : codecs.Inverts) {encoded : Bytes} {level : Int}
    (hencode : codecs.zstdEncode data level = .ok encoded) (maxSize : Option Nat) :
    let stored := createHeader CompressionBackendType.zstd.backendId ++ encoded
    Restores .zstd data stored maxSize (zstdDecompress codecs stored maxSize).result := by
  intro stored
  have hcompressed : isCompressed .zstd stored := isCompressed_createHeader .zstd encoded
  have hdrop : stored.drop headerSize = encoded := drop_createHeader _ _
  cases maxSize with
  | none =>
    have hall := hinverts.zstdDecodeAll data level encoded hencode
    refine ⟨fun _ => ?_, fun hexceeds => absurd rfl hexceeds⟩
    simp [zstdDecompress, hcompressed, hdrop, hall]
  | some max =>
    obtain ⟨decoder, hdecoder, hreads⟩ := hinverts.zstdDecoder data level encoded hencode
    have hread : zstdDecompress codecs stored (some max) = readStream stored max decoder 0 [] := by
      simp [zstdDecompress, hcompressed, hdrop, hdecoder]
    rw [hread]
    constructor
    · intro hwithin
      have hle : data.length ≤ max := by simpa [withinLimit] using hwithin
      exact readStream_of_le hreads (by simpa using hle)
    · intro hexceeds
      have hlt : max < data.length := by simpa [withinLimit] using hexceeds
      obtain ⟨size, hsize, hresult⟩ := readStream_of_lt hreads
        (show ([] : Bytes).length ≤ max from Nat.zero_le _) (by simpa using hlt)
      exact ⟨max, size, rfl, hsize, hresult⟩

theorem lz4DecompressData_stored (hsize : data.length ≤ i32Max) (block : Bytes)
    (maxSize : Option Nat) :
    let stored := createHeader CompressionBackendType.lz4.backendId ++
      (toLeBytes 4 data.length ++ block)
    lz4DecompressData codecs stored maxSize =
      lz4DecompressBlock codecs stored block data.length maxSize := by
  intro stored
  have hcompressed : isCompressed .lz4 stored := isCompressed_createHeader .lz4 _
  have hdrop : stored.drop headerSize = toLeBytes 4 data.length ++ block := drop_createHeader _ _
  have hlong : ¬ (toLeBytes 4 data.length ++ block).length < 4 := by simp
  have hlength : fromLeBytes (toLeBytes 4 data.length) = data.length :=
    fromLeBytes_toLeBytes (Nat.lt_of_le_of_lt hsize (by decide))
  simp only [lz4DecompressData, hcompressed, Bool.not_true, Bool.false_eq_true, if_false, hdrop,
    if_neg hlong]
  rw [List.take_left' (length_toLeBytes _ _), List.drop_left' (length_toLeBytes _ _), hlength]

theorem lz4_restores (hinverts : codecs.Inverts) {block : Bytes} {mode : Lz4Mode}
    (hblock : codecs.lz4Compress data mode = .ok block) (hsize : data.length ≤ i32Max)
    (maxSize : Option Nat) :
    let stored := createHeader CompressionBackendType.lz4.backendId ++
      (toLeBytes 4 data.length ++ block)
    Restores .lz4 data stored maxSize (lz4DecompressData codecs stored maxSize).result := by
  intro stored
  rw [lz4DecompressData_stored hsize]
  unfold lz4DecompressBlock
  constructor
  · intro hwithin
    have hnone : (maxSize.filter fun max => max < data.length) = none := by
      cases maxSize <;> simp_all [withinLimit]
    simp [hnone, Nat.not_lt.mpr hsize, hinverts.lz4 data mode block hblock]
  · intro hexceeds
    cases maxSize with
    | none => exact absurd rfl hexceeds
    | some max =>
      have hlt : max < data.length := by simpa [withinLimit] using hexceeds
      have hsome : ((some max).filter fun max => max < data.length) = some max := by
        simp [Option.filter, hlt]
      exact ⟨max, data.length, rfl, hlt, by rw [hsome]; rfl⟩

theorem decompress_compress (hinverts : codecs.Inverts)
    (hcompress : compress codecs backend data level = .ok stored) (maxSize : Option Nat) :
    isCompressed backend stored ∧
      Restores backend data stored maxSize (decompress codecs backend stored maxSize).result := by
  cases backend with
  | zstd =>
    obtain ⟨level, encoded, hencode, rfl⟩ := zstdCompress_eq_ok hcompress
    exact ⟨isCompressed_createHeader .zstd _, zstd_restores hinverts hencode maxSize⟩
  | lz4 =>
    obtain ⟨mode, block, hblock, hsize, rfl⟩ := lz4CompressData_eq_ok hcompress
    exact ⟨isCompressed_createHeader .lz4 _, lz4_restores hinverts hblock hsize maxSize⟩

end RoundTrip

end ValkeyGlide.Compression
