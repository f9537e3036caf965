import ValkeyGlide.Compression.Manager

/-!
# Bounded decompression

The decoder of the streaming codec need not ever end (`compression.rs`).  The main result
bounds both what is returned and what the codec gives out.
-/

namespace ValkeyGlide.Compression

open Protocol

structure Production.Within (production : Production) (max : Nat) : Prop where
  returned : ∀ decompressed, production.result = .ok decompressed → decompressed.length ≤ max
  produced : production.produced ≤ max + bufferSize

section Bound

variable {max produced : Nat}

theorem failed_within (error : CompressionError) (hproduced : produced ≤ max + bufferSize) :
    Production.Within ⟨.error error, produced⟩ max := by
  refine ⟨fun decompressed hok => ?_, hproduced⟩
  contradiction

theorem returned_within {decompressed : Bytes} (hlength : decompressed.length ≤ max)
    (hproduced : produced ≤ max) : Production.Within ⟨.ok decompressed, produced⟩ max := by
  refine ⟨fun other hok => ?_, Nat.le_add_right_of_le hproduced⟩
  rwa [← Except.ok.inj hok]

theorem refuse_within (error : CompressionError) : (Production.refuse error).Within max :=
  failed_within error (Nat.zero_le _)

theorem readStream_within (data : Bytes) (decoder : Decoder) (index : Nat) (decompressed : Bytes)
    (hwithin : decompressed.length ≤ max) :
    (readStream data max decoder index decompressed).Within max := by
  fun_induction readStream data max decoder index decompressed with
  | case1 index decompressed reason hread =>
    exact failed_within _ (Nat.le_add_right_of_le hwithin)
  | case2 index decompressed chunk hread hend => exact returned_within hwithin hwithin
  | case3 index decompressed chunk hread hmore totalRead hexceeds =>
    -- the chunk that exceeds the limit is the one buffer on top of it
    exact failed_within _ (Nat.add_le_add hwithin chunk.property)
  | case4 index decompressed chunk hread hmore totalRead hfits ih =>
    refine ih ?_
    rw [List.length_append]
    exact Nat.le_of_not_lt hfits

theorem zstdDecompress_within (codecs : Codecs) (data : Bytes) :
    (zstdDecompress codecs data (some max)).Within max := by
  unfold zstdDecompress
  split_ifs
  · exact refuse_within _
  · dsimp only
    split
    · exact refuse_within _
    · exact readStream_within data _ 0 [] (Nat.zero_le _)

theorem lz4DecompressBlock_within (codecs : Codecs) (data block : Bytes)
    (originalSize : Nat) :
    (lz4DecompressBlock codecs data block originalSize (some max)).Within max := by
  unfold lz4DecompressBlock
  split
  next => exact refuse_within _
  next hnone =>
    -- the claimed size has been checked before the codec is called
    have hsize : originalSize ≤ max := by simpa [Option.filter] using hnone
    split_ifs
    · exact refuse_within _
    · split
      next => exact failed_within _ (Nat.le_add_right_of_le hsize)
      next output _ => exact returned_within (Nat.le_trans output.property hsize) hsize

theorem decompress_within (codecs : Codecs) (backend : CompressionBackendType)
    (data : Bytes) : (decompress codecs backend data (some max)).Within max := by
  cases backend with
  | zstd => exact zstdDecompress_within codecs data
  | lz4 =>
    simp only [decompress, lz4DecompressData]
    split_ifs
    · exact refuse_within _
    · exact refuse_within _
    · exact lz4DecompressBlock_within codecs _ _ _

theorem extractBackendId_isSome {value : Bytes} (hheader : hasMagicHeader value) :
    ∃ backendId, extractBackendId value = some backendId := by
  obtain ⟨hlength, -⟩ := of_decide_eq_true hheader
  have hlt : 4 < value.length := hlength
  exact ⟨value[4], by rw [extractBackendId, if_pos hheader, List.getElem?_eq_getElem hlt]⟩

end Bound

namespace CompressionManager

/--
A value that is recognised as compressed is returned with at most `max` bytes, if it is, and
the codec never gives out more than one buffer above that.
-/
theorem decompressValueStream_within (codecs : Codecs) {manager : CompressionManager}
    (henabled : manager.config.enabled) {max : Nat}
    (hmax : manager.config.maxDecompressedSize = some max) {value : Bytes}
    (hheader : hasMagicHeader value) :
    (∀ decompressed, (manager.decompressValueStream codecs value).result = .ok decompressed →
      decompressed.length ≤ max) ∧
    (manager.decompressValueStream codecs value).produced ≤ max + bufferSize := by
  obtain ⟨backendId, hbackend⟩ := extractBackendId_isSome hheader
  have hwithin : (manager.decompressValueStream codecs value).Within max := by
    simp only [decompressValueStream, henabled, hheader, hbackend, hmax, Bool.not_true,
      Bool.false_eq_true, if_false]
    split_ifs
    · exact decompress_within codecs manager.backend value
    · split
      next => exact refuse_within _
      next backend _ => exact decompress_within codecs backend value
  exact ⟨hwithin.returned, hwithin.produced⟩

def endlessCodecs : Codecs where
  zstdLevels := (-7, 22)
  zstdEncode data _ := .ok data
  zstdDecoder _ := .ok fun _ => .ok ⟨[7], by decide⟩
  zstdDecodeAll _ := .error "no end"
  lz4Compress data _ := .ok data
  lz4Decompress _ size := .ok ⟨List.replicate size 7, Nat.le_of_eq (List.length_replicate ..)⟩

theorem endless_value_refused :
    let manager : CompressionManager := ⟨.lz4, ⟨true, .lz4, none, 64, some 2⟩⟩
    let endless := createHeader 1 ++ [9]
    let claimed := createHeader 2 ++ [2, 0, 0, 0, 9]
    (manager.decompressValueStream endlessCodecs endless).result =
        .error (.sizeLimitExceeded "zstd" 6 3 2) ∧
      (manager.decompressValueStream endlessCodecs endless).produced ≤ 2 + bufferSize ∧
      (manager.decompressValueStream endlessCodecs claimed).result = .ok [7, 7] ∧
      (manager.decompressValueStream endlessCodecs claimed).produced ≤ 2 + bufferSize := by
  intro manager endless claimed
  have hmax : manager.config.maxDecompressedSize = some 2 := rfl
  refine ⟨?_, ?_, rfl, ?_⟩
  · show (readStream endless 2 (fun _ => .ok ⟨[7], by decide⟩) 0 []).result = _
    simp [readStream, endless, createHeader, createHeaderWithVersion, magicPrefix,
      CompressionBackendType.backendName]
  · have hheader : hasMagicHeader endless := by decide
    exact (decompressValueStream_within endlessCodecs rfl hmax hheader).2
  · have hheader : hasMagicHeader claimed := by decide
    exact (decompressValueStream_within endlessCodecs rfl hmax hheader).2

end CompressionManager

end ValkeyGlide.Compression
