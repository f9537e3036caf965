import ValkeyGlide.Cache.Accounting

/-!
# Inserts and older content

What a lookup can return after an insert of its key.  Every entry of the cache
comes from one operation that stored it; an insert that fits replaces the entry of
its key, while an insert that is too large leaves the cache as it is.
-/

namespace ValkeyGlide.Cache

open Foundation Protocol LawfulStrategy GlideCacheImpl

/-! ## Expiry -/

variable {entry : CacheEntry}

theorem CacheEntry.isExpired_mono {now later : Nat} (hle : now ≤ later)
    (hexpired : entry.isExpired now = true) : entry.isExpired later = true := by
  unfold CacheEntry.isExpired at hexpired ⊢
  cases hexpires : entry.expiresAt with
  | none => simp [hexpires] at hexpired
  | some expiresAt =>
    simp only [hexpires, Option.any_some, decide_eq_true_eq] at hexpired ⊢
    exact hexpired.trans hle

theorem CacheEntry.live_of_le {now later : Nat} (hle : now ≤ later)
    (hlive : entry.isExpired later = false) : entry.isExpired now = false := by
  cases hnow : entry.isExpired now with
  | false => rfl
  | true => rw [← hlive, isExpired_mono hle hnow]

/-! ## Where entries come from -/

def CacheOp.Stored (layout : Layout) (stored : Bytes × CacheEntry) : CacheOp → Prop
  | .insert key keyType value _ | .insertIfActiveFill key keyType value _ _ =>
    stored.1 = key ∧ stored.2.keyType = keyType ∧ stored.2.value = value ∧
      stored.2.size = calculateEntrySize layout key value
  | _ => False

def CacheOp.Stores (key : Bytes) : CacheOp → Prop
  | .insert other _ _ _ | .insertIfActiveFill other _ _ _ _ => other = key
  | _ => False

theorem CacheOp.Stored.stores {layout : Layout} {stored : Bytes × CacheEntry} {op : CacheOp}
    (hstored : op.Stored layout stored) : op.Stores stored.1 := by
  cases op with
  | insert | insertIfActiveFill => exact hstored.1.symm
  | _ => exact hstored

namespace SharedCache

variable {S : Type} [LawfulStrategy S] {layout : Layout} {shared : SharedCache S}
  {config : CacheConfig} {cache : GlideCacheImpl S} {entry : CacheEntry} {key : Bytes}

private theorem removeEntry_subset (hvalid : Valid cache.store) (key : Bytes) :
    ∀ entry ∈ contents (cache.removeEntry key).store,
      entry ∈ contents cache.store := by
  intro entry hentry
  rw [removeEntry_contents hvalid] at hentry
  exact (Assoc.mem_erase.mp hentry).1

private theorem removeIfExpired_subset (hvalid : Valid cache.store) (key : Bytes) (now : Nat) :
    ∀ entry ∈ contents (cache.removeIfExpired key now).store,
      entry ∈ contents cache.store := by
  unfold GlideCacheImpl.removeIfExpired
  split_ifs
  · exact removeEntry_subset hvalid key
  · exact fun entry hentry => hentry

private theorem promote_subset (hvalid : Valid shared.cache.store) (key : Bytes) (now : Nat) :
    ∀ entry ∈ contents (shared.promote key now).cache.store,
      entry ∈ contents shared.cache.store :=
  fun _ => (promote_spec hvalid key now).2.mem_iff.mp

theorem get_subset (hvalid : Valid shared.cache.store) (key : Bytes)
    (expectedType : CachedKeyType) (now : Nat) :
    ∀ entry ∈ contents (shared.get key expectedType now).2.cache.store,
      entry ∈ contents shared.cache.store := by
  unfold SharedCache.get
  split
  · exact fun entry hentry => hentry
  · split_ifs
    · exact removeIfExpired_subset hvalid key now
    · exact fun entry hentry => hentry
    · exact promote_subset hvalid key now

section

variable (hmax : config.maxMemoryBytes < 2 ^ 64)
include hmax

private theorem insertWithLock_entries
    (haccounted : shared.Accounted config) (key : Bytes) (keyType : CachedKeyType) (value : Value)
    {entrySize : Nat} (hsmall : ¬ shared.cache.entryTooBig entrySize) (now : Nat) :
    ∀ stored ∈ contents (shared.cache.insertWithLock key keyType value entrySize now).store,
      stored ∈ contents shared.cache.store ∧ stored.1 ≠ key ∨
        stored.1 = key ∧ stored.2.keyType = keyType ∧ stored.2.value = value ∧
          stored.2.size = entrySize := by
  simp only [entryTooBig, decide_eq_true_eq, not_lt] at hsmall
  rw [← haccounted.config_eq] at hmax
  obtain ⟨-, entry, hvalue, htype, hsize, hperm⟩ :=
    haccounted.cache.insertWithLock hmax hsmall key keyType value now
  intro stored hstored
  rcases List.mem_cons.mp (hperm.mem_iff.mp hstored) with rfl | hkept
  · exact .inr ⟨rfl, htype, hvalue, hsize⟩
  · have hremoved := evictWhile_contents _ _ (haccounted.cache.removeEntry key).valid _ hkept
    rw [removeEntry_contents haccounted.cache.valid] at hremoved
    exact .inl (Assoc.mem_erase.mp hremoved)

theorem apply_entries (haccounted : shared.Accounted config)
    (op : CacheOp) : ∀ stored ∈ contents (shared.apply layout op).cache.store,
      stored ∈ contents shared.cache.store ∨ op.Stored layout stored := by
  have hvalid := haccounted.cache.valid
  intro stored hstored
  cases op with
  | get key expectedType now => exact .inl (get_subset hvalid key expectedType now stored hstored)
  | removeIfExpired key now => exact .inl (removeIfExpired_subset hvalid key now stored hstored)
  | promote key now => exact .inl (promote_subset hvalid key now stored hstored)
  | insert key keyType value now =>
    simp only [SharedCache.apply, SharedCache.insert] at hstored
    split_ifs at hstored with hbig
    · exact .inl hstored
    · exact (insertWithLock_entries hmax haccounted key keyType value hbig now stored
        hstored).imp_left And.left
  | beginCacheFill | dropFill => exact .inl hstored
  | insertIfActiveFill key keyType value fill now =>
    simp only [SharedCache.apply, SharedCache.insertIfActiveFill] at hstored
    split_ifs at hstored with hbig
    · exact .inl hstored
    · exact (insertWithLock_entries hmax haccounted key keyType value hbig now stored
        hstored).imp_left And.left
    · exact .inl hstored
  | invalidate key => exact .inl (removeEntry_subset hvalid key stored hstored)
  | evictUntilSpaceAvailable requiredSpace | flushAll =>
    exact .inl (evictWhile_contents _ _ hvalid stored hstored)

/-! ## Reachable states -/

structure Sized (layout : Layout) (config : CacheConfig) (shared : SharedCache S) : Prop
    extends shared.Accounted config where
  sizes : ∀ stored ∈ contents shared.cache.store,
    stored.2.size = calculateEntrySize layout stored.1 stored.2.value

theorem Sized.apply (hsized : shared.Sized layout config)
    (op : CacheOp) : (shared.apply layout op).Sized layout config where
  toAccounted := hsized.toAccounted.apply hmax op
  sizes := by
    intro stored hstored
    rcases apply_entries hmax hsized.toAccounted op stored hstored with hold | hnew
    · exact hsized.sizes stored hold
    · cases op with
      | insert | insertIfActiveFill =>
        obtain ⟨hkey, -, hvalue, hsize⟩ := hnew
        rw [hsize, hkey, hvalue]
      | _ => exact hnew.elim

/-- The states that operations lead to from an empty cache. -/
def Reachable (layout : Layout) (config : CacheConfig) (shared : SharedCache S) : Prop :=
  ∃ store : S, Valid store ∧ contents store = [] ∧
    ∃ ops, shared = (new store config).applyAll layout ops

theorem Reachable.sized
    (hreachable : shared.Reachable layout config) : shared.Sized layout config := by
  obtain ⟨store, hvalid, hempty, ops, rfl⟩ := hreachable
  have hinit : (new store config).Sized layout config :=
    ⟨new_accounted hvalid hempty config, by simp [new, hempty]⟩
  exact applyAll_invariant (fun _ op hsized (_ : True) => hsized.apply hmax op) hinit
    fun _ _ => trivial

end

theorem Sized.size_le (hsized : shared.Sized layout config)
    (hmem : (key, entry) ∈ contents shared.cache.store) :
    calculateEntrySize layout key entry.value ≤ config.maxMemoryBytes := by
  have hsize : entry.size = calculateEntrySize layout key entry.value := hsized.sizes _ hmem
  have htotal := totalSize_erase (distinct hsized.cache.valid) hmem
  have hbounded := hsized.cache.bounded
  rw [hsized.cache.memory, hsized.config_eq] at hbounded
  omega

/-! ## Lookups -/

theorem peek_eq_some_iff (hvalid : Valid shared.cache.store) :
    EvictionStrategy.peek shared.cache.store key = some entry ↔
      (key, entry) ∈ contents shared.cache.store := by
  rw [peek_eq hvalid]
  exact Assoc.lookup_eq_some_iff (distinct hvalid)

theorem get_eq_some_iff (key : Bytes) (expectedType : CachedKeyType) (now : Nat) (value : Value) :
    (shared.get key expectedType now).1 = some value ↔
      ∃ entry, EvictionStrategy.peek shared.cache.store key = some entry ∧
        entry.isExpired now = false ∧ entry.keyType = expectedType ∧ entry.value = value := by
  unfold SharedCache.get
  cases hpeek : EvictionStrategy.peek shared.cache.store key with
  | none => simp
  | some entry =>
    dsimp only
    split_ifs with hexpired htype
    · simp [hexpired]
    · simp [htype]
    · rw [not_not] at htype
      simp [hexpired, htype]

/--
From the insert on, and until its key is stored again, a lookup returns the
inserted value or nothing.
-/
def Supersedes (layout : Layout) (shared : SharedCache S) (key : Bytes) (keyType : CachedKeyType)
    (value : Value) (now : Nat) : Prop :=
  ∀ later : List CacheOp, (∀ op ∈ later, ¬ op.Stores key) → ∀ lookup, now ≤ lookup →
    ∀ found, (((shared.insert layout key keyType value now).applyAll layout later).get
      key keyType lookup).1 = some found → found = value

/-- The value is too large, and the key has a live entry of the type. -/
def RejectsOverLive (layout : Layout) (shared : SharedCache S) (key : Bytes)
    (keyType : CachedKeyType) (value : Value) (now : Nat) : Prop :=
  shared.cache.entryTooBig (calculateEntrySize layout key value) = true ∧
    ∃ entry, EvictionStrategy.peek shared.cache.store key = some entry ∧
      entry.keyType = keyType ∧ entry.isExpired now = false

private theorem applyAll_keeps (hmax : config.maxMemoryBytes < 2 ^ 64)
    (haccounted : shared.Accounted config) {later : List CacheOp}
    (hlater : ∀ op ∈ later, ¬ op.Stores key) :
    (shared.applyAll layout later).Accounted config ∧
      ∀ entry, (key, entry) ∈ contents (shared.applyAll layout later).cache.store →
        (key, entry) ∈ contents shared.cache.store := by
  induction later generalizing shared with
  | nil => exact ⟨haccounted, fun _ hentry => hentry⟩
  | cons op rest ih =>
    obtain ⟨hop, hrest⟩ := List.forall_mem_cons.mp hlater
    obtain ⟨hfinal, hkept⟩ := ih (haccounted.apply hmax op) hrest
    refine ⟨hfinal, fun entry hentry => ?_⟩
    rcases apply_entries hmax haccounted op _ (hkept entry hentry) with hold | hnew
    · exact hold
    · exact absurd hnew.stores hop

theorem insert_supersedes_iff (hmax : config.maxMemoryBytes < 2 ^ 64)
    (hreachable : shared.Reachable layout config) (key : Bytes) (keyType : CachedKeyType)
    (value : Value) (now : Nat) :
    shared.Supersedes layout key keyType value now ↔
      ¬ shared.RejectsOverLive layout key keyType value now := by
  have hsized := hreachable.sized hmax
  have haccounted := hsized.toAccounted
  constructor
  · rintro hsupersedes ⟨hbig, entry, hpeek, htype, hlive⟩
    -- the rejected insert changes nothing, so the old entry is found
    have hunchanged : shared.insert layout key keyType value now = shared := by
      simp [SharedCache.insert, hbig]
    have hfound : (shared.get key keyType now).1 = some entry.value :=
      (get_eq_some_iff key keyType now entry.value).mpr ⟨entry, hpeek, hlive, htype, rfl⟩
    have hsame : entry.value = value :=
      hsupersedes [] (by simp) now le_rfl _ (by rw [hunchanged]; exact hfound)
    have hle := hsized.size_le ((peek_eq_some_iff haccounted.cache.valid).mp hpeek)
    rw [hsame] at hle
    simp only [entryTooBig, decide_eq_true_eq, haccounted.config_eq] at hbig
    omega
  · intro hnot later hlater lookup hle found hfound
    have hinserted : (shared.insert layout key keyType value now).Accounted config :=
      haccounted.apply hmax (.insert key keyType value now)
    obtain ⟨hfinal, hkept⟩ := applyAll_keeps hmax hinserted hlater
    obtain ⟨entry, hpeek, hlive, htype, rfl⟩ := (get_eq_some_iff key keyType lookup found).mp hfound
    have hentry := hkept entry ((peek_eq_some_iff hfinal.cache.valid).mp hpeek)
    simp only [SharedCache.insert] at hentry
    split_ifs at hentry with hbig
    · have hpeek := (peek_eq_some_iff haccounted.cache.valid).mpr hentry
      exact absurd ⟨hbig, entry, hpeek, htype, CacheEntry.live_of_le hle hlive⟩ hnot
    · rcases insertWithLock_entries hmax haccounted key keyType value hbig now _ hentry with
        ⟨-, hne⟩ | ⟨-, -, hvalue, -⟩
      · exact absurd rfl hne
      · exact hvalue

def smallValueCached : SharedCache LruStrategy :=
  (new LruStrategy.new ⟨20, none⟩).applyAll ⟨8, 16, fun _ => []⟩
    [.insert (bytes "k") .string .okay 0]

theorem small_insert_supersedes :
    smallValueCached.Reachable ⟨8, 16, fun _ => []⟩ ⟨20, none⟩ ∧
      smallValueCached.Supersedes ⟨8, 16, fun _ => []⟩ (bytes "k") .string .nil 1 := by
  have hreachable : smallValueCached.Reachable ⟨8, 16, fun _ => []⟩ ⟨20, none⟩ :=
    ⟨LruStrategy.new, List.nodup_nil, rfl, _, rfl⟩
  refine ⟨hreachable, (insert_supersedes_iff (by decide) hreachable _ _ _ _).mpr ?_⟩
  exact fun hrejects => absurd hrejects.1 (by decide)

theorem oversized_insert_keeps_old :
    smallValueCached.Reachable ⟨8, 16, fun _ => []⟩ ⟨20, none⟩ ∧
      ¬ smallValueCached.Supersedes ⟨8, 16, fun _ => []⟩ (bytes "k") .string
        (.bulkString (bytes "twenty bytes or more")) 1 := by
  refine ⟨⟨LruStrategy.new, List.nodup_nil, rfl, _, rfl⟩, fun hsupersedes => ?_⟩
  have hsame := hsupersedes [] (by simp) 1 le_rfl .okay rfl
  contradiction

end SharedCache

end ValkeyGlide.Cache
