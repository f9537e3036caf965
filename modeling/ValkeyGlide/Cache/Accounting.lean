import ValkeyGlide.Cache.Operations

/-!
# Memory accounting

The counter of the memory in use against the entries that are stored.  Over every
lawful strategy the two agree after every operation, and the counter stays within
the configured bound.
-/

namespace ValkeyGlide.Cache

open Foundation Protocol LawfulStrategy

/-! ## Sizes -/

def totalSize : List (Bytes × CacheEntry) → Nat
  | [] => 0
  | entry :: rest => entry.2.size + totalSize rest

theorem totalSize_perm {first second : List (Bytes × CacheEntry)} (hperm : first.Perm second) :
    totalSize first = totalSize second := by
  induction hperm with
  | nil => rfl
  | cons entry _ ih => simp [totalSize, ih]
  | swap first second rest =>
    simp only [totalSize]
    omega
  | trans _ _ ihfirst ihsecond => exact ihfirst.trans ihsecond

theorem totalSize_erase {entries : List (Bytes × CacheEntry)} (hdistinct : Assoc.Distinct entries)
    {key : Bytes} {entry : CacheEntry} (hmem : (key, entry) ∈ entries) :
    totalSize entries = entry.size + totalSize (Assoc.erase entries key) :=
  totalSize_perm (Assoc.perm_cons_erase hdistinct hmem)

/-! ## One operation -/

namespace GlideCacheImpl

variable {S : Type} [LawfulStrategy S]

structure Accounted (cache : GlideCacheImpl S) : Prop where
  valid : Valid cache.store
  memory : cache.currentMemory = totalSize (contents cache.store)
  bounded : cache.currentMemory ≤ cache.config.maxMemoryBytes

variable {cache : GlideCacheImpl S} {key : Bytes} {requiredSpace rounds : Nat}

theorem removeEntry_config (cache : GlideCacheImpl S) (key : Bytes) :
    (cache.removeEntry key).config = cache.config := by
  unfold removeEntry
  split <;> rfl

theorem removeEntry_store (cache : GlideCacheImpl S) (key : Bytes) :
    (cache.removeEntry key).store = (EvictionStrategy.remove cache.store key).2 := by
  unfold removeEntry
  split <;> simp_all [uncharge]

theorem removeEntry_contents (hvalid : Valid cache.store) (key : Bytes) :
    contents (cache.removeEntry key).store = Assoc.erase (contents cache.store) key := by
  rw [removeEntry_store]
  exact (remove_spec hvalid key).2.2

theorem Accounted.removeEntry (haccounted : cache.Accounted) (key : Bytes) :
    (cache.removeEntry key).Accounted := by
  obtain ⟨hpeek, hvalid, hcontents⟩ := remove_spec haccounted.valid key
  rw [peek_eq haccounted.valid] at hpeek
  have hdistinct := distinct haccounted.valid
  unfold GlideCacheImpl.removeEntry
  split
  · rename_i entry store hremove
    rw [hremove] at hpeek hvalid hcontents
    have hsize := totalSize_erase hdistinct (Assoc.mem_of_lookup hpeek.symm)
    refine ⟨hvalid, ?_, (Nat.sub_le _ _).trans haccounted.bounded⟩
    simp only [uncharge, hcontents, haccounted.memory, hsize]
    omega
  · rename_i store hremove
    rw [hremove] at hpeek hvalid hcontents
    refine ⟨hvalid, ?_, haccounted.bounded⟩
    simp [hcontents, haccounted.memory, Assoc.erase_of_lookup_none hpeek.symm]

theorem Accounted.removeIfExpired (haccounted : cache.Accounted) (key : Bytes) (now : Nat) :
    (cache.removeIfExpired key now).Accounted := by
  unfold GlideCacheImpl.removeIfExpired
  split_ifs
  · exact haccounted.removeEntry key
  · exact haccounted

theorem Accounted.promote (haccounted : cache.Accounted) (key : Bytes) (now : Nat) :
    Accounted { cache with store := EvictionStrategy.promote cache.store key now } := by
  obtain ⟨hvalid, hperm⟩ := promote_spec haccounted.valid key now
  exact ⟨hvalid, haccounted.memory.trans (totalSize_perm hperm).symm, haccounted.bounded⟩

theorem Accounted.evictOne (haccounted : cache.Accounted) {entry : CacheEntry} {store : S}
    (hevict : EvictionStrategy.evictOne cache.store = some (entry, store)) :
    ({ cache with store := store }.uncharge entry.size).Accounted := by
  obtain ⟨hvalid, key, hperm⟩ := evictOne_spec haccounted.valid hevict
  have hsize : cache.currentMemory = entry.size + totalSize (contents store) :=
    haccounted.memory.trans (totalSize_perm hperm)
  refine ⟨hvalid, ?_, (Nat.sub_le _ _).trans haccounted.bounded⟩
  simp only [uncharge, hsize]
  omega

theorem Accounted.evictWhile (more : GlideCacheImpl S → Bool) (rounds : Nat)
    (haccounted : cache.Accounted) : (evictWhile more rounds cache).Accounted := by
  induction rounds generalizing cache with
  | zero => exact haccounted
  | succ rounds ih =>
    unfold GlideCacheImpl.evictWhile
    split_ifs
    · split
      · rename_i hevict
        exact ih (haccounted.evictOne hevict)
      · exact haccounted
    · exact haccounted

theorem evictWhile_config (more : GlideCacheImpl S → Bool) (rounds : Nat)
    (cache : GlideCacheImpl S) : (evictWhile more rounds cache).config = cache.config := by
  induction rounds generalizing cache with
  | zero => rfl
  | succ rounds ih =>
    unfold evictWhile
    split_ifs
    · split
      · exact ih _
      · rfl
    · rfl

theorem evictWhile_contents (more : GlideCacheImpl S → Bool) (rounds : Nat)
    (hvalid : Valid cache.store) :
    ∀ entry ∈ contents (evictWhile more rounds cache).store, entry ∈ contents cache.store := by
  induction rounds generalizing cache with
  | zero => exact fun entry hentry => hentry
  | succ rounds ih =>
    unfold evictWhile
    split_ifs
    · split
      · rename_i hevict
        obtain ⟨hnext, key, hperm⟩ := evictOne_spec hvalid hevict
        intro entry hentry
        exact hperm.mem_iff.mpr (List.mem_cons_of_mem _ (ih hnext entry hentry))
      · exact fun entry hentry => hentry
    · exact fun entry hentry => hentry

/-! ## Termination of the eviction loop -/

def EvictionEnded (more : GlideCacheImpl S → Bool) (cache : GlideCacheImpl S) : Prop :=
  more cache = false ∨ EvictionStrategy.evictOne cache.store = none

theorem evictWhile_ended (more : GlideCacheImpl S → Bool)
    (hrounds : EvictionStrategy.len cache.store ≤ rounds) :
    EvictionEnded more (evictWhile more rounds cache) := by
  induction rounds generalizing cache with
  | zero =>
    right
    cases hevict : EvictionStrategy.evictOne cache.store with
    | none => exact hevict
    | some result =>
      have := len_evictOne hevict
      omega
  | succ rounds ih =>
    unfold evictWhile
    split_ifs with hmore
    · split
      · rename_i hevict
        have hlen := len_evictOne hevict
        exact ih (Nat.le_of_lt_succ (hlen.trans_le hrounds))
      · rename_i hevict
        exact .inr hevict
    · exact .inl (by simpa using hmore)

theorem evictWhile_of_ended {more : GlideCacheImpl S → Bool} (hended : EvictionEnded more cache)
    (rounds : Nat) : evictWhile more rounds cache = cache := by
  cases rounds with
  | zero => rfl
  | succ rounds =>
    unfold evictWhile
    rcases hended with hmore | hevict
    · simp [hmore]
    · simp [hevict]

theorem evictWhile_add (more : GlideCacheImpl S → Bool) (first second : Nat)
    (cache : GlideCacheImpl S) :
    evictWhile more (first + second) cache = evictWhile more second (evictWhile more first cache) := by
  induction first generalizing cache with
  | zero => rw [Nat.zero_add, evictWhile]
  | succ first ih =>
    rw [Nat.succ_add, evictWhile]
    conv_rhs => rw [evictWhile]
    split_ifs with hmore
    · split
      · exact ih _
      · rename_i hevict
        exact (evictWhile_of_ended (.inr hevict) second).symm
    · exact (evictWhile_of_ended (.inl (by simpa using hmore)) second).symm

theorem evictWhile_stable (more : GlideCacheImpl S → Bool)
    (hrounds : EvictionStrategy.len cache.store ≤ rounds) :
    evictWhile more rounds cache = evictWhile more (EvictionStrategy.len cache.store) cache := by
  obtain ⟨extra, rfl⟩ := Nat.exists_eq_add_of_le hrounds
  rw [evictWhile_add]
  exact evictWhile_of_ended (evictWhile_ended more le_rfl) extra

/-! ## Inserting and flushing -/

theorem evictUntilSpaceAvailable_config (cache : GlideCacheImpl S) (requiredSpace : Nat) :
    (cache.evictUntilSpaceAvailable requiredSpace).config = cache.config :=
  evictWhile_config _ _ cache

theorem Accounted.fits (haccounted : cache.Accounted)
    (hfits : requiredSpace ≤ cache.config.maxMemoryBytes) :
    (cache.evictUntilSpaceAvailable requiredSpace).currentMemory + requiredSpace ≤
      cache.config.maxMemoryBytes := by
  have hevicted : (cache.evictUntilSpaceAvailable requiredSpace).Accounted :=
    haccounted.evictWhile _ _
  have hconfig := cache.evictUntilSpaceAvailable_config requiredSpace
  have hbounded := hevicted.bounded
  rw [hconfig] at hbounded
  have hended : EvictionEnded (fun cache => cache.needsEviction requiredSpace)
      (cache.evictUntilSpaceAvailable requiredSpace) := evictWhile_ended _ le_rfl
  rcases hended with hspace | hempty
  · simp only [needsEviction, hconfig, decide_eq_false_iff_not, not_lt] at hspace
    omega
  · have hmemory := hevicted.memory
    rw [evictOne_none hevicted.valid hempty, totalSize] at hmemory
    omega

theorem peek_removeEntry_evict (hvalid : Valid cache.store)
    (hremoved : Valid (cache.removeEntry key).store)
    (hevicted : Valid ((cache.removeEntry key).evictUntilSpaceAvailable requiredSpace).store) :
    EvictionStrategy.peek
      ((cache.removeEntry key).evictUntilSpaceAvailable requiredSpace).store key = none := by
  rw [peek_eq hevicted, Assoc.lookup_eq_none_iff]
  intro hkey
  obtain ⟨entry, hentry, rfl⟩ := List.mem_map.mp hkey
  have hkept := evictWhile_contents _ _ hremoved entry hentry
  rw [removeEntry_contents hvalid] at hkept
  exact (Assoc.mem_erase.mp hkept).2 rfl

theorem Accounted.insertWithLock (haccounted : cache.Accounted)
    (hmax : cache.config.maxMemoryBytes < 2 ^ 64) {entrySize : Nat}
    (hfits : entrySize ≤ cache.config.maxMemoryBytes) (key : Bytes) (keyType : CachedKeyType)
    (value : Value) (now : Nat) :
    (cache.insertWithLock key keyType value entrySize now).Accounted ∧
      ∃ entry : CacheEntry, entry.value = value ∧ entry.keyType = keyType ∧
        entry.size = entrySize ∧
        (contents (cache.insertWithLock key keyType value entrySize now).store).Perm
          ((key, entry) :: contents
            ((cache.removeEntry key).evictUntilSpaceAvailable entrySize).store) := by
  have hremoved := haccounted.removeEntry key
  have hconfig := cache.removeEntry_config key
  have hevicted : ((cache.removeEntry key).evictUntilSpaceAvailable entrySize).Accounted :=
    hremoved.evictWhile _ _
  have hspace := hremoved.fits (hconfig ▸ hfits)
  rw [hconfig] at hspace
  have habsent := peek_removeEntry_evict haccounted.valid hremoved.valid hevicted.valid
  let entry : CacheEntry := ⟨value, keyType,
    ((cache.removeEntry key).evictUntilSpaceAvailable entrySize).computeExpiresAt now, entrySize⟩
  obtain ⟨hvalid, hperm⟩ := insert_spec hevicted.valid habsent entry now
  have htotal : ((cache.removeEntry key).evictUntilSpaceAvailable entrySize).currentMemory +
      entrySize < 2 ^ 64 := by omega
  refine ⟨⟨hvalid, ?_, ?_⟩, entry, rfl, rfl, rfl, hperm⟩
  · refine Eq.trans ?_ (totalSize_perm hperm).symm
    simp only [GlideCacheImpl.insertWithLock, charge, if_pos htotal, totalSize]
    rw [hevicted.memory, Nat.add_comm]
  · simp only [GlideCacheImpl.insertWithLock, charge, if_pos htotal,
      evictUntilSpaceAvailable_config, hconfig]
    exact hspace

theorem insertWithLock_config (cache : GlideCacheImpl S) (key : Bytes) (keyType : CachedKeyType)
    (value : Value) (entrySize now : Nat) :
    (cache.insertWithLock key keyType value entrySize now).config = cache.config := by
  simp [insertWithLock, charge, evictUntilSpaceAvailable_config, removeEntry_config]

theorem Accounted.flushStore (haccounted : cache.Accounted) :
    cache.flushStore.Accounted ∧ contents cache.flushStore.store = [] ∧
      cache.flushStore.currentMemory = 0 := by
  have hflushed : cache.flushStore.Accounted := haccounted.evictWhile _ _
  have hended : EvictionEnded (fun _ => true) cache.flushStore := evictWhile_ended _ le_rfl
  have hempty := evictOne_none hflushed.valid (hended.resolve_left (by simp))
  have hmemory := hflushed.memory
  rw [hempty] at hmemory
  exact ⟨hflushed, hempty, hmemory⟩

end GlideCacheImpl

/-! ## Runs -/

namespace SharedCache

variable {S : Type} [LawfulStrategy S] {layout : Layout} {shared : SharedCache S}

open GlideCacheImpl

structure Accounted (config : CacheConfig) (shared : SharedCache S) : Prop where
  cache : shared.cache.Accounted
  config_eq : shared.cache.config = config

theorem new_accounted {store : S} (hvalid : Valid store) (hempty : contents store = [])
    (config : CacheConfig) : (new store config).Accounted config :=
  ⟨⟨hvalid, by rw [new, hempty]; rfl, Nat.zero_le _⟩, rfl⟩

private theorem removeIfExpired_config (cache : GlideCacheImpl S) (key : Bytes) (now : Nat) :
    (cache.removeIfExpired key now).config = cache.config := by
  unfold GlideCacheImpl.removeIfExpired
  split_ifs
  · exact cache.removeEntry_config key
  · rfl

variable {config : CacheConfig}

theorem Accounted.get (haccounted : shared.Accounted config) (key : Bytes)
    (expectedType : CachedKeyType) (now : Nat) :
    (shared.get key expectedType now).2.Accounted config := by
  unfold SharedCache.get
  split
  · exact haccounted
  · split_ifs
    · exact ⟨haccounted.cache.removeIfExpired key now,
        (removeIfExpired_config _ key now).trans haccounted.config_eq⟩
    · exact haccounted
    · exact ⟨haccounted.cache.promote key now, haccounted.config_eq⟩

section

variable (hmax : config.maxMemoryBytes < 2 ^ 64)
include hmax

theorem Accounted.store
    (haccounted : shared.Accounted config) (key : Bytes) (keyType : CachedKeyType) (value : Value)
    {entrySize : Nat} (hsmall : ¬ shared.cache.entryTooBig entrySize) (now : Nat)
    (registry : CacheFillRegistry) :
    Accounted config
      ⟨shared.cache.insertWithLock key keyType value entrySize now, registry⟩ := by
  simp only [entryTooBig, decide_eq_true_eq, not_lt] at hsmall
  rw [← haccounted.config_eq] at hmax
  exact ⟨(haccounted.cache.insertWithLock hmax hsmall key keyType value now).1,
    (insertWithLock_config _ key keyType value entrySize now).trans haccounted.config_eq⟩

theorem Accounted.apply (haccounted : shared.Accounted config) (op : CacheOp) :
    (shared.apply layout op).Accounted config := by
  cases op with
  | get key expectedType now => exact haccounted.get key expectedType now
  | removeIfExpired key now =>
    exact ⟨haccounted.cache.removeIfExpired key now,
      (removeIfExpired_config _ key now).trans haccounted.config_eq⟩
  | promote key now => exact ⟨haccounted.cache.promote key now, haccounted.config_eq⟩
  | insert key keyType value now =>
    simp only [SharedCache.apply, SharedCache.insert]
    split_ifs with hbig
    · exact haccounted
    · exact haccounted.store hmax key keyType value hbig now _
  | beginCacheFill key | dropFill fill => exact ⟨haccounted.cache, haccounted.config_eq⟩
  | insertIfActiveFill key keyType value fill now =>
    simp only [SharedCache.apply, SharedCache.insertIfActiveFill]
    split_ifs with hbig
    · exact ⟨haccounted.cache, haccounted.config_eq⟩
    · exact haccounted.store hmax key keyType value hbig now _
    · exact ⟨haccounted.cache, haccounted.config_eq⟩
  | invalidate key =>
    exact ⟨haccounted.cache.removeEntry key,
      (removeEntry_config _ key).trans haccounted.config_eq⟩
  | evictUntilSpaceAvailable requiredSpace =>
    exact ⟨haccounted.cache.evictWhile _ _,
      (evictUntilSpaceAvailable_config _ requiredSpace).trans haccounted.config_eq⟩
  | flushAll =>
    exact ⟨haccounted.cache.flushStore.1, (evictWhile_config _ _ _).trans haccounted.config_eq⟩

theorem applyAll_accounted (hinit : shared.Accounted config) (ops : List CacheOp) :
    (shared.applyAll layout ops).Accounted config :=
  applyAll_invariant (fun _ op haccounted (_ : True) => haccounted.apply hmax op) hinit
    fun _ _ => trivial

/-- The memory discipline of a cache that starts empty and goes through `ops`. -/
structure MemoryDiscipline (layout : Layout) (config : CacheConfig) (store : S)
    (ops : List CacheOp) : Prop where
  memory : ((new store config).applyAll layout ops).cache.currentMemory =
    totalSize (contents ((new store config).applyAll layout ops).cache.store)
  bounded : ((new store config).applyAll layout ops).cache.currentMemory ≤ config.maxMemoryBytes
  flushed : contents ((new store config).applyAll layout ops).flushAll.cache.store = [] ∧
    ((new store config).applyAll layout ops).flushAll.cache.currentMemory = 0

theorem memoryDiscipline_of_empty {store : S}
    (hvalid : Valid store) (hempty : contents store = []) (ops : List CacheOp) :
    MemoryDiscipline layout config store ops := by
  have haccounted : ((new store config).applyAll layout ops).Accounted config :=
    applyAll_accounted hmax (new_accounted hvalid hempty config) ops
  have hbounded := haccounted.cache.bounded
  rw [haccounted.config_eq] at hbounded
  exact ⟨haccounted.cache.memory, hbounded, haccounted.cache.flushStore.2⟩

end

/-- On every state, the loop has stopped by itself when the rounds of the model are used up. -/
def EvictionTerminates (S : Type) [LawfulStrategy S] : Prop :=
  ∀ (more : GlideCacheImpl S → Bool) (cache : GlideCacheImpl S) (rounds : Nat),
    EvictionStrategy.len cache.store ≤ rounds →
      evictWhile more rounds cache = evictWhile more (EvictionStrategy.len cache.store) cache ∧
      EvictionEnded more (evictWhile more rounds cache)

theorem evictionTerminates (S : Type) [LawfulStrategy S] : EvictionTerminates S :=
  fun more _ _ hrounds => ⟨evictWhile_stable more hrounds, evictWhile_ended more hrounds⟩

/--
Under every lawful strategy, those of both policies among them, and after any operations, the
counter is the sum of the sizes of the stored entries and within its bound, a flush empties
the cache, and the eviction loop ends on every state.
-/
theorem memory_discipline (layout : Layout) (config : CacheConfig)
    (hmax : config.maxMemoryBytes < 2 ^ 64) (order : KeyOrder) (ops : List CacheOp) :
    (∀ (S : Type) [LawfulStrategy S] (store : S), Valid store → contents store = [] →
      MemoryDiscipline layout config store ops ∧ EvictionTerminates S) ∧
    MemoryDiscipline layout config LruStrategy.new ops ∧
      MemoryDiscipline layout config (LfuStrategy.new order) ops ∧
      EvictionTerminates LruStrategy ∧ EvictionTerminates LfuStrategy :=
  ⟨fun S _ _ hvalid hempty =>
      ⟨memoryDiscipline_of_empty hmax hvalid hempty ops, evictionTerminates S⟩,
    memoryDiscipline_of_empty hmax List.nodup_nil rfl ops,
    memoryDiscipline_of_empty hmax (LfuStrategy.new_valid order) rfl ops,
    evictionTerminates LruStrategy, evictionTerminates LfuStrategy⟩

theorem evicting_inserts_accounted :
    MemoryDiscipline ⟨8, 16, fun _ => []⟩ ⟨20, some 5⟩ LruStrategy.new
        [.insert (bytes "a") .string .nil 0, .insert (bytes "b") .hash .okay 1,
          .insert (bytes "c") .string .nil 2, .get (bytes "b") .hash 3, .invalidate (bytes "c")] ∧
      MemoryDiscipline ⟨8, 16, fun _ => []⟩ ⟨20, some 5⟩ (LfuStrategy.new ⟨id, fun _ => .refl _⟩)
        [.insert (bytes "a") .string .nil 0, .insert (bytes "b") .hash .okay 1,
          .insert (bytes "c") .string .nil 2, .get (bytes "b") .hash 3, .invalidate (bytes "c")] ∧
      EvictionTerminates LruStrategy ∧ EvictionTerminates LfuStrategy :=
  (memory_discipline _ ⟨20, some 5⟩ (by decide) _ _).2

end SharedCache

end ValkeyGlide.Cache
