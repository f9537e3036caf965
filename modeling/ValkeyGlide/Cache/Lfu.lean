import Mathlib.Data.List.MinMax
import ValkeyGlide.Cache.Strategy

/-!
# Least frequently used

The strategy of `lfu_cache.rs`.  Keys are kept in buckets by how often they have
been used, and the least frequency in use is tracked.  Hash maps and hash sets are
lists with distinct keys; the order in which a hash set is visited is a field of
the store and decides only between entries that were used at the same instant.
-/

namespace ValkeyGlide.Cache

open Foundation Protocol

structure LfuEntry where
  base : CacheEntry
  frequency : Nat
  lastAccess : Nat

namespace LfuEntry

def new (base : CacheEntry) (now : Nat) : LfuEntry := ⟨base, 1, now⟩

/-- The frequency is a 64-bit counter. -/
def touch (entry : LfuEntry) (now : Nat) : LfuEntry :=
  { entry with frequency := (entry.frequency + 1) % 2 ^ 64, lastAccess := now }

end LfuEntry

/-! ## Buckets -/

structure FrequencyBuckets where
  buckets : List (Nat × List Bytes)
  minFrequency : Nat

namespace FrequencyBuckets

def new : FrequencyBuckets := ⟨[], 0⟩

def bucket (freq : FrequencyBuckets) (frequency : Nat) : List Bytes :=
  (Assoc.lookup freq.buckets frequency).getD []

def setBucket (freq : FrequencyBuckets) (frequency : Nat) (keys : List Bytes) : FrequencyBuckets :=
  { freq with buckets := (frequency, keys) :: Assoc.erase freq.buckets frequency }

def add (freq : FrequencyBuckets) (key : Bytes) (frequency : Nat) : FrequencyBuckets :=
  let minFrequency :=
    if freq.buckets = [] ∨ frequency < freq.minFrequency then frequency else freq.minFrequency
  { freq with minFrequency := minFrequency }.setBucket frequency
    ((freq.bucket frequency).insert key)

def updateMinFrequency (freq : FrequencyBuckets) : FrequencyBuckets :=
  { freq with minFrequency := (freq.buckets.map Prod.fst).min?.getD 0 }

def remove (freq : FrequencyBuckets) (key : Bytes) (frequency : Nat) : FrequencyBuckets :=
  match Assoc.lookup freq.buckets frequency with
  | none => freq
  | some keys =>
    let kept := keys.filter fun other => other != key
    if kept = [] then
      let freq := { freq with buckets := Assoc.erase freq.buckets frequency }
      if frequency = freq.minFrequency then freq.updateMinFrequency else freq
    else freq.setBucket frequency kept

def increment (freq : FrequencyBuckets) (key : Bytes) (oldFreq : Nat) : FrequencyBuckets :=
  (freq.remove key oldFreq).add key ((oldFreq + 1) % 2 ^ 64)

end FrequencyBuckets

/-! ## The strategy -/

/-- The order in which the keys of a bucket are visited. -/
structure KeyOrder where
  visit : List Bytes → List Bytes
  perm : ∀ keys, (visit keys).Perm keys

/-- The first of the items of least rank. -/
def minByKey {α : Type} (rank : α → Nat) (items : List α) : Option α := items.argmin rank

structure LfuStrategy where
  cache : List (Bytes × LfuEntry)
  freqBuckets : FrequencyBuckets
  order : KeyOrder

namespace LfuStrategy

def new (order : KeyOrder) : LfuStrategy := ⟨[], .new, order⟩

def peek (lfu : LfuStrategy) (key : Bytes) : Option CacheEntry :=
  (Assoc.lookup lfu.cache key).map LfuEntry.base

def touch (lfu : LfuStrategy) (key : Bytes) (now : Nat) : List (Bytes × LfuEntry) :=
  lfu.cache.map fun entry => if entry.1 = key then (entry.1, entry.2.touch now) else entry

def promote (lfu : LfuStrategy) (key : Bytes) (now : Nat) : LfuStrategy :=
  match Assoc.lookup lfu.cache key with
  | none => lfu
  | some entry =>
    { lfu with
      cache := lfu.touch key now
      freqBuckets := lfu.freqBuckets.increment key entry.frequency }

def insert (lfu : LfuStrategy) (key : Bytes) (entry : CacheEntry) (now : Nat) : LfuStrategy :=
  { lfu with
    cache := (key, .new entry now) :: Assoc.erase lfu.cache key
    freqBuckets := lfu.freqBuckets.add key 1 }

def remove (lfu : LfuStrategy) (key : Bytes) : Option CacheEntry × LfuStrategy :=
  match Assoc.lookup lfu.cache key with
  | none => (none, lfu)
  | some entry =>
    (some entry.base,
      { lfu with
        cache := Assoc.erase lfu.cache key
        freqBuckets := lfu.freqBuckets.remove key entry.frequency })

/-- The key of the least frequency that was used longest ago. -/
def victim (lfu : LfuStrategy) : Option Bytes := do
  let bucket ← Assoc.lookup lfu.freqBuckets.buckets lfu.freqBuckets.minFrequency
  let candidates := (lfu.order.visit bucket).filterMap fun key =>
    (Assoc.lookup lfu.cache key).map fun entry => (key, entry.lastAccess)
  (minByKey Prod.snd candidates).map Prod.fst

def evictOne (lfu : LfuStrategy) : Option (CacheEntry × LfuStrategy) :=
  if lfu.freqBuckets.buckets = [] then none
  else
    match lfu.victim with
    | none => none
    | some key =>
      match lfu.remove key with
      | (none, _) => none
      | (some entry, lfu) => some (entry, lfu)

end LfuStrategy

instance : EvictionStrategy LfuStrategy where
  promote := LfuStrategy.promote
  peek := LfuStrategy.peek
  insert := LfuStrategy.insert
  remove := LfuStrategy.remove
  evictOne := LfuStrategy.evictOne
  len lfu := lfu.cache.length

/-! ## What the buckets hold -/

namespace FrequencyBuckets

/-- Buckets are distinct and filled, and the least frequency is that of a bucket. -/
structure Valid (freq : FrequencyBuckets) : Prop where
  distinct : Assoc.Distinct freq.buckets
  filled : ∀ bucket ∈ freq.buckets, bucket.2 ≠ []
  least_mem : freq.buckets ≠ [] → freq.minFrequency ∈ freq.buckets.map Prod.fst
  least_le : ∀ frequency ∈ freq.buckets.map Prod.fst, freq.minFrequency ≤ frequency

def Holds (freq : FrequencyBuckets) (frequency : Nat) (key : Bytes) : Prop :=
  ∃ keys, (frequency, keys) ∈ freq.buckets ∧ key ∈ keys

variable {freq : FrequencyBuckets} {frequency : Nat} {key : Bytes}

theorem holds_iff (hvalid : freq.Valid) :
    freq.Holds frequency key ↔ key ∈ freq.bucket frequency := by
  unfold Holds bucket
  constructor
  · rintro ⟨keys, hmem, hkey⟩
    simpa [(Assoc.lookup_eq_some_iff hvalid.distinct).mpr hmem] using hkey
  · intro hkey
    cases hlookup : Assoc.lookup freq.buckets frequency with
    | none => simp [hlookup] at hkey
    | some keys => exact ⟨keys, Assoc.mem_of_lookup hlookup, by simpa [hlookup] using hkey⟩

theorem holds_setBucket (frequency : Nat) (keys : List Bytes) (other : Nat) (key : Bytes) :
    (freq.setBucket frequency keys).Holds other key ↔
      if other = frequency then key ∈ keys else freq.Holds other key := by
  simp only [Holds, setBucket, List.mem_cons, Prod.mk.injEq, Assoc.mem_erase]
  grind

private theorem mem_keys_erase {other : Nat} :
    other ∈ (Assoc.erase freq.buckets frequency).map Prod.fst ↔
      other ∈ freq.buckets.map Prod.fst ∧ other ≠ frequency := by
  simp only [List.mem_map, Assoc.mem_erase]
  grind

theorem new_valid : new.Valid :=
  ⟨List.nodup_nil, by simp [new], by simp [new], by simp [new]⟩

theorem add_valid (hvalid : freq.Valid) (key : Bytes) (frequency : Nat) :
    (freq.add key frequency).Valid where
  distinct := hvalid.distinct.cons_erase _ _
  filled := by
    intro bucket hbucket
    rcases List.mem_cons.mp hbucket with rfl | hkept
    · exact List.ne_nil_of_mem (List.mem_insert_self)
    · exact hvalid.filled bucket (Assoc.mem_erase.mp hkept).1
  least_mem := by
    have hmem := hvalid.least_mem
    simp only [add, setBucket, List.map_cons, List.mem_cons, mem_keys_erase]
    grind
  least_le := by
    have hle := hvalid.least_le
    simp only [add, setBucket, List.map_cons, List.mem_cons, mem_keys_erase]
    grind

theorem holds_add (hvalid : freq.Valid) (key : Bytes) (frequency other : Nat) (found : Bytes) :
    (freq.add key frequency).Holds other found ↔
      freq.Holds other found ∨ other = frequency ∧ found = key := by
  -- the tracked minimum plays no part in what the buckets hold
  show (freq.setBucket frequency ((freq.bucket frequency).insert key)).Holds other found ↔ _
  rw [holds_setBucket]
  split_ifs with hother
  · subst hother
    rw [List.mem_insert_iff, holds_iff hvalid]
    tauto
  · simp [hother]

theorem updateMinFrequency_valid (hdistinct : Assoc.Distinct freq.buckets)
    (hfilled : ∀ bucket ∈ freq.buckets, bucket.2 ≠ []) : freq.updateMinFrequency.Valid where
  distinct := hdistinct
  filled := hfilled
  least_mem := by
    intro hbuckets
    simp only [updateMinFrequency] at hbuckets ⊢
    cases hleast : (freq.buckets.map Prod.fst).min? with
    | none => simp [hbuckets] at hleast
    | some least => exact (List.min?_eq_some_iff.mp hleast).1
  least_le := by
    intro frequency hfrequency
    simp only [updateMinFrequency] at hfrequency ⊢
    cases hleast : (freq.buckets.map Prod.fst).min? with
    | none => simp
    | some least => exact (List.min?_eq_some_iff.mp hleast).2 frequency hfrequency

theorem remove_valid (hvalid : freq.Valid) (key : Bytes) (frequency : Nat) :
    (freq.remove key frequency).Valid := by
  have hfilled : ∀ bucket ∈ Assoc.erase freq.buckets frequency, bucket.2 ≠ [] :=
    fun bucket hbucket => hvalid.filled bucket (Assoc.mem_erase.mp hbucket).1
  unfold remove
  split
  · exact hvalid
  · rename_i keys hlookup
    have hpresent : frequency ∈ freq.buckets.map Prod.fst :=
      List.mem_map_of_mem (Assoc.mem_of_lookup hlookup)
    have hmem := hvalid.least_mem (by rintro hnone; simp [hnone] at hpresent)
    have hle := hvalid.least_le
    dsimp only
    split_ifs with hempty hleast
    · exact updateMinFrequency_valid (hvalid.distinct.erase frequency) hfilled
    · -- the bucket of the least frequency is another one
      refine ⟨hvalid.distinct.erase frequency, hfilled, ?_, ?_⟩ <;>
        simp only [mem_keys_erase] <;> grind
    · refine ⟨hvalid.distinct.cons_erase _ _, List.forall_mem_cons.mpr ⟨hempty, hfilled⟩, ?_, ?_⟩ <;>
        simp only [setBucket, List.map_cons, List.mem_cons, mem_keys_erase] <;> grind

theorem holds_remove (hvalid : freq.Valid) (key : Bytes) (frequency other : Nat) (found : Bytes) :
    (freq.remove key frequency).Holds other found ↔
      freq.Holds other found ∧ ¬ (other = frequency ∧ found = key) := by
  unfold remove
  have hbucket : freq.Holds frequency found ↔ found ∈ freq.bucket frequency := holds_iff hvalid
  cases hlookup : Assoc.lookup freq.buckets frequency with
  | none =>
    simp only [bucket, hlookup, Option.getD_none, List.not_mem_nil, iff_false] at hbucket
    grind
  | some keys =>
    have herased : FrequencyBuckets.Holds ⟨Assoc.erase freq.buckets frequency, 0⟩ other found ↔
        other ≠ frequency ∧ freq.Holds other found := by
      simp only [Holds, Assoc.mem_erase]
      grind
    simp only [bucket, hlookup, Option.getD_some] at hbucket
    dsimp only
    split_ifs with hempty hleast
    · refine herased.trans ?_
      have := List.filter_eq_nil_iff.mp hempty found
      grind
    · refine herased.trans ?_
      have := List.filter_eq_nil_iff.mp hempty found
      grind
    · rw [holds_setBucket]
      grind

end FrequencyBuckets

/-! ## Validity -/

namespace LfuStrategy

/-- Every stored key is in the bucket of its frequency, and in no other. -/
structure Valid (lfu : LfuStrategy) : Prop where
  distinct : Assoc.Distinct lfu.cache
  buckets : lfu.freqBuckets.Valid
  bucketed : ∀ frequency key, lfu.freqBuckets.Holds frequency key ↔
    ∃ entry, (key, entry) ∈ lfu.cache ∧ entry.frequency = frequency

def contents (lfu : LfuStrategy) : List (Bytes × CacheEntry) :=
  lfu.cache.map fun entry => (entry.1, entry.2.base)

variable {lfu next : LfuStrategy} {key : Bytes} {α : Type} {items : List α} {rank : α → Nat}
  {entry : CacheEntry}

theorem keys_contents (lfu : LfuStrategy) :
    lfu.contents.map Prod.fst = lfu.cache.map Prod.fst := by
  simp [contents, Function.comp_def]

theorem peek_eq_lookup (lfu : LfuStrategy) (key : Bytes) :
    lfu.peek key = Assoc.lookup lfu.contents key := by
  simp [peek, Assoc.lookup, contents, List.find?_map, Function.comp_def]

theorem erase_contents (lfu : LfuStrategy) (key : Bytes) :
    (Assoc.erase lfu.cache key).map (fun entry => (entry.1, entry.2.base)) =
      Assoc.erase lfu.contents key := by
  simp [Assoc.erase, contents, List.filter_map, Function.comp_def]

theorem new_valid (order : KeyOrder) : (new order).Valid := by
  refine ⟨List.nodup_nil, FrequencyBuckets.new_valid, ?_⟩
  simp [new, FrequencyBuckets.new, FrequencyBuckets.Holds]

theorem contents_touch (lfu : LfuStrategy) (key : Bytes) (now : Nat) :
    (lfu.touch key now).map (fun entry => (entry.1, entry.2.base)) = lfu.contents := by
  rw [touch, contents, List.map_map]
  apply List.map_congr_left
  intro entry _
  simp only [Function.comp_apply]
  split_ifs <;> rfl

theorem mem_touch (hdistinct : Assoc.Distinct lfu.cache) {held : LfuEntry}
    (hheld : (key, held) ∈ lfu.cache) (now : Nat) (other : Bytes) (entry : LfuEntry) :
    (other, entry) ∈ lfu.touch key now ↔
      if other = key then entry = held.touch now else (other, entry) ∈ lfu.cache := by
  have honly : ∀ entry, (key, entry) ∈ lfu.cache → entry = held := fun _ hmem =>
    hdistinct.unique hmem hheld
  rw [touch, List.mem_map]
  grind

theorem promote_valid (hvalid : lfu.Valid) (key : Bytes) (now : Nat) :
    (lfu.promote key now).Valid ∧ (lfu.promote key now).contents = lfu.contents := by
  unfold promote
  split
  · exact ⟨hvalid, rfl⟩
  · rename_i held hlookup
    have hheld : (key, held) ∈ lfu.cache := Assoc.mem_of_lookup hlookup
    have honly : ∀ entry, (key, entry) ∈ lfu.cache → entry = held := fun _ hmem =>
      hvalid.distinct.unique hmem hheld
    have hremoved := FrequencyBuckets.remove_valid hvalid.buckets key held.frequency
    refine ⟨⟨?_, FrequencyBuckets.add_valid hremoved _ _, ?_⟩, lfu.contents_touch key now⟩
    · have hkeys : (lfu.touch key now).map Prod.fst = lfu.cache.map Prod.fst := by
        have hcontents := congrArg (List.map Prod.fst) (lfu.contents_touch key now)
        rw [keys_contents] at hcontents
        simpa [Function.comp_def] using hcontents
      rw [Assoc.Distinct, hkeys]
      exact hvalid.distinct
    · intro frequency other
      dsimp only
      rw [FrequencyBuckets.increment, FrequencyBuckets.holds_add hremoved,
        FrequencyBuckets.holds_remove hvalid.buckets, hvalid.bucketed]
      simp only [mem_touch hvalid.distinct hheld, LfuEntry.touch]
      by_cases hother : other = key
      · subst hother
        simp only [if_true, and_true, exists_eq_left]
        grind
      · simp [hother]

theorem insert_valid (hvalid : lfu.Valid) (hpeek : lfu.peek key = none) (entry : CacheEntry)
    (now : Nat) :
    (lfu.insert key entry now).Valid ∧
      (lfu.insert key entry now).contents = (key, entry) :: lfu.contents := by
  have hlookup : Assoc.lookup lfu.cache key = none := Option.map_eq_none_iff.mp hpeek
  have hkept : Assoc.erase lfu.cache key = lfu.cache := Assoc.erase_of_lookup_none hlookup
  refine ⟨⟨hvalid.distinct.cons_erase _ _, FrequencyBuckets.add_valid hvalid.buckets _ _, ?_⟩, ?_⟩
  · intro frequency other
    simp only [insert, hkept]
    rw [FrequencyBuckets.holds_add hvalid.buckets, hvalid.bucketed]
    simp only [List.mem_cons, Prod.mk.injEq, LfuEntry.new]
    grind
  · simp [insert, contents, hkept, LfuEntry.new]

theorem remove_valid (hvalid : lfu.Valid) (key : Bytes) :
    (lfu.remove key).1 = lfu.peek key ∧ (lfu.remove key).2.Valid ∧
      (lfu.remove key).2.contents = Assoc.erase lfu.contents key := by
  unfold remove peek
  cases hlookup : Assoc.lookup lfu.cache key with
  | none =>
    refine ⟨rfl, hvalid, (Assoc.erase_of_lookup_none ?_).symm⟩
    rw [← peek_eq_lookup, peek, hlookup]
    rfl
  | some held =>
    have hheld : (key, held) ∈ lfu.cache := Assoc.mem_of_lookup hlookup
    have honly : ∀ entry, (key, entry) ∈ lfu.cache → entry = held := fun _ hmem =>
      hvalid.distinct.unique hmem hheld
    refine ⟨rfl, ⟨hvalid.distinct.erase key,
      FrequencyBuckets.remove_valid hvalid.buckets _ _, ?_⟩, lfu.erase_contents key⟩
    intro frequency other
    rw [FrequencyBuckets.holds_remove hvalid.buckets, hvalid.bucketed]
    simp only [Assoc.mem_erase]
    grind

/-! ## Eviction -/

theorem evictOne_eq_some (hevict : lfu.evictOne = some (entry, next)) :
    ∃ key, lfu.victim = some key ∧ lfu.remove key = (some entry, next) := by
  unfold evictOne at hevict
  split_ifs at hevict
  split at hevict
  · contradiction
  · rename_i key hvictim
    split at hevict
    · contradiction
    · rename_i hremove
      obtain ⟨rfl, rfl⟩ := Prod.mk.inj (Option.some.inj hevict)
      exact ⟨key, hvictim, hremove⟩

theorem length_remove (hremove : lfu.remove key = (some entry, next)) :
    next.cache.length < lfu.cache.length := by
  unfold remove at hremove
  split at hremove
  · simp at hremove
  · rename_i hlookup
    obtain ⟨-, rfl⟩ := Prod.mk.inj hremove
    exact List.length_filter_lt_length_iff_exists.mpr
      ⟨_, Assoc.mem_of_lookup hlookup, by simp⟩

theorem victim_isSome (hvalid : lfu.Valid) (hbuckets : lfu.freqBuckets.buckets ≠ []) :
    ∃ key held, lfu.victim = some key ∧ Assoc.lookup lfu.cache key = some held := by
  obtain ⟨⟨frequency, keys⟩, hbucket, hleast⟩ :=
    List.mem_map.mp (hvalid.buckets.least_mem hbuckets)
  dsimp only at hleast
  subst hleast
  have hlookup := (Assoc.lookup_eq_some_iff hvalid.buckets.distinct).mpr hbucket
  cases hvictim : lfu.victim with
  | none =>
    obtain ⟨key, hkey⟩ := List.exists_mem_of_ne_nil keys (hvalid.buckets.filled _ hbucket)
    obtain ⟨held, hheld, -⟩ := (hvalid.bucketed _ key).mp ⟨keys, hbucket, hkey⟩
    simp only [victim, hlookup, Option.bind_eq_bind, Option.bind_some,
      Option.map_eq_none_iff] at hvictim
    have hnone := List.filterMap_eq_nil_iff.mp (List.argmin_eq_none.mp hvictim) key
      ((lfu.order.perm keys).mem_iff.mpr hkey)
    simp [(Assoc.lookup_eq_some_iff hvalid.distinct).mpr hheld] at hnone
  | some key =>
    simp only [victim, hlookup, Option.bind_eq_bind, Option.bind_some] at hvictim
    obtain ⟨candidate, hcandidate, rfl⟩ := Option.map_eq_some_iff.mp hvictim
    obtain ⟨visited, -, hfound⟩ := List.mem_filterMap.mp (List.argmin_mem hcandidate)
    obtain ⟨held, hheld, rfl⟩ := Option.map_eq_some_iff.mp hfound
    exact ⟨visited, held, rfl, hheld⟩

theorem contents_of_evictOne_none (hvalid : lfu.Valid) (hevict : lfu.evictOne = none) :
    lfu.contents = [] := by
  unfold evictOne at hevict
  split_ifs at hevict with hbuckets
  · -- no bucket, so no key that is in one
    have hempty : lfu.cache = [] := by
      refine List.eq_nil_iff_forall_not_mem.mpr fun ⟨key, entry⟩ hmem => ?_
      obtain ⟨keys, hbucket, -⟩ := (hvalid.bucketed entry.frequency key).mpr ⟨entry, hmem, rfl⟩
      simp [hbuckets] at hbucket
    simp [contents, hempty]
  · obtain ⟨key, held, hvictim, hheld⟩ := victim_isSome hvalid hbuckets
    simp [hvictim, remove, hheld] at hevict

end LfuStrategy

instance : LawfulStrategy LfuStrategy where
  Valid := LfuStrategy.Valid
  contents := LfuStrategy.contents
  distinct := by
    intro lfu hvalid
    rw [Assoc.Distinct, LfuStrategy.keys_contents]
    exact hvalid.distinct
  peek_eq := fun {lfu} _ key => lfu.peek_eq_lookup key
  promote_spec := by
    intro lfu hvalid key now
    obtain ⟨hpromoted, hcontents⟩ := LfuStrategy.promote_valid hvalid key now
    exact ⟨hpromoted, .of_eq hcontents⟩
  insert_spec := by
    intro lfu hvalid key hpeek entry now
    obtain ⟨hinserted, hcontents⟩ := LfuStrategy.insert_valid hvalid hpeek entry now
    exact ⟨hinserted, .of_eq hcontents⟩
  remove_spec := LfuStrategy.remove_valid
  evictOne_spec := by
    intro lfu hvalid entry next hevict
    obtain ⟨key, -, hremove⟩ := LfuStrategy.evictOne_eq_some hevict
    obtain ⟨hpeek, hnext, hcontents⟩ := LfuStrategy.remove_valid hvalid key
    rw [hremove] at hpeek hnext hcontents
    rw [lfu.peek_eq_lookup] at hpeek
    refine ⟨hnext, key, ?_⟩
    rw [hcontents]
    refine Assoc.perm_cons_erase ?_ (Assoc.mem_of_lookup hpeek.symm)
    rw [Assoc.Distinct, LfuStrategy.keys_contents]
    exact hvalid.distinct
  evictOne_none := LfuStrategy.contents_of_evictOne_none
  len_evictOne := by
    intro lfu entry next hevict
    obtain ⟨key, -, hremove⟩ := LfuStrategy.evictOne_eq_some hevict
    exact LfuStrategy.length_remove hremove

end ValkeyGlide.Cache
