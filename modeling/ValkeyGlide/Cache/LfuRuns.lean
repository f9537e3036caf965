import Mathlib.Data.List.Induction
import ValkeyGlide.Cache.Lfu
import ValkeyGlide.Foundation.Log

/-!
# The least frequently used entry

What the frequencies in the entries, the buckets and the tracked minimum have to do with
each other and with the uses made of the keys, after any sequence of operations
(`lfu_cache.rs`), and which entry is evicted.
-/

namespace ValkeyGlide.Cache

open Foundation Protocol

inductive LfuAction where
  | insert (key : Bytes) (entry : CacheEntry) (now : Nat)
  | promote (key : Bytes) (now : Nat)
  | remove (key : Bytes)
  | evictOne

namespace LfuStrategy

/-- Only absent keys are inserted. -/
def step (lfu : LfuStrategy) : LfuAction → Option LfuStrategy
  | .insert key entry now => if lfu.peek key = none then some (lfu.insert key entry now) else none
  | .promote key now => some (lfu.promote key now)
  | .remove key => some (lfu.remove key).2
  | .evictOne => some (lfu.evictOne.elim lfu Prod.snd)

variable {lfu next : LfuStrategy} {action : LfuAction} {actions history : List LfuAction}
  {held entry : LfuEntry} {key : Bytes}

theorem step_valid (hvalid : lfu.Valid) (hstep : lfu.step action = some next) : next.Valid := by
  cases action with
  | insert key entry now =>
    simp only [step] at hstep
    split_ifs at hstep with hpeek
    cases hstep
    exact (insert_valid hvalid hpeek entry now).1
  | promote key now =>
    cases hstep
    exact (promote_valid hvalid key now).1
  | remove key =>
    cases hstep
    exact (remove_valid hvalid key).2.1
  | evictOne =>
    cases hstep
    cases hevict : lfu.evictOne with
    | none => exact hvalid
    | some evicted =>
      obtain ⟨key, -, hremove⟩ := evictOne_eq_some hevict
      have hremoved := (remove_valid hvalid key).2.1
      rwa [hremove] at hremoved

theorem Valid.holds_iff (hvalid : lfu.Valid) (hmem : (key, entry) ∈ lfu.cache) {frequency : Nat} :
    lfu.freqBuckets.Holds frequency key ↔ frequency = entry.frequency := by
  rw [hvalid.bucketed]
  constructor
  · rintro ⟨other, hother, rfl⟩
    rw [hvalid.distinct.unique hother hmem]
  · rintro rfl
    exact ⟨entry, hmem, rfl⟩

theorem Valid.minFrequency_le (hvalid : lfu.Valid) (hmem : (key, entry) ∈ lfu.cache) :
    lfu.freqBuckets.minFrequency ≤ entry.frequency := by
  obtain ⟨keys, hkeys, -⟩ := (hvalid.holds_iff hmem).mpr rfl
  exact hvalid.buckets.least_le _ (List.mem_map_of_mem hkeys)

theorem victim_least (hvalid : lfu.Valid) (hvictim : lfu.victim = some key)
    (hheld : Assoc.lookup lfu.cache key = some held) :
    held.frequency = lfu.freqBuckets.minFrequency ∧
      ∀ other ∈ lfu.cache, other.2.frequency = held.frequency →
        held.lastAccess ≤ other.2.lastAccess := by
  obtain ⟨bucket, hbucket, hvictim⟩ := Option.bind_eq_some_iff.mp hvictim
  obtain ⟨⟨_, access⟩, hleast, rfl⟩ := Option.map_eq_some_iff.mp hvictim
  obtain ⟨visited, hvisited, hfound⟩ := List.mem_filterMap.mp (List.argmin_mem hleast)
  obtain ⟨entry, hentry, hpair⟩ := Option.map_eq_some_iff.mp hfound
  cases hpair
  rw [hheld] at hentry
  cases hentry
  have hmem := Assoc.mem_of_lookup hbucket
  -- every key of the bucket has the frequency of the bucket
  obtain ⟨stored, hstored, hfrequency⟩ := (hvalid.bucketed _ _).mp
    ⟨bucket, hmem, (lfu.order.perm bucket).mem_iff.mp hvisited⟩
  rw [(Assoc.lookup_eq_some_iff hvalid.distinct).mpr hstored] at hheld
  cases hheld
  refine ⟨hfrequency, fun other hother hsame => ?_⟩
  obtain ⟨keys, hkeys, hotherKey⟩ := (hvalid.holds_iff hother).mpr rfl
  rw [hsame, hfrequency, ← Assoc.lookup_eq_some_iff hvalid.buckets.distinct, hbucket] at hkeys
  cases hkeys
  refine List.le_of_mem_argmin (f := Prod.snd) (a := (other.1, other.2.lastAccess))
    (List.mem_filterMap.mpr ⟨other.1, (lfu.order.perm bucket).mem_iff.mpr hotherKey, ?_⟩) hleast
  rw [(Assoc.lookup_eq_some_iff hvalid.distinct).mpr hother]
  rfl

theorem evictOne_least (hvalid : lfu.Valid) {base : CacheEntry}
    (hevict : lfu.evictOne = some (base, next)) :
    ∃ key held, (key, held) ∈ lfu.cache ∧ held.base = base ∧
      next.cache = Assoc.erase lfu.cache key ∧
      ∀ other ∈ lfu.cache, held.frequency ≤ other.2.frequency ∧
        (other.2.frequency = held.frequency → held.lastAccess ≤ other.2.lastAccess) := by
  obtain ⟨key, hkey, hremove⟩ := evictOne_eq_some hevict
  unfold remove at hremove
  split at hremove
  · cases hremove
  · next held hheld =>
    cases hremove
    obtain ⟨hfrequency, hearliest⟩ := victim_least hvalid hkey hheld
    refine ⟨key, held, Assoc.mem_of_lookup hheld, rfl, rfl, fun other hother => ⟨?_, ?_⟩⟩
    · exact hfrequency ▸ hvalid.minFrequency_le hother
    · exact hearliest other hother

/-! ## The uses of a key -/

def useAfter (key : Bytes) (uses : List Nat) : LfuAction → List Nat
  | .insert other _ now => if other = key then [now] else uses
  | .promote other now => if other = key then uses ++ [now] else uses
  | .remove _ | .evictOne => uses

/-- The times at which a key was used: its last insert and the promotes after it. -/
def uses (history : List LfuAction) (key : Bytes) : List Nat :=
  history.foldl (useAfter key) []

def lastUse (history : List LfuAction) (key : Bytes) : Nat :=
  (uses history key).getLast?.getD 0

/-- Used less often, or as often and not more recently. -/
def UsedLess (history : List LfuAction) (key other : Bytes) : Prop :=
  (uses history key).length ≤ (uses history other).length ∧
    ((uses history other).length = (uses history key).length →
      lastUse history key ≤ lastUse history other)

theorem uses_concat (history : List LfuAction) (action : LfuAction) (key : Bytes) :
    uses (history ++ [action]) key = useAfter key (uses history key) action := by
  simp [uses]

theorem length_uses_le (history : List LfuAction) (key : Bytes) :
    (uses history key).length ≤ history.length := by
  induction history using List.reverseRecOn with
  | nil => exact le_rfl
  | append_singleton history action ih =>
    rw [uses_concat, List.length_append, List.length_singleton]
    cases action with
    | insert | promote =>
      simp only [useAfter]
      split_ifs <;> grind
    | remove | evictOne => exact ih.trans (Nat.le_succ _)

/-- The entry counts the uses of its key, in 64 bits, and has the time of the last one. -/
structure CountsUses (history : List LfuAction) (key : Bytes) (entry : LfuEntry) : Prop where
  frequency : entry.frequency = (uses history key).length % 2 ^ 64
  lastAccess : entry.lastAccess = lastUse history key

theorem CountsUses.concat (hcounts : CountsUses history key entry)
    (hunused : useAfter key (uses history key) action = uses history key) :
    CountsUses (history ++ [action]) key entry := by
  rw [← uses_concat] at hunused
  exact ⟨by rw [hunused, hcounts.frequency], by rw [lastUse, hunused, hcounts.lastAccess, lastUse]⟩

theorem CountsUses.usedLess {other : Bytes} (hheld : CountsUses history key held)
    (hentry : CountsUses history other entry) (hshort : history.length < 2 ^ 64)
    (hless : held.frequency ≤ entry.frequency)
    (hearlier : entry.frequency = held.frequency → held.lastAccess ≤ entry.lastAccess) :
    UsedLess history key other := by
  have hkey := length_uses_le history key
  have hother := length_uses_le history other
  rw [hheld.frequency, hentry.frequency, Nat.mod_eq_of_lt (by omega),
    Nat.mod_eq_of_lt (by omega)] at hless hearlier
  rw [hheld.lastAccess, hentry.lastAccess] at hearlier
  exact ⟨hless, hearlier⟩

def Counted (history : List LfuAction) (lfu : LfuStrategy) : Prop :=
  ∀ stored ∈ lfu.cache, CountsUses history stored.1 stored.2

section Counted

variable (hcounted : Counted history lfu)
include hcounted

theorem Counted.insert (key : Bytes) (entry : CacheEntry) (now : Nat) :
    Counted (history ++ [.insert key entry now]) (lfu.insert key entry now) := by
  refine List.forall_mem_cons.mpr ⟨⟨?_, ?_⟩, fun stored hstored => ?_⟩
  · simp [uses_concat, useAfter, LfuEntry.new]
  · simp [lastUse, uses_concat, useAfter, LfuEntry.new]
  · obtain ⟨hold, hne⟩ := Assoc.mem_erase.mp hstored
    exact (hcounted stored hold).concat (if_neg (Ne.symm hne))

theorem Counted.promote (key : Bytes) (now : Nat) :
    Counted (history ++ [.promote key now]) (lfu.promote key now) := by
  unfold LfuStrategy.promote
  split
  · next hnone =>
    intro stored hstored
    have hne : key ≠ stored.1 := by
      rintro rfl
      exact Assoc.lookup_eq_none_iff.mp hnone (List.mem_map_of_mem hstored)
    exact (hcounted stored hstored).concat (if_neg hne)
  · intro stored hstored
    obtain ⟨old, hold, rfl⟩ := List.mem_map.mp hstored
    have hcount := hcounted old hold
    split_ifs with hkey
    · refine ⟨?_, ?_⟩
      · simp [uses_concat, useAfter, hkey, LfuEntry.touch, hcount.frequency, Nat.add_mod]
      · simp [lastUse, uses_concat, useAfter, hkey, LfuEntry.touch]
    · exact hcount.concat (if_neg (Ne.symm hkey))

theorem Counted.remove (key : Bytes)
    (hunused : ∀ other uses, useAfter other uses action = uses) :
    Counted (history ++ [action]) (lfu.remove key).2 := by
  intro stored hstored
  refine (hcounted stored ?_).concat (hunused _ _)
  unfold LfuStrategy.remove at hstored
  split at hstored
  · exact hstored
  · exact (Assoc.mem_erase.mp hstored).1

theorem Counted.step (hstep : lfu.step action = some next) :
    Counted (history ++ [action]) next := by
  cases action with
  | insert key entry now =>
    simp only [LfuStrategy.step] at hstep
    split_ifs at hstep
    cases hstep
    exact hcounted.insert key entry now
  | promote key now =>
    cases hstep
    exact hcounted.promote key now
  | remove key =>
    cases hstep
    exact hcounted.remove key fun _ _ => rfl
  | evictOne =>
    cases hstep
    cases hevict : lfu.evictOne with
    | none => exact fun stored hstored => (hcounted stored hstored).concat rfl
    | some evicted =>
      obtain ⟨key, -, hremove⟩ := evictOne_eq_some hevict
      have hkept : Counted (history ++ [.evictOne]) (lfu.remove key).2 :=
        hcounted.remove key fun _ _ => rfl
      rwa [hremove] at hkept

end Counted

/--
After any operations on an empty store every key is in the bucket of its frequency and in
no other, buckets hold stored keys only and are not empty, the minimum is the least
frequency, and the frequency counts the uses of the key; an eviction finds nothing only in
an empty store, and otherwise takes the entry of a key that no other stored key was used
less than.
-/
theorem bookkeeping_consistent {order : KeyOrder} (hrun : run step (new order) actions = some lfu) :
    (∀ key entry, (key, entry) ∈ lfu.cache → ∀ frequency,
      lfu.freqBuckets.Holds frequency key ↔ frequency = entry.frequency) ∧
    (∀ bucket ∈ lfu.freqBuckets.buckets, bucket.2 ≠ [] ∧
      ∀ key ∈ bucket.2, ∃ entry, (key, entry) ∈ lfu.cache) ∧
    (∀ stored ∈ lfu.cache, lfu.freqBuckets.minFrequency ≤ stored.2.frequency) ∧
    (lfu.cache ≠ [] → ∃ stored ∈ lfu.cache,
      stored.2.frequency = lfu.freqBuckets.minFrequency) ∧
    (∀ stored ∈ lfu.cache, CountsUses actions stored.1 stored.2) ∧
    (lfu.evictOne = none → lfu.cache = []) ∧
    ∀ base next, lfu.evictOne = some (base, next) →
      ∃ key held, (key, held) ∈ lfu.cache ∧ held.base = base ∧
        next.cache = Assoc.erase lfu.cache key ∧
        ∀ other ∈ lfu.cache, held.frequency ≤ other.2.frequency ∧
          (other.2.frequency = held.frequency → held.lastAccess ≤ other.2.lastAccess) ∧
          (actions.length < 2 ^ 64 → UsedLess actions key other.1) := by
  have hvalid : lfu.Valid := run_invariant_all Valid
    (fun lfu action next hvalid hstep => step_valid hvalid hstep) (new_valid order) hrun
  have hcounted : Counted actions lfu :=
    run_invariant_history Counted (fun _ _ _ _ => Counted.step) (by simp [Counted, new]) hrun
  refine ⟨fun key entry hmem frequency => hvalid.holds_iff hmem, ?_,
    fun stored hstored => hvalid.minFrequency_le hstored, ?_, hcounted, ?_, ?_⟩
  · intro bucket hbucket
    refine ⟨hvalid.buckets.filled bucket hbucket, fun key hkey => ?_⟩
    obtain ⟨entry, hmem, -⟩ := (hvalid.bucketed bucket.1 key).mp ⟨bucket.2, hbucket, hkey⟩
    exact ⟨entry, hmem⟩
  · intro hstored
    obtain ⟨⟨key, entry⟩, hmem⟩ := List.exists_mem_of_ne_nil _ hstored
    obtain ⟨keys, hkeys, -⟩ := (hvalid.holds_iff hmem).mpr rfl
    obtain ⟨victim, held, hvictim, hheld⟩ := victim_isSome hvalid (List.ne_nil_of_mem hkeys)
    exact ⟨_, Assoc.mem_of_lookup hheld, (victim_least hvalid hvictim hheld).1⟩
  · exact fun hnone => List.map_eq_nil_iff.mp (contents_of_evictOne_none hvalid hnone)
  · intro base next hevict
    obtain ⟨key, held, hmem, hbase, hcache, hleast⟩ := evictOne_least hvalid hevict
    refine ⟨key, held, hmem, hbase, hcache, fun other hother => ?_⟩
    obtain ⟨hfewer, hearlier⟩ := hleast other hother
    exact ⟨hfewer, hearlier, fun hshort =>
      (hcounted _ hmem).usedLess (hcounted _ hother) hshort hfewer hearlier⟩

/-- Two keys are stored, and the one that was stored first is used once more. -/
def usedOnceMore : List LfuAction :=
  [.insert [1] ⟨.int 1, .string, none, 1⟩ 1, .insert [2] ⟨.int 2, .string, none, 1⟩ 2,
    .promote [1] 3]

theorem less_used_key_evicted :
    ∃ lfu next, run step (new ⟨id, .refl⟩) usedOnceMore = some lfu ∧
      lfu.evictOne = some (⟨.int 2, .string, none, 1⟩, next) ∧ next.cache.map Prod.fst = [[1]] ∧
      UsedLess usedOnceMore [2] [1] := by
  have hrun : run step (new ⟨id, .refl⟩) usedOnceMore = some _ := rfl
  obtain ⟨key, held, hmem, hbase, -, hleast⟩ :=
    (bookkeeping_consistent hrun).2.2.2.2.2.2 ⟨.int 2, .string, none, 1⟩ _ rfl
  rcases hmem with _ | ⟨_, _ | ⟨_, ⟨⟩⟩⟩
  · exact ⟨_, _, hrun, rfl, rfl, (hleast ([1], _) (.tail _ (.head _))).2.2 (by decide)⟩
  · cases hbase

end LfuStrategy

end ValkeyGlide.Cache
