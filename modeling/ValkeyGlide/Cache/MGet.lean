import ValkeyGlide.Cache.Freshness
import ValkeyGlide.Cluster.Routing

/-!
# Sending a command through the cache

`send_packed_command` of the multiplexed connection and the lookups it makes
(`multiplexed_connection.rs`, `glide_cache.rs`).  The keys of an `MGET` are looked
up one by one; only those that miss are requested, and their values are put back at
the positions of the keys.  A function stands for the server: for each command its
answer, and what other tasks do to the cache while the answer is awaited.
-/

namespace ValkeyGlide.Cache

open Protocol Foundation LawfulStrategy

/-! ## Cacheable commands -/

def cacheableCmdType (cmd : Bytes) : Option CachedKeyType :=
  if asciiUppercase cmd = bytes "GET" then some .string
  else if asciiUppercase cmd = bytes "HGETALL" then some .hash
  else if asciiUppercase cmd = bytes "SMEMBERS" then some .set
  else none

def cacheKey (cmd : Cmd) : Option (Bytes × CachedKeyType) := do
  let keyType ← cacheableCmdType (← cmd.command)
  return (← Cluster.keyForCommand cmd, keyType)

/-! ## Lookups of many keys -/

structure MGetCacheLookup where
  values : List (Option Value)
  missingKeys : List (Nat × Bytes × CacheFillToken)

namespace MGetCacheLookup

def empty : MGetCacheLookup := ⟨[], []⟩

def pushHit (lookup : MGetCacheLookup) (value : Value) : MGetCacheLookup :=
  { lookup with values := lookup.values ++ [some value] }

def pushMiss (lookup : MGetCacheLookup) (key : Bytes) (fill : CacheFillToken) : MGetCacheLookup :=
  ⟨lookup.values ++ [none], lookup.missingKeys ++ [(lookup.values.length, key, fill)]⟩

def isComplete (lookup : MGetCacheLookup) : Bool := lookup.missingKeys.isEmpty

def missesCmd (lookup : MGetCacheLookup) : Cmd :=
  .ofBytes (bytes "MGET" :: lookup.missingKeys.map fun miss => miss.2.1)

def intoValue (lookup : MGetCacheLookup) : RedisResult Value :=
  match lookup.values.mapM id with
  | some values => .ok (.array values)
  | none => .error (.withDescription .typeError "incomplete MGET cache lookup result")

end MGetCacheLookup

namespace SharedCache

section

variable {S : Type} [EvictionStrategy S]

def getCachedCmdWithFill (shared : SharedCache S) (cmd : Cmd) (now : Nat) :
    (Option Value × Option CacheFillToken) × SharedCache S :=
  match cacheKey cmd with
  | none => ((none, none), shared)
  | some (key, keyType) =>
    match shared.get key keyType now with
    | (some value, shared) => ((some value, none), shared)
    | (none, shared) =>
      let (fill, shared) := shared.beginCacheFill key
      ((none, some fill), shared)

def completeCachedCmd (layout : Layout) (shared : SharedCache S) (cmd : Cmd) (value : Value)
    (fill : CacheFillToken) (now : Nat) : SharedCache S :=
  match cacheKey cmd with
  | none => shared.dropFill fill
  | some (key, keyType) => shared.insertIfActiveFill layout key keyType value fill now

/-- `clock` gives the time at which the key at a position is looked up. -/
def lookUpKey (clock : Nat → Nat) (state : MGetCacheLookup × SharedCache S) (key : Bytes) :
    MGetCacheLookup × SharedCache S :=
  match state.2.get key .string (clock state.1.values.length) with
  | (some value, shared) => (state.1.pushHit value, shared)
  | (none, shared) =>
    let (fill, shared) := shared.beginCacheFill key
    (state.1.pushMiss key fill, shared)

def simpleArg : Arg → Option Bytes
  | .simple data => some data
  | .cursor => none

def getCachedMget (clock : Nat → Nat) (shared : SharedCache S) (cmd : Cmd) :
    Option (MGetCacheLookup × SharedCache S) :=
  match cmd.args with
  | .simple command :: args =>
    if eqIgnoreAsciiCase command (bytes "MGET") then
      match args.mapM simpleArg with
      | none | some [] => none
      | some keys => some (keys.foldl (lookUpKey clock) (.empty, shared))
    else none
  | _ => none

def dropFills (shared : SharedCache S) (lookup : MGetCacheLookup) : SharedCache S :=
  lookup.missingKeys.foldl (fun shared miss => shared.dropFill miss.2.2) shared

/-- A missing value is not cached; its fill is dropped. -/
def completeMiss (layout : Layout) (clock : Nat → Nat) (state : List (Option Value) × SharedCache S)
    (answered : (Nat × Bytes × CacheFillToken) × Value) :
    List (Option Value) × SharedCache S :=
  let ((index, key, fill), value) := answered
  (state.1.set index (some value),
    match value with
    | .nil => state.2.dropFill fill
    | value => state.2.insertIfActiveFill layout key .string value fill (clock index))

def completeCachedMget (layout : Layout) (clock : Nat → Nat) (shared : SharedCache S)
    (lookup : MGetCacheLookup) (response : Value) : RedisResult Value × SharedCache S :=
  match response with
  | .array missValues =>
    if missValues.length ≠ lookup.missingKeys.length then
      (.error (.withDescription .typeError
        "MGET response length does not match requested cache misses"), shared.dropFills lookup)
    else
      let (values, shared) := (lookup.missingKeys.zip missValues).foldl
        (completeMiss layout clock) (lookup.values, shared)
      (MGetCacheLookup.intoValue ⟨values, []⟩, shared)
  | _ =>
    (.error (.withDescription .typeError "expected array of values as MGET response"),
      shared.dropFills lookup)

end

end SharedCache

/-! ## Sending -/

/-- The times of the lookups and of the completions of one command, by position of the key. -/
structure Clock where
  lookup : Nat → Nat
  completion : Nat → Nat

abbrev Server := Cmd → RedisResult Value × List CacheOp

section

variable {S : Type} [EvictionStrategy S]

open SharedCache

def sendMisses (layout : Layout) (clock : Clock) (server : Server) (lookup : MGetCacheLookup)
    (shared : SharedCache S) : RedisResult Value × SharedCache S :=
  let (response, meanwhile) := server lookup.missesCmd
  let shared := shared.applyAll layout meanwhile
  match response with
  | .error error => (.error error, shared.dropFills lookup)
  | .ok response => shared.completeCachedMget layout clock.completion lookup response

def sendUncached (layout : Layout) (clock : Clock) (server : Server) (cmd : Cmd)
    (fill : Option CacheFillToken) (shared : SharedCache S) :
    RedisResult Value × SharedCache S :=
  let (result, meanwhile) := server cmd
  let shared := shared.applyAll layout meanwhile
  match fill with
  | none => (result, shared)
  | some fill =>
    match result with
    | .error _ | .ok .nil => (result, shared.dropFill fill)
    | .ok value => (result, shared.completeCachedCmd layout cmd value fill (clock.completion 0))

/-- A connection without a cache sends the command as it is. -/
def sendPackedCommand (layout : Layout) (clock : Clock) (server : Server)
    (cache : Option (SharedCache S)) (cmd : Cmd) : RedisResult Value × Option (SharedCache S) :=
  match cache with
  | none => ((server cmd).1, none)
  | some shared =>
    match shared.getCachedMget clock.lookup cmd with
    | some (lookup, shared) =>
      if lookup.isComplete then (lookup.intoValue, some shared)
      else (sendMisses layout clock server lookup shared).map id some
    | none =>
      match shared.getCachedCmdWithFill cmd (clock.lookup 0) with
      | ((some value, _), shared) => (.ok value, some shared)
      | ((none, fill), shared) =>
        (sendUncached layout clock server cmd fill shared).map id some

end

namespace SharedCache

/-! ## Dropping the fills -/

section

variable {S : Type} {shared : SharedCache S}

theorem mem_ids_dropFills {lookup : MGetCacheLookup} {key : Bytes} {id : Nat} :
    id ∈ (shared.dropFills lookup).registry.ids key ↔
      id ∈ shared.registry.ids key ∧ ¬ ∃ miss ∈ lookup.missingKeys, miss.2.2 = ⟨key, id⟩ := by
  unfold dropFills
  generalize lookup.missingKeys = misses
  induction misses generalizing shared with
  | nil => simp
  | cons miss rest ih =>
    rw [List.foldl_cons, ih, dropFill, CacheFillRegistry.ids_remove]
    obtain ⟨position, missing, other, fill⟩ := miss
    simp only [List.exists_mem_cons_iff, CacheFillToken.mk.injEq, not_or]
    by_cases hkey : key = other
    · rw [if_pos hkey, Finset.mem_erase, hkey]
      tauto
    · rw [if_neg hkey]
      tauto

theorem dropFills_cache (shared : SharedCache S) (lookup : MGetCacheLookup) :
    (shared.dropFills lookup).cache = shared.cache := by
  unfold dropFills
  generalize lookup.missingKeys = misses
  induction misses generalizing shared with
  | nil => rfl
  | cons miss rest ih => exact ih _

/-- Ids that are still to be given out are in no use. -/
def FreshIds (shared : SharedCache S) : Prop :=
  ∀ key, ∀ id ∈ shared.registry.ids key, id < shared.registry.nextId

theorem FreshIds.dropFill (hfresh : shared.FreshIds) (fill : CacheFillToken) :
    (shared.dropFill fill).FreshIds := by
  intro key id hid
  rw [SharedCache.dropFill, CacheFillRegistry.ids_remove] at hid
  rw [SharedCache.dropFill, CacheFillRegistry.nextId_remove]
  split_ifs at hid with hkey
  · exact hfresh _ id (Finset.mem_of_mem_erase hid)
  · exact hfresh key id hid

end

/-! ## What lookups leave -/

variable {S : Type} [LawfulStrategy S] {shared before after : SharedCache S}
  {now latest later : Nat} {key : Bytes}

/--
Nothing was stored, only entries that have expired by `latest` are gone, and the counter of
the memory in use is as right as it was.
-/
structure Kept (latest : Nat) (before after : SharedCache S) : Prop where
  valid : Valid after.cache.store
  stored : ∀ stored ∈ contents after.cache.store, stored ∈ contents before.cache.store
  kept : ∀ stored ∈ contents before.cache.store,
    stored ∈ contents after.cache.store ∨ stored.2.isExpired latest = true
  counted : before.cache.Accounted → after.cache.Accounted

theorem Kept.refl (hvalid : Valid shared.cache.store) : Kept latest shared shared :=
  ⟨hvalid, fun _ hstored => hstored, fun _ hstored => .inl hstored, id⟩

theorem Kept.trans {middle : SharedCache S} (hfirst : Kept latest before middle)
    (hsecond : Kept latest middle after) : Kept latest before after where
  valid := hsecond.valid
  stored stored hstored := hfirst.stored stored (hsecond.stored stored hstored)
  kept stored hstored := (hfirst.kept stored hstored).elim (hsecond.kept stored) .inr
  counted haccounted := hsecond.counted (hfirst.counted haccounted)

theorem kept_removeIfExpired (hvalid : Valid shared.cache.store) (hle : now ≤ latest)
    (key : Bytes) :
    Kept latest shared { shared with cache := shared.cache.removeIfExpired key now } := by
  unfold GlideCacheImpl.removeIfExpired
  split_ifs with hexpired
  · obtain ⟨entry, hpeek, hentry⟩ := (Option.any_eq_true _ _).mp hexpired
    have hcontents := GlideCacheImpl.removeEntry_contents hvalid key
    refine ⟨?_, fun stored hstored => ?_, fun stored hstored => ?_, (·.removeEntry key)⟩
    · rw [GlideCacheImpl.removeEntry_store]
      exact (remove_spec hvalid key).2.1
    · rw [hcontents] at hstored
      exact (Assoc.mem_erase.mp hstored).1
    · rw [hcontents]
      by_cases hkey : stored.1 = key
      · have hsame : EvictionStrategy.peek shared.cache.store key = some stored.2 :=
          (peek_eq_some_iff hvalid).mpr (hkey ▸ hstored)
        obtain rfl := Option.some.inj (hpeek.symm.trans hsame)
        exact .inr (CacheEntry.isExpired_mono hle hentry)
      · exact .inl (Assoc.mem_erase.mpr ⟨hstored, hkey⟩)
  · exact .refl hvalid

theorem kept_get (hvalid : Valid shared.cache.store) (hle : now ≤ latest) (key : Bytes)
    (expectedType : CachedKeyType) :
    Kept latest shared (shared.get key expectedType now).2 := by
  unfold SharedCache.get
  split
  · exact .refl hvalid
  · split_ifs
    · exact kept_removeIfExpired hvalid hle key
    · exact .refl hvalid
    · obtain ⟨hpromoted, hperm⟩ := promote_spec hvalid key now
      exact ⟨hpromoted, fun _ => hperm.mem_iff.mp,
        fun _ hstored => .inl (hperm.mem_iff.mpr hstored), (·.promote key now)⟩

theorem Kept.get_eq (hkept : Kept latest before after) (hvalid : Valid before.cache.store)
    (hle : latest ≤ later) (key : Bytes) (expectedType : CachedKeyType) :
    (after.get key expectedType later).1 = (before.get key expectedType later).1 := by
  ext value
  simp only [get_eq_some_iff, peek_eq_some_iff hvalid, peek_eq_some_iff hkept.valid]
  constructor
  · rintro ⟨entry, hmem, hfound⟩
    exact ⟨entry, hkept.stored _ hmem, hfound⟩
  · rintro ⟨entry, hmem, hlive, hfound⟩
    rcases hkept.kept _ hmem with hmem | hexpired
    · exact ⟨entry, hmem, hlive, hfound⟩
    · rw [CacheEntry.isExpired_mono hle hexpired] at hlive
      contradiction

theorem get_registry (shared : SharedCache S) (key : Bytes) (expectedType : CachedKeyType)
    (now : Nat) : (shared.get key expectedType now).2.registry = shared.registry := by
  unfold SharedCache.get
  split
  · rfl
  · split_ifs <;> rfl

variable {layout : Layout} {clock : Nat → Nat} {keys : List Bytes}
  {state : MGetCacheLookup × SharedCache S} {store : Bytes → Value} {lookup : MGetCacheLookup}
  {values : List Value} {word : Bytes}

theorem FreshIds.apply (hfresh : shared.FreshIds) (op : CacheOp) :
    (shared.apply layout op).FreshIds := by
  cases op with
  | get key expectedType now =>
    intro other
    rw [SharedCache.apply, get_registry]
    exact hfresh other
  | beginCacheFill key =>
    intro other id hid
    rcases CacheFillRegistry.mem_ids_begin.mp hid with hold | ⟨-, rfl⟩
    · exact Nat.lt_succ_of_lt (hfresh other id hold)
    · exact Nat.lt_succ_self _
  | insert key keyType value now =>
    simp only [SharedCache.apply, SharedCache.insert]
    split_ifs <;> exact hfresh
  | insertIfActiveFill key keyType value fill now =>
    simp only [SharedCache.apply, SharedCache.insertIfActiveFill]
    split_ifs <;> exact hfresh.dropFill fill
  | dropFill fill => exact hfresh.dropFill fill
  | invalidate key =>
    exact fun other id hid =>
      hfresh other id ((CacheFillRegistry.mem_ids_invalidate _ _ _ _).mp hid).1
  | flushAll =>
    intro other id hid
    simp [SharedCache.apply, SharedCache.flushAll, CacheFillRegistry.ids_invalidateAll] at hid
  | removeIfExpired | promote | evictUntilSpaceAvailable => exact hfresh

theorem Reachable.freshIds {config : CacheConfig} (hreachable : shared.Reachable layout config) :
    shared.FreshIds := by
  obtain ⟨store, -, -, ops, rfl⟩ := hreachable
  refine applyAll_invariant (fun _ op hfresh (_ : True) => hfresh.apply op) ?_ fun _ _ => trivial
  simp [FreshIds, new, CacheFillRegistry.new, CacheFillRegistry.ids]

/-! ## The loop over the keys -/

theorem lookUp_invariant (Inv : List Bytes → MGetCacheLookup × SharedCache S → Prop)
    (hinit : Inv [] (.empty, shared))
    (hstep : ∀ done key rest state, done ++ key :: rest = keys → Inv done state →
      Inv (done ++ [key]) (lookUpKey clock state key)) :
    Inv keys (keys.foldl (lookUpKey clock) (.empty, shared)) := by
  suffices hloop : ∀ rest done state, done ++ rest = keys → Inv done state →
      Inv keys (rest.foldl (lookUpKey clock) state) from hloop keys [] _ rfl hinit
  intro rest
  induction rest with
  | nil =>
    intro done state hkeys hdone
    rw [List.append_nil] at hkeys
    exact hkeys ▸ hdone
  | cons key rest ih =>
    intro done state hkeys hdone
    refine ih (done ++ [key]) _ ?_ (hstep done key rest state hkeys hdone)
    rw [List.append_assoc, List.singleton_append, hkeys]

theorem lookUpKey_hit {value : Value}
    (hget : (state.2.get key .string (clock state.1.values.length)).1 = some value) :
    lookUpKey clock state key =
      (state.1.pushHit value, (state.2.get key .string (clock state.1.values.length)).2) := by
  unfold lookUpKey
  split <;> simp_all

theorem lookUpKey_miss (hget : (state.2.get key .string (clock state.1.values.length)).1 = none) :
    lookUpKey clock state key =
      (state.1.pushMiss key ⟨key, (state.2.get key .string
          (clock state.1.values.length)).2.registry.nextId⟩,
        ((state.2.get key .string (clock state.1.values.length)).2.beginCacheFill key).2) := by
  unfold lookUpKey
  split <;> simp_all [beginCacheFill, CacheFillRegistry.begin]

/--
After the keys `done`: one value or gap for each of them, the positions of the gaps
within bounds, and besides the fills of the gaps nothing new.
-/
structure LookedUp (latest : Nat) (shared : SharedCache S) (done : List Bytes)
    (state : MGetCacheLookup × SharedCache S) : Prop where
  length : state.1.values.length = done.length
  bound : ∀ miss ∈ state.1.missingKeys, miss.1 < done.length
  kept : Kept latest shared state.2
  fills : ∀ key id, id ∈ state.2.registry.ids key ↔
    id ∈ shared.registry.ids key ∨ ∃ miss ∈ state.1.missingKeys, miss.2.2 = ⟨key, id⟩
  fresh : ∀ miss ∈ state.1.missingKeys, shared.registry.nextId ≤ miss.2.2.id
  nextId : shared.registry.nextId ≤ state.2.registry.nextId

theorem LookedUp.empty (hvalid : Valid shared.cache.store) :
    LookedUp latest shared [] (.empty, shared) where
  length := rfl
  bound := by simp [MGetCacheLookup.empty]
  kept := .refl hvalid
  fills := by simp [MGetCacheLookup.empty]
  fresh := by simp [MGetCacheLookup.empty]
  nextId := le_rfl

section LookedUp

variable {done : List Bytes} {lookup : MGetCacheLookup} {looked : SharedCache S}

section

variable (hdone : LookedUp latest shared done (lookup, looked))
include hdone

theorem LookedUp.get (hle : now ≤ latest)
    (key : Bytes) : LookedUp latest shared done (lookup, (looked.get key .string now).2) where
  length := hdone.length
  bound := hdone.bound
  kept := hdone.kept.trans (kept_get hdone.kept.valid hle key .string)
  fills := by
    rw [get_registry]
    exact hdone.fills
  fresh := hdone.fresh
  nextId := by
    rw [get_registry]
    exact hdone.nextId

theorem LookedUp.hit (key : Bytes)
    (value : Value) : LookedUp latest shared (done ++ [key]) (lookup.pushHit value, looked) where
  length := by simpa [MGetCacheLookup.pushHit] using hdone.length
  bound miss hmiss := (hdone.bound miss hmiss).trans_le (by simp)
  kept := hdone.kept
  fills := hdone.fills
  fresh := hdone.fresh
  nextId := hdone.nextId

theorem LookedUp.miss (key : Bytes) :
    LookedUp latest shared (done ++ [key])
      (lookup.pushMiss key ⟨key, looked.registry.nextId⟩, (looked.beginCacheFill key).2) where
  length := by simpa [MGetCacheLookup.pushMiss] using hdone.length
  bound := by
    intro miss hmiss
    rcases List.mem_append.mp hmiss with hold | hnew
    · exact (hdone.bound miss hold).trans_le (by simp)
    · rw [List.mem_singleton.mp hnew, hdone.length]
      simp
  kept := { hdone.kept with }
  fills := by
    intro other id
    have hids : id ∈ (looked.beginCacheFill key).2.registry.ids other ↔
        id ∈ looked.registry.ids other ∨ key = other ∧ looked.registry.nextId = id :=
      CacheFillRegistry.mem_ids_begin
    rw [hids, hdone.fills]
    simp [MGetCacheLookup.pushMiss, List.mem_append, or_and_right, exists_or,
      CacheFillToken.mk.injEq, or_assoc]
  fresh := by
    intro miss hmiss
    rcases List.mem_append.mp hmiss with hold | hnew
    · exact hdone.fresh miss hold
    · rw [List.mem_singleton.mp hnew]
      exact hdone.nextId
  nextId := Nat.le_succ_of_le hdone.nextId

end

end LookedUp

theorem LookedUp.step {done : List Bytes} (hdone : LookedUp latest shared done state)
    (hclock : clock done.length ≤ latest) (key : Bytes) :
    LookedUp latest shared (done ++ [key]) (lookUpKey clock state key) := by
  rw [← hdone.length] at hclock
  have hlooked := hdone.get hclock key
  cases hget : (state.2.get key .string (clock state.1.values.length)).1 with
  | some value =>
    rw [lookUpKey_hit hget]
    exact hlooked.hit key value
  | none =>
    rw [lookUpKey_miss hget]
    exact hlooked.miss key

/--
Nothing was stored and no entry that is alive at `latest` was lost, from then on every lookup
finds what it would have found, the same fills are waiting, and the counter of the memory in
use is as right as it was.
-/
structure Unchanged (latest : Nat) (before after : SharedCache S) : Prop where
  stored : ∀ stored ∈ contents after.cache.store, stored ∈ contents before.cache.store
  live : ∀ stored ∈ contents before.cache.store,
    stored ∈ contents after.cache.store ∨ stored.2.isExpired latest = true
  found : ∀ later, latest ≤ later → ∀ key expectedType,
    (after.get key expectedType later).1 = (before.get key expectedType later).1
  fills : ∀ key, after.registry.ids key = before.registry.ids key
  counted : before.cache.Accounted → after.cache.Accounted

theorem LookedUp.unchanged (hlooked : LookedUp latest shared keys state)
    (hvalid : Valid shared.cache.store) (hfresh : shared.FreshIds) :
    Unchanged latest shared (state.2.dropFills state.1) := by
  have hkept : Kept latest shared (state.2.dropFills state.1) := by
    have hcache := dropFills_cache state.2 state.1
    refine ⟨?_, ?_, ?_, ?_⟩ <;> rw [hcache]
    · exact hlooked.kept.valid
    · exact hlooked.kept.stored
    · exact hlooked.kept.kept
    · exact hlooked.kept.counted
  refine ⟨hkept.stored, hkept.kept, fun later hle => hkept.get_eq hvalid hle, fun key => ?_,
    hkept.counted⟩
  ext id
  rw [mem_ids_dropFills, hlooked.fills]
  constructor
  · rintro ⟨hold | hnew, hnot⟩
    · exact hold
    · exact absurd hnew hnot
  · intro hold
    refine ⟨.inl hold, ?_⟩
    rintro ⟨miss, hmiss, hfill⟩
    have hle := hlooked.fresh miss hmiss
    rw [hfill] at hle
    exact absurd (hfresh key id hold) (Nat.not_lt.mpr hle)

/-! ## Splicing -/

/-- The values with the gaps filled from the store. -/
def spliced (store : Bytes → Value) (lookup : MGetCacheLookup) : List (Option Value) :=
  lookup.missingKeys.foldl (fun values miss => values.set miss.1 (some (store miss.2.1)))
    lookup.values

private theorem foldl_set_append {misses : List (Nat × Bytes × CacheFillToken)}
    {values last : List (Option Value)} (hbound : ∀ miss ∈ misses, miss.1 < values.length) :
    misses.foldl (fun values miss => values.set miss.1 (some (store miss.2.1))) (values ++ last) =
      misses.foldl (fun values miss => values.set miss.1 (some (store miss.2.1))) values ++
        last := by
  induction misses generalizing values with
  | nil => rfl
  | cons miss rest ih =>
    obtain ⟨hmiss, hrest⟩ := List.forall_mem_cons.mp hbound
    rw [List.foldl_cons, List.foldl_cons, List.set_append_left _ _ hmiss]
    exact ih (by simpa using hrest)

theorem spliced_pushHit (hbound : ∀ miss ∈ lookup.missingKeys, miss.1 < lookup.values.length)
    (value : Value) :
    spliced store (lookup.pushHit value) = spliced store lookup ++ [some value] :=
  foldl_set_append hbound

theorem spliced_pushMiss (hbound : ∀ miss ∈ lookup.missingKeys, miss.1 < lookup.values.length)
    (hlength : (spliced store lookup).length = lookup.values.length) (key : Bytes)
    (fill : CacheFillToken) :
    spliced store (lookup.pushMiss key fill) = spliced store lookup ++ [some (store key)] := by
  unfold spliced at hlength ⊢
  rw [MGetCacheLookup.pushMiss, List.foldl_append, foldl_set_append hbound, List.foldl_cons,
    List.foldl_nil, ← hlength, List.set_append_right _ _ le_rfl, Nat.sub_self]
  rfl

/-- Each value that a lookup finds at `now` is the one of the store. -/
def ConsistentWith (store : Bytes → Value) (now : Nat) (shared : SharedCache S) : Prop :=
  ∀ key value, (shared.get key .string now).1 = some value → value = store key

theorem ConsistentWith.of_kept (hvalid : Valid before.cache.store)
    (hconsistent : before.ConsistentWith store now) (hkept : Kept latest before after)
    (hle : now ≤ later) : after.ConsistentWith store later := by
  intro key value hget
  obtain ⟨entry, hpeek, hlive, htype, hvalue⟩ := (get_eq_some_iff _ _ _ _).mp hget
  have hmem := hkept.stored _ ((peek_eq_some_iff hkept.valid).mp hpeek)
  exact hconsistent key value ((get_eq_some_iff _ _ _ _).mpr
    ⟨entry, (peek_eq_some_iff hvalid).mpr hmem, CacheEntry.live_of_le hle hlive, htype, hvalue⟩)

theorem lookUp_spliced (hvalid : Valid shared.cache.store)
    (hconsistent : shared.ConsistentWith store now)
    (hclock : ∀ index < keys.length, now ≤ clock index ∧ clock index ≤ latest) :
    spliced store (keys.foldl (lookUpKey clock) (.empty, shared)).1 =
      keys.map fun key => some (store key) := by
  refine (lookUp_invariant (fun done state => LookedUp latest shared done state ∧
    spliced store state.1 = done.map fun key => some (store key))
    ⟨.empty hvalid, rfl⟩ ?_).2
  rintro done key rest state rfl ⟨hdone, hspliced⟩
  obtain ⟨hfrom, hto⟩ := hclock done.length (by simp)
  refine ⟨hdone.step hto key, ?_⟩
  have hbound : ∀ miss ∈ state.1.missingKeys, miss.1 < state.1.values.length := by
    rw [hdone.length]
    exact hdone.bound
  rw [List.map_append, ← hspliced]
  rw [← hdone.length] at hfrom
  cases hget : (state.2.get key .string (clock state.1.values.length)).1 with
  | some value =>
    rw [lookUpKey_hit hget, spliced_pushHit hbound,
      hconsistent.of_kept hvalid hdone.kept hfrom key value hget]
    rfl
  | none =>
    rw [lookUpKey_miss hget, spliced_pushMiss hbound (by simp [hspliced, hdone.length])]
    rfl

private theorem mapM_id_map_some (values : List Value) :
    (values.map some).mapM id = some values := by
  induction values with
  | nil => rfl
  | cons value rest ih => simp [List.mapM_cons, ih]

theorem intoValue_of_values (hvalues : lookup.values = values.map some) :
    lookup.intoValue = .ok (.array values) := by
  rw [MGetCacheLookup.intoValue, hvalues, mapM_id_map_some]

private theorem completeMiss_values (layout : Layout) (clock : Nat → Nat) (store : Bytes → Value)
    (misses : List (Nat × Bytes × CacheFillToken)) (values : List (Option Value)) :
    ((misses.zip (misses.map fun miss => store miss.2.1)).foldl (completeMiss layout clock)
      (values, shared)).1 =
      misses.foldl (fun values miss => values.set miss.1 (some (store miss.2.1))) values := by
  induction misses generalizing values shared with
  | nil => rfl
  | cons miss rest ih => exact ih _

theorem completeCachedMget_result (hspliced : spliced store lookup = values.map some) :
    (shared.completeCachedMget layout clock lookup
      (.array (lookup.missingKeys.map fun miss => store miss.2.1))).1 = .ok (.array values) := by
  simp only [completeCachedMget, List.length_map, ne_eq, not_true_eq_false, if_false]
  refine intoValue_of_values (Eq.trans ?_ hspliced)
  exact completeMiss_values layout clock store lookup.missingKeys lookup.values

theorem sendMisses_result {clock : Clock} {server : Server}
    (hanswer : (server lookup.missesCmd).1 =
      .ok (.array (lookup.missingKeys.map fun miss => store miss.2.1)))
    (hspliced : spliced store lookup = values.map some) :
    (sendMisses layout clock server lookup shared).1 = .ok (.array values) := by
  simp only [sendMisses, hanswer]
  exact completeCachedMget_result hspliced

/-! ## The commands of the connection -/

private theorem mapM_simpleArg (keys : List Bytes) :
    (keys.map Arg.simple).mapM simpleArg = some keys := by
  induction keys with
  | nil => rfl
  | cons key rest ih => simp [List.mapM_cons, simpleArg, ih]

theorem getCachedMget_of_keys (hword : eqIgnoreAsciiCase word (bytes "MGET") = true)
    (hkeys : keys ≠ []) (clock : Nat → Nat) :
    shared.getCachedMget clock (.ofBytes (word :: keys)) =
      some (keys.foldl (lookUpKey clock) (.empty, shared)) := by
  cases keys with
  | nil => contradiction
  | cons key rest =>
    simp only [getCachedMget, Cmd.ofBytes, List.map_cons, hword, if_true]
    rw [← List.map_cons, mapM_simpleArg]

private theorem cacheKey_mget (hword : eqIgnoreAsciiCase word (bytes "MGET") = true)
    (keys : List Bytes) : cacheKey (.ofBytes (word :: keys)) = none := by
  have hupper : asciiUppercase word = bytes "MGET" :=
    (beq_iff_eq.mp hword).trans (by decide +kernel)
  have hcommand := Cmd.command_of_one_word keys hupper (by decide +kernel)
  have htype : cacheableCmdType (bytes "MGET") = none := by decide +kernel
  simp [cacheKey, hcommand, htype]

theorem sendPackedCommand_no_keys (layout : Layout) (clock : Clock) (server : Server)
    (shared : SharedCache S) (hword : eqIgnoreAsciiCase word (bytes "MGET") = true) :
    sendPackedCommand layout clock server (some shared) (.ofBytes [word]) =
      ((server (.ofBytes [word])).1,
        some (shared.applyAll layout (server (.ofBytes [word])).2)) := by
  have hmget : shared.getCachedMget clock.lookup (.ofBytes [word]) = none := by
    simp [getCachedMget, Cmd.ofBytes, hword]
  have hkey := cacheKey_mget hword []
  simp [sendPackedCommand, hmget, getCachedCmdWithFill, hkey, sendUncached]

end SharedCache

/-- Every `MGET` of keys is answered with their values in the store. -/
def Server.Serves (server : Server) (store : Bytes → Value) : Prop :=
  ∀ word keys, eqIgnoreAsciiCase word (bytes "MGET") = true → keys ≠ [] →
    (server (.ofBytes (word :: keys))).1 = .ok (.array (keys.map store))

open SharedCache

section Mget

variable {S : Type} [LawfulStrategy S] {layout : Layout} {clock : Clock} {server : Server}
  {shared looked : SharedCache S} {now latest : Nat} {word : Bytes} {keys : List Bytes}
  {lookup : MGetCacheLookup}

theorem sendPackedCommand_values {store : Bytes → Value} (hvalid : Valid shared.cache.store)
    (hword : eqIgnoreAsciiCase word (bytes "MGET") = true) (hkeys : keys ≠ [])
    (hconsistent : shared.ConsistentWith store now) (hserves : server.Serves store)
    (hclock : ∀ index < keys.length, now ≤ clock.lookup index ∧ clock.lookup index ≤ latest) :
    (sendPackedCommand layout clock server (some shared) (.ofBytes (word :: keys))).1 =
      .ok (.array (keys.map store)) := by
  have hspliced := lookUp_spliced hvalid hconsistent hclock
  simp only [sendPackedCommand, getCachedMget_of_keys hword hkeys]
  generalize keys.foldl (lookUpKey clock.lookup) (.empty, shared) = state at hspliced ⊢
  obtain ⟨lookup, looked⟩ := state
  rw [← Function.comp_def, ← List.map_map] at hspliced
  dsimp only at hspliced ⊢
  split_ifs with hcomplete
  · refine intoValue_of_values (Eq.trans ?_ hspliced)
    rw [spliced, List.isEmpty_iff.mp hcomplete]
    rfl
  · have hmissing : (lookup.missingKeys.map fun miss => miss.2.1) ≠ [] := by
      simpa [MGetCacheLookup.isComplete] using hcomplete
    have hanswer := hserves (bytes "MGET") _ (by decide +kernel) hmissing
    rw [List.map_map] at hanswer
    exact sendMisses_result hanswer hspliced

theorem getCachedMget_lookedUp (hvalid : Valid shared.cache.store)
    (hword : eqIgnoreAsciiCase word (bytes "MGET") = true)
    (hclock : ∀ index < keys.length, clock.lookup index ≤ latest)
    (hlookup : shared.getCachedMget clock.lookup (.ofBytes (word :: keys)) =
      some (lookup, looked)) : LookedUp latest shared keys (lookup, looked) := by
  have hkeys : keys ≠ [] := by
    rintro rfl
    simp [getCachedMget, Cmd.ofBytes] at hlookup
  rw [getCachedMget_of_keys hword hkeys, Option.some.injEq] at hlookup
  rw [← hlookup]
  refine lookUp_invariant (LookedUp latest shared) (.empty hvalid) ?_
  rintro done key rest state rfl hdone
  exact hdone.step (hclock done.length (by simp)) key

theorem sendPackedCommand_of_misses {cmd : Cmd} {error : RedisError}
    (hlookup : shared.getCachedMget clock.lookup cmd = some (lookup, looked))
    (hincomplete : lookup.isComplete = false)
    (hserver : (server lookup.missesCmd).1 = .error error) :
    sendPackedCommand layout clock server (some shared) cmd =
      (.error error,
        some ((looked.applyAll layout (server lookup.missesCmd).2).dropFills lookup)) := by
  simp only [sendPackedCommand, hlookup, hincomplete, sendMisses, hserver]
  rfl

end Mget

/--
What the cache changes for an `MGET`: not its result, if cache and server show the
same store, whatever other tasks do to the cache while the request is under way; and
an error of the server is passed on, with the cache unchanged but for the order of its
entries if no other task changed it.
-/
structure MgetTransparent {S : Type} [LawfulStrategy S] (layout : Layout) (clock : Clock)
    (server : Server) (shared : SharedCache S) (now latest : Nat) (word : Bytes)
    (keys : List Bytes) : Prop where
  uncached : ∀ store, shared.ConsistentWith store now → server.Serves store →
    (sendPackedCommand layout clock server (some shared) (.ofBytes (word :: keys))).1 =
      (sendPackedCommand layout clock server (none : Option (SharedCache S))
        (.ofBytes (word :: keys))).1
  values : ∀ store, shared.ConsistentWith store now → server.Serves store → keys ≠ [] →
    (sendPackedCommand layout clock server (some shared) (.ofBytes (word :: keys))).1 =
      .ok (.array (keys.map store))
  failed : ∀ lookup looked error,
    shared.getCachedMget clock.lookup (.ofBytes (word :: keys)) = some (lookup, looked) →
    lookup.isComplete = false → (server lookup.missesCmd).1 = .error error →
      ∃ after, sendPackedCommand layout clock server (some shared) (.ofBytes (word :: keys)) =
        (.error error, some after) ∧
        ((server lookup.missesCmd).2 = [] → Unchanged latest shared after)
  failedPlain : ∀ error, keys = [] → (server (.ofBytes [word])).1 = .error error →
    sendPackedCommand layout clock server (some shared) (.ofBytes [word]) =
      (.error error, some (shared.applyAll layout (server (.ofBytes [word])).2))

theorem cachedMget_transparent {S : Type} [LawfulStrategy S] (layout : Layout) (clock : Clock)
    (server : Server) {shared : SharedCache S} (hvalid : Valid shared.cache.store)
    (hfresh : shared.FreshIds) {now latest : Nat} {word : Bytes}
    (hword : eqIgnoreAsciiCase word (bytes "MGET") = true) {keys : List Bytes}
    (hclock : ∀ index < keys.length, now ≤ clock.lookup index ∧ clock.lookup index ≤ latest) :
    MgetTransparent layout clock server shared now latest word keys := by
  refine ⟨?uncached, ?values, ?failed, ?failedPlain⟩
  case uncached =>
    intro store hconsistent hserves
    by_cases hkeys : keys = []
    · subst hkeys
      rw [sendPackedCommand_no_keys layout clock server shared hword]
      rfl
    · rw [sendPackedCommand_values hvalid hword hkeys hconsistent hserves hclock]
      exact (hserves word keys hword hkeys).symm
  case values =>
    intro store hconsistent hserves hkeys
    exact sendPackedCommand_values hvalid hword hkeys hconsistent hserves hclock
  case failed =>
    intro lookup looked error hlookup hincomplete hserver
    refine ⟨_, sendPackedCommand_of_misses hlookup hincomplete hserver, fun halone => ?_⟩
    have hlooked := getCachedMget_lookedUp hvalid hword
      (fun index hindex => (hclock index hindex).2) hlookup
    rw [halone]
    exact hlooked.unchanged hvalid hfresh
  case failedPlain =>
    rintro error rfl hserver
    rw [sendPackedCommand_no_keys layout clock server shared hword, hserver]

def exampleStore (key : Bytes) : Value :=
  if key = bytes "a" then .okay else .nil

def exampleCache : SharedCache LruStrategy :=
  (new LruStrategy.new ⟨200, none⟩).applyAll ⟨8, 16, fun _ => []⟩
    [.insert (bytes "a") .string .okay 0]

def exampleServer : Server := fun cmd =>
  (.ok (.array ((cmd.data.drop 1).map exampleStore)), [.invalidate (bytes "a")])

theorem mixed_mget_transparent :
    (sendPackedCommand ⟨8, 16, fun _ => []⟩ ⟨fun _ => 1, fun _ => 2⟩ exampleServer
      (some exampleCache) (.ofBytes [bytes "mget", bytes "b", bytes "a", bytes "b"])).1 =
        .ok (.array [.nil, .okay, .nil]) := by
  have hreachable : exampleCache.Reachable ⟨8, 16, fun _ => []⟩ ⟨200, none⟩ :=
    ⟨LruStrategy.new, List.nodup_nil, rfl, _, rfl⟩
  have hvalid := (hreachable.sized (by decide)).cache.valid
  have hconsistent : exampleCache.ConsistentWith exampleStore 1 := by
    intro key value hget
    obtain ⟨entry, hpeek, -, -, hvalue⟩ := (get_eq_some_iff _ _ _ _).mp hget
    have hmem : (key, entry) ∈ [(bytes "a", _)] := (peek_eq_some_iff hvalid).mp hpeek
    obtain ⟨rfl, rfl⟩ := Prod.mk.inj (List.mem_singleton.mp hmem)
    exact hvalue.symm
  have hserves : exampleServer.Serves exampleStore := fun word keys _ _ => by
    simp [exampleServer]
  have htransparent : MgetTransparent ⟨8, 16, fun _ => []⟩ ⟨fun _ => 1, fun _ => 2⟩ exampleServer
      exampleCache 1 1 (bytes "mget") [bytes "b", bytes "a", bytes "b"] :=
    cachedMget_transparent _ _ _ hvalid hreachable.freshIds (by decide +kernel) (by simp)
  exact htransparent.values exampleStore hconsistent hserves (by simp)

def recentCache : SharedCache LruStrategy :=
  (new LruStrategy.new ⟨200, none⟩).applyAll ⟨8, 16, fun _ => []⟩
    [.insert (bytes "a") .string .okay 0, .insert (bytes "b") .string .okay 1]

/-- The hit of an `MGET` that fails is now the entry used last, and the other one is evicted next. -/
theorem failed_mget_reorders :
    let error := RedisError.withDescription .ioError "broken pipe"
    ∃ after, sendPackedCommand ⟨8, 16, fun _ => []⟩ ⟨fun _ => 2, fun _ => 3⟩
        (fun _ => (.error error, [])) (some recentCache)
        (.ofBytes [bytes "MGET", bytes "a", bytes "c"]) = (.error error, some after) ∧
      recentCache.cache.store.entries.map Prod.fst = [bytes "b", bytes "a"] ∧
      after.cache.store.entries.map Prod.fst = [bytes "a", bytes "b"] :=
  ⟨_, rfl, rfl, rfl⟩

end ValkeyGlide.Cache
