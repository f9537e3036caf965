import ValkeyGlide.Cache.Fill
import ValkeyGlide.Cache.Lfu

/-!
# The operations of the cache

The methods of `GlideCache` for the built-in cache (`glide_cache.rs`), each under
the store lock it takes.  A lookup takes the lock a second time to drop an expired
entry or to promote a hit; other threads may come in between, so the two are
operations of their own as well.
-/

namespace ValkeyGlide.Cache

open Protocol

/-- The cache with the registry of its fills. -/
structure SharedCache (S : Type) where
  cache : GlideCacheImpl S
  registry : CacheFillRegistry

namespace SharedCache

variable {S : Type} [EvictionStrategy S]

def new (store : S) (config : CacheConfig) : SharedCache S := ⟨⟨store, config, 0⟩, .new⟩

def promote (shared : SharedCache S) (key : Bytes) (now : Nat) : SharedCache S :=
  { shared with
    cache := { shared.cache with store := EvictionStrategy.promote shared.cache.store key now } }

def get (shared : SharedCache S) (key : Bytes) (expectedType : CachedKeyType) (now : Nat) :
    Option Value × SharedCache S :=
  match EvictionStrategy.peek shared.cache.store key with
  | none => (none, shared)
  | some entry =>
    if entry.isExpired now then
      (none, { shared with cache := shared.cache.removeIfExpired key now })
    else if entry.keyType ≠ expectedType then (none, shared)
    else (some entry.value, shared.promote key now)

def beginCacheFill (shared : SharedCache S) (key : Bytes) : CacheFillToken × SharedCache S :=
  let (fill, registry) := shared.registry.begin key
  (fill, { shared with registry := registry })

/-- A token that goes out of scope cancels its fill. -/
def dropFill (shared : SharedCache S) (fill : CacheFillToken) : SharedCache S :=
  { shared with registry := (shared.registry.remove fill.key fill.id).2 }

def insert (layout : Layout) (shared : SharedCache S) (key : Bytes) (keyType : CachedKeyType)
    (value : Value) (now : Nat) : SharedCache S :=
  let entrySize := calculateEntrySize layout key value
  if shared.cache.entryTooBig entrySize then shared
  else { shared with cache := shared.cache.insertWithLock key keyType value entrySize now }

def insertIfActiveFill (layout : Layout) (shared : SharedCache S) (key : Bytes)
    (keyType : CachedKeyType) (value : Value) (fill : CacheFillToken) (now : Nat) :
    SharedCache S :=
  let entrySize := calculateEntrySize layout key value
  if shared.cache.entryTooBig entrySize then shared.dropFill fill
  else
    let (active, registry) := shared.registry.remove fill.key fill.id
    if active then
      { cache := shared.cache.insertWithLock key keyType value entrySize now, registry := registry }
    else { shared with registry := registry }

def invalidate (shared : SharedCache S) (key : Bytes) : SharedCache S :=
  { cache := shared.cache.removeEntry key, registry := shared.registry.invalidate key }

def flushAll (shared : SharedCache S) : SharedCache S :=
  { cache := shared.cache.flushStore, registry := shared.registry.invalidateAll }

end SharedCache

inductive CacheOp where
  | get (key : Bytes) (expectedType : CachedKeyType) (now : Nat)
  | removeIfExpired (key : Bytes) (now : Nat)
  | promote (key : Bytes) (now : Nat)
  | insert (key : Bytes) (keyType : CachedKeyType) (value : Value) (now : Nat)
  | beginCacheFill (key : Bytes)
  | insertIfActiveFill (key : Bytes) (keyType : CachedKeyType) (value : Value)
      (fill : CacheFillToken) (now : Nat)
  | dropFill (fill : CacheFillToken)
  | invalidate (key : Bytes)
  | evictUntilSpaceAvailable (requiredSpace : Nat)
  | flushAll

namespace SharedCache

variable {S : Type} [EvictionStrategy S]

def apply (layout : Layout) (shared : SharedCache S) : CacheOp → SharedCache S
  | .get key expectedType now => (shared.get key expectedType now).2
  | .removeIfExpired key now => { shared with cache := shared.cache.removeIfExpired key now }
  | .promote key now => shared.promote key now
  | .insert key keyType value now => shared.insert layout key keyType value now
  | .beginCacheFill key => (shared.beginCacheFill key).2
  | .insertIfActiveFill key keyType value fill now =>
    shared.insertIfActiveFill layout key keyType value fill now
  | .dropFill fill => shared.dropFill fill
  | .invalidate key => shared.invalidate key
  | .evictUntilSpaceAvailable requiredSpace =>
    { shared with cache := shared.cache.evictUntilSpaceAvailable requiredSpace }
  | .flushAll => shared.flushAll

def applyAll (layout : Layout) (shared : SharedCache S) (ops : List CacheOp) : SharedCache S :=
  ops.foldl (apply layout) shared

theorem applyAll_invariant {layout : Layout} {ops : List CacheOp} {Inv : SharedCache S → Prop}
    {allowed : CacheOp → Prop}
    (hpreserved : ∀ shared op, Inv shared → allowed op → Inv (shared.apply layout op))
    {shared : SharedCache S} (hinit : Inv shared) (hops : ∀ op ∈ ops, allowed op) :
    Inv (shared.applyAll layout ops) := by
  induction ops generalizing shared with
  | nil => exact hinit
  | cons op rest ih =>
    obtain ⟨hop, hrest⟩ := List.forall_mem_cons.mp hops
    exact ih (hpreserved shared op hinit hop) hrest

end SharedCache

end ValkeyGlide.Cache
