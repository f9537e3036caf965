import Mathlib.Algebra.Order.Group.Nat
import ValkeyGlide.Protocol.Value

/-!
# The client-side cache

The cache of replies (`glide_cache.rs`) over an eviction strategy.  The strategy
keeps the entries; expiry, memory accounting and eviction are shared.  Instants are
natural numbers and are supplied to the operations that read the clock; the metrics
are left out.
-/

namespace ValkeyGlide.Cache

open Protocol

/-! ## Entries -/

inductive CachedKeyType where
  | string
  | hash
  | set
  deriving DecidableEq, Repr

structure CacheEntry where
  value : Value
  keyType : CachedKeyType
  expiresAt : Option Nat
  size : Nat

def CacheEntry.isExpired (entry : CacheEntry) (now : Nat) : Bool :=
  entry.expiresAt.any fun expiresAt => expiresAt ≤ now

/-- The sizes the compiler gives to a value and to a pair of them, and the texts of errors. -/
structure Layout where
  value : Nat
  pair : Nat
  errorText : ServerError → Bytes

def bigNumberBytes (value : Int) : Nat :=
  if value = 0 then 0 else (Nat.log2 value.natAbs + 1 + 7) / 8

section Size

variable (layout : Layout)

mutual

def calculateValueAdditionalData : Value → Nat
  | .nil => 0
  | .int _ => 0
  | .double _ => 0
  | .boolean _ => 0
  | .okay => 0
  | .bulkString data => data.length
  | .simpleString text => text.utf8ByteSize
  | .verbatimString _ text => text.utf8ByteSize
  | .bigNumber value => bigNumberBytes value
  | .array values => additionalDataVec values
  | .set values => additionalDataVec values
  | .map entries => additionalDataMap entries
  | .attributed data attributes =>
    layout.value + calculateValueAdditionalData data + additionalDataMap attributes
  | .push _ data => additionalDataVec data
  | .serverError error => (layout.errorText error).length

def additionalDataVec : List Value → Nat
  | [] => 0
  | value :: rest => layout.value + calculateValueAdditionalData value + additionalDataVec rest

def additionalDataMap : List (Value × Value) → Nat
  | [] => 0
  | (key, value) :: rest =>
    layout.pair + (calculateValueAdditionalData key + calculateValueAdditionalData value) +
      additionalDataMap rest

end

def calculateValueSize (value : Value) : Nat :=
  layout.value + calculateValueAdditionalData layout value

def calculateEntrySize (key : Bytes) (value : Value) : Nat :=
  key.length + calculateValueSize layout value

end Size

/-! ## Eviction strategies -/

class EvictionStrategy (S : Type) where
  promote : S → Bytes → Nat → S
  peek : S → Bytes → Option CacheEntry
  insert : S → Bytes → CacheEntry → Nat → S
  remove : S → Bytes → Option CacheEntry × S
  evictOne : S → Option (CacheEntry × S)
  len : S → Nat

/-- The entries, the most recently used first. -/
structure LruStrategy where
  entries : List (Bytes × CacheEntry)

namespace LruStrategy

def peek (lru : LruStrategy) (key : Bytes) : Option CacheEntry :=
  (lru.entries.find? fun entry => entry.1 == key).map Prod.snd

def remove (lru : LruStrategy) (key : Bytes) : Option CacheEntry × LruStrategy :=
  (lru.peek key, ⟨lru.entries.filter fun entry => entry.1 != key⟩)

def insert (lru : LruStrategy) (key : Bytes) (entry : CacheEntry) : LruStrategy :=
  ⟨(key, entry) :: (lru.remove key).2.entries⟩

def promote (lru : LruStrategy) (key : Bytes) : LruStrategy :=
  match lru.peek key with
  | some entry => lru.insert key entry
  | none => lru

def evictOne (lru : LruStrategy) : Option (CacheEntry × LruStrategy) :=
  lru.entries.getLast?.map fun entry => (entry.2, ⟨lru.entries.dropLast⟩)

end LruStrategy

instance : EvictionStrategy LruStrategy where
  promote lru key _ := lru.promote key
  peek := LruStrategy.peek
  insert lru key entry _ := lru.insert key entry
  remove := LruStrategy.remove
  evictOne := LruStrategy.evictOne
  len lru := lru.entries.length

/-! ## The cache -/

structure CacheConfig where
  maxMemoryBytes : Nat
  ttl : Option Nat
  deriving DecidableEq, Repr

structure GlideCacheImpl (S : Type) where
  store : S
  config : CacheConfig
  currentMemory : Nat

namespace GlideCacheImpl

variable {S : Type} [EvictionStrategy S]

def entryTooBig (cache : GlideCacheImpl S) (size : Nat) : Bool :=
  cache.config.maxMemoryBytes < size

def needsEviction (cache : GlideCacheImpl S) (requiredSpace : Nat) : Bool :=
  cache.config.maxMemoryBytes - cache.currentMemory < requiredSpace

def computeExpiresAt (cache : GlideCacheImpl S) (now : Nat) : Option Nat :=
  cache.config.ttl.map (now + ·)

/-- The 64-bit counter of the memory in use. -/
def charge (cache : GlideCacheImpl S) (size : Nat) : GlideCacheImpl S :=
  let total := cache.currentMemory + size
  { cache with currentMemory := if total < 2 ^ 64 then total else total - 2 ^ 64 }

def uncharge (cache : GlideCacheImpl S) (size : Nat) : GlideCacheImpl S :=
  { cache with currentMemory := cache.currentMemory - size }

def removeEntry (cache : GlideCacheImpl S) (key : Bytes) : GlideCacheImpl S :=
  match EvictionStrategy.remove cache.store key with
  | (some entry, store) => { cache with store := store }.uncharge entry.size
  | (none, store) => { cache with store := store }

def removeIfExpired (cache : GlideCacheImpl S) (key : Bytes) (now : Nat) : GlideCacheImpl S :=
  if (EvictionStrategy.peek cache.store key).any fun entry => entry.isExpired now then
    cache.removeEntry key
  else cache

def evictWhile (more : GlideCacheImpl S → Bool) : Nat → GlideCacheImpl S → GlideCacheImpl S
  | 0, cache => cache
  | rounds + 1, cache =>
    if more cache then
      match EvictionStrategy.evictOne cache.store with
      | some (entry, store) =>
        evictWhile more rounds ({ cache with store := store }.uncharge entry.size)
      | none => cache
    else cache

def evictUntilSpaceAvailable (cache : GlideCacheImpl S) (requiredSpace : Nat) :
    GlideCacheImpl S :=
  evictWhile (fun cache => cache.needsEviction requiredSpace) (EvictionStrategy.len cache.store)
    cache

def insertWithLock (cache : GlideCacheImpl S) (key : Bytes) (keyType : CachedKeyType)
    (value : Value) (entrySize now : Nat) : GlideCacheImpl S :=
  let cache := (cache.removeEntry key).evictUntilSpaceAvailable entrySize
  let entry : CacheEntry := ⟨value, keyType, cache.computeExpiresAt now, entrySize⟩
  { cache with store := EvictionStrategy.insert cache.store key entry now }.charge entrySize

def flushStore (cache : GlideCacheImpl S) : GlideCacheImpl S :=
  evictWhile (fun _ => true) (EvictionStrategy.len cache.store) cache

end GlideCacheImpl

end ValkeyGlide.Cache
