import ValkeyGlide.Cache.GlideCache
import ValkeyGlide.Foundation.Assoc

/-!
# Lawful eviction strategies

What the shared logic of the cache expects of a strategy (the trait
`EvictionStrategy` of `glide_cache.rs`), stated over the entries it stores.  The
strategy that evicts the least recently used entry is lawful.
-/

namespace ValkeyGlide.Cache

open Foundation Protocol

/--
`contents` lists the stored entries in any order.  The last law is about every
state, valid or not: it bounds the eviction loop.
-/
class LawfulStrategy (S : Type) extends EvictionStrategy S where
  Valid : S → Prop
  contents : S → List (Bytes × CacheEntry)
  distinct : ∀ {store}, Valid store → Assoc.Distinct (contents store)
  peek_eq : ∀ {store}, Valid store → ∀ key, peek store key = Assoc.lookup (contents store) key
  promote_spec : ∀ {store}, Valid store → ∀ key now,
    Valid (promote store key now) ∧ (contents (promote store key now)).Perm (contents store)
  insert_spec : ∀ {store}, Valid store → ∀ {key}, peek store key = none → ∀ entry now,
    Valid (insert store key entry now) ∧
      (contents (insert store key entry now)).Perm ((key, entry) :: contents store)
  remove_spec : ∀ {store}, Valid store → ∀ key,
    (remove store key).1 = peek store key ∧ Valid (remove store key).2 ∧
      contents (remove store key).2 = Assoc.erase (contents store) key
  evictOne_spec : ∀ {store}, Valid store → ∀ {entry next}, evictOne store = some (entry, next) →
    Valid next ∧ ∃ key, (contents store).Perm ((key, entry) :: contents next)
  evictOne_none : ∀ {store}, Valid store → evictOne store = none → contents store = []
  len_evictOne : ∀ {store entry next}, evictOne store = some (entry, next) → len next < len store

/-! ## Least recently used -/

namespace LruStrategy

def new : LruStrategy := ⟨[]⟩

variable {lru : LruStrategy}

theorem promote_perm (hdistinct : Assoc.Distinct lru.entries) (key : Bytes) :
    Assoc.Distinct (lru.promote key).entries ∧
      (lru.promote key).entries.Perm lru.entries := by
  unfold promote
  split
  · rename_i entry hpeek
    have hmem : (key, entry) ∈ lru.entries := Assoc.mem_of_lookup hpeek
    exact ⟨hdistinct.cons_erase key entry, (Assoc.perm_cons_erase hdistinct hmem).symm⟩
  · exact ⟨hdistinct, .refl _⟩

theorem insert_entries (hdistinct : Assoc.Distinct lru.entries) {key : Bytes}
    (hpeek : lru.peek key = none) (entry : CacheEntry) :
    Assoc.Distinct (lru.insert key entry).entries ∧
      (lru.insert key entry).entries = (key, entry) :: lru.entries := by
  have hkept : Assoc.erase lru.entries key = lru.entries := Assoc.erase_of_lookup_none hpeek
  exact ⟨hdistinct.cons_erase key entry, congrArg ((key, entry) :: ·) hkept⟩

theorem evictOne_eq_some {entry : CacheEntry} {next : LruStrategy}
    (hevict : lru.evictOne = some (entry, next)) :
    ∃ key, lru.entries = next.entries ++ [(key, entry)] := by
  obtain ⟨last, hlast, heq⟩ := Option.map_eq_some_iff.mp hevict
  cases heq
  exact ⟨last.1, (List.dropLast_append_getLast? last hlast).symm⟩

theorem evictOne_eq_none (hevict : lru.evictOne = none) : lru.entries = [] :=
  List.getLast?_eq_none_iff.mp (Option.map_eq_none_iff.mp hevict)

end LruStrategy

instance : LawfulStrategy LruStrategy where
  Valid lru := Assoc.Distinct lru.entries
  contents lru := lru.entries
  distinct hvalid := hvalid
  peek_eq _ _ := rfl
  promote_spec hvalid key _ := LruStrategy.promote_perm hvalid key
  insert_spec := by
    intro lru hvalid key hpeek entry now
    obtain ⟨hdistinct, hentries⟩ := LruStrategy.insert_entries hvalid hpeek entry
    exact ⟨hdistinct, .of_eq hentries⟩
  remove_spec hvalid key := ⟨rfl, hvalid.erase key, rfl⟩
  evictOne_spec := by
    intro lru hvalid entry next hevict
    obtain ⟨key, hentries⟩ := LruStrategy.evictOne_eq_some hevict
    refine ⟨?_, key, ?_⟩
    · rw [Assoc.Distinct, hentries, List.map_append] at hvalid
      exact (List.nodup_append.mp hvalid).1
    · rw [hentries]
      exact List.perm_append_singleton _ _
  evictOne_none _ hevict := LruStrategy.evictOne_eq_none hevict
  len_evictOne := by
    intro lru entry next hevict
    obtain ⟨key, hentries⟩ := LruStrategy.evictOne_eq_some hevict
    show next.entries.length < lru.entries.length
    simp [hentries]

end ValkeyGlide.Cache
