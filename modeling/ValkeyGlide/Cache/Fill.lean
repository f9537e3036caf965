import Mathlib.Data.Finset.Basic
import Mathlib.Data.List.AList
import ValkeyGlide.Cache.GlideCache
import ValkeyGlide.Foundation.Circulation
import ValkeyGlide.Foundation.Log
import ValkeyGlide.Foundation.Table

/-!
# Cache fills

A request that misses the cache begins a fill before it is sent and completes it when
the reply arrives (`glide_cache.rs`).  A completion and an invalidation each hold a
lock while they work on the cache: the store lock of the built-in cache, or the fill
barrier that the default methods put around another implementation.  The registry of
fills has a mutex of its own, so other threads begin, drop and cancel fills while the
lock is held.  A run is any interleaving of these small steps.
-/

namespace ValkeyGlide.Cache

open Protocol Foundation

/-! ## The registry of fills -/

/-- The ids of the fills that wait for a reply, by key.  Ids are never used twice. -/
structure CacheFillRegistry where
  nextId : Nat
  fills : AList fun _ : Bytes => Finset Nat

structure CacheFillToken where
  key : Bytes
  id : Nat
  deriving DecidableEq, Repr

namespace CacheFillRegistry

def new : CacheFillRegistry := ⟨0, ∅⟩

def ids (registry : CacheFillRegistry) (key : Bytes) : Finset Nat :=
  (registry.fills.lookup key).getD ∅

def begin (registry : CacheFillRegistry) (key : Bytes) : CacheFillToken × CacheFillRegistry :=
  (⟨key, registry.nextId⟩,
    ⟨registry.nextId + 1, registry.fills.insert key (insert registry.nextId (registry.ids key))⟩)

def remove (registry : CacheFillRegistry) (key : Bytes) (id : Nat) : Bool × CacheFillRegistry :=
  match registry.fills.lookup key with
  | none => (false, registry)
  | some ids =>
    (id ∈ ids,
      { registry with
        fills := if ids.erase id = ∅ then registry.fills.erase key
          else registry.fills.insert key (ids.erase id) })

def invalidate (registry : CacheFillRegistry) (key : Bytes) : CacheFillRegistry :=
  { registry with fills := registry.fills.erase key }

def invalidateAll (registry : CacheFillRegistry) : CacheFillRegistry :=
  { registry with fills := ∅ }

theorem ids_begin (registry : CacheFillRegistry) (key other : Bytes) :
    (registry.begin key).2.ids other =
      if other = key then insert registry.nextId (registry.ids key) else registry.ids other := by
  split_ifs with hother
  · subst hother
    simp [ids, begin]
  · simp [ids, begin, AList.lookup_insert_ne hother]

variable {registry : CacheFillRegistry}

theorem mem_ids_begin {key other : Bytes} {id : Nat} :
    id ∈ (registry.begin key).2.ids other ↔
      id ∈ registry.ids other ∨ key = other ∧ registry.nextId = id := by
  rw [ids_begin]
  split_ifs with hother
  · subst hother
    simp only [Finset.mem_insert]
    tauto
  · simp [Ne.symm hother]

theorem remove_fst (registry : CacheFillRegistry) (key : Bytes) (id : Nat) :
    (registry.remove key id).1 = decide (id ∈ registry.ids key) := by
  unfold remove ids
  cases registry.fills.lookup key <;> simp

theorem nextId_remove (registry : CacheFillRegistry) (key : Bytes) (id : Nat) :
    (registry.remove key id).2.nextId = registry.nextId := by
  unfold remove
  split <;> rfl

theorem ids_remove (registry : CacheFillRegistry) (key other : Bytes) (id : Nat) :
    (registry.remove key id).2.ids other =
      if other = key then (registry.ids key).erase id else registry.ids other := by
  unfold remove
  cases hlookup : registry.fills.lookup key with
  | none =>
    split_ifs with hother
    · subst hother
      simp [ids, hlookup]
    · rfl
  | some held =>
    have hids : registry.ids key = held := by simp [ids, hlookup]
    rw [hids]
    by_cases hother : other = key
    · rw [if_pos hother, hother]
      by_cases hempty : held.erase id = ∅
      · simp [ids, hempty]
      · simp [ids, hempty]
    · rw [if_neg hother]
      by_cases hempty : held.erase id = ∅
      · simp [ids, hempty, AList.lookup_erase_ne hother]
      · simp [ids, hempty, AList.lookup_insert_ne hother]

theorem mem_ids_remove {key other : Bytes} {id fill : Nat} :
    fill ∈ (registry.remove key id).2.ids other ↔
      fill ∈ registry.ids other ∧ ¬ (other = key ∧ fill = id) := by
  rw [ids_remove]
  split_ifs with hother
  · simp [hother, and_comm]
  · simp [hother]

theorem ids_invalidate (registry : CacheFillRegistry) (key other : Bytes) :
    (registry.invalidate key).ids other = if other = key then ∅ else registry.ids other := by
  split_ifs with hother
  · subst hother
    simp [ids, invalidate]
  · simp [ids, invalidate, AList.lookup_erase_ne hother]

theorem mem_ids_invalidate (registry : CacheFillRegistry) (key other : Bytes) (id : Nat) :
    id ∈ (registry.invalidate key).ids other ↔ id ∈ registry.ids other ∧ ¬ key = other := by
  rw [ids_invalidate]
  split_ifs with hother
  · simp [hother]
  · simp [Ne.symm hother]

theorem ids_invalidateAll (registry : CacheFillRegistry) (key : Bytes) :
    registry.invalidateAll.ids key = ∅ := by
  simp [ids, invalidateAll]

end CacheFillRegistry

/-! ## The system -/

/-- The operations of a cache that run under the lock. -/
structure LockedCache (S : Type) where
  tooBig : S → Bytes → Value → Bool
  insert : S → Bytes → CachedKeyType → Value → Nat → S
  invalidate : S → Bytes → S
  flushAll : S → S

def GlideCacheImpl.locked {S : Type} [EvictionStrategy S] (layout : Layout) :
    LockedCache (GlideCacheImpl S) where
  tooBig cache key value := cache.entryTooBig (calculateEntrySize layout key value)
  insert cache key keyType value now :=
    cache.insertWithLock key keyType value (calculateEntrySize layout key value) now
  invalidate cache key := cache.removeEntry key
  flushAll cache := cache.flushStore

structure Completion where
  key : Bytes
  keyType : CachedKeyType
  value : Value

inductive Holder where
  | filling (id : Nat) (completion : Completion) (claimed : Option Bool)
  | invalidating (key : Bytes) (cancelled : Bool)
  | flushing (cancelled : Bool)

/-- The fills that wait for a reply, and those that wait for the lock, by their ids. -/
structure FillSystem (S : Type) where
  cache : S
  registry : CacheFillRegistry
  tokens : AList fun _ : Nat => Bytes
  arrived : AList fun _ : Nat => Completion
  holder : Option Holder

/--
`cancelAhead` and `cancelAllAhead` are the cancellations that a server-assisted
invalidation of the built-in cache makes before it takes the store lock.  `access`
is any other use of the cache: a plain insert, the removal of an expired entry, a
promotion.
-/
inductive FillAction (S : Type) where
  | begin (key : Bytes)
  | arrive (id : Nat) (keyType : CachedKeyType) (value : Value)
  | drop (id : Nat)
  | lockFill (id : Nat)
  | claim (id : Nat)
  | store (id now : Nat)
  | cancelAhead (key : Bytes)
  | cancelAllAhead
  | lockInvalidate (key : Bytes)
  | cancelFills (key : Bytes)
  | removeKey (key : Bytes)
  | lockFlush
  | cancelAllFills
  | evictAll
  | access (operation : S → S)

namespace FillSystem

variable {S : Type}

def initial (cache : S) : FillSystem S := ⟨cache, .new, ∅, ∅, none⟩

def dropToken (sys : FillSystem S) (id : Nat) (key : Bytes) : FillSystem S :=
  { sys with
    registry := (sys.registry.remove key id).2
    tokens := sys.tokens.erase id }

def step (ops : LockedCache S) (sys : FillSystem S) : FillAction S → Option (FillSystem S)
  | .begin key =>
    let (token, registry) := sys.registry.begin key
    some { sys with registry := registry, tokens := sys.tokens.insert token.id token.key }
  | .arrive id keyType value => do
      let key ← sys.tokens.lookup id
      if ops.tooBig sys.cache key value then return sys.dropToken id key
      else return { sys with
        tokens := sys.tokens.erase id
        arrived := sys.arrived.insert id ⟨key, keyType, value⟩ }
  | .drop id => do
      let key ← sys.tokens.lookup id
      return sys.dropToken id key
  | .lockFill id =>
    match sys.holder, sys.arrived.lookup id with
    | none, some completion =>
      some { sys with
        arrived := sys.arrived.erase id
        holder := some (.filling id completion none) }
    | _, _ => none
  | .claim id =>
    match sys.holder with
    | some (.filling filling completion none) =>
      if filling = id then
        let (claimed, registry) := sys.registry.remove completion.key id
        some { sys with
          registry := registry
          holder := some (.filling filling completion (some claimed)) }
      else none
    | _ => none
  | .store id now =>
    match sys.holder with
    | some (.filling filling completion (some claimed)) =>
      if filling = id then
        let cache :=
          if claimed then
            ops.insert sys.cache completion.key completion.keyType completion.value now
          else sys.cache
        some { sys with cache := cache, holder := none }
      else none
    | _ => none
  | .cancelAhead key => some { sys with registry := sys.registry.invalidate key }
  | .cancelAllAhead => some { sys with registry := sys.registry.invalidateAll }
  | .lockInvalidate key =>
    match sys.holder with
    | none => some { sys with holder := some (.invalidating key false) }
    | some _ => none
  | .cancelFills key =>
    match sys.holder with
    | some (.invalidating held false) =>
      if held = key then
        some { sys with
          registry := sys.registry.invalidate key
          holder := some (.invalidating key true) }
      else none
    | _ => none
  | .removeKey key =>
    match sys.holder with
    | some (.invalidating held true) =>
      if held = key then
        some { sys with cache := ops.invalidate sys.cache key, holder := none }
      else none
    | _ => none
  | .lockFlush =>
    match sys.holder with
    | none => some { sys with holder := some (.flushing false) }
    | some _ => none
  | .cancelAllFills =>
    match sys.holder with
    | some (.flushing false) =>
      some { sys with
        registry := sys.registry.invalidateAll
        holder := some (.flushing true) }
    | _ => none
  | .evictAll =>
    match sys.holder with
    | some (.flushing true) =>
      some { sys with cache := ops.flushAll sys.cache, holder := none }
    | _ => none
  | .access operation => some { sys with cache := operation sys.cache }

end FillSystem

/-- The step of an invalidation or a flush that cancels the fills of `key`. -/
def FillAction.Cancels {S : Type} (key : Bytes) : FillAction S → Prop
  | .cancelAhead other => other = key
  | .cancelFills other => other = key
  | .cancelAllAhead => True
  | .cancelAllFills => True
  | _ => False

/-- The steps that take the lock or are made under it. -/
def FillAction.Locked {S : Type} : FillAction S → Prop
  | .lockFill _ | .claim _ | .store _ _ => True
  | .lockInvalidate _ | .cancelFills _ | .removeKey _ => True
  | .lockFlush | .cancelAllFills | .evictAll => True
  | _ => False

namespace FillSystem

variable {S : Type} {sys : FillSystem S}

/-! ## What the steps do to the fills -/

def holderIds (unclaimedOnly : Bool) : Option Holder → List Nat
  | some (.filling id _ none) => [id]
  | some (.filling id _ (some _)) => if unclaimedOnly then [] else [id]
  | _ => []

def liveIds (sys : FillSystem S) : List Nat :=
  sys.tokens.keys ++ sys.arrived.keys ++ holderIds false sys.holder

def unclaimedIds (sys : FillSystem S) : List Nat :=
  sys.tokens.keys ++ sys.arrived.keys ++ holderIds true sys.holder

/-- The completion of a fill is waiting for the lock or holds it. -/
def Completes (sys : FillSystem S) (id : Nat) (completion : Completion) : Prop :=
  sys.arrived.lookup id = some completion ∨
    ∃ claimed, sys.holder = some (.filling id completion claimed)

/-- Everything a step can do to the fills that exist before it. -/
structure Effect (sys : FillSystem S) (action : FillAction S) (next : FillSystem S) : Prop where
  turnover : ∃ dropped added,
    Turnover sys.liveIds sys.registry.nextId next.liveIds next.registry.nextId dropped added
  unclaimed : ∀ id < sys.registry.nextId, id ∈ next.unclaimedIds → id ∈ sys.unclaimedIds
  registered : ∀ key id, id < sys.registry.nextId → id ∈ next.unclaimedIds →
    (id ∈ next.registry.ids key ↔ id ∈ sys.registry.ids key ∧ ¬ action.Cancels key)
  tokens : ∀ id < sys.registry.nextId, ∀ key, next.tokens.lookup id = some key →
    sys.tokens.lookup id = some key
  completes : ∀ id completion, next.Completes id completion → sys.Completes id completion ∨
    sys.tokens.lookup id = some completion.key ∧
      action = .arrive id completion.keyType completion.value

theorem unclaimedIds_subset {id : Nat} (hmem : id ∈ sys.unclaimedIds) : id ∈ sys.liveIds := by
  have hholder : ∀ {holder}, id ∈ holderIds true holder → id ∈ holderIds false holder := by
    intro holder hid
    unfold holderIds at hid ⊢
    split at hid <;> simp_all
  simp only [unclaimedIds, liveIds, List.mem_append] at hmem ⊢
  exact hmem.imp_right hholder

def holderKey (id : Nat) : Option Holder → Option Bytes
  | some (.filling other completion none) => if other = id then some completion.key else none
  | _ => none

def tokenKey (sys : FillSystem S) (id : Nat) : Option Bytes :=
  (sys.tokens.lookup id).or
    (((sys.arrived.lookup id).map Completion.key).or (holderKey id sys.holder))

theorem mem_unclaimedIds {id : Nat} : id ∈ sys.unclaimedIds ↔ (sys.tokenKey id).isSome := by
  have hholder : id ∈ holderIds true sys.holder ↔ (holderKey id sys.holder).isSome := by
    rcases sys.holder with _ | (⟨other, completion, _ | claimed⟩ | _ | _) <;>
      simp [holderIds, holderKey, @eq_comm _ id]
  simp [unclaimedIds, tokenKey, List.mem_append, ← AList.mem_keys, hholder, Option.isSome_or,
    Bool.or_eq_true, Option.isSome_map, AList.lookup_isSome]

/-- Everything a step can do to the registry, and to the tokens along with it. -/
inductive Changes (sys : FillSystem S) (action : FillAction S) (next : FillSystem S) : Prop
  | kept (hcancels : ∀ key, ¬ action.Cancels key) (hregistry : next.registry = sys.registry)
      (htokens : ∀ id, next.tokenKey id = sys.tokenKey id)
  | begun (key : Bytes) (haction : action = .begin key)
      (hregistry : next.registry = (sys.registry.begin key).2)
      (hnew : next.tokenKey sys.registry.nextId = some key)
      (hother : ∀ id, id ≠ sys.registry.nextId → next.tokenKey id = sys.tokenKey id)
  | released (id : Nat) (key : Bytes) (hcancels : ∀ other, ¬ action.Cancels other)
      (htoken : sys.tokenKey id = some key) (hgone : id ∉ next.unclaimedIds)
      (hregistry : next.registry = (sys.registry.remove key id).2)
      (hother : ∀ other, other ≠ id → next.tokenKey other = sys.tokenKey other)
  | cancelled (key : Bytes) (hcancels : ∀ other, action.Cancels other ↔ key = other)
      (hregistry : next.registry = sys.registry.invalidate key)
      (htokens : ∀ id, next.tokenKey id = sys.tokenKey id)
  | cleared (hcancels : ∀ key, action.Cancels key)
      (hregistry : next.registry = sys.registry.invalidateAll)
      (htokens : ∀ id, next.tokenKey id = sys.tokenKey id)

section Effects

variable {sys : FillSystem S} {action : FillAction S} {holder : Option Holder}

private def Unfilled (holder : Option Holder) : Prop :=
  ∀ id completion claimed, holder ≠ some (.filling id completion claimed)

private theorem holderIds_of_unfilled (hholder : Unfilled holder) (unclaimedOnly : Bool) :
    holderIds unclaimedOnly holder = [] := by
  unfold holderIds
  split
  · exact absurd rfl (hholder _ _ _)
  · exact absurd rfl (hholder _ _ _)
  · rfl

private theorem holderKey_of_unfilled (hholder : Unfilled holder) (id : Nat) :
    holderKey id holder = none := by
  unfold holderKey
  split
  · exact absurd rfl (hholder _ _ _)
  · rfl

variable {next : FillSystem S} {key : Bytes} {id : Nat} {completion : Completion}

private theorem Changes.effect (hchanges : Changes sys action next)
    (hturn : ∃ dropped added,
      Turnover sys.liveIds sys.registry.nextId next.liveIds next.registry.nextId dropped added)
    (htokens : ∀ id < sys.registry.nextId, ∀ key, next.tokens.lookup id = some key →
      sys.tokens.lookup id = some key)
    (hcompletes : ∀ id completion, next.Completes id completion → sys.Completes id completion ∨
      sys.tokens.lookup id = some completion.key ∧
        action = .arrive id completion.keyType completion.value) :
    Changes sys action next ∧ Effect sys action next := by
  refine ⟨hchanges, hturn, ?_, ?_, htokens, hcompletes⟩
  · intro id hlt hmem
    rw [mem_unclaimedIds] at hmem ⊢
    cases hchanges with
    | kept _ _ htokens | cancelled _ _ _ htokens | cleared _ _ htokens => rwa [htokens] at hmem
    | begun key haction hregistry hnew hother => rwa [hother id hlt.ne] at hmem
    | released fill key hcancels htoken hgone hregistry hother =>
      by_cases hid : id = fill
      · simp [hid, htoken]
      · rwa [hother id hid] at hmem
  · intro key id hlt hmem
    cases hchanges with
    | kept hcancels hregistry htokens => simp [hregistry, hcancels]
    | begun other haction hregistry hnew hother =>
      simp [hregistry, haction, CacheFillRegistry.mem_ids_begin, hlt.ne', FillAction.Cancels]
    | released fill other hcancels htoken hgone hregistry hother =>
      have hne : id ≠ fill := fun hid => hgone (hid ▸ hmem)
      simp [hregistry, CacheFillRegistry.mem_ids_remove, hne, hcancels]
    | cancelled other hcancels hregistry htokens =>
      rw [hregistry, CacheFillRegistry.mem_ids_invalidate, hcancels]
    | cleared hcancels hregistry htokens =>
      simp [hregistry, CacheFillRegistry.ids_invalidateAll, hcancels]

private theorem effect_same (htokens : next.tokens = sys.tokens)
    (harrived : next.arrived = sys.arrived)
    (hholder : next.holder = sys.holder ∨ Unfilled sys.holder ∧ Unfilled next.holder)
    (hnext : next.registry.nextId = sys.registry.nextId)
    (hchanges : (∀ id, next.tokenKey id = sys.tokenKey id) → Changes sys action next) :
    Changes sys action next ∧ Effect sys action next := by
  have hids : holderIds false next.holder = holderIds false sys.holder := by
    rcases hholder with hholder | ⟨hold, hnew⟩
    · rw [hholder]
    · rw [holderIds_of_unfilled hold, holderIds_of_unfilled hnew]
  have hkeys : ∀ id, holderKey id next.holder = holderKey id sys.holder := by
    intro id
    rcases hholder with hholder | ⟨hold, hnew⟩
    · rw [hholder]
    · rw [holderKey_of_unfilled hold, holderKey_of_unfilled hnew]
  have hfilling : ∀ id completion claimed, next.holder = some (.filling id completion claimed) →
      sys.holder = some (.filling id completion claimed) := by
    intro id completion claimed hclaimed
    rcases hholder with hholder | ⟨-, hnew⟩
    · rwa [hholder] at hclaimed
    · exact absurd hclaimed (hnew id completion claimed)
  refine (hchanges fun id => ?_).effect ⟨[], [], ?_⟩ ?_ ?_
  · rw [tokenKey, tokenKey, htokens, harrived, hkeys]
  · have hlive : next.liveIds = sys.liveIds := by rw [liveIds, liveIds, htokens, harrived, hids]
    rw [hlive, hnext]
    exact .refl _ _
  · exact fun id _ key hlookup => by rwa [htokens] at hlookup
  · intro id completion hcompletes
    rw [Completes, harrived] at hcompletes
    exact .inl (hcompletes.imp_right fun ⟨claimed, hclaimed⟩ =>
      ⟨claimed, hfilling id completion claimed hclaimed⟩)

section

variable (hcirc : Circulation sys.liveIds sys.registry.nextId)
include hcirc

private theorem begin_effect {next}
    (hnext : next = { sys with
      registry := (sys.registry.begin key).2
      tokens := sys.tokens.insert sys.registry.nextId key }) :
    Changes sys (.begin key) next ∧ Effect sys (.begin key) next := by
  subst hnext
  have hnew : sys.registry.nextId ∉ sys.tokens.keys := fun hmem =>
    Nat.lt_irrefl _ (hcirc.allocated _ (by simp [liveIds, hmem]))
  have hkeys := Table.keys_insert_of_notMem key hnew
  refine (Changes.begun key rfl rfl (by simp [tokenKey]) fun id hid => ?_).effect
    ⟨[], [sys.registry.nextId], ?_, .inr ⟨rfl, rfl⟩⟩ ?_ fun _ _ => .inl
  · simp [tokenKey, AList.lookup_insert_ne hid]
  · simp [liveIds, hkeys]
  · intro id hlt other hlookup
    rwa [AList.lookup_insert_ne hlt.ne] at hlookup

private theorem dropToken_effect
    (htoken : sys.tokens.lookup id = some key) (haction : ∀ other, ¬ action.Cancels other) :
    Changes sys action (sys.dropToken id key) ∧ Effect sys action (sys.dropToken id key) := by
  have hkeys := Table.keys_perm_of_lookup htoken
  have hturn : Turnover sys.liveIds sys.registry.nextId (sys.dropToken id key).liveIds
      (sys.dropToken id key).registry.nextId [id] [] := by
    rw [dropToken, CacheFillRegistry.nextId_remove]
    refine .of_perm ?_
    simp only [liveIds, List.singleton_append, ← List.cons_append]
    exact (hkeys.symm.append_right _).append_right _
  have hgone := hturn.notMem_of_dropped hcirc (List.mem_singleton.mpr rfl)
  refine (Changes.released id key haction (by simp [tokenKey, htoken])
    (fun hmem => hgone (unclaimedIds_subset hmem)) rfl fun other hother => ?_).effect
    ⟨_, _, hturn⟩ (fun _ _ _ => Table.lookup_of_lookup_erase) fun _ _ => .inl
  simp [tokenKey, dropToken, AList.lookup_erase_ne hother]

private theorem arrive_effect {keyType : CachedKeyType} {value : Value}
    (htoken : sys.tokens.lookup id = some key) {next}
    (hnext : next = { sys with
      tokens := sys.tokens.erase id
      arrived := sys.arrived.insert id ⟨key, keyType, value⟩ }) :
    Changes sys (.arrive id keyType value) next ∧ Effect sys (.arrive id keyType value) next := by
  subst hnext
  have hnew : id ∉ sys.arrived.keys := by
    have hnodup := (List.nodup_append.mp hcirc.nodup).1
    exact List.disjoint_of_nodup_append hnodup (Table.mem_keys_of_lookup htoken)
  have hinsert := Table.keys_insert_of_notMem (⟨key, keyType, value⟩ : Completion) hnew
  refine Changes.effect (.kept (fun _ => False.elim) rfl fun other => ?_)
    ⟨[], [], .of_perm ?_⟩ (fun _ _ _ => Table.lookup_of_lookup_erase) ?_
  · by_cases hother : other = id
    · subst hother
      simp [tokenKey, htoken]
    · simp [tokenKey, AList.lookup_erase_ne hother, AList.lookup_insert_ne hother]
  · simp only [liveIds, hinsert, List.nil_append]
    have hkeys := Table.keys_perm_of_lookup htoken
    exact (List.perm_middle.trans (hkeys.symm.append_right _)).append_right _
  · intro fill completion hcompletes
    rcases hcompletes with harrived | hholder
    · by_cases hfill : fill = id
      · subst hfill
        obtain rfl : (⟨key, keyType, value⟩ : Completion) = completion := by simpa using harrived
        exact .inr ⟨htoken, rfl⟩
      · rw [AList.lookup_insert_ne hfill] at harrived
        exact .inl (.inl harrived)
    · exact .inl (.inr hholder)

end

private theorem lockFill_effect (hholder : sys.holder = none)
    (harrived : sys.arrived.lookup id = some completion) {next}
    (hnext : next = { sys with
      arrived := sys.arrived.erase id
      holder := some (.filling id completion none) }) :
    Changes sys (.lockFill id) next ∧ Effect sys (.lockFill id) next := by
  subst hnext
  refine Changes.effect (.kept (fun _ => False.elim) rfl fun other => ?_)
    ⟨[], [], .of_perm ?_⟩ (fun _ _ _ hlookup => hlookup) ?_
  · by_cases hother : other = id
    · subst hother
      simp [tokenKey, holderKey, harrived]
    · simp [tokenKey, holderKey, hholder, AList.lookup_erase_ne hother, Ne.symm hother]
  · simp only [liveIds, hholder, List.nil_append, holderIds, List.append_assoc, List.append_nil]
    have hkeys := Table.keys_perm_of_lookup harrived
    exact ((List.perm_append_singleton _ _).trans hkeys.symm).append_left _
  · rintro fill filled (hlookup | ⟨claimed, hclaimed⟩)
    · exact .inl (.inl (Table.lookup_of_lookup_erase hlookup))
    · simp only [Option.some.injEq, Holder.filling.injEq] at hclaimed
      obtain ⟨rfl, rfl, -⟩ := hclaimed
      exact .inl (.inl harrived)

private theorem claim_effect (hcirc : Circulation sys.liveIds sys.registry.nextId)
    (hholder : sys.holder = some (.filling id completion none)) {next}
    (hnext : next = { sys with
      registry := (sys.registry.remove completion.key id).2
      holder := some (.filling id completion
        (some (sys.registry.remove completion.key id).1)) }) :
    Changes sys (.claim id) next ∧ Effect sys (.claim id) next := by
  subst hnext
  -- the token of a fill that holds the lock is nowhere else
  have hnot : id ∉ sys.tokens.keys ++ sys.arrived.keys := fun hmem =>
    List.disjoint_of_nodup_append hcirc.nodup hmem (by simp [hholder, holderIds])
  refine Changes.effect (.released id completion.key (fun _ => False.elim) ?_ ?_ rfl
    fun other hother => ?_) ⟨[], [], ?_⟩ (fun _ _ _ hlookup => hlookup) ?_
  · rw [List.mem_append, not_or, ← AList.mem_keys, ← AList.mem_keys] at hnot
    simp [tokenKey, holderKey, AList.lookup_eq_none.mpr hnot.1, AList.lookup_eq_none.mpr hnot.2,
      hholder]
  · simpa only [unclaimedIds, holderIds, if_true, List.append_nil] using hnot
  · simp [tokenKey, holderKey, hholder, Ne.symm hother]
  · rw [CacheFillRegistry.nextId_remove]
    refine .of_perm ?_
    simp [liveIds, hholder, holderIds]
  · rintro fill filled (hlookup | ⟨claimed, hclaimed⟩)
    · exact .inl (.inl hlookup)
    · simp only [Option.some.injEq, Holder.filling.injEq] at hclaimed
      obtain ⟨rfl, rfl, -⟩ := hclaimed
      exact .inl (.inr ⟨none, hholder⟩)

private theorem store_effect {now : Nat} {claimed : Bool} {cache : S}
    (hholder : sys.holder = some (.filling id completion (some claimed))) {next}
    (hnext : next = { sys with cache := cache, holder := none }) :
    Changes sys (.store id now) next ∧ Effect sys (.store id now) next := by
  subst hnext
  refine Changes.effect (.kept (fun _ => False.elim) rfl fun other => ?_)
    ⟨[id], [], .of_perm ?_⟩ (fun _ _ _ hlookup => hlookup) ?_
  · simp [tokenKey, holderKey, hholder]
  · simp only [liveIds, hholder, holderIds, List.append_nil]
    exact (List.perm_append_singleton _ _).symm
  · rintro fill filled (hlookup | ⟨other, hother⟩)
    · exact .inl (.inl hlookup)
    · contradiction

section

variable (hcirc : Circulation sys.liveIds sys.registry.nextId) {ops : LockedCache S}
include hcirc

theorem step_spec (hstep : step ops sys action = some next) :
    Changes sys action next ∧ Effect sys action next := by
  revert hstep
  fun_cases step ops sys action with
  | case1 key token registry hbegin =>
    rintro ⟨⟩
    cases hbegin
    exact begin_effect hcirc rfl
  | case2 id keyType value =>
    intro hstep
    obtain ⟨key, htoken, hstep⟩ := Option.bind_eq_some_iff.mp hstep
    by_cases hbig : ops.tooBig sys.cache key value
    · rw [if_pos hbig] at hstep
      cases hstep
      exact dropToken_effect hcirc htoken fun _ => False.elim
    · rw [if_neg hbig] at hstep
      cases hstep
      exact arrive_effect hcirc htoken rfl
  | case3 id =>
    intro hstep
    obtain ⟨key, htoken, ⟨⟩⟩ := Option.bind_eq_some_iff.mp hstep
    exact dropToken_effect hcirc htoken fun _ => False.elim
  | case4 id completion harrived hholder =>
    rintro ⟨⟩
    exact lockFill_effect hholder harrived rfl
  | case6 id completion hholder claimed registry hclaim =>
    rintro ⟨⟩
    exact claim_effect hcirc hholder (by rw [hclaim])
  | case9 now id completion claimed hholder cache =>
    rintro ⟨⟩
    exact store_effect hholder rfl
  | case12 key =>
    rintro ⟨⟩
    exact effect_same rfl rfl (.inl rfl) rfl (.cancelled key (fun _ => .rfl) rfl)
  | case13 =>
    rintro ⟨⟩
    exact effect_same rfl rfl (.inl rfl) rfl (.cleared (fun _ => trivial) rfl)
  | case28 operation =>
    rintro ⟨⟩
    exact effect_same rfl rfl (.inl rfl) rfl (.kept (fun _ => False.elim) rfl)
  -- the other operations that hold the lock of the cache
  | case14 key hholder | case19 key hholder | case22 hholder | case26 hholder =>
    rintro ⟨⟩
    exact effect_same rfl rfl (.inr ⟨hholder ▸ nofun, nofun⟩) rfl
      (.kept (fun _ => False.elim) rfl)
  | case16 key hholder =>
    rintro ⟨⟩
    exact effect_same rfl rfl (.inr ⟨hholder ▸ nofun, nofun⟩) rfl
      (.cancelled key (fun _ => .rfl) rfl)
  | case24 hholder =>
    rintro ⟨⟩
    exact effect_same rfl rfl (.inr ⟨hholder ▸ nofun, nofun⟩) rfl
      (.cleared (fun _ => trivial) rfl)
  | _ => nofun

theorem step_effect (hstep : step ops sys action = some next) : Effect sys action next :=
  (step_spec hcirc hstep).2

theorem step_circulation (hstep : step ops sys action = some next) :
    Circulation next.liveIds next.registry.nextId := by
  obtain ⟨dropped, added, hturn⟩ := (step_effect hcirc hstep).turnover
  exact hturn.circulation hcirc

end

end Effects

/-! ## One fill along a run -/

section Runs

variable {ops : LockedCache S} {sys next final : FillSystem S} {actions history : List (FillAction S)}
  {action : FillAction S} {key : Bytes} {id : Nat}

theorem run_circulation {cache : S} (hrun : run (step ops) (initial cache) actions = some final) :
    Circulation final.liveIds final.registry.nextId := by
  refine run_invariant_all (fun sys => Circulation sys.liveIds sys.registry.nextId)
    (fun sys action next hcirc hstep => step_circulation hcirc hstep) ?_ hrun
  exact ⟨List.nodup_nil, nofun⟩

/-- The fill `id` of `key`, after the actions `history` since it was begun. -/
structure Tracks (key : Bytes) (id : Nat) (history : List (FillAction S)) (sys : FillSystem S) :
    Prop where
  circulation : Circulation sys.liveIds sys.registry.nextId
  allocated : id < sys.registry.nextId
  token : ∀ held, sys.tokens.lookup id = some held → held = key
  completes : ∀ completion, sys.Completes id completion → completion.key = key ∧
    .arrive id completion.keyType completion.value ∈ history
  registered : id ∈ sys.unclaimedIds →
    (id ∈ sys.registry.ids key ↔ ∀ action ∈ history, ¬ action.Cancels key)

theorem Tracks.step (htracks : Tracks key id history sys)
    (hstep : FillSystem.step ops sys action = some next) :
    Tracks key id (history ++ [action]) next := by
  have heffect := step_effect htracks.circulation hstep
  obtain ⟨dropped, added, hturn⟩ := heffect.turnover
  constructor
  · exact hturn.circulation htracks.circulation
  · exact Nat.lt_of_lt_of_le htracks.allocated hturn.next_le
  · exact fun held hlookup =>
      htracks.token held (heffect.tokens id htracks.allocated held hlookup)
  · intro completion hcompletes
    rcases heffect.completes id completion hcompletes with hold | ⟨htoken, rfl⟩
    · obtain ⟨hkey, hmem⟩ := htracks.completes completion hold
      exact ⟨hkey, List.mem_append_left _ hmem⟩
    · exact ⟨htracks.token _ htoken, by simp⟩
  · intro hmem
    rw [heffect.registered key id htracks.allocated hmem,
      htracks.registered (heffect.unclaimed id htracks.allocated hmem)]
    simp [or_imp, forall_and]

theorem begin_tracks (hcirc : Circulation sys.liveIds sys.registry.nextId)
    (hstep : step ops sys (.begin key) = some next) : Tracks key sys.registry.nextId [] next := by
  have hnext := step_circulation hcirc hstep
  cases hstep
  have hnot : ∀ completion, ¬ sys.Completes sys.registry.nextId completion := by
    rintro completion (harrived | ⟨claimed, hclaimed⟩)
    · have hmem := Table.mem_keys_of_lookup harrived
      exact Nat.lt_irrefl _ (hcirc.allocated _ (by simp [liveIds, hmem]))
    · refine Nat.lt_irrefl _ (hcirc.allocated _ ?_)
      cases claimed <;> simp [liveIds, hclaimed, holderIds]
  constructor
  · exact hnext
  · exact Nat.lt_succ_self _
  · intro held hlookup
    simpa [CacheFillRegistry.begin] using hlookup.symm
  · exact fun completion hcompletes => absurd hcompletes (hnot completion)
  · intro _
    show sys.registry.nextId ∈ (sys.registry.begin key).2.ids key ↔ _
    simp [CacheFillRegistry.ids_begin]

theorem run_tracks (hcirc : Circulation sys.liveIds sys.registry.nextId)
    (hrun : run (step ops) sys (.begin key :: actions) = some final) :
    Tracks key sys.registry.nextId actions final := by
  obtain ⟨begun, hbegin, hrest⟩ := run_cons_eq_some.mp hrun
  exact run_invariant_history (Tracks key _)
    (fun history sys action next htracks hstep => htracks.step hstep)
    (begin_tracks hcirc hbegin) hrest

theorem Tracks.claim (htracks : Tracks key id history sys)
    (hstep : FillSystem.step ops sys (.claim id) = some next) :
    ∃ keyType value claimed, .arrive id keyType value ∈ history ∧
      next.holder = some (.filling id ⟨key, keyType, value⟩ (some claimed)) ∧
      (claimed = true ↔ ∀ action ∈ history, ¬ action.Cancels key) := by
  simp only [FillSystem.step] at hstep
  split at hstep
  next filling completion hholder =>
    split_ifs at hstep with hid
    subst hid
    cases hstep
    obtain ⟨rfl, harrive⟩ := htracks.completes completion (.inr ⟨none, hholder⟩)
    have hregistered := htracks.registered (by simp [unclaimedIds, hholder, holderIds])
    refine ⟨_, _, _, harrive, rfl, ?_⟩
    rw [CacheFillRegistry.remove_fst, decide_eq_true_iff, hregistered]
  next => contradiction

variable {completion : Completion} {claimed : Bool}

theorem step_holder (hholder : sys.holder = some (.filling id completion (some claimed)))
    (hstep : step ops sys action = some next) :
    ¬ action.Locked ∧ next.holder = sys.holder ∨ ∃ now, action = .store id now := by
  cases action with
  | begin | cancelAhead | cancelAllAhead | access =>
    cases hstep
    exact .inl ⟨nofun, rfl⟩
  | drop other =>
    obtain ⟨held, -, hstep⟩ := Option.bind_eq_some_iff.mp hstep
    cases hstep
    exact .inl ⟨nofun, rfl⟩
  | arrive other keyType value =>
    obtain ⟨held, -, hstep⟩ := Option.bind_eq_some_iff.mp hstep
    split_ifs at hstep
    all_goals
      cases hstep
      exact .inl ⟨nofun, rfl⟩
  | store other now =>
    simp only [step, hholder] at hstep
    split at hstep
    next hother => exact .inr ⟨now, by rw [hother]⟩
    next => contradiction
  | lockFill | claim | lockInvalidate | cancelFills | removeKey | lockFlush | cancelAllFills
      | evictAll =>
      simp [step, hholder] at hstep

section

variable (hcirc : Circulation sys.liveIds sys.registry.nextId)
include hcirc

theorem store_notMem_liveIds {now : Nat}
    (hholder : sys.holder = some (.filling id completion (some claimed)))
    (hstep : step ops sys (.store id now) = some next) : id ∉ next.liveIds := by
  have hdisjoint := List.disjoint_of_nodup_append hcirc.nodup
  simp only [step, hholder, if_true] at hstep
  cases hstep
  intro hmem
  simp only [liveIds, holderIds, List.append_nil] at hmem
  exact hdisjoint hmem (by simp [hholder, holderIds])

theorem run_notMem_liveIds (hallocated : id < sys.registry.nextId) (hnot : id ∉ sys.liveIds)
    (hrun : run (step ops) sys actions = some final) : id ∉ final.liveIds := by
  refine (run_invariant_all (fun sys : FillSystem S =>
    Circulation sys.liveIds sys.registry.nextId ∧ id < sys.registry.nextId ∧ id ∉ sys.liveIds)
    ?_ ⟨hcirc, hallocated, hnot⟩ hrun).2.2
  rintro sys action next ⟨hcirc, hallocated, hnot⟩ hstep
  obtain ⟨dropped, added, hturn⟩ := (step_effect hcirc hstep).turnover
  exact ⟨hturn.circulation hcirc, Nat.lt_of_lt_of_le hallocated hturn.next_le,
    hturn.notMem hallocated hnot⟩

theorem run_holder (hholder : sys.holder = some (.filling id completion (some claimed)))
    (hrun : run (step ops) sys actions = some final) (hlive : id ∈ final.liveIds) :
    final.holder = sys.holder ∧ ∀ action ∈ actions, ¬ action.Locked := by
  induction actions generalizing sys with
  | nil =>
    obtain rfl : sys = final := by simpa using hrun
    exact ⟨rfl, nofun⟩
  | cons action rest ih =>
    obtain ⟨next, hstep, hrest⟩ := run_cons_eq_some.mp hrun
    have hnext := step_circulation hcirc hstep
    rcases step_holder hholder hstep with ⟨hunlocked, hkept⟩ | ⟨now, rfl⟩
    · obtain ⟨hfinal, hall⟩ := ih hnext (hkept.trans hholder) hrest
      exact ⟨hfinal.trans hkept, List.forall_mem_cons.mpr ⟨hunlocked, hall⟩⟩
    · -- stored already, so the fill is gone for good
      obtain ⟨dropped, added, hturn⟩ := (step_effect hcirc hstep).turnover
      have hallocated := hcirc.allocated id (by simp [liveIds, hholder, holderIds])
      exact absurd hlive (run_notMem_liveIds hnext
        (Nat.lt_of_lt_of_le hallocated hturn.next_le)
        (store_notMem_liveIds hcirc hholder hstep) hrest)

end

/--
A fill begun in `sys` stores the value that arrived for it unless an invalidation or a
flush cancelled the fills of its key after it was begun; the lock keeps the others out
until the value is in the cache.
-/
theorem store_iff_not_cancelled (ops : LockedCache S) (cache : S) {key : Bytes} {now : Nat}
    {before between later : List (FillAction S)} {sys waiting ready final : FillSystem S}
    (hbefore : run (step ops) (initial cache) before = some sys)
    (hbetween : run (step ops) sys (.begin key :: between) = some waiting)
    (hlater : run (step ops) waiting (.claim sys.registry.nextId :: later) = some ready)
    (hstore : step ops ready (.store sys.registry.nextId now) = some final) :
    ∃ keyType value, .arrive sys.registry.nextId keyType value ∈ between ∧
      ((∃ action ∈ between, action.Cancels key) → final.cache = ready.cache) ∧
      ((∀ action ∈ between, ¬ action.Cancels key) →
        final.cache = ops.insert ready.cache key keyType value now) ∧
      ∀ action ∈ later, ¬ action.Locked := by
  have hcirc := run_circulation hbefore
  have htracks := run_tracks hcirc hbetween
  rw [run_cons] at hlater
  obtain ⟨held, hclaim, hlater⟩ := Option.bind_eq_some_iff.mp hlater
  obtain ⟨keyType, value, claimed, harrive, hholder, hclaimed⟩ := htracks.claim hclaim
  have hheld := step_circulation htracks.circulation hclaim
  simp only [step] at hstore
  split at hstore
  next filling completion verdict hready =>
    split at hstore
    case isFalse => contradiction
    next hid =>
    subst hid
    obtain ⟨hkept, hunlocked⟩ := run_holder hheld hholder hlater
      (by simp [liveIds, hready, holderIds])
    rw [hready, hholder] at hkept
    simp only [Option.some.injEq, Holder.filling.injEq, true_and] at hkept
    obtain ⟨rfl, rfl⟩ := hkept
    cases hstore
    refine ⟨keyType, value, harrive, ?_, ?_, hunlocked⟩
    · rintro ⟨action, hmem, hcancels⟩
      have hrefused : ¬ verdict = true := fun hverdict => hclaimed.mp hverdict action hmem hcancels
      exact if_neg hrefused
    · exact fun hnone => if_pos (hclaimed.mpr hnone)
  next => contradiction

end Runs

def smallCache : GlideCacheImpl LruStrategy := ⟨⟨[]⟩, ⟨64, none⟩, 0⟩

def smallOps : LockedCache (GlideCacheImpl LruStrategy) :=
  GlideCacheImpl.locked ⟨8, 16, fun _ => []⟩

def overlap : List (FillAction (GlideCacheImpl LruStrategy)) :=
  [.begin [2], .arrive 0 .string (.int 5), .lockInvalidate [2], .cancelFills [2],
    .removeKey [2], .lockFill 0]

theorem store_after_invalidation_of_other_key :
    ∃ ready final, step smallOps ready (.store 0 7) = some final ∧
      ∃ keyType value, .arrive 0 keyType value ∈ overlap ∧
        final.cache = smallOps.insert ready.cache [1] keyType value 7 := by
  let waiting := (run (step smallOps) (initial smallCache) (.begin [1] :: overlap)).getD
    (initial smallCache)
  let ready := (run (step smallOps) waiting [.claim 0, .cancelAhead [1]]).getD waiting
  let final := (step smallOps ready (.store 0 7)).getD ready
  obtain ⟨keyType, value, harrive, -, hstored, -⟩ :=
    @store_iff_not_cancelled _ smallOps smallCache [1] 7 [] overlap [.cancelAhead [1]]
      (initial smallCache) waiting ready final rfl rfl rfl rfl
  refine ⟨ready, final, rfl, keyType, value, harrive, hstored ?_⟩
  simp [overlap, FillAction.Cancels]

end FillSystem

end ValkeyGlide.Cache
