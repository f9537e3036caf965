import ValkeyGlide.Cache.Fill

/-!
# Fills in the registry

The registry of fills (`glide_cache.rs`) names the fills that wait for their reply.  Its
entries go with the tokens: a fill is registered exactly while its token is alive, has
not been claimed, and no invalidation or flush has met its key.
-/

namespace ValkeyGlide.Cache

open Protocol Foundation

variable {S : Type}

namespace FillSystem

/-! ## Steps -/

section Steps

variable {sys next : FillSystem S} {action : FillAction S} {key : Bytes} {id : Nat}

theorem Changes.mem_ids (hchanges : Changes sys action next) (hmem : id ∈ next.registry.ids key) :
    id ∈ sys.registry.ids key ∧ ¬ action.Cancels key ∨
      action = .begin key ∧ sys.registry.nextId = id := by
  cases hchanges with
  | kept hcancels hregistry htokens =>
    rw [hregistry] at hmem
    exact .inl ⟨hmem, hcancels key⟩
  | begun other haction hregistry hnew hother =>
    subst haction
    rw [hregistry, CacheFillRegistry.mem_ids_begin] at hmem
    rcases hmem with hold | ⟨rfl, hid⟩
    · exact .inl ⟨hold, False.elim⟩
    · exact .inr ⟨rfl, hid⟩
  | released fill other hcancels htoken hgone hregistry hother =>
    rw [hregistry, CacheFillRegistry.mem_ids_remove] at hmem
    exact .inl ⟨hmem.1, hcancels key⟩
  | cancelled other hcancels hregistry htokens =>
    rw [hregistry, CacheFillRegistry.mem_ids_invalidate, ← hcancels key] at hmem
    exact .inl hmem
  | cleared hcancels hregistry htokens =>
    rw [hregistry, CacheFillRegistry.ids_invalidateAll] at hmem
    exact absurd hmem (Finset.notMem_empty id)

def NoEmptySet (registry : CacheFillRegistry) : Prop :=
  ∀ key ids, registry.fills.lookup key = some ids → ids.Nonempty

private theorem noEmptySet_insert {nextId : Nat} {registry : CacheFillRegistry}
    (hnone : NoEmptySet registry) {ids : Finset Nat} (hids : ids.Nonempty) :
    NoEmptySet ⟨nextId, registry.fills.insert key ids⟩ := by
  intro other held hlookup
  by_cases hother : other = key
  · subst hother
    rw [AList.lookup_insert] at hlookup
    cases hlookup
    exact hids
  · rw [AList.lookup_insert_ne hother] at hlookup
    exact hnone other held hlookup

theorem Changes.noEmptySet (hchanges : Changes sys action next)
    (hnone : NoEmptySet sys.registry) : NoEmptySet next.registry := by
  have herase : ∀ key, NoEmptySet (sys.registry.invalidate key) := fun key other held hlookup =>
    hnone other held (Table.lookup_of_lookup_erase hlookup)
  cases hchanges with
  | kept hcancels hregistry htokens => rwa [hregistry]
  | begun key haction hregistry hnew hother =>
    rw [hregistry]
    exact noEmptySet_insert hnone (Finset.insert_nonempty _ _)
  | released id key hcancels htoken hgone hregistry hother =>
    rw [hregistry, CacheFillRegistry.remove]
    split
    · exact hnone
    · next ids hlookup =>
        dsimp only
        split_ifs with hempty
        · exact herase key
        · exact noEmptySet_insert hnone (Finset.nonempty_of_ne_empty hempty)
  | cancelled key hcancels hregistry htokens =>
    rw [hregistry]
    exact herase key
  | cleared hcancels hregistry htokens =>
    rw [hregistry]
    exact fun key ids hlookup => by contradiction

theorem Changes.token (hchanges : Changes sys action next)
    (hcirc : Circulation sys.liveIds sys.registry.nextId)
    (htoken : ∀ key id, id ∈ sys.registry.ids key → sys.tokenKey id = some key)
    (hmem : id ∈ next.registry.ids key) : next.tokenKey id = some key := by
  cases hchanges with
  | kept hcancels hregistry htokens =>
    rw [hregistry] at hmem
    rw [htokens, htoken key id hmem]
  | begun other haction hregistry hnew hother =>
    rw [hregistry, CacheFillRegistry.mem_ids_begin] at hmem
    rcases hmem with hold | ⟨rfl, rfl⟩
    · have hkey := htoken key id hold
      have hlive : id ∈ sys.liveIds :=
        unclaimedIds_subset (mem_unclaimedIds.mpr (by rw [hkey]; rfl))
      rw [hother id (Nat.ne_of_lt (hcirc.allocated id hlive)), hkey]
    · exact hnew
  | released fill other hcancels held hgone hregistry hother =>
    rw [hregistry, CacheFillRegistry.mem_ids_remove] at hmem
    have hkey := htoken key id hmem.1
    have hid : id ≠ fill := by
      rintro rfl
      rw [held] at hkey
      cases hkey
      exact hmem.2 ⟨rfl, rfl⟩
    rw [hother id hid, hkey]
  | cancelled other hcancels hregistry htokens =>
    rw [hregistry, CacheFillRegistry.mem_ids_invalidate] at hmem
    rw [htokens, htoken key id hmem.1]
  | cleared hcancels hregistry htokens =>
    rw [hregistry, CacheFillRegistry.ids_invalidateAll] at hmem
    exact absurd hmem (Finset.notMem_empty id)

end Steps

/-! ## Runs -/

section Runs

variable {ops : LockedCache S} {cache : S} {history actions : List (FillAction S)}
  {sys next final : FillSystem S} {action : FillAction S} {key : Bytes} {id : Nat}

/-- The fill `id` of `key` was begun in the run, and nothing has cancelled it since. -/
def Uncancelled (ops : LockedCache S) (cache : S) (actions : List (FillAction S)) (key : Bytes)
    (id : Nat) : Prop :=
  ∃ before start between, actions = before ++ .begin key :: between ∧
    run (step ops) (initial cache) before = some start ∧ start.registry.nextId = id ∧
    ∀ action ∈ between, ¬ action.Cancels key

structure Pending (ops : LockedCache S) (cache : S) (history : List (FillAction S))
    (sys : FillSystem S) : Prop where
  reached : run (step ops) (initial cache) history = some sys
  noEmptySet : NoEmptySet sys.registry
  token : ∀ key id, id ∈ sys.registry.ids key → sys.tokenKey id = some key
  uncancelled : ∀ key id, id ∈ sys.registry.ids key → Uncancelled ops cache history key id

theorem Pending.step (hpending : Pending ops cache history sys)
    (hstep : FillSystem.step ops sys action = some next) :
    Pending ops cache (history ++ [action]) next := by
  have hcirc := run_circulation hpending.reached
  have hchanges := (step_spec hcirc hstep).1
  constructor
  · rw [run_append, hpending.reached, Option.bind_some, run_cons, hstep]
    rfl
  · exact hchanges.noEmptySet hpending.noEmptySet
  · exact fun key id => hchanges.token hcirc hpending.token
  · intro key id hmem
    rcases hchanges.mem_ids hmem with ⟨hold, hcancels⟩ | ⟨rfl, hid⟩
    · obtain ⟨before, start, between, rfl, hrun, hid, hnone⟩ := hpending.uncancelled key id hold
      refine ⟨before, start, between ++ [action], by simp, hrun, hid, ?_⟩
      exact List.forall_mem_append.mpr ⟨hnone, List.forall_mem_singleton.mpr hcancels⟩
    · exact ⟨history, sys, [], rfl, hpending.reached, hid, List.forall_mem_nil _⟩

theorem run_pending (hrun : run (step ops) (initial cache) actions = some final) :
    Pending ops cache actions final := by
  refine run_invariant_history (Pending ops cache)
    (fun history sys action next hpending hstep => hpending.step hstep) ⟨rfl, ?_, ?_, ?_⟩ hrun
  all_goals exact fun key ids hlookup => by contradiction

/--
The registry of fills after any run.  It names exactly the fills whose tokens are alive
and not claimed and whose keys nothing has cancelled since they began; no key is left
with an empty set; a fill never gets the id of an earlier one; and without tokens the
registry is empty.
-/
theorem registry_names_pending_fills (hrun : run (step ops) (initial cache) actions = some final) :
    (∀ key id, id ∈ final.registry.ids key ↔
      id ∈ final.unclaimedIds ∧ Uncancelled ops cache actions key id) ∧
    NoEmptySet final.registry ∧
    (∀ before between start later key, run (step ops) (initial cache) before = some start →
      run (step ops) start (.begin key :: between) = some later →
      start.registry.nextId < later.registry.nextId) ∧
    (final.unclaimedIds = [] → final.registry.fills = ∅) := by
  have hpending := run_pending hrun
  have hnamed : ∀ key id, id ∈ final.registry.ids key ↔
      id ∈ final.unclaimedIds ∧ Uncancelled ops cache actions key id := by
    intro key id
    constructor
    · intro hmem
      refine ⟨mem_unclaimedIds.mpr ?_, hpending.uncancelled key id hmem⟩
      rw [hpending.token key id hmem]
      rfl
    · rintro ⟨hlive, before, start, between, rfl, hbefore, rfl, hnone⟩
      rw [run_append, hbefore, Option.bind_some] at hrun
      have htracks := run_tracks (run_circulation hbefore) hrun
      exact (htracks.registered hlive).mpr hnone
  refine ⟨hnamed, hpending.noEmptySet, ?_, ?_⟩
  · intro before between start later key hbefore hbetween
    exact (run_tracks (run_circulation hbefore) hbetween).allocated
  · intro hnone
    refine Table.eq_empty_of_lookup fun key => ?_
    refine Option.eq_none_iff_forall_ne_some.mpr fun ids hlookup => ?_
    obtain ⟨id, hid⟩ := hpending.noEmptySet key ids hlookup
    have hmem : id ∈ final.registry.ids key := by
      rw [CacheFillRegistry.ids, hlookup]
      exact hid
    have hlive := ((hnamed key id).mp hmem).1
    rw [hnone] at hlive
    contradiction

end Runs

def cancelFirst : List (FillAction (GlideCacheImpl LruStrategy)) :=
  [.begin [1], .begin [2], .cancelAhead [1]]

theorem fill_of_other_key_pending :
    ∃ final, run (step smallOps) (initial smallCache) cancelFirst = some final ∧
      1 ∈ final.unclaimedIds ∧ Uncancelled smallOps smallCache cancelFirst [2] 1 := by
  have hrun : run (step smallOps) (initial smallCache) cancelFirst = some _ := rfl
  exact ⟨_, hrun, ((registry_names_pending_fills hrun).1 [2] 1).mp (by decide)⟩

end FillSystem

end ValkeyGlide.Cache
