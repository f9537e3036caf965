import Mathlib.Data.List.Rotate
import Mathlib.Tactic.Common

/-!
# Rotating choices

A choice among numbered candidates that starts behind the last one chosen and
goes once around.  The candidates met on the way, in order, are a rotation: a
choice takes the first, and seen from there it comes last (`order_turn`).  So as many
choices in a row as there are candidates take each of them once.  A
choice may also fall back: from a group without a candidate to the next one, all
groups sharing one counter.
-/

namespace ValkeyGlide.Foundation.Rotation

variable {α : Type*}

/-! ## One rotation -/

section Search

variable (total last : Nat) (visit : Nat → Option α)

def searchFrom : Nat → Nat → Option (Nat × α)
  | 0, _ => none
  | rounds + 1, count =>
    match visit ((last + count) % total) with
    | some value => some ((last + count) % total, value)
    | none => searchFrom rounds (count + 1)

/-- Visits the numbers behind `last`, once around, until one has a value. -/
def search : Option (Nat × α) := searchFrom total last visit total 1

def order : List (Nat × α) :=
  ((List.range total).rotate (last + 1)).filterMap fun index => (visit index).map (index, ·)

theorem searchFrom_eq_head? (rounds count : Nat) :
    searchFrom total last visit rounds count =
      (((List.range' count rounds).map fun count => (last + count) % total).filterMap
        fun index => (visit index).map (index, ·)).head? := by
  induction rounds generalizing count with
  | zero => rfl
  | succ rounds ih =>
    rw [List.range'_succ, List.map_cons, List.filterMap_cons, searchFrom]
    cases visit ((last + count) % total) with
    | none => exact ih (count + 1)
    | some value => rfl

theorem rotate_range :
    (List.range total).rotate (last + 1) =
      (List.range' 1 total).map fun count => (last + count) % total := by
  refine List.ext_getElem (by simp) fun position hleft hright => ?_
  rw [List.getElem_rotate]
  simp only [List.getElem_range, List.length_range, List.getElem_map, List.getElem_range']
  congr 1
  omega

theorem search_eq_head? : search total last visit = (order total last visit).head? := by
  rw [search, searchFrom_eq_head?, order, rotate_range]

theorem order_perm :
    (order total last visit).Perm
      ((List.range total).filterMap fun index => (visit index).map (index, ·)) :=
  (List.rotate_perm _ _).filterMap _

theorem order_map_snd_perm :
    ((order total last visit).map Prod.snd).Perm ((List.range total).filterMap visit) := by
  have hmap := (order_perm total last visit).map Prod.snd
  rw [List.map_filterMap] at hmap
  simpa [Option.map_map, Function.comp_def] using hmap

end Search

variable {total last : Nat} {visit : Nat → Option α} {value element : α} {groups : List (List α)}

theorem order_turn {index : Nat} {rest : List (Nat × α)}
    (horder : order total last visit = (index, value) :: rest) :
    order total index visit = rest ++ [(index, value)] := by
  obtain ⟨before, found, after, hsplit, hbefore, hfound, hafter⟩ :=
    List.filterMap_eq_cons_iff.mp horder
  obtain ⟨_, hvisit, hpair⟩ := Option.map_eq_some_iff.mp hfound
  obtain ⟨rfl, rfl⟩ := Prod.mk.inj hpair
  have hlt : before.length < ((List.range total).rotate (last + 1)).length := by
    rw [hsplit]
    simp
  have hindex : found = (before.length + (last + 1)) % total := by
    have hget := List.getElem_rotate (List.range total) (last + 1) before.length hlt
    simpa [hsplit] using hget
  have hrotate : (List.range total).rotate (found + 1) = after ++ (before ++ [found]) := by
    calc (List.range total).rotate (found + 1)
        = ((List.range total).rotate found).rotate 1 := (List.rotate_rotate ..).symm
      _ = ((List.range total).rotate (before.length + (last + 1))).rotate 1 := by
          rw [hindex]
          congr 1
          simpa using List.rotate_mod (List.range total) (before.length + (last + 1))
      _ = ((List.range total).rotate (last + 1)).rotate (before ++ [found]).length := by
          rw [List.rotate_rotate, List.rotate_rotate, List.length_append, List.length_singleton]
          congr 1
          omega
      _ = after ++ (before ++ [found]) := by
          rw [hsplit, List.append_cons, List.rotate_append_length_eq]
  rw [order, hrotate, List.filterMap_append, List.filterMap_append, hafter,
    List.filterMap_eq_nil_iff.mpr hbefore]
  simp [hvisit]

theorem filterMap_range_getElem? {β : Type*} (elements : List β) (value : β → Option α) :
    (List.range elements.length).filterMap (fun index => elements[index]?.bind value) =
      elements.filterMap value := by
  induction elements with
  | nil => rfl
  | cons element elements ih =>
    rw [List.length_cons, List.range_succ_eq_map, List.filterMap_cons, List.filterMap_map,
      List.filterMap_cons]
    simp [Option.bind_some, List.getElem?_cons_succ, ih]

/-! ## Falling back -/

/-- A group of candidates: a rotation, or a single one that leaves the counter alone. -/
inductive Tier (α : Type*) where
  | rotating (total : Nat) (visit : Nat → Option α)
  | single (candidate : Option α)

def Tier.candidates : Tier α → List α
  | .rotating total visit => (List.range total).filterMap visit
  | .single candidate => candidate.toList

def firstNonempty : List (List α) → List α
  | [] => []
  | group :: rest => if group = [] then firstNonempty rest else group

theorem firstNonempty_eq_nil_iff : firstNonempty groups = [] ↔ ∀ group ∈ groups, group = [] := by
  induction groups with
  | nil => simp [firstNonempty]
  | cons group rest ih =>
    rw [firstNonempty, List.forall_mem_cons]
    split_ifs with hempty
    · rw [ih, and_iff_right hempty]
    · exact iff_of_false hempty fun hall => hempty hall.1

theorem firstNonempty_mem (groups : List (List α)) :
    firstNonempty groups = [] ∨ firstNonempty groups ∈ groups := by
  induction groups with
  | nil => exact .inl rfl
  | cons group rest ih =>
    rw [firstNonempty]
    split_ifs
    · exact ih.imp_right (List.mem_cons_of_mem _)
    · exact .inr List.mem_cons_self

theorem exists_mem_of_mem_firstNonempty (hmem : element ∈ firstNonempty groups) :
    ∃ group ∈ groups, element ∈ group := by
  rcases firstNonempty_mem groups with hempty | hgroup
  · rw [hempty] at hmem
    contradiction
  · exact ⟨_, hgroup, hmem⟩

theorem firstNonempty_eq_of_forall {group : List α}
    (hgroups : ∀ other ∈ groups, other = [] ∨ other = group) (hmem : group ∈ groups) :
    firstNonempty groups = group := by
  induction groups with
  | nil => contradiction
  | cons first rest ih =>
    obtain ⟨hfirst, hrest⟩ := List.forall_mem_cons.mp hgroups
    rw [firstNonempty]
    split_ifs with hempty
    · rcases List.mem_cons.mp hmem with rfl | hmem
      · subst hempty
        exact firstNonempty_eq_nil_iff.mpr fun other hother => or_self_iff.mp (hrest other hother)
      · exact ih hrest hmem
    · exact hfirst.resolve_left hempty

theorem label_of_mem_firstNonempty {ι κ : Type*} {label : ι → Option κ} {elements : ι → List α}
    {items : List ι}
    (hordered : items.Pairwise fun first second => label second ≠ none → label first = label second)
    {item : ι} (hmem : item ∈ items) {key : κ} (hlabel : label item = some key)
    (hsome : elements item ≠ []) (hfirst : element ∈ firstNonempty (items.map elements)) :
    ∃ other ∈ items, label other = some key ∧ element ∈ elements other := by
  induction items with
  | nil => contradiction
  | cons first rest ih =>
    obtain ⟨hbefore, hrest⟩ := List.pairwise_cons.mp hordered
    rw [List.map_cons, firstNonempty] at hfirst
    split_ifs at hfirst with hempty
    · rcases List.mem_cons.mp hmem with rfl | hmem
      · exact absurd hempty hsome
      · obtain ⟨other, hother, hresult⟩ := ih hrest hmem hfirst
        exact ⟨other, List.mem_cons_of_mem _ hother, hresult⟩
    · refine ⟨first, List.mem_cons_self, ?_, hfirst⟩
      rcases List.mem_cons.mp hmem with rfl | hmem
      · exact hlabel
      · rw [hbefore item hmem (by simp [hlabel]), hlabel]

def eligible (tiers : List (Tier α)) : List α := firstNonempty (tiers.map Tier.candidates)

/-- The choice, and the counter afterwards. -/
def choose : List (Tier α) → Nat → Option α × Nat
  | [], last => (none, last)
  | .rotating total visit :: rest, last =>
    match search total last visit with
    | some (index, value) => (some value, index)
    | none => choose rest last
  | .single candidate :: rest, last =>
    match candidate with
    | some value => (some value, last)
    | none => choose rest last

def Tier.order : Tier α → Nat → List α
  | .rotating total visit, last => (Rotation.order total last visit).map Prod.snd
  | .single candidate, _ => candidate.toList

def turns : List (Tier α) → Nat → List α
  | [], _ => []
  | tier :: rest, last => if tier.candidates = [] then turns rest last else tier.order last

theorem Tier.order_perm (tier : Tier α) (last : Nat) : (tier.order last).Perm tier.candidates := by
  cases tier with
  | rotating total visit => exact order_map_snd_perm total last visit
  | single candidate => exact .refl _

theorem turns_perm (tiers : List (Tier α)) (last : Nat) :
    (turns tiers last).Perm (eligible tiers) := by
  induction tiers with
  | nil => exact .refl _
  | cons tier rest ih =>
    rw [eligible, List.map_cons]
    unfold turns firstNonempty
    split_ifs
    · exact ih
    · exact tier.order_perm last

theorem search_eq_none_iff (total last : Nat) (visit : Nat → Option α) :
    search total last visit = none ↔ (Tier.rotating total visit).candidates = [] := by
  have hlength := (order_map_snd_perm total last visit).length_eq
  rw [search_eq_head?, List.head?_eq_none_iff, Tier.candidates, ← List.length_eq_zero_iff,
    ← List.length_eq_zero_iff, ← hlength, List.length_map]

theorem choose_eq (tiers : List (Tier α)) (last : Nat) :
    (choose tiers last).1 = (turns tiers last).head? ∧
      ∀ value rest, turns tiers last = value :: rest →
        turns tiers (choose tiers last).2 = rest ++ [value] := by
  induction tiers with
  | nil => exact ⟨rfl, nofun⟩
  | cons tier others ih =>
    by_cases hnone : tier.candidates = []
    · have hturns : ∀ last, turns (tier :: others) last = turns others last :=
        fun last => if_pos hnone
      have hchoose : choose (tier :: others) last = choose others last := by
        cases tier with
        | rotating total visit =>
          simp [choose, (search_eq_none_iff total last visit).mpr hnone]
        | single candidate =>
          obtain rfl := Option.toList_eq_nil_iff.mp hnone
          rfl
      simpa only [hturns, hchoose] using ih
    · have hturns : ∀ last, turns (tier :: others) last = tier.order last :=
        fun last => if_neg hnone
      simp only [hturns]
      cases tier with
      | rotating total visit =>
        obtain ⟨⟨index, value⟩, hsearch⟩ := Option.ne_none_iff_exists'.mp
          (mt (search_eq_none_iff total last visit).mp hnone)
        have hchoose : choose (.rotating total visit :: others) last = (some value, index) := by
          simp [choose, hsearch]
        rw [search_eq_head?, List.head?_eq_some_iff] at hsearch
        obtain ⟨rest, horder⟩ := hsearch
        simp only [hchoose, Tier.order, horder, order_turn horder, List.map_cons,
          List.map_append, List.head?_cons, List.cons.injEq, true_and]
        rintro _ _ ⟨rfl, rfl⟩
        rfl
      | single candidate =>
        cases candidate with
        | none => exact absurd rfl hnone
        | some value => exact ⟨rfl, by rintro _ _ ⟨⟩; rfl⟩

theorem choose_fst_eq_none_iff {tiers : List (Tier α)} :
    (choose tiers last).1 = none ↔ eligible tiers = [] := by
  have hlength := (turns_perm tiers last).length_eq
  rw [(choose_eq tiers last).1, List.head?_eq_none_iff, ← List.length_eq_zero_iff, hlength,
    List.length_eq_zero_iff]

theorem mem_eligible_of_choose {tiers : List (Tier α)}
    (hchoose : (choose tiers last).1 = some value) : value ∈ eligible tiers := by
  rw [(choose_eq tiers last).1] at hchoose
  exact (turns_perm tiers last).mem_iff.mp (List.mem_of_mem_head? hchoose)

theorem choose_eq_of_eligible_eq_nil {tiers : List (Tier α)} (hnone : eligible tiers = [])
    (last : Nat) : choose tiers last = (none, last) := by
  induction tiers with
  | nil => rfl
  | cons tier others ih =>
    rw [eligible, List.map_cons, firstNonempty_eq_nil_iff, List.forall_mem_cons,
      ← firstNonempty_eq_nil_iff] at hnone
    obtain ⟨hcandidates, hothers⟩ := hnone
    cases tier with
    | rotating total visit =>
      simp only [choose, (search_eq_none_iff total last visit).mpr hcandidates]
      exact ih hothers
    | single candidate =>
      obtain rfl := Option.toList_eq_nil_iff.mp hcandidates
      exact ih hothers

/-! ## Choices in a row -/

section Consecutive

variable {σ : Type*} {counter : σ → Nat} {lookup : σ → Option α × σ} {state : σ} {valid : σ → Prop}

def results (lookup : σ → Option α × σ) : Nat → σ → List (Option α)
  | 0, _ => []
  | rounds + 1, state => (lookup state).1 :: results lookup rounds (lookup state).2

structure Follows (tiers : List (Tier α)) (counter : σ → Nat) (valid : σ → Prop)
    (lookup : σ → Option α × σ) : Prop where
  result : ∀ state, valid state → (lookup state).1 = (choose tiers (counter state)).1
  counter : ∀ state, valid state → counter (lookup state).2 = (choose tiers (counter state)).2
  keeps : ∀ state, valid state → valid (lookup state).2

theorem Follows.results_eq {tiers : List (Tier α)} (hfollows : Follows tiers counter valid lookup)
    (hvalid : valid state) {rounds : Nat} (hrounds : rounds ≤ (eligible tiers).length) :
    results lookup rounds state = ((turns tiers (counter state)).take rounds).map some := by
  induction rounds generalizing state with
  | zero => rfl
  | succ rounds ih =>
    obtain ⟨hfirst, hturn⟩ := choose_eq tiers (counter state)
    have hlength := (turns_perm tiers (counter state)).length_eq
    cases hturns : turns tiers (counter state) with
    | nil =>
      rw [hturns] at hlength
      simp only [List.length_nil] at hlength
      omega
    | cons value rest =>
      have hlater := hturn value rest hturns
      rw [← hfollows.counter state hvalid] at hlater
      rw [hturns, List.length_cons] at hlength
      rw [results, ih (hfollows.keeps state hvalid) (by omega), hlater,
        hfollows.result state hvalid, hfirst, hturns, List.take_append_of_le_length (by omega)]
      rfl

theorem Follows.results_perm {tiers : List (Tier α)} (hfollows : Follows tiers counter valid lookup)
    (hvalid : valid state) :
    (results lookup (eligible tiers).length state).Perm ((eligible tiers).map some) := by
  have hperm := turns_perm tiers (counter state)
  rw [hfollows.results_eq hvalid le_rfl, ← hperm.length_eq, List.take_length]
  exact hperm.map some

end Consecutive

end ValkeyGlide.Foundation.Rotation
