import Mathlib.Data.List.Induction
import Mathlib.Data.List.Perm.Basic
import ValkeyGlide.Cluster.PlanPartition

/-!
# Recombining replies of any shape

The plan of a split command says how many keys went to each node and where the
answers belong.  `combineAndSortArrayResults` trusts the replies: an array of
another length trips an assertion, and a reply that is no array is refused only
after the arrays in front of it were placed, into a result that it made too
short.
-/

namespace ValkeyGlide.Cluster

open Foundation Protocol

/-! ## Groups of arguments -/

def expand (size : Nat) (groups : List Nat) : List Nat :=
  groups.flatMap fun group => List.range' (group * size) size

/-- The indices that a plan holds for some groups; the shared path comes last. -/
def spread (pattern : MultiSlotArgPattern) (total : Nat) (groups : List Nat) : List Nat :=
  match pattern with
  | .keysAndLastArg => groups ++ [total]
  | pattern => expand pattern.groupSize groups

def keysSent (pattern : MultiSlotArgPattern) (indices : List Nat) : Nat :=
  match pattern with
  | .keysAndLastArg => indices.length - 1
  | pattern => indices.length / pattern.groupSize

/-- The key of that number is sent with the arguments at `indices`. -/
def SentKey (pattern : MultiSlotArgPattern) (indices : List Nat) (key : Nat) : Prop :=
  match pattern with
  | .keysAndLastArg => key ∈ indices.dropLast
  | pattern => key * pattern.groupSize ∈ indices

theorem expand_one (groups : List Nat) : expand 1 groups = groups := by
  induction groups with
  | nil => rfl
  | cons group groups ih =>
    unfold expand at ih ⊢
    rw [List.flatMap_cons, ih]
    simp

theorem expand_length (size : Nat) (groups : List Nat) :
    (expand size groups).length = groups.length * size := by
  induction groups with
  | nil => simp [expand]
  | cons group groups ih =>
    unfold expand at ih ⊢
    rw [List.flatMap_cons, List.length_append, ih, List.length_range', List.length_cons,
      Nat.succ_mul, Nat.add_comm]

variable {size key : Nat} {routes : RouteIndices} {crc16 : Bytes → Nat}
  {pattern pattern' : MultiSlotArgPattern} {groups : List Nat} {name : Bytes}
  {order : IterationOrder} {policy : Option ResponsePolicy} {routable : Cmd}

private theorem filter_zipIdx_group (hsize : 0 < size) (start count : Nat) :
    ((List.range' start size).zipIdx (count * size)).filter (fun entry => entry.2 % size == 0) =
      [(start, count * size)] := by
  obtain ⟨rest, rfl⟩ : ∃ rest, size = rest + 1 := ⟨size - 1, by omega⟩
  rw [List.range'_succ, List.zipIdx_cons, List.filter_cons_of_pos (by simp)]
  refine congrArg (List.cons _) (List.filter_eq_nil_iff.mpr ?_)
  intro entry hentry
  have hlower := List.le_snd_of_mem_zipIdx hentry
  have hupper := List.snd_lt_add_of_mem_zipIdx hentry
  rw [List.length_range'] at hupper
  obtain ⟨offset, hoffset⟩ := Nat.exists_eq_add_of_le (by omega : count * (rest + 1) ≤ entry.2)
  rw [hoffset, Nat.mul_comm, Nat.mul_add_mod, Nat.mod_eq_of_lt (by omega)]
  simp
  omega

theorem stepBy_expand (hsize : 0 < size) (groups : List Nat) :
    stepBy size (expand size groups) = groups.map (· * size) := by
  have hfrom : ∀ count, (((expand size groups).zipIdx (count * size)).filter
      fun entry => entry.2 % size == 0).map Prod.fst = groups.map (· * size) := by
    induction groups with
    | nil => simp [expand]
    | cons group groups ih =>
      intro count
      have hnext : count * size + size = (count + 1) * size := by rw [Nat.succ_mul]
      unfold expand at ih ⊢
      rw [List.flatMap_cons, List.zipIdx_append, List.filter_append, List.length_range', hnext,
        filter_zipIdx_group hsize, List.map_append, ih]
      rfl
  simpa [stepBy] using hfrom 0

theorem resultIndices_spread (pattern : MultiSlotArgPattern) (total : Nat) (groups : List Nat) :
    resultIndices pattern (spread pattern total groups) = some groups := by
  have hstep : ∀ size, 0 < size →
      (stepBy size (expand size groups)).map (· / size) = groups := by
    intro size hsize
    rw [stepBy_expand hsize, List.map_map]
    conv_rhs => rw [← List.map_id groups]
    refine List.map_congr_left fun group _ => ?_
    exact Nat.mul_div_cancel group hsize
  cases pattern with
  | keysOnly => exact congrArg some (expand_one groups)
  | keyValuePairs => exact congrArg some (hstep 2 (by decide))
  | keysAndLastArg =>
    have hdrop : (groups ++ [total]).dropLast = groups := List.dropLast_concat
    cases groups with
    | nil => rfl
    | cons group groups => exact congrArg some hdrop
  | keyWithTwoArgTriples => exact congrArg some (hstep 3 (by decide))

theorem keysSent_spread (pattern : MultiSlotArgPattern) (total : Nat) (groups : List Nat) :
    keysSent pattern (spread pattern total groups) = groups.length := by
  cases pattern with
  | keysAndLastArg => simp [keysSent, spread]
  | _ => simp [keysSent, spread, expand_length, MultiSlotArgPattern.groupSize]

theorem mul_mem_expand (hsize : 0 < size) : key * size ∈ expand size groups ↔ key ∈ groups := by
  simp only [expand, List.mem_flatMap, List.mem_range'_1]
  constructor
  · rintro ⟨group, hgroup, hlow, hhigh⟩
    obtain rfl : group = key := by
      refine Nat.le_antisymm (Nat.le_of_mul_le_mul_right hlow hsize) ?_
      rw [← Nat.succ_mul] at hhigh
      exact Nat.le_of_lt_succ (Nat.lt_of_mul_lt_mul_right hhigh)
    exact hgroup
  · exact fun hkey => ⟨key, hkey, le_rfl, by omega⟩

theorem sentKey_spread (pattern : MultiSlotArgPattern) (total : Nat) :
    SentKey pattern (spread pattern total groups) key ↔ key ∈ groups := by
  cases pattern with
  | keysAndLastArg => simp [SentKey, spread]
  | _ => exact mul_mem_expand (MultiSlotArgPattern.groupSize_pos _)

/-! ## The groups of a plan -/

/-- The routes hold the first `count` groups, each once. -/
def Grouped (size count : Nat) (routes : RouteIndices) : Prop :=
  ∃ groups : RouteIndices, (groups.flatMap Prod.snd).Perm (List.range count) ∧
    routes = groups.map fun entry => (entry.1, expand size entry.2)

private theorem pushIndices_expand (size : Nat) (groups : RouteIndices) (route : Route)
    (added : List Nat) :
    pushIndices (groups.map fun entry => (entry.1, expand size entry.2)) route (expand size added) =
      (pushIndices groups route added).map fun entry => (entry.1, expand size entry.2) := by
  induction groups with
  | nil => rfl
  | cons entry groups ih =>
    obtain ⟨known, held⟩ := entry
    simp only [List.map_cons, pushIndices]
    split_ifs
    · simp [expand]
    · simp [ih]

theorem Grouped.push {count : Nat} (hgrouped : Grouped size count routes) (route : Route) :
    Grouped size (count + 1) (pushIndices routes route (List.range' (count * size) size)) := by
  obtain ⟨groups, hperm, rfl⟩ := hgrouped
  refine ⟨pushIndices groups route [count], ?_, ?_⟩
  · rw [List.range_succ]
    exact (flatMap_pushIndices _ _ _).trans (hperm.append_right _)
  · rw [← pushIndices_expand]
    simp [expand]

theorem exists_groups_of_multiShard (hsplit : multiShard crc16 order routable name 1 pattern =
      some (.multiNode (.multiSlot routes pattern') policy)) :
    ∃ (groups : RouteIndices) (total : Nat), (groups.flatMap Prod.snd).Perm (List.range total) ∧
      routes = groups.map fun entry => (entry.1, spread pattern total entry.2) := by
  obtain ⟨found, hloop, hvisit, hmany⟩ := multiShard_eq_multiSlot hsplit
  have hfound : ∃ (groups : RouteIndices) (total : Nat),
      (groups.flatMap Prod.snd).Perm (List.range total) ∧
        found = groups.map fun entry => (entry.1, spread pattern total entry.2) := by
    by_cases hpattern : pattern = .keysAndLastArg
    · subst hpattern
      rcases multiShardLoop_sharedPath .nil (by omega) (by simp) (by simp) hloop with
        ⟨total, htotal, hgroups, -⟩ | ⟨total, base, -, hgroups, rfl, -, -⟩
      · have hsingle := hgroups.length_le_one htotal
        rw [← (order.perm found).length_eq, hvisit] at hsingle
        omega
      · exact ⟨base, total, by simpa using hgroups.indices, rfl⟩
    · rw [← Nat.zero_mul pattern.groupSize] at hloop
      obtain ⟨total, ⟨groups, hperm, rfl⟩, -⟩ := multiShardLoop_invariant
        (Grouped pattern.groupSize) (fun _ _ _ hgrouped _ => hgrouped.push _) hpattern
        ⟨[], by simp, rfl⟩ (by omega) hloop
      refine ⟨groups, total, hperm, ?_⟩
      cases pattern <;> first | rfl | contradiction
  obtain ⟨groups, total, hperm, rfl⟩ := hfound
  have hvisited := order.perm (groups.map fun entry => (entry.1, spread pattern total entry.2))
  rw [hvisit] at hvisited
  -- a permutation of the image is the image of a permutation
  obtain ⟨visited, rfl, hgroups⟩ :=
    (congrFun (congrFun (List.eq_map_comp_perm _) _) _).mpr hvisited
  exact ⟨visited, total, (hgroups.flatMap_right _).trans hperm, rfl⟩

/-! ## Placing the replies -/

def FitsKeys (keys : Nat) (value : Value) : Prop :=
  ∃ items, value = .array items ∧ items.length = keys

section Place

variable {results : List Value} {pairs : List (List Nat × Value)}
  {rest : List (Option (List Nat) × Value)} {positions : List Nat}

private def lifted (pairs : List (List Nat × Value)) : List (Option (List Nat) × Value) :=
  pairs.map fun pair => (some pair.1, pair.2)

private theorem placeResults_array {items : List Value}
    (hlength : items.length = positions.length) :
    placeResults results ((some positions, .array items) :: rest) =
      (scatter results (positions.zip items)).bind fun next => placeResults next rest := by
  rw [placeResults, if_pos hlength]
  cases scatter results (positions.zip items) <;> rfl

private theorem placeResults_of_room (hfits : ∀ pair ∈ pairs, FitsKeys pair.1.length pair.2)
    (hroom : ∀ pair ∈ pairs, ∀ index ∈ pair.1, index < results.length) :
    ∃ next, next.length = results.length ∧
      ∀ rest, placeResults results (lifted pairs ++ rest) = placeResults next rest := by
  induction pairs generalizing results with
  | nil => exact ⟨results, rfl, fun _ => rfl⟩
  | cons pair pairs ih =>
    obtain ⟨positions, value⟩ := pair
    obtain ⟨⟨items, rfl, hlength⟩, hfitsRest⟩ := List.forall_mem_cons.mp hfits
    obtain ⟨hfirst, hroomRest⟩ := List.forall_mem_cons.mp hroom
    have hwrites : ∀ write ∈ positions.zip items, write.1 < results.length :=
      fun write hwrite => hfirst _ (List.of_mem_zip hwrite).1
    obtain ⟨placed, hscatter, hplaced⟩ := scatter_of_lt hwrites
    obtain ⟨next, hnext, hrest⟩ := ih hfitsRest (hplaced.symm ▸ hroomRest)
    refine ⟨next, hnext.trans hplaced, fun rest => ?_⟩
    rw [lifted, List.map_cons, List.cons_append, placeResults_array hlength, hscatter]
    exact hrest rest

private theorem placeResults_of_no_room (hfits : ∀ pair ∈ pairs, FitsKeys pair.1.length pair.2)
    (hroom : ¬ ∀ pair ∈ pairs, ∀ index ∈ pair.1, index < results.length) :
    placeResults results (lifted pairs ++ rest) = none := by
  induction pairs generalizing results with
  | nil => exact absurd (by simp) hroom
  | cons pair pairs ih =>
    obtain ⟨positions, value⟩ := pair
    obtain ⟨⟨items, rfl, hlength⟩, hfitsRest⟩ := List.forall_mem_cons.mp hfits
    rw [lifted, List.map_cons, List.cons_append, placeResults_array hlength]
    cases hscatter : scatter results (positions.zip items) with
    | none => rfl
    | some placed =>
      have hfirst : ∀ index ∈ positions, index < results.length := by
        intro index hindex
        have hzip : (positions.zip items).map Prod.fst = positions :=
          List.map_fst_zip hlength.ge
        obtain ⟨write, hwrite, rfl⟩ := List.mem_map.mp (hzip.symm ▸ hindex)
        exact lt_of_scatter hscatter write hwrite
      refine ih hfitsRest fun hrest => hroom (List.forall_mem_cons.mpr ⟨hfirst, ?_⟩)
      obtain ⟨final, hfinal, hplaced⟩ := scatter_of_lt (lt_of_scatter hscatter)
      obtain rfl := Option.some.inj (hscatter.symm.trans hfinal)
      rwa [hplaced] at hrest

private theorem placeResults_misfit {value : Value} (hbad : ¬ FitsKeys positions.length value)
    (results : List Value) (rest : List (Option (List Nat) × Value)) :
    (∃ error, placeResults results ((some positions, value) :: rest) = some (.error error)) ∧
      (∀ items, value ≠ .array items) ∨
    placeResults results ((some positions, value) :: rest) = none ∧
      ∃ items, value = .array items := by
  cases value with
  | array items =>
    have hne : items.length ≠ positions.length := fun heq => hbad ⟨items, rfl, heq⟩
    exact .inr ⟨by rw [placeResults, if_neg hne], items, rfl⟩
  | _ => exact .inl ⟨⟨_, rfl⟩, by simp⟩

def isArrayReply : Value → Bool
  | .array _ => true
  | _ => false

def elementsOf : Value → Nat
  | .array items => items.length
  | _ => 0

/-- The elements of the arrays after the last reply that is no array. -/
def elementsAfterLast (values : List Value) : Nat :=
  ((values.reverse.takeWhile isArrayReply).map elementsOf).sum

private theorem resultsLength_eq (values : List Value) :
    resultsLength values = elementsAfterLast values := by
  induction values using List.reverseRecOn with
  | nil => rfl
  | append_singleton values value ih =>
    unfold resultsLength elementsAfterLast at ih ⊢
    cases value <;> simp [List.takeWhile_cons, isArrayReply, elementsOf, ih]

private theorem resultsLength_concat (values items : List Value) :
    resultsLength (values ++ [.array items]) = items.length + resultsLength values := by
  simp [resultsLength]

private theorem resultsLength_of_fits (hfits : ∀ pair ∈ pairs, FitsKeys pair.1.length pair.2) :
    resultsLength (pairs.map Prod.snd) = (pairs.flatMap Prod.fst).length := by
  induction pairs using List.reverseRecOn with
  | nil => rfl
  | append_singleton pairs pair ih =>
    obtain ⟨items, hitems, hlength⟩ := hfits pair (by simp)
    have hbefore := ih fun other hother => hfits other (by simp [hother])
    rw [List.map_append, List.map_singleton, hitems, resultsLength_concat, hbefore, hlength,
      List.flatMap_append, List.flatMap_singleton, List.length_append, Nat.add_comm]

end Place

/-! ## Plans -/

def positions (pattern : MultiSlotArgPattern) (indices : List Nat) : List Nat :=
  (resultIndices pattern indices).getD []

/-- What recombining relies on: the routes have disjoint positions, one for every key sent, that
fill the result. -/
structure Positioned (pattern : MultiSlotArgPattern) (routes : RouteIndices) : Prop where
  indices : calculateMultiSlotResultIndices routes pattern =
    .ok (routes.map fun entry => some (positions pattern entry.2))
  lengths : ∀ entry ∈ routes, (positions pattern entry.2).length = keysSent pattern entry.2
  sent : ∀ entry ∈ routes, ∀ key, key ∈ positions pattern entry.2 ↔ SentKey pattern entry.2 key
  below : ∀ entry ∈ routes, ∀ index ∈ positions pattern entry.2,
    index < (routes.flatMap fun entry => positions pattern entry.2).length

private theorem checkIndicesInput_ok {stepCount : Nat}
    (hroutes : ∀ entry ∈ routes, entry.2.length % stepCount = 0) :
    checkIndicesInput stepCount routes = .ok () := by
  induction routes with
  | nil => rfl
  | cons entry routes ih =>
    obtain ⟨hentry, hrest⟩ := List.forall_mem_cons.mp hroutes
    rw [checkIndicesInput, if_neg (not_not_intro hentry), ih hrest]

theorem positions_spread (pattern : MultiSlotArgPattern) (total : Nat) (groups : List Nat) :
    positions pattern (spread pattern total groups) = groups := by
  rw [positions, resultIndices_spread]
  rfl

theorem positioned_of_multiShard (hsplit : multiShard crc16 order routable name 1 pattern =
      some (.multiNode (.multiSlot routes pattern') policy)) : Positioned pattern routes := by
  obtain ⟨groups, total, hperm, rfl⟩ := exists_groups_of_multiShard hsplit
  have hwhole : ∀ size, pattern ≠ .keysAndLastArg → pattern.groupSize = size →
      checkIndicesInput size (groups.map fun entry => (entry.1, spread pattern total entry.2)) =
        .ok () := by
    rintro size hpattern rfl
    refine checkIndicesInput_ok (List.forall_mem_map.mpr fun entry _ => ?_)
    have hspread : spread pattern total entry.2 = expand pattern.groupSize entry.2 := by
      cases pattern <;> first | rfl | contradiction
    rw [hspread, expand_length, Nat.mul_mod_left]
  constructor
  case indices =>
    simp only [List.map_map, Function.comp_def, positions_spread]
    unfold calculateMultiSlotResultIndices
    simp only [List.map_map, Function.comp_def, resultIndices_spread]
    cases pattern with
    | keysOnly => rfl
    | keyValuePairs => rw [hwhole 2 (by decide) rfl]; rfl
    | keysAndLastArg => rfl
    | keyWithTwoArgTriples => rw [hwhole 3 (by decide) rfl]; rfl
  case lengths =>
    refine List.forall_mem_map.mpr fun entry _ => ?_
    rw [positions_spread, keysSent_spread]
  case sent =>
    refine List.forall_mem_map.mpr fun entry _ key => ?_
    rw [positions_spread, sentKey_spread]
  case below =>
    refine List.forall_mem_map.mpr fun entry hentry index hindex => ?_
    rw [positions_spread] at hindex
    simp only [List.flatMap_map, positions_spread]
    rw [hperm.length_eq, List.length_range]
    exact List.mem_range.mp (hperm.mem_iff.mp (List.mem_flatMap.mpr ⟨entry, hentry, hindex⟩))

/-! ## The law -/

/-- Every reply fits the keys that were sent to its node. -/
def FitsRoute (pattern : MultiSlotArgPattern) (pair : (Route × List Nat) × Value) : Prop :=
  FitsKeys (keysSent pattern pair.1.2) pair.2

/-- A value or an error comes out, and an error if some reply does not fit or is missing. -/
structure Recombines (pattern : MultiSlotArgPattern) (routes : RouteIndices)
    (values : List Value) : Prop where
  returns : ∃ outcome, combineAndSortArrayResults values routes pattern = some outcome
  refuses : (values.length ≠ routes.length ∨
      ∃ pair ∈ routes.zip values, ¬ FitsRoute pattern pair) →
    ∃ error, combineAndSortArrayResults values routes pattern = some (.error error)

/-- The number of replies is wrong, or all fit, or the first that does not is no array and the
keys answered in front of it have numbers below the count of elements in the arrays after the
last reply that is no array. -/
def Refusable (pattern : MultiSlotArgPattern) (routes : RouteIndices) (values : List Value) :
    Prop :=
  values.length ≠ routes.length ∨
  (∀ pair ∈ routes.zip values, FitsRoute pattern pair) ∨
  ∃ before bad after, routes.zip values = before ++ bad :: after ∧
    (∀ pair ∈ before, FitsRoute pattern pair) ∧ (∀ items, bad.2 ≠ .array items) ∧
    ∀ pair ∈ before, ∀ key, SentKey pattern pair.1.2 key → key < elementsAfterLast values

section Law

variable {pattern : MultiSlotArgPattern} {routes : RouteIndices} {values : List Value}
  {pairs : List ((Route × List Nat) × Value)} {length : Nat}

private def positionPair (pattern : MultiSlotArgPattern) (pair : (Route × List Nat) × Value) :
    List Nat × Value :=
  (positions pattern pair.1.2, pair.2)

private theorem Positioned.fits_iff (hplan : Positioned pattern routes)
    {pair : (Route × List Nat) × Value} (hpair : pair ∈ routes.zip values) :
    FitsRoute pattern pair ↔
      FitsKeys (positionPair pattern pair).1.length (positionPair pattern pair).2 := by
  rw [FitsRoute, ← hplan.lengths pair.1 (List.of_mem_zip hpair).1]
  rfl

private theorem Positioned.fitsKeys (hplan : Positioned pattern routes)
    (hpairs : ∀ pair ∈ pairs, pair ∈ routes.zip values)
    (hfits : ∀ pair ∈ pairs, FitsRoute pattern pair) :
    ∀ pair ∈ pairs.map (positionPair pattern), FitsKeys pair.1.length pair.2 :=
  List.forall_mem_map.mpr fun pair hpair =>
    (hplan.fits_iff (hpairs pair hpair)).mp (hfits pair hpair)

private theorem Positioned.sent_iff (hplan : Positioned pattern routes)
    (hpairs : ∀ pair ∈ pairs, pair ∈ routes.zip values) :
    (∀ pair ∈ pairs, ∀ key, SentKey pattern pair.1.2 key → key < length) ↔
      ∀ pair ∈ pairs, ∀ index ∈ positions pattern pair.1.2, index < length :=
  forall₂_congr fun pair hpair => forall_congr' fun key => by
    rw [hplan.sent pair.1 (List.of_mem_zip (hpairs pair hpair)).1]

private theorem room_iff :
    (∀ pair ∈ pairs.map (positionPair pattern), ∀ index ∈ pair.1,
      index < (List.replicate length Value.nil).length) ↔
    ∀ pair ∈ pairs, ∀ index ∈ positions pattern pair.1.2, index < length := by
  rw [List.forall_mem_map, List.length_replicate]
  rfl

section

variable (hplan : Positioned pattern routes)
include hplan

private theorem combine_of_length_ne (hlength : values.length ≠ routes.length) :
    ∃ error, combineAndSortArrayResults values routes pattern = some (.error error) := by
  unfold combineAndSortArrayResults
  rw [hplan.indices]
  exact ⟨_, by simp only [List.length_map]; rw [if_pos hlength]⟩

private theorem combine_of_length_eq (hlength : values.length = routes.length) :
    combineAndSortArrayResults values routes pattern =
      (placeResults (List.replicate (resultsLength values) .nil)
        (lifted ((routes.zip values).map (positionPair pattern)))).map fun placed =>
          Value.array <$> placed := by
  have hzip : (routes.map fun entry => some (positions pattern entry.2)).zip values =
      lifted ((routes.zip values).map (positionPair pattern)) := by
    rw [List.zip_map_left, lifted, List.map_map]
    rfl
  unfold combineAndSortArrayResults
  rw [hplan.indices]
  simp only [List.length_map]
  rw [if_neg (not_not_intro hlength), hzip]
  cases placeResults (List.replicate (resultsLength values) .nil)
    (lifted ((routes.zip values).map (positionPair pattern))) with
  | none => rfl
  | some placed => cases placed <;> rfl

private theorem combine_of_fits (hlength : values.length = routes.length)
    (hfits : ∀ pair ∈ routes.zip values, FitsRoute pattern pair) :
    ∃ results, combineAndSortArrayResults values routes pattern = some (.ok (.array results)) := by
  have hpairs := hplan.fitsKeys (fun _ => id) hfits
  have hvalues : ((routes.zip values).map (positionPair pattern)).map Prod.snd = values := by
    rw [List.map_map]
    exact List.map_snd_zip hlength.le
  have hroutes : ((routes.zip values).map (positionPair pattern)).flatMap Prod.fst =
      routes.flatMap fun entry => positions pattern entry.2 := by
    conv_rhs => rw [← List.map_fst_zip hlength.ge, List.flatMap_map]
    rw [List.flatMap_map]
    rfl
  have hroom : ∀ pair ∈ routes.zip values, ∀ index ∈ positions pattern pair.1.2,
      index < resultsLength values := by
    intro pair hpair index hindex
    rw [← hvalues, resultsLength_of_fits hpairs, hroutes]
    exact hplan.below pair.1 (List.of_mem_zip hpair).1 index hindex
  obtain ⟨next, -, hplace⟩ := placeResults_of_room hpairs (room_iff.mpr hroom)
  have hall := hplace []
  rw [List.append_nil] at hall
  rw [combine_of_length_eq hplan hlength, hall]
  exact ⟨next, rfl⟩

private theorem combine_of_bad
    (hlength : values.length = routes.length) {before after : List ((Route × List Nat) × Value)}
    {bad : (Route × List Nat) × Value} (hsplit : routes.zip values = before ++ bad :: after)
    (hbefore : ∀ pair ∈ before, FitsRoute pattern pair) (hbad : ¬ FitsRoute pattern bad) :
    ((∃ error, combineAndSortArrayResults values routes pattern = some (.error error)) ∧
      (∀ items, bad.2 ≠ .array items) ∧
      ∀ pair ∈ before, ∀ key, SentKey pattern pair.1.2 key → key < elementsAfterLast values) ∨
    (combineAndSortArrayResults values routes pattern = none ∧
      ((∃ items, bad.2 = .array items) ∨
        ¬ ∀ pair ∈ before, ∀ key, SentKey pattern pair.1.2 key →
          key < elementsAfterLast values)) := by
  have hmem : ∀ pair ∈ before ++ bad :: after, pair ∈ routes.zip values := hsplit ▸ fun _ => id
  have hpairs := hplan.fitsKeys (fun pair hpair => hmem pair (List.mem_append_left _ hpair)) hbefore
  have hmisfit : ¬ FitsKeys (positions pattern bad.1.2).length bad.2 :=
    fun hfits => hbad ((hplan.fits_iff (hmem bad (by simp))).mpr hfits)
  have hlifted : lifted ((routes.zip values).map (positionPair pattern)) =
      lifted (before.map (positionPair pattern)) ++
        (some (positions pattern bad.1.2), bad.2) :: lifted (after.map (positionPair pattern)) := by
    rw [hsplit]
    simp [lifted, positionPair]
  rw [combine_of_length_eq hplan hlength, hlifted, ← resultsLength_eq,
    hplan.sent_iff fun pair hpair => hmem pair (List.mem_append_left _ hpair)]
  by_cases hroom : ∀ pair ∈ before, ∀ index ∈ positions pattern pair.1.2,
      index < resultsLength values
  · obtain ⟨next, -, hplace⟩ := placeResults_of_room hpairs (room_iff.mpr hroom)
    rw [hplace]
    rcases placeResults_misfit hmisfit next _ with ⟨⟨error, herror⟩, hnone⟩ | ⟨hpanic, harray⟩
    · rw [herror]
      exact .inl ⟨⟨error, rfl⟩, hnone, hroom⟩
    · rw [hpanic]
      exact .inr ⟨rfl, .inl harray⟩
  · rw [placeResults_of_no_room hpairs (mt room_iff.mp hroom)]
    exact .inr ⟨rfl, .inr hroom⟩

end

private theorem exists_first_bad {α : Type} {good : α → Prop} {list : List α}
    (hbad : ¬ ∀ item ∈ list, good item) :
    ∃ before bad after, list = before ++ bad :: after ∧ (∀ item ∈ before, good item) ∧
      ¬ good bad := by
  induction list with
  | nil => exact absurd (by simp) hbad
  | cons item list ih =>
    by_cases hitem : good item
    · obtain ⟨before, bad, after, rfl, hbefore, hbad⟩ :=
        ih fun hrest => hbad (List.forall_mem_cons.mpr ⟨hitem, hrest⟩)
      exact ⟨item :: before, bad, after, rfl, List.forall_mem_cons.mpr ⟨hitem, hbefore⟩, hbad⟩
    · exact ⟨[], item, list, rfl, by simp, hitem⟩

end Law

/-- For the plan of any command, replies of any shape are recombined or refused exactly when
they are refusable; otherwise the client panics. -/
theorem recombines_iff_refusable {crc16 : Bytes → Nat} {order : IterationOrder} {routable : Cmd}
    {name : Bytes} {pattern : MultiSlotArgPattern} {routes : RouteIndices}
    {policy : Option ResponsePolicy}
    (hsplit : multiShard crc16 order routable name 1 pattern =
      some (.multiNode (.multiSlot routes pattern) policy)) (values : List Value) :
    Recombines pattern routes values ↔ Refusable pattern routes values := by
  have hplan := positioned_of_multiShard hsplit
  by_cases hlength : values.length = routes.length
  · by_cases hfits : ∀ pair ∈ routes.zip values, FitsRoute pattern pair
    · obtain ⟨results, hok⟩ := combine_of_fits hplan hlength hfits
      refine iff_of_true ⟨⟨_, hok⟩, ?_⟩ (.inr (.inl hfits))
      rintro (hne | ⟨pair, hpair, hnot⟩)
      · exact absurd hlength hne
      · exact absurd (hfits pair hpair) hnot
    · obtain ⟨before, bad, after, hzip, hbefore, hbad⟩ := exists_first_bad hfits
      have hsome : ∃ pair ∈ routes.zip values, ¬ FitsRoute pattern pair :=
        ⟨bad, by rw [hzip]; simp, hbad⟩
      rcases combine_of_bad hplan hlength hzip hbefore hbad with
        ⟨⟨error, herror⟩, hnone, hroom⟩ | ⟨hpanic, -⟩
      · exact iff_of_true ⟨⟨_, herror⟩, fun _ => ⟨error, herror⟩⟩
          (.inr (.inr ⟨before, bad, after, hzip, hbefore, hnone, hroom⟩))
      · refine iff_of_false (fun hlaw => ?_) ?_
        · obtain ⟨outcome, houtcome⟩ := hlaw.returns
          rw [hpanic] at houtcome
          contradiction
        · rintro (hne | hall | ⟨before, bad, after, hzip, hbefore, hnone, hroom⟩)
          · exact hne hlength
          · exact hfits hall
          · have hbad : ¬ FitsRoute pattern bad := fun ⟨items, hitems, _⟩ => hnone items hitems
            rcases combine_of_bad hplan hlength hzip hbefore hbad with
              ⟨⟨error, herror⟩, -⟩ | ⟨-, ⟨items, hitems⟩ | hfull⟩
            · rw [hpanic] at herror
              contradiction
            · exact hnone items hitems
            · exact hfull hroom
  · obtain ⟨error, herror⟩ := combine_of_length_ne hplan hlength
    exact iff_of_true ⟨⟨_, herror⟩, fun _ => ⟨error, herror⟩⟩ (.inl hlength)

/-! ## A split read -/

private def readCmd : Cmd := Cmd.ofBytes [bytes "MGET", bytes "a", bytes "bb"]

private def readRoutes : RouteIndices :=
  [(⟨1, .replicaOptional⟩, [0]), (⟨2, .replicaOptional⟩, [1])]

private theorem readCmd_split :
    multiShard List.length ⟨id, fun _ => .refl _⟩ readCmd (bytes "MGET") 1 .keysOnly =
      some (.multiNode (.multiSlot readRoutes .keysOnly) (some .combineArrays)) := by
  decide +kernel

theorem split_read_recombines :
    Recombines .keysOnly readRoutes [.array [.nil], .array [.okay]] ∧
      Recombines .keysOnly readRoutes [.nil, .array [.okay]] := by
  refine ⟨(recombines_iff_refusable readCmd_split _).mpr (.inr (.inl ?_)),
    (recombines_iff_refusable readCmd_split _).mpr (.inr (.inr ?_))⟩
  · simp [readRoutes, FitsRoute, FitsKeys, keysSent, MultiSlotArgPattern.groupSize]
  · exact ⟨[], ((⟨1, .replicaOptional⟩, [0]), .nil), _, rfl, by simp, by simp, by simp⟩

theorem split_read_panics :
    multiShard List.length ⟨id, fun _ => .refl _⟩ readCmd (bytes "MGET") 1 .keysOnly =
      some (.multiNode (.multiSlot readRoutes .keysOnly) (some .combineArrays)) ∧
    combineAndSortArrayResults [.array [.nil, .nil], .array [.okay]] readRoutes .keysOnly = none ∧
    combineAndSortArrayResults [.array [.nil], .nil] readRoutes .keysOnly = none :=
  ⟨readCmd_split, rfl, rfl⟩

end ValkeyGlide.Cluster
