import ValkeyGlide.Cluster.MultiSlot

/-!
# The plan of a split command

`multiShard` (`cluster_routing.rs`) distributes the arguments of a command over
the slots of its keys.  A plan is well formed when every index names an argument
and the lists partition the arguments, each group of a key and its values in the
list of the key's slot.  The check for a missing value looks one argument too
early, so that a plan is well formed exactly when the arguments fill the pattern.
-/

namespace ValkeyGlide.Cluster

open Foundation Protocol

namespace MultiSlotArgPattern

def groupSize : MultiSlotArgPattern → Nat
  | keysOnly => 1
  | keyValuePairs => 2
  | keysAndLastArg => 1
  | keyWithTwoArgTriples => 3

theorem groupSize_pos (pattern : MultiSlotArgPattern) : 0 < pattern.groupSize := by
  cases pattern <;> decide

end MultiSlotArgPattern

/-- The last argument of a command whose keys share it. -/
def IsSharedPath (pattern : MultiSlotArgPattern) (cmd : Cmd) (index : Nat) : Prop :=
  pattern = .keysAndLastArg ∧ index + 2 = cmd.args.length

structure PlanWellFormed (crc16 : Bytes → Nat) (pattern : MultiSlotArgPattern) (cmd : Cmd)
    (routes : RouteIndices) : Prop where
  existing : ∀ entry ∈ routes, ∀ index ∈ entry.2, (cmd.argIdx (index + 1)).isSome
  once : ∀ index, index + 1 < cmd.args.length → ¬ IsSharedPath pattern cmd index →
    (routes.flatMap Prod.snd).count index = 1
  shared : ∀ index, IsSharedPath pattern cmd index → ∀ entry ∈ routes, entry.2.count index = 1
  whole : ∀ entry ∈ routes, ∀ index ∈ entry.2, ¬ IsSharedPath pattern cmd index →
    ∀ other, other / pattern.groupSize = index / pattern.groupSize → other ∈ entry.2
  keys : ∀ entry ∈ routes, ∀ index ∈ entry.2, ¬ IsSharedPath pattern cmd index →
    index % pattern.groupSize = 0 →
      ∃ key, cmd.argIdx (index + 1) = some key ∧ getSlot crc16 key = entry.1.slot
  slots : (routes.map fun entry => entry.1.slot).Nodup

/-- The arguments after the name are data, and make up whole groups. -/
def FillsPattern (pattern : MultiSlotArgPattern) (cmd : Cmd) : Prop :=
  (∀ arg ∈ cmd.args.tail, arg ≠ .cursor) ∧ (cmd.args.length - 1) % pattern.groupSize = 0

/-! ## Collecting indices -/

variable {indices : List Nat} {routes : RouteIndices}

theorem routes_pushIndices (routes : RouteIndices) (route : Route) (indices : List Nat) :
    (pushIndices routes route indices).map Prod.fst =
      if route ∈ routes.map Prod.fst then routes.map Prod.fst
      else routes.map Prod.fst ++ [route] := by
  induction routes with
  | nil => rfl
  | cons entry rest ih =>
    rw [pushIndices]
    grind

theorem filled_pushIndices (hfilled : ∀ entry ∈ routes, entry.2 ≠ []) (route : Route)
    (hindices : indices ≠ []) : ∀ entry ∈ pushIndices routes route indices, entry.2 ≠ [] := by
  induction routes with
  | nil => simpa [pushIndices] using hindices
  | cons entry rest ih =>
    obtain ⟨hfirst, hrest⟩ := List.forall_mem_cons.mp hfilled
    rw [pushIndices]
    split_ifs
    · exact List.forall_mem_cons.mpr ⟨by simp [hindices], hrest⟩
    · exact List.forall_mem_cons.mpr ⟨hfirst, ih hrest⟩

theorem mem_iff_holds (hnodup : (routes.map Prod.fst).Nodup) {entry : Route × List Nat}
    (hentry : entry ∈ routes) (index : Nat) : index ∈ entry.2 ↔ Holds routes entry.1 index := by
  refine ⟨fun hmem => ⟨entry.2, hentry, hmem⟩, ?_⟩
  rintro ⟨indices, hother, hmem⟩
  have hsame : entry = (entry.1, indices) := List.inj_on_of_nodup_map hnodup hentry hother rfl
  rw [hsame]
  exact hmem

/-! ## Whole groups -/

section Groups

variable {crc16 : Bytes → Nat} {isReadonly : Bool} {cmd : Cmd} {size count : Nat}
  {routes : RouteIndices}

/-- The routes hold the first `count` groups of arguments, each under the route of its key. -/
structure HoldsGroups (crc16 : Bytes → Nat) (isReadonly : Bool) (cmd : Cmd) (size count : Nat)
    (routes : RouteIndices) : Prop where
  routes_nodup : (routes.map Prod.fst).Nodup
  filled : ∀ entry ∈ routes, entry.2 ≠ []
  indices : (routes.flatMap Prod.snd).Perm (List.range (count * size))
  held : ∀ route index, Holds routes route index ↔
    index / size < count ∧ ∃ key, cmd.argIdx (index / size * size + 1) = some key ∧
      getRoute crc16 isReadonly key = route

namespace HoldsGroups

theorem nil : HoldsGroups crc16 isReadonly cmd size 0 [] :=
  ⟨by simp, by simp, by simp, by simp [Holds]⟩

theorem push (hgroups : HoldsGroups crc16 isReadonly cmd size count routes) (hsize : 0 < size)
    {key : Bytes} (hkey : cmd.argIdx (count * size + 1) = some key) :
    HoldsGroups crc16 isReadonly cmd size (count + 1)
      (pushIndices routes (getRoute crc16 isReadonly key) (List.range' (count * size) size)) where
  routes_nodup := by
    have hnodup := hgroups.routes_nodup
    rw [routes_pushIndices]
    grind
  filled := filled_pushIndices hgroups.filled _ (by simpa using hsize.ne')
  indices := by
    refine (flatMap_pushIndices _ _ _).trans ?_
    rw [Nat.succ_mul, List.range_eq_range', ← List.range'_append_1, ← List.range_eq_range',
      Nat.zero_add]
    exact hgroups.indices.append_right _
  held := by
    intro route index
    have hgroup : index ∈ List.range' (count * size) size ↔ index / size = count := by
      rw [List.mem_range'_1, Nat.div_eq_iff hsize]
      omega
    rw [holds_pushIndices, hgroups.held, hgroup]
    constructor
    · rintro (⟨hlt, hheld⟩ | ⟨rfl, rfl⟩)
      · exact ⟨by omega, hheld⟩
      · exact ⟨by omega, key, hkey, rfl⟩
    · rintro ⟨hlt, found, hfound, hroute⟩
      by_cases hlast : index / size = count
      · rw [hlast, hkey] at hfound
        cases hfound
        exact .inr ⟨hroute.symm, hlast⟩
      · exact .inl ⟨by omega, found, hfound, hroute⟩

theorem perm (hgroups : HoldsGroups crc16 isReadonly cmd size count routes)
    {visited : RouteIndices} (hperm : visited.Perm routes) :
    HoldsGroups crc16 isReadonly cmd size count visited where
  routes_nodup := (hperm.map Prod.fst).nodup_iff.mpr hgroups.routes_nodup
  filled := fun entry hentry => hgroups.filled entry (hperm.mem_iff.mp hentry)
  indices := (hperm.flatMap_right Prod.snd).trans hgroups.indices
  held := by
    intro route index
    rw [← hgroups.held]
    simp [Holds, hperm.mem_iff]

theorem argIdx_isSome (hsize : 0 < size)
    (hgroups : HoldsGroups crc16 isReadonly cmd size count routes) {group : Nat}
    (hgroup : group < count) : (cmd.argIdx (group * size + 1)).isSome := by
  have hmem : group * size ∈ routes.flatMap Prod.snd :=
    hgroups.indices.mem_iff.mpr (List.mem_range.mpr (Nat.mul_lt_mul_of_pos_right hgroup hsize))
  obtain ⟨entry, hentry, hindex⟩ := List.mem_flatMap.mp hmem
  obtain ⟨-, key, hkey, -⟩ := (hgroups.held entry.1 _).mp ⟨entry.2, hentry, hindex⟩
  rw [Nat.mul_div_cancel _ hsize] at hkey
  simp [hkey]

theorem slots_nodup (hgroups : HoldsGroups crc16 isReadonly cmd size count routes) :
    (routes.map fun entry => entry.1.slot).Nodup := by
  -- every route of one command asks for the same kind of node
  have hroute : ∀ entry ∈ routes, entry.1 =
      ⟨entry.1.slot, if isReadonly then .replicaOptional else .master⟩ := by
    intro entry hentry
    obtain ⟨index, hindex⟩ := List.exists_mem_of_ne_nil entry.2 (hgroups.filled entry hentry)
    obtain ⟨-, key, -, hkey⟩ := (hgroups.held entry.1 index).mp ⟨entry.2, hentry, hindex⟩
    rw [← hkey]
    cases isReadonly <;> rfl
  have hnodup := hgroups.routes_nodup
  have hentries : routes.Nodup := List.Nodup.of_map _ hnodup
  rw [List.nodup_map_iff_inj_on hentries] at hnodup ⊢
  intro first hfirst second hsecond hslot
  refine hnodup first hfirst second hsecond ?_
  rw [hroute first hfirst, hroute second hsecond, hslot]

theorem length_le_one (hgroups : HoldsGroups crc16 isReadonly cmd size count routes)
    (hcount : count ≤ 1) : routes.length ≤ 1 := by
  have hsame : ∀ first ∈ routes, ∀ second ∈ routes, first = second := by
    intro first hfirst second hsecond
    refine List.inj_on_of_nodup_map hgroups.routes_nodup hfirst hsecond ?_
    obtain ⟨index, hindex⟩ := List.exists_mem_of_ne_nil first.2 (hgroups.filled first hfirst)
    obtain ⟨other, hother⟩ := List.exists_mem_of_ne_nil second.2 (hgroups.filled second hsecond)
    obtain ⟨hgroup, key, hkey, hroute⟩ :=
      (hgroups.held first.1 index).mp ⟨first.2, hfirst, hindex⟩
    obtain ⟨hgroup', key', hkey', hroute'⟩ :=
      (hgroups.held second.1 other).mp ⟨second.2, hsecond, hother⟩
    have hfirstGroup : index / size = 0 := Nat.lt_one_iff.mp (hgroup.trans_le hcount)
    have hsecondGroup : other / size = 0 := Nat.lt_one_iff.mp (hgroup'.trans_le hcount)
    rw [hsecondGroup, ← hfirstGroup, hkey] at hkey'
    rw [← hroute, ← hroute', Option.some.inj hkey']
  match routes, hsame, List.Nodup.of_map _ hgroups.routes_nodup with
  | [], _, _ => exact Nat.zero_le 1
  | [_], _, _ => exact le_rfl
  | first :: second :: rest, hsame, hnodup =>
    have := hsame first (by simp) second (by simp)
    simp [this] at hnodup

end HoldsGroups

/-! ## The loop -/

section Loop

variable {pattern : MultiSlotArgPattern} {fuel curr : Nat} {routes' : RouteIndices}

private theorem argIdx_of_length_le {index : Nat} (hlength : cmd.args.length ≤ index) :
    cmd.argIdx index = none := by
  simp [Cmd.argIdx, List.getElem?_eq_none hlength]

theorem multiShardLoop_of_none (harg : cmd.argIdx (1 + curr) = none)
    (hloop : multiShardLoop crc16 cmd 1 isReadonly pattern fuel curr routes = some routes') :
    routes' = routes := by
  cases fuel with
  | zero => exact (Option.some.inj hloop).symm
  | succ fuel =>
    simp only [multiShardLoop, harg] at hloop
    exact (Option.some.inj hloop).symm

theorem multiShardLoop_round (hpattern : pattern ≠ .keysAndLastArg) {arg : Bytes}
    (harg : cmd.argIdx (1 + curr) = some arg)
    (hloop : multiShardLoop crc16 cmd 1 isReadonly pattern (fuel + 1) curr routes =
      some routes') :
    multiShardLoop crc16 cmd 1 isReadonly pattern fuel (curr + pattern.groupSize)
      (pushIndices routes (getRoute crc16 isReadonly arg)
        (List.range' curr pattern.groupSize)) = some routes' := by
  -- the position that is checked for the first value is that of the key
  have hnext : incrAddNextArg cmd curr = some (curr + 1) := by
    rw [incrAddNextArg, Nat.add_comm curr 1, harg]
  cases pattern with
  | keysOnly =>
    simp only [multiShardLoop, harg] at hloop
    exact hloop
  | keyValuePairs =>
    simp only [multiShardLoop, harg, hnext, Option.bind_eq_bind, Option.bind_some] at hloop
    exact hloop
  | keysAndLastArg => contradiction
  | keyWithTwoArgTriples =>
    simp only [multiShardLoop, harg, hnext, Option.bind_eq_bind, Option.bind_some] at hloop
    obtain ⟨second, hsecond, hrest⟩ := Option.bind_eq_some_iff.mp hloop
    obtain rfl : second = curr + 2 := by
      unfold incrAddNextArg at hsecond
      split at hsecond
      · exact (Option.some.inj hsecond).symm
      · contradiction
    exact hrest

theorem multiShardLoop_invariant (Inv : Nat → RouteIndices → Prop)
    (hpush : ∀ count routes key, Inv count routes →
      cmd.argIdx (count * pattern.groupSize + 1) = some key →
      Inv (count + 1) (pushIndices routes (getRoute crc16 isReadonly key)
        (List.range' (count * pattern.groupSize) pattern.groupSize)))
    (hpattern : pattern ≠ .keysAndLastArg) (hinit : Inv count routes)
    (hfuel : cmd.args.length < fuel + count * pattern.groupSize)
    (hloop : multiShardLoop crc16 cmd 1 isReadonly pattern fuel (count * pattern.groupSize)
      routes = some routes') :
    ∃ total, Inv total routes' ∧ cmd.argIdx (total * pattern.groupSize + 1) = none := by
  induction fuel generalizing count routes with
  | zero =>
    cases hloop
    exact ⟨count, hinit, argIdx_of_length_le (by omega)⟩
  | succ fuel ih =>
    cases harg : cmd.argIdx (1 + count * pattern.groupSize) with
    | none =>
      rw [multiShardLoop_of_none harg hloop]
      exact ⟨count, hinit, by rw [Nat.add_comm, harg]⟩
    | some key =>
      have hrest := multiShardLoop_round hpattern harg hloop
      rw [Nat.add_comm] at harg
      have hpos := pattern.groupSize_pos
      rw [← Nat.succ_mul] at hrest
      refine ih (hpush count routes key hinit harg) ?_ hrest
      rw [Nat.succ_mul]
      omega

theorem multiShardLoop_groups (hpattern : pattern ≠ .keysAndLastArg)
    (hloop : multiShardLoop crc16 cmd 1 isReadonly pattern (cmd.args.length + 1) 0 [] =
      some routes) :
    ∃ total, HoldsGroups crc16 isReadonly cmd pattern.groupSize total routes ∧
      cmd.argIdx (total * pattern.groupSize + 1) = none := by
  rw [← Nat.zero_mul pattern.groupSize] at hloop
  exact multiShardLoop_invariant _ (fun _ _ _ hgroups => hgroups.push pattern.groupSize_pos)
    hpattern .nil (by omega) hloop

theorem multiShardLoop_sharedPath (hgroups : HoldsGroups crc16 isReadonly cmd 1 count routes)
    (hfuel : cmd.args.length < fuel + count) (hnext : 1 < count → (cmd.argIdx (count + 1)).isSome)
    (hahead : 0 < count → (cmd.argIdx (count + 2)).isSome)
    (hloop : multiShardLoop crc16 cmd 1 isReadonly .keysAndLastArg fuel count routes =
      some routes') :
    (∃ total ≤ 1, HoldsGroups crc16 isReadonly cmd 1 total routes' ∧
      cmd.argIdx (total + 1) = none) ∨
    ∃ total base, 0 < total ∧ HoldsGroups crc16 isReadonly cmd 1 total base ∧
      routes' = base.map (fun entry => (entry.1, entry.2 ++ [total])) ∧
      cmd.argIdx (total + 2) = none ∧ (1 < total → (cmd.argIdx (total + 1)).isSome) := by
  have hend : ∀ reached, (1 < reached → (cmd.argIdx (reached + 1)).isSome) →
      cmd.argIdx (1 + reached) = none → reached ≤ 1 := by
    intro reached hreached hnone
    by_contra hmany
    have hsome := hreached (by omega)
    rw [Nat.add_comm, hnone] at hsome
    contradiction
  induction fuel generalizing count routes with
  | zero =>
    cases hloop
    have hnone : cmd.argIdx (count + 1) = none := argIdx_of_length_le (by omega)
    exact .inl ⟨count, hend count hnext (by rw [Nat.add_comm, hnone]), hgroups, hnone⟩
  | succ fuel ih =>
    cases harg : cmd.argIdx (1 + count) with
    | none =>
      obtain rfl := multiShardLoop_of_none harg hloop
      exact .inl ⟨count, hend count hnext harg, hgroups, by rw [Nat.add_comm, harg]⟩
    | some arg =>
      simp only [multiShardLoop, harg] at hloop
      rw [show 1 + count = count * 1 + 1 by omega] at harg
      have hpushed := hgroups.push Nat.one_pos harg
      rw [Nat.mul_one] at hpushed
      rw [show 1 + count + 2 = count + 1 + 2 by omega] at hloop
      cases hpath : cmd.argIdx (count + 1 + 2) with
      | none =>
        rw [hpath] at hloop
        exact .inr ⟨count + 1, _, count.succ_pos, hpushed, (Option.some.inj hloop).symm, hpath,
          fun hmany => hahead (by omega)⟩
      | some path =>
        rw [hpath] at hloop
        exact ih hpushed (by omega) (fun hmany => hahead (by omega))
          (fun _ => by simp [hpath]) hloop

end Loop

end Groups

/-! ## Well-formed plans -/

section Plan

variable {crc16 : Bytes → Nat} {isReadonly : Bool} {pattern : MultiSlotArgPattern} {cmd : Cmd}
  {routes : RouteIndices} {size total : Nat}

theorem argIdx_isSome_iff (hdata : ∀ arg ∈ cmd.args.tail, arg ≠ .cursor) (index : Nat) :
    (cmd.argIdx (index + 1)).isSome ↔ index + 1 < cmd.args.length := by
  rw [Cmd.argIdx]
  constructor
  · intro hsome
    by_contra hlength
    simp [List.getElem?_eq_none (not_lt.mp hlength)] at hsome
  · intro hlt
    have hmem : cmd.args[index + 1] ∈ cmd.args.tail := by
      have htail : index < cmd.args.tail.length := by simp; omega
      rw [← List.getElem_tail htail]
      exact List.getElem_mem htail
    rw [List.getElem?_eq_getElem hlt]
    cases harg : cmd.args[index + 1] with
    | simple data => rfl
    | cursor => exact absurd harg (hdata _ hmem)

theorem length_le_of_argIdx_none (hdata : ∀ arg ∈ cmd.args.tail, arg ≠ .cursor) {index : Nat}
    (hnone : cmd.argIdx (index + 1) = none) : cmd.args.length ≤ index + 1 := by
  rw [← not_lt, ← argIdx_isSome_iff hdata, hnone]
  simp

theorem PlanWellFormed.data (hplan : PlanWellFormed crc16 pattern cmd routes)
    (hroutes : routes ≠ []) : ∀ arg ∈ cmd.args.tail, arg ≠ .cursor := by
  rintro arg hmem rfl
  obtain ⟨index, hlt, harg⟩ := List.mem_iff_getElem.mp hmem
  rw [List.getElem_tail] at harg
  have hlength : index + 1 < cmd.args.length := by
    rw [List.length_tail] at hlt
    omega
  -- the argument is in the list of some route
  obtain ⟨entry, hentry, hindex⟩ : ∃ entry ∈ routes, index ∈ entry.2 := by
    by_cases hshared : IsSharedPath pattern cmd index
    · obtain ⟨entry, hentry⟩ := List.exists_mem_of_ne_nil routes hroutes
      have hcount := hplan.shared index hshared entry hentry
      exact ⟨entry, hentry, List.count_pos_iff.mp (by omega)⟩
    · have hcount := hplan.once index hlength hshared
      exact List.mem_flatMap.mp (List.count_pos_iff.mp (by omega))
  have hsome := hplan.existing entry hentry index hindex
  simp [Cmd.argIdx, List.getElem?_eq_getElem hlength, harg] at hsome

namespace HoldsGroups

section

variable (hgroups : HoldsGroups crc16 isReadonly cmd size total routes) {entry : Route × List Nat}
include hgroups

theorem mem_entry_iff (hentry : entry ∈ routes) (index : Nat) :
    index ∈ entry.2 ↔ index / size < total ∧
      ∃ key, cmd.argIdx (index / size * size + 1) = some key ∧
        getRoute crc16 isReadonly key = entry.1 :=
  (mem_iff_holds hgroups.routes_nodup hentry index).trans (hgroups.held entry.1 index)

theorem mem_flatMap_iff (index : Nat) : index ∈ routes.flatMap Prod.snd ↔ index < total * size :=
  hgroups.indices.mem_iff.trans List.mem_range

theorem lt_of_mem (hentry : entry ∈ routes) {index : Nat} (hindex : index ∈ entry.2) :
    index < total * size :=
  (hgroups.mem_flatMap_iff index).mp (List.mem_flatMap.mpr ⟨entry, hentry, hindex⟩)

theorem count_eq_one {index : Nat}
    (hindex : index < total * size) : (routes.flatMap Prod.snd).count index = 1 := by
  rw [hgroups.indices.count_eq]
  exact List.count_eq_one_of_mem List.nodup_range (List.mem_range.mpr hindex)

theorem slot_of_key (hentry : entry ∈ routes) {index : Nat} (hindex : index ∈ entry.2)
    (hkey : index % size = 0) :
    ∃ key, cmd.argIdx (index + 1) = some key ∧ getSlot crc16 key = entry.1.slot := by
  obtain ⟨-, key, hfound, hroute⟩ := (hgroups.mem_entry_iff hentry index).mp hindex
  rw [Nat.div_mul_cancel (Nat.dvd_of_mod_eq_zero hkey)] at hfound
  exact ⟨key, hfound, by rw [← hroute, getRoute_slot]⟩

end

theorem length_eq (hsize : 0 < size) (hgroups : HoldsGroups crc16 isReadonly cmd size total routes)
    (hend : cmd.argIdx (total * size + 1) = none)
    (hdata : ∀ arg ∈ cmd.args.tail, arg ≠ .cursor) (hwhole : (cmd.args.length - 1) % size = 0) :
    cmd.args.length - 1 = total * size := by
  obtain ⟨groups, hcount⟩ := Nat.dvd_of_mod_eq_zero hwhole
  rw [Nat.mul_comm] at hcount
  have hupper := length_le_of_argIdx_none hdata hend
  have hge : groups ≤ total := Nat.le_of_mul_le_mul_right (by omega) hsize
  have hle : total ≤ groups := by
    by_contra hlt
    -- the key of group number `groups` would come after the last argument
    have hkey := (argIdx_isSome_iff hdata _).mp (hgroups.argIdx_isSome hsize (not_le.mp hlt))
    omega
  rw [hcount, le_antisymm hle hge]

theorem wellFormed_iff (hpattern : pattern ≠ .keysAndLastArg)
    (hgroups : HoldsGroups crc16 isReadonly cmd pattern.groupSize total routes)
    (hroutes : routes ≠ []) (hend : cmd.argIdx (total * pattern.groupSize + 1) = none) :
    PlanWellFormed crc16 pattern cmd routes ↔ FillsPattern pattern cmd := by
  constructor
  · intro hplan
    have hdata := hplan.data hroutes
    refine ⟨hdata, ?_⟩
    have hupper := length_le_of_argIdx_none hdata hend
    suffices hlength : cmd.args.length - 1 = total * pattern.groupSize by
      rw [hlength, Nat.mul_mod_left]
    by_cases hzero : total * pattern.groupSize = 0
    · omega
    · -- the last index that the plan holds names an argument
      obtain ⟨entry, hentry, hindex⟩ := List.mem_flatMap.mp
        ((hgroups.mem_flatMap_iff (total * pattern.groupSize - 1)).mpr (by omega))
      have hlast := (argIdx_isSome_iff hdata _).mp (hplan.existing entry hentry _ hindex)
      omega
  · rintro ⟨hdata, hwhole⟩
    have hlength := hgroups.length_eq pattern.groupSize_pos hend hdata hwhole
    refine ⟨?_, ?_, fun index hpath => absurd hpath.1 hpattern, ?_, ?_, hgroups.slots_nodup⟩
    · intro entry hentry index hindex
      have hlt := hgroups.lt_of_mem hentry hindex
      exact (argIdx_isSome_iff hdata index).mpr (by omega)
    · intro index hlt _
      exact hgroups.count_eq_one (by omega)
    · intro entry hentry index hindex _ other hother
      rw [hgroups.mem_entry_iff hentry] at hindex ⊢
      rw [hother]
      exact hindex
    · intro entry hentry index hindex _ hkey
      exact hgroups.slot_of_key hentry hindex hkey

theorem count_append_shared {index : Nat} (hne : index ≠ total) :
    ((routes.map fun entry => (entry.1, entry.2 ++ [total])).flatMap Prod.snd).count index =
      (routes.flatMap Prod.snd).count index := by
  rw [List.flatMap_map, List.count_flatMap, List.count_flatMap]
  congr 2
  funext entry
  simp [hne.symm]

theorem sharedPath_wellFormed_iff
    (hgroups : HoldsGroups crc16 isReadonly cmd 1 total routes) (hroutes : routes ≠ [])
    (hend : cmd.argIdx (total + 2) = none) (hpath : (cmd.argIdx (total + 1)).isSome) :
    PlanWellFormed crc16 .keysAndLastArg cmd
        (routes.map fun entry => (entry.1, entry.2 ++ [total])) ↔
      FillsPattern .keysAndLastArg cmd := by
  constructor
  · intro hplan
    exact ⟨hplan.data (by simpa using hroutes), Nat.mod_one _⟩
  · rintro ⟨hdata, -⟩
    have hlength : cmd.args.length = total + 2 := by
      have hlower := (argIdx_isSome_iff hdata total).mp hpath
      have hupper := length_le_of_argIdx_none hdata hend
      omega
    have hshared : ∀ index, IsSharedPath .keysAndLastArg cmd index ↔ index = total := by
      intro index
      simp only [IsSharedPath, hlength, true_and]
      omega
    have hbelow : ∀ entry ∈ routes, ∀ index ∈ entry.2, index < total := by
      intro entry hentry index hindex
      have hlt := hgroups.lt_of_mem hentry hindex
      omega
    constructor
    case existing =>
      rw [List.forall_mem_map]
      intro entry hentry index hindex
      have hle : index ≤ total := by
        rcases List.mem_append.mp hindex with hindex | hindex
        · exact (hbelow entry hentry index hindex).le
        · exact (List.mem_singleton.mp hindex).le
      exact (argIdx_isSome_iff hdata index).mpr (by omega)
    case once =>
      intro index hlt hnot
      have hne : index ≠ total := fun heq => hnot ((hshared index).mpr heq)
      rw [count_append_shared hne]
      exact hgroups.count_eq_one (by omega)
    case shared =>
      intro index hpath
      obtain rfl := (hshared index).mp hpath
      rw [List.forall_mem_map]
      intro entry hentry
      have habsent : index ∉ entry.2 := fun hmem => lt_irrefl _ (hbelow entry hentry index hmem)
      simp [List.count_eq_zero_of_not_mem habsent]
    case whole =>
      rw [List.forall_mem_map]
      intro entry hentry index hindex _ other hother
      obtain rfl : other = index := by simpa [MultiSlotArgPattern.groupSize] using hother
      exact hindex
    case keys =>
      rw [List.forall_mem_map]
      intro entry hentry index hindex hnot _
      rcases List.mem_append.mp hindex with hindex | hindex
      · exact hgroups.slot_of_key hentry hindex (Nat.mod_one index)
      · exact absurd ((hshared index).mpr (List.mem_singleton.mp hindex)) hnot
    case slots => simpa [Function.comp_def] using hgroups.slots_nodup

end HoldsGroups

end Plan

theorem multiShard_eq_multiSlot {crc16 : Bytes → Nat} {order : IterationOrder} {routable : Cmd}
    {name : Bytes} {pattern pattern' : MultiSlotArgPattern} {policy : Option ResponsePolicy}
    (hsplit : multiShard crc16 order routable name 1 pattern =
      some (.multiNode (.multiSlot routes pattern') policy)) :
    ∃ found, multiShardLoop crc16 routable 1 (isReadonlyCmd name) pattern
        (routable.args.length + 1) 0 [] = some found ∧
      order.visit found = routes ∧ 2 ≤ routes.length := by
  obtain ⟨found, hloop, hvisited⟩ := Option.bind_eq_some_iff.mp hsplit
  refine ⟨found, hloop, ?_⟩
  rcases hvisit : order.visit found with _ | ⟨⟨route, indices⟩, _ | ⟨second, rest⟩⟩
  · simp [hvisit] at hvisited
  · simp [hvisit] at hvisited
  · simp only [hvisit, Option.some.injEq, RoutingInfo.multiNode.injEq,
      MultipleNodeRoutingInfo.multiSlot.injEq] at hvisited
    exact ⟨hvisited.1.1, by simp [← hvisited.1.1]⟩

/--
The plan of a command that is split is well formed exactly when the arguments of
the command are data and make up whole groups.
-/
theorem plan_wellFormed_iff {crc16 : Bytes → Nat} {order : IterationOrder} {routable : Cmd}
    {name : Bytes} {pattern pattern' : MultiSlotArgPattern} {routes : RouteIndices}
    {policy : Option ResponsePolicy}
    (hsplit : multiShard crc16 order routable name 1 pattern =
      some (.multiNode (.multiSlot routes pattern') policy)) :
    PlanWellFormed crc16 pattern routable routes ↔ FillsPattern pattern routable := by
  obtain ⟨found, hloop, hvisit, hmany⟩ := multiShard_eq_multiSlot hsplit
  have hperm : routes.Perm found := hvisit ▸ order.perm found
  have hroutes : routes ≠ [] := by
    rintro rfl
    simp at hmany
  by_cases hpattern : pattern = .keysAndLastArg
  · subst hpattern
    rcases multiShardLoop_sharedPath .nil (by omega) (by simp) (by simp) hloop with
      ⟨total, htotal, hgroups, -⟩ | ⟨total, base, -, hgroups, rfl, hend, hpath⟩
    · have hsingle := hgroups.length_le_one htotal
      rw [← hperm.length_eq] at hsingle
      omega
    · obtain ⟨visited, hvisitedPerm, hvisited⟩ := visit_map_append order base total
      rw [hvisit] at hvisited
      subst hvisited
      have hmultiple : 1 < total := by
        by_contra hfew
        have hsingle := (hgroups.perm hvisitedPerm).length_le_one (not_lt.mp hfew)
        rw [List.length_map] at hmany
        omega
      exact (hgroups.perm hvisitedPerm).sharedPath_wellFormed_iff (by simpa using hroutes) hend
        (hpath hmultiple)
  · obtain ⟨total, hgroups, hend⟩ := multiShardLoop_groups hpattern hloop
    exact (hgroups.perm hperm).wellFormed_iff hpattern hroutes hend

theorem two_pairs_plan_wellFormed :
    PlanWellFormed List.length .keyValuePairs
      (Cmd.ofBytes [bytes "MSET", bytes "a", bytes "x", bytes "bb", bytes "y"])
      [(⟨1, .master⟩, [0, 1]), (⟨2, .master⟩, [2, 3])] := by
  have hsplit : multiShard List.length ⟨id, fun _ => .refl _⟩
      (Cmd.ofBytes [bytes "MSET", bytes "a", bytes "x", bytes "bb", bytes "y"]) (bytes "MSET") 1
      .keyValuePairs = some (.multiNode (.multiSlot
        [(⟨1, .master⟩, [0, 1]), (⟨2, .master⟩, [2, 3])] .keyValuePairs)
        (some .allSucceeded)) := by decide +kernel
  exact (plan_wellFormed_iff hsplit).mpr ⟨by decide +kernel, by decide⟩

theorem missing_value_plan_malformed :
    forRoutable List.length ⟨id, fun _ => .refl _⟩
        (Cmd.ofBytes [bytes "MSET", bytes "a", bytes "x", bytes "bb"]) =
      some (.multiNode (.multiSlot
        [(⟨1, .master⟩, [0, 1]), (⟨2, .master⟩, [2, 3])] .keyValuePairs) (some .allSucceeded)) ∧
    (Cmd.ofBytes [bytes "MSET", bytes "a", bytes "x", bytes "bb"]).argIdx (3 + 1) = none ∧
    commandForMultiSlotIndices
        (Cmd.ofBytes [bytes "MSET", bytes "a", bytes "x", bytes "bb"]) [0, 1] =
      Cmd.ofBytes [bytes "MSET", bytes "a", bytes "x"] ∧
    commandForMultiSlotIndices
        (Cmd.ofBytes [bytes "MSET", bytes "a", bytes "x", bytes "bb"]) [2, 3] =
      Cmd.ofBytes [bytes "MSET", bytes "bb"] ∧
    ¬ PlanWellFormed List.length .keyValuePairs
      (Cmd.ofBytes [bytes "MSET", bytes "a", bytes "x", bytes "bb"])
      [(⟨1, .master⟩, [0, 1]), (⟨2, .master⟩, [2, 3])] := by
  refine ⟨by decide +kernel, by decide +kernel, by decide +kernel, by decide +kernel, ?_⟩
  intro hplan
  have hexisting := hplan.existing (⟨2, .master⟩, [2, 3]) (by simp) 3 (by simp)
  simp at hexisting

/-! ## Commands that are not split -/

/-- The keys of a command of this shape: the first argument of every group, but not the path
that comes after all keys. -/
def IsPatternKey (pattern : MultiSlotArgPattern) (cmd : Cmd) (key : Bytes) : Prop :=
  ∃ group, cmd.argIdx (group * pattern.groupSize + 1) = some key ∧
    (IsSharedPath pattern cmd group → group = 0)

section Split

variable {crc16 : Bytes → Nat} {isReadonly : Bool} {pattern : MultiSlotArgPattern} {cmd : Cmd}

theorem multiShardLoop_isSome (hwhole : FillsPattern pattern cmd) (crc16 : Bytes → Nat)
    (isReadonly : Bool) (fuel count : Nat) (routes : RouteIndices) :
    (multiShardLoop crc16 cmd 1 isReadonly pattern fuel (count * pattern.groupSize)
      routes).isSome := by
  induction fuel generalizing count routes with
  | zero => rfl
  | succ fuel ih =>
    have hround := ih (count + 1)
    rw [Nat.succ_mul] at hround
    rw [multiShardLoop]
    cases harg : cmd.argIdx (1 + count * pattern.groupSize) with
    | none => rfl
    | some key =>
      have hnext : incrAddNextArg cmd (count * pattern.groupSize) =
          some (count * pattern.groupSize + 1) := by
        rw [incrAddNextArg, Nat.add_comm, harg]
      cases pattern with
      | keysOnly => exact hround _
      | keyValuePairs =>
        simp only [hnext, Option.bind_eq_bind, Option.bind_some]
        exact hround _
      | keysAndLastArg =>
        dsimp only
        split
        · rfl
        · exact hround _
      | keyWithTwoArgTriples =>
        obtain ⟨hdata, hlength⟩ := hwhole
        have hkey := (argIdx_isSome_iff hdata (count * 3)).mp (by
          rw [Nat.add_comm]
          exact Option.isSome_iff_exists.mpr ⟨key, harg⟩)
        obtain ⟨value, hvalue⟩ := Option.isSome_iff_exists.mp
          ((argIdx_isSome_iff hdata (count * 3 + 1)).mpr (by
            simp only [MultiSlotArgPattern.groupSize] at hlength
            omega))
        have hsecond : incrAddNextArg cmd (count * 3 + 1) = some (count * 3 + 2) := by
          rw [incrAddNextArg, hvalue]
        simp only [MultiSlotArgPattern.groupSize] at hnext ⊢
        simp only [hnext, hsecond, Option.bind_eq_bind, Option.bind_some]
        exact hround _

theorem HoldsGroups.mem_routes_iff {size count : Nat} {routes : RouteIndices} (hsize : 0 < size)
    (hgroups : HoldsGroups crc16 isReadonly cmd size count routes) (route : Route) :
    route ∈ routes.map Prod.fst ↔ ∃ group < count, ∃ key,
      cmd.argIdx (group * size + 1) = some key ∧ getRoute crc16 isReadonly key = route := by
  constructor
  · intro hroute
    obtain ⟨entry, hentry, rfl⟩ := List.mem_map.mp hroute
    obtain ⟨index, hindex⟩ := List.exists_mem_of_ne_nil entry.2 (hgroups.filled entry hentry)
    obtain ⟨hlt, hkey⟩ := (hgroups.held entry.1 index).mp ⟨entry.2, hentry, hindex⟩
    exact ⟨index / size, hlt, hkey⟩
  · rintro ⟨group, hlt, hkey⟩
    obtain ⟨indices, hentry, -⟩ := (hgroups.held route (group * size)).mpr (by
      rw [Nat.mul_div_cancel _ hsize]
      exact ⟨hlt, hkey⟩)
    exact List.mem_map.mpr ⟨_, hentry, rfl⟩

/-- It is enough to know which groups were visited. -/
theorem HoldsGroups.mem_routes_iff_isPatternKey {total : Nat} {routes : RouteIndices}
    (hgroups : HoldsGroups crc16 isReadonly cmd pattern.groupSize total routes)
    (hvisited : ∀ group, (cmd.argIdx (group * pattern.groupSize + 1)).isSome →
      (group < total ↔ (IsSharedPath pattern cmd group → group = 0))) (route : Route) :
    route ∈ routes.map Prod.fst ↔
      ∃ key, IsPatternKey pattern cmd key ∧ getRoute crc16 isReadonly key = route := by
  rw [hgroups.mem_routes_iff pattern.groupSize_pos]
  constructor
  · rintro ⟨group, hlt, key, hkey, hroute⟩
    exact ⟨key, ⟨group, hkey, (hvisited group (by simp [hkey])).mp hlt⟩, hroute⟩
  · rintro ⟨key, ⟨group, hkey, hshared⟩, hroute⟩
    exact ⟨group, (hvisited group (by simp [hkey])).mpr hshared, key, hkey, hroute⟩

theorem multiShardLoop_keys (hwhole : FillsPattern pattern cmd) (crc16 : Bytes → Nat)
    (isReadonly : Bool) :
    ∃ found, multiShardLoop crc16 cmd 1 isReadonly pattern (cmd.args.length + 1) 0 [] =
        some found ∧ (found.map Prod.fst).Nodup ∧
      ∀ route, route ∈ found.map Prod.fst ↔
        ∃ key, IsPatternKey pattern cmd key ∧ getRoute crc16 isReadonly key = route := by
  obtain ⟨found, hloop⟩ := Option.isSome_iff_exists.mp
    (multiShardLoop_isSome hwhole crc16 isReadonly (cmd.args.length + 1) 0 [])
  have hstart := hloop
  rw [Nat.zero_mul] at hstart
  refine ⟨found, hstart, ?_⟩
  obtain ⟨hdata, hlength⟩ := hwhole
  by_cases hpattern : pattern = .keysAndLastArg
  · subst hpattern
    rcases multiShardLoop_sharedPath .nil (by omega) (by simp) (by simp) hstart with
      ⟨total, htotal, hgroups, hend⟩ | ⟨total, base, hpos, hgroups, rfl, hend, hpath⟩
    · have hupper := length_le_of_argIdx_none hdata hend
      refine ⟨hgroups.routes_nodup, hgroups.mem_routes_iff_isPatternKey fun group hgroup => ?_⟩
      have hlt := (argIdx_isSome_iff hdata _).mp hgroup
      simp only [MultiSlotArgPattern.groupSize] at hlt
      exact ⟨fun _ _ => by omega, fun _ => by omega⟩
    · have hupper := length_le_of_argIdx_none hdata hend
      simp only [List.map_map, Function.comp_def]
      refine ⟨hgroups.routes_nodup, hgroups.mem_routes_iff_isPatternKey fun group hgroup => ?_⟩
      have hlt := (argIdx_isSome_iff hdata _).mp hgroup
      simp only [MultiSlotArgPattern.groupSize] at hlt
      simp only [IsSharedPath, true_and]
      constructor
      · intro hvisited hlast
        by_contra hfirst
        have hlong := (argIdx_isSome_iff hdata _).mp (hpath (by omega))
        omega
      · intro hshared
        by_contra hpast
        have hfirst := hshared (by omega)
        omega
  · obtain ⟨total, hgroups, hend⟩ := multiShardLoop_groups hpattern hstart
    refine ⟨hgroups.routes_nodup, hgroups.mem_routes_iff_isPatternKey fun group hgroup => ?_⟩
    have hall := hgroups.length_eq pattern.groupSize_pos hend hdata hlength
    have hlt := (argIdx_isSome_iff hdata _).mp hgroup
    refine ⟨fun _ hshared => absurd hshared.1 hpattern, fun _ => ?_⟩
    exact Nat.lt_of_mul_lt_mul_right (a := pattern.groupSize) (by omega)

/-- A command goes to one node as a whole when all its keys have one route. -/
theorem multiShard_single_iff {order : IterationOrder} {name : Bytes} {route : Route}
    (hwhole : FillsPattern pattern cmd) :
    multiShard crc16 order cmd name 1 pattern = some (.singleNode (.specificNode route)) ↔
      (∃ key, IsPatternKey pattern cmd key) ∧
        ∀ key, IsPatternKey pattern cmd key → getRoute crc16 (isReadonlyCmd name) key = route := by
  obtain ⟨found, hloop, hnodup, hroutes⟩ :=
    multiShardLoop_keys hwhole crc16 (isReadonlyCmd name)
  have hperm := (order.perm found).map Prod.fst
  have hsingle : multiShard crc16 order cmd name 1 pattern =
      some (.singleNode (.specificNode route)) ↔ (order.visit found).map Prod.fst = [route] := by
    rw [multiShard, hloop, Option.bind_eq_bind, Option.bind_some]
    rcases hvisit : order.visit found with _ | ⟨⟨known, indices⟩, _ | ⟨second, rest⟩⟩ <;> simp
  rw [hsingle, ← List.perm_singleton,
    List.perm_ext_iff_of_nodup (hperm.nodup_iff.mpr hnodup) (List.nodup_singleton route)]
  simp only [hperm.mem_iff, hroutes, List.mem_singleton]
  constructor
  · intro hall
    obtain ⟨key, hkey, -⟩ := (hall route).mpr rfl
    exact ⟨⟨key, hkey⟩, fun other hother => (hall _).mp ⟨other, hother, rfl⟩⟩
  · rintro ⟨⟨key, hkey⟩, hall⟩ other
    constructor
    · rintro ⟨known, hknown, rfl⟩
      exact hall known hknown
    · rintro rfl
      exact ⟨key, hkey, hall key hkey⟩

end Split

end ValkeyGlide.Cluster
