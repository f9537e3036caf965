import Mathlib.Data.List.Dedup
import Mathlib.Data.List.Nodup
import Mathlib.Data.List.Perm.Basic
import ValkeyGlide.Cluster.TopologyParse

/-!
# The outcome of the topology vote

The counted views are the distinct views that were returned, each with the number of
nodes that returned it, so that the outcome depends on these numbers only.  Ties go to
the view for which more slots were counted; these are the slots that it covers when
its ranges are disjoint ranges of slots, but not otherwise.
-/

namespace ValkeyGlide.Cluster

open Foundation Protocol

/-! ## Counting -/

section Count

variable {overflow : Overflow} {view : TopologyView} {counted : List TopologyView}

private def countUp (view : View) (entry : TopologyView) : TopologyView :=
  if entry.slotsAndCount = view then { entry with nodesCount := entry.nodesCount + 1 } else entry

private theorem countUp_slotsAndCount (view : View) (entry : TopologyView) :
    (countUp view entry).slotsAndCount = entry.slotsAndCount := by
  unfold countUp
  split_ifs <;> rfl

private theorem countUp_hashValue (view : View) (entry : TopologyView) :
    (countUp view entry).hashValue = entry.hashValue := by
  unfold countUp
  split_ifs <;> rfl

private theorem map_countUp_of_notMem {view : View}
    (hnot : view ∉ counted.map TopologyView.slotsAndCount) : counted.map (countUp view) = counted := by
  refine (List.map_congr_left fun entry hentry => ?_).trans (List.map_id counted)
  have hne : entry.slotsAndCount ≠ view := fun hsame =>
    hnot (List.mem_map.mpr ⟨entry, hentry, hsame⟩)
  simp [countUp, hne]

theorem countView_of_notMem
    (hhash : ∀ entry ∈ counted, entry.hashValue = view.hashValue →
      entry.slotsAndCount = view.slotsAndCount)
    (hnot : view.slotsAndCount ∉ counted.map TopologyView.slotsAndCount) :
    countView overflow view counted = some (counted ++ [{ view with nodesCount := 1 }]) := by
  induction counted with
  | nil => rfl
  | cons entry rest ih =>
    simp only [List.map_cons, List.mem_cons, not_or] at hnot
    have hne : entry.hashValue ≠ view.hashValue := fun hsame =>
      hnot.1 (hhash entry (List.mem_cons_self ..) hsame).symm
    rw [countView, if_neg hne, ih (fun other hother => hhash other (List.mem_cons_of_mem _ hother))
      hnot.2]
    rfl

theorem countView_of_mem {entry : TopologyView}
    (hhash : ∀ other ∈ counted, other.hashValue = view.hashValue ↔
      other.slotsAndCount = view.slotsAndCount)
    (hnodup : (counted.map TopologyView.slotsAndCount).Nodup) (hmem : entry ∈ counted)
    (hsame : entry.slotsAndCount = view.slotsAndCount) (hlt : entry.nodesCount + 1 < 2 ^ 16) :
    countView overflow view counted = some (counted.map (countUp view.slotsAndCount)) := by
  induction counted with
  | nil => exact absurd hmem List.not_mem_nil
  | cons first rest ih =>
    obtain ⟨hfirst, hrest⟩ := List.nodup_cons.mp hnodup
    rcases List.mem_cons.mp hmem with rfl | hmem
    · have hkept := map_countUp_of_notMem (hsame ▸ hfirst)
      have hcount : u16.result overflow (entry.nodesCount + 1) = some ↑(entry.nodesCount + 1) :=
        MachineInt.result_of_contains ⟨by simp only [u16]; omega, by simp only [u16]; omega⟩
      rw [countView, if_pos ((hhash entry (List.mem_cons_self ..)).mpr hsame), List.map_cons, hkept,
        countUp, if_pos hsame, hcount]
      rfl
    · have hne : first.hashValue ≠ view.hashValue := by
        intro hequal
        have hview := (hhash first (List.mem_cons_self ..)).mp hequal
        exact hfirst (List.mem_map.mpr ⟨entry, hmem, hsame.trans hview.symm⟩)
      have hkept : countUp view.slotsAndCount first = first := by
        rw [countUp, if_neg fun hview => hne ((hhash first (List.mem_cons_self ..)).mpr hview)]
      rw [countView, if_neg hne,
        ih (fun other hother => hhash other (List.mem_cons_of_mem _ hother)) hrest hmem,
        List.map_cons, hkept]
      rfl

end Count

section Tally

variable (env : VoteEnv)

/-- The views counted so far, with how often each was returned. -/
structure Tallied (views : List View) (counted : List TopologyView) : Prop where
  hashes : ∀ entry ∈ counted, entry.hashValue = env.hash entry.slotsAndCount
  nodup : (counted.map TopologyView.slotsAndCount).Nodup
  mem_iff : ∀ view, view ∈ counted.map TopologyView.slotsAndCount ↔ view ∈ views
  votes : ∀ entry ∈ counted, entry.nodesCount = views.count entry.slotsAndCount

/-- The hash tells the views that were returned apart. -/
def Separates (views : List View) : Prop :=
  ∀ view ∈ views, ∀ other ∈ views, env.hash view = env.hash other → view = other

variable {env} {views : List View} {counted : List TopologyView} {view : View}

namespace Tallied

theorem nil : Tallied env [] [] := ⟨by simp, by simp, by simp, by simp⟩

theorem counted_again (htallied : Tallied env views counted) (hmem : view ∈ views) :
    Tallied env (views ++ [view]) (counted.map (countUp view)) := by
  have hsame : (counted.map (countUp view)).map TopologyView.slotsAndCount =
      counted.map TopologyView.slotsAndCount := by
    rw [List.map_map]
    exact List.map_congr_left fun entry _ => countUp_slotsAndCount view entry
  constructor
  · intro entry hentry
    obtain ⟨before, hbefore, rfl⟩ := List.mem_map.mp hentry
    rw [countUp_hashValue, countUp_slotsAndCount, htallied.hashes before hbefore]
  · rw [hsame]
    exact htallied.nodup
  · intro other
    rw [hsame, htallied.mem_iff]
    constructor
    · exact List.mem_append_left _
    · intro hother
      rcases List.mem_append.mp hother with hother | hother
      · exact hother
      · rwa [List.mem_singleton.mp hother]
  · intro entry hentry
    obtain ⟨before, hbefore, rfl⟩ := List.mem_map.mp hentry
    rw [countUp_slotsAndCount, List.count_append, ← htallied.votes before hbefore]
    by_cases hview : before.slotsAndCount = view
    · simp [countUp, hview]
    · have hzero : [view].count before.slotsAndCount = 0 :=
        List.count_eq_zero.mpr fun hcount => hview (List.mem_singleton.mp hcount)
      simp [countUp, hview, hzero]

theorem counted_first (htallied : Tallied env views counted) (hnot : view ∉ views)
    (ips : SlotMap.IpMappings) :
    Tallied env (views ++ [view]) (counted ++ [⟨env.hash view, 1, view, ips⟩]) := by
  constructor
  · intro entry hentry
    rcases List.mem_append.mp hentry with hbefore | hlast
    · exact htallied.hashes entry hbefore
    · rw [List.mem_singleton.mp hlast]
  · rw [List.map_append, List.map_singleton, ← List.concat_eq_append]
    refine htallied.nodup.concat ?_
    rwa [htallied.mem_iff]
  · intro other
    rw [List.map_append, List.mem_append, List.mem_append, htallied.mem_iff]
    rfl
  · intro entry hentry
    rw [List.count_append]
    rcases List.mem_append.mp hentry with hbefore | hlast
    · have hne : entry.slotsAndCount ≠ view := by
        rintro rfl
        exact hnot ((htallied.mem_iff _).mp (List.mem_map_of_mem hbefore))
      have hzero : [view].count entry.slotsAndCount = 0 :=
        List.count_eq_zero.mpr fun hcount => hne (List.mem_singleton.mp hcount)
      rw [hzero, Nat.add_zero, htallied.votes entry hbefore]
    · rw [List.mem_singleton.mp hlast]
      simp [List.count_eq_zero.mpr hnot]

theorem countView (htallied : Tallied env views counted)
    (hseparates : Separates env (views ++ [view])) (hlt : views.count view + 1 < 2 ^ 16)
    (ips : SlotMap.IpMappings) :
    ∃ next, Cluster.countView env.overflow ⟨env.hash view, 0, view, ips⟩ counted = some next ∧
      Tallied env (views ++ [view]) next := by
  have hhash : ∀ entry ∈ counted,
      entry.hashValue = env.hash view ↔ entry.slotsAndCount = view := by
    intro entry hentry
    have hviews := (htallied.mem_iff _).mp (List.mem_map_of_mem hentry)
    rw [htallied.hashes entry hentry]
    constructor
    · exact hseparates _ (List.mem_append_left _ hviews) _ (by simp)
    · exact congrArg env.hash
  by_cases hmem : view ∈ views
  · obtain ⟨entry, hentry, rfl⟩ := List.mem_map.mp ((htallied.mem_iff view).mpr hmem)
    rw [← htallied.votes entry hentry] at hlt
    exact ⟨_, countView_of_mem hhash htallied.nodup hentry rfl hlt, htallied.counted_again hmem⟩
  · exact ⟨_, countView_of_notMem (fun entry hentry => (hhash entry hentry).mp)
      (by rwa [htallied.mem_iff]), htallied.counted_first hmem ips⟩

end Tallied

end Tally

/-! ## The views returned by the nodes -/

section Returned

variable (env : VoteEnv)

def returnedView (reply : String × Value) : Option View :=
  match (parseAndCountSlots env.overflow env.toParseEnv reply.1 reply.2).run with
  | some (.ok parsed) => some (parsed.slotsCount, parsed.slots)
  | _ => none

def returnedViews (replies : List (String × Value)) : List View :=
  replies.filterMap (returnedView env)

/-- No reply makes the parser panic. -/
def Fits (replies : List (String × Value)) : Prop :=
  ∀ reply ∈ replies,
    (parseAndCountSlots env.overflow env.toParseEnv reply.1 reply.2).run ≠ none

variable {env} {views : List View} {counted : List TopologyView}
  {replies replies' : List (String × Value)}

theorem countViews_tallied (htallied : Tallied env views counted)
    (hseparates : Separates env (views ++ returnedViews env replies))
    (hvotes : ∀ view, (views ++ returnedViews env replies).count view < 2 ^ 16)
    (hfits : Fits env replies) :
    ∃ next, countViews env replies counted = some next ∧
      Tallied env (views ++ returnedViews env replies) next := by
  induction replies generalizing views counted with
  | nil => exact ⟨counted, rfl, by simpa [returnedViews] using htallied⟩
  | cons reply rest ih =>
    obtain ⟨hparses, hfits⟩ := List.forall_mem_cons.mp hfits
    cases hrun : (parseAndCountSlots env.overflow env.toParseEnv reply.1 reply.2).run with
    | none => exact absurd hrun hparses
    | some outcome =>
      cases outcome with
      | error error =>
        have hviews : returnedViews env (reply :: rest) = returnedViews env rest := by
          simp [returnedViews, returnedView, hrun]
        rw [hviews] at hseparates hvotes ⊢
        simp only [countViews, hrun]
        exact ih htallied hseparates hvotes hfits
      | ok parsed =>
        have hviews : views ++ returnedViews env (reply :: rest) =
            views ++ [(parsed.slotsCount, parsed.slots)] ++ returnedViews env rest := by
          simp [returnedViews, returnedView, hrun]
        rw [hviews] at hseparates hvotes ⊢
        have hlt : views.count (parsed.slotsCount, parsed.slots) + 1 < 2 ^ 16 := by
          have hcount := hvotes (parsed.slotsCount, parsed.slots)
          rw [List.count_append, List.count_append, List.count_singleton_self] at hcount
          omega
        obtain ⟨next, hnext, htallied⟩ := htallied.countView
          (fun view hview other hother => hseparates view (List.mem_append_left _ hview) other
            (List.mem_append_left _ hother)) hlt parsed.addressToIpMap
        simp only [countViews, hrun, hnext, Option.bind_eq_bind, Option.bind_some]
        exact ih htallied hseparates hvotes hfits

theorem countViews_panics (hfits : ¬ Fits env replies) (counted : List TopologyView) :
    countViews env replies counted = none := by
  induction replies generalizing counted with
  | nil => exact absurd (fun reply hreply => absurd hreply List.not_mem_nil) hfits
  | cons reply rest ih =>
    cases hrun : (parseAndCountSlots env.overflow env.toParseEnv reply.1 reply.2).run with
    | none => simp [countViews, hrun]
    | some outcome =>
      have hrest : ¬ Fits env rest := fun hfit =>
        hfits (List.forall_mem_cons.mpr ⟨by simp [hrun], hfit⟩)
      cases outcome with
      | error error => simp [countViews, hrun, ih hrest]
      | ok parsed =>
        simp [countViews, hrun, ih hrest]

theorem Fits.perm (hperm : replies.Perm replies') (hfits : Fits env replies) : Fits env replies' :=
  fun reply hreply => hfits reply (hperm.mem_iff.mpr hreply)

end Returned

/-! ## The choice -/

section Choice

variable {env : VoteEnv} {currRetry numOfQueriedNodes : Nat}

def verdict (env : VoteEnv) (currRetry numOfQueriedNodes votes : Nat) (shared : Bool) :
    RedisResult Unit :=
  if shared then
    if defaultNumberOfRefreshSlotsRetries ≤ currRetry ∨ numOfQueriedNodes < 3 then .ok ()
    else .error noMajority
  else if env.agrees votes numOfQueriedNodes then .ok ()
  else .error lowAccuracy

theorem chooseView_elected {visited : List TopologyView} (hvisited : visited ≠ []) :
    ∃ leader shared,
      Elected TopologyView.nodesCount (fun view => view.slotsAndCount.1) visited leader shared ∧
        chooseView env currRetry numOfQueriedNodes visited =
          (verdict env currRetry numOfQueriedNodes leader.nodesCount shared).map fun _ => leader := by
  cases visited with
  | nil => contradiction
  | cons first rest =>
    refine ⟨_, _, elect_elected first rest, ?_⟩
    unfold chooseView verdict
    dsimp only
    split_ifs <;> rfl

/-- Nobody has more votes, and nobody with as many votes a higher count of slots. -/
structure Wins (views : List View) (view : View) : Prop where
  mem : view ∈ views
  votes_le : ∀ other ∈ views, views.count other ≤ views.count view
  slotsCount_le : ∀ other ∈ views, views.count other = views.count view → other.1 ≤ view.1

def sharesMostVotes (views : List View) (view : View) : Bool :=
  2 ≤ views.dedup.countP fun other => views.count other = views.count view

variable {views views' : List View} {view : View}

theorem Wins.perm (hperm : views.Perm views') (hwins : Wins views view) : Wins views' view := by
  refine ⟨hperm.mem_iff.mp hwins.mem, fun other hother => ?_, fun other hother hsame => ?_⟩
  · rw [← hperm.count_eq, ← hperm.count_eq]
    exact hwins.votes_le other (hperm.mem_iff.mpr hother)
  · rw [← hperm.count_eq, ← hperm.count_eq] at hsame
    exact hwins.slotsCount_le other (hperm.mem_iff.mpr hother) hsame

theorem Wins.same {other : View} (hwins : Wins views view) (hother : Wins views other) :
    views.count view = views.count other ∧ view.1 = other.1 := by
  have hvotes := Nat.le_antisymm (hother.votes_le view hwins.mem) (hwins.votes_le other hother.mem)
  exact ⟨hvotes, Nat.le_antisymm (hother.slotsCount_le view hwins.mem hvotes)
    (hwins.slotsCount_le other hother.mem hvotes.symm)⟩

theorem Tallied.wins {counted visited : List TopologyView} {leader : TopologyView} {shared : Bool}
    (htallied : Tallied env views counted) (hvisited : visited.Perm counted)
    (helected : Elected TopologyView.nodesCount (fun view => view.slotsAndCount.1) visited leader
      shared) :
    Wins views leader.slotsAndCount ∧ shared = sharesMostVotes views leader.slotsAndCount := by
  have hmem : ∀ entry ∈ visited, entry.slotsAndCount ∈ views := fun entry hentry =>
    (htallied.mem_iff _).mp (List.mem_map_of_mem (hvisited.mem_iff.mp hentry))
  have hcount : ∀ entry ∈ visited, entry.nodesCount = views.count entry.slotsAndCount :=
    fun entry hentry => htallied.votes entry (hvisited.mem_iff.mp hentry)
  have hentry : ∀ other ∈ views, ∃ entry ∈ visited, entry.slotsAndCount = other := by
    intro other hother
    obtain ⟨entry, hentry, rfl⟩ := List.mem_map.mp ((htallied.mem_iff other).mpr hother)
    exact ⟨entry, hvisited.mem_iff.mpr hentry, rfl⟩
  have hleader := hcount leader helected.mem
  refine ⟨⟨hmem leader helected.mem, fun other hother => ?_, fun other hother hsame => ?_⟩, ?_⟩
  · obtain ⟨entry, hentry, rfl⟩ := hentry other hother
    rw [← hcount entry hentry, ← hleader]
    exact helected.votes_le entry hentry
  · obtain ⟨entry, hentry, rfl⟩ := hentry other hother
    exact helected.weight_le entry hentry (by rw [hcount entry hentry, hsame, hleader])
  · have hdistinct : (visited.map TopologyView.slotsAndCount).Perm views.dedup := by
      refine (List.perm_ext_iff_of_nodup ?_ (List.nodup_dedup _)).mpr fun view => ?_
      · exact (hvisited.map _).nodup_iff.mpr htallied.nodup
      · rw [(hvisited.map _).mem_iff, htallied.mem_iff, List.mem_dedup]
    rw [Bool.eq_iff_iff, helected.shared_iff, sharesMostVotes, decide_eq_true_iff,
      ← hdistinct.countP_eq, List.countP_map, hleader]
    refine Iff.of_eq (congrArg (2 ≤ ·) (List.countP_congr fun entry hentry => ?_))
    simp [hcount entry hentry]

variable {replies : List (String × Value)} (order : ViewOrder)
  (readFromReplica : ReadFromReplicaStrategy)

theorem calculateTopology_run (hseparates : Separates env (returnedViews env replies))
    (hvotes : ∀ view, (returnedViews env replies).count view < 2 ^ 16) (hfits : Fits env replies) :
    let views := returnedViews env replies
    let run :=
      (calculateTopology env order replies currRetry numOfQueriedNodes readFromReplica).run
    (views = [] ∧ run = some (.error noTopologyViews)) ∨
      ∃ view ips, Wins views view ∧ run = some ((verdict env currRetry numOfQueriedNodes
        (views.count view) (sharesMostVotes views view)).map fun _ =>
          (.new view.2 ips readFromReplica, env.hash view)) := by
  intro views run
  obtain ⟨counted, hcounted, htallied⟩ := countViews_tallied .nil (by simpa using hseparates)
    (by simpa using hvotes) hfits
  change Tallied env views counted at htallied
  have hvisited := order.perm counted
  have hrun : run = some ((chooseView env currRetry numOfQueriedNodes (order.visit counted)).map
      fun view => (.new view.slotsAndCount.2 view.addressToIpMap readFromReplica,
        view.hashValue)) := by
    simp only [run, calculateTopology, hcounted]
    change (liftExcept (chooseView env currRetry numOfQueriedNodes (order.visit counted)) >>=
      fun view => pure (SlotMap.new view.slotsAndCount.2 view.addressToIpMap readFromReplica,
        view.hashValue) : ExceptT RedisError Option _).run = _
    cases chooseView env currRetry numOfQueriedNodes (order.visit counted) <;> rfl
  rw [hrun]
  by_cases hempty : order.visit counted = []
  · rw [hempty] at hvisited ⊢
    refine .inl ⟨List.eq_nil_iff_forall_not_mem.mpr fun view hview => ?_, rfl⟩
    simpa [hvisited.nil_eq.symm] using (htallied.mem_iff view).mpr hview
  · obtain ⟨leader, shared, helected, hchoose⟩ := @chooseView_elected env currRetry
      numOfQueriedNodes _ hempty
    obtain ⟨hwins, rfl⟩ := htallied.wins hvisited helected
    have hleader := hvisited.mem_iff.mp helected.mem
    refine .inr ⟨leader.slotsAndCount, leader.addressToIpMap, hwins, ?_⟩
    rw [hchoose, ← htallied.hashes leader hleader, htallied.votes leader hleader]
    cases verdict env currRetry numOfQueriedNodes _ _ <;> rfl

theorem calculateTopology_panics (hfits : ¬ Fits env replies) :
    (calculateTopology env order replies currRetry numOfQueriedNodes readFromReplica).run = none := by
  unfold calculateTopology
  rw [countViews_panics hfits]
  rfl

/-- Both calls panic, both fail alike, or both take views with as many votes and slots. -/
def SameVote (env : VoteEnv) (views : List View) :
    Option (RedisResult (SlotMap × Nat)) → Option (RedisResult (SlotMap × Nat)) → Prop
  | none, none => True
  | some (.error error), some (.error other) => error = other
  | some (.ok result), some (.ok other) => ∃ view view', Wins views view ∧ Wins views view' ∧
      result.2 = env.hash view ∧ other.2 = env.hash view' ∧
        views.count view = views.count view' ∧ view.1 = view'.1
  | _, _ => False

theorem calculateTopology_same {replies' : List (String × Value)} (order' : ViewOrder)
    (hseparates : Separates env (returnedViews env replies))
    (hvotes : ∀ view, (returnedViews env replies).count view < 2 ^ 16)
    (hperm : replies.Perm replies') :
    SameVote env (returnedViews env replies)
      (calculateTopology env order replies currRetry numOfQueriedNodes readFromReplica).run
      (calculateTopology env order' replies' currRetry numOfQueriedNodes readFromReplica).run := by
  have hviews : (returnedViews env replies).Perm (returnedViews env replies') :=
    hperm.filterMap _
  have hseparates' : Separates env (returnedViews env replies') := fun view hview other hother =>
    hseparates view (hviews.mem_iff.mpr hview) other (hviews.mem_iff.mpr hother)
  have hvotes' : ∀ view, (returnedViews env replies').count view < 2 ^ 16 := fun view => by
    rw [← hviews.count_eq]
    exact hvotes view
  by_cases hfits : Fits env replies
  · rcases @calculateTopology_run env currRetry numOfQueriedNodes _ order readFromReplica hseparates
      hvotes hfits with ⟨hempty, hrun⟩ | ⟨view, ips, hwins, hrun⟩ <;>
    rcases @calculateTopology_run env currRetry numOfQueriedNodes _ order' readFromReplica
      hseparates' hvotes' (hfits.perm hperm) with ⟨hempty', hrun'⟩ | ⟨view', ips', hwins', hrun'⟩
    · rw [hrun, hrun']
      exact rfl
    · rw [hempty] at hviews
      exact absurd (hviews.mem_iff.mpr hwins'.mem) List.not_mem_nil
    · rw [hempty'] at hviews
      exact absurd (hviews.mem_iff.mp hwins.mem) List.not_mem_nil
    · have hwins' := hwins'.perm hviews.symm
      obtain ⟨hcount, hslots⟩ := hwins.same hwins'
      have hshares : sharesMostVotes (returnedViews env replies') view' =
          sharesMostVotes (returnedViews env replies) view := by
        simp [sharesMostVotes, ← hviews.count_eq, ← hviews.dedup.countP_eq, hcount]
      rw [hrun, hrun', hshares, ← hviews.count_eq, ← hcount]
      cases verdict env currRetry numOfQueriedNodes _ _ with
      | error error => exact rfl
      | ok _ => exact ⟨_, _, hwins, hwins', rfl, rfl, hcount, hslots⟩
  · rw [calculateTopology_panics order readFromReplica hfits,
      calculateTopology_panics order' readFromReplica
        fun hfits' => hfits (hfits'.perm hperm.symm)]
    trivial

end Choice

/-! ## Coverage -/

namespace Slot

def numbers (slot : Slot) : List Nat := List.range' slot.start (slot.rangeEnd + 1 - slot.start)

def Disjoint (slot other : Slot) : Prop :=
  slot.rangeEnd < other.start ∨ other.rangeEnd < slot.start

end Slot

/-- How many different slots the ranges of a view hold. -/
def coverage (view : View) : Nat := (view.2.flatMap Slot.numbers).dedup.length

structure RangesOfSlots (slots : List Slot) : Prop where
  ranges : ∀ slot ∈ slots, slot.start ≤ slot.rangeEnd ∧ slot.rangeEnd < slotCount
  disjoint : slots.Pairwise Slot.Disjoint

def rangeSizes (slots : List Slot) : Int :=
  (slots.map fun slot => (slot.rangeEnd : Int) - slot.start + 1).sum

section Coverage

variable {slots : List Slot}

namespace RangesOfSlots

variable (hranges : RangesOfSlots slots)
include hranges

theorem numbers_nodup : (slots.flatMap Slot.numbers).Nodup := by
  refine List.nodup_flatMap.mpr ⟨fun slot _ => List.nodup_range', ?_⟩
  refine hranges.disjoint.imp fun {slot other} hapart number hnumber hother => ?_
  simp only [Slot.numbers, List.mem_range'_1] at hnumber hother
  rcases hapart with hlt | hlt <;> omega

theorem length_numbers : ((slots.flatMap Slot.numbers).length : Int) = rangeSizes slots := by
  obtain ⟨hordered, -⟩ := hranges
  induction slots with
  | nil => rfl
  | cons slot slots ih =>
    obtain ⟨⟨hle, -⟩, hrest⟩ := List.forall_mem_cons.mp hordered
    have hsizes := ih hrest
    rw [rangeSizes] at hsizes ⊢
    rw [List.flatMap_cons, List.length_append, List.map_cons, List.sum_cons, ← hsizes,
      Slot.numbers, List.length_range']
    omega

theorem length_le : (slots.flatMap Slot.numbers).length ≤ slotCount := by
  have hsub : slots.flatMap Slot.numbers ⊆ List.range slotCount := by
    intro number hnumber
    obtain ⟨slot, hslot, hmem⟩ := List.mem_flatMap.mp hnumber
    have hrange := hranges.ranges slot hslot
    rw [Slot.numbers, List.mem_range'_1] at hmem
    exact List.mem_range.mpr (by omega)
  simpa using (List.subperm_of_subset hranges.numbers_nodup hsub).length_le

end RangesOfSlots

variable {env : VoteEnv} {replies : List (String × Value)} {view : View}

theorem returnedViews_count (hmem : view ∈ returnedViews env replies) :
    (view.1 : Int) = rangeSizes view.2 % 2 ^ 16 := by
  obtain ⟨reply, -, hview⟩ := List.mem_filterMap.mp hmem
  unfold returnedView at hview
  split at hview
  · next parsed hparse =>
      cases hview
      exact slotsCount_eq (show Returns _ _ from hparse)
  · contradiction

theorem RangesOfSlots.coverage_eq (hranges : RangesOfSlots view.2)
    (hmem : view ∈ returnedViews env replies) : coverage view = view.1 := by
  have hcount := returnedViews_count hmem
  have hlength := hranges.length_numbers
  have hle := hranges.length_le
  rw [coverage, List.dedup_eq_self.mpr hranges.numbers_nodup]
  simp only [slotCount] at hle
  omega

theorem Wins.coverage_le (hwins : Wins (returnedViews env replies) view)
    (hranges : ∀ other ∈ returnedViews env replies, RangesOfSlots other.2) (other : View)
    (hother : other ∈ returnedViews env replies)
    (hsame : (returnedViews env replies).count other = (returnedViews env replies).count view) :
    coverage other ≤ coverage view := by
  rw [(hranges other hother).coverage_eq hother, (hranges view hwins.mem).coverage_eq hwins.mem]
  exact hwins.slotsCount_le other hother hsame

end Coverage

/--
A view that is taken has been returned by the most nodes, and the most slots were counted
for it among such views; the order of the replies and of the hash map changes nothing but
which of several equal winners is taken.  What is counted is the sum of the sizes of the
ranges in 16 bits, hence the slots that a view covers when its ranges are disjoint.
-/
theorem calculateTopology_elects {env : VoteEnv} {replies : List (String × Value)}
    (hseparates : Separates env (returnedViews env replies))
    (hvotes : ∀ view, (returnedViews env replies).count view < 2 ^ 16) (order : ViewOrder)
    (currRetry numOfQueriedNodes : Nat) (readFromReplica : ReadFromReplicaStrategy) :
    (∀ result, Returns
        (calculateTopology env order replies currRetry numOfQueriedNodes readFromReplica) result →
      ∃ view ips, Wins (returnedViews env replies) view ∧
        result = (.new view.2 ips readFromReplica, env.hash view) ∧
        ((∀ other ∈ returnedViews env replies, RangesOfSlots other.2) →
          ∀ other ∈ returnedViews env replies,
            (returnedViews env replies).count other = (returnedViews env replies).count view →
              coverage other ≤ coverage view)) ∧
    (∀ (order' : ViewOrder) replies', replies.Perm replies' →
      SameVote env (returnedViews env replies)
        (calculateTopology env order replies currRetry numOfQueriedNodes readFromReplica).run
        (calculateTopology env order' replies' currRetry numOfQueriedNodes readFromReplica).run) ∧
    ∀ view ∈ returnedViews env replies, (view.1 : Int) = rangeSizes view.2 % 2 ^ 16 ∧
      (RangesOfSlots view.2 → coverage view = view.1) := by
  refine ⟨fun result hresult => ?_, fun order' replies' hperm =>
    calculateTopology_same order readFromReplica order' hseparates hvotes hperm,
    fun view hmem => ⟨returnedViews_count hmem, fun hranges => hranges.coverage_eq hmem⟩⟩
  by_cases hfits : Fits env replies
  · rcases @calculateTopology_run env currRetry numOfQueriedNodes _ order readFromReplica hseparates
      hvotes hfits with ⟨-, hrun⟩ | ⟨view, ips, hwins, hrun⟩
    · exact nomatch hrun.symm.trans hresult
    · have hchosen := Option.some.inj (hrun.symm.trans hresult)
      cases hverdict : verdict env currRetry numOfQueriedNodes _ _ with
      | error error =>
        rw [hverdict] at hchosen
        contradiction
      | ok _ =>
        rw [hverdict] at hchosen
        exact ⟨view, ips, hwins, (Except.ok.inj hchosen).symm, hwins.coverage_le⟩
  · have hnone := @calculateTopology_panics env currRetry numOfQueriedNodes _ order readFromReplica
      hfits
    exact nomatch hnone.symm.trans hresult

def smallEnv (overflow : Overflow) : VoteEnv where
  fromUtf8Lossy data := String.ofList (data.map fun byte => Char.ofNat byte.toNat)
  parseIpAddr _ := none
  addressResolver := none
  debugValue _ := ""
  overflow := overflow
  hash view := view.1
  agrees votes queried := queried ≤ 5 * votes

def rangeOf (start rangeEnd : Nat) (host : UInt8) : Value :=
  .array [.int start, .int rangeEnd, .array [.bulkString [host], .int 1]]

def threeReplies : List (String × Value) :=
  [("x", .array [rangeOf 0 9 97]), ("y", .array [rangeOf 0 99 98]), ("z", .array [rangeOf 0 9 97])]

theorem two_of_three_elect :
    ∃ result, Returns (calculateTopology (smallEnv .wraps) ⟨id, fun _ => .refl _⟩ threeReplies 0 3
        .alwaysFromPrimary) result ∧
      ∃ view ips, Wins (returnedViews (smallEnv .wraps) threeReplies) view ∧
        result = (.new view.2 ips .alwaysFromPrimary, (smallEnv .wraps).hash view) := by
  have hviews : ∃ first second,
      returnedViews (smallEnv .wraps) threeReplies = [first, second, first] ∧
        (smallEnv .wraps).hash first = 10 ∧ (smallEnv .wraps).hash second = 100 :=
    ⟨_, _, rfl, rfl, rfl⟩
  obtain ⟨first, second, hviews, hfirst, hsecond⟩ := hviews
  have hseparates : Separates (smallEnv .wraps) (returnedViews (smallEnv .wraps) threeReplies) := by
    rw [hviews]
    intro view hview other hother hsame
    simp only [List.mem_cons, List.not_mem_nil, or_false] at hview hother
    rcases hview with rfl | rfl | rfl <;> rcases hother with rfl | rfl | rfl <;> simp_all
  have hvotes : ∀ view, (returnedViews (smallEnv .wraps) threeReplies).count view < 2 ^ 16 :=
    fun view => List.count_le_length.trans_lt (by simp [hviews])
  have hreturns : Returns (calculateTopology (smallEnv .wraps) ⟨id, fun _ => .refl _⟩ threeReplies
      0 3 .alwaysFromPrimary) _ := rfl
  obtain ⟨view, ips, hwins, hresult, -⟩ :=
    (calculateTopology_elects hseparates hvotes _ _ _ _).1 _ hreturns
  exact ⟨_, hreturns, view, ips, hwins, hresult⟩

/-- The view that is taken has as many votes as another one that covers more slots. -/
def TakesSmaller (overflow : Overflow) (replies : List (String × Value)) : Prop :=
  ∃ result view other,
    Returns (calculateTopology (smallEnv overflow) ⟨id, fun _ => .refl _⟩ replies 0 2
      .alwaysFromPrimary) result ∧
    result.2 = (smallEnv overflow).hash view ∧
    view ∈ returnedViews (smallEnv overflow) replies ∧
    other ∈ returnedViews (smallEnv overflow) replies ∧
    (returnedViews (smallEnv overflow) replies).count other =
      (returnedViews (smallEnv overflow) replies).count view ∧
    coverage view < coverage other

-- Ten slots are named three times and counted as thirty; the range from 5 to 3 counts as 65535.
theorem counted_not_covered :
    (∀ overflow, TakesSmaller overflow
      [("x", .array (List.replicate 3 (rangeOf 0 9 97))), ("y", .array [rangeOf 0 19 98])]) ∧
    TakesSmaller .wraps [("x", .array [rangeOf 5 3 97]), ("y", .array [rangeOf 0 19 98])] := by
  constructor
  · intro overflow
    cases overflow <;> exact ⟨_, _, _, rfl, rfl, .head _, .tail _ (.head _), rfl, by decide⟩
  · exact ⟨_, _, _, rfl, rfl, .head _, .tail _ (.head _), rfl, by decide⟩

end ValkeyGlide.Cluster
