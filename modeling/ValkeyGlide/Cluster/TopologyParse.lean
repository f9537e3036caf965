import ValkeyGlide.Cluster.Topology

/-!
# Accepted topology replies

`parse_and_count_slots` narrows the numbers of a reply to 16 bits, counts slots
in 16 bits, and takes the first node that it can use for the master
(`cluster_topology.rs`).  A build that wraps accepts more than one that stops on
overflow.  What is accepted is well formed exactly when the recorded items of the
reply are.
-/

namespace ValkeyGlide.Cluster

open Foundation Protocol

/-! ## Counting -/

variable {overflow : Overflow}

theorem u16_result_eq {exact value : Int} (hresult : u16.result overflow exact = some value) :
    value = exact % 2 ^ 16 := by
  unfold MachineInt.result at hresult
  split_ifs at hresult with hcontains
  · obtain ⟨hlower, hupper⟩ := hcontains
    simp only [u16] at hlower hupper
    rw [← Option.some.inj hresult]
    omega
  · cases overflow with
    | panics => contradiction
    | wraps =>
      simp only [u16, Option.some.injEq] at hresult
      omega

theorem addRangeSize_eq {slotsCount start rangeEnd count : Nat}
    (hadd : addRangeSize overflow slotsCount start rangeEnd = some count) :
    (count : Int) = (slotsCount + (rangeEnd - start + 1)) % 2 ^ 16 := by
  obtain ⟨distance, hdistance, hadd⟩ := Option.bind_eq_some_iff.mp hadd
  obtain ⟨size, hsize, hadd⟩ := Option.bind_eq_some_iff.mp hadd
  obtain ⟨total, htotal, hcount⟩ := Option.bind_eq_some_iff.mp hadd
  have hdistance := u16_result_eq hdistance
  have hsize := u16_result_eq hsize
  have htotal := u16_result_eq htotal
  cases hcount
  omega

/-! ## Recorded items -/

structure RangeItem where
  start : Int
  rangeEnd : Int
  nodes : List Value

section Items

variable (env : ParseEnv) (addrOfAnsweringNode : String)

def RangeItem.usable (item : RangeItem) : List (Address × Option IpAddr) :=
  item.nodes.filterMap (parseNode env addrOfAnsweringNode)

def RangeItem.firstAddress (item : RangeItem) : Option Address :=
  (item.nodes.head?.bind (parseNode env addrOfAnsweringNode)).map Prod.fst

/-- The items of a reply that give a range: up to the first that is no array, those with two
numbers and a node that can be used. -/
def recordedItems : List Value → List RangeItem
  | .array (.int start :: .int rangeEnd :: nodes) :: rest =>
    match nodes.filterMap (parseNode env addrOfAnsweringNode) with
    | [] => recordedItems rest
    | _ :: _ => ⟨start, rangeEnd, nodes⟩ :: recordedItems rest
  | .array _ :: rest => recordedItems rest
  | _ => []

def replyItems : Value → List Value
  | .array items => items
  | _ => []

def RangeItem.size (item : RangeItem) : Int := asU16 item.rangeEnd - asU16 item.start + 1

end Items

section Recorded

variable {overflow : Overflow} {env : ParseEnv} {addrOfAnsweringNode : String}
  {parsed : ParsedSlotsResult}

structure Records (env : ParseEnv) (addrOfAnsweringNode : String) (item : RangeItem) (slot : Slot) :
    Prop where
  start : slot.start = asU16 item.start
  rangeEnd : slot.rangeEnd = asU16 item.rangeEnd
  master : ((item.usable env addrOfAnsweringNode).head?).map Prod.fst = some slot.master

def countItem (overflow : Overflow) (count : Nat) (item : RangeItem) : Option Nat :=
  addRangeSize overflow count (asU16 item.start) (asU16 item.rangeEnd)

theorem parseItems_recorded {items : List Value} {final : ParsedSlotsResult}
    (hparse : parseItems overflow env addrOfAnsweringNode items parsed = some final) :
    (recordedItems env addrOfAnsweringNode items).foldlM (countItem overflow) parsed.slotsCount =
      some final.slotsCount ∧
    ∃ slots, final.slots = parsed.slots ++ slots ∧
      List.Forall₂ (Records env addrOfAnsweringNode) (recordedItems env addrOfAnsweringNode items)
        slots := by
  fun_induction parseItems overflow env addrOfAnsweringNode items parsed with
  | case1 start rangeEnd values rest parsed nodes parsed' hnodes ih =>
    have hempty : values.filterMap (parseNode env addrOfAnsweringNode) = [] :=
      List.map_eq_nil_iff.mp hnodes
    simp only [recordedItems, hempty]
    exact ih hparse
  | case2 start rangeEnd values rest parsed nodes parsed' master replicas hnodes ih =>
    obtain ⟨pushed, hpush, hrest⟩ := Option.bind_eq_some_iff.mp hparse
    obtain ⟨count, hcount, hpushed⟩ := Option.bind_eq_some_iff.mp hpush
    cases hpushed
    obtain ⟨hfold, slots, hslots, hrecords⟩ := ih _ hrest
    obtain ⟨first, others, hvalues, hmaster, -⟩ := List.map_eq_cons_iff.mp hnodes
    have hitems : recordedItems env addrOfAnsweringNode
        (.array (.int start :: .int rangeEnd :: values) :: rest) =
          ⟨start, rangeEnd, values⟩ :: recordedItems env addrOfAnsweringNode rest := by
      simp [recordedItems,
        show values.filterMap (parseNode env addrOfAnsweringNode) = first :: others from hvalues]
    rw [hitems]
    constructor
    · rw [List.foldlM_cons]
      exact Option.bind_eq_some_iff.mpr ⟨count, hcount, hfold⟩
    · refine ⟨_ :: slots, by rw [hslots]; simp; rfl, .cons ⟨rfl, rfl, ?_⟩ hrecords⟩
      rw [RangeItem.usable, show values.filterMap (parseNode env addrOfAnsweringNode) =
        first :: others from hvalues]
      exact congrArg some hmaster
  | case3 parsed elements rest hnot ih => simpa [recordedItems, hnot] using ih hparse
  | case4 items parsed _ _ =>
    cases hparse
    simp [recordedItems]

theorem foldlM_countItem_eq {items : List RangeItem} {count total : Nat}
    (hcount : count < 2 ^ 16) (hfold : items.foldlM (countItem overflow) count = some total) :
    (total : Int) = (count + (items.map RangeItem.size).sum) % 2 ^ 16 := by
  induction items generalizing count with
  | nil =>
    cases hfold
    rw [List.map_nil, List.sum_nil]
    omega
  | cons item items ih =>
    obtain ⟨next, hnext, hrest⟩ := Option.bind_eq_some_iff.mp hfold
    have hnext := addRangeSize_eq hnext
    rw [ih (by omega) hrest, List.map_cons, List.sum_cons, RangeItem.size]
    omega

theorem parseItems_of_returns {rawSlotResp : Value}
    (hreturns : Returns (parseAndCountSlots overflow env addrOfAnsweringNode rawSlotResp)
      parsed) :
    parseItems overflow env addrOfAnsweringNode (replyItems rawSlotResp) ⟨0, [], ∅⟩ =
      some parsed := by
  unfold parseAndCountSlots at hreturns
  obtain ⟨found, hfound, hreturns⟩ := returns_bind.mp hreturns
  have hloop := returns_lift.mp hfound
  have hitems : parseItems overflow env addrOfAnsweringNode (replyItems rawSlotResp)
      ⟨0, [], ∅⟩ = some found := by
    cases rawSlotResp <;> exact hloop
  split_ifs at hreturns
  · exact absurd hreturns not_returns_throw
  · rw [hitems, returns_pure.mp hreturns]

end Recorded

/-! ## Well-formed replies -/

/-- The ranges are ranges of slots, the count is the sum of their sizes, and the master of each
is the first node that the reply names for it. -/
structure ParsedWellFormed (env : ParseEnv) (addrOfAnsweringNode : String) (rawSlotResp : Value)
    (parsed : ParsedSlotsResult) : Prop where
  ranges : ∀ slot ∈ parsed.slots, slot.start ≤ slot.rangeEnd ∧ slot.rangeEnd < slotCount
  count : (parsed.slotsCount : Int) =
    (parsed.slots.map fun slot => (slot.rangeEnd : Int) - slot.start + 1).sum
  masters : List.Forall₂
    (fun item slot => item.firstAddress env addrOfAnsweringNode = some slot.master)
    (recordedItems env addrOfAnsweringNode (replyItems rawSlotResp)) parsed.slots

/-- The narrowed numbers are ranges of slots of fewer than `2 ^ 16` slots together, and the
first node of every recorded item can be used. -/
structure ItemsWellFormed (env : ParseEnv) (addrOfAnsweringNode : String) (rawSlotResp : Value) :
    Prop where
  ranges : ∀ item ∈ recordedItems env addrOfAnsweringNode (replyItems rawSlotResp),
    asU16 item.start ≤ asU16 item.rangeEnd ∧ asU16 item.rangeEnd < slotCount
  count : ((recordedItems env addrOfAnsweringNode (replyItems rawSlotResp)).map
    RangeItem.size).sum < 2 ^ 16
  first : ∀ item ∈ recordedItems env addrOfAnsweringNode (replyItems rawSlotResp),
    (item.firstAddress env addrOfAnsweringNode).isSome

section WellFormed

variable {env : ParseEnv} {addrOfAnsweringNode : String} {items : List RangeItem}
  {slots : List Slot}

theorem Records.firstAddress {item : RangeItem} {slot : Slot}
    (hrecords : Records env addrOfAnsweringNode item slot)
    (hfirst : (item.firstAddress env addrOfAnsweringNode).isSome) :
    item.firstAddress env addrOfAnsweringNode = some slot.master := by
  obtain ⟨address, haddress⟩ := Option.isSome_iff_exists.mp hfirst
  obtain ⟨node, hnode, rfl⟩ := Option.map_eq_some_iff.mp haddress
  obtain ⟨entry, hentry, hparse⟩ := Option.bind_eq_some_iff.mp hnode
  obtain ⟨rest, hnodes⟩ : ∃ rest, item.nodes = entry :: rest := List.head?_eq_some_iff.mp hentry
  have hmaster := hrecords.master
  rw [RangeItem.usable, hnodes, List.filterMap_cons_some hparse] at hmaster
  rw [haddress]
  exact hmaster

section

variable (hrecords : List.Forall₂ (Records env addrOfAnsweringNode) items slots)
include hrecords

private theorem sizes_eq :
    slots.map (fun slot => (slot.rangeEnd : Int) - slot.start + 1) = items.map RangeItem.size := by
  induction hrecords with
  | nil => rfl
  | cons hfirst _ ih =>
    rw [List.map_cons, List.map_cons, ih, hfirst.start, hfirst.rangeEnd]
    rfl

private theorem forall_slot_iff (property : Nat → Nat → Prop) :
    (∀ slot ∈ slots, property slot.start slot.rangeEnd) ↔
      ∀ item ∈ items, property (asU16 item.start) (asU16 item.rangeEnd) := by
  induction hrecords with
  | nil => simp
  | cons hfirst _ ih =>
    rw [List.forall_mem_cons, List.forall_mem_cons, ih, hfirst.start, hfirst.rangeEnd]

private theorem masters_iff :
    List.Forall₂ (fun item slot => item.firstAddress env addrOfAnsweringNode = some slot.master)
        items slots ↔
      ∀ item ∈ items, (item.firstAddress env addrOfAnsweringNode).isSome := by
  induction hrecords with
  | nil => simp
  | cons hfirst _ ih =>
    rw [List.forall₂_cons, List.forall_mem_cons, ih]
    refine and_congr_left fun _ => ⟨fun hsome => by rw [hsome]; rfl, hfirst.firstAddress⟩

end

/-- The count is the sum of the sizes, reduced to 16 bits where a build does not stop. -/
theorem slotsCount_eq {overflow : Overflow} {rawSlotResp : Value} {parsed : ParsedSlotsResult}
    (hreturns : Returns (parseAndCountSlots overflow env addrOfAnsweringNode rawSlotResp)
      parsed) :
    (parsed.slotsCount : Int) =
      (parsed.slots.map fun slot => (slot.rangeEnd : Int) - slot.start + 1).sum % 2 ^ 16 := by
  obtain ⟨hfold, slots, hslots, hrecords⟩ :=
    parseItems_recorded (parseItems_of_returns hreturns)
  have hcount := foldlM_countItem_eq (show 0 < 2 ^ 16 by decide) hfold
  rw [List.nil_append] at hslots
  rw [hcount, hslots, sizes_eq hrecords, Nat.cast_zero, zero_add]

/-- In either build, what the parser accepts is well formed exactly when the recorded items of
the reply are. -/
theorem accepted_wellFormed_iff (overflow : Overflow) (env : ParseEnv)
    (addrOfAnsweringNode : String) (rawSlotResp : Value) (parsed : ParsedSlotsResult)
    (hreturns : Returns (parseAndCountSlots overflow env addrOfAnsweringNode rawSlotResp)
      parsed) :
    ParsedWellFormed env addrOfAnsweringNode rawSlotResp parsed ↔
      ItemsWellFormed env addrOfAnsweringNode rawSlotResp := by
  obtain ⟨-, slots, hslots, hrecords⟩ := parseItems_recorded (parseItems_of_returns hreturns)
  have hsum := slotsCount_eq hreturns
  rw [List.nil_append] at hslots
  subst hslots
  have hranges := forall_slot_iff hrecords fun start rangeEnd =>
    start ≤ rangeEnd ∧ rangeEnd < slotCount
  constructor
  · rintro ⟨hparsedRanges, hcount, hmasters⟩
    refine ⟨hranges.mp hparsedRanges, ?_, (masters_iff hrecords).mp hmasters⟩
    rw [← sizes_eq hrecords, ← hcount]
    omega
  · rintro ⟨hitemRanges, hcount, hfirst⟩
    refine ⟨hranges.mpr hitemRanges, ?_, (masters_iff hrecords).mpr hfirst⟩
    have hpositive : 0 ≤ ((recordedItems env addrOfAnsweringNode
        (replyItems rawSlotResp)).map RangeItem.size).sum := by
      refine List.sum_nonneg (List.forall_mem_map.mpr fun item hitem => ?_)
      have hrange := (hitemRanges item hitem).1
      unfold RangeItem.size
      omega
    rw [sizes_eq hrecords] at hsum ⊢
    omega

def oneHost : ParseEnv where
  fromUtf8Lossy data := if data = [63] then "?" else "b"
  parseIpAddr _ := none
  addressResolver := none
  debugValue _ := ""

def nodeEntry (host : Bytes) (port : Int) : Value := .array [.bulkString host, .int port]

def servedRange (start rangeEnd : Int) : Value :=
  .array [.int start, .int rangeEnd, nodeEntry [98] 1]

theorem wholeRange_wellFormed :
    ∃ parsed,
      Returns (parseAndCountSlots .wraps oneHost "a" (.array [servedRange 0 16383])) parsed ∧
        ParsedWellFormed oneHost "a" (.array [servedRange 0 16383]) parsed := by
  have hreturns : Returns
      (parseAndCountSlots .wraps oneHost "a" (.array [servedRange 0 16383]))
      ⟨16384, [⟨0, 16383, getConnectionAddr oneHost "b" 1, []⟩], ∅⟩ := rfl
  refine ⟨_, hreturns,
    (accepted_wellFormed_iff .wraps oneHost "a" _ _ hreturns).mpr ⟨?_, by decide, ?_⟩⟩
  · rintro item (_ | ⟨_, hitem⟩)
    · decide
    · cases hitem
  · rintro item (_ | ⟨_, hitem⟩)
    · rfl
    · cases hitem

theorem accepted_not_wellFormed :
    (∃ parsed,
      Returns (parseAndCountSlots .panics oneHost "a" (.array [servedRange 0 16384])) parsed ∧
        ¬ ParsedWellFormed oneHost "a" (.array [servedRange 0 16384]) parsed) ∧
    (∃ parsed,
      Returns (parseAndCountSlots .wraps oneHost "a"
        (.array (List.replicate 4 (servedRange 0 16383)))) parsed ∧
        parsed.slotsCount = 0 ∧
        ¬ ParsedWellFormed oneHost "a" (.array (List.replicate 4 (servedRange 0 16383))) parsed) ∧
    ∃ parsed,
      Returns (parseAndCountSlots .panics oneHost "a"
        (.array [.array [.int 0, .int 1, nodeEntry [63] 1, nodeEntry [98] 2]])) parsed ∧
        parsed.slots.map Slot.master = [getConnectionAddr oneHost "b" 2] ∧
        ¬ ParsedWellFormed oneHost "a"
          (.array [.array [.int 0, .int 1, nodeEntry [63] 1, nodeEntry [98] 2]]) parsed := by
  refine ⟨⟨⟨16385, [⟨0, 16384, getConnectionAddr oneHost "b" 1, []⟩], ∅⟩, rfl, fun hwell => ?_⟩,
    ⟨⟨0, List.replicate 4 ⟨0, 16383, getConnectionAddr oneHost "b" 1, []⟩, ∅⟩, rfl, rfl,
      fun hwell => absurd hwell.count (by decide)⟩,
    ⟨⟨2, [⟨0, 1, getConnectionAddr oneHost "b" 2, []⟩], ∅⟩, rfl, rfl, fun hwell => ?_⟩⟩
  · exact absurd (hwell.ranges _ List.mem_cons_self).2 (by decide)
  · obtain ⟨hfirst, -⟩ := List.forall₂_cons.mp hwell.masters
    cases hfirst

end WellFormed

end ValkeyGlide.Cluster
