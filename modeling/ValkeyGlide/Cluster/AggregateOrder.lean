import ValkeyGlide.Cluster.Accumulators

/-!
# Aggregation in every order

The replies of the nodes come in no particular order, so an aggregation should
give the same in all of them, and never panic or wrap.  It does exactly for the
replies with which no accumulator can stop in any order.
-/

namespace ValkeyGlide.Cluster

open Foundation Protocol Reading

/-! ## The law -/

inductive Aggregation where
  | aggregate (op : AggregateOp)
  | aggregateArray (op : ArrayAggregateOp)
  | logicalAggregate (op : LogicalAggregateOp)
  | combineMapResults
  deriving DecidableEq, Repr

namespace Aggregation

def run (overflow : Overflow) (order : CountOrder) : Aggregation → List Value → Aggregated Value
  | .aggregate op, values => Cluster.aggregate overflow values op
  | .aggregateArray op, values => Cluster.aggregateArray values op
  | .logicalAggregate op, values => Cluster.logicalAggregate values op
  | .combineMapResults, values => Cluster.combineMapResults overflow order values

def Expects : Aggregation → Value → Prop
  | .aggregate _, reply => ∃ int, reply = .int int
  | .aggregateArray _, reply => ∃ ints : List Int, reply = .array (ints.map .int)
  | .logicalAggregate _, reply => ∃ ints : List Int, reply = .array (ints.map .int)
  | .combineMapResults, reply =>
    ∃ entries : Counts, reply =
      .array (entries.flatMap fun entry => [.bulkString entry.1, .int entry.2])

def entriesOf (replies : List Value) : Counts := replies.flatMap fun reply => (readMap reply).events

/-- Sums are those of mathematics. -/
def SumsExactly : Aggregation → List Value → Value → Prop
  | .aggregate .sum, replies, value => value = .int (replies.filterMap asInt).sum
  | .combineMapResults, replies, value =>
    ∃ entries, value = .map entries ∧ ∀ key count,
      (.bulkString key, .int count) ∈ entries ↔
        key ∈ (entriesOf replies).map Prod.fst ∧ count = total (entriesOf replies) key
  | _, _, _ => True

structure Lawful (aggregation : Aggregation) (replies : List Value) : Prop where
  /-- No build panics, and none gives what another does not. -/
  safe : ∀ order replies', replies'.Perm replies →
    ∃ outcome, ∀ overflow, (aggregation.run overflow order replies').run = some outcome
  same : (∀ reply ∈ replies, aggregation.Expects reply) →
    ∀ overflow order overflow' order' replies', replies'.Perm replies →
      ∃ value value', (aggregation.run overflow order replies).run = some (.ok value) ∧
        (aggregation.run overflow' order' replies').run = some (.ok value') ∧
        SameEntries value value' ∧ aggregation.SumsExactly replies value

/-- No array begins with more integers than an array of integers has, unless that is empty. -/
def EvenArrays (replies : List Value) : Prop :=
  ∀ values longer, .array values ∈ replies → .array longer ∈ replies → values ≠ [] →
    AllInts values → (leadingInts longer).length ≤ values.length

/-- In no order of the replies does the running count of a key leave the range. -/
def CountsInRange (replies : List Value) : Prop :=
  ∀ replies', replies'.Perm replies → ∀ done, done <+: (readAll readMap replies').events →
    ∀ key, i64.Contains (total done key)

/-- No accumulator stops in any order of the replies. -/
def Fits : Aggregation → List Value → Prop
  | .aggregate .min, _ => True
  | .aggregate .sum, replies => i64.FitsAnyOrder (replies.filterMap asInt)
  | .aggregateArray _, replies => EvenArrays replies
  | .logicalAggregate _, replies => EvenArrays replies
  | .combineMapResults, replies => CountsInRange replies

/-! ## Numbers -/

def ofInts : AggregateOp → List Int → Int
  | .min, ints => ints.foldl min i64.upper
  | .sum, ints => ints.sum

theorem flatMap_readInt (replies : List Value) :
    replies.flatMap (fun reply => (readInt reply).events) = replies.filterMap asInt := by
  induction replies with
  | nil => rfl
  | cons reply rest ih =>
    rw [List.flatMap_cons, ih]
    cases reply <;> rfl

variable {replies replies' : List Value} {op : AggregateOp}

theorem events_subperm (hperm : replies'.Perm replies) :
    (readAll readInt replies').events.Subperm (replies.filterMap asInt) := by
  have hprefix := readAll_events_prefix readInt replies'
  rw [flatMap_readInt] at hprefix
  exact hprefix.sublist.subperm.trans (hperm.filterMap asInt).subperm

theorem foldlM_min (overflow : Overflow) (acc : Int) (ints : List Int) :
    ints.foldlM (AggregateOp.min.combine overflow) acc = some (ints.foldl min acc) := by
  induction ints generalizing acc with
  | nil => rfl
  | cons int ints ih => exact ih (min acc int)

theorem foldl_min_perm {ints ints' : List Int} (hperm : ints.Perm ints') (acc : Int) :
    ints.foldl min acc = ints'.foldl min acc :=
  hperm.foldl_eq' (fun _ _ _ _ acc => min_right_comm acc _ _) acc

theorem readAll_of_ints (hreplies : ∀ reply ∈ replies, ∃ int, reply = .int int) :
    readAll readInt replies = ⟨replies.filterMap asInt, none⟩ := by
  rw [← flatMap_readInt]
  refine readAll_of_wellFormed fun reply hreply => ?_
  obtain ⟨int, rfl⟩ := hreplies reply hreply
  rfl

theorem exists_fold_of_fits (hfits : (aggregate op).Fits replies) (hperm : replies'.Perm replies) :
    ∃ final, ∀ overflow, (readAll readInt replies').events.foldlM (op.combine overflow)
      op.initialValue = some final := by
  cases op with
  | min => exact ⟨_, fun overflow => foldlM_min overflow _ _⟩
  | sum =>
    have hruns := MachineInt.FitsAnyOrder.runsIn hfits (events_subperm hperm)
    exact ⟨_, fun overflow => MachineInt.foldlM_add_of_runsIn hruns⟩

theorem aggregate_run_of_ints (hfits : (aggregate op).Fits replies)
    (hreplies : ∀ reply ∈ replies, ∃ int, reply = .int int) (overflow : Overflow)
    (order : CountOrder) (hperm : replies'.Perm replies) :
    ((aggregate op).run overflow order replies').run =
      some (.ok (.int (ofInts op (replies.filterMap asInt)))) := by
  have hints : ∀ reply ∈ replies', ∃ int, reply = .int int := fun reply hreply =>
    hreplies reply (hperm.mem_iff.mp hreply)
  have hread := readAll_of_ints hints
  rw [run, aggregate_eq_drive, map_drive_run_eq_some_iff, hread]
  have hsame := hperm.filterMap asInt
  cases op with
  | min =>
    refine ⟨_, foldlM_min overflow _ _, ?_⟩
    rw [foldl_min_perm hsame]
    rfl
  | sum =>
    have hruns := MachineInt.FitsAnyOrder.runsIn hfits hsame.subperm
    refine ⟨_, MachineInt.foldlM_add_of_runsIn hruns, ?_⟩
    rw [hsame.sum_eq]
    simp [AggregateOp.initialValue, ofInts]

private theorem filterMap_filter_ints (keep : Int → Bool) (replies : List Value) :
    (replies.filter fun reply => (asInt reply).any keep).filterMap asInt =
      (replies.filterMap asInt).filter keep := by
  induction replies with
  | nil => rfl
  | cons reply rest ih =>
    cases hreply : asInt reply with
    | none => simp [hreply, ih]
    | some int =>
      by_cases hkeep : keep int
      · simp [hreply, hkeep, ih]
      · simp [hreply, hkeep, ih]

private theorem runsIn_of_safe
    (hsafe : ∀ replies', replies'.Perm replies →
      ∃ outcome, (Cluster.aggregate .panics replies' .sum).run = some outcome) (keep : Int → Bool) :
    ∃ rest, i64.RunsIn 0 ((replies.filterMap asInt).filter keep ++ rest) := by
  obtain ⟨outcome, hrun⟩ := hsafe _
    (List.filter_append_perm (fun reply => (asInt reply).any keep) replies)
  rw [aggregate_eq_drive] at hrun
  obtain ⟨final, hfold, -⟩ := map_drive_run_eq_some_iff.mp hrun
  rw [readAll_append_of_wellFormed, flatMap_readInt, filterMap_filter_ints] at hfold
  · exact ⟨_, MachineInt.runsIn_of_foldlM_add hfold⟩
  · intro reply hreply
    have hint := (List.mem_filter.mp hreply).2
    cases reply with
    | int int => rfl
    | _ => exact nomatch hint

theorem aggregate_lawful_iff (op : AggregateOp) (replies : List Value) :
    (aggregate op).Lawful replies ↔ (aggregate op).Fits replies := by
  constructor
  · intro hlawful
    cases op with
    | min => trivial
    | sum =>
      have hsafe : ∀ replies', replies'.Perm replies → ∃ outcome,
          (Cluster.aggregate .panics replies' .sum).run = some outcome := by
        intro replies' hperm
        obtain ⟨outcome, hrun⟩ := hlawful.safe ⟨id, fun _ => .refl _⟩ replies' hperm
        exact ⟨outcome, hrun .panics⟩
      obtain ⟨rest, hpositive⟩ := runsIn_of_safe hsafe fun int => decide (0 < int)
      obtain ⟨rest', hnegative⟩ := runsIn_of_safe hsafe fun int => decide (int < 0)
      exact MachineInt.fitsAnyOrder_of_runsIn (by decide) hpositive hnegative
  · intro hfits
    constructor
    · intro order replies' hperm
      simp only [run, aggregate_eq_drive]
      exact exists_outcome_of_foldlM (exists_fold_of_fits hfits hperm)
    · intro hreplies overflow order overflow' order' replies' hperm
      refine ⟨_, _, aggregate_run_of_ints hfits hreplies overflow order (.refl _),
        aggregate_run_of_ints hfits hreplies overflow' order' hperm, .inl rfl, ?_⟩
      cases op <;> trivial

/-! ## Arrays -/

theorem allInts_map (ints : List Int) : AllInts (ints.map .int) := by
  intro value hvalue
  obtain ⟨int, -, rfl⟩ := List.mem_map.mp hvalue
  rfl

theorem leadingInts_map (ints : List Int) : leadingInts (ints.map .int) = ints := by
  induction ints with
  | nil => rfl
  | cons int ints ih => simp [leadingInts, ih]

theorem readInts_map (ints : List Int) :
    readInts (.array (ints.map .int)) = ⟨[(ints.length, ints)], none⟩ := by
  simp [readInts, leadingInts_map, allInts_map]

section Elementwise

variable {α : Type} {initialValue : α} {combine : α → Int → α} {replies : List Value}

/-- Where the array starts empty, or has the length of an array of integers. -/
private def Sized (replies : List Value) (acc : List α) : Prop :=
  acc = [] ∨ ∃ values, .array values ∈ replies ∧ values ≠ [] ∧ AllInts values ∧
    acc.length = values.length

variable {acc : List α} {values replies' : List Value}

private theorem startFrom_of_length (hne : values ≠ []) (hlength : acc.length = values.length)
    (length : Nat) :
    startFrom initialValue acc length = acc := by
  refine if_neg ?_
  rw [List.isEmpty_iff]
  rintro rfl
  exact hne (List.length_eq_zero_iff.mp hlength.symm)

variable (initialValue combine) in
private theorem accumulate_of_sized (heven : EvenArrays replies) (hacc : Sized replies acc)
    (hvalues : .array values ∈ replies) :
    accumulate initialValue combine acc (values.length, leadingInts values) =
      some (overlay combine (startFrom initialValue acc values.length) (leadingInts values)) := by
  refine accumulate_eq_some_iff.mpr ⟨?_, rfl⟩
  rcases hacc with rfl | ⟨other, hother, hne, hints, hlength⟩
  · simpa [startFrom] using leadingInts_length_le values
  · rw [startFrom_of_length hne hlength, hlength]
    exact heven other values hother hvalues hne hints

private theorem Sized.accumulated (hacc : Sized replies acc) (hvalues : .array values ∈ replies)
    (hints : AllInts values) :
    Sized replies
      (overlay combine (startFrom initialValue acc values.length) (leadingInts values)) := by
  rcases hacc with rfl | hother
  · by_cases hempty : values = []
    · subst hempty
      exact .inl rfl
    · exact .inr ⟨values, hvalues, hempty, hints, by simp [startFrom]⟩
  · obtain ⟨other, hmem, hne, hother, hlength⟩ := hother
    refine .inr ⟨other, hmem, hne, hother, ?_⟩
    rw [overlay_length, startFrom_of_length hne hlength, hlength]

variable (initialValue combine) in
private theorem exists_fold_of_even (heven : EvenArrays replies) (hacc : Sized replies acc)
    (hreplies : ∀ reply ∈ replies', reply ∈ replies) :
    ∃ final, (readAll readInts replies').events.foldlM (accumulate initialValue combine) acc =
      some final := by
  induction replies' generalizing acc with
  | nil => exact ⟨acc, rfl⟩
  | cons reply rest ih =>
    obtain ⟨hreply, hrest⟩ := List.forall_mem_cons.mp hreplies
    cases reply with
    | array values =>
      have hstep := accumulate_of_sized initialValue combine heven hacc hreply
      by_cases hints : AllInts values
      · have hread : (readInts (.array values)).error = none := by simp [readInts, hints]
        obtain ⟨final, hfold⟩ := ih (hacc.accumulated hreply hints) hrest
        refine ⟨final, ?_⟩
        rw [readAll_cons_wellFormed hread, List.foldlM_append]
        simpa [readInts, hstep] using hfold
      · have hread : (readInts (.array values)).error = some expectedIntegers := by
          simp [readInts, hints]
        rw [readAll_cons_malformed hread]
        exact ⟨_, by simp [readInts, hstep]; rfl⟩
    | _ => exact ⟨acc, rfl⟩

variable (initialValue combine) in
private theorem even_of_exists_fold
    (hfolds : ∀ replies', replies'.Perm replies → ∃ final,
      (readAll readInts replies').events.foldlM (accumulate initialValue combine) [] = some final) :
    EvenArrays replies := by
  intro values longer hvalues hlonger hne hints
  by_cases hsame : values = longer
  · rw [← hsame]
    exact leadingInts_length_le values
  obtain ⟨before, after, rfl⟩ := List.append_of_mem hvalues
  have hrest : .array longer ∈ before ++ after := by
    simpa [Ne.symm hsame] using hlonger
  obtain ⟨before', after', hsplit⟩ := List.append_of_mem hrest
  have hperm : (.array values :: .array longer :: (before' ++ after')).Perm
      (before ++ .array values :: after) := by
    refine List.Perm.trans (List.Perm.cons _ ?_) List.perm_middle.symm
    rw [hsplit]
    exact List.perm_middle.symm
  obtain ⟨final, hfold⟩ := hfolds _ hperm
  have hread : (readInts (.array values)).error = none := by simp [readInts, hints]
  have hevents : ∃ rest, (readAll readInts (.array longer :: (before' ++ after'))).events =
      (longer.length, leadingInts longer) :: rest := by
    cases hlong : (readInts (.array longer)).error with
    | none => exact ⟨_, by rw [readAll_cons_wellFormed hlong]; rfl⟩
    | some error => exact ⟨_, by rw [readAll_cons_malformed hlong]; rfl⟩
  obtain ⟨rest, hevents⟩ := hevents
  rw [readAll_cons_wellFormed hread, hevents] at hfold
  -- the first array gives the length, and the second has to fit in
  obtain ⟨acc, hfirst, hfold⟩ := Option.bind_eq_some_iff.mp hfold
  obtain ⟨next, hsecond, -⟩ := Option.bind_eq_some_iff.mp hfold
  have hacc : acc.length = values.length := by
    obtain ⟨-, rfl⟩ := accumulate_eq_some_iff.mp hfirst
    simp [startFrom]
  obtain ⟨hfit, -⟩ := accumulate_eq_some_iff.mp hsecond
  rwa [startFrom_of_length hne hacc, hacc] at hfit

private def place (initialValue : α) (combine : α → Int → α) (acc : List α)
    (event : Nat × List Int) : List α :=
  overlay combine (startFrom initialValue acc event.1) event.2

private theorem foldlM_accumulate {final : List α} {events : List (Nat × List Int)}
    (hfold : events.foldlM (accumulate initialValue combine) acc = some final) :
    final = events.foldl (place initialValue combine) acc := by
  induction events generalizing acc with
  | nil => exact (Option.some.inj hfold).symm
  | cons event events ih =>
    obtain ⟨next, hstep, hrest⟩ := Option.bind_eq_some_iff.mp hfold
    obtain ⟨-, rfl⟩ := accumulate_eq_some_iff.mp hstep
    exact ih hrest

private theorem place_nil (acc : List α) : place initialValue combine acc (0, []) = acc := by
  cases acc <;> simp [place, startFrom]

private theorem place_right_comm
    (hcomm : ∀ acc left right, combine (combine acc left) right = combine (combine acc right) left)
    {left right : List Int} (hlength : left ≠ [] → right ≠ [] → left.length = right.length)
    (acc : List α) :
    place initialValue combine (place initialValue combine acc (left.length, left))
        (right.length, right) =
      place initialValue combine (place initialValue combine acc (right.length, right))
        (left.length, left) := by
  by_cases hleft : left = []
  · subst hleft
    exact (congrArg (place initialValue combine · (right.length, right)) (place_nil acc)).trans
      (place_nil _).symm
  by_cases hright : right = []
  · subst hright
    exact (place_nil _).trans
      (congrArg (place initialValue combine · (left.length, left)) (place_nil acc).symm)
  have hkept : ∀ ints : List Int, ints ≠ [] → ∀ other : List Int,
      startFrom initialValue (place initialValue combine acc (ints.length, ints)) other.length =
        place initialValue combine acc (ints.length, ints) := by
    intro ints hints other
    refine if_neg ?_
    have hlength : 0 < ints.length := List.length_pos_iff.mpr hints
    simp only [List.isEmpty_iff, ← List.length_eq_zero_iff, place, overlay_length, startFrom]
    split_ifs with hempty
    · simp; omega
    · simpa using hempty
  unfold place at hkept ⊢
  simp only [hkept left hleft, hkept right hright]
  rw [hlength hleft hright]
  exact overlay_right_comm hcomm _ _ _

private theorem readAll_of_arrays
    (hreplies : ∀ reply ∈ replies, ∃ ints : List Int, reply = .array (ints.map .int)) :
    readAll readInts replies = ⟨replies.flatMap fun reply => (readInts reply).events, none⟩ := by
  refine readAll_of_wellFormed fun reply hreply => ?_
  obtain ⟨ints, rfl⟩ := hreplies reply hreply
  rw [readInts_map]

private theorem mem_events_of_arrays
    (hreplies : ∀ reply ∈ replies, ∃ ints : List Int, reply = .array (ints.map .int))
    {event : Nat × List Int}
    (hevent : event ∈ replies.flatMap fun reply => (readInts reply).events) :
    ∃ ints : List Int, .array (ints.map .int) ∈ replies ∧ event = (ints.length, ints) := by
  obtain ⟨reply, hreply, hmem⟩ := List.mem_flatMap.mp hevent
  obtain ⟨ints, rfl⟩ := hreplies reply hreply
  rw [readInts_map] at hmem
  exact ⟨ints, hreply, List.mem_singleton.mp hmem⟩

private theorem EvenArrays.length_eq (heven : EvenArrays replies) {left right : List Int}
    (hleft : .array (left.map .int) ∈ replies) (hright : .array (right.map .int) ∈ replies)
    (hne : left ≠ []) (hne' : right ≠ []) : left.length = right.length := by
  have hle : ∀ first second : List Int, .array (first.map .int) ∈ replies →
      .array (second.map .int) ∈ replies → first ≠ [] → second.length ≤ first.length := by
    intro first second hfirst hsecond hfirstNe
    have hfits := heven _ _ hfirst hsecond (by simpa using hfirstNe) (allInts_map first)
    simpa [leadingInts_map] using hfits
  exact Nat.le_antisymm (hle right left hright hleft hne') (hle left right hleft hright hne)

private theorem foldl_place_perm (heven : EvenArrays replies)
    (hcomm : ∀ acc left right, combine (combine acc left) right = combine (combine acc right) left)
    (hreplies : ∀ reply ∈ replies, ∃ ints : List Int, reply = .array (ints.map .int))
    (hperm : replies'.Perm replies) (acc : List α) :
    (replies'.flatMap fun reply => (readInts reply).events).foldl (place initialValue combine)
        acc =
      (replies.flatMap fun reply => (readInts reply).events).foldl (place initialValue combine)
        acc := by
  refine (List.Perm.foldl_eq' (hperm.symm.flatMap_right _) ?_ acc).symm
  intro left hleft right hright acc
  obtain ⟨ints, hints, rfl⟩ := mem_events_of_arrays hreplies hleft
  obtain ⟨ints', hints', rfl⟩ := mem_events_of_arrays hreplies hright
  exact place_right_comm hcomm (heven.length_eq hints hints') acc

variable (initialValue combine replies) in
theorem combineElementwise_safe_iff (finish : List α → Value) :
    (∀ replies', replies'.Perm replies → ∃ outcome,
      (finish <$> combineElementwise initialValue combine replies').run = some outcome) ↔
      EvenArrays replies := by
  constructor
  · intro hsafe
    refine even_of_exists_fold initialValue combine fun replies' hperm => ?_
    obtain ⟨outcome, hrun⟩ := hsafe replies' hperm
    rw [combineElementwise_eq_drive] at hrun
    obtain ⟨final, hfold, -⟩ := map_drive_run_eq_some_iff.mp hrun
    exact ⟨final, hfold⟩
  · intro heven replies' hperm
    obtain ⟨final, hfold⟩ :=
      exists_fold_of_even initialValue combine heven (.inl rfl) fun reply => hperm.mem_iff.mp
    rw [combineElementwise_eq_drive]
    exact ⟨_, map_drive_run_eq_some_iff.mpr ⟨final, hfold, rfl⟩⟩

theorem combineElementwise_same (heven : EvenArrays replies)
    (hcomm : ∀ acc left right, combine (combine acc left) right = combine (combine acc right) left)
    (hreplies : ∀ reply ∈ replies, ∃ ints : List Int, reply = .array (ints.map .int))
    {finish : List α → Value} (hperm : replies'.Perm replies) :
    ∃ value, (finish <$> combineElementwise initialValue combine replies).run = some (.ok value) ∧
      (finish <$> combineElementwise initialValue combine replies').run = some (.ok value) := by
  have hreplies' : ∀ reply ∈ replies', ∃ ints : List Int, reply = .array (ints.map .int) :=
    fun reply hreply => hreplies reply (hperm.mem_iff.mp hreply)
  obtain ⟨final, hfold⟩ :=
    exists_fold_of_even initialValue combine heven (.inl rfl) fun reply hreply => hreply
  obtain ⟨final', hfold'⟩ :=
    exists_fold_of_even initialValue combine heven (.inl rfl) fun reply => hperm.mem_iff.mp
  have hsame : final' = final := by
    rw [foldlM_accumulate hfold, foldlM_accumulate hfold', readAll_of_arrays hreplies,
      readAll_of_arrays hreplies']
    exact foldl_place_perm heven hcomm hreplies hperm []
  refine ⟨finish final, ?_, ?_⟩
  · rw [combineElementwise_eq_drive, map_drive_run_eq_some_iff]
    refine ⟨final, hfold, ?_⟩
    rw [readAll_of_arrays hreplies]
    rfl
  · rw [combineElementwise_eq_drive, map_drive_run_eq_some_iff]
    refine ⟨final', hfold', ?_⟩
    rw [readAll_of_arrays hreplies', hsame]
    rfl

theorem lawful_iff_evenArrays {aggregation : Aggregation} (finish : List α → Value)
    (hrun : ∀ overflow order values, aggregation.run overflow order values =
      finish <$> combineElementwise initialValue combine values)
    (hcomm : ∀ acc left right, combine (combine acc left) right = combine (combine acc right) left)
    (hexpects : ∀ reply, aggregation.Expects reply →
      ∃ ints : List Int, reply = .array (ints.map .int))
    (hsums : ∀ value, aggregation.SumsExactly replies value) :
    aggregation.Lawful replies ↔ EvenArrays replies := by
  have hsafe := combineElementwise_safe_iff initialValue combine replies finish
  constructor
  · intro hlawful
    refine hsafe.mp fun replies' hperm => ?_
    obtain ⟨outcome, houtcome⟩ := hlawful.safe ⟨id, fun _ => .refl _⟩ replies' hperm
    exact ⟨outcome, hrun .panics ⟨id, fun _ => .refl _⟩ replies' ▸ houtcome .panics⟩
  · intro heven
    constructor
    · intro order replies' hperm
      obtain ⟨outcome, houtcome⟩ := hsafe.mpr heven replies' hperm
      exact ⟨outcome, fun overflow => by rw [hrun, houtcome]⟩
    · intro hreplies overflow order overflow' order' replies' hperm
      obtain ⟨value, hvalue, hvalue'⟩ := combineElementwise_same heven hcomm
        (fun reply hreply => hexpects reply (hreplies reply hreply)) hperm
      refine ⟨value, value, ?_, ?_, .inl rfl, hsums value⟩
      · rw [hrun, hvalue]
      · rw [hrun, hvalue']

end Elementwise

/-! ## Maps -/

theorem readEntries_flatMap (entries : Counts) :
    readEntries (entries.flatMap fun entry => [.bulkString entry.1, .int entry.2]) =
      ⟨entries, none⟩ := by
  induction entries with
  | nil => rfl
  | cons entry entries ih => simp [readEntries, ih]

private theorem readAll_of_maps (hreplies : ∀ reply ∈ replies, combineMapResults.Expects reply) :
    readAll readMap replies = ⟨entriesOf replies, none⟩ := by
  refine readAll_of_wellFormed fun reply hreply => ?_
  obtain ⟨entries, rfl⟩ := hreplies reply hreply
  rw [readMap, readEntries_flatMap]

private theorem combineMapResults_of_maps (hfits : CountsInRange replies)
    (hperm : replies'.Perm replies)
    (hreplies : ∀ reply ∈ replies', combineMapResults.Expects reply) (overflow : Overflow)
    (order : CountOrder) :
    ∃ counts, Totals counts (entriesOf replies') ∧
      (combineMapResults.run overflow order replies').run =
        some (.ok (.map ((order.visit counts).map fun entry =>
          (.bulkString entry.1, .int entry.2)))) := by
  have hruns := hfits replies' hperm
  rw [readAll_of_maps hreplies] at hruns
  obtain ⟨counts, htotals, hfold⟩ := Totals.nil.foldlM_addCount hruns
  refine ⟨counts, htotals, ?_⟩
  rw [run, combineMapResults_eq_drive, map_drive_run_eq_some_iff, readAll_of_maps hreplies]
  exact ⟨counts, hfold overflow, rfl⟩

theorem combineMapResults_lawful_iff (replies : List Value) :
    combineMapResults.Lawful replies ↔ combineMapResults.Fits replies := by
  constructor
  · intro hlawful replies' hperm done hdone key
    obtain ⟨outcome, hrun⟩ := hlawful.safe ⟨id, fun _ => .refl _⟩ replies' hperm
    have hchecked := hrun .panics
    rw [run, combineMapResults_eq_drive] at hchecked
    obtain ⟨final, hfold, -⟩ := map_drive_run_eq_some_iff.mp hchecked
    exact Totals.nil.contains_of_foldlM_addCount (fun key => by rw [total_nil]; decide) hfold hdone
      key
  · intro hfits
    constructor
    · intro order replies' hperm
      obtain ⟨final, -, hfold⟩ := Totals.nil.foldlM_addCount (hfits replies' hperm)
      simp only [run, combineMapResults_eq_drive]
      exact exists_outcome_of_foldlM ⟨final, hfold⟩
    · intro hreplies overflow order overflow' order' replies' hperm
      have hreplies' : ∀ reply ∈ replies', combineMapResults.Expects reply :=
        fun reply hreply => hreplies reply (hperm.mem_iff.mp hreply)
      obtain ⟨counts, htotals, hvalue⟩ :=
        combineMapResults_of_maps hfits (.refl _) hreplies overflow order
      obtain ⟨counts', htotals', hvalue'⟩ :=
        combineMapResults_of_maps hfits hperm hreplies' overflow' order'
      have hcounts : counts.Perm counts' := htotals.perm htotals' (hperm.symm.flatMap_right _)
      refine ⟨_, _, hvalue, hvalue', .inr ⟨_, _, rfl, rfl, ?_⟩, _, rfl, ?_⟩
      · exact (((order.perm counts).trans hcounts).trans (order'.perm counts').symm).map _
      · intro key count
        rw [← htotals.mem_iff, ← (order.perm counts).mem_iff]
        simp

/-- Every aggregation is safe and independent of the order exactly for the replies that fit. -/
theorem lawful_iff_fits (aggregation : Aggregation) (replies : List Value) :
    aggregation.Lawful replies ↔ aggregation.Fits replies := by
  cases aggregation with
  | aggregate op => exact aggregate_lawful_iff op replies
  | aggregateArray op =>
    refine lawful_iff_evenArrays (fun results => .array (results.map .int)) (fun _ _ _ => rfl) ?_
      (fun _ hreply => hreply) fun _ => trivial
    intro acc left right
    cases op
    exact min_right_comm acc left right
  | logicalAggregate op =>
    refine lawful_iff_evenArrays
      (fun results : List Bool => .array (results.map fun result => .int result.toInt))
      (fun _ _ _ => rfl) ?_ (fun _ hreply => hreply) fun _ => trivial
    intro acc left right
    cases op
    exact Bool.and_right_comm acc _ _
  | combineMapResults => exact combineMapResults_lawful_iff replies

theorem aggregation_panics_or_wraps :
    (Cluster.aggregate .panics [.int (2 ^ 63 - 1), .int 1] .sum).run = none ∧
    (Cluster.aggregate .wraps [.int (2 ^ 63 - 1), .int 1] .sum).run =
      some (.ok (.int (-2 ^ 63))) ∧
    (Cluster.aggregateArray [.array [.int 1], .array [.int 1, .int 2]] .min).run = none ∧
    (Cluster.logicalAggregate [.array [.int 1], .array [.int 1, .int 2]] .and).run = none ∧
    (Cluster.combineMapResults .panics ⟨id, fun _ => .refl _⟩
      [.array [.bulkString [], .int (2 ^ 63 - 1)],
        .array [.bulkString [], .int 1]]).run = none := by
  refine ⟨rfl, rfl, rfl, rfl, rfl⟩

end Aggregation

end ValkeyGlide.Cluster
