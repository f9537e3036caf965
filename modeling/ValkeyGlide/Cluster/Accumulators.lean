import ValkeyGlide.Foundation.Intake
import ValkeyGlide.Cluster.Aggregate

/-!
# Accumulating replies

Each aggregation reads the replies one after another and hands what it reads to
an accumulator: integers to a sum or a minimum, arrays to one array, entries to
a map of counts.  An accumulator stops where the source panics, a sum on
overflow and an array on a longer one; everything else that can go wrong is
found in reading.
-/

namespace ValkeyGlide.Cluster

open Foundation Protocol Reading

/-! ## Reading the replies -/

def asInt : Value → Option Int
  | .int int => some int
  | _ => none

def leadingInts : List Value → List Int
  | .int int :: rest => int :: leadingInts rest
  | _ => []

def AllInts (values : List Value) : Prop := ∀ value ∈ values, (asInt value).isSome

instance (values : List Value) : Decidable (AllInts values) :=
  inferInstanceAs (Decidable (∀ value ∈ values, (asInt value).isSome))

theorem leadingInts_cons_of_ne {value : Value} (hvalue : asInt value = none) (rest : List Value) :
    leadingInts (value :: rest) = [] := by
  cases value <;> first | rfl | exact nomatch hvalue

theorem leadingInts_length_le (values : List Value) :
    (leadingInts values).length ≤ values.length := by
  induction values with
  | nil => exact Nat.le_refl 0
  | cons value rest ih =>
    cases value with
    | int int => simpa [leadingInts] using ih
    | _ => exact Nat.zero_le _

def readInt : Value → Reading Int RedisError
  | .int int => ⟨[int], none⟩
  | _ => ⟨[], some expectedIntegers⟩

def readInts : Value → Reading (Nat × List Int) RedisError
  | .array values =>
    ⟨[(values.length, leadingInts values)],
      if AllInts values then none else some expectedIntegers⟩
  | _ => ⟨[], some expectedIntegers⟩

def readEntries : List Value → Reading (Bytes × Int) RedisError
  | [] => ⟨[], none⟩
  | .bulkString key :: .int value :: rest =>
    ⟨(key, value) :: (readEntries rest).events, (readEntries rest).error⟩
  | .bulkString _ :: _ => ⟨[], some (.withDescription .typeError "expected integer value")⟩
  | _ :: _ => ⟨[], some (.withDescription .typeError "expected string key")⟩

def readMap : Value → Reading (Bytes × Int) RedisError
  | .array elements => readEntries elements
  | _ => ⟨[], some expectedArrays⟩

/-! ## The accumulators -/

section Elementwise

variable {α : Type} (initialValue : α) (combine : α → Int → α)

def overlay : List α → List Int → List α
  | acc, [] => acc
  | [], _ => []
  | old :: acc, int :: ints => combine old int :: overlay acc ints

def startFrom (acc : List α) (length : Nat) : List α :=
  if acc.isEmpty then List.replicate length initialValue else acc

def accumulate (acc : List α) (event : Nat × List Int) : Option (List α) :=
  let acc := startFrom initialValue acc event.1
  if event.2.length ≤ acc.length then some (overlay combine acc event.2) else none

variable {initialValue} {combine}

theorem accumulate_eq_some_iff {acc next : List α} {event : Nat × List Int} :
    accumulate initialValue combine acc event = some next ↔
      event.2.length ≤ (startFrom initialValue acc event.1).length ∧
        overlay combine (startFrom initialValue acc event.1) event.2 = next := by
  simp [accumulate]

@[simp] theorem overlay_nil (acc : List α) : overlay combine acc [] = acc := by
  cases acc <;> rfl

@[simp] theorem overlay_length (acc : List α) (ints : List Int) :
    (overlay combine acc ints).length = acc.length := by
  induction acc generalizing ints with
  | nil => cases ints <;> rfl
  | cons old acc ih => cases ints <;> simp [overlay, ih]

theorem overlay_right_comm (hcomm : ∀ acc left right, combine (combine acc left) right =
    combine (combine acc right) left) (acc : List α) (left right : List Int) :
    overlay combine (overlay combine acc left) right =
      overlay combine (overlay combine acc right) left := by
  induction acc generalizing left right with
  | nil => cases left <;> cases right <;> rfl
  | cons old acc ih =>
    cases left with
    | nil => simp
    | cons first left =>
      cases right with
      | nil => simp
      | cons second right => simp [overlay, hcomm, ih]

private theorem combineAt_eq (combine : α → Int → α) (done acc : List α) (values : List Value) :
    combineAt combine (done ++ acc) done.length values =
      ExceptT.mk (if (leadingInts values).length ≤ acc.length then
        some (if AllInts values then .ok (done ++ overlay combine acc (leadingInts values))
          else .error expectedIntegers)
      else none) := by
  induction values generalizing done acc with
  | nil => simp [combineAt, leadingInts, AllInts]; rfl
  | cons value rest ih =>
    cases hvalue : asInt value with
    | none =>
      have hints : ¬ AllInts (value :: rest) := by simp [AllInts, hvalue]
      rw [leadingInts_cons_of_ne hvalue, List.length_nil, if_pos (Nat.zero_le _), if_neg hints]
      cases value <;> first | rfl | exact nomatch hvalue
    | some int =>
      obtain rfl : value = .int int := by
        cases value <;> simp_all [asInt]
      have hints : AllInts (.int int :: rest) ↔ AllInts rest := by simp [AllInts, asInt]
      cases acc with
      | nil => simp [combineAt, leadingInts, panicked]
      | cons old acc =>
        have hset : (done ++ old :: acc).set done.length (combine old int) =
            (done ++ [combine old int]) ++ acc := by simp
        have hlength : done.length + 1 = (done ++ [combine old int]).length := by simp
        have hold : (done ++ old :: acc)[done.length]? = some old := by simp
        simp only [combineAt, hold]
        rw [hset, hlength, ih]
        simp [leadingInts, overlay, hints]

theorem combineReply_eq_drive (acc : List α) (value : Value) :
    combineReply initialValue combine acc value =
      drive (accumulate initialValue combine) acc (readInts value) := by
  cases value with
  | array values =>
    have hloop := combineAt_eq combine [] (startFrom initialValue acc values.length) values
    simp only [List.nil_append, List.length_nil] at hloop
    rw [combineReply, ← startFrom, hloop]
    unfold drive readInts accumulate
    simp only [List.foldlM_cons, List.foldlM_nil]
    split_ifs <;> rfl
  | _ => rfl

theorem combineElementwise_eq_drive (values : List Value) :
    combineElementwise initialValue combine values =
      drive (accumulate initialValue combine) [] (readAll readInts values) := by
  rw [← foldlM_drive]
  unfold combineElementwise
  congr 1
  funext acc value
  exact combineReply_eq_drive acc value

end Elementwise

theorem aggregate_eq_drive (overflow : Overflow) (values : List Value) (op : AggregateOp) :
    aggregate overflow values op =
      Value.int <$> drive (op.combine overflow) op.initialValue (readAll readInt values) := by
  rw [← foldlM_drive]
  unfold aggregate
  have hstep : aggregateReply overflow op = fun acc value =>
      drive (op.combine overflow) acc (readInt value) := by
    funext acc value
    cases value with
    | int int =>
      unfold aggregateReply drive readInt
      simp only [List.foldlM_cons, List.foldlM_nil]
      cases op.combine overflow acc int <;> rfl
    | _ => rfl
  rw [hstep]
  rfl

theorem combineEntries_eq_drive (overflow : Overflow) (counts : Counts) (elements : List Value) :
    combineEntries overflow counts elements =
      drive (addCount overflow) counts (readEntries elements) := by
  fun_induction combineEntries overflow counts elements with
  | case1 counts => rfl
  | case2 counts key value rest ih =>
    unfold drive at ih ⊢
    simp only [readEntries, List.foldlM_cons]
    cases hadd : addCount overflow counts (key, value) with
    | none => rfl
    | some next => exact ih next
  | case3 counts key rest hnot =>
    cases rest with
    | nil => rfl
    | cons value rest =>
      cases value <;> first | rfl | exact absurd rfl (hnot _ _)
  | case4 counts element rest hkey hkey' =>
    cases element <;> first | rfl | exact absurd rfl (hkey' _)

theorem combineMapResults_eq_drive (overflow : Overflow) (order : CountOrder)
    (values : List Value) :
    combineMapResults overflow order values =
      (fun counts => Value.map ((order.visit counts).map fun entry =>
        (.bulkString entry.1, .int entry.2))) <$>
        drive (addCount overflow) [] (readAll readMap values) := by
  rw [← foldlM_drive]
  unfold combineMapResults
  have hstep : combineMapReply overflow = fun counts value =>
      drive (addCount overflow) counts (readMap value) := by
    funext counts value
    cases value with
    | array elements => exact combineEntries_eq_drive overflow counts elements
    | _ => rfl
  rw [hstep]
  rfl

/-! ## Counts of keys -/

def total (entries : Counts) (key : Bytes) : Int :=
  ((entries.filter fun entry => entry.1 == key).map Prod.snd).sum

theorem total_nil (key : Bytes) : total [] key = 0 := rfl

theorem total_concat_self (entries : Counts) (key : Bytes) (value : Int) :
    total (entries ++ [(key, value)]) key = total entries key + value := by
  simp [total]

theorem total_concat_of_ne (entries : Counts) {key other : Bytes} (hne : key ≠ other)
    (value : Int) : total (entries ++ [(key, value)]) other = total entries other := by
  simp [total, hne]

variable {entries : Counts}

theorem total_of_notMem {key : Bytes} (hkey : key ∉ entries.map Prod.fst) :
    total entries key = 0 := by
  have hnone : entries.filter (fun entry => entry.1 == key) = [] := by
    refine List.filter_eq_nil_iff.mpr fun entry hentry heq => hkey ?_
    rw [← beq_iff_eq.mp heq]
    exact List.mem_map_of_mem hentry
  simp [total, hnone]

theorem total_perm {entries' : Counts} (hperm : entries.Perm entries') (key : Bytes) :
    total entries key = total entries' key :=
  ((hperm.filter _).map Prod.snd).sum_eq

structure Totals (counts entries : Counts) : Prop where
  distinct : Assoc.Distinct counts
  lookup : ∀ key, Assoc.lookup counts key =
    if key ∈ entries.map Prod.fst then some (total entries key) else none

namespace Totals

variable {counts entries : Counts}

theorem nil : Totals [] [] := ⟨List.nodup_nil, fun _ => rfl⟩

section

variable (htotals : Totals counts entries) {more : Counts}
include htotals

theorem getD_lookup (key : Bytes) :
    (Assoc.lookup counts key).getD 0 = total entries key := by
  rw [htotals.lookup]
  split_ifs with hkey
  · rfl
  · exact (total_of_notMem hkey).symm

theorem mem_iff (key : Bytes) (count : Int) :
    (key, count) ∈ counts ↔ key ∈ entries.map Prod.fst ∧ count = total entries key := by
  rw [← Assoc.lookup_eq_some_iff htotals.distinct, htotals.lookup]
  split_ifs with hkey
  · simp [hkey, eq_comm]
  · simp [hkey]

theorem push (key : Bytes) (value : Int) :
    Totals ((key, total entries key + value) :: Assoc.erase counts key)
      (entries ++ [(key, value)]) where
  distinct := htotals.distinct.cons_erase key _
  lookup := by
    intro other
    by_cases hother : key = other
    · subst hother
      simp [Assoc.lookup, total_concat_self]
    · have hkept : Assoc.lookup ((key, total entries key + value) :: Assoc.erase counts key) other =
          Assoc.lookup counts other := by
        simp only [Assoc.lookup, Assoc.erase]
        rw [List.find?_cons_of_neg (by simpa using hother), List.find?_filter]
        congr 2
        funext entry
        by_cases hentry : entry.1 = other <;> simp [hentry, Ne.symm hother]
      have hmem : other ∈ (entries ++ [(key, value)]).map Prod.fst ↔
          other ∈ entries.map Prod.fst := by
        simp [Ne.symm hother]
      rw [hkept, htotals.lookup, total_concat_of_ne _ hother]
      exact if_congr hmem.symm rfl rfl

theorem addCount_eq (overflow : Overflow) (key : Bytes) (value : Int) :
    addCount overflow counts (key, value) =
      (i64.result overflow (total entries key + value)).map fun sum =>
        (key, sum) :: Assoc.erase counts key := by
  simp only [addCount, htotals.getD_lookup, MachineInt.add]
  cases i64.result overflow (total entries key + value) <;> rfl

theorem foldlM_addCount
    (hruns : ∀ done, done <+: more → ∀ key, i64.Contains (total (entries ++ done) key)) :
    ∃ final, Totals final (entries ++ more) ∧
      ∀ overflow, more.foldlM (addCount overflow) counts = some final := by
  induction more generalizing counts entries with
  | nil => exact ⟨counts, by simpa using htotals, fun _ => rfl⟩
  | cons entry more ih =>
    obtain ⟨key, value⟩ := entry
    have hcontains : i64.Contains (total entries key + value) := by
      rw [← total_concat_self]
      exact hruns [(key, value)] (by simp) key
    obtain ⟨final, hfinal, hfold⟩ := ih (htotals.push key value) fun done hdone other => by
      rw [List.append_assoc]
      exact hruns ((key, value) :: done) (List.cons_prefix_cons.mpr ⟨rfl, hdone⟩) other
    refine ⟨final, by simpa using hfinal, fun overflow => ?_⟩
    rw [List.foldlM_cons, htotals.addCount_eq, MachineInt.result_of_contains hcontains]
    exact hfold overflow

theorem contains_of_foldlM_addCount (hstart : ∀ key, i64.Contains (total entries key))
    {final : Counts} (hfold : more.foldlM (addCount .panics) counts = some final) {done : Counts}
    (hdone : done <+: more) (key : Bytes) : i64.Contains (total (entries ++ done) key) := by
  induction more generalizing counts entries done with
  | nil =>
    rw [List.prefix_nil.mp hdone, List.append_nil]
    exact hstart key
  | cons entry more ih =>
    obtain ⟨first, value⟩ := entry
    cases done with
    | nil =>
      rw [List.append_nil]
      exact hstart key
    | cons head done =>
      obtain ⟨rfl, htail⟩ := List.cons_prefix_cons.mp hdone
      rw [List.foldlM_cons, htotals.addCount_eq] at hfold
      obtain ⟨next, hadd, hrest⟩ := Option.bind_eq_some_iff.mp hfold
      obtain ⟨sum, hsum, rfl⟩ := Option.map_eq_some_iff.mp hadd
      obtain ⟨hcontains, rfl⟩ := MachineInt.result_panics_eq_some.mp hsum
      rw [List.append_cons]
      refine ih (htotals.push first value) (fun other => ?_) hrest htail
      by_cases hother : first = other
      · rw [← hother, total_concat_self]
        exact hcontains
      · rw [total_concat_of_ne _ hother]
        exact hstart other

theorem perm {counts' entries' : Counts}
    (htotals' : Totals counts' entries') (hperm : entries.Perm entries') : counts.Perm counts' := by
  refine (List.perm_ext_iff_of_nodup (List.Nodup.of_map _ htotals.distinct)
    (List.Nodup.of_map _ htotals'.distinct)).mpr ?_
  rintro ⟨key, count⟩
  rw [htotals.mem_iff, htotals'.mem_iff, total_perm hperm, (hperm.map Prod.fst).mem_iff]

end

end Totals

end ValkeyGlide.Cluster
