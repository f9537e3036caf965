import ValkeyGlide.Cluster.Aggregate

/-!
# The two aggregators

`aggregateResults` waits for the replies of the nodes, `aggregateResolvedResults`
has them.  They should come to the same outcome, the first with the replies in
the order of arrival where the first good answer counts.  They do not under
`OneSucceeded` when an error arrives first: it is taken for a success of
`select_ok`, and the better replies are not waited for.
-/

namespace ValkeyGlide.Cluster

open Foundation Protocol

def outcomeOf (computation : Aggregated Value) : Option (Option Value) :=
  computation.run.map Except.toOption

/-- The same up to the order of the entries of a map. -/
def SameOutcome : Option (Option Value) → Option (Option Value) → Prop
  | some (some value), some (some value') => SameEntries value value'
  | outcome, outcome' => outcome = outcome'

def delivered (replies : List NodeReply) : List Receiver :=
  replies.map fun reply => (reply.1, .delivered (.ok (.single reply.2)))

def takesFirstAnswer : Option ResponsePolicy → Bool
  | some .oneSucceeded => true
  | some .firstSucceededNonEmptyOrAllEmpty => true
  | _ => false

/-- The replies as the policy looks at them, in the order of arrival or of the targets. -/
def considered (policy : Option ResponsePolicy) (replies arrived : List NodeReply) :
    List NodeReply :=
  if takesFirstAnswer policy then arrived else replies

/-- The first reply to arrive is no error, or there are only errors. -/
def FirstIsGood (arrived : List NodeReply) : Prop :=
  (∀ reply ∈ arrived.head?, isServerError reply.2 = false) ∨
    ∀ reply ∈ arrived, isServerError reply.2 = true

/-! ## Replies that were delivered -/

private theorem forM_delivered (replies : List NodeReply) :
    (delivered replies).forM (fun receiver => do let _ ← convertResult receiver.2) =
      (pure () : Aggregated PUnit) := by
  induction replies with
  | nil => rfl
  | cons reply replies ih => exact ih

private theorem mapM_delivered (replies : List NodeReply) :
    (delivered replies).mapM (fun receiver => do
      let value ← convertResult receiver.2
      return (receiver.1, value)) = (pure replies : Aggregated (List NodeReply)) := by
  induction replies with
  | nil => rfl
  | cons reply replies ih =>
    unfold delivered at ih ⊢
    rw [List.map_cons, List.mapM_cons, ih]
    rfl

theorem tryJoinAll_delivered (replies arrived : List NodeReply) :
    tryJoinAll (delivered replies) (delivered arrived) = pure replies := by
  unfold tryJoinAll
  rw [forM_delivered, mapM_delivered]
  rfl

theorem selectOk_delivered (lastErr : Option RedisError) (first : NodeReply)
    (rest : List NodeReply) :
    selectOk lastErr ((delivered (first :: rest)).map Prod.snd) =
      pure (serverErrorToResult first.2) := by
  cases lastErr <;> rfl

theorem firstNonEmptyArrival_delivered (numOfResults nilCounter : Nat)
    (lastErr : Option RedisError) (arrived : List NodeReply) :
    firstNonEmptyArrival numOfResults nilCounter lastErr ((delivered arrived).map Prod.snd) =
      liftExcept (firstNonEmpty numOfResults nilCounter lastErr (arrived.map Prod.snd)) := by
  induction arrived generalizing nilCounter lastErr with
  | nil =>
    simp only [delivered, List.map_nil, firstNonEmptyArrival, firstNonEmpty]
    split_ifs <;> rfl
  | cons reply arrived ih =>
    obtain ⟨address, value⟩ := reply
    cases value with
    | nil => exact ih (nilCounter + 1) lastErr
    | serverError error => exact ih nilCounter (some error.toRedisError)
    | _ => rfl

/-! ## One success -/

variable {value : Value} {values : List Value}

theorem serverErrorToResult_of_good (hvalue : isServerError value = false) :
    serverErrorToResult value = .ok value := by
  cases value <;> first | rfl | exact nomatch hvalue

theorem serverErrorToResult_of_error (hvalue : isServerError value = true) :
    ∃ error, serverErrorToResult value = .error error := by
  cases value with
  | serverError error => exact ⟨_, rfl⟩
  | _ => exact nomatch hvalue

theorem oneSucceeded_cons_of_good (lastErr : Option RedisError)
    (hvalue : isServerError value = false) (rest : List Value) :
    oneSucceeded lastErr (value :: rest) = .ok value := by
  cases value <;> first | rfl | exact nomatch hvalue

theorem oneSucceeded_succeeds (hmem : value ∈ values) (hgood : isServerError value = false)
    (lastErr : Option RedisError) : ∃ found, oneSucceeded lastErr values = .ok found := by
  induction values generalizing lastErr with
  | nil => contradiction
  | cons first rest ih =>
    cases hfirst : isServerError first with
    | false => exact ⟨first, oneSucceeded_cons_of_good lastErr hfirst rest⟩
    | true =>
      rcases List.mem_cons.mp hmem with rfl | hrest
      · rw [hgood] at hfirst
        contradiction
      · cases first with
        | serverError error => exact ih hrest (some error.toRedisError)
        | _ => exact nomatch hfirst

theorem oneSucceeded_fails (hbad : ∀ value ∈ values, isServerError value = true)
    (lastErr : Option RedisError) : ∃ error, oneSucceeded lastErr values = .error error := by
  induction values generalizing lastErr with
  | nil => exact ⟨_, rfl⟩
  | cons first rest ih =>
    obtain ⟨hfirst, hrest⟩ := List.forall_mem_cons.mp hbad
    cases first with
    | serverError error => exact ih hrest (some error.toRedisError)
    | _ => exact nomatch hfirst

/-! ## Agreement -/

section Agreement

variable (overflow : Overflow) (order order' : CountOrder) (routing : MultipleNodeRoutingInfo)

variable {replies : List NodeReply}

private theorem aggregateResults_eq_of_ne (hreplies : replies ≠ []) (arrived : List NodeReply)
    {policy : Option ResponsePolicy} (hpolicy : takesFirstAnswer policy = false) :
    aggregateResults overflow order (delivered replies) (delivered arrived) routing policy =
      aggregateResolvedResults overflow order replies routing policy := by
  have hnonempty : (delivered replies).isEmpty = false := by
    simpa [delivered] using hreplies
  have hjoin : aggregateResults overflow order (delivered replies) (delivered arrived) routing
      policy = (do
        let collected ← tryJoinAll (delivered replies) (delivered arrived)
        aggregateResolvedResults overflow order collected routing policy) := by
    unfold aggregateResults
    rw [hnonempty]
    cases policy with
    | none => rfl
    | some policy => cases policy <;> first | rfl | exact nomatch hpolicy
  rw [hjoin, tryJoinAll_delivered]
  rfl

private theorem aggregateResults_firstNonEmpty {arrived : List NodeReply} (hreplies : replies ≠ [])
    (hperm : arrived.Perm replies) :
    aggregateResults overflow order (delivered replies) (delivered arrived) routing
        (some .firstSucceededNonEmptyOrAllEmpty) =
      aggregateResolvedResults overflow order arrived routing
        (some .firstSucceededNonEmptyOrAllEmpty) := by
  have hnonempty : (delivered replies).isEmpty = false := by
    simpa [delivered] using hreplies
  have hlength : (delivered replies).length = (arrived.map Prod.snd).length := by
    simp [delivered, hperm.length_eq]
  unfold aggregateResults
  rw [hnonempty, hlength, if_neg (by simp)]
  exact firstNonEmptyArrival_delivered _ _ _ arrived

private theorem aggregateResults_oneSucceeded (hreplies : replies ≠ []) (first : NodeReply)
    (rest : List NodeReply) :
    aggregateResults overflow order (delivered replies) (delivered (first :: rest)) routing
        (some .oneSucceeded) = liftExcept (serverErrorToResult first.2) := by
  have hnonempty : (delivered replies).isEmpty = false := by
    simpa [delivered] using hreplies
  unfold aggregateResults
  rw [hnonempty, if_neg (by simp)]
  exact congrArg (· >>= liftExcept) (selectOk_delivered none first rest)

private theorem outcomeOf_ok (value : Value) :
    outcomeOf (liftExcept (.ok value : RedisResult Value)) = some (some value) := rfl

private theorem outcomeOf_error (error : RedisError) :
    outcomeOf (liftExcept (.error error : RedisResult Value)) = some none := rfl

private theorem SameOutcome.refl (outcome : Option (Option Value)) :
    SameOutcome outcome outcome := by
  rcases outcome with _ | _ | value
  · rfl
  · rfl
  · exact .inl rfl

private theorem sameOutcome_oneSucceeded_iff (reply : Value) (values : List Value) :
    SameOutcome (outcomeOf (liftExcept (serverErrorToResult reply)))
        (outcomeOf (liftExcept (oneSucceeded none (reply :: values)))) ↔
      outcomeOf (liftExcept (serverErrorToResult reply)) =
        outcomeOf (liftExcept (oneSucceeded none (reply :: values))) := by
  refine ⟨fun hsame => ?_, fun hsame => hsame ▸ SameOutcome.refl _⟩
  cases hreply : isServerError reply with
  | false =>
    rw [serverErrorToResult_of_good hreply, oneSucceeded_cons_of_good none hreply]
  | true =>
    obtain ⟨error, herror⟩ := serverErrorToResult_of_error hreply
    rw [herror, outcomeOf_error] at hsame ⊢
    exact hsame

/-- The order in which a map is visited shows in the order of its entries only. -/
private theorem aggregateResolvedResults_sameOutcome (policy : Option ResponsePolicy) :
    SameOutcome (outcomeOf (aggregateResolvedResults overflow order replies routing policy))
      (outcomeOf (aggregateResolvedResults overflow order' replies routing policy)) := by
  unfold aggregateResolvedResults
  split
  · exact SameOutcome.refl _
  · by_cases hmaps : policy = some .combineMaps
    · subst hmaps
      unfold aggregateByPolicy combineMapResults outcomeOf
      simp only [ExceptT.run_bind]
      rcases ((replies.map Prod.snd).foldlM (combineMapReply overflow) [] :
        Aggregated Counts).run with _ | _ | counts
      · rfl
      · rfl
      · exact .inr ⟨_, _, rfl, rfl, ((order.perm counts).trans (order'.perm counts).symm).map _⟩
    · have hsame : aggregateByPolicy overflow order replies routing policy =
          aggregateByPolicy overflow order' replies routing policy := by
        cases policy with
        | none => rfl
        | some policy => cases policy <;> first | rfl | contradiction
      rw [hsame]
      exact SameOutcome.refl _

private theorem outcome_oneSucceeded (first : NodeReply) (rest : List NodeReply) :
    (outcomeOf (liftExcept (serverErrorToResult first.2)) =
      outcomeOf (liftExcept (oneSucceeded none ((first :: rest).map Prod.snd))) ↔
        FirstIsGood (first :: rest)) ∧
    ((∃ reply ∈ first :: rest, isServerError reply.2 = false) →
      ((∃ value, outcomeOf (liftExcept (serverErrorToResult first.2)) = some (some value)) ↔
        FirstIsGood (first :: rest))) := by
  cases hfirst : isServerError first.2 with
  | false =>
    have hgood : FirstIsGood (first :: rest) := .inl (by simpa using hfirst)
    rw [serverErrorToResult_of_good hfirst, List.map_cons,
      oneSucceeded_cons_of_good none hfirst]
    exact ⟨iff_of_true rfl hgood, fun _ => iff_of_true ⟨first.2, rfl⟩ hgood⟩
  | true =>
    obtain ⟨error, herror⟩ := serverErrorToResult_of_error hfirst
    rw [herror, outcomeOf_error]
    by_cases hgood : ∃ reply ∈ first :: rest, isServerError reply.2 = false
    · obtain ⟨reply, hreply, hvalue⟩ := hgood
      obtain ⟨found, hfound⟩ := oneSucceeded_succeeds (List.mem_map_of_mem hreply) hvalue none
      have hbad : ¬ FirstIsGood (first :: rest) := by
        rintro (hhead | hall)
        · rw [hhead first rfl] at hfirst
          contradiction
        · rw [hall reply hreply] at hvalue
          contradiction
      rw [hfound, outcomeOf_ok]
      exact ⟨iff_of_false (by simp) hbad, fun _ => iff_of_false (by simp) hbad⟩
    · have hall : ∀ reply ∈ first :: rest, isServerError reply.2 = true := by
        simpa using hgood
      have hvalues : ∀ value ∈ (first :: rest).map Prod.snd, isServerError value = true := by
        intro value hvalue
        obtain ⟨reply, hreply, rfl⟩ := List.mem_map.mp hvalue
        exact hall reply hreply
      obtain ⟨last, hlast⟩ := oneSucceeded_fails hvalues none
      rw [hlast, outcomeOf_error]
      exact ⟨iff_of_true rfl (.inr hall), fun hsome => absurd hsome hgood⟩

/-- The aggregators agree for every policy and every order of arrival, except that
`OneSucceeded` needs a good reply to arrive first or none at all.  Each may visit its map in an
order of its own. -/
theorem aggregateResults_agrees_iff (policy : Option ResponsePolicy)
    (replies arrived : List NodeReply) (hreplies : replies ≠ []) (hperm : arrived.Perm replies) :
    (SameOutcome (outcomeOf (aggregateResults overflow order (delivered replies)
        (delivered arrived) routing policy))
      (outcomeOf (aggregateResolvedResults overflow order' (considered policy replies arrived)
        routing policy)) ↔ (policy = some .oneSucceeded → FirstIsGood arrived)) ∧
    (outcomeOf (aggregateResults overflow order (delivered replies) (delivered arrived) routing
        policy) =
      outcomeOf (aggregateResolvedResults overflow order (considered policy replies arrived) routing
        policy) ↔ (policy = some .oneSucceeded → FirstIsGood arrived)) ∧
    (policy = some .oneSucceeded → (∃ reply ∈ replies, isServerError reply.2 = false) →
      ((∃ value, outcomeOf (aggregateResults overflow order (delivered replies)
        (delivered arrived) routing policy) = some (some value)) ↔ FirstIsGood arrived)) := by
  by_cases hone : policy = some .oneSucceeded
  · subst hone
    cases arrived with
    | nil => exact absurd hperm.symm.eq_nil hreplies
    | cons first rest =>
      obtain ⟨hagree, hsuccess⟩ := outcome_oneSucceeded first rest
      rw [aggregateResults_oneSucceeded overflow order routing hreplies]
      simp only [forall_const]
      refine ⟨(sameOutcome_oneSucceeded_iff first.2 (rest.map Prod.snd)).trans hagree, hagree,
        fun hgood => hsuccess ?_⟩
      simpa only [hperm.mem_iff] using hgood
  · have hequal : aggregateResults overflow order (delivered replies) (delivered arrived) routing
        policy = aggregateResolvedResults overflow order (considered policy replies arrived)
          routing policy := by
      cases hpolicy : takesFirstAnswer policy with
      | false =>
        rw [aggregateResults_eq_of_ne overflow order routing hreplies arrived hpolicy]
        simp [considered, hpolicy]
      | true =>
        obtain rfl : policy = some .firstSucceededNonEmptyOrAllEmpty := by
          cases policy with
          | none => exact nomatch hpolicy
          | some policy => cases policy <;> first | rfl | contradiction
        rw [aggregateResults_firstNonEmpty overflow order routing hreplies hperm]
        rfl
    rw [hequal]
    exact ⟨iff_of_true (aggregateResolvedResults_sameOutcome ..) fun h => absurd h hone,
      iff_of_true rfl fun h => absurd h hone, fun h => absurd h hone⟩

end Agreement

private def busyNode : NodeReply := (some "a", .serverError (.knownError .busyLoadingError none))

private def readyNode : NodeReply := (some "b", .okay)

private def anyOrder : CountOrder := ⟨id, fun _ => .refl _⟩

theorem aggregateResults_agrees_ready_first :
    outcomeOf (aggregateResults .panics anyOrder (delivered [busyNode, readyNode])
      (delivered [readyNode, busyNode]) .allNodes (some .oneSucceeded)) = some (some .okay) := by
  have hperm : [readyNode, busyNode].Perm [busyNode, readyNode] := .swap _ _ _
  have hagree := (aggregateResults_agrees_iff .panics anyOrder anyOrder .allNodes
    (some .oneSucceeded) [busyNode, readyNode] [readyNode, busyNode] (by simp) hperm).2.1.mpr
    fun _ => .inl (by simp [readyNode, isServerError])
  exact hagree.trans rfl

theorem aggregateResults_busy_first_fails :
    outcomeOf (aggregateResults .panics anyOrder (delivered [busyNode, readyNode])
      (delivered [busyNode, readyNode]) .allNodes (some .oneSucceeded)) = some none ∧
    outcomeOf (aggregateResolvedResults .panics anyOrder [busyNode, readyNode] .allNodes
      (some .oneSucceeded)) = some (some .okay) :=
  ⟨rfl, rfl⟩

end ValkeyGlide.Cluster
