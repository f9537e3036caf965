import ValkeyGlide.Cluster.Answering
import ValkeyGlide.Cluster.Flush
import ValkeyGlide.Foundation.Log

/-!
# The attempts of a request

How often a request is dispatched over a whole run.  Wherever a request waits, its
retry counter is the number of its attempts so far; while an attempt is under way it
is one less.  So the budget of retries bounds the attempts, whichever ways the
request takes between them.
-/

namespace ValkeyGlide.Cluster

open Protocol Foundation

variable {Conn : Type} {action : Next Conn}

/-! ## Requests that go on -/

namespace Next

def dispatched : Next Conn → Option (PendingRequest Conn)
  | .retry request => some request
  | .retryBusyLoadingError request _ => some request
  | .refreshSlots (some request) false none => some request
  | _ => none

theorem request?_of_requeued {action : Next Conn} {request : PendingRequest Conn}
    (hrequeued : action.requeued = some request) : action.request? = some request := by
  cases action <;> first | exact hrequeued | contradiction

end Next

namespace PollResult

def request? : PollResult Conn → Option (PendingRequest Conn)
  | .pending request => request.request
  | .ready action _ => action.request?

def dispatched : PollResult Conn → Option (PendingRequest Conn)
  | .pending _ => none
  | .ready action _ => action.dispatched

end PollResult

/-- A request and whether an attempt is under way. -/
abbrev Charge (Conn : Type) := PendingRequest Conn × Bool

namespace Charge

def sender (charge : Charge Conn) : Nat := charge.1.sender

def due (charge : Charge Conn) : Nat := charge.1.retry + charge.2.toNat

/-- The request is the one of the charge, after a failed attempt if one was under way. -/
structure Carries (numberOfRetries : Nat) (charge : Charge Conn)
    (request : PendingRequest Conn) : Prop where
  sender : request.sender = charge.sender
  retry : request.retry = charge.due
  left : charge.2 = true → charge.1.retry < numberOfRetries

end Charge

def Request.charge? (request : Request Conn) : Option (Charge Conn) :=
  request.request.map fun pending => (pending, decide (request.state = .future))

theorem Next.charge_pushed {charge : Charge Conn}
    (hcharge : action.pushed.bind Request.charge? = some charge) :
    action.request? = some charge.1 ∧ (charge.2 = true → action.dispatched = some charge.1) := by
  cases action with
  | done | reconnect | reconnectToInitialNodes => contradiction
  | retry request | retryBusyLoadingError request =>
    cases hcharge
    exact ⟨rfl, fun _ => rfl⟩
  | refreshSlots request sleeps movedRedirect =>
    cases request with
    | none => cases movedRedirect <;> contradiction
    | some request =>
      cases movedRedirect with
      | some redirect =>
        cases hcharge
        exact ⟨rfl, fun hrunning => nomatch hrunning⟩
      | none =>
        cases sleeps with
        | true =>
          cases hcharge
          exact ⟨rfl, fun hrunning => nomatch hrunning⟩
        | false =>
          cases hcharge
          exact ⟨rfl, fun _ => rfl⟩

theorem Next.pushed_of_dispatched {request : PendingRequest Conn}
    (hdispatched : action.dispatched = some request) :
    action.pushed = some (.dispatched request) ∧ action.request? = some request := by
  cases action with
  | done | reconnect | reconnectToInitialNodes => contradiction
  | retry | retryBusyLoadingError =>
    cases hdispatched
    exact ⟨rfl, rfl⟩
  | refreshSlots held sleeps movedRedirect =>
    cases held <;> cases sleeps <;> cases movedRedirect <;>
      first | contradiction | (obtain ⟨⟩ := hdispatched; exact ⟨rfl, rfl⟩)

namespace Request

section Poll

variable {context : PollContext} {request : PendingRequest Conn} {result : PollResult Conn}
  {error : RedisError} {numberOfRetries : Nat} {action : Next Conn} {answer : Option Answer}
  {charge : Charge Conn}

structure Continues (numberOfRetries : Nat) (charge : Charge Conn) (result : PollResult Conn) :
    Prop where
  carries : ∀ carried ∈ result.request?, charge.Carries numberOfRetries carried
  asleep : ∀ other, result = .pending other → other.state = .sleep

theorem continues_ready (hcarries : ∀ carried, action.request? = some carried →
      charge.Carries numberOfRetries carried) :
    Continues numberOfRetries charge (.ready action answer) :=
  ⟨hcarries, fun _ hpending => nomatch hpending⟩

theorem continues_none (hnone : action.request? = none) :
    Continues numberOfRetries charge (.ready action answer) := by
  refine continues_ready fun carried hcarried => ?_
  rw [hnone] at hcarried
  contradiction

theorem Failed.continues {lost : Bool} (hleft : request.retry < numberOfRetries)
    (hfailed : Failed { request with retry := request.retry + 1 } error lost result) :
    Continues numberOfRetries (request, true) result := by
  cases hfailed with
  | answered haction | lost haction => exact continues_none haction
  | goesOn haction =>
    refine continues_ready fun carried hcarried => ?_
    rw [haction] at hcarried
    cases hcarried
    exact ⟨rfl, rfl, fun _ => hleft⟩
  | sleeps =>
    refine ⟨fun carried hcarried => ?_, fun other hother => ?_⟩
    · cases hcarried
      exact ⟨rfl, rfl, fun _ => hleft⟩
    · cases hother
      rfl

theorem poll_continues {request : Request Conn} {isClosed : Nat → Bool} {polled : Polled}
    (hpoll : request.poll context numberOfRetries isClosed polled = some result) :
    result = .ready .done none ∨
      ∃ charge, request.charge? = some charge ∧ Continues numberOfRetries charge result := by
  cases poll_polls hpoll with
  | gone => exact .inl rfl
  | @woken pending state _ _ hstate =>
    refine .inr ⟨(pending, false), by simp [charge?, hstate], continues_ready ?_⟩
    intro carried hcarried
    cases hcarried
    exact ⟨rfl, rfl, fun hrunning => nomatch hrunning⟩
  | answered _ _ haction => exact .inr ⟨_, rfl, continues_none haction⟩
  | failed _ hleft _ hfailed => exact .inr ⟨_, rfl, hfailed.continues hleft⟩

end Poll

end Request

/-! ## Dispatches -/

namespace ClusterConn

variable {params : ClusterParams} {conn next : ClusterConn Conn} {action : Action Conn}

def dispatches (params : ClusterParams) (conn : ClusterConn Conn) :
    Action Conn → List (PendingRequest Conn)
  | .beginFlush position poll =>
    match conn.sendRefreshError position with
    | none => []
    | some sent =>
      match sent.recoveryResult poll with
      | some (some (.ok ())) =>
        (sent.recoveryQueue ++ sent.pendingRequests).filter sent.isOpen
      | _ => []
  | .poll context position polled =>
    ((conn.inFlightRequests[position]?.bind fun request =>
      request.poll context params.numberOfRetries conn.isClosed polled).bind
        PollResult.dispatched).toList
  | .submit _ _ | .giveUp _ | .endFlush => []

def charges (conn : ClusterConn Conn) : List (Charge Conn) :=
  conn.pendingRequests.map (·, false) ++
    (conn.recoveryQueue.map (·, false) ++ conn.inFlightRequests.filterMap Request.charge?)

theorem charges_senders (conn : ClusterConn Conn) : conn.charges.map Charge.sender = conn.held := by
  have hinFlight : ∀ request : Request Conn, request.charge?.map Charge.sender = request.sender? := by
    intro request
    cases hrequest : request.request <;> simp [Request.charge?, Request.sender?, hrequest]
    rfl
  simp only [charges, held, List.map_append, List.map_map, List.map_filterMap, hinFlight]
  rfl

variable {charge : Charge Conn} {position : Nat} {context : PollContext} {polled : Polled}
  {request : Request Conn}

theorem mem_charges :
    charge ∈ conn.charges ↔
      charge.2 = false ∧ (charge.1 ∈ conn.pendingRequests ∨ charge.1 ∈ conn.recoveryQueue) ∨
        ∃ request ∈ conn.inFlightRequests, request.charge? = some charge := by
  obtain ⟨request, running⟩ := charge
  simp only [charges, List.mem_append, List.mem_map, Prod.mk.injEq, List.mem_filterMap]
  constructor
  · rintro (⟨other, hother, rfl, rfl⟩ | ⟨other, hother, rfl, rfl⟩ | hinFlight)
    · exact .inl ⟨rfl, .inl hother⟩
    · exact .inl ⟨rfl, .inr hother⟩
    · exact .inr hinFlight
  · rintro (⟨hwaits, hpending | hqueued⟩ | hinFlight)
    · exact .inl ⟨request, hpending, rfl, hwaits.symm⟩
    · exact .inr (.inl ⟨request, hqueued, rfl, hwaits.symm⟩)
    · exact .inr (.inr hinFlight)

/-- Where a request that waits or is tried after the step was before it. -/
inductive Origin (params : ClusterParams) (conn : ClusterConn Conn) (action : Action Conn) :
    Charge Conn → Prop
  | kept {charge : Charge Conn} (hkept : charge ∈ conn.charges) : Origin params conn action charge
  | submitted {request : PendingRequest Conn} (hnew : request.sender ∉ conn.submitted)
      (hretry : request.retry = 0) : Origin params conn action (request, false)
  | waits {charge : Charge Conn} {request : PendingRequest Conn} (hcharge : charge ∈ conn.charges)
      (hcarries : charge.Carries params.numberOfRetries request) :
      Origin params conn action (request, false)
  | dispatched {request : PendingRequest Conn}
      (hdispatched : request ∈ dispatches params conn action) :
      Origin params conn action (request, true)

theorem Delivered.charges_subset {given : List Answer}
    (hdelivered : Delivered conn position given next) :
    ∀ charge ∈ next.charges, charge ∈ conn.charges := by
  intro charge hcharge
  rw [mem_charges] at hcharge ⊢
  cases hdelivered with
  | none => exact hcharge
  | inFlight =>
    refine hcharge.imp_right ?_
    rintro ⟨request, hrequest, hcharge⟩
    rcases List.mem_or_eq_of_mem_set hrequest with hmem | rfl
    · exact ⟨request, hmem, hcharge⟩
    · contradiction
  | pending _ hpending =>
    refine hcharge.imp_left fun ⟨hwaits, hplace⟩ => ⟨hwaits, hplace.imp_left fun hmem => ?_⟩
    rw [hpending]
    exact List.mem_cons_of_mem _ hmem

theorem Flushed.origin {poll : RecoverPoll} {sent : ClusterConn Conn}
    (hsent : conn.sendRefreshError position = some sent)
    (hsubset : ∀ charge ∈ sent.charges, charge ∈ conn.charges)
    (hflushed : Flushed params poll sent next) :
    ∀ charge ∈ next.charges, Origin params conn (.beginFlush position poll) charge := by
  intro charge hcharge
  cases hflushed with
  | held _ hqueued =>
    refine .kept (hsubset charge (mem_charges.mpr ?_))
    rcases mem_charges.mp hcharge with ⟨hwaits, hpending | hqueue⟩ | hinFlight
    · contradiction
    · exact .inl ⟨hwaits, (List.mem_append.mp (hqueued.sublist.subset hqueue)).symm⟩
    · exact .inr hinFlight
  | failed =>
    refine .kept (hsubset charge (mem_charges.mpr ?_))
    rcases mem_charges.mp hcharge with ⟨-, hpending | hqueue⟩ | hinFlight
    · contradiction
    · contradiction
    · exact .inr hinFlight
  | started hresult =>
    rcases mem_charges.mp hcharge with ⟨-, hpending | hqueue⟩ | ⟨request, hrequest, hcharge⟩
    · contradiction
    · contradiction
    · rcases List.mem_append.mp hrequest with hinFlight | hdispatched
      · exact .kept (hsubset charge (mem_charges.mpr (.inr ⟨request, hinFlight, hcharge⟩)))
      · obtain ⟨pending, hpending, rfl⟩ := List.mem_map.mp hdispatched
        cases hcharge
        refine .dispatched ?_
        simpa only [dispatches, hsent, hresult] using hpending

section

variable (hrequest : conn.inFlightRequests[position]? = some request) {result : PollResult Conn}
include hrequest

theorem poll_carried
    (hresult : request.poll context params.numberOfRetries conn.isClosed polled = some result) :
    (∀ other, result = .pending other → other.state = .sleep) ∧
      ∀ carried ∈ result.request?, ∃ charge ∈ conn.charges,
        charge.Carries params.numberOfRetries carried := by
  rcases Request.poll_continues hresult with rfl | ⟨charge, hcharge, hcontinues⟩
  · constructor
    · exact fun _ hpending => nomatch hpending
    · exact fun _ hcarried => nomatch hcarried
  · refine ⟨hcontinues.asleep, fun carried hcarried => ?_⟩
    exact ⟨charge, mem_charges.mpr (.inr ⟨request, List.mem_of_getElem? hrequest, hcharge⟩),
      hcontinues.carries carried hcarried⟩

theorem origin_of_pushed {next : Next Conn} {answer : Option Answer}
    (hresult : request.poll context params.numberOfRetries conn.isClosed polled =
      some (.ready next answer)) (hpushed : next.pushed.bind Request.charge? = some charge) :
    Origin params conn (.poll context position polled) charge := by
  obtain ⟨hcarried, hrunning⟩ := Next.charge_pushed hpushed
  obtain ⟨carried, running⟩ := charge
  cases running with
  | false =>
    obtain ⟨origin, horigin, hcarries⟩ := (poll_carried hrequest hresult).2 carried hcarried
    exact .waits horigin hcarries
  | true =>
    refine .dispatched ?_
    rw [dispatches, hrequest, Option.bind_some, hresult, Option.bind_some,
      PollResult.dispatched, hrunning rfl]
    simp

theorem Advanced.origin
    (hresult : request.poll context params.numberOfRetries conn.isClosed polled = some result)
    (hadvanced : Advanced conn position result next) :
    ∀ charge ∈ next.charges, Origin params conn (.poll context position polled) charge := by
  intro charge hcharge
  obtain ⟨hasleep, hcarries⟩ := poll_carried hrequest hresult
  cases hadvanced with
  | @pending other =>
    rcases mem_charges.mp hcharge with hplace | ⟨held, hheld, hheldCharge⟩
    · exact .kept (mem_charges.mpr (.inl hplace))
    · rcases List.mem_or_eq_of_mem_set hheld with hmem | rfl
      · exact .kept (mem_charges.mpr (.inr ⟨held, hmem, hheldCharge⟩))
      · obtain ⟨carried, hcarried, rfl⟩ := Option.map_eq_some_iff.mp hheldCharge
        obtain ⟨origin, horigin, hcarries⟩ := hcarries carried hcarried
        rw [hasleep held rfl]
        exact .waits horigin hcarries
  | @ready action =>
    rcases mem_charges.mp hcharge with ⟨hwaits, hplace⟩ | ⟨held, hheld, hheldCharge⟩
    · obtain ⟨waiting, running⟩ := charge
      obtain rfl : running = false := hwaits
      rcases hplace with hpending | hqueued
      · rcases List.mem_append.mp hpending with hpending | hrequeued
        · exact .kept (mem_charges.mpr (.inl ⟨rfl, .inl hpending⟩))
        · obtain ⟨origin, horigin, hcarries⟩ := hcarries waiting
            (Next.request?_of_requeued (Option.mem_toList.mp hrequeued))
          exact .waits horigin hcarries
      · exact .kept (mem_charges.mpr (.inl ⟨rfl, .inr hqueued⟩))
    · rcases List.mem_append.mp hheld with hmem | hpushed
      · have hinFlight := List.mem_of_mem_eraseIdx hmem
        exact .kept (mem_charges.mpr (.inr ⟨held, hinFlight, hheldCharge⟩))
      · refine origin_of_pushed hrequest hresult ?_
        rw [Option.mem_toList.mp hpushed]
        exact hheldCharge

end

theorem step_origin (hstep : Stepped params conn action next) :
    ∀ charge ∈ next.charges, Origin params conn action charge := by
  intro charge hcharge
  cases hstep with
  | submit hnew =>
    rcases mem_charges.mp hcharge with ⟨hwaits, hpending | hqueued⟩ | hinFlight
    · rcases List.mem_append.mp hpending with hpending | hsubmitted
      · exact .kept (mem_charges.mpr (.inl ⟨hwaits, .inl hpending⟩))
      · obtain ⟨request, running⟩ := charge
        obtain rfl : running = false := hwaits
        obtain rfl := List.mem_singleton.mp hsubmitted
        exact .submitted hnew rfl
    · exact .kept (mem_charges.mpr (.inl ⟨hwaits, .inr hqueued⟩))
    · exact .kept (mem_charges.mpr (.inr hinFlight))
  | giveUp => exact .kept hcharge
  | beginFlush _ hsent hdelivered hflushed =>
    exact hflushed.origin hsent hdelivered.charges_subset charge hcharge
  | poll _ hrequest hresult hadvanced => exact hadvanced.origin hrequest hresult charge hcharge
  | endFlush => exact .kept hcharge

theorem dispatches_carried (hstep : Stepped params conn action next) :
    ∀ request ∈ dispatches params conn action, ∃ charge ∈ conn.charges,
      charge.Carries params.numberOfRetries request := by
  intro request hdispatched
  cases hstep with
  | submit | giveUp | endFlush => contradiction
  | @beginFlush position poll given sent next _ hsent hdelivered hflushed =>
    simp only [dispatches, hsent] at hdispatched
    split at hdispatched
    · have hplace := List.mem_append.mp (List.mem_filter.mp hdispatched).1
      have hwaited : (request, false) ∈ sent.charges :=
        mem_charges.mpr (.inl ⟨rfl, hplace.symm⟩)
      exact ⟨_, hdelivered.charges_subset _ hwaited, rfl, rfl, fun hrunning => nomatch hrunning⟩
    · contradiction
  | @poll context position polled held result next _ hrequest hresult hadvanced =>
    rw [dispatches, hrequest, Option.bind_some, hresult, Option.bind_some,
      Option.mem_toList] at hdispatched
    refine (poll_carried hrequest hresult).2 request ?_
    cases result with
    | pending => contradiction
    | ready action => exact (Next.pushed_of_dispatched hdispatched).2

theorem dispatches_sublist (hstep : Stepped params conn action next) :
    ((dispatches params conn action).map (·, true)).Sublist next.charges := by
  cases hstep with
  | submit | giveUp | endFlush => exact List.nil_sublist _
  | beginFlush _ hsent hdelivered hflushed =>
    cases hflushed with
    | held hresult | failed hresult =>
      simp only [dispatches, hsent, hresult]
      exact List.nil_sublist _
    | started hresult =>
      have hcharges : ∀ requests : List (PendingRequest Conn),
          (requests.map Request.dispatched).filterMap Request.charge? =
            requests.map (·, true) := by
        intro requests
        rw [List.filterMap_map]
        show requests.filterMap (some ∘ fun request => (request, true)) = _
        rw [List.filterMap_eq_map]
      simp only [dispatches, hsent, hresult, charges, List.filterMap_append, hcharges]
      exact List.sublist_append_right _ _
  | poll _ hrequest hresult hadvanced =>
    rw [dispatches, hrequest, Option.bind_some, hresult, Option.bind_some]
    cases hadvanced with
    | pending => exact List.nil_sublist _
    | @ready action =>
      cases hdispatched : action.dispatched with
      | none =>
        rw [PollResult.dispatched, hdispatched]
        exact List.nil_sublist _
      | some request =>
        rw [PollResult.dispatched, hdispatched]
        have hpushed := (Next.pushed_of_dispatched hdispatched).1
        simp only [charges, hpushed, List.filterMap_append]
        exact (List.sublist_append_right _ _).trans
          ((List.sublist_append_right _ _).trans (List.sublist_append_right _ _))

/-! ## Runs -/

theorem Distinct.charge_unique (hdistinct : Distinct conn) {first second : Charge Conn}
    (hfirst : first ∈ conn.charges) (hsecond : second ∈ conn.charges)
    (hsender : first.sender = second.sender) : first = second := by
  have hnodup : (conn.charges.map Charge.sender).Nodup := by
    rw [charges_senders]
    exact (List.nodup_append.mp hdistinct.once).1
  exact List.inj_on_of_nodup_map hnodup hfirst hsecond hsender

theorem Distinct.charge_submitted (hdistinct : Distinct conn) (hcharge : charge ∈ conn.charges) :
    charge.sender ∈ conn.submitted := by
  refine hdistinct.submitted _ (List.mem_append_left _ ?_)
  rw [← charges_senders]
  exact List.mem_map_of_mem hcharge

def attempts (log : List (PendingRequest Conn)) (sender : Nat) : Nat :=
  (log.map PendingRequest.sender).count sender

theorem attempts_append (first second : List (PendingRequest Conn)) (sender : Nat) :
    attempts (first ++ second) sender = attempts first sender + attempts second sender := by
  rw [attempts, List.map_append, List.count_append]
  rfl

theorem attempts_dispatches (hdistinct : Distinct next) (hstep : Stepped params conn action next)
    (sender : Nat) :
    attempts (dispatches params conn action) sender = 0 ∧
        (∀ request ∈ dispatches params conn action, request.sender ≠ sender) ∨
      attempts (dispatches params conn action) sender = 1 ∧
        ∃ request ∈ dispatches params conn action, request.sender = sender ∧
          (request, true) ∈ next.charges := by
  have hsublist := dispatches_sublist hstep
  have hnodup : ((dispatches params conn action).map PendingRequest.sender).Nodup := by
    have hsenders := hsublist.map Charge.sender
    rw [charges_senders, List.map_map] at hsenders
    exact hsenders.nodup (List.nodup_append.mp hdistinct.once).1
  by_cases hmem : sender ∈ (dispatches params conn action).map PendingRequest.sender
  · obtain ⟨request, hrequest, hsender⟩ := List.mem_map.mp hmem
    exact .inr ⟨List.count_eq_one_of_mem hnodup hmem, request, hrequest, hsender,
      hsublist.subset (List.mem_map_of_mem hrequest)⟩
  · refine .inl ⟨List.count_eq_zero_of_not_mem hmem, fun request hrequest hsender => ?_⟩
    exact hmem (hsender ▸ List.mem_map_of_mem hrequest)

structure Counted (numberOfRetries : Nat) (log : List (PendingRequest Conn))
    (conn : ClusterConn Conn) : Prop where
  distinct : Distinct conn
  retry : ∀ charge ∈ conn.charges, charge.1.retry ≤ numberOfRetries
  due : ∀ charge ∈ conn.charges, attempts log charge.sender = charge.due
  unsubmitted : ∀ sender, sender ∉ conn.submitted → attempts log sender = 0
  bounded : ∀ sender, attempts log sender ≤ numberOfRetries + 1

theorem new_counted (numberOfRetries : Nat) :
    Counted numberOfRetries [] (new : ClusterConn Conn) :=
  ⟨new_distinct, by simp [charges, new], by simp [charges, new], fun _ _ => rfl,
    fun _ => Nat.zero_le _⟩

variable {log : List (PendingRequest Conn)}

theorem Counted.retry_of_carries (hcounted : Counted params.numberOfRetries log conn)
    {request : PendingRequest Conn} (hcharge : charge ∈ conn.charges)
    (hcarries : charge.Carries params.numberOfRetries request) :
    request.retry ≤ params.numberOfRetries := by
  have hretry := hcounted.retry charge hcharge
  obtain ⟨held, running⟩ := charge
  rw [hcarries.retry]
  cases running with
  | false => exact hretry
  | true => exact hcarries.left rfl

theorem Stepped.submitted_subset (hstep : Stepped params conn action next) :
    ∀ sender ∈ conn.submitted, sender ∈ next.submitted := by
  intro sender hsender
  cases hstep with
  | submit => exact List.mem_append_left _ hsender
  | giveUp | endFlush => exact hsender
  | beginFlush _ _ hdelivered hflushed =>
    rw [← hdelivered.frame.2.2.2.1] at hsender
    cases hflushed <;> exact hsender
  | poll _ _ _ hadvanced => cases hadvanced <;> exact hsender

section

variable (hcounted : Counted params.numberOfRetries log conn)
include hcounted

theorem Counted.attempts_of_carries
    {request : PendingRequest Conn} (hcharge : charge ∈ conn.charges)
    (hcarries : charge.Carries params.numberOfRetries request) :
    attempts log request.sender = request.retry := by
  rw [hcarries.sender, hcounted.due _ hcharge, hcarries.retry]

theorem Counted.retry_step (hstepped : Stepped params conn action next) :
    ∀ charge ∈ next.charges, charge.1.retry ≤ params.numberOfRetries := by
  intro charge hcharge
  cases step_origin hstepped charge hcharge with
  | kept hkept => exact hcounted.retry charge hkept
  | submitted _ hretry => exact hretry ▸ Nat.zero_le _
  | waits horigin hcarries => exact hcounted.retry_of_carries horigin hcarries
  | dispatched hdispatched =>
    obtain ⟨origin, horigin, hcarries⟩ := dispatches_carried hstepped _ hdispatched
    exact hcounted.retry_of_carries horigin hcarries

theorem Counted.due_step (hdistinct : Distinct next) (hstepped : Stepped params conn action next) :
    ∀ charge ∈ next.charges,
      attempts (log ++ dispatches params conn action) charge.sender = charge.due := by
  intro charge hcharge
  rw [attempts_append]
  rcases attempts_dispatches hdistinct hstepped charge.sender with
    ⟨hnone, hnot⟩ | ⟨hone, request, hrequest, hsender, hrunning⟩
  · rw [hnone, Nat.add_zero]
    cases step_origin hstepped charge hcharge with
    | kept hkept => exact hcounted.due charge hkept
    | submitted hnew hretry =>
      rw [Charge.due, hretry]
      exact hcounted.unsubmitted _ hnew
    | waits horigin hcarries => exact hcounted.attempts_of_carries horigin hcarries
    | dispatched hdispatched => exact absurd rfl (hnot _ hdispatched)
  · -- the charge is the one of the dispatched request, which had waited or failed before
    obtain rfl : (request, true) = charge := hdistinct.charge_unique hrunning hcharge hsender
    obtain ⟨origin, horigin, hcarries⟩ := dispatches_carried hstepped request hrequest
    rw [hone, Charge.sender, hcounted.attempts_of_carries horigin hcarries]
    rfl

theorem Counted.step (hstep : conn.step params action = some next) :
    Counted params.numberOfRetries (log ++ dispatches params conn action) next := by
  have hdistinct := step_distinct hcounted.distinct hstep
  have hstepped := step_stepped hstep
  have hretry := hcounted.retry_step hstepped
  have hdue := hcounted.due_step hdistinct hstepped
  refine ⟨hdistinct, hretry, hdue, fun sender hsender => ?_, fun sender => ?_⟩
  · rw [attempts_append, hcounted.unsubmitted sender fun hold =>
      hsender (hstepped.submitted_subset sender hold)]
    rcases attempts_dispatches hdistinct hstepped sender with
      ⟨hnone, -⟩ | ⟨-, request, -, rfl, hrunning⟩
    · rw [hnone]
    · exact absurd (hdistinct.charge_submitted hrunning) hsender
  · rcases attempts_dispatches hdistinct hstepped sender with
      ⟨hnone, -⟩ | ⟨-, request, -, rfl, hrunning⟩
    · rw [attempts_append, hnone]
      exact hcounted.bounded sender
    · have hcount := hdue _ hrunning
      have hle := hretry _ hrunning
      rw [Charge.sender] at hcount
      rw [hcount]
      exact Nat.add_le_add_right hle 1

end

/-- A request that is kept by the step has the same retry counter as before or a higher one. -/
def RetryMonotone (params : ClusterParams) (conn : ClusterConn Conn) (action : Action Conn) :
    Prop :=
  ∀ next, conn.step params action = some next →
    ∀ before ∈ conn.charges, ∀ after ∈ next.charges, before.sender = after.sender →
      before.1.retry ≤ after.1.retry

theorem Distinct.retryMonotone (hdistinct : Distinct conn) (action : Action Conn) :
    RetryMonotone params conn action := by
  intro next hstep before hbefore after hafter hsender
  have hstepped := step_stepped hstep
  have hcarried : ∀ {charge : Charge Conn} {request : PendingRequest Conn},
      charge ∈ conn.charges → charge.Carries params.numberOfRetries request →
        before.sender = request.sender → before.1.retry ≤ request.retry := by
    intro charge request hcharge hcarries hsame
    obtain rfl := hdistinct.charge_unique hbefore hcharge (hsame.trans hcarries.sender)
    rw [hcarries.retry]
    exact Nat.le_add_right _ _
  cases step_origin hstepped after hafter with
  | kept hkept => exact (hdistinct.charge_unique hbefore hkept hsender) ▸ le_rfl
  | submitted hnew =>
    exact absurd (hdistinct.charge_submitted hbefore) (hsender ▸ hnew)
  | waits horigin hcarries => exact hcarried horigin hcarries hsender
  | dispatched hdispatched =>
    obtain ⟨origin, horigin, hcarries⟩ := dispatches_carried hstepped _ hdispatched
    exact hcarried horigin hcarries hsender

theorem attempts_bounded (params : ClusterParams) {actions : List (Action Conn)}
    {final : ClusterConn Conn} (hrun : run (step params) new actions = some final) :
    (∀ sender, attempts (logged (step params) (dispatches params) new actions) sender ≤
        params.numberOfRetries + 1) ∧
      (∀ charge ∈ final.charges, charge.1.retry ≤ params.numberOfRetries) ∧
      Along (step params) (RetryMonotone params) new actions := by
  have hcounted := logged_invariant_all (Counted params.numberOfRetries)
    (fun _ _ _ _ hcounted hstep => hcounted.step hstep) (new_counted params.numberOfRetries) hrun
  refine ⟨hcounted.bounded, hcounted.retry, ?_⟩
  exact along_of_distinct (fun _ action hdistinct => hdistinct.retryMonotone action) actions

section Retried

private def retryParams : ClusterParams := ⟨1, none⟩

private def retryActions : List (Action Unit) :=
  [.submit 0 ⟨.cmd (.singleNode .random)⟩, .beginFlush 0 .pending,
    .poll .plain 0
      (.attempted (.error (.node "a", .withDescription .fatalSendError ""))),
    .endFlush, .beginFlush 0 .pending, .beginFlush 0 .ended,
    .poll .plain 0 (.attempted (.error (.node "a", .withDescription .tryAgain "")))]

theorem queued_request_attempts_bounded :
    ∃ final, run (step retryParams) new retryActions = some final ∧
      attempts (logged (step retryParams) (dispatches retryParams) new retryActions) 0 = 2 ∧
      ∀ sender, attempts (logged (step retryParams) (dispatches retryParams) new retryActions)
        sender ≤ 2 := by
  obtain ⟨final, hrun⟩ : ∃ final, run (step retryParams) new retryActions = some final := ⟨_, rfl⟩
  exact ⟨final, hrun, rfl, (attempts_bounded retryParams hrun).1⟩

end Retried

end ClusterConn

end ValkeyGlide.Cluster
