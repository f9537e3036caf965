import ValkeyGlide.Rdma.Buffer

/-!
# Registered memory is freed when no server can reach it

`Handled` lists what a step can do to one buffer and `Effect` what it can do to
the fabric; both come from `step` once.  The invariant `Sound` of a buffer is
preserved by every way of handling it, and the byte counters follow the buffers
that change their place.
-/

namespace ValkeyGlide.Rdma

open Foundation

/-! ## What a step does -/

def Registration.Recorded (registration : Registration) : Prop :=
  match registration.region with
  | .opened => registration.closes = []
  | .closed => registration.closes = [0]
  | .abandoned code => code ≠ 0 ∧ registration.closes = [code]

theorem Registration.recorded_revoke {registration : Registration}
    (hrecorded : registration.Recorded) (code : Int) :
    (registration.revoke code).2.Recorded := by
  obtain ⟨region, closes⟩ := registration
  cases region with
  | opened =>
    obtain rfl : closes = [] := hrecorded
    by_cases hcode : code = 0 <;> simp [revoke, check, hcode, Recorded]
  | closed => exact hrecorded
  | abandoned code => exact hrecorded

variable {code : Int} {closeStopsWrites : Bool}

theorem Registration.closed_of_revoke {registration : Registration}
    (hrecorded : registration.Recorded) (hrevoke : (registration.revoke code).1 = .ok ()) :
    (registration.revoke code).2.region = .closed := by
  obtain ⟨region, closes⟩ := registration
  cases region with
  | opened =>
    by_cases hcode : code = 0
    · simp [revoke, check, hcode]
    · simp [revoke, check, hcode] at hrevoke
  | closed => rfl
  | abandoned final =>
    obtain ⟨hfinal, -⟩ := hrecorded
    simp [revoke, check, hfinal] at hrevoke

theorem Registration.abandoned_of_revoke {registration : Registration} {error : RdmaError}
    (hrevoke : (registration.revoke code).1 = .error error) :
    ∃ final, (registration.revoke code).2.region = .abandoned final := by
  obtain ⟨region, closes⟩ := registration
  cases region with
  | opened =>
    by_cases hcode : code = 0
    · simp [revoke, check, hcode] at hrevoke
    · simp [revoke, check, hcode]
  | closed => simp [revoke] at hrevoke
  | abandoned final => exact ⟨final, rfl⟩

theorem Registration.revoke_revoke (registration : Registration) (code later : Int) :
    ((registration.revoke code).2.revoke later).2 = (registration.revoke code).2 := by
  obtain ⟨region, closes⟩ := registration
  cases region with
  | opened => by_cases hcode : code = 0 <;> simp [revoke, check, hcode]
  | closed => rfl
  | abandoned code => rfl

def releasedPlace (closeStopsWrites : Bool) : HostPlace :=
  if closeStopsWrites then .freed else .parked

inductive Handled (closeStopsWrites : Bool) : HostBuffer → HostBuffer → Prop
  | kept (buffer) : Handled closeStopsWrites buffer buffer
  | lent (buffer) (windowLength : Nat) (hhost : buffer.host = .buffer) :
      Handled closeStopsWrites buffer
        { buffer with host := .lent windowLength, transfer := .unsent }
  | carried (buffer) (transfer : Transfer) (htransfer : buffer.transfer ≠ .none) :
      Handled closeStopsWrites buffer { buffer with transfer := transfer }
  | revoked (buffer) (code : Int) : Handled closeStopsWrites buffer (buffer.revoke code).2
  | dismantled (buffer) (windowLength : Nat) (hhost : buffer.host = .lent windowLength) :
      Handled closeStopsWrites buffer buffer.dismantle
  | dropped (buffer) (hhost : buffer.host = .buffer) :
      Handled closeStopsWrites buffer { buffer with host := .dropped }
  | loanDropped (buffer) (windowLength : Nat) (hhost : buffer.host = .lent windowLength) :
      Handled closeStopsWrites buffer { buffer with host := .droppedLoan, unanswered := true }
  | closed (buffer) (code : Int) (hhost : buffer.host = .dropped)
      (hrevoke : (buffer.revoke code).1 = .ok ()) :
      Handled closeStopsWrites buffer { (buffer.revoke code).2 with host := .freed }
  | failed (buffer) (code : Int) (hhost : buffer.host = .dropped ∨ buffer.host = .droppedLoan)
      (error : RdmaError) (hrevoke : (buffer.revoke code).1 = .error error) :
      Handled closeStopsWrites buffer { (buffer.revoke code).2 with host := .leaked }
  | loanClosed (buffer) (code : Int) (hhost : buffer.host = .droppedLoan)
      (hrevoke : (buffer.revoke code).1 = .ok ()) :
      Handled closeStopsWrites buffer
        { (buffer.revoke code).2 with host := releasedPlace closeStopsWrites }
  | recalled (buffer) (windowLength code) (hhost : buffer.host = .lent windowLength)
      (hrevoke : (buffer.revoke code).1 = .ok ()) :
      Handled closeStopsWrites buffer
        { (buffer.revoke code).2 with
          host := releasedPlace closeStopsWrites, unanswered := true }

namespace RdmaFabric

def replace (fabric : RdmaFabric) (id : Nat) (old new : HostBuffer) : RdmaFabric :=
  { fabric with
    buffers := fabric.buffers.set id new
    parkedBytes := fabric.parkedBytes +
      if old.host ≠ .parked ∧ new.host = .parked then new.capacity else 0
    leakedBytes := fabric.leakedBytes +
      if old.host ≠ .leaked ∧ new.host = .leaked then new.capacity else 0 }

inductive Effect (fabric : RdmaFabric) : RdmaFabric → Prop
  | registered (bytes : Nat) :
      Effect fabric { fabric with buffers := fabric.buffers ++ [.new bytes] }
  | handled (id : Nat) (old new : HostBuffer) (hold : fabric.buffers[id]? = some old)
      (hhandled : Handled fabric.closeStopsWrites old new) :
      Effect fabric (fabric.replace id old new)
  | closed : Effect fabric { fabric with isClosed := true }

theorem Effect.of_handled {fabric : RdmaFabric} {id : Nat} {old new : HostBuffer}
    (hold : fabric.buffers[id]? = some old) (hhandled : Handled fabric.closeStopsWrites old new)
    (hparked : new.host = .parked → old.host = .parked)
    (hleaked : new.host = .leaked → old.host = .leaked) :
    Effect fabric { fabric with buffers := fabric.buffers.set id new } := by
  have heffect := Effect.handled id old new hold hhandled
  rwa [replace, if_neg fun h => h.1 (hparked h.2), if_neg fun h => h.1 (hleaked h.2)]
    at heffect

theorem dropRegistration_of_revoke {buffer closed : HostBuffer} {code : Int}
    {result : Except RdmaError Unit} (hrevoke : buffer.revoke code = (result, closed))
    (dropCode : Int) : closed.dropRegistration dropCode = closed := by
  obtain rfl : (buffer.revoke code).2 = closed := by rw [hrevoke]
  simp [HostBuffer.dropRegistration, HostBuffer.revoke, Registration.revoke_revoke]

theorem releaseUnanswered_closed (fabric : RdmaFabric) (id : Nat) (old buffer : HostBuffer)
    (hparked : old.host ≠ .parked) :
    fabric.releaseUnanswered id buffer true =
      fabric.replace id old
        { buffer with host := releasedPlace fabric.closeStopsWrites } := by
  cases hstops : fabric.closeStopsWrites <;>
    simp [releaseUnanswered, replace, free, park, releasedPlace, hstops, hparked]

theorem leak_eq_replace (fabric : RdmaFabric) (id : Nat) (old buffer : HostBuffer)
    (hleaked : old.host ≠ .leaked) :
    fabric.leak id buffer = fabric.replace id old { buffer with host := .leaked } := by
  simp [leak, replace, hleaked]

section Close

variable {fabric : RdmaFabric} {id : Nat} {buffer closed : HostBuffer} {code : Int}
  (hbuffer : fabric.buffers[id]? = some buffer)

include hbuffer

theorem leak_effect {error : RdmaError}
    (hhost : buffer.host = .dropped ∨ buffer.host = .droppedLoan)
    (hrevoke : buffer.revoke code = (.error error, closed)) :
    Effect fabric (fabric.leak id closed) := by
  have hfailed : Handled fabric.closeStopsWrites buffer _ :=
    .failed buffer code hhost error (by rw [hrevoke])
  have hleaked : buffer.host ≠ .leaked := by rcases hhost with hhost | hhost <;> simp [hhost]
  rw [hrevoke] at hfailed
  rw [leak_eq_replace fabric id buffer closed hleaked]
  exact .handled id buffer _ hbuffer hfailed

theorem closeDropped_effect (hhost : buffer.host = .dropped) (code dropCode : Int) :
    Effect fabric (fabric.closeDropped id buffer code dropCode) := by
  rw [closeDropped]
  rcases hrevoke : buffer.revoke code with ⟨error | _, closed⟩
  all_goals
    dsimp only
    rw [dropRegistration_of_revoke hrevoke]
  · exact leak_effect hbuffer (.inl hhost) hrevoke
  · have hclosed : Handled fabric.closeStopsWrites buffer _ :=
      .closed buffer code hhost (by rw [hrevoke])
    rw [hrevoke] at hclosed
    exact .of_handled hbuffer hclosed (by simp) (by simp)

theorem closeDroppedLoan_effect (hhost : buffer.host = .droppedLoan) (code dropCode : Int) :
    Effect fabric (fabric.closeDroppedLoan id buffer code dropCode) := by
  rw [closeDroppedLoan]
  rcases hrevoke : buffer.revoke code with ⟨error | _, closed⟩
  all_goals
    dsimp only
    rw [dropRegistration_of_revoke hrevoke]
  · exact leak_effect hbuffer (.inr hhost) hrevoke
  · have hclosed : Handled fabric.closeStopsWrites buffer _ :=
      .loanClosed buffer code hhost (by rw [hrevoke])
    rw [hrevoke] at hclosed
    rw [Except.isOk, Except.toBool,
      releaseUnanswered_closed fabric id buffer closed (by simp [hhost])]
    exact .handled id buffer _ hbuffer hclosed

theorem recallLoan_effect {windowLength : Nat} (hhost : buffer.host = .lent windowLength)
    (code dropCode : Int) : Effect fabric (fabric.recallLoan id buffer code dropCode) := by
  have hrevoked : Handled fabric.closeStopsWrites buffer _ := .revoked buffer code
  have hsame : (buffer.revoke code).2.host = buffer.host := rfl
  rw [recallLoan]
  rcases hrevoke : buffer.revoke code with ⟨error | _, closed⟩
  all_goals
    rw [hrevoke] at hrevoked hsame
    dsimp only at hrevoked hsame ⊢
  · exact .of_handled hbuffer hrevoked (fun h => hsame ▸ h) (fun h => hsame ▸ h)
  · have hrecalled : Handled fabric.closeStopsWrites buffer _ :=
      .recalled buffer windowLength code hhost (by rw [hrevoke])
    rw [hrevoke] at hrecalled
    rw [dropRegistration_of_revoke hrevoke,
      releaseUnanswered_closed fabric id buffer _ (by simp [hhost])]
    exact .handled id buffer _ hbuffer hrecalled

end Close

theorem lend_handled {buffer : HostBuffer} (closeStopsWrites : Bool)
    (hhost : buffer.host = .buffer) (start length : Nat) :
    (∃ lent, buffer.lend start length = .ok lent ∧ lent.host = .lent length ∧
        Handled closeStopsWrites buffer lent) ∨
      ∃ error, buffer.lend start length = .error (buffer, error) := by
  rw [HostBuffer.lend]
  cases buffer.registration.checkOpen with
  | error error => exact .inr ⟨error, rfl⟩
  | ok =>
    dsimp only
    split
    · exact .inl ⟨_, rfl, rfl, .lent buffer length hhost⟩
    · exact .inr ⟨_, rfl⟩

theorem reclaim_dismantles (buffer : HostBuffer) (windowLength : Nat) (reply : TransferReply) :
    (∃ receipt, buffer.reclaim windowLength reply = .ok (buffer.dismantle, receipt)) ∨
      ∃ error, buffer.reclaim windowLength reply = .error (buffer.dismantle, error) := by
  cases reply with
  | read receipt =>
    rw [HostBuffer.reclaim]
    split
    · exact .inr ⟨_, rfl⟩
    · exact .inl ⟨_, rfl⟩
  | missing => exact .inl ⟨_, rfl⟩
  | stored => exact .inl ⟨_, rfl⟩
  | failed => exact .inl ⟨_, rfl⟩

theorem step_effect {fabric next : RdmaFabric} {action : RdmaAction}
    (hstep : fabric.step action = some next) : Effect fabric next := by
  cases action with
  | register bytes =>
    obtain ⟨-, ⟨⟩⟩ := Option.ite_none_left_eq_some.mp hstep
    exact .registered bytes
  | closeFabric =>
    obtain ⟨-, ⟨⟩⟩ := Option.ite_none_left_eq_some.mp hstep
    exact .closed
  | lend id start length =>
    obtain ⟨buffer, hbuffer, hstep⟩ := Option.bind_eq_some_iff.mp hstep
    obtain ⟨hhost, hstep⟩ := Option.ite_none_right_eq_some.mp hstep
    rcases lend_handled fabric.closeStopsWrites hhost start length with
      ⟨lent, hlend, hlent, hhandled⟩ | ⟨error, hlend⟩
    · rw [hlend] at hstep
      cases hstep
      exact .of_handled hbuffer hhandled (by simp [hlent]) (by simp [hlent])
    · rw [hlend] at hstep
      cases hstep
      exact .of_handled hbuffer (.kept buffer) (fun h => h) (fun h => h)
  | send id =>
    obtain ⟨buffer, hbuffer, hstep⟩ := Option.bind_eq_some_iff.mp hstep
    obtain ⟨htransfer, ⟨⟩⟩ := Option.ite_none_right_eq_some.mp hstep
    exact .of_handled hbuffer (.carried buffer .sent (by simp [htransfer]))
      (fun h => h) (fun h => h)
  | reply id =>
    obtain ⟨buffer, hbuffer, hstep⟩ := Option.bind_eq_some_iff.mp hstep
    obtain ⟨htransfer, ⟨⟩⟩ := Option.ite_none_right_eq_some.mp hstep
    exact .of_handled hbuffer (.carried buffer .replied (by simp [htransfer]))
      (fun h => h) (fun h => h)
  | revoke id code =>
    obtain ⟨buffer, hbuffer, ⟨⟩⟩ := Option.bind_eq_some_iff.mp hstep
    exact .of_handled hbuffer (.revoked buffer code) (fun h => h) (fun h => h)
  | reclaim id reply =>
    obtain ⟨buffer, hbuffer, hstep⟩ := Option.bind_eq_some_iff.mp hstep
    cases hhost : buffer.host <;> rw [hhost] at hstep <;> try contradiction
    case lent windowLength =>
      obtain ⟨-, hstep⟩ := Option.ite_none_right_eq_some.mp hstep
      rcases reclaim_dismantles buffer windowLength reply with
        ⟨receipt, hreclaim⟩ | ⟨error, hreclaim⟩
      all_goals
        rw [hreclaim] at hstep
        cases hstep
        exact .of_handled hbuffer (.dismantled buffer windowLength hhost)
          (by simp [HostBuffer.dismantle]) (by simp [HostBuffer.dismantle])
  | cancelUnsent id =>
    obtain ⟨buffer, hbuffer, hstep⟩ := Option.bind_eq_some_iff.mp hstep
    cases hhost : buffer.host <;> rw [hhost] at hstep <;> try contradiction
    case lent windowLength =>
      obtain ⟨-, ⟨⟩⟩ := Option.ite_none_right_eq_some.mp hstep
      exact .of_handled hbuffer (.dismantled buffer windowLength hhost)
        (by simp [HostBuffer.cancelUnsent, HostBuffer.dismantle])
        (by simp [HostBuffer.cancelUnsent, HostBuffer.dismantle])
  | recallLoan id code dropCode =>
    obtain ⟨buffer, hbuffer, hstep⟩ := Option.bind_eq_some_iff.mp hstep
    cases hhost : buffer.host <;> rw [hhost] at hstep <;> try contradiction
    case lent windowLength =>
      cases hstep
      exact recallLoan_effect hbuffer hhost code dropCode
  | drop id =>
    obtain ⟨buffer, hbuffer, hstep⟩ := Option.bind_eq_some_iff.mp hstep
    cases hhost : buffer.host <;> rw [hhost] at hstep <;> try contradiction
    case buffer =>
      cases hstep
      exact .of_handled hbuffer (.dropped buffer hhost) (by simp) (by simp)
    case lent windowLength =>
      cases hstep
      exact .of_handled hbuffer (.loanDropped buffer windowLength hhost) (by simp) (by simp)
  | runClose id code dropCode =>
    obtain ⟨buffer, hbuffer, hstep⟩ := Option.bind_eq_some_iff.mp hstep
    cases hhost : buffer.host <;> rw [hhost] at hstep <;> try contradiction
    case dropped =>
      cases hstep
      exact closeDropped_effect hbuffer hhost code dropCode
    case droppedLoan =>
      cases hstep
      exact closeDroppedLoan_effect hbuffer hhost code dropCode

end RdmaFabric

/-! ## What holds of a buffer -/

structure HostBuffer.Sound (closeStopsWrites : Bool) (buffer : HostBuffer) : Prop where
  recorded : buffer.registration.Recorded
  released : buffer.host = .freed ∨ buffer.host = .parked →
    buffer.registration.region = .closed
  leaked : buffer.host = .leaked → ∃ code, buffer.registration.region = .abandoned code
  idle : buffer.host = .buffer ∨ buffer.host = .dropped → buffer.transfer = .none
  unanswered : buffer.unanswered = true → buffer.host = .droppedLoan ∨
    buffer.host = .leaked ∨ buffer.host = releasedPlace closeStopsWrites
  answered : buffer.unanswered = false →
    buffer.host ≠ .droppedLoan ∧ (buffer.host = .freed → buffer.transfer = .none)

theorem HostBuffer.sound_new (closeStopsWrites : Bool) (bytes : Nat) :
    (HostBuffer.new bytes).Sound closeStopsWrites where
  recorded := rfl
  released := by simp [HostBuffer.new]
  leaked := by simp [HostBuffer.new]
  idle := fun _ => rfl
  unanswered := by simp [HostBuffer.new]
  answered := fun _ => ⟨by simp [HostBuffer.new], fun _ => rfl⟩

theorem releasedPlace_cases (closeStopsWrites : Bool) :
    releasedPlace closeStopsWrites = .freed ∨ releasedPlace closeStopsWrites = .parked := by
  cases closeStopsWrites
  · exact .inr rfl
  · exact .inl rfl

theorem HostBuffer.Sound.not_unanswered {buffer : HostBuffer}
    (hsound : buffer.Sound closeStopsWrites) (hloan : buffer.host ≠ .droppedLoan)
    (hfreed : buffer.host ≠ .freed) (hparked : buffer.host ≠ .parked)
    (hleaked : buffer.host ≠ .leaked) : buffer.unanswered = false := by
  rcases Bool.eq_false_or_eq_true buffer.unanswered with htrue | hfalse
  · rcases hsound.unanswered htrue with h | h | h
    · exact absurd h hloan
    · exact absurd h hleaked
    · rcases releasedPlace_cases closeStopsWrites with hplace | hplace
      · exact absurd (h.trans hplace) hfreed
      · exact absurd (h.trans hplace) hparked
  · exact hfalse

theorem HostBuffer.Sound.revoke {buffer : HostBuffer} (hsound : buffer.Sound closeStopsWrites)
    (code : Int) :
    (buffer.revoke code).2.Sound closeStopsWrites where
  recorded := Registration.recorded_revoke hsound.recorded code
  released := by
    intro hhost
    have hclosed := hsound.released hhost
    simp [HostBuffer.revoke, Registration.revoke, hclosed]
  leaked := by
    intro hhost
    obtain ⟨final, habandoned⟩ := hsound.leaked hhost
    exact ⟨final, by simp [HostBuffer.revoke, Registration.revoke, habandoned]⟩
  idle := hsound.idle
  unanswered := hsound.unanswered
  answered := hsound.answered

theorem HostBuffer.sound_released (closeStopsWrites : Bool) (buffer : HostBuffer)
    (hrecorded : buffer.registration.Recorded)
    (hclosed : buffer.registration.region = .closed) (hunanswered : buffer.unanswered = true) :
    ({ buffer with host := releasedPlace closeStopsWrites } : HostBuffer).Sound
      closeStopsWrites where
  recorded := hrecorded
  released := fun _ => hclosed
  leaked := by
    rcases releasedPlace_cases closeStopsWrites with hplace | hplace <;> simp [hplace]
  idle := by
    rcases releasedPlace_cases closeStopsWrites with hplace | hplace <;> simp [hplace]
  unanswered := fun _ => .inr (.inr rfl)
  answered := by simp [hunanswered]

theorem HostBuffer.Sound.handled {old new : HostBuffer} (hsound : old.Sound closeStopsWrites)
    (hhandled : Handled closeStopsWrites old new) : new.Sound closeStopsWrites := by
  cases hhandled with
  | kept => exact hsound
  | lent windowLength hhost =>
    have hanswered : old.unanswered = false := by
      apply hsound.not_unanswered <;> simp [hhost]
    exact ⟨hsound.recorded, by simp, by simp, by simp, by simp [hanswered], by simp⟩
  | carried transfer htransfer =>
    refine ⟨hsound.recorded, hsound.released, hsound.leaked, ?_, hsound.unanswered, ?_⟩
    · exact fun hhost => absurd (hsound.idle hhost) htransfer
    · intro hanswered
      obtain ⟨hloan, hfreed⟩ := hsound.answered hanswered
      exact ⟨hloan, fun hhost => absurd (hfreed hhost) htransfer⟩
  | revoked code => exact hsound.revoke code
  | dismantled windowLength hhost =>
    have hanswered : old.unanswered = false := by
      apply hsound.not_unanswered <;> simp [hhost]
    exact ⟨hsound.recorded, by simp [HostBuffer.dismantle], by simp [HostBuffer.dismantle],
      fun _ => rfl, by simp [HostBuffer.dismantle, hanswered], by simp [HostBuffer.dismantle]⟩
  | dropped hhost =>
    have hanswered : old.unanswered = false := by
      apply hsound.not_unanswered <;> simp [hhost]
    exact ⟨hsound.recorded, by simp, by simp, fun _ => hsound.idle (.inl hhost),
      by simp [hanswered], by simp⟩
  | loanDropped windowLength hhost =>
    exact ⟨hsound.recorded, by simp, by simp, by simp, by simp, by simp⟩
  | closed code hhost hrevoke =>
    have hanswered : old.unanswered = false := by
      apply hsound.not_unanswered <;> simp [hhost]
    have hrevoked := hsound.revoke code
    refine ⟨hrevoked.recorded, ?_, by simp, by simp, ?_, ?_⟩
    · exact fun _ => Registration.closed_of_revoke hsound.recorded hrevoke
    · exact fun h => absurd (hanswered.symm.trans h) (by simp)
    · exact fun _ => ⟨by simp, fun _ => hsound.idle (.inr hhost)⟩
  | failed code hhost error hrevoke =>
    have hrevoked := hsound.revoke code
    exact ⟨hrevoked.recorded, by simp,
      fun _ => Registration.abandoned_of_revoke hrevoke, by simp,
      fun _ => .inr (.inl rfl), by simp⟩
  | loanClosed code hhost hrevoke =>
    have hclosed := Registration.closed_of_revoke hsound.recorded hrevoke
    have hunanswered : (old.revoke code).2.unanswered = true :=
      eq_true_of_ne_false fun hfalse => (hsound.answered hfalse).1 hhost
    exact HostBuffer.sound_released closeStopsWrites _ (hsound.revoke code).recorded hclosed
      hunanswered
  | recalled windowLength code hhost hrevoke =>
    have hclosed := Registration.closed_of_revoke hsound.recorded hrevoke
    exact HostBuffer.sound_released closeStopsWrites
      { (old.revoke code).2 with unanswered := true } (hsound.revoke code).recorded hclosed rfl

/-! ## What holds of the fabric -/

namespace RdmaFabric

def bytesAt (fabric : RdmaFabric) (place : HostPlace) : Nat :=
  fabric.buffers.foldr
    (fun buffer total => (if buffer.host = place then buffer.capacity else 0) + total) 0

private theorem total_set (size : HostBuffer → Nat) {buffers : List HostBuffer} {id : Nat}
    {old : HostBuffer} (hold : buffers[id]? = some old) (new : HostBuffer) :
    (buffers.set id new).foldr (fun buffer total => size buffer + total) 0 + size old =
      buffers.foldr (fun buffer total => size buffer + total) 0 + size new := by
  induction buffers generalizing id with
  | nil => simp at hold
  | cons head rest ih =>
    cases id with
    | zero =>
      obtain rfl : head = old := by simpa using hold
      simp only [List.set_cons_zero, List.foldr_cons]
      omega
    | succ id =>
      have htail := ih (List.getElem?_cons_succ ▸ hold)
      simp only [List.set_cons_succ, List.foldr_cons]
      omega

theorem handled_rests {closeStopsWrites : Bool} {old new : HostBuffer} {place : HostPlace}
    (hhandled : Handled closeStopsWrites old new) (hplace : place = .parked ∨ place = .leaked)
    (hold : old.host = place) : new.host = place ∧ new.capacity = old.capacity := by
  subst hold
  cases hhandled with
  | kept => exact ⟨rfl, rfl⟩
  | carried transfer htransfer => exact ⟨rfl, rfl⟩
  | revoked code => exact ⟨rfl, rfl⟩
  | failed code hhost error hrevoke =>
    rcases hhost with hhost | hhost <;> simp [hhost] at hplace
  | lent windowLength hhost | dismantled windowLength hhost | dropped hhost
  | loanDropped windowLength hhost | closed code hhost hrevoke
  | loanClosed code hhost hrevoke | recalled windowLength code hhost hrevoke =>
    simp [hhost] at hplace

theorem bytesAt_replace {fabric : RdmaFabric} {id : Nat} {old new : HostBuffer}
    {place : HostPlace} (hold : fabric.buffers[id]? = some old)
    (hhandled : Handled fabric.closeStopsWrites old new)
    (hplace : place = .parked ∨ place = .leaked) :
    (fabric.replace id old new).bytesAt place =
      fabric.bytesAt place +
        if old.host ≠ place ∧ new.host = place then new.capacity else 0 := by
  have hsum := total_set (fun buffer => if buffer.host = place then buffer.capacity else 0)
    hold new
  change (fabric.buffers.set id new).foldr _ 0 = fabric.buffers.foldr _ 0 + _
  by_cases hrests : old.host = place
  · obtain ⟨hhost, hcapacity⟩ := handled_rests hhandled hplace hrests
    simp only [hrests, hhost, hcapacity, if_true] at hsum
    simp only [hrests, ne_eq, not_true, false_and, if_false]
    omega
  · simp only [hrests, if_false] at hsum
    simp only [ne_eq, hrests, not_false_iff, true_and]
    omega

structure Accounted (fabric : RdmaFabric) : Prop where
  sound : ∀ buffer ∈ fabric.buffers, buffer.Sound fabric.closeStopsWrites
  parked : fabric.parkedBytes = fabric.bytesAt .parked
  leaked : fabric.leakedBytes = fabric.bytesAt .leaked

theorem accounted_openFabric (closeStopsWrites : Bool) :
    (openFabric closeStopsWrites).Accounted :=
  ⟨by simp [openFabric], rfl, rfl⟩

theorem Accounted.effect {fabric next : RdmaFabric} (haccounted : fabric.Accounted)
    (heffect : Effect fabric next) : next.Accounted := by
  obtain ⟨hsound, hparked, hleaked⟩ := haccounted
  cases heffect with
  | registered bytes =>
    refine ⟨?_, ?_, ?_⟩
    · intro buffer hmem
      rcases List.mem_append.mp hmem with hmem | hmem
      · exact hsound buffer hmem
      · obtain rfl : buffer = .new bytes := by simpa using hmem
        exact HostBuffer.sound_new _ bytes
    · simp [hparked, bytesAt, HostBuffer.new]
    · simp [hleaked, bytesAt, HostBuffer.new]
  | handled id old new hold hhandled =>
    refine ⟨?_, ?_, ?_⟩
    · intro buffer hmem
      rcases List.mem_or_eq_of_mem_set hmem with hmem | rfl
      · exact hsound buffer hmem
      · exact (hsound old (List.mem_of_getElem? hold)).handled hhandled
    · rw [bytesAt_replace hold hhandled (.inl rfl), ← hparked]
      rfl
    · rw [bytesAt_replace hold hhandled (.inr rfl), ← hleaked]
      rfl
  | closed => exact ⟨hsound, hparked, hleaked⟩

end RdmaFabric

/-! ## Freed memory -/

/-- Whether the memory was given back to the allocator; parked memory is with the fabric. -/
def HostBuffer.IsFreed (fabric : RdmaFabric) (buffer : HostBuffer) : Prop :=
  buffer.host = .freed ∨ buffer.host = .parked ∧ fabric.isClosed = true

/--
The server has a command it did not answer, and its region is not closed or the
provider may have accepted the write before the close.
-/
def HostBuffer.Reachable (fabric : RdmaFabric) (buffer : HostBuffer) : Prop :=
  buffer.transfer = .sent ∧
    (buffer.registration.region ≠ .closed ∨
      fabric.closeStopsWrites = false ∧ fabric.isClosed = false)

structure HostBuffer.Safe (fabric : RdmaFabric) (buffer : HostBuffer) : Prop where
  closed_once : buffer.registration.closes.length ≤ 1
  freed_closed : buffer.IsFreed fabric → buffer.registration.closes = [0]
  unanswered_kept : buffer.unanswered = true → fabric.closeStopsWrites = false →
    buffer.IsFreed fabric → fabric.isClosed = true
  failed_kept : (∃ code ∈ buffer.registration.closes, code ≠ 0) → ¬ buffer.IsFreed fabric
  unreachable : buffer.IsFreed fabric → ¬ buffer.Reachable fabric

theorem HostBuffer.Sound.safe {fabric : RdmaFabric} {buffer : HostBuffer}
    (hsound : buffer.Sound fabric.closeStopsWrites) : buffer.Safe fabric := by
  have hclosed : buffer.IsFreed fabric → buffer.registration.region = .closed := by
    rintro (hfreed | ⟨hparked, -⟩)
    · exact hsound.released (.inl hfreed)
    · exact hsound.released (.inr hparked)
  have hcloses : buffer.IsFreed fabric → buffer.registration.closes = [0] := by
    intro hfreed
    have hrecorded := hsound.recorded
    rwa [Registration.Recorded, hclosed hfreed] at hrecorded
  have hkept : buffer.unanswered = true → fabric.closeStopsWrites = false →
      buffer.IsFreed fabric → fabric.isClosed = true := by
    rintro hunanswered hstops (hfreed | ⟨-, hisClosed⟩)
    · have hplace := hsound.unanswered hunanswered
      simp [hfreed, hstops, releasedPlace] at hplace
    · exact hisClosed
  refine ⟨?_, hcloses, hkept, ?_, ?_⟩
  · have hrecorded := hsound.recorded
    rw [Registration.Recorded] at hrecorded
    split at hrecorded
    · simp [hrecorded]
    · simp [hrecorded]
    · simp [hrecorded.2]
  · rintro ⟨code, hmem, hcode⟩ hfreed
    rw [hcloses hfreed] at hmem
    exact hcode (List.mem_singleton.mp hmem)
  · rintro hfreed ⟨hsent, hopened | ⟨hstops, hisClosed⟩⟩
    · exact hopened (hclosed hfreed)
    · cases hunanswered : buffer.unanswered with
      | true => simp [hkept hunanswered hstops hfreed] at hisClosed
      | false =>
        rcases hfreed with hhost | ⟨-, hfabric⟩
        · simp [(hsound.answered hunanswered).2 hhost] at hsent
        · simp [hfabric] at hisClosed

/--
In every state of every run each region was closed at most once, memory is freed
only after its region closed successfully and, where a close does not stop
accepted writes, after the fabric closed if its loan ended without a reply, and
the counters are the bytes parked and leaked.
-/
theorem memory_lifecycle {closeStopsWrites : Bool} {actions : List RdmaAction} {fabric : RdmaFabric}
    (hrun : run RdmaFabric.step (.openFabric closeStopsWrites) actions = some fabric) :
    (∀ buffer ∈ fabric.buffers, buffer.Safe fabric) ∧
      fabric.parkedBytes = fabric.bytesAt .parked ∧
      fabric.leakedBytes = fabric.bytesAt .leaked := by
  have haccounted : fabric.Accounted :=
    run_invariant_all RdmaFabric.Accounted
      (fun _ _ _ haccounted hstep => haccounted.effect (RdmaFabric.step_effect hstep))
      (RdmaFabric.accounted_openFabric closeStopsWrites) hrun
  exact ⟨fun buffer hmem => (haccounted.sound buffer hmem).safe, haccounted.parked,
    haccounted.leaked⟩

theorem dropped_loans_parked_and_leaked :
    ∃ fabric, run RdmaFabric.step (.openFabric false)
        [.register 8, .register 16, .lend 0 0 8, .send 0, .lend 1 4 12, .drop 0, .revoke 1 (-5),
          .drop 1, .runClose 1 0 0, .runClose 0 0 0] = some fabric ∧
      fabric.bytesAt .parked = 8 ∧ fabric.bytesAt .leaked = 16 ∧
      ∀ buffer ∈ fabric.buffers, buffer.Safe fabric := by
  have hruns : ((run RdmaFabric.step (.openFabric false)
      [.register 8, .register 16, .lend 0 0 8, .send 0, .lend 1 4 12, .drop 0, .revoke 1 (-5),
        .drop 1, .runClose 1 0 0, .runClose 0 0 0]).map
          fun fabric => (fabric.parkedBytes, fabric.leakedBytes)) = some (8, 16) := by
    decide +kernel
  obtain ⟨fabric, hrun, hbytes⟩ := Option.map_eq_some_iff.mp hruns
  obtain ⟨hsafe, hparked, hleaked⟩ := memory_lifecycle hrun
  obtain ⟨h8, h16⟩ := Prod.mk.inj hbytes
  exact ⟨fabric, hrun, hparked ▸ h8, hleaked ▸ h16, hsafe⟩

end ValkeyGlide.Rdma
