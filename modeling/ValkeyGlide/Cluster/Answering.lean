import ValkeyGlide.Cluster.Ownership

/-!
# Every cluster request is answered

In every run of the event loop each request whose caller waits is in one place or
was given one result, exactly as long as no such request is abandoned; and every
result is the one that ended the request.
-/

namespace ValkeyGlide.Cluster.ClusterConn

open Protocol Foundation

variable {Conn : Type} {conn next : ClusterConn Conn} {allowed : Answer → Prop}

theorem new_owned : Owned (new : ClusterConn Conn) :=
  ⟨List.nodup_nil, by simp [owners, held, answered, new], by simp [new]⟩

theorem Balance.owned (hbalance : Balance conn allowed [] next) (howned : Owned conn) :
    Owned next := by
  obtain ⟨gone, hperm, hgone⟩ := hbalance.kept
  rw [List.append_nil] at hperm
  refine ⟨(List.nodup_append.mp (hperm.nodup_iff.mp howned.once)).1, fun sender hsender => ?_,
    fun sender hsubmitted hopen => ?_⟩
  · rw [hbalance.submitted]
    exact howned.submitted sender (hperm.mem_iff.mpr (List.mem_append_left _ hsender))
  · rw [hbalance.submitted] at hsubmitted
    rw [hbalance.closed] at hopen
    rcases List.mem_append.mp (hperm.mem_iff.mp (howned.kept sender hsubmitted hopen)) with
      hkept | hlost
    · exact hkept
    · exact absurd (hgone sender hlost) hopen

variable {sender : Nat} {params : ClusterParams} {action : Action Conn}

theorem Balance.not_owned (hbalance : Balance conn allowed [sender] next) (howned : Owned conn)
    (hopen : sender ∉ conn.closed) : ¬ Owned next := by
  intro hnext
  obtain ⟨gone, hperm, -⟩ := hbalance.kept
  rw [List.append_assoc] at hperm
  have hnodup := hperm.nodup_iff.mp howned.once
  have hmem : sender ∈ conn.owners := hperm.mem_iff.mpr (by simp)
  have hkept := hnext.kept sender (hbalance.submitted ▸ howned.submitted sender hmem)
    (hbalance.closed ▸ hopen)
  exact (List.nodup_append.mp hnodup).2.2 sender hkept sender (by simp) rfl

theorem owners_submit (conn : ClusterConn Conn) (sender : Nat) (info : RequestInfo Conn) :
    (owners { conn with
      submitted := conn.submitted ++ [sender]
      pendingRequests := conn.pendingRequests ++ [⟨0, sender, info⟩] }).Perm
      (sender :: conn.owners) := by
  refine List.perm_iff_count.mpr fun other => ?_
  simp only [List.count_cons, count_owners, answered, List.map_append, List.map_cons,
    List.map_nil, List.count_append, List.count_nil]
  omega

theorem submit_owned {info : RequestInfo Conn} (howned : Owned conn)
    (hnew : sender ∉ conn.submitted) :
    Owned { conn with
      submitted := conn.submitted ++ [sender]
      pendingRequests := conn.pendingRequests ++ [⟨0, sender, info⟩] } := by
  have hperm := owners_submit conn sender info
  refine ⟨hperm.nodup_iff.mpr (List.nodup_cons.mpr ⟨?_, howned.once⟩), fun other hother => ?_,
    fun other hother hopen => hperm.mem_iff.mpr ?_⟩
  · exact fun hmem => hnew (howned.submitted sender hmem)
  · rcases List.mem_cons.mp (hperm.mem_iff.mp hother) with rfl | hother
    · simp
    · exact List.mem_append_left _ (howned.submitted other hother)
  · rcases List.mem_append.mp hother with hother | hother
    · exact List.mem_cons_of_mem _ (howned.kept other hother hopen)
    · obtain rfl := List.mem_singleton.mp hother
      exact List.mem_cons_self

theorem giveUp_owned (howned : Owned conn) :
    Owned { conn with closed := conn.closed ++ [sender] } := by
  refine ⟨howned.once, howned.submitted, fun other hother hopen => ?_⟩
  exact howned.kept other hother fun hclosed => hopen (List.mem_append_left _ hclosed)

theorem endFlush_balance (hflush : conn.endFlush = some next) : Balance conn allowed [] next := by
  unfold endFlush at hflush
  split at hflush
  · contradiction
  all_goals
    cases hflush
    exact (balance_refl conn).move rfl rfl rfl fun _ => rfl

theorem beginFlush_balance {position : Nat} {poll : RecoverPoll}
    (hflush : conn.beginFlush params position poll = some next) :
    Balance conn (EndedBy conn (.beginFlush position poll)) [] next :=
  (balance_refl conn).beginFlush (fun _ => .inl rfl)
    (fun _ error herror => .inr ⟨error, herror, rfl⟩) hflush

theorem step_exact (howned : Owned conn) (hstep : conn.step params action = some next) :
    Owned next ↔ Kept params conn action := by
  cases action with
  | submit sender info =>
    rw [step] at hstep
    split at hstep
    · contradiction
    · rename_i hnew
      cases hstep
      exact iff_of_true (submit_owned howned hnew) trivial
  | giveUp sender =>
    cases hstep
    exact iff_of_true (giveUp_owned howned) trivial
  | beginFlush position poll =>
    rw [step] at hstep
    split at hstep
    · contradiction
    · exact iff_of_true ((beginFlush_balance hstep).owned howned) trivial
  | poll context position polled =>
    rcases pollInFlight_balance hstep with ⟨hkept, hbalance⟩ | ⟨hlost, sender, hopen, hbalance⟩
    · exact iff_of_true (hbalance.owned howned) hkept
    · exact iff_of_false (hbalance.not_owned howned hopen) hlost
  | endFlush =>
    have hbalance : Balance conn (fun _ => True) [] next := endFlush_balance hstep
    exact iff_of_true (hbalance.owned howned) trivial

/-! ## No request is in two places -/

structure Distinct (conn : ClusterConn Conn) : Prop where
  once : conn.owners.Nodup
  submitted : ∀ sender ∈ conn.owners, sender ∈ conn.submitted

theorem Balance.distinct {hand : List Nat} (hbalance : Balance conn allowed hand next)
    (hdistinct : Distinct conn) : Distinct next := by
  obtain ⟨gone, hperm, -⟩ := hbalance.kept
  rw [List.append_assoc] at hperm
  refine ⟨(List.nodup_append.mp (hperm.nodup_iff.mp hdistinct.once)).1, fun sender hsender => ?_⟩
  rw [hbalance.submitted]
  exact hdistinct.submitted sender (hperm.mem_iff.mpr (List.mem_append_left _ hsender))

theorem new_distinct : Distinct (new : ClusterConn Conn) :=
  ⟨List.nodup_nil, by simp [owners, held, answered, new]⟩

theorem step_distinct (hdistinct : Distinct conn) (hstep : conn.step params action = some next) :
    Distinct next := by
  cases action with
  | submit sender info =>
    rw [step] at hstep
    split at hstep
    · contradiction
    · rename_i hnew
      cases hstep
      have hperm := owners_submit conn sender info
      refine ⟨hperm.nodup_iff.mpr (List.nodup_cons.mpr ⟨?_, hdistinct.once⟩), ?_⟩
      · exact fun hmem => hnew (hdistinct.submitted sender hmem)
      · intro other hother
        rcases List.mem_cons.mp (hperm.mem_iff.mp hother) with rfl | hother
        · simp
        · exact List.mem_append_left _ (hdistinct.submitted other hother)
  | giveUp sender =>
    cases hstep
    exact ⟨hdistinct.once, hdistinct.submitted⟩
  | beginFlush position poll =>
    rw [step] at hstep
    split at hstep
    · contradiction
    · exact (beginFlush_balance hstep).distinct hdistinct
  | poll context position polled =>
    rcases pollInFlight_balance hstep with ⟨-, hbalance⟩ | ⟨-, sender, -, hbalance⟩
    · exact hbalance.distinct hdistinct
    · exact hbalance.distinct hdistinct
  | endFlush =>
    have hbalance : Balance conn (fun _ => True) [] next := endFlush_balance hstep
    exact hbalance.distinct hdistinct

theorem along_of_distinct {gives : ClusterConn Conn → Action Conn → Prop}
    (hgives : ∀ conn action, Distinct conn → gives conn action) (actions : List (Action Conn)) :
    Along (step params) gives new actions :=
  along_of_invariant Distinct
    (fun _ _ _ hdistinct (_ : True) hstep => step_distinct hdistinct hstep)
    (fun conn action hdistinct _ => hgives conn action hdistinct) new_distinct
    (along_of_forall (fun _ _ => trivial) new actions)

/-! ## Answers -/

def AnswersEnd (params : ClusterParams) (conn : ClusterConn Conn) (action : Action Conn) : Prop :=
  ∀ next, conn.step params action = some next →
    ∃ given, next.answers = conn.answers ++ given ∧ ∀ answer ∈ given, EndedBy conn action answer

theorem step_answersEnd (params : ClusterParams) (conn : ClusterConn Conn)
    (action : Action Conn) : AnswersEnd params conn action := by
  intro next hstep
  cases action with
  | submit sender info =>
    rw [step] at hstep
    split at hstep
    · contradiction
    · cases hstep
      exact ⟨[], by simp, by simp⟩
  | giveUp sender =>
    cases hstep
    exact ⟨[], by simp, by simp⟩
  | beginFlush position poll =>
    rw [step] at hstep
    split at hstep
    · contradiction
    · exact (beginFlush_balance hstep).given
  | poll context position polled =>
    rcases pollInFlight_balance hstep with ⟨-, hbalance⟩ | ⟨-, sender, -, hbalance⟩
    · exact hbalance.given
    · exact hbalance.given
  | endFlush => exact (endFlush_balance hstep).given

theorem requests_answered_iff (params : ClusterParams) {actions : List (Action Conn)}
    {final : ClusterConn Conn} (hrun : run (step params) new actions = some final) :
    (Along (step params) (Kept params) new actions ↔
      ∀ first second passed, actions = first ++ second →
        run (step params) new first = some passed → Owned passed) ∧
      Along (step params) (AnswersEnd params) new actions :=
  ⟨along_iff_invariant Owned (fun _ _ _ howned hstep => step_exact howned hstep) new_owned hrun,
    along_of_forall (step_answersEnd params) new actions⟩

section Reconnect

private def lostParams : ClusterParams := ⟨1, none⟩

private def lostAttempt (kind : ErrorKind) : List (Action Unit) :=
  [.submit 0 ⟨.cmd (.singleNode .random)⟩, .beginFlush 0 .pending,
    .poll .plain 0 (.attempted (.error (.node "a", .withDescription kind "")))]

private def unsentActions : List (Action Unit) :=
  lostAttempt .fatalSendError ++ [.endFlush, .beginFlush 0 .ended,
    .poll .plain 0 (.attempted (.ok (.single .okay)))]

private theorem unsentActions_kept : Along (step lostParams) (Kept lostParams) new unsentActions := by
  refine ⟨trivial, trivial, ?_, trivial, trivial, ?_, trivial⟩
  all_goals
    intro request hrequest sender _ habandons
    cases hrequest
    contradiction

theorem unsent_request_answered :
    ∃ final, run (step lostParams) new unsentActions = some final ∧
      final.answers = [(0, .ok (.single .okay))] ∧ Owned final := by
  obtain ⟨final, hrun, hanswers⟩ : ∃ final, run (step lostParams) new unsentActions = some final ∧
      final.answers = [(0, .ok (.single .okay))] := ⟨_, rfl, rfl⟩
  have howned := (requests_answered_iff lostParams hrun).1.mp unsentActions_kept
  exact ⟨final, hrun, hanswers, howned unsentActions [] final (List.append_nil _).symm hrun⟩

theorem unreceived_request_lost :
    ∃ final, run (step lostParams) new (lostAttempt .fatalReceiveError) = some final ∧
      final.submitted = [0] ∧ final.closed = [] ∧ final.held = [] ∧ final.answers = [] ∧
      ¬ Owned final := by
  refine ⟨_, rfl, rfl, rfl, rfl, rfl, fun howned => ?_⟩
  have hkept := howned.kept 0 (by decide) (by decide)
  contradiction

end Reconnect

end ValkeyGlide.Cluster.ClusterConn
