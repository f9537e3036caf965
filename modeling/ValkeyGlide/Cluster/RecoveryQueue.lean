import ValkeyGlide.Cluster.Answering
import ValkeyGlide.Cluster.Flush
import ValkeyGlide.Foundation.Log

/-!
# The recovery queue

Requests that arrive during a recovery are queued and dispatched when it is over.
The queue stays within its cap, is empty while the initial nodes are reconnected and
while requests are polled, and holds requests in the order in which they came into
the channel, before those that are still there.
-/

namespace ValkeyGlide.Cluster

open Protocol Foundation

variable {Conn : Type}

def PollResult.requeued : PollResult Conn → Option (PendingRequest Conn)
  | .pending _ => none
  | .ready action _ => action.requeued

namespace ClusterConn

variable {conn next : ClusterConn Conn}

/-! ## The discipline of the queue -/

def arrivals (params : ClusterParams) (conn : ClusterConn Conn) :
    Action Conn → List (PendingRequest Conn)
  | .submit sender info => [⟨0, sender, info⟩]
  | .poll context position polled =>
    ((conn.inFlightRequests[position]?.bind fun request =>
      request.poll context params.numberOfRetries conn.isClosed polled).bind
        PollResult.requeued).toList
  | .giveUp _ | .beginFlush _ _ | .endFlush => []

/-- `arrived` lists all requests that ever came into the channel. -/
structure QueueDiscipline (params : ClusterParams) (arrived : List (PendingRequest Conn))
    (conn : ClusterConn Conn) : Prop where
  bounded : conn.recoveryQueue.length ≤ params.cap
  failFast : conn.state = .recover .reconnectToInitialNodes → conn.recoveryQueue = []
  polling : conn.completing.isSome → conn.recoveryQueue = []
  order : (conn.recoveryQueue ++ conn.pendingRequests).Sublist arrived

theorem new_disciplined (params : ClusterParams) :
    QueueDiscipline params [] (new : ClusterConn Conn) :=
  ⟨Nat.zero_le _, fun _ => rfl, fun _ => rfl, .refl _⟩

variable {params : ClusterParams} {arrived : List (PendingRequest Conn)} {position : Nat}

namespace QueueDiscipline

variable (hqueue : QueueDiscipline params arrived conn)
include hqueue

theorem delivered {given : List Answer}
    (hdelivered : Delivered conn position given next) : QueueDiscipline params arrived next := by
  cases hdelivered with
  | none => exact hqueue
  | inFlight => exact ⟨hqueue.bounded, hqueue.failFast, hqueue.polling, hqueue.order⟩
  | pending herror hpending =>
    refine ⟨hqueue.bounded, hqueue.failFast, hqueue.polling, ?_⟩
    refine (List.Sublist.append_left ?_ _).trans hqueue.order
    rw [hpending]
    exact List.sublist_cons_self _ _

theorem flushed {poll : RecoverPoll} (hidle : conn.completing = none)
    (hflushed : Flushed params poll conn next) : QueueDiscipline params arrived next := by
  cases hflushed with
  | held _ hqueued =>
    refine ⟨hqueued.bounded hqueue.bounded, fun hstate => ?_, ?_, ?_⟩
    · rw [← hqueue.failFast hstate]
      exact hqueued.failFast hstate
    · simp [hidle]
    · rw [List.append_nil]
      exact hqueued.sublist.trans hqueue.order
  | failed | started => exact ⟨Nat.zero_le _, fun _ => rfl, fun _ => rfl, List.nil_sublist _⟩

theorem advanced {result : PollResult Conn} (hadvanced : Advanced conn position result next) :
    QueueDiscipline params (arrived ++ result.requeued.toList) next := by
  cases hadvanced with
  | pending =>
    refine ⟨hqueue.bounded, hqueue.failFast, hqueue.polling, ?_⟩
    rw [PollResult.requeued, Option.toList_none, List.append_nil]
    exact hqueue.order
  | ready hcompleting =>
    refine ⟨hqueue.bounded, hqueue.failFast, ?_, ?_⟩
    · rw [hcompleting]
      exact hqueue.polling
    · rw [← List.append_assoc]
      exact hqueue.order.append (.refl _)

theorem step {action : Action Conn} (hstep : Stepped params conn action next) :
    QueueDiscipline params (arrived ++ arrivals params conn action) next := by
  cases hstep with
  | submit hnew =>
    refine ⟨hqueue.bounded, hqueue.failFast, hqueue.polling, ?_⟩
    rw [← List.append_assoc]
    exact hqueue.order.append (.refl _)
  | giveUp =>
    rw [arrivals, List.append_nil]
    exact ⟨hqueue.bounded, hqueue.failFast, hqueue.polling, hqueue.order⟩
  | beginFlush hidle _ hdelivered hflushed =>
    obtain ⟨-, -, hcompleting, -, -⟩ := hdelivered.frame
    rw [arrivals, List.append_nil]
    exact (hqueue.delivered hdelivered).flushed (hcompleting.trans hidle) hflushed
  | poll _ hrequest hresult hadvanced =>
    rw [arrivals, hrequest, Option.bind_some, hresult]
    exact hqueue.advanced hadvanced
  | endFlush hcompleting =>
    rw [arrivals, List.append_nil]
    exact ⟨hqueue.bounded, fun _ => hqueue.polling hcompleting, by simp, hqueue.order⟩

end QueueDiscipline

/--
A flush that goes on to poll requests has dispatched those of the queue whose callers
wait and then those of the channel, each once and in this order, and left both empty.
-/
def DispatchesInOrder (params : ClusterParams) (conn : ClusterConn Conn) : Action Conn → Prop
  | .beginFlush position poll =>
    ∀ next, conn.step params (.beginFlush position poll) = some next → next.completing.isSome →
      ∃ sent, conn.sendRefreshError position = some sent ∧
        next.inFlightRequests = sent.inFlightRequests ++
          ((conn.recoveryQueue ++ sent.pendingRequests).filter conn.isOpen).map
            Request.dispatched ∧
        next.held.Nodup ∧ next.recoveryQueue = [] ∧ next.pendingRequests = []
  | _ => True

theorem isOpen_congr (hclosed : next.closed = conn.closed) : next.isOpen = conn.isOpen := by
  funext request
  simp [isOpen, isClosed, hclosed]

theorem Distinct.dispatchesInOrder (hdistinct : Distinct conn) (action : Action Conn) :
    DispatchesInOrder params conn action := by
  cases action with
  | beginFlush position poll =>
    intro next hstep hcompleting
    have honce := (List.nodup_append.mp (step_distinct hdistinct hstep).once).1
    cases step_stepped hstep with
    | beginFlush hidle hsent hdelivered hflushed =>
      obtain ⟨-, hqueue, hsame, -, hclosed⟩ := hdelivered.frame
      refine ⟨_, hsent, ?_⟩
      cases hflushed with
      | held | failed => simp [hsame, hidle] at hcompleting
      | started =>
        refine ⟨?_, honce, rfl, rfl⟩
        rw [hqueue, isOpen_congr hclosed]
  | _ => trivial

section Reconnect

private def queueParams : ClusterParams := ⟨1, some 2⟩

private def reconnectActions : List (Action Unit) :=
  [.submit 0 ⟨.cmd (.singleNode .random)⟩, .beginFlush 0 .pending,
    .poll .plain 0
      (.attempted (.error (.node "a", .withDescription .fatalSendError ""))),
    .endFlush, .submit 1 ⟨.cmd (.singleNode .random)⟩, .beginFlush 0 .pending, .giveUp 0,
    .submit 2 ⟨.cmd (.singleNode .random)⟩, .beginFlush 0 .pending,
    .submit 3 ⟨.cmd (.singleNode .random)⟩, .beginFlush 0 .ended]

end Reconnect

end ClusterConn

end ValkeyGlide.Cluster
