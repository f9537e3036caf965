import Mathlib.Data.List.Induction
import Mathlib.Data.List.ReduceOption
import ValkeyGlide.Cluster.Request

/-!
# Redirected routes

Every `MOVED` or `ASK` reply wraps the route of a request in one more redirect,
and `resetRouting` takes off one.  The route that the request was sent with
comes back only when there was at most one redirect to take off, and then only
when the route under it needs no further change.
-/

namespace ValkeyGlide.Cluster

open Protocol

variable {Conn : Type}

/-! ## Routes under redirects -/

namespace InternalSingleNodeRouting

def isRedirect : InternalSingleNodeRouting Conn → Bool
  | .redirect _ _ => true
  | _ => false

def isConnection : InternalSingleNodeRouting Conn → Bool
  | .connection _ _ => true
  | _ => false

def unpinned : InternalSingleNodeRouting Conn → InternalSingleNodeRouting Conn
  | .connection address _ => .byAddress address
  | route => route

def redirected (route : InternalSingleNodeRouting Conn) (redirects : List Redirect) :
    InternalSingleNodeRouting Conn :=
  redirects.foldl (fun route redirect => .redirect redirect route) route

@[simp] theorem redirected_nil (route : InternalSingleNodeRouting Conn) :
    route.redirected [] = route := rfl

theorem redirected_concat (route : InternalSingleNodeRouting Conn) (redirects : List Redirect)
    (redirect : Redirect) :
    route.redirected (redirects ++ [redirect]) =
      .redirect redirect (route.redirected redirects) := by
  simp [redirected]

variable {route : InternalSingleNodeRouting Conn}

theorem isRedirect_unpinned (hroute : route.isRedirect = false) :
    route.unpinned.isRedirect = false := by
  cases route <;> first | rfl | exact nomatch hroute

theorem isConnection_unpinned (route : InternalSingleNodeRouting Conn) :
    route.unpinned.isConnection = false := by
  cases route <;> rfl

theorem unpinned_eq_self_iff :
    route.unpinned = route ↔ route.isConnection = false := by
  cases route <;> simp [unpinned, isConnection]

theorem fixRoute_eq_unpinned (hroute : route.isRedirect = false) :
    RequestInfo.fixRoute route = route.unpinned := by
  cases route <;> first | rfl | exact nomatch hroute

theorem fixRoute_redirected_concat (route : InternalSingleNodeRouting Conn)
    (redirects : List Redirect) (redirect : Redirect) :
    RequestInfo.fixRoute (route.redirected (redirects ++ [redirect])) =
      route.redirected redirects := by
  rw [redirected_concat]
  rfl

end InternalSingleNodeRouting

open InternalSingleNodeRouting

/-! ## Requests under redirects -/

namespace RequestInfo

def singleNodeRoute (info : RequestInfo Conn) : Option (InternalSingleNodeRouting Conn) :=
  match info.cmd with
  | .cmd (.singleNode route) => some route
  | .cmd (.multiNode _ _) => none
  | .pipeline route => some (route.getD .random)
  | .clusterScan => none
  | .operationRequest => none

def setRedirects (info : RequestInfo Conn) (redirects : List (Option Redirect)) :
    Option (RequestInfo Conn) :=
  redirects.foldlM setRedirect info

variable {info : RequestInfo Conn} {route : InternalSingleNodeRouting Conn}

theorem eq_of_singleNodeRoute (hroute : info.singleNodeRoute = some route) :
    info = ⟨.cmd (.singleNode route)⟩ ∨
      ∃ initial, info = ⟨.pipeline initial⟩ ∧ initial.getD .random = route := by
  obtain ⟨cmd⟩ := info
  cases cmd with
  | cmd routing =>
    cases routing with
    | singleNode initial =>
      cases hroute
      exact .inl rfl
    | multiNode => exact nomatch hroute
  | pipeline initial => exact .inr ⟨initial, rfl, Option.some.inj hroute⟩
  | clusterScan | operationRequest => exact nomatch hroute

theorem setRedirect_route (hroute : info.singleNodeRoute = some route) (redirect : Redirect) :
    ∃ next, info.setRedirect (some redirect) = some next ∧
      next.singleNodeRoute = some (.redirect redirect route) := by
  rcases eq_of_singleNodeRoute hroute with rfl | ⟨initial, rfl, rfl⟩ <;> exact ⟨_, rfl, rfl⟩

theorem setRedirects_route (hroute : info.singleNodeRoute = some route)
    (redirects : List (Option Redirect)) :
    ∃ final, info.setRedirects redirects = some final ∧
      final.singleNodeRoute = some (route.redirected redirects.reduceOption) := by
  induction redirects generalizing info route with
  | nil => exact ⟨info, rfl, hroute⟩
  | cons redirect redirects ih =>
    cases redirect with
    | none => exact ih hroute
    | some redirect =>
      obtain ⟨next, hset, hnext⟩ := setRedirect_route hroute redirect
      obtain ⟨final, hrest, hfinal⟩ := ih hnext
      refine ⟨final, ?_, hfinal⟩
      unfold setRedirects at hrest ⊢
      rw [List.foldlM_cons, hset]
      exact hrest

theorem resetRouting_route (hroute : info.singleNodeRoute = some route) :
    ∃ reset, info.resetRouting = some reset ∧ reset.singleNodeRoute = some (fixRoute route) := by
  rcases eq_of_singleNodeRoute hroute with rfl | ⟨_ | initial, rfl, rfl⟩ <;> exact ⟨_, rfl, rfl⟩

/-! ## What a reset leaves -/

/-- One redirect at most, and none around a connection. -/
def OneLayer (route : InternalSingleNodeRouting Conn) (redirects : List (Option Redirect)) : Prop :=
  redirects.reduceOption.length = 0 ∨
    redirects.reduceOption.length = 1 ∧ route.isConnection = false

private theorem fixRoute_redirected (hinitial : route.isRedirect = false)
    (redirects : List Redirect) :
    fixRoute (route.redirected redirects) =
      if redirects.length = 0 then route.unpinned else route.redirected redirects.dropLast := by
  induction redirects using List.reverseRecOn with
  | nil => simpa using fixRoute_eq_unpinned hinitial
  | append_singleton redirects redirect _ => simp [fixRoute_redirected_concat]

private theorem fixRoute_redirected_cases (hinitial : route.isRedirect = false)
    (redirects : List (Option Redirect)) :
    (OneLayer route redirects ∧
      fixRoute (route.redirected redirects.reduceOption) = route.unpinned) ∨
    (¬ OneLayer route redirects ∧
      ((fixRoute (route.redirected redirects.reduceOption)).isRedirect = true ∨
        (fixRoute (route.redirected redirects.reduceOption)).isConnection = true)) := by
  unfold OneLayer
  rw [fixRoute_redirected hinitial]
  generalize redirects.reduceOption = real
  cases real using List.reverseRecOn with
  | nil => exact .inl ⟨.inl rfl, rfl⟩
  | append_singleton real last =>
    have hlength : (real ++ [last]).length ≠ 0 := by simp
    rw [if_neg hlength, List.dropLast_concat]
    cases real using List.reverseRecOn with
    | nil =>
      cases hconn : route.isConnection with
      | false => exact .inl ⟨.inr ⟨rfl, rfl⟩, (unpinned_eq_self_iff.mpr hconn).symm⟩
      | true => exact .inr ⟨by simp, .inr hconn⟩
    | append_singleton real second =>
      refine .inr ⟨by simp, .inl ?_⟩
      rw [redirected_concat]
      rfl

/-- A reset after any number of redirects brings back the route of the request exactly when
there is one layer to take off; otherwise the request stays redirected or pinned. -/
theorem resetRouting_restores_iff_oneLayer (info : RequestInfo Conn)
    (route : InternalSingleNodeRouting Conn) (redirects : List (Option Redirect))
    (hroute : info.singleNodeRoute = some route) (hinitial : route.isRedirect = false) :
    ∃ final reset, info.setRedirects redirects = some final ∧ final.resetRouting = some reset ∧
      (reset.singleNodeRoute = some route.unpinned ↔ OneLayer route redirects) ∧
      ((∃ left, reset.singleNodeRoute = some left ∧ left.isRedirect = false ∧
        left.isConnection = false) ↔ OneLayer route redirects) := by
  obtain ⟨final, hset, hfinal⟩ := setRedirects_route hroute redirects
  obtain ⟨reset, hreset, hleft⟩ := resetRouting_route hfinal
  refine ⟨final, reset, hset, hreset, ?_⟩
  rw [hleft]
  rcases fixRoute_redirected_cases hinitial redirects with ⟨hone, heq⟩ | ⟨hmany, hleft⟩
  · rw [heq]
    refine ⟨iff_of_true rfl hone, iff_of_true ?_ hone⟩
    exact ⟨_, rfl, isRedirect_unpinned hinitial, isConnection_unpinned route⟩
  · refine ⟨iff_of_false ?_ hmany, iff_of_false ?_ hmany⟩
    · intro heq
      rw [Option.some.inj heq, isRedirect_unpinned hinitial, isConnection_unpinned] at hleft
      simp at hleft
    · rintro ⟨left, ⟨⟩, hredirect, hconn⟩
      rw [hredirect, hconn] at hleft
      simp at hleft

theorem resetRouting_restores_one_layer :
    (∃ final reset : RequestInfo Nat,
      setRedirects ⟨.cmd (.singleNode (.connection "a" 0))⟩ [none] = some final ∧
        final.resetRouting = some reset ∧
        reset.singleNodeRoute = some (.byAddress "a")) ∧
    ∃ final reset : RequestInfo Nat,
      setRedirects ⟨.cmd (.singleNode .random)⟩ [some (.moved "b")] = some final ∧
        final.resetRouting = some reset ∧ reset.singleNodeRoute = some .random := by
  obtain ⟨final, reset, hset, hreset, hiff, -⟩ :=
    resetRouting_restores_iff_oneLayer (⟨.cmd (.singleNode (.connection "a" 0))⟩ : RequestInfo Nat)
      (.connection "a" 0) [none] rfl rfl
  obtain ⟨final', reset', hset', hreset', hiff', -⟩ :=
    resetRouting_restores_iff_oneLayer (⟨.cmd (.singleNode .random)⟩ : RequestInfo Nat)
      .random [some (.moved "b")] rfl rfl
  exact ⟨⟨final, reset, hset, hreset, hiff.mpr (.inl rfl)⟩,
    final', reset', hset', hreset', hiff'.mpr (.inr ⟨rfl, rfl⟩)⟩

end RequestInfo

/-! ## A request that is redirected twice -/

private def redirectContext : PollContext where
  texts := ⟨fun detail => ["7", detail], fun _ => some 7⟩
  reverseLookupAddress _ := none
  addressResolver address := address

private def movedTo (address : String) : RedisError := .withDescriptionAndDetail .moved "" address

private def pollError (request : PendingRequest Nat) (address : String) (error : RedisError) :
    Option (PollResult Nat) :=
  Request.poll redirectContext 5 (fun _ => false) ⟨some request, .future⟩
    (.attempted (.error (.node address, error)))

theorem reset_leaves_redirect_or_connection :
    (∃ first second third : PendingRequest Nat,
      pollError ⟨0, 0, ⟨.cmd (.singleNode .random)⟩⟩ "a" (movedTo "b") =
        some (.ready (.refreshSlots (some first) false (some ⟨"b", 7⟩)) none) ∧
      pollError first "b" (movedTo "c") =
        some (.ready (.refreshSlots (some second) false (some ⟨"c", 7⟩)) none) ∧
      pollError second "c" (.withDescription .fatalSendError "") =
        some (.ready (.reconnect (some third) "c") none) ∧
      third.info.singleNodeRoute = some (.redirect (.moved "b") .random)) ∧
    ∃ first second : PendingRequest Nat,
      pollError ⟨0, 0, ⟨.cmd (.singleNode (.connection "a" 0))⟩⟩ "a" (movedTo "b") =
        some (.ready (.refreshSlots (some first) false (some ⟨"b", 7⟩)) none) ∧
      pollError first "b" (.withDescription .fatalSendError "") =
        some (.ready (.reconnect (some second) "b") none) ∧
      second.info.singleNodeRoute = some (.connection "a" 0) :=
  ⟨⟨_, _, _, rfl, rfl, rfl, rfl⟩, _, _, rfl, rfl, rfl⟩

end ValkeyGlide.Cluster
