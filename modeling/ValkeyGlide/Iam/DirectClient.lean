import ValkeyGlide.Foundation.Run
import ValkeyGlide.Foundation.Table
import ValkeyGlide.Iam.TokenManager

/-!
# Token rotation on a client that is used directly

Before a command is dispatched, a client that no pool manages takes over a rotated token as
the password for its next reconnection (`reconcile_iam_before_dispatch` in `client/mod.rs`).
The call looks at `token_changed`, reads the token, clears the flag and stores the token, in
four steps that race with rotations and with the calls of other commands.  A token can get
lost between them: the flag that is cleared may have been set for a newer token than the one
that was read, the update may fail after the flag has been cleared, and an older token may be
stored after a newer one.
-/

namespace ValkeyGlide.Iam

open Foundation Protocol

variable {Token : Type}

inductive Reconcile (Token : Type) where
  | getToken
  | clearTokenChanged (currentToken : Token)
  | updatePassword (currentToken : Token)
  deriving DecidableEq, Repr

structure DirectClient (Token : Type) where
  manager : IamTokenManager Token
  password : Option Token
  rotations : AList fun _ : Nat => Rotation Token
  calls : AList fun _ : Nat => Reconcile Token

inductive DirectAction (Token : Type) where
  | startRotation (rotation : Nat) (newToken : Token)
  | rotate (rotation : Nat) (now : Nat)
  | startCall (call : Nat)
  | continueCall (call : Nat) (updated : RedisResult Unit)

namespace DirectClient

def new (initialToken : Token) (password : Option Token) (now : Nat) : DirectClient Token :=
  ⟨.new initialToken now, password, ∅, ∅⟩

def advanceRotation (client : DirectClient Token) (rotation : Nat) :
    IamTokenManager Token × Option (Rotation Token) → DirectClient Token
  | (manager, some next) =>
    { client with manager := manager, rotations := client.rotations.insert rotation next }
  | (manager, none) =>
    { client with manager := manager, rotations := client.rotations.erase rotation }

def reconcileIamBeforeDispatch (isEmpty : Token → Bool) (client : DirectClient Token) (call : Nat)
    (updated : RedisResult Unit) : Reconcile Token → DirectClient Token
  | .getToken =>
    match availableToken isEmpty client.manager with
    | .ok currentToken =>
      { client with calls := client.calls.insert call (.clearTokenChanged currentToken) }
    | .error _ => { client with calls := client.calls.erase call }
  | .clearTokenChanged currentToken =>
    { client with
      manager := client.manager.clearTokenChanged
      calls := client.calls.insert call (.updatePassword currentToken) }
  | .updatePassword currentToken =>
    match updated with
    | .ok _ =>
      { client with password := some currentToken, calls := client.calls.erase call }
    | .error _ => { client with calls := client.calls.erase call }

def step (isEmpty : Token → Bool) (client : DirectClient Token) :
    DirectAction Token → Option (DirectClient Token)
  | .startRotation rotation newToken =>
    match client.rotations.lookup rotation with
    | some _ => none
    | none =>
      some { client with
        rotations := client.rotations.insert rotation (.setCachedToken newToken) }
  | .rotate rotation now =>
    (client.rotations.lookup rotation).map fun next =>
      client.advanceRotation rotation (client.manager.handleTokenRefresh now next)
  | .startCall call =>
    match client.calls.lookup call with
    | some _ => none
    | none =>
      if client.manager.tokenChanged then
        some { client with calls := client.calls.insert call .getToken }
      else some client
  | .continueCall call updated =>
    (client.calls.lookup call).map (client.reconcileIamBeforeDispatch isEmpty call updated)

/-! ## Who still has to take over the latest token -/

def RotationDue (client : DirectClient Token) : Prop :=
  ∃ rotation, client.rotations.lookup rotation = some .setCreatedAt ∨
    client.rotations.lookup rotation = some .setTokenChanged

def UpdateDue (client : DirectClient Token) (call : Option Nat) : Prop :=
  ∃ other, some other ≠ call ∧
    client.calls.lookup other = some (.updatePassword client.manager.cachedToken)

/-- The latest token is stored, or somebody will take it over. -/
def Noticed (client : DirectClient Token) : Prop :=
  client.password = some client.manager.cachedToken ∨ client.manager.tokenChanged = true ∨
    client.RotationDue ∨ client.UpdateDue none

/--
What keeps a step from losing the latest token.  A call clears the flag, fails to update the
password or stores an older token only if the token is stored already or is still to be taken
over without that call.
-/
def KeepsNotice (client : DirectClient Token) : DirectAction Token → Prop
  | .continueCall call updated =>
    match client.calls.lookup call with
    | some (.clearTokenChanged currentToken) =>
      currentToken = client.manager.cachedToken ∨
        client.password = some client.manager.cachedToken ∨
        client.RotationDue ∨ client.UpdateDue (some call)
    | some (.updatePassword currentToken) =>
      (match updated with
        | .ok _ => currentToken = client.manager.cachedToken
        | .error _ => client.password = some client.manager.cachedToken) ∨
        client.manager.tokenChanged = true ∨ client.RotationDue ∨
        client.UpdateDue (some call)
    | _ => True
  | _ => True

/--
No rotation comes between the moment a call reads the token and the moment it clears the flag,
the updates succeed, and none of them replaces the latest token by an older one.
-/
def InOrder (client : DirectClient Token) : DirectAction Token → Prop
  | .continueCall call updated =>
    match client.calls.lookup call with
    | some (.clearTokenChanged currentToken) => currentToken = client.manager.cachedToken
    | some (.updatePassword currentToken) =>
      updated = .ok () ∧ (currentToken = client.manager.cachedToken ∨
        client.password ≠ some client.manager.cachedToken)
    | _ => True
  | _ => True

def Quiet (client : DirectClient Token) : Prop := client.rotations = ∅ ∧ client.calls = ∅

variable {client next : DirectClient Token} {call rotation : Nat}

theorem UpdateDue.other (hdue : client.UpdateDue none) (call : Nat)
    (hcall : client.calls.lookup call ≠ some (.updatePassword client.manager.cachedToken)) :
    client.UpdateDue (some call) := by
  obtain ⟨other, -, hother⟩ := hdue
  refine ⟨other, fun heq => ?_, hother⟩
  cases heq
  exact hcall hother

theorem UpdateDue.frame (hdue : client.UpdateDue (some call))
    (htoken : next.manager.cachedToken = client.manager.cachedToken)
    (hcalls : ∀ other, other ≠ call → next.calls.lookup other = client.calls.lookup other) :
    next.UpdateDue none := by
  obtain ⟨other, hne, hother⟩ := hdue
  refine ⟨other, Option.some_ne_none other, ?_⟩
  rw [hcalls other fun heq => hne (congrArg some heq), htoken]
  exact hother

theorem RotationDue.frame (hdue : client.RotationDue) (rotation : Nat)
    (hrotation : client.rotations.lookup rotation ≠ some .setCreatedAt ∧
      client.rotations.lookup rotation ≠ some .setTokenChanged)
    (hrotations : ∀ other, other ≠ rotation →
      next.rotations.lookup other = client.rotations.lookup other) : next.RotationDue := by
  obtain ⟨other, hother⟩ := hdue
  refine ⟨other, ?_⟩
  rw [hrotations other]
  · exact hother
  · rintro rfl
    exact hother.elim hrotation.1 hrotation.2

theorem Noticed.frame (hnoticed : client.Noticed) (hpassword : next.password = client.password)
    (htoken : next.manager.cachedToken = client.manager.cachedToken)
    (hflag : next.manager.tokenChanged = client.manager.tokenChanged)
    (hrotations : client.RotationDue → next.RotationDue)
    (hupdates : client.UpdateDue none → next.UpdateDue none) : next.Noticed := by
  unfold Noticed
  rw [hpassword, htoken, hflag]
  exact hnoticed.imp_right (Or.imp_right (Or.imp hrotations hupdates))

variable {isEmpty : Token → Bool} {action : DirectAction Token} (hnoticed : client.Noticed)
include hnoticed

theorem noticed_startRotation {newToken : Token}
    (hstep : client.step isEmpty (.startRotation rotation newToken) = some next) :
    next.Noticed := by
  simp only [step] at hstep
  cases hlookup : client.rotations.lookup rotation with
  | some phase => simp [hlookup] at hstep
  | none =>
    simp only [hlookup, Option.some.injEq] at hstep
    subst hstep
    refine hnoticed.frame rfl rfl rfl (fun hdue => hdue.frame rotation ?_ ?_) id
    · simp [hlookup]
    · exact fun other hne => AList.lookup_insert_ne hne

theorem noticed_rotate {now : Nat}
    (hstep : client.step isEmpty (.rotate rotation now) = some next) : next.Noticed := by
  obtain ⟨phase, hphase, rfl⟩ := Option.map_eq_some_iff.mp hstep
  cases phase with
  | setCachedToken newToken =>
    exact .inr (.inr (.inl ⟨rotation, .inl (AList.lookup_insert _)⟩))
  | setCreatedAt => exact .inr (.inr (.inl ⟨rotation, .inr (AList.lookup_insert _)⟩))
  | setTokenChanged => exact .inr (.inl rfl)
  | bumpGeneration =>
    refine hnoticed.frame rfl rfl rfl (fun hdue => hdue.frame rotation ?_ ?_) id
    · simp [hphase]
    · exact fun other hne => AList.lookup_erase_ne hne

theorem noticed_startCall (hstep : client.step isEmpty (.startCall call) = some next) :
    next.Noticed := by
  simp only [step] at hstep
  cases hlookup : client.calls.lookup call with
  | some phase => simp [hlookup] at hstep
  | none =>
    simp only [hlookup] at hstep
    split_ifs at hstep
    · cases hstep
      refine hnoticed.frame rfl rfl rfl id fun hdue => (hdue.other call ?_).frame rfl ?_
      · simp [hlookup]
      · exact fun other hne => AList.lookup_insert_ne hne
    · cases hstep
      exact hnoticed

theorem noticed_continueCall {updated : RedisResult Unit}
    (hkeeps : client.KeepsNotice (.continueCall call updated))
    (hstep : client.step isEmpty (.continueCall call updated) = some next) : next.Noticed := by
  obtain ⟨phase, hphase, rfl⟩ := Option.map_eq_some_iff.mp hstep
  simp only [KeepsNotice, hphase] at hkeeps
  cases phase with
  | getToken =>
    have hother : client.calls.lookup call ≠
        some (.updatePassword client.manager.cachedToken) := by simp [hphase]
    simp only [reconcileIamBeforeDispatch]
    cases availableToken isEmpty client.manager with
    | ok currentToken =>
      exact hnoticed.frame rfl rfl rfl id fun hdue => (hdue.other call hother).frame rfl
        fun other hne => AList.lookup_insert_ne hne
    | error error =>
      exact hnoticed.frame rfl rfl rfl id fun hdue => (hdue.other call hother).frame rfl
        fun other hne => AList.lookup_erase_ne hne
  | clearTokenChanged currentToken =>
    rcases hkeeps with rfl | hstored | hdue | hdue
    · exact .inr (.inr (.inr ⟨call, Option.some_ne_none call, AList.lookup_insert _⟩))
    · exact .inl hstored
    · exact .inr (.inr (.inl hdue))
    · exact .inr (.inr (.inr (hdue.frame rfl fun other hne => AList.lookup_insert_ne hne)))
  | updatePassword currentToken =>
    cases updated with
    | ok value =>
      rcases hkeeps with rfl | hflag | hdue | hdue
      · exact .inl rfl
      · exact .inr (.inl hflag)
      · exact .inr (.inr (.inl hdue))
      · exact .inr (.inr (.inr (hdue.frame rfl fun other hne => AList.lookup_erase_ne hne)))
    | error error =>
      rcases hkeeps with hstored | hflag | hdue | hdue
      · exact .inl hstored
      · exact .inr (.inl hflag)
      · exact .inr (.inr (.inl hdue))
      · exact .inr (.inr (.inr (hdue.frame rfl fun other hne => AList.lookup_erase_ne hne)))

theorem noticed_step (hkeeps : client.KeepsNotice action)
    (hstep : client.step isEmpty action = some next) : next.Noticed := by
  cases action with
  | startRotation rotation newToken => exact noticed_startRotation hnoticed hstep
  | rotate rotation now => exact noticed_rotate hnoticed hstep
  | startCall call => exact noticed_startCall hnoticed hstep
  | continueCall call updated => exact noticed_continueCall hnoticed hkeeps hstep

theorem Noticed.keepsNotice (hinOrder : client.InOrder action) : client.KeepsNotice action := by
  cases action with
  | startRotation rotation newToken => trivial
  | rotate rotation now => trivial
  | startCall call => trivial
  | continueCall call updated =>
    simp only [InOrder, KeepsNotice] at hinOrder ⊢
    cases hphase : client.calls.lookup call with
    | none => trivial
    | some phase =>
      simp only [hphase] at hinOrder
      cases phase with
      | getToken => trivial
      | clearTokenChanged currentToken => exact .inl hinOrder
      | updatePassword currentToken =>
        obtain ⟨rfl, horder⟩ := hinOrder
        by_cases hlatest : currentToken = client.manager.cachedToken
        · exact .inl hlatest
        · rcases hnoticed with hstored | hflag | hdue | hdue
          · exact absurd hstored (horder.resolve_left hlatest)
          · exact .inr (.inl hflag)
          · exact .inr (.inr (.inl hdue))
          · refine .inr (.inr (.inr (hdue.other call ?_)))
            simpa [hphase] using hlatest

theorem Noticed.stored (hquiet : client.Quiet) (hflag : client.manager.tokenChanged = false) :
    client.password = some client.manager.cachedToken := by
  rcases hnoticed with hstored | hset | ⟨rotation, hdue⟩ | ⟨call, -, hdue⟩
  · exact hstored
  · rw [hflag] at hset
    cases hset
  · rw [hquiet.1] at hdue
    simp at hdue
  · rw [hquiet.2] at hdue
    simp at hdue

end DirectClient

/--
In a run no step of which loses the latest token, a run in order for instance, the password
for the next reconnection is the token that was rotated last, whenever no rotation and no call
is under way and the flag is not set.
-/
theorem rotation_not_lost (isEmpty : Token → Bool) (initialToken : Token)
    (password : Option Token) (now : Nat) (actions : List (DirectAction Token))
    (final : DirectClient Token)
    (hrun : run (DirectClient.step isEmpty) (.new initialToken password now) actions = some final)
    (hquiet : final.Quiet) (hflag : final.manager.tokenChanged = false) :
    (Along (DirectClient.step isEmpty) DirectClient.InOrder (.new initialToken password now)
        actions →
      Along (DirectClient.step isEmpty) DirectClient.KeepsNotice (.new initialToken password now)
        actions) ∧
      (Along (DirectClient.step isEmpty) DirectClient.KeepsNotice (.new initialToken password now)
          actions →
        final.password = some final.manager.cachedToken) := by
  have hinit : (DirectClient.new initialToken password now).Noticed := .inr (.inl rfl)
  constructor
  · refine along_of_invariant DirectClient.Noticed ?_ ?_ hinit
    · exact fun _ _ _ hnoticed hinOrder => DirectClient.noticed_step hnoticed
        (hnoticed.keepsNotice hinOrder)
    · exact fun _ _ => DirectClient.Noticed.keepsNotice
  · intro hkeeps
    have hnoticed : final.Noticed := run_invariant DirectClient.Noticed
      (fun _ _ _ => DirectClient.noticed_step) hinit hkeeps hrun
    exact hnoticed.stored hquiet hflag

def wholeRotation (rotation : Nat) (newToken : Token) : List (DirectAction Token) :=
  [.startRotation rotation newToken, .rotate rotation 0, .rotate rotation 0, .rotate rotation 0,
    .rotate rotation 0]

def wholeCall (call : Nat) (updated : RedisResult Unit) : List (DirectAction Token) :=
  [.startCall call, .continueCall call updated, .continueCall call updated,
    .continueCall call updated]

theorem rotated_token_stored :
    ∃ final, run (DirectClient.step String.isEmpty) (.new "one" (some "one") 0)
        (wholeRotation 0 "two" ++ wholeCall 0 (.ok ())) = some final ∧
      final.password = some "two" := by
  let final : DirectClient String := ⟨⟨"two", 0, false, 2⟩, some "two", ∅, ∅⟩
  have hrun : run (DirectClient.step String.isEmpty) (.new "one" (some "one") 0)
      (wholeRotation 0 "two" ++ wholeCall 0 (.ok ())) = some final := rfl
  obtain ⟨hkeeps, hstored⟩ := rotation_not_lost String.isEmpty "one" (some "one") 0 _ final hrun
    ⟨rfl, rfl⟩ rfl
  refine ⟨final, hrun, hstored (hkeeps ?_)⟩
  exact ⟨trivial, trivial, trivial, trivial, trivial, trivial, trivial, rfl, ⟨rfl, .inl rfl⟩,
    trivial⟩

theorem rotated_token_lost :
    let timedOut : RedisResult Unit := .error (.withDescription .ioError
      "Password update operation timed out, please check the connection")
    let lost : DirectClient String := ⟨⟨"two", 0, false, 2⟩, some "one", ∅, ∅⟩
    let between : List (DirectAction String) :=
      [.startCall 0, .continueCall 0 (.ok ())] ++ wholeRotation 0 "two" ++
        [.continueCall 0 (.ok ()), .continueCall 0 (.ok ())]
    let failing := wholeRotation 0 "two" ++ wholeCall 0 timedOut
    let overtaken : List (DirectAction String) :=
      [.startCall 0, .continueCall 0 (.ok ()), .continueCall 0 (.ok ())] ++
        wholeRotation 0 "two" ++ wholeCall 1 (.ok ()) ++ [.continueCall 0 (.ok ())]
    lost.Quiet ∧ lost.manager.tokenChanged = false ∧
      lost.password ≠ some lost.manager.cachedToken ∧
      ∀ actions ∈ [between, failing, overtaken],
        run (DirectClient.step String.isEmpty) (.new "one" (some "one") 0) actions = some lost := by
  intro timedOut lost between failing overtaken
  have hrun : ∀ actions ∈ [between, failing, overtaken],
      run (DirectClient.step String.isEmpty) (.new "one" (some "one") 0) actions = some lost := by
    intro actions hmem
    simp only [List.mem_cons, List.not_mem_nil, or_false] at hmem
    rcases hmem with rfl | rfl | rfl <;> rfl
  exact ⟨⟨rfl, rfl⟩, rfl, by decide, hrun⟩

end ValkeyGlide.Iam
