import ValkeyGlide.Connection.Matching

/-!
# A desynchronised connection

When the fence of a command is not answered by `PONG`, the replies on a connection can no
longer be matched with the requests, and the sink records that
(`response_sync_lost` in `multiplexed_connection.rs`).  Here a server may answer anything,
in any number of frames, and the decoder and the socket may fail at any time.  The main
result is that from the loss on nobody gets a reply other than an error, and nothing is
written.
-/

namespace ValkeyGlide.Connection

open Protocol

/-- `written` are the callers whose requests were handed to the socket. -/
structure Traffic where
  sink : PipelineSink
  calls : Nat
  written : List Nat
  effects : List SinkEffect

/--
`receive` is a reply, a push frame or an error of the decoder; `flushFailed` is an error
while the socket is flushed or closed.
-/
inductive TrafficAction where
  | startSend (pipelineResponseCount : Option Nat) (isTransaction isFenced isClosed : Bool)
      (socket : RedisResult Unit)
  | sinkFailed (error : RedisError)
  | flushFailed (error : RedisError)
  | receive (item : RedisResult Value)

namespace Traffic

def initial (hasCache : Bool) : Traffic := ⟨.new hasCache, 0, [], []⟩

def sentTo (traffic : Traffic) (output : Nat) : List (RedisResult Value) :=
  sends traffic.effects output

def waiting (traffic : Traffic) : List Nat := traffic.sink.inFlight.map InFlight.output

section Steps

variable (debug : RedisResult Value → String)

def deliver (traffic : Traffic) (item : RedisResult Value) : Traffic :=
  let (sink, effects) := traffic.sink.sendResult debug item
  { traffic with sink := sink, effects := traffic.effects ++ effects }

def step (traffic : Traffic) : TrafficAction → Traffic
  | .startSend pipelineResponseCount isTransaction isFenced isClosed socket =>
    let message : PipelineMessage :=
      ⟨traffic.calls, pipelineResponseCount, isTransaction, isFenced⟩
    let (sink, effects, outcome) := traffic.sink.startSend message isClosed socket
    { sink := sink
      calls := traffic.calls + 1
      written := if outcome = .written then traffic.written ++ [traffic.calls]
        else traffic.written
      effects := traffic.effects ++ effects }
  | .sinkFailed error => { traffic with sink := { traffic.sink with error := some error } }
  | .flushFailed error => traffic.deliver debug (.error error)
  | .receive item => traffic.deliver debug item

def run (traffic : Traffic) (actions : List TrafficAction) : Traffic :=
  actions.foldl (step debug) traffic

end Steps

end Traffic

/-! ## What a result can do -/

section Result

variable {debug : RedisResult Value → String} {sink : PipelineSink}

/--
The request in front goes on waiting, or it is sent a response; when the replies cannot be
matched any more, that is an error.
-/
def Serves (waiting : List InFlight) (served : PipelineSink × List SinkEffect) : Prop :=
  (served.1.inFlight.map InFlight.output = waiting.map InFlight.output ∧ served.2 = []) ∨
  ∃ entry rest response, waiting = entry :: rest ∧ served.1.inFlight = rest ∧
    served.2 = [.send entry.output response] ∧
    (served.1.responseSyncLost → ∃ error, response = .error error)

theorem serves_fenced {popped : PipelineSink} (hsynced : ¬ popped.responseSyncLost)
    (entry : InFlight) (result : RedisResult Value) :
    Serves (entry :: popped.inFlight) (popped.handleFencedCommand debug entry result) := by
  have hsent : ∀ response, Serves (entry :: popped.inFlight)
      (popped, [.send entry.output response]) := fun response =>
    .inr ⟨entry, popped.inFlight, response, rfl, rfl, rfl, fun hlost => absurd hlost hsynced⟩
  unfold PipelineSink.handleFencedCommand
  cases entry.fencedResult with
  | some stored =>
    have hlost : Serves (entry :: popped.inFlight) ({ popped with responseSyncLost := true },
        [.send entry.output (.error (PipelineSink.fenceError debug result))]) :=
      .inr ⟨entry, popped.inFlight, _, rfl, rfl, rfl, fun _ => ⟨_, rfl⟩⟩
    dsimp only
    unfold PipelineSink.handleFencedSecondResponse
    dsimp only
    split
    · split_ifs
      · exact hsent _
      · exact hlost
    · exact hlost
  | none =>
    dsimp only
    unfold PipelineSink.handleFencedFirstResponse
    dsimp only
    split
    · split_ifs
      · exact hsent _
      · exact .inl ⟨rfl, rfl⟩
    · exact .inl ⟨rfl, rfl⟩

theorem serves_answer (hsynced : ¬ sink.responseSyncLost) (result : RedisResult Value) :
    Serves sink.inFlight (sink.answer debug result) := by
  unfold PipelineSink.answer
  cases hqueue : sink.inFlight with
  | nil => exact .inl ⟨congrArg (List.map InFlight.output) hqueue, rfl⟩
  | cons entry rest =>
    have hsent : ∀ response, Serves (entry :: rest)
        ({ sink with inFlight := rest }, [.send entry.output response]) := fun response =>
      .inr ⟨entry, rest, response, rfl, rfl, rfl, fun hlost => absurd hlost hsynced⟩
    dsimp only
    split_ifs
    · have hpopped : ¬ ({ sink with inFlight := rest } : PipelineSink).responseSyncLost := hsynced
      exact serves_fenced hpopped entry result
    · cases entry.responseAggregate with
      | singleCommand => exact hsent _
      | pipeline expected current buffer firstErr isTransaction =>
        dsimp only
        split_ifs
        · exact .inl ⟨rfl, rfl⟩
        · exact hsent _

theorem sendResult_lost (debug : RedisResult Value → String) (hlost : sink.responseSyncLost)
    (result : RedisResult Value) :
    sink.sendResult debug result = (sink, []) ∨
    ∃ entry rest, sink.inFlight = entry :: rest ∧ sink.sendResult debug result =
      ({ sink with inFlight := rest }, [.send entry.output (.error syncLostError)]) := by
  unfold PipelineSink.sendResult
  rw [if_pos hlost]
  split
  next => exact .inl rfl
  next entry rest hqueue => exact .inr ⟨entry, rest, hqueue, rfl⟩

theorem sendResult_serves (debug : RedisResult Value → String) (sink : PipelineSink)
    (result : RedisResult Value) :
    ∃ pushed effects, Quiet pushed ∧ (sink.sendResult debug result).2 = pushed ++ effects ∧
      Serves sink.inFlight ((sink.sendResult debug result).1, effects) := by
  have hnone : Quiet [] := fun _ _ hmem => absurd hmem List.not_mem_nil
  by_cases hlost : sink.responseSyncLost
  · rcases sendResult_lost debug hlost result with hsame | ⟨entry, rest, hqueue, hsend⟩
    · rw [hsame]
      exact ⟨[], [], hnone, rfl, .inl ⟨rfl, rfl⟩⟩
    · rw [hsend]
      exact ⟨[], _, hnone, rfl, .inr ⟨entry, rest, _, hqueue, rfl, rfl, fun _ => ⟨_, rfl⟩⟩⟩
  · unfold PipelineSink.sendResult
    rw [if_neg hlost]
    split
    next kind data =>
      have hquiet := pushEffects_quiet sink kind data
      split_ifs
      · exact ⟨_, _, hquiet, rfl, serves_answer hlost _⟩
      · exact ⟨_, [], hquiet, (List.append_nil _).symm, .inl ⟨rfl, rfl⟩⟩
    next => exact ⟨[], _, hnone, rfl, serves_answer hlost result⟩

end Result

/-! ## Waiting requests have been sent nothing -/

namespace Traffic

variable {debug : RedisResult Value → String} {traffic : Traffic}

structure Unanswered (traffic : Traffic) : Prop where
  distinct : traffic.waiting.Nodup
  allocated : ∀ output ∈ traffic.waiting, output < traffic.calls
  unsent : ∀ output, output ∈ traffic.waiting ∨ traffic.calls ≤ output →
    traffic.sentTo output = []

theorem initial_unanswered (hasCache : Bool) : (initial hasCache).Unanswered where
  distinct := List.nodup_nil
  allocated := fun _ hmem => absurd hmem List.not_mem_nil
  unsent := fun _ _ => rfl

variable {effects : List SinkEffect}

theorem sends_other {output other : Nat}
    (hother : ∀ effect ∈ effects, ∃ result, effect = .send other result) (hne : other ≠ output) :
    sends effects output = [] := by
  refine List.filterMap_eq_nil_iff.mpr ?_
  intro effect hmem
  obtain ⟨result, rfl⟩ := hother effect hmem
  exact if_neg hne

section

variable (hunanswered : traffic.Unanswered) {next : Traffic}
include hunanswered

theorem Unanswered.deliver (item : RedisResult Value) :
    (traffic.deliver debug item).Unanswered := by
  obtain ⟨pushed, effects, hquiet, heffects, hserves⟩ := sendResult_serves debug traffic.sink item
  have hsent : ∀ output, sends effects output = [] →
      (traffic.deliver debug item).sentTo output = traffic.sentTo output := by
    intro output hnothing
    show sends (traffic.effects ++ (traffic.sink.sendResult debug item).2) output = _
    rw [heffects, Multiplexed.sends_append, Multiplexed.sends_append, sends_of_quiet hquiet,
      hnothing, List.append_nil, List.append_nil, sentTo]
  rcases hserves with ⟨hwaiting, rfl⟩ | ⟨entry, rest, response, hqueue, hrest, rfl, -⟩
  · have hsame : (traffic.deliver debug item).waiting = traffic.waiting := hwaiting
    constructor
    · exact hsame ▸ hunanswered.distinct
    · exact hsame ▸ hunanswered.allocated
    · intro output houtput
      rw [hsent output rfl]
      exact hunanswered.unsent output (hsame ▸ houtput)
  · have hbefore : traffic.waiting = entry.output :: rest.map InFlight.output := by
      rw [waiting, hqueue, List.map_cons]
    have hafter : (traffic.deliver debug item).waiting = rest.map InFlight.output :=
      congrArg (List.map InFlight.output) hrest
    have hdistinct := hunanswered.distinct
    rw [hbefore] at hdistinct
    obtain ⟨hfront, hbehind⟩ := List.nodup_cons.mp hdistinct
    constructor
    · exact hafter ▸ hbehind
    · intro output hmem
      rw [hafter] at hmem
      exact hunanswered.allocated output (hbefore ▸ List.mem_cons_of_mem _ hmem)
    · intro output houtput
      rw [hafter] at houtput
      have hlt := hunanswered.allocated entry.output (hbefore ▸ List.mem_cons_self ..)
      have hne : entry.output ≠ output := by
        rintro rfl
        rcases houtput with hmem | hle
        · exact hfront hmem
        · exact Nat.not_le_of_lt hlt hle
      have hown : ∀ effect ∈ [SinkEffect.send entry.output response],
          ∃ result, effect = .send entry.output result :=
        fun effect hmem => ⟨response, List.mem_singleton.mp hmem⟩
      rw [hsent output (sends_other hown hne)]
      refine hunanswered.unsent output (houtput.imp_left fun hmem => ?_)
      exact hbefore ▸ List.mem_cons_of_mem _ hmem

theorem Unanswered.refused (hwaiting : next.waiting = traffic.waiting)
    (hcalls : next.calls = traffic.calls + 1) (heffects : next.effects = traffic.effects ++ effects)
    (hown : ∀ effect ∈ effects, ∃ result, effect = .send traffic.calls result) :
    next.Unanswered := by
  constructor
  · exact hwaiting ▸ hunanswered.distinct
  · intro output hmem
    have hlt := hunanswered.allocated output (hwaiting ▸ hmem)
    omega
  · intro output houtput
    rw [hwaiting, hcalls] at houtput
    have hne : traffic.calls ≠ output := by
      rintro rfl
      rcases houtput with hmem | hle
      · exact Nat.lt_irrefl _ (hunanswered.allocated _ hmem)
      · exact Nat.not_succ_le_self _ hle
    rw [sentTo, heffects, Multiplexed.sends_append, sends_other hown hne, List.append_nil]
    exact hunanswered.unsent output (houtput.imp_right Nat.le_of_succ_le)

theorem Unanswered.written (hwaiting : next.waiting = traffic.waiting ++ [traffic.calls])
    (hcalls : next.calls = traffic.calls + 1) (heffects : next.effects = traffic.effects) :
    next.Unanswered := by
  have hmem_iff : ∀ output, output ∈ next.waiting ↔
      output ∈ traffic.waiting ∨ output = traffic.calls := by
    intro output
    rw [hwaiting, List.mem_append, List.mem_singleton]
  constructor
  · have hnew : traffic.calls ∉ traffic.waiting := fun hmem =>
      Nat.lt_irrefl _ (hunanswered.allocated _ hmem)
    rw [hwaiting, ← List.concat_eq_append]
    exact hunanswered.distinct.concat hnew
  · intro output hmem
    rcases (hmem_iff output).mp hmem with hmem | rfl
    · have hlt := hunanswered.allocated output hmem
      omega
    · omega
  · intro output houtput
    rw [sentTo, heffects]
    refine hunanswered.unsent output ?_
    rcases houtput with hmem | hle
    · exact ((hmem_iff output).mp hmem).imp_right fun heq => Nat.le_of_eq heq.symm
    · rw [hcalls] at hle
      exact .inr (Nat.le_of_succ_le hle)

theorem Unanswered.startSend
    (pipelineResponseCount : Option Nat) (isTransaction isFenced isClosed : Bool)
    (socket : RedisResult Unit) :
    (traffic.step debug
      (.startSend pipelineResponseCount isTransaction isFenced isClosed socket)).Unanswered := by
  simp only [step]
  rcases traffic.sink.startSend_cases
    ⟨traffic.calls, pipelineResponseCount, isTransaction, isFenced⟩ isClosed socket with
    ⟨error, effects, outcome, -, heffects, hsend⟩ | ⟨-, -, hsend⟩
  · rw [hsend]
    refine hunanswered.refused rfl rfl rfl fun effect hmem => ?_
    obtain ⟨error, rfl⟩ := heffects effect hmem
    exact ⟨_, rfl⟩
  · rw [hsend]
    exact hunanswered.written List.map_append rfl (List.append_nil _)

theorem Unanswered.step (action : TrafficAction) :
    (traffic.step debug action).Unanswered := by
  cases action with
  | startSend pipelineResponseCount isTransaction isFenced isClosed socket =>
    exact hunanswered.startSend pipelineResponseCount isTransaction isFenced isClosed socket
  | sinkFailed error => exact ⟨hunanswered.distinct, hunanswered.allocated, hunanswered.unsent⟩
  | flushFailed error => exact hunanswered.deliver (.error error)
  | receive item => exact hunanswered.deliver item

theorem Unanswered.run (actions : List TrafficAction) :
    (traffic.run debug actions).Unanswered := by
  induction actions generalizing traffic with
  | nil => exact hunanswered
  | cons action rest ih => exact ih (hunanswered.step action)

end

/-! ## After the loss -/

def Refusals (effects : List SinkEffect) : Prop :=
  ∀ effect ∈ effects, ∃ output error, effect = .send output (.error error)

def OnlyErrors (effects : List SinkEffect) : Prop :=
  ∀ output, ∀ result ∈ sends effects output, ∃ error, result = .error error

theorem refusals_nil : Refusals [] := fun _ hmem => absurd hmem List.not_mem_nil

theorem Refusals.onlyErrors (hrefusals : Refusals effects) :
    OnlyErrors effects := by
  intro output result hmem
  obtain ⟨effect, heffect, hsend⟩ := List.mem_filterMap.mp hmem
  obtain ⟨other, error, rfl⟩ := hrefusals effect heffect
  simp only [Option.ite_none_right_eq_some] at hsend
  exact ⟨error, (Option.some.inj hsend.2).symm⟩

theorem startSend_refusals (traffic : Traffic) (message : PipelineMessage) (isClosed : Bool)
    (socket : RedisResult Unit) : Refusals (traffic.sink.startSend message isClosed socket).2.1 := by
  rcases traffic.sink.startSend_cases message isClosed socket with
    ⟨_, effects, _, -, heffects, hsend⟩ | ⟨-, -, hsend⟩
  · rw [hsend]
    intro effect hmem
    obtain ⟨error, rfl⟩ := heffects effect hmem
    exact ⟨message.output, error, rfl⟩
  · rw [hsend]
    exact refusals_nil

theorem deliver_onlyErrors {item : RedisResult Value}
    (hlost : (traffic.deliver debug item).sink.responseSyncLost) :
    OnlyErrors (traffic.sink.sendResult debug item).2 := by
  obtain ⟨pushed, effects, hquiet, heffects, hserves⟩ := sendResult_serves debug traffic.sink item
  intro output result hmem
  rw [heffects, Multiplexed.sends_append, sends_of_quiet hquiet, List.nil_append] at hmem
  rcases hserves with ⟨-, rfl⟩ | ⟨entry, rest, response, -, -, rfl, herror⟩
  · exact absurd hmem List.not_mem_nil
  · obtain ⟨error, rfl⟩ := herror hlost
    refine Refusals.onlyErrors ?_ output result hmem
    exact fun effect hmem => ⟨entry.output, error, List.mem_singleton.mp hmem⟩

theorem step_onlyErrors {action : TrafficAction}
    (hlost : (traffic.step debug action).sink.responseSyncLost) :
    ∃ later, (traffic.step debug action).effects = traffic.effects ++ later ∧ OnlyErrors later := by
  cases action with
  | startSend pipelineResponseCount isTransaction isFenced isClosed socket =>
    exact ⟨_, rfl, (startSend_refusals traffic _ isClosed socket).onlyErrors⟩
  | sinkFailed error => exact ⟨[], (List.append_nil _).symm, refusals_nil.onlyErrors⟩
  | flushFailed error | receive item => exact ⟨_, rfl, deliver_onlyErrors hlost⟩

structure SilentSince (start traffic : Traffic) : Prop where
  lost : traffic.sink.responseSyncLost
  written : traffic.written = start.written
  refusals : ∃ later, traffic.effects = start.effects ++ later ∧ Refusals later

theorem silentSince_refl (hlost : traffic.sink.responseSyncLost) : SilentSince traffic traffic :=
  ⟨hlost, rfl, [], (List.append_nil _).symm, refusals_nil⟩

theorem SilentSince.trans {start middle : Traffic} (hfirst : SilentSince start middle)
    (hsecond : SilentSince middle traffic) : SilentSince start traffic := by
  obtain ⟨first, heffects, hrefusals⟩ := hfirst.refusals
  obtain ⟨second, hmore, hothers⟩ := hsecond.refusals
  refine ⟨hsecond.lost, hsecond.written.trans hfirst.written, first ++ second, ?_, ?_⟩
  · rw [hmore, heffects, List.append_assoc]
  · exact fun effect hmem => (List.mem_append.mp hmem).elim (hrefusals effect) (hothers effect)

theorem silentSince_deliver (hlost : traffic.sink.responseSyncLost) (item : RedisResult Value) :
    SilentSince traffic (traffic.deliver debug item) := by
  unfold deliver
  rcases sendResult_lost debug hlost item with hsend | ⟨entry, rest, -, hsend⟩
  · rw [hsend]
    exact ⟨hlost, rfl, [], rfl, refusals_nil⟩
  · rw [hsend]
    refine ⟨hlost, rfl, _, rfl, fun effect hmem => ?_⟩
    exact ⟨entry.output, syncLostError, List.mem_singleton.mp hmem⟩

theorem silentSince_step (hlost : traffic.sink.responseSyncLost) (action : TrafficAction) :
    SilentSince traffic (traffic.step debug action) := by
  cases action with
  | startSend pipelineResponseCount isTransaction isFenced isClosed socket =>
    have hrefusals := startSend_refusals traffic
      ⟨traffic.calls, pipelineResponseCount, isTransaction, isFenced⟩ isClosed socket
    simp only [step]
    rcases traffic.sink.startSend_cases
      ⟨traffic.calls, pipelineResponseCount, isTransaction, isFenced⟩ isClosed socket with
      ⟨error, effects, outcome, houtcome, -, hsend⟩ | ⟨hsynced, -, -⟩
    · rw [hsend] at hrefusals ⊢
      exact ⟨hlost, if_neg houtcome, effects, rfl, hrefusals⟩
    · rw [hsynced] at hlost
      contradiction
  | sinkFailed error => exact ⟨hlost, rfl, [], (List.append_nil _).symm, refusals_nil⟩
  | flushFailed error => exact silentSince_deliver hlost (.error error)
  | receive item => exact silentSince_deliver hlost item

theorem silentSince_run (hlost : traffic.sink.responseSyncLost) (actions : List TrafficAction) :
    SilentSince traffic (traffic.run debug actions) := by
  induction actions generalizing traffic with
  | nil => exact silentSince_refl hlost
  | cons action rest ih =>
    have hstep : SilentSince traffic (traffic.step debug action) := silentSince_step hlost action
    exact hstep.trans (ih hstep.lost)

/--
Once a step has lost the synchronisation, nothing is written any more, and all that is
done for callers is to send them errors.  Errors are also all that the requests in flight
before that step and the later ones are ever sent.
-/
theorem run_lost_sends_only_errors (debug : RedisResult Value → String) (hasCache : Bool)
    (before : List TrafficAction) (action : TrafficAction) (after : List TrafficAction)
    (hlost : (((initial hasCache).run debug before).step debug action).sink.responseSyncLost) :
    let inOrder := (initial hasCache).run debug before
    let lost := inOrder.step debug action
    let last := lost.run debug after
    last.written = lost.written ∧
    (∃ later, last.effects = lost.effects ++ later ∧
      ∀ effect ∈ later, ∃ output error, effect = .send output (.error error)) ∧
    ∀ output, output ∈ inOrder.waiting ∨ inOrder.calls ≤ output →
      ∀ result ∈ last.sentTo output, ∃ error, result = .error error := by
  intro inOrder lost last
  have hsilent : SilentSince lost last := silentSince_run hlost after
  refine ⟨hsilent.written, hsilent.refusals, ?_⟩
  intro output houtput result hmem
  have hunsent : inOrder.sentTo output = [] :=
    ((initial_unanswered hasCache).run before).unsent output houtput
  obtain ⟨losing, hlosing, herrors⟩ := step_onlyErrors hlost
  obtain ⟨later, hlater, hrefusals⟩ := hsilent.refusals
  rw [sentTo, hlater, hlosing, Multiplexed.sends_append, Multiplexed.sends_append] at hmem
  rcases List.mem_append.mp hmem with hmem | hmem
  · rcases List.mem_append.mp hmem with hmem | hmem
    · have hbefore : result ∈ inOrder.sentTo output := hmem
      rw [hunsent] at hbefore
      contradiction
    · exact herrors output result hmem
  · exact hrefusals.onlyErrors output result hmem

theorem mistaken_fence_ends_traffic :
    let before : List TrafficAction :=
      [.startSend none true true false (.ok ()), .startSend (some 2) false false false (.ok ()),
        .receive (.ok (.int 1))]
    let after : List TrafficAction :=
      [.receive (.ok (.int 2)), .startSend none true false false (.ok ()), .receive (.ok (.int 3))]
    let inOrder := (initial true).run (fun _ => "") before
    let lost := inOrder.step (fun _ => "") (.receive (.ok (.int 7)))
    let last := lost.run (fun _ => "") after
    inOrder.waiting = [0, 1] ∧ lost.sink.responseSyncLost = true ∧ last.written = [0, 1] ∧
      (∀ output, output ∈ [0, 1] ∨ 2 ≤ output →
        ∀ result ∈ last.sentTo output, ∃ error, result = .error error) ∧
      last.sentTo 1 = [.error syncLostError] ∧ last.sentTo 2 = [.error syncLostError] := by
  intro before after inOrder lost last
  have hlost : lost.sink.responseSyncLost = true := rfl
  obtain ⟨hwritten, -, hsent⟩ :=
    run_lost_sends_only_errors (fun _ => "") true before (.receive (.ok (.int 7))) after hlost
  exact ⟨rfl, hlost, hwritten, hsent, rfl, rfl⟩

end Traffic

end ValkeyGlide.Connection
