import ValkeyGlide.Pipeline.Cells

/-!
# How a pipeline is retried

A round is disciplined when no command is sent twice for the same target, and
none that already has an answer.  What breaks this is the `ASKING` sent before a
redirected command: it carries the indices of that command, and its failure is
kept for the next round too.  Rounds in which no such failure is kept are
disciplined, and then no answer is refused.
-/

namespace ValkeyGlide.Pipeline

open Foundation Protocol Cluster

def dispatches : RetryMethod → Bool
  | .noRetry | .refreshSlotsAndRetry | .reconnect => false
  | .reconnectAndRetry | .retryImmediately | .waitAndRetry | .askRedirect | .movedRedirect
  | .waitAndRetryOnPrimaryRedirectOnReplica => true

namespace PipelineRequest

def sendsAgain (request : PipelineRequest) (retry : Nat) (method : RetryMethod) : Bool :=
  retry < request.numberOfRetries &&
    (effectiveRetryMethod request.strategy method).any dispatches

/-- No `ASKING` of a node pipeline ends in an error that is sent again. -/
def HelpersQuietAt (request : PipelineRequest) (retry : Nat) (commands : List PlacedCommand) :
    SubPipelineResult → Prop
  | .answered (.ok (.multiple values)) =>
    ∀ answer ∈ commands.zip values, answer.1.ignore = true →
      ∀ error, answer.2 = .serverError error →
        request.sendsAgain retry error.toRedisError.retryMethod = false
  | .answered (.ok (.single _)) => True
  | .answered (.ok .clusterScanResult) => True
  | .answered (.error error) =>
    ∀ placed ∈ commands, placed.ignore = true →
      request.sendsAgain retry error.retryMethod = false
  | .dropped =>
    ∀ placed ∈ commands, placed.ignore = true →
      request.sendsAgain retry .reconnect = false

def HelpersQuiet (request : PipelineRequest) : PipelineState → Round → Prop
  | .waiting retry sent _, round =>
    ∀ node ∈ sent.zip round.results, request.HelpersQuietAt retry node.1.2 node.2
  | .finished _, _ => True
  | .failed _, _ => True

def Disciplined (request : PipelineRequest) (rounds : Nat) : PipelineState → Prop
  | .waiting _ sent responses =>
    rounds ≤ request.numberOfRetries ∧
      ((dispatched sent).map fun placed => (placed.index, placed.innerIndex)).Nodup ∧
      ∀ placed ∈ dispatched sent, ∀ response,
        recorded responses placed.cell = some response → isServerError response.2 = true
  | .finished _ => rounds ≤ request.numberOfRetries + 1
  | .failed _ => False

end PipelineRequest

/-! ## Answers of a round -/

section Answers

variable (request : PipelineRequest) (retry : Nat)

def retryCells (retryMap : RetryMap) : List Cell :=
  ((ungroup retryMap).filter fun kept =>
    retry < request.numberOfRetries && dispatches kept.1).map fun kept => kept.2.cell

def Answered.sentAgain (answer : Answered) : Bool :=
  isServerError answer.value && request.sendsAgain retry answer.retryMethod

theorem retryCells_pushTo (retryMap : RetryMap) (method : RetryMethod) (entry : RetryEntry) :
    (retryCells request retry (pushTo retryMap method entry)).Perm
      (retryCells request retry retryMap ++
        if retry < request.numberOfRetries && dispatches method then [entry.cell]
        else []) := by
  have hperm := ((ungroup_pushTo_perm retryMap method entry).filter fun kept =>
    retry < request.numberOfRetries && dispatches kept.1).map fun kept => kept.2.cell
  refine hperm.trans (.of_eq ?_)
  rw [List.filter_append, List.map_append, List.filter_cons, List.filter_nil, retryCells]
  refine congrArg _ ?_
  rw [apply_ite (List.map _)]
  rfl

theorem retryCells_updateRetryMap (retryMap : RetryMap) (method : RetryMethod)
    (entry : RetryEntry) :
    (retryCells request retry (updateRetryMap request.strategy retryMap method entry)).Perm
      (retryCells request retry retryMap ++
        if request.sendsAgain retry method then [entry.cell] else []) := by
  rw [updateRetryMap, PipelineRequest.sendsAgain]
  cases effectiveRetryMethod request.strategy method with
  | none => simp
  | some kept => simpa using retryCells_pushTo request retry retryMap kept entry

theorem retryCells_keepFailure (address : String) (retryMap : RetryMap) (answer : Answered) :
    (retryCells request retry (keepFailure request.strategy address retryMap answer)).Perm
      (retryCells request retry retryMap ++
        if answer.sentAgain request retry then [answer.placed.cell] else []) := by
  obtain ⟨placed, value, method⟩ := answer
  cases value with
  | serverError error => exact retryCells_updateRetryMap request retry retryMap method _
  | _ => simp [keepFailure, Answered.sentAgain, isServerError]

variable {request retry} {size : Nat}

def answerCells (answers : List Answered) : List Cell :=
  commandCells (answers.map Answered.placed)

variable {answer : Answered} {state : Processing} {commands : List PlacedCommand}
  {result : SubPipelineResult} {later : List Cell}

theorem processAnswer_ready {address : String} {waiting : List Cell}
    (hready : Ready size (answerCells [answer] ++
      (waiting ++ retryCells request retry state.retryMap)) state.responses)
    (hquiet : answer.placed.ignore = true → answer.sentAgain request retry = false) :
    ∃ next, processAnswer request.strategy address state answer = .ok next ∧
      Ready size (waiting ++ retryCells request retry next.retryMap) next.responses := by
  have hkept := (retryCells_keepFailure request retry address state.retryMap answer).append_left
    waiting
  unfold processAnswer
  dsimp only
  cases hignore : answer.placed.ignore with
  | true =>
    rw [if_pos rfl]
    rw [if_neg (by simp [hquiet hignore]), List.append_nil] at hkept
    refine ⟨_, rfl, Ready.perm ?_ hkept.symm⟩
    simpa [answerCells, commandCells, hignore] using hready
  | false =>
    rw [if_neg (by simp)]
    have hcell : Ready size (answer.placed.cell ::
        (waiting ++ retryCells request retry state.retryMap)) state.responses := by
      simpa [answerCells, commandCells, hignore] using hready
    obtain ⟨next, hadd, -, hothers, herror⟩ := hcell.write answer.value address
    rw [hadd]
    refine ⟨_, rfl, Ready.perm ?_ hkept.symm⟩
    cases hagain : answer.sentAgain request retry with
    | false => simpa using hothers
    | true =>
      have hready := herror (Bool.and_eq_true_iff.mp hagain).1
      refine hready.perm ?_
      rw [if_pos rfl, ← List.append_assoc]
      exact (List.perm_append_singleton _ _).symm

theorem map_placed_zipWith (commands : List PlacedCommand) (values : List Value) :
    ((List.zipWith answerTo commands values).map Answered.placed).Sublist commands := by
  induction commands generalizing values with
  | nil => exact .slnil
  | cons placed rest ih =>
    cases values with
    | nil => exact List.nil_sublist _
    | cons value values =>
      rw [List.zipWith_cons_cons, List.map_cons, answerTo_placed]
      exact (ih values).cons_cons placed

theorem map_placed_failAll (commands : List PlacedCommand) (error : ServerError)
    (method : RetryMethod) : (failAll commands error method).map Answered.placed = commands := by
  simp [failAll, Function.comp_def]

theorem map_placed_answersOf (texts : PipelineTexts) (strategy : PipelineRetryStrategy)
    (commands : List PlacedCommand) (result : SubPipelineResult) :
    ((answersOf texts strategy commands result).map Answered.placed).Sublist commands := by
  unfold answersOf
  split
  · exact map_placed_zipWith commands _
  all_goals
    rw [map_placed_failAll]

theorem answerCells_answersOf (texts : PipelineTexts) (strategy : PipelineRetryStrategy)
    (commands : List PlacedCommand) (result : SubPipelineResult) :
    (answerCells (answersOf texts strategy commands result)).Sublist (commandCells commands) :=
  ((map_placed_answersOf texts strategy commands result).filter _).map _

theorem sendsAgain_noRetry : request.sendsAgain retry .noRetry = false := by
  simp [PipelineRequest.sendsAgain, effectiveRetryMethod]

theorem sendsAgain_dropped (hquiet : request.sendsAgain retry .reconnect = false) :
    request.sendsAgain retry
      (if request.strategy.retryConnectionError then .reconnectAndRetry else .reconnect) =
      false := by
  split
  · rename_i hretry
    simpa [PipelineRequest.sendsAgain, effectiveRetryMethod, hretry] using hquiet
  · exact hquiet

theorem failAll_quiet {error : ServerError} {method : RetryMethod}
    (hquiet : ∀ placed ∈ commands, placed.ignore = true → request.sendsAgain retry method = false)
    (hanswer : answer ∈ failAll commands error method) (hignore : answer.placed.ignore = true) :
    answer.sentAgain request retry = false := by
  obtain ⟨placed, hplaced, rfl⟩ := List.mem_map.mp hanswer
  exact hquiet placed hplaced hignore

theorem zipWith_quiet {values : List Value}
    (hquiet : ∀ answer ∈ commands.zip values, answer.1.ignore = true →
      ∀ error, answer.2 = .serverError error →
      request.sendsAgain retry error.toRedisError.retryMethod = false)
    (hanswer : answer ∈ List.zipWith answerTo commands values)
    (hignore : answer.placed.ignore = true) : answer.sentAgain request retry = false := by
  rw [← List.map_uncurry_zip_eq_zipWith, List.mem_map] at hanswer
  obtain ⟨⟨placed, value⟩, hmem, rfl⟩ := hanswer
  cases value with
  | serverError error => exact hquiet _ hmem hignore error rfl
  | _ => rfl

theorem answersOf_quiet (hquiet : request.HelpersQuietAt retry commands result)
    (hanswer : answer ∈ answersOf request.texts request.strategy commands result)
    (hignore : answer.placed.ignore = true) : answer.sentAgain request retry = false := by
  cases result with
  | dropped =>
    exact failAll_quiet (fun placed hplaced h => sendsAgain_dropped (hquiet placed hplaced h))
      hanswer hignore
  | answered result =>
    cases result with
    | error error => exact failAll_quiet hquiet hanswer hignore
    | ok response =>
      cases response with
      | single value | clusterScanResult =>
        exact failAll_quiet (fun _ _ _ => sendsAgain_noRetry) hanswer hignore
      | multiple values => exact zipWith_quiet hquiet hanswer hignore

structure Processable (request : PipelineRequest) (retry size : Nat) (later : List Cell)
    (answers : List Answered) (state : Processing) : Prop where
  quiet : ∀ answer ∈ answers, answer.placed.ignore = true →
    answer.sentAgain request retry = false
  ready : Ready size
    (answerCells answers ++ (later ++ retryCells request retry state.retryMap)) state.responses

theorem Processable.next {rest : List Answered}
    (hstate : Processable request retry size later (answer :: rest) state) (address : String) :
    ∃ next, processAnswer request.strategy address state answer = .ok next ∧
      Processable request retry size later rest next := by
  have hready : Ready size (answerCells [answer] ++
      ((answerCells rest ++ later) ++ retryCells request retry state.retryMap))
      state.responses := by
    have hcells : answerCells (answer :: rest) = answerCells [answer] ++ answerCells rest := by
      simp [answerCells, commandCells, ← List.map_append, ← List.filter_append]
    have hstate := hstate.ready
    rwa [hcells, List.append_assoc, ← List.append_assoc (answerCells rest)] at hstate
  obtain ⟨next, hprocess, hnext⟩ := processAnswer_ready hready
    (hstate.quiet answer List.mem_cons_self)
  refine ⟨next, hprocess, fun other hother => ?_, by rwa [List.append_assoc] at hnext⟩
  exact hstate.quiet other (List.mem_cons_of_mem _ hother)

theorem processNode_ready (address : String) (hready : Ready size (commandCells commands ++
      (later ++ retryCells request retry state.retryMap)) state.responses)
    (hquiet : request.HelpersQuietAt retry commands result) :
    ∃ next, (answersOf request.texts request.strategy commands result).foldlM
        (processAnswer request.strategy address) state = .ok next ∧
      Ready size (later ++ retryCells request retry next.retryMap) next.responses := by
  have hstate : Processable request retry size later
      (answersOf request.texts request.strategy commands result) state := by
    refine ⟨fun answer hanswer => answersOf_quiet hquiet hanswer, hready.sublist ?_⟩
    exact (answerCells_answersOf _ _ commands result).append_right _
  obtain ⟨next, hfold, hnext⟩ := foldlM_succeeds (Processable request retry size later)
    (fun answer rest state hstate => hstate.next address) state hstate
  exact ⟨next, hfold, by simpa [answerCells, commandCells] using hnext.ready⟩

structure Answerable (request : PipelineRequest) (retry size : Nat)
    (nodes : List ((String × List PlacedCommand) × SubPipelineResult)) (state : Processing) :
    Prop where
  quiet : ∀ node ∈ nodes, request.HelpersQuietAt retry node.1.2 node.2
  ready : Ready size
    (waitingCells (nodes.map Prod.fst) ++ retryCells request retry state.retryMap) state.responses

theorem Answerable.next {node : (String × List PlacedCommand) × SubPipelineResult}
    {nodes : List ((String × List PlacedCommand) × SubPipelineResult)}
    (hstate : Answerable request retry size (node :: nodes) state) :
    ∃ next, (answersOf request.texts request.strategy node.1.2 node.2).foldlM
        (processAnswer request.strategy node.1.1) state = .ok next ∧
      Answerable request retry size nodes next := by
  have hready := hstate.ready
  rw [List.map_cons, waitingCells_cons, List.append_assoc] at hready
  obtain ⟨next, hprocess, hnext⟩ := processNode_ready node.1.1 hready
    (hstate.quiet node List.mem_cons_self)
  refine ⟨next, hprocess, fun other hother => ?_, hnext⟩
  exact hstate.quiet other (List.mem_cons_of_mem _ hother)

theorem processPipelineResponses_ready {responses : PipelineResponses} {sent : NodePipelineMap}
    {results : List SubPipelineResult} (hlength : results.length = sent.length)
    (hready : Ready size (waitingCells sent) responses)
    (hquiet : ∀ node ∈ sent.zip results, request.HelpersQuietAt retry node.1.2 node.2) :
    ∃ processed, processPipelineResponses request.texts request.strategy responses sent results =
        .ok processed ∧
      Ready size (retryCells request retry processed.retryMap) processed.responses := by
  have hsent : (sent.zip results).map Prod.fst = sent := List.map_fst_zip (by omega)
  have hinit : Answerable request retry size (sent.zip results) ⟨responses, []⟩ :=
    ⟨hquiet, by simpa [hsent, retryCells, ungroup] using hready⟩
  obtain ⟨processed, hfold, hprocessed⟩ := foldlM_succeeds (Answerable request retry size)
    (fun _ _ _ hstate => hstate.next) _ hinit
  exact ⟨processed, hfold, by simpa [waitingCells, dispatched, ungroup] using hprocessed.ready⟩

end Answers

/-! ## Failures that are sent again -/

section Again

variable (request : PipelineRequest) {size : Nat}

variable {state : Retrying} {later : List Cell} {entry : RetryEntry}
  {entries : List (RetryEntry × Nat)} {retry : Nat}

theorem recordFailure_ready
    (hready : Ready size (entry.cell :: (later ++ waitingCells state.map)) state.responses)
    (failure : ServerError) :
    ∃ next, recordFailure request state entry failure = .ok next ∧
      Ready size (later ++ waitingCells next.map) next.responses := by
  obtain ⟨responses, hadd, -, hothers, -⟩ := hready.write
    (.serverError (appendDetail request.texts entry.error failure)) entry.address
  refine ⟨{ state with responses := responses }, ?_, hothers⟩
  rw [recordFailure, hadd]

theorem retryCommand_ready
    (hready : Ready size (entry.cell :: (later ++ waitingCells state.map)) state.responses)
    (addAsking : Bool) (connection : RedisResult String) :
    ∃ next, retryCommand request addAsking connection state entry = .ok next ∧
      Ready size (later ++ waitingCells next.map) next.responses := by
  unfold retryCommand
  cases getOriginalCmd request entry.index entry.innerIndex with
  | error failure => exact recordFailure_ready request hready failure
  | ok cmd =>
    cases connection with
    | error error => exact recordFailure_ready request hready _
    | ok address =>
      refine ⟨_, rfl, hready.perm ?_⟩
      have hadded := (waitingCells_addCommand state.map address cmd entry.index
        entry.innerIndex addAsking).append_left later
      refine List.Perm.trans ?_ hadded.symm
      rw [← List.append_assoc]
      exact (List.perm_append_singleton _ _).symm

theorem redirectCommand_ready {entry : RetryEntry × Nat}
    (hready : Ready size (entry.1.cell :: (later ++ waitingCells state.map)) state.responses)
    (round : Round) (method : RetryMethod) :
    ∃ next, redirectCommand request round method state entry = .ok next ∧
      Ready size (later ++ waitingCells next.map) next.responses := by
  unfold redirectCommand
  cases redirectFailure request round method entry with
  | some failure => exact recordFailure_ready request hready failure
  | none => exact retryCommand_ready request hready _ _

theorem retryEntries_ready {body : Retrying → RetryEntry × Nat → OperationResult Retrying}
    (hbody : ∀ (state : Retrying) (entry : RetryEntry × Nat) (later : List Cell), Ready size
      (entry.1.cell :: (later ++ waitingCells state.map)) state.responses →
      ∃ next, body state entry = .ok next ∧
      Ready size (later ++ waitingCells next.map) next.responses)
    (hready : Ready size ((entries.map fun entry => entry.1.cell) ++
      (later ++ waitingCells state.map)) state.responses) :
    ∃ next, entries.foldlM body state = .ok next ∧
      Ready size (later ++ waitingCells next.map) next.responses := by
  refine foldlM_succeeds (fun (rest : List (RetryEntry × Nat)) (state : Retrying) =>
    Ready size ((rest.map fun entry => entry.1.cell) ++ (later ++ waitingCells state.map))
      state.responses) (fun entry rest state hready => ?_) state hready
  rw [List.map_cons, List.cons_append, ← List.append_assoc] at hready
  obtain ⟨next, hnext, hrest⟩ := hbody state entry _ hready
  exact ⟨next, hnext, by rwa [List.append_assoc] at hrest⟩

theorem appendCommandsToRetry_ready (hready : Ready size ((entries.map fun entry => entry.1.cell) ++
      (later ++ waitingCells state.map)) state.responses) (round : Round) (method : RetryMethod) :
    ∃ next, appendCommandsToRetry request round method state entries = .ok next ∧
      Ready size (later ++ waitingCells next.map) next.responses :=
  retryEntries_ready (fun _ _ _ hready => retryCommand_ready request hready _ _) hready

theorem map_cell_zipIdx (entries : List RetryEntry) :
    (entries.zipIdx.map fun entry => entry.1.cell) = entries.map RetryEntry.cell := by
  have hfst : entries.zipIdx.map Prod.fst = entries := List.zipIdx_map_fst 0 entries
  calc (entries.zipIdx.map fun entry => entry.1.cell)
      = (entries.zipIdx.map Prod.fst).map RetryEntry.cell := by rw [List.map_map]; rfl
    _ = entries.map RetryEntry.cell := by rw [hfst]

theorem handleRedirectLogic_ready {entries : List RetryEntry}
    (hready : Ready size (entries.map RetryEntry.cell ++
      (later ++ waitingCells state.map)) state.responses) (round : Round) (method : RetryMethod) :
    ∃ next, handleRedirectLogic request round method state entries = .ok next ∧
      Ready size (later ++ waitingCells next.map) next.responses := by
  have hsplit := (List.filter_append_perm (isPipelineCircularMovedRedirect round method)
    entries.zipIdx).map fun entry => entry.1.cell
  rw [map_cell_zipIdx, List.map_append] at hsplit
  have hboth := hready.perm (hsplit.symm.append_right _)
  rw [List.append_assoc, ← List.append_assoc (List.map _ (List.filter _ _)) later] at hboth
  obtain ⟨middle, hmiddle, hnormal⟩ := appendCommandsToRetry_ready request hboth round method
  rw [List.append_assoc] at hnormal
  obtain ⟨next, hnext, hdone⟩ := retryEntries_ready
    (fun _ _ _ hready => redirectCommand_ready request hready round method) hnormal
  refine ⟨next, ?_, hdone⟩
  rw [handleRedirectLogic, hmiddle]
  exact hnext

def groupCells (group : RetryMethod × List RetryEntry) : List Cell :=
  if dispatches group.1 then group.2.map RetryEntry.cell else []

theorem retryCells_eq_flatMap (hretry : retry < request.numberOfRetries) (retryMap : RetryMap) :
    retryCells request retry retryMap = retryMap.flatMap groupCells := by
  rw [retryCells, ungroup, List.filter_flatMap, List.map_flatMap]
  refine List.flatMap_congr fun group _ => ?_
  rw [groupCells, List.filter_map, List.map_map]
  cases hdispatches : dispatches group.1 with
  | true => simp [Function.comp_def, hretry, hdispatches]
  | false => simp [Function.comp_def, hdispatches]

theorem handleRetryMethod_ready {group : RetryMethod × List RetryEntry}
    (hready : Ready size (groupCells group ++ (later ++ waitingCells state.map)) state.responses)
    (round : Round) :
    ∃ next, handleRetryMethod request round state group = .ok next ∧
      Ready size (later ++ waitingCells next.map) next.responses := by
  obtain ⟨method, entries⟩ := group
  have happend (hmethod : dispatches method = true) :
      ∃ next, appendCommandsToRetry request round method state entries.zipIdx = .ok next ∧
        Ready size (later ++ waitingCells next.map) next.responses := by
    rw [groupCells, if_pos hmethod] at hready
    exact appendCommandsToRetry_ready request (by rwa [map_cell_zipIdx]) round method
  have hredirect (hmethod : dispatches method = true) :
      ∃ next, handleRedirectLogic request round method state entries = .ok next ∧
        Ready size (later ++ waitingCells next.map) next.responses := by
    rw [groupCells, if_pos hmethod] at hready
    exact handleRedirectLogic_ready request hready round method
  cases method with
  | noRetry | refreshSlotsAndRetry | reconnect => exact ⟨state, rfl, hready⟩
  | reconnectAndRetry | retryImmediately | waitAndRetry
  | waitAndRetryOnPrimaryRedirectOnReplica => exact happend rfl
  | movedRedirect | askRedirect => exact hredirect rfl

theorem handleRetryMap_ready {responses : PipelineResponses} {retryMap : RetryMap}
    (hretry : retry < request.numberOfRetries)
    (hready : Ready size (retryCells request retry retryMap) responses) (round : Round) :
    ∃ next, handleRetryMap request round responses retryMap = .ok next ∧
      Ready size (waitingCells next.map) next.responses := by
  rw [retryCells_eq_flatMap request hretry] at hready
  have hvisited := hready.perm ((round.methodOrder.perm retryMap).symm.flatMap_right groupCells)
  obtain ⟨next, hfold, hnext⟩ := foldlM_succeeds
    (fun (groups : List (RetryMethod × List RetryEntry)) (state : Retrying) =>
      Ready size (groups.flatMap groupCells ++ waitingCells state.map) state.responses)
    (fun group groups state hready => by
      rw [List.flatMap_cons, List.append_assoc] at hready
      exact handleRetryMethod_ready request hready round)
    ⟨responses, []⟩ (by simpa [waitingCells, dispatched, ungroup] using hvisited)
  exact ⟨next, hfold, hnext⟩

end Again

/-! ## Rounds -/

namespace PipelineRequest

/-- The invariant of the loop: what is sent can be answered. -/
def Regular (request : PipelineRequest) (rounds : Nat) : PipelineState → Prop
  | .waiting retry sent responses =>
    retry = rounds ∧ retry ≤ request.numberOfRetries ∧
      Ready request.pipeline.length (waitingCells sent) responses
  | .finished _ => rounds ≤ request.numberOfRetries + 1
  | .failed _ => False

variable {request : PipelineRequest} {rounds : Nat} {state : PipelineState}

theorem step_regular {next : PipelineState} {round : Round}
    (hregular : request.Regular rounds state) (hquiet : request.HelpersQuiet state round)
    (hstep : request.step state round = some next) : request.Regular (rounds + 1) next := by
  cases state with
  | finished responses => simp [step] at hstep
  | failed error => simp [step] at hstep
  | waiting retry sent responses =>
    obtain ⟨rfl, hretry, hready⟩ := hregular
    rw [step] at hstep
    split at hstep
    · rename_i hlength
      obtain ⟨processed, hprocess, hkept⟩ := processPipelineResponses_ready hlength hready hquiet
      simp only [hprocess] at hstep
      split at hstep
      · cases hstep
        exact Nat.succ_le_succ hretry
      · rename_i hmore
        have hleft : retry < request.numberOfRetries := by
          rw [not_or] at hmore
          omega
        obtain ⟨retrying, hagain, hsent⟩ := handleRetryMap_ready request hleft hkept round
        simp only [hagain] at hstep
        cases hstep
        exact ⟨rfl, hleft, hsent.perm (waitingCells_perm (round.nodeOrder.perm _).symm)⟩
    · contradiction

theorem Regular.disciplined (hregular : request.Regular rounds state) :
    request.Disciplined rounds state := by
  cases state with
  | finished responses => exact hregular
  | failed error => exact hregular
  | waiting retry sent responses =>
    obtain ⟨rfl, hretry, hready⟩ := hregular
    refine ⟨hretry, ?_, fun placed hplaced => ?_⟩
    · have hcells : waitingCells sent =
          ((dispatched sent).map fun placed => (placed.index, placed.innerIndex)).map
            fun pair => cellOf pair.1 pair.2 := by
        rw [List.map_map]
        rfl
      exact .of_map _ (hcells ▸ hready.nodup)
    · exact hready.replaceable _ (List.mem_map_of_mem hplaced)

/--
As long as no `ASKING` fails in a way that is retried, no command is sent twice
in a round or after it was answered, the retries end, and no answer is refused.
-/
theorem retries_disciplined {view : ClusterView} {crc16 : Bytes → Nat}
    {orders : Nat → IterationOrder} {route : Option (RedisResult String)} {map : NodePipelineMap}
    (request : PipelineRequest)
    (hmap : mapPipelineToNodes view crc16 orders request.pipeline route =
      .ok (map, request.policies))
    (order : MapOrder (String × List PlacedCommand)) {rounds : List Round} {state : PipelineState}
    (hquiet : Along request.step request.HelpersQuiet (request.start order map) rounds)
    (hrun : run request.step (request.start order map) rounds = some state) :
    request.Disciplined rounds.length state := by
  obtain ⟨sends, hplan, hgroups⟩ := mapPipelineToNodes_plan hmap
  have hready := (hplan.ready.perm (hplan.waitingCells_perm hgroups).symm).perm
    (waitingCells_perm (order.perm map).symm)
  have hstart : request.Regular 0 (request.start order map) := ⟨rfl, Nat.zero_le _, hready⟩
  have hfinal := run_invariant_counted request.Regular
    (fun _ _ _ _ hregular hquiet hstep => step_regular hregular hquiet hstep) 0 hstart hquiet hrun
  rw [Nat.zero_add] at hfinal
  exact hfinal.disciplined

end PipelineRequest

section Asked

private def askedGet : Cmd := .ofBytes [bytes "GET", bytes "key"]

private def askedView : ClusterView where
  getConnection _ _ := .ok "a"
  chooseNode _ := 0
  allNodeConnections _ := ["a"]
  allPrimaryConnections _ := ["a"]
  connectionForRoute _ _ _ := some "a"

private def unchanged (Entry : Type) : MapOrder Entry := ⟨id, fun _ => .refl _⟩

private def askedTexts : PipelineTexts where
  kindText _ := ""
  ioText _ := ""
  display _ := ""
  debugCmd _ := ""
  debugSlots _ := ""
  debugRecvError := ""
  splitAsciiWhitespace _ := ["3999", "b"]
  parseSlot _ := some 3999

private def askedRequest : PipelineRequest where
  texts := askedTexts
  strategy := ⟨false, true⟩
  numberOfRetries := 2
  pipeline := [askedGet]
  policies := []

private def askedAnswer (result : SubPipelineResult) : Round where
  results := [result]
  methodOrder := unchanged _
  nodeOrder := unchanged _
  getConnection _ _ := .ok "b"
  isCircularMoved _ := false
  updateUponMovedError _ := .ok ()

private def askedMap : NodePipelineMap := [("a", [⟨askedGet, 0, none, false⟩])]

private def askedStart : PipelineState := askedRequest.start (unchanged _) askedMap

private theorem mapPipelineToNodes_asked :
    mapPipelineToNodes askedView (fun _ => 0) (fun _ => ⟨id, fun _ => .refl _⟩)
      askedRequest.pipeline (some (.ok "a")) = .ok (askedMap, askedRequest.policies) :=
  rfl

private def askedRound : Round :=
  askedAnswer (.answered (.ok (.multiple [.serverError (.knownError .ask (some "3999 b"))])))

theorem asked_command_disciplined :
    run askedRequest.step askedStart
        [askedRound, askedAnswer (.answered (.ok (.multiple [.okay, .nil])))] =
      some (.finished [[(some "b", .nil)]]) ∧
      askedRequest.Disciplined 2 (.finished [[(some "b", .nil)]]) := by
  have hquiet : Along askedRequest.step askedRequest.HelpersQuiet askedStart
      [askedRound, askedAnswer (.answered (.ok (.multiple [.okay, .nil])))] := by
    refine ⟨?_, ?_, trivial⟩
    · intro node hnode
      obtain rfl := List.mem_singleton.mp hnode
      intro answer hanswer hignore
      obtain rfl := List.mem_singleton.mp hanswer
      contradiction
    · intro node hnode
      obtain rfl := List.mem_singleton.mp hnode
      intro answer hanswer hignore error herror
      rcases List.mem_cons.mp hanswer with rfl | hanswer
      · contradiction
      · obtain rfl := List.mem_singleton.mp hanswer
        contradiction
  exact ⟨rfl, askedRequest.retries_disciplined mapPipelineToNodes_asked (unchanged _) hquiet rfl⟩

theorem failed_asking_dispatched_twice :
    mapPipelineToNodes askedView (fun _ => 0) (fun _ => ⟨id, fun _ => .refl _⟩)
        askedRequest.pipeline (some (.ok "a")) = .ok (askedMap, askedRequest.policies) ∧
      (∃ state, run askedRequest.step askedStart [askedRound, askedAnswer .dropped] = some state ∧
        ¬ askedRequest.Disciplined 2 state) ∧
      run askedRequest.step askedStart [askedRound, askedAnswer .dropped,
        askedAnswer (.answered (.ok (.multiple [.nil, .nil])))] = some (.failed cannotOverride) := by
  refine ⟨mapPipelineToNodes_asked, ⟨_, rfl, ?_⟩, rfl⟩
  rintro ⟨-, hnodup, -⟩
  revert hnodup
  decide

end Asked

end ValkeyGlide.Pipeline
