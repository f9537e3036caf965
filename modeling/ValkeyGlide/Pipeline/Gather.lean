import ValkeyGlide.Pipeline.Cells

/-!
# A pipeline is its commands

When every node answers its pipeline in order and without errors, the first round
is the last one.  What is recorded then is, row by row, the plan with every send
replaced by its answer, so the position of a command holds its own reply.
-/

namespace ValkeyGlide.Pipeline

open Foundation Protocol Cluster

abbrev NodeAnswers := String → PlacedCommand → Value

def answerOf (answers : NodeAnswers) (send : String × PlacedCommand) : NodeResponse :=
  (some send.1, answers send.1 send.2)

def allAnswered (answers : NodeAnswers) (sent : NodePipelineMap) : List SubPipelineResult :=
  sent.map fun node => .answered (.ok (.multiple (node.2.map (answers node.1))))

section Gathered

variable {view : ClusterView} {route : Option (RedisResult String)}
  {routing : Nat → Cmd → RoutingInfo} {pipeline : List Cmd}
  {sends : List (List (String × PlacedCommand))} {policies : ResponsePolicies}
  {answers : NodeAnswers} {strategy : PipelineRetryStrategy}

/-- The answers to all sends except those still waited for are recorded, and nothing else is. -/
structure Gathered (sends : List (List (String × PlacedCommand))) (answers : NodeAnswers)
    (waiting : List (String × PlacedCommand)) (state : Processing) : Prop where
  quiet : state.retryMap = []
  planned : ∀ send ∈ waiting, send ∈ sends.flatten ∧
    isServerError (answers send.1 send.2) = false
  ready : Ready sends.length (waiting.map fun send => send.2.cell) state.responses
  bounded : ∀ cell response, recorded state.responses cell = some response →
    ∃ targets, sends[cell.1]? = some targets ∧ cell.2 < targets.length
  answered : ∀ (index place : Nat) (targets : List (String × PlacedCommand))
    (send : String × PlacedCommand), sends[index]? = some targets → targets[place]? = some send →
    (index, place) ∉ (waiting.map fun send => send.2.cell) →
    recorded state.responses (index, place) = some (answerOf answers send)

theorem keepFailure_of_answer {placed : PlacedCommand} {value : Value} (address : String)
    (retryMap : RetryMap) (hvalue : isServerError value = false) :
    keepFailure strategy address retryMap (answerTo placed value) = retryMap := by
  cases value with
  | serverError error => simp [isServerError] at hvalue
  | _ => rfl

variable {send : String × PlacedCommand} {state : Processing}

section

variable (hplan : Plan view route routing [] 0 pipeline sends policies)
  {rest : List (String × PlacedCommand)}
include hplan

theorem Plan.send_at (hsend : send ∈ sends.flatten) :
    ∃ index place targets, sends[index]? = some targets ∧ targets[place]? = some send ∧
      send.2.cell = (index, place) := by
  obtain ⟨targets, htargets, hmem⟩ := List.mem_flatten.mp hsend
  obtain ⟨index, hindex⟩ := List.mem_iff_getElem?.mp htargets
  obtain ⟨place, hplace⟩ := List.mem_iff_getElem?.mp hmem
  exact ⟨index, place, targets, hindex, hplace, (hplan.cell hindex hplace).1⟩

theorem Gathered.written {responses : PipelineResponses}
    (hstate : Gathered sends answers (send :: rest) state)
    (hwritten : Written state.responses responses send.2.cell (answerOf answers send)) :
    Gathered sends answers rest ⟨responses, state.retryMap⟩ where
  quiet := hstate.quiet
  planned other hother := hstate.planned other (List.mem_cons_of_mem _ hother)
  ready := hstate.ready.written hwritten
  bounded := by
    intro cell response hrecorded
    obtain ⟨index, place, targets, hindex, hplace, hcell⟩ :=
      hplan.send_at (hstate.planned send List.mem_cons_self).1
    have hbound : place < targets.length := (List.getElem?_eq_some_iff.mp hplace).1
    rw [hcell] at hwritten
    by_cases hsame : cell = (index, place)
    · subst hsame
      exact ⟨targets, hindex, hbound⟩
    · rcases hwritten.others cell hsame with hkept | ⟨-, hrow, hbefore, -⟩
      · exact hstate.bounded cell response (hkept ▸ hrecorded)
      · exact ⟨targets, hrow ▸ hindex, hbefore.trans hbound⟩
  answered := by
    intro index place targets other hindex hplace hdone
    have hcell := (hplan.cell hindex hplace).1
    by_cases hsame : (index, place) = send.2.cell
    · have hother : other ∈ sends.flatten := List.mem_flatten.mpr
        ⟨targets, List.mem_of_getElem? hindex, List.mem_of_getElem? hplace⟩
      obtain rfl : other = send := List.inj_on_of_nodup_map hplan.cells_nodup hother
        (hstate.planned send List.mem_cons_self).1 (hcell.trans hsame)
      rw [hsame]
      exact hwritten.written
    · have hbefore := hstate.answered index place targets other hindex hplace
        (by rw [List.map_cons, List.mem_cons]; exact not_or.mpr ⟨hsame, hdone⟩)
      rcases hwritten.others (index, place) hsame with hkept | ⟨hmissing, -⟩
      · exact hkept.trans hbefore
      · rw [hmissing] at hbefore
        contradiction

theorem Gathered.next (hstate : Gathered sends answers (send :: rest) state) :
    ∃ next, processAnswer strategy send.1 state (answerTo send.2 (answers send.1 send.2)) =
        .ok next ∧ Gathered sends answers rest next := by
  obtain ⟨hsend, hvalue⟩ := hstate.planned send List.mem_cons_self
  obtain ⟨responses, hadd, hwritten, -⟩ := hstate.ready.write (answers send.1 send.2) send.1
  refine ⟨⟨responses, state.retryMap⟩, ?_, hstate.written hplan hwritten⟩
  unfold processAnswer
  rw [answerTo_placed, answerTo_value, keepFailure_of_answer _ _ hvalue]
  dsimp only
  rw [if_neg (by simp [(hplan.index_lt hsend).2]), hadd]

end

theorem answersOf_answered (texts : PipelineTexts) (commands : List PlacedCommand)
    (answer : PlacedCommand → Value) :
    answersOf texts strategy commands (.answered (.ok (.multiple (commands.map answer)))) =
      commands.map fun placed => answerTo placed (answer placed) := by
  rw [answersOf, List.zipWith_map_right, List.zipWith_self]

section

variable (hplan : Plan view route routing [] 0 pipeline sends policies) {sent : NodePipelineMap}
include hplan

theorem Gathered.node {address : String}
    {commands : List PlacedCommand} {later : List (String × PlacedCommand)} (texts : PipelineTexts)
    (hstate : Gathered sends answers ((commands.map fun placed =>
      (address, placed)) ++ later) state) :
    ∃ next, (answersOf texts strategy commands
        (.answered (.ok (.multiple (commands.map (answers address)))))).foldlM
          (processAnswer strategy address) state = .ok next ∧
      Gathered sends answers later next := by
  rw [answersOf_answered, List.foldlM_map]
  exact foldlM_succeeds
    (fun (rest : List PlacedCommand) (state : Processing) =>
      Gathered sends answers ((rest.map fun placed => (address, placed)) ++ later) state)
    (fun placed rest state hstate => hstate.next hplan) state hstate

theorem Gathered.all {responses : PipelineResponses} (texts : PipelineTexts)
    (strategy : PipelineRetryStrategy)
    (hstate : Gathered sends answers (ungroup sent) ⟨responses, []⟩) :
    ∃ processed, processPipelineResponses texts strategy responses sent (allAnswered answers sent) =
        .ok processed ∧
      Gathered sends answers [] processed := by
  have hzip : sent.zip (allAnswered answers sent) = sent.map fun node =>
      (node, .answered (.ok (.multiple (node.2.map (answers node.1))))) := by
    rw [allAnswered, List.zip_eq_zipWith, List.zipWith_map_right, List.zipWith_self]
  rw [processPipelineResponses, hzip, List.foldlM_map]
  exact foldlM_succeeds
    (fun (rest : NodePipelineMap) (state : Processing) =>
      Gathered sends answers (ungroup rest) state)
    (fun node rest state hstate => hstate.node hplan texts) _ hstate

theorem Gathered.start {map : NodePipelineMap} (hgroups : Groups map sends.flatten)
    (hsent : sent.Perm map)
    (hanswers : ∀ send ∈ ungroup map, isServerError (answers send.1 send.2) = false) :
    Gathered sends answers (ungroup sent) ⟨List.replicate pipeline.length [], []⟩ := by
  have hperm : (ungroup sent).Perm (ungroup map) := hsent.flatMap_right _
  have hall : (ungroup sent).Perm sends.flatten := hperm.trans hgroups.perm
  refine ⟨rfl, fun send hsend => ?_, ?_, ?_, ?_⟩
  · exact ⟨hall.mem_iff.mp hsend, hanswers send (hperm.mem_iff.mp hsend)⟩
  · rw [hplan.length]
    exact hplan.ready.perm (hall.symm.map _)
  · intro cell response hrecorded
    rw [recorded_replicate] at hrecorded
    contradiction
  · intro index place targets send hindex hplace hdone
    have hmem : send ∈ sends.flatten := List.mem_flatten.mpr
      ⟨targets, List.mem_of_getElem? hindex, List.mem_of_getElem? hplace⟩
    refine absurd ?_ hdone
    rw [← (hplan.cell hindex hplace).1]
    exact List.mem_map_of_mem (hall.mem_iff.mpr hmem)

end

theorem Gathered.row (hstate : Gathered sends answers [] state) {index : Nat}
    {targets : List (String × PlacedCommand)} (htargets : sends[index]? = some targets) :
    state.responses[index]? = some (targets.map (answerOf answers)) := by
  have hindex : index < state.responses.length :=
    hstate.ready.length ▸ (List.getElem?_eq_some_iff.mp htargets).1
  rw [List.getElem?_eq_getElem hindex, Option.some_inj]
  have hrecorded : ∀ place, state.responses[index][place]? =
      recorded state.responses (index, place) := by
    intro place
    rw [recorded, List.getElem?_eq_getElem hindex, Option.bind_some]
  refine List.ext_getElem? fun place => ?_
  rw [hrecorded, List.getElem?_map]
  cases hplace : targets[place]? with
  | some send => exact hstate.answered index place targets send htargets hplace List.not_mem_nil
  | none =>
    cases hheld : recorded state.responses (index, place) with
    | none => rfl
    | some response =>
      obtain ⟨row, hrow, hbound⟩ := hstate.bounded _ _ hheld
      obtain rfl : targets = row := Option.some_inj.mp (htargets.symm.trans hrow)
      have hshort := List.getElem?_eq_none_iff.mp hplace
      omega

theorem Plan.indices_sorted (hplan : Plan view route routing [] 0 pipeline sends policies) :
    (sends.flatten.map fun send => send.2.index).Pairwise (· ≤ ·) := by
  have hindex : ∀ (index : Nat) (hlt : index < sends.length), ∀ send ∈ sends[index],
      send.2.index = index := by
    intro index hlt send hsend
    obtain ⟨place, hplace⟩ := List.mem_iff_getElem?.mp hsend
    have hcell := (hplan.cell (List.getElem?_eq_getElem hlt) hplace).1
    exact congrArg Prod.fst hcell
  rw [List.pairwise_map, List.pairwise_flatten]
  constructor
  · intro targets htargets
    obtain ⟨index, hlt, rfl⟩ := List.mem_iff_getElem.mp htargets
    refine List.pairwise_of_forall_mem_list fun first hfirst second hsecond => ?_
    rw [hindex index hlt first hfirst, hindex index hlt second hsecond]
  · rw [List.pairwise_iff_getElem]
    intro before after hbefore hafter hlt first hfirst second hsecond
    rw [hindex before hbefore first hfirst, hindex after hafter second hsecond]
    exact hlt.le

end Gathered

/-! ## The pipeline -/

def IsReply (texts : PipelineTexts) (aggregate : AggregateResolvedResults) (answers : NodeAnswers)
    (routing : RoutingInfo) (targets : List (String × PlacedCommand)) (value : Value) : Prop :=
  match aggregation routing with
  | none => ∃ send, targets = [send] ∧ value = answers send.1 send.2
  | some (info, policy) =>
    value = aggregatedValue texts (aggregate (targets.map (answerOf answers)) info policy)

/--
A pipeline was answered as its commands: the node pipelines hold the sends of the
plan and nothing else, each in the order of the pipeline, and every position
holds the reply of its command.
-/
structure AnsweredAsCommands (view : ClusterView) (route : Option (RedisResult String))
    (routing : Nat → Cmd → RoutingInfo) (request : PipelineRequest) (map : NodePipelineMap)
    (aggregate : AggregateResolvedResults) (answers : NodeAnswers)
    (sends : List (List (String × PlacedCommand))) (replies : List Value) : Prop where
  plan : Plan view route routing [] 0 request.pipeline sends request.policies
  sent : Groups map sends.flatten
  ordered : ∀ node ∈ map, (node.2.map PlacedCommand.index).Pairwise (· ≤ ·)
  length : replies.length = request.pipeline.length
  replied : ∀ (index : Nat) (cmd : Cmd), request.pipeline[index]? = some cmd →
    ∃ targets value, sends[index]? = some targets ∧ replies[index]? = some value ∧
      IsReply request.texts aggregate answers (routing index cmd) targets value

variable {answers : NodeAnswers}

theorem step_answered {request : PipelineRequest} {map : NodePipelineMap}
    (order : MapOrder (String × List PlacedCommand)) (round : Round)
    (hround : round.results = allAnswered answers (order.visit map)) {processed : Processing}
    (hprocess : processPipelineResponses request.texts request.strategy
      (List.replicate request.pipeline.length []) (order.visit map)
      (allAnswered answers (order.visit map)) = .ok processed) (hquiet : processed.retryMap = []) :
    request.step (request.start order map) round = some (.finished processed.responses) := by
  have hlength : round.results.length = (order.visit map).length := by
    rw [hround, allAnswered, List.length_map]
  rw [PipelineRequest.start, PipelineRequest.step, if_pos hlength, hround, hprocess]
  dsimp only
  rw [hquiet, if_pos (.inl rfl)]

theorem Plan.reply {view : ClusterView} {route : Option (RedisResult String)}
    {routing : Nat → Cmd → RoutingInfo} {pipeline : List Cmd}
    {sends : List (List (String × PlacedCommand))} {policies : ResponsePolicies}
    (hplan : Plan view route routing [] 0 pipeline sends policies) {index : Nat} {cmd : Cmd}
    {targets : List (String × PlacedCommand)} (hcmd : pipeline[index]? = some cmd)
    (htargets : sends[index]? = some targets) (texts : PipelineTexts)
    (aggregate : AggregateResolvedResults) {responses : PipelineResponses}
    (hrow : responses[index]? = some (targets.map (answerOf answers))) :
    ∃ value, (aggregatePipelineMultiNodeCommands texts aggregate responses policies)[index]? =
        some value ∧
      IsReply texts aggregate answers (routing index cmd) targets value := by
  have hplanned := hplan.targets index cmd targets hcmd htargets
  have hpolicy := hplan.aggregates index cmd hcmd
  rw [Nat.zero_add] at hplanned hpolicy
  rw [aggregatePipelineMultiNodeCommands, List.getElem?_mapIdx, hrow, Option.map_some, hpolicy]
  cases hrouting : routing index cmd with
  | singleNode single =>
    rw [hrouting] at hplanned
    obtain ⟨address, -, rfl⟩ := hplanned
    exact ⟨_, rfl, _, rfl, rfl⟩
  | multiNode info policy => exact ⟨_, rfl, rfl⟩

theorem pipeline_answered_as_commands {view : ClusterView} {crc16 : Bytes → Nat}
    {orders : Nat → IterationOrder} {route : Option (RedisResult String)} {map : NodePipelineMap}
    (request : PipelineRequest)
    (hmap : mapPipelineToNodes view crc16 orders request.pipeline route =
      .ok (map, request.policies))
    (order : MapOrder (String × List PlacedCommand)) (answers : NodeAnswers)
    (hanswers : ∀ send ∈ ungroup map, isServerError (answers send.1 send.2) = false)
    (round : Round) (hround : round.results = allAnswered answers (order.visit map))
    (aggregate : AggregateResolvedResults) :
    ∃ sends responses, request.step (request.start order map) round = some (.finished responses) ∧
      AnsweredAsCommands view route (plannedRouting crc16 orders route) request map aggregate
        answers sends
        (aggregatePipelineMultiNodeCommands request.texts aggregate responses request.policies) := by
  obtain ⟨sends, hplan, hgroups⟩ := mapPipelineToNodes_plan hmap
  obtain ⟨processed, hprocess, hgathered⟩ := Gathered.all hplan request.texts request.strategy
    (Gathered.start hplan hgroups (order.perm map) hanswers)
  refine ⟨sends, processed.responses, ?_, hplan, hgroups, ?_, ?_, ?_⟩
  · exact step_answered order round hround hprocess hgathered.quiet
  · intro node hnode
    rw [hgroups.items node hnode, List.map_map]
    exact hplan.indices_sorted.sublist (List.filter_sublist.map _)
  · rw [aggregatePipelineMultiNodeCommands, List.length_mapIdx, hgathered.ready.length,
      hplan.length]
  · intro index cmd hcmd
    have hindex : index < sends.length :=
      hplan.length ▸ (List.getElem?_eq_some_iff.mp hcmd).1
    have htargets := List.getElem?_eq_getElem hindex
    obtain ⟨value, hvalue, hreply⟩ := hplan.reply hcmd htargets request.texts aggregate
      (hgathered.row htargets)
    exact ⟨_, value, htargets, hvalue, hreply⟩

section Mixed

private def twoNodes : ClusterView where
  getConnection _ _ := .ok "b"
  chooseNode _ := 0
  allNodeConnections _ := ["a", "b"]
  allPrimaryConnections _ := ["a", "b"]
  connectionForRoute _ _ route := if route.slot = 1 then some "a" else some "b"

private def mget (keys : List Bytes) : Cmd := .ofBytes (bytes "MGET" :: keys)

private def mixedRequest : PipelineRequest where
  texts :=
    { kindText := fun _ => ""
      ioText := fun _ => ""
      display := fun _ => ""
      debugCmd := fun _ => ""
      debugSlots := fun _ => ""
      debugRecvError := ""
      splitAsciiWhitespace := fun _ => []
      parseSlot := fun _ => none }
  strategy := ⟨false, false⟩
  numberOfRetries := 0
  pipeline := [mget [bytes "x", bytes "yy"], .ofBytes [bytes "PING"],
    .ofBytes [bytes "GET", bytes "x"]]
  policies :=
    [(0, .multiSlot [(⟨1, .replicaOptional⟩, [0]), (⟨2, .replicaOptional⟩, [1])] .keysOnly,
        some .combineArrays),
      (1, .allMasters, some .allSucceeded)]

private def mixedMap : NodePipelineMap :=
  [("a", [⟨mget [bytes "x"], 0, some 0, false⟩, ⟨.ofBytes [bytes "PING"], 1, some 0, false⟩]),
    ("b", [⟨mget [bytes "yy"], 0, some 1, false⟩, ⟨.ofBytes [bytes "PING"], 1, some 1, false⟩,
      ⟨.ofBytes [bytes "GET", bytes "x"], 2, none, false⟩])]

private def mixedRound : Round where
  results := allAnswered (fun _ placed => .int placed.index) mixedMap
  methodOrder := ⟨id, fun _ => .refl _⟩
  nodeOrder := ⟨id, fun _ => .refl _⟩
  getConnection _ _ := .ok "b"
  isCircularMoved _ := false
  updateUponMovedError _ := .ok ()

theorem mixed_pipeline_answered :
    mapPipelineToNodes twoNodes List.length (fun _ => ⟨id, fun _ => .refl _⟩)
        mixedRequest.pipeline none = .ok (mixedMap, mixedRequest.policies) ∧
      ∃ sends, AnsweredAsCommands twoNodes none
        (plannedRouting List.length (fun _ => ⟨id, fun _ => .refl _⟩) none) mixedRequest mixedMap
        (fun responses _ _ => .ok (.array (responses.map Prod.snd)))
        (fun _ placed => .int placed.index) sends
        [.array [.int 0, .int 0], .array [.int 1, .int 1], .int 2] := by
  have hmap : mapPipelineToNodes twoNodes List.length (fun _ => ⟨id, fun _ => .refl _⟩)
      mixedRequest.pipeline none = .ok (mixedMap, mixedRequest.policies) := rfl
  obtain ⟨sends, responses, hstep, hanswered⟩ :=
    pipeline_answered_as_commands mixedRequest hmap ⟨id, fun _ => .refl _⟩
      (fun _ placed => .int placed.index) (fun _ _ => rfl) mixedRound rfl
      (fun responses _ _ => .ok (.array (responses.map Prod.snd)))
  cases hstep
  exact ⟨hmap, sends, hanswered⟩

end Mixed

end ValkeyGlide.Pipeline
