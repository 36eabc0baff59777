import Flowfile.CombinedNodes

/-!
# Copied connections

Connections are entered one after another. What becomes of a node depends on the connections
into it alone: main inputs in their order, or the last where the template has no room for more,
the last left and right input, the default output for every source, and settings that name the
last main input. Its successors are the targets of the connections out of it.

Each pair that is read makes a connection when both ends are known. The loop over the pairs
leaves the copied nodes with exactly these connections, and it has passed only pairs whose old
target has a list of main inputs and whose new target takes inputs.
-/

namespace Flowfile.CombinedGraphs

open Flowfile.Graph Library.Dictionaries List
open FlowNode (connect)

/-- A connection to be entered, from the default output. -/
structure Wire where
  source : NodeRef
  target : NodeRef
  port : InputPort

def sourcesAt (port : InputPort) (wires : List Wire) : List NodeRef :=
  (wires.filter fun wire => wire.port = port).map Wire.source

variable (port : InputPort) (wire : Wire)

section

variable {P : Type}

def connectInputs (node : FlowNode P) (wires : List Wire) : FlowNode P :=
  wires.foldl (fun node wire => node.connect wire.source wire.port defaultOutputHandle) node

/-- Enter connections at both ends. -/
def connectWires (graph : FlowGraph P) (wires : List Wire) : FlowGraph P :=
  wires.foldl (fun graph wire =>
    graph.connect wire.target wire.source wire.port defaultOutputHandle) graph

/-- A node object without its successors. -/
def unled (node : FlowNode P) : FlowNode P :=
  { node with leadsToNodes := [] }

/-- Inputs do not depend on successors. -/
theorem unled_connect (node : FlowNode P) (source : NodeRef) (port : InputPort)
    (handle : String) : unled (node.connect source port handle) =
      (unled node).connect source port handle := by
  by_cases held : (node.setting.isSetup && node.setting.dependingOnId.isSome) = true <;>
    cases stored : node.mainInputs <;> cases port <;> simp [connect, unled, held, stored]

/-- Entering a connection, seen without successors. -/
theorem unled_heap_connect (graph : FlowGraph P) (target source ref : NodeRef) (port : InputPort)
    (handle : String) : unled ((graph.connect target source port handle).heap ref) =
      if ref = target then (unled (graph.heap ref)).connect source port handle
      else unled (graph.heap ref) := by
  by_cases atTarget : ref = target
  · subst atTarget
    rw [if_pos rfl, FlowGraph.connect, modifyNode_heap_self, unled_connect]
    by_cases atSource : ref = source
    · subst atSource
      rw [modifyNode_heap_self]
      rfl
    · rw [modifyNode_heap_of_ne _ _ _ _ atSource]
  · rw [if_neg atTarget, FlowGraph.connect, modifyNode_heap_of_ne _ _ _ _ atTarget]
    by_cases atSource : ref = source
    · subst atSource
      rw [modifyNode_heap_self]
      rfl
    · rw [modifyNode_heap_of_ne _ _ _ _ atSource]

variable {graph : FlowGraph P} {wires : List Wire} {node : FlowNode P}

theorem connectWires_append : connectWires graph (wires ++ [wire]) =
    (connectWires graph wires).connect wire.target wire.source wire.port defaultOutputHandle := by
  simp [connectWires]

theorem connectInputs_append : connectInputs node (wires ++ [wire]) =
    (connectInputs node wires).connect wire.source wire.port defaultOutputHandle := by
  simp [connectInputs]

theorem connectWires_same : (connectWires graph wires).nodeDb = graph.nodeDb ∧
    (connectWires graph wires).groups = graph.groups := by
  induction wires using List.reverseRecOn with
  | nil => exact ⟨rfl, rfl⟩
  | append_singleton wires wire ih =>
    rw [connectWires_append]
    exact ih

theorem unled_heap_connectWires (ref : NodeRef) : unled ((connectWires graph wires).heap ref) =
      connectInputs (unled (graph.heap ref)) (wires.filter fun wire => wire.target = ref) := by
  induction wires using List.reverseRecOn with
  | nil => rfl
  | append_singleton wires wire ih =>
    rw [connectWires_append, unled_heap_connect, ih, filter_append]
    by_cases here : wire.target = ref
    · simp [here, connectInputs_append]
    · simp [here, Ne.symm here]

theorem leads_connectWires (ref : NodeRef) :
    ((connectWires graph wires).heap ref).leadsToNodes = (graph.heap ref).leadsToNodes ++
      (wires.filter fun wire => wire.source = ref).map Wire.target := by
  induction wires using List.reverseRecOn with
  | nil => simp [connectWires]
  | append_singleton wires wire ih =>
    rw [connectWires_append, connect_leads, ih, filter_append, map_append, append_assoc]
    by_cases here : wire.source = ref
    · simp [here]
    · simp [here, Ne.symm here]

theorem sourcesAt_append : sourcesAt port (wires ++ [wire]) =
    sourcesAt port wires ++ if wire.port = port then [wire.source] else [] := by
  rw [sourcesAt, filter_append, map_append, filter_singleton]
  by_cases here : wire.port = port <;> simp [here, sourcesAt]

theorem connectInputs_type : (connectInputs node wires).nodeType = node.nodeType ∧
    (connectInputs node wires).nodeTemplate = node.nodeTemplate := by
  induction wires using List.reverseRecOn with
  | nil => exact ⟨rfl, rfl⟩
  | append_singleton wires wire ih =>
    rw [connectInputs_append]
    cases wire.port <;> simpa [connect, apply_ite] using ih

theorem connectInputs_main (bare : node.mainInputs = none) :
    (connectInputs node wires).mainInputs.getD [] =
      if node.nodeTemplate.input ≤ 2 then (sourcesAt .main wires).getLast?.toList
      else sourcesAt .main wires := by
  induction wires using List.reverseRecOn with
  | nil => simp [connectInputs, bare, sourcesAt]
  | append_singleton wires wire ih =>
    rw [connectInputs_append, sourcesAt_append]
    cases port : wire.port with
    | main =>
      rw [connect_main, connectInputs_type.2, ih]
      by_cases few : node.nodeTemplate.input ≤ 2 <;> simp [few]
    | left | right => simpa [connect, apply_ite] using ih

theorem connectInputs_left (bare : node.leftInput = none) :
    (connectInputs node wires).leftInput = (sourcesAt .left wires).getLast? := by
  induction wires using List.reverseRecOn with
  | nil => simp [connectInputs, bare, sourcesAt]
  | append_singleton wires wire ih =>
    rw [connectInputs_append, sourcesAt_append]
    cases port : wire.port with
    | left => simp [connect]
    | main | right => simpa [connect, apply_ite] using ih

theorem connectInputs_right (bare : node.rightInput = none) :
    (connectInputs node wires).rightInput = (sourcesAt .right wires).getLast? := by
  induction wires using List.reverseRecOn with
  | nil => simp [connectInputs, bare, sourcesAt]
  | append_singleton wires wire ih =>
    rw [connectInputs_append, sourcesAt_append]
    cases port : wire.port with
    | right => simp [connect]
    | main | left => simpa [connect, apply_ite] using ih

theorem connect_handles (node : FlowNode P) (source : NodeRef) (port : InputPort)
    (handle : String) : (node.connect source port handle).inputOutputHandles =
      Function.update node.inputOutputHandles source.nodeId (some handle) := by
  by_cases held : (node.setting.isSetup && node.setting.dependingOnId.isSome) = true <;>
    cases port <;> simp [connect, held]

theorem connectInputs_handles (bare : ∀ nodeId, node.inputOutputHandles nodeId = none)
    (nodeId : Int) : ((connectInputs node wires).inputOutputHandles nodeId).getD
      defaultOutputHandle = defaultOutputHandle := by
  induction wires using List.reverseRecOn with
  | nil => simp [connectInputs, bare]
  | append_singleton wires wire ih =>
    rw [connectInputs_append, connect_handles, Function.update_apply]
    split
    · rfl
    · exact ih

/-- The input id that settings hold after main inputs have arrived, the last of them given. -/
def lastInputId (setting : NodeSetting P) (last : Option Int) : Option Int :=
  if setting.isSetup && setting.dependingOnId.isSome then last.or setting.dependingOnId
  else setting.dependingOnId

theorem connect_setting (node : FlowNode P) (source : NodeRef) (port : InputPort)
    (handle : String) : (node.connect source port handle).setting = { node.setting with
        dependingOnId := lastInputId node.setting
          (if port = .main then some source.nodeId else none) } := by
  by_cases held : (node.setting.isSetup && node.setting.dependingOnId.isSome) = true <;>
    cases port <;> simp [connect, lastInputId, held]

theorem lastInputId_later (setting : NodeSetting P) (earlier later : Option Int) :
    lastInputId { setting with dependingOnId := lastInputId setting earlier } later =
      lastInputId setting (later.or earlier) := by
  obtain ⟨_, isSetup, _, _, _, _, _, dependingOnId, _, _⟩ := setting
  cases isSetup with
  | false => simp [lastInputId]
  | true =>
    cases dependingOnId with
    | none => simp [lastInputId]
    | some dependingOnId => cases later <;> simp [lastInputId]

/-- Settings keep everything but the input id. -/
theorem connectInputs_setting : (connectInputs node wires).setting = { node.setting with
      dependingOnId := lastInputId node.setting
        ((sourcesAt .main wires).getLast?.map NodeRef.nodeId) } := by
  induction wires using List.reverseRecOn with
  | nil => simp [connectInputs, sourcesAt, lastInputId]
  | append_singleton wires wire ih =>
    rw [connectInputs_append, sourcesAt_append, connect_setting, ih, lastInputId_later]
    by_cases here : wire.port = .main <;> simp [here]

theorem template_connectWires (ref : NodeRef) :
    ((connectWires graph wires).heap ref).nodeTemplate = (graph.heap ref).nodeTemplate := by
  change (unled ((connectWires graph wires).heap ref)).nodeTemplate = _
  rw [unled_heap_connectWires, connectInputs_type.2]
  rfl

end

variable {Q : Type} {flows : List (Flow Q)} {flow : Flow Q}

def pairs (installation : Installation Q) (flows : List (Flow Q)) : List (Flow Q × Int × Int) :=
  flows.flatMap fun flow => (flow.pairsRead installation).map (flow, ·)

def copiedPort (installation : Installation Q) (flow : Flow Q) (sourceId targetId : Int) :
    InputPort :=
  match flow.graph.getNode targetId with
  | some target =>
    (installation.portOrder (inputPorts (flow.graph.heap target) sourceId)).head?.getD .main
  | none => .main

/-- The connection made for a pair. -/
def wireOf (installation : Installation Q) (mapping : IdMapping) (graph : FlowGraph (Settings Q))
    (entry : Flow Q × Int × Int) : Option Wire :=
  (mapping.get (entry.1.flowId, entry.2.1)).bind fun newSourceId =>
    (mapping.get (entry.1.flowId, entry.2.2)).bind fun newTargetId =>
      (graph.getNode newSourceId).bind fun source =>
        (graph.getNode newTargetId).map fun target =>
          ⟨source, target, copiedPort installation entry.1 entry.2.1 entry.2.2⟩

/-- A connection is made where both ends have a copy. -/
theorem wireOf_cases {installation : Installation Q} {mapping : IdMapping}
    {graph : FlowGraph (Settings Q)} {sourceId targetId : Int} {wire : Wire}
    (made : wireOf installation mapping graph (flow, sourceId, targetId) = some wire) :
    mapping.get (flow.flowId, sourceId) = some wire.source.nodeId ∧
      mapping.get (flow.flowId, targetId) = some wire.target.nodeId ∧
      wire.source ∈ graph.nodeDb ∧ wire.target ∈ graph.nodeDb := by
  obtain ⟨newSourceId, sourceImage, newTargetId, targetImage, source, sourceFound, target,
      targetFound, rfl⟩ : ∃ newSourceId, mapping.get (flow.flowId, sourceId) = some newSourceId ∧
      ∃ newTargetId, mapping.get (flow.flowId, targetId) = some newTargetId ∧
      ∃ source, graph.getNode newSourceId = some source ∧
      ∃ target, graph.getNode newTargetId = some target ∧
      ⟨source, target, copiedPort installation flow sourceId targetId⟩ = wire := by
    simpa [wireOf, Option.bind_eq_some_iff] using made
  obtain ⟨sourceLive, rfl⟩ := Covered.getNode_spec sourceFound
  obtain ⟨targetLive, rfl⟩ := Covered.getNode_spec targetFound
  exact ⟨sourceImage, targetImage, sourceLive, targetLive⟩

/-- What a pair of known nodes has to meet to be connected: the old target has a list of main
inputs, and the new one takes inputs. -/
def Passes (mapping : IdMapping) (graph : FlowGraph (Settings Q)) (flow : Flow Q)
    (targetId : Int) : Prop :=
  (∀ target, flow.graph.getNode targetId = some target →
    (flow.graph.heap target).mainInputs.isSome) ∧
  ∀ newTargetId, mapping.get (flow.flowId, targetId) = some newTargetId →
    ∀ copy, graph.getNode newTargetId = some copy → (graph.heap copy).nodeTemplate.input ≠ 0

structure Connects (installation : Installation Q) (mapping : IdMapping)
    (base : FlowGraph (Settings Q)) (done : List (Flow Q × Int × Int))
    (graph : FlowGraph (Settings Q)) : Prop where
  covered : Covered graph
  wired : graph = connectWires base (done.filterMap (wireOf installation mapping base))
  passed : ∀ entry ∈ done, (mapping.get (entry.1.flowId, entry.2.1)).isSome →
    (mapping.get (entry.1.flowId, entry.2.2)).isSome → Passes mapping base entry.1 entry.2.2

section

variable {installation : Installation Q} {ref : NodeRef} {sourceId targetId : Int}

theorem mem_pairsRead : (sourceId, targetId) ∈ flow.pairsRead installation ↔
    (∃ ref ∈ flow.graph.nodeDb, ref.nodeId = sourceId ∧
      targetId ∈ (flow.graph.heap ref).leadsToNodes.map NodeRef.nodeId) ∨
    ∃ ref ∈ flow.graph.nodeDb, ref.nodeId = targetId ∧
      sourceId ∈ (flow.graph.heap ref).allInputs.map NodeRef.nodeId := by
  rw [Flow.pairsRead, (installation.pairOrder_perm _).mem_iff, mem_dedup,
    FlowGraph.nodeConnections, mem_flatMap]
  simp only [mem_append, mem_map, Prod.mk.injEq]
  constructor
  · rintro ⟨ref, live, ⟨lead, listed, rfl, rfl⟩ | ⟨input, listed, rfl, rfl⟩⟩
    · exact .inl ⟨ref, live, rfl, lead, listed, rfl⟩
    · exact .inr ⟨ref, live, rfl, input, listed, rfl⟩
  · rintro (⟨ref, live, rfl, lead, listed, rfl⟩ | ⟨ref, live, rfl, input, listed, rfl⟩)
    · exact ⟨ref, live, .inl ⟨lead, listed, rfl, rfl⟩⟩
    · exact ⟨ref, live, .inr ⟨input, listed, rfl, rfl⟩⟩

theorem nodup_pairsRead : (flow.pairsRead installation).Nodup :=
  (installation.pairOrder_perm _).nodup_iff.mpr (nodup_dedup _)

theorem nodup_sourcesRead : (flow.sourcesRead installation ref).Nodup := by
  refine nodup_pairsRead.filterMap fun first second sourceId firstFound secondFound => ?_
  obtain ⟨⟨firstTarget, -⟩, rfl⟩ : (first.2 = ref.nodeId ∧ flow.knows first.1 = true) ∧
      first.1 = sourceId := by simpa using firstFound
  obtain ⟨⟨secondTarget, -⟩, same⟩ : (second.2 = ref.nodeId ∧ flow.knows second.1 = true) ∧
      second.1 = first.1 := by simpa using secondFound
  exact Prod.ext same.symm (firstTarget.trans secondTarget.symm)

theorem Flow.eq_of_nodeId {first second : NodeRef} (firstLive : first ∈ flow.graph.nodeDb)
    (secondLive : second ∈ flow.graph.nodeDb) (same : first.nodeId = second.nodeId) :
    first = second :=
  inj_on_of_nodup_map flow.distinct firstLive secondLive same

theorem Flow.getNode_nodeId (live : ref ∈ flow.graph.nodeDb) :
    flow.graph.getNode ref.nodeId = some ref := by
  have known : flow.knows ref.nodeId = true := knows_iff.mpr ⟨ref, live, rfl⟩
  obtain ⟨other, found⟩ := Option.isSome_iff_exists.mp known
  obtain ⟨otherLive, same⟩ := Covered.getNode_spec found
  rw [found, flow.eq_of_nodeId otherLive live same]

theorem mem_sourcesRead (live : ref ∈ flow.graph.nodeDb) :
    sourceId ∈ flow.sourcesRead installation ref ↔ sourceId ∈ flow.inputIds ref ∨
      ∃ source ∈ flow.graph.nodeDb, source.nodeId = sourceId ∧
        ref.nodeId ∈ (flow.graph.heap source).leadsToNodes.map NodeRef.nodeId := by
  have read : sourceId ∈ flow.sourcesRead installation ref ↔
      flow.knows sourceId = true ∧ (sourceId, ref.nodeId) ∈ flow.pairsRead installation := by
    rw [Flow.sourcesRead, mem_filterMap]
    constructor
    · rintro ⟨⟨first, second⟩, listed, chosen⟩
      obtain ⟨⟨rfl, known⟩, rfl⟩ : (second = ref.nodeId ∧ flow.knows first = true) ∧
          first = sourceId := by simpa using chosen
      exact ⟨known, listed⟩
    · rintro ⟨known, listed⟩
      exact ⟨_, listed, by simp [known]⟩
  rw [read, mem_pairsRead, Flow.inputIds, mem_filter]
  constructor
  · rintro ⟨known, ⟨source, sourceLive, same, lead⟩ | ⟨other, otherLive, same, input⟩⟩
    · exact .inr ⟨source, sourceLive, same, lead⟩
    · obtain rfl := flow.eq_of_nodeId otherLive live same
      exact .inl ⟨input, known⟩
  · rintro (⟨input, known⟩ | ⟨source, sourceLive, same, lead⟩)
    · exact ⟨known, .inr ⟨ref, live, rfl, input⟩⟩
    · exact ⟨knows_iff.mpr ⟨source, sourceLive, same⟩, .inl ⟨source, sourceLive, same, lead⟩⟩

end

section

variable {installation : Installation Q} {mapping : IdMapping} {base graph : FlowGraph (Settings Q)}
  {done later : List (Flow Q × Int × Int)}

theorem type_inputClass : nodeInputConnectionType (inputClass port) = .ok port := by
  cases port <;> rfl

theorem determine_eq {sourceId targetId : Int} {source target : NodeRef}
    (sourceFound : flow.graph.getNode sourceId = some source)
    (targetFound : flow.graph.getNode targetId = some target) :
    determineConnectionInputType installation flow sourceId targetId =
      if (flow.graph.heap target).mainInputs.isNone then .error .noneIsNotIterable
      else .ok (copiedPort installation flow sourceId targetId) := by
  have sameId : source.nodeId = sourceId := (Covered.getNode_spec sourceFound).2
  simp only [determineConnectionInputType, sourceFound, targetFound, getInputType, copiedPort]
  split
  · rfl
  · rw [sameId]
    rfl

/-- Nodes are found as in the graph before. -/
theorem Connects.getNode (connects : Connects installation mapping base done graph) (nodeId : Int) :
    graph.getNode nodeId = base.getNode nodeId := by
  rw [FlowGraph.getNode, connects.wired, connectWires_same.1]
  rfl

theorem Connects.template (connects : Connects installation mapping base done graph)
    (ref : NodeRef) : (graph.heap ref).nodeTemplate = (base.heap ref).nodeTemplate := by
  rw [connects.wired, template_connectWires]

/-- Known ids are found. -/
theorem Numbers.getNode (numbers : Numbers flows mapping) (listed : flow ∈ flows)
    {nodeId newId : Int} (image : mapping.get (flow.flowId, nodeId) = some newId) :
    ∃ ref, flow.graph.getNode nodeId = some ref :=
  Option.isSome_iff_exists.mp ((numbers.known flow listed nodeId).mp (by simp [image]))

variable [DecidableEq Q]

theorem Connects.step (connects : Connects installation mapping base done graph)
    (numbers : Numbers flows mapping) {entry : Flow Q × Int × Int} (listed : entry.1 ∈ flows)
    {fuel : Nat} {hashes : Hashes (Settings Q)} {after : World (Settings Q)}
    (returned : copyConnection installation mapping fuel ⟨graph, hashes⟩ entry =
      some (after, none)) :
    Connects installation mapping base (done ++ [entry]) after.graph := by
  obtain ⟨flow, sourceId, targetId⟩ := entry
  rw [copyConnection] at returned
  split at returned
  case h_1 newSourceId newTargetId sourceImage targetImage =>
    dsimp only at sourceImage targetImage returned listed
    obtain ⟨source, sourceFound⟩ := numbers.getNode listed sourceImage
    obtain ⟨target, targetFound⟩ := numbers.getNode listed targetImage
    rw [determine_eq sourceFound targetFound] at returned
    split at returned
    case h_1 => cases returned
    case h_2 port determined =>
      split at determined
      case isTrue => cases determined
      case isFalse present =>
        cases determined
        rcases addConnection_cases connects.covered returned with
          ⟨broke, -⟩ | ⟨newSource, newTarget, port, newSourceFound, newTargetFound, typed,
            takesInput, noReturn, connected⟩
        · cases broke
        rw [type_inputClass] at typed
        cases typed
        have wire : wireOf installation mapping base (flow, sourceId, targetId) =
            some ⟨newSource, newTarget, copiedPort installation flow sourceId targetId⟩ := by
          rw [connects.getNode] at newSourceFound newTargetFound
          simp [wireOf, sourceImage, targetImage, newSourceFound, newTargetFound]
        constructor
        case covered =>
          rw [connected]
          exact connects.covered.connect (Covered.getNode_spec newSourceFound).1
            (Covered.getNode_spec newTargetFound).1 noReturn
        case wired =>
          rw [connected, filterMap_append, filterMap_cons, wire, filterMap_nil,
            connectWires_append, ← connects.wired]
        case passed =>
          intro entry mem
          rcases mem_append.mp mem with earlier | last
          · exact connects.passed entry earlier
          obtain rfl := mem_singleton.mp last
          intro _ _
          constructor
          · intro other otherFound
            cases targetFound.symm.trans otherFound
            simpa [Option.isSome_iff_ne_none] using present
          · intro otherId otherImage copy copyFound
            cases targetImage.symm.trans otherImage
            rw [connects.getNode, copyFound] at newTargetFound
            cases newTargetFound
            rwa [← connects.template]
  case h_2 unknown =>
    obtain ⟨rfl, -⟩ := Prod.mk.inj (Option.some.inj returned)
    have none : wireOf installation mapping base (flow, sourceId, targetId) = none := by
      cases sourceImage : mapping.get (flow.flowId, sourceId) with
      | none => simp [wireOf, sourceImage]
      | some newSourceId =>
        cases targetImage : mapping.get (flow.flowId, targetId) with
        | none => simp [wireOf, sourceImage, targetImage]
        | some newTargetId => exact absurd targetImage (unknown _ _ sourceImage)
    constructor
    case covered => exact connects.covered
    case wired =>
      rw [filterMap_append, filterMap_cons, none, filterMap_nil, append_nil]
      exact connects.wired
    case passed =>
      intro entry mem sourceKnown targetKnown
      rcases mem_append.mp mem with earlier | last
      · exact connects.passed entry earlier sourceKnown targetKnown
      · obtain rfl := mem_singleton.mp last
        obtain ⟨newSourceId, sourceImage⟩ := Option.isSome_iff_exists.mp sourceKnown
        obtain ⟨newTargetId, targetImage⟩ := Option.isSome_iff_exists.mp targetKnown
        exact absurd targetImage (unknown _ _ sourceImage)

end

end Flowfile.CombinedGraphs
