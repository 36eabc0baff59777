import Flowfile.CombinedConnections

/-!
# Copies, seen from the flow they come from

The connections into a copy are the sources of the old node, in the order in which its pairs are
read. A copy is therefore described by the flow alone: its inputs are the images of the sources
that are read for a port, and its settings are mapped, or reduced to a promise, and name the last
main input.

When no source is connected twice and only inputs are read, every source is copied to the port
it had. Main inputs are then kept exactly if they were read in their order, and settings exactly
if they name the last main input already.
-/

namespace Flowfile.CombinedGraphs

open Flowfile.Graph Library.Dictionaries List

variable {Q : Type} {flows : List (Flow Q)} {flow other : Flow Q} {installation : Installation Q}
  {mapping : IdMapping} {targetFlowId : Int} {base graph : FlowGraph (Settings Q)}
  {ref copy : NodeRef}

def wiresInto (installation : Installation Q) (mapping : IdMapping) (base : FlowGraph (Settings Q))
    (flows : List (Flow Q)) (copy : NodeRef) : List Wire :=
  ((pairs installation flows).filterMap (wireOf installation mapping base)).filter fun wire =>
    wire.target = copy

theorem flatMap_flow {α : Type} (distinct : (flows.map Flow.flowId).Nodup) (listed : flow ∈ flows)
    (part : Flow Q → List α)
    (others : ∀ other ∈ flows, other.flowId ≠ flow.flowId → part other = []) :
    flows.flatMap part = part flow := by
  induction flows with
  | nil => cases listed
  | cons first rest ih =>
    rw [map_cons, nodup_cons] at distinct
    rw [forall_mem_cons] at others
    rw [flatMap_cons]
    rcases mem_cons.mp listed with rfl | later
    · have nothing : rest.flatMap part = [] := by
        rw [flatMap_eq_nil_iff]
        refine fun other inRest => others.2 other inRest fun same => distinct.1 ?_
        exact same ▸ mem_map_of_mem inRest
      rw [nothing, append_nil]
    · have apart : first.flowId ≠ flow.flowId := fun same =>
        distinct.1 (same ▸ mem_map_of_mem later)
      rw [others.1 apart, nil_append, ih distinct.2 later others.2]

def Flow.sourcesAt (installation : Installation Q) (flow : Flow Q) (ref : NodeRef)
    (port : InputPort) : List Int :=
  (flow.sourcesRead installation ref).filter fun sourceId =>
    copiedPort installation flow sourceId ref.nodeId = port

/-- What a copy is after everything was connected, in terms of the flow it comes from. -/
structure Rebuilt (installation : Installation Q) (mapping : IdMapping) (targetFlowId : Int)
    (flow : Flow Q) (ref : NodeRef) (newNodeId : Int) (nodeTemplate : NodeTemplate)
    (node : FlowNode (Settings Q)) : Prop where
  nodeType : node.nodeType = (flow.graph.heap ref).nodeType
  setting : ∃ settled, settled = settledSetting installation (flow.graph.heap ref).nodeType
      (updatedSettingInput (flow.graph.heap ref).setting newNodeId targetFlowId flow.flowId
        mapping) ∧
    node.setting = { settled with
      dependingOnId := lastInputId settled ((flow.sourcesAt installation ref .main).getLast?.bind
        fun sourceId => mapping.get (flow.flowId, sourceId)) }
  mainInputs : (node.mainInputs.getD []).map (fun input => some input.nodeId) =
    (if nodeTemplate.input ≤ 2 then (flow.sourcesAt installation ref .main).getLast?.toList
      else flow.sourcesAt installation ref .main).map fun sourceId =>
        mapping.get (flow.flowId, sourceId)
  leftInput : node.leftInput.map (fun input => some input.nodeId) =
    (flow.sourcesAt installation ref .left).getLast?.map fun sourceId =>
      mapping.get (flow.flowId, sourceId)
  rightInput : node.rightInput.map (fun input => some input.nodeId) =
    (flow.sourcesAt installation ref .right).getLast?.map fun sourceId =>
      mapping.get (flow.flowId, sourceId)
  outputHandles : ∀ nodeId, (node.inputOutputHandles nodeId).getD defaultOutputHandle =
    defaultOutputHandle

section

def Flow.sideIds (flow : Flow Q) (input : Option NodeRef) : List Int :=
  (input.toList.map NodeRef.nodeId).filter flow.knows

theorem inputIds_eq : flow.inputIds ref = flow.mainInputIds ref ++
    flow.sideIds (flow.graph.heap ref).leftInput ++
      flow.sideIds (flow.graph.heap ref).rightInput := by
  simp only [Flow.inputIds, FlowNode.allInputs, map_append, filter_append,
    Flow.mainInputIds, Flow.sideIds]

variable {sourceId : Int}

theorem hasId_iff {input : Option NodeRef} (known : flow.knows sourceId = true) :
    hasId input sourceId = true ↔ sourceId ∈ flow.sideIds input := by
  cases input with
  | none => simp [hasId, Flow.sideIds]
  | some source =>
    simp only [hasId, Option.any_some, decide_eq_true_eq, Flow.sideIds, Option.toList_some,
      map_cons, map_nil, mem_filter, mem_singleton]
    exact ⟨fun same => ⟨same.symm, known⟩, fun both => both.1.symm⟩

theorem copiedPort_iff (live : ref ∈ flow.graph.nodeDb) (single : (flow.inputIds ref).Nodup)
    (input : sourceId ∈ flow.inputIds ref) :
    (copiedPort installation flow sourceId ref.nodeId = .main ↔ sourceId ∈ flow.mainInputIds ref) ∧
      (copiedPort installation flow sourceId ref.nodeId = .left ↔
        sourceId ∈ flow.sideIds (flow.graph.heap ref).leftInput) ∧
      (copiedPort installation flow sourceId ref.nodeId = .right ↔
        sourceId ∈ flow.sideIds (flow.graph.heap ref).rightInput) := by
  have known : flow.knows sourceId = true := (mem_filter.mp input).2
  have mainIff : ((((flow.graph.heap ref).mainInputs.getD []).map NodeRef.nodeId).contains
      sourceId) = true ↔ sourceId ∈ flow.mainInputIds ref := by
    rw [contains_iff_mem, Flow.mainInputIds, mem_filter, and_iff_left known]
  have leftIff : hasId (flow.graph.heap ref).leftInput sourceId = true ↔ _ := hasId_iff known
  have rightIff : hasId (flow.graph.heap ref).rightInput sourceId = true ↔ _ := hasId_iff known
  have alone : ∀ port, inputPorts (flow.graph.heap ref) sourceId = [port] →
      copiedPort installation flow sourceId ref.nodeId = port := by
    intro port ports
    have order := perm_singleton.mp (installation.portOrder_perm [port])
    simp only [copiedPort, flow.getNode_nodeId live, ports, order, List.head?_cons,
      Option.getD_some]
  rw [inputIds_eq, mem_append, mem_append] at input
  rw [inputIds_eq, nodup_append, nodup_append] at single
  obtain ⟨⟨-, -, mainLeft⟩, -, othersRight⟩ := single
  rw [inputPorts] at alone
  rcases input with (main | left) | right
  · have notLeft : sourceId ∉ flow.sideIds (flow.graph.heap ref).leftInput :=
      fun left => mainLeft _ main _ left rfl
    have notRight : sourceId ∉ flow.sideIds (flow.graph.heap ref).rightInput :=
      fun right => othersRight _ (mem_append_left _ main) _ right rfl
    rw [alone .main (by
      rw [if_pos (mainIff.mpr main), if_neg (mt leftIff.mp notLeft),
        if_neg (mt rightIff.mp notRight)]; rfl)]
    simp [main, notLeft, notRight]
  · have notMain : sourceId ∉ flow.mainInputIds ref := fun main => mainLeft _ main _ left rfl
    have notRight : sourceId ∉ flow.sideIds (flow.graph.heap ref).rightInput :=
      fun right => othersRight _ (mem_append_right _ left) _ right rfl
    rw [alone .left (by
      rw [if_neg (mt mainIff.mp notMain), if_pos (leftIff.mpr left),
        if_neg (mt rightIff.mp notRight)]; rfl)]
    simp [left, notMain, notRight]
  · have notMain : sourceId ∉ flow.mainInputIds ref :=
      fun main => othersRight _ (mem_append_left _ main) _ right rfl
    have notLeft : sourceId ∉ flow.sideIds (flow.graph.heap ref).leftInput :=
      fun left => othersRight _ (mem_append_right _ left) _ right rfl
    rw [alone .right (by
      rw [if_neg (mt mainIff.mp notMain), if_neg (mt leftIff.mp notLeft),
        if_pos (rightIff.mpr right)]; rfl)]
    simp [right, notMain, notLeft]

/-- There is one order of at most one element. -/
theorem eq_of_perm_short {first second : List Int} (same : first.Perm second)
    (short : second.length ≤ 1) : first = second := by
  match second, short with
  | [], _ => exact perm_nil.mp same
  | [value], _ => exact perm_singleton.mp same

theorem length_sideIds (input : Option NodeRef) : (flow.sideIds input).length ≤ 1 := by
  refine (length_filter_le _ _).trans ?_
  cases input <;> simp

/-- What is needed to read the connections of a node off the pairs: no source is connected twice,
and what is read are the inputs. -/
structure Readable (installation : Installation Q) (flow : Flow Q) (ref : NodeRef) : Prop where
  live : ref ∈ flow.graph.nodeDb
  single : (flow.inputIds ref).Nodup
  reads : (flow.sourcesRead installation ref).Perm (flow.inputIds ref)

namespace Readable

variable (readable : Readable installation flow ref)
include readable

theorem sourcesAt_main : flow.sourcesAt installation ref .main =
    (flow.sourcesRead installation ref).filter fun sourceId =>
      sourceId ∈ flow.mainInputIds ref := by
  refine filter_congr fun sourceId mem => ?_
  rw [decide_eq_decide]
  exact (copiedPort_iff readable.live readable.single (readable.reads.mem_iff.mp mem)).1

theorem sourcesAt_perm (port : InputPort) (part : List Int) (partNodup : part.Nodup)
    (included : ∀ sourceId ∈ part, sourceId ∈ flow.inputIds ref)
    (belongs : ∀ sourceId ∈ flow.inputIds ref,
      copiedPort installation flow sourceId ref.nodeId = port ↔ sourceId ∈ part) :
    (flow.sourcesAt installation ref port).Perm part := by
  have nodup := readable.reads.nodup_iff.mpr readable.single
  rw [Flow.sourcesAt, perm_ext_iff_of_nodup (nodup.filter _) partNodup]
  intro sourceId
  rw [mem_filter, readable.reads.mem_iff, decide_eq_true_eq]
  constructor
  · exact fun both => (belongs sourceId both.1).mp both.2
  · intro mem
    have input := included sourceId mem
    exact ⟨input, (belongs sourceId input).mpr mem⟩

theorem parts : ((flow.mainInputIds ref).Nodup ∧
      ∀ sourceId ∈ flow.mainInputIds ref, sourceId ∈ flow.inputIds ref) ∧
    ((flow.sideIds (flow.graph.heap ref).leftInput).Nodup ∧
      ∀ sourceId ∈ flow.sideIds (flow.graph.heap ref).leftInput, sourceId ∈ flow.inputIds ref) ∧
    (flow.sideIds (flow.graph.heap ref).rightInput).Nodup ∧
      ∀ sourceId ∈ flow.sideIds (flow.graph.heap ref).rightInput,
        sourceId ∈ flow.inputIds ref := by
  have nodup := readable.single
  rw [inputIds_eq, nodup_append, nodup_append] at nodup
  rw [inputIds_eq]
  refine ⟨⟨nodup.1.1, ?_⟩, ⟨nodup.1.2.1, ?_⟩, nodup.2.1, ?_⟩ <;> intro sourceId mem <;>
    simp [mem]

theorem main_perm : (flow.sourcesAt installation ref .main).Perm (flow.mainInputIds ref) :=
  readable.sourcesAt_perm _ _ readable.parts.1.1 readable.parts.1.2 fun _ input =>
    (copiedPort_iff readable.live readable.single input).1

theorem sourcesAt_left : flow.sourcesAt installation ref .left =
    flow.sideIds (flow.graph.heap ref).leftInput :=
  eq_of_perm_short (readable.sourcesAt_perm _ _ readable.parts.2.1.1 readable.parts.2.1.2
    fun _ input => (copiedPort_iff readable.live readable.single input).2.1) (length_sideIds _)

theorem sourcesAt_right : flow.sourcesAt installation ref .right =
    flow.sideIds (flow.graph.heap ref).rightInput :=
  eq_of_perm_short (readable.sourcesAt_perm _ _ readable.parts.2.2.1 readable.parts.2.2.2
    fun _ input => (copiedPort_iff readable.live readable.single input).2.2) (length_sideIds _)

end Readable

end

namespace Copies

variable (copies : Copies installation mapping targetFlowId (entries flows) base)
include copies

theorem exists_copy (numbers : Numbers flows mapping) (listed : flow ∈ flows)
    (live : ref ∈ flow.graph.nodeDb) :
    ∃ copy ∈ base.nodeDb, mapping.get (flow.flowId, ref.nodeId) = some copy.nodeId := by
  obtain ⟨newNodeId, found⟩ := numbers.exists_image listed live
  have there : some newNodeId ∈ base.nodeDb.map fun ref => some ref.nodeId := by
    rw [copies.nodeIds]
    exact mem_map.mpr ⟨(flow, ref), mem_entries.mpr ⟨listed, live⟩, found⟩
  obtain ⟨copy, copyLive, same⟩ := mem_map.mp there
  exact ⟨copy, copyLive, found.trans same.symm⟩

theorem exists_original (copyLive : copy ∈ base.nodeDb) : ∃ flow ∈ flows, ∃ ref ∈ flow.graph.nodeDb,
      mapping.get (flow.flowId, ref.nodeId) = some copy.nodeId := by
  have there : some copy.nodeId ∈ (entries flows).map (newId mapping) := by
    rw [← copies.nodeIds]
    exact mem_map.mpr ⟨copy, copyLive, rfl⟩
  obtain ⟨⟨flow, ref⟩, mem, same⟩ := mem_map.mp there
  obtain ⟨listed, live⟩ := mem_entries.mp mem
  exact ⟨flow, listed, ref, live, same⟩

theorem getNode_copy (copyLive : copy ∈ base.nodeDb) : base.getNode copy.nodeId = some copy := by
  cases found : base.getNode copy.nodeId with
  | none =>
    have absent := List.find?_eq_none.mp found copy copyLive
    simp at absent
  | some other =>
    obtain ⟨otherLive, same⟩ := Covered.getNode_spec found
    rw [copies.covered.eq_of_nodeId otherLive copyLive same]

theorem wireOf_into (numbers : Numbers flows mapping) (otherListed : other ∈ flows)
    (copyLive : copy ∈ base.nodeDb)
    (image : mapping.get (flow.flowId, ref.nodeId) = some copy.nodeId) (sourceId targetId : Int) :
    ((wireOf installation mapping base (other, sourceId, targetId)).filter fun wire =>
        wire.target = copy).map (fun wire => (some wire.source.nodeId, wire.port)) =
      if other.flowId = flow.flowId ∧ targetId = ref.nodeId ∧ other.knows sourceId = true then
        some (mapping.get (other.flowId, sourceId), copiedPort installation other sourceId targetId)
      else none := by
  split
  case isTrue here =>
    obtain ⟨sameFlow, rfl, known⟩ := here
    obtain ⟨newSourceId, sourceImage⟩ := Option.isSome_iff_exists.mp
      ((numbers.known other otherListed sourceId).mpr known)
    obtain ⟨source, sourceLive, rfl⟩ := knows_iff.mp known
    obtain ⟨newSource, newSourceLive, found⟩ := copies.exists_copy numbers otherListed sourceLive
    rw [← sameFlow] at image
    simp [wireOf, found, image, copies.getNode_copy newSourceLive, copies.getNode_copy copyLive]
  case isFalse elsewhere =>
    rw [Option.map_eq_none_iff, Option.filter_eq_none_iff]
    intro wire made leads
    obtain ⟨sourceImage, targetImage, -, -⟩ := wireOf_cases made
    obtain rfl : wire.target = copy := by simpa using leads
    obtain ⟨sameFlow, sameNode⟩ := Prod.mk.inj (numbers.injective _ _ _ targetImage image)
    refine elsewhere ⟨sameFlow, sameNode, (numbers.known other otherListed sourceId).mp ?_⟩
    simp [sourceImage]

theorem wiresInto_eq (numbers : Numbers flows mapping) (distinct : (flows.map Flow.flowId).Nodup)
    (listed : flow ∈ flows) (copyLive : copy ∈ base.nodeDb)
    (image : mapping.get (flow.flowId, ref.nodeId) = some copy.nodeId) :
    (wiresInto installation mapping base flows copy).map
        (fun wire => (some wire.source.nodeId, wire.port)) =
      (flow.sourcesRead installation ref).map fun sourceId =>
        (mapping.get (flow.flowId, sourceId),
          copiedPort installation flow sourceId ref.nodeId) := by
  rw [wiresInto, pairs, filter_filterMap, map_filterMap, filterMap_flatMap,
    flatMap_flow distinct listed]
  · rw [filterMap_map, Flow.sourcesRead, map_filterMap]
    apply filterMap_congr
    rintro ⟨sourceId, targetId⟩ -
    rw [Function.comp_apply, copies.wireOf_into numbers listed copyLive image]
    by_cases here : targetId = ref.nodeId ∧ flow.knows sourceId = true
    · simp [here]
    · rw [if_neg fun both => here both.2, if_neg here]
      rfl
  · intro other otherListed apart
    rw [filterMap_map, filterMap_eq_nil_iff]
    rintro ⟨sourceId, targetId⟩ -
    rw [Function.comp_apply, copies.wireOf_into numbers otherListed copyLive image,
      if_neg fun both => apart both.1]

theorem sourcesAt_wiresInto (numbers : Numbers flows mapping)
    (distinct : (flows.map Flow.flowId).Nodup) (listed : flow ∈ flows)
    (copyLive : copy ∈ base.nodeDb)
    (image : mapping.get (flow.flowId, ref.nodeId) = some copy.nodeId) (port : InputPort) :
    (sourcesAt port (wiresInto installation mapping base flows copy)).map
        (fun source => some source.nodeId) =
      (flow.sourcesAt installation ref port).map fun sourceId =>
        mapping.get (flow.flowId, sourceId) := by
  have whole := copies.wiresInto_eq numbers distinct listed copyLive image
  have part := congrArg (fun reading => (reading.filter fun entry => entry.2 = port).map Prod.fst)
    whole
  simpa only [filter_map, map_map, Function.comp_def, sourcesAt, Flow.sourcesAt]
    using part

/-- Every copy is what its sources make of it. -/
theorem rebuilt (connects : Connects installation mapping base (pairs installation flows) graph)
    (numbers : Numbers flows mapping) (distinct : (flows.map Flow.flowId).Nodup)
    (listed : flow ∈ flows) (live : ref ∈ flow.graph.nodeDb) (copyLive : copy ∈ base.nodeDb)
    (image : mapping.get (flow.flowId, ref.nodeId) = some copy.nodeId) :
    ∃ nodeTemplate,
      installation.template (flow.graph.heap ref).nodeType = some nodeTemplate ∧
      Rebuilt installation mapping targetFlowId flow ref copy.nodeId nodeTemplate
        (graph.heap copy) := by
  obtain ⟨nodeTemplate, known, object⟩ := copies.objects (flow, ref)
    (mem_entries.mpr ⟨listed, live⟩) copy copyLive image
  have whole : unled (graph.heap copy) =
      connectInputs (copiedNode installation mapping targetFlowId flow ref copy.nodeId
        nodeTemplate) (wiresInto installation mapping base flows copy) := by
    rw [connects.wired, unled_heap_connectWires, object]
    rfl
  have sources := copies.sourcesAt_wiresInto numbers distinct listed copyLive image
  have last : ∀ port,
      (sourcesAt port (wiresInto installation mapping base flows copy)).getLast?.map
          (fun source => some source.nodeId) =
        (flow.sourcesAt installation ref port).getLast?.map fun sourceId =>
          mapping.get (flow.flowId, sourceId) := by
    intro port
    rw [← List.getLast?_map, sources, List.getLast?_map]
  refine ⟨nodeTemplate, known, ?_⟩
  constructor
  case nodeType =>
    change (unled (graph.heap copy)).nodeType = _
    rw [whole, connectInputs_type.1]
    rfl
  case setting =>
    refine ⟨_, rfl, ?_⟩
    change (unled (graph.heap copy)).setting = _
    have same : (sourcesAt .main (wiresInto installation mapping base flows copy)).getLast?.map
        NodeRef.nodeId = (flow.sourcesAt installation ref .main).getLast?.bind fun sourceId =>
          mapping.get (flow.flowId, sourceId) := by
      have both := last .main
      cases here : (sourcesAt .main (wiresInto installation mapping base flows copy)).getLast? <;>
        cases there : (flow.sourcesAt installation ref .main).getLast? <;>
        simp_all
    rw [whole, connectInputs_setting, same]
    rfl
  case mainInputs =>
    change ((unled (graph.heap copy)).mainInputs.getD []).map _ = _
    have template : (copiedNode installation mapping targetFlowId flow ref copy.nodeId
        nodeTemplate).nodeTemplate = nodeTemplate := rfl
    rw [whole, connectInputs_main rfl, template]
    by_cases few : nodeTemplate.input ≤ 2
    · rw [if_pos few, if_pos few, ← Option.toList_map, ← Option.toList_map, last]
    · rw [if_neg few, if_neg few, sources]
  case leftInput =>
    change (unled (graph.heap copy)).leftInput.map _ = _
    rw [whole, connectInputs_left rfl, last]
  case rightInput =>
    change (unled (graph.heap copy)).rightInput.map _ = _
    rw [whole, connectInputs_right rfl, last]
  case outputHandles =>
    intro nodeId
    change ((unled (graph.heap copy)).inputOutputHandles nodeId).getD _ = _
    rw [whole, connectInputs_handles fun _ => rfl]

end Copies

section

variable (numbers : Numbers flows mapping) (listed : flow ∈ flows)
include numbers listed

/-- Known ids are told apart by their images. -/
theorem map_image_inj {first second : List Int} (known : ∀ nodeId ∈ first, flow.knows nodeId = true)
    (same : first.map (fun nodeId => mapping.get (flow.flowId, nodeId)) =
      second.map fun nodeId => mapping.get (flow.flowId, nodeId)) : first = second := by
  induction first generalizing second with
  | nil => exact (map_eq_nil_iff.mp same.symm).symm
  | cons nodeId rest ih =>
    cases second with
    | nil => cases same
    | cons other later =>
    rw [forall_mem_cons] at known
    rw [map_cons, map_cons, List.cons.injEq] at same
    obtain ⟨image, found⟩ := Option.isSome_iff_exists.mp
      ((numbers.known flow listed nodeId).mpr known.1)
    rw [numbers.eq_of_image found (same.1.symm.trans found), ih known.2 same.2]

variable (inputs : List NodeRef)

theorem map_some_filterMap :
    (inputs.filterMap fun input => mapping.get (flow.flowId, input.nodeId)).map some =
      ((inputs.map NodeRef.nodeId).filter flow.knows).map fun nodeId =>
        mapping.get (flow.flowId, nodeId) := by
  induction inputs with
  | nil => rfl
  | cons input rest ih =>
    have known := numbers.known flow listed input.nodeId
    cases image : mapping.get (flow.flowId, input.nodeId) with
    | none =>
      have unknown : flow.knows input.nodeId = false := by simpa [image] using known
      simp [image, unknown, ih]
    | some newId =>
      have knows : flow.knows input.nodeId = true := by simpa [image] using known
      simp [image, knows, ih]

/-- A list of ids is that of the images if it is so with every image taken as present. -/
theorem eq_filterMap_iff {ids : List Int} :
    ids = (inputs.filterMap fun input => mapping.get (flow.flowId, input.nodeId)) ↔
      ids.map some = ((inputs.map NodeRef.nodeId).filter flow.knows).map fun nodeId =>
        mapping.get (flow.flowId, nodeId) := by
  rw [← map_some_filterMap numbers listed, map_inj_right fun _ _ => Option.some.inj]

theorem eq_bind_iff {newId : Option Int} (input : Option NodeRef) :
    newId = (input.bind fun input => mapping.get (flow.flowId, input.nodeId)) ↔
      newId.toList.map some = (flow.sideIds input).map fun nodeId =>
        mapping.get (flow.flowId, nodeId) := by
  rw [Flow.sideIds, ← eq_filterMap_iff numbers listed]
  cases input with
  | none => cases newId <;> simp
  | some input =>
    cases image : mapping.get (flow.flowId, input.nodeId) <;> cases newId <;> simp [image]

end

theorem knows_of_sourcesRead {sourceId : Int}
    (read : sourceId ∈ flow.sourcesRead installation ref) : flow.knows sourceId = true := by
  obtain ⟨pair, -, chosen⟩ := mem_filterMap.mp read
  obtain ⟨⟨-, known⟩, rfl⟩ : (pair.2 = ref.nodeId ∧ flow.knows pair.1 = true) ∧
      pair.1 = sourceId := by simpa using chosen
  exact known

section

variable (setting : NodeSetting (Settings Q))
include setting

theorem payload_updatedSettingInput (newNodeId : Int) :
    (updatedSettingInput setting newNodeId targetFlowId flow.flowId mapping).payload =
      setting.payload.map fun settings =>
        { settings with
          nodeId := newNodeId
          flowId := targetFlowId
          dependingOnIds := settings.dependingOnIds.map fun dependingOnIds =>
            (dependingOnIds.filter (· ≠ -1)).map (remapped mapping flow.flowId) } := by
  rw [updatedSettingInput]
  dsimp only
  congr 1
  funext settings
  congr 2
  funext dependingOnIds
  refine map_congr_left fun dependingOnId mem => ?_
  have present : dependingOnId ≠ -1 := by simpa using (mem_filter.mp mem).2
  rw [remapped, if_neg present]

variable {newNodeId : Int}

theorem settingCopied_promise {combined : Combined Q} :
    SettingCopied combined flow newNodeId setting (nodePromise setting) ↔
      setting = nodePromise setting := by
  constructor
  · rintro ⟨dependingOnId, payload, others⟩
    obtain ⟨settings, isSetup, posX, posY, groupId, description, nodeReference, named,
      cacheResults, isUserDefined⟩ := setting
    have noPayload : settings = none := Option.map_eq_none_iff.mp payload.symm
    have noInput : named = none := Option.map_eq_none_iff.mp dependingOnId.symm
    simp only [withoutIds, nodePromise, NodeSetting.mk.injEq] at others
    obtain ⟨-, rfl, -, -, rfl, -, rfl, -, rfl, rfl⟩ := others
    rw [noPayload, noInput]
    rfl
  · intro same
    constructor
    case dependingOnId => rw [same]; rfl
    case payload => rw [same]; rfl
    case others => rw [← same]

theorem settingCopied_updated (dependingOnId : Option Int) :
    SettingCopied ⟨targetFlowId, graph, mapping⟩ flow newNodeId setting
        { updatedSettingInput setting newNodeId targetFlowId flow.flowId mapping with
          dependingOnId } ↔
      dependingOnId = setting.dependingOnId.map (remapped mapping flow.flowId) := by
  constructor
  · exact fun copied => copied.dependingOnId
  · exact fun same => ⟨same, payload_updatedSettingInput setting newNodeId, rfl⟩

end

theorem lastInputId_updated (numbers : Numbers flows mapping) (listed : flow ∈ flows)
    {newNodeId : Int} (setting : NodeSetting (Settings Q)) (last : Option Int)
    (known : ∀ lastId, last = some lastId → flow.knows lastId = true) :
    lastInputId (updatedSettingInput setting newNodeId targetFlowId flow.flowId mapping)
        (last.bind fun lastId => mapping.get (flow.flowId, lastId)) =
      setting.dependingOnId.map (remapped mapping flow.flowId) ↔
    (setting.isSetup = true → ∀ dependingOnId lastId, setting.dependingOnId = some dependingOnId →
      last = some lastId → dependingOnId = lastId ∧ lastId ≠ -1) := by
  cases setup : setting.isSetup with
  | false => simp [lastInputId, updatedSettingInput, setup]
  | true =>
  cases named : setting.dependingOnId with
  | none => simp [lastInputId, updatedSettingInput, named]
  | some dependingOnId =>
  cases last with
  | none => simp [lastInputId, updatedSettingInput, setup, named]
  | some lastId =>
  obtain ⟨image, found⟩ := Option.isSome_iff_exists.mp
    ((numbers.known flow listed lastId).mpr (known lastId rfl))
  simp [lastInputId, updatedSettingInput, setup, named, found,
    ← numbers.remapped_eq_image_iff found, eq_comm]

namespace Rebuilt

variable {nodeTemplate : NodeTemplate} {node : FlowNode (Settings Q)} {newNodeId : Int}
  (rebuilt : Rebuilt installation mapping targetFlowId flow ref newNodeId nodeTemplate node)
  (numbers : Numbers flows mapping) (listed : flow ∈ flows)
include rebuilt numbers listed

/-- Main inputs are copied exactly if those that are read, as far as there is room, are the
old ones. -/
theorem mainInputs_iff : (node.mainInputs.getD []).map NodeRef.nodeId =
      (((flow.graph.heap ref).mainInputs.getD []).filterMap fun input =>
        mapping.get (flow.flowId, input.nodeId)) ↔
    (if nodeTemplate.input ≤ 2 then (flow.sourcesAt installation ref .main).getLast?.toList
      else flow.sourcesAt installation ref .main) = flow.mainInputIds ref := by
  rw [eq_filterMap_iff numbers listed, map_map]
  change (node.mainInputs.getD []).map (fun input => some input.nodeId) = _ ↔ _
  rw [rebuilt.mainInputs]
  constructor
  · intro same
    exact (map_image_inj numbers listed (fun nodeId mem => (mem_filter.mp mem).2) same.symm).symm
  · intro same
    rw [same]
    rfl

theorem setting_iff : SettingCopied ⟨targetFlowId, graph, mapping⟩ flow newNodeId
      (flow.graph.heap ref).setting node.setting ↔
    ((installation.adder (flow.graph.heap ref).nodeType).isSome ∧
        ((flow.graph.heap ref).setting.isSetup = true → ∀ dependingOnId lastId,
          (flow.graph.heap ref).setting.dependingOnId = some dependingOnId →
          (flow.sourcesAt installation ref .main).getLast? = some lastId →
          dependingOnId = lastId ∧ lastId ≠ -1)) ∨
      (installation.adder (flow.graph.heap ref).nodeType = none ∧
        (flow.graph.heap ref).setting = nodePromise (flow.graph.heap ref).setting) := by
  obtain ⟨settled, settledEq, final⟩ := rebuilt.setting
  cases installed : installation.adder (flow.graph.heap ref).nodeType with
  | none =>
    have promise : node.setting = nodePromise (flow.graph.heap ref).setting := by
      rw [final, settledEq, settledSetting, installed]
      simp [lastInputId, nodePromise, updatedSettingInput]
    rw [promise, settingCopied_promise]
    simp
  | some adder =>
    have known : ∀ lastId, (flow.sourcesAt installation ref .main).getLast? = some lastId →
        flow.knows lastId = true := fun lastId last =>
      knows_of_sourcesRead (mem_filter.mp (mem_of_getLast? last)).1
    have updated : settled = updatedSettingInput (flow.graph.heap ref).setting newNodeId
        targetFlowId flow.flowId mapping := by
      rw [settledEq, settledSetting, installed]
      rfl
    rw [final, updated, settingCopied_updated, lastInputId_updated numbers listed _ _ known]
    simp

end Rebuilt

end Flowfile.CombinedGraphs
