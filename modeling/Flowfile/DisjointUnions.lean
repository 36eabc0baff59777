import Flowfile.CombinedUnions

/-!
# When combining makes a disjoint union

Combining loses something in several ways. A connection from an output other than the first comes
out of the first. Two connections between the same nodes become one. Main inputs come in the order
in which a set of pairs is read. Groups are not copied, but nodes keep their group ids. A join
without main inputs breaks the reading of its ports off. A type without adder loses its settings,
and settings that name an outdated input are corrected.

Flows without cycles in which no node meets any of these are combined into their disjoint union, and
only they are. In one direction, the pairs that are read are compared with the inputs of the copies.
In the other, every step of both loops succeeds, as a path along copies comes from one in one flow.
-/

namespace Flowfile.CombinedGraphs

open Flowfile.Graph Library.Dictionaries Library.FiniteDag Library.Numbering List

variable {Q : Type} {flows : List (Flow Q)} {flow : Flow Q} {installation : Installation Q}
  {combined : Combined Q} {base : FlowGraph (Settings Q)} {ref copy : NodeRef}

/-- A combined graph, made of copied nodes and then of copied connections. -/
structure Assembled (installation : Installation Q) (flows : List (Flow Q))
    (combined : Combined Q) (base : FlowGraph (Settings Q)) : Prop where
  distinct : (flows.map Flow.flowId).Nodup
  numbers : Numbers flows combined.mapping
  copies : Copies installation combined.mapping combined.flowId (entries flows) base
  connects : Connects installation combined.mapping base (pairs installation flows) combined.graph

theorem count_crossed (wires : List Wire) (source target : NodeRef) :
    ((wires.filter fun wire => wire.source = source).map Wire.target).count target =
      ((wires.filter fun wire => wire.target = target).map Wire.source).count source := by
  simp only [List.count, countP_map, countP_filter]
  refine countP_congr fun wire _ => ?_
  simp [and_comm]

variable {nodeId : Int}

namespace Numbers

variable (numbers : Numbers flows combined.mapping)
include numbers

/-- Images occur as often as ids. -/
theorem count_image {newId : Int} (found : combined.image flow nodeId = some newId)
    (ids : List Int) : (ids.map (combined.image flow)).count (some newId) = ids.count nodeId := by
  rw [List.count, List.count, countP_map]
  refine countP_congr fun other _ => ?_
  simp only [Function.comp_apply, beq_iff_eq]
  exact numbers.eq_iff_image found

end Numbers

variable {source : NodeRef} {sourceId targetId : Int} {target : NodeRef}

namespace Assembled

variable (assembled : Assembled installation flows combined base)
include assembled

theorem nodeDb_eq : combined.graph.nodeDb = base.nodeDb := by
  rw [assembled.connects.wired, connectWires_same.1]

/-- Copies have distinct ids. -/
theorem eq_of_nodeId {first second : NodeRef} (firstLive : first ∈ base.nodeDb)
    (secondLive : second ∈ base.nodeDb) (same : first.nodeId = second.nodeId) : first = second :=
  assembled.copies.covered.eq_of_nodeId firstLive secondLive same

theorem count_nodeId (copyLive : copy ∈ base.nodeDb) {refs : List NodeRef}
    (live : ∀ ref ∈ refs, ref ∈ base.nodeDb) :
    refs.count copy = (refs.map fun ref => some ref.nodeId).count (some copy.nodeId) := by
  rw [List.count, List.count, countP_map]
  refine countP_congr fun ref mem => ?_
  simp only [Function.comp_apply, beq_iff_eq, Option.some.injEq]
  exact ⟨fun same => same ▸ rfl, assembled.eq_of_nodeId (live ref mem) copyLive⟩

theorem outs_eq (sourceLive : source ∈ base.nodeDb) (listed : flow ∈ flows)
    (copyLive : copy ∈ base.nodeDb) (image : combined.image flow ref.nodeId = some copy.nodeId) :
    combined.graph.outs source copy =
      ((flow.sourcesRead installation ref).map (combined.image flow)).count
        (some source.nodeId) := by
  obtain ⟨origin, originListed, node, nodeLive, sourceImage⟩ :=
    assembled.copies.exists_original sourceLive
  obtain ⟨nodeTemplate, -, object⟩ := assembled.copies.objects (origin, node)
    (mem_entries.mpr ⟨originListed, nodeLive⟩) source sourceLive sourceImage
  have live : ∀ ref ∈ (wiresInto installation combined.mapping base flows copy).map Wire.source,
      ref ∈ base.nodeDb := by
    intro ref mem
    obtain ⟨wire, into, rfl⟩ := mem_map.mp mem
    obtain ⟨entry, -, made⟩ := mem_filterMap.mp (mem_filter.mp into).1
    exact (wireOf_cases made).2.2.1
  have read := congrArg (List.map Prod.fst)
    (assembled.copies.wiresInto_eq assembled.numbers assembled.distinct listed copyLive image)
  rw [map_map, map_map] at read
  calc combined.graph.outs source copy
      = ((((pairs installation flows).filterMap (wireOf installation combined.mapping base)).filter
          fun wire => wire.source = source).map Wire.target).count copy := by
        rw [FlowGraph.outs, assembled.connects.wired, leads_connectWires, object]
        rfl
    _ = ((wiresInto installation combined.mapping base flows copy).map Wire.source).count source :=
        count_crossed _ _ _
    _ = _ := by
        rw [assembled.count_nodeId sourceLive live, map_map]
        exact congrArg (List.count (some source.nodeId)) read

theorem ins_eq (sourceLive : source ∈ base.nodeDb) (listed : flow ∈ flows)
    (copied : NodeCopied combined flow ref copy) (copyLive : copy ∈ base.nodeDb) :
    combined.graph.ins source copy =
      ((flow.inputIds ref).map (combined.image flow)).count (some source.nodeId) := by
  have live : ∀ input ∈ (combined.graph.heap copy).allInputs, input ∈ base.nodeDb := by
    intro input mem
    rw [← assembled.nodeDb_eq] at copyLive ⊢
    exact assembled.connects.covered.inputsLive input copy ⟨copyLive, mem⟩
  have inputs : (combined.graph.heap copy).allInputs.map (fun input => some input.nodeId) =
      (flow.inputIds ref).map (combined.image flow) := by
    have main := (eq_filterMap_iff assembled.numbers listed _).mp copied.mainInputs
    have left := (eq_bind_iff assembled.numbers listed _).mp copied.leftInput
    have right := (eq_bind_iff assembled.numbers listed _).mp copied.rightInput
    rw [map_map] at main
    rw [Option.toList_map, map_map] at left right
    rw [inputIds_eq, FlowNode.allInputs, map_append, map_append, map_append, map_append]
    exact congrArg₂ (· ++ ·) (congrArg₂ (· ++ ·) main left) right
  rw [FlowGraph.ins, assembled.count_nodeId sourceLive live, inputs]

/-- A copy is what its sources make of it. -/
theorem rebuilt (listed : flow ∈ flows) (live : ref ∈ flow.graph.nodeDb)
    (copyLive : copy ∈ base.nodeDb) (image : combined.image flow ref.nodeId = some copy.nodeId) :
    ∃ nodeTemplate, installation.template (flow.graph.heap ref).nodeType = some nodeTemplate ∧
      Rebuilt installation combined.mapping combined.flowId flow ref copy.nodeId nodeTemplate
        (combined.graph.heap copy) :=
  assembled.copies.rebuilt assembled.connects assembled.numbers assembled.distinct listed live
    copyLive image

theorem count_reads (union : IsDisjointUnion flows combined) (listed : flow ∈ flows)
    (live : ref ∈ flow.graph.nodeDb) (known : flow.knows nodeId = true) :
    (flow.sourcesRead installation ref).count nodeId = (flow.inputIds ref).count nodeId := by
  obtain ⟨source, sourceLive, rfl⟩ := knows_iff.mp known
  obtain ⟨sourceCopy, sourceCopyLive, sourceImage⟩ :=
    assembled.copies.exists_copy assembled.numbers listed sourceLive
  obtain ⟨copy, copyLive, copied⟩ := union.nodes flow listed ref live
  rw [← assembled.numbers.count_image sourceImage, ← assembled.numbers.count_image sourceImage]
  rw [assembled.nodeDb_eq] at copyLive
  rw [← assembled.outs_eq sourceCopyLive listed copyLive copied.image,
    ← assembled.ins_eq sourceCopyLive listed copied copyLive]
  exact union.bothEnds.balanced sourceCopy (assembled.nodeDb_eq ▸ sourceCopyLive) copy
    (assembled.nodeDb_eq ▸ copyLive)

theorem readable (union : IsDisjointUnion flows combined) (listed : flow ∈ flows)
    (live : ref ∈ flow.graph.nodeDb) : Readable installation flow ref := by
  have known : ∀ nodeId, nodeId ∈ flow.sourcesRead installation ref ∨
      nodeId ∈ flow.inputIds ref → flow.knows nodeId = true := by
    rintro nodeId (read | input)
    · exact knows_of_sourcesRead read
    · exact (mem_filter.mp input).2
  have reads : (flow.sourcesRead installation ref).Perm (flow.inputIds ref) := by
    rw [perm_iff_count]
    intro nodeId
    by_cases listedThere : nodeId ∈ flow.sourcesRead installation ref ∨ nodeId ∈ flow.inputIds ref
    · exact assembled.count_reads union listed live (known nodeId listedThere)
    · rw [not_or] at listedThere
      rw [count_eq_zero.mpr listedThere.1, count_eq_zero.mpr listedThere.2]
  exact ⟨live, reads.nodup_iff.mp nodup_sourcesRead, reads⟩

theorem passes (listed : flow ∈ flows) (readable : Readable installation flow ref)
    (nonempty : flow.inputIds ref ≠ []) : (flow.graph.heap ref).mainInputs.isSome ∧
      ∀ nodeTemplate, installation.template (flow.graph.heap ref).nodeType = some nodeTemplate →
        nodeTemplate.input ≠ 0 := by
  obtain ⟨inputId, input⟩ := exists_mem_of_ne_nil _ nonempty
  obtain ⟨⟨sourceId, targetId⟩, mem, chosen⟩ :=
    mem_filterMap.mp (readable.reads.mem_iff.mpr input)
  obtain ⟨⟨rfl, sourceKnown⟩, -⟩ : (targetId = ref.nodeId ∧ flow.knows sourceId = true) ∧
      sourceId = inputId := by simpa using chosen
  obtain ⟨copy, copyLive, image⟩ :=
    assembled.copies.exists_copy assembled.numbers listed readable.live
  obtain ⟨hasList, takesInput⟩ := assembled.connects.passed (flow, sourceId, ref.nodeId)
    (mem_flatMap.mpr ⟨flow, listed, mem_map.mpr ⟨_, mem, rfl⟩⟩)
    ((assembled.numbers.known flow listed sourceId).mpr sourceKnown) (by simp [image])
  refine ⟨hasList ref (flow.getNode_nodeId readable.live), fun nodeTemplate known => ?_⟩
  obtain ⟨stored, sameTemplate, object⟩ := assembled.copies.objects (flow, ref)
    (mem_entries.mpr ⟨listed, readable.live⟩) copy copyLive image
  cases sameTemplate.symm.trans known
  have takes := takesInput copy.nodeId image copy (assembled.copies.getNode_copy copyLive)
  rwa [object] at takes

section

variable (union : IsDisjointUnion flows combined) (listed : flow ∈ flows)
include union listed

theorem copyable (live : ref ∈ flow.graph.nodeDb) : Copyable installation flow ref := by
  have readable := assembled.readable union listed live
  obtain ⟨copy, copyLive, copied⟩ := union.nodes flow listed ref live
  have baseLive : copy ∈ base.nodeDb := assembled.nodeDb_eq ▸ copyLive
  obtain ⟨nodeTemplate, known, rebuilt⟩ := assembled.rebuilt listed live baseLive copied.image
  have accepted := assembled.copies.accepted (flow, ref) (mem_entries.mpr ⟨listed, live⟩)
  have settings := (rebuilt.setting_iff assembled.numbers listed).mp copied.setting
  have mains := (rebuilt.mainInputs_iff assembled.numbers listed).mp copied.mainInputs
  have passes := assembled.passes listed readable
  have order : flow.sourcesAt installation ref .main = flow.mainInputIds ref := by
    by_cases few : nodeTemplate.input ≤ 2
    · rw [if_pos few] at mains
      refine eq_of_perm_short readable.main_perm ?_
      rw [← mains]
      cases (flow.sourcesAt installation ref .main).getLast? <;> simp
    · rwa [if_neg few] at mains
  rw [order] at mains settings
  constructor
  case ungrouped =>
    have same : (combined.graph.heap copy).setting.groupId =
        (flow.graph.heap ref).setting.groupId := by
      have others := congrArg NodeSetting.groupId copied.setting.others
      exact others
    cases grouped : (flow.graph.heap ref).setting.groupId with
    | none => rfl
    | some groupId =>
    have exists' := union.groups copy copyLive groupId (same.trans grouped)
    rw [FlowGraph.getGroup, assembled.connects.wired, connectWires_same.2,
      assembled.copies.groups] at exists'
    cases exists'
  case configurable =>
    exact settings.imp (fun both => ⟨both.1, accepted.2 both.1⟩) fun both => both
  case room =>
    refine ⟨nodeTemplate, known, fun nonempty => ?_, fun few => ?_⟩
    · exact (passes nonempty).2 nodeTemplate known
    · rw [if_pos few] at mains
      rw [← mains]
      cases (flow.mainInputIds ref).getLast? <;> simp
  case listed => exact fun nonempty => (passes nonempty).1
  case single => exact readable.single
  case fed =>
    intro source sourceLive lead
    exact readable.reads.mem_iff.mp
      ((mem_sourcesRead live).mpr (.inr ⟨source, sourceLive, rfl, lead⟩))
  case ordered => rw [← readable.sourcesAt_main, order]
  case defaultOutputs =>
    intro input mem knows
    obtain ⟨newId, image⟩ := Option.isSome_iff_exists.mp
      ((assembled.numbers.known flow listed input.nodeId).mpr knows)
    rw [← copied.outputHandles input mem newId image, rebuilt.outputHandles]
  case current =>
    intro setup dependingOnId lastId named last
    rcases settings with ⟨-, current⟩ | ⟨-, promise⟩
    · exact current setup dependingOnId lastId named last
    · rw [promise] at named
      cases named

theorem leads_of_feeds (feeds : flow.feeds sourceId targetId) (sourceLive : source ∈ base.nodeDb)
    (targetLive : target ∈ base.nodeDb)
    (sourceImage : combined.image flow sourceId = some source.nodeId)
    (targetImage : combined.image flow targetId = some target.nodeId) :
    combined.graph.leads source target := by
  obtain ⟨ref, live, rfl, input⟩ := feeds
  refine ⟨assembled.nodeDb_eq ▸ sourceLive, count_pos_iff.mp ?_⟩
  change 0 < combined.graph.outs source target
  rw [assembled.outs_eq sourceLive listed targetLive targetImage,
    assembled.numbers.count_image sourceImage]
  exact count_pos_iff.mpr ((assembled.readable union listed live).reads.mem_iff.mpr input)

theorem feeds_acyclic : Acyclic flow.feeds := by
  let copyOf (nodeId : Int) : NodeRef :=
    ((combined.image flow nodeId).bind base.getNode).getD ⟨nodeId, 0⟩
  have copied : ∀ nodeId, flow.knows nodeId = true →
      copyOf nodeId ∈ base.nodeDb ∧ combined.image flow nodeId = some (copyOf nodeId).nodeId := by
    intro nodeId known
    obtain ⟨ref, live, rfl⟩ := knows_iff.mp known
    obtain ⟨copy, copyLive, image⟩ := assembled.copies.exists_copy assembled.numbers listed live
    have here : copyOf ref.nodeId = copy := by
      simp [copyOf, Combined.image, image, assembled.copies.getNode_copy copyLive]
    rw [here]
    exact ⟨copyLive, image⟩
  intro nodeId cycle
  refine union.bothEnds.acyclic (copyOf nodeId) (Relation.TransGen.lift copyOf ?_ _ _ cycle)
  intro sourceId targetId feeds
  obtain ⟨ref, live, same, input⟩ := id feeds
  obtain ⟨sourceLive, sourceImage⟩ := copied sourceId (mem_filter.mp input).2
  obtain ⟨targetLive, targetImage⟩ := copied targetId (knows_iff.mpr ⟨ref, live, same⟩)
  exact assembled.leads_of_feeds union listed feeds sourceLive targetLive sourceImage targetImage

theorem combinable : Combinable installation flow :=
  ⟨assembled.feeds_acyclic union listed, fun _ live => assembled.copyable union listed live⟩

end

end Assembled

/-- The connections of a node that can be copied are read off the pairs. -/
theorem Copyable.readable (copyable : Copyable installation flow ref)
    (live : ref ∈ flow.graph.nodeDb) : Readable installation flow ref := by
  refine ⟨live, copyable.single, ?_⟩
  rw [perm_ext_iff_of_nodup nodup_sourcesRead copyable.single]
  intro sourceId
  rw [mem_sourcesRead live]
  constructor
  · rintro (input | ⟨source, sourceLive, rfl, lead⟩)
    · exact input
    · exact copyable.fed source sourceLive lead
  · exact .inl

/-- The last of at most one element. -/
theorem toList_getLast?_short {ids : List Int} (short : ids.length ≤ 1) :
    ids.getLast?.toList = ids := by
  match ids, short with
  | [], _ => rfl
  | [_], _ => rfl

namespace Assembled

variable (assembled : Assembled installation flows combined base)
include assembled

theorem nodeCopied (copyable : Copyable installation flow ref) (listed : flow ∈ flows)
    (live : ref ∈ flow.graph.nodeDb) (copyLive : copy ∈ base.nodeDb)
    (image : combined.image flow ref.nodeId = some copy.nodeId) :
    NodeCopied combined flow ref copy := by
  have readable := copyable.readable live
  obtain ⟨nodeTemplate, known, rebuilt⟩ := assembled.rebuilt listed live copyLive image
  obtain ⟨other, sameTemplate, -, room⟩ := copyable.room
  cases sameTemplate.symm.trans known
  have order : flow.sourcesAt installation ref .main = flow.mainInputIds ref :=
    readable.sourcesAt_main.trans copyable.ordered.symm
  have side : ∀ {input : Option NodeRef} {old : Option NodeRef} {sources : List Int},
      input.map (fun input => some input.nodeId) = sources.getLast?.map (combined.image flow) →
      sources = flow.sideIds old → input.map NodeRef.nodeId =
        old.bind fun input => combined.image flow input.nodeId := by
    intro input old sources stored same
    refine (eq_bind_iff assembled.numbers listed old).mpr ?_
    rw [← Option.toList_map, Option.map_map]
    change (input.map fun input => some input.nodeId).toList = _
    rw [stored, Option.toList_map, same, toList_getLast?_short (length_sideIds old)]
    rfl
  constructor
  case image => exact image
  case nodeType => exact rebuilt.nodeType
  case setting =>
    refine (rebuilt.setting_iff assembled.numbers listed).mpr ?_
    rw [order]
    exact copyable.configurable.imp (fun both => ⟨both.1, copyable.current⟩) fun both => both
  case mainInputs =>
    refine (rebuilt.mainInputs_iff assembled.numbers listed).mpr ?_
    rw [order]
    split
    case isTrue few => exact toList_getLast?_short (room few)
    case isFalse => rfl
  case leftInput => exact side rebuilt.leftInput readable.sourcesAt_left
  case rightInput => exact side rebuilt.rightInput readable.sourcesAt_right
  case outputHandles =>
    intro input mem newId inputImage
    rw [rebuilt.outputHandles, copyable.defaultOutputs input mem
      ((assembled.numbers.known flow listed input.nodeId).mp (by
        rw [Combined.image] at inputImage
        simp [inputImage]))]

theorem isDisjointUnion (combinable : ∀ flow ∈ flows, Combinable installation flow) :
    IsDisjointUnion flows combined := by
  have copied : ∀ flow ∈ flows, ∀ ref ∈ flow.graph.nodeDb, ∀ copy ∈ base.nodeDb,
      combined.image flow ref.nodeId = some copy.nodeId → NodeCopied combined flow ref copy :=
    fun flow listed ref live copy copyLive image =>
      assembled.nodeCopied ((combinable flow listed).copyable ref live) listed live copyLive image
  constructor
  case injective => exact assembled.numbers.injective
  case nodes =>
    intro flow listed ref live
    obtain ⟨copy, copyLive, image⟩ := assembled.copies.exists_copy assembled.numbers listed live
    exact ⟨copy, assembled.nodeDb_eq ▸ copyLive, copied flow listed ref live copy copyLive image⟩
  case nothingElse =>
    intro copy copyLive
    exact assembled.copies.exists_original (assembled.nodeDb_eq ▸ copyLive)
  case bothEnds =>
    refine ⟨assembled.connects.covered, fun source sourceLive copy copyLive => ?_⟩
    rw [assembled.nodeDb_eq] at sourceLive copyLive
    obtain ⟨flow, listed, ref, live, image⟩ := assembled.copies.exists_original copyLive
    rw [assembled.outs_eq sourceLive listed copyLive image, assembled.ins_eq sourceLive listed
      (copied flow listed ref live copy copyLive image) copyLive]
    exact ((((combinable flow listed).copyable ref live).readable live).reads.map _).count_eq _
  case groups =>
    intro copy copyLive groupId grouped
    have baseLive : copy ∈ base.nodeDb := assembled.nodeDb_eq ▸ copyLive
    obtain ⟨flow, listed, ref, live, image⟩ := assembled.copies.exists_original baseLive
    have others := congrArg NodeSetting.groupId
      (copied flow listed ref live copy baseLive image).setting.others
    have same : (combined.graph.heap copy).setting.groupId =
        (flow.graph.heap ref).setting.groupId := others
    rw [same, ((combinable flow listed).copyable ref live).ungrouped] at grouped
    cases grouped

end Assembled

theorem feeds_of_read (combinable : Combinable installation flow)
    (sourceKnown : flow.knows sourceId = true) (targetKnown : flow.knows targetId = true)
    (read : (sourceId, targetId) ∈ flow.pairsRead installation) :
    flow.feeds sourceId targetId := by
  obtain ⟨ref, live, rfl⟩ := knows_iff.mp targetKnown
  refine ⟨ref, live, rfl, ((combinable.copyable ref live).readable live).reads.mem_iff.mp ?_⟩
  exact mem_filterMap.mpr ⟨_, read, by simp [sourceKnown]⟩

section

variable {mapping : IdMapping} {targetFlowId : Int} {graph : FlowGraph (Settings Q)}
  {done later : List (Flow Q × Int × Int)}
  (distinct : (flows.map Flow.flowId).Nodup) (numbers : Numbers flows mapping)
  (copies : Copies installation mapping targetFlowId (entries flows) base)
  (combinable : ∀ flow ∈ flows, Combinable installation flow)
  (connects : Connects installation mapping base done graph)
  (within : ∀ entry ∈ done, entry ∈ pairs installation flows)

theorem mem_pairs : (flow, sourceId, targetId) ∈ pairs installation flows ↔
      flow ∈ flows ∧ (sourceId, targetId) ∈ flow.pairsRead installation := by
  simp only [pairs, mem_flatMap, mem_map, Prod.mk.injEq]
  constructor
  · rintro ⟨owner, listed, pair, read, rfl, rfl⟩
    exact ⟨listed, read⟩
  · rintro ⟨listed, read⟩
    exact ⟨flow, listed, _, read, rfl, rfl⟩

include numbers copies combinable connects within

/-- A successor of a copy comes from a connection of a flow. -/
theorem feeds_of_leads (leads : graph.leads source target) : ∃ flow ∈ flows, ∃ sourceId targetId,
      mapping.get (flow.flowId, sourceId) = some source.nodeId ∧
      mapping.get (flow.flowId, targetId) = some target.nodeId ∧
      flow.feeds sourceId targetId := by
  obtain ⟨live, lead⟩ := leads
  rw [connects.wired] at live lead
  rw [connectWires_same.1] at live
  obtain ⟨origin, originListed, node, nodeLive, image⟩ := copies.exists_original live
  obtain ⟨nodeTemplate, -, object⟩ := copies.objects (origin, node)
    (mem_entries.mpr ⟨originListed, nodeLive⟩) source live image
  rw [leads_connectWires, object] at lead
  obtain ⟨wire, mem, rfl⟩ := mem_map.mp lead
  obtain ⟨made, own⟩ := mem_filter.mp mem
  obtain rfl : wire.source = source := by simpa using own
  obtain ⟨⟨flow, sourceId, targetId⟩, entered, made⟩ := mem_filterMap.mp made
  obtain ⟨sourceImage, targetImage, -, -⟩ := wireOf_cases made
  obtain ⟨listed, read⟩ := mem_pairs.mp (within _ entered)
  exact ⟨flow, listed, sourceId, targetId, sourceImage, targetImage,
    feeds_of_read (combinable flow listed)
      ((numbers.known flow listed sourceId).mp (by simp [sourceImage]))
      ((numbers.known flow listed targetId).mp (by simp [targetImage])) read⟩

include distinct

theorem feeds_of_path (listed : flow ∈ flows)
    (image : mapping.get (flow.flowId, nodeId) = some source.nodeId)
    (path : Relation.ReflTransGen graph.leads source target) : ∃ last,
      mapping.get (flow.flowId, last) = some target.nodeId ∧
      Relation.ReflTransGen flow.feeds nodeId last := by
  induction path with
  | refl => exact ⟨nodeId, image, .refl⟩
  | tail _ step ih =>
    obtain ⟨middle, middleImage, before⟩ := ih
    obtain ⟨owner, ownerListed, sourceId, targetId, sourceImage, targetImage, feeds⟩ :=
      feeds_of_leads numbers copies combinable connects within step
    obtain ⟨sameFlow, rfl⟩ := Prod.mk.inj (numbers.injective _ _ _ sourceImage middleImage)
    obtain rfl := inj_on_of_nodup_map distinct ownerListed listed sameFlow
    exact ⟨targetId, targetImage, before.tail feeds⟩

theorem copyConnection_succeeds [DecidableEq Q] {entry : Flow Q × Int × Int}
    (mem : entry ∈ pairs installation flows) : ∃ final, Returns (fun fuel hashes =>
      copyConnection installation mapping fuel ⟨graph, hashes⟩ entry) final none := by
  obtain ⟨flow, sourceId, targetId⟩ := entry
  obtain ⟨listed, read⟩ := mem_pairs.mp mem
  cases sourceImage : mapping.get (flow.flowId, sourceId) with
  | none => exact ⟨graph, 0, fun fuel _ hashes => ⟨hashes, by simp [copyConnection, sourceImage]⟩⟩
  | some newSourceId =>
  cases targetImage : mapping.get (flow.flowId, targetId) with
  | none =>
    exact ⟨graph, 0, fun fuel _ hashes =>
      ⟨hashes, by simp [copyConnection, sourceImage, targetImage]⟩⟩
  | some newTargetId =>
  have sourceKnown := (numbers.known flow listed sourceId).mp (by simp [sourceImage])
  have targetKnown := (numbers.known flow listed targetId).mp (by simp [targetImage])
  obtain ⟨node, nodeLive, rfl⟩ := knows_iff.mp sourceKnown
  obtain ⟨ref, live, rfl⟩ := knows_iff.mp targetKnown
  have feeds := feeds_of_read (combinable flow listed) sourceKnown targetKnown read
  have copyable := (combinable flow listed).copyable ref live
  have input : node.nodeId ∈ flow.inputIds ref := by
    obtain ⟨other, otherLive, same, input⟩ := feeds
    rwa [flow.eq_of_nodeId otherLive live same] at input
  have nonempty : flow.inputIds ref ≠ [] := ne_nil_of_mem input
  obtain ⟨source, sourceLive, found⟩ := copies.exists_copy numbers listed nodeLive
  cases found.symm.trans sourceImage
  obtain ⟨target, targetLive, found⟩ := copies.exists_copy numbers listed live
  cases found.symm.trans targetImage
  obtain ⟨nodeTemplate, known, object⟩ := copies.objects (flow, ref)
    (mem_entries.mpr ⟨listed, live⟩) target targetLive targetImage
  have takesInput : (graph.heap target).nodeTemplate.input ≠ 0 := by
    obtain ⟨other, otherKnown, takes, -⟩ := copyable.room
    cases known.symm.trans otherKnown
    rw [connects.template, object]
    exact takes nonempty
  have noReturn : ¬ Relation.ReflTransGen graph.leads target source := by
    intro path
    obtain ⟨last, lastImage, path⟩ := feeds_of_path distinct numbers copies combinable
      connects within listed targetImage path
    obtain rfl := numbers.eq_of_image lastImage sourceImage
    exact (combinable flow listed).acyclic _ (.head' feeds path)
  have port : determineConnectionInputType installation flow node.nodeId ref.nodeId =
      .ok (copiedPort installation flow node.nodeId ref.nodeId) := by
    rw [determine_eq (flow.getNode_nodeId nodeLive) (flow.getNode_nodeId live), if_neg]
    simpa [Option.isSome_iff_ne_none] using copyable.listed nonempty
  refine ⟨graph.connect target source (copiedPort installation flow node.nodeId ref.nodeId)
    defaultOutputHandle, ?_⟩
  simp only [copyConnection, sourceImage, targetImage, port]
  exact addConnection_succeeds connects.covered
    ((connects.getNode _).trans (copies.getNode_copy sourceLive))
    ((connects.getNode _).trans (copies.getNode_copy targetLive)) (type_inputClass _) takesInput
    noReturn

end

variable [DecidableEq Q]

section

variable {mapping : IdMapping} {targetFlowId : Int} (distinct : (flows.map Flow.flowId).Nodup)
  (numbers : Numbers flows mapping)
  (copies : Copies installation mapping targetFlowId (entries flows) base)

omit [DecidableEq Q] in
include copies in
/-- Nothing has been connected yet. -/
theorem connects_start : Connects installation mapping base [] base :=
  ⟨copies.covered, rfl, by simp⟩

include numbers copies

theorem connects_of_ran {fuel : Nat} {hashes : Hashes (Settings Q)} {after : World (Settings Q)}
    (ran : addConnectionsToCombinedGraph installation mapping fuel flows ⟨base, hashes⟩ =
      some (after, none)) :
    Connects installation mapping base (pairs installation flows) after.graph := by
  refine forEach_keeps (Connects installation mapping base) (pairs installation flows)
    (fun done entry later parts world after connects stepped => ?_) (connects_start copies) ran
  obtain ⟨flow, sourceId, targetId⟩ := entry
  have mem : (flow, sourceId, targetId) ∈ pairs installation flows := by simp [parts]
  exact connects.step numbers (mem_pairs.mp mem).1 stepped

include distinct in
theorem addConnections_succeeds (combinable : ∀ flow ∈ flows, Combinable installation flow) :
    ∃ final, Returns (fun fuel hashes =>
      addConnectionsToCombinedGraph installation mapping fuel flows ⟨base, hashes⟩) final none := by
  refine forEach_succeeds (Connects installation mapping base) (pairs installation flows)
    (fun fuel done entry later parts world after connects stepped => ?_)
    (fun done entry later parts graph connects => ?_) (connects_start copies)
  · obtain ⟨flow, sourceId, targetId⟩ := entry
    have mem : (flow, sourceId, targetId) ∈ pairs installation flows := by simp [parts]
    exact connects.step numbers (mem_pairs.mp mem).1 stepped
  · exact copyConnection_succeeds distinct numbers copies combinable connects
      (fun earlier mem => by simp [parts, mem]) (by simp [parts])

end

theorem assembled_of_combine {fuel : Nat} {targetFlowId : Option Int}
    (ran : combineFlowGraphsWithMapping installation fuel flows targetFlowId =
      some (.ok combined)) :
    flows ≠ [] ∧ ∃ base, Assembled installation flows combined base := by
  rw [combineFlowGraphsWithMapping] at ran
  split at ran
  case h_1 => cases ran
  case h_2 valid =>
    obtain ⟨nonempty, distinct⟩ : flows ≠ [] ∧ (flows.map Flow.flowId).Nodup := by
      rw [validateInput] at valid
      split at valid
      case isTrue => cases valid
      case isFalse nonempty =>
        split at valid
        case isTrue => cases valid
        case isFalse distinct => exact ⟨nonempty, not_not.mp distinct⟩
    obtain ⟨⟨copied, failed⟩, nodesAdded, ran⟩ := Option.bind_eq_some_iff.mp ran
    cases failed with
    | some failure => cases ran
    | none =>
    obtain ⟨⟨connected, failed⟩, connectionsAdded, ran⟩ := Option.bind_eq_some_iff.mp ran
    cases failed with
    | some failure => cases ran
    | none =>
    cases Option.some.inj ran
    have numbers := numbers_createNodeIdMapping distinct
    have copies := copies_of_ran numbers distinct nodesAdded
    exact ⟨nonempty, copied.graph, distinct, numbers, copies,
      connects_of_ran numbers copies connectionsAdded⟩

theorem combines_of_combinable (nonempty : flows ≠ []) (distinct : (flows.map Flow.flowId).Nodup)
    (combinable : ∀ flow ∈ flows, Combinable installation flow) (targetFlowId : Option Int) :
    ∃ combined, Combines installation flows targetFlowId combined := by
  have numbers := numbers_createNodeIdMapping distinct
  have accepted : ∀ flow ∈ flows, ∀ ref ∈ flow.graph.nodeDb, Accepts installation
      (flow.graph.heap ref).nodeType (flow.graph.heap ref).setting := by
    intro flow listed ref live
    have copyable := (combinable flow listed).copyable ref live
    obtain ⟨nodeTemplate, known, -⟩ := copyable.room
    refine ⟨by simp [known], fun installed => ?_⟩
    rcases copyable.configurable with ⟨-, free⟩ | ⟨missing, -⟩
    · exact free
    · simp [missing] at installed
  obtain ⟨copied, nodeBound, nodeEnough⟩ := addNodes_succeeds
    (targetFlowId.getD (generateUniqueFlowId installation flows)) numbers distinct accepted
  obtain ⟨sample, sampleRan⟩ := nodeEnough nodeBound (Nat.le_refl _) fun _ => none
  have copies := copies_of_ran numbers distinct sampleRan
  obtain ⟨connected, pairBound, pairEnough⟩ :=
    addConnections_succeeds distinct numbers copies combinable
  refine ⟨⟨targetFlowId.getD (generateUniqueFlowId installation flows), connected,
    createNodeIdMapping flows⟩, max nodeBound pairBound, fun fuel large => ?_⟩
  obtain ⟨between, nodesAdded⟩ := nodeEnough fuel (by omega) fun _ => none
  obtain ⟨after, connectionsAdded⟩ := pairEnough fuel (by omega) between
  have valid : validateInput flows = none := by simp [validateInput, nonempty, distinct]
  have start : (World.empty : World (Settings Q)) = ⟨World.empty.graph, fun _ => none⟩ := rfl
  dsimp only at nodesAdded connectionsAdded
  simp only [combineFlowGraphsWithMapping, valid]
  rw [start, nodesAdded, Option.bind_eq_bind, Option.bind_some]
  dsimp only
  rw [connectionsAdded]
  rfl

omit [DecidableEq Q] in
/-- What it takes for a node to be copied as it is, in terms that can be evaluated. -/
theorem copyable_iff (installation : Installation Q) (flow : Flow Q) (ref : NodeRef) :
    ((flow.graph.heap ref).setting.groupId = none ∧
      ((installation.adder (flow.graph.heap ref).nodeType).isSome ∧
          installation.refusal (flow.graph.heap ref).nodeType
            ((flow.graph.heap ref).setting.payload.map Settings.fields) = none ∨
        installation.adder (flow.graph.heap ref).nodeType = none ∧
          (flow.graph.heap ref).setting = nodePromise (flow.graph.heap ref).setting) ∧
      ((installation.template (flow.graph.heap ref).nodeType).any fun nodeTemplate =>
        (flow.inputIds ref ≠ [] → nodeTemplate.input ≠ 0) ∧
          (nodeTemplate.input ≤ 2 → (flow.mainInputIds ref).length ≤ 1)) = true ∧
      (flow.inputIds ref ≠ [] → (flow.graph.heap ref).mainInputs.isSome) ∧
      (flow.inputIds ref).Nodup ∧
      (∀ source ∈ flow.graph.nodeDb,
        ref.nodeId ∈ (flow.graph.heap source).leadsToNodes.map NodeRef.nodeId →
        source.nodeId ∈ flow.inputIds ref) ∧
      (flow.mainInputIds ref = (flow.sourcesRead installation ref).filter fun nodeId =>
        nodeId ∈ flow.mainInputIds ref) ∧
      (∀ input ∈ (flow.graph.heap ref).allInputs, flow.knows input.nodeId = true →
        ((flow.graph.heap ref).inputOutputHandles input.nodeId).getD defaultOutputHandle =
          defaultOutputHandle) ∧
      ((flow.graph.heap ref).setting.isSetup = true →
        ∀ dependingOnId ∈ (flow.graph.heap ref).setting.dependingOnId,
        ∀ lastId ∈ (flow.mainInputIds ref).getLast?, dependingOnId = lastId ∧ lastId ≠ -1)) ↔
    Copyable installation flow ref := by
  simp only [Option.any_eq_true, decide_eq_true_eq]
  constructor
  · rintro ⟨ungrouped, configurable, room, listed, single, fed, ordered, defaultOutputs, current⟩
    exact ⟨ungrouped, configurable, room, listed, single, fed, ordered, defaultOutputs,
      fun setup _ _ named last => current setup _ named _ last⟩
  · rintro ⟨ungrouped, configurable, room, listed, single, fed, ordered, defaultOutputs, current⟩
    exact ⟨ungrouped, configurable, room, listed, single, fed, ordered, defaultOutputs,
      fun setup _ named _ last => current setup _ _ named last⟩

/-- Whether a node can be copied as it is, as a check. -/
instance decidableCopyable (installation : Installation Q) (flow : Flow Q) (ref : NodeRef) :
    Decidable (Copyable installation flow ref) :=
  decidable_of_iff _ (copyable_iff installation flow ref)

/-- The node types that come with the program, with adders that accept everything. -/
def standardInstallation : Installation Unit where
  toEnvironment := standardEnvironment
  refusal _ _ := none
  portOrder ports := ports
  portOrder_perm _ := List.Perm.refl _
  hashOfIds _ := 0

def configuredSetting (nodeId : Int) (dependingOnId : Option Int) :
    NodeSetting (Settings Unit) where
  payload := some ⟨nodeId, 1, none, ()⟩
  isSetup := true
  posX := 0
  posY := 0
  groupId := none
  description := ""
  nodeReference := none
  dependingOnId
  cacheResults := false
  isUserDefined := false

def splitEdits (handle : String) : List (Edit (Settings Unit)) :=
  [.addNodePromise 1 "manual_input" (nodePromise (configuredSetting 1 none)),
    .addSettings 1 "manual_input" (configuredSetting 1 none),
    .addNodePromise 2 "random_split" (nodePromise (configuredSetting 2 none)),
    .addSettings 2 "random_split" (configuredSetting 2 (some (-1))),
    .addNodePromise 3 "filter" (nodePromise (configuredSetting 3 none)),
    .addSettings 3 "filter" (configuredSetting 3 (some (-1))),
    .addConnection 1 "output-0" 2 0,
    .addConnection 2 handle 3 0]

def splitGraph (handle : String) : FlowGraph (Settings Unit) :=
  ((runEdits standardEnvironment 10 World.empty (splitEdits handle)).getD World.empty).graph

def firstPart (flowId : Int) : Flow Unit where
  flowId
  graph := splitGraph "output-0"
  distinct := by decide +kernel

def secondPart (flowId : Int) : Flow Unit where
  flowId
  graph := splitGraph "output-1"
  distinct := by decide +kernel

theorem combinable_of_ranked (flow : Flow Unit)
    (ranked : ∀ ref ∈ flow.graph.nodeDb, ∀ sourceId ∈ flow.inputIds ref,
      sourceId.toNat < ref.nodeId.toNat)
    (copyable : ∀ ref ∈ flow.graph.nodeDb, Copyable standardInstallation flow ref) :
    Combinable standardInstallation flow := by
  refine ⟨acyclic_of_rank Int.toNat ?_, copyable⟩
  rintro sourceId targetId ⟨ref, live, rfl, input⟩
  exact ranked ref live sourceId input

end Flowfile.CombinedGraphs
