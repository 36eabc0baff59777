import Flowfile.CombinedGraphs
import Flowfile.EdgeSymmetry

/-!
# Copied nodes

The mapping of ids gives consecutive numbers to the nodes of all flows, so it is one to one and
knows exactly these nodes. Copying a node creates an object without connections; its settings
are the mapped ones, or those of a promise when the type has no adder. After the last node the
graph has one such object for every node of every flow, and no group.
-/

namespace Flowfile.CombinedGraphs

open Function Flowfile.Graph Library.Dictionaries Library.FiniteDag Library.Numbering List
open World (forEach createNode addNodeStep addInPlace empty)

section

variable {P α : Type} (inv : List α → FlowGraph P → Prop) (all : List α)

theorem forEach_keeps {step : World P → α → Option (Outcome P)}
    (keeps : ∀ done value later, all = done ++ value :: later →
      ∀ world after, inv done world.graph → step world value = some (after, none) →
      inv (done ++ [value]) after.graph)
    {world after : World P} (start : inv [] world.graph)
    (ran : forEach step world all = some (after, none)) : inv all after.graph := by
  have along : ∀ later done world, all = done ++ later → inv done world.graph →
      forEach step world later = some (after, none) → inv all after.graph := by
    intro later
    induction later with
    | nil =>
      intro done world parts holds ran
      obtain ⟨rfl, -⟩ := Prod.mk.inj (Option.some.inj ran)
      rwa [parts, append_nil]
    | cons value later ih =>
      intro done world parts holds ran
      obtain ⟨⟨middle, failed⟩, stepped, continued⟩ := Option.bind_eq_some_iff.mp ran
      cases failed with
      | some failure => cases continued
      | none =>
        exact ih (done ++ [value]) middle (by simpa using parts)
          (keeps done value later parts world middle holds stepped) continued
  exact along all [] world rfl start ran

theorem forEach_succeeds {step : Nat → World P → α → Option (Outcome P)}
    (keeps : ∀ fuel done value later, all = done ++ value :: later →
      ∀ world after, inv done world.graph → step fuel world value = some (after, none) →
      inv (done ++ [value]) after.graph)
    (succeeds : ∀ done value later, all = done ++ value :: later → ∀ graph, inv done graph →
      ∃ final, Returns (fun fuel hashes => step fuel ⟨graph, hashes⟩ value) final none)
    {graph : FlowGraph P} (start : inv [] graph) :
    ∃ final, Returns (fun fuel hashes => forEach (step fuel) ⟨graph, hashes⟩ all) final
      none := by
  have along : ∀ later done graph, all = done ++ later → inv done graph → ∃ final,
      Returns (fun fuel hashes => forEach (step fuel) ⟨graph, hashes⟩ later) final none := by
    intro later
    induction later with
    | nil => exact fun done graph _ _ => ⟨graph, 0, fun fuel _ hashes => ⟨hashes, rfl⟩⟩
    | cons value later ih =>
      intro done graph parts holds
      obtain ⟨middle, steps⟩ := succeeds done value later parts graph holds
      obtain ⟨bound, enough⟩ := id steps
      obtain ⟨sample, stepped⟩ := enough bound (Nat.le_refl _) fun _ => none
      obtain ⟨final, goesOn⟩ := ih (done ++ [value]) middle (by simpa using parts)
        (keeps _ done value later parts ⟨graph, _⟩ ⟨middle, sample⟩ holds stepped)
      exact ⟨final, enough_then steps goesOn fun _ _ _ _ first rest => by
        simp only [forEach, first, Option.bind_eq_bind, Option.bind_some, rest]⟩
  exact along all [] graph rfl start

end

variable {Q : Type} {flows : List (Flow Q)} {flow other : Flow Q}

theorem nodup_keys (distinct : (flows.map Flow.flowId).Nodup) :
    (flows.flatMap Flow.keys).Nodup := by
  rw [nodup_flatMap]
  constructor
  · intro flow _
    refine (flow.distinct.of_map _).map_on ?_
    intro first firstLive second secondLive same
    exact inj_on_of_nodup_map flow.distinct firstLive secondLive (Prod.mk.inj same).2
  · refine (pairwise_map.mp distinct).imp fun {first second} apart => ?_
    intro key inFirst inSecond
    obtain ⟨_, _, rfl⟩ := mem_map.mp inFirst
    obtain ⟨_, _, same⟩ := mem_map.mp inSecond
    exact apart (Prod.mk.inj same).1.symm

theorem get_createNodeIdMapping (distinct : (flows.map Flow.flowId).Nodup) {key : Int × Int}
    {newId : Int} : (createNodeIdMapping flows).get key = some newId ↔
      (key, newId) ∈ numbered (nextAvailableNodeId flows) (flows.flatMap Flow.keys) := by
  have keyed : ((numbered (nextAvailableNodeId flows) (flows.flatMap Flow.keys)).map
      Prod.fst).Nodup := by
    rw [map_fst_numbered]
    exact nodup_keys distinct
  rw [createNodeIdMapping, Dictionary.get_setAll_entries ⟨_, keyed⟩, ← Dictionary.mem_entries_iff]

/-- What the rest of the development needs of a mapping: it is one to one, it knows the nodes of
the flows and no others, and no new id is the mark of a missing input. -/
structure Numbers (flows : List (Flow Q)) (mapping : IdMapping) : Prop where
  injective : ∀ first second newId, mapping.get first = some newId →
    mapping.get second = some newId → first = second
  known : ∀ flow ∈ flows, ∀ nodeId, (mapping.get (flow.flowId, nodeId)).isSome ↔
    flow.knows nodeId = true
  notMissing : ∀ key newId, mapping.get key = some newId → newId ≠ -1

theorem knows_iff {nodeId : Int} :
    flow.knows nodeId = true ↔ ∃ ref ∈ flow.graph.nodeDb, ref.nodeId = nodeId := by
  simp [Flow.knows, FlowGraph.getNode]

theorem numbers_createNodeIdMapping (distinct : (flows.map Flow.flowId).Nodup) :
    Numbers flows (createNodeIdMapping flows) := by
  constructor
  case injective =>
    intro first second newId firstFound secondFound
    exact eq_of_number ((get_createNodeIdMapping distinct).mp firstFound)
      ((get_createNodeIdMapping distinct).mp secondFound)
  case known =>
    intro flow listed nodeId
    rw [createNodeIdMapping, Dictionary.isSome_get_setAll, map_fst_numbered, knows_iff]
    simp only [Dictionary.get_empty, Option.isSome_none, Bool.false_eq_true, false_or,
      mem_flatMap, Flow.keys, mem_map, Prod.mk.injEq]
    constructor
    · rintro ⟨owner, ownerListed, ref, live, sameFlow, sameNode⟩
      obtain rfl := inj_on_of_nodup_map distinct ownerListed listed sameFlow
      exact ⟨ref, live, sameNode⟩
    · rintro ⟨ref, live, sameNode⟩
      exact ⟨flow, listed, ref, live, rfl, sameNode⟩
  case notMissing =>
    intro key newId found
    have above := start_le ((get_createNodeIdMapping distinct).mp found)
    have positive := le_foldl_max
      (flows.flatMap fun flow => flow.graph.nodeDb.map NodeRef.nodeId) 0
    rw [nextAvailableNodeId] at above
    omega

namespace Numbers

variable {mapping : IdMapping} (numbers : Numbers flows mapping)
include numbers

theorem exists_image (listed : flow ∈ flows) {ref : NodeRef} (live : ref ∈ flow.graph.nodeDb) :
    ∃ newId, mapping.get (flow.flowId, ref.nodeId) = some newId :=
  Option.isSome_iff_exists.mp
    ((numbers.known flow listed ref.nodeId).mpr (knows_iff.mpr ⟨ref, live, rfl⟩))

theorem eq_of_image {first second newId : Int}
    (firstFound : mapping.get (flow.flowId, first) = some newId)
    (secondFound : mapping.get (flow.flowId, second) = some newId) : first = second :=
  (Prod.mk.inj (numbers.injective _ _ _ firstFound secondFound)).2

theorem eq_iff_image {first second newId : Int}
    (found : mapping.get (flow.flowId, second) = some newId) :
    mapping.get (flow.flowId, first) = some newId ↔ first = second :=
  ⟨fun same => numbers.eq_of_image same found, fun same => same ▸ found⟩

theorem remapped_eq_image_iff {dependingOnId lastId newId : Int}
    (found : mapping.get (flow.flowId, lastId) = some newId) :
    remapped mapping flow.flowId dependingOnId = newId ↔ dependingOnId = lastId ∧ lastId ≠ -1 := by
  have notMissing := numbers.notMissing _ _ found
  rw [remapped]
  split
  case isTrue missing =>
    constructor
    · exact fun same => absurd same.symm notMissing
    · rintro ⟨same, apart⟩
      exact absurd (same.symm.trans missing) apart
  case isFalse present =>
    cases image : mapping.get (flow.flowId, dependingOnId) with
    | none =>
      constructor
      · exact fun same => absurd same.symm notMissing
      · rintro ⟨rfl, -⟩
        rw [image] at found
        cases found
    | some other =>
      rw [Option.getD_some]
      constructor
      · rintro rfl
        have same := numbers.eq_of_image image found
        exact ⟨same, same ▸ present⟩
      · rintro ⟨rfl, -⟩
        exact Option.some.inj (image.symm.trans found)

end Numbers

section

variable {P : Type}

/-- A node object without connections. -/
def freshNode (nodeType : String) (nodeTemplate : NodeTemplate) (setting : NodeSetting P) :
    FlowNode P :=
  { nodeType, nodeTemplate, setting, mainInputs := none, leftInput := none, rightInput := none,
    leadsToNodes := [], inputOutputHandles := fun _ => none }

/-- A graph with one object more. -/
structure Placed (graph after : FlowGraph P) (ref : NodeRef) (node : FlowNode P) : Prop where
  nodeDb : after.nodeDb = graph.nodeDb ++ [ref]
  heap : after.heap = update graph.heap ref node
  nextSerial : after.nextSerial = graph.nextSerial + 1
  groups : after.groups = graph.groups

theorem Placed.created {graph after : FlowGraph P} {nodeId : Int} {nodeType : String}
    {nodeTemplate : NodeTemplate} {setting : NodeSetting P}
    (placed : Placed graph after ⟨nodeId, graph.nextSerial⟩
      (freshNode nodeType nodeTemplate setting))
    (free : graph.getNode nodeId = none) : Created graph after ⟨nodeId, graph.nextSerial⟩ := by
  constructor
  case free => exact free
  case nodeDb => exact placed.nodeDb
  case serial => rfl
  case nextSerial => exact placed.nextSerial
  case others =>
    intro other different
    rw [placed.heap, update_of_ne different]
  case noLeads => rw [placed.heap, update_self, freshNode]
  case noInputs => simp [placed.heap, freshNode, FlowNode.allInputs]

variable [DecidableEq P] {environment : Environment P} {fuel : Nat} {graph : FlowGraph P}
  {hashes : Hashes P} {nodeId : Int} {nodeType : String} {nodeTemplate : NodeTemplate}
  {setting : NodeSetting P} {ref : NodeRef} {after : World P} {error : Option FlowError}

theorem createNode_spec (known : environment.template nodeType = some nodeTemplate)
    (returned : createNode environment fuel ⟨graph, hashes⟩ nodeId nodeType setting =
      some (after, error)) : error = none ∧
      Placed graph after.graph ⟨nodeId, graph.nextSerial⟩
        (freshNode nodeType nodeTemplate setting) := by
  simp only [createNode, known] at returned
  obtain ⟨reset, ran, joined⟩ := Option.bind_eq_some_iff.mp returned
  obtain ⟨rfl, rfl⟩ := Prod.mk.inj (Option.some.inj joined)
  have same := resetNode_graph ran
  dsimp only at same
  refine ⟨rfl, ?_⟩
  simp only [same]
  exact ⟨rfl, rfl, rfl, rfl⟩

theorem addNodeStep_spec (covered : Covered graph) (found : graph.getNode nodeId = some ref)
    (same : (graph.heap ref).nodeType = nodeType)
    (known : environment.template nodeType = some nodeTemplate) {initialised : Bool}
    (returned : addNodeStep environment fuel ⟨graph, hashes⟩ nodeId nodeType setting
      initialised = some (after, error)) : error = none ∧
      after.graph = graph.modifyNode ref fun node => { node with nodeTemplate, setting } := by
  obtain ⟨live, -⟩ := Covered.getNode_spec found
  simp only [addNodeStep, found, same, if_true, World.updateNode,
    addLead_fold covered ref live _ fun _ mem => mem, known] at returned
  obtain ⟨⟨hash, hashed⟩, _, continued⟩ := Option.bind_eq_some_iff.mp returned
  obtain ⟨reset, ran, joined⟩ := Option.bind_eq_some_iff.mp continued
  obtain ⟨rfl, rfl⟩ := Prod.mk.inj (Option.some.inj joined)
  exact ⟨rfl, resetNode_graph ran⟩

theorem addInPlace_spec (found : graph.getNode nodeId = some ref)
    (returned : addInPlace environment fuel ⟨graph, hashes⟩ nodeId nodeType setting =
      some (after, error)) : error = none ∧
      after.graph = graph.modifyNode ref fun node => { node with nodeType, setting } := by
  simp only [addInPlace, found] at returned
  obtain ⟨reset, ran, joined⟩ := Option.bind_eq_some_iff.mp returned
  obtain ⟨rfl, rfl⟩ := Prod.mk.inj (Option.some.inj joined)
  exact ⟨rfl, resetNode_graph ran⟩

/-- The settings of one object replaced, and perhaps the list of starting nodes. -/
structure Configured (graph after : FlowGraph P) (ref : NodeRef) (setting : NodeSetting P) :
    Prop where
  nodeDb : after.nodeDb = graph.nodeDb
  heap : after.heap = update graph.heap ref { graph.heap ref with setting }
  nextSerial : after.nextSerial = graph.nextSerial
  groups : after.groups = graph.groups

omit [DecidableEq P] in
theorem Configured.starting {middle : World P} {failed : Option FlowError} {outcome : Outcome P}
    (configured : Configured graph middle.graph ref setting) (starting : Bool)
    (finished : startingWhen starting nodeId (middle, failed) = outcome) :
    outcome.2 = failed ∧ Configured graph outcome.1.graph ref setting := by
  obtain ⟨sameError, _, flowStarts, sameGraph⟩ :=
    startingWhen_graph starting nodeId (middle, failed)
  subst finished
  exact ⟨sameError, by
    rw [sameGraph]
    exact ⟨configured.nodeDb, configured.heap, configured.nextSerial, configured.groups⟩⟩

omit [DecidableEq P] in
/-- Changing settings leaves the wiring alone. -/
theorem Configured.wiring (configured : Configured graph after.graph ref setting) :
    SameWiring graph after.graph := by
  have each : ∀ other, after.graph.heap other = graph.heap other ∨
      after.graph.heap other = { graph.heap other with setting } := by
    intro other
    rw [configured.heap]
    by_cases here : other = ref
    · exact .inr (by rw [here, update_self])
    · exact .inl (update_of_ne here _ _)
  refine ⟨configured.nodeDb, configured.nextSerial, ?_, ?_, ?_, ?_⟩ <;> intro other <;>
    rcases each other with same | same <;> rw [same]

theorem addSettings_spec (covered : Covered graph) (found : graph.getNode nodeId = some ref)
    (same : (graph.heap ref).nodeType = nodeType)
    (known : environment.template nodeType = some nodeTemplate)
    (fitting : (graph.heap ref).nodeTemplate = nodeTemplate)
    (installed : (environment.adder nodeType).isSome)
    (returned : World.addSettings environment fuel ⟨graph, hashes⟩ nodeId nodeType setting =
      some (after, error)) : error = none ∧ Configured graph after.graph ref setting := by
  have step : ∀ {graph : FlowGraph P} {hashes initialised after error}, Covered graph →
      graph.getNode nodeId = some ref → (graph.heap ref).nodeType = nodeType →
      (graph.heap ref).nodeTemplate = nodeTemplate →
      addNodeStep environment fuel ⟨graph, hashes⟩ nodeId nodeType setting initialised =
        some (after, error) → error = none ∧ Configured graph after.graph ref setting := by
    intro graph hashes initialised after error covered found same fitting returned
    obtain ⟨rfl, final⟩ := addNodeStep_spec covered found same known returned
    rw [final, ← fitting]
    exact ⟨rfl, rfl, rfl, rfl, rfl⟩
  have inPlace : ∀ {after error},
      addInPlace environment fuel ⟨graph, hashes⟩ nodeId nodeType setting =
        some (after, error) → error = none ∧ Configured graph after.graph ref setting := by
    intro after error returned
    obtain ⟨rfl, final⟩ := addInPlace_spec found returned
    rw [final, ← same]
    exact ⟨rfl, rfl, rfl, rfl, rfl⟩
  rw [World.addSettings] at returned
  split at returned
  case h_1 missing => simp [missing] at installed
  case h_2 initialised starting _ =>
    obtain ⟨⟨middle, failed⟩, added, finished⟩ := Option.map_eq_some_iff.mp returned
    obtain ⟨rfl, configured⟩ := step covered found same fitting added
    exact configured.starting starting finished
  case h_3 starting _ =>
    obtain ⟨⟨middle, failed⟩, added, finished⟩ := Option.map_eq_some_iff.mp returned
    obtain ⟨rfl, configured⟩ := inPlace added
    exact configured.starting starting finished
  case h_4 =>
    obtain ⟨⟨middle, failed⟩, placed, continued⟩ := Option.bind_eq_some_iff.mp returned
    obtain ⟨⟨first, firstFailed⟩, added, finished⟩ := Option.map_eq_some_iff.mp placed
    obtain ⟨rfl, configured⟩ := inPlace added
    obtain ⟨sameError, configured⟩ := configured.starting true finished
    dsimp only at sameError configured
    subst sameError
    obtain ⟨middleGraph, middleHashes⟩ := middle
    have still : middleGraph.getNode nodeId = some ref := by
      rw [FlowGraph.getNode, configured.nodeDb]
      exact found
    obtain ⟨rfl, final⟩ := step (configured.wiring.covered covered) still
      (by rw [configured.heap, update_self, same])
      (by rw [configured.heap, update_self, fitting]) continued
    refine ⟨rfl, final.nodeDb.trans configured.nodeDb, ?_,
      final.nextSerial.trans configured.nextSerial, final.groups.trans configured.groups⟩
    rw [final.heap, configured.heap, Function.update_idem, update_self]

end

section

variable (installation : Installation Q)

def settledSetting (nodeType : String) (setting : NodeSetting (Settings Q)) :
    NodeSetting (Settings Q) :=
  if (installation.adder nodeType).isNone then nodePromise setting else setting

def Accepts (nodeType : String) (setting : NodeSetting (Settings Q)) : Prop :=
  (installation.template nodeType).isSome ∧ ((installation.adder nodeType).isSome →
    installation.refusal nodeType (setting.payload.map Settings.fields) = none)

variable {installation} [DecidableEq Q] {graph : FlowGraph (Settings Q)}
  {hashes : Hashes (Settings Q)} {fuel : Nat} {nodeId : Int} {nodeType : String}
  {setting : NodeSetting (Settings Q)} {after : World (Settings Q)} {error : Option FlowError}

theorem addNodeToGraph_spec (covered : Covered graph) (free : graph.getNode nodeId = none)
    (returned : addNodeToGraph installation fuel ⟨graph, hashes⟩ nodeId nodeType setting =
      some (after, error)) :
    (error = none ↔ Accepts installation nodeType setting) ∧ (error = none →
      ∃ nodeTemplate, installation.template nodeType = some nodeTemplate ∧
        Placed graph after.graph ⟨nodeId, graph.nextSerial⟩
          (freshNode nodeType nodeTemplate (settledSetting installation nodeType setting))) := by
  obtain ⟨⟨middle, failed⟩, promised, continued⟩ := Option.bind_eq_some_iff.mp returned
  simp only [World.addNodePromise, addNodeStep, free, if_true] at promised
  cases known : installation.template nodeType with
  | none =>
    simp only [createNode, known, Option.some.injEq, Prod.mk.injEq] at promised
    obtain ⟨rfl, rfl⟩ := promised
    obtain ⟨rfl, rfl⟩ := Prod.mk.inj (Option.some.inj continued)
    simp [Accepts, known]
  | some nodeTemplate =>
  obtain ⟨rfl, placed⟩ := createNode_spec known promised
  dsimp only at continued
  cases adder : installation.adder nodeType with
  | none =>
    simp only [adder, Option.isNone_none, if_true] at continued
    obtain ⟨rfl, rfl⟩ := Prod.mk.inj (Option.some.inj continued)
    simp [Accepts, settledSetting, known, adder, placed]
  | some found =>
  simp only [adder, Option.isNone_some, Bool.false_eq_true, if_false] at continued
  cases refused : installation.refusal nodeType (setting.payload.map Settings.fields) with
  | some refusal =>
    simp only [refused] at continued
    obtain ⟨rfl, rfl⟩ := Prod.mk.inj (Option.some.inj continued)
    simp [Accepts, adder, refused]
  | none =>
  simp only [refused] at continued
  have created := placed.created free
  have there : middle.graph.getNode nodeId = some ⟨nodeId, graph.nextSerial⟩ := by
    rw [FlowGraph.getNode] at free ⊢
    simp [placed.nodeDb, List.find?_append, free]
  have here : middle.graph.heap ⟨nodeId, graph.nextSerial⟩ =
      freshNode nodeType nodeTemplate (nodePromise setting) := by
    rw [placed.heap, update_self]
  obtain ⟨rfl, configured⟩ := addSettings_spec (created.covered covered) there
    (by rw [here, freshNode]) known (by rw [here, freshNode]) (by simp [adder]) continued
  refine ⟨by simp [Accepts, known, refused], fun _ => ⟨nodeTemplate, rfl, ?_⟩⟩
  constructor
  case nodeDb => exact configured.nodeDb.trans placed.nodeDb
  case nextSerial => exact configured.nextSerial.trans placed.nextSerial
  case groups => exact configured.groups.trans placed.groups
  case heap =>
    rw [configured.heap, here, placed.heap, Function.update_idem, settledSetting, adder]
    rfl

variable (installation nodeType setting) in
theorem addNodeToGraph_returns (covered : Covered graph) (free : graph.getNode nodeId = none) :
    ∃ final error, Returns (fun fuel hashes =>
      addNodeToGraph installation fuel ⟨graph, hashes⟩ nodeId nodeType setting) final error := by
  obtain ⟨middle, failed, promises⟩ := addNodeStep_returns covered
    installation.toEnvironment nodeId nodeType (nodePromise setting) true
  have promise : ∀ {fuel hashes between},
      addNodeStep installation.toEnvironment fuel ⟨graph, hashes⟩ nodeId nodeType
        (nodePromise setting) true = some (⟨middle, between⟩, failed) →
      World.addNodePromise installation.toEnvironment fuel ⟨graph, hashes⟩ nodeId nodeType
        (nodePromise setting) = some (⟨middle, between⟩, failed) := fun ran => ran
  cases failed with
  | some failure =>
    exact ⟨middle, some failure, enough_of promises fun _ _ _ ran => by
      simp [addNodeToGraph, promise ran]⟩
  | none =>
  by_cases missing : (installation.adder nodeType).isNone
  · exact ⟨middle, none, enough_of promises fun _ _ _ ran => by
      simp [addNodeToGraph, promise ran, missing]⟩
  cases refused : installation.refusal nodeType (setting.payload.map Settings.fields) with
  | some refusal =>
    exact ⟨middle, some refusal, enough_of promises fun _ _ _ ran => by
      simp [addNodeToGraph, promise ran, missing, refused]⟩
  | none =>
  have stillCovered : Covered middle := by
    obtain ⟨bound, enough⟩ := id promises
    obtain ⟨sample, ran⟩ := enough bound (Nat.le_refl _) fun _ => none
    simp only [addNodeStep, free, if_true] at ran
    rcases createNode_cases free ran with same | created
    · obtain rfl : middle = graph := same
      exact covered
    · exact created.covered covered
  obtain ⟨final, error, adds⟩ := addSettings_returns stillCovered installation.toEnvironment
    nodeId nodeType setting
  exact ⟨final, error, enough_then promises adds fun _ _ _ _ first later => by
    simp [addNodeToGraph, promise first, missing, refused, later]⟩

end

def entries (flows : List (Flow Q)) : List (Flow Q × NodeRef) :=
  flows.flatMap fun flow => flow.graph.nodeDb.map (flow, ·)

theorem map_key_entries : (entries flows).map (fun entry => (entry.1.flowId, entry.2.nodeId)) =
      flows.flatMap Flow.keys := by
  simp only [entries, map_flatMap, map_map, comp_def]
  rfl

/-- Membership in the list of all nodes. -/
theorem mem_entries {ref : NodeRef} :
    (flow, ref) ∈ entries flows ↔ flow ∈ flows ∧ ref ∈ flow.graph.nodeDb := by
  simp only [entries, mem_flatMap, mem_map, Prod.mk.injEq]
  constructor
  · rintro ⟨_, listed, _, live, rfl, rfl⟩
    exact ⟨listed, live⟩
  · rintro ⟨listed, live⟩
    exact ⟨flow, listed, ref, live, rfl, rfl⟩

theorem unprocessed_eq (processed : List (Int × Int)) (nodes : List (Flow Q × NodeRef))
    (distinct : (nodes.map fun entry => (entry.1.flowId, entry.2.nodeId)).Nodup)
    (fresh : ∀ entry ∈ nodes, (entry.1.flowId, entry.2.nodeId) ∉ processed) :
    unprocessed processed nodes = nodes := by
  induction nodes generalizing processed with
  | nil => rfl
  | cons entry rest ih =>
    obtain ⟨flow, ref⟩ := entry
    rw [map_cons, nodup_cons] at distinct
    have here : processed.contains (flow.flowId, ref.nodeId) = false := by
      simpa using fresh (flow, ref) mem_cons_self
    rw [unprocessed, here, if_neg Bool.false_ne_true, ih _ distinct.2]
    intro entry mem
    rw [mem_cons, not_or]
    refine ⟨fun same => distinct.1 ?_, fresh entry (mem_cons_of_mem _ mem)⟩
    exact mem_map.mpr ⟨entry, mem, same⟩

def newId (mapping : IdMapping) (entry : Flow Q × NodeRef) : Option Int :=
  mapping.get (entry.1.flowId, entry.2.nodeId)

/-- The object that a node is copied to, before anything is connected. -/
def copiedNode (installation : Installation Q) (mapping : IdMapping) (targetFlowId : Int)
    (flow : Flow Q) (ref : NodeRef) (newNodeId : Int) (nodeTemplate : NodeTemplate) :
    FlowNode (Settings Q) :=
  freshNode (flow.graph.heap ref).nodeType nodeTemplate
    (settledSetting installation (flow.graph.heap ref).nodeType
      (updatedSettingInput (flow.graph.heap ref).setting newNodeId targetFlowId flow.flowId
        mapping))

structure Copies (installation : Installation Q) (mapping : IdMapping) (targetFlowId : Int)
    (done : List (Flow Q × NodeRef)) (graph : FlowGraph (Settings Q)) : Prop where
  covered : Covered graph
  nodeIds : graph.nodeDb.map (fun ref => some ref.nodeId) = done.map (newId mapping)
  accepted : ∀ entry ∈ done, Accepts installation (entry.1.graph.heap entry.2).nodeType
    (entry.1.graph.heap entry.2).setting
  objects : ∀ entry ∈ done, ∀ copy ∈ graph.nodeDb, newId mapping entry = some copy.nodeId →
    ∃ nodeTemplate,
      installation.template (entry.1.graph.heap entry.2).nodeType = some nodeTemplate ∧
      graph.heap copy = copiedNode installation mapping targetFlowId entry.1 entry.2 copy.nodeId
        nodeTemplate
  groups : graph.groups = []

section

variable [DecidableEq Q] {installation : Installation Q} {mapping : IdMapping} {targetFlowId : Int}
  {done later : List (Flow Q × NodeRef)} {graph : FlowGraph (Settings Q)} {newNodeId : Int}

omit [DecidableEq Q] in
theorem accepts_updated {nodeType : String} {setting : NodeSetting (Settings Q)} :
    Accepts installation nodeType
        (updatedSettingInput setting newNodeId targetFlowId flow.flowId mapping) ↔
      Accepts installation nodeType setting := by
  have fields : (updatedSettingInput setting newNodeId targetFlowId flow.flowId mapping).payload.map
      Settings.fields = setting.payload.map Settings.fields := by
    rw [updatedSettingInput, Option.map_map]
    rfl
  rw [Accepts, Accepts, fields]

variable {fuel : Nat} {after : World (Settings Q)}

section

variable {entry : Flow Q × NodeRef} (copies : Copies installation mapping targetFlowId done graph)
  (numbers : Numbers flows mapping) (distinct : (flows.map Flow.flowId).Nodup)
  (parts : entries flows = done ++ entry :: later)
include copies numbers distinct parts

omit [DecidableEq Q] in
theorem Copies.free
    (found : newId mapping entry = some newNodeId) : graph.getNode newNodeId = none := by
  rw [FlowGraph.getNode, List.find?_eq_none]
  intro ref live same
  have sameId : ref.nodeId = newNodeId := by simpa using same
  have taken : some newNodeId ∈ done.map (newId mapping) := by
    rw [← copies.nodeIds, ← sameId]
    exact mem_map.mpr ⟨ref, live, rfl⟩
  obtain ⟨earlier, mem, equal⟩ := mem_map.mp taken
  have sameKey := numbers.injective _ _ _ equal found
  have keys := nodup_keys distinct
  rw [← map_key_entries, parts, map_append, nodup_append] at keys
  exact keys.2.2 _ (mem_map.mpr ⟨earlier, mem, rfl⟩) _
    (mem_map.mpr ⟨entry, mem_cons_self, rfl⟩) sameKey

theorem Copies.step {hashes : Hashes (Settings Q)}
    (returned : copyNode installation mapping targetFlowId fuel ⟨graph, hashes⟩ entry =
      some (after, none)) :
    Copies installation mapping targetFlowId (done ++ [entry]) after.graph := by
  obtain ⟨flow, ref⟩ := entry
  obtain ⟨listed, live⟩ : flow ∈ flows ∧ ref ∈ flow.graph.nodeDb :=
    mem_entries.mp (by simp [parts])
  obtain ⟨newNodeId, found⟩ := numbers.exists_image listed live
  simp only [copyNode, found] at returned
  have free := copies.free numbers distinct parts found
  obtain ⟨accepted, placing⟩ := addNodeToGraph_spec copies.covered free returned
  obtain ⟨nodeTemplate, known, placed⟩ := placing rfl
  have created := placed.created free
  constructor
  case covered => exact created.covered copies.covered
  case nodeIds =>
    rw [placed.nodeDb, map_append, map_append, copies.nodeIds, map_singleton,
      map_singleton, newId, found]
  case accepted =>
    intro entry mem
    rcases mem_append.mp mem with earlier | last
    · exact copies.accepted entry earlier
    · obtain rfl := mem_singleton.mp last
      exact accepts_updated.mp (accepted.mp rfl)
  case objects =>
    intro entry mem copy copyLive image
    rcases (created.mem_iff copy).mp copyLive with old | rfl
    · have earlier : entry ∈ done := by
        refine (mem_append.mp mem).resolve_right fun last => ?_
        obtain rfl := mem_singleton.mp last
        cases found.symm.trans image
        exact created.nodeId_ne copy old rfl
      have different : copy ≠ ⟨newNodeId, graph.nextSerial⟩ := by
        rintro rfl
        exact created.not_mem old
      rw [placed.heap, update_of_ne different]
      exact copies.objects entry earlier copy old image
    · have last : entry = (flow, ref) := by
        refine mem_singleton.mp ((mem_append.mp mem).resolve_left fun earlier => ?_)
        have taken : some newNodeId ∈ graph.nodeDb.map fun ref => some ref.nodeId := by
          rw [copies.nodeIds]
          exact mem_map.mpr ⟨entry, earlier, image⟩
        obtain ⟨other, otherLive, same⟩ := mem_map.mp taken
        exact created.nodeId_ne other otherLive (Option.some.inj same)
      subst last
      refine ⟨nodeTemplate, known, ?_⟩
      rw [placed.heap, update_self]
      rfl
  case groups => exact placed.groups.trans copies.groups

end

omit [DecidableEq Q] in
theorem copies_empty :
    Copies installation mapping targetFlowId [] (empty : World (Settings Q)).graph := by
  constructor
  case covered => exact balanced_empty.toCovered
  case nodeIds => rfl
  case accepted => simp
  case objects => simp
  case groups => rfl

/-- After the last node, every node of every flow was copied. -/
theorem copies_of_ran (numbers : Numbers flows mapping) (distinct : (flows.map Flow.flowId).Nodup)
    (ran : addNodesToCombinedGraph installation mapping targetFlowId fuel flows empty =
      some (after, none)) :
    Copies installation mapping targetFlowId (entries flows) after.graph := by
  rw [addNodesToCombinedGraph, unprocessed_eq] at ran
  · refine forEach_keeps (Copies installation mapping targetFlowId) (entries flows)
      (fun done entry later parts world after copies stepped => ?_) copies_empty ran
    exact copies.step numbers distinct parts stepped
  · exact map_key_entries ▸ nodup_keys distinct
  · simp

variable (targetFlowId) in
theorem addNodes_succeeds (numbers : Numbers flows mapping)
    (distinct : (flows.map Flow.flowId).Nodup)
    (accepted : ∀ flow ∈ flows, ∀ ref ∈ flow.graph.nodeDb,
      Accepts installation (flow.graph.heap ref).nodeType (flow.graph.heap ref).setting) :
    ∃ final, Returns (fun fuel hashes => addNodesToCombinedGraph installation mapping targetFlowId
      fuel flows ⟨(empty : World (Settings Q)).graph, hashes⟩) final none := by
  have whole : unprocessed [] (entries flows) = entries flows :=
    unprocessed_eq [] _ (map_key_entries ▸ nodup_keys distinct) (by simp)
  rw [entries] at whole
  simp only [addNodesToCombinedGraph, whole]
  refine forEach_succeeds (Copies installation mapping targetFlowId) (entries flows)
    (fun fuel done entry later parts world after copies stepped =>
      copies.step numbers distinct parts stepped) ?_ copies_empty
  rintro done ⟨flow, ref⟩ later parts graph copies
  obtain ⟨listed, live⟩ : flow ∈ flows ∧ ref ∈ flow.graph.nodeDb :=
    mem_entries.mp (by simp [parts])
  obtain ⟨newNodeId, found⟩ := numbers.exists_image listed live
  have free := copies.free numbers distinct parts found
  simp only [copyNode, found]
  obtain ⟨final, error, returns⟩ := addNodeToGraph_returns installation
    (flow.graph.heap ref).nodeType (updatedSettingInput (flow.graph.heap ref).setting newNodeId
      targetFlowId flow.flowId mapping) copies.covered free
  obtain rfl : error = none := by
    obtain ⟨bound, enough⟩ := returns
    obtain ⟨sample, ran⟩ := enough bound (Nat.le_refl _) fun _ => none
    exact (addNodeToGraph_spec copies.covered free ran).1.mpr
      (accepts_updated.mpr (accepted flow listed ref live))
  exact ⟨final, returns⟩

end

end Flowfile.CombinedGraphs
