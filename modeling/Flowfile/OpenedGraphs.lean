import Flowfile.EditOutcomes
import Flowfile.FlowFile

/-!
# Opened graphs have no cycles

Opening a file connects nodes without a useful check for cycles. It resets both ends of
every connection, though, and a reset follows successors until hashes no longer change.
Around a cycle they change forever, so that no graph with a cycle is ever returned.

While a graph is rebuilt, no node is deleted and no input is entered without its successor. So a
reset that returns leaves every cached hash up to date, and a graph with all nodes settled has no
cycle. The file may list inputs and outputs that contradict each other.
-/

namespace Flowfile.Graph

open Library.FiniteDag List
open Option (map_eq_some_iff bind_eq_some_iff)

variable {P : Type} {data : List (NodeInformation P)} {stale : Option NodeRef}
  {world after : World P} {fuel : Nat} {error : Option FlowError} {ref : NodeRef}

/-- What holds of a graph while it is rebuilt from nothing. At most one object, named
here, has a cached hash that is out of date. -/
structure Rebuilding (data : List (NodeInformation P)) (stale : Option NodeRef)
    (world : World P) : Prop where
  typed : ∀ ref ∈ world.graph.nodeDb, ∀ node, findNode data ref.nodeId = some node →
    (world.graph.heap ref).nodeType = node.type
  listed : ∀ source target, source ∈ (world.graph.heap target).allInputs →
    target ∈ (world.graph.heap source).leadsToNodes
  owned : ∀ source target, source ∈ (world.graph.heap target).allInputs →
    target ∈ world.graph.nodeDb ∧ source.serial < world.graph.nextSerial
  fresh : ∀ ref ∈ world.graph.nodeDb, ref.serial < world.graph.nextSerial
  upToDate : ∀ ref, some ref ≠ stale → UpToDate world.graph world.hashes ref
  cached : ∀ ref ∈ world.graph.nodeDb, (world.hashes ref).isSome

variable {hashes : Hashes P}

theorem UpToDate.congr {graph other : FlowGraph P}
    (inputs : (other.heap ref).allInputs = (graph.heap ref).allInputs)
    (setting : (other.heap ref).setting = (graph.heap ref).setting)
    (upToDate : UpToDate graph hashes ref) : UpToDate other hashes ref := by
  simpa only [UpToDate, Settled, inputs, setting] using upToDate

namespace Rebuilding

theorem empty : Rebuilding data none (World.empty : World P) := by
  constructor
  case upToDate => exact fun ref _ => Or.inl rfl
  all_goals simp [World.empty, blankNode, FlowNode.allInputs]

variable {graph : FlowGraph P}

section

variable (rebuilding : Rebuilding data none world)
include rebuilding

/-- Some object may be out of date. -/
theorem weaken (stale : Option NodeRef) : Rebuilding data stale world :=
  { rebuilding with upToDate := fun ref _ => rebuilding.upToDate ref (by simp) }

theorem refresh (refreshes : Refreshes world.graph world.hashes hashes) :
    Rebuilding data none { world with hashes } :=
  { rebuilding with
    upToDate := fun ref _ => refreshes.upToDate ref (rebuilding.upToDate ref (by simp))
    cached := fun ref live => refreshes.cached ref (rebuilding.cached ref live) }

theorem regraph (nodeDb : graph.nodeDb = world.graph.nodeDb)
    (nextSerial : graph.nextSerial = world.graph.nextSerial)
    (inputs : ∀ ref, (graph.heap ref).allInputs = (world.graph.heap ref).allInputs)
    (settings : ∀ ref, (graph.heap ref).setting = (world.graph.heap ref).setting)
    (types : ∀ ref, (graph.heap ref).nodeType = (world.graph.heap ref).nodeType)
    (leads : ∀ ref, ∀ lead ∈ (world.graph.heap ref).leadsToNodes, lead ∈ world.graph.nodeDb →
      lead ∈ (graph.heap ref).leadsToNodes) :
    Rebuilding data none { world with graph } := by
  constructor
  case typed => simpa only [nodeDb, types] using rebuilding.typed
  case listed =>
    intro source target input
    have old := inputs target ▸ input
    exact leads source target (rebuilding.listed source target old)
      (rebuilding.owned source target old).1
  case owned => simpa only [nodeDb, nextSerial, inputs] using rebuilding.owned
  case fresh => simpa only [nodeDb, nextSerial] using rebuilding.fresh
  case upToDate =>
    intro ref _
    exact (rebuilding.upToDate ref (by simp)).congr (inputs ref) (settings ref)
  case cached => simpa only [nodeDb] using rebuilding.cached

/-- The list of starting nodes may change. -/
theorem starting (error : Option FlowError) (starting : Bool) (nodeId : Int) :
    Rebuilding data none (startingWhen starting nodeId (world, error)).1 := by
  obtain ⟨_, sameHashes, flowStarts, sameGraph⟩ :=
    startingWhen_graph starting nodeId (world, error)
  have same : (startingWhen starting nodeId (world, error)).1 =
      { world with graph := { world.graph with flowStarts } } := by
    rw [← sameGraph, ← sameHashes]
  rw [same]
  exact rebuilding.regraph rfl rfl (fun _ => rfl) (fun _ => rfl) (fun _ => rfl)
    fun _ _ listed _ => listed

theorem addLead (ref source : NodeRef) :
    Rebuilding data none { world with graph := world.graph.addLead ref source } := by
  have kept : ∀ other, ((world.graph.addLead ref source).heap other) = { world.graph.heap other with
        leadsToNodes := ((world.graph.addLead ref source).heap other).leadsToNodes } := by
    intro other
    by_cases same : other = source
    · subst same
      simp only [FlowGraph.addLead, modifyNode_heap_self]
      split <;> rfl
    · simp [FlowGraph.addLead, same]
  apply rebuilding.regraph
  case nodeDb | nextSerial => rfl
  case inputs => exact fun other => by rw [kept]; rfl
  case settings => exact fun other => by rw [kept]
  case types => exact fun other => by rw [kept]
  case leads =>
    intro other lead listed _
    by_cases same : other = source
    · subst same
      simp only [FlowGraph.addLead, modifyNode_heap_self]
      split
      · exact listed
      · simp [listed]
    · simpa [FlowGraph.addLead, same] using listed

/-- Successors may be added to several nodes. -/
theorem addLeads (ref : NodeRef) (sources : List NodeRef) : Rebuilding data none
      { world with graph := sources.foldl (FlowGraph.addLead · ref) world.graph } := by
  induction sources generalizing world with
  | nil => exact rebuilding
  | cons source rest ih =>
    exact ih (rebuilding.addLead ref source)

theorem deleteLead {nodeId : Int} (source : NodeRef) (missing : world.graph.getNode nodeId = none) :
    Rebuilding data none
      { world with graph := world.graph.deleteLeadToNode source nodeId } := by
  have kept : ∀ other, ((world.graph.deleteLeadToNode source nodeId).heap other) =
      { world.graph.heap other with leadsToNodes :=
        ((world.graph.deleteLeadToNode source nodeId).heap other).leadsToNodes } := by
    intro other
    by_cases same : other = source
    · subst same
      simp [FlowGraph.deleteLeadToNode]
    · simp [FlowGraph.deleteLeadToNode, same]
  apply rebuilding.regraph
  case nodeDb | nextSerial => rfl
  case inputs => exact fun other => by rw [kept]; rfl
  case settings => exact fun other => by rw [kept]
  case types => exact fun other => by rw [kept]
  case leads =>
    intro other lead listed live
    by_cases same : other = source
    · subst same
      have different := List.find?_eq_none.mp missing lead live
      simp only [FlowGraph.deleteLeadToNode, modifyNode_heap_self]
      exact (mem_eraseP_of_neg (p := fun lead => decide (lead.nodeId = nodeId))
        different).mpr listed
    · simpa [FlowGraph.deleteLeadToNode, same] using listed

theorem retouch (ref : NodeRef) (change : FlowNode P → FlowNode P)
    (typed : ∀ node, findNode data ref.nodeId = some node →
      (change (world.graph.heap ref)).nodeType = node.type)
    (inputs : (change (world.graph.heap ref)).allInputs = (world.graph.heap ref).allInputs)
    (leads : (change (world.graph.heap ref)).leadsToNodes = (world.graph.heap ref).leadsToNodes) :
    Rebuilding data (some ref) { world with graph := world.graph.modifyNode ref change } := by
  have sameInputs : ∀ other, ((world.graph.modifyNode ref change).heap other).allInputs =
      (world.graph.heap other).allInputs := by
    intro other
    by_cases same : other = ref
    · subst same
      simpa using inputs
    · simp [same]
  have sameLeads : ∀ other, ((world.graph.modifyNode ref change).heap other).leadsToNodes =
      (world.graph.heap other).leadsToNodes := by
    intro other
    by_cases same : other = ref
    · subst same
      simpa using leads
    · simp [same]
  constructor
  case typed =>
    intro other live node found
    by_cases same : other = ref
    · subst same
      simpa using typed node found
    · simpa [same] using rebuilding.typed other live node found
  case listed => simpa only [sameInputs, sameLeads] using rebuilding.listed
  case owned =>
    intro source target input
    exact rebuilding.owned source target (sameInputs target ▸ input)
  case fresh => exact rebuilding.fresh
  case upToDate =>
    intro other different
    have apart : other ≠ ref := fun same => different (congrArg some same)
    exact (rebuilding.upToDate other (by simp)).congr (sameInputs other) (by simp [apart])
  case cached => exact rebuilding.cached

end

/-- Connecting keeps the types of all nodes. -/
theorem connect_nodeType (graph : FlowGraph P) (target source ref : NodeRef) (port : InputPort)
    (handle : String) :
    ((graph.connect target source port handle).heap ref).nodeType = (graph.heap ref).nodeType := by
  have kept : ∀ node : FlowNode P, (node.connect source port handle).nodeType = node.nodeType := by
    intro node
    cases port <;> simp [FlowNode.connect, apply_ite]
  by_cases atTarget : ref = target
  · subst atTarget
    by_cases atSource : ref = source
    · subst atSource
      simp [FlowGraph.connect, kept]
    · simp [FlowGraph.connect, kept, atSource]
  · by_cases atSource : ref = source
    · subst atSource
      simp [FlowGraph.connect, atTarget]
    · simp [FlowGraph.connect, atTarget, atSource]

/-- Connecting keeps the settings of the other nodes. -/
theorem connect_setting_of_ne (graph : FlowGraph P) (target source ref : NodeRef)
    (port : InputPort) (handle : String) (different : ref ≠ target) :
    ((graph.connect target source port handle).heap ref).setting = (graph.heap ref).setting := by
  by_cases atSource : ref = source
  · subst atSource
    simp [FlowGraph.connect, different]
  · simp [FlowGraph.connect, different, atSource]

variable {port : InputPort} {handle : String}

theorem inputs_connect {target source first second : NodeRef}
    (input : first ∈ ((graph.connect target source port handle).heap second).allInputs) :
    first ∈ (graph.heap second).allInputs ∨ first = source ∧ second = target := by
  by_cases same : second = target
  · subst same
    have sameInputs : ((graph.modifyNode source fun node =>
        { node with leadsToNodes := node.leadsToNodes ++ [second] }).heap second).allInputs =
        (graph.heap second).allInputs := by
      by_cases loop : second = source
      · subst loop
        simp [FlowNode.allInputs]
      · simp [loop]
    have bounded := count_connect_le
      ((graph.modifyNode source fun node =>
        { node with leadsToNodes := node.leadsToNodes ++ [second] }).heap second)
      source first port handle
    have positive := count_pos_iff.mpr input
    simp only [FlowGraph.connect, modifyNode_heap_self] at positive
    rw [sameInputs] at bounded
    by_cases new : first = source
    · exact Or.inr ⟨new, rfl⟩
    · rw [if_neg new] at bounded
      exact Or.inl (count_pos_iff.mp (by omega))
  · rw [connect_inputs_of_ne graph target source second port handle same] at input
    exact Or.inl input

variable {environment : Environment P} {setting : NodeSetting P}

section

variable [DecidableEq P]

theorem resetNode (rebuilding : Rebuilding data (some ref) world)
    (returned : world.resetNode fuel ref = some after) :
    Rebuilding data none after ∧ (after.hashes ref).isSome ∧ after.graph = world.graph := by
  obtain ⟨hashes, ran, rfl⟩ := map_eq_some_iff.mp returned
  obtain ⟨refreshes, settled⟩ := reset_refreshes rebuilding.listed _ _ _ _ ran
  refine ⟨?_, ?_, rfl⟩
  · exact
      { rebuilding with
        upToDate := by
          intro other _
          by_cases same : other = ref
          · exact Or.inr (same ▸ settled)
          · exact refreshes.upToDate other (rebuilding.upToDate other (by simpa using same))
        cached := fun other live => refreshes.cached other (rebuilding.cached other live) }
  · obtain ⟨inputs, _, stored⟩ := settled
    simp [stored]

section

variable (rebuilding : Rebuilding data none world)
include rebuilding

theorem resetAgain
    (returned : world.resetNode fuel ref = some after) : Rebuilding data none after :=
  (resetNode (rebuilding.weaken (some ref)) returned).1

/-- Connecting two nodes. -/
theorem addNodeConnection {target source : NodeRef} (sourceLive : source ∈ world.graph.nodeDb)
    (targetLive : target ∈ world.graph.nodeDb)
    (returned : world.addNodeConnection fuel target source port handle = some after) :
    Rebuilding data none after := by
  obtain ⟨middle, first, second⟩ := bind_eq_some_iff.mp returned
  have connected : Rebuilding data (some target)
      { world with graph := world.graph.connect target source port handle } := by
    constructor
    case typed =>
      intro other live node found
      exact (connect_nodeType _ _ _ _ _ _).trans (rebuilding.typed other live node found)
    case listed =>
      intro first second input
      dsimp only
      rw [connect_leads]
      rcases inputs_connect input with old | ⟨rfl, rfl⟩
      · exact mem_append_left _ (rebuilding.listed first second old)
      · simp
    case owned =>
      intro first second input
      rcases inputs_connect input with old | ⟨rfl, rfl⟩
      · exact rebuilding.owned first second old
      · exact ⟨targetLive, rebuilding.fresh _ sourceLive⟩
    case fresh => exact rebuilding.fresh
    case upToDate =>
      intro other different
      have apart : other ≠ target := fun same => different (congrArg some same)
      apply (rebuilding.upToDate other (by simp)).congr
      · exact connect_inputs_of_ne _ _ _ _ _ _ apart
      · exact connect_setting_of_ne _ _ _ _ _ _ apart
    case cached => exact rebuilding.cached
  exact (connected.resetNode first).1.resetAgain second

omit [DecidableEq P] in
theorem enter (own : (world.hashes ref).isSome) (old : ref.serial < world.graph.nextSerial)
    (typed : ∀ node, findNode data ref.nodeId = some node →
      (world.graph.heap ref).nodeType = node.type) :
    Rebuilding data none
      { world with graph := { world.graph with nodeDb := world.graph.nodeDb ++ [ref] } } := by
  constructor
  case typed =>
    intro other mem node found
    rcases mem_append.mp mem with live | new
    · exact rebuilding.typed other live node found
    · obtain rfl := mem_singleton.mp new
      exact typed node found
  case listed => exact rebuilding.listed
  case owned =>
    intro source target input
    obtain ⟨live, sourceOld⟩ := rebuilding.owned source target input
    exact ⟨mem_append_left _ live, sourceOld⟩
  case fresh =>
    intro other mem
    rcases mem_append.mp mem with live | new
    · exact rebuilding.fresh other live
    · obtain rfl := mem_singleton.mp new
      exact old
  case upToDate => exact fun other _ => (rebuilding.upToDate other (by simp)).congr rfl rfl
  case cached =>
    intro other mem
    rcases mem_append.mp mem with live | new
    · exact rebuilding.cached other live
    · obtain rfl := mem_singleton.mp new
      exact own

theorem createNode
    {nodeId : Int} {nodeType : String}
    (free : world.graph.getNode nodeId = none)
    (typed : ∀ node, findNode data nodeId = some node → nodeType = node.type)
    (returned : world.createNode environment fuel nodeId nodeType setting =
      some (after, error)) : Rebuilding data none after := by
  rw [World.createNode] at returned
  split at returned
  case h_1 =>
    cases returned
    exact rebuilding
  case h_2 nodeTemplate known =>
    obtain ⟨reset, ran, ⟨⟩⟩ := bind_eq_some_iff.mp returned
    have absent : (⟨nodeId, world.graph.nextSerial⟩ : NodeRef) ∉ world.graph.nodeDb := by
      intro live
      simpa using List.find?_eq_none.mp free _ live
    have unused : ∀ target, (⟨nodeId, world.graph.nextSerial⟩ : NodeRef) ∉
        (world.graph.heap target).allInputs := by
      intro target input
      exact absurd (rebuilding.owned _ target input).2 (Nat.lt_irrefl _)
    have apart : ∀ other ∈ world.graph.nodeDb,
        other ≠ (⟨nodeId, world.graph.nextSerial⟩ : NodeRef) :=
      fun other live same => absent (same ▸ live)
    have entering : Rebuilding data (some ⟨nodeId, world.graph.nextSerial⟩)
        (⟨{ world.graph with
            heap := Function.update world.graph.heap ⟨nodeId, world.graph.nextSerial⟩
              { nodeType, nodeTemplate, setting, mainInputs := none, leftInput := none,
                rightInput := none, leadsToNodes := [], inputOutputHandles := fun _ => none }
            nextSerial := world.graph.nextSerial + 1 },
          Function.update world.hashes ⟨nodeId, world.graph.nextSerial⟩ none⟩ : World P) := by
      constructor
      case typed =>
        intro other live node found
        simpa [apart other live] using rebuilding.typed other live node found
      case listed =>
        intro source target input
        have different : target ≠ ⟨nodeId, world.graph.nextSerial⟩ := by
          rintro rfl
          simp [FlowNode.allInputs] at input
        simp only [Function.update_of_ne different] at input
        have sourceApart : source ≠ ⟨nodeId, world.graph.nextSerial⟩ :=
          fun same => unused target (same ▸ input)
        simpa [sourceApart] using rebuilding.listed source target input
      case owned =>
        intro source target input
        have different : target ≠ ⟨nodeId, world.graph.nextSerial⟩ := by
          rintro rfl
          simp [FlowNode.allInputs] at input
        simp only [Function.update_of_ne different] at input
        obtain ⟨live, old⟩ := rebuilding.owned source target input
        exact ⟨live, Nat.lt_succ_of_lt old⟩
      case fresh => exact fun other live => Nat.lt_succ_of_lt (rebuilding.fresh other live)
      case upToDate =>
        intro other different
        have otherApart : other ≠ ⟨nodeId, world.graph.nextSerial⟩ :=
          fun same => different (congrArg some same)
        apply (upToDate_clear (rebuilding.upToDate other (by simp)) (unused other)).congr
        · simp [otherApart]
        · simp [otherApart]
      case cached =>
        intro other live
        simpa [apart other live] using rebuilding.cached other live
    obtain ⟨entered, own, same⟩ := entering.resetNode ran
    apply entered.enter own
    · simp only [same]
      exact Nat.lt_succ_self _
    · intro node found
      simpa [same] using typed node found

/-- Giving a node of the graph new settings. -/
theorem updateNode (live : ref ∈ world.graph.nodeDb)
    (returned : world.updateNode environment fuel ref setting = some (after, error)) :
    Rebuilding data none after := by
  obtain ⟨⟨hash, hashed⟩, filled, continued⟩ := bind_eq_some_iff.mp returned
  have listed := rebuilding.addLeads ref (world.graph.heap ref).allInputs
  have ready := listed.refresh (nodeHash_fills _ _ _ _ _ filled).1.refreshes
  dsimp only at continued
  split at continued
  case h_1 =>
    cases continued
    exact ready
  case h_2 nodeTemplate known =>
    obtain ⟨reset, ran, ⟨⟩⟩ := bind_eq_some_iff.mp continued
    have sameTable : ∀ (sources : List NodeRef) (graph : FlowGraph P),
        (sources.foldl (FlowGraph.addLead · ref) graph).nodeDb = graph.nodeDb := by
      intro sources
      induction sources with
      | nil => exact fun _ => rfl
      | cons source rest ih =>
        exact fun graph => ih (graph.addLead ref source)
    have stillLive := sameTable (world.graph.heap ref).allInputs world.graph ▸ live
    have changed := ready.retouch ref (fun node => { node with nodeTemplate, setting })
      (ready.typed ref stillLive) rfl rfl
    exact (changed.resetNode ran).1

end

section

variable {nodeId : Int} {nodeType : String} {node : NodeInformation P}
  (rebuilding : Rebuilding data none world) (found : findNode data nodeId = some node)
  (typed : nodeType = node.type)
include rebuilding found typed

theorem addNodeStep {initialised : Bool}
    (returned : world.addNodeStep environment fuel nodeId nodeType setting initialised =
      some (after, error)) : Rebuilding data none after := by
  rw [World.addNodeStep] at returned
  split at returned
  case h_1 missing =>
    split at returned
    case isTrue =>
      apply rebuilding.createNode missing _ returned
      intro other otherFound
      rw [found, Option.some.injEq] at otherFound
      exact otherFound ▸ typed
    case isFalse =>
      cases returned
      exact rebuilding
  case h_2 ref known =>
    obtain ⟨live, rfl⟩ := Covered.getNode_spec known
    split at returned
    case isTrue => exact rebuilding.updateNode live returned
    case isFalse different =>
      exact absurd ((rebuilding.typed ref live node found).trans typed.symm) different

theorem addInPlace
    (returned : world.addInPlace environment fuel nodeId nodeType setting =
      some (after, error)) : Rebuilding data none after := by
  have given : ∀ other, findNode data nodeId = some other → nodeType = other.type := by
    intro other otherFound
    rw [found, Option.some.injEq] at otherFound
    exact otherFound ▸ typed
  rw [World.addInPlace] at returned
  split at returned
  case h_1 missing => exact rebuilding.createNode missing given returned
  case h_2 ref known =>
    obtain ⟨live, rfl⟩ := Covered.getNode_spec known
    obtain ⟨reset, ran, ⟨⟩⟩ := bind_eq_some_iff.mp returned
    have changed := rebuilding.retouch ref (fun node => { node with nodeType, setting })
      given rfl rfl
    exact (changed.resetNode ran).1

/-- Configuring a node of the file. -/
theorem addSettings
    (returned : world.addSettings environment fuel nodeId nodeType setting =
      some (after, error)) : Rebuilding data none after := by
  rw [World.addSettings] at returned
  split at returned
  case h_1 =>
    cases returned
    exact rebuilding
  case h_2 initialised starting known =>
    obtain ⟨⟨middle, failed⟩, added, finished⟩ := map_eq_some_iff.mp returned
    have still := (rebuilding.addNodeStep found typed added).starting failed starting
      nodeId
    rwa [finished] at still
  case h_3 starting known =>
    obtain ⟨⟨middle, failed⟩, added, finished⟩ := map_eq_some_iff.mp returned
    have still := (rebuilding.addInPlace found typed added).starting failed starting
      nodeId
    rwa [finished] at still
  case h_4 known =>
    obtain ⟨⟨middle, failed⟩, placed, continued⟩ := bind_eq_some_iff.mp returned
    obtain ⟨⟨first, firstFailed⟩, added, finished⟩ := map_eq_some_iff.mp placed
    have still := (rebuilding.addInPlace found typed added).starting firstFailed true
      nodeId
    rw [finished] at still
    cases failed with
    | some failure =>
      cases continued
      exact still
    | none => exact still.addNodeStep found typed continued

end

omit [DecidableEq P] in
/-- A step carried out for every element. -/
theorem forEach {α : Type} {step : World P → α → Option (Outcome P)}
    (each : ∀ world value after error, Rebuilding data none world →
      step world value = some (after, error) → Rebuilding data none after)
    (values : List α) (rebuilding : Rebuilding data none world)
    (returned : World.forEach step world values = some (after, error)) :
    Rebuilding data none after := by
  induction values generalizing world with
  | nil =>
    simp only [World.forEach, Option.some.injEq, Prod.mk.injEq] at returned
    exact returned.1 ▸ rebuilding
  | cons value rest ih =>
    obtain ⟨⟨middle, failed⟩, first, continued⟩ := bind_eq_some_iff.mp returned
    have still := each world value middle failed rebuilding first
    cases failed with
    | some failure =>
      cases continued
      exact still
    | none => exact ih still continued

end

end Rebuilding

theorem findNode_own {nodeId : Int} {node : NodeInformation P}
    (found : findNode data nodeId = some node) : findNode data node.id = some node := by
  have same : node.id = nodeId := by simpa using List.find?_some found
  rw [same, found]

namespace Rebuilding

variable [DecidableEq P] {environment : Environment P}

section

variable (rebuilding : Rebuilding data none world)
include rebuilding

theorem insertPromise {nodeId : Int}
    (returned : world.insertPromise environment fuel data nodeId = some (after, error)) :
    Rebuilding data none after := by
  rw [World.insertPromise] at returned
  split at returned
  case h_1 =>
    cases returned
    exact rebuilding
  case h_2 node found => exact rebuilding.addNodeStep (findNode_own found) rfl returned

theorem openConnection {node : NodeInformation P} {output : Int × Nat}
    (returned : world.openConnection fuel data node output = some (after, error)) :
    Rebuilding data none after := by
  rw [World.openConnection] at returned
  split at returned
  case h_1 source target sourceFound targetFound =>
    split at returned
    case h_1 =>
      cases returned
      exact rebuilding
    case h_2 targetNode found =>
      split at returned
      case h_1 =>
        cases returned
        exact rebuilding
      case h_2 port typed =>
        obtain ⟨connected, ran, joined⟩ := map_eq_some_iff.mp returned
        simp only [Prod.mk.injEq] at joined
        obtain ⟨rfl, rfl⟩ := joined
        exact rebuilding.addNodeConnection (Covered.getNode_spec sourceFound).1
          (Covered.getNode_spec targetFound).1 ran
  case h_2 source sourceFound missing =>
    cases returned
    exact rebuilding.deleteLead source missing
  case h_3 =>
    cases returned
    exact rebuilding

/-- Configuring and connecting a node of the file. -/
theorem openNode {nodeId : Int}
    (returned : world.openNode environment fuel data nodeId = some (after, error)) :
    Rebuilding data none after := by
  have connect : ∀ (node : NodeInformation P) (world : World P), Rebuilding data none world →
      World.forEach (World.openConnection fuel data node) world node.outputs.zipIdx =
        some (after, error) → Rebuilding data none after :=
    fun node world rebuilding => forEach
      (fun _ _ _ _ rebuilding => rebuilding.openConnection) _ rebuilding
  rw [World.openNode] at returned
  split at returned
  case h_1 =>
    cases returned
    exact rebuilding
  case h_2 node found =>
    dsimp only at returned
    split at returned
    case h_1 => exact connect node world rebuilding returned
    case h_2 setting stored =>
      split at returned
      case isTrue =>
        cases returned
        exact rebuilding
      case isFalse =>
        obtain ⟨⟨middle, failed⟩, added, continued⟩ := bind_eq_some_iff.mp returned
        have still := rebuilding.addSettings (findNode_own found) rfl added
        cases failed with
        | some failure =>
          cases continued
          exact still
        | none => exact connect node middle still continued

theorem addMissingConnection {connection : Int × Int}
    (returned : world.addMissingConnection fuel connection = some (after, error)) :
    Rebuilding data none after := by
  rw [World.addMissingConnection] at returned
  split at returned
  case h_1 =>
    cases returned
    exact rebuilding
  case h_2 target targetFound =>
    split at returned
    case isTrue =>
      obtain ⟨_, _, continued⟩ := bind_eq_some_iff.mp returned
      split at continued
      case h_1 =>
        cases continued
        exact rebuilding
      case h_2 source sourceFound =>
        obtain ⟨connected, ran, joined⟩ := map_eq_some_iff.mp continued
        simp only [Prod.mk.injEq] at joined
        obtain ⟨rfl, rfl⟩ := joined
        exact rebuilding.addNodeConnection (Covered.getNode_spec sourceFound).1
          (Covered.getNode_spec targetFound).1 ran
    case isFalse =>
      cases returned
      exact rebuilding

omit [DecidableEq P] in
/-- A graph whose hashes are all up to date has no cycle. -/
theorem acyclic : Acyclic world.graph.feeds := by
  apply acyclic_of_settled world.hashes
  intro ref live
  cases rebuilding.upToDate ref (by simp) with
  | inl missing =>
    have cached := rebuilding.cached ref live
    simp [missing] at cached
  | inr settled => exact settled

end

end Rebuilding

theorem SameWiring.feeds {graph other : FlowGraph P} (same : SameWiring graph other) :
    other.feeds = graph.feeds := by
  funext source target
  simp only [FlowGraph.feeds, same.nodeDb, same.allInputs]

theorem openFlow_acyclic [DecidableEq P] {environment : Environment P}
    {information : FlowInformation P}
    (returned : openFlow environment fuel information = some (after, error)) :
    Acyclic after.graph.feeds := by
  obtain ⟨⟨data, order⟩, _, continued⟩ := bind_eq_some_iff.mp returned
  obtain ⟨⟨promised, failed⟩, promising, continued⟩ := bind_eq_some_iff.mp continued
  have first : Rebuilding data none promised := Rebuilding.forEach
    (fun _ _ _ _ rebuilding => rebuilding.insertPromise) _ Rebuilding.empty promising
  dsimp only at continued
  split at continued
  case isTrue =>
    cases continued
    exact first.acyclic
  case isFalse =>
    obtain ⟨⟨connected, failed⟩, connecting, continued⟩ := bind_eq_some_iff.mp continued
    have second : Rebuilding data none connected := Rebuilding.forEach
      (fun _ _ _ _ rebuilding => rebuilding.openNode) _ first connecting
    dsimp only at continued
    split at continued
    case isTrue =>
      cases continued
      exact second.acyclic
    case isFalse =>
      obtain ⟨⟨completed, failed⟩, completing, continued⟩ := bind_eq_some_iff.mp continued
      have third : Rebuilding data none completed := Rebuilding.forEach
        (fun _ _ _ _ rebuilding => rebuilding.addMissingConnection) _ second completing
      dsimp only at continued
      split at continued
      case isTrue =>
        cases continued
        exact third.acyclic
      case isFalse =>
        cases continued
        rw [(SameWiring.restoreGroups _ _).feeds]
        exact third.acyclic

end Flowfile.Graph
