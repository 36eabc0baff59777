import Flowfile.WiringEdits

/-!
# What each operation can do to a graph

For every operation on the graph there is one statement about the outcomes it can
have, in terms of the wiring: nothing changed, a connection was entered or removed,
a node was detached, deleted or created. Hashes do not appear in these statements.
They hold in covered wirings, where ids and references match.

The second half says that the operations return. From some fuel on, which depends on
the graph alone, each ends with one graph and one exception, whatever hashes are cached.
-/

namespace Flowfile.Graph

open Library.FiniteDag Library.PartialLists
open Covered (getNode_spec)
open World (deleteInputNode createNode updateNode addInPlace addNodeStep perform resetNode)
open FlowNode (inputConnectionExists allInputs withoutInput)
open Option (bind_eq_some_iff map_eq_some_iff)
open SameWiring (refl modifyNode)

variable {P : Type} {graph : FlowGraph P}

variable {port : InputPort}

theorem connectionType_cases {connectionClass : Fin 10}
    (typed : nodeInputConnectionType connectionClass = .ok port) :
    (connectionClass = 0 ∧ port = .main) ∨ (connectionClass = 1 ∧ port = .right) ∨
      (connectionClass = 2 ∧ port = .left) := by
  rw [nodeInputConnectionType] at typed
  split at typed
  case isTrue main => exact Or.inl ⟨main, (Except.ok.inj typed).symm⟩
  case isFalse =>
    split at typed
    case isTrue right => exact Or.inr (Or.inl ⟨right, (Except.ok.inj typed).symm⟩)
    case isFalse =>
      split at typed
      case isTrue left => exact Or.inr (Or.inr ⟨left, (Except.ok.inj typed).symm⟩)
      case isFalse => cases typed

theorem feeds_of_exists (covered : Covered graph) {source target : NodeRef}
    (sourceLive : source ∈ graph.nodeDb) (targetLive : target ∈ graph.nodeDb)
    (connected : (graph.heap target).inputConnectionExists source.nodeId port = .ok true) :
    (port = .main → source ∈ (graph.heap target).mainInputs.getD []) ∧
      (port = .right → (graph.heap target).rightInput = some source) ∧
      (port = .left → (graph.heap target).leftInput = some source) := by
  have own : ∀ ref ∈ (graph.heap target).allInputs, ref.nodeId = source.nodeId → ref = source :=
    fun ref input same =>
      covered.eq_of_nodeId (covered.inputsLive ref target ⟨targetLive, input⟩) sourceLive same
  refine ⟨?_, ?_, ?_⟩
  · rintro rfl
    simp only [inputConnectionExists, Except.ok.injEq, List.any_eq_true,
      decide_eq_true_eq] at connected
    obtain ⟨ref, mem, same⟩ := connected
    have equal := own ref (by simp [allInputs, mem]) same
    exact equal ▸ mem
  · rintro rfl
    cases stored : (graph.heap target).rightInput with
    | none => simp [inputConnectionExists, stored] at connected
    | some ref =>
      simp only [inputConnectionExists, stored, Except.ok.injEq, decide_eq_true_eq] at connected
      rw [own ref (by simp [allInputs, stored]) connected]
  · rintro rfl
    cases stored : (graph.heap target).leftInput with
    | none => simp [inputConnectionExists, stored] at connected
    | some ref =>
      simp only [inputConnectionExists, stored, Option.any_some, Except.ok.injEq,
        decide_eq_true_eq] at connected
      rw [own ref (by simp [allInputs, stored]) connected]

section

variable {node : FlowNode P} {source : NodeRef} {nodeId : Int} {complete : Bool}

theorem withoutInput_main {inputs : List NodeRef} (stored : node.mainInputs = some inputs)
    (present : ∃ ref ∈ inputs, ref.nodeId = nodeId) :
    node.withoutInput nodeId 0 complete = .ok (some (node.popMain nodeId inputs)) := by
  have found : (inputs.any fun input => input.nodeId = nodeId) = true := by simpa using present
  simp only [withoutInput, stored, found, if_true]
  rfl

theorem withoutInput_right (stored : node.rightInput = some source) (own : source.nodeId = nodeId) :
    node.withoutInput nodeId 1 complete = .ok (some (node.clearRight nodeId)) := by
  simp [withoutInput, FlowNode.clearRight, stored, own]

theorem withoutInput_left {left : NodeRef} (leftStored : node.leftInput = some left)
    (stored : node.rightInput = some source) (own : source.nodeId = nodeId) :
    node.withoutInput nodeId 2 false = .ok (some (node.clearLeft nodeId)) := by
  simp [withoutInput, FlowNode.clearLeft, leftStored, stored, own]

theorem withoutInput_left_kept
    (apart : ∀ right, node.rightInput = some right → right.nodeId ≠ nodeId) (after : FlowNode P) :
    node.withoutInput nodeId 2 false ≠ .ok (some after) := by
  intro removed
  rcases withoutInput_cases _ _ _ _ _ removed with
    ⟨impossible, _⟩ | ⟨_, ⟨right, stored, own⟩, _⟩ | ⟨_, _, ⟨right, stored, own⟩, _⟩
  · exact absurd impossible (by decide)
  · exact apart right stored own
  · exact apart right stored own

end

/-- Entering a node into the starting list changes nothing else. -/
theorem startingWhen_graph (starting : Bool) (nodeId : Int) (outcome : Outcome P) :
    (startingWhen starting nodeId outcome).2 = outcome.2 ∧
      (startingWhen starting nodeId outcome).1.hashes = outcome.1.hashes ∧
      ∃ flowStarts, (startingWhen starting nodeId outcome).1.graph =
        { outcome.1.graph with flowStarts } := by
  obtain ⟨world, error⟩ := outcome
  cases error with
  | some error => exact ⟨rfl, rfl, _, rfl⟩
  | none =>
  cases starting with
  | false => exact ⟨rfl, rfl, _, rfl⟩
  | true =>
  refine ⟨rfl, rfl, ?_⟩
  simp only [startingWhen, if_true, FlowGraph.addNodeToStartingList]
  split
  · exact ⟨_, rfl⟩
  · split
    · exact ⟨_, rfl⟩
    · exact ⟨_, rfl⟩

theorem startingWhen_wiring (starting : Bool) (nodeId : Int) (outcome : Outcome P) :
    SameWiring outcome.1.graph (startingWhen starting nodeId outcome).1.graph := by
  obtain ⟨_, _, flowStarts, same⟩ := startingWhen_graph starting nodeId outcome
  rw [same]
  exact ⟨rfl, rfl, fun _ => rfl, fun _ => rfl, fun _ => rfl, fun _ => rfl⟩

variable {ref : NodeRef}

/-- A node that was dropped is not found any more. -/
theorem getNode_dropNode {middle after : FlowGraph P}
    (same : SameWiring (middle.dropNode ref ref.nodeId) after) :
    after.getNode ref.nodeId = none := by
  rw [FlowGraph.getNode, same.nodeDb]
  simp [FlowGraph.dropNode]

/-- A group operation leaves the wiring alone. -/
theorem onGroup_wiring (world : World P) (groupId : Int) (change : FlowGraph P → FlowGraph P)
    (same : ∀ graph, SameWiring graph (change graph)) :
    SameWiring world.graph (world.onGroup groupId change).1.graph := by
  rw [World.onGroup]
  split
  · exact refl _
  · exact same _

/-- A property of wirings that covers them, and that operations on nodes keep which
leave the wiring alone or create a node. -/
structure KeptByNodes (holds : FlowGraph P → Prop) : Prop where
  covered : ∀ graph, holds graph → Covered graph
  same : ∀ graph after, SameWiring graph after → holds graph → holds after
  created : ∀ graph after ref, Created graph after ref → holds graph → holds after

/-- Being covered is such a property. -/
theorem covered_keptByNodes : KeptByNodes (P := P) Covered :=
  ⟨fun _ covered => covered, fun _ _ same => same.covered, fun _ _ _ created => created.covered⟩

/-- Being balanced is such a property. -/
theorem balanced_keptByNodes : KeptByNodes (P := P) Balanced :=
  ⟨fun _ balanced => balanced.toCovered, fun _ _ same => same.balanced,
    fun _ _ _ created => created.balanced⟩

variable [DecidableEq P] {hashes : Hashes P} {fuel : Nat} {after : World P}
  {error : Option FlowError} {fromId toId : Int} {handle : String}

theorem addConnection_cases (covered : Covered graph)
    {connectionClass : Fin 10}
    (returned : World.addConnection fuel ⟨graph, hashes⟩ fromId handle toId connectionClass =
      some (after, error)) :
    (error.isSome ∧ after.graph = graph) ∨ ∃ source target port,
      graph.getNode fromId = some source ∧ graph.getNode toId = some target ∧
      nodeInputConnectionType connectionClass = .ok port ∧
      (graph.heap target).nodeTemplate.input ≠ 0 ∧
      ¬ Relation.ReflTransGen graph.leads target source ∧
      after.graph = graph.connect target source port handle := by
  rw [World.addConnection] at returned
  split at returned
  case h_1 source target fromFound toFound =>
    obtain ⟨verdict, validated, continued⟩ := bind_eq_some_iff.mp returned
    cases verdict with
    | some refusal =>
      cases continued
      exact Or.inl ⟨rfl, rfl⟩
    | none =>
    cases typed : nodeInputConnectionType connectionClass with
    | error failure =>
      simp only [typed, Option.some.injEq, Prod.mk.injEq] at continued
      exact Or.inl ⟨by simp [← continued.2], (congrArg World.graph continued.1).symm⟩
    | ok port =>
    simp only [typed] at continued
    obtain ⟨connected, ran, joined⟩ := bind_eq_some_iff.mp continued
    obtain ⟨middle, first, second⟩ := bind_eq_some_iff.mp ran
    cases joined
    simp only [validateConnection] at validated
    split at validated
    case isTrue => simp at validated
    case isFalse takesInput =>
      obtain ⟨cyclic, searched, verdict⟩ := map_eq_some_iff.mp validated
      have noCycle : cyclic = false := by
        cases cyclic with
        | false => rfl
        | true => simp at verdict
      subst noCycle
      refine Or.inr ⟨source, target, port, fromFound, toFound, rfl, takesInput, ?_, ?_⟩
      · exact not_reachable_of_no_cycle covered fuel source target
          (getNode_spec toFound).1 searched
      · exact (resetNode_graph second).trans (resetNode_graph first)
  case h_2 =>
    cases returned
    exact Or.inl ⟨rfl, rfl⟩

/-- A deleted connection: the source had the target as successor and was one of its
inputs, and the graph is what removing both entries leaves. -/
structure ConnectionDeleted (graph after : FlowGraph P) (source target : NodeRef)
    (connectionClass : Fin 10) : Prop where
  sourceLive : source ∈ graph.nodeDb
  targetLive : target ∈ graph.nodeDb
  different : source ≠ target
  cases : (connectionClass = 0 ∧ ∃ inputs, (graph.heap target).mainInputs = some inputs ∧
        source ∈ inputs ∧ after = graph.disconnect source target target.nodeId
          ((graph.heap target).popMain source.nodeId inputs)) ∨
      (connectionClass = 1 ∧ (graph.heap target).rightInput = some source ∧
        after = graph.disconnect source target target.nodeId
          ((graph.heap target).clearRight source.nodeId)) ∨
      (connectionClass = 2 ∧ (graph.heap target).leftInput = some source ∧
        ((graph.heap target).rightInput = some source →
          after = graph.disconnect source target target.nodeId
            ((graph.heap target).clearLeft source.nodeId)) ∧
        ((graph.heap target).rightInput ≠ some source →
          after = graph.deleteLeadToNode source target.nodeId))

theorem deleteInputNode_cases {nodeId : Int} {connectionClass : Fin 10}
    {complete : Bool} {world : World P}
    (returned : world.deleteInputNode fuel ref nodeId connectionClass complete =
      some (after, error)) :
    after.graph = match (world.graph.heap ref).withoutInput nodeId connectionClass complete with
      | .ok (some node) => world.graph.modifyNode ref fun _ => node
      | _ => world.graph := by
  rw [deleteInputNode] at returned
  split at returned
  case h_1 failure broke =>
    simp only [Option.some.injEq, Prod.mk.injEq] at returned
    rw [broke, ← returned.1]
  case h_2 absent =>
    simp only [Option.some.injEq, Prod.mk.injEq] at returned
    rw [absent, ← returned.1]
  case h_3 node removed =>
    obtain ⟨reset, ran, joined⟩ := bind_eq_some_iff.mp returned
    simp only [Option.some.injEq, Prod.mk.injEq] at joined
    rw [removed, ← joined.1, resetNode_graph ran]

omit [DecidableEq P] in
theorem connectionDeleted (covered : Covered graph) {source target : NodeRef}
    (sourceLive : source ∈ graph.nodeDb) (targetLive : target ∈ graph.nodeDb)
    {connectionClass : Fin 10} (typed : nodeInputConnectionType connectionClass = .ok port)
    (connected : (graph.heap target).inputConnectionExists source.nodeId port = .ok true) :
    ConnectionDeleted graph
      (match ((graph.deleteLeadToNode source target.nodeId).heap target).withoutInput
          source.nodeId connectionClass false with
        | .ok (some node) =>
          (graph.deleteLeadToNode source target.nodeId).modifyNode target fun _ => node
        | _ => graph.deleteLeadToNode source target.nodeId)
      source target connectionClass := by
  obtain ⟨main, right, left⟩ := feeds_of_exists covered sourceLive targetLive connected
  have input : source ∈ (graph.heap target).allInputs := by
    cases port with
    | main => simp [allInputs, main rfl]
    | right => simp [allInputs, right rfl]
    | left => simp [allInputs, left rfl]
  have different : source ≠ target := by
    rintro rfl
    exact covered.not_feeds_self source ⟨targetLive, input⟩
  have untouched : (graph.deleteLeadToNode source target.nodeId).heap target =
      graph.heap target := by
    simp [FlowGraph.deleteLeadToNode, Ne.symm different]
  refine ⟨sourceLive, targetLive, different, ?_⟩
  rw [untouched]
  rcases connectionType_cases typed with ⟨rfl, rfl⟩ | ⟨rfl, rfl⟩ | ⟨rfl, rfl⟩
  · obtain ⟨inputs, stored, mem⟩ : ∃ inputs,
        (graph.heap target).mainInputs = some inputs ∧ source ∈ inputs := by
      cases stored : (graph.heap target).mainInputs with
      | none => simpa [stored] using main rfl
      | some inputs => exact ⟨inputs, rfl, by simpa [stored] using main rfl⟩
    rw [withoutInput_main stored ⟨source, mem, rfl⟩]
    exact Or.inl ⟨rfl, inputs, stored, mem, rfl⟩
  · rw [withoutInput_right (right rfl) rfl]
    exact Or.inr (Or.inl ⟨rfl, right rfl, rfl⟩)
  · refine Or.inr (Or.inr ⟨rfl, left rfl, ?_, ?_⟩)
    · intro same
      rw [withoutInput_left (left rfl) same rfl]
      rfl
    · intro apart
      have kept : ∀ right, (graph.heap target).rightInput = some right →
          right.nodeId ≠ source.nodeId := by
        intro right stored same
        have rightLive := covered.inputsLive right target
          ⟨targetLive, by simp [allInputs, stored]⟩
        exact apart (covered.eq_of_nodeId rightLive sourceLive same ▸ stored)
      split
      case h_1 node removed => exact absurd removed (withoutInput_left_kept kept node)
      case h_2 => rfl

namespace ConnectionDeleted

variable {final : FlowGraph P} {source target : NodeRef} {connectionClass : Fin 10}

section

variable (deleted : ConnectionDeleted graph final source target connectionClass)
include deleted

omit [DecidableEq P] in
theorem leads_target : (graph.heap target).leadsToNodes =
      ((graph.deleteLeadToNode source target.nodeId).heap target).leadsToNodes := by
  simp [FlowGraph.deleteLeadToNode, Ne.symm deleted.different]

omit [DecidableEq P] in
theorem replaced (covered : Covered graph)
    (leftAllowed : connectionClass = 2 → (graph.heap target).leftInput = some source →
      (graph.heap target).rightInput = some source) :
    ∃ node : FlowNode P, final = graph.disconnect source target target.nodeId node ∧
      node.leadsToNodes = (graph.heap target).leadsToNodes ∧
      node.allInputs.count source < (graph.heap target).allInputs.count source ∧
      (∀ other, node.allInputs.count other ≤ (graph.heap target).allInputs.count other) ∧
      ((connectionClass = 0 → DeletesOne source.nodeId ((graph.heap target).mainInputs.getD [])) →
        node.allInputs.count source + 1 = (graph.heap target).allInputs.count source ∧
        ∀ other, other.nodeId ≠ source.nodeId →
          node.allInputs.count other = (graph.heap target).allInputs.count other) := by
  have own : ∀ ref ∈ (graph.heap target).mainInputs.getD [], ref.nodeId = source.nodeId →
      ref = source := fun ref mem same =>
    covered.eq_of_nodeId (covered.inputsLive ref target
      ⟨deleted.targetLive, by simp [allInputs, mem]⟩) deleted.sourceLive same
  -- A cleared port held the source and nothing else.
  have cleared : ∀ node : FlowNode P,
      (∀ other, node.allInputs.count other + [source].count other =
        (graph.heap target).allInputs.count other) →
      node.allInputs.count source + 1 = (graph.heap target).allInputs.count source ∧
        (∀ other, node.allInputs.count other ≤ (graph.heap target).allInputs.count other) ∧
        ∀ other, other.nodeId ≠ source.nodeId →
          node.allInputs.count other = (graph.heap target).allInputs.count other := by
    intro node counted
    refine ⟨by simpa using counted source, fun other => ?_, fun other apart => ?_⟩
    · have balance := counted other
      omega
    · have different : other ≠ source := fun same => apart (congrArg NodeRef.nodeId same)
      simpa [count_single, different] using counted other
  rcases deleted.cases with ⟨main, inputs, stored, mem, rfl⟩ | ⟨_, stored, rfl⟩ |
    ⟨left, stored, same, _⟩
  · have counted := count_popMain (graph.heap target) source.nodeId inputs stored
    have balance := counted source
    refine ⟨_, rfl, rfl, ?_, fun other => ?_, fun once => ⟨?_, fun other apart => ?_⟩⟩
    · have fewer := count_popMatching_lt rfl inputs (by simpa [stored] using own) mem
      omega
    · have fewer := (popMatching_sublist source.nodeId inputs).count_le other
      have others := counted other
      omega
    · have fewer := count_popMatching_succ rfl inputs (by simpa [stored] using own) mem
        (by simpa [stored] using once main)
      omega
    · have others := counted other
      rw [count_popMatching_of_ne apart] at others
      omega
  · have counted := count_clearRight (graph.heap target) source.nodeId
    rw [stored] at counted
    obtain ⟨lost, fewer, others⟩ := cleared _ counted
    exact ⟨_, rfl, rfl, by omega, fewer, fun _ => ⟨lost, others⟩⟩
  · have counted := count_clearLeft (graph.heap target) source.nodeId
    rw [stored] at counted
    obtain ⟨lost, fewer, others⟩ := cleared _ counted
    exact ⟨_, same (leftAllowed left stored), rfl, by omega, fewer, fun _ => ⟨lost, others⟩⟩

omit [DecidableEq P] in
theorem covered (covered : Covered graph)
    (leftAllowed : connectionClass = 2 → (graph.heap target).leftInput = some source →
      (graph.heap target).rightInput = some source) : Covered final := by
  obtain ⟨node, rfl, kept, lost, fewer, _⟩ := deleted.replaced covered leftAllowed
  exact covered.disconnect deleted.sourceLive deleted.targetLive
    (kept.trans deleted.leads_target) lost fewer

omit [DecidableEq P] in
theorem balanced (balanced : Balanced graph)
    (leftAllowed : connectionClass = 2 → (graph.heap target).leftInput = some source →
      (graph.heap target).rightInput = some source)
    (once : connectionClass = 0 →
      DeletesOne source.nodeId ((graph.heap target).mainInputs.getD [])) : Balanced final := by
  obtain ⟨node, rfl, kept, _, fewer, exactly⟩ := deleted.replaced balanced.toCovered leftAllowed
  obtain ⟨lost, others⟩ := exactly once
  refine balanced.disconnect deleted.sourceLive deleted.targetLive
    (kept.trans deleted.leads_target) lost (fun other live different => others other ?_) fewer
  exact fun sameId => different (balanced.eq_of_nodeId live deleted.sourceLive sameId)

end

end ConnectionDeleted

theorem deleteConnection_cases (covered : Covered graph)
    {connectionClass : Fin 10}
    (returned : World.deleteConnection fuel ⟨graph, hashes⟩ fromId toId connectionClass =
      some (after, error)) :
    after.graph = graph ∨ ∃ source target, graph.getNode fromId = some source ∧
      graph.getNode toId = some target ∧
      ConnectionDeleted graph after.graph source target connectionClass := by
  rw [World.deleteConnection] at returned
  split at returned
  case h_1 source target fromFound toFound =>
    obtain ⟨sourceLive, rfl⟩ := getNode_spec fromFound
    obtain ⟨targetLive, rfl⟩ := getNode_spec toFound
    cases typed : nodeInputConnectionType connectionClass with
    | error failure =>
      simp only [typed, Option.some.injEq, Prod.mk.injEq] at returned
      exact Or.inl (congrArg World.graph returned.1).symm
    | ok port =>
    simp only [typed] at returned
    split at returned
    case h_1 =>
      cases returned
      exact Or.inl rfl
    case h_2 =>
      cases returned
      exact Or.inl rfl
    case h_3 connected =>
      refine Or.inr ⟨source, target, fromFound, toFound, ?_⟩
      rw [deleteInputNode_cases returned]
      exact connectionDeleted covered sourceLive targetLive typed connected
  case h_2 =>
    cases returned
    exact Or.inl rfl

theorem deleteNode_cases (covered : Covered graph) {nodeId : Int}
    (returned : World.deleteNode fuel ⟨graph, hashes⟩ nodeId = some (after, error)) :
    (graph.getNode nodeId = none ∧ error.isSome ∧ after.graph = graph) ∨
      ∃ ref, graph.getNode nodeId = some ref ∧ ((error = none ∧
            (∀ target ∈ (graph.heap ref).leadsToNodes, (graph.heap target).mainInputs.isSome) ∧
            ∃ middle, Detached graph middle ref (graph.heap ref).leadsToNodes ∧
              SameWiring (middle.dropNode ref ref.nodeId) after.graph) ∨
          (error.isSome ∧
            (∃ target ∈ (graph.heap ref).leadsToNodes, (graph.heap target).mainInputs = none) ∧
            (∃ processed, Detached graph after.graph ref processed) ∧
            ∀ first rest, (graph.heap ref).leadsToNodes = first :: rest →
              (graph.heap first).mainInputs = none → after.graph = graph)) := by
  rw [World.deleteNode] at returned
  split at returned
  case h_1 missing =>
    cases returned
    exact Or.inl ⟨missing, rfl, rfl⟩
  case h_2 ref found =>
    obtain ⟨live, rfl⟩ := getNode_spec found
    obtain ⟨⟨middle, failed⟩, detaching, continued⟩ := bind_eq_some_iff.mp returned
    refine Or.inr ⟨ref, found, ?_⟩
    have leadsLive : ∀ target ∈ (graph.heap ref).leadsToNodes, target ∈ graph.nodeDb :=
      fun target lead => covered.leadsLive ref target ⟨live, lead⟩
    rcases detachFromTargets_spec covered live leadsLive detaching with
      ⟨rfl, stored, detached⟩ | ⟨failure, bare, processed, early⟩
    · cases continued
      exact Or.inl ⟨rfl, stored, middle.graph, detached, SameWiring.pruneGroup _ _⟩
    · obtain ⟨failure', rfl⟩ := Option.isSome_iff_exists.mp failure
      cases continued
      exact Or.inr ⟨rfl, bare, processed, early⟩

variable {nodeType : String} {setting : NodeSetting P}

theorem createNode_cases {environment : Environment P} {nodeId : Int}
    (free : graph.getNode nodeId = none)
    (returned : createNode environment fuel ⟨graph, hashes⟩ nodeId nodeType setting =
      some (after, error)) :
    after.graph = graph ∨ Created graph after.graph ⟨nodeId, graph.nextSerial⟩ := by
  rw [createNode] at returned
  split at returned
  case h_1 =>
    cases returned
    exact Or.inl rfl
  case h_2 nodeTemplate known =>
    obtain ⟨reset, ran, ⟨⟩⟩ := bind_eq_some_iff.mp returned
    have same := resetNode_graph ran
    dsimp only at same
    refine Or.inr ?_
    simp only [same]
    constructor
    case free => exact free
    case nodeDb | serial | nextSerial => rfl
    case others => exact fun other different => Function.update_of_ne different _ _
    case noLeads => simp
    case noInputs => simp [allInputs]

theorem updateNode_cases (covered : Covered graph) {environment : Environment P}
    (live : ref ∈ graph.nodeDb)
    (returned : updateNode environment fuel ⟨graph, hashes⟩ ref setting =
      some (after, error)) : SameWiring graph after.graph := by
  rw [updateNode] at returned
  simp only [addLead_fold covered ref live _ fun _ mem => mem] at returned
  obtain ⟨⟨hash, hashed⟩, _, continued⟩ := bind_eq_some_iff.mp returned
  dsimp only at continued
  split at continued
  case h_1 =>
    simp only [Option.some.injEq, Prod.mk.injEq] at continued
    rw [← continued.1]
    exact refl graph
  case h_2 nodeTemplate known =>
    obtain ⟨reset, ran, joined⟩ := bind_eq_some_iff.mp continued
    simp only [Option.some.injEq, Prod.mk.injEq] at joined
    rw [← joined.1, resetNode_graph ran]
    dsimp only
    apply modifyNode graph ref <;> rfl

theorem addInPlace_cases {environment : Environment P} {nodeId : Int}
    (returned : addInPlace environment fuel ⟨graph, hashes⟩ nodeId nodeType setting =
      some (after, error)) :
    SameWiring graph after.graph ∨ Created graph after.graph ⟨nodeId, graph.nextSerial⟩ := by
  rw [addInPlace] at returned
  split at returned
  case h_1 missing =>
    refine (createNode_cases missing returned).imp_left ?_
    intro same
    rw [same]
    exact refl graph
  case h_2 ref found =>
    obtain ⟨reset, ran, joined⟩ := bind_eq_some_iff.mp returned
    simp only [Option.some.injEq, Prod.mk.injEq] at joined
    rw [← joined.1, resetNode_graph ran]
    apply Or.inl
    dsimp only
    apply modifyNode graph ref <;> rfl

def FlowGraph.typeChanges (graph : FlowGraph P) (nodeId : Int) (nodeType : String) : Bool :=
  (graph.getNode nodeId).any fun ref => (graph.heap ref).nodeType ≠ nodeType

def Edit.deletedId (environment : Environment P) (graph : FlowGraph P) : Edit P → Option Int
  | .deleteNode nodeId => some nodeId
  | .addNodePromise nodeId nodeType _ =>
    if graph.typeChanges nodeId nodeType then some nodeId else none
  | .addSettings nodeId nodeType _ =>
    match environment.adder nodeType with
    | some (.step _ _) => if graph.typeChanges nodeId nodeType then some nodeId else none
    | _ => none
  | _ => none

theorem addInPlace_type {environment : Environment P} {nodeId : Int}
    (returned : addInPlace environment fuel ⟨graph, hashes⟩ nodeId nodeType setting =
      some (after, none)) : after.graph.typeChanges nodeId nodeType = false := by
  rw [addInPlace] at returned
  split at returned
  case h_1 missing =>
    rw [createNode] at returned
    split at returned
    case h_1 => simp at returned
    case h_2 nodeTemplate known =>
      obtain ⟨reset, ran, joined⟩ := bind_eq_some_iff.mp returned
      simp only [Option.some.injEq, Prod.mk.injEq, and_true] at joined
      have missing' : graph.nodeDb.find? (fun ref => decide (ref.nodeId = nodeId)) = none := missing
      simp [← joined, resetNode_graph ran, FlowGraph.typeChanges, FlowGraph.getNode,
        List.find?_append, missing']
  case h_2 ref found =>
    obtain ⟨reset, ran, joined⟩ := bind_eq_some_iff.mp returned
    simp only [Option.some.injEq, Prod.mk.injEq, and_true] at joined
    have found' : graph.nodeDb.find? (fun ref => decide (ref.nodeId = nodeId)) = some ref := found
    simp [← joined, resetNode_graph ran, FlowGraph.typeChanges, FlowGraph.getNode, found']

section

variable {holds : FlowGraph P → Prop} {environment : Environment P}

section

variable (kept : KeptByNodes holds) (initially : holds graph)
include kept initially

theorem addNodeStep_keeps {nodeId : Int}
    {initialised : Bool}
    (deletes : graph.typeChanges nodeId nodeType = true → ∀ after error,
      World.deleteNode fuel ⟨graph, hashes⟩ nodeId = some (after, error) → holds after.graph)
    (returned : addNodeStep environment fuel ⟨graph, hashes⟩ nodeId nodeType setting
      initialised = some (after, error)) : holds after.graph := by
  have create : ∀ (graph : FlowGraph P) (hashes : Hashes P), holds graph →
      graph.getNode nodeId = none →
      (if initialised then createNode environment fuel ⟨graph, hashes⟩ nodeId nodeType setting
        else some (⟨graph, hashes⟩, some .noDataInitialized)) = some (after, error) →
      holds after.graph := by
    intro graph hashes initially free created
    split at created
    case isTrue =>
      cases createNode_cases free created with
      | inl same => exact same ▸ initially
      | inr new => exact kept.created _ _ _ new initially
    case isFalse =>
      cases created
      exact initially
  rw [addNodeStep] at returned
  split at returned
  case h_1 missing => exact create graph hashes initially missing returned
  case h_2 ref found =>
    obtain ⟨live, rfl⟩ := getNode_spec found
    split at returned
    case isTrue =>
      exact kept.same _ _ (updateNode_cases (kept.covered _ initially) live returned) initially
    case isFalse different =>
      obtain ⟨⟨middle, failed⟩, deleting, continued⟩ := bind_eq_some_iff.mp returned
      have found' : graph.getNode ref.nodeId = some ref := found
      have changes : graph.typeChanges ref.nodeId nodeType = true := by
        simpa [FlowGraph.typeChanges, found'] using different
      have still := deletes changes middle failed deleting
      rcases deleteNode_cases (kept.covered _ initially) deleting with
        ⟨missing, _⟩ | ⟨other, otherFound, ⟨rfl, _, _, _, dropped⟩ | ⟨failure, _⟩⟩
      · rw [found'] at missing
        cases missing
      · have equal : other = ref := Option.some.inj (otherFound.symm.trans found')
        subst equal
        exact create middle.graph middle.hashes still (getNode_dropNode dropped) continued
      · obtain ⟨failure', rfl⟩ := Option.isSome_iff_exists.mp failure
        cases continued
        exact still

theorem addSettings_keeps {nodeId : Int}
    (deletes : (Edit.addSettings nodeId nodeType setting).deletedId environment graph =
      some nodeId → ∀ after error,
      World.deleteNode fuel ⟨graph, hashes⟩ nodeId = some (after, error) → holds after.graph)
    (returned : World.addSettings environment fuel ⟨graph, hashes⟩ nodeId nodeType setting =
      some (after, error)) : holds after.graph := by
  have started : ∀ (starting : Bool) (outcome : Outcome P), holds outcome.1.graph →
      holds (startingWhen starting nodeId outcome).1.graph := fun starting outcome still =>
    kept.same _ _ (startingWhen_wiring starting nodeId outcome) still
  have inPlace : ∀ middle failed,
      addInPlace environment fuel ⟨graph, hashes⟩ nodeId nodeType setting =
        some (middle, failed) → holds middle.graph := by
    intro middle failed added
    cases addInPlace_cases added with
    | inl same => exact kept.same _ _ same initially
    | inr new => exact kept.created _ _ _ new initially
  rw [World.addSettings] at returned
  split at returned
  case h_1 =>
    cases returned
    exact initially
  case h_2 initialised starting known =>
    obtain ⟨⟨middle, failed⟩, added, finished⟩ := map_eq_some_iff.mp returned
    have still : holds middle.graph := by
      refine addNodeStep_keeps kept initially (fun changes => deletes ?_) added
      simp [Edit.deletedId, known, changes]
    have final := started starting (middle, failed) still
    rwa [finished] at final
  case h_3 starting known =>
    obtain ⟨⟨middle, failed⟩, added, finished⟩ := map_eq_some_iff.mp returned
    have final := started starting (middle, failed) (inPlace middle failed added)
    rwa [finished] at final
  case h_4 known =>
    obtain ⟨⟨middle, failed⟩, placed, continued⟩ := bind_eq_some_iff.mp returned
    obtain ⟨⟨first, firstFailed⟩, added, finished⟩ := map_eq_some_iff.mp placed
    have still := started true (first, firstFailed) (inPlace first firstFailed added)
    rw [finished] at still
    cases failed with
    | some failure =>
      cases continued
      exact still
    | none =>
    obtain ⟨graphAfter, hashesAfter⟩ := middle
    refine addNodeStep_keeps kept still (fun changes => ?_) continued
    obtain ⟨sameError, _, flowStarts, sameGraph⟩ := startingWhen_graph true nodeId
      (first, firstFailed)
    rw [finished] at sameError sameGraph
    dsimp only at sameError sameGraph
    subst sameError
    have kind := addInPlace_type added
    rw [sameGraph] at changes
    exact absurd (changes.symm.trans kind) (by decide)

theorem perform_keeps {edit : Edit P}
    (deletes : ∀ nodeId, edit.deletedId environment graph = some nodeId → ∀ after error,
      World.deleteNode fuel ⟨graph, hashes⟩ nodeId = some (after, error) → holds after.graph)
    (connects : ∀ fromId handle toId connectionClass,
      edit = .addConnection fromId handle toId connectionClass → ∀ after error,
      World.addConnection fuel ⟨graph, hashes⟩ fromId handle toId connectionClass =
        some (after, error) → holds after.graph)
    (disconnects : ∀ fromId toId connectionClass,
      edit = .deleteConnection fromId toId connectionClass → ∀ after error,
      World.deleteConnection fuel ⟨graph, hashes⟩ fromId toId connectionClass =
        some (after, error) → holds after.graph)
    (returned : perform environment fuel ⟨graph, hashes⟩ edit = some (after, error)) :
    holds after.graph := by
  have wired : ∀ (outcome : Outcome P), SameWiring graph outcome.1.graph →
      some outcome = some (after, error) → holds after.graph := by
    intro outcome same joined
    cases joined
    exact kept.same _ _ same initially
  cases edit with
  | addNodePromise nodeId nodeType setting =>
    refine addNodeStep_keeps kept initially (fun changes => deletes nodeId ?_) returned
    simp [Edit.deletedId, changes]
  | addSettings nodeId nodeType setting =>
    exact addSettings_keeps kept initially (deletes nodeId) returned
  | addConnection fromId handle toId connectionClass =>
    exact connects _ _ _ _ rfl _ _ returned
  | deleteConnection fromId toId connectionClass => exact disconnects _ _ _ rfl _ _ returned
  | deleteNode nodeId => exact deletes nodeId rfl _ _ returned
  | createGroup name nodeIds color bounds parentGroupId childGroupIds =>
    exact wired _ (SameWiring.createGroup _ _ _ _ _ _ _) returned
  | updateGroup groupId name color bounds collapsed =>
    refine wired _ (onGroup_wiring ⟨graph, hashes⟩ _ _ fun graph => ?_) returned
    exact SameWiring.updateGroup graph groupId name color bounds collapsed
  | deleteGroup groupId => exact wired _ (SameWiring.deleteGroup _ _) returned
  | addNodesToGroup groupId nodeIds =>
    refine wired _ (onGroup_wiring ⟨graph, hashes⟩ _ _ fun graph => ?_) returned
    exact SameWiring.addNodesToGroup graph groupId nodeIds
  | removeNodesFromGroup nodeIds =>
    exact wired _ (SameWiring.removeNodesFromGroup _ _ _) returned
  | setNodePositions updates => exact wired _ (SameWiring.setNodePositions _ _) returned
  | setGroupBounds updates => exact wired _ (SameWiring.setGroupBounds _ _) returned

end

end

def Returns (operation : Nat → Hashes P → Option (Outcome P)) (final : FlowGraph P)
    (error : Option FlowError) : Prop :=
  ∃ bound, ∀ fuel, bound ≤ fuel → ∀ hashes, ∃ after,
    operation fuel hashes = some (⟨final, after⟩, error)

section

variable {σ α β γ : Type} {run : Nat → σ → Option α} {next : Nat → σ → Option β}
  {whole : Nat → σ → Option γ} {ends : σ → α} {nextEnds : σ → β} {wholeEnds : σ → γ}

theorem enough_of
    (returns : ∃ bound, ∀ fuel, bound ≤ fuel → ∀ start, ∃ after, run fuel start = some (ends after))
    (follows : ∀ fuel start after, run fuel start = some (ends after) →
      whole fuel start = some (wholeEnds after)) :
    ∃ bound, ∀ fuel, bound ≤ fuel → ∀ start, ∃ after,
      whole fuel start = some (wholeEnds after) := by
  obtain ⟨bound, enough⟩ := returns
  refine ⟨bound, fun fuel large start => ?_⟩
  obtain ⟨after, ran⟩ := enough fuel large start
  exact ⟨after, follows fuel start after ran⟩

/-- The same for a second computation that starts from what the first one leaves. -/
theorem enough_then
    (returns : ∃ bound, ∀ fuel, bound ≤ fuel → ∀ start, ∃ between,
      run fuel start = some (ends between))
    (goesOn : ∃ bound, ∀ fuel, bound ≤ fuel → ∀ start, ∃ after,
      next fuel start = some (nextEnds after))
    (follows : ∀ fuel start between after, run fuel start = some (ends between) →
      next fuel between = some (nextEnds after) → whole fuel start = some (wholeEnds after)) :
    ∃ bound, ∀ fuel, bound ≤ fuel → ∀ start, ∃ after,
      whole fuel start = some (wholeEnds after) := by
  obtain ⟨firstBound, firstEnough⟩ := returns
  obtain ⟨laterBound, laterEnough⟩ := goesOn
  refine ⟨max firstBound laterBound, fun fuel large start => ?_⟩
  obtain ⟨between, first⟩ := firstEnough fuel (by omega) start
  obtain ⟨after, later⟩ := laterEnough fuel (by omega) between
  exact ⟨after, follows fuel start between after first later⟩

end

theorem resetNode_returns (covered : Covered graph) (ref : NodeRef) (live : ref ∈ graph.nodeDb) :
    ∃ bound, ∀ fuel, bound ≤ fuel → ∀ hashes, ∃ after,
      resetNode fuel ⟨graph, hashes⟩ ref = some ⟨graph, after⟩ :=
  enough_of (covered.reset_returns ref live) fun _ _ _ ran => by simp [resetNode, ran]

theorem deleteInputNode_returns (target : NodeRef) (nodeId : Int) (connectionClass : Fin 10)
    (complete : Bool) (live : target ∈ graph.nodeDb)
    (covered : ∀ node, (graph.heap target).withoutInput nodeId connectionClass complete =
      .ok (some node) → Covered (graph.modifyNode target fun _ => node)) :
    ∃ final error, Returns (fun fuel hashes =>
      deleteInputNode fuel ⟨graph, hashes⟩ target nodeId connectionClass complete)
      final error := by
  cases removed : (graph.heap target).withoutInput nodeId connectionClass complete with
  | error failure =>
    exact ⟨graph, some failure, 0, fun fuel _ hashes =>
      ⟨hashes, by simp [deleteInputNode, removed]⟩⟩
  | ok result =>
  cases result with
  | none =>
    exact ⟨graph, none, 0, fun fuel _ hashes =>
      ⟨hashes, by simp [deleteInputNode, removed]⟩⟩
  | some node =>
    exact ⟨graph.modifyNode target fun _ => node, none,
      enough_of (resetNode_returns (covered node removed) target live) fun _ _ _ ran => by
        simp [deleteInputNode, removed, ran]⟩

theorem detachFromTargets_returns (covered : Covered graph) {source : NodeRef}
    (sourceLive : source ∈ graph.nodeDb) (targets : List NodeRef)
    (live : ∀ target ∈ targets, target ∈ graph.nodeDb) :
    ∃ final error, Returns (fun fuel hashes =>
      World.detachFromTargets fuel source.nodeId targets ⟨graph, hashes⟩) final error := by
  induction targets generalizing graph with
  | nil => exact ⟨graph, none, 0, fun fuel _ hashes => ⟨hashes, rfl⟩⟩
  | cons target rest ih =>
    obtain ⟨middle, failed, first⟩ := deleteInputNode_returns target source.nodeId 0 true
      (live target (by simp)) (by
        intro node removed
        rcases withoutInput_cases _ _ _ _ _ removed with
          ⟨_, inputs, stored, _, rfl⟩ | ⟨impossible, _⟩ | ⟨impossible, _⟩
        · exact (detached_popMain covered sourceLive (live target (by simp)) inputs
            stored).toInputsCut.covered covered
        · exact absurd rfl impossible
        · exact absurd impossible (by decide))
    obtain ⟨bound, enough⟩ := id first
    obtain ⟨sample, ran⟩ := enough bound (Nat.le_refl _) fun _ => none
    rcases deleteInputNode_main_spec covered sourceLive (live target (by simp)) ran with
      ⟨failure, rfl, _, _⟩ | ⟨rfl, _, detached⟩
    · exact ⟨middle, some failure, enough_of first fun _ _ _ ran => by
        simp [World.detachFromTargets, ran]⟩
    have nodeDb : middle.nodeDb = graph.nodeDb := detached.nodeDb
    obtain ⟨final, error, later⟩ := ih
      (detached.toInputsCut.covered covered) (nodeDb ▸ sourceLive)
      (fun other mem => nodeDb ▸ live other (List.mem_cons_of_mem _ mem))
    exact ⟨final, error, enough_then first later fun _ _ _ _ ran goesOn => by
      simp [World.detachFromTargets, ran, goesOn]⟩

theorem deleteNode_returns (covered : Covered graph) (nodeId : Int) :
    ∃ final error, Returns (fun fuel hashes =>
      World.deleteNode fuel ⟨graph, hashes⟩ nodeId) final error := by
  cases found : graph.getNode nodeId with
  | none =>
    exact ⟨graph, some (.nodeDoesNotExist nodeId), 0, fun fuel _ hashes =>
      ⟨hashes, by simp [World.deleteNode, found]⟩⟩
  | some ref =>
  obtain ⟨live, rfl⟩ := getNode_spec found
  obtain ⟨middle, failed, detaches⟩ := detachFromTargets_returns covered live
    (graph.heap ref).leadsToNodes (fun target lead => covered.leadsLive ref target ⟨live, lead⟩)
  cases failed with
  | some failure =>
    exact ⟨middle, some failure, enough_of detaches fun _ _ _ ran => by
      simp [World.deleteNode, found, ran]⟩
  | none =>
    exact ⟨(middle.dropNode ref ref.nodeId).pruneGroup (graph.heap ref).setting.groupId, none,
      enough_of detaches fun _ _ _ ran => by simp [World.deleteNode, found, ran]⟩

theorem createNode_returns (environment : Environment P) (graph : FlowGraph P) (nodeId : Int)
    (nodeType : String) (setting : NodeSetting P) :
    ∃ final error, Returns (fun fuel hashes =>
      createNode environment fuel ⟨graph, hashes⟩ nodeId nodeType setting) final error := by
  cases known : environment.template nodeType with
  | none =>
    exact ⟨graph, some (.templateNotFound nodeType), 0, fun fuel _ hashes =>
      ⟨hashes, by simp [createNode, known]⟩⟩
  | some nodeTemplate =>
  let ref : NodeRef := ⟨nodeId, graph.nextSerial⟩
  let node : FlowNode P :=
    { nodeType, nodeTemplate, setting, mainInputs := none, leftInput := none,
      rightInput := none, leadsToNodes := [], inputOutputHandles := fun _ => none }
  let extended : FlowGraph P := { graph with
    heap := Function.update graph.heap ref node
    nextSerial := graph.nextSerial + 1 }
  have noInputs : (extended.heap ref).allInputs = [] := by
    simp [extended, node, allInputs]
  have noLeads : (extended.heap ref).leadsToNodes = [] := by simp [extended, node]
  have returns : ∃ bound, ∀ fuel, bound ≤ fuel → ∀ hashes,
      ∃ after, reset extended fuel hashes ref = some after := reset_returns (· = ref)
    (by rintro target rfl source input; simp [noInputs] at input)
    ⟨fun other => ⟨other, by rintro source ⟨rfl, input⟩; simp [noInputs] at input⟩⟩
    (by rintro source rfl target lead; simp [noLeads] at lead)
    ⟨fun other => ⟨other, by rintro target ⟨rfl, lead⟩; simp [noLeads] at lead⟩⟩ ref rfl
  obtain ⟨bound, enough⟩ := returns
  refine ⟨{ extended with nodeDb := graph.nodeDb ++ [ref] }, none, bound,
    fun fuel large hashes => ?_⟩
  obtain ⟨after, ran⟩ := enough fuel large (Function.update hashes ref none)
  refine ⟨after, ?_⟩
  simp only [createNode, known, resetNode]
  simp only [extended, ref, node] at ran ⊢
  simp [ran]

section

variable (covered : Covered graph) (environment : Environment P)
include covered environment

theorem updateNode_returns (live : ref ∈ graph.nodeDb) (setting : NodeSetting P) :
    ∃ final error, Returns (fun fuel hashes =>
      updateNode environment fuel ⟨graph, hashes⟩ ref setting) final error := by
  have listed := addLead_fold covered ref live _ fun _ mem => mem
  obtain ⟨hashBound, hashEnough⟩ := covered.nodeHash_returns ref live
  cases known : environment.template (graph.heap ref).nodeType with
  | none =>
    refine ⟨graph, some (.templateNotFound (graph.heap ref).nodeType), hashBound,
      fun fuel large hashes => ?_⟩
    obtain ⟨⟨hash, after⟩, hashed⟩ := hashEnough fuel large hashes
    exact ⟨after, by simp [updateNode, listed, hashed, known]⟩
  | some nodeTemplate =>
    have same : SameWiring graph
        (graph.modifyNode ref fun node => { node with nodeTemplate, setting }) := by
      apply modifyNode <;> rfl
    obtain ⟨resetBound, resetEnough⟩ := resetNode_returns (same.covered covered) ref live
    refine ⟨graph.modifyNode ref fun node => { node with nodeTemplate, setting }, none,
      max hashBound resetBound, fun fuel large hashes => ?_⟩
    obtain ⟨⟨hash, hashed⟩, ran⟩ := hashEnough fuel (by omega) hashes
    obtain ⟨after, finished⟩ := resetEnough fuel (by omega) hashed
    exact ⟨after, by simp [updateNode, listed, ran, known, finished]⟩

theorem addNodeStep_returns
    (nodeId : Int) (nodeType : String) (setting : NodeSetting P) (initialised : Bool) :
    ∃ final error, Returns (fun fuel hashes =>
      addNodeStep environment fuel ⟨graph, hashes⟩ nodeId nodeType setting initialised)
      final error := by
  have create : ∀ graph : FlowGraph P, ∃ final error, Returns (fun fuel hashes =>
      if initialised then createNode environment fuel ⟨graph, hashes⟩ nodeId nodeType setting
      else some (⟨graph, hashes⟩, some .noDataInitialized)) final error := by
    intro graph
    cases initialised with
    | false => exact ⟨graph, some .noDataInitialized, 0, fun _ _ hashes => ⟨hashes, rfl⟩⟩
    | true => exact createNode_returns environment graph nodeId nodeType setting
  cases found : graph.getNode nodeId with
  | none =>
    obtain ⟨final, error, returns⟩ := create graph
    exact ⟨final, error, enough_of returns fun _ _ _ ran => by
      simpa only [addNodeStep, found] using ran⟩
  | some ref =>
  have live := (getNode_spec found).1
  by_cases same : (graph.heap ref).nodeType = nodeType
  · obtain ⟨final, error, returns⟩ := updateNode_returns covered environment live setting
    exact ⟨final, error, enough_of returns fun _ _ _ ran => by
      simpa only [addNodeStep, found, same, if_true] using ran⟩
  obtain ⟨middle, failed, deletes⟩ := deleteNode_returns covered nodeId
  cases failed with
  | some failure =>
    exact ⟨middle, some failure, enough_of deletes fun _ _ _ ran => by
      simp [addNodeStep, found, same, ran]⟩
  | none =>
  obtain ⟨final, error, creates⟩ := create middle
  exact ⟨final, error, enough_then deletes creates fun _ _ _ _ first later => by
    simp only [addNodeStep, found, same, if_false, first]
    exact later⟩

theorem addInPlace_returns (nodeId : Int) (nodeType : String) (setting : NodeSetting P) :
    ∃ final error, Returns (fun fuel hashes =>
      addInPlace environment fuel ⟨graph, hashes⟩ nodeId nodeType setting) final error := by
  cases found : graph.getNode nodeId with
  | none =>
    obtain ⟨final, error, creates⟩ := createNode_returns environment graph nodeId nodeType setting
    exact ⟨final, error, enough_of creates fun _ _ _ ran => by
      simpa only [addInPlace, found] using ran⟩
  | some ref =>
  have same : SameWiring graph
      (graph.modifyNode ref fun node => { node with nodeType, setting }) := by
    apply modifyNode <;> rfl
  exact ⟨graph.modifyNode ref fun node => { node with nodeType, setting }, none,
    enough_of (resetNode_returns (same.covered covered) ref (getNode_spec found).1)
      fun _ _ _ ran => by simp [addInPlace, found, ran]⟩

end

omit [DecidableEq P] in
theorem Returns.starting {operation : Nat → Hashes P → Option (Outcome P)} {final : FlowGraph P}
    (returns : Returns operation final error) (starting : Bool) (nodeId : Int) :
    Returns (fun fuel hashes => (operation fuel hashes).map (startingWhen starting nodeId))
      (startingWhen starting nodeId (⟨final, fun _ => none⟩, error)).1.graph error := by
  refine enough_of returns fun _ _ _ ran => ?_
  rw [ran]
  cases error with
  | some failure => rfl
  | none => cases starting <;> rfl

section

variable (covered : Covered graph)
include covered

variable (environment : Environment P)

theorem addSettings_returns (nodeId : Int) (nodeType : String) (setting : NodeSetting P) :
    ∃ final error, Returns (fun fuel hashes =>
      World.addSettings environment fuel ⟨graph, hashes⟩ nodeId nodeType setting) final error := by
  cases known : environment.adder nodeType with
  | none =>
    exact ⟨graph, some (.noAdder nodeType), 0, fun fuel _ hashes =>
      ⟨hashes, by simp [World.addSettings, known]⟩⟩
  | some adder =>
  cases adder with
  | step initialised starting =>
    obtain ⟨middle, error, returns⟩ := addNodeStep_returns covered environment nodeId nodeType
      setting (initialised setting)
    simp only [World.addSettings, known]
    exact ⟨_, error, returns.starting starting nodeId⟩
  | inPlace starting =>
    obtain ⟨middle, error, returns⟩ := addInPlace_returns covered environment nodeId nodeType
      setting
    simp only [World.addSettings, known]
    exact ⟨_, error, returns.starting starting nodeId⟩
  | inPlaceThenStep =>
  obtain ⟨placed, failed, returns⟩ := addInPlace_returns covered environment nodeId nodeType
    setting
  have places := returns.starting true nodeId
  cases failed with
  | some failure =>
    exact ⟨placed, some failure, enough_of places fun _ _ _ ran => by
      simp only [World.addSettings, known, ran]
      rfl⟩
  | none =>
  have stillCovered : Covered (startingWhen true nodeId
      ((⟨placed, fun _ => none⟩ : World P), none)).1.graph := by
    obtain ⟨bound, enough⟩ := returns
    obtain ⟨sample, ran⟩ := enough bound (Nat.le_refl _) fun _ => none
    apply (startingWhen_wiring true nodeId _).covered
    cases addInPlace_cases ran with
    | inl same => exact same.covered covered
    | inr created => exact created.covered covered
  obtain ⟨final, error, adds⟩ := addNodeStep_returns stillCovered environment nodeId nodeType
    setting false
  exact ⟨final, error, enough_then places adds fun _ _ _ _ first later => by
    simp only [World.addSettings, known, first]
    exact later⟩

theorem addConnection_succeeds {connectionClass : Fin 10} {source target : NodeRef}
    (fromFound : graph.getNode fromId = some source) (toFound : graph.getNode toId = some target)
    (typed : nodeInputConnectionType connectionClass = .ok port)
    (takesInput : (graph.heap target).nodeTemplate.input ≠ 0)
    (noReturn : ¬ Relation.ReflTransGen graph.leads target source) :
    Returns (fun fuel hashes =>
        World.addConnection fuel ⟨graph, hashes⟩ fromId handle toId connectionClass)
      (graph.connect target source port handle) none := by
  have sourceLive := (getNode_spec fromFound).1
  have targetLive := (getNode_spec toFound).1
  have connected : Covered (graph.connect target source port handle) :=
    covered.connect sourceLive targetLive noReturn
  obtain ⟨targetBound, targetEnough⟩ := resetNode_returns connected target targetLive
  obtain ⟨sourceBound, sourceEnough⟩ := resetNode_returns connected source sourceLive
  refine ⟨max (graph.nodeDb.length + 1) (max targetBound sourceBound), fun fuel large hashes => ?_⟩
  obtain ⟨cyclic, searched⟩ := wouldCreateCycle_returns covered fuel source target targetLive
    (by omega)
  obtain rfl : cyclic = false := by
    cases cyclic with
    | false => rfl
    | true =>
      exact absurd (reachable_of_cycle covered fuel source target sourceLive targetLive searched)
        noReturn
  have valid : validateConnection graph fuel source target = some none := by
    rw [validateConnection, if_neg takesInput, searched]
    rfl
  obtain ⟨between, first⟩ := targetEnough fuel (by omega) hashes
  obtain ⟨after, second⟩ := sourceEnough fuel (by omega) between
  refine ⟨after, ?_⟩
  simp only [World.addConnection, fromFound, toFound, valid, typed, World.addNodeConnection]
  simp [first, second]

theorem addConnection_returns (fromId : Int) (handle : String)
    (toId : Int) (connectionClass : Fin 10) :
    ∃ bound, ∀ fuel, bound ≤ fuel → ∀ hashes, ∃ outcome,
      World.addConnection fuel ⟨graph, hashes⟩ fromId handle toId connectionClass =
        some outcome := by
  cases fromFound : graph.getNode fromId with
  | none => exact ⟨0, fun fuel _ hashes => ⟨_, by simp only [World.addConnection, fromFound]; rfl⟩⟩
  | some source =>
  cases toFound : graph.getNode toId with
  | none =>
    exact ⟨0, fun fuel _ hashes =>
      ⟨_, by simp only [World.addConnection, fromFound, toFound]; rfl⟩⟩
  | some target =>
  by_cases accepted : (∃ port, nodeInputConnectionType connectionClass = .ok port) ∧
      (graph.heap target).nodeTemplate.input ≠ 0 ∧
      ¬ Relation.ReflTransGen graph.leads target source
  · obtain ⟨⟨port, typed⟩, takesInput, noReturn⟩ := accepted
    obtain ⟨bound, enough⟩ := addConnection_succeeds covered fromFound toFound typed takesInput
      noReturn
    refine ⟨bound, fun fuel large hashes => ?_⟩
    obtain ⟨after, ran⟩ := enough fuel large hashes
    exact ⟨_, ran⟩
  · -- Nothing is reset: the check refuses, or the port has no class.
    have targetLive := (getNode_spec toFound).1
    refine ⟨graph.nodeDb.length + 1, fun fuel large hashes => ?_⟩
    obtain ⟨cyclic, searched⟩ := wouldCreateCycle_returns covered fuel source target targetLive
      (by omega)
    simp only [World.addConnection, fromFound, toFound, validateConnection, searched]
    split
    case isTrue => exact ⟨_, rfl⟩
    case isFalse takesInput =>
      cases cyclic with
      | true => exact ⟨_, rfl⟩
      | false =>
      cases typed : nodeInputConnectionType connectionClass with
      | error failure => exact ⟨_, rfl⟩
      | ok port =>
        exact absurd ⟨⟨port, typed⟩, takesInput,
          not_reachable_of_no_cycle covered fuel source target targetLive searched⟩ accepted

theorem deleteConnection_returns (fromId toId : Int) (connectionClass : Fin 10)
    (leftAllowed : connectionClass = 2 → ∀ source target, graph.getNode fromId = some source →
      graph.getNode toId = some target → (graph.heap target).leftInput = some source →
      (graph.heap target).rightInput = some source) :
    ∃ bound, ∀ fuel, bound ≤ fuel → ∀ hashes, ∃ outcome,
      World.deleteConnection fuel ⟨graph, hashes⟩ fromId toId connectionClass = some outcome := by
  cases fromFound : graph.getNode fromId with
  | none =>
    exact ⟨0, fun fuel _ hashes => ⟨_, by simp only [World.deleteConnection, fromFound]; rfl⟩⟩
  | some source =>
  cases toFound : graph.getNode toId with
  | none =>
    exact ⟨0, fun fuel _ hashes =>
      ⟨_, by simp only [World.deleteConnection, fromFound, toFound]; rfl⟩⟩
  | some target =>
  cases typed : nodeInputConnectionType connectionClass with
  | error failure =>
    exact ⟨0, fun fuel _ hashes =>
      ⟨_, by simp only [World.deleteConnection, fromFound, toFound, typed]; rfl⟩⟩
  | ok port =>
  cases connected : (graph.heap target).inputConnectionExists source.nodeId port with
  | error failure =>
    exact ⟨0, fun fuel _ hashes =>
      ⟨_, by simp only [World.deleteConnection, fromFound, toFound, typed, connected]; rfl⟩⟩
  | ok present =>
  cases present with
  | false =>
    exact ⟨0, fun fuel _ hashes =>
      ⟨_, by simp only [World.deleteConnection, fromFound, toFound, typed, connected]; rfl⟩⟩
  | true =>
  obtain ⟨sourceLive, rfl⟩ := getNode_spec fromFound
  obtain ⟨targetLive, rfl⟩ := getNode_spec toFound
  have deleted := connectionDeleted covered sourceLive targetLive typed connected
  have still := deleted.covered covered fun left =>
    leftAllowed left source target fromFound toFound
  have stillLive : target ∈ (graph.deleteLeadToNode source target.nodeId).nodeDb := targetLive
  obtain ⟨final, error, bound, enough⟩ := deleteInputNode_returns target source.nodeId
    connectionClass false stillLive (fun node removed => by simpa only [removed] using still)
  refine ⟨bound, fun fuel large hashes => ?_⟩
  obtain ⟨after, ran⟩ := enough fuel large hashes
  exact ⟨_, by
    simp only [World.deleteConnection, fromFound, toFound, typed, connected]
    exact ran⟩

theorem perform_returns (edit : Edit P)
    (leftAllowed : ∀ fromId toId, edit = .deleteConnection fromId toId 2 → ∀ source target,
      graph.getNode fromId = some source → graph.getNode toId = some target →
      (graph.heap target).leftInput = some source → (graph.heap target).rightInput = some source) :
    ∃ bound, ∀ fuel, bound ≤ fuel → ∀ hashes, ∃ outcome,
      perform environment fuel ⟨graph, hashes⟩ edit = some outcome := by
  have forget : ∀ {operation : Nat → Hashes P → Option (Outcome P)},
      (∃ final error, Returns operation final error) →
      ∃ bound, ∀ fuel, bound ≤ fuel → ∀ hashes, ∃ outcome,
        operation fuel hashes = some outcome := by
    rintro operation ⟨final, error, bound, enough⟩
    refine ⟨bound, fun fuel large hashes => ?_⟩
    obtain ⟨after, ran⟩ := enough fuel large hashes
    exact ⟨_, ran⟩
  cases edit with
  | addNodePromise nodeId nodeType setting =>
    exact forget (addNodeStep_returns covered environment nodeId nodeType setting true)
  | addSettings nodeId nodeType setting =>
    exact forget (addSettings_returns covered environment nodeId nodeType setting)
  | addConnection fromId handle toId connectionClass =>
    exact addConnection_returns covered fromId handle toId connectionClass
  | deleteConnection fromId toId connectionClass =>
    apply deleteConnection_returns covered
    rintro rfl source target
    exact leftAllowed fromId toId rfl source target
  | deleteNode nodeId => exact forget (deleteNode_returns covered nodeId)
  | createGroup | updateGroup | deleteGroup | addNodesToGroup | removeNodesFromGroup
  | setNodePositions | setGroupBounds => exact ⟨0, fun _ _ _ => ⟨_, rfl⟩⟩

end

end Flowfile.Graph
