import Flowfile.GroupTree
import Flowfile.EditOutcomes

/-!
# The tree of groups under edits

Operations on nodes and connections leave the table of groups alone. A node they do not create or
configure keeps its group, so the tree stays sound when the groups they give exist. Deleting a node
prunes its group. Of the group operations one needs care: the parent of a new group has to exist.

For rebuilding it matters when configuring a node raises. With a registered type it does so only if
the node is new and its settings do not allow to create it.
-/

namespace Flowfile.Graph

open List
open Option (bind_eq_some_iff map_eq_some_iff)

variable {P : Type} {kinds : String → Prop} {graph : FlowGraph P}

variable {ref : NodeRef}

namespace Regroups

variable {given : NodeRef → Option Int → Prop} {typed : NodeRef → String → Prop}

/-- Connecting two nodes. -/
theorem connect (graph : FlowGraph P) (target source : NodeRef) (port : InputPort)
    (handle : String) : Regroups given typed graph (graph.connect target source port handle) := by
  have group : ∀ node : FlowNode P,
      (node.connect source port handle).setting.groupId = node.setting.groupId := by
    intro node
    cases port <;> simp [FlowNode.connect, apply_ite]
  have type : ∀ node : FlowNode P, (node.connect source port handle).nodeType = node.nodeType := by
    intro node
    cases port <;> simp [FlowNode.connect, apply_ite]
  rw [FlowGraph.connect]
  exact (modifyNode graph source _ (.inl rfl) (.inl rfl)).trans
    (modifyNode _ target _ (.inl (group _)) (.inl (type _)))

/-- Removing a successor. -/
theorem deleteLeadToNode (graph : FlowGraph P) (ref : NodeRef) (nodeId : Int) :
    Regroups given typed graph (graph.deleteLeadToNode ref nodeId) :=
  modifyNode graph ref _ (.inl rfl) (.inl rfl)

/-- Entering a successor. -/
theorem addLead (graph : FlowGraph P) (ref source : NodeRef) :
    Regroups given typed graph (graph.addLead ref source) := by
  refine modifyNode graph source _ (.inl ?_) (.inl ?_)
  all_goals split <;> rfl

/-- Taking a node out of the table. -/
theorem dropNode (graph : FlowGraph P) (ref : NodeRef) (nodeId : Int) :
    Regroups given typed graph (graph.dropNode ref nodeId) := by
  have dropped : ∀ graph : FlowGraph P, Regroups given typed graph
      { graph with nodeDb := graph.nodeDb.filter fun other => other.nodeId ≠ nodeId } := by
    intro graph
    constructor
    case distinct => exact fun distinct => distinct.sublist (filter_sublist.map _)
    case members => exact fun other live => .inl ⟨(mem_filter.mp live).1, rfl⟩
    case types => exact fun other live => .inl ⟨(mem_filter.mp live).1, rfl⟩
    case groups => rfl
  rw [FlowGraph.dropNode]
  split
  · exact dropped graph
  · exact (fold _ (fun graph source => deleteLeadToNode graph source nodeId) _ graph).trans
      (dropped _)

variable [DecidableEq P] {environment : Environment P} {fuel : Nat} {world after : World P}
  {error : Option FlowError} {handle : String}

/-- Connecting two nodes and resetting them. -/
theorem addNodeConnection {target source : NodeRef} {port : InputPort}
    (returned : world.addNodeConnection fuel target source port handle = some after) :
    Regroups given typed world.graph after.graph := by
  obtain ⟨middle, first, second⟩ := bind_eq_some_iff.mp returned
  rw [resetNode_graph second, resetNode_graph first]
  exact connect world.graph target source port handle

variable {connectionClass : Fin 10}

theorem addConnection {fromId toId : Int}
    (returned : world.addConnection fuel fromId handle toId connectionClass =
      some (after, error)) : Regroups given typed world.graph after.graph := by
  rw [World.addConnection] at returned
  split at returned
  case h_1 source target _ _ =>
    obtain ⟨verdict, _, continued⟩ := bind_eq_some_iff.mp returned
    split at continued
    case h_1 =>
      cases continued
      exact refl _
    case h_2 =>
      cases continued
      exact refl _
    case h_3 =>
      obtain ⟨connected, ran, joined⟩ := bind_eq_some_iff.mp continued
      cases joined
      exact addNodeConnection ran
  case h_2 =>
    cases returned
    exact refl _

variable {nodeId : Int}

theorem deleteInputNode
    {complete : Bool} (returned : world.deleteInputNode fuel ref nodeId connectionClass complete =
      some (after, error)) : Regroups given typed world.graph after.graph := by
  rw [deleteInputNode_cases returned]
  split
  case h_1 node removed =>
    apply modifyNode
    all_goals
      rcases withoutInput_cases _ _ _ _ _ removed with
        ⟨_, _, _, _, rfl⟩ | ⟨_, _, rfl⟩ | ⟨_, _, _, rfl⟩ <;> exact .inl rfl
  case h_2 => exact refl _

theorem deleteConnection {fromId toId : Int}
    (returned : world.deleteConnection fuel fromId toId connectionClass = some (after, error)) :
    Regroups given typed world.graph after.graph := by
  rw [World.deleteConnection] at returned
  split at returned
  case h_1 source target _ _ =>
    split at returned
    case h_1 =>
      cases returned
      exact refl _
    case h_2 =>
      split at returned
      case h_1 =>
        cases returned
        exact refl _
      case h_2 =>
        cases returned
        exact refl _
      case h_3 =>
        exact (deleteLeadToNode world.graph source toId).trans (deleteInputNode returned)
  case h_2 =>
    cases returned
    exact refl _

/-- Cutting a node out of the inputs of its successors. -/
theorem detachFromTargets (targets : List NodeRef)
    (returned : World.detachFromTargets fuel nodeId targets world = some (after, error)) :
    Regroups given typed world.graph after.graph := by
  induction targets generalizing world with
  | nil =>
    simp only [World.detachFromTargets, Option.some.injEq, Prod.mk.injEq] at returned
    exact returned.1 ▸ refl _
  | cons target rest ih =>
    obtain ⟨⟨middle, failed⟩, first, continued⟩ := bind_eq_some_iff.mp returned
    have still : Regroups given typed world.graph middle.graph := deleteInputNode first
    cases failed with
    | some failure =>
      cases continued
      exact still
    | none => exact still.trans (ih continued)

theorem deleteNode (returned : world.deleteNode fuel nodeId = some (after, error)) :
    ∃ middle groupId, Regroups (fun _ _ => False) (fun _ _ => False) world.graph middle ∧
      (after.graph = middle ∨ after.graph = middle.pruneGroup groupId) ∧
      (error = none → after.graph.getNode nodeId = none) := by
  rw [World.deleteNode] at returned
  split at returned
  case h_1 =>
    cases returned
    exact ⟨world.graph, none, refl _, .inl rfl, fun impossible => by cases impossible⟩
  case h_2 ref _ =>
    obtain ⟨⟨detached, failed⟩, first, continued⟩ := bind_eq_some_iff.mp returned
    have cut : Regroups (fun _ _ => False) (fun _ _ => False) world.graph detached.graph :=
      detachFromTargets _ first
    cases failed with
    | some failure =>
      cases continued
      exact ⟨_, none, cut, .inl rfl, fun impossible => by cases impossible⟩
    | none =>
    cases continued
    refine ⟨_, _, cut.trans (dropNode _ ref nodeId), .inr rfl, fun _ => ?_⟩
    have sameTable := (SameWiring.pruneGroup (detached.graph.dropNode ref nodeId)
      (world.graph.heap ref).setting.groupId).nodeDb
    rw [FlowGraph.getNode, sameTable]
    simp [FlowGraph.dropNode]

end Regroups

/-- A node of the table is found. -/
theorem getNode_isSome (live : ref ∈ graph.nodeDb) : (graph.getNode ref.nodeId).isSome :=
  List.find?_isSome.mpr ⟨ref, live, decide_eq_true rfl⟩

variable {initialised : Bool} {ready : Prop}

section

variable [DecidableEq P] {environment : Environment P} {fuel : Nat} {world after : World P}
  {error : Option FlowError} {given : NodeRef → Option Int → Prop} {typed : NodeRef → String → Prop}
  {nodeId : Int} {nodeType : String} {setting : NodeSetting P}

/-- What configuring a node does to the tree. No node is lost, the node is there unless the
operation raises, and with a registered type it does not raise when it is ready. -/
structure Configured (environment : Environment P) (given : NodeRef → Option Int → Prop)
    (typed : NodeRef → String → Prop) (nodeId : Int) (nodeType : String) (ready : Prop)
    (before after : FlowGraph P) (error : Option FlowError) : Prop where
  regroups : Regroups given typed before after
  stays : ∀ ref ∈ before.nodeDb, ref ∈ after.nodeDb
  present : error = none → (after.getNode nodeId).isSome
  succeeds : (environment.template nodeType).isSome → ready → error = none

theorem createNode_configured (free : world.graph.getNode nodeId = none)
    (group : ∀ ref, ref.nodeId = nodeId → given ref setting.groupId)
    (type : (environment.template nodeType).isSome →
      ∀ ref, ref.nodeId = nodeId → typed ref nodeType)
    (returned : world.createNode environment fuel nodeId nodeType setting = some (after, error)) :
    Configured environment given typed nodeId nodeType True world.graph after.graph error := by
  rw [World.createNode] at returned
  split at returned
  case h_1 missing =>
    cases returned
    exact ⟨.refl _, fun _ live => live, fun impossible => (by cases impossible),
      fun registered => by simp [missing] at registered⟩
  case h_2 nodeTemplate known =>
    obtain ⟨reset, ran, ⟨⟩⟩ := bind_eq_some_iff.mp returned
    rw [resetNode_graph ran]
    have absent : ∀ other ∈ world.graph.nodeDb, other.nodeId ≠ nodeId := by
      intro other live
      simpa using List.find?_eq_none.mp free other live
    have apart : ∀ other ∈ world.graph.nodeDb,
        other ≠ (⟨nodeId, world.graph.nextSerial⟩ : NodeRef) := by
      rintro other live rfl
      exact absent _ live rfl
    refine ⟨?_, fun _ live => mem_append_left _ live, fun _ => ?_, fun _ _ => rfl⟩
    case refine_2 =>
      have entered : (⟨nodeId, world.graph.nextSerial⟩ : NodeRef) ∈
          world.graph.nodeDb ++ [⟨nodeId, world.graph.nextSerial⟩] := by simp
      exact List.find?_isSome.mpr ⟨_, entered, decide_eq_true rfl⟩
    constructor
    case distinct =>
      intro distinct
      rw [map_append]
      refine nodup_append.mpr ⟨distinct, nodup_singleton _, ?_⟩
      rintro id mem _ new rfl
      obtain ⟨other, live, own⟩ := mem_map.mp mem
      exact absent other live (own.trans (mem_singleton.mp new))
    case members =>
      intro ref live
      rcases mem_append.mp live with old | new
      · exact .inl ⟨old, by simp [apart ref old]⟩
      · obtain rfl := mem_singleton.mp new
        refine .inr ?_
        simpa using group _ rfl
    case types =>
      intro ref live
      rcases mem_append.mp live with old | new
      · exact .inl ⟨old, by simp [apart ref old]⟩
      · obtain rfl := mem_singleton.mp new
        refine .inr ?_
        simpa using type (by simp [known]) _ rfl
    case groups => rfl

/-- Giving a node new settings. It raises only when its type is not registered. -/
theorem updateNode_regroups (group : given ref setting.groupId)
    (returned : world.updateNode environment fuel ref setting = some (after, error)) :
    Regroups given typed world.graph after.graph ∧ after.graph.nodeDb = world.graph.nodeDb ∧
      ((environment.template (world.graph.heap ref).nodeType).isSome → error = none) := by
  obtain ⟨⟨hash, hashed⟩, _, continued⟩ := bind_eq_some_iff.mp returned
  have listed : Regroups given typed world.graph
      ((world.graph.heap ref).allInputs.foldl (FlowGraph.addLead · ref) world.graph) :=
    .fold _ (fun graph source => .addLead graph ref source) _ _
  have same : ∀ (sources : List NodeRef) (graph : FlowGraph P),
      (sources.foldl (FlowGraph.addLead · ref) graph).nodeDb = graph.nodeDb ∧
        ((sources.foldl (FlowGraph.addLead · ref) graph).heap ref).nodeType =
          (graph.heap ref).nodeType := by
    intro sources
    induction sources with
    | nil => exact fun _ => ⟨rfl, rfl⟩
    | cons source rest ih =>
      intro graph
      obtain ⟨sameTable, sameType⟩ := ih (graph.addLead ref source)
      refine ⟨sameTable, sameType.trans ?_⟩
      rw [FlowGraph.addLead]
      by_cases own : ref = source
      · rw [own, modifyNode_heap_self]
        split <;> rfl
      · rw [modifyNode_heap_of_ne _ _ _ _ own]
  obtain ⟨sameTable, sameType⟩ := same (world.graph.heap ref).allInputs world.graph
  dsimp only at continued
  split at continued
  case h_1 missing =>
    cases continued
    rw [sameType] at missing
    exact ⟨listed, sameTable, fun registered => by simp [missing] at registered⟩
  case h_2 nodeTemplate known =>
    obtain ⟨reset, ran, ⟨⟩⟩ := bind_eq_some_iff.mp continued
    rw [resetNode_graph ran]
    dsimp only
    exact ⟨listed.trans (.modifyNode _ ref _ (.inr group) (.inl rfl)), sameTable, fun _ => rfl⟩

theorem addNodeStep_configured
    (sameType : world.graph.typeChanges nodeId nodeType = false)
    (group : ∀ ref, ref.nodeId = nodeId → given ref setting.groupId)
    (type : (environment.template nodeType).isSome →
      ∀ ref, ref.nodeId = nodeId → typed ref nodeType)
    (returned : world.addNodeStep environment fuel nodeId nodeType setting initialised =
      some (after, error)) :
    Configured environment given typed nodeId nodeType
      (initialised = true ∨ (world.graph.getNode nodeId).isSome) world.graph after.graph error := by
  rw [World.addNodeStep] at returned
  split at returned
  case h_1 missing =>
    split at returned
    case isTrue =>
      have created := createNode_configured missing group type returned
      exact { created with succeeds := fun registered _ => created.succeeds registered trivial }
    case isFalse uninitialised =>
      cases returned
      refine ⟨.refl _, fun _ live => live, fun impossible => (by cases impossible), ?_⟩
      intro _ ready
      simp [uninitialised, missing] at ready
  case h_2 ref found =>
    obtain ⟨live, rfl⟩ := Covered.getNode_spec found
    split at returned
    case isTrue same =>
      obtain ⟨regroups, sameTable, succeeds⟩ : Regroups given typed world.graph after.graph ∧ _ :=
        updateNode_regroups (group ref rfl) returned
      exact ⟨regroups, fun _ mem => sameTable ▸ mem,
        fun _ => getNode_isSome (sameTable ▸ live),
        fun registered _ => succeeds (same ▸ registered)⟩
    case isFalse different =>
      have found' : world.graph.getNode ref.nodeId = some ref := found
      simp [FlowGraph.typeChanges, found', different] at sameType

theorem addInPlace_configured (group : ∀ ref, ref.nodeId = nodeId → given ref setting.groupId)
    (type : ∀ ref, ref.nodeId = nodeId → typed ref nodeType)
    (returned : world.addInPlace environment fuel nodeId nodeType setting = some (after, error)) :
    Configured environment given typed nodeId nodeType True world.graph after.graph error := by
  rw [World.addInPlace] at returned
  split at returned
  case h_1 missing => exact createNode_configured missing group (fun _ => type) returned
  case h_2 ref found =>
    obtain ⟨live, rfl⟩ := Covered.getNode_spec found
    obtain ⟨reset, ran, ⟨⟩⟩ := bind_eq_some_iff.mp returned
    rw [resetNode_graph ran]
    dsimp only
    exact ⟨.modifyNode _ ref _ (.inr (group ref rfl)) (.inr (type ref rfl)), fun _ live => live,
      fun _ => getNode_isSome live, fun _ _ => rfl⟩

omit [DecidableEq P] in
theorem Configured.starting {before : FlowGraph P}
    (configured : Configured environment given typed nodeId nodeType ready before
      world.graph error) (starting : Bool) (id : Int) :
    Configured environment given typed nodeId nodeType ready before
      (startingWhen starting id (world, error)).1.graph
      (startingWhen starting id (world, error)).2 := by
  obtain ⟨sameError, _, flowStarts, sameGraph⟩ := startingWhen_graph starting id (world, error)
  rw [sameError, sameGraph]
  obtain ⟨⟨distinct, members, types, groups⟩, stays, present, succeeds⟩ := configured
  exact ⟨⟨distinct, members, types, groups⟩, stays, present, succeeds⟩

theorem addSettings_configured
    (keeps : (Edit.addSettings nodeId nodeType setting).deletedId environment world.graph = none)
    (group : ∀ ref, ref.nodeId = nodeId → given ref setting.groupId)
    (type : (environment.adder nodeType).isSome → ∀ ref, ref.nodeId = nodeId → typed ref nodeType)
    (returned : world.addSettings environment fuel nodeId nodeType setting = some (after, error)) :
    Configured environment given typed nodeId nodeType
      ((environment.adder nodeType).isSome ∧ (world.graph.getNode nodeId).isSome)
      world.graph after.graph error := by
  rw [World.addSettings] at returned
  split at returned
  case h_1 missing =>
    cases returned
    exact ⟨.refl _, fun _ live => live, fun impossible => (by cases impossible),
      fun _ ready => by simp [missing] at ready⟩
  case h_2 initialised starting known =>
    have sameType : world.graph.typeChanges nodeId nodeType = false := by
      simpa [Edit.deletedId, known] using keeps
    obtain ⟨⟨middle, failed⟩, added, finished⟩ := map_eq_some_iff.mp returned
    have configured := (addNodeStep_configured sameType group
      (fun _ => type (by simp [known])) added).starting starting nodeId
    rw [finished] at configured
    exact { configured with
      succeeds := fun template ready => configured.succeeds template (.inr ready.2) }
  case h_3 starting known =>
    obtain ⟨⟨middle, failed⟩, added, finished⟩ := map_eq_some_iff.mp returned
    have configured := (addInPlace_configured group (type (by simp [known])) added).starting
      starting nodeId
    rw [finished] at configured
    exact { configured with succeeds := fun template _ => configured.succeeds template trivial }
  case h_4 known =>
    have type := type (by simp [known])
    obtain ⟨⟨middle, failed⟩, placed, continued⟩ := bind_eq_some_iff.mp returned
    obtain ⟨⟨first, firstFailed⟩, added, finished⟩ := map_eq_some_iff.mp placed
    have inPlace := (addInPlace_configured group type added).starting true nodeId
    rw [finished] at inPlace
    cases failed with
    | some failure =>
      cases continued
      exact { inPlace with succeeds := fun template _ => inPlace.succeeds template trivial }
    | none =>
    obtain ⟨sameError, _, flowStarts, sameGraph⟩ := startingWhen_graph true nodeId
      (first, firstFailed)
    rw [finished] at sameError sameGraph
    dsimp only at sameError sameGraph
    subst sameError
    have sameType : middle.graph.typeChanges nodeId nodeType = false := by
      rw [sameGraph]
      exact addInPlace_type added
    have again := addNodeStep_configured sameType group (fun _ => type) continued
    exact ⟨inPlace.regroups.trans again.regroups,
      fun ref live => again.stays ref (inPlace.stays ref live), again.present,
      fun template _ => again.succeeds template (.inr (inPlace.present rfl))⟩

end

section

variable [DecidableEq P] {environment : Environment P} {fuel : Nat} {world after : World P}
  {error : Option FlowError} {nodeId : Int}

theorem GroupTree.deleteNode (tree : GroupTree kinds world.graph)
    (returned : world.deleteNode fuel nodeId = some (after, error)) :
    GroupTree kinds after.graph := by
  obtain ⟨middle, groupId, regroups, result, _⟩ := Regroups.deleteNode returned
  have cut := regroups.tree tree (fun _ _ given => given.elim) fun _ _ typed => typed.elim
  rcases result with same | same
  · rwa [same]
  · rw [same]
    exact cut.pruneGroup groupId

def Environment.Registered (environment : Environment P) (nodeType : String) : Prop :=
  (environment.template nodeType).isSome

/-- The group that an edit gives to a node is none, or exists and is not lost meanwhile. A group is
created at the top or in a parent that exists. -/
def KeepsGroupTree (environment : Environment P) (world : World P) (edit : Edit P) : Prop :=
  match edit with
  | .addNodePromise _ _ setting | .addSettings _ _ setting =>
    ∀ groupId, setting.groupId = some groupId →
      groupId ∈ groupIds world.graph.groups ∧ edit.deletedId environment world.graph = none
  | .createGroup _ _ _ _ parentGroupId _ =>
    ∀ parentId, parentGroupId = some parentId → parentId ∈ groupIds world.graph.groups
  | _ => True

variable {nodeType : String}

omit [DecidableEq P] in
theorem Configured.tree {groupId : Option Int}
    (configured : Configured environment (fun _ other => groupId = other)
      (fun _ type => environment.Registered type) nodeId nodeType ready world.graph after.graph
      error)
    (sound : GroupTree environment.Registered world.graph)
    (known : ∀ id, groupId = some id → id ∈ groupIds world.graph.groups) :
    GroupTree environment.Registered after.graph :=
  configured.regroups.tree sound (fun _ id given => known id given) fun _ _ typed => typed

variable {setting : NodeSetting P}

theorem GroupTree.addNodeStep (tree : GroupTree environment.Registered world.graph)
    (known : ∀ groupId, setting.groupId = some groupId →
      groupId ∈ groupIds world.graph.groups ∧ world.graph.typeChanges nodeId nodeType = false)
    (returned : world.addNodeStep environment fuel nodeId nodeType setting initialised =
      some (after, error)) : GroupTree environment.Registered after.graph := by
  cases changes : world.graph.typeChanges nodeId nodeType with
  | false =>
    exact Configured.tree (addNodeStep_configured changes (fun _ _ => rfl)
      (fun registered _ _ => registered) returned) tree fun groupId names => (known groupId names).1
  | true =>
  -- the old node is deleted, and the new one is in no group
  have outside : ∀ groupId, setting.groupId ≠ some groupId := by
    intro groupId names
    simp [changes] at known
    exact known groupId names
  rw [World.addNodeStep] at returned
  split at returned
  case h_1 missing => simp [FlowGraph.typeChanges, missing] at changes
  case h_2 ref found =>
    split at returned
    case isTrue same => simp [FlowGraph.typeChanges, found, same] at changes
    case isFalse =>
      obtain ⟨⟨middle, failed⟩, deleting, continued⟩ := bind_eq_some_iff.mp returned
      have still := tree.deleteNode deleting
      cases failed with
      | some failure =>
        cases continued
        exact still
      | none =>
      obtain ⟨_, _, _, _, free⟩ := Regroups.deleteNode deleting
      dsimp only at continued
      split at continued
      case isTrue =>
        exact Configured.tree (createNode_configured (free rfl) (fun _ _ => rfl)
          (fun registered _ _ => registered) continued) still
          fun groupId names => absurd names (outside groupId)
      case isFalse =>
        cases continued
        exact still

theorem GroupTree.addSettings
    (registered : ∀ nodeType, (environment.adder nodeType).isSome → environment.Registered nodeType)
    (tree : GroupTree environment.Registered world.graph)
    (known : ∀ groupId, setting.groupId = some groupId → groupId ∈ groupIds world.graph.groups ∧
      (Edit.addSettings nodeId nodeType setting).deletedId environment world.graph = none)
    (returned : world.addSettings environment fuel nodeId nodeType setting = some (after, error)) :
    GroupTree environment.Registered after.graph := by
  cases deleted : (Edit.addSettings nodeId nodeType setting).deletedId environment
      world.graph with
  | none =>
    exact Configured.tree (addSettings_configured deleted (fun _ _ => rfl)
      (fun configurable _ _ => registered nodeType configurable) returned) tree
      fun groupId names => (known groupId names).1
  | some id =>
    -- only a step deletes the node
    rw [World.addSettings] at returned
    split at returned
    case h_2 initialised starting adder =>
      obtain ⟨⟨middle, failed⟩, added, finished⟩ := map_eq_some_iff.mp returned
      have stepped : GroupTree environment.Registered middle.graph := by
        refine tree.addNodeStep (fun groupId names => ?_) added
        exact absurd (deleted.symm.trans (known groupId names).2) (by simp)
      obtain ⟨_, _, flowStarts, sameGraph⟩ := startingWhen_graph starting nodeId (middle, failed)
      rw [finished] at sameGraph
      rw [show after.graph = { middle.graph with flowStarts } from sameGraph]
      exact ⟨stepped.distinctNodes, stepped.types, stepped.table, stepped.members⟩
    all_goals
      rename_i adder
      simp [Edit.deletedId, adder] at deleted

theorem GroupTree.perform
    (registered : ∀ nodeType, (environment.adder nodeType).isSome → environment.Registered nodeType)
    (tree : GroupTree environment.Registered world.graph) {edit : Edit P}
    (keeps : KeepsGroupTree environment world edit)
    (returned : world.perform environment fuel edit = some (after, error)) :
    GroupTree environment.Registered after.graph := by
  have done : ∀ outcome : Outcome P, GroupTree environment.Registered outcome.1.graph →
      some outcome = some (after, error) → GroupTree environment.Registered after.graph := by
    intro outcome sound joined
    rw [Option.some.inj joined] at sound
    exact sound
  have onGroup : ∀ (groupId : Int) (change : FlowGraph P → FlowGraph P),
      GroupTree environment.Registered (change world.graph) →
      GroupTree environment.Registered (world.onGroup groupId change).1.graph := by
    intro groupId change sound
    rw [World.onGroup]
    split
    · exact tree
    · exact sound
  have unchanged : ∀ graph : FlowGraph P,
      Regroups (fun _ _ => False) (fun _ _ => False) world.graph graph →
      GroupTree environment.Registered graph := fun graph regroups =>
    regroups.tree tree (fun _ _ given => given.elim) fun _ _ typed => typed.elim
  cases edit with
  | addNodePromise nodeId nodeType setting =>
    refine tree.addNodeStep (fun groupId names => ?_) returned
    obtain ⟨known, stays⟩ := keeps groupId names
    exact ⟨known, by simpa [Edit.deletedId] using stays⟩
  | addSettings nodeId nodeType setting => exact tree.addSettings registered keeps returned
  | addConnection fromId handle toId connectionClass =>
    exact unchanged _ (.addConnection returned)
  | deleteConnection fromId toId connectionClass => exact unchanged _ (.deleteConnection returned)
  | deleteNode nodeId => exact tree.deleteNode returned
  | createGroup name nodeIds color bounds parentGroupId childGroupIds =>
    exact done _ (tree.createGroup name nodeIds color bounds childGroupIds keeps) returned
  | updateGroup groupId name color bounds collapsed =>
    exact done _ (onGroup groupId _ (tree.updateGroup groupId name color bounds collapsed)) returned
  | deleteGroup groupId => exact done _ (tree.deleteGroup groupId) returned
  | addNodesToGroup groupId nodeIds =>
    exact done _ (onGroup groupId _ (tree.addNodesToGroup groupId nodeIds)) returned
  | removeNodesFromGroup nodeIds =>
    exact done _ (tree.removeNodesFromGroup environment.setOrder nodeIds) returned
  | setNodePositions updates =>
    exact done _ (unchanged _ (.setNodePositions world.graph updates)) returned
  | setGroupBounds updates => exact done _ (tree.setGroupBounds updates) returned

end

end Flowfile.Graph
