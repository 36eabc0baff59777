import Flowfile.NodeExecutor
import Flowfile.GroupTree
import Flowfile.NodeStore
import Flowfile.Library.EventRuns

/-!
# Groups and execution

Groups are meant to be visual only. The group operations leave connections, cached hashes and the
state of executions alone, and of the settings they change nothing but the group of a node. That
field is hashed with the other settings, however.

So an operation that leaves every node in its group changes no hash, no need for a reset and no
decision about execution. One that moves a node changes the hash of its settings, and a node whose
cached hash was up to date needs a reset from then on.
-/

namespace Flowfile.Graph

open Library.EventRuns List

variable {P : Type}

inductive GroupOperation where
  | createGroup (name : String) (nodeIds : List Int) (color : Option String)
      (bounds : Option Box) (parentGroupId : Option Int) (childGroupIds : List Int)
  | updateGroup (groupId : Int) (name color : Option String) (bounds : Option Box)
      (collapsed : Option Bool)
  | deleteGroup (groupId : Int)
  | addNodesToGroup (groupId : Int) (nodeIds : List Int)
  | removeNodesFromGroup (nodeIds : List Int)

def FlowGraph.operate (setOrder : List Int → List Int) (graph : FlowGraph P) :
    GroupOperation → FlowGraph P
  | .createGroup name nodeIds color bounds parentGroupId childGroupIds =>
    graph.createGroup name nodeIds color bounds parentGroupId childGroupIds
  | .updateGroup groupId name color bounds collapsed =>
    if (graph.getGroup groupId).isSome then graph.updateGroup groupId name color bounds collapsed
    else graph
  | .deleteGroup groupId => graph.deleteGroup groupId
  | .addNodesToGroup groupId nodeIds => graph.addNodesToGroup groupId nodeIds
  | .removeNodesFromGroup nodeIds => graph.removeNodesFromGroup setOrder nodeIds

open FlowGraph (operate)

def FlowNode.inGroup (node : FlowNode P) (groupId : Option Int) : FlowNode P :=
  { node with setting := { node.setting with groupId } }

/-- Of the objects only those in the node table change, and they change nothing but their group. -/
structure OnlyGroups (before after : FlowGraph P) : Prop where
  nodeDb : after.nodeDb = before.nodeDb
  inGroups : ∀ ref, after.heap ref = (before.heap ref).inGroup (after.heap ref).setting.groupId
  outside : ∀ ref, ref ∉ before.nodeDb → after.heap ref = before.heap ref

namespace OnlyGroups

variable {before middle after : FlowGraph P}

/-- A change of the table of groups. -/
theorem ofHeap (nodeDb : after.nodeDb = before.nodeDb) (heap : after.heap = before.heap) :
    OnlyGroups before after :=
  ⟨nodeDb, fun _ => by rw [heap]; rfl, fun _ _ => by rw [heap]⟩

/-- Changes follow each other. -/
theorem trans (first : OnlyGroups before middle) (second : OnlyGroups middle after) :
    OnlyGroups before after where
  nodeDb := second.nodeDb.trans first.nodeDb
  inGroups ref := by
    rw [second.inGroups ref, first.inGroups ref]
    rfl
  outside ref absent :=
    (second.outside ref (first.nodeDb ▸ absent)).trans (first.outside ref absent)

/-- A fold of such changes. -/
theorem fold {α : Type} (step : FlowGraph P → α → FlowGraph P)
    (each : ∀ graph value, OnlyGroups graph (step graph value)) (values : List α)
    (graph : FlowGraph P) : OnlyGroups graph (values.foldl step graph) := by
  induction values generalizing graph with
  | nil => exact ofHeap rfl rfl
  | cons value rest ih =>
    exact (each graph value).trans (ih _)

theorem setNodeGroup (graph : FlowGraph P) (groupId : Option Int) (nodeId : Int) :
    OnlyGroups graph (graph.setNodeGroup groupId nodeId) := by
  rw [FlowGraph.setNodeGroup]
  split
  case h_1 => exact ofHeap rfl rfl
  case h_2 ref found =>
    have live : ref ∈ graph.nodeDb := mem_of_find?_eq_some found
    constructor
    case nodeDb => rfl
    case inGroups =>
      intro other
      by_cases own : other = ref
      · rw [own, modifyNode_heap_self]
        rfl
      · rw [modifyNode_heap_of_ne _ _ _ _ own]
        rfl
    case outside =>
      intro other absent
      exact modifyNode_heap_of_ne _ _ _ _ fun own => absent (own ▸ live)

theorem heap_eq (only : OnlyGroups before after)
    (kept : ∀ ref ∈ before.nodeDb,
      (after.heap ref).setting.groupId = (before.heap ref).setting.groupId) :
    after.heap = before.heap := by
  funext ref
  by_cases live : ref ∈ before.nodeDb
  · rw [only.inGroups ref, kept ref live]
    rfl
  · exact only.outside ref live

end OnlyGroups

/-- Refitting a group leaves the objects alone. -/
theorem recomputeGroupBounds_heap (graph : FlowGraph P) (groupId : Int) :
    (graph.recomputeGroupBounds groupId).heap = graph.heap := by
  rw [FlowGraph.recomputeGroupBounds]
  split <;> rfl

/-- A fold of steps that leave the objects alone leaves them alone. -/
theorem foldl_heap {α : Type} {step : FlowGraph P → α → FlowGraph P}
    (each : ∀ graph value, (step graph value).heap = graph.heap) (values : List α)
    (graph : FlowGraph P) : (values.foldl step graph).heap = graph.heap := by
  induction values generalizing graph with
  | nil => rfl
  | cons value rest ih =>
    rw [foldl_cons, ih, each]

def GroupOperation.groupAfter (graph : FlowGraph P) (ref : NodeRef) : GroupOperation → Option Int
  | .createGroup _ nodeIds _ _ _ _ =>
    if ref.nodeId ∈ nodeIds then some graph.nextGroupId else (graph.heap ref).setting.groupId
  | .updateGroup _ _ _ _ _ => (graph.heap ref).setting.groupId
  | .deleteGroup groupId =>
    match graph.getGroup groupId with
    | none => (graph.heap ref).setting.groupId
    | some group =>
      if (graph.heap ref).setting.groupId = some groupId then group.parentGroupId
      else (graph.heap ref).setting.groupId
  | .addNodesToGroup groupId nodeIds =>
    if (graph.getGroup groupId).isSome ∧ ref.nodeId ∈ nodeIds then some groupId
    else (graph.heap ref).setting.groupId
  | .removeNodesFromGroup nodeIds =>
    if ref.nodeId ∈ nodeIds then none else (graph.heap ref).setting.groupId

def KeepsMembers (graph : FlowGraph P) (operation : GroupOperation) : Prop :=
  ∀ ref ∈ graph.nodeDb, operation.groupAfter graph ref = (graph.heap ref).setting.groupId

variable {graph : FlowGraph P}

structure MovesNodes (graph after : FlowGraph P) (operation : GroupOperation) : Prop where
  only : OnlyGroups graph after
  moved : (graph.nodeDb.map NodeRef.nodeId).Nodup → ∀ ref ∈ graph.nodeDb,
    (after.heap ref).setting.groupId = operation.groupAfter graph ref

theorem MovesNodes.ofSet {base after : FlowGraph P} {operation : GroupOperation}
    {groupId : Option Int} {nodeIds : List Int} (baseDb : base.nodeDb = graph.nodeDb)
    (baseHeap : base.heap = graph.heap) (nodeDb : after.nodeDb = graph.nodeDb)
    (heap : after.heap = (nodeIds.foldl (FlowGraph.setNodeGroup · groupId) base).heap)
    (moved : (graph.nodeDb.map NodeRef.nodeId).Nodup → ∀ ref ∈ graph.nodeDb,
      operation.groupAfter graph ref =
        if ref.nodeId ∈ nodeIds then groupId else (graph.heap ref).setting.groupId) :
    MovesNodes graph after operation where
  only := by
    have filled := (OnlyGroups.ofHeap baseDb baseHeap).trans
      (.fold _ (OnlyGroups.setNodeGroup · groupId) nodeIds base)
    exact filled.trans (.ofHeap (nodeDb.trans filled.nodeDb.symm) heap)
  moved distinct ref live := by
    rw [heap, groupId_setNodeGroups (baseDb ▸ distinct) groupId nodeIds (baseDb ▸ live), baseHeap,
      moved distinct ref live]

theorem removeNodes_heap (nodeIds : List Int) (graph : FlowGraph P) (affected : List Int) :
    (nodeIds.foldl (fun (graph, affected) nodeId =>
      match FlowGraph.groupOfNode graph nodeId with
      | none => (graph, affected)
      | some groupId => (FlowGraph.setNodeGroup graph none nodeId, affected ++ [groupId]))
      (graph, affected)).1 = nodeIds.foldl (FlowGraph.setNodeGroup · none) graph := by
  have passed : ∀ (graph : FlowGraph P) (nodeId : Int), graph.groupOfNode nodeId = none →
      graph.setNodeGroup none nodeId = graph := by
    intro graph nodeId ungrouped
    rw [FlowGraph.setNodeGroup]
    cases found : graph.getNode nodeId with
    | none => rfl
    | some ref =>
    rw [FlowGraph.groupOfNode, found, Option.bind_some] at ungrouped
    have same : ({ graph.heap ref with
        setting := { (graph.heap ref).setting with groupId := none } } : FlowNode P) =
        graph.heap ref := by
      rw [← ungrouped]
    simp [FlowGraph.modifyNode, same]
  induction nodeIds generalizing graph affected with
  | nil => rfl
  | cons nodeId rest ih =>
    rw [foldl_cons, foldl_cons]
    dsimp only
    split
    case h_1 ungrouped => rw [ih, passed graph nodeId ungrouped]
    case h_2 => rw [ih]

theorem operate_moves (setOrder : List Int → List Int) (graph : FlowGraph P)
    (operation : GroupOperation) :
    MovesNodes graph (graph.operate setOrder operation) operation := by
  cases operation with
  | createGroup name nodeIds color bounds parentGroupId childGroupIds =>
    have adopted : ∀ (graph : FlowGraph P) (groupId : Int),
        (childGroupIds.foldl (fun graph childId =>
          if (FlowGraph.getGroup graph childId).isSome &&
              !FlowGraph.isAncestorGroup graph childId groupId then
            FlowGraph.modifyGroup graph childId fun child =>
              { child with parentGroupId := some groupId }
          else graph) graph).heap = graph.heap := by
      intro graph groupId
      refine foldl_heap (fun graph childId => ?_) childGroupIds graph
      split <;> rfl
    obtain ⟨base, baseDb, baseHeap, heap⟩ : ∃ base : FlowGraph P,
        base.nodeDb = graph.nodeDb ∧ base.heap = graph.heap ∧
        (graph.createGroup name nodeIds color bounds parentGroupId childGroupIds).heap =
          (nodeIds.foldl (FlowGraph.setNodeGroup · (some graph.nextGroupId)) base).heap := by
      rw [FlowGraph.createGroup]
      split
      · refine ⟨_, ?_, ?_, (recomputeGroupBounds_heap _ _).trans (adopted _ _)⟩ <;> rfl
      · refine ⟨_, ?_, ?_, adopted _ _⟩ <;> rfl
    exact .ofSet baseDb baseHeap (SameWiring.createGroup graph name nodeIds color bounds
      parentGroupId childGroupIds).nodeDb heap fun _ _ _ => rfl
  | updateGroup groupId name color bounds collapsed =>
    have same : (graph.operate setOrder (.updateGroup groupId name color bounds collapsed)).heap =
          graph.heap ∧
        (graph.operate setOrder (.updateGroup groupId name color bounds collapsed)).nodeDb =
          graph.nodeDb := by
      rw [operate]
      split <;> exact ⟨rfl, rfl⟩
    exact ⟨.ofHeap same.2 same.1, fun _ ref _ => by rw [same.1]; rfl⟩
  | deleteGroup groupId =>
    cases found : graph.getGroup groupId with
    | none =>
      have same : graph.deleteGroup groupId = graph := by rw [FlowGraph.deleteGroup, found]
      rw [operate, same]
      exact ⟨.ofHeap rfl rfl, fun _ ref _ => by rw [GroupOperation.groupAfter, found]⟩
    | some group =>
    refine .ofSet rfl rfl (SameWiring.deleteGroup graph groupId).nodeDb
      (?_ : _ = ((graph.memberNodeIds groupId).foldl
        (FlowGraph.setNodeGroup · group.parentGroupId) graph).heap) fun distinct ref live => ?_
    · rw [operate, FlowGraph.deleteGroup, found]
      dsimp only
      rw [modifyGroups_lift]
      rfl
    · have mem : ref.nodeId ∈ graph.memberNodeIds groupId ↔
          (graph.heap ref).setting.groupId = some groupId := by
        constructor
        · intro listed
          obtain ⟨other, among, own⟩ := mem_map.mp listed
          obtain ⟨otherLive, names⟩ := mem_filter.mp among
          rw [inj_on_of_nodup_map distinct live otherLive own.symm]
          exact of_decide_eq_true names
        · exact fun names => mem_map_of_mem
            (mem_filter.mpr ⟨live, decide_eq_true names⟩)
      rw [GroupOperation.groupAfter, found]
      simp only [mem]
  | addNodesToGroup groupId nodeIds =>
    cases found : graph.getGroup groupId with
    | none =>
      have same : graph.addNodesToGroup groupId nodeIds = graph := by
        rw [FlowGraph.addNodesToGroup, found]
      rw [operate, same]
      exact ⟨.ofHeap rfl rfl, fun _ ref _ => by simp [GroupOperation.groupAfter, found]⟩
    | some group =>
      refine .ofSet rfl rfl (SameWiring.addNodesToGroup graph groupId nodeIds).nodeDb
        (?_ : _ = (nodeIds.foldl (FlowGraph.setNodeGroup · (some groupId)) graph).heap)
        fun _ ref _ => by simp [GroupOperation.groupAfter, found]
      rw [operate, FlowGraph.addNodesToGroup, found]
      exact recomputeGroupBounds_heap _ _
  | removeNodesFromGroup nodeIds =>
    refine .ofSet rfl rfl (SameWiring.removeNodesFromGroup setOrder graph nodeIds).nodeDb
      (?_ : _ = (nodeIds.foldl (FlowGraph.setNodeGroup · none) graph).heap) fun _ _ _ => rfl
    rw [operate, FlowGraph.removeNodesFromGroup, ← removeNodes_heap nodeIds graph []]
    refine foldl_heap (fun graph groupId => ?_) _ _
    split
    · rfl
    · exact recomputeGroupBounds_heap graph groupId

theorem groupId_of_settingsHash {other : FlowGraph P} {ref : NodeRef}
    (same : settingsHash other ref = settingsHash graph ref) :
    (other.heap ref).setting.groupId = (graph.heap ref).setting.groupId := by
  have digests := congrArg NodeSetting.groupId ((getHash_inj []).mp same)
  exact digests

structure ExecutesAlike [DecidableEq P] (context : ExecutionContext P) (hashes : Hashes P)
    (states : NodeRef → NodeExecutionState) (before after : FlowGraph P) : Prop where
  settingsHash : ∀ ref ∈ before.nodeDb, settingsHash after ref = settingsHash before ref
  needsReset : ∀ ref ∈ before.nodeDb, ∀ fuel,
    needsReset after ref fuel hashes = needsReset before ref fuel hashes
  decision : ∀ ref ∈ before.nodeDb, ∀ fuel request,
    nextDecision context after ref fuel hashes (states ref) request =
      nextDecision context before ref fuel hashes (states ref) request

section

/-- Whatever is done to groups, the nodes of the graph stay, and keep all but their group. -/
theorem operate_frame (setOrder : List Int → List Int) (graph : FlowGraph P)
    (operations : List GroupOperation) :
    OnlyGroups graph (operations.foldl (operate setOrder) graph) :=
  foldlRecOn (motive := OnlyGroups graph) _ _ (.ofHeap rfl rfl) fun state only operation _ =>
    only.trans (operate_moves setOrder state operation).only

variable [DecidableEq P] (context : ExecutionContext P) (hashes : Hashes P)
  (states : NodeRef → NodeExecutionState) (setOrder : List Int → List Int)

theorem ExecutesAlike.ofHeap {before after : FlowGraph P} (heap : after.heap = before.heap) :
    ExecutesAlike context hashes states before after where
  settingsHash ref _ := by rw [Graph.settingsHash, heap, ← Graph.settingsHash]
  needsReset ref _ fuel := needsReset_heap heap ref fuel hashes
  decision ref _ fuel request := by rw [nextDecision_heap context heap]

/-- For every graph and sequence of group operations: all nodes execute as before in every state on
the way if and only if every operation leaves every node in its group. -/
theorem groups_execute_alike_iff (graph : FlowGraph P)
    (distinct : (graph.nodeDb.map NodeRef.nodeId).Nodup) (operations : List GroupOperation) :
    (∀ after ∈ statesAlong (operate setOrder) graph operations,
        ExecutesAlike context hashes states graph after) ↔
      EachStep (operate setOrder) KeepsMembers graph operations := by
  have only : ∀ after ∈ statesAlong (operate setOrder) graph operations,
      OnlyGroups graph after :=
    invariant_along (operate setOrder) (OnlyGroups graph)
      (fun state operation only => only.trans (operate_moves setOrder state operation).only)
      graph (.ofHeap rfl rfl) operations
  have both := good_along_iff (operate setOrder)
    (fun after => OnlyGroups graph after ∧ ExecutesAlike context hashes states graph after)
    KeepsMembers ?_ graph ⟨.ofHeap rfl rfl, .ofHeap context hashes states rfl⟩ operations
  · rw [← both]
    exact ⟨fun alike after mem => ⟨only after mem, alike after mem⟩,
      fun good after mem => (good after mem).2⟩
  · rintro state operation ⟨onlyGroups, alike⟩
    obtain ⟨step, moved⟩ := operate_moves setOrder state operation
    have nodeDb := onlyGroups.nodeDb
    -- the hash of the settings holds the group
    have sameGroups : ∀ after : FlowGraph P, ExecutesAlike context hashes states graph after →
        ∀ ref ∈ graph.nodeDb,
          (after.heap ref).setting.groupId = (graph.heap ref).setting.groupId := by
      intro after alike ref live
      exact groupId_of_settingsHash (alike.settingsHash ref live)
    constructor
    · rintro ⟨_, still⟩ ref live
      have inGraph : ref ∈ graph.nodeDb := nodeDb ▸ live
      rw [← moved (nodeDb ▸ distinct) ref live, sameGroups _ still ref inGraph,
        sameGroups state alike ref inGraph]
    · intro keeps
      refine ⟨onlyGroups.trans step, .ofHeap context hashes states ?_⟩
      refine (onlyGroups.trans step).heap_eq fun ref live => ?_
      have inState : ref ∈ state.nodeDb := nodeDb.symm ▸ live
      rw [moved (nodeDb ▸ distinct) ref inState, keeps ref inState, sameGroups state alike ref live]

end

/-- Surroundings without files and cached results. -/
def bareContext : ExecutionContext Unit where
  nodeGroup _ := "input"
  transformType _ := none
  receivedFile _ := none
  stat _ := none
  resultsExists _ := false

def singleNode : World Unit :=
  (runEdits standardEnvironment 10 World.empty
    [.addNodePromise 1 "manual_input" promiseSetting]).getD World.empty

theorem emptyGroup_executes_alike :
    ExecutesAlike bareContext singleNode.hashes (fun _ => ⟨true, none⟩) singleNode.graph
      ((singleNode.graph.operate id (.createGroup "group" [] none none none [])).operate id
        (.updateGroup 1 (some "name") none none none)) := by
  have distinct : (singleNode.graph.nodeDb.map NodeRef.nodeId).Nodup := by decide +kernel
  refine (groups_execute_alike_iff bareContext singleNode.hashes (fun _ => ⟨true, none⟩) id
    singleNode.graph distinct [.createGroup "group" [] none none none [],
      .updateGroup 1 (some "name") none none none]).mpr ⟨?_, ?_, trivial⟩ _
    (by simp [statesAlong])
  · intro ref _
    simp [GroupOperation.groupAfter]
  · exact fun _ _ => rfl

/-- Putting the node into a new group makes its cached hash outdated. -/
theorem groupedNode_needs_reset :
    needsReset singleNode.graph ⟨1, 0⟩ 5 singleNode.hashes = some false ∧
      needsReset (singleNode.graph.operate id (.createGroup "group" [1] none none none []))
        ⟨1, 0⟩ 5 singleNode.hashes = some true ∧
      ¬ ∀ after ∈ statesAlong (operate id) singleNode.graph
          [.createGroup "group" [1] none none none []],
        ExecutesAlike bareContext singleNode.hashes (fun _ => ⟨true, none⟩) singleNode.graph
          after := by
  have before : needsReset singleNode.graph ⟨1, 0⟩ 5 singleNode.hashes = some false := by
    decide +kernel
  have grouped : needsReset (singleNode.graph.operate id
      (.createGroup "group" [1] none none none [])) ⟨1, 0⟩ 5 singleNode.hashes = some true := by
    decide +kernel
  refine ⟨before, grouped, fun alike => ?_⟩
  have same := (alike _ (by simp [statesAlong]; exact .inr rfl)).needsReset ⟨1, 0⟩
    (by decide +kernel) 5
  rw [before, grouped] at same
  cases same

end Flowfile.Graph
