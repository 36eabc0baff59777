import Flowfile.Graph
import Mathlib.Algebra.Order.Ring.Unbundled.Rat

/-!
# Groups of nodes

Groups are boxes on the canvas and never affect execution. A node records the group
it belongs to in its own settings, a group records its parent, and members and
subgroups are found by scanning. The group operations change the settings of nodes
and the table of groups. They leave every connection alone, which is all that the
theorems about connections need to know of them.

Nodes have no size here. A box is fitted around members of a nominal size.
-/

namespace Flowfile.Graph

variable {P : Type}

/-- Ids of the nodes whose settings name the group. -/
def FlowGraph.memberNodeIds (graph : FlowGraph P) (groupId : Int) : List Int :=
  (graph.nodeDb.filter fun ref => (graph.heap ref).setting.groupId = some groupId).map
    NodeRef.nodeId

def FlowGraph.childGroupIds (graph : FlowGraph P) (groupId : Int) : List Int :=
  (graph.groups.filter fun group => group.parentGroupId = some groupId).map GroupInformation.id

def FlowGraph.getGroup (graph : FlowGraph P) (groupId : Int) : Option GroupInformation :=
  graph.groups.find? fun group => group.id = groupId

/-- Store a group under its id: in the place of the old one, or at the end. -/
def putGroup (groups : List GroupInformation) (group : GroupInformation) : List GroupInformation :=
  if groups.any fun other => other.id = group.id then
    groups.map fun other => if other.id = group.id then group else other
  else groups ++ [group]

def FlowGraph.modifyGroup (graph : FlowGraph P) (groupId : Int)
    (change : GroupInformation → GroupInformation) : FlowGraph P :=
  { graph with
    groups := graph.groups.map fun group => if group.id = groupId then change group else group }

/-- Remove a group from the table. -/
def FlowGraph.popGroup (graph : FlowGraph P) (groupId : Int) : FlowGraph P :=
  { graph with groups := graph.groups.filter fun group => group.id ≠ groupId }

def FlowGraph.groupIsEmpty (graph : FlowGraph P) (groupId : Int) : Bool :=
  (graph.memberNodeIds groupId).isEmpty && (graph.childGroupIds groupId).isEmpty

/-- Remove the group that a node left, if it lost its last member. -/
def FlowGraph.pruneGroup (graph : FlowGraph P) : Option Int → FlowGraph P
  | none => graph
  | some groupId => if graph.groupIsEmpty groupId then graph.popGroup groupId else graph

def FlowGraph.setNodeGroup (graph : FlowGraph P) (groupId : Option Int) (nodeId : Int) :
    FlowGraph P :=
  match graph.getNode nodeId with
  | none => graph
  | some ref =>
    graph.modifyNode ref fun node => { node with setting := { node.setting with groupId } }

def FlowGraph.climbGroups (graph : FlowGraph P) (ancestorId : Int) :
    Nat → List Int → Option GroupInformation → Bool
  | 0, _, _ => false
  | _ + 1, _, none => false
  | steps + 1, seen, some current =>
    if seen.contains current.id then false
    else if current.id = ancestorId then true
    else graph.climbGroups ancestorId steps (current.id :: seen)
      (current.parentGroupId.bind graph.getGroup)

/-- Whether a group is another one or lies above it. No id is seen twice, so the
number of groups bounds the climb. -/
def FlowGraph.isAncestorGroup (graph : FlowGraph P) (ancestorId groupId : Int) : Bool :=
  graph.climbGroups ancestorId (graph.groups.length + 1) [] (graph.getGroup groupId)

structure Box where
  x : ℚ
  y : ℚ
  width : ℚ
  height : ℚ

/-- The boxes inside a group: its nodes at their nominal size and its subgroups. -/
def FlowGraph.memberBoxes (graph : FlowGraph P) (groupId : Int) : List Box :=
  (graph.nodeDb.filter fun ref => (graph.heap ref).setting.groupId = some groupId).map
      (fun ref => ⟨(graph.heap ref).setting.posX, (graph.heap ref).setting.posY, 180, 80⟩) ++
    (graph.groups.filter fun group => group.parentGroupId = some groupId).map
      fun group => ⟨group.xPosition, group.yPosition, group.width, group.height⟩

/-- The box around boxes, with padding on all sides and a header at the top. -/
def fitBoxes (first : Box) (rest : List Box) : Box :=
  let minX := rest.foldl (fun x box => min x box.x) first.x - 40
  let minY := rest.foldl (fun y box => min y box.y) first.y - 40 - 36
  let maxX := rest.foldl (fun x box => max x (box.x + box.width)) (first.x + first.width) + 40
  let maxY := rest.foldl (fun y box => max y (box.y + box.height)) (first.y + first.height) + 40
  ⟨minX, minY, maxX - minX, maxY - minY⟩

def GroupInformation.withBounds (bounds : Box) (group : GroupInformation) : GroupInformation :=
  { group with
    xPosition := bounds.x, yPosition := bounds.y, width := bounds.width, height := bounds.height }

def FlowGraph.recomputeGroupBounds (graph : FlowGraph P) (groupId : Int) : FlowGraph P :=
  match graph.memberBoxes groupId with
  | [] => graph
  | first :: rest => graph.modifyGroup groupId (GroupInformation.withBounds (fitBoxes first rest))

def FlowGraph.nextGroupId (graph : FlowGraph P) : Int :=
  (graph.groups.map GroupInformation.id).foldl max graph.groupIdSeq + 1

def FlowGraph.createGroup (graph : FlowGraph P) (name : String) (nodeIds : List Int)
    (color : Option String) (bounds : Option Box) (parentGroupId : Option Int)
    (childGroupIds : List Int) : FlowGraph P :=
  let groupId := graph.nextGroupId
  let group : GroupInformation :=
    { id := groupId, name, color, xPosition := 0, yPosition := 0, width := 400, height := 250,
      collapsed := false, parentGroupId }
  let group := (bounds.map fun box => group.withBounds box).getD group
  let graph := { graph with groups := putGroup graph.groups group, groupIdSeq := groupId }
  let graph := nodeIds.foldl (FlowGraph.setNodeGroup · (some groupId)) graph
  let graph := childGroupIds.foldl (fun graph childId =>
    if (graph.getGroup childId).isSome && !graph.isAncestorGroup childId groupId then
      graph.modifyGroup childId fun child => { child with parentGroupId := some groupId }
    else graph) graph
  if bounds.isNone then graph.recomputeGroupBounds groupId else graph

/-- Rename, recolour, move or collapse a group. -/
def FlowGraph.updateGroup (graph : FlowGraph P) (groupId : Int) (name color : Option String)
    (bounds : Option Box) (collapsed : Option Bool) : FlowGraph P :=
  graph.modifyGroup groupId fun group =>
    let group := { group with
      name := name.getD group.name
      color := color.or group.color
      collapsed := collapsed.getD group.collapsed }
    (bounds.map fun box => group.withBounds box).getD group

/-- Remove a group and lift its members one level up. -/
def FlowGraph.deleteGroup (graph : FlowGraph P) (groupId : Int) : FlowGraph P :=
  match graph.getGroup groupId with
  | none => graph
  | some group =>
    let graph := (graph.memberNodeIds groupId).foldl
      (FlowGraph.setNodeGroup · group.parentGroupId) graph
    let graph := (graph.childGroupIds groupId).foldl (fun graph childId =>
      graph.modifyGroup childId fun child =>
        { child with parentGroupId := group.parentGroupId }) graph
    graph.popGroup groupId

/-- Put nodes into an existing group and refit it. -/
def FlowGraph.addNodesToGroup (graph : FlowGraph P) (groupId : Int) (nodeIds : List Int) :
    FlowGraph P :=
  match graph.getGroup groupId with
  | none => graph
  | some _ =>
    (nodeIds.foldl (FlowGraph.setNodeGroup · (some groupId)) graph).recomputeGroupBounds groupId

def FlowGraph.groupOfNode (graph : FlowGraph P) (nodeId : Int) : Option Int :=
  (graph.getNode nodeId).bind fun ref => (graph.heap ref).setting.groupId

/-- Take nodes out of their groups. Groups left empty go, the others are refitted, one
after another in the order in which the set of affected groups is read. -/
def FlowGraph.removeNodesFromGroup (setOrder : List Int → List Int) (graph : FlowGraph P)
    (nodeIds : List Int) : FlowGraph P :=
  let (graph, affected) := nodeIds.foldl (fun (graph, affected) nodeId =>
    match graph.groupOfNode nodeId with
    | none => (graph, affected)
    | some groupId => (graph.setNodeGroup none nodeId, affected ++ [groupId])) (graph, [])
  (setOrder affected).foldl (fun graph groupId =>
    if graph.groupIsEmpty groupId then graph.popGroup groupId
    else graph.recomputeGroupBounds groupId) graph

/-- Move nodes on the canvas. -/
def FlowGraph.setNodePositions (graph : FlowGraph P) (updates : List (Int × ℚ × ℚ)) : FlowGraph P :=
  updates.foldl (fun graph (nodeId, posX, posY) =>
    match graph.getNode nodeId with
    | none => graph
    | some ref =>
      graph.modifyNode ref fun node =>
        { node with setting := { node.setting with posX, posY } }) graph

def FlowGraph.setGroupBounds (graph : FlowGraph P) (updates : List (Int × Box)) : FlowGraph P :=
  updates.foldl (fun graph (groupId, bounds) =>
    graph.modifyGroup groupId (GroupInformation.withBounds bounds)) graph

/-- Replace the table of groups. Boxes without extent are refitted. -/
def FlowGraph.restoreGroups (graph : FlowGraph P) (groups : List GroupInformation) : FlowGraph P :=
  let stored := groups.foldl putGroup []
  let highest := match stored.map GroupInformation.id with
    | [] => 0
    | first :: rest => rest.foldl max first
  let graph := { graph with groups := stored, groupIdSeq := highest }
  (stored.map GroupInformation.id).foldl (fun graph groupId =>
    match graph.getGroup groupId with
    | none => graph
    | some group =>
      if group.width ≤ 0 ∨ group.height ≤ 0 then graph.recomputeGroupBounds groupId
      else graph) graph

/-- Two graphs with the same objects connected in the same way. They may differ in
settings and groups. -/
structure SameWiring (before after : FlowGraph P) : Prop where
  nodeDb : after.nodeDb = before.nodeDb
  nextSerial : after.nextSerial = before.nextSerial
  leads : ∀ ref, (after.heap ref).leadsToNodes = (before.heap ref).leadsToNodes
  main : ∀ ref, (after.heap ref).mainInputs = (before.heap ref).mainInputs
  left : ∀ ref, (after.heap ref).leftInput = (before.heap ref).leftInput
  right : ∀ ref, (after.heap ref).rightInput = (before.heap ref).rightInput

namespace SameWiring

variable {before middle after : FlowGraph P}

/-- Every graph is wired like itself. -/
theorem refl (graph : FlowGraph P) : SameWiring graph graph :=
  ⟨rfl, rfl, fun _ => rfl, fun _ => rfl, fun _ => rfl, fun _ => rfl⟩

/-- Wiring is compared step by step. -/
theorem trans (first : SameWiring before middle) (second : SameWiring middle after) :
    SameWiring before after :=
  ⟨second.nodeDb.trans first.nodeDb, second.nextSerial.trans first.nextSerial,
    fun ref => (second.leads ref).trans (first.leads ref),
    fun ref => (second.main ref).trans (first.main ref),
    fun ref => (second.left ref).trans (first.left ref),
    fun ref => (second.right ref).trans (first.right ref)⟩

/-- All inputs of an object agree. -/
theorem allInputs (same : SameWiring before after) (ref : NodeRef) :
    (after.heap ref).allInputs = (before.heap ref).allInputs := by
  simp only [FlowNode.allInputs, same.main, same.left, same.right]

theorem fold {α : Type} (step : FlowGraph P → α → FlowGraph P)
    (each : ∀ graph value, SameWiring graph (step graph value)) (values : List α)
    (graph : FlowGraph P) : SameWiring graph (values.foldl step graph) := by
  induction values generalizing graph with
  | nil => exact refl graph
  | cons value rest ih =>
    exact (each graph value).trans (ih _)

section

variable (graph : FlowGraph P)
include graph

variable (ref : NodeRef)

/-- A change of an object that keeps its connections leaves the wiring alone. -/
theorem modifyNode (change : FlowNode P → FlowNode P)
    (leads : (change (graph.heap ref)).leadsToNodes = (graph.heap ref).leadsToNodes)
    (main : (change (graph.heap ref)).mainInputs = (graph.heap ref).mainInputs)
    (left : (change (graph.heap ref)).leftInput = (graph.heap ref).leftInput)
    (right : (change (graph.heap ref)).rightInput = (graph.heap ref).rightInput) :
    SameWiring graph (graph.modifyNode ref change) := by
  constructor
  case nodeDb => rfl
  case nextSerial => rfl
  all_goals
    intro other
    by_cases same : other = ref
    · subst same
      simpa
    · simp [same]

theorem modifySetting (change : NodeSetting P → NodeSetting P) : SameWiring graph
      (graph.modifyNode ref fun node => { node with setting := change node.setting }) :=
  modifyNode graph ref _ rfl rfl rfl rfl

theorem ofGroups (groups : List GroupInformation) (groupIdSeq : Int) :
    SameWiring graph { graph with groups, groupIdSeq } :=
  ⟨rfl, rfl, fun _ => rfl, fun _ => rfl, fun _ => rfl, fun _ => rfl⟩

variable (groupId : Int)

theorem modifyGroup (change : GroupInformation → GroupInformation) :
    SameWiring graph (graph.modifyGroup groupId change) :=
  ofGroups graph _ _

theorem popGroup : SameWiring graph (graph.popGroup groupId) :=
  ofGroups graph _ _

/-- Removing the group that a node left. -/
theorem pruneGroup (groupId : Option Int) : SameWiring graph (graph.pruneGroup groupId) := by
  cases groupId with
  | none => exact refl graph
  | some groupId =>
  simp only [FlowGraph.pruneGroup]
  split
  · exact popGroup graph groupId
  · exact refl graph

theorem setNodeGroup (groupId : Option Int) (nodeId : Int) :
    SameWiring graph (graph.setNodeGroup groupId nodeId) := by
  cases found : graph.getNode nodeId with
  | none => simpa [FlowGraph.setNodeGroup, found] using refl graph
  | some ref =>
    simp only [FlowGraph.setNodeGroup, found]
    exact modifySetting graph ref fun setting => { setting with groupId }

theorem recomputeGroupBounds : SameWiring graph (graph.recomputeGroupBounds groupId) := by
  cases boxes : graph.memberBoxes groupId with
  | nil => simpa [FlowGraph.recomputeGroupBounds, boxes] using refl graph
  | cons first rest =>
    simp only [FlowGraph.recomputeGroupBounds, boxes]
    exact modifyGroup graph groupId _

theorem createGroup (name : String) (nodeIds : List Int) (color : Option String)
    (bounds : Option Box) (parentGroupId : Option Int) (childGroupIds : List Int) :
    SameWiring graph
      (graph.createGroup name nodeIds color bounds parentGroupId childGroupIds) := by
  have adopts : ∀ (graph : FlowGraph P) (groupId childId : Int), SameWiring graph
      (if (graph.getGroup childId).isSome && !graph.isAncestorGroup childId groupId then
        graph.modifyGroup childId fun child => { child with parentGroupId := some groupId }
      else graph) := by
    intro graph groupId childId
    split
    · exact modifyGroup graph childId _
    · exact refl graph
  have filled : ∀ (groups : List GroupInformation) (groupId : Int), SameWiring graph
      (childGroupIds.foldl (fun graph childId =>
        if (FlowGraph.getGroup graph childId).isSome &&
            !FlowGraph.isAncestorGroup graph childId groupId then
          FlowGraph.modifyGroup graph childId fun child =>
            { child with parentGroupId := some groupId }
        else graph)
        (nodeIds.foldl (FlowGraph.setNodeGroup · (some groupId))
          { graph with groups, groupIdSeq := groupId })) := by
    intro groups groupId
    apply (ofGroups graph groups groupId).trans
    apply (fold _ (fun graph nodeId => setNodeGroup graph (some groupId) nodeId) nodeIds _).trans
    exact fold _ (fun graph childId => adopts graph groupId childId) childGroupIds _
  simp only [FlowGraph.createGroup]
  split
  · exact (filled _ _).trans (recomputeGroupBounds _ _)
  · exact filled _ _

/-- Changing the attributes of a group. -/
theorem updateGroup (name color : Option String) (bounds : Option Box) (collapsed : Option Bool) :
    SameWiring graph (graph.updateGroup groupId name color bounds collapsed) :=
  modifyGroup graph groupId _

theorem deleteGroup : SameWiring graph (graph.deleteGroup groupId) := by
  cases found : graph.getGroup groupId with
  | none => simpa [FlowGraph.deleteGroup, found] using refl graph
  | some group =>
    simp only [FlowGraph.deleteGroup, found]
    exact ((fold _ (setNodeGroup · _) _ graph).trans
      (fold _ (fun graph childId => modifyGroup graph childId _) _ _)).trans (popGroup _ _)

theorem addNodesToGroup (nodeIds : List Int) :
    SameWiring graph (graph.addNodesToGroup groupId nodeIds) := by
  cases found : graph.getGroup groupId with
  | none => simpa [FlowGraph.addNodesToGroup, found] using refl graph
  | some group =>
    simp only [FlowGraph.addNodesToGroup, found]
    exact (fold _ (setNodeGroup · _) nodeIds graph).trans (recomputeGroupBounds _ _)

end

theorem removeNodesFromGroup (setOrder : List Int → List Int) (graph : FlowGraph P)
    (nodeIds : List Int) : SameWiring graph (graph.removeNodesFromGroup setOrder nodeIds) := by
  have removed : ∀ (graph : FlowGraph P) (affected : List Int),
      SameWiring graph (nodeIds.foldl (fun (graph, affected) nodeId =>
        match FlowGraph.groupOfNode graph nodeId with
        | none => (graph, affected)
        | some groupId => (FlowGraph.setNodeGroup graph none nodeId, affected ++ [groupId]))
        (graph, affected)).1 := by
    induction nodeIds with
    | nil => exact fun graph _ => refl graph
    | cons nodeId rest ih =>
      intro graph affected
      simp only [List.foldl_cons]
      cases graph.groupOfNode nodeId with
      | none => exact ih graph affected
      | some groupId => exact (setNodeGroup graph none nodeId).trans (ih _ _)
  simp only [FlowGraph.removeNodesFromGroup]
  apply (removed graph []).trans
  apply fold
  intro graph groupId
  split
  · exact popGroup graph groupId
  · exact recomputeGroupBounds graph groupId

/-- Moving nodes. -/
theorem setNodePositions (graph : FlowGraph P) (updates : List (Int × ℚ × ℚ)) :
    SameWiring graph (graph.setNodePositions updates) := by
  apply fold
  rintro graph ⟨nodeId, posX, posY⟩
  cases found : graph.getNode nodeId with
  | none => simpa [found] using refl graph
  | some ref =>
    simp only [found]
    exact modifySetting graph ref fun setting => { setting with posX, posY }

theorem setGroupBounds (graph : FlowGraph P) (updates : List (Int × Box)) :
    SameWiring graph (graph.setGroupBounds updates) := by
  apply fold
  rintro graph ⟨groupId, bounds⟩
  exact modifyGroup graph groupId _

theorem restoreGroups (graph : FlowGraph P) (groups : List GroupInformation) :
    SameWiring graph (graph.restoreGroups groups) := by
  simp only [FlowGraph.restoreGroups]
  apply (ofGroups graph _ _).trans
  apply fold
  intro graph groupId
  cases graph.getGroup groupId with
  | none => exact refl graph
  | some group =>
  dsimp only
  split
  · exact recomputeGroupBounds graph groupId
  · exact refl graph

end SameWiring

end Flowfile.Graph
