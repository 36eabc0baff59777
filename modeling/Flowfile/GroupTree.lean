import Flowfile.Groups
import Flowfile.Library.FiniteDag

/-!
# The tree of groups

A group names its parent and a node names its group, so the tree is kept in two places: in the
table of groups and in the settings of the nodes. It is sound when ids are distinct, every parent
and every group of a node is in the table, and no group lies above itself.

Giving a group a new parent keeps that, unless the parent lies below the group; the climb of the
code decides this, since no chain of parents is longer than the table. Removing a group keeps it
when no group and no node names it any more. The group operations are made of such changes, with
one exception: a new group gets the parent it is created with, whether or not it exists.
-/

namespace Flowfile.Graph

open Library.FiniteDag List

def groupIds (groups : List GroupInformation) : List Int := groups.map GroupInformation.id

/-- The first group is directly inside the second. -/
def parentEdge (groups : List GroupInformation) (child parent : Int) : Prop :=
  ∃ group ∈ groups, group.id = child ∧ group.parentGroupId = some parent

structure ParentTable (groups : List GroupInformation) : Prop where
  distinct : (groupIds groups).Nodup
  known : ∀ child parent, parentEdge groups child parent → parent ∈ groupIds groups
  acyclic : Acyclic (parentEdge groups)

def reparent (groups : List GroupInformation) (childId : Int) (parentId : Option Int) :
    List GroupInformation :=
  groups.map fun group =>
    if group.id = childId then { group with parentGroupId := parentId } else group

variable {groups : List GroupInformation} {change : GroupInformation → GroupInformation}

theorem parentEdge_map (sameId : ∀ group, (change group).id = group.id)
    (sameParent : ∀ group, (change group).parentGroupId = group.parentGroupId) (child parent : Int)
    :
    parentEdge (groups.map change) child parent ↔ parentEdge groups child parent := by
  simp only [parentEdge, mem_map, exists_exists_and_eq_and, sameId, sameParent]

theorem groupIds_map (sameId : ∀ group, (change group).id = group.id) :
    groupIds (groups.map change) = groupIds groups := by
  rw [groupIds, map_map]
  exact map_congr_left fun group _ => sameId group

theorem ParentTable.map (table : ParentTable groups)
    (sameId : ∀ group, (change group).id = group.id)
    (sameParent : ∀ group, (change group).parentGroupId = group.parentGroupId) :
    ParentTable (groups.map change) where
  distinct := (groupIds_map sameId).symm ▸ table.distinct
  known child parent edge := by
    rw [groupIds_map sameId]
    exact table.known child parent ((parentEdge_map sameId sameParent child parent).mp edge)
  acyclic := table.acyclic.mono fun child parent =>
    (parentEdge_map sameId sameParent child parent).mp

theorem groupIds_reparent (childId : Int) (parentId : Option Int) :
    groupIds (reparent groups childId parentId) = groupIds groups := by
  apply groupIds_map
  intro group
  split <;> rfl

theorem parentEdge_reparent {childId child parent : Int} {parentId : Option Int} :
    parentEdge (reparent groups childId parentId) child parent ↔
      (child ≠ childId ∧ parentEdge groups child parent) ∨
        (child = childId ∧ child ∈ groupIds groups ∧ parentId = some parent) := by
  constructor
  · rintro ⟨changed, mem, rfl, up⟩
    obtain ⟨group, inTable, rfl⟩ := mem_map.mp mem
    by_cases own : group.id = childId
    · have inIds : group.id ∈ groupIds groups := mem_map_of_mem inTable
      rw [if_pos own] at up ⊢
      exact .inr ⟨own, inIds, up⟩
    · rw [if_neg own] at up ⊢
      exact .inl ⟨own, group, inTable, rfl, up⟩
  · rintro (⟨apart, group, inTable, rfl, up⟩ | ⟨rfl, inIds, up⟩)
    · exact ⟨group, mem_map.mpr ⟨group, inTable, if_neg apart⟩, rfl, up⟩
    · obtain ⟨group, inTable, rfl⟩ := mem_map.mp inIds
      exact ⟨_, mem_map.mpr ⟨group, inTable, if_pos rfl⟩, rfl, up⟩

theorem ParentTable.reparent (table : ParentTable groups) {childId parentId : Int}
    (inTable : parentId ∈ groupIds groups)
    (notBelow : ¬ Relation.ReflTransGen (parentEdge groups) parentId childId) :
    ParentTable (reparent groups childId (some parentId)) where
  distinct := (groupIds_reparent childId _).symm ▸ table.distinct
  known child parent edge := by
    rw [groupIds_reparent]
    rcases parentEdge_reparent.mp edge with ⟨_, old⟩ | ⟨_, _, up⟩
    · exact table.known child parent old
    · exact Option.some.inj up ▸ inTable
  acyclic := by
    apply (acyclic_withEdge table.acyclic childId parentId notBelow).mono
    intro child parent edge
    rcases parentEdge_reparent.mp edge with ⟨_, old⟩ | ⟨own, _, up⟩
    · exact .inl old
    · exact .inr ⟨own, (Option.some.inj up).symm⟩

theorem ParentTable.filter (table : ParentTable groups) (keep : GroupInformation → Bool)
    (closed : ∀ child parent, parentEdge (groups.filter keep) child parent →
      parent ∈ groupIds (groups.filter keep)) : ParentTable (groups.filter keep) where
  distinct := table.distinct.sublist ((filter_sublist).map _)
  known := closed
  acyclic := table.acyclic.mono fun _ _ ⟨group, mem, edge⟩ =>
    ⟨group, (mem_filter.mp mem).1, edge⟩

variable {group : GroupInformation}

theorem ParentTable.append (table : ParentTable groups) (fresh : group.id ∉ groupIds groups)
    (parent : ∀ parentId, group.parentGroupId = some parentId → parentId ∈ groupIds groups) :
    ParentTable (groups ++ [group]) := by
  have ids : groupIds (groups ++ [group]) = groupIds groups ++ [group.id] := by
    rw [groupIds, map_append]
    rfl
  have edges : ∀ child up, parentEdge (groups ++ [group]) child up →
      parentEdge groups child up ∨ (child = group.id ∧ group.parentGroupId = some up) := by
    rintro child up ⟨other, mem, rfl, names⟩
    rcases mem_append.mp mem with old | new
    · exact .inl ⟨other, old, rfl, names⟩
    · rw [mem_singleton.mp new] at names ⊢
      exact .inr ⟨rfl, names⟩
  constructor
  case distinct =>
    rw [ids]
    exact nodup_append.mpr ⟨table.distinct, nodup_singleton _, by
      rintro id mem _ new rfl
      exact fresh (mem_singleton.mp new ▸ mem)⟩
  case known =>
    intro child up edge
    rw [ids]
    refine mem_append_left _ ?_
    rcases edges child up edge with old | ⟨_, names⟩
    · exact table.known child up old
    · exact parent up names
  case acyclic =>
    cases names : group.parentGroupId with
    | none =>
      apply table.acyclic.mono
      intro child up edge
      exact (edges child up edge).resolve_right fun new => by simp [names] at new
    | some parentId =>
    -- nothing leads to the new id yet
    have unreached : ¬ Relation.ReflTransGen (parentEdge groups) parentId group.id := by
      intro path
      rcases Relation.ReflTransGen.cases_tail path with same | ⟨last, _, edge⟩
      · exact fresh (same ▸ parent parentId names)
      · exact fresh (table.known last group.id edge)
    apply (acyclic_withEdge table.acyclic group.id parentId unreached).mono
    intro child up edge
    rcases edges child up edge with old | ⟨own, isParent⟩
    · exact .inl old
    · rw [names] at isParent
      exact .inr ⟨own, (Option.some.inj isParent).symm⟩

variable {P : Type} {graph : FlowGraph P} {groupId : Int}

theorem getGroup_spec
    (found : graph.getGroup groupId = some group) : group ∈ graph.groups ∧ group.id = groupId :=
  ⟨mem_of_find?_eq_some found, of_decide_eq_true
    (List.find?_some (p := fun group : GroupInformation => group.id = groupId) found)⟩

/-- An id of the table is found. -/
theorem getGroup_of_mem (mem : groupId ∈ groupIds graph.groups) :
    ∃ group, graph.getGroup groupId = some group := by
  obtain ⟨group, inTable, own⟩ := mem_map.mp mem
  cases found : graph.getGroup groupId with
  | some other => exact ⟨other, rfl⟩
  | none =>
    have absent := List.find?_eq_none.mp found group inTable
    simp [own] at absent

theorem climbGroups_false (table : ParentTable graph.groups) (ancestorId : Int) (steps : Nat)
    {seen : List Int} {current : GroupInformation} (mem : current ∈ graph.groups)
    (distinct : seen.Nodup) (passed : ∀ id ∈ seen, id ∈ groupIds graph.groups ∧
      Relation.TransGen (parentEdge graph.groups) id current.id)
    (enough : graph.groups.length < seen.length + steps)
    (climbed : graph.climbGroups ancestorId steps seen (some current) = false) :
    ¬ Relation.ReflTransGen (parentEdge graph.groups) current.id ancestorId := by
  induction steps generalizing seen current with
  | zero =>
    have bounded := (distinct.subperm fun id inSeen => (passed id inSeen).1).length_le
    rw [groupIds, length_map] at bounded
    omega
  | succ steps ih =>
    have unseen : current.id ∉ seen := fun inSeen =>
      table.acyclic current.id (passed current.id inSeen).2
    rw [FlowGraph.climbGroups, if_neg (by simpa using unseen)] at climbed
    split at climbed
    case isTrue => cases climbed
    case isFalse apart =>
      intro path
      rcases Relation.ReflTransGen.cases_head path with same | ⟨next, edge, rest⟩
      · exact apart same
      have known := table.known _ _ edge
      obtain ⟨group, inTable, own, up⟩ := edge
      have equal : group = current :=
        inj_on_of_nodup_map table.distinct inTable mem own
      subst equal
      obtain ⟨parent, found⟩ := getGroup_of_mem known
      obtain ⟨parentIn, rfl⟩ := getGroup_spec found
      rw [up, Option.bind_some, found] at climbed
      refine ih parentIn (nodup_cons.mpr ⟨unseen, distinct⟩)
        (fun id isSeen => ?_) ?_ climbed rest
      · have edge : parentEdge graph.groups group.id parent.id := ⟨group, mem, rfl, up⟩
        rcases mem_cons.mp isSeen with rfl | earlier
        · exact ⟨mem_map_of_mem mem, .single edge⟩
        · exact ⟨(passed id earlier).1, (passed id earlier).2.tail edge⟩
      · rw [length_cons]
        omega

theorem isAncestorGroup_false (table : ParentTable graph.groups) {ancestorId groupId : Int}
    (mem : groupId ∈ groupIds graph.groups)
    (climbed : graph.isAncestorGroup ancestorId groupId = false) :
    ¬ Relation.ReflTransGen (parentEdge graph.groups) groupId ancestorId := by
  obtain ⟨group, found⟩ := getGroup_of_mem mem
  obtain ⟨inTable, rfl⟩ := getGroup_spec found
  rw [FlowGraph.isAncestorGroup, found] at climbed
  exact climbGroups_false table ancestorId _ inTable nodup_nil (by simp) (by simp) climbed

/-- The tree of groups is sound: nodes have distinct ids, the table is one, and the groups of nodes
are in it. The types of the nodes are of the given kinds. -/
structure GroupTree (kinds : String → Prop) (graph : FlowGraph P) : Prop where
  distinctNodes : (graph.nodeDb.map NodeRef.nodeId).Nodup
  types : ∀ ref ∈ graph.nodeDb, kinds (graph.heap ref).nodeType
  table : ParentTable graph.groups
  members : ∀ ref ∈ graph.nodeDb, ∀ groupId,
    (graph.heap ref).setting.groupId = some groupId → groupId ∈ groupIds graph.groups

def InUse (graph : FlowGraph P) (groupId : Int) : Prop :=
  groupId ∈ groupIds graph.groups ∨
    (∃ ref ∈ graph.nodeDb, (graph.heap ref).setting.groupId = some groupId) ∨
      ∃ group ∈ graph.groups, group.parentGroupId = some groupId

theorem nextGroupId_fresh (graph : FlowGraph P) : graph.nextGroupId ∉ groupIds graph.groups := by
  have above : ∀ (ids : List Int) (start : Int),
      start ≤ ids.foldl max start ∧ ∀ id ∈ ids, id ≤ ids.foldl max start := by
    intro ids
    induction ids with
    | nil => simp
    | cons first rest ih =>
      intro start
      obtain ⟨fromStart, fromRest⟩ := ih (max start first)
      rw [foldl_cons]
      refine ⟨by omega, fun id mem => ?_⟩
      rcases mem_cons.mp mem with rfl | later
      · omega
      · exact fromRest id later
  intro mem
  have bounded := (above (groupIds graph.groups) graph.groupIdSeq).2 _ mem
  rw [FlowGraph.nextGroupId, ← groupIds] at bounded
  omega

variable {kinds : String → Prop}

theorem GroupTree.next_unused (tree : GroupTree kinds graph) : ¬ InUse graph graph.nextGroupId := by
  have fresh := nextGroupId_fresh graph
  rintro (mem | ⟨ref, live, names⟩ | ⟨group, mem, names⟩)
  · exact fresh mem
  · exact fresh (tree.members ref live _ names)
  · exact fresh (tree.table.known group.id _ ⟨group, mem, rfl, names⟩)

/-- What operations on nodes do to the tree: a node in the node table keeps its group, or has been
given one of some, it keeps its type, or has been given one of some, and the table of groups
stays. -/
structure Regroups (given : NodeRef → Option Int → Prop) (typed : NodeRef → String → Prop)
    (before after : FlowGraph P) : Prop where
  distinct : (before.nodeDb.map NodeRef.nodeId).Nodup → (after.nodeDb.map NodeRef.nodeId).Nodup
  members : ∀ ref ∈ after.nodeDb,
    (ref ∈ before.nodeDb ∧ (after.heap ref).setting.groupId = (before.heap ref).setting.groupId) ∨
    given ref (after.heap ref).setting.groupId
  types : ∀ ref ∈ after.nodeDb,
    (ref ∈ before.nodeDb ∧ (after.heap ref).nodeType = (before.heap ref).nodeType) ∨
    typed ref (after.heap ref).nodeType
  groups : after.groups = before.groups

namespace Regroups

variable {given : NodeRef → Option Int → Prop} {typed : NodeRef → String → Prop}
  {before middle after : FlowGraph P}

theorem refl (graph : FlowGraph P) : Regroups given typed graph graph :=
  ⟨id, fun _ live => .inl ⟨live, rfl⟩, fun _ live => .inl ⟨live, rfl⟩, rfl⟩

/-- Changes follow each other. -/
theorem trans (first : Regroups given typed before middle)
    (second : Regroups given typed middle after) : Regroups given typed before after where
  distinct := second.distinct ∘ first.distinct
  members ref live := by
    rcases second.members ref live with ⟨inMiddle, same⟩ | new
    · rw [same]
      exact first.members ref inMiddle
    · exact .inr new
  types ref live := by
    rcases second.types ref live with ⟨inMiddle, same⟩ | new
    · rw [same]
      exact first.types ref inMiddle
    · exact .inr new
  groups := second.groups.trans first.groups

/-- A fold of such changes. -/
theorem fold {α : Type} (step : FlowGraph P → α → FlowGraph P)
    (each : ∀ graph value, Regroups given typed graph (step graph value)) (values : List α)
    (graph : FlowGraph P) : Regroups given typed graph (values.foldl step graph) := by
  induction values generalizing graph with
  | nil => exact refl graph
  | cons value rest ih =>
    exact (each graph value).trans (ih _)

theorem modifyNode (graph : FlowGraph P) (ref : NodeRef) (change : FlowNode P → FlowNode P)
    (group : (change (graph.heap ref)).setting.groupId = (graph.heap ref).setting.groupId ∨
      given ref (change (graph.heap ref)).setting.groupId)
    (type : (change (graph.heap ref)).nodeType = (graph.heap ref).nodeType ∨
      typed ref (change (graph.heap ref)).nodeType) :
    Regroups given typed graph (graph.modifyNode ref change) where
  distinct := id
  members other live := by
    by_cases own : other = ref
    · rw [own, modifyNode_heap_self]
      exact group.imp_left fun same => ⟨own ▸ live, same⟩
    · rw [modifyNode_heap_of_ne _ _ _ _ own]
      exact .inl ⟨live, rfl⟩
  types other live := by
    by_cases own : other = ref
    · rw [own, modifyNode_heap_self]
      exact type.imp_left fun same => ⟨own ▸ live, same⟩
    · rw [modifyNode_heap_of_ne _ _ _ _ own]
      exact .inl ⟨live, rfl⟩
  groups := rfl

theorem setNodeGroup (graph : FlowGraph P) (groupId : Option Int) (nodeId : Int) :
    Regroups (fun _ other => other = groupId) typed graph (graph.setNodeGroup groupId nodeId) := by
  rw [FlowGraph.setNodeGroup]
  split
  case h_1 => exact refl graph
  case h_2 ref _ => exact modifyNode graph ref _ (.inr rfl) (.inl rfl)

/-- Setting the group of several nodes. -/
theorem setNodeGroups (graph : FlowGraph P) (groupId : Option Int) (nodeIds : List Int) :
    Regroups (fun _ other => other = groupId) typed graph
      (nodeIds.foldl (FlowGraph.setNodeGroup · groupId) graph) :=
  fold _ (fun graph nodeId => setNodeGroup graph groupId nodeId) nodeIds graph

theorem tree (regroups : Regroups given typed before after) (sound : GroupTree kinds before)
    (known : ∀ ref groupId, given ref (some groupId) → groupId ∈ groupIds before.groups)
    (kind : ∀ ref nodeType, typed ref nodeType → kinds nodeType) : GroupTree kinds after where
  distinctNodes := regroups.distinct sound.distinctNodes
  types ref live := by
    rcases regroups.types ref live with ⟨inBefore, same⟩ | new
    · exact same ▸ sound.types ref inBefore
    · exact kind ref _ new
  table := regroups.groups ▸ sound.table
  members ref live groupId names := by
    rw [regroups.groups]
    rcases regroups.members ref live with ⟨inBefore, same⟩ | new
    · exact sound.members ref inBefore groupId (same ▸ names)
    · exact known ref groupId (names ▸ new)

end Regroups

section

variable (tree : GroupTree kinds graph)
include tree

theorem GroupTree.withTable {groups : List GroupInformation}
    (table : ParentTable groups) (ids : ∀ id ∈ groupIds graph.groups, id ∈ groupIds groups)
    (groupIdSeq : Int) : GroupTree kinds { graph with groups, groupIdSeq } :=
  { tree with
    table := table
    members ref live groupId names := ids groupId (tree.members ref live groupId names) }

theorem GroupTree.modifyGroup (groupId : Int) (sameId : ∀ group, (change group).id = group.id)
    (sameParent : ∀ group, (change group).parentGroupId = group.parentGroupId) :
    GroupTree kinds (graph.modifyGroup groupId change) := by
  have keepsId : ∀ group : GroupInformation,
      (if group.id = groupId then change group else group).id = group.id := by
    intro group
    split
    · exact sameId group
    · rfl
  have keepsParent : ∀ group : GroupInformation,
      (if group.id = groupId then change group else group).parentGroupId = group.parentGroupId := by
    intro group
    split
    · exact sameParent group
    · rfl
  refine tree.withTable (tree.table.map keepsId keepsParent) ?_ graph.groupIdSeq
  rw [groupIds_map keepsId]
  exact fun _ mem => mem

theorem GroupTree.recomputeGroupBounds (groupId : Int) :
    GroupTree kinds (graph.recomputeGroupBounds groupId) := by
  rw [FlowGraph.recomputeGroupBounds]
  split
  case h_1 => exact tree
  case h_2 first rest _ => exact tree.modifyGroup groupId (fun _ => rfl) fun _ => rfl

theorem GroupTree.popGroup
    (noMembers : ∀ ref ∈ graph.nodeDb, (graph.heap ref).setting.groupId ≠ some groupId)
    (noChildren : ∀ child, ¬ parentEdge graph.groups child groupId) :
    GroupTree kinds (graph.popGroup groupId) := by
  have ids : ∀ id, id ∈ groupIds graph.groups → id ≠ groupId →
      id ∈ groupIds (graph.groups.filter fun group => group.id ≠ groupId) := by
    rintro id mem apart
    obtain ⟨group, inTable, rfl⟩ := mem_map.mp mem
    exact mem_map_of_mem (mem_filter.mpr ⟨inTable, by simpa using apart⟩)
  constructor
  case distinctNodes => exact tree.distinctNodes
  case types => exact tree.types
  case table =>
    apply tree.table.filter
    rintro child parent ⟨group, mem, rfl, up⟩
    have edge : parentEdge graph.groups group.id parent :=
      ⟨group, (mem_filter.mp mem).1, rfl, up⟩
    refine ids parent (tree.table.known _ _ edge) ?_
    rintro rfl
    exact noChildren group.id edge
  case members =>
    intro ref live id names
    refine ids id (tree.members ref live id names) ?_
    rintro rfl
    exact noMembers ref live names

end

theorem groupIsEmpty_spec (empty : graph.groupIsEmpty groupId = true) :
    (∀ ref ∈ graph.nodeDb, (graph.heap ref).setting.groupId ≠ some groupId) ∧
      ∀ child, ¬ parentEdge graph.groups child groupId := by
  rw [FlowGraph.groupIsEmpty, Bool.and_eq_true, List.isEmpty_iff, List.isEmpty_iff,
    FlowGraph.memberNodeIds, FlowGraph.childGroupIds, map_eq_nil_iff, map_eq_nil_iff,
    filter_eq_nil_iff, filter_eq_nil_iff] at empty
  refine ⟨fun ref live => by simpa using empty.1 ref live, ?_⟩
  rintro child ⟨group, mem, _, up⟩
  exact empty.2 group mem (decide_eq_true up)

theorem GroupTree.popEmpty (tree : GroupTree kinds graph)
    (empty : graph.groupIsEmpty groupId = true) : GroupTree kinds (graph.popGroup groupId) :=
  tree.popGroup (groupIsEmpty_spec empty).1 (groupIsEmpty_spec empty).2

/-- Removing the group a node left. -/
theorem GroupTree.pruneGroup (tree : GroupTree kinds graph) (groupId : Option Int) :
    GroupTree kinds (graph.pruneGroup groupId) := by
  cases groupId with
  | none => exact tree
  | some groupId =>
  rw [FlowGraph.pruneGroup]
  split
  case isTrue empty => exact tree.popEmpty empty
  case isFalse => exact tree

theorem GroupTree.adopt (tree : GroupTree kinds graph) {childId parentId : Int}
    (known : parentId ∈ groupIds graph.groups)
    (notAbove : graph.isAncestorGroup childId parentId = false) :
    GroupTree kinds (graph.modifyGroup childId fun child =>
      { child with parentGroupId := some parentId }) := by
  have table := tree.table.reparent known (isAncestorGroup_false tree.table known notAbove)
  refine tree.withTable table ?_ graph.groupIdSeq
  rw [groupIds_reparent]
  exact fun _ mem => mem

theorem bounded_same (bounds : Option Box) (group : GroupInformation) :
    ((bounds.map fun box => group.withBounds box).getD group).id = group.id ∧
      ((bounds.map fun box => group.withBounds box).getD group).parentGroupId =
        group.parentGroupId := by
  cases bounds <;> exact ⟨rfl, rfl⟩

/-- Putting nodes into an existing group. -/
theorem GroupTree.setNodeGroups (tree : GroupTree kinds graph)
    (known : groupId ∈ groupIds graph.groups) (nodeIds : List Int) :
    let after := nodeIds.foldl (FlowGraph.setNodeGroup · (some groupId)) graph
    GroupTree kinds after ∧ after.groups = graph.groups := by
  have regroups : Regroups (fun _ other => other = some groupId) (fun _ _ => False) graph
      (nodeIds.foldl (FlowGraph.setNodeGroup · (some groupId)) graph) :=
    .setNodeGroups graph _ nodeIds
  refine ⟨regroups.tree tree (fun _ other given => ?_) fun _ _ typed => typed.elim,
    regroups.groups⟩
  exact Option.some.inj given ▸ known

theorem GroupTree.createGroup (tree : GroupTree kinds graph) (name : String) (nodeIds : List Int)
    (color : Option String) (bounds : Option Box) {parentGroupId : Option Int}
    (childGroupIds : List Int)
    (parent : ∀ parentId, parentGroupId = some parentId → parentId ∈ groupIds graph.groups) :
    GroupTree kinds (graph.createGroup name nodeIds color bounds parentGroupId childGroupIds) := by
  have fresh := nextGroupId_fresh graph
  let plain : GroupInformation :=
    { id := graph.nextGroupId, name, color, xPosition := 0, yPosition := 0, width := 400,
      height := 250, collapsed := false, parentGroupId }
  let group := (bounds.map fun box => plain.withBounds box).getD plain
  have sameId : group.id = graph.nextGroupId := (bounded_same bounds plain).1
  have sameParent : group.parentGroupId = parentGroupId := (bounded_same bounds plain).2
  have placed : putGroup graph.groups group = graph.groups ++ [group] := by
    rw [putGroup, if_neg]
    intro taken
    obtain ⟨other, mem, same⟩ := any_eq_true.mp taken
    have own : other.id = graph.nextGroupId := (of_decide_eq_true same).trans sameId
    exact fresh (own ▸ mem_map_of_mem mem)
  have table : ParentTable (graph.groups ++ [group]) := by
    apply tree.table.append
    · rwa [sameId]
    · rwa [sameParent]
  have ids : groupIds (graph.groups ++ [group]) = groupIds graph.groups ++ [graph.nextGroupId] := by
    rw [groupIds, map_append]
    exact congrArg (fun id => groupIds graph.groups ++ [id]) sameId
  have extended : GroupTree kinds { graph with
      groups := putGroup graph.groups group, groupIdSeq := graph.nextGroupId } := by
    rw [placed]
    exact tree.withTable table (fun id mem => ids ▸ mem_append_left _ mem) _
  have known : graph.nextGroupId ∈ groupIds (putGroup graph.groups group) := by
    rw [placed, ids]
    exact mem_append_right _ (mem_singleton_self _)
  obtain ⟨filled, sameGroups⟩ := extended.setNodeGroups known nodeIds
  -- each child that is adopted leaves a sound tree that holds the new group
  have adopted : ∀ (childIds : List Int) (graph : FlowGraph P) (groupId : Int),
      GroupTree kinds graph → groupId ∈ groupIds graph.groups →
      GroupTree kinds (childIds.foldl (fun graph childId =>
        if (FlowGraph.getGroup graph childId).isSome &&
            !FlowGraph.isAncestorGroup graph childId groupId then
          FlowGraph.modifyGroup graph childId fun child =>
            { child with parentGroupId := some groupId }
        else graph) graph) := by
    intro childIds
    induction childIds with
    | nil => exact fun _ _ tree _ => tree
    | cons childId rest ih =>
      intro graph groupId tree known
      rw [foldl_cons]
      split
      case isTrue allowed =>
        have notAbove : graph.isAncestorGroup childId groupId = false := by
          simpa using (Bool.and_eq_true_iff.mp allowed).2
        refine ih _ groupId (tree.adopt known notAbove) ?_
        show groupId ∈ groupIds (reparent graph.groups childId (some groupId))
        rwa [groupIds_reparent]
      case isFalse => exact ih graph groupId tree known
  have whole := adopted childGroupIds _ graph.nextGroupId filled (sameGroups ▸ known)
  rw [FlowGraph.createGroup]
  split
  · exact whole.recomputeGroupBounds _
  · exact whole

/-- Changing the attributes of a group. -/
theorem GroupTree.updateGroup (tree : GroupTree kinds graph) (groupId : Int)
    (name color : Option String) (bounds : Option Box) (collapsed : Option Bool) :
    GroupTree kinds (graph.updateGroup groupId name color bounds collapsed) :=
  tree.modifyGroup groupId (fun _ => (bounded_same bounds _).1) fun _ =>
    (bounded_same bounds _).2

theorem groupId_setNodeGroups (distinct : (graph.nodeDb.map NodeRef.nodeId).Nodup)
    (groupId : Option Int) (nodeIds : List Int) {ref : NodeRef} (live : ref ∈ graph.nodeDb) :
    ((nodeIds.foldl (FlowGraph.setNodeGroup · groupId) graph).heap ref).setting.groupId =
      if ref.nodeId ∈ nodeIds then groupId else (graph.heap ref).setting.groupId := by
  induction nodeIds generalizing graph with
  | nil => simp
  | cons nodeId rest ih =>
    have sameTable := (SameWiring.setNodeGroup graph groupId nodeId).nodeDb
    have first : ((graph.setNodeGroup groupId nodeId).heap ref).setting.groupId =
        if ref.nodeId = nodeId then groupId else (graph.heap ref).setting.groupId := by
      rw [FlowGraph.setNodeGroup]
      split
      case h_1 missing =>
        have absent := List.find?_eq_none.mp missing ref live
        rw [if_neg (by simpa using absent)]
      case h_2 other found =>
        have mem : other ∈ graph.nodeDb := mem_of_find?_eq_some found
        have own : other.nodeId = nodeId := by
          simpa using List.find?_some found
        by_cases same : ref = other
        · subst same
          rw [modifyNode_heap_self, if_pos own]
        · rw [modifyNode_heap_of_ne _ _ _ _ same, if_neg]
          rintro rfl
          exact same (inj_on_of_nodup_map distinct live mem own.symm)
    rw [foldl_cons, ih (sameTable ▸ distinct) (sameTable ▸ live), first]
    by_cases own : ref.nodeId = nodeId
    · simp [own]
    · simp [own]

def liftGroups (childIds : List Int) (lifted : Option Int) (groups : List GroupInformation) :
    List GroupInformation :=
  childIds.foldl (fun groups childId => reparent groups childId lifted) groups

theorem groupIds_liftGroups (childIds : List Int) (lifted : Option Int) :
    groupIds (liftGroups childIds lifted groups) = groupIds groups := by
  induction childIds generalizing groups with
  | nil => rfl
  | cons childId rest ih =>
    rw [liftGroups, foldl_cons, ← liftGroups, ih, groupIds_reparent]

variable {childIds : List Int}

theorem parentEdge_liftGroups {lifted : Option Int} {child parent : Int} :
    parentEdge (liftGroups childIds lifted groups) child parent ↔
      (child ∉ childIds ∧ parentEdge groups child parent) ∨
        (child ∈ childIds ∧ child ∈ groupIds groups ∧ lifted = some parent) := by
  induction childIds generalizing groups with
  | nil => simp [liftGroups]
  | cons childId rest ih =>
    rw [liftGroups, foldl_cons, ← liftGroups, ih, parentEdge_reparent, groupIds_reparent, mem_cons]
    tauto

theorem modifyGroups_lift (childIds : List Int) (lifted : Option Int) (graph : FlowGraph P) :
    childIds.foldl (fun graph childId =>
      graph.modifyGroup childId fun child => { child with parentGroupId := lifted }) graph =
      { graph with groups := liftGroups childIds lifted graph.groups } := by
  induction childIds generalizing graph with
  | nil => rfl
  | cons childId rest ih =>
    rw [foldl_cons, ih]
    rfl

theorem ParentTable.lift (table : ParentTable groups) (inTable : group ∈ groups)
    (children : ∀ childId ∈ childIds, parentEdge groups childId group.id) :
    ParentTable (liftGroups childIds group.parentGroupId groups) where
  distinct := (groupIds_liftGroups childIds _).symm ▸ table.distinct
  known child parent edge := by
    rw [groupIds_liftGroups]
    rcases parentEdge_liftGroups.mp edge with ⟨_, old⟩ | ⟨_, _, up⟩
    · exact table.known child parent old
    · exact table.known group.id parent ⟨group, inTable, rfl, up⟩
  acyclic id cycle := by
    refine table.acyclic id (Relation.TransGen.closed ?_ id id cycle)
    intro child parent edge
    rcases parentEdge_liftGroups.mp edge with ⟨_, old⟩ | ⟨lifted, _, up⟩
    · exact .single old
    · exact .tail (.single (children child lifted)) ⟨group, inTable, rfl, up⟩

section

variable (tree : GroupTree kinds graph)
include tree

theorem GroupTree.deleteGroup (groupId : Int) : GroupTree kinds (graph.deleteGroup groupId) := by
  rw [FlowGraph.deleteGroup]
  split
  case h_1 => exact tree
  case h_2 group found =>
    obtain ⟨inTable, rfl⟩ := getGroup_spec found
    have notOwn : group.parentGroupId ≠ some group.id := fun own =>
      tree.table.acyclic group.id (.single ⟨group, inTable, rfl, own⟩)
    have regroups : Regroups (fun _ other => other = group.parentGroupId) (fun _ _ => False) graph
        ((graph.memberNodeIds group.id).foldl (FlowGraph.setNodeGroup · group.parentGroupId)
          graph) := .setNodeGroups graph _ _
    have lifted := regroups.tree tree
      (fun _ parentId given => tree.table.known group.id parentId ⟨group, inTable, rfl, given.symm⟩)
      fun _ _ typed => typed.elim
    have sameChildren : FlowGraph.childGroupIds
        ((graph.memberNodeIds group.id).foldl (FlowGraph.setNodeGroup · group.parentGroupId) graph)
        group.id = graph.childGroupIds group.id := by
      rw [FlowGraph.childGroupIds, regroups.groups]
      rfl
    have isChild : ∀ childId, childId ∈ graph.childGroupIds group.id ↔
        parentEdge graph.groups childId group.id := by
      intro childId
      simp [FlowGraph.childGroupIds, parentEdge, and_comm, and_left_comm]
    dsimp only
    rw [sameChildren, modifyGroups_lift, regroups.groups]
    have table := tree.table.lift inTable fun childId => (isChild childId).mp
    refine GroupTree.popGroup (lifted.withTable table ?_ _) ?_ ?_
    · intro id mem
      rwa [groupIds_liftGroups, ← regroups.groups]
    · intro ref live names
      have sameTable := (SameWiring.fold _ (SameWiring.setNodeGroup · group.parentGroupId)
        (graph.memberNodeIds group.id) graph).nodeDb
      have inGraph : ref ∈ graph.nodeDb := sameTable ▸ live
      have now := groupId_setNodeGroups tree.distinctNodes group.parentGroupId
        (graph.memberNodeIds group.id) inGraph
      rw [now] at names
      split at names
      case isTrue => exact notOwn names
      case isFalse other =>
        refine other (mem_map_of_mem (mem_filter.mpr ⟨inGraph, ?_⟩))
        exact decide_eq_true names
    · intro child edge
      rcases parentEdge_liftGroups.mp edge with ⟨other, old⟩ | ⟨_, _, up⟩
      · exact other ((isChild child).mpr old)
      · exact notOwn up

theorem GroupTree.addNodesToGroup (groupId : Int)
    (nodeIds : List Int) : GroupTree kinds (graph.addNodesToGroup groupId nodeIds) := by
  rw [FlowGraph.addNodesToGroup]
  split
  case h_1 => exact tree
  case h_2 group found =>
    obtain ⟨inTable, rfl⟩ := getGroup_spec found
    exact (tree.setNodeGroups (mem_map_of_mem inTable) nodeIds).1.recomputeGroupBounds _

theorem GroupTree.freeNodes (nodeIds affected : List Int) :
    GroupTree kinds (nodeIds.foldl (fun (graph, affected) nodeId =>
      match FlowGraph.groupOfNode graph nodeId with
      | none => (graph, affected)
      | some groupId => (FlowGraph.setNodeGroup graph none nodeId, affected ++ [groupId]))
      (graph, affected)).1 := by
  induction nodeIds generalizing graph affected with
  | nil => exact tree
  | cons nodeId rest ih =>
    rw [foldl_cons]
    dsimp only
    split
    case h_1 => exact ih tree affected
    case h_2 groupId _ =>
      have freed : Regroups (fun _ other => other = none) (fun _ _ => False) graph
          (graph.setNodeGroup none nodeId) := .setNodeGroup graph _ nodeId
      exact ih
        (freed.tree tree nofun fun _ _ typed => typed.elim) _

theorem GroupTree.removeNodesFromGroup (setOrder : List Int → List Int) (nodeIds : List Int) :
    GroupTree kinds (graph.removeNodesFromGroup setOrder nodeIds) := by
  have refitted : ∀ (affected : List Int) (graph : FlowGraph P), GroupTree kinds graph →
      GroupTree kinds (affected.foldl (fun graph groupId =>
        if FlowGraph.groupIsEmpty graph groupId then FlowGraph.popGroup graph groupId
        else FlowGraph.recomputeGroupBounds graph groupId) graph) := by
    intro affected
    induction affected with
    | nil => exact fun _ tree => tree
    | cons groupId rest ih =>
      intro graph tree
      rw [foldl_cons]
      apply ih
      split
      case isTrue empty => exact tree.popEmpty empty
      case isFalse => exact tree.recomputeGroupBounds groupId
  rw [FlowGraph.removeNodesFromGroup]
  exact refitted _ _ (tree.freeNodes nodeIds [])

end

/-- Moving nodes. -/
theorem Regroups.setNodePositions {given : NodeRef → Option Int → Prop}
    {typed : NodeRef → String → Prop} (graph : FlowGraph P) (updates : List (Int × ℚ × ℚ)) :
    Regroups given typed graph (graph.setNodePositions updates) := by
  apply Regroups.fold
  rintro graph ⟨nodeId, posX, posY⟩
  dsimp only
  split
  case h_1 => exact .refl graph
  case h_2 ref _ => exact .modifyNode graph ref _ (.inl rfl) (.inl rfl)

theorem GroupTree.setGroupBounds (tree : GroupTree kinds graph) (updates : List (Int × Box)) :
    GroupTree kinds (graph.setGroupBounds updates) := by
  rw [FlowGraph.setGroupBounds]
  induction updates generalizing graph with
  | nil => exact tree
  | cons update rest ih =>
    exact ih (tree.modifyGroup update.1 (fun _ => rfl) fun _ => rfl)

theorem putGroups_eq (distinct : (groupIds groups).Nodup) : groups.foldl putGroup [] = groups := by
  have stored : ∀ (later earlier : List GroupInformation),
      (groupIds (earlier ++ later)).Nodup → later.foldl putGroup earlier = earlier ++ later := by
    intro later
    induction later with
    | nil => simp
    | cons group rest ih =>
      intro earlier distinct
      have placed : putGroup earlier group = earlier ++ [group] := by
        rw [putGroup, if_neg]
        intro taken
        obtain ⟨other, mem, same⟩ := any_eq_true.mp taken
        rw [groupIds, map_append] at distinct
        exact (nodup_append.mp distinct).2.2 other.id (mem_map_of_mem mem) group.id
          (mem_cons_self) (of_decide_eq_true same)
      rw [foldl_cons, placed, ih _ (by simpa using distinct)]
      simp
  exact stored groups [] distinct

theorem GroupTree.refitRestored (tree : GroupTree kinds graph) (ids : List Int) :
    GroupTree kinds (ids.foldl (fun graph groupId =>
      match FlowGraph.getGroup graph groupId with
      | none => graph
      | some group =>
        if group.width ≤ 0 ∨ group.height ≤ 0 then FlowGraph.recomputeGroupBounds graph groupId
        else graph) graph) := by
  induction ids generalizing graph with
  | nil => exact tree
  | cons groupId rest ih =>
    rw [foldl_cons]
    apply ih
    split
    case h_1 => exact tree
    case h_2 =>
      split
      · exact tree.recomputeGroupBounds groupId
      · exact tree

theorem GroupTree.restoreGroups (distinct : (graph.nodeDb.map NodeRef.nodeId).Nodup)
    (types : ∀ ref ∈ graph.nodeDb, kinds (graph.heap ref).nodeType) (table : ParentTable groups)
    (members : ∀ ref ∈ graph.nodeDb, ∀ groupId,
      (graph.heap ref).setting.groupId = some groupId → groupId ∈ groupIds groups) :
    GroupTree kinds (graph.restoreGroups groups) := by
  rw [FlowGraph.restoreGroups]
  apply GroupTree.refitRestored
  rw [putGroups_eq table.distinct]
  exact ⟨distinct, types, table, members⟩

end Flowfile.Graph
