import Flowfile.BrowserReuse

/-!
# Inputs of nodes and edges of the flow

What a node is built from are ids in its input fields, and each of these is drawn as an edge, in
every flow in which edges with the same id have the same ends. Dirty marks can therefore follow the
edges. Taking a source away leaves what a node is built from, unless it is built from that source.
-/

namespace Flowfile.BrowserReuse

open BrowserStore Library.Dictionaries List

def FedBy (node : FlowNode) (input : Nat) : Prop :=
  input ∈ node.inputIds ∨ node.leftInputId = some input ∨ node.rightInputId = some input

theorem present_eq_some {inputId : Option Nat} {id : Nat} (found : present inputId = some id) :
    inputId = some id :=
  (Option.filter_eq_some_iff.mp found).1

variable {node : FlowNode} {inputs : List Nat} {input : Nat}

theorem fedBy_of_executorInputs (read : executorInputs node = some inputs) (mem : input ∈ inputs) :
    FedBy node input := by
  rw [executorInputs] at read
  split at read
  · cases read
    exact (not_mem_nil mem).elim
  split at read
  · obtain ⟨first, found, rfl⟩ := Option.map_eq_some_iff.mp read
    obtain rfl := mem_singleton.mp mem
    exact .inl (mem_of_mem_head? (present_eq_some found))
  split at read
  · obtain ⟨leftId, left, paired⟩ := Option.bind_eq_some_iff.mp read
    obtain ⟨rightId, right, rfl⟩ := Option.map_eq_some_iff.mp paired
    rcases mem_cons.mp mem with rfl | mem
    · rcases Option.or_eq_some_iff.mp left with left | ⟨_, left⟩
      · exact .inr (.inl (present_eq_some left))
      · exact .inl (mem_of_mem_head? (present_eq_some left))
    · obtain rfl := mem_singleton.mp mem
      exact .inr (.inr (present_eq_some right))
  split at read
  · split at read
    · cases read
    · cases read
      exact .inl mem
  split at read
  · cases read
    exact .inl mem
  · cases read

variable {source : Nat}

/-- Taking away a source that a node is not built from leaves what it is built from. -/
theorem executorInputs_disconnect
    (read : executorInputs node = some inputs) (absent : source ∉ inputs) :
    executorInputs (node.disconnect source) = some inputs := by
  have head : ∀ first, present node.inputIds.head? = some first → first ≠ source →
      present (node.disconnect source).inputIds.head? = some first := by
    intro first found apart
    obtain ⟨rest, ids⟩ := List.head?_eq_some_iff.mp (present_eq_some found)
    have kept : (node.disconnect source).inputIds.head? = some first := by
      simp [FlowNode.disconnect, ids, apart]
    rw [kept]
    rwa [ids] at found
  rw [executorInputs] at read ⊢
  rw [show (node.disconnect source).type = node.type from rfl]
  split at read
  case isTrue isSource => rw [if_pos isSource, read]
  case isFalse notSource =>
  rw [if_neg notSource]
  split at read
  case isTrue isSingle =>
    rw [if_pos isSingle]
    obtain ⟨first, found, rfl⟩ := Option.map_eq_some_iff.mp read
    rw [head first found fun same => absent (mem_singleton.mpr same.symm), Option.map_some]
  case isFalse notSingle =>
  rw [if_neg notSingle]
  split at read
  case isTrue isJoin =>
    rw [if_pos isJoin]
    obtain ⟨leftId, left, paired⟩ := Option.bind_eq_some_iff.mp read
    obtain ⟨rightId, right, rfl⟩ := Option.map_eq_some_iff.mp paired
    have leftApart : leftId ≠ source := fun same => absent (by simp [same])
    have rightApart : rightId ≠ source := fun same => absent (by simp [same])
    have rightKept : (node.disconnect source).rightInputId = node.rightInputId :=
      if_neg fun same => rightApart (Option.some.inj ((present_eq_some right).symm.trans same))
    have leftKept : (present (node.disconnect source).leftInputId).or
        (present (node.disconnect source).inputIds.head?) = some leftId := by
      rcases Option.or_eq_some_iff.mp left with left | ⟨none, first⟩
      · have kept : (node.disconnect source).leftInputId = node.leftInputId :=
          if_neg fun same => leftApart (Option.some.inj ((present_eq_some left).symm.trans same))
        rw [kept, left, Option.some_or]
      rw [head leftId first leftApart]
      rw [FlowNode.disconnect]
      dsimp only
      split
      · rw [present, Option.filter_none, Option.none_or]
      · rw [none, Option.none_or]
    rw [leftKept, rightKept, right]
    rfl
  case isFalse notJoin =>
  rw [if_neg notJoin]
  have same : source ∉ node.inputIds → (node.disconnect source).inputIds = node.inputIds :=
    fun absent => filter_eq_self.mpr fun other mem =>
      decide_eq_true fun equal => absent (equal ▸ mem)
  split at read
  case isTrue isUnion =>
    rw [if_pos isUnion]
    split at read
    · cases read
    · rename_i filled
      cases read
      rw [same absent, if_neg filled]
  case isFalse notUnion =>
  rw [if_neg notUnion]
  split at read
  case isTrue isCode =>
    cases read
    rw [if_pos isCode, same absent]
  case isFalse => cases read

theorem fedBy_connect {targetHandle : String}
    (fed : FedBy (node.connect source targetHandle) input) :
    FedBy node input ∨ input = source := by
  rw [FlowNode.connect] at fed
  split at fed
  · rcases fed with named | left | right
    · dsimp only at named
      split at named
      · exact .inl (.inl named)
      · rcases mem_append.mp named with named | same
        · exact .inl (.inl named)
        · exact .inr (mem_singleton.mp same)
    · exact .inr (Option.some.inj left).symm
    · exact .inl (.inr (.inr right))
  · split at fed
    · rcases fed with named | left | right
      · exact .inl (.inl named)
      · exact .inl (.inr (.inl left))
      · exact .inr (Option.some.inj right).symm
    · exact .inl fed

theorem fedBy_disconnect
    (fed : FedBy (node.disconnect source) input) : FedBy node input ∧ input ≠ source := by
  rcases fed with named | left | right
  · exact ((node.mem_inputIds_disconnect source input).mp named).imp_left .inl
  · exact (node.leftInputId_disconnect source input left).imp_left fun left => .inr (.inl left)
  · exact ((node.rightInputId_disconnect source input).mp right).imp_left fun right =>
      .inr (.inr right)

structure Drawn (flow : FlowStore) : Prop where
  inputs : ∀ id node, flow.nodes.get id = some node → ∀ input, FedBy node input →
    (input, id) ∈ links flow
  named : ∀ edge ∈ flow.edges, ∀ other ∈ flow.edges, other.id = edge.id →
    other.source = edge.source ∧ other.target = edge.target

theorem mem_links {flow : FlowStore} {target : Nat} : (source, target) ∈ links flow ↔
    ∃ edge ∈ flow.edges, edge.source = source ∧ edge.target = target := by
  simp [links]

namespace Drawn

variable {flow : FlowStore}

theorem empty : Drawn .empty where
  inputs _ _ found := by cases found
  named _ mem := (not_mem_nil mem).elim

theorem addNode (drawn : Drawn flow) (type : String) : Drawn (flow.addNode type) where
  inputs id node found input fed := by
    rw [FlowStore.addNode, Dictionary.get_set] at found
    split at found
    · cases found
      rcases fed with named | left | right
      · exact (not_mem_nil named).elim
      · cases left
      · cases right
    · exact drawn.inputs id node found input fed
  named := drawn.named

theorem removeNode (drawn : Drawn flow) (id : Nat) : Drawn (flow.removeNode id) where
  inputs other node found input fed := by
    rw [FlowStore.removeNode, Dictionary.get_mapValues, Dictionary.get_erase] at found
    obtain ⟨before, kept, rfl⟩ := Option.map_eq_some_iff.mp found
    split at kept
    · cases kept
    case isFalse apart =>
      obtain ⟨fedBefore, inputApart⟩ := fedBy_disconnect fed
      obtain ⟨edge, mem, source, target⟩ :=
        mem_links.mp (drawn.inputs other before kept input fedBefore)
      exact mem_links.mpr ⟨edge, mem_filter.mpr ⟨mem, decide_eq_true
        ⟨source ▸ inputApart, target ▸ apart⟩⟩, source, target⟩
  named edge mem other otherMember :=
    drawn.named edge (mem_filter.mp mem).1 other (mem_filter.mp otherMember).1

theorem addEdge (drawn : Drawn flow) {edge : FlowEdge} (told : ∀ other ∈ flow.edges,
    other.id = edge.id → other.source = edge.source ∧ other.target = edge.target) :
    Drawn (flow.addEdge edge) := by
  rw [FlowStore.addEdge]
  split
  · exact drawn
  refine ⟨fun id node found input fed => mem_links.mpr ?_, fun first early second late same => ?_⟩
  · have before : ∀ node, flow.nodes.get id = some node → FedBy node input →
        ∃ other ∈ flow.edges ++ [edge], other.source = input ∧ other.target = id := by
      intro node found fed
      obtain ⟨other, mem, ends⟩ := mem_links.mp (drawn.inputs id node found input fed)
      exact ⟨other, mem_append_left _ mem, ends⟩
    dsimp only at found
    rw [Dictionary.get_modify] at found
    split at found
    case isFalse => exact before node found fed
    case isTrue same =>
      obtain ⟨node, stored, rfl⟩ := Option.map_eq_some_iff.mp found
      rcases fedBy_connect fed with fed | rfl
      · exact before node stored fed
      · exact ⟨edge, mem_append_right _ mem_cons_self, rfl, same.symm⟩
  · rcases mem_append.mp early with earlier | here <;>
      rcases mem_append.mp late with later | there
    · exact drawn.named first earlier second later same
    · rw [mem_singleton.mp there] at same ⊢
      exact (told first earlier same.symm).imp Eq.symm Eq.symm
    · rw [mem_singleton.mp here] at same ⊢
      exact told second later same
    · rw [mem_singleton.mp here, mem_singleton.mp there]
      exact ⟨rfl, rfl⟩

theorem removeEdge (drawn : Drawn flow) (edgeId : String) : Drawn (flow.removeEdge edgeId) := by
  rw [FlowStore.removeEdge]
  split
  case h_2 => exact drawn
  case h_1 edge first =>
    have edgeMember := mem_of_find?_eq_some first
    have edgeNamed : edge.id = edgeId := by simpa using List.find?_some first
    refine ⟨fun id node found input fed => mem_links.mpr ?_, fun first mem second later =>
      drawn.named first (mem_filter.mp mem).1 second (mem_filter.mp later).1⟩
    -- An edge stays when one of its ends is not that of the removed edge.
    have kept : ∀ other ∈ flow.edges, ¬(other.source = edge.source ∧ other.target = edge.target) →
        other ∈ flow.edges.filter fun other => other.id ≠ edgeId := by
      intro other mem apart
      refine mem_filter.mpr ⟨mem, decide_eq_true fun same => apart ?_⟩
      exact drawn.named edge edgeMember other mem (same.trans edgeNamed.symm)
    dsimp only at found
    rw [Dictionary.get_modify] at found
    split at found
    case isTrue same =>
      obtain ⟨node, stored, rfl⟩ := Option.map_eq_some_iff.mp found
      obtain ⟨fed, apart⟩ := fedBy_disconnect fed
      obtain ⟨other, mem, source, target⟩ :=
        mem_links.mp (drawn.inputs id node stored input fed)
      exact ⟨other, kept other mem fun ends => apart (source.symm.trans ends.1), source, target⟩
    case isFalse apart =>
      obtain ⟨other, mem, source, target⟩ :=
        mem_links.mp (drawn.inputs id node found input fed)
      exact ⟨other, kept other mem fun ends => apart (target.symm.trans ends.2), source, target⟩

end Drawn

end Flowfile.BrowserReuse
