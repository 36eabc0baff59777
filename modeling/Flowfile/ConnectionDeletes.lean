import Flowfile.EdgeSymmetry
import Flowfile.FlowFile

/-!
# What deleting a connection removes

A connection has a source, an output of it, a target and a port. The target keeps its sources by
port, and the output by the id of the source, whatever the port. Deleting a connection must remove
it at both ends, and no other one.

The request is checked by id and port. Its output is not looked at. Then the source loses its first
successor with the id of the target, and the target loses a source: main sources while the list is
run over, a right one, or a left one if the right one has the id. With the source goes the output of
all its connections into the target. That nothing else is removed depends on what else the source
feeds, and is said exactly here, for every graph.
-/

namespace Flowfile.Graph

open Library.EventRuns List
open FlowGraph (deleteLeadToNode disconnect)

variable {P : Type}

/-- A connection. -/
structure Edge where
  source : NodeRef
  output : String
  target : NodeRef
  port : InputPort

structure ConnectionRequest where
  fromId : Int
  output : String
  toId : Int
  connectionClass : Fin 10

def FlowNode.slots (node : FlowNode P) : List (NodeRef × InputPort) :=
  (node.mainInputs.getD []).map (·, .main) ++ node.leftInput.toList.map (·, .left) ++
    node.rightInput.toList.map (·, .right)

/-- The output of a source from which a node is fed. -/
def FlowNode.outputOf (node : FlowNode P) (nodeId : Int) : String :=
  (node.inputOutputHandles nodeId).getD defaultOutputHandle

def FlowNode.edges (target : NodeRef) (node : FlowNode P) : List Edge :=
  node.slots.map fun slot => ⟨slot.1, node.outputOf slot.1.nodeId, target, slot.2⟩

/-- The node without the source of a port, as it is deleted. -/
def FlowNode.without (node : FlowNode P) (nodeId : Int) : InputPort → FlowNode P
  | .main => node.popMain nodeId (node.mainInputs.getD [])
  | .right => node.clearRight nodeId
  | .left => node.clearLeft nodeId

open FlowNode (outputOf edges slots without)

def World.deleteRequested [DecidableEq P] (fuel : Nat) (world : World P)
    (request : ConnectionRequest) : Option (Outcome P) :=
  world.deleteConnection fuel request.fromId request.toId request.connectionClass

/-- An edge is removed at both ends, and all others are kept. -/
structure RemovesEdge (graph after : FlowGraph P) (edge : Edge) : Prop where
  edges : ∀ ref, ((graph.heap ref).edges ref).Perm
    ((if ref = edge.target then [edge] else []) ++ (after.heap ref).edges ref)
  leads : ∀ ref, (graph.heap ref).leadsToNodes.Perm
    ((if ref = edge.source then [edge.target] else []) ++ (after.heap ref).leadsToNodes)

structure Addresses (graph : FlowGraph P) (request : ConnectionRequest) (source target : NodeRef)
    (port : InputPort) : Prop where
  source : graph.getNode request.fromId = some source
  target : graph.getNode request.toId = some target
  port : nodeInputConnectionType request.connectionClass = .ok port

def DeletesExactly [DecidableEq P] (world : World P) (request : ConnectionRequest) : Prop :=
  ∃ fuel after error, world.deleteRequested fuel request = some (after, error) ∧
    if error.isSome then after.graph = world.graph
    else ∃ source target port, Addresses world.graph request source target port ∧
      RemovesEdge world.graph after.graph ⟨source, request.output, target, port⟩

def Refused (graph : FlowGraph P) (request : ConnectionRequest) : Prop :=
  ∀ source target port, Addresses graph request source target port →
    ∀ slot ∈ (graph.heap target).slots, slot.2 = port → slot.1.nodeId ≠ request.fromId

/-- A left source is asked for where there is no right one, and the source does not have the target
as a successor. -/
def FailsUntouched (graph : FlowGraph P) (request : ConnectionRequest) : Prop :=
  ∃ source target, Addresses graph request source target .left ∧
    (∃ left, (graph.heap target).leftInput = some left ∧ left.nodeId = request.fromId) ∧
    (graph.heap target).rightInput = none ∧
    ∀ lead ∈ (graph.heap source).leadsToNodes, lead.nodeId ≠ request.toId

/-- Only one source is taken from a port. Among main sources the one after the first match is passed
over, and a left source is taken if the right one has its id. -/
def TakesOne (node : FlowNode P) (source : NodeRef) : InputPort → Prop
  | .main => ∃ before later, node.mainInputs = some (before ++ source :: later) ∧
      (∀ input ∈ before, input.nodeId ≠ source.nodeId) ∧
      ∀ input ∈ later.tail, input.nodeId ≠ source.nodeId
  | .right => node.rightInput = some source
  | .left => node.leftInput = some source ∧
      ∃ right, node.rightInput = some right ∧ right.nodeId = source.nodeId

/-- A connection that is removed alone: the first successor with the id of the target is the target,
the request names the stored output, only one source is taken, and the output is the default one if
the source feeds the target elsewhere. The hashes behind the target can be reset. -/
structure RemovedAlone [DecidableEq P] (world : World P) (request : ConnectionRequest)
    (source target : NodeRef) (port : InputPort) : Prop where
  addresses : Addresses world.graph request source target port
  lead : (world.graph.heap source).leadsToNodes.find? (·.nodeId = request.toId) = some target
  output : (world.graph.heap target).outputOf request.fromId = request.output
  takesOne : TakesOne (world.graph.heap target) source port
  elsewhere : 2 ≤ (world.graph.heap target).slots.countP (·.1.nodeId = request.fromId) →
    request.output = defaultOutputHandle
  resets : ∃ fuel, (World.resetNode fuel ⟨world.graph.disconnect source target request.toId
    (((world.graph.deleteLeadToNode source request.toId).heap target).without request.fromId port),
    world.hashes⟩ target).isSome

variable {α : Type}

theorem heads_of_perm [DecidableEq α] {first second : α} {rest : List α}
    (same : (first :: rest).Perm (second :: rest)) : first = second := by
  by_contra differ
  have counts := same.count_eq first
  rw [count_cons_self, count_cons_of_ne (Ne.symm differ)] at counts
  omega

/-- What stands after another element stands before it. -/
theorem perm_behind_iff {head item : α} {rest others : List α} :
    (head :: rest).Perm (item :: head :: others) ↔ rest.Perm (item :: others) := by
  constructor
  · exact fun same => List.Perm.cons_inv (same.trans (List.Perm.swap _ _ _))
  · exact fun same => (List.Perm.cons head same).trans (List.Perm.swap _ _ _)

/-- Erasing the first element with a property takes an item out exactly if it is that element. -/
theorem perm_eraseP_iff [DecidableEq α] {chosen : α → Bool} {item : α} (items : List α) :
    items.Perm (item :: items.eraseP chosen) ↔ items.find? chosen = some item := by
  induction items with
  | nil => simp
  | cons head rest inner =>
    cases matched : chosen head with
    | true =>
      rw [eraseP_cons_of_pos matched, List.find?_cons_of_pos matched, Option.some.injEq]
      constructor
      · exact heads_of_perm
      · rintro rfl
        exact List.Perm.refl _
    | false =>
      rw [eraseP_cons_of_neg (by simp [matched]), List.find?_cons_of_neg (by simp [matched]),
        ← inner, perm_behind_iff]

/-- Popping changes nothing exactly if no element matches. -/
theorem popMatching_eq_self_iff {nodeId : Int} (inputs : List NodeRef) :
    popMatching nodeId inputs = inputs ↔ ∀ input ∈ inputs, input.nodeId ≠ nodeId := by
  refine ⟨fun same => ?_, popMatching_of_absent inputs⟩
  fun_induction popMatching nodeId inputs with
  | case1 => exact fun _ none => absurd none not_mem_nil
  | case2 => cases same
  | case3 ref matched passed later _ =>
    have shorter := (popMatching_sublist nodeId later).length_le
    have counted := congrArg List.length same
    simp only [length_cons] at counted
    omega
  | case4 ref rest apart inner =>
    exact forall_mem_cons.mpr ⟨apart, inner (List.cons.inj same).2⟩

theorem popMatching_cons_of_ne {nodeId : Int} {head : NodeRef} (apart : head.nodeId ≠ nodeId)
    (rest : List NodeRef) :
    popMatching nodeId (head :: rest) = head :: popMatching nodeId rest := by
  rw [popMatching.eq_def]
  exact if_neg apart

theorem perm_popMatching_head {nodeId : Int} {source head : NodeRef}
    (matched : head.nodeId = nodeId) (rest : List NodeRef) :
    (head :: rest).Perm (source :: popMatching nodeId (head :: rest)) ↔
      head = source ∧ ∀ input ∈ rest.tail, input.nodeId ≠ nodeId := by
  cases rest with
  | nil => simp [popMatching, matched]
  | cons passed later =>
  rw [popMatching, if_pos matched, tail_cons, ← popMatching_eq_self_iff]
  constructor
  · intro same
    have counted := same.length_eq
    simp only [length_cons] at counted
    have kept := (popMatching_sublist nodeId later).eq_of_length (by omega)
    rw [kept] at same
    exact ⟨heads_of_perm same, kept⟩
  · rintro ⟨rfl, kept⟩
    rw [kept]

/-- Popping takes one source out exactly if nothing matches before it, nor after the one behind. -/
theorem perm_popMatching_iff {source : NodeRef} (inputs : List NodeRef) :
    inputs.Perm (source :: popMatching source.nodeId inputs) ↔
      ∃ before later, inputs = before ++ source :: later ∧
        (∀ input ∈ before, input.nodeId ≠ source.nodeId) ∧
        ∀ input ∈ later.tail, input.nodeId ≠ source.nodeId := by
  induction inputs with
  | nil => simp
  | cons head rest inner =>
    by_cases matched : head.nodeId = source.nodeId
    · rw [perm_popMatching_head matched]
      constructor
      · rintro ⟨rfl, absent⟩
        exact ⟨[], rest, rfl, fun _ none => absurd none not_mem_nil, absent⟩
      · rintro ⟨_ | ⟨other, before⟩, later, split, apart, absent⟩
        · obtain ⟨rfl, rfl⟩ := List.cons.inj split
          exact ⟨rfl, absent⟩
        · rw [← (List.cons.inj split).1] at apart
          exact absurd matched (apart head mem_cons_self)
    · rw [popMatching_cons_of_ne matched, perm_behind_iff, inner]
      constructor
      · rintro ⟨before, later, rfl, apart, absent⟩
        exact ⟨head :: before, later, rfl, forall_mem_cons.mpr ⟨matched, apart⟩, absent⟩
      · rintro ⟨_ | ⟨other, before⟩, later, split, apart, absent⟩
        · exact absurd (congrArg NodeRef.nodeId (List.cons.inj split).1) matched
        · exact ⟨before, later, (List.cons.inj split).2,
            fun input mem => apart input (mem_cons_of_mem _ mem), absent⟩

section

variable {node : FlowNode P} {nodeId : Int} {source target : NodeRef} {port : InputPort}
  {output : String}

/-- Where outputs are forgotten with a source, one edge is taken out exactly if one slot is, the
edge has its output, and the source has the default output if it is left anywhere. -/
theorem perm_edges_iff {after : FlowNode P} (source target : NodeRef) (port : InputPort)
    (forgets : after.inputOutputHandles =
      Function.update node.inputOutputHandles source.nodeId none) :
    (node.edges target).Perm (⟨source, output, target, port⟩ :: after.edges target) ↔
      node.slots.Perm ((source, port) :: after.slots) ∧ node.outputOf source.nodeId = output ∧
        ((∃ slot ∈ after.slots, slot.1.nodeId = source.nodeId) → output = defaultOutputHandle) := by
  have forgotten : after.outputOf source.nodeId = defaultOutputHandle := by
    rw [outputOf, forgets, Function.update_self, Option.getD_none]
  have kept : ∀ other, other ≠ source.nodeId → after.outputOf other = node.outputOf other := by
    intro other apart
    rw [outputOf, forgets, Function.update_of_ne apart, outputOf]
  constructor
  · intro same
    have slots := same.map fun edge => (edge.source, edge.port)
    rw [edges, map_map, map_cons, edges, map_map] at slots
    have slotsOf : ∀ items : List (NodeRef × InputPort), ∀ outputs : NodeRef × InputPort → String,
        items.map ((fun edge : Edge => (edge.source, edge.port)) ∘ fun slot =>
          (⟨slot.1, outputs slot, target, slot.2⟩ : Edge)) = items :=
      fun items outputs => map_id items
    rw [slotsOf node.slots fun slot => node.outputOf slot.1.nodeId,
      slotsOf after.slots fun slot => after.outputOf slot.1.nodeId] at slots
    have outputOf : ∀ edge ∈ node.edges target,
        edge.output = node.outputOf edge.source.nodeId := by
      intro edge mem
      obtain ⟨slot, _, rfl⟩ := mem_map.mp mem
      rfl
    have own : output = node.outputOf source.nodeId :=
      outputOf _ (same.symm.subset mem_cons_self)
    refine ⟨slots, own.symm, ?_⟩
    rintro ⟨slot, mem, sameId⟩
    have left : after.outputOf slot.1.nodeId = node.outputOf slot.1.nodeId :=
      outputOf _ (same.symm.subset (mem_cons_of_mem _ (mem_map_of_mem mem)))
    rw [own, ← forgotten, ← sameId, left]
  · rintro ⟨slots, own, elsewhere⟩
    rw [edges, edges]
    refine (slots.map _).trans ?_
    rw [map_cons, own]
    refine List.Perm.cons _ (List.Perm.of_eq (map_congr_left fun slot mem => ?_))
    by_cases sameId : slot.1.nodeId = source.nodeId
    · rw [sameId, own, elsewhere ⟨slot, mem, sameId⟩, forgotten]
    · rw [kept _ sameId]

theorem perm_port_iff {inputs others : List NodeRef} {rest : List (NodeRef × InputPort)} :
    (inputs.map (·, port) ++ rest).Perm ((source, port) :: (others.map (·, port) ++ rest)) ↔
      inputs.Perm (source :: others) := by
  have mapped : Function.Injective fun input : NodeRef => (input, port) :=
    fun _ _ same => congrArg Prod.fst same
  rw [← map_perm_map_iff mapped, map_cons, ← cons_append, perm_append_right_iff]

theorem perm_slots_main (source : NodeRef) :
    node.slots.Perm ((source, .main) :: (node.without source.nodeId .main).slots) ↔
      (node.mainInputs.getD []).Perm
        (source :: popMatching source.nodeId (node.mainInputs.getD [])) := by
  simp only [slots, without, FlowNode.popMain, Option.getD_some, append_assoc]
  exact perm_port_iff

theorem perm_slots_right {right : NodeRef} (stored : node.rightInput = some right) :
    node.slots.Perm ((source, .right) :: (node.without nodeId .right).slots) ↔ right = source := by
  simp only [slots, without, FlowNode.clearRight, stored, Option.toList_some,
    Option.toList_none, map_cons, map_nil, append_nil]
  rw [(perm_append_singleton _ _).congr_left]
  constructor
  · exact fun same => congrArg Prod.fst (heads_of_perm same)
  · rintro rfl
    exact List.Perm.refl _

theorem perm_slots_left {left : NodeRef} (stored : node.leftInput = some left) :
    node.slots.Perm ((source, .left) :: (node.without nodeId .left).slots) ↔ left = source := by
  simp only [slots, without, FlowNode.clearLeft, stored, Option.toList_some,
    Option.toList_none, map_cons, map_nil, append_nil, append_assoc,
    singleton_append]
  rw [perm_middle.congr_left]
  constructor
  · exact fun same => congrArg Prod.fst (heads_of_perm same)
  · rintro rfl
    exact List.Perm.refl _

theorem perm_slots_iff
    (present : ∃ slot ∈ node.slots, slot.2 = port ∧ slot.1.nodeId = source.nodeId)
    (leftTaken : port = .left →
      ∃ right, node.rightInput = some right ∧ right.nodeId = source.nodeId) :
    node.slots.Perm ((source, port) :: (node.without source.nodeId port).slots) ↔
      TakesOne node source port := by
  obtain ⟨slot, mem, rfl, own⟩ := present
  simp only [slots, mem_append, mem_map, Option.mem_toList] at mem
  rcases mem with (⟨main, inMain, rfl⟩ | ⟨left, inLeft, rfl⟩) | ⟨right, inRight, rfl⟩
  · rw [perm_slots_main, perm_popMatching_iff, TakesOne]
    cases stored : node.mainInputs with
    | none => simp [stored] at inMain
    | some inputs => simp
  · rw [perm_slots_left inLeft, TakesOne, inLeft, Option.some.injEq, and_iff_left (leftTaken rfl)]
  · rw [perm_slots_right inRight, TakesOne, inRight, Option.some.injEq]

/-- Taking a source from a port takes out one edge exactly if it takes one slot, the edge has its
output, and the source has the default output if it feeds the node elsewhere. -/
theorem perm_edges_without_iff (target : NodeRef)
    (present : ∃ slot ∈ node.slots, slot.2 = port ∧ slot.1.nodeId = source.nodeId)
    (leftTaken : port = .left →
      ∃ right, node.rightInput = some right ∧ right.nodeId = source.nodeId) :
    (node.edges target).Perm
        (⟨source, output, target, port⟩ :: (node.without source.nodeId port).edges target) ↔
      TakesOne node source port ∧ node.outputOf source.nodeId = output ∧
        (2 ≤ node.slots.countP (·.1.nodeId = source.nodeId) → output = defaultOutputHandle) := by
  have forgets : (node.without source.nodeId port).inputOutputHandles =
      Function.update node.inputOutputHandles source.nodeId none := by
    cases port <;> rfl
  rw [perm_edges_iff source target port forgets, perm_slots_iff present leftTaken]
  refine and_congr_right fun takes => and_congr_right fun _ => ?_
  have slots := (perm_slots_iff present leftTaken).mpr takes
  have counted := slots.countP_eq (·.1.nodeId = source.nodeId)
  rw [countP_cons_of_pos (by simp)] at counted
  have twice : 2 ≤ node.slots.countP (·.1.nodeId = source.nodeId) ↔
      ∃ slot ∈ (node.without source.nodeId port).slots, slot.1.nodeId = source.nodeId := by
    rw [counted, Nat.succ_le_succ_iff, Nat.succ_le_iff, countP_pos_iff]
    simp
  rw [twice]

end

section

variable {graph : FlowGraph P} {source target : NodeRef} {toId : Int} (ref : NodeRef)

theorem edges_deleteLeadToNode :
    ((graph.deleteLeadToNode source toId).heap ref).edges ref = (graph.heap ref).edges ref := by
  by_cases same : ref = source
  · rw [same, deleteLeadToNode, modifyNode_heap_self]
    rfl
  · rw [deleteLeadToNode, modifyNode_heap_of_ne _ _ _ _ same]

theorem inputs_deleteLeadToNode (graph : FlowGraph P) (source ref : NodeRef) (toId : Int) :
    ∃ leads, (graph.deleteLeadToNode source toId).heap ref =
      { graph.heap ref with leadsToNodes := leads } := by
  by_cases same : ref = source
  · exact ⟨_, by rw [same, deleteLeadToNode, modifyNode_heap_self]⟩
  · exact ⟨_, by rw [deleteLeadToNode, modifyNode_heap_of_ne _ _ _ _ same]⟩

/-- Successors after one was removed. -/
theorem leads_deleteLeadToNode : ((graph.deleteLeadToNode source toId).heap ref).leadsToNodes =
      if ref = source then (graph.heap ref).leadsToNodes.eraseP (·.nodeId = toId)
      else (graph.heap ref).leadsToNodes := by
  by_cases same : ref = source
  · rw [if_pos same, same, deleteLeadToNode, modifyNode_heap_self]
  · rw [if_neg same, deleteLeadToNode, modifyNode_heap_of_ne _ _ _ _ same]

/-- Removing a successor changes nothing exactly if there is none with the id. -/
theorem deleteLeadToNode_eq_iff (graph : FlowGraph P) (source : NodeRef) (toId : Int) :
    graph.deleteLeadToNode source toId = graph ↔
      ∀ lead ∈ (graph.heap source).leadsToNodes, lead.nodeId ≠ toId := by
  have erased : (graph.heap source).leadsToNodes.eraseP (·.nodeId = toId) =
      (graph.heap source).leadsToNodes ↔
        ∀ lead ∈ (graph.heap source).leadsToNodes, lead.nodeId ≠ toId := by
    simp [eraseP_eq_self_iff]
  rw [← erased]
  constructor
  · intro same
    have leads := congrArg (fun changed => (changed.heap source).leadsToNodes) same
    rwa [deleteLeadToNode, modifyNode_heap_self] at leads
  · intro same
    rw [deleteLeadToNode, FlowGraph.modifyNode, same, Function.update_eq_self]

theorem removesEdge_disconnect_iff {node : FlowNode P} {output : String} {port : InputPort}
    (kept : node.leadsToNodes = ((graph.deleteLeadToNode source toId).heap target).leadsToNodes) :
    RemovesEdge graph (graph.disconnect source target toId node)
        ⟨source, output, target, port⟩ ↔
      ((graph.heap target).edges target).Perm
          (⟨source, output, target, port⟩ :: node.edges target) ∧
        (graph.heap source).leadsToNodes.find? (·.nodeId = toId) = some target := by
  have edgesAt (ref : NodeRef) : ((graph.disconnect source target toId node).heap ref).edges ref =
      if ref = target then node.edges target else (graph.heap ref).edges ref := by
    by_cases same : ref = target
    · rw [if_pos same, same, disconnect, modifyNode_heap_self]
    · rw [if_neg same, disconnect, modifyNode_heap_of_ne _ _ _ _ same, edges_deleteLeadToNode]
  have leadsAt (ref : NodeRef) :
      ((graph.disconnect source target toId node).heap ref).leadsToNodes =
        if ref = source then (graph.heap ref).leadsToNodes.eraseP (·.nodeId = toId)
        else (graph.heap ref).leadsToNodes := by
    rw [← leads_deleteLeadToNode]
    by_cases same : ref = target
    · rw [same, disconnect, modifyNode_heap_self, kept]
    · rw [disconnect, modifyNode_heap_of_ne _ _ _ _ same]
  rw [← perm_eraseP_iff]
  constructor
  · rintro ⟨edges, leads⟩
    have atTarget := edges target
    have atSource := leads source
    rw [if_pos rfl, edgesAt, if_pos rfl] at atTarget
    rw [if_pos rfl, leadsAt, if_pos rfl] at atSource
    exact ⟨atTarget, atSource⟩
  · rintro ⟨atTarget, atSource⟩
    refine ⟨fun ref => ?_, fun ref => ?_⟩
    · rw [edgesAt]
      by_cases same : ref = target
      · rw [same, if_pos rfl, if_pos rfl]
        exact atTarget
      · rw [if_neg same, if_neg same]
        exact List.Perm.refl _
    · rw [leadsAt]
      by_cases same : ref = source
      · rw [same, if_pos rfl, if_pos rfl]
        exact atSource
      · rw [if_neg same, if_neg same]
        exact List.Perm.refl _

end

section

variable {graph : FlowGraph P} {request : ConnectionRequest} {source target : NodeRef}
  {port : InputPort}

theorem Addresses.unique {otherSource otherTarget : NodeRef} {otherPort : InputPort}
    (addresses : Addresses graph request source target port)
    (others : Addresses graph request otherSource otherTarget otherPort) :
    source = otherSource ∧ target = otherTarget ∧ port = otherPort := by
  refine ⟨?_, ?_, ?_⟩
  · exact Option.some.inj (addresses.source.symm.trans others.source)
  · exact Option.some.inj (addresses.target.symm.trans others.target)
  · exact Except.ok.inj (addresses.port.symm.trans others.port)

variable {node : FlowNode P} {nodeId : Int}

theorem inputConnectionExists_iff : node.inputConnectionExists nodeId port = .ok true ↔
      ∃ slot ∈ node.slots, slot.2 = port ∧ slot.1.nodeId = nodeId := by
  cases port with
  | main => simp [FlowNode.inputConnectionExists, slots]
  | left =>
    cases stored : node.leftInput <;>
      simp [FlowNode.inputConnectionExists, slots, stored]
  | right =>
    cases stored : node.rightInput <;>
      simp [FlowNode.inputConnectionExists, slots, stored]

theorem withoutInput_taken {connectionClass : Fin 10}
    (typed : nodeInputConnectionType connectionClass = .ok port)
    (present : ∃ slot ∈ node.slots, slot.2 = port ∧ slot.1.nodeId = nodeId)
    (leftTaken : port = .left → ∃ right, node.rightInput = some right ∧ right.nodeId = nodeId) :
    node.withoutInput nodeId connectionClass false = .ok (some (node.without nodeId port)) := by
  obtain ⟨slot, mem, atPort, own⟩ := present
  simp only [slots, mem_append, mem_map, Option.mem_toList] at mem
  rcases connectionType_cases typed with ⟨rfl, rfl⟩ | ⟨rfl, rfl⟩ | ⟨rfl, rfl⟩
  · rcases mem with (⟨main, inMain, rfl⟩ | ⟨left, _, rfl⟩) | ⟨right, _, rfl⟩
    · cases stored : node.mainInputs with
      | none => simp [stored] at inMain
      | some inputs =>
        rw [stored] at inMain
        rw [withoutInput_main stored ⟨main, inMain, own⟩, without, stored]
        rfl
    · cases atPort
    · cases atPort
  · rcases mem with (⟨main, _, rfl⟩ | ⟨left, _, rfl⟩) | ⟨right, inRight, rfl⟩
    · cases atPort
    · cases atPort
    · exact withoutInput_right inRight own
  · rcases mem with (⟨main, _, rfl⟩ | ⟨left, inLeft, rfl⟩) | ⟨right, _, rfl⟩
    · cases atPort
    · obtain ⟨right, inRight, sameId⟩ := leftTaken rfl
      exact withoutInput_left inLeft inRight sameId
    · cases atPort

variable [DecidableEq P] {world : World P} {fuel : Nat}

theorem deleteRequested_refused (refused : Refused world.graph request) :
    ∃ error, world.deleteRequested fuel request = some (world, some error) := by
  rw [World.deleteRequested, World.deleteConnection]
  split
  case h_1 source target fromFound toFound =>
    split
    case h_1 error _ => exact ⟨error, rfl⟩
    case h_2 port typed =>
      have own := (Covered.getNode_spec fromFound).2
      split
      case h_1 error _ => exact ⟨error, rfl⟩
      case h_2 => exact ⟨_, rfl⟩
      case h_3 connected =>
        obtain ⟨slot, mem, atPort, sameId⟩ := inputConnectionExists_iff.mp connected
        exact absurd (sameId.trans own)
          (refused source target port ⟨fromFound, toFound, typed⟩ slot mem atPort)
  case h_2 => exact ⟨_, rfl⟩

theorem deleteRequested_accepted (addresses : Addresses world.graph request source target port)
    (present : ∃ slot ∈ (world.graph.heap target).slots,
      slot.2 = port ∧ slot.1.nodeId = request.fromId) :
    world.deleteRequested fuel request = World.deleteInputNode fuel
        { world with graph := world.graph.deleteLeadToNode source request.toId } target
        request.fromId request.connectionClass false := by
  have own := (Covered.getNode_spec addresses.source).2
  have connected :
      (world.graph.heap target).inputConnectionExists source.nodeId port = .ok true := by
    rw [inputConnectionExists_iff, own]
    exact present
  simp only [World.deleteRequested, World.deleteConnection, addresses.source, addresses.target,
    addresses.port, connected]

theorem deletesExactly_taken (addresses : Addresses world.graph request source target port)
    (present : ∃ slot ∈ (world.graph.heap target).slots,
      slot.2 = port ∧ slot.1.nodeId = request.fromId)
    (leftTaken : port = .left → ∃ right, (world.graph.heap target).rightInput = some right ∧
        right.nodeId = request.fromId) :
    DeletesExactly world request ↔ RemovedAlone world request source target port := by
  have own := (Covered.getNode_spec addresses.source).2
  obtain ⟨leads, cut⟩ := inputs_deleteLeadToNode world.graph source target request.toId
  have slots : ((world.graph.deleteLeadToNode source request.toId).heap target).slots =
      (world.graph.heap target).slots := by rw [cut]; rfl
  have right : ((world.graph.deleteLeadToNode source request.toId).heap target).rightInput =
      (world.graph.heap target).rightInput := by rw [cut]
  have taken := withoutInput_taken addresses.port (slots ▸ present) (right ▸ leftTaken)
  have ran (fuel : Nat) : world.deleteRequested fuel request =
      (World.resetNode fuel ⟨world.graph.disconnect source target request.toId
        (((world.graph.deleteLeadToNode source request.toId).heap target).without request.fromId
          port), world.hashes⟩ target).map (·, none) := by
    rw [deleteRequested_accepted addresses present, World.deleteInputNode, taken]
    change (World.resetNode fuel ⟨world.graph.disconnect source target request.toId _,
      world.hashes⟩ target).bind _ = _
    rw [Option.map_eq_bind]
    rfl
  have removes : RemovesEdge world.graph (world.graph.disconnect source target request.toId
      (((world.graph.deleteLeadToNode source request.toId).heap target).without request.fromId
        port)) ⟨source, request.output, target, port⟩ ↔
      (TakesOne (world.graph.heap target) source port ∧
        (world.graph.heap target).outputOf request.fromId = request.output ∧
        (2 ≤ (world.graph.heap target).slots.countP (·.1.nodeId = request.fromId) →
          request.output = defaultOutputHandle)) ∧
      (world.graph.heap source).leadsToNodes.find? (·.nodeId = request.toId) = some target := by
    have edges : (((world.graph.deleteLeadToNode source request.toId).heap target).without
        request.fromId port).edges target =
          ((world.graph.heap target).without request.fromId port).edges target := by
      rw [cut]
      cases port <;> rfl
    rw [removesEdge_disconnect_iff (by cases port <;> rfl), edges]
    rw [← own] at present leftTaken ⊢
    rw [perm_edges_without_iff target present leftTaken]
  constructor
  · rintro ⟨fuel, after, error, returned, exact⟩
    rw [ran, Option.map_eq_some_iff] at returned
    obtain ⟨reset, resetting, joined⟩ := returned
    obtain ⟨rfl, rfl⟩ := Prod.mk.inj joined
    obtain ⟨_, _, _, others, removed⟩ := exact
    obtain ⟨rfl, rfl, rfl⟩ := addresses.unique others
    rw [resetNode_graph resetting] at removed
    obtain ⟨⟨takes, output, elsewhere⟩, lead⟩ := removes.mp removed
    exact ⟨addresses, lead, output, takes, elsewhere, fuel, by rw [resetting]; rfl⟩
  · rintro ⟨_, lead, output, takes, elsewhere, fuel, resets⟩
    obtain ⟨reset, resetting⟩ := Option.isSome_iff_exists.mp resets
    refine ⟨fuel, reset, none, ?_, source, target, port, addresses, ?_⟩
    · rw [ran, resetting]
      rfl
    · rw [resetNode_graph resetting]
      exact removes.mpr ⟨⟨takes, output, elsewhere⟩, lead⟩

section

variable {left : NodeRef} (addresses : Addresses world.graph request source target .left)
  (stored : (world.graph.heap target).leftInput = some left) (own : left.nodeId = request.fromId)
  (apart : ∀ right, (world.graph.heap target).rightInput = some right →
    right.nodeId ≠ request.fromId)
include addresses stored own apart

theorem deleteRequested_left : world.deleteRequested fuel request =
      some ({ world with graph := world.graph.deleteLeadToNode source request.toId },
        if (world.graph.heap target).rightInput.isSome then none
        else some (.noneHasNoAttribute "node_id")) := by
  have present : ∃ slot ∈ (world.graph.heap target).slots,
      slot.2 = .left ∧ slot.1.nodeId = request.fromId :=
    ⟨(left, .left), by simp [slots, stored], rfl, own⟩
  have second : request.connectionClass = 2 := by
    rcases connectionType_cases addresses.port with ⟨_, impossible⟩ | ⟨_, impossible⟩ | ⟨same, _⟩
    · cases impossible
    · cases impossible
    · exact same
  obtain ⟨leads, cut⟩ := inputs_deleteLeadToNode world.graph source target request.toId
  rw [deleteRequested_accepted addresses present, World.deleteInputNode, cut, second]
  cases rightStored : (world.graph.heap target).rightInput with
  | none => simp [FlowNode.withoutInput, stored, rightStored]
  | some right => simp [FlowNode.withoutInput, stored, rightStored, apart right rightStored]

theorem deletesExactly_kept :
    DeletesExactly world request ↔ (world.graph.heap target).rightInput = none ∧
      ∀ lead ∈ (world.graph.heap source).leadsToNodes, lead.nodeId ≠ request.toId := by
  rw [← deleteLeadToNode_eq_iff]
  constructor
  · rintro ⟨fuel, after, error, returned, exact⟩
    rw [deleteRequested_left addresses stored own apart] at returned
    obtain ⟨rfl, rfl⟩ := Prod.mk.inj (Option.some.inj returned)
    cases rightStored : (world.graph.heap target).rightInput with
    | none =>
      rw [rightStored] at exact
      exact ⟨rfl, exact⟩
    | some right =>
    rw [rightStored] at exact
    obtain ⟨_, _, _, others, removed⟩ := exact
    obtain ⟨rfl, rfl, rfl⟩ := addresses.unique others
    have lengths := (removed.edges target).length_eq
    rw [if_pos rfl, edges_deleteLeadToNode] at lengths
    simp at lengths
  · rintro ⟨noRight, same⟩
    refine ⟨0, _, _, deleteRequested_left addresses stored own apart, ?_⟩
    rw [noRight]
    exact same

end

/-- A request is carried out exactly where it is refused, where it fails before anything changes, or
where its connection is removed alone. -/
theorem deletesExactly_iff (world : World P) (request : ConnectionRequest) :
    DeletesExactly world request ↔
      Refused world.graph request ∨ FailsUntouched world.graph request ∨
        ∃ source target port, RemovedAlone world request source target port := by
  by_cases refused : Refused world.graph request
  · obtain ⟨error, fails⟩ := @deleteRequested_refused _ _ _ _ 0 refused
    exact iff_of_true ⟨0, world, some error, fails, rfl⟩ (.inl refused)
  rw [or_iff_right refused]
  simp only [Refused, not_forall, not_not] at refused
  obtain ⟨source, target, port, addresses, slot, mem, atPort, own⟩ := refused
  have present : ∃ slot ∈ (world.graph.heap target).slots,
      slot.2 = port ∧ slot.1.nodeId = request.fromId := ⟨slot, mem, atPort, own⟩
  have alone : (∃ source target port, RemovedAlone world request source target port) ↔
      RemovedAlone world request source target port := by
    constructor
    · rintro ⟨_, _, _, removed⟩
      obtain ⟨rfl, rfl, rfl⟩ := addresses.unique removed.addresses
      exact removed
    · exact fun removed => ⟨_, _, _, removed⟩
  rw [alone]
  by_cases leftTaken : port = .left →
      ∃ right, (world.graph.heap target).rightInput = some right ∧ right.nodeId = request.fromId
  · rw [deletesExactly_taken addresses present leftTaken, or_iff_right]
    rintro ⟨_, _, others, _, noRight, _⟩
    obtain ⟨rfl, rfl, rfl⟩ := addresses.unique others
    obtain ⟨right, stored, _⟩ := leftTaken rfl
    rw [noRight] at stored
    cases stored
  · obtain ⟨rfl, notTaken⟩ := not_forall.mp leftTaken
    have stored : (world.graph.heap target).leftInput = some slot.1 := by
      simp only [slots, mem_append, mem_map, Option.mem_toList] at mem
      rcases mem with (⟨main, _, rfl⟩ | ⟨left, inLeft, rfl⟩) | ⟨right, _, rfl⟩
      · cases atPort
      · exact inLeft
      · cases atPort
    have ownId := (Covered.getNode_spec addresses.source).2
    rw [deletesExactly_kept addresses stored own fun right inRight sameId =>
      notTaken ⟨right, inRight, sameId⟩]
    constructor
    · rintro ⟨noRight, noLead⟩
      exact .inl ⟨source, target, addresses, ⟨slot.1, stored, own⟩, noRight, noLead⟩
    · rintro (⟨_, _, others, _, noRight, noLead⟩ | removed)
      · obtain ⟨rfl, rfl, -⟩ := addresses.unique others
        exact ⟨noRight, noLead⟩
      · obtain ⟨right, inRight, sameId⟩ := removed.takesOne.2
        exact absurd ⟨right, inRight, sameId.trans ownId⟩ notTaken

end

/-- Two sources feed the sides of a join. -/
def joinBothSides : List (Edit Unit) :=
  [.addNodePromise 1 "manual_input" promiseSetting, .addNodePromise 2 "manual_input" promiseSetting,
    .addNodePromise 3 "join" promiseSetting,
    .addConnection 1 "output-0" 3 2,
    .addConnection 2 "output-0" 3 1]

/-- A node has sources with different ids on its two sides. -/
def hasSidesApart (graph : FlowGraph P) (fromId toId : Int) : Bool :=
  (graph.getNode fromId).isSome && (graph.getNode toId).any fun target =>
    (graph.heap target).leftInput.any (·.nodeId == fromId) &&
      (graph.heap target).rightInput.any (·.nodeId != fromId)

theorem deleteLeft_keepsSource : ¬ ∀ world, Reached (EditStep standardEnvironment) (fun _ _ => True)
      (World.empty : World Unit) world → ∀ request, DeletesExactly world request := by
  intro exact
  have joined : (runEdits standardEnvironment 10 World.empty joinBothSides).any
      (fun world => hasSidesApart world.graph 1 3) = true := by decide +kernel
  obtain ⟨world, ran, apart⟩ := (Option.any_eq_true _ _).mp joined
  simp only [hasSidesApart, Bool.and_eq_true, Option.isSome_iff_exists, Option.any_eq_true,
    beq_iff_eq, bne_iff_ne] at apart
  obtain ⟨⟨source, fromFound⟩, target, toFound, ⟨left, atLeft, own⟩, right, atRight, other⟩ := apart
  have deleted := exact world (reached_of_runEdits Reached.start ran) ⟨1, "output-0", 3, 2⟩
  have none := (deletesExactly_kept ⟨fromFound, toFound, rfl⟩ atLeft own fun stored inRight => by
    rw [Option.some.inj (inRight.symm.trans atRight)]
    exact other).mp deleted
  rw [atRight] at none
  cases none.1

end Flowfile.Graph
