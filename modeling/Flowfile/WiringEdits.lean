import Flowfile.Wiring

/-!
# What edits do to connections

Every edit is described by what it does to successors and inputs. Connecting two
nodes adds one entry at each end, but an occupied port loses its old source without
telling it. Disconnecting removes one successor and, by popping from the list it runs
over, one input or more. Deleting a node pops it from the main inputs of its
successors and leaves left and right inputs in place; then it is taken out of the
successors of its own inputs.

Each description yields when the edit keeps a wiring covered and when it keeps it
balanced.
-/

namespace Flowfile.Graph

open Library.FiniteDag Library.PartialLists List
open FlowNode (allInputs withoutInput isStart)
open FlowGraph (deleteLeadToNode dropNode getNode addLead)

variable {P : Type} {graph : FlowGraph P}

/-- Popping never adds or reorders elements. -/
theorem popMatching_sublist (nodeId : Int) (inputs : List NodeRef) :
    List.Sublist (popMatching nodeId inputs) inputs := by
  fun_induction popMatching nodeId inputs with
  | case1 => exact List.Sublist.refl _
  | case2 ref matched => exact nil_sublist _
  | case3 ref matched passed later ih =>
    exact (ih.cons_cons passed).cons ref
  | case4 ref rest apart ih => exact ih.cons_cons ref

variable {nodeId : Int}

/-- Popping leaves other sources alone. -/
theorem count_popMatching_of_ne {other : NodeRef} (apart : other.nodeId ≠ nodeId)
    (inputs : List NodeRef) : (popMatching nodeId inputs).count other = inputs.count other := by
  have notSame : ∀ ref : NodeRef, ref.nodeId = nodeId → ¬ ref = other := by
    rintro ref matched rfl
    exact apart matched
  fun_induction popMatching nodeId inputs with
  | case1 => rfl
  | case2 ref matched => simp [notSame ref matched]
  | case3 ref matched passed later ih =>
    simp [count_cons, ih, notSame ref matched]
  | case4 ref rest unmatched ih =>
    rw [count_cons, ih, count_cons]

/-- Popping removes a source that is there. -/
theorem count_popMatching_lt {source : NodeRef} (own : source.nodeId = nodeId)
    (inputs : List NodeRef) (unique : ∀ ref ∈ inputs, ref.nodeId = nodeId → ref = source)
    (mem : source ∈ inputs) :
    (popMatching nodeId inputs).count source < inputs.count source := by
  fun_induction popMatching nodeId inputs with
  | case1 => simp at mem
  | case2 ref matched =>
    have same : ref = source := unique ref (by simp) matched
    simp [same]
  | case3 ref matched passed later ih =>
    have same : ref = source := unique ref (by simp) matched
    have fewer := (popMatching_sublist nodeId later).count_le source
    simp only [same, count_cons, beq_self_eq_true, if_true]
    omega
  | case4 ref rest apart ih =>
    have different : ref ≠ source := fun same => apart (same ▸ own)
    have inRest : source ∈ rest := (mem_cons.mp mem).resolve_left (Ne.symm different)
    have fewer := ih
      (fun other otherIn => unique other (mem_cons_of_mem _ otherIn)) inRest
    simpa [count_cons, different] using fewer

/-- After its first occurrence and the element next to it, a source does not occur
again in the list. -/
def DeletesOne (nodeId : Int) (inputs : List NodeRef) : Prop :=
  ∀ ref ∈ (inputs.dropWhile fun input => input.nodeId ≠ nodeId).drop 2, ref.nodeId ≠ nodeId

/-- Popping from a list without the source changes nothing. -/
theorem popMatching_of_absent (inputs : List NodeRef)
    (absent : ∀ ref ∈ inputs, ref.nodeId ≠ nodeId) : popMatching nodeId inputs = inputs := by
  fun_induction popMatching nodeId inputs with
  | case1 => rfl
  | case2 ref matched => exact absurd matched (absent ref (by simp))
  | case3 ref matched => exact absurd matched (absent ref (by simp))
  | case4 ref rest apart ih =>
    rw [ih fun other mem => absent other (mem_cons_of_mem _ mem)]

/-- Then popping removes the source exactly once. -/
theorem count_popMatching_succ {source : NodeRef} (own : source.nodeId = nodeId)
    (inputs : List NodeRef) (unique : ∀ ref ∈ inputs, ref.nodeId = nodeId → ref = source)
    (mem : source ∈ inputs) (deletesOne : DeletesOne nodeId inputs) :
    (popMatching nodeId inputs).count source + 1 = inputs.count source := by
  fun_induction popMatching nodeId inputs with
  | case1 => simp at mem
  | case2 ref matched =>
    have same : ref = source := unique ref (by simp) matched
    simp [same]
  | case3 ref matched passed later ih =>
    have same : ref = source := unique ref (by simp) matched
    have absent : ∀ other ∈ later, other.nodeId ≠ nodeId := by
      simpa [DeletesOne, matched] using deletesOne
    simp [same, popMatching_of_absent later absent, count_cons]
  | case4 ref rest apart ih =>
    have different : ref ≠ source := fun same => apart (same ▸ own)
    have inRest : source ∈ rest := (mem_cons.mp mem).resolve_left (Ne.symm different)
    have counted := ih
      (fun other otherIn => unique other (mem_cons_of_mem _ otherIn)) inRest
      (by simpa [DeletesOne, apart] using deletesOne)
    simpa [count_cons, different] using counted

/-- Removing the first element with an id removes the one element that has it. -/
theorem eraseP_eq_erase {target : NodeRef} (own : target.nodeId = nodeId)
    (leads : List NodeRef) (unique : ∀ ref ∈ leads, ref.nodeId = nodeId → ref = target) :
    leads.eraseP (fun lead => lead.nodeId = nodeId) = leads.erase target := by
  induction leads with
  | nil => rfl
  | cons lead rest ih =>
    by_cases matched : lead.nodeId = nodeId
    · have same : lead = target := unique lead (by simp) matched
      simp [own, same]
    · have different : lead ≠ target := fun same => matched (same ▸ own)
      have later := ih fun other mem =>
        unique other (mem_cons_of_mem _ mem)
      simp [matched, different, later]

theorem SameWiring.covered {after : FlowGraph P} (same : SameWiring graph after)
    (covered : Covered graph) : Covered after := by
  have leads : ∀ source target, after.leads source target → graph.leads source target := by
    rintro source target ⟨live, lead⟩
    exact ⟨same.nodeDb ▸ live, same.leads source ▸ lead⟩
  constructor
  case distinct => simpa [same.nodeDb] using covered.distinct
  case fresh => simpa [same.nodeDb, same.nextSerial] using covered.fresh
  case leadsLive =>
    intro source target step
    exact same.nodeDb ▸ covered.leadsLive source target (leads source target step)
  case inputsLive =>
    rintro source target ⟨live, input⟩
    exact same.nodeDb ▸ covered.inputsLive source target
      ⟨same.nodeDb ▸ live, same.allInputs target ▸ input⟩
  case covered =>
    intro source sourceLive target targetLive
    simp only [FlowGraph.ins, FlowGraph.outs, same.allInputs, same.leads]
    exact covered.covered source (same.nodeDb ▸ sourceLive) target (same.nodeDb ▸ targetLive)
  case acyclic => exact covered.acyclic.mono leads

theorem SameWiring.balanced {after : FlowGraph P} (same : SameWiring graph after)
    (balanced : Balanced graph) : Balanced after where
  toCovered := same.covered balanced.toCovered
  balanced := by
    intro source sourceLive target targetLive
    simp only [FlowGraph.ins, FlowGraph.outs, same.allInputs, same.leads]
    exact balanced.balanced source (same.nodeDb ▸ sourceLive) target (same.nodeDb ▸ targetLive)

/-- The port has room: it is empty, or it takes any number of sources. -/
def PortFree (node : FlowNode P) : InputPort → Prop
  | .main => node.mainInputs.getD [] = [] ∨ 2 < node.nodeTemplate.input
  | .right => node.rightInput = none
  | .left => node.leftInput = none

/-- Occurrences among all inputs, port by port. -/
theorem count_allInputs (node : FlowNode P) (source : NodeRef) :
    node.allInputs.count source = (node.mainInputs.getD []).count source +
      node.leftInput.toList.count source + node.rightInput.toList.count source := by
  simp only [allInputs, count_append]

section

variable (node : FlowNode P) (source : NodeRef) (handle : String)
include node source handle

theorem connect_main : (node.connect source .main handle).mainInputs.getD [] =
      if node.nodeTemplate.input ≤ 2 then [source] else node.mainInputs.getD [] ++ [source] := by
  cases inputs : node.mainInputs with
  | none => simp [FlowNode.connect, inputs, apply_ite]
  | some others =>
    by_cases few : node.nodeTemplate.input ≤ 2 <;>
      simp [FlowNode.connect, inputs, few, apply_ite]

theorem connect_main_others : (node.connect source .main handle).leftInput = node.leftInput ∧
      (node.connect source .main handle).rightInput = node.rightInput := by
  constructor <;> simp [FlowNode.connect, apply_ite]

theorem connect_right : (node.connect source .right handle).allInputs =
      node.mainInputs.getD [] ++ node.leftInput.toList ++ [source] := by
  simp [FlowNode.connect, allInputs]

theorem connect_left : (node.connect source .left handle).allInputs =
      node.mainInputs.getD [] ++ [source] ++ node.rightInput.toList := by
  simp [FlowNode.connect, allInputs]

end

/-- Occurrences in a list of one element. -/
theorem count_single (source other : NodeRef) :
    [source].count other = if other = source then 1 else 0 := by
  by_cases same : other = source
  · simp [same]
  · simp [same, Ne.symm same]

theorem count_connect_le (node : FlowNode P) (source other : NodeRef) (port : InputPort)
    (handle : String) :
    (node.connect source port handle).allInputs.count other ≤
      node.allInputs.count other + if other = source then 1 else 0 := by
  cases port with
  | main =>
    obtain ⟨left, right⟩ := connect_main_others node source handle
    simp only [count_allInputs, left, right, connect_main]
    split <;> simp only [count_append, count_single] <;> omega
  | right =>
    simp only [count_allInputs, connect_right, count_append, count_single]
    omega
  | left =>
    simp only [count_allInputs, connect_left, count_append, count_single]
    omega

theorem count_connect (node : FlowNode P) (source other : NodeRef) (port : InputPort)
    (handle : String) (free : PortFree node port) :
    (node.connect source port handle).allInputs.count other =
      node.allInputs.count other + if other = source then 1 else 0 := by
  cases port with
  | main =>
    obtain ⟨left, right⟩ := connect_main_others node source handle
    simp only [count_allInputs, left, right, connect_main]
    split
    case isTrue few =>
      have empty : node.mainInputs.getD [] = [] := free.resolve_right (by omega)
      simp only [empty, count_single, count_nil]
      omega
    case isFalse =>
      simp only [count_append, count_single]
      omega
  | right =>
    have empty : node.rightInput = none := free
    simp only [count_allInputs, connect_right, count_append, count_single, empty,
      Option.toList_none, count_nil]
    omega
  | left =>
    have empty : node.leftInput = none := free
    simp only [count_allInputs, connect_left, count_append, count_single, empty,
      Option.toList_none, count_nil]
    omega

/-- Connecting keeps the successors of the target. -/
theorem connect_leadsToNodes (node : FlowNode P) (source : NodeRef) (port : InputPort)
    (handle : String) : (node.connect source port handle).leadsToNodes = node.leadsToNodes := by
  cases port <;> simp [FlowNode.connect, apply_ite]

theorem connect_leads (graph : FlowGraph P) (target source ref : NodeRef) (port : InputPort)
    (handle : String) :
    ((graph.connect target source port handle).heap ref).leadsToNodes =
      (graph.heap ref).leadsToNodes ++ if ref = source then [target] else [] := by
  by_cases atTarget : ref = target
  · subst atTarget
    by_cases atSource : ref = source
    · subst atSource
      simp [FlowGraph.connect, connect_leadsToNodes]
    · simp [FlowGraph.connect, connect_leadsToNodes, atSource]
  · by_cases atSource : ref = source
    · subst atSource
      simp [FlowGraph.connect, atTarget]
    · simp [FlowGraph.connect, atTarget, atSource]

theorem connect_inputs_of_ne (graph : FlowGraph P) (target source ref : NodeRef)
    (port : InputPort) (handle : String) (different : ref ≠ target) :
    ((graph.connect target source port handle).heap ref).allInputs =
      (graph.heap ref).allInputs := by
  by_cases atSource : ref = source
  · subst atSource
    simp [FlowGraph.connect, different, allInputs]
  · simp [FlowGraph.connect, different, atSource]

theorem connect_target (graph : FlowGraph P) (target source : NodeRef) (port : InputPort)
    (handle : String) (different : target ≠ source) :
    (graph.connect target source port handle).heap target =
      (graph.heap target).connect source port handle := by
  simp [FlowGraph.connect, different]

/-- Occurrences of successors after connecting two nodes. -/
theorem outs_connect (graph : FlowGraph P) (target source first second : NodeRef)
    (port : InputPort) (handle : String) :
    (graph.connect target source port handle).outs first second =
      graph.outs first second + if first = source ∧ second = target then 1 else 0 := by
  simp only [FlowGraph.outs, connect_leads, count_append]
  by_cases atSource : first = source
  · simp only [atSource, if_true, true_and, count_single]
  · simp [atSource]

section

variable {target source : NodeRef} {port : InputPort} {handle : String}

theorem Covered.connect (covered : Covered graph) (sourceLive : source ∈ graph.nodeDb)
    (targetLive : target ∈ graph.nodeDb)
    (noReturn : ¬ Relation.ReflTransGen graph.leads target source) :
    Covered (graph.connect target source port handle) := by
  have different : target ≠ source := by
    rintro rfl
    exact noReturn Relation.ReflTransGen.refl
  have leads : ∀ first second, (graph.connect target source port handle).leads first second →
      withEdge graph.leads source target first second := by
    rintro first second ⟨live, lead⟩
    rw [connect_leads, mem_append] at lead
    cases lead with
    | inl old => exact Or.inl ⟨live, old⟩
    | inr new =>
      split at new
      case isTrue same => exact Or.inr ⟨same, by simpa using new⟩
      case isFalse => simp at new
  constructor
  case distinct => exact covered.distinct
  case fresh => exact covered.fresh
  case leadsLive =>
    intro first second step
    rcases leads first second step with old | ⟨_, rfl⟩
    · exact covered.leadsLive first second old
    · exact targetLive
  case inputsLive =>
    rintro first second ⟨live, input⟩
    by_cases atTarget : second = target
    · subst atTarget
      rw [connect_target graph second source port handle different] at input
      have counted := count_connect_le (graph.heap second) source first port handle
      have positive := count_pos_iff.mpr input
      by_cases own : first = source
      · exact own ▸ sourceLive
      · rw [if_neg own] at counted
        exact covered.inputsLive first second ⟨live, count_pos_iff.mp (by omega)⟩
    · rw [connect_inputs_of_ne _ _ _ _ _ _ atTarget] at input
      exact covered.inputsLive first second ⟨live, input⟩
  case covered =>
    intro first firstLive second secondLive
    have old := covered.covered first firstLive second secondLive
    rw [outs_connect]
    by_cases atTarget : second = target
    · subst atTarget
      have counted := count_connect_le (graph.heap second) source first port handle
      simp only [FlowGraph.ins, connect_target graph second source port handle different,
        and_true] at old ⊢
      omega
    · simp only [FlowGraph.ins, connect_inputs_of_ne _ _ _ _ _ _ atTarget, atTarget,
        and_false, if_false] at old ⊢
      omega
  case acyclic => exact (acyclic_withEdge covered.acyclic source target noReturn).mono leads

theorem Balanced.connect (balanced : Balanced graph) (sourceLive : source ∈ graph.nodeDb)
    (targetLive : target ∈ graph.nodeDb) (free : PortFree (graph.heap target) port)
    (noReturn : ¬ Relation.ReflTransGen graph.leads target source) :
    Balanced (graph.connect target source port handle) where
  toCovered := balanced.toCovered.connect sourceLive targetLive noReturn
  balanced := by
    intro first firstLive second secondLive
    have different : target ≠ source := by
      rintro rfl
      exact noReturn Relation.ReflTransGen.refl
    have old := balanced.balanced first firstLive second secondLive
    rw [outs_connect]
    by_cases atTarget : second = target
    · subst atTarget
      have counted := count_connect (graph.heap second) source first port handle free
      simp only [FlowGraph.ins, connect_target graph second source port handle different,
        and_true] at old ⊢
      omega
    · simp only [FlowGraph.ins, connect_inputs_of_ne _ _ _ _ _ _ atTarget, atTarget,
        and_false, if_false] at old ⊢
      omega

end

/-- One input of one node was removed: the graph differs from the old one at most in
the inputs of a node, which occur as before or less often. -/
structure InputsCut (graph after : FlowGraph P) : Prop where
  nodeDb : after.nodeDb = graph.nodeDb
  nextSerial : after.nextSerial = graph.nextSerial
  leads : ∀ ref, (after.heap ref).leadsToNodes = (graph.heap ref).leadsToNodes
  ins : ∀ source target, after.ins source target ≤ graph.ins source target

namespace InputsCut

variable {middle after : FlowGraph P}

/-- Nothing was removed. -/
theorem refl (graph : FlowGraph P) : InputsCut graph graph :=
  ⟨rfl, rfl, fun _ => rfl, fun _ _ => Nat.le_refl _⟩

/-- Removing inputs twice. -/
theorem trans (first : InputsCut graph middle) (second : InputsCut middle after) :
    InputsCut graph after :=
  ⟨second.nodeDb.trans first.nodeDb, second.nextSerial.trans first.nextSerial,
    fun ref => (second.leads ref).trans (first.leads ref),
    fun source target => (second.ins source target).trans (first.ins source target)⟩

/-- Removing inputs keeps a wiring covered. -/
theorem covered (cut : InputsCut graph after) (covered : Covered graph) : Covered after := by
  have leads : ∀ source target, after.leads source target → graph.leads source target := by
    rintro source target ⟨live, lead⟩
    exact ⟨cut.nodeDb ▸ live, cut.leads source ▸ lead⟩
  constructor
  case distinct => simpa [cut.nodeDb] using covered.distinct
  case fresh => simpa [cut.nodeDb, cut.nextSerial] using covered.fresh
  case leadsLive =>
    intro source target step
    exact cut.nodeDb ▸ covered.leadsLive source target (leads source target step)
  case inputsLive =>
    rintro source target ⟨live, input⟩
    have positive : 0 < after.ins source target := count_pos_iff.mpr input
    have old : 0 < graph.ins source target := Nat.lt_of_lt_of_le positive (cut.ins source target)
    exact cut.nodeDb ▸ covered.inputsLive source target
      ⟨cut.nodeDb ▸ live, count_pos_iff.mp old⟩
  case covered =>
    intro source sourceLive target targetLive
    have old := covered.covered source (cut.nodeDb ▸ sourceLive) target (cut.nodeDb ▸ targetLive)
    simp only [FlowGraph.outs, cut.leads] at old ⊢
    exact (cut.ins source target).trans old
  case acyclic => exact covered.acyclic.mono leads

end InputsCut

def FlowNode.popMain (node : FlowNode P) (nodeId : Int) (inputs : List NodeRef) : FlowNode P :=
  { node with
    mainInputs := some (popMatching nodeId inputs)
    inputOutputHandles := Function.update node.inputOutputHandles nodeId none }

def FlowNode.clearRight (node : FlowNode P) (nodeId : Int) : FlowNode P :=
  { node with
    rightInput := none
    inputOutputHandles := Function.update node.inputOutputHandles nodeId none }

def FlowNode.clearLeft (node : FlowNode P) (nodeId : Int) : FlowNode P :=
  { node with
    leftInput := none
    inputOutputHandles := Function.update node.inputOutputHandles nodeId none }

theorem withoutInput_cases (node after : FlowNode P) (nodeId : Int) (connectionClass : Fin 10)
    (complete : Bool)
    (removed : node.withoutInput nodeId connectionClass complete = .ok (some after)) :
    (connectionClass = 0 ∧ ∃ inputs, node.mainInputs = some inputs ∧
        (∃ ref ∈ inputs, ref.nodeId = nodeId) ∧ after = node.popMain nodeId inputs) ∨
      (connectionClass ≠ 0 ∧ (∃ right, node.rightInput = some right ∧ right.nodeId = nodeId) ∧
        after = node.clearRight nodeId) ∨
      (connectionClass = 2 ∧ node.leftInput.isSome ∧
        (∃ right, node.rightInput = some right ∧ right.nodeId = nodeId) ∧
        after = node.clearLeft nodeId) := by
  rw [withoutInput] at removed
  split at removed
  case isTrue main =>
    split at removed
    case h_1 => cases removed
    case h_2 inputs stored =>
      split at removed
      case isTrue present =>
        simp only [Except.ok.injEq, Option.some.injEq] at removed
        exact Or.inl ⟨main, inputs, stored, by simpa using present, removed.symm⟩
      case isFalse => cases removed
  case isFalse notMain =>
    split at removed
    case isTrue =>
      split at removed
      case isTrue present =>
        simp only [Except.ok.injEq, Option.some.injEq] at removed
        obtain ⟨right, stored, own⟩ := (Option.any_eq_true _ _).mp present
        exact Or.inr (Or.inl ⟨notMain, ⟨right, stored, by simpa using own⟩, removed.symm⟩)
      case isFalse => cases removed
    case isFalse notRight =>
      split at removed
      case isTrue left =>
        split at removed
        case h_1 => cases removed
        case h_2 => cases removed
        case h_3 left' right leftStored rightStored =>
          split at removed
          case isTrue own =>
            simp only [Except.ok.injEq, Option.some.injEq] at removed
            have second : connectionClass = 2 := left.resolve_right fun all => notRight (Or.inr all)
            exact Or.inr (Or.inr
              ⟨second, by simp [leftStored], ⟨right, rightStored, own⟩, removed.symm⟩)
          case isFalse => cases removed
      case isFalse => cases removed

theorem count_popMain (node : FlowNode P) (nodeId : Int) (inputs : List NodeRef)
    (stored : node.mainInputs = some inputs) (other : NodeRef) :
    (node.popMain nodeId inputs).allInputs.count other + inputs.count other =
      node.allInputs.count other + (popMatching nodeId inputs).count other := by
  simp only [count_allInputs, FlowNode.popMain, stored, Option.getD_some]
  omega

theorem count_clearRight (node : FlowNode P) (nodeId : Int) (other : NodeRef) :
    (node.clearRight nodeId).allInputs.count other + node.rightInput.toList.count other =
      node.allInputs.count other := by
  simp only [count_allInputs, FlowNode.clearRight, Option.toList_none, count_nil]
  omega

theorem count_clearLeft (node : FlowNode P) (nodeId : Int) (other : NodeRef) :
    (node.clearLeft nodeId).allInputs.count other + node.leftInput.toList.count other =
      node.allInputs.count other := by
  simp only [count_allInputs, FlowNode.clearLeft, Option.toList_none, count_nil]
  omega

/-- The graph after a connection was removed at both ends. -/
def FlowGraph.disconnect (graph : FlowGraph P) (source target : NodeRef) (toId : Int)
    (node : FlowNode P) : FlowGraph P :=
  (graph.deleteLeadToNode source toId).modifyNode target fun _ => node

section

variable {source target : NodeRef} {node : FlowNode P}

theorem outs_disconnect (covered : Covered graph) (sourceLive : source ∈ graph.nodeDb)
    (targetLive : target ∈ graph.nodeDb)
    (kept : node.leadsToNodes =
      ((graph.deleteLeadToNode source target.nodeId).heap target).leadsToNodes)
    (first second : NodeRef) :
    (graph.disconnect source target target.nodeId node).outs first second =
      graph.outs first second - if first = source ∧ second = target then 1 else 0 := by
  have erased : ((graph.heap source).leadsToNodes.eraseP fun lead =>
      lead.nodeId = target.nodeId) = (graph.heap source).leadsToNodes.erase target :=
    eraseP_eq_erase rfl _ fun ref mem same =>
      covered.eq_of_nodeId (covered.leadsLive source ref ⟨sourceLive, mem⟩) targetLive same
  have leads : ((graph.disconnect source target target.nodeId node).heap first).leadsToNodes =
      if first = source then (graph.heap source).leadsToNodes.erase target
      else (graph.heap first).leadsToNodes := by
    by_cases atTarget : first = target
    · subst atTarget
      simp only [FlowGraph.disconnect, modifyNode_heap_self, kept]
      by_cases atSource : first = source
      · subst atSource
        simp [deleteLeadToNode, erased]
      · simp [deleteLeadToNode, atSource]
    · simp only [FlowGraph.disconnect, modifyNode_heap_of_ne _ _ _ _ atTarget]
      by_cases atSource : first = source
      · subst atSource
        simp [deleteLeadToNode, erased]
      · simp [deleteLeadToNode, atSource]
  simp only [FlowGraph.outs, leads]
  by_cases atSource : first = source
  · subst atSource
    by_cases same : second = target
    · simp [same]
    · simp [same, count_erase_of_ne same]
  · simp [atSource]

theorem ins_disconnect (first second : NodeRef) :
    (graph.disconnect source target target.nodeId node).ins first second =
      if second = target then node.allInputs.count first else graph.ins first second := by
  by_cases atTarget : second = target
  · subst atTarget
    simp [FlowGraph.ins, FlowGraph.disconnect]
  have same : ((graph.deleteLeadToNode source target.nodeId).heap second).allInputs =
      (graph.heap second).allInputs := by
    by_cases atSource : second = source
    · subst atSource
      simp [deleteLeadToNode, allInputs]
    · simp [deleteLeadToNode, atSource]
  simp [FlowGraph.ins, FlowGraph.disconnect, atTarget, same]

theorem Covered.disconnect (covered : Covered graph) (sourceLive : source ∈ graph.nodeDb)
    (targetLive : target ∈ graph.nodeDb)
    (kept : node.leadsToNodes =
      ((graph.deleteLeadToNode source target.nodeId).heap target).leadsToNodes)
    (lost : node.allInputs.count source < (graph.heap target).allInputs.count source)
    (fewer : ∀ other, node.allInputs.count other ≤ (graph.heap target).allInputs.count other) :
    Covered (graph.disconnect source target target.nodeId node) := by
  have outs := outs_disconnect covered sourceLive targetLive kept
  have ins : ∀ first second, (graph.disconnect source target target.nodeId node).ins first second =
      if second = target then node.allInputs.count first else graph.ins first second :=
    ins_disconnect
  have leads : ∀ first second,
      (graph.disconnect source target target.nodeId node).leads first second →
      graph.leads first second := by
    rintro first second ⟨live, lead⟩
    have positive : 0 < (graph.disconnect source target target.nodeId node).outs first second :=
      count_pos_iff.mpr lead
    rw [outs] at positive
    exact ⟨live, count_pos_iff.mp (Nat.lt_of_lt_of_le positive (Nat.sub_le _ _))⟩
  have shrunk : ∀ first second,
      (graph.disconnect source target target.nodeId node).ins first second ≤
        graph.ins first second := by
    intro first second
    rw [ins]
    split
    case isTrue same => exact same ▸ fewer first
    case isFalse => exact Nat.le_refl _
  constructor
  case distinct => exact covered.distinct
  case fresh => exact covered.fresh
  case leadsLive => exact fun first second step => covered.leadsLive first second (leads _ _ step)
  case inputsLive =>
    rintro first second ⟨live, input⟩
    have positive : 0 < (graph.disconnect source target target.nodeId node).ins first second :=
      count_pos_iff.mpr input
    exact covered.inputsLive first second
      ⟨live, count_pos_iff.mp (Nat.lt_of_lt_of_le positive (shrunk first second))⟩
  case covered =>
    intro first firstLive second secondLive
    have old := covered.covered first firstLive second secondLive
    have new := shrunk first second
    rw [outs]
    split
    case isTrue same =>
      obtain ⟨rfl, rfl⟩ := same
      rw [ins, if_pos rfl] at new ⊢
      simp only [FlowGraph.ins] at old
      omega
    case isFalse => omega
  case acyclic => exact covered.acyclic.mono leads

theorem Balanced.disconnect (balanced : Balanced graph) (sourceLive : source ∈ graph.nodeDb)
    (targetLive : target ∈ graph.nodeDb)
    (kept : node.leadsToNodes =
      ((graph.deleteLeadToNode source target.nodeId).heap target).leadsToNodes)
    (lost : node.allInputs.count source + 1 = (graph.heap target).allInputs.count source)
    (others : ∀ other ∈ graph.nodeDb, other ≠ source →
      node.allInputs.count other = (graph.heap target).allInputs.count other)
    (fewer : ∀ other, node.allInputs.count other ≤ (graph.heap target).allInputs.count other) :
    Balanced (graph.disconnect source target target.nodeId node) where
  toCovered := balanced.toCovered.disconnect sourceLive targetLive kept (by omega) fewer
  balanced := by
    intro first firstLive second secondLive
    have old := balanced.balanced first firstLive second secondLive
    rw [outs_disconnect balanced.toCovered sourceLive targetLive kept, ins_disconnect]
    simp only [FlowGraph.ins] at old ⊢
    by_cases atTarget : second = target
    · subst atTarget
      by_cases atSource : first = source
      · subst atSource
        simp only [and_self, if_true]
        omega
      · have same := others first firstLive atSource
        simp only [atSource, false_and, if_false, if_true]
        omega
    · simp only [atTarget, and_false, if_false]
      omega

end

structure Detached (graph after : FlowGraph P) (source : NodeRef) (processed : List NodeRef) :
    Prop extends InputsCut graph after where
  left : ∀ ref, (after.heap ref).leftInput = (graph.heap ref).leftInput
  right : ∀ ref, (after.heap ref).rightInput = (graph.heap ref).rightInput
  bare : ∀ ref, (after.heap ref).mainInputs.isSome = (graph.heap ref).mainInputs.isSome
  others : ∀ ref other, other ≠ source → other ∈ graph.nodeDb →
    ((after.heap ref).mainInputs.getD []).count other =
      ((graph.heap ref).mainInputs.getD []).count other
  popped : ∀ ref, ((after.heap ref).mainInputs.getD []).count source ≤
    ((graph.heap ref).mainInputs.getD []).count source - processed.count ref

theorem detached_popMain (covered : Covered graph) {source target : NodeRef}
    (sourceLive : source ∈ graph.nodeDb) (targetLive : target ∈ graph.nodeDb)
    (inputs : List NodeRef) (stored : (graph.heap target).mainInputs = some inputs) :
    Detached graph (graph.modifyNode target fun _ =>
      (graph.heap target).popMain source.nodeId inputs) source [target] := by
  have unique : ∀ ref ∈ inputs, ref.nodeId = source.nodeId → ref = source := by
    intro ref mem same
    apply covered.eq_of_nodeId (covered.inputsLive ref target ⟨targetLive, ?_⟩) sourceLive same
    simp [allInputs, stored, mem]
  have counted := count_popMain (graph.heap target) source.nodeId inputs stored
  constructor
  case toInputsCut =>
    constructor
    case nodeDb => rfl
    case nextSerial => rfl
    case leads =>
      intro ref
      by_cases atTarget : ref = target
      · subst atTarget
        simp [FlowNode.popMain]
      · simp [atTarget]
    case ins =>
      intro first second
      by_cases atTarget : second = target
      · subst atTarget
        have fewer := (popMatching_sublist source.nodeId inputs).count_le first
        have balance := counted first
        simp only [FlowGraph.ins, modifyNode_heap_self]
        omega
      · simp [FlowGraph.ins, atTarget]
  case left | right =>
    intro ref
    by_cases atTarget : ref = target
    · subst atTarget
      simp [FlowNode.popMain]
    · simp [atTarget]
  case bare =>
    intro ref
    by_cases atTarget : ref = target
    · subst atTarget
      simp [FlowNode.popMain, stored]
    · simp [atTarget]
  case others =>
    intro ref other different live
    by_cases atTarget : ref = target
    · subst atTarget
      have apart : other.nodeId ≠ source.nodeId := fun same =>
        different (covered.eq_of_nodeId live sourceLive same)
      simp [FlowNode.popMain, stored, count_popMatching_of_ne apart]
    · simp [atTarget]
  case popped =>
    intro ref
    by_cases atTarget : ref = target
    · subst atTarget
      simp only [modifyNode_heap_self, FlowNode.popMain, stored, Option.getD_some,
        count_singleton_self]
      by_cases mem : source ∈ inputs
      · have fewer := count_popMatching_lt rfl inputs unique mem
        omega
      · have absent := count_eq_zero.mpr mem
        have fewer := (popMatching_sublist source.nodeId inputs).count_le source
        omega
    · simp [atTarget, Ne.symm atTarget]

theorem Detached.refl (graph : FlowGraph P) (source : NodeRef) : Detached graph graph source [] :=
  ⟨InputsCut.refl graph, fun _ => rfl, fun _ => rfl, fun _ => rfl, fun _ _ _ _ => rfl, by simp⟩

theorem Detached.skip (source target : NodeRef)
    (absent : source ∉ (graph.heap target).mainInputs.getD []) :
    Detached graph graph source [target] := by
  constructor
  case toInputsCut => exact InputsCut.refl graph
  case left | right | bare => exact fun _ => rfl
  case others => exact fun _ _ _ _ => rfl
  case popped =>
    intro ref
    by_cases atTarget : ref = target
    · subst atTarget
      simp [count_eq_zero.mpr absent]
    · simp [Ne.symm atTarget]

theorem Detached.trans {middle after : FlowGraph P} {source : NodeRef} {first second : List NodeRef}
    (one : Detached graph middle source first) (two : Detached middle after source second) :
    Detached graph after source (first ++ second) := by
  constructor
  case toInputsCut => exact one.toInputsCut.trans two.toInputsCut
  case left => exact fun ref => (two.left ref).trans (one.left ref)
  case right => exact fun ref => (two.right ref).trans (one.right ref)
  case bare => exact fun ref => (two.bare ref).trans (one.bare ref)
  case others =>
    intro ref other different live
    exact (two.others ref other different (one.nodeDb ▸ live)).trans
      (one.others ref other different live)
  case popped =>
    intro ref
    have before := one.popped ref
    have later := two.popped ref
    rw [count_append]
    omega

section

variable [DecidableEq P] {fuel : Nat} {after : World P}

theorem resetNode_graph {world : World P} {ref : NodeRef}
    (returned : world.resetNode fuel ref = some after) : after.graph = world.graph := by
  obtain ⟨hashes, _, rfl⟩ := Option.map_eq_some_iff.mp returned
  rfl

variable {source : NodeRef} {hashes : Hashes P} {error : Option FlowError}

theorem deleteInputNode_main_spec (covered : Covered graph) {target : NodeRef}
    (sourceLive : source ∈ graph.nodeDb) (targetLive : target ∈ graph.nodeDb)
    (returned : World.deleteInputNode fuel ⟨graph, hashes⟩ target source.nodeId 0 true =
      some (after, error)) :
    (∃ failed, error = some failed ∧ (graph.heap target).mainInputs = none ∧ after.graph = graph) ∨
      (error = none ∧ (graph.heap target).mainInputs.isSome ∧
        Detached graph after.graph source [target]) := by
  rw [World.deleteInputNode] at returned
  split at returned
  case h_1 failed broke =>
    cases returned
    refine Or.inl ⟨failed, rfl, ?_, rfl⟩
    cases stored : (graph.heap target).mainInputs with
    | none => rfl
    | some inputs =>
      simp only [withoutInput, stored, if_true] at broke
      split at broke <;> cases broke
  case h_2 absent =>
    cases returned
    cases stored : (graph.heap target).mainInputs with
    | none => simp [withoutInput, stored] at absent
    | some inputs =>
    refine Or.inr ⟨rfl, rfl, Detached.skip source target ?_⟩
    simp only [withoutInput, stored, if_true] at absent
    split at absent
    case isTrue => cases absent
    case isFalse none =>
      intro mem
      apply none
      simpa [stored] using ⟨source, by simpa [stored] using mem, rfl⟩
  case h_3 node removed =>
    obtain ⟨reset, ran, ⟨⟩⟩ := Option.bind_eq_some_iff.mp returned
    rcases withoutInput_cases _ _ _ _ _ removed with
      ⟨_, inputs, stored, _, rfl⟩ | ⟨impossible, _⟩ | ⟨impossible, _⟩
    · have known : (graph.heap target).mainInputs = some inputs := stored
      refine Or.inr ⟨rfl, by simp [known], ?_⟩
      rw [resetNode_graph ran]
      exact detached_popMain covered sourceLive targetLive inputs stored
    · exact absurd rfl impossible
    · exact absurd impossible (by decide)

theorem detachFromTargets_spec (covered : Covered graph)
    (sourceLive : source ∈ graph.nodeDb) {targets : List NodeRef}
    (live : ∀ target ∈ targets, target ∈ graph.nodeDb)
    (returned : World.detachFromTargets fuel source.nodeId targets ⟨graph, hashes⟩ =
      some (after, error)) :
    (error = none ∧ (∀ target ∈ targets, (graph.heap target).mainInputs.isSome) ∧
        Detached graph after.graph source targets) ∨
      (error.isSome ∧ (∃ target ∈ targets, (graph.heap target).mainInputs = none) ∧
        (∃ processed, Detached graph after.graph source processed) ∧
        ∀ first rest, targets = first :: rest → (graph.heap first).mainInputs = none →
          after.graph = graph) := by
  induction targets generalizing graph hashes with
  | nil =>
    simp only [World.detachFromTargets, Option.some.injEq, Prod.mk.injEq] at returned
    obtain ⟨rfl, rfl⟩ := returned
    exact Or.inl ⟨rfl, by simp, Detached.refl graph source⟩
  | cons target rest ih =>
    obtain ⟨⟨middle, failed⟩, first, continued⟩ := Option.bind_eq_some_iff.mp returned
    rcases deleteInputNode_main_spec covered sourceLive (live target (by simp)) first with
      ⟨failure, rfl, bare, same⟩ | ⟨rfl, stored, detached⟩
    · cases continued
      exact Or.inr ⟨rfl, ⟨target, by simp, bare⟩, ⟨[], same ▸ Detached.refl graph source⟩,
        fun _ _ _ _ => same⟩
    obtain ⟨graphAfter, hashesAfter⟩ := middle
    have nodeDb : graphAfter.nodeDb = graph.nodeDb := detached.nodeDb
    rcases ih
      (detached.toInputsCut.covered covered) (nodeDb ▸ sourceLive)
      (fun other mem => nodeDb ▸ live other (mem_cons_of_mem _ mem)) continued with
      ⟨rfl, others, later⟩ | ⟨failed, ⟨other, inRest, bare⟩, ⟨processed, later⟩, _⟩
    · refine Or.inl ⟨rfl, ?_, detached.trans later⟩
      rintro other (_ | ⟨_, inRest⟩)
      · exact stored
      · rw [← detached.bare other]
        exact others other inRest
    · refine Or.inr ⟨failed, ⟨other, mem_cons_of_mem _ inRest, ?_⟩, ⟨_, detached.trans later⟩, ?_⟩
      · have kept := detached.bare other
        rw [bare, Option.isSome_none] at kept
        exact Option.isSome_eq_false_iff.mp kept.symm |> Option.isNone_iff_eq_none.mp
      · rintro head tail split missing
        obtain ⟨rfl, rfl⟩ := List.cons.inj split
        simp [missing] at stored

end

/-- Successors were removed from some nodes, nothing else changed. -/
structure LeadsErased (graph after : FlowGraph P) (target : NodeRef) (sources : List NodeRef) :
    Prop where
  nodeDb : after.nodeDb = graph.nodeDb
  nextSerial : after.nextSerial = graph.nextSerial
  main : ∀ ref, (after.heap ref).mainInputs = (graph.heap ref).mainInputs
  left : ∀ ref, (after.heap ref).leftInput = (graph.heap ref).leftInput
  right : ∀ ref, (after.heap ref).rightInput = (graph.heap ref).rightInput
  others : ∀ source other, other ≠ target → after.outs source other = graph.outs source other
  erased : ∀ source, after.outs source target = graph.outs source target - sources.count source

theorem leadsErased_one (source target : NodeRef)
    (unique : ∀ ref ∈ (graph.heap source).leadsToNodes, ref.nodeId = target.nodeId → ref = target) :
    LeadsErased graph (graph.deleteLeadToNode source target.nodeId) target [source] := by
  have erased := eraseP_eq_erase rfl (graph.heap source).leadsToNodes unique
  constructor
  case nodeDb => rfl
  case nextSerial => rfl
  case main | left | right =>
    intro ref
    by_cases atSource : ref = source
    · subst atSource
      simp [deleteLeadToNode]
    · simp [deleteLeadToNode, atSource]
  case others =>
    intro ref other different
    by_cases atSource : ref = source
    · subst atSource
      simp [FlowGraph.outs, deleteLeadToNode, erased, count_erase_of_ne different]
    · simp [FlowGraph.outs, deleteLeadToNode, atSource]
  case erased =>
    intro ref
    by_cases atSource : ref = source
    · subst atSource
      simp [FlowGraph.outs, deleteLeadToNode, erased]
    · simp [FlowGraph.outs, deleteLeadToNode, atSource, Ne.symm atSource]

theorem leadsErased_fold (target : NodeRef) (sources : List NodeRef)
    (unique : ∀ source ∈ sources, ∀ ref ∈ (graph.heap source).leadsToNodes,
      ref.nodeId = target.nodeId → ref = target) :
    LeadsErased graph (sources.foldl (deleteLeadToNode · · target.nodeId) graph)
      target sources := by
  induction sources generalizing graph with
  | nil => exact ⟨rfl, rfl, fun _ => rfl, fun _ => rfl, fun _ => rfl, fun _ _ _ => rfl, by simp⟩
  | cons source rest ih =>
    have one := leadsErased_one source target (unique source (by simp))
    have still : ∀ other ∈ rest,
        ∀ ref ∈ ((graph.deleteLeadToNode source target.nodeId).heap other).leadsToNodes,
          ref.nodeId = target.nodeId → ref = target := by
      intro other inRest ref mem same
      apply unique other (mem_cons_of_mem _ inRest) ref _ same
      by_cases atSource : other = source
      · subst atSource
        simp only [deleteLeadToNode, modifyNode_heap_self] at mem
        exact mem_of_mem_eraseP mem
      · simpa [deleteLeadToNode, atSource] using mem
    have later := ih still
    rw [foldl_cons]
    constructor
    case nodeDb => exact later.nodeDb
    case nextSerial => exact later.nextSerial
    case main => exact fun ref => (later.main ref).trans (one.main ref)
    case left => exact fun ref => (later.left ref).trans (one.left ref)
    case right => exact fun ref => (later.right ref).trans (one.right ref)
    case others =>
      intro ref other different
      exact (later.others ref other different).trans (one.others ref other different)
    case erased =>
      intro ref
      have joined : (source :: rest).count ref = [source].count ref + rest.count ref := by
        rw [← count_append, singleton_append]
      rw [later.erased, one.erased, joined]
      omega

theorem dropNode_spec (covered : Covered graph) (ref : NodeRef) (live : ref ∈ graph.nodeDb) :
    LeadsErased graph
      { graph.dropNode ref ref.nodeId with nodeDb := graph.nodeDb } ref
      (graph.heap ref).allInputs ∧
    List.Sublist (graph.dropNode ref ref.nodeId).nodeDb graph.nodeDb ∧
    ∀ other, other ∈ (graph.dropNode ref ref.nodeId).nodeDb ↔
      other ∈ graph.nodeDb ∧ other ≠ ref := by
  have unique : ∀ source ∈ (graph.heap ref).allInputs,
      ∀ lead ∈ (graph.heap source).leadsToNodes, lead.nodeId = ref.nodeId → lead = ref := by
    intro source input lead mem same
    have sourceLive := covered.inputsLive source ref ⟨live, input⟩
    exact covered.eq_of_nodeId (covered.leadsLive source lead ⟨sourceLive, mem⟩) live same
  have erased := leadsErased_fold ref (graph.heap ref).allInputs unique
  have dropped : graph.dropNode ref ref.nodeId =
      { (graph.heap ref).allInputs.foldl (deleteLeadToNode · · ref.nodeId) graph with
        nodeDb := graph.nodeDb.filter fun other => other.nodeId ≠ ref.nodeId } := by
    simp only [dropNode]
    split
    case isTrue start =>
      have empty : (graph.heap ref).allInputs = [] := by
        simp only [isStart, Bool.and_eq_true, List.isEmpty_iff] at start
        exact start.1
      simp [empty]
    case isFalse => rw [erased.nodeDb]
  refine ⟨?_, ?_, ?_⟩
  · rw [dropped]
    exact ⟨rfl, erased.nextSerial, erased.main, erased.left, erased.right, erased.others,
      erased.erased⟩
  · rw [dropped]
    exact filter_sublist
  · intro other
    rw [dropped]
    simp only [mem_filter, decide_eq_true_eq]
    constructor
    · rintro ⟨mem, different⟩
      refine ⟨mem, ?_⟩
      rintro rfl
      exact different rfl
    · rintro ⟨mem, different⟩
      exact ⟨mem, fun same => different (covered.eq_of_nodeId mem live same)⟩

def FeedsNoSide (graph : FlowGraph P) (ref : NodeRef) : Prop :=
  ∀ target ∈ graph.nodeDb,
    (graph.heap target).leftInput ≠ some ref ∧ (graph.heap target).rightInput ≠ some ref

structure Deleted (graph after : FlowGraph P) (ref : NodeRef) : Prop where
  sublist : List.Sublist after.nodeDb graph.nodeDb
  members : ∀ other, other ∈ after.nodeDb ↔ other ∈ graph.nodeDb ∧ other ≠ ref
  nextSerial : after.nextSerial = graph.nextSerial
  ins : ∀ source ∈ graph.nodeDb, ∀ target, source ≠ ref →
    after.ins source target = graph.ins source target
  unfed : ∀ target ∈ graph.nodeDb, after.ins ref target = 0
  noneAdded : ∀ source target, after.ins source target ≤ graph.ins source target
  outs : ∀ source target, target ≠ ref → after.outs source target = graph.outs source target
  forgotten : ∀ source ∈ graph.nodeDb, source ≠ ref →
    after.outs source ref = graph.outs source ref - graph.ins source ref

theorem deleted_of_detached (covered : Covered graph) {middle : FlowGraph P} {ref : NodeRef}
    (live : ref ∈ graph.nodeDb) (detached : Detached graph middle ref (graph.heap ref).leadsToNodes)
    (noSide : FeedsNoSide graph ref) : Deleted graph (middle.dropNode ref ref.nodeId) ref := by
  have middleLive : ref ∈ middle.nodeDb := detached.nodeDb ▸ live
  obtain ⟨erased, sublist, members⟩ := dropNode_spec
    (detached.toInputsCut.covered covered) ref middleLive
  have cutIns : ∀ source ∈ graph.nodeDb, ∀ target, source ≠ ref →
      middle.ins source target = graph.ins source target := by
    intro source sourceLive target different
    simp only [FlowGraph.ins, count_allInputs, detached.left, detached.right,
      detached.others target source different sourceLive]
  have keptIns : ∀ source target,
      (middle.dropNode ref ref.nodeId).ins source target = middle.ins source target := by
    intro source target
    have main := erased.main target
    have left := erased.left target
    have right := erased.right target
    dsimp only at main left right
    simp only [FlowGraph.ins, count_allInputs, main, left, right]
  constructor
  case sublist => exact detached.nodeDb ▸ sublist
  case members => exact detached.nodeDb ▸ members
  case nextSerial => exact erased.nextSerial.trans detached.nextSerial
  case ins =>
    intro source sourceLive target different
    rw [keptIns, cutIns source sourceLive target different]
  case unfed =>
    intro target targetLive
    have popped := detached.popped target
    have listed := covered.covered ref live target targetLive
    obtain ⟨left, right⟩ := noSide target targetLive
    have notLeft : (graph.heap target).leftInput.toList.count ref = 0 := by
      apply count_eq_zero.mpr
      simpa [Option.mem_toList, eq_comm] using left
    have notRight : (graph.heap target).rightInput.toList.count ref = 0 := by
      apply count_eq_zero.mpr
      simpa [Option.mem_toList, eq_comm] using right
    rw [keptIns]
    simp only [FlowGraph.ins, FlowGraph.outs, count_allInputs, detached.left, detached.right,
      notLeft, notRight] at listed ⊢
    omega
  case noneAdded =>
    intro source target
    rw [keptIns]
    exact detached.ins source target
  case outs =>
    intro source target different
    have kept := erased.others source target different
    simp only [FlowGraph.outs, detached.leads] at kept ⊢
    exact kept
  case forgotten =>
    intro source sourceLive different
    have cut := erased.erased source
    have same := cutIns source sourceLive ref different
    simp only [FlowGraph.ins, FlowGraph.outs, detached.leads] at cut same ⊢
    rw [cut, same]

namespace Deleted

variable {after : FlowGraph P} {ref : NodeRef}

theorem covered (deleted : Deleted graph after ref) (covered : Covered graph)
    (noStale : ∀ source ∈ graph.nodeDb, graph.outs source ref ≤ graph.ins source ref) :
    Covered after := by
  have leads : ∀ source target, after.leads source target →
      graph.leads source target ∧ target ≠ ref := by
    rintro source target ⟨live, lead⟩
    obtain ⟨oldLive, different⟩ := (deleted.members source).mp live
    have positive : 0 < after.outs source target := count_pos_iff.mpr lead
    by_cases same : target = ref
    · subst same
      have forgotten := deleted.forgotten source oldLive different
      have stale := noStale source oldLive
      omega
    · rw [deleted.outs source target same] at positive
      exact ⟨⟨oldLive, count_pos_iff.mp positive⟩, same⟩
  constructor
  case distinct =>
    exact covered.distinct.sublist (deleted.sublist.map NodeRef.nodeId)
  case fresh =>
    intro other mem
    rw [deleted.nextSerial]
    exact covered.fresh other ((deleted.members other).mp mem).1
  case leadsLive =>
    intro source target step
    obtain ⟨old, different⟩ := leads source target step
    exact (deleted.members target).mpr ⟨covered.leadsLive source target old, different⟩
  case inputsLive =>
    rintro source target ⟨live, input⟩
    have targetLive := ((deleted.members target).mp live).1
    have positive : 0 < after.ins source target := count_pos_iff.mpr input
    have old := Nat.lt_of_lt_of_le positive (deleted.noneAdded source target)
    have sourceLive := covered.inputsLive source target
      ⟨targetLive, count_pos_iff.mp old⟩
    refine (deleted.members source).mpr ⟨sourceLive, ?_⟩
    rintro rfl
    have unfed := deleted.unfed target targetLive
    omega
  case covered =>
    intro source sourceLive target targetLive
    obtain ⟨oldSource, sourceDifferent⟩ := (deleted.members source).mp sourceLive
    obtain ⟨oldTarget, targetDifferent⟩ := (deleted.members target).mp targetLive
    rw [deleted.ins source oldSource target sourceDifferent,
      deleted.outs source target targetDifferent]
    exact covered.covered source oldSource target oldTarget
  case acyclic => exact covered.acyclic.mono fun source target step => (leads _ _ step).1

theorem balanced (deleted : Deleted graph after ref) (balanced : Balanced graph)
    (live : ref ∈ graph.nodeDb) : Balanced after where
  toCovered := deleted.covered balanced.toCovered fun source sourceLive =>
    (balanced.balanced source sourceLive ref live).le
  balanced := by
    intro source sourceLive target targetLive
    obtain ⟨oldSource, sourceDifferent⟩ := (deleted.members source).mp sourceLive
    obtain ⟨oldTarget, targetDifferent⟩ := (deleted.members target).mp targetLive
    rw [deleted.ins source oldSource target sourceDifferent,
      deleted.outs source target targetDifferent]
    exact balanced.balanced source oldSource target oldTarget

end Deleted

/-- A new object without connections under an id that is not taken. -/
structure Created (graph after : FlowGraph P) (ref : NodeRef) : Prop where
  free : graph.getNode ref.nodeId = none
  nodeDb : after.nodeDb = graph.nodeDb ++ [ref]
  serial : ref.serial = graph.nextSerial
  nextSerial : after.nextSerial = graph.nextSerial + 1
  others : ∀ other, other ≠ ref → after.heap other = graph.heap other
  noLeads : (after.heap ref).leadsToNodes = []
  noInputs : (after.heap ref).allInputs = []

namespace Created

variable {after : FlowGraph P} {ref : NodeRef}

section

variable (created : Created graph after ref)
include created

theorem nodeId_ne : ∀ other ∈ graph.nodeDb, other.nodeId ≠ ref.nodeId := by
  simpa [getNode] using created.free

theorem not_mem : ref ∉ graph.nodeDb :=
  fun mem => created.nodeId_ne ref mem rfl

/-- The old nodes and the new one. -/
theorem mem_iff (other : NodeRef) : other ∈ after.nodeDb ↔ other ∈ graph.nodeDb ∨ other = ref := by
  simp [created.nodeDb]

theorem old_of_leads {source target : NodeRef}
    (step : after.leads source target) : graph.leads source target := by
  obtain ⟨live, lead⟩ := step
  cases (created.mem_iff source).mp live with
  | inl old =>
    have different : source ≠ ref := fun same => created.not_mem (same ▸ old)
    exact ⟨old, by rwa [created.others source different] at lead⟩
  | inr new => simp [new, created.noLeads] at lead

theorem old_of_feeds {source target : NodeRef}
    (step : after.feeds source target) : graph.feeds source target := by
  obtain ⟨live, input⟩ := step
  cases (created.mem_iff target).mp live with
  | inl old =>
    have different : target ≠ ref := fun same => created.not_mem (same ▸ old)
    exact ⟨old, by rwa [created.others target different] at input⟩
  | inr new => simp [new, created.noInputs] at input

/-- Occurrences agree on nodes of the old graph, and the new node has none. -/
theorem counts (covered : Covered graph) {source target : NodeRef}
    (sourceLive : source ∈ after.nodeDb) (targetLive : target ∈ after.nodeDb) :
    (source ∈ graph.nodeDb ∧ target ∈ graph.nodeDb ∧
        after.ins source target = graph.ins source target ∧
        after.outs source target = graph.outs source target) ∨
      (after.ins source target = 0 ∧ after.outs source target = 0) := by
  have noIns : target ∉ graph.nodeDb ∨ source ∉ graph.nodeDb → after.ins source target = 0 := by
    intro missing
    apply count_eq_zero.mpr
    intro input
    have old := created.old_of_feeds ⟨targetLive, input⟩
    exact missing.elim (fun absent => absent old.1)
      fun absent => absent (covered.inputsLive source target old)
  have noOuts : target ∉ graph.nodeDb ∨ source ∉ graph.nodeDb → after.outs source target = 0 := by
    intro missing
    apply count_eq_zero.mpr
    intro lead
    have old := created.old_of_leads ⟨sourceLive, lead⟩
    exact missing.elim (fun absent => absent (covered.leadsLive source target old))
      fun absent => absent old.1
  by_cases both : source ∈ graph.nodeDb ∧ target ∈ graph.nodeDb
  · obtain ⟨oldSource, oldTarget⟩ := both
    have sourceDifferent : source ≠ ref := fun same => created.not_mem (same ▸ oldSource)
    have targetDifferent : target ≠ ref := fun same => created.not_mem (same ▸ oldTarget)
    refine Or.inl ⟨oldSource, oldTarget, ?_, ?_⟩
    · simp only [FlowGraph.ins, created.others target targetDifferent]
    · simp only [FlowGraph.outs, created.others source sourceDifferent]
  · have missing : target ∉ graph.nodeDb ∨ source ∉ graph.nodeDb := by
      by_cases oldTarget : target ∈ graph.nodeDb
      · exact Or.inr fun oldSource => both ⟨oldSource, oldTarget⟩
      · exact Or.inl oldTarget
    exact Or.inr ⟨noIns missing, noOuts missing⟩

/-- Creating a node keeps a wiring covered. -/
theorem covered (covered : Covered graph) : Covered after := by
  constructor
  case distinct =>
    rw [created.nodeDb, map_append, nodup_append]
    refine ⟨covered.distinct, by simp, ?_⟩
    intro nodeId mem other single
    obtain ⟨old, oldLive, rfl⟩ := mem_map.mp mem
    have same : other = ref.nodeId := by simpa using single
    exact same ▸ created.nodeId_ne old oldLive
  case fresh =>
    intro other live
    rw [created.nextSerial]
    cases (created.mem_iff other).mp live with
    | inl old => exact Nat.lt_succ_of_lt (covered.fresh other old)
    | inr new => exact new ▸ created.serial ▸ Nat.lt_succ_self _
  case leadsLive =>
    intro source target step
    exact (created.mem_iff target).mpr
      (Or.inl (covered.leadsLive source target (created.old_of_leads step)))
  case inputsLive =>
    intro source target step
    exact (created.mem_iff source).mpr
      (Or.inl (covered.inputsLive source target (created.old_of_feeds step)))
  case covered =>
    intro source sourceLive target targetLive
    rcases created.counts covered sourceLive targetLive with
      ⟨oldSource, oldTarget, ins, outs⟩ | ⟨ins, outs⟩
    · rw [ins, outs]
      exact covered.covered source oldSource target oldTarget
    · omega
  case acyclic => exact covered.acyclic.mono fun _ _ step => created.old_of_leads step

/-- Creating a node keeps a wiring balanced. -/
theorem balanced (balanced : Balanced graph) : Balanced after where
  toCovered := created.covered balanced.toCovered
  balanced := by
    intro source sourceLive target targetLive
    rcases created.counts balanced.toCovered sourceLive targetLive with
      ⟨oldSource, oldTarget, ins, outs⟩ | ⟨ins, outs⟩
    · rw [ins, outs]
      exact balanced.balanced source oldSource target oldTarget
    · omega

end

end Created

theorem addLead_fold (covered : Covered graph) (ref : NodeRef) (live : ref ∈ graph.nodeDb)
    (sources : List NodeRef) (inputs : ∀ source ∈ sources, source ∈ (graph.heap ref).allInputs) :
    sources.foldl (addLead · ref) graph = graph := by
  induction sources with
  | nil => rfl
  | cons source rest ih =>
    have lead := covered.leads_of_feeds ⟨live, inputs source (by simp)⟩
    have listed : (graph.heap source).leadsToNodes.any fun lead => lead.nodeId = ref.nodeId := by
      simpa using ⟨ref, lead.2, rfl⟩
    have same : graph.addLead ref source = graph := by
      simp [addLead, FlowGraph.modifyNode, listed]
    rw [foldl_cons, same]
    exact ih fun other mem => inputs other (mem_cons_of_mem _ mem)

end Flowfile.Graph
