import Flowfile.GraphEdits
import Flowfile.HashCache

/-!
# What keeps a graph editable

The check for cycles walks along successors, while hashes and results travel along
inputs. It protects the inputs only as long as every input is covered: a node lists a
target as successor at least as often as the target lists the node as input. A
wiring is covered when this holds, node ids are distinct, connections stay inside the
node table and successors have no cycle. It is balanced when successors and inputs
match exactly.

In a covered wiring the check for cycles returns, and when it finds none the source is
not downstream of the target. Resets return, whatever hashes are cached.
-/

namespace Flowfile.Graph

open Library.FiniteDag Library.PartialLists List

variable {P : Type} {graph : FlowGraph P}

def FlowGraph.leads (graph : FlowGraph P) (source target : NodeRef) : Prop :=
  source ∈ graph.nodeDb ∧ target ∈ (graph.heap source).leadsToNodes

/-- How often a node lists a target as successor. -/
def FlowGraph.outs (graph : FlowGraph P) (source target : NodeRef) : Nat :=
  (graph.heap source).leadsToNodes.count target

/-- How often a node lists a source as input. -/
def FlowGraph.ins (graph : FlowGraph P) (source target : NodeRef) : Nat :=
  (graph.heap target).allInputs.count source

/-- Every input is listed by its source, inside a node table with distinct ids, and
successors have no cycle. -/
structure Covered (graph : FlowGraph P) : Prop where
  distinct : (graph.nodeDb.map NodeRef.nodeId).Nodup
  fresh : ∀ ref ∈ graph.nodeDb, ref.serial < graph.nextSerial
  leadsLive : ∀ source target, graph.leads source target → target ∈ graph.nodeDb
  inputsLive : ∀ source target, graph.feeds source target → source ∈ graph.nodeDb
  covered : ∀ source ∈ graph.nodeDb, ∀ target ∈ graph.nodeDb,
    graph.ins source target ≤ graph.outs source target
  acyclic : Acyclic graph.leads

/-- Successors and inputs match exactly. -/
structure Balanced (graph : FlowGraph P) : Prop extends Covered graph where
  balanced : ∀ source ∈ graph.nodeDb, ∀ target ∈ graph.nodeDb,
    graph.outs source target = graph.ins source target

namespace Covered

theorem eq_of_nodeId (covered : Covered graph) {first second : NodeRef}
    (firstLive : first ∈ graph.nodeDb) (secondLive : second ∈ graph.nodeDb)
    (same : first.nodeId = second.nodeId) : first = second :=
  inj_on_of_nodup_map covered.distinct firstLive secondLive same

theorem getNode_spec {nodeId : Int} {ref : NodeRef} (found : graph.getNode nodeId = some ref) :
    ref ∈ graph.nodeDb ∧ ref.nodeId = nodeId := by
  constructor
  · exact mem_of_find?_eq_some found
  · simpa using List.find?_some found

section

variable (covered : Covered graph)
include covered

theorem leads_of_feeds {source target : NodeRef}
    (feeds : graph.feeds source target) : graph.leads source target := by
  have sourceLive := covered.inputsLive source target feeds
  have positive : 0 < graph.ins source target := count_pos_iff.mpr feeds.2
  have listed := covered.covered source sourceLive target feeds.1
  exact ⟨sourceLive, count_pos_iff.mp (Nat.lt_of_lt_of_le positive listed)⟩

/-- The inputs of a covered wiring have no cycle either. -/
theorem feeds_acyclic : Acyclic graph.feeds :=
  covered.acyclic.mono fun _ _ feeds => covered.leads_of_feeds feeds

variable (ref : NodeRef)

/-- No node is its own input. -/
theorem not_feeds_self : ¬ graph.feeds ref ref :=
  fun loop => covered.feeds_acyclic ref (Relation.TransGen.single loop)

theorem reset_returns [DecidableEq P] (live : ref ∈ graph.nodeDb) :
    ∃ bound, ∀ fuel, bound ≤ fuel → ∀ hashes,
      ∃ after, reset graph fuel hashes ref = some after :=
  Graph.reset_returns (· ∈ graph.nodeDb)
    (fun target mem source input => covered.inputsLive source target ⟨mem, input⟩)
    (wellFounded_of_sources graph.nodeDb covered.feeds_acyclic covered.inputsLive)
    (fun source mem target lead => covered.leadsLive source target ⟨mem, lead⟩)
    (wellFounded_of_targets graph.nodeDb covered.acyclic covered.leadsLive) ref live

theorem nodeHash_returns (live : ref ∈ graph.nodeDb) : ∃ bound, ∀ fuel, bound ≤ fuel → ∀ hashes,
      ∃ result, nodeHash graph fuel hashes ref = some result :=
  Graph.nodeHash_returns (· ∈ graph.nodeDb)
    (fun target mem source input => covered.inputsLive source target ⟨mem, input⟩)
    (wellFounded_of_sources graph.nodeDb covered.feeds_acyclic covered.inputsLive) ref live

end

end Covered

/-- What visiting the successors of one node adds to the search. -/
structure Visited (leads stack stack' : List NodeRef) (visited visited' : List Int) : Prop where
  stackKept : ∀ ref ∈ stack, ref ∈ stack'
  visitedKept : ∀ nodeId ∈ visited, nodeId ∈ visited'
  listed : ∀ lead ∈ leads, lead.nodeId ∈ visited'
  stackFrom : ∀ ref ∈ stack', ref ∈ stack ∨ ref ∈ leads
  visitedFrom : ∀ nodeId ∈ visited', nodeId ∈ visited ∨
    ∃ ref ∈ stack', ref.nodeId = nodeId ∧ ref ∈ leads
  nodup : visited.Nodup → visited'.Nodup
  balance : stack'.length + visited.length = stack.length + visited'.length

theorem visitDownstream_spec (targetId : Int) (leads stack stack' : List NodeRef)
    (visited visited' : List Int)
    (returned : visitDownstream targetId leads (stack, visited) = some (stack', visited')) :
    (∀ lead ∈ leads, lead.nodeId ≠ targetId) ∧ Visited leads stack stack' visited visited' := by
  induction leads generalizing stack visited with
  | nil =>
    simp only [visitDownstream, Option.some.injEq, Prod.mk.injEq] at returned
    obtain ⟨rfl, rfl⟩ := returned
    refine ⟨by simp, ?_⟩
    constructor <;> simp
  | cons lead rest ih =>
    rw [visitDownstream] at returned
    split at returned
    case isTrue => simp at returned
    case isFalse apart =>
      split at returned
      case isTrue known =>
        obtain ⟨restApart, spec⟩ := ih stack visited returned
        refine ⟨by simpa [apart] using restApart, ?_⟩
        constructor
        case stackKept => exact spec.stackKept
        case visitedKept => exact spec.visitedKept
        case listed =>
          rintro other (_ | ⟨_, inRest⟩)
          · exact spec.visitedKept _ (by simpa using known)
          · exact spec.listed other inRest
        case stackFrom =>
          intro ref mem
          exact (spec.stackFrom ref mem).imp_right (mem_cons_of_mem _)
        case visitedFrom =>
          intro nodeId mem
          refine (spec.visitedFrom nodeId mem).imp_right ?_
          rintro ⟨ref, onStack, same, inRest⟩
          exact ⟨ref, onStack, same, mem_cons_of_mem _ inRest⟩
        case nodup => exact spec.nodup
        case balance => exact spec.balance
      case isFalse unknown =>
        obtain ⟨restApart, spec⟩ := ih _ _ returned
        have pushed : lead ∈ stack' := spec.stackKept lead (by simp)
        refine ⟨by simpa [apart] using restApart, ?_⟩
        constructor
        case stackKept => exact fun ref mem => spec.stackKept ref (by simp [mem])
        case visitedKept => exact fun nodeId mem => spec.visitedKept nodeId (by simp [mem])
        case listed =>
          rintro other (_ | ⟨_, inRest⟩)
          · exact spec.visitedKept _ (by simp)
          · exact spec.listed other inRest
        case stackFrom =>
          intro ref mem
          rcases spec.stackFrom ref mem with (_ | ⟨_, earlier⟩) | inRest
          · exact Or.inr (by simp)
          · exact Or.inl earlier
          · exact Or.inr (mem_cons_of_mem _ inRest)
        case visitedFrom =>
          intro nodeId mem
          rcases spec.visitedFrom nodeId mem with
            (_ | ⟨_, earlier⟩) | ⟨ref, onStack, same, inRest⟩
          · exact Or.inr ⟨lead, pushed, rfl, by simp⟩
          · exact Or.inl earlier
          · exact Or.inr ⟨ref, onStack, same, mem_cons_of_mem _ inRest⟩
        case nodup =>
          intro nodup
          exact spec.nodup (nodup_cons.mpr ⟨by simpa using unknown, nodup⟩)
        case balance =>
          have later := spec.balance
          simp only [length_cons] at later
          omega

/-- What the search has established: the stack holds nodes of the graph that were
visited, and every other visited node has all its successors visited, none of them
the target. -/
structure Searching (graph : FlowGraph P) (targetId : Int) (stack : List NodeRef)
    (visited : List Int) : Prop where
  stackLive : ∀ ref ∈ stack, ref ∈ graph.nodeDb
  visitedLive : ∀ nodeId ∈ visited, nodeId ∈ graph.nodeDb.map NodeRef.nodeId
  nodup : visited.Nodup
  expanded : ∀ ref ∈ graph.nodeDb, ref.nodeId ∈ visited → ref ∈ stack ∨
    ∀ lead ∈ (graph.heap ref).leadsToNodes, lead.nodeId ≠ targetId ∧ lead.nodeId ∈ visited

/-- Expanding the top of the stack. -/
theorem Searching.step (covered : Covered graph) {targetId : Int} {current : NodeRef}
    {stack stack' : List NodeRef} {visited visited' : List Int}
    (searching : Searching graph targetId (current :: stack) visited)
    (returned : visitDownstream targetId (graph.heap current).leadsToNodes (stack, visited) =
      some (stack', visited')) : Searching graph targetId stack' visited' := by
  obtain ⟨apart, spec⟩ := visitDownstream_spec _ _ _ _ _ _ returned
  have currentLive : current ∈ graph.nodeDb := searching.stackLive current (by simp)
  have leadLive : ∀ lead ∈ (graph.heap current).leadsToNodes, lead ∈ graph.nodeDb :=
    fun lead mem => covered.leadsLive current lead ⟨currentLive, mem⟩
  have stackLive : ∀ ref ∈ stack', ref ∈ graph.nodeDb := by
    intro ref mem
    cases spec.stackFrom ref mem with
    | inl earlier => exact searching.stackLive ref (mem_cons_of_mem _ earlier)
    | inr lead => exact leadLive ref lead
  constructor
  case stackLive => exact stackLive
  case visitedLive =>
    intro nodeId mem
    rcases spec.visitedFrom nodeId mem with earlier | ⟨ref, onStack, rfl, _⟩
    · exact searching.visitedLive nodeId earlier
    · exact mem_map_of_mem (stackLive ref onStack)
  case nodup => exact spec.nodup searching.nodup
  case expanded =>
    intro ref live known
    rcases spec.visitedFrom _ known with earlier | ⟨other, onStack, same, _⟩
    · rcases searching.expanded ref live earlier with (_ | ⟨_, waiting⟩) | done
      · exact Or.inr fun lead mem => ⟨apart lead mem, spec.listed lead mem⟩
      · exact Or.inl (spec.stackKept ref waiting)
      · exact Or.inr fun lead mem =>
          ⟨(done lead mem).1, spec.visitedKept _ (done lead mem).2⟩
    · have equal : other = ref := covered.eq_of_nodeId (stackLive other onStack) live same
      exact Or.inl (equal ▸ onStack)

theorem searchDownstream_spec (covered : Covered graph) (targetId : Int) (fuel : Nat)
    (stack : List NodeRef) (visited : List Int) (searching : Searching graph targetId stack visited)
    (returned : searchDownstream graph targetId fuel (stack, visited) = some false) :
    ∃ final, (∀ nodeId ∈ visited, nodeId ∈ final) ∧ Searching graph targetId [] final := by
  induction fuel generalizing stack visited with
  | zero => simp [searchDownstream] at returned
  | succ fuel ih =>
    cases stack with
    | nil => exact ⟨visited, fun _ mem => mem, searching⟩
    | cons current stack =>
    rw [searchDownstream] at returned
    split at returned
    case h_1 => simp at returned
    case h_2 found next =>
      obtain ⟨final, later, finished⟩ :=
        ih _ _ (searching.step covered next) returned
      obtain ⟨_, spec⟩ := visitDownstream_spec _ _ _ _ _ _ next
      exact ⟨final, fun nodeId mem => later nodeId (spec.visitedKept nodeId mem), finished⟩

theorem searching_start (targetId : Int) (ref : NodeRef) (live : ref ∈ graph.nodeDb)
    (covered : Covered graph) : Searching graph targetId [ref] [ref.nodeId] := by
  constructor
  case stackLive => simpa using live
  case visitedLive =>
    intro nodeId mem
    simp only [mem_singleton] at mem
    exact mem ▸ mem_map_of_mem live
  case nodup => simp
  case expanded =>
    intro other otherLive known
    have equal : other = ref := covered.eq_of_nodeId otherLive live (by simpa using known)
    exact Or.inl (by simp [equal])

theorem not_reachable_of_no_cycle (covered : Covered graph) (fuel : Nat) (source target : NodeRef)
    (targetLive : target ∈ graph.nodeDb)
    (returned : wouldCreateCycle graph fuel source target = some false) :
    ¬ Relation.ReflTransGen graph.leads target source := by
  rw [wouldCreateCycle] at returned
  split at returned
  case isTrue => simp at returned
  case isFalse apart =>
    obtain ⟨final, kept, finished⟩ := searchDownstream_spec covered _ _ _ _
      (searching_start source.nodeId target targetLive covered) returned
    intro path
    have along : ∀ ref, Relation.ReflTransGen graph.leads target ref →
        ref ∈ graph.nodeDb ∧ ref.nodeId ∈ final ∧ ref.nodeId ≠ source.nodeId := by
      intro ref path
      induction path with
      | refl => exact ⟨targetLive, kept _ (by simp), fun same => apart same.symm⟩
      | tail _ step ih =>
        obtain ⟨live, known, _⟩ := ih
        cases finished.expanded _ live known with
        | inl waiting => simp at waiting
        | inr done =>
          exact ⟨covered.leadsLive _ _ step, (done _ step.2).2, (done _ step.2).1⟩
    exact (along source path).2.2 rfl

theorem visitDownstream_none (targetId : Int) (leads stack : List NodeRef) (visited : List Int)
    (broke : visitDownstream targetId leads (stack, visited) = none) :
    ∃ lead ∈ leads, lead.nodeId = targetId := by
  induction leads generalizing stack visited with
  | nil => cases broke
  | cons lead rest ih =>
    rw [visitDownstream] at broke
    split at broke
    case isTrue same => exact ⟨lead, mem_cons_self, same⟩
    case isFalse =>
      split at broke
      all_goals
        obtain ⟨later, mem, same⟩ := ih _ _ broke
        exact ⟨later, mem_cons_of_mem _ mem, same⟩

section

variable (covered : Covered graph)
include covered

variable (targetId : Int) (fuel : Nat)

theorem searchDownstream_found (root : NodeRef)
    (fuel : Nat) (stack : List NodeRef) (visited : List Int)
    (reached : ∀ ref ∈ stack, ref ∈ graph.nodeDb ∧ Relation.ReflTransGen graph.leads root ref)
    (returned : searchDownstream graph targetId fuel (stack, visited) = some true) :
    ∃ ref ∈ graph.nodeDb, ref.nodeId = targetId ∧ Relation.ReflTransGen graph.leads root ref := by
  induction fuel generalizing stack visited with
  | zero => cases returned
  | succ fuel ih =>
    cases stack with
    | nil => cases returned
    | cons current stack =>
    obtain ⟨currentLive, path⟩ := reached current mem_cons_self
    have onward : ∀ lead ∈ (graph.heap current).leadsToNodes,
        lead ∈ graph.nodeDb ∧ Relation.ReflTransGen graph.leads root lead := fun lead mem =>
      ⟨covered.leadsLive current lead ⟨currentLive, mem⟩, path.tail ⟨currentLive, mem⟩⟩
    rw [searchDownstream] at returned
    split at returned
    case h_1 broke =>
      obtain ⟨lead, mem, same⟩ := visitDownstream_none _ _ _ _ broke
      exact ⟨lead, (onward lead mem).1, same, (onward lead mem).2⟩
    case h_2 found next =>
      obtain ⟨_, spec⟩ := visitDownstream_spec _ _ _ _ _ _ next
      refine ih _ _ (fun ref onStack => ?_) returned
      cases spec.stackFrom ref onStack with
      | inl earlier => exact reached ref (mem_cons_of_mem _ earlier)
      | inr lead => exact onward ref lead

theorem reachable_of_cycle (source target : NodeRef)
    (sourceLive : source ∈ graph.nodeDb) (targetLive : target ∈ graph.nodeDb)
    (returned : wouldCreateCycle graph fuel source target = some true) :
    Relation.ReflTransGen graph.leads target source := by
  rw [wouldCreateCycle] at returned
  split at returned
  case isTrue same =>
    rw [covered.eq_of_nodeId sourceLive targetLive same]
  case isFalse =>
    obtain ⟨ref, live, same, path⟩ := searchDownstream_found covered _ target fuel _ _
      (by simpa using ⟨targetLive, Relation.ReflTransGen.refl⟩) returned
    rwa [covered.eq_of_nodeId live sourceLive same] at path

theorem searchDownstream_returns
    (stack : List NodeRef) (visited : List Int) (searching : Searching graph targetId stack visited)
    (enough : stack.length + graph.nodeDb.length < fuel + visited.length) :
    ∃ cyclic, searchDownstream graph targetId fuel (stack, visited) = some cyclic := by
  induction fuel generalizing stack visited with
  | zero =>
    have bounded := (searching.nodup.subperm searching.visitedLive).length_le
    simp only [length_map] at bounded
    omega
  | succ fuel ih =>
    cases stack with
    | nil => exact ⟨false, rfl⟩
    | cons current stack =>
    rw [searchDownstream]
    cases next : visitDownstream targetId (graph.heap current).leadsToNodes (stack, visited) with
    | none => exact ⟨true, rfl⟩
    | some found =>
    obtain ⟨_, spec⟩ := visitDownstream_spec _ _ _ _ _ _ next
    have balance := spec.balance
    simp only [length_cons] at enough
    exact ih _ _ (searching.step covered next) (by omega)

/-- The check for cycles returns. -/
theorem wouldCreateCycle_returns (source target : NodeRef)
    (targetLive : target ∈ graph.nodeDb) (enough : graph.nodeDb.length < fuel) :
    ∃ cyclic, wouldCreateCycle graph fuel source target = some cyclic := by
  rw [wouldCreateCycle]
  split
  · exact ⟨true, rfl⟩
  · exact searchDownstream_returns covered _ _ _ _
      (searching_start source.nodeId target targetLive covered) (by simpa using by omega)

end

end Flowfile.Graph
