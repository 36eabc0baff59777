import Flowfile.Graph
import Flowfile.Library.Documents

/-!
# Staged entries when a session resumes

A staged addition is dropped when its node id is live by now or when an upstream node is not live.
What earlier entries of the session add does not count as live, although an addition may be staged
behind another one.
-/

namespace Flowfile.Sessions

open Library.Documents Flowfile.Graph

variable {P : Type}

structure StagedToolEntry where
  toolName : String
  auditId : Option Int
  stagedNodePayload : Dict

structure AgentSession where
  stagedResults : List StagedToolEntry
  stagedNodeIds : List Int

inductive StagedDropReason where
  | liveIdCollision
  | upstreamMissing

def integer? : Value → Option Int
  | .integer value => some value
  | .boolean value => some value.toInt
  | _ => none

def addPrefix : String := "flowfile.graph.add_"

namespace StagedToolEntry

variable (entry : StagedToolEntry)

def adds : Bool := addPrefix.toList.isPrefixOf entry.toolName.toList

def entryNodeId : Option Int :=
  match entry.stagedNodePayload.get "settings" with
  | .dict settings => integer? (Dict.get settings "node_id")
  | _ => none

def entryUpstreamIds : List Int :=
  match entry.stagedNodePayload.get "insertion_context" with
  | .dict context =>
    (match Dict.get context "upstream_node_ids" with
      | .list upstream => upstream.filterMap integer?
      | _ => []) ++ (integer? (Dict.get context "right_input_node_id")).toList
  | _ => []

def collides (live : List Int) : Bool := entry.entryNodeId.any live.contains

end StagedToolEntry

/-- What the loop holds: kept entries, dropped ones and the ids of kept additions. -/
structure Revalidation where
  kept : List StagedToolEntry := []
  dropped : List (StagedToolEntry × StagedDropReason) := []
  survivingNodeIds : List Int := []

def Revalidation.revalidate (live : List Int) (state : Revalidation) (entry : StagedToolEntry) :
    Revalidation :=
  if !entry.adds then { state with kept := state.kept ++ [entry] }
  else if entry.collides live then
    { state with dropped := state.dropped ++ [(entry, .liveIdCollision)] }
  else if entry.entryUpstreamIds.any fun id => !live.contains id then
    { state with dropped := state.dropped ++ [(entry, .upstreamMissing)] }
  else
    { state with
      kept := state.kept ++ [entry]
      survivingNodeIds := state.survivingNodeIds ++ entry.entryNodeId.toList }

def liveIds (flow : FlowGraph P) : List Int := flow.nodeDb.map NodeRef.nodeId

def revalidateStagedResultsAgainstLive (session : AgentSession) (flow : FlowGraph P) :
    AgentSession × List (StagedToolEntry × StagedDropReason) :=
  let state := session.stagedResults.foldl (Revalidation.revalidate (liveIds flow)) {}
  (⟨state.kept, state.survivingNodeIds⟩, state.dropped)

/-- The entries to keep, given the ids that kept ones added so far: all but additions whose id is
live or whose upstream nodes are neither live nor added. -/
def meant (live : List Int) : List Int → List StagedToolEntry → List StagedToolEntry
  | _, [] => []
  | added, entry :: rest =>
    if !entry.adds then entry :: meant live added rest
    else if !entry.collides live ∧ entry.entryUpstreamIds ⊆ live ++ added then
      entry :: meant live (added ++ entry.entryNodeId.toList) rest
    else meant live added rest

/-- No addition with a new id depends on what additions before it add, given the ids that those with
live upstream nodes only add. -/
def Unchained (live : List Int) : List Int → List StagedToolEntry → Prop
  | _, [] => True
  | added, entry :: rest =>
    if entry.adds ∧ !entry.collides live then
      if entry.entryUpstreamIds ⊆ live then
        Unchained live (added ++ entry.entryNodeId.toList) rest
      else ¬entry.entryUpstreamIds ⊆ live ++ added ∧ Unchained live added rest
    else Unchained live added rest

variable {live : List Int}

/-- Entries that are no additions, and additions that fit the live graph. -/
def StagedToolEntry.stands (live : List Int) (entry : StagedToolEntry) : Bool :=
  !entry.adds || !entry.collides live && entry.entryUpstreamIds ⊆ live

theorem revalidate_kept (state : Revalidation) (entries : List StagedToolEntry) :
    (entries.foldl (Revalidation.revalidate live) state).kept =
      state.kept ++ entries.filter (StagedToolEntry.stands live) := by
  induction entries generalizing state with
  | nil => simp
  | cons entry rest ih =>
    have missing : (∃ id, id ∈ entry.entryUpstreamIds ∧ ¬id ∈ live) ↔
        ¬entry.entryUpstreamIds ⊆ live := by
      simp [List.subset_def]
    rw [List.foldl_cons, ih, List.filter_cons]
    cases adds : entry.adds <;> cases collides : entry.collides live <;>
      by_cases upstream : entry.entryUpstreamIds ⊆ live <;>
      simp [Revalidation.revalidate, StagedToolEntry.stands, adds, collides, upstream, missing]

theorem meant_iff (added : List Int) (entries : List StagedToolEntry) :
    entries.filter (StagedToolEntry.stands live) = meant live added entries ↔
      Unchained live added entries := by
  induction entries generalizing added with
  | nil => simp [meant, Unchained]
  | cons entry rest ih =>
    have absent : entry.stands live = false →
        entry ∉ rest.filter (StagedToolEntry.stands live) := fun falls mem =>
      Bool.false_ne_true (falls.symm.trans (List.mem_filter.mp mem).2)
    rw [List.filter_cons, meant, Unchained]
    cases adds : entry.adds
    case false => simp [StagedToolEntry.stands, adds, ih]
    case true =>
      cases collides : entry.collides live
      case true => simp [StagedToolEntry.stands, adds, collides, ih]
      case false =>
        by_cases upstream : entry.entryUpstreamIds ⊆ live
        · have known := List.Subset.trans upstream (List.subset_append_left live added)
          simp [StagedToolEntry.stands, adds, collides, upstream, known, ih]
        have falls : entry.stands live = false := by
          simp [StagedToolEntry.stands, adds, collides, upstream]
        by_cases known : entry.entryUpstreamIds ⊆ live ++ added
        · -- The kept list would have to start with an entry that was dropped.
          simp only [falls, upstream, known, Bool.false_eq_true, Bool.not_true, Bool.not_false,
            if_false, if_true, and_self, not_true_eq_false, false_and, iff_false]
          exact fun same => absent falls (same ▸ List.mem_cons_self)
        · simp [falls, upstream, known, ih]

/-- The entries that are to be kept are kept exactly when no addition depends on earlier ones. -/
theorem revalidated_iff (session : AgentSession) (flow : FlowGraph P) :
    (revalidateStagedResultsAgainstLive session flow).1.stagedResults =
        meant (liveIds flow) [] session.stagedResults ↔
      Unchained (liveIds flow) [] session.stagedResults := by
  rw [revalidateStagedResultsAgainstLive]
  dsimp only
  rw [revalidate_kept]
  exact meant_iff [] session.stagedResults

/-- A staged addition behind some nodes. -/
def staged (nodeId : Int) (upstream : List Int) : StagedToolEntry where
  toolName := "flowfile.graph.add_filter"
  auditId := none
  stagedNodePayload := [("settings", .dict [("node_id", .integer nodeId)]),
    ("insertion_context", .dict [("upstream_node_ids", .list (upstream.map .integer))])]

def readerFlow : FlowGraph Unit where
  nodeDb := [⟨1, 0⟩]
  heap _ := ⟨"read", ⟨0, false, true⟩,
    ⟨some (), true, 0, 0, none, "", none, none, false, false⟩, none, none, none, [], fun _ => none⟩
  nextSerial := 1
  flowStarts := [⟨1, 0⟩]
  groups := []
  groupIdSeq := 0

theorem chain_dropped : (revalidateStagedResultsAgainstLive ⟨[staged 2 [1], staged 3 [2]], [2, 3]⟩
        readerFlow).1.stagedResults ≠
      meant (liveIds readerFlow) [] [staged 2 [1], staged 3 [2]] := by
  intro same
  exact absurd (congrArg List.length same) (by decide)

end Flowfile.Sessions
