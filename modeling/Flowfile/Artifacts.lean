import Flowfile.Library.EventRuns
import Mathlib.Data.Finset.Sort

/-!
# Artifacts of kernels

Nodes that run on a kernel publish named artifacts there, consume and delete them. The context keeps
references to artifacts in three structures: what each node published, consumed and deleted, which
reference a kernel holds under a name, and which nodes published a name on a kernel.

The kernel map and the publisher index are in step when a name is in the map exactly when it has
publishers, the source of the reference among them and still listing the artifact. Clearing a node
deletes the references it is the source of, but leaves other publishers of the name in the index.
Putting back the state of a node replaces what the node lists and leaves the index of what it listed
before. Apart from these two, every operation keeps the structures in step.
-/

namespace Flowfile.Artifacts

open Function Library.EventRuns List

structure ArtifactRef where
  name : String
  sourceNodeId : Int
  kernelId : String
  typeName : String
  moduleName : String
  sizeBytes : Int
deriving DecidableEq

/-- What a node reports about an artifact it publishes. -/
structure ArtifactItem where
  name : String
  typeName : String
  moduleName : String
  sizeBytes : Int

/-- A report that consists of the name only. -/
def ArtifactItem.ofName (name : String) : ArtifactItem := ⟨name, "", "", 0⟩

/-- The reference created for a report. -/
def ArtifactItem.ref (nodeId : Int) (kernelId : String) (item : ArtifactItem) : ArtifactRef :=
  ⟨item.name, nodeId, kernelId, item.typeName, item.moduleName, item.sizeBytes⟩

/-- What is known about one node. -/
structure NodeArtifactState where
  published : List ArtifactRef
  available : String → Option ArtifactRef
  consumed : List String
  deleted : List String

/-- A node nothing is known about. -/
def NodeArtifactState.initial : NodeArtifactState := ⟨[], fun _ => none, [], []⟩

/-- The state of all nodes, the kernel map, the publisher index and, for each node that deleted
artifacts, their kernel, name and publisher. -/
@[ext] structure ArtifactContext where
  nodeStates : Int → Option NodeArtifactState
  kernelArtifacts : String → String → Option ArtifactRef
  publisherIndex : String → String → Option (Finset Int)
  deletionOrigins : Int → List (String × String × Int)

/-- The context of a new graph. -/
def ArtifactContext.empty : ArtifactContext :=
  ⟨fun _ => none, fun _ _ => none, fun _ _ => none, fun _ => []⟩

namespace ArtifactContext

variable (context : ArtifactContext)

def modifyState (nodeId : Int) (change : NodeArtifactState → NodeArtifactState) : ArtifactContext :=
  { context with
    nodeStates := update context.nodeStates nodeId
      (some (change ((context.nodeStates nodeId).getD .initial))) }

def setEntry (kernelId name : String) (ref : Option ArtifactRef)
    (publishers : Option (Finset Int)) : ArtifactContext :=
  { context with
    kernelArtifacts := update context.kernelArtifacts kernelId
      (update (context.kernelArtifacts kernelId) name ref)
    publisherIndex := update context.publisherIndex kernelId
      (update (context.publisherIndex kernelId) name publishers) }

def enter (nodeId : Int) (ref : ArtifactRef) : ArtifactContext :=
  context.setEntry ref.kernelId ref.name (some ref)
    (some (insert nodeId ((context.publisherIndex ref.kernelId ref.name).getD ∅)))

def recordPublished (nodeId : Int) (kernelId : String) (artifacts : List ArtifactItem) :
    ArtifactContext :=
  artifacts.foldl (fun context item =>
      (context.modifyState nodeId fun state =>
        { state with published := state.published ++ [item.ref nodeId kernelId] }).enter nodeId
          (item.ref nodeId kernelId))
    (context.modifyState nodeId id)

def recordConsumed (nodeId : Int) (names : List String) : ArtifactContext :=
  context.modifyState nodeId fun state => { state with consumed := state.consumed ++ names }

def deleteName (nodeId : Int) (kernelId name : String) : ArtifactContext :=
  let publisherIds := (context.publisherIndex kernelId name).getD ∅
  { context.setEntry kernelId name none none with
    deletionOrigins := update context.deletionOrigins nodeId
      (context.deletionOrigins nodeId ++
        (publisherIds.sort (· ≤ ·)).map fun publisher => (kernelId, name, publisher)) }

def recordDeleted (nodeId : Int) (kernelId : String) (names : List String) : ArtifactContext :=
  names.foldl (fun context name => context.deleteName nodeId kernelId name)
    (context.modifyState nodeId fun state => { state with deleted := state.deleted ++ names })

/-- What one upstream node leaves available: its deletions first, on whatever kernel, then its
publications on the kernel. -/
def passThrough (kernelId : String) (available : String → Option ArtifactRef)
    (state : NodeArtifactState) : String → Option ArtifactRef :=
  (state.published.filter fun ref => ref.kernelId = kernelId).foldl
    (fun available ref => update available ref.name (some ref))
    (state.deleted.foldl (fun available name => update available name none) available)

def availableAfter (kernelId : String) (upstreamNodeIds : List Int) : String → Option ArtifactRef :=
  (upstreamNodeIds.insertionSort (· ≤ ·)).foldl (fun available nodeId =>
    match context.nodeStates nodeId with
    | none => available
    | some state => passThrough kernelId available state) fun _ => none

def computeAvailable (nodeId : Int) (kernelId : String) (upstreamNodeIds : List Int) :
    ArtifactContext :=
  context.modifyState nodeId fun state =>
    { state with available := context.availableAfter kernelId upstreamNodeIds }

def clearKernel (kernelId : String) : ArtifactContext where
  nodeStates nodeId := (context.nodeStates nodeId).map fun state =>
    { state with
      available := fun name => (state.available name).filter fun ref => ref.kernelId ≠ kernelId }
  kernelArtifacts := update context.kernelArtifacts kernelId fun _ => none
  publisherIndex := update context.publisherIndex kernelId fun _ => none
  deletionOrigins nodeId := (context.deletionOrigins nodeId).filter fun entry =>
    entry.1 ≠ kernelId

/-- Forget everything. -/
def clearAll (_ : ArtifactContext) : ArtifactContext := .empty

/-- Take back one reference of a cleared node: the kernel forgets it if the node is its source,
and the node is no publisher any more. -/
def withdraw (nodeId : Int) (ref : ArtifactRef) : ArtifactContext :=
  context.setEntry ref.kernelId ref.name
    ((context.kernelArtifacts ref.kernelId ref.name).filter fun existing =>
      existing.sourceNodeId ≠ nodeId)
    (((context.publisherIndex ref.kernelId ref.name).map fun publishers =>
      publishers.erase nodeId).filter fun publishers => publishers ≠ ∅)

def clearNode (nodeId : Int) : ArtifactContext :=
  let context := { context with
    deletionOrigins := update context.deletionOrigins nodeId [] }
  match context.nodeStates nodeId with
  | none => context
  | some state =>
    state.published.foldl (fun context ref => context.withdraw nodeId ref)
      { context with nodeStates := update context.nodeStates nodeId none }

/-- Forget nodes, in the order in which the set is listed. -/
def clearNodes (nodeIds : List Int) : ArtifactContext :=
  nodeIds.foldl clearNode context

def restoreNodeState (nodeId : Int) (state : NodeArtifactState) : ArtifactContext :=
  state.published.foldl (fun context ref => context.enter nodeId ref)
    { context with nodeStates := update context.nodeStates nodeId (some state) }

end ArtifactContext

inductive ContextCall where
  | recordPublished (nodeId : Int) (kernelId : String) (artifacts : List ArtifactItem)
  | recordConsumed (nodeId : Int) (names : List String)
  | recordDeleted (nodeId : Int) (kernelId : String) (names : List String)
  | computeAvailable (nodeId : Int) (kernelId : String) (upstreamNodeIds : List Int)
  | clearKernel (kernelId : String)
  | clearAll
  | clearNodes (nodeIds : List Int)
  | restoreNodeState (nodeId : Int) (state : NodeArtifactState)

def ArtifactContext.perform (context : ArtifactContext) : ContextCall → ArtifactContext
  | .recordPublished nodeId kernelId artifacts =>
    context.recordPublished nodeId kernelId artifacts
  | .recordConsumed nodeId names => context.recordConsumed nodeId names
  | .recordDeleted nodeId kernelId names => context.recordDeleted nodeId kernelId names
  | .computeAvailable nodeId kernelId upstreamNodeIds =>
    context.computeAvailable nodeId kernelId upstreamNodeIds
  | .clearKernel kernelId => context.clearKernel kernelId
  | .clearAll => context.clearAll
  | .clearNodes nodeIds => context.clearNodes nodeIds
  | .restoreNodeState nodeId state => context.restoreNodeState nodeId state

variable {context : ArtifactContext}

def Lists (context : ArtifactContext) (nodeId : Int) (kernelId name : String) : Prop :=
  ∃ state, context.nodeStates nodeId = some state ∧
    ∃ ref ∈ state.published, ref.kernelId = kernelId ∧ ref.name = name

/-- A name is in the map of a kernel exactly when it has publishers there; the source of the
reference is one of them and lists the artifact. -/
structure InStep (context : ArtifactContext) : Prop where
  present_iff : ∀ kernelId name, (∃ ref, context.kernelArtifacts kernelId name = some ref) ↔
    ∃ publishers, context.publisherIndex kernelId name = some publishers ∧ publishers.Nonempty
  source : ∀ kernelId name ref, context.kernelArtifacts kernelId name = some ref →
    (∃ publishers, context.publisherIndex kernelId name = some publishers ∧
      ref.sourceNodeId ∈ publishers) ∧ Lists context ref.sourceNodeId kernelId name

/-- What the operations keep: besides, sets of publishers are never empty and every publisher
lists the artifact. -/
structure Tracked (context : ArtifactContext) : Prop where
  absent : ∀ kernelId name, context.kernelArtifacts kernelId name = none →
    context.publisherIndex kernelId name = none
  source : ∀ kernelId name ref, context.kernelArtifacts kernelId name = some ref →
    ∃ publishers, context.publisherIndex kernelId name = some publishers ∧
      ref.sourceNodeId ∈ publishers
  lists : ∀ kernelId name publishers, context.publisherIndex kernelId name = some publishers →
    ∀ nodeId ∈ publishers, Lists context nodeId kernelId name

theorem Tracked.inStep (tracked : Tracked context) : InStep context where
  present_iff kernelId name := by
    constructor
    · rintro ⟨ref, held⟩
      obtain ⟨publishers, indexed, mem⟩ := tracked.source kernelId name ref held
      exact ⟨publishers, indexed, _, mem⟩
    · rintro ⟨publishers, indexed, _⟩
      cases held : context.kernelArtifacts kernelId name with
      | none =>
        rw [tracked.absent kernelId name held] at indexed
        cases indexed
      | some ref => exact ⟨ref, rfl⟩
  source kernelId name ref held := by
    obtain ⟨publishers, indexed, mem⟩ := tracked.source kernelId name ref held
    exact ⟨⟨publishers, indexed, mem⟩, tracked.lists _ _ _ indexed _ mem⟩

/-- A new context is tracked. -/
theorem tracked_empty : Tracked .empty := by
  constructor <;> simp [ArtifactContext.empty]

theorem Tracked.congr {next : ArtifactContext} (tracked : Tracked context)
    (map : next.kernelArtifacts = context.kernelArtifacts)
    (index : next.publisherIndex = context.publisherIndex)
    (kept : ∀ nodeId kernelId name, Lists context nodeId kernelId name →
      Lists next nodeId kernelId name) : Tracked next where
  absent kernelId name := by
    rw [map, index]
    exact tracked.absent kernelId name
  source kernelId name := by
    rw [map, index]
    exact tracked.source kernelId name
  lists kernelId name publishers indexed nodeId mem := by
    rw [index] at indexed
    exact kept _ _ _ (tracked.lists kernelId name publishers indexed nodeId mem)

theorem modifyState_own (context : ArtifactContext) (nodeId : Int)
    (change : NodeArtifactState → NodeArtifactState) :
    (context.modifyState nodeId change).nodeStates nodeId =
      some (change ((context.nodeStates nodeId).getD .initial)) := by
  simp [ArtifactContext.modifyState]

@[simp] theorem modifyState_index (context : ArtifactContext) (nodeId : Int)
    (change : NodeArtifactState → NodeArtifactState) :
    (context.modifyState nodeId change).publisherIndex = context.publisherIndex := rfl

variable {kernelId name : String} {change : NodeArtifactState → NodeArtifactState}

theorem Lists.modifyState {nodeId other : Int}
    (grows : ∀ state ref, ref ∈ state.published → ref ∈ (change state).published)
    (lists : Lists context other kernelId name) :
    Lists (context.modifyState nodeId change) other kernelId name := by
  obtain ⟨state, found, ref, mem, onKernel⟩ := lists
  by_cases same : other = nodeId
  · subst same
    refine ⟨change state, ?_, ref, grows state ref mem, onKernel⟩
    simp [ArtifactContext.modifyState, found]
  · refine ⟨state, ?_, ref, mem, onKernel⟩
    simpa [ArtifactContext.modifyState, same] using found

variable {nodeId : Int}

theorem Tracked.modifyState (tracked : Tracked context)
    (grows : ∀ state ref, ref ∈ state.published → ref ∈ (change state).published) :
    Tracked (context.modifyState nodeId change) :=
  tracked.congr rfl rfl fun _ _ _ lists => lists.modifyState grows

theorem setEntry_map (context : ArtifactContext) (kernelId name other title : String)
    (ref : Option ArtifactRef) (publishers : Option (Finset Int)) :
    (context.setEntry kernelId name ref publishers).kernelArtifacts other title =
      if kernelId = other ∧ name = title then ref else context.kernelArtifacts other title := by
  simp only [ArtifactContext.setEntry, update_apply]
  split <;> split <;> simp_all [eq_comm]

theorem setEntry_index (context : ArtifactContext) (kernelId name other title : String)
    (ref : Option ArtifactRef) (publishers : Option (Finset Int)) :
    (context.setEntry kernelId name ref publishers).publisherIndex other title =
      if kernelId = other ∧ name = title then publishers
      else context.publisherIndex other title := by
  simp only [ArtifactContext.setEntry, update_apply]
  split <;> split <;> simp_all [eq_comm]

variable {ref : ArtifactRef}

section

variable (tracked : Tracked context)
include tracked

theorem Tracked.setEntry {ref : Option ArtifactRef} {publishers : Option (Finset Int)}
    (absent : ref = none → publishers = none)
    (source : ∀ held, ref = some held → ∃ set, publishers = some set ∧ held.sourceNodeId ∈ set)
    (lists : ∀ set, publishers = some set → ∀ nodeId ∈ set, Lists context nodeId kernelId name) :
    Tracked (context.setEntry kernelId name ref publishers) := by
  constructor
  case absent =>
    intro other title
    rw [setEntry_map, setEntry_index]
    split
    · exact absent
    · exact tracked.absent other title
  case source =>
    intro other title held
    rw [setEntry_map, setEntry_index]
    split
    · exact source held
    · exact tracked.source other title held
  case lists =>
    intro other title set
    rw [setEntry_index]
    split
    case isTrue same =>
      obtain ⟨rfl, rfl⟩ := same
      exact lists set
    case isFalse => exact tracked.lists other title set

theorem Tracked.enter
    (own : ref.sourceNodeId = nodeId) (lists : Lists context nodeId ref.kernelId ref.name) :
    Tracked (context.enter nodeId ref) := by
  apply tracked.setEntry
  · rintro ⟨⟩
  · rintro held ⟨⟩
    exact ⟨_, rfl, Finset.mem_insert.mpr (.inl own)⟩
  · rintro set ⟨⟩ publisher mem
    rcases Finset.mem_insert.mp mem with rfl | earlier
    · exact lists
    cases indexed : context.publisherIndex ref.kernelId ref.name with
    | none => simp [indexed] at earlier
    | some publishers =>
      rw [indexed] at earlier
      exact tracked.lists _ _ _ indexed publisher earlier

/-- Publishing keeps the structures in step. -/
theorem Tracked.recordPublished {kernelId : String} {artifacts : List ArtifactItem} :
    Tracked (context.recordPublished nodeId kernelId artifacts) := by
  rw [ArtifactContext.recordPublished]
  have start : Tracked (context.modifyState nodeId id) :=
    tracked.modifyState fun _ _ mem => mem
  generalize context.modifyState nodeId id = context at start
  clear tracked
  induction artifacts generalizing context with
  | nil => exact start
  | cons item rest ih =>
    apply ih
    apply Tracked.enter _ rfl
    · exact ⟨_, modifyState_own context nodeId _, item.ref nodeId kernelId,
        mem_append_right _ (mem_singleton_self _), rfl, rfl⟩
    · exact start.modifyState fun state ref mem => mem_append_left _ mem

theorem Tracked.deleteName : Tracked (context.deleteName nodeId kernelId name) := by
  have removed : Tracked (context.setEntry kernelId name none none) :=
    tracked.setEntry (fun _ => rfl) (by rintro held ⟨⟩) (by rintro set ⟨⟩)
  exact removed.congr rfl rfl fun _ _ _ lists => lists

/-- Deleting keeps the structures in step. -/
theorem Tracked.recordDeleted {kernelId : String} {names : List String}
    : Tracked (context.recordDeleted nodeId kernelId names) := by
  rw [ArtifactContext.recordDeleted]
  have start : Tracked (context.modifyState nodeId fun state =>
      { state with deleted := state.deleted ++ names }) :=
    tracked.modifyState fun _ _ mem => mem
  generalize context.modifyState nodeId _ = context at start
  clear tracked
  induction names generalizing context with
  | nil => exact start
  | cons name rest ih =>
    exact ih (context.deleteName nodeId kernelId name) start.deleteName

theorem Tracked.clearKernel {kernelId : String} : Tracked (context.clearKernel kernelId) := by
  constructor
  case absent =>
    intro other name
    by_cases same : other = kernelId
    · simp [ArtifactContext.clearKernel, same]
    · simpa [ArtifactContext.clearKernel, same] using tracked.absent other name
  case source =>
    intro other name ref
    by_cases same : other = kernelId
    · simp [ArtifactContext.clearKernel, same]
    · simpa [ArtifactContext.clearKernel, same] using tracked.source other name ref
  case lists =>
    intro other name publishers indexed nodeId mem
    by_cases same : other = kernelId
    · simp [ArtifactContext.clearKernel, same] at indexed
    have before : context.publisherIndex other name = some publishers := by
      simpa [ArtifactContext.clearKernel, same] using indexed
    obtain ⟨state, found, listed⟩ := tracked.lists other name publishers before nodeId mem
    have kept := congrArg (Option.map fun state : NodeArtifactState =>
      { state with
        available := fun name =>
          (state.available name).filter fun ref => ref.kernelId ≠ kernelId }) found
    exact ⟨_, kept, listed⟩

end

/-- A state that is put back must hold references of its node only, and everything the index
still ascribes to the node. -/
def Restorable (context : ArtifactContext) (nodeId : Int) (state : NodeArtifactState) : Prop :=
  (∀ ref ∈ state.published, ref.sourceNodeId = nodeId) ∧
    ∀ kernelId name publishers, context.publisherIndex kernelId name = some publishers →
      nodeId ∈ publishers → ∃ ref ∈ state.published, ref.kernelId = kernelId ∧ ref.name = name

/-- Putting back such a state keeps the structures in step. -/
theorem Tracked.restoreNodeState {state : NodeArtifactState}
    (tracked : Tracked context) (restorable : Restorable context nodeId state) :
    Tracked (context.restoreNodeState nodeId state) := by
  obtain ⟨own, covered⟩ := restorable
  let replaced : ArtifactContext :=
    { context with nodeStates := update context.nodeStates nodeId (some state) }
  have found : replaced.nodeStates nodeId = some state := by simp [replaced]
  have start : Tracked replaced := by
    refine ⟨tracked.absent, tracked.source, fun kernelId name publishers indexed other mem => ?_⟩
    by_cases same : other = nodeId
    · subst same
      exact ⟨state, found, covered kernelId name publishers indexed mem⟩
    · obtain ⟨otherState, otherFound, listed⟩ :=
        tracked.lists kernelId name publishers indexed other mem
      exact ⟨otherState, by simpa [replaced, same] using otherFound, listed⟩
  have along : ∀ refs : List ArtifactRef, (∀ ref ∈ refs, ref ∈ state.published) →
      ∀ context : ArtifactContext, context.nodeStates nodeId = some state → Tracked context →
        Tracked (refs.foldl (fun context ref => context.enter nodeId ref) context) := by
    intro refs included
    induction refs with
    | nil => exact fun _ _ tracked => tracked
    | cons ref rest ih =>
      intro context found tracked
      have listed := included ref mem_cons_self
      exact ih (fun other mem => included other (mem_cons_of_mem _ mem))
        (context.enter nodeId ref) found
        (tracked.enter (own ref listed) ⟨state, found, ref, listed, rfl, rfl⟩)
  exact along state.published (fun _ mem => mem) replaced found start

/-- The context without some nodes: their states are gone, and so are the references they are
the source of and their places among the publishers. -/
def ArtifactContext.without (context : ArtifactContext) (gone : Finset Int) : ArtifactContext where
  nodeStates nodeId := if nodeId ∈ gone then none else context.nodeStates nodeId
  kernelArtifacts kernelId name := (context.kernelArtifacts kernelId name).filter fun ref =>
    ref.sourceNodeId ∉ gone
  publisherIndex kernelId name := ((context.publisherIndex kernelId name).map fun publishers =>
    publishers \ gone).filter fun publishers => publishers ≠ ∅
  deletionOrigins nodeId := if nodeId ∈ gone then [] else context.deletionOrigins nodeId

def Mentions (refs : List ArtifactRef) (kernelId name : String) : Prop :=
  ∃ ref ∈ refs, ref.kernelId = kernelId ∧ ref.name = name

instance (refs : List ArtifactRef) (kernelId name : String) :
    Decidable (Mentions refs kernelId name) :=
  inferInstanceAs (Decidable (∃ ref ∈ refs, ref.kernelId = kernelId ∧ ref.name = name))

theorem filter_source_twice (nodeId : Int) (entry : Option ArtifactRef) :
    (entry.filter fun ref => ref.sourceNodeId ≠ nodeId).filter
        (fun ref => ref.sourceNodeId ≠ nodeId) =
      entry.filter fun ref => ref.sourceNodeId ≠ nodeId := by
  rw [Option.filter_filter]
  simp only [Bool.and_self]

theorem erase_twice (nodeId : Int) (entry : Option (Finset Int)) :
    ((((entry.map fun publishers => publishers.erase nodeId).filter fun publishers =>
        publishers ≠ ∅).map fun publishers => publishers.erase nodeId).filter
          fun publishers => publishers ≠ ∅) =
      (entry.map fun publishers => publishers.erase nodeId).filter fun publishers =>
        publishers ≠ ∅ := by
  cases entry with
  | none => rfl
  | some publishers =>
    by_cases alone : publishers.erase nodeId = ∅
    · simp [Option.filter, alone]
    · simp [Option.filter, alone]

theorem withdraw_fold (nodeId : Int) (refs : List ArtifactRef) (context : ArtifactContext) :
    let cleared := refs.foldl (fun context ref => context.withdraw nodeId ref) context
    cleared.nodeStates = context.nodeStates ∧ cleared.deletionOrigins = context.deletionOrigins ∧
      ∀ kernelId name,
        cleared.kernelArtifacts kernelId name = (if Mentions refs kernelId name then
            (context.kernelArtifacts kernelId name).filter fun existing =>
              existing.sourceNodeId ≠ nodeId
          else context.kernelArtifacts kernelId name) ∧
        cleared.publisherIndex kernelId name = (if Mentions refs kernelId name then
            ((context.publisherIndex kernelId name).map fun publishers =>
              publishers.erase nodeId).filter fun publishers => publishers ≠ ∅
          else context.publisherIndex kernelId name) := by
  induction refs generalizing context with
  | nil => simp [Mentions]
  | cons ref rest ih =>
    obtain ⟨states, origins, entries⟩ := ih (context.withdraw nodeId ref)
    refine ⟨states, origins, fun kernelId name => ?_⟩
    obtain ⟨map, index⟩ := entries kernelId name
    have mentions : Mentions (ref :: rest) kernelId name ↔
        (ref.kernelId = kernelId ∧ ref.name = name) ∨ Mentions rest kernelId name := by
      simp [Mentions]
    rw [foldl_cons, map, index, ArtifactContext.withdraw, setEntry_map, setEntry_index]
    by_cases here : ref.kernelId = kernelId ∧ ref.name = name
    · rw [if_pos here, if_pos here, if_pos (mentions.mpr (.inl here)),
        if_pos (mentions.mpr (.inl here))]
      obtain ⟨rfl, rfl⟩ := here
      split
      · exact ⟨filter_source_twice nodeId _, erase_twice nodeId _⟩
      · exact ⟨rfl, rfl⟩
    · rw [if_neg here, if_neg here]
      by_cases later : Mentions rest kernelId name
      · rw [if_pos later, if_pos later, if_pos (mentions.mpr (.inr later)),
          if_pos (mentions.mpr (.inr later))]
        exact ⟨rfl, rfl⟩
      · have unmentioned : ¬ Mentions (ref :: rest) kernelId name := fun either =>
          (mentions.mp either).elim here later
        rw [if_neg later, if_neg later, if_neg unmentioned, if_neg unmentioned]
        exact ⟨rfl, rfl⟩

variable {gone : Finset Int}

theorem without_map_insert
    (unrelated : nodeId ∈ gone ∨ ∀ ref, context.kernelArtifacts kernelId name = some ref →
      ref.sourceNodeId ≠ nodeId) :
    (context.without (insert nodeId gone)).kernelArtifacts kernelId name =
      (context.without gone).kernelArtifacts kernelId name := by
  rcases unrelated with isGone | apart
  · rw [Finset.insert_eq_of_mem isGone]
  · simp only [ArtifactContext.without]
    cases held : context.kernelArtifacts kernelId name with
    | none => rfl
    | some ref => simp [Option.filter, apart ref held]

theorem without_index_insert
    (unrelated : nodeId ∈ gone ∨ ∀ publishers,
      context.publisherIndex kernelId name = some publishers → nodeId ∉ publishers) :
    (context.without (insert nodeId gone)).publisherIndex kernelId name =
      (context.without gone).publisherIndex kernelId name := by
  rcases unrelated with isGone | apart
  · rw [Finset.insert_eq_of_mem isGone]
  simp only [ArtifactContext.without]
  cases indexed : context.publisherIndex kernelId name with
  | none => rfl
  | some publishers =>
    have outside : nodeId ∉ publishers \ gone := fun mem =>
      apart publishers indexed (Finset.mem_sdiff.mp mem).1
    simp [Finset.sdiff_insert, Finset.erase_eq_of_notMem outside]

variable {publishers : Finset Int}

section

variable (tracked : Tracked context)
include tracked

theorem Tracked.mentions
    (indexed : context.publisherIndex kernelId name = some publishers) (mem : nodeId ∈ publishers) :
    ∃ state, context.nodeStates nodeId = some state ∧ Mentions state.published kernelId name :=
  tracked.lists kernelId name publishers indexed nodeId mem

theorem Tracked.source_mentions (held : context.kernelArtifacts kernelId name = some ref) :
    ∃ state, context.nodeStates ref.sourceNodeId = some state ∧
      Mentions state.published kernelId name := by
  obtain ⟨publishers, indexed, mem⟩ := tracked.source kernelId name ref held
  exact tracked.mentions indexed mem

theorem Tracked.clearNode_without (gone : Finset Int) (nodeId : Int) :
    (context.without gone).clearNode nodeId = context.without (insert nodeId gone) := by
  have origins : update (context.without gone).deletionOrigins nodeId [] =
      (context.without (insert nodeId gone)).deletionOrigins := by
    funext other
    by_cases same : other = nodeId <;> simp [ArtifactContext.without, same]
  rw [ArtifactContext.clearNode]
  dsimp only
  split
  case h_1 unknown =>
    have nowhere : nodeId ∈ gone ∨ context.nodeStates nodeId = none := by
      by_cases isGone : nodeId ∈ gone
      · exact .inl isGone
      · exact .inr (by simpa [ArtifactContext.without, isGone] using unknown)
    apply ArtifactContext.ext
    · funext other
      by_cases same : other = nodeId
      · rw [same]
        simpa [ArtifactContext.without] using unknown
      · simp [ArtifactContext.without, same]
    · funext kernelId name
      refine (without_map_insert (nowhere.imp_right fun none ref held same => ?_)).symm
      obtain ⟨state, found, _⟩ := tracked.source_mentions held
      rw [same, none] at found
      cases found
    · funext kernelId name
      refine (without_index_insert (nowhere.imp_right fun none publishers indexed mem => ?_)).symm
      obtain ⟨state, found, _⟩ := tracked.mentions indexed mem
      rw [none] at found
      cases found
    · exact origins
  case h_2 state known =>
    have notGone : nodeId ∉ gone := fun isGone => by
      simp [ArtifactContext.without, isGone] at known
    have found : context.nodeStates nodeId = some state := by
      simpa [ArtifactContext.without, notGone] using known
    obtain ⟨states, deletions, entries⟩ := withdraw_fold nodeId state.published
      { context.without gone with
        deletionOrigins := update (context.without gone).deletionOrigins nodeId []
        nodeStates := update (context.without gone).nodeStates nodeId none }
    apply ArtifactContext.ext
    · rw [states]
      funext other
      by_cases same : other = nodeId <;> simp [ArtifactContext.without, same]
    · funext kernelId name
      rw [(entries kernelId name).1]
      split
      case isTrue =>
        simp only [ArtifactContext.without, Option.filter_filter]
        congr 1
        funext ref
        simp [Finset.mem_insert, Bool.and_comm]
      case isFalse unmentioned =>
        refine (without_map_insert (.inr fun ref held same => ?_)).symm
        obtain ⟨other, otherFound, mentioned⟩ := tracked.source_mentions held
        rw [same, found] at otherFound
        exact unmentioned (Option.some.inj otherFound ▸ mentioned)
    · funext kernelId name
      rw [(entries kernelId name).2]
      split
      case isTrue =>
        simp only [ArtifactContext.without, Finset.sdiff_insert]
        cases context.publisherIndex kernelId name with
        | none => rfl
        | some publishers =>
          by_cases empty : publishers \ gone = ∅
          · simp [Option.filter, empty]
          · simp [Option.filter, empty]
      case isFalse unmentioned =>
        refine (without_index_insert (.inr fun publishers indexed mem => ?_)).symm
        obtain ⟨other, otherFound, mentioned⟩ := tracked.mentions indexed mem
        rw [found] at otherFound
        exact unmentioned (Option.some.inj otherFound ▸ mentioned)
    · exact deletions.trans origins

theorem Tracked.held (indexed : context.publisherIndex kernelId name = some publishers) :
    ∃ ref, context.kernelArtifacts kernelId name = some ref ∧ ref.sourceNodeId ∈ publishers := by
  cases held : context.kernelArtifacts kernelId name with
  | none =>
    rw [tracked.absent kernelId name held] at indexed
    cases indexed
  | some ref =>
    obtain ⟨others, otherIndexed, mem⟩ := tracked.source kernelId name ref held
    rw [indexed] at otherIndexed
    exact ⟨ref, rfl, Option.some.inj otherIndexed ▸ mem⟩

/-- Taking out no node changes nothing. -/
theorem Tracked.without_none : context.without ∅ = context := by
  apply ArtifactContext.ext
  · simp [ArtifactContext.without]
  · funext kernelId name
    simp only [ArtifactContext.without, Finset.notMem_empty, not_false_eq_true, decide_true]
    cases context.kernelArtifacts kernelId name <;> rfl
  · funext kernelId name
    simp only [ArtifactContext.without, Finset.sdiff_empty, Option.map_id']
    cases indexed : context.publisherIndex kernelId name with
    | none => rfl
    | some publishers =>
      obtain ⟨_, _, mem⟩ := tracked.held indexed
      have nonempty : publishers ≠ ∅ := Finset.ne_empty_of_mem mem
      simp [Option.filter, nonempty]
  · simp [ArtifactContext.without]

theorem Tracked.clearNodes_eq (nodeIds : List Int) :
    context.clearNodes nodeIds = context.without nodeIds.toFinset := by
  have along : ∀ (nodeIds : List Int) (gone : Finset Int),
      (context.without gone).clearNodes nodeIds = context.without (gone ∪ nodeIds.toFinset) := by
    intro nodeIds
    induction nodeIds with
    | nil => simp [ArtifactContext.clearNodes]
    | cons nodeId rest ih =>
      intro gone
      rw [ArtifactContext.clearNodes, foldl_cons, tracked.clearNode_without,
        ← ArtifactContext.clearNodes, ih]
      simp
  have whole := along nodeIds ∅
  rwa [tracked.without_none, Finset.empty_union] at whole

end

def Clearable (context : ArtifactContext) (nodeIds : List Int) : Prop :=
  ∀ kernelId name ref publishers, context.kernelArtifacts kernelId name = some ref →
    context.publisherIndex kernelId name = some publishers → ref.sourceNodeId ∈ nodeIds →
      ∀ publisher ∈ publishers, publisher ∈ nodeIds

/-- Taking out nodes that can be cleared. -/
theorem Tracked.without (tracked : Tracked context) {nodeIds : List Int}
    (clearable : Clearable context nodeIds) : Tracked (context.without nodeIds.toFinset) := by
  constructor
  case absent =>
    intro kernelId name missing
    cases indexed : context.publisherIndex kernelId name with
    | none => simp [ArtifactContext.without, indexed]
    | some publishers =>
    obtain ⟨ref, held, _⟩ := tracked.held indexed
    have cleared : ref.sourceNodeId ∈ nodeIds := by
      simpa [ArtifactContext.without, held, Option.filter] using missing
    have none : publishers \ nodeIds.toFinset = ∅ := by
      apply Finset.sdiff_eq_empty_iff_subset.mpr
      intro publisher mem
      exact mem_toFinset.mpr
        (clearable kernelId name ref publishers held indexed cleared publisher mem)
    simp [ArtifactContext.without, indexed, Option.filter, none]
  case source =>
    intro kernelId name ref held
    obtain ⟨before, stays⟩ := Option.filter_eq_some_iff.mp held
    obtain ⟨publishers, indexed, mem⟩ := tracked.source kernelId name ref before
    have left : ref.sourceNodeId ∈ publishers \ nodeIds.toFinset :=
      Finset.mem_sdiff.mpr ⟨mem, of_decide_eq_true stays⟩
    refine ⟨_, ?_, left⟩
    simp [ArtifactContext.without, indexed, Option.filter, Finset.ne_empty_of_mem left]
  case lists =>
    intro kernelId name publishers indexed nodeId mem
    obtain ⟨mapped, _⟩ := Option.filter_eq_some_iff.mp indexed
    obtain ⟨before, wasIndexed, rfl⟩ := Option.map_eq_some_iff.mp mapped
    obtain ⟨inBefore, stays⟩ := Finset.mem_sdiff.mp mem
    obtain ⟨state, found, listed⟩ := tracked.mentions wasIndexed inBefore
    exact ⟨state, (if_neg stays).trans found, listed⟩

/-- When a call keeps the structures in step: nodes can be cleared, or a state put back. All
other calls always do. -/
def KeepsInStep (context : ArtifactContext) : ContextCall → Prop
  | .clearNodes nodeIds => Clearable context nodeIds
  | .restoreNodeState nodeId state => Restorable context nodeId state
  | _ => True

theorem Tracked.perform (tracked : Tracked context) {call : ContextCall}
    (keeps : KeepsInStep context call) : Tracked (context.perform call) := by
  cases call with
  | recordPublished nodeId kernelId artifacts => exact tracked.recordPublished
  | recordConsumed nodeId names =>
    rw [ArtifactContext.perform, ArtifactContext.recordConsumed]
    exact tracked.modifyState fun _ _ mem => mem
  | recordDeleted nodeId kernelId names => exact tracked.recordDeleted
  | computeAvailable nodeId kernelId upstreamNodeIds =>
    rw [ArtifactContext.perform, ArtifactContext.computeAvailable]
    exact tracked.modifyState fun _ _ mem => mem
  | clearKernel kernelId => exact tracked.clearKernel
  | clearAll => exact tracked_empty
  | clearNodes nodeIds =>
    rw [ArtifactContext.perform, tracked.clearNodes_eq]
    exact tracked.without keeps
  | restoreNodeState nodeId state => exact tracked.restoreNodeState keeps

/-- Along every run of calls that keep them in step, the kernel map and the publisher index hold
the same names, and every reference comes from a publisher that lists the artifact. -/
theorem structures_in_step (calls : List ContextCall)
    (meets : EachStep ArtifactContext.perform KeepsInStep .empty calls) :
    ∀ state ∈ statesAlong ArtifactContext.perform .empty calls, InStep state := by
  intro state along
  exact (meets.invariant_along Tracked (fun _ _ tracked keeps => tracked.perform keeps)
    tracked_empty state along).inStep

theorem clearingBoth_in_step :
    InStep (((ArtifactContext.empty.perform (.recordPublished 1 "k" [.ofName "x"])).perform
      (.recordPublished 2 "k" [.ofName "x"])).perform (.clearNodes [2, 1])) := by
  refine structures_in_step [.recordPublished 1 "k" [.ofName "x"],
    .recordPublished 2 "k" [.ofName "x"], .clearNodes [2, 1]] ⟨trivial, trivial, ?_, trivial⟩ _
    (by simp [statesAlong])
  intro kernelId name ref publishers _ indexed _ publisher mem
  simp only [ArtifactContext.perform, ArtifactContext.recordPublished, foldl_cons,
    foldl_nil, ArtifactContext.enter, setEntry_index, modifyState_index] at indexed
  split at indexed
  · rw [← Option.some.inj indexed] at mem
    revert publisher mem
    decide +kernel
  · split at indexed
    · contradiction
    · cases indexed

/-- Two nodes publish the same name and the second one is cleared: the first one is a publisher
still, but the kernel holds nothing. -/
theorem clearingSecond_out_of_step :
    let final := ((ArtifactContext.empty.perform (.recordPublished 1 "k" [.ofName "x"])).perform
      (.recordPublished 2 "k" [.ofName "x"])).perform (.clearNodes [2])
    final ∈ statesAlong ArtifactContext.perform .empty
        [.recordPublished 1 "k" [.ofName "x"], .recordPublished 2 "k" [.ofName "x"],
          .clearNodes [2]] ∧
      final.publisherIndex "k" "x" = some {1} ∧ final.kernelArtifacts "k" "x" = none ∧
      ¬ InStep final := by
  intro final
  have indexed : final.publisherIndex "k" "x" = some {1} := by decide +kernel
  have missing : final.kernelArtifacts "k" "x" = none := by decide +kernel
  refine ⟨?_, indexed, missing, fun inStep => ?_⟩
  · exact mem_cons_of_mem _ (mem_cons_of_mem _ (mem_cons_of_mem _ mem_cons_self))
  · obtain ⟨ref, held⟩ := (inStep.present_iff "k" "x").mpr
      ⟨{1}, indexed, Finset.singleton_nonempty 1⟩
    rw [missing] at held
    cases held

end Flowfile.Artifacts
