import Flowfile.Artifacts
import Flowfile.ArtifactStore
import Mathlib.Data.List.Sort

/-!
# What a kernel reports of an execution

Before the code of a node runs on a kernel, what the node published earlier is removed. When the
code has run through, the kernel reports which names its store holds more or less than before; when
it failed or was interrupted, the kernel reports none. The flow keeps track of the artifacts on the
kernel by these reports alone.

The two agree after an execution that ran through exactly when it did not delete an artifact of
another node and publish one under the same name, and after one that failed exactly when it deleted
no artifact of another node and left none of its own behind.
-/

namespace Flowfile.KernelReports

open Function Library.Dictionaries Library.EventRuns ArtifactStore Artifacts List
open ArtifactItem (ofName)
open Dictionary (empty mem_entries_iff isSome_get_setAll get_empty get_keep get_set get_erase)

/-- A call of the code of a node. Calls that raise have no effect. -/
inductive Call (α : Type) where
  | publish (name : String) (object : α)
  | delete (name : String)

/-- How the code ended. -/
inductive Ending where
  | finished
  | raised (error : String)
  | interrupted
deriving DecidableEq

structure Execution (α : Type) where
  flowId : Int
  nodeId : Int
  upstreamNodeIds : List Int
  calls : List (Call α)
  ending : Ending

structure ExecuteResponse where
  success : Bool
  artifactsPublished : List String
  artifactsDeleted : List String
  error : Option String

variable {α : Type} (isWord : Char → Bool) (describe : α → Description)

def listAll (store : Store α) (flowId : Int) : Dictionary String Metadata :=
  let loaded := (empty : Dictionary String Metadata).setAll
    ((store.artifacts.keep fun key _ => key.1 = flowId).entries.map fun entry =>
      (entry.2.metadata.name, entry.2.metadata))
  loaded.setAll (((store.lazyIndex.keep fun key _ => key.1 = flowId).entries.map fun entry =>
    (entry.2.name, entry.2)).filter fun entry => (loaded.get entry.1).isNone)

def call (nodeId flowId : Int) (store : Store α) : Call α → Store α
  | .publish name object => (publish isWord describe store name object nodeId flowId).2
  | .delete name => (delete isWord store name flowId).2

/-- Run the code of a node. -/
def executeSync (store : Store α) (execution : Execution α) : ExecuteResponse × Store α :=
  let cleared := (clearByNodeIds isWord store [execution.nodeId] (some execution.flowId)).2
  let before := (listAll cleared execution.flowId).entries.map Prod.fst
  let store := execution.calls.foldl
    (call isWord describe execution.nodeId execution.flowId) cleared
  match execution.ending with
  | .finished =>
    let after := (listAll store execution.flowId).entries.map Prod.fst
    (⟨true, (after.filter fun name => name ∉ before).insertionSort (· ≤ ·),
      (before.filter fun name => name ∉ after).insertionSort (· ≤ ·), none⟩, store)
  | .raised error => (⟨false, [], [], some error⟩, store)
  | .interrupted => (⟨false, [], [], some "Execution cancelled by user"⟩, store)

def executeOnKernel (kernelId : String) (context : ArtifactContext) (execution : Execution α)
    (response : ExecuteResponse) : ArtifactContext :=
  let context := (context.clearNodes [execution.nodeId]).computeAvailable execution.nodeId kernelId
    execution.upstreamNodeIds
  if response.success then
    let context :=
      if response.artifactsPublished.isEmpty then context
      else context.recordPublished execution.nodeId kernelId
        (response.artifactsPublished.map ofName)
    if response.artifactsDeleted.isEmpty then context
    else context.recordDeleted execution.nodeId kernelId response.artifactsDeleted
  else context

/-- A kernel, and the flows that use it. -/
structure World (α : Type) where
  store : Store α
  contexts : Int → ArtifactContext

def World.initial : World α := ⟨.initial, fun _ => .empty⟩

variable (kernelId : String)

def World.step (world : World α) (execution : Execution α) : World α :=
  let outcome := executeSync isWord describe world.store execution
  ⟨outcome.2, update world.contexts execution.flowId
    (executeOnKernel kernelId (world.contexts execution.flowId) execution outcome.1)⟩

def publisher (store : Store α) (key : Key) : Option Int :=
  ((store.artifacts.get key).map fun artifact => artifact.metadata.nodeId).or
    ((store.lazyIndex.get key).map Metadata.nodeId)

def World.Agrees (world : World α) : Prop :=
  ∀ flowId name, ((world.contexts flowId).kernelArtifacts kernelId name).map
    ArtifactRef.sourceNodeId = publisher world.store (flowId, name)

def deletes (calls : List (Call α)) (name : String) : Bool :=
  calls.any fun call =>
    match call with
    | .publish _ _ => false
    | .delete other => other = name

def endsPublished (calls : List (Call α)) (name : String) : Bool :=
  calls.foldl (fun published call =>
    match call with
    | .publish other _ => published || other = name
    | .delete other => published && other ≠ name) false

def Call.holder (nodeId flowId : Int) (key : Key) (held : Option Int) : Call α → Option Int
  | .publish name _ => if key = (flowId, name) then some (held.getD nodeId) else held
  | .delete name => if key = (flowId, name) then none else held

def World.Foreign (world : World α) (execution : Execution α) (name : String) : Prop :=
  ∃ other, publisher world.store (execution.flowId, name) = some other ∧ other ≠ execution.nodeId

/-- An execution that ran through published nothing under a name of another node that it had
deleted; one that did not deleted no name of another node, and left nothing published. -/
def World.Reported (world : World α) (execution : Execution α) : Prop :=
  ∀ name,
    (world.Foreign execution name → deletes execution.calls name = true →
      execution.ending = .finished ∧ endsPublished execution.calls name = false) ∧
    (¬world.Foreign execution name → endsPublished execution.calls name = true →
      execution.ending = .finished)

/-- A kernel that was not restarted: nothing is indexed, and names are as published. -/
structure Plain (store : Store α) : Prop where
  unindexed : ∀ key, store.lazyIndex.get key = none
  named : ∀ key artifact, store.artifacts.get key = some artifact → artifact.metadata.name = key.2

section

variable {isWord describe} {store : Store α}

theorem Plain.publisher_eq (plain : Plain store) (key : Key) : publisher store key =
      (store.artifacts.get key).map fun artifact => artifact.metadata.nodeId := by
  rw [publisher, plain.unindexed, Option.map_none, Option.or_none]

theorem Plain.mem_listAll (plain : Plain store) (flowId : Int) (name : String) :
    name ∈ (listAll store flowId).entries.map Prod.fst ↔
      (publisher store (flowId, name)).isSome := by
  have nothing : (store.lazyIndex.keep fun key _ => key.1 = flowId).entries = [] := by
    rw [eq_nil_iff_forall_not_mem]
    rintro ⟨key, metadata⟩ mem
    have found := mem_entries_iff.mp mem
    simp [plain.unindexed] at found
  rw [listAll, nothing, Dictionary.mem_keys_iff, isSome_get_setAll,
    isSome_get_setAll, plain.publisher_eq, Option.isSome_map]
  simp only [get_empty, Option.isSome_none, Bool.false_eq_true, false_or, map_nil,
    filter_nil, not_mem_nil, or_false]
  constructor
  · intro listed
    obtain ⟨⟨_, metadata⟩, mem, rfl⟩ := mem_map.mp listed
    obtain ⟨⟨key, artifact⟩, kept, same⟩ := mem_map.mp mem
    have found := mem_entries_iff.mp kept
    rw [get_keep] at found
    obtain ⟨held, flow⟩ := Option.filter_eq_some_iff.mp found
    have here : key = (flowId, artifact.metadata.name) :=
      Prod.ext (by simpa using flow) (plain.named key artifact held).symm
    rw [← (Prod.mk.inj same).1, ← here, held]
    rfl
  · intro present
    obtain ⟨artifact, held⟩ := Option.isSome_iff_exists.mp present
    have kept : ((flowId, name), artifact) ∈
        (store.artifacts.keep fun key _ => key.1 = flowId).entries := by
      rw [mem_entries_iff, get_keep, held]
      simp [Option.filter]
    refine mem_map.mpr ⟨(name, artifact.metadata), mem_map.mpr ⟨_, kept, ?_⟩, rfl⟩
    rw [plain.named _ _ held]

variable (isWord describe) in
theorem Plain.call (plain : Plain store) (nodeId flowId : Int) (made : Call α) :
    Plain (call isWord describe nodeId flowId store made) ∧
      ∀ key, publisher (KernelReports.call isWord describe nodeId flowId store made) key =
        made.holder nodeId flowId key (publisher store key) := by
  cases made with
  | publish name object =>
    cases held : store.artifacts.get (flowId, name) with
    | some artifact =>
      have same : KernelReports.call isWord describe nodeId flowId store (.publish name object) =
          store := by
        simp [KernelReports.call, publish, held]
      rw [same]
      refine ⟨plain, fun key => ?_⟩
      rw [Call.holder]
      split
      case isTrue here =>
        subst here
        simp [plain.publisher_eq, held]
      case isFalse => rfl
    | none =>
      have next : Plain (KernelReports.call isWord describe nodeId flowId store
          (.publish name object)) := by
        simp only [KernelReports.call, publish, held]
        refine ⟨fun key => by simp [plain.unindexed], fun key artifact found => ?_⟩
        rw [get_set] at found
        split at found
        case isTrue here =>
          cases found
          rw [here]
        case isFalse => exact plain.named key artifact found
      refine ⟨next, fun key => ?_⟩
      rw [next.publisher_eq, plain.publisher_eq, Call.holder]
      by_cases here : key = (flowId, name)
      · subst here
        simp [KernelReports.call, publish, held]
      · simp [KernelReports.call, publish, held, here]
  | delete name =>
    cases held : store.artifacts.get (flowId, name) with
    | none =>
      have same : KernelReports.call isWord describe nodeId flowId store (.delete name) =
          store := by
        simp [KernelReports.call, delete, held, plain.unindexed]
      rw [same]
      refine ⟨plain, fun key => ?_⟩
      rw [Call.holder]
      split
      case isTrue here =>
        subst here
        simp [plain.publisher_eq, held]
      case isFalse => rfl
    | some artifact =>
      have next : Plain (KernelReports.call isWord describe nodeId flowId store
          (.delete name)) := by
        simp only [KernelReports.call, delete, held, Option.isNone_some, Bool.false_and]
        refine ⟨fun key => by simp [plain.unindexed], fun key artifact found => ?_⟩
        simp only [Bool.false_eq_true, if_false, get_erase] at found
        split at found
        case isTrue => cases found
        case isFalse => exact plain.named key artifact found
      refine ⟨next, fun key => ?_⟩
      rw [next.publisher_eq, plain.publisher_eq, Call.holder]
      by_cases here : key = (flowId, name)
      · subst here
        simp [KernelReports.call, delete, held]
      · simp [KernelReports.call, delete, held, here]

variable (isWord describe) in
theorem Plain.calls (plain : Plain store) (nodeId flowId : Int) (calls : List (Call α)) :
    Plain (calls.foldl (KernelReports.call isWord describe nodeId flowId) store) ∧
      ∀ key, publisher (calls.foldl (KernelReports.call isWord describe nodeId flowId) store) key =
        calls.foldl (Call.holder nodeId flowId key) (publisher store key) := by
  induction calls generalizing store with
  | nil => exact ⟨plain, fun _ => rfl⟩
  | cons made rest ih =>
    obtain ⟨next, holders⟩ := plain.call isWord describe nodeId flowId made
    obtain ⟨final, later⟩ := ih next
    exact ⟨final, fun key => (later key).trans (by rw [holders key, foldl_cons])⟩

/-- Who holds a name after some calls: their node if the last call on it publishes it and it was
free at some time, nobody if it was deleted or free, and else who held it. -/
theorem foldl_holder (nodeId flowId : Int) (calls : List (Call α)) (name : String)
    (held : Option Int) :
    calls.foldl (Call.holder nodeId flowId (flowId, name)) held =
      if deletes calls name || held.isNone then
        if endsPublished calls name then some nodeId else none
      else held := by
  induction calls using List.reverseRecOn with
  | nil => cases held <;> simp [deletes, endsPublished]
  | append_singleton calls last ih =>
    rw [foldl_append, foldl_cons, foldl_nil, ih]
    clear ih
    cases last with
    | publish other object =>
      have deleted : deletes (calls ++ [.publish other object]) name = deletes calls name := by
        simp [deletes]
      have ends : endsPublished (calls ++ [.publish other object]) name =
          (endsPublished calls name || other = name) := by
        simp [endsPublished]
      rw [deleted, ends, Call.holder]
      generalize deletes calls name = gone
      generalize endsPublished calls name = published
      by_cases here : other = name
      · cases held <;> cases gone <;> cases published <;> simp [here]
      · have apart : (flowId, name) ≠ (flowId, other) := by simp [Ne.symm here]
        simp [apart, here]
    | delete other =>
      have deleted : deletes (calls ++ [.delete other]) name =
          (deletes calls name || other = name) := by
        simp [deletes]
      have ends : endsPublished (calls ++ [.delete other]) name =
          (endsPublished calls name && other ≠ name) := by
        simp [endsPublished]
      rw [deleted, ends, Call.holder]
      by_cases here : other = name
      · simp [here]
      · have apart : (flowId, name) ≠ (flowId, other) := by simp [Ne.symm here]
        simp [apart, here]

theorem foldl_holder_other {nodeId flowId : Int} {key : Key} (other : key.1 ≠ flowId)
    (calls : List (Call α)) (held : Option Int) :
    calls.foldl (Call.holder nodeId flowId key) held = held := by
  induction calls generalizing held with
  | nil => rfl
  | cons made rest ih =>
    have apart (name : String) : key ≠ (flowId, name) := by
      rintro rfl
      exact other rfl
    rw [foldl_cons, ih]
    cases made with
    | publish name object => rw [Call.holder, if_neg (apart name)]
    | delete name => rw [Call.holder, if_neg (apart name)]

variable (isWord) in
/-- Before a node is executed, its artifacts are removed. -/
theorem Plain.clear (plain : Plain store) (nodeId flowId : Int) :
    Plain (clearByNodeIds isWord store [nodeId] (some flowId)).2 ∧
      ∀ key, publisher (clearByNodeIds isWord store [nodeId] (some flowId)).2 key =
        if key.1 = flowId then (publisher store key).filter fun holder => holder ≠ nodeId
        else publisher store key := by
  have next : Plain (clearByNodeIds isWord store [nodeId] (some flowId)).2 := by
    refine ⟨fun key => by simp [clearByNodeIds, plain.unindexed], fun key artifact found => ?_⟩
    simp only [clearByNodeIds, get_keep] at found
    exact plain.named key artifact (Option.filter_eq_some_iff.mp found).1
  refine ⟨next, fun key => ?_⟩
  rw [next.publisher_eq, plain.publisher_eq, clearByNodeIds, get_keep]
  cases store.artifacts.get key with
  | none => simp
  | some artifact =>
    by_cases flow : key.1 = flowId <;> by_cases own : artifact.metadata.nodeId = nodeId <;>
      simp [flow, own, ofFlow, Option.filter]

end

/-- Every reference that a flow knows is listed by the node that is its source. -/
def Sourced (context : ArtifactContext) : Prop :=
  ∀ kernelId name ref, context.kernelArtifacts kernelId name = some ref →
    Lists context ref.sourceNodeId kernelId name

def knownPublisher (context : ArtifactContext) (kernelId name : String) : Option Int :=
  (context.kernelArtifacts kernelId name).map ArtifactRef.sourceNodeId

section

variable {context : ArtifactContext} {nodeId : Int} {kernelId : String}

theorem sourced_empty : Sourced .empty := by
  rintro kernelId name ref ⟨⟩

theorem Sourced.modifyState {change : NodeArtifactState → NodeArtifactState}
    (sourced : Sourced context)
    (grows : ∀ state ref, ref ∈ state.published → ref ∈ (change state).published) :
    Sourced (context.modifyState nodeId change) :=
  fun kernelId name ref known => (sourced kernelId name ref known).modifyState grows

theorem Sourced.clearNode (sourced : Sourced context) (nodeId : Int) :
    Sourced (context.clearNode nodeId) ∧ ∀ kernelId name,
      knownPublisher (context.clearNode nodeId) kernelId name =
        (knownPublisher context kernelId name).filter fun source => source ≠ nodeId := by
  obtain ⟨kept, others⟩ : (∀ kernelId name,
      (context.clearNode nodeId).kernelArtifacts kernelId name =
        (context.kernelArtifacts kernelId name).filter fun ref => ref.sourceNodeId ≠ nodeId) ∧
      ∀ other, other ≠ nodeId → (context.clearNode nodeId).nodeStates other =
        context.nodeStates other := by
    rw [ArtifactContext.clearNode]
    dsimp only
    cases known : context.nodeStates nodeId with
    | none =>
      refine ⟨fun kernelId name => ?_, fun _ _ => rfl⟩
      cases held : context.kernelArtifacts kernelId name with
      | none => rfl
      | some ref =>
      obtain ⟨state, found, -⟩ := sourced kernelId name ref held
      have apart : ref.sourceNodeId ≠ nodeId := by
        rintro rfl
        rw [known] at found
        cases found
      simp [apart, Option.filter]
    | some state =>
      obtain ⟨states, -, entries⟩ := withdraw_fold nodeId state.published
        { context with
          deletionOrigins := update context.deletionOrigins nodeId []
          nodeStates := update context.nodeStates nodeId none }
      refine ⟨fun kernelId name => ?_, fun other apart => ?_⟩
      · refine (entries kernelId name).1.trans ?_
        split
        case isTrue => rfl
        case isFalse unmentioned =>
          cases held : context.kernelArtifacts kernelId name with
          | none => rfl
          | some ref =>
          have apart : ref.sourceNodeId ≠ nodeId := by
            intro same
            obtain ⟨own, found, mentioned⟩ := sourced kernelId name ref held
            rw [same, known] at found
            cases found
            exact unmentioned mentioned
          simp [apart, Option.filter]
      · exact (congrFun states other).trans (update_of_ne apart _ _)
  constructor
  · intro kernelId name ref known
    rw [kept] at known
    obtain ⟨before, apart⟩ := Option.filter_eq_some_iff.mp known
    obtain ⟨state, found, listed⟩ := sourced kernelId name ref before
    exact ⟨state, (others _ (by simpa using apart)).trans found, listed⟩
  · intro kernelId name
    rw [knownPublisher, knownPublisher, kept]
    cases context.kernelArtifacts kernelId name with
    | none => rfl
    | some ref => by_cases own : ref.sourceNodeId = nodeId <;> simp [own, Option.filter]

variable (nodeId) in
theorem Sourced.recordPublished (sourced : Sourced context) (names : List String) :
    Sourced (context.recordPublished nodeId kernelId (names.map ofName)) ∧ ∀ name, knownPublisher
          (context.recordPublished nodeId kernelId (names.map ofName)) kernelId name =
        if name ∈ names then some nodeId else knownPublisher context kernelId name := by
  rw [ArtifactContext.recordPublished]
  have start : Sourced (context.modifyState nodeId id) :=
    sourced.modifyState fun _ _ mem => mem
  have same (name : String) : knownPublisher context kernelId name =
    knownPublisher (context.modifyState nodeId id) kernelId name := rfl
  simp only [same]
  generalize context.modifyState nodeId id = context at start
  clear same sourced
  induction names generalizing context with
  | nil => exact ⟨start, fun name => by simp⟩
  | cons first rest ih =>
    let ref := (ofName first).ref nodeId kernelId
    let listed := context.modifyState nodeId fun state =>
      { state with published := state.published ++ [ref] }
    have entered (other title : String) : (listed.enter nodeId ref).kernelArtifacts other title =
        if kernelId = other ∧ first = title then some ref
        else context.kernelArtifacts other title := setEntry_map _ _ _ _ _ _ _
    have lists : Sourced listed :=
      start.modifyState fun _ _ mem => mem_append_left _ mem
    have next : Sourced (listed.enter nodeId ref) := by
      intro other title held known
      rw [entered] at known
      split at known
      case isTrue here =>
        cases known
        obtain ⟨rfl, rfl⟩ := here
        have own := modifyState_own context nodeId fun state =>
          { state with published := state.published ++ [ref] }
        exact ⟨_, own, ref, mem_append_right _ (mem_singleton_self _), rfl, rfl⟩
      case isFalse => exact lists other title held known
    obtain ⟨final, sources⟩ := ih _ next
    refine ⟨final, fun name => (sources name).trans ?_⟩
    rw [knownPublisher, entered]
    by_cases later : name ∈ rest
    · simp [later]
    · by_cases here : first = name
      · simp [here, later, ref, ArtifactItem.ref]
      · simp [here, later, Ne.symm here, knownPublisher]

variable (nodeId) in
theorem Sourced.recordDeleted (sourced : Sourced context) (names : List String) :
    Sourced (context.recordDeleted nodeId kernelId names) ∧
      ∀ name, knownPublisher (context.recordDeleted nodeId kernelId names) kernelId name =
        if name ∈ names then none else knownPublisher context kernelId name := by
  rw [ArtifactContext.recordDeleted]
  have start : Sourced (context.modifyState nodeId fun state =>
      { state with deleted := state.deleted ++ names }) :=
    sourced.modifyState fun _ _ mem => mem
  have same (name : String) : knownPublisher context kernelId name =
    knownPublisher (context.modifyState nodeId fun state =>
      { state with deleted := state.deleted ++ names }) kernelId name := rfl
  simp only [same]
  generalize context.modifyState nodeId _ = context at start
  clear same sourced
  induction names generalizing context with
  | nil => exact ⟨start, fun name => by simp⟩
  | cons first rest ih =>
    have removed (other title : String) :
        (context.deleteName nodeId kernelId first).kernelArtifacts other title =
          if kernelId = other ∧ first = title then none
          else context.kernelArtifacts other title := setEntry_map _ _ _ _ _ _ none
    have next : Sourced (context.deleteName nodeId kernelId first) := by
      intro other title held known
      rw [removed] at known
      split at known
      case isTrue => cases known
      case isFalse => exact start other title held known
    obtain ⟨final, sources⟩ := ih _ next
    refine ⟨final, fun name => (sources name).trans ?_⟩
    rw [knownPublisher, removed]
    by_cases later : name ∈ rest
    · simp [later]
    · by_cases here : first = name
      · simp [here]
      · simp [here, later, Ne.symm here, knownPublisher]

variable (kernelId) in
theorem Sourced.executeOnKernel {α : Type} (sourced : Sourced context) (execution : Execution α)
    (response : ExecuteResponse) (failed : response.success = false →
      response.artifactsPublished = [] ∧ response.artifactsDeleted = []) :
    Sourced (executeOnKernel kernelId context execution response) ∧ ∀ name,
      knownPublisher (KernelReports.executeOnKernel kernelId context execution response) kernelId
          name =
        if name ∈ response.artifactsDeleted then none
        else if name ∈ response.artifactsPublished then some execution.nodeId
        else (knownPublisher context kernelId name).filter
          fun source => source ≠ execution.nodeId := by
  obtain ⟨cleared, sources⟩ := sourced.clearNode execution.nodeId
  rw [KernelReports.executeOnKernel, ArtifactContext.clearNodes, foldl_cons, foldl_nil]
  have ready : Sourced ((context.clearNode execution.nodeId).computeAvailable execution.nodeId
      kernelId execution.upstreamNodeIds) := cleared.modifyState fun _ _ mem => mem
  have known (name : String) : knownPublisher ((context.clearNode execution.nodeId).computeAvailable
      execution.nodeId kernelId execution.upstreamNodeIds) kernelId name =
        (knownPublisher context kernelId name).filter fun source => source ≠ execution.nodeId :=
    sources kernelId name
  generalize (context.clearNode execution.nodeId).computeAvailable execution.nodeId kernelId
    execution.upstreamNodeIds = context at ready known
  dsimp only
  split
  case isFalse failure =>
    obtain ⟨published, deleted⟩ := failed (by simpa using failure)
    refine ⟨ready, fun name => ?_⟩
    simp [published, deleted, known]
  case isTrue =>
    have entered : Sourced (if response.artifactsPublished.isEmpty = true then context
        else context.recordPublished execution.nodeId kernelId
          (response.artifactsPublished.map ofName)) ∧
        ∀ name, knownPublisher (if response.artifactsPublished.isEmpty = true then context
          else context.recordPublished execution.nodeId kernelId
            (response.artifactsPublished.map ofName)) kernelId name =
          if name ∈ response.artifactsPublished then some execution.nodeId
          else knownPublisher context kernelId name := by
      split
      case isTrue nothing =>
        rw [List.isEmpty_iff] at nothing
        exact ⟨ready, fun name => by simp [nothing]⟩
      case isFalse => exact ready.recordPublished execution.nodeId _
    generalize (if response.artifactsPublished.isEmpty = true then context
      else context.recordPublished execution.nodeId kernelId
        (response.artifactsPublished.map ofName)) = published at entered
    obtain ⟨sourcedEntered, knownEntered⟩ := entered
    split
    case isTrue nothing =>
      rw [List.isEmpty_iff] at nothing
      exact ⟨sourcedEntered, fun name => by simp [nothing, knownEntered, known]⟩
    case isFalse =>
      obtain ⟨final, sources⟩ := sourcedEntered.recordDeleted execution.nodeId
        response.artifactsDeleted
      exact ⟨final, fun name => by rw [sources, knownEntered, known]⟩

end

section

variable {isWord describe} {store : Store α}

/-- Who holds a name when the code of a node starts: its own artifacts are gone. -/
def holderBefore (store : Store α) (execution : Execution α) (name : String) : Option Int :=
  (publisher store (execution.flowId, name)).filter fun holder => holder ≠ execution.nodeId

def holderAfter (store : Store α) (execution : Execution α) (name : String) : Option Int :=
  if deletes execution.calls name || (holderBefore store execution name).isNone then
    if endsPublished execution.calls name then some execution.nodeId else none
  else holderBefore store execution name

variable (isWord describe) in
theorem Plain.executeSync (plain : Plain store) (execution : Execution α) :
    Plain (executeSync isWord describe store execution).2 ∧ (∀ key, key.1 ≠ execution.flowId →
        publisher (KernelReports.executeSync isWord describe store execution).2 key =
          publisher store key) ∧
      ∀ name, publisher (KernelReports.executeSync isWord describe store execution).2
        (execution.flowId, name) = holderAfter store execution name := by
  have left : (KernelReports.executeSync isWord describe store execution).2 =
      execution.calls.foldl (KernelReports.call isWord describe execution.nodeId execution.flowId)
        (clearByNodeIds isWord store [execution.nodeId] (some execution.flowId)).2 := by
    rw [KernelReports.executeSync]
    cases execution.ending <;> rfl
  obtain ⟨cleared, holders⟩ := plain.clear isWord execution.nodeId execution.flowId
  obtain ⟨final, later⟩ := cleared.calls isWord describe execution.nodeId execution.flowId
    execution.calls
  rw [left]
  refine ⟨final, fun key other => ?_, fun name => ?_⟩
  · rw [later, foldl_holder_other other, holders, if_neg other]
  · rw [later, holders, if_pos rfl, foldl_holder]
    rfl

variable (isWord describe) in
theorem Plain.report (plain : Plain store) (execution : Execution α) :
    ((KernelReports.executeSync isWord describe store execution).1.success = true ↔
        execution.ending = .finished) ∧
      ∀ name,
        (name ∈ (KernelReports.executeSync isWord describe store execution).1.artifactsPublished ↔
          execution.ending = .finished ∧ (holderBefore store execution name).isNone ∧
            (holderAfter store execution name).isSome) ∧
        (name ∈ (KernelReports.executeSync isWord describe store execution).1.artifactsDeleted ↔
          execution.ending = .finished ∧ (holderBefore store execution name).isSome ∧
            (holderAfter store execution name).isNone) := by
  obtain ⟨cleared, holders⟩ := plain.clear isWord execution.nodeId execution.flowId
  obtain ⟨final, -, after⟩ := plain.executeSync isWord describe execution
  have before (name : String) := cleared.mem_listAll execution.flowId name
  have later (name : String) := final.mem_listAll execution.flowId name
  simp only [after] at later
  simp only [holders, if_pos] at before
  rw [KernelReports.executeSync] at later ⊢
  cases ended : execution.ending with
  | finished =>
    simp only [ended] at later
    refine ⟨by simp, fun name => ⟨?_, ?_⟩⟩
    · simp only [mem_insertionSort, mem_filter, decide_eq_true_eq, later, before,
        true_and, Option.not_isSome_iff_eq_none, Option.isNone_iff_eq_none]
      exact and_comm
    · simp only [mem_insertionSort, mem_filter, decide_eq_true_eq, later, before,
        true_and, Option.not_isSome_iff_eq_none, Option.isNone_iff_eq_none]
      rfl
  | raised error => simp
  | interrupted => simp

theorem holderBefore_isSome (world : World α) (execution : Execution α) (name : String) :
    (holderBefore world.store execution name).isSome ↔ world.Foreign execution name := by
  rw [holderBefore, World.Foreign, Option.isSome_iff_exists]
  simp only [Option.filter_eq_some_iff, decide_eq_true_eq]

end

section

variable {isWord describe kernelId} {world : World α}

/-- What holds whatever is executed: the kernel was not restarted, and what the flows know is listed
by its sources. -/
structure World.Tidy (world : World α) : Prop where
  plain : Plain world.store
  sourced : ∀ flowId, Sourced (world.contexts flowId)

theorem tidy_initial : (World.initial : World α).Tidy where
  plain := ⟨fun _ => rfl, by rintro key artifact ⟨⟩⟩
  sourced _ := sourced_empty

variable (isWord describe) in
theorem report_failed {store : Store α} (plain : Plain store) (execution : Execution α)
    (failed : (executeSync isWord describe store execution).1.success = false) :
    (executeSync isWord describe store execution).1.artifactsPublished = [] ∧
      (executeSync isWord describe store execution).1.artifactsDeleted = [] := by
  obtain ⟨success, names⟩ := plain.report isWord describe execution
  have unfinished : execution.ending ≠ .finished := fun finished => by
    simp [success.mpr finished] at failed
  constructor
  · exact eq_nil_iff_forall_not_mem.mpr fun name mem =>
      unfinished ((names name).1.mp mem).1
  · exact eq_nil_iff_forall_not_mem.mpr fun name mem =>
      unfinished ((names name).2.mp mem).1

variable (isWord describe kernelId) in
theorem World.Tidy.step (tidy : world.Tidy) (execution : Execution α) :
    (world.step isWord describe kernelId execution).Tidy where
  plain := (tidy.plain.executeSync isWord describe execution).1
  sourced flowId := by
    rw [World.step]
    dsimp only
    by_cases here : flowId = execution.flowId
    · subst here
      rw [update_self]
      exact ((tidy.sourced _).executeOnKernel kernelId execution _
        (report_failed isWord describe tidy.plain execution)).1
    · rw [update_of_ne here]
      exact tidy.sourced flowId

variable (isWord describe kernelId) in
theorem agrees_step_iff (tidy : world.Tidy) (agrees : world.Agrees kernelId)
    (execution : Execution α) :
    (world.step isWord describe kernelId execution).Agrees kernelId ↔ world.Reported execution := by
  obtain ⟨-, others, after⟩ := tidy.plain.executeSync isWord describe execution
  obtain ⟨-, names⟩ := tidy.plain.report isWord describe execution
  obtain ⟨-, known⟩ := (tidy.sourced execution.flowId).executeOnKernel kernelId execution _
    (report_failed isWord describe tidy.plain execution)
  have here : (world.step isWord describe kernelId execution).Agrees kernelId ↔
      ∀ name, knownPublisher ((world.step isWord describe kernelId execution).contexts
        execution.flowId) kernelId name = holderAfter world.store execution name := by
    constructor
    · exact fun agreed name => (agreed execution.flowId name).trans (after name)
    · intro agreed flowId name
      by_cases own : flowId = execution.flowId
      · subst own
        exact (agreed name).trans (after name).symm
      refine Eq.trans ?_ (others (flowId, name) own).symm
      rw [World.step]
      dsimp only
      rw [update_of_ne own]
      exact agrees flowId name
  rw [here]
  apply forall_congr'
  intro name
  have before : (knownPublisher (world.contexts execution.flowId) kernelId name).filter
      (fun source => source ≠ execution.nodeId) = holderBefore world.store execution name := by
    rw [knownPublisher, agrees, holderBefore]
  rw [World.step]
  dsimp only
  rw [update_self, known, before]
  simp only [(names name).1, (names name).2]
  rw [holderAfter, ← holderBefore_isSome]
  cases held : holderBefore world.store execution name with
  | none =>
    cases endsPublished execution.calls name <;>
      by_cases finished : execution.ending = .finished <;> simp [finished]
  | some other =>
  have apart : other ≠ execution.nodeId := by
    simpa using (Option.filter_eq_some_iff.mp held).2
  cases deletes execution.calls name <;> cases endsPublished execution.calls name <;>
    by_cases finished : execution.ending = .finished <;> simp [finished, apart]

end

/-- Flows and kernel agree all along a run exactly when every execution meets the condition. -/
theorem agrees_along_iff (executions : List (Execution α)) :
    (∀ world ∈ statesAlong (World.step isWord describe kernelId) .initial executions,
        world.Agrees kernelId) ↔
      EachStep (World.step isWord describe kernelId) World.Reported .initial executions := by
  have tidy := invariant_along (World.step isWord describe kernelId) World.Tidy
    (fun _ execution tidy => tidy.step isWord describe kernelId execution) .initial tidy_initial
    executions
  rw [← good_along_iff (World.step isWord describe kernelId)
    (fun world => world.Tidy ∧ world.Agrees kernelId) World.Reported
    (fun world execution good => by
      rw [← agrees_step_iff isWord describe kernelId good.1 good.2 execution]
      exact and_iff_right (good.1.step isWord describe kernelId execution))
    .initial ⟨tidy_initial, fun _ _ => rfl⟩ executions]
  exact forall₂_congr fun world reached => (and_iff_right (tidy world reached)).symm

theorem failedScript_disagrees :
    ¬∀ world ∈ statesAlong (World.step latinWord describeNumber "kernel") .initial
        [⟨0, 1, [], [.publish "model" 1], .raised "ValueError: no data"⟩],
      world.Agrees "kernel" := by
  intro agrees
  have last := agrees _ (mem_of_getLast? rfl) 0 "model"
  revert last
  decide

end Flowfile.KernelReports
