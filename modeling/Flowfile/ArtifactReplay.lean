import Flowfile.Artifacts
import Flowfile.HashCache
import Flowfile.Library.KeyedReplay
import Mathlib.Algebra.GroupWithZero.Nat

/-!
# Which artifacts reach a node

What nodes publish and delete on a kernel is a sequence of events, node by node. An artifact is
alive for a node when replaying the events of its transitive upstream nodes on that kernel, in a
topological order, leaves it under its name.

The context keeps less: the references a node published and the names it deleted, without their
kernel and without which came first. It goes through the upstream nodes in the order of their ids,
and for each node applies the deletions before the publications. Both agree on a name exactly when
the last upstream node that touches it on the kernel, in the topological order, is not overruled by
nodes with larger ids. A state that is put back is one that some earlier context had for that node.
-/

namespace Flowfile.Artifacts

open Function Flowfile.Graph Library.FiniteDag Library.KeyedReplay List
open ArtifactContext (recordDeleted clearNode clearNodes perform clearKernel passThrough)

/-- Something a node did on a kernel. -/
inductive ArtifactEvent where
  | published (kernelId : String) (item : ArtifactItem)
  | deleted (kernelId : String) (name : String)

/-- The events of each node since it was last cleared. -/
abbrev Histories : Type := Int → List ArtifactEvent

def ArtifactEvent.ref (nodeId : Int) : ArtifactEvent → Option ArtifactRef
  | .published kernelId item => some (item.ref nodeId kernelId)
  | .deleted _ _ => none

def ArtifactEvent.deletedName : ArtifactEvent → Option String
  | .published _ _ => none
  | .deleted _ name => some name

open ArtifactEvent (deletedName)

def ArtifactEvent.write (kernelId : String) (nodeId : Int) :
    ArtifactEvent → Option (Write String ArtifactRef)
  | .published onKernel item =>
    if onKernel = kernelId then some (.put item.name (item.ref nodeId onKernel)) else none
  | .deleted onKernel name => if onKernel = kernelId then some (.drop name) else none

def writesOf (histories : Histories) (kernelId : String) (nodeId : Int) :
    List (Write String ArtifactRef) :=
  (histories nodeId).filterMap (ArtifactEvent.write kernelId nodeId)

def alive (histories : Histories) (kernelId : String) (order : List Int) :
    String → Option ArtifactRef :=
  replay (order.flatMap (writesOf histories kernelId)) fun _ => none

inductive Recorded : ArtifactContext → Histories → Prop
  | empty : Recorded .empty fun _ => []
  | published {context : ArtifactContext} {histories : Histories} (nodeId : Int)
      (kernelId : String) (artifacts : List ArtifactItem) (earlier : Recorded context histories) :
      Recorded (context.perform (.recordPublished nodeId kernelId artifacts))
        (update histories nodeId (histories nodeId ++ artifacts.map (.published kernelId)))
  | consumed {context : ArtifactContext} {histories : Histories} (nodeId : Int)
      (names : List String) (earlier : Recorded context histories) :
      Recorded (context.perform (.recordConsumed nodeId names)) histories
  | deleted {context : ArtifactContext} {histories : Histories} (nodeId : Int)
      (kernelId : String) (names : List String) (earlier : Recorded context histories) :
      Recorded (context.perform (.recordDeleted nodeId kernelId names))
        (update histories nodeId (histories nodeId ++ names.map (.deleted kernelId)))
  | computed {context : ArtifactContext} {histories : Histories} (nodeId : Int)
      (kernelId : String) (upstreamNodeIds : List Int) (earlier : Recorded context histories) :
      Recorded (context.perform (.computeAvailable nodeId kernelId upstreamNodeIds)) histories
  | clearedKernel {context : ArtifactContext} {histories : Histories} (kernelId : String)
      (earlier : Recorded context histories) :
      Recorded (context.perform (.clearKernel kernelId)) histories
  | clearedAll {context : ArtifactContext} {histories : Histories}
      (earlier : Recorded context histories) :
      Recorded (context.perform .clearAll) fun _ => []
  | clearedNodes {context : ArtifactContext} {histories : Histories} (nodeIds : List Int)
      (earlier : Recorded context histories) :
      Recorded (context.perform (.clearNodes nodeIds)) fun nodeId =>
        if nodeId ∈ nodeIds then [] else histories nodeId
  | restored {context snapshot : ArtifactContext} {histories past : Histories} (nodeId : Int)
      (state : NodeArtifactState) (earlier : Recorded context histories)
      (taken : Recorded snapshot past) (found : snapshot.nodeStates nodeId = some state) :
      Recorded (context.perform (.restoreNodeState nodeId state))
        (update histories nodeId (past nodeId))

def ArtifactContext.getPublishedByNode (context : ArtifactContext) (nodeId : Int) :
    List ArtifactRef :=
  (context.nodeStates nodeId).elim [] NodeArtifactState.published

def ArtifactContext.deletedByNode (context : ArtifactContext) (nodeId : Int) : List String :=
  (context.nodeStates nodeId).elim [] NodeArtifactState.deleted

open ArtifactContext (getPublishedByNode deletedByNode)

def Describes (context : ArtifactContext) (histories : Histories) : Prop :=
  ∀ nodeId,
    context.getPublishedByNode nodeId = (histories nodeId).filterMap (ArtifactEvent.ref nodeId) ∧
      context.deletedByNode nodeId = (histories nodeId).filterMap deletedName

variable {next : ArtifactContext} {ref : ArtifactRef}

section
variable {context : ArtifactContext} {histories : Histories} {nodeId : Int}

/-- Only the state of one node changes. -/
theorem Describes.update {events : List ArtifactEvent} (describes : Describes context histories)
    (others : ∀ other, other ≠ nodeId → next.nodeStates other = context.nodeStates other)
    (published : next.getPublishedByNode nodeId = events.filterMap (ArtifactEvent.ref nodeId))
    (deleted : next.deletedByNode nodeId = events.filterMap deletedName) :
    Describes next (update histories nodeId events) := by
  intro other
  by_cases same : other = nodeId
  · subst same
    simpa using ⟨published, deleted⟩
  · rw [update_of_ne same, getPublishedByNode, deletedByNode, others other same]
    exact describes other

/-- Changes that keep the two lists of every node. -/
theorem Describes.congr (describes : Describes context histories)
    (published : ∀ nodeId, next.getPublishedByNode nodeId = context.getPublishedByNode nodeId)
    (deleted : ∀ nodeId, next.deletedByNode nodeId = context.deletedByNode nodeId) :
    Describes next histories := by
  intro nodeId
  rw [published, deleted]
  exact describes nodeId

theorem modifyState_lists (context : ArtifactContext) (nodeId : Int)
    (change : NodeArtifactState → NodeArtifactState) :
    (context.modifyState nodeId change).getPublishedByNode nodeId =
        (change ((context.nodeStates nodeId).getD .initial)).published ∧
      (context.modifyState nodeId change).deletedByNode nodeId =
        (change ((context.nodeStates nodeId).getD .initial)).deleted := by
  simp [getPublishedByNode, deletedByNode, modifyState_own]

theorem getD_lists (context : ArtifactContext) (nodeId : Int) :
    ((context.nodeStates nodeId).getD .initial).published = context.getPublishedByNode nodeId ∧
      ((context.nodeStates nodeId).getD .initial).deleted = context.deletedByNode nodeId := by
  rw [getPublishedByNode, deletedByNode]
  cases context.nodeStates nodeId <;> exact ⟨rfl, rfl⟩

theorem modifyState_other (context : ArtifactContext) {nodeId other : Int}
    (change : NodeArtifactState → NodeArtifactState) (apart : other ≠ nodeId) :
    (context.modifyState nodeId change).nodeStates other = context.nodeStates other :=
  update_of_ne apart _ _

theorem modifyState_keeps (context : ArtifactContext) (nodeId : Int)
    (change : NodeArtifactState → NodeArtifactState)
    (published : ∀ state, (change state).published = state.published)
    (deleted : ∀ state, (change state).deleted = state.deleted) (other : Int) :
    (context.modifyState nodeId change).getPublishedByNode other =
        context.getPublishedByNode other ∧
      (context.modifyState nodeId change).deletedByNode other = context.deletedByNode other := by
  by_cases same : other = nodeId
  · subst same
    rw [(modifyState_lists context other change).1, (modifyState_lists context other change).2,
      published, deleted]
    exact getD_lists context other
  · rw [getPublishedByNode, deletedByNode, modifyState_other context change same]
    exact ⟨rfl, rfl⟩

theorem enter_states (context : ArtifactContext) (nodeId : Int) (ref : ArtifactRef) :
    (context.enter nodeId ref).nodeStates = context.nodeStates := rfl

theorem enter_fold_states (nodeId : Int) (refs : List ArtifactRef) (context : ArtifactContext) :
    (refs.foldl (fun context ref => context.enter nodeId ref) context).nodeStates =
      context.nodeStates := by
  induction refs generalizing context with
  | nil => rfl
  | cons ref rest ih => exact ih (context.enter nodeId ref)

theorem recordPublished_lists (context : ArtifactContext) (nodeId : Int) (kernelId : String)
    (artifacts : List ArtifactItem) :
    let next := context.recordPublished nodeId kernelId artifacts
    (∀ other, other ≠ nodeId → next.nodeStates other = context.nodeStates other) ∧
      next.getPublishedByNode nodeId =
        context.getPublishedByNode nodeId ++ artifacts.map (ArtifactItem.ref nodeId kernelId) ∧
      next.deletedByNode nodeId = context.deletedByNode nodeId := by
  have along : ∀ start : ArtifactContext,
      let next := artifacts.foldl (fun context item =>
        (context.modifyState nodeId fun state =>
          { state with published := state.published ++ [item.ref nodeId kernelId] }).enter nodeId
            (item.ref nodeId kernelId)) start
      (∀ other, other ≠ nodeId → next.nodeStates other = start.nodeStates other) ∧
        next.getPublishedByNode nodeId =
          start.getPublishedByNode nodeId ++ artifacts.map (ArtifactItem.ref nodeId kernelId) ∧
        next.deletedByNode nodeId = start.deletedByNode nodeId := by
    induction artifacts with
    | nil => simp
    | cons item rest ih =>
      intro start
      obtain ⟨published, deleted⟩ := modifyState_lists start nodeId fun state =>
        { state with published := state.published ++ [item.ref nodeId kernelId] }
      rw [(getD_lists start nodeId).1] at published
      rw [(getD_lists start nodeId).2] at deleted
      obtain ⟨others, laterPublished, laterDeleted⟩ := ih
        ((start.modifyState nodeId fun state =>
          { state with published := state.published ++ [item.ref nodeId kernelId] }).enter nodeId
            (item.ref nodeId kernelId))
      refine ⟨fun other apart => ?_, laterPublished.trans ?_, laterDeleted.trans deleted⟩
      · rw [foldl_cons, others other apart, enter_states]
        exact modifyState_other start _ apart
      · refine (congrArg (· ++ rest.map (ArtifactItem.ref nodeId kernelId)) published).trans ?_
        rw [append_assoc, map_cons, singleton_append]
  obtain ⟨published, deleted⟩ :=
    modifyState_keeps context nodeId id (fun _ => rfl) (fun _ => rfl) nodeId
  have whole := along (context.modifyState nodeId id)
  rw [published, deleted] at whole
  exact ⟨fun other apart => (whole.1 other apart).trans (modifyState_other context id apart),
    whole.2⟩

theorem recordDeleted_lists (context : ArtifactContext) (nodeId : Int) (kernelId : String)
    (names : List String) :
    let next := context.recordDeleted nodeId kernelId names
    (∀ other, other ≠ nodeId → next.nodeStates other = context.nodeStates other) ∧
      next.getPublishedByNode nodeId = context.getPublishedByNode nodeId ∧
      next.deletedByNode nodeId = context.deletedByNode nodeId ++ names := by
  have along : ∀ (names : List String) (start : ArtifactContext),
      (names.foldl (fun context name => context.deleteName nodeId kernelId name) start).nodeStates =
        start.nodeStates := by
    intro names
    induction names with
    | nil => exact fun _ => rfl
    | cons name rest ih =>
      exact fun start => ih (start.deleteName nodeId kernelId name)
  have states := along names (context.modifyState nodeId fun state =>
    { state with deleted := state.deleted ++ names })
  obtain ⟨published, deleted⟩ := modifyState_lists context nodeId fun state =>
    { state with deleted := state.deleted ++ names }
  rw [(getD_lists context nodeId).1] at published
  rw [(getD_lists context nodeId).2] at deleted
  rw [recordDeleted]
  refine ⟨fun other apart => ?_, ?_, ?_⟩
  · rw [states]
    exact modifyState_other context _ apart
  · rw [getPublishedByNode, states]
    exact published
  · rw [deletedByNode, states]
    exact deleted

theorem clearNodes_states (context : ArtifactContext) (nodeIds : List Int) (nodeId : Int) :
    (context.clearNodes nodeIds).nodeStates nodeId =
      if nodeId ∈ nodeIds then none else context.nodeStates nodeId := by
  induction nodeIds generalizing context with
  | nil => rfl
  | cons gone rest ih =>
    have first : (context.clearNode gone).nodeStates = update context.nodeStates gone none := by
      rw [clearNode]
      dsimp only
      split
      case h_1 unknown => exact (Function.update_eq_self_iff.mpr unknown.symm).symm
      case h_2 state known => exact (withdraw_fold gone state.published _).1
    rw [clearNodes, foldl_cons, ← clearNodes, ih, first]
    by_cases same : nodeId = gone <;> simp [same]

theorem published_events (nodeId : Int) (kernelId : String) (artifacts : List ArtifactItem) :
    (artifacts.map (.published kernelId)).filterMap (ArtifactEvent.ref nodeId) =
        artifacts.map (ArtifactItem.ref nodeId kernelId) ∧
      (artifacts.map (.published kernelId)).filterMap deletedName = [] := by
  induction artifacts with
  | nil => exact ⟨rfl, rfl⟩
  | cons item rest ih =>
    exact ⟨congrArg (_ :: ·) ih.1, ih.2⟩

theorem deleted_events (nodeId : Int) (kernelId : String) (names : List String) :
    (names.map (.deleted kernelId)).filterMap (ArtifactEvent.ref nodeId) = [] ∧
      (names.map (.deleted kernelId)).filterMap deletedName = names := by
  induction names with
  | nil => exact ⟨rfl, rfl⟩
  | cons name rest ih =>
    exact ⟨ih.1, congrArg (_ :: ·) ih.2⟩

theorem Recorded.describes (recorded : Recorded context histories) :
    Describes context histories := by
  induction recorded with
  | empty => exact fun _ => ⟨rfl, rfl⟩
  | @published context histories nodeId kernelId artifacts _ ih =>
    obtain ⟨others, published, deleted⟩ := recordPublished_lists context nodeId kernelId artifacts
    refine ih.update others (published.trans ?_) (deleted.trans ?_)
    · rw [filterMap_append, (ih nodeId).1, (published_events _ _ _).1]
    · rw [filterMap_append, (ih nodeId).2, (published_events nodeId _ _).2, append_nil]
  | @consumed context histories nodeId names _ ih =>
    have keeps := modifyState_keeps context nodeId
      (fun state => { state with consumed := state.consumed ++ names }) (fun _ => rfl)
      fun _ => rfl
    exact ih.congr (fun other => (keeps other).1) fun other => (keeps other).2
  | @deleted context histories nodeId kernelId names _ ih =>
    obtain ⟨others, published, deleted⟩ := recordDeleted_lists context nodeId kernelId names
    refine ih.update others (published.trans ?_) (deleted.trans ?_)
    · rw [filterMap_append, (ih nodeId).1, (deleted_events nodeId _ _).1, append_nil]
    · rw [filterMap_append, (ih nodeId).2, (deleted_events nodeId _ _).2]
  | @computed context histories nodeId kernelId upstreamNodeIds _ ih =>
    have keeps := modifyState_keeps context nodeId (fun state =>
      { state with available := context.availableAfter kernelId upstreamNodeIds })
      (fun _ => rfl) fun _ => rfl
    exact ih.congr (fun other => (keeps other).1) fun other => (keeps other).2
  | @clearedKernel context histories kernelId _ ih =>
    apply ih.congr
    · intro nodeId
      simp only [getPublishedByNode, perform, clearKernel]
      cases context.nodeStates nodeId <;> rfl
    · intro nodeId
      simp only [deletedByNode, perform, clearKernel]
      cases context.nodeStates nodeId <;> rfl
  | clearedAll => exact fun _ => ⟨rfl, rfl⟩
  | @clearedNodes context histories nodeIds _ ih =>
    intro nodeId
    rw [perform, getPublishedByNode, deletedByNode, clearNodes_states]
    dsimp only
    by_cases gone : nodeId ∈ nodeIds
    · rw [if_pos gone, if_pos gone]
      exact ⟨rfl, rfl⟩
    · rw [if_neg gone, if_neg gone]
      exact ih nodeId
  | @restored context snapshot histories past nodeId state _ _ found ih taken =>
    have states : (context.restoreNodeState nodeId state).nodeStates =
        update context.nodeStates nodeId (some state) :=
      enter_fold_states nodeId state.published _
    obtain ⟨published, deleted⟩ := taken nodeId
    rw [getPublishedByNode, found] at published
    rw [deletedByNode, found] at deleted
    refine ih.update (fun other apart => ?_) ?_ ?_
    · rw [perform, states, update_of_ne apart]
    · rw [perform, getPublishedByNode, states, update_self]
      exact published
    · rw [perform, deletedByNode, states, update_self]
      exact deleted

def contextWrites (histories : Histories) (kernelId : String) (nodeId : Int) :
    List (Write String ArtifactRef) :=
  ((histories nodeId).filterMap deletedName).map .drop ++
    (((histories nodeId).filterMap (ArtifactEvent.ref nodeId)).filter fun ref =>
      ref.kernelId = kernelId).map fun ref => .put ref.name ref

theorem passThrough_eq (kernelId : String) (available : String → Option ArtifactRef)
    (published : List ArtifactRef) (deleted : List String) (state : NodeArtifactState)
    (samePublished : state.published = published) (sameDeleted : state.deleted = deleted) :
    passThrough kernelId available state =
      replay (deleted.map .drop ++ (published.filter fun ref => ref.kernelId = kernelId).map
        fun ref => .put ref.name ref) available := by
  rw [replay_append, replay, replay, foldl_map, foldl_map, passThrough, samePublished, sameDeleted]
  rfl

theorem passThrough_fold (describes : Describes context histories) (kernelId : String)
    (nodeIds : List Int) (available : String → Option ArtifactRef) :
    nodeIds.foldl (fun available nodeId =>
        match context.nodeStates nodeId with
        | none => available
        | some state => passThrough kernelId available state) available =
      replay (nodeIds.flatMap (contextWrites histories kernelId)) available := by
  induction nodeIds generalizing available with
  | nil => rfl
  | cons nodeId rest ih =>
    obtain ⟨published, deleted⟩ := describes nodeId
    rw [foldl_cons, flatMap_cons, replay_append, ih]
    congr 1
    rw [contextWrites, ← published, ← deleted, getPublishedByNode, deletedByNode]
    cases context.nodeStates nodeId with
    | none => rfl
    | some state => exact passThrough_eq kernelId available _ _ state rfl rfl

theorem availableAfter_eq (describes : Describes context histories) (kernelId : String)
    (nodeIds : List Int) :
    context.availableAfter kernelId nodeIds =
      replay ((nodeIds.insertionSort (· ≤ ·)).flatMap (contextWrites histories kernelId))
        fun _ => none :=
  passThrough_fold describes kernelId _ _

def Publishes (histories : Histories) (kernelId name : String) (nodeId : Int) : Prop :=
  ∃ item, ArtifactEvent.published kernelId item ∈ histories nodeId ∧ item.name = name

def Deletes (histories : Histories) (name : String) (nodeId : Int) : Prop :=
  ∃ kernelId, ArtifactEvent.deleted kernelId name ∈ histories nodeId

theorem mem_publishedOn {kernelId : String} :
    (ref ∈ ((histories nodeId).filterMap (ArtifactEvent.ref nodeId)).filter fun ref =>
        ref.kernelId = kernelId) ↔
      ∃ item, ArtifactEvent.published kernelId item ∈ histories nodeId ∧
        item.ref nodeId kernelId = ref := by
  rw [mem_filter, mem_filterMap]
  constructor
  · rintro ⟨⟨event, mem, published⟩, onKernel⟩
    cases event with
    | deleted onKernel name => cases published
    | published other item =>
      cases published
      have same : other = kernelId := of_decide_eq_true onKernel
      exact ⟨item, same ▸ mem, by rw [same]⟩
  · rintro ⟨item, mem, rfl⟩
    exact ⟨⟨_, mem, rfl⟩, decide_eq_true rfl⟩

theorem mem_deletedNames {name : String} : name ∈ (histories nodeId).filterMap deletedName ↔
      Deletes histories name nodeId := by
  rw [mem_filterMap, Deletes]
  constructor
  · rintro ⟨event, mem, deleted⟩
    cases event with
    | published kernelId item => cases deleted
    | deleted kernelId other =>
      cases deleted
      exact ⟨kernelId, mem⟩
  · rintro ⟨kernelId, mem⟩
    exact ⟨_, mem, rfl⟩

variable {kernelId name : String}

theorem mentioned_puts :
    Mentioned ((((histories nodeId).filterMap (ArtifactEvent.ref nodeId)).filter fun ref =>
        ref.kernelId = kernelId).map fun ref => .put ref.name ref) name ↔
      Publishes histories kernelId name nodeId := by
  constructor
  · rintro ⟨write, mem, same⟩
    obtain ⟨ref, isRef, rfl⟩ := mem_map.mp mem
    obtain ⟨item, published, rfl⟩ := mem_publishedOn.mp isRef
    exact ⟨item, published, same⟩
  · rintro ⟨item, published, same⟩
    exact ⟨_, mem_map_of_mem (mem_publishedOn.mpr ⟨item, published, rfl⟩), same⟩

theorem mentioned_contextWrites : Mentioned (contextWrites histories kernelId nodeId) name ↔
      Publishes histories kernelId name nodeId ∨ Deletes histories name nodeId := by
  have drops : Mentioned (((histories nodeId).filterMap deletedName).map
      (Write.drop : String → Write String ArtifactRef)) name ↔ Deletes histories name nodeId := by
    rw [← mem_deletedNames]
    simp [Mentioned, Write.key]
  rw [contextWrites, mentioned_append, drops, mentioned_puts, or_comm]

theorem mentioned_writesOf (mentioned : Mentioned (writesOf histories kernelId nodeId) name) :
    Publishes histories kernelId name nodeId ∨ Deletes histories name nodeId := by
  obtain ⟨write, mem, same⟩ := mentioned
  obtain ⟨event, inHistory, written⟩ := mem_filterMap.mp mem
  cases event with
  | published onKernel item =>
    rw [ArtifactEvent.write] at written
    split at written
    case isTrue here =>
      cases written
      exact .inl ⟨item, here ▸ inHistory, same⟩
    case isFalse => cases written
  | deleted onKernel other =>
    rw [ArtifactEvent.write] at written
    split at written
    case isTrue here =>
      cases written
      exact .inr ⟨onKernel, same ▸ inHistory⟩
    case isFalse => cases written

theorem Publishes.mentioned (publishes : Publishes histories kernelId name nodeId) :
    Mentioned (writesOf histories kernelId nodeId) name := by
  obtain ⟨item, published, named⟩ := publishes
  exact ⟨.put item.name (item.ref nodeId kernelId),
    mem_filterMap.mpr ⟨_, published, if_pos rfl⟩, named⟩

theorem contextWrites_published (publishes : Publishes histories kernelId name nodeId) :
    ∃ ref, ref.sourceNodeId = nodeId ∧
      replay (contextWrites histories kernelId nodeId) (fun _ => none) name = some ref := by
  obtain ⟨item, published, named⟩ := publishes
  rw [contextWrites, replay_append]
  obtain ⟨ref, isRef, _, held⟩ := @replay_put_mem _ _ _ _ ArtifactRef.name _
    ⟨_, mem_publishedOn.mpr ⟨item, published, rfl⟩, named⟩
    (replay (((histories nodeId).filterMap deletedName).map .drop) fun _ => none)
  obtain ⟨_, _, rfl⟩ := mem_publishedOn.mp isRef
  exact ⟨_, rfl, held⟩

theorem contextWrites_unpublished (silent : ¬ Publishes histories kernelId name nodeId) :
    replay (contextWrites histories kernelId nodeId) (fun _ => none) name = none := by
  rw [contextWrites, replay_append, replay_of_not_mentioned (mentioned_puts.not.mpr silent)]
  by_cases mem : name ∈ (histories nodeId).filterMap deletedName
  · exact replay_drops mem _
  · apply replay_of_not_mentioned
    rintro ⟨write, isDrop, same⟩
    obtain ⟨other, inNames, rfl⟩ := mem_map.mp isDrop
    exact mem (same ▸ inNames)

theorem contextWrites_source
    (held : replay (contextWrites histories kernelId nodeId) (fun _ => none) name = some ref) :
    ref.sourceNodeId = nodeId := by
  by_cases publishes : Publishes histories kernelId name nodeId
  · obtain ⟨other, own, otherHeld⟩ := contextWrites_published publishes
    rw [held] at otherHeld
    rwa [Option.some.inj otherHeld]
  · rw [contextWrites_unpublished publishes] at held
    cases held

theorem puts_writesOf (kernelId : String) (nodeId : Int) (events : List ArtifactEvent) :
    (events.filterMap (ArtifactEvent.write kernelId nodeId)).filter Write.isPut =
      ((events.filterMap (ArtifactEvent.ref nodeId)).filter fun ref =>
        ref.kernelId = kernelId).map fun ref => .put ref.name ref := by
  induction events with
  | nil => rfl
  | cons event rest ih =>
    cases event with
    | published onKernel item =>
      have published : ArtifactEvent.ref nodeId (.published onKernel item) =
          some (item.ref nodeId onKernel) := rfl
      by_cases here : onKernel = kernelId
      · have write : ArtifactEvent.write kernelId nodeId (.published onKernel item) =
            some (.put item.name (item.ref nodeId onKernel)) := if_pos here
        have kept : ((item.ref nodeId onKernel :: rest.filterMap (ArtifactEvent.ref nodeId)).filter
            fun ref => ref.kernelId = kernelId) = item.ref nodeId onKernel ::
              (rest.filterMap (ArtifactEvent.ref nodeId)).filter fun ref =>
                ref.kernelId = kernelId := filter_cons_of_pos (decide_eq_true here)
        rw [filterMap_cons_some write, filter_cons_of_pos rfl,
          filterMap_cons_some published, kept, map_cons, ih]
        rfl
      · have write : ArtifactEvent.write kernelId nodeId (.published onKernel item) = none :=
          if_neg here
        have left : ((item.ref nodeId onKernel :: rest.filterMap (ArtifactEvent.ref nodeId)).filter
            fun ref => ref.kernelId = kernelId) =
              (rest.filterMap (ArtifactEvent.ref nodeId)).filter fun ref =>
                ref.kernelId = kernelId :=
          filter_cons_of_neg fun onThis => here (of_decide_eq_true onThis)
        rw [filterMap_cons_none write, filterMap_cons_some published, left, ih]
    | deleted onKernel name =>
      rw [filterMap_cons_none (f := ArtifactEvent.ref nodeId) rfl]
      by_cases here : onKernel = kernelId
      · have write : ArtifactEvent.write kernelId nodeId (.deleted onKernel name) =
            some (.drop name) := if_pos here
        rw [filterMap_cons_some write, filter_cons_of_neg Bool.false_ne_true, ih]
      · have write : ArtifactEvent.write kernelId nodeId (.deleted onKernel name) = none :=
          if_neg here
        rw [filterMap_cons_none write, ih]

theorem contextWrites_of_writesOf
    (held : replay (writesOf histories kernelId nodeId) (fun _ => none) name = some ref) :
    replay (contextWrites histories kernelId nodeId) (fun _ => none) name = some ref := by
  rw [contextWrites, replay_append, ← puts_writesOf]
  exact replay_puts held _

/-- The last node that touches a name on a kernel is not overruled: if it leaves a reference, no
node with a larger id publishes the name there or deletes it anywhere; if it leaves none, every
node that publishes the name there comes before a node with a larger id that deletes it. -/
def SeenAlike (histories : Histories) (kernelId : String) (order : List Int) (name : String) :
    Prop :=
  ∀ nodeId, lastWriter (writesOf histories kernelId) order name = some nodeId →
    match replay (writesOf histories kernelId nodeId) (fun _ => none) name with
    | some _ => ∀ other ∈ order, nodeId < other →
        ¬ Publishes histories kernelId name other ∧ ¬ Deletes histories name other
    | none => ∀ other ∈ order, Publishes histories kernelId name other →
        ∃ later ∈ order, other < later ∧ Deletes histories name later

theorem available_name_iff (describes : Describes context histories) {nodeIds order : List Int}
    (same : ∀ nodeId, nodeId ∈ nodeIds ↔ nodeId ∈ order) (kernelId name : String) :
    context.availableAfter kernelId nodeIds name = alive histories kernelId order name ↔
      SeenAlike histories kernelId order name := by
  have members : ∀ nodeId, nodeId ∈ nodeIds.insertionSort (· ≤ ·) ↔ nodeId ∈ order := fun nodeId =>
    (mem_insertionSort _).trans (same nodeId)
  have sorted := pairwise_insertionSort (· ≤ ·) nodeIds
  rw [availableAfter_eq describes, replay_batches, alive, replay_batches, SeenAlike]
  -- the node whose writes decide what the context holds
  cases deciding : lastWriter (contextWrites histories kernelId)
      (nodeIds.insertionSort (· ≤ ·)) name with
  | none =>
    have silent := (lastWriter_eq_none _).mp deciding
    have quiet : lastWriter (writesOf histories kernelId) order name = none := by
      apply (lastWriter_eq_none _).mpr
      intro nodeId mem mentioned
      exact silent nodeId ((members nodeId).mpr mem)
        (mentioned_contextWrites.mpr (mentioned_writesOf mentioned))
    simp [quiet]
  | some decider =>
    obtain ⟨inSorted, mentioned⟩ := lastWriter_spec _ deciding
    have largest := lastWriter_max _ sorted deciding
    have largestOf : ∀ other ∈ order, Publishes histories kernelId name other ∨
        Deletes histories name other → other ≤ decider := fun other mem touches =>
      largest other ((members other).mpr mem) (mentioned_contextWrites.mpr touches)
    cases last : lastWriter (writesOf histories kernelId) order name with
    | none =>
      have unpublished : ¬ Publishes histories kernelId name decider := fun publishes =>
        (lastWriter_eq_none _).mp last decider ((members decider).mp inSorted) publishes.mentioned
      simp [contextWrites_unpublished unpublished]
    | some nodeId =>
    obtain ⟨inOrder, touched⟩ := lastWriter_spec _ last
    have upper := largestOf nodeId inOrder (mentioned_writesOf touched)
    simp only [Option.some.injEq, forall_eq', Option.elim_some]
    cases held : replay (writesOf histories kernelId nodeId) (fun _ => none) name with
    | some ref =>
      have own := contextWrites_of_writesOf held
      constructor
      · intro agrees other mem beyond
        have decides : decider = nodeId :=
          (contextWrites_source agrees).symm.trans (contextWrites_source own)
        have bounded := largestOf other mem
        constructor
        · exact fun publishes => absurd (bounded (.inl publishes)) (by omega)
        · exact fun deletes => absurd (bounded (.inr deletes)) (by omega)
      · intro unruled
        have decides : decider = nodeId := by
          by_contra apart
          obtain ⟨noPublication, noDeletion⟩ :=
            unruled decider ((members decider).mp inSorted) (by omega)
          exact (mentioned_contextWrites.mp mentioned).elim noPublication noDeletion
        rw [decides]
        exact own
    | none =>
      constructor
      · intro agrees other mem publishes
        have silent : ¬ Publishes histories kernelId name decider := by
          intro decides
          obtain ⟨ref, _, heldRef⟩ := contextWrites_published decides
          rw [agrees] at heldRef
          cases heldRef
        have bounded := largestOf other mem (.inl publishes)
        have apart : other ≠ decider := fun equal => silent (equal ▸ publishes)
        exact ⟨decider, (members decider).mp inSorted, by omega,
          (mentioned_contextWrites.mp mentioned).resolve_left silent⟩
      · intro unruled
        apply contextWrites_unpublished
        intro publishes
        obtain ⟨later, mem, beyond, deletes⟩ :=
          unruled decider ((members decider).mp inSorted) publishes
        exact absurd (largestOf later mem (.inr deletes)) (by omega)

end

variable {P : Type} {graph : FlowGraph P}

def gatherUpstream (graph : FlowGraph P) : Nat → List NodeRef → List Int → Option (List Int)
  | 0, _, _ => none
  | _ + 1, [], result => some result
  | fuel + 1, current :: queue, result =>
    if current.nodeId ∈ result then gatherUpstream graph fuel queue result
    else gatherUpstream graph fuel (queue ++ (graph.heap current).allInputs)
      (result ++ [current.nodeId])

def getUpstreamNodeIds (graph : FlowGraph P) (fuel : Nat) (nodeId : Int) : Option (List Int) :=
  match graph.getNode nodeId with
  | none => some []
  | some node => gatherUpstream graph fuel (graph.heap node).allInputs []

/-- A graph without cycles: ids are distinct, inputs are nodes of the graph and no node is
upstream of itself. -/
structure Dag (graph : FlowGraph P) : Prop where
  distinct : (graph.nodeDb.map NodeRef.nodeId).Nodup
  inputsLive : ∀ source target, graph.feeds source target → source ∈ graph.nodeDb
  acyclic : Acyclic graph.feeds

/-- The nodes upstream of a node, directly or through others. -/
def Upstream (graph : FlowGraph P) (node : NodeRef) (nodeId : Int) : Prop :=
  ∃ ref, Relation.TransGen graph.feeds ref node ∧ ref.nodeId = nodeId

structure TopologicalOrder (graph : FlowGraph P) (node : NodeRef) (order : List Int) : Prop where
  lists : ∀ nodeId, nodeId ∈ order ↔ Upstream graph node nodeId
  nodup : order.Nodup
  ordered : ∀ source target, graph.feeds source target → Relation.TransGen graph.feeds target node →
      order.idxOf source.nodeId < order.idxOf target.nodeId

/-- What the search has established. -/
structure Gathering (graph : FlowGraph P) (node : NodeRef) (queue : List NodeRef)
    (result : List Int) : Prop where
  queued : ∀ ref ∈ queue, Relation.TransGen graph.feeds ref node
  found : ∀ nodeId ∈ result, Upstream graph node nodeId
  nodup : result.Nodup
  inputs : ∀ ref, graph.feeds ref node → ref ∈ queue ∨ ref.nodeId ∈ result
  expanded : ∀ source target, graph.feeds source target → target.nodeId ∈ result →
    source ∈ queue ∨ source.nodeId ∈ result

variable {node : NodeRef}

theorem gathering_start (live : node ∈ graph.nodeDb) :
    Gathering graph node (graph.heap node).allInputs [] where
  queued _ mem := .single ⟨live, mem⟩
  found := by simp
  nodup := nodup_nil
  inputs _ feeds := .inl feeds.2
  expanded := by simp

variable {current : NodeRef} {queue : List NodeRef} {result : List Int}

/-- A node that was found already is skipped. -/
theorem Gathering.skip {node : NodeRef} (gathering : Gathering graph node (current :: queue) result)
    (known : current.nodeId ∈ result) : Gathering graph node queue result where
  queued ref mem := gathering.queued ref (mem_cons_of_mem _ mem)
  found := gathering.found
  nodup := gathering.nodup
  inputs ref feeds := by
    rcases gathering.inputs ref feeds with queued | found
    · rcases mem_cons.mp queued with rfl | later
      · exact .inr known
      · exact .inl later
    · exact .inr found
  expanded source target feeds inResult := by
    rcases gathering.expanded source target feeds inResult with queued | found
    · rcases mem_cons.mp queued with rfl | later
      · exact .inr known
      · exact .inl later
    · exact .inr found

theorem Gathering.step (dag : Dag graph) {node : NodeRef}
    (gathering : Gathering graph node (current :: queue) result)
    (unknown : current.nodeId ∉ result) :
    Gathering graph node (queue ++ (graph.heap current).allInputs)
      (result ++ [current.nodeId]) := by
  have path := gathering.queued current mem_cons_self
  have live : ∀ {ref}, Relation.TransGen graph.feeds ref node → ref ∈ graph.nodeDb := by
    intro ref path
    obtain ⟨next, first, _⟩ := Relation.TransGen.head'_iff.mp path
    exact dag.inputsLive ref next first
  have seen : ∀ ref, ref ∈ current :: queue ∨ ref.nodeId ∈ result →
      ref ∈ queue ++ (graph.heap current).allInputs ∨ ref.nodeId ∈ result ++ [current.nodeId] := by
    rintro ref (queued | found)
    · rcases mem_cons.mp queued with rfl | later
      · exact .inr (by simp)
      · exact .inl (mem_append_left _ later)
    · exact .inr (mem_append_left _ found)
  constructor
  case queued =>
    intro ref mem
    rcases mem_append.mp mem with earlier | input
    · exact gathering.queued ref (mem_cons_of_mem _ earlier)
    · exact path.head ⟨live path, input⟩
  case found =>
    intro nodeId mem
    rcases mem_append.mp mem with earlier | new
    · exact gathering.found nodeId earlier
    · exact ⟨current, path, (mem_singleton.mp new).symm⟩
  case nodup =>
    refine nodup_append.mpr ⟨gathering.nodup, nodup_singleton _, ?_⟩
    rintro nodeId mem _ new rfl
    exact unknown (mem_singleton.mp new ▸ mem)
  case inputs => exact fun ref feeds => seen ref (gathering.inputs ref feeds)
  case expanded =>
    intro source target feeds mem
    rcases mem_append.mp mem with earlier | new
    · exact seen source (gathering.expanded source target feeds earlier)
    · have same : target = current := inj_on_of_nodup_map dag.distinct feeds.1 (live path)
        (mem_singleton.mp new)
      exact .inl (mem_append_right _ (same ▸ feeds.2))

/-- A finished search has found exactly the upstream nodes. -/
theorem gatherUpstream_spec (dag : Dag graph) (fuel : Nat)
    {ids : List Int} (gathering : Gathering graph node queue result)
    (returned : gatherUpstream graph fuel queue result = some ids) :
    ids.Nodup ∧ ∀ nodeId, nodeId ∈ ids ↔ Upstream graph node nodeId := by
  induction fuel generalizing queue result with
  | zero => cases returned
  | succ fuel ih =>
    cases queue with
    | nil =>
      cases returned
      refine ⟨gathering.nodup, fun nodeId => ⟨gathering.found nodeId, ?_⟩⟩
      rintro ⟨ref, path, rfl⟩
      induction path using Relation.TransGen.head_induction_on with
      | single feeds => exact (gathering.inputs _ feeds).resolve_left not_mem_nil
      | head feeds _ later =>
        exact (gathering.expanded _ _ feeds later).resolve_left not_mem_nil
    | cons current queue =>
      rw [gatherUpstream] at returned
      split at returned
      case isTrue known => exact ih (gathering.skip known) returned
      case isFalse unknown => exact ih (gathering.step dag unknown) returned

/-- How often inputs of nodes not found yet can still be queued. -/
def unexpanded (graph : FlowGraph P) (result : List Int) : Nat :=
  ((graph.nodeDb.filter fun ref => ref.nodeId ∉ result).map fun ref =>
    (graph.heap ref).allInputs.length).sum

theorem unexpanded_step (distinct : (graph.nodeDb.map NodeRef.nodeId).Nodup)
    (live : current ∈ graph.nodeDb) (unknown : current.nodeId ∉ result) :
    unexpanded graph result =
      (graph.heap current).allInputs.length + unexpanded graph (result ++ [current.nodeId]) := by
  have mem : current ∈ graph.nodeDb.filter fun ref => ref.nodeId ∉ result :=
    mem_filter.mpr ⟨live, decide_eq_true unknown⟩
  have rest : graph.nodeDb.filter (fun ref => ref.nodeId ∉ result ++ [current.nodeId]) =
      (graph.nodeDb.filter fun ref => ref.nodeId ∉ result).erase current := by
    rw [((List.Nodup.of_map _ distinct).filter _).erase_eq_filter, filter_filter]
    apply filter_congr
    intro ref inDb
    have same : ref = current ↔ ref.nodeId = current.nodeId :=
      ⟨congrArg _, fun equal => inj_on_of_nodup_map distinct inDb live equal⟩
    have compared : (ref == current) = decide (ref.nodeId = current.nodeId) := by
      rw [Bool.eq_iff_iff, beq_iff_eq, decide_eq_true_iff]
      exact same
    simp [bne, compared, Bool.and_comm]
  have perm := ((perm_cons_erase mem).map fun ref =>
    (graph.heap ref).allInputs.length).sum_nat
  rw [unexpanded, perm, map_cons, sum_cons, unexpanded, rest]

theorem gatherUpstream_returns (dag : Dag graph) (fuel : Nat)
    (gathering : Gathering graph node queue result)
    (enough : queue.length + unexpanded graph result < fuel) :
    ∃ ids, gatherUpstream graph fuel queue result = some ids := by
  induction fuel generalizing queue result with
  | zero => omega
  | succ fuel ih =>
    cases queue with
    | nil => exact ⟨result, rfl⟩
    | cons current queue =>
    rw [length_cons] at enough
    rw [gatherUpstream]
    split
    case isTrue known => exact ih (gathering.skip known) (by omega)
    case isFalse unknown =>
      apply ih (gathering.step dag unknown)
      have live : current ∈ graph.nodeDb := by
        obtain ⟨next, first, _⟩ := Relation.TransGen.head'_iff.mp
          (gathering.queued current mem_cons_self)
        exact dag.inputsLive current next first
      have fewer := unexpanded_step dag.distinct live unknown
      rw [length_append]
      omega

theorem getUpstreamNodeIds_returns (dag : Dag graph) (live : node ∈ graph.nodeDb) (fuel : Nat)
    (enough : (graph.heap node).allInputs.length + unexpanded graph [] < fuel) :
    ∃ ids, getUpstreamNodeIds graph fuel node.nodeId = some ids ∧ ids.Nodup ∧
      ∀ nodeId, nodeId ∈ ids ↔ Upstream graph node nodeId := by
  have found : graph.getNode node.nodeId = some node := by
    cases looked : graph.getNode node.nodeId with
    | none =>
      have absent := List.find?_eq_none.mp looked node live
      simp at absent
    | some other =>
      have same : other.nodeId = node.nodeId := by simpa using List.find?_some looked
      rw [inj_on_of_nodup_map dag.distinct (mem_of_find?_eq_some looked) live same]
  obtain ⟨ids, returned⟩ := gatherUpstream_returns dag fuel (gathering_start live) enough
  refine ⟨ids, ?_, gatherUpstream_spec dag fuel (gathering_start live) returned⟩
  rw [getUpstreamNodeIds, found]
  exact returned

def ArtifactContext.getAvailableForNode (context : ArtifactContext) (nodeId : Int) :
    String → Option ArtifactRef :=
  (context.nodeStates nodeId).elim (fun _ => none) NodeArtifactState.available

/-- After any recorded calls, in any graph without cycles, the artifacts available to a node on a
kernel are those alive after its upstream nodes in a topological order exactly when for every name
the last of these nodes that touches it is not overruled by nodes with larger ids. -/
theorem available_iff {context : ArtifactContext} {histories : Histories}
    (recorded : Recorded context histories) (dag : Dag graph) (live : node ∈ graph.nodeDb)
    {order : List Int} (topological : TopologicalOrder graph node order) (kernelId : String) :
    ∃ bound, ∀ fuel, bound ≤ fuel → ∃ ids, getUpstreamNodeIds graph fuel node.nodeId = some ids ∧
        ((context.computeAvailable node.nodeId kernelId ids).getAvailableForNode node.nodeId =
            alive histories kernelId order ↔
          ∀ name, SeenAlike histories kernelId order name) := by
  refine ⟨(graph.heap node).allInputs.length + unexpanded graph [] + 1, fun fuel enough => ?_⟩
  obtain ⟨ids, returned, _, lists⟩ := getUpstreamNodeIds_returns dag live fuel enough
  refine ⟨ids, returned, ?_⟩
  have stored : (context.computeAvailable node.nodeId kernelId ids).getAvailableForNode
      node.nodeId = context.availableAfter kernelId ids := by
    rw [ArtifactContext.getAvailableForNode, ArtifactContext.computeAvailable, modifyState_own]
    rfl
  rw [stored, funext_iff]
  exact forall_congr' fun name => available_name_iff recorded.describes
    (fun nodeId => (lists nodeId).trans (topological.lists nodeId).symm) kernelId name

/-- The source of a chain in which node `2` feeds node `1`, and this one node `3`. -/
def second : NodeRef := ⟨2, 0⟩

/-- The middle of the chain. -/
def first : NodeRef := ⟨1, 1⟩

/-- The end of the chain. -/
def third : NodeRef := ⟨3, 2⟩

def scriptNode (inputs : List NodeRef) : FlowNode Unit where
  nodeType := "python_script"
  nodeTemplate := { input := 10, multi := true, canBeStart := true }
  setting :=
    { payload := some (), isSetup := true, posX := 0, posY := 0, groupId := none,
      description := "", nodeReference := none, dependingOnId := none, cacheResults := false,
      isUserDefined := false }
  mainInputs := some inputs
  leftInput := none
  rightInput := none
  leadsToNodes := []
  inputOutputHandles _ := none

def chain : FlowGraph Unit where
  nodeDb := [second, first, third]
  heap ref := scriptNode (if ref = first then [second] else if ref = third then [first] else [])
  nextSerial := 3
  flowStarts := [second]
  groups := []
  groupIdSeq := 0

theorem chain_feeds {source target : NodeRef} : chain.feeds source target ↔
      (source = second ∧ target = first) ∨ (source = first ∧ target = third) := by
  rw [FlowGraph.feeds]
  constructor
  · rintro ⟨mem, input⟩
    simp only [chain, mem_cons, not_mem_nil, or_false] at mem
    rcases mem with rfl | rfl | rfl
    · simp [chain, scriptNode, FlowNode.allInputs, second, first, third] at input
    · exact .inl ⟨by simpa [chain, scriptNode, FlowNode.allInputs] using input, rfl⟩
    · exact .inr ⟨by simpa [chain, scriptNode, FlowNode.allInputs, first, third] using input, rfl⟩
  · rintro (⟨rfl, rfl⟩ | ⟨rfl, rfl⟩) <;> decide

theorem chain_dag : Dag chain where
  distinct := by decide
  inputsLive source target feeds := by
    rcases chain_feeds.mp feeds with ⟨rfl, _⟩ | ⟨rfl, _⟩ <;> decide
  acyclic := by
    apply acyclic_of_rank NodeRef.serial
    intro source target feeds
    rcases chain_feeds.mp feeds with ⟨rfl, rfl⟩ | ⟨rfl, rfl⟩ <;> decide

theorem chain_order : TopologicalOrder chain third [2, 1] where
  lists nodeId := by
    have direct : chain.feeds first third := chain_feeds.mpr (.inr ⟨rfl, rfl⟩)
    have before : chain.feeds second first := chain_feeds.mpr (.inl ⟨rfl, rfl⟩)
    constructor
    · intro mem
      simp only [mem_cons, not_mem_nil, or_false] at mem
      rcases mem with rfl | rfl
      · exact ⟨second, (Relation.TransGen.single before).tail direct, rfl⟩
      · exact ⟨first, .single direct, rfl⟩
    · rintro ⟨ref, path, rfl⟩
      obtain ⟨next, feeds, _⟩ := Relation.TransGen.head'_iff.mp path
      rcases chain_feeds.mp feeds with ⟨rfl, _⟩ | ⟨rfl, _⟩ <;> decide
  nodup := by decide
  ordered source target feeds path := by
    rcases chain_feeds.mp feeds with ⟨rfl, rfl⟩ | ⟨rfl, rfl⟩
    · decide
    · obtain ⟨next, later, _⟩ := Relation.TransGen.head'_iff.mp path
      rcases chain_feeds.mp later with ⟨same, _⟩ | ⟨same, _⟩ <;> cases same

theorem publishingSource_available : ∃ bound, ∀ fuel, bound ≤ fuel →
      ∃ ids, getUpstreamNodeIds chain fuel 3 = some ids ∧
        ((ArtifactContext.empty.perform (.recordPublished 2 "k" [.ofName "x"])).computeAvailable
            3 "k" ids).getAvailableForNode 3 =
          alive (update (fun _ => []) 2 [.published "k" (.ofName "x")]) "k" [2, 1] := by
  obtain ⟨bound, returns⟩ := available_iff (.published 2 "k" [.ofName "x"] .empty) chain_dag
    (show third ∈ chain.nodeDb by decide) chain_order "k"
  refine ⟨bound, fun fuel enough => ?_⟩
  obtain ⟨ids, returned, agrees⟩ := returns fuel enough
  refine ⟨ids, returned, agrees.mpr ?_⟩
  intro name nodeId last
  -- node `2` is the only one with a history
  have silent : ∀ other : Int, other ≠ 2 →
      update (fun _ => []) 2 [ArtifactEvent.published "k" (.ofName "x")] other = [] :=
    fun other apart => update_of_ne apart _ _
  have source : nodeId = 2 := by
    obtain ⟨inOrder, write, written, _⟩ := lastWriter_spec _ last
    by_contra apart
    rw [writesOf, map_singleton, nil_append, silent nodeId apart] at written
    cases written
  subst source
  have quiet : ∀ other ∈ [2, 1], (2 : Int) < other → False := by decide
  split
  · exact fun other mem beyond => (quiet other mem beyond).elim
  · rename_i missing
    intro other _ publishes
    have own : other = 2 := by
      by_contra apart
      obtain ⟨item, published, _⟩ := publishes
      rw [map_singleton, nil_append, silent other apart] at published
      cases published
    subst own
    obtain ⟨ref, _, held⟩ := contextWrites_published publishes
    obtain ⟨item, published, rfl⟩ := publishes
    rw [map_singleton, nil_append, update_self, mem_singleton] at published
    cases published
    exact absurd missing (by decide +kernel)

/-- The source of the chain publishes an artifact and the middle deletes it: replaying both leaves
nothing, and still the artifact is available at the end of the chain. -/
theorem deletingMiddle_still_available :
    let context := (ArtifactContext.empty.perform (.recordPublished 2 "k" [.ofName "x"])).perform
      (.recordDeleted 1 "k" ["x"])
    ∃ histories, Recorded context histories ∧ Dag chain ∧ third ∈ chain.nodeDb ∧
      TopologicalOrder chain third [2, 1] ∧ getUpstreamNodeIds chain 10 3 = some [1, 2] ∧
      alive histories "k" [2, 1] "x" = none ∧
      (context.computeAvailable 3 "k" [1, 2]).getAvailableForNode 3 "x" =
        some ((ArtifactItem.ofName "x").ref 2 "k") :=
  ⟨_, .deleted 1 "k" ["x"] (.published 2 "k" [.ofName "x"] .empty), chain_dag, by decide,
    chain_order, by decide +kernel, by decide +kernel, by decide +kernel⟩

end Flowfile.Artifacts
