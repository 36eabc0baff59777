import Flowfile.GroupEdits
import Flowfile.EdgeSymmetry
import Flowfile.DirtyFlag
import Flowfile.LinearHistory

/-!
# The tree of groups in sessions

A snapshot of a sound tree holds one too: a group without members has no node and no group that
names it. Restoring starts from nothing, gives promises no group and nodes the group of the
snapshot, and puts the table back at the end. With registered types nothing on the way raises, so a
restored graph is sound, or it is the one that was there before.

In sessions the tree is therefore sound in every state, as long as no group is created in a parent
that does not exist, and nodes that are configured name groups that exist.
-/

namespace Flowfile.Graph

open History Library.EventRuns Library.FiniteDag List

variable {P : Type} {kinds : String → Prop} {graph : FlowGraph P}

variable {ids : List Int} {node : NodeInformation P} {information : FlowInformation P}

section

variable {D : Type} {codec : SettingsCodec P D}

structure SnapshotTree (kinds : String → Prop) (data : FlowfileData D) : Prop where
  types : ∀ node ∈ data.nodes, kinds node.type
  table : ParentTable data.groups
  members : ∀ node ∈ data.nodes, ∀ groupId,
    node.groupId = some groupId → groupId ∈ groupIds data.groups

theorem GroupTree.snapshot (tree : GroupTree kinds graph) :
    SnapshotTree kinds (graph.getFlowfileData codec) := by
  have stored : ∀ groupId ∈ groupIds graph.groups, graph.groupIsEmpty groupId = false →
      groupId ∈ groupIds (graph.groups.filter fun group => !graph.groupIsEmpty group.id) := by
    rintro groupId mem nonempty
    obtain ⟨group, inTable, rfl⟩ := mem_map.mp mem
    exact mem_map_of_mem (mem_filter.mpr ⟨inTable, by simp [nonempty]⟩)
  constructor
  case types =>
    rintro node mem
    obtain ⟨ref, live, rfl⟩ := mem_map.mp mem
    exact tree.types ref live
  case table =>
    apply tree.table.filter
    rintro child parent ⟨group, mem, own, up⟩
    have edge : parentEdge graph.groups child parent :=
      ⟨group, (mem_filter.mp mem).1, own, up⟩
    refine stored parent (tree.table.known child parent edge) (Bool.eq_false_iff.mpr ?_)
    exact fun empty => (groupIsEmpty_spec empty).2 child edge
  case members =>
    rintro node mem groupId names
    obtain ⟨ref, live, rfl⟩ := mem_map.mp mem
    refine stored groupId (tree.members ref live groupId names) (Bool.eq_false_iff.mpr ?_)
    exact fun empty => (groupIsEmpty_spec empty).1 ref live names

/-- A node that can be rebuilt into a sound tree: its type is known, and its group exists. -/
structure Restorable (kinds : String → Prop) (ids : List Int) (node : NodeInformation P) :
    Prop where
  type : kinds node.type
  group : ∀ setting groupId, node.settingInput = some setting →
    setting.groupId = some groupId → groupId ∈ ids

theorem Restorable.withOutputs (restorable : Restorable kinds ids node) (outputs : List Int) :
    Restorable kinds ids { node with outputs } :=
  ⟨restorable.type, restorable.group⟩

theorem information_restorable {node : FlowfileNode D} {loaded : NodeInformation P}
    (type : kinds node.type) (group : ∀ groupId, node.groupId = some groupId → groupId ∈ ids)
    (returned : node.information codec = .ok loaded) : Restorable kinds ids loaded := by
  rw [FlowfileNode.information] at returned
  cases stored : node.settingInput with
  | none =>
    simp only [stored, bind, Except.bind, pure, Except.pure, Except.ok.injEq] at returned
    rw [← returned]
    exact ⟨type, fun setting groupId impossible => by cases impossible⟩
  | some dumped =>
  cases validated : codec.validate node.type dumped with
  | error failure => simp [stored, validated, bind, Except.bind] at returned
  | ok setting =>
  simp only [stored, validated, bind, Except.bind, pure, Except.pure, Except.ok.injEq]
    at returned
  rw [← returned]
  refine ⟨type, fun other groupId same names => group groupId ?_⟩
  rw [← Option.some.inj same] at names
  exact names

theorem flowInformation_restorable {data : FlowfileData D}
    (sound : SnapshotTree kinds data) (returned : data.flowInformation codec = .ok information) :
    information.groups = data.groups ∧
      ∀ node ∈ information.data, Restorable kinds (groupIds data.groups) node := by
  have loads : ∀ (nodes : List (FlowfileNode D)) (loaded : List (NodeInformation P)),
      (∀ node ∈ nodes, node ∈ data.nodes) →
      nodes.mapM (FlowfileNode.information codec) = .ok loaded →
      ∀ node ∈ loaded, Restorable kinds (groupIds data.groups) node := by
    intro nodes
    induction nodes with
    | nil =>
      intro loaded _ mapped node mem
      rw [mapM_nil, pure, Applicative.toPure, Monad.toApplicative] at mapped
      cases mapped
      cases mem
    | cons first rest ih =>
      intro loaded within mapped
      rw [mapM_cons] at mapped
      cases head : first.information codec with
      | error failure => simp [head, bind, Except.bind] at mapped
      | ok firstLoaded =>
      cases tail : rest.mapM (FlowfileNode.information codec) with
      | error failure => simp [head, tail, bind, Except.bind] at mapped
      | ok restLoaded =>
      simp only [head, tail, bind, Except.bind, pure, Except.pure, Except.ok.injEq] at mapped
      subst mapped
      intro node mem
      rcases mem_cons.mp mem with rfl | later
      · have inData := within first mem_cons_self
        exact information_restorable (sound.types first inData) (sound.members first inData)
          head
      · exact ih restLoaded
          (fun other inRest => within other (mem_cons_of_mem _ inRest)) tail node later
  have puts : ∀ (later earlier : List (NodeInformation P)), ∀ node ∈ later.foldl putNode earlier,
      node ∈ earlier ∨ node ∈ later := by
    intro later
    induction later with
    | nil => exact fun _ _ mem => .inl mem
    | cons first rest ih =>
      intro earlier node mem
      rcases ih _ node mem with inPut | inRest
      · rw [putNode] at inPut
        split at inPut
        case isTrue =>
          obtain ⟨other, inEarlier, placed⟩ := mem_map.mp inPut
          split at placed
          · exact .inr (placed ▸ mem_cons_self)
          · exact .inl (placed ▸ inEarlier)
        case isFalse =>
          rcases mem_append.mp inPut with old | new
          · exact .inl old
          · exact .inr (mem_singleton.mp new ▸ mem_cons_self)
      · exact .inr (mem_cons_of_mem _ inRest)
  rw [FlowfileData.flowInformation] at returned
  cases mapped : data.nodes.mapM (FlowfileNode.information codec) with
  | error failure => simp [mapped, bind, Except.bind] at returned
  | ok loaded =>
  simp only [mapped, bind, Except.bind, pure, Except.pure, Except.ok.injEq] at returned
  rw [← returned]
  refine ⟨rfl, fun node mem => loads data.nodes loaded (fun _ inData => inData) mapped node ?_⟩
  exact (puts loaded [] node mem).resolve_left (by simp)

/-- The walk to the insertion order only adds outputs. -/
theorem determineOrder_restorable (fuel : Nat) (nodeId : Int)
    (state final : Ingestion P) (restorable : ∀ node ∈ state.data, Restorable kinds ids node)
    (returned : determineOrder fuel nodeId state = some final) :
    ∀ node ∈ final.data, Restorable kinds ids node := by
  induction fuel generalizing nodeId state final with
  | zero => cases returned
  | succ fuel ih =>
    have outputs : ∀ (steps position : Nat) (state final : Ingestion P),
        (∀ node ∈ state.data, Restorable kinds ids node) →
        walkOutputs (determineOrder fuel) nodeId steps position state = some final →
        ∀ node ∈ final.data, Restorable kinds ids node := by
      intro steps
      induction steps with
      | zero => exact fun _ _ _ _ walked => by cases walked
      | succ steps walkHypothesis =>
        intro position state final restorable walked
        rw [walkOutputs] at walked
        split at walked
        case h_1 => exact Option.some.inj walked ▸ restorable
        case h_2 outputId _ =>
          dsimp only at walked
          split at walked
          case isTrue => exact walkHypothesis _ state final restorable walked
          case isFalse =>
            obtain ⟨next, first, continued⟩ := Option.bind_eq_some_iff.mp walked
            exact walkHypothesis _ next final
              (ih outputId state next restorable first) continued
    have assured : ∀ (state : Ingestion P) (inputId : Int),
        (∀ node ∈ state.data, Restorable kinds ids node) →
        ∀ node ∈ (state.assureOutputId inputId nodeId).data, Restorable kinds ids node := by
      intro state inputId restorable node mem
      obtain ⟨other, inData, rfl⟩ := mem_map.mp mem
      split
      · exact (restorable other inData).withOutputs _
      · exact restorable other inData
    rw [determineOrder] at returned
    split at returned
    case h_1 => exact Option.some.inj returned ▸ restorable
    case h_2 current _ =>
      dsimp only at returned
      split at returned
      case isTrue =>
        refine outputs fuel 0 _ final ?_ returned
        split
        · exact restorable
        · exact restorable
      case isFalse =>
        obtain ⟨middle, first, continued⟩ := Option.bind_eq_some_iff.mp returned
        refine outputs fuel 0 middle final ?_ continued
        refine Library.PartialLists.foldlM_preserves _
          (fun state : Ingestion P => ∀ node ∈ state.data, Restorable kinds ids node) _ state middle
          ?_ restorable first
        intro state inputId next _ restorable stepped
        split at stepped
        case isTrue => exact Option.some.inj stepped ▸ restorable
        case isFalse =>
          split at stepped
          case isTrue => exact Option.some.inj stepped ▸ assured state inputId restorable
          case isFalse =>
            exact ih inputId _ next (assured state inputId restorable) stepped

theorem determineInsertionOrder_restorable {environment : Environment P} {fuel : Nat}
    {final : Ingestion P} (restorable : ∀ node ∈ information.data, Restorable kinds ids node)
    (returned : determineInsertionOrder environment fuel information = some final) :
    ∀ node ∈ final.data, Restorable kinds ids node := by
  rw [determineInsertionOrder] at returned
  dsimp only at returned
  split at returned
  case h_1 first _ _ =>
    obtain ⟨state, walked, joined⟩ := Option.bind_eq_some_iff.mp returned
    rw [← Option.some.inj joined]
    exact determineOrder_restorable fuel first _ state restorable walked
  case h_2 =>
    obtain ⟨state, walked, joined⟩ := Option.bind_eq_some_iff.mp returned
    rw [← Option.some.inj joined]
    refine Library.PartialLists.foldlM_preserves _
      (fun state : Ingestion P => ∀ node ∈ state.data, Restorable kinds ids node) _ _ state ?_
      restorable walked
    exact fun state nodeId next _ restorable stepped =>
      determineOrder_restorable fuel nodeId state next restorable stepped

end

section

variable [DecidableEq P] {environment : Environment P} {fuel : Nat} {world after : World P}
  {error : Option FlowError} {data : List (NodeInformation P)} {nodeId : Int}

omit [DecidableEq P] in
/-- A step that never raises, carried out for every element: what it keeps is kept, and what it
achieves for an element and does not undo for another is achieved for all. -/
theorem forEach_succeeds {α : Type} {step : World P → α → Option (Outcome P)}
    (holds : World P → Prop) (reached : α → World P → Prop) (values : List α)
    (each : ∀ world, ∀ value ∈ values, ∀ after error, holds world →
      step world value = some (after, error) → holds after ∧ error = none ∧ reached value after ∧
        ∀ other, reached other world → reached other after)
    (initially : holds world) (returned : World.forEach step world values = some (after, error)) :
    holds after ∧ error = none ∧ (∀ value ∈ values, reached value after) ∧
      ∀ other, reached other world → reached other after := by
  induction values generalizing world with
  | nil =>
    simp only [World.forEach, Option.some.injEq, Prod.mk.injEq] at returned
    obtain ⟨rfl, rfl⟩ := returned
    exact ⟨initially, rfl, by simp, fun _ done => done⟩
  | cons value rest ih =>
    obtain ⟨⟨middle, failed⟩, first, continued⟩ := Option.bind_eq_some_iff.mp returned
    obtain ⟨still, rfl, own, kept⟩ :=
      each world value mem_cons_self middle failed initially first
    obtain ⟨final, succeeded, others, keptLater⟩ := ih
      (fun world other mem => each world other (mem_cons_of_mem _ mem)) still continued
    refine ⟨final, succeeded, fun other mem => ?_, fun other done =>
      keptLater other (kept other done)⟩
    rcases mem_cons.mp mem with rfl | later
    · exact keptLater other own
    · exact others other later

def RebuiltGroup (data : List (NodeInformation P)) (ref : NodeRef) (group : Option Int) : Prop :=
  ∃ node, findNode data ref.nodeId = some node ∧ ∀ groupId, group = some groupId →
    ∃ setting, node.settingInput = some setting ∧ setting.groupId = some groupId

def RebuiltType (data : List (NodeInformation P)) (ref : NodeRef) (nodeType : String) : Prop :=
  ∃ node, findNode data ref.nodeId = some node ∧ nodeType = node.type

abbrev Rebuilt (data : List (NodeInformation P)) (graph : FlowGraph P) : Prop :=
  Regroups (RebuiltGroup data) (RebuiltType data) World.empty.graph graph

omit [DecidableEq P] in
theorem not_mem_empty (ref : NodeRef) : ref ∉ (World.empty : World P).graph.nodeDb :=
  not_mem_nil

omit [DecidableEq P] in
theorem Rebuilt.sameType (rebuilt : Rebuilt data graph)
    (found : findNode data nodeId = some node) : graph.typeChanges nodeId node.type = false := by
  cases known : graph.getNode nodeId with
  | none => simp [FlowGraph.typeChanges, known]
  | some ref =>
  obtain ⟨live, rfl⟩ := Covered.getNode_spec known
  rcases rebuilt.types ref live with ⟨old, _⟩ | ⟨other, otherFound, typed⟩
  · exact absurd old (not_mem_empty ref)
  · rw [found, Option.some.injEq] at otherFound
    subst otherFound
    have known' : graph.getNode ref.nodeId = some ref := known
    simp [FlowGraph.typeChanges, known', typed]

omit [DecidableEq P] in
theorem findNode_id (found : findNode data nodeId = some node) : node ∈ data ∧ node.id = nodeId :=
  ⟨mem_of_find?_eq_some found, by simpa using List.find?_some found⟩

/-- Whether a node to be rebuilt is there already. -/
def Inserted (data : List (NodeInformation P)) (nodeId : Int) (world : World P) : Prop :=
  (findNode data nodeId).isSome → (world.graph.getNode nodeId).isSome

omit [DecidableEq P] in
theorem Inserted.mono (stays : ∀ ref ∈ world.graph.nodeDb, ref ∈ after.graph.nodeDb)
    (inserted : Inserted data nodeId world) : Inserted data nodeId after := by
  intro listed
  obtain ⟨ref, known⟩ := Option.isSome_iff_exists.mp (inserted listed)
  obtain ⟨live, rfl⟩ := Covered.getNode_spec known
  exact getNode_isSome (stays ref live)

/-- Adding a promise does not raise. -/
theorem insertPromise_rebuilt (registered : ∀ node ∈ data, environment.Registered node.type)
    (rebuilt : Rebuilt data world.graph)
    (returned : world.insertPromise environment fuel data nodeId = some (after, error)) :
    Rebuilt data after.graph ∧ error = none ∧ Inserted data nodeId after ∧
      ∀ other, Inserted data other world → Inserted data other after := by
  rw [World.insertPromise] at returned
  split at returned
  case h_1 missing =>
    cases returned
    exact ⟨rebuilt, rfl, fun listed => by simp [missing] at listed, fun _ inserted => inserted⟩
  case h_2 node found =>
    obtain ⟨inData, rfl⟩ := findNode_id found
    have template := registered node inData
    have configured : Configured environment (RebuiltGroup data) (RebuiltType data) node.id
        node.type (true = true ∨ (world.graph.getNode node.id).isSome) world.graph after.graph
        error := by
      refine addNodeStep_configured (rebuilt.sameType found) ?_ ?_ returned
      · intro ref own
        exact ⟨node, own ▸ found, fun groupId names => by cases names⟩
      · exact fun _ ref own => ⟨node, own ▸ found, rfl⟩
    have succeeded := configured.succeeds template (.inl rfl)
    exact ⟨rebuilt.trans configured.regroups, succeeded, fun _ => configured.present succeeded,
      fun _ inserted => inserted.mono configured.stays⟩

/-- Configuring a promise does not raise. -/
theorem insertSetting_rebuilt (registered : ∀ node ∈ data, environment.Registered node.type)
    (rebuilt : Rebuilt data world.graph) (promised : Inserted data nodeId world)
    (returned : world.insertSetting environment fuel data nodeId = some (after, error)) :
    Rebuilt data after.graph ∧ error = none ∧
      ∀ other, Inserted data other world → Inserted data other after := by
  rw [World.insertSetting] at returned
  split at returned
  case h_1 =>
    cases returned
    exact ⟨rebuilt, rfl, fun _ inserted => inserted⟩
  case h_2 node found =>
    obtain ⟨inData, rfl⟩ := findNode_id found
    split at returned
    case h_1 =>
      cases returned
      exact ⟨rebuilt, rfl, fun _ inserted => inserted⟩
    case h_2 setting stored =>
      split at returned
      case isTrue =>
        cases returned
        exact ⟨rebuilt, rfl, fun _ inserted => inserted⟩
      case isFalse configurable =>
        have keeps : (Edit.addSettings node.id node.type setting).deletedId environment
            world.graph = none := by
          rw [Edit.deletedId]
          split
          · simp [rebuilt.sameType found]
          · rfl
        have configured : Configured environment (RebuiltGroup data) (RebuiltType data) node.id
            node.type
            ((environment.adder node.type).isSome ∧ (world.graph.getNode node.id).isSome)
            world.graph after.graph error := by
          refine addSettings_configured keeps ?_ ?_ returned
          · intro ref own
            exact ⟨node, own ▸ found, fun groupId names => ⟨setting, stored, names⟩⟩
          · exact fun _ ref own => ⟨node, own ▸ found, rfl⟩
        have ready : (environment.adder node.type).isSome ∧ (world.graph.getNode node.id).isSome :=
          ⟨by simpa [Option.isSome_iff_ne_none] using configurable, promised (by simp [found])⟩
        exact ⟨rebuilt.trans configured.regroups,
          configured.succeeds (registered node inData) ready,
          fun _ inserted => inserted.mono configured.stays⟩

/-- Connecting rebuilt nodes does not raise. -/
theorem reconnect_rebuilt {outputId : Int} (rebuilt : Rebuilt data world.graph)
    (returned : world.reconnect fuel data nodeId outputId = some (after, error)) :
    Rebuilt data after.graph ∧ error = none := by
  rw [World.reconnect] at returned
  split at returned
  case h_1 =>
    split at returned
    case h_1 =>
      cases returned
      exact ⟨rebuilt, rfl⟩
    case h_2 =>
      obtain ⟨connected, ran, joined⟩ := Option.map_eq_some_iff.mp returned
      simp only [Prod.mk.injEq] at joined
      obtain ⟨rfl, rfl⟩ := joined
      exact ⟨rebuilt.trans (.addNodeConnection ran), rfl⟩
  case h_2 =>
    cases returned
    exact ⟨rebuilt, rfl⟩

theorem rebuild_tree
    (restorable : ∀ node ∈ information.data,
      Restorable environment.Registered (groupIds information.groups) node)
    (table : ParentTable information.groups)
    (returned : rebuild environment fuel information = some (after, error)) :
    error = none ∧ GroupTree environment.Registered after.graph := by
  rw [rebuild] at returned
  obtain ⟨⟨data, order⟩, ordered, continued⟩ := Option.bind_eq_some_iff.mp returned
  have kept := determineInsertionOrder_restorable restorable ordered
  have registered : ∀ node ∈ data, environment.Registered node.type :=
    fun node inData => (kept node inData).type
  -- promises first
  obtain ⟨⟨promised, failed⟩, promises, continued⟩ := Option.bind_eq_some_iff.mp continued
  obtain ⟨promisedRebuilt, rfl, inserted, _⟩ := forEach_succeeds
    (fun world => Rebuilt data world.graph) (Inserted data) order
    (fun _ _ _ _ _ rebuilt step => insertPromise_rebuilt registered rebuilt step) (.refl _)
    promises
  -- then settings, for nodes that are there
  obtain ⟨⟨configured, failed⟩, settings, continued⟩ := Option.bind_eq_some_iff.mp continued
  obtain ⟨⟨configuredRebuilt, _⟩, rfl, _⟩ := forEach_succeeds
    (fun world => Rebuilt data world.graph ∧ ∀ nodeId ∈ order, Inserted data nodeId world)
    (fun _ _ => True) order
    (fun _ nodeId mem _ _ holds step => by
      obtain ⟨rebuilt, rfl, kept⟩ :=
        insertSetting_rebuilt registered holds.1 (holds.2 nodeId mem) step
      exact ⟨⟨rebuilt, fun other inOrder => kept other (holds.2 other inOrder)⟩, rfl, trivial,
        fun _ done => done⟩)
    ⟨promisedRebuilt, inserted⟩ settings
  -- connections at last
  obtain ⟨⟨connected, failed⟩, connections, continued⟩ := Option.bind_eq_some_iff.mp continued
  obtain ⟨rebuilt, rfl, _⟩ := forEach_succeeds
    (fun world => Rebuilt data world.graph) (fun _ _ => True) order
    (fun _ nodeId _ _ _ rebuilt step => by
      obtain ⟨rebuilt, rfl, _⟩ := forEach_succeeds (fun world => Rebuilt data world.graph)
        (fun _ _ => True) _
        (fun _ _ _ _ _ rebuilt step => by
          obtain ⟨rebuilt, rfl⟩ := reconnect_rebuilt rebuilt step
          exact ⟨rebuilt, rfl, trivial, fun _ done => done⟩) rebuilt step
      exact ⟨rebuilt, rfl, trivial, fun _ done => done⟩)
    configuredRebuilt connections
  have final : ({ connected with
      graph := connected.graph.restoreGroups information.groups }, none) = (after, error) :=
    Option.some.inj continued
  simp only [Prod.mk.injEq] at final
  obtain ⟨rfl, rfl⟩ := final
  refine ⟨rfl, GroupTree.restoreGroups (rebuilt.distinct nodup_nil) ?_ table ?_⟩
  · intro ref live
    rcases rebuilt.types ref live with ⟨old, _⟩ | ⟨node, found, typed⟩
    · exact absurd old (not_mem_empty ref)
    · exact typed ▸ registered node (findNode_id found).1
  · intro ref live groupId names
    rcases rebuilt.members ref live with ⟨old, _⟩ | ⟨node, found, given⟩
    · exact absurd old (not_mem_empty ref)
    · obtain ⟨setting, stored, same⟩ := given groupId names
      exact (kept node (findNode_id found).1).group setting groupId stored same

omit [DecidableEq P] in
theorem groupTree_empty : GroupTree kinds (World.empty : World P).graph where
  distinctNodes := nodup_nil
  types := by simp [World.empty]
  table := by
    refine ⟨nodup_nil, ?_, ?_⟩
    · rintro child parent ⟨group, mem, _⟩
      cases mem
    · intro id cycle
      obtain ⟨_, ⟨group, mem, _⟩, _⟩ := Relation.TransGen.head'_iff.mp cycle
      cases mem
  members := by simp [World.empty]

variable {D : Type} {codec : SettingsCodec P D}

theorem restoreForHistory_tree (tree : GroupTree environment.Registered world.graph)
    {snapshot : FlowfileData D} (sound : SnapshotTree environment.Registered snapshot)
    (sourceTypes : String) :
    GroupTree environment.Registered
      (world.restoreForHistory environment codec sourceTypes fuel snapshot).1.graph := by
  rw [World.restoreForHistory, World.restoreFromSnapshot]
  cases loaded : snapshot.flowInformation codec with
  | error failure => exact tree
  | ok information =>
  obtain ⟨sameGroups, restorable⟩ := flowInformation_restorable sound loaded
  cases rebuilt : rebuild environment fuel information with
  | none => simpa [rebuilt] using groupTree_empty
  | some outcome =>
  obtain ⟨restored, error⟩ := outcome
  obtain ⟨rfl, whole⟩ := rebuild_tree (sameGroups ▸ restorable) (sameGroups ▸ sound.table)
    rebuilt
  simpa [rebuilt] using whole

end

structure SoundStacks {σ η : Type} (sound : σ → Prop) (manager : HistoryManager σ η) : Prop where
  undoStack : ∀ entry ∈ manager.undoStack, sound entry.snapshot
  redoStack : ∀ entry ∈ manager.redoStack, sound entry.snapshot

theorem pushEntry_sound {σ : Type} {sound : σ → Prop} {entry : HistoryEntry σ}
    {stack : List (HistoryEntry σ)} (maxStackSize : Nat) (own : sound entry.snapshot)
    (others : ∀ other ∈ stack, sound other.snapshot) :
    ∀ other ∈ pushEntry maxStackSize entry stack, sound other.snapshot := by
  intro other mem
  rcases mem_cons.mp (mem_of_mem_take mem) with rfl | old
  · exact own
  · exact others other old

theorem SoundStacks.step {γ σ η : Type} [DecidableEq η] {sound : σ → Prop}
    (host : HistoryHost γ σ η) (session : Session γ σ η)
    (entries : SoundStacks sound session.manager) (now : sound (host.getFlowfileData session.graph))
    (event : Event γ) : SoundStacks sound (session.step host event).manager := by
  have recorded : ∀ action, SoundStacks sound
      (record session.manager ⟨host.getFlowfileData session.graph, action⟩) := fun action =>
    ⟨pushEntry_sound session.manager.config.maxStackSize now entries.undoStack, by simp [record]⟩
  cases event with
  | captureThenChange action changed =>
    simp only [Session.step, captureSnapshot]
    split_ifs
    · exact entries
    · exact entries
    · exact entries
    · exact recorded action
  | changeThenCapture action changed =>
    simp only [Session.step, captureIfChanged]
    split_ifs
    · exact entries
    · exact entries
    · exact entries
    · exact ⟨(recorded action).undoStack, (recorded action).redoStack⟩
  | undo =>
    cases stack : session.manager.undoStack with
    | nil => simpa only [Session.step, History.undo, stack] using entries
    | cons entry rest =>
    simp only [Session.step, History.undo, stack]
    obtain ⟨_, undoStack, redoStack, _⟩ := finishRestore_manager host
      { session.manager with
        isRestoring := true
        undoStack := rest
        redoStack := pushEntry session.manager.config.maxStackSize
          ⟨host.getFlowfileData session.graph, entry.action⟩ session.manager.redoStack }
      session.graph entry
    constructor
    · rw [undoStack]
      exact fun other mem => entries.undoStack other (stack ▸ mem_cons_of_mem _ mem)
    · rw [redoStack]
      exact pushEntry_sound _ now entries.redoStack
  | redo =>
    cases stack : session.manager.redoStack with
    | nil => simpa only [Session.step, History.redo, stack] using entries
    | cons entry rest =>
    simp only [Session.step, History.redo, stack]
    obtain ⟨_, undoStack, redoStack, _⟩ := finishRestore_manager host
      { session.manager with
        isRestoring := true
        redoStack := rest
        undoStack := pushEntry session.manager.config.maxStackSize
          ⟨host.getFlowfileData session.graph, entry.action⟩ session.manager.undoStack }
      session.graph entry
    constructor
    · rw [undoStack]
      exact pushEntry_sound _ now entries.undoStack
    · rw [redoStack]
      exact fun other mem => entries.redoStack other (stack ▸ mem_cons_of_mem _ mem)
  | markSaved => exact ⟨entries.undoStack, entries.redoStack⟩

section

variable {D : Type} [DecidableEq P] [DecidableEq D] (environment : Environment P)
  (codec : SettingsCodec P D) (sourceTypes : String) (fuel : Nat)

inductive SessionEvent (P : Type) where
  | captureThenEdit (action : HistoryAction) (edit : Edit P)
  | editThenCapture (action : HistoryAction) (edit : Edit P)
  | undo
  | redo
  | markSaved

abbrev FlowSession (P D : Type) : Type :=
  Session (World P) (FlowfileData D) (SnapshotSignature D)

def SessionStep (session : FlowSession P D) (event : SessionEvent P)
    (next : FlowSession P D) : Prop :=
  let host := (flowHost environment codec sourceTypes fuel).toHistoryHost
  match event with
  | .captureThenEdit action edit => ∃ changed, EditStep environment session.graph edit changed ∧
      next = session.step host (.captureThenChange action changed)
  | .editThenCapture action edit => ∃ changed, EditStep environment session.graph edit changed ∧
      next = session.step host (.changeThenCapture action changed)
  | .undo => next = session.step host .undo
  | .redo => next = session.step host .redo
  | .markSaved => next = session.step host .markSaved

def EventKeepsGroupTree (session : FlowSession P D) : SessionEvent P → Prop
  | .captureThenEdit _ edit | .editThenCapture _ edit =>
    KeepsGroupTree environment session.graph edit
  | _ => True

structure SoundSession (session : FlowSession P D) : Prop where
  graph : GroupTree environment.Registered session.graph.graph
  entries : SoundStacks (SnapshotTree environment.Registered) session.manager

variable {environment codec sourceTypes fuel}

theorem SoundSession.step
    (registered : ∀ nodeType, (environment.adder nodeType).isSome → environment.Registered nodeType)
    {session next : FlowSession P D} {event : SessionEvent P}
    (sound : SoundSession environment session)
    (meets : EventKeepsGroupTree environment session event)
    (taken : SessionStep environment codec sourceTypes fuel session event next) :
    SoundSession environment next := by
  have now : SnapshotTree environment.Registered
      ((flowHost environment codec sourceTypes fuel).getFlowfileData session.graph) :=
    sound.graph.snapshot
  have restores : ∀ entry : HistoryEntry (FlowfileData D),
      SnapshotTree environment.Registered entry.snapshot →
      GroupTree environment.Registered ((flowHost environment codec sourceTypes
        fuel).restoreFromSnapshot session.graph entry.snapshot).1.graph := fun entry snapshot =>
    restoreForHistory_tree sound.graph snapshot sourceTypes
  cases event with
  | captureThenEdit action edit =>
    obtain ⟨changed, ⟨steps, error, performed⟩, rfl⟩ := taken
    exact ⟨sound.graph.perform registered meets performed, sound.entries.step _ session now _⟩
  | editThenCapture action edit =>
    obtain ⟨changed, ⟨steps, error, performed⟩, rfl⟩ := taken
    exact ⟨sound.graph.perform registered meets performed, sound.entries.step _ session now _⟩
  | undo =>
    rw [show next = session.step _ .undo from taken]
    refine ⟨?_, sound.entries.step _ session now _⟩
    cases stack : session.manager.undoStack with
    | nil => simpa only [Session.step, History.undo, stack] using sound.graph
    | cons entry rest =>
      simp only [Session.step, History.undo, stack]
      rw [(finishRestore_effect _ _ _ entry).2.2.2]
      exact restores entry (sound.entries.undoStack entry (stack ▸ mem_cons_self))
  | redo =>
    rw [show next = session.step _ .redo from taken]
    refine ⟨?_, sound.entries.step _ session now _⟩
    cases stack : session.manager.redoStack with
    | nil => simpa only [Session.step, History.redo, stack] using sound.graph
    | cons entry rest =>
      simp only [Session.step, History.redo, stack]
      rw [(finishRestore_effect _ _ _ entry).2.2.2]
      exact restores entry (sound.entries.redoStack entry (stack ▸ mem_cons_self))
  | markSaved =>
    rw [show next = session.step _ .markSaved from taken]
    exact ⟨sound.graph, sound.entries.step _ session now _⟩

/-- What the tree of groups promises its users. -/
structure GroupIntegrity (graph : FlowGraph P) : Prop where
  acyclic : Acyclic (parentEdge graph.groups)
  members : ∀ ref ∈ graph.nodeDb, ∀ groupId,
    (graph.heap ref).setting.groupId = some groupId → groupId ∈ groupIds graph.groups
  parents : ∀ group ∈ graph.groups, ∀ parentId,
    group.parentGroupId = some parentId → parentId ∈ groupIds graph.groups
  unused : ¬ InUse graph graph.nextGroupId

end

def newSession : FlowSession Unit Unit :=
  Session.opened bareHost.toHistoryHost ⟨true, 50⟩ World.empty

def afterEdit (session : FlowSession Unit Unit) (edit : Edit Unit) : FlowSession Unit Unit :=
  session.step bareHost.toHistoryHost (.captureThenChange ⟨.batch, "", none⟩
    (((session.graph.perform standardEnvironment 10 edit).map Prod.fst).getD session.graph))

theorem afterEdit_step {session : FlowSession Unit Unit} {edit : Edit Unit}
    (ends : (session.graph.perform standardEnvironment 10 edit).isSome) :
    SessionStep standardEnvironment bareCodec "" 10 session
      (.captureThenEdit ⟨.batch, "", none⟩ edit) (afterEdit session edit) := by
  obtain ⟨⟨next, error⟩, performed⟩ := Option.isSome_iff_exists.mp ends
  exact ⟨next, ⟨10, error, performed⟩, by rw [afterEdit, performed]; rfl⟩

theorem newSession_sound : SoundSession standardEnvironment newSession where
  graph := groupTree_empty
  entries := by constructor <;> (intro _ mem; cases mem)

end Flowfile.Graph
