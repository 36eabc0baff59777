import Flowfile.FlowHistory
import Flowfile.FlowSettings
import Flowfile.Library.PythonRepr

/-!
# What is hashed of a snapshot

A snapshot is stored with a hash, by which later ones are recognised as the same. The hash is taken
of a tuple of some fields. Settings of the flow enter it as the text of their sorted items, settings
of a node as the hash of their text. Two snapshots have one tuple exactly if the fields that are
looked at are alike.

The texts of serialised settings and the hashes of texts are given, and so is which characters can
be printed. Nodes and groups have distinct ids, as the graph keeps them by id.
-/

namespace Flowfile.Graph

open Library.PythonText Flowfile.Library.PrefixCodes List

variable {D : Type}

structure SnapshotNode (D : Type) where
  id : Int
  type : String
  isStartNode : Bool
  description : Option String
  nodeReference : Option String
  xPosition : Option Int
  yPosition : Option Int
  groupId : Option Int
  leftInputId : Option Int
  rightInputId : Option Int
  inputIds : Option (List Int)
  outputs : Option (List Int)
  outputHandles : Option (List String)
  settingInput : Option D

structure FlowSnapshot (D : Type) where
  flowfileVersion : String
  flowfileId : Int
  flowfileName : String
  flowfileSettings : FlowfileSettings
  nodes : List (SnapshotNode D)
  groups : List GroupInformation
  nodesDistinct : (nodes.map SnapshotNode.id).Nodup
  groupsDistinct : (groups.map GroupInformation.id).Nodup

/-- What Python does with serialised settings and with texts. -/
structure PythonObjects (D : Type) where
  printable : Char → Bool
  truthy : D → Bool
  str : D → String
  hash : String → Int

structure NodeTuple where
  id : Int
  type : String
  inputIds : List Int
  leftInputId : Option Int
  rightInputId : Option Int
  outputs : List Int
  xPosition : Option Int
  yPosition : Option Int
  groupId : Option Int
  settingHash : Option Int

structure SnapshotTuple where
  flowfileId : Int
  settings : String
  nodes : List NodeTuple
  groups : List GroupInformation

def ExecutionMode.text : ExecutionMode → String
  | .development => "Development"
  | .performance => "Performance"

def ExecutionLocation.text : ExecutionLocation → String
  | .inProcess => "local"
  | .remote => "remote"

section

variable (printable : Char → Bool)

/-- The representation of a parameter, which is a dictionary. -/
def FlowParameter.text (parameter : FlowParameter) : List Char :=
  reprDict printable [("name", parameter.name), ("default_value", parameter.defaultValue),
    ("description", parameter.description)]

def parametersText (parameters : List FlowParameter) : String :=
  .ofList (reprList (FlowParameter.text printable) parameters)

variable (settings : FlowfileSettings)

def FlowfileSettings.items : List (String × String) :=
  [("description", optionText settings.description),
    ("execution_mode", settings.executionMode.text),
    ("execution_location", settings.executionLocation.text),
    ("auto_save", boolText settings.autoSave),
    ("show_detailed_progress", boolText settings.showDetailedProgress),
    ("max_parallel_workers", toString (settings.maxParallelWorkers : Nat)),
    ("source_registration_id", optionNumber settings.sourceRegistrationId),
    ("parameters", parametersText printable settings.parameters)]

def FlowfileSettings.tupleText : String :=
  .ofList (reprList (reprPair printable)
    ((settings.items printable).insertionSort fun first second =>
      first.1 < second.1 ∨ first.1 = second.1 ∧ first.2 ≤ second.2))

end

section

variable (python : PythonObjects D)

/-- The hash of serialised settings. Empty ones count as missing. -/
def settingHash (setting : Option D) : Option Int :=
  (setting.filter python.truthy).map fun dumped => python.hash (python.str dumped)

/-- What is hashed of a node. Missing lists count as empty. -/
def SnapshotNode.tuple (node : SnapshotNode D) : NodeTuple where
  id := node.id
  type := node.type
  inputIds := node.inputIds.getD []
  leftInputId := node.leftInputId
  rightInputId := node.rightInputId
  outputs := node.outputs.getD []
  xPosition := node.xPosition
  yPosition := node.yPosition
  groupId := node.groupId
  settingHash := settingHash python node.settingInput

def FlowSnapshot.hashedTuple (snapshot : FlowSnapshot D) : SnapshotTuple where
  flowfileId := snapshot.flowfileId
  settings := snapshot.flowfileSettings.tupleText python.printable
  nodes := (snapshot.nodes.insertionSort fun first second => first.id ≤ second.id).map
    (SnapshotNode.tuple python)
  groups := snapshot.groups.insertionSort fun first second => first.id ≤ second.id

structure SameContent (first second : FlowSnapshot D) : Prop where
  version : first.flowfileVersion = second.flowfileVersion
  id : first.flowfileId = second.flowfileId
  name : first.flowfileName = second.flowfileName
  settings : first.flowfileSettings = second.flowfileSettings
  nodes : ∀ node, node ∈ first.nodes ↔ node ∈ second.nodes
  groups : ∀ group, group ∈ first.groups ↔ group ∈ second.groups

structure SettingsAlike (first second : FlowfileSettings) : Prop where
  description : optionText first.description = optionText second.description
  others : { first with description := none } = { second with description := none }

/-- Serialised settings look alike: both are missing or empty, or their texts have one hash. -/
def SettingAlike (first second : Option D) : Prop :=
  (first.filter python.truthy = none ∧ second.filter python.truthy = none) ∨
    ∃ dumped ∈ first.filter python.truthy, ∃ other ∈ second.filter python.truthy,
      python.hash (python.str dumped) = python.hash (python.str other)

structure NodesAlike (node other : SnapshotNode D) : Prop where
  id : node.id = other.id
  type : node.type = other.type
  inputIds : node.inputIds.getD [] = other.inputIds.getD []
  leftInputId : node.leftInputId = other.leftInputId
  rightInputId : node.rightInputId = other.rightInputId
  outputs : node.outputs.getD [] = other.outputs.getD []
  xPosition : node.xPosition = other.xPosition
  yPosition : node.yPosition = other.yPosition
  groupId : node.groupId = other.groupId
  settingInput : SettingAlike python node.settingInput other.settingInput

structure SeenAlike (first second : FlowSnapshot D) : Prop where
  id : first.flowfileId = second.flowfileId
  settings : SettingsAlike first.flowfileSettings second.flowfileSettings
  nodes : ∀ node ∈ first.nodes, ∃ other ∈ second.nodes, NodesAlike python node other
  conversely : ∀ other ∈ second.nodes, ∃ node ∈ first.nodes, NodesAlike python node other
  groups : ∀ group, group ∈ first.groups ↔ group ∈ second.groups

end

section

variable {printable : Char → Bool}

/-- It is seen where a parameter ends. -/
theorem parameter_delimited : Delimited (FlowParameter.text printable) := by
  refine reprDict_delimited.comp fun first second same => ?_
  obtain ⟨names, others⟩ := List.cons.inj same
  obtain ⟨defaults, last⟩ := List.cons.inj others
  obtain ⟨descriptions, _⟩ := List.cons.inj last
  exact FlowParameter.ext (Prod.mk.inj names).2 (Prod.mk.inj defaults).2
    (Prod.mk.inj descriptions).2

theorem parametersText_injective : Function.Injective (parametersText printable) :=
  fun _ _ same => reprList_injective parameter_delimited (fun _ => ⟨_, _, rfl, by decide⟩)
    (String.ofList_injective same)

theorem executionMode_text_injective : Function.Injective ExecutionMode.text := by
  intro first second
  cases first <;> cases second <;> decide

theorem executionLocation_text_injective : Function.Injective ExecutionLocation.text := by
  intro first second
  cases first <;> cases second <;> decide

theorem entries_eq_of_mem {α β : Type} {first second : List (α × β)}
    (keys : first.map Prod.fst = second.map Prod.fst) (distinct : (first.map Prod.fst).Nodup)
    (members : ∀ item ∈ first, item ∈ second) : first = second := by
  induction first generalizing second with
  | nil => exact (map_eq_nil_iff.mp keys.symm).symm
  | cons item rest inner =>
    obtain _ | ⟨other, others⟩ := second
    · cases keys
    obtain ⟨sameKey, sameKeys⟩ := List.cons.inj keys
    obtain ⟨fresh, restDistinct⟩ := nodup_cons.mp distinct
    have heads : item = other := by
      rcases mem_cons.mp (members item mem_cons_self) with same | later
      · exact same
      · exact absurd (sameKeys ▸ mem_map_of_mem later) fresh
    rw [heads, inner sameKeys restDistinct]
    intro further mem
    rcases mem_cons.mp (members further (mem_cons_of_mem _ mem)) with same | later
    · rw [heads, ← same] at fresh
      exact absurd (mem_map_of_mem mem) fresh
    · exact later

theorem tupleText_eq_items {first second : FlowfileSettings} :
    first.tupleText printable = second.tupleText printable ↔
      first.items printable = second.items printable := by
  constructor
  · intro same
    have sorted := reprList_injective reprPair_delimited (fun _ => ⟨_, _, rfl, by decide⟩)
      (String.ofList_injective same)
    refine entries_eq_of_mem rfl ?_ fun item mem => ?_
    · have keys : (first.items printable).map Prod.fst =
          ["description", "execution_mode", "execution_location", "auto_save",
            "show_detailed_progress", "max_parallel_workers", "source_registration_id",
            "parameters"] := rfl
      rw [keys]
      decide
    · have inSorted := (mem_insertionSort (fun first second : String × String =>
        first.1 < second.1 ∨ first.1 = second.1 ∧ first.2 ≤ second.2)).mpr mem
      rw [sorted] at inSorted
      exact (mem_insertionSort _).mp inSorted
  · intro same
    rw [FlowfileSettings.tupleText, FlowfileSettings.tupleText, same]

theorem tupleText_eq_iff {first second : FlowfileSettings} :
    first.tupleText printable = second.tupleText printable ↔ SettingsAlike first second := by
  rw [tupleText_eq_items]
  simp only [FlowfileSettings.items, List.cons.injEq, Prod.mk.injEq, true_and, and_true]
  constructor
  · rintro ⟨description, mode, location, autoSave, progress, workers, registration, parameters⟩
    refine ⟨description, FlowfileSettings.ext rfl ?_ ?_ ?_ ?_ ?_ ?_ ?_⟩
    · exact executionMode_text_injective mode
    · exact executionLocation_text_injective location
    · exact boolText_injective autoSave
    · exact boolText_injective progress
    · exact Subtype.ext (Flowfile.Library.WrittenNumbers.toString_injective workers)
    · exact optionNumber_injective registration
    · exact parametersText_injective parameters
  · rintro ⟨description, others⟩
    obtain ⟨-, mode, location, autoSave, progress, workers, registration, parameters⟩ :=
      FlowfileSettings.ext_iff.mp others
    dsimp only at mode location autoSave progress workers registration parameters
    rw [description, mode, location, autoSave, progress, workers, registration, parameters]
    exact ⟨rfl, rfl, rfl, rfl, rfl, rfl, rfl, rfl⟩

end

section

variable {python : PythonObjects D}

theorem sorted_strictly {α : Type} {key : α → Int} {items : List α}
    (distinct : (items.map key).Nodup) :
    (items.insertionSort fun one other => key one ≤ key other).Pairwise fun one other =>
      key one < key other := by
  have : Std.Total fun one other : α => key one ≤ key other :=
    ⟨fun one other => Int.le_total (key one) (key other)⟩
  have : IsTrans α fun one other => key one ≤ key other := ⟨fun _ _ _ => Int.le_trans⟩
  have sorted := pairwise_insertionSort (fun one other : α => key one ≤ key other) items
  have apart := ((perm_insertionSort (fun one other => key one ≤ key other) items).map
    key).nodup_iff.mpr distinct
  rw [List.Nodup, pairwise_map] at apart
  exact (sorted.and apart).imp fun ordered => lt_of_le_of_ne ordered.1 ordered.2

theorem sorted_eq_iff {α : Type} {key : α → Int} {first second : List α}
    (firstDistinct : (first.map key).Nodup) (secondDistinct : (second.map key).Nodup) :
    first.insertionSort (fun one other => key one ≤ key other) =
        second.insertionSort (fun one other => key one ≤ key other) ↔
      ∀ item, item ∈ first ↔ item ∈ second := by
  constructor
  · intro same item
    rw [← mem_insertionSort (fun one other => key one ≤ key other), same, mem_insertionSort]
  · intro members
    have : Std.Irrefl fun one other : α => key one < key other := ⟨fun _ => Int.lt_irrefl _⟩
    have : Std.Antisymm fun one other : α => key one < key other :=
      ⟨fun one other below above => absurd below (Int.not_lt.mpr (Int.le_of_lt above))⟩
    refine (sorted_strictly firstDistinct).eq_of_mem_iff (sorted_strictly secondDistinct) ?_
    intro item
    rw [mem_insertionSort, mem_insertionSort]
    exact members item

theorem settingHash_eq_iff {first second : Option D} :
    settingHash python first = settingHash python second ↔ SettingAlike python first second := by
  rw [settingHash, settingHash, SettingAlike]
  generalize first.filter python.truthy = first
  generalize second.filter python.truthy = second
  cases first <;> cases second <;> simp

theorem tuple_eq_iff {node other : SnapshotNode D} :
    node.tuple python = other.tuple python ↔ NodesAlike python node other := by
  rw [SnapshotNode.tuple, SnapshotNode.tuple, NodeTuple.mk.injEq, settingHash_eq_iff]
  constructor
  · rintro ⟨id, type, inputIds, left, right, outputs, x, y, group, setting⟩
    exact ⟨id, type, inputIds, left, right, outputs, x, y, group, setting⟩
  · rintro ⟨id, type, inputIds, left, right, outputs, x, y, group, setting⟩
    exact ⟨id, type, inputIds, left, right, outputs, x, y, group, setting⟩

theorem hashedTuple_eq_iff {first second : FlowSnapshot D} :
    first.hashedTuple python = second.hashedTuple python ↔ SeenAlike python first second := by
  have ids (snapshot : FlowSnapshot D) :
      ((snapshot.nodes.map (SnapshotNode.tuple python)).map NodeTuple.id).Nodup := by
    rw [map_map]
    exact snapshot.nodesDistinct
  have sorted (snapshot : FlowSnapshot D) :
      (snapshot.nodes.insertionSort fun first second => first.id ≤ second.id).map
        (SnapshotNode.tuple python) =
      (snapshot.nodes.map (SnapshotNode.tuple python)).insertionSort
        fun first second => first.id ≤ second.id :=
    map_insertionSort _ _ _ _ fun _ _ _ _ => Iff.rfl
  rw [FlowSnapshot.hashedTuple, FlowSnapshot.hashedTuple, SnapshotTuple.mk.injEq,
    tupleText_eq_iff, sorted, sorted, sorted_eq_iff (ids first) (ids second),
    sorted_eq_iff first.groupsDistinct second.groupsDistinct]
  constructor
  · rintro ⟨id, settings, tuples, groups⟩
    refine ⟨id, settings, fun node mem => ?_, fun other mem => ?_, groups⟩
    · obtain ⟨other, inSecond, same⟩ :=
        mem_map.mp ((tuples _).mp (mem_map_of_mem mem))
      exact ⟨other, inSecond, tuple_eq_iff.mp same.symm⟩
    · obtain ⟨node, inFirst, same⟩ :=
        mem_map.mp ((tuples _).mpr (mem_map_of_mem mem))
      exact ⟨node, inFirst, tuple_eq_iff.mp same⟩
  · rintro ⟨id, settings, nodes, conversely, groups⟩
    refine ⟨id, settings, fun tuple => ⟨fun mem => ?_, fun mem => ?_⟩, groups⟩
    · obtain ⟨node, inFirst, rfl⟩ := mem_map.mp mem
      obtain ⟨other, inSecond, alike⟩ := nodes node inFirst
      rw [tuple_eq_iff.mpr alike]
      exact mem_map_of_mem inSecond
    · obtain ⟨other, inSecond, rfl⟩ := mem_map.mp mem
      obtain ⟨node, inFirst, alike⟩ := conversely other inSecond
      rw [← tuple_eq_iff.mpr alike]
      exact mem_map_of_mem inFirst

end

/-- A difference of persisted content shows in the hashed tuple exactly if there is none or if it is
seen in a field that is looked at. -/
theorem hashedTuple_faithful_iff (python : PythonObjects D) (first second : FlowSnapshot D) :
    (¬ SameContent first second → first.hashedTuple python ≠ second.hashedTuple python) ↔
      SameContent first second ∨ ¬ SeenAlike python first second := by
  rw [Ne, hashedTuple_eq_iff]
  tauto

def describedFlow (description : String) : FlowSnapshot Unit where
  flowfileVersion := "1"
  flowfileId := 1
  flowfileName := "flow"
  flowfileSettings := ⟨none, .performance, .inProcess, false, true, defaultWorkers, none, []⟩
  nodes := [⟨1, "manual_input", true, some description, none, some 0, some 0, none, none, none,
    some [], some [], some [], none⟩]
  groups := []
  nodesDistinct := nodup_singleton _
  groupsDistinct := nodup_nil

theorem hashedTuple_description :
    ¬ ∀ (python : PythonObjects Unit) (first second : FlowSnapshot Unit),
      ¬ SameContent first second → first.hashedTuple python ≠ second.hashedTuple python := by
  intro faithful
  refine faithful ⟨fun _ => true, fun _ => true, fun _ => "", fun _ => 0⟩
    (describedFlow "before") (describedFlow "after") (fun same => ?_) rfl
  have mem := (same.nodes _).mp mem_cons_self
  exact absurd (congrArg SnapshotNode.description (mem_singleton.mp mem)) (by decide)

end Flowfile.Graph
