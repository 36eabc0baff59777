import Flowfile.BrowserStore
import Flowfile.Library.Documents
import Flowfile.Library.PartialLists

/-!
# Snapshots of flows in the browser

A flow is captured as the data that would be saved to a file, with the contents of its files, its
node counter and its name, and is restored by importing this data. What is saved leaves out fields
of the settings and the left input, rounds positions, and draws the edges anew from the inputs.

A flow comes back as it was when its nodes have nothing that the data leaves out and its edges are
those that are drawn.
-/

namespace Flowfile.BrowserTabs

open Function BrowserStore Library.Dictionaries Library.Documents Library.PartialLists List

/-- The fields of an object; one that is missing is null. -/
abbrev Settings := String → Value

def truthy : Value → Bool
  | .null => false
  | .boolean value => value
  | .integer value => value ≠ 0
  | .float printed => printed ∉ ["0.0", "-0.0", "NaN"]
  | .text value => value ≠ ""
  | .list _ | .dict _ => true

/-- Fields of the settings that are not saved, those of the node itself among them. -/
def settingInputExclude : List String :=
  ["flow_id", "node_id", "pos_x", "pos_y", "is_setup", "description", "node_reference", "user_id",
    "is_flow_output", "is_user_defined", "depending_on_id", "depending_on_ids"]

def nestedFieldsExclude : List String := ["is_available"]

mutual

/-- Leave out the fields of nested objects that are not saved. -/
def deepClean : Value → Value
  | .list items => .list (deepCleanItems items)
  | .dict entries => .dict (deepCleanEntries entries)
  | value => value

def deepCleanItems : List Value → List Value
  | [] => []
  | item :: rest => deepClean item :: deepCleanItems rest

def deepCleanEntries : List (String × Value) → List (String × Value)
  | [] => []
  | (key, value) :: rest =>
    if key ∈ nestedFieldsExclude then deepCleanEntries rest
    else (key, deepClean value) :: deepCleanEntries rest

end

def cleanSettingInput (settings : Settings) : Settings := fun key =>
  if key ∈ settingInputExclude then .null else deepClean (settings key)

/-- The nearest whole number, halves upwards. -/
def round (position : Rat) : Rat := ((position + 1 / 2).floor : Int)

structure LiveNode extends FlowNode where
  x : Rat
  y : Rat
  settings : Option Settings
  description : Value
  nodeReference : Value

structure LiveFlow (F : Type) where
  nodes : Dictionary Nat LiveNode
  edges : List FlowEdge
  nodeIdCounter : Nat
  fileContents : Nat → Option F
  externalSchemas : Nat → Option Value
  name : String
  flowId : Option String

structure SavedNode extends FlowfileNode where
  description : Value
  nodeReference : Value
  xPosition : Option Rat
  yPosition : Option Rat
  settingInput : Option Settings

/-- The data of a file. An entry that is no node is one that cannot be read. -/
structure FlowfileData where
  name : String
  nodes : List (Option SavedNode)
  connections : List Connection

structure FlowStateSnapshot (F : Type) where
  name : String
  flowId : Option String
  snapshot : FlowfileData
  fileContents : Nat → Option F
  nodeIdCounter : Nat

variable {F : Type}

def LiveFlow.blank (name : String) : LiveFlow F :=
  ⟨.empty, [], 0, fun _ => none, fun _ => none, name, none⟩

def exportedDescription (node : LiveNode) : Option Value :=
  if truthy node.description then some node.description
  else node.settings.map fun settings =>
    if truthy (settings "description") then settings "description" else .text ""

def exportedReference (node : LiveNode) : Option Value :=
  if truthy node.nodeReference then some node.nodeReference
  else node.settings.map fun settings => settings "node_reference"

def exportedSettings (schema : Option Value) (node : LiveNode) : Option Settings :=
  let settingInput := node.settings.map cleanSettingInput
  match if node.type = "external_data" then schema else none with
  | some schema =>
    some (update (settingInput.getD fun _ => .null) "schema_snapshot" schema)
  | none => settingInput

namespace LiveFlow

variable (flow : LiveFlow F)

def exportNode (entry : Nat × LiveNode) : Option SavedNode :=
  let node := entry.2
  (exportedDescription node).bind fun description => (exportedReference node).map fun reference =>
    { id := node.id
      type := node.type
      isStartNode := node.inputIds.isEmpty && isAbsent node.leftInputId &&
        isAbsent node.rightInputId
      leftInputId := none
      rightInputId := node.rightInputId
      inputIds := node.inputIds
      outputs := (flow.edges.filter fun edge => edge.source = entry.1).map FlowEdge.target
      description := description
      nodeReference := reference
      xPosition := some (round node.x)
      yPosition := some (round node.y)
      settingInput := exportedSettings (flow.externalSchemas entry.1) node }

def exportToFlowfile (name : String) : Option FlowfileData :=
  (flow.nodes.entries.mapM flow.exportNode).map fun nodes => ⟨name, nodes.map some, []⟩

def captureSnapshot : Option (FlowStateSnapshot F) :=
  (flow.exportToFlowfile flow.name).map fun snapshot =>
    ⟨flow.name, flow.flowId, snapshot, flow.fileContents, flow.nodeIdCounter⟩

end LiveFlow

def migrateReceivedTable (settings : Settings) : Settings :=
  if truthy (settings "received_table") && !truthy (settings "received_file") then
    update (update settings "received_file" (settings "received_table"))
      "received_table" .null
  else settings

def defaultDynamicRenameInput : Value :=
  .dict [("rename_mode", .text "prefix"), ("prefix", .text ""), ("suffix", .text ""),
    ("formula", .text ""), ("selection_mode", .text "all"), ("selected_columns", .list []),
    ("selected_data_type", .null)]

def migrateLegacyRenameSettings (settings : Settings) : Settings :=
  update
    (if truthy (settings "dynamic_rename_input") then settings
      else update settings "dynamic_rename_input" defaultDynamicRenameInput)
    "rename_input" .null

def importNode (saved : SavedNode) : LiveNode :=
  let nodeType := currentType saved.type
  let nodeDescription := if truthy saved.description then saved.description else .text ""
  let nodeReference := if truthy saved.nodeReference then saved.nodeReference else .null
  { id := saved.id
    type := nodeType
    inputIds := saved.inputIds
    leftInputId := saved.leftInputId
    rightInputId := saved.rightInputId
    x := saved.xPosition.getD 0
    y := saved.yPosition.getD 0
    settings := saved.settingInput.map fun settings =>
      let migrated := migrateReceivedTable settings
      let renamed := if nodeType = "dynamic_rename" then migrateLegacyRenameSettings migrated
        else migrated
      let described := update renamed "description" nodeDescription
      if truthy nodeReference then update described "node_reference" nodeReference
      else described
    description := nodeDescription
    nodeReference := nodeReference }

/-- The nodes up to the first entry that cannot be read. -/
def importNodes (nodes : Dictionary Nat LiveNode) :
    List (Option SavedNode) → Dictionary Nat LiveNode × Bool
  | [] => (nodes, true)
  | none :: _ => (nodes, false)
  | some saved :: rest => importNodes (nodes.set saved.id (importNode saved)) rest

/-- The flow is cleared first; an entry that cannot be read ends the import there. -/
def importFromFlowfile (data : FlowfileData) (flow : LiveFlow F) : LiveFlow F × Bool :=
  let cleared : LiveFlow F :=
    { LiveFlow.blank (if data.name = "" then "Untitled Flow" else data.name) with
      nodeIdCounter := flow.nodeIdCounter }
  let imported := importNodes .empty data.nodes
  if imported.2 then
    let saved := data.nodes.filterMap fun node => node
    ({ cleared with
        nodes := imported.1
        nodeIdCounter := (saved.map fun node => node.id).foldl max 0
        edges := if data.connections.isEmpty
          then deriveEdgesFromNodes (saved.map SavedNode.toFlowfileNode)
          else data.connections.map Connection.edge },
      true)
  else ({ cleared with nodes := imported.1 }, false)

def loadFromSnapshot (snap : FlowStateSnapshot F) (flow : LiveFlow F) : LiveFlow F :=
  let imported := importFromFlowfile snap.snapshot flow
  if imported.2 then
    { imported.1 with
      fileContents := snap.fileContents
      nodeIdCounter := snap.nodeIdCounter
      name := snap.name
      flowId := snap.flowId }
  else imported.1

/-- Two flows are the same but for the order of their edges and for what is known of results. -/
structure Same (flow other : LiveFlow F) : Prop where
  nodes : ∀ id, flow.nodes.get id = other.nodes.get id
  edges : flow.edges.Perm other.edges
  nodeIdCounter : flow.nodeIdCounter = other.nodeIdCounter
  fileContents : flow.fileContents = other.fileContents
  name : flow.name = other.name
  flowId : flow.flowId = other.flowId

mutual

/-- No object in the value has a field that is not saved. -/
def plain : Value → Bool
  | .list items => plainItems items
  | .dict entries => plainEntries entries
  | _ => true

def plainItems : List Value → Bool
  | [] => true
  | item :: rest => plain item && plainItems rest

def plainEntries : List (String × Value) → Bool
  | [] => true
  | (key, value) :: rest => decide (key ∉ nestedFieldsExclude) && plain value && plainEntries rest

end

/-- A node that has nothing but what is saved of it. -/
structure Restorable (schema : Option Value) (node : LiveNode) (settings : Settings) : Prop where
  present : node.settings = some settings
  bare : ∀ key ∈ settingInputExclude, key ≠ "description" → key ≠ "node_reference" →
    settings key = .null
  plain : ∀ key, plain (settings key)
  description : settings "description" = node.description
  described : truthy node.description ∨ node.description = .text ""
  reference : settings "node_reference" = node.nodeReference
  referred : truthy node.nodeReference ∨ node.nodeReference = .null
  left : node.leftInputId = none
  x : round node.x = node.x
  y : round node.y = node.y
  type : currentType node.type = node.type
  received : truthy (settings "received_table") → truthy (settings "received_file")
  renamed : node.type = "dynamic_rename" →
    truthy (settings "dynamic_rename_input") ∧ settings "rename_input" = .null
  external : node.type = "external_data" → ∀ known, schema = some known →
    settings "schema_snapshot" = known

/-- A flow whose nodes have nothing but what is saved of them and whose edges are those that are
drawn for their inputs. -/
structure LiveFlow.Restorable (flow : LiveFlow F) : Prop where
  keyed : ∀ entry ∈ flow.nodes.entries, entry.2.id = entry.1
  nodes : ∀ entry ∈ flow.nodes.entries,
    ∃ settings, BrowserTabs.Restorable (flow.externalSchemas entry.1) entry.2 settings
  edges : (flow.nodes.entries.flatMap fun entry =>
    entry.2.rightInputId.toList.map (drawEdge entry.1 "input-1") ++
      entry.2.inputIds.map (drawEdge entry.1 "input-0")).Perm flow.edges

mutual

theorem deepClean_of_plain : ∀ value : Value, plain value = true → deepClean value = value
  | .list items, clean => by rw [deepClean, deepCleanItems_of_plain items clean]
  | .dict entries, clean => by rw [deepClean, deepCleanEntries_of_plain entries clean]
  | .null, _ | .boolean _, _ | .integer _, _ | .float _, _ | .text _, _ => rfl

theorem deepCleanItems_of_plain : ∀ items : List Value, plainItems items = true →
    deepCleanItems items = items
  | [], _ => rfl
  | item :: rest, clean => by
    obtain ⟨first, later⟩ := Bool.and_eq_true_iff.mp clean
    rw [deepCleanItems, deepClean_of_plain item first, deepCleanItems_of_plain rest later]

theorem deepCleanEntries_of_plain : ∀ entries : List (String × Value),
    plainEntries entries = true → deepCleanEntries entries = entries
  | [], _ => rfl
  | (key, value) :: rest, clean => by
    obtain ⟨both, later⟩ := Bool.and_eq_true_iff.mp clean
    obtain ⟨kept, first⟩ := Bool.and_eq_true_iff.mp both
    rw [deepCleanEntries, if_neg (of_decide_eq_true kept), deepClean_of_plain value first,
      deepCleanEntries_of_plain rest later]

end

section

variable {schema : Option Value} {node : LiveNode} {settings : Settings}

section

variable (restorable : Restorable schema node settings)
include restorable

theorem Restorable.exportedDescription : exportedDescription node = some node.description := by
  rw [BrowserTabs.exportedDescription]
  split
  · rfl
  case isFalse blank =>
    have empty := restorable.described.resolve_left blank
    rw [restorable.present, Option.map_some, restorable.description, if_neg blank, empty]

theorem Restorable.exportedReference : exportedReference node = some node.nodeReference := by
  rw [BrowserTabs.exportedReference]
  split
  · rfl
  · rw [restorable.present, Option.map_some, restorable.reference]

/-- Of the settings only the description and the reference are not saved with them. -/
theorem Restorable.exportedSettings :
    exportedSettings schema node = some (cleanSettingInput settings) := by
  rw [BrowserTabs.exportedSettings, restorable.present]
  dsimp only [Option.map_some]
  split
  case h_2 => rfl
  case h_1 known found =>
    split at found
    case isFalse => cases found
    case isTrue isExternal =>
      have kept : cleanSettingInput settings "schema_snapshot" = known := by
        rw [cleanSettingInput, if_neg (by decide), deepClean_of_plain _ (restorable.plain _)]
        exact restorable.external isExternal known found
      rw [Option.getD_some, ← kept, update_eq_self]

theorem Restorable.clean_apply {key : String}
    (saved : key ∉ settingInputExclude) : cleanSettingInput settings key = settings key := by
  rw [cleanSettingInput, if_neg saved, deepClean_of_plain _ (restorable.plain key)]

theorem Restorable.migrated :
    (if currentType node.type = "dynamic_rename" then
      migrateLegacyRenameSettings (migrateReceivedTable (cleanSettingInput settings))
      else migrateReceivedTable (cleanSettingInput settings)) = cleanSettingInput settings := by
  have table : migrateReceivedTable (cleanSettingInput settings) = cleanSettingInput settings := by
    rw [migrateReceivedTable, restorable.clean_apply (by decide),
      restorable.clean_apply (by decide), if_neg]
    intro legacy
    obtain ⟨received, absent⟩ := Bool.and_eq_true_iff.mp legacy
    rw [restorable.received received] at absent
    cases absent
  rw [table]
  split
  case isFalse => rfl
  case isTrue isRename =>
    obtain ⟨given, gone⟩ := restorable.renamed (restorable.type ▸ isRename)
    rw [migrateLegacyRenameSettings, restorable.clean_apply (by decide), if_pos given]
    have null : cleanSettingInput settings "rename_input" = .null :=
      (restorable.clean_apply (by decide)).trans gone
    rw [← null, update_eq_self]

theorem Restorable.described_settings :
    (if truthy node.nodeReference then
      update (update (cleanSettingInput settings) "description" node.description)
        "node_reference" node.nodeReference
      else update (cleanSettingInput settings) "description" node.description) = settings := by
  have others : ∀ key, key ≠ "description" → key ≠ "node_reference" →
      cleanSettingInput settings key = settings key := by
    intro key notDescription notReference
    by_cases excluded : key ∈ settingInputExclude
    · rw [cleanSettingInput, if_pos excluded,
        restorable.bare key excluded notDescription notReference]
    · exact restorable.clean_apply excluded
  funext key
  by_cases isReference : key = "node_reference"
  · subst isReference
    split
    · rw [update_self, restorable.reference]
    case isFalse none =>
      rw [update_of_ne (by decide), cleanSettingInput, if_pos (by decide), restorable.reference]
      exact (restorable.referred.resolve_left none).symm
  · have same : ∀ described : Settings, (if truthy node.nodeReference then
        update described "node_reference" node.nodeReference else described) key =
          described key := by
      intro described
      split
      · exact update_of_ne isReference _ _
      · rfl
    rw [same]
    by_cases isDescription : key = "description"
    · rw [isDescription, update_self, restorable.description]
    · rw [update_of_ne isDescription]
      exact others key isDescription isReference

end

end

variable {flow : LiveFlow F}

theorem Restorable.restored {entry : Nat × LiveNode} {settings : Settings}
    (restorable : Restorable (flow.externalSchemas entry.1) entry.2 settings) :
    ∃ saved, flow.exportNode entry = some saved ∧ importNode saved = entry.2 ∧
      saved.id = entry.2.id ∧ saved.leftInputId = none ∧
      saved.rightInputId = entry.2.rightInputId ∧ saved.inputIds = entry.2.inputIds := by
  obtain ⟨id, node⟩ := entry
  refine ⟨_, by rw [LiveFlow.exportNode, restorable.exportedDescription,
    restorable.exportedReference, restorable.exportedSettings]; rfl, ?_, rfl, rfl, rfl, rfl⟩
  have description : (if truthy node.description then node.description else .text "") =
      node.description := by
    split
    · rfl
    case isFalse blank => exact (restorable.described.resolve_left blank).symm
  have reference : (if truthy node.nodeReference then node.nodeReference else .null) =
      node.nodeReference := by
    split
    · rfl
    case isFalse none => exact (restorable.referred.resolve_left none).symm
  have migrated := restorable.migrated
  have described := restorable.described_settings
  dsimp only at restorable migrated described
  rw [restorable.type] at migrated
  rw [importNode]
  dsimp only
  rw [description, reference, restorable.type, Option.map_some, migrated, described,
    Option.getD_some, Option.getD_some, restorable.x, restorable.y, ← restorable.left,
    ← restorable.present]

variable (nodes : Dictionary Nat LiveNode)

theorem importNodes_some (saved : List SavedNode) : importNodes nodes (saved.map some) =
      (nodes.setAll (saved.map fun node => (node.id, importNode node)), true) := by
  induction saved generalizing nodes with
  | nil => rfl
  | cons node rest ih =>
    rw [map_cons, importNodes, ih]
    rfl

theorem loadFromSnapshot_nodes (snap : FlowStateSnapshot F) (saved : List SavedNode)
    (nodes : snap.snapshot.nodes = saved.map some) (implicit : snap.snapshot.connections = [])
    (former : LiveFlow F) : loadFromSnapshot snap former =
      { nodes := Dictionary.empty.setAll (saved.map fun node => (node.id, importNode node))
        edges := deriveEdgesFromNodes (saved.map SavedNode.toFlowfileNode)
        nodeIdCounter := snap.nodeIdCounter
        fileContents := snap.fileContents
        externalSchemas := fun _ => none
        name := snap.name
        flowId := snap.flowId } := by
  have kept : (saved.map some).filterMap (fun node : Option SavedNode => node) = saved := by
    rw [filterMap_map]
    exact filterMap_some
  rw [loadFromSnapshot, importFromFlowfile, nodes, importNodes_some, implicit]
  dsimp only
  rw [kept]
  rfl

theorem mapM_exportNode {entries : List (Nat × LiveNode)}
    (keyed : ∀ entry ∈ entries, entry.2.id = entry.1)
    (each : ∀ entry ∈ entries,
      ∃ settings, Restorable (flow.externalSchemas entry.1) entry.2 settings) :
    ∃ saved, entries.mapM flow.exportNode = some saved ∧
      saved.map (fun node => (node.id, importNode node)) = entries ∧
      deriveEdgesFromNodes (saved.map SavedNode.toFlowfileNode) = entries.flatMap fun entry =>
        entry.2.rightInputId.toList.map (drawEdge entry.1 "input-1") ++
          entry.2.inputIds.map (drawEdge entry.1 "input-0") := by
  induction entries with
  | nil => exact ⟨[], rfl, rfl, rfl⟩
  | cons entry rest ih =>
    obtain ⟨settings, restorable⟩ := each entry mem_cons_self
    obtain ⟨first, exported, imported, id, left, right, inputs⟩ := restorable.restored
    obtain ⟨later, others, same, drawn⟩ := ih
      (fun other mem => keyed other (mem_cons_of_mem _ mem))
      (fun other mem => each other (mem_cons_of_mem _ mem))
    have key : first.id = entry.1 := id.trans (keyed entry mem_cons_self)
    refine ⟨first :: later, ?_, ?_, ?_⟩
    · rw [mapM_cons, exported, others]
      rfl
    · rw [map_cons, same, imported, key]
    · rw [flatMap_cons, ← drawn, map_cons, deriveEdgesFromNodes, flatMap_cons,
        ← deriveEdgesFromNodes, left, right, inputs, key]
      simp

structure Holds (snap : FlowStateSnapshot F) (flow : LiveFlow F) : Prop where
  readable : ∃ saved : List SavedNode, snap.snapshot.nodes = saved.map some
  implicit : snap.snapshot.connections = []
  blank : snap.snapshot.nodes = [] ↔ ∀ id, flow.nodes.get id = none
  name : snap.name = flow.name
  restored : ∀ former, Same (loadFromSnapshot snap former) flow

theorem entries_eq_nil_iff : nodes.entries = [] ↔ ∀ id, nodes.get id = none := by
  constructor
  · intro blank id
    rw [Dictionary.get, blank]
    rfl
  · intro absent
    refine eq_nil_iff_forall_not_mem.mpr fun entry mem => ?_
    have found : nodes.get entry.1 = some entry.2 := Dictionary.mem_entries_iff.mp mem
    rw [absent] at found
    cases found

/-- A flow that has nothing but what is saved of it comes back as it was. -/
theorem LiveFlow.Restorable.holds (restorable : flow.Restorable) :
    ∃ snap, flow.captureSnapshot = some snap ∧ Holds snap flow := by
  obtain ⟨saved, exported, nodes, drawn⟩ := mapM_exportNode restorable.keyed restorable.nodes
  refine ⟨⟨flow.name, flow.flowId, ⟨flow.name, saved.map some, []⟩, flow.fileContents,
    flow.nodeIdCounter⟩, ?_, ⟨saved, rfl⟩, rfl, ?_, rfl, fun former => ?_⟩
  · rw [LiveFlow.captureSnapshot, LiveFlow.exportToFlowfile, exported]
    rfl
  · rw [← entries_eq_nil_iff, ← nodes, map_eq_nil_iff, map_eq_nil_iff]
  · rw [loadFromSnapshot_nodes _ saved rfl rfl, nodes, drawn]
    exact ⟨fun id => Dictionary.get_setAll_entries flow.nodes id, restorable.edges, rfl, rfl, rfl,
      rfl⟩

namespace Same

variable {other further : LiveFlow F}

@[refl] theorem refl (flow : LiveFlow F) : Same flow flow :=
  ⟨fun _ => rfl, .refl _, rfl, rfl, rfl, rfl⟩

theorem trans (first : Same flow other) (second : Same other further) : Same flow further :=
  ⟨fun id => (first.nodes id).trans (second.nodes id), first.edges.trans second.edges,
    first.nodeIdCounter.trans second.nodeIdCounter, first.fileContents.trans second.fileContents,
    first.name.trans second.name, first.flowId.trans second.flowId⟩

theorem rename (same : Same flow other) (name : String) :
    Same { flow with name := name } { other with name := name } :=
  ⟨same.nodes, same.edges, same.nodeIdCounter, same.fileContents, rfl, same.flowId⟩

end Same

namespace Holds

variable {snap : FlowStateSnapshot F} {other : LiveFlow F}

theorem trans (holds : Holds snap flow) (same : Same flow other) : Holds snap other :=
  { holds with
    blank := holds.blank.trans (forall_congr' fun id => by rw [same.nodes id])
    name := holds.name.trans same.name
    restored former := (holds.restored former).trans same }

theorem rename (holds : Holds snap flow) (name : String) :
    Holds { snap with name := name } { flow with name := name } :=
  { holds with
    name := rfl
    restored former := by
      obtain ⟨saved, nodes⟩ := holds.readable
      have before := (holds.restored former).rename name
      rw [loadFromSnapshot_nodes snap saved nodes holds.implicit] at before
      rw [loadFromSnapshot_nodes { snap with name := name } saved nodes holds.implicit]
      exact before }

end Holds

end Flowfile.BrowserTabs
