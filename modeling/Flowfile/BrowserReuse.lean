import Flowfile.BrowserStore
import Flowfile.Library.GraphWalks
import Mathlib.Logic.Function.Basic

/-!
# Reuse of built frames in the browser

Each node has at most one frame in the engine, built from its settings, its file and the frames of
its inputs. An edit marks the node it changes and all nodes downstream as dirty. Running a node with
what lies upstream builds the frames that are missing or dirty and reuses all others.

Edits fall between the awaits of an execution, and executions overlap. A frame that is reused is
current in every run in which a frame that is left without a mark was built from what is current
then, a removed node is not an input of a clean frame, settings are written without a mark only
where no clean frame was built from others, and no chain is walked while a full run clears
everything.
-/

namespace Flowfile.BrowserReuse

open Function

open BrowserStore Library.Dictionaries Library.EventRuns Library.GraphWalks Library.PartialLists

inductive Frame (S F : Type)
  | mk (settings : S) (file : Option F) (inputs : List (Frame S F))

/-- Types of nodes that are built from a file. -/
def sourceTypes : List String :=
  ["read", "manual_input", "external_data", "read_from_catalog"]

/-- Types of nodes that are built from their first input. -/
def singleInputTypes : List String :=
  ["filter", "select", "group_by", "sort", "record_id", "unique", "head", "explore_data", "pivot",
    "unpivot", "formula", "dynamic_rename", "output", "external_output", "write_to_catalog"]

def present (inputId : Option Nat) : Option Nat :=
  inputId.filter fun id => id ≠ 0

/-- The inputs whose frames a node is built from; a node that lacks one is not built. -/
def executorInputs (node : FlowNode) : Option (List Nat) :=
  if node.type ∈ sourceTypes then some []
  else if node.type ∈ singleInputTypes then
    (present node.inputIds.head?).map fun inputId => [inputId]
  else if node.type ∈ ["join", "cross_join"] then
    ((present node.leftInputId).or (present node.inputIds.head?)).bind fun leftId =>
      (present node.rightInputId).map fun rightId => [leftId, rightId]
  else if node.type = "union" then
    if node.inputIds.isEmpty then none else some node.inputIds
  else if node.type = "polars_code" then some node.inputIds
  else none

/-- The inputs by which nodes are ordered. -/
def dependencies (node : FlowNode) : List Nat :=
  node.inputIds ++ ((present node.leftInputId).toList ++ (present node.rightInputId).toList)

/-- What a node is built from, its inputs by their ids. -/
structure Recipe (S F : Type) where
  settings : S
  file : Option F
  inputs : List Nat

variable (flow : FlowStore)

def nodeDependencies (id : Nat) : Option (List Nat) :=
  (flow.nodes.get id).map dependencies

def walkNodes (checked : Bool) : Option (List Nat × List Nat) :=
  (flow.nodes.entries.map Prod.fst).foldlM
    (walk (nodeDependencies flow) checked (flow.nodes.entries.length + 1) []) ([], [])

def detectCycle : Bool :=
  (walkNodes flow true).isNone

/-- Every node after its inputs; with a cycle an error is raised. -/
def getExecutionOrder : Option (List Nat) :=
  if detectCycle flow then none else (walkNodes flow false).map Prod.snd

def getAncestorChain (id : Nat) : Option (List Nat) :=
  let needed := downstream
    (flow.nodes.entries.flatMap fun entry => (dependencies entry.2).map fun inputId =>
      (entry.1, inputId)) id
  (getExecutionOrder flow).map fun order => order.filter fun id => id ∈ needed

/-- What an execution holds of the node that it is at. The settings are those of the node in the
store, unless that has been replaced since: then they are the ones it had last. -/
structure Task (S : Type) where
  id : Nat
  type : String
  inputs : List Nat
  detached : Option S

/-- What an execution waits for. -/
inductive Phase (S F : Type)
  | cleaning (nodeIds : List Nat)
  | clearing
  | cleared
  | listing
  | between
  | reading (task : Task S)
  | decoding (task : Task S) (file : Option F)
  | running (task : Task S) (file : Option F) (settings : S)
  | stored (id : Nat)

/-- A run of nodes. One that reuses frames knows which had been built when it began. -/
structure Execution (S F : Type) where
  built : Option (Nat → Bool)
  rest : List Nat
  phase : Phase S F

structure LiveStore (S F : Type) where
  flow : FlowStore
  settings : Nat → Option S
  fileContents : Nat → Option F
  dirtyNodes : List Nat
  lazyframes : Nat → Option (Frame S F)
  executions : Nat → Option (Execution S F)

variable {S F : Type}

def LiveStore.empty : LiveStore S F :=
  ⟨.empty, fun _ => none, fun _ => none, [], fun _ => none, fun _ => none⟩

instance (flow : FlowStore) (id : Nat) : Decidable (flow.Has id) :=
  inferInstanceAs (Decidable ((flow.nodes.get id).isSome = true))

inductive Edit (S F : Type)
  | addNode (type : String) (settings : S)
  | removeNode (id : Nat)
  | addEdge (edge : FlowEdge)
  | removeEdge (edgeId : String)
  /-- Move a node: it is replaced by a copy. -/
  | updateNode (id : Nat)
  | updateNodeSettings (id : Nat) (settings : S)
  /-- Replace a node by a copy with other settings. -/
  | updateNodeSettingsSilent (id : Nat) (settings : S)
  /-- Change the settings of a node in place: its description, its reference, the name of its file
  or what follows from the schema of its input. -/
  | writeSettings (id : Nat) (settings : S)
  | setFileContent (id : Nat) (content : F)

/-- The node that a task holds is no longer the one in the store. -/
def Task.detach (id : Nat) (settings : Option S) (task : Task S) : Task S :=
  if task.id = id ∧ task.detached.isNone then { task with detached := settings } else task

def Phase.detach (id : Nat) (settings : Option S) : Phase S F → Phase S F
  | .reading task => .reading (task.detach id settings)
  | .decoding task file => .decoding (task.detach id settings) file
  | phase => phase

def links : List (Nat × Nat) :=
  flow.edges.map fun edge => (edge.source, edge.target)

namespace LiveStore

variable (store : LiveStore S F) (id : Nat)

/-- Mark a node and all that lie downstream of it, by the edges of the flow. -/
def invalidatePreviewCache (flow : FlowStore) (id : Nat) : LiveStore S F :=
  { store with dirtyNodes := downstream (links flow) id ++ store.dirtyNodes }

/-- Executions go on with the node as it was. -/
def detach (settings : Option S) : LiveStore S F :=
  { store with
    executions := fun job => (store.executions job).map fun execution =>
      { execution with phase := execution.phase.detach id settings } }

def writeSettings (settings : S) : LiveStore S F :=
  if store.flow.Has id then
    { store with settings := update store.settings id (some settings) }
  else store

def addNode (type : String) (settings : S) : LiveStore S F :=
  { store with
    flow := store.flow.addNode type
    settings := update store.settings (store.flow.nodeIdCounter + 1) (some settings) }

def removeNode : LiveStore S F :=
  { store.detach id (store.settings id) with
    flow := store.flow.removeNode id
    settings := update store.settings id none
    fileContents := update store.fileContents id none
    dirtyNodes := store.dirtyNodes.filter fun other => other ≠ id }

def addEdge (edge : FlowEdge) : LiveStore S F :=
  let added := { store with flow := store.flow.addEdge edge }
  if (store.flow.edges.map FlowEdge.ends).contains edge.ends then store
  else if store.flow.Has edge.target then added.invalidatePreviewCache added.flow edge.target
  else added

/-- Nodes are marked before the edge is gone. -/
def removeEdge (edgeId : String) : LiveStore S F :=
  let removed := { store with flow := store.flow.removeEdge edgeId }
  match store.flow.edges.find? fun edge => edge.id = edgeId with
  | some edge =>
    if store.flow.Has edge.target then removed.invalidatePreviewCache store.flow edge.target
    else removed
  | none => store

def updateNodeSettings (settings : S) : LiveStore S F :=
  if store.flow.Has id then
    (store.writeSettings id settings).invalidatePreviewCache store.flow id
  else store

def setFileContent (content : F) : LiveStore S F :=
  { store with fileContents := update store.fileContents id (some content) }
    |>.invalidatePreviewCache store.flow id

def edit : Edit S F → LiveStore S F
  | .addNode type settings => store.addNode type settings
  | .removeNode id => store.removeNode id
  | .addEdge edge => store.addEdge edge
  | .removeEdge edgeId => store.removeEdge edgeId
  | .updateNode id => store.detach id (store.settings id)
  | .updateNodeSettings id settings => store.updateNodeSettings id settings
  | .updateNodeSettingsSilent id settings =>
    (store.writeSettings id settings).detach id (some settings)
  | .writeSettings id settings => store.writeSettings id settings
  | .setFileContent id content => store.setFileContent id content

end LiveStore

/-- How an await ends. An output whose file cannot be made is marked when it fails. -/
inductive Reply
  | done
  | failed
  | failedMarked
deriving DecidableEq

inductive Event (S F : Type)
  | edit (edit : Edit S F)
  | executeFlow (job : Nat)
  | executeNodeWithUpstream (job id : Nat)
  /-- Build one node; schemas are propagated in this way too. -/
  | executeNode (job id : Nat)
  | resume (job : Nat) (reply : Reply)

namespace LiveStore

variable (store : LiveStore S F) (job : Nat)

def put (execution : Option (Execution S F)) : LiveStore S F :=
  { store with executions := update store.executions job execution }

variable (execution : Execution S F)

/-- A node could not be built: a chain ends there, a full run goes on. -/
def failNode : LiveStore S F :=
  store.put job
    (if execution.built.isSome then none else some { execution with phase := .between })

variable (id : Nat)

/-- Begin to build a node. -/
def startNode : LiveStore S F :=
  match store.flow.nodes.get id with
  | none => store.failNode job execution
  | some node =>
    match executorInputs node with
    | none => store.failNode job execution
    | some inputs => store.put job
        (some { execution with phase := .reading ⟨id, node.type, inputs, none⟩ })

/-- A node that was built when the execution began and is clean is not built again. -/
def reusable (built : Option (Nat → Bool)) (id : Nat) : Bool :=
  match built with
  | some ids => ids id && decide (id ∉ store.dirtyNodes)
  | none => false

/-- Pass over the nodes that are reused and begin with the next. -/
def next : LiveStore S F :=
  match execution.rest.dropWhile (store.reusable execution.built) with
  | [] => store.put job none
  | id :: rest => store.startNode job { execution with rest := rest } id

variable (task : Task S)

def readFile : LiveStore S F :=
  if task.type ∈ sourceTypes then
    if (store.fileContents task.id).isNone then store.failNode job execution
    else store.put job
      (some { execution with phase := .decoding task (store.fileContents task.id) })
  else store.put job (some { execution with phase := .decoding task none })

/-- Hand the settings to the engine. -/
def runExecutor (file : Option F) : LiveStore S F :=
  match task.detached.or (store.settings task.id) with
  | none => store.failNode job execution
  | some settings => store.put job (some { execution with phase := .running task file settings })

def storeLazyframe (frame : Frame S F) : LiveStore S F :=
  { store with lazyframes := update store.lazyframes id (some frame) }

/-- The engine builds the frame of the node, if it has those of its inputs. -/
def execute (file : Option F)
    (settings : S) : LiveStore S F :=
  match task.inputs.mapM store.lazyframes with
  | none => store.failNode job execution
  | some frames =>
    (store.storeLazyframe task.id ⟨settings, file, frames⟩).put job
      (some { execution with phase := .stored task.id })

/-- A node that was built is clean. -/
def finish : Reply → LiveStore S F
  | .done =>
    { store with dirtyNodes := store.dirtyNodes.filter fun other => other ≠ id }
    |>.put job (some { execution with phase := .between })
  | .failed => store.failNode job execution
  | .failedMarked =>
    { store with dirtyNodes := id :: store.dirtyNodes } |>.failNode job execution

/-- What an execution does when the await it is at ends. -/
def proceed (reply : Reply) : LiveStore S F :=
  match execution.phase with
  | .cleaning nodeIds =>
    if reply = .done then
      { store with
        lazyframes := fun id => if id ∈ nodeIds then store.lazyframes id else none }
      |>.put job (some { execution with phase := .clearing })
    else store.put job none
  | .clearing =>
    if reply = .done then
      { store with lazyframes := fun _ => none }
      |>.put job (some { execution with phase := .cleared })
    else store.put job none
  | .cleared => store.put job
      ((getExecutionOrder store.flow).map fun order =>
        { execution with rest := order, phase := .between })
  | .listing => store.put job (some { execution with
      built := some fun id => decide (reply = .done) && (store.lazyframes id).isSome
      phase := .between })
  | .between => store.next job execution
  | .reading task =>
    if reply = .done then store.readFile job execution task else store.failNode job execution
  | .decoding task file =>
    if reply = .done then store.runExecutor job execution task file
    else store.failNode job execution
  | .running task file settings =>
    if reply = .done then store.execute job execution task file settings
    else store.failNode job execution
  | .stored id => store.finish job execution id reply

def resume (reply : Reply) : LiveStore S F :=
  match store.executions job with
  | none => store
  | some execution => store.proceed job execution reply

/-- All marks are gone before the frames are. -/
def executeFlow : LiveStore S F :=
  { store with
    dirtyNodes := []
    fileContents := fun id => if store.flow.Has id then store.fileContents id else none }
  |>.put job (some ⟨none, [], .cleaning (store.flow.nodes.entries.map Prod.fst)⟩)

def executeNodeWithUpstream (job id : Nat) : LiveStore S F :=
  match getAncestorChain store.flow id with
  | none => store
  | some chain => store.put job (some ⟨some fun _ => false, chain, .listing⟩)

/-- An execution begins under a number that no other has. -/
def step : Event S F → LiveStore S F
  | .edit edit => store.edit edit
  | .executeFlow job => if (store.executions job).isSome then store else store.executeFlow job
  | .executeNodeWithUpstream job id =>
    if (store.executions job).isSome then store else store.executeNodeWithUpstream job id
  | .executeNode job id =>
    if (store.executions job).isSome then store
    else store.startNode job ⟨none, [], .between⟩ id
  | .resume job reply => store.resume job reply

end LiveStore

namespace LiveStore

variable (store : LiveStore S F) (id : Nat)

/-- What a node would be built from now. -/
def recipe : Option (Recipe S F) :=
  (store.flow.nodes.get id).bind fun node => (store.settings id).bind fun settings =>
    (executorInputs node).map fun inputs =>
      ⟨settings, if node.type ∈ sourceTypes then store.fileContents id else none, inputs⟩

/-- The inputs a node would be built from now. -/
def inputs : List Nat :=
  ((store.recipe id).map Recipe.inputs).getD []

def build (recipe : Recipe S F) : Option (Frame S F) :=
  (recipe.inputs.mapM store.lazyframes).map (Frame.mk recipe.settings recipe.file)

/-- The frame that would be built of a node now. -/
def fresh : Option (Frame S F) :=
  (store.recipe id).bind store.build

/-- A node is current when its frame was built from its settings, its file and the frames of its
inputs as they are, and its inputs are current. -/
inductive Current : Nat → Prop
  | intro {id : Nat} {frame : Frame S F} (stored : store.lazyframes id = some frame)
      (fresh : store.fresh id = some frame) (inputs : ∀ input ∈ store.inputs id, Current input) :
      Current id

/-- The nodes whose frames an execution reuses when it goes on. -/
def reused (job : Nat) : List Nat :=
  match store.executions job with
  | some ⟨built, rest, .between⟩ => rest.takeWhile (store.reusable built)
  | _ => []

def ReusesCurrent (event : Event S F) : Prop :=
  ∀ job reply, event = .resume job reply → ∀ id ∈ store.reused job, store.Current id

def clears (execution : Option (Execution S F)) : Bool :=
  execution.any fun execution => match execution.phase with
    | .cleaning _ | .clearing => true
    | _ => false

/-- A full run has begun and not yet cleared the frames. -/
def Clearing : Prop :=
  ∃ job, clears (store.executions job)

/-- A node whose frame counts as current. -/
structure Trusted (id : Nat) : Prop where
  has : store.flow.Has id
  built : (store.lazyframes id).isSome
  clean : id ∉ store.dirtyNodes
  settled : ¬store.Clearing

/-- A removed node is not an input of a clean frame and not ahead in a chain; the id of an edge is
not that of an edge between other nodes; settings are written without a mark only where they stay
as they are or the frame does not count. -/
def KeepsEdit : Edit S F → Prop
  | .removeNode id => (∀ reader, store.Trusted reader → id ∉ store.inputs reader) ∧
      ∀ job execution, store.executions job = some execution → execution.built.isSome →
        id ∉ execution.rest
  | .addEdge edge => ∀ other ∈ store.flow.edges, other.id = edge.id →
      other.source = edge.source ∧ other.target = edge.target
  | .updateNodeSettingsSilent id settings | .writeSettings id settings =>
      store.settings id = some settings ∨ ¬store.Trusted id
  | _ => True

/-- Where clearing fails there is nothing to clear; a frame that is stored without a mark, or loses
its mark, is the one that would be built now, of inputs that count as current; an output that is
marked when it fails is not an input of a clean frame. -/
def KeepsProceed (phase : Phase S F) (reply : Reply) : Prop :=
  match phase, reply with
  | .cleaning _, reply | .clearing, reply => reply ≠ .done →
      ∀ id, store.flow.Has id → id ∉ store.dirtyNodes → store.lazyframes id = none
  | .running task file settings, .done =>
    store.flow.Has task.id → task.id ∉ store.dirtyNodes → ¬store.Clearing →
      (task.inputs.mapM store.lazyframes).isSome →
        store.recipe task.id = some ⟨settings, file, task.inputs⟩ ∧
          ∀ input ∈ task.inputs, store.Trusted input
  | .stored id, .done =>
    store.flow.Has id → id ∈ store.dirtyNodes → ¬store.Clearing → (store.lazyframes id).isSome →
        store.lazyframes id = store.fresh id ∧ ∀ input ∈ store.inputs id, store.Trusted input
  | .stored id, .failedMarked => ∀ reader, store.Trusted reader → id ∉ store.inputs reader
  | _, _ => True

/-- No full run begins while a chain is walked, and no chain is walked while a full run clears. -/
def Keeps : Event S F → Prop
  | .edit edit => store.KeepsEdit edit
  | .executeFlow _ => ∀ job execution, store.executions job = some execution →
      execution.built = none
  | .executeNodeWithUpstream _ _ => ¬store.Clearing
  | .executeNode _ _ => True
  | .resume job reply => ∀ execution, store.executions job = some execution →
      store.KeepsProceed execution.phase reply

end LiveStore

end Flowfile.BrowserReuse
