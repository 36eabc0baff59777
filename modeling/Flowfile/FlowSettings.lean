import Flowfile.NodeExecutor
import Mathlib.Data.PNat.Notation

/-!
# Settings of a flow

A flow holds its settings, with its place, its name and what is going on. A serialised flow contains
some of them. Loading builds new settings from those. The others start anew.
-/

namespace Flowfile.Graph

@[ext]
structure FlowParameter where
  name : String
  defaultValue : String
  description : String

/-- How results are treated while a flow runs. -/
inductive ExecutionMode where
  | development
  | performance
deriving DecidableEq

/-- Workers of a flow that names no number of them. -/
def defaultWorkers : ℕ+ := ⟨4, by decide⟩

structure FlowSettings where
  flowId : Int
  description : Option String
  saveLocation : Option String
  name : String
  path : String
  sourceRegistrationId : Option Int
  executionMode : ExecutionMode
  executionLocation : ExecutionLocation
  maxParallelWorkers : ℕ+
  parameters : List FlowParameter
  autoSave : Bool
  modifiedOn : Option ℚ
  showDetailedProgress : Bool
  showEdgeLabels : Bool
  isRunning : Bool
  isCanceled : Bool
  trackHistory : Bool

@[ext]
structure FlowfileSettings where
  description : Option String
  executionMode : ExecutionMode
  executionLocation : ExecutionLocation
  autoSave : Bool
  showDetailedProgress : Bool
  maxParallelWorkers : ℕ+
  sourceRegistrationId : Option Int
  parameters : List FlowParameter

def FlowSettings.serialised (settings : FlowSettings) : FlowfileSettings where
  description := settings.description
  executionMode := settings.executionMode
  executionLocation := settings.executionLocation
  autoSave := settings.autoSave
  showDetailedProgress := settings.showDetailedProgress
  maxParallelWorkers := settings.maxParallelWorkers
  sourceRegistrationId := settings.sourceRegistrationId
  parameters := settings.parameters

variable (offloadToWorker : Bool)

/-- The location a flow may have where nothing is handed to the worker. -/
def prioExecutionLocation (location : ExecutionLocation) : ExecutionLocation :=
  if offloadToWorker then location else .inProcess

/-- New settings from serialised ones, with the defaults of all other fields. -/
def FlowfileSettings.flowSettings (flowfileId : Int)
    (flowfileName : String) (settings : FlowfileSettings) : FlowSettings where
  flowId := flowfileId
  description := settings.description
  saveLocation := none
  name := flowfileName
  path := ""
  sourceRegistrationId := settings.sourceRegistrationId
  executionMode := settings.executionMode
  executionLocation := prioExecutionLocation offloadToWorker settings.executionLocation
  maxParallelWorkers := settings.maxParallelWorkers
  parameters := settings.parameters
  autoSave := settings.autoSave
  modifiedOn := none
  showDetailedProgress := settings.showDetailedProgress
  showEdgeLabels := false
  isRunning := false
  isCanceled := false
  trackHistory := true

end Flowfile.Graph
