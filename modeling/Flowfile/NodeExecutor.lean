import Flowfile.HashCache

/-!
# When a node runs

The executor decides in one place whether a node runs and how. Output nodes and forced refreshes
always run. A node whose results are cached runs when the worker has no result under its hash. In
performance mode every other node runs; otherwise one that has run with its present setup is passed
over, unless it reads a file that has changed since.

Of a node the decision sees its settings and its hash. The worker and the files are given by a
context, and so is what an object was created with: the group of its template and its defaults.
-/

namespace Flowfile.Graph

variable {P : Type}

/-- How a node is executed. -/
inductive ExecutionStrategy where
  | skip
  | fullLocal
  | localWithSampling
  | remote
deriving DecidableEq

/-- Why a node needs to run. -/
inductive InvalidationReason where
  | neverRan
  | settingsChanged
  | sourceFileChanged
  | cacheMissing
  | forcedRefresh
  | outputNode
  | performanceMode

/-- Whether and how a node runs. -/
structure ExecutionDecision where
  shouldRun : Bool
  strategy : ExecutionStrategy
  reason : Option InvalidationReason

inductive ExecutionLocation where
  | inProcess
  | remote
deriving DecidableEq

structure FileStat where
  mtime : ℚ
  size : Nat

/-- State of a source file at the last run. -/
structure SourceFileInfo where
  path : String
  stat : FileStat

/-- The file that a reader was configured with. -/
structure ReceivedFile where
  absFilePath : Option String
  path : String

structure NodeExecutionState where
  hasRunWithCurrentSetup : Bool
  sourceFileInfo : Option SourceFileInfo

/-- What surrounds a node: group of its template, transform type of its defaults, the file in its
settings, the file system, and the results that the worker has. -/
structure ExecutionContext (P : Type) where
  nodeGroup : NodeRef → String
  transformType : NodeRef → Option String
  receivedFile : P → Option ReceivedFile
  stat : String → Option FileStat
  resultsExists : NodeHash P → Bool

/-- How the execution is asked for. -/
structure ExecutionRequest where
  runLocation : ExecutionLocation
  performanceMode : Bool
  forceRefresh : Bool
  optimizeForDownstream : Bool

/-- Whether a file differs from what was recorded. A missing file does. -/
def SourceFileInfo.hasChanged (stat : String → Option FileStat) (info : SourceFileInfo) : Bool :=
  match stat info.path with
  | none => true
  | some now => now.mtime ≠ info.stat.mtime || now.size ≠ info.stat.size

/-- Node types that always run in the process: their frames cannot be sent to the worker. -/
def geospatialTypes : List String := ["spatial_read", "spatial_join", "buffer_geometry"]

section

variable (context : ExecutionContext P) (graph : FlowGraph P) (ref : NodeRef)

def determineStrategy (runLocation : ExecutionLocation) : ExecutionStrategy :=
  if runLocation = .inProcess then .fullLocal
  else if geospatialTypes.contains (graph.heap ref).nodeType then .fullLocal
  else if (graph.heap ref).setting.cacheResults then .remote
  else if context.transformType ref = some "narrow" then .localWithSampling
  else .remote

def getSourcePath : Option String :=
  match ((graph.heap ref).setting.payload.bind context.receivedFile) with
  | none => none
  | some file =>
    match file.absFilePath with
    | none => some file.path
    | some path => if path ≠ "" then some path else some file.path

/-- Whether the source file of a reader has changed since its last run. -/
def sourceFileChanged (state : NodeExecutionState) : Bool :=
  if (graph.heap ref).nodeType ≠ "read" then false
  else
    match getSourcePath context graph ref with
    | none => false
    | some path =>
      if path = "" then false
      else (state.sourceFileInfo.map (SourceFileInfo.hasChanged context.stat)).getD false

/-- Whether and how a node runs. Only the check for a cached result asks for its hash. -/
def decideExecution (fuel : Nat) (hashes : Hashes P) (state : NodeExecutionState)
    (request : ExecutionRequest) : Option (ExecutionDecision × Hashes P) :=
  let run (reason : InvalidationReason) : ExecutionDecision :=
    ⟨true, determineStrategy context graph ref request.runLocation, some reason⟩
  let skip : ExecutionDecision := ⟨false, .skip, none⟩
  if context.nodeGroup ref = "output" then some (run .outputNode, hashes)
  else if request.forceRefresh then some (run .forcedRefresh, hashes)
  else if (graph.heap ref).setting.cacheResults then do
    let (hash, hashes) ← nodeHash graph fuel hashes ref
    some (if context.resultsExists hash then skip else run .cacheMissing, hashes)
  else if request.performanceMode then some (run .performanceMode, hashes)
  else if !state.hasRunWithCurrentSetup then some (run .neverRan, hashes)
  else if sourceFileChanged context graph ref state then some (run .sourceFileChanged, hashes)
  else some (skip, hashes)

/-- The decision that is carried out: a wide transform whose result is used further runs on the
worker. -/
def nextDecision (fuel : Nat) (hashes : Hashes P) (state : NodeExecutionState)
    (request : ExecutionRequest) : Option ExecutionDecision :=
  (decideExecution context graph ref fuel hashes state request).map fun (decision, _) =>
    if decision.shouldRun && decision.strategy = .localWithSampling &&
        context.transformType ref = some "wide" && request.optimizeForDownstream &&
        request.runLocation ≠ .inProcess then
      ⟨true, .remote, decision.reason⟩
    else decision

/-- Whether the cached hash of a node is out of date. -/
def needsReset [DecidableEq P] (fuel : Nat) (hashes : Hashes P) : Option Bool :=
  (calculateHash graph fuel hashes ref).map fun (current, _) => hashes ref ≠ some current

def settingsHash : NodeHash P := getHash [] (graph.heap ref).setting.digest

end

section

variable {graph other : FlowGraph P}

/-- Hashing reads the objects only. -/
theorem nodeHash_heap (same : other.heap = graph.heap) (fuel : Nat) :
    nodeHash other fuel = nodeHash graph fuel := by
  induction fuel with
  | zero => rfl
  | succ fuel ih =>
    funext hashes ref
    rw [nodeHash, nodeHash, ih, same]

/-- So does the check for an outdated hash. -/
theorem needsReset_heap [DecidableEq P] (same : other.heap = graph.heap) (ref : NodeRef)
    (fuel : Nat) (hashes : Hashes P) :
    needsReset other ref fuel hashes = needsReset graph ref fuel hashes := by
  simp only [needsReset, calculateHash, nodeHash_heap same, same]

theorem nextDecision_heap (context : ExecutionContext P) (same : other.heap = graph.heap) :
    nextDecision context other = nextDecision context graph := by
  funext ref fuel hashes state request
  have strategy : ∀ location, determineStrategy context other ref location =
      determineStrategy context graph ref location := by
    intro location
    simp only [determineStrategy, same]
  have changed : sourceFileChanged context other ref state =
      sourceFileChanged context graph ref state := by
    simp only [sourceFileChanged, getSourcePath, same]
  rw [nextDecision, nextDecision, decideExecution, decideExecution, nodeHash_heap same, same,
    changed]
  simp only [strategy]

end

/-- Equal hashes come from equal digests. -/
theorem getHash_inj (inputs : List (NodeHash P)) {first second : NodeSetting P} :
    getHash inputs first = getHash inputs second ↔ first = second := by
  induction inputs with
  | nil => simp [getHash]
  | cons input rest ih => simpa [getHash] using ih

end Flowfile.Graph
