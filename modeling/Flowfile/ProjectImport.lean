import Flowfile.ImportedRows

/-!
# Importing a project, step by step

After the files have become rows, an import that prunes removes the rows of the owner that no file
stands for. Rows that depend on a removed row go with it, whoever owns them. Rows are told apart by
their numbers.
-/

namespace Flowfile.Project

open Library.Documents Library.OwnedRows

variable [Machine] (ownerId : Nat)

variable (self : World)

def pruneKernels : World :=
  let kernels := self.database.kernels.filter fun row =>
    !decide (row.userId = ownerId ∧ row.id ∉ self.kept.kernelIds)
  { self with database.kernels := kernels }

def pruneDashboards : World :=
  let dashboards := self.database.dashboards.filter fun row =>
    !decide (row.createdBy = some ownerId ∧ row.dashboardUuid ∉ self.kept.dashboardUuids)
  { self with database.dashboards := dashboards }

def pruneVisualizations : World :=
  let visualizations := self.database.visualizations.filter fun row =>
    !decide (row.createdBy = some ownerId ∧ row.vizUuid ∉ self.kept.vizUuids)
  { self with database.visualizations := visualizations }

def pruneNotebooks : World :=
  let removed (row : CatalogNotebook) : Bool :=
    row.ownerId = ownerId ∧ row.notebookUuid ∉ self.kept.notebookUuids
  let gone := (self.database.notebooks.filter removed).map CatalogNotebook.notebookUuid
  { self with
    database.notebooks := self.database.notebooks.filter fun row => !removed row
    cells := Function.update self.cells ownerId fun key =>
      if key ∈ gone then [] else self.cells ownerId key }

/-- Mark models as deleted. -/
def pruneArtifacts : World :=
  let artifacts := self.database.artifacts.map fun row =>
    if row.ownerId = ownerId ∧ row.status = "active" ∧ row.id ∉ self.kept.artifactIds then
      { row with status := "deleted" }
    else row
  { self with database.artifacts := artifacts }

def deleteTable (table : CatalogTable) : World :=
  let tableFavorites := self.tableFavorites.filter fun row => row.tableId ≠ table.id
  let visualizations := self.database.visualizations.filter fun row =>
    row.catalogTableId ≠ some table.id
  let tables := self.database.tables.filter fun row =>
    !decide (row.id = table.id ∧ row.ownerId = table.ownerId)
  { self with
    database.visualizations := visualizations, database.tables := tables, tableFavorites }

/-- The tables that are removed. Those that flows make on demand stay. -/
def prunedTables : List CatalogTable :=
  self.database.tables.filter fun table =>
    table.ownerId = ownerId ∧ table.id ∉ self.kept.tableIds ∧
      ¬(table.tableType = "virtual" ∧ table.sqlQuery.getD "" = "")

def pruneTables : World :=
  (prunedTables ownerId self).foldl deleteTable self

variable (id : Nat)

def goneEndpoints : List Nat :=
  (self.endpoints.filter (·.registrationId = id)).map FlowApiEndpoint.id

def otherGrants : List ApiConsumerEndpoint :=
  self.endpointGrants.filter (·.endpointId ∉ goneEndpoints self id)

/-- The numbers of the consumers that were made for an endpoint of a flow and have no other. -/
def orphanedConsumers : List Nat :=
  let granted := (self.endpointGrants.filter (·.endpointId ∈ goneEndpoints self id)).map
    ApiConsumerEndpoint.consumerId
  (self.consumers.filter fun consumer => consumer.id ∈ granted ∧ consumer.isImplicit = true ∧
    consumer.id ∉ (otherGrants self id).map ApiConsumerEndpoint.consumerId).map ApiConsumer.id

def isGoneKey (key : FlowApiKey) : Bool :=
  key.endpointId.any (· ∈ goneEndpoints self id) ||
    key.consumerId.any (· ∈ orphanedConsumers self id)

variable (registration : FlowRegistration)

/-- The rows that depend on a flow go with it. Runs stay, but no longer belong to it. -/
def deleteFlowRows : World :=
  let id := registration.id
  let schedules := self.database.schedules.filter (·.registrationId ≠ id)
  let artifacts := self.database.artifacts.filter fun artifact =>
    !decide (artifact.sourceRegistrationId = id ∧ artifact.status = "deleted")
  let registrations := self.database.registrations.filter fun row =>
    !decide (row.id = id ∧ row.ownerId = registration.ownerId)
  { self with
    flowFavorites := self.flowFavorites.filter (·.registrationId ≠ id)
    flowFollows := self.flowFollows.filter (·.registrationId ≠ id)
    endpoints := self.endpoints.filter (·.registrationId ≠ id)
    endpointGrants := otherGrants self id
    apiKeys := self.apiKeys.filter fun key => !isGoneKey self id key
    consumers := self.consumers.filter (·.id ∉ orphanedConsumers self id)
    runs := self.runs.map fun run =>
      if run.registrationId = some id then { run with registrationId := none } else run
    database.schedules := schedules, database.artifacts := artifacts
    database.registrations := registrations }

def removeFlowFile (flowPath : String) : World :=
  if self.database.registrations.any (·.flowPath = flowPath) then self
  else { self with flowFile := Function.update self.flowFile (Machine.locate flowPath) none }

def releaseFlow : World :=
  let artifacts := self.database.artifacts.map fun row =>
    if row.sourceRegistrationId = registration.id ∧ row.status = "active" then
      { row with status := "deleted" }
    else row
  let schedules := self.database.schedules.filter (·.registrationId ≠ registration.id)
  { self with database.artifacts := artifacts, database.schedules := schedules }

def pruneFlow : World :=
  let released := releaseFlow self registration
  if released.database.artifacts.any fun row =>
      row.sourceRegistrationId = registration.id ∧ row.status ≠ "deleted" then released
  else removeFlowFile (deleteFlowRows released registration) registration.flowPath

def prunedFlows : List FlowRegistration :=
  self.database.registrations.filter fun row =>
    row.ownerId = ownerId ∧ row.flowUuid ∉ self.kept.flowUuids

def pruneFlows : World :=
  (prunedFlows ownerId self).foldl pruneFlow self

def deleteDatabaseConnection (name : String) : World :=
  match ownDatabaseConnection ownerId self name with
  | none => self
  | some conn =>
    let connections := self.database.databaseConnections.eraseP fun row =>
      row.connectionName = name ∧ row.userId = ownerId
    let secrets := self.database.secrets.filter fun secret => some secret.id ≠ conn.passwordId
    { self with
      database.databaseConnections := connections, database.secrets := secrets }

def prunedDatabaseConnections : List String :=
  (self.database.databaseConnections.filter fun row =>
    row.userId = ownerId ∧ row.connectionName ∉ self.kept.dbConnections).map
      DatabaseConnection.connectionName

def pruneDatabaseConnections : World :=
  (prunedDatabaseConnections ownerId self).foldl (deleteDatabaseConnection ownerId) self

def CloudStorageConnection.secretIds (self : CloudStorageConnection) : List Nat :=
  cloudSecrets.filterMap self.secretId ++ self.awsSessionTokenId.toList

def deleteCloudConnection (name : String) : World :=
  match ownCloudConnection ownerId self name with
  | none => self
  | some conn =>
    let connections := self.database.cloudConnections.eraseP fun row =>
      row.connectionName = name ∧ row.userId = ownerId
    let secrets := self.database.secrets.filter (·.id ∉ conn.secretIds)
    { self with
      database.cloudConnections := connections, database.secrets := secrets }

def prunedCloudConnections : List String :=
  (self.database.cloudConnections.filter fun row =>
    row.userId = ownerId ∧ row.connectionName ∉ self.kept.cloudConnections).map
      CloudStorageConnection.connectionName

def pruneCloudConnections : World :=
  (prunedCloudConnections ownerId self).foldl (deleteCloudConnection ownerId) self

def deleteNamespace (row : CatalogNamespace) : World :=
  if self.database.namespaces.any (·.parentId = some row.id) ||
      self.database.registrations.any (·.namespaceId = some row.id) ||
      self.database.tables.any (·.namespaceId = some row.id) ||
      self.database.notebooks.any (·.namespaceId = some row.id) then self
  else
    let namespaces := self.database.namespaces.filter fun other =>
      !decide (other.id = row.id ∧ other.ownerId = row.ownerId)
    { self with database.namespaces := namespaces }

/-- Remove namespaces, schemas first. Public ones stay. -/
def pruneNamespaces : World :=
  let rows := self.database.namespaces.filter fun row =>
    row.ownerId = ownerId ∧ row.isPublic = false ∧ row.id ∉ self.kept.namespaceIds
  (rows.filter (·.parentId.isSome) ++ rows.filter (·.parentId.isNone)).foldl deleteNamespace self

/-- What an import does at a time. -/
inductive Step where
  | secret (name : String)
  | databaseConnection (entry : DatabaseConnectionEntry)
  | cloudConnection (entry : CloudConnectionEntry)
  | catalogEntry (entry : NamespaceEntry)
  | flow (data : Dict)
  | schedules (file : ScheduleFile)
  | table (entry : TableEntry)
  | artifact (entry : ArtifactEntry)
  | kernel (entry : KernelEntry)
  | visualization (entry : VisualizationEntry)
  | dashboard (entry : DashboardEntry)
  | notebook (file : NotebookFile)
  | pruneKernels
  | pruneDashboards
  | pruneVisualizations
  | pruneNotebooks
  | pruneArtifacts
  | pruneTables
  | pruneFlows
  | pruneDatabaseConnections
  | pruneCloudConnections
  | pruneNamespaces

def Step.run : Step → Outcome
  | .secret name => .ok (importStandaloneSecret ownerId self name)
  | .databaseConnection entry => .ok (importDbConnection ownerId self entry)
  | .cloudConnection entry => .ok (importCloudConnection ownerId self entry)
  | .catalogEntry entry => importNamespace ownerId self entry
  | .flow data => importFlow ownerId self data
  | .schedules file => importSchedules ownerId self file
  | .table entry => importTable ownerId self entry
  | .artifact entry => importArtifact ownerId self entry
  | .kernel entry => .ok (importKernel ownerId self entry)
  | .visualization entry => .ok (importVisualization ownerId self entry)
  | .dashboard entry => importDashboard ownerId self entry
  | .notebook file => .ok (importNotebook ownerId self file)
  | .pruneKernels => .ok (Project.pruneKernels ownerId self)
  | .pruneDashboards => .ok (Project.pruneDashboards ownerId self)
  | .pruneVisualizations => .ok (Project.pruneVisualizations ownerId self)
  | .pruneNotebooks => .ok (Project.pruneNotebooks ownerId self)
  | .pruneArtifacts => .ok (Project.pruneArtifacts ownerId self)
  | .pruneTables => .ok (Project.pruneTables ownerId self)
  | .pruneFlows => .ok (Project.pruneFlows ownerId self)
  | .pruneDatabaseConnections => .ok (Project.pruneDatabaseConnections ownerId self)
  | .pruneCloudConnections => .ok (Project.pruneCloudConnections ownerId self)
  | .pruneNamespaces => .ok (Project.pruneNamespaces ownerId self)

/-- The files of a project, read. Malformed entries of connections are left out. -/
structure Tree where
  requiredSecrets : List String
  databaseConnections : List DatabaseConnectionEntry
  cloudConnections : List CloudConnectionEntry
  namespaces : List NamespaceEntry
  flows : List Dict
  schedules : List ScheduleFile
  trackDataArtifacts : Bool
  tables : List TableEntry
  models : List ArtifactEntry
  kernels : List KernelEntry
  visualizations : List VisualizationEntry
  dashboards : List DashboardEntry
  notebooks : List NotebookFile

/-- The steps that turn files into rows. -/
def Tree.importSteps (self : Tree) : List Step :=
  self.requiredSecrets.map .secret ++ self.databaseConnections.map .databaseConnection ++
    self.cloudConnections.map .cloudConnection ++ self.namespaces.map .catalogEntry ++
    self.flows.map .flow ++ self.schedules.map .schedules ++
    (if self.trackDataArtifacts then self.tables.map .table ++ self.models.map .artifact else []) ++
    self.kernels.map .kernel ++ self.visualizations.map .visualization ++
    self.dashboards.map .dashboard ++ self.notebooks.map .notebook

/-- The steps that remove rows. -/
def pruneSteps (trackDataArtifacts : Bool) : List Step :=
  [.pruneKernels, .pruneDashboards, .pruneVisualizations, .pruneNotebooks] ++
    (if trackDataArtifacts then [.pruneArtifacts, .pruneTables] else []) ++
    [.pruneFlows, .pruneDatabaseConnections, .pruneCloudConnections, .pruneNamespaces]

def Tree.steps (self : Tree) (prune : Bool) : List Step :=
  self.importSteps ++ if prune then pruneSteps self.trackDataArtifacts else []

/-- Do steps one after the other, until one fails. -/
def runSteps (steps : List Step) (self : World) : Outcome :=
  steps.foldlM (Step.run ownerId) self

/-- The installation as an import finds it, with nothing remembered. -/
def World.begin : World :=
  { self with resolved := [], kept := ⟨[], [], [], [], [], [], [], [], [], []⟩ }

def importProject (tree : Tree) (prune : Bool) (self : World) : Outcome :=
  runSteps ownerId (tree.steps prune) self.begin

end Flowfile.Project
