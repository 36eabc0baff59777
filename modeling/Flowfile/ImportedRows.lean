import Flowfile.Library.OwnedRows
import Flowfile.Projection

/-!
# Importing a project

The files of a project become rows of its owner. Each kind of row has a lookup of its own, by which
an import finds the row that it changes; where there is none, a new row is made. Flows also have
files, at the path of their registration or at one derived from their name and identifier.

An import goes through the files one after the other. A step may fail in its course, which ends
the import there.
-/

namespace Flowfile.Project

open Library.Documents Library.OwnedRows
open Library.PythonText (strip)

structure FlowBookmark where
  userId : Nat
  registrationId : Nat

structure FlowApiEndpoint where
  id : Nat
  registrationId : Nat
  ownerId : Nat

structure ApiConsumerEndpoint where
  consumerId : Nat
  endpointId : Nat

structure FlowApiKey where
  id : Nat
  consumerId : Option Nat
  endpointId : Option Nat
  ownerId : Nat

structure ApiConsumer where
  id : Nat
  ownerId : Nat
  isImplicit : Bool

structure FlowRun where
  id : Nat
  registrationId : Option Nat
  userId : Nat

structure TableFavorite where
  userId : Nat
  tableId : Nat

/-- What an import has found or made of each kind. -/
structure KeptResources where
  flowUuids : List String
  dbConnections : List String
  cloudConnections : List String
  namespaceIds : List Nat
  tableIds : List Nat
  artifactIds : List Nat
  kernelIds : List String
  vizUuids : List String
  dashboardUuids : List String
  notebookUuids : List String

/-- The database, the flow files by their locations, the cells of notebooks by owner and notebook,
and what an import remembers: identifiers made so far, resolved namespaces and what it keeps. -/
structure World where
  database : Database
  flowFavorites : List FlowBookmark
  flowFollows : List FlowBookmark
  endpoints : List FlowApiEndpoint
  endpointGrants : List ApiConsumerEndpoint
  apiKeys : List FlowApiKey
  consumers : List ApiConsumer
  runs : List FlowRun
  tableFavorites : List TableFavorite
  flowFile : String → Option Dict
  cells : Nat → String → List NotebookCell
  minted : Nat
  resolved : List ((String × Option String) × Option Nat)
  kept : KeptResources

/-- What the machine contributes: where paths lead, new identifiers, values from the environment,
encryption, secrets that groups share with a user, and the checks of loaders and validators. -/
class Machine where
  flowsDirectory : String
  locate : String → String
  freshUuid : Nat → String
  resolve : String → Option String
  encrypt : String → Nat → String
  decrypt : String → String
  grantedSecrets : Nat → List Nat
  loadsFlow : Dict → Bool
  validSchedule : FlowSchedule → Bool
  tablePath : Dict → Option String
  validLayout : Dict → Option Dict
  isUuid : String → Bool

/-- An import goes on, or it has failed and leaves what it has done. -/
abbrev Outcome := Except World World

/-- The installation afterwards. -/
def Outcome.world : Outcome → World
  | .ok world => world
  | .error world => world

/-- The number of a new row. -/
def nextId (ids : List Nat) : Nat :=
  ids.foldr max 0 + 1

variable [Machine] (ownerId : Nat)

def placeholderName (value : String) : Option String :=
  match (strip value).toList with
  | '$' :: '\x7b' :: 's' :: 'e' :: 'c' :: 'r' :: 'e' :: 't' :: ':' :: rest =>
    let name := rest.dropLast
    if rest.getLast? = some '\x7d' ∧ name ≠ [] ∧ '\x7d' ∉ name then some (.ofList name) else none
  | _ => none

variable (self : World) (name : String)

def encryptedSecret : Option String :=
  let own := self.database.secrets.find? fun secret =>
    secret.userId = ownerId ∧ secret.name = name
  let shared := self.database.secrets.find? fun secret =>
    secret.name = name ∧ secret.id ∈ Machine.grantedSecrets ownerId
  (own.or shared).map Secret.encryptedValue

/-- The value of a secret: from the environment, stored or empty. -/
def resolveSecretValue : String :=
  (Machine.resolve name).getD (((encryptedSecret ownerId self name).map Machine.decrypt).getD "")

/-- Store a new secret. The result is its number. -/
def storeSecret (value : String) : World × Nat :=
  let id := nextId (self.database.secrets.map Secret.id)
  ({ self with database.secrets :=
      self.database.secrets ++ [⟨id, name, ownerId, Machine.encrypt value ownerId⟩] }, id)

/-- Give a secret, found by its number, another value. -/
def updateSecret (id : Nat) (value : String) : World :=
  let secrets := replaceFirst (fun secret => decide (secret.id = id))
    (fun secret => { secret with encryptedValue := Machine.encrypt value ownerId })
    self.database.secrets
  { self with database.secrets := secrets }

def importStandaloneSecret : World :=
  if (encryptedSecret ownerId self name).isSome then self
  else (storeSecret ownerId self name ((Machine.resolve name).getD "")).1

structure DatabaseConnectionEntry where
  connectionName : String
  databaseType : String
  host : Option String
  port : Option Int
  database : Option String
  username : String
  sslEnabled : Bool
  password : Option String

/-- A secret that a connection refers to gets another value, unless it is empty. Where there is no
such secret, a new one is stored. The result is the number to refer to. -/
def updateConnectionSecret (existing : Option Nat) (value name : String) : World × Option Nat :=
  if value = "" then (self, existing)
  else
    match existing.bind self.database.secret with
    | some secret => (updateSecret ownerId self secret.id value, existing)
    | none =>
      let stored := storeSecret ownerId self name value
      (stored.1, some stored.2)

def ownDatabaseConnection : Option DatabaseConnection :=
  self.database.databaseConnections.find? fun conn =>
    conn.connectionName = name ∧ conn.userId = ownerId

variable (entry : DatabaseConnectionEntry)

def DatabaseConnectionEntry.apply (conn : DatabaseConnection) : DatabaseConnection :=
  { conn with
    host := entry.host, port := entry.port, database := entry.database
    databaseType := some entry.databaseType, username := some entry.username
    sslEnabled := some entry.sslEnabled }

def importDbConnection : World :=
  let name := entry.connectionName
  let secretName := (entry.password.bind placeholderName).getD name
  let value := resolveSecretValue ownerId self secretName
  let imported :=
    match ownDatabaseConnection ownerId self name with
    | some conn =>
      let secret := updateConnectionSecret ownerId self conn.passwordId value name
      let connections := replaceFirst
        (fun (row : DatabaseConnection) =>
          decide (row.connectionName = name ∧ row.userId = ownerId))
        (fun row => { entry.apply row with passwordId := secret.2 })
        self.database.databaseConnections
      { secret.1 with database.databaseConnections := connections }
    | none =>
      let stored := storeSecret ownerId self name value
      let id := nextId (self.database.databaseConnections.map DatabaseConnection.id)
      { stored.1 with database.databaseConnections := self.database.databaseConnections ++
          [entry.apply ⟨id, name, none, none, none, none, none, none, some stored.2, ownerId⟩] }
  { imported with kept.dbConnections := self.kept.dbConnections ++ [name] }

structure CloudConnectionEntry where
  connectionName : String
  storageType : String
  authMethod : String
  plain : CloudPlainField → Value
  secret : CloudSecretField → Option String

def cloudSecretName (connectionName : String) : CloudSecretField → String
  | .awsSecretAccessKey => connectionName ++ "_aws_secret_access_key"
  | .azureAccountKey => connectionName ++ "azure_account_key"
  | .azureClientSecret => connectionName ++ "azure_client_secret"
  | .azureSasToken => connectionName ++ "_azure_sas_token"
  | .gcsServiceAccountKey => connectionName ++ "_gcs_service_account_key"

/-- Go through the secrets of a cloud connection. The result says which numbers to refer to. -/
def cloudSecretSteps (step : World → CloudSecretField → Option Nat → World × Option Nat)
    (fields : List CloudSecretField) (self : World) (secretId : CloudSecretField → Option Nat) :
    World × (CloudSecretField → Option Nat) :=
  fields.foldl (fun state field =>
    let after := step state.1 field (state.2 field)
    (after.1, Function.update state.2 field after.2)) (self, secretId)

def CloudConnectionEntry.apply (entry : CloudConnectionEntry) (conn : CloudStorageConnection) :
    CloudStorageConnection :=
  { conn with
    storageType := entry.storageType, authMethod := entry.authMethod, plain := entry.plain }

def ownCloudConnection : Option CloudStorageConnection :=
  self.database.cloudConnections.find? fun conn =>
    conn.connectionName = name ∧ conn.userId = ownerId

def importCloudConnection (entry : CloudConnectionEntry) : World :=
  let name := entry.connectionName
  let value (field : CloudSecretField) : Option String :=
    ((entry.secret field).bind placeholderName).map (resolveSecretValue ownerId self)
  let imported :=
    match ownCloudConnection ownerId self name with
    | some conn =>
      let secrets := cloudSecretSteps
        (fun state field existing => updateConnectionSecret ownerId state existing
          ((value field).getD "") (cloudSecretName name field))
        [.awsSecretAccessKey, .azureAccountKey, .azureClientSecret, .azureSasToken,
          .gcsServiceAccountKey] self conn.secretId
      let connections := replaceFirst
        (fun (row : CloudStorageConnection) =>
          decide (row.connectionName = name ∧ row.userId = ownerId))
        (fun row => { entry.apply row with secretId := secrets.2 })
        self.database.cloudConnections
      { secrets.1 with database.cloudConnections := connections }
    | none =>
      let secrets := cloudSecretSteps
        (fun state field existing =>
          match value field with
          | some value =>
            let stored := storeSecret ownerId state (cloudSecretName name field) value
            (stored.1, some stored.2)
          | none => (state, existing))
        [.awsSecretAccessKey, .azureClientSecret, .azureAccountKey, .azureSasToken,
          .gcsServiceAccountKey] self fun _ => none
      let id := nextId (self.database.cloudConnections.map CloudStorageConnection.id)
      { secrets.1 with database.cloudConnections := self.database.cloudConnections ++
          [entry.apply ⟨id, name, "", "", entry.plain, secrets.2, none, ownerId⟩] }
  { imported with kept.cloudConnections := self.kept.cloudConnections ++ [name] }

variable (parentId : Option Nat)

def namespaceByName : Option CatalogNamespace :=
  self.database.namespaces.find? fun row => row.name = name ∧ row.parentId = parentId

def ownOrPublicNamespace : Option CatalogNamespace :=
  let own := self.database.namespaces.find? fun row =>
    row.name = name ∧ row.parentId = parentId ∧ row.ownerId = ownerId
  own.or (self.database.namespaces.find? fun row =>
    row.name = name ∧ row.parentId = parentId ∧ row.isPublic = true)

/-- Look up a place, without making anything. Answers are remembered. -/
def resolveNamespace (catalogName : String) (schemaName : Option String) : World × Option Nat :=
  match self.resolved.lookup (catalogName, schemaName) with
  | some answer => (self, answer)
  | none =>
    let answer := do
      let catalog ← ownOrPublicNamespace ownerId self catalogName none
      match schemaName with
      | none => return catalog.id
      | some schema => return (← ownOrPublicNamespace ownerId self schema (some catalog.id)).id
    ({ self with resolved := self.resolved ++ [((catalogName, schemaName), answer)] }, answer)

def resolveEntryNamespace (place : Dict) : World × Option Nat :=
  match (place.get "catalog").filledText with
  | some catalog => resolveNamespace ownerId self catalog (place.get "schema").filledText
  | none => (self, none)

variable (description : Option String) (isPublic : Bool)

def createNamespace
    : Except World (World × CatalogNamespace) :=
  if '.' ∈ name.toList then .error self
  else
    match namespaceByName self name parentId with
    | some existing => .ok (self, existing)
    | none =>
      let id := nextId (self.database.namespaces.map CatalogNamespace.id)
      let row : CatalogNamespace := ⟨id, name, parentId, description, ownerId, isPublic⟩
      .ok ({ self with database.namespaces := self.database.namespaces ++ [row] }, row)

def findOrCreateCatalog
    : Except World (World × CatalogNamespace) :=
  match ownOrPublicNamespace ownerId self name none with
  | some catalog => .ok (self, catalog)
  | none => createNamespace ownerId self name none description isPublic

def findOrCreateSchema (catalog : CatalogNamespace) (name : String)
    (description : Option String) (isPublic : Bool) : Except World (World × Option Nat) :=
  match ownOrPublicNamespace ownerId self name (some catalog.id) with
  | some schema => .ok (self, some schema.id)
  | none =>
    if catalog.ownerId ≠ ownerId then .ok (self, none)
    else
      (createNamespace ownerId self name (some catalog.id) description isPublic).map
        fun made => (made.1, some made.2.id)

structure NamespaceEntry where
  catalog : String
  schema : Option String
  description : Option String
  isPublic : Bool

def findOrCreateNamespace (entry : NamespaceEntry) : Except World (World × Option Nat) :=
  match entry.schema with
  | none => (findOrCreateCatalog ownerId self entry.catalog entry.description entry.isPublic).map
      fun found => (found.1, some found.2.id)
  | some schema =>
    (findOrCreateCatalog ownerId self entry.catalog none false).bind fun found =>
      findOrCreateSchema ownerId found.1 found.2 schema entry.description entry.isPublic

def importNamespace (entry : NamespaceEntry) : Outcome :=
  (findOrCreateNamespace ownerId self entry).map fun found =>
    { found.1 with kept.namespaceIds := found.1.kept.namespaceIds ++ found.2.toList }

variable (path : String)

def pathParts : List String :=
  (path.toList.splitOn '/').map String.ofList

def parentName : Option String :=
  (pathParts path).dropLast.getLast?

/-- The schema under the first catalog called General, made if it is missing. It belongs to whom the
catalog belongs. -/
def ensureGeneralChild (general : CatalogNamespace) (name description : String) :
    World × CatalogNamespace :=
  match namespaceByName self name (some general.id) with
  | some existing => (self, existing)
  | none =>
    let id := nextId (self.database.namespaces.map CatalogNamespace.id)
    let row : CatalogNamespace :=
      ⟨id, name, some general.id, some description, general.ownerId, false⟩
    ({ self with database.namespaces := self.database.namespaces ++ [row] }, row)

def autoRegisterFlow (flowPath name : String) : World :=
  match namespaceByName self "General" none with
  | none => self
  | some general =>
    let target :=
      if parentName flowPath = some "unnamed_flows" then
        ensureGeneralChild self general "Unnamed Flows"
          "Quick-created flows that have not yet been named"
      else
        ensureGeneralChild self general "Local Flows" "Flows saved to disk at user-chosen paths"
    if self.database.registrations.any (·.flowPath = flowPath) then target.1
    else
      let id := nextId (self.database.registrations.map FlowRegistration.id)
      let row : FlowRegistration :=
        ⟨id, Machine.freshUuid self.minted, name, flowPath, some target.2.id, ownerId⟩
      { target.1 with
        database.registrations := self.database.registrations ++ [row], minted := self.minted + 1 }

variable (flowUuid : String) (namespaceId : Option Nat)

/-- Give the first flow registered at a path its identifier, name and place. An identifier that
another flow has is an error. -/
def reconcileFlow (flowPath flowUuid name : String) (namespaceId : Option Nat) : Outcome :=
  match self.database.registrations.find? (·.flowPath = flowPath) with
  | none => .ok self
  | some reg =>
    if reg.flowUuid ≠ flowUuid ∧ self.database.registrations.any (·.flowUuid = flowUuid) then
      .error self
    else
      let registrations := replaceFirst
        (fun (row : FlowRegistration) => decide (row.flowPath = flowPath))
        (fun row => { row with
          flowUuid, name, namespaceId := namespaceId.or row.namespaceId })
        self.database.registrations
      .ok { self with database.registrations := registrations }

def runtimePath (flowfileName flowUuid : String) : String :=
  Machine.flowsDirectory ++ "/project/" ++ fallbackStem (safeStem flowfileName) flowUuid ++
    ".flow.yaml"

/-- The user's own flow with an identifier. -/
def ownFlow : Option FlowRegistration :=
  self.database.registrations.find? fun row => row.flowUuid = flowUuid ∧ row.ownerId = ownerId

def importedUuid : String :=
  if (ownFlow ownerId self flowUuid).isNone ∧
      self.database.registrations.any (·.flowUuid = flowUuid) then
    Machine.freshUuid self.minted
  else flowUuid

variable (data : Dict)

def flowfileName : String :=
  ((data.get "flowfile_name").filledText).getD "flow"

def importedPath (flowUuid : String) : String :=
  ((ownFlow ownerId self flowUuid).map FlowRegistration.flowPath).getD
    (runtimePath (flowfileName data) (importedUuid ownerId self flowUuid))

def writeFile (contents : Dict) : World :=
  { self with flowFile := Function.update self.flowFile (Machine.locate path) (some contents) }

def importFlow : Outcome :=
  match (data.get "flow_uuid").filledText with
  | none => .ok self
  | some given =>
    let name := ((data.get "catalog_name").filledText).getD (flowfileName data)
    let place := resolveEntryNamespace ownerId self (data.get "namespace").entries
    let flowUuid := importedUuid ownerId self given
    let path := importedPath ownerId self data given
    let data := if flowUuid = given then data else data.set "flow_uuid" (.text flowUuid)
    let minted := if flowUuid = given then self.minted else self.minted + 1
    let written := writeFile { place.1 with minted } path data
    if !Machine.loadsFlow data then .error written
    else
      let registered :=
        if (ownFlow ownerId self given).isNone then autoRegisterFlow ownerId written path name
        else written
      (reconcileFlow registered path flowUuid name place.2).map fun reconciled =>
        { reconciled with kept.flowUuids := reconciled.kept.flowUuids ++ [flowUuid] }

structure ScheduleEntry where
  name : Option String
  enabled : Bool
  scheduleType : Option String
  intervalSeconds : Option Int
  cronExpression : Option String
  cronTimezone : Option String
  description : Option String

structure ScheduleFile where
  flowUuid : Option String
  schedules : List ScheduleEntry

def ScheduleEntry.signature (self : ScheduleEntry) :
    Option String × Option Int × Option String × Option String × Option String :=
  (self.scheduleType, self.intervalSeconds, self.cronExpression, self.cronTimezone, self.name)

def importedSchedules (entries : List ScheduleEntry) : List ScheduleEntry :=
  (entries.filter fun entry => entry.scheduleType.any (· ∈ projectableScheduleTypes)).foldl
    (fun seen entry =>
      if seen.any (·.signature = entry.signature) then seen else seen ++ [entry]) []

variable (registrationId : Nat)

def createSchedule (self : World) (entry : ScheduleEntry) : Outcome :=
  let id := nextId (self.database.schedules.map FlowSchedule.id)
  let row : FlowSchedule := ⟨id, registrationId, ownerId, entry.enabled, entry.name,
    entry.description, entry.scheduleType.getD "", entry.intervalSeconds, entry.cronExpression,
    entry.cronTimezone⟩
  if Machine.validSchedule row then
    .ok { self with database.schedules := self.database.schedules ++ [row] }
  else .error self

def replacedSchedule (row : FlowSchedule) : Bool :=
  row.registrationId = registrationId ∧ row.scheduleType ∈ projectableScheduleTypes

def importSchedules (file : ScheduleFile) : Outcome :=
  match file.flowUuid.bind (ownFlow ownerId self) with
  | none => .ok self
  | some reg =>
    if 50 < file.schedules.length then .error self
    else
      let schedules := self.database.schedules.filter fun row => !replacedSchedule reg.id row
      (importedSchedules file.schedules).foldlM (createSchedule ownerId reg.id)
        { self with database.schedules := schedules }

structure TableEntry where
  name : String
  place : Dict
  description : Option String
  storageFormat : Option String
  schema : List SchemaColumn
  partitionColumns : List String
  tableType : Option String
  sqlQuery : Option String
  pointer : Dict
  sourceFlowUuid : Option String

/-- The number of the user's own flow with an identifier. -/
def resolveFlowUuid (flowUuid : Option String) : Option Nat :=
  (flowUuid.bind (ownFlow ownerId self)).map FlowRegistration.id

def TableEntry.apply (entry : TableEntry) (self : World) (namespaceId : Option Nat)
    (table : CatalogTable) : CatalogTable :=
  let table := { table with
    namespaceId, description := entry.description
    storageFormat := entry.storageFormat.getD "delta", schema := entry.schema
    partitionColumns := entry.partitionColumns }
  if entry.tableType = some "virtual" then
    { table with tableType := "virtual", filePath := none, sqlQuery := entry.sqlQuery }
  else
    { table with
      tableType := "physical", filePath := Machine.tablePath entry.pointer
      sourceRegistrationId := resolveFlowUuid ownerId self entry.sourceFlowUuid }

def isOwnTable (table : CatalogTable) : Bool :=
  table.name = name ∧ table.namespaceId = namespaceId ∧ table.ownerId = ownerId

def importTable (entry : TableEntry) : Outcome :=
  if entry.name = "" then .ok self
  else
    let (self, namespaceId) := resolveEntryNamespace ownerId self entry.place
    let tables := self.database.tables
    let id := match tables.find? (isOwnTable ownerId entry.name namespaceId) with
      | some table => table.id
      | none => nextId (tables.map CatalogTable.id)
    if !tables.any (isOwnTable ownerId entry.name namespaceId) ∧ namespaceId.isSome ∧
        tables.any (fun table => table.name = entry.name ∧ table.namespaceId = namespaceId) then
      .error self
    else
      let new : CatalogTable := ⟨id, entry.name, namespaceId, none, ownerId, none, "delta", [], [],
        "physical", none, none⟩
      let imported := upsert (isOwnTable ownerId entry.name namespaceId)
        (entry.apply ownerId self namespaceId) new tables
      .ok { self with
        database.tables := imported, kept.tableIds := self.kept.tableIds ++ [id] }

structure ArtifactEntry where
  name : String
  version : Option Int
  place : Dict
  sourceFlowUuid : Option String
  serializationFormat : Option String
  pythonType : Option String
  pythonModule : Option String
  description : Option String
  tags : List String

/-- The columns of a model that its entry gives. -/
def ArtifactEntry.apply (entry : ArtifactEntry) (sourceRegistrationId : Nat)
    (artifact : GlobalArtifact) : GlobalArtifact :=
  { artifact with
    sourceRegistrationId, serializationFormat := entry.serializationFormat.getD "pickle"
    status := "active", pythonType := entry.pythonType, pythonModule := entry.pythonModule
    description := entry.description, tags := entry.tags }

def GlobalArtifact.named (version : Int)
    (artifact : GlobalArtifact) : Bool :=
  artifact.name = name ∧ artifact.namespaceId = namespaceId ∧ artifact.version = version

/-- Import a model, unless its flow is missing. A name and version that somebody else's model has at
the place are an error. -/
def importArtifact (entry : ArtifactEntry) : Outcome :=
  match entry.version, resolveFlowUuid ownerId self entry.sourceFlowUuid with
  | some version, some source =>
    if entry.name = "" then .ok self
    else
      let (self, namespaceId) := resolveEntryNamespace ownerId self entry.place
      let artifacts := self.database.artifacts
      let isOwn (artifact : GlobalArtifact) : Bool :=
        artifact.named entry.name namespaceId version ∧ artifact.ownerId = ownerId
      let id := match artifacts.find? isOwn with
        | some artifact => artifact.id
        | none => nextId (artifacts.map GlobalArtifact.id)
      if !artifacts.any isOwn ∧ namespaceId.isSome ∧
          artifacts.any (GlobalArtifact.named entry.name namespaceId version) then
        .error self
      else
        let new : GlobalArtifact := ⟨id, entry.name, namespaceId, version, "pending", ownerId,
          source, "pickle", none, none, none, []⟩
        let imported := upsert isOwn (entry.apply source) new artifacts
        .ok { self with
          database.artifacts := imported, kept.artifactIds := self.kept.artifactIds ++ [id] }
  | _, _ => .ok self

/-- The identifier under which a resource is imported: another one, if it has none or somebody else
has it. -/
def mintedKey (given : Option String) (isOwn isTaken : String → Bool) : World × String :=
  match given with
  | none => ({ self with minted := self.minted + 1 }, Machine.freshUuid self.minted)
  | some key =>
    if !isOwn key ∧ isTaken key then
      ({ self with minted := self.minted + 1 }, Machine.freshUuid self.minted)
    else (self, key)

structure KernelEntry where
  id : Option String
  name : String
  packages : List String
  cpuCores : Value
  memoryGb : Value
  gpu : Bool
  imageFlavour : Option String
  customImage : Option String

def KernelEntry.apply (entry : KernelEntry) (kernel : Kernel) : Kernel :=
  { kernel with
    name := entry.name, packages := entry.packages, cpuCores := entry.cpuCores
    memoryGb := entry.memoryGb, gpu := entry.gpu
    imageFlavour := entry.imageFlavour.getD "base", customImage := entry.customImage }

def importKernel (entry : KernelEntry) : World :=
  if entry.name = "" then self
  else
    let isOwn (key : String) (row : Kernel) : Bool := row.id = key ∧ row.userId = ownerId
    let (self, key) := mintedKey self entry.id (fun key => self.database.kernels.any (isOwn key))
      fun key => self.database.kernels.any (·.id = key)
    let new : Kernel := ⟨key, entry.name, ownerId, [], .null, .null, false, "base", none⟩
    let kernels := upsert (isOwn key) entry.apply new self.database.kernels
    { self with database.kernels := kernels, kept.kernelIds := self.kept.kernelIds ++ [key] }

/-- The user's own table that a reference names. -/
def resolveTableRef (ref : Dict) : Option Nat := do
  let name ← (ref.get "name").filledText
  let place := (resolveEntryNamespace ownerId self ref).2
  return (← self.database.tables.find? (isOwnTable ownerId name place)).id

/-- The user's own visualization with an identifier. -/
def isOwnViz (key : String) (row : CatalogVisualization) : Bool :=
  row.vizUuid = key ∧ row.createdBy = some ownerId

structure VisualizationEntry where
  vizUuid : Option String
  name : String
  place : Dict
  sourceType : Option String
  sourceTable : Dict
  spec : Value
  sqlQuery : Option String
  description : Option String
  chartType : Option String
  specGwVersion : Option String

def VisualizationEntry.apply (entry : VisualizationEntry) (namespaceId tableId : Option Nat)
    (viz : CatalogVisualization) : CatalogVisualization :=
  let sourceType := entry.sourceType.getD "table"
  { viz with
    name := entry.name, description := entry.description, chartType := entry.chartType
    spec := entry.spec, specGwVersion := entry.specGwVersion, sourceType
    catalogTableId := tableId
    sqlQuery := if sourceType = "sql" then entry.sqlQuery else none
    namespaceId }

def importVisualization (entry : VisualizationEntry) : World :=
  if entry.name = "" then self
  else
    let (self, namespaceId) := resolveEntryNamespace ownerId self entry.place
    let tableId := if entry.sourceType.getD "table" = "table" then
      resolveTableRef ownerId self entry.sourceTable else none
    let (self, key) := mintedKey self entry.vizUuid
      (fun key => self.database.visualizations.any (isOwnViz ownerId key))
      fun key => self.database.visualizations.any (·.vizUuid = key)
    let id := nextId (self.database.visualizations.map CatalogVisualization.id)
    let new : CatalogVisualization := ⟨id, key, entry.name, none, none, .list [], none, "table",
      none, none, none, some ownerId⟩
    let visualizations := upsert (isOwnViz ownerId key) (entry.apply namespaceId tableId) new
      self.database.visualizations
    { self with
      database.visualizations := visualizations, kept.vizUuids := self.kept.vizUuids ++ [key] }

def localizeLayout (layout : Dict) : Dict :=
  let number (id : Option Nat) : Value := (id.map fun id => Value.integer id).getD .null
  let vizId (value : Value) : Value := number do
    let key ← value.filledText
    return (← self.database.visualizations.find? (isOwnViz ownerId key)).id
  let datasource (value : Value) : Value := number (resolveTableRef ownerId self value.entries)
  mapItems (mapItems layout "tiles" (exchange "viz_uuid" "viz_id" vizId)) "filters"
    (exchange "datasource" "datasource_id" datasource)

structure DashboardEntry where
  dashboardUuid : Option String
  name : String
  place : Dict
  layout : Dict
  description : Option String

def importDashboard (entry : DashboardEntry) : Outcome :=
  if entry.name = "" then .ok self
  else
    let (self, namespaceId) := resolveEntryNamespace ownerId self entry.place
    match Machine.validLayout (localizeLayout ownerId self entry.layout) with
    | none => .error self
    | some layout =>
      let isOwn (key : String) (row : CatalogDashboard) : Bool :=
        row.dashboardUuid = key ∧ row.createdBy = some ownerId
      let (self, key) := mintedKey self entry.dashboardUuid
        (fun key => self.database.dashboards.any (isOwn key))
        fun key => self.database.dashboards.any (·.dashboardUuid = key)
      let id := nextId (self.database.dashboards.map CatalogDashboard.id)
      let new : CatalogDashboard := ⟨id, key, entry.name, none, [], none, some ownerId⟩
      let apply (row : CatalogDashboard) : CatalogDashboard :=
        { row with name := entry.name, description := entry.description, namespaceId, layout }
      let dashboards := upsert (isOwn key) apply new self.database.dashboards
      .ok { self with
        database.dashboards := dashboards
        kept.dashboardUuids := self.kept.dashboardUuids ++ [key] }

structure NotebookFile where
  notebookUuid : Option String
  name : String
  place : Dict
  description : Option String
  defaultKernelId : Option String
  cells : List NotebookCell

/-- The user's own notebook with an identifier. -/
def isOwnNotebook (key : String) (row : CatalogNotebook) : Bool :=
  row.notebookUuid = key ∧ row.ownerId = ownerId

def importNotebook (file : NotebookFile) : World :=
  if file.name = "" then self
  else
    let (self, namespaceId) := resolveEntryNamespace ownerId self file.place
    let (self, key) := mintedKey self (file.notebookUuid.filter Machine.isUuid)
      (fun key => self.database.notebooks.any (isOwnNotebook ownerId key))
      fun key => self.database.notebooks.any (·.notebookUuid = key)
    if namespaceId.isSome ∧ self.database.notebooks.any (fun row =>
        row.name = file.name ∧ row.namespaceId = namespaceId ∧ !isOwnNotebook ownerId key row) then
      self
    else
      let id := nextId (self.database.notebooks.map CatalogNotebook.id)
      let new : CatalogNotebook := ⟨id, key, file.name, none, none, none, ownerId⟩
      let apply (row : CatalogNotebook) : CatalogNotebook :=
        { row with
          name := file.name, description := file.description, namespaceId
          defaultKernelId := file.defaultKernelId }
      let notebooks := upsert (isOwnNotebook ownerId key) apply new self.database.notebooks
      { self with
        database.notebooks := notebooks
        cells := Function.update self.cells ownerId
          (Function.update (self.cells ownerId) key file.cells)
        kept.notebookUuids := self.kept.notebookUuids ++ [key] }

end Flowfile.Project
