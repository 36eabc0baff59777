import Flowfile.Library.Documents

/-!
# The catalog of an installation

The rows of the database that a project mirrors, and the files beside them: the flow files that
registrations point to, and the cells of notebooks. Columns that hold JSON are given by the values
they stand for. Numbers identify rows within their own tables.
-/

namespace Flowfile.Project

open Library.Documents

structure Secret where
  id : Nat
  name : String
  userId : Nat
  encryptedValue : String

structure DatabaseConnection where
  id : Nat
  connectionName : String
  databaseType : Option String
  username : Option String
  host : Option String
  port : Option Int
  database : Option String
  sslEnabled : Option Bool
  passwordId : Option Nat
  userId : Nat

/-- Columns of a cloud connection that are no secrets. -/
inductive CloudPlainField where
  | awsRegion | awsAccessKeyId | awsRoleArn | awsAllowUnsafeHtml
  | azureAccountName | azureTenantId | azureClientId
  | gcsProjectId | endpointUrl | verifySsl

/-- Columns of a cloud connection that refer to secrets. -/
inductive CloudSecretField where
  | awsSecretAccessKey | azureAccountKey | azureClientSecret | azureSasToken | gcsServiceAccountKey
deriving DecidableEq

structure CloudStorageConnection where
  id : Nat
  connectionName : String
  storageType : String
  authMethod : String
  plain : CloudPlainField → Value
  secretId : CloudSecretField → Option Nat
  awsSessionTokenId : Option Nat
  userId : Nat

structure CatalogNamespace where
  id : Nat
  name : String
  parentId : Option Nat
  description : Option String
  ownerId : Nat
  isPublic : Bool

structure FlowRegistration where
  id : Nat
  flowUuid : String
  name : String
  flowPath : String
  namespaceId : Option Nat
  ownerId : Nat

structure FlowSchedule where
  id : Nat
  registrationId : Nat
  ownerId : Nat
  enabled : Bool
  name : Option String
  description : Option String
  scheduleType : String
  intervalSeconds : Option Int
  cronExpression : Option String
  cronTimezone : Option String

structure SchemaColumn where
  name : String
  dtype : String

structure CatalogTable where
  id : Nat
  name : String
  namespaceId : Option Nat
  description : Option String
  ownerId : Nat
  filePath : Option String
  storageFormat : String
  schema : List SchemaColumn
  partitionColumns : List String
  tableType : String
  sqlQuery : Option String
  sourceRegistrationId : Option Nat

structure GlobalArtifact where
  id : Nat
  name : String
  namespaceId : Option Nat
  version : Int
  status : String
  ownerId : Nat
  sourceRegistrationId : Nat
  serializationFormat : String
  pythonType : Option String
  pythonModule : Option String
  description : Option String
  tags : List String

structure Kernel where
  id : String
  name : String
  userId : Nat
  packages : List String
  cpuCores : Value
  memoryGb : Value
  gpu : Bool
  imageFlavour : String
  customImage : Option String

structure CatalogVisualization where
  id : Nat
  vizUuid : String
  name : String
  description : Option String
  chartType : Option String
  spec : Value
  specGwVersion : Option String
  sourceType : String
  catalogTableId : Option Nat
  sqlQuery : Option String
  namespaceId : Option Nat
  createdBy : Option Nat

structure CatalogDashboard where
  id : Nat
  dashboardUuid : String
  name : String
  description : Option String
  layout : Dict
  namespaceId : Option Nat
  createdBy : Option Nat

structure CatalogNotebook where
  id : Nat
  notebookUuid : String
  name : String
  description : Option String
  namespaceId : Option Nat
  defaultKernelId : Option String
  ownerId : Nat

structure Database where
  secrets : List Secret
  databaseConnections : List DatabaseConnection
  cloudConnections : List CloudStorageConnection
  namespaces : List CatalogNamespace
  registrations : List FlowRegistration
  schedules : List FlowSchedule
  tables : List CatalogTable
  artifacts : List GlobalArtifact
  kernels : List Kernel
  visualizations : List CatalogVisualization
  dashboards : List CatalogDashboard
  notebooks : List CatalogNotebook

structure NotebookCell where
  id : String
  type : String
  metadata : Dict
  source : String

structure Install where
  database : Database
  flowFile : String → Option Dict
  cells : Nat → String → List NotebookCell

section

variable (database : Database) (id : Nat)

def Database.secret : Option Secret :=
  database.secrets.find? fun row => row.id = id

def Database.getNamespace : Option CatalogNamespace :=
  database.namespaces.find? fun row => row.id = id

def Database.registration : Option FlowRegistration :=
  database.registrations.find? fun row => row.id = id

def Database.table : Option CatalogTable :=
  database.tables.find? fun row => row.id = id

def Database.visualization : Option CatalogVisualization :=
  database.visualizations.find? fun row => row.id = id

def secretName (secretId : Option Nat) : Option String := do
  return (← database.secret (← secretId)).name

/-- A place in the catalog by names. -/
structure NamespacePath where
  catalog : String
  schema : Option String

/-- The place of a namespace. A catalog has no schema. A schema whose catalog is gone stands for
it. -/
def namespacePath (namespaceId : Option Nat) : Option NamespacePath := do
  let found ← database.getNamespace (← namespaceId)
  match found.parentId with
  | none => return ⟨found.name, none⟩
  | some parent =>
    return ⟨((database.getNamespace parent).map CatalogNamespace.name).getD found.name,
      some found.name⟩

end

def NamespacePath.value (self : NamespacePath) : Value :=
  .dict [("catalog", .text self.catalog), ("schema", .ofText self.schema)]

def placeValue (place : Option NamespacePath) : Value :=
  (place.map NamespacePath.value).getD .null

end Flowfile.Project
