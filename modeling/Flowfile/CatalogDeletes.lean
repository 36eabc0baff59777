import Flowfile.ArtifactUploads
import Flowfile.Library.References
import Flowfile.Library.RowIds
import Flowfile.Sharing
import Flowfile.TableTriggers

/-!
# Creating and deleting the rows of the catalog

The database has no foreign keys that are enforced: whoever deletes a row deletes by hand what
refers to it. A row that is deleted through the mapper takes its grants along, a listener sees to
that; a row that goes with a bulk delete does not.

The requests that create, share and delete are modelled as they act on rows: the columns that
deletes look at, and the columns that refer to other rows. What else a request is checked for (who
may do it, whether a name is taken, whether data can be read) is not modelled; its outcome comes
with the request.
-/

namespace Flowfile.CatalogRows

open GlobalArtifacts (ArtifactStatus)
open Library.RowIds (nodup_concat)
open Function Sharing
open Scheduler (ScheduleType)

structure SecretRow where
  id : Nat
  userId : Nat
  name : String

structure ConnectionRow where
  id : Nat
  userId : Nat
  connectionName : String
  secretIds : List Nat

structure VisualizationRow where
  id : Nat
  catalogTableId : Option Nat
  namespaceId : Option Nat

structure ArtifactRow where
  id : Nat
  name : String
  namespaceId : Option Nat
  status : ArtifactStatus
  sourceRegistrationId : Nat

@[reducible] def Row : ResourceType → Type
  | .secret => SecretRow
  | .databaseConnection => ConnectionRow
  | .cloudConnection => ConnectionRow
  | .gaConnection => ConnectionRow
  | .kafkaConnection => ConnectionRow
  | .catalogNamespace => NamespaceRow
  | .catalogTable => ResourceRow
  | .flow => ResourceRow
  | .visualization => VisualizationRow
  | .dashboard => ResourceRow
  | .catalogNotebook => ResourceRow
  | .globalArtifact => ArtifactRow

/-- The primary key. -/
def rowId : (resourceType : ResourceType) → Row resourceType → Nat
  | .secret => SecretRow.id
  | .databaseConnection => ConnectionRow.id
  | .cloudConnection => ConnectionRow.id
  | .gaConnection => ConnectionRow.id
  | .kafkaConnection => ConnectionRow.id
  | .catalogNamespace => NamespaceRow.id
  | .catalogTable => ResourceRow.id
  | .flow => ResourceRow.id
  | .visualization => VisualizationRow.id
  | .dashboard => ResourceRow.id
  | .catalogNotebook => ResourceRow.id
  | .globalArtifact => ArtifactRow.id

def namespaceOf : (resourceType : ResourceType) → Row resourceType → Option Nat
  | .secret => fun _ => none
  | .databaseConnection => fun _ => none
  | .cloudConnection => fun _ => none
  | .gaConnection => fun _ => none
  | .kafkaConnection => fun _ => none
  | .catalogNamespace => fun _ => none
  | .catalogTable => ResourceRow.namespaceId
  | .flow => ResourceRow.namespaceId
  | .visualization => VisualizationRow.namespaceId
  | .dashboard => ResourceRow.namespaceId
  | .catalogNotebook => ResourceRow.namespaceId
  | .globalArtifact => ArtifactRow.namespaceId

structure FlowSchedule where
  id : Nat
  registrationId : Nat
  scheduleType : ScheduleType
  triggerTableId : Option Nat

structure ScheduleTriggerTable where
  scheduleId : Nat
  tableId : Nat

structure CatalogTableReadLink where
  tableId : Nat
  registrationId : Nat
deriving DecidableEq

/-- The rows that requests act on. Ids within a type are primary keys. -/
structure Database where
  rows : (resourceType : ResourceType) → List (Row resourceType)
  distinct : ∀ resourceType, ((rows resourceType).map (rowId resourceType)).Nodup
  schedules : List FlowSchedule
  triggerTables : List ScheduleTriggerTable
  readLinks : List CatalogTableReadLink
  grants : List ResourceGrant

def Database.empty : Database where
  rows _ := []
  distinct _ := List.nodup_nil
  schedules := []
  triggerTables := []
  readLinks := []
  grants := []

/-- What references name: rows of a type of resource, or schedules. -/
inductive Kind where
  | resource (resourceType : ResourceType)
  | schedule

variable (db : Database)

def Database.ids : Kind → List Nat
  | .resource resourceType => (db.rows resourceType).map (rowId resourceType)
  | .schedule => db.schedules.map FlowSchedule.id

/-- The references: grants name resources, read links tables and flows, trigger links schedules and
tables, schedules may name a table that triggers them, and rows may lie in namespaces. -/
inductive Database.Refers : Kind → Nat → Prop
  | grant (grant : ResourceGrant) (stored : grant ∈ db.grants) :
    Refers (.resource grant.resourceType) grant.resourceId
  | readTable (link : CatalogTableReadLink) (stored : link ∈ db.readLinks) :
    Refers (.resource .catalogTable) link.tableId
  | readBy (link : CatalogTableReadLink) (stored : link ∈ db.readLinks) :
    Refers (.resource .flow) link.registrationId
  | triggers (link : ScheduleTriggerTable) (stored : link ∈ db.triggerTables) :
    Refers .schedule link.scheduleId
  | triggeredBy (link : ScheduleTriggerTable) (stored : link ∈ db.triggerTables) :
    Refers (.resource .catalogTable) link.tableId
  | triggerTable (schedule : FlowSchedule) (stored : schedule ∈ db.schedules) (tableId : Nat)
    (named : schedule.triggerTableId = some tableId) : Refers (.resource .catalogTable) tableId
  | liesIn (resourceType : ResourceType) (row : Row resourceType)
    (stored : row ∈ db.rows resourceType) (namespaceId : Nat)
    (named : namespaceOf resourceType row = some namespaceId) :
    Refers (.resource .catalogNamespace) namespaceId

/-- No reference dangles: each names a row that exists. -/
def Database.NoDangling : Prop :=
  Library.References.Resolved (fun kind id => id ∈ db.ids kind) db.Refers

def Database.nextId (resourceType : ResourceType) : Nat :=
  Library.RowIds.nextId (db.ids (.resource resourceType))

def Database.add (resourceType : ResourceType) (row : Row resourceType)
    (fresh : rowId resourceType row = db.nextId resourceType) : Database :=
  { db with
    rows := update db.rows resourceType (db.rows resourceType ++ [row])
    distinct := by
      intro other
      by_cases same : other = resourceType
      · subst same
        rw [update_self]
        exact nodup_concat (db.distinct other) fresh
      · rw [update_of_ne same]
        exact db.distinct other }

def Database.bulkDelete (resourceType : ResourceType) (matching : Row resourceType → Bool) :
    Database :=
  { db with
    rows := update db.rows resourceType
      ((db.rows resourceType).filter fun row => !matching row)
    distinct := by
      intro other
      by_cases same : other = resourceType
      · subst same
        rw [update_self]
        exact (db.distinct other).sublist (List.filter_sublist.map _)
      · rw [update_of_ne same]
        exact db.distinct other }

def Database.deleteGrantsForResource (resourceType : ResourceType) (resourceId : Nat) : Database :=
  { db with grants := db.grants.filter fun grant =>
      !(grant.resourceType = resourceType && grant.resourceId = resourceId) }

def Database.delete (resourceType : ResourceType) (id : Nat) : Database :=
  (db.bulkDelete resourceType fun row => rowId resourceType row = id).deleteGrantsForResource
    resourceType id

/-- Whether there is a row with this id. -/
def Database.has (resourceType : ResourceType) (id : Nat) : Bool :=
  id ∈ db.ids (.resource resourceType)

/-- Whether the namespace exists, if one is given. -/
def Database.hasNamespace (namespaceId : Option Nat) : Bool :=
  namespaceId.all (db.has .catalogNamespace)

def Database.countIn (resourceType : ResourceType) (namespaceId : Nat) : Nat :=
  ((db.rows resourceType).filter fun row => namespaceOf resourceType row = some namespaceId).length

inductive ConnectionKind where
  | database
  | cloud
  | ga
  | kafka

def Database.createNamespace (ownerId : Nat) (parentId : Option Nat) : Database :=
  if db.hasNamespace parentId then
    db.add .catalogNamespace ⟨db.nextId .catalogNamespace, ownerId, parentId, false⟩ rfl
  else db

def Database.registerFlow (ownerId : Nat) (namespaceId : Option Nat) : Database :=
  if db.hasNamespace namespaceId then
    db.add .flow ⟨db.nextId .flow, some ownerId, namespaceId⟩ rfl
  else db

def Database.registerTable (ownerId : Nat) (namespaceId : Option Nat) : Database :=
  if db.hasNamespace namespaceId then
    db.add .catalogTable ⟨db.nextId .catalogTable, some ownerId, namespaceId⟩ rfl
  else db

def Database.visualizationNamespace (catalogTableId namespaceId : Option Nat) : Option Nat :=
  namespaceId <|> catalogTableId.bind fun tableId =>
    ((db.rows .catalogTable).find? fun row => rowId .catalogTable row = tableId).bind
      (namespaceOf .catalogTable)

/-- `create_visualization`, of a table or of a query. The table has to exist; the namespace is not
looked up. -/
def Database.createVisualization (catalogTableId namespaceId : Option Nat) : Database :=
  if catalogTableId.all (db.has .catalogTable) then
    db.add .visualization ⟨db.nextId .visualization, catalogTableId,
      db.visualizationNamespace catalogTableId namespaceId⟩ rfl
  else db

def Database.createDashboard (ownerId : Nat) (namespaceId : Option Nat) : Database :=
  if db.hasNamespace namespaceId then
    db.add .dashboard ⟨db.nextId .dashboard, some ownerId, namespaceId⟩ rfl
  else db

def Database.createNotebook (ownerId : Nat) (namespaceId : Option Nat) : Database :=
  if db.hasNamespace namespaceId then
    db.add .catalogNotebook ⟨db.nextId .catalogNotebook, some ownerId, namespaceId⟩ rfl
  else db

/-- Rows of an artifact that an upload left behind. -/
def Database.staleArtifacts (name : String) (namespaceId : Option Nat) : List ArtifactRow :=
  (db.rows .globalArtifact).filter fun row : ArtifactRow =>
    row.name = name && row.namespaceId = namespaceId &&
      (row.status = .pending || row.status = .failed)

/-- `prepare_upload`: stale rows are deleted in a transaction of their own; then a pending row is
inserted, unless the versions conflict too often. -/
def Database.prepareUpload (name : String) (sourceRegistrationId : Nat) (namespaceId : Option Nat)
    (inserted : Bool) : Database :=
  match (db.rows .flow).find? fun row => rowId .flow row = sourceRegistrationId with
  | none => db
  | some registration =>
    let namespaceId := namespaceId <|> namespaceOf .flow registration
    if db.hasNamespace namespaceId then
      let cleaned := (db.staleArtifacts name namespaceId).foldl
        (fun db row => db.delete .globalArtifact row.id) db
      if inserted then
        cleaned.add .globalArtifact
          ⟨cleaned.nextId .globalArtifact, name, namespaceId, .pending, sourceRegistrationId⟩ rfl
      else cleaned
    else db

def Database.setStatus (artifactId : Nat) (status : ArtifactStatus) : Database :=
  { db with
    rows := update db.rows .globalArtifact <|
      (db.rows .globalArtifact).map fun row : ArtifactRow =>
        if row.id = artifactId then { row with status } else row
    distinct := by
      intro other
      by_cases same : other = .globalArtifact
      · subst same
        rw [update_self, List.map_map]
        have ids : ∀ row : ArtifactRow, rowId .globalArtifact
            (if row.id = artifactId then { row with status } else row) = row.id := by
          intro row
          split <;> rfl
        rw [show (rowId .globalArtifact ∘ fun row : ArtifactRow =>
          if row.id = artifactId then { row with status } else row) = rowId .globalArtifact from
            funext ids]
        exact db.distinct .globalArtifact
      · rw [update_of_ne same]
        exact db.distinct other }

def Database.finalizeUpload (artifactId : Nat) (verified : Bool) : Database :=
  if (db.rows .globalArtifact).any fun row : ArtifactRow =>
      row.id = artifactId && row.status = .pending then
    db.setStatus artifactId (if verified then .active else .failed)
  else db

def Database.storeSecret (userId : Nat) (name : String) : Database :=
  db.add .secret ⟨db.nextId .secret, userId, name⟩ rfl

def Database.addConnection (userId : Nat) (connectionName : String) (secretIds : List Nat) :
    ConnectionKind → Database
  | .database =>
    db.add .databaseConnection
      ⟨db.nextId .databaseConnection, userId, connectionName, secretIds⟩ rfl
  | .cloud =>
    db.add .cloudConnection ⟨db.nextId .cloudConnection, userId, connectionName, secretIds⟩ rfl
  | .ga => db.add .gaConnection ⟨db.nextId .gaConnection, userId, connectionName, secretIds⟩ rfl
  | .kafka =>
    db.add .kafkaConnection ⟨db.nextId .kafkaConnection, userId, connectionName, secretIds⟩ rfl

def Database.storeSecrets (userId : Nat) : Database → List String → Database × List Nat
  | db, [] => (db, [])
  | db, name :: rest =>
    let stored := storeSecrets userId (db.storeSecret userId name) rest
    (stored.1, db.nextId .secret :: stored.2)

def Database.createConnection (kind : ConnectionKind) (userId : Nat) (connectionName : String)
    (secretNames : List String) : Database :=
  let stored := db.storeSecrets userId secretNames
  stored.1.addConnection userId connectionName stored.2 kind

/-- `create_share`: nobody can manage a resource that does not exist, and a group is granted a
resource once. -/
def Database.createShare (grant : ResourceGrant) : Database :=
  if db.has grant.resourceType grant.resourceId && !db.grants.any fun other =>
      other.resourceType = grant.resourceType && other.resourceId = grant.resourceId &&
        other.groupId = grant.groupId then
    { db with grants := db.grants ++ [grant] }
  else db

/-- `validate_schedule_create`, as far as tables go: only the tables that the type of the schedule
asks for are looked up. -/
def Database.validateScheduleCreate (triggerTableId : Option Nat) (triggerTableIds : List Nat) :
    ScheduleType → Bool
  | .interval => true
  | .cron => true
  | .tableTrigger => triggerTableId.any (db.has .catalogTable)
  | .tableSetTrigger =>
    2 ≤ triggerTableIds.length && triggerTableIds.all (db.has .catalogTable)

def Database.createSchedule (registrationId : Nat) (scheduleType : ScheduleType)
    (triggerTableId : Option Nat) (triggerTableIds : List Nat) : Database :=
  if db.has .flow registrationId &&
      db.validateScheduleCreate triggerTableId triggerTableIds scheduleType then
    let id := Library.RowIds.nextId (db.ids .schedule)
    { db with
      schedules := db.schedules ++ [⟨id, registrationId, scheduleType, triggerTableId⟩]
      triggerTables :=
        if scheduleType = .tableSetTrigger then
          db.triggerTables.filter (fun link => link.scheduleId ≠ id) ++
            triggerTableIds.map fun tableId => ⟨id, tableId⟩
        else db.triggerTables }
  else db

/-- `upsert_read_link`, called when a flow is saved, with the ids that its nodes name. -/
def Database.upsertReadLink (tableId registrationId : Nat) : Database :=
  if ⟨tableId, registrationId⟩ ∈ db.readLinks then db
  else { db with readLinks := db.readLinks ++ [⟨tableId, registrationId⟩] }

def Database.deleteShare (grant : ResourceGrant) : Database :=
  { db with grants := db.grants.filter fun other => other ≠ grant }

/-- Whether something that `delete_namespace` looks for lies in the namespace. -/
def Database.namespaceNotEmpty (namespaceId : Nat) : Bool :=
  ((db.rows .catalogNamespace).any fun row : NamespaceRow => row.parentId = some namespaceId) ||
    0 < db.countIn .flow namespaceId || 0 < db.countIn .catalogTable namespaceId ||
    0 < db.countIn .catalogNotebook namespaceId

def Database.deleteNamespace (namespaceId : Nat) : Database :=
  if db.has .catalogNamespace namespaceId && !db.namespaceNotEmpty namespaceId then
    (db.deleteGrantsForResource .catalogNamespace namespaceId).delete .catalogNamespace namespaceId
  else db

/-- Whether a flow has artifacts that are not soft-deleted. -/
def Database.hasActiveArtifacts (registrationId : Nat) : Bool :=
  (db.rows .globalArtifact).any fun row : ArtifactRow =>
    row.sourceRegistrationId = registrationId && row.status ≠ .deleted

/-- `delete_flow`: the schedules of the flow go with their links, then its soft-deleted artifacts in
bulk, its grants, and the row. -/
def Database.deleteFlow (registrationId : Nat) : Database :=
  if db.has .flow registrationId && !db.hasActiveArtifacts registrationId then
    let scheduleIds := (db.schedules.filter fun schedule =>
      schedule.registrationId = registrationId).map FlowSchedule.id
    let unscheduled := { db with
      triggerTables := db.triggerTables.filter fun link => link.scheduleId ∉ scheduleIds
      schedules := db.schedules.filter fun schedule => schedule.registrationId ≠ registrationId }
    let withoutArtifacts := unscheduled.bulkDelete .globalArtifact fun row : ArtifactRow =>
      row.sourceRegistrationId = registrationId && row.status = .deleted
    (withoutArtifacts.deleteGrantsForResource .flow registrationId).delete .flow registrationId
  else db

def Database.visualizationIds (tableId : Nat) : List Nat :=
  ((db.rows .visualization).filter fun row : VisualizationRow =>
    row.catalogTableId = some tableId).map VisualizationRow.id

/-- `delete_table`: the read links go, then the visualizations with their grants, the grants of the
table, and the row. -/
def Database.deleteTable (tableId : Nat) : Database :=
  if db.has .catalogTable tableId then
    let unread := { db with readLinks := db.readLinks.filter fun link => link.tableId ≠ tableId }
    let ungranted := (db.visualizationIds tableId).foldl
      (fun db id => db.deleteGrantsForResource .visualization id) unread
    let withoutCharts := ungranted.bulkDelete .visualization fun row : VisualizationRow =>
      row.catalogTableId = some tableId
    (withoutCharts.deleteGrantsForResource .catalogTable tableId).delete .catalogTable tableId
  else db

/-- Deleting a visualization, a dashboard or a notebook. -/
def Database.deleteItem (resourceType : ResourceType) (id : Nat) : Database :=
  if db.has resourceType id then
    (db.deleteGrantsForResource resourceType id).delete resourceType id
  else db

def Database.softDelete (artifactId : Nat) : Database :=
  (db.setStatus artifactId .deleted).deleteGrantsForResource .globalArtifact artifactId

def Database.deleteArtifact (artifactId : Nat) : Database :=
  if db.has .globalArtifact artifactId then db.softDelete artifactId else db

def Database.deleteAllVersions (name : String) (namespaceId : Option Nat) : Database :=
  ((db.rows .globalArtifact).filter fun row : ArtifactRow =>
    row.name = name && row.status ≠ .deleted && namespaceId.all (row.namespaceId = some ·)).foldl
      (fun db (row : ArtifactRow) => db.softDelete row.id) db

def Database.deleteSecret (userId : Nat) (name : String) : Database :=
  match (db.rows .secret).find? fun row : SecretRow => row.userId = userId && row.name = name with
  | none => db
  | some row => (db.deleteGrantsForResource .secret (rowId .secret row)).delete .secret
      (rowId .secret row)

def Database.deleteUserSecret (userId : Nat) (name : String) : Database :=
  db.bulkDelete .secret fun row : SecretRow => row.name = name && row.userId = userId

def Database.deleteStoredSecret (secretId : Nat) : Database :=
  if db.has .secret secretId then db.delete .secret secretId else db

def findOwn (rows : List ConnectionRow) (userId : Nat) (connectionName : String) :
    Option ConnectionRow :=
  rows.find? fun row => row.connectionName = connectionName && row.userId = userId

def Database.getOwnDatabaseConnection (userId : Nat) (connectionName : String) :
    Option ConnectionRow :=
  findOwn (db.rows .databaseConnection) userId connectionName

def Database.getOwnCloudConnection (userId : Nat) (connectionName : String) :
    Option ConnectionRow :=
  findOwn (db.rows .cloudConnection) userId connectionName

def Database.getOwnGaConnection (userId : Nat) (connectionName : String) : Option ConnectionRow :=
  findOwn (db.rows .gaConnection) userId connectionName

def Database.getOwnKafkaConnection (userId connectionId : Nat) : Option ConnectionRow :=
  (db.rows .kafkaConnection).find? fun row : ConnectionRow =>
    row.id = connectionId && row.userId = userId

def Database.deleteDatabaseConnection (userId : Nat) (connectionName : String) : Database :=
  match db.getOwnDatabaseConnection userId connectionName with
  | none => db
  | some row =>
    row.secretIds.foldl Database.deleteStoredSecret <|
      (db.deleteGrantsForResource .databaseConnection row.id).delete .databaseConnection row.id

def Database.bulkDeleteSecrets (secretIds : List Nat) : Database :=
  db.bulkDelete .secret fun secret : SecretRow => secret.id ∈ secretIds

def Database.deleteCloudConnection (userId : Nat) (connectionName : String) : Database :=
  match db.getOwnCloudConnection userId connectionName with
  | none => db
  | some row =>
    ((db.bulkDeleteSecrets row.secretIds).deleteGrantsForResource .cloudConnection row.id).delete
      .cloudConnection row.id

def Database.deleteGaConnection (userId : Nat) (connectionName : String) : Database :=
  match db.getOwnGaConnection userId connectionName with
  | none => db
  | some row =>
    ((db.deleteGrantsForResource .gaConnection row.id).delete .gaConnection
      row.id).bulkDeleteSecrets row.secretIds

def Database.deleteKafkaConnection (userId connectionId : Nat) : Database :=
  match db.getOwnKafkaConnection userId connectionId with
  | none => db
  | some row =>
    (row.secretIds.foldl Database.deleteStoredSecret
      (db.deleteGrantsForResource .kafkaConnection row.id)).delete .kafkaConnection row.id

def Database.deleteSchedule (scheduleId : Nat) : Database :=
  { db with
    triggerTables := db.triggerTables.filter fun link => link.scheduleId ≠ scheduleId
    schedules := db.schedules.filter fun schedule => schedule.id ≠ scheduleId }

inductive Request where
  | createNamespace (ownerId : Nat) (parentId : Option Nat)
  | registerFlow (ownerId : Nat) (namespaceId : Option Nat)
  | registerTable (ownerId : Nat) (namespaceId : Option Nat)
  | createVisualization (catalogTableId namespaceId : Option Nat)
  | createDashboard (ownerId : Nat) (namespaceId : Option Nat)
  | createNotebook (ownerId : Nat) (namespaceId : Option Nat)
  | prepareUpload (name : String) (sourceRegistrationId : Nat) (namespaceId : Option Nat)
    (inserted : Bool)
  | finalizeUpload (artifactId : Nat) (verified : Bool)
  | storeSecret (userId : Nat) (name : String)
  | createConnection (kind : ConnectionKind) (userId : Nat) (connectionName : String)
    (secretNames : List String)
  | createShare (grant : ResourceGrant)
  | createSchedule (registrationId : Nat) (scheduleType : ScheduleType)
    (triggerTableId : Option Nat) (triggerTableIds : List Nat)
  | upsertReadLink (tableId registrationId : Nat)
  | deleteShare (grant : ResourceGrant)
  | deleteNamespace (namespaceId : Nat)
  | deleteFlow (registrationId : Nat)
  | deleteTable (tableId : Nat)
  | deleteVisualization (id : Nat)
  | deleteDashboard (id : Nat)
  | deleteNotebook (id : Nat)
  | deleteArtifact (artifactId : Nat)
  | deleteAllVersions (name : String) (namespaceId : Option Nat)
  | deleteSecret (userId : Nat) (name : String)
  | deleteUserSecret (userId : Nat) (name : String)
  | deleteDatabaseConnection (userId : Nat) (connectionName : String)
  | deleteCloudConnection (userId : Nat) (connectionName : String)
  | deleteGaConnection (userId : Nat) (connectionName : String)
  | deleteKafkaConnection (userId connectionId : Nat)
  | deleteSchedule (scheduleId : Nat)

def Database.perform : Request → Database
  | .createNamespace ownerId parentId => db.createNamespace ownerId parentId
  | .registerFlow ownerId namespaceId => db.registerFlow ownerId namespaceId
  | .registerTable ownerId namespaceId => db.registerTable ownerId namespaceId
  | .createVisualization catalogTableId namespaceId =>
    db.createVisualization catalogTableId namespaceId
  | .createDashboard ownerId namespaceId => db.createDashboard ownerId namespaceId
  | .createNotebook ownerId namespaceId => db.createNotebook ownerId namespaceId
  | .prepareUpload name sourceRegistrationId namespaceId inserted =>
    db.prepareUpload name sourceRegistrationId namespaceId inserted
  | .finalizeUpload artifactId verified => db.finalizeUpload artifactId verified
  | .storeSecret userId name => db.storeSecret userId name
  | .createConnection kind userId connectionName secretNames =>
    db.createConnection kind userId connectionName secretNames
  | .createShare grant => db.createShare grant
  | .createSchedule registrationId scheduleType triggerTableId triggerTableIds =>
    db.createSchedule registrationId scheduleType triggerTableId triggerTableIds
  | .upsertReadLink tableId registrationId => db.upsertReadLink tableId registrationId
  | .deleteShare grant => db.deleteShare grant
  | .deleteNamespace namespaceId => db.deleteNamespace namespaceId
  | .deleteFlow registrationId => db.deleteFlow registrationId
  | .deleteTable tableId => db.deleteTable tableId
  | .deleteVisualization id => db.deleteItem .visualization id
  | .deleteDashboard id => db.deleteItem .dashboard id
  | .deleteNotebook id => db.deleteItem .catalogNotebook id
  | .deleteArtifact artifactId => db.deleteArtifact artifactId
  | .deleteAllVersions name namespaceId => db.deleteAllVersions name namespaceId
  | .deleteSecret userId name => db.deleteSecret userId name
  | .deleteUserSecret userId name => db.deleteUserSecret userId name
  | .deleteDatabaseConnection userId connectionName =>
    db.deleteDatabaseConnection userId connectionName
  | .deleteCloudConnection userId connectionName => db.deleteCloudConnection userId connectionName
  | .deleteGaConnection userId connectionName => db.deleteGaConnection userId connectionName
  | .deleteKafkaConnection userId connectionId => db.deleteKafkaConnection userId connectionId
  | .deleteSchedule scheduleId => db.deleteSchedule scheduleId

/-- A request, and whether it passes the checks that are not modelled. -/
structure Attempt where
  request : Request
  passes : Bool

/-- A request that does not pass changes nothing. -/
def Database.attempt (attempt : Attempt) : Database :=
  if attempt.passes then db.perform attempt.request else db

end Flowfile.CatalogRows
