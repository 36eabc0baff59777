import Mathlib.Algebra.Group.Nat.Defs
import Mathlib.Data.List.Sort
import Flowfile.Library.PythonText
import Flowfile.Catalog

/-!
# What project files say

The contents of the files of a project, built from rows of the catalog: stems of file names, flow
data without what changes from machine to machine, and the entries of the manifests at the root. Ids
become names; secrets become placeholders.
-/

namespace Flowfile.Project

open Library.Documents
open Library.PythonText (hexDigit hexValue escapeLetter stripWhere)

/-- The digest of texts: sixty-four hexadecimal digits. -/
class Sha256 where
  hexdigest : String → String
  hexdigest_length : ∀ text, (hexdigest text).length = 64

/-- Characters that stay in a stem. -/
def isPlain (c : Char) : Bool :=
  c.isAlphanum || c = '.' || c = '_' || c = '-'

/-- Put one underscore for each run of other characters. -/
def replaceRuns : Bool → List Char → List Char
  | _, [] => []
  | inRun, c :: rest =>
    if isPlain c then c :: replaceRuns false rest
    else if inRun then replaceRuns true rest
    else '_' :: replaceRuns true rest

/-- A stem that file systems accept. -/
def safeStem (name : String) : String :=
  let cleaned := stripWhere (fun c => c = '.' || c = '_' || c = '-') (replaceRuns false name.toList)
  if cleaned.isEmpty then "flow" else .ofList cleaned

/-- The first eight digits of a digest. -/
def shortDigest [Sha256] (name : String) : String :=
  .ofList ((Sha256.hexdigest name).toList.take 8)

/-- A stem that keeps apart what cleaning makes equal. -/
def uniqueStem [Sha256] (name : String) : String :=
  if safeStem name = name then name else safeStem name ++ "_" ++ shortDigest name

@[irreducible] def nameStem (name : String) : String :=
  safeStem (if ".flow".toList.isSuffixOf name.toList then
    .ofList (name.toList.take (name.length - 5)) else name)

/-- The first eight characters of an identifier. -/
def shortUuid (uuid : String) : String :=
  .ofList (uuid.toList.take 8)

/-- The stem beside one that is taken. -/
def fallbackStem (stem uuid : String) : String :=
  stem ++ "_" ++ shortUuid uuid

/-- The number of a flow: the last fifty-three bits of the digest of its identifier. -/
def deterministicFlowId [Sha256] (flowUuid : String) : Int :=
  ((Sha256.hexdigest flowUuid).toList.foldl
    (fun value c => value * 16 + (hexValue c).getD 0) 0 % 2 ^ 53 : Nat)

def namespaceNodeSettings : List (String × String) :=
  [("catalog_writer", "catalog_write_settings"), ("train_model", "train_input"),
    ("apply_model", "apply_input")]

def stripNode (node : Dict) : Dict :=
  match namespaceNodeSettings.find? fun entry => (node.get "type").filledText = some entry.1 with
  | none => node
  | some entry =>
    match node.get entry.2 with
    | .dict settings =>
      if (Dict.get settings "namespace_full_name").truthy then
        node.set entry.2 (.dict (Dict.set settings "namespace_id" .null))
      else node
    | _ => node

/-- Drop the numbers of namespaces from all nodes whose settings name them. -/
def stripNodeNamespaceIds (data : Dict) : Dict :=
  match data.get "nodes" with
  | .list nodes => data.set "nodes" (.list (nodes.map fun node =>
      match node with
      | .dict entries => .dict (stripNode entries)
      | other => other))
  | _ => data

/-- Forget which registration a flow was saved from. -/
def stripSettings (data : Dict) : Dict :=
  match data.get "flowfile_settings" with
  | .dict settings =>
    data.set "flowfile_settings" (.dict (Dict.set settings "source_registration_id" .null))
  | _ => data

/-- The contents of a flow's project file. What the flow's own file says under the keys of the head
counts. -/
def normalizeFlowData [Sha256] (data : Dict) (flowUuid catalogName : String)
    (place : Option NamespacePath) : Dict :=
  let data := data.set "flowfile_id" (.integer (deterministicFlowId flowUuid))
  let head : Dict := [("flow_uuid", .text flowUuid), ("catalog_name", .text catalogName)] ++
    (place.map fun path => ("namespace", path.value)).toList
  head.merge (stripNodeNamespaceIds (stripSettings data))

def placeholder (name : Option String) : Value :=
  match name with
  | none => .null
  | some name => .text ("$\x7bsecret:" ++ name ++ "\x7d")

/-- The contents of a database connection's file. -/
def dbConnectionDict (database : Database) (conn : DatabaseConnection) : Dict :=
  [("kind", .text "database_connection"), ("connection_name", .text conn.connectionName),
    ("database_type", .ofText conn.databaseType), ("host", .ofText conn.host),
    ("port", .ofInteger conn.port), ("database", .ofText conn.database),
    ("username", .ofText conn.username),
    ("ssl_enabled", (conn.sslEnabled.map Value.boolean).getD .null),
    ("password", placeholder (secretName database conn.passwordId))]

def CloudPlainField.key : CloudPlainField → String
  | .awsRegion => "aws_region"
  | .awsAccessKeyId => "aws_access_key_id"
  | .awsRoleArn => "aws_role_arn"
  | .awsAllowUnsafeHtml => "aws_allow_unsafe_html"
  | .azureAccountName => "azure_account_name"
  | .azureTenantId => "azure_tenant_id"
  | .azureClientId => "azure_client_id"
  | .gcsProjectId => "gcs_project_id"
  | .endpointUrl => "endpoint_url"
  | .verifySsl => "verify_ssl"

def CloudSecretField.key : CloudSecretField → String
  | .awsSecretAccessKey => "aws_secret_access_key"
  | .azureAccountKey => "azure_account_key"
  | .azureClientSecret => "azure_client_secret"
  | .azureSasToken => "azure_sas_token"
  | .gcsServiceAccountKey => "gcs_service_account_key"

/-- Plain columns in the order of the file. -/
def cloudPlainFields : List CloudPlainField :=
  [.awsRegion, .awsAccessKeyId, .awsRoleArn, .awsAllowUnsafeHtml, .azureAccountName,
    .azureTenantId, .azureClientId, .gcsProjectId, .endpointUrl, .verifySsl]

/-- Secrets in the order of the file. -/
def cloudSecrets : List CloudSecretField :=
  [.awsSecretAccessKey, .azureAccountKey, .azureClientSecret, .azureSasToken, .gcsServiceAccountKey]

/-- The contents of a cloud connection's file. -/
def cloudConnectionDict (database : Database) (conn : CloudStorageConnection) : Dict :=
  [("kind", .text "cloud_connection"), ("connection_name", .text conn.connectionName),
    ("storage_type", .text conn.storageType), ("auth_method", .text conn.authMethod)] ++
  cloudPlainFields.map (fun field => (field.key, conn.plain field)) ++
  cloudSecrets.map fun field =>
    (field.key, placeholder (secretName database (conn.secretId field)))

def projectableScheduleTypes : List String :=
  ["interval", "cron"]

def scheduleDict (schedule : FlowSchedule) : Dict :=
  [("name", .ofText schedule.name), ("enabled", .boolean schedule.enabled),
    ("schedule_type", .text schedule.scheduleType),
    ("interval_seconds", .ofInteger schedule.intervalSeconds),
    ("cron_expression", .ofText schedule.cronExpression),
    ("cron_timezone", .ofText schedule.cronTimezone),
    ("description", .ofText schedule.description)]

def schedulesFile (flowUuid : String) (schedules : List FlowSchedule) : Dict :=
  [("flow_uuid", .text flowUuid), ("schedules", .list (schedules.map (.dict ∘ scheduleDict)))]

def NotebookCell.value (cell : NotebookCell) : Value :=
  .dict [("id", .text cell.id), ("type", .text cell.type), ("metadata", .dict cell.metadata),
    ("source", .text cell.source)]

/-- The contents of a notebook's file. -/
def serializeNotebook (notebook : CatalogNotebook) (place : Option NamespacePath)
    (cells : List NotebookCell) : Dict :=
  [("notebook_format", .integer 1), ("notebook_uuid", .text notebook.notebookUuid),
    ("name", .text notebook.name), ("description", .ofText notebook.description),
    ("default_kernel_id", .ofText notebook.defaultKernelId), ("namespace", placeValue place),
    ("cells", .list (cells.map NotebookCell.value))]

/-- A character in JSON text of plain characters. -/
def asciiEscape (c : Char) : List Char :=
  let unit (value : Nat) : List Char :=
    ['\\', 'u', hexDigit (value / 4096), hexDigit (value / 256 % 16), hexDigit (value / 16 % 16),
      hexDigit (value % 16)]
  match escapeLetter c with
  | some letter => ['\\', letter]
  | none =>
    if 32 ≤ c.toNat ∧ c.toNat < 127 then [c]
    else if c.toNat < 65536 then unit c.toNat
    else
      unit (55296 + (c.toNat - 65536) / 1024) ++ unit (56320 + (c.toNat - 65536) % 1024)

def asciiText (text : String) : String :=
  .ofList ('"' :: (text.toList.flatMap asciiEscape ++ ['"']))

def placeText : Option NamespacePath → String
  | none => "null"
  | some place => "\x7b\"catalog\": " ++ asciiText place.catalog ++ ", \"schema\": " ++
      (place.schema.map asciiText).getD "null" ++ "\x7d"

def sortOn {α κ : Type} (le : κ → κ → Bool) (key : α → κ) (items : List α) : List α :=
  items.insertionSort fun first second => le (key first) (key second) = true

def textLe (first second : String) : Bool :=
  first ≤ second

/-- The order of pairs of texts. -/
def pairLe (first second : String × String) : Bool :=
  first.1 < second.1 || (first.1 = second.1 && first.2 ≤ second.2)

section

variable (database : Database) (ownerId : Nat)

def secretManifest : Dict :=
  let linked :=
    (database.databaseConnections.filter (·.userId = ownerId)).filterMap (·.passwordId) ++
    (database.cloudConnections.filter (·.userId = ownerId)).flatMap fun conn =>
      cloudSecrets.filterMap conn.secretId ++ conn.awsSessionTokenId.toList
  let standalone := (database.secrets.filter fun secret =>
    secret.userId = ownerId ∧ secret.id ∉ linked).map Secret.name
  [("required_secrets", .list ((sortOn textLe id standalone.dedup).map .text))]

def namespaceEntry (nameKey name : String) (description : Option String) (isPublic : Bool) : Dict :=
  [(nameKey, .text name)] ++
    (description.map fun text => ("description", Value.text text)).toList ++
    if isPublic then [("is_public", .boolean true)] else []

/-- The catalogs of the owner and those that hold schemas of the owner. A later catalog of the same
name takes the place of an earlier one. -/
def catalogEntries : List (String × Dict) :=
  let rows := database.namespaces.filter (·.ownerId = ownerId)
  let own := (rows.filter (·.parentId = none)).foldl
    (fun entries row => entries.filter (·.1 ≠ row.name) ++
      [(row.name, namespaceEntry "catalog" row.name row.description row.isPublic)]) []
  rows.foldl
    (fun entries row =>
      match row.parentId with
      | none => entries
      | some parentId =>
        let parent := database.getNamespace parentId
        let catalogName := (parent.map CatalogNamespace.name).getD row.name
        if entries.any (·.1 = catalogName) then entries
        else entries ++ [(catalogName, namespaceEntry "catalog" catalogName none
          ((parent.map CatalogNamespace.isPublic).getD false))])
    own

def schemaEntries (catalogName : String) : List Dict :=
  let rows := database.namespaces.filter fun row =>
    row.ownerId = ownerId ∧ (row.parentId.map fun parentId =>
      ((database.getNamespace parentId).map CatalogNamespace.name).getD row.name) = some catalogName
  (sortOn textLe CatalogNamespace.name rows).map fun row =>
    namespaceEntry "name" row.name row.description row.isPublic

/-- The owner's tree of namespaces by names. -/
def namespaceManifest : Dict :=
  [("namespaces", .list ((sortOn textLe Prod.fst (catalogEntries database ownerId)).map fun entry =>
    .dict (entry.2 ++ [("schemas", .list ((schemaEntries database ownerId entry.1).map .dict))])))]

/-- Which paths lie under the directory of the catalog's own tables. -/
class Storage where
  isManaged : String → Bool
  baseName : String → String

def tablePointer [Storage] (table : CatalogTable) : Dict :=
  match table.filePath with
  | some path =>
    if path = "" then [("type", .text "none")]
    else if Storage.isManaged path then
      [("type", .text "managed"), ("name", .text (Storage.baseName path))]
    else [("type", .text "external"), ("path", .text path)]
  | none => [("type", .text "none")]

def tableEntry [Storage] (table : CatalogTable) : Dict :=
  [("name", .text table.name), ("namespace", placeValue (namespacePath database table.namespaceId)),
    ("table_type", .text table.tableType), ("storage_format", .text table.storageFormat)] ++
  (table.description.map fun text => ("description", Value.text text)).toList ++
  [("schema", .list (table.schema.map fun column =>
    .dict [("name", .text column.name), ("dtype", .text column.dtype)]))] ++
  (if table.partitionColumns = [] then [] else
    [("partition_columns", .list (table.partitionColumns.map .text))]) ++
  [if table.tableType = "virtual" then ("sql_query", .ofText table.sqlQuery)
    else ("pointer", .dict (tablePointer table))] ++
  (do
    let registration ← database.registration (← table.sourceRegistrationId)
    return ("source_flow_uuid", Value.text registration.flowUuid)).toList

/-- Tables other than those that flows make on demand. -/
def tablesManifest [Storage] : Dict :=
  let rows := database.tables.filter fun table => table.ownerId = ownerId ∧
    ¬(table.tableType = "virtual" ∧ table.sqlQuery.getD "" = "")
  let sorted := sortOn pairLe
    (fun table => (table.name, placeText (namespacePath database table.namespaceId))) rows
  [("tables", .list (sorted.map fun table => .dict (tableEntry database table)))]

def artifactEntry (artifact : GlobalArtifact) : Dict :=
  [("name", .text artifact.name),
    ("namespace", placeValue (namespacePath database artifact.namespaceId)),
    ("version", .integer artifact.version),
    ("serialization_format", .text artifact.serializationFormat)] ++
  ((database.registration artifact.sourceRegistrationId).map fun registration =>
    ("source_flow_uuid", Value.text registration.flowUuid)).toList ++
  (artifact.pythonType.map fun text => ("python_type", Value.text text)).toList ++
  (artifact.pythonModule.map fun text => ("python_module", Value.text text)).toList ++
  (artifact.description.map fun text => ("description", Value.text text)).toList ++
  if artifact.tags = [] then [] else [("tags", .list (artifact.tags.map .text))]

/-- The order of models: by name, place and version. -/
def modelLe (first second : (String × String) × Int) : Bool :=
  if first.1 = second.1 then first.2 ≤ second.2 else pairLe first.1 second.1

def modelsManifest : Dict :=
  let rows := database.artifacts.filter fun artifact =>
    artifact.ownerId = ownerId ∧ artifact.status = "active"
  let place (artifact : GlobalArtifact) := placeText (namespacePath database artifact.namespaceId)
  let sorted := sortOn modelLe
    (fun artifact => ((artifact.name, place artifact), artifact.version)) rows
  [("models", .list (sorted.map fun artifact => .dict (artifactEntry database artifact)))]

def kernelEntry (kernel : Kernel) : Dict :=
  [("id", .text kernel.id), ("name", .text kernel.name),
    ("image_flavour", .text kernel.imageFlavour),
    ("packages", .list ((sortOn textLe id kernel.packages).map .text)),
    ("cpu_cores", kernel.cpuCores), ("memory_gb", kernel.memoryGb), ("gpu", .boolean kernel.gpu)] ++
  match kernel.customImage with
  | some image => if image = "" then [] else [("custom_image", .text image)]
  | none => []

def kernelsManifest : Dict :=
  let sorted := sortOn pairLe (fun kernel => (kernel.name, kernel.id))
    (database.kernels.filter (·.userId = ownerId))
  [("kernels", .list (sorted.map fun kernel => .dict (kernelEntry kernel)))]

/-- A reference to a table by names. -/
def tableRef (tableId : Option Nat) : Value :=
  match tableId.bind database.table with
  | none => .null
  | some table =>
    let place := namespacePath database table.namespaceId
    .dict [("catalog", .ofText (place.map NamespacePath.catalog)),
      ("schema", .ofText (place.bind NamespacePath.schema)), ("name", .text table.name)]

variable (viz : CatalogVisualization)

def CatalogVisualization.isSql : Bool :=
  viz.sourceType = "sql"

def visualizationEntry : Dict :=
  [("viz_uuid", .text viz.vizUuid), ("name", .text viz.name),
    ("namespace", placeValue (namespacePath database viz.namespaceId)),
    ("source_type", .text (if viz.sourceType = "" then "table" else viz.sourceType)),
    ("spec", viz.spec)] ++
  [if viz.isSql then ("sql_query", .ofText viz.sqlQuery)
    else ("source_table", tableRef database viz.catalogTableId)] ++
  (viz.description.map fun text => ("description", Value.text text)).toList ++
  (viz.chartType.map fun text => ("chart_type", Value.text text)).toList ++
  (viz.specGwVersion.map fun text => ("spec_gw_version", Value.text text)).toList

def visualizationsManifest : Dict :=
  let sorted := sortOn pairLe (fun viz => (viz.name, viz.vizUuid))
    (database.visualizations.filter (·.createdBy = some ownerId))
  [("visualizations", .list (sorted.map fun viz => .dict (visualizationEntry database viz)))]

/-- Replace a reference by what it stands for elsewhere, under another key at the end. -/
def exchange (key portable : String) (translate : Value → Value) (item : Value) : Value :=
  match item with
  | .dict entries =>
    if Dict.has entries key then
      .dict (Dict.set (Dict.drop entries key) portable (translate (Dict.get entries key)))
    else item
  | _ => item

/-- The number that a value stands for. -/
def idOf : Value → Option Nat
  | .integer (.ofNat id) => some id
  | _ => none

def mapItems (dict : Dict) (key : String) (translate : Value → Value) : Dict :=
  match dict.get key with
  | .list items => dict.set key (.list (items.map translate))
  | _ => dict

/-- The layout of a dashboard by names and identifiers. -/
def portableLayout (layout : Dict) : Dict :=
  let vizUuid (value : Value) : Value :=
    .ofText (((idOf value).bind database.visualization).map CatalogVisualization.vizUuid)
  let datasource (value : Value) : Value := tableRef database (idOf value)
  mapItems (mapItems layout "tiles" (exchange "viz_id" "viz_uuid" vizUuid)) "filters"
    (exchange "datasource_id" "datasource" datasource)

def dashboardEntry (dashboard : CatalogDashboard) : Dict :=
  [("dashboard_uuid", .text dashboard.dashboardUuid), ("name", .text dashboard.name),
    ("namespace", placeValue (namespacePath database dashboard.namespaceId)),
    ("layout", .dict (portableLayout database dashboard.layout))] ++
  (dashboard.description.map fun text => ("description", Value.text text)).toList

def dashboardsManifest : Dict :=
  let sorted := sortOn pairLe (fun dashboard => (dashboard.name, dashboard.dashboardUuid))
    (database.dashboards.filter (·.createdBy = some ownerId))
  [("dashboards", .list (sorted.map fun dashboard => .dict (dashboardEntry database dashboard)))]

end

end Flowfile.Project
