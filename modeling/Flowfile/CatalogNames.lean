import Flowfile.Library.EventRuns
import Flowfile.Library.RowIds
import Flowfile.Library.ScopedNames

/-!
# Names in the catalog

Tables and namespaces of the catalog are referred to by names, qualified ones with a dot. New rows
are validated: their names have no dot and are free where they are put. Updates set names and
namespaces without these checks; only the unique constraints of the database refuse some of them,
and the constraints do not see rows that have no namespace or no parent.

So names stay in order exactly along the runs in which no update that is accepted brings in a dot or
a name that another row without a namespace or parent has.
-/

namespace Flowfile.Naming

open Library.EventRuns Library.RowIds Library.ScopedNames List

structure CatalogNamespace where
  id : Nat
  name : String
  parentId : Option Nat
  level : Nat
deriving DecidableEq

inductive TableType where
  | physical
  | virtual
deriving DecidableEq

structure CatalogTable where
  id : Nat
  name : String
  namespaceId : Option Nat
  tableType : TableType
  producerRegistrationId : Option Nat
  sqlQuery : Option String
deriving DecidableEq

/-- Why an operation was refused. -/
inductive CatalogError where
  | valueError (message : String)
  | namespaceNotFound (namespaceId : Nat)
  | nestingLimit (parentId parentLevel : Nat)
  | namespaceExists (name : String) (parentId : Option Nat)
  | tableExists (name : String) (namespaceId : Option Nat)
  | tableNotFound (tableId : Nat)
  | flowNotFound (registrationId : Nat)
  | invalidNamespaceStorage
  | integrityError

def tableNaming : Naming CatalogTable Nat String :=
  ⟨CatalogTable.id, CatalogTable.namespaceId, CatalogTable.name⟩

def namespaceNaming : Naming CatalogNamespace Nat String :=
  ⟨CatalogNamespace.id, CatalogNamespace.parentId, CatalogNamespace.name⟩

structure Catalog where
  namespaces : List CatalogNamespace
  distinctNamespaces : (namespaces.map namespaceNaming.id).Nodup
  tables : List CatalogTable
  distinctTables : (tables.map tableNaming.id).Nodup
  flows : List Nat

/-- What is asked of the catalog. The answers of the worker, of the storage and of the query engine
come with the request. -/
inductive Request where
  | createNamespace (name : String) (parentId : Option Nat) (storageAccepted : Bool)
  | updateNamespace (namespaceId : Nat) (name : Option String) (storageAccepted : Bool)
  | registerTable (name : String) (namespaceId : Option Nat) (materialized : Bool)
  | updateTable (tableId : Nat) (name : Option String) (namespaceId : Option Nat)
      (sameStorage : Bool)
  | createVirtualFlowTable (name : String) (producer : Nat) (namespaceId : Option Nat)
  | updateVirtualFlowTable (tableId : Nat) (name : Option String)
      (namespaceId producer : Option Nat)
  | createQueryVirtualTable (name sqlQuery : String) (namespaceId : Option Nat) (safe ran : Bool)
  | updateQueryVirtualTable (tableId : Nat) (name : Option String) (namespaceId : Option Nat)
      (sqlQuery : Option String) (ran : Bool)

variable (catalog : Catalog)

def Catalog.getNamespace (namespaceId : Nat) : Option CatalogNamespace :=
  catalog.namespaces.find? fun row => row.id = namespaceId

def Catalog.getNamespaceByName (name : String) (parentId : Option Nat) : Option CatalogNamespace :=
  catalog.namespaces.find? fun row => row.name = name && row.parentId = parentId

def Catalog.getTable (tableId : Nat) : Option CatalogTable :=
  catalog.tables.find? fun row => row.id = tableId

def Catalog.getTableByName (name : String) (namespaceId : Option Nat) : Option CatalogTable :=
  catalog.tables.find? fun row => row.name = name && row.namespaceId = namespaceId

/-- Add a namespace. Its name was found free, so that the constraint accepts it. -/
def Catalog.insertNamespace (name : String) (parentId : Option Nat) (level : Nat) : Catalog :=
  { catalog with
    namespaces := catalog.namespaces ++
      [⟨nextId (catalog.namespaces.map namespaceNaming.id), name, parentId, level⟩]
    distinctNamespaces := nodup_concat catalog.distinctNamespaces rfl }

def Catalog.insertTable (name : String) (namespaceId : Option Nat) (tableType : TableType)
    (producer : Option Nat) (sqlQuery : Option String) : Catalog :=
  { catalog with
    tables := catalog.tables ++ [⟨nextId (catalog.tables.map tableNaming.id), name, namespaceId,
      tableType, producer, sqlQuery⟩]
    distinctTables := nodup_concat catalog.distinctTables rfl }

/-- Commit a changed namespace, unless the unique constraint refuses it. -/
def Catalog.storeNamespace (row : CatalogNamespace) : Except CatalogError Catalog :=
  if namespaceNaming.Constraint (namespaceNaming.replace row catalog.namespaces) then
    .ok { catalog with
      namespaces := namespaceNaming.replace row catalog.namespaces
      distinctNamespaces := by rw [map_id_replace]; exact catalog.distinctNamespaces }
  else .error .integrityError

/-- Commit a changed table, unless the unique constraint refuses it. -/
def Catalog.storeTable (row : CatalogTable) : Except CatalogError Catalog :=
  if tableNaming.Constraint (tableNaming.replace row catalog.tables) then
    .ok { catalog with
      tables := tableNaming.replace row catalog.tables
      distinctTables := by rw [map_id_replace]; exact catalog.distinctTables }
  else .error .integrityError

def hasDot (name : String) : Bool :=
  '.' ∈ name.toList

def dotMessage (name kind : String) : String :=
  kind ++ " name '" ++ name ++ "' must not contain '.' — the dot is reserved for qualified " ++
    "table references (e.g. 'schema.table_name')."

def rejectDotInName (name kind : String) : Except CatalogError Unit :=
  if hasDot name then .error (.valueError (dotMessage name kind)) else .ok ()

def Catalog.validateTableRegistration (name : String) (namespaceId : Option Nat) :
    Except CatalogError Unit := do
  rejectDotInName name "Table"
  match namespaceId with
  | some id => if (catalog.getNamespace id).isNone then throw (.namespaceNotFound id)
  | none => pure ()
  if (catalog.getTableByName name namespaceId).isSome then throw (.tableExists name namespaceId)

def Catalog.levelBelow (parentId : Option Nat) : Except CatalogError Nat :=
  match parentId with
  | none => .ok 0
  | some id =>
    match catalog.getNamespace id with
    | none => .error (.namespaceNotFound id)
    | some parent =>
      if 1 ≤ parent.level then .error (.nestingLimit id parent.level) else .ok (parent.level + 1)

def Catalog.createNamespace (name : String) (parentId : Option Nat) (storageAccepted : Bool) :
    Except CatalogError Catalog := do
  rejectDotInName name "Namespace"
  let level ← catalog.levelBelow parentId
  if (catalog.getNamespaceByName name parentId).isSome then throw (.namespaceExists name parentId)
  if !storageAccepted then throw .invalidNamespaceStorage
  return catalog.insertNamespace name parentId level

def Catalog.updateNamespace (namespaceId : Nat) (name : Option String) (storageAccepted : Bool) :
    Except CatalogError Catalog :=
  match catalog.getNamespace namespaceId with
  | none => .error (.namespaceNotFound namespaceId)
  | some row =>
    if storageAccepted then catalog.storeNamespace { row with name := name.getD row.name }
    else .error .invalidNamespaceStorage

/-- Register a table with its data, which the worker has written or writes now. -/
def Catalog.registerTable (name : String) (namespaceId : Option Nat) (materialized : Bool) :
    Except CatalogError Catalog := do
  catalog.validateTableRegistration name namespaceId
  if !materialized then throw (.valueError "Worker catalog materialization failed")
  return catalog.insertTable name namespaceId .physical none none

def CatalogTable.moved (table : CatalogTable) (name : Option String) (namespaceId : Option Nat) :
    CatalogTable :=
  { table with name := name.getD table.name, namespaceId := namespaceId.or table.namespaceId }

def Catalog.updateTable (tableId : Nat) (name : Option String) (namespaceId : Option Nat)
    (sameStorage : Bool) : Except CatalogError Catalog :=
  match catalog.getTable tableId with
  | none => .error (.tableNotFound tableId)
  | some table =>
    if namespaceId.isSome ∧ namespaceId ≠ table.namespaceId ∧ sameStorage = false then
      .error .invalidNamespaceStorage
    else catalog.storeTable (table.moved name namespaceId)

def Catalog.createVirtualFlowTable (name : String) (producer : Nat) (namespaceId : Option Nat) :
    Except CatalogError Catalog := do
  if producer ∉ catalog.flows then throw (.flowNotFound producer)
  catalog.validateTableRegistration name namespaceId
  return catalog.insertTable name namespaceId .virtual (some producer) none

def Catalog.updateVirtualFlowTable (tableId : Nat) (name : Option String)
    (namespaceId producer : Option Nat) : Except CatalogError Catalog :=
  match catalog.getTable tableId with
  | none => .error (.tableNotFound tableId)
  | some table =>
    if table.tableType ≠ .virtual then .error (.tableNotFound tableId)
    else
      match producer with
      | none => catalog.storeTable (table.moved name namespaceId)
      | some id =>
        if id ∈ catalog.flows then
          catalog.storeTable
            { table.moved name namespaceId with producerRegistrationId := some id }
        else .error (.flowNotFound id)

/-- Whether the query runs is found after the name has been validated. -/
def Catalog.createQueryVirtualTable (name sqlQuery : String) (namespaceId : Option Nat)
    (safe ran : Bool) : Except CatalogError Catalog := do
  if !safe then throw (.valueError "Unsafe SQL query")
  catalog.validateTableRegistration name namespaceId
  if !ran then throw (.valueError "SQL query failed")
  return catalog.insertTable name namespaceId .virtual none (some sqlQuery)

def CatalogTable.isQuery (table : CatalogTable) : Bool :=
  table.tableType = .virtual && table.sqlQuery.any (· ≠ "")

def Catalog.updateQueryVirtualTable (tableId : Nat) (name : Option String)
    (namespaceId : Option Nat) (sqlQuery : Option String) (ran : Bool) :
    Except CatalogError Catalog :=
  match catalog.getTable tableId with
  | none => .error (.tableNotFound tableId)
  | some table =>
    if table.isQuery then
      match sqlQuery with
      | none => catalog.storeTable (table.moved name namespaceId)
      | some query =>
        if ran then
          catalog.storeTable { table.moved name namespaceId with sqlQuery := some query }
        else .error (.valueError "SQL query failed")
    else .error (.tableNotFound tableId)

def Catalog.handle : Request → Except CatalogError Catalog
  | .createNamespace name parentId storageAccepted =>
    catalog.createNamespace name parentId storageAccepted
  | .updateNamespace namespaceId name storageAccepted =>
    catalog.updateNamespace namespaceId name storageAccepted
  | .registerTable name namespaceId materialized =>
    catalog.registerTable name namespaceId materialized
  | .updateTable tableId name namespaceId sameStorage =>
    catalog.updateTable tableId name namespaceId sameStorage
  | .createVirtualFlowTable name producer namespaceId =>
    catalog.createVirtualFlowTable name producer namespaceId
  | .updateVirtualFlowTable tableId name namespaceId producer =>
    catalog.updateVirtualFlowTable tableId name namespaceId producer
  | .createQueryVirtualTable name sqlQuery namespaceId safe ran =>
    catalog.createQueryVirtualTable name sqlQuery namespaceId safe ran
  | .updateQueryVirtualTable tableId name namespaceId sqlQuery ran =>
    catalog.updateQueryVirtualTable tableId name namespaceId sqlQuery ran

/-- The rows after an outcome. A request that is refused changes nothing. -/
def Catalog.settle : Except CatalogError Catalog → Catalog
  | .ok after => after
  | .error _ => catalog

def Catalog.step (request : Request) : Catalog :=
  catalog.settle (catalog.handle request)

open Catalog (step)

structure Catalog.NamesInOrder (catalog : Catalog) : Prop where
  tables : tableNaming.Distinct catalog.tables
  namespaces : namespaceNaming.Distinct catalog.namespaces
  tableNames : ∀ table ∈ catalog.tables, hasDot table.name = false
  namespaceNames : ∀ row ∈ catalog.namespaces, hasDot row.name = false

def formatFullName (namespaceName : Option String) (tableName : String) : String :=
  match namespaceName with
  | some name => if name = "" then tableName else name ++ "." ++ tableName
  | none => tableName

def partitionAtDot (reference : String) : String × String :=
  (.ofList (reference.toList.takeWhile (· ≠ '.')),
    .ofList ((reference.toList.dropWhile (· ≠ '.')).drop 1))

/-- The qualified name of a table parses back to the names of its namespace and its own, and these
find the table. -/
def Catalog.ParsesBack (catalog : Catalog) : Prop :=
  ∀ row ∈ catalog.namespaces, row.name ≠ "" →
    ∀ table ∈ catalog.tables, table.namespaceId = some row.id →
      partitionAtDot (formatFullName (some row.name) table.name) = (row.name, table.name) ∧
        catalog.getTableByName table.name (some row.id) = some table

def Acceptable {α : Type} (naming : Naming α Nat String) (rows : List α) (row : α) : Prop :=
  ((naming.scope row).isSome → naming.Free row rows) →
    naming.Free row rows ∧ hasDot (naming.name row) = false

instance {α : Type} (naming : Naming α Nat String) (rows : List α) (row : α) :
    Decidable (Acceptable naming rows row) :=
  inferInstanceAs (Decidable (_ → _))

/-- Requests that keep names in order: creations, updates that are refused, and updates whose name
is free and without a dot. -/
def Catalog.Allows : Request → Prop
  | .updateNamespace namespaceId name storageAccepted =>
    ∀ row, catalog.getNamespace namespaceId = some row → storageAccepted = true →
      Acceptable namespaceNaming catalog.namespaces { row with name := name.getD row.name }
  | .updateTable tableId name namespaceId sameStorage =>
    ∀ table, catalog.getTable tableId = some table →
      ¬ (namespaceId.isSome ∧ namespaceId ≠ table.namespaceId ∧ sameStorage = false) →
      Acceptable tableNaming catalog.tables (table.moved name namespaceId)
  | .updateVirtualFlowTable tableId name namespaceId producer =>
    ∀ table, catalog.getTable tableId = some table → table.tableType = .virtual →
      (∀ id, producer = some id → id ∈ catalog.flows) →
      Acceptable tableNaming catalog.tables (table.moved name namespaceId)
  | .updateQueryVirtualTable tableId name namespaceId sqlQuery ran =>
    ∀ table, catalog.getTable tableId = some table → table.isQuery = true →
      (sqlQuery.isSome → ran = true) →
      Acceptable tableNaming catalog.tables (table.moved name namespaceId)
  | _ => True

variable {row : CatalogTable} {parentId : Option Nat} {after : Catalog}

section

variable {catalog}

theorem storeTable_inOrder (inOrder : catalog.NamesInOrder)
    (listed : row.id ∈ catalog.tables.map tableNaming.id) :
    (catalog.settle (catalog.storeTable row)).NamesInOrder ↔
      Acceptable tableNaming catalog.tables row := by
  have accepts := constraint_replace_iff inOrder.tables listed
  rw [Catalog.storeTable, Acceptable]
  by_cases accepted : tableNaming.Constraint (tableNaming.replace row catalog.tables)
  · rw [if_pos accepted]
    have keeps := distinct_replace_iff inOrder.tables listed
    constructor
    · intro after _
      refine ⟨keeps.mp after.tables, ?_⟩
      exact after.tableNames row (mem_replace.mpr (.inl ⟨rfl, listed⟩))
    · intro acceptable
      obtain ⟨free, undotted⟩ := acceptable (accepts.mp accepted)
      refine ⟨keeps.mpr free, inOrder.namespaces, ?_, inOrder.namespaceNames⟩
      intro table mem
      obtain ⟨rfl, _⟩ | ⟨isOld, _⟩ := mem_replace.mp mem
      · exact undotted
      · exact inOrder.tableNames table isOld
  · rw [if_neg accepted]
    exact iff_of_true inOrder fun free => absurd (accepts.mpr free) accepted

theorem storeNamespace_inOrder (inOrder : catalog.NamesInOrder) {row : CatalogNamespace}
    (listed : row.id ∈ catalog.namespaces.map namespaceNaming.id) :
    (catalog.settle (catalog.storeNamespace row)).NamesInOrder ↔
      Acceptable namespaceNaming catalog.namespaces row := by
  have accepts := constraint_replace_iff inOrder.namespaces listed
  rw [Catalog.storeNamespace, Acceptable]
  by_cases accepted : namespaceNaming.Constraint (namespaceNaming.replace row catalog.namespaces)
  · rw [if_pos accepted]
    have keeps := distinct_replace_iff inOrder.namespaces listed
    constructor
    · intro after _
      refine ⟨keeps.mp after.namespaces, ?_⟩
      exact after.namespaceNames row (mem_replace.mpr (.inl ⟨rfl, listed⟩))
    · intro acceptable
      obtain ⟨free, undotted⟩ := acceptable (accepts.mp accepted)
      refine ⟨inOrder.tables, keeps.mpr free, inOrder.tableNames, ?_⟩
      intro other mem
      obtain ⟨rfl, _⟩ | ⟨isOld, _⟩ := mem_replace.mp mem
      · exact undotted
      · exact inOrder.namespaceNames other isOld
  · rw [if_neg accepted]
    exact iff_of_true inOrder fun free => absurd (accepts.mpr free) accepted

theorem settle_inOrder (inOrder : catalog.NamesInOrder) {outcome : Except CatalogError Catalog}
    (keeps : ∀ after, outcome = .ok after → after.NamesInOrder) :
    (catalog.settle outcome).NamesInOrder := by
  cases outcome with
  | ok after => exact keeps after rfl
  | error _ => exact inOrder

variable {namespaceId : Option Nat} {name : String}

theorem insertTable_inOrder (inOrder : catalog.NamesInOrder) (undotted : hasDot name = false)
    (unused : catalog.getTableByName name namespaceId = none) (tableType : TableType)
    (producer : Option Nat) (sqlQuery : Option String) :
    (catalog.insertTable name namespaceId tableType producer sqlQuery).NamesInOrder := by
  refine ⟨inOrder.tables.add ?_, inOrder.namespaces, ?_, inOrder.namespaceNames⟩
  · intro table mem sameScope sameName
    have missing := List.find?_eq_none.mp unused table mem
    exact missing (by simpa using ⟨sameName, sameScope⟩)
  · intro table mem
    obtain isOld | isNew := mem_append.mp mem
    · exact inOrder.tableNames table isOld
    · rw [mem_singleton.mp isNew]
      exact undotted

theorem insertNamespace_inOrder (inOrder : catalog.NamesInOrder) (undotted : hasDot name = false)
    (unused : catalog.getNamespaceByName name parentId = none) (level : Nat) :
    (catalog.insertNamespace name parentId level).NamesInOrder := by
  refine ⟨inOrder.tables, inOrder.namespaces.add ?_, inOrder.tableNames, ?_⟩
  · intro row mem sameScope sameName
    have missing := List.find?_eq_none.mp unused row mem
    exact missing (by simpa using ⟨sameName, sameScope⟩)
  · intro row mem
    obtain isOld | isNew := mem_append.mp mem
    · exact inOrder.namespaceNames row isOld
    · rw [mem_singleton.mp isNew]
      exact undotted

theorem undotted_of_accepted {name kind : String} (accepted : rejectDotInName name kind = .ok ()) :
    hasDot name = false := by
  rw [rejectDotInName] at accepted
  split at accepted
  case isTrue => cases accepted
  case isFalse undotted => exact Bool.eq_false_iff.mpr undotted

theorem validated (accepted : catalog.validateTableRegistration name namespaceId = .ok ()) :
    hasDot name = false ∧ catalog.getTableByName name namespaceId = none := by
  rw [Catalog.validateTableRegistration] at accepted
  cases shape : rejectDotInName name "Table" with
  | error _ =>
    rw [shape] at accepted
    cases accepted
  | ok _ =>
  refine ⟨undotted_of_accepted shape, ?_⟩
  cases found : catalog.getTableByName name namespaceId with
  | none => rfl
  | some table =>
  rw [shape, found] at accepted
  cases namespaceId with
  | none => cases accepted
  | some id =>
  cases missing : (catalog.getNamespace id).isNone
  all_goals
    simp only [missing] at accepted
    cases accepted

section

variable (inOrder : catalog.NamesInOrder)
include inOrder

theorem createNamespace_inOrder {storageAccepted : Bool}
    (created : catalog.createNamespace name parentId storageAccepted = .ok after) :
    after.NamesInOrder := by
  rw [Catalog.createNamespace] at created
  cases shape : rejectDotInName name "Namespace" with
  | error _ =>
    rw [shape] at created
    cases created
  | ok _ =>
  cases below : catalog.levelBelow parentId with
  | error _ =>
    rw [shape, below] at created
    cases created
  | ok level =>
  cases found : catalog.getNamespaceByName name parentId with
  | some _ =>
    rw [shape, below, found] at created
    cases created
  | none =>
  rw [shape, below, found] at created
  cases storageAccepted with
  | false => cases created
  | true =>
    cases created
    exact insertNamespace_inOrder inOrder (undotted_of_accepted shape) found level

theorem registerTable_inOrder {materialized : Bool}
    (registered : catalog.registerTable name namespaceId materialized = .ok after) :
    after.NamesInOrder := by
  rw [Catalog.registerTable] at registered
  cases valid : catalog.validateTableRegistration name namespaceId with
  | error _ =>
    rw [valid] at registered
    cases registered
  | ok _ =>
  obtain ⟨undotted, unused⟩ := validated valid
  rw [valid] at registered
  cases materialized with
  | false => cases registered
  | true =>
    cases registered
    exact insertTable_inOrder inOrder undotted unused _ _ _

theorem createVirtualFlowTable_inOrder {producer : Nat}
    (created : catalog.createVirtualFlowTable name producer namespaceId = .ok after) :
    after.NamesInOrder := by
  rw [Catalog.createVirtualFlowTable] at created
  by_cases unknown : producer ∉ catalog.flows
  · rw [if_pos unknown] at created
    cases created
  rw [if_neg unknown] at created
  cases valid : catalog.validateTableRegistration name namespaceId with
  | error _ =>
    rw [valid] at created
    cases created
  | ok _ =>
  obtain ⟨undotted, unused⟩ := validated valid
  rw [valid] at created
  cases created
  exact insertTable_inOrder inOrder undotted unused _ _ _

theorem createQueryVirtualTable_inOrder {name sqlQuery : String} {safe ran : Bool}
    (created : catalog.createQueryVirtualTable name sqlQuery namespaceId safe ran = .ok after) :
    after.NamesInOrder := by
  rw [Catalog.createQueryVirtualTable] at created
  cases safe with
  | false => cases created
  | true =>
  cases valid : catalog.validateTableRegistration name namespaceId with
  | error _ =>
    rw [valid] at created
    cases created
  | ok _ =>
  obtain ⟨undotted, unused⟩ := validated valid
  rw [valid] at created
  cases ran with
  | false => cases created
  | true =>
    cases created
    exact insertTable_inOrder inOrder undotted unused _ _ _

theorem storeFound_inOrder {tableId : Nat} {table : CatalogTable}
    (found : catalog.getTable tableId = some table) (sameId : row.id = table.id) :
    (catalog.settle (catalog.storeTable row)).NamesInOrder ↔
      Acceptable tableNaming catalog.tables row := by
  apply storeTable_inOrder inOrder
  rw [sameId]
  exact mem_map.mpr ⟨table, mem_of_find?_eq_some found, rfl⟩

theorem updateNamespace_inOrder (namespaceId : Nat)
    (name : Option String) (storageAccepted : Bool) :
    (catalog.settle (catalog.updateNamespace namespaceId name storageAccepted)).NamesInOrder ↔
      catalog.Allows (.updateNamespace namespaceId name storageAccepted) := by
  rw [Catalog.updateNamespace, Catalog.Allows]
  cases found : catalog.getNamespace namespaceId with
  | none => exact iff_of_true inOrder nofun
  | some row =>
  have listed : row.id ∈ catalog.namespaces.map namespaceNaming.id :=
    mem_map.mpr ⟨row, mem_of_find?_eq_some found, rfl⟩
  cases storageAccepted with
  | false => exact iff_of_true inOrder nofun
  | true =>
  have stores : _ ↔ Acceptable _ _ { row with name := name.getD row.name } :=
    storeNamespace_inOrder inOrder listed
  constructor
  · intro after _ same _
    cases same
    exact stores.mp after
  · intro allowed
    exact stores.mpr (allowed row rfl rfl)

variable (tableId : Nat)

theorem updateTable_inOrder (name : Option String) (namespaceId : Option Nat) (sameStorage : Bool) :
    (catalog.settle (catalog.updateTable tableId name namespaceId sameStorage)).NamesInOrder ↔
      catalog.Allows (.updateTable tableId name namespaceId sameStorage) := by
  rw [Catalog.updateTable, Catalog.Allows]
  cases found : catalog.getTable tableId with
  | none => exact iff_of_true inOrder nofun
  | some table =>
  by_cases elsewhere : namespaceId.isSome ∧ namespaceId ≠ table.namespaceId ∧ sameStorage = false
  · simp only [if_pos elsewhere]
    refine iff_of_true inOrder fun _ same stays => ?_
    cases same
    exact absurd elsewhere stays
  · simp only [if_neg elsewhere]
    have stores : _ ↔ Acceptable _ _ (table.moved name namespaceId) :=
      storeFound_inOrder inOrder found rfl
    constructor
    · intro after _ same _
      cases same
      exact stores.mp after
    · intro allowed
      exact stores.mpr (allowed table rfl elsewhere)

theorem updateVirtualFlowTable_inOrder (name : Option String) (namespaceId producer : Option Nat) :
    (catalog.settle
      (catalog.updateVirtualFlowTable tableId name namespaceId producer)).NamesInOrder ↔
      catalog.Allows (.updateVirtualFlowTable tableId name namespaceId producer) := by
  rw [Catalog.updateVirtualFlowTable, Catalog.Allows]
  cases found : catalog.getTable tableId with
  | none => exact iff_of_true inOrder nofun
  | some table =>
  by_cases isVirtual : table.tableType = .virtual
  · simp only [if_neg (not_not_intro isVirtual)]
    cases producer with
    | none =>
      have stores : _ ↔ Acceptable _ _ (table.moved name namespaceId) :=
        storeFound_inOrder inOrder found rfl
      constructor
      · intro after _ same _ _
        cases same
        exact stores.mp after
      · intro allowed
        exact stores.mpr (allowed table rfl isVirtual nofun)
    | some id =>
      by_cases known : id ∈ catalog.flows
      · simp only [if_pos known]
        have stores : _ ↔ Acceptable _ _
            { table.moved name namespaceId with producerRegistrationId := some id } :=
          storeFound_inOrder inOrder found rfl
        constructor
        · intro after _ same _ _
          cases same
          exact stores.mp after
        · intro allowed
          refine stores.mpr (allowed table rfl isVirtual fun other given => ?_)
          cases given
          exact known
      · simp only [if_neg known]
        exact iff_of_true inOrder fun _ _ _ allKnown => absurd (allKnown id rfl) known
  · simp only [if_pos isVirtual]
    refine iff_of_true inOrder fun _ same virtual => ?_
    cases same
    exact absurd virtual isVirtual

theorem updateQueryVirtualTable_inOrder
    (name : Option String) (namespaceId : Option Nat) (sqlQuery : Option String) (ran : Bool) :
    (catalog.settle
      (catalog.updateQueryVirtualTable tableId name namespaceId sqlQuery ran)).NamesInOrder ↔
      catalog.Allows (.updateQueryVirtualTable tableId name namespaceId sqlQuery ran) := by
  rw [Catalog.updateQueryVirtualTable, Catalog.Allows]
  cases found : catalog.getTable tableId with
  | none => exact iff_of_true inOrder nofun
  | some table =>
  by_cases isQuery : table.isQuery = true
  · simp only [if_pos isQuery]
    cases sqlQuery with
    | none =>
      have stores : _ ↔ Acceptable _ _ (table.moved name namespaceId) :=
        storeFound_inOrder inOrder found rfl
      constructor
      · intro after _ same _ _
        cases same
        exact stores.mp after
      · intro allowed
        exact stores.mpr (allowed table rfl isQuery nofun)
    | some query =>
      cases ran with
      | true =>
        have stores : _ ↔ Acceptable _ _
            { table.moved name namespaceId with sqlQuery := some query } :=
          storeFound_inOrder inOrder found rfl
        constructor
        · intro after _ same _ _
          cases same
          exact stores.mp after
        · intro allowed
          exact stores.mpr (allowed table rfl isQuery fun _ => rfl)
      | false => exact iff_of_true inOrder fun _ _ _ ran => by cases ran rfl
  · simp only [if_neg isQuery]
    refine iff_of_true inOrder fun _ same query => ?_
    cases same
    exact absurd query isQuery

end

theorem step_inOrder (catalog : Catalog) (request : Request) (inOrder : catalog.NamesInOrder) :
    (catalog.step request).NamesInOrder ↔ catalog.Allows request := by
  cases request with
  | createNamespace name parentId storageAccepted =>
    exact iff_of_true (settle_inOrder inOrder fun _ => createNamespace_inOrder inOrder) trivial
  | updateNamespace namespaceId name storageAccepted =>
    exact updateNamespace_inOrder inOrder namespaceId name storageAccepted
  | registerTable name namespaceId materialized =>
    exact iff_of_true (settle_inOrder inOrder fun _ => registerTable_inOrder inOrder) trivial
  | updateTable tableId name namespaceId sameStorage =>
    exact updateTable_inOrder inOrder tableId name namespaceId sameStorage
  | createVirtualFlowTable name producer namespaceId =>
    exact iff_of_true (settle_inOrder inOrder fun _ => createVirtualFlowTable_inOrder inOrder)
      trivial
  | updateVirtualFlowTable tableId name namespaceId producer =>
    exact updateVirtualFlowTable_inOrder inOrder tableId name namespaceId producer
  | createQueryVirtualTable name sqlQuery namespaceId safe ran =>
    exact iff_of_true (settle_inOrder inOrder fun _ => createQueryVirtualTable_inOrder inOrder)
      trivial
  | updateQueryVirtualTable tableId name namespaceId sqlQuery ran =>
    exact updateQueryVirtualTable_inOrder inOrder tableId name namespaceId sqlQuery ran

theorem partitionAtDot_append (undotted : hasDot name = false) (rest : String) :
    partitionAtDot (name ++ "." ++ rest) = (name, rest) := by
  have free : ∀ letter ∈ name.toList, letter ≠ '.' := by
    rintro _ mem rfl
    exact absurd undotted (by simpa [hasDot] using mem)
  have text : (name ++ "." ++ rest).toList = name.toList ++ '.' :: rest.toList := by
    simp
  rw [partitionAtDot, text, takeWhile_append_of_pos (by simpa using free),
    dropWhile_append_of_pos (by simpa using free)]
  simp

theorem Catalog.NamesInOrder.parsesBack (inOrder : catalog.NamesInOrder) : catalog.ParsesBack := by
  intro row isNamespace named table isTable inNamespace
  constructor
  · rw [formatFullName, if_neg named]
    exact partitionAtDot_append (inOrder.namespaceNames row isNamespace) table.name
  · have isNamed : (table.name = table.name && table.namespaceId = some row.id : Bool) = true := by
      simpa using inNamespace
    cases found : catalog.getTableByName table.name (some row.id) with
    | none => exact absurd isNamed (List.find?_eq_none.mp found table isTable)
    | some other =>
    have sameNames : other.name = table.name ∧ other.namespaceId = some row.id := by
      simpa using List.find?_some found
    have isOther := mem_of_find?_eq_some found
    have sameId := inOrder.tables table isTable other isOther
      (sameNames.2.trans inNamespace.symm) sameNames.1
    rw [inj_on_of_nodup_map catalog.distinctTables isOther isTable sameId]

end

def emptyCatalog : Catalog where
  namespaces := []
  distinctNamespaces := nodup_nil
  tables := []
  distinctTables := nodup_nil
  flows := [1]

theorem emptyCatalog_inOrder : emptyCatalog.NamesInOrder where
  tables _ mem := absurd mem not_mem_nil
  namespaces _ mem := absurd mem not_mem_nil
  tableNames _ mem := absurd mem not_mem_nil
  namespaceNames _ mem := absurd mem not_mem_nil

/-- Starting from names in order, the names are in order in every state of a run, and qualified
names parse back, exactly when each request is allowed. -/
theorem runs_inOrder (start : Catalog) (initially : start.NamesInOrder) (requests : List Request) :
    (∀ state ∈ statesAlong step start requests, state.NamesInOrder ∧ state.ParsesBack) ↔
      EachStep step Catalog.Allows start requests := by
  rw [← good_along_iff step Catalog.NamesInOrder Catalog.Allows step_inOrder start
    initially requests]
  constructor
  · intro along state passed
    exact (along state passed).1
  · intro along state passed
    exact ⟨along state passed, (along state passed).parsesBack⟩

/-- A catalog, a schema in it, a table there, a table without a namespace, and an update that moves
and renames the second one. -/
def orderlyRequests : List Request :=
  [.createNamespace "General" none true, .createNamespace "default" (some 1) true,
    .registerTable "orders" (some 2) true, .createVirtualFlowTable "recent" 1 none,
    .updateVirtualFlowTable 2 (some "latest") (some 2) none]

theorem orderlyRequests_inOrder : (orderlyRequests.foldl step emptyCatalog).NamesInOrder ∧
      (orderlyRequests.foldl step emptyCatalog).ParsesBack := by
  have inOrder := runs_inOrder emptyCatalog emptyCatalog_inOrder orderlyRequests
  refine inOrder.mpr ⟨trivial, trivial, trivial, trivial, ?_, trivial⟩ _
    (by simp [statesAlong, orderlyRequests])
  intro table found _ _
  have isRecent : some table = some ⟨2, "recent", none, .virtual, some 1, none⟩ :=
    found.symm.trans (by decide +kernel)
  cases isRecent
  decide +kernel

def dottedRequests : List Request :=
  [.registerTable "orders" none true, .updateTable 1 (some "sales.orders") none true]

/-- A second catalog that gets the name of the first one by an update. -/
def twinRequests : List Request :=
  [.createNamespace "General" none true, .createNamespace "Other" none true,
    .updateNamespace 2 (some "General") true]

theorem renamed_outOfOrder : emptyCatalog.NamesInOrder ∧
      (∃ state ∈ statesAlong step emptyCatalog dottedRequests, ¬ state.NamesInOrder) ∧
      ∃ state ∈ statesAlong step emptyCatalog twinRequests, ¬ state.NamesInOrder := by
  refine ⟨emptyCatalog_inOrder, ?_, ?_⟩
  · refine ⟨dottedRequests.foldl step emptyCatalog, by simp [statesAlong, dottedRequests],
      fun inOrder => ?_⟩
    have isTable : ⟨1, "sales.orders", none, .physical, none, none⟩ ∈
        (dottedRequests.foldl step emptyCatalog).tables := by decide +kernel
    exact absurd (inOrder.tableNames _ isTable) (by decide +kernel)
  · refine ⟨twinRequests.foldl step emptyCatalog, by simp [statesAlong, twinRequests],
      fun inOrder => ?_⟩
    have isFirst : ⟨1, "General", none, 0⟩ ∈
        (twinRequests.foldl step emptyCatalog).namespaces := by decide +kernel
    have isSecond : ⟨2, "General", none, 0⟩ ∈
        (twinRequests.foldl step emptyCatalog).namespaces := by decide +kernel
    exact absurd (inOrder.namespaces _ isFirst _ isSecond rfl rfl) (by decide)

end Flowfile.Naming
