import Flowfile.ProjectImport

/-!
# What an import leaves alone

Most kinds of rows are looked up by their owner, so that an import changes rows of its own user
only. Flows are found by their paths, schedules and models by their flows, and secrets by their
numbers: where these lead to another user's row or file, an import touches it. Each step that finds
nothing of another user there leaves all rows of other users and the files of their flows as they
are, and so does an import of such steps.
-/

namespace Flowfile.Project

open Library.Documents Library.OwnedRows List

variable {name path : String} {registration : FlowRegistration}

section

variable [Machine] (ownerId : Nat)

/-- Rows of other users are still there as they were, their flows have the files they had and their
notebooks the cells they had. -/
structure Untouched (before after : World) : Prop where
  secrets : Keeps (fun row : Secret => row.userId ≠ ownerId)
    before.database.secrets after.database.secrets
  databaseConnections : Keeps (fun row : DatabaseConnection => row.userId ≠ ownerId)
    before.database.databaseConnections after.database.databaseConnections
  cloudConnections : Keeps (fun row : CloudStorageConnection => row.userId ≠ ownerId)
    before.database.cloudConnections after.database.cloudConnections
  namespaces : Keeps (fun row : CatalogNamespace => row.ownerId ≠ ownerId)
    before.database.namespaces after.database.namespaces
  registrations : Keeps (fun row : FlowRegistration => row.ownerId ≠ ownerId)
    before.database.registrations after.database.registrations
  schedules : Keeps (fun row : FlowSchedule => row.ownerId ≠ ownerId)
    before.database.schedules after.database.schedules
  tables : Keeps (fun row : CatalogTable => row.ownerId ≠ ownerId)
    before.database.tables after.database.tables
  artifacts : Keeps (fun row : GlobalArtifact => row.ownerId ≠ ownerId)
    before.database.artifacts after.database.artifacts
  kernels : Keeps (fun row : Kernel => row.userId ≠ ownerId)
    before.database.kernels after.database.kernels
  visualizations : Keeps
    (fun row : CatalogVisualization => ∃ other ∈ row.createdBy, other ≠ ownerId)
    before.database.visualizations after.database.visualizations
  dashboards : Keeps (fun row : CatalogDashboard => ∃ other ∈ row.createdBy, other ≠ ownerId)
    before.database.dashboards after.database.dashboards
  notebooks : Keeps (fun row : CatalogNotebook => row.ownerId ≠ ownerId)
    before.database.notebooks after.database.notebooks
  flowFavorites : Keeps (fun row : FlowBookmark => row.userId ≠ ownerId)
    before.flowFavorites after.flowFavorites
  flowFollows : Keeps (fun row : FlowBookmark => row.userId ≠ ownerId)
    before.flowFollows after.flowFollows
  endpoints : Keeps (fun row : FlowApiEndpoint => row.ownerId ≠ ownerId)
    before.endpoints after.endpoints
  apiKeys : Keeps (fun row : FlowApiKey => row.ownerId ≠ ownerId) before.apiKeys after.apiKeys
  consumers : Keeps (fun row : ApiConsumer => row.ownerId ≠ ownerId)
    before.consumers after.consumers
  runs : Keeps (fun row : FlowRun => row.userId ≠ ownerId) before.runs after.runs
  tableFavorites : Keeps (fun row : TableFavorite => row.userId ≠ ownerId)
    before.tableFavorites after.tableFavorites
  flowFiles : ∀ row ∈ before.database.registrations, row.ownerId ≠ ownerId →
    after.flowFile (Machine.locate row.flowPath) = before.flowFile (Machine.locate row.flowPath)
  cells : ∀ other, other ≠ ownerId → after.cells other = before.cells other

variable {ownerId} {before middle after : World}

/-- Nothing happens. -/
theorem Untouched.refl : Untouched ownerId before before where
  secrets := .refl
  databaseConnections := .refl
  cloudConnections := .refl
  namespaces := .refl
  registrations := .refl
  schedules := .refl
  tables := .refl
  artifacts := .refl
  kernels := .refl
  visualizations := .refl
  dashboards := .refl
  notebooks := .refl
  flowFavorites := .refl
  flowFollows := .refl
  endpoints := .refl
  apiKeys := .refl
  consumers := .refl
  runs := .refl
  tableFavorites := .refl
  flowFiles _ _ _ := rfl
  cells _ _ := rfl

/-- One part after another. -/
theorem Untouched.trans (first : Untouched ownerId before middle)
    (second : Untouched ownerId middle after) : Untouched ownerId before after where
  secrets := first.secrets.trans second.secrets
  databaseConnections := first.databaseConnections.trans second.databaseConnections
  cloudConnections := first.cloudConnections.trans second.cloudConnections
  namespaces := first.namespaces.trans second.namespaces
  registrations := first.registrations.trans second.registrations
  schedules := first.schedules.trans second.schedules
  tables := first.tables.trans second.tables
  artifacts := first.artifacts.trans second.artifacts
  kernels := first.kernels.trans second.kernels
  visualizations := first.visualizations.trans second.visualizations
  dashboards := first.dashboards.trans second.dashboards
  notebooks := first.notebooks.trans second.notebooks
  flowFavorites := first.flowFavorites.trans second.flowFavorites
  flowFollows := first.flowFollows.trans second.flowFollows
  endpoints := first.endpoints.trans second.endpoints
  apiKeys := first.apiKeys.trans second.apiKeys
  consumers := first.consumers.trans second.consumers
  runs := first.runs.trans second.runs
  tableFavorites := first.tableFavorites.trans second.tableFavorites
  flowFiles row mem foreign :=
    (second.flowFiles row (first.registrations row mem foreign) foreign).trans
      (first.flowFiles row mem foreign)
  cells other foreign := (second.cells other foreign).trans (first.cells other foreign)

variable (self : World)

/-- What an import remembers is nobody's row. -/
theorem untouched_remembered (minted : Nat)
    (resolved : List ((String × Option String) × Option Nat)) (kept : KeptResources) :
    Untouched ownerId self { self with minted, resolved, kept } :=
  { (Untouched.refl : Untouched ownerId self self) with }

/-- A new secret is the user's own. -/
theorem storeSecret_untouched (name value : String) :
    Untouched ownerId self (storeSecret ownerId self name value).1 :=
  { (Untouched.refl : Untouched ownerId self self) with secrets := keeps_append _ _ }

def OwnSecret (ownerId : Nat) (self : World) (id : Option Nat) : Prop :=
  ∀ secret ∈ self.database.secrets, some secret.id = id → secret.userId = ownerId

theorem updateConnectionSecret_untouched {self : World} {existing : Option Nat}
    {value : String} (own : value ≠ "" → OwnSecret ownerId self existing) :
    Untouched ownerId self (updateConnectionSecret ownerId self existing value name).1 := by
  rw [updateConnectionSecret]
  split
  · exact Untouched.refl
  · next filled =>
    split
    · next secret found =>
      refine { (Untouched.refl : Untouched ownerId self self) with
        secrets := keeps_replaceFirst fun row isFirst foreign => foreign ?_ }
      obtain ⟨id, rfl, isSecret⟩ := Option.bind_eq_some_iff.mp found
      have sameId : secret.id = id := by simpa using List.find?_some isSecret
      have rowId : row.id = secret.id := by simpa using List.find?_some isFirst
      exact own filled row (mem_of_find?_eq_some isFirst)
        (congrArg some (rowId.trans sameId))
    · exact storeSecret_untouched _ _ _

/-- New secrets and other values leave it so. -/
theorem OwnSecret.updated {self : World} {id : Option Nat} (own : OwnSecret ownerId self id)
    (existing : Option Nat) (value name : String) :
    OwnSecret ownerId (updateConnectionSecret ownerId self existing value name).1 id := by
  rw [updateConnectionSecret]
  split
  · exact own
  · split
    · next secret found =>
      intro row mem same
      have kept : ∀ secrets : List Secret, row ∈ replaceFirst
          (fun other => decide (other.id = secret.id))
          (fun other => { other with encryptedValue := Machine.encrypt value ownerId }) secrets →
          ∃ old ∈ secrets, old.id = row.id ∧ old.userId = row.userId := by
        intro secrets
        induction secrets with
        | nil => exact nofun
        | cons first rest inner =>
          intro listed
          rw [replaceFirst] at listed
          split at listed
          · obtain rfl | later := mem_cons.mp listed
            · exact ⟨first, mem_cons_self, rfl, rfl⟩
            · exact ⟨row, mem_cons_of_mem _ later, rfl, rfl⟩
          · obtain rfl | later := mem_cons.mp listed
            · exact ⟨row, mem_cons_self, rfl, rfl⟩
            · obtain ⟨old, isOld, sameRow⟩ := inner later
              exact ⟨old, mem_cons_of_mem _ isOld, sameRow⟩
      obtain ⟨old, isOld, sameId, sameUser⟩ := kept _ mem
      rw [← sameUser]
      exact own old isOld (sameId ▸ same)
    · intro row mem same
      obtain old | new := mem_append.mp mem
      · exact own row old same
      · rw [mem_singleton.mp new]

def OwnPassword (ownerId : Nat) (self : World) (entry : DatabaseConnectionEntry) : Prop :=
  ∀ conn, ownDatabaseConnection ownerId self entry.connectionName = some conn →
    resolveSecretValue ownerId self
      ((entry.password.bind placeholderName).getD entry.connectionName) ≠ "" →
    OwnSecret ownerId self conn.passwordId

theorem importDbConnection_untouched {self : World} {entry : DatabaseConnectionEntry}
    (own : OwnPassword ownerId self entry) :
    Untouched ownerId self (importDbConnection ownerId self entry) := by
  rw [importDbConnection]
  cases found : ownDatabaseConnection ownerId self entry.connectionName with
  | some conn =>
    have secret : Untouched ownerId self (updateConnectionSecret ownerId self conn.passwordId _
        entry.connectionName).1 :=
      updateConnectionSecret_untouched (own conn found)
    exact
      { secret with
        databaseConnections := keeps_replaceFirst fun row isFirst foreign => foreign (by
          have both := List.find?_some isFirst
          simp only [decide_eq_true_eq] at both
          exact both.2) }
  | none =>
    exact
      { (storeSecret_untouched self _ _ : Untouched ownerId self _) with
        databaseConnections := keeps_append _ _ }

theorem cloudSecretSteps_untouched
    {step : World → CloudSecretField → Option Nat → World × Option Nat}
    {condition : World → CloudSecretField → Option Nat → Prop}
    (one : ∀ self field existing, condition self field existing →
      Untouched ownerId self (step self field existing).1)
    (later : ∀ self field existing other id, condition self other id →
      condition (step self field existing).1 other id)
    {fields : List CloudSecretField} (distinct : fields.Nodup) {self : World}
    {secretId : CloudSecretField → Option Nat}
    (holds : ∀ field ∈ fields, condition self field (secretId field)) :
    Untouched ownerId self (cloudSecretSteps step fields self secretId).1 := by
  induction fields generalizing self secretId with
  | nil => exact Untouched.refl
  | cons field rest inner =>
    obtain ⟨fresh, distinct⟩ := nodup_cons.mp distinct
    have first := one self field _ (holds field mem_cons_self)
    refine first.trans (inner distinct fun other listed => ?_)
    have apart : other ≠ field := fun same => fresh (same ▸ listed)
    rw [Function.update_of_ne apart]
    exact later _ _ _ _ _ (holds other (mem_cons_of_mem _ listed))

def cloudSecretValue (ownerId : Nat) (self : World) (entry : CloudConnectionEntry)
    (field : CloudSecretField) : String :=
  (((entry.secret field).bind placeholderName).map (resolveSecretValue ownerId self)).getD ""

def OwnCloudSecrets (ownerId : Nat) (self : World) (entry : CloudConnectionEntry) : Prop :=
  ∀ conn, ownCloudConnection ownerId self entry.connectionName = some conn →
    ∀ field, cloudSecretValue ownerId self entry field ≠ "" →
      OwnSecret ownerId self (conn.secretId field)

theorem importCloudConnection_untouched {self : World} {entry : CloudConnectionEntry}
    (own : OwnCloudSecrets ownerId self entry) :
    Untouched ownerId self (importCloudConnection ownerId self entry) := by
  rw [importCloudConnection]
  cases found : ownCloudConnection ownerId self entry.connectionName with
  | some conn =>
    have secrets : Untouched ownerId self (cloudSecretSteps
        (fun state field existing => updateConnectionSecret ownerId state existing
          (cloudSecretValue ownerId self entry field) (cloudSecretName entry.connectionName field))
        [.awsSecretAccessKey, .azureAccountKey, .azureClientSecret, .azureSasToken,
          .gcsServiceAccountKey] self conn.secretId).1 :=
      @cloudSecretSteps_untouched _ _ _
        (fun state field existing => cloudSecretValue ownerId self entry field ≠ "" →
          OwnSecret ownerId state existing)
        (fun _ _ _ own => updateConnectionSecret_untouched own)
        (fun _ _ _ _ _ own filled => (own filled).updated _ _ _) _ (by decide) _ _
        fun field _ => own conn found field
    exact
      { secrets with
        cloudConnections := keeps_replaceFirst fun row isFirst foreign => foreign (by
          have both := List.find?_some isFirst
          simp only [decide_eq_true_eq] at both
          exact both.2) }
  | none =>
    have secrets := fun step one => @cloudSecretSteps_untouched _ ownerId step (fun _ _ _ => True)
      one (fun _ _ _ _ _ _ => trivial) [.awsSecretAccessKey, .azureClientSecret, .azureAccountKey,
        .azureSasToken, .gcsServiceAccountKey] (by decide) self (fun _ => none) fun _ _ => trivial
    exact
      { (secrets _ (fun state field existing _ => by
            split
            · exact storeSecret_untouched _ _ _
            · exact Untouched.refl) : Untouched ownerId self _) with
        cloudConnections := keeps_append _ _ }

/-- What is done leaves everything of other users alone, also where it fails. -/
def Leaves {α : Type} (ownerId : Nat) (self : World) : Except World (World × α) → Prop
  | .ok made => Untouched ownerId self made.1
  | .error failed => Untouched ownerId self failed

variable (ownerId) in
/-- A new namespace changes no other. -/
theorem createNamespace_leaves (name : String) (parentId : Option Nat)
    (description : Option String) (isPublic : Bool) :
    Leaves ownerId self (createNamespace ownerId self name parentId description isPublic) := by
  rw [createNamespace]
  split
  · exact Untouched.refl
  · split
    · exact Untouched.refl
    · exact
        { (Untouched.refl : Untouched ownerId self self) with namespaces := keeps_append _ _ }

variable (ownerId) in
/-- A catalog is found or made. -/
theorem findOrCreateCatalog_leaves (name : String) (description : Option String) (isPublic : Bool) :
    Leaves ownerId self (findOrCreateCatalog ownerId self name description isPublic) := by
  rw [findOrCreateCatalog]
  split
  · exact Untouched.refl
  · exact createNamespace_leaves _ _ _ _ _ _

variable (ownerId) in
/-- A schema is found or made, or left out. -/
theorem findOrCreateSchema_leaves (catalog : CatalogNamespace) (name : String)
    (description : Option String) (isPublic : Bool) :
    Leaves ownerId self (findOrCreateSchema ownerId self catalog name description isPublic) := by
  rw [findOrCreateSchema]
  split
  · exact Untouched.refl
  · split
    · exact Untouched.refl
    · have made := createNamespace_leaves ownerId self name (some catalog.id)
        description isPublic
      revert made
      cases createNamespace ownerId self name (some catalog.id) description isPublic <;> exact id

theorem importNamespace_untouched (entry : NamespaceEntry) :
    Untouched ownerId self (importNamespace ownerId self entry).world := by
  have found : Leaves ownerId self (findOrCreateNamespace ownerId self entry) := by
    rw [findOrCreateNamespace]
    split
    · have catalog := findOrCreateCatalog_leaves ownerId self entry.catalog
        entry.description entry.isPublic
      revert catalog
      cases findOrCreateCatalog ownerId self entry.catalog entry.description entry.isPublic <;>
        exact id
    · next schema _ =>
      have catalog := findOrCreateCatalog_leaves ownerId self entry.catalog none false
      revert catalog
      cases findOrCreateCatalog ownerId self entry.catalog none false with
      | error failed => exact id
      | ok found =>
      intro catalog
      have inner := findOrCreateSchema_leaves ownerId found.1 found.2 schema
        entry.description entry.isPublic
      show Leaves ownerId self (findOrCreateSchema ownerId found.1 found.2 schema
        entry.description entry.isPublic)
      revert inner
      cases findOrCreateSchema ownerId found.1 found.2 schema entry.description
        entry.isPublic <;> exact catalog.trans
  rw [importNamespace]
  revert found
  cases findOrCreateNamespace ownerId self entry with
  | error failed => exact id
  | ok found => exact fun left => left.trans (untouched_remembered _ _ _ _)

variable (ownerId) in
omit [Machine] in
/-- To look up the place of an entry changes at most which answers are remembered. -/
theorem resolveEntryNamespace_fst (place : Dict) :
    ∃ resolved, (resolveEntryNamespace ownerId self place).1 = { self with resolved } := by
  rw [resolveEntryNamespace]
  split
  · rw [resolveNamespace]
    split
    · exact ⟨_, rfl⟩
    · exact ⟨_, rfl⟩
  · exact ⟨_, rfl⟩

def OwnLocation (ownerId : Nat) (self : World) (data : Dict) : Prop :=
  ∀ given, (data.get "flow_uuid").filledText = some given →
    ∀ row ∈ self.database.registrations, row.ownerId ≠ ownerId →
      Machine.locate row.flowPath ≠ Machine.locate (importedPath ownerId self data given)

theorem writeFile_untouched {self : World} {contents : Dict}
    (free : ∀ row ∈ self.database.registrations, row.ownerId ≠ ownerId →
      Machine.locate row.flowPath ≠ Machine.locate path) :
    Untouched ownerId self (writeFile self path contents) :=
  { (Untouched.refl : Untouched ownerId self self) with
    flowFiles := fun row mem foreign =>
      Function.update_of_ne (free row mem foreign) _ _ }

variable (ownerId) in
theorem autoRegisterFlow_added (flowPath name : String) : ∃ namespaces registrations minted,
      autoRegisterFlow ownerId self flowPath name = { self with
          database.namespaces := self.database.namespaces ++ namespaces
          database.registrations := self.database.registrations ++ registrations, minted } ∧
      ∀ row ∈ registrations, row.ownerId = ownerId := by
  have child : ∀ general childName description, ∃ namespaces,
      (ensureGeneralChild self general childName description).1 =
        { self with database.namespaces := self.database.namespaces ++ namespaces } := by
    intro general childName description
    rw [ensureGeneralChild]
    split
    · exact ⟨[], by rw [append_nil]⟩
    · exact ⟨_, rfl⟩
  rw [autoRegisterFlow]
  split
  · exact ⟨[], [], self.minted, by simp only [append_nil], nofun⟩
  · next general _ =>
    have target : ∃ namespaces, (if parentName flowPath = some "unnamed_flows" then
        ensureGeneralChild self general "Unnamed Flows"
          "Quick-created flows that have not yet been named"
        else ensureGeneralChild self general "Local Flows"
          "Flows saved to disk at user-chosen paths").1 =
        { self with database.namespaces := self.database.namespaces ++ namespaces } := by
      split
      · exact child _ _ _
      · exact child _ _ _
    obtain ⟨namespaces, target⟩ := target
    simp only [target]
    split
    · exact ⟨namespaces, [], self.minted, by rw [append_nil], nofun⟩
    · exact ⟨namespaces, _, _, rfl, fun row mem => by rw [mem_singleton.mp mem]⟩

theorem autoRegisterFlow_untouched (flowPath name : String) :
    Untouched ownerId self (autoRegisterFlow ownerId self flowPath name) := by
  obtain ⟨namespaces, registrations, minted, added, -⟩ :=
    autoRegisterFlow_added ownerId self flowPath name
  rw [added]
  exact
    { (Untouched.refl : Untouched ownerId self self) with
      namespaces := keeps_append _ _
      registrations := keeps_append _ _ }

def OwnPath (ownerId : Nat) (self : World) (path : String) : Prop :=
  ∀ row ∈ self.database.registrations, row.flowPath = path → row.ownerId = ownerId

theorem OwnPath.registered {self : World} (own : OwnPath ownerId self path)
    (flowPath name : String) :
    OwnPath ownerId (autoRegisterFlow ownerId self flowPath name) path := by
  obtain ⟨namespaces, registrations, minted, added, new⟩ :=
    autoRegisterFlow_added ownerId self flowPath name
  rw [added]
  intro row mem same
  obtain old | isNew := mem_append.mp mem
  · exact own row old same
  · exact new row isNew

theorem reconcileFlow_untouched {self : World} (own : OwnPath ownerId self path)
    (flowUuid name : String) (namespaceId : Option Nat) :
    Untouched ownerId self (Outcome.world
      ((reconcileFlow self path flowUuid name namespaceId).map fun reconciled =>
        { reconciled with kept.flowUuids := reconciled.kept.flowUuids ++ [flowUuid] })) := by
  rw [reconcileFlow]
  split
  · exact untouched_remembered _ _ _ _
  · split
    · exact Untouched.refl
    · exact
        { untouched_remembered self _ _ _ with
          registrations := keeps_replaceFirst fun row isFirst foreign => foreign
            (own row (mem_of_find?_eq_some isFirst) (by simpa using List.find?_some isFirst)) }

theorem importFlow_untouched {self : World} {data : Dict} (own : OwnLocation ownerId self data) :
    Untouched ownerId self (importFlow ownerId self data).world := by
  rw [importFlow]
  split
  · exact Untouched.refl
  · next given isGiven =>
    obtain ⟨resolved, place⟩ :=
      resolveEntryNamespace_fst ownerId self (data.get "namespace").entries
    have free := own given isGiven
    simp only [place]
    generalize (if importedUuid ownerId self given = given then data
      else data.set "flow_uuid" (.text (importedUuid ownerId self given))) = contents
    generalize (if importedUuid ownerId self given = given then self.minted
      else self.minted + 1) = minted
    have written : Untouched ownerId self (writeFile { self with resolved, minted }
        (importedPath ownerId self data given) contents) :=
      (untouched_remembered self minted resolved self.kept).trans (writeFile_untouched free)
    have ownPath : OwnPath ownerId
        (writeFile { self with resolved, minted } (importedPath ownerId self data given) contents)
        (importedPath ownerId self data given) :=
      fun row mem same => by_contra fun foreign => free row mem foreign (by rw [same])
    split
    · exact written
    · split
      · exact (written.trans (autoRegisterFlow_untouched _ _ _)).trans
          (reconcileFlow_untouched (ownPath.registered _ _) _ _ _)
      · exact written.trans (reconcileFlow_untouched ownPath _ _ _)

def Along {α : Type} (condition : World → α → Prop) (step : World → α → Outcome) :
    List α → World → Prop
  | [], _ => True
  | item :: rest, self => condition self item ∧
      ∀ next, step self item = .ok next → Along condition step rest next

/-- Where each step leaves everything of other users alone under a condition, a run in which the
condition holds throughout does so. -/
theorem Along.untouched {α : Type} {condition : World → α → Prop} {step : World → α → Outcome}
    (one : ∀ self item, condition self item → Untouched ownerId self (step self item).world) :
    ∀ {items : List α} {self : World}, Along condition step items self →
      Untouched ownerId self (Outcome.world (items.foldlM step self))
  | [], _, _ => Untouched.refl
  | item :: rest, self, along => by
    have first := one self item along.1
    rw [foldlM_cons]
    cases done : step self item with
    | error failed =>
      rw [done] at first
      exact first
    | ok next =>
      rw [done] at first
      exact first.trans ((along.2 next done).untouched one)

theorem Along.untouched_foldl {α : Type} {condition : World → α → Prop} {step : World → α → World}
    (one : ∀ self item, condition self item → Untouched ownerId self (step self item))
    {items : List α} {self : World}
    (along : Along condition (fun self item => .ok (step self item)) items self) :
    Untouched ownerId self (items.foldl step self) := by
  have run := along.untouched one
  have total : items.foldlM (fun self item => (.ok (step self item) : Outcome)) self =
      .ok (items.foldl step self) := foldlM_pure
  rw [total] at run
  exact run

omit [Machine] in
theorem along_of_forall {α : Type} {condition : World → α → Prop} {step : World → α → Outcome} :
    ∀ {items : List α} {self : World}, (∀ item ∈ items, ∀ world, condition world item) →
      Along condition step items self
  | [], _, _ => trivial
  | item :: _, self, always => ⟨always item mem_cons_self self, fun _ _ =>
      along_of_forall fun other listed => always other (mem_cons_of_mem _ listed)⟩

def OwnSchedules (ownerId : Nat) (self : World) (file : ScheduleFile) : Prop :=
  ∀ reg, file.flowUuid.bind (ownFlow ownerId self) = some reg → file.schedules.length ≤ 50 →
    ∀ row ∈ self.database.schedules, row.ownerId ≠ ownerId → replacedSchedule reg.id row = false

/-- A new schedule changes no other. -/
theorem createSchedule_untouched (registrationId : Nat) (self : World) (entry : ScheduleEntry) :
    Untouched ownerId self (createSchedule ownerId registrationId self entry).world := by
  simp only [createSchedule]
  split
  · exact { (Untouched.refl : Untouched ownerId self self) with schedules := keeps_append _ _ }
  · exact Untouched.refl

theorem importSchedules_untouched {self : World} {file : ScheduleFile}
    (own : OwnSchedules ownerId self file) :
    Untouched ownerId self (importSchedules ownerId self file).world := by
  rw [importSchedules]
  split
  · exact Untouched.refl
  · next reg isOwn =>
    split
    · exact Untouched.refl
    · next small =>
      have removed : Untouched ownerId self { self with database.schedules :=
          (self.database.schedules.filter (fun row => !replacedSchedule reg.id row)) } :=
        { (Untouched.refl : Untouched ownerId self self) with
          schedules := keeps_filter_iff.mpr fun row mem foreign => by
            rw [own reg isOwn (not_lt.mp small) row mem foreign, Bool.not_false] }
      exact removed.trans (Along.untouched (fun world entry _ => createSchedule_untouched _ _ _)
        (along_of_forall fun _ _ _ => trivial))

theorem importTable_untouched (entry : TableEntry) :
    Untouched ownerId self (importTable ownerId self entry).world := by
  obtain ⟨resolved, place⟩ := resolveEntryNamespace_fst ownerId self entry.place
  have remembered : Untouched ownerId self _ :=
    untouched_remembered self self.minted resolved self.kept
  rw [importTable]
  split
  · exact Untouched.refl
  · simp only [place]
    split
    · exact remembered
    · exact
        { untouched_remembered self _ _ _ with
          tables := keeps_upsert fun row isOwn foreign => foreign (by
            simp only [isOwnTable, decide_eq_true_eq] at isOwn
            exact isOwn.2.2) }

theorem importArtifact_untouched (entry : ArtifactEntry) :
    Untouched ownerId self (importArtifact ownerId self entry).world := by
  obtain ⟨resolved, place⟩ := resolveEntryNamespace_fst ownerId self entry.place
  rw [importArtifact]
  split
  · split
    · exact Untouched.refl
    · simp only [place]
      split
      · exact untouched_remembered _ _ _ _
      · exact
          { untouched_remembered self _ _ _ with
            artifacts := keeps_upsert fun row isOwn foreign => foreign (by
              simp only [decide_eq_true_eq] at isOwn
              exact isOwn.2) }
  · exact Untouched.refl

/-- To choose an identifier changes at most how many have been made. -/
theorem mintedKey_fst (given : Option String) (isOwn isTaken : String → Bool) :
    ∃ minted, (mintedKey self given isOwn isTaken).1 = { self with minted } := by
  cases given with
  | none => exact ⟨_, rfl⟩
  | some key =>
  rw [mintedKey]
  split
  · exact ⟨_, rfl⟩
  · exact ⟨_, rfl⟩

theorem importKernel_untouched (entry : KernelEntry) :
    Untouched ownerId self (importKernel ownerId self entry) := by
  rw [importKernel]
  split
  · exact Untouched.refl
  · obtain ⟨minted, key⟩ := mintedKey_fst self entry.id
      (fun key => self.database.kernels.any fun row => row.id = key ∧ row.userId = ownerId)
      fun key => self.database.kernels.any (·.id = key)
    simp only [key]
    exact
      { untouched_remembered self _ _ _ with
        kernels := keeps_upsert fun row isOwn foreign => foreign (by
          simp only [decide_eq_true_eq] at isOwn
          exact isOwn.2) }

omit [Machine] in
theorem not_foreign_of_created {createdBy : Option Nat} (own : createdBy = some ownerId) :
    ¬∃ other ∈ createdBy, other ≠ ownerId := by
  rintro ⟨other, created, differs⟩
  rw [own] at created
  exact differs (Option.some.inj created).symm

theorem importVisualization_untouched (entry : VisualizationEntry) :
    Untouched ownerId self (importVisualization ownerId self entry) := by
  rw [importVisualization]
  split
  · exact Untouched.refl
  · obtain ⟨resolved, place⟩ := resolveEntryNamespace_fst ownerId self entry.place
    simp only [place]
    obtain ⟨minted, key⟩ := mintedKey_fst { self with resolved } entry.vizUuid
      (fun key => self.database.visualizations.any (isOwnViz ownerId key))
      fun key => self.database.visualizations.any (·.vizUuid = key)
    simp only [key]
    exact
      { untouched_remembered self _ _ _ with
        visualizations := keeps_upsert fun row isOwn => not_foreign_of_created (by
          simp only [isOwnViz, decide_eq_true_eq] at isOwn
          exact isOwn.2) }

theorem importDashboard_untouched (entry : DashboardEntry) :
    Untouched ownerId self (importDashboard ownerId self entry).world := by
  rw [importDashboard]
  split
  · exact Untouched.refl
  · obtain ⟨resolved, place⟩ := resolveEntryNamespace_fst ownerId self entry.place
    simp only [place]
    split
    · exact untouched_remembered _ _ _ _
    · obtain ⟨minted, key⟩ := mintedKey_fst { self with resolved } entry.dashboardUuid
        (fun key => self.database.dashboards.any fun row =>
          row.dashboardUuid = key ∧ row.createdBy = some ownerId)
        fun key => self.database.dashboards.any (·.dashboardUuid = key)
      simp only [key]
      refine { untouched_remembered self minted resolved self.kept with dashboards := ?_ }
      dsimp only [Outcome.world]
      refine keeps_upsert fun row isOwn => ?_
      simp only [decide_eq_true_eq] at isOwn
      exact not_foreign_of_created isOwn.2

theorem importNotebook_untouched (file : NotebookFile) :
    Untouched ownerId self (importNotebook ownerId self file) := by
  rw [importNotebook]
  split
  · exact Untouched.refl
  · obtain ⟨resolved, place⟩ := resolveEntryNamespace_fst ownerId self file.place
    simp only [place]
    obtain ⟨minted, key⟩ := mintedKey_fst { self with resolved }
      (file.notebookUuid.filter Machine.isUuid)
      (fun key => self.database.notebooks.any (isOwnNotebook ownerId key))
      fun key => self.database.notebooks.any (·.notebookUuid = key)
    simp only [key]
    split
    · exact untouched_remembered _ _ _ _
    · refine { untouched_remembered self minted resolved self.kept with
        notebooks := ?_, cells := fun other foreign => Function.update_of_ne foreign _ _ }
      dsimp only
      refine keeps_upsert fun row isOwn foreign => foreign ?_
      simp only [isOwnNotebook, decide_eq_true_eq] at isOwn
      exact isOwn.2

theorem pruneKernels_untouched : Untouched ownerId self (pruneKernels ownerId self) :=
  { (Untouched.refl : Untouched ownerId self self) with
    kernels := keeps_filter_iff.mpr fun row _ foreign => by simp [foreign] }

theorem pruneDashboards_untouched : Untouched ownerId self (pruneDashboards ownerId self) :=
  { (Untouched.refl : Untouched ownerId self self) with
    dashboards := keeps_filter_iff.mpr fun row _ foreign => by
      have other : row.createdBy ≠ some ownerId := fun own => not_foreign_of_created own foreign
      simp [other] }

theorem pruneVisualizations_untouched : Untouched ownerId self (pruneVisualizations ownerId self) :=
  { (Untouched.refl : Untouched ownerId self self) with
    visualizations := keeps_filter_iff.mpr fun row _ foreign => by
      have other : row.createdBy ≠ some ownerId := fun own => not_foreign_of_created own foreign
      simp [other] }

theorem pruneNotebooks_untouched : Untouched ownerId self (pruneNotebooks ownerId self) :=
  { (Untouched.refl : Untouched ownerId self self) with
    notebooks := keeps_filter_iff.mpr fun row _ foreign => by simp [foreign]
    cells := fun _ foreign => Function.update_of_ne foreign _ _ }

/-- Removing models. -/
theorem pruneArtifacts_untouched : Untouched ownerId self (pruneArtifacts ownerId self) :=
  { (Untouched.refl : Untouched ownerId self self) with
    artifacts := keeps_map fun _ _ foreign => if_neg fun both => foreign both.1 }

structure OwnTable (ownerId : Nat) (world : World) (table : CatalogTable) : Prop where
  owner : table.ownerId = ownerId
  favorites : ∀ row ∈ world.tableFavorites, row.userId ≠ ownerId → row.tableId ≠ table.id
  visualizations : ∀ row ∈ world.database.visualizations,
    (∃ other ∈ row.createdBy, other ≠ ownerId) → row.catalogTableId ≠ some table.id

theorem deleteTable_untouched {self : World} {table : CatalogTable}
    (own : OwnTable ownerId self table) : Untouched ownerId self (deleteTable self table) :=
  { (Untouched.refl : Untouched ownerId self self) with
    tableFavorites := keeps_filter_iff.mpr fun row mem foreign =>
      decide_eq_true (own.favorites row mem foreign)
    visualizations := keeps_filter_iff.mpr fun row mem foreign =>
      decide_eq_true (own.visualizations row mem foreign)
    tables := keeps_filter_iff.mpr fun row _ foreign => by
      have other : row.ownerId ≠ table.ownerId := own.owner ▸ foreign
      simp [other] }

def isHeld (registration : FlowRegistration) : Bool :=
  self.database.artifacts.any fun row => row.sourceRegistrationId = registration.id ∧
    row.status ≠ "active" ∧ row.status ≠ "deleted"

def staysRegistered (registration : FlowRegistration) : Bool :=
  self.database.registrations.any fun row => row.flowPath = registration.flowPath ∧
    ¬(row.id = registration.id ∧ row.ownerId = registration.ownerId)

structure OwnDependents (ownerId : Nat) (world : World) (registration : FlowRegistration) :
    Prop where
  favorites : ∀ row ∈ world.flowFavorites, row.userId ≠ ownerId →
    row.registrationId ≠ registration.id
  follows : ∀ row ∈ world.flowFollows, row.userId ≠ ownerId → row.registrationId ≠ registration.id
  endpoints : ∀ row ∈ world.endpoints, row.ownerId ≠ ownerId → row.registrationId ≠ registration.id
  apiKeys : ∀ row ∈ world.apiKeys, row.ownerId ≠ ownerId →
    isGoneKey world registration.id row = false
  consumers : ∀ row ∈ world.consumers, row.ownerId ≠ ownerId →
    row.id ∉ orphanedConsumers world registration.id
  runs : ∀ row ∈ world.runs, row.userId ≠ ownerId → row.registrationId ≠ some registration.id
  deletedArtifacts : ∀ row ∈ world.database.artifacts, row.ownerId ≠ ownerId →
    row.sourceRegistrationId = registration.id → row.status ≠ "deleted"
  location : staysRegistered world registration = false →
    ∀ row ∈ world.database.registrations, row.ownerId ≠ ownerId →
      Machine.locate row.flowPath ≠ Machine.locate registration.flowPath

/-- No other user has a row or a file that goes or changes with the removal of a flow. -/
structure OwnFlow (ownerId : Nat) (world : World) (registration : FlowRegistration) : Prop where
  owner : registration.ownerId = ownerId
  activeArtifacts : ∀ row ∈ world.database.artifacts, row.ownerId ≠ ownerId →
    row.sourceRegistrationId = registration.id → row.status ≠ "active"
  schedules : ∀ row ∈ world.database.schedules, row.ownerId ≠ ownerId →
    row.registrationId ≠ registration.id
  dependents : isHeld world registration = false → OwnDependents ownerId world registration

theorem deleteFlowRows_untouched {self : World}
    (owner : registration.ownerId = ownerId)
    (schedules : ∀ row ∈ self.database.schedules, row.ownerId ≠ ownerId →
      row.registrationId ≠ registration.id)
    (own : OwnDependents ownerId self registration) :
    Untouched ownerId self (deleteFlowRows self registration) :=
  { (Untouched.refl : Untouched ownerId self self) with
    flowFavorites := keeps_filter_iff.mpr fun row mem foreign =>
      decide_eq_true (own.favorites row mem foreign)
    flowFollows := keeps_filter_iff.mpr fun row mem foreign =>
      decide_eq_true (own.follows row mem foreign)
    endpoints := keeps_filter_iff.mpr fun row mem foreign =>
      decide_eq_true (own.endpoints row mem foreign)
    apiKeys := keeps_filter_iff.mpr fun row mem foreign => by
      rw [own.apiKeys row mem foreign, Bool.not_false]
    consumers := keeps_filter_iff.mpr fun row mem foreign =>
      decide_eq_true (own.consumers row mem foreign)
    runs := keeps_map fun row mem foreign => if_neg (own.runs row mem foreign)
    schedules := keeps_filter_iff.mpr fun row mem foreign =>
      decide_eq_true (schedules row mem foreign)
    artifacts := keeps_filter_iff.mpr fun row mem foreign => by
      have status := own.deletedArtifacts row mem foreign
      simpa only [Bool.not_eq_true', decide_eq_false_iff_not, not_and] using status
    registrations := keeps_filter_iff.mpr fun row _ foreign => by
      have other : row.ownerId ≠ registration.ownerId := owner ▸ foreign
      simp [other] }

theorem releaseFlow_untouched {self : World} (own : OwnFlow ownerId self registration) :
    Untouched ownerId self (releaseFlow self registration) :=
  { (Untouched.refl : Untouched ownerId self self) with
    artifacts := keeps_map fun row mem foreign =>
      if_neg fun both => own.activeArtifacts row mem foreign both.1 both.2
    schedules := keeps_filter_iff.mpr fun row mem foreign =>
      decide_eq_true (own.schedules row mem foreign) }

omit [Machine] in
theorem released_artifact {self : World} {row : GlobalArtifact}
    (mem : row ∈ (releaseFlow self registration).database.artifacts) :
    row ∈ self.database.artifacts ∨ ∃ old ∈ self.database.artifacts,
      old.sourceRegistrationId = registration.id ∧ old.status = "active" ∧
        row = { old with status := "deleted" } := by
  obtain ⟨old, isOld, rfl⟩ := mem_map.mp mem
  split
  · next both => exact .inr ⟨old, isOld, both.1, both.2, rfl⟩
  · exact .inl isOld

theorem OwnFlow.released {self : World}
    (own : OwnFlow ownerId self registration) (free : isHeld self registration = false) :
    OwnDependents ownerId (releaseFlow self registration) registration :=
  { own.dependents free with
    deletedArtifacts := fun row mem foreign source => by
      obtain old | ⟨old, isOld, source, active, rfl⟩ := released_artifact mem
      · exact (own.dependents free).deletedArtifacts row old foreign source
      · exact absurd active (own.activeArtifacts old isOld foreign source) }

theorem removeFlowFile_untouched {self : World} {flowPath : String}
    (free : self.database.registrations.any (·.flowPath = flowPath) = false →
      ∀ row ∈ self.database.registrations, row.ownerId ≠ ownerId →
        Machine.locate row.flowPath ≠ Machine.locate flowPath) :
    Untouched ownerId self (removeFlowFile self flowPath) := by
  rw [removeFlowFile]
  split
  · exact Untouched.refl
  · next gone =>
    exact
      { (Untouched.refl : Untouched ownerId self self) with
        flowFiles := fun row mem foreign => Function.update_of_ne
          (free (Bool.eq_false_of_not_eq_true gone) row mem foreign) _ _ }

theorem pruneFlow_untouched {self : World} (own : OwnFlow ownerId self registration) :
    Untouched ownerId self (pruneFlow self registration) := by
  have released := releaseFlow_untouched own
  rw [pruneFlow]
  split
  · exact released
  · next allDeleted =>
    have free : isHeld self registration = false := by
      refine Bool.eq_false_of_not_eq_true fun held => allDeleted ?_
      obtain ⟨row, mem, isHeld⟩ := any_eq_true.mp held
      simp only [decide_eq_true_eq] at isHeld
      refine any_eq_true.mpr ⟨row, mem_map.mpr ⟨row, mem, ?_⟩, ?_⟩
      · exact if_neg fun both => isHeld.2.1 both.2
      · simp [isHeld]
    have dependents := own.released free
    refine (released.trans (deleteFlowRows_untouched own.owner (fun row mem foreign => ?_)
      dependents)).trans (removeFlowFile_untouched fun gone row mem foreign => ?_)
    · exact own.schedules row (mem_of_mem_filter mem) foreign
    · refine dependents.location ?_ row (mem_of_mem_filter mem) foreign
      refine Bool.eq_false_of_not_eq_true fun stays => Bool.eq_false_iff.mp gone ?_
      obtain ⟨other, isOther, both⟩ := any_eq_true.mp stays
      simp only [decide_eq_true_eq] at both
      exact any_eq_true.mpr ⟨other, mem_filter.mpr ⟨isOther, by simp [both.2]⟩,
        decide_eq_true both.1⟩

def OwnDatabaseConnection (ownerId : Nat) (self : World) (name : String) : Prop :=
  ∀ conn, ownDatabaseConnection ownerId self name = some conn →
    OwnSecret ownerId self conn.passwordId

theorem deleteDatabaseConnection_untouched {self : World}
    (own : OwnDatabaseConnection ownerId self name) :
    Untouched ownerId self (deleteDatabaseConnection ownerId self name) := by
  rw [deleteDatabaseConnection]
  split
  · exact Untouched.refl
  · next conn found =>
    exact
      { (Untouched.refl : Untouched ownerId self self) with
        databaseConnections := keeps_eraseP fun row isOwn foreign => foreign (by
          simp only [decide_eq_true_eq] at isOwn
          exact isOwn.2)
        secrets := keeps_filter_iff.mpr fun row mem foreign =>
          decide_eq_true fun same => foreign (own conn found row mem same) }

def OwnCloudConnection (ownerId : Nat) (self : World) (name : String) : Prop :=
  ∀ conn, ownCloudConnection ownerId self name = some conn →
    ∀ id ∈ conn.secretIds, OwnSecret ownerId self (some id)

theorem deleteCloudConnection_untouched {self : World}
    (own : OwnCloudConnection ownerId self name) :
    Untouched ownerId self (deleteCloudConnection ownerId self name) := by
  rw [deleteCloudConnection]
  split
  · exact Untouched.refl
  · next conn found =>
    exact
      { (Untouched.refl : Untouched ownerId self self) with
        cloudConnections := keeps_eraseP fun row isOwn foreign => foreign (by
          simp only [decide_eq_true_eq] at isOwn
          exact isOwn.2)
        secrets := keeps_filter_iff.mpr fun row mem foreign =>
          decide_eq_true fun listed => foreign (own conn found _ listed row mem rfl) }

theorem deleteNamespace_untouched {self : World} {row : CatalogNamespace}
    (own : row.ownerId = ownerId) : Untouched ownerId self (deleteNamespace self row) := by
  rw [deleteNamespace]
  split
  · exact Untouched.refl
  · exact
      { (Untouched.refl : Untouched ownerId self self) with
        namespaces := keeps_filter_iff.mpr fun other _ foreign => by
          have differs : other.ownerId ≠ row.ownerId := own ▸ foreign
          simp [differs] }

theorem pruneNamespaces_untouched : Untouched ownerId self (pruneNamespaces ownerId self) := by
  refine Along.untouched_foldl (fun _ row => deleteNamespace_untouched)
    (along_of_forall fun row mem _ => ?_)
  have listed : row ∈ self.database.namespaces.filter fun row =>
      row.ownerId = ownerId ∧ row.isPublic = false ∧ row.id ∉ self.kept.namespaceIds := by
    obtain child | root := mem_append.mp mem
    · exact mem_of_mem_filter child
    · exact mem_of_mem_filter root
  have isOwn := (mem_filter.mp listed).2
  simp only [decide_eq_true_eq] at isOwn
  exact isOwn.1

/-- Where a step looks up a row or a file otherwise than by owner, it finds nothing of another user.
The condition is on the installation before the step. -/
def Separate (ownerId : Nat) (self : World) : Step → Prop
  | .databaseConnection entry => OwnPassword ownerId self entry
  | .cloudConnection entry => OwnCloudSecrets ownerId self entry
  | .flow data => OwnLocation ownerId self data
  | .schedules file => OwnSchedules ownerId self file
  | .pruneTables => Along (OwnTable ownerId) (fun self table => .ok (deleteTable self table))
      (prunedTables ownerId self) self
  | .pruneFlows => Along (OwnFlow ownerId) (fun self flow => .ok (pruneFlow self flow))
      (prunedFlows ownerId self) self
  | .pruneDatabaseConnections => Along (OwnDatabaseConnection ownerId)
      (fun self name => .ok (deleteDatabaseConnection ownerId self name))
      (prunedDatabaseConnections ownerId self) self
  | .pruneCloudConnections => Along (OwnCloudConnection ownerId)
      (fun self name => .ok (deleteCloudConnection ownerId self name))
      (prunedCloudConnections ownerId self) self
  | _ => True

theorem Separate.untouched {self : World} {step : Step} (separate : Separate ownerId self step) :
    Untouched ownerId self (step.run ownerId self).world := by
  cases step with
  | secret name =>
    show Untouched ownerId self (importStandaloneSecret ownerId self name)
    rw [importStandaloneSecret]
    split
    · exact Untouched.refl
    · exact storeSecret_untouched _ _ _
  | databaseConnection entry => exact importDbConnection_untouched separate
  | cloudConnection entry => exact importCloudConnection_untouched separate
  | catalogEntry entry => exact importNamespace_untouched self entry
  | flow data => exact importFlow_untouched separate
  | schedules file => exact importSchedules_untouched separate
  | table entry => exact importTable_untouched self entry
  | artifact entry => exact importArtifact_untouched self entry
  | kernel entry => exact importKernel_untouched self entry
  | visualization entry => exact importVisualization_untouched self entry
  | dashboard entry => exact importDashboard_untouched self entry
  | notebook file => exact importNotebook_untouched self file
  | pruneKernels => exact pruneKernels_untouched self
  | pruneDashboards => exact pruneDashboards_untouched self
  | pruneVisualizations => exact pruneVisualizations_untouched self
  | pruneNotebooks => exact pruneNotebooks_untouched self
  | pruneArtifacts => exact pruneArtifacts_untouched self
  | pruneTables => exact Along.untouched_foldl (fun _ _ => deleteTable_untouched) separate
  | pruneFlows => exact Along.untouched_foldl (fun _ _ => pruneFlow_untouched) separate
  | pruneDatabaseConnections =>
    exact Along.untouched_foldl (fun _ _ => deleteDatabaseConnection_untouched) separate
  | pruneCloudConnections =>
    exact Along.untouched_foldl (fun _ _ => deleteCloudConnection_untouched) separate
  | pruneNamespaces => exact pruneNamespaces_untouched self

omit [Machine] in
theorem Along.beginning {α : Type} {condition : World → α → Prop} {step : World → α → Outcome} :
    ∀ {done items : List α} {self : World}, Along condition step items self → done <+: items →
      Along condition step done self
  | [], _, _, _, _ => trivial
  | _ :: _, _, _, along, ⟨_, rfl⟩ =>
    ⟨along.1, fun next isNext => Along.beginning (along.2 next isNext) ⟨_, rfl⟩⟩

end

@[reducible] def plainMachine : Machine where
  flowsDirectory := "/flows"
  locate := id
  freshUuid count := "fresh-" ++ toString count
  resolve _ := none
  encrypt value _ := value
  decrypt := id
  grantedSecrets _ := []
  loadsFlow _ := true
  validSchedule _ := true
  tablePath _ := none
  validLayout layout := some layout
  isUuid _ := true

attribute [local instance] plainMachine

def flowNamed (name flowUuid : String) : Dict :=
  [("flow_uuid", .text flowUuid), ("flowfile_name", .text name)]

def secondUsers : World where
  database := ⟨[], [], [], [], [⟨1, "12345678-1111", "foo", "/flows/project/foo_12345678.flow.yaml",
    none, 2⟩], [], [], [], [], [], [], []⟩
  flowFavorites := []
  flowFollows := []
  endpoints := []
  endpointGrants := []
  apiKeys := []
  consumers := []
  runs := []
  tableFavorites := []
  flowFile path :=
    if path = "/flows/project/foo_12345678.flow.yaml" then some (flowNamed "foo" "12345678-1111")
    else none
  cells _ _ := []
  minted := 0
  resolved := []
  kept := ⟨[], [], [], [], [], [], [], [], [], []⟩

def projectOf (flow : Dict) : Tree :=
  ⟨[], [], [], [], [flow], [], false, [], [], [], [], [], []⟩

end Flowfile.Project
