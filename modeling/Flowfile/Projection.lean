import Flowfile.ProjectEntries

/-!
# Projecting the catalog into a folder

A full projection writes one file for each flow, schedule list, connection and notebook, and the
manifests at the root. A flow or a notebook asks for a file under its name; where this file carries
another identifier, it takes a file whose name ends with part of its own identifier. Files that were
not written are deleted at the end.
-/

namespace Flowfile.Project

open Library.Documents

inductive ManifestName where
  | secrets | namespaces | tables | models | kernels | visualizations | dashboards
deriving DecidableEq

/-- The files of a project, by the stems of their names. -/
inductive Place where
  | flow (stem : String)
  | schedule (stem : String)
  | database (stem : String)
  | cloud (stem : String)
  | notebook (stem : String)
  | manifest (name : ManifestName)
deriving DecidableEq

/-- The file lies in one of the directories that mirror rows. -/
def Place.mirrored : Place → Bool
  | .manifest _ => false
  | _ => true

abbrev Folder := List (Place × Dict)

/-- The contents of a file. -/
def Folder.read (self : Folder) (place : Place) : Option Dict :=
  self.lookup place

def Folder.unlink (self : Folder) (place : Place) : Folder :=
  self.filter fun file => file.1 ≠ place

def Folder.write (self : Folder) (place : Place) (contents : Dict) : Folder :=
  self.unlink place ++ [(place, contents)]

def Folder.keep (self : Folder) (condition : Place → Bool) : Folder :=
  self.filter fun file => condition file.1

section

variable {folder : Folder} {place other : Place} {contents : Dict}

/-- A file among those kept. -/
theorem read_keep (folder : Folder) (condition : Place → Bool) (place : Place) :
    (folder.keep condition).read place = if condition place then folder.read place else none := by
  induction folder with
  | nil => simp [Folder.keep, Folder.read]
  | cons file rest inner =>
    obtain ⟨name, contents⟩ := file
    rw [Folder.keep, Folder.read] at inner
    rw [Folder.keep, List.filter_cons, Folder.read, Folder.read, List.lookup_cons]
    by_cases same : place = name
    · subst same
      cases kept : condition place <;> simp [kept, inner]
    rw [beq_false_of_ne same]
    refine Eq.trans ?_ inner
    split
    · rw [List.lookup_cons, beq_false_of_ne same]
    · rfl

/-- Deleting a file. -/
theorem read_unlink (folder : Folder) (place other : Place) :
    (folder.unlink place).read other = if other = place then none else folder.read other := by
  have kept := read_keep folder (fun file => decide (file ≠ place)) other
  simp only [Folder.keep] at kept
  rw [Folder.unlink, kept]
  by_cases same : other = place <;> simp [same]

/-- The file that was written. -/
theorem read_write_self : (folder.write place contents).read place = some contents := by
  rw [Folder.write, Folder.read, List.lookup_append]
  have gone := read_unlink folder place place
  rw [Folder.read, if_pos rfl] at gone
  rw [gone]
  simp

/-- Other files stay when one is written. -/
theorem read_write_other (apart : other ≠ place) :
    (folder.write place contents).read other = folder.read other := by
  rw [Folder.write, Folder.read, List.lookup_append]
  have stays := read_unlink folder place other
  rw [Folder.read, if_neg apart] at stays
  rw [stays, List.lookup_cons, beq_false_of_ne apart]
  cases folder.read other <;> rfl

/-- Other files stay when one is deleted. -/
theorem read_unlink_other (apart : other ≠ place) :
    (folder.unlink place).read other = folder.read other := by
  rw [read_unlink, if_neg apart]

end

section

variable [Sha256] (install : Install)

/-- The ending of a path's last part, with its dot. A dot at either end of the part makes none. -/
def pathSuffix (path : String) : String :=
  let name := (path.toList.reverse.takeWhile (· ≠ '/')).reverse
  let ending := (name.reverse.takeWhile (· ≠ '.')).reverse
  if name.length ≤ ending.length + 1 || ending.isEmpty then "" else .ofList ('.' :: ending)

def loadFlowData (flowPath : String) : Option Dict :=
  if (pathSuffix flowPath).toLower ∈ [".yaml", ".yml", ".json"] then install.flowFile flowPath
  else none

def flowName (data : Dict) (registration : FlowRegistration) : String :=
  ((data.get "flowfile_name").filledText).getD registration.name

/-- The identifier in a file belongs to another resource. -/
def otherUuid (contents : Value) (uuid : String) : Bool :=
  match contents with
  | .null => false
  | .text given => given ≠ uuid
  | _ => true

/-- The stem that a resource takes: its own, unless the file there carries another identifier. -/
def chooseStem (folder : Folder) (place : String → Place) (key stem uuid : String) : String :=
  match folder.read (place stem) with
  | none => stem
  | some existing => if otherUuid (existing.get key) uuid then fallbackStem stem uuid else stem

/-- The contents of a flow's project file. -/
def flowContents (data : Dict) (registration : FlowRegistration) : Dict :=
  normalizeFlowData data registration.flowUuid registration.name
    (namespacePath install.database registration.namespaceId)

/-- Project a flow. The result is its stem, if its own file can be read. -/
def projectFlow (folder : Folder) (registration : FlowRegistration) : Folder × Option String :=
  match loadFlowData install registration.flowPath with
  | none => (folder, none)
  | some data =>
    let stem := chooseStem folder .flow "flow_uuid" (nameStem (flowName data registration))
      registration.flowUuid
    (folder.write (.flow stem) (flowContents install data registration), some stem)

def carrierStem (flowUuid : String) (file : Place × Dict) : Option String :=
  match file.1 with
  | .flow stem =>
    match file.2.get "flow_uuid" with
    | .text given => if given = flowUuid then some stem else none
    | _ => none
  | _ => none

omit [Sha256] in
/-- Which files carry an identifier. -/
theorem carrierStem_eq_some {flowUuid stem : String} {file : Place × Dict} :
    carrierStem flowUuid file = some stem ↔
      file.1 = .flow stem ∧ file.2.get "flow_uuid" = .text flowUuid := by
  rw [carrierStem]
  split
  · next other place =>
    rw [place]
    split
    · next given carried =>
      rw [carried]
      by_cases same : given = flowUuid <;> simp [same]
    · next foreign =>
      constructor
      · nofun
      · exact fun both => absurd both.2 (foreign flowUuid)
  · next noFlow =>
    constructor
    · nofun
    · exact fun both => absurd both.1 (noFlow stem)

/-- The stem of a flow's project file, or else the one under its name. -/
def flowStem (folder : Folder) (registration : FlowRegistration) : String :=
  (folder.findSome? (carrierStem registration.flowUuid)).getD (nameStem
    (flowName ((loadFlowData install registration.flowPath).getD []) registration))

def flowSchedules (registration : FlowRegistration) : List FlowSchedule :=
  sortOn (fun (first second : Nat) => first ≤ second) FlowSchedule.id
    (install.database.schedules.filter fun schedule =>
      schedule.registrationId = registration.id ∧ schedule.scheduleType ∈ projectableScheduleTypes)

def projectSchedules (folder : Folder) (registration : FlowRegistration) (stem : Option String) :
    Folder × Option String :=
  let stem := stem.getD (flowStem install folder registration)
  match flowSchedules install registration with
  | [] => (folder.unlink (.schedule stem), none)
  | schedules =>
    (folder.write (.schedule stem) (schedulesFile registration.flowUuid schedules), some stem)

/-- The folder in the course of a projection, with the files written so far. -/
structure Progress where
  folder : Folder
  written : List Place

def projectRegistration (self : Progress) (registration : FlowRegistration) : Progress :=
  let flow := projectFlow install self.folder registration
  let schedules := projectSchedules install flow.1 registration flow.2
  ⟨schedules.1, self.written ++ (flow.2.map Place.flow).toList ++
    (schedules.2.map Place.schedule).toList⟩

def projectConnection (place : String → Place) (contents : String → Option Dict) (self : Progress)
    (name : String) : Progress :=
  match contents name with
  | none => self
  | some contents =>
    let file := place (uniqueStem name)
    ⟨self.folder.write file contents, self.written ++ [file]⟩

variable (ownerId : Nat)

def databaseContents (name : String) : Option Dict :=
  (install.database.databaseConnections.find? fun conn =>
    conn.connectionName = name ∧ conn.userId = ownerId).map (dbConnectionDict install.database)

def cloudContents (name : String) : Option Dict :=
  (install.database.cloudConnections.find? fun conn =>
    conn.connectionName = name ∧ conn.userId = ownerId).map (cloudConnectionDict install.database)

def projectDatabaseConnection : Progress → String → Progress :=
  projectConnection .database (databaseContents install ownerId)

def projectCloudConnection : Progress → String → Progress :=
  projectConnection .cloud (cloudContents install ownerId)

/-- The contents of a notebook's project file. -/
def notebookContents (notebook : CatalogNotebook) : Dict :=
  serializeNotebook notebook (namespacePath install.database notebook.namespaceId)
    (install.cells ownerId notebook.notebookUuid)

def projectNotebook (self : Progress) (notebook : CatalogNotebook) : Progress :=
  let stem := chooseStem self.folder .notebook "notebook_uuid" (safeStem notebook.name)
    notebook.notebookUuid
  ⟨self.folder.write (.notebook stem) (notebookContents install ownerId notebook),
    self.written ++ [.notebook stem]⟩

def ownRegistrations : List FlowRegistration :=
  sortOn textLe FlowRegistration.flowUuid
    (install.database.registrations.filter (·.ownerId = ownerId))

def ownNotebooks : List CatalogNotebook :=
  sortOn textLe CatalogNotebook.notebookUuid
    (install.database.notebooks.filter (·.ownerId = ownerId))

def databaseConnectionNames : List String :=
  (install.database.databaseConnections.filter (·.userId = ownerId)).map (·.connectionName)

def cloudConnectionNames : List String :=
  (install.database.cloudConnections.filter (·.userId = ownerId)).map (·.connectionName)

def writeManifests [Storage] (track : Bool) (ownerId : Nat) (folder : Folder) : Folder :=
  let database := install.database
  let folder := folder.write (.manifest .secrets) (secretManifest database ownerId)
  let folder := folder.write (.manifest .namespaces) (namespaceManifest database ownerId)
  let folder :=
    if track then
      (folder.write (.manifest .tables) (tablesManifest database ownerId)).write (.manifest .models)
        (modelsManifest database ownerId)
    else (folder.unlink (.manifest .tables)).unlink (.manifest .models)
  let folder := folder.write (.manifest .kernels) (kernelsManifest database ownerId)
  let folder := folder.write (.manifest .visualizations) (visualizationsManifest database ownerId)
  folder.write (.manifest .dashboards) (dashboardsManifest database ownerId)

def projectBeforeNotebooks [Storage] (track : Bool) (ownerId : Nat) (folder : Folder) : Progress :=
  let flows := (ownRegistrations install ownerId).foldl (projectRegistration install) ⟨folder, []⟩
  let databases := (databaseConnectionNames install ownerId).foldl
    (projectDatabaseConnection install ownerId) flows
  let clouds := (cloudConnectionNames install ownerId).foldl
    (projectCloudConnection install ownerId) databases
  { clouds with folder := writeManifests install track ownerId clouds.folder }

/-- The files written one after the other, before anything is deleted. -/
def projectRows [Storage] (track : Bool) (ownerId : Nat) (folder : Folder) : Progress :=
  (ownNotebooks install ownerId).foldl (projectNotebook install ownerId)
    (projectBeforeNotebooks install track ownerId folder)

def projectAll [Storage] (track : Bool) (ownerId : Nat) (folder : Folder) : Folder :=
  let progress := projectRows install track ownerId folder
  progress.folder.keep fun place => !place.mirrored || decide (place ∈ progress.written)

end

end Flowfile.Project
