import Flowfile.Library.ColumnFrames
import Flowfile.Library.FallbackNames
import Flowfile.Projection

/-!
# Each resource has a file of its own

The stems of flows and of notebooks are names with one fallback; the stems of connections depend on
their names alone. A projection keeps the contents of every flow, notebook and connection, whatever
the folder holds, exactly where no stem beside a taken one is the stem of another resource.
-/

namespace Flowfile.Project

open Library.Documents Library.FallbackNames List
open Library.ColumnFrames (dictGet dictGet_append dictGet_map dictGet_of_mem dictGet_of_not_mem
  mem_of_dictGet not_mem_of_dictGet)

/-- Files of one kind that are written or deleted between two points, in order. -/
structure Edits (place : String → Place) (before later : Progress)
    (log : List (String × Option Dict)) : Prop where
  written : ∀ stem, place stem ∈ later.written ↔
    place stem ∈ before.written ∨ ∃ contents, (stem, some contents) ∈ log
  read : ∀ stem, later.folder.read (place stem) =
    (dictGet log stem).getD (before.folder.read (place stem))

section

variable {place : String → Place} {before middle later : Progress}

theorem Edits.refl : Edits place before before [] where
  written stem := by simp
  read stem := rfl

/-- One part after another. -/
theorem Edits.trans {first second : List (String × Option Dict)}
    (one : Edits place before middle first) (two : Edits place middle later second) :
    Edits place before later (first ++ second) where
  written stem := by
    simp only [two.written, one.written, mem_append, exists_or, or_assoc]
  read stem := by
    rw [two.read, one.read, dictGet_append]
    cases dictGet second stem with
    | none => rfl
    | some contents => rfl

/-- A file of the kind is written. -/
theorem edits_write (injective : Function.Injective place) (stem : String) (contents : Dict) :
    Edits place before ⟨before.folder.write (place stem) contents, before.written ++ [place stem]⟩
      [(stem, some contents)] where
  written other := by
    simp only [mem_append, mem_singleton, Prod.mk.injEq, Option.some.injEq]
    exact or_congr_right
      ⟨fun same => ⟨contents, injective same, rfl⟩, fun found => by
        rw [found.choose_spec.1]⟩
  read other := by
    by_cases same : other = stem
    · subst same
      rw [read_write_self, dictGet_of_mem (by simp) (mem_singleton_self _)]
      rfl
    · rw [read_write_other fun equal => same (injective equal),
        dictGet_of_not_mem (by simpa using same)]
      rfl

/-- A file of the kind is deleted. -/
theorem edits_unlink (injective : Function.Injective place) (stem : String) :
    Edits place before ⟨before.folder.unlink (place stem), before.written⟩ [(stem, none)] where
  written other := by simp
  read other := by
    rw [read_unlink]
    by_cases same : other = stem
    · subst same
      rw [if_pos rfl, dictGet_of_mem (by simp) (mem_singleton_self _)]
      rfl
    · rw [if_neg fun equal => same (injective equal),
        dictGet_of_not_mem (by simpa using same)]
      rfl

theorem edits_elsewhere {file : Place} (apart : ∀ stem, place stem ≠ file) (contents : Dict) :
    Edits place before ⟨before.folder.write file contents, before.written ++ [file]⟩ [] where
  written stem := by simp [apart stem]
  read stem := read_write_other (apart stem)

variable {folder : Folder}

/-- Other files change without being recorded. -/
theorem edits_unrecorded
    (same : ∀ stem, folder.read (place stem) = before.folder.read (place stem)) :
    Edits place before ⟨folder, before.written⟩ [] where
  written stem := by simp
  read := same

theorem Edits.swept {log : List (String × Option Dict)} (edits : Edits place ⟨folder, []⟩ later log)
    (mirrored : ∀ stem, (place stem).mirrored = true) (stem : String) :
    (later.folder.keep fun file => !file.mirrored || decide (file ∈ later.written)).read
      (place stem) = (dictGet log stem).join := by
  have written : place stem ∈ later.written ↔ ∃ contents, (stem, some contents) ∈ log := by
    rw [edits.written]
    exact or_iff_right not_mem_nil
  rw [read_keep, mirrored, Bool.not_true, Bool.false_or, edits.read]
  simp only [decide_eq_true_eq]
  cases found : dictGet log stem with
  | none =>
    rw [if_neg]
    · rfl
    · rw [written]
      rintro ⟨contents, mem⟩
      exact not_mem_of_dictGet found (mem_map_of_mem mem)
  | some last =>
    cases last with
    | none => exact ite_self _
    | some contents =>
      rw [if_pos (written.mpr ⟨contents, mem_of_dictGet found⟩)]
      rfl

end

/-- Files of one kind that are written between two points, in order. -/
def Writes (place : String → Place) (before later : Progress) (log : List (String × Dict)) : Prop :=
  Edits place before later (log.map fun entry => (entry.1, some entry.2))

section

variable {place : String → Place} {before middle later : Progress}

/-- Looking up what was written. -/
theorem optional_log (log : List (String × Dict)) (stem : String) :
    dictGet (log.map fun entry => (entry.1, some entry.2)) stem = (dictGet log stem).map some := by
  have entries := dictGet_map log Prod.fst Prod.snd stem
  rw [map_id'' fun _ => rfl] at entries
  rw [entries, dictGet_map log Prod.fst, Option.map_map]
  rfl

variable {log : List (String × Dict)}

section

variable (writes : Writes place before later log)
include writes

variable (stem : String)

/-- The files that were written are recorded. -/
theorem Writes.written :
    place stem ∈ later.written ↔ place stem ∈ before.written ∨ stem ∈ log.map Prod.fst := by
  rw [Edits.written writes]
  simp

/-- The last contents written at each place are there. -/
theorem Writes.read : later.folder.read (place stem) =
      (dictGet log stem).or (before.folder.read (place stem)) := by
  rw [Edits.read writes, optional_log]
  cases dictGet log stem with
  | none => rfl
  | some contents => rfl

/-- Other files of the kind stay. -/
theorem Writes.stays (apart : stem ∉ log.map Prod.fst) :
    later.folder.read (place stem) = before.folder.read (place stem) := by
  rw [writes.read, dictGet_of_not_mem apart]
  rfl

/-- Where each file is written once, its contents stay. -/
theorem Writes.kept
    (distinct : (log.map Prod.fst).Nodup) (entry : String × Dict) (mem : entry ∈ log) :
    later.folder.read (place entry.1) = some entry.2 := by
  have agree : ∀ other, (entry.1, other) ∈ log → other = entry.2 := fun other listed =>
    congrArg Prod.snd (inj_on_of_nodup_map distinct listed mem rfl)
  rw [writes.read, dictGet_of_mem agree mem]
  rfl

end

/-- Nothing is written. -/
theorem Writes.refl : Writes place before before [] :=
  Edits.refl

/-- One part after another. -/
theorem Writes.trans {first second : List (String × Dict)} (one : Writes place before middle first)
    (two : Writes place middle later second) : Writes place before later (first ++ second) := by
  rw [Writes, map_append]
  exact Edits.trans one two

theorem Writes.thenNone (one : Writes place before middle log)
    (two : Writes place middle later []) : Writes place before later log :=
  append_nil log ▸ one.trans two

theorem writes_file (injective : Function.Injective place) (stem : String) (contents : Dict) :
    Writes place before ⟨before.folder.write (place stem) contents, before.written ++ [place stem]⟩
      [(stem, contents)] :=
  edits_write injective stem contents

theorem writes_elsewhere {file : Place} (apart : ∀ stem, place stem ≠ file) (contents : Dict) :
    Writes place before ⟨before.folder.write file contents, before.written ++ [file]⟩ [] :=
  edits_elsewhere apart contents

/-- Other files change without being recorded. -/
theorem writes_unrecorded {folder : Folder}
    (same : ∀ stem, folder.read (place stem) = before.folder.read (place stem)) :
    Writes place before ⟨folder, before.written⟩ [] :=
  edits_unrecorded same

/-- Steps that write nothing of the kind. -/
theorem writes_foldl_nil {ι : Type} {step : Progress → ι → Progress} {items : List ι}
    (steps : ∀ progress item, Writes place progress (step progress item) []) :
    Writes place before (items.foldl step before) [] := by
  induction items generalizing before with
  | nil => exact Writes.refl
  | cons item rest inner => exact (steps before item).trans inner

end

/-- The identifiers that the files of a kind carry. -/
def shelf (folder : Folder) (place : String → Place) (key : String) : Shelf String Value :=
  fun stem => (folder.read (place stem)).map fun contents => contents.get key

/-- A resource as a claim to a stem. Its file carries an identifier. -/
def stemClaim (key stem uuid : String) (contents : Dict) : Claim String String Value :=
  ⟨stem, fallbackStem stem uuid, uuid, contents.get key⟩

theorem chooseStem_eq (folder : Folder) (place : String → Place) (key stem uuid : String)
    (contents : Dict) : chooseStem folder place key stem uuid =
      target otherUuid (shelf folder place key) (stemClaim key stem uuid contents) := by
  rw [chooseStem, target, displaced, shelf]
  show _ = if ((folder.read (place stem)).map _).any _ then _ else _
  cases folder.read (place stem) with
  | none => rfl
  | some existing => rfl

/-- The names that resources take, with what is written there. -/
def logOf (key : String) : Shelf String Value → List (String × String × Dict) → List (String × Dict)
  | _, [] => []
  | marks, (stem, uuid, contents) :: rest =>
    (target otherUuid marks (stemClaim key stem uuid contents), contents) ::
      logOf key (put otherUuid marks (stemClaim key stem uuid contents)) rest

def claimsOf (key : String) (resources : List (String × String × Dict)) :
    List (Claim String String Value) :=
  resources.map fun resource => stemClaim key resource.1 resource.2.1 resource.2.2

section

variable (key : String) (marks : Shelf String Value)
include key marks

theorem logOf_cons (resource : String × String × Dict) (rest : List (String × String × Dict)) :
    logOf key marks (resource :: rest) = logOf key marks [resource] ++
      logOf key (put otherUuid marks (stemClaim key resource.1 resource.2.1 resource.2.2)) rest :=
  rfl

variable (resources : List (String × String × Dict))

theorem logOf_fst : (logOf key marks resources).map Prod.fst =
      targets otherUuid marks (claimsOf key resources) := by
  induction resources generalizing marks with
  | nil => rfl
  | cons resource rest inner => exact congrArg _ (inner _)

theorem logOf_snd :
    (logOf key marks resources).map Prod.snd = resources.map fun resource => resource.2.2 := by
  induction resources generalizing marks with
  | nil => rfl
  | cons resource rest inner => exact congrArg _ (inner _)

end

/-- A shelf after its files stayed. -/
theorem shelf_congr {folder other : Folder} {place : String → Place} {key : String}
    (same : ∀ stem, folder.read (place stem) = other.read (place stem)) :
    shelf folder place key = shelf other place key := by
  funext stem
  rw [shelf, shelf, same]

/-- Where nothing of its kind is written, a shelf stays. -/
theorem Writes.shelf_nil {place : String → Place} {before later : Progress} {key : String}
    (writes : Writes place before later []) :
    shelf later.folder place key = shelf before.folder place key :=
  shelf_congr fun stem => writes.stays stem not_mem_nil

theorem Writes.shelf_one {place : String → Place} {before later : Progress} {key : String}
    {resource : String × String × Dict}
    (writes : Writes place before later (logOf key (shelf before.folder place key) [resource])) :
    shelf later.folder place key = put otherUuid (shelf before.folder place key)
      (stemClaim key resource.1 resource.2.1 resource.2.2) := by
  funext stem
  by_cases taken : stem = target otherUuid (shelf before.folder place key)
      (stemClaim key resource.1 resource.2.1 resource.2.2)
  · subst taken
    rw [put_target, shelf, writes.kept (nodup_singleton _) _ mem_cons_self]
    rfl
  · rw [put_apart taken, shelf, writes.stays stem fun mem => taken (mem_singleton.mp mem)]
    rfl

section

variable [Sha256] (install : Install)

/-- Flows whose own files can be read, with the data of these files. -/
def readableFlows (registrations : List FlowRegistration) : List (FlowRegistration × Dict) :=
  registrations.filterMap fun registration =>
    (loadFlowData install registration.flowPath).map fun data => (registration, data)

def stemOfFlow (flow : FlowRegistration × Dict) : String :=
  nameStem (flowName flow.2 flow.1)

/-- Flows whose own files can be read: their stems, identifiers and contents. -/
def flowResources (registrations : List FlowRegistration) : List (String × String × Dict) :=
  (readableFlows install registrations).map fun flow =>
    (stemOfFlow flow, flow.1.flowUuid, flowContents install flow.2 flow.1)

def notebookResources (ownerId : Nat) (notebooks : List CatalogNotebook) :
    List (String × String × Dict) :=
  notebooks.map fun notebook => (safeStem notebook.name, notebook.notebookUuid,
    notebookContents install ownerId notebook)

def connectionLog (contents : String → Option Dict) (names : List String) : List (String × Dict) :=
  names.filterMap fun name => (contents name).map fun found => (uniqueStem name, found)

variable {install} {place : String → Place}

omit [Sha256] in
/-- Schedules are no files of another kind. -/
theorem schedules_writes (apart : ∀ stem other, place stem ≠ .schedule other) (progress : Progress)
    [Sha256] (registration : FlowRegistration) (stem : Option String) :
    Writes place progress
      ⟨(projectSchedules install progress.folder registration stem).1, progress.written ++
        ((projectSchedules install progress.folder registration stem).2.map
          Place.schedule).toList⟩ [] := by
  rw [projectSchedules]
  split
  · rw [Option.map_none, Option.toList_none, append_nil]
    exact writes_unrecorded fun other => read_unlink_other (apart other _)
  · exact writes_elsewhere (fun other => apart other _) _

def afterFlow (install : Install) (progress : Progress) (registration : FlowRegistration) :
    Progress :=
  ⟨(projectFlow install progress.folder registration).1, progress.written ++
    ((projectFlow install progress.folder registration).2.map Place.flow).toList⟩

theorem registration_schedules (apart : ∀ stem other, place stem ≠ .schedule other)
    (progress : Progress) (registration : FlowRegistration) :
    Writes place (afterFlow install progress registration)
      (projectRegistration install progress registration) [] :=
  schedules_writes apart (afterFlow install progress registration) registration
    (projectFlow install progress.folder registration).2

/-- A flow takes a stem, if its own file can be read. -/
theorem flow_writes (progress : Progress) (registration : FlowRegistration) :
    Writes .flow progress (projectRegistration install progress registration)
      (logOf "flow_uuid" (shelf progress.folder .flow "flow_uuid")
        (flowResources install [registration])) := by
  refine Writes.thenNone ?_
    (registration_schedules (fun stem other same => by cases same) progress registration)
  cases loaded : loadFlowData install registration.flowPath with
  | none =>
    have unread : afterFlow install progress registration = progress := by
      simp [afterFlow, projectFlow, loaded]
    have nothing : flowResources install [registration] = [] := by
      simp [flowResources, readableFlows, loaded]
    rw [unread, nothing]
    exact Writes.refl
  | some data =>
    have one : flowResources install [registration] =
        [(nameStem (flowName data registration), registration.flowUuid,
          flowContents install data registration)] := by
      simp [flowResources, readableFlows, loaded, stemOfFlow]
    rw [one, logOf, ← chooseStem_eq, logOf, afterFlow, projectFlow, loaded]
    exact writes_file (fun _ _ => Place.flow.inj) _ _

theorem registration_elsewhere (flows : ∀ stem other, place stem ≠ .flow other)
    (schedules : ∀ stem other, place stem ≠ .schedule other) (progress : Progress)
    (registration : FlowRegistration) :
    Writes place progress (projectRegistration install progress registration) [] := by
  refine Writes.thenNone ?_ (registration_schedules schedules progress registration)
  rw [afterFlow, projectFlow]
  split
  · simpa using @Writes.refl place progress
  · exact writes_elsewhere (fun stem => flows stem _) _

theorem flows_write (progress : Progress) (registrations : List FlowRegistration) :
    Writes .flow progress (registrations.foldl (projectRegistration install) progress)
      (logOf "flow_uuid" (shelf progress.folder .flow "flow_uuid")
        (flowResources install registrations)) := by
  induction registrations generalizing progress with
  | nil => exact Writes.refl
  | cons registration rest inner =>
    have first := @flow_writes _ install progress registration
    have others := inner (projectRegistration install progress registration)
    cases loaded : loadFlowData install registration.flowPath with
    | none =>
      have nothing : flowResources install [registration] = [] := by
        simp [flowResources, readableFlows, loaded]
      have skipped : flowResources install (registration :: rest) = flowResources install rest := by
        simp [flowResources, readableFlows, loaded]
      rw [nothing] at first
      rw [first.shelf_nil] at others
      rw [skipped]
      exact first.trans others
    | some data =>
      let resource := (nameStem (flowName data registration), registration.flowUuid,
        flowContents install data registration)
      have one : flowResources install [registration] = [resource] := by
        simp [flowResources, readableFlows, loaded, resource, stemOfFlow]
      have more : flowResources install (registration :: rest) =
          resource :: flowResources install rest := by
        simp [flowResources, readableFlows, loaded, resource, stemOfFlow]
      rw [one] at first
      rw [first.shelf_one] at others
      rw [more, logOf_cons]
      exact first.trans others

omit [Sha256] in
theorem notebooks_write (ownerId : Nat) (progress : Progress) (notebooks : List CatalogNotebook) :
    Writes .notebook progress (notebooks.foldl (projectNotebook install ownerId) progress)
      (logOf "notebook_uuid" (shelf progress.folder .notebook "notebook_uuid")
        (notebookResources install ownerId notebooks)) := by
  induction notebooks generalizing progress with
  | nil => exact Writes.refl
  | cons notebook rest inner =>
    have first : Writes .notebook progress (projectNotebook install ownerId progress notebook)
        (logOf "notebook_uuid" (shelf progress.folder .notebook "notebook_uuid")
          (notebookResources install ownerId [notebook])) := by
      rw [notebookResources, map_cons, map_nil, logOf, ← chooseStem_eq, logOf]
      exact writes_file (fun _ _ => Place.notebook.inj) _ _
    have others := inner (projectNotebook install ownerId progress notebook)
    rw [first.shelf_one] at others
    rw [notebookResources, map_cons, logOf_cons]
    exact first.trans others

omit [Sha256] in
theorem notebooks_elsewhere (apart : ∀ stem other, place stem ≠ .notebook other) (ownerId : Nat)
    (progress : Progress) (notebooks : List CatalogNotebook) :
    Writes place progress (notebooks.foldl (projectNotebook install ownerId) progress) [] :=
  writes_foldl_nil fun _ _ => writes_elsewhere (fun stem => apart stem _) _

theorem connections_write (injective : Function.Injective place)
    (contents : String → Option Dict) (progress : Progress) (names : List String) :
    Writes place progress (names.foldl (projectConnection place contents) progress)
      (connectionLog contents names) := by
  induction names generalizing progress with
  | nil => exact Writes.refl
  | cons name rest inner =>
    have others := inner (projectConnection place contents progress name)
    rw [foldl_cons, connectionLog, filterMap_cons]
    rw [connectionLog] at others
    cases found : contents name with
    | none =>
      rw [projectConnection, found] at others ⊢
      exact others
    | some given =>
      rw [projectConnection, found] at others ⊢
      exact (writes_file injective _ _).trans others

theorem connections_elsewhere {other : String → Place}
    (apart : ∀ stem name, place stem ≠ other name)
    (contents : String → Option Dict) (progress : Progress) (names : List String) :
    Writes place progress (names.foldl (projectConnection other contents) progress) [] := by
  refine writes_foldl_nil fun before name => ?_
  rw [projectConnection]
  split
  · exact Writes.refl
  · exact writes_elsewhere (fun stem => apart stem _) _

theorem registrations_elsewhere (flows : ∀ stem other, place stem ≠ .flow other)
    (schedules : ∀ stem other, place stem ≠ .schedule other) (progress : Progress)
    (registrations : List FlowRegistration) :
    Writes place progress (registrations.foldl (projectRegistration install) progress) [] :=
  writes_foldl_nil fun before _ => registration_elsewhere flows schedules before _

omit [Sha256] in
/-- Manifests are no files of another kind. -/
theorem manifests_elsewhere [Storage] (apart : ∀ stem name, place stem ≠ .manifest name)
    (track : Bool) (ownerId : Nat) (progress : Progress) :
    Writes place progress
      { progress with folder := writeManifests install track ownerId progress.folder } [] := by
  refine writes_unrecorded fun stem => ?_
  rw [writeManifests]
  simp only [read_write_other (apart stem _)]
  split
  · simp only [read_write_other (apart stem _)]
  · simp only [read_unlink_other (apart stem _), read_write_other (apart stem _)]

end

def HasFiles (folder : Folder) (place : String → Place) (contents : List Dict) : Prop :=
  ∃ stems : List String, stems.Nodup ∧
    List.Forall₂ (fun stem given => folder.read (place stem) = some given) stems contents

section

variable [Sha256] [Storage] {install : Install} {track : Bool} {ownerId : Nat} {folder : Folder}

theorem project_flows : Writes .flow ⟨folder, []⟩ (projectRows install track ownerId folder)
    (logOf "flow_uuid" (shelf folder .flow "flow_uuid")
      (flowResources install (ownRegistrations install ownerId))) :=
  (((flows_write ⟨folder, []⟩ _).thenNone
    (connections_elsewhere (by nofun) _ _ _)).thenNone
    (connections_elsewhere (by nofun) _ _ _)).thenNone
    (manifests_elsewhere (by nofun) track ownerId _) |>.thenNone
    (notebooks_elsewhere (by nofun) ownerId _ _)

theorem project_databases : Writes .database ⟨folder, []⟩ (projectRows install track ownerId folder)
    (connectionLog (databaseContents install ownerId) (databaseConnectionNames install ownerId)) :=
  (((registrations_elsewhere (by nofun) (by nofun)
      ⟨folder, []⟩ _).trans
    (connections_write (fun _ _ => Place.database.inj) _ _ _)).thenNone
    (connections_elsewhere (by nofun) _ _ _)).thenNone
    (manifests_elsewhere (by nofun) track ownerId _) |>.thenNone
    (notebooks_elsewhere (by nofun) ownerId _ _)

theorem project_clouds : Writes .cloud ⟨folder, []⟩ (projectRows install track ownerId folder)
    (connectionLog (cloudContents install ownerId) (cloudConnectionNames install ownerId)) :=
  (((registrations_elsewhere (by nofun) (by nofun)
      ⟨folder, []⟩ _).trans
    (connections_elsewhere (by nofun) _ _ _)).trans
    (connections_write (fun _ _ => Place.cloud.inj) _ _ _)).thenNone
    (manifests_elsewhere (by nofun) track ownerId _) |>.thenNone
    (notebooks_elsewhere (by nofun) ownerId _ _)

theorem project_notebooks : Writes .notebook ⟨folder, []⟩ (projectRows install track ownerId folder)
    (logOf "notebook_uuid" (shelf folder .notebook "notebook_uuid")
      (notebookResources install ownerId (ownNotebooks install ownerId))) := by
  have before : Writes .notebook ⟨folder, []⟩
      (projectBeforeNotebooks install track ownerId folder) [] :=
    (((registrations_elsewhere (by nofun) (by nofun)
        ⟨folder, []⟩ _).thenNone
      (connections_elsewhere (by nofun) _ _ _)).thenNone
      (connections_elsewhere (by nofun) _ _ _)).thenNone
      (manifests_elsewhere (by nofun) track ownerId _)
  have notebooks := @notebooks_write install ownerId
    (projectBeforeNotebooks install track ownerId folder) (ownNotebooks install ownerId)
  rw [before.shelf_nil] at notebooks
  exact before.trans notebooks

end

theorem exists_of_forall₂ {α β : Type} {R : α → β → Prop} {first : List α} {second : List β}
    (related : List.Forall₂ R first second) {item : α} (mem : item ∈ first) :
    ∃ other, R item other := by
  induction related with
  | nil => cases mem
  | cons head _ inner =>
    obtain rfl | later := mem_cons.mp mem
    · exact ⟨_, head⟩
    · exact inner later

theorem hasFiles_iff {place : String → Place} {folder : Folder} {later : Progress}
    {log : List (String × Dict)} (writes : Writes place ⟨folder, []⟩ later log)
    (mirrored : ∀ stem, (place stem).mirrored = true) :
    HasFiles (later.folder.keep fun file => !file.mirrored || decide (file ∈ later.written)) place
      (log.map Prod.snd) ↔ (log.map Prod.fst).Nodup := by
  have written (stem : String) : place stem ∈ later.written ↔ stem ∈ log.map Prod.fst := by
    rw [writes.written]
    exact or_iff_right not_mem_nil
  have swept (stem : String) :
      (later.folder.keep fun file => !file.mirrored || decide (file ∈ later.written)).read
        (place stem) =
      if stem ∈ log.map Prod.fst then later.folder.read (place stem) else none := by
    rw [read_keep, mirrored, Bool.not_true, Bool.false_or]
    simp only [decide_eq_true_eq, written]
  constructor
  · rintro ⟨stems, distinct, same⟩
    have taken : stems ⊆ log.map Prod.fst := by
      intro stem mem
      obtain ⟨given, found⟩ := exists_of_forall₂ same mem
      rw [swept] at found
      by_contra untaken
      rw [if_neg untaken] at found
      cases found
    have lengths : stems.length = (log.map Prod.fst).length := by
      rw [same.length_eq, length_map, length_map]
    exact ((subperm_of_subset distinct taken).perm_of_length_le lengths.ge).nodup_iff.mp
      distinct
  · intro distinct
    refine ⟨log.map Prod.fst, distinct, ?_⟩
    rw [forall₂_map_left_iff, forall₂_map_right_iff, forall₂_same]
    intro entry mem
    rw [swept, if_pos (mem_map_of_mem mem)]
    exact writes.kept distinct entry mem

/-- A folder whose files of a kind carry the given identifiers under some stems. -/
def folderOf (place : String → Place) (key : String) (marks : Shelf String Value)
    (stems : List String) : Folder :=
  stems.filterMap fun stem => (marks stem).map fun mark => (place stem, [(key, mark)])

/-- The files of such a folder. -/
theorem read_folderOf {place : String → Place} (injective : Function.Injective place) (key : String)
    (marks : Shelf String Value) (stems : List String) (stem : String) :
    (folderOf place key marks stems).read (place stem) =
      if stem ∈ stems then (marks stem).map fun mark => [(key, mark)] else none := by
  induction stems with
  | nil => rfl
  | cons first rest inner =>
    rw [folderOf, Folder.read] at inner
    rw [folderOf, Folder.read, filterMap_cons]
    by_cases same : stem = first
    · subst same
      rw [if_pos mem_cons_self]
      cases marked : marks stem with
      | none =>
        rw [marked] at inner
        exact inner.trans (by split <;> rfl)
      | some mark => exact lookup_cons_self
    · have others : stem ∈ first :: rest ↔ stem ∈ rest := by simp [same]
      cases marked : marks first with
      | none => simpa only [marked, Option.map_none, others] using inner
      | some mark =>
      have apart : place stem ≠ place first := fun equal => same (injective equal)
      simp only [Option.map_some, others]
      rw [lookup_cons, beq_false_of_ne apart]
      exact inner

theorem shelf_folderOf {place : String → Place}
    (injective : Function.Injective place) (key : String)
    (marks : Shelf String Value) {stems : List String} {stem : String} (mem : stem ∈ stems) :
    shelf (folderOf place key marks stems) place key stem = marks stem := by
  rw [shelf, read_folderOf injective, if_pos mem]
  cases marks stem with
  | none => rfl
  | some mark => simp [Dict.get]

theorem length_fallbackStem (stem uuid : String) :
    stem.length < (fallbackStem stem uuid).length := by
  have one : "_".length = 1 := rfl
  rw [fallbackStem, String.length_append, String.length_append]
  omega

theorem stems_iff {place : String → Place} (injective : Function.Injective place) (key : String)
    (resources : List (String × String × Dict))
    (uuids : (resources.map fun resource => resource.2.1).Nodup) :
    (∀ folder, (targets otherUuid (shelf folder place key) (claimsOf key resources)).Nodup) ↔
      (claimsOf key resources).Pairwise (Apart otherUuid) := by
  have ids : (claimsOf key resources).Pairwise fun claim next => claim.id ≠ next.id := by
    rw [claimsOf, pairwise_map]
    exact pairwise_map.mp uuids
  have longer : ∀ claim ∈ claimsOf key resources, claim.bare.length < claim.fallback.length := by
    intro claim mem
    obtain ⟨resource, _, rfl⟩ := mem_map.mp mem
    exact length_fallbackStem _ _
  have ownSelf : ∀ id, otherUuid (.text id) id = false := fun id => by simp [otherUuid]
  have ownOther : ∀ id further, id ≠ further → otherUuid (.text id) further = true :=
    fun id further apart => by simpa [otherUuid] using apart
  have strange : ∀ claim ∈ claimsOf key resources, otherUuid (.boolean true) claim.id = true :=
    fun _ _ => rfl
  rw [← nodup_iff ownSelf ownOther longer strange ids]
  constructor
  · intro everywhere marks
    have realised := everywhere
      (folderOf place key marks ((claimsOf key resources).map Claim.bare))
    rwa [targets_congr fun claim mem =>
      shelf_folderOf injective key marks (mem_map_of_mem mem)] at realised
  · exact fun everywhere folder => everywhere _

theorem lookup_stripped [Sha256] (data : Dict) {key : String} (nodes : key ≠ "nodes")
    (settings : key ≠ "flowfile_settings") :
    (stripNodeNamespaceIds (stripSettings data)).lookup key = data.lookup key := by
  have stripped : (stripSettings data).lookup key = data.lookup key := by
    rw [stripSettings]
    split
    · exact lookup_set_other data settings _
    · rfl
  rw [stripNodeNamespaceIds]
  split
  · exact (lookup_set_other _ nodes _).trans stripped
  · exact stripped

/-- The identifier in a flow's project file: the one that its own file brings, or else its own. -/
def carriedUuid (flow : FlowRegistration × Dict) : Value :=
  (flow.2.lookup "flow_uuid").getD (.text flow.1.flowUuid)

/-- The project file of a flow carries this identifier. -/
theorem flowContents_uuid [Sha256] (install : Install) (flow : FlowRegistration × Dict) :
    (flowContents install flow.2 flow.1).get "flow_uuid" = carriedUuid flow := by
  rw [flowContents, normalizeFlowData, Dict.get, lookup_merge, lookup_stripped _ (by decide)
    (by decide), lookup_set_other _ (by decide), carriedUuid]
  cases flow.2.lookup "flow_uuid" with
  | none => rfl
  | some value => rfl

/-- The project file of a notebook carries its identifier. -/
theorem notebookContents_uuid (install : Install) (ownerId : Nat) (notebook : CatalogNotebook) :
    (notebookContents install ownerId notebook).get "notebook_uuid" =
      .text notebook.notebookUuid := by
  rfl

/-- The stem that a flow takes where its own is taken. -/
def fallbackOfFlow (flow : FlowRegistration × Dict) : String :=
  fallbackStem (stemOfFlow flow) flow.1.flowUuid

/-- No flow's fallback is the stem or the fallback of an earlier flow, and where an earlier flow may
have the stem of a later one, its file does not carry the later one's identifier. -/
def FlowsApart (flows : List (FlowRegistration × Dict)) : Prop :=
  flows.Pairwise fun first next =>
    (stemOfFlow first = stemOfFlow next ∨ fallbackOfFlow first = stemOfFlow next →
      otherUuid (carriedUuid first) next.1.flowUuid = true) ∧
    fallbackOfFlow next ≠ stemOfFlow first ∧ fallbackOfFlow next ≠ fallbackOfFlow first

/-- The stem that a notebook takes where its own is taken. -/
def fallbackOfNotebook (notebook : CatalogNotebook) : String :=
  fallbackStem (safeStem notebook.name) notebook.notebookUuid

def NotebooksApart (notebooks : List CatalogNotebook) : Prop :=
  notebooks.Pairwise fun first next =>
    fallbackOfNotebook next ≠ safeStem first.name ∧
      fallbackOfNotebook next ≠ fallbackOfNotebook first

/-- Names that need cleaning differ after it or in their digests, and no clean name is what another
name becomes. -/
def ConnectionsApart [Sha256] (names : List String) : Prop :=
  ∀ first ∈ names, ∀ next ∈ names, first ≠ next → safeStem next ≠ next →
    if safeStem first = first then first ≠ safeStem next ++ "_" ++ shortDigest next
    else safeStem first = safeStem next → shortDigest first ≠ shortDigest next

theorem flows_apart_iff [Sha256] (install : Install) (registrations : List FlowRegistration) :
    (claimsOf "flow_uuid" (flowResources install registrations)).Pairwise (Apart otherUuid) ↔
      FlowsApart (readableFlows install registrations) := by
  rw [claimsOf, flowResources, map_map, pairwise_map, FlowsApart]
  simp only [Function.comp, stemClaim, Apart, flowContents_uuid, fallbackOfFlow]

theorem notebooks_apart_iff (install : Install) (ownerId : Nat) {notebooks : List CatalogNotebook}
    (uuids : (notebooks.map (·.notebookUuid)).Nodup) :
    (claimsOf "notebook_uuid" (notebookResources install ownerId notebooks)).Pairwise
      (Apart otherUuid) ↔ NotebooksApart notebooks := by
  rw [claimsOf, notebookResources, map_map, pairwise_map, NotebooksApart]
  constructor
  · exact fun apart => apart.imp fun both => both.2
  · intro apart
    refine (apart.and (pairwise_map.mp uuids)).imp fun ⟨fallbacks, ids⟩ =>
      ⟨fun _ => ?_, fallbacks⟩
    simpa [stemClaim, notebookContents_uuid, otherUuid] using ids

/-- The first eight digits of a digest are eight. -/
theorem length_shortDigest [Sha256] (name : String) : (shortDigest name).toList.length = 8 := by
  have digits := Sha256.hexdigest_length name
  rw [← String.length_toList] at digits
  rw [shortDigest, String.toList_ofList, length_take, digits]
  rfl

/-- Cleaned names with digests are equal only where both parts are. -/
theorem digested_injective [Sha256] {first next stem other : String}
    (same : stem ++ "_" ++ shortDigest first = other ++ "_" ++ shortDigest next) :
    stem = other ∧ shortDigest first = shortDigest next := by
  have letters := congrArg String.toList same
  simp only [String.toList_append] at letters
  have lengths : (shortDigest first).toList.length = (shortDigest next).toList.length :=
    (length_shortDigest first).trans (length_shortDigest next).symm
  obtain ⟨stems, digests⟩ := append_inj' letters lengths
  exact ⟨String.toList_injective (append_cancel_right stems), String.toList_injective digests⟩

theorem uniqueStem_nodup_iff [Sha256] {names : List String} (distinct : names.Nodup) :
    (names.map uniqueStem).Nodup ↔ ConnectionsApart names := by
  rw [nodup_map_iff_inj_on distinct]
  constructor
  · intro injective first inFirst next inNext apart unclean
    have stems : uniqueStem first ≠ uniqueStem next :=
      fun same => apart (injective first inFirst next inNext same)
    rw [uniqueStem, uniqueStem, if_neg unclean] at stems
    split
    · next clean => rwa [if_pos clean] at stems
    · next alsoUnclean =>
      rw [if_neg alsoUnclean] at stems
      exact fun same digests => stems (by rw [same, digests])
  · intro apart first inFirst next inNext same
    by_contra different
    rw [uniqueStem, uniqueStem] at same
    by_cases firstClean : safeStem first = first <;> by_cases nextClean : safeStem next = next
    · rw [if_pos firstClean, if_pos nextClean] at same
      exact different same
    · rw [if_pos firstClean, if_neg nextClean] at same
      have condition := apart first inFirst next inNext different nextClean
      rw [if_pos firstClean] at condition
      exact condition same
    · rw [if_neg firstClean, if_pos nextClean] at same
      have condition := apart next inNext first inFirst (Ne.symm different) firstClean
      rw [if_pos nextClean] at condition
      exact condition same.symm
    · rw [if_neg firstClean, if_neg nextClean] at same
      obtain ⟨stems, digests⟩ := digested_injective same
      have condition := apart first inFirst next inNext different nextClean
      rw [if_neg firstClean] at condition
      exact condition stems digests

theorem connectionLog_rows [Sha256] {Row : Type} {nameOf : Row → String} {own : Row → Prop}
    [DecidablePred own] {contents : Row → Dict} {rows : List Row}
    (distinct : ((rows.filter own).map nameOf).Nodup) :
    connectionLog (fun name => (rows.find? fun row => nameOf row = name ∧ own row).map contents)
      ((rows.filter own).map nameOf) =
    (rows.filter own).map fun row => (uniqueStem (nameOf row), contents row) := by
  rw [connectionLog, filterMap_map, ← filterMap_eq_map]
  refine filterMap_congr fun row mem => ?_
  have found : rows.find? (fun other => decide (nameOf other = nameOf row ∧ own other)) =
      some row := by
    obtain ⟨inRows, isOwn⟩ := mem_filter.mp mem
    cases search : rows.find? (fun other => decide (nameOf other = nameOf row ∧ own other)) with
    | none =>
      have missed := List.find?_eq_none.mp search row inRows
      exact absurd (decide_eq_true ⟨rfl, of_decide_eq_true isOwn⟩) missed
    | some other =>
    have both : nameOf other = nameOf row ∧ own other := by simpa using List.find?_some search
    have otherMember : other ∈ rows.filter own :=
      mem_filter.mpr ⟨mem_of_find?_eq_some search, decide_eq_true both.2⟩
    exact congrArg some (inj_on_of_nodup_map distinct otherMember mem both.1)
  simp only [Function.comp, found, Option.map_some]

section

variable [Sha256] [Storage] (install : Install) (track : Bool) (ownerId : Nat)

/-- Every flow whose own file can be read, every connection and every notebook of the owner has a
file of its own with its contents. -/
structure Lossless (folder : Folder) : Prop where
  flows : HasFiles (projectAll install track ownerId folder) .flow
    ((readableFlows install (ownRegistrations install ownerId)).map fun flow =>
      flowContents install flow.2 flow.1)
  databases : HasFiles (projectAll install track ownerId folder) .database
    ((install.database.databaseConnections.filter (·.userId = ownerId)).map
      (dbConnectionDict install.database))
  clouds : HasFiles (projectAll install track ownerId folder) .cloud
    ((install.database.cloudConnections.filter (·.userId = ownerId)).map
      (cloudConnectionDict install.database))
  notebooks : HasFiles (projectAll install track ownerId folder) .notebook
    ((ownNotebooks install ownerId).map (notebookContents install ownerId))

variable {install track ownerId} {folder : Folder}

theorem flows_kept_iff : HasFiles (projectAll install track ownerId folder) .flow
      ((readableFlows install (ownRegistrations install ownerId)).map fun flow =>
        flowContents install flow.2 flow.1) ↔
    (targets otherUuid (shelf folder .flow "flow_uuid")
      (claimsOf "flow_uuid" (flowResources install (ownRegistrations install ownerId)))).Nodup := by
  have kept := hasFiles_iff (@project_flows _ _ install track ownerId folder) fun _ => rfl
  rwa [logOf_fst, logOf_snd, flowResources, map_map] at kept

theorem notebooks_kept_iff : HasFiles (projectAll install track ownerId folder) .notebook
      ((ownNotebooks install ownerId).map (notebookContents install ownerId)) ↔
    (targets otherUuid (shelf folder .notebook "notebook_uuid") (claimsOf "notebook_uuid"
        (notebookResources install ownerId (ownNotebooks install ownerId)))).Nodup := by
  have kept := hasFiles_iff (@project_notebooks _ _ install track ownerId folder) fun _ => rfl
  rwa [logOf_fst, logOf_snd, notebookResources, map_map] at kept

theorem databases_kept_iff (distinct : (databaseConnectionNames install ownerId).Nodup) :
    HasFiles (projectAll install track ownerId folder) .database
      ((install.database.databaseConnections.filter (·.userId = ownerId)).map
        (dbConnectionDict install.database)) ↔
    ConnectionsApart (databaseConnectionNames install ownerId) := by
  have kept := hasFiles_iff (@project_databases _ _ install track ownerId folder) fun _ => rfl
  have rows : connectionLog (databaseContents install ownerId)
      (databaseConnectionNames install ownerId) = _ := connectionLog_rows distinct
  rw [rows, map_map, map_map] at kept
  rw [← uniqueStem_nodup_iff distinct, databaseConnectionNames, map_map]
  exact kept

theorem clouds_kept_iff (distinct : (cloudConnectionNames install ownerId).Nodup) :
    HasFiles (projectAll install track ownerId folder) .cloud
      ((install.database.cloudConnections.filter (·.userId = ownerId)).map
        (cloudConnectionDict install.database)) ↔
    ConnectionsApart (cloudConnectionNames install ownerId) := by
  have kept := hasFiles_iff (@project_clouds _ _ install track ownerId folder) fun _ => rfl
  have rows : connectionLog (cloudContents install ownerId)
      (cloudConnectionNames install ownerId) = _ := connectionLog_rows distinct
  rw [rows, map_map, map_map] at kept
  rw [← uniqueStem_nodup_iff distinct, cloudConnectionNames, map_map]
  exact kept

omit [Sha256] [Storage] in
theorem sortOn_nodup {α κ β : Type} {le : κ → κ → Bool} {key : α → κ} {items : List α}
    {column : α → β} (distinct : (items.map column).Nodup) :
    ((sortOn le key items).map column).Nodup :=
  ((perm_insertionSort _ items).map column).nodup_iff.mpr distinct

omit [Storage] in
theorem flowResources_nodup
    (uuids : ((install.database.registrations.filter (·.ownerId = ownerId)).map
      (·.flowUuid)).Nodup) :
    ((flowResources install (ownRegistrations install ownerId)).map
      fun resource => resource.2.1).Nodup := by
  have all : ((ownRegistrations install ownerId).map (·.flowUuid)).Nodup := sortOn_nodup uuids
  refine all.sublist ?_
  rw [flowResources, map_map]
  generalize ownRegistrations install ownerId = registrations
  induction registrations with
  | nil => exact List.Sublist.refl _
  | cons registration rest inner =>
    rw [readableFlows, filterMap_cons]
    cases loadFlowData install registration.flowPath with
    | none => exact inner.cons _
    | some data => exact inner.cons_cons _

/-- A projection keeps every flow, notebook and connection of the owner, whatever the folder holds,
exactly where flows are apart, notebooks are apart, and names of connections are apart. -/
theorem projectAll_lossless
    (flowUuids : ((install.database.registrations.filter (·.ownerId = ownerId)).map
      (·.flowUuid)).Nodup)
    (notebookUuids : ((install.database.notebooks.filter (·.ownerId = ownerId)).map
      (·.notebookUuid)).Nodup)
    (databaseNames : (databaseConnectionNames install ownerId).Nodup)
    (cloudNames : (cloudConnectionNames install ownerId).Nodup) :
    (∀ folder, Lossless install track ownerId folder) ↔
      FlowsApart (readableFlows install (ownRegistrations install ownerId)) ∧
      NotebooksApart (ownNotebooks install ownerId) ∧
      ConnectionsApart (databaseConnectionNames install ownerId) ∧
      ConnectionsApart (cloudConnectionNames install ownerId) := by
  have notebooksDistinct : ((ownNotebooks install ownerId).map (·.notebookUuid)).Nodup :=
    sortOn_nodup notebookUuids
  have resourcesDistinct : ((notebookResources install ownerId (ownNotebooks install ownerId)).map
      fun resource => resource.2.1).Nodup := by
    rw [notebookResources, map_map]
    exact notebooksDistinct
  have flows := (stems_iff (fun _ _ => Place.flow.inj) "flow_uuid" _
    (flowResources_nodup flowUuids)).trans (flows_apart_iff install _)
  have notebooks := (stems_iff (fun _ _ => Place.notebook.inj) "notebook_uuid" _
    resourcesDistinct).trans (notebooks_apart_iff install ownerId notebooksDistinct)
  constructor
  · intro always
    exact ⟨flows.mp fun folder => flows_kept_iff.mp (always folder).flows,
      notebooks.mp fun folder => notebooks_kept_iff.mp (always folder).notebooks,
      (databases_kept_iff databaseNames).mp (always []).databases,
      (clouds_kept_iff cloudNames).mp (always []).clouds⟩
  · rintro ⟨flowsApart, notebooksApart, databasesApart, cloudsApart⟩ folder
    exact ⟨flows_kept_iff.mpr (flows.mpr flowsApart folder),
      (databases_kept_iff databaseNames).mpr databasesApart,
      (clouds_kept_iff cloudNames).mpr cloudsApart,
      notebooks_kept_iff.mpr (notebooks.mpr notebooksApart folder)⟩

end

section

/-- The digests of two names of connections. -/
local instance namedDigests : Sha256 where
  hexdigest text :=
    if text = "prod db" then "015b92dc0c1855d63cb51d672695df88ca3dc69c70d80009655934ba7e7ce000"
    else "96e5a54a41f06ebb9bdb39e6ce8f4f4eec5b66df1ce6a1baeb6cecd4a6703d89"
  hexdigest_length text := by split <;> rfl

/-- No table is managed. -/
local instance noTables : Storage where
  isManaged _ := false
  baseName path := path

def ownersRows (flows notebooks : List (String × String)) (connections : List String) :
    Install where
  database :=
    { secrets := [], cloudConnections := [], namespaces := [], schedules := [], tables := []
      artifacts := [], kernels := [], visualizations := [], dashboards := []
      databaseConnections := connections.zipIdx.map fun connection =>
        ⟨connection.2, connection.1, none, none, none, none, none, none, none, 1⟩
      registrations := flows.zipIdx.map fun flow =>
        ⟨flow.2, flow.1.2, flow.1.1, "/flows/any.yaml", none, 1⟩
      notebooks := notebooks.zipIdx.map fun notebook =>
        ⟨notebook.2, notebook.1.2, notebook.1.1, none, none, none, 1⟩ }
  flowFile _ := some []
  cells _ _ := []

/-- Flows, notebooks and connections that share names up to cleaning. -/
def sharedNames : Install :=
  ownersRows [("report", "a0000000"), ("report", "b0000000")] [("notes", "c0000000")]
    ["prod db", "prod/db"]

/-- They all have files of their own. -/
theorem sharedNames_lossless : Lossless sharedNames true 1 [] := by
  refine (projectAll_lossless ?_ ?_ ?_ ?_).mpr ⟨?_, ?_, ?_, ?_⟩ []
  · decide +kernel
  · decide +kernel
  · decide +kernel
  · decide +kernel
  · unfold FlowsApart
    decide +kernel
  · unfold NotebooksApart
    decide +kernel
  · unfold ConnectionsApart
    decide +kernel
  · unfold ConnectionsApart
    decide +kernel

/-- Three flows, one of which has for its name what another one falls back to. -/
def lookalikes : Install :=
  ownersRows [("foo_b1234567", "a0000000"), ("foo", "a1111111"), ("foo", "b1234567-89ab")] [] []

/-- The last flow overwrites the file of the first one. -/
theorem lookalikes_lost : ¬Lossless lookalikes true 1 [] := by
  intro lossless
  have distinct := flows_kept_iff.mp lossless.flows
  revert distinct
  decide +kernel

end

end Flowfile.Project
