import Mathlib.Data.Set.Finite.Lemmas
import Flowfile.ProjectedFiles

/-!
# What earlier projections leave behind

A projection finds the files of earlier ones. Flows and notebooks look at the file under their own
stem; the schedules of a flow whose own file cannot be read look for a file that carries its
identifier. Beyond that, what remains after the sweep depends on the rows alone.

Hence every database with a flow that can be read, with a notebook or with schedules has folders
from which its projection differs from the one into an empty folder.
-/

namespace Flowfile.Project

open Library.Documents Library.FallbackNames List
open Library.PythonText (stripWhere)
open Library.ColumnFrames (dictGet dictGet_append dictGet_of_mem dictGet_of_not_mem mem_of_dictGet
  not_mem_of_dictGet)

def SameFiles (folder other : Folder) : Prop :=
  ∀ place, folder.read place = other.read place

/-- Folders in which only projections of an owner's rows have written, from whatever databases. -/
inductive LeftBehind [Sha256] [Storage] (ownerId : Nat) : Folder → Prop where
  | empty : LeftBehind ownerId []
  | project {folder : Folder} (install : Install) (track : Bool)
      (behind : LeftBehind ownerId folder) :
      LeftBehind ownerId (projectAll install track ownerId folder)

/-- A projection into the folder yields what a projection into an empty one does, and the next one
changes nothing. -/
def Determined [Sha256] [Storage] (install : Install) (track : Bool) (ownerId : Nat)
    (folder : Folder) : Prop :=
  SameFiles (projectAll install track ownerId folder) (projectAll install track ownerId []) ∧
  SameFiles (projectAll install track ownerId (projectAll install track ownerId folder))
    (projectAll install track ownerId folder)

section

variable {place : String → Place} {key : String}

/-- After the sweep the files of a kind are the ones in the log. -/
theorem Writes.swept {folder : Folder} {later : Progress} {log : List (String × Dict)}
    (writes : Writes place ⟨folder, []⟩ later log) (mirrored : ∀ stem, (place stem).mirrored = true)
    (stem : String) :
    (later.folder.keep fun file => !file.mirrored || decide (file ∈ later.written)).read
      (place stem) = dictGet log stem := by
  rw [Edits.swept writes mirrored, optional_log]
  cases dictGet log stem with
  | none => rfl
  | some contents => rfl

theorem logOf_congr {marks others : Shelf String Value} {resources : List (String × String × Dict)}
    (same : targets otherUuid marks (claimsOf key resources) =
      targets otherUuid others (claimsOf key resources)) :
    logOf key marks resources = logOf key others resources := by
  rw [zip_of_prod (logOf_fst key marks resources) (logOf_snd key marks resources), same,
    ← zip_of_prod (logOf_fst key others resources) (logOf_snd key others resources)]

theorem after_eq (marks : Shelf String Value) (resources : List (String × String × Dict))
    (stem : String) :
    after otherUuid marks (claimsOf key resources) stem =
      ((dictGet (logOf key marks resources) stem).map (·.get key)).or (marks stem) := by
  induction resources generalizing marks with
  | nil => rfl
  | cons resource rest inner =>
    rw [logOf_cons, dictGet_append]
    refine (inner _).trans ?_
    cases dictGet (logOf key (put otherUuid marks
        (stemClaim key resource.1 resource.2.1 resource.2.2)) rest) stem with
    | some contents => rfl
    | none =>
      by_cases taken : stem = target otherUuid marks
          (stemClaim key resource.1 resource.2.1 resource.2.2)
      · subst taken
        rw [logOf, logOf, dictGet_of_mem (by simp) (mem_singleton_self _)]
        exact put_target
      · rw [logOf, logOf, dictGet_of_not_mem (by simpa using taken)]
        exact put_apart taken

end

def AllFlows (condition : String → Dict → Prop) (folder : Folder) : Prop :=
  ∀ stem contents, (Place.flow stem, contents) ∈ folder → condition stem contents

variable {progress : Progress} {ι : Type} {items : List ι}

section

variable {condition : String → Dict → Prop} {folder : Folder}

/-- Fewer files satisfy it as well. -/
theorem AllFlows.keep (all : AllFlows condition folder) (kept : Place → Bool) :
    AllFlows condition (folder.keep kept) :=
  fun stem contents mem => all stem contents (mem_of_mem_filter mem)

/-- Deleting a file. -/
theorem AllFlows.unlink (all : AllFlows condition folder) (place : Place) :
    AllFlows condition (folder.unlink place) :=
  fun stem contents mem => all stem contents (mem_of_mem_filter mem)

/-- Writing a file that satisfies it, or a file that is no flow. -/
theorem AllFlows.write (all : AllFlows condition folder) {place : Place} {contents : Dict}
    (good : ∀ stem, place = .flow stem → condition stem contents) :
    AllFlows condition (folder.write place contents) := by
  intro stem given mem
  rw [Folder.write, mem_append, mem_singleton, Prod.mk.injEq] at mem
  obtain old | ⟨same, rfl⟩ := mem
  · exact all.unlink place stem given old
  · exact good stem same.symm

variable [Sha256] {install : Install}

omit [Sha256] in
theorem AllFlows.schedules (all : AllFlows condition folder) (registration : FlowRegistration)
    (stem : Option String) :
    AllFlows condition (projectSchedules install folder registration stem).1 := by
  rw [projectSchedules]
  split
  · exact all.unlink _
  · exact all.write fun _ same => by cases same

omit [Sha256] in
/-- A resource takes its stem or the one beside it. -/
theorem chooseStem_or (folder : Folder) (place : String → Place) (key stem uuid : String) :
    chooseStem folder place key stem uuid = stem ∨
      chooseStem folder place key stem uuid = fallbackStem stem uuid := by
  rw [chooseStem]
  split
  · exact .inl rfl
  · split
    · exact .inr rfl
    · exact .inl rfl

def GoodFlows (install : Install) (condition : String → Dict → Prop)
    (registrations : List FlowRegistration) : Prop :=
  ∀ flow ∈ readableFlows install registrations, ∀ stem,
    stem = stemOfFlow flow ∨ stem = fallbackOfFlow flow →
      condition stem (flowContents install flow.2 flow.1)

theorem AllFlows.registration (all : AllFlows condition progress.folder)
    {registration : FlowRegistration} (good : GoodFlows install condition [registration]) :
    AllFlows condition (projectRegistration install progress registration).folder := by
  refine AllFlows.schedules ?_ registration _
  rw [projectFlow]
  cases loaded : loadFlowData install registration.flowPath with
  | none => exact all
  | some data =>
  refine all.write fun stem same => good (registration, data) ?_ stem ?_
  · simp [readableFlows, loaded]
  · rw [← Place.flow.inj same]
    exact chooseStem_or _ _ _ _ _

theorem AllFlows.registrations (all : AllFlows condition progress.folder)
    {registrations : List FlowRegistration}
    (good : ∀ registration ∈ registrations, GoodFlows install condition [registration]) :
    AllFlows condition
      (registrations.foldl (projectRegistration install) progress).folder := by
  induction registrations generalizing progress with
  | nil => exact all
  | cons registration rest inner =>
    exact inner (all.registration (good registration mem_cons_self))
      fun later mem => good later (mem_cons_of_mem _ mem)

theorem GoodFlows.each {registrations : List FlowRegistration}
    (good : GoodFlows install condition registrations) (registration : FlowRegistration)
    (mem : registration ∈ registrations) : GoodFlows install condition [registration] := by
  intro flow isFlow
  refine good flow ?_
  obtain ⟨own, isOwn, loaded⟩ := mem_filterMap.mp isFlow
  rw [mem_singleton.mp isOwn] at loaded
  exact mem_filterMap.mpr ⟨registration, mem, loaded⟩

omit [Sha256] in
theorem allFlows_foldl {step : Progress → ι → Progress}
    (steps : ∀ progress item, AllFlows condition progress.folder →
      AllFlows condition (step progress item).folder)
    (all : AllFlows condition progress.folder) :
    AllFlows condition (items.foldl step progress).folder := by
  induction items generalizing progress with
  | nil => exact all
  | cons item rest inner => exact inner (steps progress item all)

theorem AllFlows.connection {place : String → Place}
    (apart : ∀ stem other, place stem ≠ .flow other) (contents : String → Option Dict)
    (progress : Progress) (name : String) (all : AllFlows condition progress.folder) :
    AllFlows condition (projectConnection place contents progress name).folder := by
  rw [projectConnection]
  split
  · exact all
  · exact all.write fun stem same => absurd same (apart _ stem)

theorem allFlows_project [Storage] {track : Bool} {ownerId : Nat} (all : AllFlows condition folder)
    (good : GoodFlows install condition (ownRegistrations install ownerId)) :
    AllFlows condition (projectAll install track ownerId folder) := by
  rw [projectAll]
  refine AllFlows.keep ?_ _
  refine allFlows_foldl (fun progress notebook before =>
    before.write nofun) ?_
  have flows : AllFlows condition ((ownRegistrations install ownerId).foldl
      (projectRegistration install) ⟨folder, []⟩).folder :=
    AllFlows.registrations all good.each
  have connections (place : String → Place) (apart : ∀ stem other, place stem ≠ .flow other)
      {progress : Progress} (before : AllFlows condition progress.folder)
      (contents : String → Option Dict) (names : List String) :
      AllFlows condition (names.foldl (projectConnection place contents) progress).folder :=
    allFlows_foldl (AllFlows.connection apart contents) before
  have databases := connections .database nofun flows
    (databaseContents install ownerId) (databaseConnectionNames install ownerId)
  have clouds := connections .cloud nofun databases
    (cloudContents install ownerId) (cloudConnectionNames install ownerId)
  have manifests {before : Folder} (earlier : AllFlows condition before) (name : ManifestName)
      (contents : Dict) : AllFlows condition (before.write (.manifest name) contents) :=
    earlier.write nofun
  rw [projectBeforeNotebooks, writeManifests]
  refine manifests (manifests (manifests ?_ _ _) _ _) _ _
  have first := manifests (manifests clouds .secrets (secretManifest install.database ownerId))
    .namespaces (namespaceManifest install.database ownerId)
  split
  · exact manifests (manifests first _ _) _ _
  · exact (first.unlink _).unlink _

end

section

variable [Sha256] (install : Install)

omit [Sha256] in
def scheduleContents (registration : FlowRegistration) : Option Dict :=
  match flowSchedules install registration with
  | [] => none
  | schedules => some (schedulesFile registration.flowUuid schedules)

def scheduleStem (folder : Folder) (registration : FlowRegistration) : String :=
  (projectFlow install folder registration).2.getD
    (flowStem install (projectFlow install folder registration).1 registration)

def scheduleLog : Progress → List FlowRegistration → List (String × Option Dict)
  | _, [] => []
  | progress, registration :: rest =>
    (scheduleStem install progress.folder registration, scheduleContents install registration) ::
      scheduleLog (projectRegistration install progress registration) rest

variable {install}

omit [Sha256] in
theorem projectSchedules_edits (progress : Progress) (registration : FlowRegistration)
    (stem : Option String) :
    Edits .schedule progress
      ⟨(projectSchedules install progress.folder registration stem).1, progress.written ++
        ((projectSchedules install progress.folder registration stem).2.map Place.schedule).toList⟩
      [(stem.getD (flowStem install progress.folder registration),
        scheduleContents install registration)] := by
  rw [projectSchedules, scheduleContents]
  cases flowSchedules install registration with
  | nil =>
    rw [Option.map_none, Option.toList_none, append_nil]
    exact edits_unlink (fun _ _ => Place.schedule.inj) _
  | cons schedule rest => exact edits_write (fun _ _ => Place.schedule.inj) _ _

theorem schedules_edit (progress : Progress) (registration : FlowRegistration) :
    Edits .schedule progress (projectRegistration install progress registration)
      [(scheduleStem install progress.folder registration,
        scheduleContents install registration)] := by
  have flow : Edits .schedule progress (afterFlow install progress registration) [] := by
    rw [afterFlow, projectFlow]
    split
    · simpa using @Edits.refl .schedule progress
    · exact edits_elsewhere (fun _ same => by cases same) _
  exact flow.trans (projectSchedules_edits (afterFlow install progress registration) registration
    (projectFlow install progress.folder registration).2)

theorem schedules_edits (progress : Progress) (registrations : List FlowRegistration) :
    Edits .schedule progress (registrations.foldl (projectRegistration install) progress)
      (scheduleLog install progress registrations) := by
  induction registrations generalizing progress with
  | nil => exact Edits.refl
  | cons registration rest inner => exact (schedules_edit progress registration).trans (inner _)

theorem project_schedules [Storage] {track : Bool} {ownerId : Nat} {folder : Folder} :
    Edits .schedule ⟨folder, []⟩ (projectRows install track ownerId folder)
      (scheduleLog install ⟨folder, []⟩ (ownRegistrations install ownerId)) := by
  have others : Writes .schedule
      ((ownRegistrations install ownerId).foldl (projectRegistration install) ⟨folder, []⟩)
      (projectRows install track ownerId folder) [] :=
    ((connections_elsewhere (by nofun) _ _ _).thenNone
      (connections_elsewhere (by nofun) _ _ _)).thenNone
      (manifests_elsewhere (by nofun) track ownerId _) |>.thenNone
      (notebooks_elsewhere (by nofun) ownerId _ _)
  exact append_nil (scheduleLog install ⟨folder, []⟩ _) ▸
    (schedules_edits ⟨folder, []⟩ _).trans others

/-- What is written or deleted at the stems depends on the rows. -/
theorem scheduleLog_snd (progress : Progress) (registrations : List FlowRegistration) :
    (scheduleLog install progress registrations).map Prod.snd =
      registrations.map (scheduleContents install) := by
  induction registrations generalizing progress with
  | nil => rfl
  | cons registration rest inner => exact congrArg _ (inner _)

omit [Sha256] in
theorem flowStem_foreign {folder : Folder} {registration : FlowRegistration}
    (foreign : AllFlows (fun _ contents => contents.get "flow_uuid" ≠ .text registration.flowUuid)
      folder) :
    flowStem install folder registration = nameStem (flowName
      ((loadFlowData install registration.flowPath).getD []) registration) := by
  have missed : folder.findSome? (carrierStem registration.flowUuid) = none := by
    rw [List.findSome?_eq_none_iff]
    rintro ⟨place, contents⟩ mem
    by_contra found
    obtain ⟨stem, carried⟩ := Option.ne_none_iff_exists'.mp found
    obtain ⟨rfl, same⟩ := carrierStem_eq_some.mp carried
    exact foreign stem contents mem same
  rw [flowStem, missed, Option.getD_none]

omit [Sha256] in
/-- Where a flow file carries the identifier of a flow, the schedules go by such a file. -/
theorem flowStem_carried {folder : Folder} {registration : FlowRegistration} {stem : String}
    {contents : Dict} (mem : (.flow stem, contents) ∈ folder)
    (carried : contents.get "flow_uuid" = .text registration.flowUuid) :
    ∃ contents, (.flow (flowStem install folder registration), contents) ∈ folder ∧
      contents.get "flow_uuid" = .text registration.flowUuid := by
  have found : (folder.findSome? (carrierStem registration.flowUuid)).isSome := by
    rw [List.findSome?_isSome_iff]
    exact ⟨_, mem, Option.isSome_iff_exists.mpr ⟨stem, carrierStem_eq_some.mpr ⟨rfl, carried⟩⟩⟩
  obtain ⟨taken, first⟩ := Option.isSome_iff_exists.mp found
  obtain ⟨⟨place, given⟩, listed, isCarrier⟩ := exists_of_findSome?_eq_some first
  obtain ⟨rfl, same⟩ := carrierStem_eq_some.mp isCarrier
  rw [flowStem, first, Option.getD_some]
  exact ⟨given, listed, same⟩

end

section

variable [Sha256] (install : Install) (ownerId : Nat)

/-- What the folder holds at a stem carries no identifier but the resource's own. -/
def FreeFor (folder : Folder) (place : String → Place) (key stem uuid : String) : Prop :=
  ∀ contents, folder.read (place stem) = some contents → otherUuid (contents.get key) uuid = false

/-- The first flow and the first notebook of each stem find no file of another, flows and notebooks
keep their files apart, flow files carry the identifiers of their flows, and no flow file carries
that of a flow whose own file cannot be read. -/
structure Undisturbed (folder : Folder) : Prop where
  flows : ∀ first flow post,
    readableFlows install (ownRegistrations install ownerId) = first ++ flow :: post →
    (∀ earlier ∈ first, stemOfFlow earlier ≠ stemOfFlow flow) →
    FreeFor folder .flow "flow_uuid" (stemOfFlow flow) flow.1.flowUuid
  flowsApart : FlowsApart (readableFlows install (ownRegistrations install ownerId))
  flowUuids : ∀ flow ∈ readableFlows install (ownRegistrations install ownerId),
    otherUuid (carriedUuid flow) flow.1.flowUuid = false
  notebooks : ∀ first notebook post, ownNotebooks install ownerId = first ++ notebook :: post →
    (∀ earlier ∈ first, safeStem earlier.name ≠ safeStem notebook.name) →
    FreeFor folder .notebook "notebook_uuid" (safeStem notebook.name) notebook.notebookUuid
  notebooksApart : NotebooksApart (ownNotebooks install ownerId)
  schedules : (∀ registration ∈ ownRegistrations install ownerId,
      flowSchedules install registration = []) ∨
    ∀ registration ∈ ownRegistrations install ownerId,
      loadFlowData install registration.flowPath = none →
      AllFlows (fun _ contents => contents.get "flow_uuid" ≠ .text registration.flowUuid) folder ∧
      ∀ flow ∈ readableFlows install (ownRegistrations install ownerId),
        carriedUuid flow ≠ .text registration.flowUuid

variable {install ownerId}

omit [Sha256] in
theorem settled_of_free {resource : ι → String × String × Dict}
    {folder : Folder} {place : String → Place} {key : String}
    (free : ∀ first item post, items = first ++ item :: post →
      (∀ earlier ∈ first, (resource earlier).1 ≠ (resource item).1) →
      FreeFor folder place key (resource item).1 (resource item).2.1) :
    Settled otherUuid (shelf folder place key) (claimsOf key (items.map resource)) := by
  intro first claim post split fresh
  rw [claimsOf, map_map] at split
  obtain ⟨before, rest, rfl, rfl, sameRest⟩ := map_eq_append_iff.mp split
  obtain ⟨item, after, rfl, rfl, rfl⟩ := map_eq_cons_iff.mp sameRest
  have isFree := free before item after rfl fun earlier mem =>
    fresh _ (mem_map_of_mem mem)
  rw [displaced, shelf]
  show ((folder.read (place (resource item).1)).map _).any _ = false
  cases found : folder.read (place (resource item).1) with
  | none => rfl
  | some contents => exact isFree contents found

theorem scheduleLog_agree {first second : Progress} {registrations : List FlowRegistration}
    (same : targets otherUuid (shelf first.folder .flow "flow_uuid")
        (claimsOf "flow_uuid" (flowResources install registrations)) =
      targets otherUuid (shelf second.folder .flow "flow_uuid")
        (claimsOf "flow_uuid" (flowResources install registrations)))
    (foreign : ∀ registration ∈ registrations, loadFlowData install registration.flowPath = none →
      AllFlows (fun _ contents => contents.get "flow_uuid" ≠ .text registration.flowUuid)
        first.folder ∧
      AllFlows (fun _ contents => contents.get "flow_uuid" ≠ .text registration.flowUuid)
        second.folder ∧
      ∀ other ∈ registrations, GoodFlows install
        (fun _ contents => contents.get "flow_uuid" ≠ .text registration.flowUuid) [other]) :
    scheduleLog install first registrations = scheduleLog install second registrations := by
  induction registrations generalizing first second with
  | nil => rfl
  | cons registration rest inner =>
    have later : ∀ other ∈ rest, loadFlowData install other.flowPath = none →
        AllFlows (fun _ contents => contents.get "flow_uuid" ≠ .text other.flowUuid)
          (projectRegistration install first registration).folder ∧
        AllFlows (fun _ contents => contents.get "flow_uuid" ≠ .text other.flowUuid)
          (projectRegistration install second registration).folder ∧
        ∀ further ∈ rest, GoodFlows install
          (fun _ contents => contents.get "flow_uuid" ≠ .text other.flowUuid) [further] := by
      intro other mem unread
      obtain ⟨inFirst, inSecond, good⟩ := foreign other (mem_cons_of_mem _ mem) unread
      have now := good registration mem_cons_self
      exact ⟨inFirst.registration now, inSecond.registration now,
        fun further isLater => good further (mem_cons_of_mem _ isLater)⟩
    have firstWrites := @flow_writes _ install first registration
    have secondWrites := @flow_writes _ install second registration
    rw [scheduleLog, scheduleLog]
    cases loaded : loadFlowData install registration.flowPath with
    | none =>
      have nothing : flowResources install [registration] = [] := by
        simp [flowResources, readableFlows, loaded]
      have skipped : flowResources install (registration :: rest) = flowResources install rest := by
        simp [flowResources, readableFlows, loaded]
      obtain ⟨inFirst, inSecond, _⟩ := foreign registration mem_cons_self loaded
      have stems : scheduleStem install first.folder registration =
          scheduleStem install second.folder registration := by
        rw [scheduleStem, scheduleStem, projectFlow, projectFlow, loaded]
        exact (flowStem_foreign inFirst).trans (flowStem_foreign inSecond).symm
      rw [nothing] at firstWrites secondWrites
      rw [stems, inner _ later]
      rw [firstWrites.shelf_nil, secondWrites.shelf_nil]
      rwa [skipped] at same
    | some data =>
      obtain ⟨resource, stem, uuid, contents, one, more⟩ : ∃ resource : String × String × Dict,
            resource.1 = nameStem (flowName data registration) ∧
            resource.2.1 = registration.flowUuid ∧
            resource.2.2 = flowContents install data registration ∧
            flowResources install [registration] = [resource] ∧
            flowResources install (registration :: rest) =
              resource :: flowResources install rest := by
        refine ⟨(nameStem (flowName data registration), registration.flowUuid,
          flowContents install data registration), rfl, rfl, rfl, ?_, ?_⟩ <;>
          simp [flowResources, readableFlows, loaded, stemOfFlow]
      rw [more, claimsOf, map_cons, targets, targets] at same
      obtain ⟨head, tail⟩ := List.cons.inj same
      have stems : scheduleStem install first.folder registration =
          scheduleStem install second.folder registration := by
        rw [scheduleStem, scheduleStem, projectFlow, projectFlow, loaded]
        simp only [Option.getD_some]
        rw [chooseStem_eq _ _ _ _ _ (flowContents install data registration),
          chooseStem_eq _ _ _ _ _ (flowContents install data registration), ← stem, ← uuid,
          ← contents]
        exact head
      rw [one] at firstWrites secondWrites
      rw [stems, inner _ later]
      rw [firstWrites.shelf_one, secondWrites.shelf_one]
      exact tail

section

variable [Storage] {track : Bool} {place : String → Place} {key : String}
  {resources : List (String × String × Dict)}
  (kind : ∀ folder, Writes place ⟨folder, []⟩ (projectRows install track ownerId folder)
    (logOf key (shelf folder place key) resources))
  (mirrored : ∀ stem, (place stem).mirrored = true)
include kind mirrored

/-- The marks left behind in an empty folder. -/
theorem shelf_projected : shelf (projectAll install track ownerId []) place key =
    after otherUuid (fun _ => none) (claimsOf key resources) := by
  funext stem
  rw [shelf, projectAll, (kind []).swept mirrored, after_eq]
  exact (Option.or_none).symm

theorem targets_next {folder : Folder}
    (same : SameFiles folder (projectAll install track ownerId []))
    (apart : (claimsOf key resources).Pairwise (Apart otherUuid))
    (ownMarks : ∀ claim ∈ claimsOf key resources, otherUuid claim.mark claim.id = false) :
    targets otherUuid (shelf folder place key) (claimsOf key resources) =
      targets otherUuid (fun _ => none) (claimsOf key resources) := by
  rw [shelf_congr fun stem => same (place stem), shelf_projected kind mirrored]
  exact targets_again apart ownMarks

end

section

variable [Storage] {track : Bool} {folder other : Folder}

theorem manifest_read (name : ManifestName) :
    (projectAll install track ownerId folder).read (.manifest name) =
      (writeManifests install track ownerId []).read (.manifest name) := by
  have notebooks : Writes (fun _ => .manifest name)
      (projectBeforeNotebooks install track ownerId folder)
      (projectRows install track ownerId folder) [] :=
    notebooks_elsewhere (by nofun) ownerId _ _
  rw [projectAll, read_keep, if_pos (by rfl), notebooks.stays "" not_mem_nil,
    projectBeforeNotebooks]
  simp only [writeManifests]
  cases name <;> cases track <;> simp [read_write_self, read_write_other, read_unlink]

theorem sameFiles_of_targets
    (flows : targets otherUuid (shelf folder .flow "flow_uuid")
        (claimsOf "flow_uuid" (flowResources install (ownRegistrations install ownerId))) =
      targets otherUuid (shelf other .flow "flow_uuid")
        (claimsOf "flow_uuid" (flowResources install (ownRegistrations install ownerId))))
    (notebooks : targets otherUuid (shelf folder .notebook "notebook_uuid")
        (claimsOf "notebook_uuid"
          (notebookResources install ownerId (ownNotebooks install ownerId))) =
      targets otherUuid (shelf other .notebook "notebook_uuid") (claimsOf "notebook_uuid"
          (notebookResources install ownerId (ownNotebooks install ownerId))))
    (schedules : ∀ stem,
      (dictGet (scheduleLog install ⟨folder, []⟩ (ownRegistrations install ownerId)) stem).join =
        (dictGet (scheduleLog install ⟨other, []⟩ (ownRegistrations install ownerId)) stem).join) :
    SameFiles (projectAll install track ownerId folder)
      (projectAll install track ownerId other) := by
  intro place
  cases place with
  | flow stem =>
    rw [projectAll, projectAll, project_flows.swept fun _ => rfl,
      project_flows.swept fun _ => rfl, logOf_congr flows]
  | schedule stem =>
    rw [projectAll, projectAll, project_schedules.swept fun _ => rfl,
      project_schedules.swept fun _ => rfl, schedules]
  | database stem =>
    rw [projectAll, projectAll, project_databases.swept fun _ => rfl,
      project_databases.swept fun _ => rfl]
  | cloud stem =>
    rw [projectAll, projectAll, project_clouds.swept fun _ => rfl,
      project_clouds.swept fun _ => rfl]
  | notebook stem =>
    rw [projectAll, projectAll, project_notebooks.swept fun _ => rfl,
      project_notebooks.swept fun _ => rfl, logOf_congr notebooks]
  | manifest name => rw [manifest_read, manifest_read]

omit [Storage] in
theorem no_schedules {registrations : List FlowRegistration}
    (none_there : ∀ registration ∈ registrations, flowSchedules install registration = [])
    (stem : String) : (dictGet (scheduleLog install progress registrations) stem).join = none := by
  cases found : dictGet (scheduleLog install progress registrations) stem with
  | none => rfl
  | some contents =>
  have listed := mem_map_of_mem (f := Prod.snd) (mem_of_dictGet found)
  rw [scheduleLog_snd] at listed
  obtain ⟨registration, mem, same⟩ := mem_map.mp listed
  rw [scheduleContents, none_there registration mem] at same
  exact congrArg Option.join (congrArg some same.symm)

theorem determined_of_undisturbed
    (notebookUuids : ((install.database.notebooks.filter (·.ownerId = ownerId)).map
      (·.notebookUuid)).Nodup)
    (undisturbed : Undisturbed install ownerId folder) :
    Determined install track ownerId folder := by
  have flowsSettled : Settled otherUuid (shelf folder .flow "flow_uuid")
      (claimsOf "flow_uuid" (flowResources install (ownRegistrations install ownerId))) :=
    settled_of_free undisturbed.flows
  have notebooksSettled : Settled otherUuid (shelf folder .notebook "notebook_uuid")
      (claimsOf "notebook_uuid"
        (notebookResources install ownerId (ownNotebooks install ownerId))) :=
    settled_of_free undisturbed.notebooks
  have flows := targets_empty flowsSettled
  have notebooks := targets_empty notebooksSettled
  have flowsApart := (flows_apart_iff install _).mpr undisturbed.flowsApart
  have notebooksApart := (notebooks_apart_iff install ownerId (sortOn_nodup notebookUuids)).mpr
    undisturbed.notebooksApart
  have flowMarks : ∀ claim ∈ claimsOf "flow_uuid"
      (flowResources install (ownRegistrations install ownerId)),
      otherUuid claim.mark claim.id = false := by
    intro claim mem
    rw [claimsOf, flowResources, map_map] at mem
    obtain ⟨flow, isFlow, rfl⟩ := mem_map.mp mem
    exact (congrArg (otherUuid · flow.1.flowUuid) (flowContents_uuid install flow)).trans
      (undisturbed.flowUuids flow isFlow)
  have notebookMarks : ∀ claim ∈ claimsOf "notebook_uuid"
      (notebookResources install ownerId (ownNotebooks install ownerId)),
      otherUuid claim.mark claim.id = false := by
    intro claim mem
    rw [claimsOf, notebookResources, map_map] at mem
    obtain ⟨notebook, _, rfl⟩ := mem_map.mp mem
    simp [stemClaim, notebookContents_uuid, otherUuid]
  -- folders from which flows take the same stems have the same schedules, if both are undisturbed
  have schedules {first second : Folder}
      (same : targets otherUuid (shelf first .flow "flow_uuid")
          (claimsOf "flow_uuid" (flowResources install (ownRegistrations install ownerId))) =
        targets otherUuid (shelf second .flow "flow_uuid")
          (claimsOf "flow_uuid" (flowResources install (ownRegistrations install ownerId))))
      (foreign : ∀ uuid, AllFlows (fun _ contents => contents.get "flow_uuid" ≠ .text uuid) folder →
        (∀ flow ∈ readableFlows install (ownRegistrations install ownerId),
          carriedUuid flow ≠ .text uuid) →
        AllFlows (fun _ contents => contents.get "flow_uuid" ≠ .text uuid) first ∧
        AllFlows (fun _ contents => contents.get "flow_uuid" ≠ .text uuid) second)
      (stem : String) :
      (dictGet (scheduleLog install ⟨first, []⟩ (ownRegistrations install ownerId)) stem).join =
        (dictGet (scheduleLog install ⟨second, []⟩
          (ownRegistrations install ownerId)) stem).join := by
    obtain noSchedules | strangers := undisturbed.schedules
    · rw [no_schedules noSchedules, no_schedules noSchedules]
    rw [@scheduleLog_agree _ install ⟨first, []⟩ ⟨second, []⟩ _ same]
    intro registration mem unread
    obtain ⟨inFolder, carried⟩ := strangers registration mem unread
    obtain ⟨inFirst, inSecond⟩ := foreign registration.flowUuid inFolder carried
    refine ⟨inFirst, inSecond, GoodFlows.each fun flow isFlow _ _ => ?_⟩
    rw [flowContents_uuid]
    exact carried flow isFlow
  have projected (uuid : String)
      (inFolder : AllFlows (fun _ contents => contents.get "flow_uuid" ≠ .text uuid) folder)
      (carried : ∀ flow ∈ readableFlows install (ownRegistrations install ownerId),
        carriedUuid flow ≠ .text uuid) :
      AllFlows (fun _ contents => contents.get "flow_uuid" ≠ .text uuid)
        (projectAll install track ownerId folder) :=
    allFlows_project inFolder fun flow isFlow _ _ => by
      rw [flowContents_uuid]
      exact carried flow isFlow
  have first : SameFiles (projectAll install track ownerId folder)
      (projectAll install track ownerId []) :=
    sameFiles_of_targets flows notebooks
      (schedules flows fun _ inFolder _ =>
        ⟨inFolder, fun _ _ mem => absurd mem not_mem_nil⟩)
  have flowsNext := (targets_next (fun _ => project_flows) (fun _ => rfl) first flowsApart
    flowMarks).trans flows.symm
  have notebooksNext := (targets_next (fun _ => project_notebooks) (fun _ => rfl) first
    notebooksApart notebookMarks).trans notebooks.symm
  exact ⟨first, sameFiles_of_targets flowsNext notebooksNext
    (schedules flowsNext fun uuid inFolder carried =>
      ⟨projected uuid inFolder carried, inFolder⟩)⟩

end

end

section

def longText (length : Nat) : String :=
  .ofList (List.replicate length 'a')

theorem length_longText (length : Nat) : (longText length).length = length := by
  rw [longText, String.length_ofList, length_replicate]

theorem exists_longer (texts : List String) : ∃ bound, ∀ text ∈ texts, text.length < bound := by
  induction texts with
  | nil => exact ⟨0, nofun⟩
  | cons first rest inner =>
    obtain ⟨bound, longer⟩ := inner
    refine ⟨max bound (first.length + 1), fun text mem => ?_⟩
    obtain rfl | later := mem_cons.mp mem
    · omega
    · have shorter := longer text later
      omega

/-- Some text is none of given ones. -/
theorem exists_fresh (texts : List String) : ∃ text, text ∉ texts := by
  obtain ⟨bound, longer⟩ := exists_longer texts
  refine ⟨longText bound, fun mem => ?_⟩
  have shorter := longer _ mem
  rw [length_longText] at shorter
  exact Nat.lt_irrefl _ shorter

/-- Plain characters stay. -/
theorem replaceRuns_replicate (length : Nat) :
    replaceRuns false (List.replicate length 'a') = List.replicate length 'a' := by
  induction length with
  | zero => rfl
  | succ length inner =>
    rw [replicate_succ, replaceRuns, if_pos (by decide), inner]

theorem nameStem_longText {length : Nat} (positive : 0 < length) :
    nameStem (longText length) = longText length := by
  have noEnding : ".flow".toList.isSuffixOf (longText length).toList = false := by
    rw [Bool.eq_false_iff]
    intro ending
    have isPart := (isSuffixOf_iff_suffix.mp ending).subset
    have listed : 'w' ∈ (longText length).toList := isPart (by decide)
    rw [longText, String.toList_ofList] at listed
    have letter := eq_of_mem_replicate listed
    revert letter
    decide
  have stripped : stripWhere (fun c => c = '.' || c = '_' || c = '-')
      (List.replicate length 'a') = List.replicate length 'a' := by
    simp [stripWhere]
  obtain ⟨smaller, rfl⟩ := Nat.exists_eq_succ_of_ne_zero positive.ne'
  rw [nameStem, noEnding, if_neg Bool.false_ne_true, safeStem, longText, String.toList_ofList,
    replaceRuns_replicate, stripped]
  rfl

def fewRows (registrations : List FlowRegistration) (notebooks : List CatalogNotebook) :
    Install where
  database :=
    { registrations, notebooks, secrets := [], databaseConnections := [], cloudConnections := []
      namespaces := [], schedules := [], tables := [], artifacts := [], kernels := []
      visualizations := [], dashboards := [] }
  flowFile _ := some []
  cells _ _ := []

def loneFlow (ownerId : Nat) (name uuid : String) : Install :=
  fewRows [⟨0, uuid, name, "/flows/any.yaml", none, ownerId⟩] []

def loneNotebook (ownerId : Nat) (name uuid : String) : Install :=
  fewRows [] [⟨0, uuid, name, none, none, none, ownerId⟩]

section

variable (ownerId : Nat) (name uuid : String)
include ownerId name uuid

theorem loneFlow_readable : readableFlows (loneFlow ownerId name uuid)
        (ownRegistrations (loneFlow ownerId name uuid) ownerId) =
      [(⟨0, uuid, name, "/flows/any.yaml", none, ownerId⟩, [])] := by
  have own : ownRegistrations (loneFlow ownerId name uuid) ownerId =
      [⟨0, uuid, name, "/flows/any.yaml", none, ownerId⟩] := by
    simp [ownRegistrations, loneFlow, fewRows, sortOn]
  have loaded : loadFlowData (loneFlow ownerId name uuid) "/flows/any.yaml" = some [] :=
    if_pos (by decide +kernel)
  simp [own, readableFlows, loaded]

theorem stem_loneFlow :
    stemOfFlow (⟨0, uuid, name, "/flows/any.yaml", none, ownerId⟩, []) = nameStem name :=
  rfl

theorem loneFlow_resources [Sha256] : ∃ contents, flowResources (loneFlow ownerId name uuid)
        (ownRegistrations (loneFlow ownerId name uuid) ownerId) =
      [(nameStem name, uuid, contents)] ∧ contents.get "flow_uuid" = .text uuid := by
  rw [flowResources, loneFlow_readable]
  exact ⟨_, rfl, flowContents_uuid _ (_, [])⟩

theorem loneNotebook_resources :
    ∃ contents, notebookResources (loneNotebook ownerId name uuid) ownerId
        (ownNotebooks (loneNotebook ownerId name uuid) ownerId) =
      [(safeStem name, uuid, contents)] ∧ contents.get "notebook_uuid" = .text uuid := by
  have own : ownNotebooks (loneNotebook ownerId name uuid) ownerId =
      [⟨0, uuid, name, none, none, none, ownerId⟩] := by
    simp [ownNotebooks, loneNotebook, fewRows, sortOn]
  rw [own]
  exact ⟨_, rfl, notebookContents_uuid _ ownerId _⟩

end

section

variable [Sha256] [Storage] {place : String → Place} {key : String}
  {resources : List (String × String × Dict)} {folder : Folder} {install : Install} {track : Bool}
  {ownerId : Nat}
  (kind : ∀ folder, Writes place ⟨folder, []⟩ (projectRows install track ownerId folder)
    (logOf key (shelf folder place key) resources))
  (mirrored : ∀ stem, (place stem).mirrored = true)
include kind mirrored

/-- A file of another under the shortest stem makes a difference. -/
theorem not_same_of_held {resource : String × String × Dict} (mem : resource ∈ resources)
    (shortest : ∀ other ∈ resources, resource.1.length ≤ other.1.length) {uuid : String}
    (held : shelf folder place key resource.1 = some (.text uuid))
    (fresh : ∀ other ∈ resources, uuid ≠ other.2.1) :
    ¬SameFiles (projectAll install track ownerId folder) (projectAll install track ownerId []) := by
  have untaken : resource.1 ∉ targets otherUuid (shelf folder place key)
      (claimsOf key resources) := by
    refine not_mem_targets held fun claim isClaim => ?_
    obtain ⟨other, isOther, rfl⟩ := mem_map.mp isClaim
    refine ⟨fun _ => decide_eq_true (fresh other isOther), fun same => ?_⟩
    have longer := length_fallbackStem other.1 other.2.1
    have notShorter := shortest other isOther
    rw [← same] at notShorter
    exact absurd longer (Nat.not_lt.mpr notShorter)
  have taken : resource.1 ∈ targets otherUuid (shelf [] place key) (claimsOf key resources) :=
    bare_taken (mem_map.mpr ⟨resource, mem, rfl⟩)
  intro same
  have found := same (place resource.1)
  rw [projectAll, projectAll, (kind folder).swept mirrored, (kind []).swept mirrored,
    dictGet_of_not_mem (by rwa [logOf_fst])] at found
  refine not_mem_of_dictGet found.symm ?_
  rwa [logOf_fst]

theorem shelf_lone {stem uuid : String} {contents : Dict}
    (lone : resources = [(stem, uuid, contents)]) (carried : contents.get key = .text uuid) :
    shelf (projectAll install track ownerId []) place key stem = some (.text uuid) := by
  subst lone
  have free : target otherUuid (shelf [] place key) (stemClaim key stem uuid contents) = stem :=
    target_free rfl
  rw [shelf, projectAll, (kind []).swept mirrored, logOf, free,
    dictGet_of_mem (by simp [logOf]) mem_cons_self, Option.map_some, carried]

end

theorem exists_shortest {resources : List (String × String × Dict)} (some_there : resources ≠ []) :
    ∃ resource ∈ resources, ∀ other ∈ resources, resource.1.length ≤ other.1.length := by
  obtain ⟨first, mem⟩ := exists_mem_of_ne_nil resources some_there
  obtain ⟨resource, isResource, shortest⟩ := Set.exists_min_image {item | item ∈ resources}
    (fun resource => resource.1.length) (finite_toSet resources) ⟨first, mem⟩
  exact ⟨resource, isResource, shortest⟩

section

variable [Sha256] [Storage] (install : Install) (track : Bool) (ownerId : Nat)

structure Nameless : Prop where
  flows : readableFlows install (ownRegistrations install ownerId) = []
  notebooks : ownNotebooks install ownerId = []
  schedules : ∀ registration ∈ ownRegistrations install ownerId,
    flowSchedules install registration = []

variable {install track ownerId}

theorem no_flows (determined : ∀ folder, LeftBehind ownerId folder →
    Determined install track ownerId folder) :
    readableFlows install (ownRegistrations install ownerId) = [] := by
  by_contra some_there
  have resources : flowResources install (ownRegistrations install ownerId) ≠ [] :=
    mt map_eq_nil_iff.mp some_there
  obtain ⟨resource, mem, shortest⟩ := exists_shortest resources
  obtain ⟨uuid, fresh⟩ := exists_fresh
    ((flowResources install (ownRegistrations install ownerId)).map fun other => other.2.1)
  obtain ⟨flow, isFlow, rfl⟩ := mem_map.mp mem
  obtain ⟨contents, lone, carried⟩ := loneFlow_resources ownerId (flowName flow.2 flow.1) uuid
  have held := shelf_lone (fun folder => @project_flows _ _ _ track _ folder) (fun _ => rfl) lone
    carried
  exact not_same_of_held (fun _ => project_flows) (fun _ => rfl) mem shortest held
    (fun other isOther same => fresh (mem_map.mpr ⟨other, isOther, same.symm⟩))
    (determined _ (.project _ track .empty)).1

theorem no_notebooks (determined : ∀ folder, LeftBehind ownerId folder →
    Determined install track ownerId folder) : ownNotebooks install ownerId = [] := by
  by_contra some_there
  have resources : notebookResources install ownerId (ownNotebooks install ownerId) ≠ [] :=
    mt map_eq_nil_iff.mp some_there
  obtain ⟨resource, mem, shortest⟩ := exists_shortest resources
  obtain ⟨uuid, fresh⟩ := exists_fresh
    ((notebookResources install ownerId (ownNotebooks install ownerId)).map fun other => other.2.1)
  obtain ⟨notebook, isNotebook, rfl⟩ := mem_map.mp mem
  obtain ⟨contents, lone, carried⟩ := loneNotebook_resources ownerId notebook.name uuid
  have held := shelf_lone (fun folder => @project_notebooks _ _ _ track _ folder) (fun _ => rfl)
    lone carried
  exact not_same_of_held (fun _ => project_notebooks) (fun _ => rfl) mem shortest held
    (fun other isOther same => fresh (mem_map.mpr ⟨other, isOther, same.symm⟩))
    (determined _ (.project _ track .empty)).1

omit [Sha256] [Storage] in
/-- Files of schedules carry no identifier of a flow file. -/
theorem carrier_unlink (folder : Folder) (stem uuid : String) :
    (folder.unlink (.schedule stem)).findSome? (carrierStem uuid) =
      folder.findSome? (carrierStem uuid) := by
  induction folder with
  | nil => rfl
  | cons file rest inner =>
    rw [Folder.unlink] at inner
    rw [Folder.unlink, filter_cons, List.findSome?_cons]
    split
    · rw [List.findSome?_cons, inner]
    · next deleted =>
      have isSchedule : file.1 = .schedule stem := by simpa using deleted
      rw [inner, carrierStem, isSchedule]

omit [Sha256] [Storage] in
theorem flowStem_schedules (folder : Folder) (registration other : FlowRegistration)
    (stem : Option String) :
    flowStem install (projectSchedules install folder registration stem).1 other =
      flowStem install folder other := by
  have same : (projectSchedules install folder registration stem).1.findSome?
      (carrierStem other.flowUuid) = folder.findSome? (carrierStem other.flowUuid) := by
    rw [projectSchedules]
    split
    · exact carrier_unlink _ _ _
    · rw [Folder.write, List.findSome?_append, carrier_unlink, List.findSome?_singleton]
      exact Option.or_none
  rw [flowStem, flowStem, same]

omit [Storage] in
theorem scheduleLog_unread {registrations : List FlowRegistration}
    (unread : ∀ registration ∈ registrations, loadFlowData install registration.flowPath = none) :
    scheduleLog install progress registrations = registrations.map fun registration =>
      (flowStem install progress.folder registration, scheduleContents install registration) := by
  induction registrations generalizing progress with
  | nil => rfl
  | cons registration rest inner =>
    have nothing : projectFlow install progress.folder registration = (progress.folder, none) := by
      rw [projectFlow, unread registration mem_cons_self]
    have others (other : FlowRegistration) :
        flowStem install (projectRegistration install progress registration).folder other =
          flowStem install progress.folder other := by
      rw [projectRegistration, nothing]
      exact flowStem_schedules _ _ _ _
    rw [scheduleLog, inner fun other mem => unread other (mem_cons_of_mem _ mem),
      map_cons, scheduleStem, nothing]
    simp only [others, Option.getD_none]

theorem no_scheduled (uuids : ((install.database.registrations.filter (·.ownerId = ownerId)).map
      (·.flowUuid)).Nodup)
    (determined : ∀ folder, LeftBehind ownerId folder → Determined install track ownerId folder) :
    ∀ registration ∈ ownRegistrations install ownerId,
      flowSchedules install registration = [] := by
  intro registration mem
  by_contra scheduled
  have ownUuids : ((ownRegistrations install ownerId).map (·.flowUuid)).Nodup :=
    sortOn_nodup uuids
  have unread : ∀ other ∈ ownRegistrations install ownerId,
      loadFlowData install other.flowPath = none := by
    intro other isOther
    have missing := filterMap_eq_nil_iff.mp (no_flows determined) other isOther
    exact Option.map_eq_none_iff.mp missing
  -- an earlier database had the same flow under a longer name
  obtain ⟨bound, shorter⟩ := exists_longer ((ownRegistrations install ownerId).map
    fun other => nameStem other.name)
  obtain ⟨_, lone, carried⟩ :=
    loneFlow_resources ownerId (longText (bound + 1)) registration.flowUuid
  let earlier := projectAll (loneFlow ownerId (longText (bound + 1)) registration.flowUuid) track
    ownerId []
  have files : AllFlows (fun stem contents => bound < stem.length ∧
      contents.get "flow_uuid" = .text registration.flowUuid) earlier := by
    refine allFlows_project (by nofun) fun flow isFlow stem isStem => ?_
    rw [loneFlow_readable] at isFlow
    obtain rfl := mem_singleton.mp isFlow
    have long : bound < (stemOfFlow (⟨0, registration.flowUuid, longText (bound + 1),
        "/flows/any.yaml", none, ownerId⟩, [])).length := by
      rw [stem_loneFlow, nameStem_longText (Nat.succ_pos bound), length_longText]
      exact Nat.lt_succ_self bound
    refine ⟨?_, flowContents_uuid _ (_, [])⟩
    obtain rfl | rfl := isStem
    · exact long
    · exact long.trans (length_fallbackStem _ _)
  have held := shelf_lone (fun folder => @project_flows _ _ _ track _ folder) (fun _ => rfl) lone
    carried
  obtain ⟨contents, found, same⟩ := Option.map_eq_some_iff.mp held
  obtain ⟨before, after, split, _⟩ := lookup_eq_some_iff.mp found
  have listed : (.flow (nameStem (longText (bound + 1))), contents) ∈ earlier := by
    show _ ∈ projectAll _ track ownerId []
    rw [split]
    simp
  obtain ⟨_, taken, _⟩ := @flowStem_carried install _ registration _ _ listed same
  have long := (files _ _ taken).1
  -- the others go by their names
  have byName {folder : Folder} {other : FlowRegistration}
      (isOther : other ∈ ownRegistrations install ownerId)
      (foreign : AllFlows (fun _ contents => contents.get "flow_uuid" ≠ .text other.flowUuid)
        folder) : (flowStem install folder other).length < bound := by
    rw [flowStem_foreign foreign, unread other isOther]
    exact shorter _ (mem_map_of_mem isOther)
  have inEarlier : dictGet (scheduleLog install ⟨earlier, []⟩ (ownRegistrations install ownerId))
      (flowStem install earlier registration) = some (scheduleContents install registration) := by
    rw [scheduleLog_unread unread]
    refine dictGet_of_mem (fun contents isEntry => ?_) (mem_map_of_mem mem)
    obtain ⟨other, isOther, entry⟩ := mem_map.mp isEntry
    obtain ⟨sameStem, rfl⟩ := Prod.mk.inj entry
    by_cases sameUuid : other.flowUuid = registration.flowUuid
    · rw [inj_on_of_nodup_map ownUuids isOther mem sameUuid]
    · have short := @byName earlier other isOther fun stem contents isFile carries =>
        sameUuid (Value.text.inj (carries.symm.trans (files stem contents isFile).2))
      rw [sameStem] at short
      omega
  have inEmpty : dictGet (scheduleLog install ⟨[], []⟩ (ownRegistrations install ownerId))
      (flowStem install earlier registration) = none := by
    rw [scheduleLog_unread unread]
    refine dictGet_of_not_mem fun isStem => ?_
    rw [map_map] at isStem
    obtain ⟨other, isOther, sameStem⟩ := mem_map.mp isStem
    have short := @byName [] other isOther fun _ _ => nofun
    rw [← sameStem] at long
    exact absurd short (Nat.not_lt.mpr long.le)
  have files := (determined earlier (.project _ track .empty)).1
    (.schedule (flowStem install earlier registration))
  rw [projectAll, projectAll, project_schedules.swept fun _ => rfl,
    project_schedules.swept fun _ => rfl, inEarlier, inEmpty] at files
  rw [scheduleContents] at files
  split at files
  · next none_there => exact scheduled none_there
  · cases files

/-- The projection of a database is determined in every folder that earlier projections left behind
exactly where no flow can be read, there are no notebooks and no schedules. For other databases it
is determined in the folders that do not disturb it. -/
theorem projectAll_determined
    (flowUuids : ((install.database.registrations.filter (·.ownerId = ownerId)).map
      (·.flowUuid)).Nodup)
    (notebookUuids : ((install.database.notebooks.filter (·.ownerId = ownerId)).map
      (·.notebookUuid)).Nodup) :
    ((∀ folder, LeftBehind ownerId folder → Determined install track ownerId folder) ↔
      Nameless install ownerId) ∧
    ∀ folder, Undisturbed install ownerId folder → Determined install track ownerId folder := by
  have sufficient (folder : Folder) (undisturbed : Undisturbed install ownerId folder) :
      Determined install track ownerId folder :=
    determined_of_undisturbed notebookUuids undisturbed
  refine ⟨⟨fun determined => ?_, fun nameless folder _ => sufficient folder ?_⟩, sufficient⟩
  · exact ⟨no_flows determined, no_notebooks determined, no_scheduled flowUuids determined⟩
  · exact
      { flows := fun first flow post split => by
          rw [nameless.flows] at split
          exact absurd split.symm (append_ne_nil_of_right_ne_nil _ (cons_ne_nil _ _))
        flowsApart := by
          rw [nameless.flows]
          exact .nil
        flowUuids := fun flow isFlow => by
          rw [nameless.flows] at isFlow
          cases isFlow
        notebooks := fun first notebook post split => by
          rw [nameless.notebooks] at split
          exact absurd split.symm (append_ne_nil_of_right_ne_nil _ (cons_ne_nil _ _))
        notebooksApart := by
          rw [nameless.notebooks]
          exact .nil
        schedules := .inl nameless.schedules }

end

end

section

attribute [local instance] namedDigests noTables

/-- A project whose only flow had another name before. -/
def renamed : Folder :=
  projectAll (ownersRows [("bar", "b0000000")] [] []) true 1 []

/-- The folder does not matter for the flow under its new name. -/
theorem renamed_determined :
    Determined (ownersRows [("foo", "b0000000")] [] ["prod db"]) true 1 renamed := by
  refine (projectAll_determined (by decide +kernel) (by decide +kernel)).2 renamed ?_
  have own : readableFlows (ownersRows [("foo", "b0000000")] [] ["prod db"])
      (ownRegistrations (ownersRows [("foo", "b0000000")] [] ["prod db"]) 1) =
      [(⟨0, "b0000000", "foo", "/flows/any.yaml", none, 1⟩, [])] := by
    have loaded : loadFlowData (ownersRows [("foo", "b0000000")] [] ["prod db"])
        "/flows/any.yaml" = some [] := if_pos (by decide +kernel)
    have rows : ownRegistrations (ownersRows [("foo", "b0000000")] [] ["prod db"]) 1 =
        [⟨0, "b0000000", "foo", "/flows/any.yaml", none, 1⟩] := by
      simp [ownRegistrations, ownersRows, sortOn]
    simp [rows, readableFlows, loaded]
  have unheld : (renamed.read (.flow "foo")).isNone = true := by decide +kernel
  exact
    { flows := by
        intro first flow post split _ contents found
        rw [own] at split
        cases first with
        | cons head rest => simp at split
        | nil =>
        obtain ⟨rfl, _⟩ := List.cons.inj split
        have stem : stemOfFlow (⟨0, "b0000000", "foo", "/flows/any.yaml", none, 1⟩, []) =
            "foo" := by decide +kernel
        rw [stem] at found
        rw [found] at unheld
        cases unheld
      flowsApart := by
        rw [own]
        exact pairwise_singleton _ _
      flowUuids := by
        rw [own]
        simp [carriedUuid, otherUuid]
      notebooks := fun first notebook post split => by
        exact absurd split.symm (append_ne_nil_of_right_ne_nil _ (cons_ne_nil _ _))
      notebooksApart := .nil
      schedules := .inl fun _ _ => rfl }

/-- A project whose only flow had another identifier before: it was deleted and made anew. -/
def recreated : Folder :=
  projectAll (ownersRows [("foo", "a0000000")] [] []) true 1 []

/-- The file of the deleted flow makes the new one take the stem beside it. -/
theorem recreated_disturbed : ¬∀ folder, LeftBehind 1 folder →
    Determined (ownersRows [("foo", "b0000000")] [] []) true 1 folder := by
  intro determined
  have same := (determined recreated (.project _ true .empty)).1 (.flow "foo")
  have gone : ((projectAll (ownersRows [("foo", "b0000000")] [] []) true 1 recreated).read
      (.flow "foo")).isSome = false := by decide +kernel
  have there : ((projectAll (ownersRows [("foo", "b0000000")] [] []) true 1 []).read
      (.flow "foo")).isSome = true := by decide +kernel
  rw [same, there] at gone
  cases gone

end

end Flowfile.Project
