import Mathlib.Data.List.Basic

/-!
# The caps of a project import

A preflight judges the files of a project before an import writes its first row, and the import
judges them again. The two list the files in different ways: the import follows links, the walk of
the working tree does not, and a commit holds only what was added to it.
-/

namespace Flowfile.Project.ImportCaps

open List

structure Blob where
  size : Nat
  /-- How many entries its text has under a key. -/
  entries : String → Nat

structure File extends Blob where
  folders : List String
  name : String
  /-- Whether `rglob` comes to it, and it is a file. -/
  walked : Bool
  /-- What the commit holds under its path. -/
  committed : Option Blob

structure Caps where
  yamlBytes : Nat := 5 * 1024 * 1024
  flows : Nat := 500
  tables : Nat := 500
  connections : Nat := 200
  namespaces : Nat := 200
  artifacts : Nat := 500
  kernels : Nat := 50
  visualizations : Nat := 500
  dashboards : Nat := 200
  notebooks : Nat := 500
  schedulesPerFlow : Nat := 50

variable (caps : Caps) (tree : List File)

def File.endsWith (suffix : String) (file : File) : Bool :=
  suffix.toList.isSuffixOf file.name.toList

/-- A glob of the folder lists the file. -/
def File.isIn (folders : List String) (suffix : String) (file : File) : Bool :=
  file.folders == folders && file.endsWith suffix

/-- The commit holds it somewhere below the folder. -/
def File.isUnder (folders : List String) (suffix : String) (file : File) : Bool :=
  file.committed.isSome && folders.isPrefixOf file.folders && file.endsWith suffix

def File.isManifest (name : String) (file : File) : Bool :=
  file.folders == [] && file.name == name

open File (isIn isUnder isManifest endsWith)

def rootManifestCaps : List (String × String × Nat) :=
  [("namespaces.yaml", "namespaces", caps.namespaces), ("tables.yaml", "tables", caps.tables),
    ("models.yaml", "models", caps.artifacts), ("kernels.yaml", "kernels", caps.kernels),
    ("visualizations.yaml", "visualizations", caps.visualizations),
    ("dashboards.yaml", "dashboards", caps.dashboards)]

def folderCaps : List (List String × String × Nat) :=
  [(["flows"], ".flow.yaml", caps.flows), (["schedules"], ".yaml", caps.flows),
    (["connections", "database"], ".yaml", caps.connections),
    (["connections", "cloud"], ".yaml", caps.connections),
    (["notebooks"], ".notebook.yaml", caps.notebooks)]

/-- `preflight_import_caps_worktree` raises nothing, where every file can be read. -/
def preflightImportCapsWorktree : Bool :=
  (tree.all fun file => !(file.walked && file.endsWith ".yaml") || file.size ≤ caps.yamlBytes) &&
  (folderCaps caps).all (fun (folders, suffix, cap) =>
    tree.countP (isIn folders suffix) ≤ cap) &&
  (rootManifestCaps caps).all (fun (name, key, cap) => tree.all fun file =>
    !file.isManifest name || file.size ≤ caps.yamlBytes && file.entries key ≤ cap) &&
  tree.all fun file => !file.isIn ["schedules"] ".yaml" ||
    file.size ≤ caps.yamlBytes && file.entries "schedules" ≤ caps.schedulesPerFlow

/-- `preflight_import_caps` raises nothing, where every file can be read. -/
def preflightImportCaps : Bool :=
  (tree.all fun file => file.committed.all fun blob =>
    !file.endsWith ".yaml" || blob.size ≤ caps.yamlBytes) &&
  (folderCaps caps).all (fun (folders, suffix, cap) =>
    tree.countP (isUnder folders suffix) ≤ cap) &&
  (rootManifestCaps caps).all (fun (name, key, cap) => tree.all fun file =>
    !file.isManifest name || file.committed.all fun blob => blob.entries key ≤ cap) &&
  tree.all fun file => !file.isUnder ["schedules"] ".yaml" ||
    file.committed.all fun blob => blob.entries "schedules" ≤ caps.schedulesPerFlow

/-- A kind of file that an import reads, with the caps on their number and on what one holds. -/
structure Resource where
  lists : File → Bool
  cap : Option Nat
  counted : Option (String × Nat)

def manifest (name key : String) (cap : Nat) : Resource :=
  ⟨isManifest name, none, some (key, cap)⟩

def folder (folders : List String) (suffix : String) (cap : Nat) : Resource :=
  ⟨isIn folders suffix, some cap, none⟩

def schedules : Resource :=
  ⟨isIn ["schedules"] ".yaml", some caps.flows, some ("schedules", caps.schedulesPerFlow)⟩

/-- The kinds in the order of the import. -/
def resources (trackDataArtifacts : Bool) : List Resource :=
  [⟨isManifest "secrets.yaml", none, none⟩,
    folder ["connections", "database"] ".yaml" caps.connections,
    folder ["connections", "cloud"] ".yaml" caps.connections,
    manifest "namespaces.yaml" "namespaces" caps.namespaces,
    folder ["flows"] ".flow.yaml" caps.flows, schedules caps] ++
  (if trackDataArtifacts then
    [manifest "tables.yaml" "tables" caps.tables, manifest "models.yaml" "models" caps.artifacts]
  else []) ++
  [manifest "kernels.yaml" "kernels" caps.kernels,
    manifest "visualizations.yaml" "visualizations" caps.visualizations,
    manifest "dashboards.yaml" "dashboards" caps.dashboards,
    folder ["notebooks"] ".notebook.yaml" caps.notebooks]

/-- What an import meets besides the caps. -/
structure Outcomes where
  reads : File → Bool
  stores : File → Bool
  /-- Whether the flow of a schedule file is in the catalog. -/
  registered : File → Bool
  trackDataArtifacts : Bool
  prunes : Bool

inductive ImportError where
  | tooLarge | other

/-- A cap is kept, or anything else succeeds, with the error that is raised otherwise. -/
abbrev Step := Bool × ImportError

/-- A schedule file is counted only where its flow is registered. -/
def Resource.fileSteps (outcomes : Outcomes) (resource : Resource) (file : File) : List Step :=
  [(file.size ≤ caps.yamlBytes, .tooLarge), (outcomes.reads file, .other),
    (resource.cap.isSome && !outcomes.registered file ||
      resource.counted.all (fun (key, cap) => file.entries key ≤ cap), .tooLarge),
    (outcomes.stores file, .other)]

def Resource.steps (outcomes : Outcomes) (resource : Resource) : List Step :=
  (resource.cap.all (tree.countP resource.lists ≤ ·), .tooLarge) ::
    (tree.filter resource.lists).flatMap (resource.fileSteps caps outcomes)

def importSteps (outcomes : Outcomes) : List Step :=
  (resources caps outcomes.trackDataArtifacts).flatMap (Resource.steps caps tree outcomes) ++
    [(outcomes.prunes, .other)]

/-- The first step that fails ends the import. -/
def importProject (outcomes : Outcomes) : Except ImportError Unit :=
  match (importSteps caps tree outcomes).find? (!·.1) with
  | none => .ok ()
  | some (_, error) => .error error

def NeverTooLarge : Prop :=
  ∀ outcomes : Outcomes, importProject caps tree outcomes ≠ .error .tooLarge

variable (seen : File → Prop)

/-- A file keeps the caps on its size and on what it holds. -/
def Resource.Fits (resource : Resource) (file : File) : Prop :=
  file.size ≤ caps.yamlBytes ∧ resource.counted.all fun (key, cap) => file.entries key ≤ cap

/-- The files that a preflight does not see keep the caps, and where there is one, their number
does. -/
def Resource.Covered (resource : Resource) : Prop :=
  ((∃ file ∈ tree, resource.lists file ∧ ¬seen file) →
    resource.cap.all (tree.countP resource.lists ≤ ·)) ∧
  ∀ file ∈ tree, resource.lists file → ¬seen file → resource.Fits caps file

/-- The file on disk is the one of the commit. -/
def File.AsCommitted (file : File) : Prop :=
  file.committed = some file.toBlob

variable {caps tree seen} {outcomes : Outcomes} {resource : Resource} {file : File}

theorem importProject_within
    (within : ∀ step ∈ importSteps caps tree outcomes, step.2 = .tooLarge → step.1) :
    importProject caps tree outcomes ≠ .error .tooLarge := by
  rw [importProject]
  split
  · nofun
  · rename_i failed error first
    rintro ⟨⟩
    have fails : failed = false := by simpa using find?_some first
    exact absurd (within _ (mem_of_find?_eq_some first) rfl) (by simp [fails])

theorem importProject_judges (never : importProject caps tree outcomes ≠ .error .tooLarge)
    (succeeds : ∀ step ∈ importSteps caps tree outcomes, step.2 = .other → step.1) :
    ∀ step ∈ importSteps caps tree outcomes, step.1 := by
  rw [importProject] at never
  split at never
  case h_1 none => simpa using none
  case h_2 failed error first =>
    have fails : failed = false := by simpa using find?_some first
    cases error with
    | tooLarge => exact absurd rfl never
    | other => exact absurd (succeeds _ (mem_of_find?_eq_some first) rfl) (by simp [fails])

def Resource.Within (caps : Caps) (tree : List File) (resource : Resource) : Prop :=
  resource.cap.all (tree.countP resource.lists ≤ ·) ∧
    ∀ file ∈ tree, resource.lists file → resource.Fits caps file

theorem resources_subset (trackDataArtifacts : Bool) :
    resources caps trackDataArtifacts ⊆ resources caps true := by
  cases trackDataArtifacts <;> simp [resources]

theorem mem_importSteps {step : Step} : step ∈ importSteps caps tree outcomes ↔
    (∃ resource ∈ resources caps outcomes.trackDataArtifacts,
      step = (resource.cap.all (tree.countP resource.lists ≤ ·), .tooLarge) ∨
      ∃ file, (file ∈ tree ∧ resource.lists file) ∧ step ∈ resource.fileSteps caps outcomes file) ∨
    step = (outcomes.prunes, .other) := by
  simp [importSteps, Resource.steps]

theorem neverTooLarge_iff : NeverTooLarge caps tree ↔
    ∀ resource ∈ resources caps true, resource.Within caps tree := by
  constructor
  · intro never resource mem
    have judged := importProject_judges
      (never ⟨fun _ => true, fun _ => true, fun _ => true, true, true⟩) fun step isStep other => by
        obtain ⟨kind, _, rfl | ⟨file, _, inFile⟩⟩ | rfl := mem_importSteps.mp isStep
        · nomatch other
        · simp only [Resource.fileSteps, mem_cons, not_mem_nil, or_false] at inFile
          rcases inFile with rfl | rfl | rfl | rfl <;> trivial
        · rfl
    refine ⟨judged (_, .tooLarge) (mem_importSteps.mpr (.inl ⟨resource, mem, .inl rfl⟩)),
      fun file isFile listed => ?_⟩
    have ofFile := fun step inFile => judged step
      (mem_importSteps.mpr (.inl ⟨resource, mem, .inr ⟨file, ⟨isFile, listed⟩, inFile⟩⟩))
    simpa [Resource.fileSteps, Resource.Fits] using ofFile
  · intro within outcomes
    refine importProject_within fun step isStep cap => ?_
    obtain ⟨kind, mem, rfl | ⟨file, ⟨isFile, listed⟩, inFile⟩⟩ | rfl := mem_importSteps.mp isStep
    · exact (within kind (resources_subset _ mem)).1
    · obtain ⟨small, few⟩ := (within kind (resources_subset _ mem)).2 file isFile listed
      simp only [Resource.fileSteps, mem_cons, not_mem_nil, or_false] at inFile
      rcases inFile with rfl | rfl | rfl | rfl
      · exact decide_eq_true small
      · nomatch cap
      · simp [few]
      · nomatch cap
    · nomatch cap

theorem listed_yaml (mem : resource ∈ resources caps true) (listed : resource.lists file) :
    file.endsWith ".yaml" := by
  simp [resources] at mem
  rcases mem with rfl | rfl | rfl | rfl | rfl | rfl | rfl | rfl | rfl | rfl | rfl | rfl <;>
    simp [manifest, folder, schedules, isIn, isManifest, endsWith] at listed ⊢ <;>
    first
    | exact listed.2
    | simp [listed, suffix_cons_iff]
    | exact IsSuffix.trans (by simp [suffix_cons_iff]) listed.2

theorem resources_judged (mem : resource ∈ resources caps true) :
    (∀ cap ∈ resource.cap, ∃ row ∈ folderCaps caps, row.2.2 = cap ∧
      resource.lists = isIn row.1 row.2.1) ∧
    ∀ row ∈ resource.counted,
      (∃ name, (name, row) ∈ rootManifestCaps caps ∧ resource.lists = isManifest name) ∨
      row = ("schedules", caps.schedulesPerFlow) ∧
        resource.lists = isIn ["schedules"] ".yaml" := by
  simp [resources] at mem
  rcases mem with rfl | rfl | rfl | rfl | rfl | rfl | rfl | rfl | rfl | rfl | rfl | rfl <;>
    simp [folderCaps, rootManifestCaps, manifest, folder, schedules]

/-- A preflight that judges the files it sees, and their number where it sees them all, leaves the
others to be judged. -/
theorem within_iff_covered
    (sizes : ∀ file ∈ tree, seen file → file.endsWith ".yaml" → file.size ≤ caps.yamlBytes)
    (numbers : ∀ row ∈ folderCaps caps,
      (∀ file ∈ tree, file.isIn row.1 row.2.1 → seen file) →
        tree.countP (isIn row.1 row.2.1) ≤ row.2.2)
    (manifests : ∀ row ∈ rootManifestCaps caps, ∀ file ∈ tree, file.isManifest row.1 →
      seen file → file.entries row.2.1 ≤ row.2.2)
    (scheduled : ∀ file ∈ tree, file.isIn ["schedules"] ".yaml" → seen file →
      file.entries "schedules" ≤ caps.schedulesPerFlow)
    (mem : resource ∈ resources caps true) :
    resource.Within caps tree ↔ resource.Covered caps tree seen := by
  obtain ⟨counts, judges⟩ := resources_judged mem
  constructor
  · exact fun within => ⟨fun _ => within.1, fun file isFile listed _ => within.2 file isFile listed⟩
  · refine fun covered => ⟨?_, fun file isFile listed => ?_⟩
    · by_cases all : ∃ file ∈ tree, resource.lists file ∧ ¬seen file
      · exact covered.1 all
      · refine (Option.all_eq_true _ _).mpr fun cap isCap => ?_
        obtain ⟨row, isRow, rfl, same⟩ := counts cap isCap
        rw [same] at all ⊢
        exact decide_eq_true (numbers row isRow fun file isFile listed =>
          by_contra fun unseen => all ⟨file, isFile, listed, unseen⟩)
    · by_cases sees : seen file
      · refine ⟨sizes file isFile sees (listed_yaml mem listed),
          (Option.all_eq_true _ _).mpr fun row isRow => ?_⟩
        obtain ⟨name, isManifest, same⟩ | ⟨rfl, same⟩ := judges row isRow
        · exact decide_eq_true (manifests _ isManifest file isFile (same ▸ listed) sees)
        · exact decide_eq_true (scheduled file isFile (same ▸ listed) sees)
      · exact covered.2 file isFile listed sees

theorem importProject_spec (caps : Caps) (tree : List File) :
    (preflightImportCapsWorktree caps tree = true → (NeverTooLarge caps tree ↔
      ∀ resource ∈ resources caps true, resource.Covered caps tree fun file => file.walked)) ∧
    (preflightImportCaps caps tree = true → (NeverTooLarge caps tree ↔
      ∀ resource ∈ resources caps true, resource.Covered caps tree File.AsCommitted)) := by
  rw [neverTooLarge_iff]
  refine ⟨fun passes => ?_, fun passes => ?_⟩
  · simp only [preflightImportCapsWorktree, Bool.and_eq_true, all_eq_true] at passes
    obtain ⟨⟨⟨sizes, numbers⟩, manifests⟩, scheduled⟩ := passes
    refine forall₂_congr fun resource mem => within_iff_covered (fun file isFile walked yaml => ?_)
      (fun row isRow _ => of_decide_eq_true (numbers row isRow))
      (fun row isRow file isFile isManifest _ => ?_) (fun file isFile listed _ => ?_) mem
    · simpa [walked, yaml] using sizes file isFile
    · have judged := manifests row isRow file isFile
      simp [isManifest] at judged
      exact judged.2
    · have judged := scheduled file isFile
      simp [listed] at judged
      exact judged.2
  · simp only [preflightImportCaps, Bool.and_eq_true, all_eq_true] at passes
    obtain ⟨⟨⟨sizes, numbers⟩, manifests⟩, scheduled⟩ := passes
    have below {folders suffix} {file : File} (same : file.AsCommitted)
        (listed : file.isIn folders suffix) : file.isUnder folders suffix := by
      rw [isIn, Bool.and_eq_true_iff, beq_iff_eq] at listed
      simp [isUnder, listed.1, listed.2, show file.committed = _ from same]
    refine forall₂_congr fun resource mem => within_iff_covered (fun file isFile same yaml => ?_)
      (fun row isRow all => Nat.le_trans (countP_mono_left fun file isFile listed =>
        below (all file isFile listed) listed) (of_decide_eq_true (numbers row isRow)))
      (fun row isRow file isFile isManifest same => ?_) (fun file isFile listed same => ?_) mem
    · simpa [show file.committed = _ from same, yaml] using sizes file isFile
    · simpa [show file.committed = _ from same, isManifest] using manifests row isRow file isFile
    · simpa [show file.committed = _ from same, below same listed] using scheduled file isFile

/-- A project whose folder of flows is a link, with one flow behind it. -/
def linkedFlows (size : Nat) : List File :=
  [{ size, entries := fun _ => 0, folders := ["flows"], name := "a.flow.yaml", walked := false,
     committed := none }]

theorem linkedFlows_pass (size : Nat) : preflightImportCapsWorktree {} (linkedFlows size) ∧
    preflightImportCaps {} (linkedFlows size) := by
  simp [preflightImportCapsWorktree, preflightImportCaps, linkedFlows, folderCaps, rootManifestCaps,
    isIn, isUnder, isManifest, endsWith]

theorem importProject_small : NeverTooLarge {} (linkedFlows 10) := by
  refine ((importProject_spec {} _).1 (linkedFlows_pass 10).1).mpr ?_
  simp [resources, linkedFlows, manifest, folder, schedules, Resource.Covered, Resource.Fits,
    isIn, isManifest, endsWith]

theorem importProject_linked : ¬∀ (caps : Caps) (tree : List File),
    preflightImportCapsWorktree caps tree ∨ preflightImportCaps caps tree →
      NeverTooLarge caps tree := by
  intro sound
  have never := sound {} (linkedFlows (6 * 1024 * 1024)) (.inl (linkedFlows_pass _).1)
  have within := neverTooLarge_iff.mp never (folder ["flows"] ".flow.yaml" 500)
    (by simp [resources])
  simpa [linkedFlows, folder, isIn, endsWith, Resource.Fits] using within.2

end Flowfile.Project.ImportCaps
