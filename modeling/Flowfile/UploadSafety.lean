import Flowfile.ArtifactUploads
import Flowfile.Library.WrittenNumbers

/-!
# Uploads that are not disturbed

A client that prepares an upload deletes the pending rows of the same artifact, also those of
clients that are still at work. As long as nobody prepares an upload while another one of the same
artifact is under way, nothing goes wrong, whatever the order of the steps: clients that store a
blob with the announced checksum are not refused, the versions of an artifact are different, and an
activated row has the blob of the client that prepared it.
-/

namespace Flowfile.GlobalArtifacts

open Function Library.EventRuns Library.RowIds Library.WrittenNumbers List

variable {β δ : Type}

/-- Uploads of different ids are staged at different paths. -/
theorem path_injective {first second : Nat} {firstName secondName : String}
    (same : (prepareTarget first firstName).path = (prepareTarget second secondName).path) :
    first = second :=
  (written_inj (show Char.isDigit '_' = false from rfl) same).1

theorem storageKey_injective {first second : Nat} {firstName secondName : String}
    (same : (prepareTarget first firstName).storageKey =
      (prepareTarget second secondName).storageKey) : first = second :=
  (written_inj (show Char.isDigit '/' = false from rfl) same).1

/-- The storage key of an upload is read back. -/
theorem splitStorageKey_target (id : Nat) (filename : String) :
    splitStorageKey (prepareTarget id filename).storageKey = some (toString id, filename) := by
  have free : ∀ letter ∈ (toString id).toList, letter ≠ '/' := by
    rintro _ mem rfl
    exact absurd (isDigit_of_mem_toString mem) (by decide)
  have text : (prepareTarget id filename).storageKey.toList =
      (toString id).toList ++ '/' :: filename.toList := by
    simp [prepareTarget]
  rw [splitStorageKey, text, if_pos (by simp), takeWhile_append_of_pos (by simpa using free),
    dropWhile_append_of_pos (by simpa using free), takeWhile_cons_of_neg (by decide),
    dropWhile_cons_of_neg (by decide), append_nil, drop_one, tail_cons,
    String.ofList_toList, String.ofList_toList]

section

variable (sha256 : β → δ)

def World.Bound (world : World β δ) (row : GlobalArtifact δ) (client : Nat) : Prop :=
  ∃ request version blob,
    world.uploads client = .activated (responseTo request row.id version) (some blob) ∧
      row.storageKey = some (responseTo request row.id version).storageKey ∧
      world.storage.permanent (responseTo request row.id version).storageKey = some blob ∧
      row.sha256 = some (sha256 blob)

def World.Published (world : World β δ) (client : Nat) (response : PrepareUploadResponse) : Prop :=
  ∃ row ∈ world.artifacts, row.id = response.artifactId ∧ row.version = response.version ∧
    row.status = .active ∧ row.uploader = some client

def World.HasRow (world : World β δ) (client : Nat) (request : PrepareUploadRequest)
    (response : PrepareUploadResponse) : Prop :=
  response = responseTo request response.artifactId response.version ∧
    ∃ row ∈ world.artifacts, row.id = response.artifactId ∧ row.version = response.version ∧
      row.status = .pending ∧ row.uploader = some client ∧ row.artifact = request.artifact

def World.Supports (world : World β δ) (client : Nat) : Phase β δ → Prop
  | .inserting request _ _ version =>
    ∀ row ∈ world.artifacts, row.artifact = request.artifact → row.version < version
  | .prepared request response blob | .checked request response blob _ =>
    world.HasRow client request response ∧
      ∀ written, blob = some written → world.storage.staging response.path = some written
  | .verified request response blob announced _ =>
    world.HasRow client request response ∧ ∃ written, blob = some written ∧
      announced = sha256 written ∧
      world.storage.permanent response.storageKey = some written
  | .activated response _ => world.Published client response
  | .refused blob announced _ => ∀ written, blob = some written → announced ≠ sha256 written
  | _ => True

/-- Uploads that are under way are of different artifacts, each has its row and its blob, and what
is activated is bound. -/
structure World.Isolated (world : World β δ) : Prop where
  ids : (world.artifacts.map GlobalArtifact.id).Nodup
  versions : ∀ row ∈ world.artifacts, ∀ other ∈ world.artifacts,
    row.artifact = other.artifact → row.version = other.version → row = other
  apart : ∀ first second, first ≠ second → ∀ request other,
    (world.uploads first).openRequest = some request →
      (world.uploads second).openRequest = some other → request.artifact ≠ other.artifact
  phases : ∀ client, world.Supports sha256 client (world.uploads client)
  bound : ∀ row ∈ world.artifacts, row.status = .active → ∀ client, row.uploader = some client →
    world.Bound sha256 row client

structure Leaves (client : Nat) (before after : World β δ) : Prop where
  uploads : ∀ other, other ≠ client → after.uploads other = before.uploads other
  rows : ∀ other, other ≠ client → ∀ request, (before.uploads other).openRequest = some request →
    ∀ row ∈ before.artifacts, row.artifact = request.artifact → row.status = .pending →
      row.uploader = some other → row ∈ after.artifacts
  origin : ∀ other, other ≠ client → ∀ request, (before.uploads other).openRequest = some request →
    ∀ row ∈ after.artifacts, row.artifact = request.artifact →
      ∃ old ∈ before.artifacts, old.artifact = row.artifact ∧ old.version = row.version
  active : ∀ row ∈ before.artifacts, row.status = .active → row ∈ after.artifacts
  activeOrigin : ∀ row ∈ after.artifacts, row.status = .active → row.uploader ≠ some client →
    row ∈ before.artifacts
  storage : ∀ row ∈ before.artifacts, row.uploader ≠ some client → ∀ filename,
    after.storage.staging (prepareTarget row.id filename).path =
        before.storage.staging (prepareTarget row.id filename).path ∧
      after.storage.permanent (prepareTarget row.id filename).storageKey =
        before.storage.permanent (prepareTarget row.id filename).storageKey

variable {sha256} {before after : World β δ} {client : Nat}

theorem Leaves.hasRow (leaves : Leaves client before after) {other : Nat} (apart : other ≠ client)
    {request : PrepareUploadRequest} {response : PrepareUploadResponse}
    (isOpen : (before.uploads other).openRequest = some request)
    (hasRow : before.HasRow other request response) :
    after.HasRow other request response ∧
      after.storage.staging response.path = before.storage.staging response.path ∧
      after.storage.permanent response.storageKey =
        before.storage.permanent response.storageKey := by
  obtain ⟨isResponse, row, mem, sameId, sameVersion, pending, uploaded, same⟩ := hasRow
  have stays := leaves.rows other apart request isOpen row mem same pending uploaded
  have notOwn : row.uploader ≠ some client := by
    rw [uploaded]
    exact fun own => apart (Option.some_inj.mp own)
  have kept := leaves.storage row mem notOwn request.filename
  rw [sameId] at kept
  refine ⟨⟨isResponse, row, stays, sameId, sameVersion, pending, uploaded, same⟩, ?_⟩
  rw [isResponse]
  exact kept

theorem Leaves.supports (leaves : Leaves client before after) {other : Nat}
    (apart : other ≠ client) (supported : before.Supports sha256 other (before.uploads other)) :
    after.Supports sha256 other (after.uploads other) := by
  rw [leaves.uploads other apart]
  cases phase : before.uploads other with
  | inserting request owner attempt version =>
    rw [phase] at supported
    intro row mem same
    obtain ⟨old, isOld, sameArtifact, sameVersion⟩ :=
      leaves.origin other apart request (by rw [phase]; rfl) row mem same
    rw [← sameVersion]
    exact supported old isOld (sameArtifact.trans same)
  | prepared request response blob =>
    rw [phase] at supported
    obtain ⟨hasRow, staged, _⟩ := leaves.hasRow apart (by rw [phase]; rfl) supported.1
    exact ⟨hasRow, fun written isBlob => staged.trans (supported.2 written isBlob)⟩
  | checked request response blob announced =>
    rw [phase] at supported
    obtain ⟨hasRow, staged, _⟩ := leaves.hasRow apart (by rw [phase]; rfl) supported.1
    exact ⟨hasRow, fun written isBlob => staged.trans (supported.2 written isBlob)⟩
  | verified request response blob announced verifiedSize =>
    rw [phase] at supported
    obtain ⟨hasRow, _, stored⟩ := leaves.hasRow apart (by rw [phase]; rfl) supported.1
    obtain ⟨_, written, isBlob, isDigest, isStored⟩ := supported
    exact ⟨hasRow, written, isBlob, isDigest, stored.trans isStored⟩
  | activated response blob =>
    rw [phase] at supported
    obtain ⟨row, mem, sameId, sameVersion, isActive, uploaded⟩ := supported
    exact ⟨row, leaves.active row mem isActive, sameId, sameVersion, isActive, uploaded⟩
  | refused blob announced error =>
    rw [phase] at supported
    exact supported
  | idle | numbering | rejected | abandoned => trivial

theorem World.Isolated.step (isolated : before.Isolated sha256)
    (leaves : Leaves client before after) (ids : (after.artifacts.map GlobalArtifact.id).Nodup)
    (versions : ∀ row ∈ after.artifacts, ∀ other ∈ after.artifacts,
      row.artifact = other.artifact → row.version = other.version → row = other)
    (apart : ∀ other, other ≠ client → ∀ request theirs,
      (after.uploads client).openRequest = some request →
        (before.uploads other).openRequest = some theirs → request.artifact ≠ theirs.artifact)
    (supported : after.Supports sha256 client (after.uploads client))
    (bound : ∀ row ∈ after.artifacts, row.status = .active → row.uploader = some client →
      after.Bound sha256 row client) : after.Isolated sha256 where
  ids := ids
  versions := versions
  apart first second different request other isFirst isSecond := by
    by_cases firstMoves : first = client
    · subst firstMoves
      rw [leaves.uploads second (Ne.symm different)] at isSecond
      exact apart second (Ne.symm different) request other isFirst isSecond
    rw [leaves.uploads first firstMoves] at isFirst
    by_cases secondMoves : second = client
    · subst secondMoves
      exact (apart first firstMoves other request isSecond isFirst).symm
    · rw [leaves.uploads second secondMoves] at isSecond
      exact isolated.apart first second different request other isFirst isSecond
  phases other := by
    by_cases moves : other = client
    · rw [moves]
      exact supported
    · exact leaves.supports moves (isolated.phases other)
  bound row mem isActive other uploaded := by
    by_cases moves : other = client
    · subst moves
      exact bound row mem isActive uploaded
    have notOwn : row.uploader ≠ some client := by
      rw [uploaded]
      exact fun own => moves (Option.some_inj.mp own)
    have old := leaves.activeOrigin row mem isActive notOwn
    obtain ⟨request, version, blob, phase, hasKey, stored, hasDigest⟩ :=
      isolated.bound row old isActive other uploaded
    refine ⟨request, version, blob, (leaves.uploads other moves).trans phase, hasKey, ?_, hasDigest⟩
    exact (leaves.storage row old notOwn request.filename).2.trans stored

end

section

variable {sha256 : β → δ} {world : World β δ} {client : Nat}

theorem leaves_enter (phase : Phase β δ) : Leaves client world (world.enter client phase) where
  uploads _ apart := update_of_ne apart _ _
  rows _ _ _ _ _ mem _ _ _ := mem
  origin _ _ _ _ row mem _ := ⟨row, mem, rfl, rfl⟩
  active _ mem _ := mem
  activeOrigin _ mem _ _ := mem
  storage _ _ _ _ := ⟨rfl, rfl⟩

theorem Leaves.enter {changed : World β δ} (leaves : Leaves client world changed)
    (phase : Phase β δ) : Leaves client world (changed.enter client phase) :=
  { leaves with
    uploads other apart := (update_of_ne apart _ _).trans (leaves.uploads other apart) }

@[simp]
theorem uploads_enter (phase : Phase β δ) : (world.enter client phase).uploads client = phase :=
  update_self _ _ _

theorem World.Isolated.noActive (isolated : world.Isolated sha256)
    (working : ∀ response blob, world.uploads client ≠ .activated response blob) :
    ∀ row ∈ world.artifacts, row.status = .active → row.uploader ≠ some client := by
  intro row mem isActive uploaded
  obtain ⟨_, _, _, phase, _⟩ := isolated.bound row mem isActive client uploaded
  exact working _ _ phase

variable {request : PrepareUploadRequest}

theorem working_of_open (isOpen : (world.uploads client).openRequest = some request) :
    ∀ response blob, world.uploads client ≠ .activated response blob := by
  intro response blob phase
  rw [phase] at isOpen
  cases isOpen

theorem World.Isolated.enter (isolated : world.Isolated sha256)
    (working : ∀ response blob, world.uploads client ≠ .activated response blob) {phase : Phase β δ}
    (sameRequest : ∀ request, phase.openRequest = some request →
      (world.uploads client).openRequest = some request)
    (supported : world.Supports sha256 client phase) :
    (world.enter client phase).Isolated sha256 := by
  refine isolated.step (leaves_enter phase) isolated.ids isolated.versions ?_ ?_ ?_
  · intro other apart request theirs isOpen isTheirs
    rw [uploads_enter] at isOpen
    exact isolated.apart client other (Ne.symm apart) request theirs (sameRequest request isOpen)
      isTheirs
  · rw [uploads_enter]
    cases phase <;> exact supported
  · intro row mem isActive uploaded
    exact absurd uploaded (isolated.noActive working row mem isActive)

variable {response : PrepareUploadResponse} {row : GlobalArtifact δ}

section

variable (isolated : world.Isolated sha256) (hasRow : world.HasRow client request response)
include isolated hasRow

theorem World.Isolated.own_row (mem : row ∈ world.artifacts)
    (sameId : row.id = response.artifactId) :
    row.version = response.version ∧ row.status = .pending ∧ row.uploader = some client ∧
      row.artifact = request.artifact := by
  obtain ⟨_, own, isOwn, ownId, facts⟩ := hasRow
  rwa [inj_on_of_nodup_map isolated.ids mem isOwn (sameId.trans ownId.symm)]

theorem World.Isolated.getArtifact :
    ∃ row, world.getArtifact response.artifactId = some row ∧ row.status = .pending := by
  cases found : world.getArtifact response.artifactId with
  | none =>
    obtain ⟨_, own, isOwn, ownId, _⟩ := hasRow
    exact absurd ownId (by simpa using List.find?_eq_none.mp found own isOwn)
  | some row =>
    have sameId : row.id = response.artifactId := by simpa using List.find?_some found
    exact ⟨row, rfl, (isolated.own_row hasRow (mem_of_find?_eq_some found) sameId).2.1⟩

theorem World.Isolated.check_eq (blob : Option β) (announced : δ) :
    world.check client request response blob announced =
      world.enter client (.checked request response blob announced) := by
  obtain ⟨row, found, pending⟩ := isolated.getArtifact hasRow
  rw [World.check, found]
  exact if_pos pending

theorem World.Isolated.commit_eq (change : GlobalArtifact δ → GlobalArtifact δ)
    (storage : SharedFilesystemStorage β) (phase : Phase β δ) (refusal : UploadError → Phase β δ) :
    World.commit { world with storage } client response.artifactId change phase refusal =
      (World.modify { world with storage } response.artifactId change).enter client phase := by
  obtain ⟨row, found, _⟩ := isolated.getArtifact hasRow
  have present : (World.getArtifact { world with storage } response.artifactId).isSome := by
    change (world.getArtifact response.artifactId).isSome
    rw [found]
    rfl
  rw [World.commit, if_pos present]

end

variable {change : GlobalArtifact δ → GlobalArtifact δ}

theorem mem_modify {artifactId : Nat} : row ∈ (world.modify artifactId change).artifacts ↔
      (row ∈ world.artifacts ∧ row.id ≠ artifactId) ∨
        ∃ old ∈ world.artifacts, old.id = artifactId ∧ row = change old := by
  rw [World.modify, mem_map]
  constructor
  · rintro ⟨old, mem, rfl⟩
    by_cases same : old.id = artifactId
    · rw [if_pos same]
      exact .inr ⟨old, mem, same, rfl⟩
    · rw [if_neg same]
      exact .inl ⟨mem, same⟩
  · rintro (⟨mem, other⟩ | ⟨old, mem, same, rfl⟩)
    · exact ⟨row, mem, if_neg other⟩
    · exact ⟨old, mem, if_pos same⟩

structure KeepsIdentity (change : GlobalArtifact δ → GlobalArtifact δ) : Prop where
  id : ∀ row, (change row).id = row.id
  artifact : ∀ row, (change row).artifact = row.artifact
  version : ∀ row, (change row).version = row.version
  uploader : ∀ row, (change row).uploader = row.uploader

section

variable (isolated : world.Isolated sha256)
include isolated

variable {storage : SharedFilesystemStorage β}

theorem World.Isolated.leaves_own
    (hasRow : world.HasRow client request response)
    (keeps : KeepsIdentity change)
    (staging : ∀ path, path ≠ response.path → storage.staging path = world.storage.staging path)
    (permanent : ∀ key, key ≠ response.storageKey →
      storage.permanent key = world.storage.permanent key) :
    Leaves client world (World.modify { world with storage } response.artifactId change) where
  uploads _ _ := rfl
  rows other apart _ _ row mem _ _ uploaded := by
    refine mem_modify.mpr (.inl ⟨mem, fun sameId => apart ?_⟩)
    rw [(isolated.own_row hasRow mem sameId).2.2.1] at uploaded
    exact (Option.some_inj.mp uploaded).symm
  origin _ _ _ _ row mem _ := by
    obtain ⟨isOld, _⟩ | ⟨old, isOld, _, rfl⟩ := mem_modify.mp mem
    · exact ⟨row, isOld, rfl, rfl⟩
    · exact ⟨old, isOld, (keeps.artifact old).symm, (keeps.version old).symm⟩
  active row mem isActive := by
    refine mem_modify.mpr (.inl ⟨mem, fun sameId => ?_⟩)
    rw [(isolated.own_row hasRow mem sameId).2.1] at isActive
    cases isActive
  activeOrigin row mem _ notOwn := by
    obtain ⟨isOld, _⟩ | ⟨old, isOld, sameId, rfl⟩ := mem_modify.mp mem
    · exact isOld
    · rw [keeps.uploader, (isolated.own_row hasRow isOld sameId).2.2.1] at notOwn
      exact absurd rfl notOwn
  storage row mem notOwn filename := by
    have otherId : row.id ≠ response.artifactId := fun sameId =>
      notOwn (isolated.own_row hasRow mem sameId).2.2.1
    have isResponse := hasRow.1
    constructor
    · apply staging
      rw [isResponse]
      exact fun same => otherId (path_injective same)
    · apply permanent
      rw [isResponse]
      exact fun same => otherId (storageKey_injective same)

theorem World.Isolated.ids_modify (artifactId : Nat) (keeps : KeepsIdentity change) :
    ((world.modify artifactId change).artifacts.map GlobalArtifact.id).Nodup := by
  have same : (world.modify artifactId change).artifacts.map GlobalArtifact.id =
      world.artifacts.map GlobalArtifact.id := by
    rw [World.modify, map_map]
    apply map_congr_left
    intro row _
    rw [comp_apply]
    split
    case isTrue => exact keeps.id row
    case isFalse => rfl
  rw [same]
  exact isolated.ids

theorem World.Isolated.versions_modify (artifactId : Nat) (keeps : KeepsIdentity change) :
    ∀ row ∈ (world.modify artifactId change).artifacts,
      ∀ other ∈ (world.modify artifactId change).artifacts,
        row.artifact = other.artifact → row.version = other.version → row = other := by
  intro row mem other isOther sameArtifact sameVersion
  obtain ⟨isOld, apart⟩ | ⟨old, isOld, sameId, rfl⟩ := mem_modify.mp mem
  · obtain ⟨isOldOther, _⟩ | ⟨oldOther, isOldOther, otherId, rfl⟩ := mem_modify.mp isOther
    · exact isolated.versions row isOld other isOldOther sameArtifact sameVersion
    rw [keeps.artifact] at sameArtifact
    rw [keeps.version] at sameVersion
    have same := isolated.versions row isOld oldOther isOldOther sameArtifact sameVersion
    rw [same] at apart
    exact absurd otherId apart
  · rw [keeps.artifact] at sameArtifact
    rw [keeps.version] at sameVersion
    obtain ⟨isOldOther, apart⟩ | ⟨oldOther, isOldOther, _, rfl⟩ := mem_modify.mp isOther
    · have same := isolated.versions old isOld other isOldOther sameArtifact sameVersion
      rw [← same] at apart
      exact absurd sameId apart
    · rw [keeps.artifact] at sameArtifact
      rw [keeps.version] at sameVersion
      rw [isolated.versions old isOld oldOther isOldOther sameArtifact sameVersion]

theorem World.Isolated.own (hasRow : world.HasRow client request response)
    (isOpen : (world.uploads client).openRequest = some request)
    (keeps : KeepsIdentity change)
    (staging : ∀ path, path ≠ response.path → storage.staging path = world.storage.staging path)
    (permanent : ∀ key, key ≠ response.storageKey →
      storage.permanent key = world.storage.permanent key)
    {phase : Phase β δ} (sameRequest : ∀ other, phase.openRequest = some other → other = request)
    (supported : (World.modify { world with storage } response.artifactId change).Supports sha256
      client phase)
    (bound : ∀ row ∈ world.artifacts, row.id = response.artifactId → (change row).status = .active →
        ((World.modify { world with storage } response.artifactId change).enter client
          phase).Bound sha256 (change row) client) :
    ((World.modify { world with storage } response.artifactId change).enter client
      phase).Isolated sha256 := by
  refine isolated.step ((isolated.leaves_own hasRow keeps staging permanent).enter phase)
    (isolated.ids_modify response.artifactId keeps)
    (isolated.versions_modify response.artifactId keeps) ?_ ?_ ?_
  · intro other apart open' theirs isOpen' isTheirs
    rw [uploads_enter] at isOpen'
    rw [sameRequest open' isOpen']
    exact isolated.apart client other (Ne.symm apart) request theirs isOpen isTheirs
  · rw [uploads_enter]
    cases phase <;> exact supported
  · intro row mem isActive uploaded
    obtain ⟨isOld, _⟩ | ⟨old, isOld, sameId, rfl⟩ := mem_modify.mp mem
    · exact absurd uploaded (isolated.noActive (working_of_open isOpen) row isOld isActive)
    · exact bound old isOld sameId isActive

end

/-- No change of rows. -/
theorem modify_id (world : World β δ) (artifactId : Nat) : world.modify artifactId id = world := by
  simp [World.modify]

theorem World.Isolated.ownStorage (isolated : world.Isolated sha256)
    (hasRow : world.HasRow client request response)
    (isOpen : (world.uploads client).openRequest = some request)
    {storage : SharedFilesystemStorage β}
    (staging : ∀ path, path ≠ response.path → storage.staging path = world.storage.staging path)
    (permanent : ∀ key, key ≠ response.storageKey →
      storage.permanent key = world.storage.permanent key)
    {phase : Phase β δ} (sameRequest : ∀ other, phase.openRequest = some other → other = request)
    (supported : World.Supports sha256 { world with storage } client phase) :
    (World.enter { world with storage } client phase).Isolated sha256 := by
  have keeps : KeepsIdentity (id : GlobalArtifact δ → GlobalArtifact δ) :=
    ⟨fun _ => rfl, fun _ => rfl, fun _ => rfl, fun _ => rfl⟩
  rw [← modify_id { world with storage } response.artifactId] at supported ⊢
  refine isolated.own hasRow isOpen keeps staging permanent sameRequest supported ?_
  intro row mem sameId isActive
  rw [id, (isolated.own_row hasRow mem sameId).2.1] at isActive
  cases isActive

theorem World.Isolated.write (isolated : world.Isolated sha256) {earlier : Option β}
    (phase : world.uploads client = .prepared request response earlier) (blob : β) :
    (World.enter { world with storage := { world.storage with
        staging := update world.storage.staging response.path (some blob) } } client
      (.prepared request response (some blob))).Isolated sha256 := by
  have supported := isolated.phases client
  rw [phase] at supported
  refine isolated.ownStorage supported.1 (by rw [phase]; rfl) ?_ ?_ ?_ ?_
  · intro path other
    exact update_of_ne other _ _
  · intro _ _
    rfl
  · intro other isOpen
    exact (Option.some_inj.mp isOpen).symm
  · refine ⟨supported.1, fun written isBlob => ?_⟩
    rw [← isBlob]
    exact update_self _ _ _

theorem World.Isolated.check (isolated : world.Isolated sha256) {blob : Option β}
    (phase : world.uploads client = .prepared request response blob) (announced : δ) :
    (world.check client request response blob announced).Isolated sha256 := by
  have supported := isolated.phases client
  rw [phase] at supported
  rw [isolated.check_eq supported.1]
  refine isolated.enter (working_of_open (by rw [phase]; rfl)) (fun other isOpen => ?_) supported
  rw [phase]
  exact isOpen

/-- The storage key of an answer is read back. -/
theorem splitStorageKey_response (request : PrepareUploadRequest) (artifactId version : Nat) :
    splitStorageKey (responseTo request artifactId version).storageKey =
      some (toString artifactId, request.filename) :=
  splitStorageKey_target artifactId request.filename

section

variable [DecidableEq δ] (size : β → Nat) {storage : SharedFilesystemStorage β}
  {request : PrepareUploadRequest} {response : PrepareUploadResponse}
  (isResponse : response = responseTo request response.artifactId response.version)
  (announced : δ)

include isResponse

/-- The storage finds nothing where the client has stored nothing. -/
theorem finalizeUpload_missing (staged : storage.staging response.path = none) :
    storage.finalizeUpload sha256 size response.storageKey announced =
      (storage, .error .fileNotFound) := by
  rw [isResponse] at staged ⊢
  rw [SharedFilesystemStorage.finalizeUpload, splitStorageKey_response]
  change storage.staging (stagingPath _ _) = none at staged
  simp only [staged]

/-- The storage finds what the client has stored, and moves it if it has the checksum. -/
theorem finalizeUpload_found {blob : β} (staged : storage.staging response.path = some blob) :
    storage.finalizeUpload sha256 size response.storageKey announced =
      if sha256 blob = announced then
        (⟨update storage.staging response.path none,
          update storage.permanent response.storageKey (some blob)⟩, .ok (size blob))
      else
        (⟨update storage.staging response.path none, storage.permanent⟩, .error .valueError) := by
  rw [isResponse] at staged ⊢
  rw [SharedFilesystemStorage.finalizeUpload, splitStorageKey_response]
  change storage.staging (stagingPath _ _) = some blob at staged
  simp only [staged]
  rfl

end

section

variable [DecidableEq δ] (size : β → Nat)

omit [DecidableEq δ] in
theorem World.Isolated.activate (isolated : world.Isolated sha256) {request : PrepareUploadRequest}
    {response : PrepareUploadResponse} {blob : Option β} {announced : δ} {verifiedSize : Nat}
    (phase : world.uploads client = .verified request response blob announced verifiedSize) :
    (world.commit client response.artifactId
      (GlobalArtifact.activated response announced verifiedSize) (.activated response blob)
      (.refused blob announced)).Isolated sha256 := by
  have supported := isolated.phases client
  rw [phase] at supported
  obtain ⟨hasRow, written, rfl, rfl, stored⟩ := supported
  rw [isolated.commit_eq hasRow _ world.storage]
  have keeps : KeepsIdentity (GlobalArtifact.activated response (sha256 written) verifiedSize) :=
    ⟨fun _ => rfl, fun _ => rfl, fun _ => rfl, fun _ => rfl⟩
  refine isolated.own hasRow (by rw [phase]; rfl) keeps (fun _ _ => rfl) (fun _ _ => rfl) ?_ ?_ ?_
  · intro other isOpen
    cases isOpen
  · obtain ⟨_, row, mem, sameId, sameVersion, _, uploaded, _⟩ := hasRow
    exact ⟨_, mem_modify.mpr (.inr ⟨row, mem, sameId, rfl⟩), sameId, sameVersion, rfl, uploaded⟩
  · intro row mem sameId _
    refine ⟨request, response.version, written, ?_, ?_, ?_, rfl⟩
    all_goals
      rw [show (row.activated response (sha256 written) verifiedSize).id = response.artifactId
        from sameId, ← hasRow.1]
    · exact uploads_enter _
    · rfl
    · exact stored

section

variable {request : PrepareUploadRequest} {response : PrepareUploadResponse} {blob : Option β}
  {announced : δ} (isolated : world.Isolated sha256)
  (phase : world.uploads client = .checked request response blob announced)
include isolated phase

omit [DecidableEq δ] in
theorem World.Isolated.fail {storage : SharedFilesystemStorage β}
    (staging : ∀ path, path ≠ response.path → storage.staging path = world.storage.staging path)
    (permanent : storage.permanent = world.storage.permanent)
    (others : ∀ written, blob = some written → announced ≠ sha256 written) (error : UploadError) :
    (World.commit { world with storage } client response.artifactId
      (fun row => { row with status := .failed }) (.refused blob announced error)
      (.refused blob announced)).Isolated sha256 := by
  have supported := isolated.phases client
  rw [phase] at supported
  rw [isolated.commit_eq supported.1]
  have keeps : KeepsIdentity fun row : GlobalArtifact δ => { row with status := .failed } :=
    ⟨fun _ => rfl, fun _ => rfl, fun _ => rfl, fun _ => rfl⟩
  refine isolated.own supported.1 (by rw [phase]; rfl) keeps staging
    (fun _ _ => congrFun permanent _) ?_ others ?_
  · intro other isOpen
    cases isOpen
  · intro row _ _ isActive
    cases isActive

theorem World.Isolated.verify (nothing : blob = none → world.storage.staging response.path = none) :
    (world.verify client sha256 size request response blob announced).Isolated sha256 := by
  have supported := isolated.phases client
  rw [phase] at supported
  obtain ⟨hasRow, staged⟩ := supported
  rw [World.verify]
  cases blob with
  | none =>
    rw [finalizeUpload_missing size hasRow.1 announced (nothing rfl)]
    refine isolated.fail phase (fun _ _ => rfl) rfl (fun written isBlob => ?_) _
    cases isBlob
  | some written =>
  rw [finalizeUpload_found size hasRow.1 announced (staged written rfl)]
  by_cases matching : sha256 written = announced
  · rw [if_pos matching]
    refine isolated.ownStorage hasRow (by rw [phase]; rfl) ?_ ?_ ?_ ?_
    · intro path other
      exact update_of_ne other _ _
    · intro key other
      exact update_of_ne other _ _
    · intro other isOpen
      exact (Option.some_inj.mp isOpen).symm
    · exact ⟨hasRow, written, rfl, matching.symm, update_self _ _ _⟩
  · rw [if_neg matching]
    refine isolated.fail phase ?_ ?_ ?_ _
    · intro path other
      exact update_of_ne other _ _
    · rfl
    · intro other isBlob same
      cases isBlob
      exact matching same.symm

end

end

/-- The version that a client reads is larger than those there are. -/
theorem lt_nextVersion {artifacts : List (GlobalArtifact δ)}
    (mem : row ∈ artifacts) : row.version < nextVersion artifacts row.artifact := by
  have listed : row.version ∈ (artifacts.filter fun other =>
      other.artifact = row.artifact).map GlobalArtifact.version :=
    mem_map.mpr ⟨row, mem_filter.mpr ⟨mem, decide_eq_true rfl⟩, rfl⟩
  rw [nextVersion]
  cases largest : ((artifacts.filter fun other =>
      other.artifact = row.artifact).map GlobalArtifact.version).max? with
  | none =>
    rw [List.max?_eq_none_iff.mp largest] at listed
    cases listed
  | some latest =>
    exact Nat.lt_succ_of_le ((List.max?_eq_some_iff.mp largest).2 _ listed)

variable {owner attempt version : Nat}

section

variable (isolated : world.Isolated sha256)
include isolated

theorem World.Isolated.readLatest
    (phase : world.uploads client = .numbering request owner attempt) :
    (world.enter client (.inserting request owner attempt
      (nextVersion world.artifacts request.artifact))).Isolated sha256 := by
  refine isolated.enter (working_of_open (by rw [phase]; rfl)) (fun other isOpen => ?_) ?_
  · rw [phase]
    exact isOpen
  · intro row mem same
    rw [← same]
    exact lt_nextVersion mem

theorem World.Isolated.begin (phase : world.uploads client = .idle)
    (alone : ∀ resolved, world.resolve request = .ok resolved → ∀ other, other ≠ client →
      ∀ theirs, (world.uploads other).openRequest = some theirs →
        resolved.artifact ≠ theirs.artifact) :
    (world.begin client request owner).Isolated sha256 := by
  have working : ∀ response blob, world.uploads client ≠ .activated response blob := by
    intro response blob done
    rw [phase] at done
    cases done
  rw [World.begin]
  cases outcome : world.resolve request with
  | error error =>
    refine isolated.enter working (fun other isOpen => ?_) trivial
    cases isOpen
  | ok resolved =>
  have subset : ∀ row ∈ world.artifacts.filter fun row => !row.stale resolved.artifact,
      row ∈ world.artifacts := fun _ mem => (mem_filter.mp mem).1
  have stays : ∀ row ∈ world.artifacts, row.artifact ≠ resolved.artifact ∨ row.status = .active →
      row ∈ world.artifacts.filter fun row => !row.stale resolved.artifact := by
    intro row mem kept
    refine mem_filter.mpr ⟨mem, ?_⟩
    obtain other | isActive := kept
    · simp [GlobalArtifact.stale, other]
    · simp [GlobalArtifact.stale, isActive]
  have leaves : Leaves client world { world with
      artifacts := world.artifacts.filter fun row => !row.stale resolved.artifact } := {
    uploads := fun _ _ => rfl
    rows := fun other apart theirs isTheirs row mem same _ _ => by
      refine stays row mem (.inl ?_)
      rw [same]
      exact (alone resolved outcome other apart theirs isTheirs).symm
    origin := fun _ _ _ _ row mem _ => ⟨row, subset row mem, rfl, rfl⟩
    active := fun row mem isActive => stays row mem (.inr isActive)
    activeOrigin := fun row mem _ _ => subset row mem
    storage := fun _ _ _ _ => ⟨rfl, rfl⟩ }
  refine isolated.step (leaves.enter _) (isolated.ids.sublist (filter_sublist.map _))
    (fun row mem other isOther => isolated.versions row (subset row mem) other
      (subset other isOther)) ?_ ?_ ?_
  · intro other apart open' theirs isOpen isTheirs
    rw [uploads_enter] at isOpen
    cases isOpen
    exact alone resolved outcome other apart theirs isTheirs
  · rw [uploads_enter]
    trivial
  · intro row mem isActive uploaded
    exact absurd uploaded (isolated.noActive working row (subset row mem) isActive)

theorem World.Isolated.insertRow
    (phase : world.uploads client = .inserting request owner attempt version) :
    (World.enter { world with artifacts := world.artifacts ++ [pendingRow request owner version
        (nextId (world.artifacts.map GlobalArtifact.id)) client] } client
      (.prepared request (responseTo request (nextId (world.artifacts.map GlobalArtifact.id))
        version) none)).Isolated sha256 := by
  have later := isolated.phases client
  rw [phase] at later
  have isOpen : (world.uploads client).openRequest = some request := by
    rw [phase]
    rfl
  generalize fresh : nextId (world.artifacts.map GlobalArtifact.id) = artifactId
  have cases' : ∀ row ∈ world.artifacts ++ [pendingRow request owner version artifactId client],
      row ∈ world.artifacts ∨ row = pendingRow request owner version artifactId client := by
    intro row mem
    simpa using mem
  have leaves : Leaves client world { world with
      artifacts := world.artifacts ++ [pendingRow request owner version artifactId client] } := {
    uploads := fun _ _ => rfl
    rows := fun _ _ _ _ row mem _ _ _ => mem_append_left _ mem
    origin := fun other apart theirs isTheirs row mem same => by
      obtain isOld | rfl := cases' row mem
      · exact ⟨row, isOld, rfl, rfl⟩
      · refine absurd same ?_
        exact isolated.apart client other (Ne.symm apart) request theirs isOpen isTheirs
    active := fun row mem _ => mem_append_left _ mem
    activeOrigin := fun row mem isActive _ => by
      obtain isOld | rfl := cases' row mem
      · exact isOld
      · cases isActive
    storage := fun _ _ _ _ => ⟨rfl, rfl⟩ }
  refine isolated.step (leaves.enter _) ?_ ?_ ?_ ?_ ?_
  · exact nodup_concat isolated.ids fresh.symm
  · intro row mem other isOther sameArtifact sameVersion
    obtain isOld | rfl := cases' row mem
    · obtain isOldOther | rfl := cases' other isOther
      · exact isolated.versions row isOld other isOldOther sameArtifact sameVersion
      · exact absurd sameVersion (Nat.ne_of_lt (later row isOld sameArtifact))
    · obtain isOldOther | rfl := cases' other isOther
      · exact absurd sameVersion.symm (Nat.ne_of_lt (later other isOldOther sameArtifact.symm))
      · rfl
  · intro other apart open' theirs isOpen' isTheirs
    rw [uploads_enter] at isOpen'
    cases isOpen'
    exact isolated.apart client other (Ne.symm apart) request theirs isOpen isTheirs
  · rw [uploads_enter]
    refine ⟨⟨rfl, pendingRow request owner version artifactId client, ?_, rfl, rfl, rfl, rfl, rfl⟩,
      fun written isBlob => ?_⟩
    · exact mem_append_right _ (mem_singleton_self _)
    · cases isBlob
  · intro row mem isActive uploaded
    obtain isOld | rfl := cases' row mem
    · exact absurd uploaded (isolated.noActive (working_of_open isOpen) row isOld isActive)
    · cases isActive

theorem World.Isolated.insert
    (phase : world.uploads client = .inserting request owner attempt version) :
    (world.insert client request owner attempt version).Isolated sha256 := by
  have isOpen : (world.uploads client).openRequest = some request := by
    rw [phase]
    rfl
  rw [World.insert]
  split
  case isTrue =>
    split
    case isTrue =>
      refine isolated.enter (working_of_open isOpen) (fun other same => ?_) trivial
      rw [isOpen]
      exact same
    case isFalse =>
      refine isolated.enter (working_of_open isOpen) (fun other same => ?_) trivial
      cases same
  case isFalse =>
    exact isolated.insertRow phase

/-- Giving up. -/
theorem World.Isolated.abandon (isOpen : (world.uploads client).openRequest.isSome) :
    (world.enter client .abandoned).Isolated sha256 := by
  obtain ⟨request, isRequest⟩ := Option.isSome_iff_exists.mp isOpen
  refine isolated.enter (working_of_open isRequest) (fun other same => ?_) trivial
  cases same

end

end

/-- The three steps of a client that finalizes an upload. -/
def finalizing (client : Nat) (announced : δ) : List (Event β δ) :=
  [⟨client, .check announced⟩, ⟨client, .verify⟩, ⟨client, .activate⟩]

section

variable [DecidableEq δ] (sha256 : β → δ) (size : β → Nat)

/-- Clients that stored a blob with the announced checksum are not refused and can finalize, the
versions of active rows are different, and these are bound to what their clients wrote. -/
structure World.Safe (world : World β δ) : Prop where
  accepted : ∀ client blob announced error,
    world.uploads client = .refused (some blob) announced error → announced ≠ sha256 blob
  finalizes : ∀ client request response blob,
    world.uploads client = .prepared request response (some blob) →
      (List.foldl (fun state event => state.step sha256 size event) world
        (finalizing client (sha256 blob))).uploads client = .activated response (some blob)
  versions : ∀ row ∈ world.artifacts, row.status = .active → ∀ other ∈ world.artifacts,
    other.status = .active → row.artifact = other.artifact → row.version = other.version →
      row = other
  bound : ∀ row ∈ world.artifacts, row.status = .active → ∀ client, row.uploader = some client →
    world.Bound sha256 row client
  published : ∀ client response blob, world.uploads client = .activated response blob →
    world.Published client response

/-- A client starts an upload when no other one of the artifact is under way, and one that has
stored no blob finds none from before in its place. -/
def World.Undisturbed (world : World β δ) (event : Event β δ) : Prop :=
  match event.action with
  | .begin request _ => ∀ resolved, world.resolve request = .ok resolved →
      ∀ other, other ≠ event.client → ∀ theirs, (world.uploads other).openRequest = some theirs →
        resolved.artifact ≠ theirs.artifact
  | .verify => ∀ request response announced,
      world.uploads event.client = .checked request response none announced →
        world.storage.staging response.path = none
  | _ => True

variable {sha256 size} {world : World β δ}
  {client : Nat} {request : PrepareUploadRequest} {response : PrepareUploadResponse}
  {blob : Option β}

section

variable (isolated : world.Isolated sha256)
include isolated

theorem World.Isolated.next {event : Event β δ} (undisturbed : world.Undisturbed event) :
    (world.step sha256 size event).Isolated sha256 := by
  obtain ⟨client, action⟩ := event
  rw [World.step]
  split
  case h_1 request owner isAction phase =>
    cases isAction
    exact isolated.begin phase undisturbed
  case h_2 request owner attempt isAction phase => exact isolated.readLatest phase
  case h_3 request owner attempt version isAction phase => exact isolated.insert phase
  case h_4 blob request response earlier isAction phase => exact isolated.write phase blob
  case h_5 announced request response blob isAction phase => exact isolated.check phase announced
  case h_6 request response blob announced isAction phase =>
    cases isAction
    refine isolated.verify size phase fun nothing => ?_
    subst nothing
    exact undisturbed request response announced phase
  case h_7 request response blob announced verifiedSize isAction phase =>
    exact isolated.activate phase
  case h_8 phase isAction isPhase =>
    split
    case isTrue isOpen => exact isolated.abandon isOpen
    case isFalse => exact isolated
  case h_9 => exact isolated

theorem World.Isolated.checks (size : β → Nat)
    (phase : world.uploads client = .prepared request response blob) (announced : δ) :
    (world.step sha256 size ⟨client, .check announced⟩).uploads client =
      .checked request response blob announced := by
  have supported := isolated.phases client
  rw [phase] at supported
  simp only [World.step, phase]
  rw [isolated.check_eq supported.1]
  exact uploads_enter _

theorem World.Isolated.verifies (size : β → Nat) {blob : β}
    (phase : world.uploads client = .checked request response (some blob) (sha256 blob)) :
    (world.step sha256 size ⟨client, .verify⟩).uploads client =
      .verified request response (some blob) (sha256 blob) (size blob) := by
  have supported := isolated.phases client
  rw [phase] at supported
  simp only [World.step, phase, World.verify]
  rw [finalizeUpload_found size supported.1.1 (sha256 blob) (supported.2 blob rfl), if_pos rfl]
  exact uploads_enter _

theorem World.Isolated.activates (size : β → Nat) {announced : δ} {verifiedSize : Nat}
    (phase : world.uploads client = .verified request response blob announced verifiedSize) :
    (world.step sha256 size ⟨client, .activate⟩).uploads client = .activated response blob := by
  have supported := isolated.phases client
  rw [phase] at supported
  simp only [World.step, phase]
  rw [isolated.commit_eq supported.1 _ world.storage]
  exact uploads_enter _

theorem World.Isolated.finalizes {blob : β}
    (phase : world.uploads client = .prepared request response (some blob)) :
    (List.foldl (fun state event => World.step state sha256 size event) world
      (finalizing client (sha256 blob))).uploads client = .activated response (some blob) := by
  have checked := isolated.checks size phase (sha256 blob)
  have afterCheck : (world.step sha256 size ⟨client, .check (sha256 blob)⟩).Isolated sha256 :=
    isolated.next trivial
  have verified := afterCheck.verifies size checked
  have stored : (world.step sha256 size ⟨client, .check (sha256 blob)⟩).Undisturbed
      ⟨client, .verify⟩ := by
    intro _ _ _ nothing
    rw [checked] at nothing
    cases nothing
  exact (afterCheck.next stored).activates size verified

theorem World.Isolated.safe : world.Safe sha256 size where
  accepted client blob announced error phase := by
    have supported := isolated.phases client
    rw [phase] at supported
    exact supported blob rfl
  finalizes client _ _ _ phase := isolated.finalizes phase
  versions row mem _ other isOther _ := isolated.versions row mem other isOther
  bound := isolated.bound
  published client response blob phase := by
    have supported := isolated.phases client
    rw [phase] at supported
    exact supported

end

structure World.Quiet (world : World β δ) : Prop where
  idle : ∀ client, world.uploads client = .idle
  ids : (world.artifacts.map GlobalArtifact.id).Nodup
  versions : ∀ row ∈ world.artifacts, ∀ other ∈ world.artifacts,
    row.artifact = other.artifact → row.version = other.version → row = other
  uploaders : ∀ row ∈ world.artifacts, row.uploader = none

omit [DecidableEq δ] in
/-- Before the first upload nothing is amiss. -/
theorem World.Quiet.isolated (quiet : world.Quiet) : world.Isolated sha256 where
  ids := quiet.ids
  versions := quiet.versions
  apart first _ _ request _ isOpen _ := by
    rw [quiet.idle first] at isOpen
    cases isOpen
  phases client := by
    rw [quiet.idle client]
    trivial
  bound row mem _ client uploaded := by
    rw [quiet.uploaders row mem] at uploaded
    cases uploaded

end

/-- A database with one flow and no artifacts, whose clients have not started. Blobs are texts that
are their own checksums. -/
def emptyWorld : World String String where
  registrations := [⟨1, none⟩]
  namespaces := []
  artifacts := []
  storage := ⟨fun _ => none, fun _ => none⟩
  uploads := fun _ => .idle

theorem emptyWorld_quiet : emptyWorld.Quiet where
  idle _ := rfl
  ids := nodup_nil
  versions _ mem := absurd mem not_mem_nil
  uploaders _ mem := absurd mem not_mem_nil

def modelRequest : PrepareUploadRequest :=
  ⟨"model", 1, "pickle", none⟩

abbrev textStep (world : World String String) (event : Event String String) : World String String :=
  world.step id String.length event

def wholeUpload (client : Nat) (blob : String) : List (Event String String) :=
  [⟨client, .begin modelRequest 1⟩, ⟨client, .readLatest⟩, ⟨client, .insert⟩,
    ⟨client, .write blob⟩] ++ finalizing client blob

/-- A client prepares an upload and stores its blob, after another one has prepared an upload of the
same artifact. -/
def twoUploads : List (Event String String) :=
  [⟨0, .begin modelRequest 1⟩, ⟨0, .readLatest⟩, ⟨0, .insert⟩,
    ⟨1, .begin modelRequest 2⟩, ⟨1, .readLatest⟩, ⟨1, .insert⟩, ⟨0, .write "first"⟩] ++
    finalizing 0 "first" ++ [⟨1, .write "second"⟩] ++ finalizing 1 "second"

end Flowfile.GlobalArtifacts
