import Flowfile.Library.EventRuns
import Flowfile.Library.RowIds

/-!
# Uploads of global artifacts

An upload has two requests. The first prepares it: rows of the same artifact that were left behind
are deleted, the next version is read, and a pending row is inserted; if somebody else took the
version meanwhile, the constraint of the database refuses the row, and the version is read again.
The client then writes its blob, and the second request finalizes the upload: the row has to be
pending, the blob is checked against the announced checksum and moved to permanent storage, and the
row is activated.

Each of these is a step of its own here, so that the steps of several clients may come in any order.
What is left behind is told from its status only: a row is deleted as stale while its client is
still writing, and its id may go to the next row. Checksums and sizes are given by functions.
-/

namespace Flowfile.GlobalArtifacts

open Library.RowIds

variable {β δ : Type}

inductive ArtifactStatus where
  | pending
  | active
  | failed
  | deleted
deriving DecidableEq

/-- What a client asks for. -/
structure PrepareUploadRequest where
  name : String
  sourceRegistrationId : Nat
  serializationFormat : String
  namespaceId : Option Nat
deriving DecidableEq

/-- A row. The client that prepared it is remembered besides what the source stores; rows from
before have none. -/
structure GlobalArtifact (δ : Type) where
  id : Nat
  name : String
  namespaceId : Option Nat
  version : Nat
  status : ArtifactStatus
  ownerId : Nat
  sourceRegistrationId : Nat
  serializationFormat : String
  storageKey : Option String
  sizeBytes : Option Nat
  sha256 : Option δ
  uploader : Option Nat

def GlobalArtifact.artifact (row : GlobalArtifact δ) : String × Option Nat :=
  (row.name, row.namespaceId)

def PrepareUploadRequest.artifact (request : PrepareUploadRequest) : String × Option Nat :=
  (request.name, request.namespaceId)

structure FlowRegistration where
  id : Nat
  namespaceId : Option Nat

/-- Blobs that clients wrote, and those that were finalized, by their paths. -/
structure SharedFilesystemStorage (β : Type) where
  staging : String → Option β
  permanent : String → Option β

structure UploadTarget where
  path : String
  storageKey : String

def stagingPath (artifactId filename : String) : String :=
  artifactId ++ "_" ++ filename

def prepareTarget (artifactId : Nat) (filename : String) : UploadTarget where
  path := stagingPath (toString artifactId) filename
  storageKey := toString artifactId ++ "/" ++ filename

/-- The parts of a storage key before and after its first slash. -/
def splitStorageKey (storageKey : String) : Option (String × String) :=
  if '/' ∈ storageKey.toList then
    some (.ofList (storageKey.toList.takeWhile (· ≠ '/')),
      .ofList ((storageKey.toList.dropWhile (· ≠ '/')).drop 1))
  else none

inductive StorageError where
  | fileNotFound
  | valueError
deriving DecidableEq

section

variable [DecidableEq δ] (sha256 : β → δ) (size : β → Nat)

/-- Check a blob and move it. One that fails the check is removed. -/
def SharedFilesystemStorage.finalizeUpload (storage : SharedFilesystemStorage β)
    (storageKey : String) (expectedSha256 : δ) :
    SharedFilesystemStorage β × Except StorageError Nat :=
  match splitStorageKey storageKey with
  | none => (storage, .error .valueError)
  | some (artifactId, filename) =>
    let path := stagingPath artifactId filename
    match storage.staging path with
    | none => (storage, .error .fileNotFound)
    | some blob =>
      if sha256 blob = expectedSha256 then
        ({ staging := Function.update storage.staging path none
           permanent := Function.update storage.permanent storageKey (some blob) },
          .ok (size blob))
      else
        ({ storage with staging := Function.update storage.staging path none }, .error .valueError)

end

inductive UploadError where
  | flowNotFound (registrationId : Nat)
  | namespaceNotFound (namespaceId : Nat)
  | versionConflicts
  | artifactNotFound (artifactId : Nat)
  | artifactState (artifactId : Nat) (status : ArtifactStatus)
  | storage (artifactId : Nat) (error : StorageError)
  | staleRow (artifactId : Nat)
deriving DecidableEq

structure PrepareUploadResponse where
  artifactId : Nat
  version : Nat
  path : String
  storageKey : String
deriving DecidableEq

/-- How far the upload of a client is. -/
inductive Phase (β δ : Type) where
  | idle
  | numbering (request : PrepareUploadRequest) (owner attempt : Nat)
  | inserting (request : PrepareUploadRequest) (owner attempt version : Nat)
  | prepared (request : PrepareUploadRequest) (response : PrepareUploadResponse) (blob : Option β)
  | checked (request : PrepareUploadRequest) (response : PrepareUploadResponse) (blob : Option β)
      (announced : δ)
  | verified (request : PrepareUploadRequest) (response : PrepareUploadResponse) (blob : Option β)
      (announced : δ) (verifiedSize : Nat)
  | activated (response : PrepareUploadResponse) (blob : Option β)
  | rejected (error : UploadError)
  | refused (blob : Option β) (announced : δ) (error : UploadError)
  | abandoned
deriving DecidableEq

def Phase.openRequest : Phase β δ → Option PrepareUploadRequest
  | .numbering request _ _ => some request
  | .inserting request _ _ _ => some request
  | .prepared request _ _ => some request
  | .checked request _ _ _ => some request
  | .verified request _ _ _ _ => some request
  | _ => none

/-- The database, the storage, and the clients. -/
structure World (β δ : Type) where
  registrations : List FlowRegistration
  namespaces : List Nat
  artifacts : List (GlobalArtifact δ)
  storage : SharedFilesystemStorage β
  uploads : Nat → Phase β δ

/-- The next step of a client. -/
inductive Action (β δ : Type) where
  | begin (request : PrepareUploadRequest) (owner : Nat)
  | readLatest
  | insert
  | write (blob : β)
  | check (sha256 : δ)
  | verify
  | activate
  | abandon

/-- A client and its next step. -/
structure Event (β δ : Type) where
  client : Nat
  action : Action β δ

section

variable (world : World β δ) (client : Nat)

def World.enter (phase : Phase β δ) : World β δ :=
  { world with uploads := Function.update world.uploads client phase }

def World.resolve (request : PrepareUploadRequest) : Except UploadError PrepareUploadRequest :=
  match world.registrations.find? fun row => row.id = request.sourceRegistrationId with
  | none => .error (.flowNotFound request.sourceRegistrationId)
  | some registration =>
    match request.namespaceId.or registration.namespaceId with
    | none => .ok { request with namespaceId := none }
    | some namespaceId =>
      if namespaceId ∈ world.namespaces then .ok { request with namespaceId := some namespaceId }
      else .error (.namespaceNotFound namespaceId)

/-- A row of the artifact that is taken to be left behind. -/
def GlobalArtifact.stale (row : GlobalArtifact δ) (artifact : String × Option Nat) : Bool :=
  row.artifact = artifact && (row.status = .pending || row.status = .failed)

def World.begin (request : PrepareUploadRequest) (owner : Nat) : World β δ :=
  match world.resolve request with
  | .error error => world.enter client (.rejected error)
  | .ok resolved =>
    { world with artifacts := world.artifacts.filter fun row => !row.stale resolved.artifact }.enter
      client (.numbering resolved owner 0)

def nextVersion (artifacts : List (GlobalArtifact δ)) (artifact : String × Option Nat) : Nat :=
  match ((artifacts.filter fun row => row.artifact = artifact).map GlobalArtifact.version).max? with
  | none => 1
  | some latest => latest + 1

/-- The unique constraint refuses a version that is there, unless the artifact has no namespace. -/
def conflicts (artifacts : List (GlobalArtifact δ)) (artifact : String × Option Nat)
    (version : Nat) : Bool :=
  artifact.2.isSome && artifacts.any fun row => row.artifact = artifact && row.version = version

def maxRetries : Nat :=
  3

def extension (serializationFormat : String) : String :=
  if serializationFormat = "parquet" then ".parquet"
  else if serializationFormat = "joblib" then ".joblib"
  else if serializationFormat = "pickle" then ".pkl"
  else ".bin"

def PrepareUploadRequest.filename (request : PrepareUploadRequest) : String :=
  request.name ++ extension request.serializationFormat

/-- What is answered to a request whose row was inserted. -/
def responseTo (request : PrepareUploadRequest) (artifactId version : Nat) :
    PrepareUploadResponse :=
  let target := prepareTarget artifactId request.filename
  ⟨artifactId, version, target.path, target.storageKey⟩

def pendingRow (request : PrepareUploadRequest) (owner version artifactId client : Nat) :
    GlobalArtifact δ where
  id := artifactId
  name := request.name
  namespaceId := request.namespaceId
  version := version
  status := .pending
  ownerId := owner
  sourceRegistrationId := request.sourceRegistrationId
  serializationFormat := request.serializationFormat
  storageKey := none
  sizeBytes := none
  sha256 := none
  uploader := some client

def World.insert (request : PrepareUploadRequest) (owner attempt version : Nat) : World β δ :=
  if conflicts world.artifacts request.artifact version then
    if attempt + 1 < maxRetries then
      world.enter client (.numbering request owner (attempt + 1))
    else world.enter client (.rejected .versionConflicts)
  else
    let artifactId := nextId (world.artifacts.map GlobalArtifact.id)
    { world with artifacts :=
        world.artifacts ++ [pendingRow request owner version artifactId client] }.enter client
      (.prepared request (responseTo request artifactId version) none)

def World.modify (artifactId : Nat) (change : GlobalArtifact δ → GlobalArtifact δ) : World β δ :=
  { world with artifacts :=
      world.artifacts.map fun row => if row.id = artifactId then change row else row }

def World.getArtifact (artifactId : Nat) : Option (GlobalArtifact δ) :=
  world.artifacts.find? fun row => row.id = artifactId

def World.check (request : PrepareUploadRequest) (response : PrepareUploadResponse)
    (blob : Option β) (announced : δ) : World β δ :=
  match world.getArtifact response.artifactId with
  | none => world.enter client (.refused blob announced (.artifactNotFound response.artifactId))
  | some row =>
    if row.status = .pending then world.enter client (.checked request response blob announced)
    else
      world.enter client (.refused blob announced (.artifactState response.artifactId row.status))

def World.commit (artifactId : Nat) (change : GlobalArtifact δ → GlobalArtifact δ)
    (phase : Phase β δ) (refusal : UploadError → Phase β δ) : World β δ :=
  if (world.getArtifact artifactId).isSome then
    (world.modify artifactId change).enter client phase
  else world.enter client (refusal (.staleRow artifactId))

variable [DecidableEq δ] (sha256 : β → δ) (size : β → Nat)

def World.verify (request : PrepareUploadRequest) (response : PrepareUploadResponse)
    (blob : Option β) (announced : δ) : World β δ :=
  match world.storage.finalizeUpload sha256 size response.storageKey announced with
  | (storage, .ok verifiedSize) =>
    { world with storage }.enter client (.verified request response blob announced verifiedSize)
  | (storage, .error error) =>
    { world with storage }.commit client response.artifactId
      (fun row => { row with status := .failed })
      (.refused blob announced (.storage response.artifactId error)) (.refused blob announced)

def GlobalArtifact.activated (response : PrepareUploadResponse) (announced : δ)
    (verifiedSize : Nat) (row : GlobalArtifact δ) : GlobalArtifact δ :=
  { row with
    status := .active
    storageKey := some response.storageKey
    sha256 := some announced
    sizeBytes := some verifiedSize }

def World.step (event : Event β δ) : World β δ :=
  match event.action, world.uploads event.client with
  | .begin request owner, .idle => world.begin event.client request owner
  | .readLatest, .numbering request owner attempt =>
    world.enter event.client
      (.inserting request owner attempt (nextVersion world.artifacts request.artifact))
  | .insert, .inserting request owner attempt version =>
    world.insert event.client request owner attempt version
  | .write blob, .prepared request response _ =>
    { world with storage := { world.storage with
        staging := Function.update world.storage.staging response.path (some blob) } }.enter
      event.client (.prepared request response (some blob))
  | .check announced, .prepared request response blob =>
    world.check event.client request response blob announced
  | .verify, .checked request response blob announced =>
    world.verify event.client sha256 size request response blob announced
  | .activate, .verified _ response blob announced verifiedSize =>
    world.commit event.client response.artifactId
      (GlobalArtifact.activated response announced verifiedSize)
      (.activated response blob) (.refused blob announced)
  | .abandon, phase =>
    if phase.openRequest.isSome then world.enter event.client .abandoned else world
  | _, _ => world

end

end Flowfile.GlobalArtifacts
