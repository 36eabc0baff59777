import Flowfile.Library.Dictionaries
import Flowfile.Library.EventRuns
import Mathlib.Logic.Function.Basic

/-!
# The artifact store of a kernel

A kernel keeps what its nodes publish in memory, under flow and name, and on disk, in a directory
for each artifact. After a restart the artifacts are read back at once, or an index of them is built
and each is read when it is asked for. The directory of an artifact has its name with the characters
replaced that a file system may refuse, so that different names can share a directory.

The store holds exactly what was published and neither deleted nor cleared, along every run in which
no artifact is published whose directory has an empty name or is that of another artifact held by
its flow.
-/

namespace Flowfile.ArtifactStore

open Function Library.Dictionaries Library.EventRuns List
open Dictionary (get_set get_erase get_keep mem_entries_iff get_cons mem_keys_iff get_empty)

/-- Flow and name. -/
abbrev Key := Int × String

/-- The directory of a flow, and one in it. The empty name stands for the first itself. -/
abbrev Place := Int × String

/-- What is told about an object besides who published it. -/
structure Description where
  typeName : String
  moduleName : String
  sizeBytes : Nat

structure Metadata where
  name : String
  nodeId : Int
  flowId : Int
  description : Description

structure Artifact (α : Type) where
  object : α
  metadata : Metadata

inductive StoreError where
  | alreadyExists (name : String) (publisher : Int)
  | notFound (name : String)
  | notLoaded (name : String)

/-- Errors by which an artifact is reported missing. -/
def StoreError.isKeyError : StoreError → Bool
  | .alreadyExists _ _ => false
  | .notFound _ => true
  | .notLoaded _ => true

structure Store (α : Type) where
  artifacts : Dictionary Key (Artifact α)
  lazyIndex : Dictionary Key Metadata
  disk : Dictionary Place (Artifact α)

/-- A kernel that starts for the first time. -/
def Store.initial {α : Type} : Store α := ⟨.empty, .empty, .empty⟩

/-- The name of a directory. Characters that are neither of a word nor a dash nor a dot become
underscores, and leading dots go. -/
def safeDirname (isWord : Char → Bool) (name : String) : String :=
  let safe := name.toList.map fun c => if isWord c || c = '-' || c = '.' then c else '_'
  String.ofList (safe.dropWhile (· = '.'))

variable {α : Type} (isWord : Char → Bool) (describe : α → Description)

def artifactDir (key : Key) : Place :=
  (key.1, safeDirname isWord key.2)

variable (disk : Dictionary Place (Artifact α))

def save (key : Key) (artifact : Artifact α) : Dictionary Place (Artifact α) :=
  disk.set (artifactDir isWord key) artifact

def load (key : Key) : Option α :=
  (disk.get (artifactDir isWord key)).map Artifact.object

/-- Remove the directory of an artifact. The directory of the flow goes with all in it. -/
def deletePersisted (key : Key) : Dictionary Place (Artifact α) :=
  if safeDirname isWord key.2 = "" then disk.keep fun place _ => place.1 ≠ key.1
  else disk.erase (artifactDir isWord key)

def clearPersisted : Option Int → Dictionary Place (Artifact α)
  | none => .empty
  | some flowId => disk.keep fun place _ => place.1 ≠ flowId

/-- What the directories of the flows hold, under the names that are written there. -/
def listPersisted : Dictionary Key Metadata :=
  Dictionary.empty.setAll ((disk.keep fun place _ => place.2 ≠ "").entries.map fun entry =>
    ((entry.1.1, entry.2.metadata.name), entry.2.metadata))

/-- Read one artifact that was found on disk, unless it is in memory. -/
def recover (artifacts : Dictionary Key (Artifact α))
    (entry : Key × Metadata) : Dictionary Key (Artifact α) :=
  if (artifacts.get entry.1).isSome then artifacts
  else
    match load isWord disk entry.1 with
    | none => artifacts
    | some object => artifacts.set entry.1
        ⟨object, { entry.2 with name := entry.1.2, flowId := entry.1.1 }⟩

variable (store : Store α)

def recoverAll : Store α :=
  { store with artifacts :=
      (listPersisted store.disk).entries.foldl (recover isWord store.disk) store.artifacts }

def buildLazyIndex : Store α :=
  { store with lazyIndex := store.lazyIndex.setAll ((listPersisted store.disk).entries.filter
      fun entry => (store.artifacts.get entry.1).isNone) }

inductive RecoveryMode where
  | lazily
  | eagerly

/-- A kernel starts again with what is on disk. -/
def restart : RecoveryMode → Store α
  | .lazily => buildLazyIndex ⟨.empty, .empty, store.disk⟩
  | .eagerly => recoverAll isWord ⟨.empty, .empty, store.disk⟩

def publish (name : String) (object : α) (nodeId flowId : Int) : Except StoreError Unit × Store α :=
  match store.artifacts.get (flowId, name) with
  | some existing => (.error (.alreadyExists name existing.metadata.nodeId), store)
  | none =>
    let artifact : Artifact α := ⟨object, ⟨name, nodeId, flowId, describe object⟩⟩
    (.ok (), ⟨store.artifacts.set (flowId, name) artifact, store.lazyIndex.erase (flowId, name),
        save isWord store.disk (flowId, name) artifact⟩)

def delete (name : String) (flowId : Int) : Except StoreError Unit × Store α :=
  if (store.artifacts.get (flowId, name)).isNone && (store.lazyIndex.get (flowId, name)).isNone then
    (.error (.notFound name), store)
  else
    (.ok (), ⟨store.artifacts.erase (flowId, name), store.lazyIndex.erase (flowId, name),
        deletePersisted isWord store.disk (flowId, name)⟩)

def tryLazyLoad (key : Key) (metadata : Metadata) : Except StoreError α × Store α :=
  match load isWord store.disk key with
  | none =>
    (.error (.notLoaded key.2),
      { store with lazyIndex := (store.lazyIndex.erase key).set key metadata })
  | some object =>
    (.ok object, { store with
        artifacts := store.artifacts.set key
          ⟨object, { metadata with name := key.2, flowId := key.1 }⟩
        lazyIndex := store.lazyIndex.erase key })

def get (name : String) (flowId : Int) : Except StoreError α × Store α :=
  match store.artifacts.get (flowId, name) with
  | some artifact => (.ok artifact.object, store)
  | none =>
    match store.lazyIndex.get (flowId, name) with
    | none => (.error (.notFound name), store)
    | some metadata => tryLazyLoad isWord store (flowId, name) metadata

def ofFlow (flowId : Option Int) (key : Key) : Bool :=
  match flowId with
  | none => true
  | some id => key.1 = id

def clear (flowId : Option Int) : Store α :=
  ⟨store.artifacts.keep fun key _ => !ofFlow flowId key,
    store.lazyIndex.keep fun key _ => !ofFlow flowId key, clearPersisted store.disk flowId⟩

/-- Remove what some nodes published, and tell the names. -/
def clearByNodeIds (nodeIds : List Int) (flowId : Option Int) : List String × Store α :=
  let gone := fun key (metadata : Metadata) => metadata.nodeId ∈ nodeIds && ofFlow flowId key
  let removed := store.artifacts.keep fun key artifact => gone key artifact.metadata
  let lazyRemoved := store.lazyIndex.keep gone
  let names := removed.entries.map fun entry => entry.2.metadata.name
  (lazyRemoved.entries.foldl (fun names entry =>
      if entry.2.name ∈ names then names else names ++ [entry.2.name]) names,
    ⟨store.artifacts.keep fun key artifact => !gone key artifact.metadata,
      store.lazyIndex.keep fun key metadata => !gone key metadata,
      (removed.entries.map Prod.fst ++ lazyRemoved.entries.map Prod.fst).foldl
        (deletePersisted isWord) store.disk⟩)

inductive Operation (α : Type) where
  | publish (name : String) (object : α) (nodeId flowId : Int)
  | get (name : String) (flowId : Int)
  | delete (name : String) (flowId : Int)
  | clear (flowId : Option Int)
  | clearByNodeIds (nodeIds : List Int) (flowId : Option Int)
  | restart (mode : RecoveryMode)

def errorOf {β : Type} : Except StoreError β → Option StoreError
  | .error error => some error
  | .ok _ => none

def perform : Operation α → Option StoreError × Store α
  | .publish name object nodeId flowId =>
    let outcome := publish isWord describe store name object nodeId flowId
    (errorOf outcome.1, outcome.2)
  | .get name flowId =>
    let outcome := get isWord store name flowId
    (errorOf outcome.1, outcome.2)
  | .delete name flowId =>
    let outcome := delete isWord store name flowId
    (errorOf outcome.1, outcome.2)
  | .clear flowId => (none, clear store flowId)
  | .clearByNodeIds nodeIds flowId => (none, (clearByNodeIds isWord store nodeIds flowId).2)
  | .restart mode => (none, restart isWord store mode)

/-- What was published last under each flow and name and by which node, where it was not deleted or
cleared since. -/
abbrev Published (α : Type) := Key → Option (α × Int)

def record (published : Published α) (error : Option StoreError) : Operation α → Published α
  | .publish name object nodeId flowId =>
    if error.isNone then update published (flowId, name) (some (object, nodeId))
    else published
  | .get _ _ => published
  | .delete name flowId =>
    if error.isNone then update published (flowId, name) none else published
  | .clear flowId => fun key => if ofFlow flowId key then none else published key
  | .clearByNodeIds nodeIds flowId => fun key =>
    (published key).filter fun entry => !(entry.2 ∈ nodeIds && ofFlow flowId key)
  | .restart _ => published

structure Session (α : Type) where
  store : Store α
  published : Published α

def Session.initial : Session α := ⟨.initial, fun _ => none⟩

def Session.step (session : Session α) (operation : Operation α) : Session α :=
  let outcome := perform isWord describe session.store operation
  ⟨outcome.2, record session.published outcome.1 operation⟩

/-- What a caller gets is what was published, and a missing artifact is reported as such. -/
def Session.Faithful (session : Session α) : Prop :=
  ∀ flowId name,
    match session.published (flowId, name) with
    | some (object, _) => (get isWord session.store name flowId).1 = .ok object
    | none => ∃ error, (get isWord session.store name flowId).1 = .error error ∧ error.isKeyError

/-- No artifact held by a flow shares its directory with another one that is published, whose
directory has a name. -/
def Session.Separate (session : Session α) : Operation α → Prop
  | .publish name _ _ flowId =>
    safeDirname isWord name ≠ "" ∧ ∀ other, (session.published (flowId, other)).isSome →
      safeDirname isWord other = safeDirname isWord name → other = name
  | _ => True

def Store.held (key : Key) : Option (α × Int) :=
  match store.artifacts.get key with
  | some artifact => some (artifact.object, artifact.metadata.nodeId)
  | none =>
    (store.lazyIndex.get key).bind fun metadata =>
      (load isWord store.disk key).map fun object => (object, metadata.nodeId)

/-- A store holds what was published, in memory or indexed and not both, each artifact has a
directory of its own, and there are no other directories. -/
structure Session.Matches (session : Session α) : Prop where
  held : ∀ key, session.store.held isWord key = session.published key
  apart : ∀ key, (session.store.artifacts.get key).isSome → session.store.lazyIndex.get key = none
  indexed : ∀ key, (session.store.lazyIndex.get key).isSome → (session.published key).isSome
  backed : ∀ key object nodeId, session.published key = some (object, nodeId) →
    safeDirname isWord key.2 ≠ "" ∧
    ∃ artifact, session.store.disk.get (artifactDir isWord key) = some artifact ∧
      artifact.object = object ∧ artifact.metadata.nodeId = nodeId ∧
      artifact.metadata.name = key.2
  stored : ∀ place artifact, session.store.disk.get place = some artifact →
    (session.published (place.1, artifact.metadata.name)).isSome ∧
      artifactDir isWord (place.1, artifact.metadata.name) = place

variable {object : α} {nodeId : Int} {place : Place}

section

variable {isWord describe} {session : Session α}

theorem matches_initial : (Session.initial : Session α).Matches isWord where
  held _ := rfl
  apart _ _ := rfl
  indexed _ impossible := by simp [Session.initial, Store.initial] at impossible
  backed _ _ _ impossible := by cases impossible
  stored _ _ impossible := by cases impossible

/-- Artifacts that are held do not share directories. -/
theorem Session.Matches.home_injective (matched : session.Matches isWord) {first second : Key}
    (one : (session.published first).isSome) (other : (session.published second).isSome)
    (same : artifactDir isWord first = artifactDir isWord second) : first = second := by
  obtain ⟨⟨object, nodeId⟩, found⟩ := Option.isSome_iff_exists.mp one
  obtain ⟨⟨object', nodeId'⟩, found'⟩ := Option.isSome_iff_exists.mp other
  obtain ⟨-, artifact, onDisk, -, -, name⟩ := matched.backed first object nodeId found
  obtain ⟨-, artifact', onDisk', -, -, name'⟩ := matched.backed second object' nodeId' found'
  rw [same, onDisk'] at onDisk
  cases onDisk
  have flow := congrArg Prod.fst same
  exact Prod.ext flow (name.symm.trans name')

variable {key : Key}

section

variable (matched : session.Matches isWord)
include matched

/-- An artifact that is held can be read from disk. -/
theorem Session.Matches.load_eq (found : session.published key = some (object, nodeId)) :
    load isWord session.store.disk key = some object := by
  obtain ⟨-, artifact, onDisk, rfl, -⟩ := matched.backed key object nodeId found
  simp [load, onDisk]

/-- Nothing is in memory or in the index that is not held. -/
theorem Session.Matches.absent (missing : session.published key = none) :
    session.store.artifacts.get key = none ∧ session.store.lazyIndex.get key = none := by
  have held := matched.held key
  rw [missing, Store.held] at held
  constructor
  · cases found : session.store.artifacts.get key with
    | none => rfl
    | some artifact => simp [found] at held
  · cases found : session.store.lazyIndex.get key with
    | none => rfl
    | some metadata =>
      have present := matched.indexed key (by simp [found])
      simp [missing] at present

theorem Session.Matches.present (found : session.published key = some (object, nodeId)) :
    (∃ artifact, session.store.artifacts.get key = some artifact ∧ artifact.object = object ∧
        artifact.metadata.nodeId = nodeId) ∨
      session.store.artifacts.get key = none ∧
        ∃ metadata, session.store.lazyIndex.get key = some metadata ∧ metadata.nodeId = nodeId := by
  have held := matched.held key
  rw [found, Store.held] at held
  cases inMemory : session.store.artifacts.get key with
  | some artifact =>
    simp only [inMemory, Option.some.injEq, Prod.mk.injEq] at held
    exact .inl ⟨artifact, rfl, held⟩
  | none =>
    simp only [inMemory, Option.bind_eq_some_iff, Option.map_eq_some_iff, Prod.mk.injEq] at held
    obtain ⟨metadata, indexed, _, _, _, same⟩ := held
    exact .inr ⟨rfl, metadata, indexed, same⟩

theorem Session.Matches.faithful : session.Faithful isWord := by
  intro flowId name
  cases found : session.published (flowId, name) with
  | none =>
    obtain ⟨inMemory, indexed⟩ := matched.absent found
    exact ⟨.notFound name, by simp [get, inMemory, indexed], rfl⟩
  | some entry =>
  obtain ⟨object, nodeId⟩ := entry
  rcases matched.present found with
    ⟨artifact, inMemory, rfl, -⟩ | ⟨inMemory, metadata, indexed, -⟩
  · simp [get, inMemory]
  · simp [get, inMemory, indexed, tryLazyLoad, matched.load_eq found]

theorem Session.Matches.apart_set (key : Key) (artifact : Artifact α) (other : Key)
    (inMemory : ((session.store.artifacts.set key artifact).get other).isSome) :
    (session.store.lazyIndex.erase key).get other = none := by
  by_cases same : other = key
  · simp [same]
  · simp only [get_set, if_neg same] at inMemory
    simpa [same] using matched.apart other inMemory

theorem Session.Matches.indexed_erase (other : Key)
    (indexed : ((session.store.lazyIndex.erase key).get other).isSome) :
    other ≠ key ∧ (session.published other).isSome := by
  by_cases same : other = key
  · simp [same] at indexed
  · simp only [get_erase, if_neg same] at indexed
    exact ⟨same, matched.indexed other indexed⟩

theorem Session.Matches.publish (artifact : Artifact α)
    (key : Key) (named : artifact.metadata.name = key.2) (home : safeDirname isWord key.2 ≠ "")
    (separate : ∀ other, (session.published other).isSome →
      artifactDir isWord other = artifactDir isWord key → other = key) :
    Session.Matches isWord
      ⟨⟨session.store.artifacts.set key artifact, session.store.lazyIndex.erase key,
          save isWord session.store.disk key artifact⟩,
        update session.published key (some (artifact.object, artifact.metadata.nodeId))⟩ where
  held other := by
    by_cases same : other = key
    · subst same
      simp [Store.held]
    dsimp only
    rw [update_of_ne same, ← matched.held other]
    simp only [Store.held, get_set, get_erase, if_neg same]
    cases inMemory : session.store.artifacts.get other with
    | some stored => rfl
    | none =>
    cases indexed : session.store.lazyIndex.get other with
    | none => rfl
    | some metadata =>
      have apart : artifactDir isWord other ≠ artifactDir isWord key := fun shared =>
        same (separate other (matched.indexed other (by simp [indexed])) shared)
      simp [load, save, apart]
  apart := matched.apart_set key artifact
  indexed other indexed := by
    obtain ⟨same, present⟩ := matched.indexed_erase other indexed
    simpa [same] using present
  backed other object nodeId found := by
    by_cases same : other = key
    · subst same
      simp only [update_self, Option.some.injEq, Prod.mk.injEq] at found
      exact ⟨home, artifact, by simp [save], found.1, found.2, named⟩
    dsimp only at found
    rw [update_of_ne same] at found
    obtain ⟨homeOther, stored, onDisk, rest⟩ := matched.backed other object nodeId found
    have apart : artifactDir isWord other ≠ artifactDir isWord key := fun shared =>
      same (separate other (by simp [found]) shared)
    exact ⟨homeOther, stored, by simp [save, apart, onDisk], rest⟩
  stored place stored onDisk := by
    simp only [save, get_set] at onDisk
    split at onDisk
    case isTrue here =>
      cases onDisk
      subst here
      simp [named, artifactDir]
    case isFalse apart =>
      obtain ⟨present, homeHere⟩ := matched.stored place stored onDisk
      refine ⟨?_, homeHere⟩
      by_cases same : (place.1, stored.metadata.name) = key
      · simp [same]
      · simpa [update_of_ne same] using present

theorem Session.Matches.remove (gone : Key → Int → Bool)
    (disk : Dictionary Place (Artifact α)) (subset : ∀ place artifact,
      disk.get place = some artifact → session.store.disk.get place = some artifact)
    (kept : ∀ key object nodeId, session.published key = some (object, nodeId) →
      gone key nodeId = false →
        disk.get (artifactDir isWord key) = session.store.disk.get (artifactDir isWord key))
    (dropped : ∀ key object nodeId, session.published key = some (object, nodeId) →
      gone key nodeId = true → disk.get (artifactDir isWord key) = none) :
    Session.Matches isWord
      ⟨⟨session.store.artifacts.keep fun key artifact => !gone key artifact.metadata.nodeId,
          session.store.lazyIndex.keep fun key metadata => !gone key metadata.nodeId, disk⟩,
        fun key => (session.published key).filter fun entry => !gone key entry.2⟩ where
  held key := by
    dsimp only
    cases found : session.published key with
    | none =>
      obtain ⟨inMemory, indexed⟩ := matched.absent found
      simp [Store.held, inMemory, indexed]
    | some entry =>
    obtain ⟨object, nodeId⟩ := entry
    rcases matched.present found with
      ⟨artifact, inMemory, rfl, rfl⟩ | ⟨inMemory, metadata, indexed, rfl⟩
    · have unindexed := matched.apart key (by simp [inMemory])
      cases removed : gone key artifact.metadata.nodeId with
      | true => simp [Store.held, inMemory, unindexed, removed, Option.filter]
      | false => simp [Store.held, inMemory, removed, Option.filter]
    · cases removed : gone key metadata.nodeId with
      | true => simp [Store.held, inMemory, indexed, removed, Option.filter]
      | false =>
        have loaded := matched.load_eq found
        rw [load] at loaded
        simp [Store.held, inMemory, indexed, removed, load, kept key object _ found removed,
          loaded, Option.filter]
  apart key inMemory := by
    have before : (session.store.artifacts.get key).isSome := by
      cases found : session.store.artifacts.get key with
      | none => simp [found] at inMemory
      | some artifact => rfl
    simp [matched.apart key before]
  indexed key indexed := by
    dsimp only at indexed ⊢
    rw [get_keep] at indexed
    obtain ⟨metadata, found⟩ := Option.isSome_iff_exists.mp indexed
    obtain ⟨before, stays⟩ := Option.filter_eq_some_iff.mp found
    obtain ⟨⟨object, nodeId⟩, held⟩ :=
      Option.isSome_iff_exists.mp (matched.indexed key (by simp [before]))
    rcases matched.present held with ⟨artifact, inMemory, -⟩ | ⟨-, stored, here, rfl⟩
    · simp [matched.apart key (by simp [inMemory])] at before
    · rw [before] at here
      cases here
      simp_all
  backed key object nodeId found := by
    obtain ⟨before, stays⟩ := Option.filter_eq_some_iff.mp found
    obtain ⟨home, artifact, onDisk, rest⟩ := matched.backed key object nodeId before
    exact ⟨home, artifact, (kept key object nodeId before (by simpa using stays)).trans onDisk,
      rest⟩
  stored place artifact onDisk := by
    obtain ⟨present, home⟩ := matched.stored place artifact (subset place artifact onDisk)
    refine ⟨?_, home⟩
    obtain ⟨⟨object, nodeId⟩, found⟩ := Option.isSome_iff_exists.mp present
    dsimp only
    rw [found]
    cases removed : gone (place.1, artifact.metadata.name) nodeId with
    | false => simp [removed, Option.filter]
    | true =>
      have missing := dropped _ object nodeId found removed
      rw [home, onDisk] at missing
      cases missing

end

theorem get_deletePersisted {disk : Dictionary Place (Artifact α)}
    (named : safeDirname isWord key.2 ≠ "") :
    (deletePersisted isWord disk key).get place =
      if place = artifactDir isWord key then none else disk.get place := by
  rw [deletePersisted, if_neg named, get_erase]

theorem get_deleteAll {disk : Dictionary Place (Artifact α)} {keys : List Key}
    (named : ∀ key ∈ keys, safeDirname isWord key.2 ≠ "") :
    (keys.foldl (deletePersisted isWord) disk).get place =
      if place ∈ keys.map (artifactDir isWord) then none else disk.get place := by
  induction keys generalizing disk with
  | nil => simp
  | cons key rest ih =>
    rw [foldl_cons, ih fun other mem =>
      named other (mem_cons_of_mem _ mem), get_deletePersisted (named key (by simp))]
    by_cases here : place = artifactDir isWord key
    · simp [here]
    · simp only [map_cons, mem_cons, here, false_or, if_false]

theorem Session.Matches.removeKeys (matched : session.Matches isWord) (gone : Key → Int → Bool)
    (keys : List Key) (removed : ∀ key, key ∈ keys ↔
      ∃ object nodeId, session.published key = some (object, nodeId) ∧ gone key nodeId = true) :
    Session.Matches isWord
      ⟨⟨session.store.artifacts.keep fun key artifact => !gone key artifact.metadata.nodeId,
          session.store.lazyIndex.keep fun key metadata => !gone key metadata.nodeId,
          keys.foldl (deletePersisted isWord) session.store.disk⟩,
        fun key => (session.published key).filter fun entry => !gone key entry.2⟩ := by
  have named : ∀ key ∈ keys, safeDirname isWord key.2 ≠ "" := by
    intro key mem
    obtain ⟨object, nodeId, found, -⟩ := (removed key).mp mem
    exact (matched.backed key object nodeId found).1
  apply matched.remove gone _
  case subset =>
    intro place artifact onDisk
    rw [get_deleteAll named] at onDisk
    split at onDisk
    · cases onDisk
    · exact onDisk
  case kept =>
    intro key object nodeId found stays
    rw [get_deleteAll named, if_neg]
    rintro shared
    obtain ⟨other, mem, same⟩ := mem_map.mp shared
    obtain ⟨object', nodeId', found', goes⟩ := (removed other).mp mem
    obtain rfl := matched.home_injective (by simp [found']) (by simp [found]) same
    rw [found] at found'
    obtain ⟨-, rfl⟩ := Prod.mk.inj (Option.some.inj found')
    rw [goes] at stays
    cases stays
  case dropped =>
    intro key object nodeId found goes
    rw [get_deleteAll named, if_pos]
    exact mem_map_of_mem ((removed key).mpr ⟨object, nodeId, found, goes⟩)

theorem Session.Matches.loaded (matched : session.Matches isWord) (artifact : Artifact α)
    (found : session.published key = some (artifact.object, artifact.metadata.nodeId)) :
    Session.Matches isWord
      ⟨{ session.store with
          artifacts := session.store.artifacts.set key artifact
          lazyIndex := session.store.lazyIndex.erase key }, session.published⟩ where
  held other := by
    by_cases same : other = key
    · subst same
      simp [Store.held, found]
    · rw [← matched.held other]
      simp [Store.held, same]
  apart := matched.apart_set key artifact
  indexed other indexed := (matched.indexed_erase other indexed).2
  backed := matched.backed
  stored := matched.stored

/-- The index of the disk has what is held. -/
theorem Session.Matches.get_listPersisted (matched : session.Matches isWord) (key : Key) :
    (∀ object nodeId, session.published key = some (object, nodeId) →
      ∃ metadata, (listPersisted session.store.disk).get key = some metadata ∧
        metadata.nodeId = nodeId) ∧
    (session.published key = none → (listPersisted session.store.disk).get key = none) := by
  constructor
  · intro object nodeId found
    obtain ⟨named, artifact, onDisk, -, rfl, name⟩ := matched.backed key object nodeId found
    refine ⟨artifact.metadata, Dictionary.get_setAll_of_mem ?_ ?_, rfl⟩
    · refine mem_map.mpr ⟨(artifactDir isWord key, artifact),
        mem_entries_iff.mpr ?_, by simp [artifactDir, name]⟩
      rw [get_keep, onDisk]
      simp [artifactDir, named, Option.filter]
    · intro metadata mem
      obtain ⟨⟨place, stored⟩, kept, same⟩ := mem_map.mp mem
      obtain ⟨sameKey, rfl⟩ := Prod.mk.inj same
      have onDisk' := mem_entries_iff.mp kept
      rw [get_keep] at onDisk'
      have stays := (Option.filter_eq_some_iff.mp onDisk').1
      have home := (matched.stored place stored stays).2
      rw [sameKey] at home
      rw [home, stays] at onDisk
      rw [Option.some.inj onDisk]
  · intro missing
    cases found : (listPersisted session.store.disk).get key with
    | none => rfl
    | some metadata =>
    rcases Dictionary.get_setAll found with impossible | mem
    · cases impossible
    obtain ⟨⟨place, stored⟩, kept, same⟩ := mem_map.mp mem
    have onDisk := mem_entries_iff.mp kept
    rw [get_keep] at onDisk
    have present := (matched.stored place stored (Option.filter_eq_some_iff.mp onDisk).1).1
    rw [(Prod.mk.inj same).1, missing] at present
    cases present

/-- Reading one artifact changes memory where it is not held yet. -/
theorem get_recover (disk : Dictionary Place (Artifact α))
    (artifacts : Dictionary Key (Artifact α)) (entry : Key × Metadata) (key : Key) :
    (recover isWord disk artifacts entry).get key =
      (artifacts.get key).or (if key = entry.1 then (load isWord disk key).map fun object =>
        ⟨object, { entry.2 with name := key.2, flowId := key.1 }⟩ else none) := by
  rw [recover]
  by_cases here : key = entry.1
  · subst here
    cases inMemory : artifacts.get entry.1 with
    | some stored => simp [inMemory]
    | none =>
      cases loaded : load isWord disk entry.1 with
      | none => simp [inMemory]
      | some object => simp
  · rw [if_neg here, Option.or_none]
    split
    · rfl
    · split
      · rfl
      · rw [get_set, if_neg here]

/-- Memory after artifacts were read from disk: what it held, and those that it did not hold. -/
theorem get_recovered {disk : Dictionary Place (Artifact α)} {entries : List (Key × Metadata)}
    (distinct : (entries.map Prod.fst).Nodup) (artifacts : Dictionary Key (Artifact α))
    (key : Key) :
    (entries.foldl (recover isWord disk) artifacts).get key =
      (artifacts.get key).or (((⟨entries, distinct⟩ : Dictionary Key Metadata).get key).bind
        fun metadata => (load isWord disk key).map fun object =>
          ⟨object, { metadata with name := key.2, flowId := key.1 }⟩) := by
  induction entries generalizing artifacts with
  | nil => simp [Dictionary.get]
  | cons entry rest ih =>
    obtain ⟨first, metadata⟩ := entry
    have distinctRest := (nodup_cons.mp distinct).2
    rw [foldl_cons, ih distinctRest, get_recover, Option.or_assoc]
    rw [get_cons distinct]
    congr 1
    by_cases here : key = first
    · subst here
      have later : (⟨rest, distinctRest⟩ : Dictionary Key Metadata).get key = none := by
        rw [← Option.not_isSome_iff_eq_none, ← mem_keys_iff]
        exact (nodup_cons.mp distinct).1
      rw [if_pos rfl, if_pos rfl, later, Option.bind_none, Option.or_none, Option.bind_some]
    · rw [if_neg here, if_neg here, Option.none_or]

theorem Session.Matches.restart (matched : session.Matches isWord) (mode : RecoveryMode) :
    Session.Matches isWord ⟨restart isWord session.store mode, session.published⟩ := by
  have index := matched.get_listPersisted
  cases mode with
  | lazily =>
    have everything : ((listPersisted session.store.disk).entries.filter fun entry =>
        ((Dictionary.empty : Dictionary Key (Artifact α)).get entry.1).isNone) =
          (listPersisted session.store.disk).entries := by simp
    have indexed (key : Key) : (ArtifactStore.restart isWord session.store .lazily).lazyIndex.get
        key = (listPersisted session.store.disk).get key := by
      rw [ArtifactStore.restart, buildLazyIndex, everything, Dictionary.get_setAll_entries]
    refine ⟨fun key => ?_, fun key impossible => ?_, fun key present => ?_, matched.backed,
      matched.stored⟩
    case refine_1 =>
      have fromDisk : (ArtifactStore.restart isWord session.store .lazily).held isWord key =
          ((listPersisted session.store.disk).get key).bind fun metadata =>
            (load isWord session.store.disk key).map fun object => (object, metadata.nodeId) := by
        rw [← indexed key]
        rfl
      refine fromDisk.trans ?_
      cases found : session.published key with
      | none => rw [(index key).2 found, Option.bind_none]
      | some entry =>
      obtain ⟨object, nodeId⟩ := entry
      obtain ⟨metadata, listed, rfl⟩ := (index key).1 object nodeId found
      rw [listed, matched.load_eq found]
      rfl
    case refine_2 => cases impossible
    case refine_3 =>
      dsimp only at present ⊢
      rw [indexed] at present
      cases found : session.published key with
      | none => simp [(index key).2 found] at present
      | some entry => rfl
  | eagerly =>
    have recovered (key : Key) : (ArtifactStore.restart isWord session.store .eagerly).artifacts.get
        key = ((listPersisted session.store.disk).get key).bind fun metadata =>
          (load isWord session.store.disk key).map fun object =>
            ⟨object, { metadata with name := key.2, flowId := key.1 }⟩ := by
      rw [ArtifactStore.restart, recoverAll, get_recovered (listPersisted _).distinct,
        get_empty, Option.none_or]
    refine ⟨fun key => ?_, fun key _ => rfl, fun key impossible => ?_, matched.backed,
      matched.stored⟩
    case refine_2 => cases impossible
    dsimp only
    rw [Store.held, recovered]
    cases found : session.published key with
    | none =>
      rw [(index key).2 found]
      rfl
    | some entry =>
    obtain ⟨object, nodeId⟩ := entry
    obtain ⟨metadata, listed, rfl⟩ := (index key).1 object nodeId found
    rw [listed, matched.load_eq found]
    rfl

/-- The keys under which memory or the index holds something of a kind. -/
theorem Session.Matches.mem_keys (matched : session.Matches isWord) (gone : Key → Int → Bool)
    (key : Key) :
    key ∈ (session.store.artifacts.keep fun key artifact =>
          gone key artifact.metadata.nodeId).entries.map Prod.fst ++
        (session.store.lazyIndex.keep fun key metadata =>
          gone key metadata.nodeId).entries.map Prod.fst ↔
      ∃ object nodeId, session.published key = some (object, nodeId) ∧ gone key nodeId = true := by
  rw [mem_append, mem_keys_iff, mem_keys_iff, get_keep, get_keep]
  cases found : session.published key with
  | none =>
    obtain ⟨inMemory, indexed⟩ := matched.absent found
    simp [inMemory, indexed]
  | some entry =>
  obtain ⟨object, nodeId⟩ := entry
  rcases matched.present found with
    ⟨artifact, inMemory, rfl, rfl⟩ | ⟨inMemory, metadata, indexed, rfl⟩
  · have unindexed := matched.apart key (by simp [inMemory])
    cases removed : gone key artifact.metadata.nodeId <;>
      simp [inMemory, unindexed, removed, Option.filter]
  · cases removed : gone key metadata.nodeId <;>
      simp [inMemory, indexed, removed, Option.filter]

variable (describe) in
/-- Each operation keeps store and history in agreement. -/
theorem Session.Matches.step (matched : session.Matches isWord) {operation : Operation α}
    (separate : session.Separate isWord operation) :
    (session.step isWord describe operation).Matches isWord := by
  cases operation with
  | publish name object nodeId flowId =>
    cases inMemory : session.store.artifacts.get (flowId, name) with
    | some artifact =>
      have same : session.step isWord describe (.publish name object nodeId flowId) = session := by
        simp [Session.step, perform, ArtifactStore.publish, inMemory, record, errorOf]
      rw [same]
      exact matched
    | none =>
      obtain ⟨named, apart⟩ := separate
      have next := matched.publish ⟨object, ⟨name, nodeId, flowId, describe object⟩⟩
        (flowId, name) rfl named (by
          rintro ⟨flow, other⟩ present shared
          obtain ⟨rfl, sameName⟩ := Prod.mk.inj shared
          rw [apart other present sameName])
      simpa [Session.step, perform, ArtifactStore.publish, inMemory, record, errorOf] using next
  | get name flowId =>
    cases inMemory : session.store.artifacts.get (flowId, name) with
    | some artifact =>
      have same : session.step isWord describe (.get name flowId) = session := by
        simp [Session.step, perform, ArtifactStore.get, inMemory, record]
      rw [same]
      exact matched
    | none =>
    cases indexed : session.store.lazyIndex.get (flowId, name) with
    | none =>
      have same : session.step isWord describe (.get name flowId) = session := by
        simp [Session.step, perform, ArtifactStore.get, inMemory, indexed, record]
      rw [same]
      exact matched
    | some metadata =>
    obtain ⟨⟨object, nodeId⟩, found⟩ :=
      Option.isSome_iff_exists.mp (matched.indexed (flowId, name) (by simp [indexed]))
    have loaded := matched.load_eq found
    obtain rfl : metadata.nodeId = nodeId := by
      rcases matched.present found with ⟨_, impossible, -⟩ | ⟨-, stored, here, node⟩
      · simp [inMemory] at impossible
      · rw [indexed] at here
        rw [Option.some.inj here, node]
    have next := matched.loaded ⟨object, { metadata with name := name, flowId := flowId }⟩ found
    simpa [Session.step, perform, ArtifactStore.get, inMemory, indexed, record, tryLazyLoad,
      loaded] using next
  | delete name flowId =>
    cases found : session.published (flowId, name) with
    | none =>
      obtain ⟨inMemory, indexed⟩ := matched.absent found
      have same : session.step isWord describe (.delete name flowId) = session := by
        simp [Session.step, perform, ArtifactStore.delete, inMemory, indexed, record, errorOf]
      rw [same]
      exact matched
    | some entry =>
    have next := matched.removeKeys (fun key _ => key = (flowId, name)) [(flowId, name)] (by
      intro key
      constructor
      · intro mem
        obtain rfl := mem_singleton.mp mem
        exact ⟨entry.1, entry.2, found, by simp⟩
      · rintro ⟨_, _, -, here⟩
        simpa using here)
    have present : ((session.store.artifacts.get (flowId, name)).isNone &&
        (session.store.lazyIndex.get (flowId, name)).isNone) = false := by
      rcases matched.present found with ⟨_, inMemory, -⟩ | ⟨-, _, indexed, -⟩
      · simp [inMemory]
      · simp [indexed]
    have forgotten : update session.published (flowId, name) none =
        fun key => (session.published key).filter fun _ => !decide (key = (flowId, name)) := by
      funext key
      by_cases here : key = (flowId, name)
      · simp [here]
      · rw [update_of_ne here]
        cases session.published key <;> simp [here, Option.filter]
    simpa [Session.step, perform, ArtifactStore.delete, present, record, errorOf, forgotten,
      Dictionary.erase] using next
  | clear flowId =>
    have forgotten : (fun key => if ofFlow flowId key then none else session.published key) =
        fun key => (session.published key).filter fun _ => !ofFlow flowId key := by
      funext key
      cases ofFlow flowId key <;> cases session.published key <;> simp [Option.filter]
    have cleared (place : Place) : (clearPersisted session.store.disk flowId).get place =
        if ofFlow flowId place then none else session.store.disk.get place := by
      cases flowId with
      | none => rfl
      | some id =>
        rw [clearPersisted, get_keep]
        by_cases here : place.1 = id <;> cases session.store.disk.get place <;>
          simp [ofFlow, here, Option.filter]
    have next : Session.Matches isWord ⟨clear session.store flowId, _⟩ :=
      matched.remove (fun key _ => ofFlow flowId key) (clearPersisted session.store.disk flowId)
        (fun place artifact onDisk => by
          rw [cleared] at onDisk
          split at onDisk
          · cases onDisk
          · exact onDisk)
        (fun key _ _ _ stays => (cleared _).trans (if_neg (Bool.eq_false_iff.mp stays)))
        (fun key _ _ _ goes => (cleared _).trans (if_pos goes))
    rw [← forgotten] at next
    exact next
  | clearByNodeIds nodeIds flowId =>
    have next := matched.removeKeys (fun key nodeId => nodeId ∈ nodeIds && ofFlow flowId key)
      _ (matched.mem_keys _)
    exact next
  | restart mode => exact matched.restart mode

end

/-- Along a run in which no artifact is published into the directory of another one, a caller gets
exactly what was published and neither deleted nor cleared. -/
theorem faithful_along (operations : List (Operation α))
    (separate : EachStep (Session.step isWord describe) (Session.Separate isWord) .initial
      operations) :
    ∀ session ∈ statesAlong (Session.step isWord describe) .initial operations,
      session.Faithful isWord := by
  intro session reached
  have matched := separate.invariant_along (Session.Matches isWord)
    (fun _ _ matched separate => matched.step describe separate) matches_initial session reached
  exact matched.faithful

def latinWord (c : Char) : Bool :=
  c.isAlphanum || c = '_'

def describeNumber (_ : Nat) : Description := ⟨"int", "builtins", 28⟩

def twoArtifacts : List (Operation Nat) :=
  [.publish "model" 1 1 0, .publish "scaler" 2 1 0, .delete "scaler" 0, .restart .lazily]

theorem twoArtifacts_faithful :
    ∃ session ∈ statesAlong (Session.step latinWord describeNumber) .initial twoArtifacts,
      session.Faithful latinWord := by
  refine ⟨_, mem_of_getLast? rfl,
    faithful_along latinWord describeNumber twoArtifacts ?_ _ (mem_of_getLast? rfl)⟩
  refine ⟨⟨by decide, ?_⟩, ⟨by decide, ?_⟩, trivial, trivial, trivial⟩
  · intro other impossible
    cases impossible
  · intro other present
    by_cases same : other = "model"
    · subst same
      exact fun shared => absurd shared (by decide)
    have missing : (update (fun _ => none) (0, "model") (some (1, 1)) : Published Nat)
        (0, other) = none := update_of_ne (by simp [same]) _ _
    exact absurd present (by
      change ¬((update (fun _ => none) (0, "model") (some (1, 1)) : Published Nat)
        (0, other)).isSome = true
      simp [missing])

/-- Two names that share a directory: when one is deleted, the other is gone after a restart. -/
theorem sharedDirectory_lost :
    ¬∀ session ∈ statesAlong (Session.step latinWord describeNumber) .initial
        [.publish "my model" 1 1 0, .publish "my_model" 2 1 0, .delete "my_model" 0,
          .restart .eagerly],
      session.Faithful latinWord := by
  intro faithful
  have last := faithful _ (mem_of_getLast? rfl) 0 "my model"
  revert last
  generalize reached : List.getLast _ _ = session
  have published : session.published (0, "my model") = some (1, 1) := by
    subst reached
    rfl
  have missing : (get latinWord session.store "my model" 0).1 = .error (.notFound "my model") := by
    subst reached
    rfl
  rw [published, missing]
  simp

end Flowfile.ArtifactStore
