import Mathlib.Data.List.DropRight
import Mathlib.Data.List.Sort
import Mathlib.Data.String.Basic
import Flowfile.Library.Dictionaries
import Flowfile.Library.WrittenNumbers

/-!
# Input files of a kernel

The inputs of a node are written as parquet files that carry the name and the position of the
input, and the mapping from names to paths is either handed on or read back from the names of the
files. Reading takes the files in the order of their names, where `main_10` stands before `main_2`
and `orders_1` before `sales_0`.
-/

namespace Flowfile.KernelInputs

open Library.Dictionaries Library.WrittenNumbers List

abbrev InputPaths := Dictionary String (List String)

/-- The host side of the mounts of a kernel. -/
structure Volumes where
  kernelVolume : Option String
  sharedVolume : String
  catalogTablesDir : String

/-- `os.path.join` with a relative second part. -/
def join (path part : String) : String :=
  if path = "" ∨ path.toList.getLast? = some '/' then path ++ part else path ++ "/" ++ part

def toPosix (path : String) : List Char :=
  (path.toList.map fun letter => if letter = '\\' then '/' else letter).rdropWhile (· = '/')

def rebaseToPosix (localPath hostPrefix containerPrefix : String) : Option String :=
  let path := toPosix localPath
  let base := toPosix hostPrefix
  if path = base then some containerPrefix
  else if (base ++ ['/']).isPrefixOf path then
    some (containerPrefix ++ "/" ++ String.ofList (path.drop (base.length + 1)))
  else none

variable (volumes : Volumes)

/-- The directories of the host that a kernel sees, with the prefixes it sees them under. -/
def Volumes.mounts : List (String × String) :=
  [(volumes.catalogTablesDir, "/catalog_tables"), (volumes.sharedVolume, "/shared")]

def Volumes.toKernelPath (localPath : String) : String :=
  if volumes.kernelVolume.getD "" ≠ "" then localPath
  else (volumes.mounts.findSome? fun mount => rebaseToPosix localPath mount.1 mount.2).getD
    localPath

def Volumes.nodeDir (flowId nodeId : Int) (part : String) : String :=
  join (join (join volumes.sharedVolume (toString flowId)) (toString nodeId)) part

def isNameStart (letter : Char) : Bool := 'a' ≤ letter && letter ≤ 'z'

def isNameLetter (letter : Char) : Bool :=
  isNameStart letter || ('0' ≤ letter && letter ≤ '9') || letter = '_'

/-- `^[a-z][a-z0-9_]*$`, where `$` also matches before a line break at the end. -/
def assertSafeName (name : String) : Bool :=
  match name.toList with
  | [] => false
  | first :: rest =>
    isNameStart first &&
      (rest.all isNameLetter || (rest.getLast? = some '\n' && rest.dropLast.all isNameLetter))

def fileName (name : String) (idx : Nat) : String :=
  name ++ "_" ++ toString idx ++ ".parquet"

/-- `input_paths.setdefault(name, []).append(path)` -/
def appendPath (paths : InputPaths) (name path : String) : InputPaths :=
  paths.set name ((paths.get name).getD [] ++ [path])

/-- The paths under their names, and all of them as `main` unless an input has that name. -/
def groupPaths (entries : List (String × String)) : InputPaths :=
  let paths := entries.foldl (fun paths entry => appendPath paths entry.1 entry.2) .empty
  if (paths.get "main").isSome then paths else paths.set "main" (entries.map Prod.snd)

structure Written where
  directory : List String
  entries : List (String × String)

def saveFile (directory : List String) (file : String) : List String :=
  if file ∈ directory then directory else directory ++ [file]

def writeInputs (kernelPath : String → String) : List (String × Nat) → Written → Option Written
  | [], written => some written
  | (name, idx) :: rest, written =>
    if assertSafeName name then
      writeInputs kernelPath rest
        { directory := saveFile written.directory (fileName name idx)
          entries := written.entries ++ [(name, kernelPath (fileName name idx))] }
    else none

/-- The mapping that is returned, and the files of the directory afterwards. Inputs without names
are all called `main`; names have to be as many as the tables. -/
def writeInputsToParquet {T : Type} (flowfileTables : List T)
    (inputDir : String) (inputNames : Option (List String)) (directory : List String) :
    Option (InputPaths × List String) :=
  let names := inputNames.getD (flowfileTables.map fun _ => "main")
  if names.length = flowfileTables.length then
    (writeInputs (fun file => volumes.toKernelPath (join inputDir file)) names.zipIdx
      ⟨directory, []⟩).map fun written => (groupPaths written.entries, written.directory)
  else none

structure ExecuteRequest where
  nodeId : Int
  flowId : Int
  inputPaths : InputPaths
  outputDir : String

def isParquet (file : String) : Bool := ".parquet".toList.isSuffixOf file.toList

/-- The name in front of the last underscore, if a number follows it. -/
def inputName (file : String) : String :=
  let stem := file.toList.take (file.toList.length - ".parquet".length)
  let index := stem.rtakeWhile (· ≠ '_')
  if '_' ∈ stem ∧ index ≠ [] ∧ index.all Char.isDigit then
    String.ofList (stem.take (stem.length - index.length - 1))
  else "main"

def resolveNodePaths (listdir : String → Option (List String))
    (request : ExecuteRequest) : ExecuteRequest :=
  if request.inputPaths.entries ≠ [] ∨ request.flowId = 0 ∨ request.nodeId = 0 then request
  else
    let inputDir := volumes.nodeDir request.flowId request.nodeId "inputs"
    let parquetFiles := (((listdir inputDir).getD []).filter isParquet).insertionSort (· ≤ ·)
    { request with
      inputPaths :=
        if parquetFiles = [] then request.inputPaths
        else groupPaths (parquetFiles.map fun file =>
          (inputName file, volumes.toKernelPath (join inputDir file)))
      outputDir := volumes.toKernelPath (volumes.nodeDir request.flowId request.nodeId "outputs") }

variable {entries : List (String × String)} {name : String}

theorem get_appended (paths : InputPaths) :
    (entries.foldl (fun paths entry => appendPath paths entry.1 entry.2) paths).get name =
      if name ∈ entries.map Prod.fst then
        some ((paths.get name).getD [] ++ (entries.filter (·.1 = name)).map Prod.snd)
      else paths.get name := by
  induction entries generalizing paths with
  | nil => simp
  | cons entry rest ih =>
    rw [foldl_cons, ih, appendPath, Dictionary.get_set]
    by_cases here : name = entry.1
    · by_cases later : name ∈ rest.map Prod.fst
      · simp [← here, later]
      · have none : rest.filter (·.1 = name) = [] := by
          simpa [filter_eq_nil_iff] using fun a b mem same =>
            later (mem_map.mpr ⟨_, mem, same⟩)
        simp [← here, later, none]
    · have apart : ¬entry.1 = name := fun same => here same.symm
      simp only [map_cons, mem_cons, here, apart, false_or, if_false, filter_cons,
        decide_false, Bool.false_eq_true]

theorem get_groupPaths : (groupPaths entries).get name =
      if name ∈ entries.map Prod.fst then some ((entries.filter (·.1 = name)).map Prod.snd)
      else if name = "main" then some (entries.map Prod.snd) else none := by
  have each : ∀ name, (entries.foldl (fun paths entry => appendPath paths entry.1 entry.2)
      .empty).get name = if name ∈ entries.map Prod.fst then
        some ((entries.filter (·.1 = name)).map Prod.snd) else none :=
    fun name => by simp [get_appended]
  unfold groupPaths
  dsimp only
  split
  case isTrue main =>
    rw [each] at main ⊢
    by_cases isMain : name = "main"
    · subst isMain
      split at main
      · simp [*]
      · simp at main
    · simp [isMain]
  case isFalse noMain =>
    rw [Dictionary.get_set, each]
    rw [each] at noMain
    by_cases isMain : name = "main"
    · subst isMain
      split at noMain
      · simp at noMain
      · simp [*]
    · simp [isMain]

theorem groupPaths_same_iff {others : List (String × String)} (perm : others.Perm entries) :
    (∀ name, (groupPaths others).get name = (groupPaths entries).get name) ↔
      (∀ name, (others.filter (·.1 = name)).map Prod.snd =
        (entries.filter (·.1 = name)).map Prod.snd) ∧
      ("main" ∉ entries.map Prod.fst → others.map Prod.snd = entries.map Prod.snd) := by
  have named : ∀ name, name ∈ others.map Prod.fst ↔ name ∈ entries.map Prod.fst :=
    fun name => (perm.map Prod.fst).mem_iff
  simp only [get_groupPaths, named]
  constructor
  · intro same
    refine ⟨fun name => ?_, fun noMain => by simpa [noMain] using same "main"⟩
    by_cases mem : name ∈ entries.map Prod.fst
    · simpa only [if_pos mem, Option.some.injEq] using same name
    have nothing : ∀ list : List (String × String), name ∉ list.map Prod.fst →
        list.filter (·.1 = name) = [] := fun list absent => by
      simpa [filter_eq_nil_iff] using fun a b inside same =>
        absent (mem_map.mpr ⟨_, inside, same⟩)
    rw [nothing _ mem, nothing _ fun inside => mem ((named name).mp inside)]
  · rintro ⟨each, all⟩ name
    split
    · rw [each]
    · split
      case isTrue isMain =>
        subst isMain
        rw [all ‹_›]
      · rfl

/-- A file of the name stands directly in its directory. -/
structure IsPlain (file : String) : Prop where
  ends : file.toList.getLast? = some 't'
  plain : ∀ letter ∈ file.toList, letter ≠ '/' ∧ letter ≠ '\\'

def lastPart (path : List Char) : List Char := path.reverse.takeWhile (· ≠ '/')

theorem lastPart_append (folder part : List Char) :
    lastPart (folder ++ '/' :: part) = part.reverse.takeWhile (· ≠ '/') := by
  have stops : ∀ letters more : List Char,
      (letters ++ '/' :: more).takeWhile (· ≠ '/') = letters.takeWhile (· ≠ '/') := by
    intro letters more
    induction letters with
    | nil => simp
    | cons letter rest ih => simp only [cons_append, takeWhile_cons, ih]
  rw [lastPart, reverse_append, reverse_cons, append_assoc, singleton_append, stops]

variable {file other folder : String}

section

variable (plain : IsPlain file)
include plain

theorem IsPlain.lastPart_eq (path : List Char) :
    lastPart (path ++ '/' :: file.toList) = file.toList.reverse := by
  rw [lastPart_append, takeWhile_eq_self_iff]
  simpa using fun letter mem => (plain.plain letter mem).1

theorem IsPlain.toPosix_eq : toPosix (folder ++ "/" ++ file) =
      (folder.toList.map fun letter => if letter = '\\' then '/' else letter) ++
        '/' :: file.toList := by
  have kept : (file.toList.map fun letter => if letter = '\\' then '/' else letter) =
      file.toList := by
    rw [map_congr_left fun letter mem => if_neg (plain.plain letter mem).2, map_id']
  have written : ((folder ++ "/" ++ file).toList.map fun letter =>
      if letter = '\\' then '/' else letter) =
      (folder.toList.map fun letter => if letter = '\\' then '/' else letter) ++
        '/' :: file.toList := by
    simp [kept]
  rw [toPosix, written, rdropWhile_eq_self_iff]
  intro nonempty
  have last := plain.ends
  have filled : file.toList ≠ [] := fun empty => by simp [empty] at last
  rw [List.getLast?_eq_some_getLast filled] at last
  simp [getLast_cons filled, Option.some.inj last]

theorem rebased {hostPrefix containerPrefix path : String}
    (found : rebaseToPosix (folder ++ "/" ++ file) hostPrefix containerPrefix = some path) :
    lastPart path.toList = file.toList.reverse ∨
      (path = containerPrefix ∧ toPosix (folder ++ "/" ++ file) = toPosix hostPrefix) := by
  unfold rebaseToPosix at found
  dsimp only at found
  split at found
  case isTrue here => exact .inr ⟨(Option.some.inj found).symm, here⟩
  case isFalse =>
    split at found
    case isTrue below =>
      left
      obtain ⟨rest, parts⟩ := isPrefixOf_iff_prefix.mp below
      rw [plain.toPosix_eq] at parts found
      have ends := congrArg lastPart parts
      rw [plain.lastPart_eq, append_assoc, singleton_append, lastPart_append] at ends
      cases found
      have dropped : (toPosix hostPrefix ++ ['/'] ++ rest).drop
          ((toPosix hostPrefix).length + 1) = rest := by simp
      have shape : (containerPrefix ++ "/" ++ String.ofList rest).toList =
          containerPrefix.toList ++ '/' :: rest := by simp
      rw [← parts, ← ends, dropped, shape, lastPart_append]
    case isFalse => simp at found

theorem toKernelPath_cases :
    lastPart (volumes.toKernelPath (folder ++ "/" ++ file)).toList = file.toList.reverse ∨
      ∃ mount ∈ volumes.mounts, volumes.toKernelPath (folder ++ "/" ++ file) = mount.2 ∧
        toPosix (folder ++ "/" ++ file) = toPosix mount.1 := by
  have unchanged : lastPart (folder ++ "/" ++ file).toList = file.toList.reverse := by
    have shape : (folder ++ "/" ++ file).toList = folder.toList ++ '/' :: file.toList := by simp
    rw [shape, plain.lastPart_eq]
  unfold Volumes.toKernelPath
  split
  · exact .inl unchanged
  · cases found : volumes.mounts.findSome? fun mount =>
        rebaseToPosix (folder ++ "/" ++ file) mount.1 mount.2 with
    | none => exact .inl unchanged
    | some path =>
      obtain ⟨mount, mem, onto⟩ := exists_of_findSome?_eq_some found
      exact (rebased plain onto).imp_right fun here => ⟨mount, mem, here⟩

theorem IsPlain.not_mount {volumes : Volumes} {mount : String × String}
    (mem : mount ∈ volumes.mounts) : lastPart mount.2.toList ≠ file.toList.reverse := by
  intro same
  have ends := plain.ends
  rw [← List.head?_reverse, ← same] at ends
  simp only [Volumes.mounts, mem_cons, not_mem_nil, or_false] at mem
  rcases mem with rfl | rfl <;> dsimp only at ends <;> revert ends <;> decide

/-- A path in the kernel tells the file. -/
theorem toKernelPath_injective (otherPlain : IsPlain other)
    (same : volumes.toKernelPath (folder ++ "/" ++ file) =
      volumes.toKernelPath (folder ++ "/" ++ other)) : file = other := by
  rcases toKernelPath_cases volumes plain with last | ⟨mount, mem, at', here⟩
    <;> rcases toKernelPath_cases volumes otherPlain with
      otherLast | ⟨second, otherMember, otherAt, otherHere⟩
  · rw [same, otherLast, reverse_inj] at last
    exact (String.toList_injective last).symm
  · rw [same, otherAt] at last
    exact absurd last (plain.not_mount otherMember)
  · rw [← same, at'] at otherLast
    exact absurd otherLast (otherPlain.not_mount mem)
  · have mounted : mount.2 = second.2 := at'.symm.trans (same.trans otherAt)
    simp only [Volumes.mounts, mem_cons, not_mem_nil, or_false] at mem otherMember
    have hosts : mount.1 = second.1 := by
      rcases mem with rfl | rfl <;> rcases otherMember with rfl | rfl <;> simp_all
    have paths := here.trans ((congrArg toPosix hosts).trans otherHere.symm)
    rw [plain.toPosix_eq, otherPlain.toPosix_eq, append_cancel_left_eq] at paths
    exact String.toList_injective (List.cons.inj paths).2

end

variable {idx : Nat}

theorem fileName_toList : (fileName name idx).toList =
    name.toList ++ '_' :: (toString idx).toList ++ ".parquet".toList := by
  simp [fileName]

theorem isParquet_fileName : isParquet (fileName name idx) = true := by
  rw [isParquet, fileName_toList, isSuffixOf_iff_suffix]
  exact suffix_append _ _

theorem inputName_fileName : inputName (fileName name idx) = name := by
  have stem : (fileName name idx).toList.take
      ((fileName name idx).toList.length - ".parquet".length) =
      name.toList ++ '_' :: (toString idx).toList := by
    rw [fileName_toList, length_append]
    exact take_left' (Nat.add_sub_cancel _ _).symm
  have digits : ∀ letter ∈ (toString idx).toList, letter ≠ '_' := by
    rintro letter mem rfl
    exact absurd (isDigit_of_mem_toString mem) (by decide)
  have index : (name.toList ++ '_' :: (toString idx).toList).rtakeWhile (· ≠ '_') =
      (toString idx).toList := by
    rw [List.rtakeWhile, reverse_append, reverse_cons, append_assoc,
      takeWhile_append_of_pos (by simpa using digits)]
    simp
  have filled : (toString idx).toList ≠ [] := by
    rw [Nat.toString_eq_repr, Nat.toList_repr]
    exact Nat.toDigits_ne_nil
  have all : (toString idx).toList.all Char.isDigit = true :=
    all_eq_true.mpr fun letter mem => isDigit_of_mem_toString mem
  have before : (name.toList ++ '_' :: (toString idx).toList).length -
      (toString idx).toList.length - 1 = name.toList.length := by
    rw [length_append, length_cons]
    omega
  unfold inputName
  simp only [stem, index]
  rw [if_pos ⟨by simp, filled, all⟩, before, take_left, String.ofList_toList]

theorem nameLetter_plain {letter : Char} (allowed : isNameLetter letter = true) :
    letter ≠ '/' ∧ letter ≠ '\\' := by
  constructor <;> rintro rfl <;> revert allowed <;> decide

/-- Inputs with safe names are written to files directly in the directory. -/
theorem fileName_plain (safe : assertSafeName name = true) : IsPlain (fileName name idx) where
  ends := by
    rw [fileName_toList, List.getLast?_append]
    rfl
  plain := by
    have letters : ∀ letter ∈ name.toList, letter ≠ '/' ∧ letter ≠ '\\' := by
      intro letter mem
      unfold assertSafeName at safe
      split at safe
      case h_1 => simp at safe
      case h_2 first rest parts =>
        rw [parts, mem_cons] at mem
        simp only [Bool.and_eq_true, Bool.or_eq_true, all_eq_true, decide_eq_true_eq] at safe
        rcases mem with rfl | mem
        · exact nameLetter_plain (by simp [isNameLetter, safe.1])
        rcases safe.2 with all | ⟨last, all⟩
        · exact nameLetter_plain (all letter mem)
        rw [← dropLast_append_getLast? '\n' last, mem_append, mem_singleton] at mem
        rcases mem with mem | rfl
        · exact nameLetter_plain (all letter mem)
        · decide
    intro letter mem
    rw [fileName_toList, mem_append, mem_append, mem_cons] at mem
    rcases mem with (mem | rfl | mem) | mem
    · exact letters letter mem
    · decide
    · have digit := isDigit_of_mem_toString mem
      constructor <;> rintro rfl <;> revert digit <;> decide
    · have all : ".parquet".toList.all (fun letter => letter ≠ '/' && letter ≠ '\\') = true := by
        decide
      simpa using all_eq_true.mp all letter mem

/-- Inputs at different positions have different files. -/
theorem fileName_position {second : String} {position : Nat}
    (same : fileName name idx = fileName second position) : idx = position := by
  obtain rfl : name = second := by
    rw [← @inputName_fileName name idx, same, inputName_fileName]
  have letters := congrArg String.toList same
  rw [fileName_toList, fileName_toList, append_cancel_right_eq, append_cancel_left_eq] at letters
  exact toString_injective (String.toList_injective (List.cons.inj letters).2)

def inputFile (input : String × Nat) : String := fileName input.1 input.2

/-- The files of inputs with one name, and of all inputs when none is called `main`, are in the
order of the inputs. -/
def InOrder (names : List String) : Prop :=
  names.zipIdx.Pairwise fun first second =>
    first.1 = second.1 ∨ "main" ∉ names → inputFile first ≤ inputFile second

theorem saveFiles_eq {directory files : List String} (distinct : files.Nodup)
    (fresh : ∀ file ∈ files, file ∉ directory) :
    files.foldl saveFile directory = directory ++ files := by
  induction files generalizing directory with
  | nil => simp
  | cons file rest ih =>
    obtain ⟨first, distinct⟩ := nodup_cons.mp distinct
    have saved : saveFile directory file = directory ++ [file] :=
      if_neg (fresh file mem_cons_self)
    rw [foldl_cons, saved, ih distinct, append_assoc, singleton_append]
    intro later mem inside
    rcases mem_append.mp inside with inside | inside
    · exact fresh later (mem_cons_of_mem _ mem) inside
    · exact first (mem_singleton.mp inside ▸ mem)

variable {kernelPath : String → String}

theorem writeInputs_eq {inputs : List (String × Nat)}
    (safe : ∀ input ∈ inputs, assertSafeName input.1 = true) (written : Written) :
    writeInputs kernelPath inputs written =
      some ⟨(inputs.map inputFile).foldl saveFile written.directory,
        written.entries ++ inputs.map fun input => (input.1, kernelPath (inputFile input))⟩ := by
  induction inputs generalizing written with
  | nil => simp [writeInputs]
  | cons input rest ih =>
    obtain ⟨name, idx⟩ := input
    rw [writeInputs, if_pos (safe _ mem_cons_self),
      ih fun input mem => safe input (mem_cons_of_mem _ mem)]
    simp [inputFile]

theorem inputFiles_nodup (names : List String) : (names.zipIdx.map inputFile).Nodup := by
  have positions : (names.zipIdx.map Prod.snd).Nodup := by
    rw [zipIdx_map_snd]
    exact nodup_range'
  refine List.Nodup.map_on (fun first mem second other same => ?_) (positions.of_map _)
  exact inj_on_of_nodup_map positions mem other (fileName_position same)

theorem sorted_filter_iff {sorted files : List String} (inOrder : sorted.Pairwise (· ≤ ·))
    (perm : sorted.Perm files) (test : String → Bool) :
    sorted.filter test = files.filter test ↔
      files.Pairwise fun first second => test first → test second → first ≤ second := by
  rw [← pairwise_filter]
  constructor
  · intro same
    exact same ▸ inOrder.filter test
  · exact fun others => (perm.filter test).eq_of_pairwise' (inOrder.filter test) others

theorem paths_inj {files others : List String}
    (injective : ∀ file ∈ files, ∀ other ∈ others,
      kernelPath file = kernelPath other → file = other) :
    files.map kernelPath = others.map kernelPath ↔ files = others := by
  refine ⟨fun same => ?_, fun same => same ▸ rfl⟩
  induction files generalizing others with
  | nil => simpa using same.symm
  | cons file rest ih =>
    cases others with
    | nil => simp at same
    | cons other more =>
    rw [map_cons, map_cons, List.cons.injEq] at same
    rw [injective file mem_cons_self other mem_cons_self same.1,
      ih (fun file mem other inside => injective file (mem_cons_of_mem _ mem) other
        (mem_cons_of_mem _ inside)) same.2]

theorem groupFiles_iff {names sorted : List String}
    (injective : ∀ file ∈ names.zipIdx.map inputFile, ∀ other ∈ names.zipIdx.map inputFile,
      kernelPath file = kernelPath other → file = other)
    (inOrder : sorted.Pairwise (· ≤ ·)) (perm : sorted.Perm (names.zipIdx.map inputFile)) :
    (∀ name, (groupPaths (sorted.map fun file => (inputName file, kernelPath file))).get name =
      (groupPaths (names.zipIdx.map fun input =>
        (input.1, kernelPath (inputFile input)))).get name) ↔ InOrder names := by
  have entries : (names.zipIdx.map fun input => (input.1, kernelPath (inputFile input))) =
      (names.zipIdx.map inputFile).map fun file => (inputName file, kernelPath file) := by
    simp [inputFile, inputName_fileName, Function.comp_def]
  have named : (((names.zipIdx.map inputFile).map fun file =>
      (inputName file, kernelPath file)).map Prod.fst) = names := by
    rw [← entries, map_map]
    exact zipIdx_map_fst 0 names
  have grouped : ∀ (files : List String) (name : String),
      (((files.map fun file => (inputName file, kernelPath file)).filter (·.1 = name)).map
        Prod.snd) = (files.filter fun file => inputName file = name).map kernelPath := by
    intro files name
    rw [filter_map, map_map]
    rfl
  have mem : ∀ {test : String → Bool} {files : List String},
      files.Perm (names.zipIdx.map inputFile) → ∀ file ∈ files.filter test,
        file ∈ names.zipIdx.map inputFile :=
    fun same file inside => same.mem_iff.mp (mem_filter.mp inside).1
  have each : ∀ test : String → Bool,
      (sorted.filter test).map kernelPath =
        ((names.zipIdx.map inputFile).filter test).map kernelPath ↔
      names.zipIdx.Pairwise fun first second =>
        test (inputFile first) → test (inputFile second) → inputFile first ≤ inputFile second := by
    intro test
    rw [paths_inj fun file inside other there => injective file (mem perm file inside) other
      (mem .rfl other there), sorted_filter_iff inOrder perm, pairwise_map]
  rw [entries, groupPaths_same_iff (perm.map _), named]
  simp only [grouped, each]
  have all := each fun _ => true
  simp only [filter_true] at all
  simp only [map_map, Function.comp_def] at all ⊢
  rw [all]
  simp only [InOrder, pairwise_iff_forall_sublist, inputFile, inputName_fileName,
    decide_eq_true_eq, forall_const]
  constructor
  · rintro ⟨each, all⟩ first second inside (same | noMain)
    · exact each second.1 inside same rfl
    · exact all noMain inside
  · intro written
    exact ⟨fun name first second inside here there => written inside (.inl (here.trans there.symm)),
      fun noMain first second inside => written inside (.inr noMain)⟩

theorem join_inputs (flowId nodeId : Int) (file : String) :
    join (volumes.nodeDir flowId nodeId "inputs") file =
      volumes.nodeDir flowId nodeId "inputs" ++ "/" ++ file := by
  have ends : ∀ path : String, (join path "inputs").toList.getLast? = some 's' := by
    intro path
    unfold join
    split <;> simp [List.getLast?_append]
  have filled : volumes.nodeDir flowId nodeId "inputs" ≠ "" := fun empty => by
    have last := ends (join (join volumes.sharedVolume (toString flowId)) (toString nodeId))
    rw [Volumes.nodeDir] at empty
    rw [empty] at last
    simp at last
  rw [join, if_neg]
  rintro (empty | slash)
  · exact filled empty
  · rw [Volumes.nodeDir, ends] at slash
    exact absurd slash (by decide)

def localVolumes : Volumes :=
  { kernelVolume := none, sharedVolume := "/tmp/flowfile", catalogTablesDir := "/tmp/catalog" }

end Flowfile.KernelInputs
