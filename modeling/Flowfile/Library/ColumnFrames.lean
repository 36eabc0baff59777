import Mathlib.Data.List.Nodup
import Mathlib.Data.List.Perm.Subperm

/-!
# Tables seen through their column names

A table is known here by the list of its column names, which are distinct. Selecting,
renaming, copying, joining and dropping columns yield new lists or fail: when a column is
missing, or when two columns would get the same name. What happens to rows is left out.

A join of two tables drops the key columns of the second one, keeps all columns of both or
keeps the columns of the first one only. For each operation there is a rule that says when
it succeeds and with which names.
-/

namespace Flowfile.Library.ColumnFrames

open List

variable {ν α : Type} [DecidableEq ν]

/-- Why an operation failed. -/
inductive FrameError (ν : Type) where
  | columnNotFound (name : ν)
  | duplicate
deriving DecidableEq

/-- Look up a key in a dictionary written as a list. The last entry of a key counts. -/
def dictGet (table : List (ν × α)) (key : ν) : Option α :=
  table.reverse.lookup key

def requireColumns (frame names : List ν) : Except (FrameError ν) Unit :=
  match names.find? fun name => name ∉ frame with
  | some name => .error (.columnNotFound name)
  | none => .ok ()

def requireDistinct (names : List ν) : Except (FrameError ν) (List ν) :=
  if names.Nodup then .ok names else .error .duplicate

/-- Some columns, in the order given. -/
def selectColumns (frame names : List ν) : Except (FrameError ν) (List ν) := do
  requireColumns frame names
  requireDistinct names

def renamed (table : List (ν × ν)) (name : ν) : ν :=
  (dictGet table name).getD name

/-- All columns, some of them under new names. -/
def renameColumns (frame : List ν) (table : List (ν × ν)) : Except (FrameError ν) (List ν) := do
  requireColumns frame (table.map Prod.fst)
  requireDistinct (frame.map (renamed table))

def copyColumns (frame : List ν) (copies : List (ν × ν)) : Except (FrameError ν) (List ν) := do
  requireColumns frame (copies.map Prod.fst)
  let names ← requireDistinct (copies.map Prod.snd)
  .ok (frame ++ names.filter fun name => name ∉ frame)

/-- Which columns a join keeps: all but the second table's keys, all, or the first table's. -/
inductive JoinKind where
  | coalescing
  | full
  | filtering

def JoinKind.columns (kind : JoinKind) (left right rightOn : List ν) : List ν :=
  match kind with
  | .coalescing => left ++ right.filter fun name => name ∉ rightOn
  | .full => left ++ right
  | .filtering => left

def joinColumns (kind : JoinKind) (left right leftOn rightOn : List ν) :
    Except (FrameError ν) (List ν) := do
  requireColumns left leftOn
  requireColumns right rightOn
  requireDistinct (kind.columns left right rightOn)

def dropColumns (frame names : List ν) : Except (FrameError ν) (List ν) := do
  requireColumns frame names
  .ok (frame.filter fun name => name ∉ names)

/-- A returned step of a sequence. -/
theorem bind_ok {ε α β : Type} {first : Except ε α} {next : α → Except ε β} {result : β} :
    (first >>= next) = .ok result ↔ ∃ value, first = .ok value ∧ next value = .ok result := by
  cases first with
  | error error => simp [bind, Except.bind]
  | ok value => simp [bind, Except.bind]

variable {table : List (ν × α)} {key : ν} {value : α}

theorem dictGet_of_mem
    (agree : ∀ other, (key, other) ∈ table → other = value) (mem : (key, value) ∈ table) :
    dictGet table key = some value := by
  have found : ∀ entries : List (ν × α), (∀ other, (key, other) ∈ entries → other = value) →
      (key, value) ∈ entries → entries.lookup key = some value := by
    intro entries agree mem
    induction entries with
    | nil => simp at mem
    | cons entry rest ih =>
      obtain ⟨first, stored⟩ := entry
      by_cases same : key = first
      · subst same
        simp [agree stored (by simp)]
      have apart : (key == first) = false := by simpa using same
      rw [lookup_cons, apart]
      apply ih
      · exact fun other inRest => agree other (mem_cons_of_mem _ inRest)
      · cases mem with
        | head => exact absurd rfl same
        | tail _ inRest => exact inRest
  apply found
  · exact fun other inTable => agree other (mem_reverse.mp inTable)
  · exact mem_reverse.mpr mem

/-- A key without entry is not found. -/
theorem dictGet_of_not_mem (absent : key ∉ table.map Prod.fst) : dictGet table key = none := by
  rw [dictGet, lookup_eq_none_iff]
  rintro ⟨other, value⟩ mem
  have apart : key ≠ other := by
    rintro rfl
    exact absent (mem_map.mpr ⟨_, mem_reverse.mp mem, rfl⟩)
  simpa using apart

/-- A key that is not found has no entry. -/
theorem not_mem_of_dictGet (missed : dictGet table key = none) : key ∉ table.map Prod.fst := by
  rw [dictGet, lookup_eq_none_iff] at missed
  rintro listed
  obtain ⟨entry, mem, rfl⟩ := mem_map.mp listed
  exact bne_iff_ne.mp (missed entry (mem_reverse.mpr mem)) rfl

theorem mem_of_dictGet (found : dictGet table key = some value) : (key, value) ∈ table := by
  obtain ⟨before, after, split, _⟩ := lookup_eq_some_iff.mp found
  rw [← mem_reverse, split]
  simp

/-- Entries that are listed later count first. -/
theorem dictGet_append (table others : List (ν × α)) (key : ν) :
    dictGet (table ++ others) key = (dictGet others key).or (dictGet table key) := by
  rw [dictGet, reverse_append, lookup_append]
  rfl

/-- Looking up a part of the entries. -/
theorem dictGet_map {ε : Type} (entries : List ε) (key : ε → ν) (value : ε → α) (wanted : ν) :
    dictGet (entries.map fun entry => (key entry, value entry)) wanted =
      (dictGet (entries.map fun entry => (key entry, entry)) wanted).map value := by
  have look : ∀ entries : List ε,
      (entries.map fun entry => (key entry, value entry)).lookup wanted =
        ((entries.map fun entry => (key entry, entry)).lookup wanted).map value := by
    intro entries
    induction entries with
    | nil => rfl
    | cons entry rest ih =>
      by_cases same : wanted = key entry
      · simp [same]
      · have apart : (wanted == key entry) = false := by simpa using same
        simp only [map_cons, lookup_cons, apart, ih]
  rw [dictGet, dictGet, ← map_reverse, ← map_reverse, look]

/-! ## Columns that come from entries

Names are read off entries by a function under which they stay distinct. Renaming by a
table made from some of the entries changes the function, and dropping names drops entries. -/

variable {names : List ν}

section

variable {ε : Type} {entries : List ε} {name : ε → ν}

section

variable (distinct : (entries.map name).Nodup)
include distinct

omit [DecidableEq ν] in
/-- Distinct names belong to different entries. -/
theorem eq_of_name {first second : ε} (firstMember : first ∈ entries)
    (secondMember : second ∈ entries) (same : name first = name second) : first = second :=
  inj_on_of_nodup_map distinct firstMember secondMember same

theorem map_renamed {table : List (ν × ν)} (target : ε → ν) (touched : ε → Prop)
    (fromEntries : ∀ pair ∈ table, ∃ entry ∈ entries, touched entry ∧
      pair = (name entry, target entry))
    (listed : ∀ entry ∈ entries, touched entry → (name entry, target entry) ∈ table)
    (others : ∀ entry ∈ entries, ¬ touched entry → target entry = name entry) :
    (entries.map name).map (renamed table) = entries.map target := by
  rw [map_map]
  apply map_congr_left
  intro entry mem
  simp only [Function.comp_apply, renamed]
  by_cases hit : touched entry
  · rw [dictGet_of_mem _ (listed entry mem hit)]
    · rfl
    · intro other inTable
      obtain ⟨owner, ownerMember, _, same⟩ := fromEntries _ inTable
      obtain ⟨sameName, rfl⟩ := Prod.mk.inj same
      rw [eq_of_name distinct mem ownerMember sameName]
  · rw [dictGet_of_not_mem, Option.getD_none, others entry mem hit]
    intro inTable
    obtain ⟨pair, pairMember, same⟩ := mem_map.mp inTable
    obtain ⟨owner, ownerMember, ownerHit, rfl⟩ := fromEntries pair pairMember
    exact hit (eq_of_name distinct ownerMember mem same ▸ ownerHit)

theorem filter_entries (gone : ε → Bool)
    (fromEntries : ∀ dropped ∈ names, ∃ entry ∈ entries, gone entry = true ∧ dropped = name entry)
    (listed : ∀ entry ∈ entries, gone entry = true → name entry ∈ names) :
    (entries.filter fun entry => name entry ∉ names) = entries.filter fun entry => !gone entry := by
  apply filter_congr
  intro entry mem
  cases kept : gone entry with
  | true => simp [listed entry mem kept]
  | false =>
  have absent : name entry ∉ names := by
    intro dropped
    obtain ⟨owner, ownerMember, ownerGone, same⟩ := fromEntries _ dropped
    rw [eq_of_name distinct mem ownerMember same, ownerGone] at kept
    cases kept
  simp [absent]

end

end

variable {frame : List ν}

/-- Dropping distinct columns that exist. -/
theorem length_filter_not_mem (distinct : names.Nodup) (present : ∀ name ∈ names, name ∈ frame) :
    (frame.filter fun name => name ∉ names).length + names.length ≤ frame.length := by
  have dropped : names.length ≤ (frame.filter fun name => name ∈ names).length := by
    apply (distinct.subperm _).length_le
    intro name mem
    exact mem_filter.mpr ⟨present name mem, by simpa using mem⟩
  have split := length_eq_length_filter_add (l := frame) fun name => decide (name ∈ names)
  simp only [← decide_not] at split
  omega

/-- Columns are found when they exist. -/
theorem requireColumns_ok : requireColumns frame names = .ok () ↔ ∀ name ∈ names, name ∈ frame := by
  rw [requireColumns]
  split
  case h_1 name found =>
    have missing := List.find?_some found
    simp only [decide_eq_true_eq] at missing
    constructor
    · intro impossible
      cases impossible
    · intro present
      exact absurd (present name (mem_of_find?_eq_some found)) missing
  case h_2 found => simpa using found

variable {result : List ν}

/-- A check passes with the names themselves. -/
theorem requireDistinct_ok : requireDistinct names = .ok result ↔ names.Nodup ∧ result = names := by
  rw [requireDistinct]
  split
  case isTrue distinct => simp [distinct, eq_comm]
  case isFalse repeated => simp [repeated]

/-- A first check that passes can be skipped. -/
theorem requireColumns_then {β : Type} {next : Except (FrameError ν) β} {result : β} :
    (requireColumns frame names >>= fun _ => next) = .ok result ↔
      (∀ name ∈ names, name ∈ frame) ∧ next = .ok result := by
  rw [← requireColumns_ok]
  cases requireColumns frame names with
  | error failure => simp [bind, Except.bind]
  | ok => simp [bind, Except.bind]

theorem selectColumns_ok : selectColumns frame names = .ok result ↔
      (∀ name ∈ names, name ∈ frame) ∧ names.Nodup ∧ result = names := by
  rw [selectColumns, requireColumns_then, requireDistinct_ok]

/-- Renaming succeeds when the columns exist and all names stay distinct. -/
theorem renameColumns_ok {table : List (ν × ν)} : renameColumns frame table = .ok result ↔
      (∀ name ∈ table.map Prod.fst, name ∈ frame) ∧ (frame.map (renamed table)).Nodup ∧
        result = frame.map (renamed table) := by
  rw [renameColumns, requireColumns_then, requireDistinct_ok]

theorem copyColumns_ok {copies : List (ν × ν)} : copyColumns frame copies = .ok result ↔
      (∀ name ∈ copies.map Prod.fst, name ∈ frame) ∧ (copies.map Prod.snd).Nodup ∧
        result = frame ++ (copies.map Prod.snd).filter fun name => name ∉ frame := by
  rw [copyColumns, requireColumns_then]
  by_cases distinct : (copies.map Prod.snd).Nodup
  · simp [requireDistinct, distinct, bind, Except.bind, eq_comm]
  · simp [requireDistinct, distinct, bind, Except.bind]

/-- A join succeeds when the keys exist and all names are distinct. -/
theorem joinColumns_ok {kind : JoinKind} {left right leftOn rightOn : List ν} :
    joinColumns kind left right leftOn rightOn = .ok result ↔
      (∀ name ∈ leftOn, name ∈ left) ∧ (∀ name ∈ rightOn, name ∈ right) ∧
        (kind.columns left right rightOn).Nodup ∧ result = kind.columns left right rightOn := by
  rw [joinColumns, requireColumns_then, requireColumns_then, requireDistinct_ok]

/-- Dropping succeeds when the columns exist. -/
theorem dropColumns_ok : dropColumns frame names = .ok result ↔
      (∀ name ∈ names, name ∈ frame) ∧ result = frame.filter fun name => name ∉ names := by
  rw [dropColumns, requireColumns_then, Except.ok.injEq, eq_comm (a := result)]

end Flowfile.Library.ColumnFrames
