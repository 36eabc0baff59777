import Mathlib.Data.List.Nodup

/-!
# Dictionaries

A dictionary holds its entries in the order in which their keys came, each key once. Setting a key
changes its entry in place or adds one at the end; entries can be kept by a test of key and value,
and values changed where they are. What is looked up after each of these is decided key by key, and
the entries are exactly what can be looked up.
-/

namespace Flowfile.Library.Dictionaries

open List

universe u v
variable {κ : Type u} {ν : Type v}

@[ext] structure Dictionary (κ : Type u) (ν : Type v) where
  entries : List (κ × ν)
  distinct : (entries.map Prod.fst).Nodup

namespace Dictionary

/-- No entries. -/
def empty : Dictionary κ ν := ⟨[], nodup_nil⟩

def keep (dictionary : Dictionary κ ν) (test : κ → ν → Bool) : Dictionary κ ν where
  entries := dictionary.entries.filter fun entry => test entry.1 entry.2
  distinct := dictionary.distinct.sublist (filter_sublist.map Prod.fst)

/-- Change every value. -/
def mapValues (dictionary : Dictionary κ ν) (change : ν → ν) : Dictionary κ ν where
  entries := dictionary.entries.map fun entry => (entry.1, change entry.2)
  distinct := by
    rw [map_map]
    exact dictionary.distinct

variable [DecidableEq κ] (dictionary : Dictionary κ ν)

def get (key : κ) : Option ν :=
  dictionary.entries.lookup key

def erase (key : κ) : Dictionary κ ν :=
  dictionary.keep fun other _ => other ≠ key

theorem nodup_set (key : κ) (value : ν) :
    ((if key ∈ dictionary.entries.map Prod.fst then
        dictionary.entries.map fun entry => if entry.1 = key then (key, value) else entry
      else dictionary.entries ++ [(key, value)]).map Prod.fst).Nodup := by
  split
  case isTrue =>
    have same : (fun entry : κ × ν => (if entry.1 = key then (key, value) else entry).1) =
        Prod.fst := by
      funext entry
      split
      case isTrue here => exact here.symm
      case isFalse => rfl
    rw [map_map, Function.comp_def, same]
    exact dictionary.distinct
  case isFalse absent =>
    rw [map_append, nodup_append]
    refine ⟨dictionary.distinct, nodup_singleton _, ?_⟩
    rintro first mem second last rfl
    obtain rfl : first = key := by simpa using last
    exact absent mem

def set (key : κ) (value : ν) : Dictionary κ ν where
  entries := if key ∈ dictionary.entries.map Prod.fst then
      dictionary.entries.map fun entry => if entry.1 = key then (key, value) else entry
    else dictionary.entries ++ [(key, value)]
  distinct := dictionary.nodup_set key value

def modify (key : κ) (change : ν → ν) : Dictionary κ ν :=
  match dictionary.get key with
  | some value => dictionary.set key (change value)
  | none => dictionary

def setAll (entries : List (κ × ν)) : Dictionary κ ν :=
  entries.foldl (fun dictionary entry => dictionary.set entry.1 entry.2) dictionary

variable {dictionary} {key other : κ} {value : ν} {entries : List (κ × ν)}

theorem lookup_iff_mem (distinct : (entries.map Prod.fst).Nodup) :
    entries.lookup key = some value ↔ (key, value) ∈ entries := by
  induction entries with
  | nil => simp
  | cons entry rest ih =>
    obtain ⟨first, stored⟩ := entry
    rw [map_cons, nodup_cons] at distinct
    by_cases same : key = first
    · subst same
      have absent : (key, value) ∉ rest := fun mem =>
        distinct.1 (mem_map.mpr ⟨_, mem, rfl⟩)
      simp [absent, eq_comm]
    · have apart : (key == first) = false := by simpa using same
      simp [lookup_cons, apart, same, ih distinct.2]

theorem mem_entries_iff : (key, value) ∈ dictionary.entries ↔ dictionary.get key = some value :=
  (lookup_iff_mem dictionary.distinct).symm

@[simp] theorem get_empty : (empty : Dictionary κ ν).get key = none := rfl

theorem mem_keys_iff : key ∈ dictionary.entries.map Prod.fst ↔ (dictionary.get key).isSome := by
  rw [mem_map, Option.isSome_iff_exists]
  constructor
  · rintro ⟨⟨_, value⟩, mem, rfl⟩
    exact ⟨value, mem_entries_iff.mp mem⟩
  · rintro ⟨value, found⟩
    exact ⟨(key, value), mem_entries_iff.mpr found, rfl⟩

theorem get_cons {first : κ} {rest : List (κ × ν)}
    (distinct : (((first, value) :: rest).map Prod.fst).Nodup) :
    (⟨(first, value) :: rest, distinct⟩ : Dictionary κ ν).get key = if key = first then some value
      else (⟨rest, (nodup_cons.mp distinct).2⟩ : Dictionary κ ν).get key := by
  by_cases here : key = first
  · simp [get, here]
  · have apart : (key == first) = false := by simpa using here
    simp [get, lookup_cons, apart, here]

@[simp] theorem get_keep (test : κ → ν → Bool) :
    (dictionary.keep test).get key = (dictionary.get key).filter (test key) := by
  ext value
  rw [← mem_entries_iff, Option.filter_eq_some_iff, ← mem_entries_iff]
  simp [keep]

@[simp] theorem get_erase :
    (dictionary.erase other).get key = if key = other then none else dictionary.get key := by
  rw [erase, get_keep]
  by_cases same : key = other
  · simp [same]
  · cases dictionary.get key <;> simp [same]

@[simp] theorem get_set : (dictionary.set other value).get key =
      if key = other then some value else dictionary.get key := by
  ext found
  rw [← mem_entries_iff, set]
  dsimp only
  split
  case isTrue present =>
    rw [mem_map]
    split
    case isTrue same =>
      subst same
      constructor
      · rintro ⟨entry, _, changed⟩
        split at changed
        · exact congrArg some (Prod.mk.inj changed).2
        case isFalse apart => exact absurd (congrArg Prod.fst changed) apart
      · intro given
        cases given
        obtain ⟨entry, mem, here⟩ := mem_map.mp present
        exact ⟨entry, mem, if_pos here⟩
    case isFalse apart =>
      rw [← mem_entries_iff]
      constructor
      · rintro ⟨entry, mem, changed⟩
        split at changed
        · exact absurd (congrArg Prod.fst changed).symm apart
        · exact changed ▸ mem
      · exact fun mem => ⟨_, mem, if_neg apart⟩
  case isFalse absent =>
    rw [mem_append, mem_singleton]
    split
    case isTrue same =>
      subst same
      have fresh : (key, found) ∉ dictionary.entries := fun mem =>
        absent (mem_map.mpr ⟨_, mem, rfl⟩)
      simp [fresh, eq_comm]
    case isFalse apart => simp [mem_entries_iff, apart]

variable (change : ν → ν)

@[simp] theorem get_modify : (dictionary.modify other change).get key =
      if key = other then (dictionary.get key).map change else dictionary.get key := by
  rw [modify]
  split
  case h_1 value found =>
    rw [get_set]
    split
    case isTrue same => rw [same, found, Option.map_some]
    case isFalse => rfl
  case h_2 missing =>
    split
    case isTrue same => rw [same, missing, Option.map_none]
    case isFalse => rfl

@[simp] theorem get_mapValues :
    (dictionary.mapValues change).get key = (dictionary.get key).map change := by
  ext value
  rw [← mem_entries_iff, Option.map_eq_some_iff, mapValues, mem_map]
  constructor
  · rintro ⟨⟨_, stored⟩, mem, same⟩
    obtain ⟨rfl, rfl⟩ := Prod.mk.inj same
    exact ⟨stored, mem_entries_iff.mp mem, rfl⟩
  · rintro ⟨stored, found, rfl⟩
    exact ⟨(key, stored), mem_entries_iff.mpr found, rfl⟩

theorem setAll_cons (entry : κ × ν) (rest : List (κ × ν)) :
    dictionary.setAll (entry :: rest) = (dictionary.set entry.1 entry.2).setAll rest := rfl

/-- What can be looked up was there or is among the new entries. -/
theorem get_setAll (found : (dictionary.setAll entries).get key = some value) :
    dictionary.get key = some value ∨ (key, value) ∈ entries := by
  induction entries generalizing dictionary with
  | nil => exact .inl found
  | cons entry rest ih =>
    rcases ih found with earlier | mem
    · rw [get_set] at earlier
      split at earlier
      case isTrue same =>
        cases earlier
        exact .inr (same ▸ mem_cons_self)
      case isFalse => exact .inl earlier
    · exact .inr (mem_cons_of_mem _ mem)

theorem get_setAll_of_absent (absent : key ∉ entries.map Prod.fst) :
    (dictionary.setAll entries).get key = dictionary.get key := by
  induction entries generalizing dictionary with
  | nil => rfl
  | cons entry rest ih =>
    rw [map_cons, mem_cons, not_or] at absent
    rw [setAll_cons, ih absent.2, get_set, if_neg absent.1]

theorem get_setAll_of_mem (mem : (key, value) ∈ entries)
    (single : ∀ stored, (key, stored) ∈ entries → stored = value) :
    (dictionary.setAll entries).get key = some value := by
  induction entries generalizing dictionary with
  | nil => cases mem
  | cons entry rest ih =>
    by_cases later : key ∈ rest.map Prod.fst
    · obtain ⟨⟨_, stored⟩, inRest, rfl⟩ := mem_map.mp later
      have same := single stored (mem_cons_of_mem _ inRest)
      subst same
      exact ih inRest fun other inRest =>
        single other (mem_cons_of_mem _ inRest)
    · rcases mem_cons.mp mem with rfl | inRest
      · rw [setAll_cons, get_setAll_of_absent later, get_set, if_pos rfl]
      · exact absurd (mem_map.mpr ⟨_, inRest, rfl⟩) later

theorem isSome_get_setAll : ((dictionary.setAll entries).get key).isSome ↔
      (dictionary.get key).isSome ∨ key ∈ entries.map Prod.fst := by
  induction entries generalizing dictionary with
  | nil => simp [setAll]
  | cons entry rest ih =>
    rw [setAll_cons, ih, get_set, map_cons, mem_cons]
    by_cases same : key = entry.1
    · simp [same]
    · simp [same]

theorem get_setAll_entries (source : Dictionary κ ν) (key : κ) :
    ((empty : Dictionary κ ν).setAll source.entries).get key = source.get key := by
  ext value
  constructor
  · intro found
    rcases get_setAll found with impossible | mem
    · cases impossible
    · exact mem_entries_iff.mp mem
  · intro found
    refine get_setAll_of_mem (mem_entries_iff.mpr found) fun stored mem => ?_
    exact Option.some.inj ((mem_entries_iff.mp mem).symm.trans found)

end Dictionary

end Flowfile.Library.Dictionaries
