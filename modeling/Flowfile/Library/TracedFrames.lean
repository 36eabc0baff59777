import Flowfile.Library.ColumnFrames

/-!
# Tables whose columns are followed to their origin

A table is known here by its columns, each with its name and its origin: what it holds. The
operations are those on column names, and succeed when these do; what they do to a column is told by
its name.

A join puts the second table beside the first one. A column of the second table whose name is taken
gets a suffix.
-/

namespace Flowfile.Library.TracedFrames

open ColumnFrames List

variable {ν σ ε : Type} [DecidableEq ν]

/-- A table: the name and the origin of each column. -/
abbrev Table (ν σ : Type) : Type := List (ν × σ)

def names (table : Table ν σ) : List ν :=
  table.map Prod.fst

/-- Some columns, in the order given. -/
def selectTable (table : Table ν σ) (wanted : List ν) : Except (FrameError ν) (Table ν σ) := do
  let wanted ← selectColumns (names table) wanted
  .ok (wanted.filterMap fun name => (dictGet table name).map fun origin => (name, origin))

def renameTable (table : Table ν σ) (titles : List (ν × ν)) :
    Except (FrameError ν) (Table ν σ) := do
  let _ ← renameColumns (names table) titles
  .ok (table.map fun column => (renamed titles column.1, column.2))

/-- Copies of some columns under other names. -/
def madeCopies (table : Table ν σ) (copies : List (ν × ν)) : Table ν σ :=
  copies.filterMap fun copy => (dictGet table copy.1).map fun origin => (copy.2, origin)

def copyTable (table : Table ν σ) (copies : List (ν × ν)) : Except (FrameError ν) (Table ν σ) := do
  let _ ← copyColumns (names table) copies
  let made := madeCopies table copies
  .ok (table.map (fun column => (column.1, (dictGet made column.1).getD column.2)) ++
    made.filter fun column => column.1 ∉ names table)

def dropTable (table : Table ν σ) (gone : List ν) : Except (FrameError ν) (Table ν σ) := do
  let _ ← dropColumns (names table) gone
  .ok (table.filter fun column => column.1 ∉ gone)

/-- Two tables beside each other. A name that is taken gets the suffix. -/
def beside (suffix : ν → ν) (first second : Table ν σ) : Table ν σ :=
  first ++ second.map fun column =>
    (if column.1 ∈ names first then suffix column.1 else column.1, column.2)

inductive JoinType where
  /-- The keys of the second table. -/
  | coalescing
  /-- The keys of the first table. -/
  | coalescingFirst
  /-- None. -/
  | full
  /-- All columns of the second table. -/
  | filtering
  deriving DecidableEq

def JoinType.table (type : JoinType) (suffix : ν → ν) (left right : Table ν σ)
    (leftOn rightOn : List ν) : Table ν σ :=
  match type with
  | .coalescing => beside suffix left (right.filter fun column => column.1 ∉ rightOn)
  | .coalescingFirst => beside suffix (left.filter fun column => column.1 ∉ leftOn) right
  | .full => beside suffix left right
  | .filtering => left

def joinTable (type : JoinType) (suffix : ν → ν) (left right : Table ν σ)
    (leftOn rightOn : List ν) : Except (FrameError ν) (Table ν σ) := do
  requireColumns (names left) leftOn
  requireColumns (names right) rightOn
  let _ ← requireDistinct (names (type.table suffix left right leftOn rightOn))
  .ok (type.table suffix left right leftOn rightOn)

omit [DecidableEq ν] in
/-- The names of two tables beside each other. -/
theorem names_append {first second : Table ν σ} :
    names (first ++ second) = names first ++ names second :=
  map_append

omit [DecidableEq ν] in
theorem names_filter {table : Table ν σ} (kept : ν → Bool) :
    names (table.filter fun column => kept column.1) = (names table).filter kept := by
  rw [names, names, filter_map]
  rfl

/-- A column that exists has an origin. -/
theorem dictGet_names {table : Table ν σ} {name : ν} (present : name ∈ names table) :
    ∃ origin, dictGet table name = some origin := by
  obtain ⟨column, mem, rfl⟩ := mem_map.mp present
  rw [← Option.isSome_iff_exists]
  by_contra missing
  rw [Bool.not_eq_true, Option.isSome_eq_false_iff, Option.isNone_iff_eq_none, dictGet,
    lookup_eq_none_iff] at missing
  have apart := missing column (mem_reverse.mpr mem)
  simp at apart

variable {wanted : List ν}

theorem names_filterMap {table : Table ν σ} (present : ∀ name ∈ wanted, name ∈ names table) :
    names (wanted.filterMap fun name => (dictGet table name).map fun origin => (name, origin)) =
      wanted := by
  induction wanted with
  | nil => rfl
  | cons name rest ih =>
    have others := ih fun other inRest =>
      present other (mem_cons_of_mem _ inRest)
    obtain ⟨origin, found⟩ := dictGet_names (present name mem_cons_self)
    rw [filterMap_cons, found]
    exact congrArg (name :: ·) others

theorem selectTable_ok {table result : Table ν σ} : selectTable table wanted = .ok result ↔
      selectColumns (names table) wanted = .ok (names result) ∧
        result = wanted.filterMap fun name =>
          (dictGet table name).map fun origin => (name, origin) := by
  rw [selectTable, bind_ok]
  constructor
  · rintro ⟨selected, selecting, computed⟩
    obtain ⟨present, _, rfl⟩ := selectColumns_ok.mp selecting
    cases computed
    rw [names_filterMap present]
    exact ⟨selecting, rfl⟩
  · rintro ⟨selecting, rfl⟩
    obtain ⟨present, _⟩ := selectColumns_ok.mp selecting
    rw [names_filterMap present] at selecting
    exact ⟨wanted, selecting, rfl⟩

variable {titles : List (ν × ν)}

theorem renameTable_ok {table result : Table ν σ} : renameTable table titles = .ok result ↔
      renameColumns (names table) titles = .ok (names result) ∧
        result = table.map fun column => (renamed titles column.1, column.2) := by
  have titled : names (table.map fun column => (renamed titles column.1, column.2)) =
      (names table).map (renamed titles) := by
    rw [names, names, map_map, map_map]
    rfl
  rw [renameTable, bind_ok]
  constructor
  · rintro ⟨frame, ran, computed⟩
    cases computed
    obtain ⟨_, _, rfl⟩ := renameColumns_ok.mp ran
    rw [titled]
    exact ⟨ran, rfl⟩
  · rintro ⟨ran, rfl⟩
    exact ⟨_, ran, rfl⟩

variable {copies : List (ν × ν)}

theorem names_madeCopies {table : Table ν σ}
    (present : ∀ name ∈ copies.map Prod.fst, name ∈ names table) :
    names (madeCopies table copies) = copies.map Prod.snd := by
  induction copies with
  | nil => rfl
  | cons copy rest ih =>
    have others := ih fun other inRest =>
      present other (mem_cons_of_mem _ inRest)
    obtain ⟨origin, found⟩ := dictGet_names (present copy.1 mem_cons_self)
    rw [madeCopies, filterMap_cons, found]
    exact congrArg (copy.2 :: ·) others

theorem copyTable_ok {table result : Table ν σ} : copyTable table copies = .ok result ↔
      copyColumns (names table) copies = .ok (names result) ∧ result = table.map (fun column =>
          (column.1, (dictGet (madeCopies table copies) column.1).getD column.2)) ++
            (madeCopies table copies).filter fun column => column.1 ∉ names table := by
  have named : (∀ name ∈ copies.map Prod.fst, name ∈ names table) → names (table.map (fun column =>
        (column.1, (dictGet (madeCopies table copies) column.1).getD column.2)) ++
          (madeCopies table copies).filter fun column => column.1 ∉ names table) =
        names table ++ (copies.map Prod.snd).filter fun name => name ∉ names table := by
    intro present
    rw [← names_madeCopies present, names_append, ← names_filter]
    congr 1
    rw [names, map_map]
    rfl
  rw [copyTable, bind_ok]
  constructor
  · rintro ⟨frame, copying, computed⟩
    obtain ⟨present, _, rfl⟩ := copyColumns_ok.mp copying
    cases computed
    rw [named present]
    exact ⟨copying, rfl⟩
  · rintro ⟨copying, rfl⟩
    exact ⟨_, copying, rfl⟩

variable {gone : List ν}

/-- Dropping succeeds with the other columns. -/
theorem dropTable_ok {table result : Table ν σ} : dropTable table gone = .ok result ↔
      dropColumns (names table) gone = .ok (names result) ∧
        result = table.filter fun column => column.1 ∉ gone := by
  have remaining : names (table.filter fun column => column.1 ∉ gone) =
      (names table).filter fun name => name ∉ gone :=
    names_filter fun name => name ∉ gone
  rw [dropTable, bind_ok]
  constructor
  · rintro ⟨frame, dropping, computed⟩
    cases computed
    obtain ⟨_, rfl⟩ := dropColumns_ok.mp dropping
    rw [remaining]
    exact ⟨dropping, rfl⟩
  · rintro ⟨dropping, rfl⟩
    exact ⟨_, dropping, rfl⟩

variable {suffix : ν → ν}

theorem joinTable_ok {type : JoinType} {left right result : Table ν σ} {leftOn rightOn : List ν} :
    joinTable type suffix left right leftOn rightOn = .ok result ↔
      (∀ name ∈ leftOn, name ∈ names left) ∧ (∀ name ∈ rightOn, name ∈ names right) ∧
        (names (type.table suffix left right leftOn rightOn)).Nodup ∧
          result = type.table suffix left right leftOn rightOn := by
  rw [joinTable, requireColumns_then, requireColumns_then, bind_ok]
  simp only [requireDistinct_ok, Except.ok.injEq]
  constructor
  · rintro ⟨left, right, _, ⟨distinct, _⟩, rfl⟩
    exact ⟨left, right, distinct, rfl⟩
  · rintro ⟨left, right, distinct, rfl⟩
    exact ⟨left, right, _, ⟨distinct, rfl⟩, rfl⟩

theorem beside_of_apart {first second : Table ν σ}
    (apart : ∀ name ∈ names second, name ∉ names first) :
    beside suffix first second = first ++ second := by
  have same : (second.map fun column =>
      (if column.1 ∈ names first then suffix column.1 else column.1, column.2)) = second := by
    conv_rhs => rw [← map_id second]
    apply map_congr_left
    intro column mem
    rw [if_neg (apart column.1 (mem_map_of_mem mem))]
    rfl
  rw [beside, same]

/-- The table whose columns are entries, under names read off them. -/
def ofEntries (name : ε → ν) (origin : ε → σ) (entries : List ε) : Table ν σ :=
  entries.map fun entry => (name entry, origin entry)

section

variable {name target : ε → ν} {origin : ε → σ} {entries others : List ε}

omit [DecidableEq ν] in
@[simp] theorem names_ofEntries : names (ofEntries name origin entries) = entries.map name := by
  rw [names, ofEntries, map_map]
  rfl

omit [DecidableEq ν] in
/-- Tables of entries beside each other. -/
theorem ofEntries_append : ofEntries name origin (entries ++ others) =
      ofEntries name origin entries ++ ofEntries name origin others :=
  map_append

omit [DecidableEq ν] in
/-- Names matter only where there are entries. -/
theorem ofEntries_congr (same : ∀ entry ∈ entries, name entry = target entry) :
    ofEntries name origin entries = ofEntries target origin entries := by
  apply map_congr_left
  intro entry mem
  rw [same entry mem]

theorem beside_ofEntries :
    beside suffix (ofEntries name origin entries) (ofEntries name origin others) =
      ofEntries name origin entries ++ ofEntries (fun entry =>
        if name entry ∈ entries.map name then suffix (name entry) else name entry)
          origin others := by
  rw [beside, names_ofEntries, ofEntries, ofEntries, ofEntries, map_map]
  rfl

theorem dictGet_ofEntries (distinct : (entries.map name).Nodup) {entry : ε}
    (mem : entry ∈ entries) : dictGet (ofEntries name origin entries) (name entry) =
      some (origin entry) := by
  apply dictGet_of_mem
  · intro other inTable
    obtain ⟨owner, ownerMember, same⟩ := mem_map.mp inTable
    obtain ⟨sameName, rfl⟩ := Prod.mk.inj same
    rw [eq_of_name distinct ownerMember mem sameName]
  · exact mem_map_of_mem mem

theorem rename_ofEntries (titled : (entries.map name).map (renamed titles) = entries.map target) :
    ((ofEntries name origin entries).map fun column => (renamed titles column.1, column.2)) =
      ofEntries target origin entries := by
  rw [map_map, map_inj_left] at titled
  rw [ofEntries, map_map]
  apply map_congr_left
  intro entry mem
  exact congrArg (·, origin entry) (titled entry mem)

theorem filter_ofEntries : ((ofEntries name origin entries).filter fun column => column.1 ∉ gone) =
      ofEntries name origin (entries.filter fun entry => name entry ∉ gone) := by
  rw [ofEntries, filter_map]
  rfl

theorem copies_ofEntries {copied : List ε} (copyName : ε → ν)
    (distinct : (entries.map name).Nodup) (among : ∀ entry ∈ copied, entry ∈ entries)
    (free : ∀ entry ∈ copied, copyName entry ∉ entries.map name) :
    let table := ofEntries name origin entries
    let made := madeCopies table (copied.map fun entry => (name entry, copyName entry))
    (table.map (fun column => (column.1, (dictGet made column.1).getD column.2)) ++
      made.filter fun column => column.1 ∉ names table) =
        ofEntries name origin entries ++ ofEntries copyName origin copied := by
  have made : madeCopies (ofEntries name origin entries)
      (copied.map fun entry => (name entry, copyName entry)) =
        ofEntries copyName origin copied := by
    have each : ofEntries copyName origin copied =
        copied.filterMap fun entry => some (copyName entry, origin entry) := by
      rw [filterMap_eq_map', ofEntries]
    rw [madeCopies, filterMap_map, each]
    apply filterMap_congr
    intro entry mem
    simp only [Function.comp_apply, dictGet_ofEntries distinct (among entry mem), Option.map_some]
  simp only [made, names_ofEntries]
  congr 1
  · conv_rhs => rw [← map_id (ofEntries name origin entries)]
    apply map_congr_left
    intro column mem
    obtain ⟨entry, inEntries, rfl⟩ := mem_map.mp mem
    have absent : name entry ∉ (ofEntries copyName origin copied).map Prod.fst := by
      intro taken
      obtain ⟨copy, inCopied, same⟩ := mem_map.mp taken
      obtain ⟨owner, ownerCopied, rfl⟩ := mem_map.mp inCopied
      have taken : copyName owner = name entry := same
      exact free owner ownerCopied (taken ▸ mem_map_of_mem inEntries)
    simp only [dictGet_of_not_mem absent, Option.getD_none, id_eq]
  · rw [filter_eq_self]
    intro column mem
    obtain ⟨entry, inCopied, rfl⟩ := mem_map.mp mem
    simpa using free entry inCopied

theorem copyTable_ofEntries {copied : List ε} (copyName : ε → ν)
    (distinct : (entries.map name).Nodup) (among : ∀ entry ∈ copied, entry ∈ entries)
    (free : ∀ entry ∈ copied, copyName entry ∉ entries.map name)
    (copiesDistinct : (copied.map copyName).Nodup) :
    copyTable (ofEntries name origin entries)
      (copied.map fun entry => (name entry, copyName entry)) =
        .ok (ofEntries name origin entries ++ ofEntries copyName origin copied) := by
  have all := @copies_ofEntries _ _ _ _ name origin entries copied copyName distinct among free
  have sources : (copied.map fun entry => (name entry, copyName entry)).map Prod.fst =
      copied.map name := by
    rw [map_map]
    rfl
  have targets : (copied.map fun entry => (name entry, copyName entry)).map Prod.snd =
      copied.map copyName := by
    rw [map_map]
    rfl
  simp only [names_ofEntries] at all
  rw [copyTable_ok, copyColumns_ok, sources, targets, names_append, names_ofEntries,
    names_ofEntries]
  refine ⟨⟨?_, copiesDistinct, ?_⟩, all.symm⟩
  · intro other inSources
    obtain ⟨entry, mem, rfl⟩ := mem_map.mp inSources
    exact mem_map_of_mem (among entry mem)
  · congr 1
    symm
    rw [filter_eq_self]
    intro other isCopy
    obtain ⟨entry, mem, rfl⟩ := mem_map.mp isCopy
    exact decide_eq_true (free entry mem)

theorem filter_ofEntries_gone (distinct : (entries.map name).Nodup) {dropped : List ν}
    (gone : ε → Bool)
    (fromEntries : ∀ other ∈ dropped, ∃ entry ∈ entries, gone entry = true ∧ other = name entry)
    (listed : ∀ entry ∈ entries, gone entry = true → name entry ∈ dropped) :
    ((ofEntries name origin entries).filter fun column => column.1 ∉ dropped) =
      ofEntries name origin (entries.filter fun entry => !gone entry) := by
  rw [filter_ofEntries, filter_entries distinct gone fromEntries listed]

omit [DecidableEq ν] in
theorem ofEntries_perm (same : entries.Perm others) :
    (ofEntries name origin entries).Perm (ofEntries name origin others) :=
  same.map _

end

/-- An operation on one table. -/
inductive FrameStep (ν : Type) where
  | rename (titles : List (ν × ν))
  | withColumns (copies : List (ν × ν))
  | drop (gone : List ν)

/-- Carry out an operation. -/
def FrameStep.run (table : Table ν σ) : FrameStep ν → Except (FrameError ν) (Table ν σ)
  | .rename titles => renameTable table titles
  | .withColumns copies => copyTable table copies
  | .drop gone => dropTable table gone

/-- Carry out operations one after the other. -/
def runSteps (steps : List (FrameStep ν)) (table : Table ν σ) : Except (FrameError ν) (Table ν σ) :=
  steps.foldlM FrameStep.run table

/-- An operation that is left out when there is nothing to do. -/
def unlessEmpty {α : Type} (operation : List α → FrameStep ν) (items : List α) :
    List (FrameStep ν) :=
  if items.isEmpty then [] else [operation items]

section

variable {steps others : List (FrameStep ν)} {table result : Table ν σ}

/-- Two programs one after the other. -/
theorem runSteps_append (first : runSteps steps table = .ok result) :
    runSteps (steps ++ others) table = runSteps others result := by
  rw [runSteps, foldlM_append]
  exact (congrArg (· >>= fun table => runSteps others table) first).trans rfl

/-- Leaving out a renaming that has nothing to do makes no difference. -/
theorem runSteps_rename (ran : renameTable table titles = .ok result) :
    runSteps (unlessEmpty .rename titles) table = .ok result := by
  cases titles with
  | nil =>
    obtain ⟨_, rfl⟩ := renameTable_ok.mp ran
    have same : table.map (fun column => (renamed [] column.1, column.2)) = table :=
      map_id _
    rw [same]
    rfl
  | cons pair rest => exact bind_ok.mpr ⟨result, ran, rfl⟩

/-- Leaving out copies when there are none makes no difference. -/
theorem runSteps_withColumns (ran : copyTable table copies = .ok result) :
    runSteps (unlessEmpty .withColumns copies) table = .ok result := by
  cases copies with
  | nil =>
    obtain ⟨_, rfl⟩ := copyTable_ok.mp ran
    have same : table.map (fun column =>
        (column.1, (dictGet (madeCopies table []) column.1).getD column.2)) = table :=
      map_id _
    rw [same]
    simp [runSteps, unlessEmpty, madeCopies, pure, Except.pure]
  | cons pair rest => exact bind_ok.mpr ⟨result, ran, rfl⟩

/-- Leaving out a drop that has nothing to do makes no difference. -/
theorem runSteps_drop (ran : dropTable table gone = .ok result) :
    runSteps (unlessEmpty .drop gone) table = .ok result := by
  cases gone with
  | nil =>
    obtain ⟨_, rfl⟩ := dropTable_ok.mp ran
    simp [runSteps, unlessEmpty, pure, Except.pure]
  | cons name rest => exact bind_ok.mpr ⟨result, ran, rfl⟩

end

end Flowfile.Library.TracedFrames
