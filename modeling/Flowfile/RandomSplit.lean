import Flowfile.Library.Doubles
import Mathlib.Data.List.Nodup

/-!
# Random splits

A table is shuffled and cut into named parts. All parts but the last one have a rounded share of the
rows, the last one has what is left. In the process that runs the flow the rows of a part are
counted; a part that stays with the worker reports the size at which it was cut.

The parts always are a partition of the rows. What they report is right exactly when the rounded
shares together are no more than the rows there are.
-/

namespace Flowfile.RandomSplit

open Library.Doubles List

structure RandomSplitGroup where
  name : String
  percentage : Double

/-- Settings of a split. That percentages make up a hundred, how names are written and how many
there are is checked too, but nothing here depends on it. -/
structure NodeRandomSplit where
  splits : List RandomSplitGroup
  nonempty : splits ≠ []
  distinct : (splits.map RandomSplitGroup.name).Nodup
  positive : ∀ split ∈ splits, split.percentage.nonpositive = false

/-- One output: its rows, by their places in the shuffled table, and how many it reports. -/
structure Part where
  name : String
  rows : List Nat
  numberOfRecords : Int

def share (total : Nat) : Double → Option Int
  | .finite percentage =>
    some (roundHalfEven (toDouble (toDouble (toDouble total * percentage) / 100)))
  | .infinite _ | .nan => none

/-- Some rows from an offset on. Those beyond the end are not there. -/
def slice (total : Nat) (offset length : Int) : List Nat :=
  ((List.range total).drop offset.toNat).take length.toNat

def cutFrom (total : Nat) (clamp : Int → Int) (report : Int → List Nat → Int) :
    Int → List RandomSplitGroup → Option (List Part)
  | _, [] => some []
  | offset, [last] =>
    let length := clamp (total - offset)
    let rows := slice total offset (max 0 length)
    some [⟨last.name, rows, report length rows⟩]
  | offset, split :: next :: rest =>
    (share total split.percentage).bind fun size =>
      let length := clamp size
      let rows := slice total offset (max 0 length)
      (cutFrom total clamp report (offset + length) (next :: rest)).map fun parts =>
        ⟨split.name, rows, report length rows⟩ :: parts

/-- Parts in the process that runs the flow. Their rows are counted. -/
def randomSplit (total : Nat) (splits : List RandomSplitGroup) : Option (List Part) :=
  cutFrom total (fun length => length) (fun _ rows => rows.length) 0 splits

def randomSplitExternal (total : Nat) (splits : List RandomSplitGroup) : Option (List Part) :=
  cutFrom total (max 0) (fun length _ => length) 0 splits

structure Splits (total : Nat) (splits : List RandomSplitGroup) (parts : List Part) : Prop where
  names : parts.map Part.name = splits.map RandomSplitGroup.name
  disjoint : (parts.map Part.rows).Pairwise List.Disjoint
  once : ∀ part ∈ parts, part.rows.Nodup
  covers : ∀ row, (∃ part ∈ parts, row ∈ part.rows) ↔ row < total
  counted : ∀ part ∈ parts, part.numberOfRecords = part.rows.length

def shares (total : Nat) (splits : List RandomSplitGroup) : Option (List Int) :=
  splits.dropLast.mapM fun split => share total split.percentage

theorem share_nonneg {total : Nat} {percentage : Double} {size : Int}
    (positive : percentage.nonpositive = false) (shared : share total percentage = some size) :
    0 ≤ size := by
  cases percentage with
  | finite value =>
    cases shared
    have above : 0 ≤ value := (lt_of_not_ge (of_decide_eq_false positive)).le
    have product : 0 ≤ toDouble total * value :=
      mul_nonneg (toDouble_nonneg (Nat.cast_nonneg total)) above
    exact roundHalfEven_nonneg
      (toDouble_nonneg (div_nonneg (toDouble_nonneg product) (by decide +kernel)))
  | infinite negative => cases shared
  | nan => cases shared

variable {offset : Int}

/-- A slice has as many rows as it was cut for, if there are so many. -/
theorem length_slice_eq_iff {total : Nat} {length : Int} (start : 0 ≤ offset)
    (nonneg : 0 ≤ length) :
    length = (slice total offset length).length ↔ length = 0 ∨ offset + length ≤ total := by
  rw [slice, length_take, length_drop, length_range]
  omega

theorem shares_cons (total : Nat) (split next : RandomSplitGroup) (rest : List RandomSplitGroup) :
    shares total (split :: next :: rest) = (share total split.percentage).bind fun size =>
      (shares total (next :: rest)).map fun sizes => size :: sizes := by
  rw [shares, dropLast_cons_cons, mapM_cons]
  cases share total split.percentage with
  | none => rfl
  | some size =>
    rw [shares]
    cases (next :: rest).dropLast.mapM fun split => share total split.percentage <;> rfl

variable {splits : List RandomSplitGroup} {sizes : List Int}

section

variable {total : Nat} {clamp : Int → Int} {report : Int → List Nat → Int}

theorem cutFrom_cons (offset : Int) (split next : RandomSplitGroup) (rest : List RandomSplitGroup)
    {size : Int} (shared : share total split.percentage = some size)
    (keeps : clamp size = size) (nonneg : 0 ≤ size) :
    cutFrom total clamp report offset (split :: next :: rest) =
      (cutFrom total clamp report (offset + size) (next :: rest)).map fun parts =>
        ⟨split.name, slice total offset size, report size (slice total offset size)⟩ :: parts := by
  rw [cutFrom, shared, Option.bind_some]
  dsimp only
  rw [keeps, max_eq_right nonneg]

/-- Without a share there is an error. -/
theorem cutFrom_none (offset : Int)
    (missing : shares total splits = none) : cutFrom total clamp report offset splits = none := by
  induction splits generalizing offset with
  | nil => cases missing
  | cons split rest ih =>
    cases rest with
    | nil => cases missing
    | cons next rest =>
    rw [cutFrom]
    rw [shares_cons] at missing
    cases shared : share total split.percentage with
    | none => rfl
    | some size =>
    rw [shared, Option.bind_some, Option.map_eq_none_iff] at missing
    rw [Option.bind_some]
    dsimp only
    rw [ih _ missing]
    rfl

variable (report) in
theorem cutFrom_some (keeps : ∀ length, 0 ≤ length → clamp length = length) (start : 0 ≤ offset)
    (nonempty : splits ≠ []) (positive : ∀ split ∈ splits, split.percentage.nonpositive = false)
    (shared : shares total splits = some sizes) :
    ∃ parts, cutFrom total clamp report offset splits = some parts ∧
      parts.map Part.name = splits.map RandomSplitGroup.name ∧
      (parts.map Part.rows).flatten = (List.range total).drop offset.toNat := by
  induction splits generalizing offset sizes with
  | nil => exact absurd rfl nonempty
  | cons split rest ih =>
    cases rest with
    | nil =>
      refine ⟨_, rfl, rfl, ?_⟩
      rw [map_singleton, flatten_singleton, slice]
      refine take_of_length_le ?_
      rw [length_drop, length_range]
      rcases Int.le_total 0 (total - offset) with inside | beyond
      · rw [keeps _ inside]
        omega
      · omega
    | cons next rest =>
      rw [shares_cons] at shared
      obtain ⟨size, isShare, others⟩ := Option.bind_eq_some_iff.mp shared
      obtain ⟨sizes, later, rfl⟩ := Option.map_eq_some_iff.mp others
      have nonneg := share_nonneg (positive split mem_cons_self) isShare
      obtain ⟨parts, cut, names, rows⟩ := ih (Int.add_nonneg start nonneg)
        (cons_ne_nil _ _) (fun other mem => positive other (mem_cons_of_mem _ mem))
        later
      refine ⟨_, (cutFrom_cons offset split next rest isShare (keeps _ nonneg) nonneg).trans
        (congrArg _ cut), ?_, ?_⟩
      · exact congrArg (split.name :: ·) names
      · have further : (offset + size).toNat = offset.toNat + size.toNat :=
          Int.toNat_add start nonneg
        rw [map_cons, flatten_cons, rows, further, slice, ← drop_drop, take_append_drop]

end

variable {parts : List Part}

section

variable {total : Nat}

theorem counted_randomSplit (offset : Int)
    (cut : cutFrom total (fun length => length) (fun _ rows => rows.length) offset splits =
      some parts) : ∀ part ∈ parts, part.numberOfRecords = part.rows.length := by
  induction splits generalizing offset parts with
  | nil =>
    obtain rfl : [] = parts := Option.some.inj cut
    nofun
  | cons split rest ih =>
    cases rest with
    | nil =>
      cases cut
      intro part mem
      rw [mem_singleton.mp mem]
    | cons next rest =>
    rw [cutFrom] at cut
    obtain ⟨size, _, later⟩ := Option.bind_eq_some_iff.mp cut
    obtain ⟨others, cutLater, rfl⟩ := Option.map_eq_some_iff.mp later
    intro part mem
    rcases mem_cons.mp mem with rfl | mem
    · rfl
    · exact ih _ cutLater part mem

/-- A worker reports what is there as long as the shares do not exceed what is left. -/
theorem counted_external_iff (start : 0 ≤ offset)
    (positive : ∀ split ∈ splits, split.percentage.nonpositive = false)
    (shared : shares total splits = some sizes)
    (cut : cutFrom total (max 0) (fun length _ => length) offset splits = some parts) :
    0 ≤ sizes.sum ∧ ((∀ part ∈ parts, part.numberOfRecords = part.rows.length) ↔
      sizes.sum = 0 ∨ offset + sizes.sum ≤ total) := by
  induction splits generalizing offset sizes parts with
  | nil =>
    cases shared
    cases cut
    exact ⟨le_refl _, fun _ => .inl rfl, fun _ => nofun⟩
  | cons split rest ih =>
    cases rest with
    | nil =>
      cases shared
      cases cut
      refine ⟨le_refl _, fun _ => .inl rfl, fun _ part mem => ?_⟩
      rw [mem_singleton.mp mem]
      dsimp only
      rw [slice, length_take, length_drop, length_range]
      omega
    | cons next rest =>
      rw [shares_cons] at shared
      obtain ⟨size, isShare, others⟩ := Option.bind_eq_some_iff.mp shared
      obtain ⟨sizes, later, rfl⟩ := Option.map_eq_some_iff.mp others
      have nonneg := share_nonneg (positive split mem_cons_self) isShare
      rw [cutFrom_cons offset split next rest isShare (max_eq_right nonneg) nonneg] at cut
      obtain ⟨parts, cutLater, rfl⟩ := Option.map_eq_some_iff.mp cut
      obtain ⟨nonnegLater, counted⟩ := ih (Int.add_nonneg start nonneg)
        (fun other mem => positive other (mem_cons_of_mem _ mem)) later cutLater
      rw [forall_mem_cons, counted, length_slice_eq_iff start nonneg, sum_cons]
      omega

end

theorem splits_of_flatten {total : Nat}
    (names : parts.map Part.name = splits.map RandomSplitGroup.name)
    (rows : (parts.map Part.rows).flatten = List.range total)
    (counted : ∀ part ∈ parts, part.numberOfRecords = part.rows.length) :
    Splits total splits parts := by
  have distinct : (parts.map Part.rows).flatten.Nodup := rows ▸ nodup_range
  obtain ⟨once, disjoint⟩ := nodup_flatten.mp distinct
  refine ⟨names, disjoint, fun part mem => once _ (mem_map_of_mem mem), fun row => ?_,
    counted⟩
  rw [← mem_range, ← rows, mem_flatten]
  simp

/-- Both ways to split give the rows of the table to the parts and count them right, exactly when
all shares but the last one are numbers that together are no more than the rows. -/
theorem randomSplit_iff (settings : NodeRandomSplit) (total : Nat) :
    ((∃ parts, randomSplit total settings.splits = some parts ∧
        Splits total settings.splits parts) ∧
      ∃ parts, randomSplitExternal total settings.splits = some parts ∧
        Splits total settings.splits parts) ↔
      ∃ sizes, shares total settings.splits = some sizes ∧ sizes.sum ≤ total := by
  cases shared : shares total settings.splits with
  | none =>
    constructor
    · rintro ⟨⟨parts, cut, _⟩, _⟩
      rw [randomSplit, cutFrom_none 0 shared] at cut
      cases cut
    · rintro ⟨sizes, impossible, _⟩
      cases impossible
  | some sizes =>
  obtain ⟨parts, cut, names, rows⟩ := cutFrom_some (fun _ rows => rows.length)
    (fun _ _ => rfl) (le_refl 0) settings.nonempty settings.positive shared
  obtain ⟨external, cutExternal, externalNames, externalRows⟩ :=
    cutFrom_some (fun length _ => length) (fun _ => max_eq_right) (le_refl 0) settings.nonempty
      settings.positive shared
  obtain ⟨nonneg, counted⟩ := counted_external_iff (le_refl 0) settings.positive shared
    cutExternal
  constructor
  · rintro ⟨_, other, cutOther, splits⟩
    cases cutExternal.symm.trans cutOther
    have fits := counted.mp splits.counted
    exact ⟨sizes, rfl, by omega⟩
  · rintro ⟨_, same, fits⟩
    cases same
    exact ⟨⟨parts, cut, splits_of_flatten names rows (counted_randomSplit 0 cut)⟩, external,
      cutExternal, splits_of_flatten externalNames externalRows (counted.mpr (by omega))⟩

/-- Ten parts of ten percent each. -/
def tenths : NodeRandomSplit where
  splits := ["a", "b", "c", "d", "e", "f", "g", "h", "i", "j"].map fun name => ⟨name, .finite 10⟩
  nonempty := cons_ne_nil _ _
  distinct := by decide
  positive := by decide +kernel

/-- Of seven rows each part is to have one. The last parts report a row that they do not have. -/
theorem tenths_of_seven : ¬ ∃ parts, randomSplitExternal 7 tenths.splits = some parts ∧
    Splits 7 tenths.splits parts := by
  rintro ⟨parts, cut, splits⟩
  have shared : shares 7 tenths.splits = some (List.replicate 9 1) := by decide +kernel
  obtain ⟨_, counted⟩ := counted_external_iff (le_refl 0) tenths.positive shared cut
  exact absurd (counted.mp splits.counted) (by decide)

end Flowfile.RandomSplit
