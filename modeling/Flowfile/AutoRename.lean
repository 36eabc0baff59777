import Flowfile.CrossJoin
import Flowfile.Library.Decorations

/-!
# Automatic renaming

Joins and cross joins rename right columns as long as a kept right name is also a kept left one. A
join appends a suffix. A cross join appends it or puts a prefix in front, as its caller asks.

Renaming ends, and no kept name belongs to both sides then. Whether two right columns end up under
one name is seen from the names at the start: one of them must be the other one with decorations, on
names that all are kept on the left.
-/

namespace Flowfile.Join

open Library.Decorations

/-- How a name that overlaps is decorated. -/
inductive RenameMode where
  | prefixed
  | suffixed

def RenameMode.decorate : RenameMode → String → String
  | .prefixed, name => "right_" ++ name
  | .suffixed, name => name ++ "_right"

/-- Kept names that both sides have. -/
def getOverlappingRecords (left right : List SelectInput) : List String :=
  (getNewCols left).filter fun name => name ∈ getNewCols right

def renamePass (mode : RenameMode) (overlapping : List String)
    (right : List SelectInput) : List SelectInput :=
  right.map (SelectInput.retitle fun name =>
    if name ∈ overlapping then mode.decorate name else name)

def renameLoop (mode : RenameMode) (left : List SelectInput) :
    Nat → List SelectInput → Option (List SelectInput)
  | 0, _ => none
  | fuel + 1, right =>
    if (getOverlappingRecords left right).isEmpty then some right
    else renameLoop mode left fuel (renamePass mode (getOverlappingRecords left right) right)

def JoinInput.autoRenameWithin (fuel : Nat) (input : JoinInput) : Option JoinInput :=
  let marked := input.setJoinKeys
  (renameLoop .suffixed marked.leftSelect fuel marked.rightSelect).map fun right =>
    { marked with rightSelect := right }

def CrossJoinInput.autoRenameWithin (mode : RenameMode) (fuel : Nat)
    (input : CrossJoinInput) : Option CrossJoinInput :=
  (renameLoop mode input.leftSelect fuel input.rightSelect).map fun right =>
    { input with rightSelect := right }

def JoinInput.outputNames (input : JoinInput) : List String :=
  getNewCols input.leftSelect ++ getNewCols input.rightSelect

def CrossJoinInput.outputNames (input : CrossJoinInput) : List String :=
  getNewCols input.leftSelect ++ getNewCols input.rightSelect

def ReturnsDistinct (names : Nat → Option (List String)) : Prop :=
  ∃ result, result.Nodup ∧ ∃ enough, ∀ fuel ≥ enough, names fuel = some result

def RenameMode.decoration (mode : RenameMode) : Decoration String where
  next := mode.decorate
  size := String.length
  longer name := by
    cases mode with
    | prefixed =>
      rw [RenameMode.decorate, String.length_append]
      exact Nat.lt_add_of_pos_left (by decide)
    | suffixed =>
      rw [RenameMode.decorate, String.length_append]
      exact Nat.lt_add_of_pos_right (by decide)
  injective := by
    intro first second same
    cases mode with
    | prefixed => exact String.append_right_inj _ |>.mp same
    | suffixed => exact String.append_left_inj _ |>.mp same

variable {mode : RenameMode} {left right : List SelectInput}

/-- No kept right name turns into another one by decorations on kept left names. -/
def Unconfused (mode : RenameMode) (left right : List SelectInput) : Prop :=
  ∀ first ∈ getNewCols right, ∀ second ∈ getNewCols right,
    ¬ Reaches mode.decoration (getNewCols left) first second

variable {name : String}

/-- Overlapping names are kept names of both sides. -/
theorem mem_getOverlappingRecords : name ∈ getOverlappingRecords left right ↔
      name ∈ getNewCols left ∧ name ∈ getNewCols right := by
  simp [getOverlappingRecords]

/-- Kept names after a pass. -/
theorem getNewCols_renamePass (overlapping : List String) :
    getNewCols (renamePass mode overlapping right) = (getNewCols right).map fun name =>
      if name ∈ overlapping then mode.decorate name else name :=
  getNewCols_retitle _ _

variable {fuel : Nat} {result : List SelectInput}

theorem renameLoop_titles (ended : renameLoop mode left fuel right = some result) :
    ∃ title, result = right.map (SelectInput.retitle title) ∧ ∀ name ∈ getNewCols right,
        Settles mode.decoration (getNewCols left) name (title name) := by
  induction fuel generalizing right with
  | zero => cases ended
  | succ fuel inner =>
    rw [renameLoop] at ended
    split at ended
    case isTrue done =>
      rw [List.isEmpty_iff] at done
      refine ⟨id, ?_, fun name kept => .free fun taken => ?_⟩
      · cases ended
        exact (List.map_id _).symm
      · have overlaps := mem_getOverlappingRecords.mpr ⟨taken, kept⟩
        rw [done] at overlaps
        cases overlaps
    case isFalse =>
      obtain ⟨title, rfl, settles⟩ := inner ended
      rw [getNewCols_renamePass] at settles
      refine ⟨_, retitle_retitle _ _ _, fun name kept => ?_⟩
      have later := settles _ (List.mem_map_of_mem kept)
      by_cases taken : name ∈ getNewCols left
      · rw [if_pos (mem_getOverlappingRecords.mpr ⟨taken, kept⟩)] at later
        refine .taken taken ?_
        rw [Function.comp_apply, if_pos (mem_getOverlappingRecords.mpr ⟨taken, kept⟩)]
        exact later
      · have apart : name ∉ getOverlappingRecords left right :=
          fun overlaps => taken (mem_getOverlappingRecords.mp overlaps).1
        rw [if_neg apart] at later
        rw [Function.comp_apply, if_neg apart]
        exact later

theorem renameLoop_ends {bound : Nat} (bounded : ∀ name ∈ getNewCols left, name.length ≤ bound)
    (fuel grown : Nat) (enough : bound < grown + fuel)
    (long : ∀ name ∈ getOverlappingRecords left right, grown ≤ name.length) :
    ∃ result, renameLoop mode left (fuel + 1) right = some result := by
  induction fuel generalizing grown right with
  | zero =>
    have none : getOverlappingRecords left right = [] := by
      rw [List.eq_nil_iff_forall_not_mem]
      intro name overlaps
      have below := bounded name (mem_getOverlappingRecords.mp overlaps).1
      have above := long name overlaps
      omega
    rw [renameLoop, none]
    exact ⟨right, rfl⟩
  | succ fuel inner =>
    rw [renameLoop]
    split
    · exact ⟨right, rfl⟩
    · refine inner (grown + 1) (by omega) fun name overlaps => ?_
      obtain ⟨inLeft, inRight⟩ := mem_getOverlappingRecords.mp overlaps
      rw [getNewCols_renamePass] at inRight
      obtain ⟨old, oldKept, rfl⟩ := List.mem_map.mp inRight
      by_cases overlapped : old ∈ getOverlappingRecords left right
      · rw [if_pos overlapped]
        exact Nat.lt_of_le_of_lt (long old overlapped) (mode.decoration.longer old)
      · -- a name that is not decorated overlapped before already
        rw [if_neg overlapped] at inLeft
        exact absurd (mem_getOverlappingRecords.mpr ⟨inLeft, oldKept⟩) overlapped

theorem renameLoop_stable {more : Nat}
    (ended : renameLoop mode left fuel right = some result) (enough : fuel ≤ more) :
    renameLoop mode left more right = some result := by
  induction fuel generalizing more right with
  | zero => cases ended
  | succ fuel inner =>
    obtain ⟨more, rfl⟩ : ∃ less, more = less + 1 := ⟨more - 1, by omega⟩
    rw [renameLoop] at ended ⊢
    split
    case isTrue done => rwa [if_pos done] at ended
    case isFalse overlaps =>
      rw [if_neg overlaps] at ended
      exact inner ended (Nat.le_of_succ_le_succ enough)

/-- Automatic renaming always ends. -/
theorem renameLoop_returns (mode : RenameMode) (left right : List SelectInput) :
    ∃ result enough, ∀ fuel ≥ enough, renameLoop mode left fuel right = some result := by
  obtain ⟨bound, bounded⟩ := sizes_bounded String.length (getNewCols left)
  have ends : ∃ result, renameLoop mode left (bound + 1 + 1) right = some result :=
    renameLoop_ends bounded (bound + 1) 0 (by omega) fun _ _ => Nat.zero_le _
  obtain ⟨result, ended⟩ := ends
  exact ⟨result, bound + 2, fun fuel enough => renameLoop_stable ended enough⟩

theorem renameLoop_nodup (ended : renameLoop mode left fuel right = some result)
    (leftDistinct : (getNewCols left).Nodup) (rightDistinct : (getNewCols right).Nodup) :
    (getNewCols left ++ getNewCols result).Nodup ↔ Unconfused mode left right := by
  obtain ⟨title, rfl, settles⟩ := renameLoop_titles ended
  rw [getNewCols_retitle, List.nodup_append, nodup_map_iff settles rightDistinct]
  constructor
  · exact fun distinct => distinct.2.1
  · refine fun unconfused => ⟨leftDistinct, unconfused, ?_⟩
    rintro name inLeft _ inRight rfl
    obtain ⟨old, kept, rfl⟩ := List.mem_map.mp inRight
    exact (settles old kept).isFree inLeft

theorem returnsDistinct_iff {names : Nat → Option (List String)}
    (isLoop : ∀ fuel, names fuel = (renameLoop mode left fuel right).map fun result =>
      getNewCols left ++ getNewCols result)
    (leftDistinct : (getNewCols left).Nodup) (rightDistinct : (getNewCols right).Nodup) :
    ReturnsDistinct names ↔ Unconfused mode left right := by
  obtain ⟨result, enough, ended⟩ := renameLoop_returns mode left right
  have returned : ∀ fuel ≥ enough, names fuel = some (getNewCols left ++ getNewCols result) := by
    intro fuel isEnough
    rw [isLoop, ended fuel isEnough, Option.map_some]
  rw [← renameLoop_nodup (ended enough (Nat.le_refl _)) leftDistinct rightDistinct]
  constructor
  · rintro ⟨others, distinct, least, alsoReturned⟩
    have same := (alsoReturned (max enough least) (Nat.le_max_right _ _)).symm.trans
      (returned _ (Nat.le_max_left _ _))
    rwa [Option.some.inj same] at distinct
  · exact fun distinct => ⟨_, distinct, enough, returned⟩

theorem JoinInput.returnsDistinct_iff (join : JoinInput)
    (leftDistinct : (getNewCols join.leftSelect).Nodup)
    (rightDistinct : (getNewCols join.rightSelect).Nodup) :
    (ReturnsDistinct fun fuel => (join.autoRenameWithin fuel).map JoinInput.outputNames) ↔
      Unconfused .suffixed join.leftSelect join.rightSelect := by
  have marked : Unconfused .suffixed join.setJoinKeys.leftSelect join.setJoinKeys.rightSelect ↔
      Unconfused .suffixed join.leftSelect join.rightSelect := by
    simp only [Unconfused, JoinInput.setJoinKeys, getNewCols_markKeys]
  rw [← marked]
  apply Join.returnsDistinct_iff
  · intro fuel
    rw [JoinInput.autoRenameWithin, Option.map_map]
    rfl
  · rwa [JoinInput.setJoinKeys, getNewCols_markKeys]
  · rwa [JoinInput.setJoinKeys, getNewCols_markKeys]

theorem CrossJoinInput.returnsDistinct_iff (cross : CrossJoinInput) (mode : RenameMode)
    (leftDistinct : (getNewCols cross.leftSelect).Nodup)
    (rightDistinct : (getNewCols cross.rightSelect).Nodup) :
    (ReturnsDistinct fun fuel =>
        (cross.autoRenameWithin mode fuel).map CrossJoinInput.outputNames) ↔
      Unconfused mode cross.leftSelect cross.rightSelect := by
  apply Join.returnsDistinct_iff _ leftDistinct rightDistinct
  intro fuel
  rw [CrossJoinInput.autoRenameWithin, Option.map_map]
  rfl

/-- Where the kept names of each side are distinct, automatic renaming of a join and of a cross join
returns distinct names exactly if no kept right name turns into another one by decorations on kept
left names. -/
theorem autoRename_distinct_iff (join : JoinInput) (cross : CrossJoinInput) (mode : RenameMode)
    (joinLeft : (getNewCols join.leftSelect).Nodup)
    (joinRight : (getNewCols join.rightSelect).Nodup)
    (crossLeft : (getNewCols cross.leftSelect).Nodup)
    (crossRight : (getNewCols cross.rightSelect).Nodup) :
    ((ReturnsDistinct fun fuel => (join.autoRenameWithin fuel).map JoinInput.outputNames) ↔
        Unconfused .suffixed join.leftSelect join.rightSelect) ∧
      ((ReturnsDistinct fun fuel =>
          (cross.autoRenameWithin mode fuel).map CrossJoinInput.outputNames) ↔
        Unconfused mode cross.leftSelect cross.rightSelect) :=
  ⟨join.returnsDistinct_iff joinLeft joinRight, cross.returnsDistinct_iff mode crossLeft crossRight⟩

/-- A left column and two right ones, one of which has its name with a suffix. -/
def suffixedTwin : JoinInput :=
  ⟨[], [.ofColumn "a"], [.ofColumn "a", .ofColumn "a_right"], .inner⟩

def prefixedTwin : CrossJoinInput :=
  ⟨[.ofColumn "a"], [.ofColumn "a", .ofColumn "right_a"]⟩

/-- A left and a right column of one name. -/
def sharedColumn : JoinInput :=
  ⟨[], [.ofColumn "a"], [.ofColumn "a"], .inner⟩

theorem autoRename_distinct_iff_twins : ((ReturnsDistinct fun fuel =>
        (sharedColumn.autoRenameWithin fuel).map JoinInput.outputNames) ↔
        Unconfused .suffixed sharedColumn.leftSelect sharedColumn.rightSelect) ∧
      ((ReturnsDistinct fun fuel =>
          (prefixedTwin.autoRenameWithin .prefixed fuel).map CrossJoinInput.outputNames) ↔
        Unconfused .prefixed prefixedTwin.leftSelect prefixedTwin.rightSelect) :=
  autoRename_distinct_iff sharedColumn prefixedTwin .prefixed (by decide) (by decide) (by decide)
    (by decide)

theorem confused_of_next (inLeft : name ∈ getNewCols left)
    (inRight : name ∈ getNewCols right) (decorated : mode.decorate name ∈ getNewCols right) :
    ¬ Unconfused mode left right := by
  intro unconfused
  refine unconfused name inRight _ decorated ⟨0, rfl, fun below least => ?_⟩
  rw [Nat.le_zero.mp least]
  exact inLeft

theorem autoRename_confused :
    ((getNewCols suffixedTwin.leftSelect).Nodup ∧ (getNewCols suffixedTwin.rightSelect).Nodup ∧
      ¬ ReturnsDistinct fun fuel =>
        (suffixedTwin.autoRenameWithin fuel).map JoinInput.outputNames) ∧
    (getNewCols prefixedTwin.leftSelect).Nodup ∧ (getNewCols prefixedTwin.rightSelect).Nodup ∧
      ¬ ReturnsDistinct fun fuel =>
        (prefixedTwin.autoRenameWithin .prefixed fuel).map CrossJoinInput.outputNames := by
  refine ⟨⟨by decide, by decide, fun distinct => ?_⟩, by decide, by decide, fun distinct => ?_⟩
  · exact confused_of_next (by decide : "a" ∈ _) (by decide) (by decide)
      ((suffixedTwin.returnsDistinct_iff (by decide) (by decide)).mp distinct)
  · exact confused_of_next (by decide : "a" ∈ _) (by decide) (by decide)
      ((prefixedTwin.returnsDistinct_iff .prefixed (by decide) (by decide)).mp distinct)

end Flowfile.Join
