import Flowfile.CrossJoin
import Flowfile.JoinSchema
import Mathlib.Algebra.Order.BigOperators.Group.List
import Mathlib.Algebra.Order.Group.Nat

/-!
# The predicted schema of a cross join

The prediction puts the listed columns into the order of the tables, renames right columns while
kept names overlap and lists what is kept. The execution follows the order of the settings, renames
with the columns that have vanished still listed, and drops keys that are not kept only after both
tables are beside each other.

The names agree when kept columns are listed in the order of the tables, no vanished column takes a
name, and no key that is dropped shares a name with the other side.
-/

namespace Flowfile.Join

open Library.ColumnFrames Library.TracedFrames List
open FlowfileColumn (columnName)
open SelectInput (newName selected oldName retitle titleAmong isAvailable)

def CrossJoinInput.ensureAllColumnsHaveSelect (leftCols rightCols : List String)
    (input : CrossJoinInput) : CrossJoinInput :=
  ⟨withMissing input.leftSelect leftCols, withMissing input.rightSelect rightCols⟩

/-- Put both sides into the order of their tables. -/
def CrossJoinInput.orderByColumns (leftCols rightCols : List String)
    (input : CrossJoinInput) : CrossJoinInput :=
  ⟨orderBy leftCols input.leftSelect, orderBy rightCols input.rightSelect⟩

def calculateCrossJoinSchema (input : CrossJoinInput) (left right : TableSchema) :
    List FlowfileColumn :=
  let manager := input.ensureAllColumnsHaveSelect left.names right.names
  let manager := (manager.orderByColumns left.names right.names).autoRename
  predictedColumns left manager.leftSelect ++ predictedColumns right manager.rightSelect

variable {selects : List SelectInput} {predicted : SelectInput → String}

section

variable {first second : List SelectInput} {title : SelectInput → String}

/-- The names of the columns that are not kept. -/
def gone (selects : List SelectInput) (title : SelectInput → String) : List String :=
  (selects.filter fun select => !select.keep).map title

variable (first title) in
def nameBeside (select : SelectInput) : String :=
  besideName (first.map newName) (title select)

variable (first second title) in
/-- Both tables beside each other, without the columns that are not kept. -/
def droppedBeside : List String :=
  (first.map newName ++ second.map (nameBeside first title)).filter fun name =>
    name ∉ gone first newName ++ gone second title

structure Distinct (first second : List SelectInput) (title : SelectInput → String) : Prop where
  names : (first.map newName ++ second.map (nameBeside first title)).Nodup
  titles : (second.map title).Nodup

theorem nameBeside_of_free {select : SelectInput} (free : title select ∉ first.map newName) :
    nameBeside first title select = title select :=
  if_neg free

theorem mem_gone {name : String} : name ∈ gone selects title ↔
      ∃ select ∈ selects, select.keep = false ∧ title select = name := by
  simp [gone, and_assoc]

theorem Distinct.left_over (distinct : Distinct first second title) :
    droppedBeside first second title =
      (first.filter fun select => select.keep && decide (select.newName ∉ gone second title)).map
          newName ++
        (second.filter fun select =>
          select.keep || decide (title select ∈ first.map newName)).map
            (nameBeside first title) := by
  obtain ⟨leftDistinct, rightDistinct, apart⟩ := nodup_append.mp distinct.names
  rw [droppedBeside, filter_append, filter_map, filter_map]
  congr 2
  · refine filter_congr fun select mem => ?_
    have own : select.newName ∈ gone first newName ↔ select.keep = false := by
      rw [mem_gone]
      constructor
      · rintro ⟨other, otherMember, dropped, same⟩
        rwa [← inj_on_of_nodup_map leftDistinct otherMember mem same]
      · exact fun dropped => ⟨select, mem, dropped, rfl⟩
    cases keep : select.keep <;> simp [own, keep]
  · refine filter_congr fun select mem => ?_
    have notLeft : nameBeside first title select ∉ gone first newName := by
      rw [mem_gone]
      rintro ⟨other, otherMember, _, same⟩
      exact apart _ (mem_map_of_mem otherMember) _ (mem_map_of_mem mem) same
    have own : nameBeside first title select ∈ gone second title ↔
        select.keep = false ∧ title select ∉ first.map newName := by
      rw [mem_gone]
      constructor
      · rintro ⟨other, otherMember, dropped, same⟩
        have free : title other ∉ first.map newName := fun taken =>
          apart _ taken _ (mem_map_of_mem mem) same
        have sameSelect := inj_on_of_nodup_map rightDistinct otherMember mem
          ((nameBeside_of_free free).trans same)
        exact sameSelect ▸ ⟨dropped, free⟩
      · rintro ⟨dropped, free⟩
        exact ⟨select, mem, dropped, (nameBeside_of_free free).symm⟩
    by_cases taken : title select ∈ first.map newName <;>
      cases keep : select.keep <;> simp [own, notLeft, keep, taken]

/-- Where no right column has the name of a left one, the kept columns are left. -/
theorem droppedBeside_apart (distinct : Distinct first second title)
    (apart : ∀ select ∈ second, title select ∉ first.map newName) :
    droppedBeside first second title = (first.filter SelectInput.keep).map newName ++
        (second.filter SelectInput.keep).map title := by
  rw [distinct.left_over]
  congr 1
  · congr 1
    refine filter_congr fun select mem => ?_
    have survives : select.newName ∉ gone second title := by
      rw [mem_gone]
      rintro ⟨other, otherMember, _, same⟩
      exact apart other otherMember (same ▸ mem_map_of_mem mem)
    simp [survives]
  · have kept : (second.filter fun select =>
        select.keep || decide (title select ∈ first.map newName)) =
          second.filter SelectInput.keep :=
      filter_congr fun select mem => by simp [apart select mem]
    rw [kept]
    exact map_congr_left fun select mem =>
      nameBeside_of_free (apart select (mem_filter.mp mem).1)

variable (first second title) in
/-- Kept left columns that go with a dropped right one of the same name. -/
def lost : List SelectInput :=
  (first.filter SelectInput.keep).filter fun select =>
    decide (select.newName ∈ gone second title)

variable (first second title) in
/-- Dropped right columns that stay, since a left one has their name. -/
def stuck : List SelectInput :=
  second.filter fun select =>
    !select.keep && decide (title select ∈ first.map newName)

section

variable (distinct : Distinct first second title)
include distinct

/-- Each left column that is lost has its name from a right one that stays. -/
theorem Distinct.lost_le :
    (lost first second title).length ≤ (stuck first second title).length := by
  have named : (lost first second title).map newName ⊆
      (stuck first second title).map title := by
    intro name mem
    obtain ⟨select, isLost, rfl⟩ := mem_map.mp mem
    obtain ⟨isKept, named⟩ := mem_filter.mp isLost
    obtain ⟨other, otherMember, dropped, sameName⟩ := mem_gone.mp (of_decide_eq_true named)
    refine sameName ▸ mem_map_of_mem (mem_filter.mpr ⟨otherMember, ?_⟩)
    simp only [dropped, Bool.not_false, Bool.true_and, decide_eq_true_eq]
    exact sameName ▸ mem_map_of_mem (mem_filter.mp isKept).1
  have once : ((lost first second title).map newName).Nodup :=
    (nodup_append.mp distinct.names).1.sublist
      ((filter_sublist.trans filter_sublist).map _)
  simpa using (once.subperm named).length_le

/-- How many columns are left. -/
theorem Distinct.length_left_over :
    (droppedBeside first second title).length + (lost first second title).length =
      (first.filter SelectInput.keep).length + (second.filter SelectInput.keep).length +
        (stuck first second title).length := by
  have leftParts : (first.filter SelectInput.keep).length = (lost first second title).length +
      (first.filter fun select =>
        select.keep && decide (select.newName ∉ gone second title)).length := by
    rw [length_eq_length_filter_add fun select =>
      decide (select.newName ∈ gone second title)]
    congr 2
    rw [filter_filter]
    exact filter_congr fun select _ => by simp [Bool.and_comm]
  have rightParts : (second.filter fun select =>
      select.keep || decide (title select ∈ first.map newName)).length =
        (second.filter SelectInput.keep).length + (stuck first second title).length := by
    rw [length_eq_length_filter_add SelectInput.keep]
    congr 2
    · rw [filter_filter]
      exact filter_congr fun select _ => by cases keep : select.keep <;> simp
    · rw [filter_filter]
      exact filter_congr fun select _ => by cases keep : select.keep <;> simp
  rw [distinct.left_over, length_append, length_map, length_map, rightParts]
  omega

theorem Distinct.left_over_kept
    (noneLost : lost first second title = []) (noneStuck : stuck first second title = []) :
    droppedBeside first second title = (first.filter SelectInput.keep).map newName ++
        (second.filter SelectInput.keep).map (nameBeside first title) := by
  rw [distinct.left_over]
  congr 2
  · refine filter_congr fun select mem => ?_
    cases keep : select.keep with
    | false => rfl
    | true =>
    rw [Bool.true_and, decide_eq_true_eq]
    intro named
    have isLost : select ∈ lost first second title :=
      mem_filter.mpr ⟨mem_filter.mpr ⟨mem, keep⟩, decide_eq_true named⟩
    rw [noneLost] at isLost
    exact not_mem_nil isLost
  · refine filter_congr fun select mem => ?_
    cases keep : select.keep with
    | false =>
      rw [Bool.false_or, decide_eq_false_iff_not]
      intro taken
      have isStuck : select ∈ stuck first second title :=
        mem_filter.mpr ⟨mem, by rw [keep, decide_eq_true taken]; rfl⟩
      rw [noneStuck] at isStuck
      exact not_mem_nil isStuck
    | true => rfl

theorem Distinct.agree
    {leftOrdered rightOrdered : List SelectInput}
    (left : Listed (first.filter SelectInput.keep) leftOrdered)
    (right : Listed (second.filter SelectInput.keep) rightOrdered)
    (same : droppedBeside first second title =
      leftOrdered.map newName ++ rightOrdered.map predicted) :
    first.filter SelectInput.keep = leftOrdered ∧
      rightOrdered.Perm (second.filter SelectInput.keep) ∧ stuck first second title = [] ∧
      rightOrdered.map predicted =
        (second.filter SelectInput.keep).map (nameBeside first title) := by
  have fewerLost := distinct.lost_le
  have lengths := distinct.length_left_over
  rw [same, length_append, length_map, length_map] at lengths
  have leftShorter := left.length_le
  have rightShorter := right.length_le
  have leftPerm := left.perm (by omega)
  have rightPerm := right.perm (by omega)
  have noneLost : lost first second title = [] := by
    refine eq_nil_iff_forall_not_mem.mpr fun select isLost => ?_
    obtain ⟨isKept, named⟩ := mem_filter.mp isLost
    have listed : select.newName ∈ droppedBeside first second title := by
      rw [same]
      exact mem_append_left _ (mem_map_of_mem (leftPerm.mem_iff.mpr isKept))
    have stays := of_decide_eq_true (mem_filter.mp listed).2
    exact stays (mem_append_right _ (of_decide_eq_true named))
  have noneStuck : stuck first second title = [] := by
    refine eq_nil_of_length_eq_zero ?_
    have noneLength := congrArg List.length noneLost
    have leftLength := leftPerm.length_eq
    have rightLength := rightPerm.length_eq
    rw [length_nil] at noneLength
    omega
  have leftOver := (distinct.left_over_kept noneLost noneStuck).symm.trans same
  obtain ⟨sameLeft, sameRight⟩ := append_inj leftOver (by
    rw [length_map, length_map, leftPerm.length_eq])
  refine ⟨?_, rightPerm, noneStuck, sameRight.symm⟩
  exact eq_of_titles ((nodup_append.mp distinct.names).1.sublist (filter_sublist.map _))
    (fun _ mem => mem) left.subset sameLeft

end

end

def suffixed : Nat → String → String
  | 0, name => name
  | count + 1, name => suffixed count (name ++ "_right")

theorem suffixed_length (count : Nat) (name : String) :
    (suffixed count name).length = name.length + 6 * count := by
  induction count generalizing name with
  | zero => rfl
  | succ count ih =>
    have suffix : "_right".length = 6 := by decide
    rw [suffixed, ih, String.length_append, suffix]
    omega

theorem polarsSuffix_suffixed (count : Nat) (name : String) :
    polarsSuffix (suffixed count name) = suffixed (count + 1) name := by
  induction count generalizing name with
  | zero => rfl
  | succ count ih => exact ih (name ++ "_right")

theorem freeTitle_suffixed (taken : List String) (rounds : Nat) (name : String) :
    ∃ count, freeTitle taken rounds name = suffixed count name ∧
      ∀ fewer < count, suffixed fewer name ∈ taken := by
  induction rounds generalizing name with
  | zero => exact ⟨0, rfl, nofun⟩
  | succ rounds ih =>
    rw [freeTitle]
    split
    case isTrue isTaken =>
      obtain ⟨count, titled, below⟩ := ih (name ++ "_right")
      refine ⟨count + 1, titled, fun fewer less => ?_⟩
      cases fewer with
      | zero => exact isTaken
      | succ fewer => exact below fewer (Nat.lt_of_succ_lt_succ less)
    case isFalse => exact ⟨0, rfl, nofun⟩

/-- Right names in the execution have at least the suffixes that are predicted. When there are not
more, nothing was renamed any further. -/
theorem besideName_grows {available all left : List String} {name title : String}
    (within : available ⊆ all) (titled : title = rightTitle true all name) (free : title ∉ all) :
    (rightTitle true available name).length ≤ (besideName left title).length ∧
      ((rightTitle true available name).length = (besideName left title).length →
        rightTitle true available name = title ∧ title ∉ left) := by
  obtain ⟨count, predicted, below⟩ := freeTitle_suffixed available (longest available + 1) name
  obtain ⟨executed, renamed, _⟩ := freeTitle_suffixed all (longest all + 1) name
  have isPredicted : rightTitle true available name = suffixed count name := predicted
  have isExecuted : title = suffixed executed name := titled.trans renamed
  have atMost : count ≤ executed := by
    by_contra more
    exact free (isExecuted ▸ within (below executed (Nat.lt_of_not_le more)))
  rw [isPredicted, isExecuted, besideName]
  by_cases taken : suffixed executed name ∈ left
  · rw [if_pos taken, polarsSuffix_suffixed, suffixed_length, suffixed_length]
    exact ⟨by omega, fun same => absurd same (by omega)⟩
  · rw [if_neg taken, suffixed_length, suffixed_length]
    refine ⟨by omega, fun same => ⟨?_, taken⟩⟩
    have sameCount : count = executed := by omega
    rw [sameCount]

theorem lengths_eq {ordered : List SelectInput} {executed : SelectInput → String}
    (perm : ordered.Perm selects)
    (grows : ∀ select ∈ selects, (predicted select).length ≤ (executed select).length)
    (same : ordered.map predicted = selects.map executed) :
    ∀ select ∈ selects, (predicted select).length = (executed select).length := by
  by_contra differs
  push Not at differs
  obtain ⟨select, mem, differs⟩ := differs
  have less := sum_lt_sum (fun select => (predicted select).length)
    (fun select => (executed select).length) grows
    ⟨select, mem, Nat.lt_of_le_of_ne (grows select mem) differs⟩
  have sums := congrArg (fun names => (names.map String.length).sum) same
  simp only [map_map] at sums
  rw [(perm.map (String.length ∘ predicted)).sum_eq] at sums
  exact Nat.lt_irrefl _ (sums ▸ less)

variable (columns : List String)

/-- The columns of a side that take part in a cross join. -/
def takenColumns (selects : List SelectInput) : List SelectInput :=
  (withMissing selects columns).filter fun select =>
    select.selected && decide (select.oldName ∈ columns)

def keptAvailable (selects : List SelectInput) : List SelectInput :=
  (withMissing selects columns).filter fun select =>
    select.keep && decide (select.oldName ∈ columns)

def keptOrdered (selects : List SelectInput) : List SelectInput :=
  (orderBy columns (withMissing selects columns)).filter SelectInput.keep

theorem taken_kept (selects : List SelectInput) :
    (takenColumns columns selects).filter SelectInput.keep = keptAvailable columns selects := by
  rw [takenColumns, keptAvailable, filter_filter]
  refine filter_congr fun select _ => ?_
  cases keep : select.keep <;> simp [selected, keep]

theorem orderBy_markKeys (keys columns : List String) (selects : List SelectInput) :
    orderBy columns (markKeys keys selects) = markKeys keys (orderBy columns selects) := by
  rw [orderBy, orderBy, markKeys, markKeys, map_filterMap]
  refine filterMap_congr fun name _ => ?_
  rw [map_map]
  exact dictGet_map selects oldName _ name

theorem keptOrdered_names (selects : List SelectInput) :
    (keptOrdered columns selects).map oldName = keptInOrder columns selects := by
  rw [← kept_orderBy [], completed, orderBy_markKeys, keptOrdered, markKeys, filter_map, map_map]
  rfl

theorem keptOrdered_listed {columns : List String} (distinct : columns.Nodup)
    (once : ((takenColumns columns selects).map oldName).Nodup) :
    Listed (keptAvailable columns selects) (keptOrdered columns selects) where
  subset := by
    intro select mem
    obtain ⟨inOrdered, keep⟩ := mem_filter.mp mem
    obtain ⟨listed, inColumns⟩ := mem_orderBy inOrdered
    exact mem_filter.mpr ⟨listed, by simp [keep, inColumns]⟩
  keptDistinct := by
    rw [← taken_kept]
    exact (filter_sublist.map _).nodup once
  orderedDistinct :=
    ((filter_sublist.map oldName).trans (orderBy_sublist columns _)).nodup distinct

theorem crossRename_spec (input : CrossJoinInput) : ∃ change : String → String,
    input.autoRename = ⟨input.leftSelect, input.rightSelect.map (retitle change)⟩ ∧
      ∀ name ∈ getNewCols input.rightSelect,
        change name = rightTitle true (getNewCols input.leftSelect) name := by
  obtain ⟨change, renamed, titles⟩ := resolveOverlaps_titles
    (longest (getNewCols input.leftSelect) + 1) input.asJoin
  refine ⟨change, ?_, titles⟩
  rw [CrossJoinInput.autoRename, renamed]
  rfl

theorem calculateCrossJoinSchema_names (input : CrossJoinInput) (left right : TableSchema) :
    (calculateCrossJoinSchema input left right).map columnName =
      (keptOrdered left.names input.leftSelect).map newName ++
        (keptOrdered right.names input.rightSelect).map
          (titleAmong true (keptOrdered left.names input.leftSelect)) := by
  obtain ⟨change, renamed, titles⟩ := crossRename_spec
    ((input.ensureAllColumnsHaveSelect left.names right.names).orderByColumns left.names
      right.names)
  rw [calculateCrossJoinSchema, renamed, map_append, predictedColumns_names, predictedColumns_names]
  · congr 1
    rw [getNewCols_retitle, getNewCols, map_map]
    exact map_congr_left fun select mem => titles _ (mem_map_of_mem mem)
  · intro select mem
    obtain ⟨listed, inOrdered, rfl⟩ := mem_map.mp mem
    exact (mem_orderBy inOrdered).2
  · exact fun select mem => (mem_orderBy mem).2

section

variable {input : CrossJoinInput} {left right : TableSchema} {table : Table String Source}

/-- The available columns of a side that take part, under any titles. -/
theorem markedTaken (columns : List String) (selects : List SelectInput)
    (change : String → String) :
    ((((markAvailable columns (withMissing selects columns)).map
      (retitle change)).filter isAvailable).filter selected) =
      (takenColumns columns selects).map fun select =>
        ⟨select.oldName, change select.newName, select.joinKey,
          decide (select.oldName ∈ columns), select.keep⟩ := by
  rw [markAvailable, takenColumns, map_map, filter_filter, filter_map]
  rfl

structure CrossExecuted (input : CrossJoinInput) (left right : TableSchema)
    (table : Table String Source) (title : SelectInput → String) : Prop where
  distinct : Distinct (takenColumns left.names input.leftSelect)
    (takenColumns right.names input.rightSelect) title
  columns : names table = droppedBeside (takenColumns left.names input.leftSelect)
    (takenColumns right.names input.rightSelect) title
  leftOnce : ((takenColumns left.names input.leftSelect).map oldName).Nodup
  rightOnce : ((takenColumns right.names input.rightSelect).map oldName).Nodup
  titles : ∀ select ∈ keptAvailable right.names input.rightSelect, title select =
    select.titleAmong true ((withMissing input.leftSelect left.names).filter SelectInput.keep)
  free : ∀ select ∈ keptAvailable right.names input.rightSelect,
    title select ∉ getNewCols (withMissing input.leftSelect left.names)
  leftTitles : ((input.available left right).own .left).map Slot.title =
    (takenColumns left.names input.leftSelect).map newName
  rightTitles : ((input.available left right).own .right).map Slot.title =
    (takenColumns right.names input.rightSelect).map title

theorem columnsToDelete_append (first second : List SelectInput) :
    columnsToDelete (first ++ second) = columnsToDelete first ++ columnsToDelete second := by
  rw [columnsToDelete, filter_append, map_append]
  rfl

/-- The columns that are dropped in the end. -/
theorem columnsToDelete_marked (columns : List String) (selects : List SelectInput)
    (change : String → String) :
    columnsToDelete ((markAvailable columns (withMissing selects columns)).map (retitle change)) =
      gone (takenColumns columns selects) fun select => change select.newName := by
  rw [columnsToDelete, gone, takenColumns, markAvailable, map_map, filter_map,
    map_map, filter_filter]
  refine congrArg (List.map _) (filter_congr fun select _ => ?_)
  cases keep : select.keep <;> cases key : select.joinKey <;>
    simp [selected, retitle, keep, key]

theorem retitled_side {input : JoinInput} {side : Side} {columns : List String}
    {selects : List SelectInput} {change : String → String}
    (listed : input.selects side = ((markAvailable columns (withMissing selects columns)).map
      (retitle change)).filter isAvailable) :
    (input.own side).map Slot.title =
        (takenColumns columns selects).map (fun select => change select.newName) ∧
      ((input.own side).map fun slot => slot.select.oldName) =
        (takenColumns columns selects).map oldName := by
  rw [JoinInput.own, listed, markedTaken, map_map, map_map, map_map, map_map]
  exact ⟨rfl, rfl⟩

theorem crossColumns_names : names (crossColumns input left right) =
    ((input.available left right).own .left).map Slot.title ++
      (((input.available left right).own .right).map Slot.title).map
        (besideName (((input.available left right).own .left).map Slot.title)) := by
  rw [crossColumns, beside, names, map_append, names_ofEntries, ofEntries, ofEntries,
    map_map, map_map, map_map, map_map]
  rfl

theorem own_titles_nodup {input : JoinInput} {side : Side} (sound : Sound (input.selects side)) :
    ((input.own side).map Slot.title).Nodup := by
  have distinct := sound.newDistinct
  rw [JoinInput.own, map_map]
  exact distinct

theorem crossExecuted (ran : doCrossJoin input left right = .ok table) :
    ∃ title, CrossExecuted input left right table title := by
  obtain ⟨sound, distinct, same⟩ := doCrossJoin_ok ran
  obtain ⟨change, renamed, titles⟩ := crossRename_spec (input.complete left.names right.names)
  have leftSelect : (input.complete left.names right.names).autoRename.leftSelect =
      (markAvailable left.names (withMissing input.leftSelect left.names)).map
        (retitle id) := by
    rw [renamed]
    exact (map_id _).symm
  have rightSelect : (input.complete left.names right.names).autoRename.rightSelect =
      (markAvailable right.names (withMissing input.rightSelect right.names)).map
        (retitle change) := by
    rw [renamed]
    rfl
  obtain ⟨leftTitles, leftOld⟩ := @retitled_side (input.available left right) .left left.names
    input.leftSelect id (congrArg (List.filter isAvailable) leftSelect)
  obtain ⟨rightTitles, rightOld⟩ := @retitled_side (input.available left right) .right right.names
    input.rightSelect change (congrArg (List.filter isAvailable) rightSelect)
  have leftKept : getNewCols (input.complete left.names right.names).leftSelect =
      getNewCols (withMissing input.leftSelect left.names) := getNewCols_markAvailable _ _
  have rightKept : ∀ select ∈ keptAvailable right.names input.rightSelect,
      select.newName ∈ getNewCols (input.complete left.names right.names).rightSelect := by
    intro select mem
    obtain ⟨listed, flags⟩ := mem_filter.mp mem
    have marked : getNewCols (input.complete left.names right.names).rightSelect =
        getNewCols (withMissing input.rightSelect right.names) := getNewCols_markAvailable _ _
    rw [marked]
    exact mem_map_of_mem (mem_filter.mpr ⟨listed, (Bool.and_eq_true_iff.mp flags).1⟩)
  have allNames : names (crossColumns input left right) =
      (takenColumns left.names input.leftSelect).map newName ++
        (takenColumns right.names input.rightSelect).map
          (nameBeside (takenColumns left.names input.leftSelect) fun select =>
            change select.newName) := by
    rw [crossColumns_names, leftTitles, rightTitles, map_map]
    rfl
  refine ⟨fun select => change select.newName, ⟨?_, ?_⟩, ?_, ?_, ?_, ?_, ?_, leftTitles,
    rightTitles⟩
  · rw [← allNames]
    exact distinct
  · rw [← rightTitles]
    exact own_titles_nodup (sound .right)
  · rw [same, names_filter fun name => decide (name ∉ columnsToDelete _), allNames, leftSelect,
      rightSelect, columnsToDelete_append, columnsToDelete_marked, columnsToDelete_marked]
    rfl
  · rw [← leftOld]
    exact own_oldNames (sound .left)
  · rw [← rightOld]
    exact own_oldNames (sound .right)
  · intro select mem
    rw [titles _ (rightKept select mem), leftKept]
    rfl
  · intro select mem taken
    rw [← leftKept] at taken
    have isLeft : change select.newName ∈
        getNewCols (input.complete left.names right.names).autoRename.leftSelect := by
      rw [renamed]
      exact taken
    refine crossRename_disjoint (input.complete left.names right.names) isLeft ?_
    rw [renamed, getNewCols_retitle]
    exact mem_map_of_mem (rightKept select mem)

end

/-- Kept columns are listed in the order of the tables, columns that have vanished change no name,
and no dropped key has the name of a column of the other side. -/
structure CrossForeseen (input : CrossJoinInput) (left right : TableSchema) : Prop where
  leftOrder : (keptAvailable left.names input.leftSelect).map oldName =
    keptInOrder left.names input.leftSelect
  rightOrder : (keptAvailable right.names input.rightSelect).map oldName =
    keptInOrder right.names input.rightSelect
  vanished : ∀ select ∈ keptAvailable right.names input.rightSelect,
    select.titleAmong true (keptAvailable left.names input.leftSelect) =
      select.titleAmong true ((withMissing input.leftSelect left.names).filter SelectInput.keep)
  apart : ∀ first ∈ (input.available left right).own .left,
    ∀ second ∈ (input.available left right).own .right, second.title ≠ first.title

section

variable {input : CrossJoinInput} {left right : TableSchema} {table : Table String Source}
  {title : SelectInput → String}

theorem CrossExecuted.apart_iff (executed : CrossExecuted input left right table title) :
    (∀ first ∈ (input.available left right).own .left,
      ∀ second ∈ (input.available left right).own .right, second.title ≠ first.title) ↔
    ∀ select ∈ takenColumns right.names input.rightSelect,
      title select ∉ (takenColumns left.names input.leftSelect).map newName := by
  rw [← executed.leftTitles]
  constructor
  · intro apart select mem taken
    obtain ⟨first, firstOwn, sameFirst⟩ := mem_map.mp taken
    have isTitle : title select ∈ ((input.available left right).own .right).map Slot.title := by
      rw [executed.rightTitles]
      exact mem_map_of_mem mem
    obtain ⟨second, secondOwn, sameSecond⟩ := mem_map.mp isTitle
    exact apart first firstOwn second secondOwn (sameSecond.trans sameFirst.symm)
  · intro apart first firstOwn second secondOwn same
    have isTitle : second.title ∈ (takenColumns right.names input.rightSelect).map title := by
      rw [← executed.rightTitles]
      exact mem_map_of_mem secondOwn
    obtain ⟨select, mem, sameTitle⟩ := mem_map.mp isTitle
    exact apart select mem (sameTitle ▸ same ▸ mem_map_of_mem firstOwn)

theorem CrossExecuted.listed (executed : CrossExecuted input left right table title) :
    Listed (keptAvailable left.names input.leftSelect) (keptOrdered left.names input.leftSelect) ∧
      Listed (keptAvailable right.names input.rightSelect)
        (keptOrdered right.names input.rightSelect) :=
  ⟨keptOrdered_listed left.distinct executed.leftOnce,
    keptOrdered_listed right.distinct executed.rightOnce⟩

theorem order_iff {columns : List String}
    (listed : Listed (keptAvailable columns selects) (keptOrdered columns selects)) :
    (keptAvailable columns selects).map oldName = keptInOrder columns selects ↔
      keptAvailable columns selects = keptOrdered columns selects := by
  rw [← keptOrdered_names]
  exact (listed.eq_iff (fun _ mem => mem) listed.subset).symm

theorem CrossExecuted.agree_of_foreseen (executed : CrossExecuted input left right table title)
    (foreseen : CrossForeseen input left right) :
    (calculateCrossJoinSchema input left right).map columnName = names table := by
  obtain ⟨leftListed, rightListed⟩ := executed.listed
  have leftSame := (order_iff leftListed).mp foreseen.leftOrder
  have rightSame := (order_iff rightListed).mp foreseen.rightOrder
  rw [calculateCrossJoinSchema_names, executed.columns,
    droppedBeside_apart executed.distinct (executed.apart_iff.mp foreseen.apart), taken_kept,
    taken_kept, ← leftSame, ← rightSame]
  congr 1
  refine map_congr_left fun select mem => ?_
  rw [executed.titles select mem, foreseen.vanished select mem]

theorem CrossExecuted.foreseen_of_agree (executed : CrossExecuted input left right table title)
    (agree : (calculateCrossJoinSchema input left right).map columnName =
      names table) : CrossForeseen input left right := by
  obtain ⟨leftListed, rightListed⟩ := executed.listed
  rw [calculateCrossJoinSchema_names, executed.columns] at agree
  obtain ⟨leftSame, rightPerm, noneStuck, sameRight⟩ := executed.distinct.agree
    (by rw [taken_kept]; exact leftListed) (by rw [taken_kept]; exact rightListed) agree.symm
  rw [taken_kept] at leftSame rightPerm sameRight
  rw [← leftSame] at sameRight
  have within : (keptAvailable left.names input.leftSelect).map newName ⊆
      getNewCols (withMissing input.leftSelect left.names) := by
    refine map_subset _ fun select mem => ?_
    obtain ⟨listed, flags⟩ := mem_filter.mp mem
    exact mem_filter.mpr ⟨listed, (Bool.and_eq_true_iff.mp flags).1⟩
  have grows : ∀ select ∈ keptAvailable right.names input.rightSelect, _ := fun select mem =>
    @besideName_grows _ _ ((takenColumns left.names input.leftSelect).map newName)
      select.newName (title select) within (executed.titles select mem)
      (executed.free select mem)
  -- Every kept right column has the name that is predicted for it.
  have settled : ∀ select ∈ keptAvailable right.names input.rightSelect,
      select.titleAmong true (keptAvailable left.names input.leftSelect) = title select ∧
        title select ∉ (takenColumns left.names input.leftSelect).map newName :=
    fun select mem => (grows select mem).2
      (lengths_eq rightPerm (fun other otherMember => (grows other otherMember).1) sameRight select
        mem)
  refine ⟨(order_iff leftListed).mpr leftSame, (order_iff rightListed).mpr ?_,
    fun select mem => ?_, executed.apart_iff.mpr fun select mem => ?_⟩
  · have titled : (keptOrdered right.names input.rightSelect).map title =
        (keptAvailable right.names input.rightSelect).map title := by
      rw [← map_congr_left fun select mem =>
          (settled select (rightListed.subset select mem)).1, sameRight]
      exact map_congr_left fun select mem =>
        nameBeside_of_free (settled select mem).2
    refine (eq_of_titles ?_ rightListed.subset (fun _ mem => mem) titled).symm
    rw [← taken_kept]
    exact executed.distinct.titles.sublist (filter_sublist.map _)
  · rw [(settled select mem).1, executed.titles select mem]
  · intro taken
    cases keep : select.keep with
    | true =>
      refine (settled select ?_).2 taken
      rw [← taken_kept]
      exact mem_filter.mpr ⟨mem, keep⟩
    | false =>
    have isStuck : select ∈ stuck (takenColumns left.names input.leftSelect)
        (takenColumns right.names input.rightSelect) title :=
      mem_filter.mpr ⟨mem, by rw [keep, decide_eq_true taken]; rfl⟩
    rw [noneStuck] at isStuck
    exact not_mem_nil isStuck

end

theorem calculateCrossJoinSchema_agrees {input : CrossJoinInput} {left right : TableSchema}
    {table : Table String Source} (ran : doCrossJoin input left right = .ok table) :
    (calculateCrossJoinSchema input left right).map columnName = names table ↔
      CrossForeseen input left right := by
  obtain ⟨title, executed⟩ := crossExecuted ran
  exact ⟨executed.foreseen_of_agree, executed.agree_of_foreseen⟩

/-- A cross join that was set up before customers had an id. -/
def olderCrossJoin : CrossJoinInput :=
  ⟨[⟨"name", "name", false, true, true⟩], []⟩

theorem plainCrossJoin_predicted :
    (calculateCrossJoinSchema ⟨[], []⟩ customers orders).map columnName =
      ["id", "name", "id_right", "amount"] := by
  have ran : doCrossJoin ⟨[], []⟩ customers orders =
      .ok [("id", .left, "id"), ("name", .left, "name"), ("id_right", .right, "id"),
        ("amount", .right, "amount")] := by
    decide +kernel
  refine (calculateCrossJoinSchema_agrees ran).mpr ⟨?_, ?_, ?_, ?_⟩ <;> decide +kernel

/-- The new column is predicted in its place and executed behind the others. -/
theorem olderCrossJoin_differs : doCrossJoin olderCrossJoin customers orders =
        .ok [("name", .left, "name"), ("id", .left, "id"), ("id_right", .right, "id"),
          ("amount", .right, "amount")] ∧
      (calculateCrossJoinSchema olderCrossJoin customers orders).map columnName =
        ["id", "name", "id_right", "amount"] := by
  decide +kernel

end Flowfile.Join
