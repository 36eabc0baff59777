import Flowfile.GeneratedSides

/-!
# Generated right joins

The join drops the left keys it is carried out on. These are copies for keys that are kept. A right
key that is dropped may have the name of a left key that is kept, and is dropped with the suffix
then.
-/

namespace Flowfile.Join

open Library.ColumnFrames Library.TracedFrames List
open Slot (source)

/-- What right joins need besides: all left keys are listed, the first column with the new name of a
kept left key is kept, no left column has the temporary name of a kept left key, and right keys that
are dropped have no name of a kept left column except of a key, and then the name with the suffix
is free. -/
structure RightFits (manager input : JoinInput) : Prop where
  keysListed : ∀ name ∈ manager.joinMapping.map JoinMap.leftCol,
    name ∈ manager.leftSelect.map SelectInput.oldName
  available : KeysAvailable manager.rightSelect
  firstKept : ∀ key ∈ keptKeys manager.leftSelect, ∀ found,
    findByNewName manager.leftSelect key.newName = some found → found.keep = true
  copiesFresh : ∀ key ∈ keptKeys manager.leftSelect, ∀ other ∈ input.leftSelect,
    other.selected = true → other.newName ≠ jkAlias key.newName
  dropApart : ∀ key ∈ droppedKeys manager.rightSelect, ∀ other ∈ input.leftSelect,
    other.keep = true → other.joinKey = false → other.newName ≠ key.newName
  suffixFree : ∀ key ∈ droppedKeys manager.rightSelect,
    key.newName ∈ getNewCols input.leftSelect →
      polarsSuffix key.newName ∉ getNewCols input.leftSelect ∧
        ∀ other ∈ input.rightSelect, other.selected = true →
          other.newName ≠ polarsSuffix key.newName

/-- Temporary names of different keys differ. -/
theorem jkAlias_injective : Function.Injective jkAlias :=
  fun _ _ same => (String.append_right_inj _).mp same

/-- Names with the suffix differ where the names do. -/
theorem polarsSuffix_injective : Function.Injective polarsSuffix :=
  fun _ _ same => (String.append_left_inj _).mp same

section

variable {manager input : JoinInput} {leftColumns rightColumns : List String}

def rightLeftSlots (manager input : JoinInput) (leftColumns : List String) : List Slot :=
  inOrder leftColumns (input.own .left) ++ keptCopies .left leftColumns manager.leftSelect

/-- Names of the left side of a right join. -/
def rightLeftName (slot : Slot) : String :=
  if slot.copied then jkAlias slot.title else slot.title

def rightSlots (input : JoinInput) (leftColumns rightColumns : List String) : List Slot :=
  ((inOrder leftColumns (input.own .left)).filter fun slot => slot.select.keep) ++
    inOrder rightColumns (input.own .right)

def rightName (input : JoinInput) (slot : Slot) : String :=
  if slot.side = .right ∧ slot.title ∈ getNewCols input.leftSelect then polarsSuffix slot.title
  else slot.title

section

variable (ready : BothReady manager input leftColumns rightColumns)
include ready

theorem rightLeft_nodup (fits : RightFits manager input) :
    ((rightLeftSlots manager input leftColumns).map rightLeftName).Nodup := by
  have leftNames : (inOrder leftColumns (input.own .left)).map rightLeftName =
      (inOrder leftColumns (input.own .left)).map Slot.title := by
    apply map_congr_left
    intro slot mem
    simp [rightLeftName, (mem_own.mp (ready.left.mem_inOrder.mp mem)).2.1]
  have copyNames : (keptCopies .left leftColumns manager.leftSelect).map rightLeftName =
      (keptKeys manager.leftSelect).map fun key => jkAlias key.newName := by
    rw [keptCopies, map_map]
    rfl
  rw [rightLeftSlots, map_append, leftNames, copyNames]
  refine ready.left.titles_nodup.append ?_ ?_
  · have aliases := ready.left.keptKeys_nodup.map jkAlias_injective
    rwa [map_map] at aliases
  · intro name isTitle isCopy
    obtain ⟨slot, mem, rfl⟩ := mem_map.mp isTitle
    obtain ⟨key, isKept, same⟩ := mem_map.mp isCopy
    have isOwn := mem_own.mp (ready.left.mem_inOrder.mp mem)
    exact fits.copiesFresh key isKept _ isOwn.2.2.1 isOwn.2.2.2 same.symm

theorem rightLeftOn_slot (fits : RightFits manager input) {slot : Slot}
    (isOwn : slot ∈ input.own .left) (key : slot.select.joinKey = true) :
    (match findByNewName manager.leftSelect slot.title with
      | some select => if select.keep then jkAlias select.newName else slot.title
      | none => slot.title) = if slot.select.keep then jkAlias slot.title else slot.title := by
  obtain ⟨column, isKey, title, _, keep⟩ :=
    ready.left.slot_listed isOwn key (.inr fits.keysListed)
  obtain ⟨isListed, _⟩ := mem_filter.mp isKey
  cases found : findByNewName manager.leftSelect slot.title with
  | none =>
    have missing := List.find?_eq_none.mp found column isListed
    simp [Slot.title, title] at missing
  | some select =>
  have sameTitle : select.newName = slot.title := by
    simpa using List.find?_some found
  have sameKeep : select.keep = slot.select.keep := by
    cases kept : slot.select.keep with
    | true =>
      apply fits.firstKept column (mem_filter.mpr ⟨isKey, by rw [keep, kept]⟩)
      rw [title]
      exact found
    | false =>
    by_contra isKept
    have isKept : select.keep = true := by simpa using isKept
    have inListed := mem_of_find?_eq_some found
    obtain ⟨other, otherOwn, otherSelect⟩ := listed_slot ready.left.settled inListed
      (by simp [SelectInput.selected, isKept])
    have distinct := ready.left.titles_nodup
    rw [(ready.left.perm.map _).nodup_iff] at distinct
    have sameSlot := inj_on_of_nodup_map distinct otherOwn isOwn
      (by rw [Slot.title, otherSelect]; exact sameTitle)
    rw [← sameSlot, otherSelect] at kept
    rw [isKept] at kept
    cases kept
  dsimp only
  rw [sameTitle, sameKeep]

theorem mem_rightLeftOn (fits : RightFits manager input) (name : String) :
    name ∈ (handleRightJoinKeys manager (getJoinKeys manager).1 (getJoinKeys manager).2).leftOn ↔
      ∃ slot ∈ input.own .left, slot.select.joinKey = true ∧
        name = if slot.select.keep then jkAlias slot.title else slot.title := by
  rw [handleRightJoinKeys]
  dsimp only
  rw [mem_map]
  constructor
  · rintro ⟨key, isKey, rfl⟩
    rw [getJoinKeys_left, ready.left.mem_titles ready.leftAvailable] at isKey
    obtain ⟨slot, isOwn, marked, rfl⟩ := isKey
    exact ⟨slot, isOwn, marked, rightLeftOn_slot ready fits isOwn marked⟩
  · rintro ⟨slot, isOwn, marked, rfl⟩
    refine ⟨slot.title, ?_, rightLeftOn_slot ready fits isOwn marked⟩
    rw [getJoinKeys_left, ready.left.mem_titles ready.leftAvailable]
    exact ⟨slot, isOwn, marked, rfl⟩

theorem mem_keptLeft {name : String} :
    name ∈ ((inOrder leftColumns (input.own .left)).filter fun slot => slot.select.keep).map
      Slot.title ↔ name ∈ getNewCols input.leftSelect := by
  have titles := kept_titles input .left
  rw [JoinInput.selects] at titles
  rw [← titles]
  exact ((ready.left.perm.filter _).map _).mem_iff

/-- Names of a right join are distinct. -/
theorem right_nodup (fits : RightFits manager input) :
    ((rightSlots input leftColumns rightColumns).map (rightName input)).Nodup := by
  have leftNames : ((inOrder leftColumns (input.own .left)).filter
      fun slot => slot.select.keep).map (rightName input) =
        ((inOrder leftColumns (input.own .left)).filter fun slot => slot.select.keep).map
          Slot.title := by
    apply map_congr_left
    intro slot mem
    have isOwn := mem_own.mp (ready.left.mem_inOrder.mp (mem_filter.mp mem).1)
    simp [rightName, isOwn.1]
  -- A right column whose name a kept left column has is a key that is dropped.
  have suffixed : ∀ slot ∈ input.own .right, slot.title ∈ getNewCols input.leftSelect →
      polarsSuffix slot.title ∉ getNewCols input.leftSelect ∧
        ∀ other ∈ input.own .right, other.title ≠ polarsSuffix slot.title := by
    intro slot isOwn taken
    obtain ⟨_, _, inSelects, selected⟩ := mem_own.mp isOwn
    have unkept : slot.select.keep = false := by
      by_contra keep
      refine ready.disjoint _ taken (mem_map_of_mem (mem_filter.mpr ⟨inSelects, ?_⟩))
      simpa using keep
    have key : slot.select.joinKey = true := by
      simpa [SelectInput.selected, unkept] using selected
    obtain ⟨column, isKey, title, _, keep⟩ := ready.right.slot_listed isOwn key (.inl unkept)
    obtain ⟨free, others⟩ := fits.suffixFree column
      (mem_filter.mpr ⟨isKey, by simp [keep, unkept]⟩) (by rwa [title])
    rw [title] at free others
    refine ⟨free, ?_⟩
    intro other otherOwn
    exact others _ (mem_own.mp otherOwn).2.2.1 (mem_own.mp otherOwn).2.2.2
  have rightOf : ∀ slot ∈ inOrder rightColumns (input.own .right), rightName input slot =
      if slot.title ∈ getNewCols input.leftSelect then polarsSuffix slot.title
      else slot.title := by
    intro slot mem
    simp [rightName, (mem_own.mp (ready.right.mem_inOrder.mp mem)).1]
  rw [rightSlots, map_append, leftNames]
  refine List.Nodup.append (ready.left.titles_nodup.sublist (filter_sublist.map _)) ?_ ?_
  · refine (nodup_map_iff_inj_on ready.right.titles_nodup.of_map).mpr ?_
    intro first inFirst second inSecond same
    rw [rightOf first inFirst, rightOf second inSecond] at same
    have firstOwn := ready.right.mem_inOrder.mp inFirst
    have secondOwn := ready.right.mem_inOrder.mp inSecond
    have sameTitle : first.title = second.title := by
      split at same
      case isTrue firstTaken =>
        split at same
        case isTrue => exact polarsSuffix_injective same
        case isFalse => exact absurd same.symm ((suffixed first firstOwn firstTaken).2 _ secondOwn)
      case isFalse =>
        split at same
        case isTrue secondTaken =>
          exact absurd same ((suffixed second secondOwn secondTaken).2 _ firstOwn)
        case isFalse => exact same
    exact inj_on_of_nodup_map ready.right.titles_nodup inFirst inSecond sameTitle
  · intro name inLeft inRight
    rw [mem_keptLeft ready] at inLeft
    obtain ⟨slot, mem, rfl⟩ := mem_map.mp inRight
    rw [rightOf slot mem] at inLeft
    split at inLeft
    case isTrue taken =>
      exact (suffixed slot (ready.right.mem_inOrder.mp mem) taken).1 inLeft
    case isFalse free => exact free inLeft

theorem right_join (how : manager.how = .right) (fits : RightFits manager input) :
    joinTable .coalescingFirst polarsSuffix
      (ofEntries rightLeftName source (rightLeftSlots manager input leftColumns))
      (ofEntries Slot.title source (inOrder rightColumns (input.own .right)))
      (handleRightJoinKeys manager (getJoinKeys manager).1 (getJoinKeys manager).2).leftOn
      (handleRightJoinKeys manager (getJoinKeys manager).1 (getJoinKeys manager).2).rightOn =
        .ok (ofEntries (rightName input) source (rightSlots input leftColumns rightColumns)) := by
  have renames : manager.how.renamesRightKeys = true := by
    rw [how]
    rfl
  have leftOn := mem_rightLeftOn ready fits
  have ownName : ∀ slot ∈ inOrder leftColumns (input.own .left), slot ∈ input.own .left ∧
      rightLeftName slot = slot.title := by
    intro slot mem
    have isOwn := ready.left.mem_inOrder.mp mem
    exact ⟨isOwn, by simp [rightLeftName, (mem_own.mp isOwn).2.1]⟩
  have remaining := @filter_ofEntries_gone _ _ _ _ rightLeftName source
    (rightLeftSlots manager input leftColumns) (rightLeft_nodup ready fits)
    (handleRightJoinKeys manager (getJoinKeys manager).1 (getJoinKeys manager).2).leftOn
    (fun slot => slot.copied || !slot.select.keep)
    (by
      intro name isKey
      obtain ⟨slot, isOwn, key, rfl⟩ := (leftOn name).mp isKey
      cases kept : slot.select.keep with
      | true =>
        obtain ⟨column, isKey, title, _, keep⟩ :=
          ready.left.slot_listed isOwn key (.inr fits.keysListed)
        refine ⟨⟨.left, { column with isAvailable := decide (column.oldName ∈ leftColumns) }, true⟩,
          ?_, rfl, ?_⟩
        · apply mem_append_right
          exact mem_map_of_mem (mem_filter.mpr ⟨isKey, by rw [keep, kept]⟩)
        · simp [rightLeftName, Slot.title, title]
      | false =>
        have isOrdered := ready.left.mem_inOrder.mpr isOwn
        refine ⟨slot, mem_append_left _ isOrdered, by simp [kept], ?_⟩
        rw [(ownName slot isOrdered).2]
        simp)
    (by
      intro slot mem isGone
      rw [leftOn]
      rcases mem_append.mp mem with isOrdered | isCopy
      · obtain ⟨isOwn, named⟩ := ownName slot isOrdered
        have unkept : slot.select.keep = false := by
          simpa [(mem_own.mp isOwn).2.1] using isGone
        have key : slot.select.joinKey = true := by
          simpa [SelectInput.selected, unkept] using (mem_own.mp isOwn).2.2.2
        exact ⟨slot, isOwn, key, by rw [named, unkept]; rfl⟩
      · obtain ⟨key, isKept, rfl⟩ := mem_map.mp isCopy
        obtain ⟨isListed, marked⟩ := mem_filter.mp (mem_filter.mp isKept).1
        refine ⟨_, ready.left.keptKey_slot isKept, marked, ?_⟩
        have keep : key.keep = true := (mem_filter.mp isKept).2
        simp [rightLeftName, keep, Slot.title])
  have leftRest : ofEntries rightLeftName source ((rightLeftSlots manager input
      leftColumns).filter fun slot => !(slot.copied || !slot.select.keep)) =
        ofEntries Slot.title source
          ((inOrder leftColumns (input.own .left)).filter fun slot => slot.select.keep) := by
    have noCopies : (keptCopies .left leftColumns manager.leftSelect).filter
        (fun slot => !(slot.copied || !slot.select.keep)) = [] := by
      rw [filter_eq_nil_iff]
      intro slot mem
      obtain ⟨key, _, rfl⟩ := mem_map.mp mem
      simp
    have ownKept : (inOrder leftColumns (input.own .left)).filter
        (fun slot => !(slot.copied || !slot.select.keep)) =
          (inOrder leftColumns (input.own .left)).filter fun slot => slot.select.keep := by
      apply filter_congr
      intro slot mem
      simp [(mem_own.mp (ownName slot mem).1).2.1]
    rw [rightLeftSlots, filter_append, noCopies, append_nil, ownKept]
    exact ofEntries_congr fun slot mem => (ownName slot (mem_filter.mp mem).1).2
  have table : JoinType.coalescingFirst.table polarsSuffix
      (ofEntries rightLeftName source (rightLeftSlots manager input leftColumns))
      (ofEntries Slot.title source (inOrder rightColumns (input.own .right)))
      (handleRightJoinKeys manager (getJoinKeys manager).1 (getJoinKeys manager).2).leftOn
      (handleRightJoinKeys manager (getJoinKeys manager).1 (getJoinKeys manager).2).rightOn =
        ofEntries (rightName input) source (rightSlots input leftColumns rightColumns) := by
    rw [JoinType.table, remaining, leftRest, beside_ofEntries, rightSlots, ofEntries_append]
    congr 1
    · apply ofEntries_congr
      intro slot mem
      have isOwn := (ownName slot (mem_filter.mp mem).1).1
      simp [rightName, (mem_own.mp isOwn).1]
    · apply ofEntries_congr
      intro slot mem
      simp only [mem_keptLeft ready, rightName,
        (mem_own.mp (ready.right.mem_inOrder.mp mem)).1, true_and]
  rw [joinTable_ok, table, names_ofEntries, names_ofEntries, names_ofEntries]
  refine ⟨?_, ?_, right_nodup ready fits, rfl⟩
  · intro name isKey
    obtain ⟨slot, isOwn, key, rfl⟩ := (leftOn name).mp isKey
    cases kept : slot.select.keep with
    | true =>
      obtain ⟨column, isKey, title, _, keep⟩ :=
        ready.left.slot_listed isOwn key (.inr fits.keysListed)
      refine mem_map.mpr ⟨⟨.left,
        { column with isAvailable := decide (column.oldName ∈ leftColumns) }, true⟩, ?_, ?_⟩
      · apply mem_append_right
        exact mem_map_of_mem (mem_filter.mpr ⟨isKey, by rw [keep, kept]⟩)
      · simp [rightLeftName, Slot.title, title]
    | false =>
      have isOrdered := ready.left.mem_inOrder.mpr isOwn
      refine mem_map.mpr ⟨slot, mem_append_left _ isOrdered, ?_⟩
      rw [(ownName slot isOrdered).2]
      simp
  · intro name isKey
    have isKey : name ∈ (getJoinKeys manager).2 := isKey
    rw [getJoinKeys_right_renamed renames, ready.right.mem_titles fits.available] at isKey
    obtain ⟨slot, isOwn, _, rfl⟩ := isKey
    exact mem_map.mpr ⟨slot, ready.right.mem_inOrder.mpr isOwn, rfl⟩

theorem droppedName_right (fits : RightFits manager input) {key : SelectInput}
    (isDropped : key ∈ droppedKeys manager.rightSelect) :
    key.newName ∈ (keptKeys manager.leftSelect).map SelectInput.newName ↔
      key.newName ∈ getNewCols input.leftSelect := by
  constructor
  · intro isTitle
    obtain ⟨leftKey, isKept, same⟩ := mem_map.mp isTitle
    obtain ⟨isKey, keep⟩ := mem_filter.mp isKept
    obtain ⟨slot, isOwn, _, _, title, sameKeep⟩ := ready.left.listed_key isKey
    rw [← same, ← title]
    refine mem_map_of_mem (mem_filter.mpr ⟨(mem_own.mp isOwn).2.2.1, ?_⟩)
    rw [sameKeep]
    exact keep
  · intro taken
    obtain ⟨select, isKept, same⟩ := mem_map.mp taken
    obtain ⟨inSelects, keep⟩ := mem_filter.mp isKept
    have marked : select.joinKey = true := by
      by_contra keyless
      exact fits.dropApart key isDropped select inSelects keep (by simpa using keyless) same
    obtain ⟨column, isKey, title, _, sameKeep⟩ := ready.left.slot_listed
      (key_own inSelects marked) marked (.inr fits.keysListed)
    rw [← same, ← title]
    refine mem_map_of_mem (mem_filter.mpr ⟨isKey, ?_⟩)
    rw [sameKeep]
    exact keep

theorem right_run (how : manager.how = .right) (fits : RightFits manager input) :
    ∃ result, (handleStandardJoin manager).run (sourceTable .left leftColumns)
      (sourceTable .right rightColumns) = .ok result ∧
        result.Perm (input.keptSources .left ++ input.keptSources .right) := by
  have renames : manager.how.renamesRightKeys = true := by
    rw [how]
    rfl
  have rightPrepares := ready.rightPrepares
  rw [renames] at rightPrepares
  have kept : (ofEntries Slot.title source ((rightSlots input leftColumns
      rightColumns).filter fun slot => !!slot.select.keep)).Perm
        (input.keptSources .left ++ input.keptSources .right) := by
    simp only [Bool.not_not]
    rw [rightSlots, filter_append, filter_filter, ofEntries_append]
    simp only [Bool.and_self]
    exact (ofEntries_perm (ready.left.perm.filter _)).append
      (ofEntries_perm (ready.right.perm.filter _))
  have left := ready.left.titles_run ready.leftPrepares
  have right := ready.right.titles_run rightPrepares
  have copies := ready.left.copies_run ready.leftPrepares jkAlias_injective
    (by
      intro key isKept slot mem
      rw [preName_true]
      exact fits.copiesFresh key isKept _ (mem_own.mp mem).2.2.1 (mem_own.mp mem).2.2.2)
  have joining := right_join ready how fits
  have post := @post_run _ (rightName input) Slot.title (fun slot => !slot.select.keep)
    (fun _ => False)
    (handleRightJoinKeys manager (getJoinKeys manager).1 (getJoinKeys manager).2).afterJoinDropCols
    [] (right_nodup ready fits)
    (by
      intro other inDrops
      rw [handleRightJoinKeys, mem_eraseDups] at inDrops
      obtain ⟨key, isDropped, rfl⟩ := mem_map.mp inDrops
      obtain ⟨isKey, unkept⟩ := mem_filter.mp isDropped
      obtain ⟨slot, isOwn, _, _, title, keep⟩ := ready.right.listed_key isKey
      refine ⟨slot, mem_append_right _ (ready.right.mem_inOrder.mpr isOwn), ?_, ?_⟩
      · rwa [keep]
      · simp only [rightName, (mem_own.mp isOwn).1, true_and, Slot.title, title,
          droppedName_right ready fits isDropped, ite_not])
    (by
      intro slot mem unkept
      have unkept : slot.select.keep = false := by simpa using unkept
      rcases mem_append.mp mem with inLeft | inRight
      · have keep := (mem_filter.mp inLeft).2
        rw [unkept] at keep
        cases keep
      have isOwn := ready.right.mem_inOrder.mp inRight
      have key : slot.select.joinKey = true := by
        simpa [SelectInput.selected, unkept] using (mem_own.mp isOwn).2.2.2
      obtain ⟨column, isKey, title, _, keep⟩ := ready.right.slot_listed isOwn key (.inl unkept)
      have isDropped : column ∈ droppedKeys manager.rightSelect :=
        mem_filter.mpr ⟨isKey, by simp [keep, unkept]⟩
      rw [handleRightJoinKeys, mem_eraseDups]
      refine mem_map.mpr ⟨column, isDropped, ?_⟩
      simp only [rightName, (mem_own.mp isOwn).1, true_and, Slot.title, ← title,
        droppedName_right ready fits isDropped, ite_not])
    (by
      intro pair inReverse
      cases inReverse)
    (fun _ _ _ => False.elim)
    (by
      intro slot mem kept _
      rcases mem_append.mp mem with inLeft | inRight
      · have isOwn := ready.left.mem_inOrder.mp (mem_filter.mp inLeft).1
        simp [rightName, (mem_own.mp isOwn).1]
      obtain ⟨_, _, inSelects, _⟩ := mem_own.mp (ready.right.mem_inOrder.mp inRight)
      have free : slot.title ∉ getNewCols input.leftSelect := by
        intro taken
        refine ready.disjoint _ taken (mem_map_of_mem (mem_filter.mpr ⟨inSelects, ?_⟩))
        simpa using kept
      simp [rightName, free])
    (ready.targets_nodup kept)
  have sameCopies : (keptKeys manager.leftSelect).map (fun key =>
      (key.newName, jkAlias key.newName)) = (keptKeys manager.leftSelect).map fun key =>
        (key.preName true, jkAlias key.newName) := by
    apply map_congr_left
    intro key _
    simp [SelectInput.preName]
  have keys : handleJoinKeyTransformations manager (getJoinKeys manager).1
      (getJoinKeys manager).2 = handleRightJoinKeys manager (getJoinKeys manager).1
        (getJoinKeys manager).2 := by
    rw [handleJoinKeyTransformations, how]
  have type : manager.how.polarsType = .coalescingFirst := by
    rw [how]
    rfl
  have leftSources : ofEntries rightLeftName source
      (rightLeftSlots manager input leftColumns) =
        ofEntries Slot.title source (inOrder leftColumns (input.own .left)) ++
          ofEntries (fun slot => jkAlias slot.title) source
            (keptCopies .left leftColumns manager.leftSelect) := by
    rw [rightLeftSlots, ofEntries_append]
    congr 1
    · apply ofEntries_congr
      intro slot mem
      simp [rightLeftName, (mem_own.mp (ready.left.mem_inOrder.mp mem)).2.1]
    · apply ofEntries_congr
      intro slot mem
      obtain ⟨key, _, rfl⟩ := mem_map.mp mem
      rfl
  rw [preName_true, ← leftSources, ← sameCopies] at copies
  refine ⟨_, ?_, kept⟩
  rw [JoinCode.run, handleStandardJoin, keys]
  simp only [renames, type, bind_ok]
  refine ⟨_, (runSteps_append left).trans copies, _, ?_, _, joining, ?_⟩
  · rw [handleRightJoinKeys, append_nil]
    exact right
  · exact post

end

end

end Flowfile.Join
