import Flowfile.GeneratedSides

/-!
# Generated full, semi and anti joins

A full join has no treatment of keys: right keys keep their old names. Semi and anti joins keep the
left columns.
-/

namespace Flowfile.Join

open Library.ColumnFrames Library.TracedFrames List
open Slot (finalName source preName)

/-- What full joins need besides: left keys are kept, and right keys end up under the name that the
execution gives them, although they keep their old names before the join. -/
structure FullFits (input : JoinInput) : Prop where
  leftKept : ∀ key ∈ input.leftSelect, key.joinKey = true → key.keep = true
  titles : ∀ key ∈ input.rightSelect, key.joinKey = true →
    (if key.oldName ∈ getNewCols input.leftSelect then polarsSuffix key.oldName
      else key.oldName) = if key.keep then key.newName else constructJoinKeyName .right key.newName

section

variable {manager input : JoinInput} {leftColumns rightColumns : List String}

theorem full_run (ready : BothReady manager input leftColumns rightColumns)
    (how : manager.how = .full) (fits : FullFits input)
    (distinct : ((input.own .left ++ input.own .right).map finalName).Nodup) :
    ∃ result, (handleStandardJoin manager).run (sourceTable .left leftColumns)
      (sourceTable .right rightColumns) = .ok result ∧ result.Perm (ofEntries finalName source
          (input.own .left ++ input.own .right)) := by
  have keepsNames : manager.how.renamesRightKeys = false := by
    rw [how]
    rfl
  have rightPrepares := ready.rightPrepares
  rw [keepsNames] at rightPrepares
  have left := ready.left.titles_run ready.leftPrepares
  have right := preJoin_run ready.right.settled ready.right.sound rightPrepares
    ready.right.distinct
  have leftKept : ∀ slot ∈ input.own .left, slot.select.keep = true := by
    intro slot isOwn
    obtain ⟨_, _, inSelects, selected⟩ := mem_own.mp isOwn
    cases key : slot.select.joinKey with
    | true => exact fits.leftKept _ inSelects key
    | false => simpa [SelectInput.selected, key] using selected
  have leftFinal : ∀ slot ∈ input.own .left, slot.title = slot.finalName := by
    intro slot isOwn
    simp [finalName, leftKept slot isOwn, Slot.title]
  have leftTitles : ∀ name, name ∈ (inOrder leftColumns (input.own .left)).map Slot.title ↔
      name ∈ getNewCols input.leftSelect := by
    intro name
    have titles := kept_titles input .left
    rw [JoinInput.selects] at titles
    rw [← titles, (ready.left.perm.map _).mem_iff, JoinInput.kept, filter_eq_self.mpr leftKept]
  have rightFinal : ∀ slot ∈ input.own .right,
      (if slot.preName false ∈ (inOrder leftColumns (input.own .left)).map Slot.title
        then polarsSuffix (slot.preName false) else slot.preName false) = slot.finalName := by
    intro slot isOwn
    obtain ⟨side, _, inSelects, selected⟩ := mem_own.mp isOwn
    simp only [leftTitles]
    cases key : slot.select.joinKey with
    | true =>
      have title := fits.titles _ inSelects key
      simp only [preName, SelectInput.preName, key, Bool.not_false, Bool.and_self, if_true]
      rw [title, finalName, side]
      cases keep : slot.select.keep <;> simp [key]
    | false =>
      have keep : slot.select.keep = true := by simpa [SelectInput.selected, key] using selected
      have free : slot.select.newName ∉ getNewCols input.leftSelect := by
        intro taken
        exact ready.disjoint _ taken (mem_map_of_mem (mem_filter.mpr ⟨inSelects, keep⟩))
      simp [preName, SelectInput.preName, key, free, finalName]
  have table : JoinType.full.table polarsSuffix
      (ofEntries Slot.title source (inOrder leftColumns (input.own .left)))
      (ofEntries (preName false) source (inOrder rightColumns (input.own .right)))
      (getJoinKeys manager).1 (getJoinKeys manager).2 = ofEntries finalName source
          (inOrder leftColumns (input.own .left) ++ inOrder rightColumns (input.own .right)) := by
    rw [JoinType.table, beside, names_ofEntries, ofEntries_append]
    congr 1
    · exact ofEntries_congr fun slot mem =>
        leftFinal slot (ready.left.mem_inOrder.mp mem)
    · rw [ofEntries, ofEntries, map_map]
      apply map_congr_left
      intro slot mem
      exact congrArg (·, slot.source) (rightFinal slot (ready.right.mem_inOrder.mp mem))
  have same := ready.left.perm.append ready.right.perm
  have joining : joinTable .full polarsSuffix
      (ofEntries Slot.title source (inOrder leftColumns (input.own .left)))
      (ofEntries (preName false) source (inOrder rightColumns (input.own .right)))
      (getJoinKeys manager).1 (getJoinKeys manager).2 = .ok (ofEntries finalName source
          (inOrder leftColumns (input.own .left) ++ inOrder rightColumns (input.own .right))) := by
    rw [joinTable_ok, table, names_ofEntries, names_ofEntries, names_ofEntries]
    refine ⟨?_, ?_, (same.map _).nodup_iff.mpr distinct, rfl⟩
    · intro name isKey
      rw [getJoinKeys_left, ready.left.mem_titles ready.leftAvailable] at isKey
      obtain ⟨slot, isOwn, _, rfl⟩ := isKey
      exact mem_map.mpr ⟨slot, ready.left.mem_inOrder.mpr isOwn, rfl⟩
    · intro name isKey
      rw [getJoinKeys_right keepsNames, ready.right.mem_keys] at isKey
      obtain ⟨slot, isOwn, key, rfl⟩ := isKey
      refine mem_map.mpr ⟨slot, ready.right.mem_inOrder.mpr isOwn, ?_⟩
      simp [preName, SelectInput.preName, key]
  have keys : handleJoinKeyTransformations manager (getJoinKeys manager).1
      (getJoinKeys manager).2 =
        ⟨[], [], (getJoinKeys manager).1, (getJoinKeys manager).2, [], []⟩ := by
    rw [handleJoinKeyTransformations, how]
  have type : manager.how.polarsType = .full := by
    rw [how]
    rfl
  refine ⟨_, ?_, ofEntries_perm same⟩
  rw [JoinCode.run, handleStandardJoin, keys]
  simp only [append_nil, keepsNames, type, bind_ok]
  exact ⟨_, left, _, right, _, joining, rfl⟩

theorem semiAnti_run
    (ready : Ready input .left (manager.joinMapping.map JoinMap.leftCol) leftColumns
      manager.leftSelect)
    (prepares : PreparesSide true leftColumns manager.leftSelect input.leftSelect)
    (available : KeysAvailable manager.leftSelect) (how : manager.how = .semi ∨ manager.how = .anti)
    (rightKeys : ∀ name ∈ manager.joinMapping.map JoinMap.rightCol, name ∈ rightColumns) :
    ∃ result, (handleSemiAntiJoin manager).run (sourceTable .left leftColumns)
      (sourceTable .right rightColumns) = .ok result ∧ result.Perm (input.keptSources .left) := by
  have keepsNames : manager.how.renamesRightKeys = false := by
    rcases how with semi | anti
    · rw [semi]
      rfl
    · rw [anti]
      rfl
  have type : manager.how.polarsType = .filtering := by
    rcases how with semi | anti
    · rw [semi]
      rfl
    · rw [anti]
      rfl
  have left := ready.titles_run prepares
  have joining : joinTable .filtering polarsSuffix
      (ofEntries Slot.title source (inOrder leftColumns (input.own .left)))
      (sourceTable .right rightColumns) (getJoinKeys manager).1 (getJoinKeys manager).2 =
        .ok (ofEntries Slot.title source (inOrder leftColumns (input.own .left))) := by
    rw [joinTable_ok, JoinType.table, names_ofEntries, names_sourceTable]
    refine ⟨?_, ?_, ready.titles_nodup, rfl⟩
    · intro name isKey
      rw [getJoinKeys_left, ready.mem_titles available] at isKey
      obtain ⟨slot, isOwn, _, rfl⟩ := isKey
      exact mem_map.mpr ⟨slot, ready.mem_inOrder.mpr isOwn, rfl⟩
    · intro name isKey
      rw [getJoinKeys_right keepsNames] at isKey
      exact rightKeys name isKey
  have post := @post_run _ Slot.title Slot.title (fun slot => !slot.select.keep) (fun _ => False)
    ((droppedKeys manager.leftSelect).map SelectInput.newName) [] ready.titles_nodup
    (by
      intro other inDrops
      obtain ⟨key, isDropped, rfl⟩ := mem_map.mp inDrops
      obtain ⟨isKey, unkept⟩ := mem_filter.mp isDropped
      obtain ⟨slot, isOwn, _, _, title, keep⟩ := ready.listed_key isKey
      exact ⟨slot, ready.mem_inOrder.mpr isOwn, by rwa [keep], title.symm⟩)
    (by
      intro slot mem unkept
      have unkept : slot.select.keep = false := by simpa using unkept
      have isOwn := ready.mem_inOrder.mp mem
      have key : slot.select.joinKey = true := by
        simpa [SelectInput.selected, unkept] using (mem_own.mp isOwn).2.2.2
      obtain ⟨column, isKey, title, _, keep⟩ := ready.slot_listed isOwn key (.inl unkept)
      exact mem_map.mpr
        ⟨column, mem_filter.mpr ⟨isKey, by simp [keep, unkept]⟩, title⟩)
    (by
      intro pair inReverse
      cases inReverse)
    (fun _ _ _ => False.elim)
    (fun _ _ _ _ => rfl)
    (ready.titles_nodup.sublist (filter_sublist.map _))
  have kept : (ofEntries Slot.title source ((inOrder leftColumns (input.own .left)).filter
      fun slot => !!slot.select.keep)).Perm (input.keptSources .left) := by
    simp only [Bool.not_not]
    exact ofEntries_perm (ready.perm.filter _)
  refine ⟨_, ?_, kept⟩
  rw [JoinCode.run, handleSemiAntiJoin]
  simp only [type, bind_ok]
  refine ⟨_, left, _, rfl, _, joining, ?_⟩
  rw [← append_nil (unlessEmpty FrameStep.drop _)]
  exact post

end

end Flowfile.Join
