import Flowfile.CrossJoin
import Flowfile.GeneratedFullJoin
import Flowfile.GeneratedInnerJoin
import Flowfile.GeneratedOuterJoin
import Flowfile.JoinSchema

/-!
# Generated joins agree with executed ones

An executed join returns the kept columns of both sides. The generated code does so too unless a
name is in the way; the conditions under which none is are those of the kind of join. A cross join
is generated without its settings and agrees only where these keep everything as it is.
-/

namespace Flowfile.Join

open Library.ColumnFrames Library.TracedFrames List
open Slot (finalName source title)
open JoinInput (slots copies own keyless keptSources settled kept)

section

variable {input : JoinInput}

/-- All slots of a join belong to columns that take part. -/
theorem slots_selected {slot : Slot} (mem : slot ∈ input.slots) : slot.select.selected = true := by
  have own : ∀ side, slot ∈ input.own side → slot.select.selected = true :=
    fun side isOwn => (mem_own.mp isOwn).2.2.2
  have keyless : ∀ side, slot ∈ input.keyless side → slot.select.selected = true :=
    fun side isKeyless => own side (mem_filter.mp isKeyless).1
  have copies : ∀ side, slot ∈ input.copies side → slot.select.selected = true := by
    intro side isCopy
    simp [SelectInput.selected, (mem_copies.mp isCopy).2.2.2]
  have second : ∀ side, slot ∈ input.keyless side ++ input.copies side →
      slot.select.selected = true :=
    fun side isSecond => (mem_append.mp isSecond).elim (keyless side) (copies side)
  rw [slots] at mem
  split at mem
  · exact (mem_append.mp mem).elim (own _) (second _)
  · exact (mem_append.mp mem).elim (own _) (second _)
  · exact (mem_append.mp mem).elim (own _) (second _)
  · exact (mem_append.mp mem).elim (own _) (own _)
  · exact (mem_append.mp mem).elim (own _) (own _)
  · exact own _ mem
  · exact own _ mem

theorem remaining_kept {how : JoinKeyStrategy} {slots : List Slot}
    (selected : ∀ slot ∈ slots, slot.select.selected = true)
    (drops : ∀ slot ∈ slots, slot.side = .left ∨ how.dropsRightKeys = true) :
    ofEntries finalName source (slots.filter fun slot => !slot.gone how) =
      ofEntries title source (slots.filter fun slot => slot.select.keep) := by
  have same : (slots.filter fun slot => !slot.gone how) =
      slots.filter fun slot => slot.select.keep := by
    apply filter_congr
    intro slot mem
    have takesPart := selected slot mem
    have goes : (decide (slot.side = .left) || how.dropsRightKeys) = true := by
      simpa using drops slot mem
    cases keep : slot.select.keep with
    | true => simp [Slot.gone, keep]
    | false =>
      have key : slot.select.joinKey = true := by simpa [SelectInput.selected, keep] using takesPart
      simp only [Slot.gone, key, keep, Bool.not_false, Bool.and_self, Bool.true_and]
      simp [goes]
  rw [same]
  apply ofEntries_congr
  intro slot mem
  have keep : slot.select.keep = true := (mem_filter.mp mem).2
  simp [finalName, keep, title]

theorem second_sources (side : Side) : (ofEntries title source
      ((input.keyless side ++ input.copies side).filter fun slot => slot.select.keep)).Perm
        (input.keptSources side) := by
  have copies : ofEntries title source
      ((input.copies side).filter fun slot => slot.select.keep) =
        ofEntries title source (((input.own side).filter
          fun slot => slot.select.keep).filter fun slot => slot.select.joinKey) := by
    rw [copies, own, getJoinKeySelects, filter_map, filter_map,
      filter_map, filter_filter, filter_filter, filter_filter, ofEntries,
      ofEntries, map_map, map_map]
    have same : (input.selects side).filter (fun select =>
        ((fun slot : Slot => slot.select.keep) ∘ fun select => ⟨side, select, true⟩) select &&
          select.joinKey) = (input.selects side).filter fun select =>
        (((fun slot : Slot => slot.select.joinKey) ∘ fun select => ⟨side, select, false⟩) select &&
          ((fun slot : Slot => slot.select.keep) ∘ fun select => ⟨side, select, false⟩) select) &&
            select.selected := by
      apply filter_congr
      intro select _
      cases key : select.joinKey <;> simp [SelectInput.selected, key]
    rw [same]
    rfl
  have parts := filter_append_perm (fun slot : Slot => !slot.select.joinKey)
    ((input.own side).filter fun slot => slot.select.keep)
  have keyless : ((input.own side).filter fun slot => slot.select.keep).filter
      (fun slot => !slot.select.joinKey) =
        (input.keyless side).filter fun slot => slot.select.keep := by
    rw [keyless, filter_filter, filter_filter]
    apply filter_congr
    intro slot _
    exact Bool.and_comm _ _
  simp only [Bool.not_not] at parts
  rw [keyless] at parts
  rw [filter_append, ofEntries_append, copies, ← ofEntries_append]
  exact ofEntries_perm parts

/-- What an executed join returns: the kept columns of both sides, of the left side only for semi
and anti joins, and all right columns for full joins. -/
def JoinInput.returned (input : JoinInput) : Table String Source :=
  match input.how with
  | .inner | .left | .right | .outer => input.keptSources .left ++ input.keptSources .right
  | .full => input.keptSources .left ++ ofEntries finalName source (input.own .right)
  | .semi | .anti => input.keptSources .left

theorem slots_returned : (ofEntries finalName source
      (input.slots.filter fun slot => !slot.gone input.how)).Perm input.returned := by
  have first : ∀ side, ofEntries title source
      ((input.own side).filter fun slot => slot.select.keep) = input.keptSources side :=
    fun _ => rfl
  cases how : input.how with
  | inner | left =>
    rw [remaining_kept (fun slot => slots_selected) (fun _ _ => .inr (by decide)),
      slots, JoinInput.returned, how]
    simp only
    rw [filter_append, ofEntries_append, first]
    exact (second_sources .right).append_left _
  | right =>
    rw [remaining_kept (fun slot => slots_selected) (fun _ _ => .inr (by decide)),
      slots, JoinInput.returned, how]
    simp only
    rw [filter_append, ofEntries_append, first]
    exact ((second_sources .left).append_left _).trans perm_append_comm
  | outer =>
    rw [remaining_kept (fun slot => slots_selected) (fun _ _ => .inr (by decide)),
      slots, JoinInput.returned, how]
    simp only
    rw [filter_append, ofEntries_append, first, first]
  | full =>
    have right : (input.own .right).filter (fun slot => !slot.gone .full) = input.own .right := by
      rw [filter_eq_self]
      intro slot mem
      simp [Slot.gone, (mem_own.mp mem).1, JoinKeyStrategy.dropsRightKeys]
    have left := @remaining_kept .full (input.own .left) (fun _ mem => (mem_own.mp mem).2.2.2)
      fun _ mem => .inl (mem_own.mp mem).1
    rw [slots, JoinInput.returned, how]
    simp only
    rw [filter_append, ofEntries_append, right, left, first]
  | semi | anti =>
    rw [slots, JoinInput.returned, how]
    simp only
    rw [remaining_kept (fun _ mem => (mem_own.mp mem).2.2.2)
      fun _ mem => .inl (mem_own.mp mem).1, first]

end

def JoinKeyStrategy.filters (how : JoinKeyStrategy) : Prop :=
  how = .semi ∨ how = .anti

def KeysFit (manager input : JoinInput) : Prop :=
  match manager.how with
  | .inner | .left => LeftInnerFits manager input
  | .right => RightFits manager input
  | .outer => OuterFits manager input
  | .full => FullFits input
  | .semi | .anti => True

/-- Settings for which no name is in the way of the generated code. The settings under which the
join is executed are those of the generator with the columns of the tables that are not listed. -/
structure GeneratorFits (input : JoinInput) (autoGenerateSelection : Bool)
    (left right : TableSchema) : Prop where
  copiesFree : ∀ side, input.how.copiedSide = some side →
    ¬ Overwrites ((input.settled left right autoGenerateSelection).selects side)
  leftPrepares : PreparesSide true left.names input.autoRename.leftSelect
    (input.settled left right autoGenerateSelection).leftSelect
  leftAvailable : KeysAvailable input.autoRename.leftSelect
  rightPrepares : ¬ input.how.filters → PreparesSide input.how.renamesRightKeys right.names
    input.autoRename.rightSelect (input.settled left right autoGenerateSelection).rightSelect
  titles : ¬ input.how.filters → TitlesAgree input left right
  keys : KeysFit input.autoRename (input.settled left right autoGenerateSelection)

section

variable {input : JoinInput} {left right : TableSchema} {autoGenerateSelection : Bool}

/-- The settings under which an accepted join is executed keep the strategy and the pairs. -/
theorem settled_rest (accepted : input.verifyMapIntegrity left right = true) :
    (input.settled left right autoGenerateSelection).how = input.how ∧
      (input.settled left right autoGenerateSelection).joinMapping = input.joinMapping := by
  obtain ⟨_, settled, _⟩ := settled_titles accepted autoGenerateSelection
  rw [settled]
  exact complete_rest left.names right.names input

variable {table : Table String Source}

section

variable (ran : executeJoin input autoGenerateSelection left right = .ok table)
  (fits : GeneratorFits input autoGenerateSelection left right)
include ran fits

theorem executeJoin_returned : input.verifyMapIntegrity left right = true ∧
      (∀ side, Sound ((input.settled left right autoGenerateSelection).selects side)) ∧
        (input.settled left right autoGenerateSelection).returned.Perm table ∧
          (names table).Nodup := by
  rw [executeJoin] at ran
  split at ran
  case isTrue accepted =>
    have prepared := settled_prepared accepted autoGenerateSelection
    have fresh : ∀ side,
        (input.settled left right autoGenerateSelection).how.copiedSide = some side →
          ¬ Overwrites ((input.settled left right autoGenerateSelection).selects side) := by
      rw [(settled_rest accepted).1]
      exact fits.copiesFree
    have named := joinSources_names ran
    simp only [names_sourceTable] at named
    have columns := joinSources_columns prepared ran fresh
    refine ⟨accepted, joinTables_sound prepared named, ?_,
      (joinTables_columns prepared named fresh).2⟩
    rw [columns]
    exact slots_returned.symm
  case isFalse => cases ran

theorem executeJoin_disjoint (unfiltered : ¬ input.how.filters) :
    ∀ name ∈ getNewCols (input.settled left right autoGenerateSelection).leftSelect,
      name ∉ getNewCols (input.settled left right autoGenerateSelection).rightSelect := by
  obtain ⟨accepted, _, returned, distinct⟩ := executeJoin_returned ran fits
  have sameNames : (names (input.settled left right autoGenerateSelection).returned).Perm
      (names table) := returned.map Prod.fst
  rw [← sameNames.nodup_iff] at distinct
  intro name inLeft inRight
  have leftKept : name ∈ names
      ((input.settled left right autoGenerateSelection).keptSources .left) := by
    rw [keptSources, names_ofEntries, kept_titles]
    exact inLeft
  have rightKept : name ∈ names
      ((input.settled left right autoGenerateSelection).keptSources .right) := by
    rw [keptSources, names_ofEntries, kept_titles]
    exact inRight
  have rightOwn : name ∈ names (ofEntries finalName source
      ((input.settled left right autoGenerateSelection).own .right)) := by
    rw [keptSources, names_ofEntries] at rightKept
    obtain ⟨slot, isKept, rfl⟩ := mem_map.mp rightKept
    obtain ⟨isOwn, keep⟩ := mem_filter.mp isKept
    rw [names_ofEntries]
    refine mem_map.mpr ⟨slot, isOwn, ?_⟩
    simp [finalName, keep, title]
  rw [JoinInput.returned, (settled_rest accepted).1] at distinct
  cases how : input.how with
  | inner | left | right | outer =>
    rw [how] at distinct
    simp only [names_append] at distinct
    exact (nodup_append.mp distinct).2.2 name leftKept name rightKept rfl
  | full =>
    rw [how] at distinct
    simp only [names_append] at distinct
    exact (nodup_append.mp distinct).2.2 name leftKept name rightOwn rfl
  | semi => exact unfiltered (.inl how)
  | anti => exact unfiltered (.inr how)

/-- An executed join that is neither a semi nor an anti join is executed under the settings that
automatic renaming leads to, whether it is asked for or not. -/
theorem settled_renamed (unfiltered : ¬ input.how.filters) :
    input.settled left right autoGenerateSelection = input.settled left right true := by
  have disjoint := executeJoin_disjoint ran fits unfiltered
  obtain ⟨accepted, _⟩ := executeJoin_returned ran fits
  cases autoGenerateSelection with
  | true => rfl
  | false =>
  rw [settled, appendKeys_complete accepted] at disjoint ⊢
  rw [if_neg Bool.false_ne_true] at disjoint ⊢
  rw [settled, appendKeys_complete accepted, if_pos rfl, JoinInput.autoRename,
    verified_marked, resolveOverlaps_done]
  rw [eq_nil_iff_forall_not_mem]
  intro name overlaps
  obtain ⟨inLeft, inRight⟩ := mem_getOverlappingColumns.mp overlaps
  exact disjoint name inLeft inRight

end

theorem left_ready (accepted : input.verifyMapIntegrity left right = true)
    (sound : Sound ((input.settled left right autoGenerateSelection).selects .left)) :
    Ready (input.settled left right autoGenerateSelection) .left
      (input.autoRename.joinMapping.map JoinMap.leftCol) left.names
        input.autoRename.leftSelect where
  settled := by
    rw [(autoRename_rest input).2]
    exact settled_leftSelect accepted autoGenerateSelection
  marked := by
    rw [(autoRename_rest input).2, autoRename_leftSelect]
    intro select mem
    obtain ⟨column, _, rfl⟩ := mem_map.mp mem
    rfl
  sound := sound
  distinct := left.distinct
  present := by
    rw [(autoRename_rest input).2]
    intro name isKey
    obtain ⟨pair, inMapping, rfl⟩ := mem_map.mp isKey
    exact (accepted_keys accepted inMapping).1

theorem right_ready (accepted : input.verifyMapIntegrity left right = true)
    (sound : Sound ((input.settled left right true).selects .right))
    (unfiltered : ¬ input.how.filters) (titles : TitlesAgree input left right) :
    Ready (input.settled left right true) .right
      (input.autoRename.joinMapping.map JoinMap.rightCol) right.names
        input.autoRename.rightSelect where
  settled := by
    rw [(autoRename_rest input).2]
    exact settled_rightSelect accepted unfiltered titles
  marked := by
    obtain ⟨change, retitled⟩ := autoRename_rightSelect input
    rw [(autoRename_rest input).2, retitled]
    intro select mem
    obtain ⟨marked, isMarked, rfl⟩ := mem_map.mp mem
    obtain ⟨column, _, rfl⟩ := mem_map.mp isMarked
    rfl
  sound := sound
  distinct := right.distinct
  present := by
    rw [(autoRename_rest input).2]
    intro name isKey
    obtain ⟨pair, inMapping, rfl⟩ := mem_map.mp isKey
    exact (accepted_keys accepted inMapping).2

/-- The generated code returns what a semi or anti join returns. -/
theorem filtering_agrees (ran : executeJoin input autoGenerateSelection left right = .ok table)
    (fits : GeneratorFits input autoGenerateSelection left right) (filters : input.how.filters) :
    ∃ result, runGenerated input left right = .ok result ∧ result.Perm table := by
  obtain ⟨accepted, sound, returned, _⟩ := executeJoin_returned ran fits
  have managerHow := (autoRename_rest input).1
  obtain ⟨result, generated, permuted⟩ := @semiAnti_run input.autoRename
    (input.settled left right autoGenerateSelection) left.names right.names
    (left_ready accepted (sound .left)) fits.leftPrepares fits.leftAvailable
    (by rw [managerHow]; exact filters)
    (by
      rw [(autoRename_rest input).2]
      intro name isKey
      obtain ⟨pair, inMapping, rfl⟩ := mem_map.mp isKey
      exact (accepted_keys accepted inMapping).2)
  have left : (input.settled left right autoGenerateSelection).returned =
      (input.settled left right autoGenerateSelection).keptSources .left := by
    rw [JoinInput.returned, (settled_rest accepted).1]
    rcases filters with semi | anti
    · rw [semi]
    · rw [anti]
  refine ⟨result, ?_, permuted.trans (left ▸ returned)⟩
  rw [runGenerated, handleJoin, if_pos (show input.how = .semi ∨ input.how = .anti from filters)]
  exact generated

theorem standard_agrees (ran : executeJoin input autoGenerateSelection left right = .ok table)
    (fits : GeneratorFits input autoGenerateSelection left right)
    (unfiltered : ¬ input.how.filters) :
    ∃ result, runGenerated input left right = .ok result ∧ result.Perm table := by
  obtain ⟨accepted, sound, returned, distinct⟩ := executeJoin_returned ran fits
  have disjoint := executeJoin_disjoint ran fits unfiltered
  have renamed := settled_renamed ran fits unfiltered
  have managerHow := (autoRename_rest input).1
  have rightPrepares := fits.rightPrepares unfiltered
  have ready : BothReady input.autoRename (input.settled left right autoGenerateSelection)
      left.names right.names := by
    constructor
    case left => exact left_ready accepted (sound .left)
    case right =>
      rw [renamed] at sound ⊢
      exact right_ready accepted (sound .right) unfiltered (fits.titles unfiltered)
    case leftPrepares => exact fits.leftPrepares
    case leftAvailable => exact fits.leftAvailable
    case rightPrepares =>
      rw [managerHow]
      exact rightPrepares
    case disjoint => exact disjoint
  have keys := fits.keys
  rw [KeysFit, managerHow] at keys
  have both : ∃ result, (handleStandardJoin input.autoRename).run (sourceTable .left left.names)
      (sourceTable .right right.names) = .ok result ∧
        result.Perm (input.settled left right autoGenerateSelection).returned := by
    rw [JoinInput.returned, (settled_rest accepted).1]
    cases how : input.how with
    | inner =>
      rw [how] at keys
      exact leftInner_run ready (.inl (managerHow.trans how)) keys
    | left =>
      rw [how] at keys
      exact leftInner_run ready (.inr (managerHow.trans how)) keys
    | right =>
      rw [how] at keys
      exact right_run ready (managerHow.trans how) keys
    | outer =>
      rw [how] at keys
      exact outer_run ready (managerHow.trans how) keys
    | full =>
      rw [how] at keys
      have leftKept : (input.settled left right autoGenerateSelection).kept .left =
          (input.settled left right autoGenerateSelection).own .left := by
        rw [kept, filter_eq_self]
        intro slot isOwn
        obtain ⟨_, _, inSelects, selected⟩ := mem_own.mp isOwn
        cases key : slot.select.joinKey with
        | true => exact keys.leftKept _ inSelects key
        | false => simpa [SelectInput.selected, key] using selected
      have leftSources : (input.settled left right autoGenerateSelection).keptSources .left =
          ofEntries finalName source
            ((input.settled left right autoGenerateSelection).own .left) := by
        rw [keptSources, leftKept]
        apply ofEntries_congr
        intro slot isOwn
        rw [← leftKept] at isOwn
        have keep : slot.select.keep = true := (mem_filter.mp isOwn).2
        simp [finalName, keep, title]
      have sameNames : (names (input.settled left right autoGenerateSelection).returned).Perm
          (names table) := returned.map Prod.fst
      rw [← sameNames.nodup_iff, JoinInput.returned, (settled_rest accepted).1, how] at distinct
      simp only [leftSources, ← ofEntries_append, names_ofEntries] at distinct ⊢
      exact full_run ready (managerHow.trans how) keys distinct
    | semi => exact absurd (.inl how) unfiltered
    | anti => exact absurd (.inr how) unfiltered
  obtain ⟨result, generated, permuted⟩ := both
  refine ⟨result, ?_, permuted.trans returned⟩
  rw [runGenerated, handleJoin,
    if_neg (show ¬ (input.how = .semi ∨ input.how = .anti) from unfiltered)]
  exact generated

end

def listedJoin : JoinInput :=
  ⟨[⟨"id", "id"⟩], [⟨"id", "id", true, true, true⟩, ⟨"name", "name", false, true, true⟩],
    [⟨"id", "customer", true, true, true⟩, ⟨"amount", "amount", false, true, true⟩], .inner⟩

def renamedKeyJoin : JoinInput :=
  { listedJoin with how := .full }

end Flowfile.Join
