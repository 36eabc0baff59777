import Flowfile.JoinEngine

/-!
# Predicted and executed joins

The prediction lists kept columns in the order of the schemas, the left side first. The
execution lists them in the order of the settings, with the copied keys behind the other
columns, and a right join starts with the right side. A full join leaves right keys that are
not kept in the table. The two agree when the settings happen to list the columns as the
prediction does.
-/

namespace Flowfile.Join

open Library.ColumnFrames List
open FlowfileColumn (columnName)
open SelectInput (oldName retitle joinKey)

structure Listed (kept ordered : List SelectInput) : Prop where
  subset : ∀ select ∈ ordered, select ∈ kept
  keptDistinct : (kept.map oldName).Nodup
  orderedDistinct : (ordered.map oldName).Nodup

section

variable {kept ordered others : List SelectInput}

/-- Ordering adds no columns. -/
theorem Listed.length_le (listed : Listed kept ordered) : ordered.length ≤ kept.length :=
  (listed.orderedDistinct.of_map.subperm listed.subset).length_le

/-- Columns of the same number are the same ones. -/
theorem Listed.perm (listed : Listed kept ordered) (all : kept.length ≤ ordered.length) :
    ordered.Perm kept :=
  (listed.orderedDistinct.of_map.subperm listed.subset).perm_of_length_le all

theorem eq_of_titles {title : SelectInput → String} (distinct : (kept.map title).Nodup)
    {first second : List SelectInput} (firstKept : ∀ select ∈ first, select ∈ kept)
    (secondKept : ∀ select ∈ second, select ∈ kept)
    (same : first.map title = second.map title) : first = second := by
  induction first generalizing second with
  | nil => simpa using same.symm
  | cons select rest ih =>
    cases second with
    | nil => simp at same
    | cons other others =>
    obtain ⟨sameTitle, sameRest⟩ := List.cons.inj same
    rw [eq_of_name distinct (firstKept _ mem_cons_self) (secondKept _ mem_cons_self) sameTitle,
      ih (fun entry inRest => firstKept entry (mem_cons_of_mem _ inRest))
        (fun entry inOthers => secondKept entry (mem_cons_of_mem _ inOthers)) sameRest]

end

/-- The title of a column of the right side when these names are kept on the left. -/
def SelectInput.titleAmong (autoGenerateSelection : Bool) (left : List SelectInput)
    (select : SelectInput) : String :=
  rightTitle autoGenerateSelection (left.map SelectInput.newName) select.newName

open SelectInput (titleAmong)

/-- Titles depend on the left columns, not on their order. -/
theorem titleAmong_perm {autoGenerateSelection : Bool} {left others : List SelectInput}
    (perm : left.Perm others) :
    titleAmong autoGenerateSelection left = titleAmong autoGenerateSelection others := by
  funext select
  exact rightTitle_congr _ (fun name => (perm.map SelectInput.newName).mem_iff) _

section

variable {autoGenerateSelection : Bool} {leftKept leftOrdered rightKept rightOrdered others :
  List SelectInput}

theorem left_first_iff (left : Listed leftKept leftOrdered) (right : Listed rightKept rightOrdered)
    (leftDistinct : (leftKept.map SelectInput.newName).Nodup)
    (rightDistinct : (rightKept.map (titleAmong autoGenerateSelection leftKept)).Nodup)
    (perm : others.Perm rightKept) :
    leftOrdered.map SelectInput.newName ++
        rightOrdered.map (titleAmong autoGenerateSelection leftOrdered) =
      leftKept.map SelectInput.newName ++ others.map (titleAmong autoGenerateSelection leftKept) ↔
      leftKept = leftOrdered ∧ others = rightOrdered := by
  constructor
  · intro same
    have lengths := congrArg List.length same
    simp only [length_append, length_map, perm.length_eq] at lengths
    have leftShorter := left.length_le
    have rightShorter := right.length_le
    have leftPerm := left.perm (by omega)
    rw [titleAmong_perm leftPerm] at same
    obtain ⟨sameLeft, sameRight⟩ := append_inj same (by simp [leftPerm.length_eq])
    constructor
    · exact (eq_of_titles leftDistinct left.subset (fun _ mem => mem) sameLeft).symm
    · exact (eq_of_titles rightDistinct right.subset (fun _ mem => perm.mem_iff.mp mem)
        sameRight).symm
  · rintro ⟨rfl, rfl⟩
    rfl

theorem right_first_iff (left : Listed leftKept leftOrdered)
    (right : Listed rightKept rightOrdered) (perm : others.Perm leftKept)
    (distinct : (rightKept.map (titleAmong autoGenerateSelection leftKept) ++
      others.map SelectInput.newName).Nodup) :
    leftOrdered.map SelectInput.newName ++
        rightOrdered.map (titleAmong autoGenerateSelection leftOrdered) =
      rightKept.map (titleAmong autoGenerateSelection leftKept) ++ others.map SelectInput.newName ↔
      leftKept = [] ∧ rightKept = rightOrdered ∨ rightKept = [] ∧ others = leftOrdered := by
  constructor
  · intro same
    have lengths := congrArg List.length same
    simp only [length_append, length_map, perm.length_eq] at lengths
    have leftShorter := left.length_le
    have rightShorter := right.length_le
    have leftPerm := left.perm (by omega)
    have rightPerm := right.perm (by omega)
    rw [titleAmong_perm leftPerm] at same
    obtain ⟨rightDistinct, othersDistinct, apart⟩ := nodup_append.mp distinct
    cases leftOrdered with
    | nil =>
      have noLeft : leftKept = [] := nil_perm.mp leftPerm
      subst noLeft
      have noOthers : others = [] := perm.eq_nil
      subst noOthers
      refine .inl ⟨rfl, ?_⟩
      exact (eq_of_titles rightDistinct right.subset (fun _ mem => mem) (by simpa using same)).symm
    | cons first rest =>
      cases rightKept with
      | nil =>
        have noRight : rightOrdered = [] := rightPerm.eq_nil
        subst noRight
        refine .inr ⟨rfl, ?_⟩
        exact (eq_of_titles othersDistinct
          (fun select mem => perm.mem_iff.mpr (left.subset select mem))
          (fun _ mem => mem) (by simpa using same)).symm
      | cons other more =>
        -- The same name would start the left and the right columns.
        have heads := (List.cons.inj same).1
        have inOthers : first.newName ∈ others.map SelectInput.newName :=
          mem_map_of_mem (perm.mem_iff.mpr (left.subset first mem_cons_self))
        exact absurd heads.symm (apart _ mem_cons_self _ inOthers)
  · rintro (⟨rfl, rfl⟩ | ⟨rfl, rfl⟩)
    · have noLeft : leftOrdered = [] := eq_nil_of_length_eq_zero (by
        have shorter := left.length_le
        simpa using shorter)
      subst noLeft
      have noOthers : others = [] := perm.eq_nil
      subst noOthers
      simp
    · have noRight : rightOrdered = [] := eq_nil_of_length_eq_zero (by
        have shorter := right.length_le
        simpa using shorter)
      subst noRight
      simp

end

def JoinInput.leftKept (input : JoinInput) : List SelectInput :=
  input.leftSelect.filter SelectInput.keep

def JoinInput.rightKept (input : JoinInput) : List SelectInput :=
  input.rightSelect.filter SelectInput.keep

theorem appendKeysPredicted_of_listed {input : JoinInput}
    (left : ∀ pair ∈ input.joinMapping, pair.leftCol ∈ input.leftSelect.map oldName)
    (right : ∀ pair ∈ input.joinMapping, pair.rightCol ∈ input.rightSelect.map oldName) :
    input.appendKeysPredicted = input := by
  have leftListed : (input.joinMapping.map JoinMap.leftCol).filter
      (fun name => name ∉ input.leftSelect.map oldName) = [] := by
    rw [filter_eq_nil_iff]
    intro name mem
    obtain ⟨pair, inMapping, rfl⟩ := mem_map.mp mem
    simpa using left pair inMapping
  have rightListed : (input.joinMapping.map JoinMap.rightCol).filter
      (fun name => name ∉ input.rightSelect.map oldName) = [] := by
    rw [filter_eq_nil_iff]
    intro name mem
    obtain ⟨pair, inMapping, rfl⟩ := mem_map.mp mem
    simpa using right pair inMapping
  rw [JoinInput.appendKeysPredicted]
  dsimp only
  rw [leftListed, rightListed, map_nil, append_nil, append_nil]

variable {selects : List SelectInput}

theorem predictedColumns_names {schema : TableSchema}
    (exist : ∀ select ∈ selects, select.oldName ∈ schema.names) :
    (predictedColumns schema selects).map columnName = getNewCols selects := by
  induction selects with
  | nil => rfl
  | cons select rest ih =>
    obtain ⟨column, found⟩ := Option.isSome_iff_exists.mp
      (TableSchema.find_isSome.mpr (exist select mem_cons_self))
    have others := ih fun other inRest =>
      exist other (mem_cons_of_mem _ inRest)
    rw [predictedColumns, getNewCols] at others ⊢
    rw [filterMap_cons, found, Option.bind_some]
    cases keep : select.keep with
    | false => simp [keep, others]
    | true => simp [keep, others]

theorem calculateJoinSchema_names {input : JoinInput} {left right : TableSchema}
    (accepted : input.verifyMapIntegrity left right = true) (autoGenerateSelection : Bool) :
    (calculateJoinSchema input left right autoGenerateSelection).map
        columnName =
      let ordered := (input.complete left.names right.names).orderBySchemas left.names right.names
      ordered.leftKept.map SelectInput.newName ++
        ordered.rightKept.map (titleAmong autoGenerateSelection ordered.leftKept) := by
  obtain ⟨_, mapping⟩ := complete_rest left.names right.names input
  have appended : (input.complete left.names right.names).appendKeysPredicted =
      input.complete left.names right.names := by
    apply appendKeysPredicted_of_listed
    · intro pair mem
      rw [mapping] at mem
      exact mem_complete_left (accepted_keys accepted mem).1
    · intro pair mem
      rw [mapping] at mem
      exact mem_complete_right (accepted_keys accepted mem).2
  obtain ⟨change, renamed, titles⟩ := @autoRename_titles
    ((input.complete left.names right.names).orderBySchemas left.names right.names)
    (fun select mem => complete_leftMarked select (mem_orderBy mem).1)
    (fun select mem => complete_rightMarked select (mem_orderBy mem).1)
    autoGenerateSelection
  rw [calculateJoinSchema]
  dsimp only
  rw [appended, renamed, map_append, predictedColumns_names, predictedColumns_names]
  · congr 1
    rw [getNewCols_retitle, getNewCols, map_map]
    apply map_congr_left
    intro select mem
    exact titles _ (mem_map_of_mem mem)
  · intro select mem
    obtain ⟨listed, inOrdered, rfl⟩ := mem_map.mp mem
    exact (mem_orderBy inOrdered).2
  · exact fun select mem => (mem_orderBy mem).2

section

variable {input : JoinInput} {left right : TableSchema} {autoGenerateSelection : Bool}

section

variable (accepted : input.verifyMapIntegrity left right = true)
include accepted

/-- Names of left columns in an executed join. -/
theorem settled_left_names {taken : SelectInput → Bool}
    (fixed : ∀ (select : SelectInput) (isAvailable : Bool),
      taken { select with isAvailable := isAvailable } = taken select) :
    ((input.settled left right autoGenerateSelection).leftSelect.filter taken).map
        SelectInput.newName =
      ((input.complete left.names right.names).leftSelect.filter taken).map
        SelectInput.newName := by
  obtain ⟨change, settled, _⟩ := settled_titles accepted autoGenerateSelection
  rw [settled, markAvailable, filter_map, map_map]
  congr 1
  apply filter_congr
  exact fun select _ => fixed select _

theorem settled_right_names {taken : SelectInput → Bool}
    (fixed : ∀ (select : SelectInput) (isAvailable : Bool) (newName : String),
      taken { select with isAvailable := isAvailable, newName := newName } = taken select)
    (kept : ∀ select, taken select = true → select.keep = true) :
    ((input.settled left right autoGenerateSelection).rightSelect.filter taken).map
        SelectInput.newName =
      ((input.complete left.names right.names).rightSelect.filter taken).map
        (titleAmong autoGenerateSelection (input.complete left.names right.names).leftKept) := by
  obtain ⟨change, settled, titles⟩ := settled_titles accepted autoGenerateSelection
  have rightSelect : (input.settled left right autoGenerateSelection).rightSelect =
      (markAvailable right.names (input.complete left.names right.names).rightSelect).map
        (retitle change) := congrArg JoinInput.rightSelect settled
  rw [rightSelect, markAvailable, map_map, filter_map, map_map]
  have same : (input.complete left.names right.names).rightSelect.filter
      (taken ∘ retitle change ∘ fun select =>
        { select with isAvailable := decide (select.oldName ∈ right.names) }) =
      (input.complete left.names right.names).rightSelect.filter taken := by
    apply filter_congr
    exact fun select _ => fixed select _ _
  rw [same]
  apply map_congr_left
  intro select mem
  obtain ⟨inComplete, takes⟩ := mem_filter.mp mem
  have isKept : select ∈ (input.complete left.names right.names).rightKept :=
    mem_filter.mpr ⟨inComplete, kept select takes⟩
  exact titles select.newName (mem_map_of_mem isKept)

theorem settled_left_keysLast :
    (keysLast (input.settled left right autoGenerateSelection).leftSelect).map
        SelectInput.newName =
      (keysLast (input.complete left.names right.names).leftSelect).map SelectInput.newName := by
  rw [keysLast, map_append, settled_left_names accepted fun _ _ => rfl,
    settled_left_names accepted fun _ _ => rfl, ← map_append]
  rfl

theorem settled_right_keysLast :
    (keysLast (input.settled left right autoGenerateSelection).rightSelect).map
        SelectInput.newName =
      (keysLast (input.complete left.names right.names).rightSelect).map
        (titleAmong autoGenerateSelection (input.complete left.names right.names).leftKept) := by
  rw [keysLast, map_append, settled_right_names accepted (fun _ _ _ => rfl),
    settled_right_names accepted (fun _ _ _ => rfl), ← map_append]
  · rfl
  · exact fun select flags => (Bool.and_eq_true_iff.mp flags).1
  · exact fun select flags => (Bool.and_eq_true_iff.mp flags).1

end

theorem keysLast_perm (selects : List SelectInput) :
    (keysLast selects).Perm (selects.filter SelectInput.keep) := by
  have others : selects.filter (fun select => select.keep && !select.joinKey) =
      (selects.filter SelectInput.keep).filter fun select => !select.joinKey := by
    rw [filter_filter]
    exact filter_congr fun select _ => Bool.and_comm _ _
  have keys : selects.filter (fun select => select.keep && select.joinKey) =
      (selects.filter SelectInput.keep).filter joinKey := by
    rw [filter_filter]
    exact filter_congr fun select _ => Bool.and_comm _ _
  rw [keysLast, others, keys]
  exact perm_append_comm.trans (filter_append_perm _ _)

theorem settled_selectCols (accepted : input.verifyMapIntegrity left right = true) (side : Side) :
    getSelectCols ((input.settled left right autoGenerateSelection).selects side) =
      getSelectCols ((input.complete left.names right.names).selects side) := by
  obtain ⟨change, settled, _⟩ := settled_titles accepted autoGenerateSelection
  rw [settled]
  cases side with
  | left =>
    simp only [JoinInput.selects, getSelectCols, markAvailable, filter_map, map_map]
    rfl
  | right =>
    simp only [JoinInput.selects, getSelectCols, markAvailable, filter_map, map_map]
    rfl

end

theorem orderBy_sublist (columns : List String) (selects : List SelectInput) :
    ((orderBy columns selects).map oldName).Sublist columns := by
  rw [orderBy]
  induction columns with
  | nil => exact List.Sublist.refl _
  | cons name rest ih =>
    rw [filterMap_cons]
    cases found : dictGet (selects.map fun select => (select.oldName, select)) name with
    | none => exact ih.cons name
    | some select =>
    obtain ⟨_, _, same⟩ := mem_map.mp (mem_of_dictGet found)
    obtain ⟨sameName, rfl⟩ := Prod.mk.inj same
    dsimp only
    rw [map_cons, sameName]
    exact ih.cons_cons name

theorem listed_side {columns : List String}
    (distinct : columns.Nodup) (oldDistinct : (getSelectCols selects).Nodup) :
    Listed (selects.filter SelectInput.keep)
      ((orderBy columns selects).filter SelectInput.keep) where
  subset := by
    intro select mem
    obtain ⟨inOrdered, keep⟩ := mem_filter.mp mem
    exact mem_filter.mpr ⟨(mem_orderBy inOrdered).1, keep⟩
  keptDistinct := by
    refine ((monotone_filter_right selects ?_).map oldName).nodup oldDistinct
    intro select keep
    simp [SelectInput.selected, keep]
  orderedDistinct :=
    ((filter_sublist.map oldName).trans (orderBy_sublist columns selects)).nodup distinct

/-- Columns with the keys behind the others. -/
def keysToEnd (keys names : List String) : List String :=
  (names.filter fun name => name ∉ keys) ++ names.filter fun name => name ∈ keys

/-- The columns of the executed join come in the order of the schemas: the kept columns are
listed in that order, those of the side whose keys are copied once the keys are put last.
A full join must keep all right keys, a right join may have columns of one side only. -/
def Foreseen (input : JoinInput) (leftCols rightCols : List String) : Prop :=
  let leftKept := keptColumns leftCols input.leftSelect
  let rightKept := keptColumns rightCols input.rightSelect
  match input.how with
  | .inner | .left =>
    leftKept = keptInOrder leftCols input.leftSelect ∧
      keysToEnd (input.keyColumns .right) rightKept = keptInOrder rightCols input.rightSelect
  | .right =>
    leftKept = [] ∧ rightKept = keptInOrder rightCols input.rightSelect ∨ rightKept = [] ∧
        keysToEnd (input.keyColumns .left) leftKept = keptInOrder leftCols input.leftSelect
  | .outer =>
    leftKept = keptInOrder leftCols input.leftSelect ∧
      rightKept = keptInOrder rightCols input.rightSelect
  | .full =>
    (leftKept = keptInOrder leftCols input.leftSelect ∧
      rightKept = keptInOrder rightCols input.rightSelect) ∧
      ∀ key ∈ input.keyColumns .right, key ∈ rightKept
  | .semi | .anti => leftKept = keptInOrder leftCols input.leftSelect

instance (input : JoinInput) (leftCols rightCols : List String) :
    Decidable (Foreseen input leftCols rightCols) := by
  unfold Foreseen
  dsimp only
  split <;> infer_instance

theorem Listed.eq_iff {kept ordered first second : List SelectInput} (listed : Listed kept ordered)
    (firstKept : ∀ select ∈ first, select ∈ kept) (secondKept : ∀ select ∈ second, select ∈ kept) :
    first = second ↔ first.map oldName = second.map oldName :=
  ⟨congrArg _, eq_of_titles listed.keptDistinct firstKept secondKept⟩

theorem keysLast_names {keys columns : List String} :
    (keysLast (completed keys columns selects)).map oldName =
      keysToEnd keys (keptColumns columns selects) := by
  rw [← kept_completed keys, keysToEnd, keysLast, map_append, filter_map,
    filter_map, filter_filter, filter_filter]
  congr 2
  · apply filter_congr
    intro select mem
    simp [completed_marked select mem, Bool.and_comm]
  · apply filter_congr
    intro select mem
    simp [completed_marked select mem, Bool.and_comm]

theorem left_names (leftCols rightCols : List String) (input : JoinInput) :
    let complete := input.complete leftCols rightCols
    complete.leftKept.map oldName = keptColumns leftCols input.leftSelect ∧
      (complete.orderBySchemas leftCols rightCols).leftKept.map oldName =
        keptInOrder leftCols input.leftSelect ∧
      (keysLast complete.leftSelect).map oldName =
        keysToEnd (input.keyColumns .left) (keptColumns leftCols input.leftSelect) := by
  dsimp only [JoinInput.leftKept, JoinInput.orderBySchemas]
  rw [complete_leftSelect]
  exact ⟨kept_completed _ _ _, kept_orderBy _ _ _, keysLast_names⟩

theorem right_names (leftCols rightCols : List String) {input : JoinInput}
    (combining : ¬ (input.how = .semi ∨ input.how = .anti)) :
    let complete := input.complete leftCols rightCols
    complete.rightKept.map oldName = keptColumns rightCols input.rightSelect ∧
      (complete.orderBySchemas leftCols rightCols).rightKept.map oldName =
        keptInOrder rightCols input.rightSelect ∧
      (keysLast complete.rightSelect).map oldName =
        keysToEnd (input.keyColumns .right) (keptColumns rightCols input.rightSelect) := by
  dsimp only [JoinInput.rightKept, JoinInput.orderBySchemas]
  rw [complete_rightSelect, if_neg combining]
  exact ⟨kept_completed _ _ _, kept_orderBy _ _ _, keysLast_names⟩

section

variable {input : JoinInput} {left right : TableSchema} {autoGenerateSelection : Bool}
  {columns : List String}

section

variable (ran : join input autoGenerateSelection left right = .ok columns)
include ran

/-- An executed join was accepted. -/
theorem join_ok : input.verifyMapIntegrity left right = true ∧
      joinTables (input.settled left right autoGenerateSelection) left.names right.names =
        .ok columns := by
  rw [join] at ran
  split at ran
  case isTrue accepted => exact ⟨accepted, ran⟩
  case isFalse => cases ran

theorem join_listed : let complete := input.complete left.names right.names
    let ordered := complete.orderBySchemas left.names right.names
    Listed complete.leftKept ordered.leftKept ∧ Listed complete.rightKept ordered.rightKept := by
  obtain ⟨accepted, ran⟩ := join_ok ran
  have sound := joinTables_sound (settled_prepared accepted autoGenerateSelection) ran
  constructor
  · apply listed_side left.distinct
    have oldDistinct := (sound .left).oldDistinct
    rwa [settled_selectCols accepted] at oldDistinct
  · apply listed_side right.distinct
    have oldDistinct := (sound .right).oldDistinct
    rwa [settled_selectCols accepted] at oldDistinct

theorem join_titles_distinct : let complete := input.complete left.names right.names
    (complete.leftKept.map SelectInput.newName).Nodup ∧ (complete.rightKept.map
        (titleAmong autoGenerateSelection complete.leftKept)).Nodup := by
  obtain ⟨accepted, ran⟩ := join_ok ran
  have sound := joinTables_sound (settled_prepared accepted autoGenerateSelection) ran
  have keptDistinct : ∀ side, (getNewCols
      ((input.settled left right autoGenerateSelection).selects side)).Nodup := by
    intro side
    refine ((monotone_filter_right _ ?_).map SelectInput.newName).nodup
      (sound side).newDistinct
    intro select keep
    simp [SelectInput.selected, keep]
  constructor
  · have distinct := keptDistinct .left
    rwa [getNewCols, JoinInput.selects, settled_left_names accepted fun _ _ => rfl] at distinct
  · have distinct := keptDistinct .right
    rwa [getNewCols, JoinInput.selects,
      settled_right_names accepted (fun _ _ _ => rfl) fun _ keep => keep] at distinct

theorem right_keys_kept_iff (combining : ¬ (input.how = .semi ∨ input.how = .anti)) :
    (∀ select ∈ (input.complete left.names right.names).rightSelect,
        select.joinKey = true → select.keep = true) ↔
      ∀ key ∈ input.keyColumns .right, key ∈ keptColumns right.names input.rightSelect := by
  obtain ⟨accepted, executed⟩ := join_ok ran
  have sound := joinTables_sound (settled_prepared accepted autoGenerateSelection) executed
  have oldDistinct := (sound .right).oldDistinct
  rw [settled_selectCols accepted] at oldDistinct
  obtain ⟨rightNames, _, _⟩ := right_names left.names right.names combining
  have mapping := (complete_rest left.names right.names input).2
  rw [← rightNames]
  constructor
  · intro kept key isKey
    obtain ⟨pair, mem, rfl⟩ := mem_map.mp isKey
    obtain ⟨select, inComplete, same⟩ := mem_map.mp
      (@mem_complete_right left.names right.names input _ (accepted_keys accepted mem).2)
    have marked : select.joinKey = true := by
      rw [complete_rightMarked select inComplete, same, mapping]
      exact decide_eq_true isKey
    rw [← same]
    exact mem_map_of_mem (mem_filter.mpr ⟨inComplete, kept select inComplete marked⟩)
  · intro kept select inComplete key
    have isKey : select.oldName ∈ input.keyColumns .right := by
      have marked := complete_rightMarked select inComplete
      rw [key, mapping] at marked
      exact of_decide_eq_true marked.symm
    obtain ⟨other, isKept, same⟩ := mem_map.mp (kept _ isKey)
    obtain ⟨otherComplete, otherKeep⟩ := mem_filter.mp isKept
    have equal := eq_of_name oldDistinct
      (mem_filter.mpr ⟨otherComplete, by simp [SelectInput.selected, otherKeep]⟩)
      (mem_filter.mpr ⟨inComplete, by simp [SelectInput.selected, key]⟩) same
    rwa [← equal]

end

theorem full_right_names (accepted : input.verifyMapIntegrity left right = true)
    (kept : ∀ select ∈ (input.complete left.names right.names).rightSelect,
      select.joinKey = true → select.keep = true) :
    ((input.settled left right autoGenerateSelection).own .right).map Slot.finalName =
      (input.complete left.names right.names).rightKept.map
        (titleAmong autoGenerateSelection (input.complete left.names right.names).leftKept) := by
  have settledKept : ∀ select ∈ (input.settled left right autoGenerateSelection).rightSelect,
      select.joinKey = true → select.keep = true := by
    obtain ⟨change, settled, _⟩ := settled_titles accepted autoGenerateSelection
    rw [settled]
    intro select mem key
    obtain ⟨available, inAvailable, rfl⟩ := mem_map.mp mem
    obtain ⟨listed, inComplete, rfl⟩ := mem_map.mp inAvailable
    exact kept listed inComplete key
  have selected : (input.settled left right autoGenerateSelection).rightSelect.filter
      SelectInput.selected =
        (input.settled left right autoGenerateSelection).rightSelect.filter SelectInput.keep := by
    apply filter_congr
    intro select mem
    cases key : select.joinKey with
    | false => simp [SelectInput.selected, key]
    | true => simp [SelectInput.selected, settledKept select mem key]
  have names : ((input.settled left right autoGenerateSelection).own .right).map Slot.finalName =
      ((input.settled left right autoGenerateSelection).rightSelect.filter
        SelectInput.keep).map SelectInput.newName := by
    rw [JoinInput.own, JoinInput.selects, selected, map_map]
    apply map_congr_left
    intro select mem
    simp [Slot.finalName, (mem_filter.mp mem).2]
  rw [names, settled_right_names accepted (fun _ _ _ => rfl) fun _ keep => keep]
  rfl

theorem full_kept_of_length (accepted : input.verifyMapIntegrity left right = true)
    (few : ((input.settled left right autoGenerateSelection).own .right).length ≤
      (input.complete left.names right.names).rightKept.length) :
    ∀ select ∈ (input.complete left.names right.names).rightSelect,
      select.joinKey = true → select.keep = true := by
  have selected := congrArg List.length
    (@settled_selectCols input left right autoGenerateSelection accepted .right)
  simp only [getSelectCols, length_map] at selected
  rw [JoinInput.own, length_map, selected] at few
  have same : (input.complete left.names right.names).rightKept =
      (input.complete left.names right.names).rightSelect.filter SelectInput.selected := by
    refine (monotone_filter_right _ ?_).eq_of_length_le few
    intro select keep
    simp [SelectInput.selected, keep]
  intro select mem key
  have isKept : select ∈ (input.complete left.names right.names).rightKept := by
    rw [same]
    exact mem_filter.mpr ⟨mem, by simp [SelectInput.selected, key]⟩
  exact (mem_filter.mp isKept).2

theorem agrees_iff (ran : join input autoGenerateSelection left right = .ok columns)
    (fresh : ∀ side, input.how.copiedSide = some side →
      ¬ Overwrites ((input.settled left right autoGenerateSelection).selects side)) :
    (calculateJoinSchema input left right autoGenerateSelection).map columnName =
      columns ↔ Foreseen input left.names right.names := by
  obtain ⟨accepted, executed⟩ := join_ok ran
  obtain ⟨leftListed, rightListed⟩ := join_listed ran
  obtain ⟨leftDistinct, rightDistinct⟩ := join_titles_distinct ran
  obtain ⟨leftNames, leftOrdered, leftLast⟩ := left_names left.names right.names input
  obtain ⟨change, settled, _⟩ := settled_titles accepted autoGenerateSelection
  have how : (input.settled left right autoGenerateSelection).how = input.how := by
    rw [settled]
    exact (complete_rest left.names right.names input).1
  obtain ⟨outcome, distinct⟩ := joinTables_outcome
    (settled_prepared accepted autoGenerateSelection) executed (by rwa [how])
  rw [calculateJoinSchema_names accepted, outcome]
  rw [outcome] at distinct
  have leftTitles : getNewCols (input.settled left right autoGenerateSelection).leftSelect =
      (input.complete left.names right.names).leftKept.map SelectInput.newName :=
    settled_left_names accepted fun _ _ => rfl
  have rightTitles : getNewCols (input.settled left right autoGenerateSelection).rightSelect =
      (input.complete left.names right.names).rightKept.map
        (titleAmong autoGenerateSelection (input.complete left.names right.names).leftKept) :=
    settled_right_names accepted (fun _ _ _ => rfl) fun _ keep => keep
  have leftEq := leftListed.eq_iff (fun _ mem => mem) leftListed.subset
  rw [leftNames, leftOrdered] at leftEq
  dsimp only
  cases strategy : input.how with
  | inner | left =>
    obtain ⟨_, rightOrdered, rightLast⟩ := @right_names left.names right.names input
      (by simp [strategy])
    have perm := keysLast_perm (input.complete left.names right.names).rightSelect
    have rightEq := rightListed.eq_iff (fun _ mem => perm.mem_iff.mp mem)
      rightListed.subset
    rw [rightLast, rightOrdered] at rightEq
    rw [JoinInput.outcome, how, strategy]
    dsimp only
    rw [leftTitles, settled_right_keysLast accepted,
      left_first_iff leftListed rightListed leftDistinct rightDistinct perm, leftEq, rightEq,
      Foreseen, strategy]
  | right =>
    obtain ⟨rightNames, rightOrdered, _⟩ := @right_names left.names right.names input
      (by simp [strategy])
    have perm := keysLast_perm (input.complete left.names right.names).leftSelect
    have rightEq := rightListed.eq_iff (fun _ mem => mem) rightListed.subset
    rw [rightNames, rightOrdered] at rightEq
    have lastEq := leftListed.eq_iff (fun _ mem => perm.mem_iff.mp mem) leftListed.subset
    rw [leftLast, leftOrdered] at lastEq
    rw [JoinInput.outcome, how, strategy] at distinct ⊢
    dsimp only at distinct ⊢
    rw [rightTitles, settled_left_keysLast accepted] at distinct ⊢
    rw [right_first_iff leftListed rightListed perm distinct, rightEq, lastEq, Foreseen, strategy,
      ← leftNames, ← rightNames, map_eq_nil_iff, map_eq_nil_iff]
  | outer =>
    obtain ⟨rightNames, rightOrdered, _⟩ := @right_names left.names right.names input
      (by simp [strategy])
    have rightEq := rightListed.eq_iff (fun _ mem => mem) rightListed.subset
    rw [rightNames, rightOrdered] at rightEq
    rw [JoinInput.outcome, how, strategy]
    dsimp only
    rw [leftTitles, rightTitles, left_first_iff leftListed rightListed leftDistinct rightDistinct
      (List.Perm.refl _), leftEq, rightEq, Foreseen, strategy]
  | full =>
    have combining : ¬ (input.how = .semi ∨ input.how = .anti) := by simp [strategy]
    obtain ⟨rightNames, rightOrdered, _⟩ := right_names left.names right.names combining
    have rightEq := rightListed.eq_iff (fun _ mem => mem) rightListed.subset
    rw [rightNames, rightOrdered] at rightEq
    have keysKept := right_keys_kept_iff ran combining
    have sides := left_first_iff leftListed rightListed leftDistinct rightDistinct
      (List.Perm.refl _)
    rw [JoinInput.outcome, how, strategy]
    dsimp only
    rw [leftTitles, Foreseen, strategy]
    dsimp only
    rw [← leftEq, ← rightEq, ← keysKept, ← sides]
    constructor
    · intro same
      have lengths := congrArg List.length same
      simp only [length_append, length_map] at lengths
      have leftShorter := leftListed.length_le
      have rightShorter := rightListed.length_le
      have kept := @full_kept_of_length input left right autoGenerateSelection accepted
        (by omega)
      rw [full_right_names accepted kept] at same
      exact ⟨same, kept⟩
    · rintro ⟨same, kept⟩
      rw [full_right_names accepted kept]
      exact same
  | semi | anti =>
    have unselected := @complete_unselected left.names right.names input
      (by simp [strategy])
    have noRight : (input.complete left.names right.names).rightKept = [] := by
      rw [JoinInput.rightKept, filter_eq_nil_iff]
      intro select mem
      simp [unselected select mem]
    have noOrdered : ((input.complete left.names right.names).orderBySchemas left.names
        right.names).rightKept = [] :=
      eq_nil_iff_forall_not_mem.mpr fun select mem => by
        have kept := rightListed.subset select mem
        simp [noRight] at kept
    have sides := left_first_iff leftListed rightListed leftDistinct rightDistinct
      (List.Perm.refl _)
    rw [noRight, noOrdered] at sides
    rw [JoinInput.outcome, how, strategy]
    dsimp only
    rw [leftTitles, noOrdered, Foreseen, strategy]
    simpa [leftEq] using sides

end

theorem completed_distinct {keys columns : List String}
    (distinct : columns.Nodup) (once : (selects.map oldName).Nodup) :
    ((completed keys columns selects).map oldName).Nodup := by
  have names : (completed keys columns selects).map oldName = selects.map oldName ++
        columns.filter fun name => name ∉ selects.map oldName := by
    rw [completed, markKeys, withMissing, map_map, map_append, map_map]
    congr 1
    exact map_id _
  rw [names]
  refine once.append (filter_sublist.nodup distinct) ?_
  intro name listed missing
  obtain ⟨_, unlisted⟩ := mem_filter.mp missing
  exact absurd listed (by simpa using unlisted)

theorem ordered_length {columns : List String} (once : (selects.map oldName).Nodup)
    (exist : ∀ select ∈ selects, select.keep = true → select.oldName ∈ columns) :
    (selects.filter SelectInput.keep).length ≤
      ((orderBy columns selects).filter SelectInput.keep).length := by
  have distinct : (selects.filter SelectInput.keep).Nodup :=
    (filter_sublist.map oldName).nodup once |>.of_map
  apply (distinct.subperm _).length_le
  intro select mem
  obtain ⟨listed, keep⟩ := mem_filter.mp mem
  refine mem_filter.mpr ⟨mem_filterMap.mpr ⟨_, exist select listed keep, ?_⟩, keep⟩
  apply dictGet_of_mem
  · intro other inTable
    obtain ⟨owner, ownerListed, same⟩ := mem_map.mp inTable
    obtain ⟨sameName, rfl⟩ := Prod.mk.inj same
    exact eq_of_name once ownerListed listed sameName
  · exact mem_map_of_mem listed

theorem joinTables_exist {input : JoinInput} {self other columns : List String}
    (ran : joinTables input self other = .ok columns) :
    (∀ name ∈ getSelectCols input.leftSelect, name ∈ self) ∧
      ∀ name ∈ getSelectCols input.rightSelect, name ∈ other := by
  simp only [joinTables, bind_ok, onFrame_ok] at ran
  obtain ⟨_, leftSelecting, _, _, _, rightSelecting, _⟩ := ran
  exact ⟨(selectColumns_ok.mp leftSelecting).1, (selectColumns_ok.mp rightSelecting).1⟩

/-- No column is listed twice. -/
def ListedOnce (input : JoinInput) : Prop :=
  (input.leftSelect.map oldName).Nodup ∧ (input.rightSelect.map oldName).Nodup

def CopyOverwrites (input : JoinInput) (left right : TableSchema)
    (autoGenerateSelection : Bool) : Prop :=
  ∃ side, input.how.copiedSide = some side ∧
    Overwrites ((input.settled left right autoGenerateSelection).selects side)

theorem overwritten_disagrees {input : JoinInput} {left right : TableSchema}
    {autoGenerateSelection : Bool} {columns : List String}
    (ran : join input autoGenerateSelection left right = .ok columns) (once : ListedOnce input)
    (overwrites : CopyOverwrites input left right autoGenerateSelection) :
    (calculateJoinSchema input left right autoGenerateSelection).map columnName ≠ columns := by
  intro same
  obtain ⟨side, copies, clash⟩ := overwrites
  obtain ⟨accepted, executed⟩ := join_ok ran
  have combining : ¬ (input.how = .semi ∨ input.how = .anti) := by
    rintro (how | how) <;> · rw [how] at copies; cases copies
  obtain ⟨change, settled, _⟩ := settled_titles accepted autoGenerateSelection
  have how : (input.settled left right autoGenerateSelection).how = input.how := by
    rw [settled]
    exact (complete_rest left.names right.names input).1
  have fewer := joinTables_length_lt (settled_prepared accepted autoGenerateSelection) executed
    (by rwa [how]) clash
  have leftTitles := congrArg List.length
    (@settled_left_names input left right autoGenerateSelection accepted SelectInput.keep
      fun _ _ => rfl)
  have rightTitles := congrArg List.length
    (@settled_right_names input left right autoGenerateSelection accepted SelectInput.keep
      (fun _ _ _ => rfl) fun _ keep => keep)
  obtain ⟨leftExist, rightExist⟩ := joinTables_exist executed
  have leftCols := @settled_selectCols input left right autoGenerateSelection accepted .left
  have rightCols := @settled_selectCols input left right autoGenerateSelection accepted .right
  simp only [JoinInput.selects] at leftCols rightCols
  rw [leftCols] at leftExist
  rw [rightCols] at rightExist
  have leftAll : (input.complete left.names right.names).leftKept.length ≤
      ((input.complete left.names right.names).orderBySchemas left.names
        right.names).leftKept.length := by
    apply ordered_length
    · rw [complete_leftSelect]
      exact completed_distinct left.distinct once.1
    · intro select mem keep
      apply leftExist
      exact mem_map_of_mem
        (mem_filter.mpr ⟨mem, by simp [SelectInput.selected, keep]⟩)
  have rightAll : (input.complete left.names right.names).rightKept.length ≤
      ((input.complete left.names right.names).orderBySchemas left.names
        right.names).rightKept.length := by
    apply ordered_length
    · rw [complete_rightSelect, if_neg combining]
      exact completed_distinct right.distinct once.2
    · intro select mem keep
      apply rightExist
      exact mem_map_of_mem
        (mem_filter.mpr ⟨mem, by simp [SelectInput.selected, keep]⟩)
  rw [calculateJoinSchema_names accepted] at same
  have lengths := congrArg List.length same
  simp only [length_append, length_map] at lengths leftTitles
  simp only [length_map, getNewCols] at rightTitles fewer
  simp only [JoinInput.leftKept, JoinInput.rightKept] at lengths leftAll rightAll
  omega

/-- Prediction and execution agree when no copied key overwrites a column and the execution
lists the columns in the order of the schemas. They agree in no other case, except perhaps when
a column is overwritten and some column is listed twice. -/
theorem calculateJoinSchema_agrees {input : JoinInput} {left right : TableSchema}
    {autoGenerateSelection : Bool} {columns : List String}
    (ran : join input autoGenerateSelection left right = .ok columns) :
    (¬ CopyOverwrites input left right autoGenerateSelection ∧
        Foreseen input left.names right.names →
      (calculateJoinSchema input left right autoGenerateSelection).map columnName = columns) ∧
    ((calculateJoinSchema input left right autoGenerateSelection).map columnName = columns →
      ListedOnce input ∨ ¬ CopyOverwrites input left right autoGenerateSelection →
        ¬ CopyOverwrites input left right autoGenerateSelection ∧
          Foreseen input left.names right.names) := by
  constructor
  · rintro ⟨clear, foreseen⟩
    exact (agrees_iff ran fun side copies clash => clear ⟨side, copies, clash⟩).mpr foreseen
  · intro same plain
    have clear : ¬ CopyOverwrites input left right autoGenerateSelection := by
      rcases plain with once | clear
      · exact fun overwrites => overwritten_disagrees ran once overwrites same
      · exact clear
    exact ⟨clear, (agrees_iff ran fun side copies clash => clear ⟨side, copies, clash⟩).mp same⟩

def customers : TableSchema :=
  ⟨[⟨"id", "Int64"⟩, ⟨"name", "String"⟩], by decide⟩

def orders : TableSchema :=
  ⟨[⟨"id", "Int64"⟩, ⟨"amount", "Int64"⟩], by decide⟩

def plainJoin : JoinInput :=
  ⟨[⟨"id", "id"⟩], [], [], .inner⟩

def keyDroppingJoin : JoinInput :=
  { plainJoin with rightSelect := [⟨"id", "id", true, true, false⟩] }

/-- The prediction is right when the right key is not kept. -/
theorem keyDroppingJoin_predicted :
    (calculateJoinSchema keyDroppingJoin customers orders true).map columnName =
      ["id", "name", "amount"] := by
  have ran : join keyDroppingJoin true customers orders = .ok ["id", "name", "amount"] := by
    decide +kernel
  apply (calculateJoinSchema_agrees ran).1
  constructor
  · rintro ⟨side, copies, clash⟩
    cases copies
    revert clash
    decide +kernel
  · decide +kernel

/-- A kept right key is executed as the last column and predicted in its place. -/
theorem plainJoin_differs :
    join plainJoin true customers orders = .ok ["id", "name", "amount", "id_right"] ∧
      (calculateJoinSchema plainJoin customers orders true).map columnName =
        ["id", "name", "id_right", "amount"] := by
  decide +kernel

end Flowfile.Join
