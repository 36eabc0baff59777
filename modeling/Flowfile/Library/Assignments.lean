import Flowfile.Library.TracedFrames
import Mathlib.Data.List.Induction

/-!
# Assignments to columns, at once and one after the other

An assignment computes a column from a table, or fails, and puts it into the table under a name: in
the place of the column of that name, or behind the others. A list of assignments is made at once,
every column being computed from the same table, or one after the other. Both ways give the same
table exactly when no column changes because those before it were put in place. This is so where no
assignment reads the target of an earlier one.
-/

namespace Flowfile.Library.Assignments

open ColumnFrames TracedFrames List
open Option (bind_eq_bind bind_eq_some_iff map_eq_some_iff)

variable {ν α : Type} [DecidableEq ν]

def assign (table : Table ν α) (name : ν) (value : α) : Table ν α :=
  if name ∈ names table then
    table.map fun column => if column.1 = name then (name, value) else column
  else table ++ [(name, value)]

/-- An assignment: a name, how its column is computed, and the columns that this depends on. -/
structure Assignment (ν α : Type) [DecidableEq ν] where
  target : ν
  value : Table ν α → Option α
  reads : List ν
  readsOnly : ∀ first second : Table ν α,
    (∀ name ∈ reads, dictGet first name = dictGet second name) → value first = value second

def evaluate (table : Table ν α) (assignments : List (Assignment ν α)) : Option (Table ν α) :=
  assignments.mapM fun assignment => (assignment.value table).map fun value =>
    (assignment.target, value)

def assignAll (table columns : Table ν α) : Table ν α :=
  columns.foldl (fun table column => assign table column.1 column.2) table

def atOnce (assignments : List (Assignment ν α)) (table : Table ν α) : Option (Table ν α) :=
  (evaluate table assignments).map (assignAll table)

def oneByOne (assignments : List (Assignment ν α)) (table : Table ν α) : Option (Table ν α) :=
  assignments.foldlM (fun table assignment => (assignment.value table).map
    (assign table assignment.target)) table

/-- Each column is the same when those before it have been put in place. -/
def Undisturbed (assignments : List (Assignment ν α)) (table : Table ν α) : Prop :=
  ∀ before assignment after, assignments = before ++ assignment :: after →
    ∀ result, atOnce before table = some result → assignment.value result = assignment.value table

variable {columns : Table ν α}

section

variable {table other : Table ν α} {name wanted : ν} {value : α}

theorem lookup_replace (columns : Table ν α) :
    (columns.map fun column => if column.1 = name then (name, value) else column).lookup wanted =
      if wanted = name then (columns.lookup name).map fun _ => value
      else columns.lookup wanted := by
  induction columns with
  | nil => simp
  | cons column rest ih =>
    obtain ⟨title, stored⟩ := column
    by_cases replaced : title = name
    · subst replaced
      by_cases same : wanted = title
      · subst same
        simp
      · have apart : (wanted == title) = false := by simpa using same
        simp [lookup_cons, apart, ih, same]
    · have kept : (name == title) = false := by simpa using Ne.symm replaced
      by_cases same : wanted = title
      · subst same
        simp [replaced]
      · have apart : (wanted == title) = false := by simpa using same
        simp [lookup_cons, apart, kept, ih, replaced]

theorem dictGet_assign : dictGet (assign table name value) wanted =
      if wanted = name then some value else dictGet table wanted := by
  rw [assign]
  split
  case isTrue present =>
    obtain ⟨stored, found⟩ := dictGet_names present
    rw [dictGet] at found
    rw [dictGet, ← map_reverse, lookup_replace, found]
    rfl
  case isFalse absent =>
    rw [dictGet_append]
    by_cases same : wanted = name
    · subst same
      simp [dictGet]
    · have apart : (wanted == name) = false := by simpa using same
      simp [dictGet, lookup_cons, apart, same]

theorem dictGet_assignAll_other (absent : wanted ∉ names columns) :
    dictGet (assignAll table columns) wanted = dictGet table wanted := by
  induction columns generalizing table with
  | nil => rfl
  | cons column rest ih =>
    have notFirst : wanted ≠ column.1 := by
      rintro rfl
      exact absent mem_cons_self
    have notRest : wanted ∉ names rest := fun mem => absent (mem_cons_of_mem _ mem)
    exact (ih notRest).trans (by rw [dictGet_assign, if_neg notFirst])

theorem names_assign : names (assign table name value) =
      if name ∈ names table then names table else names table ++ [name] := by
  rw [assign]
  split
  · rw [names, map_map]
    apply map_congr_left
    intro column _
    by_cases same : column.1 = name
    · simp [same]
    · simp [same]
  · simp [names]

theorem assign_perm (same : table.Perm other) :
    (assign table name value).Perm (assign other name value) := by
  have present : name ∈ names table ↔ name ∈ names other := (same.map Prod.fst).mem_iff
  rw [assign, assign]
  split
  case isTrue isColumn =>
    rw [if_pos (present.mp isColumn)]
    exact same.map _
  case isFalse noColumn =>
    rw [if_neg fun isColumn => noColumn (present.mpr isColumn)]
    exact same.append_right _

/-- Assignments to different names commute. -/
theorem assign_comm {second : ν} {secondValue : α} (distinct : name ≠ second) :
    (assign (assign table name value) second secondValue).Perm
      (assign (assign table second secondValue) name value) := by
  have replaced : ∀ columns : Table ν α,
      (columns.map fun column => if column.1 = name then (name, value) else column).map
        (fun column => if column.1 = second then (second, secondValue) else column) =
      (columns.map fun column => if column.1 = second then (second, secondValue) else column).map
        fun column => if column.1 = name then (name, value) else column := by
    intro columns
    rw [map_map, map_map]
    apply map_congr_left
    intro column _
    by_cases isFirst : column.1 = name
    · simp [isFirst, distinct]
    · by_cases isSecond : column.1 = second
      · simp [isSecond, Ne.symm distinct]
      · simp [isFirst, isSecond]
  have firstNames := @names_assign _ _ _ table name value
  have secondNames := @names_assign _ _ _ table second secondValue
  have firstMember : second ∈ names (assign table name value) ↔ second ∈ names table := by
    rw [firstNames]
    split <;> simp [Ne.symm distinct]
  have secondMember : name ∈ names (assign table second secondValue) ↔ name ∈ names table := by
    rw [secondNames]
    split <;> simp [distinct]
  by_cases hasFirst : name ∈ names table
  · by_cases hasSecond : second ∈ names table
    · rw [assign, if_pos (firstMember.mpr hasSecond), assign, if_pos hasFirst, assign,
        if_pos (secondMember.mpr hasFirst), assign, if_pos hasSecond, replaced]
    · rw [assign, if_neg (fun has => hasSecond (firstMember.mp has)), assign, if_pos hasFirst,
        assign, if_pos (secondMember.mpr hasFirst), assign, if_neg hasSecond]
      simp [Ne.symm distinct]
  · by_cases hasSecond : second ∈ names table
    · rw [assign, if_pos (firstMember.mpr hasSecond), assign, if_neg hasFirst, assign,
        if_neg (fun has => hasFirst (secondMember.mp has)), assign, if_pos hasSecond]
      simp [distinct]
    · rw [assign, if_neg (fun has => hasSecond (firstMember.mp has)), assign, if_neg hasFirst,
        assign, if_neg (fun has => hasFirst (secondMember.mp has)), assign, if_neg hasSecond,
        append_assoc, append_assoc]
      exact (List.Perm.swap _ _ []).append_left table

/-- Columns may be put in place in any order. -/
theorem assignAll_perm {others : Table ν α} (same : columns.Perm others)
    (distinct : (names columns).Nodup) (tables : table.Perm other) :
    (assignAll table columns).Perm (assignAll other others) := by
  induction same generalizing table other with
  | nil => exact tables
  | cons column _ ih =>
    exact ih (nodup_cons.mp distinct).2 (assign_perm tables)
  | swap first second rest =>
    have apart : second.1 ≠ first.1 := by
      rintro named
      apply (nodup_cons.mp distinct).1
      simp [named]
    have start : (assign (assign table second.1 second.2) first.1 first.2).Perm
        (assign (assign other first.1 first.2) second.1 second.2) :=
      (assign_perm (assign_perm tables)).trans (assign_comm apart)
    have onward : ∀ (columns : Table ν α) {table other : Table ν α}, table.Perm other →
        (assignAll table columns).Perm (assignAll other columns) := by
      intro columns
      induction columns with
      | nil => exact fun same => same
      | cons column _ hypothesis => exact fun same => hypothesis (assign_perm same)
    exact onward rest start
  | trans first _ firstHypothesis secondHypothesis =>
    have nodup := (first.map Prod.fst).nodup_iff.mp distinct
    exact (firstHypothesis distinct tables).trans (secondHypothesis nodup (List.Perm.refl other))

end

section

variable {table result : Table ν α} {before after assignments : List (Assignment ν α)}
  {assignment : Assignment ν α}

/-- One more assignment, made after the others. -/
theorem oneByOne_concat :
    oneByOne (before ++ [assignment]) table = (oneByOne before table).bind fun earlier =>
      (assignment.value earlier).map (assign earlier assignment.target) := by
  simp only [oneByOne, foldlM_append, foldlM_cons, foldlM_nil, bind_pure]
  rfl

theorem atOnce_concat :
    atOnce (before ++ [assignment]) table = (atOnce before table).bind fun earlier =>
      (assignment.value table).map (assign earlier assignment.target) := by
  rw [atOnce, atOnce, evaluate, mapM_append, evaluate]
  cases before.mapM (fun assignment => (assignment.value table).map fun value =>
    (assignment.target, value)) with
  | none => rfl
  | some columns =>
    cases computed : assignment.value table with
    | none => simp [computed]
    | some value => simp [computed, assignAll, foldl_append]

theorem Undisturbed.initial (undisturbed : Undisturbed (before ++ after) table) :
    Undisturbed before table := by
  intro first assignment rest split
  exact undisturbed first assignment (rest ++ after) (by simp [split])

theorem Undisturbed.same (undisturbed : Undisturbed assignments table) :
    oneByOne assignments table = atOnce assignments table := by
  induction assignments using List.reverseRecOn with
  | nil => rfl
  | append_singleton before last ih =>
    rw [oneByOne_concat, atOnce_concat, ih undisturbed.initial]
    cases earlier : atOnce before table with
    | none => rfl
    | some result =>
      have computed := undisturbed before last [] rfl result earlier
      simp [computed]

/-- Computing columns in two parts. -/
theorem evaluate_append (evaluated : evaluate table (before ++ after) = some columns) :
    ∃ first second, evaluate table before = some first ∧ evaluate table after = some second ∧
      columns = first ++ second := by
  rw [evaluate, mapM_append, bind_eq_bind, bind_eq_some_iff] at evaluated
  obtain ⟨first, isFirst, rest⟩ := evaluated
  obtain ⟨second, isSecond, whole⟩ := bind_eq_some_iff.mp rest
  exact ⟨first, second, isFirst, isSecond, (Option.some.inj whole).symm⟩

/-- Computing a column and others. -/
theorem evaluate_cons (evaluated : evaluate table (assignment :: after) = some columns) :
    ∃ value rest, assignment.value table = some value ∧ evaluate table after = some rest ∧
      columns = (assignment.target, value) :: rest := by
  rw [evaluate, mapM_cons, bind_eq_bind, bind_eq_some_iff] at evaluated
  obtain ⟨first, isFirst, rest⟩ := evaluated
  obtain ⟨value, computed, rfl⟩ := map_eq_some_iff.mp isFirst
  obtain ⟨others, isOthers, whole⟩ := bind_eq_some_iff.mp rest
  exact ⟨value, others, computed, isOthers, (Option.some.inj whole).symm⟩

theorem names_evaluate (evaluated : evaluate table after = some columns) :
    names columns = after.map Assignment.target := by
  induction after generalizing columns with
  | nil =>
    cases evaluated
    rfl
  | cons assignment rest ih =>
    obtain ⟨value, others, _, isOthers, rfl⟩ := evaluate_cons evaluated
    exact congrArg (assignment.target :: ·) (ih isOthers)

theorem oneByOne_other {wanted : ν} (absent : wanted ∉ after.map Assignment.target)
    (made : oneByOne after table = some result) :
    dictGet result wanted = dictGet table wanted := by
  induction after generalizing table with
  | nil =>
    cases made
    rfl
  | cons assignment rest ih =>
    rw [oneByOne, foldlM_cons, bind_eq_bind, bind_eq_some_iff] at made
    obtain ⟨next, isNext, onward⟩ := made
    obtain ⟨value, _, rfl⟩ := map_eq_some_iff.mp isNext
    have notFirst : wanted ≠ assignment.target := by
      rintro rfl
      exact absent mem_cons_self
    have notRest : wanted ∉ rest.map Assignment.target :=
      fun mem => absent (mem_cons_of_mem _ mem)
    exact (ih notRest onward).trans (by rw [dictGet_assign, if_neg notFirst])

theorem oneByOne_column (unique : assignment.target ∉ after.map Assignment.target)
    (made : oneByOne (assignment :: after) table = some result) :
    dictGet result assignment.target = assignment.value table := by
  rw [oneByOne, foldlM_cons, bind_eq_bind, bind_eq_some_iff] at made
  obtain ⟨next, isNext, onward⟩ := made
  obtain ⟨value, computed, rfl⟩ := map_eq_some_iff.mp isNext
  rw [oneByOne_other unique onward, dictGet_assign, if_pos rfl, computed]

theorem atOnce_column (unique : assignment.target ∉ after.map Assignment.target)
    (made : atOnce (before ++ assignment :: after) table = some result) :
    dictGet result assignment.target = assignment.value table := by
  obtain ⟨columns, evaluated, rfl⟩ := map_eq_some_iff.mp made
  obtain ⟨first, second, _, isSecond, rfl⟩ := evaluate_append evaluated
  obtain ⟨value, rest, computed, isRest, rfl⟩ := evaluate_cons isSecond
  have absent : assignment.target ∉ names rest := by
    rw [names_evaluate isRest]
    exact unique
  have split : assignAll table (first ++ (assignment.target, value) :: rest) =
      assignAll (assign (assignAll table first) assignment.target value) rest := by
    simp [assignAll, foldl_append]
  rw [split, dictGet_assignAll_other absent, dictGet_assign, if_pos rfl, computed]

/-- One after the other in two parts. -/
theorem oneByOne_append :
    oneByOne (before ++ after) table = (oneByOne before table).bind (oneByOne after) := by
  rw [oneByOne, foldlM_append]
  rfl

theorem oneByOne_iff (distinct : (assignments.map Assignment.target).Nodup)
    (made : atOnce assignments table = some result) :
    oneByOne assignments table = some result ↔ Undisturbed assignments table := by
  constructor
  · intro stepwise
    -- a column is not touched again, so that the results agree on what each assignment computed
    have computed : ∀ before assignment after, assignments = before ++ assignment :: after →
        ∀ earlier, oneByOne before table = some earlier →
          assignment.value earlier = assignment.value table := by
      rintro before assignment after rfl earlier reached
      rw [map_append, map_cons, nodup_append] at distinct
      have unique := (nodup_cons.mp distinct.2.1).1
      rw [oneByOne_append, reached, Option.bind_some] at stepwise
      rw [← oneByOne_column unique stepwise, atOnce_column unique made]
    have same : ∀ before after, assignments = before ++ after →
        oneByOne before table = atOnce before table := by
      intro before
      induction before using List.reverseRecOn with
      | nil => exact fun _ _ => rfl
      | append_singleton before last ih =>
        intro after split
        have longer : assignments = before ++ last :: after := by rw [split]; simp
        have earlierSame := ih (last :: after) longer
        rw [oneByOne_concat, atOnce_concat, earlierSame]
        cases earlier : atOnce before table with
        | none => rfl
        | some reached =>
          have sameValue := computed before last after longer reached (earlierSame.trans earlier)
          simp [sameValue]
    intro before assignment after split reached isReached
    exact computed before assignment after split reached
      ((same before (assignment :: after) split).trans isReached)
  · intro undisturbed
    rw [undisturbed.same, made]

theorem undisturbed_of_apart
    (apart : assignments.Pairwise fun earlier later => earlier.target ∉ later.reads) :
    Undisturbed assignments table := by
  rintro before assignment after rfl reached isReached
  apply assignment.readsOnly
  intro name isRead
  obtain ⟨columns, evaluated, rfl⟩ := map_eq_some_iff.mp isReached
  apply dictGet_assignAll_other
  rw [names_evaluate evaluated]
  intro isTarget
  obtain ⟨earlier, isEarlier, rfl⟩ := mem_map.mp isTarget
  exact (pairwise_append.mp apart).2.2 earlier isEarlier assignment mem_cons_self isRead

theorem atOnce_perm {others : List (Assignment ν α)} (same : assignments.Perm others)
    (distinct : (assignments.map Assignment.target).Nodup)
    (made : atOnce assignments table = some result) :
    ∃ otherResult, atOnce others table = some otherResult ∧ otherResult.Perm result := by
  obtain ⟨columns, evaluated, rfl⟩ := map_eq_some_iff.mp made
  have reordered : ∃ otherColumns, evaluate table others = some otherColumns ∧
      columns.Perm otherColumns := by
    clear made distinct
    induction same generalizing columns with
    | nil => exact ⟨columns, evaluated, List.Perm.refl columns⟩
    | cons assignment _ ih =>
      obtain ⟨value, rest, computed, isRest, rfl⟩ := evaluate_cons evaluated
      obtain ⟨otherRest, isOther, permuted⟩ := ih rest isRest
      refine ⟨(assignment.target, value) :: otherRest, ?_, permuted.cons _⟩
      rw [evaluate] at isOther
      simp [evaluate, computed, isOther]
    | swap first second rest =>
      obtain ⟨secondValue, _, secondComputed, isRest, rfl⟩ := evaluate_cons evaluated
      obtain ⟨firstValue, others, firstComputed, isOthers, rfl⟩ := evaluate_cons isRest
      refine ⟨(first.target, firstValue) :: (second.target, secondValue) :: others, ?_,
        List.Perm.swap _ _ _⟩
      rw [evaluate] at isOthers
      simp [evaluate, firstComputed, secondComputed, isOthers]
    | trans _ _ firstHypothesis secondHypothesis =>
      obtain ⟨middle, isMiddle, firstPermuted⟩ := firstHypothesis columns evaluated
      obtain ⟨last, isLast, secondPermuted⟩ := secondHypothesis middle isMiddle
      exact ⟨last, isLast, firstPermuted.trans secondPermuted⟩
  obtain ⟨otherColumns, isOther, permuted⟩ := reordered
  refine ⟨assignAll table otherColumns, by rw [atOnce, isOther]; rfl, ?_⟩
  apply List.Perm.symm
  apply assignAll_perm permuted _ (List.Perm.refl table)
  rw [names_evaluate evaluated]
  exact distinct

end

end Flowfile.Library.Assignments
