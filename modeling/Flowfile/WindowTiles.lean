import Flowfile.Library.EvenParts

/-!
# Tiles of window functions

A window function cuts each group of rows, in their order, into tiles. The engine takes the place of
a row in its group from its position; the code that is generated counts the values of the first
order column that are not null.

The tiles of the engine are even parts of each group. The generated code gives the same ones exactly
when the first order column has no null.
-/

namespace Flowfile.Window

open Library.EvenParts List

/-- What each column holds in a row. Null is none. -/
abbrev Row (V : Type) := String → Option V

/-- An expression on the rows of a table. -/
inductive Expr where
  | lit (value : Int)
  | len
  | intRange
  | cumCount (column : String)
  | add (first second : Expr)
  | sub (first second : Expr)
  | mul (first second : Expr)
  | floorDiv (first second : Expr)
  | mod (first second : Expr)
  | maxHorizontal (first second : Expr)
  /-- A choice between two expressions, by a comparison. -/
  | whenLess (first second thenValue otherwiseValue : Expr)
  | overGroups (partitionBy : List String) (inner : Expr)

section

variable {V : Type} [DecidableEq V]

def sameGroup (partitionBy : List String) (first second : Row V) : Bool :=
  partitionBy.all fun column => first column = second column

def Expr.eval : Expr → List (Row V) → Nat → Int
  | .lit value, _, _ => value
  | .len, rows, _ => rows.length
  | .intRange, _, place => place
  | .cumCount column, rows, place =>
    (rows.take (place + 1)).countP fun row => (row column).isSome
  | .add first second, rows, place => first.eval rows place + second.eval rows place
  | .sub first second, rows, place => first.eval rows place - second.eval rows place
  | .mul first second, rows, place => first.eval rows place * second.eval rows place
  | .floorDiv first second, rows, place => (first.eval rows place).fdiv (second.eval rows place)
  | .mod first second, rows, place => (first.eval rows place).fmod (second.eval rows place)
  | .maxHorizontal first second, rows, place => max (first.eval rows place) (second.eval rows place)
  | .whenLess first second thenValue otherwiseValue, rows, place =>
    if first.eval rows place < second.eval rows place then thenValue.eval rows place
    else otherwiseValue.eval rows place
  | .overGroups partitionBy inner, rows, place =>
    match rows[place]? with
    | none => 0
    | some row => inner.eval (rows.filter (sameGroup partitionBy row))
        ((rows.take place).countP (sameGroup partitionBy row))

end

structure SortByInput where
  column : String
  descending : Bool

structure WindowFunctionInput where
  newColumnName : String
  numberOfGroups : Nat
  valid : 1 ≤ numberOfGroups

/-- The expression under which the engine adds the column of tiles. -/
def buildWindowExpr (w : WindowFunctionInput) (partitionBy : List String) : Expr × String :=
  let n : Expr := .lit w.numberOfGroups
  let groupLen : Expr := if partitionBy.isEmpty then .len else .overGroups partitionBy .len
  let pos : Expr := if partitionBy.isEmpty then .intRange else .overGroups partitionBy .intRange
  let bigSize : Expr := .floorDiv (.sub (.add groupLen n) (.lit 1)) n
  let threshold : Expr := .mul (.mod groupLen n) bigSize
  let smallSize : Expr := .maxHorizontal (.floorDiv groupLen n) (.lit 1)
  (.whenLess pos threshold (.add (.floorDiv pos bigSize) (.lit 1))
    (.add (.add (.floorDiv (.sub pos threshold) smallSize) (.mod groupLen n)) (.lit 1)),
    w.newColumnName)

/-- The expression of the generated code. Without an order there is an error. -/
def buildWindowExprCode (w : WindowFunctionInput) (partitionBy : List String)
    (orderBy : List SortByInput) : Option (Expr × String) :=
  match orderBy with
  | [] => none
  | first :: _ =>
    let n : Expr := .lit w.numberOfGroups
    let grouped (inner : Expr) : Expr :=
      if partitionBy.isEmpty then inner else .overGroups partitionBy inner
    let pos : Expr := .sub (grouped (.cumCount first.column)) (.lit 1)
    let groupLen : Expr := grouped .len
    let big : Expr := .floorDiv (.sub (.add groupLen n) (.lit 1)) n
    let threshold : Expr := .mul (.mod groupLen n) big
    let small : Expr :=
      .whenLess (.floorDiv groupLen n) (.lit 1) (.lit 1) (.floorDiv groupLen n)
    some (.whenLess pos threshold (.add (.floorDiv pos big) (.lit 1))
      (.add (.add (.floorDiv (.sub pos threshold) small) (.mod groupLen n)) (.lit 1)),
      w.newColumnName)

variable {V : Type} [LinearOrder V]

/-- A row may stand before another one. Nulls come first, in both directions. -/
def before : List SortByInput → Row V → Row V → Prop
  | [], _, _ => True
  | sort :: rest, first, second =>
    match first sort.column, second sort.column with
    | none, none => before rest first second
    | none, some _ => True
    | some _, none => False
    | some one, some other =>
      (if sort.descending then other < one else one < other) ∨
        one = other ∧ before rest first second

def Ordered (orderBy : List SortByInput) (rows : List (Row V)) : Prop :=
  rows.Pairwise (before orderBy)

def groupTiles (tile : Expr) (partitionBy : List String) (rows : List (Row V)) (row : Row V) :
    List Int :=
  ((List.range rows.length).filter fun place =>
    (rows[place]?).any (sameGroup partitionBy row)).map (tile.eval rows)

/-- Tiles of a group: they do not decrease, there are as many as there can be, and the first ones
are the larger ones. -/
structure TileLaw (tiles : Nat) (group : List Int) : Prop where
  nondecreasing : group.Pairwise (· ≤ ·)
  covers : ∀ tile, tile ∈ group ↔ 1 ≤ tile ∧ tile ≤ min group.length tiles
  sizes : ∀ tile : Nat, 1 ≤ tile → tile ≤ tiles → group.count (tile : Int) =
    group.length / tiles + if tile ≤ group.length % tiles then 1 else 0

variable {tiles : Nat}

theorem tileLaw_parts (total : Nat) (positive : 0 < tiles) :
    TileLaw tiles ((List.range total).map fun place => (partOf total tiles place + 1 : Int)) where
  nondecreasing := by
    rw [pairwise_map]
    refine pairwise_lt_range.imp_of_mem fun _ later order => ?_
    have := partOf_mono positive order.le (mem_range.mp later)
    omega
  covers tile := by
    rw [mem_map, length_map, length_range]
    constructor
    · rintro ⟨place, inside, rfl⟩
      have := partOf_lt positive (mem_range.mp inside)
      omega
    · rintro ⟨atLeast, atMost⟩
      have early : (tile - 1).toNat < min total tiles := by omega
      have filled : 0 < (List.range total).countP
          fun place => partOf total tiles place = (tile - 1).toNat := by
        rw [countP_partOf positive (Nat.lt_of_lt_of_le early (Nat.min_le_right _ _))]
        exact size_pos early
      obtain ⟨place, inside, here⟩ := countP_pos_iff.mp filled
      refine ⟨place, inside, ?_⟩
      rw [of_decide_eq_true here]
      omega
  sizes tile atLeast atMost := by
    have same : ((List.range total).map fun place => (partOf total tiles place + 1 : Int)).count
        (tile : Int) =
          (List.range total).countP fun place => partOf total tiles place = tile - 1 := by
      rw [List.count, countP_map]
      refine countP_congr fun place _ => ?_
      rw [Function.comp_apply, beq_iff_eq, decide_eq_true_eq]
      omega
    rw [same, countP_partOf positive (by omega), size, length_map, length_range]
    congr 1
    exact if_congr (by omega) rfl rfl

variable {total : Nat}

theorem bigSize_eq (positive : 0 < tiles) :
    total % tiles = 0 ∨ (total + tiles - 1) / tiles = total / tiles + 1 := by
  refine (Nat.eq_zero_or_pos (total % tiles)).imp_right fun uneven => ?_
  have below := Nat.mod_lt total positive
  have whole := Nat.div_add_mod total tiles
  refine Nat.div_eq_of_lt_le ?_ ?_
  · rw [Nat.add_one_mul, Nat.mul_comm]
    omega
  · rw [Nat.add_one_mul, Nat.add_one_mul, Nat.mul_comm]
    omega

theorem tile_formula {place : Nat} (positive : 0 < tiles) (inside : place < total) :
    (if (place : Int) < (total : Int).fmod tiles * ((total : Int) + tiles - 1).fdiv tiles then
      (place : Int).fdiv (((total : Int) + tiles - 1).fdiv tiles) + 1
    else ((place : Int) - (total : Int).fmod tiles * ((total : Int) + tiles - 1).fdiv tiles).fdiv
      (max ((total : Int).fdiv tiles) 1) + (total : Int).fmod tiles + 1) =
        (partOf total tiles place + 1 : Int) := by
  have big : ((total : Int) + tiles - 1).fdiv tiles = ((total + tiles - 1) / tiles : Nat) := by
    rw [Int.ofNat_fdiv]
    congr 1
    omega
  have threshold : total % tiles * ((total + tiles - 1) / tiles) =
      total % tiles * (total / tiles + 1) := by
    have sizes : total % tiles = 0 ∨ (total + tiles - 1) / tiles = total / tiles + 1 :=
      bigSize_eq positive
    rcases sizes with even | larger
    · rw [even, Nat.zero_mul, Nat.zero_mul]
    · rw [larger]
  rw [big, ← Int.ofNat_fmod, ← Int.ofNat_fdiv total tiles, ← Int.natCast_mul, threshold, partOf]
  by_cases early : place < total % tiles * (total / tiles + 1)
  · have larger := (bigSize_eq positive).resolve_left fun even => by
      rw [even, Nat.zero_mul] at early
      exact Nat.not_lt_zero _ early
    rw [if_pos (Int.ofNat_lt.mpr early), if_pos early, larger, ← Int.ofNat_fdiv]
  · have whole := Nat.mod_add_div total tiles
    have nonzero : 1 ≤ total / tiles := by
      refine Nat.one_le_iff_ne_zero.mpr fun zero => early ?_
      rw [zero, Nat.mul_zero, Nat.add_zero] at whole
      rw [zero, whole, Nat.zero_add, Nat.mul_one]
      exact inside
    rw [if_neg (mt Int.ofNat_lt.mp early), if_neg early, ← Int.ofNat_sub (Nat.le_of_not_lt early),
      max_eq_left (by exact_mod_cast nonzero), ← Int.ofNat_fdiv]
    omega

theorem sameGroup_iff {partitionBy : List String} {first second : Row V} :
    sameGroup partitionBy first second = true ↔
      ∀ column ∈ partitionBy, first column = second column := by
  simp [sameGroup]

theorem sameGroup_congr {partitionBy : List String} {first second : Row V}
    (same : sameGroup partitionBy first second = true) :
    sameGroup partitionBy first = sameGroup partitionBy second := by
  funext row
  rw [Bool.eq_iff_iff, sameGroup_iff, sameGroup_iff]
  have equal := sameGroup_iff.mp same
  exact forall₂_congr fun column mem => by rw [equal column mem]

theorem eval_group (partitionBy : List String) (inner : Expr) {rows : List (Row V)} {place : Nat}
    {row : Row V} (here : rows[place]? = some row) :
    (if partitionBy.isEmpty then inner else .overGroups partitionBy inner).eval rows place =
      inner.eval (rows.filter (sameGroup partitionBy row))
        ((rows.take place).countP (sameGroup partitionBy row)) := by
  cases partitionBy with
  | nil =>
    have all : sameGroup [] row = fun _ => true := rfl
    have inside := (List.getElem?_eq_some_iff.mp here).1
    rw [all, filter_true, countP_true, length_take, Nat.min_eq_left inside.le]
    rfl
  | cons column rest =>
    rw [isEmpty_cons, if_neg Bool.false_ne_true, Expr.eval, here]

theorem place_lt {α : Type} {p : α → Bool} {rows : List α} {place : Nat} {row : α}
    (here : rows[place]? = some row) (holds : p row = true) :
    (rows.take place).countP p < (rows.filter p).length := by
  obtain ⟨inside, rfl⟩ := List.getElem?_eq_some_iff.mp here
  rw [← countP_eq_length_filter]
  have next : (rows.take (place + 1)).countP p = (rows.take place).countP p + 1 := by
    rw [take_succ_eq_append_getElem inside, countP_append, countP_singleton, if_pos holds]
  rw [Nat.lt_iff_add_one_le, ← next]
  exact (take_sublist _ _).countP_le

theorem places_of_group {α : Type} (p : α → Bool) (rows : List α) :
    ((List.range rows.length).filter fun place => (rows[place]?).any p).map
      (fun place => (rows.take place).countP p) = List.range (rows.countP p) := by
  induction rows using List.reverseRecOn with
  | nil => rfl
  | append_singleton rows row ih =>
    have earlier : (List.range rows.length).filter
        (fun place => ((rows ++ [row])[place]?).any p) =
          (List.range rows.length).filter fun place => (rows[place]?).any p :=
      filter_congr fun place mem => by
        rw [List.getElem?_append_left (mem_range.mp mem)]
    have counted : ∀ places : List Nat, (∀ place ∈ places, place < rows.length) →
        places.map (fun place => ((rows ++ [row]).take place).countP p) =
          places.map fun place => (rows.take place).countP p := fun places inside =>
      map_congr_left fun place mem => by
        rw [take_append_of_le_length (inside place mem).le]
    rw [length_append, length_singleton, range_succ, filter_append, earlier, map_append,
      counted _ fun place mem => mem_range.mp (mem_filter.mp mem).1,
      ih, countP_append, countP_singleton]
    have last : ((rows ++ [row])[rows.length]?).any p = p row := by
      rw [List.getElem?_concat_length]
      rfl
    by_cases holds : p row = true
    · rw [if_pos holds, range_succ, filter_cons_of_pos (by rw [last, holds]),
        filter_nil, map_singleton, take_left]
    · rw [if_neg holds, Nat.add_zero, filter_cons_of_neg (by rw [last]; exact holds),
        filter_nil, map_nil, append_nil]

section

variable (w : WindowFunctionInput) (partitionBy : List String) {rows : List (Row V)} {place : Nat}
  {row : Row V}

theorem eval_buildWindowExpr (here : rows[place]? = some row) :
    (buildWindowExpr w partitionBy).1.eval rows place =
      partOf (rows.filter (sameGroup partitionBy row)).length w.numberOfGroups
        ((rows.take place).countP (sameGroup partitionBy row)) + 1 := by
  have len := eval_group partitionBy .len here
  have pos := eval_group partitionBy .intRange here
  have itself : sameGroup partitionBy row row = true := sameGroup_iff.mpr fun _ _ => rfl
  have inside := place_lt here itself
  rw [← tile_formula w.valid inside]
  simp only [buildWindowExpr, Expr.eval, len, pos]

theorem groupTiles_engine (row : Row V) :
    groupTiles (buildWindowExpr w partitionBy).1 partitionBy rows row =
      (List.range (rows.countP (sameGroup partitionBy row))).map fun place =>
        (partOf (rows.countP (sameGroup partitionBy row)) w.numberOfGroups place + 1 : Int) := by
  rw [← places_of_group, map_map, groupTiles]
  refine map_congr_left fun place mem => ?_
  have inGroup := (mem_filter.mp mem).2
  obtain ⟨other, here, same⟩ := (Option.any_eq_true _ _).mp inGroup
  rw [eval_buildWindowExpr w partitionBy here, Function.comp_apply, ← sameGroup_congr same,
    ← countP_eq_length_filter]

theorem engine_tileLaw (row : Row V) : TileLaw w.numberOfGroups
    (groupTiles (buildWindowExpr w partitionBy).1 partitionBy rows row) := by
  rw [groupTiles_engine]
  exact tileLaw_parts _ w.valid

end

section

variable (w : WindowFunctionInput) (partitionBy : List String) (first : SortByInput)
  (rest : List SortByInput) {rows : List (Row V)} {place : Nat} {row : Row V}

/-- The expression of the generated code, which is there when the rows have an order. -/
def tileCode : Expr :=
  ((buildWindowExprCode w partitionBy (first :: rest)).map Prod.fst).getD .len

theorem eval_tileCode (here : rows[place]? = some row) {values : Nat}
    (counted : ((rows.filter (sameGroup partitionBy row)).take
      ((rows.take place).countP (sameGroup partitionBy row) + 1)).countP
        (fun row => (row first.column).isSome) = values) :
    (tileCode w partitionBy first rest).eval rows place =
      let total : Int := (rows.filter (sameGroup partitionBy row)).length
      let tiles : Int := w.numberOfGroups
      let pos : Int := values - 1
      if pos < total.fmod tiles * (total + tiles - 1).fdiv tiles then
        pos.fdiv ((total + tiles - 1).fdiv tiles) + 1
      else (pos - total.fmod tiles * (total + tiles - 1).fdiv tiles).fdiv
        (max (total.fdiv tiles) 1) + total.fmod tiles + 1 := by
  have len := eval_group partitionBy .len here
  have pos := eval_group partitionBy (.cumCount first.column) here
  have small : ∀ value : Int, (if value < 1 then 1 else value) = max value 1 := by
    intro value
    split <;> omega
  rw [Expr.eval] at len
  rw [Expr.eval, counted] at pos
  simp only [tileCode, buildWindowExprCode, Option.map_some, Option.getD_some, Expr.eval, len, pos,
    small]

/-- Without nulls the generated code counts places. -/
theorem eval_tileCode_filled (here : rows[place]? = some row)
    (filled : ∀ row ∈ rows, (row first.column).isSome) :
    (tileCode w partitionBy first rest).eval rows place =
      (buildWindowExpr w partitionBy).1.eval rows place := by
  have itself : sameGroup partitionBy row row = true := sameGroup_iff.mpr fun _ _ => rfl
  have inside := place_lt here itself
  have counted : ((rows.filter (sameGroup partitionBy row)).take
      ((rows.take place).countP (sameGroup partitionBy row) + 1)).countP
        (fun row => (row first.column).isSome) =
          (rows.take place).countP (sameGroup partitionBy row) + 1 := by
    rw [countP_eq_length.mpr fun other mem =>
      filled other (mem_filter.mp (mem_of_mem_take mem)).1, length_take,
      Nat.min_eq_left inside]
  have position : (((rows.take place).countP (sameGroup partitionBy row) + 1 : Nat) : Int) - 1 =
      (rows.take place).countP (sameGroup partitionBy row) := by omega
  rw [eval_buildWindowExpr w partitionBy here, ← tile_formula w.valid inside,
    eval_tileCode w partitionBy first rest here counted]
  dsimp only
  rw [position]

theorem tile_formula_before (positive : 0 < tiles) (nonempty : 0 < total) :
    (if (-1 : Int) < (total : Int).fmod tiles * ((total : Int) + tiles - 1).fdiv tiles then
      (-1 : Int).fdiv (((total : Int) + tiles - 1).fdiv tiles) + 1
    else (-1 - (total : Int).fmod tiles * ((total : Int) + tiles - 1).fdiv tiles).fdiv
      (max ((total : Int).fdiv tiles) 1) + (total : Int).fmod tiles + 1) = 0 := by
  have big : ((total : Int) + tiles - 1).fdiv tiles = ((total + tiles - 1) / tiles : Nat) := by
    rw [Int.ofNat_fdiv]
    congr 1
    omega
  have larger : 0 < (total + tiles - 1) / tiles := Nat.div_pos (by omega) positive
  rw [big, ← Int.ofNat_fmod, ← Int.natCast_mul, if_pos (by omega)]
  obtain ⟨size, same⟩ := Nat.exists_eq_succ_of_ne_zero larger.ne'
  have floor : (-1 : Int).fdiv (size.succ : Nat) = -1 := by
    change Int.negSucc (0 / size.succ) = -1
    rw [Nat.zero_div]
    rfl
  rw [same, floor]
  rfl

theorem eval_tileCode_null (here : rows[place]? = some row)
    (atStart : ∀ other ∈ rows.take place, sameGroup partitionBy row other = false)
    (null : row first.column = none) :
    (tileCode w partitionBy first rest).eval rows place = 0 := by
  have itself : sameGroup partitionBy row row = true := sameGroup_iff.mpr fun _ _ => rfl
  obtain ⟨inside, isRow⟩ := List.getElem?_eq_some_iff.mp here
  have starts : rows.filter (sameGroup partitionBy row) =
      row :: (rows.drop (place + 1)).filter (sameGroup partitionBy row) := by
    have nothing : (rows.take place).filter (sameGroup partitionBy row) = [] :=
      filter_eq_nil_iff.mpr fun other mem => by rw [atStart other mem]; decide
    conv_lhs => rw [← take_append_drop place rows, drop_eq_getElem_cons inside, isRow]
    rw [filter_append, nothing, nil_append, filter_cons_of_pos itself]
  have none_ : (rows.take place).countP (sameGroup partitionBy row) = 0 :=
    countP_eq_zero.mpr fun other mem => by rw [atStart other mem]; decide
  have counted : ((rows.filter (sameGroup partitionBy row)).take
      ((rows.take place).countP (sameGroup partitionBy row) + 1)).countP
        (fun row => (row first.column).isSome) = 0 := by
    rw [none_, starts, take_succ_cons, take_zero, countP_singleton, null]
    rfl
  rw [eval_tileCode w partitionBy first rest here counted]
  exact tile_formula_before w.valid (Nat.zero_lt_of_lt (place_lt here itself))

end

theorem before_null {first : SortByInput} {rest : List SortByInput} {one other : Row V}
    (order : before (first :: rest) one other) (null : other first.column = none) :
    one first.column = none := by
  rw [before, null] at order
  cases value : one first.column with
  | none => rfl
  | some value =>
    rw [value] at order
    cases order

variable (w : WindowFunctionInput) (partitionBy : List String) (first : SortByInput)
  (rest : List SortByInput) {rows : List (Row V)}

/-- The generated code adds the column of the engine, with its tile in every row. -/
def Agree (rows : List (Row V)) : Prop :=
  ∃ code, buildWindowExprCode w partitionBy (first :: rest) =
      some (code, (buildWindowExpr w partitionBy).2) ∧
    ∀ place < rows.length,
      code.eval rows place = (buildWindowExpr w partitionBy).1.eval rows place

theorem agree_iff (ordered : Ordered (first :: rest) rows) :
    Agree w partitionBy first rest rows ↔ ∀ row ∈ rows, (row first.column).isSome := by
  constructor
  · rintro ⟨code, built, agree⟩ row mem
    obtain rfl : tileCode w partitionBy first rest = code := by rw [tileCode, built]; rfl
    by_contra filled
    have null : row first.column = none := Option.not_isSome_iff_eq_none.mp filled
    -- The group of a null begins with a null.
    have itself : sameGroup partitionBy row row = true := sameGroup_iff.mpr fun _ _ => rfl
    obtain ⟨lead, found⟩ := Option.isSome_iff_exists.mp
      (List.find?_isSome.mpr ⟨row, mem, itself⟩)
    obtain ⟨same, earlier, later, rfl, apart⟩ := List.find?_eq_some_iff_append.mp found
    have leadNull : lead first.column = none := by
      rcases mem_append.mp mem with isEarlier | isLater
      · exact absurd itself (by simpa using apart row isEarlier)
      rcases mem_cons.mp isLater with rfl | isLater
      · exact null
      · have tail := (pairwise_append.mp ordered).2.1
        exact before_null (rel_of_pairwise_cons tail isLater) null
    have here : (earlier ++ lead :: later)[earlier.length]? = some lead := by
      rw [List.getElem?_append_right (Nat.le_refl _), Nat.sub_self, List.getElem?_cons_zero]
    have atStart : ∀ other ∈ (earlier ++ lead :: later).take earlier.length,
        sameGroup partitionBy lead other = false := by
      intro other isEarlier
      rw [take_left] at isEarlier
      rw [← sameGroup_congr same]
      simpa using apart other isEarlier
    have tiles := agree earlier.length (List.getElem?_eq_some_iff.mp here).1
    rw [eval_tileCode_null w partitionBy first rest here atStart leadNull,
      eval_buildWindowExpr w partitionBy here] at tiles
    omega
  · intro filled
    refine ⟨tileCode w partitionBy first rest, rfl, fun place inside => ?_⟩
    exact eval_tileCode_filled w partitionBy first rest (List.getElem?_eq_getElem inside) filled

/-- Every group is cut into even parts, and the generated code gives the same tiles, exactly when
the first order column has no null. -/
theorem tiles_iff (ordered : Ordered (first :: rest) rows) :
    ((∀ row ∈ rows, TileLaw w.numberOfGroups
        (groupTiles (buildWindowExpr w partitionBy).1 partitionBy rows row)) ∧
      Agree w partitionBy first rest rows) ↔ ∀ row ∈ rows, (row first.column).isSome := by
  rw [← agree_iff w partitionBy first rest ordered]
  exact and_iff_right fun row _ => engine_tileLaw w partitionBy row

def halves : WindowFunctionInput := ⟨"half", 2, by decide⟩

def dayRow (day : Option Nat) : Row Nat := fun column => if column = "day" then day else none

theorem tiles_halves : (∀ row ∈ [dayRow (some 1), dayRow (some 2), dayRow (some 5)],
      TileLaw 2 (groupTiles (buildWindowExpr halves []).1 []
        [dayRow (some 1), dayRow (some 2), dayRow (some 5)] row)) ∧
    Agree halves [] ⟨"day", false⟩ [] [dayRow (some 1), dayRow (some 2), dayRow (some 5)] := by
  refine (tiles_iff halves [] ⟨"day", false⟩ [] ?_).mpr ?_
  · simp [Ordered, before, dayRow]
  · simp [dayRow]

/-- A row without a day is in no tile of the generated code. -/
theorem tiles_null : ¬ ∀ rows : List (Row Nat), Ordered [⟨"day", false⟩] rows →
    Agree halves [] ⟨"day", false⟩ [] rows := by
  intro agree
  have ordered : Ordered [⟨"day", false⟩] [dayRow none, dayRow (some 2)] := by
    simp [Ordered, before, dayRow]
  obtain ⟨code, built, same⟩ := agree _ ordered
  obtain rfl : tileCode halves [] ⟨"day", false⟩ [] = code := by rw [tileCode, built]; rfl
  have tile := same 0 (by decide)
  exact absurd tile (by decide)

end Flowfile.Window
