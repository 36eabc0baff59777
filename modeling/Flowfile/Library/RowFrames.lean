import Mathlib.Algebra.Order.Ring.Int
import Mathlib.Data.List.Infix

/-!
# Tables with rows

A table has named columns with their types, and rows that hold a cell for each column. Its
operations are calls: a column is made of others or takes the place of one, texts are split, lists
become rows, columns become rows, rows are numbered within their group or altogether. A call fails
when a column is missing, has another type or would be there twice.

What only the values know is left open: which columns a selector picks, the common type of columns,
how a text is cut, how numbers are added.
-/

namespace Flowfile.Library.RowFrames

open List

inductive Cell (V : Type) where
  | null
  | text (value : List Char)
  | texts (items : List (List Char))
  | number (value : Int)
  | other (value : V)
deriving DecidableEq

/-- What a row holds for each column. -/
abbrev Row (V : Type) := String → Cell V

structure Frame (D V : Type) where
  names : List String
  type : String → D
  rows : List (Row V)

def Frame.shown {D V : Type} (frame : Frame D V) : List String × List (List (Cell V)) :=
  (frame.names, frame.rows.map fun row => frame.names.map row)

theorem shown_column {D V : Type} {first second : Frame D V} (same : first.shown = second.shown)
    {name : String} (mem : name ∈ first.names) :
    first.rows.map (fun row => row name) = second.rows.map fun row => row name := by
  obtain ⟨names, rows⟩ := Prod.mk.inj same
  have cell (row : Row V) :
      (first.names.map row)[first.names.idxOf name]?.getD .null = row name := by
    rw [List.getElem?_map, List.getElem?_idxOf mem]
    rfl
  rw [← names] at rows
  have cells := congrArg (List.map fun cells : List (Cell V) =>
    cells[first.names.idxOf name]?.getD .null) rows
  rw [map_map, map_map] at cells
  exact (map_congr_left fun row _ => (cell row).symm).trans
    (cells.trans (map_congr_left fun row _ => cell row))

/-- What is open about the values. A text is cut into parts that give it back when they are joined
and that do not have the separator in them. -/
structure Values (D V : Type) where
  string : D
  list : D
  index : D
  /-- The cells of a type. -/
  fits : D → Cell V → Prop
  fits_null : ∀ type, fits type .null
  fits_text : ∀ value, fits string (.text value)
  /-- The columns that a list of names stands for, given all columns and those for the index. -/
  listed : List String → List String → List String → Option (List String)
  /-- The type that columns of these types have in common. -/
  supertype : List D → Option D
  cast : D → Cell V → Cell V
  split : List Char → List Char → List (List Char)
  split_joined : ∀ text separator : List Char,
    separator.intercalate (split text separator) = text
  split_parted : ∀ text separator : List Char, separator ≠ [] →
    ∀ part ∈ split text separator, ¬ separator <:+: part
  /-- A text may be split by a literal that is null. -/
  splitsByNull : Bool
  add : Int → Int → Int
  subtract : Int → Int → Int

variable {letter : Char} {separator : List Char} {parts : List (List Char)}

theorem letter_mem_of_joined
    (joined : separator.intercalate parts = [letter]) (apart : separator ≠ [letter]) :
    [letter] ∈ parts := by
  induction parts with
  | nil => cases joined
  | cons part rest ih =>
    cases rest with
    | nil =>
      rw [intercalate_singleton] at joined
      exact mem_singleton.mpr joined.symm
    | cons next rest =>
    rw [intercalate_cons_cons, append_assoc] at joined
    cases part with
    | cons first more =>
      obtain ⟨rfl, nothing⟩ := List.cons.inj joined
      rw [(append_eq_nil_iff.mp nothing).1]
      exact mem_cons_self
    | nil =>
    cases separator with
    | nil => exact mem_cons_of_mem _ (ih joined)
    | cons first more =>
      obtain ⟨rfl, nothing⟩ := List.cons.inj joined
      exact absurd (congrArg _ (append_eq_nil_iff.mp nothing).1) apart

theorem letter_mem_split {D V : Type} (values : Values D V)
    (apart : separator ≠ [letter]) : [letter] ∈ values.split [letter] separator :=
  letter_mem_of_joined (values.split_joined [letter] separator) apart

theorem letter_not_mem_split {D V : Type} (values : Values D V) (letter : Char) :
    [letter] ∉ values.split [letter] [letter] := fun mem =>
  values.split_parted [letter] [letter] (cons_ne_nil _ _) _ mem (infix_refl _)

/-- What separates the parts of a text. -/
inductive Separator where
  | literal (value : Option (List Char))
  | column (name : String)
deriving DecidableEq

/-- A number that is added to a column or subtracted from it. -/
inductive Shift where
  | plus (value : Int)
  | minus (value : Int)
deriving DecidableEq

/-- How a column is made. -/
inductive ColumnExpr where
  | split (column : String) (separator : Separator)
  | literal (value : Int)
  | cumCount (column : String) (groups : List String) (shifts : List Shift)
deriving DecidableEq

inductive Picked (D : Type) where
  | selected (picks : D → Bool)
  | listed (names : List String)

inductive Call (D : Type) where
  | withColumn (expr : ColumnExpr) (name : String)
  | explode (column : String)
  | unpivot (on : Option (Picked D)) (index : Option (List String))
      (variableName valueName : Option String)
  | withRowIndex (name : String) (offset : Int)
  | select (names : List String)

variable {name : String} {groups : List String}

section

variable {D V : Type} (values : Values D V)

/-- The cells of a list, each for a row. An empty list has a row as well. -/
def Cell.exploded : Cell V → List (Cell V)
  | .texts (first :: rest) => (first :: rest).map .text
  | .texts [] | .null => [.null]
  | cell => [cell]

theorem text_mem_exploded {part : List Char} :
    (.text part : Cell V) ∈ (Cell.texts parts).exploded ↔ part ∈ parts := by
  cases parts with
  | nil => simp [Cell.exploded]
  | cons first rest => simp [Cell.exploded]

def splitCell : Cell V → Cell V → Cell V
  | .text value, .text separator => .texts (values.split value separator)
  | _, _ => .null

def Shift.apply (count : Int) : Shift → Int
  | .plus value => values.add count value
  | .minus value => values.subtract count value

namespace Frame

variable (frame : Frame D V)

/-- Add a column or put it in the place of the one of its name. -/
def setColumn (name : String) (type : D) (cells : List (Cell V)) : Frame D V where
  names := if name ∈ frame.names then frame.names else frame.names ++ [name]
  type := Function.update frame.type name type
  rows := List.zipWith (fun row cell => Function.update row name cell) frame.rows cells

theorem mem_names_setColumn {type : D} {cells : List (Cell V)} {other : String} :
    other ∈ (frame.setColumn name type cells).names ↔ other ∈ name :: frame.names := by
  rw [setColumn, mem_cons]
  dsimp only
  split
  case isTrue present => exact ⟨.inr, fun either => either.elim (· ▸ present) id⟩
  case isFalse => simp [or_comm]

theorem mem_setColumn (name : String) (type : D) (cells : List (Cell V)) :
    name ∈ (frame.setColumn name type cells).names :=
  (mem_names_setColumn frame).mpr mem_cons_self

variable {frame} in
theorem setColumn_cells {name : String} {type : D} {cells : List (Cell V)}
    (lengths : cells.length = frame.rows.length) :
    (frame.setColumn name type cells).rows.map (fun row => row name) = cells := by
  rw [setColumn, map_zipWith]
  simp only [Function.update_self]
  refine ext_getElem (by simp [lengths]) fun place _ _ => ?_
  rw [getElem_zipWith]

/-- The items of a list become rows. -/
def explodeRows (column : String) : Frame D V where
  names := frame.names
  type := Function.update frame.type column values.string
  rows := frame.rows.flatMap fun row =>
    (row column).exploded.map fun cell => Function.update row column cell

variable [DecidableEq D] [DecidableEq V]

def separators : Separator → Option (List (Cell V))
  | .literal (some value) => some (frame.rows.map fun _ => .text value)
  | .literal none => if values.splitsByNull then some (frame.rows.map fun _ => .null) else none
  | .column name =>
    if name ∈ frame.names ∧ frame.type name = values.string then
      some (frame.rows.map fun row => row name)
    else none

def cumCounts (column : String) (groups : List String) : List Int :=
  frame.rows.zipIdx.map fun (row, place) =>
    ((frame.rows.take (place + 1)).countP fun other =>
      decide (other column ≠ .null) && groups.all fun group => other group = row group : Nat)

def evaluate : ColumnExpr → Option (D × List (Cell V))
  | .split column separator =>
    if column ∈ frame.names ∧ frame.type column = values.string then
      (frame.separators values separator).map fun separators =>
        (values.list, List.zipWith (fun row cell => splitCell values (row column) cell)
          frame.rows separators)
    else none
  | .literal value => some (values.index, frame.rows.map fun _ => .number value)
  | .cumCount column groups shifts =>
    if column ∈ frame.names ∧ groups ⊆ frame.names then
      some (values.index, (frame.cumCounts column groups).map fun count =>
        .number (shifts.foldl (Shift.apply values) count))
    else none

/-- The columns that become rows. Without a choice these are all but the index. -/
def picked (index : List String) : Option (Picked D) → Option (List String)
  | none => some (frame.names.filter fun name => name ∉ index)
  | some (.selected picks) => some (frame.names.filter fun name => picks (frame.type name))
  | some (.listed names) => values.listed frame.names index names

/-- The columns that become rows, if they can: the columns exist, and what comes out of them has
distinct names and a common type. -/
def unpivoted (on : Option (Picked D)) (index : List String) (variableName valueName : String) :
    Option (List String × D) := do
  let columns ← frame.picked values index on
  let common ← values.supertype (columns.map frame.type)
  if columns ⊆ frame.names ∧ index ⊆ frame.names ∧ (index ++ [variableName, valueName]).Nodup then
    some (columns, common)
  else none

def melt (columns : List String) (common : D) (index : List String)
    (variableName valueName : String) : Frame D V where
  names := index ++ [variableName, valueName]
  type := Function.update (Function.update frame.type variableName values.string) valueName common
  rows := columns.flatMap fun column => frame.rows.map fun row =>
    Function.update (Function.update row variableName (.text column.toList)) valueName
      (values.cast common (row column))

def call : Call D → Option (Frame D V)
  | .withColumn expr name => do
    let (type, cells) ← frame.evaluate values expr
    return frame.setColumn name type cells
  | .explode column =>
    if column ∈ frame.names ∧ frame.type column = values.list then
      some (frame.explodeRows values column)
    else none
  | .unpivot on index variableName valueName => do
    let index := index.getD []
    let variableName := variableName.getD "variable"
    let valueName := valueName.getD "value"
    let (columns, common) ← frame.unpivoted values on index variableName valueName
    return frame.melt values columns common index variableName valueName
  | .withRowIndex name offset =>
    if name ∉ frame.names ∧ 0 ≤ offset then
      some {
        names := name :: frame.names
        type := Function.update frame.type name values.index
        rows := frame.rows.zipIdx.map fun (row, place) =>
          Function.update row name (.number (offset + place)) }
    else none
  | .select names =>
    if names ⊆ frame.names ∧ names.Nodup then some { frame with names := names } else none

def calls (chain : List (Call D)) : Option (Frame D V) :=
  chain.foldlM (fun frame step => frame.call values step) frame

variable {values frame}

theorem calls_split (column name : String) (separator : Separator) :
    frame.calls values [.withColumn (.split column separator) name, .explode name] =
      (frame.evaluate values (.split column separator)).map fun made =>
        (frame.setColumn name made.1 made.2).explodeRows values name := by
  have lists {made : D × List (Cell V)}
      (found : frame.evaluate values (.split column separator) = some made) :
      made.1 = values.list := by
    rw [evaluate] at found
    split at found
    · obtain ⟨_, _, rfl⟩ := Option.map_eq_some_iff.mp found
      rfl
    · cases found
  rw [calls, foldlM_cons, call]
  cases found : frame.evaluate values (.split column separator) with
  | none => rfl
  | some made =>
  have holds : (frame.setColumn name made.1 made.2).type name = values.list := by
    rw [← lists found]
    exact Function.update_self ..
  change (frame.setColumn name made.1 made.2).calls values [.explode name] = _
  rw [calls, foldlM_cons, call, if_pos ⟨mem_setColumn .., holds⟩]
  rfl

omit [DecidableEq D] in
theorem cumCounts_pos {column : String} (filled : ∀ row ∈ frame.rows, row column ≠ .null) :
    ∀ count ∈ frame.cumCounts column groups, ∃ number : Nat, 0 < number ∧ count = number := by
  intro count mem
  obtain ⟨⟨row, place⟩, isRow, rfl⟩ := mem_map.mp mem
  refine ⟨_, countP_pos_iff.mpr ⟨row, ?_, ?_⟩, rfl⟩
  · have here := mk_mem_zipIdx_iff_getElem?.mp isRow
    obtain ⟨inside, rfl⟩ := List.getElem?_eq_some_iff.mp here
    exact mem_take_iff_getElem.mpr ⟨place, by omega, rfl⟩
  · have inRows := mem_of_getElem? (mk_mem_zipIdx_iff_getElem?.mp isRow)
    simp [filled row inRows]

omit [DecidableEq D] in
theorem mem_cumCounts_replicate {column : String} {groups : List String} {row : Row V}
    {number : Nat} (rows : frame.rows = List.replicate (number + 1) row)
    (filled : row column ≠ .null) :
    ((number + 1 : Nat) : Int) ∈ frame.cumCounts column groups := by
  have here : (row, number) ∈ frame.rows.zipIdx :=
    mk_mem_zipIdx_iff_getElem?.mpr (by simp [rows])
  refine mem_map.mpr ⟨_, here, congrArg Nat.cast ?_⟩
  rw [rows, take_of_length_le (by simp)]
  refine (countP_eq_length.mpr fun other mem => ?_).trans (length_replicate ..)
  rw [eq_of_mem_replicate mem]
  simp [filled]

def counted (frame : Frame D V) (values : Values D V) (name : String) (groups : List String)
    (shifts : List Shift) : Frame D V :=
  let marked := frame.setColumn name values.index (frame.rows.map fun _ => .number 1)
  marked.setColumn name values.index ((marked.cumCounts name groups).map fun count =>
    .number (shifts.foldl (Shift.apply values) count))

def groupCounts (frame : Frame D V) (values : Values D V) (name : String) (groups : List String) :
    List Int :=
  (frame.setColumn name values.index (frame.rows.map fun _ => .number 1)).cumCounts name groups

omit [DecidableEq D] in
theorem counted_cells {shifts : List Shift} :
    (frame.counted values name groups shifts).rows.map (fun row => row name) =
      (frame.groupCounts values name groups).map fun count =>
        .number (shifts.foldl (Shift.apply values) count) := by
  refine setColumn_cells ?_
  rw [length_map, cumCounts, length_map, length_zipIdx]

omit [DecidableEq D] in
/-- A marked row counts itself. -/
theorem groupCounts_pos : ∀ count ∈ frame.groupCounts values name groups,
      ∃ number : Nat, 0 < number ∧ count = number := by
  refine cumCounts_pos fun row mem => ?_
  have cells := @setColumn_cells _ _ frame name values.index
    (frame.rows.map fun _ => .number 1) (length_map ..)
  have marked : row name ∈ frame.rows.map fun _ => (.number 1 : Cell V) :=
    cells ▸ mem_map_of_mem mem
  obtain ⟨_, _, same⟩ := mem_map.mp marked
  exact same ▸ by simp

omit [DecidableEq D] in
theorem mem_groupCounts_replicate {row : Row V}
    {number : Nat} (rows : frame.rows = List.replicate (number + 1) row) :
    ((number + 1 : Nat) : Int) ∈ frame.groupCounts values name groups := by
  refine @mem_cumCounts_replicate _ _ _ _ name groups (Function.update row name (.number 1)) _
    ?_ ?_
  · rw [setColumn, rows]
    simp [map_replicate]
  · simp

theorem calls_count (name : String) (groups selected : List String) (shifts : List Shift) :
    frame.calls values [.withColumn (.literal 1) name, .withColumn (.cumCount name groups shifts)
        name, .select selected] =
      if groups ⊆ name :: frame.names ∧ selected ⊆ name :: frame.names ∧ selected.Nodup then
        some { frame.counted values name groups shifts with names := selected }
      else none := by
  have marked {wanted : List String} : wanted ⊆ (frame.setColumn name values.index
      (frame.rows.map fun _ => .number 1)).names ↔ wanted ⊆ name :: frame.names :=
    forall₂_congr fun _ _ => mem_names_setColumn frame
  have counted : (frame.counted values name groups shifts).names = (frame.setColumn name
      values.index (frame.rows.map fun _ => .number 1)).names := if_pos (mem_setColumn ..)
  change (frame.setColumn name values.index (frame.rows.map fun _ => .number 1)).calls values
    [.withColumn (.cumCount name groups shifts) name, .select selected] = _
  rw [calls, foldlM_cons, call, evaluate]
  by_cases known : groups ⊆ name :: frame.names
  · rw [if_pos ⟨mem_setColumn .., marked.mpr known⟩]
    change (frame.counted values name groups shifts).calls values [.select selected] = _
    rw [calls, foldlM_cons, call, counted]
    by_cases chosen : selected ⊆ name :: frame.names ∧ selected.Nodup
    · rw [if_pos ⟨marked.mpr chosen.1, chosen.2⟩, if_pos ⟨known, chosen⟩]
      rfl
    · rw [if_neg fun both => chosen ⟨marked.mp both.1, both.2⟩, if_neg fun all => chosen all.2]
      rfl
  · rw [if_neg fun both => known (marked.mp both.2), if_neg fun all => known all.1]
    rfl

end Frame

end

end Flowfile.Library.RowFrames
