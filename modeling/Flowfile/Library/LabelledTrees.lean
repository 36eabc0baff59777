import Mathlib.Data.List.Basic

/-!
# Trees of lists and labelled members

The leaves of a tree are rewritten one by one, each with the label of the nearest member it lies
in. Such rewritings compose leaf by leaf, and lists and labels stay as they are.
-/

namespace Flowfile.Library.LabelledTrees

inductive Tree (κ ν : Type) where
  | leaf (value : ν)
  | list (items : List (Tree κ ν))
  | tuple (items : List (Tree κ ν))
  | dict (members : List (κ × Tree κ ν))

variable {κ ν ω : Type}

mutual

def mapLeaves (change : Option κ → ν → ω) (label : Option κ) : Tree κ ν → Tree κ ω
  | .leaf value => .leaf (change label value)
  | .list items => .list (mapItems change label items)
  | .tuple items => .tuple (mapItems change label items)
  | .dict members => .dict (mapMembers change members)

def mapItems (change : Option κ → ν → ω) (label : Option κ) : List (Tree κ ν) → List (Tree κ ω)
  | [] => []
  | item :: rest => mapLeaves change label item :: mapItems change label rest

def mapMembers (change : Option κ → ν → ω) : List (κ × Tree κ ν) → List (κ × Tree κ ω)
  | [] => []
  | (key, value) :: rest => (key, mapLeaves change (some key) value) :: mapMembers change rest

end

mutual

def leaves : Tree κ ν → List ν
  | .leaf value => [value]
  | .list items => itemLeaves items
  | .tuple items => itemLeaves items
  | .dict members => memberLeaves members

def itemLeaves : List (Tree κ ν) → List ν
  | [] => []
  | item :: rest => leaves item ++ itemLeaves rest

def memberLeaves : List (κ × Tree κ ν) → List ν
  | [] => []
  | (_, value) :: rest => leaves value ++ memberLeaves rest

end

section

variable {α : Type} (first : Option κ → ν → ω) (second : Option κ → ω → α)

mutual

theorem mapLeaves_mapLeaves (label : Option κ) : (tree : Tree κ ν) →
    mapLeaves second label (mapLeaves first label tree) =
      mapLeaves (fun label value => second label (first label value)) label tree
  | .leaf _ => rfl
  | .list items => congrArg Tree.list (mapItems_mapItems label items)
  | .tuple items => congrArg Tree.tuple (mapItems_mapItems label items)
  | .dict members => congrArg Tree.dict (mapMembers_mapMembers members)

theorem mapItems_mapItems (label : Option κ) : (items : List (Tree κ ν)) →
    mapItems second label (mapItems first label items) =
      mapItems (fun label value => second label (first label value)) label items
  | [] => rfl
  | item :: rest => congrArg₂ List.cons (mapLeaves_mapLeaves label item)
      (mapItems_mapItems label rest)

theorem mapMembers_mapMembers : (members : List (κ × Tree κ ν)) →
    mapMembers second (mapMembers first members) =
      mapMembers (fun label value => second label (first label value)) members
  | [] => rfl
  | (key, value) :: rest =>
    congrArg₂ List.cons (congrArg (Prod.mk key) (mapLeaves_mapLeaves (some key) value))
      (mapMembers_mapMembers rest)

end

end

section

variable {holds : ω → Prop} {change : Option κ → ν → ω}

mutual

theorem forall_leaves (each : ∀ label value, holds (change label value)) (label : Option κ) :
    (tree : Tree κ ν) → ∀ leaf ∈ leaves (mapLeaves change label tree), holds leaf
  | .leaf value => by simpa [mapLeaves, leaves] using each label value
  | .list items => forall_itemLeaves each label items
  | .tuple items => forall_itemLeaves each label items
  | .dict members => forall_memberLeaves each members

theorem forall_itemLeaves (each : ∀ label value, holds (change label value)) (label : Option κ) :
    (items : List (Tree κ ν)) → ∀ leaf ∈ itemLeaves (mapItems change label items), holds leaf
  | [] => nofun
  | item :: rest => fun leaf mem => (List.mem_append.mp mem).elim
      (forall_leaves each label item leaf) (forall_itemLeaves each label rest leaf)

theorem forall_memberLeaves (each : ∀ label value, holds (change label value)) :
    (members : List (κ × Tree κ ν)) →
    ∀ leaf ∈ memberLeaves (mapMembers change members), holds leaf
  | [] => nofun
  | (key, value) :: rest => fun leaf mem => (List.mem_append.mp mem).elim
      (forall_leaves each (some key) value leaf) (forall_memberLeaves each rest leaf)

end

end

end Flowfile.Library.LabelledTrees
