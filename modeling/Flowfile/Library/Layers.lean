import Flowfile.Library.FiniteDag

/-!
# Layers of a directed graph

Layers divide the vertices of a graph such that every edge into a layer comes from an
earlier one. They exist for acyclic graphs only, since the position of its layer is a
rank of a vertex that every edge raises. For the same reason no path joins two vertices
of one layer.
-/

namespace Flowfile.Library.Layers

open FiniteDag List

universe u
variable {α : Type u}

/-- The layers hold every vertex once, no layer is empty, and what leads into a layer stands
in the layers before it. -/
structure Layering (vertices : List α) (edge : α → α → Prop) (layers : List (List α)) : Prop where
  partition : layers.flatten.Perm vertices
  nonempty : ∀ layer ∈ layers, layer ≠ []
  earlier : ∀ before layer after, layers = before ++ layer :: after → ∀ target ∈ layer,
    ∀ source, edge source target → source ∈ before.flatten

variable {vertices : List α} {edge : α → α → Prop} {layers : List (List α)}

def position [DecidableEq α] (layers : List (List α)) (vertex : α) : Nat :=
  layers.findIdx fun layer => vertex ∈ layer

theorem position_lt_length [DecidableEq α] {vertex : α} (mem : vertex ∈ layers.flatten) :
    position layers vertex < layers.length := by
  obtain ⟨layer, isLayer, inside⟩ := mem_flatten.mp mem
  exact findIdx_lt_length_of_exists ⟨layer, isLayer, decide_eq_true inside⟩

variable {layer : List α}

theorem position_eq [DecidableEq α] {before after : List (List α)}
    (distinct : (before ++ layer :: after).flatten.Nodup) {vertex : α} (mem : vertex ∈ layer) :
    position (before ++ layer :: after) vertex = before.length := by
  rw [flatten_append, flatten_cons] at distinct
  have apart : ∀ other ∈ before, vertex ∉ other := fun other isEarlier inside =>
    (nodup_append.mp distinct).2.2 vertex (mem_flatten.mpr ⟨other, isEarlier, inside⟩)
      vertex (mem_append_left _ mem) rfl
  have missing : before.findIdx (fun layer => decide (vertex ∈ layer)) = before.length :=
    findIdx_eq_length.mpr fun other isEarlier => decide_eq_false (apart other isEarlier)
  rw [position, findIdx_append, missing, if_neg (Nat.lt_irrefl _), findIdx_cons, decide_eq_true mem]
  exact Nat.zero_add _

namespace Layering

variable (layering : Layering vertices edge layers)
include layering

theorem position_lt [DecidableEq α] (ends : ∀ source target, edge source target → target ∈ vertices)
    {source target : α} (step : edge source target) :
    position layers source < position layers target := by
  have staged : target ∈ layers.flatten := layering.partition.mem_iff.mpr (ends _ _ step)
  have bound := position_lt_length staged
  have inside : target ∈ layers[position layers target] :=
    of_decide_eq_true (findIdx_getElem (w := bound))
  have split : layers = layers.take (position layers target) ++
      layers[position layers target] :: layers.drop (position layers target + 1) := by
    rw [← drop_eq_getElem_cons bound, take_append_drop]
  have before := layering.earlier _ _ _ split target inside source step
  obtain ⟨layer, isEarlier, mem⟩ := mem_flatten.mp before
  obtain ⟨index, small, rfl⟩ := mem_take_iff_getElem.mp isEarlier
  have first : index < position layers target := by omega
  refine Nat.lt_of_le_of_lt ?_ first
  by_contra later
  have missing := not_of_lt_findIdx (Nat.lt_of_not_le later)
  simp [mem] at missing

/-- Only acyclic graphs have layers. -/
theorem acyclic (ends : ∀ source target, edge source target → target ∈ vertices) :
    Acyclic edge := by
  classical
  exact acyclic_of_rank (position layers) fun _ _ step => layering.position_lt ends step

theorem independent (ends : ∀ source target, edge source target → target ∈ vertices)
    (unique : vertices.Nodup) (isLayer : layer ∈ layers) {first second : α}
    (inFirst : first ∈ layer) (inSecond : second ∈ layer) :
    ¬ Relation.TransGen edge first second := by
  classical
  intro path
  have raised := rank_lt_of_path (position layers)
    (fun _ _ step => layering.position_lt ends step) path
  have distinct : layers.flatten.Nodup := layering.partition.nodup_iff.mpr unique
  obtain ⟨before, after, rfl⟩ := append_of_mem isLayer
  rw [position_eq distinct inFirst, position_eq distinct inSecond] at raised
  exact Nat.lt_irrefl _ raised

end Layering

end Flowfile.Library.Layers
