import Mathlib.Data.Set.Finite.Basic

/-!
# Finite directed graphs without cycles

An edge relation is acyclic when its transitive closure is irreflexive. Nothing
is assumed about the ambient type: finiteness enters only through a list that
contains the endpoints of every edge.

A relation that strictly
increases a natural rank is acyclic. Adding one edge to an acyclic relation keeps
it acyclic unless a path already leads back from the new target to the new
source. And on a finite support an acyclic relation is well founded in both
directions, which turns walks along edges into inductions.
-/

namespace Flowfile.Library.FiniteDag

open Relation.ReflTransGen (refl)

universe u
variable {α : Type u}

/-- No vertex reaches itself along one or more edges. -/
def Acyclic (edge : α → α → Prop) : Prop := ∀ vertex, ¬ Relation.TransGen edge vertex vertex

/-- Removing edges cannot create a cycle. -/
theorem Acyclic.mono {larger smaller : α → α → Prop} (acyclic : Acyclic larger)
    (included : ∀ source target, smaller source target → larger source target) :
    Acyclic smaller := by
  intro vertex cycle
  exact acyclic vertex (Relation.TransGen.mono included _ _ cycle)

/-- Acyclicity does not depend on the direction in which edges are read. -/
theorem Acyclic.swap {edge : α → α → Prop} (acyclic : Acyclic edge) :
    Acyclic (fun target source => edge source target) := by
  intro vertex cycle
  exact acyclic vertex (Relation.transGen_swap.mp cycle)

theorem rank_lt_of_path {edge : α → α → Prop} (rank : α → Nat)
    (raises : ∀ source target, edge source target → rank source < rank target)
    {source target : α} (path : Relation.TransGen edge source target) :
    rank source < rank target := by
  induction path with
  | single step => exact raises _ _ step
  | tail _ step ih => exact ih.trans (raises _ _ step)

theorem acyclic_of_rank {edge : α → α → Prop} (rank : α → Nat)
    (raises : ∀ source target, edge source target → rank source < rank target) :
    Acyclic edge := by
  intro vertex cycle
  exact Nat.lt_irrefl _ (rank_lt_of_path rank raises cycle)

/-- Adjoin one edge to a relation. -/
def withEdge (edge : α → α → Prop) (newSource newTarget : α) (source target : α) : Prop :=
  edge source target ∨ (source = newSource ∧ target = newTarget)

/-- A path in the extended relation either avoids the new edge or splits at its
first and last use into a path up to the new source and a path from the new target. -/
theorem path_withEdge {edge : α → α → Prop} {newSource newTarget source target : α}
    (path : Relation.TransGen (withEdge edge newSource newTarget) source target) :
    Relation.TransGen edge source target ∨ (Relation.ReflTransGen edge source newSource ∧
        Relation.ReflTransGen edge newTarget target) := by
  induction path with
  | single step =>
    rcases step with old | ⟨rfl, rfl⟩
    · exact Or.inl (Relation.TransGen.single old)
    · exact Or.inr ⟨refl, refl⟩
  | tail _ step ih =>
    rcases step with old | ⟨rfl, rfl⟩
    · rcases ih with before | ⟨toSource, fromTarget⟩
      · exact Or.inl (before.tail old)
      · exact Or.inr ⟨toSource, fromTarget.tail old⟩
    · rcases ih with before | ⟨toSource, _⟩
      · exact Or.inr ⟨before.to_reflTransGen, refl⟩
      · exact Or.inr ⟨toSource, refl⟩

/-- The guard of an incremental cycle check: an edge whose target does not reach
its source may be added. -/
theorem acyclic_withEdge {edge : α → α → Prop} (acyclic : Acyclic edge)
    (newSource newTarget : α) (noReturn : ¬ Relation.ReflTransGen edge newTarget newSource) :
    Acyclic (withEdge edge newSource newTarget) := by
  intro vertex cycle
  rcases path_withEdge cycle with old | ⟨toSource, fromTarget⟩
  · exact acyclic vertex old
  · exact noReturn (fromTarget.trans toSource)

section

variable {edge : α → α → Prop} (vertices : List α)

/-- When every edge starts in a finite list, following edges backwards from any
vertex terminates. -/
theorem wellFounded_of_sources (acyclic : Acyclic edge)
    (supported : ∀ source target, edge source target → source ∈ vertices) :
    WellFounded edge := by
  let onVertices : {vertex // vertex ∈ vertices} → {vertex // vertex ∈ vertices} → Prop :=
    fun source target => Relation.TransGen edge source.1 target.1
  have finite : Finite {vertex // vertex ∈ vertices} := List.finite_toSet vertices
  have transitive : IsTrans _ onVertices := ⟨fun _ _ _ first second => first.trans second⟩
  have irreflexive : Std.Irrefl onVertices := ⟨fun vertex => acyclic vertex.1⟩
  have founded : WellFounded onVertices := Finite.wellFounded_of_trans_of_irrefl onVertices
  have listed : ∀ vertex : {vertex // vertex ∈ vertices}, Acc edge vertex.1 := by
    intro vertex
    induction vertex using founded.induction with
    | _ vertex ih =>
      refine Acc.intro _ fun source step => ?_
      exact ih ⟨source, supported _ _ step⟩ (Relation.TransGen.single step)
  refine ⟨fun vertex => Acc.intro _ fun source step => ?_⟩
  exact listed ⟨source, supported _ _ step⟩

/-- When every edge ends in a finite list, following edges forwards from any
vertex terminates. -/
theorem wellFounded_of_targets (acyclic : Acyclic edge)
    (supported : ∀ source target, edge source target → target ∈ vertices) :
    WellFounded (fun target source => edge source target) :=
  wellFounded_of_sources vertices acyclic.swap fun target source step =>
    supported source target step

end

end Flowfile.Library.FiniteDag
