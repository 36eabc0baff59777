/-!
# Exclusive claims

Holders claim resources. The claims are exclusive when no resource is claimed by two holders. They
stay so when claims are given up, and when a resource that nobody claims is granted to one holder.
-/

namespace Flowfile.Library.ExclusiveClaims

universe u v
variable {α : Type u} {ρ : Type v} {claims later : α → ρ → Prop}

/-- No resource is claimed by two holders. -/
def Exclusive (claims : α → ρ → Prop) : Prop :=
  ∀ first second resource, claims first resource → claims second resource → first = second

theorem Exclusive.mono (exclusive : Exclusive claims)
    (fewer : ∀ holder resource, later holder resource → claims holder resource) :
    Exclusive later :=
  fun first second resource one two =>
    exclusive first second resource (fewer _ _ one) (fewer _ _ two)

theorem Exclusive.grant (exclusive : Exclusive claims) (winner : α) (granted : ρ)
    (free : ∀ holder, claims holder granted → holder = winner)
    (more : ∀ holder resource, later holder resource →
      claims holder resource ∨ holder = winner ∧ resource = granted) :
    Exclusive later := by
  intro first second resource one two
  rcases more first resource one with earlier | ⟨rfl, rfl⟩
  · rcases more second resource two with old | ⟨rfl, rfl⟩
    · exact exclusive first second resource earlier old
    · exact free first earlier
  · rcases more second resource two with old | ⟨rfl, -⟩
    · exact (free second old).symm
    · rfl

end Flowfile.Library.ExclusiveClaims
