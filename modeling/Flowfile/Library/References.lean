import Mathlib.Logic.Basic

/-!
# References between rows

Rows of several kinds refer to each other by id. What is there and what is referred to are two
predicates on kinds and ids; a state is sound when everything that is referred to is there.

When rows and references are added, only the new references need a look. When rows are removed, a
sound state stays sound exactly when no reference that is left names a removed row.
-/

namespace Flowfile.Library.References

variable {κ ι : Type}

def Resolved (there referred : κ → ι → Prop) : Prop :=
  ∀ kind id, referred kind id → there kind id

variable {there there' referred referred' : κ → ι → Prop}

section

variable (resolved : Resolved there referred)
include resolved

/-- With fewer references and no row less, a sound state stays sound. -/
theorem Resolved.mono (fewer : ∀ kind id, referred' kind id → referred kind id)
    (kept : ∀ kind id, there kind id → there' kind id) : Resolved there' referred' :=
  fun kind id refers => kept kind id (resolved kind id (fewer kind id refers))

theorem Resolved.add_iff {new : κ → ι → Prop} (kept : ∀ kind id, there kind id → there' kind id)
    (added : ∀ kind id, referred' kind id ↔ referred kind id ∨ new kind id) :
    Resolved there' referred' ↔ Resolved there' new := by
  constructor
  · intro resolved' kind id isNew
    exact resolved' kind id ((added kind id).mpr (Or.inr isNew))
  · intro newResolved kind id refers
    rcases (added kind id).mp refers with old | isNew
    · exact kept kind id (resolved kind id old)
    · exact newResolved kind id isNew

theorem Resolved.remove_iff {removed : κ → ι → Prop}
    (fewer : ∀ kind id, referred' kind id → referred kind id)
    (left : ∀ kind id, there' kind id ↔ there kind id ∧ ¬removed kind id) :
    Resolved there' referred' ↔ ∀ kind id, removed kind id → ¬referred' kind id := by
  constructor
  · intro resolved' kind id isRemoved refers
    exact ((left kind id).mp (resolved' kind id refers)).2 isRemoved
  · intro none kind id refers
    exact (left kind id).mpr
      ⟨resolved kind id (fewer kind id refers), fun isRemoved => none kind id isRemoved refers⟩

end

end Flowfile.Library.References
