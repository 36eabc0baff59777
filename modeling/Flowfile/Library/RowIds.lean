import Mathlib.Data.List.Nodup

/-!
# Ids of new rows

A table without a counter of its own gives a new row the id after the largest one that is there. The
id is new among the rows, but may be one that a deleted row had.
-/

namespace Flowfile.Library.RowIds

def nextId (ids : List Nat) : Nat :=
  ids.max?.getD 0 + 1

theorem lt_nextId {ids : List Nat} {id : Nat} (listed : id ∈ ids) : id < nextId ids := by
  rw [nextId]
  cases largest : ids.max? with
  | none =>
    rw [List.max?_eq_none_iff.mp largest] at listed
    cases listed
  | some bound =>
    have bounded := (List.max?_eq_some_iff.mp largest).2 id listed
    rw [Option.getD_some]
    omega

theorem nextId_fresh (ids : List Nat) : nextId ids ∉ ids :=
  fun listed => Nat.lt_irrefl _ (lt_nextId listed)

theorem nodup_concat {α : Type} {id : α → Nat} {rows : List α} (distinct : (rows.map id).Nodup)
    {new : α} (fresh : id new = nextId (rows.map id)) : ((rows ++ [new]).map id).Nodup := by
  rw [List.map_append, List.map_singleton, List.nodup_append]
  refine ⟨distinct, List.nodup_singleton _, fun first mem second isNew => ?_⟩
  rw [List.mem_singleton] at isNew
  rintro rfl
  rw [isNew, fresh] at mem
  exact nextId_fresh _ mem

end Flowfile.Library.RowIds
