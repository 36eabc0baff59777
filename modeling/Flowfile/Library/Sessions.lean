import Mathlib.Data.List.Induction

/-!
# Sessions over a stored state

A session works on a copy of a stored state and writes it back when it commits. What was changed
since the last commit is dropped when the session is closed. Work items change the copy; some of
them commit, and then write back what the items before them left behind as well.

If each item commits or not according to the copy that it finds, a list of items splits in two:
those up to the last one that commits, all of which are stored, and those after it, none of which
is.
-/

namespace Flowfile.Library.Sessions

open List

universe u v

/-- A stored state and the copy that a session works on. -/
structure Session (σ : Type u) where
  committed : σ
  current : σ

variable {σ : Type u} {α : Type v}

def Session.opened (state : σ) : Session σ :=
  ⟨state, state⟩

def Session.modify (change : σ → σ) (session : Session σ) : Session σ :=
  { session with current := change session.current }

/-- Write the copy back. -/
def Session.commit (session : Session σ) : Session σ :=
  .opened session.current

/-- What is stored when the session ends. -/
def Session.close (session : Session σ) : σ :=
  session.committed

/-- Work items that change the copy as `next` says and write it back where `commits` says. -/
structure Batched (work : Session σ → α → Session σ) (next : σ → α → σ)
    (commits : σ → α → Prop) : Prop where
  current : ∀ session item, (work session item).current = next session.current item
  stored : ∀ session item, commits session.current item →
    (work session item).committed = next session.current item
  unstored : ∀ session item, ¬ commits session.current item →
    (work session item).committed = session.committed

def Quiet (next : σ → α → σ) (commits : σ → α → Prop) (start : σ) (items : List α) : Prop :=
  ∀ earlier item later, items = earlier ++ item :: later → ¬ commits (earlier.foldl next start) item

def EndsStored (next : σ → α → σ) (commits : σ → α → Prop) (start : σ) (items : List α) : Prop :=
  ∀ earlier item, items = earlier ++ [item] → commits (earlier.foldl next start) item

section

variable {work : Session σ → α → Session σ} {next : σ → α → σ} {commits : σ → α → Prop}

theorem Batched.foldl_current (batched : Batched work next commits) (session : Session σ)
    (items : List α) :
    (items.foldl work session).current = items.foldl next session.current := by
  induction items generalizing session with
  | nil => rfl
  | cons item rest ih =>
    rw [foldl_cons, foldl_cons, ih, batched.current]

theorem Quiet.concat {start : σ} {items : List α} (quiet : Quiet next commits start items)
    {item : α} (uncommitted : ¬ commits (items.foldl next start) item) :
    Quiet next commits start (items ++ [item]) := by
  intro earlier other later split
  cases later using List.reverseRecOn with
  | nil =>
    obtain ⟨rfl, same⟩ := append_inj' split rfl
    cases same
    exact uncommitted
  | append_singleton later last =>
    rw [← cons_append, ← append_assoc] at split
    obtain ⟨rfl, _⟩ := append_inj' split rfl
    exact quiet earlier other later rfl

theorem Batched.foldl_committed (batched : Batched work next commits) (start : σ) (items : List α) :
    ∃ written dropped, items = written ++ dropped ∧
      (items.foldl work (.opened start)).close = written.foldl next start ∧
      EndsStored next commits start written ∧
      Quiet next commits (written.foldl next start) dropped := by
  induction items using List.reverseRecOn with
  | nil =>
    refine ⟨[], [], rfl, rfl, fun earlier item split => ?_, fun earlier item later split => ?_⟩
    · exact absurd split.symm (by simp)
    · exact absurd split.symm (by simp)
  | append_singleton items item ih =>
    obtain ⟨written, dropped, rfl, closed, ends, quiet⟩ := ih
    have current := batched.foldl_current (.opened start) (written ++ dropped)
    rw [foldl_append, foldl_cons, foldl_nil]
    by_cases committed : commits ((written ++ dropped).foldl next start) item
    · refine ⟨written ++ dropped ++ [item], [], by simp, ?_, ?_, ?_⟩
      · have stored := batched.stored ((written ++ dropped).foldl work (.opened start)) item
          (by rw [current]; exact committed)
        rw [Session.close, stored, current, @List.foldl_append _ _ _ _ _ [item], foldl_cons,
          foldl_nil]
        rfl
      · intro earlier other split
        obtain ⟨rfl, same⟩ := append_inj' split rfl
        cases same
        exact committed
      · intro earlier other later split
        exact absurd split.symm (by simp)
    · refine ⟨written, dropped ++ [item], by simp, ?_, ends, ?_⟩
      · have unstored := batched.unstored ((written ++ dropped).foldl work (.opened start)) item
          (by rw [current]; exact committed)
        rw [Session.close, unstored]
        exact closed
      · apply quiet.concat
        rwa [← foldl_append]

end

end Flowfile.Library.Sessions
