import Flowfile.Library.PartialLists
import Mathlib.Data.List.Nodup
import Mathlib.Logic.Relation

/-!
# Walks over graphs

A sweep follows the edges of a list from a node with a queue, taking each node once. It passes each
edge at most once, so with more fuel than there are edges what it has visited is closed under the
edges.

A walk goes depth first through the inputs of a node and lists each node after its inputs. It takes
each node once, so its depth is bounded by the nodes that it has not visited; a walk that is checked
gives up when it comes back to a node that it is still below. What is listed is sorted when the walk
is checked or the inputs have no cycle, and inputs that can be sorted have none.
-/

namespace Flowfile.Library.GraphWalks

open PartialLists List

universe u
variable {α : Type u} [DecidableEq α]

variable {node : α} {visited : List α}

section

variable (edges : List (α × α))

def targetsOf (node : α) : List α :=
  (edges.filter fun edge => edge.1 = node).map Prod.snd

def sweep : Nat → List α → List α → List α
  | 0, _, visited => visited
  | _ + 1, [], visited => visited
  | fuel + 1, node :: queue, visited =>
    if node ∈ visited then sweep fuel queue visited
    else sweep fuel (queue ++ targetsOf edges node) (node :: visited)

def downstream (node : α) : List α :=
  sweep edges (edges.length + 1) [node] []

/-- The edges that a sweep has still to pass. -/
def remaining (visited : List α) : List (α × α) :=
  edges.filter fun edge => edge.1 ∉ visited

variable {edges}

theorem length_remaining (fresh : node ∉ visited) : (remaining edges visited).length =
      (remaining edges (node :: visited)).length + (targetsOf edges node).length := by
  induction edges with
  | nil => rfl
  | cons edge rest ih =>
    rw [remaining, targetsOf, length_map] at ih ⊢
    rw [remaining] at ih ⊢
    simp only [filter_cons, mem_cons, not_or, decide_eq_true_eq]
    by_cases here : edge.1 = node
    · rw [if_pos (here ▸ fresh), if_neg (fun both => both.1 here), if_pos here]
      simp only [length_cons]
      simpa [← Nat.add_assoc] using ih
    by_cases passed : edge.1 ∈ visited
    · rw [if_neg (fun absent => absent passed), if_neg (fun both => both.2 passed), if_neg here]
      simpa using ih
    · rw [if_pos passed, if_pos ⟨here, passed⟩, if_neg here]
      simp only [length_cons]
      simp only [mem_cons, not_or] at ih
      omega

theorem sweep_closed {fuel : Nat} {queue visited : List α}
    (enough : queue.length + (remaining edges visited).length ≤ fuel)
    (queued : ∀ edge ∈ edges, edge.1 ∈ visited → edge.2 ∈ visited ∨ edge.2 ∈ queue) :
    (∀ node ∈ visited, node ∈ sweep edges fuel queue visited) ∧
      (∀ node ∈ queue, node ∈ sweep edges fuel queue visited) ∧
      ∀ edge ∈ edges, edge.1 ∈ sweep edges fuel queue visited →
        edge.2 ∈ sweep edges fuel queue visited := by
  induction fuel generalizing queue visited with
  | zero =>
    obtain rfl := eq_nil_of_length_eq_zero
      (Nat.eq_zero_of_le_zero (Nat.le_of_add_right_le enough))
    exact ⟨fun _ mem => mem, fun _ mem => (not_mem_nil mem).elim,
      fun edge mem reached => (queued edge mem reached).resolve_right not_mem_nil⟩
  | succ fuel ih =>
    match queue with
    | [] =>
      exact ⟨fun _ mem => mem, fun _ mem => (not_mem_nil mem).elim,
        fun edge mem reached => (queued edge mem reached).resolve_right not_mem_nil⟩
    | node :: queue =>
      rw [length_cons] at enough
      rw [sweep]
      by_cases known : node ∈ visited
      · rw [if_pos known]
        obtain ⟨kept, reached, closed⟩ := @ih queue visited (by omega)
          fun edge mem source => (queued edge mem source).elim .inl
            fun target => (mem_cons.mp target).elim (fun same => .inl (same ▸ known)) .inr
        refine ⟨kept, fun other mem => ?_, closed⟩
        rcases mem_cons.mp mem with rfl | mem
        · exact kept other known
        · exact reached other mem
      · rw [if_neg known]
        have passed : (remaining edges visited).length = _ := length_remaining known
        obtain ⟨kept, reached, closed⟩ := @ih
          (queue ++ targetsOf edges node) (node :: visited) (by rw [length_append]; omega) (by
            intro edge mem source
            rcases mem_cons.mp source with here | before
            · exact .inr (mem_append_right _ (mem_map_of_mem
                (mem_filter.mpr ⟨mem, decide_eq_true here⟩)))
            rcases queued edge mem before with before | waiting
            · exact .inl (mem_cons_of_mem _ before)
            · rcases mem_cons.mp waiting with same | waiting
              · exact .inl (same ▸ mem_cons_self)
              · exact .inr (mem_append_left _ waiting))
        refine ⟨fun other mem => kept other (mem_cons_of_mem _ mem),
          fun other mem => ?_, closed⟩
        rcases mem_cons.mp mem with rfl | mem
        · exact kept other mem_cons_self
        · exact reached other (mem_append_left _ mem)

variable (edges) in
theorem downstream_spec (node : α) : node ∈ downstream edges node ∧
    ∀ edge ∈ edges, edge.1 ∈ downstream edges node → edge.2 ∈ downstream edges node := by
  obtain ⟨_, queued, closed⟩ := @sweep_closed α _ edges (edges.length + 1) [node] []
    (by rw [length_singleton, Nat.add_comm]
        exact Nat.add_le_add_right (length_filter_le _ _) 1)
    (fun _ _ source => (not_mem_nil source).elim)
  exact ⟨queued node mem_cons_self, closed⟩

end

variable {fuel : Nat} {stack : List α} {state after : List α × List α} {nodes order : List α}

section

variable (next : α → Option (List α)) (checked : Bool)

def walk : Nat → List α → List α × List α → α → Option (List α × List α)
  | 0, _, _, _ => none
  | fuel + 1, stack, (visited, order), node =>
    if node ∈ visited then
      if checked && decide (node ∈ stack) then none else some (visited, order)
    else match next node with
      | none => some (node :: visited, order)
      | some inputs =>
        (inputs.foldlM (walk fuel (node :: stack)) (node :: visited, order)).map fun below =>
          (below.1, below.2 ++ [node])

variable {next checked}

theorem walk_listed (listed : ∀ other ∈ state.2, (next other).isSome)
    (returned : walk next checked fuel stack state node = some after) :
    ∀ other ∈ after.2, (next other).isSome := by
  induction fuel generalizing stack state after node with
  | zero => cases returned
  | succ fuel ih =>
    obtain ⟨visited, order⟩ := state
    rw [walk] at returned
    split at returned
    · split at returned
      · cases returned
      · cases returned
        exact listed
    · split at returned
      · cases returned
        exact listed
      case h_2 inputs found =>
        obtain ⟨below, walked, rfl⟩ := Option.map_eq_some_iff.mp returned
        have before := foldlM_preserves _ (fun state => ∀ other ∈ state.2, (next other).isSome)
          inputs _ below (fun _ _ _ _ => ih) listed walked
        intro other mem
        rcases mem_append.mp mem with mem | here
        · exact before other mem
        · rw [mem_singleton.mp here, found]
          rfl

def Names (next : α → Option (List α)) (node input : α) : Prop :=
  ∃ inputs, next node = some inputs ∧ input ∈ inputs

/-- The more is visited, the less is left. -/
theorem unvisited_le {after : List α} (grown : visited ⊆ after) :
    (nodes.filter fun node => node ∉ after).length ≤
      (nodes.filter fun node => node ∉ visited).length := by
  refine List.Sublist.length_le (monotone_filter_right nodes fun node absent => ?_)
  rw [decide_eq_true_eq] at absent ⊢
  exact fun present => absent (grown present)

theorem unvisited_lt (known : node ∈ nodes) (fresh : node ∉ visited) :
    (nodes.filter fun other => other ∉ node :: visited).length <
      (nodes.filter fun other => other ∉ visited).length := by
  have mem : node ∈ nodes.filter fun other => other ∉ visited :=
    mem_filter.mpr ⟨known, decide_eq_true fresh⟩
  have parted : (nodes.filter fun other => other ∉ node :: visited) =
      (nodes.filter fun other => other ∉ visited).filter fun other => other ≠ node := by
    rw [filter_filter]
    exact filter_congr fun other _ => by simp [not_or]
  rw [parted]
  exact length_filter_lt_length_iff_exists.mpr ⟨node, mem, by simp⟩

theorem walk_returns {nodes : List α} (known : ∀ node, (next node).isSome → node ∈ nodes)
    (acyclic : checked → ∀ node, ¬Relation.TransGen (Names next) node node) {fuel : Nat}
    {stack : List α} {state : List α × List α} {node : α}
    (enough : (nodes.filter fun other => other ∉ state.1).length < fuel)
    (below : ∀ above ∈ stack, Relation.TransGen (Names next) above node) :
    ∃ after, walk next checked fuel stack state node = some after ∧ state.1 ⊆ after.1 := by
  induction fuel generalizing stack state node with
  | zero => exact absurd enough (Nat.not_lt_zero _)
  | succ fuel ih =>
    obtain ⟨visited, order⟩ := state
    rw [walk]
    split
    · rw [if_neg]
      · exact ⟨_, rfl, fun _ mem => mem⟩
      · intro cyclic
        rw [Bool.and_eq_true, decide_eq_true_eq] at cyclic
        exact acyclic cyclic.1 node (below node cyclic.2)
    case isFalse fresh =>
      split
      · exact ⟨_, rfl, subset_cons_self _ _⟩
      case h_2 inputs found =>
        -- The node is one that had not been visited, so there is fuel for its inputs.
        have fewer := unvisited_lt (known node (by rw [found]; rfl)) fresh
        obtain ⟨after, walked, visitedAfter⟩ := foldlM_returns
          (walk next checked fuel (node :: stack)) (fun state => node :: visited ⊆ state.1) inputs
          (node :: visited, order)
          (fun state input mem grown => by
            obtain ⟨after, walked, more⟩ := @ih (node :: stack) state input
              (Nat.lt_of_le_of_lt (unvisited_le grown)
                (Nat.lt_of_lt_of_le fewer (Nat.le_of_lt_succ enough)))
              (by
                intro above aboveMember
                rcases mem_cons.mp aboveMember with rfl | aboveMember
                · exact .single ⟨inputs, found, mem⟩
                · exact (below above aboveMember).tail ⟨inputs, found, mem⟩)
            exact ⟨after, walked, fun _ mem => more (grown mem)⟩)
          (fun _ mem => mem)
        exact ⟨(after.1, after.2 ++ [node]), by rw [walked, Option.map_some],
          fun _ mem => visitedAfter (mem_cons_of_mem _ mem)⟩

def Sorted (next : α → Option (List α)) (order : List α) : Prop :=
  ∀ node ∈ order, ∀ input, Names next node input → (next input).isSome →
    order.idxOf input < order.idxOf node

structure Walked (next : α → Option (List α)) (stack visited order : List α) : Prop where
  listed : ∀ node ∈ order, node ∈ visited ∧ (next node).isSome
  nodup : order.Nodup
  complete : ∀ node ∈ visited, (next node).isSome → node ∈ order ∨ node ∈ stack
  above : ∀ node ∈ stack, node ∈ visited ∧ node ∉ order
  sorted : Sorted next order

theorem Sorted.append (sorted : Sorted next order) (fresh : node ∉ order)
    (inputs : ∀ input, Names next node input → (next input).isSome → input ∈ order) :
    Sorted next (order ++ [node]) := by
  intro other mem input named known
  rcases mem_append.mp mem with old | new
  · have earlier := sorted other old input named known
    have listed : input ∈ order := by
      by_contra absent
      rw [idxOf_eq_length_iff.mpr absent] at earlier
      exact Nat.lt_irrefl _ (Nat.lt_trans earlier (idxOf_lt_length_iff.mpr old))
    rw [idxOf_append_of_mem old, idxOf_append_of_mem listed]
    exact earlier
  · obtain rfl := mem_singleton.mp new
    have listed := inputs input named known
    rw [idxOf_append_of_mem listed, idxOf_append_of_notMem fresh]
    exact Nat.lt_add_right _ (idxOf_lt_length_iff.mpr listed)

theorem Walked.foldlM {step : List α × List α → α → Option (List α × List α)}
    {values : List α} {start finish : List α × List α}
    (each : ∀ value ∈ values, ∀ state after, Walked next stack state.1 state.2 →
      step state value = some after → Walked next stack after.1 after.2 ∧ state.1 ⊆ after.1 ∧
        state.2 ⊆ after.2 ∧ ((next value).isSome → value ∈ after.2))
    (walked : Walked next stack start.1 start.2)
    (returned : values.foldlM step start = some finish) :
    Walked next stack finish.1 finish.2 ∧ start.1 ⊆ finish.1 ∧ start.2 ⊆ finish.2 ∧
      ∀ value ∈ values, (next value).isSome → value ∈ finish.2 := by
  induction values generalizing start with
  | nil =>
    cases returned
    exact ⟨walked, fun _ mem => mem, fun _ mem => mem, nofun⟩
  | cons value rest ih =>
    rw [foldlM_cons] at returned
    obtain ⟨middle, first, later⟩ := Option.bind_eq_some_iff.mp returned
    obtain ⟨inside, seen, listed, isListed⟩ :=
      each value mem_cons_self start middle walked first
    obtain ⟨insideLast, seenLater, listedLater, others⟩ := ih
      (fun other mem => each other (mem_cons_of_mem _ mem)) inside later
    refine ⟨insideLast, fun _ mem => seenLater (seen mem),
      fun _ mem => listedLater (listed mem), fun other mem known => ?_⟩
    rcases mem_cons.mp mem with rfl | mem
    · exact listedLater (isListed known)
    · exact others other mem known

theorem walk_walked (acyclic : checked = false → ∀ node, ¬Relation.TransGen (Names next) node node)
    {fuel : Nat} {stack visited order : List α} {after : List α × List α} {node : α}
    (below : ∀ above ∈ stack, Relation.TransGen (Names next) above node)
    (walked : Walked next stack visited order)
    (returned : walk next checked fuel stack (visited, order) node = some after) :
    Walked next stack after.1 after.2 ∧ visited ⊆ after.1 ∧ order ⊆ after.2 ∧
      node ∈ after.1 ∧ ((next node).isSome → node ∈ after.2) := by
  induction fuel generalizing stack visited order after node with
  | zero => cases returned
  | succ fuel ih =>
    rw [walk] at returned
    split at returned
    case isTrue known =>
      split at returned
      · cases returned
      case isFalse passes =>
        cases returned
        refine ⟨walked, fun _ mem => mem, fun _ mem => mem, known, fun hasInputs => ?_⟩
        refine (walked.complete node known hasInputs).resolve_right fun isAbove => ?_
        cases checked with
        | true => exact passes (by simp [isAbove])
        | false => exact acyclic rfl node (below node isAbove)
    case isFalse fresh =>
      have apart : node ∉ stack := fun isAbove => fresh (walked.above node isAbove).1
      have unlisted : node ∉ order := fun mem => fresh (walked.listed node mem).1
      split at returned
      case h_1 missing =>
        cases returned
        refine ⟨⟨fun other mem => ?_, walked.nodup, fun other mem hasInputs => ?_,
          fun other isAbove => ?_, walked.sorted⟩, subset_cons_self _ _,
          fun _ mem => mem, mem_cons_self, fun hasInputs => ?_⟩
        · exact ⟨mem_cons_of_mem _ (walked.listed other mem).1, (walked.listed other mem).2⟩
        · rcases mem_cons.mp mem with rfl | mem
          · rw [missing] at hasInputs
            cases hasInputs
          · exact walked.complete other mem hasInputs
        · exact ⟨mem_cons_of_mem _ (walked.above other isAbove).1, (walked.above other isAbove).2⟩
        · rw [missing] at hasInputs
          cases hasInputs
      case h_2 inputs found =>
        obtain ⟨last, folded, rfl⟩ := Option.map_eq_some_iff.mp returned
        have entered : Walked next (node :: stack) (node :: visited) order := by
          refine ⟨fun other mem => ⟨mem_cons_of_mem _ (walked.listed other mem).1,
            (walked.listed other mem).2⟩, walked.nodup, fun other mem hasInputs => ?_,
            fun other isAbove => ?_, walked.sorted⟩
          · rcases mem_cons.mp mem with rfl | mem
            · exact .inr mem_cons_self
            · exact (walked.complete other mem hasInputs).imp_right (mem_cons_of_mem _)
          · rcases mem_cons.mp isAbove with rfl | isAbove
            · exact ⟨mem_cons_self, unlisted⟩
            · exact ⟨mem_cons_of_mem _ (walked.above other isAbove).1,
                (walked.above other isAbove).2⟩
        obtain ⟨inside, seen, listed, allListed⟩ := Walked.foldlM (fun input isInput state middle
            inside first => by
          obtain ⟨insideMiddle, seen, listed, _, isListed⟩ := @ih
            (node :: stack) state.1 state.2 middle input (fun above isAbove => by
              rcases mem_cons.mp isAbove with rfl | isAbove
              · exact .single ⟨inputs, found, isInput⟩
              · exact (below above isAbove).tail ⟨inputs, found, isInput⟩) inside first
          exact ⟨insideMiddle, seen, listed, isListed⟩) entered folded
        obtain ⟨isSeen, stillUnlisted⟩ := inside.above node mem_cons_self
        refine ⟨⟨fun other mem => ?_, ?_, fun other mem hasInputs => ?_,
          fun other isAbove => ?_, inside.sorted.append stillUnlisted fun input named known => ?_⟩,
          fun _ mem => seen (mem_cons_of_mem _ mem),
          fun _ mem => mem_append_left _ (listed mem), isSeen,
          fun _ => mem_append_right _ mem_cons_self⟩
        · rcases mem_append.mp mem with old | new
          · exact inside.listed other old
          · rw [mem_singleton.mp new, found]
            exact ⟨isSeen, rfl⟩
        · refine nodup_append.mpr ⟨inside.nodup, nodup_singleton _, ?_⟩
          rintro first old second new rfl
          exact stillUnlisted (mem_singleton.mp new ▸ old)
        · rcases inside.complete other mem hasInputs with old | isAbove
          · exact .inl (mem_append_left _ old)
          · rcases mem_cons.mp isAbove with rfl | isAbove
            · exact .inl (mem_append_right _ mem_cons_self)
            · exact .inr isAbove
        · obtain ⟨isSeenAbove, notListed⟩ := inside.above other (mem_cons_of_mem _ isAbove)
          refine ⟨isSeenAbove, fun mem => ?_⟩
          rcases mem_append.mp mem with old | new
          · exact notListed old
          · exact apart (mem_singleton.mp new ▸ isAbove)
        · obtain ⟨others, foundOthers, isInput⟩ := named
          cases found.symm.trans foundOthers
          exact allListed input isInput known

theorem walks_walked (acyclic : checked = false → ∀ node, ¬Relation.TransGen (Names next) node node)
    (returned : nodes.foldlM (walk next checked fuel []) ([], []) = some after) :
    Walked next [] after.1 after.2 ∧ ∀ node ∈ nodes, (next node).isSome → node ∈ after.2 := by
  have nothing : Walked next ([] : List α) [] [] := ⟨nofun, .nil, nofun, nofun, nofun⟩
  obtain ⟨walked, _, _, all⟩ := Walked.foldlM (fun node _ state after walked stepped => by
    obtain ⟨inside, seen, listed, _, isListed⟩ := walk_walked acyclic
      (fun _ isAbove => (not_mem_nil isAbove).elim) walked stepped
    exact ⟨inside, seen, listed, isListed⟩) nothing returned
  exact ⟨walked, all⟩

theorem walk_extends (returned : walk next checked fuel stack state node = some after) :
    ∃ new, after.2 = state.2 ++ new ∧
      ∀ other ∈ new, Relation.ReflTransGen (Names next) node other := by
  induction fuel generalizing stack state after node with
  | zero => cases returned
  | succ fuel ih =>
    obtain ⟨visited, order⟩ := state
    rw [walk] at returned
    split at returned
    · split at returned
      · cases returned
      · cases returned
        exact ⟨[], (append_nil _).symm, nofun⟩
    · split at returned
      · cases returned
        exact ⟨[], (append_nil _).symm, nofun⟩
      case h_2 inputs found =>
        obtain ⟨below, folded, rfl⟩ := Option.map_eq_some_iff.mp returned
        obtain ⟨new, extended, reached⟩ := foldlM_preserves _
          (fun state => ∃ new, state.2 = order ++ new ∧
            ∀ other ∈ new, Relation.ReflTransGen (Names next) node other) inputs _ below
          (fun state input next isInput ⟨new, extended, reached⟩ stepped => by
            obtain ⟨more, longer, reachedMore⟩ := ih stepped
            refine ⟨new ++ more, by rw [longer, extended, append_assoc], ?_⟩
            intro other mem
            rcases mem_append.mp mem with mem | mem
            · exact reached other mem
            · exact .head ⟨inputs, found, isInput⟩ (reachedMore other mem))
          ⟨[], (append_nil _).symm, nofun⟩ folded
        refine ⟨new ++ [node], ?_, fun other mem => ?_⟩
        · rw [extended, append_assoc]
        · rcases mem_append.mp mem with mem | here
          · exact reached other mem
          · exact mem_singleton.mp here ▸ .refl

theorem Sorted.reaches (sorted : Sorted next order)
    (complete : ∀ node, (next node).isSome → node ∈ order) {input : α}
    (reaches : Relation.TransGen (Names next) node input) (known : (next input).isSome) :
    order.idxOf input < order.idxOf node := by
  induction reaches with
  | single named =>
    obtain ⟨inputs, found, mem⟩ := named
    exact sorted node (complete node (by rw [found]; rfl)) _ ⟨inputs, found, mem⟩ known
  | @tail middle input _ named ih =>
    obtain ⟨inputs, found, mem⟩ := named
    have between : (next middle).isSome := by rw [found]; rfl
    exact Nat.lt_trans
      (sorted middle (complete middle between) input ⟨inputs, found, mem⟩ known)
      (ih between)

/-- Inputs that can be sorted have no cycle. -/
theorem Sorted.acyclic (sorted : Sorted next order)
    (complete : ∀ node, (next node).isSome → node ∈ order) (node : α) :
    ¬Relation.TransGen (Names next) node node := by
  intro cycle
  have known : (next node).isSome := by
    cases Relation.TransGen.head'_iff.mp cycle with
    | intro input first =>
      obtain ⟨inputs, found, _⟩ := first.1
      rw [found]
      rfl
  exact Nat.lt_irrefl _ (sorted.reaches complete cycle known)

end

end Flowfile.Library.GraphWalks
