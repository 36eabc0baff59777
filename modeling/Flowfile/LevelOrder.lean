import Flowfile.ExecutionOrderer

/-!
# Correctness of the level-order sort

The sort processes a queue of ready nodes and lowers in-degrees. Its proof reads levels as one long
queue: `done` are the nodes already put into a stage and `pending` the ids still to be processed.
`Progress` relates both to the state of the loop: in-degrees count the edges from planned nodes that
are not done, a planned node has been visited exactly when it is done or pending, and an unvisited
one still waits for an edge.

Three layers of lemmas follow the loops: the successors of one node, one node, and one level. By the
run lemma a sort whose planned nodes lead only to planned nodes ends with each in exactly one stage.
Acyclicity is used once, at the end: a planned node that was never done has an undone predecessor.
-/

namespace Flowfile.ExecutionOrderer

open List

universe u
variable {ν : Type u} [DecidableEq ν]

/-- Effect of lowering the in-degrees along a list of edges: `fresh` are the
successors queued on the way, namely the unvisited ones that no other edge holds back. -/
structure Relaxed (edges : List ν) (base : ν → Nat) (state after : SortState ν)
    (fresh : List ν) : Prop where
  queue : after.queue = state.queue ++ fresh
  visited : after.visitedNodes = state.visitedNodes ++ fresh
  stage : after.stageNodes = state.stageNodes
  inDegree : ∀ node, after.inDegree node = (base node : Int)
  unique : fresh.Nodup
  ready : ∀ node ∈ fresh, node ∈ edges ∧ node ∉ state.visitedNodes ∧ base node = 0
  complete : ∀ node ∈ edges, base node = 0 → node ∈ state.visitedNodes ∨ node ∈ fresh

/-- Whether or not the successor is queued, its in-degree drops by one. -/
theorem relaxEdge_inDegree (state : SortState ν) (edge : ν) : (relaxEdge state edge).inDegree =
      Function.update state.inDegree edge (state.inDegree edge - 1) := by
  unfold relaxEdge
  dsimp only
  split <;> rfl

/-- The successor loop lowers every in-degree by the multiplicity of its edge.
The induction is on the remaining edges; `base` counts the edges of other nodes. -/
theorem fold_relaxEdge (edges : List ν) (base : ν → Nat) (state : SortState ν)
    (degrees : ∀ node, state.inDegree node = (edges.count node : Int) + base node) :
    ∃ fresh, Relaxed edges base state (edges.foldl relaxEdge state) fresh := by
  induction edges generalizing state with
  | nil =>
    refine ⟨[], ?_⟩
    constructor <;> simp [degrees]
  | cons edge rest ih =>
    have lowered : ∀ node, (relaxEdge state edge).inDegree node =
        (rest.count node : Int) + base node := by
      intro node
      have before := degrees node
      have here := degrees edge
      by_cases same : edge = node
      · subst same
        have counted : (edge :: rest).count edge = rest.count edge + 1 := count_cons_self
        rw [relaxEdge_inDegree, Function.update_self]
        omega
      · have counted : (edge :: rest).count node = rest.count node :=
          count_cons_of_ne (by simpa using same)
        have other : node ≠ edge := fun equal => same equal.symm
        rw [relaxEdge_inDegree, Function.update_of_ne other]
        omega
    obtain ⟨fresh, relaxed⟩ := ih (relaxEdge state edge) lowered
    have remaining : state.inDegree edge - 1 = (rest.count edge : Int) + base edge := by
      have here := degrees edge
      have counted : (edge :: rest).count edge = rest.count edge + 1 := count_cons_self
      omega
    rw [foldl_cons]
    by_cases ready : state.inDegree edge - 1 = 0 ∧ edge ∉ state.visitedNodes
    · -- The edge was the last one: its target joins the queue now.
      have step : relaxEdge state edge = { state with
            inDegree := Function.update state.inDegree edge (state.inDegree edge - 1)
            queue := state.queue ++ [edge]
            visitedNodes := state.visitedNodes ++ [edge] } := by
        simp [relaxEdge, ready]
      have isFree : base edge = 0 := by omega
      refine ⟨edge :: fresh, ?_⟩
      constructor
      · simpa [step] using relaxed.queue
      · simpa [step] using relaxed.visited
      · simpa [step] using relaxed.stage
      · exact relaxed.inDegree
      · refine nodup_cons.mpr ⟨fun present => ?_, relaxed.unique⟩
        have unseen := (relaxed.ready edge present).2.1
        simp [step] at unseen
      · intro node mem
        rcases mem_cons.mp mem with rfl | later
        · exact ⟨by simp, ready.2, isFree⟩
        · obtain ⟨inRest, unseen, free⟩ := relaxed.ready node later
          simp only [step, mem_append, not_or] at unseen
          exact ⟨mem_cons_of_mem _ inRest, unseen.1, free⟩
      · intro node mem free
        rcases mem_cons.mp mem with rfl | later
        · exact Or.inr (by simp)
        rcases relaxed.complete node later free with seen | queued
        · simp only [step, mem_append, mem_singleton] at seen
          rcases seen with old | rfl
          · exact Or.inl old
          · exact Or.inr (by simp)
        · exact Or.inr (mem_cons_of_mem _ queued)
    · have step : relaxEdge state edge = { state with
            inDegree := Function.update state.inDegree edge (state.inDegree edge - 1) } := by
        simp only [relaxEdge, if_neg ready]
      refine ⟨fresh, ?_⟩
      constructor
      · simpa [step] using relaxed.queue
      · simpa [step] using relaxed.visited
      · simpa [step] using relaxed.stage
      · exact relaxed.inDegree
      · exact relaxed.unique
      · intro node mem
        obtain ⟨inRest, unseen, free⟩ := relaxed.ready node mem
        exact ⟨mem_cons_of_mem _ inRest, by simpa [step] using unseen, free⟩
      · intro node mem free
        by_cases later : node ∈ rest
        · simpa [step] using relaxed.complete node later free
        · -- No further edge holds the node back, so only an earlier visit can.
          have same : node = edge := by
            rcases mem_cons.mp mem with same | inRest
            · exact same
            · exact absurd inRest later
          subst same
          have none_left : rest.count node = 0 := count_eq_zero.mpr later
          refine Or.inl ?_
          by_contra unseen
          exact ready ⟨by omega, unseen⟩

/-- The successor loop queues and visits the same new nodes, each once. -/
theorem fold_relaxEdge_fresh (edges : List ν) (state : SortState ν) : ∃ fresh : List ν,
      (edges.foldl relaxEdge state).queue = state.queue ++ fresh ∧
      (edges.foldl relaxEdge state).visitedNodes = state.visitedNodes ++ fresh ∧
      (edges.foldl relaxEdge state).stageNodes = state.stageNodes ∧
      fresh.Nodup ∧ ∀ node ∈ fresh, node ∈ edges ∧ node ∉ state.visitedNodes := by
  induction edges generalizing state with
  | nil => exact ⟨[], by simp⟩
  | cons edge rest ih =>
    obtain ⟨fresh, queueEq, visitedEq, stageEq, uniqueFresh, unseen⟩ :=
      ih (relaxEdge state edge)
    rw [foldl_cons]
    by_cases ready : state.inDegree edge - 1 = 0 ∧ edge ∉ state.visitedNodes
    · refine ⟨edge :: fresh, ?_⟩
      simp only [relaxEdge, if_pos ready] at queueEq visitedEq stageEq unseen ⊢
      refine ⟨by simpa using queueEq, by simpa using visitedEq, stageEq, ?_, ?_⟩
      · refine nodup_cons.mpr ⟨fun present => ?_, uniqueFresh⟩
        exact (unseen edge present).2 (by simp)
      · intro node mem
        rcases mem_cons.mp mem with rfl | later
        · exact ⟨by simp, ready.2⟩
        · obtain ⟨inRest, notSeen⟩ := unseen node later
          rw [mem_append, not_or] at notSeen
          exact ⟨mem_cons_of_mem _ inRest, notSeen.1⟩
    · refine ⟨fresh, ?_⟩
      simp only [relaxEdge, if_neg ready] at queueEq visitedEq stageEq unseen ⊢
      refine ⟨queueEq, visitedEq, stageEq, uniqueFresh, fun node mem => ?_⟩
      obtain ⟨inRest, notSeen⟩ := unseen node mem
      exact ⟨mem_cons_of_mem _ inRest, notSeen⟩

/-- The loop invariant. `done` lists staged nodes, `pending` ids still to process. -/
structure Progress (leadsToNodes : ν → List ν) (planned done pending : List ν)
    (state : SortState ν) : Prop where
  inDegree : ∀ node, state.inDegree node =
    (((planned.filter fun source => source ∉ done).flatMap leadsToNodes).count node : Int)
  done_planned : ∀ node ∈ done, node ∈ planned
  unique : (done ++ pending.filter fun node => node ∈ planned).Nodup
  visited : ∀ node ∈ planned, node ∈ state.visitedNodes ↔ node ∈ done ∨ node ∈ pending
  waiting : ∀ node ∈ planned, node ∉ state.visitedNodes → 0 < state.inDegree node

/-- No pending id waits for an edge. -/
def Ready (planned pending : List ν) (state : SortState ν) : Prop :=
  ∀ node ∈ pending, node ∈ planned → state.inDegree node = 0

theorem count_remaining (leadsToNodes : ν → List ν) (planned done : List ν)
    (unique : planned.Nodup) (node : ν) (mem : node ∈ planned) (undone : node ∉ done) (target : ν) :
    ((planned.filter fun source => source ∉ done).flatMap leadsToNodes).count target =
      (leadsToNodes node).count target +
        ((planned.filter fun source => source ∉ done ++ [node]).flatMap leadsToNodes).count
          target := by
  have split : (planned.filter fun source => source ∉ done).Perm
      (node :: planned.filter fun source => source ∉ done ++ [node]) := by
    refine (perm_ext_iff_of_nodup (unique.filter _) ?_).mpr ?_
    · exact nodup_cons.mpr ⟨by simp, unique.filter _⟩
    · intro other
      by_cases same : other = node
      · subst same
        simp [mem, undone]
      · simp [same]
  rw [(split.flatMap_right leadsToNodes).count_eq, flatMap_cons, count_append]

section

variable {leadsToNodes : ν → List ν} {planned : List ν} {table : DegreeTable ν}
  (unique : planned.Nodup)
  (closed : ∀ source ∈ planned, ∀ target ∈ leadsToNodes source, target ∈ planned)
  (adjacency : ∀ node ∈ planned, table.adjacencyList node = leadsToNodes node)
  (mapped : ∀ node, node ∈ table.nodeMap ↔ node ∈ planned)

/-- What processing some ids adds: staged nodes and newly queued ones. -/
structure Advanced (leadsToNodes : ν → List ν) (planned done pending : List ν)
    (state after : SortState ν) (staged fresh : List ν) : Prop where
  stage : after.stageNodes = state.stageNodes ++ staged
  queue : after.queue = state.queue ++ fresh
  visited : after.visitedNodes = state.visitedNodes ++ fresh
  progress : Progress leadsToNodes planned (done ++ staged) (pending ++ after.queue) after
  fresh_planned : ∀ node ∈ fresh, node ∈ planned ∧ node ∉ state.visitedNodes

include unique closed adjacency mapped

variable (done rest : List ν) (node : ν) (state : SortState ν)

omit closed in
/-- A planned id is not done yet, and processing it frees those of its successors
that no other undone node holds back. -/
theorem visitNode_relaxed
    (progress : Progress leadsToNodes planned done (node :: rest ++ state.queue) state)
    (mem : node ∈ planned) :
    node ∉ done ∧ ∃ fresh, Relaxed (leadsToNodes node)
      (fun target => ((planned.filter fun source =>
        source ∉ done ++ [node]).flatMap leadsToNodes).count target)
      { state with stageNodes := state.stageNodes ++ [node] } (visitNode table state node)
      fresh := by
  have inMap : node ∈ table.nodeMap := (mapped node).mpr mem
  obtain ⟨_, _, apart⟩ := nodup_append.mp progress.unique
  have undone : node ∉ done := fun present =>
    apart node present node (mem_filter.mpr ⟨by simp, by simpa using mem⟩) rfl
  have visit : visitNode table state node = (leadsToNodes node).foldl relaxEdge
      { state with stageNodes := state.stageNodes ++ [node] } := by
    simp [visitNode, inMap, adjacency node mem]
  refine ⟨undone, ?_⟩
  rw [visit]
  refine fold_relaxEdge (leadsToNodes node) _ _ fun target => ?_
  have counted := count_remaining leadsToNodes planned done unique node mem undone target
  have before := progress.inDegree target
  dsimp only
  omega

/-- Processing one id keeps the invariant. A foreign id is dropped; a planned one
moves to the stage and its freed successors join the queue. -/
theorem visitNode_progress
    (progress : Progress leadsToNodes planned done (node :: rest ++ state.queue) state) :
    ∃ staged fresh,
      Advanced leadsToNodes planned done rest state (visitNode table state node) staged fresh := by
  by_cases mem : node ∈ planned
  · have headPlanned : (node :: rest ++ state.queue).filter (fun other => other ∈ planned) =
        node :: (rest ++ state.queue).filter fun other => other ∈ planned := by
      simp [mem]
    obtain ⟨undone, fresh, relaxed⟩ :=
      visitNode_relaxed unique adjacency mapped done rest node state progress mem
    have freshPlanned : ∀ target ∈ fresh, target ∈ planned ∧ target ∉ state.visitedNodes := by
      intro target queued
      obtain ⟨isEdge, unseen, _⟩ := relaxed.ready target queued
      exact ⟨closed node mem target isEdge, unseen⟩
    have queueEq : (visitNode table state node).queue = state.queue ++ fresh := relaxed.queue
    have visitedEq : (visitNode table state node).visitedNodes = state.visitedNodes ++ fresh :=
      relaxed.visited
    refine ⟨[node], fresh, ?_⟩
    refine ⟨relaxed.stage, queueEq, visitedEq, ?_, freshPlanned⟩
    constructor
    · exact relaxed.inDegree
    · intro other present
      rcases mem_append.mp present with old | single
      · exact progress.done_planned other old
      · rw [mem_singleton.mp single]
        exact mem
    · -- Distinctness: the node moves from pending to done, and fresh nodes were unvisited.
      have filtered : (rest ++ (visitNode table state node).queue).filter
          (fun other => other ∈ planned) =
          (rest ++ state.queue).filter (fun other => other ∈ planned) ++ fresh := by
        rw [queueEq, ← append_assoc, filter_append]
        congr 1
        exact filter_eq_self.mpr fun other queued => by
          simp [(freshPlanned other queued).1]
      rw [filtered]
      have moved : (done ++ [node] ++ (rest ++ state.queue).filter
          fun other => other ∈ planned).Nodup := by
        rw [append_assoc, singleton_append, ← headPlanned]
        exact progress.unique
      rw [← append_assoc]
      refine nodup_append.mpr ⟨moved, relaxed.unique, ?_⟩
      intro old oldMember new newMember equal
      subst equal
      obtain ⟨inPlanned, unseen⟩ := freshPlanned old newMember
      apply unseen
      rw [progress.visited old inPlanned]
      rcases mem_append.mp oldMember with inDone | inPending
      · rcases mem_append.mp inDone with old' | single
        · exact Or.inl old'
        · rw [mem_singleton.mp single]
          exact Or.inr (by simp)
      · have later := (mem_filter.mp inPending).1
        refine Or.inr ?_
        rw [cons_append]
        exact mem_cons_of_mem _ later
    · intro other inPlanned
      rw [visitedEq, queueEq, mem_append, progress.visited other inPlanned]
      simp only [mem_append, mem_cons, not_mem_nil, or_false]
      tauto
    · intro other inPlanned unseen
      rw [visitedEq, mem_append, not_or] at unseen
      have waited := progress.waiting other inPlanned unseen.1
      rw [relaxed.inDegree other]
      by_contra notPositive
      have free : ((planned.filter fun source =>
          source ∉ done ++ [node]).flatMap leadsToNodes).count other = 0 := by
        omega
      by_cases isEdge : other ∈ leadsToNodes node
      · rcases relaxed.complete other isEdge free with seen | queued
        · exact unseen.1 seen
        · exact unseen.2 queued
      · have counted := count_remaining leadsToNodes planned done unique node mem undone other
        have before := progress.inDegree other
        have noEdge : (leadsToNodes node).count other = 0 := count_eq_zero.mpr isEdge
        omega
  · have foreign : node ∉ table.nodeMap := fun inMap => mem ((mapped node).mp inMap)
    have visit : visitNode table state node = state := by simp [visitNode, foreign]
    refine ⟨[], [], ?_⟩
    rw [visit]
    refine ⟨by simp, by simp, by simp, ?_, by simp⟩
    rw [append_nil]
    refine ⟨progress.inDegree, progress.done_planned, ?_, ?_, progress.waiting⟩
    · simpa [mem] using progress.unique
    · intro other inPlanned
      rw [progress.visited other inPlanned]
      have different : other ≠ node := fun equal => mem (equal ▸ inPlanned)
      simp [different]

/-- Processing a list of ids composes the single steps. -/
theorem fold_visitNode_progress (current done : List ν) (state : SortState ν)
    (progress : Progress leadsToNodes planned done (current ++ state.queue) state) :
    ∃ staged fresh, Advanced leadsToNodes planned done [] state
      (current.foldl (visitNode table) state) staged fresh := by
  induction current generalizing done state with
  | nil => exact ⟨[], [], by simp, by simp, by simp, by simpa using progress, by simp⟩
  | cons node rest ih =>
    obtain ⟨staged, fresh, first⟩ :=
      visitNode_progress unique closed adjacency mapped done rest node state progress
    obtain ⟨laterStaged, laterFresh, later⟩ :=
      ih (done ++ staged) (visitNode table state node) first.progress
    refine ⟨staged ++ laterStaged, fresh ++ laterFresh, ?_⟩
    rw [foldl_cons]
    constructor
    · rw [later.stage, first.stage, append_assoc]
    · rw [later.queue, first.queue, append_assoc]
    · rw [later.visited, first.visited, append_assoc]
    · simpa [append_assoc] using later.progress
    · intro other queued
      rcases mem_append.mp queued with early | late
      · exact first.fresh_planned other early
      · obtain ⟨inPlanned, unseen⟩ := later.fresh_planned other late
        rw [first.visited, mem_append, not_or] at unseen
        exact ⟨inPlanned, unseen.1⟩

/-- A level leaves the invariant with the next queue as the only pending ids. -/
theorem runLevel_progress (progress : Progress leadsToNodes planned done state.queue state) :
    ∃ fresh, (runLevel table state).queue = fresh ∧
      (runLevel table state).visitedNodes = state.visitedNodes ++ fresh ∧
      Progress leadsToNodes planned (done ++ (runLevel table state).stageNodes)
        (runLevel table state).queue (runLevel table state) ∧
      ∀ node ∈ fresh, node ∈ planned ∧ node ∉ state.visitedNodes := by
  have cleared : Progress leadsToNodes planned done
      (state.queue ++ ({ state with queue := [], stageNodes := [] } : SortState ν).queue)
      { state with queue := [], stageNodes := [] } := by
    simpa using ⟨progress.inDegree, progress.done_planned, progress.unique, progress.visited,
      progress.waiting⟩
  obtain ⟨staged, fresh, advanced⟩ :=
    fold_visitNode_progress unique closed adjacency mapped state.queue done _ cleared
  have stageEq : (runLevel table state).stageNodes = staged := by
    simpa [runLevel] using advanced.stage
  refine ⟨fresh, by simpa [runLevel] using advanced.queue, advanced.visited, ?_,
    advanced.fresh_planned⟩
  rw [stageEq]
  simpa [runLevel] using advanced.progress

omit unique closed adjacency mapped in
/-- With nothing pending, every planned node is done. A planned node whose planned
predecessors are all done has in-degree zero, so it cannot still be waiting. -/
theorem finished_perm (unique : planned.Nodup)
    (founded : WellFounded fun source target => source ∈ planned ∧ target ∈ leadsToNodes source)
    (done : List ν) (state : SortState ν)
    (progress : Progress leadsToNodes planned done [] state) : done.Perm planned := by
  have doneUnique : done.Nodup := by simpa using progress.unique
  refine (perm_ext_iff_of_nodup doneUnique unique).mpr fun node => ?_
  refine ⟨progress.done_planned node, ?_⟩
  induction node using founded.induction with
  | _ node ih =>
    intro inPlanned
    by_contra undone
    have unseen : node ∉ state.visitedNodes := by
      rw [progress.visited node inPlanned]
      simp [undone]
    have waits := progress.waiting node inPlanned unseen
    rw [progress.inDegree node, Int.natCast_pos, count_pos_iff, mem_flatMap] at waits
    obtain ⟨source, remaining, isEdge⟩ := waits
    obtain ⟨sourcePlanned, sourceUndone⟩ := mem_filter.mp remaining
    have sourceDone := ih source ⟨sourcePlanned, isEdge⟩ sourcePlanned
    simp [sourceDone] at sourceUndone

omit unique closed adjacency mapped in
theorem unvisited_lt (visited fresh : List ν) (node : ν) (queued : node ∈ fresh)
    (inPlanned : node ∈ planned) (unseen : node ∉ visited) :
    (planned.filter fun other => other ∉ visited ++ fresh).length <
      (planned.filter fun other => other ∉ visited).length := by
  have nested : (planned.filter fun other => other ∉ visited ++ fresh) =
      (planned.filter fun other => other ∉ visited).filter fun other => other ∉ fresh := by
    rw [filter_filter]
    refine filter_congr fun other _ => ?_
    simp [not_or, Bool.and_comm]
  rw [nested]
  refine length_filter_lt_length_iff_exists.mpr ⟨node, ?_, by simpa using queued⟩
  exact mem_filter.mpr ⟨inPlanned, by simpa using unseen⟩

omit closed in
theorem visitNode_ready
    (progress : Progress leadsToNodes planned done (node :: rest ++ state.queue) state)
    (ready : Ready planned (node :: rest ++ state.queue) state) :
    Ready planned (rest ++ (visitNode table state node).queue) (visitNode table state node) := by
  intro other queued inPlanned
  by_cases mem : node ∈ planned
  · obtain ⟨undone, fresh, relaxed⟩ :=
      visitNode_relaxed unique adjacency mapped done rest node state progress mem
    rw [relaxed.inDegree other]
    rw [relaxed.queue, ← append_assoc] at queued
    rcases mem_append.mp queued with old | new
    · have zero := ready other (mem_cons_of_mem _ old) inPlanned
      have before := progress.inDegree other
      have counted := count_remaining leadsToNodes planned done unique node mem undone other
      omega
    · rw [(relaxed.ready other new).2.2]
      rfl
  · have foreign : node ∉ table.nodeMap := fun inMap => mem ((mapped node).mp inMap)
    have visit : visitNode table state node = state := by simp [visitNode, foreign]
    rw [visit] at queued ⊢
    exact ready other (mem_cons_of_mem _ queued) inPlanned

theorem runLevel_ready (progress : Progress leadsToNodes planned done state.queue state)
    (ready : Ready planned state.queue state) :
    Ready planned (runLevel table state).queue (runLevel table state) := by
  have level : ∀ (current done : List ν) (state : SortState ν),
      Progress leadsToNodes planned done (current ++ state.queue) state →
      Ready planned (current ++ state.queue) state →
      Ready planned (current.foldl (visitNode table) state).queue
        (current.foldl (visitNode table) state) := by
    intro current
    induction current with
    | nil => exact fun _ _ _ ready => ready
    | cons node rest ih =>
      intro done state progress ready
      obtain ⟨staged, _, advanced⟩ :=
        visitNode_progress unique closed adjacency mapped done rest node state progress
      exact ih (done ++ staged) _ advanced.progress
        (visitNode_ready unique adjacency mapped done rest node state progress ready)
  refine level state.queue done { state with queue := [], stageNodes := [] } ?_ ?_
  · simpa using ⟨progress.inDegree, progress.done_planned, progress.unique, progress.visited,
      progress.waiting⟩
  · simpa [Ready] using ready

omit unique closed adjacency mapped in
theorem Ready.predecessors_done {done pending : List ν} {state : SortState ν} {node source : ν}
    (ready : Ready planned pending state)
    (progress : Progress leadsToNodes planned done pending state) (queued : node ∈ pending)
    (inPlanned : node ∈ planned) (sourcePlanned : source ∈ planned)
    (edge : node ∈ leadsToNodes source) : source ∈ done := by
  have zero := ready node queued inPlanned
  rw [progress.inDegree node, Int.natCast_eq_zero, count_eq_zero] at zero
  by_contra undone
  refine zero (mem_flatMap.mpr ⟨source, mem_filter.mpr ⟨sourcePlanned, ?_⟩, edge⟩)
  simpa using undone

omit unique closed adjacency mapped in
/-- A level stages the known ids of its queue. -/
theorem runLevel_stageNodes :
    (runLevel table state).stageNodes = state.queue.filter fun node => node ∈ table.nodeMap := by
  have level : ∀ (current : List ν) (state : SortState ν),
      (current.foldl (visitNode table) state).stageNodes =
        state.stageNodes ++ current.filter fun node => node ∈ table.nodeMap := by
    intro current
    induction current with
    | nil => simp
    | cons node rest ih =>
      intro state
      rw [foldl_cons, ih]
      by_cases inMap : node ∈ table.nodeMap
      · obtain ⟨_, _, _, stage, _⟩ := fold_relaxEdge_fresh (table.adjacencyList node)
          { state with stageNodes := state.stageNodes ++ [node] }
        rw [visitNode, if_pos inMap, stage]
        simp [inMap]
      · rw [visitNode, if_neg inMap]
        simp [inMap]
  rw [runLevel, level, nil_append]

/-- The sort finishes within one round per unvisited planned node and two more, with
nothing pending. If it starts with ready ids, the predecessors of each staged node are
done before its stage. The induction is on the fuel; each round either visits a new
planned node or empties the queue. -/
theorem performTopologicalSort_runs (fuel : Nat) (done : List ν) (state : SortState ν)
    (progress : Progress leadsToNodes planned done state.queue state)
    (enough : (planned.filter fun node => node ∉ state.visitedNodes).length + 2 ≤ fuel ∨
      (state.queue = [] ∧ 1 ≤ fuel)) :
    ∃ stages final, performTopologicalSort table fuel state = some stages ∧
      Progress leadsToNodes planned (done ++ stages.flatten) [] final ∧
      (∀ stage ∈ stages, stage ≠ []) ∧
      (Ready planned state.queue state → ∀ earlier stage later,
        stages = earlier ++ stage :: later → ∀ node ∈ stage, ∀ source ∈ planned,
          node ∈ leadsToNodes source → source ∈ done ++ earlier.flatten) := by
  induction fuel generalizing done state with
  | zero => omega
  | succ fuel ih =>
    by_cases empty : state.queue = []
    · rw [empty] at progress
      refine ⟨[], state, by simp [performTopologicalSort, empty], by simpa using progress,
        by simp, ?_⟩
      intro _ earlier stage later split
      simp at split
    · obtain ⟨fresh, queueEq, visitedEq, nextProgress, freshPlanned⟩ :=
        runLevel_progress unique closed adjacency mapped done state progress
      have rounds :
          (planned.filter fun node => node ∉ state.visitedNodes).length + 2 ≤ fuel + 1 := by
        rcases enough with rounds | ⟨noQueue, _⟩
        · exact rounds
        · exact absurd noQueue empty
      have nextEnough : (planned.filter fun node =>
            node ∉ (runLevel table state).visitedNodes).length + 2 ≤ fuel ∨
          ((runLevel table state).queue = [] ∧ 1 ≤ fuel) := by
        cases fresh with
        | nil => exact Or.inr ⟨queueEq, by omega⟩
        | cons node rest =>
        obtain ⟨inPlanned, unseen⟩ := freshPlanned node (by simp)
        have fewer := unvisited_lt state.visitedNodes
          (node :: rest) node (by simp) inPlanned unseen
        rw [visitedEq]
        omega
      obtain ⟨later, final, sorted, covered, nonempty, ordered⟩ :=
        ih (done ++ (runLevel table state).stageNodes) (runLevel table state)
          nextProgress nextEnough
      have staged : ∀ node ∈ (runLevel table state).stageNodes, Ready planned state.queue state →
          ∀ source ∈ planned, node ∈ leadsToNodes source → source ∈ done := by
        intro node mem ready source sourcePlanned edge
        rw [runLevel_stageNodes] at mem
        obtain ⟨queued, inMap⟩ := mem_filter.mp mem
        exact ready.predecessors_done progress queued
          ((mapped node).mp (of_decide_eq_true inMap)) sourcePlanned edge
      have nextReady := runLevel_ready unique closed adjacency mapped done state progress
      by_cases noStage : (runLevel table state).stageNodes = []
      · refine ⟨later, final, by simp [performTopologicalSort, empty, sorted, noStage],
          by simpa [noStage] using covered, nonempty, ?_⟩
        intro ready
        simpa [noStage] using ordered (nextReady ready)
      · refine ⟨(runLevel table state).stageNodes :: later, final,
          by simp [performTopologicalSort, empty, sorted, noStage],
          by simpa [append_assoc] using covered, ?_, ?_⟩
        · exact forall_mem_cons.mpr ⟨noStage, nonempty⟩
        · intro ready earlier stage rest split node mem source sourcePlanned edge
          cases earlier with
          | nil =>
            obtain ⟨rfl, rfl⟩ := List.cons.inj split
            simpa using staged node mem ready source sourcePlanned edge
          | cons first others =>
          obtain ⟨rfl, tailSplit⟩ := List.cons.inj split
          simpa [append_assoc] using
            ordered (nextReady ready) others stage rest tailSplit node mem source
              sourcePlanned edge

theorem performTopologicalSort_covers
    (founded : WellFounded fun source target => source ∈ planned ∧ target ∈ leadsToNodes source)
    (fuel : Nat) (done : List ν) (state : SortState ν)
    (progress : Progress leadsToNodes planned done state.queue state)
    (enough : (planned.filter fun node => node ∉ state.visitedNodes).length + 2 ≤ fuel ∨
      (state.queue = [] ∧ 1 ≤ fuel)) :
    ∃ stages, performTopologicalSort table fuel state = some stages ∧
      (done ++ stages.flatten).Perm planned := by
  obtain ⟨stages, final, sorted, finished, _⟩ := performTopologicalSort_runs unique closed
    adjacency mapped fuel done state progress enough
  exact ⟨stages, sorted, finished_perm unique founded _ final finished⟩

end

/-- Ids that have been staged or queued are distinct and visited, whatever the edges. -/
structure Once (table : DegreeTable ν) (done pending : List ν) (state : SortState ν) : Prop where
  unique : (done ++ pending).Nodup
  seen : ∀ node ∈ done ++ pending, node ∈ state.visitedNodes
  mapped : ∀ node ∈ done, node ∈ table.nodeMap

section

variable (table : DegreeTable ν)
include table

/-- Processing one id keeps ids distinct. -/
theorem visitNode_once (done rest : List ν) (node : ν)
    (state : SortState ν) (once : Once table done (node :: rest ++ state.queue) state) :
    ∃ staged, (visitNode table state node).stageNodes = state.stageNodes ++ staged ∧
      Once table (done ++ staged) (rest ++ (visitNode table state node).queue)
        (visitNode table state node) := by
  by_cases inMap : node ∈ table.nodeMap
  · obtain ⟨fresh, queueEq, visitedEq, stageEq, uniqueFresh, unseen⟩ :=
      fold_relaxEdge_fresh (table.adjacencyList node)
        { state with stageNodes := state.stageNodes ++ [node] }
    have visit : visitNode table state node = (table.adjacencyList node).foldl relaxEdge
        { state with stageNodes := state.stageNodes ++ [node] } := by
      simp [visitNode, inMap]
    rw [← visit] at queueEq visitedEq stageEq
    refine ⟨[node], stageEq, ?_⟩
    have regrouped : done ++ [node] ++ (rest ++ (visitNode table state node).queue) =
        done ++ (node :: rest ++ state.queue) ++ fresh := by
      rw [queueEq]
      simp
    constructor
    · rw [regrouped]
      refine nodup_append.mpr ⟨once.unique, uniqueFresh, ?_⟩
      intro old oldMember new newMember equal
      exact (unseen new newMember).2 (equal ▸ once.seen old oldMember)
    · intro other mem
      rw [regrouped] at mem
      rw [visitedEq]
      rcases mem_append.mp mem with old | new
      · exact mem_append_left _ (once.seen other old)
      · exact mem_append_right _ new
    · intro other mem
      rcases mem_append.mp mem with old | single
      · exact once.mapped other old
      · rw [mem_singleton.mp single]
        exact inMap
  · have visit : visitNode table state node = state := by simp [visitNode, inMap]
    refine ⟨[], by simp [visit], ?_⟩
    rw [visit, append_nil]
    have dropped : (done ++ (rest ++ state.queue)).Sublist
        (done ++ (node :: rest ++ state.queue)) :=
      List.Sublist.append (List.Sublist.refl done) (sublist_cons_self _ _)
    refine ⟨once.unique.sublist dropped, ?_, once.mapped⟩
    intro other mem
    exact once.seen other (dropped.subset mem)

/-- Processing a list of ids keeps ids distinct. -/
theorem fold_visitNode_once (current done : List ν)
    (state : SortState ν) (once : Once table done (current ++ state.queue) state) :
    ∃ staged,
      (current.foldl (visitNode table) state).stageNodes = state.stageNodes ++ staged ∧
      Once table (done ++ staged) (current.foldl (visitNode table) state).queue
        (current.foldl (visitNode table) state) := by
  induction current generalizing done state with
  | nil => exact ⟨[], by simp, by simpa using once⟩
  | cons node rest ih =>
    obtain ⟨staged, stageEq, next⟩ := visitNode_once table done rest node state once
    obtain ⟨later, laterEq, last⟩ := ih (done ++ staged) _ next
    refine ⟨staged ++ later, ?_, ?_⟩
    · rw [foldl_cons, laterEq, stageEq, append_assoc]
    · simpa [append_assoc] using last

variable (fuel : Nat) (state : SortState ν) (stages : List (List ν))

theorem performTopologicalSort_level (nonempty : state.queue ≠ [])
    (sorted : performTopologicalSort table (fuel + 1) state = some stages) :
    ∃ later, performTopologicalSort table fuel (runLevel table state) = some later ∧
      stages.flatten = (runLevel table state).stageNodes ++ later.flatten := by
  simp only [performTopologicalSort, List.isEmpty_iff, nonempty, if_false,
    Option.map_eq_some_iff] at sorted
  obtain ⟨later, laterSorted, stagesEq⟩ := sorted
  refine ⟨later, laterSorted, ?_⟩
  rw [← stagesEq]
  by_cases noStage : (runLevel table state).stageNodes = []
  · simp [noStage]
  · simp [noStage]

theorem performTopologicalSort_done (empty : state.queue = [])
    (sorted : performTopologicalSort table (fuel + 1) state = some stages) : stages = [] := by
  simpa [performTopologicalSort, empty] using sorted.symm

theorem performTopologicalSort_once (done : List ν) (state : SortState ν) (stages : List (List ν))
    (sorted : performTopologicalSort table fuel state = some stages)
    (once : Once table done state.queue state) :
    (done ++ stages.flatten).Nodup ∧ ∀ node ∈ done ++ stages.flatten, node ∈ table.nodeMap := by
  induction fuel generalizing done state stages with
  | zero => simp [performTopologicalSort] at sorted
  | succ fuel ih =>
    by_cases empty : state.queue = []
    · have none := performTopologicalSort_done table fuel state stages empty sorted
      subst none
      have doneUnique : done.Nodup := by simpa [empty] using once.unique
      simpa using ⟨doneUnique, once.mapped⟩
    · obtain ⟨later, laterSorted, flattened⟩ :=
        performTopologicalSort_level table fuel state stages empty sorted
      have cleared : Once table done (state.queue ++
          ({ state with queue := [], stageNodes := [] } : SortState ν).queue)
          { state with queue := [], stageNodes := [] } := by
        simpa using ⟨once.unique, once.seen, once.mapped⟩
      obtain ⟨staged, stageEq, next⟩ := fold_visitNode_once table state.queue done _ cleared
      have stagedIs : (runLevel table state).stageNodes = staged := by
        simpa [runLevel] using stageEq
      have result := ih (done ++ staged) (runLevel table state) later
        laterSorted next
      simpa [flattened, stagedIs, append_assoc] using result

end

theorem count_relaxEdge (edges : List ν) (state : SortState ν) (node : ν) (noEdge : node ∉ edges) :
    (edges.foldl relaxEdge state).queue.count node = state.queue.count node := by
  obtain ⟨fresh, queueEq, _, _, _, unseen⟩ := fold_relaxEdge_fresh edges state
  have absent : fresh.count node = 0 :=
    count_eq_zero.mpr fun mem => noEdge (unseen node mem).1
  rw [queueEq, count_append, absent, Nat.add_zero]

/-- A mapped node without incoming edges is staged as often as it is processed. -/
theorem count_fold_visitNode (table : DegreeTable ν) (node : ν) (inMap : node ∈ table.nodeMap)
    (noEdge : ∀ source, node ∉ table.adjacencyList source) (current : List ν)
    (state : SortState ν) :
    (current.foldl (visitNode table) state).queue.count node = state.queue.count node ∧
      (current.foldl (visitNode table) state).stageNodes.count node =
        state.stageNodes.count node + current.count node := by
  induction current generalizing state with
  | nil => simp
  | cons head rest ih =>
    obtain ⟨queueCount, stageCount⟩ := ih (visitNode table state head)
    rw [foldl_cons, queueCount, stageCount, count_cons]
    by_cases headInMap : head ∈ table.nodeMap
    · have visit : visitNode table state head = (table.adjacencyList head).foldl relaxEdge
          { state with stageNodes := state.stageNodes ++ [head] } := by
        simp [visitNode, headInMap]
      obtain ⟨_, _, _, stageEq, _⟩ := fold_relaxEdge_fresh (table.adjacencyList head)
        { state with stageNodes := state.stageNodes ++ [head] }
      refine ⟨?_, ?_⟩
      · rw [visit, count_relaxEdge _ _ _ (noEdge head)]
      · rw [visit, stageEq, count_append, count_singleton]
        omega
    · have different : head ≠ node := fun equal => headInMap (equal ▸ inMap)
      simp [visitNode, headInMap, different]

theorem count_performTopologicalSort (table : DegreeTable ν) (node : ν)
    (inMap : node ∈ table.nodeMap) (noEdge : ∀ source, node ∉ table.adjacencyList source)
    (fuel : Nat) (state : SortState ν) (stages : List (List ν))
    (sorted : performTopologicalSort table fuel state = some stages) :
    stages.flatten.count node = state.queue.count node := by
  induction fuel generalizing state stages with
  | zero => simp [performTopologicalSort] at sorted
  | succ fuel ih =>
    by_cases empty : state.queue = []
    · simp [performTopologicalSort_done table fuel state stages empty sorted, empty]
    obtain ⟨later, laterSorted, flattened⟩ :=
      performTopologicalSort_level table fuel state stages empty sorted
    obtain ⟨queueCount, stageCount⟩ := count_fold_visitNode table node inMap noEdge state.queue
      { state with queue := [], stageNodes := [] }
    have laterCount := ih (runLevel table state) later laterSorted
    rw [flattened, count_append, laterCount]
    simp only [count_nil, Nat.zero_add] at queueCount stageCount
    simp only [runLevel, queueCount, stageCount, Nat.add_zero]

end Flowfile.ExecutionOrderer
