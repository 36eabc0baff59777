import Flowfile.Library.Doubles
import Flowfile.Library.FiniteDag
import Flowfile.Library.PartialLists
import Mathlib.Data.List.Sort
import Mathlib.Tactic.Linarith

/-!
# The layered layout of a flow

Nodes are taken stage by stage: first those without inputs, then each time the nodes whose inputs
have all been taken. The stage gives the column of a node, its place among the ids of the stage the
row. What a cycle holds back is put into a last stage.

Rows are computed with floating-point numbers, so that stages are centred to half a unit. As long as
all rows lie below 2^52 every step is exact and no two nodes share a place. Beyond, rows of a stage
are rounded together.
-/

namespace Flowfile.Layout

open Library.Doubles Library.FiniteDag Library.PartialLists List

/-- What a layout reads of a flow. Both are sets; they are listed in any order. -/
structure Flow where
  nodeIds : List Int
  distinct : nodeIds.Nodup
  connections : List (Int × Int)

def sorted (ids : List Int) : List Int :=
  ids.insertionSort (· ≤ ·)

section

variable (graph : Flow)

/-- The connections between nodes of the flow. -/
def Flow.known : List (Int × Int) :=
  graph.connections.filter fun edge => edge.1 ∈ graph.nodeIds ∧ edge.2 ∈ graph.nodeIds

/-- Each target once. Their order is not read. -/
def Flow.adj (source : Int) : List Int :=
  ((graph.known.filter fun edge => edge.1 = source).map Prod.snd).dedup

def Flow.revAdj (target : Int) : List Int :=
  ((graph.known.filter fun edge => edge.2 = target).map Prod.fst).dedup

def Flow.inDegree (id : Int) : Int :=
  (graph.revAdj id).length

/-- In-degrees that count the inputs not taken yet, and the nodes that have become ready. -/
structure Ready where
  inDegree : Int → Int
  queue : List Int

def Ready.lower (state : Ready) (target : Int) : Ready where
  inDegree := Function.update state.inDegree target (state.inDegree target - 1)
  queue := if state.inDegree target - 1 = 0 then state.queue ++ [target] else state.queue

/-- Take the nodes of a stage. -/
def Flow.runStage (inDegree : Int → Int) (stage : List Int) : Ready :=
  stage.foldl (fun state source => (sorted (graph.adj source)).foldl Ready.lower state)
    ⟨inDegree, []⟩

/-- Stage after stage until no node is ready. The loop carries fuel. -/
def Flow.stagesFrom : Nat → (Int → Int) → List Int → Option (List (List Int))
  | _, _, [] => some []
  | 0, _, _ :: _ => none
  | fuel + 1, inDegree, id :: queue => do
    let stage := sorted (id :: queue)
    let after := graph.runStage inDegree stage
    let later ← Flow.stagesFrom fuel after.inDegree after.queue
    some (stage :: later)

/-- The stages of all nodes. -/
def Flow.stages (fuel : Nat) : Option (List (List Int)) := do
  let initialSources := sorted (graph.nodeIds.filter fun id => graph.inDegree id = 0)
  let stages ← graph.stagesFrom fuel graph.inDegree initialSources
  let unprocessed := sorted (graph.nodeIds.filter fun id => id ∉ stages.flatten)
  some (if unprocessed = [] then stages else stages ++ [unprocessed])

end

/-- A result in floating-point numbers. One that is too large raises, here or when it becomes a
whole number. -/
def float (value : Rat) : Option Rat :=
  if |toDouble value| < 2 ^ 1024 then some (toDouble value) else none

/-- The whole number that is left without the digits after the point. -/
def truncate (value : Rat) : Int :=
  if 0 ≤ value then value.floor else value.ceil

def stageHeight (ySpacing : Int) (count : Nat) : Int :=
  ((count : Int) - 1) * ySpacing

def maxStageHeight (ySpacing : Int) (stages : List (List Int)) : Int :=
  stages.foldl (fun height stage => max height (stageHeight ySpacing stage.length)) 0

/-- The row of a node, at this place in a stage with that many nodes. -/
def rowAt (ySpacing initialY highest : Int) (count place : Nat) : Option Int := do
  let centerOffset ← float (highest / 2)
  let top ← float initialY
  let center ← float (top + centerOffset)
  let half ← float (stageHeight ySpacing count / 2)
  let start ← float (center - half)
  let step ← float ((place * ySpacing : Int) : Rat)
  let row ← float (start + step)
  some (truncate row)

/-- A node in its stage. -/
structure Slot where
  id : Int
  stage : Nat
  count : Nat
  place : Nat

def slots (stages : List (List Int)) : List Slot :=
  stages.zipIdx.flatMap fun entry =>
    (sorted entry.1).zipIdx.map fun node => ⟨node.1, entry.2, entry.1.length, node.2⟩

/-- The node ids with their positions, in the order in which they are assigned. -/
def calculateLayeredLayout (fuel : Nat) (graph : Flow) (xSpacing ySpacing initialY : Int) :
    Option (List (Int × Int × Int)) := do
  let stages ← graph.stages fuel
  (slots stages).mapM fun slot => do
    let row ← rowAt ySpacing initialY (maxStageHeight ySpacing stages) slot.count slot.place
    some (slot.id, slot.stage * xSpacing, row)

theorem perm_sorted (ids : List Int) : (sorted ids).Perm ids :=
  perm_insertionSort _ ids

variable (graph : Flow)

theorem mem_adj {source target : Int} :
    target ∈ graph.adj source ↔ (source, target) ∈ graph.known := by
  simp [Flow.adj]

theorem mem_revAdj {source target : Int} :
    source ∈ graph.revAdj target ↔ (source, target) ∈ graph.known := by
  simp [Flow.revAdj]

theorem foldl_lower (targets : List Int) (state : Ready) (id : Int) :
    (targets.foldl Ready.lower state).inDegree id = state.inDegree id - targets.count id ∧
      (id ∈ (targets.foldl Ready.lower state).queue ↔ id ∈ state.queue ∨
        0 < state.inDegree id ∧ state.inDegree id ≤ targets.count id) := by
  induction targets generalizing state with
  | nil =>
    simp only [foldl_nil, count_nil, Int.natCast_zero, sub_zero, true_and]
    constructor
    · exact Or.inl
    · rintro (queued | ⟨positive, negative⟩)
      · exact queued
      · omega
  | cons target rest ih =>
    obtain ⟨degree, queued⟩ := ih (state.lower target)
    rw [foldl_cons, degree, queued]
    by_cases own : id = target
    · subst own
      have lowered : (state.lower id).inDegree id = state.inDegree id - 1 := by simp [Ready.lower]
      have joined : id ∈ (state.lower id).queue ↔ id ∈ state.queue ∨ state.inDegree id = 1 := by
        rw [Ready.lower]
        split
        case isTrue zero => simp [show state.inDegree id = 1 by omega]
        case isFalse more => simp [show state.inDegree id ≠ 1 by omega]
      rw [lowered, joined, count_cons_self]
      refine ⟨by push_cast; ring, ?_⟩
      by_cases here : id ∈ state.queue
      · simp [here]
      · simp only [here, false_or]
        omega
    · have lowered : (state.lower target).inDegree id = state.inDegree id := by
        simp [Ready.lower, own]
      have joined : id ∈ (state.lower target).queue ↔ id ∈ state.queue := by
        rw [Ready.lower]
        split <;> simp [own]
      rw [lowered, joined, count_cons_of_ne (Ne.symm own)]
      exact ⟨rfl, Iff.rfl⟩

theorem nodup_lower (targets : List Int) (state : Ready) (distinct : state.queue.Nodup)
    (spent : ∀ id ∈ state.queue, state.inDegree id ≤ 0) :
    (targets.foldl Ready.lower state).queue.Nodup := by
  induction targets generalizing state with
  | nil => exact distinct
  | cons target rest ih =>
    apply ih
    · rw [Ready.lower]
      split
      case isTrue zero =>
        refine nodup_append.mpr ⟨distinct, nodup_singleton _, ?_⟩
        rintro id queued other isTarget rfl
        rw [mem_singleton.mp isTarget] at queued
        have none := spent target queued
        omega
      case isFalse => exact distinct
    · intro id queued
      obtain ⟨degree, joined⟩ := foldl_lower [target] state id
      simp only [foldl_cons, foldl_nil] at degree joined
      rw [degree]
      rcases joined.mp queued with old | ⟨_, few⟩
      · have none := spent id old
        omega
      · omega

variable {stage : List Int}

theorem count_targets (distinct : stage.Nodup) (id : Int) :
    (stage.flatMap fun source => sorted (graph.adj source)).count id =
      ((graph.revAdj id).filter (· ∈ stage)).length := by
  have each : (stage.flatMap fun source => sorted (graph.adj source)).count id =
      (stage.filter fun source => id ∈ graph.adj source).length := by
    clear distinct
    induction stage with
    | nil => rfl
    | cons source rest ih =>
      have nodup : (graph.adj source).Nodup := nodup_dedup _
      rw [flatMap_cons, count_append, ih, (perm_sorted _).count_eq, nodup.count, filter_cons]
      by_cases leads : id ∈ graph.adj source
      · simp only [leads, if_true, decide_true, length_cons]
        omega
      · simp [leads]
  have inputs : (graph.revAdj id).Nodup := nodup_dedup _
  rw [each]
  apply List.Perm.length_eq
  rw [perm_ext_iff_of_nodup (distinct.filter _) (inputs.filter _)]
  intro source
  simp [mem_adj, mem_revAdj, and_comm]

/-- What is known between two stages: a node is taken or ready exactly when all its inputs are
taken, and in-degrees count the others. -/
structure Flow.Waiting (done queue : List Int) (inDegree : Int → Int) : Prop where
  distinct : (done ++ queue).Nodup
  known : ∀ id ∈ done ++ queue, id ∈ graph.nodeIds
  ready : ∀ id ∈ graph.nodeIds, id ∈ done ++ queue ↔ ∀ source ∈ graph.revAdj id, source ∈ done
  degrees : ∀ id ∈ graph.nodeIds, inDegree id = ((graph.revAdj id).filter (· ∉ done)).length

variable {graph} {done queue : List Int} {inDegree : Int → Int}

theorem Flow.Waiting.start : graph.Waiting []
    (sorted (graph.nodeIds.filter fun id => graph.inDegree id = 0)) graph.inDegree where
  distinct := (perm_sorted _).nodup_iff.mpr (graph.distinct.filter _)
  known id mem := (mem_filter.mp ((perm_sorted _).mem_iff.mp mem)).1
  ready id isNode := by
    rw [nil_append, (perm_sorted _).mem_iff, mem_filter]
    simp [isNode, Flow.inDegree, eq_nil_iff_forall_not_mem]
  degrees id _ := by simp [Flow.inDegree]

/-- Taking a stage leads to the next one. -/
theorem Flow.Waiting.next (waiting : graph.Waiting done queue inDegree) :
    graph.Waiting (done ++ sorted queue) (graph.runStage inDegree (sorted queue)).queue
      (graph.runStage inDegree (sorted queue)).inDegree := by
  have same := perm_sorted queue
  obtain ⟨_, nodup, apart⟩ := nodup_append.mp waiting.distinct
  have stageNodup : (sorted queue).Nodup := same.nodup_iff.mpr nodup
  have flat : graph.runStage inDegree (sorted queue) =
      ((sorted queue).flatMap fun source => sorted (graph.adj source)).foldl Ready.lower
        ⟨inDegree, []⟩ := (foldl_flatMap ..).symm
  -- Inputs not taken before the stage are in it, or not taken after it.
  have parts : ∀ id, ((graph.revAdj id).filter (· ∉ done)).length =
      ((graph.revAdj id).filter (· ∈ sorted queue)).length +
        ((graph.revAdj id).filter (· ∉ done ++ sorted queue)).length := by
    intro id
    have inStage : ((graph.revAdj id).filter (· ∉ done)).filter (· ∈ sorted queue) =
        (graph.revAdj id).filter (· ∈ sorted queue) := by
      rw [filter_filter]
      apply filter_congr
      intro source _
      rw [Bool.and_eq_left_iff_imp]
      exact fun staged => decide_eq_true fun taken =>
        apart source taken source (same.mem_iff.mp (of_decide_eq_true staged)) rfl
    have after : (((graph.revAdj id).filter (· ∉ done)).filter
        fun source => !decide (source ∈ sorted queue)) =
          (graph.revAdj id).filter (· ∉ done ++ sorted queue) := by
      rw [filter_filter]
      apply filter_congr
      intro source _
      simp [Bool.and_comm]
    rw [length_eq_length_filter_add fun source => decide (source ∈ sorted queue), inStage,
      after]
  have queued : ∀ id, id ∈ (graph.runStage inDegree (sorted queue)).queue ↔
      0 < inDegree id ∧ inDegree id ≤ ((graph.revAdj id).filter (· ∈ sorted queue)).length := by
    intro id
    rw [flat, (foldl_lower _ _ id).2, count_targets graph stageNodup]
    simp
  have isNode : ∀ id ∈ (graph.runStage inDegree (sorted queue)).queue, id ∈ graph.nodeIds := by
    intro id mem
    obtain ⟨positive, few⟩ := (queued id).mp mem
    obtain ⟨source, listed⟩ := exists_mem_of_length_pos
      (show 0 < ((graph.revAdj id).filter (· ∈ sorted queue)).length by omega)
    have edge := (mem_revAdj graph).mp (mem_filter.mp listed).1
    simpa using (of_decide_eq_true (mem_filter.mp edge).2).2
  have settled : ∀ id ∈ graph.nodeIds, id ∈ done ++ sorted queue ↔ inDegree id = 0 := by
    intro id node
    rw [mem_append, same.mem_iff, ← mem_append, waiting.ready id node, waiting.degrees id node]
    simp [eq_nil_iff_forall_not_mem, mem_filter]
  constructor
  case distinct =>
    refine nodup_append.mpr ⟨(same.append_left done).nodup_iff.mpr waiting.distinct, ?_, ?_⟩
    · rw [flat]
      exact nodup_lower _ _ nodup_nil (by simp)
    · rintro id taken _ mem rfl
      have zero := (settled id (isNode id mem)).mp taken
      have positive := ((queued id).mp mem).1
      omega
  case known =>
    intro id mem
    rcases mem_append.mp mem with old | new
    · exact waiting.known id ((same.append_left done).mem_iff.mp old)
    · exact isNode id new
  case ready =>
    intro id node
    have degree := waiting.degrees id node
    have part := parts id
    have closed : ((graph.revAdj id).filter (· ∉ done ++ sorted queue)).length = 0 ↔
        ∀ source ∈ graph.revAdj id, source ∈ done ++ sorted queue := by
      simp [eq_nil_iff_forall_not_mem, mem_filter, or_iff_not_imp_left]
    rw [← closed, mem_append, settled id node, queued]
    omega
  case degrees =>
    intro id node
    rw [flat, (foldl_lower _ _ id).1, count_targets graph stageNodup]
    change inDegree id - _ = _
    rw [waiting.degrees id node, parts id]
    push_cast
    ring

variable (graph) in
/-- The inputs of the nodes of each stage are taken before. -/
def Flow.Layered : List Int → List (List Int) → Prop
  | _, [] => True
  | done, stage :: later =>
    (∀ id ∈ stage, ∀ source ∈ graph.revAdj id, source ∈ done) ∧ Layered (done ++ stage) later

theorem Flow.Layered.source_before {stages : List (List Int)}
    (layered : graph.Layered done stages) {column : Nat} {id source : Int}
    (found : stages[column]? = some stage) (mem : id ∈ stage) (leads : source ∈ graph.revAdj id) :
    source ∈ done ∨ ∃ earlier < column, ∃ other, stages[earlier]? = some other ∧
      source ∈ other := by
  induction stages generalizing done column with
  | nil => simp at found
  | cons first later ih =>
    obtain ⟨inputs, rest⟩ := layered
    cases column with
    | zero =>
      cases found
      exact Or.inl (inputs id mem source leads)
    | succ column =>
      rcases ih rest found with taken | ⟨earlier, less, other, there, isSource⟩
      · rcases mem_append.mp taken with before | here
        · exact Or.inl before
        · exact Or.inr ⟨0, by omega, first, rfl, here⟩
      · exact Or.inr ⟨earlier + 1, by omega, other, there, isSource⟩

section

variable (acyclic : Acyclic fun source target => (source, target) ∈ graph.connections)
include acyclic

/-- Without cycles no node is held back. -/
theorem Flow.Waiting.finished (waiting : graph.Waiting done [] inDegree) :
    done.Perm graph.nodeIds := by
  have founded : WellFounded fun source target => source ∈ graph.revAdj target := by
    refine wellFounded_of_sources graph.nodeIds (acyclic.mono fun source target leads => ?_)
      fun source target leads => ?_
    · exact (mem_filter.mp ((mem_revAdj graph).mp leads)).1
    · have both := (mem_filter.mp ((mem_revAdj graph).mp leads)).2
      exact (of_decide_eq_true both).1
  have all : ∀ id, id ∈ graph.nodeIds → id ∈ done := by
    intro id
    induction id using founded.induction with
    | _ id ih =>
      intro node
      have taken := (waiting.ready id node).mpr fun source leads => by
        have both := (mem_filter.mp ((mem_revAdj graph).mp leads)).2
        exact ih source leads (of_decide_eq_true both).1
      simpa using taken
  have nodup : done.Nodup := by simpa using waiting.distinct
  rw [perm_ext_iff_of_nodup nodup graph.distinct]
  exact fun id => ⟨fun mem => waiting.known id (by simpa using mem), all id⟩

/-- The stages take every node once. -/
theorem Flow.Waiting.stagesFrom (waiting : graph.Waiting done queue inDegree) {fuel : Nat}
    (enough : graph.nodeIds.length ≤ done.length + fuel) :
    ∃ stages, graph.stagesFrom fuel inDegree queue = some stages ∧
      graph.Layered done stages ∧ (done ++ stages.flatten).Perm graph.nodeIds := by
  induction fuel generalizing done queue inDegree with
  | zero =>
    cases queue with
    | nil => exact ⟨[], rfl, trivial, by simpa using waiting.finished acyclic⟩
    | cons id queue =>
      have short := (subperm_of_subset waiting.distinct waiting.known).length_le
      simp at short enough
      omega
  | succ fuel ih =>
    cases queue with
    | nil => exact ⟨[], rfl, trivial, by simpa using waiting.finished acyclic⟩
    | cons id queue =>
      have taken := (perm_sorted (id :: queue)).length_eq
      rw [length_cons] at taken
      obtain ⟨later, ran, layered, perm⟩ := ih waiting.next (by
        rw [length_append]
        omega)
      refine ⟨sorted (id :: queue) :: later, ?_, ⟨?_, layered⟩, ?_⟩
      · rw [Flow.stagesFrom, ran]
        rfl
      · intro node mem
        have queued := mem_append_right done ((perm_sorted _).mem_iff.mp mem)
        exact (waiting.ready node (waiting.known node queued)).mp queued
      · simpa using perm

theorem Flow.stages_spec {fuel : Nat} (enough : graph.nodeIds.length ≤ fuel) :
    ∃ stages, graph.stages fuel = some stages ∧ graph.Layered [] stages ∧
      stages.flatten.Perm graph.nodeIds := by
  obtain ⟨stages, ran, layered, perm⟩ := Flow.Waiting.start.stagesFrom acyclic
    (show graph.nodeIds.length ≤ ([] : List Int).length + fuel by simpa using enough)
  refine ⟨stages, ?_, layered, by simpa using perm⟩
  have empty : (graph.nodeIds.filter fun id => id ∉ stages.flatten) = [] := by
    rw [filter_eq_nil_iff]
    intro id mem
    simpa using perm.mem_iff.mpr mem
  simp only [Flow.stages, ran, Option.bind_eq_bind, Option.bind_some, empty]
  rfl

end

section

variable {stages : List (List Int)}

theorem mem_slots {slot : Slot} : slot ∈ slots stages ↔ ∃ stage,
    stages[slot.stage]? = some stage ∧ slot.count = stage.length ∧
      (sorted stage)[slot.place]? = some slot.id := by
  simp only [slots, mem_flatMap, mem_map, mem_zipIdx_iff_getElem?]
  constructor
  · rintro ⟨⟨stage, column⟩, there, ⟨id, place⟩, here, rfl⟩
    exact ⟨stage, there, rfl, here⟩
  · rintro ⟨stage, there, count, here⟩
    exact ⟨(stage, slot.stage), there, (slot.id, slot.place), here, by cases slot; simp_all⟩

theorem slot_of_mem {column : Nat} {id : Int}
    (found : stages[column]? = some stage) (mem : id ∈ stage) :
    ∃ slot ∈ slots stages, slot.id = id ∧ slot.stage = column := by
  obtain ⟨place, here⟩ := mem_iff_getElem?.mp ((perm_sorted stage).mem_iff.mpr mem)
  exact ⟨⟨id, column, stage.length, place⟩, mem_slots.mpr ⟨stage, found, rfl, here⟩, rfl, rfl⟩

/-- Each node has one slot. -/
theorem slots_ids : ((slots stages).map Slot.id).Perm stages.flatten := by
  have ids : (slots stages).map Slot.id = stages.zipIdx.flatMap fun entry => sorted entry.1 := by
    rw [slots, map_flatMap]
    congr 1
    funext entry
    rw [map_map]
    exact zipIdx_map_fst 0 _
  have columns : (stages.zipIdx.flatMap fun entry => sorted entry.1) = stages.flatMap sorted := by
    conv_rhs => rw [← zipIdx_map_fst 0 stages, flatMap_map]
  rw [ids, columns, flatten_eq_flatMap]
  exact List.Perm.flatMap_left _ fun stage _ => perm_sorted stage

end

theorem roundHalfEven_int (n : Int) : roundHalfEven n = n := by
  simp [roundHalfEven]

/-- Halves below 2^52 are floating-point numbers. -/
theorem float_half {value : Rat} (twice : Int) (half : value = twice / 2) (nonneg : 0 ≤ twice)
    (small : twice < 2 ^ 53) : float value = some value := by
  have positive : (0 : Rat) ≤ value := by
    rw [half]
    exact div_nonneg (Int.cast_nonneg nonneg) zero_le_two
  have below : value < 2 ^ 52 := by
    rw [half, div_lt_iff₀ zero_lt_two]
    exact_mod_cast small.trans_le (by norm_num)
  have size : Int.log 2 |value| ≤ 51 := by
    rw [abs_of_nonneg positive]
    rcases positive.eq_or_lt with zero | more
    · simp [← zero]
    · exact Int.lt_add_one_iff.mp
        ((Int.lt_zpow_iff_log_lt one_lt_two more).mp (by simpa using below))
  obtain ⟨digits, exponent⟩ : ∃ digits : Nat,
      max (Int.log 2 |value| - 52) (-1074) = -1 - (digits : Int) :=
    ⟨(-1 - max (Int.log 2 |value| - 52) (-1074)).toNat, by omega⟩
  have spaced : spacing value = (2 * 2 ^ digits)⁻¹ := by
    rw [spacing, exponent, zpow_sub₀ two_ne_zero, zpow_neg_one, zpow_natCast, mul_inv,
      div_eq_mul_inv]
  have scaled : value / spacing value = ((twice * 2 ^ digits : Int) : Rat) := by
    rw [spaced, div_inv_eq_mul, half]
    push_cast
    ring
  have same : toDouble value = value := by
    rw [toDouble, scaled, roundHalfEven_int, ← scaled, div_mul_cancel₀]
    rw [spaced]
    positivity
  have finite : |value| < 2 ^ 1024 := by
    rw [abs_of_nonneg positive]
    exact below.trans (pow_lt_pow_right₀ one_lt_two (by norm_num))
  rw [float, same, if_pos finite]

section

variable {ySpacing initialY : Int} (spaced : 0 < ySpacing) (offset : 0 ≤ initialY)
include spaced

theorem maxStageHeight_spec (stages : List (List Int)) :
    (∀ stage ∈ stages, stageHeight ySpacing stage.length ≤ maxStageHeight ySpacing stages) ∧
      maxStageHeight ySpacing stages ≤ ySpacing * stages.flatten.length := by
  induction stages using List.reverseRecOn with
  | nil => simp [maxStageHeight]
  | append_singleton earlier last ih =>
    obtain ⟨each, upper⟩ := ih
    have highest : maxStageHeight ySpacing (earlier ++ [last]) =
        max (maxStageHeight ySpacing earlier) (stageHeight ySpacing last.length) := by
      rw [maxStageHeight, foldl_append]
      rfl
    have count : (earlier ++ [last]).flatten.length = earlier.flatten.length + last.length := by
      simp
    rw [highest, count]
    constructor
    · intro stage mem
      rcases mem_append.mp mem with before | isLast
      · exact (each stage before).trans (le_max_left _ _)
      · rw [mem_singleton.mp isLast]
        exact le_max_right _ _
    · rw [stageHeight, max_le_iff]
      push_cast
      constructor <;> nlinarith

include offset

/-- Below 2^52 rows are computed exactly, up to the half unit that is cut off. -/
theorem rowAt_eq {highest : Int} {count place : Nat} (inside : place < count)
    (tall : stageHeight ySpacing count ≤ highest) (small : initialY + highest < 2 ^ 52) :
    rowAt ySpacing initialY highest count place =
      some ((2 * initialY + highest - stageHeight ySpacing count) / 2 + place * ySpacing) := by
  have low : 0 ≤ place * ySpacing := by positivity
  have high : place * ySpacing ≤ stageHeight ySpacing count :=
    mul_le_mul_of_nonneg_right (by omega) spaced.le
  rw [rowAt, float_half highest rfl (by omega) (by omega), float_half (2 * initialY)
    (by push_cast; ring) (by omega) (by omega)]
  simp only [Option.bind_eq_bind, Option.bind_some]
  rw [float_half (2 * initialY + highest) (by push_cast; ring) (by omega) (by omega),
    float_half (stageHeight ySpacing count) rfl (by omega) (by omega)]
  simp only [Option.bind_some]
  rw [float_half (2 * initialY + highest - stageHeight ySpacing count) (by push_cast; ring)
      (by omega) (by omega),
    float_half (2 * (place * ySpacing)) (by push_cast; ring) (by omega) (by omega)]
  simp only [Option.bind_some]
  have total : (initialY : Rat) + highest / 2 - stageHeight ySpacing count / 2 +
      ((place * ySpacing : Int) : Rat) = ((2 * initialY + highest - stageHeight ySpacing count +
        place * ySpacing * 2 : Int) : Rat) / (2 : Nat) := by
    push_cast
    ring
  rw [float_half (2 * initialY + highest - stageHeight ySpacing count + place * ySpacing * 2)
    (by rw [total]; rfl) (by omega) (by omega), Option.bind_some, total, truncate, if_pos]
  · congr 1
    rw [← Int.add_mul_ediv_right _ _ two_ne_zero]
    exact Rat.floor_intCast_div_natCast _ _
  · exact div_nonneg (Int.cast_nonneg (by omega)) (by positivity)

end

/-- Every node has one position, and connections lead to the right. -/
structure Placed (graph : Flow) (positions : List (Int × Int × Int)) : Prop where
  all : (positions.map Prod.fst).Perm graph.nodeIds
  leftToRight : ∀ edge ∈ graph.known, ∀ source ∈ positions, ∀ target ∈ positions,
    source.1 = edge.1 → target.1 = edge.2 → source.2.1 < target.2.1

section

variable {graph : Flow} {xSpacing ySpacing initialY : Int} {fuel : Nat} {stages : List (List Int)}

theorem calculateLayeredLayout_eq (ran : graph.stages fuel = some stages) {row : Slot → Int}
    (rows : ∀ slot ∈ slots stages, rowAt ySpacing initialY (maxStageHeight ySpacing stages)
      slot.count slot.place = some (row slot)) :
    calculateLayeredLayout fuel graph xSpacing ySpacing initialY =
      some ((slots stages).map fun slot => (slot.id, slot.stage * xSpacing, row slot)) := by
  rw [calculateLayeredLayout, ran]
  refine (mapM_congr fun slot isSlot => ?_).trans mapM_pure
  rw [rows slot isSlot]
  rfl

/-- Connections lead to the right, whatever the rows. -/
theorem placed_of_layered (layered : graph.Layered [] stages)
    (perm : stages.flatten.Perm graph.nodeIds) (wide : 0 < xSpacing) (row : Slot → Int) :
    Placed graph ((slots stages).map fun slot => (slot.id, slot.stage * xSpacing, row slot)) := by
  have ids := (@slots_ids stages).trans perm
  have distinct : ((slots stages).map Slot.id).Nodup := ids.nodup_iff.mpr graph.distinct
  refine ⟨by rwa [map_map], ?_⟩
  rintro ⟨source, target⟩ known _ isSource _ isTarget rfl rfl
  obtain ⟨first, isFirst, rfl⟩ := mem_map.mp isSource
  obtain ⟨slot, isSlot, rfl⟩ := mem_map.mp isTarget
  obtain ⟨stage, found, _, here⟩ := mem_slots.mp isSlot
  have inStage := (perm_sorted stage).mem_iff.mp (mem_of_getElem? here)
  rcases layered.source_before found inStage ((mem_revAdj graph).mpr known) with
    impossible | ⟨earlier, less, other, there, isOther⟩
  · cases impossible
  obtain ⟨twin, isTwin, sameId, column⟩ := slot_of_mem there isOther
  obtain rfl := inj_on_of_nodup_map distinct isTwin isFirst sameId
  change (twin.stage : Int) * xSpacing < slot.stage * xSpacing
  rw [column]
  exact mul_lt_mul_of_pos_right (by exact_mod_cast less) wide

end

/-- In a flow without cycles the layout places every node, and connections lead to the right. Where
all rows lie below 2^52, it is computed and no two nodes share a position. -/
theorem calculateLayeredLayout_spec (graph : Flow)
    (acyclic : Acyclic fun source target => (source, target) ∈ graph.connections)
    {xSpacing ySpacing initialY : Int} (wide : 0 < xSpacing) (spaced : 0 < ySpacing)
    (offset : 0 ≤ initialY) {fuel : Nat} (enough : graph.nodeIds.length ≤ fuel) :
    (∀ positions, calculateLayeredLayout fuel graph xSpacing ySpacing initialY = some positions →
      Placed graph positions) ∧
    (initialY + ySpacing * graph.nodeIds.length < 2 ^ 52 → ∃ positions,
      calculateLayeredLayout fuel graph xSpacing ySpacing initialY = some positions ∧
        (positions.map Prod.snd).Nodup) := by
  obtain ⟨stages, ran, layered, perm⟩ := graph.stages_spec acyclic enough
  constructor
  · intro positions placed
    have rows : ∀ slot ∈ slots stages, rowAt ySpacing initialY (maxStageHeight ySpacing stages)
        slot.count slot.place = some ((rowAt ySpacing initialY (maxStageHeight ySpacing stages)
          slot.count slot.place).getD 0) := by
      intro slot isSlot
      rw [calculateLayeredLayout, ran] at placed
      obtain ⟨_, _, computed⟩ := mapM_step _ _ _ placed slot isSlot
      obtain ⟨row, found, _⟩ := Option.bind_eq_some_iff.mp computed
      rw [found]
      rfl
    rw [calculateLayeredLayout_eq ran rows] at placed
    cases placed
    exact placed_of_layered layered perm wide _
  · intro small
    obtain ⟨each, upper⟩ := maxStageHeight_spec spaced stages
    rw [perm.length_eq] at upper
    have rows : ∀ slot ∈ slots stages,
        rowAt ySpacing initialY (maxStageHeight ySpacing stages) slot.count slot.place =
          some ((2 * initialY + maxStageHeight ySpacing stages - stageHeight ySpacing slot.count) /
            2 + slot.place * ySpacing) := by
      intro slot isSlot
      obtain ⟨stage, found, count, here⟩ := mem_slots.mp isSlot
      have inside : slot.place < slot.count := by
        rw [count, ← (perm_sorted stage).length_eq]
        exact (List.getElem?_eq_some_iff.mp here).1
      apply rowAt_eq spaced offset inside
      · rw [count]
        exact each stage (mem_of_getElem? found)
      · omega
    refine ⟨_, calculateLayeredLayout_eq ran rows, ?_⟩
    have distinct : ((slots stages).map Slot.id).Nodup :=
      (slots_ids.trans perm).nodup_iff.mpr graph.distinct
    rw [map_map]
    refine (distinct.of_map _).map_on fun first isFirst second isSecond same => ?_
    obtain ⟨sameColumn, sameRow⟩ := Prod.mk.inj same
    obtain ⟨stage, found, count, here⟩ := mem_slots.mp isFirst
    obtain ⟨other, foundOther, countOther, there⟩ := mem_slots.mp isSecond
    have column : first.stage = second.stage := by
      exact_mod_cast mul_right_cancel₀ wide.ne' sameColumn
    rw [column, foundOther] at found
    cases found
    rw [count, countOther, add_right_inj] at sameRow
    have place : first.place = second.place := by
      exact_mod_cast mul_right_cancel₀ spaced.ne' sameRow
    rw [place, there] at here
    exact inj_on_of_nodup_map distinct isFirst isSecond (Option.some.inj here).symm

theorem nodup_diamond : ([4, 2, 1, 3, 5] : List Int).Nodup := by
  decide

/-- A diamond with a node besides. -/
def diamond : Flow where
  nodeIds := [4, 2, 1, 3, 5]
  distinct := nodup_diamond
  connections := [(3, 4), (1, 2), (2, 4), (1, 3)]

theorem diamond_placed :
    (∀ positions, calculateLayeredLayout 5 diamond 250 100 50 = some positions →
      Placed diamond positions) ∧
    (50 + 100 * (diamond.nodeIds.length : Int) < 2 ^ 52 → ∃ positions,
      calculateLayeredLayout 5 diamond 250 100 50 = some positions ∧
        (positions.map Prod.snd).Nodup) :=
  calculateLayeredLayout_spec diamond
    (acyclic_of_rank Int.toNat (by simp [diamond]; omega)) (by decide) (by decide) (by decide)
    (by decide)

theorem nodup_pair : ([1, 2] : List Int).Nodup := by
  decide

def pair : Flow where
  nodeIds := [1, 2]
  distinct := nodup_pair
  connections := []

/-- Two nodes of a stage, one unit apart, share a position when the rows start at 2^53. -/
theorem pair_collides : ∃ positions,
    calculateLayeredLayout 2 pair 1 1 (2 ^ 53) = some positions ∧
      ¬ (positions.map Prod.snd).Nodup := by
  refine ⟨[(1, 0, 2 ^ 53), (2, 0, 2 ^ 53)], by decide +kernel, by decide +kernel⟩

example : calculateLayeredLayout 5 diamond 250 100 50 =
    some [(1, 0, 50), (5, 0, 150), (2, 250, 50), (3, 250, 150), (4, 500, 100)] := by
  decide +kernel

end Flowfile.Layout
