import Mathlib.Data.List.Pairwise

/-!
# Names with one fallback

Claims are put on a shelf one after the other. A claim takes the name it asks for unless the mark
that stands there belongs to another claimant; then it takes its fallback, whatever stands there.

The names taken are distinct on every shelf exactly where no fallback is a name that an earlier
claim may take, and no earlier claim leaves a mark that the later one takes for its own. Which names
are taken does not depend on the shelf where the first claim of each name finds no mark of another.
-/

namespace Flowfile.Library.FallbackNames

open Function List

variable {Name Id Mark : Type}

structure Claim (Name Id Mark : Type) where
  bare : Name
  fallback : Name
  id : Id
  mark : Mark

abbrev Shelf (Name Mark : Type) := Name → Option Mark

section

variable [DecidableEq Name] (other : Mark → Id → Bool)

def displaced (shelf : Shelf Name Mark) (claim : Claim Name Id Mark) : Bool :=
  (shelf claim.bare).any fun mark => other mark claim.id

def target (shelf : Shelf Name Mark) (claim : Claim Name Id Mark) : Name :=
  if displaced other shelf claim then claim.fallback else claim.bare

def put (shelf : Shelf Name Mark) (claim : Claim Name Id Mark) : Shelf Name Mark :=
  update shelf (target other shelf claim) (some claim.mark)

def after (shelf : Shelf Name Mark) (claims : List (Claim Name Id Mark)) : Shelf Name Mark :=
  claims.foldl (put other) shelf

/-- The names that the claims take, in their order. -/
def targets : Shelf Name Mark → List (Claim Name Id Mark) → List Name
  | _, [] => []
  | shelf, claim :: rest => target other shelf claim :: targets (put other shelf claim) rest

variable {other} {shelf : Shelf Name Mark} {claim : Claim Name Id Mark}
  {claims : List (Claim Name Id Mark)}

omit [DecidableEq Name] in
theorem target_displaced (isDisplaced : displaced other shelf claim = true) :
    target other shelf claim = claim.fallback :=
  if_pos isDisplaced

omit [DecidableEq Name] in
theorem target_free (free : displaced other shelf claim = false) :
    target other shelf claim = claim.bare :=
  if_neg (by rw [free]; exact Bool.false_ne_true)

variable {name : Name}

/-- A name that no claim takes keeps its mark. -/
theorem put_apart (apart : name ≠ target other shelf claim) :
    put other shelf claim name = shelf name :=
  update_of_ne apart _ _

theorem put_target : put other shelf claim (target other shelf claim) = some claim.mark :=
  update_self _ _ _

variable {further : Shelf Name Mark}

omit [DecidableEq Name] in
theorem displaced_congr (same : shelf claim.bare = further claim.bare) :
    displaced other shelf claim = displaced other further claim := by
  rw [displaced, displaced, same]

theorem after_append (shelf : Shelf Name Mark) (first second : List (Claim Name Id Mark)) :
    after other shelf (first ++ second) = after other (after other shelf first) second :=
  foldl_append

/-- The names that two lists of claims take. -/
theorem targets_append (shelf : Shelf Name Mark) (first second : List (Claim Name Id Mark)) :
    targets other shelf (first ++ second) =
      targets other shelf first ++ targets other (after other shelf first) second := by
  induction first generalizing shelf with
  | nil => rfl
  | cons claim rest inner =>
    rw [cons_append, targets, inner, targets, cons_append]
    rfl

/-- A name that is not taken keeps its mark. -/
theorem after_apart (apart : name ∉ targets other shelf claims) :
    after other shelf claims name = shelf name := by
  induction claims generalizing shelf with
  | nil => rfl
  | cons claim rest inner =>
    rw [targets, mem_cons, not_or] at apart
    exact (inner apart.2).trans (put_apart apart.1)

/-- The names taken depend only on the names that are asked for. -/
theorem targets_congr (same : ∀ claim ∈ claims, shelf claim.bare = further claim.bare) :
    targets other shelf claims = targets other further claims := by
  induction claims generalizing shelf further with
  | nil => rfl
  | cons claim rest inner =>
    have sameTarget : target other shelf claim = target other further claim := by
      rw [target, target, displaced_congr (same claim mem_cons_self)]
    rw [targets, targets, sameTarget]
    refine congrArg _ (inner fun later mem => ?_)
    by_cases taken : later.bare = target other shelf claim
    · rw [taken, put_target, sameTarget, put_target]
    · rw [put_apart taken, put_apart (sameTarget ▸ taken)]
      exact same later (mem_cons_of_mem _ mem)

theorem not_mem_targets {mark : Mark} (held : shelf name = some mark)
    (apart : ∀ claim ∈ claims, (claim.bare = name → other mark claim.id = true) ∧
      claim.fallback ≠ name) : name ∉ targets other shelf claims := by
  induction claims generalizing shelf with
  | nil => exact not_mem_nil
  | cons claim rest inner =>
    have ⟨asks, noFallback⟩ := apart claim mem_cons_self
    have elsewhere : name ≠ target other shelf claim := by
      rw [target]
      split
      · exact noFallback.symm
      · next free =>
        intro same
        apply free
        rw [displaced, ← same, held]
        exact asks same.symm
    rw [targets, mem_cons, not_or]
    exact ⟨elsewhere, inner ((put_apart elsewhere).trans held)
      fun later mem => apart later (mem_cons_of_mem _ mem)⟩

end

section

variable [DecidableEq Name] {other : Mark → Id → Bool} {claims : List (Claim Name Id Mark)}

/-- A later claim never takes the name of an earlier one: where it may ask for a name that the
earlier one took, it finds a mark of another, and its fallback is no such name. -/
def Apart (other : Mark → Id → Bool) (first next : Claim Name Id Mark) : Prop :=
  (first.bare = next.bare ∨ first.fallback = next.bare → other first.mark next.id = true) ∧
    next.fallback ≠ first.bare ∧ next.fallback ≠ first.fallback

theorem targets_nodup (apart : claims.Pairwise (Apart other)) (shelf : Shelf Name Mark) :
    (targets other shelf claims).Nodup := by
  induction claims generalizing shelf with
  | nil => exact nodup_nil
  | cons claim rest inner =>
    obtain ⟨fromFirst, others⟩ := pairwise_cons.mp apart
    rw [targets, nodup_cons]
    refine ⟨not_mem_targets put_target fun later mem => ?_, inner others _⟩
    obtain ⟨recognised, noBare, noFallback⟩ := fromFirst later mem
    rw [target]
    split
    · exact ⟨fun same => recognised (.inr same.symm), noFallback⟩
    · exact ⟨fun same => recognised (.inl same.symm), noBare⟩

variable {shelf : Shelf Name Mark}

section

variable (always : ∀ shelf, (targets other shelf claims).Nodup)
include always

theorem displaced_kept {first post : List (Claim Name Id Mark)} {claim : Claim Name Id Mark}
    (split : claims = first ++ claim :: post) (start : displaced other shelf claim = true) :
    displaced other (after other shelf first) claim = true := by
  by_contra free
  rw [Bool.not_eq_true] at free
  have distinct := always shelf
  rw [split, targets_append, targets, target_free free] at distinct
  have untaken : claim.bare ∉ targets other shelf first := fun taken =>
    (nodup_append.mp distinct).2.2 _ taken _ mem_cons_self rfl
  rw [displaced_congr (after_apart untaken), start] at free
  cases free

section

variable {first mid post : List (Claim Name Id Mark)} {claim next : Claim Name Id Mark}
  (split : claims = first ++ claim :: (mid ++ next :: post))
include split

/-- Where names are always distinct, the targets of two claims differ. -/
theorem targets_ne (shelf : Shelf Name Mark) : target other (after other shelf first) claim ≠
      target other (after other shelf (first ++ claim :: mid)) next := by
  have distinct := always shelf
  rw [split, targets_append, targets, targets_append, targets] at distinct
  have later := (nodup_cons.mp (nodup_append.mp distinct).2.1).1
  intro same
  apply later
  refine mem_append_right _ ?_
  rw [same, after_append]
  exact mem_cons_self

/-- Where names are always distinct, a mark stays at the name it was left at. -/
theorem mark_kept (shelf : Shelf Name Mark) :
    after other shelf (first ++ claim :: mid) (target other (after other shelf first) claim) =
      some claim.mark := by
  have distinct := always shelf
  rw [split, targets_append, targets, targets_append] at distinct
  have later := (nodup_cons.mp (nodup_append.mp distinct).2.1).1
  have apart : target other (after other shelf first) claim ∉
      targets other (put other (after other shelf first) claim) mid :=
    fun taken => later (mem_append_left _ taken)
  rw [after_append]
  exact (after_apart apart).trans put_target

theorem mark_other (asks : target other (after other shelf first) claim = next.bare) :
    other claim.mark next.id = true := by
  by_contra own
  have held := mark_kept always split shelf
  rw [asks] at held
  have free : displaced other (after other shelf (first ++ claim :: mid)) next = false := by
    rw [displaced, held]
    exact Bool.not_eq_true _ ▸ own
  apply targets_ne always split shelf
  rw [asks, target_free free]

end

omit [DecidableEq Name] always in
/-- A relation of all earlier to all later items of a list. -/
theorem pairwise_of_splits {R : Claim Name Id Mark → Claim Name Id Mark → Prop}
    (splits : ∀ first claim mid next post,
      claims = first ++ claim :: (mid ++ next :: post) → R claim next) : claims.Pairwise R := by
  induction claims with
  | nil => exact .nil
  | cons claim rest inner =>
    refine .cons (fun next mem => ?_) (inner fun first earlier mid next post split => ?_)
    · obtain ⟨mid, post, rfl⟩ := append_of_mem mem
      exact splits [] claim mid next post rfl
    · exact splits (claim :: first) earlier mid next post (by rw [split]; rfl)

def single (name : Name) (mark : Mark) : Shelf Name Mark :=
  update (fun _ => none) name (some mark)

omit always in
theorem displaced_single {claim : Claim Name Id Mark} {mark : Mark}
    (isOther : other mark claim.id = true) :
    displaced other (single claim.bare mark) claim = true := by
  rw [displaced, single, update_self]
  exact isOther

variable {size : Name → Nat} (longer : ∀ claim ∈ claims, size claim.bare < size claim.fallback)
  {stranger : Mark} (strange : ∀ claim ∈ claims, other stranger claim.id = true)
  {first mid post : List (Claim Name Id Mark)} {claim next : Claim Name Id Mark}
  (split : claims = first ++ claim :: (mid ++ next :: post))
include strange split

/-- Where names are always distinct, so are fallbacks. -/
theorem fallback_ne_fallback : next.fallback ≠ claim.fallback := by
  -- on a shelf full of strangers everybody is displaced
  have full (item : Claim Name Id Mark) (mem : item ∈ claims) :
      displaced other (fun _ => some stranger) item = true := strange item mem
  have later : claims = (first ++ claim :: mid) ++ next :: post := by simp [split]
  have claimDisplaced := displaced_kept always split (full claim (by simp [split]))
  have nextDisplaced := displaced_kept always later (full next (by simp [split]))
  intro same
  apply targets_ne always split fun _ => some stranger
  rw [target_displaced claimDisplaced, target_displaced nextDisplaced, same]

/-- Where names are always distinct, a claim's mark at its fallback is another's for later ones. -/
theorem fallback_mark (asks : claim.fallback = next.bare) : other claim.mark next.id = true := by
  have start := displaced_single (strange claim (by simp [split]))
  have isTarget := target_displaced (displaced_kept always split start)
  exact mark_other always split (isTarget.trans asks)

include longer

/-- Where names are always distinct, no fallback is a name that an earlier claim asks for. -/
theorem fallback_ne_bare : next.fallback ≠ claim.bare := by
  intro same
  have nextMember : next ∈ claims := by simp [split]
  have bares : claim.bare ≠ next.bare := fun equal => by
    have increases := longer next nextMember
    rw [same, equal] at increases
    exact Nat.lt_irrefl _ increases
  -- only the later claim finds a stranger
  have later : claims = (first ++ claim :: mid) ++ next :: post := by simp [split]
  have nextTarget := target_displaced
    (displaced_kept always later (displaced_single (strange next nextMember)))
  have claimFree :
      displaced other (after other (single next.bare stranger) first) claim = false := by
    have untaken : claim.bare ∉ targets other (single next.bare stranger) first := by
      have distinct := always (single next.bare stranger)
      rw [later, targets_append, targets, nextTarget, targets_append] at distinct
      intro taken
      exact (nodup_append.mp distinct).2.2 _ (mem_append_left _ taken) _
        mem_cons_self same.symm
    rw [displaced, after_apart untaken, single, update_of_ne bares]
    rfl
  apply targets_ne always split (single next.bare stranger)
  rw [target_free claimFree, nextTarget, same]

end

variable {own : Id → Mark}

section

variable {size : Name → Nat}

theorem after_short (longer : ∀ claim ∈ claims, size claim.bare < size claim.fallback) {bound : Nat}
    {further : Shelf Name Mark} (agree : ∀ name, size name ≤ bound → shelf name = further name) :
    ∀ name, size name ≤ bound →
      after other shelf claims name = after other further claims name := by
  induction claims generalizing shelf further with
  | nil => exact agree
  | cons claim rest inner =>
    refine inner (fun later mem => longer later (mem_cons_of_mem _ mem)) ?_
    intro name short
    have increases := longer claim mem_cons_self
    by_cases within : size claim.bare ≤ bound
    · have sameTarget : target other shelf claim = target other further claim := by
        rw [target, target, displaced_congr (agree _ within)]
      by_cases taken : name = target other shelf claim
      · rw [taken, put_target, sameTarget, put_target]
      · rw [put_apart taken, put_apart (sameTarget ▸ taken)]
        exact agree name short
    · have tooLong (start : Shelf Name Mark) : name ≠ target other start claim := by
        intro same
        rw [target] at same
        split at same <;> subst same <;> omega
      rw [put_apart (tooLong shelf), put_apart (tooLong further)]
      exact agree name short

theorem free_somewhere (ownSelf : ∀ id, other (own id) id = false)
    (ownOther : ∀ id further, id ≠ further → other (own id) further = true)
    (first : List (Claim Name Id Mark)) (claim : Claim Name Id Mark)
    (longer : ∀ item ∈ first, size item.bare < size item.fallback)
    (ids : (first ++ [claim]).Pairwise fun item later => item.id ≠ later.id)
    (fallbacks : first.Pairwise fun item later => later.fallback ≠ item.fallback) :
    ∃ shelf, displaced other (after other shelf first) claim = false := by
  induction bound : first.length using Nat.strongRecOn generalizing first claim with
  | ind bound inner =>
    have others : ∀ item ∈ first, other (own claim.id) item.id = true := fun item mem =>
      ownOther _ _ ((pairwise_append.mp ids).2.2 item mem claim (mem_singleton_self _)).symm
    by_cases some_fallback : ∃ item ∈ first, item.fallback = claim.bare
    · obtain ⟨item, mem, same⟩ := some_fallback
      obtain ⟨before, between, rfl⟩ := append_of_mem mem
      obtain ⟨fallbacksBefore, fallbacksAfter, apart⟩ := pairwise_append.mp fallbacks
      have increases := longer item mem
      have idsBefore : (before ++ [item]).Pairwise fun item later => item.id ≠ later.id := by
        refine ids.sublist ?_
        simp
      -- the item with this fallback is free on a shelf that says nothing about longer names
      obtain ⟨shelf, itemFree⟩ := inner before.length (by simp at bound; omega) before item
        (fun earlier mem => longer earlier (mem_append_left _ mem)) idsBefore
        fallbacksBefore rfl
      let held : Shelf Name Mark := update shelf claim.bare (some (own claim.id))
      have agree : ∀ name, size name ≤ size item.bare → held name = shelf name := by
        intro name short
        refine update_of_ne (fun equal => ?_) _ _
        rw [equal, ← same] at short
        omega
      have stillFree : displaced other (after other held before) item = false := by
        rw [displaced_congr (after_short (fun earlier mem => longer earlier
          (mem_append_left _ mem)) agree _ (Nat.le_refl _))]
        exact itemFree
      have untakenBefore : claim.bare ∉ targets other held before :=
        not_mem_targets (update_self _ _ _) fun earlier mem =>
          ⟨fun _ => others earlier (mem_append_left _ mem), fun equal =>
            apart earlier mem item mem_cons_self (same.trans equal.symm)⟩
      have elsewhere : claim.bare ≠ target other (after other held before) item := by
        rw [target_free stillFree]
        intro equal
        rw [← equal, same] at increases
        exact Nat.lt_irrefl _ increases
      have heldThen : put other (after other held before) item claim.bare =
          some (own claim.id) := by
        rw [put_apart elsewhere, after_apart untakenBefore]
        exact update_self _ _ _
      have untakenAfter : claim.bare ∉
          targets other (put other (after other held before) item) between :=
        not_mem_targets heldThen fun later mem =>
          ⟨fun _ => others later (mem_append_right _ (mem_cons_of_mem _ mem)),
            fun equal => (pairwise_cons.mp fallbacksAfter).1 later mem
              (equal.trans same.symm)⟩
      refine ⟨held, ?_⟩
      rw [displaced, after_append]
      show ((after other (put other (after other held before) item) between claim.bare).any _) = _
      rw [after_apart untakenAfter, heldThen]
      exact ownSelf claim.id
    · refine ⟨single claim.bare (own claim.id), ?_⟩
      have untaken : claim.bare ∉ targets other (single claim.bare (own claim.id)) first :=
        not_mem_targets (update_self _ _ _) fun item mem =>
          ⟨fun _ => others item mem, fun same => some_fallback ⟨item, mem, same⟩⟩
      rw [displaced, after_apart untaken, single, update_self]
      exact ownSelf claim.id

theorem nodup_iff (ownSelf : ∀ id, other (own id) id = false)
    (ownOther : ∀ id further, id ≠ further → other (own id) further = true)
    (longer : ∀ claim ∈ claims, size claim.bare < size claim.fallback) {stranger : Mark}
    (strange : ∀ claim ∈ claims, other stranger claim.id = true)
    (ids : claims.Pairwise fun claim next => claim.id ≠ next.id) :
    (∀ shelf, (targets other shelf claims).Nodup) ↔ claims.Pairwise (Apart other) := by
  refine ⟨fun always => pairwise_of_splits fun first claim mid next post split => ?_,
    fun apart => targets_nodup apart⟩
  refine ⟨?_, fallback_ne_bare always longer strange split,
    fallback_ne_fallback always strange split⟩
  rintro (same | same)
  · have fallbacks : claims.Pairwise fun item later => later.fallback ≠ item.fallback :=
      pairwise_of_splits fun _ _ _ _ _ split => fallback_ne_fallback always strange split
    have longerFirst : ∀ item ∈ first, size item.bare < size item.fallback :=
      fun item mem => longer item (by simp [split, mem])
    obtain ⟨shelf, free⟩ := free_somewhere ownSelf ownOther first claim longerFirst
      (ids.sublist (by simp [split]))
      (fallbacks.sublist (by simp [split]))
    exact mark_other always split ((target_free free).trans same)
  · exact fallback_mark always strange split same

end

end

section

variable [DecidableEq Name] {other : Mark → Id → Bool}

def Settled (other : Mark → Id → Bool) (shelf : Shelf Name Mark)
    (claims : List (Claim Name Id Mark)) : Prop :=
  ∀ first claim post, claims = first ++ claim :: post →
    (∀ earlier ∈ first, earlier.bare ≠ claim.bare) → displaced other shelf claim = false

variable {claims : List (Claim Name Id Mark)} {shelf : Shelf Name Mark}

/-- The same names are taken from two shelves that agree on some names, where the second holds
nothing else and the first displaces nobody who asks for a name that is still free. -/
theorem targets_agree (names : Name → Prop)
    {fresh : Shelf Name Mark} (agree : ∀ name, names name → shelf name = fresh name)
    (empty : ∀ name, ¬names name → fresh name = none)
    (settled : ∀ first claim post, claims = first ++ claim :: post → ¬names claim.bare →
      claim.bare ∉ targets other fresh first → displaced other shelf claim = false) :
    targets other shelf claims = targets other fresh claims := by
  induction claims generalizing shelf fresh names with
  | nil => rfl
  | cons claim rest inner =>
    have same : displaced other shelf claim = displaced other fresh claim := by
      by_cases known : names claim.bare
      · exact displaced_congr (agree _ known)
      · rw [settled [] claim rest rfl known not_mem_nil, displaced, empty _ known]
        rfl
    have sameTarget : target other shelf claim = target other fresh claim := by
      rw [target, target, same]
    rw [targets, targets, sameTarget]
    refine congrArg _ (inner (fun name => names name ∨ name = target other fresh claim) ?_ ?_ ?_)
    · intro name known
      by_cases taken : name = target other fresh claim
      · subst taken
        rw [put_target, ← sameTarget, put_target]
      · rw [put_apart taken, put_apart (sameTarget ▸ taken)]
        exact agree name (known.resolve_right taken)
    · intro name unknown
      rw [not_or] at unknown
      rw [put_apart unknown.2]
      exact empty name unknown.1
    · intro first later post split unknown untaken
      rw [not_or] at unknown
      have sameShelf : put other shelf claim later.bare = shelf later.bare :=
        put_apart (sameTarget ▸ unknown.2)
      rw [displaced_congr sameShelf]
      refine settled (claim :: first) later post (by rw [split]; rfl) unknown.1 ?_
      rw [targets, mem_cons, not_or]
      exact ⟨unknown.2, untaken⟩

theorem bare_taken {first : List (Claim Name Id Mark)} {claim : Claim Name Id Mark}
    (mem : claim ∈ first) : claim.bare ∈ targets other (fun _ => none) first := by
  obtain ⟨before, post, rfl⟩ := append_of_mem mem
  rw [targets_append, targets]
  cases free : displaced other (after other (fun _ => none) before) claim with
  | false => exact mem_append_right _ (by rw [target_free free]; exact mem_cons_self)
  | true =>
  refine mem_append_left _ ?_
  by_contra untaken
  rw [displaced, after_apart untaken] at free
  cases free

theorem targets_empty (settled : Settled other shelf claims) :
    targets other shelf claims = targets other (fun _ => none) claims :=
  targets_agree (fun _ => False) nofun (fun _ _ => rfl)
    fun first claim post split _ untaken => settled first claim post split
      fun _ mem same => untaken (same ▸ bare_taken mem)

theorem targets_again (apart : claims.Pairwise (Apart other))
    (ownMarks : ∀ claim ∈ claims, other claim.mark claim.id = false) :
    targets other (after other (fun _ => none) claims) claims =
      targets other (fun _ => none) claims := by
  refine targets_agree (fun _ => False) nofun (fun _ _ => rfl) ?_
  intro first claim post split _ untaken
  have free : displaced other (after other (fun _ => none) first) claim = false := by
    rw [displaced, after_apart untaken]
    rfl
  have distinct := targets_nodup apart (fun _ => none)
  rw [split, targets_append, targets, target_free free] at distinct
  have later := (nodup_cons.mp (nodup_append.mp distinct).2.1).1
  have kept : after other (fun _ => none) claims claim.bare = some claim.mark := by
    rw [split, after_append]
    show after other (put other (after other (fun _ => none) first) claim) post claim.bare = _
    rw [after_apart later]
    have held : put other (after other (fun _ => none) first) claim
        (target other (after other (fun _ => none) first) claim) = some claim.mark := put_target
    rwa [target_free free] at held
  rw [displaced, kept]
  exact ownMarks claim (by simp [split])

end

end Flowfile.Library.FallbackNames
