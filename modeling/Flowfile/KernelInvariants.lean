import Flowfile.KernelManager

/-!
# What kernel calls rely on

Kernels are registered under their ids, and one that is being created is in the hands of its call
alone. Ports are claimed by registered kernels and by those that are being created. Images are used
only for the id they were derived for. While a kernel is started, the container that is there for it
is the one this start has created. Each of these is stated for one state, with one lemma for each
way in which a step can change what it speaks about.
-/

namespace Flowfile.KernelManager

open Library.Dictionaries Library.ExclusiveClaims List

def Call.kernel : Call → Option Nat
  | .finished => none
  | .preparing kernel _ | .baking kernel _ | .inspecting kernel _ | .building kernel
  | .allocating kernel _ | .launching kernel _ | .waiting kernel | .rebuilding kernel _
  | .restoring kernel | .resolving kernel | .deleting kernel _ => some kernel

/-- The image that a start is going to run. -/
def Call.image : Call → Option String
  | .allocating _ image | .launching _ image => some image
  | _ => none

def OwnImage (id image : String) : Prop :=
  image = derivedImageTag id ∨ isDerivedImage image = false

structure Call.Follows (later earlier : Call) : Prop where
  kernel : later.kernel = none ∨ later.kernel = earlier.kernel
  creating : later.creating = none ∨ later.creating = earlier.creating
  finished : earlier = .finished → later = .finished

theorem Call.Follows.refl (call : Call) : call.Follows call :=
  ⟨.inr rfl, .inr rfl, id⟩

theorem Call.Follows.trans {first second third : Call} (after : third.Follows second)
    (before : second.Follows first) : third.Follows first where
  kernel := by
    rcases after.kernel with none | same
    · exact .inl none
    · exact same ▸ before.kernel
  creating := by
    rcases after.creating with none | same
    · exact .inl none
    · exact same ▸ before.creating
  finished finished := after.finished (before.finished finished)

theorem Call.kernel_of_creating {call : Call} {kernel : Nat}
    (creating : call.creating = some kernel) : call.kernel = some kernel := by
  cases call <;> first | exact creating | cases creating

theorem Call.kernel_of_starting {call : Call} {kernel : Nat}
    (starting : call.starting = some kernel) : call.kernel = some kernel := by
  cases call <;> first | exact starting | cases starting

theorem Call.starting_of_creating {call : Call} {kernel : Nat}
    (creating : call.creating = some kernel) : call.starting = none := by
  cases call <;> first | rfl | cases creating

variable {ok : Bool} {port : Nat} {id : String}

namespace Manager

variable {manager next last : Manager} {call kernel : Nat}

@[simp] theorem kernels_edit (change : KernelInfo → KernelInfo) (other : Nat) :
    (manager.edit kernel change).kernels other =
      if other = kernel then change (manager.kernels kernel) else manager.kernels other :=
  Function.update_apply ..

@[simp] theorem calls_move (following : Call) (other : Nat) :
    (manager.move call following).calls other =
      if other = call then following else manager.calls other :=
  Function.update_apply ..

structure Frame (manager next : Manager) : Prop where
  made : next.made = manager.made
  called : next.called = manager.called
  ids : ∀ kernel, (next.kernels kernel).id = (manager.kernels kernel).id
  bare : ∀ kernel, (manager.kernels kernel).containerId = none →
    (next.kernels kernel).containerId = none
  registry : ∀ id kernel, next.registry.get id = some kernel → manager.registry.get id = some kernel
  calls : ∀ call, (next.calls call).Follows (manager.calls call)

theorem Frame.refl (manager : Manager) : manager.Frame manager :=
  ⟨rfl, rfl, fun _ => rfl, fun _ bare => bare, fun _ _ found => found, fun _ => .refl _⟩

theorem Frame.trans (before : manager.Frame next) (after : next.Frame last) :
    manager.Frame last where
  made := after.made.trans before.made
  called := after.called.trans before.called
  ids kernel := (after.ids kernel).trans (before.ids kernel)
  bare kernel bare := after.bare kernel (before.bare kernel bare)
  registry id kernel found := before.registry id kernel (after.registry id kernel found)
  calls call := (after.calls call).trans (before.calls call)

variable {change : KernelInfo → KernelInfo}

theorem edit_keeps {β : Type} (field : KernelInfo → β)
    (keeps : field (change (manager.kernels kernel)) = field (manager.kernels kernel))
    (other : Nat) :
    field ((manager.edit kernel change).kernels other) = field (manager.kernels other) := by
  rw [kernels_edit]
  split
  case isTrue same => rw [keeps, same]
  case isFalse => rfl

variable {following : Call}

/-- What holds between a call and its next step holds between the calls before and after. -/
theorem move_relates {related : Call → Call → Prop} (refl : ∀ call, related call call)
    (moved : related following (manager.calls call)) (other : Nat) :
    related ((manager.move call following).calls other) (manager.calls other) := by
  rw [calls_move]
  split
  case isTrue same => exact same ▸ moved
  case isFalse => exact refl _

theorem frame_edit (id : (change (manager.kernels kernel)).id = (manager.kernels kernel).id)
    (bare : (manager.kernels kernel).containerId = none →
      (change (manager.kernels kernel)).containerId = none) :
    manager.Frame (manager.edit kernel change) where
  made := rfl
  called := rfl
  ids := edit_keeps (·.id) id
  bare other none := by
    rw [kernels_edit]
    split
    case isTrue same => exact bare (same ▸ none)
    case isFalse => exact none
  registry _ _ found := found
  calls _ := .refl _

theorem frame_move (follows : following.Follows (manager.calls call)) :
    manager.Frame (manager.move call following) :=
  ⟨rfl, rfl, fun _ => rfl, fun _ bare => bare, fun _ _ found => found,
    move_relates Call.Follows.refl follows⟩

/-- Besides, nothing changes that ports, containers and starts depend on, but containers may go. -/
structure Quiet (manager next : Manager) : Prop extends Frame manager next where
  ports : ∀ kernel, (next.kernels kernel).port = (manager.kernels kernel).port
  states : ∀ kernel, (next.kernels kernel).state = (manager.kernels kernel).state
  containerIds : ∀ kernel,
    (next.kernels kernel).containerId = (manager.kernels kernel).containerId
  containers : ∀ container ∈ next.containers, container ∈ manager.containers
  launched : next.launched = manager.launched
  cleaned : next.cleaned = manager.cleaned
  starting : ∀ call, (next.calls call).starting = (manager.calls call).starting
  waiting : ∀ call kernel, manager.calls call = .waiting kernel → next.calls call = .waiting kernel

theorem quiet_images {containers : List Container} {registry owners : Dictionary String Nat}
    (fewer : ∀ container ∈ containers, container ∈ manager.containers)
    (registered : ∀ id kernel, registry.get id = some kernel →
      manager.registry.get id = some kernel) (images : List String)
    (used : List (String × String)) :
    manager.Quiet { manager with containers, registry, owners, images, used } where
  toFrame := ⟨rfl, rfl, fun _ => rfl, fun _ bare => bare, registered, fun _ => .refl _⟩
  ports _ := rfl
  states _ := rfl
  containerIds _ := rfl
  containers := fewer
  launched := rfl
  cleaned := rfl
  starting _ := rfl
  waiting _ _ waits := waits

theorem quiet_use (kernelId image : String) : manager.Quiet (manager.use kernelId image) :=
  quiet_images (fun _ mem => mem) (fun _ _ found => found) _ _

theorem quiet_removeDerivedImage (id : String) : manager.Quiet (manager.removeDerivedImage id) :=
  quiet_images (fun _ mem => mem) (fun _ _ found => found) _ _

theorem quiet_cleanupContainer (id : String) : manager.Quiet (manager.cleanupContainer id) :=
  quiet_images (fun _ mem => (mem_filter.mp mem).1) (fun _ _ found => found) _ _

theorem quiet_forget (id : String) : manager.Quiet (manager.forget id) :=
  quiet_images (fun _ mem => mem) (fun other kernel found => by
    rw [Dictionary.get_erase] at found
    split at found
    · cases found
    · exact found) _ _

theorem quiet_edit
    (id : ∀ info, (change info).id = info.id) (port : ∀ info, (change info).port = info.port)
    (state : ∀ info, (change info).state = info.state)
    (containerId : ∀ info, (change info).containerId = info.containerId) :
    manager.Quiet (manager.edit kernel change) where
  toFrame := frame_edit (id _) fun bare => (containerId _).trans bare
  ports := edit_keeps (·.port) (port _)
  states := edit_keeps (·.state) (state _)
  containerIds := edit_keeps (·.containerId) (containerId _)
  containers _ mem := mem
  launched := rfl
  cleaned := rfl
  starting _ := rfl
  waiting _ _ waits := waits

theorem quiet_move (follows : following.Follows (manager.calls call))
    (starting : following.starting = (manager.calls call).starting)
    (moving : ∀ kernel, manager.calls call ≠ .waiting kernel) :
    manager.Quiet (manager.move call following) where
  toFrame := frame_move follows
  ports _ := rfl
  states _ := rfl
  containerIds _ := rfl
  containers _ mem := mem
  launched := rfl
  cleaned := rfl
  starting := by
    intro other
    rw [calls_move]
    split
    case isTrue same => exact same ▸ starting
    case isFalse => rfl
  waiting other kernel waits := by
    rw [calls_move]
    split
    case isTrue same => exact absurd (same ▸ waits) (moving kernel)
    case isFalse => exact waits

theorem buildDerivedImage_eq (built : manager.buildDerivedImage kernel ok = some next) :
    ∃ uses images, next = { manager with images, used := manager.used ++ uses } ∧
      ∀ use ∈ uses, use.1 = (manager.kernels kernel).id ∧
        (use.2 = derivedImageTag (manager.kernels kernel).id ∨
          manager.baseImage kernel = some use.2) := by
  rw [buildDerivedImage] at built
  split at built
  case isFalse => cases built
  case isTrue =>
    split at built
    · cases built
    case h_2 base resolved =>
      split at built
      case isTrue =>
        cases built
        refine ⟨_, _, rfl, fun use mem => ?_⟩
        obtain rfl := mem_singleton.mp mem
        exact ⟨rfl, .inl rfl⟩
      case isFalse =>
        split at built
        case isFalse => cases built
        case isTrue =>
          cases built
          refine ⟨_, _, rfl, fun use mem => ?_⟩
          rcases mem_pair.mp mem with rfl | rfl
          · exact ⟨rfl, .inr resolved⟩
          · exact ⟨rfl, .inl rfl⟩

theorem quiet_buildDerivedImage
    (built : manager.buildDerivedImage kernel ok = some next) : manager.Quiet next := by
  obtain ⟨uses, images, rfl, -⟩ := buildDerivedImage_eq built
  exact quiet_images (fun _ mem => mem) (fun _ _ found => found) _ _

/-- Kernels are registered under their ids, calls hold kernels that were made, and a kernel that is
being created is in the hands of its call alone and has no container. -/
structure Numbered (manager : Manager) : Prop where
  registered : ∀ id kernel, manager.registry.get id = some kernel →
    kernel < manager.made ∧ (manager.kernels kernel).id = id
  held : ∀ call kernel, (manager.calls call).kernel = some kernel → kernel < manager.made
  later : ∀ call, manager.called ≤ call → manager.calls call = .finished
  own : ∀ call kernel, (manager.calls call).creating = some kernel →
    (manager.kernels kernel).containerId = none ∧ (∀ id, manager.registry.get id ≠ some kernel) ∧
      ∀ other, (manager.calls other).kernel = some kernel → other = call

theorem Numbered.frame (numbered : manager.Numbered) (frame : manager.Frame next) :
    next.Numbered where
  registered id kernel found := by
    obtain ⟨made, same⟩ := numbered.registered id kernel (frame.registry id kernel found)
    exact ⟨frame.made.symm ▸ made, (frame.ids kernel).trans same⟩
  held call kernel holds := by
    rcases (frame.calls call).kernel with none | same
    · rw [none] at holds
      cases holds
    · exact frame.made.symm ▸ numbered.held call kernel (same ▸ holds)
  later call beyond :=
    (frame.calls call).finished (numbered.later call (frame.called ▸ beyond))
  own call kernel creates := by
    rcases (frame.calls call).creating with none | same
    · rw [none] at creates
      cases creates
    obtain ⟨bare, absent, only⟩ := numbered.own call kernel (same ▸ creates)
    refine ⟨frame.bare kernel bare,
      fun id found => absent id (frame.registry id kernel found), fun other holds => ?_⟩
    rcases (frame.calls other).kernel with none | same
    · rw [none] at holds
      cases holds
    · exact only other (same ▸ holds)

theorem Numbered.enter (numbered : manager.Numbered) (creating : following.creating = none)
    (held : ∀ kernel, following.kernel = some kernel → kernel < manager.made ∧
      ∀ call, (manager.calls call).creating ≠ some kernel) :
    (manager.enter following).Numbered where
  registered := numbered.registered
  held call kernel holds := by
    rw [Manager.enter, calls_move] at holds
    split at holds
    · exact (held kernel holds).1
    · exact numbered.held call kernel holds
  later call beyond := by
    have apart : call ≠ manager.called := Nat.ne_of_gt beyond
    rw [Manager.enter, calls_move, if_neg apart]
    exact numbered.later call (Nat.le_of_succ_le beyond)
  own call kernel creates := by
    rw [Manager.enter, calls_move] at creates
    split at creates
    · rw [creating] at creates
      cases creates
    · obtain ⟨bare, absent, only⟩ := numbered.own call kernel creates
      refine ⟨bare, absent, fun other holds => ?_⟩
      rw [Manager.enter, calls_move] at holds
      split at holds
      · exact absurd creates ((held kernel holds).2 call)
      · exact only other holds

@[simp] theorem kernels_make (info : KernelInfo) (other : Nat) : (manager.make info).kernels other =
      if other = manager.made then info else manager.kernels other :=
  Function.update_apply ..

variable {info : KernelInfo}

theorem kernels_make_of_lt (made : kernel < manager.made) :
    (manager.make info).kernels kernel = manager.kernels kernel := by
  rw [kernels_make, if_neg (Nat.ne_of_lt made)]

section

variable (numbered : manager.Numbered)
include numbered

theorem Numbered.make (info : KernelInfo) : (manager.make info).Numbered where
  registered id kernel found := by
    obtain ⟨made, same⟩ := numbered.registered id kernel found
    exact ⟨Nat.lt_succ_of_lt made, by rw [kernels_make_of_lt made, same]⟩
  held call kernel holds := Nat.lt_succ_of_lt (numbered.held call kernel holds)
  later := numbered.later
  own call kernel creates := by
    have made := numbered.held call kernel (Call.kernel_of_creating creates)
    rw [kernels_make_of_lt made]
    exact numbered.own call kernel creates

/-- A new kernel is in the hands of the call that creates it. -/
theorem Numbered.create (user : Nat) (bare : info.containerId = none) :
    ((manager.make info).enter (.preparing manager.made user)).Numbered where
  registered := (numbered.make info).registered
  held call kernel holds := by
    rw [Manager.enter, calls_move] at holds
    split at holds
    · cases holds
      exact Nat.lt_succ_self _
    · exact (numbered.make info).held call kernel holds
  later call beyond := by
    have apart : call ≠ (manager.make info).called := Nat.ne_of_gt beyond
    rw [Manager.enter, calls_move, if_neg apart]
    exact numbered.later call (Nat.le_of_succ_le beyond)
  own call kernel creates := by
    rw [Manager.enter, calls_move] at creates
    split at creates
    case isTrue begun =>
      cases creates
      refine ⟨?_, fun id found => ?_, fun other holds => ?_⟩
      · show ((manager.make info).kernels manager.made).containerId = none
        rw [kernels_make, if_pos rfl, bare]
      · exact absurd (numbered.registered id _ found).1 (Nat.lt_irrefl _)
      · rw [Manager.enter, calls_move] at holds
        split at holds
        case isTrue same => exact same.trans begun.symm
        case isFalse => exact absurd (numbered.held other _ holds) (Nat.lt_irrefl _)
    case isFalse =>
      obtain ⟨kept, absent, only⟩ := (numbered.make info).own call kernel creates
      refine ⟨kept, absent, fun other holds => ?_⟩
      rw [Manager.enter, calls_move] at holds
      split at holds
      case isTrue =>
        cases holds
        have old := numbered.held call _ (Call.kernel_of_creating creates)
        exact absurd old (Nat.lt_irrefl _)
      case isFalse => exact only other holds

theorem Numbered.place (owners : Dictionary String Nat)
    (made : kernel < manager.made) (free : ∀ call, (manager.calls call).creating ≠ some kernel) :
    ({ manager with
      registry := manager.registry.set (manager.kernels kernel).id kernel
      owners } : Manager).Numbered where
  registered id other found := by
    rw [Dictionary.get_set] at found
    split at found
    case isTrue same =>
      cases found
      exact ⟨made, same.symm⟩
    case isFalse => exact numbered.registered id other found
  held := numbered.held
  later := numbered.later
  own call other creates := by
    obtain ⟨bare, absent, only⟩ := numbered.own call other creates
    refine ⟨bare, fun id found => ?_, only⟩
    rw [Dictionary.get_set] at found
    split at found
    · cases found
      exact free call creates
    · exact absent id found

theorem Numbered.finished_creating
    (creates : (manager.calls call).creating = some kernel) (other : Nat) :
    ((manager.move call .finished).calls other).creating ≠ some kernel := by
  intro still
  rw [calls_move] at still
  split at still
  case isTrue => cases still
  case isFalse apart =>
    exact apart ((numbered.own call kernel creates).2.2 other (Call.kernel_of_creating still))

theorem Numbered.register (user : Nat) (creates : (manager.calls call).creating = some kernel) :
    (manager.register call kernel user).Numbered := by
  have finished : (manager.move call .finished).Numbered :=
    numbered.frame (frame_move ⟨.inl rfl, .inl rfl, fun _ => rfl⟩)
  rw [Manager.register]
  split
  · exact finished
  · exact finished.place _ (numbered.held call kernel (Call.kernel_of_creating creates))
      (numbered.finished_creating creates)

end

def Claims (manager : Manager) (kernel port : Nat) : Prop :=
  ((∃ id, manager.registry.get id = some kernel) ∨
    ∃ call, (manager.calls call).creating = some kernel) ∧
    (manager.kernels kernel).port = some port

theorem claims_of (claims : next.Claims kernel port)
    (registry : ∀ id kernel, next.registry.get id = some kernel →
      manager.registry.get id = some kernel)
    (creating : ∀ call kernel, (next.calls call).creating = some kernel →
      (manager.calls call).creating = some kernel)
    (ports : (next.kernels kernel).port = (manager.kernels kernel).port) :
    manager.Claims kernel port := by
  obtain ⟨⟨id, found⟩ | ⟨call, creates⟩, holds⟩ := claims
  · exact ⟨.inl ⟨id, registry id kernel found⟩, ports ▸ holds⟩
  · exact ⟨.inr ⟨call, creating call kernel creates⟩, ports ▸ holds⟩

theorem Frame.creating (frame : manager.Frame next) (call kernel : Nat)
    (creates : (next.calls call).creating = some kernel) :
    (manager.calls call).creating = some kernel := by
  rcases (frame.calls call).creating with none | same
  · rw [none] at creates
    cases creates
  · exact same ▸ creates

theorem Frame.claims (frame : manager.Frame next)
    (ports : ∀ kernel, (next.kernels kernel).port = (manager.kernels kernel).port)
    (apart : Exclusive manager.Claims) : Exclusive next.Claims :=
  apart.mono fun kernel _ claims => claims_of claims frame.registry frame.creating (ports kernel)

theorem ports_enter (creating : following.creating = none)
    (apart : Exclusive manager.Claims) : Exclusive (manager.enter following).Claims := by
  refine apart.mono fun kernel port claims => claims_of claims (fun _ _ found => found) ?_ rfl
  intro call other creates
  rw [Manager.enter, calls_move] at creates
  split at creates
  · rw [creating] at creates
    cases creates
  · exact creates

theorem not_claims_of_allocatePort {free : Nat → Bool} (settled : manager.PortsSettled free)
    (allocated : manager.allocatePort free = some port) (holder : Nat) :
    ¬manager.Claims holder port := by
  have allowed := List.find?_some allocated
  rw [Bool.and_eq_true, decide_eq_true_eq] at allowed
  rintro ⟨⟨id, found⟩ | ⟨call, creates⟩, holds⟩
  · exact allowed.1 (mem_filterMap.mpr ⟨_, Dictionary.mem_entries_iff.mpr found, holds⟩)
  · have taken := settled call holder port creates holds allowed.1
    rw [allowed.2] at taken
    cases taken

section

variable (apart : Exclusive manager.Claims)
include apart

theorem ports_create (user : Nat)
    (free : ∀ port, info.port = some port → ∀ holder, ¬manager.Claims holder port) :
    Exclusive ((manager.make info).enter (.preparing manager.made user)).Claims := by
  have more : ∀ holder port,
      ((manager.make info).enter (.preparing manager.made user)).Claims holder port →
        manager.Claims holder port ∨ holder = manager.made ∧ info.port = some port := by
    intro holder port claims
    by_cases new : holder = manager.made
    · have holds : ((manager.make info).kernels holder).port = some port := claims.2
      rw [kernels_make, if_pos new] at holds
      exact .inr ⟨new, holds⟩
    have kept : ((manager.make info).kernels holder).port = (manager.kernels holder).port := by
      rw [kernels_make, if_neg new]
    obtain ⟨⟨id, found⟩ | ⟨call, creates⟩, holds⟩ := claims
    · exact .inl ⟨.inl ⟨id, found⟩, kept.symm.trans holds⟩
    · rw [Manager.enter, calls_move] at creates
      split at creates
      · exact absurd (Option.some.inj creates).symm new
      · exact .inl ⟨.inr ⟨call, creates⟩, kept.symm.trans holds⟩
  cases holds : info.port with
  | none =>
    refine apart.mono fun holder port claims => ?_
    rcases more holder port claims with old | ⟨-, impossible⟩
    · exact old
    · rw [holds] at impossible
      cases impossible
  | some port =>
    refine apart.grant manager.made port
      (fun holder claims => absurd claims (free port holds holder)) fun holder other claims => ?_
    rcases more holder other claims with old | ⟨new, same⟩
    · exact .inl old
    · exact .inr ⟨new, Option.some.inj (same.symm.trans holds)⟩

theorem ports_register (user : Nat) (creates : (manager.calls call).creating = some kernel) :
    Exclusive (manager.register call kernel user).Claims := by
  have finished : manager.Frame (manager.move call .finished) :=
    frame_move ⟨.inl rfl, .inl rfl, fun _ => rfl⟩
  rw [Manager.register]
  split
  · exact finished.claims (fun _ => rfl) apart
  · refine apart.mono fun holder port claims => ?_
    obtain ⟨⟨id, found⟩ | ⟨other, still⟩, holds⟩ := claims
    · rw [Dictionary.get_set] at found
      split at found
      · cases found
        exact ⟨.inr ⟨call, creates⟩, holds⟩
      · exact ⟨.inl ⟨id, found⟩, holds⟩
    · exact ⟨.inr ⟨other, finished.creating other holder still⟩, holds⟩

theorem ports_adopt (id : String) (owners : Dictionary String Nat) (none : info.port = none) :
    Exclusive ({ manager.make info with
      registry := manager.registry.set id manager.made, owners } : Manager).Claims := by
  refine apart.mono fun holder port claims => ?_
  have holds : ((manager.make info).kernels holder).port = some port := claims.2
  rw [kernels_make] at holds
  split at holds
  case isTrue =>
    rw [none] at holds
    cases holds
  case isFalse new =>
    obtain ⟨⟨other, found⟩ | creates, -⟩ := claims
    · rw [Dictionary.get_set] at found
      split at found
      · exact absurd (Option.some.inj found).symm new
      · exact ⟨.inl ⟨other, found⟩, holds⟩
    · exact ⟨.inr creates, holds⟩

theorem ports_grant (free : ∀ holder, ¬manager.Claims holder port) :
    Exclusive (manager.edit kernel fun info => { info with port := some port }).Claims := by
  refine apart.grant kernel port (fun holder claims => absurd claims (free holder)) ?_
  intro holder other claims
  by_cases same : holder = kernel
  · have holds := claims.2
    rw [kernels_edit, if_pos same] at holds
    exact .inr ⟨same, (Option.some.inj holds).symm⟩
  · have kept : ((manager.edit kernel fun info => { info with port := some port }).kernels
        holder).port = (manager.kernels holder).port := by
      rw [kernels_edit, if_neg same]
    exact .inl (claims_of claims (fun _ _ found => found) (fun _ _ creates => creates) kept)

end

/-- Different ids have different tags, and only images of the kernel itself, or such that are not
derived, were used for it or are going to be run for it. -/
structure Tagged (manager : Manager) : Prop where
  apart : ∀ kernel < manager.made, ∀ other < manager.made,
    derivedImageTag (manager.kernels kernel).id = derivedImageTag (manager.kernels other).id →
      (manager.kernels kernel).id = (manager.kernels other).id
  used : ∀ use ∈ manager.used, (∃ kernel < manager.made, (manager.kernels kernel).id = use.1) ∧
    OwnImage use.1 use.2
  image : ∀ call kernel image, (manager.calls call).kernel = some kernel →
    (manager.calls call).image = some image → OwnImage (manager.kernels kernel).id image

section

variable (tagged : manager.Tagged)
include tagged

theorem Tagged.edit (id : (change (manager.kernels kernel)).id = (manager.kernels kernel).id) :
    (manager.edit kernel change).Tagged := by
  have ids := edit_keeps (·.id) id
  refine ⟨fun kernel made other below same => ?_, fun use mem => ?_,
    fun call kernel image holds shows => ?_⟩
  · rw [ids, ids] at same ⊢
    exact tagged.apart kernel made other below same
  · obtain ⟨⟨kernel, made, same⟩, own⟩ := tagged.used use mem
    exact ⟨⟨kernel, made, (ids kernel).trans same⟩, own⟩
  · exact (ids kernel).symm ▸ tagged.image call kernel image holds shows

theorem Tagged.move
    (own : ∀ kernel image, following.kernel = some kernel → following.image = some image →
      OwnImage (manager.kernels kernel).id image) : (manager.move call following).Tagged where
  apart := tagged.apart
  used := tagged.used
  image other kernel image holds shows := by
    rw [calls_move] at holds shows
    split at holds
    case isTrue same =>
      rw [if_pos same] at shows
      exact own kernel image holds shows
    case isFalse apart =>
      rw [if_neg apart] at shows
      exact tagged.image other kernel image holds shows

theorem Tagged.moveOn (none : following.image = none) : (manager.move call following).Tagged :=
  tagged.move fun _ image _ shows => by
    rw [none] at shows
    cases shows

theorem Tagged.enter
    (own : ∀ kernel image, following.kernel = some kernel → following.image = some image →
      OwnImage (manager.kernels kernel).id image) : (manager.enter following).Tagged :=
  have moved : (manager.move manager.called following).Tagged := tagged.move own
  ⟨moved.apart, moved.used, moved.image⟩

theorem Tagged.enterOn (none : following.image = none) : (manager.enter following).Tagged :=
  tagged.enter fun _ image _ shows => by
    rw [none] at shows
    cases shows

theorem Tagged.uses (made : kernel < manager.made)
    {uses : List (String × String)} (images : List String)
    (own : ∀ use ∈ uses, use.1 = (manager.kernels kernel).id ∧ OwnImage use.1 use.2) :
    ({ manager with images, used := manager.used ++ uses } : Manager).Tagged :=
  { tagged with
    used use mem := by
      rcases mem_append.mp mem with earlier | new
      · exact tagged.used use earlier
      · exact ⟨⟨kernel, made, (own use new).1.symm⟩, (own use new).2⟩ }

theorem Tagged.use (made : kernel < manager.made) {image : String}
    (own : OwnImage (manager.kernels kernel).id image) :
    (manager.use (manager.kernels kernel).id image).Tagged :=
  tagged.uses made manager.images fun use mem => by
    obtain rfl := mem_singleton.mp mem
    exact ⟨rfl, own⟩

theorem Tagged.removeDerivedImage (made : kernel < manager.made) :
    (manager.removeDerivedImage (manager.kernels kernel).id).Tagged :=
  tagged.uses made _ fun use mem => by
    obtain rfl := mem_singleton.mp mem
    exact ⟨rfl, .inl rfl⟩

theorem Tagged.build (made : kernel < manager.made) (plain : manager.PlainBase kernel)
    (built : manager.buildDerivedImage kernel ok = some next) : next.Tagged := by
  obtain ⟨uses, images, rfl, own⟩ := buildDerivedImage_eq built
  refine tagged.uses made images fun use mem => ?_
  obtain ⟨same, derived | base⟩ := own use mem
  · exact ⟨same, .inl (same ▸ derived)⟩
  · exact ⟨same, .inr (plain use.2 base)⟩

theorem Tagged.make (numbered : manager.Numbered)
    (fresh : manager.FreshTag info.id) : (manager.make info).Tagged where
  apart kernel made other below same := by
    rcases Nat.lt_succ_iff_lt_or_eq.mp made with old | rfl
    · rw [kernels_make_of_lt old] at same ⊢
      rcases Nat.lt_succ_iff_lt_or_eq.mp below with older | rfl
      · rw [kernels_make_of_lt older] at same ⊢
        exact tagged.apart kernel old other older same
      · rw [kernels_make, if_pos rfl] at same ⊢
        exact fresh kernel old same
    · rw [kernels_make, if_pos rfl] at same ⊢
      rcases Nat.lt_succ_iff_lt_or_eq.mp below with older | rfl
      · rw [kernels_make_of_lt older] at same ⊢
        exact (fresh other older same.symm).symm
      · rw [kernels_make, if_pos rfl]
  used use mem := by
    obtain ⟨⟨kernel, made, same⟩, own⟩ := tagged.used use mem
    exact ⟨⟨kernel, Nat.lt_succ_of_lt made, by rw [kernels_make_of_lt made, same]⟩, own⟩
  image call kernel image holds shows := by
    rw [kernels_make_of_lt (numbered.held call kernel holds)]
    exact tagged.image call kernel image holds shows

end

def Starts (manager : Manager) (call : Nat) (id : String) : Prop :=
  ∃ kernel, (manager.calls call).starting = some kernel ∧ (manager.kernels kernel).id = id

def Runs (manager : Manager) (id : String) (kernel : Nat) (container : Container) : Prop :=
  manager.registry.get id = some kernel ∧ container ∈ manager.containers ∧
    (manager.kernels kernel).containerId = some container.number

/-- A kernel is started by one call at a time, and while one is under way, the container of its
kernel is that call's own. -/
structure Contained (manager : Manager) : Prop where
  alone : Exclusive manager.Starts
  running : ∀ id kernel container, manager.Runs id kernel container →
    ((manager.kernels kernel).state = .idle ∧ ∀ call, ¬manager.Starts call id) ∨
      manager.calls container.creator = .waiting kernel
  noted : ∀ container ∈ manager.containers,
    container.number < manager.launched ∧ container.creator < manager.called
  known : ∀ kernel number, (manager.kernels kernel).containerId = some number →
    number < manager.launched
  own : ∀ removal ∈ manager.cleaned, removal.1 = removal.2

theorem Contained.of_runs (contained : manager.Contained) (numbered : manager.Numbered)
    {container : Container} (starts : manager.Starts call id)
    (runs : manager.Runs id kernel container) :
    container.creator = call ∧ manager.calls call = .waiting kernel := by
  rcases contained.running id kernel container runs with ⟨-, none⟩ | waits
  · exact absurd starts (none call)
  · have creator : manager.Starts container.creator id :=
      ⟨kernel, by rw [waits]; rfl, (numbered.registered id kernel runs.1).2⟩
    have same := contained.alone _ _ id creator starts
    exact ⟨same, same ▸ waits⟩

theorem starts_of (calls : ∀ call kernel, (next.calls call).starting = some kernel →
      (manager.calls call).starting = some kernel)
    (ids : ∀ kernel, (next.kernels kernel).id = (manager.kernels kernel).id)
    (call : Nat) (id : String) (starts : next.Starts call id) : manager.Starts call id := by
  obtain ⟨kernel, starting, same⟩ := starts
  exact ⟨kernel, calls call kernel starting, (ids kernel).symm.trans same⟩

theorem Contained.quiet (contained : manager.Contained) (quiet : manager.Quiet next) :
    next.Contained := by
  have starts := starts_of (fun call kernel starting => (quiet.starting call).symm.trans starting)
    quiet.ids
  refine ⟨contained.alone.mono starts, fun id kernel container runs => ?_,
    fun container mem => ?_, fun kernel number noted => ?_, quiet.cleaned ▸ contained.own⟩
  · have before : manager.Runs id kernel container :=
      ⟨quiet.registry id kernel runs.1, quiet.containers container runs.2.1,
        (quiet.containerIds kernel).symm.trans runs.2.2⟩
    rcases contained.running id kernel container before with ⟨idle, none⟩ | waits
    · exact .inl ⟨(quiet.states kernel).trans idle, fun call begun => none call (starts _ _ begun)⟩
    · exact .inr (quiet.waiting _ _ waits)
  · rw [quiet.launched, quiet.called]
    exact contained.noted container (quiet.containers container mem)
  · rw [quiet.launched]
    exact contained.known kernel number ((quiet.containerIds kernel).symm.trans noted)

theorem Contained.edit (contained : manager.Contained)
    (named : (change (manager.kernels kernel)).id = (manager.kernels kernel).id)
    (noted : ∀ number, (change (manager.kernels kernel)).containerId = some number →
      (manager.kernels kernel).containerId = some number ∧
        ∀ id container, ¬manager.Runs id kernel container) :
    (manager.edit kernel change).Contained := by
  have starts : ∀ call id, (manager.edit kernel change).Starts call id → manager.Starts call id :=
    starts_of (fun _ _ starting => starting) (edit_keeps (·.id) named)
  refine ⟨contained.alone.mono starts, fun id runner container runs => ?_, contained.noted,
    fun other number holds => ?_, contained.own⟩
  · obtain ⟨found, mem, holds⟩ := runs
    by_cases same : runner = kernel
    · subst same
      rw [kernels_edit, if_pos rfl] at holds
      obtain ⟨before, none⟩ := noted _ holds
      exact absurd ⟨found, mem, before⟩ (none id container)
    · rw [kernels_edit, if_neg same] at holds ⊢
      rcases contained.running id runner container ⟨found, mem, holds⟩ with ⟨idle, none⟩ | waits
      · exact .inl ⟨idle, fun call begun => none call (starts _ _ begun)⟩
      · exact .inr waits
  · rw [kernels_edit] at holds
    split at holds
    · exact contained.known kernel number (noted number holds).1
    · exact contained.known other number holds

section

variable (contained : manager.Contained) (numbered : manager.Numbered)
  (starting : (manager.calls call).starting = some kernel)
include contained numbered starting

theorem Contained.none_there (before : ∀ other, manager.calls call ≠ .waiting other) (runner : Nat)
    (container : Container) : ¬manager.Runs (manager.kernels kernel).id runner container :=
  fun runs => before runner (contained.of_runs numbered ⟨kernel, starting, rfl⟩ runs).2

theorem Contained.none_runs
    (before : ∀ other, manager.calls call ≠ .waiting other) (id : String) (container : Container) :
    ¬manager.Runs id kernel container := by
  intro runs
  rw [← (numbered.registered id kernel runs.1).2] at runs
  exact contained.none_there numbered starting before kernel container runs

theorem Contained.ended
    (same : next.registry = manager.registry ∧ next.launched = manager.launched ∧
      next.called = manager.called)
    (calls : next.calls = (manager.move call .finished).calls)
    (containers : ∀ container ∈ next.containers, container ∈ manager.containers)
    (ids : ∀ other, (next.kernels other).id = (manager.kernels other).id)
    (containerIds : ∀ other, (next.kernels other).containerId = (manager.kernels other).containerId)
    (states : ∀ other ≠ kernel, (next.kernels other).state = (manager.kernels other).state)
    (settled : ∀ runner container, next.Runs (manager.kernels kernel).id runner container →
      (next.kernels runner).state = .idle)
    (own : ∀ removal ∈ next.cleaned, removal.1 = removal.2) : next.Contained := by
  obtain ⟨registry, launched, called⟩ := same
  have goesOn : ∀ other runner, (next.calls other).starting = some runner →
      other ≠ call ∧ (manager.calls other).starting = some runner := by
    intro other runner begun
    rw [calls, calls_move] at begun
    split at begun
    case isTrue => cases begun
    case isFalse apart => exact ⟨apart, begun⟩
  have starts := starts_of (fun other runner begun => (goesOn other runner begun).2) ids
  refine ⟨contained.alone.mono starts, fun id runner container runs => ?_,
    fun container mem => ?_, fun other number holds => ?_, own⟩
  · have before : manager.Runs id runner container :=
      ⟨registry ▸ runs.1, containers container runs.2.1, (containerIds runner).symm.trans runs.2.2⟩
    have named := (numbered.registered id runner before.1).2
    by_cases here : (manager.kernels kernel).id = id
    · subst here
      refine .inl ⟨settled runner container runs, fun other begun => ?_⟩
      have only := contained.alone other call _ (starts other _ begun) ⟨kernel, starting, rfl⟩
      obtain ⟨started, begins, -⟩ := begun
      exact (goesOn other started begins).1 only
    · have apart : runner ≠ kernel := fun same => here (same ▸ named)
      rcases contained.running id runner container before with ⟨idle, none⟩ | waits
      · exact .inl ⟨(states runner apart).trans idle, fun other begun => none other
          (starts other id begun)⟩
      refine .inr ?_
      have another : container.creator ≠ call := by
        intro same
        rw [same] at waits
        rw [waits] at starting
        exact apart (Option.some.inj starting)
      rw [calls, calls_move, if_neg another, waits]
  · rw [launched, called]
    exact contained.noted container (containers container mem)
  · rw [launched]
    exact contained.known other number ((containerIds other).symm.trans holds)

end

theorem kernels_failStart (other : Nat) : (manager.failStart call kernel).kernels other =
    (manager.edit kernel fun info => { info with state := .error }).kernels other := rfl

section

variable (contained : manager.Contained)
include contained

theorem Contained.failStart (numbered : manager.Numbered)
    (starting : (manager.calls call).starting = some kernel) :
    (manager.failStart call kernel).Contained := by
  refine contained.ended numbered starting ⟨rfl, rfl, rfl⟩ rfl
    (fun container mem => (mem_filter.mp mem).1)
    (fun other => ?_) (fun other => ?_) (fun other apart => ?_)
    (fun runner container runs => ?_) (fun removal mem => ?_)
  · rw [kernels_failStart]
    exact edit_keeps (·.id) rfl other
  · rw [kernels_failStart]
    exact edit_keeps (·.containerId) rfl other
  · rw [kernels_failStart, kernels_edit, if_neg apart]
  · -- The container that was noted for the id has just been removed.
    obtain ⟨found, mem, holds⟩ := runs
    have kept := (mem_filter.mp mem).2
    rw [decide_eq_true_eq] at kept
    refine absurd ?_ kept
    rw [containerOf]
    show _ = (manager.registry.get _).bind fun other =>
      ((manager.edit kernel _).kernels other).containerId
    rw [show manager.registry.get (manager.kernels kernel).id = some runner from found]
    exact holds.symm
  · rcases mem_append.mp mem with earlier | new
    · exact contained.own removal earlier
    obtain ⟨container, removed, rfl⟩ := mem_map.mp new
    obtain ⟨mem, here⟩ := mem_filter.mp removed
    rw [decide_eq_true_eq, containerOf] at here
    obtain ⟨runner, found, holds⟩ := Option.bind_eq_some_iff.mp here.symm
    exact (contained.of_runs numbered ⟨kernel, starting, rfl⟩ ⟨found, mem, holds⟩).1.symm

theorem Contained.enter
    (none : following.starting = none) : (manager.enter following).Contained := by
  have starts : ∀ call id, (manager.enter following).Starts call id → manager.Starts call id := by
    refine starts_of (fun call kernel starting => ?_) fun _ => rfl
    rw [Manager.enter, calls_move] at starting
    split at starting
    · rw [none] at starting
      cases starting
    · exact starting
  refine ⟨contained.alone.mono starts, fun id kernel container runs => ?_,
    fun container mem => ?_, contained.known, contained.own⟩
  · rcases contained.running id kernel container runs with ⟨idle, unstarted⟩ | waits
    · exact .inl ⟨idle, fun call begun => unstarted call (starts _ _ begun)⟩
    · have old : container.creator ≠ manager.called :=
        Nat.ne_of_lt (contained.noted container runs.2.1).2
      exact .inr (by rw [Manager.enter, calls_move, if_neg old, waits])
  · obtain ⟨number, creator⟩ := contained.noted container mem
    exact ⟨number, Nat.lt_succ_of_lt creator⟩

theorem Contained.enterStart (numbered : manager.Numbered)
    (found : manager.registry.get id = some kernel)
    (stands : (manager.kernels kernel).state ≠ .idle) (alone : ∀ call, ¬manager.Starts call id)
    (starting : following.starting = some kernel) : (manager.enter following).Contained := by
  have named := (numbered.registered id kernel found).2
  have starts : ∀ call other, (manager.enter following).Starts call other →
      manager.Starts call other ∨ call = manager.called ∧ other = id := by
    rintro call other ⟨begun, begins, same⟩
    rw [Manager.enter, calls_move] at begins
    split at begins
    case isTrue new =>
      cases starting.symm.trans begins
      exact .inr ⟨new, same.symm.trans named⟩
    case isFalse => exact .inl ⟨begun, begins, same⟩
  refine ⟨contained.alone.grant manager.called id
      (fun call begun => absurd begun (alone call)) starts,
    fun other runner container runs => ?_, fun container mem => ?_, contained.known,
    contained.own⟩
  · rcases contained.running other runner container runs with ⟨idle, unstarted⟩ | waits
    · refine .inl ⟨idle, fun call begun => ?_⟩
      rcases starts call other begun with earlier | ⟨-, rfl⟩
      · exact unstarted call earlier
      · cases found.symm.trans runs.1
        exact stands idle
    · have old : container.creator ≠ manager.called :=
        Nat.ne_of_lt (contained.noted container runs.2.1).2
      exact .inr (by rw [Manager.enter, calls_move, if_neg old, waits])
  · obtain ⟨number, creator⟩ := contained.noted container mem
    exact ⟨number, Nat.lt_succ_of_lt creator⟩

theorem Contained.make (numbered : manager.Numbered)
    (bare : info.containerId = none) : (manager.make info).Contained := by
  have starts : ∀ call id, (manager.make info).Starts call id → manager.Starts call id := by
    rintro call id ⟨kernel, starting, same⟩
    have made := numbered.held call kernel (Call.kernel_of_starting starting)
    rw [kernels_make_of_lt made] at same
    exact ⟨kernel, starting, same⟩
  refine ⟨contained.alone.mono starts, fun id kernel container runs => ?_, contained.noted,
    fun kernel number holds => ?_, contained.own⟩
  · obtain ⟨found, mem, holds⟩ := runs
    have made := (numbered.registered id kernel found).1
    rw [kernels_make_of_lt made] at holds ⊢
    rcases contained.running id kernel container ⟨found, mem, holds⟩ with ⟨idle, none⟩ | waits
    · exact .inl ⟨idle, fun call begun => none call (starts _ _ begun)⟩
    · exact .inr waits
  · rw [kernels_make] at holds
    split at holds
    · rw [bare] at holds
      cases holds
    · exact contained.known kernel number holds

theorem Contained.place (id : String)
    (owners : Dictionary String Nat) (bare : (manager.kernels kernel).containerId = none) :
    ({ manager with registry := manager.registry.set id kernel, owners } : Manager).Contained := by
  refine ⟨contained.alone, fun other runner container runs => ?_, contained.noted,
    contained.known, contained.own⟩
  obtain ⟨found, mem, holds⟩ := runs
  rw [Dictionary.get_set] at found
  split at found
  · cases found
    change (manager.kernels kernel).containerId = _ at holds
    rw [bare] at holds
    cases holds
  · exact contained.running other runner container ⟨found, mem, holds⟩

theorem Contained.register (numbered : manager.Numbered)
    (user : Nat) (creates : (manager.calls call).creating = some kernel) :
    (manager.register call kernel user).Contained := by
  have finished : (manager.move call .finished).Contained := by
    refine contained.quiet (quiet_move ⟨.inl rfl, .inl rfl, fun _ => rfl⟩
      (Call.starting_of_creating creates).symm fun other waits => ?_)
    rw [waits] at creates
    cases creates
  rw [Manager.register]
  split
  · exact finished
  · exact finished.place _ _ (numbered.own call kernel creates).1

end

@[simp] theorem kernels_runContainer (other : Nat) :
    (manager.runContainer call kernel).kernels other =
      if other = kernel then { manager.kernels kernel with containerId := some manager.launched }
      else manager.kernels other :=
  Function.update_apply ..

theorem ids_runContainer (call kernel other : Nat) :
    ((manager.runContainer call kernel).kernels other).id = (manager.kernels other).id := by
  rw [kernels_runContainer]
  split
  case isTrue same => rw [same]
  case isFalse => rfl

theorem Contained.run (contained : manager.Contained) (numbered : manager.Numbered)
    {image : String} (launching : manager.calls call = .launching kernel image) :
    ((manager.runContainer call kernel).move call (.waiting kernel)).Contained := by
  have begun : call < manager.called := by
    rcases Nat.lt_or_ge call manager.called with before | beyond
    · exact before
    · rw [numbered.later call beyond] at launching
      cases launching
  have starts : ∀ other id,
      ((manager.runContainer call kernel).move call (.waiting kernel)).Starts other id →
        manager.Starts other id := by
    refine starts_of (fun other runner starting => ?_) (ids_runContainer call kernel)
    rw [calls_move] at starting
    split at starting
    case isTrue same => exact same ▸ launching ▸ starting
    case isFalse => exact starting
  refine ⟨contained.alone.mono starts, fun id runner container runs => ?_,
    fun container mem => ?_, fun other number holds => ?_, contained.own⟩
  · obtain ⟨found, mem, holds⟩ := runs
    rw [calls_move]
    change ((manager.runContainer call kernel).kernels runner).containerId = _ at holds
    show ((manager.runContainer call kernel).kernels runner).state = _ ∧ _ ∨ _
    rw [kernels_runContainer] at holds ⊢
    rcases mem_append.mp mem with old | new
    · split at holds
      · -- The number of the new container is that of no other one.
        have number := (contained.noted container old).1
        rw [← Option.some.inj holds] at number
        exact absurd number (Nat.lt_irrefl _)
      case isFalse apart =>
        rw [if_neg apart]
        rcases contained.running id runner container ⟨found, old, holds⟩ with ⟨idle, none⟩ | waits
        · exact .inl ⟨idle, fun other begun => none other (starts other id begun)⟩
        have another : container.creator ≠ call := by
          intro same
          rw [same, launching] at waits
          cases waits
        exact .inr (by rw [if_neg another]; exact waits)
    · obtain rfl := mem_singleton.mp new
      split at holds
      case isTrue same => exact .inr (by rw [if_pos rfl, same])
      case isFalse => exact absurd (contained.known runner _ holds) (Nat.lt_irrefl _)
  · rcases mem_append.mp mem with old | new
    · obtain ⟨number, creator⟩ := contained.noted container old
      exact ⟨Nat.lt_succ_of_lt number, creator⟩
    · obtain rfl := mem_singleton.mp new
      exact ⟨Nat.lt_succ_self _, begun⟩
  · change ((manager.runContainer call kernel).kernels other).containerId = _ at holds
    rw [kernels_runContainer] at holds
    split at holds
    · cases holds
      exact Nat.lt_succ_self _
    · exact Nat.lt_succ_of_lt (contained.known other number holds)

theorem Numbered.run (numbered : manager.Numbered)
    (starting : (manager.calls call).starting = some kernel) :
    (manager.runContainer call kernel).Numbered where
  registered id other found := by
    obtain ⟨made, named⟩ := numbered.registered id other found
    exact ⟨made, (ids_runContainer call kernel other).trans named⟩
  held := numbered.held
  later := numbered.later
  own other creating creates := by
    obtain ⟨bare, absent, only⟩ := numbered.own other creating creates
    refine ⟨?_, absent, only⟩
    rw [kernels_runContainer]
    split
    case isTrue same =>
      subst same
      have same := only call (Call.kernel_of_starting starting)
      subst same
      exact absurd ((Call.starting_of_creating creates).symm.trans starting) nofun
    case isFalse => exact bare

end Manager

end Flowfile.KernelManager
