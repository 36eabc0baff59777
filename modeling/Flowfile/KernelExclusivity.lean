import Flowfile.KernelInvariants

/-!
# Exclusive ports, images and containers

Each request and each step of a call keeps everything the calls rely on, as long as the step is
careful. A state in which all that holds keeps ports, derived images and the containers of starts
apart.
-/

namespace Flowfile.KernelManager

open Library.Dictionaries Library.EventRuns Library.ExclusiveClaims List

variable {following : Call} {config : KernelConfig} {free : Nat → Bool} {user : Nat}
  {outside : Outside}

namespace Manager

variable {manager next : Manager} {call kernel : Nat}

/-- Everything that calls rely on. -/
structure Sound (manager : Manager) : Prop where
  numbered : manager.Numbered
  ports : Exclusive manager.Claims
  tagged : manager.Tagged
  contained : manager.Contained

section

variable (sound : manager.Sound)
include sound

theorem Sound.quiet (quiet : manager.Quiet next) (tagged : next.Tagged) : next.Sound :=
  ⟨sound.numbered.frame quiet.toFrame, quiet.toFrame.claims quiet.ports sound.ports, tagged,
    sound.contained.quiet quiet⟩

theorem Sound.moveOn (unstarted : (manager.calls call).starting = none)
    (follows : following.Follows (manager.calls call)) (starting : following.starting = none)
    (image : following.image = none) : (manager.move call following).Sound := by
  refine sound.quiet (quiet_move follows (starting.trans unstarted.symm) fun kernel waits => ?_)
    (sound.tagged.moveOn image)
  rw [waits] at unstarted
  cases unstarted

theorem Sound.finish (unstarted : (manager.calls call).starting = none) :
    (manager.move call .finished).Sound :=
  sound.moveOn unstarted ⟨.inl rfl, .inl rfl, fun _ => rfl⟩ rfl rfl

theorem Sound.enter
    (creating : following.creating = none) (starting : following.starting = none)
    (image : following.image = none)
    (held : ∀ kernel, following.kernel = some kernel → kernel < manager.made ∧
      ∀ call, (manager.calls call).creating ≠ some kernel) : (manager.enter following).Sound :=
  ⟨sound.numbered.enter creating held, ports_enter creating sound.ports,
    sound.tagged.enterOn image, sound.contained.enter starting⟩

end

variable {id : String}

theorem Numbered.not_creating (numbered : manager.Numbered)
    (found : manager.registry.get id = some kernel) :
    kernel < manager.made ∧ ∀ call, (manager.calls call).creating ≠ some kernel :=
  ⟨(numbered.registered id kernel found).1,
    fun call creates => (numbered.own call kernel creates).2.1 id found⟩

section

variable (sound : manager.Sound)
include sound

theorem Sound.create {port : Option Nat} (user : Nat) (fresh : manager.FreshTag config.id)
    (free : ∀ given, port = some given → ∀ holder, ¬manager.Claims holder given) :
    ((manager.make (.ofConfig config port)).enter (.preparing manager.made user)).Sound := by
  have bare : (KernelInfo.ofConfig config port).containerId = none := rfl
  have tagged : (manager.make (.ofConfig config port)).Tagged :=
    sound.tagged.make sound.numbered fresh
  exact {
    numbered := sound.numbered.create user bare
    ports := ports_create sound.ports user free
    tagged := tagged.enterOn rfl
    contained := (sound.contained.make sound.numbered bare).enter rfl }

theorem Sound.createKernel (user : Nat)
    (careful : manager.registry.get config.id = none →
      manager.FreshTag config.id ∧ manager.PortsSettled free) :
    (manager.createKernel config user free).Sound := by
  rw [Manager.createKernel]
  split
  case h_1 => exact sound
  case h_2 absent =>
    obtain ⟨fresh, settled⟩ := careful absent
    split
    · exact sound.create user fresh nofun
    · split
      case h_1 => exact sound
      case h_2 port allocated =>
        refine sound.create user fresh fun given same => ?_
        cases same
        exact not_claims_of_allocatePort settled allocated

theorem Sound.register (user : Nat) (creates : (manager.calls call).creating = some kernel) :
    (manager.register call kernel user).Sound := by
  refine ⟨sound.numbered.register user creates, ports_register sound.ports user creates, ?_,
    sound.contained.register sound.numbered user creates⟩
  have finished : (manager.move call .finished).Tagged := sound.tagged.moveOn rfl
  rw [Manager.register]
  split
  · exact finished
  · exact ⟨finished.apart, finished.used, finished.image⟩

theorem Sound.prepare (preparing : manager.calls call = .preparing kernel user) :
    (manager.prepare call kernel user).Sound := by
  rw [Manager.prepare]
  split
  · split
    · exact sound.register user (by rw [preparing]; rfl)
    · exact sound.moveOn (by rw [preparing]; rfl)
        (by rw [preparing]; exact ⟨.inr rfl, .inr rfl, nofun⟩) rfl rfl
  · exact sound.finish (by rw [preparing]; rfl)

end

variable {ok : Bool}

theorem Sound.bake (sound : manager.Sound)
    (baking : manager.calls call = .baking kernel user) (plain : manager.PlainBase kernel) :
    (manager.bake call kernel user ok).Sound := by
  have made := sound.numbered.held call kernel (by rw [baking]; rfl)
  rw [Manager.bake]
  split
  case h_1 => exact sound.finish (by rw [baking]; rfl)
  case h_2 built isBuilt =>
    have built := sound.quiet (quiet_buildDerivedImage isBuilt)
      (sound.tagged.build made plain isBuilt)
    obtain ⟨uses, images, rfl, -⟩ := buildDerivedImage_eq isBuilt
    exact built.moveOn (by rw [baking]; rfl) (by rw [baking]; exact ⟨.inr rfl, .inr rfl, nofun⟩)
      rfl rfl

variable {image : String}

theorem Sound.use (sound : manager.Sound) (made : kernel < manager.made)
    (own : OwnImage (manager.kernels kernel).id image) :
    (manager.use (manager.kernels kernel).id image).Sound :=
  sound.quiet (quiet_use _ _) (sound.tagged.use made own)

theorem Sound.inspect (sound : manager.Sound)
    (inspecting : manager.calls call = .inspecting kernel user) :
    (manager.inspect call kernel user).Sound := by
  have made := sound.numbered.held call kernel (by rw [inspecting]; rfl)
  exact (sound.use made (.inl rfl)).register user (by
    show (manager.calls call).creating = _
    rw [inspecting]
    rfl)

theorem Contained.unstarted (contained : manager.Contained) (numbered : manager.Numbered)
    (found : manager.registry.get id = some kernel)
    (stands : (manager.kernels kernel).state ≠ .idle) (alone : ∀ call, ¬manager.Starts call id)
    (other : String) (container : Container) : ¬manager.Runs other kernel container := by
  intro runs
  rcases contained.running other kernel container runs with ⟨idle, -⟩ | waits
  · exact stands idle
  · exact alone container.creator
      ⟨kernel, by rw [waits]; rfl, (numbered.registered id kernel found).2⟩

section

variable (sound : manager.Sound)
include sound

theorem Sound.restate (state : KernelState)
    (none : ∀ id container, ¬manager.Runs id kernel container) :
    (manager.edit kernel fun info => { info with state }).Sound where
  numbered := sound.numbered.frame (frame_edit rfl id)
  ports := (frame_edit rfl id).claims (edit_keeps (·.port) rfl) sound.ports
  tagged := sound.tagged.edit rfl
  contained := sound.contained.edit rfl fun _ noted => ⟨noted, none⟩

theorem Sound.startKernel
    (careful : ∀ kernel, manager.registry.get id = some kernel →
      (manager.kernels kernel).state ≠ .idle → manager.PlainBase kernel ∧
        ∀ call other, (manager.calls call).starting = some other →
          (manager.kernels other).id ≠ id) : (manager.startKernel id).Sound := by
  rw [Manager.startKernel]
  split
  case h_1 => exact sound
  case h_2 kernel found =>
    split
    case isTrue => exact sound
    case isFalse stands =>
      obtain ⟨plain, others⟩ := careful kernel found stands
      have alone : ∀ call, ¬manager.Starts call id := by
        rintro call ⟨other, starting, same⟩
        exact others call other starting same
      have begins : ∀ following : Call, following.creating = none →
          following.kernel = some kernel → following.starting = some kernel →
          (∀ image, following.image = some image → isDerivedImage image = false) →
            (manager.enter following).Sound := by
        intro following creating holds starting image
        refine ⟨sound.numbered.enter creating fun other same => ?_,
          ports_enter creating sound.ports, sound.tagged.enter fun _ given _ shows =>
            .inr (image given shows),
          sound.contained.enterStart sound.numbered found stands alone starting⟩
        cases holds.symm.trans same
        exact sound.numbered.not_creating found
      split
      case h_1 => exact sound
      case h_2 base resolved =>
        split
        · split
          · refine begins _ rfl rfl rfl fun image same => ?_
            cases same
            exact plain _ resolved
          · exact begins _ rfl rfl rfl nofun
        · exact sound.restate .error
            (sound.contained.unstarted sound.numbered found stands alone)

theorem Sound.giveUp (starting : (manager.calls call).starting = some kernel)
    (none : ∀ runner container, ¬manager.Runs (manager.kernels kernel).id runner container) :
    (manager.move call .finished).Sound := by
  have finishes : Call.finished.Follows (manager.calls call) := ⟨.inl rfl, .inl rfl, fun _ => rfl⟩
  refine ⟨sound.numbered.frame (frame_move finishes),
    (frame_move finishes).claims (fun _ => rfl) sound.ports, sound.tagged.moveOn rfl, ?_⟩
  exact sound.contained.ended sound.numbered starting ⟨rfl, rfl, rfl⟩ rfl
    (fun _ mem => mem) (fun _ => rfl) (fun _ => rfl) (fun _ _ => rfl)
    (fun runner container runs => absurd runs (none runner container)) sound.contained.own

theorem Sound.build
    (building : manager.calls call = .building kernel) (plain : manager.PlainBase kernel) :
    (manager.build call kernel ok).Sound := by
  have made := sound.numbered.held call kernel (by rw [building]; rfl)
  have starting : (manager.calls call).starting = some kernel := by rw [building]; rfl
  have before : ∀ other, manager.calls call ≠ .waiting other := by rw [building]; nofun
  rw [Manager.build]
  split
  case h_1 =>
    have none := sound.contained.none_runs sound.numbered starting before
    have restated := sound.restate .error none
    exact restated.giveUp starting
      (restated.contained.none_there restated.numbered starting before)
  case h_2 built isBuilt =>
    have tagged := sound.tagged.build made plain isBuilt
    have quiet := quiet_buildDerivedImage isBuilt
    obtain ⟨uses, images, rfl, -⟩ := buildDerivedImage_eq isBuilt
    refine (sound.quiet quiet tagged).quiet
      (quiet_move (by rw [building]; exact ⟨.inr rfl, .inr rfl, nofun⟩) (by rw [building]; rfl)
        before) (tagged.move fun other image holds shows => ?_)
    cases holds
    cases shows
    exact .inl rfl

/-- The start of a kernel whose port is settled comes to its container. -/
theorem Sound.ready (allocating : manager.calls call = .allocating kernel image) :
    (manager.move call (.launching kernel image)).Sound := by
  refine sound.quiet (quiet_move (by rw [allocating]; exact ⟨.inr rfl, .inr rfl, nofun⟩)
    (by rw [allocating]; rfl) (by rw [allocating]; nofun))
    (sound.tagged.move fun other given holds shows => ?_)
  refine sound.tagged.image call other given ?_ ?_
  · rw [allocating]
    exact holds
  · rw [allocating]
    exact shows

theorem Sound.allocate (allocating : manager.calls call = .allocating kernel image)
    (settled : manager.PortsSettled free) : (manager.allocate call kernel image free).Sound := by
  have starting : (manager.calls call).starting = some kernel := by rw [allocating]; rfl
  have before : ∀ other, manager.calls call ≠ .waiting other := by rw [allocating]; nofun
  have quiet : manager.Quiet (manager.edit kernel fun info => { info with image := some image }) :=
    quiet_edit (fun _ => rfl) (fun _ => rfl) (fun _ => rfl) fun _ => rfl
  have chosen := sound.quiet quiet (sound.tagged.edit rfl)
  rw [Manager.allocate]
  split
  · split
    · exact chosen.giveUp starting (chosen.contained.none_there chosen.numbered starting before)
    case h_2 port allocated =>
      have none := chosen.contained.none_runs chosen.numbered starting before
      have granted : ((manager.edit kernel fun info => { info with image := some image }).edit
          kernel fun info => { info with port := some port }).Sound := {
        numbered := chosen.numbered.frame (frame_edit rfl id)
        ports := ports_grant chosen.ports fun holder claims =>
          not_claims_of_allocatePort settled allocated holder
            (claims_of claims quiet.registry quiet.toFrame.creating (quiet.ports holder))
        tagged := chosen.tagged.edit rfl
        contained := chosen.contained.edit rfl fun _ noted => ⟨noted, none⟩ }
      exact granted.ready allocating
  · exact chosen.ready allocating

theorem Sound.failStart (starting : (manager.calls call).starting = some kernel) :
    (manager.failStart call kernel).Sound := by
  let failed := manager.edit kernel fun info => { info with state := .error }
  have frame : manager.Frame ((failed.cleanupContainer (manager.kernels kernel).id).move call
      .finished) :=
    ((frame_edit rfl id).trans (quiet_cleanupContainer _).toFrame).trans
      (frame_move ⟨.inl rfl, .inl rfl, fun _ => rfl⟩)
  have tagged : (failed.move call .finished).Tagged := (sound.tagged.edit rfl).moveOn rfl
  have ports : ∀ other, (failed.kernels other).port = (manager.kernels other).port :=
    edit_keeps (·.port) rfl
  have following : manager.Frame (manager.failStart call kernel) :=
    ⟨frame.made, frame.called, frame.ids, frame.bare, frame.registry, frame.calls⟩
  exact {
    numbered := sound.numbered.frame following
    ports := following.claims ports sound.ports
    tagged := ⟨tagged.apart, tagged.used, tagged.image⟩
    contained := sound.contained.failStart sound.numbered starting }

theorem Sound.run (launching : manager.calls call = .launching kernel image) :
    ((manager.runContainer call kernel).move call (.waiting kernel)).Sound := by
  have waits : (manager.runContainer call kernel).Frame
      ((manager.runContainer call kernel).move call (.waiting kernel)) := by
    refine frame_move ?_
    show (Call.waiting kernel).Follows (manager.calls call)
    rw [launching]
    exact ⟨.inr rfl, .inr rfl, nofun⟩
  have ports : ∀ other, ((manager.runContainer call kernel).kernels other).port =
      (manager.kernels other).port := by
    intro other
    rw [kernels_runContainer]
    split
    case isTrue same => rw [same]
    case isFalse => rfl
  have edited : (manager.edit kernel fun info =>
      { info with containerId := some manager.launched }).Tagged := sound.tagged.edit rfl
  have tagged : (manager.runContainer call kernel).Tagged :=
    ⟨edited.apart, edited.used, edited.image⟩
  exact {
    numbered := (sound.numbered.run (by rw [launching]; rfl)).frame waits
    ports := sound.ports.mono fun other _ claims =>
      claims_of claims (fun _ _ found => found) waits.creating (ports other)
    tagged := tagged.moveOn rfl
    contained := sound.contained.run sound.numbered launching }

end

theorem move_move (first second : Call) :
    (manager.move call first).move call second = manager.move call second := by
  simp [move]

section

variable (sound : manager.Sound)
include sound

theorem Sound.leave (launching : manager.calls call = .launching kernel image)
    (absent : ∀ runner, manager.registry.get (manager.kernels kernel).id ≠ some runner) :
    ((manager.runContainer call kernel).move call .finished).Sound := by
  rw [← move_move (.waiting kernel)]
  refine (sound.run launching).giveUp (by rw [calls_move, if_pos rfl]; rfl) ?_
  rintro runner container ⟨found, -⟩
  refine absent runner ?_
  rw [← ids_runContainer call kernel kernel]
  exact found

theorem Sound.launch (launching : manager.calls call = .launching kernel image) :
    (manager.launch call kernel image ok).Sound := by
  have starting : (manager.calls call).starting = some kernel := by rw [launching]; rfl
  have before : ∀ other, manager.calls call ≠ .waiting other := by rw [launching]; nofun
  have made := sound.numbered.held call kernel (Call.kernel_of_starting starting)
  have none := sound.contained.none_runs sound.numbered starting before
  let marked := manager.edit kernel fun info => { info with state := .starting }
  have begun : (marked.use (manager.kernels kernel).id image).Sound := by
    have marks : marked.Sound := sound.restate .starting none
    have same : (marked.kernels kernel).id = (manager.kernels kernel).id :=
      edit_keeps (·.id) rfl kernel
    have own : OwnImage (manager.kernels kernel).id image :=
      sound.tagged.image call kernel image (Call.kernel_of_starting starting)
        (by rw [launching]; rfl)
    rw [← same] at own ⊢
    exact marks.use made own
  rw [Manager.launch]
  split
  · exact begun.failStart starting
  · have waits := begun.run launching
    split
    case h_1 absent =>
      -- The kernel has been deleted: its container is noted for no registered one.
      refine begun.leave launching fun runner found => ?_
      have same : (marked.kernels kernel).id = (manager.kernels kernel).id :=
        edit_keeps (·.id) rfl kernel
      change manager.registry.get (marked.kernels kernel).id = some runner at found
      rw [same, absent] at found
      cases found
    case h_2 => exact waits

theorem Sound.wait
    (waiting : manager.calls call = .waiting kernel) : (manager.wait call kernel ok).Sound := by
  have starting : (manager.calls call).starting = some kernel := by rw [waiting]; rfl
  rw [Manager.wait]
  split
  case isFalse => exact sound.failStart starting
  case isTrue =>
    let idle := manager.edit kernel fun info => { info with state := .idle }
    have frame : manager.Frame (idle.move call .finished) :=
      (frame_edit rfl id).trans (frame_move ⟨.inl rfl, .inl rfl, fun _ => rfl⟩)
    have ids : ∀ other, (idle.kernels other).id = (manager.kernels other).id :=
      edit_keeps (·.id) rfl
    have containerIds : ∀ other,
        (idle.kernels other).containerId = (manager.kernels other).containerId :=
      edit_keeps (·.containerId) rfl
    have ports : ∀ other, (idle.kernels other).port = (manager.kernels other).port :=
      edit_keeps (·.port) rfl
    refine ⟨sound.numbered.frame frame, frame.claims ports sound.ports,
      (sound.tagged.edit rfl).moveOn rfl, ?_⟩
    refine sound.contained.ended sound.numbered starting ⟨rfl, rfl, rfl⟩ rfl
      (fun _ mem => mem) ids containerIds (fun other apart => ?_) ?_ sound.contained.own
    · show (idle.kernels other).state = _
      rw [kernels_edit, if_neg apart]
    · -- The container that is there is the one this call has waited for.
      rintro runner container ⟨found, mem, holds⟩
      have waits := (sound.contained.of_runs sound.numbered ⟨kernel, starting, rfl⟩
        ⟨found, mem, (containerIds runner).symm.trans holds⟩).2
      obtain rfl := Call.waiting.inj (waiting.symm.trans waits)
      show (idle.kernels kernel).state = _
      rw [kernels_edit, if_pos rfl]

theorem Sound.stopKernel (id : String) : (manager.stopKernel id).Sound := by
  rw [Manager.stopKernel]
  split
  case h_1 => exact sound
  case h_2 kernel found =>
    have cleaned : (manager.cleanupContainer id).Sound :=
      sound.quiet (quiet_cleanupContainer id)
        ⟨sound.tagged.apart, sound.tagged.used, sound.tagged.image⟩
    have frame : (manager.cleanupContainer id).Frame ((manager.cleanupContainer id).edit kernel
        fun info => { info with state := .stopped, containerId := none }) :=
      frame_edit rfl fun _ => rfl
    exact {
      numbered := cleaned.numbered.frame frame
      ports := frame.claims (edit_keeps (·.port) rfl) cleaned.ports
      tagged := cleaned.tagged.edit rfl
      contained := cleaned.contained.edit rfl nofun }

theorem Sound.removeDerivedImage (made : kernel < manager.made) :
    (manager.removeDerivedImage (manager.kernels kernel).id).Sound :=
  sound.quiet (quiet_removeDerivedImage _) (sound.tagged.removeDerivedImage made)

theorem Sound.configure (change : KernelInfo → KernelSettings) :
    (manager.edit kernel fun info => { info with toKernelSettings := change info }).Sound :=
  sound.quiet (quiet_edit (fun _ => rfl) (fun _ => rfl) (fun _ => rfl) fun _ => rfl)
    (sound.tagged.edit rfl)

theorem Sound.updateKernel (id : String) (packages : List String) :
    (manager.updateKernel id packages).Sound := by
  rw [Manager.updateKernel]
  split
  case h_1 => exact sound
  case h_2 kernel found =>
    obtain ⟨made, named⟩ := sound.numbered.registered id kernel found
    have changed : (manager.edit kernel fun info => { info with packages := packages }).Sound :=
      sound.configure fun info => { info.toKernelSettings with packages := packages }
    have cleared : (if (manager.kernels kernel).packages = [] then
        manager.edit kernel fun info => { info with packages := packages }
      else (manager.edit kernel fun info =>
        { info with packages := packages }).removeDerivedImage id).Sound := by
      split
      · exact changed
      · have removed := changed.removeDerivedImage made
        rw [edit_keeps (·.id) rfl kernel, named] at removed
        exact removed
    have registry : (if (manager.kernels kernel).packages = [] then
        manager.edit kernel fun info => { info with packages := packages }
      else (manager.edit kernel fun info =>
        { info with packages := packages }).removeDerivedImage id).registry = manager.registry := by
      split <;> rfl
    dsimp only
    split
    · exact sound
    · split
      · exact sound
      · split
        · exact sound
        · split
          · exact cleared
          · refine cleared.enter rfl rfl rfl fun other same => ?_
            cases same
            exact cleared.numbered.not_creating (registry ▸ found)

theorem Sound.rebuild {oldPackages : List String}
    (rebuilding : manager.calls call = .rebuilding kernel oldPackages)
    (plain : manager.PlainBase kernel) : (manager.rebuild call kernel oldPackages ok).Sound := by
  have made := sound.numbered.held call kernel (by rw [rebuilding]; rfl)
  rw [Manager.rebuild]
  split
  case h_1 built isBuilt =>
    have quiet := sound.quiet (quiet_buildDerivedImage isBuilt)
      (sound.tagged.build made plain isBuilt)
    obtain ⟨uses, images, rfl, -⟩ := buildDerivedImage_eq isBuilt
    exact quiet.moveOn (by rw [rebuilding]; rfl)
      (by rw [rebuilding]; exact ⟨.inr rfl, .inr rfl, nofun⟩) rfl rfl
  case h_2 =>
    have changed : (manager.edit kernel fun info => { info with packages := oldPackages }).Sound :=
      sound.configure fun info => { info.toKernelSettings with packages := oldPackages }
    split
    · exact changed.finish (by show (manager.calls call).starting = _; rw [rebuilding]; rfl)
    · exact changed.moveOn (by show (manager.calls call).starting = _; rw [rebuilding]; rfl)
        (by
          show (Call.restoring kernel).Follows (manager.calls call)
          rw [rebuilding]
          exact ⟨.inr rfl, .inr rfl, nofun⟩) rfl rfl

theorem Sound.restore
    (restoring : manager.calls call = .restoring kernel) (plain : manager.PlainBase kernel) :
    (manager.restore call kernel ok).Sound := by
  have made := sound.numbered.held call kernel (by rw [restoring]; rfl)
  rw [Manager.restore]
  cases isBuilt : manager.buildDerivedImage kernel ok with
  | none => exact sound.finish (by rw [restoring]; rfl)
  | some built =>
  have quiet := sound.quiet (quiet_buildDerivedImage isBuilt)
    (sound.tagged.build made plain isBuilt)
  obtain ⟨uses, images, rfl, -⟩ := buildDerivedImage_eq isBuilt
  exact quiet.finish (by rw [restoring]; rfl)

theorem Sound.resolve (resolving : manager.calls call = .resolving kernel) :
    (manager.resolve call kernel).Sound := by
  have made := sound.numbered.held call kernel (by rw [resolving]; rfl)
  exact (sound.use made (.inl rfl)).finish (by
    show (manager.calls call).starting = _
    rw [resolving]
    rfl)

theorem Sound.forget (id : String) : (manager.forget id).Sound :=
  sound.quiet (quiet_forget id) ⟨sound.tagged.apart, sound.tagged.used, sound.tagged.image⟩

end

theorem frame_stopKernel (id : String) : manager.Frame (manager.stopKernel id) := by
  rw [Manager.stopKernel]
  split
  · exact .refl _
  · exact (quiet_cleanupContainer id).toFrame.trans (frame_edit rfl fun _ => rfl)

section

variable (sound : manager.Sound)
include sound

theorem Sound.deleteKernel (id : String) : (manager.deleteKernel id).Sound := by
  rw [Manager.deleteKernel]
  split
  case h_1 => exact sound
  case h_2 kernel found =>
    obtain ⟨made, free⟩ := sound.numbered.not_creating found
    -- Whether the kernel has been stopped or not, it is not being created afterwards.
    have leaves : ∀ stopped : Manager, stopped.Sound → manager.Frame stopped →
        ((stopped.forget id).enter
          (.deleting kernel ((manager.kernels kernel).packages ≠ []))).Sound := by
      intro stopped keeps frame
      refine (keeps.forget id).enter rfl rfl rfl fun other same => ?_
      cases same
      exact ⟨frame.made.symm ▸ made, fun call creates => free call (frame.creating call _ creates)⟩
    dsimp only
    split
    · exact leaves _ (sound.stopKernel id) (frame_stopKernel id)
    · exact leaves _ sound (.refl _)

theorem Sound.discard {hadPackages : Bool}
    (deleting : manager.calls call = .deleting kernel hadPackages) :
    (manager.discard call kernel hadPackages).Sound := by
  have made := sound.numbered.held call kernel (by rw [deleting]; rfl)
  have finished : (manager.move call .finished).Sound := sound.finish (by rw [deleting]; rfl)
  rw [Manager.discard]
  split
  · exact finished.removeDerivedImage made
  · exact finished

theorem Sound.drop (id : String) : (manager.drop id).Sound := by
  have cleaned : (manager.cleanupContainer id).Sound :=
    sound.quiet (quiet_cleanupContainer id)
      ⟨sound.tagged.apart, sound.tagged.used, sound.tagged.image⟩
  exact cleaned.forget id

theorem Sound.adopt (settings : KernelSettings) (user : Nat)
    (fresh : manager.FreshTag id) : (manager.adopt id settings user).Sound := by
  rw [Manager.adopt]
  split
  case h_1 =>
    let info : KernelInfo := .ofConfig { settings with id } none
    have bare : info.containerId = none := rfl
    have made : (manager.make info).kernels manager.made = info := by
      rw [kernels_make, if_pos rfl]
    have tagged : (manager.make info).Tagged := sound.tagged.make sound.numbered fresh
    have numbered := (sound.numbered.make info).place (manager.owners.set id user)
      (Nat.lt_succ_self manager.made) fun call creates =>
        absurd (sound.numbered.held call _ (Call.kernel_of_creating creates)) (Nat.lt_irrefl _)
    rw [made] at numbered
    exact {
      numbered := numbered
      ports := ports_adopt sound.ports id _ rfl
      tagged := ⟨tagged.apart, tagged.used, tagged.image⟩
      contained := (sound.contained.make sound.numbered bare).place id _
        ((congrArg KernelInfo.containerId made).trans bare) }
  case h_2 kernel _ =>
    split
    · have changed : (manager.edit kernel fun info =>
          { info with toKernelSettings := settings }).Sound := sound.configure fun _ => settings
      exact changed.quiet (quiet_images (fun _ mem => mem) (fun _ _ found => found) _ _)
        ⟨changed.tagged.apart, changed.tagged.used, changed.tagged.image⟩
    · exact sound

end

theorem FreshTag.make (fresh : manager.FreshTag id) {info : KernelInfo}
    (apart : derivedImageTag info.id = derivedImageTag id → info.id = id) :
    (manager.make info).FreshTag id := by
  intro kernel made same
  rcases Nat.lt_succ_iff_lt_or_eq.mp made with old | rfl
  · rw [kernels_make_of_lt old] at same ⊢
    exact fresh kernel old same
  · rw [kernels_make, if_pos rfl] at same ⊢
    exact apart same

theorem FreshTag.edit (fresh : manager.FreshTag id) {change : KernelInfo → KernelInfo}
    (named : (change (manager.kernels kernel)).id = (manager.kernels kernel).id) :
    (manager.edit kernel change).FreshTag id := by
  intro other made same
  rw [edit_keeps (·.id) named] at same ⊢
  exact fresh other made same

theorem FreshTag.adopt {id other : String} (fresh : manager.FreshTag id) (settings : KernelSettings)
    (user : Nat) (apart : derivedImageTag other = derivedImageTag id → other = id) :
    (manager.adopt other settings user).FreshTag id := by
  rw [Manager.adopt]
  split
  case h_1 =>
    have added : (manager.make (.ofConfig { settings with id := other } none)).FreshTag id :=
      fresh.make apart
    exact fun kernel made same => added kernel made same
  case h_2 changed _ =>
    split
    · have edited : (manager.edit changed fun info =>
          { info with toKernelSettings := settings }).FreshTag id := fresh.edit rfl
      exact fun kernel made same => edited kernel made same
    · exact fresh

section

variable (sound : manager.Sound)
include sound

theorem Sound.adoptAll (rows : List (String × KernelSettings × Nat))
    (fresh : ∀ row ∈ rows, manager.FreshTag row.1)
    (apart : ∀ row ∈ rows, ∀ other ∈ rows,
      derivedImageTag other.1 = derivedImageTag row.1 → other.1 = row.1) :
    (rows.foldl (fun manager row => manager.adopt row.1 row.2.1 row.2.2) manager).Sound := by
  induction rows generalizing manager with
  | nil => exact sound
  | cons row rest ih =>
    refine ih (sound.adopt _ _ (fresh row mem_cons_self))
      (fun other mem => ?_) fun other mem third last =>
        apart other (mem_cons_of_mem _ mem) third (mem_cons_of_mem _ last)
    exact (fresh other (mem_cons_of_mem _ mem)).adopt _ _
      (apart other (mem_cons_of_mem _ mem) row mem_cons_self)

theorem Sound.dropAll (pruned : List String) : (pruned.foldl Manager.drop manager).Sound ∧
      ∀ id, manager.FreshTag id → (pruned.foldl Manager.drop manager).FreshTag id := by
  induction pruned generalizing manager with
  | nil => exact ⟨sound, fun _ fresh => fresh⟩
  | cons id rest ih =>
    obtain ⟨pruned, kept⟩ := ih (sound.drop id)
    exact ⟨pruned, fun other fresh => kept other fresh⟩

theorem Sound.reconcile (owner : Option Nat) {rows : Dictionary String (KernelSettings × Nat)}
    (careful : ∀ id, (rows.get id).isSome → manager.FreshTag id ∧
      ∀ other, (rows.get other).isSome → derivedImageTag other = derivedImageTag id →
        other = id) : (manager.reconcile owner rows).Sound := by
  rw [Manager.reconcile]
  obtain ⟨pruned, kept⟩ := sound.dropAll ((manager.registry.entries.map Prod.fst).filter fun id =>
    ((rows.keep fun _ row => owner = none || owner = some row.2).get id).isNone &&
      (owner = none || manager.owners.get id = owner))
  have known : ∀ row ∈ (rows.keep fun _ row => owner = none || owner = some row.2).entries,
      (rows.get row.1).isSome := by
    intro row mem
    have there : row ∈ rows.entries := (mem_filter.mp mem).1
    exact Dictionary.mem_keys_iff.mp (mem_map.mpr ⟨row, there, rfl⟩)
  exact pruned.adoptAll _ (fun row mem => kept _ (careful row.1 (known row mem)).1)
    fun row mem other last => (careful row.1 (known row mem)).2 other.1 (known other last)

theorem Sound.serve {request : Request} (careful : manager.Careful (.request request outside)) :
    (manager.serve outside request).Sound := by
  cases request with
  | create config user => exact sound.createKernel user careful
  | start id => exact sound.startKernel careful
  | stop id => exact sound.stopKernel id
  | update id packages => exact sound.updateKernel id packages
  | delete id => exact sound.deleteKernel id
  | reconcile owner rows => exact sound.reconcile owner careful

theorem Sound.proceed
    (careful : manager.Careful (.proceed call outside)) : (manager.proceed call outside).Sound := by
  rw [Careful] at careful
  rw [Manager.proceed]
  cases following : manager.calls call with
  | finished => exact sound
  | preparing kernel user => exact sound.prepare following
  | baking kernel user => exact sound.bake following (by rw [following] at careful; exact careful)
  | inspecting kernel user => exact sound.inspect following
  | building kernel => exact sound.build following (by rw [following] at careful; exact careful)
  | allocating kernel image =>
    exact sound.allocate following (by rw [following] at careful; exact careful)
  | launching kernel image => exact sound.launch following
  | waiting kernel => exact sound.wait following
  | rebuilding kernel oldPackages =>
    exact sound.rebuild following (by rw [following] at careful; exact careful)
  | restoring kernel => exact sound.restore following (by rw [following] at careful; exact careful)
  | resolving kernel => exact sound.resolve following
  | deleting kernel hadPackages => exact sound.discard following

theorem Sound.step (event : Event) (careful : manager.Careful event) :
    (manager.step event).Sound := by
  cases event with
  | request request outside => exact sound.serve careful
  | proceed call outside => exact sound.proceed careful
  | pull image =>
    exact sound.quiet (quiet_images (fun _ mem => mem) (fun _ _ found => found) _ _)
      ⟨sound.tagged.apart, sound.tagged.used, sound.tagged.image⟩

end

theorem sound_initial (kernelVolume : Bool) (flavourImages : ImageFlavour → String)
    (images : List String) : (Manager.initial kernelVolume flavourImages images).Sound where
  numbered := ⟨nofun, nofun, fun _ _ => rfl, nofun⟩
  ports := by
    rintro first second port ⟨⟨id, impossible⟩ | ⟨call, impossible⟩, -⟩
    · cases impossible
    · cases impossible
  tagged := ⟨nofun, nofun, nofun⟩
  contained := ⟨nofun, nofun, nofun, nofun, nofun⟩

theorem Sound.separate (sound : manager.Sound) : manager.Separate where
  ports id other kernel rival port found met holds shared := by
    have same := sound.ports kernel rival port ⟨.inl ⟨id, found⟩, holds⟩ ⟨.inl ⟨other, met⟩, shared⟩
    subst same
    exact (sound.numbered.registered id kernel found).2.symm.trans
      (sound.numbered.registered other kernel met).2
  images use mem other last same derived := by
    obtain ⟨⟨kernel, made, named⟩, own⟩ := sound.tagged.used use mem
    obtain ⟨⟨rival, below, called⟩, its⟩ := sound.tagged.used other last
    have first : use.2 = derivedImageTag use.1 := by
      rcases own with tag | plain
      · exact tag
      · rw [derived] at plain
        cases plain
    have second : other.2 = derivedImageTag other.1 := by
      rcases its with tag | plain
      · exact tag
      · rw [← same, derived] at plain
        cases plain
    rw [← named, ← called]
    refine sound.tagged.apart kernel made rival below ?_
    rw [named, called, ← first, ← second, same]
  containers := sound.contained.own

end Manager

variable (kernelVolume : Bool) (flavourImages : ImageFlavour → String) (images : List String)

/-- A host where every port is free and everything works. -/
def readyHost : Outside where
  free _ := true
  ok := true

def baseKernel (id : String) (packages : List String) : KernelConfig :=
  { id, packages, imageFlavour := .base, customImage := none }

def oneKernel : List Event :=
  [.request (.create (baseKernel "etl" ["numpy"]) 1) readyHost, .proceed 0 readyHost,
    .proceed 0 readyHost, .proceed 0 readyHost, .request (.start "etl") readyHost,
    .proceed 1 readyHost, .proceed 1 readyHost, .proceed 1 readyHost, .proceed 1 readyHost,
    .request (.delete "etl") readyHost, .proceed 2 readyHost]

/-- The second start of a kernel finds the name of its container taken, and removes it. -/
example : ([.request (.create (baseKernel "etl" []) 1) readyHost, .proceed 0 readyHost,
    .request (.start "etl") readyHost, .proceed 1 readyHost, .proceed 1 readyHost,
    .request (.start "etl") readyHost, .proceed 2 readyHost, .proceed 2 readyHost].foldl
      Manager.step (.initial false (fun _ => "kernel:1") ["kernel:1"])).cleaned = [(2, 1)] := rfl

end Flowfile.KernelManager
