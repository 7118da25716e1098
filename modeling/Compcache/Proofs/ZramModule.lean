import Compcache.Library.Runs
import Compcache.ZramModule

/-! What the module holds at each point of its life: when it is loaded, the buffers
of the CPUs it was told of, and in the end nothing. -/

namespace Compcache.ZramModule
open Library Library.Blocks Library.Runs

section Blocks
variable {blocks after : Allocated Block} {allocator : Allocator Block} {block other : Block} {address here : Nat} {accepts : Block → Bool}

theorem alloc_iff : (alloc blocks allocator block).2 address = some other ↔
    blocks address = some other ∨ other = block ∧ address = (alloc blocks allocator block).1 ∧ address ≠ 0 := by
  rw [alloc]
  cases taken : obtain blocks allocator block with
  | none =>
    refine (or_iff_left ?_).symm
    rintro ⟨_, null, real⟩
    exact real null
  | some pair =>
    obtain ⟨fresh, after⟩ := pair
    obtain ⟨vacant, positive, rfl⟩ := obtain_spec taken
    show Function.update blocks fresh (some block) address = some other ↔ _ ∨ _ ∧ address = fresh ∧ _
    rcases Classical.em (address = fresh) with rfl | elsewhere
    · rw [Function.update_self, vacant]
      simp [eq_comm, Nat.ne_of_gt positive]
    · rw [Function.update_of_ne elsewhere]
      simp [elsewhere]

theorem release_isSome (held : here ≠ 0 → ∃ block, blocks here = some block ∧ accepts block = true) :
    (release accepts blocks here).isSome = true := by
  rw [release]
  split
  next => rfl
  next real =>
    obtain ⟨block, there, accepted⟩ := held real
    rw [there, Option.bind_some, if_pos accepted]
    rfl

theorem release_iff (released : release accepts blocks here = some after) :
    after address = some other ↔ blocks address = some other ∧ ¬ (address = here ∧ address ≠ 0) := by
  rw [release] at released
  split at released
  next null =>
    cases released
    refine (and_iff_left ?_).symm
    rintro ⟨rfl, real⟩
    exact real null
  next real =>
    obtain ⟨found, _, released⟩ := Option.bind_eq_some_iff.mp released
    split at released
    next =>
      cases released
      rcases Classical.em (address = here) with rfl | elsewhere
      · rw [Function.update_self]
        simp [real]
      · rw [Function.update_of_ne elsewhere]
        simp [elsewhere]
    next => cases released

end Blocks

/-- The live buffers are those of the CPUs prepared, and the others have no pointers. -/
structure Module.Buffered (module : Module) : Prop where
  buffer : ∀ address cpu, module.blocks address = some (.buffer cpu) ↔ module.prepared cpu = true ∧
    address = module.compressBuffer cpu ∧ address ≠ 0
  workmem : ∀ address cpu, module.blocks address = some (.workmem cpu) ↔ module.prepared cpu = true ∧
    address = module.compressWorkmem cpu ∧ address ≠ 0
  down : ∀ cpu, module.prepared cpu = false → module.compressBuffer cpu = 0 ∧ module.compressWorkmem cpu = 0

/-- Nothing of the module is left. -/
structure Module.Gone (module : Module) : Prop where
  blocks : ∀ address, module.blocks address = none
  notifier : module.notifier = false
  devices : ∀ devId, module.device devId = Device.none

/-- What is asked of a module that is loaded, and of one that is not any more. No
release is of what is no block. -/
structure Module.Balanced (module : Module) : Prop where
  loaded : module.stage = .loaded → module.Buffered
  gone : (∃ ret, module.stage = .failed ret) ∨ module.stage = .exited → module.Gone
  told : ∀ action cpu outcome, (module.cpuNotify action cpu outcome).isSome = true
  freed : module.stage = .exitFree → (release Block.isKmalloc module.blocks module.devices).isSome = true

def Stage.hasArray : Stage → Bool
  | creating _ | loaded | removing _ | exitMajor | exitCancelling _ | exitNotifier | exitFree => true
  | _ => false

def Stage.mayExist (numDevices devId : Nat) : Stage → Bool
  | creating next => devId < next ∧ devId < numDevices
  | loaded => devId < numDevices
  | removing i => i ≤ devId ∧ devId < numDevices
  | _ => false

def Stage.silent : Stage → Bool
  | idle | registering | cancelling _ _ | failed _ | exitFree | exited => true
  | _ => false

/-- `zram_init` tells the module of the CPUs that are online. -/
def Stage.hears : Stage → Bool
  | preparing _ => true
  | _ => false

/-- `zram_init` has failed behind its first call. -/
def Stage.doomed : Stage → Bool
  | destroying _ _ | unregister _ => true
  | _ => false

/-- The module has what it should at a stage. -/
structure Module.SoundAt (module : Module) (stage : Stage) : Prop where
  buffered : module.Buffered
  unprepared : ∀ cpu, module.standing cpu = .offline → module.prepared cpu = false
  unheard : module.notifier = false → ∀ cpu, module.prepared cpu = false
  array : ∀ address, module.blocks address = some .devices ↔ stage.hasArray = true ∧ address = module.devices ∧ address ≠ 0
  devices : ∀ devId, stage.mayExist module.numDevices devId = false → module.device devId = Device.none
  silent : stage.silent = true → module.notifier = false
  heard : stage.hears = true → module.notifier = true
  sane : stage.doomed = false

section Notify
variable {module after : Module} {cpu : Nat} {outcome : Outcome}

theorem Module.Buffered.prepare (buffered : module.Buffered) (fresh : module.prepared cpu = false)
    (told : module.cpuNotify .upPrepare cpu outcome = some after) :
    after.Buffered := by
  generalize buffer : alloc module.blocks outcome.buffer (.buffer cpu) = first at told
  simp only [cpuNotify, buffer] at told
  generalize workmem : alloc first.2 outcome.workmem (.workmem cpu) = second at told
  obtain rfl := Option.some.inj told
  have one (address : Nat) (other : Block) : first.2 address = some other ↔ module.blocks address = some other ∨ other = .buffer cpu ∧
      address = first.1 ∧ address ≠ 0 := by
    rw [← buffer]
    exact alloc_iff
  have two (address : Nat) (other : Block) : second.2 address = some other ↔ first.2 address = some other ∨ other = .workmem cpu ∧
      address = second.1 ∧ address ≠ 0 := by
    rw [← workmem]
    exact alloc_iff
  constructor
  · intro address other
    simp only [two, one, buffered.buffer, Function.update_apply]
    rcases Classical.em (other = cpu) with rfl | elsewhere
    · simp [fresh]
    · simp [elsewhere]
  · intro address other
    simp only [two, one, buffered.workmem, Function.update_apply]
    rcases Classical.em (other = cpu) with rfl | elsewhere
    · simp [fresh]
    · simp [elsewhere]
  · intro other unprepared
    simp only [Function.update_apply] at unprepared ⊢
    split at unprepared
    next => cases unprepared
    next elsewhere =>
      rw [if_neg elsewhere, if_neg elsewhere]
      exact buffered.down other unprepared

theorem cpuNotify_down (buffered : module.Buffered) {action : CpuAction} (goes : action ≠ .upPrepare)
    (told : module.cpuNotify action cpu outcome = some after) :
    ∃ blocks, after = { module with
        blocks
        compressBuffer := Function.update module.compressBuffer cpu 0
        prepared := Function.update module.prepared cpu false } ∧
      (∀ address, blocks address ≠ some (.buffer cpu)) ∧
      ∀ address other, other ≠ .buffer cpu → (blocks address = some other ↔ module.blocks address = some other) := by
  have told : ((release Block.isPages module.blocks (module.compressBuffer cpu)).bind fun blocks =>
      (release Block.isKmalloc blocks (Function.update module.compressBuffer cpu 0 cpu)).map fun blocks =>
        { module with
          blocks
          compressBuffer := Function.update (Function.update module.compressBuffer cpu 0) cpu 0
          prepared := Function.update module.prepared cpu false }) = some after := by
    cases action with
    | upPrepare => exact absurd rfl goes
    | upCanceled => exact told
    | dead => exact told
  obtain ⟨blocks, freed, told⟩ := Option.bind_eq_some_iff.mp told
  rw [Function.update_self, release_null, Function.update_idem] at told
  refine ⟨blocks, (Option.some.inj told).symm, fun address here => ?_, fun address other elsewhere => ?_⟩
  · obtain ⟨old, apart⟩ := (release_iff freed).mp here
    exact apart ((buffered.buffer address cpu).mp old).2
  · rw [release_iff freed]
    refine and_iff_left_of_imp fun here there => ?_
    cases known : module.prepared cpu with
    | true =>
      rw [(buffered.buffer address cpu).mpr ⟨known, there⟩] at here
      exact elsewhere (Option.some.inj here).symm
    | false => exact there.2 (there.1.trans (buffered.down cpu known).1)

theorem Module.Buffered.takeDown (buffered : module.Buffered) (short : module.compressWorkmem cpu = 0) {action : CpuAction}
    (goes : action ≠ .upPrepare)
    (told : module.cpuNotify action cpu outcome = some after) : after.Buffered := by
  obtain ⟨blocks, rfl, gone, kept⟩ := cpuNotify_down buffered goes told
  constructor
  · intro address other
    simp only [Function.update_apply]
    rcases Classical.em (other = cpu) with rfl | elsewhere
    · simp [gone]
    · rw [kept _ _ (by simp [elsewhere]), buffered.buffer]
      simp [elsewhere]
  · intro address other
    simp only [Function.update_apply]
    rw [kept _ _ (by simp), buffered.workmem]
    rcases Classical.em (other = cpu) with rfl | elsewhere
    · simp [short]
    · simp [elsewhere]
  · intro other unprepared
    simp only [Function.update_apply] at unprepared ⊢
    rcases Classical.em (other = cpu) with rfl | elsewhere
    · simp [short]
    · rw [if_neg elsewhere] at unprepared ⊢
      exact buffered.down other unprepared

/-- Being told of a CPU changes nothing else. -/
structure Told (module after : Module) (cpu : Nat) (prepared : Bool) : Prop where
  prepared : after.prepared = Function.update module.prepared cpu prepared
  array : ∀ address, after.blocks address = some .devices ↔ module.blocks address = some .devices
  standing : after.standing = module.standing
  notifier : after.notifier = module.notifier
  numDevices : after.numDevices = module.numDevices
  devices : after.devices = module.devices
  device : after.device = module.device
  stage : after.stage = module.stage
  cpus : after.cpus = module.cpus

theorem told_prepare (told : module.cpuNotify .upPrepare cpu outcome = some after) : Told module after cpu true := by
  obtain rfl := Option.some.inj told
  refine ⟨rfl, fun address => ?_, rfl, rfl, rfl, rfl, rfl, rfl, rfl⟩
  rw [alloc_iff, alloc_iff]
  simp

theorem told_down (buffered : module.Buffered) {action : CpuAction} (goes : action ≠ .upPrepare)
    (told : module.cpuNotify action cpu outcome = some after) :
    Told module after cpu false := by
  obtain ⟨blocks, rfl, _, kept⟩ := cpuNotify_down buffered goes told
  exact ⟨rfl, fun address => kept address _ nofun, rfl, rfl, rfl, rfl, rfl, rfl, rfl⟩

theorem Module.SoundAt.told {stage : Stage} {prepared : Bool} (sound : module.SoundAt stage) (buffered : after.Buffered)
    (told : Told module after cpu prepared)
    (known : prepared = true → module.notifier = true ∧ module.standing cpu ≠ .offline) : after.SoundAt stage where
  buffered := buffered
  unprepared := by
    intro other off
    rw [told.standing] at off
    rw [told.prepared, Function.update_apply]
    split
    next same =>
      subst same
      exact Bool.eq_false_iff.mpr fun up => (known up).2 off
    next => exact sound.unprepared other off
  unheard := by
    intro silent other
    rw [told.notifier] at silent
    rw [told.prepared, Function.update_apply]
    split
    next =>
      refine Bool.eq_false_iff.mpr fun up => ?_
      rw [(known up).1] at silent
      cases silent
    next => exact sound.unheard silent other
  array := by
    intro address
    rw [told.array, sound.array, told.devices]
  devices := by
    rw [told.numDevices, told.device]
    exact sound.devices
  silent := by
    rw [told.notifier]
    exact sound.silent
  heard := by
    rw [told.notifier]
    exact sound.heard
  sane := sound.sane

end Notify

section Runs
variable {module after : Module} {stage next : Stage} {outcome : Outcome} {action : Action}

/-- What is not to happen: a CPU prepared twice, a CPU that goes down with its work
memory, a failure of `zram_init` behind the registration of the notifier, and a
removal while a CPU is prepared that is not online. -/
def Module.Sparing (module : Module) : Action → Prop
  | .cpu .upPrepare _ _ => True
  | .cpu _ cpu _ => module.notifier = true → module.compressWorkmem cpu = 0
  | .advance outcome => match module.stage with
    | .preparing cpu => cpu < module.cpus → module.standing cpu = .online → module.prepared cpu = false ∧
        (alloc module.blocks outcome.buffer (.buffer cpu)).1 ≠ 0 ∧
        (alloc (alloc module.blocks outcome.buffer (.buffer cpu)).2 outcome.workmem (.workmem cpu)).1 ≠ 0
    | .blkdev => 0 < outcome.zramMajor
    | .array => (alloc module.blocks outcome.devices .devices).1 ≠ 0
    | .creating devId => devId < module.numDevices → outcome.queue = true ∧ outcome.disk = true ∧ outcome.sysfs = 0
    | .exitCancelling cpu => cpu < module.cpus → module.standing cpu = .online → module.compressWorkmem cpu = 0
    | .exitNotifier => ∀ cpu, module.prepared cpu = false
    | _ => True
  | _ => True

theorem Module.SoundAt.call (sound : module.SoundAt stage) (notifier major : Bool) (next : Stage) (array : next.hasArray = stage.hasArray)
    (devices : ∀ devId, next.mayExist module.numDevices devId = false → stage.mayExist module.numDevices devId = false)
    (unheard : notifier = false → ∀ cpu, module.prepared cpu = false)
    (silent : next.silent = true → notifier = false) (heard : next.hears = true → notifier = true) (sane : next.doomed = false) :
    ({ module with notifier, major }.goto next).SoundAt next where
  buffered := ⟨sound.buffered.buffer, sound.buffered.workmem, sound.buffered.down⟩
  unprepared := sound.unprepared
  unheard := unheard
  array := by
    intro address
    rw [array]
    exact sound.array address
  devices := fun devId absent => sound.devices devId (devices devId absent)
  silent := silent
  heard := heard
  sane := sane

theorem Module.SoundAt.goto (sound : module.SoundAt stage) (array : next.hasArray = stage.hasArray)
    (devices : ∀ devId, next.mayExist module.numDevices devId = false → stage.mayExist module.numDevices devId = false)
    (silent : next.silent = true → module.notifier = false) (heard : next.hears = true → module.notifier = true)
    (sane : next.doomed = false) :
    (module.goto next).SoundAt next :=
  sound.call module.notifier module.major next array devices sound.unheard silent heard sane

theorem Module.SoundAt.prepared (sound : module.SoundAt stage) (heard : module.notifier = true) {cpu : Nat}
    (fresh : module.prepared cpu = false)
    (up : module.standing cpu ≠ .offline) (told : module.cpuNotify .upPrepare cpu outcome = some after) : after.SoundAt stage :=
  sound.told (sound.buffered.prepare fresh told) (told_prepare told) fun _ => ⟨heard, up⟩

theorem Module.SoundAt.takenDown (sound : module.SoundAt stage) {cpu : Nat} (short : module.compressWorkmem cpu = 0) {action : CpuAction}
    (goes : action ≠ .upPrepare) (told : module.cpuNotify action cpu outcome = some after) : after.SoundAt stage :=
  sound.told (sound.buffered.takeDown short goes told) (told_down sound.buffered goes told) nofun

theorem Module.SoundAt.setDevice (sound : module.SoundAt stage) {devId : Nat} {device : Device} (array : next.hasArray = stage.hasArray)
    (here : next.mayExist module.numDevices devId = false → device = Device.none)
    (devices : ∀ other, other ≠ devId → next.mayExist module.numDevices other = false → stage.mayExist module.numDevices other = false)
    (silent : next.silent = false) (heard : next.hears = false) (sane : next.doomed = false) :
    ((module.setDevice devId device).goto next).SoundAt next where
  buffered := ⟨sound.buffered.buffer, sound.buffered.workmem, sound.buffered.down⟩
  unprepared := sound.unprepared
  unheard := sound.unheard
  array := by
    intro address
    rw [array]
    exact sound.array address
  devices := by
    intro other absent
    show Function.update module.device devId device other = Device.none
    rw [Function.update_apply]
    split
    next same =>
      subst same
      exact here absent
    next elsewhere => exact sound.devices other (devices other elsewhere absent)
  silent := fun quiet => absurd quiet (by rw [silent]; decide)
  heard := fun hears => absurd hears (by rw [heard]; decide)
  sane := sane

theorem Module.SoundAt.allocated (sound : module.SoundAt .array) (numDevices : Nat) :
    Module.SoundAt { module with
      numDevices
      devices := (alloc module.blocks outcome.devices .devices).1
      blocks := (alloc module.blocks outcome.devices .devices).2
      stage := .creating 0 } (.creating 0) := by
  have kept (address : Nat) (other : Block) (elsewhere : other ≠ .devices) :
      (alloc module.blocks outcome.devices .devices).2 address = some other ↔ module.blocks address = some other := by
    rw [alloc_iff]
    simp [elsewhere]
  exact {
    buffered := ⟨fun address cpu => (kept address (.buffer cpu) nofun).trans (sound.buffered.buffer address cpu),
      fun address cpu => (kept address (.workmem cpu) nofun).trans (sound.buffered.workmem address cpu), sound.buffered.down⟩
    unprepared := sound.unprepared
    unheard := sound.unheard
    array := by
      intro address
      show (alloc _ _ _).2 address = some Block.devices ↔ _
      rw [alloc_iff, sound.array]
      simp [Stage.hasArray]
    devices := fun devId _ => sound.devices devId rfl
    silent := nofun
    heard := nofun
    sane := rfl }

theorem Module.SoundAt.released (sound : module.SoundAt .exitFree) {blocks : Allocated Block}
    (freed : release Block.isKmalloc module.blocks module.devices = some blocks) :
    ({ module with blocks }.goto .exited).SoundAt .exited := by
  have left (address : Nat) (other : Block) : blocks address = some other ↔ module.blocks address = some other ∧
      ¬ (address = module.devices ∧ address ≠ 0) :=
    release_iff freed
  have quiet := sound.unheard (sound.silent rfl)
  have noBuffer (address cpu : Nat) : module.blocks address ≠ some (.buffer cpu) := by
    intro there
    have up := ((sound.buffered.buffer address cpu).mp there).1
    rw [quiet] at up
    cases up
  have noWorkmem (address cpu : Nat) : module.blocks address ≠ some (.workmem cpu) := by
    intro there
    have up := ((sound.buffered.workmem address cpu).mp there).1
    rw [quiet] at up
    cases up
  have unprepared (cpu : Nat) {rest : Prop} : ¬ (module.prepared cpu = true ∧ rest) := by
    rintro ⟨up, _⟩
    rw [quiet] at up
    cases up
  exact {
    buffered := by
      refine ⟨fun address cpu => iff_of_false (fun there => noBuffer address cpu ((left _ _).mp there).1) (unprepared cpu),
        fun address cpu => iff_of_false (fun there => noWorkmem address cpu ((left _ _).mp there).1) (unprepared cpu), sound.buffered.down⟩
    unprepared := sound.unprepared
    unheard := sound.unheard
    array := by
      intro address
      refine iff_of_false (fun there => ?_) nofun
      obtain ⟨old, apart⟩ := (left _ _).mp there
      exact apart ((sound.array address).mp old).2
    devices := fun devId _ => sound.devices devId rfl
    silent := fun _ => sound.silent rfl
    heard := nofun
    sane := rfl }

theorem Module.SoundAt.advance_preparing {cpu : Nat} (sound : module.SoundAt (.preparing cpu)) (at_ : module.stage = .preparing cpu)
    (sparing : module.Sparing (.advance outcome)) (taken : module.advance outcome = some after) : after.SoundAt after.stage := by
  simp only [Module.advance, at_] at taken
  simp only [Sparing, at_] at sparing
  split at taken
  next =>
    obtain rfl := Option.some.inj taken
    exact sound.goto rfl (fun _ _ => rfl) nofun nofun rfl
  next more =>
    split at taken
    next up =>
      obtain ⟨told, notified, rfl⟩ := Option.map_eq_some_iff.mp taken
      obtain ⟨fresh, buffer, workmem⟩ := sparing (Nat.lt_of_not_le more) up
      have had : ¬ (told.compressBuffer cpu = 0 ∨ told.compressWorkmem cpu = 0) := by
        obtain rfl := Option.some.inj notified
        simp [buffer, workmem]
      rw [if_neg had]
      have heard := (told_prepare notified).notifier.trans (sound.heard rfl)
      exact (sound.prepared (sound.heard rfl) fresh (by rw [up]; decide) notified).goto rfl (fun _ _ => rfl) nofun (fun _ => heard) rfl
    next =>
      obtain rfl := Option.some.inj taken
      exact sound.goto rfl (fun _ _ => rfl) nofun (fun _ => sound.heard rfl) rfl

theorem Module.SoundAt.advance_creating {devId : Nat} (sound : module.SoundAt (.creating devId)) (at_ : module.stage = .creating devId)
    (sparing : module.Sparing (.advance outcome)) (taken : module.advance outcome = some after) : after.SoundAt after.stage := by
  simp only [Module.advance, at_] at taken
  simp only [Sparing, at_] at sparing
  split at taken
  next enough =>
    obtain rfl := Option.some.inj taken
    refine sound.goto rfl (fun other absent => ?_) nofun nofun rfl
    simp only [Stage.mayExist, decide_eq_false_iff_not] at absent ⊢
    omega
  next more =>
    obtain ⟨queue, disk, sysfs⟩ := sparing (Nat.lt_of_not_le more)
    have created : createDevice outcome = (⟨true, true⟩, 0) := by
      rw [createDevice, queue, disk, sysfs]
      rfl
    rw [created] at taken
    obtain rfl := Option.some.inj taken
    refine sound.setDevice rfl (fun absent => ?_) (fun other elsewhere absent => ?_) rfl rfl rfl
    · simp only [ne_eq, not_true_eq_false, if_false, Stage.mayExist, decide_eq_false_iff_not] at absent
      omega
    · simp only [ne_eq, not_true_eq_false, if_false, Stage.mayExist, decide_eq_false_iff_not] at absent ⊢
      omega

theorem Module.SoundAt.advance_removing {i : Nat} (sound : module.SoundAt (.removing i)) (at_ : module.stage = .removing i)
    (taken : module.advance outcome = some after) : after.SoundAt after.stage := by
  simp only [Module.advance, at_] at taken
  split at taken
  next enough =>
    obtain rfl := Option.some.inj taken
    refine sound.goto rfl (fun other absent => ?_) nofun nofun rfl
    simp only [Stage.mayExist, decide_eq_false_iff_not]
    omega
  next =>
    obtain rfl := Option.some.inj taken
    refine sound.setDevice rfl (fun _ => rfl) (fun other elsewhere absent => ?_) rfl rfl rfl
    simp only [Stage.mayExist, decide_eq_false_iff_not] at absent ⊢
    omega

/-- The online CPUs are told, one after the other, that they go down: at the end of
`zram_exit`, and when `zram_init` fails. -/
theorem Module.SoundAt.cancel (sound : module.SoundAt stage) {cpu : Nat} {done : Stage}
    (taken : (if module.cpus ≤ cpu then some (module.goto done)
      else if module.standing cpu = .online then (module.cpuNotify .upCanceled cpu outcome).map fun module => module.goto next
      else some (module.goto next)) = some after)
    (array : done.hasArray = stage.hasArray ∧ next.hasArray = stage.hasArray)
    (devices : ∀ devId, stage.mayExist module.numDevices devId = false)
    (silent : done.silent = true ∨ next.silent = true → module.notifier = false) (heard : done.hears = false ∧ next.hears = false)
    (sane : done.doomed = false ∧ next.doomed = false) (short : cpu < module.cpus → module.standing cpu = .online →
      module.compressWorkmem cpu = 0) :
    after.SoundAt after.stage := by
  have unheard {stage : Stage} (hears : stage.hears = false) {rest : Prop} : stage.hears = true → rest := fun told =>
    absurd told (by rw [hears]; decide)
  split at taken
  next =>
    obtain rfl := Option.some.inj taken
    exact sound.goto array.1 (fun devId _ => devices devId) (fun quiet => silent (.inl quiet)) (unheard heard.1) sane.1
  next more =>
    split at taken
    next up =>
      obtain ⟨told, notified, rfl⟩ := Option.map_eq_some_iff.mp taken
      have what := told_down sound.buffered (by decide) notified
      have down := sound.takenDown (short (Nat.lt_of_not_le more) up) (by decide) notified
      refine down.goto array.2 (fun devId _ => ?_) (fun quiet => what.notifier.trans (silent (.inr quiet))) (unheard heard.2) sane.2
      rw [what.numDevices]
      exact devices devId
    next =>
      obtain rfl := Option.some.inj taken
      exact sound.goto array.2 (fun devId _ => devices devId) (fun quiet => silent (.inr quiet)) (unheard heard.2) sane.2

theorem Module.SoundAt.advance (sound : module.SoundAt module.stage) (sparing : module.Sparing (.advance outcome))
    (taken : module.advance outcome = some after) : after.SoundAt after.stage := by
  cases at_ : module.stage with
  | registering =>
    rw [at_] at sound
    simp only [Module.advance, at_] at taken
    obtain rfl := Option.some.inj taken
    split
    next => exact sound.call true module.major (.preparing 0) rfl (fun _ _ => rfl) nofun nofun (fun _ => rfl) rfl
    next => exact sound.goto rfl (fun _ _ => rfl) (fun _ => sound.silent rfl) nofun rfl
  | preparing cpu => exact (at_ ▸ sound).advance_preparing at_ sparing taken
  | blkdev =>
    rw [at_] at sound
    simp only [Module.advance, at_] at taken
    simp only [Sparing, at_] at sparing
    rw [if_neg (by omega)] at taken
    obtain rfl := Option.some.inj taken
    exact sound.call module.notifier true .array rfl (fun _ _ => rfl) sound.unheard nofun nofun rfl
  | array =>
    rw [at_] at sound
    simp only [Sparing, at_] at sparing
    simp only [Module.advance, at_] at taken
    split at taken
    next =>
      obtain rfl := Option.some.inj taken
      exact sound.allocated 1
    next =>
      obtain rfl := Option.some.inj taken
      exact sound.allocated module.numDevices
  | creating devId => exact (at_ ▸ sound).advance_creating at_ sparing taken
  | destroying devId ret => exact absurd sound.sane (by simp [at_, Stage.doomed])
  | unregister ret => exact absurd sound.sane (by simp [at_, Stage.doomed])
  | cancelling cpu ret =>
    rw [at_] at sound
    simp only [Module.advance, at_] at taken
    have quiet := sound.silent rfl
    exact sound.cancel taken ⟨rfl, rfl⟩ (fun _ => rfl) (fun _ => quiet) ⟨rfl, rfl⟩ ⟨rfl, rfl⟩
      fun _ _ => (sound.buffered.down cpu (sound.unheard quiet cpu)).2
  | removing i => exact (at_ ▸ sound).advance_removing at_ taken
  | exitMajor =>
    rw [at_] at sound
    simp only [Module.advance, at_] at taken
    obtain rfl := Option.some.inj taken
    exact sound.call module.notifier false (.exitCancelling 0) rfl (fun _ _ => rfl) sound.unheard nofun nofun rfl
  | exitCancelling cpu =>
    rw [at_] at sound
    simp only [Module.advance, at_] at taken
    simp only [Sparing, at_] at sparing
    exact sound.cancel taken ⟨rfl, rfl⟩ (fun _ => rfl) nofun ⟨rfl, rfl⟩ ⟨rfl, rfl⟩ sparing
  | exitNotifier =>
    rw [at_] at sound
    simp only [Module.advance, at_] at taken
    simp only [Sparing, at_] at sparing
    obtain rfl := Option.some.inj taken
    exact sound.call false module.major .exitFree rfl (fun _ _ => rfl) (fun _ => sparing) (fun _ => rfl) nofun rfl
  | exitFree =>
    rw [at_] at sound
    simp only [Module.advance, at_] at taken
    obtain ⟨blocks, freed, rfl⟩ := Option.map_eq_some_iff.mp taken
    exact sound.released freed
  | idle | failed ret | loaded | exited =>
    simp only [Module.advance, at_] at taken
    cases taken

theorem Module.SoundAt.stand (sound : module.SoundAt stage) {cpu : Nat} {standing : Standing}
    (told : standing = .offline → module.prepared cpu = false) :
    (module.stand cpu standing).SoundAt stage where
  buffered := ⟨sound.buffered.buffer, sound.buffered.workmem, sound.buffered.down⟩
  unprepared := by
    intro other off
    have off : Function.update module.standing cpu standing other = .offline := off
    rw [Function.update_apply] at off
    split at off
    next same =>
      rw [same]
      exact told off
    next => exact sound.unprepared other off
  unheard := sound.unheard
  array := sound.array
  devices := sound.devices
  silent := sound.silent
  heard := sound.heard
  sane := sound.sane

theorem cpuNotify_stand {cpu other : Nat} {standing : Standing} {action : CpuAction} :
    (module.stand other standing).cpuNotify action cpu outcome = (module.cpuNotify action cpu outcome).map fun told =>
      told.stand other standing := by
  cases action with
  | upPrepare => rfl
  | upCanceled =>
    simp only [Module.cpuNotify, Option.map_bind]
    refine congrArg _ (funext fun blocks => ?_)
    rw [Function.comp_apply, Option.map_map]
    rfl
  | dead =>
    simp only [Module.cpuNotify, Option.map_bind]
    refine congrArg _ (funext fun blocks => ?_)
    rw [Function.comp_apply, Option.map_map]
    rfl

theorem Module.SoundAt.gone (sound : module.SoundAt stage) {cpu : Nat} {action : CpuAction} (goes : action ≠ .upPrepare)
    (short : module.notifier = true → module.compressWorkmem cpu = 0)
    (taken : (module.stand cpu .offline).notify action cpu outcome = some after) : after.SoundAt stage ∧ after.stage = module.stage := by
  rw [notify] at taken
  split at taken
  next heard =>
    rw [cpuNotify_stand] at taken
    obtain ⟨told, notified, rfl⟩ := Option.map_eq_some_iff.mp taken
    have what := told_down sound.buffered goes notified
    refine ⟨(sound.takenDown (short heard) goes notified).stand fun _ => ?_, what.stage⟩
    rw [what.prepared, Function.update_self]
  next unheard =>
    obtain rfl := Option.some.inj taken
    exact ⟨sound.stand fun _ => sound.unheard (Bool.eq_false_iff.mpr unheard) cpu, rfl⟩

theorem Module.SoundAt.step (sound : module.SoundAt module.stage) (sparing : module.Sparing action)
    (taken : module.step action = some after) :
    after.SoundAt after.stage := by
  cases action with
  | init numDevices =>
    rw [Module.step] at taken
    split at taken
    next idle =>
      rw [idle] at sound
      obtain rfl := Option.some.inj taken
      have sound : Module.SoundAt { module with numDevices } .idle :=
        ⟨⟨sound.buffered.buffer, sound.buffered.workmem, sound.buffered.down⟩, sound.unprepared, sound.unheard, sound.array,
          fun devId _ => sound.devices devId rfl, sound.silent, sound.heard, sound.sane⟩
      split
      next => exact sound.goto rfl (fun _ _ => rfl) (fun _ => sound.silent rfl) nofun rfl
      next => exact sound.goto rfl (fun _ _ => rfl) (fun _ => sound.silent rfl) nofun rfl
    next => cases taken
  | exit =>
    rw [Module.step] at taken
    split at taken
    next loaded =>
      rw [loaded] at sound
      obtain rfl := Option.some.inj taken
      refine sound.goto rfl (fun other absent => ?_) nofun nofun rfl
      simp only [Stage.mayExist, decide_eq_false_iff_not] at absent ⊢
      omega
    next => cases taken
  | advance outcome => exact sound.advance sparing taken
  | cpu action cpu outcome =>
    cases action with
    | upPrepare =>
      rw [Module.step] at taken
      split at taken
      next off =>
        have stood : (module.stand cpu .preparing).SoundAt module.stage := sound.stand nofun
        have there : (module.stand cpu .preparing).standing cpu = .preparing := Function.update_self ..
        rw [notify] at taken
        split at taken
        next heard =>
          rw [(told_prepare taken).stage]
          exact stood.prepared heard (sound.unprepared cpu off.1) (by rw [there]; decide) taken
        next =>
          obtain rfl := Option.some.inj taken
          exact stood
      next => cases taken
    | upCanceled =>
      rw [Module.step] at taken
      split at taken
      next =>
        obtain ⟨gone, same⟩ := sound.gone (by decide) sparing taken
        rw [same]
        exact gone
      next => cases taken
    | dead =>
      rw [Module.step] at taken
      split at taken
      next =>
        obtain ⟨gone, same⟩ := sound.gone (by decide) sparing taken
        rw [same]
        exact gone
      next => cases taken
  | online cpu =>
    rw [Module.step] at taken
    split at taken
    next =>
      obtain rfl := Option.some.inj taken
      exact sound.stand nofun
    next => cases taken
  | offline cpu =>
    rw [Module.step] at taken
    split at taken
    next =>
      obtain rfl := Option.some.inj taken
      exact sound.stand nofun
    next => cases taken

theorem Module.SoundAt.create (cpus maxNumDevices : Nat) (up : Nat → Bool) : (Module.create cpus maxNumDevices up).SoundAt .idle where
  buffered := ⟨fun _ _ => iff_of_false nofun nofun, fun _ _ => iff_of_false nofun nofun, fun _ _ => ⟨rfl, rfl⟩⟩
  unprepared := fun _ _ => rfl
  unheard := fun _ _ => rfl
  array := fun _ => iff_of_false nofun nofun
  devices := fun _ _ => rfl
  silent := fun _ => rfl
  heard := nofun
  sane := rfl

theorem Module.SoundAt.leaves (sound : module.SoundAt stage) (silent : stage.silent = true) (array : stage.hasArray = false)
    (devices : ∀ devId, stage.mayExist module.numDevices devId = false) : module.Gone where
  blocks := by
    intro address
    have quiet := sound.unheard (sound.silent silent)
    refine Option.eq_none_iff_forall_ne_some.mpr fun block there => ?_
    cases block with
    | buffer cpu => exact absurd ((sound.buffered.buffer address cpu).mp there).1 (by rw [quiet]; decide)
    | workmem cpu => exact absurd ((sound.buffered.workmem address cpu).mp there).1 (by rw [quiet]; decide)
    | devices => exact absurd ((sound.array address).mp there).1 (by rw [array]; decide)
  notifier := sound.silent silent
  devices := fun devId => sound.devices devId (devices devId)

theorem Module.Buffered.told (buffered : module.Buffered) (action : CpuAction) (cpu : Nat) (outcome : Outcome) :
    (module.cpuNotify action cpu outcome).isSome = true := by
  have buffer : (release Block.isPages module.blocks (module.compressBuffer cpu)).isSome = true := by
    refine release_isSome fun real => ⟨.buffer cpu, (buffered.buffer _ cpu).mpr ⟨?_, rfl, real⟩, rfl⟩
    refine (Bool.eq_false_or_eq_true _).resolve_right fun down => ?_
    exact real (buffered.down cpu down).1
  obtain ⟨blocks, freed⟩ := Option.isSome_iff_exists.mp buffer
  cases action with
  | upPrepare => rfl
  | upCanceled => simp only [cpuNotify, freed, Option.bind_some, Function.update_self, release_null, Option.map_some, Option.isSome_some]
  | dead => simp only [cpuNotify, freed, Option.bind_some, Function.update_self, release_null, Option.map_some, Option.isSome_some]

theorem Module.SoundAt.balanced (sound : module.SoundAt module.stage) : module.Balanced where
  loaded := fun _ => sound.buffered
  gone := by
    rintro (⟨ret, failed⟩ | exited)
    · rw [failed] at sound
      exact sound.leaves rfl rfl fun _ => rfl
    · rw [exited] at sound
      exact sound.leaves rfl rfl fun _ => rfl
  told := sound.buffered.told
  freed := by
    intro last
    rw [last] at sound
    exact release_isSome fun real => ⟨.devices, (sound.array _).mpr ⟨rfl, rfl, real⟩, rfl⟩

/-- What is held is what should be held, in every run in which no CPU goes down with
its work memory and no call behind the registration of the notifier fails. -/
theorem balanced_of_sparing {cpus maxNumDevices : Nat} {up : Nat → Bool}
    (run : Run Module.step Module.Sparing (Module.create cpus maxNumDevices up) module) :
    module.Balanced :=
  (run.invariant (fun module => module.SoundAt module.stage) (Module.SoundAt.create cpus maxNumDevices up) Module.SoundAt.step).balanced

end Runs

section Sample

/-- Everything works out, but there may be no memory for the compressor. -/
def outcomeWith (workmem : Bool) : Outcome where
  register := 0
  zramMajor := 254
  sysfs := 0
  buffer := .offering 1 Nat.one_pos
  workmem := if workmem then .offering 2 Nat.two_pos else .exhausted
  devices := .offering 3 (Nat.succ_pos _)
  queue := true
  disk := true

/-- The module is loaded on a system of two CPUs, with one device. -/
def loading (workmem : Bool) : List Action := .init 1 :: List.replicate 8 (.advance (outcomeWith workmem))

/-- One CPU is up and stays up. Another comes and gets no work memory. -/
def staysUp : List Action :=
  let second := { outcomeWith false with buffer := .offering 4 (Nat.succ_pos _) }
  loading true ++ [.cpu .upPrepare 1 second, .cpu .upCanceled 1 second]

/-- The CPU that comes gets no work memory, and is up all the same when the module is
removed. -/
def removed : List Action :=
  loading true ++ [.cpu .upPrepare 1 (outcomeWith false), .online 1, .exit] ++ List.replicate 8 (.advance (outcomeWith false))

theorem balanced_of_sparing_sample :
    (∃ module, steps Module.step (Module.create 2 32 fun cpu => cpu = 0) staysUp = some module ∧ module.stage = .loaded ∧
      module.blocks 2 = some (.workmem 0) ∧ module.Balanced) ∧
    ∃ module, steps Module.step (Module.create 2 32 fun _ => false) removed = some module ∧ module.stage = .exited ∧ module.Balanced := by
  constructor
  · have met : Met Module.step Module.Sparing (Module.create 2 32 fun cpu => cpu = 0) staysUp :=
      ⟨trivial, trivial, fun _ _ => ⟨rfl, show (1 : Nat) ≠ 0 by decide, show (2 : Nat) ≠ 0 by decide⟩, nofun, nofun,
        show (0 : Int) < 254 by decide,
        show (3 : Nat) ≠ 0 by decide, fun _ => ⟨rfl, rfl, rfl⟩, nofun, trivial, fun _ => rfl, trivial⟩
    obtain ⟨module, taken, loaded, kept⟩ : ∃ module, steps Module.step (Module.create 2 32 fun cpu => cpu = 0) staysUp = some module ∧
        module.stage = .loaded ∧ module.blocks 2 = some (.workmem 0) := ⟨_, rfl, rfl, rfl⟩
    exact ⟨module, taken, loaded, kept, balanced_of_sparing (.of_met met taken)⟩
  · have unprepared (cpu : Nat) : Function.update (Function.update (fun _ => false) 1 true) 1 false cpu = false := by
      rw [Function.update_idem, Function.update_apply]
      exact ite_self _
    have met : Met Module.step Module.Sparing (Module.create 2 32 fun _ => false) removed :=
      ⟨trivial, trivial, nofun, nofun, nofun, show (0 : Int) < 254 by decide, show (3 : Nat) ≠ 0 by decide,
        fun _ => ⟨rfl, rfl, rfl⟩, nofun, trivial,
        trivial, trivial, trivial, trivial, trivial, nofun, fun _ _ => rfl, nofun, unprepared, trivial, trivial⟩
    obtain ⟨module, taken, exited⟩ : ∃ module, steps Module.step (Module.create 2 32 fun _ => false) removed = some module ∧
        module.stage = .exited :=
      ⟨_, rfl, rfl⟩
    exact ⟨module, taken, exited, balanced_of_sparing (.of_met met taken)⟩

/-- A CPU comes and goes, and keeps its work memory. -/
theorem workmem_kept : ∃ module, AnyRun Module.step (Module.create 2 32 fun _ => false) module ∧ ¬ module.Balanced := by
  obtain ⟨module, run, loaded, down, kept⟩ : ∃ module, AnyRun Module.step (Module.create 2 32 fun _ => false) module ∧
      module.stage = .loaded ∧ module.prepared 1 = false ∧ module.compressWorkmem 1 = 2 :=
    AnyRun.exists_of_steps (loading true ++ [.cpu .upPrepare 1 (outcomeWith true), .cpu .upCanceled 1 (outcomeWith true)])
      ⟨_, rfl, rfl, rfl, rfl⟩
  refine ⟨module, run, fun balanced => ?_⟩
  have null := ((balanced.loaded loaded).down 1 down).2
  rw [kept] at null
  cases null

end Sample
end Compcache.ZramModule
