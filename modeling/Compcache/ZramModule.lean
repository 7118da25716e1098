import Compcache.Library.Blocks
import Compcache.ZramSysfs

/-! Set-up, removal and CPU hotplug of the module zram_scale. A step of `zram_init` or
`zram_exit` is one call, and CPUs come and go in between. -/

namespace Compcache.ZramModule
open Library Library.Blocks
open ZramDrv (einval ebusy)

/-- What the module allocates: the buffers of a CPU, and the array of devices. -/
inductive Block
  | buffer (cpu : Nat)
  | workmem (cpu : Nat)
  | devices
  deriving DecidableEq

def Block.isPages : Block → Bool
  | buffer _ => true
  | _ => false

def Block.isKmalloc (block : Block) : Bool := ¬ block.isPages

/-- Whether the queue and the disk of a device exist. -/
structure Device where
  queue : Bool
  disk : Bool
  deriving DecidableEq

def Device.none : Device := ⟨false, false⟩

/-- Where a CPU stands: `preparing` behind CPU_UP_PREPARE, `dying` once it is out of
the mask of online CPUs and before CPU_DEAD. -/
inductive Standing
  | offline
  | preparing
  | online
  | dying
  deriving DecidableEq

/-- How far `zram_init` and `zram_exit` have come. -/
inductive Stage
  | idle
  | registering
  | preparing (cpu : Nat)
  | blkdev
  | array
  | creating (devId : Nat)
  | destroying (devId : Nat) (ret : Int)
  | unregister (ret : Int)
  | cancelling (cpu : Nat) (ret : Int)
  | failed (ret : Int)
  | loaded
  | removing (i : Nat)
  | exitMajor
  | exitCancelling (cpu : Nat)
  | exitNotifier
  | exitFree
  | exited
  deriving DecidableEq

inductive CpuAction
  | upPrepare
  | upCanceled
  | dead
  deriving DecidableEq

/-- The memory of the system, the variables of the module, and what it has registered.
`prepared` are the CPUs it was last told of to prepare them. -/
structure Module where
  cpus : Nat
  maxNumDevices : Nat
  standing : Nat → Standing
  blocks : Allocated Block
  compressBuffer : Nat → Nat
  compressWorkmem : Nat → Nat
  prepared : Nat → Bool
  notifier : Bool
  major : Bool
  numDevices : Nat
  devices : Nat
  device : Nat → Device
  stage : Stage

/-- What the calls of one step come to: what `register_cpu_notifier`, `register_blkdev`
and `sysfs_create_group` return, and the allocations. -/
structure Outcome where
  register : Int
  zramMajor : Int
  sysfs : Int
  buffer : Allocator Block
  workmem : Allocator Block
  devices : Allocator Block
  queue : Bool
  disk : Bool

/-- An allocation into a pointer, NULL when it fails. -/
def alloc (blocks : Allocated Block) (allocator : Allocator Block) (block : Block) : Nat × Allocated Block :=
  (obtain blocks allocator block).getD (0, blocks)

/-- `zram_cpu_notify`. When a CPU goes down, both times it is its buffer that is released. -/
def Module.cpuNotify (module : Module) (action : CpuAction) (cpu : Nat) (outcome : Outcome) : Option Module :=
  match action with
  | .upPrepare =>
    let buffer := alloc module.blocks outcome.buffer (.buffer cpu)
    let workmem := alloc buffer.2 outcome.workmem (.workmem cpu)
    some { module with
      blocks := workmem.2
      compressBuffer := Function.update module.compressBuffer cpu buffer.1
      compressWorkmem := Function.update module.compressWorkmem cpu workmem.1
      prepared := Function.update module.prepared cpu true }
  | .upCanceled | .dead =>
    (release Block.isPages module.blocks (module.compressBuffer cpu)).bind fun blocks =>
      let module := { module with blocks, compressBuffer := Function.update module.compressBuffer cpu 0 }
      (release Block.isKmalloc module.blocks (module.compressBuffer cpu)).map fun blocks =>
        { module with
          blocks
          compressBuffer := Function.update module.compressBuffer cpu 0
          prepared := Function.update module.prepared cpu false }

/-- `create_device`: the device, and the return value. -/
def createDevice (outcome : Outcome) : Device × Int :=
  if outcome.queue then
    if outcome.disk then (⟨true, true⟩, outcome.sysfs) else (Device.none, -enomem)
  else (Device.none, -enomem)

def Module.setDevice (module : Module) (devId : Nat) (device : Device) : Module :=
  { module with device := Function.update module.device devId device }

def Module.destroyDevice (module : Module) (devId : Nat) : Module := module.setDevice devId Device.none

def Module.goto (module : Module) (stage : Stage) : Module := { module with stage }

/-- The next call of `zram_init` or `zram_exit`. -/
def Module.advance (module : Module) (outcome : Outcome) : Option Module :=
  match module.stage with
  | .registering =>
    some (if outcome.register = 0 then { module with notifier := true, stage := .preparing 0 } else module.goto
      (.cancelling 0 outcome.register))
  | .preparing cpu =>
    if module.cpus ≤ cpu then some (module.goto .blkdev)
    else if module.standing cpu = .online then
      (module.cpuNotify .upPrepare cpu outcome).map fun module =>
        if module.compressBuffer cpu = 0 ∨ module.compressWorkmem cpu = 0 then module.goto (.cancelling 0 (-enomem)) else module.goto
          (.preparing (cpu + 1))
    else some (module.goto (.preparing (cpu + 1)))
  | .blkdev => some (if outcome.zramMajor ≤ 0 then module.goto (.cancelling 0 (-ebusy)) else { module with major := true, stage := .array })
  | .array =>
    let module := if module.numDevices = 0 then { module with numDevices := 1 } else module
    let devices := alloc module.blocks outcome.devices .devices
    some { module with devices := devices.1, blocks := devices.2, stage := if devices.1 = 0 then .unregister (-enomem) else .creating 0 }
  | .creating devId =>
    if module.numDevices ≤ devId then some (module.goto .loaded)
    else
      let created := createDevice outcome
      some ((module.setDevice devId created.1).goto (if created.2 ≠ 0 then .destroying devId created.2 else .creating (devId + 1)))
  | .destroying 0 ret => some (module.goto (.unregister ret))
  | .destroying (devId + 1) ret => some ((module.destroyDevice devId).goto (.destroying devId ret))
  | .unregister ret => some ({ module with major := false }.goto (.cancelling 0 ret))
  | .cancelling cpu ret =>
    if module.cpus ≤ cpu then some (module.goto (.failed ret))
    else if module.standing cpu = .online then (module.cpuNotify .upCanceled cpu outcome).map fun module =>
      module.goto (.cancelling (cpu + 1) ret)
    else some (module.goto (.cancelling (cpu + 1) ret))
  | .removing i =>
    if module.numDevices ≤ i then some (module.goto .exitMajor) else some ((module.destroyDevice i).goto (.removing (i + 1)))
  | .exitMajor => some ({ module with major := false }.goto (.exitCancelling 0))
  | .exitCancelling cpu =>
    if module.cpus ≤ cpu then some (module.goto .exitNotifier)
    else if module.standing cpu = .online then (module.cpuNotify .upCanceled cpu outcome).map fun module =>
      module.goto (.exitCancelling (cpu + 1))
    else some (module.goto (.exitCancelling (cpu + 1)))
  | .exitNotifier => some ({ module with notifier := false }.goto .exitFree)
  | .exitFree => (release Block.isKmalloc module.blocks module.devices).map fun blocks => { module with blocks }.goto .exited
  | .idle | .failed _ | .loaded | .exited => none

/-- What the kernel tells all that are registered about a CPU. -/
def Module.notify (module : Module) (action : CpuAction) (cpu : Nat) (outcome : Outcome) : Option Module :=
  if module.notifier then module.cpuNotify action cpu outcome else some module

def Module.stand (module : Module) (cpu : Nat) (standing : Standing) : Module :=
  { module with standing := Function.update module.standing cpu standing }

inductive Action
  | init (numDevices : Nat)
  | exit
  | advance (outcome : Outcome)
  | cpu (action : CpuAction) (cpu : Nat) (outcome : Outcome)
  | online (cpu : Nat)
  | offline (cpu : Nat)

/-- `none` when the action cannot happen, and when what is no block is released. -/
def Module.step (module : Module) : Action → Option Module
  | .init numDevices =>
    if module.stage = .idle then
      some ({ module with numDevices }.goto (if numDevices > module.maxNumDevices then .cancelling 0 (-einval) else .registering))
    else none
  | .exit => if module.stage = .loaded then some (module.goto (.removing 0)) else none
  | .advance outcome => module.advance outcome
  | .cpu .upPrepare cpu outcome =>
    if module.standing cpu = .offline ∧ cpu < module.cpus then (module.stand cpu .preparing).notify .upPrepare cpu outcome else none
  | .cpu .upCanceled cpu outcome =>
    if module.standing cpu = .preparing then (module.stand cpu .offline).notify .upCanceled cpu outcome else none
  | .cpu .dead cpu outcome =>
    if module.standing cpu = .dying then (module.stand cpu .offline).notify .dead cpu outcome else none
  | .online cpu => if module.standing cpu = .preparing then some (module.stand cpu .online) else none
  | .offline cpu => if module.standing cpu = .online then some (module.stand cpu .dying) else none

/-- A system without the module, with some CPUs online. -/
def Module.create (cpus maxNumDevices : Nat) (up : Nat → Bool) : Module where
  cpus
  maxNumDevices
  standing cpu := if up cpu then .online else .offline
  blocks := fun _ => none
  compressBuffer := fun _ => 0
  compressWorkmem := fun _ => 0
  prepared := fun _ => false
  notifier := false
  major := false
  numDevices := 0
  devices := 0
  device := fun _ => Device.none
  stage := .idle

end Compcache.ZramModule
