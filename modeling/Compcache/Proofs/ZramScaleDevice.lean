import Compcache.Proofs.ZramScaleRuns

/-! What holds of the variant's device after any run: what its pages read as, and
what its counters say. -/

namespace Compcache.ZramScale
open Library.PagedMemory Library.Ownership Library.PerCpu Library.Runs Xvmalloc
open ZramDrv (Slot Content Disk tally discarded discarded_nothing discarded_next sectorsPerPage sectorShift)

theorem shows_update {ghost disk : Disk} {index : Nat} {now shown : Option PageData}
    (shows : ∀ {index data}, ghost index = some data → disk index = some data)
    (new : ∀ {data}, now = some data → shown = some data) {other : Nat} {data : PageData}
    (named : Function.update ghost index now other = some data) :
    Function.update disk index shown other = some data := by
  rcases Classical.em (other = index) with rfl | elsewhere
  · rw [Function.update_self] at named ⊢
    exact new named
  · rw [Function.update_of_ne elsewhere] at named ⊢
    exact shows named

section Devices
variable {Cpu : Type} [Arch] [DecidableEq Cpu] [Fintype Cpu]

section Reads
variable {lzo : Lzo} {others : Finset Page} {zram : Zram Cpu} {slots : Nat → Slot} {held : Storage → Prop} {disk : Disk} {index : Nat}

omit [DecidableEq Cpu] in
theorem Sound.readAbsent (sound : Sound lzo others zram slots held disk) (small : index < 2 ^ 32)
    (vacant : slots index = .empty) (page : PageData) :
    readSegment lzo zram index page = some (.again, page) := by
  have entry : zram.table (index % 2 ^ 32) = 0 := by
    rw [Nat.mod_eq_of_lt small, sound.entries, vacant]
    rfl
  unfold readSegment zramIsZeroPage zramFindObj
  rw [entry]
  rfl

omit [DecidableEq Cpu] in
theorem Sound.readSegment (sound : Sound lzo others zram slots held disk) (inverts : lzo.Inverts) (small : index < 2 ^ 32) {data : PageData}
    (shown : disk index = some data) (page : PageData) : ∃ flow, readSegment lzo zram index page = some (flow, data) ∧ flow ≠ .out := by
  have content := sound.stored.content index
  rw [shown] at content
  cases found : slots index with
  | empty =>
    rw [found] at content
    cases content
  | zero =>
    rw [found] at content
    cases content with
    | zero =>
      have marked : zramIsZeroPage zram index = true := by
        rw [zramIsZeroPage, Nat.mod_eq_of_lt small, sound.entries, found]
        rfl
      exact ⟨.again, if_pos marked, by simp⟩
  | stored storage =>
    obtain ⟨notZero, located⟩ := sound.find small found
    have here := sound.stored.holds found
    have placed := sound.placed storage here
    rw [found] at content
    cases content with
    | page copied =>
      rename_i frame
      have whole : PageData.copy zram.xv.memory frame 0 = data := by
        apply Subtype.ext
        rw [PageData.copy_val, ← copied, Storage.bytes_page]
      have here : zramFindObj zram index = some ⟨frame, 0⟩ := located
      have copies : handleUncompressedPage zram index = some data := by
        rw [handleUncompressedPage, here]
        dsimp only
        rw [if_neg (not_not_intro (Eq.refl 0)), whole]
      refine ⟨.again, ?_, by simp⟩
      unfold ZramScale.readSegment
      rw [notZero, if_neg Bool.false_ne_true, here]
      dsimp only
      rw [if_pos (Eq.refl 0), copies]
      rfl
    | object compressed =>
      rename_i location size
      have object : location.offset ≠ 0 := by
        intro first
        obtain ⟨frame, same⟩ := placed.kind.mp first
        cases same
      have sized := sound.stored.backed.object_size here
      have stream : lzo.decompress (zram.xv.memory.read location.page location.offset size) = (true, data.val) := inverts compressed
      have here : zramFindObj zram index = some location := located
      refine ⟨.next, ?_, by simp⟩
      unfold ZramScale.readSegment
      rw [notZero, if_neg Bool.false_ne_true, here]
      dsimp only
      rw [if_neg object, sized, stream, PageData.overwrite_whole page data.property]
      rfl

theorem Sound.readOne (sound : Sound lzo others zram slots held disk) (initDone : zram.initDone = true) (small : index < 2 ^ 32)
    {page data : PageData}
    (served : ∀ {zram : Zram Cpu}, Sound lzo others zram slots held disk → ∃ flow, ZramScale.readSegment lzo zram index page =
      some (flow, data) ∧ flow ≠ .out)
    (placement : Placement Cpu) : ∃ completion, zramRead lzo zram (index * sectorsPerPage) [page] placement = some completion ∧
      completion.ok = true ∧ completion.pages = [data] := by
  obtain ⟨after, counted, sound, _⟩ := sound.addStat (placement .numReads) .numReads 1 rfl
  obtain ⟨flow, shown, fine⟩ := served sound
  have first : index * sectorsPerPage / sectorsPerPage % 2 ^ 32 = index := by
    rw [Nat.mul_div_cancel _ (by decide), Nat.mod_eq_of_lt small]
  refine ⟨⟨after, true, [data]⟩, ?_, rfl, rfl⟩
  rw [zramRead, if_pos initDone, zramIncStat, counted, Option.bind_some, first, readSegments, shown]
  cases flow with
  | out => exact absurd rfl fine
  | next | again => rfl

end Reads

section Discard
variable {lzo : Lzo} {others : Finset Page} {device : Zram Cpu} {memory : Memory Page} {totalramPages sector size : Nat}

theorem Device.readAbsent {zram : Zram Cpu} {slots : Nat → Slot} {disk : Disk} (device : Device lzo others zram slots disk) {index : Nat}
    (small : index < 2 ^ 32)
    (vacant : slots index = .empty) (page : PageData) (placement : Placement Cpu) : ∃ completion,
      zramRead lzo zram (index * sectorsPerPage) [page] placement = some completion ∧ completion.ok = true ∧ completion.pages = [page] := by
  cases device with
  | idle blank => exact ⟨⟨zram, true, [page]⟩, if_neg (by simp [blank.initDone]), rfl, rfl⟩
  | ready initDone tableAddress sound =>
    exact sound.readOne initDone small (fun sound => ⟨.again, sound.readAbsent small vacant page, nofun⟩) placement

end Discard
/-- A request for a single page. -/
inductive PageRequest (Cpu : Type)
  | read (index : Nat) (page : PageData) (placement : Placement Cpu)
  | write (index : Nat) (segment : Segment Cpu) (allocations : InitAllocations) (placement : Placement Cpu)
  | discard (index : Nat) (placement : Nat → Placement Cpu)

namespace PageRequest

def index : PageRequest Cpu → Nat
  | read index _ _ => index
  | write index _ _ _ => index
  | discard index _ => index

def bio : PageRequest Cpu → Bio Cpu
  | read index page placement => .read (index * sectorsPerPage) [page] placement
  | write index segment allocations placement => .write (index * sectorsPerPage) [segment] allocations placement
  | discard index placement => .discard (index * sectorsPerPage) pageSize placement

/-- What the page should read as afterwards. Nothing is said of one whose write failed. -/
def after (disk : Disk) (ok : Bool) : PageRequest Cpu → Disk
  | read _ _ _ => disk
  | write index segment _ _ => Function.update disk index (if ok then some segment.data else none)
  | discard index _ => Function.update disk index none

end PageRequest

/-- A device, and what its pages should read as. -/
structure Session (Cpu : Type) where
  zram : Zram Cpu
  disk : Disk

def Session.step (lzo : Lzo) (session : Session Cpu) (request : PageRequest Cpu) : Option (Session Cpu) :=
  (zramMakeRequest lzo session.zram request.bio).map fun completion => ⟨completion.zram, request.after session.disk completion.ok⟩

/-- The page is on the disk and has a number of 32 bits; and a page written is zeros,
or compresses to no more than `max_zpage_size`, and gets pages that are low enough. -/
def Faithful (lzo : Lzo) (session : Session Cpu) (request : PageRequest Cpu) : Prop :=
  request.index < session.zram.numPages ∧ request.index < 2 ^ 32 ∧
    match request with
    | .write _ segment _ _ => (pageZeroFilled segment.data = true ∨ Compressible lzo segment.data) ∧ Low segment.allocator
    | _ => True

section Pages
variable {lzo : Lzo} {others : Finset Page} {device zram : Zram Cpu} {slots : Nat → Slot} {held : Storage → Prop}
    {disk : Disk} {index : Nat}

omit [DecidableEq Cpu] [Fintype Cpu] in
theorem validIoRequest_page (request : PageRequest Cpu) (inside : request.index < zram.numPages) :
    validIoRequest zram request.bio = true := by
  have start : request.bio.sector = request.index * sectorsPerPage := by
    cases request <;> rfl
  have size : request.bio.size = pageSize := by
    cases request <;> simp [PageRequest.bio, Bio.size]
  have within : request.index * sectorsPerPage < zram.disksize / 2 ^ sectorShift := by
    simp only [Zram.numPages, pageSize_eq, show sectorsPerPage = 8 from rfl, show sectorShift = 9 from rfl] at *
    omega
  rw [validIoRequest, start, size, Nat.mul_mod_left, Nat.mod_self]
  simpa using within

theorem Sound.writeOne (sound : Sound lzo others zram slots held disk) (inside : index < zram.numPages ∧ index < 2 ^ 32)
    {segment : Segment Cpu}
    (low : Low segment.allocator) (placement : Placement Cpu) : ∃ completion filled now flow shown,
      writeInitialised lzo zram (index * sectorsPerPage) [segment] placement = some completion ∧
      Sound lzo others completion.zram filled now (Function.update disk index shown) ∧ SameDevice zram completion.zram ∧
      Shown lzo segment flow shown ∧ (completion.ok = true ↔ flow ≠ .out) ∧
      (segment.Provided lzo (others.card + zram.numPages) → flow ≠ .out) := by
  obtain ⟨counted, started, counting, same⟩ := sound.addStat (placement .numWrites) .numWrites 1 rfl
  obtain ⟨after, flow, new, now, shown, written, sound, later, shows⟩ := counting.writeSegment ⟨same.numPages ▸ inside.1, inside.2⟩ low
  have first : index * sectorsPerPage / sectorsPerPage % 2 ^ 32 = index := by
    rw [Nat.mul_div_cancel _ (by decide), Nat.mod_eq_of_lt inside.2]
  refine ⟨⟨after, flow ≠ .out, []⟩, _, now, flow, shown, ?_, sound, same.trans later, shows, decide_eq_true_iff, fun provided =>
    counting.writeSegment_provided inside.2 (same.numPages ▸ provided) written⟩
  rw [writeInitialised, zramIncStat, started, Option.bind_some, first, ZramScale.writeSegments, written]
  cases flow <;> rfl

omit [DecidableEq Cpu] [Fintype Cpu] in
theorem Shown.faithful {segment : Segment Cpu} {flow : Flow} {shown : Option PageData} (shows : Shown lzo segment flow shown)
    (ended : flow ≠ .out)
    (good : pageZeroFilled segment.data = true ∨ Compressible lzo segment.data) : shown = some segment.data := by
  cases shows with
  | lost => exact absurd rfl ended
  | written => rfl
  | expanded nonzero large taken =>
    rcases good with zeros | small
    · rw [nonzero] at zeros
      cases zeros
    · exact absurd small large

/-- An initialised device that reads as the disk of the session says, where it says something. -/
structure Agrees (lzo : Lzo) (others : Finset Page) (session : Session Cpu) (slots : Nat → Slot) (held : Storage → Prop)
    (disk : Disk) : Prop where
  initDone : session.zram.initDone = true
  tableAddress : session.zram.tableAddress ≠ 0
  sound : Sound lzo others session.zram slots held disk
  shows : ∀ {index data}, session.disk index = some data → disk index = some data

theorem Agrees.step {session after : Session Cpu} (agrees : Agrees lzo others session slots held disk) {request : PageRequest Cpu}
    (faithful : Faithful lzo session request) (taken : Session.step lzo session request = some after) :
    after.zram.numPages = session.zram.numPages ∧ ∃ slots held disk, Agrees lzo others after slots held disk := by
  obtain ⟨initDone, tableAddress, sound, shows⟩ := agrees
  obtain ⟨inside, small, good⟩ := faithful
  have valid := validIoRequest_page request inside
  obtain ⟨completion, served, rfl⟩ := Option.map_eq_some_iff.mp taken
  unfold zramMakeRequest at served
  rw [if_pos valid] at served
  have keeps {slots : Nat → Slot} {held : Storage → Prop} {disk ghost : Disk} {result : Zram Cpu} (same : SameDevice session.zram result)
      (sound : Sound lzo others result slots held disk) (shows : ∀ {index data}, ghost index = some data → disk index = some data) :
      result.numPages = session.zram.numPages ∧ ∃ slots held disk, Agrees lzo others ⟨result, ghost⟩ slots held disk :=
    ⟨same.numPages, slots, held, disk, same.initDone.trans initDone, same.tableAddress ▸ tableAddress, sound, shows⟩
  cases request with
  | read index page placement =>
    obtain ⟨result, read, sound, same⟩ := sound.read initDone (index * sectorsPerPage) [page] placement
    obtain rfl : result = completion := Option.some.inj (read.symm.trans served)
    exact keeps same sound shows
  | write index segment allocations placement =>
    obtain ⟨result, filled, now, flow, shown, written, sound, same, shows', ended, _⟩ := sound.writeOne ⟨inside, small⟩ good.2 placement
    obtain rfl : result = completion := Option.some.inj (written.symm.trans (Eq.trans (if_pos initDone).symm served))
    refine keeps same sound (shows_update shows fun {data} named => ?_)
    split at named
    next ok => exact (shows'.faithful (ended.mp ok) good.1).trans named
    next => cases named
  | discard index placement =>
    have first : index * sectorsPerPage / sectorsPerPage = index := Nat.mul_div_cancel _ (by decide)
    have one : pageSize / pageSize = 1 := Nat.div_self (by decide)
    have low : index * sectorsPerPage / sectorsPerPage + pageSize / pageSize ≤ 2 ^ 32 := by
      rw [first, one]
      exact small
    obtain ⟨result, filled, now, discarded, sound, same, _⟩ := sound.discard initDone low placement
    rw [first, one, ← discarded_next, discarded_nothing] at sound
    obtain ⟨zram, freed, rfl⟩ := Option.map_eq_some_iff.mp served
    obtain rfl : result = zram := Option.some.inj (discarded.symm.trans freed)
    exact keeps same sound (shows_update shows fun named => by cases named)

theorem Agrees.run {start session : Session Cpu} (agrees : Agrees lzo others start slots held disk)
    (run : Run (Session.step lzo) (Faithful lzo) start session) : ∃ slots held disk, Agrees lzo others session slots held disk := by
  refine run.invariant (fun session => ∃ slots held disk, Agrees lzo others session slots held disk) ⟨_, _, _, agrees⟩ ?_
  rintro before after request ⟨slots, held, disk, agrees⟩ faithful taken
  exact (agrees.step faithful taken).2

omit [DecidableEq Cpu] [Fintype Cpu] in
theorem Faithful.admissible {session : Session Cpu} {request : PageRequest Cpu} (faithful : Faithful lzo session request) :
    Admissible session.zram (.bio request.bio) := by
  obtain ⟨inside, small, good⟩ := faithful
  have start : request.bio.sector / sectorsPerPage = request.index := by
    cases request <;> exact Nat.mul_div_cancel _ (by decide)
  have size : request.bio.size / pageSize = 1 := by
    cases request <;> simp [PageRequest.bio, Bio.size]
  refine fun _ => ⟨⟨?_, ?_⟩, ?_⟩
  · rw [start, size]
    exact inside
  · rw [start, size]
    exact small
  · cases request with
    | write index segment allocations placement => exact List.forall_mem_singleton.mpr good.2
    | read | discard => trivial

theorem Session.run_device {meets : Session Cpu → PageRequest Cpu → Prop} {admits : Zram Cpu → Event Cpu → Prop}
    (implies : ∀ {session request}, meets session request → admits session.zram (.bio request.bio)) {start session : Session Cpu}
    (run : Run (Session.step lzo) meets start session) : Run (ZramScale.step lzo) admits start.zram session.zram := by
  induction run with
  | start => exact .start
  | step _ met taken ih =>
    obtain ⟨completion, served, rfl⟩ := Option.map_eq_some_iff.mp taken
    exact ih.step (implies met) (congrArg (Option.map Completion.zram) served)

/-- A write that nothing fails succeeds, and the page should read as written from then on. -/
theorem Agrees.write {session : Session Cpu} (agrees : Agrees lzo others session slots held disk) {segment : Segment Cpu}
    {allocations : InitAllocations}
    {placement : Placement Cpu} (faithful : Faithful lzo session (.write index segment allocations placement))
    (provided : segment.Provided lzo (others.card + session.zram.numPages)) :
    ∃ after, Session.step lzo session (.write index segment allocations placement) = some after ∧
      after.disk = Function.update session.disk index (some segment.data) := by
  obtain ⟨inside, small, _, low⟩ := faithful
  have valid := validIoRequest_page (.write index segment allocations placement) inside
  obtain ⟨completion, _, _, flow, _, written, _, _, _, ended, succeeds⟩ := agrees.sound.writeOne ⟨inside, small⟩ low placement
  have served : zramMakeRequest lzo session.zram (.write (index * sectorsPerPage) [segment] allocations placement) = some completion :=
    (if_pos valid).trans ((if_pos agrees.initDone).trans written)
  refine ⟨_, congrArg (Option.map _) served, ?_⟩
  show Function.update session.disk index (if completion.ok then some segment.data else none) = _
  rw [if_pos (ended.mpr (succeeds provided))]

theorem Agrees.discard {session : Session Cpu} (agrees : Agrees lzo others session slots held disk)
    (inside : index < session.zram.numPages ∧ index < 2 ^ 32) (placement : Nat → Placement Cpu) :
    ∃ after, Session.step lzo session (.discard index placement) = some after ∧ after.disk = Function.update session.disk index none := by
  have valid := validIoRequest_page (.discard index placement) inside.1
  have low : index * sectorsPerPage / sectorsPerPage + pageSize / pageSize ≤ 2 ^ 32 := by
    rw [Nat.mul_div_cancel _ (by decide), Nat.div_self (by decide)]
    exact inside.2
  obtain ⟨result, _, _, discarded, _⟩ := agrees.sound.discard agrees.initDone low placement
  have served : zramMakeRequest lzo session.zram (.discard (index * sectorsPerPage) pageSize placement) = some ⟨result, true, []⟩ :=
    (if_pos valid).trans (congrArg (Option.map _) discarded)
  exact ⟨_, congrArg (Option.map _) served, rfl⟩

theorem Agrees.read (inverts : lzo.Inverts) {session : Session Cpu} (agrees : Agrees lzo others session slots held disk) {data : PageData}
    (written : session.disk index = some data) (page : PageData) (placement : Placement Cpu) : ∃ completion,
      zramMakeRequest lzo session.zram (.read (index * sectorsPerPage) [page] placement) = some completion ∧
      completion.ok = true ∧ completion.pages = [data] := by
  have shown := agrees.shows written
  have occupied : slots index ≠ .empty := by
    intro vacant
    rw [agrees.sound.stored.absent vacant] at shown
    cases shown
  obtain ⟨inside, small⟩ := agrees.sound.inside index occupied
  have valid : validIoRequest session.zram (.read (index * sectorsPerPage) [page] placement) = true :=
    validIoRequest_page (.read index page placement) inside
  obtain ⟨completion, served, ok, pages⟩ :=
    agrees.sound.readOne agrees.initDone small (fun sound => sound.readSegment inverts small shown page) placement
  exact ⟨completion, (if_pos valid).trans served, ok, pages⟩

/-- From any initialised device on, a page reads back as it was last written, as long
as the pages written are zeros or compress; and a write succeeds that nothing fails. -/
theorem page_reads_back (inverts : lzo.Inverts) {memory : Memory Page} {totalramPages : Nat}
    (reachable : Run (ZramScale.step lzo) Admissible (createDevice ⟨⟨memory, others⟩, xvCreatePool⟩ totalramPages) device)
    (initDone : device.initDone = true) {session : Session Cpu}
    (run : Run (Session.step lzo) (Faithful lzo) ⟨device, fun _ => none⟩ session) :
    (∀ {index data}, session.disk index = some data → ∀ page placement, ∃ completion,
      zramMakeRequest lzo session.zram (.read (index * sectorsPerPage) [page] placement) = some completion ∧
      completion.ok = true ∧ completion.pages = [data]) ∧
    ∀ {index segment allocations placement}, Faithful lzo session (.write index segment allocations placement) →
      segment.Provided lzo (others.card + session.zram.numPages) →
      ∃ after, Session.step lzo session (.write index segment allocations placement) = some after ∧ after.disk index =
        some segment.data := by
  obtain ⟨slots, disk, started⟩ := run_device reachable (fun _ _ met => met) ⟨_, _, createDevice_idle others memory totalramPages⟩
  cases started with
  | idle blank =>
    rw [blank.initDone] at initDone
    cases initDone
  | ready initDone tableAddress sound =>
    obtain ⟨slots, held, disk, agrees⟩ := Agrees.run ⟨initDone, tableAddress, sound, fun {_ _} none_ => by cases none_⟩ run
    refine ⟨fun written page placement => agrees.read inverts written page placement,
      fun {index segment allocations placement} faithful provided => ?_⟩
    obtain ⟨after, taken, shows⟩ := agrees.write faithful provided
    exact ⟨after, taken, by rw [shows, Function.update_self]⟩

end Pages
end Devices

section Store
variable [Arch] {Cpu : Type} [DecidableEq Cpu] {lzo : Lzo} {zram : Zram Cpu} {counters : Counters Cpu Stat} {index : Nat}

theorem storeSegment_expanded (segment : Segment Cpu) (present : zram.stats = some counters) (buffers : segment.buffers = true)
    (nonzero : pageZeroFilled segment.data = false)
    {src : List UInt8} (compressed : lzo.compress segment.data = some src) (large : maxZpageSize < src.length)
    {page : Page} {kernel : Kernel}
    (taken : zram.xv.kernel.allocPage segment.allocator = some (page, kernel)) : ∃ after, storeSegment lzo zram index segment =
      some (after, .next) := by
  have here : ({ zram with xv := ⟨kernel, zram.xv.pool⟩ } : Zram Cpu).stats = some counters := present
  unfold storeSegment
  rw [if_neg (by simp [buffers]), if_neg (by simp [nonzero]), compressed]
  dsimp only
  rw [if_pos large, taken]
  dsimp only
  rw [zramIncStat, zramAddStat_some here, Option.bind_some]
  exact ⟨_, congrArg (Option.map _) (memstore_some rfl _ _ _ _)⟩

end Store

section Sample
local instance sampleArch : Arch := Arch.x64

def anywhere : Placement Unit := fun _ => ()

def granted : InitAllocations := ⟨1024, 1, 2, 3⟩

/-- A device just created, in a system without other owners. -/
def sampleStart : Zram Unit := createDevice ⟨⟨fun _ _ => 0, ∅⟩, xvCreatePool⟩ 1024

/-- The device with a disk of two pages, initialised. -/
def sampleReady : Zram Unit := ⟨⟨⟨fun _ _ => 0, ∅⟩, xvCreatePool⟩, fun _ => 0, some Counters.zero, 8192, true, 1, 3⟩

theorem sampleReady_steps (lzo : Lzo) : step lzo (disksizeStore sampleStart (some 8192)) (.init granted fun _ => anywhere) =
    some sampleReady := rfl

theorem sampleReady_leads (lzo : Lzo) {meets : Zram Unit → Event Unit → Prop} (sized : meets sampleStart (.disksize (some 8192)))
    (started : meets (disksizeStore sampleStart (some 8192)) (.init granted fun _ => anywhere)) :
    Run (step lzo) meets sampleStart sampleReady :=
  (Run.step .start sized rfl).step started (sampleReady_steps lzo)

theorem sampleReady_run (lzo : Lzo) : Run (step lzo) Admissible sampleStart sampleReady := sampleReady_leads lzo trivial trivial

theorem sampleReady_sound (lzo : Lzo) : Sound lzo ∅ sampleReady (fun _ => .empty) (fun _ => False) fun _ => none :=
  Blank.start (.create _) (fun _ => rfl) rfl

theorem noise_nonzero : PageData.noise ≠ PageData.zeros := by
  intro same
  have first := congrArg (fun data => data.val[1]?) same
  revert first
  decide +kernel

/-- A write to the first page of the disk. -/
def sampleWrite (data : PageData) : PageRequest Unit := .write 0 ⟨data, firstPage, true, anywhere, anywhere⟩ granted anywhere

theorem sampleWrite_valid (data : PageData) : validIoRequest sampleReady (sampleWrite data).bio = true :=
  validIoRequest_page (sampleWrite data) (show 0 < sampleReady.numPages by decide)

theorem sampleWrite_session (lzo : Lzo) (data : PageData) {flow : Flow} (ended : flow ≠ .out)
    (stored : ∀ {zram : Zram Unit} {counters : Counters Unit Stat}, zram.stats = some counters → zram.xv = sampleReady.xv →
      ∃ after, storeSegment lzo zram 0 ⟨data, firstPage, true, anywhere, anywhere⟩ = some (after, flow)) :
    ∃ session filled held shown way, Session.step lzo ⟨sampleReady, fun _ => none⟩ (sampleWrite data) = some session ∧
      session.disk 0 = some data ∧ session.zram.initDone = true ∧ session.zram.numPages = 2 ∧
      Sound lzo ∅ session.zram filled held (Function.update (fun _ => none) 0 shown) ∧
      Shown lzo ⟨data, firstPage, true, anywhere, anywhere⟩ way shown ∧ way ≠ .out := by
  have low : Low (⟨data, firstPage, true, anywhere, anywhere⟩ : Segment Unit).allocator := Low.of_narrow (Nat.le_refl 64) _
  obtain ⟨completion, filled, held, way, shown, written, sound, same, shows, ok, _⟩ :=
    (sampleReady_sound lzo).writeOne (show 0 < sampleReady.numPages ∧ 0 < 2 ^ 32 by decide) low anywhere
  obtain ⟨counted, started, ⟨counters, present⟩, untouched, vacant⟩ : ∃ counted, zramIncStat sampleReady (anywhere .numWrites) .numWrites =
    some counted ∧
      (∃ counters, counted.stats = some counters) ∧ counted.xv = sampleReady.xv ∧ zramFreePage counted 0 anywhere = some counted :=
    ⟨_, rfl, ⟨_, rfl⟩, rfl, rfl⟩
  obtain ⟨after, filling⟩ := stored present untouched
  have done : writeInitialised lzo sampleReady (0 * sectorsPerPage) [⟨data, firstPage, true, anywhere, anywhere⟩] anywhere =
      some ⟨after, true, []⟩ := by
    rw [writeInitialised, started, Option.bind_some, Nat.zero_mul, Nat.zero_div, Nat.zero_mod, writeSegments, writeSegment, vacant,
      Option.bind_some, filling]
    cases flow with
    | out => exact absurd rfl ended
    | next | again => rfl
  obtain rfl : ⟨after, true, []⟩ = completion := Option.some.inj (done.symm.trans written)
  have served : zramMakeRequest lzo sampleReady (sampleWrite data).bio = some ⟨after, true, []⟩ := by
    rw [zramMakeRequest.eq_def, if_pos (sampleWrite_valid data)]
    exact (if_pos rfl).trans done
  have recorded : Function.update (fun _ => none) 0 (some data) 0 = some data := Function.update_self ..
  refine ⟨⟨after, Function.update (fun _ => none) 0 (some data)⟩, filled, held, shown, way, congrArg (Option.map _) served, recorded,
    same.initDone, same.numPages, sound, shows, ok.mp rfl⟩

def threeFrames : PageAllocator := .lowest 3 (by decide)

def pageOf (byte : UInt8) : Segment Unit := ⟨PageData.filled byte, threeFrames, true, anywhere, anywhere⟩

theorem pageOf_compressible (byte : UInt8) : Compressible Lzo.runs (pageOf byte).data := by
  intro src compressed
  obtain rfl : runStream byte = src := Option.some.inj ((Lzo.runs_filled byte).symm.trans compressed)
  simp [runStream, maxZpageSize]

theorem pageOf_provided (byte : UInt8) : (pageOf byte).Provided Lzo.runs 2 :=
  ⟨rfl, .inr ⟨_, Lzo.runs_filled byte, by simp [runStream]⟩, PageAllocator.lowest_serves (show 2 + 1 < 2 ^ 20 by decide)⟩

theorem pageOf_faithful {session : Session Unit} {index : Nat} (inside : index < session.zram.numPages ∧ index < 2 ^ 32) (byte : UInt8) :
    Faithful Lzo.runs session (.write index (pageOf byte) granted anywhere) :=
  ⟨inside.1, inside.2, .inr (pageOf_compressible byte), Low.of_narrow (Nat.le_refl 64) _⟩

theorem writes_lead (shows : Session Unit → Prop) (pages : List (Nat × UInt8))
    (taken : ∃ session ∈ steps (tested (Session.step Lzo.runs) fun session request => request.index < session.zram.numPages ∧
      request.index < 2 ^ 32)
      ⟨sampleReady, fun _ => none⟩ (pages.map fun page => .write page.1 (pageOf page.2) granted anywhere), shows session) :
    ∃ session, Run (Session.step Lzo.runs) (fun session request => Faithful Lzo.runs session request ∧
      ∀ index, ¬ (Event.bio request.bio).Discards index)
      ⟨sampleReady, fun _ => none⟩ session ∧ shows session := by
  obtain ⟨session, reached, shown⟩ := taken
  refine ⟨session, .of_tested_mem (fun {session} request member passed => ?_) reached, shown⟩
  obtain ⟨page, _, rfl⟩ := List.mem_map.mp member
  exact ⟨pageOf_faithful (of_decide_eq_true passed) page.2, fun _ => id⟩

/-- Each page is to be written with one byte, or discarded. -/
def pageRequest (page : Nat × Option UInt8) : PageRequest Unit :=
  match page.2 with
  | some byte => .write page.1 (pageOf byte) granted anywhere
  | none => .discard page.1 fun _ => anywhere

theorem pageRequests_run (pages : List (Nat × Option UInt8)) (inside : ∀ page ∈ pages, page.1 < 2) {session : Session Unit}
    {slots : Nat → Slot}
    {held : Storage → Prop} {disk : Disk} (agrees : Agrees Lzo.runs ∅ session slots held disk) (sized : session.zram.numPages = 2) :
    ∃ after, Run (Session.step Lzo.runs) (Faithful Lzo.runs) session after ∧ after.zram.numPages = 2 ∧
      after.disk = pages.foldl (fun disk page => Function.update disk page.1 (page.2.map PageData.filled)) session.disk := by
  induction pages generalizing session slots held disk with
  | nil => exact ⟨session, .start, sized, rfl⟩
  | cons page rest ih =>
    obtain ⟨here, later⟩ := List.forall_mem_cons.mp inside
    have within : page.1 < session.zram.numPages ∧ page.1 < 2 ^ 32 := ⟨sized ▸ here, here.trans (by decide)⟩
    obtain ⟨after, faithful, taken, shows⟩ : ∃ after, Faithful Lzo.runs session (pageRequest page) ∧
        Session.step Lzo.runs session (pageRequest page) = some after ∧
        after.disk = Function.update session.disk page.1 (page.2.map PageData.filled) := by
      obtain ⟨index, _ | byte⟩ := page
      · obtain ⟨after, taken, shows⟩ := agrees.discard within fun _ => anywhere
        exact ⟨after, ⟨within.1, within.2, trivial⟩, taken, shows⟩
      · have faithful := pageOf_faithful within byte
        obtain ⟨after, taken, shows⟩ := agrees.write faithful (sized ▸ pageOf_provided byte)
        exact ⟨after, faithful, taken, shows⟩
    obtain ⟨pages, _, _, _, agrees⟩ := agrees.step faithful taken
    obtain ⟨final, run, same, disk⟩ := ih later agrees (pages.trans sized)
    rw [shows] at disk
    exact ⟨final, (Run.step .start faithful taken).trans run, same, disk⟩

theorem sampleReady_agrees (lzo : Lzo) : Agrees lzo ∅ ⟨sampleReady, fun _ => none⟩ (fun _ => .empty) (fun _ => False) fun _ => none :=
  ⟨rfl, by decide, sampleReady_sound lzo, nofun⟩

/-- Both pages are written, and rewritten in another class; one of them is discarded
in between. -/
theorem page_reads_back_sample : ∃ session : Session Unit, session.disk 0 = some (PageData.filled 7) ∧
    session.disk 1 = some (PageData.filled 8) ∧
    (∃ completion, zramMakeRequest Lzo.runs session.zram (.read (0 * sectorsPerPage) [PageData.noise] anywhere) = some completion ∧
      completion.ok = true ∧ completion.pages = [PageData.filled 7]) ∧
    ∃ after, Session.step Lzo.runs session (.write 1 (pageOf 9) granted anywhere) = some after ∧
      after.disk 1 = some (PageData.filled 9) := by
  obtain ⟨session, run, sized, disk⟩ := pageRequests_run
    [(0, some 5), (1, some 0), (0, some 0), (1, some 8), (0, none), (0, some 7)] (by decide) (sampleReady_agrees _) rfl
  have first : session.disk 0 = some (PageData.filled 7) := by
    rw [disk]
    rfl
  have second : session.disk 1 = some (PageData.filled 8) := by
    rw [disk]
    rfl
  obtain ⟨reads, writes⟩ := page_reads_back Lzo.runs_inverts (sampleReady_run Lzo.runs) rfl run
  have inside : 1 < session.zram.numPages ∧ 1 < 2 ^ 32 := ⟨by rw [sized]; decide, by decide⟩
  exact ⟨session, first, second, reads first PageData.noise anywhere, writes (pageOf_faithful inside 9) (sized ▸ pageOf_provided 9)⟩

theorem firstPage_zeros {before after : Kernel} {page : Page} (taken : before.allocPage firstPage = some (page, after)) :
    PageData.copy after.memory page 0 = PageData.zeros := by
  obtain ⟨fresh, picked, found⟩ := Option.map_eq_some_iff.mp taken
  cases found
  have content : fresh.content = fun _ => 0 := by
    simp only [firstPage, PageAllocator.offering] at picked
    split at picked
    next => cases picked
    next =>
      cases picked
      rfl
  have filled : Function.update before.memory fresh.page fresh.content fresh.page = fun _ => 0 := (Function.update_self ..).trans content
  apply Subtype.ext
  rw [PageData.copy_val, Memory.read]
  dsimp only
  rw [filled]
  refine List.eq_replicate_iff.mpr ⟨PageBytes.read_length .., fun byte member => ?_⟩
  obtain ⟨_, _, rfl⟩ := List.mem_map.mp member
  rfl

/-- A page that does not compress reads as what its new page held: the store copies
the new page to itself. -/
theorem expanded_page_lost : Lzo.literal.Inverts ∧ Run (step Lzo.literal) Admissible sampleStart sampleReady ∧ sampleReady.initDone = true ∧
    ∃ session completion, Session.step Lzo.literal ⟨sampleReady, fun _ => none⟩ (sampleWrite PageData.noise) = some session ∧
      session.disk 0 = some PageData.noise ∧
      zramMakeRequest Lzo.literal session.zram (.read (0 * sectorsPerPage) [PageData.noise] anywhere) = some completion ∧
      completion.ok = true ∧ completion.pages = [PageData.zeros] ∧ PageData.noise ≠ PageData.zeros := by
  have nonzero : pageZeroFilled PageData.noise = false := by decide +kernel
  have long : maxZpageSize < (List.replicate 16 0 ++ 253 :: (PageData.noise.val ++ [17, 0, 0]) : List UInt8).length := by
    have whole := PageData.noise.property
    simp [whole, maxZpageSize]
  have offered : sampleReady.xv.kernel.allocPage firstPage = some (1, ⟨Function.update (fun _ _ => 0) 1 fun _ => 0, {1}⟩) := rfl
  obtain ⟨session, filled, held, shown, flow, taken, written, initDone, pages, sound, shows, ended⟩ :=
    sampleWrite_session Lzo.literal PageData.noise (show Flow.next ≠ .out by decide) fun present same =>
      storeSegment_expanded ⟨PageData.noise, firstPage, true, anywhere, anywhere⟩ present rfl nonzero rfl long (by rw [same]; exact offered)
  have lost : shown = some PageData.zeros := by
    cases shows with
    | lost => exact absurd rfl ended
    | written _ good =>
      rcases good with zeros | small
      · rw [nonzero] at zeros
        cases zeros
      · exact absurd (small _ rfl) (Nat.not_le_of_gt long)
    | expanded _ _ taken =>
      rw [firstPage_zeros taken]
  have reads : Function.update (fun _ => none) 0 shown 0 = some PageData.zeros := (Function.update_self ..).trans lost
  obtain ⟨completion, served, ok, shown⟩ := sound.readOne initDone (show 0 < 2 ^ 32 by decide)
    (fun sound => sound.readSegment Lzo.literal_inverts (by decide) reads PageData.noise) anywhere
  have valid : validIoRequest session.zram (.read (0 * sectorsPerPage) [PageData.noise] anywhere) = true :=
    validIoRequest_page (.read 0 PageData.noise anywhere) (pages ▸ show 0 < 2 by decide)
  exact ⟨Lzo.literal_inverts, sampleReady_run _, rfl, session, completion, taken, written, (if_pos valid).trans served, ok,
    shown, noise_nonzero⟩

end Sample
end Compcache.ZramScale
