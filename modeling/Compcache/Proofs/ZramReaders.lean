import Compcache.Proofs.ZramRequests
import Compcache.Proofs.ZramResets

/-! Reads while other requests update pages. Readers take no lock, so what they load
says something only while nobody else updates the page. -/

namespace Compcache.ZramSteps
open Library.PagedMemory Library.Ownership Library.Runs Library.Parties Xvmalloc
open ZramDrv (Zram Entry Slot Content Bio Disk sectorsPerPage maxZpageSize)

section Readers
variable [Arch]

/-- What is left of a request that is at no page. -/
inductive Between (lzo : Lzo) : Code → Prop
  | request (bio : Bio) : Between lzo (bioCode lzo bio)
  | notify (index : Nat) : Between lzo (zramSlotFreeNotify index)
  | writing (index : Nat) (segments : List (PageData × PageAllocator)) : Between lzo (writeSegments lzo index segments)
  | reading (index : Nat) (served pages : List PageData) : Between lzo (readSegments index served pages)
  | discarding (index npages : Nat) : Between lzo (discardPages index npages)
  | done (ok : Bool) (pages : List PageData) : Between lzo (.done ok pages)

/-- What is left of a request that updates a page, given the entry, the storage that
belongs to the page, and the data known to be in it. -/
inductive Updating (lzo : Lzo) (index : Nat) : Entry → Option Storage → Option PageData → Code → Prop
  | loadPage {entry : Entry} {store : Option Storage} {copied : Option PageData} {next : Page → Code}
      (rest : Updating lzo index entry store copied (next entry.page)) : Updating lzo index entry store copied (.loadPage index next)
  | loadOffset {entry : Entry} {store : Option Storage} {copied : Option PageData} {next : Nat → Code}
      (rest : Updating lzo index entry store copied (next entry.offset)) : Updating lzo index entry store copied (.loadOffset index next)
  | testFlag {entry : Entry} {store : Option Storage} {copied : Option PageData} {flag : Flag} {next : Bool → Code}
      (rest : Updating lzo index entry store copied (next (Entry.flag entry flag))) :
        Updating lzo index entry store copied (.testFlag index flag next)
  | storePage {entry : Entry} {store : Option Storage} {copied : Option PageData} {page : Page} {next : Code}
      (rest : Updating lzo index { entry with page } store copied next) : Updating lzo index entry store copied (.storePage index page next)
  | storeOffset {entry : Entry} {store : Option Storage} {copied : Option PageData} {offset : Nat} {next : Code}
      (rest : Updating lzo index { entry with offset } store copied next) :
        Updating lzo index entry store copied (.storeOffset index offset next)
  | storeFlag {entry : Entry} {store : Option Storage} {copied : Option PageData} {flag : Flag} {value : Bool} {next : Code}
      (rest : Updating lzo index (Entry.withFlag entry value flag) store copied next) :
        Updating lzo index entry store copied (.storeFlag index flag value next)
  | allocPage {entry : Entry} {copied : Option PageData} {allocator : PageAllocator} {next : Option Page → Code}
      (refused : Updating lzo index entry none none (next none)) (met : ∀ page, Updating lzo index entry (some (.page page)) none
        (next (some page))) :
      Updating lzo index entry none copied (.allocPage allocator next)
  | freePage {entry : Entry} {copied : Option PageData} {page : Page} {next : Code} (rest : Updating lzo index entry none none next) :
      Updating lzo index entry (some (.page page)) copied (.freePage page next)
  | xvMalloc {entry : Entry} {copied : Option PageData} {size : Nat} {allocator : PageAllocator} {next : Int → Nat → Code}
    (small : size ≤ 4088)
      (refused : Updating lzo index { entry with page := noPage } none none (next (-enomem) 0))
      (met : ∀ location : Location, location.offset + size ≤ pageSize →
        Updating lzo index { entry with page := location.page } (some (.object location size)) none (next 0 location.offset)) :
      Updating lzo index entry none copied (.xvMalloc index size allocator next)
  | xvFree {entry : Entry} {copied : Option PageData} {location : Location} {size : Nat} {next : Code}
    (rest : Updating lzo index entry none none next) :
      Updating lzo index entry (some (.object location size)) copied (.xvFree location.page location.offset next)
  | copyIn {entry : Entry} {storage : Storage} {copied : Option PageData} {src : List UInt8} {data : PageData} {next : Code}
      (whole : src.length = storage.size) (content : ∀ {memory}, storage.bytes memory = src →
        Content lzo memory (.stored storage) (some data))
      (rest : Updating lzo index entry (some storage) (some data) next) :
      Updating lzo index entry (some storage) copied (.copyIn storage.location.page storage.location.offset src next)
  | lock {entry : Entry} {store : Option Storage} {copied : Option PageData} {next : Code}
    (rest : Updating lzo index entry store copied next) :
      Updating lzo index entry store copied (.lock next)
  | unlock {entry : Entry} {store : Option Storage} {copied : Option PageData} {next : Code}
    (rest : Updating lzo index entry store copied next) :
      Updating lzo index entry store copied (.unlock next)
  | leaveStored {storage : Storage} {data : PageData} {next : Code} (rest : Between lzo next) :
      Updating lzo index (Slot.stored storage).entry (some storage) (some data) (.leave (.wrote data) next)
  | leaveZero {copied : Option PageData} {next : Code} (rest : Between lzo next) :
      Updating lzo index Slot.zero.entry none copied (.leave (.wrote PageData.zeros) next)
  | leaveEmpty {copied : Option PageData} {next : Code} (rest : Between lzo next) :
    Updating lzo index Entry.empty none copied (.leave .emptied next)

/-- What is left of a request that reads a page at rest. -/
inductive Reading (lzo : Lzo) (index : Nat) (slot : Slot) (shown : Option PageData) : Code → Prop
  | loadPage {next : Page → Code} (rest : Reading lzo index slot shown (next slot.entry.page)) :
      Reading lzo index slot shown (.loadPage index next)
  | loadOffset {next : Nat → Code} (rest : Reading lzo index slot shown (next slot.entry.offset)) :
    Reading lzo index slot shown (.loadOffset index next)
  | testFlag {flag : Flag} {next : Bool → Code} (rest : Reading lzo index slot shown (next (Entry.flag slot.entry flag))) :
      Reading lzo index slot shown (.testFlag index flag next)
  | copyOut {frame : Page} {next : PageData → Code} (here : slot = .stored (.page frame))
      (rest : ∀ data, shown = some data → Reading lzo index slot shown (next data)) : Reading lzo index slot shown (.copyOut frame 0 next)
  | decompress {location : Location} {size : Nat} {next : Bool → List UInt8 → Code} (here : slot = .stored (.object location size))
      (rest : ∀ data : PageData, shown = some data → Reading lzo index slot shown (next true data.val)) :
      Reading lzo index slot shown (.decompress location.page location.offset next)
  | leave {before : PageData} {next : Code} (rest : Between lzo next) :
    Reading lzo index slot shown (.leave (.served before (shown.getD before)) next)

section Programs
variable {lzo : Lzo} {index : Nat} {next failed : Code}

/-- The storage of a page at rest is at a page that is there. -/
def Present (slot : Slot) : Prop := ∀ storage, slot = .stored storage → storage.location.page ≠ noPage

omit [Arch] in
theorem Present.entry {storage : Storage} (present : Present (.stored storage)) : (Slot.stored storage).entry.page ≠ noPage := by
  have here := present storage rfl
  cases storage <;> exact here

theorem zramFreePage_updating {slot : Slot} (present : Present slot) {copied : Option PageData}
    (rest : ∀ known, Updating lzo index Entry.empty none known next) :
    Updating lzo index slot.entry slot.storage copied (zramFreePage index next) := by
  refine .loadPage (.loadOffset ?_)
  cases slot with
  | empty => exact .testFlag (rest copied)
  | zero => exact .testFlag (.storeFlag (rest copied))
  | stored storage =>
    rw [if_neg present.entry]
    cases storage with
    | page frame => exact .testFlag (.freePage (.storeFlag (.storePage (.storeOffset (rest none)))))
    | object location size => exact .testFlag (.xvFree (.storePage (.storeOffset (rest none))))

theorem memstore_updating (storage : Storage) {entry : Entry} {copied : Option PageData} {src : List UInt8} {data : PageData}
    (whole : src.length = storage.size)
    (content : ∀ {memory}, storage.bytes memory = src → Content lzo memory (.stored storage) (some data))
    (page : entry.page = storage.location.page) (offset : storage.location.offset < 2 ^ 16)
    (shows : { entry with offset := storage.location.offset } = (Slot.stored storage).entry)
    (rest : Updating lzo index (Slot.stored storage).entry (some storage) (some data) next) :
    Updating lzo index entry (some storage) copied (memstore index storage.location.offset src next) := by
  refine .storeOffset (.loadPage (.loadOffset ?_))
  rw [Nat.mod_eq_of_lt offset, shows]
  have names : (Slot.stored storage).entry.page = storage.location.page ∧ (Slot.stored storage).entry.offset = storage.location.offset := by
    cases storage <;> exact ⟨rfl, rfl⟩
  rw [names.1, names.2]
  exact .copyIn whole content (.testFlag (.unlock rest))

theorem writeSegment_updating {slot : Slot} (present : Present slot) {copied : Option PageData} (data : PageData)
    (allocator : PageAllocator)
    (rest : Between lzo next) (lost : ∀ known, Updating lzo index Entry.empty none known failed) :
    Updating lzo index slot.entry slot.storage copied (writeSegment lzo index data allocator (.leave (.wrote data) next) failed) := by
  unfold writeSegment
  generalize stores : Code.lock _ = body
  have emptied (known : Option PageData) : Updating lzo index Entry.empty none known body := by
    rw [← stores]
    refine .lock ?_
    split
    next filled =>
      obtain rfl := pageZeroFilled_zeros filled
      exact .unlock (.storeFlag (.leaveZero rest))
    split
    next => exact .unlock (lost known)
    next src compressed =>
      split
      next =>
        exact .allocPage (.unlock (lost none)) fun page =>
          .storeFlag (.storePage (memstore_updating (.page page) data.property (fun copied => .page copied) rfl (Nat.two_pow_pos 16) rfl
            (.leaveStored rest)))
      next small =>
        have most : src.length ≤ 4088 := by
          simp only [maxZpageSize, pageSize_eq] at small
          omega
        refine .storePage (.xvMalloc most ?_ fun location inside => ?_)
        · exact .unlock (lost none)
        · have low : location.offset < 2 ^ 16 := by
            simp only [pageSize_eq] at inside
            omega
          exact memstore_updating (.object location src.length) rfl (fun copied => .object (compressed.trans (congrArg some copied.symm)))
            rfl low rfl (.leaveStored rest)
  have frees : Updating lzo index slot.entry slot.storage copied (zramFreePage index body) := zramFreePage_updating present emptied
  refine .loadPage ?_
  split
  next => exact frees
  next absent =>
    refine .testFlag ?_
    cases slot with
    | empty => exact emptied copied
    | zero => exact frees
    | stored storage =>
      exact absurd present.entry absent

theorem readSegment_reading {slot : Slot} (present : Present slot) {shown : Option PageData} {memory : Memory Page}
    (content : Content lzo memory slot shown)
    (page : PageData) {next failed : PageData → Code} (rest : Reading lzo index slot shown (next (shown.getD page))) :
    Reading lzo index slot shown (readSegment index page next failed) := by
  refine .testFlag ?_
  cases content with
  | empty => exact .loadPage rest
  | zero => exact rest
  | page copied =>
    refine .loadPage ?_
    rw [if_neg present.entry]
    refine .testFlag (.loadPage (.loadOffset (.copyOut rfl fun data same => ?_)))
    cases same
    exact rest
  | object compressed =>
    refine .loadPage ?_
    rw [if_neg present.entry]
    refine .testFlag (.loadPage (.loadOffset (.decompress rfl fun data same => ?_)))
    have whole := PageData.overwrite_whole page data.property
    cases same
    rw [if_pos rfl, whole]
    exact rest

end Programs
/-- No other request is at the page, or none that updates it. -/
def Machine.Free (machine : Machine) (thread index : Nat) (updates : Bool) : Prop :=
  ∀ other found, other ≠ thread → machine.threads.lookup other = some found → ∀ others, updates = true ∨ others = true →
    found.place ≠ some (index, others)

/-- Requests come to a page to update it only when no other request is there, and to
read it only when no other request updates it. -/
def Machine.Apart (machine : Machine) : Action → Prop
  | .advance thread =>
    match machine.threads.lookup thread with
    | some ⟨_, .arrive index updates _⟩ => machine.Free thread index updates
    | _ => True
  | _ => True

/-- Requests on pages, and no reset or other size. -/
def Action.OnPages : Action → Prop
  | .reset _ | .disksize _ => False
  | _ => True

/-- What is at a page that nobody updates. -/
structure Settled (lzo : Lzo) (zram : Zram) (disk : Disk) (stores : Nat → Option Storage) (index : Nat) (slot : Slot) : Prop where
  storage : slot.storage = stores index
  entry : zram.table index = slot.entry
  content : Content lzo zram.xv.memory slot (disk index)

def Knows (lzo : Lzo) (zram : Zram) (disk : Disk) (stores : Nat → Option Storage) (code : Code) : Option (Nat × Bool) → Prop
  | none => Between lzo code
  | some (index, true) => ∃ copied, Updating lzo index (zram.table index) (stores index) copied code ∧
      ∀ data, copied = some data → ∃ storage, stores index = some storage ∧ Content lzo zram.xv.memory (.stored storage) (some data)
  | some (index, false) => ∃ slot, Settled lzo zram disk stores index slot ∧ Reading lzo index slot (disk index) code

/-- Every piece of storage belongs to one page, pages that nobody updates are in order,
and every request knows what is at its place. -/
structure Sane (lzo : Lzo) (others : Finset Page) (machine : Machine) (stores : Nat → Option Storage) (held : Storage → Prop) : Prop where
  initDone : machine.zram.initDone = true
  backed : Backed others machine.zram.xv held
  holders : Holders stores held
  apart : ∀ {first second found there index updates}, machine.threads.lookup first = some found →
    machine.threads.lookup second = some there →
    found.place = some (index, true) → there.place = some (index, updates) → first = second
  settled : ∀ index, (∀ thread found, machine.threads.lookup thread = some found → found.place ≠ some (index, true)) →
    ∃ slot, Settled lzo machine.zram machine.disk stores index slot
  knows : ∀ {thread found}, machine.threads.lookup thread = some found → Knows lzo machine.zram machine.disk stores found.code found.place

section Steps
variable {lzo : Lzo} {others : Finset Page} {machine after : Machine} {stores now : Nat → Option Storage} {held holds : Storage → Prop}
    {thread index : Nat}
  {code next : Code} {place there : Option (Nat × Bool)} {slot : Slot} {zram : Zram}

theorem Settled.present (settled : Settled lzo machine.zram machine.disk stores index slot) (sane : Sane lzo others machine stores held) :
    Present slot := by
  intro storage same
  have here : stores index = some storage := by
    rw [← settled.storage, same]
    rfl
  exact sane.backed.page_ne (sane.holders.of_slot here)

theorem lookup_elsewhere {other : Nat} (elsewhere : other ≠ thread) : (machine.onTo thread place next).threads.lookup other =
    machine.threads.lookup other :=
  AList.lookup_insert_ne elsewhere

theorem place_onTo {other : Nat} {found : Thread} (here : machine.threads.lookup thread = some ⟨place, code⟩)
    (standing : (machine.onTo thread place next).threads.lookup other = some found) :
    ∃ before, machine.threads.lookup other = some before ∧ before.place = found.place := by
  rcases lookup_onTo standing with ⟨rfl, rfl⟩ | ⟨_, old⟩
  · exact ⟨_, here, rfl⟩
  · exact ⟨found, old, rfl⟩

/-- A page nobody updates after a request moved on at its place was at rest before. -/
theorem Sane.settled_before (sane : Sane lzo others machine stores held) (here : machine.threads.lookup thread = some ⟨place, code⟩)
    (nobody : ∀ other found, (machine.onTo thread place next).threads.lookup other = some found → found.place ≠ some (index, true)) :
    ∃ slot, Settled lzo machine.zram machine.disk stores index slot := by
  refine sane.settled index fun other found old updates => ?_
  rcases Classical.em (other = thread) with rfl | elsewhere
  · rw [here, Option.some.injEq] at old
    subst old
    exact nobody _ _ (AList.lookup_insert ..) updates
  · exact nobody other found ((lookup_elsewhere elsewhere).trans old) updates

theorem Sane.look (sane : Sane lzo others machine stores held) (here : machine.threads.lookup thread = some ⟨place, code⟩)
    (lock : Option Nat)
    (knows : Knows lzo machine.zram machine.disk stores next place) :
    Sane lzo others ({ machine with lock }.onTo thread place next) stores held := by
  refine ⟨sane.initDone, sane.backed, sane.holders, fun first second updates reads => ?_, fun index nobody => ?_, fun standing => ?_⟩
  · obtain ⟨before, old, standing⟩ := place_onTo here first
    obtain ⟨also, older, standingToo⟩ := place_onTo here second
    exact sane.apart old older (standing.trans updates) (standingToo.trans reads)
  · exact sane.settled_before here nobody
  · rcases lookup_onTo standing with ⟨rfl, rfl⟩ | ⟨_, old⟩
    · exact knows
    · exact sane.knows old

/-- A request moves on at the page it updates. The other pages keep their entries and
their storage, and their storage keeps its bytes. -/
theorem Sane.update (sane : Sane lzo others machine stores held) (here : machine.threads.lookup thread = some ⟨some (index, true), code⟩)
    (initDone : zram.initDone = machine.zram.initDone) (table : ∀ other, other ≠ index → zram.table other = machine.zram.table other)
    (elsewhere : ∀ other, other ≠ index → now other = stores other) (backed : Backed others zram.xv holds) (holders : Holders now holds)
    (kept : ∀ other, other ≠ index → ∀ storage, stores other = some storage → storage.bytes zram.xv.memory =
      storage.bytes machine.zram.xv.memory)
    (knows : Knows lzo zram machine.disk now next (some (index, true))) :
    Sane lzo others ((machine.withZram zram).onTo thread (some (index, true)) next) now holds := by
  have still {other : Nat} {slot : Slot} (away : other ≠ index) (settled : Settled lzo machine.zram machine.disk stores other slot) :
      Settled lzo zram machine.disk now other slot := by
    refine ⟨settled.storage.trans (elsewhere other away).symm, (table other away).trans settled.entry,
      settled.content.frame fun storage same => ?_⟩
    refine kept other away storage ?_
    rw [← settled.storage, same]
    rfl
  refine ⟨initDone.trans sane.initDone, backed, holders, fun first second updates reads => ?_, fun other nobody => ?_,
    fun {other found} standing => ?_⟩
  · obtain ⟨before, old, standing⟩ := place_onTo here first
    obtain ⟨also, older, standingToo⟩ := place_onTo here second
    exact sane.apart old older (standing.trans updates) (standingToo.trans reads)
  · have away : other ≠ index := by
      rintro rfl
      exact nobody thread _ (AList.lookup_insert ..) rfl
    obtain ⟨slot, settled⟩ := sane.settled_before here nobody
    exact ⟨slot, still away settled⟩
  · rcases lookup_onTo standing with ⟨rfl, rfl⟩ | ⟨different, old⟩
    · exact knows
    · have away {at_ : Nat} {updates : Bool} (placed : found.place = some (at_, updates)) : at_ ≠ index := by
        rintro rfl
        exact different (sane.apart here old rfl placed).symm
      have known := sane.knows old
      rcases placed : found.place with _ | ⟨at_, _ | _⟩
      all_goals rw [placed] at known
      · exact known
      · obtain ⟨slot, settled, reading⟩ := known
        exact ⟨slot, still (away placed) settled, reading⟩
      · obtain ⟨copied, updating, content⟩ := known
        refine ⟨copied, ?_, fun data same => ?_⟩
        · show Updating lzo at_ (zram.table at_) (now at_) copied found.code
          rw [table at_ (away placed), elsewhere at_ (away placed)]
          exact updating
        · obtain ⟨storage, belongs, content⟩ := content data same
          refine ⟨storage, (elsewhere at_ (away placed)).trans belongs, content.frame fun other same => ?_⟩
          cases same
          exact kept at_ (away placed) storage belongs

theorem Sane.arrive (sane : Sane lzo others machine stores held) (here : machine.threads.lookup thread = some ⟨none, code⟩) {updates : Bool}
    (free : machine.Free thread index updates)
    (knows : ∀ {slot}, Settled lzo machine.zram machine.disk stores index slot →
      Knows lzo machine.zram machine.disk stores next (some (index, updates))) :
    Sane lzo others (machine.onTo thread (some (index, updates)) next) stores held := by
  have quiet : ∀ other found, machine.threads.lookup other = some found → found.place ≠ some (index, true) := by
    intro other found old updating
    rcases Classical.em (other = thread) with rfl | elsewhere
    · rw [here, Option.some.injEq] at old
      subst old
      cases updating
    · exact free other found elsewhere old true (.inr rfl) updating
  obtain ⟨slot, settled⟩ := sane.settled index quiet
  refine ⟨sane.initDone, sane.backed, sane.holders, fun {first second found there at_ also} one two updating reads => ?_,
    fun other nobody => ?_, fun standing => ?_⟩
  · rcases lookup_onTo one with ⟨rfl, rfl⟩ | ⟨different, old⟩
    · rcases lookup_onTo two with ⟨rfl, _⟩ | ⟨elsewhere, older⟩
      · rfl
      · cases updating
        exact absurd reads (free second there elsewhere older also (.inl rfl))
    · rcases lookup_onTo two with ⟨rfl, rfl⟩ | ⟨elsewhere, older⟩
      · cases reads
        exact absurd updating (free first found different old true (.inr rfl))
      · exact sane.apart old older updating reads
  · refine sane.settled other fun party found old updating => ?_
    rcases Classical.em (party = thread) with rfl | elsewhere
    · rw [here, Option.some.injEq] at old
      subst old
      cases updating
    · exact nobody party found ((lookup_elsewhere elsewhere).trans old) updating
  · rcases lookup_onTo standing with ⟨rfl, rfl⟩ | ⟨_, old⟩
    · exact knows settled
    · exact sane.knows old

theorem Sane.leave (sane : Sane lzo others machine stores held) (here : machine.threads.lookup thread = some ⟨some (index, true), code⟩)
    {disk : Disk} (shows : ∀ other, other ≠ index → disk other = machine.disk other)
    (settled : ∃ slot, Settled lzo machine.zram disk stores index slot) (rest : Between lzo next) :
    Sane lzo others ({ machine with disk }.onTo thread none next) stores held := by
  have still {other : Nat} {slot : Slot} (away : other ≠ index) (settled : Settled lzo machine.zram machine.disk stores other slot) :
      Settled lzo machine.zram disk stores other slot := by
    refine ⟨settled.storage, settled.entry, ?_⟩
    show Content lzo machine.zram.xv.memory slot (disk other)
    rw [shows other away]
    exact settled.content
  refine ⟨sane.initDone, sane.backed, sane.holders, fun one two updating reads => ?_, fun other nobody => ?_,
    fun {other found} standing => ?_⟩
  · rcases lookup_onTo one with ⟨rfl, rfl⟩ | ⟨_, old⟩
    · cases updating
    · rcases lookup_onTo two with ⟨rfl, rfl⟩ | ⟨_, older⟩
      · cases reads
      · exact sane.apart old older updating reads
  · rcases Classical.em (other = index) with rfl | away
    · obtain ⟨slot, settled⟩ := settled
      exact ⟨slot, settled.storage, settled.entry, settled.content⟩
    · obtain ⟨slot, settled⟩ := sane.settled other fun party found old updating => by
        rcases Classical.em (party = thread) with rfl | elsewhere
        · rw [here, Option.some.injEq] at old
          subst old
          cases updating
          exact away rfl
        · exact nobody party found ((lookup_elsewhere elsewhere).trans old) updating
      exact ⟨slot, still away settled⟩
  · rcases lookup_onTo standing with ⟨rfl, rfl⟩ | ⟨different, old⟩
    · exact rest
    · have known := sane.knows old
      rcases placed : found.place with _ | ⟨at_, _ | _⟩
      all_goals rw [placed] at known
      · exact known
      · have away : at_ ≠ index := by
          rintro rfl
          exact different (sane.apart here old rfl placed).symm
        obtain ⟨slot, settled, reading⟩ := known
        refine ⟨slot, still away settled, ?_⟩
        show Reading lzo at_ slot (disk at_) found.code
        rw [shows at_ away]
        exact reading
      · exact known

theorem Sane.unread (sane : Sane lzo others machine stores held) (here : machine.threads.lookup thread = some ⟨some (index, false), code⟩)
    (rest : Between lzo next) : Sane lzo others (machine.onTo thread none next) stores held := by
  refine ⟨sane.initDone, sane.backed, sane.holders, fun one two updating reads => ?_, fun other nobody => ?_, fun standing => ?_⟩
  · rcases lookup_onTo one with ⟨rfl, rfl⟩ | ⟨_, old⟩
    · cases updating
    · rcases lookup_onTo two with ⟨rfl, rfl⟩ | ⟨_, older⟩
      · cases reads
      · exact sane.apart old older updating reads
  · refine sane.settled other fun party found old updating => ?_
    rcases Classical.em (party = thread) with rfl | elsewhere
    · rw [here, Option.some.injEq] at old
      subst old
      cases updating
    · exact nobody party found ((lookup_elsewhere elsewhere).trans old) updating
  · rcases lookup_onTo standing with ⟨rfl, rfl⟩ | ⟨_, old⟩
    · exact rest
    · exact sane.knows old

theorem Sane.enter (sane : Sane lzo others machine stores held) (vacant : machine.threads.lookup thread = none) (rest : Between lzo next) :
    Sane lzo others (machine.onTo thread none next) stores held := by
  refine ⟨sane.initDone, sane.backed, sane.holders, fun one two updating reads => ?_, fun other nobody => ?_, fun standing => ?_⟩
  · rcases lookup_onTo one with ⟨rfl, rfl⟩ | ⟨_, old⟩
    · cases updating
    · rcases lookup_onTo two with ⟨rfl, rfl⟩ | ⟨_, older⟩
      · cases reads
      · exact sane.apart old older updating reads
  · refine sane.settled other fun party found old updating => ?_
    have elsewhere : party ≠ thread := by
      rintro rfl
      rw [vacant] at old
      cases old
    exact nobody party found ((lookup_elsewhere elsewhere).trans old) updating
  · rcases lookup_onTo standing with ⟨rfl, rfl⟩ | ⟨_, old⟩
    · exact rest
    · exact sane.knows old

theorem Sane.exit (sane : Sane lzo others machine stores held) (here : machine.threads.lookup thread = some ⟨none, code⟩) :
    Sane lzo others { machine with threads := machine.threads.erase thread } stores held := by
  have still {other : Nat} {found : Thread} (standing : (machine.threads.erase thread).lookup other = some found) :
      machine.threads.lookup other = some found := by
    rcases Classical.em (other = thread) with rfl | elsewhere
    · rw [AList.lookup_erase] at standing
      cases standing
    · rwa [AList.lookup_erase_ne elsewhere] at standing
  refine ⟨sane.initDone, sane.backed, sane.holders, fun one two => sane.apart (still one) (still two), fun other nobody => ?_,
    fun standing => sane.knows (still standing)⟩
  refine sane.settled other fun party found old updating => ?_
  have elsewhere : party ≠ thread := by
    rintro rfl
    rw [here, Option.some.injEq] at old
    subst old
    cases updating
  exact nobody party found ((AList.lookup_erase_ne elsewhere).trans old) updating

theorem Sane.setEntry (sane : Sane lzo others machine stores held) (here : machine.threads.lookup thread = some ⟨some (index, true), code⟩)
    (entry : Entry) {copied : Option PageData} (rest : Updating lzo index entry (stores index) copied next)
    (content : ∀ data, copied = some data → ∃ storage, stores index = some storage ∧
      Content lzo machine.zram.xv.memory (.stored storage) (some data)) :
    Sane lzo others ((machine.setEntry index entry).onTo thread (some (index, true)) next) stores held := by
  refine sane.update here rfl (fun other away => Function.update_of_ne away ..) (fun _ _ => rfl) sane.backed sane.holders
    (fun _ _ _ _ => rfl) ⟨copied, ?_, content⟩
  show Updating lzo index (Function.update machine.zram.table index entry index) _ _ _
  rw [Function.update_self]
  exact rest

theorem Sane.setStore (sane : Sane lzo others machine stores held) (here : machine.threads.lookup thread = some ⟨some (index, true), code⟩)
    {xv : XvState} {store : Option Storage} (backed : Backed others xv holds) (holders : Holders (Function.update stores index store) holds)
    (kept : ∀ other, other ≠ index → ∀ storage, stores other = some storage → storage.bytes xv.memory =
      storage.bytes machine.zram.xv.memory)
    {entry : Entry} {copied : Option PageData} (rest : Updating lzo index entry store copied next)
    (content : ∀ data, copied = some data → ∃ storage, store = some storage ∧ Content lzo xv.memory (.stored storage) (some data)) :
    Sane lzo others ((machine.withZram { machine.zram.setEntry index entry with xv }).onTo thread (some (index, true)) next)
      (Function.update stores index store) holds := by
  refine sane.update here rfl (fun other away => Function.update_of_ne away ..)
    (fun other away => Function.update_of_ne away ..) backed holders kept
    ⟨copied, ?_, fun data same => ?_⟩
  · show Updating lzo index (Function.update machine.zram.table index entry index) _ _ _
    rw [Function.update_self, Function.update_self]
    exact rest
  · rw [Function.update_self]
    exact content data same

theorem Sane.setXv (sane : Sane lzo others machine stores held) (here : machine.threads.lookup thread = some ⟨some (index, true), code⟩)
    {xv : XvState} {store : Option Storage} (backed : Backed others xv holds) (holders : Holders (Function.update stores index store) holds)
    (kept : ∀ other, other ≠ index → ∀ storage, stores other = some storage → storage.bytes xv.memory =
      storage.bytes machine.zram.xv.memory)
    {copied : Option PageData} (rest : Updating lzo index (machine.zram.table index) store copied next)
    (content : ∀ data, copied = some data → ∃ storage, store = some storage ∧ Content lzo xv.memory (.stored storage) (some data)) :
    Sane lzo others ((machine.withZram { machine.zram with xv }).onTo thread (some (index, true)) next)
    (Function.update stores index store) holds := by
  have moved := sane.setStore here backed holders kept rest content
  rwa [ZramDrv.Zram.setEntry, Function.update_eq_self] at moved

theorem Sane.step_updating (sane : Sane lzo others machine stores held)
    (here : machine.threads.lookup thread = some ⟨some (index, true), code⟩)
    (taken : machine.advance lzo thread (some (index, true)) code = some after) : ∃ now holds, Sane lzo others after now holds := by
  obtain ⟨copied, updating, content⟩ : ∃ copied, Updating lzo index (machine.zram.table index) (stores index) copied code ∧
      ∀ data, copied = some data → ∃ storage, stores index = some storage ∧
          Content lzo machine.zram.xv.memory (.stored storage) (some data) :=
    sane.knows here
  have unchanged {other : Nat} : Function.update stores other (stores other) = stores := Function.update_eq_self ..
  generalize entry : machine.zram.table index = shown at updating
  generalize belongs : stores index = store at updating content
  cases updating with
  | loadPage rest | loadOffset rest | testFlag rest =>
    cases taken
    rw [entry]
    exact ⟨_, _, sane.look here machine.lock ⟨copied, by rw [entry, belongs]; exact rest, by rw [belongs]; exact content⟩⟩
  | unlock rest =>
    cases taken
    exact ⟨_, _, sane.look here none ⟨copied, by rw [entry, belongs]; exact rest, by rw [belongs]; exact content⟩⟩
  | lock rest =>
    simp only [Machine.advance] at taken
    split at taken
    next =>
      cases taken
      exact ⟨_, _, sane.look here (some thread) ⟨copied, by rw [entry, belongs]; exact rest, by rw [belongs]; exact content⟩⟩
    next => cases taken
  | storePage rest | storeOffset rest | storeFlag rest =>
    cases taken
    rw [entry]
    exact ⟨_, _, sane.setEntry here _ (by rw [belongs]; exact rest) (by rw [belongs]; exact content)⟩
  | allocPage refused met =>
    simp only [Machine.advance] at taken
    split at taken
    next =>
      cases taken
      exact ⟨_, _, sane.look here machine.lock ⟨none, by rw [entry, belongs]; exact refused, fun _ known =>
        (Option.some_ne_none _ known.symm).elim⟩⟩
    next page kernel offered =>
      cases taken
      obtain ⟨fresh, backed, kept⟩ := sane.backed.takePage offered
      exact ⟨_, _, sane.setXv here backed (sane.holders.fill belongs fresh)
        (fun other _ storage there => kept storage (sane.holders.of_slot there))
        (by rw [entry]; exact met page) fun _ known => (Option.some_ne_none _ known.symm).elim⟩
  | freePage rest =>
    obtain ⟨xv, given, rfl⟩ := Option.map_eq_some_iff.mp taken
    obtain ⟨freed, backed⟩ := sane.backed.releasePage (sane.holders.of_slot belongs)
    obtain rfl := Option.some.inj (freed.symm.trans given)
    exact ⟨_, _, sane.setXv here backed (sane.holders.clear belongs) (fun _ _ _ _ => rfl)
      (by rw [entry]; exact rest) fun _ known => (Option.some_ne_none _ known.symm).elim⟩
  | xvMalloc small refused met =>
    rename_i size allocator after_
    cases taken
    rw [entry]
    rcases sane.backed.takeObject small allocator with refusal | ⟨ret, fresh, backed, kept⟩
    · rw [refusal]
      have empty := sane.holders
      rw [← Function.update_eq_self index stores] at empty
      exact ⟨_, _, sane.setStore here sane.backed empty (fun _ _ _ _ => rfl) (by rw [belongs]; exact refused) fun _ known =>
        (Option.some_ne_none _ known.symm).elim⟩
    · have inside := backed.object_inside (.inr rfl)
      rw [ret]
      exact ⟨_, _, sane.setStore here backed (sane.holders.fill belongs (fresh _))
        (fun other _ storage there => kept storage (sane.holders.of_slot there))
        (met _ inside) fun _ known => (Option.some_ne_none _ known.symm).elim⟩
  | xvFree rest =>
    obtain ⟨xv, freed, rfl⟩ := Option.map_eq_some_iff.mp taken
    have holding := sane.holders.of_slot belongs
    obtain ⟨released, same, backed, kept⟩ := sane.backed.releaseObject holding
    obtain rfl : released = xv := Option.some.inj (same.symm.trans freed)
    refine ⟨_, _, sane.setXv here backed (sane.holders.clear belongs) (fun other away storage there =>
      kept storage (sane.holders.of_slot there) ?_)
      (by rw [entry]; exact rest) fun _ known => (Option.some_ne_none _ known.symm).elim⟩
    rintro rfl
    exact away (sane.holders.single there belongs)
  | copyIn whole copies rest =>
    rename_i storage src data next
    cases taken
    obtain ⟨backed, copied, kept⟩ := sane.backed.write (sane.holders.of_slot belongs) whole
    have holders := sane.holders
    rw [← Function.update_eq_self index stores, belongs] at holders
    refine ⟨_, _, sane.setXv here backed holders (fun other away piece there => ?_) (by rw [entry]; exact rest) fun kept same => ?_⟩
    · refine kept piece (sane.holders.of_slot there) ?_
      rintro rfl
      exact away (sane.holders.single there belongs)
    · cases same
      exact ⟨storage, rfl, copies copied⟩
  | leaveStored rest =>
    rename_i storage data next
    cases taken
    obtain ⟨kept, same, filled⟩ := content data rfl
    cases same
    refine ⟨_, _, sane.leave here (fun other away => Function.update_of_ne away ..) ⟨.stored storage, belongs.symm, entry, ?_⟩ rest⟩
    rw [show Outcome.after (.wrote data) (some (index, true)) machine.disk index = some data from Function.update_self ..]
    exact filled
  | leaveZero rest =>
    cases taken
    refine ⟨_, _, sane.leave here (fun other away => Function.update_of_ne away ..) ⟨.zero, belongs.symm, entry, ?_⟩ rest⟩
    rw [show Outcome.after (.wrote PageData.zeros) (some (index, true)) machine.disk index =
      some PageData.zeros from Function.update_self ..]
    exact .zero
  | leaveEmpty rest =>
    cases taken
    refine ⟨_, _, sane.leave here (fun other away => Function.update_of_ne away ..) ⟨.empty, belongs.symm, entry, ?_⟩ rest⟩
    rw [show Outcome.after .emptied (some (index, true)) machine.disk index = none from Function.update_self ..]
    exact .empty

theorem Sane.step_reading (sane : Sane lzo others machine stores held) (inverts : lzo.Inverts)
    (here : machine.threads.lookup thread = some ⟨some (index, false), code⟩)
    (taken : machine.advance lzo thread (some (index, false)) code = some after) : Sane lzo others after stores held := by
  obtain ⟨slot, settled, reading⟩ : ∃ slot, Settled lzo machine.zram machine.disk stores index slot ∧
      Reading lzo index slot (machine.disk index) code :=
    sane.knows here
  cases reading with
  | loadPage rest | loadOffset rest | testFlag rest =>
    cases taken
    exact sane.look here machine.lock ⟨slot, settled, settled.entry.symm ▸ rest⟩
  | copyOut found rest =>
    rename_i frame next
    cases taken
    subst found
    have content := settled.content
    generalize shows : machine.disk index = shown at content
    cases content with
    | page copied =>
      refine sane.look here machine.lock ⟨_, settled, ?_⟩
      rename_i data
      have same : PageData.copy machine.zram.xv.memory frame 0 = data := Subtype.ext ((PageData.copy_val ..).trans copied)
      rw [same]
      exact rest data shows
  | decompress found rest =>
    rename_i location size next
    cases taken
    subst found
    have content := settled.content
    generalize shows : machine.disk index = shown at content
    cases content with
    | object compressed =>
      refine sane.look here machine.lock ⟨_, settled, ?_⟩
      rename_i data
      have holding := sane.holders.of_slot settled.storage.symm
      have restored := inverts compressed
      rw [sane.backed.object_size holding]
      rw [show machine.zram.xv.memory.read location.page location.offset size =
        (Storage.object location size).bytes machine.zram.xv.memory from rfl, restored]
      exact rest data shows
  | leave rest =>
    cases taken
    exact sane.unread here rest

theorem Sane.step_between (sane : Sane lzo others machine stores held) (here : machine.threads.lookup thread = some ⟨none, code⟩)
    (apart : machine.Apart (.advance thread)) (taken : machine.advance lzo thread none code = some after) :
    Sane lzo others after stores held := by
  have between : Between lzo code := sane.knows here
  simp only [Machine.Apart, here] at apart
  have checked {body idle : Code} (rest : Between lzo body)
      (taken : machine.advance lzo thread none (.checkInit fun ready => if ready then body else idle) = some after) :
          Sane lzo others after stores held := by
    simp only [Machine.advance, sane.initDone, if_true] at taken
    cases taken
    exact sane.look here machine.lock rest
  cases between with
  | request bio =>
    cases bio with
    | read sector pages => exact checked (.reading ..) taken
    | write sector segments allocations => exact checked (.writing ..) taken
    | discard sector size => exact checked (.discarding ..) taken
  | notify index =>
    cases taken
    refine sane.arrive here apart fun settled => ⟨none, ?_, fun _ known => (Option.some_ne_none _ known.symm).elim⟩
    rw [settled.entry, ← settled.storage]
    exact zramFreePage_updating (settled.present sane) fun _ => .leaveEmpty (.done _ _)
  | writing index segments =>
    cases segments with
    | nil =>
      cases taken
      exact sane.exit here
    | cons segment rest =>
      cases taken
      refine sane.arrive here apart fun settled => ⟨none, ?_, fun _ known => (Option.some_ne_none _ known.symm).elim⟩
      rw [settled.entry, ← settled.storage]
      exact writeSegment_updating (settled.present sane) _ _ (.writing ..) fun _ => .leaveEmpty (.done _ _)
  | reading index served pages =>
    cases pages with
    | nil =>
      cases taken
      exact sane.exit here
    | cons page rest =>
      cases taken
      exact sane.arrive here apart fun settled =>
        ⟨_, settled, readSegment_reading (settled.present sane) settled.content page (.leave (.reading ..))⟩
  | discarding index npages =>
    cases npages with
    | zero =>
      cases taken
      exact sane.exit here
    | succ npages =>
      cases taken
      refine sane.arrive here apart fun settled => ⟨none, ?_, fun _ known => (Option.some_ne_none _ known.symm).elim⟩
      rw [settled.entry, ← settled.storage]
      exact zramFreePage_updating (settled.present sane) fun _ => .leaveEmpty (.discarding ..)
  | done ok pages =>
    cases taken
    exact sane.exit here

/-- The step lemma. -/
theorem Sane.step {action : Action} (sane : Sane lzo others machine stores held) (inverts : lzo.Inverts) (onPages : action.OnPages)
    (apart : machine.Apart action) (taken : machine.step lzo action = some after) : ∃ now holds, Sane lzo others after now holds := by
  cases action with
  | submit thread bio =>
    simp only [Machine.step] at taken
    split at taken
    next allowed =>
      cases taken
      exact ⟨_, _, sane.enter (Option.isNone_iff_eq_none.mp allowed.1) (.request bio)⟩
    next => cases taken
  | notify thread index =>
    simp only [Machine.step] at taken
    split at taken
    next allowed =>
      cases taken
      exact ⟨_, _, sane.enter (Option.isNone_iff_eq_none.mp allowed) (.notify index)⟩
    next => cases taken
  | reset thread => cases onPages
  | disksize value => cases onPages
  | advance thread =>
    obtain ⟨⟨place, code⟩, here, moved⟩ := Option.bind_eq_some_iff.mp taken
    dsimp only at moved
    split at moved
    next => cases moved
    next =>
      rcases place with _ | ⟨index, _ | _⟩
      · exact ⟨_, _, sane.step_between here apart moved⟩
      · exact ⟨_, _, sane.step_reading inverts here moved⟩
      · exact sane.step_updating here moved

end Steps

/-- What is allocated: pages hold it, no two of them the same, and the entry of a page
that nobody updates says what the page holds. -/
structure Machine.Kept (others : Finset Page) (machine : Machine) (stores : Nat → Option Storage) (held : Storage → Prop) : Prop where
  backed : Backed others machine.zram.xv held
  holders : Holders stores held
  entries : ∀ index, (∀ thread found, machine.threads.lookup thread = some found → found.place ≠ some (index, true)) →
    ∃ slot : Slot, slot.storage = stores index ∧ machine.zram.table index = slot.entry

theorem Sane.kept {lzo : Lzo} {others : Finset Page} {machine : Machine} {stores : Nat → Option Storage} {held : Storage → Prop}
    (sane : Sane lzo others machine stores held) : machine.Kept others stores held where
  backed := sane.backed
  holders := sane.holders
  entries index alone := (sane.settled index alone).imp fun _ settled => ⟨settled.storage, settled.entry⟩

end Readers

section Sample
local instance readersArch : Arch := Arch.x64

/-- The page a read is done with, and what it shows of it. -/
def Code.result : Code → Option (PageData × PageData)
  | leave (.served before shown) _ => some (before, shown)
  | _ => none

/-- A page that does not compress is written to a new disk of two pages. -/
def written : List Action :=
  [.disksize (some 8192), .submit 1 (.write 0 [(PageData.noise, firstPage)] ZramDrv.granted)] ++ List.replicate 17 (.advance 1)

end Sample
end Compcache.ZramSteps
