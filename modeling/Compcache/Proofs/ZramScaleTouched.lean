import Compcache.Proofs.ZramTouched
import Compcache.Proofs.ZramScaleDevice

/-! The table entries a request on the variant's device works on. Several branches
of its loops leave the index where it is. -/

namespace Compcache.ZramScale
open Library.PagedMemory Library.PerCpu Library.Runs Library.Visits Xvmalloc
open ZramDrv (sectorsPerPage sectorShift)

section Touched
variable {Cpu : Type} [Arch] [DecidableEq Cpu]

/-- The bodies of the loops: the device afterwards, if the loop goes on, and whether
it moves on to the next page. -/
def writeBody (lzo : Lzo) (zram : Zram Cpu) (index : Nat) (segment : Segment Cpu) : Option (Zram Cpu × Bool) :=
  match writeSegment lzo zram index segment with
  | some (after, .next) => some (after, true)
  | some (after, .again) => some (after, false)
  | _ => none

def readBody (lzo : Lzo) (zram : Zram Cpu) (index : Nat) (page : PageData) : Option (Zram Cpu × Bool) :=
  match readSegment lzo zram index page with
  | some (.next, _) => some (zram, true)
  | some (.again, _) => some (zram, false)
  | _ => none

def discardBody (placement : Nat → Placement Cpu) (zram : Zram Cpu) (index sector : Nat) : Option (Zram Cpu × Bool) :=
  (zramFreePage zram index (placement sector)).map (·, true)

/-- The device once a request on an initialised device is counted. -/
def Bio.counted (zram : Zram Cpu) : Bio Cpu → Option (Zram Cpu)
  | .read _ _ placement => zramIncStat zram (placement .numReads) .numReads
  | .write _ _ _ placement => zramIncStat zram (placement .numWrites) .numWrites
  | .discard sector _ placement => zramIncStat zram (placement sector .discard) .discard

/-- The sectors at which the pages of a discard start. -/
def discardSectors (sector size : Nat) : List Nat := (List.range (size / pageSize)).map fun page => sector + page * sectorsPerPage

/-- The entries a request on an initialised device looks at, in order, from the device
once it is counted. A discard keeps its index in a size_t, and loses what does not
fit in 32 bits only on its way to the entry. -/
def Bio.touched (lzo : Lzo) (counted : Zram Cpu) (bio : Bio Cpu) : List Nat :=
  let page := bio.sector / sectorsPerPage
  match bio with
  | .read _ pages _ => visited (2 ^ 32) id (readBody lzo) counted (page % 2 ^ 32) pages
  | .write _ segments _ _ => visited (2 ^ 32) id (writeBody lzo) counted (page % 2 ^ 32) segments
  | .discard sector size placement =>
    visited (2 ^ bitsPerLong) (· % 2 ^ 32) (discardBody placement) counted (page % 2 ^ bitsPerLong) (discardSectors sector size)

/-- The pages a request names have numbers of 32 bits. -/
def Bio.Short (bio : Bio Cpu) : Prop := bio.size / pageSize ≠ 0 → bio.sector / sectorsPerPage + bio.size / pageSize ≤ 2 ^ 32

theorem bitsPerLong_wide : 2 ^ 32 ≤ 2 ^ bitsPerLong := by
  refine Nat.pow_le_pow_right (by decide) ?_
  rcases Arch.bitsPerLong_cases with word | word <;> omega

theorem bitsPerLong_whole (place : Nat) : place % 2 ^ bitsPerLong % 2 ^ 32 = place ↔ place < 2 ^ 32 := by
  have wide : 32 ≤ bitsPerLong := by
    rcases Arch.bitsPerLong_cases with word | word <;> omega
  rw [Nat.mod_mod_of_dvd _ (Nat.pow_dvd_pow 2 wide)]
  exact id_whole (Nat.two_pow_pos 32) place

/-- No page but the last fails, or leaves the body of its loop early, when they are
taken one after the other. -/
def Bio.Unbroken (lzo : Lzo) (counted : Zram Cpu) (bio : Bio Cpu) : Prop :=
  let page := bio.sector / sectorsPerPage
  match bio with
  | .read _ pages _ => Steady (readBody lzo) counted page pages
  | .write _ segments _ _ => Steady (writeBody lzo) counted page segments
  | .discard sector size placement => Steady (discardBody placement) counted page (discardSectors sector size)

/-- A request works on the entries it names, one after the other, exactly if its pages
have numbers of 32 bits and all but the last of them reach the end of the loop. -/
theorem Bio.touched_iff (lzo : Lzo) (counted : Zram Cpu) (bio : Bio Cpu) :
    bio.touched lzo counted = (List.range (bio.size / pageSize)).map (bio.sector / sectorsPerPage + ·) ↔
      bio.Short ∧ bio.Unbroken lzo counted := by
  have fits := id_whole (Nat.two_pow_pos 32)
  have whole (count : Nat) : count * pageSize / pageSize = count := Nat.mul_div_cancel _ (by decide)
  cases bio with
  | read sector pages placement =>
    simp only [Bio.Short, Bio.size, whole]
    exact visited_eq_range id fits (Nat.le_refl _) _ _ _ _
  | write sector segments allocations placement =>
    simp only [Bio.Short, Bio.size, whole]
    exact visited_eq_range id fits (Nat.le_refl _) _ _ _ _
  | discard sector size placement =>
    have iff := visited_eq_range (· % 2 ^ 32) bitsPerLong_whole bitsPerLong_wide (discardBody placement) counted (sector / sectorsPerPage)
      (discardSectors sector size)
    rw [discardSectors, List.length_map, List.length_range] at iff
    exact iff

end Touched

section Frames
variable {Cpu : Type} [Arch] [DecidableEq Cpu] {lzo : Lzo} {zram after : Zram Cpu} {index other : Nat}

theorem zramAddStat_table {cpu : Cpu} {stat : Stat} {value : Int} (counted : zramAddStat zram cpu stat value = some after) :
    after.table = zram.table := by
  obtain ⟨counters, _, rfl⟩ := Option.map_eq_some_iff.mp counted
  rfl

theorem forgetObj_elsewhere {zlen : Nat} {placement : Placement Cpu} (forgot : forgetObj zram index zlen placement = some after)
    (elsewhere : other ≠ index) : after.table other = zram.table other := by
  obtain ⟨first, counted, rest⟩ := Option.bind_eq_some_iff.mp forgot
  obtain ⟨second, recounted, rfl⟩ := Option.map_eq_some_iff.mp rest
  refine (Function.update_of_ne elsewhere ..).trans ?_
  rw [zramAddStat_table recounted, zramAddStat_table counted]

theorem zramFreePage_elsewhere {placement : Placement Cpu} (freed : zramFreePage zram index placement = some after)
    (elsewhere : other ≠ index)
    (truncated : other ≠ index % 2 ^ 32) : after.table other = zram.table other := by
  unfold zramFreePage at freed
  split at freed
  next =>
    rw [zramAddStat_table freed]
    exact Function.update_of_ne truncated ..
  split at freed
  next =>
    cases freed
    rfl
  split at freed
  next =>
    obtain ⟨xv, _, rest⟩ := Option.bind_eq_some_iff.mp freed
    obtain ⟨first, counted, rest⟩ := Option.bind_eq_some_iff.mp rest
    rw [forgetObj_elsewhere rest elsewhere, zramAddStat_table counted]
  next =>
    obtain ⟨xv, _, rest⟩ := Option.bind_eq_some_iff.mp freed
    have kept := forgetObj_elsewhere rest elsewhere
    exact kept

theorem memstore_elsewhere {location : Location} {src : List UInt8} {placement : Placement Cpu}
    (stored : memstore zram index location src placement = some after) (elsewhere : other ≠ index) :
    after.table other = zram.table other := by
  obtain ⟨first, counted, rest⟩ := Option.bind_eq_some_iff.mp stored
  obtain ⟨second, recounted, rfl⟩ := Option.map_eq_some_iff.mp rest
  refine (Function.update_of_ne elsewhere ..).trans ?_
  rw [zramAddStat_table recounted, zramAddStat_table counted]

theorem storeSegment_elsewhere {segment : Segment Cpu} {flow : Flow} (stored : storeSegment lzo zram index segment = some (after, flow))
    (small : index < 2 ^ 32) (elsewhere : other ≠ index) : after.table other = zram.table other := by
  unfold storeSegment at stored
  split at stored
  next =>
    cases stored
    rfl
  split at stored
  next =>
    obtain ⟨counted, recounted, same⟩ := Option.map_eq_some_iff.mp stored
    cases same
    rw [← zramAddStat_table recounted]
    exact Function.update_of_ne (by rw [Nat.mod_eq_of_lt small]; exact elsewhere) ..
  split at stored
  next =>
    cases stored
    rfl
  split at stored
  next =>
    split at stored
    next =>
      cases stored
      rfl
    next =>
      obtain ⟨counted, recounted, rest⟩ := Option.bind_eq_some_iff.mp stored
      obtain ⟨filled, kept, same⟩ := Option.map_eq_some_iff.mp rest
      cases same
      rw [memstore_elsewhere kept elsewhere, zramAddStat_table recounted]
  next =>
    dsimp only at stored
    split at stored
    next =>
      cases stored
      rfl
    next =>
      obtain ⟨filled, kept, same⟩ := Option.map_eq_some_iff.mp stored
      cases same
      rw [memstore_elsewhere kept elsewhere]

theorem writeSegment_elsewhere {segment : Segment Cpu} {flow : Flow} (written : writeSegment lzo zram index segment = some (after, flow))
    (small : index < 2 ^ 32) (elsewhere : other ≠ index) : after.table other = zram.table other := by
  obtain ⟨freed, released, stored⟩ := Option.bind_eq_some_iff.mp written
  rw [storeSegment_elsewhere stored small elsewhere, zramFreePage_elsewhere released elsewhere (by rwa [Nat.mod_eq_of_lt small])]

theorem writeSegments_elsewhere {segments : List (Segment Cpu)} {completion : Completion Cpu}
    (ended : writeSegments lzo zram index segments = some completion) (small : index < 2 ^ 32)
    (elsewhere : other ∉ visited (2 ^ 32) id (writeBody lzo) zram index segments) : completion.zram.table other = zram.table other := by
  induction segments generalizing zram index with
  | nil =>
    cases ended
    rfl
  | cons segment rest ih =>
    rw [visited, List.mem_cons, not_or] at elsewhere
    obtain ⟨away, later⟩ := elsewhere
    rw [writeSegments] at ended
    rw [writeBody] at later
    cases written : writeSegment lzo zram index segment with
    | none =>
      rw [written] at ended
      cases ended
    | some result =>
      obtain ⟨after, flow⟩ := result
      have first := writeSegment_elsewhere written small away
      rw [written] at ended later
      cases flow with
      | out =>
        cases ended
        exact first
      | next => exact (ih ended (Nat.mod_lt _ (by decide)) later).trans first
      | again => exact (ih ended small later).trans first

omit [DecidableEq Cpu] in
theorem readSegments_served {pages : List PageData} {result : Bool × List PageData} {position entry : Nat}
    (ended : readSegments lzo zram index pages = some result)
    (visits : (visited (2 ^ 32) id (readBody lzo) zram index pages)[position]? = some entry) :
    result.2[position]? = pages[position]?.bind fun page => (readSegment lzo zram entry page).map Prod.snd := by
  induction pages generalizing index position result with
  | nil => simp [visited] at visits
  | cons page rest ih =>
    rw [readSegments] at ended
    rw [visited, readBody] at visits
    cases served : readSegment lzo zram index page with
    | none =>
      rw [served] at ended
      cases ended
    | some shown =>
      obtain ⟨flow, shown⟩ := shown
      rw [served] at ended visits
      cases position with
      | zero =>
        cases visits
        cases flow with
        | out =>
          cases ended
          simp [served]
        | next | again =>
          obtain ⟨others, _, rfl⟩ := Option.map_eq_some_iff.mp ended
          simp [served]
      | succ position =>
        cases flow with
        | out => simp at visits
        | next | again =>
          obtain ⟨others, finished, rfl⟩ := Option.map_eq_some_iff.mp ended
          exact ih finished visits

end Frames

section Conditions
variable {Cpu : Type} [Arch]

/-- The packed address of an object: not that of a page of its own, nor a mark, nor none. -/
def HoldsObject (addr : Nat) : Prop := addr % 2 = 0 ∧ addr % pageSize ≠ 0

instance (addr : Nat) : Decidable (HoldsObject addr) := inferInstanceAs (Decidable (addr % 2 = 0 ∧ addr % pageSize ≠ 0))

/-- No page but the last leaves the body of its loop early: those written are not zeros,
and those read are stored as objects. -/
def Bio.Continues (zram : Zram Cpu) : Bio Cpu → Prop
  | .read sector pages _ => ∀ position, position + 1 < pages.length → HoldsObject (zram.table (sector / sectorsPerPage + position))
  | .write _ segments _ _ => ∀ segment ∈ segments.dropLast, pageZeroFilled segment.data = false
  | .discard _ _ _ => True

/-- Nothing fails that a request needs. -/
def Bio.Provided (lzo : Lzo) (count : Nat) : Bio Cpu → Prop
  | .write _ segments _ _ => ∀ segment ∈ segments, segment.Provided lzo count
  | .read _ _ _ | .discard _ _ _ => True

/-- Some run leads to the device. -/
def Reached [DecidableEq Cpu] [Fintype Cpu] (lzo : Lzo) (others : Finset Page) (zram : Zram Cpu) : Prop :=
  ∃ memory totalramPages, Run (step lzo) Admissible (createDevice ⟨⟨memory, others⟩, xvCreatePool⟩ totalramPages) zram

variable {lzo : Lzo} {zram after : Zram Cpu} {index : Nat}

theorem readSegment_again (small : index < 2 ^ 32) {page shown : PageData} {flow : Flow}
    (served : readSegment lzo zram index page = some (flow, shown)) :
    flow = .again ↔ ¬ HoldsObject (zram.table index) := by
  unfold readSegment zramIsZeroPage zramFindObj at served
  rw [Nat.mod_eq_of_lt small] at served
  split at served
  next marked =>
    cases served
    have odd := beq_iff_eq.mp marked
    exact iff_of_true rfl fun object => absurd (object.1.symm.trans odd) (by decide)
  next unmarked =>
    have even : zram.table index % 2 = 0 := by
      have other := mt beq_iff_eq.mpr unmarked
      omega
    dsimp only at served
    split at served
    next found =>
      cases served
      refine iff_of_true rfl fun object => object.2 ?_
      split at found
      next none_ => rw [none_, Nat.zero_mod]
      next => cases found
    next location found =>
      split at found
      next => cases found
      next =>
        cases found
        split at served
        next whole =>
          obtain ⟨copied, _, same⟩ := Option.map_eq_some_iff.mp served
          cases same
          exact iff_of_true rfl fun object => object.2 whole
        next object =>
          cases served
          refine iff_of_false ?_ (not_not_intro ⟨even, object⟩)
          split <;> exact nofun

theorem onward_read {pages : List PageData} (small : index + pages.length ≤ 2 ^ 32)
    (objects : ∀ position, position + 1 < pages.length → HoldsObject (zram.table (index + position))) :
    Onward (readBody lzo) zram index pages := by
  induction pages generalizing index with
  | nil => trivial
  | cons page rest ih =>
    intro more after moved taken
    rw [List.length_cons] at small objects
    have length := List.length_pos_of_ne_nil more
    have here := objects 0 (by omega)
    rw [Nat.add_zero] at here
    unfold readBody at taken
    split at taken
    next =>
      cases taken
      refine ⟨rfl, ih (by omega) fun position inside => ?_⟩
      have later := objects (position + 1) (by omega)
      rwa [Nat.add_comm position 1, ← Nat.add_assoc] at later
    next shown served => exact absurd here ((readSegment_again (by omega) served).mp rfl)
    next => cases taken

theorem steady_read {pages : List PageData} (small : index + pages.length ≤ 2 ^ 32)
    (steady : Steady (readBody lzo) zram index pages) {position : Nat}
    (inside : position + 1 < pages.length) : HoldsObject (zram.table (index + position)) := by
  induction pages generalizing index position with
  | nil => cases inside
  | cons page rest ih =>
    rw [List.length_cons] at small inside
    obtain ⟨after, taken, later⟩ := steady (List.length_pos_iff.mp (by omega))
    unfold readBody at taken
    split at taken
    next shown served =>
      cases taken
      cases position with
      | zero => exact not_not.mp (mt (readSegment_again (by omega) served).mpr nofun)
      | succ position =>
        have object : HoldsObject (zram.table (index + 1 + position)) := ih (by omega) later (by omega)
        rwa [Nat.add_assoc, Nat.add_comm 1] at object
    next => cases taken
    next => cases taken

variable [DecidableEq Cpu]

theorem storeSegment_flow {segment : Segment Cpu} {flow : Flow} (stored : storeSegment lzo zram index segment = some (after, flow)) :
    (flow = .again → pageZeroFilled segment.data = true) ∧ (flow = .next → pageZeroFilled segment.data = false) := by
  unfold storeSegment at stored
  split at stored
  next =>
    cases stored
    exact ⟨nofun, nofun⟩
  split at stored
  next filled =>
    obtain ⟨_, _, same⟩ := Option.map_eq_some_iff.mp stored
    cases same
    exact ⟨fun _ => filled, nofun⟩
  next mixed =>
    have nonzero : pageZeroFilled segment.data = false := by simpa using mixed
    refine ⟨?_, fun _ => nonzero⟩
    rintro rfl
    split at stored
    next => cases stored
    split at stored
    next =>
      split at stored
      next => cases stored
      next =>
        obtain ⟨_, _, rest⟩ := Option.bind_eq_some_iff.mp stored
        obtain ⟨_, _, same⟩ := Option.map_eq_some_iff.mp rest
        cases same
    next =>
      dsimp only at stored
      split at stored
      next => cases stored
      next =>
        obtain ⟨_, _, same⟩ := Option.map_eq_some_iff.mp stored
        cases same

theorem writeBody_flow {segment : Segment Cpu} {moved : Bool} (taken : writeBody lzo zram index segment = some (after, moved)) :
    moved = !pageZeroFilled segment.data := by
  unfold writeBody at taken
  split at taken
  next written =>
    cases taken
    obtain ⟨freed, _, stored⟩ := Option.bind_eq_some_iff.mp written
    rw [(storeSegment_flow stored).2 rfl]
    rfl
  next written =>
    cases taken
    obtain ⟨freed, _, stored⟩ := Option.bind_eq_some_iff.mp written
    rw [(storeSegment_flow stored).1 rfl]
    rfl
  next => cases taken

theorem onward_write {segments : List (Segment Cpu)} (nonzero : ∀ segment ∈ segments.dropLast, pageZeroFilled segment.data = false) :
    Onward (writeBody lzo) zram index segments := by
  induction segments generalizing zram index with
  | nil => trivial
  | cons segment rest ih =>
    intro more after moved taken
    rw [List.dropLast_cons_of_ne_nil more] at nonzero
    obtain ⟨here, later⟩ := List.forall_mem_cons.mp nonzero
    exact ⟨by rw [writeBody_flow taken, here]; rfl, ih later⟩

theorem steady_write {segments : List (Segment Cpu)} (steady : Steady (writeBody lzo) zram index segments) :
    ∀ segment ∈ segments.dropLast, pageZeroFilled segment.data = false := by
  induction segments generalizing zram index with
  | nil => exact List.forall_mem_nil _
  | cons segment rest ih =>
    rcases rest with _ | ⟨other, more⟩
    · exact List.forall_mem_nil _
    · obtain ⟨after, taken, later⟩ := steady (by simp)
      exact List.forall_mem_cons.mpr ⟨by simpa using (writeBody_flow taken).symm, ih later⟩

theorem onward_discard (placement : Nat → Placement Cpu) (zram : Zram Cpu) (index : Nat) (sectors : List Nat) :
    Onward (discardBody placement) zram index sectors := by
  induction sectors generalizing zram index with
  | nil => trivial
  | cons sector rest ih =>
    intro _ after moved taken
    obtain ⟨freed, _, same⟩ := Option.map_eq_some_iff.mp taken
    cases same
    exact ⟨rfl, ih ..⟩

end Conditions

section Bios
variable {Cpu : Type} [Arch] [DecidableEq Cpu] {lzo : Lzo} {zram : Zram Cpu} {bio : Bio Cpu} {index : Nat}

omit [DecidableEq Cpu] in
theorem readSegment_flow (lzo : Lzo) (zram : Zram Cpu) (index : Nat) (page other : PageData) :
    (readSegment lzo zram index page).map Prod.fst = (readSegment lzo zram index other).map Prod.fst := by
  unfold readSegment
  split
  next => rfl
  split
  next => rfl
  next location found =>
    split
    next => rfl
    next => rfl

omit [DecidableEq Cpu] in
theorem Bio.Continues.congr {other : Zram Cpu} (continues : bio.Continues zram) (same : other.table = zram.table) :
    bio.Continues other := by
  cases bio with
  | read sector pages placement => exact fun position inside => same ▸ continues position inside
  | write | discard => exact continues

theorem Bio.counted_table {counted : Zram Cpu} (started : bio.counted zram = some counted) : counted.table = zram.table := by
  cases bio <;> exact zramAddStat_table started

/-- A loop that gets through all its pages in order found none that holds it up. -/
theorem Bio.continues_of_unbroken (short : bio.Short) (unbroken : bio.Unbroken lzo zram) : bio.Continues zram := by
  cases bio with
  | read sector pages placement =>
    intro position inside
    have few : sector / sectorsPerPage + pages.length ≤ 2 ^ 32 := by
      have most := short
      simp only [Bio.Short, Bio.size, Bio.sector, Nat.mul_div_cancel _ (show 0 < pageSize by decide)] at most
      exact most (by omega)
    exact steady_read few unbroken inside
  | write sector segments allocations placement => exact steady_write unbroken
  | discard sector size placement => trivial

/-- A request none of whose pages holds the loop up works on the entries it names in
order, as far as it gets. -/
theorem Bio.touched_prefix (short : bio.Short) (continues : bio.Continues zram) :
    bio.touched lzo zram <+: (List.range (bio.size / pageSize)).map (bio.sector / sectorsPerPage + ·) := by
  have fits := id_whole (Nat.two_pow_pos 32)
  have whole (count : Nat) : count * pageSize / pageSize = count := Nat.mul_div_cancel _ (by decide)
  cases bio with
  | read sector pages placement =>
    simp only [Bio.Short, Bio.size, Bio.sector, whole] at short ⊢
    rcases Nat.eq_zero_or_pos pages.length with none_ | some_
    · obtain rfl := List.eq_nil_of_length_eq_zero none_
      exact List.nil_prefix
    · exact visited_prefix id fits (Nat.le_refl _) (onward_read (short (Nat.ne_of_gt some_)) continues) short
  | write sector segments allocations placement =>
    simp only [Bio.Short, Bio.size, Bio.sector, whole] at short ⊢
    exact visited_prefix id fits (Nat.le_refl _) (onward_write continues) short
  | discard sector size placement =>
    have ordered := visited_prefix (· % 2 ^ 32) bitsPerLong_whole bitsPerLong_wide
      (onward_discard placement zram (sector / sectorsPerPage) (discardSectors sector size)) (by
        rw [discardSectors, List.length_map, List.length_range]
        exact short)
    rw [discardSectors, List.length_map, List.length_range] at ordered
    exact ordered

variable [Fintype Cpu] {others : Finset Page} {slots : Nat → ZramDrv.Slot} {held : Storage → Prop} {disk : ZramDrv.Disk}

omit [DecidableEq Cpu] in
theorem Sound.fill (sound : Sound lzo others zram slots held disk) (inverts : lzo.Inverts) (small : index < 2 ^ 32) :
    ∃ flow, flow ≠ .out ∧ ∀ page, ZramScale.readSegment lzo zram index page = some (flow, (disk index).getD page) := by
  have each (page : PageData) : ∃ flow, ZramScale.readSegment lzo zram index page = some (flow, (disk index).getD page) ∧ flow ≠ .out := by
    cases shown : disk index with
    | none => exact ⟨.again, sound.readAbsent small ((sound.stored.content index).none_iff.mp shown) page, nofun⟩
    | some data => exact sound.readSegment inverts small shown page
  obtain ⟨flow, served, fine⟩ := each PageData.zeros
  refine ⟨flow, fine, fun page => ?_⟩
  obtain ⟨same, also, _⟩ := each page
  have flows := readSegment_flow lzo zram index page PageData.zeros
  rw [served, also] at flows
  obtain rfl : same = flow := Option.some.inj flows
  exact also

theorem Reached.counted (reached : Reached lzo others zram) (initDone : zram.initDone = true) (bio : Bio Cpu) :
    ∃ counted slots held disk, bio.counted zram = some counted ∧ Sound lzo others counted slots held disk ∧ counted.numPages =
      zram.numPages := by
  obtain ⟨memory, totalramPages, run⟩ := reached
  obtain ⟨slots, disk, device⟩ := run_device run (fun _ _ met => met) ⟨_, _, createDevice_idle others memory totalramPages⟩
  cases device with
  | idle blank =>
    rw [blank.initDone] at initDone
    cases initDone
  | ready initDone tableAddress sound =>
    obtain ⟨stat, uncounted, same⟩ : ∃ stat, Stat.weight stat = none ∧ bio.counted zram = zramAddStat zram (bio.cpu stat) stat 1 := by
      cases bio with
      | read => exact ⟨.numReads, rfl, rfl⟩
      | write => exact ⟨.numWrites, rfl, rfl⟩
      | discard => exact ⟨.discard, rfl, rfl⟩
    obtain ⟨after, taken, sound, kept⟩ := sound.addStat (bio.cpu stat) stat 1 uncounted
    exact ⟨after, slots, _, disk, same.trans taken, sound, kept.numPages⟩

theorem Reached.started (reached : Reached lzo others zram) (initDone : zram.initDone = true) {counted : Zram Cpu}
    (started : bio.counted zram = some counted) :
    ∃ slots held disk, Sound lzo others counted slots held disk ∧ counted.numPages = zram.numPages := by
  obtain ⟨after, slots, held, disk, taken, sound, same⟩ := reached.counted initDone bio
  obtain rfl : after = counted := Option.some.inj (taken.symm.trans started)
  exact ⟨slots, held, disk, sound, same⟩

/-- Where nothing fails and no page holds the loop up, it gets through all of them. -/
theorem Sound.unbroken (inverts : lzo.Inverts) (sound : Sound lzo others zram slots held disk)
    (inside : bio.sector / sectorsPerPage + bio.size / pageSize ≤ zram.numPages) (short : bio.Short) (low : bio.Low)
    (provided : bio.Provided lzo (others.card + zram.numPages)) (continues : bio.Continues zram) : bio.Unbroken lzo zram := by
  have whole (count : Nat) : count * pageSize / pageSize = count := Nat.mul_div_cancel _ (by decide)
  cases bio with
  | read sector pages placement =>
    simp only [Bio.Short, Bio.size, Bio.sector, whole] at short
    rcases Nat.eq_zero_or_pos pages.length with none_ | some_
    · obtain rfl := List.eq_nil_of_length_eq_zero none_
      trivial
    · have few := short (Nat.ne_of_gt some_)
      refine (onward_read few continues).steady (· = zram) rfl ?_
      rintro state position page rfl member least most
      obtain ⟨flow, fine, served⟩ := sound.fill inverts (show position < 2 ^ 32 by omega)
      unfold readBody
      rw [served page]
      cases flow with
      | out => exact absurd rfl fine
      | next | again => exact ⟨_, _, rfl, rfl⟩
  | write sector segments allocations placement =>
    simp only [Bio.Short, Bio.size, Bio.sector, whole] at short inside
    refine (onward_write continues).steady
      (fun state => state.numPages = zram.numPages ∧ ∃ slots held disk, Sound lzo others state slots held disk) ⟨rfl, _, _, _, sound⟩ ?_
    rintro state position segment ⟨same, slots, held, disk, sound⟩ member least most
    have few := short (by omega)
    have last : position < sector / sectorsPerPage + segments.length := most
    have small : position < 2 ^ 32 := by omega
    have here : position < state.numPages := by omega
    have fine {after : Zram Cpu} {flow : Flow} (written : ZramScale.writeSegment lzo state position segment = some (after, flow)) :
        flow ≠ .out :=
      sound.writeSegment_provided small (same ▸ provided segment member) written
    obtain ⟨after, flow, _, _, _, written, sound, later, _⟩ := sound.writeSegment ⟨here, small⟩ (low segment member)
    unfold writeBody
    rw [written]
    cases flow with
    | out => exact absurd rfl (fine written)
    | next | again => exact ⟨_, _, rfl, later.numPages.trans same, _, _, _, sound⟩
  | discard sector size placement =>
    refine (onward_discard placement zram _ _).steady (fun state => ∃ slots held disk, Sound lzo others state slots held disk)
      ⟨_, _, _, sound⟩ ?_
    rintro state position sector ⟨slots, held, disk, sound⟩ member least most
    rw [discardSectors, List.length_map, List.length_range] at most
    have few : position < 2 ^ 32 := Nat.lt_of_lt_of_le most (short (by simp only [Bio.size, Bio.sector] at *; omega))
    obtain ⟨freed, now, released, sound, _⟩ := sound.freePage few (placement sector)
    exact ⟨freed, true, congrArg (Option.map _) released, _, _, _, sound⟩

def Bio.pages : Bio Cpu → List PageData
  | .read _ pages _ => pages
  | .write _ _ _ _ | .discard _ _ _ => []

variable {counted : Zram Cpu}

end Bios

section Sample
local instance touchedArch : Arch := Arch.x64

theorem pairDisk : ∃ session : Session Unit, Reached Lzo.runs ∅ session.zram ∧ session.zram.initDone = true ∧ session.zram.disksize = 8192 ∧
    HoldsObject (session.zram.table 0) ∧ session.disk 0 = some (PageData.filled 5) ∧ session.disk 1 = some (PageData.filled 8) := by
  obtain ⟨session, run, ready, sized, object, ⟨first, shown, five⟩, second, there, eight⟩ := writes_lead
    (fun session : Session Unit => session.zram.initDone = true ∧ session.zram.disksize = 8192 ∧ HoldsObject (session.zram.table 0) ∧
      (∃ data ∈ session.disk 0, data.val.all (· == 5) = true) ∧ ∃ data ∈ session.disk 1, data.val.all (· == 8) = true)
    [(0, 5), (1, 8)] (by decide +kernel)
  obtain rfl := PageData.eq_filled five
  obtain rfl := PageData.eq_filled eight
  exact ⟨session, ⟨_, _, (sampleReady_run _).trans (Session.run_device (fun {_ _} both => both.1.admissible) run)⟩, ready, sized,
    object, shown, there⟩

/-- A read, a write and a discard of both pages. -/
def pairBios : List (Bio Unit) :=
  [.read 0 [PageData.zeros, PageData.zeros] anywhere, .write 0 [pageOf 7, pageOf 0] granted anywhere, .discard 0 8192 fun _ => anywhere]

theorem pairBios_provided {zram : Zram Unit} (object : HoldsObject (zram.table 0)) : ∀ bio ∈ pairBios,
    bio.sector = 0 ∧ bio.size = 8192 ∧ bio.Low ∧ bio.Provided Lzo.runs 2 ∧ bio.Continues zram := by
  refine List.forall_mem_cons.mpr ⟨⟨rfl, rfl, trivial, trivial, fun position inside => ?_⟩,
    List.forall_mem_cons.mpr ⟨⟨rfl, rfl, ?_, ?_, ?_⟩, List.forall_mem_singleton.mpr ⟨rfl, rfl, trivial, trivial, trivial⟩⟩⟩
  · obtain rfl : position = 0 := Nat.lt_one_iff.mp (Nat.lt_of_succ_lt_succ inside)
    exact object
  · exact List.forall_mem_cons.mpr ⟨Low.of_narrow (Nat.le_refl 64) _, List.forall_mem_singleton.mpr (Low.of_narrow (Nat.le_refl 64) _)⟩
  · exact List.forall_mem_cons.mpr ⟨pageOf_provided 7, List.forall_mem_singleton.mpr (pageOf_provided 0)⟩
  · exact List.forall_mem_singleton.mpr (by decide +kernel)

end Sample
end Compcache.ZramScale
