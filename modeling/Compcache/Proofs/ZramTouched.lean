import Compcache.Library.Visits
import Compcache.Proofs.ZramDevice

/-! The table entries a request works on, and the test that is to keep them on the
disk. -/

namespace Compcache.ZramDrv
open Library.PagedMemory Library.Runs Library.Visits Xvmalloc

variable [Arch]

/-- The bodies of the loops: the device afterwards, if the loop goes on. It always
moves on to the next page. -/
def writeBody (lzo : Lzo) (zram : Zram) (index : Nat) (segment : PageData × PageAllocator) : Option (Zram × Bool) :=
  match writeSegment lzo zram index segment.1 segment.2 with
  | some (after, true) => some (after, true)
  | _ => none

def readBody (lzo : Lzo) (zram : Zram) (index : Nat) (page : PageData) : Option (Zram × Bool) :=
  if (readSegment lzo zram index page).1 then some (zram, true) else none

def discardBody (zram : Zram) (index : Nat) (_ : Unit) : Option (Zram × Bool) := (zramFreePage zram index).map (·, true)

/-- The device once a request on an initialised device is counted. -/
def Bio.counted (zram : Zram) : Bio → Zram
  | .read _ _ => { zram with stats := { zram.stats with numReads := zramStat64Inc zram.stats.numReads } }
  | .write _ _ _ => { zram with stats := { zram.stats with numWrites := zramStat64Inc zram.stats.numWrites } }
  | .discard _ _ => zram

/-- The entries a request on an initialised device works on, in order. -/
def Bio.touched (lzo : Lzo) (zram : Zram) (bio : Bio) : List Nat :=
  let start := bio.sector / sectorsPerPage % 2 ^ 32
  match bio with
  | .read _ pages => visited (2 ^ 32) id (readBody lzo) (bio.counted zram) start pages
  | .write _ segments _ => visited (2 ^ 32) id (writeBody lzo) (bio.counted zram) start segments
  | .discard _ size => visited (2 ^ 32) id discardBody (bio.counted zram) start (List.replicate (size / pageSize) ())

/-- No page but the last fails, when they are taken one after the other. -/
def Bio.Unbroken (lzo : Lzo) (zram : Zram) (bio : Bio) : Prop :=
  let start := bio.sector / sectorsPerPage
  match bio with
  | .read _ pages => Steady (readBody lzo) (bio.counted zram) start pages
  | .write _ segments _ => Steady (writeBody lzo) (bio.counted zram) start segments
  | .discard _ size => Steady discardBody (bio.counted zram) start (List.replicate (size / pageSize) ())

section Frames
variable {lzo : Lzo} {zram after : Zram} {index other : Nat}

theorem zramFreePage_elsewhere (freed : zramFreePage zram index = some after) (elsewhere : other ≠ index) :
    after.table other = zram.table other := by
  unfold zramFreePage at freed
  dsimp only at freed
  split at freed
  next =>
    split at freed
    next =>
      cases freed
      exact Function.update_of_ne elsewhere ..
    next => cases freed; rfl
  split at freed
  next =>
    obtain ⟨xv, _, rfl⟩ := Option.map_eq_some_iff.mp freed
    exact (Function.update_of_ne elsewhere ..).trans (Function.update_of_ne elsewhere ..)
  next =>
    obtain ⟨xv, _, rfl⟩ := Option.map_eq_some_iff.mp freed
    exact Function.update_of_ne elsewhere ..

theorem releaseSlot_elsewhere (released : releaseSlot zram index = some after) (elsewhere : other ≠ index) :
    after.table other = zram.table other := by
  unfold releaseSlot at released
  split at released
  next => exact zramFreePage_elsewhere released elsewhere
  next =>
    cases released
    rfl

theorem lockedSection_elsewhere (lzo : Lzo) (zram : Zram) (index : Nat) (data : PageData) (allocator : PageAllocator)
    (elsewhere : other ≠ index) :
    ((lockedSection lzo zram index data allocator).device zram).table other = zram.table other := by
  unfold lockedSection
  dsimp only
  split
  next => rfl
  split
  next => rfl
  split
  next =>
    split
    next => rfl
    next => exact (Function.update_of_ne elsewhere ..).trans (Function.update_of_ne elsewhere ..)
  next =>
    split
    next => exact Function.update_of_ne elsewhere ..
    next => exact (Function.update_of_ne elsewhere ..).trans (Function.update_of_ne elsewhere ..)

theorem writeSegment_elsewhere {data : PageData} {allocator : PageAllocator} {stored : Bool}
    (written : writeSegment lzo zram index data allocator = some (after, stored)) (elsewhere : other ≠ index) :
    after.table other = zram.table other := by
  obtain ⟨freed, released, ended⟩ := Option.map_eq_some_iff.mp written
  have before := releaseSlot_elsewhere released elsewhere
  have kept := lockedSection_elsewhere lzo freed index data allocator elsewhere
  generalize lockedSection lzo freed index data allocator = result at ended kept
  cases result with
  | zeroFilled =>
    cases ended
    exact (Function.update_of_ne elsewhere ..).trans before
  | stored stored =>
    cases ended
    exact kept.trans before
  | failed failed =>
    cases ended
    exact kept.trans before

theorem writeSegments_elsewhere {segments : List (PageData × PageAllocator)} {served : Nat} {completion : Completion}
    (ended : writeSegments lzo zram index served segments = some completion)
    (elsewhere : other ∉ visited (2 ^ 32) id (writeBody lzo) zram index segments) :
    completion.zram.table other = zram.table other := by
  induction segments generalizing zram index served with
  | nil =>
    cases ended
    rfl
  | cons segment rest ih =>
    obtain ⟨data, allocator⟩ := segment
    rw [visited, List.mem_cons, not_or] at elsewhere
    rw [writeSegments] at ended
    cases written : writeSegment lzo zram index data allocator with
    | none =>
      rw [written] at ended
      cases ended
    | some result =>
      obtain ⟨after, stored⟩ := result
      have first := writeSegment_elsewhere written elsewhere.1
      rw [written] at ended
      cases stored with
      | false =>
        cases ended
        exact first
      | true =>
        have later := elsewhere.2
        simp only [writeBody, written] at later
        exact (ih ended later).trans first

theorem readSegments_served {pages : List PageData} {position entry : Nat}
    (visits : (visited (2 ^ 32) id (readBody lzo) zram index pages)[position]? = some entry) :
    (readSegments lzo zram index pages).2[position]? = pages[position]?.map fun page => (readSegment lzo zram entry page).2 := by
  induction pages generalizing index position with
  | nil => simp [visited] at visits
  | cons page rest ih =>
    rw [readSegments]
    rw [visited, readBody] at visits
    rcases served : readSegment lzo zram index page with ⟨ok, shown⟩
    rw [served] at visits
    cases ok with
    | false =>
      cases position with
      | zero =>
        cases visits
        simp [served]
      | succ position => simp at visits
    | true =>
      cases position with
      | zero =>
        cases visits
        simp [served]
      | succ position =>
        have later : (visited (2 ^ 32) id (readBody lzo) zram ((index + 1) % 2 ^ 32) rest)[position]? = some entry := visits
        exact ih later

end Frames

section Conditions
variable {lzo : Lzo} {zram : Zram} {bio : Bio}

/-- The pages a request names have numbers of 32 bits. -/
def Bio.Short (bio : Bio) : Prop := bio.size / pageSize ≠ 0 → bio.sector / sectorsPerPage + bio.size / pageSize ≤ 2 ^ 32

/-- Nothing fails that a request needs. -/
def Bio.Provided (lzo : Lzo) (count : Nat) : Bio → Prop
  | .write _ segments _ => ∀ segment ∈ segments, ZramDrv.Provided lzo count segment
  | .read _ _ | .discard _ _ => True

/-- A request works on the entries it names, one after the other, exactly if its pages
have numbers of 32 bits and it is not cut short. -/
theorem Bio.touched_iff (lzo : Lzo) (zram : Zram) (bio : Bio) :
    bio.touched lzo zram = (List.range (bio.size / pageSize)).map (bio.sector / sectorsPerPage + ·) ↔
      bio.Short ∧ bio.Unbroken lzo zram := by
  have fits := id_whole (Nat.two_pow_pos 32)
  have whole (count : Nat) : count * pageSize / pageSize = count := Nat.mul_div_cancel _ (by decide)
  cases bio with
  | read sector pages =>
    simp only [Bio.Short, Bio.size, whole]
    exact visited_eq_range id fits (Nat.le_refl _) _ _ _ _
  | write sector segments allocations =>
    simp only [Bio.Short, Bio.size, whole]
    exact visited_eq_range id fits (Nat.le_refl _) _ _ _ _
  | discard sector size =>
    have iff := visited_eq_range id fits (Nat.le_refl _) discardBody zram (sector / sectorsPerPage) (List.replicate (size / pageSize) ())
    rw [List.length_replicate] at iff
    exact iff

theorem onward {α : Type} {body : Zram → Nat → α → Option (Zram × Bool)} (moves : ∀ {state index item after moved},
    body state index item = some (after, moved) → moved = true) (state : Zram) (index : Nat) (items : List α) :
    Onward body state index items := by
  induction items generalizing state index with
  | nil => trivial
  | cons item rest ih => exact fun _ _ _ taken => ⟨moves taken, ih _ _⟩

theorem writeBody_moves {after : Zram} {index : Nat} {segment : PageData × PageAllocator} {moved : Bool}
    (taken : writeBody lzo zram index segment = some (after, moved)) : moved = true := by
  unfold writeBody at taken
  split at taken
  next =>
    cases taken
    rfl
  next => cases taken

theorem readBody_moves {after : Zram} {index : Nat} {page : PageData} {moved : Bool}
    (taken : readBody lzo zram index page = some (after, moved)) : moved = true := by
  unfold readBody at taken
  split at taken
  next =>
    cases taken
    rfl
  next => cases taken

theorem discardBody_moves {after : Zram} {index : Nat} {page : Unit} {moved : Bool}
    (taken : discardBody zram index page = some (after, moved)) : moved = true := by
  obtain ⟨_, _, same⟩ := Option.map_eq_some_iff.mp taken
  cases same
  rfl

theorem Bio.touched_prefix (short : bio.Short) :
    bio.touched lzo zram <+: (List.range (bio.size / pageSize)).map (bio.sector / sectorsPerPage + ·) := by
  have fits := id_whole (Nat.two_pow_pos 32)
  have whole (count : Nat) : count * pageSize / pageSize = count := Nat.mul_div_cancel _ (by decide)
  cases bio with
  | read sector pages =>
    simp only [Bio.Short, Bio.size, Bio.sector, whole] at short ⊢
    exact visited_prefix id fits (Nat.le_refl _) (onward readBody_moves ..) short
  | write sector segments allocations =>
    simp only [Bio.Short, Bio.size, Bio.sector, whole] at short ⊢
    exact visited_prefix id fits (Nat.le_refl _) (onward writeBody_moves ..) short
  | discard sector size =>
    have moves : Onward discardBody zram (sector / sectorsPerPage) (List.replicate (size / pageSize) ()) := onward discardBody_moves ..
    have ordered := visited_prefix id fits (Nat.le_refl _) moves (by rw [List.length_replicate]; exact short)
    rw [List.length_replicate] at ordered
    exact ordered

variable {others : Finset Page} {slots : Nat → Slot} {held : Storage → Prop} {disk : Disk}

theorem Sound.counted (sound : Sound lzo others zram slots held disk) (bio : Bio) :
    Sound lzo others (bio.counted zram) slots held disk := by
  cases bio with
  | read | write => exact sound.recount rfl rfl rfl rfl rfl
  | discard => exact sound

theorem Sound.unbroken (inverts : lzo.Inverts) (sound : Sound lzo others zram slots held disk)
    (inside : bio.sector / sectorsPerPage + bio.size / pageSize ≤ zram.numPages)
    (provided : bio.Provided lzo (others.card + zram.numPages)) :
    bio.Unbroken lzo zram := by
  have whole (count : Nat) : count * pageSize / pageSize = count := Nat.mul_div_cancel _ (by decide)
  have counted := sound.counted bio
  cases bio with
  | read sector pages =>
    refine (onward readBody_moves ..).steady (fun state => Sound lzo others state slots held disk) counted ?_
    intro state position page sound _ _ _
    unfold readBody
    rw [sound.readSegment inverts, if_pos rfl]
    exact ⟨_, _, rfl, sound⟩
  | write sector segments allocations =>
    simp only [Bio.size, Bio.sector, whole] at inside
    refine (onward writeBody_moves ..).steady
      (fun state => state.numPages = zram.numPages ∧ ∃ slots held disk, Sound lzo others state slots held disk) ⟨rfl, _, _, _, counted⟩ ?_
    rintro state position segment ⟨same, slots, held, disk, sound⟩ member least most
    have last : position < sector / sectorsPerPage + segments.length := most
    obtain ⟨after, stored, _, _, written, kept, later⟩ := sound.writeSegment (show position < state.numPages by omega) segment.1 segment.2
    obtain rfl := sound.writeSegment_provided (same ▸ provided segment member) written
    unfold writeBody
    rw [written]
    exact ⟨_, _, rfl, later.numPages.trans same, _, _, _, kept⟩
  | discard sector size =>
    refine (onward discardBody_moves ..).steady (fun state => ∃ slots held disk, Sound lzo others state slots held disk)
      ⟨_, _, _, counted⟩ ?_
    rintro state position _ ⟨slots, held, disk, sound⟩ _ _ _
    obtain ⟨freed, now, released, sound, _⟩ := sound.freePage position
    exact ⟨freed, true, congrArg (Option.map _) released, _, _, _, sound⟩

end Conditions

section OnDisk
variable {lzo : Lzo} {others : Finset Page} {zram : Zram} {bio : Bio}

def Bio.pages : Bio → List PageData
  | .read _ pages => pages
  | .write _ _ _ | .discard _ _ => []

end OnDisk
end Compcache.ZramDrv
