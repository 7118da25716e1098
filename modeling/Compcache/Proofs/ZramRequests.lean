import Compcache.Proofs.ZramDevice
import Compcache.Proofs.ZramTouched
import Compcache.Proofs.ZramScaleTouched

/-! What both drivers do with a request: the entries it works on, and what a read
leaves in the caller's pages. -/

namespace Compcache
open Library Library.PagedMemory Library.Runs Xvmalloc
open ZramDrv (Disk sectorsPerPage)

section Fills
variable [Arch] {lzo : Lzo} {others : Finset Page}

namespace ZramDrv

theorem Sound.absent_iff {zram : Zram} {slots : Nat → Slot} {held : Storage → Prop} {disk : Disk}
    (sound : Sound lzo others zram slots held disk)
    (index : Nat) : disk index = none ↔ zram.table index = Entry.empty := by
  rw [(sound.content index).none_iff, sound.entries]
  cases found : slots index with
  | empty => exact ⟨fun _ => rfl, fun _ => rfl⟩
  | zero => exact ⟨nofun, fun same => absurd (congrArg Entry.zero same) (by decide)⟩
  | stored storage =>
    have present := sound.backed.page_ne (sound.holds found)
    refine ⟨nofun, fun same => absurd (congrArg Entry.page same) ?_⟩
    cases storage <;> exact present

theorem Sound.fills {zram : Zram} {slots : Nat → Slot} {held : Storage → Prop} {disk : Disk} (sound : Sound lzo others zram slots held disk)
    (inverts : lzo.Inverts) (first : Nat) (pages : List PageData) :
    ZramDrv.readSegments lzo zram (first % 2 ^ 32) pages =
      (true, pages.mapIdx fun position page => (disk ((first + position) % 2 ^ 32)).getD page) := by
  induction pages generalizing first with
  | nil => rfl
  | cons page rest ih =>
    have onwards : (first % 2 ^ 32 + 1) % 2 ^ 32 = (first + 1) % 2 ^ 32 := Nat.mod_add_mod ..
    have shifted : (fun position page => (disk ((first + 1 + position) % 2 ^ 32)).getD page) =
        fun position page => (disk ((first + (position + 1)) % 2 ^ 32)).getD page := by
      funext position
      rw [Nat.add_assoc, Nat.add_comm 1]
    rw [ZramDrv.readSegments, sound.readSegment inverts, onwards, List.mapIdx_cons]
    dsimp only
    rw [ih (first + 1), shifted]
    rfl

end ZramDrv

namespace ZramScale
variable {Cpu : Type}

theorem Sound.absent_iff {zram : Zram Cpu} [Fintype Cpu] {slots : Nat → ZramDrv.Slot} {held : Storage → Prop} {disk : Disk}
    (sound : Sound lzo others zram slots held disk) (index : Nat) : disk index = none ↔ zram.table index = 0 := by
  rw [(sound.stored.content index).none_iff, sound.entries]
  cases found : slots index with
  | empty => exact ⟨fun _ => rfl, fun _ => rfl⟩
  | zero => exact ⟨nofun, nofun⟩
  | stored storage => exact ⟨nofun, fun same => absurd same (sound.placed storage (sound.stored.holds found)).ne_zero⟩

theorem readSegments_stats (lzo : Lzo) (zram : Zram Cpu) (stats : Option (PerCpu.Counters Cpu Stat)) (index : Nat) (pages : List PageData) :
    readSegments lzo { zram with stats } index pages = readSegments lzo zram index pages := by
  induction pages generalizing index with
  | nil => rfl
  | cons page rest ih =>
    have same : readSegment lzo { zram with stats } index page = readSegment lzo zram index page := rfl
    rw [readSegments, readSegments, same]
    rcases readSegment lzo zram index page with _ | ⟨_ | _ | _, shown⟩
    · rfl
    · exact congrArg (Option.map _) (ih _)
    · exact congrArg (Option.map _) (ih _)
    · rfl

/-- Where the pages of a read come from: each from one of the entries the read names up
to its own, and from its own if all the entries before that hold objects. -/
structure Looks (zram : Zram Cpu) (first count : Nat) (looks : List Nat) : Prop where
  length : looks.length = count
  named : ∀ {position look}, looks[position]? = some look → ∃ offset ≤ position, look = (first + offset) % 2 ^ 32
  own : ∀ {position}, position < count → (∀ earlier < position, HoldsObject (zram.table ((first + earlier) % 2 ^ 32))) →
    looks[position]? = some ((first + position) % 2 ^ 32)

theorem Looks.nil (zram : Zram Cpu) (first : Nat) : Looks zram first 0 [] where
  length := rfl
  named none_ := by cases none_
  own inside := absurd inside (Nat.not_lt_zero _)

theorem Looks.exists (zram : Zram Cpu) (first count : Nat) : ∃ looks, Looks zram first count looks := by
  have each (position : Nat) (inside : position < count) :
      ((List.range count).map fun position => (first + position) % 2 ^ 32)[position]? = some ((first + position) % 2 ^ 32) := by
    rw [List.getElem?_map, List.getElem?_range inside]
    rfl
  refine ⟨(List.range count).map fun position => (first + position) % 2 ^ 32,
    ⟨by simp, fun {position look} found => ?_, fun inside _ => each _ inside⟩⟩
  have inside : position < count := by simpa using (List.getElem?_eq_some_iff.mp found).1
  exact ⟨position, Nat.le_refl position, Option.some.inj (found.symm.trans (each position inside))⟩

/-- The read moves on from an entry that holds an object, and may stay at another. -/
theorem Looks.cons {zram : Zram Cpu} {first ahead count : Nat} {looks : List Nat}
    (rest : Looks zram (first + ahead) count looks) (near : ahead ≤ 1)
    (moves : HoldsObject (zram.table (first % 2 ^ 32)) → ahead = 1) : Looks zram first (count + 1) (first % 2 ^ 32 :: looks) := by
  refine ⟨congrArg (· + 1) rest.length, fun {position look} found => ?_, fun {position} inside objects => ?_⟩
  · cases position with
    | zero =>
      cases found
      exact ⟨0, Nat.le_refl 0, rfl⟩
    | succ position =>
      obtain ⟨offset, bound, same⟩ := rest.named found
      exact ⟨ahead + offset, by omega, by rw [same, Nat.add_assoc]⟩
  · cases position with
    | zero => rfl
    | succ position =>
      obtain rfl := moves (objects 0 (Nat.succ_pos _))
      have own : looks[position]? = some ((first + 1 + position) % 2 ^ 32) :=
          rest.own (Nat.lt_of_succ_lt_succ inside) fun earlier before => by
        have object := objects (earlier + 1) (Nat.succ_lt_succ before)
        rwa [Nat.add_comm earlier 1, ← Nat.add_assoc] at object
      rwa [Nat.add_assoc, Nat.add_comm 1] at own

/-- Where no entry but the last is anything but an object, each page comes from its own. -/
theorem Looks.straight {zram : Zram Cpu} {first count : Nat} {looks : List Nat} (looked : Looks zram first count looks)
    (objects : ∀ position, position + 1 < count → HoldsObject (zram.table ((first + position) % 2 ^ 32))) :
    looks = (List.range count).map fun position => (first + position) % 2 ^ 32 := by
  refine List.ext_getElem? fun position => ?_
  rcases Nat.lt_or_ge position count with inside | outside
  · rw [looked.own inside fun earlier before => objects earlier (by omega), List.getElem?_map, List.getElem?_range inside]
    rfl
  · rw [List.getElem?_eq_none (by rw [looked.length]; exact outside), List.getElem?_eq_none (by simpa using outside)]

/-- A read fills the pages that are there and no others. Where they come from depends on
the device alone. -/
theorem Sound.fills [DecidableEq Cpu] [Fintype Cpu] {zram : Zram Cpu} {slots : Nat → ZramDrv.Slot} {held : Storage → Prop} {disk : Disk}
    (sound : Sound lzo others zram slots held disk) (inverts : lzo.Inverts) (count first : Nat) :
    ∃ looks : List Nat, Looks zram first count looks ∧ ∀ pages, pages.length = count →
      ZramScale.readSegments lzo zram (first % 2 ^ 32) pages =
        some (true, List.zipWith (fun look page => (disk look).getD page) looks pages) := by
  induction count generalizing first with
  | zero =>
    refine ⟨[], .nil zram first, fun pages none_ => ?_⟩
    obtain rfl := List.eq_nil_of_length_eq_zero none_
    rfl
  | succ count ih =>
    have small : first % 2 ^ 32 < 2 ^ 32 := Nat.mod_lt _ (by decide)
    obtain ⟨flow, fine, served⟩ := sound.fill inverts small
    have again := readSegment_again small (served PageData.zeros)
    obtain ⟨ahead, near, moves, onwards⟩ : ∃ ahead ≤ 1, (HoldsObject (zram.table (first % 2 ^ 32)) → ahead = 1) ∧
        flow.index (first % 2 ^ 32) = (first + ahead) % 2 ^ 32 := by
      cases flow with
      | out => exact absurd rfl fine
      | again => exact ⟨0, Nat.zero_le 1, fun object => absurd object (again.mp rfl), rfl⟩
      | next => exact ⟨1, Nat.le_refl 1, fun _ => rfl, Nat.mod_add_mod ..⟩
    obtain ⟨looks, rest, shown⟩ := ih (first + ahead)
    refine ⟨_, rest.cons near moves, fun pages some_ => ?_⟩
    cases pages with
    | nil => cases some_
    | cons page others =>
      have later := shown others (Nat.succ.inj some_)
      rw [ZramScale.readSegments, served page]
      cases flow with
      | out => exact absurd rfl fine
      | next | again =>
        dsimp only
        rw [onwards, later]
        rfl

end ZramScale

/-- What a successful read leaves in the caller's pages is what the device alone
decides, or what was there, and the device decides which. It is what was there only if the
device is not initialised or the page is absent; and then it is, though for the variant this
is said of no page that was discarded, and of the entries its index should reach. -/
theorem reads_fill_present (inverts : lzo.Inverts) :
    (∀ {memory : Memory Page} {session : ZramDrv.Session}, Run (ZramDrv.Session.step lzo)
      (fun session request => ZramDrv.Inside session.zram request)
        (ZramDrv.Session.create others memory) session →
      ∃ fill : Disk, (∀ index, fill index = none ↔ session.zram.initDone = false ∨ session.zram.table index = ZramDrv.Entry.empty) ∧
        ∀ sector pages, (ZramDrv.zramRead lzo session.zram sector pages).ok = true ∧
          (ZramDrv.zramRead lzo session.zram sector pages).pages =
            pages.mapIdx fun position page => (fill ((sector / sectorsPerPage + position) % 2 ^ 32)).getD page) ∧
    ∀ {Cpu : Type} [DecidableEq Cpu] [Fintype Cpu] {memory : Memory Page} {totalramPages : Nat} {zram : ZramScale.Zram Cpu},
      Run (ZramScale.step lzo) ZramScale.Admissible (ZramScale.createDevice ⟨⟨memory, others⟩, xvCreatePool⟩ totalramPages) zram →
      ∃ fill : Disk, (∀ index, fill index = none → zram.initDone = false ∨ zram.table index = 0) ∧
        (zram.initDone = false → ∀ index, fill index = none) ∧
        (∀ index, Run (ZramScale.step lzo) (fun zram event => ZramScale.Admissible zram event ∧ ¬ event.Discards index)
            (ZramScale.createDevice ⟨⟨memory, others⟩, xvCreatePool⟩ totalramPages) zram → zram.table index = 0 → fill index = none) ∧
        ∀ sector count, ∃ looks, ZramScale.Looks zram (sector / sectorsPerPage) count looks ∧ ∀ pages, pages.length = count → ∀ placement,
          ∃ completion, ZramScale.zramRead lzo zram sector pages placement = some completion ∧ completion.ok = true ∧
            completion.pages = List.zipWith (fun look page => (fill look).getD page) looks pages := by
  constructor
  · intro memory session run
    obtain ⟨disk, slots, held, valid⟩ := ZramDrv.run_reads run
    refine ⟨disk, fun index => ?_, fun sector pages => ?_⟩
    · refine (valid.sound.absent_iff index).trans ⟨.inr, fun absent => absent.elim (fun idle => ?_) id⟩
      rw [valid.sound.entries, valid.idle idle]
      rfl
    · unfold ZramDrv.zramRead
      rcases Bool.eq_false_or_eq_true session.zram.initDone with ready | ready
      · rw [if_pos ready]
        have counted : ZramDrv.Sound lzo others { session.zram with
            stats := { session.zram.stats with numReads := ZramDrv.zramStat64Inc session.zram.stats.numReads } } slots held disk :=
          valid.sound.recount rfl rfl rfl rfl rfl
        dsimp only
        rw [counted.fills inverts (sector / sectorsPerPage) pages]
        exact ⟨rfl, rfl⟩
      · have nothing (index : Nat) : disk index = none := (valid.sound.content index).none_iff.mpr (valid.idle ready index)
        rw [if_neg (by simp [ready])]
        simp only [nothing, Option.getD_none, true_and]
        exact List.ext_getElem (by simp) fun position _ _ => by simp
  · intro Cpu _ _ memory totalramPages zram run
    obtain ⟨slots, disk, device⟩ := ZramScale.run_device run (fun _ _ => id) ⟨_, _, ZramScale.createDevice_idle others memory totalramPages⟩
    cases device with
    | idle blank =>
      refine ⟨fun _ => none, fun index _ => .inl blank.initDone, fun _ _ => rfl, fun _ _ _ => rfl, fun sector count => ?_⟩
      obtain ⟨looks, looked⟩ := ZramScale.Looks.exists zram (sector / sectorsPerPage) count
      refine ⟨looks, looked, fun pages length placement => ⟨⟨zram, true, pages⟩, if_neg (by simp [blank.initDone]), rfl, ?_⟩⟩
      exact List.ext_getElem (by simp [looked.length, length]) fun position _ _ => by simp
    | ready initDone tableAddress sound =>
      refine ⟨disk, fun index absent => .inr ((sound.absent_iff index).mp absent), fun idle => ?_,
        fun index _ => (sound.absent_iff index).mpr,
        fun sector count => ?_⟩
      · rw [initDone] at idle
        cases idle
      · obtain ⟨looks, looked, fills⟩ := sound.fills inverts count (sector / sectorsPerPage)
        refine ⟨looks, looked, fun pages same placement => ?_⟩
        obtain ⟨counters, present, _⟩ := sound.counted
        refine ⟨⟨{ zram with stats := some (counters.add (placement .numReads) .numReads 1) }, true, _⟩, ?_, rfl, rfl⟩
        rw [ZramScale.zramRead, if_pos initDone, ZramScale.zramIncStat, ZramScale.zramAddStat_some present, Option.bind_some]
        rw [ZramScale.readSegments_stats, fills pages same]
        rfl

end Fills

section Touched
variable [Arch] {lzo : Lzo} {others : Finset Page}

end Touched

section Sample
local instance requestsArch : Arch := Arch.x64

/-- Two reads that differ in what they are read into. Behind a page that does not compress
and a page of one byte there is a page nobody wrote; so there is behind the one page of the
variant's device. -/
theorem reads_fill_present_sample :
    (∃ (session : ZramDrv.Session) (first : PageData),
      (ZramDrv.zramRead Lzo.runs session.zram 0 (List.replicate 3 PageData.zeros)).pages = [first, PageData.filled 5, PageData.zeros] ∧
      (ZramDrv.zramRead Lzo.runs session.zram 0 (List.replicate 3 PageData.noise)).pages = [first, PageData.filled 5, PageData.noise]) ∧
    ∃ (zram : ZramScale.Zram Unit) (clear mixed : ZramScale.Completion Unit),
      ZramScale.zramRead Lzo.runs zram 0 (List.replicate 2 PageData.zeros) ZramScale.anywhere = some clear ∧
      clear.pages = [PageData.filled 5, PageData.zeros] ∧
      ZramScale.zramRead Lzo.runs zram 0 (List.replicate 2 PageData.noise) ZramScale.anywhere = some mixed ∧
      mixed.pages = [PageData.filled 5, PageData.noise] := by
  obtain ⟨root, scale⟩ := @reads_fill_present _ _ ∅ Lzo.runs_inverts
  constructor
  · obtain ⟨session, run, ready, whole, there, one, nothing⟩ := ZramDrv.noiseDisk_leads
      (fun session : ZramDrv.Session => session.zram.initDone = true ∧ session.zram.table 0 ≠ ZramDrv.Entry.empty ∧
        session.zram.table 1 ≠ ZramDrv.Entry.empty ∧
        (∃ page ∈ (ZramDrv.zramRead Lzo.runs session.zram 8 [PageData.zeros]).pages[0]?, page.val.all (· == 5) = true) ∧
        session.zram.table 2 = ZramDrv.Entry.empty)
      [.bio (.write 8 [(PageData.filled 5, secondPage)] ZramDrv.granted)] (by decide +kernel)
    obtain ⟨fill, present, reads⟩ := root (run.mono fun _ _ both => both.1)
    have full {index : Nat} (occupied : session.zram.table index ≠ ZramDrv.Entry.empty) : ∃ data, fill index = some data := by
      refine Option.ne_none_iff_exists'.mp fun none_ => ?_
      rcases (present index).mp none_ with idle | empty
      · rw [ready] at idle
        cases idle
      · exact occupied empty
    obtain ⟨first, filled⟩ := full whole
    obtain ⟨second, written⟩ := full there
    obtain ⟨page, shown, same⟩ := one
    rw [(reads 8 [PageData.zeros]).2] at shown
    have shown : some ((fill 1).getD PageData.zeros) = some page := shown
    rw [written] at shown
    obtain rfl : second = PageData.filled 5 := (Option.some.inj shown).trans (PageData.eq_filled same)
    have absent : fill 2 = none := (present 2).mpr (.inr nothing)
    have reading (page : PageData) : (ZramDrv.zramRead Lzo.runs session.zram 0 (List.replicate 3 page)).pages =
        [first, PageData.filled 5, page] := by
      refine (reads 0 _).2.trans (show [(fill 0).getD page, (fill 1).getD page, (fill 2).getD page] = _ from ?_)
      rw [filled, written, absent]
      rfl
    exact ⟨session, first, reading _, reading _⟩
  · obtain ⟨session, run, ready, object, nothing, one⟩ := ZramScale.writes_lead
      (fun session : ZramScale.Session Unit => session.zram.initDone = true ∧ ZramScale.HoldsObject (session.zram.table 0) ∧
        session.zram.table 1 = 0 ∧
        ∃ completion ∈ ZramScale.zramRead Lzo.runs session.zram 0 [PageData.zeros] ZramScale.anywhere, ∃ page ∈ completion.pages[0]?,
          page.val.all (· == 5) = true)
      [(0, 5)] (by decide +kernel)
    have started : Run (ZramScale.step Lzo.runs) (fun zram event => ZramScale.Admissible zram event ∧
      ¬ event.Discards 1) ZramScale.sampleStart
        ZramScale.sampleReady := ZramScale.sampleReady_leads _ ⟨trivial, id⟩ ⟨trivial, id⟩
    have undiscarded := started.trans (ZramScale.Session.run_device (fun {_ _} both => ⟨both.1.admissible, both.2 1⟩) run)
    obtain ⟨fill, absent, _, vacant, reads⟩ := scale (undiscarded.mono fun _ _ both => both.1)
    have behind : fill 1 = none := vacant 1 undiscarded nothing
    obtain ⟨first, filled⟩ : ∃ data, fill 0 = some data := by
      refine Option.ne_none_iff_exists'.mp fun none_ => ?_
      rcases absent 0 none_ with idle | empty
      · rw [ready] at idle
        cases idle
      · exact object.2 (by rw [empty]; rfl)
    have same : first = PageData.filled 5 := by
      obtain ⟨completion, served, page, shown, five⟩ := one
      obtain ⟨looks, looked, fills⟩ := reads 0 1
      obtain ⟨other, ended, _, pages⟩ := fills [PageData.zeros] rfl ZramScale.anywhere
      obtain rfl : completion = other := Option.some.inj (served.symm.trans ended)
      obtain ⟨look, rfl⟩ := List.length_eq_one_iff.mp looked.length
      obtain rfl : look = 0 := Option.some.inj (looked.own (Nat.zero_lt_one) nofun)
      rw [pages] at shown
      have shown : some ((fill 0).getD PageData.zeros) = some page := shown
      rw [filled] at shown
      exact (Option.some.inj shown).trans (PageData.eq_filled five)
    obtain ⟨looks, looked, fills⟩ := reads 0 2
    obtain rfl : looks = [0, 1] := looked.straight fun position inside => by
      obtain rfl : position = 0 := by omega
      exact object
    obtain ⟨clear, clearly, _, zeros⟩ := fills (List.replicate 2 PageData.zeros) rfl ZramScale.anywhere
    obtain ⟨mixed, mixes, _, noise⟩ := fills (List.replicate 2 PageData.noise) rfl ZramScale.anywhere
    have reading (page : PageData) : List.zipWith (fun look page => (fill look).getD page) [0, 1] (List.replicate 2 page) =
        [PageData.filled 5, page] := by
      show [(fill 0).getD page, (fill 1).getD page] = _
      rw [filled, behind, same]
      rfl
    exact ⟨session.zram, clear, mixed, clearly, zeros.trans (reading _), mixes, noise.trans (reading _)⟩

/-- Two reads of a page nobody wrote succeed and leave different bytes, before the
device is initialised and after. -/
theorem reads_keep_destination : ZramDrv.sampleDisk.zram.initDone = false ∧ ZramScale.sampleReady.initDone = true ∧
    Run (ZramDrv.Session.step Lzo.literal) (fun session request => ZramDrv.Inside session.zram request)
    (ZramDrv.Session.create ∅ fun _ _ => 0)
      ZramDrv.sampleDisk ∧
    Run (ZramScale.step Lzo.literal) ZramScale.Admissible ZramScale.sampleStart ZramScale.sampleReady ∧
    (∀ page : PageData, (ZramDrv.zramRead Lzo.literal ZramDrv.sampleDisk.zram 0 [page]).ok = true ∧
      (ZramDrv.zramRead Lzo.literal ZramDrv.sampleDisk.zram 0 [page]).pages = [page]) ∧
    (∀ page : PageData, ∃ completion, ZramScale.zramRead Lzo.literal ZramScale.sampleReady 0 [page] ZramScale.anywhere = some completion ∧
      completion.ok = true ∧ completion.pages = [page]) ∧ PageData.noise ≠ PageData.zeros :=
  ⟨rfl, rfl, ZramDrv.sampleDisk_run.mono fun _ _ both => both.1, ZramScale.sampleReady_run _, fun _ => ⟨rfl, rfl⟩,
    fun _ => ⟨_, rfl, rfl, rfl⟩, ZramScale.noise_nonzero⟩

end Sample
end Compcache
