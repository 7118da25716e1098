import Compcache.Proofs.ZramScaleTouched

/-! One request of many pages against many requests of one page. Requests differ in
how often they are counted, so devices are compared without their counters. -/

namespace Compcache.ZramScale
open Library.PagedMemory Library.PerCpu Library.Runs Library.Visits Xvmalloc
open ZramDrv (sectorsPerPage sectorShift)

theorem rel_bind {α β γ δ : Type*} {related : α → β → Prop} {then_ : γ → δ → Prop} {first : Option α} {second : Option β}
    {f : α → Option γ} {g : β → Option δ}
    (both : Option.Rel related first second) (next : ∀ {a b}, related a b → Option.Rel then_ (f a) (g b)) :
    Option.Rel then_ (first.bind f) (second.bind g) := by
  cases both with
  | some same => exact next same
  | none => exact .none

section Alike
variable {Cpu : Type} [Arch]

/-- Initialised devices that hold the same, whatever they have counted. -/
structure Alike (first second : Zram Cpu) : Prop where
  xv : second.xv = first.xv
  table : second.table = first.table
  initDone : first.initDone = true ∧ second.initDone = true
  counted : first.stats.isSome ∧ second.stats.isSome

/-- And a loop that ends in the same way on them. -/
def AlikeFlow (first second : Zram Cpu × Flow) : Prop := Alike first.1 second.1 ∧ first.2 = second.2

variable {lzo : Lzo} {first second : Zram Cpu}

theorem Alike.setAddr (alike : Alike first second) (index addr : Nat) : Alike (first.setAddr index addr) (second.setAddr index addr) :=
  ⟨alike.xv, by simp only [Zram.setAddr, alike.table], alike.initDone, alike.counted⟩

theorem Alike.withXv (alike : Alike first second) (xv : XvState) : Alike { first with xv } { second with xv } :=
  ⟨rfl, alike.table, alike.initDone, alike.counted⟩

theorem Alike.setZero (alike : Alike first second) (index : Nat) : Alike (zramSetZeroPage first index) (zramSetZeroPage second index) := by
  unfold zramSetZeroPage
  rw [alike.table]
  exact alike.setAddr ..

variable [DecidableEq Cpu]

theorem Alike.addStat (alike : Alike first second) (cpu place : Cpu) (stat other : Stat) (value amount : Int) :
    Option.Rel Alike (zramAddStat first cpu stat value) (zramAddStat second place other amount) := by
  obtain ⟨counters, here⟩ := Option.isSome_iff_exists.mp alike.counted.1
  obtain ⟨others, there⟩ := Option.isSome_iff_exists.mp alike.counted.2
  rw [zramAddStat_some here, zramAddStat_some there]
  exact .some ⟨alike.xv, alike.table, alike.initDone, rfl, rfl⟩

theorem Alike.forgetObj (alike : Alike first second) (index zlen : Nat) (placement : Placement Cpu) :
    Option.Rel Alike (forgetObj first index zlen placement) (forgetObj second index zlen placement) := by
  refine rel_bind (alike.addStat ..) fun alike => ?_
  rw [Option.map_eq_bind, Option.map_eq_bind]
  exact rel_bind (alike.addStat ..) fun alike => .some (alike.setAddr index 0)

theorem Alike.freePage (alike : Alike first second) (index : Nat) (placement : Placement Cpu) :
    Option.Rel Alike (zramFreePage first index placement) (zramFreePage second index placement) := by
  have marked : zramIsZeroPage second index = zramIsZeroPage first index := by rw [zramIsZeroPage, alike.table]; rfl
  have found : zramFindObj second index = zramFindObj first index := by rw [zramFindObj, alike.table]; rfl
  unfold zramFreePage
  rw [marked, found, alike.xv]
  split
  next =>
    unfold zramClearZeroPage
    rw [alike.table]
    exact (alike.setAddr ..).addStat ..
  split
  next => exact .some alike
  split
  next =>
    cases first.xv.freePage _ with
    | none => exact .none
    | some xv =>
      rw [Option.bind_some, Option.bind_some]
      exact rel_bind ((alike.withXv xv).addStat ..) fun alike => alike.forgetObj ..
  next =>
    cases xvFree first.xv _ _ with
    | none => exact .none
    | some xv => exact (alike.withXv xv).forgetObj ..

theorem Alike.memstore (alike : Alike first second) (index : Nat) (location : Location) (src : List UInt8) (placement : Placement Cpu) :
    Option.Rel Alike (memstore first index location src placement) (memstore second index location src placement) := by
  unfold ZramScale.memstore
  rw [alike.xv]
  refine rel_bind ((alike.withXv _).addStat ..) fun alike => ?_
  rw [Option.map_eq_bind, Option.map_eq_bind]
  exact rel_bind (alike.addStat ..) fun alike => .some (alike.setAddr ..)

theorem Alike.storeSegment (alike : Alike first second) (index : Nat) (segment : Segment Cpu) :
    Option.Rel AlikeFlow (storeSegment lzo first index segment) (storeSegment lzo second index segment) := by
  have ends {a b : Option (Zram Cpu)} (flow : Flow) (both : Option.Rel Alike a b) :
      Option.Rel AlikeFlow (a.map (·, flow)) (b.map (·, flow)) := by
    rw [Option.map_eq_bind, Option.map_eq_bind]
    exact rel_bind both fun alike => .some ⟨alike, rfl⟩
  unfold ZramScale.storeSegment
  rw [alike.xv]
  split
  next => exact .some ⟨alike, rfl⟩
  split
  next =>
    rw [Option.map_eq_bind, Option.map_eq_bind]
    exact rel_bind (alike.addStat ..) fun alike => .some ⟨alike.setZero index, rfl⟩
  split
  next => exact .some ⟨alike, rfl⟩
  split
  next =>
    split
    next => exact .some ⟨alike, rfl⟩
    next =>
      refine rel_bind ((alike.withXv _).addStat ..) fun alike => ?_
      rw [alike.xv]
      exact ends _ (alike.memstore ..)
  next =>
    dsimp only
    split
    next => exact .some ⟨alike.withXv _, rfl⟩
    next => exact ends _ ((alike.withXv _).memstore ..)

theorem Alike.writeSegment (alike : Alike first second) (index : Nat) (segment : Segment Cpu) :
    Option.Rel AlikeFlow (writeSegment lzo first index segment) (writeSegment lzo second index segment) :=
  rel_bind (alike.freePage ..) fun alike => alike.storeSegment ..

end Alike

section Singles
variable {Cpu : Type} [Arch] [DecidableEq Cpu]

/-- Requests of one page each for the pages of a write, one after the other until one fails. -/
def writeSingles (lzo : Lzo) (zram : Zram Cpu) (sector : Nat) (allocations : InitAllocations) :
    List (Segment Cpu × Placement Cpu) → Option (Completion Cpu)
  | [] => some ⟨zram, true, []⟩
  | (segment, placement) :: rest => (zramWrite lzo zram sector [segment] allocations placement).bind fun first =>
    if first.ok then writeSingles lzo first.zram (sector + sectorsPerPage) allocations rest else some first

/-- And for those of a read. The pages behind one that fails stay as they are. -/
def readSingles (lzo : Lzo) (zram : Zram Cpu) (sector : Nat) : List (PageData × Placement Cpu) → Option (Completion Cpu)
  | [] => some ⟨zram, true, []⟩
  | (page, placement) :: rest => (zramRead lzo zram sector [page] placement).bind fun first =>
    if first.ok then (readSingles lzo first.zram (sector + sectorsPerPage) rest).map fun others =>
      ⟨others.zram, others.ok, first.pages ++ others.pages⟩
    else some ⟨first.zram, false, first.pages ++ rest.map Prod.fst⟩

/-- The same stored content, the same pages filled, and the same outcome. -/
structure SameOutcome (first second : Completion Cpu) : Prop where
  alike : Alike first.zram second.zram
  ok : second.ok = first.ok
  pages : second.pages = first.pages

variable {lzo : Lzo} {first second : Zram Cpu}

theorem Alike.inc (alike : Alike first second) (cpu : Cpu) (stat : Stat) : ∃ counted, zramIncStat second cpu stat = some counted ∧
    Alike first counted := by
  obtain ⟨counters, here⟩ := Option.isSome_iff_exists.mp alike.counted.2
  exact ⟨_, zramAddStat_some here _ _ _, alike.xv, alike.table, alike.initDone, alike.counted.1, rfl⟩

theorem writeSegments_singles (alike : Alike first second) (allocations : InitAllocations) {sector : Nat}
    (singles : List (Segment Cpu × Placement Cpu))
    (small : sector / sectorsPerPage + singles.length ≤ 2 ^ 32)
    (nonzero : ∀ segment ∈ (singles.map Prod.fst).dropLast, pageZeroFilled segment.data = false) :
    Option.Rel SameOutcome (writeSegments lzo first (sector / sectorsPerPage) (singles.map Prod.fst))
    (writeSingles lzo second sector allocations singles) := by
  induction singles generalizing first second sector with
  | nil => exact .some ⟨alike, rfl, rfl⟩
  | cons single rest ih =>
    obtain ⟨segment, placement⟩ := single
    rw [List.length_cons] at small
    obtain ⟨counted, started, same⟩ := alike.inc (placement .numWrites) .numWrites
    have here : sector / sectorsPerPage % 2 ^ 32 = sector / sectorsPerPage := Nat.mod_eq_of_lt (by omega)
    have onwards : (sector + sectorsPerPage) / sectorsPerPage = sector / sectorsPerPage + 1 := Nat.add_div_right sector (by decide)
    have one : zramWrite lzo second sector [segment] allocations placement =
        writeSegments lzo counted (sector / sectorsPerPage) [segment] := by
      rw [zramWrite, if_pos alike.initDone.2, writeInitialised, started, Option.bind_some, here]
    have both : Option.Rel AlikeFlow (writeSegment lzo first (sector / sectorsPerPage) segment)
        (writeSegment lzo counted (sector / sectorsPerPage) segment) :=
      same.writeSegment ..
    rw [writeSingles, one, List.map_cons, writeSegments, writeSegments]
    cases written : writeSegment lzo first (sector / sectorsPerPage) segment with
    | none =>
      rw [written] at both
      generalize writeSegment lzo counted (sector / sectorsPerPage) segment = there at both
      cases both
      exact .none
    | some result =>
      obtain ⟨after, flow⟩ := result
      rw [written] at both
      generalize writeSegment lzo counted (sector / sectorsPerPage) segment = there at both
      cases both with
      | some same =>
        rename_i there
        obtain ⟨other, _⟩ := there
        obtain ⟨alike, rfl⟩ := same
        rcases rest with _ | ⟨next, more⟩
        · cases flow <;> exact .some ⟨alike, rfl, rfl⟩
        · rw [List.map_cons, List.map_cons, List.dropLast_cons_of_ne_nil (by simp)] at nonzero
          obtain ⟨mixed, later⟩ := List.forall_mem_cons.mp nonzero
          rw [List.length_cons] at small
          cases flow with
          | out => exact .some ⟨alike, rfl, rfl⟩
          | again =>
            obtain ⟨freed, _, stored⟩ := Option.bind_eq_some_iff.mp written
            rw [(storeSegment_flow stored).1 rfl] at mixed
            cases mixed
          | next =>
            have index : (sector / sectorsPerPage + 1) % 2 ^ 32 = (sector + sectorsPerPage) / sectorsPerPage := by
              rw [onwards]
              exact Nat.mod_eq_of_lt (by omega)
            have rest :
              Option.Rel SameOutcome (writeSegments lzo after ((sector + sectorsPerPage) / sectorsPerPage) ((next :: more).map Prod.fst))
                (writeSingles lzo other (sector + sectorsPerPage) allocations (next :: more)) :=
              ih alike (by rw [onwards, List.length_cons]; omega) later
            rw [← index] at rest
            exact rest

omit [DecidableEq Cpu] in
theorem Alike.readSegment (alike : Alike first second) (index : Nat) (page : PageData) :
    readSegment lzo second index page = readSegment lzo first index page := by
  unfold ZramScale.readSegment zramIsZeroPage handleUncompressedPage zramFindObj
  rw [alike.table, alike.xv]

theorem readSegments_singles (alike : Alike first second) {sector : Nat} (singles : List (PageData × Placement Cpu))
    (small : sector / sectorsPerPage + singles.length ≤ 2 ^ 32)
    (objects : ∀ position, position + 1 < singles.length → HoldsObject (first.table (sector / sectorsPerPage + position))) :
    Option.Rel SameOutcome ((readSegments lzo first (sector / sectorsPerPage) (singles.map Prod.fst)).map fun result =>
      ⟨first, result.1, result.2⟩)
      (readSingles lzo second sector singles) := by
  induction singles generalizing second sector with
  | nil => exact .some ⟨alike, rfl, rfl⟩
  | cons single rest ih =>
    obtain ⟨page, placement⟩ := single
    rw [List.length_cons] at small objects
    obtain ⟨counted, started, same⟩ := alike.inc (placement .numReads) .numReads
    have here : sector / sectorsPerPage % 2 ^ 32 = sector / sectorsPerPage := Nat.mod_eq_of_lt (by omega)
    have onwards : (sector + sectorsPerPage) / sectorsPerPage = sector / sectorsPerPage + 1 := Nat.add_div_right sector (by decide)
    have one : zramRead lzo second sector [page] placement =
        (readSegments lzo counted (sector / sectorsPerPage) [page]).map fun result => ⟨counted, result.1, result.2⟩ := by
      rw [zramRead, if_pos alike.initDone.2, started, Option.bind_some, here]
    rw [readSingles, one, List.map_cons, readSegments, readSegments, same.readSegment]
    cases served : ZramScale.readSegment lzo first (sector / sectorsPerPage) page with
    | none => exact .none
    | some result =>
      obtain ⟨flow, shown⟩ := result
      rcases rest with _ | ⟨next, more⟩
      · cases flow <;> exact .some ⟨same, rfl, rfl⟩
      · rw [List.length_cons] at small objects
        cases flow with
        | out => exact .some ⟨same, rfl, rfl⟩
        | again => exact absurd (objects 0 (by omega)) ((readSegment_again (by omega) served).mp rfl)
        | next =>
          have index : (sector / sectorsPerPage + 1) % 2 ^ 32 = (sector + sectorsPerPage) / sectorsPerPage := by
            rw [onwards]
            exact Nat.mod_eq_of_lt (by omega)
          have later : Option.Rel SameOutcome
              ((readSegments lzo first ((sector + sectorsPerPage) / sectorsPerPage) ((next :: more).map Prod.fst)).map fun result =>
                ⟨first, result.1, result.2⟩)
              (readSingles lzo counted (sector + sectorsPerPage) (next :: more)) :=
                  ih same (by rw [onwards, List.length_cons]; omega) fun position inside => by
            have object := objects (position + 1) (by simpa using inside)
            rwa [Nat.add_comm position 1, ← Nat.add_assoc, ← onwards] at object
          rw [← index] at later
          show Option.Rel SameOutcome
            (((readSegments lzo first ((sector / sectorsPerPage + 1) % 2 ^ 32) ((next :: more).map Prod.fst)).map fun others =>
              (others.1, shown :: others.2)).map fun result => ⟨first, result.1, result.2⟩)
            ((readSingles lzo counted (sector + sectorsPerPage) (next :: more)).map fun others =>
              ⟨others.zram, others.ok, [shown] ++ others.pages⟩)
          generalize readSegments lzo first ((sector / sectorsPerPage + 1) % 2 ^ 32) ((next :: more).map Prod.fst) = whole at later
          generalize readSingles lzo counted (sector + sectorsPerPage) (next :: more) = single at later
          cases whole <;> cases later
          · exact .none
          · rename_i same
            exact .some ⟨same.alike, same.ok, congrArg (List.cons shown) same.pages⟩

variable {zram counted : Zram Cpu} {sector : Nat} {placement : Placement Cpu}

theorem zramWrite_singles (initDone : zram.initDone = true) (started : zramIncStat zram (placement .numWrites) .numWrites = some counted)
    (allocations : InitAllocations) (singles : List (Segment Cpu × Placement Cpu))
    (short : (Bio.write sector (singles.map Prod.fst) allocations placement).Short)
    (continues : (Bio.write sector (singles.map Prod.fst) allocations placement).Continues zram) :
    Option.Rel SameOutcome (zramWrite lzo zram sector (singles.map Prod.fst) allocations placement)
    (writeSingles lzo zram sector allocations singles) := by
  have alike : Alike counted zram := by
    obtain ⟨counters, here, rfl⟩ := Option.map_eq_some_iff.mp started
    exact ⟨rfl, rfl, ⟨initDone, initDone⟩, rfl, Option.isSome_iff_exists.mpr ⟨counters, here⟩⟩
  rw [zramWrite, if_pos initDone, writeInitialised, started, Option.bind_some]
  rcases Nat.eq_zero_or_pos singles.length with none_ | some_
  · obtain rfl := List.eq_nil_of_length_eq_zero none_
    exact .some ⟨alike, rfl, rfl⟩
  · have most : sector / sectorsPerPage + singles.length ≤ 2 ^ 32 := by
      simp only [Bio.Short, Bio.size, Bio.sector, List.length_map, Nat.mul_div_cancel _ (show 0 < pageSize by decide)] at short
      exact short (Nat.ne_of_gt some_)
    rw [Nat.mod_eq_of_lt (by omega)]
    exact writeSegments_singles alike allocations singles most continues

theorem zramRead_singles (initDone : zram.initDone = true) (started : zramIncStat zram (placement .numReads) .numReads = some counted)
    (singles : List (PageData × Placement Cpu)) (short : (Bio.read sector (singles.map Prod.fst) placement).Short)
    (continues : (Bio.read sector (singles.map Prod.fst) placement).Continues zram) :
    Option.Rel SameOutcome (zramRead lzo zram sector (singles.map Prod.fst) placement) (readSingles lzo zram sector singles) := by
  have table : counted.table = zram.table := zramAddStat_table started
  have alike : Alike counted zram := by
    obtain ⟨counters, here, rfl⟩ := Option.map_eq_some_iff.mp started
    exact ⟨rfl, rfl, ⟨initDone, initDone⟩, rfl, Option.isSome_iff_exists.mpr ⟨counters, here⟩⟩
  rw [zramRead, if_pos initDone, started, Option.bind_some]
  rcases Nat.eq_zero_or_pos singles.length with none_ | some_
  · obtain rfl := List.eq_nil_of_length_eq_zero none_
    exact .some ⟨alike, rfl, rfl⟩
  · have most : sector / sectorsPerPage + singles.length ≤ 2 ^ 32 := by
      simp only [Bio.Short, Bio.size, Bio.sector, List.length_map, Nat.mul_div_cancel _ (show 0 < pageSize by decide)] at short
      exact short (Nat.ne_of_gt some_)
    have objects (position : Nat) (inside : position + 1 < singles.length) :
        HoldsObject (counted.table (sector / sectorsPerPage + position)) := by
      rw [table]
      exact continues position (by rwa [List.length_map])
    rw [Nat.mod_eq_of_lt (by omega)]
    exact readSegments_singles alike singles most objects

/-- A request works on the entries it names, one for each page, and leaves what requests
of one page would. -/
structure ByPages (lzo : Lzo) (counted : Zram Cpu) (bio : Bio Cpu) (whole singles : Option (Completion Cpu)) : Prop where
  entries : bio.touched lzo counted = (List.range (bio.size / pageSize)).map (bio.sector / sectorsPerPage + ·)
  outcome : Option.Rel SameOutcome whole singles

variable [Fintype Cpu] {others : Finset Page} {bio : Bio Cpu} {whole singles : Option (Completion Cpu)}

/-- Where nothing fails, a request does so exactly if no page but the last holds its loop up. -/
theorem byPages_iff (inverts : lzo.Inverts) (reached : Reached lzo others zram) (initDone : zram.initDone = true)
    (started : bio.counted zram = some counted) (inside : bio.sector / sectorsPerPage + bio.size / pageSize ≤ zram.numPages) (low : bio.Low)
    (provided : bio.Provided lzo (others.card + zram.numPages))
    (outcome : bio.Short → bio.Continues zram → Option.Rel SameOutcome whole singles) :
    ByPages lzo counted bio whole singles ↔ bio.Short ∧ bio.Continues zram := by
  have table : counted.table = zram.table := by cases bio <;> exact zramAddStat_table started
  constructor
  · rintro ⟨entries, _⟩
    obtain ⟨short, unbroken⟩ := (bio.touched_iff lzo counted).mp entries
    exact ⟨short, (Bio.continues_of_unbroken short unbroken).congr table.symm⟩
  · rintro ⟨short, continues⟩
    obtain ⟨slots, held, disk, sound, pages⟩ := reached.started initDone started
    rw [← pages] at inside provided
    exact ⟨(bio.touched_iff lzo counted).mpr ⟨short, sound.unbroken inverts inside short low provided (continues.congr table)⟩,
      outcome short continues⟩

/-- On any initialised device, a request of several pages does what it says exactly if
its pages have numbers of 32 bits and none but the last holds the loop up, as long as
nothing fails; what fails cuts it short where it would requests of one page. In any case it
changes no entries but those it works on, and serves its pages from them. -/
theorem pages_one_by_one (inverts : lzo.Inverts) (reached : Reached lzo others zram) (initDone : zram.initDone = true)
    (started : bio.counted zram = some counted) :
    (∀ {sector singles allocations placement}, bio = .write sector (singles.map Prod.fst) allocations placement →
      (bio.sector / sectorsPerPage + bio.size / pageSize ≤ zram.numPages → bio.Low → bio.Provided lzo (others.card + zram.numPages) →
        (ByPages lzo counted bio (zramWrite lzo zram sector (singles.map Prod.fst) allocations placement)
          (writeSingles lzo zram sector allocations singles) ↔
          bio.Short ∧ bio.Continues zram)) ∧
      (bio.Short → bio.Continues zram →
        bio.touched lzo counted <+: (List.range (bio.size / pageSize)).map (bio.sector / sectorsPerPage + ·) ∧
        Option.Rel SameOutcome (zramWrite lzo zram sector (singles.map Prod.fst) allocations placement)
          (writeSingles lzo zram sector allocations singles)) ∧
      ∀ completion, zramWrite lzo zram sector (singles.map Prod.fst) allocations placement = some completion →
        ∀ other, other ∉ bio.touched lzo counted → completion.zram.table other = zram.table other) ∧
    ∀ {sector singles placement}, bio = .read sector (singles.map Prod.fst) placement →
      (bio.sector / sectorsPerPage + bio.size / pageSize ≤ zram.numPages →
        (ByPages lzo counted bio (zramRead lzo zram sector (singles.map Prod.fst) placement) (readSingles lzo zram sector singles) ↔
          bio.Short ∧ bio.Continues zram)) ∧
      ∀ completion : Completion Cpu, zramRead lzo zram sector (singles.map Prod.fst) placement = some completion →
        ∀ {position entry : Nat}, (bio.touched lzo counted)[position]? = some entry →
          completion.pages[position]? = (singles.map Prod.fst)[position]?.bind fun page =>
            (readSegment lzo zram entry page).map Prod.snd := by
  constructor
  · rintro sector singles allocations placement rfl
    have recounted : zramIncStat zram (placement .numWrites) .numWrites = some counted := started
    refine ⟨fun inside low provided => byPages_iff inverts reached initDone started inside low provided
        (zramWrite_singles initDone recounted allocations singles),
      fun short continues => ⟨Bio.touched_prefix short (continues.congr (Bio.counted_table started)),
        zramWrite_singles initDone recounted allocations singles short continues⟩, fun completion ended other elsewhere => ?_⟩
    rw [zramWrite, if_pos initDone, writeInitialised, recounted, Option.bind_some] at ended
    rw [writeSegments_elsewhere ended (Nat.mod_lt _ (by decide)) elsewhere, zramAddStat_table recounted]
  · rintro sector singles placement rfl
    have recounted : zramIncStat zram (placement .numReads) .numReads = some counted := started
    refine ⟨fun inside => byPages_iff inverts reached initDone started inside trivial trivial (zramRead_singles initDone recounted singles),
      fun completion ended position entry visits => ?_⟩
    rw [zramRead, if_pos initDone, recounted, Option.bind_some] at ended
    obtain ⟨result, served, rfl⟩ := Option.map_eq_some_iff.mp ended
    obtain ⟨counters, here, rfl⟩ := Option.map_eq_some_iff.mp recounted
    have shown := readSegments_served served visits
    exact shown

end Singles

section Sample
local instance singlesArch : Arch := Arch.x64

/-- A write of a page that compresses and a page of zeros, and a read of two objects. -/
theorem pages_one_by_one_sample : ∃ session : Session Unit, session.disk 0 = some (PageData.filled 5) ∧
    session.disk 1 = some (PageData.filled 8) ∧
    (∃ counted, ByPages Lzo.runs counted (.write 0 [pageOf 7, pageOf 0] granted anywhere)
      (zramWrite Lzo.runs session.zram 0 [pageOf 7, pageOf 0] granted anywhere)
      (writeSingles Lzo.runs session.zram 0 granted [(pageOf 7, anywhere), (pageOf 0, anywhere)])) ∧
    ∃ counted, ByPages Lzo.runs counted (.read 0 [PageData.zeros, PageData.zeros] anywhere)
      (zramRead Lzo.runs session.zram 0 [PageData.zeros, PageData.zeros] anywhere)
      (readSingles Lzo.runs session.zram 0 [(PageData.zeros, anywhere), (PageData.zeros, anywhere)]) := by
  obtain ⟨session, reached, ready, sized, object, shown, there⟩ := pairDisk
  have pages : session.zram.numPages = 2 := by
    rw [Zram.numPages, sized]
    rfl
  have named (bio : Bio Unit) (member : bio ∈ pairBios) : bio.sector / sectorsPerPage + bio.size / pageSize ≤ session.zram.numPages ∧
    bio.Short ∧
      bio.Low ∧ bio.Provided Lzo.runs ((∅ : Finset Page).card + session.zram.numPages) ∧ bio.Continues session.zram := by
    obtain ⟨sector, size, low, provided, continues⟩ := pairBios_provided object bio member
    rw [Bio.Short, sector, size, pages]
    exact ⟨by decide, fun _ => by decide, low, provided, continues⟩
  refine ⟨session, shown, there, ?_, ?_⟩
  · obtain ⟨inside, short, low, provided, continues⟩ := named (.write 0 [pageOf 7, pageOf 0] granted anywhere) (by simp [pairBios])
    obtain ⟨counted, _, _, _, started, _⟩ := reached.counted ready (.write 0 [pageOf 7, pageOf 0] granted anywhere)
    obtain ⟨writes, _⟩ := pages_one_by_one Lzo.runs_inverts reached ready started
    obtain ⟨byPages, _⟩ :=
      writes (show _ = Bio.write 0 ([(pageOf 7, anywhere), (pageOf 0, anywhere)].map Prod.fst) granted anywhere from rfl)
    exact ⟨counted, (byPages inside low provided).mpr ⟨short, continues⟩⟩
  · obtain ⟨inside, short, _, _, continues⟩ := named (.read 0 [PageData.zeros, PageData.zeros] anywhere) (by simp [pairBios])
    obtain ⟨counted, _, _, _, started, _⟩ := reached.counted ready (.read 0 [PageData.zeros, PageData.zeros] anywhere)
    obtain ⟨_, reads⟩ := pages_one_by_one Lzo.runs_inverts reached ready started
    obtain ⟨byPages, _⟩ :=
      reads (show _ = Bio.read 0 ([(PageData.zeros, anywhere), (PageData.zeros, anywhere)].map Prod.fst) anywhere from rfl)
    exact ⟨counted, (byPages inside).mpr ⟨short, continues⟩⟩

def zerosSegment : Segment Unit := ⟨PageData.zeros, firstPage, true, anywhere, anywhere⟩

/-- Two pages of zeros are written, or two absent pages read: the first leaves the
body of the loop before the index moves on, and the second works on its entry. Requests
of one page mark both entries, one request of two pages marks the first. -/
theorem pages_out_of_step : Run (step Lzo.literal) Admissible sampleStart sampleReady ∧ sampleReady.initDone = true ∧
    validIoRequest sampleReady (.write 0 [zerosSegment, zerosSegment] granted anywhere) = true ∧
    validIoRequest sampleReady (.read 0 [PageData.noise, PageData.noise] anywhere) = true ∧
    (∃ counted, zramIncStat sampleReady (anywhere .numWrites) .numWrites = some counted ∧
      (Bio.write 0 [zerosSegment, zerosSegment] granted anywhere).touched Lzo.literal counted = [0, 0]) ∧
    (∃ counted, zramIncStat sampleReady (anywhere .numReads) .numReads = some counted ∧
      (Bio.read 0 [PageData.noise, PageData.noise] anywhere).touched Lzo.literal counted = [0, 0]) ∧
    (zramWrite Lzo.literal sampleReady 0 [zerosSegment, zerosSegment] granted anywhere).map
      (fun completion => (completion.ok, completion.zram.table 1)) =
      some (true, 0) ∧
    (writeSingles Lzo.literal sampleReady 0 granted [(zerosSegment, anywhere), (zerosSegment, anywhere)]).map
      (fun completion => (completion.ok, completion.zram.table 1)) = some (true, 1) :=
  ⟨sampleReady_run _, rfl, by decide +kernel, by decide +kernel, ⟨_, rfl, by decide +kernel⟩, ⟨_, rfl, by decide +kernel⟩,
    by decide +kernel, by decide +kernel⟩

end Sample
end Compcache.ZramScale
