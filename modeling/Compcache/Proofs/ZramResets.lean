import Compcache.Library.Parties
import Compcache.Proofs.ZramInit
import Compcache.ZramSteps

/-! Resets while requests are in flight. A request looks at `init_done` once; a
reset takes the table and the pool away without asking who is still using them. -/

namespace Compcache.ZramSteps
open Library.PagedMemory Library.Runs Library.Parties Xvmalloc
open ZramDrv (Zram Entry Bio InitAllocations validIoRequest sectorsPerPage initSection)

section Resets
variable [Arch]

/-- A request past its look at `init_done`, on the table. -/
def Code.inside : Code → Bool
  | checkInit _ | initDevice _ _ | resetBegin _ | resetEntries _ _ | resetTable _ | resetPool _ | resetEnd _ | done _ _ => false
  | _ => true

/-- The table and the pool go only when nobody is inside, and slots are freed only on
an initialised device. -/
def Machine.Unhurried (machine : Machine) : Action → Prop
  | .advance thread =>
    match machine.threads.lookup thread with
    | some ⟨_, .resetTable _⟩ | some ⟨_, .resetPool _⟩ =>
      ∀ other found, machine.threads.lookup other = some found → found.code.inside = false
    | _ => True
  | .notify _ _ => machine.zram.initDone = true
  | _ => True

/-- What is left once the device is known to be initialised: accesses, and an end. -/
inductive Code.Plain : Code → Prop
  | arrive {index : Nat} {updates : Bool} {next : Code} (rest : next.Plain) : Plain (.arrive index updates next)
  | leave {outcome : Outcome} {next : Code} (rest : next.Plain) : Plain (.leave outcome next)
  | loadPage {index : Nat} {next : Page → Code} (rest : ∀ page, (next page).Plain) : Plain (.loadPage index next)
  | loadOffset {index : Nat} {next : Nat → Code} (rest : ∀ offset, (next offset).Plain) : Plain (.loadOffset index next)
  | testFlag {index : Nat} {flag : Flag} {next : Bool → Code} (rest : ∀ set, (next set).Plain) : Plain (.testFlag index flag next)
  | storePage {index : Nat} {page : Page} {next : Code} (rest : next.Plain) : Plain (.storePage index page next)
  | storeOffset {index offset : Nat} {next : Code} (rest : next.Plain) : Plain (.storeOffset index offset next)
  | storeFlag {index : Nat} {flag : Flag} {value : Bool} {next : Code} (rest : next.Plain) : Plain (.storeFlag index flag value next)
  | allocPage {allocator : PageAllocator} {next : Option Page → Code} (rest : ∀ page, (next page).Plain) : Plain (.allocPage allocator next)
  | freePage {page : Page} {next : Code} (rest : next.Plain) : Plain (.freePage page next)
  | xvMalloc {index size : Nat} {allocator : PageAllocator} {next : Int → Nat → Code} (rest : ∀ ret offset, (next ret offset).Plain) :
      Plain (.xvMalloc index size allocator next)
  | xvFree {page : Page} {offset : Nat} {next : Code} (rest : next.Plain) : Plain (.xvFree page offset next)
  | copyIn {page : Page} {offset : Nat} {src : List UInt8} {next : Code} (rest : next.Plain) : Plain (.copyIn page offset src next)
  | copyOut {page : Page} {offset : Nat} {next : PageData → Code} (rest : ∀ data, (next data).Plain) : Plain (.copyOut page offset next)
  | decompress {page : Page} {offset : Nat} {next : Bool → List UInt8 → Code} (rest : ∀ ok bytes, (next ok bytes).Plain) :
      Plain (.decompress page offset next)
  | lock {next : Code} (rest : next.Plain) : Plain (.lock next)
  | unlock {next : Code} (rest : next.Plain) : Plain (.unlock next)
  | done {ok : Bool} {pages : List PageData} : Plain (.done ok pages)

section Plain
variable {next failed : Code}

theorem zramFreePage_plain (index : Nat) (rest : next.Plain) : (zramFreePage index next).Plain := by
  have forgotten : (forget index next).Plain := .storePage (.storeOffset rest)
  refine .loadPage fun page => .loadOffset fun offset => ?_
  split
  next => exact .testFlag fun zero => by split; exacts [.storeFlag rest, rest]
  next => exact .testFlag fun uncompressed => by split; exacts [.freePage (.storeFlag forgotten), .xvFree forgotten]

theorem memstore_plain (index offset : Nat) (src : List UInt8) (rest : next.Plain) : (memstore index offset src next).Plain :=
  .storeOffset (.loadPage fun _ => .loadOffset fun _ => .copyIn (.testFlag fun _ => .unlock rest))

theorem releaseSlot_plain (index : Nat) (rest : next.Plain) : (releaseSlot index next).Plain := by
  have frees := zramFreePage_plain index rest
  refine .loadPage fun page => ?_
  split
  next => exact frees
  next => exact .testFlag fun zero => by split; exacts [frees, rest]

theorem writeSegment_plain (lzo : Lzo) (index : Nat) (data : PageData) (allocator : PageAllocator) (rest : next.Plain)
    (gone : failed.Plain) :
    (writeSegment lzo index data allocator next failed).Plain := by
  refine releaseSlot_plain index (.lock ?_)
  split
  next => exact .unlock (.storeFlag rest)
  split
  next => exact .unlock gone
  split
  next =>
    refine .allocPage fun page => ?_
    cases page with
    | none => exact .unlock gone
    | some page => exact .storeFlag (.storePage (memstore_plain _ _ _ rest))
  next =>
    refine .storePage (.xvMalloc fun ret offset => ?_)
    split
    next => exact .unlock gone
    next => exact memstore_plain _ _ _ rest

theorem writeSegments_plain (lzo : Lzo) (index : Nat) (segments : List (PageData × PageAllocator)) :
    (writeSegments lzo index segments).Plain := by
  induction segments generalizing index with
  | nil => exact .done
  | cons segment rest ih => exact .arrive (writeSegment_plain _ _ _ _ (.leave (ih _)) (.leave .done))

theorem readSegment_plain (index : Nat) (page : PageData) {next failed : PageData → Code} (rest : ∀ shown, (next shown).Plain)
    (gone : ∀ shown, (failed shown).Plain) : (readSegment index page next failed).Plain := by
  refine .testFlag fun zero => ?_
  split
  next => exact rest _
  refine .loadPage fun first => ?_
  split
  next => exact rest _
  refine .testFlag fun uncompressed => .loadPage fun frame => .loadOffset fun offset => ?_
  split
  next => exact .copyOut rest
  next => exact .decompress fun ok bytes => by split; exacts [rest _, gone _]

theorem readSegments_plain (index : Nat) (served pages : List PageData) : (readSegments index served pages).Plain := by
  induction pages generalizing index served with
  | nil => exact .done
  | cons page rest ih => exact .arrive (readSegment_plain _ _ (fun _ => .leave (ih _ _)) fun _ => .done)

theorem discardPages_plain (index npages : Nat) : (discardPages index npages).Plain := by
  induction npages generalizing index with
  | zero => exact .done
  | succ npages ih => exact .arrive (zramFreePage_plain _ (.leave (ih _)))

end Plain

def Code.resetting : Code → Bool
  | resetEntries _ _ | resetTable _ | resetPool _ | resetEnd _ => true
  | _ => false

def Code.emptying : Code → Bool
  | resetPool _ | resetEnd _ => true
  | _ => false

/-- What is left of any request, from before its look at `init_done` to its end. -/
inductive Code.Staged : Code → Prop
  | plain {code : Code} (rest : code.Plain) : Staged code
  | check {next : Bool → Code} (all : ∀ ready, (next ready).Staged) (outside : (next false).inside = false)
      (calm : ∀ ready, (next ready).resetting = false) : Staged (.checkInit next)
  | boot {allocations : InitAllocations} {next : Int → Code} (all : ∀ ret, (next ret).Staged)
    (outside : ∀ ret ≠ 0, (next ret).inside = false)
      (calm : ∀ ret, (next ret).resetting = false) : Staged (.initDevice allocations next)
  | resetBegin (ok : Bool) : Staged (zramResetDevice (.done ok []))
  | resetEntries (index : Nat) (ok : Bool) : Staged (.resetEntries index (.resetTable (.resetPool (.resetEnd (.done ok [])))))
  | resetTable (ok : Bool) : Staged (.resetTable (.resetPool (.resetEnd (.done ok []))))
  | resetPool (ok : Bool) : Staged (.resetPool (.resetEnd (.done ok [])))
  | resetEnd (ok : Bool) : Staged (.resetEnd (.done ok []))

theorem Code.Plain.not_resetting {code : Code} (plain : code.Plain) : code.resetting = false := by
  cases plain <;> rfl

theorem bioCode_staged (lzo : Lzo) (bio : Bio) : (bioCode lzo bio).Staged := by
  have check {body finish : Code} (plain : body.Plain) (ends : finish.Staged) (outside : finish.inside = false)
    (calm : finish.resetting = false) :
      Code.Staged (.checkInit fun ready => if ready then body else finish) := by
    refine .check (fun ready => ?_) outside fun ready => ?_
    · cases ready
      · exact ends
      · exact .plain plain
    · cases ready
      · exact calm
      · exact plain.not_resetting
  cases bio with
  | read sector pages => exact check (readSegments_plain ..) (.plain .done) rfl rfl
  | write sector segments allocations =>
    have body := writeSegments_plain lzo (sector / sectorsPerPage % 2 ^ 32) segments
    refine check body (.boot (fun ret => ?_) (fun ret failed => ?_) fun ret => ?_) rfl rfl
    · split
      next => exact .plain body
      next => exact .resetBegin false
    · rw [if_neg failed]
      rfl
    · split
      next => exact body.not_resetting
      next => rfl
  | discard sector size => exact check (discardPages_plain ..) (.plain .done) rfl rfl

/-- What accesses to pages leave alone. -/
structure Kept (zram after : Zram) : Prop where
  initDone : after.initDone = zram.initDone
  tableAddress : after.tableAddress = zram.tableAddress
  memPool : after.memPool = zram.memPool

theorem Kept.refl (zram : Zram) : Kept zram zram := ⟨rfl, rfl, rfl⟩

/-- Requests know that there is a table and a pool while they are inside, and a reset
that has taken the table away is alone. -/
structure Guarded (machine : Machine) : Prop where
  staged : ∀ {thread found}, machine.threads.lookup thread = some found → found.code.Staged
  ready : machine.zram.initDone = true → machine.zram.tableAddress ≠ 0 ∧ machine.zram.memPool ≠ 0
  served : ∀ {thread found}, machine.threads.lookup thread = some found → found.code.inside = true →
    machine.zram.tableAddress ≠ 0 ∧ machine.zram.memPool ≠ 0
  quiet : machine.initLock = none → machine.zram.initDone = false →
    ∀ {thread found}, machine.threads.lookup thread = some found → found.code.inside = false
  locked : ∀ {holder}, machine.initLock = some holder → machine.zram.initDone = false
  owner : ∀ {thread found}, machine.threads.lookup thread = some found → found.code.resetting = true → machine.initLock = some thread
  alone : ∀ {thread found}, machine.threads.lookup thread = some found → found.code.emptying = true →
    ∀ {other there}, machine.threads.lookup other = some there → there.code.inside = false

theorem Code.emptying_resetting {code : Code} (emptying : code.emptying = true) : code.resetting = true := by
  cases code <;> first | rfl | cases emptying

section Steps
variable {lzo : Lzo} {machine after : Machine} {thread : Nat} {place there : Option (Nat × Bool)} {code next : Code}

theorem initSection_ready {zram : Zram} {allocations : InitAllocations}
    (ready : zram.initDone = true → zram.tableAddress ≠ 0 ∧ zram.memPool ≠ 0)
    (success : (initSection zram allocations).1.initDone = true) :
    (initSection zram allocations).1.tableAddress ≠ 0 ∧ (initSection zram allocations).1.memPool ≠ 0 := by
  unfold initSection at success ⊢
  split
  next done => exact ready done
  next idle =>
    rw [if_neg idle] at success
    dsimp only at success ⊢
    split
    next none_ =>
      rw [if_pos none_] at success
      exact absurd success (by simpa [ZramDrv.zramSetDisksize] using idle)
    next workmem =>
      rw [if_neg workmem] at success
      split
      next none_ =>
        rw [if_pos none_] at success
        exact absurd success (by simpa [ZramDrv.zramSetDisksize] using idle)
      next buffer =>
        rw [if_neg buffer] at success
        split
        next none_ =>
          rw [if_pos none_] at success
          exact absurd success (by simpa [ZramDrv.zramSetDisksize] using idle)
        next table =>
          rw [if_neg table] at success
          split
          next none_ =>
            rw [if_pos none_] at success
            exact absurd success (by simpa [ZramDrv.zramSetDisksize] using idle)
          next pool => exact ⟨table, pool⟩

/-- An access to a page moves its request on, or ends it, and leaves the rest alone. -/
theorem advance_plain (plain : code.Plain) (taken : machine.advance lzo thread place code = some after) :
    Kept machine.zram after.zram ∧ after.initLock = machine.initLock ∧
    ((code.inside = true ∧ ∃ there next, Code.Plain next ∧ after.threads = machine.threads.insert thread ⟨there, next⟩) ∨
      after.threads = machine.threads.erase thread) := by
  cases plain with
  | done =>
    cases taken
    exact ⟨.refl _, rfl, .inr rfl⟩
  | xvFree rest | freePage rest =>
    obtain ⟨xv, _, rfl⟩ := Option.map_eq_some_iff.mp taken
    exact ⟨⟨rfl, rfl, rfl⟩, rfl, .inl ⟨rfl, _, _, rest, rfl⟩⟩
  | allocPage rest =>
    simp only [Machine.advance] at taken
    split at taken
    all_goals
      cases taken
      exact ⟨⟨rfl, rfl, rfl⟩, rfl, .inl ⟨rfl, _, _, rest _, rfl⟩⟩
  | lock rest =>
    simp only [Machine.advance] at taken
    split at taken
    next =>
      cases taken
      exact ⟨.refl _, rfl, .inl ⟨rfl, _, _, rest, rfl⟩⟩
    next => cases taken
  | arrive rest | leave rest | storePage rest | storeOffset rest | storeFlag rest | copyIn rest | unlock rest =>
    cases taken
    exact ⟨⟨rfl, rfl, rfl⟩, rfl, .inl ⟨rfl, _, _, rest, rfl⟩⟩
  | loadPage rest | loadOffset rest | testFlag rest | xvMalloc rest | copyOut rest | decompress rest =>
    cases taken
    first
      | exact ⟨⟨rfl, rfl, rfl⟩, rfl, .inl ⟨rfl, _, _, rest _, rfl⟩⟩
      | exact ⟨⟨rfl, rfl, rfl⟩, rfl, .inl ⟨rfl, _, _, rest _ _, rfl⟩⟩

/-- A request that is not a reset under way moves on, where it is allowed to be. -/
theorem Guarded.move (guarded : Guarded machine) (kept : Kept machine.zram after.zram) (lock : after.initLock = machine.initLock)
    (moved : after.threads = machine.threads.insert thread ⟨there, next⟩) (staged : next.Staged) (resetting : next.resetting = false)
    (allowed : next.inside = true → (machine.zram.initDone = true) ∨
      ∃ found, machine.threads.lookup thread = some found ∧ found.code.inside = true) : Guarded after := by
  have open_ (inside : next.inside = true) : machine.zram.tableAddress ≠ 0 ∧ machine.zram.memPool ≠ 0 := by
    rcases allowed inside with done | ⟨found, here, within⟩
    · exact guarded.ready done
    · exact guarded.served here within
  have notEmptying : next.emptying = false := by
    by_contra emptying
    rw [Bool.not_eq_false] at emptying
    rw [Code.emptying_resetting emptying] at resetting
    cases resetting
  refine ⟨fun here => ?_, fun done => ?_, fun here inside => ?_, fun unlocked idle => ?_, fun held => ?_, fun {another _} here reset => ?_,
    fun {another _} here emptying => ?_⟩
  · rw [moved] at here
    exact forall_insert (fun found => found.code.Staged) guarded.staged staged here
  · rw [kept.tableAddress, kept.memPool]
    exact guarded.ready (kept.initDone.symm.trans done)
  · rw [kept.tableAddress, kept.memPool]
    rw [moved] at here
    exact forall_insert (fun found => found.code.inside = true → machine.zram.tableAddress ≠ 0 ∧ machine.zram.memPool ≠ 0) guarded.served
      open_ here inside
  · rw [lock] at unlocked
    rw [kept.initDone] at idle
    intro other found here
    rw [moved] at here
    refine forall_insert (fun found => found.code.inside = false) (guarded.quiet unlocked idle) ?_ here
    by_contra inside
    rw [Bool.not_eq_false] at inside
    rcases allowed inside with done | ⟨found, here, within⟩
    · rw [idle] at done
      cases done
    · rw [guarded.quiet unlocked idle here] at within
      cases within
  · rw [lock] at held
    rw [kept.initDone]
    exact guarded.locked held
  · rw [lock]
    rw [moved] at here
    rcases Classical.em (another = thread) with rfl | elsewhere
    · rw [AList.lookup_insert, Option.some.injEq] at here
      rw [← here, resetting] at reset
      cases reset
    · rw [AList.lookup_insert_ne elsewhere] at here
      exact guarded.owner here reset
  · rw [moved] at here ⊢
    intro other found standing
    rcases Classical.em (another = thread) with rfl | elsewhere
    · rw [AList.lookup_insert, Option.some.injEq] at here
      rw [← here, notEmptying] at emptying
      cases emptying
    · rw [AList.lookup_insert_ne elsewhere] at here
      refine forall_insert (fun found => found.code.inside = false) (guarded.alone here emptying) ?_ standing
      by_contra inside
      rw [Bool.not_eq_false] at inside
      rcases allowed inside with done | ⟨found, standing, within⟩
      · have idle := guarded.locked (guarded.owner here (Code.emptying_resetting emptying))
        rw [idle] at done
        cases done
      · rw [guarded.alone here emptying standing] at within
        cases within

theorem Guarded.leave (guarded : Guarded machine) (kept : Kept machine.zram after.zram) (lock : after.initLock = machine.initLock)
    (moved : after.threads = machine.threads.erase thread) : Guarded after := by
  have still {other : Nat} {found : Thread} (here : after.threads.lookup other = some found) :
      machine.threads.lookup other = some found := by
    rw [moved] at here
    rcases Classical.em (other = thread) with rfl | elsewhere
    · rw [AList.lookup_erase] at here
      cases here
    · rwa [AList.lookup_erase_ne elsewhere] at here
  refine ⟨fun here => guarded.staged (still here), fun done => ?_, fun here inside => ?_, fun unlocked idle _ _ here => ?_, fun held => ?_,
    fun here reset => ?_, fun here emptying _ _ standing => guarded.alone (still here) emptying (still standing)⟩
  · rw [kept.tableAddress, kept.memPool]
    exact guarded.ready (kept.initDone.symm.trans done)
  · rw [kept.tableAddress, kept.memPool]
    exact guarded.served (still here) inside
  · exact guarded.quiet (lock.symm.trans unlocked) (kept.initDone.symm.trans idle) (still here)
  · rw [kept.initDone]
    exact guarded.locked (lock.symm.trans held)
  · rw [lock]
    exact guarded.owner (still here) reset

theorem lookup_onTo {other : Nat} {found : Thread} (here : (machine.onTo thread place next).threads.lookup other = some found) :
    (other = thread ∧ found = ⟨place, next⟩) ∨ (other ≠ thread ∧ machine.threads.lookup other = some found) := by
  rcases Classical.em (other = thread) with rfl | elsewhere
  · exact .inl ⟨rfl, (Option.some.inj ((AList.lookup_insert ..).symm.trans here)).symm⟩
  · exact .inr ⟨elsewhere, (AList.lookup_insert_ne elsewhere).symm.trans here⟩

theorem Guarded.no_reset (guarded : Guarded machine) (unlocked : machine.initLock = none) {other : Nat} {found : Thread}
    (here : machine.threads.lookup other = some found) : found.code.resetting = false := by
  by_contra reset
  have held := guarded.owner here (by simpa using reset)
  rw [unlocked] at held
  cases held

theorem Guarded.boot (guarded : Guarded machine) (unlocked : machine.initLock = none) (allocations : InitAllocations) {next : Int → Code}
    (staged : ∀ ret, (next ret).Staged) (outside : ∀ ret ≠ 0, (next ret).inside = false) (resetting : ∀ ret, (next ret).resetting = false) :
    Guarded ((machine.withZram (initSection machine.zram allocations).1).onTo thread place
      (next (initSection machine.zram allocations).2)) := by
  rcases Bool.eq_false_or_eq_true machine.zram.initDone with done | idle
  · have same : initSection machine.zram allocations = (machine.zram, 0) := if_pos done
    rw [same]
    exact guarded.move (.refl _) rfl rfl (staged 0) (resetting 0) fun _ => .inl done
  have nobody {other : Nat} {found : Thread} (here : machine.threads.lookup other = some found) : found.code.inside = false :=
    guarded.quiet unlocked idle here
  have success (inside : (next (initSection machine.zram allocations).2).inside = true) :
      (initSection machine.zram allocations).1.initDone = true := by
    by_contra failed
    have nonzero : (initSection machine.zram allocations).2 ≠ 0 := fun zero => failed (ZramDrv.initSection_zero zero)
    rw [outside _ nonzero] at inside
    cases inside
  refine ⟨fun here => ?_, initSection_ready guarded.ready, fun here inside => ?_, fun _ failed other found here => ?_, fun held => ?_,
    fun here reset => ?_, fun here emptying => ?_⟩
  · rcases lookup_onTo here with ⟨rfl, rfl⟩ | ⟨_, old⟩
    · exact staged _
    · exact guarded.staged old
  · rcases lookup_onTo here with ⟨rfl, rfl⟩ | ⟨_, old⟩
    · exact initSection_ready guarded.ready (success inside)
    · rw [nobody old] at inside
      cases inside
  · rcases lookup_onTo here with ⟨rfl, rfl⟩ | ⟨_, old⟩
    · by_contra inside
      have done := success (by simpa using inside)
      rw [show (initSection machine.zram allocations).1.initDone = false from failed] at done
      cases done
    · exact nobody old
  · rw [show machine.initLock = some _ from held] at unlocked
    cases unlocked
  · rcases lookup_onTo here with ⟨rfl, rfl⟩ | ⟨_, old⟩
    · rw [resetting] at reset
      cases reset
    · rw [guarded.no_reset unlocked old] at reset
      cases reset
  · have reset := Code.emptying_resetting emptying
    rcases lookup_onTo here with ⟨rfl, rfl⟩ | ⟨_, old⟩
    · rw [resetting] at reset
      cases reset
    · rw [guarded.no_reset unlocked old] at reset
      cases reset

theorem Guarded.resume (guarded : Guarded machine) (here : machine.threads.lookup thread = some ⟨there, code⟩)
    (reset : code.resetting = true)
    {zram : Zram} (idle : zram.initDone = machine.zram.initDone)
    (same : Kept machine.zram zram ∨ ∀ other found, machine.threads.lookup other = some found → found.code.inside = false)
    (staged : next.Staged) (outside : next.inside = false)
    (alone : next.emptying = true → ∀ other found, machine.threads.lookup other = some found → found.code.inside = false) :
    Guarded ((machine.withZram zram).onTo thread place next) := by
  have held := guarded.owner here reset
  have notDone := guarded.locked held
  refine ⟨fun here => ?_, fun done => ?_, fun here inside => ?_, fun unlocked => ?_, fun _ => ?_, fun here again => ?_,
    fun here emptying other found standing => ?_⟩
  · rcases lookup_onTo here with ⟨rfl, rfl⟩ | ⟨_, old⟩
    · exact staged
    · exact guarded.staged old
  · rw [show zram.initDone = true from done, notDone] at idle
    cases idle
  · rcases lookup_onTo here with ⟨rfl, rfl⟩ | ⟨_, old⟩
    · rw [outside] at inside
      cases inside
    · rcases same with kept | nobody
      · show zram.tableAddress ≠ 0 ∧ zram.memPool ≠ 0
        rw [kept.tableAddress, kept.memPool]
        exact guarded.served old inside
      · rw [nobody _ _ old] at inside
        cases inside
  · rw [show machine.initLock = none from unlocked] at held
    cases held
  · exact idle.trans notDone
  · rcases lookup_onTo here with ⟨rfl, rfl⟩ | ⟨_, old⟩
    · exact held
    · exact guarded.owner old again
  · have nobody : ∀ other found, machine.threads.lookup other = some found → found.code.inside = false := by
      rcases lookup_onTo here with ⟨rfl, rfl⟩ | ⟨elsewhere, old⟩
      · exact alone emptying
      · have also := guarded.owner old (Code.emptying_resetting emptying)
        rw [held, Option.some.injEq] at also
        exact absurd also.symm elsewhere
    rcases lookup_onTo standing with ⟨rfl, rfl⟩ | ⟨_, old⟩
    · exact outside
    · exact nobody _ _ old

theorem Guarded.take (guarded : Guarded machine) (unlocked : machine.initLock = none) {zram : Zram} (idle : zram.initDone = false)
    (tableAddress : zram.tableAddress = machine.zram.tableAddress) (memPool : zram.memPool = machine.zram.memPool)
    (staged : next.Staged) (outside : next.inside = false) (early : next.emptying = false) :
    Guarded ({ machine with zram, initLock := some thread }.onTo thread place next) := by
  refine ⟨fun here => ?_, fun done => ?_, fun here inside => ?_, nofun, fun _ => idle, fun here reset => ?_, fun here emptying => ?_⟩
  · rcases lookup_onTo here with ⟨rfl, rfl⟩ | ⟨_, old⟩
    · exact staged
    · exact guarded.staged old
  · rw [show zram.initDone = true from done] at idle
    cases idle
  · rcases lookup_onTo here with ⟨rfl, rfl⟩ | ⟨_, old⟩
    · rw [outside] at inside
      cases inside
    · show zram.tableAddress ≠ 0 ∧ zram.memPool ≠ 0
      rw [tableAddress, memPool]
      exact guarded.served old inside
  · rcases lookup_onTo here with ⟨rfl, rfl⟩ | ⟨_, old⟩
    · rfl
    · rw [guarded.no_reset unlocked old] at reset
      cases reset
  · rcases lookup_onTo here with ⟨rfl, rfl⟩ | ⟨_, old⟩
    · rw [early] at emptying
      cases emptying
    · have reset := Code.emptying_resetting emptying
      rw [guarded.no_reset unlocked old] at reset
      cases reset

theorem Guarded.drop (guarded : Guarded machine) (here : machine.threads.lookup thread = some ⟨there, code⟩)
    (emptied : code.emptying = true)
    (zram : Zram) (idle : zram.initDone = machine.zram.initDone) (disk : Nat → Option PageData)
    (staged : next.Staged) (outside : next.inside = false) (resetting : next.resetting = false) :
    Guarded ({ machine with zram, initLock := none, disk }.onTo thread place next) := by
  have held := guarded.owner here (Code.emptying_resetting emptied)
  have notDone := guarded.locked held
  have nobody {other : Nat} {found : Thread} (standing : machine.threads.lookup other = some found) : found.code.inside = false :=
    guarded.alone here emptied standing
  have noReset {other : Nat} {found : Thread}
    (standing : ({ machine with zram, initLock := none, disk }.onTo thread place next).threads.lookup other = some found) :
      found.code.resetting = false := by
    rcases lookup_onTo standing with ⟨rfl, rfl⟩ | ⟨elsewhere, old⟩
    · exact resetting
    · by_contra reset
      have also := guarded.owner old (by simpa using reset)
      rw [held, Option.some.injEq] at also
      exact elsewhere also.symm
  have nobodyNow {other : Nat} {found : Thread}
    (standing : ({ machine with zram, initLock := none, disk }.onTo thread place next).threads.lookup other = some found) :
      found.code.inside = false := by
    rcases lookup_onTo standing with ⟨rfl, rfl⟩ | ⟨_, old⟩
    · exact outside
    · exact nobody old
  refine ⟨fun here => ?_, fun done => ?_, fun here inside => ?_, fun _ _ _ _ here => nobodyNow here, nofun, fun here reset => ?_,
    fun here emptying => ?_⟩
  · rcases lookup_onTo here with ⟨rfl, rfl⟩ | ⟨_, old⟩
    · exact staged
    · exact guarded.staged old
  · rw [show zram.initDone = true from done, notDone] at idle
    cases idle
  · rw [nobodyNow here] at inside
    cases inside
  · rw [noReset here] at reset
    cases reset
  · have reset := Code.emptying_resetting emptying
    rw [noReset here] at reset
    cases reset

theorem Guarded.step_disksize (guarded : Guarded machine) (value : Option Nat) :
    Guarded { machine with zram := ZramDrv.disksizeStore machine.zram value } := by
  have kept : Kept machine.zram (ZramDrv.disksizeStore machine.zram value) := by
    unfold ZramDrv.disksizeStore
    split
    next => exact .refl _
    next => cases value <;> exact ⟨rfl, rfl, rfl⟩
  refine ⟨guarded.staged, fun done => ?_, fun here inside => ?_, fun unlocked idle _ _ here => guarded.quiet unlocked
    (kept.initDone.symm.trans idle) here,
    fun held => kept.initDone.trans (guarded.locked held), guarded.owner, guarded.alone⟩
  · show (ZramDrv.disksizeStore machine.zram value).tableAddress ≠ 0 ∧ (ZramDrv.disksizeStore machine.zram value).memPool ≠ 0
    rw [kept.tableAddress, kept.memPool]
    exact guarded.ready (kept.initDone.symm.trans done)
  · show (ZramDrv.disksizeStore machine.zram value).tableAddress ≠ 0 ∧ (ZramDrv.disksizeStore machine.zram value).memPool ≠ 0
    rw [kept.tableAddress, kept.memPool]
    exact guarded.served here inside

/-- A thread goes on with its code. -/
theorem Guarded.step_advance (guarded : Guarded machine) (unhurried : machine.Unhurried (.advance thread))
    (taken : machine.step lzo (.advance thread) = some after) : Guarded after := by
  obtain ⟨⟨place, code⟩, here, moved⟩ := Option.bind_eq_some_iff.mp taken
  simp only [Machine.Unhurried, here] at unhurried
  dsimp only at moved
  split at moved
  next => cases moved
  next =>
    have staged : code.Staged := guarded.staged here
    cases staged with
    | plain plain =>
      obtain ⟨kept, lock, ⟨inside, there, next, rest, threads⟩ | threads⟩ := advance_plain plain moved
      · exact guarded.move kept lock threads (.plain rest) rest.not_resetting fun _ => .inr ⟨_, here, inside⟩
      · exact guarded.leave kept lock threads
    | check all outside calm =>
      rename_i next
      cases moved
      refine guarded.move (.refl _) rfl rfl (all _) (calm _) fun inside => .inl ?_
      by_contra idle
      rw [Bool.not_eq_true] at idle
      rw [idle, outside] at inside
      cases inside
    | boot all outside calm =>
      simp only [Machine.advance] at moved
      split at moved
      next unlocked =>
        cases moved
        exact guarded.boot unlocked _ all outside calm
      next => cases moved
    | resetBegin ok =>
      simp only [zramResetDevice, Machine.advance] at moved
      split at moved
      next unlocked =>
        cases moved
        exact guarded.take unlocked rfl rfl rfl (.resetEntries 0 ok) rfl rfl
      next => cases moved
    | resetEntries index ok =>
      simp only [Machine.advance] at moved
      split at moved
      next =>
        obtain ⟨zram, freed, rfl⟩ := Option.map_eq_some_iff.mp moved
        obtain ⟨xv, _, rfl⟩ := Option.map_eq_some_iff.mp freed
        exact guarded.resume here rfl rfl (.inl ⟨rfl, rfl, rfl⟩) (.resetEntries (index + 1) ok) rfl nofun
      next =>
        cases moved
        exact guarded.resume here rfl rfl (.inl (.refl _)) (.resetTable ok) rfl nofun
    | resetTable ok =>
      cases moved
      exact guarded.resume here rfl rfl (.inr unhurried) (.resetPool ok) rfl fun _ => unhurried
    | resetPool ok =>
      cases moved
      exact guarded.resume here rfl rfl (.inr unhurried) (.resetEnd ok) rfl fun _ => unhurried
    | resetEnd ok =>
      cases moved
      exact guarded.drop here rfl { machine.zram with stats := ZramDrv.Stats.zero, disksize := 0 } rfl _ (.plain .done) rfl rfl

/-- The step lemma. -/
theorem Guarded.step {action : Action} (guarded : Guarded machine) (unhurried : machine.Unhurried action)
    (taken : machine.step lzo action = some after) : Guarded after := by
  cases action with
  | submit thread bio =>
    simp only [Machine.step] at taken
    split at taken
    next =>
      cases taken
      have outside : (bioCode lzo bio).inside = false ∧ (bioCode lzo bio).resetting = false := by cases bio <;> exact ⟨rfl, rfl⟩
      refine guarded.move (.refl _) rfl rfl (bioCode_staged lzo bio) outside.2 fun inside => ?_
      rw [outside.1] at inside
      cases inside
    next => cases taken
  | notify thread index =>
    simp only [Machine.step] at taken
    split at taken
    next =>
      cases taken
      exact guarded.move (.refl _) rfl rfl (.plain (.arrive (zramFreePage_plain _ (.leave .done)))) rfl fun _ => .inl unhurried
    next => cases taken
  | reset thread =>
    simp only [Machine.step] at taken
    split at taken
    next =>
      cases taken
      refine guarded.move (.refl _) rfl rfl (.check (fun ready => ?_) rfl fun ready => ?_) rfl nofun
      · cases ready
        · exact .plain .done
        · exact .resetBegin true
      · cases ready <;> rfl
    next => cases taken
  | disksize value =>
    cases taken
    exact guarded.step_disksize value
  | advance thread => exact guarded.step_advance unhurried taken

end Steps

def Machine.create (xv : XvState) : Machine := ⟨ZramDrv.createDevice xv, ∅, none, none, fun _ => none⟩

end Resets

section Sample
local instance resetsArch : Arch := Arch.x64

/-- A disk of two pages, initialised by a first request, and a read at its first page. -/
def reading : List Action :=
  [.disksize (some 8192), .submit 1 (.write 0 [] ZramDrv.granted), .advance 1, .advance 1, .advance 1,
    .submit 2 (.read 0 [PageData.noise]), .advance 2, .advance 2]

end Sample
end Compcache.ZramSteps
