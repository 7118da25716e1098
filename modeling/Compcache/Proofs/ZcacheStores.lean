import Compcache.Proofs.XvmallocInverse
import Compcache.Proofs.ZcacheNodes

/-! A store whose `radix_tree_insert` fails. It gives the page of its object to the
kernel, and the object stays allocated in the pool. -/

namespace Compcache.Xvmalloc
variable [Arch] {others : Finset Page} {state : XvState} {live : LiveObjects} {layout : Layout} {lists : Nat → List Location}

theorem carve_head {page : Page} {low size origsize index : Nat} {block : Block} (valid : Heap state layout lists)
    (here : layout.block ⟨page, low⟩ = some block) (free : block.free = true) {rest : List Location}
    (listed : lists index = ⟨page, low⟩ :: rest)
    (fits : size ≤ block.size) (origin : align origsize xvAlign = size) (aligned : size % 4 = 0) :
    (carveBlock state index ⟨page, low⟩ size origsize).pool.freelist index ≠ state.pool.freelist index := by
  obtain ⟨newLists, heap, _, _, order, _⟩ := carveBlock_spec valid here free listed fits origin aligned
  have fresh : (⟨page, low⟩ : Location) ∉ rest := (List.nodup_cons.mp (listed ▸ valid.free.nodup index)).1
  have real : (⟨page, low⟩ : Location) ≠ Location.null := by
    rintro same
    exact valid.free.null_outside index (by rw [listed, same]; exact List.mem_cons_self)
  have behind : rest.headD Location.null ≠ ⟨page, low⟩ := by
    cases rest with
    | nil => exact real.symm
    | cons next others => exact fun same => fresh (by rw [← same]; exact List.mem_cons_self)
  rw [heap.free.heads, valid.free.heads, listed, List.headD_cons, order]
  split
  · rw [Function.update_self]
    exact behind
  · rw [enlist]
    split
    · rcases Classical.em (getIndexForInsert (block.size - size - xvAlign) = index) with same | elsewhere
      · rw [same, Function.update_self, List.headD_cons]
        intro same
        have offset := congrArg Location.offset same
        simp only [xvAlign_eq] at offset
        omega
      · rw [Function.update_of_ne (Ne.symm elsewhere), Function.update_self]
        exact behind
    · rw [Function.update_self]
      exact behind

theorem served_head {size index : Nat} (valid : Heap state layout lists) (nearest : Nearest lists (getIndex (align size xvAlign)) index) :
    (carveBlock state index (state.pool.freelist index) (align size xvAlign) size).pool.freelist index ≠ state.pool.freelist index := by
  obtain ⟨above, nonempty, _⟩ := nearest
  obtain ⟨head, rest, listed⟩ := List.exists_cons_of_ne_nil nonempty
  have headEq : state.pool.freelist index = head := by rw [valid.free.heads, listed, List.headD_cons]
  obtain ⟨_, block, here, free, large, rfl⟩ := (valid.listed index head).mp (by rw [listed]; exact List.mem_cons_self)
  have bounded := layout.ends here
  have room := block.size_le
  have aligned : align size xvAlign % 4 = 0 := by simp only [align, xvAlign_eq]; omega
  have fits : align size xvAlign ≤ block.size := by
    refine listed_size large ?_ above
    simp only [xvMaxAllocSize_eq, pageSize_eq] at *
    omega
  have moved := carve_head valid here free listed fits rfl aligned
  rwa [headEq] at moved ⊢

theorem xvMalloc_shows (reachable : Reachable others state live) {size : Nat} {allocator : PageAllocator}
    (served : (xvMalloc state size allocator).ret = 0) : (xvMalloc state size allocator).state.pool ≠ state.pool := by
  obtain ⟨layout, lists, models⟩ := reachable.models
  have valid := models.heap
  have refused : ¬ (-enomem : Int) = 0 := by decide
  have good : ¬ (size = 0 ∨ size > xvMaxAllocSize) := by
    intro bad
    rw [xvMalloc, if_pos bad] at served
    exact refused served
  have sections := xvMalloc_sections valid allocator (not_or.mp good |>.imp id Nat.not_lt.mp)
  rw [sections] at served ⊢
  have absent : Location.null.page = noPage := rfl
  rcases findBlock_spec valid.free (align size xvAlign) Location.null with ⟨index, nearest, found⟩ | ⟨_, found⟩
  · have real := (served_found valid nearest).1
    simp only [searchAndCarve, found, if_neg real]
    exact fun same => served_head valid nearest (by rw [same])
  · simp only [searchAndCarve, found, if_pos absent] at served ⊢
    cases grown : growPool state allocator with
    | none =>
      rw [grown] at served
      exact absurd served refused
    | some bigger =>
      obtain ⟨page, fresh, newLists, _, _, heap, _⟩ := growPool_spec valid grown
      rcases findBlock_spec heap.free (align size xvAlign) Location.null with ⟨index, nearest, again⟩ | ⟨_, again⟩
      · obtain ⟨real, changed, changedLists, met, pages⟩ := served_found heap nearest
        simp only [again, if_neg real, Option.getD_some]
        intro same
        have total := met.heap.total
        rw [same, valid.total, pages, show (layout.addPage fresh).pages = insert page layout.pages from rfl,
          Finset.card_insert_of_notMem fresh] at total
        omega
      · simp only [grown, again, if_pos absent] at served
        exact absurd served refused

end Compcache.Xvmalloc

namespace Compcache.Zcache
open Library Library.Runs Xvmalloc

section Stores
variable [Arch] {cpus : Nat} {lzo : Lzo} {name : Nat}

def Machine.At (machine : Machine cpus) (name : Nat) (code : Code cpus) : Prop :=
  ∃ task, machine.tasks.find? name = some task ∧ task.code = code

/-- A task takes so many steps, with steps of others in between that leave the allocator alone. -/
inductive Machine.Takes (lzo : Lzo) (name : Nat) (before : Machine cpus) : Nat → Machine cpus → Prop
  | none : Takes lzo name before 0 before
  | own {count : Nat} {between after : Machine cpus} {cpu : Fin cpus} (so : Takes lzo name before count between)
      (taken : between.step lzo (.advance name cpu) = some after) : Takes lzo name before (count + 1) after
  | other {count : Nat} {between after : Machine cpus} {action : Action cpus} (so : Takes lzo name before count between)
      (elsewhere : ∀ cpu, action ≠ .advance name cpu) (taken : between.step lzo action = some after) (kept : after.pool.xv =
        between.pool.xv) :
      Takes lzo name before count after

/-- What `zcache_put_page` does with the outcome of `zcache_store_page`. -/
def putEnd (node : Nat) (stored : Bool) : Code cpus :=
  if stored then .krefPut node (.done .returned)
  else .addStat .comprSize (-(zcacheMaxPageSize : Int)) (.lock node (leaveNode node (.done .returned)))

section Takes
variable {before after between : Machine cpus} {code : Code cpus} {count : Nat}

theorem Machine.At.other (here : between.At name code) {action : Action cpus} (elsewhere : ∀ cpu, action ≠ .advance name cpu)
    (taken : between.step lzo action = some after) : after.At name code := by
  obtain ⟨task, found, rest⟩ := here
  rcases Machine.step_cases taken with ⟨other, op, rfl, absent, rfl⟩ | ⟨other, cpu, ended, reply, rfl, _, _, rfl⟩ | ⟨other, cpu, moved,
    progress, rfl, _, _, rfl⟩
  · have different : name ≠ other := by
      rintro rfl
      rw [found] at absent
      cases absent
    exact ⟨task, (SortedMap.find?_insert_ne _ _ different).trans found, rest⟩
  · have different : name ≠ other := by
      rintro rfl
      exact elsewhere cpu rfl
    exact ⟨task, (SortedMap.find?_erase_ne _ different).trans found, rest⟩
  · have different : name ≠ other := by
      rintro rfl
      exact elsewhere cpu rfl
    exact ⟨task, (SortedMap.find?_insert_ne _ _ different).trans found, rest⟩

theorem Machine.At.own (here : between.At name code) (working : ∀ reply, code ≠ .done reply) {cpu : Fin cpus}
    (taken : between.step lzo (.advance name cpu) = some after) :
    ∃ held progress, between.pool.advance lzo name cpu held code = some progress ∧ after.At name progress.code ∧
      after.pool = progress.pool := by
  obtain ⟨task, found, rfl⟩ := here
  rcases Machine.step_cases taken with ⟨_, _, called, _⟩ | ⟨other, _, ended, reply, moved, there, returned, _⟩ | ⟨other, _, running,
    progress, moved, there, advanced, rfl⟩
  · cases called
  · cases moved
    rw [found] at there
    cases there
    exact absurd returned (working reply)
  · cases moved
    rw [found] at there
    cases there
    exact ⟨_, progress, advanced, ⟨_, SortedMap.find?_insert_self .., rfl⟩, rfl⟩

theorem Machine.Takes.waits (here : before.At name code) (taken : Takes lzo name before 0 after) :
    after.At name code ∧ after.pool.xv = before.pool.xv := by
  generalize zero : 0 = steps at taken
  induction taken with
  | none => exact ⟨here, rfl⟩
  | own => cases zero
  | other _ elsewhere taken kept ih =>
    obtain ⟨there, same⟩ := ih zero
    exact ⟨there.other elsewhere taken, kept.trans same⟩

theorem Machine.Takes.first (taken : before.Takes lzo name (count + 1) after) (here : before.At name code)
    (working : ∀ reply, code ≠ .done reply) :
    ∃ (between next : Machine cpus) (cpu : Fin cpus) (held : List Nat) (progress : Progress cpus), between.pool.xv = before.pool.xv ∧
      between.pool.advance lzo name cpu held code = some progress ∧ next.At name progress.code ∧ next.pool.xv = progress.pool.xv ∧
      next.Takes lzo name count after := by
  generalize whole : count + 1 = steps at taken
  induction taken generalizing count with
  | none => cases whole
  | @own earlier between after cpu so taken ih =>
    cases whole
    cases earlier with
    | zero =>
      obtain ⟨there, same⟩ := so.waits here
      obtain ⟨held, progress, advanced, now, pool⟩ := there.own working taken
      exact ⟨between, after, cpu, held, progress, same, advanced, now, congrArg Pool.xv pool, .none⟩
    | succ =>
      obtain ⟨start, next, first, held, progress, same, advanced, now, xv, rest⟩ := ih rfl
      exact ⟨start, next, first, held, progress, same, advanced, now, xv, rest.own taken⟩
  | other _ elsewhere taken kept ih =>
    obtain ⟨start, next, first, held, progress, same, advanced, now, xv, rest⟩ := ih whole
    exact ⟨start, next, first, held, progress, same, advanced, now, xv, rest.other elsewhere taken kept⟩

theorem Machine.At.unique {one two : Code cpus} (here : between.At name one) (also : between.At name two) : one = two := by
  obtain ⟨task, found, rfl⟩ := here
  obtain ⟨_, again, rfl⟩ := also
  rw [found] at again
  cases again
  rfl

end Takes

section Failed
variable {before after : Machine cpus} {node index : Nat} {data : PageData} {choices : PutChoices} {src : List UInt8}

theorem failed_insert {location : Location} {clen : Nat} {memory : Bool}
    (starts : before.At name (storeObject node index location clen memory (putEnd node)))
    (taken : before.Takes lzo name 4 after) (failed : after.At name (putEnd node false)) :
    after.pool.xv = before.pool.xv.without location.page := by
  obtain ⟨between, locked, cpu, held, progress, same, advanced, here, xv, taken⟩ := taken.first starts nofun
  obtain ⟨inode, _, advanced⟩ := Option.bind_eq_some_iff.mp advanced
  split at advanced
  next =>
    obtain rfl := Option.some.inj advanced
    have lock : locked.pool.xv = before.pool.xv := xv.trans same
    obtain ⟨between, tried, cpu, held, progress, same, advanced, here, xv, taken⟩ := taken.first here nofun
    obtain ⟨inode, _, rfl⟩ := Option.map_eq_some_iff.mp advanced
    split at here
    next present =>
      rw [if_pos present] at xv
      have try_ : tried.pool.xv = before.pool.xv := xv.trans (same.trans lock)
      obtain ⟨between, unlocked, cpu, held, progress, same, advanced, here, xv, taken⟩ := taken.first here nofun
      obtain ⟨inode, _, rfl⟩ := Option.map_eq_some_iff.mp advanced
      have unlock : unlocked.pool.xv = before.pool.xv := xv.trans (same.trans try_)
      obtain ⟨between, freed, cpu, held, progress, same, advanced, here, xv, taken⟩ := taken.first here nofun
      obtain ⟨given, freed, rfl⟩ := Option.map_eq_some_iff.mp advanced
      obtain ⟨_, last⟩ := taken.waits here
      rw [last, xv, ← (XvState.freePage_eq_some.mp freed).2, same, unlock]
    next absent =>
      obtain ⟨_, _, _, _, _, _, advanced, here, _, taken⟩ := taken.first here nofun
      obtain rfl := Option.some.inj advanced
      obtain ⟨_, _, _, _, _, _, advanced, here, _, taken⟩ := taken.first here nofun
      obtain rfl := Option.some.inj advanced
      cases (taken.waits here).1.unique failed
  next => cases advanced

/-- What `zcache_store_page` asks the allocator for. -/
def storeMalloc (pool : Pool cpus) (src : List UInt8) (choices : PutChoices) : MallocResult :=
  xvMalloc pool.xv (src.length + objheaderSize) choices.allocator.pages

theorem failed_store (starts : before.At name (zcacheStorePage lzo node index data false choices (putEnd node)))
    (buffers : choices.buffers = true) (compressed : lzo.compress data = some src) (small : src.length ≤ zcacheMaxPageSize)
    (served : (storeMalloc before.pool src choices).ret = 0) (taken : before.Takes lzo name 6 after)
    (failed : after.At name (putEnd node false)) :
    after.pool.xv.pool = (storeMalloc before.pool src choices).state.pool ∧
      after.pool.xv.kernel.owned = (storeMalloc before.pool src choices).state.kernel.owned.erase
        (storeMalloc before.pool src choices).location.page := by
  obtain ⟨allocate, code, stores⟩ : ∃ allocate, (zcacheStorePage lzo node index data false choices (putEnd node) : Code cpus) =
      .xvMalloc (src.length + objheaderSize) choices.allocator allocate ∧
      ∀ location, allocate (some location) =
          .copyIn location index src (storeObject node index location src.length choices.insert (putEnd node)) := by
    rw [zcacheStorePage, if_neg Bool.false_ne_true, if_pos buffers, compressed]
    exact ⟨_, if_neg (Nat.not_lt.mpr small), fun _ => rfl⟩
  rw [code] at starts
  obtain ⟨between, allocated, cpu, held, progress, same, advanced, here, xv, taken⟩ := taken.first starts (by simp)
  obtain rfl := Option.some.inj advanced
  have got : ¬ (xvMalloc before.pool.xv (src.length + objheaderSize) choices.allocator.pages).ret ≠ 0 := fun refused => refused served
  simp only [same, if_neg got, stores] at here xv
  have cut : allocated.pool.xv = (storeMalloc before.pool src choices).state := xv
  obtain ⟨between, copied, cpu, held, progress, same, advanced, here, xv, taken⟩ := taken.first here (by simp)
  obtain rfl := Option.some.inj advanced
  have rest := failed_insert here taken failed
  have written : copied.pool.xv = (between.pool.copyIn (storeMalloc before.pool src choices).location index src).xv := xv
  rw [rest, written]
  have start := same.trans cut
  have pool : between.pool.xv.pool = (storeMalloc before.pool src choices).state.pool := by rw [start]
  have owned : between.pool.xv.kernel.owned = (storeMalloc before.pool src choices).state.kernel.owned := by rw [start]
  exact ⟨pool, congrArg (·.erase (storeMalloc before.pool src choices).location.page) owned⟩

/-- When `radix_tree_insert` fails the pool never is as it was, and the page of the
object is the kernel's. -/
theorem failed_store_spoils {others : Finset Page} {live : LiveObjects} (reachable : Reachable others before.pool.xv live)
    (starts : before.At name (zcacheStorePage lzo node index data false choices (putEnd node)))
    (buffers : choices.buffers = true) (compressed : lzo.compress data = some src) (small : src.length ≤ zcacheMaxPageSize)
    (served : (storeMalloc before.pool src choices).ret = 0) (taken : before.Takes lzo name 6 after)
    (failed : after.At name (putEnd node false)) :
    after.pool.xv.pool ≠ before.pool.xv.pool ∧ (storeMalloc before.pool src choices).location.page ∉ after.pool.xv.kernel.owned := by
  obtain ⟨pool, owned⟩ := failed_store starts buffers compressed small served taken failed
  exact ⟨pool ▸ xvMalloc_shows reachable served, owned ▸ Finset.notMem_erase _ _⟩

end Failed

theorem Machine.Takes.of_steps {before after : Machine cpus} (cpu : Fin cpus) (count : Nat)
    (taken : steps (Machine.step lzo) before (List.replicate count (.advance name cpu)) = some after) :
    before.Takes lzo name count after := by
  induction count generalizing after with
  | zero =>
    obtain rfl : before = after := Option.some.inj taken
    exact .none
  | succ count ih =>
    rw [List.replicate_succ', steps_append] at taken
    obtain ⟨between, earlier, taken⟩ := Option.bind_eq_some_iff.mp taken
    obtain ⟨_, last, taken⟩ := Option.bind_eq_some_iff.mp taken
    cases taken
    exact (ih earlier).own last

end Stores

section Sample
local instance storesArch : Arch := Arch.x64

theorem firstPage_mapped {owned : Finset Page} {fresh : Fresh} (picked : firstPage.pick owned = some fresh) :
    fresh.page * pageSize < 2 ^ bitsPerLong := by
  simp only [firstPage, PageAllocator.offering] at picked
  split at picked
  next => cases picked
  next =>
    cases picked
    decide

/-- Puts that have all memory, and puts with none for the page tree. -/
def PutChoices.served (insert : Bool) : PutChoices := ⟨true, true, ⟨firstPage, firstPage_mapped⟩, insert⟩

/-- A node without pages in a pool with one object of 100 bytes. -/
def storing (code : Code 1) : Machine 1 where
  pool := { (Pool.create ⟨fun _ _ => 0, ∅⟩ 8192 : Pool 1).addNode 7 with xv := sampleObject.state }
  tasks := SortedMap.empty.insert 0 ⟨.putPage (.ofIno 7) 1 (PageData.filled 1) (.served false), code, [0], none⟩
  history := []

theorem storing_at (code : Code 1) : (storing code).At 0 code := ⟨_, SortedMap.find?_insert_self .., rfl⟩

/-- A put that is to give back its reservation at node 0. -/
def Code.refunds : Code 1 → Bool
  | .addStat .comprSize value (.lock 0 (.isolateIfEmpty 0 (.unlock 0 (.krefPut 0 (.done .returned))))) => value = -(zcacheMaxPageSize : Int)
  | _ => false

theorem Code.refunds_eq {code : Code 1} (refunds : code.refunds = true) : code = putEnd 0 false := by
  unfold Code.refunds at refunds
  split at refunds
  next value => rw [of_decide_eq_true refunds]; rfl
  next => cases refunds

/-- A store of a page of ones at that node. -/
def storingOnes : Machine 1 := storing (zcacheStorePage Lzo.runs 0 1 (PageData.filled 1) false (.served false) (putEnd 0))

theorem failed_store_spoils_sample : ∃ after : Machine 1, after.pool.xv.pool ≠ sampleObject.state.pool ∧
    (storeMalloc storingOnes.pool (runStream 1) (.served false)).location.page ∉ after.pool.xv.kernel.owned := by
  have fails : ((steps (Machine.step Lzo.runs) storingOnes (List.replicate 6 (.advance 0 onlyCpu))).bind fun machine =>
      (machine.tasks.find? 0).map fun task => task.code.refunds) = some true := by decide +kernel
  obtain ⟨after, taken, fails⟩ := Option.bind_eq_some_iff.mp fails
  obtain ⟨task, found, refunds⟩ := Option.map_eq_some_iff.mp fails
  have served : (storeMalloc storingOnes.pool (runStream 1) (.served false)).ret = 0 := by decide +kernel
  exact ⟨after, failed_store_spoils sampleObject_reachable (storing_at _) rfl (Lzo.runs_filled 1) (by decide) served (.of_steps 0 6 taken)
    ⟨task, found, Code.refunds_eq refunds⟩⟩

/-- A page is put under inode 7, at index 0. Then a put at index 1 comes to its store. -/
def twoPuts : List (Action 1) :=
  [.call 0 (.putPage (.ofIno 7) 0 (PageData.filled 1) (.served true))] ++ List.replicate 19 (.advance 0 onlyCpu) ++
    [.call 0 (.putPage (.ofIno 7) 1 (PageData.filled 2) (.served false))] ++ List.replicate 8 (.advance 0 onlyCpu)

/-- The pointers at index 0 and 1 of the node, whether the pool owns the page the
first leads to, and the count of pages of the pool. -/
def Machine.stores (machine : Machine 1) : Nat × Nat × Bool × Nat :=
  let found (index : Nat) : Nat := (machine.pool.nodes 0).elim 0 (·.lookup index)
  (found 0, found 1, (zcachePtrToXvLocation (found 0)).page ∈ machine.pool.xv.kernel.owned, machine.pool.xv.pool.totalPages)

theorem stored_page_given_back : ∃ before after : Machine 1, AnyRun (Machine.step Lzo.runs) (Machine.create ⟨fun _ _ => 0, ∅⟩ 8192) before ∧
    AnyRun (Machine.step Lzo.runs) before after ∧ before.stores = (4100, 0, true, 1) ∧ after.stores = (4100, 0, false, 1) := by
  have stored : ((steps (Machine.step Lzo.runs) (Machine.create ⟨fun _ _ => 0, ∅⟩ 8192) twoPuts).bind fun before =>
      (steps (Machine.step Lzo.runs) before (List.replicate 6 (.advance 0 onlyCpu))).map fun after => (before.stores, after.stores)) =
        some ((4100, 0, true, 1), (4100, 0, false, 1)) := by decide +kernel
  obtain ⟨before, first, rest⟩ := Option.bind_eq_some_iff.mp stored
  obtain ⟨after, second, shows⟩ := Option.map_eq_some_iff.mp rest
  obtain ⟨one, two⟩ := Prod.mk.inj shows
  exact ⟨before, after, .of_steps (fun _ _ _ => trivial) first, .of_steps (fun _ _ _ => trivial) second, one, two⟩

end Sample
end Compcache.Zcache
