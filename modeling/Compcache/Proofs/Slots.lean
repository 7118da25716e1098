import Compcache.Proofs.ZramPages

/-! A table of slots over a pool, whatever its entries look like: what each slot
holds is there, and reads as it should. -/

namespace Compcache
open Library.PagedMemory Library.Ownership Xvmalloc
open ZramDrv (Slot Content storage_update)

variable [Arch]

structure Stored {ι : Type} (lzo : Lzo) (others : Finset Page) (xv : XvState) (slots : ι → Slot) (held : Storage → Prop)
    (disk : ι → Option PageData) : Prop where
  backed : Backed others xv held
  holders : Holders (fun index => (slots index).storage) held
  content : ∀ index, Content lzo xv.memory (slots index) (disk index)

namespace Stored
variable {ι : Type} [DecidableEq ι] {lzo : Lzo} {others : Finset Page} {xv after : XvState} {slots : ι → Slot} {held : Storage → Prop}
  {disk : ι → Option PageData} {index : ι} {storage : Storage}

omit [DecidableEq ι] in
theorem holds (stored : Stored lzo others xv slots held disk) (here : slots index = .stored storage) : held storage :=
  stored.holders.of_slot (Slot.storage_eq_some.mpr here)

omit [DecidableEq ι] in
theorem absent (stored : Stored lzo others xv slots held disk) (vacant : slots index = .empty) : disk index = none := by
  have content := stored.content index
  rw [vacant] at content
  generalize disk index = data at content
  cases content with
  | empty => rfl

theorem change {new : Slot} {now : Storage → Prop} {data : Option PageData} (stored : Stored lzo others xv slots held disk)
    (backed : Backed others after now) (holders : Holders (Function.update (fun other => (slots other).storage) index new.storage) now)
    (kept : ∀ other, other ≠ index → ∀ storage, slots other = .stored storage → storage.bytes after.memory = storage.bytes xv.memory)
    (content : Content lzo after.memory new data) :
    Stored lzo others after (Function.update slots index new) now (Function.update disk index data) where
  backed := backed
  holders := by
    rw [storage_update]
    exact holders
  content other := by
    rcases Classical.em (other = index) with rfl | elsewhere
    · rw [Function.update_self, Function.update_self]
      exact content
    · rw [Function.update_of_ne elsewhere, Function.update_of_ne elsewhere]
      exact (stored.content other).frame (kept other elsewhere)

theorem unstored (stored : Stored lzo others xv slots held disk) {new : Slot} {data : Option PageData}
    (before : (slots index).storage = none)
    (now : new.storage = none) (content : Content lzo xv.memory new data) :
    Stored lzo others xv (Function.update slots index new) held (Function.update disk index data) := by
  refine stored.change stored.backed ?_ (fun _ _ _ _ => rfl) content
  rw [now, ← before, Function.update_eq_self]
  exact stored.holders

theorem releasePage (stored : Stored lzo others xv slots held disk) {frame : Page} (here : slots index = .stored (.page frame)) :
    xv.freePage frame = some (xv.without frame) ∧
      Stored lzo others (xv.without frame) (Function.update slots index .empty) (fun other => held other ∧ other ≠ .page frame)
        (Function.update disk index none) := by
  obtain ⟨freed, backed⟩ := stored.backed.releasePage (stored.holds here)
  exact ⟨freed, stored.change backed (stored.holders.clear (Slot.storage_eq_some.mpr here)) (fun _ _ _ _ => rfl) .empty⟩

theorem releaseObject (stored : Stored lzo others xv slots held disk) {location : Location} {size : Nat}
    (here : slots index = .stored (.object location size)) :
    ∃ after, xvFree xv location.page location.offset = some after ∧
      Stored lzo others after (Function.update slots index .empty) (fun other => held other ∧ other ≠ .object location size)
        (Function.update disk index none) := by
  obtain ⟨after, freed, backed, kept⟩ := stored.backed.releaseObject (stored.holds here)
  refine ⟨after, freed, stored.change backed (stored.holders.clear (Slot.storage_eq_some.mpr here)) ?_ .empty⟩
  intro other elsewhere piece there
  refine kept piece (stored.holds there) ?_
  rintro rfl
  exact elsewhere (stored.holders.single (Slot.storage_eq_some.mpr there) (Slot.storage_eq_some.mpr here))

theorem fill (stored : Stored lzo others xv slots held disk) (vacant : slots index = .empty) {before : XvState}
    {src : List UInt8} {data : PageData}
    (fresh : ¬ held storage) (backed : Backed others before fun other => held other ∨ other = storage)
    (kept : ∀ other, held other → other.bytes before.memory = other.bytes xv.memory) (whole : src.length = storage.size)
    (content : ∀ {memory}, storage.bytes memory = src → Content lzo memory (.stored storage) (some data)) :
    Stored lzo others (before.withMemory (before.memory.write storage.location.page storage.location.offset src))
      (Function.update slots index (.stored storage)) (fun other => held other ∨ other = storage)
        (Function.update disk index (some data)) := by
  obtain ⟨written, copied, untouched⟩ := backed.write (.inr rfl) whole
  refine stored.change written (stored.holders.fill (by rw [vacant]; rfl) fresh) ?_ ?_
  · intro other elsewhere piece there
    have here : held piece := stored.holds there
    have different : piece ≠ storage := by
      rintro rfl
      exact fresh here
    rw [XvState.withMemory_memory, untouched piece (.inl here) different, kept piece here]
  · rw [XvState.withMemory_memory]
    exact content copied

theorem storePage (stored : Stored lzo others xv slots held disk) (vacant : slots index = .empty) {allocator : PageAllocator} {page : Page}
    {kernel : Kernel} (taken : xv.kernel.allocPage allocator = some (page, kernel)) (data : PageData) :
    Stored lzo others (XvState.withMemory ⟨kernel, xv.pool⟩ (kernel.memory.write page 0 data.val))
      (Function.update slots index (.stored (.page page))) (fun other => held other ∨ other = .page page)
        (Function.update disk index (some data)) := by
  obtain ⟨fresh, backed, kept⟩ := stored.backed.takePage taken
  exact stored.fill vacant fresh backed kept data.property fun copied => .page copied

theorem storeObject (stored : Stored lzo others xv slots held disk) (vacant : slots index = .empty) {data : PageData} {src : List UInt8}
    (compressed : lzo.compress data = some src) (small : src.length ≤ 4088) (allocator : PageAllocator) :
    xvMalloc xv src.length allocator = ⟨-enomem, Location.null, xv⟩ ∨
      (xvMalloc xv src.length allocator).ret = 0 ∧
      Stored lzo others ((xvMalloc xv src.length allocator).state.withMemory ((xvMalloc xv src.length allocator).state.memory.write
          (xvMalloc xv src.length allocator).location.page (xvMalloc xv src.length allocator).location.offset src))
        (Function.update slots index (.stored (.object (xvMalloc xv src.length allocator).location src.length)))
        (fun other => held other ∨ other = .object (xvMalloc xv src.length allocator).location src.length)
          (Function.update disk index (some data)) := by
  rcases stored.backed.takeObject small allocator with refused | ⟨ret, fresh, backed, kept⟩
  · exact .inl refused
  · refine .inr ⟨ret, stored.fill vacant (fresh _) backed kept rfl fun copied => .object ?_⟩
    exact compressed.trans (congrArg some copied.symm)

end Stored
end Compcache
