import Mathlib.Data.Finset.Basic
import Compcache.Library.PagedMemory

/-! The parts of the kernel every subsystem rests on: page frames, their
bytes, and the page allocator, whose choices are left open. -/

namespace Compcache
open Library.PagedMemory

/-- Word sizes of the supported machines: 32 bits, 32 bits with 64-bit
physical addresses, and 64 bits. -/
class Arch where
  bitsPerLong : Nat
  physAddrBits : Nat
  supported : (bitsPerLong, physAddrBits) ∈ [(32, 32), (32, 64), (64, 64)]

export Arch (bitsPerLong physAddrBits)

def pageShift : Nat := 12
def pageSize : Nat := 2 ^ pageShift

@[simp] theorem pageSize_eq : pageSize = 4096 := by rfl

/-- A `struct page *`, identified with its page frame number. -/
abbrev Page := Nat

def noPage : Page := 0

/-- A `<page, offset>` pair. -/
@[ext] structure Location where
  page : Page
  offset : Nat
  deriving DecidableEq, Repr

def Location.null : Location := ⟨noPage, 0⟩

@[simp] theorem Location.null_page : Location.null.page = 0 := rfl
@[simp] theorem Location.null_offset : Location.null.offset = 0 := rfl

def enomem : Int := 12

def align (size unit : Nat) : Nat := (size + (unit - 1)) / unit * unit

/-- `size - taken` on u32. -/
def sub32 (size taken : Nat) : Nat := (size + 2 ^ 32 - taken) % 2 ^ 32

theorem sub32_eq {size taken : Nat} (ordered : taken ≤ size) (small : size < 2 ^ 32) : sub32 size taken = size - taken := by
  unfold sub32
  omega

@[reducible] def Arch.x64 : Arch := ⟨64, 64, by decide⟩

variable [Arch]

theorem Arch.bitsPerLong_cases : bitsPerLong = 32 ∨ bitsPerLong = 64 := by
  have known := Arch.supported
  simp only [List.mem_cons, Prod.mk.injEq, List.not_mem_nil, or_false] at known
  omega

/-- What `alloc_page` hands out. The page may hold anything. -/
structure Fresh where
  page : Page
  content : PageBytes

/-- One call's worth of `alloc_page`. It may fail, and may pick any page frame
of the machine that nobody owns. -/
structure PageAllocator where
  pick : Finset Page → Option Fresh
  unowned : ∀ {owned fresh}, pick owned = some fresh → fresh.page ∉ owned
  frame : ∀ {owned fresh}, pick owned = some fresh → 0 < fresh.page ∧
    fresh.page < 2 ^ bitsPerLong ∧ fresh.page * pageSize < 2 ^ physAddrBits

/-- The allocator that hands out one given page as long as nobody owns it. -/
def PageAllocator.offering (fresh : Fresh) (positive : 0 < fresh.page) (word : fresh.page < 2 ^ bitsPerLong)
    (physical : fresh.page * pageSize < 2 ^ physAddrBits) : PageAllocator where
  pick owned := if fresh.page ∈ owned then none else some fresh
  unowned := by
    intro owned other picked
    split at picked
    next => cases picked
    next outside =>
      cases picked
      exact outside
  frame := by
    intro owned other picked
    split at picked
    next => cases picked
    next =>
      cases picked
      exact ⟨positive, word, physical⟩

/-- The allocator that is out of memory. -/
def PageAllocator.exhausted : PageAllocator := ⟨fun _ => none, nofun, nofun⟩

/-- Memory, and the pages taken from the page allocator and not given back. -/
structure Kernel where
  memory : Memory Page
  owned : Finset Page

def Kernel.allocPage (kernel : Kernel) (allocator : PageAllocator) : Option (Page × Kernel) :=
  (allocator.pick kernel.owned).map fun fresh =>
    (fresh.page, ⟨Function.update kernel.memory fresh.page fresh.content, insert fresh.page kernel.owned⟩)

/-- The kernel with a page given back. -/
def Kernel.without (kernel : Kernel) (page : Page) : Kernel := { kernel with owned := kernel.owned.erase page }

/-- `__free_page`. `none` is the release of a page that is not owned, a double free in particular. -/
def Kernel.freePage (kernel : Kernel) (page : Page) : Option Kernel :=
  if page ∈ kernel.owned then some (kernel.without page) else none

omit [Arch] in
theorem Kernel.freePage_owned {kernel : Kernel} {page : Page} (owned : page ∈ kernel.owned) :
    kernel.freePage page = some (kernel.without page) := if_pos owned

omit [Arch] in
theorem Kernel.freePage_eq_some {kernel after : Kernel} {page : Page} :
    kernel.freePage page = some after ↔ page ∈ kernel.owned ∧ kernel.without page = after := by
  rw [freePage, Option.ite_none_right_eq_some, Option.some.injEq]

theorem Kernel.allocPage_spec {kernel after : Kernel} {allocator : PageAllocator} {page : Page}
    (taken : kernel.allocPage allocator = some (page, after)) :
    page ∉ kernel.owned ∧ 0 < page ∧ page < 2 ^ bitsPerLong ∧ page * pageSize < 2 ^ physAddrBits ∧
      after.owned = insert page kernel.owned ∧ ∀ other, other ≠ page → after.memory other = kernel.memory other := by
  simp only [allocPage, Option.map_eq_some_iff, Prod.mk.injEq] at taken
  obtain ⟨fresh, picked, rfl, rfl⟩ := taken
  obtain ⟨positive, word, physical⟩ := allocator.frame picked
  exact ⟨allocator.unowned picked, positive, word, physical, rfl, fun other different => Function.update_of_ne different _ _⟩

end Compcache
