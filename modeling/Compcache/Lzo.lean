import Compcache.Kernel

/-! Page contents and the LZO calls the drivers make. The compressor itself is a
parameter. -/

namespace Compcache
open Library.PagedMemory

abbrev PageData := { bytes : List UInt8 // bytes.length = pageSize }

namespace PageData

def zeros : PageData := ⟨List.replicate pageSize 0, List.length_replicate⟩

def copy (memory : Memory Page) (page : Page) (offset : Nat) : PageData :=
  ⟨memory.read page offset pageSize, PageBytes.read_length ..⟩

theorem copy_val (memory : Memory Page) (page : Page) (offset : Nat) :
    (copy memory page offset).val = memory.read page offset pageSize := by
  simp only [copy]

/-- Replace the bytes at the front of a page, and nothing behind its end. -/
def overwrite (data : PageData) (bytes : List UInt8) : PageData :=
  ⟨(bytes ++ data.val.drop bytes.length).take pageSize, by
    have whole := data.property
    simp only [List.length_take, List.length_append, List.length_drop]
    omega⟩

theorem overwrite_whole (data : PageData) {bytes : List UInt8} (whole : bytes.length = pageSize) :
    data.overwrite bytes = ⟨bytes, whole⟩ := by
  apply Subtype.ext
  have rest : data.val.drop bytes.length = [] := List.drop_eq_nil_of_le (by rw [whole, data.property])
  simp only [overwrite, rest, List.append_nil]
  exact List.take_of_length_le (Nat.le_of_eq whole)

end PageData

def pageZeroFilled (data : PageData) : Bool := data.val.all (· == 0)

theorem pageZeroFilled_zeros {data : PageData} (filled : pageZeroFilled data = true) : data = PageData.zeros := by
  apply Subtype.ext
  apply List.eq_replicate_iff.mpr
  refine ⟨data.property, fun byte member => ?_⟩
  simpa using List.all_eq_true.mp filled byte member

/-- `lzo1x_1_compress` of a page, `none` when it reports an error, and
`lzo1x_decompress_safe` into a page: whether it reports success, and the bytes
it puts at the front of the page. -/
structure Lzo where
  compress : PageData → Option (List UInt8)
  decompress : List UInt8 → Bool × List UInt8

/-- Decompression brings back what was compressed. -/
def Lzo.Inverts (lzo : Lzo) : Prop :=
  ∀ {data stream}, lzo.compress data = some stream → lzo.decompress stream = (true, data.val)

/-- The stream of one literal run and the end marker. The compressor makes it of
a page in which it finds no match. -/
def Lzo.literal : Lzo where
  compress data := some (List.replicate 16 0 ++ 253 :: (data.val ++ [17, 0, 0]))
  decompress stream := (true, (stream.drop 17).take pageSize)

theorem Lzo.literal_inverts : Lzo.literal.Inverts := by
  intro data stream compressed
  cases compressed
  have whole := data.property
  simp [literal, whole, List.drop_append]

/-- A page in which no three bytes recur. -/
def PageData.noise : PageData := ⟨(List.range pageSize).map fun index => UInt8.ofNat (index * index * index * 7919 / 32), by simp⟩

def PageData.filled (byte : UInt8) : PageData := ⟨List.replicate pageSize byte, List.length_replicate⟩

theorem PageData.eq_filled {data : PageData} {byte : UInt8} (one : data.val.all (· == byte) = true) : data = filled byte :=
  Subtype.ext (List.eq_replicate_iff.mpr ⟨data.property, fun other member => by simpa using List.all_eq_true.mp one other member⟩)

/-- The stream of a page of one byte: five literals, and a match of all the others with
the byte in front of them. -/
def runStream (byte : UInt8) :
    List UInt8 := 2 :: byte :: byte :: byte :: byte :: byte :: 32 :: (List.replicate 15 0 ++ [233, 0, 0, 17, 0, 0])

/-- The compressor on pages of one byte and on pages without a match. -/
def Lzo.runs : Lzo where
  compress data := if data.val.all (· == data.val.headD 0) then some (runStream (data.val.headD 0)) else Lzo.literal.compress data
  decompress stream := if stream.head? = some 2 then (true, List.replicate pageSize (stream.getD 1 0)) else Lzo.literal.decompress stream

theorem Lzo.runs_filled (byte : UInt8) : Lzo.runs.compress (PageData.filled byte) = some (runStream byte) := by
  have front : (PageData.filled byte).val.headD 0 = byte := rfl
  have one : (PageData.filled byte).val.all (· == (PageData.filled byte).val.headD 0) = true := by
    rw [front]
    exact List.all_eq_true.mpr fun other member => beq_iff_eq.mpr (List.eq_of_mem_replicate member)
  exact (if_pos one).trans (by rw [front])

theorem Lzo.runs_mixed {data : PageData} (mixed : data.val.all (· == data.val.headD 0) = false) :
    Lzo.runs.compress data = Lzo.literal.compress data :=
  if_neg (ne_true_of_eq_false mixed)

theorem Lzo.runs_noise : Lzo.runs.compress PageData.noise = Lzo.literal.compress PageData.noise := Lzo.runs_mixed (by decide +kernel)

theorem Lzo.runs_inverts : Lzo.runs.Inverts := by
  intro data stream compressed
  by_cases one : data.val.all (· == data.val.headD 0)
  · obtain rfl : runStream (data.val.headD 0) = stream := Option.some.inj ((if_pos one).symm.trans compressed)
    have same : data.val = List.replicate pageSize (data.val.headD 0) := congrArg Subtype.val (PageData.eq_filled one)
    have front : (runStream (data.val.headD 0)).head? = some 2 := rfl
    simp only [runs, if_pos front]
    exact congrArg (Prod.mk true) same.symm
  · have literal : Lzo.literal.compress data = some stream := (if_neg one).symm.trans compressed
    have front : stream.head? ≠ some 2 := by
      cases literal
      exact fun two => absurd (Option.some.inj two) (by decide)
    exact (if_neg front).trans (Lzo.literal_inverts literal)

end Compcache
