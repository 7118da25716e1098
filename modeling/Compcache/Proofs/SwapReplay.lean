import Compcache.SwapReplay

/-! What is played back of a recording that ends anywhere. -/

namespace Compcache.SwapReplay

def layOut (info : SrInfo) : List Event → List SrInfo
  | [] => []
  | event :: rest => fillInfo info event :: layOut (fillInfo info event) rest

def Event.callback : Event → Callback
  | read index => .swapRead index
  | write index clen hash => .swapWrite index clen.toNat hash.val

def recorded (firstWriteDone : Bool) : List SwapBio → List Event
  | [] => []
  | bio :: rest =>
    if bio.sector % srSectorsPerPage ≠ 0 ∨ bio.vcnt ≠ 1 ∨ bio.size ≠ pageSize ∨ bio.bvOffset ≠ 0 then recorded firstWriteDone rest
    else if bio.written.isSome ∨ firstWriteDone then bio.event :: recorded true rest
    else recorded false rest

section Records
variable {order : ByteOrder} {info : SrInfo} {event : Event}

theorem wordToBytes_length (order : ByteOrder) (word : UInt32) : (wordToBytes order word).length = 4 := by cases order <;> rfl

theorem arrange_arrange (order : ByteOrder) (bytes : List UInt8) : order.arrange (order.arrange bytes) = bytes := by
  cases order with
  | little => rfl
  | big => exact List.reverse_reverse bytes

theorem wordOfBytes_wordToBytes (order : ByteOrder) (word : UInt32) : wordOfBytes order (wordToBytes order word) = word := by
  have bound := word.toNat_lt
  apply UInt32.toNat_inj.mp
  simp only [wordOfBytes, wordToBytes, arrange_arrange, List.foldr_cons, List.foldr_nil, UInt8.toNat_ofNat', UInt32.toNat_ofNat']
  omega

theorem bytes_length (order : ByteOrder) (info : SrInfo) : (info.bytes order).length = srInfoSize := by
  rw [SrInfo.bytes, List.length_append, List.length_append, wordToBytes_length, wordToBytes_length, info.hash.property]
  rfl

theorem pageRw_toNat {index bit : Nat} (small : index < 2 ^ 31) (binary : bit < 2) :
    (UInt32.ofNat (index <<< 1 ||| bit)).toNat = 2 * index + bit := by
  have merged : index <<< 1 ||| bit = 2 * index + bit := by
    rw [Nat.shiftLeft_eq, Nat.mul_comm]
    exact (Nat.two_pow_add_eq_or_of_lt (i := 1) binary index).symm
  rw [merged, UInt32.toNat_ofNat']
  omega

theorem deliver_bytes (small : event.index < 2 ^ 31) : deliver order ((fillInfo info event).bytes order) = event.callback := by
  have binary : event.dir < 2 := by cases event <;> simp [Event.dir]
  have number := pageRw_toNat small binary
  have pageRw : (fillInfo info event).pageRw = UInt32.ofNat (event.index <<< 1 ||| event.dir) := by cases event <;> rfl
  have first : ((fillInfo info event).bytes order).take 4 = wordToBytes order (fillInfo info event).pageRw := by
    rw [SrInfo.bytes, List.append_assoc, List.take_left' (wordToBytes_length ..)]
  have behind : ((fillInfo info event).bytes order).drop 4 = wordToBytes order (fillInfo info event).clen ++
      (fillInfo info event).hash.val := by
    rw [SrInfo.bytes, List.append_assoc, List.drop_left' (wordToBytes_length ..)]
  have last : ((fillInfo info event).bytes order).drop 8 = (fillInfo info event).hash.val := by
    rw [show 8 = 4 + 4 from rfl, ← List.drop_drop, behind, List.drop_left' (wordToBytes_length ..)]
  have shifted : ((fillInfo info event).pageRw >>> 1).toNat = event.index := by
    rw [UInt32.toNat_shiftRight, pageRw, number]
    simp only [UInt32.reduceToNat, Nat.reduceMod, Nat.shiftRight_eq_div_pow, Nat.reducePow]
    omega
  have masked : ((fillInfo info event).pageRw &&& 1).toNat = event.dir := by
    rw [UInt32.toNat_and, pageRw, number]
    simp only [UInt32.reduceToNat, Nat.and_one_is_mod]
    omega
  rw [deliver, first, behind, last, wordOfBytes_wordToBytes, List.take_left' (wordToBytes_length ..), wordOfBytes_wordToBytes, shifted]
  have test : (fillInfo info event).pageRw &&& 1 = 0 ↔ event.dir = 0 := by
    rw [← masked]
    exact ⟨fun zero => congrArg UInt32.toNat zero, fun zero => UInt32.toNat_inj.mp zero⟩
  cases event with
  | read index => exact if_pos (test.mpr rfl)
  | write index clen hash => exact if_neg fun zero => absurd (test.mp zero) Nat.one_ne_zero

theorem fillInfo_congr {other : SrInfo} (hash : info.hash = other.hash) (event : Event) : fillInfo info event = fillInfo other event := by
  cases event <;> simp [fillInfo, hash]

theorem layOut_congr {other : SrInfo} (hash : info.hash = other.hash) (events : List Event) : layOut info events = layOut other events := by
  cases events with
  | nil => rfl
  | cons event rest => rw [layOut, layOut, fillInfo_congr hash]

theorem log_layOut (relay : Relay) (bios : List SwapBio) :
    (bios.foldl srMakeRequest relay).log = relay.log ++ layOut relay.srInfo (recorded relay.firstWriteDone bios) := by
  induction bios generalizing relay with
  | nil => exact (List.append_nil _).symm
  | cons bio rest ih =>
    rw [List.foldl_cons, ih, srMakeRequest, recorded]
    split
    next => rfl
    next =>
      cases kind : bio.written with
      | some _ => simp [layOut]
      | none =>
        cases done : relay.firstWriteDone with
        | true => simp [layOut]
        | false =>
          simp only [Bool.false_eq_true, if_false, Option.isSome_none, or_self]
          have event : bio.event = .read (bio.sector / srSectorsPerPage) := by rw [SwapBio.event, kind]
          have hash : (fillInfo relay.srInfo (.read (bio.sector / srSectorsPerPage))).hash = relay.srInfo.hash := rfl
          rw [event, layOut_congr hash]

end Records

/-! A recording cut off behind `cut` bytes. -/

section Playback
variable {order : ByteOrder} {file : File} {info : SrInfo} {events : List Event}

/-- How reading a file of records ends. -/
inductive Ending
  | clean
  | partialRecord
  | readError
  deriving DecidableEq

def File.ending (file : File) : Ending :=
  if file.fails ∧ (file.bytes.length % srInfoSize = 0 ∨ file.loses) then .readError
  else if file.bytes.length % srInfoSize = 0 then .clean
  else .partialRecord

/-- The contract of `event_replay_end`. -/
def Ending.Reports : Ending → Int → Prop
  | clean, err => err = 0
  | partialRecord, err => 0 < err
  | readError, err => err < 0

/-- The events of the complete records are played back, and then the end is reported. -/
def Decodes (order : ByteOrder) (file : File) (events : List Event) : Prop :=
  ∃ err, parseFile order file = some ((events.take (file.bytes.length / srInfoSize)).map Event.callback ++ [.replayEnd err]) ∧
    file.ending.Reports err

theorem File.read_whole {position count : Nat} (whole : count ≤ (file.bytes.drop position).length) :
    file.read position count = ((count : Int), (file.bytes.drop position).take count) := by
  have length : ((file.bytes.drop position).take count).length = count := List.length_take_of_le whole
  simp [read, length, - List.length_take, - List.length_drop]

theorem parseFrom_last {position fuel : Nat} (short : (file.bytes.drop position).length < srInfoSize) :
    parseFrom order file (fuel + 1) position = some (if file.bytes.drop position = [] ∧
      file.fails = false then [.replayEnd 0] else []) := by
  have all : (file.bytes.drop position).take srInfoSize = file.bytes.drop position := List.take_of_length_le (Nat.le_of_lt short)
  rw [parseFrom]
  unfold File.read
  simp only [all]
  rcases Classical.em (file.bytes.drop position = []) with empty | left
  · have zero : (file.bytes.drop position).length = 0 := by rw [empty]; rfl
    cases fails : file.fails <;> simp [empty, srInfoSize]
  · have positive : 0 < (file.bytes.drop position).length := List.length_pos_iff.mpr left
    have some_ : ((file.bytes.drop position).length : Int) ≠ 0 := by omega
    have other : ((file.bytes.drop position).length : Int) ≠ srInfoSize := by omega
    rw [if_neg fun ended : _ ∧ _ => left ended.1]
    generalize (file.bytes.drop position).length = length at *
    rcases Classical.em (file.fails = true ∧ length < srInfoSize ∧ (file.bytes.drop position = [] ∨ file.loses = true)) with failed | read
    · simp only [if_pos failed]
      rfl
    · simp only [if_neg read, if_neg some_, if_pos other, ite_self]

theorem parseFrom_layOut {position fuel cut : Nat}
    (left : file.bytes.drop position = ((layOut info events).flatMap (SrInfo.bytes order)).take cut)
    (inside : cut ≤ srInfoSize * events.length) (indices : ∀ event ∈ events, event.index < 2 ^ 31) (enough : cut < fuel) :
    parseFrom order file fuel position = some ((events.take (cut / srInfoSize)).map Event.callback ++
      if cut % srInfoSize = 0 ∧ file.fails = false then [.replayEnd 0] else []) := by
  induction events generalizing info position fuel cut with
  | nil =>
    obtain rfl : cut = 0 := by simpa using inside
    obtain ⟨fuel, rfl⟩ : ∃ more, fuel = more + 1 := ⟨fuel - 1, by omega⟩
    have empty : file.bytes.drop position = [] := left
    rw [parseFrom_last (by rw [empty]; decide)]
    simp [empty]
  | cons event rest ih =>
    obtain ⟨fuel, rfl⟩ : ∃ more, fuel = more + 1 := ⟨fuel - 1, by omega⟩
    have record := bytes_length order (fillInfo info event)
    have whole : ((layOut info (event :: rest)).flatMap (SrInfo.bytes order)) =
        (fillInfo info event).bytes order ++ (layOut (fillInfo info event) rest).flatMap (SrInfo.bytes order) := List.flatMap_cons
    rw [whole] at left
    have size : srInfoSize = 24 := rfl
    rcases Nat.lt_or_ge cut srInfoSize with short | long
    · have length : (file.bytes.drop position).length = cut := by
        rw [left, List.length_take, List.length_append, record]
        omega
      have empty : file.bytes.drop position = [] ↔ cut % srInfoSize = 0 := by
        rw [← List.length_eq_zero_iff, length, Nat.mod_eq_of_lt short]
      rw [parseFrom_last (length ▸ short), Nat.div_eq_of_lt short]
      simp only [empty, List.take_zero, List.map_nil, List.nil_append]
    · rw [List.take_append, record, List.take_of_length_le (record ▸ long)] at left
      have bytes : (file.bytes.drop position).take srInfoSize = (fillInfo info event).bytes order := by
        rw [left, List.take_left' record]
      have enough' : srInfoSize ≤ (file.bytes.drop position).length := by
        rw [left, List.length_append, record]
        exact Nat.le_add_right _ _
      have behind : file.bytes.drop (position + srInfoSize) = ((layOut (fillInfo info event) rest).flatMap (SrInfo.bytes order)).take
          (cut - srInfoSize) := by
        rw [← List.drop_drop, left, List.drop_left' record]
      have later := ih behind (by rw [List.length_cons, Nat.mul_succ] at inside; omega)
        (fun other member => indices other (List.mem_cons_of_mem _ member))
        (show cut - srInfoSize < fuel by omega)
      have quotient : cut / srInfoSize = (cut - srInfoSize) / srInfoSize + 1 := by rw [size] at *; omega
      have remainder : cut % srInfoSize = (cut - srInfoSize) % srInfoSize := by rw [size] at *; omega
      have nonzero : ¬ (srInfoSize : Int) = 0 := by decide
      have positive : ¬ (srInfoSize : Int) < 0 := by decide
      rw [parseFrom, File.read_whole enough', if_neg nonzero, if_neg positive, if_neg (fun differs => differs rfl), later, bytes,
        deliver_bytes (indices event List.mem_cons_self), quotient, remainder]
      rfl

def recording (order : ByteOrder) (info : SrInfo) (events : List Event) (cut : Nat) (fails loses : Bool) : File :=
  ⟨((layOut info events).flatMap (SrInfo.bytes order)).take cut, fails, loses⟩

theorem layOut_length (info : SrInfo) (events : List Event) : ((layOut info events).flatMap (SrInfo.bytes order)).length =
    srInfoSize * events.length := by
  induction events generalizing info with
  | nil => rfl
  | cons event rest ih => rw [layOut, List.flatMap_cons, List.length_append, bytes_length, ih, List.length_cons, Nat.mul_succ, Nat.add_comm]

theorem recording_length (order : ByteOrder) (info : SrInfo) {cut : Nat} (fails loses : Bool) (inside : cut ≤ srInfoSize * events.length) :
    (recording order info events cut fails loses).bytes.length = cut := by
  refine List.length_take_of_le ?_
  rw [layOut_length]
  exact inside

/-- The events of complete records are always played back; the end is reported when
the file ends cleanly. -/
theorem parseFile_recording (order : ByteOrder) (info : SrInfo) {cut : Nat} (fails loses : Bool) (inside : cut ≤ srInfoSize * events.length)
    (indices : ∀ event ∈ events, event.index < 2 ^ 31) :
    parseFile order (recording order info events cut fails loses) = some ((events.take (cut / srInfoSize)).map Event.callback ++
      if cut % srInfoSize = 0 ∧ fails = false then [.replayEnd 0] else []) :=
  parseFrom_layOut List.drop_zero inside indices (by rw [recording_length order info fails loses inside]; exact Nat.lt_succ_self cut)

/-- The end of a recording is reported exactly when it is a clean one. -/
theorem decodes_iff {cut : Nat} (fails loses : Bool) (inside : cut ≤ srInfoSize * events.length)
    (indices : ∀ event ∈ events, event.index < 2 ^ 31) :
    Decodes order (recording order info events cut fails loses) events ↔ cut % srInfoSize = 0 ∧ fails = false := by
  have length := recording_length order info fails loses inside
  have parsed := parseFile_recording order info fails loses inside indices
  rw [Decodes, parsed, length]
  constructor
  · rintro ⟨err, same, _⟩
    have tails := List.append_cancel_left (Option.some.inj same)
    split at tails
    next clean => exact clean
    next => cases tails
  · intro clean
    refine ⟨0, by rw [if_pos clean], ?_⟩
    have ended : (recording order info events cut fails loses).ending = .clean := by
      rw [File.ending, length, if_pos clean.1]
      exact if_neg fun failed => absurd (clean.2.symm.trans failed.1) (by decide)
    rw [ended]
    rfl

end Playback

section Sample

def noHash : Hash := ⟨List.replicate 16 0, rfl⟩

/-- A write and a read of one page, cut off one byte early. -/
def cutEvents : List Event := [.write 5 100 noHash, .read 5]

theorem decodes_iff_sample : Decodes .little (recording .little ⟨0, 0, noHash⟩ cutEvents 48 false false) cutEvents ↔
    48 % srInfoSize = 0 ∧ false = false :=
  decodes_iff false false (by decide) (by decide)

/-- Without its last byte the end of the file goes unreported. -/
theorem end_unreported : ∃ calls, parseFile .little (recording .little ⟨0, 0, noHash⟩ cutEvents 47 false false) = some calls ∧
    ∀ err, Callback.replayEnd err ∉ calls := by
  refine ⟨[.swapWrite 5 100 (List.replicate 16 0)], by decide +kernel, fun err => ?_⟩
  simp

end Sample
end Compcache.SwapReplay
