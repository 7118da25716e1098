import Mathlib.Data.List.Basic
import Compcache.Kernel

/-! `sub-projects/swap_replay`: a device that records swap requests as it forwards
them, and the library that plays a recording back. -/

namespace Compcache.SwapReplay

def hashBytes : Nat := 16
def srSectorsPerPage : Nat := pageSize / 2 ^ 9

/-- How the machine lays out the bytes of a word. -/
inductive ByteOrder
  | little
  | big
  deriving DecidableEq

abbrev Hash := { bytes : List UInt8 // bytes.length = hashBytes }

structure SrInfo where
  pageRw : UInt32
  clen : UInt32
  hash : Hash

/-- `sizeof(struct sr_info)`. -/
def srInfoSize : Nat := 4 + 4 + hashBytes

def ByteOrder.arrange : ByteOrder → List UInt8 → List UInt8
  | little, bytes => bytes
  | big, bytes => bytes.reverse

def wordToBytes (order : ByteOrder) (word : UInt32) : List UInt8 :=
  order.arrange [UInt8.ofNat word.toNat, UInt8.ofNat (word.toNat / 2 ^ 8), UInt8.ofNat (word.toNat / 2 ^ 16),
    UInt8.ofNat (word.toNat / 2 ^ 24)]

def wordOfBytes (order : ByteOrder) (bytes : List UInt8) : UInt32 :=
  UInt32.ofNat ((order.arrange bytes).foldr (fun byte rest => byte.toNat + 2 ^ 8 * rest) 0)

def SrInfo.bytes (order : ByteOrder) (info : SrInfo) :
    List UInt8 := wordToBytes order info.pageRw ++ wordToBytes order info.clen ++ info.hash.val

/-! The recording device. -/

/-- A request worth recording. What the compressor and the hash function leave in
`sr_info` is taken as it comes. -/
inductive Event
  | read (index : Nat)
  | write (index : Nat) (clen : UInt32) (hash : Hash)

def Event.index : Event → Nat
  | read index => index
  | write index _ _ => index

/-- `bio_data_dir`. -/
def Event.dir : Event → Nat
  | read _ => 0
  | write _ _ _ => 1

/-- What `sr_make_request` puts into `sr_info`. A read leaves the hash of an earlier write. -/
def fillInfo (info : SrInfo) (event : Event) : SrInfo :=
  let info := { info with pageRw := UInt32.ofNat (event.index <<< 1 ||| event.dir), clen := 0 }
  match event with
  | .read _ => info
  | .write _ clen hash => { info with clen, hash }

structure SwapBio where
  sector : Nat
  vcnt : Nat
  size : Nat
  bvOffset : Nat
  /-- The compressed length and the hash, of a write. -/
  written : Option (UInt32 × Hash)

def SwapBio.event (bio : SwapBio) : Event :=
  match bio.written with
  | none => .read (bio.sector / srSectorsPerPage)
  | some (clen, hash) => .write (bio.sector / srSectorsPerPage) clen hash

structure Relay where
  srInfo : SrInfo
  firstWriteDone : Bool
  log : List SrInfo

/-- What the device records of a request before it forwards it. -/
def srMakeRequest (relay : Relay) (bio : SwapBio) : Relay :=
  if bio.sector % srSectorsPerPage ≠ 0 ∨ bio.vcnt ≠ 1 ∨ bio.size ≠ pageSize ∨ bio.bvOffset ≠ 0 then relay
  else
    let srInfo := fillInfo relay.srInfo bio.event
    match bio.written with
    | some _ => ⟨srInfo, true, relay.log ++ [srInfo]⟩
    | none => if relay.firstWriteDone then ⟨srInfo, true, relay.log ++ [srInfo]⟩ else { relay with srInfo }

/-! The library. -/

/-- A file to read from: its bytes, and whether reading fails behind them. A read that
meets the failure may return the bytes in front of it, or lose them. -/
structure File where
  bytes : List UInt8
  fails : Bool
  loses : Bool

/-- `read`: the return value, and the bytes. -/
def File.read (file : File) (position count : Nat) : Int × List UInt8 :=
  let available := (file.bytes.drop position).take count
  if file.fails ∧ available.length < count ∧ (available = [] ∨ file.loses) then (-1, []) else (available.length, available)

inductive Callback
  | swapRead (index : Nat)
  | swapWrite (index len : Nat) (hash : List UInt8)
  | replayEnd (err : Int)
  deriving DecidableEq

def deliver (order : ByteOrder) (bytes : List UInt8) : Callback :=
  let pageRw := wordOfBytes order (bytes.take 4)
  let index := pageRw >>> 1
  if pageRw &&& 1 = 0 then .swapRead index.toNat
  else .swapWrite index.toNat (wordOfBytes order ((bytes.drop 4).take 4)).toNat (bytes.drop 8)

/-- The loop of `parse_file`; `none` when it has not ended yet. -/
def parseFrom (order : ByteOrder) (file : File) : Nat → Nat → Option (List Callback)
  | 0, _ => none
  | fuel + 1, position =>
    let result := file.read position srInfoSize
    if result.1 = 0 then some [.replayEnd result.1]
    else if result.1 < 0 then some []
    else if result.1 ≠ srInfoSize then some []
    else (parseFrom order file fuel (position + srInfoSize)).map fun rest => deliver order result.2 :: rest

def parseFile (order : ByteOrder) (file : File) : Option (List Callback) := parseFrom order file (file.bytes.length + 1) 0

end Compcache.SwapReplay
