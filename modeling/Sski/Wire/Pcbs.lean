import Sski.Wire.Instructions
import Mathlib.Data.UInt

/-!
Process control blocks as bytes.

The encoder walks over a block it has asked for, the decoder over the stream, into a block of
its own that nobody has cleared: of the eight bytes of its `size` it sets four.
-/

namespace Sski.Wire.Pcbs

open Sski.Lib.Block Sski.Lib.Cursor Sski.Wire.Instructions
open Sski.Mem.MemoryModule (malloc length_malloc)

/-- `pcb_t`, with the `status` as the four bytes of a `pcb_status_t`. -/
structure Pcb where
  id : UInt32
  status : UInt32
  size : UInt64
  instructions : List Instruction
  pageTable : UInt32
  estimation : UInt32
  pc : UInt32
  io : UInt32
  real : UInt32
  deriving DecidableEq, Repr

def listSize {α : Type*} (l : List α) : ℤ :=
  let size : ℕ := l.length % 2 ^ 32
  if size < 2 ^ 31 then size else (size : ℤ) - 2 ^ 32

/-- `pcb_bytes_size`; the list is there in every block that was made. -/
def pcbBytesSize (pcb : Pcb) : ℕ :=
  (4 * 5 + 4 + 4 + instructionSize * (listSize pcb.instructions % 2 ^ 64).toNat) % 2 ^ 64

def pcbToStream (heap : Heap) (pcb : Pcb) : Option (List UInt8) := do
  let pcbSize := pcbBytesSize pcb
  let stream := start (malloc (heap 0) pcbSize)
  let stream ← put 64 stream (bytesOf pcb.id)
  let stream ← put 64 stream (bytesOf pcb.status)
  -- the first four bytes of the `size_t`
  let stream ← put 64 stream (wordBytes pcb.size.toNat)
  let stream ← put 64 stream (bytesOf pcb.estimation)
  let stream ← put 64 stream (bytesOf pcb.pc)
  let stream ← put 64 stream (bytesOf pcb.pageTable)
  let listCount := listSize pcb.instructions
  let stream ← put 64 stream (wordBytes (listCount % 2 ^ 32).toNat)
  if listCount = 0 then
    return stream.block
  let streamsList ← streamsOf (fun i => heap (i + 1)) pcb.instructions
  let stream ← copyStreams 64 (streamsList.take listCount.toNat) stream
  return stream.block

/-- Four bytes copied to the front of a `size_t`. -/
def setLow (size : UInt64) (bytes : List UInt8) : UInt64 :=
  UInt64.ofNat (size.toNat / 2 ^ 32 * 2 ^ 32 + bytesWord bytes)

/-- `pcb_from_stream`; `block` is what `malloc` returned. -/
def pcbFromStream (block : Pcb) (stream : List UInt8) : Option Pcb := do
  let (id, k) ← get 64 (start stream) 4
  let (status, k) ← get 64 k 4
  let (size, k) ← get 64 k 4
  let (estimation, k) ← get 64 k 4
  let (pc, k) ← get 64 k 4
  let (pageTable, k) ← get 64 k 4
  let instructions ← instructionListFrom (k.block.drop k.offset)
  return { block with
    id := wordOf id, status := wordOf status, size := setLow block.size size,
    estimation := wordOf estimation, pc := wordOf pc, pageTable := wordOf pageTable,
    instructions }

variable {p q : Pcb} {rest : List UInt8}

/-! ### Sizes -/

lemma listSize_eq {α : Type*} {l : List α} (h : l.length < 2 ^ 31) : listSize l = l.length := by
  simp only [listSize, Nat.mod_eq_of_lt (h.trans (by decide : 2 ^ 31 < 2 ^ 32)), if_pos h]

lemma pcbBytesSize_eq (h : p.instructions.length < 2 ^ 31) :
    pcbBytesSize p = 28 + instructionSize * p.instructions.length := by
  rw [pcbBytesSize, listSize_eq h]
  simp only [instructionSize]
  omega

lemma pcbBytesSize_congr (h : q.instructions = p.instructions) :
    pcbBytesSize q = pcbBytesSize p := by
  rw [pcbBytesSize, pcbBytesSize, h]

/-! ### The bytes of a block -/

/-- The fields in front of the instructions. -/
def header (p : Pcb) : List UInt8 :=
  bytesOf p.id ++ bytesOf p.status ++ wordBytes p.size.toNat ++ bytesOf p.estimation ++
    bytesOf p.pc ++ bytesOf p.pageTable

def encodePcb (p : Pcb) : List UInt8 := header p ++ encodeList p.instructions

@[simp] lemma length_header (p : Pcb) : (header p).length = 24 := rfl

@[simp] lemma length_encodePcb (p : Pcb) :
    (encodePcb p).length = 28 + instructionSize * p.instructions.length := by
  rw [encodePcb, List.length_append, length_header, length_encodeList]
  omega

lemma pcbToStream_eq (heap : Heap) (h : p.instructions.length < 2 ^ 31) :
    pcbToStream heap p = some (encodePcb p) := by
  have hsize := pcbBytesSize_eq h
  have hn : pcbBytesSize p < 2 ^ 64 := by rw [hsize, instructionSize]; omega
  have h0 := filled_start (malloc (heap 0) (pcbBytesSize p))
  rw [length_malloc] at h0
  obtain ⟨k1, hp1, h1⟩ := h0.put (w := 64) (e := bytesOf p.id) (by simp; omega) hn
  obtain ⟨k2, hp2, h2⟩ := h1.put (w := 64) (e := bytesOf p.status) (by simp; omega) hn
  obtain ⟨k3, hp3, h3⟩ := h2.put (w := 64) (e := wordBytes p.size.toNat) (by simp; omega) hn
  obtain ⟨k4, hp4, h4⟩ := h3.put (w := 64) (e := bytesOf p.estimation) (by simp; omega) hn
  obtain ⟨k5, hp5, h5⟩ := h4.put (w := 64) (e := bytesOf p.pc) (by simp; omega) hn
  obtain ⟨k6, hp6, h6⟩ := h5.put (w := 64) (e := bytesOf p.pageTable) (by simp; omega) hn
  have hcount : wordBytes ((p.instructions.length : ℤ) % 2 ^ 32).toNat =
      bytesOf (UInt32.ofNat p.instructions.length) := by
    rw [bytesOf, UInt32.toNat_ofNat_of_lt' (by change _ < 2 ^ 32; omega)]
    congr 1
    omega
  obtain ⟨k7, hp7, h7⟩ := h6.put (w := 64) (e := bytesOf (UInt32.ofNat p.instructions.length))
    (by simp; omega) hn
  obtain ⟨k8, hp8, h8⟩ := copyStreams_filled h7 p.instructions (by simp; omega) hn
  have hblock : k8.block = encodePcb p := by
    refine (h8.block_eq ?_).trans ?_
    · simp only [List.length_append, length_flatMap_encode, hsize]
      rfl
    · simp only [encodePcb, header, encodeList, List.append_assoc, List.nil_append]
  simp only [pcbToStream, hp1, hp2, hp3, hp4, hp5, hp6, hp7, listSize_eq h, hcount,
    Option.bind_eq_bind, Option.bind_some]
  split
  next h0 =>
    -- the early return: there is nothing behind the count
    have hnil : p.instructions = [] := List.length_eq_zero_iff.mp (by omega)
    rw [hnil] at hp8
    cases hp8
    rw [← hblock]
    rfl
  next h0 =>
    have htake : (p.instructions.map encode).take (p.instructions.length : ℤ).toNat =
        p.instructions.map encode := List.take_of_length_le (by simp)
    rw [streamsOf_eq, Option.bind_some, htake, hp8, Option.bind_some, hblock]
    rfl

/-- What the decoder makes of the bytes: of the old `size` the upper half is left. -/
lemma pcbFromStream_eq (block : Pcb) (rest : List UInt8) (h : p.instructions.length < 2 ^ 31)
    (hsmall : (encodePcb p ++ rest).length < 2 ^ 64) :
    pcbFromStream block (encodePcb p ++ rest) =
      some { p with size := setLow block.size (wordBytes p.size.toNat), io := block.io,
                    real := block.real } := by
  have hlist : instructionListFrom (encodeList p.instructions ++ rest) = some p.instructions := by
    refine instructionListFrom_eq (by omega) ?_
    rw [encodePcb, List.append_assoc, List.length_append] at hsmall
    omega
  have h0 := ahead_start hsmall
  rw [encodePcb, header] at h0 ⊢
  simp only [List.append_assoc] at h0 ⊢
  obtain ⟨k1, hg1, h1⟩ := h0.get (length_bytesOf _)
  obtain ⟨k2, hg2, h2⟩ := h1.get (length_bytesOf _)
  obtain ⟨k3, hg3, h3⟩ := h2.get (length_wordBytes _)
  obtain ⟨k4, hg4, h4⟩ := h3.get (length_bytesOf _)
  obtain ⟨k5, hg5, h5⟩ := h4.get (length_bytesOf _)
  obtain ⟨k6, hg6, h6⟩ := h5.get (length_bytesOf _)
  simp only [pcbFromStream, hg1, hg2, hg3, hg4, hg5, hg6, h6.cells, hlist, wordOf_bytesOf,
    Option.bind_eq_bind, Option.bind_some]
  rfl

lemma length_of_pcbFromStream {block : Pcb} {k : ℕ} (hsmall : (encodePcb p).length < 2 ^ 64)
    (hl : p.instructions.length < 2 ^ 31)
    (h : pcbFromStream block ((encodePcb p).take k) = some q) : (encodePcb p).length ≤ k := by
  simp only [pcbFromStream, Option.bind_eq_bind, Option.bind_eq_some_iff, Prod.exists] at h
  obtain ⟨_, k1, h1, _, k2, h2, _, k3, h3, _, k4, h4, _, k5, h5, _, k6, h6, l, hlist, -⟩ := h
  obtain ⟨-, -, rfl⟩ := of_get h1
  obtain ⟨-, -, rfl⟩ := of_get h2
  obtain ⟨-, -, rfl⟩ := of_get h3
  obtain ⟨-, -, rfl⟩ := of_get h4
  obtain ⟨-, -, rfl⟩ := of_get h5
  obtain ⟨-, -, rfl⟩ := of_get h6
  have htail : ((encodePcb p).take k).drop 24 = (encodeList p.instructions).take (k - 24) := by
    rw [List.drop_take, encodePcb, ← length_header p, List.drop_left]
  simp only [start, Nat.zero_add, Nat.reduceAdd, Nat.reducePow, Nat.reduceMod] at hlist
  rw [htail] at hlist
  have hlen := length_of_instructionListFrom (by
    rw [encodePcb, List.length_append] at hsmall
    rw [List.length_take]
    omega) hlist
  rw [List.length_take, length_encodeList] at hlen
  have hcount : ((encodeList p.instructions).take (k - 24)).take 4 =
      bytesOf (UInt32.ofNat p.instructions.length) := by
    rw [List.take_take, min_eq_left (by omega)]
    rfl
  rw [hcount, wordOf_bytesOf, UInt32.toNat_ofNat_of_lt' (by change _ < 2 ^ 32; omega)] at hlen
  obtain ⟨hcount, hle⟩ := hlen
  rw [hcount] at hle
  rw [length_encodePcb]
  omega

/-! ### The round trip -/

lemma setLow_toNat (size : UInt64) (v : ℕ) :
    (setLow size (wordBytes v)).toNat = size.toNat / 2 ^ 32 * 2 ^ 32 + v % 2 ^ 32 := by
  have hsize := size.toNat_lt
  rw [setLow, bytesWord_wordBytes]
  exact UInt64.toNat_ofNat_of_lt' (by change _ < 2 ^ 64; omega)

/-- Equal on what the encoder sends. -/
structure Recovered (p q : Pcb) : Prop where
  id : q.id = p.id
  status : q.status = p.status
  size : q.size = p.size
  estimation : q.estimation = p.estimation
  pc : q.pc = p.pc
  pageTable : q.pageTable = p.pageTable
  instructions : q.instructions = p.instructions

/-- **Main result.** A block is recovered from its bytes just when the upper half of the
`size` in the block that `malloc` returned was zero. -/
theorem recovered_iff (heap : Heap) (block p : Pcb) (hsize : p.size.toNat < 2 ^ 32)
    (hlen : p.instructions.length < 2 ^ 31) :
    (∃ stream q, pcbToStream heap p = some stream ∧ pcbFromStream block stream = some q ∧
      Recovered p q) ↔ block.size.toNat < 2 ^ 32 := by
  have hsmall : (encodePcb p ++ []).length < 2 ^ 64 := by
    rw [List.append_nil, length_encodePcb, instructionSize]
    omega
  have hdec := pcbFromStream_eq block _ hlen hsmall
  rw [List.append_nil] at hdec
  have hlow := setLow_toNat block.size p.size.toNat
  rw [Nat.mod_eq_of_lt hsize] at hlow
  constructor
  · rintro ⟨stream, q, hs, hq, hrec⟩
    rw [pcbToStream_eq heap hlen] at hs
    cases hs
    rw [hdec] at hq
    cases hq
    have hq : setLow block.size (wordBytes p.size.toNat) = p.size := hrec.size
    rw [hq] at hlow
    omega
  · intro hblock
    refine ⟨_, _, pcbToStream_eq heap hlen, hdec, rfl, rfl, ?_, rfl, rfl, rfl, rfl⟩
    apply UInt64.toNat_inj.mp
    simp only [hlow]
    omega

/-- A block of the heap that still holds the pointers of an earlier list. -/
def usedBlock : Pcb := ⟨0, 0, 2 ^ 32, [], 0, 0, 0, 0, 0⟩

/-- A block that still holds small numbers. -/
def otherBlock : Pcb := ⟨7, 2, 300, [⟨1, 16, 0⟩], 9, 4, 1, 8, 3⟩

/-- `WRITE 12 34`, `I/O 300` and `EXIT`. -/
def smallPcb : Pcb := ⟨1, 0xffffffff, 64, [⟨2, 12, 34⟩, ⟨4, 300, 0⟩, ⟨0, 0, 0⟩], 5, 10, 1, 0, 0⟩

theorem recovered_smallPcb : ∃ stream q, pcbToStream (fun _ _ => 0) smallPcb = some stream ∧
    pcbFromStream otherBlock stream = some q ∧ Recovered smallPcb q :=
  (recovered_iff (fun _ _ => 0) otherBlock smallPcb (by decide) (by decide)).mpr (by decide)

/-- In a block that held something the size comes out four gigabytes too large. -/
theorem not_recovered : ¬ ∀ (heap : Heap) (block p : Pcb), p.size.toNat < 2 ^ 32 →
    p.instructions.length < 2 ^ 31 →
    ∃ stream q, pcbToStream heap p = some stream ∧ pcbFromStream block stream = some q ∧
      Recovered p q := by
  intro h
  obtain ⟨stream, q, hs, hq, hrec⟩ :=
    h (fun _ _ => 0) usedBlock smallPcb (by decide) (by decide)
  have hfacts : ∃ stream q, pcbToStream (fun _ _ => 0) smallPcb = some stream ∧
      pcbFromStream usedBlock stream = some q ∧ q.size = 2 ^ 32 + 64 := ⟨_, _, rfl, rfl, by decide⟩
  obtain ⟨stream', q', hs', hq', hsize⟩ := hfacts
  cases hs.symm.trans hs'
  cases hq.symm.trans hq'
  have hne := hrec.size
  rw [hsize] at hne
  exact absurd hne (by decide)

end Sski.Wire.Pcbs
