import Sski.Lib.Cursor
import Sski.Lib.Records
import Sski.Mem.MemoryModule

/-!
Instructions as bytes: one instruction, the fold a console sends, and the list a receiver
builds.

`none` is a copy that leaves its block. What `malloc` returns may hold anything, so every
function gets the contents of the blocks it asks for.
-/

namespace Sski.Wire.Instructions

open Sski.Lib.Block Sski.Lib.Cursor Sski.Lib.Records
open Sski.Mem.MemoryModule (malloc length_malloc)

/-- What the blocks of the heap hold, in the order they are handed out. -/
abbrev Heap := ℕ → ℕ → UInt8

/-- `instruction_t`; the operation is any value of the four bytes of an `instcode_t`. -/
structure Instruction where
  icode : UInt32
  param0 : UInt32
  param1 : UInt32
  deriving DecidableEq, Repr

/-- `sizeof(instruction_t)`. -/
def instructionSize : ℕ := 12

def wordOf (bytes : List UInt8) : UInt32 := UInt32.ofNat (bytesWord bytes)

def bytesOf (word : UInt32) : List UInt8 := wordBytes word.toNat

@[simp] lemma length_bytesOf (word : UInt32) : (bytesOf word).length = 4 := rfl

@[simp] lemma wordOf_bytesOf (word : UInt32) : wordOf (bytesOf word) = word := by
  rw [wordOf, bytesOf, bytesWord_wordBytes, Nat.mod_eq_of_lt word.toNat_lt, UInt32.ofNat_toNat]

def instructionToStream (heap : ℕ → UInt8) (this : Instruction) : Option (List UInt8) := do
  let stream := start (malloc heap instructionSize)
  let stream ← put 64 stream (bytesOf this.icode)
  let stream ← put 64 stream (bytesOf this.param0)
  let stream ← put 64 stream (bytesOf this.param1)
  return stream.block

def instructionFromStream (stream : List UInt8) : Option Instruction := do
  let (icode, stream) ← get 64 (start stream) 4
  let (param0, stream) ← get 64 stream 4
  let (param1, _) ← get 64 stream 4
  return ⟨wordOf icode, wordOf param0, wordOf param1⟩

/-- `list_map(list, instruction_to_stream)`. -/
def streamsOf (heap : Heap) (list : List Instruction) : Option (List (List UInt8)) :=
  (list.mapIdx fun i x => instructionToStream (heap i) x).mapM id

/-- The elements of a list of streams, copied one after the other. -/
def copyStreams (bits : ℕ) (streams : List (List UInt8)) (stream : Cursor UInt8) :
    Option (Cursor UInt8) :=
  streams.foldlM (fun acc next => do put bits acc (← peek next 0 instructionSize)) stream

/-- `instructions_fold`; the offset the reducer captures is a `uint32_t`. -/
def instructionsFold (heap : Heap) (list : List Instruction) : Option (List UInt8) := do
  let size := UInt32.ofNat list.length
  let stream := start (malloc (heap 0) ((4 + instructionSize * size.toNat) % 2 ^ 64))
  let stream ← put 32 stream (bytesOf size)
  let streamList ← streamsOf (fun i => heap (i + 1)) list
  let stream ← copyStreams 32 streamList stream
  return stream.block

/-- The loop of `instruction_list_from`, with the iterations that are left. -/
def instructionListLoop (stream : List UInt8) :
    ℕ → ℕ → List Instruction → Option (List Instruction)
  | 0, _, list => some list
  | left + 1, offset, list => do
    let instruction ← instructionFromStream (stream.drop offset)
    instructionListLoop stream left ((offset + instructionSize) % 2 ^ 64) (list ++ [instruction])

def instructionListFrom (stream : List UInt8) : Option (List Instruction) := do
  let size ← peek stream 0 4
  instructionListLoop stream (wordOf size).toNat 4 []

/-! ### One instruction -/

def encode (x : Instruction) : List UInt8 := bytesOf x.icode ++ bytesOf x.param0 ++ bytesOf x.param1

@[simp] lemma length_encode (x : Instruction) : (encode x).length = instructionSize := rfl

lemma instructionToStream_eq (heap : ℕ → UInt8) (x : Instruction) :
    instructionToStream heap x = some (encode x) := by
  have h0 : Filled 12 [] (start (malloc heap instructionSize)) := by
    simpa [instructionSize] using filled_start (malloc heap 12)
  obtain ⟨k1, hp1, h1⟩ := h0.put (w := 64) (e := bytesOf x.icode) (by simp) (by decide)
  obtain ⟨k2, hp2, h2⟩ := h1.put (w := 64) (e := bytesOf x.param0) (by simp) (by decide)
  obtain ⟨k3, hp3, h3⟩ := h2.put (w := 64) (e := bytesOf x.param1) (by simp) (by decide)
  have hblock : k3.block = encode x := h3.block_eq (by simp)
  simp only [instructionToStream, hp1, hp2, hp3, Option.bind_eq_bind, Option.bind_some, hblock]
  rfl

lemma instructionFromStream_encode (x : Instruction) {rest : List UInt8}
    (hlen : (encode x ++ rest).length < 2 ^ 64) :
    instructionFromStream (encode x ++ rest) = some x := by
  have h0 : Ahead 64 (bytesOf x.icode ++ (bytesOf x.param0 ++ (bytesOf x.param1 ++ rest)))
      (start (encode x ++ rest)) := by
    simpa [encode] using ahead_start hlen
  obtain ⟨k1, hg1, h1⟩ := h0.get (length_bytesOf _)
  obtain ⟨k2, hg2, h2⟩ := h1.get (length_bytesOf _)
  obtain ⟨k3, hg3, -⟩ := h2.get (length_bytesOf _)
  simp only [instructionFromStream, hg1, hg2, hg3, Option.bind_eq_bind, Option.bind_some,
    wordOf_bytesOf]
  rfl

lemma length_of_instructionFromStream {stream : List UInt8} {x : Instruction}
    (h : instructionFromStream stream = some x) : instructionSize ≤ stream.length := by
  simp only [instructionFromStream, Option.bind_eq_bind, Option.bind_eq_some_iff,
    Prod.exists] at h
  obtain ⟨_, k1, h1, _, k2, h2, _, k3, h3, -⟩ := h
  obtain ⟨-, -, rfl⟩ := of_get h1
  obtain ⟨-, -, rfl⟩ := of_get h2
  exact (of_get h3).1

/-! ### A list of instructions -/

/-- The bytes of a list: how many instructions there are, and one after the other. -/
def encodeList (l : List Instruction) : List UInt8 :=
  bytesOf (UInt32.ofNat l.length) ++ l.flatMap encode

lemma length_flatMap_encode (l : List Instruction) :
    (l.flatMap encode).length = instructionSize * l.length := by
  rw [length_flatMap fun _ _ => length_encode _, Nat.mul_comm]

@[simp] lemma length_encodeList (l : List Instruction) :
    (encodeList l).length = 4 + instructionSize * l.length := by
  rw [encodeList, List.length_append, length_flatMap_encode, length_bytesOf]

lemma streamsOf_eq (heap : Heap) (l : List Instruction) :
    streamsOf heap l = some (l.map encode) := by
  rw [streamsOf]
  induction l generalizing heap with
  | nil => rfl
  | cons x l ih =>
    rw [List.mapIdx_cons, List.mapM_cons, id, instructionToStream_eq,
      ih fun i => heap (i + 1)]
    rfl

lemma copyStreams_filled {bits n : ℕ} {d : List UInt8} {k : Cursor UInt8} (h : Filled n d k)
    (l : List Instruction) (hroom : d.length + instructionSize * l.length ≤ n)
    (hbits : n < 2 ^ bits) :
    ∃ k', copyStreams bits (l.map encode) k = some k' ∧ Filled n (d ++ l.flatMap encode) k' := by
  induction l generalizing d k with
  | nil => exact ⟨k, rfl, by simpa using h⟩
  | cons x l ih =>
    rw [List.length_cons, Nat.mul_succ] at hroom
    have hone : d.length + (encode x).length ≤ n := by
      rw [length_encode]
      omega
    obtain ⟨k1, hp1, h1⟩ := h.put (w := bits) hone hbits
    obtain ⟨k2, hp2, h2⟩ := ih h1 (by rw [List.length_append, length_encode]; omega)
    refine ⟨k2, ?_, ?_⟩
    · have hpeek : peek (encode x) 0 instructionSize = some (encode x) :=
        peek_eq_some_iff.mpr ⟨le_rfl, rfl⟩
      rw [List.map_cons, copyStreams, List.foldlM_cons, hpeek]
      simp only [Option.bind_eq_bind, Option.bind_some, hp1]
      exact hp2
    · rw [List.flatMap_cons, ← List.append_assoc]
      exact h2

lemma instructionsFold_eq (heap : Heap) {l : List Instruction}
    (hlen : 4 + instructionSize * l.length < 2 ^ 32) :
    instructionsFold heap l = some (encodeList l) := by
  have hsize : (UInt32.ofNat l.length).toNat = l.length :=
    UInt32.toNat_ofNat_of_lt' (by simp only [instructionSize] at hlen; change _ < 2 ^ 32; omega)
  have h0 := filled_start (malloc (heap 0) (4 + instructionSize * l.length))
  rw [length_malloc] at h0
  obtain ⟨k1, hp1, h1⟩ := h0.put (w := 32) (e := bytesOf (UInt32.ofNat l.length))
    (by simp) hlen
  obtain ⟨k2, hp2, h2⟩ := copyStreams_filled h1 l (by simp) hlen
  have hblock : k2.block = encodeList l := h2.block_eq (length_encodeList l)
  have hmod : (4 + instructionSize * l.length) % 2 ^ 64 = 4 + instructionSize * l.length :=
    Nat.mod_eq_of_lt (by omega)
  simp only [instructionsFold, hsize, hmod, hp1, streamsOf_eq, hp2, Option.bind_eq_bind,
    Option.bind_some, hblock]
  rfl

lemma instructionListLoop_eq {stream rest : List UInt8} (hsmall : stream.length < 2 ^ 64)
    (l : List Instruction) {offset : ℕ} (acc : List Instruction)
    (hin : offset ≤ stream.length) (h : stream.drop offset = l.flatMap encode ++ rest) :
    instructionListLoop stream l.length offset acc = some (acc ++ l) := by
  induction l generalizing offset acc with
  | nil => simp [instructionListLoop]
  | cons x l ih =>
    have hlen := congrArg List.length h
    rw [List.flatMap_cons, List.append_assoc] at h
    rw [List.length_drop, List.length_append, length_flatMap_encode, List.length_cons,
      Nat.mul_succ] at hlen
    have hoff : (offset + instructionSize) % 2 ^ 64 = offset + instructionSize :=
      Nat.mod_eq_of_lt (by omega)
    have hx : instructionFromStream (stream.drop offset) = some x := by
      rw [h]
      refine instructionFromStream_encode x ?_
      rw [← h, List.length_drop]
      omega
    rw [List.length_cons, instructionListLoop, hx, hoff, Option.bind_eq_bind, Option.bind_some,
      ih (acc ++ [x]) (by omega), List.append_assoc, List.singleton_append]
    rw [← List.drop_drop, h, ← length_encode x, List.drop_left]

lemma instructionListFrom_eq {l : List Instruction} {rest : List UInt8} (hl : l.length < 2 ^ 32)
    (hsmall : (encodeList l ++ rest).length < 2 ^ 64) :
    instructionListFrom (encodeList l ++ rest) = some l := by
  have hpeek : peek (encodeList l ++ rest) 0 4 = some (bytesOf (UInt32.ofNat l.length)) := by
    rw [encodeList, List.append_assoc, peek_eq_some_iff]
    exact ⟨by simp, rfl⟩
  have hdrop : (encodeList l ++ rest).drop 4 = l.flatMap encode ++ rest := by
    rw [encodeList, List.append_assoc]
    rfl
  have hloop := instructionListLoop_eq hsmall l [] (by simp; omega) hdrop
  rw [instructionListFrom, hpeek, Option.bind_eq_bind, Option.bind_some, wordOf_bytesOf,
    UInt32.toNat_ofNat_of_lt' hl, hloop, List.nil_append]

lemma length_of_instructionListLoop {stream : List UInt8} (hsmall : stream.length < 2 ^ 64) :
    ∀ (left : ℕ) {offset : ℕ} {acc l : List Instruction}, offset ≤ stream.length →
      instructionListLoop stream left offset acc = some l →
      l.length = acc.length + left ∧ offset + instructionSize * left ≤ stream.length
  | 0, offset, acc, l, hin, h => by
    cases h
    exact ⟨rfl, by omega⟩
  | left + 1, offset, acc, l, hin, h => by
    simp only [instructionListLoop, Option.bind_eq_bind, Option.bind_eq_some_iff] at h
    obtain ⟨x, hx, h⟩ := h
    have hlen := length_of_instructionFromStream hx
    rw [List.length_drop] at hlen
    rw [Nat.mod_eq_of_lt (by omega)] at h
    have ih := length_of_instructionListLoop hsmall left (by omega) h
    rw [List.length_append, List.length_singleton] at ih
    exact ⟨by omega, by rw [Nat.mul_succ]; omega⟩

/-- A list that was read has as many instructions as its first word says, and all of them lay
in the stream. -/
lemma length_of_instructionListFrom {stream : List UInt8} {l : List Instruction}
    (hsmall : stream.length < 2 ^ 64) (h : instructionListFrom stream = some l) :
    l.length = (wordOf (stream.take 4)).toNat ∧
      4 + instructionSize * l.length ≤ stream.length := by
  simp only [instructionListFrom, Option.bind_eq_bind, Option.bind_eq_some_iff] at h
  obtain ⟨size, hsize, h⟩ := h
  obtain ⟨hle, rfl⟩ := peek_eq_some_iff.mp hsize
  have hloop := length_of_instructionListLoop hsmall _ hle h
  rw [List.length_nil, Nat.zero_add, List.drop_zero] at hloop
  exact ⟨hloop.1, by rw [hloop.1]; exact hloop.2⟩

end Sski.Wire.Instructions
