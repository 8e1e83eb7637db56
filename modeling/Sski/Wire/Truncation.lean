import Sski.Wire.Packages

/-!
A package that is cut short: the other side closes the connection before all of it was sent.

`recv` then answers how many bytes there were, which is less than was asked for, and zero from
there on; it does not answer `ERROR`. The receivers look for `ERROR` almost everywhere. So what
counts is whether any byte of the size arrived that is not zero.
-/

namespace Sski.Wire.Truncation

open Sski.Lib.Block Sski.Lib.Cursor Sski.Wire.Instructions Sski.Wire.Pcbs Sski.Wire.Packages
open Sski.Mem.MemoryModule (malloc length_malloc)

/-! ### The server -/

/-- What `recv` leaves: the block it was given, its answer, and the connection. -/
structure Received where
  block : List UInt8
  answer : ℤ
  connection : List UInt8

/-- `recv` with `MSG_WAITALL`, where nothing comes behind the bytes that are there. -/
def recv (block : List UInt8) (size : ℕ) (connection : List UInt8) : Received :=
  ⟨connection.take size ++ block.drop (connection.take size).length,
    (connection.take size).length, connection.drop size⟩

def error : ℤ := -1

def asInt (v : ℕ) : ℤ := if v < 2 ^ 31 then v else v - 2 ^ 32

/-- `recibir_operacion`. The bytes of `opcode` that do not come are what the stack held. -/
def recibirOperacion (stack : ℕ → UInt8) (connection : List UInt8) : ℤ × List UInt8 :=
  let opcode := recv (malloc stack 4) 4 connection
  if opcode.answer ≤ 0 then (opcode.answer, opcode.connection)
  else (asInt (bytesWord opcode.block), opcode.connection)

/-- `recibir_buffer`: the block, if there is one, with its size. -/
def recibirBuffer (heap : ℕ → UInt8) (connection : List UInt8) :
    Option (List UInt8 × ℕ) × List UInt8 :=
  let received := recv (wordBytes 0) 4 connection
  if received.answer = error then (none, received.connection)
  else
    let size := bytesWord received.block
    let buffer := recv (malloc heap size) size received.connection
    if buffer.answer = error then (none, buffer.connection)
    else (some (buffer.block, size), buffer.connection)

/-- An operation that is positive is read on, as the servers do. -/
def servidorRecibir (stack heap : ℕ → UInt8) (connection : List UInt8) :
    Option (List UInt8 × ℕ) :=
  let (opcode, connection) := recibirOperacion stack connection
  if opcode ≤ 0 then none else (recibirBuffer heap connection).1

/-! ### Rejection -/

/-- There is no block, or no byte is reported; and no block is larger than what came. -/
def Rejects (received : Option (List UInt8 × ℕ)) (payload : ℕ) : Prop :=
  ∀ buffer bytes, received = some (buffer, bytes) → bytes = 0 ∧ buffer.length ≤ payload

/-- The size that is read from the first `k` bytes of a package: the bytes of it that did not come
count as zero. -/
def cutSize (size k : ℕ) : ℕ := size % 2 ^ 32 % 2 ^ (8 * min (k - 4) 4)

lemma cutSize_of_le {size k : ℕ} (hk : k ≤ 4) : cutSize size k = 0 := by
  rw [cutSize, Nat.sub_eq_zero_of_le hk]
  exact Nat.mod_one _

lemma bytesWord_take (v n : ℕ) :
    bytesWord ((wordBytes v).take n) = v % 2 ^ 32 % 2 ^ (8 * min n 4) := by
  rcases Nat.lt_or_ge n 4 with hn | hn
  · rw [Nat.min_eq_left hn.le]
    obtain rfl | rfl | rfl | rfl : n = 0 ∨ n = 1 ∨ n = 2 ∨ n = 3 := by omega
    all_goals
      simp only [wordBytes, List.take_succ_cons, List.take_zero, bytesWord, UInt8.toNat_ofNat']
      omega
  · rw [List.take_of_length_le (by simpa using hn), bytesWord_wordBytes, Nat.min_eq_right hn,
      Nat.mod_mod_of_dvd _ (dvd_refl _)]

lemma bytesWord_recv (v n : ℕ) :
    bytesWord ((wordBytes v).take n ++ (wordBytes 0).drop ((wordBytes v).take n).length) =
      v % 2 ^ 32 % 2 ^ (8 * min n 4) := by
  rw [← bytesWord_take]
  rcases Nat.lt_or_ge n 4 with hn | hn
  · obtain rfl | rfl | rfl | rfl : n = 0 ∨ n = 1 ∨ n = 2 ∨ n = 3 := by omega
    all_goals rfl
  · have hlen : ((wordBytes v).take n).length = 4 := by
      rw [List.length_take, length_wordBytes, Nat.min_eq_right hn]
    rw [hlen, List.drop_of_length_le (by simp), List.append_nil]

/-! ### The bytes of a package -/

/-- A package that was serialized: its operation, its size, and as many bytes. -/
lemma packageSerialize_eq {heap : ℕ → UInt8} {package : Package} {bytes : List UInt8}
    (h : packageSerialize heap package = some bytes) : ∃ payload,
      payload.length = asSize package.size ∧
      bytes = bytesOf package.opcode ++ (bytesOf package.size.toUInt32 ++ payload) := by
  simp only [packageSerialize, Option.bind_eq_bind, Option.bind_eq_some_iff, Option.pure_def,
    Option.some.injEq] at h
  obtain ⟨k₁, h₁, k₂, h₂, payload, hpayload, k₃, h₃, rfl⟩ := h
  have hlen := length_of_peek hpayload
  -- the block is as long as it has to be
  obtain ⟨-, hlen₁, hoff₁⟩ := of_put h₁
  obtain ⟨-, hlen₂, hoff₂⟩ := of_put h₂
  obtain ⟨hroom, -, -⟩ := of_put h₃
  have hreal : packageGetRealSize package = asSize package.size + 8 := by
    simp only [start, length_bytesOf, length_malloc] at hlen₁ hoff₁ hoff₂
    rw [hoff₂, hoff₁, hlen₂, hlen₁, hlen] at hroom
    unfold packageGetRealSize at hroom ⊢
    omega
  have hsmall : asSize package.size + 8 < 2 ^ 64 := by
    rw [← hreal]
    exact Nat.mod_lt _ (by decide)
  -- and full in the end
  have h0 := filled_start (malloc heap (packageGetRealSize package))
  rw [length_malloc, hreal] at h0
  obtain ⟨k₁', h₁', hf₁⟩ := h0.put (w := 64) (e := bytesOf package.opcode) (by simp) hsmall
  obtain ⟨k₂', h₂', hf₂⟩ := hf₁.put (w := 64) (e := bytesOf package.size.toUInt32) (by simp) hsmall
  obtain ⟨k₃', h₃', hf₃⟩ := hf₂.put (w := 64) (e := payload) (by simp; omega) hsmall
  rw [hreal, h₁', Option.some.injEq] at h₁
  subst h₁
  rw [h₂', Option.some.injEq] at h₂
  subst h₂
  rw [h₃', Option.some.injEq] at h₃
  subst h₃
  refine ⟨payload, hlen, (hf₃.block_eq (by simp; omega)).trans ?_⟩
  simp

/-! ### A package that is cut -/

variable {size k : ℕ} {opcode : UInt32} {payload : List UInt8}

lemma drop_cut (opcode : UInt32) (size k : ℕ) (payload : List UInt8) :
    ((bytesOf opcode ++ (wordBytes size ++ payload)).take k).drop 4 =
      (wordBytes size ++ payload).take (k - 4) := by
  rw [List.drop_take, List.drop_left' (length_bytesOf _)]

lemma take_cut (size n : ℕ) (payload : List UInt8) :
    ((wordBytes size ++ payload).take n).take 4 = (wordBytes size).take n := by
  have hall : (wordBytes size).take 4 = wordBytes size := rfl
  rw [List.take_take, List.take_append_of_le_length (by simp), Nat.min_comm, ← List.take_take, hall]

lemma rejects_some_iff {buffer : List UInt8} {bytes n : ℕ} (h : buffer.length = bytes) :
    Rejects (some (buffer, bytes)) n ↔ bytes = 0 := by
  constructor
  · intro hr
    exact (hr buffer bytes rfl).1
  · rintro hzero buffer' bytes' heq
    obtain ⟨rfl, rfl⟩ := Prod.mk.inj (Option.some.inj heq)
    exact ⟨hzero, by omega⟩

/-- Where the other side is gone there is no error, only fewer bytes. -/
lemma answer_recv (block : List UInt8) (size : ℕ) (connection : List UInt8) :
    ¬ (recv block size connection).answer = error := by
  simp only [recv, error]
  omega

/-- What the server makes of what is left: a block of the size that came. -/
lemma recibirBuffer_cut (heap : ℕ → UInt8) (size k : ℕ) (payload : List UInt8) :
    ∃ buffer, (recibirBuffer heap ((wordBytes size ++ payload).take (k - 4))).1 =
        some (buffer, cutSize size k) ∧ buffer.length = cutSize size k := by
  have hsize : bytesWord (recv (wordBytes 0) 4 ((wordBytes size ++ payload).take (k - 4))).block =
      cutSize size k := by
    rw [recv, take_cut]
    exact bytesWord_recv size (k - 4)
  refine ⟨(recv (malloc heap (cutSize size k)) (cutSize size k)
    (recv (wordBytes 0) 4 ((wordBytes size ++ payload).take (k - 4))).connection).block, ?_, ?_⟩
  · simp only [recibirBuffer, hsize, if_neg (answer_recv _ _ _)]
  · simp only [recv, List.length_append, List.length_take, List.length_drop, length_malloc]
    omega

lemma recibirOperacion_cut (stack : ℕ → UInt8) (opcode : UInt32) (size k : ℕ)
    (payload : List UInt8) :
    ∃ operation, recibirOperacion stack
        ((bytesOf opcode ++ (wordBytes size ++ payload)).take k) =
          (operation, (wordBytes size ++ payload).take (k - 4)) ∧
      (4 ≤ k → operation = asInt opcode.toNat) := by
  have hconn := drop_cut opcode size k payload
  by_cases hk : 4 ≤ k
  · refine ⟨asInt opcode.toNat, ?_, fun _ => rfl⟩
    have htake : ((bytesOf opcode ++ (wordBytes size ++ payload)).take k).take 4 =
        bytesOf opcode := by
      rw [List.take_take, Nat.min_eq_left hk]
      exact List.take_left' (length_bytesOf _)
    simp only [recibirOperacion, recv, htake, hconn, length_bytesOf]
    rw [if_neg (by decide), List.drop_of_length_le (by simp), List.append_nil, bytesOf,
      bytesWord_wordBytes, Nat.mod_eq_of_lt opcode.toNat_lt]
  · unfold recibirOperacion
    simp only [recv, hconn]
    split
    · exact ⟨_, rfl, fun h => absurd h hk⟩
    · exact ⟨_, rfl, fun h => absurd h hk⟩

lemma servidorRecibir_rejects_iff (stack heap : ℕ → UInt8) (opcode : UInt32) (size k : ℕ)
    (payload : List UInt8) :
    Rejects (servidorRecibir stack heap
        ((bytesOf opcode ++ (wordBytes size ++ payload)).take k)) (k - 8) ↔
      cutSize size k = 0 ∨ asInt opcode.toNat ≤ 0 := by
  obtain ⟨operation, hop, hopcode⟩ := recibirOperacion_cut stack opcode size k payload
  obtain ⟨buffer, hbuffer, hlen⟩ := recibirBuffer_cut heap size k payload
  simp only [servidorRecibir, hop, hbuffer]
  by_cases hpos : operation ≤ 0
  · rw [if_pos hpos]
    refine iff_of_true (fun _ _ h => by cases h) ?_
    by_cases hk : 4 ≤ k
    · exact .inr (hopcode hk ▸ hpos)
    · exact .inl (cutSize_of_le (by omega))
  · rw [if_neg hpos, rejects_some_iff hlen]
    refine ⟨.inl, ?_⟩
    rintro (hzero | hneg)
    · exact hzero
    · -- the operation did not come whole, so nothing of the size did
      exact cutSize_of_le (by by_contra hk; exact hpos (hopcode (by omega) ▸ hneg))

lemma conexionRecibirStream_rejects_iff (heap : ℕ → UInt8) (opcode : UInt32) (size k : ℕ)
    (payload : List UInt8) :
    Rejects (conexionRecibirStream heap
        ((bytesOf opcode ++ (wordBytes size ++ payload)).take k)).1 (k - 8) ↔
      cutSize size k = 0 := by
  have hsize : bytesWord ((((bytesOf opcode ++ (wordBytes size ++ payload)).take k).drop 4).take 4)
      = cutSize size k := by
    rw [drop_cut, take_cut, bytesWord_take]
    rfl
  unfold conexionRecibirStream
  simp only [hsize]
  by_cases hzero : cutSize size k = 0
  · rw [if_pos hzero]
    exact iff_of_true (fun _ _ h => by cases h) hzero
  · rw [if_neg hzero]
    refine iff_of_false (fun hr => ?_) hzero
    obtain ⟨stream, hstream⟩ := exists_poke (b := malloc heap (cutSize size k)) (o := 0)
      (d := ((((bytesOf opcode ++ (wordBytes size ++ payload)).take k).drop 4).drop 4).take
        (cutSize size k)) (by simp)
    have hbytes := (hr stream (cutSize size k + 2 * 4) (by rw [hstream]; rfl)).1
    omega

/-- **Truncated packages.** A package of which the first `k` bytes arrive is rejected exactly where
no byte of its size is among them that is not zero; a server also rejects it where the operation
is not positive. -/
theorem rejects_iff_cutSize (heap heap' stack : ℕ → UInt8) (package : Package)
    (bytes : List UInt8) (k : ℕ) (hbytes : packageSerialize heap package = some bytes) :
    (Rejects (servidorRecibir stack heap' (bytes.take k)) (k - 8) ↔
      cutSize package.size.toUInt32.toNat k = 0 ∨ asInt package.opcode.toNat ≤ 0) ∧
    (Rejects (conexionRecibirStream heap' (bytes.take k)).1 (k - 8) ↔
      cutSize package.size.toUInt32.toNat k = 0) := by
  obtain ⟨payload, -, rfl⟩ := packageSerialize_eq hbytes
  exact ⟨servidorRecibir_rejects_iff .., conexionRecibirStream_rejects_iff ..⟩

/-- A package of one byte. -/
def oneByte : Package := ⟨cmd, 1, [7]⟩

/-- It is rejected where it is cut in its operation. -/
theorem rejects_iff_cutSize_operation :
    ∃ bytes, packageSerialize (fun _ => 0) oneByte = some bytes ∧
      Rejects (servidorRecibir (fun _ => 1) (fun _ => 0) (bytes.take 3)) 0 ∧
      Rejects (conexionRecibirStream (fun _ => 0) (bytes.take 3)).1 0 := by
  refine ⟨_, rfl, ?_⟩
  have h := rejects_iff_cutSize (fun _ => 0) (fun _ => 0) (fun _ => 1) oneByte _ 3 rfl
  exact ⟨h.1.mpr (.inl rfl), h.2.mpr rfl⟩

/-- The byte is cut off: both sides return a block of one byte that never came. -/
theorem not_rejects_payload :
    ∃ bytes, packageSerialize (fun _ => 0) oneByte = some bytes ∧ bytes.length = 9 ∧
      servidorRecibir (fun _ => 0) (fun _ => 0) (bytes.take 8) = some ([0], 1) ∧
      (conexionRecibirStream (fun _ => 0) (bytes.take 8)).1 = some ([0], 9) ∧
      ¬ Rejects (servidorRecibir (fun _ => 0) (fun _ => 0) (bytes.take 8)) 0 ∧
      ¬ Rejects (conexionRecibirStream (fun _ => 0) (bytes.take 8)).1 0 := by
  refine ⟨_, rfl, rfl, rfl, rfl, fun h => ?_, fun h => ?_⟩
  · exact absurd (h [0] 1 rfl).1 (by decide)
  · exact absurd (h [0] 9 rfl).1 (by decide)

end Sski.Wire.Truncation
