import Sski.Wire.Pcbs

/-!
Payloads that nobody encoded.

The decoders of `CMD`, `PCB` and `SWAP_PCB` get the bytes that were received, but not how many
there are. They take the number of instructions from the payload, read as many, and never answer
that something is wrong. What is behind the announced instructions is not looked at; what is
missing is read all the same.
-/

namespace Sski.Wire.Decoding

open Sski.Lib.Block Sski.Lib.Cursor Sski.Wire.Instructions Sski.Wire.Pcbs

/-- The messages whose payload is decoded, and by which handler: `recibir_instructions`,
`receive_pcb`, and `swap_pcb_` of the memory. -/
inductive Kind
  | cmd | pcb | swapPcb
  deriving DecidableEq, Repr

/-- What becomes of a payload: a byte behind its end is read, the null pointer is returned, or
there are instructions. -/
inductive Outcome
  | outside
  | null
  | decoded (instructions : List Instruction)
  deriving DecidableEq, Repr

/-- Both decoders return the pointer they allocated, and nothing else. -/
def returned : Option (List Instruction) → Outcome
  | some instructions => .decoded instructions
  | none => .outside

/-- What the handler makes of the payload; `block` is what `malloc` returned for the PCB. -/
def decode (block : Pcb) : Kind → List UInt8 → Outcome
  | .cmd, payload => returned (instructionListFrom payload)
  | .pcb, payload => returned ((pcbFromStream block payload).map Pcb.instructions)
  | .swapPcb, payload => returned ((pcbFromStream block payload).map Pcb.instructions)

def fixedFields : Kind → ℕ
  | .cmd => 0
  | .pcb => 24
  | .swapPcb => 24

def count (stream : List UInt8) : ℕ := (wordOf (stream.take 4)).toNat

def announced (kind : Kind) (payload : List UInt8) : ℕ :=
  fixedFields kind + (4 + instructionSize * count (payload.drop (fixedFields kind)))

/-- Nothing is read outside, and a payload that does not have the length it announces is
rejected. -/
def Confined (block : Pcb) (kind : Kind) (payload : List UInt8) : Prop :=
  decode block kind payload ≠ .outside ∧
    (payload.length ≠ announced kind payload → decode block kind payload = .null)

/-! ### The list of instructions -/

lemma instructionFromStream_isSome_iff (stream : List UInt8) :
    (instructionFromStream stream).isSome ↔ instructionSize ≤ stream.length := by
  constructor
  · intro h
    obtain ⟨x, hx⟩ := Option.isSome_iff_exists.mp h
    exact length_of_instructionFromStream hx
  · intro hle
    unfold instructionSize at hle
    have h₁ := get_of_le (w := 64) (o := 0) (n := 4) (show 0 + 4 ≤ stream.length by omega)
      (by decide)
    have h₂ := get_of_le (w := 64) (o := 4) (n := 4) (show 4 + 4 ≤ stream.length by omega)
      (by decide)
    have h₃ := get_of_le (w := 64) (o := 8) (n := 4) (show 8 + 4 ≤ stream.length by omega)
      (by decide)
    simp only [instructionFromStream, start, h₁, h₂, h₃, Option.bind_eq_bind, Option.bind_some,
      Nat.zero_add, Nat.reduceAdd, Option.pure_def, Option.isSome_some]

/-- Every turn needs an instruction; the offset does not go round. -/
lemma instructionListLoop_isSome_iff {stream : List UInt8} (left : ℕ) {offset : ℕ}
    (acc : List Instruction) (hin : offset ≤ stream.length)
    (hsmall : offset + instructionSize * left < 2 ^ 64) :
    (instructionListLoop stream left offset acc).isSome ↔
      offset + instructionSize * left ≤ stream.length := by
  induction left generalizing offset acc with
  | zero => simpa [instructionListLoop] using hin
  | succ left ih =>
    rw [Nat.mul_succ] at hsmall ⊢
    have hx := instructionFromStream_isSome_iff (stream.drop offset)
    rw [List.length_drop] at hx
    rw [instructionListLoop, Nat.mod_eq_of_lt (by omega)]
    cases hdec : instructionFromStream (stream.drop offset) with
    | none =>
      rw [hdec] at hx
      simp only [Option.isSome_none, Bool.false_eq_true, false_iff] at hx
      simp only [Option.bind_eq_bind, Option.bind_none, Option.isSome_none, Bool.false_eq_true,
        false_iff]
      omega
    | some x =>
      rw [hdec] at hx
      have hle := hx.mp rfl
      rw [Option.bind_eq_bind, Option.bind_some, ih _ (by omega) (by omega)]
      omega

lemma count_lt (stream : List UInt8) : count stream < 2 ^ 32 := UInt32.toNat_lt _

lemma instructionListFrom_isSome_iff (stream : List UInt8) :
    (instructionListFrom stream).isSome ↔ 4 + instructionSize * count stream ≤ stream.length := by
  by_cases hle : 4 ≤ stream.length
  · have hcount := count_lt stream
    rw [instructionListFrom, peek_isSome (by omega), Option.bind_eq_bind, Option.bind_some]
    refine instructionListLoop_isSome_iff _ _ hle ?_
    change 4 + instructionSize * count stream < 2 ^ 64
    unfold instructionSize
    omega
  · rw [instructionListFrom, peek, if_neg (by omega)]
    simp only [Option.bind_eq_bind, Option.bind_none, Option.isSome_none, Bool.false_eq_true,
      false_iff]
    omega

/-! ### The process control block -/

/-- The fixed fields are 24 bytes, and the list is behind them. -/
lemma pcbFromStream_isSome_iff (block : Pcb) (stream : List UInt8) :
    (pcbFromStream block stream).isSome ↔
      24 + (4 + instructionSize * count (stream.drop 24)) ≤ stream.length := by
  have hlist := instructionListFrom_isSome_iff (stream.drop 24)
  rw [List.length_drop] at hlist
  by_cases hle : 24 ≤ stream.length
  · have hget : ∀ o, o + 4 ≤ 24 → get 64 ⟨stream, o⟩ 4 =
        some ((stream.drop o).take 4, ⟨stream, o + 4⟩) :=
      fun o ho => get_of_le (by omega) (by omega)
    have hdec : (pcbFromStream block stream).isSome ↔
        (instructionListFrom (stream.drop 24)).isSome := by
      simp only [pcbFromStream, start, hget 0 (by decide), hget 4 (by decide), hget 8 (by decide),
        hget 12 (by decide), hget 16 (by decide), hget 20 (by decide), Option.bind_eq_bind,
        Option.bind_some, Nat.zero_add, Nat.reduceAdd]
      cases instructionListFrom (stream.drop 24) with
      | none => simp
      | some l => simp
    rw [hdec, hlist]
    omega
  · refine iff_of_false (fun h => hle ?_) (by omega)
    obtain ⟨q, h⟩ := Option.isSome_iff_exists.mp h
    simp only [pcbFromStream, Option.bind_eq_bind, Option.bind_eq_some_iff, Prod.exists] at h
    obtain ⟨_, k1, h1, _, k2, h2, _, k3, h3, _, k4, h4, _, k5, h5, _, k6, h6, -⟩ := h
    obtain ⟨-, -, rfl⟩ := of_get h1
    obtain ⟨-, -, rfl⟩ := of_get h2
    obtain ⟨-, -, rfl⟩ := of_get h3
    obtain ⟨-, -, rfl⟩ := of_get h4
    obtain ⟨-, -, rfl⟩ := of_get h5
    exact (of_get h6).1

/-! ### What is read -/

lemma returned_eq_outside_iff {decoded : Option (List Instruction)} :
    returned decoded = .outside ↔ decoded = none := by
  cases decoded <;> simp [returned]

lemma returned_ne_null (decoded : Option (List Instruction)) : returned decoded ≠ .null := by
  cases decoded <;> simp [returned]

/-- A byte behind the end is read exactly where the payload is shorter than it announces. -/
lemma decode_eq_outside_iff (block : Pcb) (kind : Kind) (payload : List UInt8) :
    decode block kind payload = .outside ↔ payload.length < announced kind payload := by
  rw [← not_le]
  cases kind with
  | cmd =>
    have h := instructionListFrom_isSome_iff payload
    simp only [decode, returned_eq_outside_iff, announced, fixedFields, List.drop_zero,
      Nat.zero_add, ← h, Option.not_isSome_iff_eq_none]
  | pcb | swapPcb =>
    have h := pcbFromStream_isSome_iff block payload
    simp only [decode, returned_eq_outside_iff, announced, fixedFields, ← h,
      Option.not_isSome_iff_eq_none, Option.map_eq_none_iff]

lemma decode_ne_null (block : Pcb) (kind : Kind) (payload : List UInt8) :
    decode block kind payload ≠ .null := by
  cases kind with
  | cmd | pcb | swapPcb => exact returned_ne_null _

/-- **Malformed payloads.** A decoder reads behind the end of every payload that is shorter than
it announces, and is confined to the payload and its length for those only that have exactly the
length they announce. -/
theorem confined_iff_announced (block : Pcb) (kind : Kind) (payload : List UInt8) :
    (decode block kind payload = .outside ↔ payload.length < announced kind payload) ∧
    (Confined block kind payload ↔ payload.length = announced kind payload) := by
  have houtside := decode_eq_outside_iff block kind payload
  refine ⟨houtside, ?_⟩
  constructor
  · rintro ⟨-, hreject⟩
    by_contra hne
    exact decode_ne_null block kind payload (hreject hne)
  · intro heq
    exact ⟨fun h => absurd (houtside.mp h) (by omega), fun hne => absurd heq hne⟩

/-- A command of four bytes that announces 2^32 - 1 instructions is read behind its end; one with
a byte too many is decoded. -/
theorem not_confined_cmd :
    decode smallPcb .cmd [255, 255, 255, 255] = .outside ∧
      decode smallPcb .cmd [0, 0, 0, 0, 7] = .decoded [] ∧
      ¬ Confined smallPcb .cmd [255, 255, 255, 255] ∧
      ¬ Confined smallPcb .cmd [0, 0, 0, 0, 7] := by
  have houtside : decode smallPcb .cmd [255, 255, 255, 255] = .outside :=
    (decode_eq_outside_iff smallPcb .cmd _).mpr (by decide)
  exact ⟨houtside, rfl, fun h => h.1 houtside, fun h => absurd (h.2 (by decide)) (by decide)⟩

end Sski.Wire.Decoding
