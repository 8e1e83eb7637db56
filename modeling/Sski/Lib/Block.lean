import Mathlib.Data.Nat.Notation
import Mathlib.Tactic.Lemma
import Mathlib.Tactic.TypeStar
import Mathlib.Tactic.Ring
import Mathlib.Data.List.Basic

/-!
Blocks of memory as lists of cells, with bounded reads and writes, and the four bytes of a
32-bit word.

`peek` and `poke` are what a copy out of and into a block does; both are `none` when the
copy leaves the block. The lemmas say what each cell holds afterwards.
-/

namespace Sski.Lib.Block

variable {α : Type*}

/-- The `n` cells from `o` on. -/
def peek (b : List α) (o n : ℕ) : Option (List α) :=
  if o + n ≤ b.length then some ((b.drop o).take n) else none

/-- The block with `d` copied to `o`. -/
def poke (b : List α) (o : ℕ) (d : List α) : Option (List α) :=
  if o + d.length ≤ b.length then some (b.take o ++ d ++ b.drop (o + d.length)) else none

lemma peek_eq_some_iff {b d : List α} {o n : ℕ} :
    peek b o n = some d ↔ o + n ≤ b.length ∧ d = (b.drop o).take n := by
  unfold peek
  split <;> simp_all [eq_comm]

lemma peek_isSome {b : List α} {o n : ℕ} (h : o + n ≤ b.length) :
    peek b o n = some ((b.drop o).take n) := by
  simp [peek, h]

lemma length_of_peek {b d : List α} {o n : ℕ} (h : peek b o n = some d) : d.length = n := by
  obtain ⟨hle, rfl⟩ := peek_eq_some_iff.mp h
  simp; omega

lemma poke_eq_some_iff {b b' d : List α} {o : ℕ} :
    poke b o d = some b' ↔
      o + d.length ≤ b.length ∧ b' = b.take o ++ d ++ b.drop (o + d.length) := by
  unfold poke
  split <;> simp_all [eq_comm]

lemma exists_poke {b d : List α} {o : ℕ} (h : o + d.length ≤ b.length) :
    ∃ b', poke b o d = some b' := ⟨_, by simp only [poke, if_pos h]; rfl⟩

lemma length_of_poke {b b' d : List α} {o : ℕ} (h : poke b o d = some b') :
    b'.length = b.length := by
  obtain ⟨hle, rfl⟩ := poke_eq_some_iff.mp h
  simp; omega

lemma getElem?_of_poke {b b' d : List α} {o : ℕ} (h : poke b o d = some b') (i : ℕ) :
    b'[i]? = if o ≤ i ∧ i < o + d.length then d[i - o]? else b[i]? := by
  obtain ⟨hle, rfl⟩ := poke_eq_some_iff.mp h
  have hto : (b.take o).length = o := by simp; omega
  rcases Nat.lt_or_ge i o with hlt | hge
  · -- before the copy
    rw [if_neg (by omega), List.append_assoc, List.getElem?_append_left (by omega),
      List.getElem?_take, if_pos hlt]
  rcases Nat.lt_or_ge i (o + d.length) with hin | hout
  · -- inside the copy
    rw [if_pos ⟨hge, hin⟩, List.append_assoc, List.getElem?_append_right (by omega), hto,
      List.getElem?_append_left (by omega)]
  · -- behind the copy
    rw [if_neg (by omega), List.getElem?_append_right (by simp; omega), List.getElem?_drop]
    congr 1
    simp only [List.length_append, hto]
    omega

lemma getElem?_of_poke_out {b b' d : List α} {o i : ℕ} (h : poke b o d = some b')
    (hi : i < o ∨ o + d.length ≤ i) : b'[i]? = b[i]? := by
  rw [getElem?_of_poke h, if_neg (by omega)]

lemma peek_of_poke {b b' d : List α} {o : ℕ} (h : poke b o d = some b') :
    peek b' o d.length = some d := by
  have hlen := length_of_poke h
  obtain ⟨hle, rfl⟩ := poke_eq_some_iff.mp h
  rw [peek_eq_some_iff]
  refine ⟨by omega, ?_⟩
  have hto : o = (b.take o).length := by simp; omega
  have hdrop : (b.take o ++ d ++ b.drop (o + d.length)).drop o = d ++ b.drop (o + d.length) := by
    rw [List.append_assoc]
    nth_rewrite 1 [hto]
    exact List.drop_left
  rw [hdrop, List.take_left]

lemma peek_of_poke_disjoint {b b' d : List α} {o p n : ℕ} (h : poke b o d = some b')
    (hd : p + n ≤ o ∨ o + d.length ≤ p) : peek b' p n = peek b p n := by
  have hlen := length_of_poke h
  unfold peek
  rw [hlen]
  split
  · congr 1
    refine List.ext_getElem? fun i => ?_
    rw [List.getElem?_take, List.getElem?_take]
    split
    · rw [List.getElem?_drop, List.getElem?_drop]
      exact getElem?_of_poke_out h (by omega)
    · rfl
  · rfl

lemma poke_append {b d e : List α} {o : ℕ} (h : o + d.length ≤ b.length) :
    poke (b ++ e) o d = (poke b o d).map (· ++ e) := by
  have h' : o + d.length ≤ (b ++ e).length := by rw [List.length_append]; omega
  simp only [poke, if_pos h, if_pos h', Option.map_some, Option.some.injEq]
  rw [List.take_append_of_le_length (by omega), List.drop_append_of_le_length h]
  simp only [List.append_assoc]

/-- A read from the front of a longer block. -/
lemma peek_append {b e : List α} {o n : ℕ} (h : o + n ≤ b.length) :
    peek (b ++ e) o n = peek b o n := by
  have h' : o + n ≤ (b ++ e).length := by rw [List.length_append]; omega
  simp only [peek, if_pos h, if_pos h', Option.some.injEq]
  rw [List.drop_append_of_le_length (by omega), List.take_append_of_le_length (by simp; omega)]

/-! ### Blocks with the same front -/

/-- Two blocks of one length that agree on their first `n` cells. -/
structure SameFront (n : ℕ) (b b' : List α) : Prop where
  length : b'.length = b.length
  cells : ∀ i < n, b'[i]? = b[i]?

lemma SameFront.refl (n : ℕ) (b : List α) : SameFront n b b := ⟨rfl, fun _ _ => rfl⟩

lemma SameFront.mono {n k : ℕ} {b b' : List α} (h : SameFront n b b') (hk : k ≤ n) :
    SameFront k b b' := ⟨h.length, fun i hi => h.cells i (by omega)⟩

lemma SameFront.append {n : ℕ} {b b' : List α} (h : SameFront n b b') (e : List α) :
    SameFront n (b ++ e) (b' ++ e) := by
  refine ⟨by simp only [List.length_append, h.length], fun i hi => ?_⟩
  rw [List.getElem?_append, List.getElem?_append, h.length, h.cells i hi]

lemma SameFront.take {n : ℕ} {b b' : List α} (h : SameFront n b b') (k : ℕ) :
    SameFront n (b.take k) (b'.take k) := by
  refine ⟨by simp only [List.length_take, h.length], fun i hi => ?_⟩
  rw [List.getElem?_take, List.getElem?_take, h.cells i hi]

lemma SameFront.peek {n o w : ℕ} {b b' : List α} (h : SameFront n b b') (hle : o + w ≤ n) :
    peek b' o w = peek b o w := by
  unfold Block.peek
  rw [h.length]
  split
  · rw [Option.some.injEq]
    refine List.ext_getElem? fun i => ?_
    rw [List.getElem?_take, List.getElem?_take]
    split
    · rw [List.getElem?_drop, List.getElem?_drop]
      exact h.cells _ (by omega)
    · rfl
  · rfl

lemma SameFront.poke {n o : ℕ} {b b' b₁ d : List α} (h : SameFront n b b')
    (hpoke : poke b o d = some b₁) : ∃ b₁', poke b' o d = some b₁' ∧ SameFront n b₁ b₁' := by
  have hle := (poke_eq_some_iff.mp hpoke).1
  obtain ⟨b₁', hpoke'⟩ := exists_poke (b := b') (o := o) (d := d) (by rw [h.length]; exact hle)
  refine ⟨b₁', hpoke', ?_, fun i hi => ?_⟩
  · rw [length_of_poke hpoke', length_of_poke hpoke, h.length]
  · rw [getElem?_of_poke hpoke', getElem?_of_poke hpoke, h.cells i hi]

lemma sameFront_of_peek {n w : ℕ} {b b' : List α} (hlen : b'.length = b.length)
    (hn : n ≤ b.length) (hw : 0 < w) (hdvd : w ∣ n)
    (h : ∀ j < n / w, Block.peek b' (j * w) w = Block.peek b (j * w) w) : SameFront n b b' := by
  refine ⟨hlen, fun i hi => ?_⟩
  have hj : i / w < n / w := Nat.div_lt_div_of_lt_of_dvd hdvd hi
  have hmod := Nat.mod_lt i hw
  have hdiv := Nat.div_add_mod i w
  have hin : i / w * w + w ≤ n := by
    rw [← Nat.succ_mul]
    exact (Nat.mul_le_mul_right w hj).trans (Nat.div_mul_le_self n w)
  have hread := h _ hj
  rw [peek_isSome (by omega), peek_isSome (by omega), Option.some.injEq] at hread
  have hcell := congrArg (fun l => l[i % w]?) hread
  simp only [List.getElem?_take, if_pos hmod, List.getElem?_drop] at hcell
  rwa [show i / w * w + i % w = i by rw [Nat.mul_comm]; exact hdiv] at hcell

/-! ### Words -/

/-- The four bytes of a word, lowest first. -/
def wordBytes (v : ℕ) : List UInt8 :=
  [UInt8.ofNat v, UInt8.ofNat (v / 2 ^ 8), UInt8.ofNat (v / 2 ^ 16), UInt8.ofNat (v / 2 ^ 24)]

/-- The word of a list of bytes, lowest first. -/
def bytesWord : List UInt8 → ℕ
  | [] => 0
  | b :: bs => b.toNat + 2 ^ 8 * bytesWord bs

@[simp] lemma length_wordBytes (v : ℕ) : (wordBytes v).length = 4 := rfl

@[simp] lemma bytesWord_wordBytes (v : ℕ) : bytesWord (wordBytes v) = v % 2 ^ 32 := by
  simp only [wordBytes, bytesWord, UInt8.toNat_ofNat']
  omega

end Sski.Lib.Block
