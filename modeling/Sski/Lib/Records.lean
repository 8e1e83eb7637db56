import Sski.Lib.Block

/-!
Records of one width, written one after the other: where each of them lies.
-/

namespace Sski.Lib.Records

open Sski.Lib.Block

variable {α β : Type*} {enc : α → List β} {n : ℕ} {l : List α}

lemma length_flatMap (h : ∀ a ∈ l, (enc a).length = n) :
    (l.flatMap enc).length = l.length * n := by
  induction l with
  | nil => simp
  | cons a l ih =>
    rw [List.flatMap_cons, List.length_append, h a List.mem_cons_self,
      ih fun b hb => h b (List.mem_cons_of_mem _ hb), List.length_cons, Nat.succ_mul,
      Nat.add_comm]

lemma drop_flatMap (h : ∀ a ∈ l, (enc a).length = n) (k : ℕ) :
    (l.flatMap enc).drop (k * n) = (l.drop k).flatMap enc := by
  induction k generalizing l with
  | zero => simp
  | succ k ih =>
    cases l with
    | nil => simp
    | cons a l =>
      have hlen := h a List.mem_cons_self
      have hk : (k + 1) * n = (enc a).length + k * n := by rw [Nat.succ_mul, hlen, Nat.add_comm]
      rw [List.flatMap_cons, hk, List.drop_append, List.drop_eq_nil_of_le (by omega),
        Nat.add_sub_cancel_left, List.nil_append, List.drop_succ_cons,
        ih fun b hb => h b (List.mem_cons_of_mem _ hb)]

lemma peek_flatMap (h : ∀ a ∈ l, (enc a).length = n) {k w : ℕ} {a : α} (hk : l[k]? = some a)
    (hw : w ≤ n) (rest : List β) :
    peek (l.flatMap enc ++ rest) (k * n) w = some ((enc a).take w) := by
  obtain ⟨hlt, rfl⟩ := List.getElem?_eq_some_iff.mp hk
  have hlen := h _ (List.getElem_mem hlt)
  have hle : k * n + n ≤ l.length * n := by
    rw [← Nat.succ_mul]
    exact Nat.mul_le_mul_right n hlt
  have htotal := length_flatMap h
  rw [peek_append (by omega), peek_eq_some_iff]
  refine ⟨by omega, ?_⟩
  rw [drop_flatMap h, List.drop_eq_getElem_cons hlt, List.flatMap_cons,
    List.take_append_of_le_length (by omega)]

end Sski.Lib.Records
