import Std.Data.String.ToNat
import StackGraph.Proofs.Runs
import StackGraph.Timestamp
/-!
# Digits read back

Numbers are written by the library function for digits, here and there with
zeros before them, and read by a loop over the characters that stops at the
first one that is no digit. What has been written is read back, whatever
follows it, unless it is a digit.
-/

namespace StackGraph

/-- A text that a number can stand before: it does not start with a digit. -/
def EndsDigits (rest : List Char) : Prop := ∀ c ∈ rest.head?, c.isDigit = false

theorem endsDigits_cons {c : Char} {rest : List Char} (h : c.isDigit = false) :
    EndsDigits (c :: rest) := by
  rintro d ⟨⟩
  exact h

namespace Text

variable {ds rest : List Char} {n : Nat}

/-- All digits are taken, and nothing behind them. -/
theorem takeWhile_digits (h : ∀ c ∈ ds, c.isDigit) (hrest : EndsDigits rest) :
    (ds ++ rest).takeWhile Char.isDigit = ds := takeWhile_append_of_stops h hrest

theorem dropWhile_digits (h : ∀ c ∈ ds, c.isDigit) (hrest : EndsDigits rest) :
    (ds ++ rest).dropWhile Char.isDigit = rest := dropWhile_append_of_stops h hrest

/-- **Digits denote the number that the library makes of them.** -/
theorem natValue?_eq (hne : ds ≠ []) (h : ∀ c ∈ ds, c.isDigit) :
    natValue? ds = some (Nat.ofDigitChars 10 ds 0) := by
  have hfold : ∀ init,
      ds.foldlM (fun n c => if c.isDigit then some (10 * n + (c.toNat - 48)) else none) init
        = some (Nat.ofDigitChars 10 ds init) := by
    clear hne
    induction ds with
    | nil => intro init; rfl
    | cons c ds ih =>
      obtain ⟨hc, hds⟩ := List.forall_mem_cons.1 h
      intro init
      rw [List.foldlM_cons, if_pos hc, Nat.ofDigitChars_cons]
      exact ih hds _
  rw [natValue?, if_neg (by simpa using hne), hfold]

theorem isDigit_of_mem_toDigits {c : Char} (h : c ∈ Nat.toDigits 10 n) : c.isDigit :=
  Nat.isDigit_of_mem_toDigits (by decide) (by decide) h

theorem natValue?_toDigits : natValue? (Nat.toDigits 10 n) = some n := by
  rw [natValue?_eq Nat.toDigits_ne_nil fun _ => isDigit_of_mem_toDigits,
    Nat.ofDigitChars_toDigits (by decide) (by decide)]

/-- No number but zero begins with a zero. -/
theorem head?_toDigits_ne (h : n ≠ 0) : (Nat.toDigits 10 n).head? ≠ some '0' := by
  induction n using Nat.strongRecOn with
  | ind n ih =>
    by_cases hlt : n < 10
    · rw [Nat.toDigits_of_lt_base hlt]
      have hdigit : ∀ m < 10, m ≠ 0 → [Nat.digitChar m].head? ≠ some '0' := by decide
      exact hdigit n hlt h
    · rw [Nat.toDigits_of_base_le (by decide) (by omega), List.head?_append,
        List.head?_eq_some_head Nat.toDigits_ne_nil, Option.some_or,
        ← List.head?_eq_some_head Nat.toDigits_ne_nil]
      exact ih (n / 10) (by omega) (by omega)

/-- A number has no more digits than it is written with. -/
theorem ofDigitChars_lt (h : ∀ c ∈ ds, c.isDigit) (init : Nat) :
    Nat.ofDigitChars 10 ds init < (init + 1) * Nat.pow 10 ds.length := by
  induction ds generalizing init with
  | nil =>
    rw [Nat.ofDigitChars_nil]
    exact Nat.lt_of_lt_of_eq (Nat.lt_succ_self init) (Nat.mul_one _).symm
  | cons c ds ih =>
    obtain ⟨hc, hds⟩ := List.forall_mem_cons.1 h
    obtain ⟨-, hnine⟩ : 48 ≤ c.toNat ∧ c.toNat ≤ 57 := Char.isDigit_iff_toNat.1 hc
    rw [Nat.ofDigitChars_cons]
    refine Nat.lt_of_lt_of_le (ih hds _) ?_
    have hdigit : 10 * init + (c.toNat - '0'.toNat) + 1 ≤ (init + 1) * 10 := by
      show 10 * init + (c.toNat - 48) + 1 ≤ (init + 1) * 10
      omega
    calc _ ≤ (init + 1) * 10 * Nat.pow 10 ds.length := Nat.mul_le_mul_right _ hdigit
      _ = (init + 1) * Nat.pow 10 (c :: ds).length := by
        rw [Nat.mul_assoc, Nat.mul_comm 10]
        rfl

theorem not_isBlank_of_isDigit {c : Char} (h : c.isDigit) : isBlank c = false := by
  obtain ⟨hlow, hhigh⟩ : 48 ≤ c.toNat ∧ c.toNat ≤ 57 := Char.isDigit_iff_toNat.1 h
  simp only [isBlank, blankRanges, List.any_cons, List.any_nil, Bool.or_false,
    Bool.or_eq_false_iff, Bool.and_eq_false_imp, decide_eq_true_eq, decide_eq_false_iff_not,
    Nat.not_le]
  omega

end Text

namespace Timestamp

variable {n width : Nat}

/-- The characters of a number with leading zeros. -/
theorem toList_padded : (padded width n).toList
    = List.replicate (width - (Nat.toDigits 10 n).length) '0' ++ Nat.toDigits 10 n :=
  String.toList_ofList

theorem padded_ne_nil : (padded width n).toList ≠ [] := by
  rw [toList_padded]
  exact List.append_ne_nil_of_right_ne_nil _ Nat.toDigits_ne_nil

theorem isDigit_of_mem_padded {c : Char} (h : c ∈ (padded width n).toList) : c.isDigit := by
  rw [toList_padded, List.mem_append] at h
  rcases h with h | h
  · rw [(List.mem_replicate.1 h).2]
    decide
  · exact Text.isDigit_of_mem_toDigits h

theorem ofDigitChars_padded : Nat.ofDigitChars 10 (padded width n).toList 0 = n := by
  rw [toList_padded, Nat.ofDigitChars_append, Nat.ofDigitChars_replicate_zero, Nat.mul_zero,
    Nat.ofDigitChars_toDigits (by decide) (by decide)]

/-- A number that is not too large has exactly as many places as it is given. -/
theorem length_padded (hwidth : 0 < width) (h : n < Nat.pow 10 width) :
    (padded width n).toList.length = width := by
  have hlen := (Nat.length_toDigits_le_iff (by decide : 1 < 10) hwidth).2 h
  rw [toList_padded, List.length_append, List.length_replicate]
  omega

end Timestamp

end StackGraph
