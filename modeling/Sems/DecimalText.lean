import Sems.ParseCommon
import Sems.JoinedText

/-!
# Numbers in texts

The digits of a number, with a line end or a blank behind them, are read as the number
(`str2i_toDigits`), and the text of a negative number is read as none by `str2i`.
-/

namespace Sems

theorem isDigit_eq (c : Char) : isDigit c = c.isDigit := by
  simp [isDigit, isIn, Char.isDigit, UInt32.le_iff_toNat_le]

theorem le_ofDigitChars : ∀ (cs : Str) (ret : ℕ), ret ≤ Nat.ofDigitChars 10 cs ret
  | [], _ => le_rfl
  | c :: cs, ret => by
    rw [Nat.ofDigitChars_cons]
    have h := le_ofDigitChars cs (10 * ret + (c.toNat - '0'.toNat))
    omega

/-- What may follow the digits of a number. -/
def EndsNumber (tail : Str) : Prop :=
  ∀ c ∈ tail.head?, c = ' ' ∨ c = '\r' ∨ c = '\n'

theorem endsNumber_nil : EndsNumber [] :=
  nofun

variable {tail : Str}

theorem endsNumber_cr : EndsNumber ('\r' :: tail) := by
  intro c hc
  exact .inr (.inl (Option.some.inj hc).symm)

theorem digitsLoop_endsNumber (h : EndsNumber tail) {max ret i : ℕ} :
    digitsLoop max ret i tail = some ret := by
  cases tail with
  | nil => rfl
  | cons c tail => rcases h c rfl with rfl | rfl | rfl <;> rfl

/-- Digits that do not overflow are read. -/
theorem digitsLoop_digits (htail : EndsNumber tail) :
    ∀ (cs : Str) (ret i : ℕ), (∀ c ∈ cs, c.isDigit = true) →
      Nat.ofDigitChars 10 cs ret ≤ UINT_MAX → i + cs.length ≤ 10 →
        digitsLoop UINT_MAX ret i (cs ++ tail) = some (Nat.ofDigitChars 10 cs ret)
  | [], ret, i, _, _, _ => digitsLoop_endsNumber htail
  | c :: cs, ret, i, hdig, hmax, hlen => by
    obtain ⟨hc, hcs⟩ := List.forall_mem_cons.1 hdig
    rw [List.length_cons] at hlen
    rw [Nat.ofDigitChars_cons] at hmax ⊢
    have hval : c.toNat - '0'.toNat = digitVal c := rfl
    rw [hval] at hmax ⊢
    have hle := (le_ofDigitChars cs (10 * ret + digitVal c)).trans hmax
    have hnul : c ≠ '\x00' := by
      rintro rfl
      exact absurd hc (by decide)
    have hfit : ¬ (UINT_MAX - digitVal c) / 10 < ret := by omega
    have hmany : ¬ 10 < i + 1 := by omega
    rw [List.cons_append, digitsLoop, if_neg hnul, if_pos ((isDigit_eq c).trans hc), if_neg hfit,
      if_neg hmany, Nat.mul_comm ret]
    exact digitsLoop_digits htail cs _ _ hcs hmax (by omega)

theorem str2i_toDigits {n : ℕ} (h : n < 2 ^ 32) (htail : EndsNumber tail) :
    str2i (Nat.toDigits 10 n ++ tail) = some n := by
  have hdig : ∀ c ∈ Nat.toDigits 10 n, c.isDigit = true := fun c hc =>
    Nat.isDigit_of_mem_toDigits (by decide) (by decide) hc
  have hval : Nat.ofDigitChars 10 (Nat.toDigits 10 n) 0 = n :=
    Nat.ofDigitChars_toDigits (by decide) (by decide)
  have hlen : (Nat.toDigits 10 n).length ≤ 10 :=
    (Nat.length_toDigits_le_iff (by decide) (by decide)).2 (h.trans (by decide))
  have hloop := digitsLoop_digits htail (Nat.toDigits 10 n) 0 0 hdig
    (by rw [hval]; exact Nat.le_pred_of_lt h) (by rwa [Nat.zero_add])
  rw [hval] at hloop
  have hblank : (Nat.toDigits 10 n ++ tail).dropWhile (· == ' ') = Nat.toDigits 10 n ++ tail := by
    cases hcs : Nat.toDigits 10 n with
    | nil => exact absurd hcs Nat.toDigits_ne_nil
    | cons c cs =>
      have hc := hdig c (hcs ▸ List.mem_cons_self)
      have hne : ¬ (c == ' ') = true := by
        rw [beq_iff_eq]
        rintro rfl
        exact absurd hc (by decide)
      exact List.dropWhile_cons_of_neg hne
  rw [str2i, hblank, hloop]

theorem str2i_minus (s : Str) : str2i ('-' :: s) = none :=
  rfl

/-- The text of a number that is not negative. -/
theorem long2str_natCast (n : ℕ) : long2str (n : ℤ) = Nat.toDigits 10 n := by
  rw [long2str, if_neg (by omega), Int.natAbs_natCast]

theorem long2str_neg {n : ℤ} (h : n < 0) : long2str n = '-' :: Nat.toDigits 10 n.natAbs := by
  rw [long2str, if_pos h]

theorem notMem_long2str {c : Char} (hc : c.isDigit = false) (hminus : c ≠ '-') (n : ℤ) :
    c ∉ long2str n := by
  rw [long2str]
  split_ifs
  · exact List.not_mem_cons_of_ne_of_not_mem hminus (notMem_toDigits hc _)
  · exact notMem_toDigits hc _

end Sems
