import Mathlib

/-!
# Joined texts

Keys that are joined from several parts. A separator that the last part does not have gives both
parts back (`append_cons_inj_right`), and so does a first part without it
(`append_cons_inj_left`). The decimal digits of a number give the number back
(`toDigits_injective`).
-/

namespace Sems

open List

variable {α : Type*} {a : α} {x y x' y' : List α}

theorem append_cons_inj_left (hx : a ∉ x) (hx' : a ∉ x') (h : x ++ a :: y = x' ++ a :: y') :
    x = x' ∧ y = y' := by
  rcases append_eq_append_iff.1 h with ⟨c, rfl, hc⟩ | ⟨c, rfl, hc⟩
  · rcases c with _ | ⟨b, c⟩
    · simpa using hc
    · exact absurd (by simp [(List.cons.inj hc).1]) hx'
  · rcases c with _ | ⟨b, c⟩
    · simpa using hc.symm
    · exact absurd (by simp [(List.cons.inj hc).1]) hx

theorem append_cons_inj_right (hy : a ∉ y) (hy' : a ∉ y') (h : x ++ a :: y = x' ++ a :: y') :
    x = x' ∧ y = y' := by
  have hr := congrArg List.reverse h
  simp only [reverse_append, reverse_cons, append_assoc, singleton_append]
    at hr
  obtain ⟨hyy, hxx⟩ := append_cons_inj_left (by simpa using hy) (by simpa using hy') hr
  exact ⟨reverse_injective hxx, reverse_injective hyy⟩

theorem toDigits_injective : Function.Injective (Nat.toDigits 10) := by
  intro m n h
  rw [← Nat.ofDigitChars_toDigits (b := 10) (n := m) (by decide) (by decide), h,
    Nat.ofDigitChars_toDigits (by decide) (by decide)]

theorem notMem_toDigits {c : Char} (hc : c.isDigit = false) (n : ℕ) : c ∉ Nat.toDigits 10 n := by
  intro hmem
  have hd := Nat.isDigit_of_mem_toDigits (by decide) (by decide) hmem
  rw [hc] at hd
  exact absurd hd Bool.false_ne_true

end Sems
