import Mathlib

/-!
# Logs

A log is a list that grows at its end. `Logged P` says that every entry had the property `P` when
it was written, with the entries that were there before it. `logged_concat` is the rule for one
more entry, and `append_eq_append_cons` says where an entry of a longer log is.
-/

namespace Sems

open List

variable {α : Type*} {P Q : List α → α → Prop} {log : List α} {a : α}

/-- Every entry has the property, with the entries before it. -/
def Logged (P : List α → α → Prop) (log : List α) : Prop :=
  ∀ pre a post, log = pre ++ a :: post → P pre a

theorem logged_nil : Logged P [] := by
  intro pre a post h
  simp at h

theorem logged_concat : Logged P (log ++ [a]) ↔ Logged P log ∧ P log a := by
  constructor
  · intro h
    refine ⟨fun pre b post hsplit => h pre b (post ++ [a]) ?_, h log a [] rfl⟩
    rw [hsplit, append_assoc, cons_append]
  · rintro ⟨h, ha⟩ pre b post hsplit
    rcases eq_nil_or_concat post with rfl | ⟨init, c, rfl⟩
    · obtain ⟨rfl, hb⟩ := append_inj' hsplit rfl
      obtain rfl : a = b := head_eq_of_cons_eq hb
      exact ha
    · refine h pre b init ?_
      rw [concat_eq_append, ← cons_append, ← append_assoc] at hsplit
      exact (append_inj' hsplit rfl).1

/-- An entry of a log with more entries is one of the old ones or of the new ones. -/
theorem append_eq_append_cons {new pre post : List α} (h : log ++ new = pre ++ a :: post) :
    (∃ post', log = pre ++ a :: post' ∧ post = post' ++ new) ∨
      ∃ pre', pre = log ++ pre' ∧ new = pre' ++ a :: post := by
  rcases append_eq_append_iff.1 h with ⟨pre', rfl, hnew⟩ | ⟨tail, hlog, hpost⟩
  · exact .inr ⟨pre', rfl, hnew⟩
  · cases tail with
    | nil => exact .inr ⟨[], by simpa using hlog.symm, hpost.symm⟩
    | cons b tail =>
      obtain ⟨rfl, rfl⟩ := List.cons.inj hpost
      exact .inl ⟨tail, hlog, rfl⟩

end Sems
