import Sems.JoinedText

/-!
# Netstrings

A netstring is the length of a text in decimal digits, a colon, the text, and a comma. `received`
are the texts of a stream of netstrings whose last byte is among its first `k` bytes. A reader
between two netstrings, or inside one, has received the texts before it (`received_append`). What
comes next in the length of a netstring is a digit or the colon (`netstrings_length_cases`).
-/

namespace Sems

open List

def netstring (p : List Char) : List Char :=
  Nat.toDigits 10 p.length ++ ':' :: (p ++ [','])

def netstrings (ps : List (List Char)) : List Char :=
  ps.flatMap netstring

/-- The texts that are complete after the first `k` bytes. -/
def received : List (List Char) → ℕ → List (List Char)
  | [], _ => []
  | p :: ps, k =>
    if (netstring p).length ≤ k then p :: received ps (k - (netstring p).length) else []

@[simp] theorem netstrings_nil : netstrings [] = [] :=
  rfl

variable (p : List Char) (ps : List (List Char))

theorem netstrings_cons :
    netstrings (p :: ps) = Nat.toDigits 10 p.length ++ ':' :: (p ++ ',' :: netstrings ps) := by
  rw [netstrings, flatMap_cons, netstring, append_assoc, cons_append, append_assoc]
  rfl

theorem length_netstrings_cons :
    (netstrings (p :: ps)).length = (netstring p).length + (netstrings ps).length := by
  rw [netstrings, flatMap_cons, length_append]
  rfl

theorem length_netstring (p : List Char) :
    (netstring p).length = (Nat.toDigits 10 p.length).length + p.length + 2 := by
  rw [netstring, length_append, length_cons, length_append, length_singleton]
  omega

/-- A reader with so many bytes left has not read the first netstring to its end. -/
def Unfinished (rest : List (List Char)) (left : ℕ) : Prop :=
  left ≤ (netstrings rest).length ∧ ∀ p ps, rest = p :: ps → (netstrings ps).length < left

variable {rest ps : List (List Char)}

theorem unfinished_netstrings : Unfinished rest (netstrings rest).length := by
  refine ⟨le_rfl, ?_⟩
  rintro p ps rfl
  rw [length_netstrings_cons, length_netstring]
  omega

theorem received_append {left : ℕ} (h : Unfinished rest left) :
    ∀ done : List (List Char), received (done ++ rest)
      ((netstrings (done ++ rest)).length - left) = done
  | [] => by
    cases rest with
    | nil => rfl
    | cons p ps =>
      have hleft := h.2 p ps rfl
      have hpos := length_netstring p
      rw [nil_append, received, if_neg]
      rw [length_netstrings_cons]
      omega
  | p :: done => by
    have hle : left ≤ (netstrings (done ++ rest)).length := by
      have hrest := h.1
      rw [netstrings, flatMap_append, length_append]
      exact hrest.trans (Nat.le_add_left _ _)
    have hsub : (netstrings (p :: done ++ rest)).length - left - (netstring p).length =
        (netstrings (done ++ rest)).length - left := by
      rw [cons_append, length_netstrings_cons]
      omega
    have hpos : (netstring p).length ≤ (netstrings (p :: done ++ rest)).length - left := by
      rw [cons_append, length_netstrings_cons]
      omega
    rw [cons_append, received, ← cons_append, if_pos hpos, hsub, received_append h done]

theorem colon_notMem_toDigits {n : ℕ} : ':' ∉ Nat.toDigits 10 n :=
  notMem_toDigits (by decide) n

/-- The next byte of a length, after the bytes `r` of it. -/
theorem netstrings_length_cases {p r u : List Char} {c : Char} (hr : ':' ∉ r)
    (h : r ++ c :: u = netstrings (p :: ps)) :
    (c = ':' ∧ r = Nat.toDigits 10 p.length ∧ u = p ++ ',' :: netstrings ps) ∨
      (c ≠ ':' ∧ c.isDigit = true) := by
  rw [netstrings_cons] at h
  by_cases hc : c = ':'
  · subst hc
    exact .inl ⟨rfl, append_cons_inj_left hr colon_notMem_toDigits h⟩
  · refine .inr ⟨hc, ?_⟩
    rcases append_eq_append_iff.1 h with ⟨x, hd, hx⟩ | ⟨x, rfl, hx⟩
    · cases x with
      | nil => exact absurd (List.cons.inj hx).1 hc
      | cons b x =>
        obtain ⟨rfl, -⟩ := List.cons.inj hx
        have hmem : c ∈ Nat.toDigits 10 p.length := by
          rw [hd]
          exact mem_append_right r mem_cons_self
        exact Nat.isDigit_of_mem_toDigits (by decide) (by decide) hmem
    · cases x with
      | nil => exact absurd (List.cons.inj hx).1.symm hc
      | cons b x =>
        obtain ⟨rfl, -⟩ := List.cons.inj hx
        exact absurd (mem_append_right _ mem_cons_self) hr

/-- The bytes of a length that were read are not more than its digits. -/
theorem length_le_of_netstrings {p r u : List Char} (hr : ':' ∉ r)
    (h : r ++ u = netstrings (p :: ps)) :
    r.length ≤ (Nat.toDigits 10 p.length).length := by
  rw [netstrings_cons] at h
  rcases append_eq_append_iff.1 h with ⟨x, hd, -⟩ | ⟨x, rfl, hx⟩
  · rw [hd, length_append]
    exact Nat.le_add_right _ _
  · cases x with
    | nil => rw [append_nil]
    | cons b x =>
      obtain ⟨rfl, -⟩ := List.cons.inj hx
      exact absurd (mem_append_right _ mem_cons_self) hr

end Sems
