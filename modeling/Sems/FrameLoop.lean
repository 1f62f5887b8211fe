import Mathlib

/-!
# Reading frame after frame

A reader `next` takes one item off the front of a message and says what is left. `readAll` calls
it until nothing is left, and `readEach` does so for one message after the other.

`ReadsAs next s l s' bs` says that the front `l` of a message is read as the items `bs`, whatever
comes after it. Such fronts can be put together (`ReadsAs.append`), so that a writer has to look at
what it adds only.
-/

namespace Sems

variable {σ α β : Type*} (next : σ → List α → Option (σ × β × List α))

/-- The loop, with a bound on the number of items. -/
def readLoop : ℕ → σ → List α → Option (σ × List β)
  | _, s, [] => some (s, [])
  | 0, _, _ :: _ => none
  | n + 1, s, a :: l =>
    match next s (a :: l) with
    | none => none
    | some (s', b, rest) => (readLoop n s' rest).map fun r => (r.1, b :: r.2)

/-- Read the items of a message. If each takes something, there are no more than the message is
long. -/
def readAll (s : σ) (l : List α) : Option (σ × List β) :=
  readLoop next l.length s l

/-- Read some messages. -/
def readEach (s : σ) : List (List α) → Option (σ × List β)
  | [] => some (s, [])
  | l :: ls =>
    match readAll next s l with
    | none => none
    | some (s', bs) => (readEach s' ls).map fun r => (r.1, bs ++ r.2)

/-- Every item takes something. -/
def Shrinks : Prop :=
  ∀ {s l s' b rest}, next s l = some (s', b, rest) → rest.length < l.length

/-- The front `l` of a message is read as `bs`. -/
def ReadsAs (s : σ) (l : List α) (s' : σ) (bs : List β) : Prop :=
  ∀ rest, readAll next s (l ++ rest) = (readAll next s' rest).map fun r => (r.1, bs ++ r.2)

variable {next}

/-- More than enough is as good as enough. -/
theorem readLoop_eq (hnext : Shrinks next) :
    ∀ {n : ℕ} {s : σ} {l : List α}, l.length ≤ n → readLoop next n s l = readAll next s l
  | n, s, [], _ => by
    unfold readAll
    cases n <;> rfl
  | 0, _, a :: l, h => absurd h (Nat.not_succ_le_zero _)
  | n + 1, s, a :: l, h => by
    simp only [readAll, List.length_cons, readLoop]
    cases hn : next s (a :: l) with
    | none => rfl
    | some r =>
      obtain ⟨s', b, rest⟩ := r
      have hlt : rest.length < l.length + 1 := hnext hn
      have hle : l.length + 1 ≤ n + 1 := h
      simp only
      rw [readLoop_eq hnext (by omega), readLoop_eq hnext (Nat.lt_succ_iff.1 hlt)]

theorem readAll_nil (s : σ) : readAll next s [] = some (s, []) :=
  rfl

namespace ReadsAs

variable {s s' s'' : σ} {l l' : List α} {bs bs' : List β}

theorem nil (s : σ) : ReadsAs next s [] s [] := by
  intro rest
  simp

/-- One item. -/
theorem single (hnext : Shrinks next) {b : β}
    (h : ∀ rest, next s (l ++ rest) = some (s', b, rest)) : ReadsAs next s l s' [b] := by
  intro rest
  have hrest := h rest
  generalize l ++ rest = l at hrest ⊢
  have hlt := hnext hrest
  cases l with
  | nil => exact absurd hlt (Nat.not_lt_zero _)
  | cons a l =>
    rw [← readLoop_eq hnext (Nat.lt_succ_iff.1 hlt)]
    simp only [readAll, List.length_cons, readLoop, hrest]
    rfl

theorem append (h : ReadsAs next s l s' bs) (h' : ReadsAs next s' l' s'' bs') :
    ReadsAs next s (l ++ l') s'' (bs ++ bs') := by
  intro rest
  rw [List.append_assoc, h, h', Option.map_map]
  refine congrArg (Option.map · _) (funext fun r => ?_)
  simp

/-- The front is all there is. -/
theorem all (h : ReadsAs next s l s' bs) : readAll next s l = some (s', bs) := by
  have hnil := h []
  simpa [readAll_nil] using hnil

end ReadsAs

/-- A message after the others. -/
theorem readEach_concat {s s' s'' : σ} {ls : List (List α)} {l : List α} {bs bs' : List β}
    (h : readEach next s ls = some (s', bs)) (h' : readAll next s' l = some (s'', bs')) :
    readEach next s (ls ++ [l]) = some (s'', bs ++ bs') := by
  induction ls generalizing s bs with
  | nil =>
    cases h
    simp only [List.nil_append, readEach, h', Option.map_some, List.append_nil]
  | cons l₀ ls ih =>
    simp only [List.cons_append, readEach] at h ⊢
    cases hl : readAll next s l₀ with
    | none => simp [hl] at h
    | some r =>
      obtain ⟨s₁, bs₁⟩ := r
      simp only [hl, Option.map_eq_some_iff] at h ⊢
      obtain ⟨⟨s₂, bs₂⟩, hr, heq⟩ := h
      cases heq
      exact ⟨_, ih hr, by simp⟩

end Sems
