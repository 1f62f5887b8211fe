import Mathlib

/-!
# Cutting a stream into messages

A framer looks at the beginning of a stream and says whether it holds a whole message. Its
verdict must not change when more of the stream arrives. Then the messages of a stream do not
depend on how it is cut : to take the messages of a first part, and to go on with what is left of
it and the next part, gives the messages of both (`drain_append`).
-/

namespace Sems

/-- What a framer says about the beginning of a stream : it needs more, there is a message of a
length, or there cannot be one. -/
inductive Cut where
  | more
  | item (len : ℕ)
  | bad
  deriving DecidableEq

/-- A framer, with the reasons why its verdict is final. -/
structure StreamFramer (α : Type) where
  cut : List α → Cut
  pos : ∀ {s n}, cut s = .item n → 0 < n
  le : ∀ {s n}, cut s = .item n → n ≤ s.length
  item_append : ∀ {s n}, cut s = .item n → ∀ t, cut (s ++ t) = .item n
  bad_append : ∀ {s}, cut s = .bad → ∀ t, cut (s ++ t) = .bad

namespace StreamFramer

variable {α : Type} (F : StreamFramer α)

/-- At most `k` messages of a stream, and what is left of it, unless that cannot be a
message. -/
def drainLoop : ℕ → List α → List (List α) × Option (List α)
  | 0, s => ([], some s)
  | k + 1, s =>
    match F.cut s with
    | .more => ([], some s)
    | .item n =>
      let r := drainLoop k (s.drop n)
      (s.take n :: r.1, r.2)
    | .bad => ([], none)

/-- The messages of a stream. -/
def drain (s : List α) : List (List α) × Option (List α) :=
  F.drainLoop (s.length + 1) s

variable {F}
variable {s : List α}

theorem length_drop_lt {n : ℕ} (h : F.cut s = .item n) : (s.drop n).length < s.length := by
  have := F.pos h
  have := F.le h
  rw [List.length_drop]
  omega

/-- Every message is not empty, so more rounds than characters change nothing. -/
theorem drainLoop_eq_drain :
    ∀ {k : ℕ} {s : List α}, s.length < k → F.drainLoop k s = F.drain s := by
  have key : ∀ (k j : ℕ) (s : List α), s.length < k → s.length < j →
      F.drainLoop k s = F.drainLoop j s := by
    intro k
    induction k with
    | zero => intro j s hk; omega
    | succ k ih =>
      intro j s hk hj
      obtain ⟨j, rfl⟩ : ∃ i, j = i + 1 := ⟨j - 1, by omega⟩
      unfold drainLoop
      cases hc : F.cut s with
      | more | bad => rfl
      | item n =>
        have := length_drop_lt hc
        dsimp only
        rw [ih j (s.drop n) (by omega) (by omega)]
  intro k s hk
  exact key k _ s hk (Nat.lt_succ_self _)

theorem drain_more (h : F.cut s = .more) : F.drain s = ([], some s) := by
  rw [drain, drainLoop, h]

theorem drain_bad (h : F.cut s = .bad) : F.drain s = ([], none) := by
  rw [drain, drainLoop, h]

theorem drain_item {n : ℕ} (h : F.cut s = .item n) :
    F.drain s = (s.take n :: (F.drain (s.drop n)).1, (F.drain (s.drop n)).2) := by
  rw [drain, drainLoop, h]
  dsimp only
  rw [drainLoop_eq_drain (length_drop_lt h)]

/-- The messages of a stream and more of it. -/
theorem drain_append {s t : List α} :
    F.drain (s ++ t) =
      match (F.drain s).2 with
      | some u => ((F.drain s).1 ++ (F.drain (u ++ t)).1, (F.drain (u ++ t)).2)
      | none => ((F.drain s).1, none) := by
  cases hc : F.cut s with
  | more => simp [drain_more hc]
  | bad => simp [drain_bad hc, drain_bad (F.bad_append hc t)]
  | item n =>
    have hle := F.le hc
    rw [drain_item hc, drain_item (F.item_append hc t), List.take_append_of_le_length hle,
      List.drop_append_of_le_length hle, drain_append]
    cases (F.drain (s.drop n)).2 <;> rfl
  termination_by s.length
  decreasing_by exact length_drop_lt hc

end StreamFramer

end Sems
