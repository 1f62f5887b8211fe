import Mathlib

/-!
# Runs of a machine

A machine is a step function on a type of states, and a run is a list of events. `RunOk` says of
a run that every event meets a condition in the state it comes in, and `RunOk.inv` is the rule
for an invariant that such steps keep (`runFrom_inv` without a condition). `runOk_congr` exchanges
one condition for another, and `forall_prefix_iff` is for a condition that is needed in every step.

A family of machines runs one step of one member at a time (`familyStep`, `RunOk.family_inv`).
-/

namespace Sems

section Machine

variable {σ ε : Type*} (step : σ → ε → σ)

/-- The state after some events. -/
def runFrom (s : σ) (evs : List ε) : σ :=
  evs.foldl step s

/-- Every event meets the condition in its state. -/
def RunOk (ok : σ → ε → Prop) : σ → List ε → Prop
  | _, [] => True
  | s, ev :: evs => ok s ev ∧ RunOk ok (step s ev) evs

instance RunOk.decidable (ok : σ → ε → Prop) [∀ s ev, Decidable (ok s ev)] :
    ∀ (s : σ) (evs : List ε), Decidable (RunOk step ok s evs)
  | _, [] => inferInstanceAs (Decidable True)
  | s, ev :: evs =>
    have := RunOk.decidable ok (step s ev) evs
    inferInstanceAs (Decidable (ok s ev ∧ RunOk step ok (step s ev) evs))

variable {step}

variable {ok : σ → ε → Prop} {I : σ → Prop}

theorem RunOk.inv (hstep : ∀ {s ev}, I s → ok s ev → I (step s ev)) :
    ∀ {evs : List ε} {s : σ}, I s → RunOk step ok s evs → I (runFrom step s evs)
  | [], _, hs, _ => hs
  | ev :: evs, s, hs, hok => by
    have hs' : I (step s ev) := hstep hs hok.1
    show I (runFrom step (step s ev) evs)
    exact RunOk.inv hstep hs' hok.2

/-- An invariant of every step. -/
theorem runFrom_inv (hstep : ∀ {s ev}, I s → I (step s ev)) :
    ∀ (evs : List ε) {s : σ}, I s → I (runFrom step s evs)
  | [], _, hs => hs
  | ev :: evs, s, hs => by
    have hs' : I (step s ev) := hstep hs
    exact runFrom_inv hstep evs hs'

theorem runFrom_concat {evs : List ε} {ev : ε} {s : σ} :
    runFrom step s (evs ++ [ev]) = step (runFrom step s evs) ev := by
  rw [runFrom, List.foldl_append]
  rfl

/-- The last event of a run. -/
theorem runOk_concat :
    ∀ {evs : List ε} {ev : ε} {s : σ}, RunOk step ok s (evs ++ [ev]) →
      RunOk step ok s evs ∧ ok (runFrom step s evs) ev
  | [], _, _, h => ⟨trivial, h.1⟩
  | _ :: _, _, _, h =>
    let ⟨hevs, hev⟩ := runOk_concat h.2
    ⟨⟨h.1, hevs⟩, hev⟩

/-- Two conditions that are the same in every state reached. -/
theorem runOk_congr {ok' : σ → ε → Prop} (hstep : ∀ {s ev}, I s → I (step s ev))
    (h : ∀ {s ev}, I s → (ok s ev ↔ ok' s ev)) :
    ∀ {evs : List ε} {s : σ}, I s → (RunOk step ok s evs ↔ RunOk step ok' s evs)
  | [], _, _ => Iff.rfl
  | _ :: _, _, hs => and_congr (h hs) (runOk_congr hstep h (hstep hs))

/-- If a step keeps the invariant exactly if it meets the condition, the invariant holds in every
state of a run exactly if every event meets it. -/
theorem forall_prefix_iff (hstep : ∀ {s ev}, I s → (I (step s ev) ↔ ok s ev)) :
    ∀ {evs : List ε} {s : σ}, I s →
      ((∀ pre, pre <+: evs → I (runFrom step s pre)) ↔ RunOk step ok s evs)
  | [], s, hs => by
    refine iff_of_true (fun pre hpre => ?_) trivial
    rw [List.prefix_nil.1 hpre]
    exact hs
  | ev :: evs, s, hs => by
    constructor
    · intro h
      have hev : I (step s ev) := h [ev] ⟨evs, rfl⟩
      refine ⟨(hstep hs).1 hev, (forall_prefix_iff hstep hev).1 fun pre hpre => ?_⟩
      exact h (ev :: pre) (List.cons_prefix_cons.2 ⟨rfl, hpre⟩)
    · rintro ⟨hev, hevs⟩ pre hpre
      cases pre with
      | nil => exact hs
      | cons e pre =>
        obtain ⟨rfl, htail⟩ := List.cons_prefix_cons.1 hpre
        exact (forall_prefix_iff hstep ((hstep hs).2 hev)).2 hevs pre htail

end Machine

section Family

variable {ι σ ε : Type*} [DecidableEq ι] (step : σ → ε → σ)

/-- A step of one member. -/
def familyStep (S : ι → σ) (ev : ι × ε) : ι → σ :=
  Function.update S ev.1 (step (S ev.1) ev.2)

variable {step}

theorem RunOk.family_inv {ok : σ → ε → Prop} {I : σ → Prop}
    (hstep : ∀ {s ev}, I s → ok s ev → I (step s ev)) {S : ι → σ} {evs : List (ι × ε)}
    (hS : ∀ i, I (S i)) (h : RunOk (familyStep step) (fun S ev => ok (S ev.1) ev.2) S evs) (i : ι) :
    I (runFrom (familyStep step) S evs i) := by
  refine RunOk.inv (I := fun S => ∀ i, I (S i)) (fun {S ev} hS hev i => ?_) hS h i
  unfold familyStep
  rcases eq_or_ne i ev.1 with rfl | hi
  · rw [Function.update_self]
    exact hstep (hS _) hev
  · rw [Function.update_of_ne hi]
    exact hS i

end Family

end Sems
