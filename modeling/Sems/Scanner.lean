import Mathlib

/-!
# Scanning a text

The loop of a hand-written parser : one character after the other changes the state of the
loop, until the text ends or a character ends the loop. `scan` runs such a loop and returns its
result with the text left.

`scan_ok` is the rule for it : an invariant of the text read so far and the state holds where
the loop ends.
-/

namespace Sems

/-- What a loop does with a character. -/
inductive Scan (σ ρ ε : Type) where
  /-- Read it, and go on. -/
  | next (s : σ)
  /-- Read it and the one after it, which must be there. -/
  | escape (next : Char → σ)
  /-- End the loop before it. -/
  | stop (r : ρ)
  | fail (e : ε)

variable {σ ρ ε : Type}

/-- Run a loop. At the end of the text the result is that of `finish`, and a missing character after
an escape is the error `eot`. -/
def scan (step : σ → Char → Scan σ ρ ε) (finish : σ → Except ε ρ) (eot : ε) :
    σ → List Char → Except ε (ρ × List Char)
  | s, [] => (finish s).map fun r => (r, [])
  | s, c :: cs =>
    match step s c with
    | .next s => scan step finish eot s cs
    | .escape next =>
      match cs with
      | [] => .error eot
      | d :: ds => scan step finish eot (next d) ds
    | .stop r => .ok (r, c :: cs)
    | .fail e => .error e

/-- Where a loop ends with a result : at the end of the text, or before a character that ends
it. -/
theorem scan_ok {step : σ → Char → Scan σ ρ ε} {finish : σ → Except ε ρ} {eot : ε}
    {Inv : List Char → σ → Prop}
    (hnext : ∀ {t s c s'}, Inv t s → step s c = .next s' → Inv (t ++ [c]) s')
    (hescape : ∀ {t s c d next}, Inv t s → step s c = .escape next → Inv (t ++ [c, d]) (next d)) :
    ∀ {text t : List Char} {s : σ} {r : ρ} {rest : List Char}, Inv t s →
      scan step finish eot s text = .ok (r, rest) →
      ∃ t' s', t ++ text = t' ++ rest ∧ Inv t' s' ∧
        ((rest = [] ∧ finish s' = .ok r) ∨ ∃ c cs, rest = c :: cs ∧ step s' c = .stop r)
  | [], t, s, r, rest, hs, h => by
    unfold scan at h
    cases hf : finish s with
    | error e =>
      rw [hf] at h
      cases h
    | ok r' =>
      rw [hf] at h
      cases h
      exact ⟨t, s, rfl, hs, .inl ⟨rfl, hf⟩⟩
  | c :: cs, t, s, r, rest, hs, h => by
    unfold scan at h
    cases hst : step s c with
    | next s' =>
      rw [hst] at h
      obtain ⟨t', s'', htext, hrest⟩ := scan_ok hnext hescape (hnext hs hst) h
      exact ⟨t', s'', by rw [← htext, List.append_assoc, List.singleton_append], hrest⟩
    | escape next =>
      rw [hst] at h
      cases cs with
      | nil => cases h
      | cons d ds =>
        obtain ⟨t', s'', htext, hrest⟩ := scan_ok hnext hescape (hescape hs hst) h
        exact ⟨t', s'', by rw [← htext, List.append_assoc]; rfl, hrest⟩
    | stop r' =>
      rw [hst] at h
      cases h
      exact ⟨t, s, rfl, hs, .inr ⟨c, cs, rfl, hst⟩⟩
    | fail e =>
      rw [hst] at h
      cases h

end Sems
