import Mathlib

/-!
# Lists with keys

A list whose elements have different keys, as a table. `replaceKey` puts another element in the
place of the one with a key, or removes it. `countP_replaceKey` says what that does to the number
of the elements with a property.
-/

namespace Sems

open List

variable {α κ : Type*} [DecidableEq κ] (key : α → κ)

/-- Put `s` in the place of the element with the key `k`. -/
def replaceKey (k : κ) (s : Option α) (l : List α) : List α :=
  l.filterMap fun x => if key x = k then s else some x

variable {key} {k : κ} {s : Option α} {l : List α}

theorem mem_replaceKey {x : α} :
    x ∈ replaceKey key k s l ↔ (x ∈ l ∧ key x ≠ k) ∨ (s = some x ∧ ∃ y ∈ l, key y = k) := by
  unfold replaceKey
  rw [mem_filterMap]
  constructor
  · rintro ⟨y, hy, hyx⟩
    split_ifs at hyx with hk
    · exact .inr ⟨hyx, y, hy, hk⟩
    · cases hyx
      exact .inl ⟨hy, hk⟩
  · rintro (⟨hx, hk⟩ | ⟨rfl, y, hy, hk⟩)
    · exact ⟨x, hx, if_neg hk⟩
    · exact ⟨y, hy, if_pos hk⟩

/-- Without the key, nothing changes. -/
theorem replaceKey_of_notMem (h : k ∉ l.map key) : replaceKey key k s l = l := by
  unfold replaceKey
  have hid : ∀ x ∈ l, (if key x = k then s else some x) = some x := by
    intro x hx
    rw [if_neg]
    rintro rfl
    exact h (mem_map_of_mem hx)
  rw [filterMap_congr hid, filterMap_some]

/-- An element in its own place. -/
theorem replaceKey_self (hn : (l.map key).Nodup) {x : α} (hx : x ∈ l) :
    replaceKey key (key x) (some x) l = l := by
  unfold replaceKey
  have hid : ∀ y ∈ l, (if key y = key x then some x else some y) = some y := by
    intro y hy
    split_ifs with hk
    · rw [inj_on_of_nodup_map hn hy hx hk]
    · rfl
  rw [filterMap_congr hid, filterMap_some]

theorem replaceKey_cons_self {x : α} (hk : key x = k) (h : k ∉ l.map key) :
    replaceKey key k s (x :: l) = s.toList ++ l := by
  have hl : replaceKey key k s l = l := replaceKey_of_notMem h
  unfold replaceKey at hl ⊢
  rw [filterMap_cons, if_pos hk, hl]
  cases s with
  | none | some y => rfl

theorem replaceKey_cons_ne {x : α} (hk : key x ≠ k) :
    replaceKey key k s (x :: l) = x :: replaceKey key k s l := by
  simp [replaceKey, hk]

/-- The element with the key no longer counts, and the new one does. -/
theorem countP_replaceKey (p : α → Bool) (y : α) :
    ∀ {l : List α} (_ : (l.map key).Nodup) (_ : y ∈ l),
      (replaceKey key (key y) s l).countP p + (if p y then 1 else 0) =
        l.countP p + s.toList.countP p
  | x :: l, hn, hy => by
    rw [map_cons, nodup_cons] at hn
    by_cases hk : key x = key y
    · have hxy : x = y := by
        rcases mem_cons.1 hy with rfl | hy
        · rfl
        · exact absurd (hk ▸ mem_map_of_mem hy) hn.1
      subst hxy
      rw [replaceKey_cons_self rfl hn.1, countP_append, countP_cons]
      omega
    · have hy' : y ∈ l := (mem_cons.1 hy).resolve_left fun h => hk (h ▸ rfl)
      have hrec := countP_replaceKey p y hn.2 hy'
      rw [replaceKey_cons_ne hk, countP_cons, countP_cons]
      omega

/-- What the new element has in common with the old one stays where it was. -/
theorem map_replaceKey_sublist {β : Type*} (f : α → β) :
    ∀ {l : List α}, (∀ y ∈ s, ∀ x ∈ l, key x = k → f y = f x) →
      ((replaceKey key k s l).map f).Sublist (l.map f)
  | [], _ => List.Sublist.slnil
  | x :: l, hs => by
    have hrec := map_replaceKey_sublist f fun y hy x hx => hs y hy x (mem_cons_of_mem _ hx)
    by_cases hk : key x = k
    · unfold replaceKey at hrec ⊢
      rw [filterMap_cons, if_pos hk, map_cons]
      cases s with
      | none => exact hrec.cons _
      | some y =>
        rw [map_cons, hs y rfl x mem_cons_self hk]
        exact hrec.cons_cons _
    · rw [replaceKey_cons_ne hk, map_cons, map_cons]
      exact hrec.cons_cons _

theorem mem_map_replaceKey_none {k' : κ} :
    k' ∈ (replaceKey key k none l).map key ↔ k' ∈ l.map key ∧ k' ≠ k := by
  simp only [mem_map, mem_replaceKey]
  constructor
  · rintro ⟨x, ⟨hx, hk⟩ | ⟨h, -⟩, rfl⟩
    · exact ⟨⟨x, hx, rfl⟩, hk⟩
    · exact nomatch h
  · rintro ⟨⟨x, hx, rfl⟩, hk⟩
    exact ⟨x, .inl ⟨hx, hk⟩, rfl⟩

theorem map_replaceKey_some {y : α} (hy : key y = k) :
    (replaceKey key k (some y) l).map key = l.map key := by
  induction l with
  | nil => rfl
  | cons x l ih =>
    by_cases hk : key x = k
    · unfold replaceKey at ih ⊢
      rw [filterMap_cons, if_pos hk, map_cons, map_cons, ih, hy, hk]
    · rw [replaceKey_cons_ne hk, map_cons, map_cons, ih]

/-- The keys stay different when the new element keeps the key. -/
theorem nodup_replaceKey (hs : ∀ y ∈ s, key y = k) (hn : (l.map key).Nodup) :
    ((replaceKey key k s l).map key).Nodup :=
  (map_replaceKey_sublist key fun y hy _ _ hk => (hs y hy).trans hk.symm).nodup hn

end Sems
