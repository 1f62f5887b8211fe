import Mathlib

/-!
# Secondary indexes

A table of entries by their names, and an index that finds the name of an entry by a key the
entry determines. `Indexes` says that the index finds exactly the entries of the table. It is kept
by a new entry (`Indexes.insert`), by the end of one (`Indexes.erase`) and by an entry that changes
its key (`Indexes.rekey`), as long as no two entries have the same key.
-/

namespace Sems

open Function
open Function (update)

variable {A E K : Type*}

/-- The index has the name of every entry under the key of the entry, and nothing else. -/
def Indexes (key : E → K) (table : A → Option E) (index : K → Option A) : Prop :=
  ∀ k a, index k = some a ↔ ∃ e, table a = some e ∧ key e = k

namespace Indexes

variable {key : E → K} {table : A → Option E} {index : K → Option A} {a a' : A} {e e' : E}

theorem empty : Indexes key (fun _ : A => none) fun _ => none := by
  intro k a
  simp

variable (h : Indexes key table index)

include h

variable (ha : table a = some e)

include ha

theorem index_key : index (key e) = some a :=
  (h _ _).2 ⟨e, ha, rfl⟩

/-- An entry of its own for each key. -/
theorem eq_of_key (ha' : table a' = some e') (hk : key e = key e') : a = a' := by
  have hi := h.index_key ha
  rw [hk, h.index_key ha'] at hi
  exact (Option.some_inj.1 hi).symm

variable [DecidableEq A] [DecidableEq K]

omit ha in
theorem insert (ha : table a = none) (hk : index (key e) = none) :
    Indexes key (update table a (some e)) (update index (key e) (some a)) := by
  intro k a'
  by_cases hka : k = key e
  · subst hka
    rw [update_self]
    constructor
    · rintro ⟨⟩
      exact ⟨e, update_self .., rfl⟩
    · rintro ⟨e', he', hke⟩
      by_cases haa : a' = a
      · rw [haa]
      -- another entry with the key would have been indexed
      · rw [update_of_ne haa] at he'
        have hi := h.index_key he'
        rw [hke, hk] at hi
        exact absurd hi nofun
  · rw [update_of_ne hka, h]
    by_cases haa : a' = a
    · subst haa
      rw [ha, update_self]
      constructor
      · rintro ⟨_, h', _⟩
        exact absurd h' nofun
      · rintro ⟨_, h', hke⟩
        exact absurd (Option.some_inj.1 h' ▸ hke.symm) hka
    · rw [update_of_ne haa]

theorem erase : Indexes key (update table a none) (update index (key e) none) := by
  intro k a'
  by_cases hka : k = key e
  · subst hka
    rw [update_self]
    refine ⟨nofun, ?_⟩
    rintro ⟨e', he', hke⟩
    by_cases haa : a' = a
    · rw [haa, update_self] at he'
      exact absurd he' nofun
    · rw [update_of_ne haa] at he'
      exact absurd (h.eq_of_key he' ha hke) haa
  · rw [update_of_ne hka, h]
    by_cases haa : a' = a
    · subst haa
      rw [ha, update_self]
      constructor
      · rintro ⟨_, h', hke⟩
        exact absurd (Option.some_inj.1 h' ▸ hke.symm) hka
      · rintro ⟨_, h', _⟩
        exact absurd h' nofun
    · rw [update_of_ne haa]

/-- Another entry under the name, with a key that no other entry has. -/
theorem rekey (hk : key e' = key e ∨ index (key e') = none) :
    Indexes key (update table a (some e'))
      (update (update index (key e) none) (key e') (some a)) := by
  have hfree : update index (key e) none (key e') = none := by
    by_cases hke : key e' = key e
    · rw [hke, update_self]
    · rw [update_of_ne hke]
      exact hk.resolve_left hke
  have hins := (h.erase ha).insert (update_self ..) hfree
  rwa [update_idem] at hins

/-- Another entry under the name, with the same key. -/
theorem replace (hk : key e' = key e) : Indexes key (update table a (some e')) index := by
  have hre := h.rekey ha (.inl hk)
  rwa [hk, update_idem, ← h.index_key ha, update_eq_self] at hre

end Indexes

end Sems
