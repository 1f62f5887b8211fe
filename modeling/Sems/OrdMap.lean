import Mathlib

/-!
# Ordered maps

A finite map as the list of its entries in the order of their keys, which is what a C++
`std::map` iterates over. An insertion and a removal change its lookup at one point
(`find?_insert_eq`, `find?_erase_eq`). `countP` counts the entries whose value has a property
(`countP_insert`, `countP_erase`), and `sum` adds up a weight of the values (`sum_insert`,
`sum_erase`). `eraseVal` erases every entry with a value, and `emplace` leaves an entry with the
same key alone, as `std::map::insert` does.
-/

namespace Sems

open List Function

/-- Entries with their keys in strictly ascending order. -/
structure OrdMap (K V : Type*) [LinearOrder K] where
  entries : List (K × V)
  sorted : entries.Pairwise fun a b => a.1 < b.1

namespace OrdMap

variable {K V : Type*} [LinearOrder K]

def empty : OrdMap K V :=
  ⟨[], List.Pairwise.nil⟩

def find? (m : OrdMap K V) (k : K) : Option V :=
  (m.entries.find? fun e => e.1 = k).map Prod.snd

/-- Insertion into a sorted list, over the entry with the same key. -/
def insertEntry (k : K) (v : V) : List (K × V) → List (K × V)
  | [] => [(k, v)]
  | e :: l => if k < e.1 then (k, v) :: e :: l else if k = e.1 then (k, v) :: l else
      e :: insertEntry k v l

variable {e : K × V}

theorem mem_insertEntry {k : K} {v : V} :
    ∀ {l}, e ∈ insertEntry k v l → e = (k, v) ∨ e ∈ l
  | [], h => .inl (mem_singleton.1 h)
  | e' :: l, h => by
    unfold insertEntry at h
    split_ifs at h
    · simpa using h
    · rcases mem_cons.1 h with h | h
      · exact .inl h
      · exact .inr (mem_cons_of_mem _ h)
    · rcases mem_cons.1 h with h | h
      · exact .inr (by simp [h])
      · exact (mem_insertEntry h).imp_right (mem_cons_of_mem _)

theorem sorted_insertEntry {k : K} {v : V} :
    ∀ {l : List (K × V)}, l.Pairwise (fun a b => a.1 < b.1) →
      (insertEntry k v l).Pairwise fun a b => a.1 < b.1
  | [], _ => pairwise_singleton _ _
  | e :: l, h => by
    obtain ⟨he, hl⟩ := pairwise_cons.1 h
    unfold insertEntry
    split_ifs with hlt heq
    · refine pairwise_cons.2 ⟨fun a ha => ?_, h⟩
      rcases mem_cons.1 ha with rfl | ha
      · exact hlt
      · exact hlt.trans (he a ha)
    · exact pairwise_cons.2 ⟨fun a ha => heq ▸ he a ha, hl⟩
    · refine pairwise_cons.2 ⟨fun a ha => ?_, sorted_insertEntry hl⟩
      rcases mem_insertEntry ha with rfl | ha
      · exact lt_of_le_of_ne (not_lt.1 hlt) (Ne.symm heq)
      · exact he a ha

/-- `m[k] = v`. -/
def insert (m : OrdMap K V) (k : K) (v : V) : OrdMap K V :=
  ⟨insertEntry k v m.entries, sorted_insertEntry m.sorted⟩

/-- `m.insert(k, v)`, which does not replace. -/
def emplace (m : OrdMap K V) (k : K) (v : V) : OrdMap K V :=
  match m.find? k with
  | some _ => m
  | none => m.insert k v

def erase (m : OrdMap K V) (k : K) : OrdMap K V :=
  ⟨m.entries.filter fun e => e.1 ≠ k, m.sorted.filter _⟩

/-- The sum of the weights of all values. -/
def sum (w : V → ℕ) (m : OrdMap K V) : ℕ :=
  (m.entries.map fun e => w e.2).sum

/-- The number of entries whose value has the property. -/
def countP (p : V → Bool) (m : OrdMap K V) : ℕ :=
  m.entries.countP fun e => p e.2

/-! ## Entries -/

variable {m : OrdMap K V} {k : K} {v : V}

theorem eq_of_mem {e' : K × V} :
    ∀ {l : List (K × V)}, l.Pairwise (fun a b => a.1 < b.1) → e ∈ l → e' ∈ l → e.1 = e'.1 → e = e'
  | [], _, h, _, _ => absurd h not_mem_nil
  | a :: l, hs, h, h', heq => by
    obtain ⟨ha, hl⟩ := pairwise_cons.1 hs
    rcases mem_cons.1 h with rfl | hmem <;> rcases mem_cons.1 h' with rfl | hmem'
    · rfl
    · exact absurd heq (ne_of_lt (ha e' hmem'))
    · exact absurd heq (ne_of_gt (ha e hmem))
    · exact eq_of_mem hl hmem hmem' heq

theorem find?_eq_some_iff : m.find? k = some v ↔ (k, v) ∈ m.entries := by
  unfold find?
  rw [Option.map_eq_some_iff]
  constructor
  · rintro ⟨e, he, rfl⟩
    have hk : e.1 = k := by simpa using find?_some he
    rw [← hk]
    exact mem_of_find?_eq_some he
  · intro hmem
    obtain ⟨e, he⟩ : ∃ e, m.entries.find? (fun e => e.1 = k) = some e :=
      Option.isSome_iff_exists.1 (find?_isSome.2 ⟨_, hmem, by simp⟩)
    have hk : e.1 = k := by simpa using find?_some he
    refine ⟨e, he, ?_⟩
    rw [eq_of_mem m.sorted (mem_of_find?_eq_some he) hmem hk]

theorem find?_eq_none_iff : m.find? k = none ↔ ∀ e ∈ m.entries, e.1 ≠ k := by
  simp [find?]

theorem mem_insert (h : e ∈ (m.insert k v).entries) : e = (k, v) ∨ e ∈ m.entries :=
  mem_insertEntry h

theorem mem_erase : e ∈ (m.erase k).entries ↔ e ∈ m.entries ∧ e.1 ≠ k := by
  simp [erase]

theorem find?_insert : (m.insert k v).find? k = some v := by
  rw [find?_eq_some_iff]
  show (k, v) ∈ insertEntry k v m.entries
  induction m.entries with
  | nil => simp [insertEntry]
  | cons e l ih =>
    unfold insertEntry
    split_ifs
    · simp
    · simp
    · exact mem_cons_of_mem _ ih

theorem mem_insertEntry_of_ne (hk : e.1 ≠ k) :
    ∀ {l}, e ∈ l → e ∈ insertEntry k v l
  | e' :: l, h => by
    unfold insertEntry
    split_ifs with hlt heq
    · exact mem_cons_of_mem _ h
    · rcases mem_cons.1 h with rfl | h
      · exact absurd heq.symm hk
      · exact mem_cons_of_mem _ h
    · rcases mem_cons.1 h with rfl | h
      · exact mem_cons_self
      · exact mem_cons_of_mem _ (mem_insertEntry_of_ne hk h)

theorem find?_insert_ne {k' : K} (hk : k' ≠ k) : (m.insert k v).find? k' = m.find? k' := by
  ext v'
  rw [find?_eq_some_iff, find?_eq_some_iff]
  constructor
  · intro h
    rcases mem_insert h with heq | h
    · exact absurd (congrArg Prod.fst heq) hk
    · exact h
  · exact mem_insertEntry_of_ne hk

/-- The map with an entry more, or another value for the key. -/
theorem find?_insert_eq : (m.insert k v).find? = Function.update m.find? k (some v) := by
  funext k'
  by_cases hk : k' = k
  · rw [hk, find?_insert, update_self]
  · rw [find?_insert_ne hk, update_of_ne hk]

theorem emplace_eq_insert (h : m.find? k = none) : m.emplace k v = m.insert k v := by
  rw [emplace, h]

theorem insertEntry_insertEntry {v' : V} :
    ∀ l : List (K × V), insertEntry k v' (insertEntry k v l) = insertEntry k v' l
  | [] => by simp [insertEntry]
  | e :: l => by
    by_cases hlt : k < e.1
    · simp [insertEntry, hlt]
    by_cases heq : k = e.1
    · simp [insertEntry, heq]
    · simp [insertEntry, hlt, heq, insertEntry_insertEntry l]

theorem insert_insert (v' : V) : (m.insert k v).insert k v' = m.insert k v' := by
  simp only [insert, mk.injEq]
  exact insertEntry_insertEntry m.entries

theorem find?_erase_eq : (m.erase k).find? = Function.update m.find? k none := by
  funext k'
  by_cases hk : k' = k
  · rw [hk, update_self, find?_eq_none_iff]
    exact fun e he => (mem_erase.1 he).2
  · rw [update_of_ne hk]
    ext v
    rw [find?_eq_some_iff, find?_eq_some_iff, mem_erase]
    exact and_iff_left hk

/-- `find?_insert_eq` for any way to decide whether keys are equal. -/
theorem find?_insert_update [DecidableEq K] :
    (m.insert k v).find? = Function.update m.find? k (some v) := by
  convert find?_insert_eq (m := m) (k := k) (v := v)

/-- `find?_erase_eq` for any way to decide whether keys are equal. -/
theorem find?_erase_update [DecidableEq K] :
    (m.erase k).find? = Function.update m.find? k none := by
  convert find?_erase_eq (m := m) (k := k)

/-! ## Other values under the same keys -/

variable {W : Type*}

/-- The same keys with other values. -/
def map (f : V → W) (m : OrdMap K V) : OrdMap K W :=
  ⟨m.entries.map fun e => (e.1, f e.2), m.sorted.map _ fun _ _ h => h⟩

variable (f : V → W)

theorem map_insertEntry (f : V → W) :
    ∀ l : List (K × V), (insertEntry k v l).map (fun e => (e.1, f e.2)) =
      insertEntry k (f v) (l.map fun e => (e.1, f e.2))
  | [] => rfl
  | e :: l => by
    simp only [insertEntry, map_cons]
    split_ifs
    · rfl
    · rfl
    · rw [map_cons, map_insertEntry f l]

theorem map_insert : (m.insert k v).map f = (m.map f).insert k (f v) := by
  simp only [map, insert, mk.injEq]
  exact map_insertEntry f m.entries

theorem map_erase : (m.erase k).map f = (m.map f).erase k := by
  simp only [map, erase, mk.injEq, filter_map]
  rfl

/-! ## Counting -/

variable {p : V → Bool}

theorem countP_insertEntry {q : K × V → Bool} :
    ∀ {l : List (K × V)}, (∀ e ∈ l, e.1 ≠ k) →
      (insertEntry k v l).countP q = l.countP q + if q (k, v) then 1 else 0
  | [], _ => by simp [insertEntry, countP_cons]
  | e :: l, h => by
    obtain ⟨he, hl⟩ := forall_mem_cons.1 h
    unfold insertEntry
    rw [if_neg he.symm]
    split_ifs with hlt hq hq
    · simp [countP_cons, hq]
    · simp [countP_cons, hq]
    · rw [countP_cons, countP_insertEntry hl, countP_cons, if_pos hq]
      omega
    · rw [countP_cons, countP_insertEntry hl, countP_cons, if_neg hq]
      omega

/-- A new entry. -/
theorem countP_insert (h : m.find? k = none) :
    (m.insert k v).countP p = m.countP p + if p v then 1 else 0 :=
  countP_insertEntry (find?_eq_none_iff.1 h)

/-- The entry of a key and those of the others. -/
theorem perm_filter_ne :
    ∀ {l : List (K × V)}, l.Pairwise (fun a b => a.1 < b.1) → (k, v) ∈ l →
      l.Perm ((k, v) :: l.filter fun e => e.1 ≠ k)
  | [], _, h => absurd h not_mem_nil
  | e :: l, hs, h => by
    obtain ⟨he, hl⟩ := pairwise_cons.1 hs
    rcases mem_cons.1 h with rfl | hmem
    · -- no other entry has the key
      have hrest : (l.filter fun e => e.1 ≠ k) = l :=
        filter_eq_self.2 fun e' he' => by simpa using ne_of_gt (he e' he')
      rw [filter_cons_of_neg (by simp), hrest]
    · have hne : e.1 ≠ k := ne_of_lt (he _ hmem)
      rw [filter_cons_of_pos (by simpa using hne)]
      exact ((perm_filter_ne hl hmem).cons e).trans (.swap _ _ _)

/-- The entry of the key is the only one that goes. -/
theorem countP_erase (h : m.find? k = some v) :
    m.countP p = (m.erase k).countP p + if p v then 1 else 0 :=
  ((perm_filter_ne m.sorted (find?_eq_some_iff.1 h)).countP_eq _).trans countP_cons

theorem erase_eq_self (h : m.find? k = none) : m.erase k = m := by
  have heq : (m.entries.filter fun e => e.1 ≠ k) = m.entries :=
    filter_eq_self.2 fun e he => by simpa using find?_eq_none_iff.1 h e he
  cases m
  simp only [erase, mk.injEq]
  exact heq

theorem erase_head {l : List (K × V)} (h : ((k, v) :: l).Pairwise fun a b => a.1 < b.1) :
    (⟨(k, v) :: l, h⟩ : OrdMap K V).erase k = ⟨l, (pairwise_cons.1 h).2⟩ := by
  have hrest : (l.filter fun e => e.1 ≠ k) = l :=
    filter_eq_self.2 fun e he => by simpa using ne_of_gt ((pairwise_cons.1 h).1 e he)
  simp only [erase, mk.injEq]
  rw [filter_cons_of_neg (by simp), hrest]

theorem erase_erase : (m.erase k).erase k = m.erase k :=
  erase_eq_self (find?_eq_none_iff.2 fun _ he => (mem_erase.1 he).2)

/-- Another value, or none, where the old one does not count. -/
theorem countP_erase_of_not (h : ∀ v, m.find? k = some v → p v = false) :
    (m.erase k).countP p = m.countP p := by
  cases hk : m.find? k with
  | none => rw [erase_eq_self hk]
  | some v =>
    have hcount := countP_erase (p := p) hk
    rw [h v hk] at hcount
    simpa using hcount.symm

theorem countP_true : m.countP (fun _ => true) = m.entries.length :=
  congrFun List.countP_true m.entries

theorem length_insert (h : m.find? k = none) :
    (m.insert k v).entries.length = m.entries.length + 1 := by
  rw [← countP_true, countP_insert h, countP_true]
  rfl

theorem length_erase (h : m.find? k = some v) :
    m.entries.length = (m.erase k).entries.length + 1 := by
  rw [← countP_true, countP_erase h, countP_true]
  rfl

/-! ## Adding up -/

variable {w : V → ℕ}

/-- The entry of the key is the only one that goes. -/
theorem sum_erase (h : m.find? k = some v) : m.sum w = (m.erase k).sum w + w v := by
  have hperm := (perm_filter_ne m.sorted (find?_eq_some_iff.1 h)).map fun e => w e.2
  exact hperm.sum_nat.trans (Nat.add_comm _ _)

theorem filter_insertEntry :
    ∀ l : List (K × V), (insertEntry k v l).filter (fun e => e.1 ≠ k) = l.filter fun e => e.1 ≠ k
  | [] => by simp [insertEntry]
  | e :: l => by
    unfold insertEntry
    split_ifs with hlt heq
    · rw [filter_cons_of_neg (by simp)]
    · rw [filter_cons_of_neg (by simp), filter_cons_of_neg (by simp [heq])]
    · have hne : e.1 ≠ k := Ne.symm heq
      rw [filter_cons_of_pos (by simpa using hne),
        filter_cons_of_pos (by simpa using hne), filter_insertEntry l]

theorem erase_insert : (m.insert k v).erase k = m.erase k := by
  simp only [erase, mk.injEq]
  exact filter_insertEntry m.entries

theorem length_insert_of_some {v' : V} (h : m.find? k = some v') :
    (m.insert k v).entries.length = m.entries.length := by
  rw [length_erase (find?_insert (v := v)), erase_insert, length_erase h]

/-- The new value counts in the place of the old one. -/
theorem sum_insert : (m.insert k v).sum w + (m.find? k).elim 0 w = m.sum w + w v := by
  rw [sum_erase (w := w) find?_insert, erase_insert]
  cases hk : m.find? k with
  | none =>
    rw [erase_eq_self hk]
    rfl
  | some v' =>
    rw [sum_erase (w := w) hk, Option.elim_some]
    omega

/-! ## Erasing a value -/

theorem find?_foldl_erase :
    ∀ (l : List (K × V)) (m : OrdMap K V),
      (l.foldl (fun m e => m.erase e.1) m).find? k = if ∃ e ∈ l, e.1 = k then none else m.find? k
  | [], m => by simp
  | e :: l, m => by
    rw [foldl_cons, find?_foldl_erase l, find?_erase_eq]
    by_cases hk : e.1 = k
    · have hpos : ∃ e' ∈ e :: l, e'.1 = k := ⟨e, mem_cons_self, hk⟩
      rw [if_pos hpos, hk, update_self, ite_self]
    · rw [update_of_ne (Ne.symm hk)]
      refine if_congr ?_ rfl rfl
      simp [hk]

section EraseVal

variable [DecidableEq V]

/-- Without the entries that have the value. -/
def eraseVal (v : V) (m : OrdMap K V) : OrdMap K V :=
  (m.entries.filter fun e => e.2 = v).foldl (fun m e => m.erase e.1) m

theorem find?_eraseVal :
    (m.eraseVal v).find? k = if m.find? k = some v then none else m.find? k := by
  rw [eraseVal, find?_foldl_erase]
  refine if_congr ?_ rfl rfl
  rw [find?_eq_some_iff]
  constructor
  · rintro ⟨e, he, rfl⟩
    obtain ⟨hmem, hv⟩ := mem_filter.1 he
    rw [← of_decide_eq_true hv]
    exact hmem
  · exact fun hmem => ⟨(k, v), mem_filter.2 ⟨hmem, by simp⟩, rfl⟩

end EraseVal

end OrdMap

end Sems
