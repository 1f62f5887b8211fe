import Mathlib

/-!
# Intrusive doubly linked lists

A node of an intrusive list carries its own pointers : `next` leads to a node, `prev`
back to the cell whose `next` leads here, another node or the head of the list. `Links` is the state
of all these pointers, for heads of a type `H` and nodes of a type `N`.

`Links.ReprOn P L ls` says that the pointers `L` lay out the list `ls h` at every head
`h` of `P`, and that no node is in two places. A pointer walk whose body relinks the node it visits
is a fold over the list it started on (`walk_eq_foldl`), which gives the two loops that empty a
list (`moveAll`, `detachAll`).

`Links.Placed` is the view for a client : which nodes are in a list, and in which one. Every
operation has its rule there.
-/

set_option linter.unusedSectionVars false

namespace Sems

open List Function
open Function (update)

/-- A cell that owns a `next` pointer. -/
inductive Cell (H N : Type*) where
  | head (h : H)
  | node (n : N)
  deriving DecidableEq

/-- The pointers of every head and node. -/
structure Links (H N : Type*) where
  next : Cell H N → Option N
  prev : N → Option (Cell H N)

namespace Links

variable {H N : Type*}

/-! ## Operations -/

section Operations

variable [DecidableEq H] [DecidableEq N]

/-- All pointers null. -/
def empty : Links H N :=
  ⟨fun _ => none, fun _ => none⟩

variable (L : Links H N)

def setNext (c : Cell H N) (x : Option N) : Links H N :=
  { L with next := update L.next c x }

def setPrev (n : N) (x : Option (Cell H N)) : Links H N :=
  { L with prev := update L.prev n x }

/-- Insert `n` at the head `h`. -/
def pushFront (n : N) (h : H) : Links H N :=
  let old := L.next (.head h)
  let L := (L.setNext (.node n) old).setNext (.head h) (some n)
  let L := match old with
    | some m => L.setPrev m (some (.node n))
    | none => L
  L.setPrev n (some (.head h))

/-- Take `n` out of its list. The pointers of `n` itself stay as they are. -/
def unlink (n : N) : Links H N :=
  let L := match L.prev n with
    | some c => L.setNext c (L.next (.node n))
    | none => L
  match L.next (.node n) with
  | some m => L.setPrev m (L.prev n)
  | none => L

/-- Reset the pointers of `n`. -/
def detach (n : N) : Links H N :=
  (L.setNext (.node n) none).setPrev n none

/-- Reset the head `h`. -/
def clear (h : H) : Links H N :=
  L.setNext (.head h) none

/-- Visit at most `k` nodes from `t` on, in a state `s` with pointers `links s`. The successor of a
node is read before `body` visits it. -/
def walk {σ : Type*} (links : σ → Links H N) (body : N → σ → σ) : ℕ → Option N → σ → σ
  | 0, _, s => s
  | _ + 1, none, s => s
  | k + 1, some n, s => walk links body k ((links s).next (.node n)) (body n s)

/-- What every visit keeps. -/
theorem walk_inv {σ : Type*} {links : σ → Links H N} {body : N → σ → σ} {P : σ → Prop}
    (hbody : ∀ n s, P s → P (body n s)) :
    ∀ {k : ℕ} {t : Option N} {s : σ}, P s → P (walk links body k t s)
  | 0, _, _, h => h
  | _ + 1, none, _, h => h
  | _ + 1, some n, s, h => walk_inv (s := body n s) hbody (hbody n s h)

theorem pushFront_next (n : N) (h : H) (c : Cell H N) :
    (L.pushFront n h).next c =
      if c = .head h then some n else if c = .node n then L.next (.head h) else L.next c := by
  unfold pushFront
  cases L.next (.head h) <;>
    simp [setNext, setPrev, update_apply]

theorem pushFront_prev (n : N) (h : H) (m : N) :
    (L.pushFront n h).prev m =
      if m = n then some (.head h)
      else if L.next (.head h) = some m then some (.node n) else L.prev m := by
  unfold pushFront
  cases L.next (.head h) with
  | none => simp [setNext, setPrev, update_apply]
  | some m' => simp [setNext, setPrev, update_apply, eq_comm]

theorem unlink_next {L : Links H N} {n : N} (hn : L.prev n ≠ some (.node n)) (c : Cell H N) :
    (L.unlink n).next c = if L.prev n = some c then L.next (.node n) else L.next c := by
  unfold unlink
  cases hp : L.prev n with
  | none => cases hx : L.next (.node n) <;> simp [setPrev, hx]
  | some c' =>
    have hc : (.node n : Cell H N) ≠ c' := fun h => hn (by rw [hp, h])
    cases hx : L.next (.node n) <;>
      simp [setNext, setPrev, update_apply, hc, hx, eq_comm]

theorem unlink_prev {L : Links H N} {n : N} (hn : L.prev n ≠ some (.node n)) (m : N) :
    (L.unlink n).prev m = if L.next (.node n) = some m then L.prev n else L.prev m := by
  unfold unlink
  cases hp : L.prev n with
  | none => cases hx : L.next (.node n) <;> simp [setPrev, update_apply, hx, hp, eq_comm]
  | some c' =>
    have hc : (.node n : Cell H N) ≠ c' := fun h => hn (by rw [hp, h])
    cases hx : L.next (.node n) <;>
      simp [setNext, setPrev, update_apply, hc, hx, hp, eq_comm]

end Operations

/-! ## Chains -/

/-- From the cell `c` on, the pointers lay out the list `l`. -/
def Chain (L : Links H N) : Cell H N → List N → Prop
  | c, [] => L.next c = none
  | c, n :: l => L.next c = some n ∧ L.prev n = some c ∧ Chain L (.node n) l

variable {L : Links H N}

/-- A chain reads the `next` of its cells and the `prev` of its nodes only. -/
theorem Chain.congr {L' : Links H N} :
    ∀ {c : Cell H N} {l : List N}, L.Chain c l → L'.next c = L.next c →
      (∀ n ∈ l, L'.next (.node n) = L.next (.node n) ∧ L'.prev n = L.prev n) → L'.Chain c l
  | c, [], h, hc, _ => by
    simpa [Chain, hc] using h
  | c, n :: l, ⟨h1, h2, h3⟩, hc, hl => by
    refine ⟨hc.trans h1, (hl n (by simp)).2.trans h2, ?_⟩
    exact h3.congr (hl n (by simp)).1 fun m hm => hl m (by simp [hm])

/-- The `next` of a cell leads to the first node of its chain. -/
theorem Chain.next_eq {c : Cell H N} {l : List N} (h : L.Chain c l) : L.next c = l.head? := by
  cases l with
  | nil => exact h
  | cons n l => exact h.1

theorem Chain.tail_of_append :
    ∀ {c : Cell H N} {l₁ : List N} {n : N} {l₂ : List N}, L.Chain c (l₁ ++ n :: l₂) →
      L.Chain (.node n) l₂
  | _, [], _, _, h => h.2.2
  | _, _ :: _, _, _, h => Chain.tail_of_append h.2.2

/-- The `prev` of a node that is not the first of its chain is a node before it. -/
theorem Chain.prev_mem :
    ∀ {c : Cell H N} {a : N} {l₁ : List N} {n : N} {l₂ : List N},
      L.Chain c (a :: l₁ ++ n :: l₂) → ∃ m ∈ a :: l₁, L.prev n = some (.node m)
  | _, a, [], n, l₂, h => ⟨a, by simp, h.2.2.2.1⟩
  | _, a, b :: l₁, n, l₂, h => by
    obtain ⟨m, hm, hp⟩ := Chain.prev_mem (show L.Chain (.node a) (b :: l₁ ++ n :: l₂) from h.2.2)
    exact ⟨m, mem_cons_of_mem _ hm, hp⟩

/-! ## Laid-out lists -/

/-- The pointers `L` lay out the list `ls h` at every head `h` of `P`, and no node is in
two places. -/
structure ReprOn (P : H → Prop) (L : Links H N) (ls : H → List N) : Prop where
  chain : ∀ h, P h → L.Chain (.head h) (ls h)
  nodup : ∀ h, (ls h).Nodup
  disjoint : ∀ {h h' n}, n ∈ ls h → n ∈ ls h' → h = h'

/-- The pointers of `n` are null. -/
def Detached (L : Links H N) (n : N) : Prop :=
  L.next (.node n) = none ∧ L.prev n = none

section Repr

variable [DecidableEq H] [DecidableEq N] {P : H → Prop} {ls : H → List N}

theorem empty_reprOn : ReprOn P (empty : Links H N) fun _ => [] :=
  ⟨fun _ _ => rfl, fun _ => nodup_nil, fun h => by simp at h⟩

/-- Emptying the list of a head leaves the others laid out. -/
theorem ReprOn.update_nil (hL : ReprOn P L ls) (h : H) :
    ReprOn (fun h' => P h' ∧ h' ≠ h) L (update ls h []) := by
  have hsub : ∀ h' n, n ∈ update ls h [] h' → n ∈ ls h' := by
    intro h' n hn
    by_cases hh : h' = h
    · subst hh
      simp at hn
    · rwa [update_of_ne hh] at hn
  refine ⟨fun h' hh => ?_, fun h' => ?_, fun h1 h2 => hL.disjoint (hsub _ _ h1) (hsub _ _ h2)⟩
  · rw [update_of_ne hh.2]
    exact hL.chain h' hh.1
  · by_cases hh : h' = h
    · subst hh
      simp
    · rw [update_of_ne hh]
      exact hL.nodup h'

variable {h : H}

/-- A reset head lays out the empty list. -/
theorem ReprOn.clear (hL : ReprOn (fun h' => P h' ∧ h' ≠ h) L ls) (hnil : ls h = []) :
    ReprOn P (L.clear h) ls := by
  refine ⟨fun h' hh => ?_, hL.nodup, hL.disjoint⟩
  by_cases he : h' = h
  · subst he
    rw [hnil]
    simp [Chain, Links.clear, setNext]
  · refine (hL.chain h' ⟨hh, he⟩).congr ?_ fun n _ => ⟨?_, rfl⟩ <;>
      simp [Links.clear, setNext, he]

/-! ## Insertion -/

variable {n : N}

variable (hL : ReprOn P L ls) (hn : ∀ h, n ∉ ls h)

include hL hn

theorem pushFront_chain_ne {h' : H} (hP : P h) (hP' : P h') (hne : h' ≠ h) : (L.pushFront n h).Chain
    (.head h') (ls h') := by
  refine (hL.chain h' hP').congr ?_ fun m hm => ?_
  · simp [pushFront_next, hne]
  · have hmn : m ≠ n := fun e => hn h' (e ▸ hm)
    have hfirst : L.next (.head h) ≠ some m := by
      intro e
      rw [(hL.chain h hP).next_eq] at e
      exact hne (hL.disjoint hm (mem_of_mem_head? e))
    simp [pushFront_next, pushFront_prev, hmn, hfirst]

theorem pushFront_chain_self (hP : P h) : (L.pushFront n h).Chain (.head h) (n :: ls h) := by
  refine ⟨by simp [pushFront_next], by simp [pushFront_prev], ?_⟩
  have hch := hL.chain h hP
  have hnd := hL.nodup h
  have hnh := hn h
  cases hl : ls h with
  | nil =>
    rw [hl] at hch
    simpa [Chain, pushFront_next] using hch
  | cons m l =>
    rw [hl] at hch hnd hnh
    have hmn : m ≠ n := fun e => hnh (by simp [e])
    refine ⟨by simp [pushFront_next, hch.1], by simp [pushFront_prev, hmn, hch.1], ?_⟩
    refine hch.2.2.congr (by simp [pushFront_next, hmn]) fun k hk => ?_
    have hkn : k ≠ n := fun e => hnh (by simp [← e, hk])
    have hkm : m ≠ k := fun e => (nodup_cons.1 hnd).1 (e ▸ hk)
    simp [pushFront_next, pushFront_prev, hkn, hch.1, hkm]

omit hL hn in
theorem mem_update_cons {m : N} {h' : H} :
    m ∈ update ls h (n :: ls h) h' ↔ m ∈ ls h' ∨ (m = n ∧ h = h') := by
  rcases eq_or_ne h' h with rfl | hh
  · simp [or_comm]
  · simp [update_of_ne hh, Ne.symm hh]

/-- Insertion of a node that is in no list. -/
theorem ReprOn.pushFront (hP : P h) : ReprOn P (L.pushFront n h) (update ls h (n :: ls h)) := by
  refine ⟨fun h' hP' => ?_, fun h' => ?_, ?_⟩
  · by_cases hne : h' = h
    · subst hne
      rw [update_self]
      exact pushFront_chain_self hL hn hP
    · rw [update_of_ne hne]
      exact pushFront_chain_ne hL hn hP hP' hne
  · by_cases hne : h' = h
    · subst hne
      rw [update_self]
      exact nodup_cons.2 ⟨hn h', hL.nodup h'⟩
    · rw [update_of_ne hne]
      exact hL.nodup h'
  · intro h1 h2 m hm1 hm2
    rcases mem_update_cons.1 hm1 with h1' | ⟨rfl, rfl⟩ <;>
      rcases mem_update_cons.1 hm2 with h2' | ⟨e, rfl⟩
    · exact hL.disjoint h1' h2'
    · exact absurd (e ▸ h1') (hn _)
    · exact absurd h2' (hn _)
    · rfl

omit hL hn

/-! ## Removal -/

variable {l₁ l₂ l : List N}

/-- The `prev` of a node of a chain : the cell the chain starts from, or a node before it. -/
theorem Chain.prev_eq {c : Cell H N} (h : L.Chain c (l₁ ++ n :: l₂)) :
    (l₁ = [] ∧ L.prev n = some c) ∨ ∃ m ∈ l₁, L.prev n = some (.node m) := by
  cases l₁ with
  | nil => exact .inl ⟨rfl, h.2.1⟩
  | cons a l₁ => exact .inr h.prev_mem

theorem Chain.prev_ne_self {c : Cell H N} (h : L.Chain c (l₁ ++ n :: l₂))
    (hnd : (l₁ ++ n :: l₂).Nodup) (hc : c ≠ .node n) :
    L.prev n ≠ some (.node n) := by
  rcases h.prev_eq with ⟨-, hp⟩ | ⟨m, hm, hp⟩
  · simpa [hp] using hc
  · intro e
    rw [hp, Option.some.injEq, Cell.node.injEq] at e
    exact (nodup_append.1 hnd).2.2 m hm n (by simp) e

/-- Removal from a chain. -/
theorem Chain.unlink :
    ∀ {c : Cell H N} {l₁ l₂ : List N}, L.Chain c (l₁ ++ n :: l₂) → (l₁ ++ n :: l₂).Nodup →
      (∀ m ∈ l₁ ++ n :: l₂, c ≠ .node m) → (L.unlink n).Chain c (l₁ ++ l₂)
  | c, [], l₂, h, hnd, hc => by
    have hself := h.prev_ne_self hnd (hc n (by simp))
    obtain ⟨-, h2, h3⟩ := h
    cases l₂ with
    | nil => simpa [Chain, unlink_next hself, h2] using h3
    | cons m l =>
      have hml : m ∉ l := (nodup_cons.1 (nodup_cons.1 hnd).2).1
      refine ⟨by simp [unlink_next hself, h2, h3.1], by simp [unlink_prev hself, h3.1, h2], ?_⟩
      refine h3.2.2.congr ?_ fun k hk => ⟨?_, ?_⟩
      · simp [unlink_next hself, h2, hc m (by simp)]
      · simp [unlink_next hself, h2, hc k (by simp [hk])]
      · have hmk : m ≠ k := fun e => hml (e ▸ hk)
        simp [unlink_prev hself, h3.1, hmk]
  | c, a :: l₁, l₂, h, hnd, hc => by
    have hself := h.prev_ne_self hnd (hc n (by simp))
    obtain ⟨m, hm, hp⟩ := Chain.prev_mem (show L.Chain c (a :: l₁ ++ n :: l₂) from h)
    have hnext : L.next (.node n) ≠ some a := by
      rw [(Chain.tail_of_append (show L.Chain c ((a :: l₁) ++ n :: l₂) from h)).next_eq]
      intro e
      exact (nodup_cons.1 hnd).1 (by simp [mem_of_mem_head? e])
    have hcm : (.node m : Cell H N) ≠ c := fun e =>
      hc m (mem_append_left _ hm) e.symm
    refine ⟨by simp [unlink_next hself, hp, hcm, h.1],
      by simp [unlink_prev hself, hnext, h.2.1], ?_⟩
    refine Chain.unlink h.2.2 (nodup_cons.1 hnd).2 fun k hk e => ?_
    rw [Cell.node.injEq] at e
    exact (nodup_cons.1 hnd).1 (e ▸ hk)

/-- Removal of a node from its list. -/
theorem ReprOn.unlink (hL : ReprOn P L ls) (hP : P h) (hn : n ∈ ls h) :
    ReprOn P (L.unlink n) (update ls h ((ls h).erase n)) := by
  obtain ⟨l₁, l₂, hl⟩ := append_of_mem hn
  have hnd := hL.nodup h
  have hch := hL.chain h hP
  rw [hl] at hnd hch
  have hself := hch.prev_ne_self hnd (by simp)
  have herase : (ls h).erase n = l₁ ++ l₂ := by
    rw [hl, erase_append_right _ fun hm => (nodup_append.1 hnd).2.2 n hm n (by simp) rfl,
      erase_cons_head]
  have hsub : ∀ h' m, m ∈ update ls h ((ls h).erase n) h' → m ∈ ls h' := by
    intro h' m hm
    by_cases hne : h' = h
    · subst hne
      rw [update_self] at hm
      exact mem_of_mem_erase hm
    · rwa [update_of_ne hne] at hm
  refine ⟨fun h' hP' => ?_, fun h' => ?_, fun h1 h2 => hL.disjoint (hsub _ _ h1) (hsub _ _ h2)⟩
  · by_cases hne : h' = h
    · subst hne
      rw [update_self, herase]
      exact hch.unlink hnd (by simp)
    · rw [update_of_ne hne]
      -- the cells written are the head `h` and nodes of its list
      have hcell : ∀ c, L.prev n = some c → c ≠ .head h' ∧ ∀ m ∈ ls h', c ≠ .node m := by
        intro c hc
        rcases hch.prev_eq with ⟨-, hp⟩ | ⟨m, hm, hp⟩
        · rw [hp, Option.some.injEq] at hc
          subst hc
          exact ⟨by simpa using Ne.symm hne, by simp⟩
        · rw [hp, Option.some.injEq] at hc
          subst hc
          refine ⟨by simp, fun k hk e => hne (hL.disjoint hk ?_)⟩
          rw [Cell.node.injEq] at e
          rw [← e, hl]
          exact mem_append_left _ hm
      refine (hL.chain h' hP').congr ?_ fun m hm => ⟨?_, ?_⟩
      · rw [unlink_next hself, if_neg fun hc => (hcell _ hc).1 rfl]
      · rw [unlink_next hself, if_neg fun hc => (hcell _ hc).2 m hm rfl]
      · rw [unlink_prev hself, if_neg fun hc => hne (hL.disjoint hm ?_)]
        rw [hch.tail_of_append.next_eq] at hc
        rw [hl]
        simp [mem_of_mem_head? hc]
  · by_cases hne : h' = h
    · subst hne
      rw [update_self]
      exact (hL.nodup h').erase n
    · rw [update_of_ne hne]
      exact hL.nodup h'

/-- Removal of a node whose pointers are null changes nothing. -/
theorem Detached.unlink (hn : L.Detached n) : L.unlink n = L := by
  simp [Links.unlink, hn.1, hn.2]

/-! ## Walks -/

/-- From the pointer `t` on, the `next` pointers visit the nodes `l`. -/
def Path (L : Links H N) : Option N → List N → Prop
  | t, [] => t = none
  | t, n :: l => t = some n ∧ Path L (L.next (.node n)) l

theorem Chain.path : ∀ {c : Cell H N} {l : List N}, L.Chain c l → L.Path (L.next c) l
  | _, [], h => h
  | _, _ :: _, h => ⟨h.1, Chain.path h.2.2⟩

theorem Path.congr {L' : Links H N} :
    ∀ {t : Option N} {l : List N}, L.Path t l →
      (∀ n ∈ l, L'.next (.node n) = L.next (.node n)) → L'.Path t l
  | _, [], h, _ => h
  | _, n :: l, ⟨h1, h2⟩, hl => by
    refine ⟨h1, ?_⟩
    rw [hl n (by simp)]
    exact h2.congr fun m hm => hl m (by simp [hm])

/-- A walk whose body leaves the `next` of the other nodes alone is a fold over the list
it starts on. -/
theorem walk_eq_foldl {σ : Type*} {links : σ → Links H N} {body : N → σ → σ}
    (hbody : ∀ s n m, m ≠ n → (links (body n s)).next (.node m) = (links s).next (.node m)) :
    ∀ {k : ℕ} {t : Option N} {l : List N} {s : σ}, (links s).Path t l → l.Nodup → l.length ≤ k →
      walk links body k t s = l.foldl (fun s n => body n s) s
  | 0, t, l, s, h, _, hk => by
    obtain rfl : l = [] := length_eq_zero_iff.1 (by omega)
    rfl
  | k + 1, t, [], s, h, _, _ => by
    obtain rfl : t = none := h
    rfl
  | k + 1, t, n :: l, s, ⟨ht, hp⟩, hnd, hk => by
    subst ht
    obtain ⟨hnl, hnd⟩ := nodup_cons.1 hnd
    rw [walk, foldl_cons]
    refine walk_eq_foldl hbody (hp.congr fun m hm => ?_) hnd (by simpa using hk)
    exact hbody s n m fun e => hnl (e ▸ hm)

/-! ## Emptying a list -/

/-- Move the nodes `l` to the heads `g` gives. -/
def moveAll (g : N → H) (l : List N) (L : Links H N) : Links H N :=
  l.foldl (fun L n => L.pushFront n (g n)) L

/-- Insertion leaves the null pointers of a node that is in no list alone. -/
theorem Detached.pushFront (hL : ReprOn P L ls) {m : N} (hP : P h) (hm : ∀ h', m ∉ ls h')
    (hmn : m ≠ n) (hd : L.Detached m) : (L.pushFront n h).Detached m := by
  have hfirst : L.next (.head h) ≠ some m := by
    intro e
    rw [(hL.chain h hP).next_eq] at e
    exact hm h (mem_of_mem_head? e)
  refine ⟨?_, ?_⟩
  · simp [pushFront_next, hmn, hd.1]
  · simp [pushFront_prev, hmn, hfirst, hd.2]

/-- Nodes that are in no list are moved to the lists of their heads. -/
theorem ReprOn.moveAll {g : N → H} :
    ∀ {l : List N} {L : Links H N} {ls : H → List N}, ReprOn P L ls → l.Nodup →
      (∀ n ∈ l, P (g n) ∧ ∀ h, n ∉ ls h) →
      (∃ ls', ReprOn P (moveAll g l L) ls' ∧ ∀ h n, n ∈ ls' h ↔ n ∈ ls h ∨ (n ∈ l ∧ g n = h)) ∧
      ∀ m, m ∉ l → (∀ h, m ∉ ls h) → L.Detached m → (moveAll g l L).Detached m
  | [], _, ls, hL, _, _ => ⟨⟨ls, hL, by simp⟩, fun _ _ _ hd => hd⟩
  | n :: l, L, ls, hL, hnd, hl => by
    obtain ⟨hnl, hnd⟩ := nodup_cons.1 hnd
    obtain ⟨hPn, hn⟩ := hl n (by simp)
    have hfree : ∀ m, m ≠ n → (∀ h, m ∉ ls h) → ∀ h, m ∉ update ls (g n) (n :: ls (g n)) h := by
      intro m hmn hm h hmem
      rcases mem_update_cons.1 hmem with hmem | ⟨rfl, -⟩
      · exact hm h hmem
      · exact hmn rfl
    obtain ⟨⟨ls', hL', hls'⟩, hdet⟩ := (hL.pushFront hn hPn).moveAll (l := l) hnd fun m hm =>
      ⟨(hl m (by simp [hm])).1, hfree m (fun e => hnl (e ▸ hm)) (hl m (by simp [hm])).2⟩
    refine ⟨⟨ls', hL', fun h m => ?_⟩, fun m hm hmls hd => ?_⟩
    · rw [hls', mem_update_cons, mem_cons, or_assoc]
      refine or_congr_right ⟨?_, ?_⟩
      · rintro (⟨rfl, h⟩ | ⟨hm, h⟩)
        · exact ⟨.inl rfl, h⟩
        · exact ⟨.inr hm, h⟩
      · rintro ⟨rfl | hm, h⟩
        · exact .inl ⟨rfl, h⟩
        · exact .inr ⟨hm, h⟩
    · rw [mem_cons, not_or] at hm
      exact hdet m hm.2 (hfree m hm.1 hmls) (hd.pushFront hL hPn hmls hm.1)

/-- Take the nodes `l` out. -/
def detachAll (l : List N) (L : Links H N) : Links H N :=
  l.foldl (fun L n => L.detach n) L

theorem detachAll_next (c : Cell H N) :
    ∀ (l : List N) (L : Links H N),
      (detachAll l L).next c = if ∃ n ∈ l, c = .node n then none else L.next c
  | [], L => by simp [detachAll]
  | n :: l, L => by
    have ih := detachAll_next c l (L.detach n)
    rw [detachAll, foldl_cons, ← detachAll, ih]
    by_cases hc : c = .node n
    · simp [detach, setNext, setPrev, hc]
    · simp [detach, setNext, setPrev, hc]

theorem detachAll_prev (m : N) :
    ∀ (l : List N) (L : Links H N), (detachAll l L).prev m = if m ∈ l then none else L.prev m
  | [], L => by simp [detachAll]
  | n :: l, L => by
    have ih := detachAll_prev m l (L.detach n)
    rw [detachAll, foldl_cons, ← detachAll, ih]
    by_cases hm : m = n
    · simp [detach, setNext, setPrev, hm]
    · simp [detach, setNext, setPrev, hm]

/-- Nodes that are in no list are taken out. -/
theorem ReprOn.detachAll (hL : ReprOn P L ls) (hl : ∀ n ∈ l, ∀ h, n ∉ ls h) :
    ReprOn P (detachAll l L) ls := by
  refine ⟨fun h hP => ?_, hL.nodup, hL.disjoint⟩
  refine (hL.chain h hP).congr (by simp [detachAll_next]) fun m hm => ?_
  have hml : m ∉ l := fun hml => hl m hml h hm
  simp [detachAll_next, detachAll_prev, hml]

theorem detached_detachAll (h : n ∈ l ∨ L.Detached n) : (Links.detachAll l L).Detached n := by
  unfold Detached
  rw [detachAll_next, detachAll_prev]
  rcases h with h | h
  · simp [h]
  · simp [h.1, h.2]

end Repr

/-! ## Placement -/

/-- The nodes `P` are each in the list of its head `loc n`, and the pointers of the nodes `D` are
null. -/
structure Placed (L : Links H N) (P D : Set N) (loc : N → H) : Prop where
  lists : ∃ ls, ReprOn (fun _ => True) L ls ∧ ∀ h n, n ∈ ls h ↔ n ∈ P ∧ loc n = h
  detached : ∀ n ∈ D, n ∉ P ∧ L.Detached n

section Placed

variable [DecidableEq H] [DecidableEq N] {P D : Set N} {loc : N → H}

theorem placed_empty (loc : N → H) : Placed (empty : Links H N) ∅ ∅ loc :=
  ⟨⟨fun _ => [], empty_reprOn, by simp⟩, by simp⟩

variable (hL : Placed L P D loc)

include hL

theorem Placed.congr {loc' : N → H} (h : ∀ n ∈ P, loc' n = loc n) : Placed L P D loc' := by
  obtain ⟨ls, hls, hmem⟩ := hL.lists
  refine ⟨⟨ls, hls, fun h' n => ?_⟩, hL.detached⟩
  rw [hmem]
  exact and_congr_right fun hn => by rw [h n hn]

theorem Placed.mono {D' : Set N} (h : D' ⊆ D) : Placed L P D' loc :=
  ⟨hL.lists, fun n hn => hL.detached n (h hn)⟩

theorem Placed.pushFront {n : N} (hn : n ∉ P) (h : H) :
    Placed (L.pushFront n h) (insert n P) (D \ {n}) (update loc n h) := by
  obtain ⟨ls, hls, hmem⟩ := hL.lists
  have hfree : ∀ m, m ∉ P → ∀ h', m ∉ ls h' := fun m hm h' hmh => hm ((hmem h' m).1 hmh).1
  refine ⟨⟨_, hls.pushFront (hfree n hn) trivial, fun h' m => ?_⟩, fun m ⟨hmD, hmn⟩ => ?_⟩
  · rw [mem_update_cons, hmem, Set.mem_insert_iff]
    rcases eq_or_ne m n with rfl | hmn
    · simp [hn]
    · simp [hmn]
  · obtain ⟨hmP, hd⟩ := hL.detached m hmD
    refine ⟨?_, hd.pushFront hls trivial (hfree m hmP) hmn⟩
    rintro (rfl | hm)
    · exact hmn rfl
    · exact hmP hm

theorem Placed.unlink {n : N} (hn : n ∈ P) : Placed (L.unlink n) (P \ {n}) D loc := by
  obtain ⟨ls, hls, hmem⟩ := hL.lists
  have hnls : n ∈ ls (loc n) := (hmem _ n).2 ⟨hn, rfl⟩
  obtain ⟨l₁, l₂, hl⟩ := append_of_mem hnls
  have hch := hls.chain (loc n) trivial
  have hnd := hls.nodup (loc n)
  refine ⟨⟨_, hls.unlink trivial hnls, fun h m => ?_⟩, fun m hm => ?_⟩
  · rcases eq_or_ne h (loc n) with rfl | hh
    · rw [update_self, hnd.mem_erase_iff, hmem, Set.mem_sdiff, Set.mem_singleton_iff]
      tauto
    · rw [update_of_ne hh, hmem, Set.mem_sdiff, Set.mem_singleton_iff]
      refine ⟨fun ⟨h1, h2⟩ => ⟨⟨h1, ?_⟩, h2⟩, fun ⟨⟨h1, _⟩, h2⟩ => ⟨h1, h2⟩⟩
      rintro rfl
      exact hh h2.symm
  · obtain ⟨hmP, hd⟩ := hL.detached m hm
    have hfree : m ∉ ls (loc n) := fun hmh => hmP ((hmem _ m).1 hmh).1
    rw [hl] at hch hnd hfree
    have hself := hch.prev_ne_self hnd (by simp)
    refine ⟨fun h => hmP h.1, ?_, ?_⟩
    · rw [unlink_next hself, if_neg, hd.1]
      intro hp
      rcases hch.prev_eq with ⟨-, hp'⟩ | ⟨k, hk, hp'⟩
      · simp [hp'] at hp
      · rw [hp', Option.some.injEq, Cell.node.injEq] at hp
        exact hfree (by simp [← hp, hk])
    · rw [unlink_prev hself, if_neg, hd.2]
      rw [hch.tail_of_append.next_eq]
      exact fun hx => hfree (by simp [mem_of_mem_head? hx])

/-- The walk along the list of a head visits the nodes placed there. -/
theorem Placed.exists_path (h : H) :
    ∃ l : List N, l.Nodup ∧ (∀ n, n ∈ l ↔ n ∈ P ∧ loc n = h) ∧ L.Path (L.next (.head h)) l := by
  obtain ⟨ls, hls, hmem⟩ := hL.lists
  exact ⟨ls h, hls.nodup h, hmem h, (hls.chain h trivial).path⟩

/-- Moving the nodes of one list to other lists, and resetting its head. -/
theorem Placed.moveAll {g : N → H} {h : H} {l : List N} (hnd : l.Nodup)
    (hl : ∀ n, n ∈ l ↔ n ∈ P ∧ loc n = h) (hg : ∀ n ∈ l, g n ≠ h) :
    Placed ((Links.moveAll g l L).clear h) P D fun n => if loc n = h then g n else loc n := by
  obtain ⟨ls, hls, hmem⟩ := hL.lists
  have hout : ∀ n, n ∈ l → ∀ h', n ∉ update ls h [] h' := by
    intro n hn h' hn'
    rcases eq_or_ne h' h with rfl | hh
    · simp at hn'
    · rw [update_of_ne hh, hmem] at hn'
      exact hh (hn'.2.symm.trans ((hl n).1 hn).2)
  obtain ⟨⟨ls', hls', hmem'⟩, hdet⟩ := (hls.update_nil h).moveAll (g := g) hnd fun n hn =>
    ⟨⟨trivial, hg n hn⟩, hout n hn⟩
  have hnil : ls' h = [] := by
    refine eq_nil_iff_forall_not_mem.2 fun n hn => ?_
    rcases (hmem' h n).1 hn with hn | ⟨hn, he⟩
    · simp at hn
    · exact hg n hn he
  refine ⟨⟨ls', hls'.clear hnil, fun h' n => ?_⟩, fun m hm => ?_⟩
  · rw [hmem']
    rcases eq_or_ne (loc n) h with he | he
    · rw [if_pos he, hl]
      refine ⟨?_, fun ⟨h1, h2⟩ => .inr ⟨⟨h1, he⟩, h2⟩⟩
      rintro (h1 | ⟨⟨h1, -⟩, h2⟩)
      · rcases eq_or_ne h' h with rfl | hh
        · simp at h1
        · rw [update_of_ne hh, hmem, he] at h1
          exact absurd h1.2.symm hh
      · exact ⟨h1, h2⟩
    · rw [if_neg he, hl]
      rcases eq_or_ne h' h with rfl | hh
      · simp [he]
      · rw [update_of_ne hh, hmem]
        simp [he]
  · obtain ⟨hmP, hd⟩ := hL.detached m hm
    have hml : m ∉ l := fun h' => hmP ((hl m).1 h').1
    refine ⟨hmP, ?_⟩
    have := hdet m hml (fun h' hmh => ?_) hd
    · simpa [Detached, Links.clear, setNext] using this
    · rcases eq_or_ne h' h with rfl | hh
      · simp at hmh
      · rw [update_of_ne hh, hmem] at hmh
        exact hmP hmh.1

/-- Taking all nodes of one list out, and resetting its head. -/
theorem Placed.detachAll {h : H} {l : List N} (hl : ∀ n, n ∈ l ↔ n ∈ P ∧ loc n = h) :
    Placed ((Links.detachAll l L).clear h) {n | n ∈ P ∧ loc n ≠ h} (D ∪ {n | n ∈ l}) loc := by
  obtain ⟨ls, hls, hmem⟩ := hL.lists
  have hmem' : ∀ h' n, n ∈ update ls h [] h' ↔ (n ∈ P ∧ loc n ≠ h) ∧ loc n = h' := by
    intro h' n
    rcases eq_or_ne h' h with rfl | hh
    · simp
    · rw [update_of_ne hh, hmem]
      refine ⟨fun ⟨h1, h2⟩ => ⟨⟨h1, h2 ▸ hh⟩, h2⟩, fun ⟨⟨h1, _⟩, h2⟩ => ⟨h1, h2⟩⟩
  have hout : ∀ n ∈ l, ∀ h', n ∉ update ls h [] h' := fun n hn h' hn' =>
    ((hmem' h' n).1 hn').1.2 ((hl n).1 hn).2
  refine ⟨⟨_, ((hls.update_nil h).detachAll hout).clear (by simp), hmem'⟩, fun m hm => ?_⟩
  have hd : (Links.detachAll l L).Detached m :=
    detached_detachAll (hm.symm.imp id fun hmD => (hL.detached m hmD).2)
  refine ⟨fun ⟨hmP, hne⟩ => ?_, by simpa [Detached, Links.clear, setNext] using hd⟩
  rcases hm with hmD | hml
  · exact (hL.detached m hmD).1 hmP
  · exact hne ((hl m).1 hml).2

end Placed

end Links

end Sems
