import Mathlib

/-!
# The blacklist

A bucket of the blacklist is a `std::map` from addresses to timers whose comparison is
`bl_addr_less`. Among addresses of one family this returns `memcmp` as a truth value, so that of
two different ones each is less than the other : it is an order only on sets of addresses with no
more than one of each family (`bucketOk_iff`).
-/

namespace Sems

open List

/-! ## Ordered maps -/

section

variable {κ : Type*} [DecidableEq κ]

/-- A strict weak order whose incomparable keys are the same. -/
structure StrictOn (less : κ → κ → Bool) (A : Set κ) : Prop where
  irrefl : ∀ a ∈ A, less a a = false
  asymm : ∀ a ∈ A, ∀ b ∈ A, less a b = true → less b a = false
  trans : ∀ a ∈ A, ∀ b ∈ A, ∀ c ∈ A, less a b = true → less b c = true → less a c = true
  incomparable : ∀ a ∈ A, ∀ b ∈ A, less a b = false ∧ less b a = false ↔ a = b

/-- An insertion or a removal, without what the map holds for the key. -/
structure MapOp (κ : Type*) where
  key : κ
  inserts : Bool

/-- What `std::map` answers after some operations, the last one first. It is a set as long as the
comparison is a strict order on the keys it has met. -/
structure OrderedMap (less : κ → κ → Bool) where
  exist : List (MapOp κ) → κ → Bool
  exist_nil : ∀ k, exist [] k = false
  exist_cons : ∀ (A : Set κ) (op : MapOp κ) (ops : List (MapOp κ)), StrictOn less A →
    (∀ o ∈ op :: ops, o.key ∈ A) → ∀ k ∈ A,
      exist (op :: ops) k = if op.key = k then op.inserts else exist ops k

/-- The last operation with the key is its insertion. -/
def inserted (k : κ) : List (MapOp κ) → Bool
  | [] => false
  | op :: ops => if op.key = k then op.inserts else inserted k ops

/-- A map that keeps the last operation of every key. -/
instance (less : κ → κ → Bool) : Inhabited (OrderedMap less) where
  default := ⟨fun ops k => inserted k ops, fun _ => rfl, fun _ _ _ _ _ _ _ => rfl⟩

theorem OrderedMap.exist_eq {less : κ → κ → Bool} (m : OrderedMap less) {A : Set κ}
    (h : StrictOn less A) {k : κ} (hk : k ∈ A) :
    ∀ {ops : List (MapOp κ)}, (∀ op ∈ ops, op.key ∈ A) → m.exist ops k = inserted k ops
  | [], _ => m.exist_nil k
  | op :: ops, hops => by
    rw [m.exist_cons A op ops h hops k hk, inserted, m.exist_eq h hk (forall_mem_cons.1 hops).2]

end

/-! ## Addresses -/

def AF_INET : ℕ := 2

def SA_len (family : ℕ) : ℕ :=
  if family = AF_INET then 16 else 28

/-- The bytes of a `sockaddr_in` or `sockaddr_in6`. -/
structure BlAddr where
  family : ℕ
  bytes : List UInt8
  length_bytes : bytes.length = SA_len family
  deriving DecidableEq

def memcmp : List UInt8 → List UInt8 → ℤ
  | a :: as, b :: bs => if a = b then memcmp as bs else (a.toNat : ℤ) - b.toNat
  | _, _ => 0

/-- `bl_addr_less` : the result of `memcmp` is returned as a `bool`. -/
def blAddrLess (l r : BlAddr) : Bool :=
  if l.family ≠ r.family then l.family < r.family else memcmp l.bytes r.bytes != 0

theorem memcmp_eq_zero : ∀ {l r : List UInt8}, l.length = r.length → (memcmp l r = 0 ↔ l = r)
  | [], [], _ => by simp [memcmp]
  | a :: as, b :: bs, h => by
    rw [memcmp, cons.injEq]
    split_ifs with hab
    · simp [hab, memcmp_eq_zero (Nat.succ.inj h)]
    · have hne : a.toNat ≠ b.toNat := fun h => hab (UInt8.toNat_inj.1 h)
      simp only [hab, false_and, iff_false]
      omega

theorem blAddrLess_eq (l r : BlAddr) :
    blAddrLess l r = if l.family = r.family then decide (l ≠ r) else l.family < r.family := by
  unfold blAddrLess
  by_cases hf : l.family = r.family
  · have hlen : l.bytes.length = r.bytes.length := by rw [l.length_bytes, r.length_bytes, hf]
    have heq : l = r ↔ l.bytes = r.bytes := by
      cases l
      cases r
      simp_all
    simp only [hf, heq, ← memcmp_eq_zero hlen, ne_eq, not_true_eq_false, if_false, if_true,
      decide_not]
    rfl
  · simp [hf]

/-- The comparison is a strict order on the addresses `A`, and a bucket used with them holds an
address exactly if it was inserted and not removed since. -/
def BucketOk (A : Set BlAddr) : Prop :=
  StrictOn blAddrLess A ∧ ∀ (m : OrderedMap blAddrLess) (ops : List (MapOp BlAddr)),
    (∀ op ∈ ops, op.key ∈ A) → ∀ a ∈ A, m.exist ops a = inserted a ops

theorem bucketOk_iff (A : Set BlAddr) :
    BucketOk A ↔ ∀ a ∈ A, ∀ b ∈ A, a.family = b.family → a = b := by
  refine ⟨fun h a ha b hb hf => ?_, fun h => ?_⟩
  · by_contra hne
    have hab : blAddrLess a b = true := by simp [blAddrLess_eq, hf, hne]
    have hba : blAddrLess b a = true := by simp [blAddrLess_eq, hf, Ne.symm hne]
    exact absurd (h.1.asymm a ha b hb hab) (by simp [hba])
  · have hlt : ∀ a ∈ A, ∀ b ∈ A, blAddrLess a b = decide (a.family < b.family) := by
      intro a ha b hb
      rw [blAddrLess_eq]
      split_ifs with hf
      · simp [h a ha b hb hf]
      · rfl
    have hstrict : StrictOn blAddrLess A := by
      refine ⟨fun a ha => ?_, fun a ha b hb => ?_, fun a ha b hb c hc => ?_, fun a ha b hb => ?_⟩
      · simp [hlt a ha a ha]
      · simp only [hlt a ha b hb, hlt b hb a ha, decide_eq_true_eq, decide_eq_false_iff_not]
        omega
      · simp only [hlt a ha b hb, hlt b hb c hc, hlt a ha c hc, decide_eq_true_eq]
        omega
      · simp only [hlt a ha b hb, hlt b hb a ha, decide_eq_false_iff_not]
        exact ⟨fun hab => h a ha b hb (by omega), fun hab => by simp [hab]⟩
    exact ⟨hstrict, fun m ops hops a ha => m.exist_eq hstrict ha hops⟩

/-- The host 10.0.0.`n`. -/
def hostAddr (n : UInt8) : BlAddr :=
  ⟨AF_INET, [2, 0, 19, 196, 10, 0, 0, n] ++ replicate 8 0, rfl⟩

/-- Two hosts with IPv4 addresses, each less than the other. -/
theorem not_bucketOk_hosts :
    blAddrLess (hostAddr 1) (hostAddr 2) = true ∧ blAddrLess (hostAddr 2) (hostAddr 1) = true ∧
      ¬ BucketOk {hostAddr 1, hostAddr 2} := by
  refine ⟨by decide, by decide, fun h => ?_⟩
  have hasymm := h.1.asymm (hostAddr 1) (.inl rfl) (hostAddr 2) (.inr rfl) (by decide)
  exact absurd hasymm (by decide)

end Sems
