import Sems.WheelTimer

/-!
# Rows of the timer wheel

Where the wheel keeps a timer depends on the bytes of its `expires` and of the clock.
`placeHead e c k` is the list that a search from row `k` down ends at, `fall e c h k` the
list in which a timer of list `h` is after the rows `k` to 1 were cascaded at the clock `c`.

A timer that is not due lies in a row at or above the highest row the next tick cascades
(`le_placeLevel`), and after the cascade where a fresh placement would put it
(`fall_placeHead_succ`). The current list of row 0 then holds the timers whose `expires` is the
clock (`placeHead_eq_current`). The clock may wrap.
-/

namespace Sems

open BitVec Wheeltimer

/-! ## Bytes -/

theorem wheelPos_eq (x : BitVec 32) (k : ℕ) : wheelPos x k = x.toNat / 256 ^ k % 256 := by
  unfold wheelPos BITS_PER_WHEEL
  rw [toNat_and, toNat_ushiftRight, Nat.shiftRight_eq_div_pow, Nat.mul_comm k 8, pow_mul]
  exact Nat.and_two_pow_sub_one_eq_mod _ 8

theorem wheelPos_xor_ne_zero (x y : BitVec 32) (k : ℕ) :
    wheelPos (x ^^^ y) k ≠ 0 ↔ wheelPos x k ≠ wheelPos y k := by
  have hzero : ∀ v : BitVec 32, v.toNat = 0 ↔ v = 0#32 := fun v => by
    rw [← toNat_inj, toNat_zero]
  have hdist : ∀ v w m : BitVec 32, (v ^^^ w) &&& m = (v &&& m) ^^^ (w &&& m) := fun v w m => by
    ext i
    simp [Bool.and_xor_distrib_right]
  unfold wheelPos
  rw [ushiftRight_xor_distrib, hdist, ne_eq, hzero, xor_eq_zero_iff, ← toNat_inj]

/-- A number of 32 bits is given by its four bytes. -/
theorem eq_of_wheelPos_eq {x y : BitVec 32} (h : ∀ k ≤ 3, wheelPos x k = wheelPos y k) : x = y := by
  have h0 := h 0 (by omega)
  have h1 := h 1 (by omega)
  have h2 := h 2 (by omega)
  have h3 := h 3 (by omega)
  simp only [wheelPos_eq] at h0 h1 h2 h3
  exact eq_of_toNat_eq (by omega)

/-! ## The rows a tick cascades -/

theorem and_shiftLeft_255 (c k : ℕ) :
    c &&& (255 <<< (8 * k)) = ((c >>> (8 * k)) &&& 255) <<< (8 * k) := by
  refine Nat.eq_of_testBit_eq fun j => ?_
  simp only [Nat.testBit_and, Nat.testBit_shiftLeft, Nat.testBit_shiftRight]
  rcases Nat.lt_or_ge j (8 * k) with h | h
  · simp [show ¬ 8 * k ≤ j by omega]
  · simp [h]

variable (c : BitVec 32)

theorem and_mask_xor_ne_zero {k : ℕ} (hk : k < 4) :
    (c &&& (255#32 <<< (8 * k))) ^^^ (255#32 <<< (8 * k)) ≠ 0 ↔ wheelPos c k ≠ 255 := by
  have hm : (255#32 <<< (8 * k)).toNat = 255 <<< (8 * k) := by
    interval_cases k <;> rfl
  have hinj : ∀ a, a <<< (8 * k) = 255 <<< (8 * k) ↔ a = 255 := by
    intro a
    rw [Nat.shiftLeft_eq, Nat.shiftLeft_eq, Nat.mul_left_inj (by positivity)]
  rw [show (0 : BitVec 32) = 0#32 from rfl, ne_eq, xor_eq_zero_iff, ← toNat_inj,
    toNat_and, hm, and_shiftLeft_255, hinj, wheelPos, toNat_and,
    toNat_ushiftRight, BITS_PER_WHEEL, Nat.mul_comm k 8]
  rfl

/-- The rows to cascade are as many as the clock has low bytes 255. -/
theorem wheelToUpdate_eq :
    wheelToUpdate c WHEELS 255#32 =
      if wheelPos c 0 ≠ 255 then 0 else if wheelPos c 1 ≠ 255 then 1
      else if wheelPos c 2 ≠ 255 then 2 else if wheelPos c 3 ≠ 255 then 3 else 4 := by
  have h0 := and_mask_xor_ne_zero c (k := 0) (by omega)
  have h1 := and_mask_xor_ne_zero c (k := 1) (by omega)
  have h2 := and_mask_xor_ne_zero c (k := 2) (by omega)
  have h3 := and_mask_xor_ne_zero c (k := 3) (by omega)
  simp only [Nat.mul_zero, Nat.mul_one, shiftLeft_zero, show 8 * 2 = 8 + 8 from rfl,
    show 8 * 3 = 8 + 8 + 8 from rfl, shiftLeft_add] at h0 h1 h2 h3
  simp only [WHEELS, wheelToUpdate, BITS_PER_WHEEL, h0, h1, h2, h3]
  split_ifs <;> rfl

/-- The bytes above the cascaded rows stay, those below the highest one wrap to 0. -/
theorem wheelPos_succ {k : ℕ} (hk : k ≤ 3) :
    (wheelToUpdate c WHEELS 255#32 < k → wheelPos (c + 1) k = wheelPos c k) ∧
      (k < wheelToUpdate c WHEELS 255#32 → wheelPos c k = 255 ∧ wheelPos (c + 1) k = 0) := by
  have hc' : (c + 1).toNat = (c.toNat + 1) % 2 ^ 32 := by simp [toNat_add]
  rw [wheelToUpdate_eq]
  simp only [wheelPos_eq, hc']
  interval_cases k <;> split_ifs <;>
    simp only [Nat.reducePow, Nat.div_one, pow_zero, pow_one] at * <;> omega

/-! ## The list a search ends at -/

/-- The row the search from row `k` down ends in : the highest one whose byte of `e` differs from
the clock's. -/
def placeLevel (e c : BitVec 32) : ℕ → ℕ
  | 0 => 0
  | k + 1 => if wheelPos e (k + 1) ≠ wheelPos c (k + 1) then k + 1 else placeLevel e c k

/-- The list the search from row `k` down ends at. -/
def placeHead (e c : BitVec 32) (k : ℕ) : ℕ × ℕ :=
  (placeLevel e c k, wheelPos e (placeLevel e c k))

theorem placeLevel_le (e c : BitVec 32) : ∀ k, placeLevel e c k ≤ k
  | 0 => le_rfl
  | k + 1 => by
    unfold placeLevel
    split_ifs
    · exact le_rfl
    · exact (placeLevel_le e c k).trans (Nat.le_succ k)

theorem wheelPos_placeLevel_ne (e c : BitVec 32) :
    ∀ k, 0 < placeLevel e c k → wheelPos e (placeLevel e c k) ≠ wheelPos c (placeLevel e c k)
  | 0, h => by simp [placeLevel] at h
  | k + 1, h => by
    unfold placeLevel at h ⊢
    split_ifs at h ⊢ with hk
    · exact hk
    · exact wheelPos_placeLevel_ne e c k h

theorem wheelPos_eq_of_placeLevel_lt (e c : BitVec 32) :
    ∀ k j, placeLevel e c k < j → j ≤ k → wheelPos e j = wheelPos c j
  | 0, j, h, hj => by omega
  | k + 1, j, h, hj => by
    unfold placeLevel at h
    split_ifs at h with hk
    · omega
    · rcases Nat.lt_or_ge k j with hkj | hkj
      · obtain rfl : j = k + 1 := by omega
        exact not_not.1 hk
      · exact wheelPos_eq_of_placeLevel_lt e c k j h hkj

variable {e c : BitVec 32}

/-- The row is the only one with its byte different and the bytes above it equal. -/
theorem placeLevel_eq {w : ℕ} (hw : 0 < w → wheelPos e w ≠ wheelPos c w) :
    ∀ {k}, w ≤ k → (∀ j, w < j → j ≤ k → wheelPos e j = wheelPos c j) → placeLevel e c k = w
  | 0, hk, _ => by
    obtain rfl : w = 0 := by omega
    rfl
  | k + 1, hk, hj => by
    unfold placeLevel
    rcases Nat.lt_or_ge k w with h | h
    · obtain rfl : w = k + 1 := by omega
      rw [if_pos (hw (by omega))]
    · rw [if_neg (not_not.2 (hj (k + 1) (by omega) le_rfl))]
      exact placeLevel_eq hw h fun j h1 h2 => hj j h1 (by omega)

/-- The current list of row 0 is the place of the timers that expire now. -/
theorem placeHead_eq_current (e c : BitVec 32) : placeHead e c 3 = (0, wheelPos c 0) ↔ e = c := by
  constructor
  · intro h
    obtain ⟨h1, h2⟩ := Prod.mk.inj h
    rw [h1] at h2
    refine eq_of_wheelPos_eq fun k hk => ?_
    rcases Nat.eq_zero_or_pos k with rfl | hpos
    · exact h2
    · exact wheelPos_eq_of_placeLevel_lt e c 3 k (by omega) hk
  · rintro rfl
    have hlevel : placeLevel e e 3 = 0 := placeLevel_eq (by simp) (by omega) fun _ _ _ => rfl
    rw [placeHead, hlevel]

/-! ## The cascade -/

/-- The list of a timer of list `h` after the rows `k` to 1 were cascaded at the clock `c`. -/
def fall (e c : BitVec 32) (h : ℕ × ℕ) : ℕ → ℕ × ℕ
  | 0 => h
  | k + 1 => fall e c (if h = (k + 1, wheelPos c (k + 1)) then placeHead e c k else h) k

theorem fall_eq_self {h : ℕ × ℕ} :
    ∀ {k}, (∀ j, 0 < j → j ≤ k → h ≠ (j, wheelPos c j)) → fall e c h k = h
  | 0, _ => rfl
  | k + 1, hk => by
    rw [fall, if_neg (hk (k + 1) (by omega) le_rfl)]
    exact fall_eq_self fun j h1 h2 => hk j h1 (by omega)

theorem fall_placeHead (e c : BitVec 32) (k k' : ℕ) :
    fall e c (placeHead e c k) k' = placeHead e c k := by
  refine fall_eq_self fun j hj _ heq => ?_
  obtain ⟨h1, h2⟩ := Prod.mk.inj heq
  rw [h1] at h2
  exact wheelPos_placeLevel_ne e c k (h1 ▸ hj) (h1 ▸ h2)

/-- A timer that is not late is at most half the circle ahead of the clock. -/
theorem lessTs_eq_false_iff (e c : BitVec 32) :
    lessTs e c = false ↔ (e.toNat + 2 ^ 32 - c.toNat) % 2 ^ 32 ≤ 2 ^ 31 := by
  have hsub : 2 ^ 32 - c.toNat + e.toNat = e.toNat + 2 ^ 32 - c.toNat := by omega
  simp only [lessTs, BitVec.ult, toNat_sub, decide_eq_false_iff_not, not_lt, hsub]
  simp

/-- A timer that is not due is not late in the next tick. -/
theorem lessTs_succ (hne : e ≠ c) (hfut : lessTs e c = false) : lessTs e (c + 1) = false := by
  have hne' : e.toNat ≠ c.toNat := fun h => hne (eq_of_toNat_eq h)
  have hc' : (c + 1).toNat = (c.toNat + 1) % 2 ^ 32 := by simp [toNat_add]
  rw [lessTs_eq_false_iff] at hfut ⊢
  omega

/-- Numbers whose bytes from row `w` up are the same. -/
theorem div_pow_eq_of_wheelPos_eq :
    ∀ {k w : ℕ}, w + k = 4 → (∀ j, w ≤ j → j ≤ 3 → wheelPos e j = wheelPos c j) →
      e.toNat / 256 ^ w = c.toNat / 256 ^ w
  | 0, w, hw, _ => by
    obtain rfl : w = 4 := hw
    have hzero : ∀ x : BitVec 32, x.toNat / 256 ^ 4 = 0 := fun x => Nat.div_eq_of_lt x.isLt
    rw [hzero, hzero]
  | k + 1, w, hw, h => by
    have hrest : e.toNat / 256 ^ (w + 1) = c.toNat / 256 ^ (w + 1) :=
      div_pow_eq_of_wheelPos_eq (k := k) (by omega) fun j hj => h j (by omega)
    have hbyte := h w le_rfl (by omega)
    rw [wheelPos_eq, wheelPos_eq] at hbyte
    rw [pow_succ, ← Nat.div_div_eq_div_mul, ← Nat.div_div_eq_div_mul] at hrest
    rw [← Nat.div_add_mod (e.toNat / 256 ^ w) 256, hrest, hbyte, Nat.div_add_mod]

/-- A number whose bytes below row `w` are 255. -/
theorem mod_pow_of_wheelPos_full :
    ∀ {w : ℕ}, (∀ j < w, wheelPos c j = 255) → c.toNat % 256 ^ w + 1 = 256 ^ w
  | 0, _ => by simp [Nat.mod_one]
  | w + 1, h => by
    have hrest : c.toNat % 256 ^ w + 1 = 256 ^ w :=
      mod_pow_of_wheelPos_full fun j hj => h j (by omega)
    have hbyte := h w (by omega)
    rw [wheelPos_eq] at hbyte
    rw [Nat.mod_pow_succ, hbyte, pow_succ]
    omega

/-- No timer that is not due lies below the highest cascaded row. -/
theorem le_placeLevel (hne : e ≠ c) (hfut : lessTs e c = false) :
    min 3 (wheelToUpdate c WHEELS 255#32) ≤ placeLevel e c 3 := by
  rw [lessTs_eq_false_iff] at hfut
  have hne' : e.toNat ≠ c.toNat := fun h => hne (eq_of_toNat_eq h)
  have hagree := wheelPos_eq_of_placeLevel_lt e c 3
  by_contra hlt
  generalize placeLevel e c 3 = w at hagree hlt
  -- below that row the clock's bytes are 255, so agreement above puts `e` behind the clock
  have hfull : ∀ j < w + 1, wheelPos c j = 255 := fun j hj =>
    ((wheelPos_succ c (k := j) (by omega)).2 (by omega)).1
  have hdiv : e.toNat / 256 ^ (w + 1) = c.toNat / 256 ^ (w + 1) :=
    div_pow_eq_of_wheelPos_eq (k := 3 - w) (by omega) fun j hj => hagree j (by omega)
  have hmod := mod_pow_of_wheelPos_full hfull
  have hle : 256 ^ (w + 1) ≤ 256 ^ 3 := Nat.pow_le_pow_right (by decide) (by omega)
  have hsplit := Nat.div_add_mod e.toNat (256 ^ (w + 1))
  have hsplit' := Nat.div_add_mod c.toNat (256 ^ (w + 1))
  have hsmall : e.toNat % 256 ^ (w + 1) < 256 ^ (w + 1) := Nat.mod_lt _ (by positivity)
  rw [hdiv] at hsplit
  generalize 256 ^ (w + 1) * (c.toNat / 256 ^ (w + 1)) = q at hsplit hsplit'
  generalize e.toNat % 256 ^ (w + 1) = r at hsplit hsmall
  generalize c.toNat % 256 ^ (w + 1) = m at hsplit' hmod
  generalize 256 ^ (w + 1) = n at hmod hle hsmall
  omega

/-- The cascade of a tick moves a timer that is not due to its place at the new clock. -/
theorem fall_placeHead_succ (hne : e ≠ c) (hfut : lessTs e c = false) :
    fall e (c + 1) (placeHead e c 3) (min 3 (wheelToUpdate c WHEELS 255#32)) =
      placeHead e (c + 1) 3 := by
  have hle := le_placeLevel hne hfut
  have hw3 := placeLevel_le e c 3
  have hdiff := wheelPos_placeLevel_ne e c 3
  have hsucc := fun j (hj : j ≤ 3) => (wheelPos_succ c hj).1
  have hagree := wheelPos_eq_of_placeLevel_lt e c 3
  rw [show placeHead e c 3 = (placeLevel e c 3, wheelPos e (placeLevel e c 3)) from rfl]
  generalize placeLevel e c 3 = w at *
  generalize wheelToUpdate c WHEELS 255#32 = i at *
  have habove : ∀ j, w < j → j ≤ 3 → wheelPos e j = wheelPos (c + 1) j := fun j h1 h2 =>
    (hagree j h1 h2).trans (hsucc j h2 (by omega)).symm
  by_cases hfall : 0 < w ∧ w = min 3 i ∧ wheelPos e w = wheelPos (c + 1) w
  · obtain ⟨hpos, hmin, heq⟩ := hfall
    obtain ⟨k, rfl⟩ : ∃ k, w = k + 1 := ⟨w - 1, by omega⟩
    rw [← hmin, fall, if_pos (by rw [heq]), fall_placeHead]
    have hlevel : placeLevel e (c + 1) 3 = placeLevel e (c + 1) k := by
      refine placeLevel_eq (wheelPos_placeLevel_ne e (c + 1) k)
        ((placeLevel_le e (c + 1) k).trans (by omega)) fun j h1 h2 => ?_
      rcases Nat.lt_trichotomy j (k + 1) with hj | rfl | hj
      · exact wheelPos_eq_of_placeLevel_lt e (c + 1) k j h1 (by omega)
      · exact heq
      · exact habove j hj h2
    rw [placeHead, placeHead, hlevel]
  · have hstay : 0 < w → wheelPos e w ≠ wheelPos (c + 1) w := by
      intro hpos heq
      rcases Nat.lt_or_ge (min 3 i) w with hlt | hge
      · exact hdiff hpos (heq.trans (hsucc w hw3 (by omega)))
      · exact hfall ⟨hpos, by omega, heq⟩
    rw [fall_eq_self, placeHead, placeLevel_eq hstay hw3 habove]
    intro j hj hji heq
    obtain ⟨rfl, h2⟩ := Prod.mk.inj heq
    exact hstay hj h2

end Sems
