import Sems.WheelRows

/-!
# What a tick of the wheel accesses

The lists of the wheel that `turn_wheel` and `update_wheel` (`core/sip/wheeltimer.cpp`) go to, and
the shifts whose width is not a constant. All of it is inside the wheel but for one value of the
clock (`turnWheel_inside_iff`) : before it wraps, the search for the highest row to update ends at
`WHEELS`.
-/

namespace Sems

def ELMTS_PER_WHEEL : ℕ := 1 <<< BITS_PER_WHEEL

inductive WheelAccess where
  | slot (wheel pos : ℕ)
  | shift (bits : ℕ)

/-- The list exists, and the shift is one of a 32 bit number. -/
def WheelAccess.Inside : WheelAccess → Prop
  | slot wheel pos => wheel < WHEELS ∧ pos < ELMTS_PER_WHEEL
  | shift bits => bits < 32

namespace Wheeltimer

open List WheelAccess

/-- `place_timer(t, wheel)`, for `expires` and the clock. -/
def placeFromAccesses (e c : BitVec 32) : ℕ → List WheelAccess
  | 0 => [shift 0, slot 0 (wheelPos e 0)]
  | wheel + 1 =>
    shift ((wheel + 1) * BITS_PER_WHEEL) ::
      if wheelPos (e ^^^ c) (wheel + 1) ≠ 0 then
        [shift ((wheel + 1) * BITS_PER_WHEEL), slot (wheel + 1) (wheelPos e (wheel + 1))]
      else placeFromAccesses e c wheel

/-- `place_timer(t)`. -/
def placeAccesses (e c : BitVec 32) : List WheelAccess :=
  if lessTs e c then [slot 0 (wheelPos c 0)] else placeFromAccesses e c (WHEELS - 1)

variable {T : Type*} [DecidableEq T] (expires : T → BitVec 32) (w : Wheeltimer T)

/-- A turn of the loop in `update_wheel`, with the timers of the list. -/
def rowAccesses (wheel : ℕ) : List WheelAccess :=
  let head := (wheel, wheelPos w.wallClock wheel)
  let timers := Links.walk (fun r => r.1.wheels) (fun t r =>
    (placeTimerFrom expires r.1 t (wheel - 1),
      r.2 ++ placeFromAccesses (expires t) w.wallClock (wheel - 1)))
    w.placed (w.wheels.next (.head head)) (w, [])
  shift (wheel * BITS_PER_WHEEL) :: slot head.1 head.2 :: timers.2

def updateWheelAccesses (w : Wheeltimer T) : ℕ → List WheelAccess
  | 0 => []
  | wheel + 1 => rowAccesses expires w (wheel + 1) ++
      updateWheelAccesses (updateRow expires w (wheel + 1)) wheel

def turnWheelAccesses : List WheelAccess :=
  let i := wheelToUpdate w.wallClock WHEELS 255#32
  let w := { w with wallClock := w.wallClock + 1 }
  updateWheelAccesses expires w i ++
    (w.reqsBacklog.filter TimerReq.insert).flatMap
      (fun rq => placeAccesses (expires rq.t) w.wallClock) ++
    [slot 0 (wheelPos w.wallClock 0)]

theorem wheelPos_lt (x : BitVec 32) (k : ℕ) : wheelPos x k < ELMTS_PER_WHEEL := by
  rw [wheelPos_eq]
  exact Nat.mod_lt _ (by decide)

theorem shift_lt {k : ℕ} (hk : k < WHEELS) : k * BITS_PER_WHEEL < 32 :=
  Nat.mul_lt_mul_of_pos_right hk (by decide)

theorem placeFromAccesses_inside {e c : BitVec 32} :
    ∀ {k}, k < WHEELS → ∀ a ∈ placeFromAccesses e c k, a.Inside
  | 0, hk => by
    simp [placeFromAccesses, Inside, hk, wheelPos_lt]
  | k + 1, hk => by
    have ih := placeFromAccesses_inside (e := e) (c := c) (Nat.lt_of_succ_lt hk)
    rw [placeFromAccesses]
    split_ifs
    · simp [Inside, hk, shift_lt hk, wheelPos_lt]
    · exact forall_mem_cons.2 ⟨shift_lt hk, ih⟩

theorem placeAccesses_inside (e c : BitVec 32) : ∀ a ∈ placeAccesses e c, a.Inside := by
  unfold placeAccesses
  split_ifs
  · simp [Inside, WHEELS, wheelPos_lt]
  · exact placeFromAccesses_inside (by decide)

variable {w}

theorem rowAccesses_inside {k : ℕ} (hk : k + 1 < WHEELS) :
    ∀ a ∈ rowAccesses expires w (k + 1), a.Inside := by
  refine forall_mem_cons.2 ⟨shift_lt hk, forall_mem_cons.2 ⟨⟨hk, wheelPos_lt _ _⟩, ?_⟩⟩
  refine Links.walk_inv (P := fun r : Wheeltimer T × List WheelAccess => ∀ a ∈ r.2, a.Inside)
    (fun t r hr => ?_) (forall_mem_nil _)
  exact forall_mem_append.2 ⟨hr, placeFromAccesses_inside (Nat.lt_of_succ_lt hk)⟩

theorem updateWheelAccesses_inside : ∀ {k : ℕ} {w : Wheeltimer T}, k < WHEELS →
    ∀ a ∈ updateWheelAccesses expires w k, a.Inside
  | 0, _, _ => nofun
  | _ + 1, _, hk => forall_mem_append.2
      ⟨rowAccesses_inside expires hk, updateWheelAccesses_inside (Nat.lt_of_succ_lt hk)⟩

/-- Only the last value of the clock has no byte that stops the search. -/
theorem wheelToUpdate_lt {c : BitVec 32} (hc : c ≠ BitVec.allOnes 32) :
    wheelToUpdate c WHEELS 255#32 < WHEELS := by
  rw [wheelToUpdate_eq]
  split_ifs with h0 h1 h2 h3
  any_goals decide
  refine absurd (eq_of_wheelPos_eq fun k hk => ?_) hc
  have hones : wheelPos (BitVec.allOnes 32) k = 255 := by
    interval_cases k <;> rfl
  rw [hones]
  interval_cases k <;> simp_all

/-- A tick stays inside the wheel unless the clock is about to wrap. -/
theorem turnWheel_inside_iff (w : Wheeltimer T) :
    (∀ a ∈ turnWheelAccesses expires w, a.Inside) ↔ w.wallClock ≠ BitVec.allOnes 32 := by
  constructor
  · intro h hc
    have hrow : wheelToUpdate w.wallClock WHEELS 255#32 = 3 + 1 := by
      rw [hc]
      rfl
    have hmem : shift 32 ∈ turnWheelAccesses expires w := by
      simp [turnWheelAccesses, hrow, updateWheelAccesses, rowAccesses, BITS_PER_WHEEL]
    exact absurd (h _ hmem) (by simp [Inside])
  · intro hc
    refine forall_mem_append.2 ⟨forall_mem_append.2 ⟨?_, fun a ha => ?_⟩, ?_⟩
    · exact updateWheelAccesses_inside expires (wheelToUpdate_lt hc)
    · obtain ⟨rq, -, ha⟩ := mem_flatMap.1 ha
      exact placeAccesses_inside _ _ a ha
    · exact forall_mem_singleton.2 ⟨by decide, wheelPos_lt _ _⟩

/-- The last tick before the clock wraps. -/
theorem turnWheel_outside :
    ¬ ∀ a ∈ turnWheelAccesses (fun _ => 0)
      { (init : Wheeltimer Unit) with wallClock := BitVec.allOnes 32 }, a.Inside := by
  intro h
  exact absurd (h (shift 32) List.mem_cons_self) (by simp [Inside])

end Wheeltimer

end Sems
