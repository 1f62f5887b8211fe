import Mathlib

/-!
# Timed arrays of samples

`SampleArray` (`core/SampleArray.cc`) keeps the last samples of a stream in a ring, by their
timestamp. The timestamps have 32 bits, wrap around, and are compared by their distance (`ts_less`).

`Holds` says what an array keeps of a signal, a function on timestamps that do not wrap. A frame
that is put where the signal ends, or over its last frame, changes the signal there (`Carries.put`),
and what is read is the signal (`Carries.get`).
-/

namespace Sems

open List BitVec
open BitVec (ofNat)

def SIZE_MIX_BUFFER : ℕ := 2 ^ 14

/-- A timed array. The samples are not set before the first `put`. -/
structure SampleArray (T : Type*) where
  samples : ℕ → T
  lastTs : BitVec 32
  init : Bool

namespace SampleArray

/-- The comparison of user timestamps. -/
def tsLess (l r : BitVec 32) : Bool :=
  2 ^ 31 < (l - r).toNat

variable {T : Type*} [Zero T]

/-- `memcpy` of a buffer to a place. -/
def copy (samples : ℕ → T) (pos : ℕ) (buffer : List T) : ℕ → T :=
  fun i => if pos ≤ i then (buffer[i - pos]?).getD (samples i) else samples i

/-- `memset` of `n` samples to 0. -/
def zero (samples : ℕ → T) (pos n : ℕ) : ℕ → T :=
  fun i => if pos ≤ i ∧ i < pos + n then 0 else samples i

/-- The `n` samples at a place. -/
def segment (samples : ℕ → T) (pos n : ℕ) : List T :=
  (List.range n).map fun i => samples (pos + i)

/-- The place of a timestamp. -/
def offset (ts : BitVec 32) : ℕ :=
  ts.toNat &&& (SIZE_MIX_BUFFER - 1)

variable (a : SampleArray T)

def clearAll : SampleArray T :=
  { a with samples := fun _ => 0 }

def clear (startTs endTs : BitVec 32) : SampleArray T :=
  if SIZE_MIX_BUFFER ≤ (endTs - startTs).toNat then a.clearAll
  else
    let startOff := offset startTs
    let endOff := offset endTs
    if startOff < endOff then { a with samples := zero a.samples startOff (endOff - startOff) }
    else
      { a with
        samples := zero (zero a.samples startOff (SIZE_MIX_BUFFER - startOff)) 0 endOff }

def write (ts : BitVec 32) (buffer : List T) : SampleArray T :=
  let off := offset ts
  if off + buffer.length ≤ SIZE_MIX_BUFFER then { a with samples := copy a.samples off buffer }
  else
    let s := SIZE_MIX_BUFFER - off
    { a with samples := copy (copy a.samples off (buffer.take s)) 0 (buffer.drop s) }

def read (ts : BitVec 32) (size : ℕ) : List T :=
  let off := offset ts
  if off + size ≤ SIZE_MIX_BUFFER then segment a.samples off size
  else
    let s := SIZE_MIX_BUFFER - off
    segment a.samples off s ++ segment a.samples 0 (size - s)

/-- The first lines of `put`. -/
def start (ts : BitVec 32) : SampleArray T :=
  if a.init then a else { a.clearAll with lastTs := ts, init := true }

/-- The end of `put`. -/
def advance (endTs : BitVec 32) : SampleArray T :=
  if tsLess a.lastTs endTs then { a with lastTs := endTs } else a

def put (ts : BitVec 32) (buffer : List T) : SampleArray T :=
  let a := a.start ts
  if tsLess ts (a.lastTs - ofNat 32 SIZE_MIX_BUFFER) then a
  else
    let a := if tsLess a.lastTs ts then a.clear a.lastTs ts else a
    (a.write ts buffer).advance (ts + ofNat 32 buffer.length)

def get (ts : BitVec 32) (size : ℕ) : List T :=
  let first := a.lastTs - ofNat 32 SIZE_MIX_BUFFER
  let endTs := ts + ofNat 32 size
  if a.init = false ∨ tsLess ts a.lastTs = false ∨ tsLess first endTs = false then
    List.replicate size 0
  else if tsLess ts first then
    let s := (first - ts).toNat
    List.replicate s 0 ++ a.read (ts + ofNat 32 s) (size - s)
  else if tsLess a.lastTs endTs then
    let s := (a.lastTs - ts).toNat
    a.read ts s ++ List.replicate (size - s) 0
  else a.read ts size

/-! ## Timestamps -/

theorem ofNat_sub_toNat (a b : ℕ) :
    (ofNat 32 a - ofNat 32 b).toNat = (a + (2 ^ 32 - b % 2 ^ 32)) % 2 ^ 32 := by
  rw [toNat_sub, toNat_ofNat, toNat_ofNat]
  omega

variable {a b n size j u : ℕ}

/-- Timestamps that are not far apart are compared as they are. -/
theorem tsLess_ofNat (hab : a ≤ b + 2 ^ 31) (hba : b < a + 2 ^ 31) :
    tsLess (ofNat 32 a) (ofNat 32 b) = decide (a < b) := by
  rw [tsLess, ofNat_sub_toNat, decide_eq_decide]
  omega

/-- The comparison with a timestamp that is `n` earlier. -/
theorem tsLess_ofNat_sub (hab : a + n ≤ b + 2 ^ 31) (hba : b < a + n + 2 ^ 31) :
    tsLess (ofNat 32 a) (ofNat 32 b - ofNat 32 n) = decide (a + n < b) := by
  have hmove : ofNat 32 a - (ofNat 32 b - ofNat 32 n) = ofNat 32 (a + n) - ofNat 32 b := by
    rw [ofNat_add]
    ring
  rw [← tsLess_ofNat hab hba, tsLess, tsLess, hmove]

theorem tsLess_sub_ofNat (hab : a ≤ b + n + 2 ^ 31) (hba : b + n < a + 2 ^ 31) :
    tsLess (ofNat 32 a - ofNat 32 n) (ofNat 32 b) = decide (a < b + n) := by
  have hmove : ofNat 32 a - ofNat 32 n - ofNat 32 b = ofNat 32 a - ofNat 32 (b + n) := by
    rw [ofNat_add]
    ring
  rw [← tsLess_ofNat hab hba, tsLess, tsLess, hmove]

theorem offset_ofNat (a : ℕ) : offset (ofNat 32 a) = a % SIZE_MIX_BUFFER := by
  rw [offset, toNat_ofNat, SIZE_MIX_BUFFER, Nat.and_two_pow_sub_one_eq_mod]
  omega

/-! ## Reading and writing the ring -/

variable {a : SampleArray T}

omit [Zero T] in
theorem read_ofNat {ts : ℕ} (hsize : size ≤ SIZE_MIX_BUFFER) :
    a.read (ofNat 32 ts) size =
      (List.range size).map fun j => a.samples ((ts + j) % SIZE_MIX_BUFFER) := by
  have hoff : ts % SIZE_MIX_BUFFER < SIZE_MIX_BUFFER := Nat.mod_lt _ (by decide)
  have hplace (j : ℕ) : (ts + j) % SIZE_MIX_BUFFER = (ts % SIZE_MIX_BUFFER + j) % SIZE_MIX_BUFFER :=
    (Nat.mod_add_mod ts SIZE_MIX_BUFFER j).symm
  rw [read, offset_ofNat]
  generalize ts % SIZE_MIX_BUFFER = off at hoff hplace
  split_ifs with hfits
  · refine map_congr_left fun j hj => ?_
    have hj := mem_range.1 hj
    rw [hplace, Nat.mod_eq_of_lt (by omega)]
  · -- the second part is at the start of the ring
    have hsplit : size = (SIZE_MIX_BUFFER - off) + (size - (SIZE_MIX_BUFFER - off)) := by omega
    conv_rhs => rw [hsplit, range_add, map_append, map_map]
    refine congrArg₂ _ (map_congr_left fun j hj => ?_) (map_congr_left fun j hj => ?_)
    · have hj := mem_range.1 hj
      rw [hplace, Nat.mod_eq_of_lt (by omega)]
    · have hj := mem_range.1 hj
      rw [Function.comp_apply, hplace, show off + (SIZE_MIX_BUFFER - off + j) =
        SIZE_MIX_BUFFER + j by omega, Nat.add_mod_left, Nat.mod_eq_of_lt (by omega), Nat.zero_add]

omit [Zero T] in
theorem write_lastTs (a : SampleArray T) (ts : BitVec 32) (buffer : List T) :
    (a.write ts buffer).lastTs = a.lastTs ∧ (a.write ts buffer).init = a.init := by
  rw [write]
  split_ifs <;> exact ⟨rfl, rfl⟩

variable {buffer : List T} (samples : ℕ → T)

omit [Zero T] in
theorem copy_apply (pos : ℕ) (hj : j < buffer.length) :
    copy samples pos buffer (pos + j) = buffer[j] := by
  rw [copy, if_pos (Nat.le_add_right pos j), Nat.add_sub_cancel_left, List.getElem?_eq_getElem hj]
  rfl

omit [Zero T] in
theorem copy_of_notMem {pos i : ℕ} (h : i < pos ∨ pos + buffer.length ≤ i) :
    copy samples pos buffer i = samples i := by
  rw [copy]
  split_ifs with hpos
  · rw [List.getElem?_eq_none (by omega)]
    rfl
  · rfl

omit [Zero T] in
/-- A sample of the buffer that was written. -/
theorem write_samples {ts : ℕ} (hsize : buffer.length ≤ SIZE_MIX_BUFFER) (hj : j < buffer.length) :
    (a.write (ofNat 32 ts) buffer).samples ((ts + j) % SIZE_MIX_BUFFER) = buffer[j] := by
  have hoff : ts % SIZE_MIX_BUFFER < SIZE_MIX_BUFFER := Nat.mod_lt _ (by decide)
  rw [write, offset_ofNat, ← Nat.mod_add_mod]
  generalize ts % SIZE_MIX_BUFFER = off at hoff
  split_ifs with hfits
  · rw [Nat.mod_eq_of_lt (by omega)]
    exact copy_apply _ off hj
  · by_cases hfirst : off + j < SIZE_MIX_BUFFER
    · have htake : j < (buffer.take (SIZE_MIX_BUFFER - off)).length := by
        rw [length_take]
        omega
      have hrest : 0 + (buffer.drop (SIZE_MIX_BUFFER - off)).length ≤ off + j := by
        rw [length_drop]
        omega
      rw [Nat.mod_eq_of_lt hfirst]
      exact (copy_of_notMem _ (.inr hrest)).trans ((copy_apply _ off htake).trans getElem_take)
    · obtain ⟨k, rfl⟩ : ∃ k, j = SIZE_MIX_BUFFER - off + k :=
        Nat.exists_eq_add_of_le (by omega)
      have hdrop : k < (buffer.drop (SIZE_MIX_BUFFER - off)).length := by
        rw [length_drop]
        omega
      have hplace : (off + (SIZE_MIX_BUFFER - off + k)) % SIZE_MIX_BUFFER = 0 + k := by
        rw [show off + (SIZE_MIX_BUFFER - off + k) = SIZE_MIX_BUFFER + k by omega,
          Nat.add_mod_left, Nat.mod_eq_of_lt (by omega), Nat.zero_add]
      rw [hplace]
      exact (copy_apply _ 0 hdrop).trans getElem_drop

omit [Zero T] in
/-- A sample before the buffer that was written, and after what it overwrites. -/
theorem write_samples_of_lt {ts : ℕ} (hu : u < ts)
    (hsize : ts + buffer.length ≤ u + SIZE_MIX_BUFFER) :
    (a.write (ofNat 32 ts) buffer).samples (u % SIZE_MIX_BUFFER) =
      a.samples (u % SIZE_MIX_BUFFER) := by
  have hoff : ts % SIZE_MIX_BUFFER < SIZE_MIX_BUFFER := Nat.mod_lt _ (by decide)
  have hcases : u % SIZE_MIX_BUFFER < ts % SIZE_MIX_BUFFER ∧
        ts % SIZE_MIX_BUFFER + buffer.length ≤ u % SIZE_MIX_BUFFER + SIZE_MIX_BUFFER ∨
      ts % SIZE_MIX_BUFFER + buffer.length ≤ u % SIZE_MIX_BUFFER := by
    rw [SIZE_MIX_BUFFER] at *
    omega
  rw [write, offset_ofNat]
  have hi : u % SIZE_MIX_BUFFER < SIZE_MIX_BUFFER := Nat.mod_lt _ (by decide)
  generalize ts % SIZE_MIX_BUFFER = off at hoff hcases
  generalize u % SIZE_MIX_BUFFER = i at hi hcases
  split_ifs with hfits
  · exact copy_of_notMem _ (hcases.imp And.left id)
  · have hlow : i < off := by omega
    have hhigh : 0 + (buffer.drop (SIZE_MIX_BUFFER - off)).length ≤ i := by
      rw [length_drop]
      omega
    exact (copy_of_notMem _ (.inr hhigh)).trans (copy_of_notMem _ (.inl hlow))

/-! ## Signals -/

/-- The array holds the signal `f` up to `last`, as far back as the ring goes. -/
structure Holds (f : ℕ → T) (last : ℕ) (a : SampleArray T) : Prop where
  init : a.init = true
  lastTs : a.lastTs = ofNat 32 last
  samples : ∀ u, u < last → last ≤ u + SIZE_MIX_BUFFER → a.samples (u % SIZE_MIX_BUFFER) = f u
  zero : ∀ u, last ≤ u → f u = 0

/-- The signal with a buffer from `ts` on, and nothing after it. -/
def splice (f : ℕ → T) (ts : ℕ) (buffer : List T) (u : ℕ) : T :=
  if u < ts then f u else (buffer[u - ts]?).getD 0

variable {f : ℕ → T} {last ts : ℕ}

theorem get_of_not_init (h : a.init = false) (ts : BitVec 32) (size : ℕ) :
    a.get ts size = List.replicate size 0 :=
  if_pos (.inl h)

/-- Before the first frame nothing is held. -/
theorem holds_start (h : a.init = false) (ts : ℕ) :
    (a.start (ofNat 32 ts)).Holds (fun _ => 0) ts := by
  rw [start, h]
  exact ⟨rfl, rfl, fun _ _ _ => rfl, fun _ _ => rfl⟩

variable (h : a.Holds f last) (hts : ts ≤ last) (hlast : last ≤ ts + buffer.length)
  (hsize : buffer.length ≤ SIZE_MIX_BUFFER)

include h hts hlast hsize

theorem Holds.advance :
    ((a.write (ofNat 32 ts) buffer).advance
      (ofNat 32 ts + ofNat 32 buffer.length)).Holds (splice f ts buffer)
        (ts + buffer.length) := by
  obtain ⟨hkeep, hinit⟩ := a.write_lastTs (ofNat 32 ts) buffer
  have hbuf : SIZE_MIX_BUFFER = 16384 := rfl
  have hsamples : ∀ u, u < ts + buffer.length → ts + buffer.length ≤ u + SIZE_MIX_BUFFER →
      (a.write (ofNat 32 ts) buffer).samples (u % SIZE_MIX_BUFFER) = splice f ts buffer u := by
    intro u hu hring
    rw [splice]
    split_ifs with hbefore
    · rw [write_samples_of_lt hbefore hring]
      exact h.samples u (by omega) (by omega)
    · obtain ⟨j, rfl⟩ := Nat.exists_eq_add_of_le (Nat.not_lt.1 hbefore)
      have hj : j < buffer.length := by omega
      rw [write_samples hsize hj, Nat.add_sub_cancel_left, List.getElem?_eq_getElem hj]
      rfl
  have hzero : ∀ u, ts + buffer.length ≤ u → splice f ts buffer u = 0 := by
    intro u hu
    rw [splice, if_neg (by omega), List.getElem?_eq_none (by omega)]
    rfl
  rw [SampleArray.advance, hkeep, h.lastTs, ← BitVec.ofNat_add, tsLess_ofNat (by omega) (by omega)]
  split_ifs with hlt
  · exact ⟨hinit.trans h.init, rfl, hsamples, hzero⟩
  · have heq : last = ts + buffer.length := by
      rw [decide_eq_true_eq] at hlt
      omega
    exact ⟨hinit.trans h.init, hkeep.trans (h.lastTs.trans (by rw [heq])), hsamples, hzero⟩

/-- A frame that starts inside the signal and does not end before it. -/
theorem Holds.put :
    (a.put (ofNat 32 ts) buffer).Holds (splice f ts buffer) (ts + buffer.length) := by
  have hbuf : SIZE_MIX_BUFFER = 16384 := rfl
  have hstart : a.start (ofNat 32 ts) = a := if_pos h.init
  rw [SampleArray.put, hstart]
  rw [h.lastTs, tsLess_ofNat_sub (by omega) (by omega), tsLess_ofNat (by omega) (by omega),
    if_neg (by rw [decide_eq_true_eq]; omega), if_neg (by rw [decide_eq_true_eq]; omega)]
  exact h.advance hts hlast hsize

omit h hts hlast hsize

/-- Nothing is held behind the end. -/
theorem Holds.replicate (h : a.Holds f last) (hts : last ≤ ts) (n : ℕ) :
    List.replicate n 0 = (List.range n).map fun j => f (ts + j) := by
  refine (eq_replicate_iff.2 ⟨by rw [length_map, length_range], ?_⟩).symm
  intro x hx
  obtain ⟨j, -, rfl⟩ := mem_map.1 hx
  exact h.zero _ (by omega)

/-- What is read is the signal. -/
theorem Holds.get (h : a.Holds f last) (hpos : 0 < size) (hsize : size ≤ SIZE_MIX_BUFFER)
    (hring : last ≤ ts + SIZE_MIX_BUFFER) (hnear : ts ≤ last + SIZE_MIX_BUFFER) :
    a.get (ofNat 32 ts) size = (List.range size).map fun j => f (ts + j) := by
  have hbuf : SIZE_MIX_BUFFER = 16384 := rfl
  have hread (n : ℕ) (hn : ts + n ≤ last) (hle : n ≤ size) : a.read (ofNat 32 ts) n =
      (List.range n).map fun j => f (ts + j) := by
    rw [read_ofNat (by omega)]
    refine map_congr_left fun j hj => ?_
    have hj := mem_range.1 hj
    exact h.samples _ (by omega) (by omega)
  rw [SampleArray.get]
  rw [h.init, h.lastTs, ← ofNat_add, tsLess_ofNat (by omega) (by omega),
    tsLess_sub_ofNat (by omega) (by omega), tsLess_ofNat_sub (by omega) (by omega),
    tsLess_ofNat (by omega) (by omega)]
  simp only [decide_eq_true_eq, decide_eq_false_iff_not]
  by_cases hbefore : ts < last
  · rw [if_neg (by simp only [Bool.true_eq_false, false_or]; omega), if_neg (by omega)]
    split_ifs with hpartial
    · -- the last samples are behind the end of the signal
      have hs : (ofNat 32 last - ofNat 32 ts).toNat = last - ts := by
        rw [ofNat_sub_toNat]
        omega
      have hsum : size = (last - ts) + (size - (last - ts)) := by omega
      rw [hs, hread _ (by omega) (by omega), h.replicate le_rfl]
      conv_rhs => rw [hsum, range_add, map_append, map_map]
      refine congrArg _ (map_congr_left fun j _ => ?_)
      rw [Function.comp_apply, ← Nat.add_assoc, Nat.add_sub_cancel' hbefore.le]
    · exact hread size (by omega) le_rfl
  · rw [if_pos (.inr (.inl hbefore)), h.replicate (Nat.not_lt.1 hbefore)]

/-- The array holds the signal, or there was no frame yet and the signal is zero. -/
def Carries (f : ℕ → T) (last : ℕ) (a : SampleArray T) : Prop :=
  (a.init = false ∧ ∀ u, f u = 0) ∨ a.Holds f last

theorem Carries.zero (h : a.Carries f last) (hu : last ≤ u) : f u = 0 := by
  rcases h with ⟨-, hzero⟩ | hholds
  · exact hzero u
  · exact hholds.zero u hu

theorem Carries.put (h : a.Carries f last) (hts : ts ≤ last) (hlast : last ≤ ts + buffer.length)
    (hsize : buffer.length ≤ SIZE_MIX_BUFFER) :
    (a.put (ofNat 32 ts) buffer).Holds (splice f ts buffer) (ts + buffer.length) := by
  rcases h with ⟨hinit, hzero⟩ | hholds
  · rw [show f = fun _ => 0 from funext hzero]
    have hholds := (holds_start hinit ts).put le_rfl (Nat.le_add_right ts buffer.length) hsize
    have hidem : (a.start (ofNat 32 ts)).start (ofNat 32 ts) = a.start (ofNat 32 ts) :=
      if_pos (holds_start hinit ts).init
    rwa [SampleArray.put, hidem, ← SampleArray.put] at hholds
  · exact hholds.put hts hlast hsize

theorem Carries.get (h : a.Carries f last) (hpos : 0 < size) (hsize : size ≤ SIZE_MIX_BUFFER)
    (hring : last ≤ ts + SIZE_MIX_BUFFER) (hnear : ts ≤ last + SIZE_MIX_BUFFER) :
    a.get (ofNat 32 ts) size = (List.range size).map fun j => f (ts + j) := by
  rcases h with ⟨hinit, hzero⟩ | hholds
  · rw [get_of_not_init hinit, eq_comm, map_congr_left fun j _ => hzero (ts + j),
      map_const', length_range]
  · exact hholds.get hpos hsize hring hnear

end SampleArray

end Sems
