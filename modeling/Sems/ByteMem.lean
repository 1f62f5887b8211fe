import Mathlib

/-!
# Memory

The bytes around a buffer, by their address, counted from the start of the buffer. A text that is
written behind another one continues it (`readMem_writeMem_append`), and a text that is moved to
the start of the buffer is found there (`readMem_moveMem`).
-/

namespace Sems

/-- The memory around a buffer. -/
abbrev Mem := ℕ → Char

/-- The `n` bytes at the address `a`. -/
def readMem (m : Mem) (a : ℕ) : ℕ → List Char
  | 0 => []
  | n + 1 => m a :: readMem m (a + 1) n

@[simp] theorem length_readMem (m : Mem) : ∀ a n : ℕ, (readMem m a n).length = n
  | _, 0 => rfl
  | a, n + 1 => by simp [readMem, length_readMem m (a + 1) n]

theorem readMem_add (m : Mem) : ∀ a n k : ℕ,
    readMem m a (n + k) = readMem m a n ++ readMem m (a + n) k
  | a, 0, k => by simp [readMem]
  | a, n + 1, k => by
    rw [Nat.succ_add, readMem, readMem_add m (a + 1) n k, readMem, List.cons_append,
      Nat.add_assoc a 1 n, Nat.add_comm 1 n]

theorem readMem_concat (m : Mem) (a n : ℕ) : readMem m a (n + 1) = readMem m a n ++ [m (a + n)] :=
  readMem_add m a n 1

variable {m : Mem}
variable {s : List Char}

theorem readMem_take {a n : ℕ} (h : readMem m a n = s) {k : ℕ} (hk : k ≤ n) :
    readMem m a k = s.take k := by
  obtain ⟨j, rfl⟩ := Nat.exists_eq_add_of_le hk
  rw [← h, readMem_add, List.take_append_of_le_length (by simp), List.take_of_length_le (by simp)]

theorem readMem_drop {a n k : ℕ} (hk : k ≤ n) :
    (readMem m a n).drop k = readMem m (a + k) (n - k) := by
  obtain ⟨j, rfl⟩ := Nat.exists_eq_add_of_le hk
  rw [readMem_add, List.drop_append_of_le_length (by simp), List.drop_of_length_le (by simp),
    List.nil_append, Nat.add_sub_cancel_left]

/-- The memory after some bytes were written at an address. -/
def writeMem (m : Mem) (a : ℕ) (s : List Char) : Mem :=
  fun b => if a ≤ b then (s[b - a]?).getD (m b) else m b

/-- The memory after `n` bytes were moved from `src` to the start of the buffer. -/
def moveMem (m : Mem) (src n : ℕ) : Mem :=
  fun a => if a < n then m (src + a) else m a

theorem readMem_congr {m' : Mem} : ∀ {a n : ℕ} (_ : ∀ b, a ≤ b → b < a + n → m' b = m b),
    readMem m' a n = readMem m a n
  | _, 0, _ => rfl
  | a, n + 1, h => by
    rw [readMem, readMem, h a (Nat.le_refl a) (by omega),
      readMem_congr fun b hb hb' => h b (by omega) (by omega)]

theorem readMem_writeMem (m : Mem) :
    ∀ (a : ℕ) (s : List Char), readMem (writeMem m a s) a s.length = s
  | _, [] => rfl
  | a, c :: cs => by
    have htail : readMem (writeMem m a (c :: cs)) (a + 1) cs.length =
        readMem (writeMem m (a + 1) cs) (a + 1) cs.length := by
      refine readMem_congr fun b hb _ => ?_
      obtain ⟨j, rfl⟩ := Nat.exists_eq_add_of_le hb
      simp [writeMem, show a ≤ a + 1 + j by omega, show a + 1 + j - a = j + 1 by omega]
    rw [List.length_cons, readMem, htail, readMem_writeMem m (a + 1) cs]
    simp [writeMem]

theorem writeMem_of_lt {a b : ℕ} (h : b < a) : writeMem m a s b = m b := by
  simp [writeMem, Nat.not_le.2 h]

/-- After the write, the buffer holds the old text and the new one. -/
theorem readMem_writeMem_append {n : ℕ} :
    readMem (writeMem m n s) 0 (n + s.length) = readMem m 0 n ++ s := by
  rw [readMem_add, Nat.zero_add, readMem_writeMem,
    readMem_congr fun b _ hb => writeMem_of_lt (by omega)]

/-- The text that was moved. -/
theorem readMem_moveMem {src n : ℕ} :
    ∀ {a k : ℕ} (_ : a + k ≤ n), readMem (moveMem m src n) a k = readMem m (src + a) k
  | _, 0, _ => rfl
  | a, k + 1, h => by
    rw [readMem, readMem, readMem_moveMem (by omega), Nat.add_assoc]
    simp [moveMem, show a < n by omega]

end Sems
