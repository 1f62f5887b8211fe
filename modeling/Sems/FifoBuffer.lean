import Sems.RtpMuxFrames
import Sems.Runs

/-!
# The byte queue of the message logger

`fifo_buffer` keeps a queue of bytes in a ring, with a write position that may rest at the end of
the memory and a read position that does not. A full ring and an empty one can have the same two
positions : a write that fills the ring up to a read position inside it makes the queue unreadable,
and a read that empties the ring while the write position is at the end makes old bytes readable.
In runs without such a step the ring is a bounded queue (`fifoBuffer_queue`).
-/

namespace Sems

open List

/-- The members of `fifo_buffer`; the pointers are offsets from `data`. -/
structure FifoBuffer where
  data : List Byte
  head : ℕ
  tail : ℕ
  freeSpace : ℕ

namespace FifoBuffer

/-- The constructor, with the memory as it comes. -/
def init (data : List Byte) : FifoBuffer :=
  ⟨data, 0, 0, data.length⟩

variable (s : FifoBuffer)

def getBufferedBytes : ℕ :=
  s.data.length - s.freeSpace

/-- `none` is the return value -1. -/
def write (buf : List Byte) : Option FifoBuffer :=
  if s.freeSpace < buf.length then none
  else if s.tail ≤ s.head ∧ s.data.length - s.head < buf.length then
    let bufEnd := s.data.length - s.head
    some { s with
      data := patch (patch s.data s.head (buf.take bufEnd)) 0 (buf.drop bufEnd)
      head := buf.length - bufEnd
      freeSpace := s.freeSpace - buf.length }
  else
    some { s with
      data := patch s.data s.head buf
      head := s.head + buf.length
      freeSpace := s.freeSpace - buf.length }

/-- One buffer of `writev`, whose length becomes an `unsigned int`. -/
def writeIov (buf : List Byte) : FifoBuffer :=
  (s.write (buf.take (buf.length % 2 ^ 32))).getD s

def writev (iov : List (List Byte)) : Option FifoBuffer :=
  if s.freeSpace < (iov.map length).sum % 2 ^ 32 then none else some (iov.foldl writeIov s)

def getReadBs : ℕ :=
  if s.tail ≤ s.head then s.head - s.tail else s.data.length - s.tail

/-- The bytes at `get_read_ptr`. -/
def readable : List Byte :=
  (s.data.drop s.tail).take s.getReadBs

def skip (len : ℕ) : FifoBuffer :=
  { s with
    tail := if s.data.length ≤ s.tail + len then s.tail + len - s.data.length else s.tail + len
    freeSpace := s.freeSpace + len }

end FifoBuffer

inductive FifoOp
  | write (buf : List Byte)
  | writev (iov : List (List Byte))
  | skip (len : ℕ)

/-- The buffer with the queue it stands for. -/
abbrev FifoSt := FifoBuffer × List Byte

/-- A write to a queue of bounded length, all or nothing. -/
def queueWrite (size : ℕ) (queue buf : List Byte) : List Byte :=
  if queue.length + buf.length ≤ size then queue ++ buf else queue

/-- One call, on the buffer and on the queue. -/
def fifoStep (size : ℕ) (st : FifoSt) : FifoOp → FifoSt
  | .write buf => ((st.1.write buf).getD st.1, queueWrite size st.2 buf)
  | .writev iov => ((st.1.writev iov).getD st.1, queueWrite size st.2 iov.flatten)
  | .skip len => (st.1.skip len, st.2.drop len)

/-- Some bytes do not fill the ring, or fill it from its start on. -/
def FifoBuffer.NotFilledBy (s : FifoBuffer) (len : ℕ) : Prop :=
  len = 0 ∨ len ≠ s.freeSpace ∨ s.tail = 0

/-- A call that keeps the two positions apart : no write fills the ring up to a read position inside
it, no read empties it with the write position at the end, and the lengths of `writev` have a sum.
-/
def fifoOk (st : FifoSt) : FifoOp → Prop
  | .write buf => st.1.NotFilledBy buf.length
  | .writev iov => st.1.NotFilledBy iov.flatten.length ∧ iov.flatten.length < 2 ^ 32
  | .skip len => len ≤ st.1.getReadBs ∧
    (len = 0 ∨ len ≠ st.1.getBufferedBytes ∨ st.1.head ≠ st.1.data.length)

/-! ## The queue in the ring -/

section Patch

variable {l bytes : List Byte} {i n : ℕ}

theorem take_patch (h : i ≤ l.length) :
    (patch l i bytes).take (i + bytes.length) = l.take i ++ bytes := by
  rw [patch, take_append_of_le_length (by simp [h]), take_of_length_le (by simp [h])]

theorem patch_of_le (h : l.length ≤ i + bytes.length) : patch l i bytes = l.take i ++ bytes := by
  rw [patch, drop_of_length_le h, append_nil]

theorem drop_patch (h : i ≤ l.length) (hn : i + bytes.length ≤ n) :
    (patch l i bytes).drop n = l.drop n := by
  have hlen : (l.take i ++ bytes).length = i + bytes.length := by simp [h]
  rw [patch, drop_append, drop_of_length_le (by omega), hlen, nil_append, drop_drop]
  congr 1
  omega

end Patch

/-- The bytes from the read position to the write position, over the end of the memory or not. -/
structure FifoBuffer.Holds (s : FifoBuffer) (queue : List Byte) : Prop where
  free : s.freeSpace + queue.length = s.data.length
  tail : s.tail < s.data.length ∨ s.tail = 0
  layout : (s.tail ≤ s.head ∧ s.head ≤ s.data.length ∧
      queue = (s.data.take s.head).drop s.tail) ∨
    (s.head < s.tail ∧ queue = s.data.drop s.tail ++ s.data.take s.head)

namespace FifoBuffer.Holds

variable {s : FifoBuffer} {queue buf : List Byte}

theorem write (h : s.Holds queue) (hfit : buf.length ≤ s.freeSpace)
    (hok : s.NotFilledBy buf.length) : ∃ s', s.write buf = some s' ∧ s'.Holds (queue ++ buf) ∧
      s'.data.length = s.data.length ∧ s'.tail = s.tail := by
  obtain ⟨hfree, htail, hlayout⟩ := h
  have hqueue : (queue ++ buf).length = queue.length + buf.length := length_append
  rw [FifoBuffer.write, if_neg (Nat.not_lt.2 hfit)]
  rcases hlayout with ⟨hle, hhead, rfl⟩ | ⟨hlt, rfl⟩
  · have hlen : ((s.data.take s.head).drop s.tail).length = s.head - s.tail := by simp [hhead]
    have hle' : s.tail ≤ (s.data.take s.head).length := by simp [hhead, hle]
    by_cases hsplit : s.data.length - s.head < buf.length
    · rw [if_pos ⟨hle, hsplit⟩]
      dsimp only
      generalize he : s.data.length - s.head = e at hsplit ⊢
      -- the ring is not filled, so that the rest ends in front of the read position
      have hrest : buf.length - e < s.tail := by
        rw [NotFilledBy] at hok
        omega
      have htake : (buf.take e).length = e := length_take_of_le (Nat.le_of_lt hsplit)
      have hdrop : (buf.drop e).length = buf.length - e := length_drop
      have hend : patch s.data s.head (buf.take e) = s.data.take s.head ++ buf.take e :=
        patch_of_le (by omega)
      have hfirst : (s.data.take s.head ++ buf.take e).length = s.data.length := by
        rw [length_append, htake, length_take_of_le hhead]
        omega
      have hpatch : (patch (s.data.take s.head ++ buf.take e) 0 (buf.drop e)).length =
          s.data.length := (length_patch (by omega)).trans hfirst
      have hbefore : 0 + (buf.drop e).length ≤ s.tail := by omega
      rw [hend]
      refine ⟨_, rfl, ⟨?_, hpatch ▸ htail, .inr ⟨hrest, ?_⟩⟩, hpatch, rfl⟩
      · dsimp only
        omega
      · rw [drop_patch (Nat.zero_le _) hbefore, drop_append_of_le_length hle', ← hdrop,
          ← Nat.zero_add (length _), take_patch (Nat.zero_le _), take_zero, nil_append,
          append_assoc, take_append_drop]
    · have hpatch : (patch s.data s.head buf).length = s.data.length := length_patch (by omega)
      rw [if_neg fun h => hsplit h.2]
      refine ⟨_, rfl, ⟨?_, hpatch ▸ htail, .inl ⟨?_, ?_, ?_⟩⟩, hpatch, rfl⟩
      · dsimp only
        omega
      · exact Nat.le_add_right_of_le hle
      · dsimp only
        omega
      · rw [take_patch hhead, drop_append_of_le_length hle']
  · have hhead : s.head ≤ s.data.length := by omega
    have hlen : (s.data.drop s.tail ++ s.data.take s.head).length =
        s.data.length - s.tail + s.head := by simp [hhead]
    have hpatch : (patch s.data s.head buf).length = s.data.length := length_patch (by omega)
    rw [if_neg fun h => Nat.not_le.2 hlt h.1]
    refine ⟨_, rfl, ⟨?_, hpatch ▸ htail, .inr ⟨?_, ?_⟩⟩, hpatch, rfl⟩
    · dsimp only
      omega
    · rw [NotFilledBy] at hok
      dsimp only
      omega
    · have hbefore : s.head + buf.length ≤ s.tail := by omega
      rw [take_patch hhead, drop_patch hhead hbefore, append_assoc]

theorem writeIov {iov : List (List Byte)} : ∀ {s : FifoBuffer} {queue : List Byte},
    s.Holds queue → iov.flatten.length ≤ s.freeSpace → s.NotFilledBy iov.flatten.length →
      iov.flatten.length < 2 ^ 32 → (iov.foldl writeIov s).Holds (queue ++ iov.flatten) ∧
        (iov.foldl FifoBuffer.writeIov s).data.length = s.data.length := by
  induction iov with
  | nil => exact fun h _ _ _ => ⟨by simpa using h, rfl⟩
  | cons buf iov ih =>
    intro s queue h hfit hok hlt
    rw [flatten_cons, length_append] at hfit hok hlt
    have hok' : s.NotFilledBy buf.length := by
      rw [NotFilledBy] at hok ⊢
      omega
    obtain ⟨s', hwrite, h', hlen, htail⟩ := h.write (by omega) hok'
    have hbuf : s.writeIov buf = s' := by
      rw [FifoBuffer.writeIov, Nat.mod_eq_of_lt (by omega), take_length, hwrite]
      rfl
    have hfree := h.free
    have hfree' := h'.free
    rw [length_append] at hfree'
    rw [foldl_cons, flatten_cons, ← append_assoc, hbuf, ← hlen]
    refine ih h' (by omega) ?_ (by omega)
    rw [NotFilledBy] at hok ⊢
    omega

theorem skip (h : s.Holds queue) {len : ℕ} (hle : len ≤ s.getReadBs)
    (hok : len = 0 ∨ len ≠ s.getBufferedBytes ∨ s.head ≠ s.data.length) :
    (s.skip len).Holds (queue.drop len) := by
  obtain ⟨hfree, htail, hlayout⟩ := h
  rw [getReadBs] at hle
  rw [getBufferedBytes] at hok
  have hqueue : (queue.drop len).length = queue.length - len := length_drop
  rcases hlayout with ⟨hle', hhead, rfl⟩ | ⟨hlt, rfl⟩
  · rw [if_pos hle'] at hle
    have hlen : ((s.data.take s.head).drop s.tail).length = s.head - s.tail := by simp [hhead]
    refine ⟨?_, ?_, .inl ⟨?_, hhead, ?_⟩⟩
    · dsimp only [FifoBuffer.skip]
      omega
    · dsimp only [FifoBuffer.skip]
      split_ifs <;> omega
    · dsimp only [FifoBuffer.skip]
      split_ifs <;> omega
    · dsimp only [FifoBuffer.skip]
      rw [drop_drop]
      split_ifs with hend
      · have hzero : s.tail = 0 ∧ len = 0 := by omega
        simp [hzero]
      · rfl
  · rw [if_neg (Nat.not_le.2 hlt)] at hle
    have hlen : (s.data.drop s.tail ++ s.data.take s.head).length =
        s.data.length - s.tail + s.head := by simp; omega
    have hcut : len ≤ (s.data.drop s.tail).length := by simpa using hle
    rw [drop_append_of_le_length hcut, drop_drop]
    refine ⟨?_, ?_, ?_⟩
    · dsimp only [FifoBuffer.skip]
      rw [length_append, length_drop, length_take]
      omega
    · dsimp only [FifoBuffer.skip]
      split_ifs <;> omega
    · dsimp only [FifoBuffer.skip]
      split_ifs with hend
      · have hwrap : s.tail + len = s.data.length := by omega
        rw [hwrap, Nat.sub_self, drop_length, nil_append, drop_zero]
        exact .inl ⟨Nat.zero_le _, by omega, rfl⟩
      · exact .inr ⟨by omega, rfl⟩

/-- What can be read is the front of the queue. -/
theorem readable_front (h : s.Holds queue) : s.readable <+: queue ∧
    s.readable.length = s.getReadBs ∧ (queue ≠ [] → 0 < s.getReadBs) := by
  obtain ⟨hfree, htail, ⟨hle, hhead, rfl⟩ | ⟨hlt, rfl⟩⟩ := h
  · rw [readable, getReadBs, if_pos hle, ← drop_take]
    refine ⟨prefix_rfl, by simp [hhead], fun hne => ?_⟩
    have hpos := length_pos_of_ne_nil hne
    rw [length_drop, length_take_of_le hhead] at hpos
    exact hpos
  · rw [readable, getReadBs, if_neg (Nat.not_le.2 hlt), take_of_length_le (by simp)]
    exact ⟨prefix_append .., length_drop, fun _ => by omega⟩

end FifoBuffer.Holds

/-- The invariant of the runs. -/
def FifoInv (size : ℕ) (st : FifoSt) : Prop :=
  st.1.Holds st.2 ∧ st.1.data.length = size

theorem FifoInv.step {size : ℕ} {st : FifoSt} {op : FifoOp} (h : FifoInv size st)
    (hok : fifoOk st op) : FifoInv size (fifoStep size st op) := by
  obtain ⟨h, rfl⟩ := h
  have hfree := h.free
  cases op with
  | write buf =>
    rw [fifoStep, queueWrite]
    split_ifs with hfit
    · obtain ⟨s', hwrite, h', hlen, -⟩ := h.write (by omega) hok
      rw [hwrite]
      exact ⟨h', hlen⟩
    · rw [FifoBuffer.write, if_pos (by omega)]
      exact ⟨h, rfl⟩
  | writev iov =>
    rw [fifoStep, queueWrite, FifoBuffer.writev, ← length_flatten, Nat.mod_eq_of_lt hok.2]
    split_ifs with hfull hfit
    · omega
    · exact ⟨h, rfl⟩
    · exact h.writeIov (by omega) hok.1 hok.2
    · omega
  | skip len => exact ⟨h.skip hok.1 hok.2, rfl⟩

/-- In a run whose calls keep the two positions apart the buffer is a bounded queue : it has the
queue's length, a front of it can be read, not an empty one if the queue has bytes, and a write
appends all if it fits, or returns an error and changes nothing. -/
theorem fifoBuffer_queue (data : List Byte) {ops : List FifoOp}
    (hok : RunOk (fifoStep data.length) fifoOk (.init data, []) ops) :
    let st := runFrom (fifoStep data.length) (.init data, []) ops
    st.1.getBufferedBytes = st.2.length ∧ st.1.readable <+: st.2 ∧
      st.1.readable.length = st.1.getReadBs ∧ (st.2 ≠ [] → 0 < st.1.getReadBs) ∧
        ∀ buf, (st.1.write buf).isNone ↔ data.length < st.2.length + buf.length := by
  have hinit : FifoInv data.length (.init data, []) :=
    ⟨⟨rfl, .inr rfl, .inl ⟨Nat.le_refl _, Nat.zero_le _, rfl⟩⟩, rfl⟩
  obtain ⟨h, hlen⟩ := hok.inv FifoInv.step hinit
  intro st
  have hfree : st.1.freeSpace + st.2.length = data.length := h.free.trans hlen
  obtain ⟨hfront, hread, hpos⟩ := h.readable_front
  refine ⟨?_, hfront, hread, hpos, fun buf => ?_⟩
  · have hbuffered : st.1.getBufferedBytes = data.length - st.1.freeSpace :=
      congrArg (· - st.1.freeSpace) hlen
    omega
  · rw [FifoBuffer.write]
    split_ifs <;> simp <;> omega

/-- A buffer that is written over the end of its memory. -/
theorem fifoBuffer_queue_wrapped :
    let st := runFrom (fifoStep 4) (.init [0, 0, 0, 0], [])
      [.write [1, 2, 3], .skip 2, .writev [[4], [5]]]
    st.1.getBufferedBytes = 3 ∧ st.1.readable <+: [3, 4, 5] ∧
      st.1.readable.length = st.1.getReadBs ∧ 0 < st.1.getReadBs ∧
        ∀ buf, (st.1.write buf).isNone ↔ 4 < 3 + buf.length := by
  have hok : RunOk (fifoStep 4) fifoOk (.init [0, 0, 0, 0], [])
      [.write [1, 2, 3], .skip 2, .writev [[4], [5]]] :=
    ⟨.inr (.inl (by decide)), ⟨by decide, .inr (.inl (by decide))⟩,
      ⟨.inr (.inl (by decide)), by decide⟩, trivial⟩
  obtain ⟨hbytes, hfront, hlen, hpos, hfull⟩ := fifoBuffer_queue [0, 0, 0, 0] hok
  exact ⟨hbytes, hfront, hlen, hpos (by decide), hfull⟩

/-- A ring filled up to a read position inside it has nothing to read, and one emptied at its end
has everything. -/
theorem fifoBuffer_full_empty :
    let full := runFrom (fifoStep 4) (.init [0, 0, 0, 0], [])
      [.write [1, 2], .skip 2, .write [3, 4, 5, 6]]
    let empty := runFrom (fifoStep 2) (.init [0, 0], []) [.write [1, 2], .skip 2]
    (full.1.getReadBs = 0 ∧ full.2 = [3, 4, 5, 6]) ∧ empty.1.getReadBs = 2 ∧ empty.2 = [] := by
  decide

end Sems
