import Sems.RtpMuxFrames
import Sems.Runs

/-!
# Runs of the RTP multiplexer

A run of the sender is a list of calls of `send` and `close`. The receiver gets the datagrams in
their order and without loss. `MuxSender.InStep` is the invariant : the datagrams and the bytes
still in the queue are read as the packets that were accepted, and every stream of the sender is in
step with the receiver's.

The wire headers have eight bits for the length of a packet of up to 256 bytes, seven for one of 256
streams, and seven and two multipliers for an increment of 16 bits. `MuxStreamQueue.Carries` is what
a packet needs so that it is carried (`send_delivers`). `send_step882` is a run in which a packet is
changed.
-/

namespace Sems

open List Function Option
open Function (update)

/-- The sender : its queue, the datagrams that were sent, and the packets that were accepted. -/
structure MuxSender where
  queue : MuxStreamQueue
  datagrams : List (List Byte)
  sent : List (Port × List Byte)

def MuxSender.init : MuxSender where
  queue := .init
  datagrams := []
  sent := []

/-- The calls of the queue. -/
inductive MuxOp where
  | send (env : MuxEnv) (pkt : List Byte) (port : Port)
  | close (env : MuxEnv) (port : Port)

/-- One call, if it is defined. -/
def MuxSender.call (s : MuxSender) : MuxOp → Option MuxSender
  | .send env pkt port =>
    match s.queue.send env pkt port with
    | none => none
    | some .refused => some s
    | some (.queued q datagram) => some ⟨q, s.datagrams ++ datagram.toList, s.sent ++ [(port, pkt)]⟩
  | .close env port =>
    let (q, datagram) := s.queue.close env port
    some ⟨q, s.datagrams ++ datagram.toList, s.sent⟩

/-- A step of a run that is defined so far. -/
def MuxSender.step (s : Option MuxSender) (op : MuxOp) : Option MuxSender :=
  s.bind (·.call op)

/-- What was handed on for the datagrams are the first packets sent, and with the rest of the queue
all of them. -/
def MuxSender.Delivered (states : RecvStates) (s : MuxSender) : Prop :=
  (∃ r got, recvPackets states s.datagrams = some (r, got) ∧ got <+: s.sent) ∧
    ∃ r, recvPackets states (s.datagrams ++ [s.queue.buf]) = some (r, s.sent)

/-! ## What a packet needs -/

/-- The queue can carry a packet : its header has no extension, fits into `rtp_hdr` and is whole,
the length fits into eight bits, there is room for a frame, the stream has or gets an id of seven
bits, and the timestamp does not follow by an increment the receiver could not be told. -/
structure MuxStreamQueue.Carries (q : MuxStreamQueue) (pkt : List Byte) (port : Port) : Prop where
  plain : PlainHdr pkt
  length : pkt.length ≠ RTP_MUX_MAX_FRAME_SIZE
  room : q.buf.length + (pkt.length + 6) ≤ MAX_MUX_QUEUE_SIZE
  id : (q.streamIds port).isSome ∨ ∃ sid : Byte, sid.toNat < 128 ∧ (q.streamstates sid).isNone
  increment : ∀ st ∈ (q.streamIds port).bind q.streamstates,
    st.Follows pkt → Expressible st.tsIncrement

instance (q : MuxStreamQueue) (pkt : List Byte) (port : Port) : Decidable (q.Carries pkt port) :=
  decidable_of_iff (PlainHdr pkt ∧ pkt.length ≠ RTP_MUX_MAX_FRAME_SIZE ∧
    q.buf.length + (pkt.length + 6) ≤ MAX_MUX_QUEUE_SIZE ∧
    ((q.streamIds port).isSome ∨ ∃ sid : Byte, sid.toNat < 128 ∧ (q.streamstates sid).isNone) ∧
    ∀ st ∈ (q.streamIds port).bind q.streamstates, st.Follows pkt → Expressible st.tsIncrement)
    ⟨fun ⟨h1, h2, h3, h4, h5⟩ => ⟨h1, h2, h3, h4, h5⟩,
      fun ⟨h1, h2, h3, h4, h5⟩ => ⟨h1, h2, h3, h4, h5⟩⟩

/-- Every packet that is not refused can be carried. -/
def MuxOp.Ok (s : Option MuxSender) : MuxOp → Prop
  | .send _ pkt port => ∀ s' ∈ s, pkt.length ≤ RTP_MUX_MAX_FRAME_SIZE →
    (s'.queue.streamId port).isSome → s'.queue.Carries pkt port
  | .close _ _ => True

instance (s : Option MuxSender) : (op : MuxOp) → Decidable (op.Ok s)
  | .send _ pkt port => inferInstanceAs (Decidable (∀ s' ∈ s, _ → _ → s'.queue.Carries pkt port))
  | .close _ _ => inferInstanceAs (Decidable True)

/-! ## Stream ids -/

theorem sid_inj {a b : Byte} (ha : a.toNat < 128) (hb : b.toNat < 128)
    (h : a.setWidth 7 = b.setWidth 7) : a = b := by
  rw [← BitVec.toNat_inj] at h ⊢
  rw [BitVec.toNat_setWidth, BitVec.toNat_setWidth] at h
  omega

open MuxStreamQueue

namespace MuxStreamQueue

variable {q : MuxStreamQueue} {port : Port}

/-- If an id of seven bits is free, such an id is found. -/
theorem freeId_spec (h : ∃ sid : Byte, sid.toNat < 128 ∧ (q.streamstates sid).isNone) :
    ∃ sid, q.freeId = some sid ∧ sid.toNat < 128 ∧ q.streamstates sid = none := by
  obtain ⟨sid, hlt, hfree⟩ := h
  have hmem : (fun n => (q.streamstates (BitVec.ofNat 8 n)).isNone) sid.toNat = true := by
    simpa using hfree
  cases hfind : (List.range 256).find? fun n => (q.streamstates (BitVec.ofNat 8 n)).isNone with
  | none =>
    rw [find?_eq_none] at hfind
    exact absurd hmem (hfind _ (mem_range.2 (by omega)))
  | some n =>
    obtain ⟨hn, -, hleast⟩ := find?_range_eq_some.1 hfind
    have hle : n ≤ sid.toNat := by
      by_contra hgt
      have := hleast _ (Nat.lt_of_not_le hgt)
      simp_all
    refine ⟨BitVec.ofNat 8 n, by rw [freeId, hfind]; rfl, ?_, isNone_iff_eq_none.1 hn⟩
    rw [BitVec.toNat_ofNat]
    omega

/-- Every stream is in step with the receiver, under an id of its own. -/
structure InStep (q : MuxStreamQueue) (r : RecvStates) : Prop where
  stream : ∀ {port sid}, q.streamIds port = some sid → sid.toNat < 128 ∧
    ∃ st, q.streamstates sid = some st ∧ InSync port st (r (sid.setWidth 7))
  inj : ∀ {port port' sid}, q.streamIds port = some sid → q.streamIds port' = some sid →
    port = port'

variable {r : RecvStates}

/-- A frame of one stream. -/
theorem InStep.enqueue {sid : Byte} {st rst : MuxStreamState} {bytes : List Byte} (h : q.InStep r)
    (hlt : sid.toNat < 128) (hother : ∀ {port'}, q.streamIds port' = some sid → port' = port)
    (hsync : InSync port st rst) :
    (q.enqueue sid port st bytes).InStep (update r (sid.setWidth 7) rst) := by
  constructor
  · intro port' sid' hid
    by_cases hp : port' = port
    · subst hp
      have hid' : some sid = some sid' := by
        simpa [enqueue] using hid
      obtain rfl := some.inj hid'
      exact ⟨hlt, st, by simp [enqueue], by simpa using hsync⟩
    · have hid' : q.streamIds port' = some sid' := by
        simpa [MuxStreamQueue.enqueue, update_of_ne hp] using hid
      obtain ⟨hlt', st', hst', hsync'⟩ := h.stream hid'
      have hne : sid' ≠ sid := fun heq => hp (hother (heq ▸ hid'))
      have hne7 : sid'.setWidth 7 ≠ sid.setWidth 7 := fun heq => hne (sid_inj hlt' hlt heq)
      refine ⟨hlt', st', ?_, ?_⟩
      · simpa [MuxStreamQueue.enqueue, update_of_ne hne] using hst'
      · rwa [update_of_ne hne7]
  · intro p p' sid' hp hp'
    simp only [MuxStreamQueue.enqueue, update_apply] at hp hp'
    split_ifs at hp hp' with h1 h2 h2
    · rw [h1, h2]
    · obtain rfl := some.inj hp
      rw [h1, hother hp']
    · obtain rfl := some.inj hp'
      rw [h2, hother hp]
    · exact h.inj hp hp'

/-- The queue is sent as it is, or stays as it is. -/
theorem sendQueue_spec (env : MuxEnv) (q : MuxStreamQueue) (force : Bool) :
    (q.sendQueue env force).1.streamIds = q.streamIds ∧
      (q.sendQueue env force).1.streamstates = q.streamstates ∧
      ((q.sendQueue env force).1.buf = [] ∧ (q.sendQueue env force).2 = some q.buf ∨
        (q.sendQueue env force).1.buf = q.buf ∧ (q.sendQueue env force).2 = none) := by
  simp only [sendQueue]
  split_ifs
  all_goals simp

theorem InStep.sendQueue (h : q.InStep r) (env : MuxEnv) (force : Bool) :
    (q.sendQueue env force).1.InStep r := by
  obtain ⟨hids, hstates, -⟩ := q.sendQueue_spec env force
  constructor
  · rw [hids, hstates]
    exact h.stream
  · rw [hids]
    exact h.inj

theorem InStep.erase {sid : Byte} (h : q.InStep r) (hid : q.streamIds port = some sid) :
    InStep { q with
      streamIds := update q.streamIds port none
      streamstates := update q.streamstates sid none } r := by
  have hold : ∀ {p s}, update q.streamIds port none p = some s →
      p ≠ port ∧ q.streamIds p = some s := by
    intro p s hp
    by_cases heq : p = port
    · simp [heq] at hp
    · exact ⟨heq, by rwa [update_of_ne heq] at hp⟩
  constructor
  · intro p s hp
    obtain ⟨hne, hp'⟩ := hold hp
    obtain ⟨hlt, st, hst, hsync⟩ := h.stream hp'
    have hs : s ≠ sid := fun heq => hne (h.inj hp' (heq ▸ hid))
    exact ⟨hlt, st, (update_of_ne hs _ _).trans hst, hsync⟩
  · intro p p' s hp hp'
    exact h.inj (hold hp).2 (hold hp').2

end MuxStreamQueue

/-! ## Whole runs -/

open MuxSender

namespace MuxSender

/-- The invariant of a run : the receiver has got `got`, and `pending` is in the queue. -/
structure InStep (states : RecvStates) (s : MuxSender) (r r' : RecvStates)
    (got pending : List (Port × List Byte)) : Prop where
  datagrams : recvPackets states s.datagrams = some (r, got)
  queue : ReadsAs recvFrame r s.queue.buf r' pending
  sent : s.sent = got ++ pending
  streams : s.queue.InStep r'

variable {states r r' : RecvStates} {s : MuxSender} {got pending : List (Port × List Byte)}

theorem InStep.init (states : RecvStates) : InStep states .init states states [] [] where
  datagrams := rfl
  queue := .nil states
  sent := rfl
  streams := ⟨nofun, nofun⟩

variable (h : InStep states s r r' got pending)

include h

theorem InStep.delivered : s.Delivered states := by
  refine ⟨⟨r, got, h.datagrams, ?_⟩, r', ?_⟩
  · rw [h.sent]
    exact prefix_append _ _
  · rw [h.sent]
    exact readEach_concat h.datagrams h.queue.all

variable (env : MuxEnv)

/-- `sendQueue` moves what is pending to the receiver, or leaves it. -/
theorem InStep.sendQueue (force : Bool) :
    ∃ r₁ got₁ pending₁, InStep states ⟨(s.queue.sendQueue env force).1,
      s.datagrams ++ (s.queue.sendQueue env force).2.toList, s.sent⟩ r₁ r' got₁ pending₁ := by
  obtain ⟨-, -, ⟨hbuf, hout⟩ | ⟨hbuf, hout⟩⟩ := s.queue.sendQueue_spec env force
  · refine ⟨r', got ++ pending, [], ?_, ?_, ?_, h.streams.sendQueue env force⟩
    · rw [hout]
      exact readEach_concat h.datagrams h.queue.all
    · rw [hbuf]
      exact .nil r'
    · rw [h.sent, append_nil]
  · refine ⟨r, got, pending, ?_, ?_, h.sent, h.streams.sendQueue env force⟩
    · rw [hout, toList_none, append_nil]
      exact h.datagrams
    · rw [hbuf]
      exact h.queue

/-- A packet that can be carried. -/
theorem InStep.send {pkt : List Byte} {port : Port} (hlen : pkt.length ≤ RTP_MUX_MAX_FRAME_SIZE)
    (hc : s.queue.Carries pkt port) :
    ∃ q datagram, s.queue.send env pkt port = some (.queued q datagram) ∧
      ∃ r₁ r₂ got₁ pending₁, InStep states ⟨q, s.datagrams ++ datagram.toList,
        s.sent ++ [(port, pkt)]⟩ r₁ r₂ got₁ pending₁ := by
  have hsmall : pkt.length < 256 := Nat.lt_of_le_of_ne hlen hc.length
  -- the stream is in step under its id, or new under a free one
  obtain ⟨sid, hsid, hlt, hother, hst⟩ : ∃ sid, s.queue.streamId port = some sid ∧
      sid.toNat < 128 ∧ (∀ {port'}, s.queue.streamIds port' = some sid → port' = port) ∧
      let st := (s.queue.streamstates sid).getD (.init env.memory)
      st.rtpHdrLen = 0 ∨ InSync port st (r' (sid.setWidth 7)) ∧
        (st.Follows pkt → Expressible st.tsIncrement) := by
    cases hid : s.queue.streamIds port with
    | some sid =>
      obtain ⟨hlt, st, hst, hsync⟩ := h.streams.stream hid
      refine ⟨sid, by rw [MuxStreamQueue.streamId, hid], hlt, fun hp => h.streams.inj hp hid, ?_⟩
      rw [hst]
      refine .inr ⟨hsync, hc.increment st ?_⟩
      rw [hid]
      exact hst
    | none =>
      obtain ⟨sid, hfree, hlt, hnone⟩ := MuxStreamQueue.freeId_spec
        (hc.id.resolve_left (by simp [hid]))
      refine ⟨sid, by rw [MuxStreamQueue.streamId, hid, hfree], hlt, fun hp => ?_, .inl ?_⟩
      · obtain ⟨-, st, hst, -⟩ := h.streams.stream hp
        rw [hnone] at hst
        exact nomatch hst
      · rw [hnone]
        rfl
  obtain ⟨st', bytes, rst, hframe, hbytes, hread, hsync⟩ :=
    MuxStreamState.frame_reads env s.queue.muxPacketId hc.plain hsmall hst
  have hroom : ¬ MAX_MUX_QUEUE_SIZE < s.queue.buf.length + bytes.length :=
    Nat.not_lt.2 (Nat.le_trans (Nat.add_le_add_left hbytes _) hc.room)
  have hqueued : InStep states ⟨s.queue.enqueue sid port st' bytes, s.datagrams,
      s.sent ++ [(port, pkt)]⟩ r (update r' (sid.setWidth 7) rst) got
      (pending ++ [(port, pkt)]) := by
    refine ⟨h.datagrams, h.queue.append hread, ?_, h.streams.enqueue hlt hother hsync⟩
    rw [h.sent, append_assoc]
  obtain ⟨r₁, got₁, pending₁, hsent⟩ := hqueued.sendQueue env false
  refine ⟨_, _, ?_, r₁, _, got₁, pending₁, hsent⟩
  simp only [MuxStreamQueue.send, Nat.not_lt.2 hlen, if_false, hsid, hframe, hroom]

theorem InStep.close (port : Port) :
    ∃ r₁ got₁ pending₁, InStep states ⟨(s.queue.close env port).1,
      s.datagrams ++ (s.queue.close env port).2.toList, s.sent⟩ r₁ r' got₁ pending₁ := by
  have hsame : ∃ r₁ got₁ pending₁, InStep states ⟨s.queue,
      s.datagrams ++ (none : Option (List Byte)).toList, s.sent⟩ r₁ r' got₁ pending₁ := by
    refine ⟨r, got, pending, ?_, h.queue, h.sent, h.streams⟩
    rw [toList_none, append_nil]
    exact h.datagrams
  unfold MuxStreamQueue.close
  split
  · exact hsame
  cases hid : s.queue.streamIds port with
  | none => exact hsame
  | some sid =>
    obtain ⟨r₁, got₁, pending₁, hs⟩ := h.sendQueue env true
    have hid' : (s.queue.sendQueue env true).1.streamIds port = some sid := by
      rw [(s.queue.sendQueue_spec env true).1, hid]
    exact ⟨r₁, got₁, pending₁, hs.datagrams, hs.queue, hs.sent, hs.streams.erase hid'⟩

omit h

/-- A run that is defined, and in which the receiver is in step. -/
def Inv (states : RecvStates) (s : Option MuxSender) : Prop :=
  ∃ s', s = some s' ∧ ∃ r r' got pending, InStep states s' r r' got pending

theorem Inv.step {s : Option MuxSender} {op : MuxOp} (h : Inv states s)
    (hok : op.Ok s) : Inv states (step s op) := by
  obtain ⟨s, rfl, r, r', got, pending, hs⟩ := h
  cases op with
  | send env pkt port =>
    have hsame : Inv states (some s) := ⟨s, rfl, r, r', got, pending, hs⟩
    by_cases hlen : pkt.length ≤ RTP_MUX_MAX_FRAME_SIZE
    · cases hid : s.queue.streamId port with
      | none =>
        have hsend : s.queue.send env pkt port = some .refused := by
          simp only [send, Nat.not_lt.2 hlen, if_false, hid]
        simp only [MuxSender.step, bind_some, call, hsend]
        exact hsame
      | some sid =>
        obtain ⟨q, datagram, hsend, r₁, r₂, got₁, pending₁, hs'⟩ :=
          hs.send env hlen (hok s rfl hlen (by rw [hid]; rfl))
        refine ⟨_, ?_, r₁, r₂, got₁, pending₁, hs'⟩
        simp only [MuxSender.step, bind_some, call, hsend]
    · have hsend : s.queue.send env pkt port = some .refused := by
        rw [send, if_pos (Nat.lt_of_not_le hlen)]
      simp only [MuxSender.step, bind_some, call, hsend]
      exact hsame
  | close env port =>
    obtain ⟨r₁, got₁, pending₁, hs'⟩ := hs.close env port
    exact ⟨_, rfl, r₁, r', got₁, pending₁, hs'⟩

/-- If each accepted packet can be carried, the run is defined, and from whatever state the receiver
starts in, the datagrams are read as the packets that were sent, with their ports and in their
order. -/
theorem send_delivers (states : RecvStates) (ops : List MuxOp)
    (hok : RunOk step (fun s op => op.Ok s) (some .init) ops) :
    ∃ s, runFrom step (some .init) ops = some s ∧ s.Delivered states := by
  have hinit : Inv states (some .init) := ⟨_, rfl, _, _, _, _, .init states⟩
  obtain ⟨s, hs, r, r', got, pending, h⟩ := RunOk.inv (fun h hev => Inv.step h hev) hinit hok
  exact ⟨s, hs, h.delivered⟩

/-- Memory of zeros. -/
def zeroHdr : HdrArray :=
  ⟨List.replicate MAX_RTP_HDR_LEN 0, by decide⟩

/-- The default configuration, at the first tick of the clock. -/
def defaultEnv : MuxEnv where
  wallClock := 0
  RtpMuxMTUThreshold := 1200
  RtpMuxMaxFrameAgeMs := 60
  pad := 0
  memory := zeroHdr

/-- A packet with four bytes of payload. -/
def l16Packet (seq : Byte) (ts : BitVec 32) : List Byte :=
  [0x80, 10, 0, seq] ++ beBytes ts ++ [0, 0, 0, 1] ++ [1, 2, 3, 4]

/-- Three packets whose timestamps grow by `step`. -/
def threePackets (step : BitVec 32) : List MuxOp :=
  [.send defaultEnv (l16Packet 1 0) 4000, .send defaultEnv (l16Packet 2 step) 4000,
    .send defaultEnv (l16Packet 3 (step + step)) 4000]

/-- A receiver that has got nothing yet. -/
def idleStates : RecvStates :=
  fun _ => .init zeroHdr

/-- Packets of 20 ms at 8 kHz. -/
theorem send_delivers_step160 :
    ∃ s, runFrom step (some .init) (threePackets 160) = some s ∧ s.Delivered idleStates :=
  send_delivers idleStates (threePackets 160) (by refine ⟨?_, ?_, ?_, trivial⟩ <;> decide +kernel)

/-- Packets of 20 ms at 44.1 kHz. The setup header has 22 times 40 for the increment of 882, and the
third packet is handed on with the sequence number 2 and the timestamp 1762. -/
theorem send_step882 :
    ¬ ∀ (states : RecvStates) (ops : List MuxOp),
      ∃ s, runFrom step (some .init) ops = some s ∧ s.Delivered states := by
  intro h
  obtain ⟨s, hs, -, r, hr⟩ := h idleStates (threePackets 882)
  have hlast : ((runFrom step (some .init) (threePackets 882)).bind fun s =>
      recvPackets idleStates (s.datagrams ++ [s.queue.buf])).map (fun x => x.2.getLast?) =
        some (some (4000, l16Packet 2 1762)) := by
    decide +kernel
  have hsent : (runFrom step (some .init) (threePackets 882)).map
      (fun s => s.sent.getLast?) = some (some (4000, l16Packet 3 1764)) := by
    decide +kernel
  rw [hs] at hlast hsent
  simp only [bind_some, hr, map_some, some.injEq] at hlast hsent
  rw [hsent] at hlast
  exact absurd hlast (by decide)

end MuxSender

end Sems
