import Sems.RtpMux

/-!
# One frame of the RTP multiplexer

A packet that `send` puts into the queue is read as the same packet, if the receiver's state of the
stream is in step with the sender's (`InSync`), and the two are in step again after it
(`frame_reads`). For a compressed frame the sender has tried to restore the header itself, so it is
enough that the receiver does so from the same bytes with the same increment. It has the increment
as it came through the seven bits of the setup header (`wireIncrement`).
-/

namespace Sems

open List BitVec
open Function (update)

/-! ## Bytes -/

variable {i n : ℕ}

theorem byteAt_take {l : List Byte} (h : i < n) : byteAt (l.take n) i = byteAt l i := by
  simp [byteAt, getD_eq_getElem?_getD, h]

/-- Two lists with the same front have the same bytes there. -/
theorem byteAt_eq {l l' : List Byte} (h : l.take n = l'.take n) (hi : i < n) :
    byteAt l i = byteAt l' i := by
  rw [← byteAt_take hi, h, byteAt_take hi]

theorem length_patch {l bytes : List Byte} (h : i + bytes.length ≤ l.length) :
    (patch l i bytes).length = l.length := by
  simp only [patch, length_append, length_take, length_drop]
  omega

theorem port_bytes (port : Port) : port.extractLsb' 8 8 ++ port.setWidth 8 = port := by
  ext i hi
  rw [BitVec.getElem_append]
  split_ifs with h
  · rw [BitVec.getElem_setWidth]
    exact BitVec.getLsbD_eq_getElem hi
  · rw [BitVec.getElem_extractLsb', show 8 + (i - 8) = i by omega]
    exact BitVec.getLsbD_eq_getElem hi

variable (c : RtpMuxHdrCompressed)

theorem ofBytes_bytes :
    RtpMuxHdrCompressed.ofBytes (BitVec.cons true c.sid) c.len
      (BitVec.cons c.m (c.snLsb ++ c.tsCrc4)) = c := by
  have hsn : ∀ m (x : BitVec 3) (y : BitVec 4), (BitVec.cons m (x ++ y)).extractLsb' 4 3 = x := by
    decide
  have hcrc : ∀ m (x : BitVec 3) (y : BitVec 4), (BitVec.cons m (x ++ y)).setWidth 4 = y := by
    decide
  cases c
  simp [RtpMuxHdrCompressed.ofBytes, hsn, hcrc]

/-! ## Plain headers -/

/-- `get_rtp_hdr_len` for a header without an extension. -/
def plainHdrLen (hdr : List Byte) : ℕ :=
  RTP_HDR_LEN + (rtpCc hdr).toNat * 4

/-- A header without an extension that fits into `rtp_hdr`, and is there as a whole. -/
structure PlainHdr (hdr : List Byte) : Prop where
  noExtension : rtpX hdr = false
  fits : plainHdrLen hdr ≤ MAX_RTP_HDR_LEN
  whole : plainHdrLen hdr ≤ hdr.length

instance (hdr : List Byte) : Decidable (PlainHdr hdr) :=
  decidable_of_iff
    (rtpX hdr = false ∧ plainHdrLen hdr ≤ MAX_RTP_HDR_LEN ∧ plainHdrLen hdr ≤ hdr.length)
    ⟨fun h => ⟨h.1, h.2.1, h.2.2⟩, fun h => ⟨h.1, h.2, h.3⟩⟩

theorem le_plainHdrLen {hdr : List Byte} : RTP_HDR_LEN ≤ plainHdrLen hdr :=
  Nat.le_add_right _ _

theorem plainHdrLen_congr {l l' : List Byte} (h : l.take n = l'.take n) (hn : 0 < n) :
    plainHdrLen l = plainHdrLen l' := by
  simp only [plainHdrLen, rtpCc, byteAt_eq h hn]

namespace PlainHdr

variable {l l' : List Byte}

theorem getRtpHdrLen_eq (h : PlainHdr l) : getRtpHdrLen l = some (plainHdrLen l) := by
  have hlen := Nat.not_lt.2 (Nat.le_trans le_plainHdrLen h.whole)
  simp only [getRtpHdrLen, hlen, if_false, h.noExtension, Bool.false_eq_true, plainHdrLen]

/-- A list with the same front. -/
theorem congr (h : PlainHdr l) (hfront : l'.take (plainHdrLen l) = l.take (plainHdrLen l)) :
    PlainHdr l' ∧ plainHdrLen l' = plainHdrLen l := by
  have hpos : 0 < plainHdrLen l := Nat.lt_of_lt_of_le (by decide) le_plainHdrLen
  have heq := plainHdrLen_congr hfront hpos
  refine ⟨⟨?_, heq ▸ h.fits, ?_⟩, heq⟩
  · rw [← h.noExtension]
    simp only [rtpX, byteAt_eq hfront hpos]
  · have hlen := congrArg List.length hfront
    have hwhole := h.whole
    simp only [length_take] at hlen
    omega

theorem append (h : PlainHdr l) (rest : List Byte) :
    PlainHdr (l ++ rest) ∧ plainHdrLen (l ++ rest) = plainHdrLen l :=
  h.congr (take_append_of_le_length h.whole)

end PlainHdr

/-- `memcpy` to `rtp_hdr` for a plain header. -/
theorem HdrArray.store_plain (a : HdrArray) {src : List Byte} (h : n ≤ src.length)
    (hn : n ≤ MAX_RTP_HDR_LEN) : ∃ a', a.store src n = some a' ∧ a'.1.take n = src.take n := by
  refine ⟨_, dif_pos ⟨h, hn⟩, ?_⟩
  rw [take_append_of_le_length (by rw [length_take]; omega), take_take, Nat.min_self]

/-- The bytes after the header do not matter. -/
theorem HdrArray.store_append (a : HdrArray) {src : List Byte} (rest : List Byte)
    (h : n ≤ src.length) : a.store (src ++ rest) n = a.store src n := by
  have h' : n ≤ (src ++ rest).length := Nat.le_trans h (by rw [length_append]; omega)
  simp only [HdrArray.store, h, h', true_and, take_append_of_le_length h]

/-! ## Compressed headers -/

variable (tsIncrement : BitVec 16)

/-- Only the header itself is looked at. -/
theorem decompress_congr {l l' : List Byte} (h : PlainHdr l)
    (hfront : l'.take (plainHdrLen l) = l.take (plainHdrLen l)) :
    decompress c tsIncrement l' = decompress c tsIncrement l := by
  obtain ⟨h', hlen⟩ := h.congr hfront
  have hge : ∀ {i}, i < RTP_HDR_LEN → byteAt l' i = byteAt l i := fun hi =>
    byteAt_eq hfront (Nat.lt_of_lt_of_le hi le_plainHdrLen)
  have hseq : rtpSeq l' = rtpSeq l := by
    simp only [rtpSeq, be16, hge (show 2 < RTP_HDR_LEN by decide),
      hge (show 2 + 1 < RTP_HDR_LEN by decide)]
  have hshort : ¬ (l.length < plainHdrLen l ∨ plainHdrLen l < RTP_HDR_LEN) :=
    not_or.2 ⟨Nat.not_lt.2 h.whole, Nat.not_lt.2 le_plainHdrLen⟩
  have hshort' : ¬ (l'.length < plainHdrLen l ∨ plainHdrLen l < RTP_HDR_LEN) :=
    not_or.2 ⟨Nat.not_lt.2 (hlen ▸ h'.whole), Nat.not_lt.2 le_plainHdrLen⟩
  simp only [decompress, h.getRtpHdrLen_eq, h'.getRtpHdrLen_eq, hlen, hshort, hshort', if_false,
    hfront, hseq]

theorem length_setM {l : List Byte} {m : Bool} (h : RTP_HDR_LEN ≤ l.length) :
    (setM l m).length = l.length :=
  length_patch (Nat.le_trans (show 1 + 1 ≤ RTP_HDR_LEN by decide) h)

theorem length_setTs {l : List Byte} {ts : BitVec 32} (h : RTP_HDR_LEN ≤ l.length) :
    (setTs l ts).length = l.length :=
  length_patch (Nat.le_trans (show 4 + 4 ≤ RTP_HDR_LEN by decide) h)

theorem length_setSeq {l : List Byte} {seq : BitVec 16} (h : RTP_HDR_LEN ≤ l.length) :
    (setSeq l seq).length = l.length :=
  length_patch (Nat.le_trans (show 2 + 2 ≤ RTP_HDR_LEN by decide) h)

/-- A plain header can be used as a template, and the restored header is as long. -/
theorem decompress_plain {l : List Byte} (h : PlainHdr l) :
    ∃ restored, decompress c tsIncrement l = some restored ∧ restored.length = plainHdrLen l := by
  have hshort : ¬ (l.length < plainHdrLen l ∨ plainHdrLen l < RTP_HDR_LEN) :=
    not_or.2 ⟨Nat.not_lt.2 h.whole, Nat.not_lt.2 le_plainHdrLen⟩
  have htake : (l.take (plainHdrLen l)).length = plainHdrLen l := by
    rw [length_take, Nat.min_eq_left h.whole]
  have hle : RTP_HDR_LEN ≤ plainHdrLen l := le_plainHdrLen
  have hm : (setM (l.take (plainHdrLen l)) c.m).length = plainHdrLen l := by
    rw [length_setM (by omega), htake]
  have hts : ∀ ts, (setTs (setM (l.take (plainHdrLen l)) c.m) ts).length = plainHdrLen l := by
    intro ts
    rw [length_setTs (by omega), hm]
  simp only [decompress, h.getRtpHdrLen_eq, hshort, if_false]
  split
  · refine ⟨_, rfl, ?_⟩
    rw [length_setSeq (by rw [hts]; exact hle), hts]
  · exact ⟨_, rfl, hts _⟩

/-! ## The two states of a stream -/

/-- The increment as the receiver gets it from a setup header. -/
def wireIncrement (tsIncrement : BitVec 16) : BitVec 16 :=
  calculateTsIncrement (tsIncMultiplier tsIncrement) (tsIncField tsIncrement)

/-- The increments that a setup header can carry. -/
def Expressible (tsIncrement : BitVec 16) : Prop :=
  tsIncrement.toNat % 160 = 0 ∧ tsIncrement.toNat ≤ 160 * 127 ∨
    tsIncrement.toNat % 40 = 0 ∧ tsIncrement.toNat ≤ 40 * 127

instance (tsIncrement : BitVec 16) : Decidable (Expressible tsIncrement) :=
  inferInstanceAs (Decidable (_ ∨ _))

/-- Seven bits with a multiplier fit into 16 bits. -/
theorem field_mul {k : ℕ} (hk : k ≤ 160) : n % 2 ^ 7 % 2 ^ 16 * k % 2 ^ 16 = n % 128 * k := by
  show n % 128 % 65536 * k % 65536 = n % 128 * k
  have hlt : n % 128 < 128 := Nat.mod_lt _ (by decide)
  have hmul : n % 128 * k < 65536 :=
    Nat.lt_of_le_of_lt (Nat.mul_le_mul (Nat.le_of_lt hlt) hk) (by decide)
  rw [Nat.mod_eq_of_lt (by omega : n % 128 < 65536), Nat.mod_eq_of_lt hmul]

theorem wireIncrement_eq_iff :
    wireIncrement tsIncrement = tsIncrement ↔ Expressible tsIncrement := by
  rw [← toNat_inj]
  unfold wireIncrement calculateTsIncrement tsIncField tsIncMultiplier Expressible
  by_cases h : tsIncrement.toNat % 160 = 0
  · have hm : (tsIncrement % 160 == 0) = true := by
      rw [beq_iff_eq, ← toNat_inj]
      simpa using h
    simp only [hm, if_true, toNat_mul, toNat_setWidth, toNat_udiv,
      show (160 : BitVec 16).toNat = 160 from rfl]
    rw [field_mul (by decide)]
    omega
  · have hm : (tsIncrement % 160 == 0) = false := by
      rw [beq_eq_false_iff_ne, ne_eq, ← toNat_inj]
      simpa using h
    simp only [hm, Bool.false_eq_true, if_false, toNat_mul, toNat_setWidth,
      toNat_udiv, show (40 : BitVec 16).toNat = 40 from rfl]
    rw [field_mul (by decide)]
    omega

/-- The receiver's state `r` of the stream to a port is in step with the sender's. -/
structure InSync (port : Port) (st r : MuxStreamState) : Prop where
  dstport : r.dstport = port
  tsIncrement : r.tsIncrement = wireIncrement st.tsIncrement
  plain : PlainHdr st.rtpHdr.1
  rtpHdrLen : st.rtpHdrLen = plainHdrLen st.rtpHdr.1
  rtpHdr : r.rtpHdr.1.take st.rtpHdrLen = st.rtpHdr.1.take st.rtpHdrLen

/-! ## Frames -/

theorem shrinks_recvFrame : Shrinks recvFrame := by
  intro s l s' b rest h
  unfold recvFrame at h
  split at h
  · next b0 len b2 b3 data =>
    have hrest : rest.length ≤ data.length := by
      split at h
      · simp only [recvCompressed] at h
        repeat' split at h
        all_goals simp only [Option.some.injEq, Prod.mk.injEq, reduceCtorEq] at h
        obtain ⟨-, -, rfl⟩ := h
        rw [length_drop]
        exact Nat.sub_le _ _
      · split at h
        · next ts pad rtp =>
          simp only [recvSetup] at h
          repeat' split at h
          all_goals simp only [Option.some.injEq, Prod.mk.injEq, reduceCtorEq] at h
          obtain ⟨-, -, rfl⟩ := h
          rw [length_drop, length_cons, length_cons]
          omega
        · simp at h
    simp only [length_cons]
    omega
  · simp at h

/-- A setup frame is read as its packet, whatever the state was. -/
theorem recvFrame_setup {states : RecvStates} (hdr : RtpMuxHdrSetup) {pad : Byte}
    {pkt : List Byte} (hpkt : PlainHdr pkt) (hlen : hdr.len.toNat = pkt.length) :
    ∃ r, (∀ rest, recvFrame states (hdr.bytes pad ++ pkt ++ rest) =
        some (update states hdr.sid r, (hdr.dstport, pkt), rest)) ∧
      r.dstport = hdr.dstport ∧ r.tsIncrement = calculateTsIncrement hdr.u hdr.tsInc ∧
      r.rtpHdr.1.take (plainHdrLen pkt) = pkt.take (plainHdrLen pkt) := by
  obtain ⟨a, ha, hfront⟩ := (states hdr.sid).rtpHdr.store_plain hpkt.whole hpkt.fits
  refine ⟨{ states hdr.sid with
    dstport := hdr.dstport
    tsIncrement := calculateTsIncrement hdr.u hdr.tsInc
    rtpHdrLen := plainHdrLen pkt
    rtpHdr := a }, fun rest => ?_, rfl, rfl, hfront⟩
  obtain ⟨hplain, hplen⟩ := hpkt.append rest
  have hstore := (HdrArray.store_append (states hdr.sid).rtpHdr rest hpkt.whole).trans ha
  simp [RtpMuxHdrSetup.bytes, recvFrame, recvSetup, hplain.getRtpHdrLen_eq, hplen, hstore, hlen,
    port_bytes]

/-- A compressed frame is read as its packet, if the state gives its header. -/
theorem recvFrame_compressed (states : RecvStates) {c : RtpMuxHdrCompressed} (pad : Byte)
    {pkt : List Byte} (hpkt : PlainHdr pkt) (hlen : c.len.toNat = pkt.length - plainHdrLen pkt)
    (hdec : decompress c (states c.sid).tsIncrement (states c.sid).rtpHdr.1 =
      some (pkt.take (plainHdrLen pkt))) :
    ∃ r, (∀ rest, recvFrame states (c.bytes pad ++ pkt.drop (plainHdrLen pkt) ++ rest) =
        some (update states c.sid r, ((states c.sid).dstport, pkt), rest)) ∧
      r.dstport = (states c.sid).dstport ∧ r.tsIncrement = (states c.sid).tsIncrement ∧
      r.rtpHdr.1.take (plainHdrLen pkt) = pkt.take (plainHdrLen pkt) := by
  have htake : (pkt.take (plainHdrLen pkt)).take (plainHdrLen pkt) =
      pkt.take (plainHdrLen pkt) := by
    rw [take_take, Nat.min_self]
  obtain ⟨hplain, hplen⟩ := hpkt.congr htake
  obtain ⟨a, ha, hfront⟩ := (states c.sid).rtpHdr.store_plain (hplen ▸ hplain.whole) hpkt.fits
  refine ⟨{ states c.sid with rtpHdrLen := plainHdrLen pkt, rtpHdr := a }, fun rest => ?_, rfl, rfl,
    hfront.trans htake⟩
  have hdata : c.len.toNat = (pkt.drop (plainHdrLen pkt)).length := by
    rw [hlen, length_drop]
  have hshort : ¬ (pkt.drop (plainHdrLen pkt) ++ rest).length < c.len.toNat := by
    rw [hdata, length_append]
    omega
  have hcomp : recvCompressed states c (pkt.drop (plainHdrLen pkt) ++ rest) =
      some (update states c.sid
        { states c.sid with rtpHdrLen := plainHdrLen pkt, rtpHdr := a },
        ((states c.sid).dstport, pkt), rest) := by
    simp only [recvCompressed, hdec, hplain.getRtpHdrLen_eq, hplen, ha, hshort, if_false]
    rw [hdata, take_left, drop_left, htake, take_append_drop]
  rw [← hcomp]
  simp [RtpMuxHdrCompressed.bytes, recvFrame, ofBytes_bytes]

/-! ## The sender's frames -/

namespace MuxStreamState

variable (env : MuxEnv) (muxPacketId : BitVec 32) (st : MuxStreamState) (pkt : List Byte)

/-- The timestamp follows the last one by the increment of the stream. -/
def Follows : Prop :=
  rtpTs pkt = rtpTs st.rtpHdr.1 + st.tsIncrement.setWidth 32

instance : Decidable (st.Follows pkt) :=
  inferInstanceAs (Decidable (_ = _))

variable {st pkt}

/-- Without a setup frame the increment is the old one and the packet follows it. -/
theorem checkSetup_spec {hdrLen : ℕ} {st' : MuxStreamState} {setup : Bool}
    (h : st.checkSetup env muxPacketId pkt hdrLen = (st', setup)) :
    setup = false → st' = st ∧ hdrLen = st.rtpHdrLen ∧ st.Follows pkt := by
  unfold checkSetup at h
  split_ifs at h with h1 h2 h3 h4 h5
  all_goals obtain ⟨rfl, rfl⟩ := Prod.mk.inj h
  case neg => exact fun _ => ⟨rfl, not_not.1 h4, not_not.1 h5⟩
  all_goals exact nofun

variable {port : Port}

/-- With the header saved, the stream is in step with a receiver that has the header, too. -/
theorem saveHdr_inSync {r : MuxStreamState} (st : MuxStreamState) (hpkt : PlainHdr pkt)
    (hport : r.dstport = port) (hinc : r.tsIncrement = wireIncrement st.tsIncrement)
    (hr : r.rtpHdr.1.take (plainHdrLen pkt) = pkt.take (plainHdrLen pkt)) :
    ∃ st', st.saveHdr muxPacketId pkt (plainHdrLen pkt) = some st' ∧ InSync port st' r := by
  obtain ⟨a, ha, hfront⟩ := st.rtpHdr.store_plain hpkt.whole hpkt.fits
  obtain ⟨hplain, heq⟩ := hpkt.congr hfront
  refine ⟨{ st with
    lastMuxPacketId := muxPacketId, rtpHdrLen := plainHdrLen pkt, rtpHdr := a }, ?_,
    hport, hinc, hplain, heq.symm, hr.trans hfront.symm⟩
  rw [saveHdr, ha]
  rfl

/-- A setup frame puts the two sides in step. -/
theorem setupFrame_inSync {env : MuxEnv} (muxPacketId : BitVec 32) (st : MuxStreamState)
    {states : RecvStates} {sid : Byte} {port : Port} (hpkt : PlainHdr pkt)
    (hlen : pkt.length < 256) :
    ∃ st' r, (st.setupFrame env pkt sid port).1.saveHdr muxPacketId pkt (plainHdrLen pkt) =
        some st' ∧
      ReadsAs recvFrame states (st.setupFrame env pkt sid port).2
        (update states (sid.setWidth 7) r) [(port, pkt)] ∧ InSync port st' r := by
  obtain ⟨r, hread, hport, hinc, hr⟩ :=
    recvFrame_setup (st.setupHdr pkt sid port) hpkt (Nat.mod_eq_of_lt hlen)
  obtain ⟨st', hsave, hsync⟩ := saveHdr_inSync muxPacketId (st.setupFrame env pkt sid port).1 hpkt
    hport hinc hr
  exact ⟨st', r, hsave, .single shrinks_recvFrame hread, hsync⟩

/-- The frame of a packet in a stream that is new or in step is read as the packet, and the stream
is in step after it. -/
theorem frame_reads (env : MuxEnv) (muxPacketId : BitVec 32) {states : RecvStates} {sid : Byte}
    (hpkt : PlainHdr pkt) (hlen : pkt.length < 256)
    (hst : st.rtpHdrLen = 0 ∨ InSync port st (states (sid.setWidth 7)) ∧
      (st.Follows pkt → Expressible st.tsIncrement)) :
    ∃ st' bytes r, st.frame env muxPacketId pkt sid port = some (st', bytes) ∧
      bytes.length ≤ pkt.length + 6 ∧
      ReadsAs recvFrame states bytes (update states (sid.setWidth 7) r) [(port, pkt)] ∧
      InSync port st' r := by
  cases hcheck : st.checkSetup env muxPacketId pkt (plainHdrLen pkt) with
  | mk st₁ setup =>
  have hspec := checkSetup_spec env muxPacketId hcheck
  obtain ⟨st', r, hsave, hread, hsync⟩ :=
    st₁.setupFrame_inSync muxPacketId hpkt hlen
  have hle : (st₁.setupFrame env pkt sid port).2.length ≤ pkt.length + 6 := Nat.le_refl _
  cases setup with
  | true =>
    refine ⟨st', _, r, ?_, hle, hread, hsync⟩
    simp only [frame, hpkt.getRtpHdrLen_eq, hcheck, hsave, Option.map_some]
  | false =>
    obtain ⟨rfl, hhdr, hfollows⟩ := hspec rfl
    have hpos : 0 < plainHdrLen pkt := Nat.lt_of_lt_of_le (by decide) le_plainHdrLen
    obtain ⟨hsync₁, hinc⟩ := hst.resolve_left (by omega)
    obtain ⟨restored, hdec, hrest⟩ := decompress_plain
      (compressedHdr pkt sid (plainHdrLen pkt)) st₁.tsIncrement hsync₁.plain
    rw [← hsync₁.rtpHdrLen, ← hhdr] at hrest
    have hshort := not_or.2 ⟨Nat.not_lt.2 (Nat.le_of_eq hrest.symm), Nat.not_lt.2 hpkt.whole⟩
    simp only [frame, hpkt.getRtpHdrLen_eq, hcheck, compressFrame, hdec, hshort, if_false]
    split_ifs with heq
    · rw [take_of_length_le (Nat.le_of_eq hrest)] at heq
      -- the receiver restores the header from the bytes the sender had
      have hrecv : InSync port st₁ (states (compressedHdr pkt sid (plainHdrLen pkt)).sid) := hsync₁
      obtain ⟨r, hread, hport, hinc', hr⟩ := recvFrame_compressed states env.pad hpkt
        (Nat.mod_eq_of_lt (Nat.lt_of_le_of_lt (Nat.sub_le ..) hlen)) (by
          rw [hrecv.tsIncrement, (wireIncrement_eq_iff _).2 (hinc hfollows),
            decompress_congr _ _ hrecv.plain (hrecv.rtpHdrLen ▸ hrecv.rtpHdr)]
          exact heq ▸ hdec)
      rw [hrecv.dstport] at hread
      obtain ⟨st', hsave, hsync⟩ := saveHdr_inSync muxPacketId st₁ hpkt (hport.trans hrecv.dstport)
        (hinc'.trans hrecv.tsIncrement) hr
      refine ⟨st', _, r, by simp only [hsave, Option.map_some], ?_,
        .single shrinks_recvFrame hread, hsync⟩
      rw [length_append, length_drop]
      show 4 + (pkt.length - plainHdrLen pkt) ≤ pkt.length + 6
      omega
    · exact ⟨st', _, r, by simp only [hsave, Option.map_some], hle, hread, hsync⟩

end MuxStreamState

end Sems
