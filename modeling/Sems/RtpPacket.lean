import Sems.RtpMuxFrames

/-!
# RTP packets

`AmRtpPacket.parse` finds the payload of a packet behind the CSRC list and the extension and in
front of the padding. `WellFormed` says which packets have room for these parts. The parser takes an
extension without room for its header for none, takes a padding of no bytes and refuses one that
fills the packet; else it accepts the well-formed packets (`parse_iff_wellFormed`). `getRtpHdrLen`
of the multiplexer reads the length of the extension at another place (`getRtpHdrLen_iff`).
-/

namespace Sems

section Header

variable (pkt : List Byte)

def rtpVersion : BitVec 2 :=
  (byteAt pkt 0).extractLsb' 6 2

def rtpP : Bool :=
  (byteAt pkt 0).getLsbD 5

/-- The end of the CSRC list. -/
def csrcEnd : ℕ :=
  RTP_HDR_LEN + (rtpCc pkt).toNat * 4

/-- The number of words of the extension. -/
def extWords : ℕ :=
  (be16 pkt (csrcEnd pkt + 2)).toNat

/-- The last byte of the packet, the number of padding bytes. -/
def lastByte : ℕ :=
  (byteAt pkt (pkt.length - 1)).toNat

end Header

/-- What the parser finds in a packet. -/
structure AmRtpPacket where
  payload : Byte
  marker : Bool
  sequence : BitVec 16
  timestamp : BitVec 32
  ssrc : BitVec 32
  version : BitVec 2
  dataOffset : ℕ
  dSize : ℕ

namespace AmRtpPacket

variable {pkt : List Byte} {r : AmRtpPacket}

variable (pkt)

/-- The offset of the payload, `none` for an error. -/
def parseOffset : Option ℕ :=
  if pkt.length < RTP_HDR_LEN then none
  else if rtpVersion pkt ≠ 2 ∧ rtpVersion pkt ≠ 0 then none
  else if pkt.length < csrcEnd pkt then none
  else if rtpX pkt ∧ csrcEnd pkt + 4 ≤ pkt.length then
    let extSize := 4 + extWords pkt * 4
    if pkt.length - csrcEnd pkt < extSize then none else some (csrcEnd pkt + extSize)
  else some (csrcEnd pkt)

/-- The size of the payload that starts at an offset, `none` for an error. -/
def parseSize (dataOffset : ℕ) : Option ℕ :=
  let dSize := pkt.length - dataOffset
  if rtpP pkt then
    if dSize = 0 then none
    else if dSize ≤ lastByte pkt then none
    else some (dSize - lastByte pkt)
  else some dSize

/-- `parse` : `none` is the return value -1. -/
def parse : Option AmRtpPacket := do
  let dataOffset ← parseOffset pkt
  let dSize ← parseSize pkt dataOffset
  return ⟨(rtpPt pkt).setWidth 8, rtpM pkt, rtpSeq pkt, rtpTs pkt, rtpSsrc pkt, rtpVersion pkt,
    dataOffset, dSize⟩

/-- The payload of a parsed packet. -/
def getData (r : AmRtpPacket) (pkt : List Byte) : List Byte :=
  (pkt.drop r.dataOffset).take r.dSize

/-- `compile` : the packet for some data, `none` where an assertion fails. -/
def compile (r : AmRtpPacket) (data : List Byte) : Option (List Byte) :=
  if data.length = 0 ∨ 4096 < data.length + RTP_HDR_LEN then none
  else some ([0x80, BitVec.cons r.marker (r.payload.setWidth 7), r.sequence.extractLsb' 8 8,
    r.sequence.setWidth 8] ++ beBytes r.timestamp ++ beBytes r.ssrc ++ data)

/-! ## Well-formed packets -/

/-- The fixed header is there, with a version that is taken, and the CSRC list. -/
structure HeaderFits (pkt : List Byte) : Prop where
  fixed : RTP_HDR_LEN ≤ pkt.length
  version : rtpVersion pkt = 2 ∨ rtpVersion pkt = 0
  csrc : csrcEnd pkt ≤ pkt.length

/-- The end of the extension. -/
def headerEnd : ℕ :=
  csrcEnd pkt + if rtpX pkt then 4 + extWords pkt * 4 else 0

/-- The packet has room for everything it announces. -/
structure WellFormed (pkt : List Byte) : Prop extends HeaderFits pkt where
  ext : headerEnd pkt ≤ pkt.length
  padding : rtpP pkt → 1 ≤ lastByte pkt ∧ lastByte pkt ≤ pkt.length - headerEnd pkt

/-- The payload lies in the packet, behind the headers and in front of the padding. -/
def SliceOk (r : AmRtpPacket) : Prop :=
  headerEnd pkt ≤ r.dataOffset ∧
    r.dataOffset + r.dSize + (if rtpP pkt then lastByte pkt else 0) ≤ pkt.length

variable {pkt}

/-- The packets that are read as they should be : an extension has its header, if the padding does
not make up for it, and a padding has some bytes, but not all. -/
structure Regular (pkt : List Byte) : Prop where
  ext : rtpX pkt → csrcEnd pkt + 4 ≤ pkt.length ∨
    (rtpP pkt ∧ pkt.length - csrcEnd pkt ≤ lastByte pkt)
  padding : rtpP pkt → headerEnd pkt < pkt.length →
    lastByte pkt ≠ 0 ∧ lastByte pkt ≠ pkt.length - headerEnd pkt

theorem parse_eq_some : parse pkt = some r ↔ parseOffset pkt = some r.dataOffset ∧
    parseSize pkt r.dataOffset = some r.dSize ∧ r = ⟨(rtpPt pkt).setWidth 8, rtpM pkt, rtpSeq pkt,
      rtpTs pkt, rtpSsrc pkt, rtpVersion pkt, r.dataOffset, r.dSize⟩ := by
  simp only [parse, Option.bind_eq_bind, Option.bind_eq_some_iff, Option.pure_def,
    Option.some.injEq]
  constructor
  · rintro ⟨offset, hoffset, size, hsize, rfl⟩
    exact ⟨hoffset, hsize, rfl⟩
  · rintro ⟨hoffset, hsize, heq⟩
    exact ⟨_, hoffset, _, hsize, heq.symm⟩

theorem parseOffset_eq_some {offset : ℕ} : parseOffset pkt = some offset ↔ HeaderFits pkt ∧
    ((headerEnd pkt ≤ pkt.length ∧ offset = headerEnd pkt) ∨
      (rtpX pkt ∧ pkt.length < csrcEnd pkt + 4 ∧ offset = csrcEnd pkt)) := by
  rw [parseOffset, headerEnd]
  constructor
  · intro h
    split_ifs at h with hlen hver hcsrc hx
    · dsimp only at h
      split_ifs at h with hext
      refine ⟨⟨by omega, by tauto, by omega⟩, .inl ?_⟩
      rw [if_pos hx.1]
      exact ⟨by omega, (Option.some.inj h).symm⟩
    · obtain rfl := Option.some.inj h
      refine ⟨⟨by omega, by tauto, by omega⟩, ?_⟩
      split_ifs with hx'
      · exact .inr ⟨hx', Nat.not_le.1 fun hle => hx ⟨hx', hle⟩, rfl⟩
      · exact .inl ⟨Nat.not_lt.1 hcsrc, rfl⟩
  · rintro ⟨⟨hlen, hver, hcsrc⟩, h⟩
    rw [if_neg (Nat.not_lt.2 hlen), if_neg (by tauto), if_neg (Nat.not_lt.2 hcsrc)]
    rcases h with ⟨hend, rfl⟩ | ⟨hx, hshort, rfl⟩
    · by_cases hx : rtpX pkt
      · rw [if_pos hx] at hend
        rw [if_pos ⟨hx, by omega⟩, if_pos hx]
        exact if_neg (by omega)
      · rw [if_neg fun h => hx h.1, if_neg hx]
        rfl
    · rw [if_neg (by omega)]

theorem parseSize_eq_some {offset size : ℕ} : parseSize pkt offset = some size ↔
    (rtpP pkt → lastByte pkt < pkt.length - offset) ∧
      size = pkt.length - offset - if rtpP pkt then lastByte pkt else 0 := by
  rw [parseSize]
  split_ifs with hp hzero hlast <;> simp_all <;> omega

theorem exists_parse_eq_some : (∃ r, parse pkt = some r) ↔ ∃ offset,
    parseOffset pkt = some offset ∧ (rtpP pkt → lastByte pkt < pkt.length - offset) := by
  constructor
  · rintro ⟨r, hr⟩
    obtain ⟨hoffset, hsize, -⟩ := parse_eq_some.1 hr
    exact ⟨_, hoffset, (parseSize_eq_some.1 hsize).1⟩
  · rintro ⟨offset, hoffset, hlast⟩
    have hsize := parseSize_eq_some.2 ⟨hlast, rfl⟩
    exact ⟨⟨_, _, _, _, _, _, offset, _⟩, parse_eq_some.2 ⟨hoffset, hsize, rfl⟩⟩

theorem parse_iff_of_regular (h : HeaderFits pkt → Regular pkt) :
    (∃ r, parse pkt = some r) ↔ WellFormed pkt := by
  rw [exists_parse_eq_some]
  constructor
  · rintro ⟨offset, hoffset, hlast⟩
    obtain ⟨hfits, ⟨hend, rfl⟩ | ⟨hx, hshort, rfl⟩⟩ := parseOffset_eq_some.1 hoffset
    · refine ⟨hfits, hend, fun hp => ?_⟩
      have hlt := hlast hp
      have hne := (h hfits).padding hp (by omega)
      omega
    · rcases (h hfits).ext hx with hle | ⟨hp, hle⟩
      · omega
      · exact absurd (hlast hp) (by omega)
  · intro hwf
    refine ⟨_, parseOffset_eq_some.2 ⟨hwf.toHeaderFits, .inl ⟨hwf.ext, rfl⟩⟩, fun hp => ?_⟩
    have hpad := hwf.padding hp
    have hne := (h hwf.toHeaderFits).padding hp (by omega)
    omega

theorem regular_of_parse_iff (h : (∃ r, parse pkt = some r) ↔ WellFormed pkt)
    (hfits : HeaderFits pkt) : Regular pkt := by
  rw [exists_parse_eq_some] at h
  refine ⟨fun hx => ?_, fun hp hlt => ⟨fun hzero => ?_, fun hall => ?_⟩⟩
  · by_contra hcon
    rw [not_or, not_and, Nat.not_le, Nat.not_le] at hcon
    have hwf := h.1 ⟨_, parseOffset_eq_some.2 ⟨hfits, .inr ⟨hx, hcon.1, rfl⟩⟩, hcon.2⟩
    have hend := hwf.ext
    rw [headerEnd, if_pos hx] at hend
    omega
  · have hwf := h.1 ⟨_, parseOffset_eq_some.2 ⟨hfits, .inl ⟨Nat.le_of_lt hlt, rfl⟩⟩,
      fun _ => by omega⟩
    exact absurd (hwf.padding hp).1 (by omega)
  · obtain ⟨offset, hoffset, hlast⟩ := h.2 ⟨hfits, Nat.le_of_lt hlt, fun _ => by omega⟩
    have hlast := hlast hp
    obtain ⟨-, ⟨-, rfl⟩ | ⟨hx, hshort, rfl⟩⟩ := parseOffset_eq_some.1 hoffset
    · omega
    · rw [headerEnd, if_pos hx] at hlt
      omega

theorem dataOffset_of_wellFormed (h : WellFormed pkt) (hr : parse pkt = some r) :
    r.dataOffset = headerEnd pkt := by
  obtain ⟨-, ⟨-, hoffset⟩ | ⟨hx, hshort, -⟩⟩ := parseOffset_eq_some.1 (parse_eq_some.1 hr).1
  · exact hoffset
  · have hend := h.ext
    rw [headerEnd, if_pos hx] at hend
    omega

theorem sliceOk_of_wellFormed (h : WellFormed pkt) (hr : parse pkt = some r) : SliceOk pkt r := by
  obtain ⟨hlast, hsize⟩ := parseSize_eq_some.1 (parse_eq_some.1 hr).2.1
  have hend := h.ext
  rw [SliceOk, hsize]
  rw [dataOffset_of_wellFormed h hr] at hlast ⊢
  refine ⟨Nat.le_refl _, ?_⟩
  split_ifs with hp
  · have := hlast hp
    omega
  · omega

/-! ## Compiled packets -/

theorem ts_bytes (v : BitVec 32) : v.extractLsb' 24 8 ++ v.extractLsb' 16 8 ++
    v.extractLsb' 8 8 ++ v.setWidth 8 = v := by
  ext i hi
  simp only [BitVec.getElem_append, BitVec.getElem_setWidth, BitVec.getElem_extractLsb']
  split_ifs <;> grind

/-- A compiled packet is parsed, up to the highest bit of the payload type. -/
theorem parse_compile {data : List Byte} (hpos : 0 < data.length)
    (hfits : data.length + RTP_HDR_LEN ≤ 4096) (r : AmRtpPacket) :
    ∃ pkt r', r.compile data = some pkt ∧ parse pkt = some r' ∧ r'.getData pkt = data ∧
      r' = ⟨(r.payload.setWidth 7).setWidth 8, r.marker, r.sequence, r.timestamp, r.ssrc, 2,
        RTP_HDR_LEN, data.length⟩ := by
  have hpt : ∀ m (pt : BitVec 7), (BitVec.cons m pt).setWidth 7 = pt := by decide
  have hm : ∀ m (pt : BitVec 7), (BitVec.cons m pt).msb = m := by decide
  refine ⟨_, _, if_neg (by omega), ?_, ?_, rfl⟩
  · generalize hpkt : _ ++ data = pkt
    have hlen : pkt.length = RTP_HDR_LEN + data.length := by
      rw [← hpkt]
      exact (List.length_append ..).trans (congrArg (· + data.length) (by simp; rfl))
    have hfirst : byteAt pkt 0 = 0x80 := by
      rw [← hpkt]
      rfl
    obtain ⟨hx, hp, hend, hver⟩ : rtpX pkt = false ∧ rtpP pkt = false ∧
        csrcEnd pkt = RTP_HDR_LEN ∧ rtpVersion pkt = 2 := by
      rw [rtpX, rtpP, csrcEnd, rtpCc, rtpVersion, hfirst]
      decide
    refine parse_eq_some.2 ⟨parseOffset_eq_some.2 ⟨⟨?_, .inl hver, ?_⟩, .inl ?_⟩,
      parseSize_eq_some.2 ?_, ?_⟩
    · omega
    · omega
    · rw [headerEnd, hx, hend]
      exact ⟨by simp; omega, rfl⟩
    · simp [hp]
      omega
    · rw [hver, ← hpkt]
      simp [rtpPt, rtpM, rtpSeq, rtpTs, rtpSsrc, be16, be32, byteAt, beBytes, leBytes, hpt, hm,
        port_bytes, ts_bytes]
  · simp [getData, RTP_HDR_LEN, beBytes, leBytes]

/-- The parser accepts the well-formed packets, with a payload that leaves out everything else,
exactly if no announced part is missing in a way it overlooks, and a compiled packet is read back
exactly if the payload type has seven bits. -/
theorem parse_iff_wellFormed (pkt : List Byte) (r : AmRtpPacket) (data : List Byte) :
    ((((∃ r, parse pkt = some r) ↔ WellFormed pkt) ∧ ∀ r, parse pkt = some r → SliceOk pkt r) ↔
      (HeaderFits pkt → Regular pkt)) ∧
    (0 < data.length → data.length + RTP_HDR_LEN ≤ 4096 → ((∃ pkt r', r.compile data = some pkt ∧
      parse pkt = some r' ∧ r'.payload = r.payload ∧ r'.marker = r.marker ∧
        r'.sequence = r.sequence ∧ r'.timestamp = r.timestamp ∧ r'.ssrc = r.ssrc ∧
          r'.getData pkt = data) ↔ r.payload < 128)) := by
  have hpt : ∀ pt : Byte, (pt.setWidth 7).setWidth 8 = pt ↔ pt < 128 := by decide
  refine ⟨⟨fun h => regular_of_parse_iff h.1, fun h => ?_⟩, fun hpos hfits => ?_⟩
  · have hiff := parse_iff_of_regular h
    exact ⟨hiff, fun r hr => sliceOk_of_wellFormed (hiff.1 ⟨r, hr⟩) hr⟩
  · obtain ⟨pkt, r', hpkt, hparse, hdata, rfl⟩ := parse_compile hpos hfits r
    rw [← hpt]
    constructor
    · rintro ⟨pkt', r', hpkt', hparse', hpayload, -⟩
      obtain rfl := Option.some.inj (hpkt.symm.trans hpkt')
      obtain rfl := Option.some.inj (hparse.symm.trans hparse')
      exact hpayload
    · intro hpayload
      exact ⟨pkt, _, hpkt, hparse, hpayload, rfl, rfl, rfl, rfl, hdata⟩

/-- A padding that fills the packet is well formed, and refused. -/
theorem parse_padding_only : ∃ pkt, WellFormed pkt ∧ parse pkt = none := by
  refine ⟨0xA0 :: List.replicate 11 0 ++ [1], ⟨⟨?_, ?_, ?_⟩, ?_, ?_⟩, ?_⟩ <;> decide

/-- An audio packet, read back. -/
theorem parse_iff_wellFormed_audio : ∃ pkt r', compile ⟨8, true, 7, 160, 99, 2, 0, 0⟩ [1, 2, 3] =
    some pkt ∧ parse pkt = some r' ∧ r'.payload = 8 ∧ r'.marker = true ∧ r'.sequence = 7 ∧
      r'.timestamp = 160 ∧ r'.ssrc = 99 ∧ r'.getData pkt = [1, 2, 3] :=
  ((parse_iff_wellFormed [] _ _).2 (by decide) (by decide)).2 (by decide)

/-! ## The header length of the multiplexer -/

/-- The multiplexer finds the end of the headers of a well-formed packet exactly if it has no
extension, or the number read elsewhere in the packet is the number of words and one for the
extension's header. -/
theorem getRtpHdrLen_iff (hwf : WellFormed pkt) (hlen : pkt.length ≤ 4096)
    (hr : parse pkt = some r) :
    (getRtpHdrLen pkt = some r.dataOffset ∧ ∀ n, getRtpHdrLen pkt = some n → n ≤ pkt.length) ↔
      (rtpX pkt → csrcEnd pkt * RTP_HDR_LEN + 4 ≤ pkt.length ∧
        (be16 pkt (csrcEnd pkt * RTP_HDR_LEN + 2)).toNat % 2 ^ 14 = extWords pkt + 1) := by
  have hend := hwf.ext
  have hoffset := dataOffset_of_wellFormed hwf hr
  have hle : getRtpHdrLen pkt = some r.dataOffset → ∀ n, getRtpHdrLen pkt = some n →
      n ≤ pkt.length := by
    rintro h n hn
    rw [← Option.some.inj (h.symm.trans hn), hoffset]
    exact hend
  rw [and_iff_left_of_imp hle, hoffset, getRtpHdrLen, if_neg (Nat.not_lt.2 hwf.fixed)]
  rw [headerEnd] at hend ⊢
  change (if rtpX pkt then if pkt.length < csrcEnd pkt * RTP_HDR_LEN + 4 then none
    else some ((csrcEnd pkt + (be16 pkt (csrcEnd pkt * RTP_HDR_LEN + 2)).toNat * 4) % 2 ^ 16)
      else some (csrcEnd pkt)) = _ ↔ _
  split_ifs at hend ⊢ with hx hshort
  · simp [hx]
    omega
  · simp [hx]
    omega
  · simp [hx]

/-- A packet with an empty extension : the multiplexer leaves the header of the extension out. -/
theorem getRtpHdrLen_extension : ∃ pkt, WellFormed pkt ∧ pkt.length ≤ 4096 ∧
    (parse pkt).map dataOffset = some 16 ∧ getRtpHdrLen pkt = some 12 := by
  refine ⟨0x90 :: List.replicate 159 0, ⟨⟨?_, ?_, ?_⟩, ?_, ?_⟩, ?_, ?_, ?_⟩ <;> decide +kernel

/-- A packet with an extension, and with the right number where the multiplexer reads it. -/
theorem getRtpHdrLen_iff_extension : ∃ pkt r, rtpX pkt = true ∧ parse pkt = some r ∧
    getRtpHdrLen pkt = some r.dataOffset := by
  have hwf : WellFormed (0x90 :: List.replicate 145 0 ++ 0 :: 1 :: List.replicate 12 0) := by
    refine ⟨⟨?_, ?_, ?_⟩, ?_, ?_⟩ <;> decide +kernel
  obtain ⟨r, hr⟩ := Option.isSome_iff_exists.1 (show (parse (0x90 :: List.replicate 145 0 ++
    0 :: 1 :: List.replicate 12 0)).isSome by decide +kernel)
  exact ⟨_, r, rfl, hr, ((getRtpHdrLen_iff hwf (by decide +kernel) hr).2 (by decide +kernel)).1⟩

end AmRtpPacket

end Sems
