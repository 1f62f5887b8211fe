import Sems.FrameLoop

/-!
# The RTP multiplexer

`MuxStreamQueue` puts the RTP packets for several ports of one receiver into common datagrams. A
packet goes as a setup frame, which has the whole packet, or as a compressed frame, which has the
payload and what is needed to restore the RTP header from the one before it. `AmRtpMuxStream`
takes the frames out of the datagrams and hands the packets on.

The headers of the frames are laid out as on a little-endian machine, where `rtp_mux_hdr_setup_t`
takes six bytes and `rtp_mux_hdr_compressed_t` four. A result of `none` means that bytes are read or
written outside of the packet, the datagram or an array.
-/

namespace Sems

open BitVec (cons ofNat)
open Function (update)

/-- An octet. -/
abbrev Byte := BitVec 8

/-- A UDP port. -/
abbrev Port := BitVec 16

/-! ## Bytes in memory -/

variable (l : List Byte) (i : ℕ)

/-- A byte of memory. It is only used where the byte is known to be there. -/
def byteAt : Byte :=
  l.getD i 0

/-- `ntohs` of the 16 bits at an offset. -/
def be16 : BitVec 16 :=
  byteAt l i ++ byteAt l (i + 1)

/-- `ntohl` of the 32 bits at an offset. -/
def be32 : BitVec 32 :=
  byteAt l i ++ byteAt l (i + 1) ++ byteAt l (i + 2) ++ byteAt l (i + 3)

/-- The bytes of a number in memory, the lowest first. -/
def leBytes (v : BitVec 32) : List Byte :=
  [v.setWidth 8, v.extractLsb' 8 8, v.extractLsb' 16 8, v.extractLsb' 24 8]

/-- The bytes of a number in network order. -/
def beBytes (v : BitVec 32) : List Byte :=
  (leBytes v).reverse

/-- The number `htonl` makes of another one. -/
def htonl (v : BitVec 32) : BitVec 32 :=
  be32 (leBytes v) 0

/-- Write some bytes at an offset. -/
def patch (bytes : List Byte) : List Byte :=
  l.take i ++ bytes ++ l.drop (i + bytes.length)

/-! ## The RTP header -/

/-- `sizeof(rtp_hdr_t)`. -/
def RTP_HDR_LEN : ℕ := 12

/-- Bytes of the saved header. -/
def MAX_RTP_HDR_LEN : ℕ := 64

variable (hdr : List Byte)

/-- The number of contributing sources. -/
def rtpCc : BitVec 4 :=
  (byteAt hdr 0).setWidth 4

/-- The extension bit. -/
def rtpX : Bool :=
  (byteAt hdr 0).getLsbD 4

/-- The payload type. -/
def rtpPt : BitVec 7 :=
  (byteAt hdr 1).setWidth 7

/-- The marker bit. -/
def rtpM : Bool :=
  (byteAt hdr 1).msb

/-- The sequence number. -/
def rtpSeq : BitVec 16 :=
  be16 hdr 2

/-- The timestamp. -/
def rtpTs : BitVec 32 :=
  be32 hdr 4

/-- The synchronization source. -/
def rtpSsrc : BitVec 32 :=
  be32 hdr 8

/-- Another marker bit. -/
def setM (m : Bool) : List Byte :=
  patch hdr 1 [cons m (rtpPt hdr)]

/-- Another sequence number. -/
def setSeq (seq : BitVec 16) : List Byte :=
  patch hdr 2 [seq.extractLsb' 8 8, seq.setWidth 8]

/-- Another timestamp. -/
def setTs (ts : BitVec 32) : List Byte :=
  patch hdr 4 (beBytes ts)

/-- `get_rtp_hdr_len`, `none` for a header that is cut off. -/
def getRtpHdrLen : Option ℕ :=
  if hdr.length < RTP_HDR_LEN then none
  else
    let hdrLen := RTP_HDR_LEN + (rtpCc hdr).toNat * 4
    if rtpX hdr then
      -- `hdr + hdr_len` goes over `hdr_len` headers, not bytes
      let xhdr := hdrLen * RTP_HDR_LEN
      if hdr.length < xhdr + 4 then none
      else some ((hdrLen + (be16 hdr (xhdr + 2)).toNat * 4) % 2 ^ 16)
    else some hdrLen

/-- `ts_less`. -/
def tsLess (l r : BitVec 32) : Bool :=
  (2 ^ 31 : BitVec 32) < l - r

/-- The header has changed so that it needs a setup frame. -/
def rtpHdrChanged (hdr1 hdr2 : List Byte) : Bool :=
  rtpPt hdr1 != rtpPt hdr2 || rtpSsrc hdr1 != rtpSsrc hdr2 || rtpCc hdr1 != rtpCc hdr2 ||
    rtpX hdr1 != rtpX hdr2 ||
    (tsLess (rtpTs hdr1) (rtpTs hdr2 - 40000) || !tsLess (rtpTs hdr1) (rtpTs hdr2 + 80000))

/-! ## The check sum of the timestamp -/

/-- The table of `crc4.cpp`. -/
def crcTable : List Byte :=
  [0x00, 0x03, 0x06, 0x05, 0x0c, 0x0f, 0x0a, 0x09, 0x0b, 0x08, 0x0d, 0x0e, 0x07, 0x04, 0x01, 0x02,
   0x05, 0x06, 0x03, 0x00, 0x09, 0x0a, 0x0f, 0x0c, 0x0e, 0x0d, 0x08, 0x0b, 0x02, 0x01, 0x04, 0x07,
   0x0a, 0x09, 0x0c, 0x0f, 0x06, 0x05, 0x00, 0x03, 0x01, 0x02, 0x07, 0x04, 0x0d, 0x0e, 0x0b, 0x08,
   0x0f, 0x0c, 0x09, 0x0a, 0x03, 0x00, 0x05, 0x06, 0x04, 0x07, 0x02, 0x01, 0x08, 0x0b, 0x0e, 0x0d,
   0x07, 0x04, 0x01, 0x02, 0x0b, 0x08, 0x0d, 0x0e, 0x0c, 0x0f, 0x0a, 0x09, 0x00, 0x03, 0x06, 0x05,
   0x02, 0x01, 0x04, 0x07, 0x0e, 0x0d, 0x08, 0x0b, 0x09, 0x0a, 0x0f, 0x0c, 0x05, 0x06, 0x03, 0x00,
   0x0d, 0x0e, 0x0b, 0x08, 0x01, 0x02, 0x07, 0x04, 0x06, 0x05, 0x00, 0x03, 0x0a, 0x09, 0x0c, 0x0f,
   0x08, 0x0b, 0x0e, 0x0d, 0x04, 0x07, 0x02, 0x01, 0x03, 0x00, 0x05, 0x06, 0x0f, 0x0c, 0x09, 0x0a,
   0x0e, 0x0d, 0x08, 0x0b, 0x02, 0x01, 0x04, 0x07, 0x05, 0x06, 0x03, 0x00, 0x09, 0x0a, 0x0f, 0x0c,
   0x0b, 0x08, 0x0d, 0x0e, 0x07, 0x04, 0x01, 0x02, 0x00, 0x03, 0x06, 0x05, 0x0c, 0x0f, 0x0a, 0x09,
   0x04, 0x07, 0x02, 0x01, 0x08, 0x0b, 0x0e, 0x0d, 0x0f, 0x0c, 0x09, 0x0a, 0x03, 0x00, 0x05, 0x06,
   0x01, 0x02, 0x07, 0x04, 0x0d, 0x0e, 0x0b, 0x08, 0x0a, 0x09, 0x0c, 0x0f, 0x06, 0x05, 0x00, 0x03,
   0x09, 0x0a, 0x0f, 0x0c, 0x05, 0x06, 0x03, 0x00, 0x02, 0x01, 0x04, 0x07, 0x0e, 0x0d, 0x08, 0x0b,
   0x0c, 0x0f, 0x0a, 0x09, 0x00, 0x03, 0x06, 0x05, 0x07, 0x04, 0x01, 0x02, 0x0b, 0x08, 0x0d, 0x0e,
   0x03, 0x00, 0x05, 0x06, 0x0f, 0x0c, 0x09, 0x0a, 0x08, 0x0b, 0x0e, 0x0d, 0x04, 0x07, 0x02, 0x01,
   0x06, 0x05, 0x00, 0x03, 0x0a, 0x09, 0x0c, 0x0f, 0x0d, 0x0e, 0x0b, 0x08, 0x01, 0x02, 0x07, 0x04]

/-- `crc_update`. -/
def crcUpdate (crc : Byte) (data : List Byte) : Byte :=
  data.foldl (fun (crc d : Byte) => crcTable.getD (crc <<< 4 ^^^ d).toNat 0 &&& 0xf) crc &&& 0xf

/-- `calc_crc4` : the bytes as they are in memory. -/
def calcCrc4 (ts : BitVec 32) : Byte :=
  crcUpdate 0 (leBytes ts)

/-! ## The headers of the frames -/

/-- `rtp_mux_hdr_setup_t`, without its type bit. -/
structure RtpMuxHdrSetup where
  sid : BitVec 7
  len : Byte
  dstport : Port
  u : Bool
  tsInc : BitVec 7
  deriving DecidableEq

/-- `rtp_mux_hdr_compressed_t`, without its type bit. -/
structure RtpMuxHdrCompressed where
  sid : BitVec 7
  len : Byte
  m : Bool
  snLsb : BitVec 3
  tsCrc4 : BitVec 4
  deriving DecidableEq

/-- The six bytes of a setup header. The last one is not written, it is what the queue had
there. -/
def RtpMuxHdrSetup.bytes (hdr : RtpMuxHdrSetup) (pad : Byte) : List Byte :=
  [cons false hdr.sid, hdr.len, hdr.dstport.extractLsb' 8 8, hdr.dstport.setWidth 8,
    cons hdr.u hdr.tsInc, pad]

/-- The four bytes of a compressed header. The last one is not written. -/
def RtpMuxHdrCompressed.bytes (hdr : RtpMuxHdrCompressed) (pad : Byte) : List Byte :=
  [cons true hdr.sid, hdr.len, cons hdr.m (hdr.snLsb ++ hdr.tsCrc4), pad]

/-- `calculate_ts_increment`. -/
def calculateTsIncrement (u : Bool) (tsInc : BitVec 7) : BitVec 16 :=
  if u then tsInc.setWidth 16 * 160 else tsInc.setWidth 16 * 40

/-- The multiplier bit for an increment. -/
def tsIncMultiplier (tsIncrement : BitVec 16) : Bool :=
  tsIncrement % 160 == 0

/-- The seven bits of the increment that go into a setup header. -/
def tsIncField (tsIncrement : BitVec 16) : BitVec 7 :=
  if tsIncMultiplier tsIncrement then (tsIncrement / 160).setWidth 7
  else (tsIncrement / 40).setWidth 7

/-! ## The state of a stream -/

/-- The array `rtp_hdr`. -/
def HdrArray : Type :=
  { l : List Byte // l.length = MAX_RTP_HDR_LEN }
  deriving DecidableEq

/-- `memcpy` of the first `n` bytes of `src`. -/
def HdrArray.store (a : HdrArray) (src : List Byte) (n : ℕ) : Option HdrArray :=
  if h : n ≤ src.length ∧ n ≤ MAX_RTP_HDR_LEN then
    some ⟨src.take n ++ a.1.drop n, by
      rw [List.length_append, List.length_take, List.length_drop, a.2]
      omega⟩
  else none

/-- What both sides keep of a stream. -/
structure MuxStreamState where
  dstport : Port
  tsIncrement : BitVec 16
  rtpHdr : HdrArray
  rtpHdrLen : ℕ
  setupFrameCtr : ℕ
  lastMuxPacketId : BitVec 32
  lastSetupFrameTs : BitVec 32
  deriving DecidableEq

/-- `MuxStreamState()` does not write the header. -/
def MuxStreamState.init (rtpHdr : HdrArray) : MuxStreamState where
  dstport := 0
  tsIncrement := 160
  rtpHdr := rtpHdr
  rtpHdrLen := 0
  setupFrameCtr := 0
  lastMuxPacketId := 0
  lastSetupFrameTs := 0

/-! ## Compressed headers -/

/-- `test_sns`, the sequence numbers that are tried. -/
def testSns : List (BitVec 16) :=
  [0, 8, 1, -8, 16, 32, 40, 48, -16]

/-- `rtp_hdr_seq`, the first sequence number with the three bits that is not below the old one. -/
def nextSeq (oldSeq : BitVec 16) (snLsb : BitVec 3) : BitVec 16 :=
  let seq := (oldSeq &&& 0xFFF8) + snLsb.setWidth 16
  if seq < oldSeq then seq + 8 else seq

/-- The header of a compressed frame, from the last one. -/
def decompress (c : RtpMuxHdrCompressed) (tsIncrement : BitVec 16) (oldHdr : List Byte) :
    Option (List Byte) :=
  match getRtpHdrLen oldHdr with
  | none => none
  | some hdrLen =>
    if oldHdr.length < hdrLen ∨ hdrLen < RTP_HDR_LEN then none
    else
      let rtpHdr := setM (oldHdr.take hdrLen) c.m
      let oldSeq := rtpSeq oldHdr
      let seq := nextSeq oldSeq c.snLsb
      let tsStep := fun sn => (sn - oldSeq).setWidth 32 * tsIncrement.setWidth 32
      let tsTest := fun d => rtpTs rtpHdr + tsStep (seq + d)
      match testSns.find? fun d => calcCrc4 (tsTest d) == c.tsCrc4.setWidth 8 with
      | some d => some (setSeq (setTs rtpHdr (tsTest d)) (seq + d))
      | none =>
        -- two numbers in network order are added, and the sequence number stays
        some (setTs rtpHdr (htonl (htonl (rtpTs rtpHdr) + htonl (tsStep seq))))

/-! ## The sender -/

/-- What `send` and `close` find : the clock, the configuration, a stale byte of the queue, and the
memory of a new stream state. -/
structure MuxEnv where
  wallClock : BitVec 32
  RtpMuxMTUThreshold : BitVec 32
  RtpMuxMaxFrameAgeMs : BitVec 32
  pad : Byte
  memory : HdrArray

/-- `MuxStreamQueue`, for a receiver that does not change. `buf` are the bytes up to `end_ptr`. -/
structure MuxStreamQueue where
  streamIds : Port → Option Byte
  streamstates : Byte → Option MuxStreamState
  buf : List Byte
  oldestFrame : BitVec 32
  oldestFrameI : Bool
  muxPacketId : BitVec 32

/-- A queue without streams. -/
def MuxStreamQueue.init : MuxStreamQueue where
  streamIds := fun _ => none
  streamstates := fun _ => none
  buf := []
  oldestFrame := 0
  oldestFrameI := false
  muxPacketId := 0

/-- Bytes of the queue. -/
def MAX_MUX_QUEUE_SIZE : ℕ := 4096

/-- The longest packet. -/
def RTP_MUX_MAX_FRAME_SIZE : ℕ := 256

/-- Setup frames at the start of a stream. -/
def MUX_SETUP_FRAME_REPEAT : ℕ := 3

/-- The time between setup frames. -/
def MUX_PERIODIC_SETUP_FRAME_MS : BitVec 32 := 500

/-- 20 ms at 8 kHz. -/
def DEFAULT_TS_INCREMENT : BitVec 16 := 160

/-- A tick of the clock has 20 ms. -/
def MuxEnv.intervalElapsed (env : MuxEnv) (oldWallClock intervalMs : BitVec 32) : Bool :=
  intervalMs ≤ (env.wallClock - oldWallClock) * 20

namespace MuxStreamState

variable (env : MuxEnv) (muxPacketId : BitVec 32) (st : MuxStreamState) (pkt : List Byte)

/-- The checks before a packet is compressed : the new state of the stream, and
`send_setup_frame`. -/
def checkSetup (hdrLen : ℕ) : MuxStreamState × Bool :=
  if rtpHdrChanged st.rtpHdr.1 pkt then
    ({ st with setupFrameCtr := MUX_SETUP_FRAME_REPEAT, tsIncrement := DEFAULT_TS_INCREMENT }, true)
  else if st.setupFrameCtr ≠ 0 ∧ st.lastMuxPacketId ≠ muxPacketId then
    ({ st with setupFrameCtr := st.setupFrameCtr - 1 }, true)
  else if st.lastMuxPacketId ≠ muxPacketId ∧
      env.intervalElapsed st.lastSetupFrameTs MUX_PERIODIC_SETUP_FRAME_MS then
    (st, true)
  else if hdrLen ≠ st.rtpHdrLen then (st, true)
  else if rtpTs pkt ≠ rtpTs st.rtpHdr.1 + st.tsIncrement.setWidth 32 then
    ({ st with tsIncrement := (rtpTs pkt - rtpTs st.rtpHdr.1).setWidth 16 }, true)
  else (st, false)

variable (sid : Byte) (port : Port)

/-- The header of a compressed frame. -/
def compressedHdr (hdrLen : ℕ) : RtpMuxHdrCompressed where
  sid := sid.setWidth 7
  len := ofNat 8 (pkt.length - hdrLen)
  m := rtpM pkt
  snLsb := (rtpSeq pkt).setWidth 3
  tsCrc4 := (calcCrc4 (rtpTs pkt)).setWidth 4

/-- The header of a setup frame. -/
def setupHdr : RtpMuxHdrSetup where
  sid := sid.setWidth 7
  len := ofNat 8 pkt.length
  dstport := port
  u := tsIncMultiplier st.tsIncrement
  tsInc := tsIncField st.tsIncrement

/-- A setup frame, and the state with its time. -/
def setupFrame : MuxStreamState × List Byte :=
  ({ st with lastSetupFrameTs := env.wallClock }, (st.setupHdr pkt sid port).bytes env.pad ++ pkt)

/-- The packet as a compressed frame, if the header can be restored, or as a setup frame. -/
def compressFrame (hdrLen : ℕ) : Option (MuxStreamState × List Byte) :=
  let c := compressedHdr pkt sid hdrLen
  match decompress c st.tsIncrement st.rtpHdr.1 with
  | none => none
  | some restored =>
    if restored.length < hdrLen ∨ pkt.length < hdrLen then none
    else if restored.take hdrLen = pkt.take hdrLen then
      some (st, c.bytes env.pad ++ pkt.drop hdrLen)
    else some (st.setupFrame env pkt sid port)

/-- Save the header of the packet. -/
def saveHdr (hdrLen : ℕ) : Option MuxStreamState :=
  (st.rtpHdr.store pkt hdrLen).map fun rtpHdr =>
    { st with lastMuxPacketId := muxPacketId, rtpHdrLen := hdrLen, rtpHdr := rtpHdr }

/-- The part of `send` that is about one stream : its new state and the frame. -/
def frame : Option (MuxStreamState × List Byte) :=
  match getRtpHdrLen pkt with
  | none => none
  | some hdrLen =>
    let framed := match st.checkSetup env muxPacketId pkt hdrLen with
      | (st, true) => some (st.setupFrame env pkt sid port)
      | (st, false) => st.compressFrame env pkt sid port hdrLen
    match framed with
    | none => none
    | some (st, bytes) => (st.saveHdr muxPacketId pkt hdrLen).map fun st => (st, bytes)

end MuxStreamState

/-- What `send` does : it returns -1, or queues the packet, and the queue may have been sent as a
datagram. -/
inductive MuxSent where
  | refused
  | queued (q : MuxStreamQueue) (datagram : Option (List Byte))

namespace MuxStreamQueue

variable (env : MuxEnv) (q : MuxStreamQueue)

/-- The first stream id that is not used. -/
def freeId : Option Byte :=
  ((List.range 256).find? fun sid => (q.streamstates (ofNat 8 sid)).isNone).map
    (ofNat 8)

/-- The stream id for a port. -/
def streamId (port : Port) : Option Byte :=
  match q.streamIds port with
  | some sid => some sid
  | none => q.freeId

/-- The frames go out when they are forced, old or enough. -/
def sendQueue (force : Bool) : MuxStreamQueue × Option (List Byte) :=
  let aged := q.oldestFrameI && env.intervalElapsed q.oldestFrame env.RtpMuxMaxFrameAgeMs
  let q := if q.oldestFrameI then q
    else { q with oldestFrame := env.wallClock, oldestFrameI := true }
  if force || aged || decide (env.RtpMuxMTUThreshold.toNat ≤ q.buf.length) then
    ({ q with buf := [], oldestFrameI := false, muxPacketId := q.muxPacketId + 1 }, some q.buf)
  else (q, none)

/-- The queue with a frame of one stream. -/
def enqueue (sid : Byte) (port : Port) (st : MuxStreamState) (bytes : List Byte) : MuxStreamQueue :=
  { q with
    streamIds := update q.streamIds port (some sid)
    streamstates := update q.streamstates sid (some st)
    buf := q.buf ++ bytes }

/-- `MuxStreamQueue::send`. -/
def send (pkt : List Byte) (port : Port) : Option MuxSent :=
  if RTP_MUX_MAX_FRAME_SIZE < pkt.length then some .refused
  else
    match q.streamId port with
    | none => some .refused
    | some sid =>
      let st := (q.streamstates sid).getD (.init env.memory)
      match st.frame env q.muxPacketId pkt sid port with
      | none => none
      | some (st, bytes) =>
        if MAX_MUX_QUEUE_SIZE < q.buf.length + bytes.length then none
        else
          let (q, datagram) := (q.enqueue sid port st bytes).sendQueue env false
          some (.queued q datagram)

/-- `close` for a destination port. -/
def close (port : Port) : MuxStreamQueue × Option (List Byte) :=
  if port = 0 then (q, none)
  else
    match q.streamIds port with
    | none => (q, none)
    | some sid =>
      let (q, datagram) := q.sendQueue env true
      ({ q with
          streamIds := update q.streamIds port none
          streamstates := update q.streamstates sid none }, datagram)

end MuxStreamQueue

/-! ## The receiver -/

/-- `recv_streamstates`, as far as the seven bits of a stream id reach. -/
abbrev RecvStates := BitVec 7 → MuxStreamState

variable (states : RecvStates)

/-- A setup frame with the header `b0, .., ts` and the bytes from the RTP header on. -/
def recvSetup (b0 len p1 p0 ts : Byte) (rtp : List Byte) :
    Option (RecvStates × (Port × List Byte) × List Byte) :=
  match getRtpHdrLen rtp with
  | none => none
  | some hdrLen =>
    let sid := b0.setWidth 7
    match (states sid).rtpHdr.store rtp hdrLen with
    | none => none
    | some rtpHdr =>
      if rtp.length < len.toNat then none
      else
        let st := { states sid with
          dstport := p1 ++ p0
          tsIncrement := calculateTsIncrement ts.msb (ts.setWidth 7)
          rtpHdrLen := hdrLen
          rtpHdr := rtpHdr }
        some (update states sid st, (st.dstport, rtp.take len.toNat), rtp.drop len.toNat)

/-- The fields of a compressed header. -/
def RtpMuxHdrCompressed.ofBytes (b0 len b2 : Byte) : RtpMuxHdrCompressed where
  sid := b0.setWidth 7
  len := len
  m := b2.msb
  snLsb := b2.extractLsb' 4 3
  tsCrc4 := b2.setWidth 4

/-- A compressed frame with its header and the bytes after it. -/
def recvCompressed (c : RtpMuxHdrCompressed) (data : List Byte) :
    Option (RecvStates × (Port × List Byte) × List Byte) :=
  let st := states c.sid
  match decompress c st.tsIncrement st.rtpHdr.1 with
  | none => none
  | some rtpPkt =>
    match getRtpHdrLen rtpPkt with
    | none => none
    | some hdrLen =>
      match st.rtpHdr.store rtpPkt hdrLen with
      | none => none
      | some rtpHdr =>
        if data.length < c.len.toNat then none
        else
          let st := { st with rtpHdrLen := hdrLen, rtpHdr := rtpHdr }
          some (update states c.sid st,
            (st.dstport, rtpPkt.take hdrLen ++ data.take c.len.toNat), data.drop c.len.toNat)

/-- One turn of the loop of `recvPacket`. -/
def recvFrame : List Byte → Option (RecvStates × (Port × List Byte) × List Byte)
  | b0 :: len :: b2 :: b3 :: data =>
    if b0.msb then recvCompressed states (.ofBytes b0 len b2) data
    else
      match data with
      | ts :: _ :: rtp => recvSetup states b0 len b2 b3 ts rtp
      | _ => none
  | _ => none

/-- The packets that `recvPacket` hands on, for one datagram after the other. -/
def recvPackets (datagrams : List (List Byte)) : Option (RecvStates × List (Port × List Byte)) :=
  readEach recvFrame states datagrams

end Sems
