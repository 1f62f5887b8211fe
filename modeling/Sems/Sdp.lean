import Sems.ParseCommon

/-!
# Session descriptions

The parts of an SDP message (`core/AmSdp.h`) and the text `AmSdp::print` gives them
(`core/AmSdp.cpp`).

A number of the source's type `int` is a bit vector that is read as a signed number. What a media
line offers is `SdpMedia.formats` : the payload types if the transport is an RTP one, and the words
of `fmt` otherwise.
-/

namespace Sems

/-- The network type of a connection. -/
inductive NetworkType where
  | NT_OTHER
  | NT_IN
  deriving DecidableEq

/-- The address type of a connection. -/
inductive AddressType where
  | AT_NONE
  | AT_V4
  | AT_V6
  deriving DecidableEq

/-- The media types of the m= line. -/
inductive MediaType where
  | MT_NONE
  | MT_AUDIO
  | MT_VIDEO
  | MT_APPLICATION
  | MT_TEXT
  | MT_MESSAGE
  | MT_IMAGE
  deriving DecidableEq

/-- The transports of the m= line. -/
inductive TransProt where
  | TP_NONE
  | TP_RTPAVP
  | TP_RTPAVPF
  | TP_UDP
  | TP_RTPSAVP
  | TP_UDPTL
  | TP_RTPSAVPF
  | TP_UDPTLSRTPSAVP
  | TP_UDPTLSRTPSAVPF
  deriving DecidableEq

open NetworkType AddressType MediaType TransProt

/-- The c= line. -/
structure SdpConnection where
  network : NetworkType
  addrType : AddressType
  address : Str
  deriving DecidableEq

/-- No connection. -/
def SdpConnection.new : SdpConnection where
  network := NT_OTHER
  addrType := AT_NONE
  address := []

/-- The o= line. -/
structure SdpOrigin where
  user : Str
  sessId : BitVec 32
  sessV : BitVec 64
  conn : SdpConnection
  deriving DecidableEq

/-- The origin of a new description. -/
def SdpOrigin.new : SdpOrigin where
  user := []
  sessId := 0
  sessV := 0
  conn := .new

/-- A payload type, with its rtpmap and fmtp lines. -/
structure SdpPayload where
  type : MediaType
  payloadType : BitVec 32
  encodingName : Str
  clockRate : BitVec 32
  sdpFormatParameters : Str
  encodingParam : BitVec 32
  deriving DecidableEq

/-- A payload that is known by its number only. -/
def SdpPayload.ofType (type : MediaType) (payloadType : BitVec 32) : SdpPayload where
  type := type
  payloadType := payloadType
  encodingName := []
  clockRate := -1
  sdpFormatParameters := []
  encodingParam := -1

/-- A payload with a name. -/
def SdpPayload.named (payloadType : BitVec 32) (name : Str) (rate param : BitVec 32) :
    SdpPayload where
  type := MT_NONE
  payloadType := payloadType
  encodingName := name
  clockRate := rate
  sdpFormatParameters := []
  encodingParam := param

/-- An a= line that is not read any further. -/
structure SdpAttribute where
  name : Str
  value : Str
  deriving DecidableEq

/-- The values of `a=direction`. -/
inductive SdpDirection where
  | DirBoth
  | DirActive
  | DirPassive
  | DirUndefined
  deriving DecidableEq

open SdpDirection

/-- The m= line, and the lines up to the next one. -/
structure SdpMedia where
  type : MediaType
  port : BitVec 32
  nports : BitVec 32
  transport : TransProt
  conn : SdpConnection
  dir : SdpDirection
  fmt : Str
  send : Bool
  recv : Bool
  payloads : List SdpPayload
  attributes : List SdpAttribute
  deriving DecidableEq

/-- A media description before its lines are read. -/
def SdpMedia.new : SdpMedia where
  type := MT_NONE
  port := 0
  nports := 0
  transport := TP_NONE
  conn := .new
  dir := DirUndefined
  fmt := []
  send := true
  recv := true
  payloads := []
  attributes := []

/-- A session description. -/
structure AmSdp where
  version : BitVec 32
  origin : SdpOrigin
  sessionName : Str
  uri : Str
  conn : SdpConnection
  attributes : List SdpAttribute
  media : List SdpMedia
  deriving DecidableEq

/-- `clear`. -/
def AmSdp.new : AmSdp where
  version := 0
  origin := .new
  sessionName := []
  uri := []
  conn := .new
  attributes := []
  media := []

/-- The transports that have payload types as formats. -/
def TransProt.isRtp : TransProt → Bool
  | TP_RTPAVP | TP_RTPAVPF | TP_RTPSAVP | TP_RTPSAVPF | TP_UDPTLSRTPSAVP | TP_UDPTLSRTPSAVPF => true
  | TP_NONE | TP_UDP | TP_UDPTL => false

/-! ## Media lines -/

/-- A format of a media line. -/
inductive SdpFormat where
  | payload (payloadType : BitVec 32)
  | word (text : Str)
  deriving DecidableEq

/-- The formats that the m= line offers. -/
def SdpMedia.formats (m : SdpMedia) : List SdpFormat :=
  if m.transport.isRtp then m.payloads.map fun p => .payload p.payloadType
  else ((m.fmt.splitOn ' ').filter (· ≠ [])).map .word

/-- What the m= line itself says. -/
structure SdpMediaLine where
  type : MediaType
  port : BitVec 32
  transport : TransProt
  formats : List SdpFormat
  deriving DecidableEq

/-- The m= line of a media description. -/
def SdpMedia.line (m : SdpMedia) : SdpMediaLine where
  type := m.type
  port := m.port
  transport := m.transport
  formats := m.formats

/-! ## Printing -/

/-- The name of an address type. -/
def addr_t_2_str : AddressType → Str
  | AT_V4 => "IP4".toList
  | AT_V6 => "IP6".toList
  | AT_NONE => "<unknown address type>".toList

/-- The name of a media type. -/
def media_t_2_str : MediaType → Str
  | MT_AUDIO => "audio".toList
  | MT_VIDEO => "video".toList
  | MT_APPLICATION => "application".toList
  | MT_TEXT => "text".toList
  | MT_MESSAGE => "message".toList
  | MT_IMAGE => "image".toList
  | MT_NONE => "<unknown media type>".toList

/-- The name of a transport. -/
def transport_p_2_str : TransProt → Str
  | TP_RTPAVP => "RTP/AVP".toList
  | TP_RTPAVPF => "RTP/AVPF".toList
  | TP_UDP => "udp".toList
  | TP_RTPSAVP => "RTP/SAVP".toList
  | TP_RTPSAVPF => "RTP/SAVPF".toList
  | TP_UDPTLSRTPSAVP => "UDP/TLS/RTP/SAVP".toList
  | TP_UDPTLSRTPSAVPF => "UDP/TLS/RTP/SAVPF".toList
  | TP_UDPTL => "udptl".toList
  | TP_NONE => "<unknown media type>".toList

/-- A line of a type. -/
def sdpLine (c : Char) (text : Str) : Str :=
  c :: '=' :: (text ++ CRLF)

/-- `a=` and the text of an attribute. -/
def attrLine (text : Str) : Str :=
  sdpLine 'a' text

/-- The name, and the value if there is one. -/
def SdpAttribute.text (a : SdpAttribute) : Str :=
  if a.value = [] then a.name else a.name ++ ':' :: a.value

/-- `SdpAttribute::print`. -/
def SdpAttribute.print (a : SdpAttribute) : Str :=
  attrLine a.text

namespace SdpPayload

/-- The name, the rate and the parameter of a payload. -/
def rtpmapText (p : SdpPayload) : Str :=
  "rtpmap:".toList ++ long2str p.payloadType.toInt ++ ' ' :: p.encodingName ++
    '/' :: long2str p.clockRate.toInt ++
    (if 0 < p.encodingParam.toInt then '/' :: long2str p.encodingParam.toInt else [])

/-- The format parameters of a payload. -/
def fmtpText (p : SdpPayload) : Str :=
  "fmtp:".toList ++ long2str p.payloadType.toInt ++ ' ' :: p.sdpFormatParameters

/-- The `a=rtpmap:` and `a=fmtp:` lines of a payload. -/
def options (p : SdpPayload) : Str :=
  (if p.encodingName = [] then [] else attrLine p.rtpmapText) ++
    (if p.sdpFormatParameters = [] then [] else attrLine p.fmtpText)

end SdpPayload

namespace SdpMedia

variable (m : SdpMedia)

/-- The formats as they follow the transport. -/
def formatsText : Str :=
  if m.transport.isRtp then m.payloads.flatMap fun p => ' ' :: long2str p.payloadType.toInt
  else ' ' :: m.fmt

/-- What follows `m=`. -/
def lineText : Str :=
  media_t_2_str m.type ++ ' ' :: int2str m.port ++ ' ' :: transport_p_2_str m.transport ++
    m.formatsText

/-- The lines of the payloads, for an RTP transport. -/
def options : Str :=
  if m.transport.isRtp then m.payloads.flatMap SdpPayload.options else []

/-- The attribute for `send` and `recv`. -/
def sendRecvText : Str :=
  match m.send, m.recv with
  | true, true => "sendrecv".toList
  | true, false => "sendonly".toList
  | false, true => "recvonly".toList
  | false, false => "inactive".toList

/-- The `a=direction` line, if the direction is known. -/
def directionLine : Str :=
  match m.dir with
  | DirActive => attrLine "direction:active".toList
  | DirPassive => attrLine "direction:passive".toList
  | DirBoth => attrLine "direction:both".toList
  | DirUndefined => []

/-- The c= line of a media description, if it has one. -/
def connLine : Str :=
  if m.conn.address = [] then []
  else sdpLine 'c' ("IN ".toList ++ addr_t_2_str m.conn.addrType ++ ' ' :: m.conn.address)

/-- The lines of a media description, in their order. -/
def print : Str :=
  sdpLine 'm' m.lineText ++ m.connLine ++ m.options ++ attrLine m.sendRecvText ++
    m.attributes.flatMap SdpAttribute.print ++ m.directionLine

end SdpMedia

namespace AmSdp

/-- The type of an address, told by a dot in it. -/
def addressText (address : Str) : Str :=
  (if address.contains '.' then "IP4 ".toList else "IP6 ".toList) ++ address

/-- The address of the o= line, or else of the first c= line. -/
def originAddress (sdp : AmSdp) : Str :=
  if sdp.origin.conn.address ≠ [] then addressText sdp.origin.conn.address
  else if sdp.conn.address ≠ [] then addressText sdp.conn.address
  else
    match sdp.media with
    | m :: _ => if m.conn.address ≠ [] then addressText m.conn.address else "IP4 0.0.0.0".toList
    | [] => "IP4 0.0.0.0".toList

/-- What follows `o=`. -/
def originText (sdp : AmSdp) : Str :=
  sdp.origin.user ++ ' ' :: int2str sdp.origin.sessId ++ ' ' ::
    Nat.toDigits 10 sdp.origin.sessV.toNat ++ " IN ".toList ++ sdp.originAddress

/-- The c= line of the session, if it has one. -/
def connLine (sdp : AmSdp) : Str :=
  if sdp.conn.address = [] then []
  else sdpLine 'c' ("IN ".toList ++ addressText sdp.conn.address)

/-- `AmSdp::print`. -/
def print (sdp : AmSdp) : Str :=
  sdpLine 'v' (int2str sdp.version) ++ sdpLine 'o' sdp.originText ++ sdpLine 's' sdp.sessionName ++
    sdp.connLine ++ sdpLine 't' "0 0".toList ++ sdp.attributes.flatMap SdpAttribute.print ++
    sdp.media.flatMap SdpMedia.print

end AmSdp

end Sems
