import Sems.Sdp

/-!
# The parser of session descriptions

`AmSdp::parse` (`core/AmSdp.cpp`) goes over a text that ends with a NUL. A pointer into the text is
what is left of it, and one behind the terminator is `none`.

`parse_until` looks for its character in all of the text. Where that leads outside of the text, or
to a variable that was not set, there is no result (`SdpError.outside`), and a string of a negative
length ends the parser with an exception. The o= line is skipped.
-/

namespace Sems

open NetworkType AddressType MediaType TransProt SdpDirection

/-- How the parser ends without a description. -/
inductive SdpError where
  | outside
  | lengthError
  | rejected
  deriving DecidableEq

/-! ## Pointers -/

/-- `get_next_line`. A carriage return without a line feed is skipped. -/
def getNextLine : Str → Str
  | [] => []
  | '\r' :: '\n' :: s => s
  | c :: s => if c = '\n' then s else getNextLine s

/-- The length `skip_till_next_line` gives, where carriage returns are not counted. -/
def lineLen : Str → ℕ
  | [] => 0
  | '\r' :: '\n' :: _ => 0
  | c :: s => if c = '\n' then 0 else if c = '\r' then lineLen s else lineLen s + 1

variable (s : Str)

/-- The text of the line. -/
def lineText : Str :=
  s.take (lineLen s)

/-- `is_eql_next` : behind the letter and the `=`. -/
def isEqlNext : Str → Except SdpError Str
  | _ :: _ :: s => .ok s
  | _ => .error .outside

/-- `contains`, which looks at what is before the last character of the line. -/
def containsBefore (c : Char) (nextLine : Str) : Str → Bool
  | [] => false
  | x :: s => s.length ≠ nextLine.length && (x = c || containsBefore c nextLine s)

/-- `parse_until` : behind the next `c`. -/
def parseUntil (c : Char) : Str → Option Str
  | [] => none
  | x :: s => if x = c then some s else parseUntil c s

/-- What `parse_until` goes over. -/
def upTo (c : Char) (s : Str) : Str :=
  s.takeWhile (· ≠ c)

/-- The character a pointer points to is read. -/
def deref : Option Str → Except SdpError Str
  | some s => .ok s
  | none => .error .outside

/-- The text between two pointers. -/
def between (s next : Str) : Str :=
  s.take (s.length - next.length)

/-- The string from `s` to `k` characters before `next`. -/
def stringBefore (s next : Str) (k : ℕ) : Except SdpError Str :=
  if s.length < next.length + k then .error .lengthError
  else .ok (s.take (s.length - next.length - k))

/-! ## Media lines -/

/-- `media_type`. -/
def media_type (media : Str) : MediaType :=
  if media = "audio".toList then MT_AUDIO
  else if media = "video".toList then MT_VIDEO
  else if media = "application".toList then MT_APPLICATION
  else if media = "text".toList then MT_TEXT
  else if media = "message".toList then MT_MESSAGE
  else if media = "image".toList then MT_IMAGE
  else MT_NONE

/-- `transport_type`. -/
def transport_type (transport : Str) : TransProt :=
  let transport := transport.map Char.toUpper
  if transport = "RTP/AVP".toList then TP_RTPAVP
  else if transport = "RTP/AVPF".toList then TP_RTPAVPF
  else if transport = "UDP".toList then TP_UDP
  else if transport = "RTP/SAVP".toList then TP_RTPSAVP
  else if transport = "RTP/SAVPF".toList then TP_RTPSAVPF
  else if transport = "UDP/TLS/RTP/SAVP".toList then TP_UDPTLSRTPSAVP
  else if transport = "UDP/TLS/RTP/SAVPF".toList then TP_UDPTLSRTPSAVPF
  else if transport = "UDPTL".toList then TP_UDPTL
  else TP_NONE

/-- The state PORT : the port, the number of ports, and where the parser goes on, which is before
that number if there is one. -/
def parseMediaPort : Except SdpError (BitVec 32 × BitVec 32 × Option Str) :=
  if (upTo ' ' s).contains '/' then do
    let next ← deref (parseUntil '/' s)
    let port := (str2i (upTo '/' s)).getD 0
    let nports := (str2i (upTo ' ' next)).getD 0
    return (.ofNat 32 port, .ofNat 32 nports, some next)
  else return (.ofNat 32 ((str2i (upTo ' ' s)).getD 0), 0, parseUntil ' ' s)

/-- The payload for one format. `prev` is the variable for its number, which is not set at first and
keeps its value if the format is no number. -/
def formatPayload (type : MediaType) (prev : Option ℕ) (value : Str) :
    Except SdpError (ℕ × SdpPayload) :=
  match str2i value <|> prev with
  | some pt => .ok (pt, .ofType type (.ofNat 32 pt))
  | none => .error .outside

/-- The last format of a line. -/
def lastFormat (s lineEnd : Str) : Str :=
  if lineEnd = [] then between s lineEnd else (between s lineEnd).dropLast

/-- The state FMT for an RTP transport, where every turn takes one character at least. -/
def parseFormats (type : MediaType) (lineEnd : Str) :
    ℕ → Option ℕ → Str → Except SdpError (List SdpPayload)
  | 0, _, _ => .ok []
  | n + 1, prev, s =>
    if containsBefore ' ' lineEnd s then do
      let next ← deref (parseUntil ' ' s)
      if upTo ' ' s = [] then parseFormats type lineEnd n prev next
      else
        let (pt, payload) ← formatPayload type prev (upTo ' ' s)
        let payloads ← parseFormats type lineEnd n (some pt) next
        return payload :: payloads
    else if lastFormat s lineEnd = [] then .ok []
    else do
      let (_, payload) ← formatPayload type prev (lastFormat s lineEnd)
      return [payload]

/-- The state FMT for the other transports. A format of one character is lost. -/
def parseFmt (next : Option Str) (lineEnd : Str) : Str :=
  match next with
  | none => []
  | some s =>
    let fmt := (between s lineEnd).rdropWhile fun c => c = '\r' || c = '\n'
    if fmt.length ≤ 1 then [] else fmt

/-- The states PROTO and FMT. -/
def parseProto (type : MediaType) (lineEnd : Str) (port nports : BitVec 32) (s : Str) :
    Except SdpError SdpMedia :=
  let m := { SdpMedia.new with
    type, port, nports, transport := transport_type (upTo ' ' s), dir := DirBoth }
  if m.transport.isRtp then do
    let s ← deref (parseUntil ' ' s)
    return { m with payloads := ← parseFormats type lineEnd s.length none s }
  else return { m with fmt := parseFmt (parseUntil ' ' s) lineEnd }

/-- `parse_sdp_media`. -/
def parseSdpMedia : Except SdpError SdpMedia := do
  let (port, nports, next) ← parseMediaPort (← deref (parseUntil ' ' s))
  parseProto (media_type (upTo ' ' s)) (getNextLine s) port nports (← deref next)

/-! ## Attributes -/

/-- The states ENC_PARAM of an rtpmap attribute. -/
def parseEncParam (lineEnd : Str) : ℕ → ℕ → Str → Except SdpError ℕ
  | n + 1, param, s =>
    match parseUntil ' ' s with
    | some next =>
      if lineEnd.length < next.length then
        parseEncParam lineEnd n ((str2i (upTo ' ' s)).getD param) next
      else do return (str2i (← stringBefore s lineEnd 1)).getD param
    | none => do return (str2i (← stringBefore s lineEnd 1)).getD param
  | 0, param, s => do return (str2i (← stringBefore s lineEnd 1)).getD param

/-- The states CLK_RATE and after : the clock rate and the encoding parameter. -/
def parseClkRate (lineEnd s : Str) : Except SdpError (ℕ × ℕ) :=
  if containsBefore '/' lineEnd s then do
    let next ← deref (parseUntil '/' s)
    return ((str2i (upTo '/' s)).getD 0, ← parseEncParam lineEnd next.length 0 next)
  else do
    let rate ← stringBefore s lineEnd (if lineEnd = [] then 0 else 1)
    return ((str2i rate).getD 0, 0)

/-- The value of an rtpmap attribute. `line` is the text of the whole attribute. -/
def parseRtpmap (line lineEnd value : Str) : Except SdpError SdpPayload := do
  let pt := (str2i (upTo ' ' value)).getD 0
  let s ← deref (parseUntil ' ' value)
  if containsBefore '/' lineEnd line then
    let (rate, param) ← parseClkRate lineEnd (← deref (parseUntil '/' s))
    return .named (.ofNat 32 pt) (upTo '/' s) (.ofNat 32 rate) (.ofNat 32 param)
  else
    return .named (.ofNat 32 pt) [] 0 (.ofNat 32 (← parseEncParam lineEnd s.length 0 s))

/-- The parameters of an fmtp attribute. One character is no parameter. -/
def formatParams (s lineEnd : Str) : Str :=
  let params := (between s lineEnd).rdropWhile fun c =>
    c = ' ' || c = '\r' || c = '\n' || c = '\t'
  if params.length ≤ 1 then [] else params

/-- The value of an fmtp attribute : the payload type and the parameters. -/
def parseFmtp (lineEnd value : Str) : Except SdpError (BitVec 32 × Str) :=
  if (between value lineEnd).contains ' ' then
    let pt := (str2i (upTo ' ' value)).getD 0
    .ok (.ofNat 32 pt, formatParams ((parseUntil ' ' value).getD []) lineEnd)
  else do
    let pt := (str2i (← stringBefore value lineEnd 1)).getD 0
    return (.ofNat 32 pt, formatParams lineEnd lineEnd)

/-- The first payload with a number is changed. -/
def updatePayload (pt : BitVec 32) (f : SdpPayload → SdpPayload) : List SdpPayload → List SdpPayload
  | [] => []
  | p :: ps => if p.payloadType = pt then f p :: ps else p :: updatePayload pt f ps

/-- The name of an attribute of a media line, and its value if there is one. -/
def splitAttr : Str × Option Str :=
  if containsBefore ':' (getNextLine s) s then (upTo ':' s, some ((parseUntil ':' s).getD []))
  else (lineText s, none)

/-- The attribute `direction`, where the source compares the name and not the value with `both`. -/
def parseDirection (m : SdpMedia) (value : Str) : SdpMedia :=
  if lineText value = "active".toList then { m with dir := DirActive }
  else if lineText value = "passive".toList then { m with dir := DirPassive }
  else m

/-- The payload of an rtpmap attribute, also if it has no value. -/
def rtpmapPayload (value : Option Str) : Except SdpError SdpPayload :=
  match value with
  | some value => parseRtpmap s (getNextLine s) value
  | none => .ok (.named 0 [] 0 0)

/-- The number and the parameters of an fmtp attribute, also if it has no value. -/
def fmtpParams (value : Option Str) : Except SdpError (BitVec 32 × Str) :=
  match value with
  | some value => parseFmtp (getNextLine s) value
  | none => .ok (0, [])

/-- `parse_sdp_attr`, on the last media line. -/
def parseSdpAttr (m : SdpMedia) : Except SdpError SdpMedia :=
  let (attr, value) := splitAttr s
  if attr = "rtpmap".toList then do
    let p ← rtpmapPayload s value
    return { m with payloads := updatePayload p.payloadType (fun _ => p) m.payloads }
  else if attr = "fmtp".toList then do
    let (pt, params) ← fmtpParams s value
    return { m with
      payloads := updatePayload pt (fun p => { p with sdpFormatParameters := params }) m.payloads }
  else if attr = "direction".toList then .ok (value.elim m (parseDirection m))
  else if attr = "sendrecv".toList then .ok { m with send := true, recv := true }
  else if attr = "sendonly".toList then .ok { m with send := true, recv := false }
  else if attr = "recvonly".toList then .ok { m with send := false, recv := true }
  else if attr = "inactive".toList then .ok { m with send := false, recv := false }
  else .ok { m with attributes := m.attributes ++ [⟨attr, value.elim [] lineText⟩] }

/-- `parse_session_attr`. `eq` is the character before the text. -/
def parseSessionAttr (eq : Char) (s : Str) : Except SdpError (List SdpAttribute) :=
  if s = [] then .ok []
  else
    let attr := (between s (getNextLine s)).rdropWhile fun c => c = '\n' || c = '\r'
    if attr.getLastD eq = ':' then .ok []
    else if attr = [] then .error .lengthError
    else if (upTo ':' attr).length + 2 < attr.length then
      .ok [⟨upTo ':' attr, attr.drop ((upTo ':' attr).length + 1)⟩]
    else .ok [⟨attr, []⟩]

/-! ## The other lines -/

/-- The address of a c= line. A TTL behind it takes its last character away. -/
def connAddress : Except SdpError Str :=
  if containsBefore '/' (getNextLine s) (s.drop 7) then do
    let next ← deref (parseUntil '/' s)
    stringBefore (s.drop 7) next 2
  else .ok ((s.drop 7).take (lineLen s - 7))

/-- `parse_sdp_connection` : the connection, unless the line is too short. -/
def parseSdpConnection : Except SdpError (Option SdpConnection) :=
  if lineLen s ≤ 7 then .ok none
  else
    let addrType := ((s.drop 3).take 3).map Char.toUpper
    if addrType = "IP4".toList then do return some ⟨NT_IN, AT_V4, ← connAddress s⟩
    else if addrType = "IP6".toList then do return some ⟨NT_IN, AT_V6, ← connAddress s⟩
    else .ok (some ⟨NT_IN, AT_NONE, []⟩)

/-! ## The text -/

/-- The states of `parse_sdp_line_ex`. -/
inductive SdpParseSt where
  | SDP_DESCR
  | SDP_MEDIA
  deriving DecidableEq

/-- The last media line is changed. -/
def modifyLast (f : SdpMedia → Except SdpError SdpMedia) (sdp : AmSdp) : Except SdpError AmSdp :=
  match sdp.media.getLast? with
  | none => .ok sdp
  | some m => do return { sdp with media := sdp.media.dropLast ++ [← f m] }

/-- A line of the session, after its first two characters. -/
def parseDescrLine (c eq : Char) (s : Str) (sdp : AmSdp) : Except SdpError AmSdp :=
  if c = 'v' then
    let version :=
      if lineLen s = 0 then 0 else ((str2i (lineText s)).map (BitVec.ofNat 32)).getD sdp.version
    .ok { sdp with version }
  else if c = 's' then .ok { sdp with sessionName := lineText s }
  else if c = 'u' then .ok { sdp with uri := lineText s }
  else if c = 'a' then do
    return { sdp with attributes := sdp.attributes ++ (← parseSessionAttr eq s) }
  else if c = 'c' then do return { sdp with conn := (← parseSdpConnection s).getD sdp.conn }
  else .ok sdp

/-- A line of a media description, after its first two characters. -/
def parseMediaLine (c : Char) (s : Str) (sdp : AmSdp) : Except SdpError AmSdp :=
  if c = 'm' then do return { sdp with media := sdp.media ++ [← parseSdpMedia s] }
  else if c = 'c' then do
    match ← parseSdpConnection s with
    | some conn => modifyLast (fun m => .ok { m with conn }) sdp
    | none => return sdp
  else if c = 'a' then modifyLast (parseSdpAttr s) sdp
  else .ok sdp

/-- The lines the parser knows. -/
def knownLine (st : SdpParseSt) (c : Char) : Bool :=
  match st with
  | .SDP_DESCR => "vosuiepbtkac".toList.contains c
  | .SDP_MEDIA => "micbka".toList.contains c

/-- The state for a line : with the first m= line the media descriptions begin. -/
def lineState (st : SdpParseSt) (c : Char) : SdpParseSt :=
  if c = 'm' then .SDP_MEDIA else st

/-- A known line, after its first two characters. -/
def parseKnownLine (st : SdpParseSt) (c eq : Char) (s : Str) (sdp : AmSdp) :
    Except SdpError AmSdp :=
  match st with
  | .SDP_DESCR => parseDescrLine c eq s sdp
  | .SDP_MEDIA => parseMediaLine c s sdp

/-- A line from its first character on : what is changed and what follows. Before the media
descriptions an unknown line is taken for the URI. -/
def parseLine (st : SdpParseSt) (c : Char) (s : Str) (sdp : AmSdp) :
    Except SdpError (Str × AmSdp) :=
  if knownLine st c then do
    let body ← isEqlNext (c :: s)
    let sdp ← parseKnownLine st c (s.headD ' ') body sdp
    return (getNextLine body, sdp)
  else
    match st with
    | .SDP_DESCR => .ok (getNextLine (c :: s), { sdp with uri := lineText (c :: s) })
    | .SDP_MEDIA => .ok (getNextLine (c :: s), sdp)

/-- The loop of `parse_sdp_line_ex`, where every turn takes one character at least. -/
def parseLines : ℕ → SdpParseSt → Str → AmSdp → Except SdpError AmSdp
  | n + 1, st, c :: s, sdp => do
    let (next, sdp) ← parseLine (lineState st c) c s sdp
    parseLines n (lineState st c) next sdp
  | _, _, _, sdp => .ok sdp

namespace AmSdp

/-- The connection must be given for the session or for every media line. -/
def lacksConnection (sdp : AmSdp) : Bool :=
  sdp.conn.address = [] && sdp.media.any fun m => m.conn.address = []

/-- A payload has no clock rate. -/
def zeroClockRate (sdp : AmSdp) : Bool :=
  sdp.media.any fun m => m.payloads.any fun p => p.clockRate = 0

/-- `AmSdp::parse`, up to the NUL. -/
def parse (text : Str) : Except SdpError AmSdp := do
  let text := text.takeWhile (· ≠ '\x00')
  let sdp ← parseLines text.length .SDP_DESCR text .new
  if sdp.lacksConnection || sdp.zeroClockRate then .error .rejected else return sdp

end AmSdp

end Sems
