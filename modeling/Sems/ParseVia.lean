import Sems.ParseUri

/-!
# Via headers

`parse_via` (`core/sip/parse_via.cpp`) : the transport, the sent-by address and the parameters of
every element of the header.
-/

namespace Sems

/-! ## The transport -/

inductive TransportType where
  | UDP
  | TCP
  | TLS
  | SCTP
  | OTHER
  deriving DecidableEq, Repr

/-- `sip_transport`. -/
structure SipTransport where
  type : TransportType
  val : Str
  deriving DecidableEq, Repr

/-- The text starts with `SIP/2.0`, the first three letters in either case. -/
def parseSipVersion (s : Str) : Bool :=
  startsWith "sip".toList (s.take 3) && (s.drop 3).take 4 == "/2.0".toList

/-- A character that ends the name of a transport. -/
def endsTransport (c : Char) : Bool :=
  c == '\x00' || c == '\r' || c == '\n' || c == ' '

/-- The state `TR_OTHER`, after the characters `val`. -/
def otherTransport (val s : Str) : SipTransport × Str :=
  (⟨.OTHER, val ++ s.takeWhile fun c => !endsTransport c⟩, s.dropWhile fun c => !endsTransport c)

/-- After the name of a known transport. At the end of the text it is not taken as known. -/
def knownTransport (type : TransportType) (val : Str) : Str → SipTransport × Str
  | [] => (⟨.OTHER, val⟩, [])
  | c :: cs =>
    if c = '\x00' then (⟨.OTHER, val⟩, c :: cs)
    else if endsTransport c then (⟨type, val⟩, c :: cs)
    else otherTransport (val ++ [c]) cs

/-- The name of a transport : the letters of a known one, or any other. -/
def transportName (s : Str) : SipTransport × Str :=
  match s with
  | [] => (⟨.OTHER, []⟩, [])
  | c :: cs =>
    if c = '\x00' then (⟨.OTHER, []⟩, s)
    else if startsWith "udp".toList s then knownTransport .UDP (s.take 3) (s.drop 3)
    else if startsWith "tls".toList s then knownTransport .TLS (s.take 3) (s.drop 3)
    else if startsWith "tcp".toList s then knownTransport .TCP (s.take 3) (s.drop 3)
    else if startsWith "sctp".toList s then knownTransport .SCTP (s.take 4) (s.drop 4)
    else if isLetter 't' c then
      -- the next character is read whatever it is
      match cs with
      | [] => (⟨.OTHER, [c]⟩, [])
      | d :: ds => if d = '\x00' then (⟨.OTHER, [c]⟩, cs) else otherTransport [c, d] ds
    else otherTransport [c] cs

/-- The transport, and the text from the character after it on. -/
def parseTransport (s : Str) : Except ParseErr (SipTransport × Str) :=
  if s.length < 9 then .error .MALFORMED_SIP_MSG
  else if !parseSipVersion s then .error .MALFORMED_SIP_MSG
  else
    match s.drop 7 with
    | '/' :: cs => .ok (transportName cs)
    | _ => .error .MALFORMED_SIP_MSG

/-! ## The address -/

inductive ByState where
  | BY_HOST
  | BY_HOST_V6
  | BY_COLON
  | BY_PORT_SWS
  | BY_PORT
  | ST_CR
  | ST_LF
  | ST_CRLF
  deriving DecidableEq, Repr

/-- What `parse_by` reads. -/
structure SentBy where
  host : Str
  port : Str
  portI : ℕ
  deriving DecidableEq, Repr

/-- The state of the loop of `parse_by`. -/
structure ByParser where
  st : ByState
  saved : ByState
  /-- The text from `beg` to the cursor. -/
  cur : Str
  by_ : SentBy

namespace ByParser

variable (p : ByParser)

def push (c : Char) : ByParser :=
  { p with cur := p.cur ++ [c] }

def lineEnd (c : Char) : ByParser :=
  { p.push c with saved := p.st, st := if c = '\r' then .ST_CR else .ST_LF }

/-- After the label `end_by`. -/
def finish : Except ParseErr SentBy :=
  match p.st with
  | .BY_HOST => .ok { p.by_ with host := p.cur }
  | .BY_PORT => .ok { p.by_ with port := p.cur }
  | .ST_LF | .ST_CRLF | .BY_COLON => .ok p.by_
  | _ => .error .UNDEFINED_ERR

/-- `goto end_by`. -/
def endBy : Scan ByParser SentBy ParseErr :=
  match p.finish with
  | .ok r => .stop r
  | .error e => .fail e

/-- A character in the state `BY_PORT`. A line end is not a digit. -/
def portChar (c : Char) : Scan ByParser SentBy ParseErr :=
  if isWsp c ∨ c = ';' then p.endBy
  else if !isDigit c then .fail .MALFORMED_SIP_MSG
  else if 65535 < p.by_.portI * 10 + digitVal c then .fail .MALFORMED_SIP_MSG
  else .next { p.push c with by_ := { p.by_ with portI := p.by_.portI * 10 + digitVal c } }

/-- After the end of a line. -/
def afterEol (c : Char) : ByParser :=
  if p.saved = .BY_HOST then
    { p.push c with
      st := .BY_COLON
      saved := .BY_COLON
      by_ := { p.by_ with
        host := p.cur.take (p.cur.length - if p.st = .ST_CRLF then 2 else 1) } }
  else { p.push c with st := p.saved }

/-- The loop body of `parse_by`. -/
def char (c : Char) : Scan ByParser SentBy ParseErr :=
  match p.st with
  | .BY_HOST =>
    if c = '\r' ∨ c = '\n' then .next (p.lineEnd c)
    else if c = '[' then .next { p.push c with st := .BY_HOST_V6 }
    else if c = ':' then
      .next { p.push c with st := .BY_PORT_SWS, by_ := { p.by_ with host := p.cur } }
    else if c = ';' then p.endBy
    else if isWsp c then
      .next { p.push c with st := .BY_COLON, by_ := { p.by_ with host := p.cur } }
    else .next (p.push c)
  | .BY_HOST_V6 =>
    if c = ']' then
      .next { p.push c with st := .BY_COLON, by_ := { p.by_ with host := p.cur ++ [c] } }
    else if isWsp c ∨ c = '\r' ∨ c = '\n' then .fail .MALFORMED_SIP_MSG
    else .next (p.push c)
  | .BY_COLON =>
    if c = '\r' ∨ c = '\n' then .next (p.lineEnd c)
    else if c = ':' then .next { p.push c with st := .BY_PORT_SWS }
    else if c = ';' then p.endBy
    else if isWsp c then .next (p.push c)
    else .fail .MALFORMED_SIP_MSG
  | .BY_PORT_SWS =>
    if c = '\r' ∨ c = '\n' then .next (p.lineEnd c)
    else if isWsp c then .next (p.push c)
    else portChar { p with st := .BY_PORT, cur := [], by_ := { p.by_ with portI := 0 } } c
  | .BY_PORT => p.portChar c
  | .ST_CR => if c = '\n' then .next { p.push c with st := .ST_CRLF } else .fail .MALFORMED_SIP_MSG
  | .ST_LF => .next (p.afterEol c)
  | .ST_CRLF => .next (p.afterEol c)

end ByParser

def parseBy (s : Str) : Except ParseErr (SentBy × Str) :=
  scan ByParser.char ByParser.finish .MALFORMED_SIP_MSG ⟨.BY_HOST, .BY_HOST, [], ⟨[], [], 0⟩⟩ s

/-! ## The header -/

/-- `sip_via_parm`. -/
structure SipViaParm where
  trans : SipTransport
  host : Str
  port : Str
  portI : ℕ
  params : List SipAvp
  branch : Str
  recved : Str
  hasRport : Bool
  rport : Str
  rportI : ℕ
  deriving DecidableEq, Repr

/-- The parameters `branch`, `received` and `rport`, found by the letters they start with. -/
def viaParam (v : SipViaParm) (p : SipAvp) : SipViaParm :=
  if startsWith "branch".toList p.name then { v with branch := p.value }
  else if startsWith "received".toList p.name then { v with recved := p.value }
  else if startsWith "rport".toList p.name then
    { v with
      hasRport := true
      rport := p.value
      rportI := if p.value = [] then v.rportI else (str2i p.value).getD v.rportI }
  else v

/-- `parse_via_params`. -/
def parseViaParams (v : SipViaParm) (s : Str) : Except ParseErr (SipViaParm × Str) :=
  (parseGenParamsSc ',' s).map fun r => (r.1.foldl viaParam { v with params := r.1 }, r.2)

/-- The address and the parameters of an element with the transport `trans`. -/
def parseViaParm (trans : SipTransport) (s : Str) : Except ParseErr (SipViaParm × Str) :=
  (parseBy s).bind fun r =>
    parseViaParams ⟨trans, r.1.host, r.1.port, r.1.portI, [], [], [], false, [], 0⟩ r.2

inductive ViaState where
  | V_TRANS
  | V_URI
  | V_PARM_SEP
  | V_PARM_SEP_SWS
  | ST_CR
  | ST_LF
  | ST_CRLF
  deriving DecidableEq, Repr

/-- The loop of `parse_via`, with the elements read so far and the transport of the next. A round
that reads nothing is followed by one that does. -/
def parseViaLoop : ℕ → ViaState → ViaState → List SipViaParm → SipTransport → Str →
    Except ParseErr (List SipViaParm)
  | 0, _, _, _, _, _ => .error .BAD_STATE
  | _ + 1, _, _, parms, _, [] => .ok parms
  | k + 1, st, saved, parms, tr, c :: cs =>
    let caseCrLf (other : Except ParseErr (List SipViaParm)) :=
      if c = '\r' then parseViaLoop k .ST_CR st parms tr cs
      else if c = '\n' then parseViaLoop k .ST_LF st parms tr cs
      else if isWsp c then parseViaLoop k st saved parms tr cs
      else other
    match st with
    | .V_TRANS =>
      match parseTransport (c :: cs) with
      | .error e => .error e
      -- the character after the transport is skipped
      | .ok (tr, rest) => parseViaLoop k .V_URI saved parms tr (rest.drop 1)
    | .V_URI =>
      caseCrLf <|
        match parseViaParm tr (c :: cs) with
        | .error e => .error e
        | .ok (v, rest) => parseViaLoop k .V_PARM_SEP saved (parms ++ [v]) tr rest
    | .V_PARM_SEP =>
      caseCrLf <|
        if c = ',' then parseViaLoop k .V_PARM_SEP_SWS saved parms tr cs
        else .error .MALFORMED_SIP_MSG
    | .V_PARM_SEP_SWS => caseCrLf (parseViaLoop k .V_TRANS saved parms tr (c :: cs))
    | .ST_CR =>
      if c = '\n' then parseViaLoop k .ST_CRLF saved parms tr cs
      else .error .MALFORMED_SIP_MSG
    | .ST_LF => parseViaLoop k saved saved parms tr cs
    | .ST_CRLF => parseViaLoop k saved saved parms tr cs

def parseVia (s : Str) : Except ParseErr (List SipViaParm) :=
  parseViaLoop (2 * s.length + 2) .V_TRANS .V_TRANS [] ⟨.OTHER, []⟩ s

end Sems
