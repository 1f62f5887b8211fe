import Sems.ParseHeader
import Sems.ParseVia

/-!
# The message parser

`parse_sip_msg` (`core/sip/sip_parser.cpp`) with the parsers of the first line, of the method,
and of the CSeq and RAck headers (`parse_cseq.cpp`, `parse_100rel.cpp`).

`parse_cseq` does not set the method of a CSeq header when a blank follows it. What the memory
holds there is the parameter `junk` : a method, or a number that is none.
-/

namespace Sems

/-! ## Methods -/

/-- The methods of `sip_request`. -/
inductive ReqMethod where
  | OTHER_METHOD
  | INVITE
  | ACK
  | PRACK
  | OPTIONS
  | BYE
  | CANCEL
  | REGISTER
  deriving DecidableEq, Repr

/-- The method with these letters. The first letter of two of them is not looked at. -/
def methodOf (s : Str) : ReqMethod :=
  if s = "INVITE".toList then .INVITE
  else if s = "CANCEL".toList then .CANCEL
  else if s = "ACK".toList then .ACK
  else if s = "BYE".toList then .BYE
  else if s.length = 7 ∧ s.drop 1 = "PTIONS".toList then .OPTIONS
  else if s.length = 8 ∧ s.drop 1 = "EGISTER".toList then .REGISTER
  else if s = "PRACK".toList then .PRACK
  else .OTHER_METHOD

/-- `parse_method`. -/
def parseMethod (s : Str) : Except ParseErr ReqMethod :=
  if s.all isToken then .ok (methodOf s) else .error .MALFORMED_SIP_MSG

/-! ## CSeq -/

/-- `sip_cseq`. -/
structure SipCseq where
  numStr : Str
  num : ℕ
  methodStr : Str
  method : Option ReqMethod
  deriving DecidableEq, Repr

/-- The states of `parse_cseq`. -/
inductive CseqState where
  | C_NUM
  | C_NUM_SWS
  | C_METHOD
  | ST_CR
  | ST_LF
  | ST_CRLF
  deriving DecidableEq, Repr

/-- The state of the loop of `parse_cseq`. -/
structure CseqParser where
  st : CseqState
  saved : CseqState
  /-- The text from `beg` to the cursor. -/
  cur : Str
  cseq : SipCseq

namespace CseqParser

variable (p : CseqParser)

/-- One more character. -/
def push (c : Char) : CseqParser :=
  { p with cur := p.cur ++ [c] }

/-- The state before the line end is saved. -/
def lineEnd (c : Char) : CseqParser :=
  { p.push c with saved := p.st, st := if c = '\r' then .ST_CR else .ST_LF }

/-- After the end of a line. -/
def afterEol (c : Char) : Scan CseqParser SipCseq ParseErr :=
  match p.saved with
  | .C_NUM =>
    .next { p.push c with
      st := .C_NUM
      cseq := { p.cseq with
        numStr := p.cur.take (p.cur.length - if p.st = .ST_CRLF then 2 else 1) } }
  | .C_METHOD => .stop { p.cseq with methodStr := p.cur }
  | st => .next { p.push c with st := st }

/-- The loop body of `parse_cseq`. -/
def char (c : Char) : Scan CseqParser SipCseq ParseErr :=
  match p.st with
  | .C_NUM =>
    if c = '\r' ∨ c = '\n' then .next (p.lineEnd c)
    else if isWsp c then
      .next { p.push c with st := .C_NUM_SWS, cseq := { p.cseq with numStr := p.cur } }
    else if !isDigit c then .fail .MALFORMED_SIP_MSG
    else
      .next { p.push c with
        cseq := { p.cseq with num := (p.cseq.num * 10 + digitVal c) % (UINT_MAX + 1) } }
  | .C_NUM_SWS =>
    if c = '\r' ∨ c = '\n' then .next (p.lineEnd c)
    else if isWsp c then .next (p.push c)
    else .next { p with st := .C_METHOD, cur := [c] }
  | .C_METHOD =>
    if c = '\r' ∨ c = '\n' then .next (p.lineEnd c)
    else if isWsp c then .stop { p.cseq with methodStr := p.cur }
    else .next (p.push c)
  | .ST_CR => if c = '\n' then .next { p.push c with st := .ST_CRLF } else .fail .MALFORMED_SIP_MSG
  | .ST_LF => p.afterEol c
  | .ST_CRLF => p.afterEol c

/-- After the loop. -/
def finish : Except ParseErr SipCseq :=
  if p.st ≠ .C_METHOD then .error .MALFORMED_SIP_MSG
  else
    (parseMethod p.cur).map fun method =>
      { p.cseq with methodStr := p.cur, method := some method }

end CseqParser

variable (junk : Option ReqMethod)

/-- `parse_cseq`. -/
def parseCseq (s : Str) : Except ParseErr SipCseq :=
  (scan CseqParser.char CseqParser.finish .MALFORMED_SIP_MSG
    ⟨.C_NUM, .C_NUM, [], ⟨[], 0, [], junk⟩⟩ s).map Prod.fst

/-! ## RAck -/

/-- `sip_rack`. -/
structure SipRack where
  rseq : ℕ
  cseq : ℕ
  cseqStr : Str
  method : ReqMethod
  methodStr : Str
  deriving DecidableEq, Repr

/-- `READ_NUMBER`. -/
def readNumber (no : ℕ) : Str → Option (ℕ × Str)
  | [] => some (no, [])
  | c :: cs =>
    if isDigit c then
      -- the code of the digit, not its value
      if UINT_MAX - no < c.toNat then none
      else readNumber ((no * 10 + digitVal c) % (UINT_MAX + 1)) cs
    else some (no, c :: cs)

/-- Blanks and a number with at least one digit. -/
def readField (s : Str) : Option (ℕ × Str × Str) :=
  let s := s.dropWhile isWsp
  match readNumber 0 s with
  | none => none
  | some (n, rest) =>
    if rest.length = s.length then none else some (n, s.take (s.length - rest.length), rest)

/-- `parse_rack`. -/
def parseRack (s : Str) : Option SipRack :=
  match readField s with
  | none => none
  | some (rseq, _, s) =>
    match readField s with
    | none => none
    | some (cseq, cseqStr, s) =>
      let methodStr := (s.dropWhile isWsp).takeWhile isToken
      match parseMethod methodStr with
      | .error _ => none
      | .ok method => some ⟨rseq, cseq, cseqStr, method, methodStr⟩

/-! ## The first line -/

/-- `sip_request`. -/
structure SipRequest where
  methodStr : Str
  method : ReqMethod
  ruriStr : Str
  ruri : SipUri
  deriving DecidableEq, Repr

/-- `sip_reply`. -/
structure SipReply where
  code : ℕ
  reason : Str
  deriving DecidableEq, Repr

/-- A request line or a status line. -/
inductive FirstLine where
  | request (r : SipRequest)
  | reply (r : SipReply)
  deriving DecidableEq, Repr

/-- The states of `parse_first_line`. -/
inductive FlState where
  | FL_METH
  | FL_RURI
  | FL_SIPVER1
  | FL_SIPVER2
  | FL_SIPVER3
  | FL_SIPVER4
  | FL_SIPVER_DIG1
  | FL_SIPVER_SEP
  | FL_SIPVER_DIG2
  | FL_SIPVER_SP
  | FL_STAT1
  | FL_STAT2
  | FL_STAT3
  | FL_STAT_SP
  | FL_REASON
  | FL_EOL
  | FL_ERR
  | FL_BAD_VERSION
  | ST_CR
  | ST_LF
  | ST_CRLF
  deriving DecidableEq, Repr

/-- The state of the loop of `parse_first_line`. -/
structure FlParser where
  st : FlState
  saved : FlState
  isRequest : Bool
  /-- The text from `beg` to the cursor. -/
  cur : Str
  req : SipRequest
  code : ℕ

namespace FlParser

/-- Before the first character. -/
def start : FlParser :=
  ⟨.FL_SIPVER1, .FL_METH, false, [], ⟨[], .OTHER_METHOD, [], .empty⟩, 0⟩

variable (p : FlParser)

/-- One more character. -/
def push (c : Char) : FlParser :=
  { p with cur := p.cur ++ [c] }

/-- The character leads to another state. -/
def goto (st : FlState) (c : Char) : FlParser :=
  { p.push c with st := st }

/-- `case_CR_LF`, and `other` for the other characters. -/
def caseCrLf (c : Char) (other : Scan FlParser FirstLine ParseErr) : Scan FlParser FirstLine
    ParseErr :=
  if c = '\r' then .next { p.push c with saved := p.st, st := .ST_CR }
  else if c = '\n' then .next { p.push c with saved := p.st, st := .ST_LF }
  else other

/-- A character in the state `FL_METH`. -/
def methChar (c : Char) : Scan FlParser FirstLine ParseErr :=
  if c = ' ' then
    match parseMethod p.cur with
    | .error e => .fail e
    | .ok method =>
      .next { p with
        st := .FL_RURI
        cur := []
        req := { p.req with methodStr := p.cur, method := method } }
  else .next (p.goto .FL_METH c)

/-- A letter of the version : what is not the version of a reply is the method of a request. -/
def verLetter (ok : Bool) (st : FlState) (c : Char) : Scan FlParser FirstLine ParseErr :=
  if ok then .next (p.goto st c)
  else if !p.isRequest then p.methChar c
  else .next (p.goto .FL_ERR c)

/-- A digit of the version, or the point. -/
def verDigit (ok : Bool) (st : FlState) (c : Char) : Scan FlParser FirstLine ParseErr :=
  if ok then .next (p.goto st c)
  else .next (p.goto (if p.isRequest then .FL_BAD_VERSION else .FL_ERR) c)

/-- A digit of the status code. -/
def statDigit (st : FlState) (c : Char) : Scan FlParser FirstLine ParseErr :=
  if isDigit c then .next { p.goto st c with code := p.code * 10 + digitVal c }
  else .next (p.goto .FL_ERR c)

/-- The line is over. -/
def finish : Scan FlParser FirstLine ParseErr :=
  if p.saved = .FL_BAD_VERSION then .fail .MALFORMED_SIP_VERSION
  else if p.saved = .FL_REASON then
    .stop (.reply ⟨p.code, p.cur.take (p.cur.length - if p.st = .ST_CRLF then 2 else 1)⟩)
  else .stop (.request p.req)

/-- The loop body of `parse_first_line`. -/
def char (c : Char) : Scan FlParser FirstLine ParseErr :=
  if c = '\x00' then .fail .UNEXPECTED_EOT
  else
    match p.st with
    | .FL_SIPVER1 => p.verLetter (isLetter 's' c) .FL_SIPVER2 c
    | .FL_SIPVER2 => p.verLetter (isLetter 'i' c) .FL_SIPVER3 c
    | .FL_SIPVER3 => p.verLetter (isLetter 'p' c) .FL_SIPVER4 c
    | .FL_SIPVER4 => p.verLetter (c == '/') .FL_SIPVER_DIG1 c
    | .FL_SIPVER_DIG1 => p.verDigit (c == '2') .FL_SIPVER_SEP c
    | .FL_SIPVER_SEP => p.verDigit (c == '.') .FL_SIPVER_DIG2 c
    | .FL_SIPVER_DIG2 => p.verDigit (c == '0') (if p.isRequest then .FL_EOL else .FL_SIPVER_SP) c
    | .FL_METH => p.methChar c
    | .FL_RURI =>
      if c = ' ' then
        match parseUri p.cur with
        | .error e => .fail e
        | .ok uri =>
          .next { p.goto .FL_SIPVER1 c with
            isRequest := true
            req := { p.req with ruriStr := p.cur, ruri := uri } }
      else if c = '\r' ∨ c = '\n' ∨ c = '\t' then .fail .MALFORMED_SIP_MSG
      else .next (p.push c)
    | .FL_SIPVER_SP =>
      if c = ' ' then .next { p with st := .FL_STAT1, cur := [] } else .next (p.goto .FL_ERR c)
    | .FL_STAT1 => p.statDigit .FL_STAT2 c
    | .FL_STAT2 => p.statDigit .FL_STAT3 c
    | .FL_STAT3 => p.statDigit .FL_STAT_SP c
    | .FL_STAT_SP =>
      if c = ' ' then .next { p with st := .FL_REASON, cur := [] } else .next (p.goto .FL_ERR c)
    | .FL_REASON => p.caseCrLf c (.next (p.push c))
    | .FL_EOL => p.caseCrLf c (.fail .MALFORMED_SIP_MSG)
    | .FL_ERR => .fail .MALFORMED_SIP_MSG
    | .FL_BAD_VERSION => p.caseCrLf c (.next (p.push c))
    | .ST_CR => if c = '\n' then .next (p.goto .ST_CRLF c) else .fail .MALFORMED_SIP_MSG
    | .ST_LF => p.finish
    | .ST_CRLF => p.finish

end FlParser

/-- The first line, and the text after it. -/
def parseFirstLine (s : Str) : Except ParseErr (FirstLine × Str) :=
  scan FlParser.char (fun _ => .error .UNEXPECTED_EOT) .UNEXPECTED_EOT FlParser.start s

/-! ## The headers -/

/-- The headers of a message, by their types. -/
structure MsgHdrs where
  hdrs : List SipHeader
  to_ : Option SipHeader
  from_ : Option SipHeader
  cseq : Option SipHeader
  rack : Option SipHeader
  vias : List SipHeader
  via1 : Option SipHeader
  callid : Option SipHeader
  contacts : List SipHeader
  route : List SipHeader
  recordRoute : List SipHeader
  contentType : Option SipHeader
  contentLength : Option SipHeader
  /-- A header that may be there only once was there twice. -/
  duplicated : Bool
  deriving DecidableEq, Repr

namespace MsgHdrs

/-- No header was read. -/
def empty : MsgHdrs :=
  ⟨[], none, none, none, none, [], none, none, [], [], [], none, none, false⟩

/-- File a header by its type. `isPrack` : the message is a PRACK request. -/
def file (isPrack : Bool) (h : MsgHdrs) (hdr : SipHeader) : MsgHdrs :=
  match hdr.type with
  | .H_CALL_ID => { h with callid := some hdr, duplicated := h.duplicated || h.callid.isSome }
  | .H_CONTACT => { h with contacts := h.contacts ++ [hdr] }
  | .H_CONTENT_LENGTH =>
    { h with contentLength := some hdr, duplicated := h.duplicated || h.contentLength.isSome }
  | .H_CONTENT_TYPE => { h with contentType := some hdr }
  | .H_FROM => { h with from_ := some hdr, duplicated := h.duplicated || h.from_.isSome }
  | .H_TO => { h with to_ := some hdr, duplicated := h.duplicated || h.to_.isSome }
  | .H_VIA => { h with via1 := h.via1.or (some hdr), vias := h.vias ++ [hdr] }
  | .H_RACK => if isPrack then { h with rack := some hdr } else h
  | .H_CSEQ => { h with cseq := some hdr, duplicated := h.duplicated || h.cseq.isSome }
  | .H_ROUTE => { h with route := h.route ++ [hdr] }
  | .H_RECORD_ROUTE => { h with recordRoute := h.recordRoute ++ [hdr] }
  | _ => h

/-- One header of `parse_headers(sip_msg*, ..)`. -/
def add (isPrack : Bool) (h : MsgHdrs) (hdr : SipHeader) : MsgHdrs :=
  { h.file isPrack hdr with hdrs := h.hdrs ++ [hdr] }

end MsgHdrs

/-- The request is a PRACK. -/
def FirstLine.isPrack : FirstLine → Bool
  | .request r => r.method == .PRACK
  | .reply _ => false

/-- `parse_headers(sip_msg*, ..)` : the headers, and the text after them. -/
def parseMsgHeaders (fl : FirstLine) (s : Str) : Except ParseErr (MsgHdrs × Str) :=
  match parseHeaders s with
  | .error e => .error e
  | .ok (hdrs, rest) =>
    let h := hdrs.foldl (MsgHdrs.add fl.isPrack) .empty
    if h.duplicated then .error .MALFORMED_SIP_MSG else .ok (h, rest)

/-! ## The message -/

/-- The digits of a Content-Length, after the number `n`. -/
def contentLengthDigits (n : ℕ) : Str → Except Str ℕ
  | [] => .ok n
  | c :: cs =>
    if isDigit c then
      if (INT_MAX - digitVal c) / 10 < n then .error "Content-Length value too large".toList
      else contentLengthDigits (n * 10 + digitVal c) cs
    else if isWsp c then .ok n
    else .error "Invalid Content-Length value".toList

/-- The number in a Content-Length header. -/
def parseContentLength (value : Str) : Except Str ℕ :=
  let s := value.dropWhile isWsp
  if s = [] then .error "Invalid Content-Length value".toList else contentLengthDigits 0 s

/-- The length of the body, of the `available` bytes after the headers. -/
def bodyLen (h : MsgHdrs) (available : ℕ) : Except Str ℕ :=
  match h.contentLength with
  | none => .ok available
  | some hdr =>
    match parseContentLength hdr.value with
    | .error msg => .error msg
    | .ok n =>
      if available < n then .error "Content-Length exceeds available body data".toList else .ok n

/-- `sip_msg`, as `parse_sip_msg` leaves it. -/
structure SipMsg where
  firstLine : FirstLine
  hdrs : MsgHdrs
  /-- Where the body is in the buffer. -/
  body : CString
  via : List SipViaParm
  cseq : SipCseq
  from_ : SipFromTo
  to_ : SipFromTo
  rack : Option SipRack
  deriving DecidableEq, Repr

/-- An error and its message. -/
abbrev MsgErr := ParseErr × Str

/-- The error for a missing or bad header. -/
def malformedMsg {α : Type} (msg : Str) : Except MsgErr α :=
  .error (.MALFORMED_SIP_MSG, msg)

/-- The CSeq method is that of the request. -/
def cseqMatches (fl : FirstLine) (cseq : SipCseq) : Bool :=
  match fl with
  | .reply _ => true
  | .request r =>
    cseq.method == some r.method && (r.method != .OTHER_METHOD || cseq.methodStr == r.methodStr)

/-- The parsed values of the headers a message must have. -/
def parseMandatory (fl : FirstLine) (h : MsgHdrs) (body : CString)
    (via1 cseq from_ to_ : SipHeader) : Except MsgErr SipMsg :=
  match parseVia via1.value with
  | .error _ | .ok [] => malformedMsg "could not parse Via hf".toList
  | .ok via =>
    match parseCseq junk cseq.value with
    | .error _ => malformedMsg "could not parse CSeq hf".toList
    | .ok cseq =>
      if cseq.numStr = [] ∨ cseq.methodStr = [] then malformedMsg "could not parse CSeq hf".toList
      else if !cseqMatches fl cseq then
        malformedMsg "CSeq method does not match request method".toList
      else
        match parseFromTo from_.value with
        | .error _ => malformedMsg "could not parse From hf".toList
        | .ok ft =>
          if ft.tag = [] then malformedMsg "missing From-tag".toList
          else
            match parseFromTo to_.value with
            | .error _ => malformedMsg "could not parse To hf".toList
            | .ok tt =>
              match h.rack with
              | none => .ok ⟨fl, h, body, via, cseq, ft, tt, none⟩
              | some hdr =>
                match parseRack hdr.value with
                | none => malformedMsg "could not parse RAck hf".toList
                | some rack => .ok ⟨fl, h, body, via, cseq, ft, tt, some rack⟩

/-- After the body : the headers a message must have. -/
def parseBodyless (fl : FirstLine) (h : MsgHdrs) (body : CString) : Except MsgErr SipMsg :=
  match h.via1, h.cseq, h.from_, h.to_, h.callid with
  | none, _, _, _, _ => .error (.INCOMPLETE_SIP_MSG, "missing Via header field".toList)
  | _, none, _, _, _ => .error (.INCOMPLETE_SIP_MSG, "missing CSeq header field".toList)
  | _, _, none, _, _ => .error (.INCOMPLETE_SIP_MSG, "missing From header field".toList)
  | _, _, _, none, _ => .error (.INCOMPLETE_SIP_MSG, "missing To header field".toList)
  | _, _, _, _, none => .error (.INCOMPLETE_SIP_MSG, "missing Call-ID header field".toList)
  | some via1, some cseq, some from_, some to_, some _ =>
    parseMandatory junk fl h body via1 cseq from_ to_

/-- `parse_sip_msg`, with the texts of its errors. -/
def parseSipMsg (buf : Str) : Except MsgErr SipMsg :=
  match parseFirstLine buf with
  | .error .MALFORMED_SIP_VERSION => .error (.MALFORMED_SIP_VERSION, "Version Not Supported".toList)
  | .error _ => .error (.MALFORMED_FLINE, "Could not parse first line".toList)
  | .ok (fl, s) =>
    match parseMsgHeaders fl s with
    | .error e => .error (e, "Malformed headers".toList)
    | .ok (h, rest) =>
      match bodyLen h rest.length with
      | .error msg => malformedMsg msg
      | .ok n => parseBodyless junk fl h ⟨buf.length - rest.length, n⟩

end Sems
