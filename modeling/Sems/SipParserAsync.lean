import Sems.ByteMem
import Sems.ParseHeader

/-!
# The message framer

`core/sip/sip_parser_async.{h,cpp}` : `skip_sip_msg_async` looks for the end of a SIP message in
the bytes received so far on a stream, and keeps its place in a `parser_state`.

The pointers of the state are addresses in the memory of the input buffer, counted from its start.
A parser that returns `none` as its error returns 0 in the source.
-/

namespace Sems

inductive Stage where
  | ST_FL
  | ST_HDRS
  | ST_BODY
  deriving DecidableEq, Repr

/-- `parser_state`. Of the header, the name and the value. -/
structure ParserState where
  origBuf : ℕ
  /-- The cursor. -/
  c : ℕ
  /-- The start of the current token. -/
  beg : ℕ
  stage : Stage
  st : HState
  savedSt : HState
  name : CString
  value : CString
  contentLen : ℤ
  deriving DecidableEq, Repr

namespace ParserState

def resetHdrParser (p : ParserState) : ParserState :=
  { p with name := ⟨0, 0⟩, value := ⟨0, 0⟩, st := .H_NAME, savedSt := .H_NAME, beg := p.c }

/-- `reset`, which sets every field. -/
def reset (buf : ℕ) : ParserState :=
  ⟨buf, buf, buf, .ST_FL, .H_NAME, .H_NAME, ⟨0, 0⟩, ⟨0, 0⟩, 0⟩

def getMsgLen (p : ParserState) : ℤ :=
  p.c - p.origBuf + p.contentLen

/-- `case_CR_LF`, and `other` for the other characters. -/
def caseCrLf (p : ParserState) (ch : Char) (other : ParserState) : ParserState :=
  if ch = '\r' then { p with savedSt := p.st, st := .ST_CR }
  else if ch = '\n' then { p with savedSt := p.st, st := .ST_LF }
  else other

/-- Move the cursor. -/
def advance (p : ParserState) : ParserState :=
  { p with c := p.c + 1 }

end ParserState

/-- The result of a parser : its error and the state it leaves. -/
abbrev AsyncResult := Option ParseErr × ParserState

/-- The loop of `skip_line_async`, over the `n` bytes up to the end. -/
def skipLineLoop (m : Mem) : ℕ → ParserState → AsyncResult
  | 0, p => (some .UNEXPECTED_EOT, p)
  | n + 1, p =>
    if m p.c = '\x00' then (some .UNEXPECTED_EOT, p)
    else
      match p.st with
      | .H_NAME => skipLineLoop m n (p.caseCrLf (m p.c) p).advance
      | .ST_CR =>
        if m p.c = '\n' then skipLineLoop m n { p with st := .ST_CRLF }.advance
        else (some .MALFORMED_SIP_MSG, p)
      | .ST_LF | .ST_CRLF => (none, p)
      | _ => (some .BAD_STATE, p)

variable (m : Mem) (finish : ℕ) (p : ParserState)

def skipLineAsync : AsyncResult :=
  skipLineLoop m (finish - p.c) p

/-- What the loop body of `parse_header_async` does : go to the next character, or return. -/
inductive HeaderStep where
  | next (p : ParserState)
  | ret (err : Option ParseErr) (p : ParserState)

/-- The end of the header, or of all headers, at the first character of a line. -/
def headerAfterEol (ch : Char) : HeaderStep :=
  match p.savedSt with
  | .H_NAME => if p.c = p.beg + p.st.eolLen then .ret none p else .ret (some .MALFORMED_SIP_MSG) p
  | .H_VALUE_SWS =>
    if isWsp ch then .next { p with st := p.savedSt } else .ret (some .MALFORMED_SIP_MSG) p
  | .H_VALUE =>
    if isWsp ch then .next { p with st := p.savedSt }
    else .ret none { p with value := ⟨p.beg, p.c - p.st.eolLen - p.beg⟩ }
  | _ => .next { p with st := p.savedSt }

/-- The loop body of `parse_header_async`. -/
def headerChar (ch : Char) : HeaderStep :=
  match p.st with
  | .H_NAME =>
    .next <| p.caseCrLf ch <|
      if ch = ':' then { p with st := .H_VALUE_SWS, name := ⟨p.beg, p.c - p.beg⟩ }
      else if isWsp ch then { p with st := .H_HCOLON, name := ⟨p.beg, p.c - p.beg⟩ }
      else p
  | .H_VALUE_SWS =>
    .next <| p.caseCrLf ch <|
      if isWsp ch then p else { p with st := .H_VALUE, beg := p.c }
  | .H_VALUE => .next (p.caseCrLf ch p)
  | .H_HCOLON =>
    if ch = ':' then .next { p with st := .H_VALUE_SWS }
    else if isWsp ch then .next p
    else .ret (some .MALFORMED_SIP_MSG) p
  | .ST_CR =>
    if ch = '\n' then .next { p with st := .ST_CRLF } else .ret (some .MALFORMED_SIP_MSG) p
  | .ST_LF => headerAfterEol p ch
  | .ST_CRLF => headerAfterEol p ch

/-- After the loop of `parse_header_async`. -/
def headerEnd : AsyncResult :=
  match p.st with
  | .ST_LF | .ST_CRLF =>
    match p.savedSt with
    | .H_NAME => if p.c = p.beg + p.st.eolLen then (none, p) else (some .MALFORMED_SIP_MSG, p)
    | _ => (some .UNEXPECTED_EOT, p)
  | _ => (some .UNEXPECTED_EOT, p)

/-- The loop of `parse_header_async`, over the `n` bytes up to the end. -/
def headerLoop (m : Mem) : ℕ → ParserState → AsyncResult
  | 0, p => headerEnd p
  | n + 1, p =>
    if m p.c = '\x00' then headerEnd p
    else
      match headerChar p (m p.c) with
      | .next p => headerLoop m n p.advance
      | .ret err p => (err, p)

def parseHeaderAsync : AsyncResult :=
  headerLoop m (finish - p.c) p

/-- The header that was read is a Content-Length. -/
def isContentLength : Bool :=
  p.name.len ≠ 0 ∧ p.value.len ≠ 0 ∧
    parseHeaderType (readMem m p.name.s p.name.len) = .H_CONTENT_LENGTH

/-- The Content-Length after a header was read. -/
def noteContentLength : ParserState :=
  if isContentLength m p then
    { p with contentLen := (str2int (readMem m p.value.s p.value.len)).getD p.contentLen }
  else p

/-- The loop of `parse_headers_async`. Every header but the first, which may be read already, moves
the cursor. -/
def headersLoop (m : Mem) (finish : ℕ) : ℕ → ParserState → AsyncResult
  | 0, p => (some .UNEXPECTED_EOT, p)
  | k + 1, p =>
    if p.c < finish then
      match parseHeaderAsync m finish p with
      | (some err, p) => (some err, p)
      | (none, p) =>
        let q := noteContentLength m p
        if isContentLength m p ∧ q.contentLen < 0 then (some .MALFORMED_SIP_MSG, q)
        else if q.name.len = 0 ∧ q.value.len = 0 then (none, q)
        else headersLoop m finish k q.resetHdrParser
    else (some .UNEXPECTED_EOT, p)

def parseHeadersAsync : AsyncResult :=
  headersLoop m finish (finish - p.c + 1) p

/-- The loop of `skip_sip_msg_async`. A round that does not return goes to the next stage, or
reads a header. -/
def skipSipMsgLoop (m : Mem) (finish : ℕ) : ℕ → ParserState → AsyncResult
  | 0, p => (some .BAD_STATE, p)
  | k + 1, p =>
    if finish < p.c then (none, p)
    else
      match p.stage with
      | .ST_FL =>
        match skipLineAsync m finish p with
        | (none, p) => skipSipMsgLoop m finish k { p with stage := .ST_HDRS }.resetHdrParser
        | (some err, p) =>
          if err = .UNEXPECTED_EOT ∧ p.c < finish then (some .MALFORMED_SIP_MSG, p)
          else (some err, p)
      | .ST_HDRS =>
        match parseHeadersAsync m finish p with
        | (none, p) =>
          if p.name.len = 0 ∧ p.value.len = 0 then
            skipSipMsgLoop m finish k { p with stage := .ST_BODY }
          else skipSipMsgLoop m finish k p.resetHdrParser
        | (some err, p) =>
          if err = .UNEXPECTED_EOT ∧ p.c < finish then (some .MALFORMED_SIP_MSG, p)
          else (some err, p)
      | .ST_BODY =>
        if p.contentLen = 0 then (none, p)
        else if (finish : ℤ) - p.c < p.contentLen then (some .UNEXPECTED_EOT, p)
        else (none, p)

/-- Look for the end of the message that starts at `orig_buf`, in the bytes before `finish`. -/
def skipSipMsgAsync : AsyncResult :=
  skipSipMsgLoop m finish (finish - p.c + 3) p

end Sems
