import Sems.ParseNameaddr

/-!
# SIP URIs

`parse_uri` (`core/sip/parse_uri.cpp`). Every state of the loop of `parse_sip_uri` but the ones
inside an IPv6 address starts a new token : the text from there to the cursor is `cur`.
-/

namespace Sems

/-- `uri_scheme`. -/
inductive UriScheme where
  | UNKNOWN
  | SIP
  | SIPS
  deriving DecidableEq, Repr

/-- `sip_uri`. -/
structure SipUri where
  scheme : UriScheme
  user : Str
  passwd : Str
  host : Str
  portStr : Str
  port : ℕ
  params : List SipAvp
  hdrs : List SipAvp
  /-- The parameter `transport`. -/
  trsp : Option SipAvp
  deriving DecidableEq, Repr

/-- `sip_uri` before it is parsed. -/
def SipUri.empty : SipUri :=
  ⟨.UNKNOWN, [], [], [], [], 0, [], [], none⟩

/-- The states of `parse_sip_uri`. -/
inductive UriState where
  | URI_USER
  | URI_PW
  | URI_HOST
  | URI_HOST_V6
  | URI_PORT
  | URI_PNAME
  | URI_PVALUE
  | URI_HNAME
  | URI_HVALUE
  deriving DecidableEq, Repr

/-- The state of the loop of `parse_sip_uri`. -/
structure UriParser where
  st : UriState
  cur : Str
  /-- `tmp1`, once it has its length. -/
  name : Str
  uri : SipUri

namespace UriParser

variable (p : UriParser)

/-- Adds a character to the current part. -/
def push (c : Char) : UriParser :=
  { p with cur := p.cur ++ [c] }

/-- To a state that starts a token after the cursor. -/
def goto (st : UriState) (uri : SipUri) : UriParser :=
  { p with st := st, cur := [], uri := uri }

/-- A `:` ends the user or the host. -/
def colon : Except ParseErr UriParser :=
  match p.st with
  | .URI_USER =>
    if p.cur = [] then .error .MALFORMED_URI
    else .ok (p.goto .URI_PW { p.uri with user := p.cur })
  | .URI_HOST =>
    if p.cur = [] then .error .MALFORMED_URI
    else .ok (p.goto .URI_PORT { p.uri with host := p.cur })
  | _ => .ok (p.push ':')

/-- The `@` ends the user or the password. -/
def atSign : Except ParseErr UriParser :=
  match p.st with
  | .URI_USER => .ok (p.goto .URI_HOST { p.uri with user := p.cur })
  | .URI_PW => .ok (p.goto .URI_HOST { p.uri with passwd := p.cur })
  | _ => .error .MALFORMED_URI

/-- The end of the host, the port or a parameter, before a token in the state `st`. -/
def sep (st : UriState) (c : Char) : UriParser :=
  match p.st with
  | .URI_HOST => p.goto st { p.uri with host := p.cur }
  | .URI_PORT => p.goto st { p.uri with portStr := p.cur }
  | .URI_PNAME => p.goto st { p.uri with params := p.uri.params ++ [⟨p.cur, []⟩] }
  | .URI_PVALUE => p.goto st { p.uri with params := p.uri.params ++ [⟨p.name, p.cur⟩] }
  | _ => p.push c

/-- A `=` ends a name. -/
def equ (st : UriState) : Except ParseErr UriParser :=
  if p.cur = [] then .error .MALFORMED_URI
  else .ok { p with st := st, cur := [], name := p.cur }

/-- The loop body of `parse_sip_uri`. -/
def char (c : Char) : Except ParseErr UriParser :=
  if c = ':' then p.colon
  else if c = '@' then p.atSign
  else if c = ';' then .ok (p.sep .URI_PNAME c)
  else if c = '?' then .ok (p.sep .URI_HNAME c)
  else if c = '=' ∧ p.st = .URI_PNAME then p.equ .URI_PVALUE
  else if c = '=' ∧ p.st = .URI_HNAME then p.equ .URI_HVALUE
  else if c = '&' ∧ p.st = .URI_HNAME then .error .MALFORMED_URI
  else if c = '&' ∧ p.st = .URI_HVALUE then
    .ok (p.goto .URI_HNAME { p.uri with hdrs := p.uri.hdrs ++ [⟨p.name, p.cur⟩] })
  else if c = '[' ∧ p.st = .URI_HOST then .ok { p.push c with st := .URI_HOST_V6 }
  else if c = ']' ∧ p.st = .URI_HOST_V6 then .ok { p.push c with st := .URI_HOST }
  else .ok (p.push c)

/-- After the loop. -/
def finish : Except ParseErr SipUri :=
  match p.st with
  | .URI_USER | .URI_PW | .URI_HOST_V6 | .URI_HNAME => .error .MALFORMED_URI
  | .URI_HOST => if p.cur = [] then .error .MALFORMED_URI else .ok { p.uri with host := p.cur }
  | .URI_PORT => .ok { p.uri with portStr := p.cur }
  | .URI_PNAME => .ok { p.uri with params := p.uri.params ++ [⟨p.cur, []⟩] }
  | .URI_PVALUE => .ok { p.uri with params := p.uri.params ++ [⟨p.name, p.cur⟩] }
  | .URI_HVALUE => .ok { p.uri with hdrs := p.uri.hdrs ++ [⟨p.name, p.cur⟩] }

end UriParser

/-- The digits of a port, after the number `n`. -/
def parsePort (n : ℕ) : Str → Except ParseErr ℕ
  | [] => .ok n
  | c :: cs =>
    if !isDigit c then .error .MALFORMED_URI
    else if 65535 < n * 10 + digitVal c then .error .MALFORMED_URI
    else parsePort (n * 10 + digitVal c) cs

/-- The port, 5060 when there is none, and the transport of a URI. -/
def portAndTrsp (uri : SipUri) : Except ParseErr SipUri :=
  let trsp := uri.params.foldl
    (fun trsp p => if lowerEq p.name "transport".toList then some p else trsp) uri.trsp
  if uri.portStr = [] then .ok { uri with port := 5060, trsp := trsp }
  else (parsePort 0 uri.portStr).map fun n => { uri with port := n, trsp := trsp }

/-- `parse_sip_uri`, behind the scheme. -/
def parseSipUri (scheme : UriScheme) (s : Str) : Except ParseErr SipUri :=
  let st : UriState := if s.contains '@' then .URI_USER else .URI_HOST
  match s.foldlM UriParser.char ⟨st, [], [], { SipUri.empty with scheme := scheme }⟩ with
  | .error e => .error e
  | .ok p => p.finish.bind portAndTrsp

/-- A URI. A scheme that ends before its colon is accepted. -/
def parseUri : Str → Except ParseErr SipUri
  | [] => .ok .empty
  | c :: s =>
    if !isLetter 's' c then .error .MALFORMED_URI
    else
      match s with
      | [] => .ok .empty
      | c :: s =>
        if !isLetter 'i' c then .error .MALFORMED_URI
        else
          match s with
          | [] => .ok .empty
          | c :: s =>
            if !isLetter 'p' c then .error .MALFORMED_URI
            else
              match s with
              | [] => .ok .empty
              | ':' :: s => parseSipUri .SIP s
              | c :: s =>
                if !isLetter 's' c then .error .MALFORMED_URI
                else
                  match s with
                  | [] => .ok .empty
                  | ':' :: s => parseSipUri .SIPS s
                  | _ => .error .MALFORMED_URI

end Sems
