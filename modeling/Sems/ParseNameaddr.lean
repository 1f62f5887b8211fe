import Sems.ParseCommon
import Sems.HeaderText
import Sems.Scanner

/-!
# Parameters, name-addresses and From/To headers

`parse_gen_params` (`core/sip/parse_common.cpp`), `parse_nameaddr`
(`core/sip/parse_nameaddr.cpp`) and `parse_from_to` (`core/sip/parse_from_to.cpp`).

The pointer to the start of the current token is replaced by the text from there to the
cursor.
-/

namespace Sems

/-- `sip_avp`. -/
structure SipAvp where
  name : Str
  value : Str
  deriving DecidableEq, Repr

/-! ## Parameters -/

/-- The states of `_parse_gen_params`. -/
inductive VpState where
  | VP_PARAM_SEP
  | VP_PARAM_SEP_SWS
  | VP_PNAME
  | VP_PNAME_EQU
  | VP_PNAME_EQU_SWS
  | VP_PVALUE
  | VP_PVALUE_QUOTED
  | ST_CR
  | ST_LF
  | ST_CRLF
  deriving DecidableEq, Repr

/-- The state of the loop of `_parse_gen_params`. -/
structure GenParams where
  st : VpState
  saved : VpState
  /-- The text from `beg` to the cursor. -/
  cur : Str
  avp : SipAvp
  params : List SipAvp

namespace GenParams

/-- Before the first character. -/
def start (begWSc : Bool) : GenParams :=
  ⟨if begWSc then .VP_PARAM_SEP else .VP_PARAM_SEP_SWS, .VP_PARAM_SEP, [], ⟨[], []⟩, []⟩

variable (g : GenParams)

/-- `case_CR_LF`, and `other` for the other characters. -/
def caseCrLf (c : Char) (other : GenParams) : GenParams :=
  if c = '\r' then { g with saved := g.st, st := .ST_CR }
  else if c = '\n' then { g with saved := g.st, st := .ST_LF }
  else other

/-- Add the parameter that was read, and start a new one. -/
def pushAvp (avp : SipAvp) : GenParams :=
  { g with params := g.params ++ [avp], avp := ⟨[], []⟩ }

/-- The character is part of the current token. -/
def push (c : Char) : GenParams :=
  { g with cur := g.cur ++ [c] }

/-- The token without the line end before the cursor. -/
def token : Str :=
  g.cur.take (g.cur.length - if g.st = .ST_CRLF then 2 else 1)

/-- The state `VP_PNAME_EQU_SWS`. -/
def equSws (c : Char) : GenParams :=
  if c = '\r' ∨ c = '\n' then (g.caseCrLf c g).push c
  else if isWsp c then g.push c
  else if c = '"' then { g with st := .VP_PVALUE_QUOTED, cur := [] }
  else if c = ';' then { (g.pushAvp g.avp).push c with st := .VP_PARAM_SEP_SWS }
  else { g with st := .VP_PVALUE, cur := [c] }

/-- After the end of a line. -/
def afterEol (c : Char) : GenParams :=
  match g.saved with
  | .VP_PNAME =>
    { g.push c with
      st := .VP_PNAME_EQU, saved := .VP_PNAME_EQU, avp := { g.avp with name := g.token } }
  | .VP_PVALUE =>
    { (g.pushAvp { g.avp with value := g.token }).push c with
      st := .VP_PARAM_SEP, saved := .VP_PARAM_SEP }
  | st => { g.push c with st := st }

/-- The loop body of `_parse_gen_params`. -/
def char (stopChar : Char) (g : GenParams) (c : Char) : Scan GenParams (List SipAvp) ParseErr :=
  match g.st with
  | .VP_PARAM_SEP =>
    if c = '\r' ∨ c = '\n' then .next ((g.caseCrLf c g).push c)
    else if isWsp c then .next (g.push c)
    else if c = ';' then .next { g.push c with st := .VP_PARAM_SEP_SWS }
    else if c = stopChar then .stop g.params
    else .fail .MALFORMED_SIP_MSG
  | .VP_PARAM_SEP_SWS =>
    if c = '\r' ∨ c = '\n' then .next ((g.caseCrLf c g).push c)
    else if isWsp c then .next (g.push c)
    else .next { g with st := .VP_PNAME, cur := [c] }
  | .VP_PNAME =>
    if c = '\r' ∨ c = '\n' then .next ((g.caseCrLf c g).push c)
    else if isWsp c then
      .next { g.push c with st := .VP_PNAME_EQU, avp := { g.avp with name := g.cur } }
    else if c = '=' then
      .next { g.push c with st := .VP_PNAME_EQU_SWS, avp := { g.avp with name := g.cur } }
    else if c = ';' then
      .next { (g.pushAvp { g.avp with name := g.cur }).push c with st := .VP_PARAM_SEP_SWS }
    else if c = stopChar then .stop (g.params ++ [{ g.avp with name := g.cur }])
    else .next (g.push c)
  | .VP_PNAME_EQU =>
    -- there is no break at the end of this case : the next one follows, in the new state
    if c = '\r' ∨ c = '\n' then .next (equSws (g.caseCrLf c g) c)
    else if isWsp c then .next (equSws g c)
    else if c = '=' then .next (equSws { g with st := .VP_PNAME_EQU_SWS } c)
    else if c = ';' then .next (equSws { g.pushAvp g.avp with st := .VP_PARAM_SEP_SWS } c)
    else if c = stopChar then .stop (g.params ++ [g.avp])
    else .fail .MALFORMED_SIP_MSG
  | .VP_PNAME_EQU_SWS => .next (g.equSws c)
  | .VP_PVALUE =>
    if c = '\r' ∨ c = '\n' then .next ((g.caseCrLf c g).push c)
    else if c = '"' then .next { g.push c with st := .VP_PVALUE_QUOTED }
    else if c = ';' then
      .next { (g.pushAvp { g.avp with value := g.cur }).push c with st := .VP_PARAM_SEP_SWS }
    else if c = stopChar then .stop (g.params ++ [{ g.avp with value := g.cur }])
    else .next (g.push c)
  | .VP_PVALUE_QUOTED =>
    if c = '\r' ∨ c = '\n' then .next ((g.caseCrLf c g).push c)
    else if c = '"' then
      .next { (g.pushAvp { g.avp with value := g.cur }).push c with st := .VP_PARAM_SEP }
    else if c = '\\' then .escape fun d => (g.push c).push d
    else .next (g.push c)
  | .ST_CR => if c = '\n' then .next { g.push c with st := .ST_CRLF } else .fail .MALFORMED_SIP_MSG
  | .ST_LF => .next (g.afterEol c)
  | .ST_CRLF => .next (g.afterEol c)

/-- After the loop. -/
def finish : Except ParseErr (List SipAvp) :=
  match g.st with
  | .VP_PNAME => .ok (g.params ++ [{ g.avp with name := g.cur }])
  | .VP_PVALUE => .ok (g.params ++ [{ g.avp with value := g.cur }])
  | .VP_PARAM_SEP | .VP_PARAM_SEP_SWS => .ok g.params
  | .VP_PNAME_EQU | .VP_PNAME_EQU_SWS => .ok (g.params ++ [g.avp])
  | _ => .error .MALFORMED_SIP_MSG

end GenParams

/-- `_parse_gen_params` : the parameters, and the text from the character that stopped it on. -/
def parseGenParamsFrom (begWSc : Bool) (stopChar : Char) (s : Str) :
    Except ParseErr (List SipAvp × Str) :=
  scan (GenParams.char stopChar) GenParams.finish .MALFORMED_SIP_MSG (GenParams.start begWSc) s

/-- `parse_gen_params_sc`, which expects a `;`. -/
def parseGenParamsSc (stopChar : Char) (s : Str) : Except ParseErr (List SipAvp × Str) :=
  parseGenParamsFrom true stopChar s

/-! ## Name-addresses -/

/-- The states of `parse_nameaddr`. -/
inductive NaState where
  | NA_SWS
  | NA_MAYBE_URI
  | NA_MAYBE_URI_END
  | NA_DISP
  | NA_DISP_QUOTED
  | NA_DISP_LAQUOT
  | NA_URI
  | ST_CR
  | ST_LF
  | ST_CRLF
  deriving DecidableEq, Repr

/-- The state of the loop of `parse_nameaddr`. -/
structure NaParser where
  st : NaState
  saved : NaState
  /-- The text from `beg` to the cursor. -/
  cur : Str
  /-- The text from `beg` to `uri_end`. -/
  uri : Str
  name : Str

namespace NaParser

/-- Before the first character. -/
def start : NaParser :=
  ⟨.NA_SWS, .NA_SWS, [], [], []⟩

variable (p : NaParser)

/-- Adds a character to the current part. -/
def push (c : Char) : NaParser :=
  { p with cur := p.cur ++ [c] }

/-- A line end, with the state to go back to. -/
def lineEnd (c : Char) : NaParser :=
  { p.push c with saved := p.st, st := if c = '\r' then .ST_CR else .ST_LF }

/-- The `<` before an address, after the display name. -/
def laquot (name : Str) : NaParser :=
  { p with st := .NA_URI, cur := [], name := name }

/-- After the end of a line. -/
def afterEol (c : Char) : NaParser :=
  if p.saved = .NA_MAYBE_URI then
    { p.push c with
      st := .NA_MAYBE_URI_END
      saved := .NA_MAYBE_URI_END
      uri := p.cur.take (p.cur.length - if p.st = .ST_CRLF then 2 else 1) }
  else { p.push c with st := p.saved }

/-- The loop body of `parse_nameaddr`. It stops where the parameters start, before a `;` or after
the `>`, with the display name and the address. -/
def char (c : Char) : Scan NaParser (Str × Str) ParseErr :=
  match p.st with
  | .NA_SWS =>
    if c = '"' then .next { p with st := .NA_DISP_QUOTED, cur := [c] }
    else if c = '<' then .next (p.laquot p.name)
    else if c = '\r' ∨ c = '\n' ∨ isWsp c then .next (p.push c)
    else .next { p with st := .NA_MAYBE_URI, cur := [c] }
  | .NA_MAYBE_URI =>
    if c = '\r' ∨ c = '\n' then .next (p.lineEnd c)
    else if isWsp c then .next { p.push c with st := .NA_MAYBE_URI_END, uri := p.cur }
    else if c = '<' then .next (p.laquot p.cur)
    else if c = ';' then .stop (p.name, p.cur)
    else .next (p.push c)
  | .NA_MAYBE_URI_END =>
    if c = '\r' ∨ c = '\n' then .next (p.lineEnd c)
    else if c = ';' then .stop (p.name, p.uri)
    else if c = '<' then .next (p.laquot p.uri)
    else if isWsp c then .next (p.push c)
    else .next { p.push c with st := .NA_DISP }
  | .NA_DISP =>
    if c = '"' then .next { p with st := .NA_DISP_QUOTED, cur := [c] }
    else if c = '<' then .next (p.laquot p.cur)
    else .next (p.push c)
  | .NA_DISP_QUOTED =>
    if c = '"' then .next { p.push c with st := .NA_DISP_LAQUOT, name := p.cur ++ [c] }
    else if c = '\\' then .escape fun d => (p.push c).push d
    else .next (p.push c)
  | .NA_DISP_LAQUOT =>
    if c = '\r' ∨ c = '\n' then .next (p.lineEnd c)
    else if c = '<' then .next (p.laquot p.name)
    else if isWsp c then .next (p.push c)
    else .fail .MALFORMED_SIP_MSG
  | .NA_URI => if c = '>' then .stop (p.name, p.cur) else .next (p.push c)
  | .ST_CR => if c = '\n' then .next { p.push c with st := .ST_CRLF } else .fail .MALFORMED_SIP_MSG
  | .ST_LF => .next (p.afterEol c)
  | .ST_CRLF => .next (p.afterEol c)

/-- After the loop. -/
def finish : Except ParseErr (Str × Str) :=
  match p.st with
  | .NA_MAYBE_URI => .ok (p.name, p.cur)
  | .NA_MAYBE_URI_END => .ok (p.name, p.uri)
  | _ => .error .MALFORMED_SIP_MSG

end NaParser

/-- `sip_nameaddr`. -/
structure SipNameaddr where
  name : Str
  addr : Str
  params : List SipAvp
  deriving DecidableEq, Repr

/-- The text of the parameters : the `>` before them is not part of it. -/
def dropRaquot : Str → Str
  | '>' :: cs => cs
  | s => s

/-- A name-address that fills the text. -/
def parseNameaddr (s : Str) : Except ParseErr SipNameaddr :=
  match scan NaParser.char NaParser.finish .MALFORMED_SIP_MSG NaParser.start s with
  | .error e => .error e
  | .ok ((name, addr), rest) =>
    (parseGenParamsSc '\x00' (dropRaquot rest)).map fun r => ⟨name, addr, r.1⟩

/-! ## From and To -/

/-- `sip_from_to`. -/
structure SipFromTo where
  nameaddr : SipNameaddr
  tag : Str
  deriving DecidableEq, Repr

/-- `c` is the letter `l` in either case. -/
def isLetter (l c : Char) : Bool :=
  c == l || c.toNat + 0x20 == l.toNat

/-- The name starts with these letters. There is no state for what follows them. -/
def startsWith (letters name : Str) : Bool :=
  letters.length ≤ name.length && (letters.zip name).all fun p => isLetter p.1 p.2

/-- `parse_from_to` : the last tag counts. -/
def parseFromTo (s : Str) : Except ParseErr SipFromTo :=
  (parseNameaddr s).map fun na =>
    ⟨na, na.params.foldl (fun tag p => if startsWith "tag".toList p.name then p.value else tag) []⟩

end Sems
