import Mathlib

/-!
# SIP messages

The parts of a SIP message the dialog layer reads : the header block as text
(`core/AmSipMsg.cpp`, `core/AmUtils.cpp`), the body as a tree of MIME parts
(`core/AmMimeBody.cpp`), and the fields of `AmSipRequest` and `AmSipReply`
(`core/AmSipMsg.h`).

A C++ string is the list of its characters. Positions in it are natural numbers.
-/

namespace Sems

/-- A C++ string. -/
abbrev Str := List Char

/-- The end of a line. -/
def CRLF : Str := "\r\n".toList

/-- Between a name and its value. -/
def COLSP : Str := ": ".toList

/-- The options that are supported. -/
def SIP_HDR_SUPPORTED : Str := "Supported".toList

/-- Its compact form. -/
def SIP_HDR_SUPPORTED_COMPACT : Str := "k".toList

/-- The options that are required. -/
def SIP_HDR_REQUIRE : Str := "Require".toList

/-- The number of a reliable reply. -/
def SIP_HDR_RSEQ : Str := "RSeq".toList

/-- The option for reliable replies. -/
def SIP_EXT_100REL : Str := "100rel".toList

/-- A session description. -/
def SIP_APPLICATION_SDP : Str := "application/sdp".toList

/-- A CSTA body. -/
def SIP_APPLICATION_CSTA : Str := "application/csta+xml".toList

/-- The type of a body with parts. -/
def MULTIPART : Str := "multipart".toList

/-! ## Header blocks -/

/-- `c` in lower case, for the letters `A` to `Z`. -/
def lowerChar (c : Char) : Char :=
  if 'A' ≤ c ∧ c ≤ 'Z' then Char.ofNat (c.toNat + 32) else c

/-- Compare the lower-case name `hdr` with the text, up to the first difference : what is left
of both. -/
def matchName : Str → Str → Str × Str
  | h :: hdr, c :: cs => if lowerChar c = h then matchName hdr cs else (h :: hdr, c :: cs)
  | hdr, cs => (hdr, cs)

/-- The text after the next line feed. -/
def skipLine : Str → Str
  | [] => []
  | c :: cs => if c = '\n' then cs else skipLine cs

/-- After a header name : blanks and a colon. -/
def atColon (cs : Str) : Bool :=
  (cs.dropWhile fun c => c == ' ' || c == '\t').head? == some ':'

/-- The first loop of `findHeader` : the text after `hdr`, in the first line that starts with it and
a colon. Every round but the last goes to the next line. -/
def searchName (hdr : Str) : ℕ → Str → Option Str
  | 0, _ => none
  | _ + 1, [] => none
  | k + 1, cs =>
    match matchName hdr cs with
    | ([], rest) => if atColon rest then some rest else searchName hdr k (skipLine rest)
    | (_, rest) => searchName hdr k (skipLine rest)

/-- Where a header was found : its value is between `pos1` and `pos2`, and `hdrStart` is the
end of its name. -/
structure HeaderPos where
  pos1 : ℕ
  pos2 : ℕ
  hdrStart : ℕ

/-- `findHeader` from `skip` on. -/
def findHeader (hdrs hdrName : Str) (skip : ℕ) : Option HeaderPos :=
  if hdrs.length ≤ skip then none
  else
    match searchName (hdrName.map lowerChar) hdrs.length (hdrs.drop skip) with
    | none => none
    | some rest =>
      -- only blanks are skipped here : a tab before the colon ends the search without a result
      match rest.dropWhile (· == ' ') with
      | ':' :: cs =>
        let value := cs.dropWhile (· == ' ')
        let p := hdrs.length - value.length
        let len := (value.takeWhile fun c => c != '\r' && c != '\n').length
        some ⟨p, p + len, hdrs.length - rest.length⟩
      | _ => none

/-- The loop of `getHeader` : the values from position `skip` on, after the text `ret`. -/
def getHeaderLoop (hdrs hdrName : Str) : ℕ → ℕ → Str → Str
  | 0, _, ret => ret
  | k + 1, skip, ret =>
    match findHeader hdrs hdrName skip with
    | none => ret
    | some p =>
      let ret := if skip ≠ 0 then ret ++ ", ".toList else ret
      getHeaderLoop hdrs hdrName k (p.pos2 + 1)
        (ret ++ (hdrs.drop p.pos1).take (p.pos2 - p.pos1))

/-- All values of a header, separated by commas. -/
def getHeader (hdrs hdrName : Str) : Str :=
  if hdrName = [] then [] else getHeaderLoop hdrs hdrName (hdrs.length + 1) 0 []

/-- All values of a header, by its name or else by its compact name. -/
def getHeaderCompact (hdrs hdrName compactHdrName : Str) : Str :=
  let res := getHeader hdrs hdrName
  if res.length = 0 then getHeader hdrs compactHdrName else res

/-- The value of the first header with the name. -/
def getHeaderSingle (hdrs hdrName : Str) : Str :=
  if hdrName = [] then []
  else
    match findHeader hdrs hdrName 0 with
    | none => []
    | some p => (hdrs.drop p.pos1).take (p.pos2 - p.pos1)

/-- The loop of `removeHeader`. With a header go the line ends after it. -/
def removeHeaderLoop (hdrName : Str) : ℕ → Str → Str
  | 0, hdrs => hdrs
  | k + 1, hdrs =>
    match findHeader hdrs hdrName 0 with
    | none => hdrs
    | some p =>
      let lineEnds := (hdrs.drop p.pos2).takeWhile fun c => c == '\r' || c == '\n'
      removeHeaderLoop hdrName k
        (hdrs.take (p.hdrStart - hdrName.length) ++ hdrs.drop (p.pos2 + lineEnds.length))

/-- Remove all headers with the name. Every round but the last makes the text shorter. -/
def removeHeader (hdrs hdrName : Str) : Str :=
  removeHeaderLoop hdrName hdrs.length hdrs

/-- The value of the first header with the name, or else with the compact name. -/
def getHeaderSingleCompact (hdrs hdrName compactHdrName : Str) : Str :=
  let res := getHeaderSingle hdrs hdrName
  if res.length = 0 then getHeaderSingle hdrs compactHdrName else res

/-- A header value without its parameters. -/
def stripHeaderParams (hdr : Str) : Str :=
  (hdr.dropWhile (· == ' ')).takeWhile (· != ';')

/-- Look for the parameter `name` in what is left of a header value. -/
def getHeaderParamLoop (name : Str) : ℕ → Str → Str
  | 0, _ => []
  | k + 1, hdr =>
    match hdr.dropWhile (· != ';') with
    | [] => []
    | c :: cs =>
      if name.length < cs.length then
        if cs.take name.length = name ∧ cs[name.length]? = some '=' then
          (cs.drop (name.length + 1)).takeWhile fun c => c != ';' && c != '\n' && c != '\r'
        else getHeaderParamLoop name k (cs.drop name.length)
      -- the position is still at the semicolon
      else getHeaderParamLoop name k ((c :: cs).drop name.length)

/-- The value of a parameter of a header. -/
def getHeaderParam (hdr name : Str) : Str :=
  getHeaderParamLoop name (hdr.length + 1) hdr

/-- The characters `key_in_list` trims. -/
def isListSep (listDelim c : Char) : Bool :=
  c == ' ' || c == listDelim || c == '\n'

/-- Go back over separators, from position `pos`. -/
def trimBack (listDelim : Char) (sList : Str) : ℕ → ℕ
  | 0 => 0
  | pos + 1 =>
    if (sList[pos + 1]?).any (isListSep listDelim) then trimBack listDelim sList pos else pos + 1

/-- The loop of `key_in_list`, from `pos` on. -/
def keyInListLoop (listDelim : Char) (sList key : Str) : ℕ → ℕ → Bool
  | 0, _ => false
  | k + 1, pos =>
    if sList.length ≤ pos then false
    else
      let posN := (sList.drop pos).findIdx? (· == listDelim)
      let pos2 := trimBack listDelim sList (posN.elim (sList.length - 1) (· + pos))
      if (sList.drop pos).take (pos2 - pos + 1) = key then true
      else
        match posN with
        | none => false
        | some i =>
          let rest := (sList.drop (pos + i)).dropWhile (isListSep listDelim)
          if rest = [] then false
          else keyInListLoop listDelim sList key k (sList.length - rest.length)

/-- `key` is an element of the comma-separated list `sList`. -/
def keyInList (sList key : Str) : Bool :=
  keyInListLoop ',' sList key (sList.length + 1) 0

/-- A header line. -/
def hdrLine (name value : Str) : Str :=
  name ++ COLSP ++ value ++ CRLF

/-- Decimal digits of an unsigned number. -/
def int2str (val : BitVec 32) : Str :=
  Nat.toDigits 10 val.toNat

/-- Hexadecimal digit in lower case. -/
def int2hexLookup (digit : BitVec 32) : Char :=
  "0123456789abcdef".toList.getD digit.toNat '0'

/-- The loop of `int2hex` over the digits left. -/
def int2hexLoop : ℕ → BitVec 32 → Str
  | 0, _ => []
  | i + 1, val => int2hexLookup (val >>> 28) :: int2hexLoop i (val <<< 4)

/-- The eight hexadecimal digits of a number. -/
def int2hex (val : BitVec 32) : Str :=
  int2hexLoop 8 val

example : getHeader "Require: 100rel\r\nRSeq : 7\r\nrequire: x\r\n".toList SIP_HDR_REQUIRE =
    "100rel, x".toList := by
  decide

/-! ## Bodies -/

/-- `c | 0x20`. -/
def lowerB (c : Char) : ℕ :=
  c.toNat ||| 0x20

/-- `lower_cmp_n` returns 0. -/
def lowerEq (l r : Str) : Bool :=
  l.map lowerB == r.map lowerB

/-- A content type, without its parameters. -/
structure AmContentType where
  type : Str
  subtype : Str
  deriving DecidableEq

namespace AmContentType

/-- The main type, in any case. -/
def isType (ct : AmContentType) (t : Str) : Bool :=
  lowerEq t ct.type

/-- The whole type, in any case. -/
def hasContentType (ct : AmContentType) (contentType : Str) : Bool :=
  let none := ct.type == [] && ct.subtype == []
  if contentType == [] && none then true
  else if (contentType == []) != none then false
  else lowerEq (ct.type ++ '/' :: ct.subtype) contentType

end AmContentType

/-- A body, or a part of one. Without a payload its pointer is null. -/
inductive AmMimeBody where
  | mk (ct : AmContentType) (payload : Option Str) (contentLen : ℕ) (parts : List AmMimeBody)

namespace AmMimeBody

/-- The content type. -/
def ct : AmMimeBody → AmContentType
  | mk ct _ _ _ => ct

/-- The payload, if there is one. -/
def getPayload : AmMimeBody → Option Str
  | mk _ payload _ _ => payload

/-- The length of the payload. -/
def getLen : AmMimeBody → ℕ
  | mk _ _ contentLen _ => contentLen

/-- The parts of a multipart body. -/
def getParts : AmMimeBody → List AmMimeBody
  | mk _ _ _ parts => parts

/-- The body of a message without one. -/
def none : AmMimeBody :=
  mk ⟨[], []⟩ Option.none 0 []

variable (body : AmMimeBody)

/-- `AmMimeBody::empty`. -/
def empty : Bool :=
  (body.getPayload.isNone || body.getLen == 0) && body.getParts.isEmpty

mutual

/-- `hasContentType` returns a part. -/
def hasPart (contentType : Str) : AmMimeBody → Bool
  | mk ct _ _ parts =>
    ct.hasContentType contentType || ct.isType MULTIPART && anyHasPart contentType parts

/-- One of the parts has it. -/
def anyHasPart (contentType : Str) : List AmMimeBody → Bool
  | [] => false
  | part :: parts => hasPart contentType part || anyHasPart contentType parts

end

/-- The body itself, or the first of its parts with the content type. Of a part of a part, the part
that holds it is returned. -/
def hasContentType (contentType : Str) : Option AmMimeBody :=
  if body.ct.hasContentType contentType then some body
  else if body.ct.isType MULTIPART then body.getParts.find? (hasPart contentType)
  else Option.none

/-- Set the payload of this part. -/
def setPayload (payload : Str) : AmMimeBody :=
  mk body.ct (some payload) payload.length body.getParts

/-- Set the payload of the part that `hasContentType` returns. -/
def setPartPayload (contentType payload : Str) : AmMimeBody :=
  if body.ct.hasContentType contentType then body.setPayload payload
  else
    match body.getParts.findIdx? (hasPart contentType) with
    | some i =>
      mk body.ct body.getPayload body.getLen
        (body.getParts.modify i fun part => part.setPayload payload)
    | Option.none => body

mutual

/-- The copy constructor drops payloads of length 0. -/
def copy : AmMimeBody → AmMimeBody
  | mk ct payload contentLen parts =>
    if contentLen = 0 ∨ payload.isNone then mk ct Option.none 0 (copyAll parts)
    else mk ct payload contentLen (copyAll parts)

/-- The copies of the parts. -/
def copyAll : List AmMimeBody → List AmMimeBody
  | [] => []
  | part :: parts => copy part :: copyAll parts

end

/-- `addPart`, for a content type that parses to `ct` : the body with the new part. A body of
several parts gets none. -/
def addPart (ct : AmContentType) : Option AmMimeBody :=
  if body.ct.type = [] ∧ body.ct.subtype = [] then
    some (mk ct body.getPayload body.getLen body.getParts)
  else if body.ct.isType MULTIPART then Option.none
  else
    some (mk ⟨MULTIPART, "mixed".toList⟩ body.getPayload 0
      (body.getParts ++ [body.copy, mk ct Option.none 0 []]))

end AmMimeBody

/-! ## Messages -/

/-- The methods the dialog layer tells apart. -/
inductive SipMethod where
  | INVITE
  | CANCEL
  | PRACK
  | UPDATE
  | INFO
  | BYE
  | ACK
  | NOTIFY
  | other (name : Str)
  deriving DecidableEq

/-- A request. `rackCseq` is the CSeq number of the RAck header, `rseq` its RSeq number. -/
structure AmSipRequest where
  method : SipMethod
  cseq : BitVec 32
  rseq : BitVec 32
  rackCseq : BitVec 32
  callid : Str
  fromTag : Str
  hdrs : Str
  body : AmMimeBody

/-- A reply, with what the model reads of it. -/
structure AmSipReply where
  code : ℕ
  cseqMethod : SipMethod
  cseq : BitVec 32
  rseq : BitVec 32
  toTag : Str
  hdrs : Str
  body : AmMimeBody

/-! ## Requests that are sent again -/

/-- What became of a request that is sent again. -/
inductive ResendOutcome where
  | refused
  | failed
  | sent
  deriving DecidableEq

/-- What the dialog does with a request that a handler sends again : its CSeq, what the other
handlers make of the headers before this handler's hook, and whether it is refused before the hook,
or not sent after it. -/
structure ResendEnv where
  cseq : ℕ
  amend : Str → Str
  outcome : ResendOutcome

end Sems
