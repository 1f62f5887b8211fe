import Sems.SipMsg
import Sems.OrdMap

/-!
# Client authentication

The session event handler `UACAuth` (`core/plug-in/uac_auth/UACAuth.cpp`) answers 401 and 407
replies. It keeps every request until its final reply. When a challenge comes for one, the request
is sent again with an authorization header (`onSipReply`), unless it had such a header already,
which is then a failed authentication. Later requests get the header at once (`onSendRequest`), and
a challenge to such a request is not a failure, which is kept in the flag `nonceReuse`.

MD5 and the printing of bodies are parameters. What the dialog does with a request that is sent
again is an input (`ResendEnv`). The number of the application's request, the reason a request was
sent for and the two logs are for the statements.
-/

namespace Sems

/-- The answer to a 401. -/
def SIP_HDR_AUTHORIZATION : Str := "Authorization".toList

/-- The answer to a 407. -/
def SIP_HDR_PROXY_AUTHORIZATION : Str := "Proxy-Authorization".toList

/-- The challenge of a 407. -/
def SIP_HDR_PROXY_AUTHENTICATE : Str := "Proxy-Authenticate".toList

/-- The challenge of a 401. -/
def SIP_HDR_WWW_AUTHENTICATE : Str := "WWW-Authenticate".toList

/-- The two kinds of challenges, with the codes 401 and 407. -/
inductive AuthKind where
  | www
  | proxy
  deriving DecidableEq

/-- The source takes every code but 401 for a proxy's. -/
def AuthKind.ofCode (code : ℕ) : AuthKind :=
  if code = 401 then .www else .proxy

/-- The header of a request. -/
def AuthKind.hdr : AuthKind → Str
  | .www => SIP_HDR_AUTHORIZATION
  | .proxy => SIP_HDR_PROXY_AUTHORIZATION

/-- The header of a challenge. -/
def AuthKind.challengeHdr : AuthKind → Str
  | .www => SIP_HDR_WWW_AUTHENTICATE
  | .proxy => SIP_HDR_PROXY_AUTHENTICATE

/-! ## Challenges -/

/-- A digest challenge. -/
structure UACAuthDigestChallenge where
  realm : Str
  qop : Str
  nonce : Str
  opaqueData : Str
  algorithm : Str

/-- The credentials. -/
structure UACAuthCred where
  user : Str
  pwd : Str

/-- The text after the first `name` that is at the beginning or after a comma or a blank. `prev` is
the character before the text. -/
def findName (name : Str) : Option Char → Str → Option Str
  | _, [] => none
  | prev, c :: cs =>
    if name.isPrefixOf (c :: cs) ∧ (prev = none ∨ prev = some ',' ∨ prev = some ' ') then
      some ((c :: cs).drop name.length)
    else findName name (some c) cs

/-- The value of an attribute, up to a comma or a quote. -/
def findAttribute (name header : Str) : Str :=
  match findName name none header with
  | none => []
  | some rest =>
    (rest.dropWhile fun c => c == ' ' || c == '=' || c == '"').takeWhile
      fun c => c != ',' && c != '"'

/-- `parse_header` : whether the challenge can be used, and the challenge, which only a digest
header writes. -/
def parseHeader (authHdr : Str) (challenge : UACAuthDigestChallenge) :
    Bool × UACAuthDigestChallenge :=
  let text := authHdr.dropWhile (· == ' ')
  if text = [] then (false, challenge)
  else if (text.take 6).map Char.toUpper ≠ "DIGEST".toList then (false, challenge)
  else
    let challenge : UACAuthDigestChallenge := {
      realm := findAttribute "realm".toList authHdr
      nonce := findAttribute "nonce".toList authHdr
      opaqueData := findAttribute "opaque".toList authHdr
      algorithm := findAttribute "algorithm".toList authHdr
      qop := findAttribute "qop".toList authHdr }
    (challenge.realm ≠ [] ∧ challenge.nonce ≠ [], challenge)

variable (challenge : UACAuthDigestChallenge)

/-- The algorithm is not MD5. -/
def UACAuthDigestChallenge.unsupported : Bool :=
  challenge.algorithm ≠ [] ∧ challenge.algorithm ≠ "MD5".toList ∧ challenge.algorithm ≠ "md5".toList

/-- The value of `qop`, which is empty without one that is known. -/
def UACAuthDigestChallenge.qopValue : Str :=
  if challenge.qop = [] then []
  else if keyInList challenge.qop "auth-int".toList then "auth-int".toList
  else if keyInList challenge.qop "auth".toList then "auth".toList
  else []

/-! ## The response -/

/-- What is not modelled : MD5 and the text of a body. -/
structure DigestOps where
  md5 : Str → BitVec 128
  printBody : AmMimeBody → Str

/-- `cvt_hex` : the 32 hexadecimal digits of a hash value. -/
def cvtHex (hash : BitVec 128) : Str :=
  (List.range 32).map fun i => Nat.digitChar (hash.toNat / 16 ^ (31 - i) % 16)

variable (ops : DigestOps)

/-- The hash value of a text, as it is printed. -/
def DigestOps.hash (text : Str) : Str :=
  cvtHex (ops.md5 text)

/-- `uac_calc_HA1`. -/
def uacCalcHA1 (challenge : UACAuthDigestChallenge) (cred : UACAuthCred) : Str :=
  ops.hash (cred.user ++ ':' :: challenge.realm ++ ':' :: cred.pwd)

/-- `uac_calc_HA2`, with the hash of the body for `auth-int`. -/
def uacCalcHA2 (method uri : Str) (hentity : Option Str) : Str :=
  match hentity with
  | some hentity => ops.hash (method ++ ':' :: uri ++ ':' :: hentity)
  | none => ops.hash (method ++ ':' :: uri)

/-- `uac_calc_response`. -/
def uacCalcResponse (ha1 ha2 : Str) (challenge : UACAuthDigestChallenge) (cnonce qopValue : Str)
    (nonceCount : BitVec 32) : Str :=
  let qop :=
    if qopValue = [] then []
    else int2hex nonceCount ++ ':' :: cnonce ++ ':' :: qopValue ++ [':']
  ops.hash (ha1 ++ ':' :: challenge.nonce ++ ':' :: qop ++ ha2)

/-- The header without the end of its line, from its parts. -/
def authLine (kind : AuthKind) (cred : UACAuthCred) (challenge : UACAuthDigestChallenge)
    (uri cnonce qopValue response : Str) (nonceCount : BitVec 32) : Str :=
  List.flatten
    ([kind.hdr, COLSP, "Digest username=\"".toList, cred.user, "\", realm=\"".toList,
      challenge.realm, "\", nonce=\"".toList, challenge.nonce, "\", uri=\"".toList, uri,
      "\", ".toList] ++
    (if challenge.opaqueData = [] then []
      else ["opaque=\"".toList, challenge.opaqueData, "\", ".toList]) ++
    (if qopValue = [] then []
      else ["qop=".toList, qopValue, ", cnonce=\"".toList, cnonce, "\", nc=".toList,
        int2hex nonceCount, ", ".toList]) ++
    ["response=\"".toList, response, "\", algorithm=MD5".toList])

/-- A header is added to the headers of a request, which may be an empty line. -/
def addHdr (hdrs result : Str) : Str :=
  if hdrs = CRLF ∨ hdrs = ['\r'] ∨ hdrs = ['\n'] then result else hdrs ++ result

/-! ## The handler -/

/-- What is kept of a request. -/
structure SIPRequestInfo where
  method : Str
  body : AmMimeBody
  hdrs : Str
  rUri : Str

/-- Why a request was sent : by the application without a header of the handler, with a nonce used
again, or in answer to a challenge. -/
inductive AuthAttempt where
  | plain
  | reused (kind : AuthKind)
  | answer (kind : AuthKind)
  deriving DecidableEq

/-- A request that waits for its final reply. `root` is the number of the application's request. -/
structure SentRequest extends SIPRequestInfo where
  root : ℕ
  attempt : AuthAttempt

/-- `answerable` says that the challenge can be answered and the dialog sends the request. -/
inductive AuthLog where
  | sent (root : ℕ) (attempt : AuthAttempt)
  | challenged (root : ℕ) (attempt : AuthAttempt) (kind : AuthKind) (answerable : Bool)
  deriving DecidableEq

/-- The handler. `written` has the nonces and counts of the headers with a `qop`, in order. -/
structure UACAuth where
  sentRequests : OrdMap ℕ SentRequest
  challenge : UACAuthDigestChallenge
  challengeCode : ℕ
  nonce : Str
  nonceCount : BitVec 32
  nonceReuse : Bool
  written : List (Str × BitVec 32)
  nextRoot : ℕ
  log : List AuthLog

/-- A request at the hook of the handler. -/
structure AuthRequest extends SIPRequestInfo where
  cseq : ℕ

/-- A reply, with what the handler reads of it. -/
structure AuthReply where
  cseq : ℕ
  code : ℕ
  hdrs : Str

/-- What happens to the handler, with the remote URI of the dialog and a random number. A request
goes out after the hook or not. -/
inductive AuthEv where
  | request (req : AuthRequest) (noAuth : Bool) (remoteUri : Str) (random : BitVec 32) (sent : Bool)
  | reply (reply : AuthReply) (remoteUri : Str) (random : BitVec 32) (env : ResendEnv)

namespace UACAuth

/-- `challenge_code` is not set by the constructor. -/
def init (challengeCode : ℕ) : UACAuth where
  sentRequests := .empty
  challenge := ⟨[], [], [], [], []⟩
  challengeCode := challengeCode
  nonce := []
  nonceCount := 0
  nonceReuse := false
  written := []
  nextRoot := 0
  log := []

variable (s : UACAuth)

/-- A log entry. -/
def note (entry : AuthLog) : UACAuth :=
  { s with log := s.log ++ [entry] }

/-- The request is not waited for any more. -/
def eraseRequest (cseq : ℕ) : UACAuth :=
  { s with sentRequests := s.sentRequests.erase cseq }

/-- The count for the nonce of the challenge. -/
def nextCount : BitVec 32 :=
  if s.challenge.nonce = s.nonce then s.nonceCount + 1 else 1

/-- A header with a `qop` is written. -/
def countUse : UACAuth :=
  if s.challenge.qopValue = [] then s
  else
    { s with
      nonceCount := s.nextCount
      written := s.written ++ [(s.challenge.nonce, s.nextCount)] }

variable (ops : DigestOps) (cred : UACAuthCred)

variable (s : UACAuth) (method uri : Str) (body : AmMimeBody) (random : BitVec 32)

/-- The header for the challenge, with the count. -/
def authHeader (code : ℕ) (method uri : Str) (body : AmMimeBody) (random : BitVec 32) : Str :=
  let qopValue := s.challenge.qopValue
  let cnonce := if qopValue = [] then [] else int2hex random
  let hentity :=
    if qopValue = "auth-int".toList then some (ops.hash (ops.printBody body)) else none
  let ha1 := uacCalcHA1 ops s.challenge cred
  let ha2 := uacCalcHA2 ops method uri hentity
  let response := uacCalcResponse ops ha1 ha2 s.challenge cnonce qopValue s.nonceCount
  authLine (.ofCode code) cred s.challenge uri cnonce qopValue response s.nonceCount

/-- `do_auth` with the saved challenge : the header. -/
def doAuth (code : ℕ) (method uri : Str) (body : AmMimeBody) (random : BitVec 32) :
    UACAuth × Option Str :=
  if s.challenge.unsupported then (s, none)
  else
    (s.countUse, some (s.countUse.authHeader ops cred code method uri body random ++ CRLF))

/-- `do_auth` with the header of a challenge. -/
def doAuthHdr (code : ℕ) (authHdr : Str) (method uri : Str) (body : AmMimeBody)
    (random : BitVec 32) : UACAuth × Option Str :=
  if authHdr = [] then (s, none)
  else
    let (usable, challenge) := parseHeader authHdr s.challenge
    let s := { s with challenge }
    if usable then { s with challengeCode := code }.doAuth ops cred code method uri body random
    else (s, none)

/-- `onSendRequest`, for the application's request `root` and, if it is sent again, the kind of the
challenge. -/
def onSendRequest (req : AuthRequest) (noAuth : Bool) (remoteUri : Str) (random : BitVec 32)
    (root : ℕ) (answers : Option AuthKind) : UACAuth × AuthAttempt :=
  let code := s.challengeCode
  let (s, result) :=
    if noAuth = true ∨ s.challenge.nonce = [] then (s, none)
    else s.doAuth ops cred code req.method remoteUri req.body random
  match result with
  | some result =>
    let attempt := AuthAttempt.reused (.ofCode code)
    let info := { req.toSIPRequestInfo with hdrs := addHdr req.hdrs result }
    ({ s with
      nonceReuse := true
      sentRequests := s.sentRequests.insert req.cseq ⟨info, root, attempt⟩ }, attempt)
  | none =>
    let attempt := answers.elim .plain .answer
    ({ s with
      nonceReuse := false
      sentRequests := s.sentRequests.insert req.cseq ⟨req.toSIPRequestInfo, root, attempt⟩ },
      attempt)

/-- A request of the application. -/
def sendRequest (cred : UACAuthCred) (s : UACAuth) (req : AuthRequest) (noAuth : Bool)
    (remoteUri : Str) (random : BitVec 32) (sent : Bool) : UACAuth :=
  let root := s.nextRoot
  let (s, attempt) :=
    { s with nextRoot := root + 1 }.onSendRequest ops cred req noAuth remoteUri random root none
  if sent then s.note (.sent root attempt) else s

/-- `dlg->sendRequest` in `onSipReply`. -/
def resend (ri : SentRequest) (kind : AuthKind) (hdrs remoteUri : Str) (random : BitVec 32)
    (env : ResendEnv) : UACAuth :=
  if env.outcome = .refused then s
  else
    let req : AuthRequest :=
      ⟨{ method := ri.method, body := ri.body, hdrs := env.amend hdrs, rUri := remoteUri },
        env.cseq⟩
    let (s, attempt) :=
      s.onSendRequest ops cred req true remoteUri random ri.root (some kind)
    if env.outcome = .sent then s.note (.sent ri.root attempt) else s

/-- The request has the header the challenge asks for, and its nonce was not used again. -/
def authFailed (ri : SentRequest) (kind : AuthKind) : Bool :=
  !s.nonceReuse && getHeaderSingle ri.hdrs kind.hdr ≠ []

/-- The challenge is a digest that the handler supports. -/
def usable (authHdr : Str) : Bool :=
  authHdr ≠ [] && (parseHeader authHdr s.challenge).1 &&
    !(parseHeader authHdr s.challenge).2.unsupported

/-- The request is sent again with the header, if the challenge can be answered. -/
def answerChallenge (ri : SentRequest) (code : ℕ) (authHdr remoteUri : Str) (random : BitVec 32)
    (env : ResendEnv) : UACAuth :=
  let kind := AuthKind.ofCode code
  let authUri := if ri.rUri = [] then remoteUri else ri.rUri
  match { s with nonceReuse := false }.doAuthHdr ops cred code authHdr ri.method authUri ri.body
      random with
  | (s, none) => s
  | (s, some result) =>
    s.resend ops cred ri kind (addHdr (removeHeader ri.hdrs kind.hdr) result) remoteUri random env

/-- A challenge to a request that waits for its reply. -/
def onChallenge (ri : SentRequest) (reply : AuthReply) (remoteUri : Str) (random : BitVec 32)
    (env : ResendEnv) : UACAuth :=
  let kind := AuthKind.ofCode reply.code
  let authHdr := getHeaderSingle reply.hdrs kind.challengeHdr
  let answerable := s.usable authHdr && env.outcome == .sent
  let noted := s.note (.challenged ri.root ri.attempt kind answerable)
  if s.authFailed ri kind then noted
  else noted.answerChallenge ops cred ri reply.code authHdr remoteUri random env

/-- `UACAuth::onSipReply`. -/
def onSipReply (reply : AuthReply) (remoteUri : Str) (random : BitVec 32) (env : ResendEnv) :
    UACAuth :=
  if reply.code = 407 ∨ reply.code = 401 then
    match s.sentRequests.find? reply.cseq with
    | none => s
    | some ri => (s.onChallenge ops cred ri reply remoteUri random env).eraseRequest reply.cseq
  else if 200 ≤ reply.code then s.eraseRequest reply.cseq
  else s

/-- A call from outside. -/
def step (ev : AuthEv) : UACAuth :=
  match ev with
  | .request req noAuth remoteUri random sent =>
    s.sendRequest ops cred req noAuth remoteUri random sent
  | .reply reply remoteUri random env => s.onSipReply ops cred reply remoteUri random env

/-- A new handler after some events. -/
def run (challengeCode : ℕ) (evs : List AuthEv) : UACAuth :=
  evs.foldl (step ops cred) (init challengeCode)

/-! ## Requests and challenges -/

/-- A digest that does nothing, for the runs on fixed inputs. -/
def nullOps : DigestOps where
  md5 := fun _ => 0
  printBody := fun _ => []

/-- Credentials for the examples. -/
def nullCred : UACAuthCred := ⟨"user".toList, "pwd".toList⟩

/-- The dialog sends a request again as it is. -/
def resendAt (cseq : ℕ) : ResendEnv := ⟨cseq, id, .sent⟩

/-- A request without headers. -/
def plainRequest (method : Str) (cseq : ℕ) : AuthEv :=
  .request ⟨{ method, body := .none, hdrs := [], rUri := "sip:b".toList }, cseq⟩ false
    "sip:b".toList 0 true

/-- A challenge with `qop`. -/
def challengeText : Str :=
  "WWW-Authenticate: Digest realm=\"r\", nonce=\"n\", qop=\"auth\"\r\n".toList

/-- A 401 to the request `cseq`, which is sent again with the CSeq `next`. -/
def challengeTo (cseq next : ℕ) : AuthEv :=
  .reply ⟨cseq, 401, challengeText⟩ "sip:b".toList 0 (resendAt next)

end UACAuth

end Sems
