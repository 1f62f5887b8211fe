import Sems.ParseCommon
import Sems.OrdMap

/-!
# Session timers

The session event handler `SessionTimer` (`core/plug-in/session_timer/SessionTimer.cpp`) keeps the
interval after which a session that is not refreshed ends and its minimum, and writes both into the
INVITE and UPDATE requests, and the interval into the replies.

A received request changes both (`updateTimerRequest`), a positive reply the interval
(`updateTimerReply`), and after a 422 reply to a first request this is sent again with the interval
the peer asks for (`onSipReply`). Setting and removing the timers of the session is left out. The
log is for the statements.
-/

namespace Sems

/-- The interval of the session. -/
def SIP_HDR_SESSION_EXPIRES : Str := "Session-Expires".toList

/-- Its compact form. -/
def SIP_HDR_SESSION_EXPIRES_COMPACT : Str := "x".toList

/-- The least interval. -/
def SIP_HDR_MIN_SE : Str := "Min-SE".toList

/-- The option for session timers. -/
def TIMER_OPTION_TAG : Str := "timer".toList

/-! ## Option tags -/

/-- The parts of a text between commas, without the empty ones. -/
def explodeCommas (s : Str) : List Str :=
  (s.splitOn ',').filter (· ≠ [])

/-- `trim` of blanks. -/
def trimBlanks (s : Str) : Str :=
  (s.dropWhile (· == ' ')).reverse.dropWhile (· == ' ') |>.reverse

/-- `addOptionTag`, if the tag is not there yet. -/
def addOptionTag (hdrs hdrName tag : Str) : Str :=
  let options := getHeader hdrs hdrName
  if options = [] then hdrs ++ hdrLine hdrName tag
  else if (explodeCommas options).any fun entry => trimBlanks entry = tag then hdrs
  else
    match findHeader hdrs hdrName 0 with
    | none => hdrs ++ hdrLine hdrName tag
    | some p => hdrs.take p.pos1 ++ tag ++ ", ".toList ++ hdrs.drop p.pos1

/-! ## The handler -/

/-- The configuration. -/
structure AmSessionTimerConfig where
  enableSessionTimer : Bool
  sessionExpires : ℕ
  minimumTimer : ℕ
  maximumTimer : ℕ

/-- The defaults. -/
def defaultTimerConfig : AmSessionTimerConfig where
  enableSessionTimer := true
  sessionExpires := 120
  minimumTimer := 90
  maximumTimer := 900

/-- Who refreshes the session. -/
inductive SessionRefresher where
  | refreshLocal
  | refreshRemote
  deriving DecidableEq

/-- The role of who refreshes it. -/
inductive SessionRefresherRole where
  | UAC
  | UAS
  deriving DecidableEq

/-- A request, with what the handler reads of it. -/
structure TimerRequest where
  method : SipMethod
  cseq : ℕ
  toTag : Str
  hdrs : Str
  body : AmMimeBody

/-- A reply, with what the handler reads of it. -/
structure TimerReply where
  code : ℕ
  cseqMethod : SipMethod
  cseq : ℕ
  hdrs : Str

/-- The values of `Min-SE` that were taken over from the peer, and the values that were sent. -/
inductive TimerLog where
  | accepted (minSe : ℕ)
  | sentRequest (sessionExpires minSe : ℕ)
  | sentReply (sessionExpires : ℕ)
  deriving DecidableEq

/-- The handler, with a log of the values. -/
structure SessionTimer where
  conf : AmSessionTimerConfig
  accept501Reply : Bool
  sentRequests : OrdMap ℕ TimerRequest
  remoteTimerAware : Bool
  minSe : ℕ
  sessionInterval : ℕ
  sessionRefresher : SessionRefresher
  sessionRefresherRole : SessionRefresherRole
  log : List TimerLog

/-- What happens to the handler. Three places read the dialog's status : whether it is disconnected
when a request is sent, and connected, now and before a reply. -/
inductive SessionTimerEv where
  | rxRequest (method : SipMethod) (hdrs : Str)
  | rxReply (reply : TimerReply) (connected wasConnected : Bool) (env : ResendEnv)
      (disconnected : Bool)
  | sendRequest (req : TimerRequest) (disconnected : Bool)
  | sendReply (cseqMethod : SipMethod) (code : ℕ)

/-- The methods that refresh a session. -/
def isRefreshMethod (method : SipMethod) : Bool :=
  method = .INVITE || method = .UPDATE

namespace SessionTimer

/-- A handler after `configure`. The role and what is known of the peer are not set there. -/
def init (conf : AmSessionTimerConfig) (accept501Reply : Bool) (role : SessionRefresherRole)
    (remoteTimerAware : Bool) : SessionTimer where
  conf := conf
  accept501Reply := accept501Reply
  sentRequests := .empty
  remoteTimerAware := remoteTimerAware
  minSe := conf.minimumTimer
  sessionInterval := conf.sessionExpires
  sessionRefresher := .refreshRemote
  sessionRefresherRole := role
  log := []

variable (s : SessionTimer)

/-- An entry of the log. -/
def note (entry : TimerLog) : SessionTimer :=
  { s with log := s.log ++ [entry] }

/-! ## Received messages -/

/-- The `Session-Expires` header of a message. -/
def sessExpiresHdr (hdrs : Str) : Str :=
  getHeaderSingleCompact hdrs SIP_HDR_SESSION_EXPIRES SIP_HDR_SESSION_EXPIRES_COMPACT

/-- The number in a header, if there is one. -/
def headerNumber (hdr : Str) : Option ℕ :=
  if hdr = [] then none else str2i (stripHeaderParams hdr)

/-- The Min-SE value, if it is readable. -/
def minSeOf (hdrs : Str) : Option ℕ :=
  headerNumber (getHeaderSingle hdrs SIP_HDR_MIN_SE)

/-- The interval for a request, with the minimum of both sides. -/
def requestInterval (conf : AmSessionTimerConfig) (minSe : ℕ) (sessExpires : Option ℕ) : ℕ :=
  match sessExpires with
  | none => conf.sessionExpires
  | some rem =>
    let interval := if rem < conf.sessionExpires then rem else conf.sessionExpires
    if interval < minSe then minSe else interval

/-- `updateTimer` for a request. -/
def updateTimerRequest (method : SipMethod) (hdrs : Str) : SessionTimer :=
  if isRefreshMethod method then
    let remoteTimerAware :=
      keyInList (getHeaderCompact hdrs SIP_HDR_SUPPORTED SIP_HDR_SUPPORTED_COMPACT) TIMER_OPTION_TAG
    let iMinSe := (minSeOf hdrs).getD s.minSe
    -- the greatest minimum limit of both
    let minSe := if s.minSe < iMinSe then iMinSe else s.minSe
    let refreshRemote := remoteTimerAware && sessExpiresHdr hdrs ≠ [] &&
      getHeaderParam (sessExpiresHdr hdrs) "refresher".toList = "uac".toList
    { s with
      remoteTimerAware
      minSe
      sessionInterval := requestInterval s.conf minSe (headerNumber (sessExpiresHdr hdrs))
      sessionRefresher := if refreshRemote then .refreshRemote else .refreshLocal
      sessionRefresherRole := if refreshRemote then .UAC else .UAS
      log := s.log ++ ((minSeOf hdrs).map TimerLog.accepted).toList }
  else s

/-- The interval for a reply. A value below the minimum is against the rules, and not taken. -/
def replyInterval (minSe interval : ℕ) (sessExpires : Option ℕ) : ℕ :=
  match sessExpires with
  | none => interval
  | some sess => if sess < minSe then minSe else sess

variable (reply : TimerReply)

/-- `updateTimer` for a reply. -/
def updateTimerReply : SessionTimer :=
  if s.conf.enableSessionTimer = false then s
  else if (reply.code < 200 ∨ 300 ≤ reply.code) ∧
      ¬ (s.accept501Reply = true ∧ reply.code = 501) then s
  else
    let hdr := sessExpiresHdr reply.hdrs
    let refreshRemote := hdr ≠ [] ∧ getHeaderParam hdr "refresher".toList = "uas".toList
    { s with
      sessionInterval := replyInterval s.minSe s.sessionInterval (headerNumber hdr)
      sessionRefresher := if refreshRemote then .refreshRemote else .refreshLocal
      sessionRefresherRole := if refreshRemote then .UAS else .UAC }

/-! ## Sent messages -/

/-- The headers of a request that is sent. -/
def requestHdrs (req : TimerRequest) : Str :=
  let hdrs := addOptionTag req.hdrs SIP_HDR_SUPPORTED TIMER_OPTION_TAG
  if isRefreshMethod req.method then
    let hdrs := removeHeader (removeHeader hdrs SIP_HDR_SESSION_EXPIRES) SIP_HDR_MIN_SE
    let refresher :=
      if req.toTag = [] then []
      else ";refresher=".toList ++
        (if s.sessionRefresher = .refreshLocal then "uac".toList else "uas".toList)
    hdrs ++ hdrLine SIP_HDR_SESSION_EXPIRES (Nat.toDigits 10 s.sessionInterval ++ refresher) ++
      hdrLine SIP_HDR_MIN_SE (Nat.toDigits 10 s.minSe)
  else hdrs

/-- `onSendRequest` : the first INVITE or UPDATE is saved as it comes. A BYE is left as it is. -/
def onSendRequest (req : TimerRequest) (disconnected : Bool) : SessionTimer × Str :=
  if req.method = .BYE then (s, req.hdrs)
  else
    let s' :=
      if s.conf.enableSessionTimer && isRefreshMethod req.method && disconnected then
        { s with sentRequests := s.sentRequests.insert req.cseq req }
      else s
    if isRefreshMethod req.method then
      (s'.note (.sentRequest s.sessionInterval s.minSe), s.requestHdrs req)
    else (s', s.requestHdrs req)

/-- `onSendReply`, without the headers it writes. -/
def onSendReply (cseqMethod : SipMethod) (code : ℕ) : SessionTimer :=
  if isRefreshMethod cseqMethod = false ∨ code < 200 ∨ 300 ≤ code then s
  else s.note (.sentReply s.sessionInterval)

/-! ## Replies -/

/-- The value a 422 reply asks for, if it is taken over. -/
def tooSmall (connected : Bool) : Option ℕ :=
  if s.conf.enableSessionTimer && isRefreshMethod reply.cseqMethod && reply.code = 422 && !connected
  then (minSeOf reply.hdrs).filter (· ≤ s.conf.maximumTimer)
  else none

/-- The saved request for a 422 reply is sent again : whether it went out. -/
def resend (env : ResendEnv) (disconnected : Bool) : SessionTimer × Bool :=
  match s.sentRequests.find? reply.cseq with
  | none => (s, false)
  | some ri =>
    if env.outcome = .refused then (s, false)
    else
      let req := { ri with cseq := env.cseq, toTag := [], hdrs := env.amend ri.hdrs }
      ((s.onSendRequest req disconnected).1, env.outcome = .sent)

/-- The request is no longer saved. -/
def eraseRequest (cseq : ℕ) : SessionTimer :=
  { s with sentRequests := s.sentRequests.erase cseq }

/-- A reply that is not answered with a request. -/
def finishReply (wasConnected : Bool) : SessionTimer :=
  let s :=
    if s.conf.enableSessionTimer = true ∧ isRefreshMethod reply.cseqMethod = true ∧
        200 ≤ reply.code ∧ wasConnected = false then s.eraseRequest reply.cseq
    else s
  if isRefreshMethod reply.cseqMethod then s.updateTimerReply reply else s

/-- `SessionTimer::onSipReply`. -/
def onSipReply (connected wasConnected : Bool) (env : ResendEnv) (disconnected : Bool) :
    SessionTimer :=
  match s.tooSmall reply connected with
  | none => s.finishReply reply wasConnected
  | some minSe =>
    match { s with sessionInterval := minSe }.resend reply env disconnected with
    | (s, true) => (s.eraseRequest reply.cseq).note (.accepted minSe)
    | (s, false) => s.finishReply reply wasConnected

/-- A call from outside. -/
def step (ev : SessionTimerEv) : SessionTimer :=
  match ev with
  | .rxRequest method hdrs => s.updateTimerRequest method hdrs
  | .rxReply reply connected wasConnected env disconnected =>
    s.onSipReply reply connected wasConnected env disconnected
  | .sendRequest req disconnected => (s.onSendRequest req disconnected).1
  | .sendReply cseqMethod code => s.onSendReply cseqMethod code

end SessionTimer

end Sems
