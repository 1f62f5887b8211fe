import Sems.DialogReply

/-!
# Requests that could not be sent

`AmSipDialog::sendRequest` advances the offer/answer engine and the status of the dialog before
the request is handed to the transaction layer, and returns an error if the engine refuses it or it
is not sent. The CSeq and the transactions are written only after it was sent. Nothing is taken
back.

`AmOfferAnswer.RefusesRequest`, `CrashesOn`, `requestTaken` and `requestLocal` say what the engine
does in terms of its state and the request alone. `sendRequest_atomic_iff` is the main result : for
which dialogs and requests an error leaves no trace.
-/

namespace Sems

variable {Sdp : Type*}

/-! ## The engine -/

namespace AmOfferAnswer

variable (sdp : SdpOps Sdp) (hdl : Option (SdpHandler Sdp)) (oa : AmOfferAnswer Sdp)
  (req : AmSipRequest)

/-- The handler is asked for the session description : the one in the request is empty, or the
answer is due. -/
def asksFor : Bool :=
  match req.body.hasContentType SIP_APPLICATION_SDP with
  | some part => part.getLen == 0
  | none => oa.answerDue req

/-- The local description with this request : the handler's, the one in the body, or the old
one. -/
def requestLocal : Sdp :=
  if oa.asksFor req then (askHandler hdl oa).2
  else
    match req.body.hasContentType SIP_APPLICATION_SDP with
    | some part => (sdp.parse part.getPayload).1
    | none => oa.sdpLocal

/-- The engine with the local description of the request. -/
def requestPrepared : AmOfferAnswer Sdp :=
  { oa.saveState with sdpLocal := oa.requestLocal sdp hdl req }

/-- The body counts as an offer or an answer. -/
def requestTaken : Bool :=
  (req.body.hasContentType SIP_APPLICATION_SDP).isSome || oa.answerDue req ||
    hasCsta req.body && decide (req.method ≠ .INFO)

/-- The engine refuses the request : the handler has no session description, or the body comes while
an offer is pending, or is empty. -/
def RefusesRequest : Prop :=
  oa.asksFor req = true ∧ (askHandler hdl oa).1 = false ∨
    oa.asksFor req = false ∧ oa.requestTaken req = true ∧
      (oa.state = .offerSent ∨ req.body.empty = true)

/-- The answer has no place in the body, and the null pointer is used. -/
def CrashesOn : Prop :=
  req.body.hasContentType SIP_APPLICATION_SDP = none ∧ oa.answerDue req = true ∧
    (askHandler hdl oa).1 = true ∧ req.body.addPart sdpType = none

variable {sdp hdl oa req}

theorem state_ne_of_askHandler (h : (askHandler hdl oa).1 = true) : oa.state ≠ .offerSent := by
  intro hst
  cases hdl <;> simp [askHandler, hst] at h

variable {msg : OaMsg}

theorem finishRequest_accepted (oa : AmOfferAnswer Sdp) (msg : OaMsg) (req : AmSipRequest)
    {has : Bool} (hands : has || (hasCsta req.body && decide (req.method ≠ .INFO)))
    (hst : oa.state ≠ .offerSent) (hb : req.body.empty = false) :
    ∃ oa', oa.finishRequest msg req has = (oa', .ok req) ∧ oa'.state ≠ oa.state := by
  obtain ⟨hok, hne, -⟩ := onTxSdp_accepted msg hst hb
  rw [finishRequest, if_pos hands]
  generalize oa.onTxSdp msg req.body = res at hok hne
  obtain ⟨oa', ok⟩ := res
  cases hok
  exact ⟨oa', rfl, hne⟩

/-- The engine and the body after the handler gave a session description. -/
theorem onRequestOut_generated (sdp : SdpOps Sdp) (msg : OaMsg) (ha : oa.asksFor req)
    (hok : (askHandler hdl oa).1 = true) (hc : ¬ oa.CrashesOn hdl req) :
    ∃ body : AmMimeBody, body.empty = false ∧
      oa.onRequestOut sdp hdl msg req =
        (oa.requestPrepared sdp hdl req).finishRequest msg { req with body := body } true := by
  have hprint := sdp.print_ne_nil (askHandler hdl oa).2
  simp only [requestPrepared, requestLocal, ha, if_true, onRequestOut, getSdpBody,
    askHandler_saveState hok]
  cases hp : req.body.hasContentType SIP_APPLICATION_SDP with
  | some part =>
    have hlen : part.getLen = 0 := by simpa [asksFor, hp] using ha
    simp only [hlen, if_true]
    exact ⟨_, empty_setPartPayload hprint (by rw [withSdpPart, hp]; rfl), rfl⟩
  | none =>
    have hdue : oa.answerDue req = true := by simpa [asksFor, hp] using ha
    simp only [hdue, if_true]
    cases hadd : req.body.addPart sdpType with
    | none => exact absurd ⟨hp, hdue, hok, hadd⟩ hc
    | some b => exact ⟨_, empty_setPartPayload hprint (by rw [withSdpPart, hp]; exact hadd), rfl⟩

variable {sdp : SdpOps Sdp}

/-- Without one, the request stays as it is. -/
theorem onRequestOut_given (ha : oa.asksFor req = false) :
    oa.onRequestOut sdp hdl msg req =
      (oa.requestPrepared sdp hdl req).finishRequest msg req
        (req.body.hasContentType SIP_APPLICATION_SDP).isSome := by
  simp only [requestPrepared, requestLocal, ha, Bool.false_eq_true, if_false, onRequestOut]
  cases hp : req.body.hasContentType SIP_APPLICATION_SDP with
  | some part =>
    have hlen : part.getLen ≠ 0 := by simpa [asksFor, hp] using ha
    simp only [hlen, if_false]
    rfl
  | none =>
    have hdue : oa.answerDue req = false := by simpa [asksFor, hp] using ha
    simp only [hdue, Bool.false_eq_true, if_false]
    rfl

/-- If the handler is not asked, the body is taken for what it carries. -/
theorem requestTaken_of_not_asked (ha : oa.asksFor req = false) :
    oa.requestTaken req = ((req.body.hasContentType SIP_APPLICATION_SDP).isSome ||
      hasCsta req.body && decide (req.method ≠ .INFO)) := by
  cases hp : req.body.hasContentType SIP_APPLICATION_SDP with
  | some part => simp [requestTaken, hp]
  | none =>
    have hdue : oa.answerDue req = false := by simpa [asksFor, hp] using ha
    simp [requestTaken, hp, hdue]

theorem requestTaken_of_asked (ha : oa.asksFor req = true) : oa.requestTaken req = true := by
  cases hp : req.body.hasContentType SIP_APPLICATION_SDP with
  | some part => simp [requestTaken, hp]
  | none =>
    have hdue : oa.answerDue req = true := by simpa [asksFor, hp] using ha
    simp [requestTaken, hdue]

theorem requestLocal_of_not_taken (h : oa.requestTaken req = false) :
    oa.requestLocal sdp hdl req = oa.sdpLocal := by
  rw [requestTaken, Bool.or_eq_false_iff, Bool.or_eq_false_iff] at h
  obtain ⟨⟨hp, hdue⟩, -⟩ := h
  rw [Option.isSome_eq_false_iff, Option.isNone_iff_eq_none] at hp
  simp [requestLocal, asksFor, hp, hdue]

/-- A request the engine refuses leaves its local description behind. -/
theorem onRequestOut_refuses (h : oa.RefusesRequest hdl req) :
    oa.onRequestOut sdp hdl msg req = (oa.requestPrepared sdp hdl req, .refused) := by
  obtain ⟨ha, hno⟩ | ⟨ha, htaken, hwhy⟩ := h
  · simp only [requestPrepared, requestLocal, ha, if_true, onRequestOut, getSdpBody,
      askHandler_saveState hno, Bool.false_eq_true, if_false]
    cases hp : req.body.hasContentType SIP_APPLICATION_SDP with
    | some part =>
      have hlen : part.getLen = 0 := by simpa [asksFor, hp] using ha
      simp only [hlen, if_true]
    | none =>
      have hdue : oa.answerDue req = true := by simpa [asksFor, hp] using ha
      simp only [hdue, if_true]
  · rw [onRequestOut_given ha]
    rw [requestTaken_of_not_asked ha] at htaken
    replace hwhy : (oa.requestPrepared sdp hdl req).state = _ ∨ _ := hwhy
    simp only [finishRequest, htaken, if_true, onTxSdp_refused hwhy]

theorem onRequestOut_crashes (sdp : SdpOps Sdp) (msg : OaMsg) (h : oa.CrashesOn hdl req) :
    oa.onRequestOut sdp hdl msg req = (oa.requestPrepared sdp hdl req, .crashed) := by
  obtain ⟨hp, hdue, hok, hadd⟩ := h
  simp only [onRequestOut, hp, hdue, if_true, getSdpBody, askHandler_saveState hok, hadd,
    requestPrepared, requestLocal, asksFor]

/-- A request it accepts changes the state exactly if the body counts as an offer or an
answer. -/
theorem onRequestOut_accepts (sdp : SdpOps Sdp) (msg : OaMsg) (hr : ¬ oa.RefusesRequest hdl req)
    (hc : ¬ oa.CrashesOn hdl req) :
    ∃ oa' body, oa.onRequestOut sdp hdl msg req = (oa', .ok { req with body := body }) ∧
      (oa.requestTaken req = true → oa'.state ≠ oa.state) ∧
      (oa.requestTaken req = false → oa'.state = oa.state ∧ oa'.cseq = oa.cseq ∧
        oa'.sdpLocal = oa.sdpLocal) := by
  cases ha : oa.asksFor req with
  | true =>
    have htaken := requestTaken_of_asked ha
    have hok : (askHandler hdl oa).1 = true := by
      rw [← Bool.not_eq_false]
      exact fun hno => hr (.inl ⟨ha, hno⟩)
    obtain ⟨body, hbody, heq⟩ := onRequestOut_generated sdp msg ha hok hc
    obtain ⟨oa', heq', hne⟩ := finishRequest_accepted (oa.requestPrepared sdp hdl req) msg
      { req with body := body } (Bool.true_or _)
      (show oa.state ≠ _ from state_ne_of_askHandler hok) hbody
    exact ⟨oa', body, heq.trans heq', fun _ => hne, fun h => nomatch htaken.symm.trans h⟩
  | false =>
    rw [onRequestOut_given ha]
    have htaken := requestTaken_of_not_asked ha
    cases ht : oa.requestTaken req with
    | true =>
      have hnot : ¬ (oa.state = .offerSent ∨ req.body.empty = true) :=
        fun hwhy => hr (.inr ⟨ha, ht, hwhy⟩)
      obtain ⟨oa', heq, hne⟩ := finishRequest_accepted (oa.requestPrepared sdp hdl req) msg req
        (htaken.symm.trans ht) (fun hst => hnot (.inl hst))
        (by simpa using fun hb => hnot (.inr hb))
      exact ⟨oa', req.body, heq, fun _ => hne, nofun⟩
    | false =>
      rw [finishRequest, if_neg (by rw [← htaken, ht]; simp)]
      exact ⟨_, req.body, rfl, nofun, fun _ => ⟨rfl, rfl, requestLocal_of_not_taken ht⟩⟩

end AmOfferAnswer

/-- 100rel only adds a header to a request that is sent. -/
theorem Am100rel.onRequestOut_eq (r : Am100rel) (req : AmSipRequest) :
    ∃ hdrs, r.onRequestOut req = { req with hdrs := hdrs } := by
  unfold Am100rel.onRequestOut
  split_ifs
  · exact ⟨req.hdrs, rfl⟩
  · cases r.reliable1xx
    all_goals exact ⟨_, rfl⟩

/-! ## The dialog -/

/-- How `sendRequest` ends : 0, an error from `onTxRequest` or from the transaction layer, or not
at all. -/
inductive RequestResult where
  | sent
  | refused
  | notSent
  | crashed
  deriving DecidableEq

/-- `sendRequest` returns an error. -/
def RequestResult.isError : RequestResult → Bool
  | .refused => true
  | .notSent => true
  | _ => false

open AmOfferAnswer

namespace AmSipDialog

/-- The request `sendRequest` starts from. -/
def newRequest (d : AmSipDialog Sdp) (method : SipMethod) (body : Option AmMimeBody) (hdrs : Str)
    (rackCseq : BitVec 32) : AmSipRequest where
  method := method
  cseq := d.cseq
  rseq := 0
  rackCseq := rackCseq
  callid := d.callid
  fromTag := if d.extLocalTag = [] then d.localTag else d.extLocalTag
  hdrs := hdrs
  body := (body.map AmMimeBody.copy).getD .none

/-- The return code of `transmit`. -/
def transmitResult (env : DlgEnv Sdp) (d : AmSipDialog Sdp) (req : AmSipRequest) : RequestResult :=
  match (d.onTxRequest env req).2 with
  | .ok req => if env.sendsRequest req then .sent else .notSent
  | .refused => .refused
  | .crashed => .crashed

/-- The return code of `sendRequest`. -/
def sendRequestResult (env : DlgEnv Sdp) (d : AmSipDialog Sdp) (method : SipMethod)
    (body : Option AmMimeBody) (hdrs : Str) (rackCseq : BitVec 32) : RequestResult :=
  d.transmitResult env (d.newRequest method body hdrs rackCseq)

/-- What a failed `sendRequest` has to leave as it is. -/
structure SameRequestState (d d' : AmSipDialog Sdp) : Prop where
  status : d'.status = d.status
  cseq : d'.cseq = d.cseq
  uacTrans : d'.uacTrans = d.uacTrans
  oaState : d'.oa.state = d.oa.state
  oaCseq : d'.oa.cseq = d.oa.cseq
  sdpLocal : d'.oa.sdpLocal = d.oa.sdpLocal
  rel100 : d'.rel100 = d.rel100

variable (env : DlgEnv Sdp) (d : AmSipDialog Sdp) (req : AmSipRequest)

/-- The engine is enabled and refuses the request. -/
def OaRefusesRequest : Prop :=
  d.offeranswerEnabled = true ∧ d.oa.RefusesRequest env.hdl req

/-- The engine is enabled and uses a null pointer. -/
def OaCrashesOn : Prop :=
  d.offeranswerEnabled = true ∧ d.oa.CrashesOn env.hdl req

/-- `onTxRequest` sets the status. -/
def StartsOrEnds : Prop :=
  req.method = .INVITE ∧ d.status = .Disconnected ∨ req.method = .BYE ∧ d.status ≠ .Disconnecting

/-- An error leaves no trace, where `sends` tells if the request is sent. If the engine refuses it,
the local description has to be the old one. If it is not sent, it must not count as an offer or
answer, nor start or end the call. -/
structure FailsClean (sends : Bool) : Prop where
  engine : d.OaRefusesRequest env req → d.oa.requestLocal env.sdp env.hdl req = d.oa.sdpLocal
  later : ¬ d.OaRefusesRequest env req → ¬ d.OaCrashesOn env req → sends = false →
    (d.offeranswerEnabled = true → d.oa.requestTaken req = false) ∧ ¬ d.StartsOrEnds req

variable {env d req}

theorem onTxRequest_refuses (env : DlgEnv Sdp) (h : d.OaRefusesRequest env req) :
    d.onTxRequest env req =
      ({ d with oa := d.oa.requestPrepared env.sdp env.hdl req }, .refused) := by
  obtain ⟨hdrs, hreq⟩ := d.rel100.onRequestOut_eq req
  have hr : d.oa.RefusesRequest env.hdl { req with hdrs := hdrs } := h.2
  simp only [onTxRequest, oaOnRequestOut, hreq, h.1, if_true, onRequestOut_refuses hr]
  rfl

theorem onTxRequest_crashes (env : DlgEnv Sdp) (h : d.OaCrashesOn env req) :
    ∃ d', d.onTxRequest env req = (d', .crashed) := by
  obtain ⟨hdrs, hreq⟩ := d.rel100.onRequestOut_eq req
  have hc : d.oa.CrashesOn env.hdl { req with hdrs := hdrs } := h.2
  simp only [onTxRequest, oaOnRequestOut, hreq, h.1, if_true, onRequestOut_crashes _ _ hc]
  exact ⟨_, rfl⟩

/-- The engine's part, if it lets the request through. -/
theorem oaOnRequestOut_accepts (hr : ¬ d.OaRefusesRequest env req) (hc : ¬ d.OaCrashesOn env req) :
    ∃ oa' body, d.oaOnRequestOut env req = ({ d with oa := oa' }, .ok { req with body := body }) ∧
      (oa'.state = d.oa.state ∧ oa'.cseq = d.oa.cseq ∧ oa'.sdpLocal = d.oa.sdpLocal ↔
        (d.offeranswerEnabled = true → d.oa.requestTaken req = false)) := by
  by_cases hen : d.offeranswerEnabled = true
  · obtain ⟨oa', body, heq, htake, hkeep⟩ := onRequestOut_accepts env.sdp
      (requestMsg req false) (fun h => hr ⟨hen, h⟩) (fun h => hc ⟨hen, h⟩)
    refine ⟨oa', body, by rw [oaOnRequestOut, if_pos hen, heq], ?_⟩
    cases ht : d.oa.requestTaken req with
    | true => simp [htake ht, hen]
    | false => simp [hkeep ht]
  · exact ⟨d.oa, req.body, by rw [oaOnRequestOut, if_neg hen], by simp [hen]⟩

/-- What `onTxRequest` does with a request it lets through. -/
theorem onTxRequest_accepts (env : DlgEnv Sdp) (hr : ¬ d.OaRefusesRequest env req)
    (hc : ¬ d.OaCrashesOn env req) :
    ∃ oa' status req', d.onTxRequest env req = ({ d with oa := oa', status := status }, .ok req') ∧
      (status = d.status ↔ ¬ d.StartsOrEnds req) ∧
      (oa'.state = d.oa.state ∧ oa'.cseq = d.oa.cseq ∧ oa'.sdpLocal = d.oa.sdpLocal ↔
        (d.offeranswerEnabled = true → d.oa.requestTaken req = false)) := by
  obtain ⟨hdrs, hreq⟩ := d.rel100.onRequestOut_eq req
  have hr' : ¬ d.OaRefusesRequest env { req with hdrs := hdrs } := hr
  have hc' : ¬ d.OaCrashesOn env { req with hdrs := hdrs } := hc
  obtain ⟨oa', body, heq, hkeep⟩ := oaOnRequestOut_accepts hr' hc'
  simp only [onTxRequest, hreq, heq]
  by_cases hinv : req.method = .INVITE ∧ d.status = .Disconnected
  · rw [if_pos hinv]
    refine ⟨oa', .Trying, _, rfl, ?_, hkeep⟩
    simp [StartsOrEnds, hinv]
  rw [if_neg hinv]
  split_ifs with hbye
  · refine ⟨oa', .Disconnecting, _, rfl, ?_, hkeep⟩
    simp [StartsOrEnds, hbye, Ne.symm hbye.2]
  · exact ⟨oa', d.status, _, rfl, by simp [StartsOrEnds, hinv, hbye], hkeep⟩

/-- With a transaction layer that sends the request, or does not. A call of `sendRequest` hands it
at most one. -/
def withSends (env : DlgEnv Sdp) (sends : Bool) : DlgEnv Sdp :=
  { env with sendsRequest := fun _ => sends }

theorem transmit_clean_iff {env : DlgEnv Sdp} {d : AmSipDialog Sdp} {req : AmSipRequest}
    {sends : Bool} :
    ((d.transmitResult (withSends env sends) req).isError →
        SameRequestState d (d.transmit (withSends env sends) req)) ↔
      d.FailsClean env req sends := by
  by_cases hr : d.OaRefusesRequest env req
  · have heq := onTxRequest_refuses (withSends env sends) hr
    simp only [transmitResult, transmit, heq]
    constructor
    · exact fun h => ⟨fun _ => (h rfl).sdpLocal, fun hno => absurd hr hno⟩
    · exact fun h _ => ⟨rfl, rfl, rfl, rfl, rfl, h.engine hr, rfl⟩
  by_cases hc : d.OaCrashesOn env req
  · obtain ⟨d', heq⟩ := onTxRequest_crashes (withSends env sends) hc
    simp only [transmitResult, heq]
    exact iff_of_true (nofun) ⟨fun h => absurd h hr, fun _ hno => absurd hc hno⟩
  obtain ⟨oa', status, req', heq, hstatus, hkeep⟩ :=
    onTxRequest_accepts (withSends env sends) hr hc
  simp only [transmitResult, transmit, heq]
  cases sends with
  | true => exact iff_of_true (nofun) ⟨fun h => absurd h hr, fun _ _ h => nomatch h⟩
  | false =>
    constructor
    · intro h
      obtain ⟨h1, -, -, h4, h5, h6, -⟩ := h rfl
      exact ⟨fun h => absurd h hr, fun _ _ _ => ⟨hkeep.1 ⟨h4, h5, h6⟩, hstatus.1 h1⟩⟩
    · intro h _
      obtain ⟨hoa, hst⟩ := h.later hr hc rfl
      obtain ⟨h4, h5, h6⟩ := hkeep.2 hoa
      exact ⟨hstatus.2 hst, rfl, rfl, h4, h5, h6, rfl⟩

/-- For every outcome of the transaction layer, an error of `sendRequest` leaves the status, the
CSeq, the transactions, the offer/answer state and the 100rel state as they were, exactly if
`FailsClean` holds. -/
theorem sendRequest_atomic_iff (env : DlgEnv Sdp) (d : AmSipDialog Sdp) (method : SipMethod)
    (body : Option AmMimeBody) (hdrs : Str) (rackCseq : BitVec 32) (sends : Bool) :
    ((d.sendRequestResult (withSends env sends) method body hdrs rackCseq).isError →
        SameRequestState d (d.sendRequest (withSends env sends) method body hdrs rackCseq)) ↔
      d.FailsClean env (d.newRequest method body hdrs rackCseq) sends :=
  transmit_clean_iff

/-- A dialog before its first INVITE. -/
def fresh : AmSipDialog (List Str) :=
  init mediaLines "l".toList 10 .supported true

/-- An INVITE with an offer that cannot be sent leaves the dialog in `Trying`, and its offer
pending. -/
theorem sendRequest_not_atomic_invite :
    ¬ ∀ (env : DlgEnv (List Str)) (d : AmSipDialog (List Str)) (method : SipMethod)
      (body : Option AmMimeBody) (hdrs : Str) (rackCseq : BitVec 32) (sends : Bool),
      (d.sendRequestResult (withSends env sends) method body hdrs rackCseq).isError →
        SameRequestState d (d.sendRequest (withSends env sends) method body hdrs rackCseq) := by
  intro h
  have hsame := h quietEnv fresh .INVITE (some audioBody) [] 0 false (by decide)
  have hstatus := hsame.status
  exact nomatch hstatus

end AmSipDialog

end Sems
