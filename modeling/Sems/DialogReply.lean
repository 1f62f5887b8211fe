import Sems.SipDialog

/-!
# Refused replies

`AmSipDialog::reply` advances the offer/answer engine, the reliable provisional replies and the
status of the dialog, and each may refuse the reply. Nothing is taken back when a later one does.

`AmOfferAnswer.Refuses`, `handsOver`, `localFor`, `Am100rel.Refuses` and `Numbers` say what they do
in terms of their state and the reply alone. `reply_atomic_iff` is the main result : for which
dialogs and replies a refusal leaves no trace.
-/

namespace Sems

open Option

variable {Sdp : Type*}

/-! ## The engine -/

theorem empty_of_getParts {body : AmMimeBody} (h : body.getParts ≠ []) : body.empty = false := by
  simp [AmMimeBody.empty, h]

/-- A body that got the text of a session description is not empty. -/
theorem empty_setPartPayload {body b : AmMimeBody} {text : Str} (ht : text ≠ [])
    (h : AmOfferAnswer.withSdpPart body = some b) :
    (b.setPartPayload SIP_APPLICATION_SDP text).empty = false := by
  unfold AmMimeBody.setPartPayload
  split_ifs with hct
  · simp [AmMimeBody.setPayload, AmMimeBody.empty, AmMimeBody.getPayload, AmMimeBody.getLen, ht]
  · have hparts : b.getParts ≠ [] := by
      unfold AmOfferAnswer.withSdpPart at h
      split_ifs at h with hsome
      · obtain rfl := some.inj h
        intro hnil
        simp [AmMimeBody.hasContentType, hct, hnil] at hsome
      · unfold AmMimeBody.addPart at h
        split_ifs at h
        · obtain rfl := some.inj h
          have htype : AmOfferAnswer.sdpType.hasContentType SIP_APPLICATION_SDP = true := by
            decide
          exact absurd htype hct
        · obtain rfl := some.inj h
          simp [AmMimeBody.getParts]
    cases b.getParts.findIdx? (AmMimeBody.hasPart SIP_APPLICATION_SDP) with
    | none => exact empty_of_getParts hparts
    | some i =>
      refine empty_of_getParts fun hnil => hparts (List.length_eq_zero_iff.1 ?_)
      simpa [AmMimeBody.getParts] using congrArg List.length hnil

namespace AmOfferAnswer

variable (sdp : SdpOps Sdp) (hdl : Option (SdpHandler Sdp)) (oa : AmOfferAnswer Sdp)
  (reply : AmSipReply)

/-- The handler is asked for a session description and has one. -/
def generated : Bool :=
  oa.generateSdp reply && (askHandler hdl oa).1

/-- The local description with this reply : the handler's, the one in the body, or the old
one. -/
def localFor : Sdp :=
  if oa.generateSdp reply then (askHandler hdl oa).2
  else if oa.hasSdp reply then (sdp.parse (sdpPayload reply.body)).1
  else oa.sdpLocal

/-- The engine with the local description of the reply. -/
def prepared : AmOfferAnswer Sdp :=
  { oa.saveState with sdpLocal := oa.localFor sdp hdl reply }

/-- A session description is needed, but there is none, or no part for it. -/
def lacksSdp : Bool :=
  oa.generateSdp reply &&
    if (askHandler hdl oa).1 then (withSdpPart reply.body).isNone else !oa.sdpOptional reply

/-- The body counts as an offer or an answer. -/
def handsOver : Bool :=
  oa.generated hdl reply || !oa.generateSdp reply && oa.hasSdp reply ||
    decide (reply.cseqMethod ≠ .INFO) && hasCsta reply.body

/-- The engine does not accept the reply. -/
def Refuses : Prop :=
  oa.lacksSdp hdl reply ∨
    oa.handsOver hdl reply ∧
      (oa.state = .offerSent ∨ oa.generated hdl reply = false ∧ reply.body.empty)

instance : Decidable (oa.Refuses hdl reply) :=
  inferInstanceAs (Decidable (_ ∨ _))

variable {sdp hdl oa reply}

theorem askHandler_saveState {b : Bool} (h : (askHandler hdl oa).1 = b) :
    askHandler hdl oa.saveState = (b, (askHandler hdl oa).2) := by
  rw [← h]
  rfl

theorem state_ne_of_generated (h : oa.generated hdl reply) : oa.state ≠ .offerSent := by
  intro hst
  rw [generated, Bool.and_eq_true] at h
  cases hdl <;> simp [askHandler, hst] at h

theorem onTxSdp_accepted (msg : OaMsg) {body : AmMimeBody} (hst : oa.state ≠ .offerSent)
    (hb : body.empty = false) :
    (oa.onTxSdp msg body).2 = true ∧ (oa.onTxSdp msg body).1.state ≠ oa.state ∧
      (oa.onTxSdp msg body).1.sdpLocal = oa.sdpLocal := by
  unfold onTxSdp
  cases h : oa.state <;> simp_all [setState]

variable {msg : OaMsg}

theorem onTxSdp_refused {body : AmMimeBody} (h : oa.state = .offerSent ∨ body.empty) :
    oa.onTxSdp msg body = (oa, false) := by
  unfold onTxSdp
  split_ifs with hb
  · rfl
  · simp [h.resolve_right hb]

variable {has : Bool}

theorem finishReply_accepted (sdp : SdpOps Sdp) (oa : AmOfferAnswer Sdp) (msg : OaMsg)
    (reply : AmSipReply) (hands : has || (decide (reply.cseqMethod ≠ .INFO) && hasCsta reply.body))
    (hst : oa.state ≠ .offerSent) (hb : reply.body.empty = false) :
    ∃ oa', oa.finishReply sdp msg reply has = (oa', .ok reply) ∧
      (reply.code < 300 → oa'.state ≠ oa.state) := by
  obtain ⟨hok, hne, -⟩ := onTxSdp_accepted msg hst hb
  simp only [finishReply, hands, if_true, hok, Bool.not_true, Bool.false_eq_true, if_false]
  split_ifs with h3
  · exact ⟨_, rfl, fun h => absurd h3.1 (by omega)⟩
  · exact ⟨_, rfl, fun _ => hne⟩

theorem finishReply_idle (sdp : SdpOps Sdp) (oa : AmOfferAnswer Sdp) (msg : OaMsg)
    (hands : (has || (decide (reply.cseqMethod ≠ .INFO) && hasCsta reply.body)) = false) :
    ∃ oa', oa.finishReply sdp msg reply has = (oa', .ok reply) ∧ (reply.code < 300 → oa' = oa) := by
  simp only [finishReply, hands, Bool.false_eq_true, if_false, Bool.not_true]
  split_ifs with h3
  · exact ⟨_, rfl, fun h => absurd h3.1 (by omega)⟩
  · exact ⟨_, rfl, fun _ => rfl⟩

/-- The handler's description as the text of the reply. -/
theorem onReplyOut_generated (h : oa.generated hdl reply) (hl : oa.lacksSdp hdl reply = false) :
    ∃ body : AmMimeBody, body.empty = false ∧
      oa.onReplyOut sdp hdl msg reply =
        (oa.prepared sdp hdl reply).finishReply sdp msg
          { reply with body := body } true := by
  rw [generated, Bool.and_eq_true] at h
  rw [lacksSdp, h.1, h.2, Bool.true_and, if_pos rfl, isNone_eq_false_iff] at hl
  obtain ⟨b, hb⟩ := isSome_iff_exists.1 hl
  refine ⟨_, empty_setPartPayload (sdp.print_ne_nil (askHandler hdl oa).2) hb, ?_⟩
  have hgen : oa.saveState.generateSdp reply = true := h.1
  simp only [onReplyOut, hgen, if_true, getSdpBody, askHandler_saveState h.2, hb, prepared,
    localFor, h.1]

/-- Without one, the reply stays as it is. -/
theorem onReplyOut_given (h : oa.generated hdl reply = false) (hl : oa.lacksSdp hdl reply = false) :
    oa.onReplyOut sdp hdl msg reply =
      (oa.prepared sdp hdl reply).finishReply sdp msg reply
        (!oa.generateSdp reply && oa.hasSdp reply) := by
  cases hgen : oa.generateSdp reply with
  | true =>
    have hask : (askHandler hdl oa).1 = false := by simpa [generated, hgen] using h
    have hopt : oa.sdpOptional reply = true := by simpa [lacksSdp, hgen, hask] using hl
    have hhas : oa.hasSdp reply = false := by
      unfold hasSdp
      unfold generateSdp at hgen
      cases hp : reply.body.hasContentType SIP_APPLICATION_SDP with
      | none => rfl
      | some part =>
        simp only [hp, beq_iff_eq] at hgen
        simp [hgen]
    have hgen' : oa.saveState.generateSdp reply = true := hgen
    simp only [onReplyOut, hgen', if_true, getSdpBody, askHandler_saveState hask,
      Bool.false_eq_true, if_false, prepared, localFor, hgen, Bool.not_true, Bool.false_and]
    rw [if_pos (show sdpOptional { oa.saveState with sdpLocal := (askHandler hdl oa).2 } reply =
      true from hopt)]
    exact congrArg _ hhas
  | false =>
    have hgen' : oa.saveState.generateSdp reply = false := hgen
    have hhas' : oa.saveState.hasSdp reply = oa.hasSdp reply := rfl
    simp only [onReplyOut, hgen', hhas', Bool.false_eq_true, if_false, prepared, localFor, hgen,
      Bool.not_false, Bool.true_and]
    split_ifs with hhas
    · rw [hhas]
    · rw [Bool.not_eq_true] at hhas
      rw [hhas]
      rfl

/-- A reply without a body that needs none : nothing is asked for, nothing is handed over. -/
theorem handsOver_quiet (hdl : Option (SdpHandler Sdp)) (oa : AmOfferAnswer Sdp)
    (hb : reply.body = .none) (hc : 300 ≤ reply.code ∨ reply.cseqMethod = .CANCEL) :
    oa.generateSdp reply = false ∧ oa.handsOver hdl reply = false := by
  have hsdp : reply.body.hasContentType SIP_APPLICATION_SDP = none := hb ▸ rfl
  have hcsta : hasCsta reply.body = false := hb ▸ rfl
  have hgen : oa.generateSdp reply = false := by
    simp only [generateSdp, hsdp, hcsta, Bool.false_eq_true, if_false]
    rcases hc with hc | hc
    · cases reply.cseqMethod <;> simp <;> omega
    · simp [hc]
  exact ⟨hgen, by simp [handsOver, generated, hasSdp, hgen, hsdp, hcsta]⟩

theorem onReplyOut_lacksSdp (hl : oa.lacksSdp hdl reply) :
    oa.onReplyOut sdp hdl msg reply = (oa.prepared sdp hdl reply, .refused) := by
  rw [lacksSdp, Bool.and_eq_true] at hl
  have hgen : oa.saveState.generateSdp reply = true := hl.1
  simp only [onReplyOut, hgen, if_true, getSdpBody, prepared, localFor, hl.1]
  cases hask : (askHandler hdl oa).1 with
  | true =>
    simp only [hask, if_true, isNone_iff_eq_none] at hl
    simp only [askHandler_saveState hask, if_true, hl.2]
  | false =>
    simp only [hask, Bool.false_eq_true, if_false, Bool.not_eq_true'] at hl
    simp only [askHandler_saveState hask, Bool.false_eq_true, if_false]
    rw [if_neg]
    rw [Bool.not_eq_true]
    exact hl.2

/-- A reply the engine refuses leaves its local description behind. -/
theorem onReplyOut_refuses (h : oa.Refuses hdl reply) :
    oa.onReplyOut sdp hdl msg reply = (oa.prepared sdp hdl reply, .refused) := by
  rcases hl : oa.lacksSdp hdl reply with _ | _
  · obtain ⟨hands, hwhy⟩ := h.resolve_left (by simp [hl])
    rcases hg : oa.generated hdl reply with _ | _
    · rw [onReplyOut_given hg hl]
      rw [handsOver, hg, Bool.false_or] at hands
      replace hwhy : (oa.prepared sdp hdl reply).state = _ ∨ _ := hwhy.imp id And.right
      simp only [finishReply, hands, if_true, onTxSdp_refused hwhy, Bool.not_false]
    · exact absurd (hwhy.resolve_right (by simp [hg])) (state_ne_of_generated hg)
  · exact onReplyOut_lacksSdp hl

/-- A reply it accepts changes the state if it counts as an offer or an answer. -/
theorem onReplyOut_accepts (sdp : SdpOps Sdp) (msg : OaMsg) (h : ¬ oa.Refuses hdl reply) :
    ∃ oa' body, oa.onReplyOut sdp hdl msg reply = (oa', .ok { reply with body := body }) ∧
      (reply.code < 300 → oa.handsOver hdl reply → oa'.state ≠ oa.state) ∧
      (reply.code < 300 → oa.handsOver hdl reply = false → oa'.state = oa.state ∧
        oa'.cseq = oa.cseq ∧ oa'.sdpLocal = oa.localFor sdp hdl reply) := by
  have hl : oa.lacksSdp hdl reply = false := by
    rw [← Bool.not_eq_true]
    exact fun hl => h (.inl hl)
  rcases hg : oa.generated hdl reply with _ | _
  · rw [onReplyOut_given hg hl]
    rcases hands : oa.handsOver hdl reply with _ | _
    · have hands' := hands
      rw [handsOver, hg, Bool.false_or] at hands'
      obtain ⟨oa', heq, hcode⟩ := finishReply_idle sdp (oa.prepared sdp hdl reply) msg hands'
      refine ⟨oa', reply.body, heq, fun _ h => absurd h (by simp), fun hc _ => ?_⟩
      rw [hcode hc]
      exact ⟨rfl, rfl, rfl⟩
    · have hands' := hands
      rw [handsOver, hg, Bool.false_or] at hands'
      have hnot : ¬ (oa.state = .offerSent ∨ oa.generated hdl reply = false ∧ reply.body.empty) :=
        fun hwhy => h (.inr ⟨hands, hwhy⟩)
      obtain ⟨oa', heq, hcode⟩ := finishReply_accepted sdp (oa.prepared sdp hdl reply) msg reply
        hands' (fun hst => hnot (.inl hst)) (by simpa using fun hb => hnot (.inr ⟨hg, hb⟩))
      exact ⟨oa', reply.body, heq, fun hc _ => hcode hc, fun _ h => absurd h (by simp)⟩
  · obtain ⟨body, hbody, heq⟩ := onReplyOut_generated hg hl
    rw [heq]
    obtain ⟨oa', heq, hcode⟩ := finishReply_accepted sdp (oa.prepared sdp hdl reply) msg
      { reply with body := body } (Bool.true_or _) (show oa.state ≠ _ from state_ne_of_generated hg)
      hbody
    exact ⟨oa', body, heq, fun hc _ => hcode hc, fun _ h => absurd h (by simp [handsOver, hg])⟩

end AmOfferAnswer

/-! ## Reliable provisional replies -/

namespace Am100rel

/-- The reply would get a number. -/
def Numbers (r : Am100rel) (reply : AmSipReply) : Prop :=
  r.reliable1xx = .require ∧ reply.cseqMethod = .INVITE ∧ (100 < reply.code ∧ reply.code < 200) ∧
    getHeader (withRequire reply.hdrs) SIP_HDR_RSEQ = []

/-- The reply has to wait for a PRACK. -/
def Refuses (r : Am100rel) (reply : AmSipReply) : Prop :=
  r.rseq ≠ 0 ∧ r.rseqConfirmed = false ∧
    (r.Numbers reply ∧ r.rseq1st = r.rseq ∨
      r.reliable1xx = .require ∧ reply.cseqMethod = .INVITE ∧
        ¬ (100 < reply.code ∧ reply.code < 200) ∧ reply.code < 300)

variable {r : Am100rel} {reply : AmSipReply}

theorem code_lt_of_refuses (h : r.Refuses reply) : reply.code < 300 := by
  obtain ⟨-, -, ⟨⟨-, -, hc, -⟩, -⟩ | ⟨-, -, -, h3⟩⟩ := h
  · omega
  · exact h3

theorem onReplyOut_refuses (random : BitVec 32) (h : r.Refuses reply) :
    ∃ e, r.onReplyOut random reply = .error e := by
  obtain ⟨h0, hconf, ⟨⟨hr, hm, hc, hno⟩, h1⟩ | ⟨hr, hm, hc, h3⟩⟩ := h
  · refine ⟨firstNotPracked, ?_⟩
    rw [onReplyOut_1xx hr hm hc.1 hc.2]
    simp only [onRel1xxOut, hno, h0, hconf, h1, ne_eq, not_true_eq_false, if_false, and_self,
      if_true]
  · refine ⟨lastNotPracked, ?_⟩
    simp only [onReplyOut, hr, hm, hc, h3, h0, hconf, reduceCtorEq, if_false, if_true, ne_eq,
      not_false_eq_true, and_self]

theorem onReplyOut_accepts (random : BitVec 32) (h : ¬ r.Refuses reply) :
    ∃ r' hdrs, r.onReplyOut random reply = .ok (r', { reply with hdrs := hdrs }) ∧
      (r.Numbers reply → r'.rseq ≠ r.rseq) ∧
      (¬ r.Numbers reply → r'.rseq = r.rseq ∧ r'.rseqConfirmed = r.rseqConfirmed) := by
  by_cases hn : r.Numbers reply
  · obtain ⟨hr, hm, hc, hno⟩ := hn
    rw [onReplyOut_1xx hr hm hc.1 hc.2]
    unfold onRel1xxOut
    simp only [hno, ne_eq, not_true_eq_false, if_false]
    split_ifs with h0 h1
    · refine ⟨_, _, rfl, fun _ => ?_, fun hnot => absurd ⟨hr, hm, hc, hno⟩ hnot⟩
      rw [h0]
      exact fun hz => Nat.ne_of_gt (toNat_first random).1 (congrArg BitVec.toNat hz)
    · exact absurd ⟨h0, h1.1, .inl ⟨⟨hr, hm, hc, hno⟩, h1.2⟩⟩ h
    · refine ⟨_, _, rfl, fun _ => ?_, fun hnot => absurd ⟨hr, hm, hc, hno⟩ hnot⟩
      simp
  · have hkeep : ∃ hdrs, r.onReplyOut random reply = .ok (r, { reply with hdrs := hdrs }) := by
      unfold onReplyOut
      split_ifs with h1 h2 h3 h4 h5
      · exact ⟨_, rfl⟩
      · cases hr : r.reliable1xx with
        | supported => exact ⟨_, rfl⟩
        | require =>
          have hno : getHeader (withRequire reply.hdrs) SIP_HDR_RSEQ ≠ [] :=
            fun hno => hn ⟨hr, h2, h3, hno⟩
          simp only [onRel1xxOut, hno, ne_eq, not_false_eq_true, if_true]
          exact ⟨_, rfl⟩
        | disabled | ignored => exact ⟨_, rfl⟩
      · exact absurd ⟨h5.1, h5.2, .inr ⟨h4.2, h2, h3, h4.1⟩⟩ h
      all_goals exact ⟨_, rfl⟩
    obtain ⟨hdrs, heq⟩ := hkeep
    exact ⟨r, hdrs, heq, fun hnum => absurd hnum hn, fun _ => ⟨rfl, rfl⟩⟩

end Am100rel

/-! ## The dialog -/

/-- The reply was refused before it was sent. -/
def ReplyResult.isRefused : ReplyResult → Bool
  | .refused => true
  | .thrown _ => true
  | _ => false

open AmOfferAnswer

open Am100rel

namespace AmSipDialog

/-- What a refused reply has to leave as it is. -/
structure SameReplyState (d d' : AmSipDialog Sdp) : Prop where
  state : d'.oa.state = d.oa.state
  cseq : d'.oa.cseq = d.oa.cseq
  sdpLocal : d'.oa.sdpLocal = d.oa.sdpLocal
  rseq : d'.rel100.rseq = d.rel100.rseq
  rseqConfirmed : d'.rel100.rseqConfirmed = d.rel100.rseqConfirmed
  status : d'.status = d.status

/-- A local provisional reply to a cancelled INVITE. -/
def Cancelled (d : AmSipDialog Sdp) (reply : AmSipReply) : Prop :=
  d.status = .Cancelling ∧ reply.cseqMethod = .INVITE ∧ reply.code < 200

variable (env : DlgEnv Sdp) (d : AmSipDialog Sdp) (reply : AmSipReply)

/-- The engine is enabled and refuses the reply. -/
def OaRefuses : Prop :=
  d.offeranswerEnabled = true ∧ d.oa.Refuses env.hdl reply

/-- A refused reply leaves no trace. If the engine refuses it, the local description has to be the
old one. If it is refused later, it must not count as an offer or answer, nor be numbered by then.
-/
structure RefusedClean : Prop where
  engine : d.OaRefuses env reply → d.oa.localFor env.sdp env.hdl reply = d.oa.sdpLocal
  later : ¬ d.OaRefuses env reply → d.rel100.Refuses reply ∨ d.Cancelled reply →
    d.offeranswerEnabled = true →
      d.oa.handsOver env.hdl reply = false ∧ d.oa.localFor env.sdp env.hdl reply = d.oa.sdpLocal
  numbers : ¬ d.OaRefuses env reply → ¬ d.rel100.Refuses reply → d.Cancelled reply →
    ¬ d.rel100.Numbers reply

variable {env d reply}

theorem statusAfterReply_eq_none_iff {status : DlgStatus} :
    statusAfterReply status reply = none ↔
      status = .Cancelling ∧ reply.cseqMethod = .INVITE ∧ reply.code < 200 := by
  unfold statusAfterReply
  cases status <;> simp <;> split_ifs <;> simp_all

theorem oaOnReplyOut_refuses (h : d.OaRefuses env reply) :
    d.oaOnReplyOut env reply =
      ({ d with oa := d.oa.prepared env.sdp env.hdl reply }, .refused) := by
  rw [oaOnReplyOut, if_pos h.1, onReplyOut_refuses h.2]

theorem oaOnReplyOut_accepts (h : ¬ d.OaRefuses env reply) :
    ∃ oa' body, d.oaOnReplyOut env reply =
        ({ d with oa := oa' }, .ok { reply with body := body }) ∧
      (reply.code < 300 →
        (oa'.state = d.oa.state ∧ oa'.cseq = d.oa.cseq ∧ oa'.sdpLocal = d.oa.sdpLocal ↔
          (d.offeranswerEnabled = true → d.oa.handsOver env.hdl reply = false ∧
            d.oa.localFor env.sdp env.hdl reply = d.oa.sdpLocal))) := by
  by_cases hen : d.offeranswerEnabled = true
  · obtain ⟨oa', body, heq, htake, hkeep⟩ := onReplyOut_accepts env.sdp
      (replyMsg reply false) fun hr => h ⟨hen, hr⟩
    refine ⟨oa', body, by rw [oaOnReplyOut, if_pos hen, heq], fun hc => ?_⟩
    cases hands : d.oa.handsOver env.hdl reply with
    | true => simp [htake hc hands, hen]
    | false =>
      obtain ⟨h1, h2, h3⟩ := hkeep hc hands
      simp [h1, h2, h3, hen]
  · exact ⟨d.oa, reply.body, by rw [oaOnReplyOut, if_neg hen], by simp [hen]⟩

/-- What `onTxReply` can do to a dialog, and to a reply it lets through. -/
theorem onTxReply_eq (env : DlgEnv Sdp) (d : AmSipDialog Sdp) (reply : AmSipReply) :
    (∃ rel100 status, (d.onTxReply env reply).1 =
      { d with oa := (d.oaOnReplyOut env reply).1.oa, rel100 := rel100, status := status }) ∧
      ∀ {reply'}, (d.onTxReply env reply).2 = .ok reply' →
        ∃ body hdrs, reply' = { reply with body := body, hdrs := hdrs } := by
  by_cases ho : d.OaRefuses env reply
  · simp only [onTxReply, oaOnReplyOut_refuses ho]
    exact ⟨⟨d.rel100, d.status, rfl⟩, nofun⟩
  obtain ⟨oa', body, hoa, -⟩ := oaOnReplyOut_accepts ho
  simp only [onTxReply, hoa]
  by_cases hr : d.rel100.Refuses { reply with body := body }
  · obtain ⟨e, he⟩ := onReplyOut_refuses env.random hr
    simp only [he]
    exact ⟨⟨d.rel100, d.status, rfl⟩, nofun⟩
  obtain ⟨rel100, hdrs, hok, -, -⟩ := onReplyOut_accepts env.random hr
  simp only [hok]
  cases statusAfterReply d.status { reply with body := body, hdrs := hdrs } with
  | none => exact ⟨⟨rel100, d.status, rfl⟩, nofun⟩
  | some status =>
    refine ⟨⟨rel100, status, rfl⟩, fun h => ⟨body, hdrs, ?_⟩⟩
    injection h with h
    exact h.symm

/-- `isRefused`, before the reply is handed on. -/
def TxReply.isRefused : TxReply → Bool
  | .ok _ => false
  | _ => true

theorem onTxReply_refuses (h : d.OaRefuses env reply) :
    d.onTxReply env reply = ({ d with oa := d.oa.prepared env.sdp env.hdl reply }, .refused) := by
  rw [onTxReply, oaOnReplyOut_refuses h]

/-- A final error reply without a body is let through. -/
theorem onTxReply_final (env : DlgEnv Sdp) (d : AmSipDialog Sdp) (reply : AmSipReply)
    (hb : reply.body = .none) (hc : 300 ≤ reply.code) :
    ∃ reply', (d.onTxReply env reply).2 = .ok reply' := by
  obtain ⟨hgen, hands⟩ := handsOver_quiet env.hdl d.oa hb (.inl hc)
  have ho : ¬ d.OaRefuses env reply := by
    rintro ⟨-, hl | ⟨hands', -⟩⟩
    · simp [lacksSdp, hgen] at hl
    · simp [hands] at hands'
  obtain ⟨oa', body, hoa, -⟩ := oaOnReplyOut_accepts ho
  have hr : ¬ d.rel100.Refuses { reply with body := body } := fun hr =>
    absurd (code_lt_of_refuses hr) (Nat.not_lt.2 hc)
  obtain ⟨rel100, hdrs, hok, -, -⟩ := onReplyOut_accepts env.random hr
  obtain ⟨status, hst⟩ : ∃ status,
      statusAfterReply d.status { reply with body := body, hdrs := hdrs } = some status :=
    ne_none_iff_exists'.1 fun hnone => by
      have hlt : reply.code < 200 := (statusAfterReply_eq_none_iff.1 hnone).2.2
      omega
  simp only [onTxReply, hoa, hok, hst]
  exact ⟨_, rfl⟩

theorem onTxReply_clean_iff :
    ((d.onTxReply env reply).2.isRefused → SameReplyState d (d.onTxReply env reply).1) ↔
      d.RefusedClean env reply := by
  by_cases ho : d.OaRefuses env reply
  · rw [onTxReply_refuses ho]
    constructor
    · exact fun h => ⟨fun _ => (h rfl).sdpLocal, fun hno => absurd ho hno, fun hno => absurd ho hno⟩
    · exact fun h _ => ⟨rfl, rfl, h.engine ho, rfl, rfl, rfl⟩
  obtain ⟨oa', body, hoa, hkeep⟩ := oaOnReplyOut_accepts ho
  by_cases hr : d.rel100.Refuses reply
  · have hr' : d.rel100.Refuses { reply with body := body } := hr
    obtain ⟨e, he⟩ := onReplyOut_refuses env.random hr'
    have heq : d.onTxReply env reply = ({ d with oa := oa' }, .thrown e) := by
      simp only [onTxReply, hoa, he]
    rw [heq]
    have hiff := hkeep (code_lt_of_refuses hr)
    constructor
    · intro h
      obtain ⟨h1, h2, h3, -, -, -⟩ := h rfl
      exact ⟨fun h => absurd h ho, fun _ _ => hiff.1 ⟨h1, h2, h3⟩, fun _ hno => absurd hr hno⟩
    · intro h _
      obtain ⟨h1, h2, h3⟩ := hiff.2 (h.later ho (.inl hr))
      exact ⟨h1, h2, h3, rfl, rfl, rfl⟩
  have hr' : ¬ d.rel100.Refuses { reply with body := body } := hr
  obtain ⟨r', hdrs, hok, hnum, hnot⟩ := onReplyOut_accepts env.random hr'
  by_cases hc : d.Cancelled reply
  · have hst : statusAfterReply d.status { reply with body := body, hdrs := hdrs } = none :=
      statusAfterReply_eq_none_iff.2 hc
    have heq : d.onTxReply env reply = ({ d with oa := oa', rel100 := r' }, .refused) := by
      simp only [onTxReply, hoa, hok, hst]
    rw [heq]
    have hiff := hkeep (Nat.lt_trans hc.2.2 (by decide))
    constructor
    · intro h
      obtain ⟨h1, h2, h3, h4, -, -⟩ := h rfl
      exact ⟨fun h => absurd h ho, fun _ _ => hiff.1 ⟨h1, h2, h3⟩, fun _ _ _ hn => hnum hn h4⟩
    · intro h _
      obtain ⟨h1, h2, h3⟩ := hiff.2 (h.later ho (.inr hc))
      obtain ⟨h4, h5⟩ := hnot (h.numbers ho hr hc)
      exact ⟨h1, h2, h3, h4, h5, rfl⟩
  · -- the reply goes out
    obtain ⟨status, hst⟩ : ∃ status,
        statusAfterReply d.status { reply with body := body, hdrs := hdrs } = some status :=
      ne_none_iff_exists'.1 fun hnone => hc (statusAfterReply_eq_none_iff.1 hnone)
    have hsent : (d.onTxReply env reply).2.isRefused = false := by
      simp only [onTxReply, hoa, hok, hst]
      rfl
    rw [hsent]
    exact iff_of_true (nofun) ⟨fun h => absurd h ho,
      fun _ h => absurd h (not_or.2 ⟨hr, hc⟩), fun _ _ h => absurd h hc⟩

/-- A reply that is refused leaves the offer/answer state, the 100rel state and the status as they
were, exactly if `RefusedClean` holds for it or it has no transaction. -/
theorem reply_atomic_iff (env : DlgEnv Sdp) (d : AmSipDialog Sdp) (req : AmSipRequest) (code : ℕ)
    (body : Option AmMimeBody) (hdrs : Str) :
    ((d.reply env req code body hdrs).2.isRefused →
        SameReplyState d (d.reply env req code body hdrs).1) ↔
      ((d.uasTrans.get req.cseq).isSome → d.RefusedClean env (d.newReply req code body hdrs)) := by
  rw [← onTxReply_clean_iff]
  unfold reply
  cases htrans : d.uasTrans.get req.cseq with
  | none => simp [ReplyResult.isRefused]
  | some stored =>
    simp only [isNone_some, Bool.false_eq_true, if_false, isSome_some, forall_const]
    generalize d.onTxReply env (d.newReply req code body hdrs) = res
    obtain ⟨d', rp | - | e⟩ := res
    · simp only [TxReply.isRefused, Bool.false_eq_true, false_implies, iff_true]
      split_ifs <;> simp [ReplyResult.isRefused]
    · rfl
    · rfl

/-- A handler without session descriptions of its own, and a transaction layer that sends
everything. -/
def quietEnv : DlgEnv (List Str) where
  sdp := mediaLines
  hdl := none
  sendsReply _ := true
  sendsRequest _ := true
  random := 0
  ignoreNotifyLowerCSeq := false

/-- A body with one media line. -/
def audioBody : AmMimeBody :=
  sdpBody "v=0\nm=audio 4000 RTP/AVP 0\n".toList

/-- An INVITE with an offer that requires reliable provisional replies. -/
def relInvite : AmSipRequest where
  method := .INVITE
  cseq := 7
  rseq := 0
  rackCseq := 0
  callid := "c".toList
  fromTag := "f".toList
  hdrs := "Require: 100rel\r\n".toList
  body := audioBody

/-- A dialog that has received the INVITE and sent a 180, which is not acknowledged yet. -/
def ringing : AmSipDialog (List Str) :=
  (init mediaLines "l".toList 10 .supported true).run
    [(quietEnv, .rxRequest relInvite), (quietEnv, .reply relInvite 180 none [])]

/-- The 200 with the answer has to wait for the PRACK, but the exchange is completed by it. -/
theorem reply_not_atomic_ringing :
    ¬ ∀ (env : DlgEnv (List Str)) (d : AmSipDialog (List Str)) (req : AmSipRequest) (code : ℕ)
      (body : Option AmMimeBody) (hdrs : Str),
      (d.reply env req code body hdrs).2.isRefused →
        SameReplyState d (d.reply env req code body hdrs).1 := by
  intro h
  have hsame := h quietEnv ringing relInvite 200 (some audioBody) [] (by decide)
  have hstate := hsame.state
  exact nomatch hstate

end AmSipDialog

end Sems
