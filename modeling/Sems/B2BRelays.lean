import Sems.B2BSession

/-!
# The relayed requests of a leg

`Relays` says for each CSeq, from the messages alone, whether the last request with it was sent for
a request of the other leg, and how far it is.

`relayedReq_exact` : `relayed_req` has the open ones and nothing else, and an answer for the other
leg answers the request it belongs to, in every run in which no relayed request fails to be sent
(`B2BEv.Ok`). One that is not sent stays in the map under a CSeq that the next request of the leg
takes (`relay_notSent_answered`).
-/

namespace Sems

open Function AmB2BSession
open Function (update)

/-- How far a request is. -/
inductive Phase where
  | pending
  | accepted
  | finished
  deriving DecidableEq

/-- A request of the other leg, and how far the one sent for it is. -/
structure Relayed where
  req : AmSipRequest
  phase : Phase

namespace Relayed

def answered (r : Relayed) (code : ℕ) : Relayed :=
  if code < 200 ∨ r.phase = .finished then r
  else if r.req.method.finishedBy code then { r with phase := .finished }
  else { r with phase := .accepted }

def acked (r : Relayed) : Relayed :=
  if r.phase = .accepted then { r with phase := .finished } else r

def isOpen (r : Relayed) : Bool :=
  decide (r.phase ≠ .finished)

end Relayed

/-- By CSeq, the requests that went out for the other leg. -/
abbrev Relays := ℤ → Option Relayed

/-- A message of the leg : a request, for the other leg or not, the request `old` again with another
CSeq, an ACK, or a reply. -/
inductive Wire where
  | request (key : ℤ) (origin : Option AmSipRequest)
  | again (old new : ℤ)
  | ack (key : ℤ)
  | reply (key : ℤ) (code : ℕ)

open Relayed

namespace Relays

/-- The request of the other leg that waits for the request with this CSeq. -/
def openReq (g : Relays) (key : ℤ) : Option AmSipRequest :=
  (g key).bind fun r => if r.isOpen then some r.req else none

def note (g : Relays) : Wire → Relays
  | .request key origin => update g key (origin.map fun req => ⟨req, .pending⟩)
  | .again old new =>
    -- the old one has its final reply
    update (update g new ((g.openReq old).map fun req => ⟨req, .pending⟩)) old
      ((g old).map fun r => { r with phase := .finished })
  | .ack key => update g key ((g key).map acked)
  | .reply key code => update g key ((g key).map (answered · code))

variable {g : Relays} {key : ℤ}

/-! ## How messages change what is open -/

theorem openReq_update (g : Relays) (key : ℤ) (o : Option Relayed) :
    openReq (update g key o) =
      update g.openReq key (o.bind fun r => if r.isOpen then some r.req else none) := by
  funext k
  by_cases hk : k = key
  · subst hk
    simp only [openReq, update_self]
  · simp only [openReq, update_of_ne hk]

theorem openReq_request (origin : Option AmSipRequest) :
    (g.note (.request key origin)).openReq = update g.openReq key origin := by
  rw [note, openReq_update]
  cases origin <;> rfl

theorem openReq_again (old new : ℤ) :
    (g.note (.again old new)).openReq = update (update g.openReq new (g.openReq old)) old none := by
  rw [note, openReq_update, openReq_update]
  congr 1
  · congr 1
    cases g.openReq old <;> rfl
  · cases g old <;> rfl

/-- An ACK for what is not open, or has no 2xx. -/
theorem openReq_ack_of_ne (h : ∀ r, g key = some r → r.phase ≠ .accepted) :
    (g.note (.ack key)).openReq = g.openReq := by
  have hsame : (g key).map acked = g key := by
    cases hg : g key with
    | none => rfl
    | some r => simp only [Option.map_some, acked, if_neg (h r hg)]
  rw [note, hsame, update_eq_self]

theorem openReq_ack {req : AmSipRequest} (h : g key = some ⟨req, .accepted⟩) :
    (g.note (.ack key)).openReq = update g.openReq key none := by
  rw [note, openReq_update, h]
  rfl

theorem not_accepted_of_openReq (h : g.openReq key = none) :
    ∀ r, g key = some r → r.phase ≠ .accepted := by
  intro r hr hphase
  simp [openReq, hr, isOpen, hphase] at h

/-- A reply that does not finish an open request changes nothing. -/
theorem openReq_reply_of_open {code : ℕ}
    (h : ∀ req, g.openReq key = some req → req.method.finishedBy code = false) :
    (g.note (.reply key code)).openReq = g.openReq := by
  rw [note, openReq_update]
  refine update_eq_iff.2 ⟨?_, fun _ _ => rfl⟩
  unfold openReq at h ⊢
  cases hg : g key with
  | none => rfl
  | some r =>
    rw [hg] at h
    simp only [Option.map_some, Option.bind_some, answered] at h ⊢
    by_cases hr : code < 200 ∨ r.phase = .finished
    · rw [if_pos hr]
    · have hopen : r.isOpen = true := by
        simpa [isOpen] using fun hf => hr (.inr hf)
      rw [if_pos hopen] at h
      rw [if_neg hr, h r.req rfl, if_pos hopen]
      rfl

theorem openReq_reply_of_finished {code : ℕ} {req : AmSipRequest} (h : g.openReq key = some req)
    (hf : req.method.finishedBy code = true) :
    (g.note (.reply key code)).openReq = update g.openReq key none := by
  have hcode : ¬ code < 200 := by
    intro hlt
    simp [SipMethod.finishedBy, Nat.not_le.2 hlt] at hf
  rw [note, openReq_update]
  unfold openReq at h
  cases hg : g key with
  | none => rfl
  | some r =>
    rw [hg, Option.bind_some] at h
    split_ifs at h with hopen
    obtain rfl := Option.some.inj h
    have hphase : r.phase ≠ .finished := by simpa [isOpen] using hopen
    simp only [Option.map_some, answered, hcode, hphase, or_self, if_false, hf, if_true]
    rfl

end Relays

/-! ## The leg with its messages -/

/-- What a request or an ACK of the leg itself is. -/
def UacState.wire (u : UacState) : ClientOp → Wire
  | .request _ => .request u.cseq.toInt none
  | .ack key => .ack key

/-- The client side sends, and the message is noted. -/
def sendNoted (x : UacState × Relays) (op : ClientOp) : UacState × Relays :=
  (x.1.send op, x.2.note (x.1.wire op))

/-- A leg, and what its messages tell. -/
structure TracedLeg where
  leg : AmB2BSession
  relays : Relays

open Relays

namespace TracedLeg

/-- A leg that has relayed nothing yet. -/
def start (dlg : UacState) (estInviteCseq estInviteOtherCseq : BitVec 32) : TracedLeg where
  leg := ⟨dlg, .empty, estInviteCseq, estInviteOtherCseq⟩
  relays := fun _ => none

/-- The messages of `relaySip`. -/
def relayWires (s : AmB2BSession) (req : AmSipRequest) (sends : Bool) : List Wire :=
  if req.method ≠ .ACK then
    if sends then [.request s.dlg.cseq.toInt (some req)] else []
  else
    match s.relayedReq.entries.find? fun t => t.2.cseq = req.cseq with
    | none => []
    | some t => if sends ∧ (s.dlg.trans.find? t.1).isSome then [.ack t.1] else []

/-- The INVITE that connects the leg. -/
def connectWires (s : AmB2BSession) (rCseq : BitVec 32) (relayedInvite sends : Bool) : List Wire :=
  if sends then
    [.request s.dlg.cseq.toInt (if relayedInvite then some (AmB2BSession.fakeReq rCseq) else none)]
  else []

/-- A reply that the handler answers with the request once more is noted with it. -/
def afterReply (g : Relays) (env : B2BReplyEnv) (reply : AmSipReply) : Relays :=
  if env.resends reply then g else g.note (.reply reply.cseq.toInt reply.code)

/-- The messages while a reply is taken : the reply, what the dialog sends on it, and what the leg
sends. -/
def replyRelays (T : TracedLeg) (env : B2BReplyEnv) (reply : AmSipReply) : Relays :=
  let x := runFrom sendNoted (T.leg.dlg, afterReply T.relays env reply) env.ops
  let g := if T.leg.acksInvite env reply then x.2.note (.ack reply.cseq.toInt) else x.2
  if env.resends reply then g.note (.again reply.cseq.toInt x.1.cseq.toInt) else g

def step (T : TracedLeg) (ev : B2BEv) : TracedLeg where
  leg := T.leg.step ev
  relays :=
    match ev with
    | .relay req sends => (relayWires T.leg req sends).foldl note T.relays
    | .connect rCseq relayedInvite sends =>
      (connectWires T.leg rCseq relayedInvite sends).foldl note T.relays
    | .send op => (sendNoted (T.leg.dlg, T.relays) op).2
    | .reply env reply =>
      if (T.leg.dlg.trans.find? reply.cseq.toInt).isSome then T.replyRelays env reply
      else T.relays

/-- `relayed_req` has what is open, and an answer to the other leg is a reply to what was sent for
its request. -/
structure Exact (T : TracedLeg) : Prop where
  relayed : ∀ (key : ℤ) (req : AmSipRequest), T.leg.relayedReq.find? key = some req ↔
    ∃ r, T.relays key = some r ∧ r.req = req ∧ r.phase ≠ .finished
  answers : ∀ (env : B2BReplyEnv) (reply : AmSipReply) (out : B2BReply),
    (T.leg.onRxReply env reply).2 = some out → out.forward = true →
      ∃ r, T.relays reply.cseq.toInt = some r ∧ r.phase ≠ .finished ∧
        out.reply.cseq = r.req.cseq ∧ out.transMethod = r.req.method

end TracedLeg

/-- The leg sends for itself, not with the CSeq of an open relayed request, and no ACK of a relayed
INVITE. -/
def ClientOp.Ok (x : UacState × Relays) : ClientOp → Prop
  | .request _ => x.2.openReq x.1.cseq.toInt = none
  | .ack key => ∀ r, x.2 key = some r → r.phase ≠ .accepted

/-- What the leg sends for itself on a reply. -/
def B2BReplyEnv.sent (env : B2BReplyEnv) (reply : AmSipReply) (method : SipMethod) :
    List ClientOp :=
  if env.resends reply then env.ops ++ [.request method] else env.ops

/-- The final reply to a relayed request gets to `relayed_req`. -/
def B2BReplyEnv.Delivers (env : B2BReplyEnv) (reply : AmSipReply) (g : Relays) : Prop :=
  ∀ req, g.openReq reply.cseq.toInt = some req → req.method.finishedBy reply.code = true →
    env.passes = true ∧ env.drops reply = false

/-- The calls that keep `relayed_req` exact. -/
def B2BEv.Ok (T : TracedLeg) : B2BEv → Prop
  | .relay req sends =>
    -- a request is sent, and an ACK is for an INVITE that was accepted
    if req.method ≠ .ACK then sends = true
    else ∀ t, T.leg.relayedReq.entries.find? (fun t => t.2.cseq = req.cseq) = some t →
      sends = true → T.relays t.1 = some ⟨t.2, .accepted⟩
  | .connect _ _ _ => T.relays.openReq T.leg.dlg.cseq.toInt = none
  | .send op => op.Ok (T.leg.dlg, T.relays)
  | .reply env rep =>
    ∀ method, T.leg.dlg.trans.find? rep.cseq.toInt = some method →
      RunOk sendNoted ClientOp.Ok (T.leg.dlg, TracedLeg.afterReply T.relays env rep)
          (env.sent rep method) ∧
        (env.resends rep = false → env.Delivers rep T.relays)

namespace TracedLeg

variable {T : TracedLeg}

/-- The map of the leg is the one the messages tell. -/
def Inv (T : TracedLeg) : Prop :=
  T.leg.relayedReq.find? = T.relays.openReq

/-! ## Steps -/

variable (m : TransMap) (cseq : BitVec 32)

theorem find?_set (req : AmSipRequest) :
    (m.set cseq req).find? = update m.find? cseq.toInt (some req) :=
  OrdMap.find?_insert_eq

theorem find?_remove : (m.remove cseq).find? = update m.find? cseq.toInt none :=
  OrdMap.find?_erase_eq

/-- What the leg sends for itself changes nothing. -/
theorem openReq_sendNoted {x : UacState × Relays} {op : ClientOp} (hop : op.Ok x) :
    (sendNoted x op).2.openReq = x.2.openReq := by
  cases op with
  | request method =>
    show (x.2.note (.request x.1.cseq.toInt none)).openReq = x.2.openReq
    rw [openReq_request]
    exact update_eq_iff.2 ⟨hop.symm, fun _ _ => rfl⟩
  | ack key => exact openReq_ack_of_ne hop

theorem openReq_sends {x : UacState × Relays} {ops : List ClientOp}
    (hok : RunOk sendNoted ClientOp.Ok x ops) :
    (runFrom sendNoted x ops).2.openReq = x.2.openReq := by
  refine RunOk.inv (I := fun y => y.2.openReq = x.2.openReq) (fun hy hop => ?_) rfl hok
  exact (openReq_sendNoted hop).trans hy

theorem fst_runFrom_sendNoted : ∀ (ops : List ClientOp) (x : UacState × Relays),
    (runFrom sendNoted x ops).1 = runFrom UacState.send x.1 ops
  | [], _ => rfl
  | op :: ops, x => fst_runFrom_sendNoted ops (sendNoted x op)

variable {req : AmSipRequest}

theorem inv_relay (h : T.Inv) {sends : Bool} (hok : (B2BEv.relay req sends).Ok T) :
    (T.step (.relay req sends)).Inv := by
  show (T.leg.relaySip req sends).relayedReq.find? =
    openReq ((relayWires T.leg req sends).foldl note T.relays)
  unfold relaySip relayWires
  by_cases hack : req.method ≠ .ACK
  · simp only [B2BEv.Ok, if_pos hack] at hok
    rw [if_pos hack, if_pos hack, if_pos hok, if_pos hok]
    show (T.leg.relayedReq.set T.leg.dlg.cseq req).find? =
      (T.relays.note (.request T.leg.dlg.cseq.toInt (some req))).openReq
    rw [find?_set, openReq_request, h]
  · simp only [B2BEv.Ok, if_neg hack] at hok
    rw [if_neg hack, if_neg hack]
    cases ht : T.leg.relayedReq.entries.find? fun t => t.2.cseq = req.cseq with
    | none => exact h
    | some t =>
      dsimp only
      by_cases hs : sends = true ∧ (T.leg.dlg.trans.find? t.1).isSome = true
      · rw [if_pos hs, if_pos hs]
        show (T.leg.relayedReq.erase t.1).find? = (T.relays.note (.ack t.1)).openReq
        rw [OrdMap.find?_erase_eq, openReq_ack (hok t ht hs.1), h]
      · rw [if_neg hs, if_neg hs]
        exact h

theorem inv_connect (h : T.Inv) {rCseq : BitVec 32} {relayedInvite sends : Bool}
    (hok : (B2BEv.connect rCseq relayedInvite sends).Ok T) :
    (T.step (.connect rCseq relayedInvite sends)).Inv := by
  have hnew : T.relays.openReq T.leg.dlg.cseq.toInt = none := hok
  show (T.leg.connectLeg rCseq relayedInvite sends).relayedReq.find? =
    openReq ((connectWires T.leg rCseq relayedInvite sends).foldl note T.relays)
  have hkeep : update T.relays.openReq T.leg.dlg.cseq.toInt none = T.relays.openReq :=
    update_eq_iff.2 ⟨hnew.symm, fun _ _ => rfl⟩
  cases sends <;> cases relayedInvite
  · exact h
  · -- the entry is taken out again
    show ((T.leg.relayedReq.set T.leg.dlg.cseq (fakeReq rCseq)).remove
      T.leg.dlg.cseq).find? = T.relays.openReq
    rw [find?_remove, find?_set, update_idem, h, hkeep]
  · show T.leg.relayedReq.find? = (T.relays.note (.request T.leg.dlg.cseq.toInt none)).openReq
    rw [openReq_request, hkeep, h]
  · show (T.leg.relayedReq.set T.leg.dlg.cseq (fakeReq rCseq)).find? =
      (T.relays.note (.request T.leg.dlg.cseq.toInt (some (fakeReq rCseq)))).openReq
    rw [find?_set, openReq_request, h]

/-! ## Replies -/

theorem relayedReq_onInvite2xx (s : AmB2BSession) (env : B2BReplyEnv) (reply : AmSipReply) :
    (s.onInvite2xx env reply).relayedReq = s.relayedReq := by
  unfold onInvite2xx
  split_ifs <;> rfl

variable {s : AmB2BSession}
variable {oldCseq newCseq : BitVec 32}

theorem updateUACTransCSeq_none (h : s.relayedReq.get oldCseq = none) :
    (s.updateUACTransCSeq oldCseq newCseq).relayedReq = s.relayedReq := by
  unfold updateUACTransCSeq
  rw [h]
  dsimp only
  split_ifs <;> rfl

theorem updateUACTransCSeq_some (hne : oldCseq ≠ newCseq)
    (h : s.relayedReq.get oldCseq = some req) :
    (s.updateUACTransCSeq oldCseq newCseq).relayedReq =
      (s.relayedReq.set newCseq req).remove oldCseq := by
  unfold updateUACTransCSeq
  rw [if_neg hne, h]
  dsimp only
  split_ifs <;> rfl

variable {g : Relays}

/-- A request sent again keeps its place for the other leg. -/
theorem find?_resend (h : s.relayedReq.find? = g.openReq) (hnew : g.openReq s.dlg.cseq.toInt = none)
    (cseq : BitVec 32) (method : SipMethod) :
    (s.resend cseq method).relayedReq.find? =
      (g.note (.again cseq.toInt s.dlg.cseq.toInt)).openReq := by
  let s' : AmB2BSession := { s with dlg := s.dlg.send (.request method) }
  have hget : s'.relayedReq.get cseq = g.openReq cseq.toInt := congrFun h cseq.toInt
  rw [openReq_again]
  show (s'.updateUACTransCSeq cseq s.dlg.cseq).relayedReq.find? = _
  cases hold : g.openReq cseq.toInt with
  | none =>
    rw [updateUACTransCSeq_none (hget.trans hold)]
    have hkeep : update g.openReq s.dlg.cseq.toInt none = g.openReq :=
      update_eq_iff.2 ⟨hnew.symm, fun _ _ => rfl⟩
    rw [hkeep, update_eq_iff.2 ⟨hold.symm, fun _ _ => rfl⟩]
    exact h
  | some req =>
    have hne : cseq ≠ s.dlg.cseq := by
      rintro rfl
      rw [hnew] at hold
      exact nomatch hold
    rw [updateUACTransCSeq_some hne (hget.trans hold), find?_remove, find?_set]
    rw [show s'.relayedReq.find? = g.openReq from h]

variable {env : B2BReplyEnv} {reply : AmSipReply}

theorem onSipReply_keeps
    (h : ∀ req, s.relayedReq.get reply.cseq = some req → req.method.finishedBy reply.code = false) :
    (s.onSipReply env reply).1.relayedReq = s.relayedReq := by
  unfold onSipReply
  split
  · rfl
  cases hget : s.relayedReq.get reply.cseq with
  | none => rfl
  | some req =>
    simp only [h req hget, Bool.false_eq_true, if_false]
    split_ifs <;> rfl

theorem onSipReply_removes (hget : s.relayedReq.get reply.cseq = some req)
    (hf : req.method.finishedBy reply.code = true) (hd : env.drops reply = false) :
    (s.onSipReply env reply).1.relayedReq = s.relayedReq.remove reply.cseq := by
  have hcode : reply.code ≠ 100 := by
    intro heq
    simp [SipMethod.finishedBy, heq] at hf
  unfold onSipReply
  rw [hd, hget]
  simp [hcode, hf]

/-- The map after the handlers, where the reply was noted before. -/
theorem find?_handleReply (h : s.relayedReq.find? = g.openReq) (hr : env.resends reply = false)
    (hd : env.Delivers reply g) (method : SipMethod) :
    (s.handleReply env reply method).1.relayedReq.find? =
      (g.note (.reply reply.cseq.toInt reply.code)).openReq := by
  have hget := congrFun h reply.cseq.toInt
  unfold handleReply
  rw [hr, if_neg Bool.false_ne_true]
  by_cases hfin : ∃ req, g.openReq reply.cseq.toInt = some req ∧
      req.method.finishedBy reply.code = true
  · obtain ⟨req, hreq, hf⟩ := hfin
    obtain ⟨hp, hdrop⟩ := hd req hreq hf
    rw [if_pos hp, onSipReply_removes (hget.trans hreq) hf hdrop, find?_remove,
      openReq_reply_of_finished hreq hf, h]
  · have hopen : ∀ req, g.openReq reply.cseq.toInt = some req →
        req.method.finishedBy reply.code = false := by
      intro req hreq
      exact Bool.eq_false_iff.2 fun hf => hfin ⟨req, hreq, hf⟩
    rw [openReq_reply_of_open hopen, ← h]
    split_ifs
    · rw [onSipReply_keeps fun req hreq => hopen req (hget.symm.trans hreq)]
    · rfl

/-- Nobody sends the request again after a 2xx. -/
theorem onInvite2xx_of_resends (h : env.resends reply = true) (s : AmB2BSession) :
    s.acksInvite env reply = false := by
  have hcode : isRetryCode reply.code = true := by
    simp only [B2BReplyEnv.resends, Bool.and_eq_true] at h
    exact h.1.2
  have hge : ¬ reply.code < 300 := by
    intro hlt
    simp only [isRetryCode, Bool.or_eq_true, beq_iff_eq] at hcode
    omega
  simp [acksInvite, hge]

/-- The handlers have sent the request again. -/
theorem inv_reply_resent (h : T.Inv) {method : SipMethod} (hr : env.resends reply = true)
    (hsent : RunOk sendNoted ClientOp.Ok (T.leg.dlg, T.relays) (env.ops ++ [.request method])) :
    (({ T.leg with dlg := runFrom UacState.send T.leg.dlg env.ops }.resend reply.cseq
      method).relayedReq.find?) = (T.replyRelays env reply).openReq := by
  obtain ⟨hops, hnew⟩ := runOk_concat hsent
  have hx := openReq_sends hops
  have hu := fst_runFrom_sendNoted env.ops (T.leg.dlg, T.relays)
  unfold replyRelays afterReply
  rw [if_pos hr, if_neg (by simp [onInvite2xx_of_resends hr]), if_pos hr]
  generalize runFrom sendNoted (T.leg.dlg, T.relays) env.ops = x at hnew hx hu ⊢
  rw [← hu]
  exact find?_resend (s := { T.leg with dlg := x.1 }) (h.trans hx.symm) hnew reply.cseq method

/-- The reply goes to the other leg, or is dropped. -/
theorem inv_reply_taken (h : T.Inv) (hr : env.resends reply = false)
    (hops : RunOk sendNoted ClientOp.Ok
      (T.leg.dlg, T.relays.note (.reply reply.cseq.toInt reply.code)) env.ops) :
    (T.replyRelays env reply).openReq =
      (T.relays.note (.reply reply.cseq.toInt reply.code)).openReq := by
  have hx := openReq_sends hops
  have hack : T.leg.acksInvite env reply = true →
      (T.relays.note (.reply reply.cseq.toInt reply.code)).openReq reply.cseq.toInt = none := by
    intro hack
    have hnone : T.leg.relayedReq.get reply.cseq = none := by
      simp only [acksInvite, Bool.and_eq_true, Option.isNone_iff_eq_none] at hack
      exact hack.1.2
    have hopen := (congrFun h reply.cseq.toInt).symm.trans hnone
    rw [openReq_reply_of_open fun req hreq => by rw [hopen] at hreq; exact nomatch hreq]
    exact hopen
  unfold replyRelays afterReply
  simp only [hr, Bool.false_eq_true, if_false]
  -- the ACK of `onInvite2xx` is not for a relayed INVITE
  split_ifs with hacks
  · rw [openReq_ack_of_ne (not_accepted_of_openReq ((congrFun hx _).trans (hack hacks)))]
    exact hx
  · exact hx

theorem inv_reply (h : T.Inv) (hok : (B2BEv.reply env reply).Ok T) :
    (T.step (.reply env reply)).Inv := by
  show (T.leg.onRxReply env reply).1.relayedReq.find? = openReq
    (if (T.leg.dlg.trans.find? reply.cseq.toInt).isSome then T.replyRelays env reply else T.relays)
  unfold onRxReply
  cases hm : T.leg.dlg.trans.find? reply.cseq.toInt with
  | none => exact h
  | some method =>
    obtain ⟨hsent, hdel⟩ := hok method hm
    -- the leg after the dialog has sent what the reply makes it send
    let s : AmB2BSession := { T.leg with dlg := runFrom UacState.send T.leg.dlg env.ops }
    show ((s.onInvite2xx env reply).handleReply env reply method).1.relayedReq.find? =
      (T.replyRelays env reply).openReq
    cases hr : env.resends reply with
    | true =>
      rw [B2BReplyEnv.sent, if_pos hr, afterReply, if_pos hr] at hsent
      have hno : s.onInvite2xx env reply = s := by
        rw [onInvite2xx, onInvite2xx_of_resends hr, if_neg Bool.false_ne_true]
      rw [hno, handleReply, if_pos hr]
      exact inv_reply_resent h hr hsent
    | false =>
      have hno := Bool.eq_false_iff.1 hr
      rw [B2BReplyEnv.sent, if_neg hno, afterReply, if_neg hno] at hsent
      have hs : (s.onInvite2xx env reply).relayedReq.find? = T.relays.openReq := by
        rw [relayedReq_onInvite2xx]
        exact h
      rw [find?_handleReply hs hr (hdel hr), inv_reply_taken h hr hsent]

theorem inv_step {ev : B2BEv} (h : T.Inv) (hok : ev.Ok T) : (T.step ev).Inv := by
  cases ev with
  | relay req sends => exact inv_relay h hok
  | connect rCseq relayedInvite sends => exact inv_connect h hok
  | send op => exact h.trans (openReq_sendNoted hok).symm
  | reply env reply => exact inv_reply h hok

/-! ## The answers the other leg gets -/

theorem openReq_eq_some {key : ℤ} :
    g.openReq key = some req ↔ ∃ r, g key = some r ∧ r.req = req ∧ r.phase ≠ .finished := by
  unfold openReq
  cases g key with
  | none => simp
  | some r => simp [isOpen, and_comm]

/-- What goes out as an answer was found in `relayed_req`. -/
theorem forward_onRxReply {out : B2BReply} (h : (s.onRxReply env reply).2 = some out)
    (hf : out.forward = true) :
    ∃ req, s.relayedReq.get reply.cseq = some req ∧ out.reply.cseq = req.cseq ∧
      out.transMethod = req.method := by
  unfold onRxReply at h
  cases hm : s.dlg.trans.find? reply.cseq.toInt with
  | none =>
    rw [hm] at h
    exact nomatch h
  | some method =>
    rw [hm] at h
    dsimp only [handleReply] at h
    split_ifs at h
    rw [onSipReply, relayedReq_onInvite2xx] at h
    split at h
    · exact nomatch h
    cases hget : s.relayedReq.get reply.cseq with
    | none =>
      rw [hget] at h
      obtain rfl := Option.some.inj h
      exact nomatch hf
    | some req =>
      rw [hget] at h
      dsimp only at h
      split at h
      · obtain rfl := Option.some.inj h
        exact ⟨req, rfl, rfl, rfl⟩
      · obtain rfl := Option.some.inj h
        exact nomatch hf

theorem Inv.exact (h : T.Inv) : T.Exact where
  relayed key req := by
    rw [congrFun h key]
    exact openReq_eq_some
  answers env reply out hout hf := by
    obtain ⟨req, hget, hcseq, hmethod⟩ := forward_onRxReply hout hf
    have hopen := (congrFun h reply.cseq.toInt).symm.trans hget
    obtain ⟨r, hr, rfl, hphase⟩ := openReq_eq_some.1 hopen
    exact ⟨r, hr, hphase, hcseq, hmethod⟩

theorem inv_start {dlg : UacState} {estInviteCseq estInviteOtherCseq : BitVec 32} :
    (start dlg estInviteCseq estInviteOtherCseq).Inv :=
  rfl

/-- In every run whose calls meet `B2BEv.Ok`, `relayed_req` maps a CSeq to a request of the other
leg exactly if the request with it was sent for that one and is open, and every answer to the other
leg is a reply to such a request. -/
theorem relayedReq_exact {dlg : UacState} {estInviteCseq estInviteOtherCseq : BitVec 32}
    {evs : List B2BEv} (hok : RunOk step (fun T ev => ev.Ok T)
      (start dlg estInviteCseq estInviteOtherCseq) evs) :
    (runFrom step (start dlg estInviteCseq estInviteOtherCseq) evs).Exact :=
  (RunOk.inv inv_step inv_start hok).exact

/-! ## A relayed request that is not sent -/

/-- A leg whose next request has the CSeq 10. -/
def idle : TracedLeg :=
  start ⟨10, .empty⟩ 0 0

/-- A request of the other leg. -/
def otherReq (method : SipMethod) : AmSipRequest :=
  { AmB2BSession.fakeReq 5 with method := method }

/-- The reply 200 to the leg's request with the CSeq 10. -/
def reply200 (method : SipMethod) : AmSipReply where
  code := 200
  cseqMethod := method
  cseq := 10
  rseq := 0
  toTag := "r".toList
  hdrs := []
  body := .none

def plainEnv : B2BReplyEnv where
  ops := []
  acks := true
  passes := true
  remoteTag := "r".toList
  retries := false
  subs := true

/-- A relayed INVITE is accepted, the other leg sends the ACK, and this leg a BYE. -/
theorem relayedReq_exact_invite :
    (runFrom step idle [.relay (otherReq .INVITE) true, .reply plainEnv (reply200 .INVITE),
      .relay (otherReq .ACK) true, .send (.request .BYE)]).Exact := by
  refine relayedReq_exact ⟨rfl, fun method _ => ⟨trivial, fun _ req hreq hf => ⟨rfl, rfl⟩⟩, ?_, rfl,
    trivial⟩
  intro t ht _
  obtain rfl := Option.some.inj ht
  rfl

/-- An INFO of the other leg is not sent. The BYE of this leg then has its CSeq, and the reply to it
answers the INFO. -/
theorem relay_notSent_answered :
    ¬ ∀ (dlg : UacState) (estInviteCseq estInviteOtherCseq : BitVec 32) (evs : List B2BEv),
      (runFrom step (start dlg estInviteCseq estInviteOtherCseq) evs).Exact := by
  intro h
  have hexact := h ⟨10, .empty⟩ 0 0 [.relay (otherReq .INFO) false, .send (.request .BYE)]
  obtain ⟨r, hr, -⟩ := hexact.answers plainEnv (reply200 .BYE)
    ⟨{ reply200 .BYE with cseq := 5 }, true, .INFO⟩ rfl rfl
  exact nomatch hr

end TracedLeg

end Sems
