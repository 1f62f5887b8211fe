import Sems.TransServer

/-!
# The request of a transaction

What `match_request` says about a request and the transaction it returns. With the cookie in the
branch, these have the branch, the sent-by and the method in common, or the request is the ACK
of a 2xx reply, which is known by its dialog (`Matched`). Neither the Call-ID nor the first Via of
a request without the cookie is looked at.
-/

namespace Sems

variable (msg : TransMsg) (t : SipTrans)

/-- The method of the transaction, or the ACK for its INVITE. -/
def SameMethod : Prop :=
  msg.method = t.msg.method ∨ (msg.method = .ACK ∧ t.msg.method = .INVITE)

/-- The request belongs to the transaction, as in the comments of `match_request`. -/
def BelongsTo : Prop :=
  SameMethod msg t ∧
    if msg.hasCookie then
      msg.branch = t.msg.branch ∧ msg.host = t.msg.host ∧ msg.port = t.msg.port
    else
      msg.ruriStr = t.msg.ruriStr ∧ msg.fromTag = t.msg.fromTag ∧ msg.callid = t.msg.callid ∧
        msg.cseqNumStr = t.msg.cseqNumStr ∧
          (msg.branch = t.msg.branch ∧ msg.host = t.msg.host ∧ msg.port = t.msg.port) ∧
            msg.toTag = if msg.method = .ACK then t.toTag else t.msg.toTag

/-- The branch and the sent-by are those of the transaction. -/
structure SameVia : Prop where
  branch : t.msg.hasCookie → msg.branch = t.msg.branch
  host : msg.host = t.msg.host
  port : msg.port = t.msg.port

/-- The ACK of a 2xx reply to an INVITE. -/
structure Acks2xx : Prop where
  method : msg.method = .ACK ∧ t.msg.method = .INVITE
  fromTag : msg.fromTag = t.msg.fromTag
  cseqNum : msg.cseqNum = t.msg.cseqNum
  callid : msg.callid = t.msg.callid
  toTag : msg.toTag = t.toTag

/-- What a request without the cookie has in common with its transaction. -/
structure Pre3261 : Prop where
  fromTag : msg.fromTag = t.msg.fromTag
  cseqNumStr : msg.cseqNumStr = t.msg.cseqNumStr
  toTag : msg.toTag = if msg.method = .ACK then t.toTag else t.msg.toTag
  ruriStr : ¬ (msg.method = .ACK ∧ t.replyStatus < 300) → msg.ruriStr = t.msg.ruriStr

/-- What `match_request` makes sure of. -/
def Matched : Prop :=
  SameMethod msg t ∧ if msg.hasCookie then SameVia msg t ∨ Acks2xx msg t else Pre3261 msg t

/-! ## The comparisons -/

variable {msg : TransMsg} {t : SipTrans}

theorem branch_of_cookie (h : msg.hasCookie) :
    msg.branch = MAGIC_BRANCH_COOKIE ++ msg.branch.drop MAGIC_BRANCH_LEN := by
  unfold TransMsg.hasCookie at h
  rw [Bool.and_eq_true, beq_iff_eq] at h
  rw [← h.2, List.take_append_drop]

theorem sameVia_of_compareBranch (hc : msg.hasCookie)
    (h : compareBranch t msg (msg.branch.drop MAGIC_BRANCH_LEN)) : SameVia msg t := by
  unfold compareBranch at h
  simp only [Bool.and_eq_true, beq_iff_eq] at h
  refine ⟨fun ht => ?_, h.1.2.symm, h.2.symm⟩
  rw [branch_of_cookie hc, branch_of_cookie ht, h.1.1.2]

theorem matched_of_matches3261 (hc : msg.hasCookie) (h : matches3261 msg t) : Matched msg t := by
  unfold matches3261 at h
  unfold Matched
  rw [if_pos hc]
  dsimp only at h
  split_ifs at h with hne hack
  · rw [Bool.or_eq_true] at h
    refine ⟨.inr ⟨hack.2, hack.1⟩, h.imp (sameVia_of_compareBranch hc) fun h => ?_⟩
    unfold match200Ack at h
    simp only [Bool.and_eq_true, beq_iff_eq] at h
    exact ⟨⟨hack.2, hack.1⟩, h.1.1.1, h.1.1.2, h.1.2, h.2⟩
  · exact ⟨.inl (not_not.1 hne), .inl (sameVia_of_compareBranch hc h)⟩

theorem matched_of_matchesPre3261 (hc : ¬ msg.hasCookie) (h : matchesPre3261 msg t) :
    Matched msg t := by
  unfold matchesPre3261 at h
  unfold Matched
  rw [if_neg hc]
  split_ifs at h with hm hfrom hcseq hack hto hstatus hto
  all_goals
    have hmethod : SameMethod msg t := by
      unfold SameMethod
      by_contra hne
      rw [not_or, not_and_or] at hne
      exact hm hne
    refine ⟨hmethod, not_not.1 hfrom, not_not.1 hcseq, ?_, fun hruri => ?_⟩
  · rw [if_pos hack]
    exact not_not.1 hto
  · exact absurd ⟨hack, hstatus⟩ hruri
  · rw [if_pos hack]
    exact not_not.1 hto
  · exact (beq_iff_eq.1 h).symm
  · rw [if_neg hack]
    exact not_not.1 hto
  · exact (beq_iff_eq.1 h).symm

/-- A request of a call, with a branch. -/
def callRequest (method : ReqMethod) (branch callid : Str) : TransMsg :=
  { TransMsg.bare method [] with branch := branch, callid := callid }

end Sems
