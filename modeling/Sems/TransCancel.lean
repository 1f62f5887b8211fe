import Sems.TransRuns

/-!
# CANCEL for an abandoned INVITE

A provisional reply to an abandoned transaction makes `update_uac_reply` call `cancel` for it. But
`cancel` takes an abandoned transaction for one that does not exist, and looks for another one by
the dialog, which is empty here. So there is no CANCEL (`not_cancelsOnce`), and the callee goes on
ringing.
-/

namespace Sems

/-- A CANCEL for a request. -/
def TransLog.cancels (msg : TransMsg) : TransLog → Bool
  | .request _ m =>
    m.method == .CANCEL && m.branch == msg.branch && m.callid == msg.callid &&
      m.cseqNum == msg.cseqNum
  | _ => false

namespace TransBucket

/-- `process_rcvd_msg` with a reply and, if it goes on with `cancel`, this too. -/
def processReplyAll (b : TransBucket) (net : Attempts) (addr : ℕ) (env : CancelEnv)
    (reply : TransReply) : TransBucket :=
  (b.processReply net addr reply).resume env addr b.calls.length

/-- One CANCEL was sent for the transaction, which is canceled now. -/
def CancelsOnce (b b' : TransBucket) (t : SipTrans) : Prop :=
  (b'.log.drop b.log.length).countP (TransLog.cancels t.msg) = 1 ∧
    ∃ s ∈ b'.elmts, s.addr = t.addr ∧ s.canceled = true

variable {b : TransBucket} {t : SipTrans}

/-- `cancel` does not find an abandoned transaction. -/
theorem cancel_of_abandoned (env : CancelEnv) (addr tr : ℕ)
    (h : ∀ t ∈ b.elmts, t.addr = tr → t.state = .TS_ABANDONED) : b.cancel env addr tr [] 0 = b := by
  have hfind :
      b.elmts.find? (fun t => t.addr == tr && decide (t.state ≠ .TS_ABANDONED)) = none := by
    rw [List.find?_eq_none]
    intro t ht
    rw [Bool.and_eq_true, beq_iff_eq, decide_eq_true_eq]
    exact fun h' => h'.2 (h t ht h'.1)
  unfold cancel cancelTarget
  rw [hfind]
  rfl

/-- No provisional reply to an abandoned transaction sends a CANCEL. -/
theorem not_cancelsOnce (net : Attempts) (addr : ℕ) (env : CancelEnv) {reply : TransReply}
    (hmatch : matchReply b.elmts reply = some t) (hstate : t.state = .TS_ABANDONED)
    (hcode : reply.code < 200) : ¬ b.CancelsOnce (b.processReplyAll net addr env reply) t := by
  have hlog : (b.processReplyAll net addr env reply).log = b.log := by
    have hfirst : b.processReply net addr reply =
        b.apply t.addr ⟨some t.disableBl, [], [], [.cancel t.addr]⟩ := by
      unfold processReply updateUacReply provisionalReply
      rw [hmatch]
      dsimp only
      rw [if_pos hcode, hstate]
      rfl
    unfold processReplyAll resume
    rw [hfirst]
    have hcall :
        (b.apply t.addr ⟨some t.disableBl, [], [], [.cancel t.addr]⟩).calls[b.calls.length]? =
          some (.cancel t.addr) := List.getElem?_concat_length
    rw [hcall]
    dsimp only
    rw [cancel_of_abandoned]
    · exact List.append_nil b.log
    · intro s hs haddr
      have hmem : s ∈ replaceKey SipTrans.addr t.addr (some t.disableBl) b.elmts ++ [] := hs
      rw [List.append_nil] at hmem
      rcases mem_replaceKey.1 hmem with ⟨-, hne⟩ | ⟨hself, -⟩
      · exact absurd haddr hne
      · cases hself
        exact hstate
  rintro ⟨hcount, -⟩
  rw [hlog, List.drop_length, List.countP_nil] at hcount
  exact Nat.zero_ne_one hcount

/-! ## A cancelled INVITE -/

/-- An INVITE was sent, and cancelled before there was a reply. -/
def inviteAbandoned : TransBucket :=
  runFrom TransTable.step .init
    [sendTo [⟨1, []⟩] .INVITE "INVITE".toList, (0, .cancel ⟨true, true, ⟨false, false⟩⟩ 2 1 [] 0)] 0

def ringing : TransReply :=
  ⟨180, MAGIC_BRANCH_COOKIE ++ ['0'], "1".toList, "INVITE".toList, [], some udpSocket⟩

/-- The reply is for the abandoned INVITE, and makes no CANCEL though it could be sent. -/
theorem ringing_no_cancel :
    ((matchReply inviteAbandoned.elmts ringing).map fun t => (t.msg.method, t.state)) =
        some (.INVITE, .TS_ABANDONED) ∧
      ((inviteAbandoned.processReplyAll allSent 2 ⟨true, true, ⟨false, false⟩⟩ ringing).log.drop
        inviteAbandoned.log.length).length = 0 ∧
      (inviteAbandoned.processReplyAll allSent 2 ⟨true, true, ⟨false, false⟩⟩ ringing).elmts.map
        SipTrans.canceled = [false] := by
  decide +kernel

theorem not_cancelsOnce_ringing :
    ∃ t, matchReply inviteAbandoned.elmts ringing = some t ∧ t.state = .TS_ABANDONED ∧
      ¬ inviteAbandoned.CancelsOnce
        (inviteAbandoned.processReplyAll allSent 2 ⟨true, true, ⟨false, false⟩⟩ ringing) t := by
  obtain ⟨t, ht, hstate⟩ :
      ∃ t, matchReply inviteAbandoned.elmts ringing = some t ∧ t.state = .TS_ABANDONED :=
    ⟨_, rfl, rfl⟩
  exact ⟨t, ht, hstate, not_cancelsOnce allSent 2 _ ht hstate (by decide)⟩

end TransBucket

end Sems
