import Sems.TransServer

/-!
# Reliable provisional replies

What `send_reply` makes of a reliable provisional reply of the UA (`Rel100Sent`). The transaction
is to keep the RSeq of the reply, so that the reply is retransmitted until the PRACK for it comes.
But the RSeq is looked for in the headers of the request. So this is the case exactly if these
give the RSeq of the reply (`RequestGives`).
-/

namespace Sems

open List

/-! ## The headers of the request -/

def SipHeader.isRequire100rel (hdr : SipHeader) : Bool :=
  hdr.type = .H_REQUIRE && parseExtensions hdr.value = some true

def SipHeader.rseq (hdr : SipHeader) : Option ℕ :=
  if hdr.type = .H_RSEQ then parseRseq hdr.value else none

/-- The first RSeq that is not 0, or 0. -/
def firstRseq : List SipHeader → ℕ
  | [] => 0
  | hdr :: hdrs => if hdr.rseq.getD 0 ≠ 0 then hdr.rseq.getD 0 else firstRseq hdrs

/-- There is an RSeq of 0 after a Require of 100rel. -/
def zeroAfter100rel : List SipHeader → Bool
  | [] => false
  | hdr :: hdrs =>
    if hdr.isRequire100rel then hdrs.any fun h => h.rseq = some 0 else zeroAfter100rel hdrs

open SipHeader

/-- The headers of the request give the RSeq `n`, or give none and `n` was kept from an earlier
reply. -/
def RequestGives (hdrs : List SipHeader) (lastRseq n : ℕ) : Prop :=
  if hdrs.any isRequire100rel ∧ firstRseq hdrs ≠ 0 then firstRseq hdrs = n
  else lastRseq = n ∧ zeroAfter100rel hdrs = false

namespace Rel100Scan

variable {s : Rel100Scan} {hdr : SipHeader}

/-- A Require without 100rel, or a header of another kind. -/
theorem header_other (h : hdr.isRequire100rel = false) (hrseq : hdr.rseq = none) :
    s.header hdr = s := by
  unfold header
  unfold isRequire100rel at h
  unfold SipHeader.rseq at hrseq
  cases htype : hdr.type with
  | H_REQUIRE =>
    cases hext : s.rel100Ext with
    | true => rfl
    | false =>
      cases hparse : parseExtensions hdr.value with
      | none => rfl
      | some rel100 =>
        obtain rfl : rel100 = false := by simpa [htype, hparse] using h
        obtain ⟨rel100Ext, rseq, lastRseq⟩ := s
        cases hext
        rfl
  | H_RSEQ =>
    rw [if_pos htype] at hrseq
    rw [hrseq]
    exact ite_self s
  | _ => rfl

/-- The first Require of 100rel. -/
theorem header_require (h : hdr.isRequire100rel = true) :
    s.header hdr =
      if s.rel100Ext then s
      else { s with rel100Ext := true, lastRseq := if s.rseq ≠ 0 then s.rseq else s.lastRseq } := by
  unfold isRequire100rel at h
  rw [Bool.and_eq_true, decide_eq_true_eq, decide_eq_true_eq] at h
  unfold header
  rw [h.1]
  rw [h.2]
  simp

/-- The first RSeq that is not 0. -/
theorem header_rseq {n : ℕ} (h : hdr.rseq = some n) :
    s.header hdr =
      if s.rseq ≠ 0 then s
      else { s with rseq := n, lastRseq := if s.rel100Ext then n else s.lastRseq } := by
  unfold SipHeader.rseq at h
  split_ifs at h with htype
  unfold header
  rw [htype]
  rw [h]

theorem isRequire100rel_of_rseq {n : ℕ} (h : hdr.rseq = some n) : hdr.isRequire100rel = false := by
  unfold SipHeader.rseq at h
  split_ifs at h with htype
  simp [isRequire100rel, htype]

/-- Once 100rel and an RSeq are known, the scan is over. -/
theorem foldl_of_known (hrel : s.rel100Ext = true) (hrseq : s.rseq ≠ 0) (hdrs : List SipHeader) :
    hdrs.foldl header s = s := by
  induction hdrs with
  | nil => rfl
  | cons hdr hdrs ih =>
    have hhdr : s.header hdr = s := by
      unfold header
      split
      · rw [if_pos hrel]
      · rw [if_pos hrseq]
      · rfl
    rw [foldl_cons, hhdr]
    exact ih

/-- With 100rel known. -/
theorem foldl_of_rel100 (hrel : s.rel100Ext = true) (hrseq : s.rseq = 0) (hdrs : List SipHeader) :
    (hdrs.foldl header s).lastRseq =
      if firstRseq hdrs ≠ 0 then firstRseq hdrs
      else if hdrs.any fun h => h.rseq = some 0 then 0 else s.lastRseq := by
  induction hdrs generalizing s with
  | nil => rfl
  | cons hdr hdrs ih =>
    rw [foldl_cons]
    unfold firstRseq
    cases h : hdr.rseq with
    | none =>
      have hhdr : s.header hdr = s := by
        cases hreq : hdr.isRequire100rel with
        | false => exact header_other hreq h
        | true => rw [header_require hreq, if_pos hrel]
      rw [hhdr, ih hrel hrseq]
      simp [h]
    | some n =>
      rw [header_rseq h, if_neg (not_not.2 hrseq), if_pos hrel]
      by_cases hn : n = 0
      · subst hn
        rw [ih (s := { s with rseq := 0, lastRseq := 0 }) hrel rfl]
        simp [h]
      · rw [foldl_of_known (s := { s with rseq := n, lastRseq := n }) hrel hn]
        simp [hn]

/-- With an RSeq known. -/
theorem foldl_of_rseq (hrel : s.rel100Ext = false) (hrseq : s.rseq ≠ 0) (hdrs : List SipHeader) :
    (hdrs.foldl header s).lastRseq = if hdrs.any isRequire100rel then s.rseq else s.lastRseq := by
  induction hdrs with
  | nil => rfl
  | cons hdr hdrs ih =>
    rw [foldl_cons]
    cases hreq : hdr.isRequire100rel with
    | true =>
      rw [header_require hreq, hrel, if_neg Bool.false_ne_true, if_pos hrseq,
        foldl_of_known (s := { s with rel100Ext := true, lastRseq := s.rseq }) rfl hrseq]
      simp [hreq]
    | false =>
      have hhdr : s.header hdr = s := by
        cases h : hdr.rseq with
        | none => exact header_other hreq h
        | some n => rw [header_rseq h, if_pos hrseq]
      rw [hhdr, ih]
      simp [hreq]

theorem zeroAfter100rel_of_not_any :
    ∀ {hdrs : List SipHeader}, hdrs.any isRequire100rel = false → zeroAfter100rel hdrs = false
  | [], _ => rfl
  | hdr :: hdrs, h => by
    rw [any_cons, Bool.or_eq_false_iff] at h
    unfold zeroAfter100rel
    rw [h.1, if_neg Bool.false_ne_true]
    exact zeroAfter100rel_of_not_any h.2

/-- From the start. -/
theorem foldl_lastRseq (hrel : s.rel100Ext = false) (hrseq : s.rseq = 0) (hdrs : List SipHeader) :
    (hdrs.foldl header s).lastRseq =
      if hdrs.any isRequire100rel ∧ firstRseq hdrs ≠ 0 then firstRseq hdrs
      else if zeroAfter100rel hdrs then 0 else s.lastRseq := by
  induction hdrs generalizing s with
  | nil => rfl
  | cons hdr hdrs ih =>
    rw [foldl_cons]
    unfold firstRseq zeroAfter100rel
    cases hreq : hdr.isRequire100rel with
    | true =>
      have hnone : hdr.rseq = none := by
        cases h : hdr.rseq with
        | none => rfl
        | some n => exact absurd (hreq.symm.trans (isRequire100rel_of_rseq h)) Bool.true_eq_false.mp
      rw [header_require hreq, hrel, if_neg Bool.false_ne_true,
        foldl_of_rel100 (s := { s with rel100Ext := true, lastRseq := _ }) rfl hrseq]
      simp [hreq, hnone, hrseq]
    | false =>
      cases h : hdr.rseq with
      | none =>
        rw [header_other hreq h, ih hrel hrseq]
        simp [hreq]
      | some n =>
        rw [header_rseq h, if_neg (not_not.2 hrseq), hrel, if_neg Bool.false_ne_true]
        by_cases hn : n = 0
        · subst hn
          rw [ih rfl rfl]
          simp [hreq]
        · rw [foldl_of_rseq rfl hn]
          cases hany : hdrs.any isRequire100rel with
          | true => simp [hreq, hn, hany]
          | false => simp [hreq, hany, zeroAfter100rel_of_not_any hany]

end Rel100Scan

variable {t : SipTrans}

theorem requestGives_iff {n : ℕ} (hn : 0 < n) :
    RequestGives t.msg.hdrs t.lastRseq n ↔
      (t.msg.hdrs.foldl Rel100Scan.header ⟨false, 0, t.lastRseq⟩).lastRseq = n := by
  rw [Rel100Scan.foldl_lastRseq rfl rfl]
  unfold RequestGives
  split_ifs with h hzero
  · exact Iff.rfl
  · simp only [hzero, Bool.true_eq_false, and_false, false_iff]
    omega
  · simp [hzero]

/-! ## A reliable reply -/

/-- A provisional reply with Require : 100rel and an RSeq. -/
structure ServerReply.Reliable (reply : ServerReply) (n : ℕ) : Prop where
  provisional : reply.code < 200
  require : ∃ hdr ∈ reply.hdrs, hdr.isRequire100rel = true
  rseq : ∃ hdr ∈ reply.hdrs, hdr.rseq = some n
  pos : 0 < n

/-- A PRACK for the reply with the RSeq `n` of a transaction. -/
structure TransMsg.PracksFor (msg : TransMsg) (t : SipTrans) (n : ℕ) : Prop where
  method : msg.method = .PRACK
  rack : ∃ rack, msg.rack = some rack ∧ rack.rseq = n ∧ rack.cseq = t.msg.cseqNum ∧
    rack.method = t.msg.method
  fromTag : msg.fromTag = t.msg.fromTag
  toTag : msg.toTag = t.toTag
  callid : msg.callid = t.msg.callid

/-- The reliable reply with the RSeq `n` was sent, and is retransmitted until the PRACK. -/
structure Rel100Sent (t : SipTrans) (n : ℕ) : Prop where
  lastRseq : t.lastRseq = n
  state : t.state = .TS_PROCEEDING_REL
  timerH : t.timers.armed .STIMER_H = true
  timerG : t.msg.localSocket.reliable = false → t.timers.armed .STIMER_G = true
  matched : ∀ {msg : TransMsg}, msg.PracksFor t n → ∀ {elmts : List SipTrans}, t ∈ elmts →
    (match1xxPrack elmts msg).isSome
  stopped : ∀ {msg : TransMsg}, msg.PracksFor t n → ∃ s, updateUasRequest t msg = (some s, true) ∧
    s.timers.armed .STIMER_G = false ∧ s.timers.armed .STIMER_H = false

theorem match1xxPrack_of_pracks {msg : TransMsg} {elmts : List SipTrans}
    (h : msg.PracksFor t t.lastRseq) (ht : t ∈ elmts) : (match1xxPrack elmts msg).isSome := by
  obtain ⟨rack, hrack, hrseq, hcseq, hmethod⟩ := h.rack
  unfold match1xxPrack
  rw [hrack]
  rw [find?_isSome]
  refine ⟨t, ht, ?_⟩
  simp [matches1xxPrack, h.fromTag, h.toTag, h.callid, hrseq, hcseq, hmethod]

theorem rel100Sent_of_state (hstate : t.state = .TS_PROCEEDING_REL)
    (hH : t.timers.armed .STIMER_H = true)
    (hG : t.msg.localSocket.reliable = false → t.timers.armed .STIMER_G = true) :
    Rel100Sent t t.lastRseq where
  lastRseq := rfl
  state := hstate
  timerH := hH
  timerG := hG
  matched h _ ht := match1xxPrack_of_pracks h ht
  stopped h := by
    unfold updateUasRequest
    rw [hstate, h.method]
    refine ⟨_, rfl, ?_, ?_⟩
    · simp [Timers.armed_clear, TimerType.slot]
    · simp [Timers.armed_clear, TimerType.slot]

theorem SipTrans.repeatReply_armed :
    t.repeatReply.timers.armed .STIMER_H = true ∧
      (t.msg.localSocket.reliable = false → t.repeatReply.timers.armed .STIMER_G = true) := by
  unfold SipTrans.repeatReply
  refine ⟨?_, fun hrel => ?_⟩
  · simp [Timers.armed_put]
  · simp [Timers.armed_put, TimerType.slot, hrel]

/-- What `send_reply` leaves of a provisional reply that it has sent. -/
theorem sendReply_provisional {reply : ServerReply} {env : ReplyEnv} (hcode : reply.code < 200)
    (hsent : (sendReply env t reply).2 = true) :
    ∃ s, (sendReply env t reply).1 = some s ∧
      s.lastRseq = (t.msg.hdrs.foldl Rel100Scan.header ⟨false, 0, t.lastRseq⟩).lastRseq ∧
        (s.lastRseq ≠ 0 → Rel100Sent s s.lastRseq) := by
  unfold sendReply at hsent ⊢
  by_cases hstatus : 200 ≤ t.replyStatus
  · rw [if_pos hstatus] at hsent
    exact absurd hsent Bool.false_ne_true
  rw [if_neg hstatus] at hsent ⊢
  generalize t.msg.hdrs.foldl Rel100Scan.header ⟨false, 0, t.lastRseq⟩ = scan at hsent ⊢
  dsimp only at hsent ⊢
  split_ifs at hsent with hresolved hnotSent
  rw [if_neg hresolved, if_neg hnotSent]
  unfold updateUasReply
  rw [if_neg (Nat.not_le.2 (Nat.lt_trans hcode (by decide))), if_neg (Nat.not_le.2 hcode)]
  by_cases hrseq : scan.lastRseq = 0
  · rw [if_neg (not_not.2 hrseq)]
    exact ⟨_, rfl, rfl, fun h => absurd hrseq h⟩
  · rw [if_pos hrseq]
    refine ⟨_, rfl, rfl, fun _ => rel100Sent_of_state rfl ?_ ?_⟩
    · exact SipTrans.repeatReply_armed.1
    · intro hrel
      exact SipTrans.repeatReply_armed.2 hrel

/-- A reliable reply is sent as one exactly if the request has its RSeq. -/
theorem sendReply_rel100_iff {t : SipTrans} {reply : ServerReply} {n : ℕ} (env : ReplyEnv)
    (hreply : reply.Reliable n) (hsent : (sendReply env t reply).2 = true) :
    ∃ s, (sendReply env t reply).1 = some s ∧
      (Rel100Sent s n ↔ RequestGives t.msg.hdrs t.lastRseq n) := by
  obtain ⟨s, hs, hrseq, hrel⟩ := sendReply_provisional hreply.provisional hsent
  refine ⟨s, hs, ?_⟩
  rw [requestGives_iff hreply.pos, ← hrseq]
  constructor
  · exact fun h => h.lastRseq
  · rintro rfl
    exact hrel (Nat.ne_of_gt hreply.pos)

/-! ## An INVITE over UDP -/

def rel100Hdrs : List SipHeader :=
  [⟨.H_REQUIRE, "Require".toList, SIP_EXT_100REL⟩, ⟨.H_RSEQ, "RSeq".toList, "1".toList⟩]

/-- The transaction of an INVITE with some headers. -/
def inviteWith (hdrs : List SipHeader) : SipTrans :=
  newTrans 1 ⟨false, false⟩ { TransMsg.bare .INVITE "INVITE".toList with hdrs := hdrs } .TT_UAS

/-- A 183 reply with Require : 100rel and RSeq : 1. -/
def rel183 : ServerReply := ⟨183, rel100Hdrs, [], "t".toList⟩

theorem rel183_reliable : rel183.Reliable 1 where
  provisional := by decide
  require := ⟨_, mem_cons_self, by decide⟩
  rseq := ⟨_, mem_cons_of_mem _ mem_cons_self, by decide⟩
  pos := Nat.one_pos

/-- The reply to an INVITE without these headers is sent, and not as a reliable one. -/
theorem not_rel100Sent_rel183 :
    rel183.Reliable 1 ∧ (sendReply ⟨true, true⟩ (inviteWith []) rel183).2 = true ∧
      ∃ s, (sendReply ⟨true, true⟩ (inviteWith []) rel183).1 = some s ∧ ¬ Rel100Sent s 1 := by
  refine ⟨rel183_reliable, rfl, _, rfl, fun h => ?_⟩
  exact absurd h.lastRseq (by decide)

theorem sendReply_rel100_rel183 :
    ∃ s, (sendReply ⟨true, true⟩ (inviteWith rel100Hdrs) rel183).1 = some s ∧ Rel100Sent s 1 := by
  obtain ⟨s, hs, hiff⟩ :=
    sendReply_rel100_iff (t := inviteWith rel100Hdrs) ⟨true, true⟩ rel183_reliable rfl
  refine ⟨s, hs, hiff.2 ?_⟩
  unfold RequestGives
  rw [if_pos (by decide)]
  decide

end Sems
