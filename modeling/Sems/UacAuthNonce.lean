import Sems.UacAuth
import Sems.Logs
import Sems.Runs

/-!
# The nonce counts of client authentication

The count of a header with a `qop` is the number of headers that were written for the nonce of the
server, this one included. `UACAuth` has a member for the last nonce, which it never sets. The count
is 1 in every header (`written_step`), so the counts are right if and only if no nonce is used twice
(`countsOk_run_iff`). A request after one that was authenticated uses it twice (`run_sameCount`).
-/

namespace Sems

/-- The nonce of a header with a count for the challenge. -/
def UACAuthDigestChallenge.counted (challenge : UACAuthDigestChallenge) : Option Str :=
  if challenge.unsupported = true ∨ challenge.qopValue = [] then none else some challenge.nonce

namespace UACAuth

/-- The counts for a nonce are 1, 2, 3 and so on. -/
def CountsOk (written : List (Str × BitVec 32)) : Prop :=
  Logged (fun pre entry => entry.2.toNat = (pre.map Prod.fst).count entry.1 + 1) written

/-- The nonce of the header with a count that a step writes. -/
def countedNonce (s : UACAuth) : AuthEv → Option Str
  | .request _ noAuth _ _ _ =>
    if noAuth = true ∨ s.challenge.nonce = [] then none else s.challenge.counted
  | .reply reply _ _ _ =>
    if reply.code = 407 ∨ reply.code = 401 then
      let kind := AuthKind.ofCode reply.code
      let authHdr := getHeaderSingle reply.hdrs kind.challengeHdr
      (s.sentRequests.find? reply.cseq).bind fun ri =>
        if s.authFailed ri kind = true ∨ authHdr = [] ∨ (parseHeader authHdr s.challenge).1 = false
        then none else (parseHeader authHdr s.challenge).2.counted
    else none

/-- No header with a count was written for the nonce before. -/
def FreshNonce (s : UACAuth) (ev : AuthEv) : Prop :=
  ∀ nonce, s.countedNonce ev = some nonce → nonce ∉ s.written.map Prod.fst

variable {ops : DigestOps} {cred : UACAuthCred} {s : UACAuth}

/-- The header with a count that is written for a nonce. -/
def countOne (nonce : Option Str) : List (Str × BitVec 32) :=
  (nonce.map fun n => (n, 1)).toList

/-- The written headers, in a state where no nonce was set. -/
def Writes (s : UACAuth) (nonce : Option Str) (s' : UACAuth) : Prop :=
  s'.written = s.written ++ countOne nonce ∧ s'.nonce = []

theorem writes_none (h : s.nonce = []) : Writes s none s :=
  ⟨(List.append_nil _).symm, h⟩

variable (ops cred)

theorem writes_doAuth (code : ℕ) (hnonce : s.nonce = []) (hchallenge : s.challenge.nonce ≠ [])
    (method uri : Str) (body : AmMimeBody) (random : BitVec 32) :
    Writes s s.challenge.counted (s.doAuth ops cred code method uri body random).1 := by
  have hcount : s.nextCount = 1 := if_neg (hnonce ▸ hchallenge)
  rw [doAuth, UACAuthDigestChallenge.counted]
  by_cases hunsupported : s.challenge.unsupported = true
  · rw [if_pos hunsupported, if_pos (.inl hunsupported)]
    exact writes_none hnonce
  · rw [if_neg hunsupported, countUse]
    by_cases hqop : s.challenge.qopValue = []
    · rw [if_pos (.inr hqop), if_pos hqop]
      exact writes_none hnonce
    · rw [if_neg (not_or.2 ⟨hunsupported, hqop⟩), if_neg hqop, hcount]
      exact ⟨rfl, hnonce⟩

/-- Sending writes a header if the nonce is used again. -/
theorem writes_onSendRequest (hnonce : s.nonce = []) (req : AuthRequest) (noAuth : Bool)
    (remoteUri : Str) (random : BitVec 32) (root : ℕ) (answers : Option AuthKind) :
    Writes s (if noAuth = true ∨ s.challenge.nonce = [] then none else s.challenge.counted)
      (s.onSendRequest ops cred req noAuth remoteUri random root answers).1 := by
  rw [onSendRequest]
  by_cases hnone : noAuth = true ∨ s.challenge.nonce = []
  · rw [if_pos hnone, if_pos hnone]
    exact writes_none hnonce
  · rw [if_neg hnone, if_neg hnone]
    have hdo := writes_doAuth ops cred s.challengeCode hnonce (not_or.1 hnone).2 req.method
      remoteUri req.body random
    generalize s.doAuth ops cred s.challengeCode req.method remoteUri req.body random = res at hdo ⊢
    obtain ⟨s', result⟩ := res
    cases result with
    | none | some result => exact hdo

theorem writes_resend (hnonce : s.nonce = []) (ri : SentRequest) (kind : AuthKind)
    (hdrs remoteUri : Str) (random : BitVec 32) (env : ResendEnv) :
    Writes s none (s.resend ops cred ri kind hdrs remoteUri random env) := by
  rw [resend]
  split
  · exact writes_none hnonce
  · have hsend := writes_onSendRequest ops cred hnonce
      ⟨{ method := ri.method, body := ri.body, hdrs := env.amend hdrs, rUri := remoteUri },
        env.cseq⟩ true remoteUri random ri.root (some kind)
    rw [if_pos (.inl rfl)] at hsend
    dsimp only
    generalize s.onSendRequest ops cred _ true remoteUri random ri.root (some kind) = res
      at hsend ⊢
    obtain ⟨s', attempt⟩ := res
    dsimp only
    split_ifs
    · exact hsend
    · exact hsend

theorem nonce_ne_nil_of_parseHeader (authHdr : Str) (challenge : UACAuthDigestChallenge)
    (h : (parseHeader authHdr challenge).1 = true) :
    (parseHeader authHdr challenge).2.nonce ≠ [] := by
  rw [parseHeader] at h ⊢
  dsimp only at h ⊢
  split_ifs at h ⊢
  exact (of_decide_eq_true h).2

theorem writes_doAuthHdr (code : ℕ) (hnonce : s.nonce = []) (authHdr method uri : Str)
    (body : AmMimeBody) (random : BitVec 32) :
    Writes s (if authHdr = [] ∨ (parseHeader authHdr s.challenge).1 = false then none
      else (parseHeader authHdr s.challenge).2.counted)
      (s.doAuthHdr ops cred code authHdr method uri body random).1 := by
  rw [doAuthHdr]
  by_cases hempty : authHdr = []
  · rw [if_pos hempty, if_pos (.inl hempty)]
    exact writes_none hnonce
  · rw [if_neg hempty]
    have hparse := nonce_ne_nil_of_parseHeader authHdr s.challenge
    generalize parseHeader authHdr s.challenge = res at hparse ⊢
    obtain ⟨usable, challenge⟩ := res
    cases usable with
    | false =>
      rw [if_pos (.inr rfl)]
      exact writes_none hnonce
    | true =>
      rw [if_neg (not_or.2 ⟨hempty, Bool.noConfusion⟩)]
      exact writes_doAuth ops cred code (s := { s with challenge, challengeCode := code }) hnonce
        (hparse rfl) method uri body random

/-- A challenge writes a header if it is answered. -/
theorem writes_answerChallenge (hnonce : s.nonce = []) (ri : SentRequest) (code : ℕ)
    (authHdr remoteUri : Str) (random : BitVec 32) (env : ResendEnv) :
    Writes s (if authHdr = [] ∨ (parseHeader authHdr s.challenge).1 = false then none
      else (parseHeader authHdr s.challenge).2.counted)
      (s.answerChallenge ops cred ri code authHdr remoteUri random env) := by
  have hdo := writes_doAuthHdr ops cred (s := { s with nonceReuse := false }) code hnonce authHdr
    ri.method (if ri.rUri = [] then remoteUri else ri.rUri) ri.body random
  rw [answerChallenge]
  dsimp only at hdo ⊢
  generalize doAuthHdr ops cred _ code authHdr ri.method _ ri.body random = res at hdo ⊢
  obtain ⟨s', result⟩ := res
  cases result with
  | none => exact hdo
  | some result =>
    have hresend := writes_resend ops cred (s := s') hdo.2 ri (.ofCode code)
      (addHdr (removeHeader ri.hdrs (AuthKind.ofCode code).hdr) result) remoteUri random env
    refine ⟨?_, hresend.2⟩
    rw [hresend.1, hdo.1]
    exact List.append_nil _

theorem written_step (hnonce : s.nonce = []) (ev : AuthEv) :
    Writes s (s.countedNonce ev) (s.step ops cred ev) := by
  cases ev with
  | request req noAuth remoteUri random sent =>
    have hsend := writes_onSendRequest ops cred (s := { s with nextRoot := s.nextRoot + 1 }) hnonce
      req noAuth remoteUri random s.nextRoot none
    rw [step, sendRequest, countedNonce]
    dsimp only at hsend ⊢
    generalize onSendRequest ops cred _ req noAuth remoteUri random s.nextRoot none = res
      at hsend ⊢
    obtain ⟨s', attempt⟩ := res
    dsimp only
    split_ifs at hsend ⊢ <;> exact hsend
  | reply reply remoteUri random env =>
    rw [step, onSipReply, countedNonce]
    split_ifs with hchallenge hfinal
    · cases hfind : s.sentRequests.find? reply.cseq with
      | none => exact writes_none hnonce
      | some ri =>
        dsimp only [Option.bind_some]
        rw [onChallenge]
        by_cases hfailed : s.authFailed ri (.ofCode reply.code) = true
        · rw [if_pos (.inl hfailed), if_pos hfailed]
          exact writes_none hnonce
        · simp only [hfailed, Bool.false_eq_true, false_or, if_false]
          exact writes_answerChallenge ops cred (s := s.note _) hnonce ri reply.code _ remoteUri
            random env
    · exact writes_none hnonce
    · exact writes_none hnonce

/-- A count of 1 is right for a nonce that was not used. -/
theorem countsOk_concat {written : List (Str × BitVec 32)} {nonce : Option Str} :
    CountsOk (written ++ countOne nonce) ↔
      CountsOk written ∧ ∀ n, nonce = some n → n ∉ written.map Prod.fst := by
  cases nonce with
  | none => simp [countOne]
  | some n =>
    show CountsOk (written ++ [(n, 1)]) ↔ _
    rw [CountsOk, logged_concat]
    refine and_congr_right fun _ => ?_
    constructor
    · rintro h n' hn
      obtain rfl := Option.some.inj hn
      exact List.count_eq_zero.1 (Nat.succ.inj h).symm
    · intro h
      exact congrArg (· + 1) (List.count_eq_zero.2 (h n rfl)).symm

/-- The counts of a run are right if and only if no header is written for a nonce that was used. -/
theorem countsOk_runFrom : ∀ (evs : List AuthEv) {s : UACAuth}, s.nonce = [] →
    (CountsOk (runFrom (step ops cred) s evs).written ↔
      CountsOk s.written ∧ RunOk (step ops cred) FreshNonce s evs)
  | [], s, _ => (and_iff_left trivial).symm
  | ev :: evs, s, hnonce => by
    obtain ⟨hwritten, hnonce'⟩ := written_step ops cred hnonce ev
    have hstep : CountsOk (s.step ops cred ev).written ↔ CountsOk s.written ∧ FreshNonce s ev := by
      rw [hwritten]
      exact countsOk_concat
    calc CountsOk (runFrom (step ops cred) (s.step ops cred ev) evs).written
        ↔ CountsOk (s.step ops cred ev).written ∧ RunOk (step ops cred) FreshNonce _ evs :=
          countsOk_runFrom evs hnonce'
      _ ↔ (CountsOk s.written ∧ FreshNonce s ev) ∧ RunOk (step ops cred) FreshNonce _ evs := by
          rw [hstep]
      _ ↔ _ := and_assoc

theorem countsOk_run_iff (challengeCode : ℕ) (evs : List AuthEv) :
    CountsOk (run ops cred challengeCode evs).written ↔
      RunOk (step ops cred) FreshNonce (init challengeCode) evs := by
  have hnil : CountsOk (init challengeCode).written := logged_nil
  exact (countsOk_runFrom ops cred evs rfl).trans (and_iff_right hnil)

/-! ## A nonce that is used twice -/

/-- The answer to a challenge and the next request have the same nonce and the same count. -/
theorem run_sameCount :
    ¬ CountsOk (run nullOps nullCred 0 [plainRequest "INVITE".toList 10, challengeTo 10 11,
      plainRequest "INFO".toList 12]).written := by
  have hwritten : (run nullOps nullCred 0 [plainRequest "INVITE".toList 10, challengeTo 10 11,
      plainRequest "INFO".toList 12]).written = [("n".toList, 1)] ++ [("n".toList, 1)] := by
    decide +kernel
  rw [hwritten, CountsOk, logged_concat]
  intro h
  exact absurd h.2 (by decide)

end UACAuth

end Sems
