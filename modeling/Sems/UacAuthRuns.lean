import Sems.UacAuthHeaders
import Sems.Logs
import Sems.Runs

/-!
# Client authentication over runs

`RetriesOk` is what the handler is to keep of the requests it sends again : a request that answers
a challenge is not sent again for the same code, one whose nonce was used again is sent again once,
and a request of the application leads to at most two requests with a header for a code.

The flag `nonceReuse` is that of the last request sent, so with two requests in flight an answer is
sent again and a request with an old nonce is not (`run_flagOfOther`). `run_retriesOk` is the main
result, for the runs where the flag is that of the challenged request and the texts are lines.
-/

namespace Sems

open List Function

namespace UACAuth

open AuthLog

/-! ## What the handler keeps -/

/-- An answer to a challenge is sent right after it, for a request that was not itself an answer to
one of this kind. -/
def AnswersOnce (pre : List AuthLog) (entry : AuthLog) : Prop :=
  ∀ root kind, entry = sent root (.answer kind) → ∃ before attempt answerable,
    pre = before ++ [challenged root attempt kind answerable] ∧ attempt ≠ .answer kind

/-- A request whose nonce was used again is sent again when it is challenged. -/
def Retried (log : List AuthLog) : Prop :=
  ∀ pre root kind' kind post, log = pre ++ challenged root (.reused kind') kind true :: post →
    ∃ post', post = sent root (.answer kind) :: post'

structure RetriesOk (log : List AuthLog) : Prop where
  notAgain : Logged AnswersOnce log
  retried : Retried log
  once : ∀ root kind, log.count (sent root (.answer kind)) ≤ 1
  atMostTwo : ∀ root kind,
    log.count (sent root (.answer kind)) + log.count (sent root (.reused kind)) ≤ 2

/-- What the other handlers do to the headers : they leave lines and the authorization headers. -/
def KeepsHdrs (amend : Str → Str) : Prop :=
  ∀ hdrs, AuthHdrs hdrs → AuthHdrs (amend hdrs) ∧
    ∀ kind, hasHdr hdrs kind → hasHdr (amend hdrs) kind

/-- The flag is that of the challenged request, if this has the header and the handler wrote one. -/
structure FlagOk (s : UACAuth) (ri : SentRequest) (kind : AuthKind) : Prop where
  reused : hasHdr ri.hdrs kind → ∀ kind', ri.attempt = .reused kind' → s.nonceReuse = true
  answer : hasHdr ri.hdrs kind → ∀ kind', ri.attempt = .answer kind' → s.nonceReuse = false

/-- The condition on a step. -/
def StepOk (s : UACAuth) : AuthEv → Prop
  | .request req _ remoteUri _ _ => AuthHdrs req.hdrs ∧ PlainLine req.rUri ∧ PlainLine remoteUri
  | .reply reply remoteUri _ env => PlainLine remoteUri ∧ KeepsHdrs env.amend ∧
    ∀ ri, s.sentRequests.find? reply.cseq = some ri → FlagOk s ri (.ofCode reply.code)

/-! ## The log -/

variable {log : List AuthLog} {root n : ℕ} {attempt : AuthAttempt} {kind : AuthKind}
  {answerable : Bool}

theorem Retried.append {new : List AuthLog} (h : Retried log) (hnew : Retried new) :
    Retried (log ++ new) := by
  intro pre root kind' kind post hsplit
  rcases append_eq_append_cons hsplit with ⟨post', hlog, rfl⟩ | ⟨pre', -, hpost⟩
  · obtain ⟨post'', rfl⟩ := h pre root kind' kind post' hlog
    exact ⟨post'' ++ new, rfl⟩
  · exact hnew pre' root kind' kind post hpost

theorem retried_sent : Retried [sent root attempt] := by
  intro pre r k' k post hsplit
  have hmem : challenged r (.reused k') k true ∈ [sent root attempt] := hsplit ▸ by simp
  simp at hmem

theorem retried_challenged (h : ∀ kind', attempt = .reused kind' → answerable = false) :
    Retried [challenged root attempt kind answerable] := by
  intro pre r k' k post hsplit
  have hmem : challenged r (.reused k') k true ∈ [challenged root attempt kind answerable] :=
    hsplit ▸ by simp
  simp only [mem_singleton, challenged.injEq] at hmem
  have := h k' hmem.2.1.symm
  rw [← hmem.2.2.2] at this
  cases this

theorem retried_answered :
    Retried [challenged root attempt kind answerable, sent root (.answer kind)] := by
  intro pre r k' k post hsplit
  cases pre with
  | nil =>
    obtain ⟨hhead, rfl⟩ := List.cons.inj hsplit
    obtain ⟨rfl, -, rfl, -⟩ := challenged.inj hhead
    exact ⟨[], rfl⟩
  | cons e pre =>
    have htail := (List.cons.inj hsplit).2
    have hmem : challenged r (.reused k') k true ∈ [sent root (.answer kind)] := htail ▸ by simp
    simp at hmem

/-- The log after `n` requests of the application. -/
structure LogOk (log : List AuthLog) (n : ℕ) : Prop where
  retriesOk : RetriesOk log
  reusedOnce : ∀ root kind, log.count (sent root (.reused kind)) ≤ 1
  numbered : ∀ root attempt, sent root attempt ∈ log → root < n

theorem logOk_nil : LogOk [] 0 where
  retriesOk := ⟨logged_nil, by intro pre r k' k post h; simp at h, by simp, by simp⟩
  reusedOnce := by simp
  numbered := by simp

/-- The counts of the two kinds of requests with a header. -/
theorem LogOk.of_counts (hagain : Logged AnswersOnce log) (hretried : Retried log)
    (honce : ∀ root kind, log.count (sent root (.answer kind)) ≤ 1)
    (hreused : ∀ root kind, log.count (sent root (.reused kind)) ≤ 1)
    (hnumbered : ∀ root attempt, sent root attempt ∈ log → root < n) : LogOk log n where
  retriesOk := ⟨hagain, hretried, honce, fun root kind =>
    Nat.add_le_add (honce root kind) (hreused root kind)⟩
  reusedOnce := hreused
  numbered := hnumbered

/-- An entry that is not there yet is counted once. -/
theorem count_concat_le_one {e e' : AuthLog} (h : log.count e' ≤ 1) (hnew : e = e' → e' ∉ log) :
    (log ++ [e]).count e' ≤ 1 := by
  rw [count_append]
  by_cases heq : e = e'
  · rw [count_eq_zero.2 (hnew heq), Nat.zero_add]
    exact count_le_length
  · rwa [count_singleton, beq_eq_false_iff_ne.2 heq]

/-- A request of the application goes out. -/
theorem LogOk.request (h : LogOk log n) (hattempt : ∀ kind, attempt ≠ .answer kind) :
    LogOk (log ++ [sent n attempt]) (n + 1) := by
  refine LogOk.of_counts ?_ (h.retriesOk.retried.append retried_sent) ?_ ?_ ?_
  · refine logged_concat.2 ⟨h.retriesOk.notAgain, fun root kind hentry => ?_⟩
    exact absurd (sent.inj hentry).2 (hattempt kind)
  · refine fun root kind => count_concat_le_one (h.retriesOk.once root kind) fun heq => ?_
    exact absurd (sent.inj heq).2 (hattempt kind)
  · refine fun root kind => count_concat_le_one (h.reusedOnce root kind) fun heq hmem => ?_
    exact (h.numbered root _ hmem).ne (sent.inj heq).1.symm
  · intro root attempt' hmem
    rcases mem_append.1 hmem with hmem | hmem
    · exact Nat.lt_succ_of_lt (h.numbered root attempt' hmem)
    · rw [(sent.inj (mem_singleton.1 hmem)).1]
      exact Nat.lt_succ_self n

theorem LogOk.mono (h : LogOk log n) : LogOk log (n + 1) :=
  ⟨h.retriesOk, h.reusedOnce, fun root attempt hmem =>
    Nat.lt_succ_of_lt (h.numbered root attempt hmem)⟩

/-- A challenge is not answered. -/
theorem LogOk.challenge (h : LogOk log n)
    (hattempt : ∀ kind', attempt = .reused kind' → answerable = false) :
    LogOk (log ++ [challenged root attempt kind answerable]) n := by
  refine LogOk.of_counts ?_ (h.retriesOk.retried.append (retried_challenged hattempt)) ?_ ?_ ?_
  · exact logged_concat.2 ⟨h.retriesOk.notAgain, nofun⟩
  · exact fun root' kind' => count_concat_le_one (h.retriesOk.once root' kind') nofun
  · exact fun root' kind' => count_concat_le_one (h.reusedOnce root' kind') nofun
  · intro root' attempt' hmem
    refine h.numbered root' attempt' ?_
    simpa using hmem

/-- A challenge is answered, for the first time. -/
theorem LogOk.answer (h : LogOk log n) (hroot : root < n) (hattempt : attempt ≠ .answer kind)
    (hfirst : sent root (.answer kind) ∉ log) :
    LogOk (log ++ [challenged root attempt kind answerable] ++ [sent root (.answer kind)]) n := by
  refine LogOk.of_counts ?_ ?_ ?_ ?_ ?_
  · refine logged_concat.2 ⟨logged_concat.2 ⟨h.retriesOk.notAgain, nofun⟩, ?_⟩
    intro root' kind' hentry
    obtain ⟨rfl, hkind⟩ := sent.inj hentry
    obtain rfl := AuthAttempt.answer.inj hkind
    exact ⟨log, attempt, answerable, rfl, hattempt⟩
  · rw [append_assoc]
    exact h.retriesOk.retried.append retried_answered
  · intro root' kind'
    refine count_concat_le_one (count_concat_le_one (h.retriesOk.once root' kind') nofun) ?_
    exact fun heq => heq ▸ by simpa using hfirst
  · intro root' kind'
    exact count_concat_le_one (count_concat_le_one (h.reusedOnce root' kind') nofun) nofun
  · intro root' attempt' hmem
    simp only [mem_append, mem_singleton, reduceCtorEq, or_false] at hmem
    rcases hmem with hmem | hmem
    · exact h.numbered root' attempt' hmem
    · rw [(sent.inj hmem).1]
      exact hroot

/-! ## The requests -/

variable {ops : DigestOps} {cred : UACAuthCred} {s : UACAuth} {code : ℕ} {ri : SentRequest}
  {random : BitVec 32} {remoteUri : Str}

/-- What is kept of a request that waits for its reply. If a challenge of a kind was answered for
it, it has the header and is an answer. -/
structure EntryOk (log : List AuthLog) (n : ℕ) (ri : SentRequest) : Prop where
  hdrs : AuthHdrs ri.hdrs
  uri : PlainLine ri.rUri
  root : ri.root < n
  answered : ∀ kind, ri.attempt = .answer kind ∨ sent ri.root (.answer kind) ∈ log →
    hasHdr ri.hdrs kind ∧ ∃ kind', ri.attempt = .answer kind'

structure Inv (s : UACAuth) : Prop where
  challenge : PlainChallenge s.challenge
  logOk : LogOk s.log s.nextRoot
  entry : ∀ cseq ri, s.sentRequests.find? cseq = some ri → EntryOk s.log s.nextRoot ri
  unique : ∀ cseq cseq' ri ri', s.sentRequests.find? cseq = some ri →
    s.sentRequests.find? cseq' = some ri' → ri.root = ri'.root → cseq = cseq'

theorem inv_init {challengeCode : ℕ} : Inv (init challengeCode) where
  challenge := ⟨plainLine_nil, plainLine_nil, plainLine_nil⟩
  logOk := logOk_nil
  entry := fun _ _ h => by cases h
  unique := fun _ _ _ _ h => by cases h

/-- More entries in the log that are not answers for the application's request. -/
theorem EntryOk.mono {log' : List AuthLog} {n' : ℕ} (h : EntryOk log n ri) (hn : n ≤ n')
    (hlog : ∀ kind, sent ri.root (.answer kind) ∈ log' → sent ri.root (.answer kind) ∈ log) :
    EntryOk log' n' ri :=
  ⟨h.hdrs, h.uri, lt_of_lt_of_le h.root hn, fun kind hk =>
    h.answered kind (hk.imp_right (hlog kind))⟩

/-- A request is taken out. -/
theorem Inv.eraseRequest (h : Inv s) (cseq : ℕ) : Inv (s.eraseRequest cseq) := by
  have hfind : ∀ {c ri}, (s.sentRequests.erase cseq).find? c = some ri →
      s.sentRequests.find? c = some ri := by
    intro c ri hc
    rw [OrdMap.find?_erase_eq, update_apply] at hc
    split_ifs at hc
    exact hc
  exact ⟨h.challenge, h.logOk, fun c ri hc => h.entry c ri (hfind hc),
    fun c c' ri ri' hc hc' => h.unique c c' ri ri' (hfind hc) (hfind hc')⟩

theorem countUse_frame (s : UACAuth) :
    ∃ c w, s.countUse = { s with nonceCount := c, written := w } := by
  rw [countUse]
  split_ifs
  · exact ⟨_, _, rfl⟩
  · exact ⟨_, _, rfl⟩

/-- `doAuth` changes the count only, and gives a header if the algorithm is supported. -/
theorem doAuth_cases (ops : DigestOps) (cred : UACAuthCred) (s : UACAuth) (code : ℕ)
    (method uri : Str) (body : AmMimeBody) (random : BitVec 32) :
    s.challenge.unsupported = true ∧
        s.doAuth ops cred code method uri body random = (s, none) ∨
      s.challenge.unsupported = false ∧ ∃ c w l,
        s.doAuth ops cred code method uri body random =
            ({ s with nonceCount := c, written := w }, some (l ++ CRLF)) ∧
          (PlainLine cred.user → PlainChallenge s.challenge → PlainLine uri →
            AuthLine (.ofCode code) l) := by
  rw [doAuth]
  cases hunsupported : s.challenge.unsupported with
  | true => exact .inl ⟨rfl, rfl⟩
  | false =>
    obtain ⟨c, w, hframe⟩ := countUse_frame s
    refine .inr ⟨rfl, c, w, _, by rw [if_neg Bool.false_ne_true, hframe], ?_⟩
    intro hcred hchallenge huri
    have hcnonce : PlainLine (if s.challenge.qopValue = [] then [] else int2hex random) := by
      split_ifs
      · exact plainLine_nil
      · exact plainLine_int2hex _
    exact authLine_spec _ hcred hchallenge huri hcnonce (plainLine_qopValue _)
      (plainLine_cvtHex _) _

/-- `doAuthHdr` gives a header if the challenge can be used, and keeps the requests and the log. -/
theorem doAuthHdr_cases (ops : DigestOps) (hcred : PlainLine cred.user)
    (hchallenge : PlainChallenge s.challenge) (code : ℕ) {authHdr uri : Str}
    (hhdr : PlainLine authHdr) (huri : PlainLine uri) (method : Str) (body : AmMimeBody)
    (random : BitVec 32) :
    ∃ challenge challengeCode c w result,
      s.doAuthHdr ops cred code authHdr method uri body random =
          ({ s with challenge, challengeCode, nonceCount := c, written := w }, result) ∧
        PlainChallenge challenge ∧ result.isSome = s.usable authHdr ∧
        ∀ r, result = some r → ∃ l, r = l ++ CRLF ∧ AuthLine (.ofCode code) l := by
  have hparsed := plainChallenge_parseHeader hhdr hchallenge
  rw [doAuthHdr, usable]
  by_cases hempty : authHdr = []
  · refine ⟨_, _, _, _, none, if_pos hempty, hchallenge, ?_, nofun⟩
    simp [hempty]
  · rw [if_neg hempty]
    generalize parseHeader authHdr s.challenge = res at hparsed ⊢
    obtain ⟨usable, challenge⟩ := res
    cases usable with
    | false => exact ⟨_, _, _, _, none, rfl, hparsed, by simp, nofun⟩
    | true =>
      rcases doAuth_cases ops cred { s with challenge, challengeCode := code }
        code method uri body random with ⟨hunsupported, hdo⟩ | ⟨hunsupported, c, w, l, hdo, hline⟩
      · refine ⟨_, _, _, _, none, hdo, hparsed, ?_, nofun⟩
        simpa [hempty] using hunsupported
      · refine ⟨_, _, _, _, _, hdo, hparsed, ?_, fun r hr => ⟨l, (Option.some.inj hr).symm, ?_⟩⟩
        · simpa [hempty] using hunsupported
        · exact hline hcred hparsed huri

/-- The state after a challenge was noted and the flag, the saved challenge and the count were
set. -/
structure Noted (s : UACAuth) (entry : AuthLog) (s' : UACAuth) : Prop where
  challenge : PlainChallenge s'.challenge
  requests : s'.sentRequests = s.sentRequests
  nextRoot : s'.nextRoot = s.nextRoot
  log : s'.log = s.log ++ [entry]

variable {s' : UACAuth}

/-- A challenge that is not answered. -/
theorem Inv.noted (h : Inv s) (hnoted : Noted s (challenged root attempt kind answerable) s')
    (hattempt : ∀ kind', attempt = .reused kind' → answerable = false) : Inv s' := by
  refine ⟨hnoted.challenge, ?_, ?_, ?_⟩
  · rw [hnoted.log, hnoted.nextRoot]
    exact h.logOk.challenge hattempt
  · intro c ri' hc
    rw [hnoted.requests] at hc
    rw [hnoted.log, hnoted.nextRoot]
    exact (h.entry c ri' hc).mono le_rfl fun _ hmem => by simpa using hmem
  · rw [hnoted.requests]
    exact h.unique

variable {cseq : ℕ}

/-- One request more, of an application's request that no other is for. -/
theorem Inv.enter (h : Inv s) (cseq : ℕ) (ri' : SentRequest)
    (hchallenge : PlainChallenge s'.challenge)
    (hlog : LogOk s'.log s'.nextRoot) (hentry : EntryOk s'.log s'.nextRoot ri')
    (hn : s.nextRoot ≤ s'.nextRoot)
    (hother : ∀ root' kind', root' ≠ ri'.root → sent root' (.answer kind') ∈ s'.log →
      sent root' (.answer kind') ∈ s.log)
    (hcases : ∀ {c r}, s'.sentRequests.find? c = some r →
      c = cseq ∧ r = ri' ∨ s.sentRequests.find? c = some r ∧ r.root ≠ ri'.root) : Inv s' := by
  refine ⟨hchallenge, hlog, ?_, ?_⟩
  · intro c r hc
    rcases hcases hc with ⟨-, rfl⟩ | ⟨hc, hne⟩
    · exact hentry
    · exact (h.entry c r hc).mono hn fun kind' => hother r.root kind' hne
  · intro c c' r r' hc hc' hsame
    rcases hcases hc with ⟨rfl, rfl⟩ | ⟨hc, hne⟩ <;>
      rcases hcases hc' with ⟨rfl, rfl⟩ | ⟨hc', hne'⟩
    · rfl
    · exact absurd hsame.symm hne'
    · exact absurd hsame hne
    · exact h.unique c c' r r' hc hc' hsame

/-- A request with the header takes the place of the one that was challenged. -/
theorem Inv.replace (h : Inv s) (hfind : s.sentRequests.find? cseq = some ri) {l : Str}
    (hl : AuthLine kind l) {amend : Str → Str} (hamend : KeepsHdrs amend)
    (huri : PlainLine remoteUri) (hchallenge : PlainChallenge s'.challenge)
    (hn : s'.nextRoot = s.nextRoot) {cseq' : ℕ} {method : Str} {body : AmMimeBody}
    (hrequests : s'.sentRequests = s.sentRequests.insert cseq' ⟨⟨method, body,
      amend (addHdr (removeHeader ri.hdrs kind.hdr) (l ++ CRLF)), remoteUri⟩, ri.root,
        .answer kind⟩)
    (hlog : LogOk s'.log s.nextRoot)
    (hanswers : ∀ root' kind', sent root' (.answer kind') ∈ s'.log →
      root' = ri.root ∧ kind' = kind ∨ sent root' (.answer kind') ∈ s.log) :
    Inv (s'.eraseRequest cseq) := by
  have hentry := h.entry cseq ri hfind
  obtain ⟨hhdrs, hself, hkeep⟩ := hentry.hdrs.replace hl
  obtain ⟨hhdrs', hkeep'⟩ := hamend _ hhdrs
  refine h.enter cseq' ⟨⟨method, body, _, remoteUri⟩, ri.root, .answer kind⟩ hchallenge (hn ▸ hlog)
    ⟨hhdrs', huri, hn ▸ hentry.root, fun kind' hk => ?_⟩ hn.ge
    (fun root' kind' hne hmem => (hanswers root' kind' hmem).resolve_left fun hsame =>
      hne hsame.1) fun {c r} hc => ?_
  · refine ⟨hkeep' kind' ?_, kind, rfl⟩
    rcases hk with hk | hk
    · exact AuthAttempt.answer.inj hk ▸ hself
    · rcases hanswers _ kind' hk with ⟨-, rfl⟩ | hk
      · exact hself
      · exact hkeep kind' (hentry.answered kind' (.inr hk)).1
  · rw [UACAuth.eraseRequest, OrdMap.find?_erase_eq, hrequests, OrdMap.find?_insert_eq,
      update_apply] at hc
    split_ifs at hc with hcseq
    rw [update_apply] at hc
    split_ifs at hc with hnew
    · exact .inl ⟨hnew, (Option.some.inj hc).symm⟩
    · exact .inr ⟨hc, fun hsame => hcseq (h.unique _ _ _ _ hc hfind hsame)⟩

/-- A challenged request that is no failure was not answered for this kind before. -/
theorem not_answered (hentry : EntryOk log n ri) (hflag : FlagOk s ri kind)
    (hfailed : s.authFailed ri kind = false) :
    ¬ (ri.attempt = .answer kind ∨ sent ri.root (.answer kind) ∈ log) := by
  intro hanswered
  obtain ⟨hhas, kind', hattempt⟩ := hentry.answered kind hanswered
  have hfalse := hflag.answer hhas kind' hattempt
  simp only [authFailed, hfalse, Bool.not_false, Bool.true_and] at hfailed
  exact of_decide_eq_false hfailed hhas

/-- The request is sent again and takes the place of the one that was challenged. -/
theorem Inv.resend (h : Inv s) (hfind : s.sentRequests.find? cseq = some ri)
    (hnew : ¬ (ri.attempt = .answer kind ∨ sent ri.root (.answer kind) ∈ s.log)) {l : Str}
    (hl : AuthLine kind l) (huri : PlainLine remoteUri) {env : ResendEnv}
    (hamend : KeepsHdrs env.amend)
    (hnoted : Noted s (challenged ri.root ri.attempt kind (env.outcome == .sent)) s') :
    Inv ((s'.resend ops cred ri kind (addHdr (removeHeader ri.hdrs kind.hdr) (l ++ CRLF)) remoteUri
      random env).eraseRequest cseq) := by
  have hlog := hnoted.log
  rw [UACAuth.resend]
  cases houtcome : env.outcome with
  | refused =>
    rw [houtcome] at hnoted
    exact (h.noted hnoted fun _ _ => rfl).eraseRequest cseq
  | failed =>
    rw [houtcome] at hlog
    refine h.replace hfind hl hamend huri hnoted.challenge hnoted.nextRoot
      (congrArg (OrdMap.insert · _ _) hnoted.requests) ?_ fun root' kind' hmem => ?_
    · exact hlog ▸ h.logOk.challenge fun _ _ => rfl
    · replace hmem : sent root' (.answer kind') ∈ s'.log := hmem
      rw [hlog] at hmem
      exact .inr (by simpa using hmem)
  | sent =>
    obtain ⟨hattempt, hfirst⟩ := not_or.1 hnew
    refine h.replace hfind hl hamend huri hnoted.challenge hnoted.nextRoot
      (congrArg (OrdMap.insert · _ _) hnoted.requests) ?_ fun root' kind' hmem => ?_
    · show LogOk (s'.log ++ [sent ri.root (.answer kind)]) s.nextRoot
      exact hlog ▸ h.logOk.answer (h.entry cseq ri hfind).root hattempt hfirst
    · replace hmem : sent root' (.answer kind') ∈ s'.log ++ [sent ri.root (.answer kind)] := hmem
      rw [hlog] at hmem
      simp only [mem_append, mem_singleton, reduceCtorEq, or_false, sent.injEq,
        AuthAttempt.answer.injEq] at hmem
      exact hmem.symm

/-! ## The steps -/

theorem Inv.onChallenge (hcred : PlainLine cred.user) (h : Inv s) {reply : AuthReply}
    (hfind : s.sentRequests.find? reply.cseq = some ri)
    (hflag : FlagOk s ri (.ofCode reply.code)) (huri : PlainLine remoteUri) {env : ResendEnv}
    (hamend : KeepsHdrs env.amend) :
    Inv ((s.onChallenge ops cred ri reply remoteUri random env).eraseRequest reply.cseq) := by
  have hentry := h.entry _ _ hfind
  rw [UACAuth.onChallenge]
  cases hfailed : s.authFailed ri (.ofCode reply.code) with
  | true =>
    -- a request with a reused nonce is not taken for a failure
    refine Inv.eraseRequest ?_ _
    refine h.noted ⟨h.challenge, rfl, rfl, rfl⟩ fun kind' hreused => ?_
    simp only [authFailed, Bool.and_eq_true, Bool.not_eq_true', decide_eq_true_eq] at hfailed
    have htrue := hflag.reused hfailed.2 kind' hreused
    rw [hfailed.1] at htrue
    cases htrue
  | false =>
    rw [if_neg Bool.false_ne_true, answerChallenge]
    have hauthUri : PlainLine (if ri.rUri = [] then remoteUri else ri.rUri) := by
      split_ifs
      · exact huri
      · exact hentry.uri
    obtain ⟨challenge, challengeCode, c, w, result, hdo, hchallenge, husable, hline⟩ :=
      doAuthHdr_cases ops (s := { s.note (challenged ri.root ri.attempt
        (.ofCode reply.code) (s.usable (getHeaderSingle reply.hdrs
          (AuthKind.ofCode reply.code).challengeHdr) && env.outcome == .sent)) with
        nonceReuse := false }) hcred h.challenge reply.code
        plainLine_getHeaderSingle hauthUri
        ri.method ri.body random
    have husable' : result.isSome = s.usable (getHeaderSingle reply.hdrs
      (AuthKind.ofCode reply.code).challengeHdr) := husable
    rw [hdo]
    cases result with
    | none =>
      refine Inv.eraseRequest ?_ _
      refine h.noted ⟨hchallenge, rfl, rfl, rfl⟩ fun _ _ => ?_
      rw [← husable']
      rfl
    | some result =>
      obtain ⟨l, rfl, hl⟩ := hline result rfl
      refine h.resend hfind (not_answered hentry hflag hfailed) hl huri hamend
        ⟨hchallenge, rfl, rfl, ?_⟩
      rw [← husable']
      rfl

/-- A new request takes its place. -/
theorem Inv.insert {ri' : SentRequest} (h : Inv s) (hchallenge : s'.challenge = s.challenge)
    (hn : s'.nextRoot = s.nextRoot + 1)
    (hrequests : s'.sentRequests = s.sentRequests.insert cseq ri')
    (hlog : s'.log = s.log ∨ s'.log = s.log ++ [sent s.nextRoot ri'.attempt])
    (hroot : ri'.root = s.nextRoot) (hattempt : ∀ kind, ri'.attempt ≠ .answer kind)
    (hhdrs : AuthHdrs ri'.hdrs) (huri : PlainLine ri'.rUri) : Inv s' := by
  have hanswers : ∀ root' kind', sent root' (.answer kind') ∈ s'.log →
      sent root' (.answer kind') ∈ s.log := by
    intro root' kind' hmem
    rcases hlog with hlog | hlog
    · rwa [hlog] at hmem
    · rw [hlog] at hmem
      rcases mem_append.1 hmem with hmem | hmem
      · exact hmem
      · exact absurd (sent.inj (mem_singleton.1 hmem)).2.symm (hattempt kind')
  refine h.enter cseq ri' (hchallenge ▸ h.challenge) ?_ ?_ (hn ▸ Nat.le_succ _)
    (fun root' kind' _ => hanswers root' kind') fun {c r} hc => ?_
  · rw [hn]
    rcases hlog with hlog | hlog
    · exact hlog ▸ h.logOk.mono
    · exact hlog ▸ h.logOk.request hattempt
  · refine ⟨hhdrs, huri, by rw [hroot, hn]; exact Nat.lt_succ_self _, fun kind hk => ?_⟩
    rcases hk with hk | hk
    · exact absurd hk (hattempt kind)
    · exact absurd (h.logOk.numbered _ _ (hanswers _ _ hk)) (hroot ▸ lt_irrefl _)
  · rw [hrequests, OrdMap.find?_insert_eq, update_apply] at hc
    split_ifs at hc with hnew
    · exact .inl ⟨hnew, (Option.some.inj hc).symm⟩
    · exact .inr ⟨hc, hroot ▸ (h.entry c r hc).root.ne⟩

/-- A request of the application. -/
theorem Inv.sendRequest (hcred : PlainLine cred.user) (h : Inv s) {req : AuthRequest}
    (hhdrs : AuthHdrs req.hdrs) (hrUri : PlainLine req.rUri) (huri : PlainLine remoteUri)
    (noAuth sent : Bool) : Inv (s.sendRequest ops cred req noAuth remoteUri random sent) := by
  rw [UACAuth.sendRequest, onSendRequest]
  rcases doAuth_cases ops cred { s with nextRoot := s.nextRoot + 1 } s.challengeCode req.method
    remoteUri req.body random with ⟨-, hdo⟩ | ⟨-, c, w, l, hdo, hline⟩
  · rw [hdo, ite_self]
    split_ifs
    · exact h.insert rfl rfl rfl (.inr rfl) rfl nofun hhdrs hrUri
    · exact h.insert rfl rfl rfl (.inl rfl) rfl nofun hhdrs hrUri
  · have hhdrs' := hhdrs.add (hline hcred h.challenge huri)
    rw [hdo]
    split_ifs
    · exact h.insert rfl rfl rfl (.inr rfl) rfl nofun hhdrs hrUri
    · exact h.insert rfl rfl rfl (.inl rfl) rfl nofun hhdrs hrUri
    · exact h.insert rfl rfl rfl (.inr rfl) rfl nofun hhdrs' hrUri
    · exact h.insert rfl rfl rfl (.inl rfl) rfl nofun hhdrs' hrUri

theorem Inv.step (hcred : PlainLine cred.user) (h : Inv s) {ev : AuthEv} (hok : StepOk s ev) :
    Inv (s.step ops cred ev) := by
  cases ev with
  | request req noAuth remoteUri random sent =>
    exact h.sendRequest hcred hok.1 hok.2.1 hok.2.2 noAuth sent
  | reply reply remoteUri random env =>
    obtain ⟨huri, hamend, hflag⟩ := hok
    rw [UACAuth.step, onSipReply]
    split_ifs
    · cases hfind : s.sentRequests.find? reply.cseq with
      | none => exact h
      | some ri => exact h.onChallenge hcred hfind (hflag ri hfind) huri hamend
    · exact h.eraseRequest reply.cseq
    · exact h

/-! ## The runs -/

/-- The requests are sent again as they should be, if the flag is that of the challenged request and
the texts are lines. -/
theorem run_retriesOk (ops : DigestOps) (cred : UACAuthCred) (hcred : PlainLine cred.user)
    (challengeCode : ℕ) (evs : List AuthEv)
    (hok : RunOk (step ops cred) StepOk (init challengeCode) evs) :
    RetriesOk (run ops cred challengeCode evs).log := by
  have hinv := hok.inv (fun h hstep => h.step hcred hstep) inv_init
  exact hinv.logOk.retriesOk

/-! ## Runs with two requests -/

theorem stepOk_plainRequest (method : Str) (cseq : ℕ) : StepOk s (plainRequest method cseq) := by
  have huri : PlainLine "sip:b".toList := by decide
  exact ⟨⟨[], rfl, ⟨nofun, nofun⟩⟩, huri, huri⟩

/-- The flag is that of the request, which was sent for the reason `attempt`. -/
theorem stepOk_challengeTo (next : ℕ) (attempt : AuthAttempt)
    (hattempt : (s.sentRequests.find? cseq).map SentRequest.attempt = some attempt)
    (hreused : ∀ kind, attempt = .reused kind → s.nonceReuse = true)
    (hanswer : ∀ kind, attempt = .answer kind → s.nonceReuse = false) :
    StepOk s (challengeTo cseq next) := by
  refine ⟨by decide, fun hdrs h => ⟨h, fun _ => id⟩, fun ri hri => ?_⟩
  rw [hri, Option.map_some, Option.some_inj] at hattempt
  exact ⟨fun _ kind h => hreused kind (hattempt ▸ h), fun _ kind h => hanswer kind (hattempt ▸ h)⟩

/-- A request, and one with the nonce used again that is challenged twice. -/
def twoRequests : List AuthEv :=
  [plainRequest "INVITE".toList 10, challengeTo 10 11, plainRequest "INFO".toList 12,
    challengeTo 12 13, challengeTo 13 14]

theorem run_retriesOk_twoRequests :
    PlainLine nullCred.user ∧ RunOk (step nullOps nullCred) StepOk (init 0) twoRequests ∧
      RetriesOk (run nullOps nullCred 0 twoRequests).log ∧
      (run nullOps nullCred 0 twoRequests).log = [sent 0 .plain, challenged 0 .plain .www true,
        sent 0 (.answer .www), sent 1 (.reused .www), challenged 1 (.reused .www) .www true,
        sent 1 (.answer .www), challenged 1 (.answer .www) .www true] := by
  have hok : RunOk (step nullOps nullCred) StepOk (init 0) twoRequests := by
    refine ⟨stepOk_plainRequest _ _, stepOk_challengeTo 11 .plain ?_ nofun nofun,
      stepOk_plainRequest _ _, stepOk_challengeTo 13 (.reused .www) ?_ ?_ nofun,
      stepOk_challengeTo 14 (.answer .www) ?_ nofun ?_, trivial⟩
    · decide +kernel
    · decide +kernel
    · exact fun _ _ => by decide +kernel
    · decide +kernel
    · exact fun _ _ => by decide +kernel
  exact ⟨by decide, hok, run_retriesOk nullOps nullCred (by decide) 0 twoRequests hok,
    by decide +kernel⟩

/-- While the answer of one request waits for its reply, another one uses the nonce again. The
answer is then sent again, and the other one is not. -/
theorem run_flagOfOther :
    ¬ RetriesOk (run nullOps nullCred 0 [plainRequest "INVITE".toList 10, challengeTo 10 11,
      plainRequest "INFO".toList 12, challengeTo 11 13, challengeTo 12 14]).log := by
  intro h
  have hlog : (run nullOps nullCred 0 [plainRequest "INVITE".toList 10, challengeTo 10 11,
      plainRequest "INFO".toList 12, challengeTo 11 13, challengeTo 12 14]).log =
      [sent 0 .plain, challenged 0 .plain .www true, sent 0 (.answer .www), sent 1 (.reused .www),
        challenged 0 (.answer .www) .www true, sent 0 (.answer .www)] ++
      challenged 1 (.reused .www) .www true :: [] := by
    decide +kernel
  obtain ⟨post, hpost⟩ := h.retried _ _ _ _ _ hlog
  cases hpost

end UACAuth

end Sems
