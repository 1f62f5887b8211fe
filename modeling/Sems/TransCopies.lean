import Sems.TransServerRuns

/-!
# Copies of a request

A request that is received again finds the transaction of the first copy, so there is one for it,
and it is handed to the UA once (`ServerTable.copies_once`).

The search and the new transaction belong to one step, except for a PRACK : when its thread comes
back to add the transaction, it does not search again. Where another copy was faster, there are
two transactions (`ServerTable.CopiesOk`).
-/

namespace Sems

open List

/-! ## Copies -/

/-- What the copies of a request share : the method, the branch and the sent-by of the Via, the
Call-ID and the CSeq. -/
structure RequestKey where
  method : ReqMethod
  branch : Str
  host : Str
  port : Str
  callid : Str
  cseqNumStr : Str
  deriving DecidableEq

def TransMsg.key (msg : TransMsg) : RequestKey :=
  ⟨msg.method, msg.branch, msg.host, msg.port, msg.callid, msg.cseqNumStr⟩

/-- `msg` is a copy of `m`. Without the cookie in the branch, the key does not identify a
request. -/
structure TransMsg.CopyOf (msg m : TransMsg) : Prop where
  key : msg.key = m.key
  rest : msg.hasCookie = false →
    msg.fromTag = m.fromTag ∧ msg.toTag = m.toTag ∧ msg.ruriStr = m.ruriStr

/-- What `match_request` compares, for a request that is not an ACK. -/
def TransMsg.sameRequest (msg m : TransMsg) : Bool :=
  msg.method == m.method &&
    if msg.hasCookie then
      m.branch.length == (msg.branch.drop MAGIC_BRANCH_LEN).length + MAGIC_BRANCH_LEN &&
        msg.branch.drop MAGIC_BRANCH_LEN == m.branch.drop MAGIC_BRANCH_LEN &&
        m.host == msg.host && m.port == msg.port
    else
      msg.fromTag == m.fromTag && msg.cseqNumStr == m.cseqNumStr && msg.toTag == m.toTag &&
        m.ruriStr == msg.ruriStr

theorem TransMsg.sameRequest_self (msg : TransMsg) : msg.sameRequest msg = true := by
  unfold sameRequest
  split_ifs with hc
  · unfold hasCookie at hc
    rw [Bool.and_eq_true, decide_eq_true_eq] at hc
    have hlen : msg.branch.length =
        (msg.branch.drop MAGIC_BRANCH_LEN).length + MAGIC_BRANCH_LEN := by
      rw [length_drop]
      omega
    rw [← hlen]
    simp only [beq_self_eq_true, Bool.and_self]
  · simp only [beq_self_eq_true, Bool.and_self]

variable {msg : TransMsg}

/-- A copy matches the same requests. -/
theorem TransMsg.CopyOf.sameRequest_eq {m : TransMsg} (h : msg.CopyOf m) (n : TransMsg) :
    msg.sameRequest n = m.sameRequest n := by
  have hkey := h.key
  unfold TransMsg.key at hkey
  rw [RequestKey.mk.injEq] at hkey
  obtain ⟨hmethod, hbranch, hhost, hport, -, hcseq⟩ := hkey
  have hcookie : msg.hasCookie = m.hasCookie := by
    unfold hasCookie
    rw [hbranch]
  unfold sameRequest
  rw [hmethod, hbranch, hhost, hport, hcseq, ← hcookie]
  cases hc : msg.hasCookie with
  | true => rfl
  | false =>
    obtain ⟨hfrom, hto, hruri⟩ := h.rest hc
    rw [hfrom, hto, hruri]

theorem TransMsg.CopyOf.sameRequest {m : TransMsg} (h : msg.CopyOf m) :
    msg.sameRequest m = true := by
  rw [h.sameRequest_eq, sameRequest_self]

variable {t : SipTrans}

theorem matchesRequest_eq (hack : msg.method ≠ .ACK) (htype : t.type = .TT_UAS) :
    matchesRequest msg .TT_UAS t = msg.sameRequest t.msg := by
  unfold matchesRequest TransMsg.sameRequest
  rw [htype, beq_self_eq_true, Bool.true_and]
  by_cases hmethod : msg.method = t.msg.method
  · rw [hmethod, beq_self_eq_true, Bool.true_and]
    rw [hmethod] at hack
    split_ifs
    · simp only [matches3261, compareBranch, hmethod, ne_eq, not_true_eq_false, if_false]
    · unfold matchesPre3261
      split_ifs <;> simp_all
  · have hne := beq_eq_false_iff_ne.2 hmethod
    rw [hne, Bool.false_and]
    split_ifs
    · simp only [matches3261, ne_eq, hmethod, not_false_eq_true, if_true, hack, and_false, if_false]
    · unfold matchesPre3261
      rw [if_pos ⟨hmethod, .inl hack⟩]

/-! ## Transactions keep their request -/

/-- The transaction with another state. -/
structure SipTrans.SameRequest (t s : SipTrans) : Prop where
  addr : s.addr = t.addr
  msg : s.msg = t.msg
  type : s.type = t.type

variable {s : SipTrans}

theorem updateUasRequest_same (h : s ∈ (updateUasRequest t msg).1) : t.SameRequest s := by
  unfold updateUasRequest at h
  by_cases hmethod : msg.method ≠ .ACK ∧ msg.method ≠ .PRACK
  · rw [if_pos hmethod] at h
    cases h
    exact ⟨rfl, rfl, rfl⟩
  cases hstate : t.state
  all_goals
    rw [hstate] at h
    try split_ifs at h
  all_goals
    cases h
    try exact ⟨rfl, rfl, rfl⟩

theorem updateUasReply_same {code : ℕ} (h : s ∈ updateUasReply t code) : t.SameRequest s := by
  unfold updateUasReply at h
  dsimp only at h
  split_ifs at h
  all_goals
    cases h
    try exact ⟨rfl, rfl, rfl⟩

theorem sendReply_same {env : ReplyEnv} {reply : ServerReply} (h : s ∈ (sendReply env t reply).1) :
    t.SameRequest s := by
  unfold sendReply at h
  dsimp only at h
  by_cases hstatus : 200 ≤ t.replyStatus
  · rw [if_pos hstatus] at h
    cases h
    exact ⟨rfl, rfl, rfl⟩
  split_ifs at h
  · cases h
    exact ⟨rfl, rfl, rfl⟩
  · cases h
    exact ⟨rfl, rfl, rfl⟩
  · cases h
  · obtain ⟨u, hu, rfl⟩ := Option.map_eq_some_iff.1 h
    have hsame := updateUasReply_same hu
    exact { hsame with }

theorem serverTimer_same {timer : TransTimer} (h : s ∈ (serverTimer t timer).self) :
    t.SameRequest s := by
  unfold serverTimer timerH at h
  cases htype : timer.type
  all_goals
    rw [htype] at h
    dsimp only at h
  case STIMER_H =>
    split at h
    · cases hstate : t.state
      all_goals
        rw [hstate] at h
        cases h
        try exact ⟨rfl, rfl, rfl⟩
    · cases h
  all_goals
    cases h
    try exact ⟨rfl, rfl, rfl⟩

/-! ## Buckets -/

/-- A request that is handed to the UA with its transaction. -/
def ServerLog.isRequest : ServerLog → Bool
  | .request _ _ => true
  | _ => false

open ServerLog

namespace ServerBucket

variable {hash : Str → Str → ℕ} {k : ℕ} {b b' : ServerBucket}

/-- There is one transaction for a request, in its bucket. -/
structure CopiesInv (hash : Str → Str → ℕ) (k : ℕ) (b : ServerBucket) : Prop where
  addrs : (b.elmts.map SipTrans.addr).Nodup
  apart : (b.elmts.map SipTrans.msg).Pairwise fun m₁ m₂ =>
    m₂.sameRequest m₁ = false ∧ m₂.key ≠ m₁.key
  placed : ∀ t ∈ b.elmts, ServerTable.bucketOf hash t.msg = k
  server : ∀ t ∈ b.elmts, t.type = .TT_UAS

/-- What a step does to a bucket. -/
inductive Changes (hash : Str → Str → ℕ) (k : ℕ) (b : ServerBucket) : ServerBucket → Prop
  | logged (log : List ServerLog) (hlog : ∀ l ∈ log, l.isRequest = false) :
    Changes hash k b ⟨b.elmts, b.log ++ log⟩
  | updated (t : SipTrans) (s : Option SipTrans) (log : List ServerLog) (ht : t ∈ b.elmts)
    (hs : ∀ u ∈ s, t.SameRequest u) (hlog : ∀ l ∈ log, l.isRequest = false) :
    Changes hash k b (b.update t.addr s log)
  | added (addr : ℕ) (junk : TransFlags) (msg : TransMsg) (hk : ServerTable.bucketOf hash msg = k)
    (hapart : ∀ t ∈ b.elmts, msg.sameRequest t.msg = false ∧ msg.key ≠ t.msg.key) :
    Changes hash k b (b.addTrans addr junk msg)

theorem Changes.refl : Changes hash k b b := by
  have h : Changes hash k b ⟨b.elmts, b.log ++ []⟩ := .logged [] (by simp)
  rwa [append_nil] at h

variable (h : b.CopiesInv hash k)

include h

theorem CopiesInv.update {s : Option SipTrans} {log : List ServerLog} (ht : t ∈ b.elmts)
    (hs : ∀ u ∈ s, t.SameRequest u) :
    (b.update t.addr s log).CopiesInv hash k := by
  have hkeep : ∀ {x}, x ∈ b.elmts → x.addr = t.addr → x = t := by
    intro x hx haddr
    exact inj_on_of_nodup_map h.addrs hx ht haddr
  have hmsg : ((b.update t.addr s log).elmts.map SipTrans.msg).Sublist
      (b.elmts.map SipTrans.msg) := by
    refine map_replaceKey_sublist SipTrans.msg ?_
    intro u hu x hx haddr
    rw [hkeep hx haddr, (hs u hu).msg]
  refine ⟨nodup_replaceKey (fun u hu => (hs u hu).addr) h.addrs, h.apart.sublist hmsg, ?_, ?_⟩
  · intro u hu
    rcases mem_replaceKey.1 hu with ⟨hu, -⟩ | ⟨hu, -⟩
    · exact h.placed u hu
    · rw [(hs u hu).msg]
      exact h.placed t ht
  · intro u hu
    rcases mem_replaceKey.1 hu with ⟨hu, -⟩ | ⟨hu, -⟩
    · exact h.server u hu
    · rw [(hs u hu).type]
      exact h.server t ht

theorem CopiesInv.addTrans {addr : ℕ} {junk : TransFlags} (hk : ServerTable.bucketOf hash msg = k)
    (hapart : ∀ t ∈ b.elmts, msg.sameRequest t.msg = false ∧ msg.key ≠ t.msg.key) :
    (b.addTrans addr junk msg).CopiesInv hash k := by
  unfold ServerBucket.addTrans
  refine ⟨nodup_append h.addrs freshAddr_notMem (.inr ⟨_, rfl, rfl⟩), ?_, ?_, ?_⟩
  · rw [map_append, pairwise_append]
    refine ⟨h.apart, pairwise_singleton _ _, ?_⟩
    intro m hm n hn
    obtain ⟨t, ht, rfl⟩ := mem_map.1 hm
    rw [map_singleton, mem_singleton] at hn
    subst hn
    exact hapart t ht
  · intro t ht
    rcases mem_append.1 ht with ht | ht
    · exact h.placed t ht
    · rw [mem_singleton.1 ht]
      exact hk
  · intro t ht
    rcases mem_append.1 ht with ht | ht
    · exact h.server t ht
    · rw [mem_singleton.1 ht]
      rfl

theorem CopiesInv.changes (hb : Changes hash k b b') : b'.CopiesInv hash k := by
  cases hb with
  | logged log hlog => exact { h with }
  | updated t s log ht hs hlog => exact h.update ht hs
  | added addr junk msg hk hapart => exact h.addTrans hk hapart

/-- Two transactions of a bucket are for different requests. -/
theorem CopiesInv.eq_of_key {t₁ t₂ : SipTrans} (h₁ : t₁ ∈ b.elmts) (h₂ : t₂ ∈ b.elmts)
    (hkey : t₁.msg.key = t₂.msg.key) : t₁ = t₂ := by
  have hkeys : (b.elmts.map fun t => t.msg.key).Nodup := by
    rw [nodup_iff_pairwise_ne, pairwise_map]
    exact (pairwise_map.1 h.apart).imp fun hne => hne.2.symm
  exact inj_on_of_nodup_map hkeys h₁ h₂ hkey

/-- The transaction of a copy is found. -/
theorem CopiesInv.matchRequest_eq (ht : t ∈ b.elmts) (hcopy : msg.CopyOf t.msg)
    (hack : msg.method ≠ .ACK) :
    matchRequest b.elmts msg .TT_UAS = some t := by
  have hmatches : matchesRequest msg .TT_UAS t = true := by
    rw [matchesRequest_eq hack (h.server t ht), hcopy.sameRequest]
  cases hfound : matchRequest b.elmts msg .TT_UAS with
  | none => exact absurd hmatches (find?_eq_none.1 hfound t ht)
  | some u =>
    obtain ⟨hu, before, after, helmts, hbefore⟩ := find?_eq_some_iff_append.1 hfound
    have hmem := ht
    rw [helmts, mem_append, mem_cons] at hmem
    rcases hmem with hmem | rfl | hmem
    · have hno := hbefore t hmem
      rw [hmatches] at hno
      exact absurd hno (by decide)
    · rfl
    · -- the transaction found first would have been found by the request of `t` too
      have hpair := h.apart
      rw [helmts, map_append, pairwise_append, map_cons, pairwise_cons]
        at hpair
      have hno := (hpair.2.1.1 t.msg (mem_map_of_mem hmem)).1
      have humem : u ∈ b.elmts := mem_of_find?_eq_some hfound
      rw [matchesRequest_eq hack (h.server u humem), hcopy.sameRequest_eq, hno] at hu
      exact absurd hu (by decide)

/-- Where no transaction matches a request, there is no copy. -/
theorem CopiesInv.apart_of_matchRequest (hnone : matchRequest b.elmts msg .TT_UAS = none)
    (hack : msg.method ≠ .ACK) (hcopy : ∀ t ∈ b.elmts, msg.key = t.msg.key → msg.CopyOf t.msg) :
    ∀ t ∈ b.elmts, msg.sameRequest t.msg = false ∧ msg.key ≠ t.msg.key := by
  intro t ht
  have hno := find?_eq_none.1 hnone t ht
  rw [matchesRequest_eq hack (h.server t ht), Bool.not_eq_true] at hno
  refine ⟨hno, ?_⟩
  intro hkey
  rw [(hcopy t ht hkey).sameRequest] at hno
  exact absurd hno (by decide)

omit h

/-! ### The operations -/

theorem find_mem {tr : ℕ} (h : b.find tr = some t) : t ∈ b.elmts ∧ t.addr = tr := by
  have haddr := find?_some h
  rw [beq_iff_eq] at haddr
  exact ⟨mem_of_find?_eq_some h, haddr⟩

theorem matched_changes (ht : t ∈ b.elmts) : Changes hash k b (b.matched t msg) := by
  unfold matched
  split
  · refine .updated t _ _ ht (fun u hu => updateUasRequest_same hu) ?_
    intro l hl
    split_ifs at hl
    · rw [mem_singleton.1 hl]
      rfl
    · exact absurd hl not_mem_nil
  · refine .updated t _ _ ht ?_ ?_
    · rintro u ⟨⟩
      exact ⟨rfl, rfl, rfl⟩
    · intro l hl
      split_ifs at hl
      · rw [mem_singleton.1 hl]
        rfl
      · exact absurd hl not_mem_nil

theorem match1xxPrack_mem (h : match1xxPrack b.elmts msg = some t) : t ∈ b.elmts := by
  unfold match1xxPrack at h
  cases hrack : msg.rack with
  | none => simp [hrack] at h
  | some rack =>
    rw [hrack] at h
    exact mem_of_find?_eq_some h

theorem prack_changes : Changes hash k b (b.prack msg) := by
  unfold prack
  cases hfound : match1xxPrack b.elmts msg with
  | none => exact .refl
  | some t =>
    have ht : t ∈ b.elmts := match1xxPrack_mem hfound
    exact .updated t _ _ ht (fun u hu => updateUasRequest_same hu) (by simp)

theorem reply_changes {env : ReplyEnv} {tr : ℕ} {r : ServerReply} :
    Changes hash k b (b.reply env tr r) := by
  unfold reply
  cases hfound : b.find tr with
  | none => exact .refl
  | some t =>
    obtain ⟨ht, rfl⟩ := find_mem hfound
    exact .updated t _ _ ht (fun u hu => sendReply_same hu) (by simp)

theorem fire_changes {tr : ℕ} {slot : Fin 3} : Changes hash k b (b.fire tr slot) := by
  unfold fire
  cases hfound : b.find tr with
  | none => exact .refl
  | some t =>
    obtain ⟨ht, rfl⟩ := find_mem hfound
    dsimp only
    cases t.timers slot with
    | none => exact .refl
    | some timer =>
      refine .updated t _ _ ht (fun u hu => serverTimer_same hu) ?_
      intro l hl
      obtain ⟨x, -, rfl⟩ := mem_map.1 hl
      rfl

/-! ### Requests for the UA -/

/-- A request for the UA has no copy in the bucket, and there is a transaction for it then. -/
theorem Changes.handsOnce (hb : Changes hash k b b') :
    ∃ log, b'.log = b.log ++ log ∧ ∀ a msg, request a msg ∈ log →
      log = [.request a msg] ∧ ServerTable.bucketOf hash msg = k ∧
        (∀ t ∈ b.elmts, t.msg.key ≠ msg.key) ∧ ∃ t ∈ b'.elmts, t.addr = a ∧ t.msg = msg := by
  cases hb with
  | logged log hlog | updated t s log ht hs hlog =>
    refine ⟨log, rfl, ?_⟩
    intro a msg hreq
    exact absurd (hlog _ hreq) (by simp [isRequest])
  | added addr junk msg hk hapart =>
    refine ⟨_, rfl, ?_⟩
    intro a m hreq
    obtain ⟨rfl, rfl⟩ := request.inj (mem_singleton.1 hreq)
    exact ⟨rfl, hk, fun t ht => (hapart t ht).2.symm, _, mem_append_right _ mem_cons_self, rfl, rfl⟩

end ServerBucket

/-! ## The table -/

open ServerBucket

namespace ServerTable

variable {hash : Str → Str → ℕ} {T : ServerTable} {ev : ServerEv}

/-- When the thread of a PRACK comes back, no copy has been faster. A request with the key of
another is a copy of it. -/
def CopiesOk (hash : Str → Str → ℕ) (T : ServerTable) : ServerEv → Prop
  | .receive _ _ msg =>
    ∀ t ∈ (T.buckets (bucketOf hash msg)).elmts, msg.key = t.msg.key → msg.CopyOf t.msg
  | .resume _ _ i => ∀ msg, T.threads[i]? = some (msg, .addTrans) →
    matchRequest (T.buckets (bucketOf hash msg)).elmts msg .TT_UAS = none ∧
      ∀ t ∈ (T.buckets (bucketOf hash msg)).elmts, msg.key = t.msg.key → msg.CopyOf t.msg
  | _ => True

structure CopiesInv (hash : Str → Str → ℕ) (T : ServerTable) : Prop where
  buckets : ∀ k, (T.buckets k).CopiesInv hash k
  threads : ∀ th ∈ T.threads, th.1.method = .PRACK

theorem init_copiesInv : init.CopiesInv hash :=
  ⟨fun _ => ⟨nodup_nil, List.Pairwise.nil, by simp [init], by simp [init]⟩, by simp [init]⟩

theorem setBucket_changes {k : ℕ} {b : ServerBucket} (hb : (T.buckets k).Changes hash k b)
    {j : ℕ} : (T.buckets j).Changes hash j ((T.setBucket k b).buckets j) := by
  unfold setBucket
  dsimp only
  by_cases hj : j = k
  · subst hj
    rw [Function.update_self]
    exact hb
  · rw [Function.update_of_ne hj]
    exact .refl

variable (h : T.CopiesInv hash)

include h

theorem receive_changes {addr : ℕ} {junk : TransFlags}
    (hok : CopiesOk hash T (.receive addr junk msg)) {j : ℕ} :
    (T.buckets j).Changes hash j ((T.receive hash addr junk msg).buckets j) := by
  unfold receive
  dsimp only
  cases hfound : matchRequest (T.buckets (bucketOf hash msg)).elmts msg .TT_UAS with
  | some t => exact setBucket_changes (matched_changes (mem_of_find?_eq_some hfound))
  | none =>
    have hadd : msg.method ≠ .ACK → (T.buckets j).Changes hash j
        ((T.setBucket (bucketOf hash msg)
          ((T.buckets (bucketOf hash msg)).addTrans addr junk msg)).buckets j) := by
      intro hack
      refine setBucket_changes (.added addr junk msg rfl ?_)
      exact (h.buckets _).apart_of_matchRequest hfound hack hok
    cases hmethod : msg.method
    case ACK => exact .refl
    case PRACK =>
      cases msg.rack with
      | none => exact setBucket_changes (.logged [.badPrack msg] (by simp [isRequest]))
      | some rack => exact .refl
    all_goals exact hadd (by rw [hmethod]; decide)

theorem resume_changes {addr : ℕ} {junk : TransFlags} {i : ℕ}
    (hok : CopiesOk hash T (.resume addr junk i)) {j : ℕ} :
    (T.buckets j).Changes hash j ((T.resume hash addr junk i).buckets j) := by
  unfold resume
  cases hth : T.threads[i]? with
  | none => exact .refl
  | some th =>
    obtain ⟨msg, stage⟩ := th
    cases stage with
    | visitInvite => exact setBucket_changes prack_changes
    | addTrans =>
      obtain ⟨hnone, hcopy⟩ := hok msg hth
      have hprack := h.threads _ (mem_of_getElem? hth)
      have hack : msg.method ≠ .ACK := by
        rw [hprack]
        decide
      refine setBucket_changes (.added addr junk msg rfl ?_)
      exact (h.buckets _).apart_of_matchRequest hnone hack hcopy

theorem step_changes (hok : CopiesOk hash T ev) (j : ℕ) :
    (T.buckets j).Changes hash j ((T.step hash ev).buckets j) := by
  cases ev with
  | receive addr junk msg => exact receive_changes h hok
  | resume addr junk i => exact resume_changes h hok
  | reply k env tr r => exact setBucket_changes reply_changes
  | timer k tr slot => exact setBucket_changes fire_changes

omit h in
/-- Only a PRACK has a thread that goes on. -/
theorem step_threads (h : ∀ th ∈ T.threads, th.1.method = .PRACK) :
    ∀ th ∈ (T.step hash ev).threads, th.1.method = .PRACK := by
  cases ev with
  | receive addr junk msg =>
    show ∀ th ∈ (T.receive hash addr junk msg).threads, _
    unfold receive
    dsimp only
    cases matchRequest (T.buckets (bucketOf hash msg)).elmts msg .TT_UAS with
    | some t => exact h
    | none =>
      cases hmethod : msg.method
      case PRACK =>
        cases msg.rack with
        | none => exact h
        | some rack =>
          intro th hth
          rcases mem_append.1 hth with hth | hth
          · exact h th hth
          · rw [mem_singleton.1 hth]
            exact hmethod
      all_goals exact h
  | resume addr junk i =>
    show ∀ th ∈ (T.resume hash addr junk i).threads, _
    unfold resume
    cases hget : T.threads[i]? with
    | none => exact h
    | some th =>
      obtain ⟨msg, stage⟩ := th
      cases stage with
      | visitInvite =>
        intro th hth
        rcases mem_or_eq_of_mem_set hth with hth | rfl
        · exact h th hth
        · exact h (msg, .visitInvite) (mem_of_getElem? hget)
      | addTrans =>
        intro th hth
        exact h th (mem_of_mem_eraseIdx hth)
  | reply k env tr r | timer k tr slot => exact h

theorem step_copiesInv (hok : CopiesOk hash T ev) : (T.step hash ev).CopiesInv hash :=
  ⟨fun k => (h.buckets k).changes (step_changes h hok k), step_threads h.threads⟩

omit h in
theorem bucketOf_key {m n : TransMsg} (h : m.key = n.key) : bucketOf hash m = bucketOf hash n := by
  have hcallid : m.callid = n.callid := congrArg RequestKey.callid h
  have hcseq : m.cseqNumStr = n.cseqNumStr := congrArg RequestKey.cseqNumStr h
  unfold bucketOf
  rw [hcallid, hcseq]

/-- The transactions of a request are in one bucket, and there is only one. -/
theorem CopiesInv.eq_of_key {k₁ k₂ : ℕ} {t₁ t₂ : SipTrans} (h₁ : t₁ ∈ (T.buckets k₁).elmts)
    (h₂ : t₂ ∈ (T.buckets k₂).elmts) (hkey : t₁.msg.key = t₂.msg.key) :
    k₁ = k₂ ∧ t₁ = t₂ := by
  have hbucket : bucketOf hash t₁.msg = bucketOf hash t₂.msg := bucketOf_key hkey
  have hk : k₁ = k₂ := by
    rw [← (h.buckets k₁).placed t₁ h₁, ← (h.buckets k₂).placed t₂ h₂, hbucket]
  subst hk
  exact ⟨rfl, (h.buckets k₁).eq_of_key h₁ h₂ hkey⟩

omit h

/-- A request for the UA : no transaction of the table is for a copy of it, and there is one
then. -/
def HandsOnce (T T' : ServerTable) : Prop :=
  ∀ k, ∃ log, (T'.buckets k).log = (T.buckets k).log ++ log ∧
    ∀ a msg, request a msg ∈ log →
      log = [.request a msg] ∧ (∀ j, ∀ t ∈ (T.buckets j).elmts, t.msg.key ≠ msg.key) ∧
        ∃ t ∈ (T'.buckets k).elmts, t.addr = a ∧ t.msg = msg

theorem CopiesInv.handsOnce (h : T.CopiesInv hash) (hok : CopiesOk hash T ev) :
    T.HandsOnce (T.step hash ev) := by
  intro k
  obtain ⟨log, hlog, hreq⟩ := (step_changes h hok k).handsOnce
  refine ⟨log, hlog, ?_⟩
  intro a msg hmem
  obtain ⟨honly, hk, hbucket, hnew⟩ := hreq a msg hmem
  refine ⟨honly, ?_, hnew⟩
  intro j t ht hkey
  -- a copy would be in the bucket of the request
  have hj : j = k := by
    rw [← (h.buckets j).placed t ht, ← hk, bucketOf_key hkey]
  subst hj
  exact hbucket t ht hkey

/-- A copy of a request that has a transaction is answered with the last reply. -/
def CopyRetransmits (hash : Str → Str → ℕ) (T : ServerTable) (t : SipTrans) : Prop :=
  ∀ addr junk msg, CopiesOk hash T (.receive addr junk msg) → msg.method ≠ .ACK →
    msg.key = t.msg.key → T.step hash (.receive addr junk msg) =
      let b := T.buckets (bucketOf hash msg)
      T.setBucket (bucketOf hash msg)
        ⟨b.elmts, b.log ++ if t.retrBuf then [.sent (.retransmit t.addr)] else []⟩

theorem CopiesInv.copyRetransmits (h : T.CopiesInv hash) {k : ℕ}
    (ht : t ∈ (T.buckets k).elmts) : T.CopyRetransmits hash t := by
  intro addr junk msg hok hack hkey
  have hk : bucketOf hash msg = k := by
    rw [bucketOf_key hkey, (h.buckets k).placed t ht]
  subst hk
  have hmatch := (h.buckets _).matchRequest_eq ht (hok t ht hkey) hack
  have hmethod : msg.method = t.msg.method := congrArg RequestKey.method hkey
  show T.receive hash addr junk msg = _
  unfold receive matched update
  dsimp only
  rw [hmatch]
  dsimp only
  rw [if_neg (not_not.2 hmethod), replaceKey_self (h.buckets _).addrs ht]

/-- While its transaction is in the table, a request has no other one, is not handed to the UA
again, and its copies only retransmit the last reply. -/
theorem copies_once (hash : Str → Str → ℕ) (evs : List ServerEv)
    (hok : RunOk (step hash) (CopiesOk hash) init evs) :
    (∀ {k₁ k₂ t₁ t₂}, t₁ ∈ ((runFrom (step hash) init evs).buckets k₁).elmts →
      t₂ ∈ ((runFrom (step hash) init evs).buckets k₂).elmts →
      t₁.msg.key = t₂.msg.key → k₁ = k₂ ∧ t₁ = t₂) ∧
    (∀ ev, CopiesOk hash (runFrom (step hash) init evs) ev →
      (runFrom (step hash) init evs).HandsOnce
        ((runFrom (step hash) init evs).step hash ev)) ∧
    ∀ k, ∀ t ∈ ((runFrom (step hash) init evs).buckets k).elmts,
      (runFrom (step hash) init evs).CopyRetransmits hash t := by
  have h := RunOk.inv step_copiesInv init_copiesInv hok
  exact ⟨h.eq_of_key, fun _ hev => h.handsOnce hev, fun _ _ ht => h.copyRetransmits ht⟩

/-- A request of the other side. -/
def rcvd (method : ReqMethod) (name : Str) (rack : Option SipRack) : TransMsg :=
  { TransMsg.bare method name with branch := "z9hG4bK1".toList, rack }

def prackCopy : TransMsg :=
  rcvd .PRACK "PRACK".toList (some ⟨1, 1, "1".toList, .INVITE, "INVITE".toList⟩)

/-- Two copies of a PRACK, each searched for before the other has its transaction. -/
def prackTwice : List ServerEv :=
  [.receive 1 ⟨false, false⟩ prackCopy, .receive 2 ⟨false, false⟩ prackCopy,
    .resume 1 ⟨false, false⟩ 0, .resume 2 ⟨false, false⟩ 1, .resume 1 ⟨false, false⟩ 0,
    .resume 2 ⟨false, false⟩ 0]

/-- Two transactions for one PRACK, which is handed to the UA twice. -/
theorem prackTwice_two :
    ((runFrom (step fun _ _ => 0) init prackTwice).buckets 0).elmts.map (fun t => t.msg.key) =
        [prackCopy.key, prackCopy.key] ∧
      ((runFrom (step fun _ _ => 0) init prackTwice).buckets 0).log.countP
        isRequest = 2 := by
  decide +kernel

/-- An INVITE that is received twice, and then a PRACK whose thread is resumed. -/
def inviteTwicePrack : List ServerEv :=
  [.receive 1 ⟨false, false⟩ (rcvd .INVITE "INVITE".toList none),
    .receive 2 ⟨false, false⟩ (rcvd .INVITE "INVITE".toList none),
    .receive 3 ⟨false, false⟩ prackCopy, .resume 3 ⟨false, false⟩ 0, .resume 3 ⟨false, false⟩ 0]

theorem copies_once_prack :
    let T := runFrom (step fun _ _ => 0) init inviteTwicePrack
    (∀ {k₁ k₂ t₁ t₂}, t₁ ∈ (T.buckets k₁).elmts → t₂ ∈ (T.buckets k₂).elmts →
      t₁.msg.key = t₂.msg.key → k₁ = k₂ ∧ t₁ = t₂) ∧
    (∀ ev, CopiesOk (fun _ _ => 0) T ev → T.HandsOnce (T.step (fun _ _ => 0) ev)) ∧
    (∀ k, ∀ t ∈ (T.buckets k).elmts, T.CopyRetransmits (fun _ _ => 0) t) ∧
      (T.buckets 0).elmts.map SipTrans.addr = [1, 3] := by
  have hcopy {msg : TransMsg} (hcookie : msg.hasCookie = true) (t : SipTrans)
      (hkey : msg.key = t.msg.key) : msg.CopyOf t.msg :=
    ⟨hkey, fun hno => absurd (hcookie.symm.trans hno) nofun⟩
  have hok : RunOk (step fun _ _ => 0) (CopiesOk fun _ _ => 0) init inviteTwicePrack := by
    refine ⟨fun t _ => hcopy rfl t, fun t _ => hcopy rfl t, fun t _ => hcopy rfl t, ?_, ?_, trivial⟩
    · rintro msg ⟨⟩
    · rintro msg ⟨⟩
      exact ⟨by decide +kernel, fun t _ => hcopy rfl t⟩
  obtain ⟨hone, hhands, hcopy⟩ := copies_once (fun _ _ => 0) _ hok
  exact ⟨hone, hhands, hcopy, by decide +kernel⟩

end ServerTable

end Sems
