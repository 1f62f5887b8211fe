import Sems.TransAnswers
import Sems.TransRuns

/-!
# At most one final reply

The weights of `Sems.TransAnswers` for a bucket : `weight r` counts the final replies handed to
the UA for the request `r`, and the transactions that owe one. No step adds to it but the one that
accepts the request, so it is at most one (`FinalsInv`).

Two steps do not keep this (`TransBucket.FinalsOk`) : a 503 reply to a request other than INVITE
that is already answered, and the last part of timer C, which takes up a transaction again that may
have been answered meanwhile.
-/

namespace Sems

open List SipTrans
open TransLog (final request)

namespace TransBucket

def weight (r : ℕ) (b : TransBucket) : ℕ :=
  b.elmts.countP (owes r) + b.log.countP (final r)

/-- What holds in every bucket. -/
structure FinalsInv (b : TransBucket) : Prop where
  nodup : (b.elmts.map addr).Nodup
  failsOver : ∀ t ∈ b.elmts, t.FailsOverLive
  weight : ∀ r, b.weight r ≤ 1
  fresh : ∀ r, b.requests ≤ r → b.weight r = 0

/-- From `b` to `b'` no answered transaction becomes unanswered, and none of them sends its request
to a target. -/
def Stays (b b' : TransBucket) : Prop :=
  ∀ t ∈ b.elmts, t.live = false →
    (∀ s ∈ b'.elmts, s.addr = t.addr → s.live = false) ∧
      ∃ log, b'.log = b.log ++ log ∧ ∀ msg, request t.addr msg ∉ log

variable {b b' : TransBucket} {t : SipTrans} {e : Effect} {a : ℕ}

theorem FinalsInv.init : FinalsInv .init where
  nodup := nodup_nil
  failsOver := by
    rintro t ⟨⟩
  weight _ := Nat.zero_le 1
  fresh _ _ := rfl

variable (h : b.FinalsInv)

include h

/-- The calls do not matter. -/
theorem FinalsInv.of_calls {calls : List Call} : FinalsInv { b with calls := calls } :=
  { h with }

omit h in
theorem Stays.refl (h : (b.elmts.map addr).Nodup) : b.Stays b := by
  intro t ht hlive
  refine ⟨fun s hs haddr => ?_, [], (append_nil _).symm, fun _ => not_mem_nil⟩
  rw [inj_on_of_nodup_map h hs ht haddr]
  exact hlive

/-! ## What a function does to the bucket -/

variable (ht : t ∈ b.elmts) (he : e.Answers t (b.newAddr a))

include ht he

theorem weight_apply {r : ℕ} : (b.apply t.addr e).weight r ≤ b.weight r := by
  have hcount := countP_replaceKey (s := e.self) (owes r) t h.nodup ht
  have hle := he.weight r
  unfold Effect.weight at hle
  unfold weight apply
  rw [countP_append] at hle
  rw [countP_append, countP_append]
  omega

theorem FinalsInv.apply : (b.apply t.addr e).FinalsInv where
  nodup := nodup_apply h.nodup ht (fun s hs => (he.self s hs).1) he.added
  failsOver s hs := by
    rcases mem_apply hs he.added with ⟨hs, -⟩ | hs | ⟨-, hn⟩
    · exact h.failsOver s hs
    · exact (he.self s hs).2.2
    · exact hn
  weight r := Nat.le_trans (weight_apply h ht he) (h.weight r)
  fresh r hr := Nat.le_zero.1 (Nat.le_trans (weight_apply h ht he) (Nat.le_of_eq (h.fresh r hr)))

theorem Stays.apply : b.Stays (b.apply t.addr e) := by
  intro u hu hlive
  have hnew : u.addr ≠ b.newAddr a := by
    intro hua
    refine b.newAddr_notMem a ?_
    rw [← hua]
    exact mem_map_of_mem hu
  have hsame : u.addr = t.addr → u = t := inj_on_of_nodup_map h.nodup hu ht
  refine ⟨fun s hs hsu => ?_, e.log, rfl, fun msg hmsg => ?_⟩
  · rcases mem_apply hs he.added with ⟨hs, -⟩ | hs | ⟨haddr, -⟩
    · rw [inj_on_of_nodup_map h.nodup hs hu hsu]
      exact hlive
    · obtain ⟨hst, hslive, -⟩ := he.self s hs
      obtain rfl := hsame (hsu.symm.trans hst)
      rw [← Bool.not_eq_true]
      exact fun hs => Bool.false_ne_true (hlive.symm.trans (hslive hs))
    · exact absurd (hsu.symm.trans haddr) hnew
  · rcases he.sends _ _ hmsg with ⟨hut, htlive⟩ | hua
    · rw [← hsame hut, hlive] at htlive
      exact absurd htlive Bool.false_ne_true
    · exact hnew hua

omit ht he

/-! ## Steps -/

/-- A request is accepted, with its answer or with a transaction for it. -/
theorem FinalsInv.accept {added : List SipTrans} {log : List TransLog}
    (hadded : added = [] ∨ ∃ n, added = [n] ∧ n.addr = b.newAddr a ∧ n.FailsOverLive)
    (hweight : ∀ r, added.countP (owes r) + log.countP (final r) ≤
      if r = b.requests then 1 else 0) :
    FinalsInv { b.accept log with elmts := b.elmts ++ added } := by
  have hsum : ∀ r, TransBucket.weight r { b.accept log with elmts := b.elmts ++ added } ≤
      b.weight r + if r = b.requests then 1 else 0 := by
    intro r
    have hle := hweight r
    unfold TransBucket.weight TransBucket.accept
    rw [countP_append, countP_append]
    omega
  refine ⟨?_, ?_, fun r => ?_, fun r hr => ?_⟩
  · exact nodup_append h.nodup (b.newAddr_notMem a)
      (hadded.imp_right fun ⟨n, hn, haddr, _⟩ => ⟨n, hn, haddr⟩)
  · intro s hs
    rcases mem_append.1 hs with hs | hs
    · exact h.failsOver s hs
    · rcases hadded with rfl | ⟨n, rfl, -, hn⟩
      · exact absurd hs not_mem_nil
      · obtain rfl := mem_singleton.1 hs
        exact hn
  · have hle := hsum r
    split_ifs at hle with hr
    · rw [h.fresh r (Nat.le_of_eq hr.symm)] at hle
      exact hle
    · exact Nat.le_trans hle (h.weight r)
  · have hle := hsum r
    have hr' : b.requests + 1 ≤ r := hr
    rw [h.fresh r (by omega), if_neg (by omega)] at hle
    exact Nat.le_zero.1 hle

theorem Stays.accept {added : List SipTrans} {log : List TransLog}
    (hadded : ∀ n ∈ added, n.addr = b.newAddr a)
    (hlog : ∀ x msg, request x msg ∈ log → x = b.newAddr a) :
    b.Stays { b.accept log with elmts := b.elmts ++ added } := by
  intro t ht hlive
  have hnew : t.addr ≠ b.newAddr a := by
    intro hta
    refine b.newAddr_notMem a ?_
    rw [← hta]
    exact mem_map_of_mem ht
  refine ⟨fun s hs hst => ?_, log, rfl, fun msg hmsg => hnew (hlog _ _ hmsg)⟩
  rcases mem_append.1 hs with hs | hs
  · rw [inj_on_of_nodup_map h.nodup hs ht hst]
    exact hlive
  · exact absurd (hst.symm.trans (hadded s hs)) hnew

omit h

/-- A step that keeps the invariant. -/
def Keeps (b b' : TransBucket) : Prop :=
  b'.FinalsInv ∧ b.Stays b'

variable (h : b.FinalsInv)

include h

theorem Keeps.apply (ht : t ∈ b.elmts) (he : e.Answers t (b.newAddr a)) :
    b.Keeps (b.apply t.addr e) :=
  ⟨h.apply ht he, .apply h ht he⟩

theorem Keeps.refl : b.Keeps b :=
  ⟨h, .refl h.nodup⟩

theorem accept_keeps {dialogId : Str} :
    b.Keeps (b.accept [.reply (some b.requests) dialogId 500]) := by
  have hb : b.accept [.reply (some b.requests) dialogId 500] =
      { b.accept [.reply (some b.requests) dialogId 500] with elmts := b.elmts ++ [] } := by
    rw [append_nil]
    rfl
  rw [hb]
  refine ⟨h.accept (a := 0) (.inl rfl) fun r => ?_, .accept (a := 0) h (by simp) (by simp)⟩
  rw [countP_nil, Nat.zero_add, countP_singleton]
  simp only [final, beq_iff_eq, Option.some.injEq, Bool.and_eq_true]
  split_ifs with hr hr'
  · exact Nat.le_refl 1
  · exact absurd hr.1.symm hr'
  all_goals exact Nat.zero_le _

theorem sent_keeps {args : SendArgs} {msg : TransMsg} {ts : List SipTarget}
    (ht : sentTrans (b.newAddr a) args msg ts b.requests = t) :
    b.Keeps { b.accept [.request t.addr msg] with elmts := b.elmts ++ [t] } := by
  obtain ⟨haddr, hreq, hlive⟩ := sentTrans_eq (b.newAddr a) args msg ts b.requests
  rw [ht] at haddr hreq hlive
  refine ⟨h.accept (.inr ⟨_, rfl, haddr, fun _ => hlive⟩) fun r => ?_,
    .accept (a := a) h (by simp [haddr]) (by simp [haddr])⟩
  rw [countP_singleton, countP_singleton]
  simp only [owes, hreq, hlive, final, beq_iff_eq, Option.some.injEq,
    Bool.true_and, Bool.false_eq_true, if_false, Nat.add_zero]
  split_ifs with hr hr'
  · exact Nat.le_refl 1
  · exact absurd hr.symm hr'
  all_goals exact Nat.zero_le _

omit h

/-- The steps for which the invariant holds. -/
def FinalsOk (b : TransBucket) : TransEv → Prop
  | .reply _ _ reply => ∀ t, matchReply b.elmts reply = some t → t.msg.method ≠ .INVITE →
      reply.code = 503 → t.live ∨ t.targets.getD [] = []
  | .resume _ _ i => ∀ tr t, b.calls[i]? = some (.timeout tr) → b.find tr = some t → t.live
  | _ => True

theorem Works.answers {ev : TransEv} (hw : b.Works t ev e) (ht : t.FailsOverLive)
    (hok : b.FinalsOk ev) : ∃ a, e.Answers t (b.newAddr a) := by
  cases hw with
  | ack dialogId => exact ⟨0, .stay (.of_state ht rfl rfl rfl id) (by simp)⟩
  | reply found => exact ⟨_, updateUacReply_answers ht (hok t found)⟩
  | timer _ set => exact ⟨_, timerExpired_answers ht (getTimer_of_timers set)⟩
  | cancel env addr => exact ⟨addr, cancelTrans_answers ht env⟩
  | timeout call found => exact ⟨0, timeout_answers (hok _ t call found)⟩

theorem step_keeps (h : b.FinalsInv) {ev : TransEv} (hok : b.FinalsOk ev) :
    b.Keeps (b.step ev) := by
  have hmoves := step_moves h.nodup ev
  generalize b.step ev = b' at hmoves ⊢
  cases hmoves with
  | idle => exact ⟨h.of_calls, .refl h.nodup⟩
  | noTimer => exact .refl h
  | refused => exact accept_keeps h
  | sent _ new => exact sent_keeps h new
  | works mem work =>
    obtain ⟨a, he⟩ := work.answers (h.failsOver _ mem) hok
    obtain ⟨hinv, hstays⟩ := Keeps.apply h mem he
    exact ⟨hinv.of_calls, hstays⟩

end TransBucket

/-! ## Runs -/

/-- The steps of the table for which the invariant holds. -/
def TransTable.FinalsOk (T : TransTable) (ev : ℕ × TransEv) : Prop :=
  (T ev.1).FinalsOk ev.2

open TransTable

theorem TransTable.run_finalsInv {evs : List (ℕ × TransEv)}
    (h : RunOk step FinalsOk .init evs) (k : ℕ) :
    (runFrom step .init evs k).FinalsInv := by
  have hstep {b : TransBucket} {ev : TransEv} (hb : b.FinalsInv) (hev : b.FinalsOk ev) :
      (b.step ev).FinalsInv :=
    (TransBucket.step_keeps hb hev).1
  exact RunOk.family_inv hstep (fun _ => .init) h k

/-- In every run the UA is handed at most one final reply to a request. An answered transaction
stays so, and sends its request to no other target. -/
theorem TransTable.finals_le_one {evs : List (ℕ × TransEv)}
    (h : RunOk step FinalsOk .init evs) (k : ℕ) :
    (∀ r, (runFrom step .init evs k).log.countP (final r) ≤ 1) ∧
      ∀ ev, (runFrom step .init evs k).FinalsOk ev →
        (runFrom step .init evs k).Stays
          ((runFrom step .init evs k).step ev) := by
  have hinv := run_finalsInv h k
  refine ⟨fun r => ?_, fun ev hev => (TransBucket.step_keeps hinv hev).2⟩
  exact Nat.le_trans (Nat.le_add_left _ _) (hinv.weight r)

/-! ## The runs that do not keep it -/

/-- A 503 reply after the 200 reply sends the OPTIONS request to the second target, whose reply is
handed to the UA too. -/
def optionsTwice : List (ℕ × TransEv) :=
  [sendTo [⟨1, []⟩, ⟨2, []⟩] .OPTIONS "OPTIONS".toList, replyTo allSent 1 200 "OPTIONS".toList,
    replyTo allSent 1 503 "OPTIONS".toList, replyTo allSent 0 200 "OPTIONS".toList]

/-- The 200 reply to an INVITE comes while timer C sends the CANCEL. -/
def inviteTwice : List (ℕ × TransEv) :=
  [sendTo [⟨1, []⟩, ⟨2, []⟩] .INVITE "INVITE".toList, replyTo allSent 1 180 "INVITE".toList,
    (0, .timer allSent 3 1 TimerType.STIMER_C.slot), (0, .resume ⟨true, true, ⟨false, false⟩⟩ 3 0),
    replyTo allSent 1 200 "INVITE".toList,
    (0, .resume ⟨true, true, ⟨false, false⟩⟩ 3 0)]

theorem TransTable.finals_eq_two :
    (runFrom step .init optionsTwice 0).log.countP (final 0) = 2 ∧
      (runFrom step .init inviteTwice 0).log.countP (final 0) = 2 := by
  decide +kernel

/-- An OPTIONS request with its reply. -/
theorem TransTable.finals_le_one_options :
    (runFrom step .init
      [sendTo [⟨1, []⟩, ⟨2, []⟩] .OPTIONS "OPTIONS".toList,
        replyTo allSent 1 200 "OPTIONS".toList] 0).log.countP (final 0) ≤ 1 := by
  have hok : RunOk step FinalsOk .init
      [sendTo [⟨1, []⟩, ⟨2, []⟩] .OPTIONS "OPTIONS".toList,
        replyTo allSent 1 200 "OPTIONS".toList] := by
    refine ⟨trivial, fun t _ _ hcode => ?_, trivial⟩
    exact absurd hcode (by decide)
  exact (finals_le_one hok 0).1 0

/-- In every run at most one attempt for a request waits for its answer, and none once the UA was
handed a final reply. -/
theorem TransTable.attempts_le_one {evs : List (ℕ × TransEv)}
    (h : RunOk step FinalsOk .init evs) (k r : ℕ) :
    let b := runFrom step .init evs k
    b.elmts.countP (owes r) + b.log.countP (final r) ≤ if r < b.requests then 1 else 0 := by
  intro b
  have hinv := run_finalsInv h k
  split_ifs with hr
  · exact hinv.weight r
  · exact (hinv.fresh r (not_lt.1 hr)).le

/-- The 503 reply of the first target sends an OPTIONS request to the second, which accepts it. -/
def optionsFailover : List (ℕ × TransEv) :=
  [sendTo [⟨1, []⟩, ⟨2, []⟩] .OPTIONS "OPTIONS".toList, replyTo allSent 1 503 "OPTIONS".toList,
    replyTo allSent 0 200 "OPTIONS".toList]

theorem TransTable.attempts_le_one_failover :
    (runFrom step .init (optionsFailover.take 2) 0).elmts.countP (owes 0) = 1 ∧
      let b := runFrom step .init optionsFailover 0
      b.elmts.countP (owes 0) + b.log.countP (final 0) ≤ (if 0 < b.requests then 1 else 0) ∧
        b.log.countP (final 0) = 1 := by
  have hlive : ∀ t ∈ (runFrom step .init (optionsFailover.take 1) 0).elmts, t.live = true := by
    decide +kernel
  have hok : RunOk step FinalsOk .init optionsFailover := by
    refine ⟨trivial, fun t ht _ _ => .inl (hlive t (TransBucket.matchReply_mem ht)), ?_, trivial⟩
    exact fun _ _ _ hcode => absurd hcode (by decide)
  exact ⟨by decide +kernel, attempts_le_one hok 0 0, by decide +kernel⟩

end Sems
