import Sems.TransHeld

/-!
# No client transaction stays for ever : runs

In every bucket a run reaches, each client transaction is in a state of its own and has a timer
that ends with its removal, or the handler of timer C is at work on it (`HeldInv`).
-/

namespace Sems

open List SipTrans

namespace TransBucket

variable {b : TransBucket} {t : SipTrans} {e : Effect} {a : ℕ}

structure HeldInv (b : TransBucket) : Prop where
  nodup : (b.elmts.map addr).Nodup
  held : ∀ t ∈ b.elmts, t.Held (inTimerC b.calls t.addr)

theorem HeldInv.init : HeldInv .init where
  nodup := nodup_nil
  held := by
    rintro t ⟨⟩

theorem HeldInv.works {calls : List Call} (h : b.HeldInv) (ht : t ∈ b.elmts)
    (he : e.Holds (inTimerC b.calls t.addr) t (b.newAddr a))
    (hcalls : ∀ u ∈ b.elmts, inTimerC b.calls u.addr ∧ (u.addr ≠ t.addr ∨ e ≠ timeout t) ∨
      inTimerC e.calls u.addr → inTimerC calls u.addr) :
    HeldInv { b.apply t.addr e with calls := calls } where
  nodup := nodup_apply h.nodup ht he.addr he.added
  held s hs := by
    rcases mem_apply hs he.added with ⟨hs, hne⟩ | hs | ⟨-, hheld⟩
    · exact (h.held s hs).of_imp fun hc => hcalls s hs (.inl ⟨hc, .inl hne⟩)
    · show s.Held (inTimerC calls s.addr)
      rw [he.addr s hs]
      by_cases hout : e = timeout t
      · -- the handler is no longer at work on it
        subst hout
        have hheld := (@timeout_holds t false 0).self s hs
        exact hheld.of_imp fun hc => hcalls t ht (.inr hc)
      · refine (he.self s hs).of_imp fun hc => hcalls t ht ?_
        exact (Bool.or_eq_true_iff.1 hc).imp_left fun hc => ⟨hc, .inr hout⟩
    · exact hheld.of_imp nofun

/-! ## Steps -/

/-- The steps for which the invariant holds. -/
def HeldOk (b : TransBucket) : TransEv → Prop
  | .reply net _ reply => ∀ t, matchReply b.elmts reply = some t → reply.code = 503 →
      if t.msg.method = .INVITE then
        t.state = .TS_CALLING ∨ t.state = .TS_PROCEEDING → reply.localSocket.isSome → NoStray net t
      else SparesTimer net t reply
  | .timer net _ tr slot => ∀ t timer, b.find tr = some t → t.timers slot = some timer →
      timer.1.type = .STIMER_M → NoStray net t
  | _ => True

theorem held_sentTrans (addr : ℕ) (args : SendArgs) (msg : TransMsg) (ts : List SipTarget)
    (request : ℕ) {c : Bool} : (sentTrans addr args msg ts request).Held c := by
  have h := @updateUacRequest_deadlined addr args.flags msg
  have hstate := @updateUacRequest_state addr args.flags msg
  unfold sentTrans
  dsimp only
  split_ifs
  · exact held_of_deadlined (h.put (by simp [TimerType.slot])) hstate
  · exact held_of_deadlined h hstate

theorem Works.holds {ev : TransEv} {c : Bool} (hw : b.Works t ev e) (ht : t.Held c)
    (hok : b.HeldOk ev) : ∃ a, e.Holds c t (b.newAddr a) := by
  cases hw with
  | ack dialogId => exact ⟨0, .keep rfl (ht.congr rfl rfl fun _ _ => rfl)⟩
  | @reply _ addr _ found =>
    have hok' := hok t found
    refine ⟨addr, passReply_holds ?_⟩
    unfold updateUacReply
    split_ifs with hcode hm h300
    · exact provisionalReply_holds ht
    · rw [if_pos hm] at hok'
      exact inviteErrorReply_holds ht hok'
    · exact invitePositive_holds ht
    · rw [if_neg hm] at hok'
      exact nonInviteFinalReply_holds ht hok'
  | timer found set => exact ⟨_, timerExpired_holds ht (getTimer_of_timers set) (hok t _ found set)⟩
  | cancel env addr => exact ⟨addr, cancelTrans_holds env ht⟩
  | timeout => exact ⟨0, timeout_holds⟩

theorem step_heldInv (h : b.HeldInv) {ev : TransEv} (hok : b.HeldOk ev) : (b.step ev).HeldInv := by
  have hmoves := step_moves h.nodup ev
  generalize b.step ev = b' at hmoves ⊢
  cases hmoves with
  | idle _ kept => exact ⟨h.nodup, fun t ht => (h.held t ht).of_imp (kept t ht)⟩
  | noTimer => exact h
  | refused => exact { h with }
  | @sent addr args msg ts t _ new =>
    have haddr := (sentTrans_eq (b.newAddr addr) args msg ts b.requests).1
    rw [new] at haddr
    refine ⟨nodup_append h.nodup (b.newAddr_notMem addr) (.inr ⟨_, rfl, haddr⟩), ?_⟩
    intro s hs
    rcases mem_append.1 hs with hs | hs
    · exact h.held s hs
    · obtain rfl := mem_singleton.1 hs
      exact new ▸ held_sentTrans ..
  | works mem work kept =>
    obtain ⟨a, he⟩ := work.holds (h.held _ mem) hok
    exact h.works mem he kept

end TransBucket

/-! ## Runs -/

/-- The steps of the table for which the invariant holds. -/
def TransTable.HeldOk (T : TransTable) (ev : ℕ × TransEv) : Prop :=
  (T ev.1).HeldOk ev.2

open TransTable

theorem TransTable.run_heldInv {evs : List (ℕ × TransEv)}
    (h : RunOk step HeldOk .init evs) (k : ℕ) :
    (runFrom step .init evs k).HeldInv := by
  have hstep {b : TransBucket} {ev : TransEv} (hb : b.HeldInv) (hev : b.HeldOk ev) :
      (b.step ev).HeldInv :=
    TransBucket.step_heldInv hb hev
  exact RunOk.family_inv hstep (fun _ => .init) h k

/-- Every client transaction has a state, and a timer that ends with its removal unless the handler
of timer C is at work on it. -/
theorem TransTable.run_removable {evs : List (ℕ × TransEv)}
    (h : RunOk step HeldOk .init evs) (k : ℕ) :
    ∀ t ∈ (runFrom step .init evs k).elmts,
      t.state ≠ .TS_0 ∧
        (inTimerC (runFrom step .init evs k).calls t.addr = false → t.removable = true) := by
  intro t ht
  have hheld := (run_heldInv h k).held t ht
  refine ⟨hheld.state_ne, fun hc => ?_⟩
  rw [hc] at hheld
  exact hheld.removable

/-! ## The runs that do not keep it -/

/-- No attempt is sent. -/
def noneSent : Attempts :=
  fun n => { allSent n with sent := false }

/-- The 503 reply to an OPTIONS request comes twice. -/
def optionsLeft : List (ℕ × TransEv) :=
  [sendTo [⟨1, []⟩] .OPTIONS "OPTIONS".toList, replyTo allSent 0 503 "OPTIONS".toList,
    replyTo allSent 0 503 "OPTIONS".toList]

/-- After a provisional reply and a 503 reply, an INVITE cannot be sent to the last target. -/
def inviteLeft : List (ℕ × TransEv) :=
  [sendTo [⟨1, []⟩, ⟨2, []⟩] .INVITE "INVITE".toList, replyTo allSent 1 180 "INVITE".toList,
    replyTo noneSent 1 503 "INVITE".toList]

theorem TransTable.run_not_removable :
    ((runFrom step .init optionsLeft 0).elmts.map removable = [false] ∧
      (runFrom step .init optionsLeft 0).calls = []) ∧
    ((runFrom step .init inviteLeft 0).elmts.map fun t => (t.state, t.removable)) =
        [(.TS_COMPLETED, true), (.TS_0, false)] ∧
      (runFrom step .init inviteLeft 0).calls = [] := by
  decide +kernel

/-- An OPTIONS request with its reply. -/
def optionsAnswered : List (ℕ × TransEv) :=
  [sendTo [⟨1, []⟩] .OPTIONS "OPTIONS".toList, replyTo allSent 0 200 "OPTIONS".toList]

theorem TransTable.run_removable_options :
    RunOk step HeldOk .init optionsAnswered ∧
      (runFrom step .init optionsAnswered 0).elmts.length = 1 ∧
      ((runFrom step .init optionsAnswered 0).elmts.all fun t =>
        decide (t.state ≠ .TS_0) && t.removable) = true := by
  have hok : RunOk step HeldOk .init optionsAnswered := by
    refine ⟨trivial, fun t _ hcode => ?_, trivial⟩
    exact absurd hcode (by decide)
  refine ⟨hok, by decide +kernel, all_eq_true.2 fun t ht => ?_⟩
  obtain ⟨hstate, hremovable⟩ := run_removable hok 0 t ht
  rw [decide_eq_true hstate, Bool.true_and]
  exact hremovable rfl

end Sems
