import Sems.SessionTimer
import Sems.Logs
import Sems.Runs

/-!
# Session timers over runs

`TimerOk` is what the interval and the minimum are to keep : the minimum is at least what the peer
asked for, the interval at least the minimum, and so is every interval that is sent.

For a request without a `Session-Expires` header the interval is the configured one, whatever
minimum the request has (`run_noSessionExpires`), and a 422 reply sets the interval and not the
minimum. `timerOk_runs_iff` is the main result : `TimerOk` holds in every state of a run, if and
only if these two do not happen.
-/

namespace Sems

namespace SessionTimer

/-- The values that are sent are at least the minimum sent with them and those taken over before. -/
def SentOk (pre : List TimerLog) (entry : TimerLog) : Prop :=
  match entry with
  | .accepted _ => True
  | .sentRequest sessionExpires minSe => minSe ≤ sessionExpires ∧
    ∀ m, TimerLog.accepted m ∈ pre → m ≤ sessionExpires
  | .sentReply sessionExpires => ∀ m, TimerLog.accepted m ∈ pre → m ≤ sessionExpires

/-- The log, the minimum and the interval. -/
structure IntervalOk (log : List TimerLog) (minSe interval : ℕ) : Prop where
  accepted : ∀ m, TimerLog.accepted m ∈ log → m ≤ minSe
  interval : minSe ≤ interval
  sent : Logged SentOk log

def TimerOk (s : SessionTimer) : Prop :=
  IntervalOk s.log s.minSe s.sessionInterval

/-- A request has a `Session-Expires` value, or its minimum is not above the configured interval.
The value of a 422 reply that is taken over is the minimum, or is not below it if the request is not
sent again. -/
def StepOk (s : SessionTimer) : SessionTimerEv → Prop
  | .rxRequest method hdrs => isRefreshMethod method = true →
    (headerNumber (sessExpiresHdr hdrs)).isSome = true ∨
      max s.minSe ((minSeOf hdrs).getD s.minSe) ≤ s.conf.sessionExpires
  | .rxReply reply connected _ env _ => ∀ m, s.tooSmall reply connected = some m →
    s.minSe ≤ m ∧
      ((s.sentRequests.find? reply.cseq).isSome = true → env.outcome = .sent → m ≤ s.minSe)
  | _ => True

variable {s : SessionTimer} {log : List TimerLog} {minSe interval : ℕ}

theorem intervalOk_nil (h : minSe ≤ interval) : IntervalOk [] minSe interval :=
  ⟨nofun, h, logged_nil⟩

variable (h : IntervalOk log minSe interval)

include h

/-- The interval grows, or goes down to the minimum. -/
theorem IntervalOk.setInterval {interval' : ℕ} (hle : minSe ≤ interval') :
    IntervalOk log minSe interval' :=
  ⟨h.accepted, hle, h.sent⟩

theorem IntervalOk.sentRequest :
    IntervalOk (log ++ [.sentRequest interval minSe]) minSe interval where
  accepted := by simpa using h.accepted
  interval := h.interval
  sent := logged_concat.2 ⟨h.sent, h.interval, fun m hm => (h.accepted m hm).trans h.interval⟩

theorem IntervalOk.sentReply : IntervalOk (log ++ [.sentReply interval]) minSe interval where
  accepted := by simpa using h.accepted
  interval := h.interval
  sent := logged_concat.2 ⟨h.sent, fun m hm => (h.accepted m hm).trans h.interval⟩

/-- A value is taken over. -/
theorem IntervalOk.accept {minSe' interval' m : ℕ} (hm : m ≤ minSe') (hmin : minSe ≤ minSe')
    (hle : minSe' ≤ interval') :
    IntervalOk (log ++ [.accepted m]) minSe' interval' where
  accepted := by
    intro m' hm'
    rcases List.mem_append.1 hm' with hm' | hm'
    · exact (h.accepted m' hm').trans hmin
    · rw [TimerLog.accepted.inj (List.mem_singleton.1 hm')]
      exact hm
  interval := hle
  sent := logged_concat.2 ⟨h.sent, trivial⟩

omit h

/-! ## The steps -/

theorem TimerOk.onSendRequest (h : TimerOk s) (req : TimerRequest) (disconnected : Bool) :
    TimerOk (s.onSendRequest req disconnected).1 := by
  rw [SessionTimer.onSendRequest]
  split_ifs
  · exact h
  · exact IntervalOk.sentRequest h
  · exact h
  · exact IntervalOk.sentRequest h
  · exact h

theorem TimerOk.onSendReply (h : TimerOk s) (cseqMethod : SipMethod) (code : ℕ) :
    TimerOk (s.onSendReply cseqMethod code) := by
  rw [SessionTimer.onSendReply]
  split_ifs
  · exact h
  · exact IntervalOk.sentReply h

theorem le_replyInterval (h : minSe ≤ interval) {sessExpires : Option ℕ} :
    minSe ≤ replyInterval minSe interval sessExpires := by
  cases sessExpires with
  | none => exact h
  | some sess =>
    rw [replyInterval]
    split_ifs <;> omega

theorem TimerOk.updateTimerReply (h : TimerOk s) (reply : TimerReply) :
    TimerOk (s.updateTimerReply reply) := by
  rw [SessionTimer.updateTimerReply]
  split_ifs
  · exact h
  · exact h
  · exact IntervalOk.setInterval h (le_replyInterval h.interval)

theorem TimerOk.finishReply (h : TimerOk s) (reply : TimerReply) (wasConnected : Bool) :
    TimerOk (s.finishReply reply wasConnected) := by
  have herase : TimerOk (s.eraseRequest reply.cseq) := h
  rw [SessionTimer.finishReply]
  split_ifs
  · exact herase.updateTimerReply reply
  · exact h.updateTimerReply reply
  · exact herase
  · exact h

/-- The interval for a request is at least the minimum exactly if the peer gives a value, or the
configured interval is. -/
theorem le_requestInterval_iff (conf : AmSessionTimerConfig) (minSe : ℕ)
    (sessExpires : Option ℕ) :
    minSe ≤ requestInterval conf minSe sessExpires ↔
      sessExpires.isSome = true ∨ minSe ≤ conf.sessionExpires := by
  cases sessExpires with
  | none => simp [requestInterval]
  | some rem =>
    simp only [requestInterval, Option.isSome_some, true_or, iff_true]
    split_ifs <;> omega

/-- A received request keeps the property exactly if it meets the condition. -/
theorem timerOk_updateTimerRequest (h : TimerOk s) {method : SipMethod} {hdrs : Str} :
    TimerOk (s.updateTimerRequest method hdrs) ↔ StepOk s (.rxRequest method hdrs) := by
  rw [updateTimerRequest, StepOk]
  split_ifs with hmethod
  · have hmax : (if s.minSe < (minSeOf hdrs).getD s.minSe then (minSeOf hdrs).getD s.minSe
        else s.minSe) = max s.minSe ((minSeOf hdrs).getD s.minSe) := by
      split_ifs <;> omega
    have hinterval := le_requestInterval_iff s.conf (max s.minSe ((minSeOf hdrs).getD s.minSe))
      (headerNumber (sessExpiresHdr hdrs))
    dsimp only
    rw [hmax]
    constructor
    · exact fun hnew _ => hinterval.1 hnew.interval
    · intro hok
      have hle := hinterval.2 (hok hmethod)
      cases hmin : minSeOf hdrs with
      | none =>
        rw [hmin] at hle
        simp only [Option.map_none, Option.toList_none, List.append_nil, Option.getD_none,
          max_self] at hle ⊢
        exact IntervalOk.setInterval h hle
      | some m =>
        rw [hmin] at hle
        exact IntervalOk.accept h (le_max_right _ _) (le_max_left _ _) hle
  · exact iff_of_true h fun hm => absurd hm hmethod

variable {reply : TimerReply}

variable {disconnected connected wasConnected : Bool}

/-- Whether a request goes out again, and what stays. -/
theorem resend_spec {env : ResendEnv} :
    ∃ s' again, s.resend reply env disconnected = (s', again) ∧ s'.minSe = s.minSe ∧
      s'.sessionInterval = s.sessionInterval ∧ (TimerOk s → TimerOk s') ∧ (again = true ↔
        (s.sentRequests.find? reply.cseq).isSome = true ∧ env.outcome = .sent) := by
  rw [resend]
  cases hfind : s.sentRequests.find? reply.cseq with
  | none => exact ⟨_, _, rfl, rfl, rfl, id, by simp⟩
  | some ri =>
    split_ifs with hrefused
    · exact ⟨_, _, rfl, rfl, rfl, id, by simp [hrefused]⟩
    · refine ⟨_, _, rfl, ?_, ?_, fun h => h.onSendRequest _ disconnected, by simp⟩
      all_goals
        rw [SessionTimer.onSendRequest]
        split_ifs <;> rfl

theorem code_of_tooSmall {m : ℕ} (h : s.tooSmall reply connected = some m) : reply.code = 422 := by
  rw [tooSmall] at h
  split_ifs at h with hcond
  simp only [Bool.and_eq_true, decide_eq_true_eq] at hcond
  exact hcond.1.2

/-- What is left of a 422 reply whose value is taken over, if the request is not sent again. -/
theorem timerOk_finishReply {s₁ : SessionTimer} (hcode : reply.code = 422)
    (h : s.minSe ≤ s₁.sessionInterval → TimerOk s₁) (hmin : s₁.minSe = s.minSe) :
    TimerOk (s₁.finishReply reply wasConnected) ↔ s.minSe ≤ s₁.sessionInterval := by
  refine ⟨fun hok => ?_, fun hle => (h hle).finishReply reply wasConnected⟩
  have hupdate (s : SessionTimer) : s.updateTimerReply reply = s := by
    rw [SessionTimer.updateTimerReply]
    split_ifs with _ hother
    · rfl
    · rfl
    · exact absurd ⟨.inr (by omega), fun h501 => by omega⟩ hother
  have hle := IntervalOk.interval hok
  rw [SessionTimer.finishReply] at hle
  simp only [hupdate, ite_self] at hle
  rw [← hmin]
  split_ifs at hle <;> exact hle

/-- The same if it is sent again. -/
theorem timerOk_accepted {s₁ : SessionTimer} {cseq m : ℕ} (hmin : s₁.minSe = s.minSe)
    (hinterval : s₁.sessionInterval = m) (h : s.minSe ≤ m → TimerOk s₁) :
    TimerOk ((s₁.eraseRequest cseq).note (.accepted m)) ↔ s.minSe ≤ m ∧ m ≤ s.minSe := by
  constructor
  · intro hok
    have hle := IntervalOk.interval hok
    have hm := IntervalOk.accepted hok m (by simp [note])
    exact ⟨hmin ▸ hinterval ▸ hle, hmin ▸ hm⟩
  · rintro ⟨hle, hm⟩
    exact IntervalOk.accept (h hle) (hmin.symm ▸ hm) le_rfl (h hle).interval

/-- A reply keeps the property exactly if it meets the condition. -/
theorem timerOk_onSipReply (h : TimerOk s) {env : ResendEnv} :
    TimerOk (s.onSipReply reply connected wasConnected env disconnected) ↔
      StepOk s (.rxReply reply connected wasConnected env disconnected) := by
  rw [onSipReply, StepOk]
  cases hsmall : s.tooSmall reply connected with
  | none => exact iff_of_true (h.finishReply reply wasConnected) nofun
  | some m =>
    have hcode := code_of_tooSmall hsmall
    have hset : s.minSe ≤ m → TimerOk { s with sessionInterval := m } :=
      fun hle => IntervalOk.setInterval h hle
    simp only [Option.some.injEq, forall_eq']
    obtain ⟨s₁, _ | _, hres, hmin, hinterval, hok, hagain⟩ :=
      resend_spec <;>
        rw [hres] <;> dsimp only at hmin hinterval hok hagain ⊢
    · have hnot : ¬ ((s.sentRequests.find? reply.cseq).isSome = true ∧ env.outcome = .sent) :=
        fun hsent => Bool.noConfusion (hagain.2 hsent)
      rw [← hinterval, and_iff_left fun hfind hsent => absurd ⟨hfind, hsent⟩ hnot]
      exact timerOk_finishReply hcode (fun hle => hok (hset (hinterval ▸ hle))) hmin
    · obtain ⟨hfind, hsent⟩ := hagain.1 rfl
      rw [forall_prop_of_true hfind, forall_prop_of_true hsent]
      exact timerOk_accepted hmin hinterval fun hle => hok (hset hle)

/-! ## Runs -/

/-- A step keeps the property exactly if it meets the condition. -/
theorem timerOk_step {ev : SessionTimerEv} (h : TimerOk s) : TimerOk (s.step ev) ↔ StepOk s ev := by
  cases ev with
  | rxRequest method hdrs => exact timerOk_updateTimerRequest h
  | rxReply reply connected wasConnected env disconnected => exact timerOk_onSipReply h
  | sendRequest req disconnected => exact iff_of_true (h.onSendRequest req disconnected) trivial
  | sendReply cseqMethod code => exact iff_of_true (h.onSendReply cseqMethod code) trivial

/-- The minimum and the interval are as they are to be in every state of a run exactly if every step
meets the condition. -/
theorem timerOk_runs_iff (conf : AmSessionTimerConfig) (accept501Reply : Bool)
    (role : SessionRefresherRole) (remoteTimerAware : Bool)
    (hconf : conf.minimumTimer ≤ conf.sessionExpires) (evs : List SessionTimerEv) :
    (∀ pre, pre <+: evs →
      TimerOk (runFrom step (init conf accept501Reply role remoteTimerAware) pre)) ↔
      RunOk step StepOk (init conf accept501Reply role remoteTimerAware) evs :=
  forall_prefix_iff (fun h => timerOk_step h) (intervalOk_nil hconf)

/-- A request with both headers, and the reply to it. -/
theorem timerOk_runs_iff_bothHeaders :
    defaultTimerConfig.minimumTimer ≤ defaultTimerConfig.sessionExpires ∧
    ∀ pre, pre <+: [SessionTimerEv.rxRequest .INVITE
        "Session-Expires: 600\r\nMin-SE: 200\r\n".toList, .sendReply .INVITE 200] →
      TimerOk (runFrom step (init defaultTimerConfig false .UAS false) pre) :=
  ⟨by decide, (timerOk_runs_iff defaultTimerConfig false .UAS false (by decide) _).2
    ⟨fun _ => .inl (by decide +kernel), trivial, trivial⟩⟩

/-- A request with a `Min-SE` header only. The interval that is sent is below the minimum received.
-/
theorem run_noSessionExpires :
    let s := runFrom step (init defaultTimerConfig false .UAS false)
      [.rxRequest .INVITE "Min-SE: 1800\r\n".toList, .sendReply .INVITE 200]
    s.minSe = 1800 ∧ s.sessionInterval = 120 ∧ s.log = [.accepted 1800, .sentReply 120] ∧
      ¬ TimerOk s :=
  ⟨by decide +kernel, by decide +kernel, by decide +kernel,
    fun h => absurd h.interval (by decide +kernel)⟩

end SessionTimer

end Sems
