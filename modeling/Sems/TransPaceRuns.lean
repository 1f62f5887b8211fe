import Sems.TransCopies
import Sems.TransRel100
import Sems.TransServerPace

/-!
# Retransmissions in every run

The intervals of timers E and G in every run of the client and the server side, and their
deadlines (`retransmissions_paced`). Two conditions are needed (`SipTrans.ExpiryOk`) : the counter
of the timer is not so high that the shift loses what is above `T2`, and timer H does not expire
while a reliable provisional reply is repeated, since timer G goes on then.
-/

namespace Sems

open List Function SipTrans

/-! ## What is asked of a step -/

/-- After a step, a timer that is not the first of its kind was there before, or follows one that
has expired. Where a deadline is over, nothing is repeated. -/
structure StepPaced (expires : Fin 3 → ℕ → Prop) (l l' : List SipTrans) : Prop where
  counted : ∀ s ∈ l', ∀ x ∈ s.getTimer .STIMER_E, x.n ≠ 0 → ∃ t ∈ l, t.addr = s.addr ∧
    (t.getTimer .STIMER_E = some x ∨
      ∃ y, t.getTimer .STIMER_E = some y ∧ x = y.next ∧ expires 0 t.addr)
  ended : ∀ s ∈ l', expires 1 s.addr → ∀ x ∈ s.getTimer .STIMER_E,
    x.type ≠ .STIMER_E ∧ x.type ≠ .STIMER_G

variable {l : List SipTrans} {expires : Fin 3 → ℕ → Prop}

theorem StepPaced.refl (h : ∀ a, ¬ expires 1 a) : StepPaced expires l l where
  counted s hs _ hx _ := ⟨s, hs, rfl, .inl hx⟩
  ended _ _ hexp := absurd hexp (h _)

theorem StepPaced.congr {expires' : Fin 3 → ℕ → Prop} {l' : List SipTrans}
    (h : StepPaced expires l l') (hiff : ∀ i a, expires i a ↔ expires' i a) :
    StepPaced expires' l l' := by
  have heq : expires = expires' := funext fun i => funext fun a => propext (hiff i a)
  exact heq ▸ h

variable {cfg : TimerConfig}

/-- The timer that expires is not there. -/
theorem StepPaced.of_noTimer {slot : Fin 3} {tr : ℕ} (hexp : ∀ i a, expires i a → i = slot ∧ a = tr)
    (hnone : ∀ s ∈ l, s.addr = tr → s.timers slot = none) (hpace : ∀ s ∈ l, s.KeepsPace cfg) :
    StepPaced expires l l where
  counted s hs _ hx _ := ⟨s, hs, rfl, .inl hx⟩
  ended s hs hone := by
    obtain ⟨rfl, haddr⟩ := hexp _ _ hone
    refine (hpace s hs).of_deadline ?_
    show (s.timers 1).map _ = none
    rw [hnone s hs haddr]
    rfl

/-- The timers of the transactions when one of them has changed. -/
theorem counted_replaceKey (expires : Fin 3 → ℕ → Prop) {t : SipTrans} (ht : t ∈ l)
    {s : Option SipTrans} {prev : Option TransTimer} (haddr : ∀ u ∈ s, u.addr = t.addr)
    (hcounted : ∀ u ∈ s, ∀ x ∈ u.getTimer .STIMER_E, x.n = 0 ∨ prev = some x)
    (hprev : prev = t.getTimer .STIMER_E ∨
      ∃ y, t.getTimer .STIMER_E = some y ∧ prev = some y.next ∧ expires 0 t.addr) :
    ∀ u ∈ replaceKey addr t.addr s l, ∀ x ∈ u.getTimer .STIMER_E, x.n ≠ 0 →
      ∃ t ∈ l, t.addr = u.addr ∧ (t.getTimer .STIMER_E = some x ∨
        ∃ y, t.getTimer .STIMER_E = some y ∧ x = y.next ∧ expires 0 t.addr) := by
  intro u hu x hx hn
  rcases mem_replaceKey.1 hu with ⟨hu, -⟩ | ⟨hu, -⟩
  · exact ⟨u, hu, rfl, .inl hx⟩
  · refine ⟨t, ht, (haddr u hu).symm, ?_⟩
    have hx' : prev = some x := (hcounted u hu x hx).resolve_left hn
    rcases hprev with hprev | ⟨y, hy, hprev, hexp⟩
    · exact .inl (hprev.symm.trans hx')
    · rw [hprev] at hx'
      exact .inr ⟨y, hy, (Option.some.inj hx').symm, hexp⟩

/-! ## The client side -/

namespace TransBucket

variable {b : TransBucket} {t : SipTrans} {e : Effect} {a : ℕ}

structure PaceInv (cfg : TimerConfig) (b : TransBucket) : Prop where
  nodup : (b.elmts.map addr).Nodup
  paced : ∀ t ∈ b.elmts, t.Paced cfg (t.getTimer .STIMER_E)

def PaceOk (cfg : TimerConfig) (b : TransBucket) : TransEv → Prop
  | .timer _ _ tr slot => ∀ t ∈ b.find tr, ∀ timer ∈ t.timers slot, t.ExpiryOk cfg timer.1
  | _ => True

instance (ev : TransEv) : Decidable (b.PaceOk cfg ev) :=
  match ev with
  | .timer _ _ _ _ => inferInstanceAs (Decidable (∀ _ ∈ _, ∀ _ ∈ _, ExpiryOk _ _ _))
  | .sendRequest _ _ _ | .reply _ _ _ | .cancel _ _ _ _ _ | .resume _ _ _ =>
    inferInstanceAs (Decidable True)

/-- The timer of a transaction expires. -/
def Expires (ev : TransEv) (slot : Fin 3) (tr : ℕ) : Prop :=
  ∃ net addr, ev = .timer net addr tr slot

/-- What a step keeps. -/
def PacedTo (cfg : TimerConfig) (expires : Fin 3 → ℕ → Prop) (b b' : TransBucket) : Prop :=
  b'.PaceInv cfg ∧ StepPaced expires b.elmts b'.elmts

theorem sentTrans_paced (hcfg : cfg.t1 .STIMER_E ≤ cfg.t2) (addr : ℕ) (args : SendArgs)
    (msg : TransMsg) (ts : List SipTarget) (request : ℕ) :
    (sentTrans addr args msg ts request).Paced cfg none := by
  have h := updateUacRequest_paced hcfg addr args.flags msg
  unfold sentTrans
  split_ifs
  · have h' : ((updateUacRequest addr args.flags msg).resetTimer .STIMER_M).Paced cfg none :=
      h.putTimer rfl
    exact h'.congr rfl rfl rfl id
  · exact h.congr rfl rfl rfl id

variable (hcfg : cfg.t1 .STIMER_E ≤ cfg.t2) (h : b.PaceInv cfg)

include h

theorem PaceInv.apply (ht : t ∈ b.elmts) {prev : Option TransTimer}
    (he : e.Paces cfg prev t (b.newAddr a)) : (b.apply t.addr e).PaceInv cfg where
  nodup := nodup_apply h.nodup ht he.addr he.added
  paced s hs := by
    have hself : ∀ {prev}, s.Paced cfg prev → s.Paced cfg (s.getTimer .STIMER_E) :=
      fun hs => ⟨hs.retr, hs.deadline, hs.abandoned, fun _ hx => .inr hx⟩
    rcases mem_apply hs he.added with ⟨hs, -⟩ | hs | ⟨-, hn⟩
    · exact h.paced s hs
    · exact hself (he.self s hs)
    · exact hself hn

variable (hexp : ∀ a, ¬ expires 1 a)

include hexp

theorem PaceInv.same {b' : TransBucket} (hb : b'.elmts = b.elmts) : PacedTo cfg expires b b' := by
  refine ⟨⟨?_, ?_⟩, ?_⟩
  · rw [hb]
    exact h.nodup
  · rw [hb]
    exact h.paced
  · rw [hb]
    exact .refl hexp

omit h hexp

theorem not_expires {ev : TransEv} (quiet : ev.isTimer = false) {i : Fin 3} {a : ℕ} :
    ¬ Expires ev i a := by
  rintro ⟨_, _, rfl⟩
  exact nomatch quiet

theorem expires_timer {net : Attempts} {tr a' : ℕ} {slot i : Fin 3}
    (h : Expires (.timer net a tr slot) i a') : i = slot ∧ a' = tr := by
  obtain ⟨_, _, hev⟩ := h
  obtain ⟨-, -, haddr, hslot⟩ := TransEv.timer.inj hev
  exact ⟨hslot.symm, haddr.symm⟩

include hcfg

/-- What a function does to a transaction. If it expires its deadline, that is cleared. -/
theorem Works.paces {ev : TransEv} (hw : b.Works t ev e) (ht : t.Paced cfg (t.getTimer .STIMER_E))
    (hok : b.PaceOk cfg ev) : ∃ prev a, e.Paces cfg prev t (b.newAddr a) ∧
      (prev = t.getTimer .STIMER_E ∨ ∃ y, t.getTimer .STIMER_E = some y ∧ prev = some y.next ∧
        Expires ev 0 t.addr) ∧
      ∀ a, Expires ev 1 a → a = t.addr ∧ ∀ s ∈ e.self, s.getTimer .STIMER_F = none := by
  have hquiet : ev.isTimer = false → ∀ a, Expires ev 1 a →
      a = t.addr ∧ ∀ s ∈ e.self, s.getTimer .STIMER_F = none :=
    fun quiet a hexp => absurd hexp (not_expires quiet)
  cases hw with
  | ack dialogId => exact ⟨_, 0, .keep rfl (ht.congr rfl rfl rfl id), .inl rfl, hquiet rfl⟩
  | reply found =>
    exact ⟨_, _, passReply_paces (updateUacReply_paces hcfg ht), .inl rfl, hquiet rfl⟩
  | @timer net addr timer found set =>
    have htimer := getTimer_of_timers set
    refine ⟨_, addr, timerExpired_paces hcfg ht htimer
      fun htype => (hok t found _ set).1 (.inl htype), ?_, fun a hexp => ?_⟩
    · split_ifs with hzero
      · have hget := (t.getTimer_of_slot .STIMER_E timer.type hzero.symm).trans htimer
        exact .inr ⟨timer, hget, rfl, net, addr, by rw [hzero]⟩
      · exact .inl rfl
    · obtain ⟨hone, haddr⟩ := expires_timer hexp
      exact ⟨haddr, timerExpired_deadline hone.symm⟩
  | cancel env addr quiet => exact ⟨_, addr, cancelTrans_paces hcfg ht env, .inl rfl, hquiet quiet⟩
  | timeout => exact ⟨_, 0, timeout_paces rfl, .inl rfl, hquiet rfl⟩

theorem step_paced (h : b.PaceInv cfg) {ev : TransEv} (hok : b.PaceOk cfg ev) :
    PacedTo cfg (Expires ev) b (b.step ev) := by
  have hmoves := step_moves h.nodup ev
  generalize b.step ev = b' at hmoves ⊢
  cases hmoves with
  | idle quiet | refused quiet => exact h.same (fun _ => not_expires quiet) rfl
  | noTimer expired unset =>
    subst expired
    exact ⟨h, .of_noTimer (fun _ _ => expires_timer) unset fun s hs => (h.paced s hs).keepsPace⟩
  | @sent addr args msg ts t quiet new =>
    have haddr := (sentTrans_eq (b.newAddr addr) args msg ts b.requests).1
    have hnew := sentTrans_paced hcfg (b.newAddr addr) args msg ts b.requests
    rw [new] at haddr hnew
    refine ⟨⟨nodup_append h.nodup (b.newAddr_notMem addr) (.inr ⟨_, rfl, haddr⟩), ?_⟩,
      ⟨?_, fun _ _ hs => absurd hs (not_expires quiet)⟩⟩
    · intro s hs
      rcases mem_append.1 hs with hs | hs
      · exact h.paced s hs
      · obtain rfl := mem_singleton.1 hs
        exact ⟨hnew.retr, hnew.deadline, hnew.abandoned, fun _ hx => .inr hx⟩
    · intro s hs x hx hn
      rcases mem_append.1 hs with hs | hs
      · exact ⟨s, hs, rfl, .inl hx⟩
      · obtain rfl := mem_singleton.1 hs
        rcases hnew.counted x hx with hzero | hprev
        · exact absurd hzero hn
        · cases hprev
  | @works t _ _ mem work =>
    obtain ⟨prev, a, he, hprev, hended⟩ := work.paces hcfg (h.paced _ mem) hok
    have hinv := h.apply mem he
    refine ⟨{ hinv with }, fun s hs x hx hn => ?_, fun s hs hexp => ?_⟩
    · rcases mem_append.1 hs with hs | hs
      · have hcounted := fun u hu => (he.self u hu).counted
        exact counted_replaceKey _ mem he.addr hcounted hprev s hs x hx hn
      · rcases he.added with hadded | ⟨n, hadded, -, hpaced⟩
        · rw [hadded] at hs
          exact absurd hs not_mem_nil
        · rw [hadded] at hs
          obtain rfl := mem_singleton.1 hs
          rcases hpaced.counted x hx with hzero | hprev
          · exact absurd hzero hn
          · cases hprev
    obtain ⟨haddr, hclear⟩ := hended _ hexp
    refine (hinv.paced s hs).keepsPace.of_deadline ?_
    rcases mem_apply hs he.added with ⟨-, hne⟩ | hs | ⟨hn, -⟩
    · exact absurd haddr hne
    · exact hclear s hs
    · -- a new transaction has another address
      have hmem : t.addr ∈ b.elmts.map addr := mem_map_of_mem mem
      rw [← haddr, hn] at hmem
      exact absurd hmem (b.newAddr_notMem a)

end TransBucket

/-! ## The server side -/

namespace ServerBucket

variable {b : ServerBucket} {t : SipTrans}

structure PaceInv (cfg : TimerConfig) (b : ServerBucket) : Prop where
  nodup : (b.elmts.map addr).Nodup
  paced : ∀ t ∈ b.elmts, t.ServerPaced cfg (t.getTimer .STIMER_G)

def PacedTo (cfg : TimerConfig) (expires : Fin 3 → ℕ → Prop) (b b' : ServerBucket) : Prop :=
  b'.PaceInv cfg ∧ StepPaced expires b.elmts b'.elmts

/-- What is asked of the timer of a transaction that expires. -/
def PaceOk (cfg : TimerConfig) (b : ServerBucket) (tr : ℕ) (slot : Fin 3) : Prop :=
  ∀ t ∈ b.find tr, ∀ timer ∈ t.timers slot, t.ExpiryOk cfg timer.1

instance (tr : ℕ) (slot : Fin 3) : Decidable (b.PaceOk cfg tr slot) :=
  inferInstanceAs (Decidable (∀ _ ∈ _, ∀ _ ∈ _, ExpiryOk _ _ _))

variable (hcfg : cfg.t1 .STIMER_G ≤ cfg.t2) (h : b.PaceInv cfg)

include h

theorem PaceInv.update {prev : Option TransTimer} {s : Option SipTrans} {log : List ServerLog}
    (hsame : ∀ u ∈ s, t.SameRequest u) (hs : ∀ u ∈ s, u.ServerPaced cfg prev) :
    (b.update t.addr s log).PaceInv cfg where
  nodup := nodup_replaceKey (fun u hu => (hsame u hu).addr) h.nodup
  paced u hu := by
    rcases mem_replaceKey.1 hu with ⟨hu, -⟩ | ⟨hu, -⟩
    · exact h.paced u hu
    · have hpaced := hs u hu
      exact ⟨hpaced.retr, hpaced.deadline, fun _ hx => .inr hx⟩

theorem fire_paced {tr : ℕ} {slot : Fin 3} (hok : b.PaceOk cfg tr slot) :
    PacedTo cfg (fun i a => i = slot ∧ a = tr) b (b.fire tr slot) := by
  have hpace := fun s hs => (h.paced s hs).keepsPace
  unfold fire
  cases hfind : b.find tr with
  | none =>
    refine ⟨h, .of_noTimer (fun _ _ hexp => hexp) (fun s hs haddr => ?_) hpace⟩
    exact absurd (beq_iff_eq.2 haddr) (find?_eq_none.1 hfind s hs)
  | some t =>
    obtain ⟨ht, rfl⟩ := find_mem hfind
    dsimp only
    cases hslot : t.timers slot with
    | none =>
      refine ⟨h, .of_noTimer (fun _ _ hexp => hexp) (fun s hs haddr => ?_) hpace⟩
      rw [inj_on_of_nodup_map h.nodup hs ht haddr]
      exact hslot
    | some timer =>
      have hexpiry := hok t hfind timer hslot
      obtain ⟨timer, rfl⟩ := timer
      have htimer := getTimer_of_timers hslot
      have hs := serverTimer_paced (h.paced t ht) htimer hexpiry
      have hsame : ∀ u ∈ (serverTimer t timer).self, t.SameRequest u :=
        fun u hu => serverTimer_same hu
      have hinv : (b.update t.addr (serverTimer t timer).self
          ((serverTimer t timer).log.map .sent)).PaceInv cfg := h.update hsame hs
      refine ⟨hinv, ?_, ?_⟩
      · refine counted_replaceKey (fun i a => i = timer.type.slot ∧ a = t.addr) ht
          (fun u hu => (hsame u hu).addr) (fun u hu => (hs u hu).counted) ?_
        split_ifs with hzero
        · have hget := (t.getTimer_of_slot .STIMER_E timer.type hzero.symm).trans htimer
          exact .inr ⟨timer, hget, rfl, hzero.symm, rfl⟩
        · exact .inl rfl
      · rintro u hu ⟨hone, haddr⟩
        refine (hinv.paced u hu).keepsPace.of_deadline ?_
        rcases mem_replaceKey.1 hu with ⟨-, hne⟩ | ⟨hu, -⟩
        · exact absurd haddr hne
        · exact serverTimer_deadline (h.paced t ht) htimer hone.symm u hu

variable (hexp : ∀ a, ¬ expires 1 a)

include hexp

theorem PaceInv.same {b' : ServerBucket} (hb : b'.elmts = b.elmts) : PacedTo cfg expires b b' := by
  refine ⟨⟨?_, ?_⟩, ?_⟩
  · rw [hb]
    exact h.nodup
  · rw [hb]
    exact h.paced
  · rw [hb]
    exact .refl hexp

theorem PaceInv.updated (ht : t ∈ b.elmts) {s : Option SipTrans} {log : List ServerLog}
    (hsame : ∀ u ∈ s, t.SameRequest u) (hs : ∀ u ∈ s, u.ServerPaced cfg (t.getTimer .STIMER_G)) :
    PacedTo cfg expires b (b.update t.addr s log) := by
  refine ⟨h.update hsame hs, ?_, fun _ _ hu => absurd hu (hexp _)⟩
  exact counted_replaceKey expires ht (fun u hu => (hsame u hu).addr)
    (fun u hu => (hs u hu).counted) (.inl rfl)

variable {msg : TransMsg}

theorem matched_paced (ht : t ∈ b.elmts) : PacedTo cfg expires b (b.matched t msg) := by
  unfold matched
  split
  · exact h.updated hexp ht (fun u hu => updateUasRequest_same hu)
      (updateUasRequest_paced (h.paced t ht))
  · refine h.updated hexp ht ?_ ?_
    · rintro u ⟨⟩
      exact ⟨rfl, rfl, rfl⟩
    · rintro u ⟨⟩
      exact h.paced t ht

theorem prack_paced : PacedTo cfg expires b (b.prack msg) := by
  unfold prack
  cases hfound : match1xxPrack b.elmts msg with
  | none => exact h.same hexp rfl
  | some t =>
    have ht := match1xxPrack_mem hfound
    exact h.updated hexp ht (fun u hu => updateUasRequest_same hu)
      (updateUasRequest_paced (h.paced t ht))

theorem addTrans_paced {addr : ℕ} {junk : TransFlags} :
    PacedTo cfg expires b (b.addTrans addr junk msg) := by
  unfold addTrans
  refine ⟨⟨nodup_append h.nodup freshAddr_notMem (.inr ⟨_, rfl, rfl⟩), ?_⟩,
    ⟨?_, fun _ _ hs => absurd hs (hexp _)⟩⟩
  · intro s hs
    rcases mem_append.1 hs with hs | hs
    · exact h.paced s hs
    · obtain rfl := mem_singleton.1 hs
      exact .of_none rfl rfl
  · intro s hs x hx _
    rcases mem_append.1 hs with hs | hs
    · exact ⟨s, hs, rfl, .inl hx⟩
    · obtain rfl := mem_singleton.1 hs
      cases hx

include hcfg

theorem reply_paced {env : ReplyEnv} {tr : ℕ} {r : ServerReply} :
    PacedTo cfg expires b (b.reply env tr r) := by
  unfold reply
  cases hfound : b.find tr with
  | none => exact h.same hexp rfl
  | some t =>
    obtain ⟨ht, rfl⟩ := find_mem hfound
    exact h.updated hexp ht (fun u hu => sendReply_same hu) (sendReply_paced hcfg (h.paced t ht))

end ServerBucket

/-! ## Runs -/

/-- What is asked of a step of the client side. -/
def TransTable.PaceOk (cfg : TimerConfig) (T : TransTable) (ev : ℕ × TransEv) : Prop :=
  (T ev.1).PaceOk cfg ev.2

/-- A timer of a transaction in a bucket expires. -/
def TransTable.Expires (ev : ℕ × TransEv) (k : ℕ) (slot : Fin 3) (tr : ℕ) : Prop :=
  ev.1 = k ∧ TransBucket.Expires ev.2 slot tr

open TransTable

theorem TransTable.step_paced (hcfg : cfg.t1 .STIMER_E ≤ cfg.t2) {T : TransTable} {ev : ℕ × TransEv}
    (h : ∀ k, (T k).PaceInv cfg) (hok : T.PaceOk cfg ev) (k : ℕ) :
    TransBucket.PacedTo cfg (Expires ev k) (T k) (T.step ev k) := by
  unfold step familyStep
  by_cases hk : k = ev.1
  · subst hk
    rw [update_self]
    obtain ⟨hinv, hstep⟩ := TransBucket.step_paced hcfg (h ev.1) hok
    exact ⟨hinv, hstep.congr fun i a => ⟨fun hexp => ⟨rfl, hexp⟩, And.right⟩⟩
  · rw [update_of_ne hk]
    exact (h k).same (fun _ hexp => hk hexp.1.symm) rfl

theorem TransTable.run_paceInv (hcfg : cfg.t1 .STIMER_E ≤ cfg.t2) {evs : List (ℕ × TransEv)}
    (h : RunOk step (PaceOk cfg) .init evs) (k : ℕ) : (runFrom step .init evs k).PaceInv cfg := by
  have hinit : ∀ k, (init k).PaceInv cfg :=
    fun _ => ⟨nodup_nil, fun _ ht => absurd ht not_mem_nil⟩
  exact RunOk.inv (I := fun T => ∀ k, (T k).PaceInv cfg)
    (fun hT hok k => (step_paced hcfg hT hok k).1) hinit h k

open ServerBucket

namespace ServerTable

variable {hash : Str → Str → ℕ} {T : ServerTable} {ev : ServerEv}

/-- What is asked of a step of the server side. -/
def PaceOk (cfg : TimerConfig) (T : ServerTable) : ServerEv → Prop
  | .timer k tr slot => (T.buckets k).PaceOk cfg tr slot
  | _ => True

/-- A timer of a transaction in a bucket expires. -/
def Expires (ev : ServerEv) (k : ℕ) (slot : Fin 3) (tr : ℕ) : Prop :=
  ev = .timer k tr slot

variable (h : ∀ k, (T.buckets k).PaceInv cfg)

include h

theorem setBucket_paced {k j : ℕ} {b : ServerBucket} (hexp : j ≠ k → ∀ a, ¬ expires 1 a)
    (hb : j = k → (T.buckets k).PacedTo cfg expires b) :
    (T.buckets j).PacedTo cfg expires ((T.setBucket k b).buckets j) := by
  unfold setBucket
  dsimp only
  by_cases hj : j = k
  · subst hj
    rw [update_self]
    exact hb rfl
  · rw [update_of_ne hj]
    exact (h j).same (hexp hj) rfl

theorem receive_paced (hexp : ∀ a, ¬ expires 1 a) {addr : ℕ} {junk : TransFlags} {msg : TransMsg}
    {j : ℕ} :
    (T.buckets j).PacedTo cfg expires ((T.receive hash addr junk msg).buckets j) := by
  have hsame := (h j).same hexp rfl
  have hset : ∀ {b : ServerBucket}, (T.buckets (bucketOf hash msg)).PacedTo cfg expires b →
      (T.buckets j).PacedTo cfg expires ((T.setBucket (bucketOf hash msg) b).buckets j) :=
    fun hb => setBucket_paced h (fun _ => hexp) fun _ => hb
  unfold receive
  dsimp only
  cases hfound : matchRequest (T.buckets (bucketOf hash msg)).elmts msg .TT_UAS with
  | some t => exact hset (matched_paced (h _) hexp (mem_of_find?_eq_some hfound))
  | none =>
    cases hmethod : msg.method
    case ACK => exact hsame
    case PRACK =>
      cases msg.rack with
      | none => exact hset ((h _).same hexp rfl)
      | some rack => exact hsame
    all_goals exact hset (addTrans_paced (h _) hexp)

theorem resume_paced (hexp : ∀ a, ¬ expires 1 a) (addr : ℕ) (junk : TransFlags) (i j : ℕ) :
    (T.buckets j).PacedTo cfg expires ((T.resume hash addr junk i).buckets j) := by
  unfold resume
  cases T.threads[i]? with
  | none => exact (h j).same hexp rfl
  | some th =>
    obtain ⟨msg, stage⟩ := th
    cases stage with
    | visitInvite => exact setBucket_paced h (fun _ => hexp) fun _ => prack_paced (h _) hexp
    | addTrans =>
      exact setBucket_paced h (fun _ => hexp) fun _ =>
        addTrans_paced (h _) hexp

theorem step_paced (hcfg : cfg.t1 .STIMER_G ≤ cfg.t2) (hok : PaceOk cfg T ev) (j : ℕ) :
    (T.buckets j).PacedTo cfg (Expires ev j) ((T.step hash ev).buckets j) := by
  cases ev with
  | receive addr junk msg => exact receive_paced h (fun _ => nofun)
  | resume addr junk i => exact resume_paced h (fun _ => nofun) addr junk i j
  | reply k env tr r =>
    exact setBucket_paced h (fun _ _ => nofun) fun _ =>
      reply_paced hcfg (h k) (fun _ => nofun)
  | timer k tr slot =>
    refine setBucket_paced h ?_ ?_
    · rintro hj a hexp
      cases hexp
      exact hj rfl
    · rintro rfl
      obtain ⟨hinv, hstep⟩ := fire_paced (h j) hok
      refine ⟨hinv, hstep.congr fun i a => ⟨?_, ?_⟩⟩
      · rintro ⟨rfl, rfl⟩
        rfl
      · rintro ⟨⟩
        exact ⟨rfl, rfl⟩

omit h in
theorem run_paceInv (hcfg : cfg.t1 .STIMER_G ≤ cfg.t2) {evs : List ServerEv}
    (hok : RunOk (step hash) (PaceOk cfg) init evs) (k : ℕ) :
    ((runFrom (step hash) init evs).buckets k).PaceInv cfg := by
  have hinit : ∀ k, (init.buckets k).PaceInv cfg :=
    fun _ => ⟨nodup_nil, fun _ ht => absurd ht not_mem_nil⟩
  exact RunOk.inv (I := fun T : ServerTable => ∀ k, (T.buckets k).PaceInv cfg)
    (fun hT hok k => (step_paced hT hcfg hok k).1) hinit hok k

end ServerTable

open ServerTable

/-- A retransmission of a reply. -/
def ServerLog.isRetransmit : ServerLog → Bool
  | .sent (.retransmit _) => true
  | _ => false

/-- A 183 reply is sent as a reliable one, and there is no PRACK before timer H expires. -/
def prackMissing : List ServerEv :=
  let invite := rcvd .INVITE "INVITE".toList none
  [.receive 1 ⟨false, false⟩ { invite with hdrs := rel100Hdrs }, .reply 0 ⟨true, true⟩ 1 rel183,
    .timer 0 1 TimerType.STIMER_H.slot]

/-- A 200 reply that is repeated once. -/
def okRepeated : List ServerEv :=
  [.receive 1 ⟨false, false⟩ (rcvd .INVITE "INVITE".toList none),
    .reply 0 ⟨true, true⟩ 1 ⟨200, [], [], []⟩, .timer 0 1 TimerType.STIMER_G.slot]

/-- An OPTIONS request that is repeated once. -/
def optionsRepeated : List (ℕ × TransEv) :=
  [sendTo [⟨1, []⟩] .OPTIONS "OPTIONS".toList, (0, .timer allSent 2 1 TimerType.STIMER_E.slot)]

end Sems
