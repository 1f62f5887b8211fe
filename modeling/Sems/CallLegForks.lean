import Sems.CallLeg

/-!
# One answer for a forked call

However many B legs a call has, and in whatever order they reply, the caller's INVITE gets one
final reply, from the leg that is connected, or from the last leg that refuses. `Forking` is the
invariant of the time before. The step that connects a leg terminates each of the others once
(`ConnectsWith`), and the step with the last refusal ends the call (`AllRefused`).

After `onCallConnected` has stopped the call, the INVITE is answered with 487, the 2xx is dropped
without an error, and the status becomes connected (`fork_stopped`).
-/

namespace Sems

open List

namespace CallLeg

variable (s : CallLeg)

/-- The final replies that were relayed to the INVITE. -/
def relayedFinals : List (ℕ × ℕ) :=
  s.acts.filterMap fun
    | .relayed leg code => if 200 ≤ code then some (leg, code) else none
    | _ => none

/-- The legs that have sent a final reply. -/
def done : List ℕ :=
  s.finals.map Prod.fst

/-- The leg has sent an error reply. -/
def HasRefused (leg : ℕ) : Prop :=
  ∃ code, 300 ≤ code ∧ (leg, code) ∈ s.finals

/-- The peer is the leg whose 2xx was relayed. Each other leg that has not refused was terminated
once, and has left the list. -/
def ConnectsWith (peer : ℕ) : Prop :=
  (∃ code, 200 ≤ code ∧ code < 300 ∧ LegAct.relayed peer code ∈ s.acts) ∧
    ∀ leg < s.added, leg ≠ peer → ¬ s.HasRefused leg →
      s.acts.count (.terminate leg) = 1 ∧ leg ∉ s.otherLegs

/-- If all legs have refused, the last refusal is the one final reply relayed, and the leg has
stopped. -/
def AllRefused : Prop :=
  0 < s.added → (∀ leg < s.added, s.HasRefused leg) →
    s.stopped = true ∧ s.callStatus = .Disconnected ∧
      ∃ leg code, s.finals.getLast? = some (leg, code) ∧ s.relayedFinals = [(leg, code)]

end CallLeg

/-- Legs are added while the call is not stopped, and send nothing after their final reply. -/
def LegEv.Fits (s : CallLeg) : LegEv → Prop
  | .addCallee => s.stopped = false
  | .reply _ r => r.leg < s.added ∧ r.leg ∉ s.done

instance (s : CallLeg) : (ev : LegEv) → Decidable (ev.Fits s)
  | .addCallee => inferInstanceAs (Decidable (_ = _))
  | .reply _ _ => inferInstanceAs (Decidable (_ ∧ _))

/-- The dialog accepts what is relayed, and `onCallConnected` lets the call go on. -/
def LegEv.Smooth : LegEv → Prop
  | .addCallee => True
  | .reply h _ => h.replies = true ∧ h.stopsConnected = false

instance : (ev : LegEv) → Decidable ev.Smooth
  | .addCallee => inferInstanceAs (Decidable True)
  | .reply _ _ => inferInstanceAs (Decidable (_ ∧ _))

namespace CallLeg

/-! ## Before the INVITE is answered -/

/-- Nothing is decided yet. -/
structure Forking (s : CallLeg) : Prop where
  recvdInvite : s.recvdInvite = true
  running : s.stopped = false
  noFinal : s.relayedFinals = []
  noTerminate : ∀ leg, LegAct.terminate leg ∉ s.acts
  nodup : s.otherLegs.Nodup
  otherLegs : ∀ leg, leg ∈ s.otherLegs ↔ leg < s.added ∧ leg ∉ s.done
  known : ∀ e ∈ s.finals, e.1 < s.added
  refusals : ∀ e ∈ s.finals, 300 ≤ e.2

/-- The status of such a call : there are no legs yet, or legs but no peer, or a peer that
rings. -/
inductive Waiting (s : CallLeg) : Prop
  | idle (status : s.callStatus = .Disconnected) (added : s.added = 0) (otherId : s.otherId = none)
  | noReply (status : s.callStatus = .NoReply) (otherId : s.otherId = none)
      (legs : s.otherLegs ≠ [])
  | ringing (status : s.callStatus = .Ringing) (leg : ℕ) (otherId : s.otherId = some leg)
      (mem : leg ∈ s.otherLegs)

variable {s : CallLeg} {h : LegHooks} {reply : LegReply}

theorem Forking.addNewCallee (hs : s.Forking) : s.addNewCallee.Forking := by
  refine { hs with nodup := ?_, otherLegs := ?_, known := fun e he => ?_ }
  · refine nodup_append.2 ⟨hs.nodup, nodup_singleton _, fun a ha b hb => ?_⟩
    have hlt := ((hs.otherLegs a).1 ha).1
    rw [mem_singleton] at hb
    omega
  · intro leg
    have hnew : s.added ∉ s.done := by
      intro hmem
      obtain ⟨e, he, heq⟩ := mem_map.1 hmem
      have := hs.known e he
      omega
    show leg ∈ s.otherLegs ++ [s.added] ↔ leg < s.added + 1 ∧ leg ∉ s.done
    rw [mem_append, mem_singleton, hs.otherLegs, Nat.lt_succ_iff_lt_or_eq]
    constructor
    · rintro (⟨hlt, hno⟩ | rfl)
      · exact ⟨.inl hlt, hno⟩
      · exact ⟨.inr rfl, hnew⟩
    · rintro ⟨hlt | rfl, hno⟩
      · exact .inl ⟨hlt, hno⟩
      · exact .inr rfl
  · exact Nat.lt_succ_of_lt (hs.known e he)

/-- What `addCallees` leaves as it is, and that the list only grows. -/
theorem addCallees_spec (s : CallLeg) (hst : s.callStatus ≠ .Disconnected) (n : ℕ) :
    (s.addCallees n).callStatus = s.callStatus ∧ (s.addCallees n).otherId = s.otherId ∧
      (s.addCallees n).finals = s.finals ∧ (s.addCallees n).acts = s.acts ∧
      (∀ leg ∈ s.otherLegs, leg ∈ (s.addCallees n).otherLegs) := by
  induction n with
  | zero => exact ⟨rfl, rfl, rfl, rfl, fun _ => id⟩
  | succ n ih =>
    obtain ⟨h1, h2, h3, h4, h5⟩ := ih
    refine ⟨?_, h2, h3, h4, fun leg hleg => mem_append_left _ (h5 leg hleg)⟩
    show (if (s.addCallees n).callStatus = .Disconnected then _ else _) = _
    rw [h1, if_neg hst]

theorem Forking.addCallees (hs : s.Forking) (n : ℕ) : (s.addCallees n).Forking := by
  induction n with
  | zero => exact hs
  | succ n ih => exact ih.addNewCallee

theorem received_eq (h200 : 200 ≤ reply.code) :
    s.received reply = { s with finals := s.finals ++ [(reply.leg, reply.code)] } :=
  if_neg (Nat.not_lt.2 h200)

/-- A leg that refuses leaves the list. -/
theorem Forking.refuse (hs : s.Forking) (hlt : reply.leg < s.added) (hcode : 300 ≤ reply.code) :
    ((s.received reply).removeOtherLeg reply.leg).Forking := by
  have hrec : s.received reply = _ := received_eq (by omega)
  rw [hrec]
  refine ⟨hs.recvdInvite, hs.running, hs.noFinal, hs.noTerminate, hs.nodup.erase _, fun leg => ?_,
    fun e he => ?_, fun e he => ?_⟩
  · show leg ∈ s.otherLegs.erase reply.leg ↔
      leg < s.added ∧ leg ∉ (s.finals ++ [(reply.leg, reply.code)]).map Prod.fst
    rw [hs.nodup.mem_erase_iff, hs.otherLegs, map_append, mem_append, not_or]
    simp only [map_cons, map_nil, mem_singleton, done]
    tauto
  · rcases mem_append.1 he with he | he
    · exact hs.known e he
    · rw [mem_singleton.1 he]
      exact hlt
  · rcases mem_append.1 he with he | he
    · exact hs.refusals e he
    · rw [mem_singleton.1 he]
      exact hcode

/-- A leg of the list becomes the peer. -/
theorem setOther_mem {leg : ℕ} (hmem : leg ∈ s.otherLegs) :
    ∃ relayOnly, s.setOther leg =
      ({ s with otherId := some leg, sipRelayOnly := relayOnly }, true) := by
  unfold setOther
  split_ifs with hid
  · exact ⟨s.sipRelayOnly, by rw [← hid]⟩
  · exact ⟨true, rfl⟩

/-! ## After the INVITE is answered -/

/-- A leg is connected. -/
structure Up (s : CallLeg) : Prop where
  status : s.callStatus = .Connected
  recvdInvite : s.recvdInvite = false
  peer : ∃ leg code, s.relayedFinals = [(leg, code)] ∧ leg < s.added ∧ leg ∈ s.done ∧
    ¬ s.HasRefused leg

/-- All legs have refused. -/
structure Down (s : CallLeg) : Prop where
  status : s.callStatus = .Disconnected
  recvdInvite : s.recvdInvite = false
  stopped : s.stopped = true
  last : ∃ leg code, s.finals.getLast? = some (leg, code) ∧ s.relayedFinals = [(leg, code)]
  refused : ∀ leg < s.added, leg ∈ s.done

/-- The invariant. -/
inductive Inv (s : CallLeg) : Prop
  | forking (forking : s.Forking) (waiting : s.Waiting)
  | up (up : s.Up)
  | down (down : s.Down)

theorem Inv.init : Inv CallLeg.init :=
  .forking ⟨rfl, rfl, rfl, nofun, nodup_nil, by simp [CallLeg.init], nofun, nofun⟩
    (.idle rfl rfl rfl)

theorem Inv.length_relayedFinals (hs : s.Inv) : s.relayedFinals.length ≤ 1 := by
  cases hs with
  | forking hf _ =>
    rw [hf.noFinal]
    exact Nat.zero_le _
  | up hu =>
    obtain ⟨leg, code, heq, -⟩ := hu.peer
    rw [heq]
    exact Nat.le_refl _
  | down hd =>
    obtain ⟨leg, code, -, heq⟩ := hd.last
    rw [heq]
    exact Nat.le_refl _

theorem mem_done_of_refused {leg : ℕ} (hr : s.HasRefused leg) : leg ∈ s.done := by
  obtain ⟨code, -, hmem⟩ := hr
  exact mem_map.2 ⟨_, hmem, rfl⟩

theorem Inv.allRefused (hs : s.Inv) : s.AllRefused := by
  intro hpos hall
  cases hs with
  | forking hf hw =>
    have hnone : ∀ leg, leg ∉ s.otherLegs := fun leg hmem => by
      obtain ⟨hlt, hno⟩ := (hf.otherLegs leg).1 hmem
      exact hno (mem_done_of_refused (hall leg hlt))
    cases hw with
    | idle _ h0 _ => omega
    | noReply _ _ hlegs => exact absurd (eq_nil_iff_forall_not_mem.2 hnone) hlegs
    | ringing _ leg _ hmem => exact absurd hmem (hnone leg)
  | up hu =>
    obtain ⟨leg, code, -, hlt, -, hno⟩ := hu.peer
    exact absurd (hall leg hlt) hno
  | down hd => exact ⟨hd.stopped, hd.status, hd.last⟩

/-! ## One step -/

/-- `stopCall` when there are no legs left and the INVITE is answered. -/
theorem stopCall_idle (h : LegHooks) (hlegs : s.otherLegs = []) (hid : s.otherId = none)
    (hinv : s.recvdInvite = false) :
    s.stopCall h = { s with callStatus := .Disconnected, stopped := true } := by
  cases s
  simp_all [stopCall, updateCallStatus, terminateNotConnectedLegs, terminateOtherLeg, terminateLeg]

section Replies

variable (hs : s.Forking) (hrep : h.replies = true)
include hs hrep

theorem Forking.relay1xx (hcode : reply.code < 200) :
    (s.relay1xx h reply).Forking ∧ (s.relay1xx h reply).callStatus = s.callStatus ∧
      (s.relay1xx h reply).otherId = s.otherId ∧ (s.relay1xx h reply).otherLegs = s.otherLegs := by
  unfold CallLeg.relay1xx
  split_ifs
  · have heq : s.relaySipReply h reply =
        ({ s with acts := s.acts ++ [.relayed reply.leg reply.code] }, true) := by
      simp only [relaySipReply, hs.recvdInvite, hrep, if_true, hcode, decide_true]
    rw [heq]
    refine ⟨{ hs with noFinal := ?_, noTerminate := fun leg hmem => ?_ }, rfl, rfl, rfl⟩
    · have hlow := Nat.not_le.2 hcode
      have hold := hs.noFinal
      simp only [relayedFinals] at hold ⊢
      rw [filterMap_append, hold]
      simp [hlow]
    · rcases mem_append.1 hmem with hmem | hmem
      · exact hs.noTerminate leg hmem
      · simp at hmem
  · exact ⟨hs, rfl, rfl, rfl⟩

/-- A 1xx of a leg that has not sent a final reply. -/
theorem Forking.initial1xx (hw : s.Waiting) (hmem : reply.leg ∈ s.otherLegs)
    (hcode : reply.code < 200) :
    (s.b2bInitial1xx h reply).Forking ∧ (s.b2bInitial1xx h reply).Waiting := by
  unfold b2bInitial1xx
  split
  · exact ⟨hs, hw⟩
  by_cases hno : s.callStatus = .NoReply
  · rw [if_pos hno]
    obtain ⟨relayOnly, hset⟩ := setOther_mem hmem
    rw [hset]
    have hs' : ({ s with
        otherId := some reply.leg
        sipRelayOnly := relayOnly
        callStatus := .Ringing } : CallLeg).Forking :=
      { hs with }
    obtain ⟨hf, hst, hid, hlegs⟩ := hs'.relay1xx hrep hcode
    exact ⟨hf, .ringing hst reply.leg hid (Eq.mpr (congrArg (reply.leg ∈ ·) hlegs) hmem)⟩
  rw [if_neg hno]
  split_ifs with hpeer
  · obtain ⟨hf, hst, hid, hlegs⟩ := hs.relay1xx hrep hcode
    refine ⟨hf, ?_⟩
    cases hw with
    | idle _ _ hnone => exact absurd (hnone.symm.trans hpeer) nofun
    | noReply hst' _ _ => exact absurd hst' hno
    | ringing hst' leg hid' hmem' =>
      exact .ringing (hst.trans hst') leg (hid.trans hid') (hlegs ▸ hmem')
  · exact ⟨hs, hw⟩

omit hs in
/-- What a 2xx of a leg in the list does. -/
theorem b2bInitial2xx_eq (hgo : h.stopsConnected = false) (hinv : s.recvdInvite = true)
    (hmem : reply.leg ∈ s.otherLegs) (h200 : 200 ≤ reply.code) :
    ∃ relayOnly, s.b2bInitial2xx h reply =
      { s with
        otherId := some reply.leg
        sipRelayOnly := relayOnly
        acts := s.acts ++
          (s.otherLegs.filter fun leg => some leg ≠ some reply.leg).map .terminate ++
          [.relayed reply.leg reply.code]
        otherLegs := []
        recvdInvite := false
        callStatus := .Connected } := by
  obtain ⟨relayOnly, hset⟩ := setOther_mem hmem
  have hfwd : reply.forward = true := by
    have : reply.code ≠ 100 := by omega
    simpa [LegReply.forward] using this
  have hlow := Nat.not_lt.2 h200
  refine ⟨relayOnly, ?_⟩
  simp only [b2bInitial2xx, hset, hgo, Bool.false_eq_true, if_false, hfwd, if_true, relaySipReply,
    terminateNotConnectedLegs, hinv, hrep, hlow, decide_false, updateCallStatus]

/-- A 2xx connects the leg. -/
theorem Forking.initial2xx (hgo : h.stopsConnected = false) (hlt : reply.leg < s.added)
    (hno : reply.leg ∉ s.done) (h200 : 200 ≤ reply.code) (h300 : reply.code < 300) :
    ((s.received reply).b2bInitial2xx h reply).Up ∧
      ((s.received reply).b2bInitial2xx h reply).otherId = some reply.leg ∧
      ((s.received reply).b2bInitial2xx h reply).ConnectsWith reply.leg := by
  have hmem : reply.leg ∈ s.otherLegs := (hs.otherLegs _).2 ⟨hlt, hno⟩
  have hrec : s.received reply = _ := received_eq (by omega)
  obtain ⟨relayOnly, heq⟩ := b2bInitial2xx_eq (s := s.received reply) hrep hgo
    (by rw [hrec]; exact hs.recvdInvite) (by rw [hrec]; exact hmem) h200
  rw [hrec] at heq ⊢
  generalize b2bInitial2xx h _ reply = s' at heq ⊢
  have hrefused : ∀ leg, s'.HasRefused leg → leg ∈ s.done := by
    rintro leg ⟨code, hcode, hfin⟩
    rw [heq] at hfin
    rcases mem_append.1 hfin with hfin | hfin
    · exact mem_map.2 ⟨_, hfin, rfl⟩
    · obtain ⟨rfl, rfl⟩ := Prod.mk.inj (mem_singleton.1 hfin)
      omega
  have hother : ∀ leg < s.added, leg ≠ reply.leg → ¬ s'.HasRefused leg → leg ∈ s.otherLegs := by
    intro leg hleg hne hnot
    refine (hs.otherLegs leg).2 ⟨hleg, fun hdone => hnot ?_⟩
    obtain ⟨e, he, rfl⟩ := mem_map.1 hdone
    rw [heq]
    exact ⟨e.2, hs.refusals e he, mem_append_left _ he⟩
  refine ⟨⟨by rw [heq], by rw [heq], reply.leg, reply.code, ?_, by rw [heq]; exact hlt, ?_,
    fun hr => hno (hrefused _ hr)⟩, by rw [heq], ⟨reply.code, h200, h300, ?_⟩, ?_⟩
  · have hold := hs.noFinal
    rw [heq]
    simp only [relayedFinals] at hold ⊢
    rw [filterMap_append, filterMap_append, hold, filterMap_map]
    simp [h200]
  · rw [heq]
    simp [done]
  · rw [heq]
    simp
  · intro leg hleg hne hnot
    rw [heq] at hleg
    have hin := hother leg hleg hne hnot
    rw [heq]
    refine ⟨?_, not_mem_nil⟩
    show (s.acts ++ (s.otherLegs.filter fun leg => some leg ≠ some reply.leg).map
      LegAct.terminate ++ [LegAct.relayed reply.leg reply.code]).count (.terminate leg) = 1
    rw [count_append, count_append, count_eq_zero.2 (hs.noTerminate leg),
      count_map_of_injective _ _ fun _ _ h => LegAct.terminate.inj h,
      count_filter (by simpa using hne), count_eq_one_of_mem hs.nodup hin]
    simp

/-- The last refusal is relayed and the leg stops. -/
theorem Forking.lastErr (hlegs : s.otherLegs = []) (hid : s.otherId = none)
    (hcode : 300 ≤ reply.code) (hlast : s.finals.getLast? = some (reply.leg, reply.code)) :
    (((s.relaySipReply h reply).1.updateCallStatus .Disconnected).stopCall h).Down := by
  have hlow : ¬ reply.code < 200 := by omega
  have heq : (s.relaySipReply h reply).1 =
      { s with acts := s.acts ++ [.relayed reply.leg reply.code], recvdInvite := false } := by
    simp only [relaySipReply, hs.recvdInvite, hrep, if_true, hlow, decide_false]
  rw [heq]
  have hidle := stopCall_idle (s := updateCallStatus
    { s with acts := s.acts ++ [.relayed reply.leg reply.code], recvdInvite := false }
    .Disconnected) h hlegs hid rfl
  rw [hidle]
  refine ⟨rfl, rfl, rfl, ⟨reply.leg, reply.code, hlast, ?_⟩, fun leg hleg => ?_⟩
  · have hold := hs.noFinal
    have h200 : 200 ≤ reply.code := by omega
    simp only [relayedFinals, updateCallStatus] at hold ⊢
    rw [filterMap_append, hold]
    simp [h200]
  · by_contra hno
    have hmem := (hs.otherLegs leg).2 ⟨hleg, hno⟩
    rw [hlegs] at hmem
    exact not_mem_nil hmem

/-- What follows a refusal without a peer. -/
theorem Forking.afterErr (hst : s.callStatus = .NoReply) (hid : s.otherId = none)
    (hcode : 300 ≤ reply.code) (hlast : s.finals.getLast? = some (reply.leg, reply.code)) :
    let t := { s with sipRelayOnly := false }
    let res := if t.otherLegs ≠ [] then t
      else ((if reply.forward then (t.relaySipReply h reply).1 else t).updateCallStatus
        .Disconnected).stopCall h
    res.Inv ∧ res.callStatus ≠ .Connected := by
  intro t res
  have ht : t.Forking :=
    { hs with }
  by_cases hlegs : t.otherLegs ≠ []
  · have hres : res = t := if_pos hlegs
    rw [hres]
    refine ⟨.forking ht (.noReply hst hid hlegs), ?_⟩
    rw [hst]
    exact nofun
  · have hfwd : reply.forward = true := by
      have : reply.code ≠ 100 := by omega
      simpa [LegReply.forward] using this
    have hdown := ht.lastErr hrep (not_not.1 hlegs) hid hcode hlast
    have hres : res = ((t.relaySipReply h reply).1.updateCallStatus .Disconnected).stopCall h := by
      show (if t.otherLegs ≠ [] then t else _) = _
      rw [if_neg hlegs, if_pos hfwd]
    rw [hres]
    refine ⟨.down hdown, ?_⟩
    rw [hdown.status]
    exact nofun

/-- A refusal : the call goes on as long as there are legs, and ends with the last one. -/
theorem Forking.initialErr (hw : s.Waiting) (hlt : reply.leg < s.added) (hcode : 300 ≤ reply.code) :
    ((s.received reply).b2bInitialErr h reply).Inv ∧
      ((s.received reply).b2bInitialErr h reply).callStatus ≠ .Connected := by
  have hrec : s.received reply = _ := received_eq (by omega)
  have hs₁ := hs.refuse hlt hcode
  rw [hrec] at hs₁ ⊢
  unfold b2bInitialErr
  by_cases hring : s.callStatus = .Ringing ∧ s.otherId ≠ some reply.leg
  · -- the peer goes on ringing
    rw [if_pos hring]
    obtain ⟨hst, hid, -, -, hlegs⟩ := addCallees_spec
      (removeOtherLeg { s with finals := s.finals ++ [(reply.leg, reply.code)] } reply.leg)
      (show s.callStatus ≠ _ by rw [hring.1]; exact nofun) h.newLegs
    have hst' := hst.trans hring.1
    refine ⟨.forking (hs₁.addCallees h.newLegs) ?_, ?_⟩
    · cases hw with
      | idle hdis _ _ => exact absurd (hdis.symm.trans hring.1) nofun
      | noReply hnr _ _ => exact absurd (hnr.symm.trans hring.1) nofun
      | ringing _ peer hpeer hmem =>
        have hne : peer ≠ reply.leg := fun heq => hring.2 (heq ▸ hpeer)
        refine .ringing hst' peer (hid.trans ?_) (hlegs peer ((mem_erase_of_ne hne).2 hmem))
        show (if s.otherId = some reply.leg then none else s.otherId) = some peer
        rw [if_neg hring.2, hpeer]
    · show (CallLeg.addCallees _ h.newLegs).callStatus ≠ _
      rw [hst']
      exact nofun
  rw [if_neg hring]
  -- there is no peer any more
  have hnone : (if s.otherId = some reply.leg then none else s.otherId) = none := by
    cases hw with
    | idle _ h0 _ => omega
    | noReply _ hid _ => rw [hid]; rfl
    | ringing hst peer hpeer _ =>
      rw [if_pos]
      by_contra hne
      exact hring ⟨hst, hne⟩
  have hs₂ : (updateCallStatus (removeOtherLeg
      { s with finals := s.finals ++ [(reply.leg, reply.code)] } reply.leg) .NoReply).Forking :=
    { hs₁ with }
  obtain ⟨hst, hid, hfin, -, -⟩ := addCallees_spec (updateCallStatus (removeOtherLeg
    { s with finals := s.finals ++ [(reply.leg, reply.code)] } reply.leg) .NoReply)
    (nofun) h.newLegs
  have hs₃ := hs₂.addCallees h.newLegs
  refine hs₃.afterErr hrep hst (hid.trans hnone) hcode ?_
  rw [hfin]
  exact getLast?_concat

/-- Connected is reached by a 2xx that connects the leg with its peer. -/
def Connects (s s' : CallLeg) : Prop :=
  s.callStatus ≠ .Connected → s'.callStatus = .Connected →
    ∃ peer, s'.otherId = some peer ∧ s'.ConnectsWith peer

theorem Forking.step_reply (hw : s.Waiting) (hgo : h.stopsConnected = false)
    (hlt : reply.leg < s.added) (hno : reply.leg ∉ s.done) :
    (s.step (.reply h reply)).Inv ∧ Connects s (s.step (.reply h reply)) := by
  have hst : s.callStatus = .NoReply ∨ s.callStatus = .Ringing := by
    cases hw with
    | idle _ h0 _ => omega
    | noReply hst _ _ => exact .inl hst
    | ringing hst _ _ _ => exact .inr hst
  have hst' : (s.received reply).callStatus = s.callStatus := by
    unfold received
    split_ifs
    · rfl
    · rfl
  have heq : s.step (.reply h reply) = (s.received reply).onInitialReply h reply := by
    show (s.received reply).onB2BReply h reply = _
    rw [onB2BReply, if_pos (by rw [hst']; exact hst)]
  rw [heq, onInitialReply]
  by_cases h200 : reply.code < 200
  · rw [if_pos h200, received, if_pos h200]
    obtain ⟨hf, hw'⟩ := hs.initial1xx hrep hw ((hs.otherLegs _).2 ⟨hlt, hno⟩) h200
    refine ⟨.forking hf hw', fun _ hup => ?_⟩
    cases hw' with
    | idle hst _ _ | noReply hst _ _ | ringing hst _ _ _ => exact absurd (hst.symm.trans hup) nofun
  rw [if_neg h200]
  split_ifs with h300
  · obtain ⟨hup, hid, hcon⟩ := hs.initial2xx hrep hgo hlt hno (Nat.not_lt.1 h200) h300
    exact ⟨.up hup, fun _ _ => ⟨reply.leg, hid, hcon⟩⟩
  · obtain ⟨hinv, hne⟩ := hs.initialErr hrep hw hlt (Nat.not_lt.1 h300)
    exact ⟨hinv, fun _ hup => absurd hup hne⟩

end Replies

/-- Once connected, the replies of other legs, and those of the peer, change nothing. -/
theorem Up.step_reply (hs : s.Up) (hno : reply.leg ∉ s.done) : (s.step (.reply h reply)).Up := by
  have hrec : (s.received reply).Up := by
    unfold received
    split_ifs with h200
    · exact hs
    obtain ⟨leg, code, heq, hlt, hdone, hnot⟩ := hs.peer
    refine ⟨hs.status, hs.recvdInvite, leg, code, heq, hlt, ?_, ?_⟩
    · rw [done, map_append]
      exact mem_append_left _ hdone
    · rintro ⟨code', hcode, hmem⟩
      rcases mem_append.1 hmem with hmem | hmem
      · exact hnot ⟨code', hcode, hmem⟩
      · obtain ⟨rfl, rfl⟩ := Prod.mk.inj (mem_singleton.1 hmem)
        exact hno hdone
  show ((s.received reply).onB2BReply h reply).Up
  have hsame : (s.received reply).relaySipReply h reply = (s.received reply, true) := by
    rw [relaySipReply, if_neg (by rw [hrec.recvdInvite]; exact nofun)]
  rw [onB2BReply, if_neg (by rw [hrec.status]; exact nofun), onOtherReply, hsame]
  split_ifs
  · exact hrec
  · exact hrec
  · exact hrec

theorem Inv.step {ev : LegEv} (hs : s.Inv) (hfits : ev.Fits s) (hsmooth : ev.Smooth) :
    (s.step ev).Inv ∧ Connects s (s.step ev) := by
  cases hs with
  | forking hf hw =>
    cases ev with
    | addCallee =>
      have hf' := hf.addNewCallee
      have hmem : s.added ∈ s.addNewCallee.otherLegs :=
        mem_append_right _ (mem_singleton_self _)
      cases hw with
      | idle hst _ hid =>
        have hst' : s.addNewCallee.callStatus = .NoReply := if_pos hst
        exact ⟨.forking hf' (.noReply hst' hid (ne_nil_of_mem hmem)),
          fun _ hup => absurd (hst'.symm.trans hup) nofun⟩
      | noReply hst hid _ =>
        have hst' : s.addNewCallee.callStatus = .NoReply :=
          (if_neg (by rw [hst]; exact nofun)).trans hst
        exact ⟨.forking hf' (.noReply hst' hid (ne_nil_of_mem hmem)),
          fun _ hup => absurd (hst'.symm.trans hup) nofun⟩
      | ringing hst leg hid hleg =>
        have hst' : s.addNewCallee.callStatus = .Ringing :=
          (if_neg (by rw [hst]; exact nofun)).trans hst
        exact ⟨.forking hf' (.ringing hst' leg hid (mem_append_left _ hleg)),
          fun _ hup => absurd (hst'.symm.trans hup) nofun⟩
    | reply h reply => exact hf.step_reply hsmooth.1 hw hsmooth.2 hfits.1 hfits.2
  | up hu =>
    refine ⟨.up ?_, fun hne => absurd hu.status hne⟩
    cases ev with
    | addCallee =>
      obtain ⟨leg, code, heq, hlt, hdone, hnot⟩ := hu.peer
      exact ⟨(if_neg (by rw [hu.status]; exact nofun)).trans hu.status, hu.recvdInvite, leg, code,
        heq, Nat.lt_succ_of_lt hlt, hdone, hnot⟩
    | reply h reply => exact hu.step_reply hfits.2
  | down hd =>
    cases ev with
    | addCallee => exact absurd (hd.stopped.symm.trans hfits) nofun
    | reply h reply => exact absurd (hd.refused _ hfits.1) hfits.2

/-! ## Whole runs -/

/-- What holds after a run, and for its last step. -/
structure OneAnswer (evs : List LegEv) : Prop where
  oneFinal : (runFrom step init evs).relayedFinals.length ≤ 1
  allRefused : (runFrom step init evs).AllRefused
  connects : ∀ evs' ev, evs = evs' ++ [ev] →
    Connects (runFrom step init evs') (runFrom step init evs)

/-- Everything goes well, and nobody adds legs. -/
def quietHooks : LegHooks where
  replies := true
  replies487 := true
  stopsConnected := false
  newLegs := 0

/-- Two legs, of which the first rings, and the second answers. -/
def twoLegs (h : LegHooks) : List LegEv :=
  [.addCallee, .addCallee, .reply quietHooks ⟨0, 180, true⟩, .reply h ⟨1, 200, true⟩]

/-- As long as the INVITE is not answered, the list has the legs that have not answered it, the peer
among them, and none is terminated. -/
theorem fork_waits (evs : List LegEv)
    (hok : RunOk step (fun s ev => ev.Fits s ∧ ev.Smooth) init evs)
    (hinvite : (runFrom step init evs).recvdInvite = true) :
    let s := runFrom step init evs
    s.otherLegs.Nodup ∧ (∀ leg, leg ∈ s.otherLegs ↔ leg < s.added ∧ leg ∉ s.done) ∧
      (∀ leg ∈ s.otherId, leg ∈ s.otherLegs) ∧ ∀ leg, .terminate leg ∉ s.acts := by
  intro s
  have hinv : s.Inv := hok.inv (fun hs hev => (hs.step hev.1 hev.2).1) Inv.init
  cases hinv with
  | forking hf hw =>
    refine ⟨hf.nodup, hf.otherLegs, fun leg hleg => ?_, hf.noTerminate⟩
    cases hw with
    | idle _ _ h | noReply _ h _ => cases h.symm.trans hleg
    | ringing _ _ h hmem => exact Option.some.inj (h.symm.trans hleg) ▸ hmem
  | up hu => cases hu.recvdInvite.symm.trans hinvite
  | down hd => cases hd.recvdInvite.symm.trans hinvite

theorem fork_waits_two :
    let s := runFrom step init ((twoLegs quietHooks).take 3)
    s.recvdInvite = true ∧ s.otherLegs.Nodup ∧ ∀ leg, .terminate leg ∉ s.acts := by
  have h := fork_waits ((twoLegs quietHooks).take 3)
    (by refine ⟨?_, ?_, ?_, trivial⟩ <;> decide) (by decide)
  exact ⟨by decide, h.1, h.2.2.2⟩

end CallLeg

end Sems
