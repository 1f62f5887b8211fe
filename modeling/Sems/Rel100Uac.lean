import Sems.Rel100
import Sems.Runs

/-!
# Runs of a UAC with reliable provisional replies

A UAC passes a reliable provisional reply to `onInvite1xxRel` unless it is a retransmission. The
RSeq numbers start anew with every INVITE, but `rseqLast` is one number for the whole dialog. So
the first replies to a re-INVITE are taken for retransmissions when their numbers are not above
those of an INVITE before (`UacRel.passesNew_iff`).
-/

namespace Sems

open Am100rel

/-- A reply to the UAC, with the status of the dialog when it comes. -/
structure UacEv where
  status : DlgStatus
  reply : AmSipReply

/-- `accepted` are the CSeq and RSeq numbers of the replies passed to `onInvite1xxRel`. -/
structure UacRel where
  rel : Am100rel
  accepted : List (BitVec 32 × BitVec 32)

/-- A reliable provisional reply to an INVITE. -/
def AmSipReply.Reliable (reply : AmSipReply) : Prop :=
  100 < reply.code ∧ reply.code < 200 ∧ reply.cseqMethod = .INVITE ∧
    lists100rel (getHeader reply.hdrs SIP_HDR_REQUIRE) = true ∧ reply.rseq ≠ 0

namespace UacRel

def init (reliable1xx : Rel100State) : UacRel :=
  ⟨.init reliable1xx, []⟩

/-- The reply is passed to `onInvite1xxRel`. -/
def passes (u : UacRel) (ev : UacEv) : Bool :=
  (u.rel.onReplyIn ev.status ev.reply).2.1 = .onInvite1xxRel

def step (u : UacRel) (ev : UacEv) : UacRel where
  rel := (u.rel.onReplyIn ev.status ev.reply).1
  accepted := if u.passes ev then u.accepted ++ [(ev.reply.cseq, ev.reply.rseq)] else u.accepted

/-- The number of the reply is above those accepted in its transaction. -/
def IsNew (u : UacRel) (reply : AmSipReply) : Prop :=
  ∀ p ∈ u.accepted, p.1 = reply.cseq → p.2 < reply.rseq

/-- A reliable reply is passed if it is new, and only then. -/
def PassesNew (u : UacRel) (ev : UacEv) : Prop :=
  ev.reply.Reliable → (u.passes ev = true ↔ u.IsNew ev.reply)

end UacRel

/-! ## One reply -/

/-- The extension is in use. -/
def Am100rel.active (r : Am100rel) : Bool :=
  r.reliable1xx = .supported || r.reliable1xx = .require

/-- Replies are looked at in this status. -/
def DlgStatus.expectsReply (status : DlgStatus) : Bool :=
  status = .Trying || status = .Proceeding || status = .Early || status = .Connected

namespace Am100rel

variable {r : Am100rel} {status : DlgStatus} {reply : AmSipReply}

/-- The last number after a reply. -/
def Tracks (r : Am100rel) (reply : AmSipReply) (out : Am100rel × Rel100Action × Bool) : Prop :=
  (out.2.1 = .onInvite1xxRel ∧ out.1.rseqLast = reply.rseq ∧ r.rseqLast < reply.rseq) ∨
    (out.2.1 ≠ .onInvite1xxRel ∧ out.1.rseqLast = r.rseqLast)

theorem onRel1xxIn_tracks : r.Tracks reply (r.onRel1xxIn reply) := by
  unfold onRel1xxIn
  split_ifs with hbad hlt
  · exact .inr ⟨nofun, rfl⟩
  · exact .inl ⟨rfl, rfl, hlt⟩
  · exact .inr ⟨nofun, rfl⟩

theorem onReplyIn_tracks (r : Am100rel) (status : DlgStatus) (reply : AmSipReply) :
    r.Tracks reply (r.onReplyIn status reply) := by
  have hkept : ∀ (action : Rel100Action) (goesOn : Bool), action ≠ .onInvite1xxRel →
      r.Tracks reply (r, action, goesOn) := fun _ _ h => .inr ⟨h, rfl⟩
  unfold onReplyIn
  split
  · exact hkept _ _ nofun
  split
  · exact hkept _ _ nofun
  split
  · cases r.reliable1xx with
    | supported =>
      dsimp only
      split_ifs
      · exact onRel1xxIn_tracks
      · exact hkept _ _ nofun
    | require => exact onRel1xxIn_tracks
    | disabled | ignored => exact hkept _ _ nofun
  · split_ifs
    all_goals exact hkept _ _ nofun

/-- A reliable reply is passed on if its number is above the last one. -/
theorem onReplyIn_reliable (h : reply.Reliable) :
    (r.onReplyIn status reply).2.1 = .onInvite1xxRel ↔
      r.active = true ∧ status.expectsReply = true ∧ r.rseqLast < reply.rseq := by
  obtain ⟨h100, h200, hinvite, hrequire, hrseq⟩ := h
  have hrel : ∀ r' : Am100rel, (r'.onRel1xxIn reply).2.1 = .onInvite1xxRel ↔
      r'.rseqLast < reply.rseq := by
    intro r'
    unfold onRel1xxIn
    rw [hrequire, beq_eq_false_iff_ne.2 hrseq]
    split_ifs with hbad hlt
    · exact absurd hbad (by decide)
    · exact ⟨fun _ => hlt, fun _ => rfl⟩
    · exact ⟨nofun, fun hlt' => absurd hlt' hlt⟩
  have hexpects : status.expectsReply = false ↔ status ≠ .Trying ∧ status ≠ .Proceeding ∧
      status ≠ .Early ∧ status ≠ .Connected := by
    cases status
    all_goals decide
  unfold onReplyIn active
  by_cases hignored : r.reliable1xx = .ignored
  · rw [if_pos hignored, hignored]
    simp
  rw [if_neg hignored]
  cases hstatus : status.expectsReply with
  | false =>
    rw [if_pos (hexpects.1 hstatus)]
    simp
  | true =>
    have hnot : ¬ (status ≠ .Trying ∧ status ≠ .Proceeding ∧ status ≠ .Early ∧
        status ≠ .Connected) := by
      intro hne
      rw [hexpects.2 hne] at hstatus
      exact Bool.false_ne_true hstatus
    rw [if_neg hnot, if_pos ⟨h100, h200, hinvite⟩]
    cases hstate : r.reliable1xx with
    | supported => simp [hrequire, hrel]
    | require => simp [hrel]
    | disabled => simp
    | ignored => exact absurd hstate hignored

end Am100rel

/-! ## Runs -/

namespace UacRel

variable {u : UacRel} {ev : UacEv}

/-- No number that was accepted is above the last one. -/
def Bounded (u : UacRel) : Prop :=
  ∀ p ∈ u.accepted, p.2 ≤ u.rel.rseqLast

theorem Bounded.step (h : u.Bounded) : (u.step ev).Bounded := by
  intro p hp
  unfold UacRel.step passes at hp ⊢
  dsimp only at hp ⊢
  rcases onReplyIn_tracks u.rel ev.status ev.reply with ⟨hpass, hlast, hlt⟩ | ⟨hpass, hlast⟩
  · rw [if_pos (decide_eq_true hpass), List.mem_append, List.mem_singleton] at hp
    rw [hlast]
    rcases hp with hp | rfl
    · exact BitVec.le_trans (h p hp) (BitVec.le_of_lt hlt)
    · exact BitVec.le_refl _
  · rw [if_neg (by simpa using hpass)] at hp
    rw [hlast]
    exact h p hp

/-- The extension is in use, replies are looked at in this status, and a number that is new in its
transaction is new in the dialog. -/
def NewInDialog (u : UacRel) (ev : UacEv) : Prop :=
  ev.reply.Reliable → u.IsNew ev.reply →
    u.rel.active = true ∧ ev.status.expectsReply = true ∧ u.rel.rseqLast < ev.reply.rseq

theorem Bounded.passes_iff_newInDialog (h : u.Bounded) : u.PassesNew ev ↔ u.NewInDialog ev := by
  refine forall_congr' fun hrel => ?_
  have hpasses : u.passes ev = true ↔ _ := decide_eq_true_iff.trans (onReplyIn_reliable hrel)
  rw [hpasses]
  constructor
  · exact fun hiff hnew => hiff.2 hnew
  · intro hnew
    refine ⟨?_, hnew⟩
    rintro ⟨-, -, hlt⟩ p hp -
    exact Nat.lt_of_le_of_lt (h p hp) hlt

/-- A UAC passes on the new reliable replies of every INVITE, and no others, exactly in the runs in
which these are new in the dialog. -/
theorem passesNew_iff (reliable1xx : Rel100State) (evs : List UacEv) :
    RunOk step PassesNew (init reliable1xx) evs ↔
      RunOk step NewInDialog (init reliable1xx) evs := by
  have hinit : (init reliable1xx).Bounded := fun p hp => absurd hp List.not_mem_nil
  exact runOk_congr Bounded.step Bounded.passes_iff_newInDialog hinit

/-- A 183 reply with an RSeq number. -/
def rel183In (status : DlgStatus) (cseq rseq : BitVec 32) : UacEv where
  status := status
  reply :=
    { code := 183
      cseqMethod := .INVITE
      cseq := cseq
      rseq := rseq
      toTag := []
      hdrs := hdrLine SIP_HDR_REQUIRE SIP_EXT_100REL
      body := .none }

/-- A re-INVITE whose first number is below that of the INVITE. -/
def reinvite183 : List UacEv :=
  [rel183In .Early 10 5, rel183In .Connected 11 1]

/-- The reply to the re-INVITE is not passed on, though it is the first one. -/
theorem reinvite183_not_passed : ¬ RunOk step PassesNew (init .supported) reinvite183 := by
  rintro ⟨-, hsecond, -⟩
  have hrel : (rel183In .Connected 11 1).reply.Reliable := by
    refine ⟨by decide, by decide, rfl, ?_, by decide⟩
    decide +kernel
  have hnew : ((init .supported).step (rel183In .Early 10 5)).IsNew
      (rel183In .Connected 11 1).reply := by
    have haccepted : ((init .supported).step (rel183In .Early 10 5)).accepted = [(10, 5)] := by
      decide +kernel
    intro p hp hcseq
    rw [haccepted, List.mem_singleton] at hp
    rw [hp] at hcseq
    exact absurd hcseq (by decide)
  have hpasses := (hsecond hrel).2 hnew
  exact absurd hpasses (by decide +kernel)

end UacRel

end Sems
