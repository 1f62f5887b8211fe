import Sems.Rel100

/-!
# Runs of a UAS that requires reliable provisional replies

`run` is a sequence of INVITE replies and PRACKs on an `Am100rel` that requires the extension.
`Rel100Ok` are the rules of the extension : the RSeq numbers of the reliable replies are
consecutive, the second reliable reply is not sent before the PRACK of the first, and no 2xx is sent
before the PRACK of the last.

`rel100Ok_iff` says which runs keep them. `rseqConfirmed` is not reset when a later reply is sent,
so a 2xx is held back for the first one only. And the 32-bit counter must not run over.
-/

namespace Sems

open List

open Am100rel

/-- A provisional or 2xx reply to the INVITE, in which the application sets no RSeq. -/
structure UasReply where
  reply : AmSipReply
  invite : reply.cseqMethod = .INVITE
  code_ge : 100 ≤ reply.code
  code_lt : reply.code < 300
  no_rseq : getHeader (withRequire reply.hdrs) SIP_HDR_RSEQ = []

structure UasPrack where
  req : AmSipRequest
  prack : req.method = .PRACK

inductive UasEv where
  | reply (rp : UasReply) (random : BitVec 32)
  | prack (pr : UasPrack)

/-- What is observed of an event. A reliable reply is `rel1xx`, with its number and header
block. -/
inductive UasObs where
  | rel1xx (rseq : ℕ) (hdrs : Str)
  | sent (code : ℕ)
  | refused
  | prack (rack : ℕ)

def uasStep (r : Am100rel) : UasEv → Am100rel × UasObs
  | .reply rp random =>
    match r.onReplyOut random rp.reply with
    | .error _ => (r, .refused)
    | .ok (r', reply) =>
      if 100 < reply.code ∧ reply.code < 200 then (r', .rel1xx r'.rseq.toNat reply.hdrs)
      else (r', .sent reply.code)
  | .prack pr => ((r.onRequestIn pr.req).1, .prack pr.req.rseq.toNat)

def uasRun (r : Am100rel) : List UasEv → List UasObs
  | [] => []
  | ev :: evs => (uasStep r ev).2 :: uasRun (uasStep r ev).1 evs

/-! ## The rules -/

/-- The numbers of the reliable replies, in order. -/
def rseqs : List UasObs → List ℕ
  | [] => []
  | .rel1xx n _ :: h => n :: rseqs h
  | _ :: h => rseqs h

/-- The reliable reply `n` was sent, and a PRACK for it received after. -/
def Acked (n : ℕ) : List UasObs → Prop
  | [] => False
  | .rel1xx m _ :: h => (m = n ∧ .prack n ∈ h) ∨ Acked n h
  | _ :: h => Acked n h

/-- What the rules allow after the history `h`. -/
def AllowedAfter (h : List UasObs) : UasObs → Prop
  | .rel1xx n hdrs =>
    hdrLine SIP_HDR_RSEQ (Nat.toDigits 10 n) <:+ hdrs ∧ (∀ m ∈ (rseqs h).getLast?, n = m + 1) ∧
      ∀ m ∈ (rseqs h).head?, Acked m h
  | .sent code => 200 ≤ code → ∀ n ∈ rseqs h, (∀ m ∈ rseqs h, m ≤ n) → Acked n h
  | _ => True

/-- Every observation is allowed after those before it. -/
def Rel100Ok (tr : List UasObs) : Prop :=
  ∀ p o q, tr = p ++ o :: q → AllowedAfter p o

/-- After the history `h`, a 2xx is not tried while the last of several reliable replies waits for
its PRACK, and no reliable reply at the end of the counter. -/
def EvOk (h : List UasObs) (r : Am100rel) : UasEv → Prop
  | .reply rp _ =>
    (200 ≤ rp.reply.code → 2 ≤ (rseqs h).length →
        ∀ n ∈ rseqs h, (∀ m ∈ rseqs h, m ≤ n) → Acked n h) ∧
      (100 < rp.reply.code → rp.reply.code < 200 → r.rseq ≠ BitVec.allOnes 32)
  | .prack _ => True

/-- Every event of the run meets the condition. -/
def EvsOk : List UasObs → Am100rel → List UasEv → Prop
  | _, _, [] => True
  | h, r, ev :: evs => EvOk h r ev ∧ EvsOk (h ++ [(uasStep r ev).2]) (uasStep r ev).1 evs

theorem rseqs_append (h h' : List UasObs) : rseqs (h ++ h') = rseqs h ++ rseqs h' := by
  induction h with
  | nil => rfl
  | cons o h ih => cases o <;> simp [rseqs, ih]

theorem acked_append_singleton (n : ℕ) (o : UasObs) :
    ∀ h, Acked n (h ++ [o]) ↔ Acked n h ∨ (o = .prack n ∧ n ∈ rseqs h)
  | [] => by cases o <;> simp [Acked, rseqs]
  | .rel1xx m hdrs :: h => by
    have ih := acked_append_singleton n o h
    simp only [cons_append, Acked, rseqs, ih, mem_append, mem_cons,
      not_mem_nil, or_false, eq_comm (b := o), eq_comm (b := m)]
    tauto
  | .sent _ :: h => acked_append_singleton n o h
  | .refused :: h => acked_append_singleton n o h
  | .prack _ :: h => acked_append_singleton n o h

theorem mem_rseqs_of_acked {n : ℕ} : ∀ h, Acked n h → n ∈ rseqs h
  | .rel1xx m _ :: h, hn => by
    rcases hn with ⟨rfl, -⟩ | hn
    · simp [rseqs]
    · simp [rseqs, mem_rseqs_of_acked h hn]
  | .sent _ :: h, hn => mem_rseqs_of_acked h hn
  | .refused :: h, hn => mem_rseqs_of_acked h hn
  | .prack _ :: h, hn => mem_rseqs_of_acked h hn

/-! ## What a step does -/

variable {r : Am100rel} {h : List UasObs} {rp : UasReply} {random : BitVec 32}

variable (hr : r.reliable1xx = .require)

include hr

/-- The state after a first reliable reply. -/
theorem uasStep_first (hz : r.rseq = 0) (h1 : 100 < rp.reply.code) (h2 : rp.reply.code < 200) :
    uasStep r (.reply rp random) =
      ({ r with
          rseq := (random &&& 0x3ff) + 1, rseqConfirmed := false,
          rseq1st := (random &&& 0x3ff) + 1 },
        .rel1xx ((random &&& 0x3ff) + 1).toNat (withRequire rp.reply.hdrs ++
          hdrLine SIP_HDR_RSEQ (int2str ((random &&& 0x3ff) + 1)))) := by
  unfold uasStep
  simp only [onReplyOut_1xx hr rp.invite h1 h2]
  unfold onRel1xxOut
  simp only [rp.no_rseq, ne_eq, not_true_eq_false, if_false, hz, if_true, h1, h2, and_self]

/-- A later reliable reply is refused as long as the first one is the last and waits for its
PRACK. -/
theorem uasStep_later (hz : r.rseq ≠ 0) (h1 : 100 < rp.reply.code) (h2 : rp.reply.code < 200) :
    uasStep r (.reply rp random) =
      if r.rseqConfirmed = false ∧ r.rseq1st = r.rseq then (r, .refused)
      else
        ({ r with rseq := r.rseq + 1 },
          .rel1xx (r.rseq + 1).toNat (withRequire rp.reply.hdrs ++
            hdrLine SIP_HDR_RSEQ (int2str (r.rseq + 1)))) := by
  unfold uasStep
  simp only [onReplyOut_1xx hr rp.invite h1 h2]
  unfold onRel1xxOut
  simp only [rp.no_rseq, ne_eq, not_true_eq_false, if_false, if_neg hz]
  split_ifs with hc
  · rfl
  · simp only [h1, h2, and_self, if_true]

/-- Any other reply is refused while the flag says that a PRACK is missing. -/
theorem uasStep_other (h1 : ¬ (100 < rp.reply.code ∧ rp.reply.code < 200)) :
    uasStep r (.reply rp random) =
      if r.rseq ≠ 0 ∧ r.rseqConfirmed = false then (r, .refused) else (r, .sent rp.reply.code) := by
  unfold uasStep
  dsimp only
  rw [onReplyOut, if_neg (by simp [hr]), if_pos rp.invite, if_neg h1, if_pos ⟨rp.code_lt, hr⟩]
  split_ifs
  · rfl
  · simp only [h1, if_false]

theorem uasStep_prack (pr : UasPrack) :
    uasStep r (.prack pr) =
      (if r.rseq1st ≤ pr.req.rseq ∧ pr.req.rseq = r.rseq then { r with rseqConfirmed := true }
        else r, .prack pr.req.rseq.toNat) := by
  have hle : pr.req.rseq = r.rseq → pr.req.rseq ≤ r.rseq := fun h => h ▸ BitVec.le_refl _
  unfold uasStep
  dsimp only
  rw [onRequestIn, if_neg (by simp [hr]), if_neg (by simp [pr.prack]), if_pos pr.prack,
    if_neg (by simp [hr])]
  split_ifs <;> tauto

omit hr

/-! ## The invariant -/

/-- `k + 1` reliable replies were sent, with numbers from `rseq1st` up to `rseq`. The flag is right
while there is one. With the second it is set, and stays so. -/
structure Sent (h : List UasObs) (r : Am100rel) (k : ℕ) : Prop where
  numbers : rseqs h = List.range' r.rseq1st.toNat (k + 1)
  last : r.rseq.toNat = r.rseq1st.toNat + k
  first_pos : 0 < r.rseq1st.toNat
  first_le : r.rseq1st.toNat ≤ 1024
  flag_one : k = 0 → (r.rseqConfirmed = true ↔ Acked r.rseq1st.toNat h)
  flag_more : 0 < k → r.rseqConfirmed = true ∧ Acked r.rseq1st.toNat h

/-- The invariant of a run. -/
structure UasInv (h : List UasObs) (r : Am100rel) : Prop where
  require : r.reliable1xx = .require
  none : r.rseq = 0 → rseqs h = []
  some : r.rseq ≠ 0 → ∃ k, Sent h r k

theorem uasInv_init : UasInv [] (init .require) :=
  ⟨rfl, fun _ => rfl, fun h => absurd rfl h⟩

/-- Observations that are neither a reliable reply nor a PRACK leave the invariant alone. -/
theorem UasInv.append (hi : UasInv h r) {o : UasObs} (hrel : rseqs [o] = [])
    (hprack : ∀ n, o ≠ .prack n) : UasInv (h ++ [o]) r := by
  have hseqs : rseqs (h ++ [o]) = rseqs h := by simp [rseqs_append, hrel]
  have hacked : ∀ n, Acked n (h ++ [o]) ↔ Acked n h := fun n => by
    simp [acked_append_singleton, hprack n]
  refine ⟨hi.require, fun hz => hseqs.trans (hi.none hz), fun hz => ?_⟩
  obtain ⟨k, hk⟩ := hi.some hz
  exact ⟨k, hseqs.trans hk.numbers, hk.last, hk.first_pos, hk.first_le,
    fun h0 => (hk.flag_one h0).trans (hacked _).symm,
    fun h0 => (hk.flag_more h0).imp_right (hacked _).2⟩

/-- The counter steps, except at its end. -/
theorem toNat_succ_iff (n : BitVec 32) : (n + 1).toNat = n.toNat + 1 ↔ n ≠ BitVec.allOnes 32 := by
  have hmax : n = BitVec.allOnes 32 ↔ n.toNat = 2 ^ 32 - 1 := by
    rw [← BitVec.toNat_inj, BitVec.toNat_allOnes]
  rw [ne_eq, hmax, BitVec.toNat_add]
  simp only [BitVec.ofNat_eq_ofNat, BitVec.toNat_ofNat]
  omega

/-- Where a later reliable reply is not refused, the first one was acknowledged. -/
theorem Sent.flag {k : ℕ} (hk : Sent h r k)
    (hc : ¬ (r.rseqConfirmed = false ∧ r.rseq1st = r.rseq)) :
    r.rseqConfirmed = true ∧ Acked r.rseq1st.toNat h := by
  rcases Nat.eq_zero_or_pos k with rfl | hpos
  · have heq : r.rseq1st = r.rseq := BitVec.eq_of_toNat_eq (by simpa using hk.last.symm)
    have hconf : r.rseqConfirmed = true := by simpa [heq] using hc
    exact ⟨hconf, (hk.flag_one rfl).1 hconf⟩
  · exact hk.flag_more hpos

variable (hi : UasInv h r)

include hi

/-- The first reliable reply. -/
theorem UasInv.first (hz : r.rseq = 0) {n : BitVec 32} (hpos : 0 < n.toNat) (hle : n.toNat ≤ 1024)
    {hdrs : Str} :
    UasInv (h ++ [.rel1xx n.toNat hdrs])
      { r with rseq := n, rseqConfirmed := false, rseq1st := n } := by
  have hnone := hi.none hz
  refine ⟨hi.require, fun hn => ?_, fun _ => ⟨0, ?_, by simp, hpos, hle, fun _ => ?_, by simp⟩⟩
  · rw [show n = 0 from hn] at hpos
    simp at hpos
  · simp [rseqs_append, hnone, rseqs]
  · have hnot : ¬ Acked n.toNat h := fun ha => by
      simpa [hnone] using mem_rseqs_of_acked _ ha
    simp [acked_append_singleton, hnot]

/-- A later reliable reply that is not refused. -/
theorem UasInv.later (hz : r.rseq ≠ 0) (hc : ¬ (r.rseqConfirmed = false ∧ r.rseq1st = r.rseq))
    (hmax : r.rseq ≠ BitVec.allOnes 32) {hdrs : Str} :
    UasInv (h ++ [.rel1xx (r.rseq + 1).toNat hdrs]) { r with rseq := r.rseq + 1 } := by
  obtain ⟨k, hk⟩ := hi.some hz
  have hsucc := (toNat_succ_iff r.rseq).2 hmax
  have hflag := hk.flag hc
  refine ⟨hi.require, fun hn => ?_, fun _ => ⟨k + 1, ?_, ?_, hk.first_pos, hk.first_le, by simp,
    fun _ => ⟨hflag.1, ?_⟩⟩⟩
  · have : (r.rseq + 1).toNat = 0 := by rw [show r.rseq + 1 = 0 from hn]; rfl
    omega
  · rw [rseqs_append, hk.numbers, range'_1_concat (n := k + 1)]
    simp only [rseqs, hsucc, hk.last]
    rw [Nat.add_assoc]
  · simp only [hsucc, hk.last]
    omega
  · exact (acked_append_singleton _ _ _).2 (.inl hflag.2)

/-- A PRACK. -/
theorem UasInv.prack (n : BitVec 32) :
    UasInv (h ++ [.prack n.toNat])
      (if r.rseq1st ≤ n ∧ n = r.rseq then { r with rseqConfirmed := true } else r) := by
  have hseqs : rseqs (h ++ [.prack n.toNat]) = rseqs h := by simp [rseqs_append, rseqs]
  split_ifs with hn
  · obtain ⟨-, rfl⟩ := hn
    refine ⟨hi.require, fun hz => hseqs.trans (hi.none hz), fun hz => ?_⟩
    obtain ⟨k, hk⟩ := hi.some hz
    refine ⟨k, hseqs.trans hk.numbers, hk.last, hk.first_pos, hk.first_le, fun h0 => ?_,
      fun h0 => ⟨rfl, (acked_append_singleton _ _ _).2 (.inl (hk.flag_more h0).2)⟩⟩
    have hlast := hk.last
    simp only [h0, Nat.add_zero] at hlast
    simp only [true_iff]
    refine (acked_append_singleton _ _ _).2 (.inr ⟨by rw [hlast], ?_⟩)
    rw [hk.numbers]
    simp
  · refine ⟨hi.require, fun hz => hseqs.trans (hi.none hz), fun hz => ?_⟩
    obtain ⟨k, hk⟩ := hi.some hz
    refine ⟨k, hseqs.trans hk.numbers, hk.last, hk.first_pos, hk.first_le, fun h0 => ?_,
      fun h0 => (hk.flag_more h0).imp_right fun ha => (acked_append_singleton _ _ _).2 (.inl ha)⟩
    rw [hk.flag_one h0, acked_append_singleton]
    refine ⟨.inl, ?_⟩
    rintro (ha | ⟨he, -⟩)
    · exact ha
    · have hlast := hk.last
      simp only [h0, Nat.add_zero] at hlast
      have hnr : n = r.rseq1st := BitVec.eq_of_toNat_eq (by simpa using he)
      exact absurd ⟨hnr ▸ BitVec.le_refl _, hnr.trans (BitVec.eq_of_toNat_eq hlast.symm)⟩ hn

/-! ## Runs -/

theorem allowedAfter_1xx_iff (h1 : 100 < rp.reply.code)
    (h2 : rp.reply.code < 200) :
    AllowedAfter h (uasStep r (.reply rp random)).2 ↔ r.rseq ≠ BitVec.allOnes 32 := by
  by_cases hz : r.rseq = 0
  · rw [uasStep_first hi.require hz h1 h2]
    simp only [AllowedAfter, hi.none hz, hz]
    exact iff_of_true ⟨suffix_append _ _, by simp, by simp⟩ (by decide)
  · obtain ⟨k, hk⟩ := hi.some hz
    rw [uasStep_later hi.require hz h1 h2]
    split_ifs with hc
    · refine iff_of_true trivial fun he => ?_
      have hle := hk.first_le
      rw [hc.2, he, BitVec.toNat_allOnes] at hle
      omega
    · rw [← toNat_succ_iff]
      have hlast : (rseqs h).getLast? = some r.rseq.toNat := by
        rw [hk.numbers, range'_1_concat, getLast?_append, hk.last]
        rfl
      have hhead : (rseqs h).head? = some r.rseq1st.toNat := by
        rw [hk.numbers, range'_succ]
        rfl
      simp only [AllowedAfter, hlast, hhead, Option.mem_def, Option.some.injEq, forall_eq']
      exact ⟨fun hall => hall.2.1, fun hs => ⟨suffix_append _ _, hs, (hk.flag hc).2⟩⟩

theorem allowedAfter_2xx_iff (h1 : ¬ (100 < rp.reply.code ∧ rp.reply.code < 200)) :
    AllowedAfter h (uasStep r (.reply rp random)).2 ↔
      (200 ≤ rp.reply.code → 2 ≤ (rseqs h).length →
        ∀ n ∈ rseqs h, (∀ m ∈ rseqs h, m ≤ n) → Acked n h) := by
  rw [uasStep_other hi.require h1]
  split_ifs with hc
  · -- the flag is right while one reliable reply was sent, and not reset after
    obtain ⟨k, hk⟩ := hi.some hc.1
    refine iff_of_true trivial fun _ hlen => ?_
    rw [hk.numbers, length_range'] at hlen
    have hflag := (hk.flag_more (by omega)).1
    simp [hc.2] at hflag
  · refine ⟨fun hall hcode _ => hall hcode, fun hall hcode => ?_⟩
    rcases Nat.lt_or_ge (rseqs h).length 2 with hlen | hlen
    · intro n hn _
      have hz : r.rseq ≠ 0 := fun hz => by simp [hi.none hz] at hn
      obtain ⟨k, hk⟩ := hi.some hz
      rw [hk.numbers, length_range'] at hlen
      obtain rfl : k = 0 := by omega
      rw [hk.numbers, range'_one, mem_singleton] at hn
      rw [hn]
      exact (hk.flag_one rfl).1 (eq_true_of_ne_false fun hf => hc ⟨hz, hf⟩)
    · exact hall hcode hlen

/-- The observation of a step is allowed if and only if the event meets the condition. -/
theorem allowedAfter_iff (ev : UasEv) : AllowedAfter h (uasStep r ev).2 ↔ EvOk h r ev := by
  rcases ev with ⟨rp, random⟩ | pr
  · by_cases h1 : 100 < rp.reply.code ∧ rp.reply.code < 200
    · rw [allowedAfter_1xx_iff hi h1.1 h1.2]
      exact ⟨fun hmax => ⟨fun _ => by omega, fun _ _ => hmax⟩, fun hev => hev.2 h1.1 h1.2⟩
    · rw [allowedAfter_2xx_iff hi h1]
      exact ⟨fun hall => ⟨hall, fun _ _ => by omega⟩, fun hev => hev.1⟩
  · simp [uasStep_prack hi.require, AllowedAfter, EvOk]

/-- A step that meets the condition keeps the invariant. -/
theorem uasInv_step {ev : UasEv} (hev : EvOk h r ev) :
    UasInv (h ++ [(uasStep r ev).2]) (uasStep r ev).1 := by
  rcases ev with ⟨rp, random⟩ | pr
  · by_cases h1 : 100 < rp.reply.code ∧ rp.reply.code < 200
    · by_cases hz : r.rseq = 0
      · rw [uasStep_first hi.require hz h1.1 h1.2]
        obtain ⟨hpos, hle⟩ := toNat_first random
        exact hi.first hz hpos hle
      · rw [uasStep_later hi.require hz h1.1 h1.2]
        split_ifs with hc
        · exact hi.append rfl (by simp)
        · exact hi.later hz hc (hev.2 h1.1 h1.2)
    · rw [uasStep_other hi.require h1]
      split_ifs
      · exact hi.append rfl (by simp)
      · exact hi.append rfl (by simp)
  · rw [uasStep_prack hi.require]
    exact hi.prack _

omit hi

theorem forall_split_cons {p : List UasObs → UasObs → Prop} {o : UasObs} {tr : List UasObs} :
    (∀ l x q, o :: tr = l ++ x :: q → p l x) ↔
      p [] o ∧ ∀ l x q, tr = l ++ x :: q → p (o :: l) x := by
  refine ⟨fun hall => ⟨hall [] o tr rfl, fun l x q he => hall (o :: l) x q (by rw [he]; rfl)⟩, ?_⟩
  rintro ⟨h1, h2⟩ l x q he
  rcases l with _ | ⟨o', l⟩
  · obtain ⟨rfl, rfl⟩ : o = x ∧ tr = q := by simpa using he
    exact h1
  · obtain ⟨rfl, htr⟩ : o = o' ∧ tr = l ++ x :: q := by simpa using he
    exact h2 l x q htr

theorem uasRun_allowed_iff : ∀ (evs : List UasEv) {h : List UasObs} {r : Am100rel}, UasInv h r →
    ((∀ p o q, uasRun r evs = p ++ o :: q → AllowedAfter (h ++ p) o) ↔ EvsOk h r evs)
  | [], _, _, _ => by simp [uasRun, EvsOk]
  | ev :: evs, h, r, hi => by
    rw [uasRun, forall_split_cons (p := fun p o => AllowedAfter (h ++ p) o), append_nil,
      allowedAfter_iff hi, EvsOk]
    refine and_congr_right fun hev => ?_
    rw [← uasRun_allowed_iff evs (uasInv_step hi hev)]
    simp only [append_assoc, singleton_append]

/-- A run keeps the rules of the extension if and only if no 2xx is tried while the last of several
reliable replies waits for its PRACK, and no reliable reply once the counter is at its end. -/
theorem rel100Ok_iff (evs : List UasEv) :
    Rel100Ok (uasRun (init .require) evs) ↔ EvsOk [] (init .require) evs :=
  uasRun_allowed_iff evs uasInv_init

/-- A reply to the INVITE with no headers of its own. -/
def plainReply (code : ℕ) (h1 : 100 ≤ code) (h2 : code < 300) : UasReply where
  reply := ⟨code, .INVITE, 1, 0, [], [], .none⟩
  invite := rfl
  code_ge := h1
  code_lt := h2
  no_rseq := show getHeader (withRequire []) SIP_HDR_RSEQ = [] by decide

/-- A PRACK for the reliable reply with number `rseq`. -/
def plainPrack (rseq : BitVec 32) : UasPrack where
  req := ⟨.PRACK, 2, rseq, 1, [], [], [], .none⟩
  prack := rfl

/-- A 180 that is acknowledged, a 183 that is not, and the 200 is sent. -/
theorem not_rel100Ok_second_unacked :
    ¬ Rel100Ok (uasRun (init .require)
      [.reply (plainReply 180 (by decide) (by decide)) 0, .prack (plainPrack 1),
        .reply (plainReply 183 (by decide) (by decide)) 0,
        .reply (plainReply 200 (by decide) (by decide)) 0]) := by
  intro h
  have hlast := h [.rel1xx 1 _, .prack 1, .rel1xx 2 _] (.sent 200) [] rfl
  have hacked := hlast (by decide) 2 (by decide) (by decide)
  simp [Acked] at hacked

end Sems
