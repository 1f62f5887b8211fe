import Sems.SessionUpdates
import Sems.Logs
import Sems.Runs

/-!
# The queue of session updates over its runs

`UpdatesOk` is what the queue is to keep : updates are applied in the order they were queued, one
transaction of an update at most is open, an update leaves after a final reply to its transaction
that is not a 491 or when it started none, and a queue that is not empty is taken up again.

The CSeq is an unsigned number in the dialog and a signed one in the update, where a negative one
says that no request was sent. From 2^31 on an update whose re-INVITE went out is dropped
(`run_signedCSeq`). `run_updatesOk` is the main result, for the runs where the CSeqs stay below and
no request takes the place of an open INVITE of the remote side.
-/

namespace Sems

open List UacTrans UpdateLog

namespace UpdateQueue

open UpdateLog

/-! ## What the queue keeps -/

variable (pre : List UpdateLog) (entry : UpdateLog) (s : UpdateQueue)

/-- An update is applied while it is in the queue, and all that were queued before it have left. -/
def AppliedInOrder : Prop :=
  ∀ id started, entry = applied id started →
    left id ∉ pre ∧ ∃ before after, pre = before ++ queued id :: after ∧
      ∀ id', queued id' ∈ before → left id' ∈ pre

/-- An update leaves right after a final reply other than 491, or after it was applied without a
transaction. -/
def LeavesFinished : Prop :=
  ∀ id, entry = left id →
    (∃ before code, pre = before ++ [replied id code] ∧ 200 ≤ code ∧ code ≠ 491) ∨
      ∃ before, pre = before ++ [applied id false]

/-- The open transactions of updates. -/
def inFlight (trans : List UacTrans) : List UacTrans :=
  trans.filter fun t => t.owner.isSome

/-- Something will take up the queue again. -/
def NotStuck : Prop :=
  s.pendingUpdates ≠ [] →
    s.uacTrans.any invite = true ∨ s.uasTrans.any UasTrans.invite = true ∨
      s.timerStarted = true ∨ 0 < s.posted

structure UpdatesOk : Prop where
  inOrder : Logged AppliedInOrder s.log
  oneInFlight : (inFlight s.uacTrans).length ≤ 1
  leaves : Logged LeavesFinished s.log
  notStuck : NotStuck s

/-- The CSeqs of a step are below 2^31. It sends at most one request, or one for each update in the
queue. -/
def CSeqSmall : Prop :=
  s.cseq.toNat + s.pendingUpdates.length < 2 ^ 31

/-- Where lower CSeqs are let through, a request does not have the CSeq of an open INVITE. -/
def KeepsInvites (ev : UpdateEv) : Prop :=
  ∀ cseq method accepted, ev = .rxRequest cseq method accepted → s.ignoreNotifyLowerCSeq = true →
    ∀ t ∈ s.uasTrans, t.invite = true → t.cseq ≠ cseq

structure StepOk (ev : UpdateEv) : Prop where
  cseqSmall : CSeqSmall s
  keepsInvites : KeepsInvites s ev

/-! ## The log -/

/-- The updates are queued one after the other. -/
def QueuedInOrder : Prop :=
  ∀ id, entry = queued id → ∀ id', queued id' ∈ pre ↔ id' < id

/-- The log after `n` updates, with those in `ids` still to be done. -/
structure LogOk (log : List UpdateLog) (n : ℕ) (ids : List ℕ) : Prop where
  inOrder : Logged AppliedInOrder log
  leaves : Logged LeavesFinished log
  queuedInOrder : Logged QueuedInOrder log
  queuedIff : ∀ id, queued id ∈ log ↔ id < n
  leftIff : ∀ id, left id ∈ log ↔ id < n ∧ id ∉ ids
  ascending : ids.Pairwise (· < ·)
  numbered : ∀ id ∈ ids, id < n

variable {log : List UpdateLog} {n id code : ℕ} {ids : List ℕ} {started : Bool}

theorem logOk_nil : LogOk [] 0 [] where
  inOrder := logged_nil
  leaves := logged_nil
  queuedInOrder := logged_nil
  queuedIff := by simp
  leftIff := by simp
  ascending := List.Pairwise.nil
  numbered := by simp

theorem LogOk.queue (h : LogOk log n ids) : LogOk (log ++ [queued n]) (n + 1) (ids ++ [n]) where
  inOrder := logged_concat.2 ⟨h.inOrder, nofun⟩
  leaves := logged_concat.2 ⟨h.leaves, nofun⟩
  queuedInOrder := by
    refine logged_concat.2 ⟨h.queuedInOrder, fun id hid id' => ?_⟩
    obtain rfl : n = id := queued.inj hid
    exact h.queuedIff id'
  queuedIff := by
    intro id
    simp only [mem_append, h.queuedIff, mem_singleton, queued.injEq]
    omega
  leftIff := by
    intro id
    simp only [mem_append, h.leftIff, mem_singleton, reduceCtorEq, or_false, not_or]
    constructor
    · rintro ⟨hlt, hmem⟩
      exact ⟨Nat.lt_succ_of_lt hlt, hmem, hlt.ne⟩
    · rintro ⟨hlt, hmem, hne⟩
      exact ⟨lt_of_le_of_ne (Nat.le_of_lt_succ hlt) hne, hmem⟩
  ascending := by
    refine pairwise_append.2 ⟨h.ascending, pairwise_singleton _ _, ?_⟩
    intro a ha b hb
    rw [mem_singleton.1 hb]
    exact h.numbered a ha
  numbered := by
    intro id hid
    rcases mem_append.1 hid with hid | hid
    · exact Nat.lt_succ_of_lt (h.numbered id hid)
    · exact mem_singleton.1 hid ▸ Nat.lt_succ_self n

/-- An entry that neither queues nor removes an update. -/
theorem LogOk.note (h : LogOk log n ids) {entry : UpdateLog} (hqueued : ∀ id, entry ≠ queued id)
    (hleft : ∀ id, entry ≠ .left id) (happlied : AppliedInOrder log entry) :
    LogOk (log ++ [entry]) n ids where
  inOrder := logged_concat.2 ⟨h.inOrder, happlied⟩
  leaves := logged_concat.2 ⟨h.leaves, fun id hid => absurd hid (hleft id)⟩
  queuedInOrder := logged_concat.2 ⟨h.queuedInOrder, fun id hid => absurd hid (hqueued id)⟩
  queuedIff := by
    intro id
    rw [← h.queuedIff id]
    simp [(hqueued id).symm]
  leftIff := by
    intro id
    rw [← h.leftIff id]
    simp [(hleft id).symm]
  ascending := h.ascending
  numbered := h.numbered

theorem LogOk.reply (h : LogOk log n ids) : LogOk (log ++ [replied id code]) n ids :=
  h.note nofun nofun nofun

/-- The first of the updates may be applied. -/
theorem LogOk.apply (h : LogOk log n (id :: ids)) :
    LogOk (log ++ [applied id started]) n (id :: ids) := by
  refine h.note nofun nofun fun id' _ hid => ?_
  obtain rfl : id = id' := (applied.inj hid).1
  have hn : id < n := h.numbered id mem_cons_self
  obtain ⟨before, after, hsplit⟩ := append_of_mem ((h.queuedIff id).2 hn)
  have horder := h.queuedInOrder before _ after hsplit
  refine ⟨fun hleft => ((h.leftIff id).1 hleft).2 mem_cons_self, before, after, hsplit, ?_⟩
  intro id' hid'
  have hlt : id' < id := (horder id rfl id').1 hid'
  refine (h.leftIff id').2 ⟨hlt.trans hn, fun hmem => ?_⟩
  rcases mem_cons.1 hmem with rfl | hmem
  · exact lt_irrefl _ hlt
  · exact lt_asymm hlt (rel_of_pairwise_cons h.ascending hmem)

/-- The first of the updates leaves. -/
theorem LogOk.leave (h : LogOk log n (id :: ids)) (hleaves : LeavesFinished log (.left id)) :
    LogOk (log ++ [.left id]) n ids where
  inOrder := logged_concat.2 ⟨h.inOrder, nofun⟩
  leaves := logged_concat.2 ⟨h.leaves, hleaves⟩
  queuedInOrder := logged_concat.2 ⟨h.queuedInOrder, nofun⟩
  queuedIff := by
    intro id'
    rw [← h.queuedIff id']
    simp
  leftIff := by
    intro id'
    have hn : id < n := h.numbered id mem_cons_self
    have hid : id ∉ ids := fun hmem => lt_irrefl _ (rel_of_pairwise_cons h.ascending hmem)
    simp only [mem_append, h.leftIff, mem_cons, not_mem_nil, or_false, not_or, left.injEq]
    constructor
    · rintro (⟨hlt, -, hmem⟩ | rfl)
      · exact ⟨hlt, hmem⟩
      · exact ⟨hn, hid⟩
    · rintro ⟨hlt, hmem⟩
      by_cases heq : id' = id
      · exact .inr heq
      · exact .inl ⟨hlt, heq, hmem⟩
  ascending := h.ascending.of_cons
  numbered := fun id' hid' => h.numbered id' (mem_cons_of_mem _ hid')

theorem LogOk.leave_applied (h : LogOk log n (id :: ids)) :
    LogOk (log ++ [applied id false] ++ [.left id]) n ids := by
  refine LogOk.leave h.apply fun id' hid => .inr ⟨log, ?_⟩
  rw [left.inj hid]

/-! ## The client transactions -/

/-- The client transactions and the CSeqs of the updates. -/
structure TransOk (trans : List UacTrans) (cseq : BitVec 32) (us : List SessionUpdate) : Prop where
  oneInFlight : (inFlight trans).length ≤ 1
  invite : ∀ t ∈ trans, t.owner.isSome = true → t.invite = true
  transCSeq : ∀ t ∈ trans, t.cseq.toNat < cseq.toNat
  updateCSeq : ∀ u ∈ us, u.requestCseq.toNat < cseq.toNat ∨ u.requestCseq = -1
  owner : ∀ t ∈ trans, ∀ u ∈ us, u.requestCseq = t.cseq → t.owner = some u.id
  bound : cseq.toNat ≤ 2 ^ 31

variable {trans trans' : List UacTrans} {cseq c : BitVec 32} {us us' : List SessionUpdate}
  {u : SessionUpdate}

theorem transOk_nil (hcseq : cseq.toNat ≤ 2 ^ 31) : TransOk [] cseq [] where
  oneInFlight := Nat.zero_le 1
  invite := by simp
  transCSeq := by simp
  updateCSeq := by simp
  owner := by simp
  bound := hcseq

theorem neg_one_toNat : (-1 : BitVec 32).toNat = 2 ^ 32 - 1 := by
  decide

theorem toNat_add_one (h : cseq.toNat < 2 ^ 31) : (cseq + 1).toNat = cseq.toNat + 1 := by
  rw [BitVec.toNat_add]
  have : (1 : BitVec 32).toNat = 1 := rfl
  omega

theorem ne_of_toNat_lt {a b : BitVec 32} (h : a.toNat < b.toNat) : a ≠ b := by
  rintro rfl
  exact lt_irrefl _ h

variable (h : TransOk trans cseq us)

include h

/-- The new CSeq is not the one of an update. -/
theorem TransOk.fresh (hu : u ∈ us) : u.requestCseq ≠ cseq := by
  rcases h.updateCSeq u hu with hlt | hneg
  · exact ne_of_toNat_lt hlt
  · rintro rfl
    have := h.bound
    rw [hneg, neg_one_toNat] at this
    omega

/-- Fewer transactions and fewer updates. -/
theorem TransOk.mono (htrans : trans'.Sublist trans) (hus : us' ⊆ us) :
    TransOk trans' cseq us' where
  oneInFlight := (htrans.filter _).length_le.trans h.oneInFlight
  invite := fun t ht => h.invite t (htrans.subset ht)
  transCSeq := fun t ht => h.transCSeq t (htrans.subset ht)
  updateCSeq := fun u hu => h.updateCSeq u (hus hu)
  owner := fun t ht u hu => h.owner t (htrans.subset ht) u (hus hu)
  bound := h.bound

/-- A request goes out. If it is for an update it is the only one. -/
theorem TransOk.send (hcseq : cseq.toNat < 2 ^ 31) (invite : Bool) (owner : Option ℕ)
    (howner : owner.isSome = true → inFlight trans = [] ∧ invite = true) :
    TransOk (⟨cseq, invite, owner⟩ :: trans.filter fun t => t.cseq ≠ cseq) (cseq + 1) us where
  oneInFlight := by
    have hle : (inFlight (trans.filter fun t => t.cseq ≠ cseq)).length ≤ (inFlight trans).length :=
      (filter_sublist.filter _).length_le
    rw [inFlight, filter_cons]
    split_ifs with hsome
    · rw [(howner hsome).1] at hle
      exact Nat.succ_le_succ hle
    · exact hle.trans h.oneInFlight
  invite := by
    intro t ht hsome
    rcases mem_cons.1 ht with rfl | ht
    · exact (howner hsome).2
    · exact h.invite t (mem_of_mem_filter ht) hsome
  transCSeq := by
    intro t ht
    rw [toNat_add_one hcseq]
    rcases mem_cons.1 ht with rfl | ht
    · exact Nat.lt_succ_self _
    · exact Nat.lt_succ_of_lt (h.transCSeq t (mem_of_mem_filter ht))
  updateCSeq := by
    intro u hu
    rw [toNat_add_one hcseq]
    exact (h.updateCSeq u hu).imp_left Nat.lt_succ_of_lt
  owner := by
    intro t ht u hu hequal
    rcases mem_cons.1 ht with rfl | ht
    · exact absurd hequal (h.fresh hu)
    · exact h.owner t (mem_of_mem_filter ht) u hu hequal
  bound := by
    rw [toNat_add_one hcseq]
    exact hcseq

/-- One more update, with the CSeq of its own transaction if there is one with it. -/
theorem TransOk.insert (hc : u.requestCseq.toNat < cseq.toNat ∨ u.requestCseq = -1)
    (howner : ∀ t ∈ trans, u.requestCseq = t.cseq → t.owner = some u.id)
    (hus : ∀ v ∈ us', v = u ∨ v ∈ us) : TransOk trans cseq us' := by
  refine { h with updateCSeq := fun v hv => ?_, owner := fun t ht v hv hequal => ?_ }
  · rcases hus v hv with rfl | hv
    · exact hc
    · exact h.updateCSeq v hv
  · rcases hus v hv with rfl | hv
    · exact howner t ht hequal
    · exact h.owner t ht v hv hequal

omit h in
theorem TransOk.tail (h : TransOk trans cseq (u :: us)) : TransOk trans cseq us :=
  h.mono (List.Sublist.refl _) (subset_cons_self _ _)

omit h in
/-- An update gets a CSeq. -/
theorem TransOk.setCSeq (h : TransOk trans cseq (u :: us)) (hc : c.toNat < cseq.toNat ∨ c = -1)
    (howner : ∀ t ∈ trans, c = t.cseq → t.owner = some u.id) :
    TransOk trans cseq (u.setCSeq c :: us) :=
  h.tail.insert hc howner fun _ => mem_cons.1

theorem TransOk.ne_neg_one {t : UacTrans} (ht : t ∈ trans) : -1 ≠ t.cseq := by
  intro hequal
  have hlt := h.transCSeq t ht
  rw [← hequal, neg_one_toNat] at hlt
  omega

omit h in
theorem TransOk.reset (h : TransOk trans cseq (u :: us)) : TransOk trans cseq (u.reset :: us) :=
  h.setCSeq (.inr rfl) fun _ ht hequal => absurd hequal (h.ne_neg_one ht)

/-- A new update. -/
theorem TransOk.queue : TransOk trans cseq (us ++ [⟨n, -1⟩]) := by
  refine h.insert (u := ⟨n, -1⟩) (.inr rfl) (fun t ht hequal => ?_) fun v hv => ?_
  · exact absurd hequal (h.ne_neg_one ht)
  · rwa [mem_append, mem_singleton, or_comm] at hv

/-- No transaction of an update is open if no INVITE is. -/
theorem TransOk.inFlight_eq_nil (hinvite : trans.any UacTrans.invite = false) :
    inFlight trans = [] := by
  refine filter_eq_nil_iff.2 fun t ht hsome => ?_
  exact any_eq_false.1 hinvite t ht (h.invite t ht hsome)

/-- Nor if the only one is erased. -/
theorem TransOk.inFlight_erase {t : UacTrans} (ht : t ∈ trans) (hsome : t.owner.isSome = true) :
    inFlight (trans.filter fun x => x.cseq ≠ t.cseq) = [] := by
  have hone : ∃ x, inFlight trans = [x] := by
    rw [← length_eq_one_iff]
    exact le_antisymm h.oneInFlight (length_pos_of_mem (mem_filter.2 ⟨ht, hsome⟩))
  obtain ⟨x, hx⟩ := hone
  have htx : t = x := by
    rw [← mem_singleton, ← hx]
    exact mem_filter.2 ⟨ht, hsome⟩
  rw [inFlight, filter_comm]
  show (inFlight trans).filter _ = []
  rw [hx, htx]
  simp

omit h

/-! ## One operation -/

/-- The CSeqs of the open requests of the remote side, where lower ones are refused. -/
def RemoteOk (s : UpdateQueue) : Prop :=
  s.ignoreNotifyLowerCSeq = false → ∀ t ∈ s.uasTrans, ∃ r, s.rCseq = some r ∧ t.cseq ≤ r

/-- The log and the transactions, with the updates `us` still to be done. -/
structure Core (s : UpdateQueue) (us : List SessionUpdate) : Prop where
  log : LogOk s.log s.nextId (us.map SessionUpdate.id)
  trans : TransOk s.uacTrans s.cseq us
  remote : RemoteOk s

variable {s : UpdateQueue}

theorem not_any_of_canUpdateSession (h : s.canUpdateSession = true) :
    s.uacTrans.any invite = false := by
  rw [canUpdateSession, Bool.not_eq_true', Bool.or_eq_false_iff] at h
  exact h.1

theorem open_of_canUpdateSession_eq_false (h : s.canUpdateSession = false) :
    s.uacTrans.any invite = true ∨ s.uasTrans.any UasTrans.invite = true := by
  rw [canUpdateSession, Bool.not_eq_false', Bool.or_eq_true] at h
  exact h

theorem hasCSeq_of_lt (h : c.toNat < 2 ^ 31) : (u.setCSeq c).hasCSeq = true := by
  have : c.toInt = c.toNat := BitVec.toInt_eq_toNat_of_lt (by omega)
  simp [SessionUpdate.hasCSeq, SessionUpdate.setCSeq, this]

theorem hasCSeq_neg_one : (u.setCSeq (-1)).hasCSeq = false := by
  simp [SessionUpdate.hasCSeq, SessionUpdate.setCSeq]

/-- What applying the first of the updates does : it is in progress, or it may leave. -/
theorem Core.apply (h : Core s (u :: us)) (hinvite : s.uacTrans.any invite = false)
    (hcseq : s.cseq.toNat < 2 ^ 31) (outcome : ApplyOutcome) :
    ∃ s' u', s.apply u outcome = (s', u') ∧ s'.pendingUpdates = s.pendingUpdates ∧
      ((u'.hasCSeq = true ∧ Core s' (u' :: us) ∧ s'.uacTrans.any invite = true) ∨
        (u'.hasCSeq = false ∧ Core (s'.note (left u'.id)) us ∧
          s'.uacTrans.any invite = false ∧ s'.cseq.toNat ≤ s.cseq.toNat + 1)) := by
  cases outcome with
  | sent =>
    have hown : s.cseq + 1 - 1 = s.cseq := BitVec.add_sub_cancel _ _
    refine ⟨_, _, rfl, rfl, .inl ⟨?_, ⟨LogOk.apply h.log, ?_, h.remote⟩, rfl⟩⟩
    · refine hasCSeq_of_lt ?_
      show (s.cseq + 1 - 1).toNat < 2 ^ 31
      rwa [hown]
    · have hsend := h.trans.send hcseq true (some u.id)
        fun _ => ⟨h.trans.inFlight_eq_nil hinvite, rfl⟩
      refine hsend.setCSeq (.inl ?_) fun t ht hequal => ?_
      · show (s.cseq + 1 - 1).toNat < (s.cseq + 1).toNat
        rw [hown, toNat_add_one hcseq]
        exact Nat.lt_succ_self _
      · have htc : s.cseq = t.cseq := hown.symm.trans hequal
        rcases mem_cons.1 ht with rfl | ht
        · rfl
        · exact absurd htc.symm (by simpa using (mem_filter.1 ht).2)
  | failed =>
    exact ⟨_, _, rfl, rfl, .inr ⟨hasCSeq_neg_one,
      ⟨LogOk.leave_applied h.log, h.trans.tail, h.remote⟩, hinvite, Nat.le_succ _⟩⟩
  | stopped =>
    refine ⟨_, _, rfl, rfl, .inr ⟨hasCSeq_neg_one, ⟨LogOk.leave_applied h.log, ?_, h.remote⟩,
      ?_, (toNat_add_one hcseq).le⟩⟩
    · exact h.trans.tail.send hcseq false none nofun
    · show (_ :: _).any invite = false
      rw [any_cons, Bool.false_or, any_eq_false]
      exact fun t ht => any_eq_false.1 hinvite t (mem_of_mem_filter ht)

/-- What an operation leaves : the invariant, with an INVITE open if an update is in progress. -/
structure Applied (s : UpdateQueue) : Prop where
  core : Core s s.pendingUpdates
  inProgress : s.pendingUpdates ≠ [] → s.uacTrans.any invite = true

/-- The loop over the updates. Each of them sends at most one request. -/
theorem applied_applyAll (outcome : ℕ → ApplyOutcome) : ∀ (us : List SessionUpdate)
    {s : UpdateQueue}, Core s us → s.uacTrans.any invite = false →
      s.cseq.toNat + us.length < 2 ^ 31 → Applied (applyAll outcome us s)
  | [], s, h, _, _ => ⟨{ h with }, fun hne => absurd rfl hne⟩
  | u :: us, s, h, hinvite, hcseq => by
    rw [length_cons] at hcseq
    obtain ⟨s', u', hres, -, hdone⟩ :=
      h.apply hinvite (Nat.lt_of_add_right_lt hcseq) (outcome u.id)
    rw [applyAll, hres]
    show Applied (if u'.hasCSeq = true then _ else _)
    rcases hdone with ⟨hsent, hcore, hopen⟩ | ⟨hsent, hcore, hopen, hle⟩
    · rw [if_pos hsent]
      exact ⟨{ hcore with }, fun _ => hopen⟩
    · rw [if_neg (Bool.eq_false_iff.1 hsent)]
      refine applied_applyAll outcome us hcore hopen ?_
      show s'.cseq.toNat + us.length < 2 ^ 31
      omega

theorem Core.newUpdate (h : Core s us) : Core s.newUpdate (us ++ [⟨s.nextId, -1⟩]) where
  log := by
    rw [map_append]
    exact h.log.queue
  trans := h.trans.queue
  remote := h.remote

/-! ## The steps -/

structure Inv (s : UpdateQueue) : Prop where
  core : Core s s.pendingUpdates
  notStuck : NotStuck s

theorem Applied.inv (h : Applied s) : Inv s :=
  ⟨h.core, fun hne => .inl (h.inProgress hne)⟩

theorem inv_init {ignoreNotifyLowerCSeq : Bool} : Inv (init ignoreNotifyLowerCSeq) where
  core := ⟨logOk_nil, transOk_nil (Nat.le_of_ble_eq_true rfl), fun _ _ ht => by cases ht⟩
  notStuck := fun hne => absurd rfl hne

theorem Core.updateSession (h : Core s (s.pendingUpdates ++ [u])) (hstuck : NotStuck s)
    (hcseq : CSeqSmall s) (outcome : ApplyOutcome) : Inv (s.updateSession u outcome) := by
  rw [UpdateQueue.updateSession]
  split_ifs with hlater
  · refine ⟨{ h with }, fun _ => ?_⟩
    rcases hlater with hlater | hlater
    · exact (open_of_canUpdateSession_eq_false hlater).imp_right .inl
    · exact hstuck hlater
  · obtain ⟨hcan, hempty⟩ := not_or.1 hlater
    have hempty := not_not.1 hempty
    have hinvite := not_any_of_canUpdateSession (Bool.eq_true_of_not_eq_false hcan)
    rw [hempty] at h
    obtain ⟨s', u', hres, hsame, hdone⟩ :=
      Core.apply h hinvite (Nat.lt_of_add_right_lt hcseq) outcome
    have hpending := hsame.trans hempty
    rw [hres]
    refine Applied.inv ?_
    dsimp only
    rcases hdone with ⟨hsent, hcore, hopen⟩ | ⟨hsent, hcore, -, -⟩
    · rw [if_pos hsent, hpending]
      exact ⟨{ hcore with }, fun _ => hopen⟩
    · rw [if_neg (Bool.eq_false_iff.1 hsent)]
      refine ⟨?_, fun hne => absurd hpending hne⟩
      show Core (s'.note (left u'.id)) s'.pendingUpdates
      rw [hpending]
      exact hcore

theorem Inv.onApplyEvent (h : Inv s) (hcseq : CSeqSmall s) (outcome : ℕ → ApplyOutcome) :
    Inv (s.onApplyEvent outcome) := by
  rw [UpdateQueue.onApplyEvent]
  split_ifs with hposted
  · exact h
  have hcore : Core { s with posted := s.posted - 1 } s.pendingUpdates :=
    { h.core with }
  rw [applyPendingUpdate]
  split_ifs with hlater
  · refine ⟨hcore, fun hne => ?_⟩
    rcases hlater with hempty | hclosed
    · exact absurd hempty hne
    · exact (open_of_canUpdateSession_eq_false hclosed).imp_right .inl
  · have hcan := Bool.eq_true_of_not_eq_false (not_or.1 hlater).2
    exact (applied_applyAll outcome _ hcore (not_any_of_canUpdateSession hcan) hcseq).inv

theorem Inv.sendRequest (h : Inv s) (hcseq : CSeqSmall s) (invite : Bool) :
    Inv (s.sendRequest invite none) where
  core := ⟨h.core.log, h.core.trans.send (Nat.lt_of_add_right_lt hcseq) invite none nofun,
    h.core.remote⟩
  notStuck := by
    intro hne
    refine (h.notStuck hne).imp_left fun hopen => ?_
    obtain ⟨t, ht, hinvite⟩ := any_eq_true.1 hopen
    have hother := ne_of_toNat_lt (h.core.trans.transCSeq t ht)
    refine any_eq_true.2 ⟨t, mem_cons_of_mem _ (mem_filter.2 ⟨ht, ?_⟩), hinvite⟩
    exact decide_eq_true hother

theorem Inv.fire (h : Inv s) : Inv s.fire := by
  rw [UpdateQueue.fire]
  split_ifs with hstarted
  · exact ⟨{ h.core with }, fun _ => .inr (.inr (.inr (Nat.succ_pos _)))⟩
  · exact h

/-- When a transaction ends the queue is not stuck. -/
theorem notStuck_onTransFinished : NotStuck s.onTransFinished := by
  rw [onTransFinished]
  split_ifs with hlater hstarted
  · intro hne
    rcases hlater with hempty | hclosed
    · exact absurd hempty hne
    · exact (open_of_canUpdateSession_eq_false hclosed).imp_right .inl
  · exact fun _ => .inr (.inr (.inl hstarted))
  · exact fun _ => .inr (.inr (.inr (Nat.succ_pos _)))

theorem Core.onTransFinished (h : Core s s.pendingUpdates) : Inv s.onTransFinished := by
  refine ⟨?_, notStuck_onTransFinished⟩
  rw [UpdateQueue.onTransFinished]
  split_ifs
  · exact h
  · exact h
  · exact { h with }

theorem Core.eraseUac (h : Core s us) (cseq : BitVec 32) : Core (s.eraseUac cseq) us :=
  ⟨h.log, h.trans.mono filter_sublist (List.Subset.refl _), h.remote⟩

theorem Inv.sendAck (h : Inv s) (cseq : BitVec 32) : Inv (s.sendAck cseq) := by
  rw [UpdateQueue.sendAck]
  split_ifs
  · exact Core.onTransFinished (h.core.eraseUac cseq)
  · exact h

theorem Inv.sendFinalReply (h : Inv s) (cseq : BitVec 32) : Inv (s.sendFinalReply cseq) := by
  rw [UpdateQueue.sendFinalReply]
  split_ifs
  · refine Core.onTransFinished ⟨h.core.log, h.core.trans, fun hrefused t ht => ?_⟩
    exact h.core.remote hrefused t (mem_of_mem_filter ht)
  · exact h

/-- The CSeq of a request that is let through is the highest so far, if lower ones are refused. -/
theorem RemoteOk.lt (h : RemoteOk s) (hignore : s.ignoreNotifyLowerCSeq = false)
    {method : RxMethod} (hthrough : ¬ s.refusesCSeq cseq method = true) {t : UasTrans}
    (ht : t ∈ s.uasTrans) : t.cseq < cseq := by
  obtain ⟨r, hr, hle⟩ := h hignore t ht
  have hlt : ¬ cseq ≤ r := fun hge => hthrough (by simp [refusesCSeq, hr, hge, hignore])
  exact Nat.lt_of_le_of_lt hle (BitVec.not_le.1 hlt)

theorem Inv.onRxRequest (h : Inv s) {method : RxMethod} {accepted : Bool}
    (hkeeps : KeepsInvites s (.rxRequest cseq method accepted)) :
    Inv (s.onRxRequest cseq method accepted) := by
  rw [UpdateQueue.onRxRequest]
  split_ifs with hrefused haccepted
  · exact h
  · refine ⟨⟨h.core.log, h.core.trans, fun hignore t ht => ⟨cseq, rfl, ?_⟩⟩, fun hne => ?_⟩
    · rcases mem_cons.1 ht with rfl | ht
      · exact BitVec.le_refl _
      · exact BitVec.le_of_lt (h.core.remote.lt hignore hrefused (mem_of_mem_filter ht))
    · refine (h.notStuck hne).imp_right fun hrest => hrest.imp_left fun hopen => ?_
      obtain ⟨t, ht, hinvite⟩ := any_eq_true.1 hopen
      -- an open INVITE is not replaced by a request that is let through
      have hother : t.cseq ≠ cseq := by
        cases hignore : s.ignoreNotifyLowerCSeq with
        | true => exact hkeeps cseq method accepted rfl hignore t ht hinvite
        | false => exact BitVec.ne_of_lt (h.core.remote.lt hignore hrefused ht)
      refine any_eq_true.2 ⟨t, mem_cons_of_mem _ (mem_filter.2 ⟨ht, ?_⟩), hinvite⟩
      exact decide_eq_true hother
  · refine ⟨⟨h.core.log, h.core.trans, fun hignore t ht => ⟨cseq, rfl, ?_⟩⟩, h.notStuck⟩
    exact BitVec.le_of_lt (h.core.remote.lt hignore hrefused ht)

/-! ## Replies -/

variable {t : UacTrans}

/-- The final reply to the transaction of an update is in the log. -/
def Noted (s : UpdateQueue) (t : UacTrans) (code : ℕ) : Prop :=
  ∀ id, t.owner = some id → 200 ≤ code → ∃ before, s.log = before ++ [replied id code]

theorem Inv.noteReply (h : Inv s) (t : UacTrans) (code : ℕ) : Inv (s.noteReply t code) := by
  rw [UpdateQueue.noteReply]
  cases t.owner with
  | none => exact h
  | some id =>
    split_ifs
    · exact ⟨⟨LogOk.reply h.core.log, h.core.trans, h.core.remote⟩, h.notStuck⟩
    · exact h

theorem noted_noteReply : Noted (s.noteReply t code) t code := by
  intro id howner hfinal
  rw [UpdateQueue.noteReply, howner]
  dsimp only
  rw [if_pos hfinal]
  exact ⟨s.log, rfl⟩

theorem noteReply_same :
    (s.noteReply t code).uacTrans = s.uacTrans ∧ (s.noteReply t code).cseq = s.cseq := by
  rw [UpdateQueue.noteReply]
  split
  · split_ifs <;> exact ⟨rfl, rfl⟩
  · exact ⟨rfl, rfl⟩

/-- The first update leaves or is tried again only with the reply to its own transaction. -/
theorem Inv.onSipReply (h : Inv s) (ht : t ∈ s.uacTrans) (hnoted : Noted s t code) :
    Inv (s.onSipReply t.cseq code) := by
  obtain ⟨⟨hlog, htrans, hremote⟩, hstuck⟩ := h
  rw [UpdateQueue.onSipReply]
  cases hpending : s.pendingUpdates with
  | nil => exact ⟨⟨hlog, htrans, hremote⟩, hstuck⟩
  | cons u us =>
    rw [hpending] at hlog htrans
    dsimp only
    split_ifs with hfinal hretry
    · exact ⟨⟨hlog, htrans.reset, hremote⟩, fun _ => .inr (.inr (.inl rfl))⟩
    · have howner := htrans.owner t ht u mem_cons_self (of_decide_eq_true hfinal.2)
      obtain ⟨before, hbefore⟩ := hnoted u.id howner hfinal.1
      refine ⟨⟨LogOk.leave hlog fun id hid => .inl ⟨before, code, ?_, hfinal.1, hretry⟩,
        htrans.tail, hremote⟩, fun _ => hstuck (hpending ▸ cons_ne_nil u us)⟩
      rw [← left.inj hid]
      exact hbefore
    · refine ⟨⟨?_, ?_, hremote⟩, hstuck⟩
      · rwa [hpending]
      · rwa [hpending]

/-- A request that is sent again takes the place of the one that was challenged. -/
theorem Core.resend (h : Core s us) (ht : t ∈ s.uacTrans) (hcseq : s.cseq.toNat < 2 ^ 31) :
    Core ((s.sendRequest t.invite t.owner).eraseUac t.cseq) us := by
  have herase := (h.eraseUac t.cseq).trans
  have hsend := herase.send hcseq t.invite t.owner fun hsome =>
    ⟨h.trans.inFlight_erase ht hsome, h.trans.invite t ht hsome⟩
  have hne := (ne_of_toNat_lt (h.trans.transCSeq t ht)).symm
  refine ⟨h.log, ?_, h.remote⟩
  have hcomm : ((s.sendRequest t.invite t.owner).eraseUac t.cseq).uacTrans =
      ⟨s.cseq, t.invite, t.owner⟩ ::
        (s.uacTrans.filter fun x => x.cseq ≠ t.cseq).filter fun x => x.cseq ≠ s.cseq := by
    rw [UpdateQueue.eraseUac, UpdateQueue.sendRequest, filter_cons,
      if_pos (by simpa using hne), filter_comm]
  rw [hcomm]
  exact hsend

/-- A reply that is not answered with a new request. -/
theorem Inv.finish (h : Inv s) {hfinal : Prop} [Decidable hfinal] :
    Inv (if hfinal then (s.eraseUac cseq).onTransFinished else s) := by
  split_ifs
  · exact Core.onTransFinished (h.core.eraseUac cseq)
  · exact h

theorem Inv.onRxReply (h : Inv s) (hcseq : CSeqSmall s) (cseq : BitVec 32) (code : ℕ)
    (handler : ReplyHandler) : Inv (s.onRxReply cseq code handler) := by
  rw [UpdateQueue.onRxReply]
  cases hfind : s.uacTrans.find? fun t => t.cseq = cseq with
  | none => exact h
  | some t =>
    obtain rfl : t.cseq = cseq := by simpa using find?_some hfind
    have hinv := h.noteReply t code
    have ht : t ∈ (s.noteReply t code).uacTrans := by
      rw [noteReply_same.1]
      exact mem_of_find?_eq_some hfind
    have hreply := hinv.onSipReply ht noted_noteReply
    cases handler with
    | leg => exact hreply.finish
    | callControl => exact hinv.finish
    | auth =>
      by_cases hchallenge : code = 401 ∨ code = 407
      · have hsmall : (s.noteReply t code).cseq.toNat < 2 ^ 31 := by
          rw [noteReply_same.2]
          exact Nat.lt_of_add_right_lt hcseq
        have hfinal : 200 ≤ code ∧ (t.invite = false ∨ 300 ≤ code) := by omega
        dsimp only [handleReply]
        rw [if_pos hchallenge, if_pos hfinal]
        exact Core.onTransFinished (hinv.core.resend ht hsmall)
      · dsimp only [handleReply]
        rw [if_neg hchallenge]
        exact hreply.finish

theorem Inv.step (h : Inv s) {ev : UpdateEv} (hok : StepOk s ev) : Inv (s.step ev) := by
  cases ev with
  | updateSession outcome => exact h.core.newUpdate.updateSession h.notStuck hok.cseqSmall outcome
  | applyPending outcome => exact h.onApplyEvent hok.cseqSmall outcome
  | request invite => exact h.sendRequest hok.cseqSmall invite
  | rxReply cseq code handler => exact h.onRxReply hok.cseqSmall cseq code handler
  | ack cseq => exact h.sendAck cseq
  | rxRequest cseq method accepted => exact h.onRxRequest hok.keepsInvites
  | finalReply cseq => exact h.sendFinalReply cseq
  | timer => exact h.fire

theorem Inv.updatesOk (h : Inv s) : UpdatesOk s :=
  ⟨h.core.log.inOrder, h.core.trans.oneInFlight, h.core.log.leaves, h.notStuck⟩

/-! ## The runs -/

/-- The queue is kept in order and is never stuck, while the CSeqs are below 2^31 and no INVITE of
the remote side is replaced. -/
theorem run_updatesOk (ignoreNotifyLowerCSeq : Bool) (evs : List UpdateEv)
    (hok : RunOk step StepOk (init ignoreNotifyLowerCSeq) evs) :
    UpdatesOk (run ignoreNotifyLowerCSeq evs) :=
  Inv.updatesOk (hok.inv (fun h hstep => h.step hstep) inv_init)

/-- Two updates, the first of which is tried again after a 491. -/
def retried : List UpdateEv :=
  [.updateSession .sent, .updateSession .sent, .rxReply 10 491 .leg, .timer,
    .applyPending fun _ => .sent, .rxReply 11 200 .leg, .ack 11, .applyPending fun _ => .sent]

theorem StepOk.of_refuses (hrefuses : s.ignoreNotifyLowerCSeq = false) (hcseq : CSeqSmall s)
    {ev : UpdateEv} : StepOk s ev :=
  ⟨hcseq, fun _ _ _ _ hignore => absurd (hrefuses.symm.trans hignore) Bool.false_ne_true⟩

theorem run_updatesOk_retried :
    RunOk step StepOk (init false) retried ∧ UpdatesOk (run false retried) ∧
      (run false retried).log = [queued 0, applied 0 true, queued 1, replied 0 491,
        applied 0 true, replied 0 200, left 0, applied 1 true] := by
  have hok : RunOk step StepOk (init false) retried := by
    refine ⟨?_, ?_, ?_, ?_, ?_, ?_, ?_, ?_, trivial⟩ <;>
      exact StepOk.of_refuses rfl (Nat.lt_of_sub_ne_zero (by decide +kernel))
  exact ⟨hok, run_updatesOk false retried hok, by decide +kernel⟩

/-! ## CSeqs that are negative for an update -/

/-- Requests other than INVITE that are answered, one after the other. -/
def otherRequests (n : ℕ) : List UpdateEv :=
  (List.range n).flatMap fun i => [.request false, .rxReply (BitVec.ofNat 32 (10 + i)) 200 .leg]

/-- The queue of a new leg with another CSeq. -/
def atCSeq (b : Bool) (cseq : BitVec 32) : UpdateQueue :=
  { init b with cseq }

/-- Such a request uses up a CSeq. -/
theorem step_otherRequest (b : Bool) (c : BitVec 32) :
    ((atCSeq b c).step (.request false)).step (.rxReply c 200 .leg) = atCSeq b (c + 1) := by
  simp [step, sendRequest, onRxReply, atCSeq, init, noteReply, handleReply,
    UpdateQueue.onSipReply, UpdateQueue.eraseUac, UpdateQueue.onTransFinished]

theorem run_otherRequests {b : Bool} :
    ∀ n, run b (otherRequests n) = atCSeq b (BitVec.ofNat 32 (10 + n))
  | 0 => rfl
  | n + 1 => by
    have hsplit : otherRequests (n + 1) = otherRequests n ++
        [.request false, .rxReply (BitVec.ofNat 32 (10 + n)) 200 .leg] := by
      rw [otherRequests, range_succ, flatMap_append]
      rfl
    have ih : (otherRequests n).foldl step (init b) = _ := run_otherRequests n
    rw [run, hsplit, foldl_append, ih, foldl_cons, foldl_cons, foldl_nil, step_otherRequest]
    congr 1
    rw [← Nat.add_assoc, BitVec.ofNat_add (10 + n)]
    rfl

theorem run_otherRequests_concat (b : Bool) (n : ℕ) (ev : UpdateEv) :
    run b (otherRequests n ++ [ev]) = (atCSeq b (BitVec.ofNat 32 (10 + n))).step ev := by
  rw [← run_otherRequests, run, foldl_append]
  rfl

/-- With the CSeq 2^31 the re-INVITE of an update goes out, and the update leaves the queue with its
transaction open and no reply. -/
theorem run_signedCSeq :
    ¬ UpdatesOk (run false (otherRequests (2 ^ 31 - 10) ++ [.updateSession .sent])) := by
  intro h
  have hlog : (run false (otherRequests (2 ^ 31 - 10) ++ [.updateSession .sent])).log =
      [queued 0, applied 0 true] ++ left 0 :: [] := by
    rw [run_otherRequests_concat]
    decide +kernel
  rcases h.leaves _ _ _ hlog 0 rfl with ⟨before, code, hpre, -⟩ | ⟨before, hpre⟩
  · have := append_inj_right' (show [queued 0] ++ [applied 0 true] = _ from hpre) rfl
    simp at this
  · have := append_inj_right' (show [queued 0] ++ [applied 0 true] = _ from hpre) rfl
    simp at this

end UpdateQueue

end Sems
