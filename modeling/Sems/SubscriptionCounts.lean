import Sems.SubscriptionLinks

/-!
# What is owed to a subscription

`Counted P` says for the subscriptions in `P` that the CSeq maps have the requests that were given
to them and are without a final reply, that `pending_subscribe` is the number of the SUBSCRIBE and
REFER requests among them, and that `replyFSM` has worked on each final reply. The functions of
`AmSipSubscription` keep it, where no such request gets a provisional reply, since the CSeq maps
forget a request with any reply (`Counted.onReply`).
-/

namespace Sems

open List Function OrdMap Assigned SubCtx
open Function (update)

/-! ## What is owed to a subscription -/

/-- A SUBSCRIBE or REFER of the subscription at `p`. -/
def Assigned.countsFor (p : ℕ) (a : Assigned) : Bool :=
  decide (a.ptr = p) && a.accepted

/-- The SUBSCRIBE and REFER requests of `p` without a final reply, in both directions. -/
def openFor (owed : Side → OrdMap ℕ Assigned) (p : ℕ) : ℕ :=
  (owed .uas).countP (Assigned.countsFor p) + (owed .uac).countP (Assigned.countsFor p)

section OpenFor

variable {owed : Side → OrdMap ℕ Assigned} {side : Side} {key p : ℕ} {a : Assigned}

theorem openFor_update (owed : Side → OrdMap ℕ Assigned) (side : Side) (p : ℕ)
    (m : OrdMap ℕ Assigned) :
    openFor (update owed side m) p + (owed side).countP (countsFor p) =
      openFor owed p + m.countP (countsFor p) := by
  cases side <;> simp only [openFor, update_self, ne_eq, reduceCtorEq, not_false_eq_true,
    update_of_ne] <;> omega

theorem openFor_erase_of_not (h : ∀ a, (owed side).find? key = some a → a.countsFor p = false) :
    openFor (update owed side ((owed side).erase key)) p = openFor owed p := by
  have hcount := openFor_update owed side p ((owed side).erase key)
  rw [countP_erase_of_not h] at hcount
  omega

theorem openFor_erase (h : (owed side).find? key = some a) :
    openFor owed p = openFor (update owed side ((owed side).erase key)) p +
      if a.countsFor p then 1 else 0 := by
  have hcount := openFor_update owed side p ((owed side).erase key)
  have herase := countP_erase (p := countsFor p) h
  omega

theorem openFor_insert (h : (owed side).find? key = none) :
    openFor (update owed side ((owed side).insert key a)) p =
      openFor owed p + if a.countsFor p then 1 else 0 := by
  have hcount := openFor_update owed side p ((owed side).insert key a)
  have hinsert := countP_insert (p := countsFor p) (v := a) h
  omega

theorem openFor_eq_zero (h : ∀ {side c a}, (owed side).find? c = some a → a.ptr ≠ p) :
    openFor owed p = 0 := by
  have hzero : ∀ side, (owed side).countP (countsFor p) = 0 := fun side => by
    refine countP_eq_zero.2 fun e he => ?_
    have hne := h (find?_eq_some_iff.2 (show (e.1, e.2) ∈ (owed side).entries from he))
    simp [countsFor, hne]
  rw [openFor, hzero, hzero]

/-- Two maps after a change of one entry of one. -/
theorem find?_update {V : Type*} {m : Side → OrdMap ℕ V} {m' : OrdMap ℕ V} {v : Option V}
    (hm : m'.find? = update (m side).find? key v) {side' : Side} {c : ℕ} :
    (update m side m' side').find? c = if side' = side ∧ c = key then v else (m side').find? c := by
  by_cases hside : side' = side
  · subst hside
    rw [update_self, hm]
    by_cases hc : c = key
    · rw [if_pos ⟨rfl, hc⟩, hc, update_self]
    · rw [if_neg fun h => hc h.2, update_of_ne hc]
  · rw [if_neg fun h => hside h.1, update_of_ne hside]

end OpenFor

namespace AmSipSubscription

variable {cfg : SubConfig} {env : SubEnv} {s s' : AmSipSubscription} {side : Side} {p q : ℕ}
variable {req : AmSipRequest} {reply : AmSipReply} {cseq : BitVec 32} {code : ℕ}
variable {P P' : ℕ → Prop} {u : BitVec 32 → Option SipMethod}

/-- For the subscriptions in `P`, the CSeq maps have what is owed, and `pending_subscribe` counts
it. The owed requests are open in the dialog, those of the client side in `u`. -/
structure Counted (P : ℕ → Prop) (u : BitVec 32 → Option SipMethod) (s : AmSipSubscription) :
    Prop where
  owns : ∀ {side c p}, (s.cseqMap side).find? c = some p →
    ∃ a, (s.owed side).find? c = some a ∧ a.ptr = p
  kept : ∀ {side c a}, (s.owed side).find? c = some a → P a.ptr →
    (s.cseqMap side).find? c = some a.ptr
  fresh : ∀ {side c a}, (s.owed side).find? c = some a → a.ptr < s.nextPtr
  uas : ∀ {c : BitVec 32} {a}, (s.owed .uas).find? c.toNat = some a →
    ∃ req, (s.trans .uas).get c = some req ∧ a.accepted = req.method.subscribes
  uac : ∀ {c : BitVec 32} {a}, (s.owed .uac).find? c.toNat = some a →
    ∃ method, u c = some method ∧ a.accepted = method.subscribes
  pending : ∀ sub ∈ s.subs, P sub.ptr → sub.pendingSubscribe = openFor s.owed sub.ptr
  done : s.done = s.due

/-- All subscriptions in the list are counted. -/
abbrev AllCounted (u : BitVec 32 → Option SipMethod) (s : AmSipSubscription) : Prop :=
  Counted (· ∈ s.ptrs) u s

theorem Counted.imp (h : Counted P u s) (hP : ∀ q, P' q → P q) : Counted P' u s :=
  { h with
    kept := fun ha hp => h.kept ha (hP _ hp)
    pending := fun sub hsub hp => h.pending sub hsub (hP _ hp) }

/-- Other fields change, and transactions of the server side for which nothing is owed. -/
theorem Counted.of_core (h : Counted P u s) (hsubs : s'.subs = s.subs)
    (hnext : s'.nextPtr = s.nextPtr) (hmap : s'.cseqMap = s.cseqMap) (howed : s'.owed = s.owed)
    (hdue : s'.due = s.due) (hdone : s'.done = s.done)
    (htrans : ∀ {c : BitVec 32} {a r}, (s.owed .uas).find? c.toNat = some a →
      (s.trans .uas).get c = some r → (s'.trans .uas).get c = some r) : Counted P u s' := by
  refine ⟨?_, ?_, ?_, fun {c a} ha => ?_, ?_, ?_, ?_⟩
  · rw [hmap, howed]
    exact h.owns
  · rw [hmap, howed]
    exact h.kept
  · rw [hnext, howed]
    exact h.fresh
  · rw [howed] at ha
    obtain ⟨r, hr, hacc⟩ := h.uas ha
    exact ⟨r, htrans ha hr, hacc⟩
  · rw [howed]
    exact h.uac
  · rw [hsubs, howed]
    exact h.pending
  · rw [hdue, hdone]
    exact h.done

/-! ## Replies that no subscription takes -/

theorem Counted.noteReply (h : Counted P u s)
    (hmap : (s.cseqMap side).find? cseq.toNat = none)
    (hdead : ∀ a, (s.owed side).find? cseq.toNat = some a → s.isLive a.ptr = false) :
    Counted P u (s.noteReply side cseq code) := by
  unfold AmSipSubscription.noteReply
  split
  · exact h
  split
  · exact h
  rw [hdead _ ‹_›]
  have hout : ∀ a, (s.owed side).find? cseq.toNat = some a → ¬ P a.ptr := fun a ha hp => by
    have hfound := h.kept ha hp
    rw [hmap] at hfound
    exact nomatch hfound
  refine ⟨fun {side' c p} hm => ?_, fun {side' c a} ha hp => h.kept (find?_of_update_erase ha) hp,
    fun ha => h.fresh (find?_of_update_erase ha), fun ha => h.uas (find?_of_update_erase ha),
    fun ha => h.uac (find?_of_update_erase ha), fun sub hsub hp => ?_, h.done⟩
  · obtain ⟨a, ha, hptr⟩ := h.owns hm
    refine ⟨a, ?_, hptr⟩
    rw [find?_update find?_erase_eq, if_neg, ha]
    rintro ⟨rfl, rfl⟩
    rw [hmap] at hm
    exact nomatch hm
  · rw [openFor_erase_of_not fun a ha => ?_]
    · exact h.pending sub hsub hp
    · have hne : a.ptr ≠ sub.ptr := fun heq => hout a ha (heq ▸ hp)
      simp [countsFor, hne]

theorem owed_noteReply_final (hfinal : 200 ≤ code) :
    ((s.noteReply side cseq code).owed side).find? cseq.toNat = none := by
  unfold AmSipSubscription.noteReply
  rw [if_neg (Nat.not_lt.2 hfinal)]
  cases ha : (s.owed side).find? cseq.toNat with
  | none => exact ha
  | some a => rw [find?_update find?_erase_eq, if_pos ⟨rfl, rfl⟩]

/-- A transaction of the server side is over when nothing is owed for it. -/
theorem Counted.removeTrans (h : Counted P u s)
    (howed : (s.owed .uas).find? cseq.toNat = none) :
    Counted P u (s.setTrans .uas (TransMap.remove (s.trans .uas) cseq)) := by
  refine h.of_core rfl rfl rfl rfl rfl rfl fun {c a r} ha hr => ?_
  have hne : c ≠ cseq := by
    rintro rfl
    rw [howed] at ha
    exact nomatch ha
  rw [trans_setTrans, update_self, TransMap.get_remove_ne hne]
  exact hr

/-! ## Removing a subscription -/

theorem Counted.eraseMap {key : ℕ} (h : Counted P u s)
    (hm : (s.cseqMap side).find? key = some p) (hp : ¬ P p) :
    Counted P u (s.setMap side ((s.cseqMap side).erase key)) := by
  refine { h with
    owns := fun hm' => h.owns (find?_of_update_erase hm'), kept := fun {side' c a} ha hpa => ?_ }
  rw [cseqMap_setMap, find?_update find?_erase_eq, if_neg, h.kept ha hpa]
  rintro ⟨rfl, rfl⟩
  have hfound := h.kept ha hpa
  rw [hm] at hfound
  cases hfound
  exact hp hpa

theorem isLive_congr (h : s'.subs = s.subs) : s'.isLive p = s.isLive p := by
  rw [isLive, isLive, object_congr h]

theorem Counted.dropUas {key : ℕ} (h : Counted P u s) (hl : Linked s)
    (hm : (s.cseqMap .uas).find? key = some p) (hp : ¬ P p) (hdead : s.isLive p = false) :
    Counted P u (s.dropUas env key) := by
  have herased := h.eraseMap hm hp
  have hkey : (BitVec.ofNat 32 key).toNat = key := by
    exact Nat.mod_eq_of_lt (hl.small hm)
  have hnone : ((s.setMap .uas ((s.cseqMap .uas).erase key)).cseqMap .uas).find? key = none := by
    rw [cseqMap_setMap, find?_update find?_erase_eq, if_pos ⟨rfl, rfl⟩]
  unfold AmSipSubscription.dropUas
  dsimp only
  cases htrans : ((s.setMap .uas ((s.cseqMap .uas).erase key)).trans .uas).get
      (BitVec.ofNat 32 key) with
  | none => exact herased
  | some req =>
    have hcseq := hl.keyed htrans
    have hnoted : Counted P u ((s.setMap .uas ((s.cseqMap .uas).erase key)).noteReply .uas
        req.cseq 481) := by
      refine herased.noteReply (by rw [hcseq, hkey]; exact hnone) fun a ha => ?_
      rw [hcseq, hkey] at ha
      obtain ⟨a', ha', hptr⟩ := h.owns hm
      have haa : a' = a := Option.some.inj (ha'.symm.trans ha)
      rw [← haa, hptr]
      exact hdead
    unfold sendReply
    dsimp only
    rw [hcseq, htrans]
    split_ifs
    · rw [← hcseq]
      exact hnoted.removeTrans (owed_noteReply_final (by decide))
    · rw [← hcseq]
      exact hnoted
    · exact herased

theorem Counted.dropAll (hp : ¬ P p) :
    ∀ (l : List (ℕ × ℕ)) {s : AmSipSubscription}, Counted P u s → Linked s → s.isLive p = false →
      (l.map Prod.fst).Nodup → (∀ e ∈ l, (s.cseqMap .uas).find? e.1 = some p) →
      Counted P u (l.foldl (fun s e => s.dropUas env e.1) s)
  | [], _, h, _, _, _, _ => h
  | e :: l, s, h, hl, hdead, hn, hmem => by
    obtain ⟨hm, hrest⟩ := forall_mem_cons.1 hmem
    rw [map_cons, nodup_cons] at hn
    refine Counted.dropAll hp l (h.dropUas hl hm hp hdead)
      (hl.of_trims trims_dropUas) ?_ hn.2 fun e' he' => ?_
    · rw [isLive_congr (congrArg Core.subs trims_dropUas.core)]
      exact hdead
    · rw [cseqMap_dropUas, find?_update find?_erase_eq, if_neg]
      · exact hrest e' he'
      · rintro ⟨-, heq⟩
        exact hn.1 (heq ▸ mem_map_of_mem he')

theorem removeSubFromUACCSeqMap_eq :
    s.removeSubFromUACCSeqMap p = s.setMap .uac ((s.cseqMap .uac).eraseVal p) := by
  have hfold : ∀ (l : List (ℕ × ℕ)) (s : AmSipSubscription),
      l.foldl (fun s e => s.setMap .uac ((s.cseqMap .uac).erase e.1)) s =
        s.setMap .uac (l.foldl (fun m e => m.erase e.1) (s.cseqMap .uac)) := fun l => by
    induction l with
    | nil => intro s; simp [setMap]
    | cons e l ih =>
      intro s
      rw [foldl_cons, ih, foldl_cons, cseqMap_setMap, update_self]
      simp [setMap]
  exact hfold _ s

theorem Counted.removeSubscription (h : Counted P u s) (hl : Linked s) (hp : ¬ P p)
    (hdead : s.isLive p = false) : Counted P u (s.removeSubscription env p) := by
  have huac : Counted P u (s.removeSubFromUACCSeqMap p) := by
    rw [removeSubFromUACCSeqMap_eq]
    refine { h with owns := fun {side c q} hm => ?_, kept := fun {side c a} ha hpa => ?_ }
    · rw [cseqMap_setMap] at hm
      cases side with
      | uas => exact h.owns (by rwa [update_of_ne (by decide)] at hm)
      | uac =>
        rw [update_self, find?_eraseVal] at hm
        split_ifs at hm
        exact h.owns hm
    · have hfound := h.kept ha hpa
      rw [cseqMap_setMap]
      cases side with
      | uas => rwa [update_of_ne (by decide)]
      | uac =>
        rw [update_self, find?_eraseVal, if_neg, hfound]
        rw [hfound]
        rintro ⟨⟩
        exact hp hpa
  have hluac : Linked (s.removeSubFromUACCSeqMap p) :=
    hl.of_trims trims_removeSubFromUACCSeqMap
  have hdead' : (s.removeSubFromUACCSeqMap p).isLive p = false := by
    rw [isLive_congr (congrArg Core.subs trims_removeSubFromUACCSeqMap.core)]
    exact hdead
  have huas : Counted P u ((s.removeSubFromUACCSeqMap p).removeSubFromUASCSeqMap env p) := by
    refine huac.dropAll hp _ hluac hdead' ?_ fun e he => ?_
    · refine List.Nodup.sublist (filter_sublist.map _) ?_
      exact (pairwise_map.2 ((s.removeSubFromUACCSeqMap p).cseqMap .uas).sorted).imp ne_of_lt
    · obtain ⟨hmem, hval⟩ := mem_filter.1 he
      have heq : e = (e.1, p) := Prod.ext rfl (of_decide_eq_true hval)
      exact find?_eq_some_iff.2 (heq ▸ hmem)
  refine { huas with pending := fun sub hsub hps => ?_ }
  refine huas.pending sub ?_ hps
  rcases mem_replaceKey.1 hsub with ⟨hmem, -⟩ | ⟨heq, -⟩
  · exact hmem
  · exact nomatch heq

/-! ## Replies -/

/-- Nothing in the list but what `P` has. -/
theorem Counted.all (h : Counted P u s) (hP : ∀ q ∈ s.ptrs, P q) : AllCounted u s :=
  h.imp hP

theorem isLive_of_notMem (h : p ∉ s.ptrs) : s.isLive p = false := by
  unfold isLive
  cases hobj : s.object p with
  | none => rfl
  | some sub => exact absurd (mem_ptrs_of_object hobj) h

variable {sub : SingleSubscription}

theorem isLive_of_object (h : s.object p = some sub) : s.isLive p = sub.live := by
  rw [isLive, h]
  rfl

/-- A final reply to a request of the subscription at `p` is noted and worked on. -/
theorem replyTaken_eq {a : Assigned} (ha : (s.owed side).find? req.cseq.toNat = some a)
    (hptr : a.ptr = p) (hfinal : 200 ≤ code) :
    s.replyTaken side req code p =
      { s with
        cseqMap := update s.cseqMap side ((s.cseqMap side).erase req.cseq.toNat)
        owed := update s.owed side ((s.owed side).erase req.cseq.toNat)
        due := if s.isLive p then s.due ++ [⟨side, req.cseq, p, code⟩] else s.due
        done := if s.isLive p then s.done ++ [⟨side, req.cseq, p, code⟩] else s.done } := by
  have hcode : ¬ code < 200 := Nat.not_lt.2 hfinal
  unfold replyTaken AmSipSubscription.noteReply
  rw [if_neg hcode, ha]
  unfold setMap
  dsimp only
  unfold noteDone
  rw [if_neg hcode]
  subst hptr
  have hsame : ∀ {due owed map}, isLive { s with cseqMap := map, owed := owed, due := due } a.ptr =
      s.isLive a.ptr := rfl
  rw [hsame]
  cases s.isLive a.ptr <;> simp

variable (h : AllCounted u s)

include h

variable (hl : Linked s)

include hl

theorem Counted.remove (hobj : s.object p = some sub) (hterm : sub.live = false) :
    AllCounted u (s.removeSubscription env p) := by
  refine Counted.all ?_ fun q hq =>
    mem_ptrs_removeSubscription.1 hq
  exact (h.imp fun q hq => hq.1).removeSubscription hl (fun hc => hc.2 rfl)
    ((isLive_of_object hobj).trans hterm)

theorem Counted.replied (hm : (s.cseqMap side).find? req.cseq.toNat = some p)
    (hfinal : 200 ≤ reply.code)
    (hacc : ∀ a, (s.owed side).find? req.cseq.toNat = some a → a.accepted = req.method.subscribes) :
    AllCounted u (s.replied cfg env side req reply p) := by
  rw [AllCounted, ptrs_replied]
  obtain ⟨a, ha, hptr⟩ := h.owns hm
  obtain ⟨sub, hobj⟩ := exists_object (h := hl.maps hm)
  obtain ⟨hsub, hsubptr⟩ := mem_of_object hobj
  rw [replied_eq hobj, replyTaken_eq ha hptr hfinal]
  refine ⟨fun {side' c q} hm' => ?_, fun {side' c a'} ha' hp => ?_,
    fun ha' => h.fresh (find?_of_update_erase ha'), fun ha' => h.uas (find?_of_update_erase ha'),
    fun ha' => h.uac (find?_of_update_erase ha'), fun sub' hsub' hp => ?_, ?_⟩
  · rw [find?_update find?_erase_eq] at hm' ⊢
    split_ifs at hm' ⊢ with hsame
    exact h.owns hm'
  · rw [find?_update find?_erase_eq] at ha' ⊢
    split_ifs at ha' ⊢ with hsame
    exact h.kept ha' hp
  · rcases mem_replaceKey.1 hsub' with ⟨hmem, hne⟩ | ⟨heq, -⟩
    · rw [openFor_erase_of_not fun a' ha' => ?_]
      · exact h.pending sub' hmem hp
      · have haa : a' = a := Option.some.inj (ha'.symm.trans ha)
        have hne' : a'.ptr ≠ sub'.ptr := fun hc => hne (by rw [← hc, haa, hptr])
        simp [countsFor, hne']
    · cases heq
      have hkeep : SubCtx.Keeps ⟨sub, s.usages, s.remoteTag, s.events⟩
          (replyFSM cfg env.clock ⟨sub, s.usages, s.remoteTag, s.events⟩ req reply) :=
        keeps_replyFSM
      have hcount := openFor_erase (p := p) ha
      have hpend := h.pending sub hsub (mem_ptrs_of_object (hsubptr.symm ▸ hobj))
      have hcounts : a.countsFor p = req.method.subscribes := by
        simp [countsFor, hptr, hacc a ha]
      rw [hkeep.ptr, hsubptr, pending_replyFSM hfinal]
      rw [hpend, hsubptr, hcount, hcounts]
      split_ifs <;> simp
  · rw [h.done]

theorem Counted.onReply (hok : 200 ≤ reply.code ∨ (s.cseqMap side).find? req.cseq.toNat = none)
    (hacc : ∀ a, (s.owed side).find? req.cseq.toNat = some a → a.accepted = req.method.subscribes) :
    AllCounted u (s.onReply cfg env side req reply).1 := by
  cases hm : (s.cseqMap side).find? req.cseq.toNat with
  | none =>
    rw [onReply_of_none hm, AllCounted, ptrs,
      show (s.noteReply side req.cseq reply.code).subs = s.subs from
        congrArg Core.subs trims_noteReply.core]
    refine h.noteReply hm fun a ha => isLive_of_notMem fun hp => ?_
    have hfound := h.kept ha hp
    rw [hm] at hfound
    cases hfound
  | some p =>
    have hfinal := hok.resolve_right (by simp [hm])
    have hreplied : AllCounted u (s.replied cfg env side req reply p) :=
      h.replied hl hm hfinal hacc
    obtain ⟨sub, hobj⟩ := exists_object (h := hl.maps hm)
    rw [onReply_of_some hm hobj hl.nodup]
    split_ifs with hterm
    · refine hreplied.remove (serves_replied hl).linked (object_replied hobj hl.nodup) ?_
      simp [SingleSubscription.live, hterm]
    · exact hreplied

omit hl in
omit h in
theorem owed_onReply_final (hfinal : 200 ≤ reply.code) (hl : Linked s) :
    ((s.onReply cfg env side req reply).1.owed side).find? req.cseq.toNat = none := by
  have hnoted : ((s.noteReply side req.cseq reply.code).owed side).find? req.cseq.toNat = none :=
    owed_noteReply_final hfinal
  cases hm : (s.cseqMap side).find? req.cseq.toNat with
  | none =>
    rw [onReply_of_none hm]
    exact hnoted
  | some p =>
    obtain ⟨sub, hobj⟩ := exists_object (h := hl.maps hm)
    have hreplied :
        ((s.replied cfg env side req reply p).owed side).find? req.cseq.toNat = none := by
      have htaken : (s.replyTaken side req reply.code p).owed =
          (s.noteReply side req.cseq reply.code).owed := by
        obtain ⟨_, heq⟩ := noteDone_eq ((s.noteReply side req.cseq reply.code).setMap side
          ((s.cseqMap side).erase req.cseq.toNat)) side req.cseq p reply.code
        rw [replyTaken, heq]
        rfl
      rw [replied_eq hobj]
      rw [htaken]
      exact hnoted
    rw [onReply_of_some hm hobj hl.nodup]
    split_ifs
    · rw [Option.eq_none_iff_forall_ne_some] at hreplied ⊢
      exact fun a ha => hreplied a (follows_removeSubscription.owed ha)
    · exact hreplied

/-- A reply of the application to a request it has from the dialog. -/
theorem counted_reply {hdrs : Str} (hreq : ∀ r, (s.trans .uas).get req.cseq = some r → r = req)
    (hok : 200 ≤ code ∨ (s.cseqMap .uas).find? req.cseq.toNat = none) :
    AllCounted u (s.reply cfg env req code hdrs) := by
  unfold AmSipSubscription.reply sendReply
  cases htrans : (s.trans .uas).get req.cseq with
  | none => exact h
  | some r =>
    have hsent : AllCounted u (s.onReplySent cfg env req (newReply req code hdrs)) := by
      refine h.onReply hl hok fun a ha => ?_
      obtain ⟨r', hr', hacc⟩ := h.uas ha
      rw [hacc, hreq r' hr']
    split_ifs with hsends hfinal
    · exact hsent.removeTrans (owed_onReply_final hfinal.1 hl)
    · exact hsent
    · exact h

/-! ## Methods and requests -/

omit hl in
theorem Counted.withObject {f : SubCtx → SubCtx} (hf : ∀ c, Leaves c (f c)) :
    AllCounted u (s.withObject p f) := by
  rw [AllCounted, ptrs_withObject fun c => (hf c).toKeeps]
  cases hobj : s.object p with
  | none =>
    rw [AmSipSubscription.withObject, hobj]
    exact { h with }
  | some sub =>
    obtain ⟨hsub, hptr⟩ := mem_of_object hobj
    rw [withObject_of_some hobj]
    refine { h with pending := fun sub' hsub' hp => ?_ }
    rcases mem_replaceKey.1 hsub' with ⟨hmem, -⟩ | ⟨heq, -⟩
    · exact h.pending sub' hmem hp
    · cases heq
      rw [(hf _).pending, (hf _).ptr]
      exact h.pending sub hsub (mem_ptrs_of_object (hptr.symm ▸ hobj))

omit hl in
theorem Counted.createSubscription {uac : Bool} :
    AllCounted u (s.createSubscription req uac).1 := by
  unfold AmSipSubscription.createSubscription
  cases hmake : s.makeSubscription req uac with
  | none => exact h
  | some sub =>
    have hsub : sub.ptr = s.nextPtr ∧ sub.pendingSubscribe = 0 := by
      simp only [makeSubscription] at hmake
      split_ifs at hmake <;> cases hmake <;> exact ⟨rfl, rfl⟩
    have hptrs : (s.subs ++ [sub]).map SingleSubscription.ptr = s.ptrs ++ [s.nextPtr] := by
      rw [map_append, ← hsub.1]
      rfl
    refine ⟨h.owns, fun ha hp => ?_, fun ha => Nat.lt_succ_of_lt (h.fresh ha), h.uas, h.uac,
      fun sub' hsub' _ => ?_, h.done⟩
    · rw [ptrs, hptrs] at hp
      rcases mem_append.1 hp with hp | hp
      · exact h.kept ha hp
      · have := h.fresh ha
        rw [mem_singleton.1 hp] at this
        exact absurd this (lt_irrefl _)
    · rcases mem_append.1 hsub' with hmem | hnew
      · exact h.pending sub' hmem (mem_map_of_mem hmem)
      · rw [mem_singleton.1 hnew, hsub.2, hsub.1]
        rw [openFor_eq_zero fun ha => ne_of_lt (h.fresh ha)]
        rfl

theorem Counted.findSubscription {role : SubRole} {event id : Str} :
    AllCounted u (s.findSubscription env role event id).1 := by
  unfold AmSipSubscription.findSubscription
  cases hmatch : s.matching role event id with
  | none => exact h
  | some sub =>
    dsimp only
    split_ifs with hterm
    · exact h.remove hl (object_of_mem hl.nodup (mem_of_find?_eq_some hmatch))
        (by simp [SingleSubscription.live, hterm])
    · exact h

theorem Counted.matchSubscription (env : SubEnv) (req : AmSipRequest) (toTag : Str) (uac : Bool) :
    AllCounted u (s.matchSubscription env req toTag uac).1 := by
  rcases matchSubscription_cases s env req toTag uac with heq | heq | ⟨role, heq | heq⟩ <;> rw [heq]
  · exact h.createSubscription
  · exact h
  · exact h.findSubscription hl
  · exact (h.findSubscription hl).createSubscription

/-- The request with the CSeq is open, and `b` says whether it subscribes. -/
def Opened (u : BitVec 32 → Option SipMethod) (s : AmSipSubscription) (cseq : BitVec 32)
    (b : Bool) : Side → Prop
  | .uas => ∃ req, (s.trans .uas).get cseq = some req ∧ req.method.subscribes = b
  | .uac => ∃ method, u cseq = some method ∧ method.subscribes = b

omit hl in
/-- A request for the subscription at `p`, which counts if `b` says so. -/
theorem Counted.assigned {b : Bool} {subs' : List SingleSubscription} (hp : p < s.nextPtr)
    (howed : (s.owed side).find? cseq.toNat = none)
    (hsubs : ∀ sub' ∈ subs', ∃ sub ∈ s.subs, sub'.ptr = sub.ptr ∧
      sub'.pendingSubscribe = sub.pendingSubscribe + if b = true ∧ sub.ptr = p then 1 else 0)
    (hopen : Opened u s cseq b side) :
    Counted (· ∈ s.ptrs) u
      { s with
        cseqMap := update s.cseqMap side ((s.cseqMap side).insert cseq.toNat p)
        owed := update s.owed side ((s.owed side).insert cseq.toNat ⟨p, b⟩)
        subs := subs' } := by
  refine ⟨fun {side' c q} hm => ?_, fun {side' c a} ha hpa => ?_, fun {side' c a} ha => ?_,
    fun {c a} ha => ?_, fun {c a} ha => ?_, fun sub' hsub' hps => ?_, h.done⟩
  · rw [find?_update find?_insert_eq] at hm ⊢
    split_ifs at hm ⊢ with hsame
    · cases hm
      exact ⟨_, rfl, rfl⟩
    · exact h.owns hm
  · rw [find?_update find?_insert_eq] at ha ⊢
    split_ifs at ha ⊢ with hsame
    · cases ha
      rfl
    · exact h.kept ha hpa
  · rw [find?_update find?_insert_eq] at ha
    split_ifs at ha with hsame
    · cases ha
      exact hp
    · exact h.fresh ha
  · rw [find?_update find?_insert_eq] at ha
    split_ifs at ha with hsame
    · cases ha
      obtain ⟨rfl, hc⟩ := hsame
      rw [BitVec.eq_of_toNat_eq hc]
      obtain ⟨req, hreq, hb⟩ := hopen
      exact ⟨req, hreq, hb.symm⟩
    · exact h.uas ha
  · rw [find?_update find?_insert_eq] at ha
    split_ifs at ha with hsame
    · cases ha
      obtain ⟨rfl, hc⟩ := hsame
      rw [BitVec.eq_of_toNat_eq hc]
      obtain ⟨method, hmethod, hb⟩ := hopen
      exact ⟨method, hmethod, hb.symm⟩
    · exact h.uac ha
  · obtain ⟨sub, hsub, hptr, hpend⟩ := hsubs sub' hsub'
    rw [openFor_insert howed, hpend, hptr, h.pending sub hsub (mem_map_of_mem hsub)]
    have hcond : (countsFor sub.ptr ⟨p, b⟩ = true) ↔ (b = true ∧ sub.ptr = p) := by
      simp only [countsFor, Bool.and_eq_true, decide_eq_true_eq]
      exact ⟨fun hc => ⟨hc.2, hc.1.symm⟩, fun hc => ⟨hc.2.symm, hc.1⟩⟩
    by_cases hc : b = true ∧ sub.ptr = p
    · rw [if_pos hc, if_pos (hcond.2 hc)]
      rfl
    · rw [if_neg hc, if_neg fun h' => hc (hcond.1 h')]
      rfl

theorem Counted.assign (hp : p ∈ s.ptrs) (howed : (s.owed side).find? cseq.toNat = none)
    (hopen : Opened u s cseq false side) : AllCounted u (s.assign side cseq p) :=
  h.assigned (hl.fresh p hp) howed
    (fun sub hsub => ⟨sub, hsub, rfl, by rw [if_neg (fun hc => nomatch hc.1), Int.add_zero]⟩) hopen

theorem Counted.subscribe (hp : p ∈ s.ptrs) (howed : (s.owed side).find? cseq.toNat = none)
    (hopen : Opened u s cseq true side) :
    AllCounted u ((s.assign side cseq p).accept side cseq p) := by
  obtain ⟨sub, hobj⟩ := exists_object hp
  obtain ⟨hsub, hptr⟩ := mem_of_object hobj
  have hptrs : ((s.assign side cseq p).accept side cseq p).ptrs = s.ptrs := ptrs_accept
  have hobj' : (s.assign side cseq p).object p = some sub := hobj
  rw [AllCounted, hptrs, AmSipSubscription.accept, withObject_of_some hobj']
  simp only [AmSipSubscription.assign, addPending, update_self, update_idem, insert_insert]
  refine h.assigned (hl.fresh p hp) howed (fun sub' hsub' => ?_) hopen
  rcases mem_replaceKey.1 hsub' with ⟨hmem, hne⟩ | ⟨heq, -⟩
  · exact ⟨sub', hmem, rfl, by rw [if_neg fun hc => hne hc.2, Int.add_zero]⟩
  · cases heq
    exact ⟨sub, hsub, rfl, by rw [if_pos ⟨rfl, hptr⟩]⟩

theorem Counted.onNotify
    (hreq : cfg.dialog = true → ∀ r, (s.trans .uas).get req.cseq = some r → r = req) :
    AllCounted u (s.onNotify cfg env p req) := by
  unfold AmSipSubscription.onNotify
  split_ifs with hdlg
  · have hreply : AllCounted u (s.reply cfg env req 200 []) :=
      counted_reply h hl (hreq hdlg) (.inl (le_refl 200))
    dsimp only
    cases (s.reply cfg env req 200 []).object p with
    | none | some sub => exact { hreply with }
  · exact h

theorem Counted.requestFSM
    (hreq : cfg.dialog = true → req.method = .NOTIFY →
      ∀ r, (s.trans .uas).get req.cseq = some r → r = req) :
    AllCounted u (s.requestFSM cfg env p req) := by
  unfold AmSipSubscription.requestFSM
  split_ifs with hsub hnotify
  · exact h.withObject fun _ => leaves_onSubscribe
  · exact h.onNotify hl fun hdlg => hreq hdlg hnotify
  · exact h

end AmSipSubscription

end Sems
