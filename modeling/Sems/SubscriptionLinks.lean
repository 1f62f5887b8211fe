import Sems.SipSubscription
import Sems.Runs

/-!
# The links between a dialog's subscriptions

`Linked` holds in every run (`linked_run`) : the subscriptions have different addresses, the two
CSeq maps have addresses of subscriptions in the list only, and the usages of the dialog are the
subscriptions that are not terminated. A method of a subscription changes the usages along with the
state (`SubCtx.Keeps`). `core` is what the records and the maps leave alone, and `Trims` says of a
call that it only takes entries out of them.
-/

namespace Sems

open List Function OrdMap SingleSubscription
open Function (update)

def SingleSubscription.live (sub : SingleSubscription) : Bool :=
  decide (sub.state ≠ .terminated)

namespace SubCtx

variable {cfg : SubConfig} {clock : ℤ} {c c' c'' : SubCtx} {req : AmSipRequest} {reply : AmSipReply}

/-- 1 for a subscription that is not terminated. -/
def live (c : SubCtx) : ℤ :=
  if c.sub.live then 1 else 0

/-- The address stays, and a usage is given back when the subscription ends. -/
structure Keeps (c c' : SubCtx) : Prop where
  ptr : c'.sub.ptr = c.sub.ptr
  usages : c'.usages + c.live = c.usages + c'.live

theorem Keeps.trans (h : Keeps c c') (h' : Keeps c' c'') : Keeps c c'' :=
  ⟨h'.ptr.trans h.ptr, by have := h.usages; have := h'.usages; omega⟩

/-- The number of pending requests stays as well. -/
structure Leaves (c c' : SubCtx) : Prop extends Keeps c c' where
  pending : c'.sub.pendingSubscribe = c.sub.pendingSubscribe

theorem Leaves.refl (c : SubCtx) : Leaves c c :=
  ⟨⟨rfl, rfl⟩, rfl⟩

theorem Leaves.trans' (h : Leaves c c') (h' : Leaves c' c'') : Leaves c c'' :=
  ⟨h.toKeeps.trans h'.toKeeps, h'.pending.trans h.pending⟩

/-- Other fields. -/
theorem Keeps.of_same (hptr : c'.sub.ptr = c.sub.ptr) (hstate : c'.sub.state = c.sub.state)
    (husages : c'.usages = c.usages) : Keeps c c' :=
  ⟨hptr, by
    rw [live, live, SingleSubscription.live, SingleSubscription.live, hstate, husages]⟩

theorem leaves_setState {st : SubState} : Leaves c (c.setState st) := by
  unfold setState
  split_ifs with hterm hst
  · exact Leaves.refl c
  · exact ⟨⟨rfl, by simp [live, SingleSubscription.live, hterm]⟩, rfl⟩
  · exact ⟨⟨rfl, by simp [live, SingleSubscription.live, hterm, hst]⟩, rfl⟩

theorem leaves_terminate : Leaves c c.terminate :=
  leaves_setState

theorem leaves_fail : Leaves c (c.terminate.onFailureReply cfg reply) := by
  refine leaves_terminate.trans' ?_
  unfold onFailureReply
  split_ifs
  · exact ⟨.of_same rfl rfl rfl, rfl⟩
  · exact Leaves.refl _

theorem keeps_addPending {n : ℤ} : Keeps c (c.addPending n) :=
  Keeps.of_same rfl rfl rfl

theorem leaves_onSubscribeOk : Leaves c (c.onSubscribeOk cfg clock reply) := by
  have htag : Leaves c (if c.remoteTag = [] then { c with remoteTag := reply.toTag } else c) := by
    split_ifs
    · exact ⟨.of_same rfl rfl rfl, rfl⟩
    · exact Leaves.refl c
  unfold onSubscribeOk
  refine htag.trans' ?_
  cases replyExpires reply.hdrs with
  | some subExpires =>
    dsimp only
    by_cases hexp : subExpires ≠ 0
    · rw [if_pos hexp]
      exact ⟨.of_same rfl rfl rfl, rfl⟩
    · rw [if_neg hexp]
      exact Leaves.refl _
  | none =>
    dsimp only
    by_cases hm : reply.cseqMethod = .SUBSCRIBE
    · rw [if_pos hm]
      exact leaves_fail
    · rw [if_neg hm]
      exact Leaves.refl _

theorem leaves_onSubscribeFailed : Leaves c (c.onSubscribeFailed cfg reply) := by
  unfold onSubscribeFailed
  split_ifs
  · exact leaves_fail
  · exact leaves_fail
  · exact Leaves.refl c

theorem leaves_onNotifyReply : Leaves c (c.onNotifyReply cfg clock req reply) := by
  unfold onNotifyReply
  split_ifs
  · exact leaves_fail
  · exact Leaves.refl c
  · exact leaves_terminate
  · exact leaves_setState.trans' ⟨.of_same rfl rfl rfl, rfl⟩

theorem leaves_onSubscribeReply : Leaves c (if 300 ≤ reply.code then c.onSubscribeFailed cfg reply
    else c.onSubscribeOk cfg clock reply) := by
  split_ifs
  · exact leaves_onSubscribeFailed
  · exact leaves_onSubscribeOk

theorem keeps_replyFSM : Keeps c (c.replyFSM cfg clock req reply) := by
  unfold replyFSM
  split
  · exact (Leaves.refl c).toKeeps
  by_cases hsub : req.method.subscribes
  · rw [if_pos hsub]
    exact leaves_onSubscribeReply.toKeeps.trans keeps_addPending
  · split_ifs
    · exact leaves_onNotifyReply.toKeeps
    · exact (Leaves.refl c).toKeeps

/-- A final reply to a SUBSCRIBE or REFER is counted, and no other reply is. -/
theorem pending_replyFSM (hfinal : 200 ≤ reply.code) :
    (c.replyFSM cfg clock req reply).sub.pendingSubscribe =
      c.sub.pendingSubscribe - if req.method.subscribes then 1 else 0 := by
  unfold replyFSM
  rw [if_neg (Nat.not_lt.2 hfinal)]
  by_cases hsub : req.method.subscribes
  · rw [if_pos hsub, if_pos hsub]
    rw [addPending]
    rw [leaves_onSubscribeReply.pending]
    rfl
  · split_ifs
    · rw [leaves_onNotifyReply.pending, Int.sub_zero]
    · rw [Int.sub_zero]

theorem leaves_onSubscribe : Leaves c c.onSubscribe := by
  unfold onSubscribe
  split_ifs
  · exact leaves_setState
  · exact Leaves.refl c

end SubCtx

namespace TransMap

variable {m : TransMap} {c c' : BitVec 32} {req : AmSipRequest}

theorem get_set_self : (m.set c req).get c = some req :=
  find?_insert

theorem get_set_ne (h : c' ≠ c) : (m.set c req).get c' = m.get c' :=
  find?_insert_ne fun heq => h (BitVec.eq_of_toInt_eq heq)

theorem get_remove_self : (m.remove c).get c = none := by
  rw [get, remove, find?_erase_eq, update_self]

theorem get_remove_ne (h : c' ≠ c) : (m.remove c).get c' = m.get c' := by
  rw [get, remove, find?_erase_eq, update_of_ne fun heq => h (BitVec.eq_of_toInt_eq heq), get]

theorem of_get_remove (h : (m.remove c).get c' = some req) : m.get c' = some req := by
  by_cases hc : c' = c
  · rw [hc, get_remove_self] at h
    exact nomatch h
  · rwa [get_remove_ne hc] at h

end TransMap

open TransMap

namespace AmSipSubscription

variable {cfg : SubConfig} {env : SubEnv} {s s' : AmSipSubscription} {side : Side} {p q : ℕ}
variable {req : AmSipRequest} {reply : AmSipReply} {cseq : BitVec 32} {code : ℕ}

/-! ## What only the methods of subscriptions change -/

structure Core where
  remoteTag : Str
  callid : Str
  cseq : BitVec 32
  rCseq : Option (BitVec 32)
  usages : ℤ
  subs : List SingleSubscription
  nextPtr : ℕ
  allowSublessNotify : Bool
  events : List SIPSubscriptionEvent
  dangling : Bool

def core (s : AmSipSubscription) : Core :=
  ⟨s.remoteTag, s.callid, s.cseq, s.rCseq, s.usages, s.subs, s.nextPtr, s.allowSublessNotify,
    s.events, s.dangling⟩

variable {hook : AmSipSubscription → AmSipSubscription}

/-! ## Calls that take entries out of the maps -/

/-- No entry of a CSeq map, no transaction and no owed reply that was not there before. -/
structure Shrinks (s s' : AmSipSubscription) : Prop where
  map : ∀ {side c p}, (s'.cseqMap side).find? c = some p → (s.cseqMap side).find? c = some p
  trans : ∀ {side c req}, (s'.trans side).get c = some req → (s.trans side).get c = some req
  owed : ∀ {side c a}, (s'.owed side).find? c = some a → (s.owed side).find? c = some a

/-- The transactions of the client side stay as well. -/
structure Follows (s s' : AmSipSubscription) : Prop extends Shrinks s s' where
  uac : s'.trans .uac = s.trans .uac

/-- Nothing else changes. -/
structure Trims (s s' : AmSipSubscription) : Prop extends Follows s s' where
  core : s'.core = s.core

theorem Shrinks.of_eq (hmap : s'.cseqMap = s.cseqMap) (htrans : s'.trans = s.trans)
    (howed : s'.owed = s.owed) : Shrinks s s' :=
  ⟨fun h => hmap ▸ h, fun h => htrans ▸ h, fun h => howed ▸ h⟩

theorem Follows.of_eq (hmap : s'.cseqMap = s.cseqMap) (htrans : s'.trans = s.trans)
    (howed : s'.owed = s.owed) : Follows s s' :=
  ⟨.of_eq hmap htrans howed, congrFun htrans .uac⟩

theorem Follows.refl (s : AmSipSubscription) : Follows s s :=
  .of_eq rfl rfl rfl

variable {s'' : AmSipSubscription}

theorem Follows.trans' (h : Follows s s') (h' : Follows s' s'') : Follows s s'' :=
  ⟨⟨fun hm => h.map (h'.map hm), fun ht => h.trans (h'.trans ht), fun ho => h.owed (h'.owed ho)⟩,
    h'.uac.trans h.uac⟩

theorem Trims.refl (s : AmSipSubscription) : Trims s s :=
  ⟨.refl s, rfl⟩

theorem Trims.trans' (h : Trims s s') (h' : Trims s' s'') : Trims s s'' :=
  ⟨h.toFollows.trans' h'.toFollows, h'.core.trans h.core⟩

variable {f : AmSipSubscription → ℕ × ℕ → AmSipSubscription}

theorem Trims.foldl (hf : ∀ s e, Trims s (f s e)) :
    ∀ (l : List (ℕ × ℕ)) (s : AmSipSubscription), Trims s (l.foldl f s)
  | [], s => Trims.refl s
  | e :: l, s => (hf s e).trans' (Trims.foldl hf l (f s e))

variable {key c : ℕ}

/-- What is found in one of two maps after an entry of one has been erased. -/
theorem find?_of_update_erase {V : Type*} {m : Side → OrdMap ℕ V} {side' : Side} {v : V}
    (h : (update m side ((m side).erase key) side').find? c = some v) :
    (m side').find? c = some v := by
  by_cases hside : side' = side
  · subst hside
    rw [update_self, find?_eq_some_iff, mem_erase] at h
    exact find?_eq_some_iff.2 h.1
  · rwa [update_of_ne hside] at h

theorem trims_erase : Trims s (s.setMap side ((s.cseqMap side).erase key)) :=
  ⟨⟨⟨fun h => find?_of_update_erase h, id, id⟩, rfl⟩, rfl⟩

theorem trans_setTrans (m : TransMap) : (s.setTrans side m).trans = update s.trans side m :=
  rfl

theorem shrinks_removeTrans : Shrinks s (s.setTrans side (remove (s.trans side) cseq)) := by
  refine ⟨id, fun {side' c req} h => ?_, id⟩
  rw [trans_setTrans] at h
  by_cases hside : side' = side
  · subst hside
    rw [update_self] at h
    exact of_get_remove h
  · rwa [update_of_ne hside] at h

theorem trims_removeTrans : Trims s (s.setTrans .uas (remove (s.trans .uas) cseq)) :=
  ⟨⟨shrinks_removeTrans, by rw [trans_setTrans, update_of_ne (by decide)]⟩, rfl⟩

/-- What `noteReply` can change. -/
theorem noteReply_eq (s : AmSipSubscription) (side : Side) (cseq : BitVec 32) (code : ℕ) :
    ∃ owed due, s.noteReply side cseq code = { s with owed := owed, due := due } ∧
      (owed = s.owed ∨ owed = update s.owed side ((s.owed side).erase cseq.toNat)) := by
  unfold noteReply
  split_ifs
  · exact ⟨_, _, rfl, .inl rfl⟩
  · cases (s.owed side).find? cseq.toNat with
    | none => exact ⟨_, _, rfl, .inl rfl⟩
    | some a => exact ⟨_, _, rfl, .inr rfl⟩

theorem trims_noteReply : Trims s (s.noteReply side cseq code) := by
  obtain ⟨owed, due, heq, howed⟩ := noteReply_eq s side cseq code
  rw [heq]
  refine ⟨⟨⟨id, id, fun h => ?_⟩, rfl⟩, rfl⟩
  rcases howed with rfl | rfl
  · exact h
  · exact find?_of_update_erase h

theorem cseqMap_noteReply : (s.noteReply side cseq code).cseqMap = s.cseqMap := by
  obtain ⟨_, _, heq, -⟩ := noteReply_eq s side cseq code
  rw [heq]

theorem trans_noteReply : (s.noteReply side cseq code).trans = s.trans := by
  obtain ⟨_, _, heq, -⟩ := noteReply_eq s side cseq code
  rw [heq]

theorem noteDone_eq (s : AmSipSubscription) (side : Side) (cseq : BitVec 32) (p code : ℕ) :
    ∃ done, s.noteDone side cseq p code = { s with done := done } := by
  unfold noteDone
  split_ifs <;> exact ⟨_, rfl⟩

theorem trims_noteDone : Trims s (s.noteDone side cseq p code) := by
  obtain ⟨_, heq⟩ := noteDone_eq s side cseq p code
  rw [heq]
  exact ⟨.of_eq rfl rfl rfl, rfl⟩

theorem sendReply_cases (env : SubEnv) (hook : AmSipSubscription → AmSipSubscription)
    (s : AmSipSubscription) (req : AmSipRequest) (code : ℕ) :
    s.sendReply env hook req code = s ∨ s.sendReply env hook req code = hook s ∨
      s.sendReply env hook req code =
        (hook s).setTrans .uas (remove ((hook s).trans .uas) req.cseq) := by
  unfold sendReply
  cases (s.trans .uas).get req.cseq with
  | none => exact .inl rfl
  | some _ =>
    split_ifs
    · exact .inr (.inr rfl)
    · exact .inr (.inl rfl)
    · exact .inl rfl

theorem trims_sendReply (hhook : Trims s (hook s)) : Trims s (s.sendReply env hook req code) := by
  rcases sendReply_cases env hook s req code with heq | heq | heq <;> rw [heq]
  · exact .refl s
  · exact hhook
  · exact hhook.trans' trims_removeTrans

theorem trims_dropUas : Trims s (s.dropUas env key) := by
  unfold dropUas
  dsimp only
  cases ((s.setMap .uas ((s.cseqMap .uas).erase key)).trans .uas).get (BitVec.ofNat 32 key) with
  | none => exact trims_erase
  | some req => exact trims_erase.trans' (trims_sendReply trims_noteReply)

theorem trims_removeSubFromUACCSeqMap : Trims s (s.removeSubFromUACCSeqMap p) :=
  Trims.foldl (fun _ _ => trims_erase) _ _

/-- The call before the subscription is taken out of the list. -/
theorem trims_removeSubFromCSeqMaps :
    Trims s ((s.removeSubFromUACCSeqMap p).removeSubFromUASCSeqMap env p) :=
  trims_removeSubFromUACCSeqMap.trans' (Trims.foldl (fun _ _ => trims_dropUas) _ _)

theorem follows_removeSubscription : Follows s (s.removeSubscription env p) :=
  trims_removeSubFromCSeqMaps.toFollows.trans' (.of_eq rfl rfl rfl)

/-- Removing a subscription changes the list, and nothing else but the maps, the transactions and
the records. -/
theorem core_removeSubscription :
    (s.removeSubscription env p).core = { s.core with subs := replaceKey ptr p none s.subs } := by
  show { ((s.removeSubFromUACCSeqMap p).removeSubFromUASCSeqMap env p).core with
      subs := replaceKey ptr p none
        ((s.removeSubFromUACCSeqMap p).removeSubFromUASCSeqMap env p).core.subs } = _
  rw [trims_removeSubFromCSeqMaps.core]
  rfl

theorem subs_removeSubscription :
    (s.removeSubscription env p).subs = replaceKey ptr p none s.subs :=
  congrArg Core.subs core_removeSubscription

/-! ## The CSeq maps -/

theorem cseqMap_setMap (m : OrdMap ℕ ℕ) : (s.setMap side m).cseqMap = update s.cseqMap side m :=
  rfl

theorem cseqMap_dropUas (key : ℕ) :
    (s.dropUas env key).cseqMap = update s.cseqMap .uas ((s.cseqMap .uas).erase key) := by
  unfold dropUas
  dsimp only
  cases ((s.setMap .uas ((s.cseqMap .uas).erase key)).trans .uas).get (BitVec.ofNat 32 key) with
  | none => rfl
  | some req =>
    dsimp only
    rcases sendReply_cases env (·.noteReply .uas req.cseq 481)
      (s.setMap .uas ((s.cseqMap .uas).erase key)) req 481 with heq | heq | heq <;> rw [heq]
    · rfl
    · exact cseqMap_noteReply
    · exact cseqMap_noteReply

/-- Rounds that each erase one key of a map. -/
theorem cseqMap_foldl
    (hf : ∀ s e, (f s e).cseqMap = update s.cseqMap side ((s.cseqMap side).erase e.1)) :
    ∀ (l : List (ℕ × ℕ)) (s : AmSipSubscription), (l.foldl f s).cseqMap =
      update s.cseqMap side (l.foldl (fun m e => m.erase e.1) (s.cseqMap side))
  | [], s => by simp
  | e :: l, s => by
    rw [foldl_cons, cseqMap_foldl hf l, hf, update_self, update_idem, foldl_cons]

theorem cseqMap_removeSubFromUACCSeqMap :
    (s.removeSubFromUACCSeqMap p).cseqMap = update s.cseqMap .uac ((s.cseqMap .uac).eraseVal p) :=
  cseqMap_foldl (fun _ _ => rfl) _ _

theorem cseqMap_removeSubFromUASCSeqMap :
    (s.removeSubFromUASCSeqMap env p).cseqMap =
      update s.cseqMap .uas ((s.cseqMap .uas).eraseVal p) :=
  cseqMap_foldl (fun _ _ => cseqMap_dropUas _) _ _

/-- A removed subscription is in neither map, and nothing else changes in them. -/
theorem find?_removeSubscription (c : ℕ) :
    ((s.removeSubscription env p).cseqMap side).find? c =
      if (s.cseqMap side).find? c = some p then none else (s.cseqMap side).find? c := by
  show ((((s.removeSubFromUACCSeqMap p).removeSubFromUASCSeqMap env p).cseqMap) side).find? c = _
  rw [cseqMap_removeSubFromUASCSeqMap, cseqMap_removeSubFromUACCSeqMap]
  cases side with
  | uas => rw [update_self, update_of_ne (by decide), find?_eraseVal]
  | uac => rw [update_of_ne (by decide), update_self, find?_eraseVal]

/-! ## Objects -/

/-- The addresses of the subscriptions in the list. -/
def ptrs (s : AmSipSubscription) : List ℕ :=
  s.subs.map SingleSubscription.ptr

variable {sub : SingleSubscription}

theorem mem_of_object (h : s.object p = some sub) : sub ∈ s.subs ∧ sub.ptr = p :=
  ⟨mem_of_find?_eq_some h, by simpa using find?_some h⟩

theorem exists_object (h : p ∈ s.ptrs) : ∃ sub, s.object p = some sub := by
  obtain ⟨sub, hsub, hptr⟩ := mem_map.1 h
  exact Option.isSome_iff_exists.1 (find?_isSome.2 ⟨sub, hsub, by simpa using hptr⟩)

theorem mem_ptrs_of_object (h : s.object p = some sub) : p ∈ s.ptrs :=
  let ⟨hmem, hptr⟩ := mem_of_object h
  hptr ▸ mem_map_of_mem hmem

theorem object_of_mem (hn : s.ptrs.Nodup) (h : sub ∈ s.subs) : s.object sub.ptr = some sub := by
  obtain ⟨sub', hsub'⟩ := exists_object (mem_map_of_mem h)
  obtain ⟨hmem, hptr⟩ := mem_of_object hsub'
  rw [hsub', inj_on_of_nodup_map hn hmem h hptr]

theorem object_congr (h : s'.subs = s.subs) : s'.object p = s.object p := by
  rw [object, object, h]

/-! ## The invariant -/

/-- The list, the maps and the usages agree, and a transaction has the CSeq of its request. -/
structure Linked (s : AmSipSubscription) : Prop where
  nodup : s.ptrs.Nodup
  fresh : ∀ p ∈ s.ptrs, p < s.nextPtr
  maps : ∀ {side c p}, (s.cseqMap side).find? c = some p → p ∈ s.ptrs
  small : ∀ {side c p}, (s.cseqMap side).find? c = some p → c < 2 ^ 32
  usages : s.usages = s.subs.countP SingleSubscription.live
  keyed : ∀ {side c req}, (s.trans side).get c = some req → req.cseq = c

theorem Linked.of_shrinks (h : Linked s) (hs : Shrinks s s') (hsubs : s'.subs = s.subs)
    (hnext : s'.nextPtr = s.nextPtr) (husages : s'.usages = s.usages) : Linked s' := by
  have hptrs : s'.ptrs = s.ptrs := congrArg (List.map ptr) hsubs
  refine ⟨hptrs ▸ h.nodup, ?_, fun hm => hptrs ▸ h.maps (hs.map hm), fun hm => h.small (hs.map hm),
    ?_, fun ht => h.keyed (hs.trans ht)⟩
  · rw [hptrs, hnext]
    exact h.fresh
  · rw [husages, hsubs]
    exact h.usages

theorem Linked.of_trims (h : Linked s) (ht : Trims s s') : Linked s' :=
  h.of_shrinks ht.toShrinks (congrArg Core.subs ht.core) (congrArg Core.nextPtr ht.core)
    (congrArg Core.usages ht.core)

/-- The links hold after a call, and the transactions of the client side stay. -/
structure Serves (s s' : AmSipSubscription) : Prop where
  linked : Linked s'
  uac : s'.trans .uac = s.trans .uac

theorem Linked.serves (h : Linked s) : Serves s s :=
  ⟨h, rfl⟩

theorem Serves.of_follows (h : Follows s s') (hl : Linked s') : Serves s s' :=
  ⟨hl, h.uac⟩

theorem Serves.trans (h : Serves s s') (h' : Serves s' s'') : Serves s s'' :=
  ⟨h'.linked, h'.uac.trans h.uac⟩

variable {f : SubCtx → SubCtx}

/-- A call of a method that keeps what `SubCtx.Keeps` says. -/
theorem withObject_of_some (h : s.object p = some sub) :
    s.withObject p f =
      { s with
        subs := replaceKey ptr p
          (some (f ⟨sub, s.usages, s.remoteTag, s.events⟩).sub) s.subs
        usages := (f ⟨sub, s.usages, s.remoteTag, s.events⟩).usages
        remoteTag := (f ⟨sub, s.usages, s.remoteTag, s.events⟩).remoteTag
        events := (f ⟨sub, s.usages, s.remoteTag, s.events⟩).events } := by
  rw [withObject, h]

theorem ptrs_withObject (hf : ∀ c, SubCtx.Keeps c (f c)) : (s.withObject p f).ptrs = s.ptrs := by
  cases hobj : s.object p with
  | none => rw [withObject, hobj]; rfl
  | some sub =>
    rw [withObject_of_some hobj]
    exact map_replaceKey_some ((hf _).ptr.trans (mem_of_object hobj).2)

theorem Linked.withObject (h : Linked s) (hf : ∀ c, SubCtx.Keeps c (f c)) :
    Linked (s.withObject p f) := by
  have hptrs := ptrs_withObject (s := s) (p := p) hf
  cases hobj : s.object p with
  | none =>
    rw [AmSipSubscription.withObject, hobj]
    exact { h with }
  | some sub =>
    obtain ⟨hmem, hptr⟩ := mem_of_object hobj
    have hkeeps := hf ⟨sub, s.usages, s.remoteTag, s.events⟩
    rw [withObject_of_some hobj] at hptrs ⊢
    refine ⟨hptrs ▸ h.nodup, hptrs ▸ h.fresh, fun hm => hptrs ▸ h.maps hm, h.small, ?_, h.keyed⟩
    have hcount := countP_replaceKey (s := some (f ⟨sub, s.usages, s.remoteTag, s.events⟩).sub)
      live sub h.nodup hmem
    have husages := hkeeps.usages
    simp only [SubCtx.live] at husages
    simp only [hptr, Option.toList_some, countP_singleton] at hcount
    have hold := h.usages
    dsimp only
    split_ifs at hcount husages <;> omega

theorem mem_ptrs_removeSubscription :
    q ∈ (s.removeSubscription env p).ptrs ↔ q ∈ s.ptrs ∧ q ≠ p := by
  rw [ptrs, subs_removeSubscription]
  exact mem_map_replaceKey_none

theorem Linked.removeSubscription (h : Linked s)
    (hp : ∀ sub, s.object p = some sub → sub.live = false) :
    Linked (s.removeSubscription env p) := by
  have hsubs : (s.removeSubscription env p).subs = _ := subs_removeSubscription
  have hnext : (s.removeSubscription env p).nextPtr = s.nextPtr :=
    congrArg Core.nextPtr core_removeSubscription
  have husages : (s.removeSubscription env p).usages = s.usages :=
    congrArg Core.usages core_removeSubscription
  refine ⟨?_, fun q hq => ?_, fun {side c q} hm => ?_,
    fun hm => h.small (follows_removeSubscription.map hm), ?_,
    fun ht => h.keyed (follows_removeSubscription.trans ht)⟩
  · rw [ptrs, hsubs]
    exact nodup_replaceKey (fun _ hy => nomatch hy) h.nodup
  · rw [hnext]
    exact h.fresh q (mem_ptrs_removeSubscription.1 hq).1
  · rw [find?_removeSubscription] at hm
    split_ifs at hm with hq
    exact mem_ptrs_removeSubscription.2 ⟨h.maps hm, fun heq => hq (heq ▸ hm)⟩
  · rw [husages, hsubs, h.usages]
    by_cases hin : p ∈ s.ptrs
    · obtain ⟨sub, hobj⟩ := exists_object hin
      obtain ⟨hsub, hptr⟩ := mem_of_object hobj
      have hcount := countP_replaceKey (s := none) live sub h.nodup hsub
      rw [hp sub hobj, hptr] at hcount
      simp only [Bool.false_eq_true, if_false, Option.toList_none, countP_nil] at hcount
      omega
    · rw [replaceKey_of_notMem hin]

/-! ## Replies -/

/-- The subscription at `p` after `replyFSM` has worked on a reply. -/
def afterFSM (cfg : SubConfig) (env : SubEnv) (s : AmSipSubscription) (sub : SingleSubscription)
    (req : AmSipRequest) (reply : AmSipReply) : SingleSubscription :=
  (SubCtx.replyFSM cfg env.clock ⟨sub, s.usages, s.remoteTag, s.events⟩ req reply).sub

/-- The state in which `onReply` calls `replyFSM`. -/
def replyTaken (side : Side) (s : AmSipSubscription) (req : AmSipRequest) (code p : ℕ) :
    AmSipSubscription :=
  ((s.noteReply side req.cseq code).setMap side
    ((s.cseqMap side).erase req.cseq.toNat)).noteDone side req.cseq p code

/-- The state after `replyFSM`. -/
def replied (cfg : SubConfig) (env : SubEnv) (side : Side) (s : AmSipSubscription)
    (req : AmSipRequest) (reply : AmSipReply) (p : ℕ) : AmSipSubscription :=
  (s.replyTaken side req reply.code p).withObject p (·.replyFSM cfg env.clock req reply)

theorem trims_replyTaken : Trims s (s.replyTaken side req code p) := by
  have herase : Trims (s.noteReply side req.cseq code)
      ((s.noteReply side req.cseq code).setMap side ((s.cseqMap side).erase req.cseq.toNat)) := by
    rw [← cseqMap_noteReply]
    exact trims_erase
  exact trims_noteReply.trans' (herase.trans' trims_noteDone)

theorem core_replyTaken : (s.replyTaken side req code p).core = s.core :=
  trims_replyTaken.core

theorem trans_withObject : (s.withObject p f).trans = s.trans := by
  unfold withObject
  cases s.object p <;> rfl

theorem serves_replied (h : Linked s) : Serves s (s.replied cfg env side req reply p) :=
  ⟨(h.of_trims trims_replyTaken).withObject fun _ => SubCtx.keeps_replyFSM,
    (congrFun trans_withObject _).trans trims_replyTaken.uac⟩

theorem ptrs_replied : (s.replied cfg env side req reply p).ptrs = s.ptrs :=
  (ptrs_withObject fun _ => SubCtx.keeps_replyFSM).trans
    (congrArg (fun c => c.subs.map ptr) core_replyTaken)

theorem object_replyTaken : (s.replyTaken side req code p).object q = s.object q :=
  object_congr (congrArg Core.subs core_replyTaken)

/-- The state after `replyFSM` has worked on the subscription. -/
theorem replied_eq (hobj : s.object p = some sub) :
    s.replied cfg env side req reply p =
      let taken := s.replyTaken side req reply.code p
      let c := SubCtx.replyFSM cfg env.clock ⟨sub, s.usages, s.remoteTag, s.events⟩ req reply
      { taken with
        subs := replaceKey ptr p (some c.sub) taken.subs
        usages := c.usages
        remoteTag := c.remoteTag
        events := c.events } := by
  have hctx : SubCtx.mk sub (s.replyTaken side req reply.code p).usages
      (s.replyTaken side req reply.code p).remoteTag (s.replyTaken side req reply.code p).events =
        ⟨sub, s.usages, s.remoteTag, s.events⟩ :=
    congrArg (fun c => SubCtx.mk sub c.usages c.remoteTag c.events) core_replyTaken
  rw [replied, withObject_of_some (object_replyTaken.trans hobj), hctx]

theorem object_replied (hobj : s.object p = some sub) (hn : s.ptrs.Nodup) :
    (s.replied cfg env side req reply p).object p = some (s.afterFSM cfg env sub req reply) := by
  have hmem : s.afterFSM cfg env sub req reply ∈ (s.replied cfg env side req reply p).subs := by
    obtain ⟨hsub, hptr⟩ := mem_of_object (object_replyTaken.trans hobj)
    rw [replied_eq hobj]
    exact mem_replaceKey.2 (.inr ⟨rfl, sub, hsub, hptr⟩)
  have hptr : (s.afterFSM cfg env sub req reply).ptr = p :=
    SubCtx.keeps_replyFSM.ptr.trans (mem_of_object hobj).2
  have hfound := object_of_mem (ptrs_replied.symm ▸ hn) hmem
  rwa [hptr] at hfound

theorem onReply_of_none (h : (s.cseqMap side).find? req.cseq.toNat = none) :
    (s.onReply cfg env side req reply).1 = s.noteReply side req.cseq reply.code := by
  unfold onReply
  dsimp only
  rw [cseqMap_noteReply, h]

/-- A reply to a request of the subscription at `p`. -/
theorem onReply_of_some (h : (s.cseqMap side).find? req.cseq.toNat = some p)
    (hobj : s.object p = some sub) (hn : s.ptrs.Nodup) :
    (s.onReply cfg env side req reply).1 =
      if (s.afterFSM cfg env sub req reply).state = .terminated then
        (s.replied cfg env side req reply p).removeSubscription env p
      else s.replied cfg env side req reply p := by
  have hfound : (s.replied cfg env side req reply p).object p = _ := object_replied hobj hn
  simp only [replied, replyTaken] at hfound ⊢
  unfold onReply
  dsimp only
  rw [cseqMap_noteReply, h]
  dsimp only
  rw [hfound]

theorem Linked.onReply (h : Linked s) : Serves s (s.onReply cfg env side req reply).1 := by
  cases hm : (s.cseqMap side).find? req.cseq.toNat with
  | none =>
    rw [onReply_of_none hm]
    exact .of_follows trims_noteReply.toFollows (h.of_trims trims_noteReply)
  | some p =>
    obtain ⟨sub, hobj⟩ := exists_object (h.maps hm)
    have hreplied : Serves s (s.replied cfg env side req reply p) := serves_replied h
    rw [onReply_of_some hm hobj h.nodup]
    split_ifs with hterm
    · refine hreplied.trans (.of_follows follows_removeSubscription
        (hreplied.linked.removeSubscription fun sub' hsub' => ?_))
      rw [object_replied hobj h.nodup] at hsub'
      cases hsub'
      simp [live, hterm]
    · exact hreplied

theorem dangling_withObject (hp : p ∈ s.ptrs) : (s.withObject p f).dangling = s.dangling := by
  obtain ⟨sub, hobj⟩ := exists_object hp
  rw [withObject_of_some hobj]

theorem dangling_onReply (h : Linked s) :
    (s.onReply cfg env side req reply).1.dangling = s.dangling := by
  cases hm : (s.cseqMap side).find? req.cseq.toNat with
  | none =>
    rw [onReply_of_none hm]
    exact congrArg Core.dangling trims_noteReply.core
  | some p =>
    obtain ⟨sub, hobj⟩ := exists_object (h.maps hm)
    have hreplied : (s.replied cfg env side req reply p).dangling = s.dangling := by
      rw [replied_eq hobj]
      exact congrArg Core.dangling core_replyTaken
    rw [onReply_of_some hm hobj h.nodup]
    split_ifs
    · exact (congrArg Core.dangling core_removeSubscription).trans hreplied
    · exact hreplied

variable {hdrs callid remoteTag : Str}

theorem Linked.serve_reply (h : Linked s) : Serves s (s.reply cfg env req code hdrs) := by
  have hsent : Serves s (s.onReplySent cfg env req (newReply req code hdrs)) := h.onReply
  unfold AmSipSubscription.reply
  rcases sendReply_cases env (fun s => s.onReplySent cfg env req (newReply req code hdrs)) s req
    code with heq | heq | heq <;> rw [heq]
  · exact h.serves
  · exact hsent
  · exact hsent.trans (.of_follows trims_removeTrans.toFollows
      (hsent.linked.of_trims trims_removeTrans))

/-- What `reply` leaves is the state itself or the one after the hook, up to the transactions. -/
theorem core_reply_cases (cfg : SubConfig) (env : SubEnv) (s : AmSipSubscription)
    (req : AmSipRequest) (code : ℕ) (hdrs : Str) :
    (s.reply cfg env req code hdrs).core = s.core ∨
      (s.reply cfg env req code hdrs).core =
        (s.onReplySent cfg env req (newReply req code hdrs)).core := by
  unfold reply
  rcases sendReply_cases env (fun s => s.onReplySent cfg env req (newReply req code hdrs)) s req
    code with heq | heq | heq <;> rw [heq]
  · exact .inl rfl
  · exact .inr rfl
  · exact .inr rfl

theorem dangling_reply (h : Linked s) : (s.reply cfg env req code hdrs).dangling = s.dangling := by
  rcases core_reply_cases cfg env s req code hdrs with hcore | hcore
  · exact congrArg Core.dangling hcore
  · exact (congrArg Core.dangling hcore).trans (dangling_onReply h)

/-! ## Requests -/

/-- What is found for a request is a subscription that is not terminated. -/
structure Matched (s s' : AmSipSubscription) (found : Option ℕ) : Prop where
  linked : Linked s'
  dangling : s'.dangling = s.dangling
  live : ∀ {p}, found = some p → ∃ sub, s'.object p = some sub ∧ sub.live = true

/-- The search takes entries out of the maps at most. -/
structure Finds (s s' : AmSipSubscription) (found : Option ℕ) : Prop extends
  Matched s s' found, Follows s s'

variable (h : Linked s)

include h

theorem Linked.createSubscription {uac : Bool} :
    Finds s (s.createSubscription req uac).1 (s.createSubscription req uac).2 := by
  unfold AmSipSubscription.createSubscription
  cases hmake : s.makeSubscription req uac with
  | none => exact ⟨⟨h, rfl, nofun⟩, .refl s⟩
  | some sub =>
    have hsub : sub.ptr = s.nextPtr ∧ sub.live = true := by
      simp only [makeSubscription] at hmake
      split_ifs at hmake <;> cases hmake <;> exact ⟨rfl, rfl⟩
    have hnew : sub.ptr ∉ s.ptrs := fun hmem => by
      have := h.fresh _ hmem
      omega
    have hptrs : (s.subs ++ [sub]).map ptr = s.ptrs ++ [sub.ptr] := by
      rw [map_append]
      rfl
    have hn : ((s.subs ++ [sub]).map ptr).Nodup := by
      rw [hptrs]
      exact nodup_append.2 ⟨h.nodup, nodup_singleton _, fun a ha b hb heq =>
        hnew (mem_singleton.1 hb ▸ heq ▸ ha)⟩
    refine ⟨⟨⟨hn, fun q hq => ?_, fun hm => ?_, h.small, ?_, h.keyed⟩, rfl, fun heq => ?_⟩,
      .of_eq rfl rfl rfl⟩
    · rw [ptrs, hptrs] at hq
      dsimp only
      rcases mem_append.1 hq with hq | hq
      · have := h.fresh q hq
        omega
      · rw [mem_singleton.1 hq, hsub.1]
        omega
    · rw [ptrs, hptrs]
      exact mem_append_left _ (h.maps hm)
    · rw [countP_append, h.usages, countP_singleton, hsub.2]
      simp
    · cases heq
      exact ⟨sub, object_of_mem hn
          (mem_append_right _ (mem_singleton_self sub)), hsub.2⟩

theorem Linked.findSubscription {role : SubRole} {event id : Str} :
    Finds s (s.findSubscription env role event id).1 (s.findSubscription env role event id).2 := by
  unfold AmSipSubscription.findSubscription
  cases hmatch : s.matching role event id with
  | none => exact ⟨⟨h, rfl, nofun⟩, .refl s⟩
  | some sub =>
    have hobj := object_of_mem h.nodup (mem_of_find?_eq_some hmatch)
    dsimp only
    split_ifs with hterm
    · refine ⟨⟨h.removeSubscription fun sub' hsub' => ?_,
        congrArg Core.dangling core_removeSubscription, nofun⟩, follows_removeSubscription⟩
      rw [hobj] at hsub'
      cases hsub'
      simp [live, hterm]
    · refine ⟨⟨h, rfl, fun heq => ?_⟩, .refl s⟩
      cases heq
      exact ⟨sub, hobj, by simp [live, hterm]⟩

omit h in
theorem matchSubscription_cases (s : AmSipSubscription) (env : SubEnv) (req : AmSipRequest)
    (toTag : Str) (uac : Bool) :
    s.matchSubscription env req toTag uac = s.createSubscription req uac ∨
      s.matchSubscription env req toTag uac = (s, none) ∨ ∃ role,
        s.matchSubscription env req toTag uac =
            s.findSubscription env role (eventOf req).1 (eventOf req).2 ∨
          s.matchSubscription env req toTag uac =
            (s.findSubscription env role (eventOf req).1 (eventOf req).2).1.createSubscription
              req uac := by
  unfold AmSipSubscription.matchSubscription
  split_ifs
  · exact .inl rfl
  · cases roleOf req.method uac with
    | none => exact .inr (.inl rfl)
    | some role =>
      refine .inr (.inr ⟨role, ?_⟩)
      dsimp only
      split_ifs
      · exact .inr rfl
      · exact .inl rfl

theorem Linked.matchSubscription (env : SubEnv) (req : AmSipRequest) (toTag : Str) (uac : Bool) :
    ∃ s1 found, s.matchSubscription env req toTag uac = (s1, found) ∧ Finds s s1 found := by
  refine ⟨_, _, (Prod.eta _).symm, ?_⟩
  rcases matchSubscription_cases s env req toTag uac with heq | heq | ⟨role, heq | heq⟩ <;> rw [heq]
  · exact h.createSubscription
  · exact ⟨⟨h, rfl, nofun⟩, .refl s⟩
  · exact h.findSubscription
  · have hfind : Finds s (s.findSubscription env role (eventOf req).1 (eventOf req).2).1 _ :=
      h.findSubscription
    have hmade : Finds _ (AmSipSubscription.createSubscription _ req uac).1 _ :=
      hfind.linked.createSubscription
    exact ⟨⟨hmade.linked, hmade.dangling.trans hfind.dangling, hmade.live⟩,
      hfind.toFollows.trans' hmade.toFollows⟩

omit h in
theorem find?_assign {side' : Side} (h : ((s.assign side cseq p).cseqMap side').find? c = some q) :
    (q = p ∧ side' = side ∧ c = cseq.toNat) ∨ (s.cseqMap side').find? c = some q := by
  unfold assign at h
  dsimp only at h
  by_cases hside : side' = side
  · subst hside
    rw [update_self, find?_insert_eq] at h
    by_cases hc : c = cseq.toNat
    · rw [hc, update_self] at h
      cases h
      exact .inl ⟨rfl, rfl, hc⟩
    · rw [update_of_ne hc] at h
      exact .inr h
  · rw [update_of_ne hside] at h
    exact .inr h

theorem Linked.assign (hp : p ∈ s.ptrs) : Linked (s.assign side cseq p) := by
  refine { h with maps := fun hm => ?_, small := fun hm => ?_ }
  · rcases find?_assign hm with ⟨rfl, -, -⟩ | hm
    · exact hp
    · exact h.maps hm
  · rcases find?_assign hm with ⟨-, -, rfl⟩ | hm
    · exact cseq.isLt
    · exact h.small hm

theorem Linked.accept : Linked (s.accept side cseq p) := by
  have hadd := h.withObject (p := p) (f := (·.addPending 1)) fun _ => SubCtx.keeps_addPending
  exact { hadd with }

omit h in
theorem ptrs_accept : (s.accept side cseq p).ptrs = s.ptrs :=
  ptrs_withObject fun _ => SubCtx.keeps_addPending

theorem Linked.onNotify : Serves s (s.onNotify cfg env p req) := by
  have hreply : Serves s (s.reply cfg env req 200 []) := h.serve_reply
  unfold AmSipSubscription.onNotify
  split_ifs
  · dsimp only
    cases (s.reply cfg env req 200 []).object p with
    | none => exact ⟨{ hreply.linked with }, hreply.uac⟩
    | some sub => exact ⟨{ hreply.linked with }, hreply.uac⟩
  · exact h.serves

theorem Linked.requestFSM : Serves s (s.requestFSM cfg env p req) := by
  unfold AmSipSubscription.requestFSM
  split_ifs
  · exact ⟨h.withObject fun _ => SubCtx.leaves_onSubscribe.toKeeps, congrFun trans_withObject _⟩
  · exact h.onNotify
  · exact h.serves

/-- A request goes to a subscription in the list. -/
theorem Linked.serve_assign (hp : p ∈ s.ptrs) : Serves s (s.assign side cseq p) :=
  ⟨h.assign hp, rfl⟩

theorem Linked.serve_accept (hp : p ∈ s.ptrs) :
    Serves s ((s.assign side cseq p).accept side cseq p) :=
  ⟨(h.assign hp).accept, congrFun (trans_withObject) _⟩

variable {toTag retryAfter : Str}

theorem Linked.onRequestIn : Serves s (s.onRequestIn cfg env req toTag retryAfter).1 := by
  unfold AmSipSubscription.onRequestIn
  obtain ⟨s1, found, hres, hmatch⟩ := h.matchSubscription env req toTag false
  have hserves : Serves s s1 := { hmatch with }
  rw [hres]
  cases found with
  | none =>
    dsimp only
    split_ifs
    · exact hserves
    · exact hserves.trans hmatch.linked.serve_reply
  | some p =>
    dsimp only
    obtain ⟨sub, hobj, hlive⟩ := hmatch.live rfl
    have hp := mem_ptrs_of_object hobj
    have hassign : Serves s (s1.assign .uas req.cseq p) :=
      hserves.trans (hmatch.linked.serve_assign hp)
    rw [hobj]
    dsimp only
    split_ifs
    · exact hserves.trans hmatch.linked.serve_reply
    · unfold subOnRequestIn
      rw [(mem_of_object hobj).2]
      split_ifs
      · exact hassign.trans hassign.linked.serve_reply
      · have haccept : Serves s ((s1.assign .uas req.cseq p).accept .uas req.cseq p) :=
          hserves.trans (hmatch.linked.serve_accept hp)
        exact haccept.trans haccept.linked.requestFSM
      · exact hassign.trans hassign.linked.requestFSM

theorem Linked.onRequestSent : Serves s (s.onRequestSent cfg env req) := by
  unfold AmSipSubscription.onRequestSent
  obtain ⟨s1, found, hres, hmatch⟩ := h.matchSubscription env req [] true
  have hserves : Serves s s1 := { hmatch with }
  rw [hres]
  cases found with
  | none => exact hserves
  | some p =>
    obtain ⟨sub, hobj, hlive⟩ := hmatch.live rfl
    have hp := mem_ptrs_of_object hobj
    split_ifs
    · have haccept : Serves s ((s1.assign .uac req.cseq p).accept .uac req.cseq p) :=
        hserves.trans (hmatch.linked.serve_accept hp)
      exact haccept.trans haccept.linked.requestFSM
    · have hassign : Serves s (s1.assign .uac req.cseq p) :=
        hserves.trans (hmatch.linked.serve_assign hp)
      exact hassign.trans hassign.linked.requestFSM

/-! ## Steps -/

theorem Linked.setTrans : Linked (s.setTrans side (set (s.trans side) req.cseq req)) := by
  refine { h with keyed := fun {side' c r} ht => ?_ }
  rw [trans_setTrans] at ht
  by_cases hside : side' = side
  · subst hside
    rw [update_self] at ht
    by_cases hc : c = req.cseq
    · rw [hc, get_set_self] at ht
      cases ht
      exact hc.symm
    · rw [get_set_ne hc] at ht
      exact h.keyed ht
  · rw [update_of_ne hside] at ht
    exact h.keyed ht

omit h in
theorem live_of_terminate {sub' : SingleSubscription} (hobj : s.object p = some sub)
    (h : (s.withObject p SubCtx.terminate).object p = some sub') : sub'.live = false := by
  obtain ⟨hmem, hptr⟩ := mem_of_object h
  rw [withObject_of_some hobj] at hmem
  rcases mem_replaceKey.1 hmem with ⟨-, hne⟩ | ⟨heq, -⟩
  · exact absurd hptr hne
  · cases heq
    simp only [SubCtx.terminate, SubCtx.setState]
    split_ifs with hold
    · simp [live, hold]
    · rfl

theorem Linked.onTimeout : Linked (s.onTimeout cfg env p) := by
  unfold AmSipSubscription.onTimeout
  cases hobj : s.object p with
  | none =>
    split_ifs
    · exact { h with }
    · exact h
  | some sub =>
    have hterm := h.withObject (p := p) fun _ => SubCtx.leaves_terminate.toKeeps
    have hend : Linked ((s.withObject p SubCtx.terminate).removeSubscription env p) :=
      hterm.removeSubscription fun _ => live_of_terminate hobj
    split_ifs
    · exact { hend with }
    · exact hend

theorem Linked.terminate : Linked s.terminate := by
  unfold AmSipSubscription.terminate
  generalize s.subs = l
  induction l generalizing s with
  | nil => exact h
  | cons sub l ih => exact ih (h.withObject fun _ => SubCtx.leaves_terminate.toKeeps)

omit h

/-- The state that the subscriptions see when a request has come in. -/
def received (s : AmSipSubscription) (req : AmSipRequest) : AmSipSubscription :=
  let s := { s with rCseq := some req.cseq }
  let s := s.setTrans .uas (set (s.trans .uas) req.cseq req)
  if s.callid = [] then { s with callid := req.callid, remoteTag := req.fromTag } else s

theorem received_same (s : AmSipSubscription) (req : AmSipRequest) :
    (s.received req).subs = s.subs ∧ (s.received req).events = s.events ∧
      (s.received req).dangling = s.dangling ∧ (s.received req).nextPtr = s.nextPtr ∧
      (s.received req).cseqMap = s.cseqMap ∧ (s.received req).owed = s.owed ∧
      (s.received req).due = s.due ∧ (s.received req).done = s.done ∧
      (s.received req).trans .uac = s.trans .uac := by
  unfold received
  dsimp only
  split_ifs <;> exact ⟨rfl, rfl, rfl, rfl, rfl, rfl, rfl, rfl, rfl⟩

theorem get_received : ((s.received req).trans .uas).get req.cseq = some req := by
  unfold received
  dsimp only
  split_ifs <;> exact get_set_self

theorem get_received_ne {c : BitVec 32} (hc : c ≠ req.cseq) :
    ((s.received req).trans .uas).get c = (s.trans .uas).get c := by
  unfold received
  dsimp only
  split_ifs <;> exact get_set_ne hc

theorem onRxRequest_eq :
    s.onRxRequest cfg env req toTag retryAfter =
      if s.passesSanity cfg req then ((s.received req).onRequestIn cfg env req toTag retryAfter).1
      else s :=
  rfl

theorem Linked.received (h : Linked s) : Linked (s.received req) := by
  have hnoted : Linked { s with rCseq := some req.cseq } := { h with }
  have hset : Linked (AmSipSubscription.setTrans { s with rCseq := some req.cseq } .uas
      (set (s.trans .uas) req.cseq req)) := hnoted.setTrans
  unfold AmSipSubscription.received
  dsimp only
  split_ifs
  · exact { hset with }
  · exact hset

theorem Linked.onRxRequest (h : Linked s) :
    Linked (s.onRxRequest cfg env req toTag retryAfter) := by
  rw [onRxRequest_eq]
  split_ifs
  · exact h.received.onRequestIn.linked
  · exact h

theorem Linked.onRxReply (h : Linked s) : Linked (s.onRxReply cfg env reply) := by
  unfold AmSipSubscription.onRxReply
  cases (s.trans .uac).get reply.cseq with
  | none => exact h
  | some req =>
    have hreply : Linked (s.onReplyIn cfg env req reply).1 := h.onReply.linked
    split_ifs
    · exact hreply.of_shrinks shrinks_removeTrans rfl rfl rfl
    · exact hreply

theorem Linked.onRequestTxed (h : Linked s) : Linked (s.onRequestTxed cfg env req) := by
  unfold AmSipSubscription.onRequestTxed
  have hsent : Linked (s.onRequestSent cfg env req) := h.onRequestSent.linked
  split_ifs
  · exact { hsent.setTrans with }
  · exact hsent.of_shrinks shrinks_removeTrans rfl rfl rfl

theorem Linked.step {ev : SubEnv × SubEv} (h : Linked s) : Linked (s.step cfg ev) := by
  obtain ⟨env, ev⟩ := ev
  cases ev with
  | rxRequest req toTag retryAfter => exact h.onRxRequest
  | rxReply reply => exact h.onRxReply
  | sendRequest method hdrs sent =>
    unfold AmSipSubscription.step
    dsimp only
    split_ifs
    · exact h.onRequestTxed
    · exact h
  | reply cseq code hdrs =>
    show Linked (s.answer cfg env cseq code hdrs)
    unfold answer
    cases (s.trans .uas).get cseq with
    | none => exact h
    | some req => exact h.serve_reply.linked
  | timeout p => exact h.onTimeout
  | terminate => exact h.terminate
  | subscriptionExists role event id => exact h.findSubscription.linked
  | allowUnsolicitedNotify allow => exact { h with }

theorem linked_init {allow : Bool} : Linked (init callid remoteTag cseq allow) where
  nodup := nodup_nil
  fresh := nofun
  maps := nofun
  small := nofun
  usages := rfl
  keyed := nofun

/-- The links hold in every run. -/
theorem linked_run {allow : Bool} {evs : List (SubEnv × SubEv)} :
    Linked (runFrom (step cfg) (init callid remoteTag cseq allow) evs) :=
  runFrom_inv (fun h => h.step) evs linked_init

end AmSipSubscription

end Sems
