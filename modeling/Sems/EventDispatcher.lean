import Sems.OrdMap
import Sems.Runs
import Sems.SecondaryIndex
import Sems.SipMsg

/-!
# The event dispatcher

`AmEventDispatcher` (`core/AmEventDispatcher.cpp`) has the event queues under their local tags, and
finds the local tag of an incoming request in `id_lookup`, under the Call-ID, the remote tag and,
with forked dialogs, the Via branch. The buckets are chosen by a hash of the key alone, so each
table is one map.

The lookup table finds exactly the queues that have an identity (`Dispatcher.Linked`). It knows an
identity by its parts joined without a separator, so a request comes to the queue of its identity
if and only if no other identity has the same joined text (`eventDispatcher_runs`), and it can come
to the queue of another dialog (`post_other_identity`).
-/

namespace Sems

open Function OrdMap Option
open Function (update)

/-- What identifies a dialog : the Call-ID, the remote tag, and the Via branch where it counts. -/
structure DialogIdent where
  callid : Str
  remoteTag : Str
  viaBranch : Str
  deriving DecidableEq

/-- An event queue with its key in the lookup table, and the identity it was registered with, which
the dispatcher does not keep. -/
structure QueueEntry (Q : Type*) where
  q : Q
  id : Str
  ident : Option DialogIdent

structure Dispatcher (Q : Type*) where
  queues : OrdMap Str (QueueEntry Q)
  idLookup : OrdMap Str Str

namespace DialogIdent

/-- The key of the lookup table. -/
def joined (i : DialogIdent) : Str :=
  i.callid ++ i.remoteTag ++ i.viaBranch

/-- The identity of a request or of a new queue. -/
def of (acceptForkedDialogs : Bool) (callid remoteTag viaBranch : Str) : DialogIdent :=
  ⟨callid, remoteTag, if acceptForkedDialogs then viaBranch else []⟩

end DialogIdent

open DialogIdent

namespace Dispatcher

variable {Q : Type*}

def empty : Dispatcher Q :=
  ⟨OrdMap.empty, OrdMap.empty⟩

/-- `addEventQueue` of a queue without an identity. -/
def addEventQueue (d : Dispatcher Q) (localTag : Str) (q : Q) : Dispatcher Q × Bool :=
  match d.queues.find? localTag with
  | some _ => (d, false)
  | none => ({ d with queues := d.queues.insert localTag ⟨q, [], none⟩ }, true)

variable (acceptForkedDialogs : Bool)

variable (d : Dispatcher Q) (localTag : Str)

/-- `addEventQueue` of a queue with an identity. -/
def addEventQueueId (q : Q) (callid remoteTag viaBranch : Str) : Dispatcher Q × Bool :=
  if localTag = [] ∨ callid = [] ∨ remoteTag = [] ∨ viaBranch = [] then (d, false)
  else
    match d.queues.find? localTag with
    | some _ => (d, false)
    | none =>
      let ident := of acceptForkedDialogs callid remoteTag viaBranch
      match d.idLookup.find? ident.joined with
      | some _ => (d, false)
      | none =>
        ({ queues := d.queues.insert localTag ⟨q, ident.joined, some ident⟩
           idLookup := d.idLookup.insert ident.joined localTag }, true)

/-- Remove a queue and its key. Returns the queue. -/
def delEventQueue : Dispatcher Q × Option Q :=
  match d.queues.find? localTag with
  | none => (d, none)
  | some qe =>
    ({ queues := d.queues.erase localTag
       idLookup := if qe.id = [] then d.idLookup else d.idLookup.erase qe.id }, some qe.q)

/-- The queue that an event for the local tag is posted to. -/
def post : Option Q :=
  (d.queues.find? localTag).map QueueEntry.q

/-- `post` and `postSipRequest` : the queue that an event for the identity is posted to. -/
def postId (callid remoteTag viaBranch : Str) : Option Q :=
  match d.idLookup.find? (of acceptForkedDialogs callid remoteTag viaBranch).joined with
  | none => none
  | some localTag => d.post localTag

/-- The calls that change the tables. -/
inductive Op (Q : Type*) where
  | addEventQueue (localTag : Str) (q : Q)
  | addEventQueueId (localTag : Str) (q : Q) (callid remoteTag viaBranch : Str)
  | delEventQueue (localTag : Str)

def step : Op Q → Dispatcher Q
  | .addEventQueue localTag q => (d.addEventQueue localTag q).1
  | .addEventQueueId localTag q callid remoteTag viaBranch =>
    (d.addEventQueueId acceptForkedDialogs localTag q callid remoteTag viaBranch).1
  | .delEventQueue localTag => (d.delEventQueue localTag).1

/-! ## The two tables -/

/-- The queues with an identity. -/
def dialogs : Option (QueueEntry Q) :=
  (d.queues.find? localTag).filter fun qe => qe.id ≠ []

/-- The lookup table finds the queues with an identity, and an identity is known by its joined
parts. -/
structure Linked : Prop where
  indexed : Indexes QueueEntry.id d.dialogs d.idLookup.find?
  known : ∀ {tag qe}, d.queues.find? tag = some qe →
    (∀ i ∈ qe.ident, qe.id = i.joined) ∧ (qe.ident = none ↔ qe.id = [])

variable {d : Dispatcher Q} {tag : Str} {qe : QueueEntry Q} {forked : Bool}

theorem dialogs_eq_some : d.dialogs tag = some qe ↔ d.queues.find? tag = some qe ∧ qe.id ≠ [] := by
  simp [dialogs, filter_eq_some_iff]

theorem dialogs_insert (d : Dispatcher Q) (tag : Str) (qe : QueueEntry Q) (m : OrdMap Str Str) :
    (⟨d.queues.insert tag qe, m⟩ : Dispatcher Q).dialogs =
      update d.dialogs tag (if qe.id = [] then none else some qe) := by
  funext t
  unfold dialogs
  rw [find?_insert_update]
  by_cases ht : t = tag
  · rw [ht, update_self, update_self]
    by_cases hid : qe.id = []
    · simp [hid]
    · simp [hid]
  · rw [update_of_ne ht, update_of_ne ht]

theorem dialogs_erase (d : Dispatcher Q) (tag : Str) (m : OrdMap Str Str) :
    (⟨d.queues.erase tag, m⟩ : Dispatcher Q).dialogs = update d.dialogs tag none := by
  funext t
  unfold dialogs
  rw [find?_erase_update]
  by_cases ht : t = tag
  · rw [ht, update_self, update_self]
    rfl
  · rw [update_of_ne ht, update_of_ne ht]

namespace Linked

theorem empty : (Dispatcher.empty : Dispatcher Q).Linked :=
  ⟨Indexes.empty, nofun⟩

theorem dialogs_eq_none (h : d.queues.find? tag = none) : d.dialogs tag = none := by
  rw [dialogs, h]
  rfl

/-- A new queue that is known by the key it has. -/
theorem known_insert (h : d.Linked) {m : OrdMap Str Str}
    (hqe : (∀ i ∈ qe.ident, qe.id = i.joined) ∧ (qe.ident = none ↔ qe.id = [])) {t : Str}
    {e : QueueEntry Q}
    (he : (⟨d.queues.insert tag qe, m⟩ : Dispatcher Q).queues.find? t = some e) :
    (∀ i ∈ e.ident, e.id = i.joined) ∧ (e.ident = none ↔ e.id = []) := by
  simp only [find?_insert_update] at he
  by_cases ht : t = tag
  · rw [ht, update_self, some_inj] at he
    exact he ▸ hqe
  · rw [update_of_ne ht] at he
    exact h.known he

theorem addEventQueue (h : d.Linked) (tag : Str) (q : Q) : (d.addEventQueue tag q).1.Linked := by
  unfold Dispatcher.addEventQueue
  cases hfind : d.queues.find? tag with
  | some e => exact h
  | none =>
    refine ⟨?_, h.known_insert ⟨by simp, iff_of_true rfl rfl⟩⟩
    have hdialogs := dialogs_insert d tag ⟨q, [], none⟩ d.idLookup
    rw [if_pos rfl, ← dialogs_eq_none hfind, update_eq_self] at hdialogs
    exact hdialogs ▸ h.indexed

theorem joined_ne_nil (forked : Bool) {callid : Str} (remoteTag viaBranch : Str)
    (h : callid ≠ []) :
    (of forked callid remoteTag viaBranch).joined ≠ [] := by
  unfold joined
  rw [List.append_assoc]
  exact List.append_ne_nil_of_left_ne_nil h _

theorem addEventQueueId (h : d.Linked) (tag : Str) (q : Q) (callid remoteTag viaBranch : Str) :
    (d.addEventQueueId forked tag q callid remoteTag viaBranch).1.Linked := by
  unfold Dispatcher.addEventQueueId
  split_ifs with hempty
  · exact h
  have hcallid : callid ≠ [] := fun hc => hempty (.inr (.inl hc))
  have hid := joined_ne_nil forked remoteTag viaBranch hcallid
  cases hfind : d.queues.find? tag with
  | some e => exact h
  | none =>
    simp only
    cases hlookup : d.idLookup.find?
        (of forked callid remoteTag viaBranch).joined with
    | some t => exact h
    | none =>
      refine ⟨?_, h.known_insert ⟨by simp, iff_of_false (some_ne_none _) hid⟩⟩
      have hdialogs := dialogs_insert d tag
        ⟨q, (of forked callid remoteTag viaBranch).joined,
          some (of forked callid remoteTag viaBranch)⟩
        (d.idLookup.insert (of forked callid remoteTag viaBranch).joined tag)
      rw [if_neg hid] at hdialogs
      rw [hdialogs, find?_insert_update]
      exact h.indexed.insert (dialogs_eq_none hfind) hlookup

/-- The end of a queue is the end of its key. -/
theorem idLookup_delEventQueue (h : d.queues.find? tag = some qe) :
    (d.delEventQueue tag).1.idLookup.find? =
      if qe.id = [] then d.idLookup.find?
      else update d.idLookup.find? qe.id none := by
  unfold Dispatcher.delEventQueue
  rw [h]
  simp only
  split_ifs
  · rfl
  · exact find?_erase_update

theorem delEventQueue (h : d.Linked) (tag : Str) : (d.delEventQueue tag).1.Linked := by
  cases hfind : d.queues.find? tag with
  | none =>
    unfold Dispatcher.delEventQueue
    rwa [hfind]
  | some qe =>
    have hlookup := idLookup_delEventQueue hfind
    have hqueues : (d.delEventQueue tag).1.queues = d.queues.erase tag := by
      unfold Dispatcher.delEventQueue
      rw [hfind]
    have hdialogs : (d.delEventQueue tag).1.dialogs = update d.dialogs tag none := by
      rw [← dialogs_erase d tag (d.delEventQueue tag).1.idLookup, ← hqueues]
    refine ⟨?_, fun he => ?_⟩
    · rw [hdialogs, hlookup]
      split_ifs with hid
      · -- a queue without an identity was not in the index
        have hnone : d.dialogs tag = none := by
          rw [dialogs, hfind]
          simp [hid]
        rw [← hnone, update_eq_self]
        exact h.indexed
      · exact h.indexed.erase (dialogs_eq_some.2 ⟨hfind, hid⟩)
    · rw [hqueues] at he
      exact h.known (find?_eq_some_iff.2 (mem_erase.1 (find?_eq_some_iff.1 he)).1)

theorem step (h : d.Linked) (op : Op Q) : (d.step forked op).Linked := by
  cases op with
  | addEventQueue tag q => exact h.addEventQueue tag q
  | addEventQueueId tag q callid remoteTag viaBranch =>
    exact h.addEventQueueId tag q callid remoteTag viaBranch
  | delEventQueue tag => exact h.delEventQueue tag

/-! ## Identities -/

/-- An event for an identity is posted to the queue with the joined key. -/
theorem postId_eq_some (h : d.Linked) {callid remoteTag viaBranch : Str} {q : Q} :
    d.postId forked callid remoteTag viaBranch = some q ↔
      ∃ tag qe, d.queues.find? tag = some qe ∧ qe.q = q ∧ qe.id ≠ [] ∧
        qe.id = (of forked callid remoteTag viaBranch).joined := by
  unfold postId post
  constructor
  · intro hq
    cases hlookup : d.idLookup.find?
        (of forked callid remoteTag viaBranch).joined with
    | none =>
      rw [hlookup] at hq
      exact absurd hq nofun
    | some tag =>
      obtain ⟨qe, hqe, hid⟩ := (h.indexed _ _).1 hlookup
      rw [dialogs_eq_some] at hqe
      rw [hlookup] at hq
      simp only [hqe.1, map_some, some_inj] at hq
      exact ⟨tag, qe, hqe.1, hq, hqe.2, hid⟩
  · rintro ⟨tag, qe, hqe, rfl, hne, hid⟩
    have hlookup := h.indexed.index_key (dialogs_eq_some.2 ⟨hqe, hne⟩)
    rw [hid] at hlookup
    rw [hlookup]
    simp only [hqe, map_some]

end Linked

/-- The queue is registered under the identity. -/
def Registered (d : Dispatcher Q) (q : Q) (i : DialogIdent) : Prop :=
  ∃ tag qe, d.queues.find? tag = some qe ∧ qe.q = q ∧ qe.ident = some i

/-- No queue is registered under another identity with the same joined parts. -/
def Distinct (d : Dispatcher Q) (i : DialogIdent) : Prop :=
  ∀ tag qe i', d.queues.find? tag = some qe → qe.ident = some i' → i'.joined = i.joined → i' = i

/-- The queue with a joined key is the one registered under it. -/
theorem Linked.postId_iff (h : d.Linked) (callid remoteTag viaBranch : Str) :
    (∀ q, d.postId forked callid remoteTag viaBranch = some q ↔
      d.Registered q (of forked callid remoteTag viaBranch)) ↔
    d.Distinct (of forked callid remoteTag viaBranch) := by
  have hident : ∀ {tag qe i}, d.queues.find? tag = some qe → qe.ident = some i →
      qe.id ≠ [] ∧ qe.id = i.joined := by
    intro tag qe i hqe hi
    refine ⟨fun hid => ?_, (h.known hqe).1 i hi⟩
    rw [(h.known hqe).2.2 hid] at hi
    exact absurd hi nofun
  constructor
  · intro hpost tag qe i hqe hi hjoined
    obtain ⟨hne, hid⟩ := hident hqe hi
    obtain ⟨tag', qe', hqe', -, hi'⟩ :=
      (hpost qe.q).1 (h.postId_eq_some.2 ⟨tag, qe, hqe, rfl, hne, hid.trans hjoined⟩)
    obtain ⟨hne', hid'⟩ := hident hqe' hi'
    -- both have the same key, so they are the same
    obtain rfl := h.indexed.eq_of_key (dialogs_eq_some.2 ⟨hqe, hne⟩)
      (dialogs_eq_some.2 ⟨hqe', hne'⟩) (hid.trans (hjoined.trans hid'.symm))
    rw [hqe, some_inj] at hqe'
    rw [hqe', hi', some_inj] at hi
    exact hi.symm
  · intro hdistinct q
    rw [h.postId_eq_some]
    constructor
    · rintro ⟨tag, qe, hqe, rfl, hne, hid⟩
      cases hi : qe.ident with
      | none => exact absurd ((h.known hqe).2.1 hi) hne
      | some i =>
        have hjoined : i.joined = (of forked callid remoteTag viaBranch).joined :=
          ((h.known hqe).1 i hi).symm.trans hid
        exact ⟨tag, qe, hqe, rfl, hdistinct tag qe i hqe hi hjoined ▸ hi⟩
    · rintro ⟨tag, qe, hqe, rfl, hi⟩
      exact ⟨tag, qe, hqe, rfl, hident hqe hi⟩

/-- In every run a queue with an identity has exactly its own key in the lookup table, every key is
that of a queue, and the end of a queue is the end of its own key only. A request comes to the queue
of its own identity, and to no other, if and only if no queue has another identity with the same
joined parts. -/
theorem eventDispatcher_runs (acceptForkedDialogs : Bool) (ops : List (Op Q)) :
    let d := runFrom (step acceptForkedDialogs) empty ops
    (∀ tag qe i, d.queues.find? tag = some qe → qe.ident = some i →
      (∀ k, d.idLookup.find? k = some tag ↔ k = qe.id) ∧
      (d.delEventQueue tag).1.idLookup.find? = update d.idLookup.find? qe.id none) ∧
    (∀ k tag, d.idLookup.find? k = some tag → ∃ qe, d.queues.find? tag = some qe ∧ qe.id = k) ∧
    ∀ callid remoteTag viaBranch,
      (∀ q, d.postId acceptForkedDialogs callid remoteTag viaBranch = some q ↔
        d.Registered q (of acceptForkedDialogs callid remoteTag viaBranch)) ↔
      d.Distinct (of acceptForkedDialogs callid remoteTag viaBranch) := by
  intro d
  have h : d.Linked := runFrom_inv (fun h => h.step _) ops Linked.empty
  refine ⟨fun tag qe i hqe hi => ?_, fun k tag hk => ?_, h.postId_iff⟩
  · have hne : qe.id ≠ [] := by
      intro hid
      rw [(h.known hqe).2.2 hid] at hi
      exact absurd hi nofun
    refine ⟨fun k => ⟨fun hk => ?_, fun hk => ?_⟩, ?_⟩
    · obtain ⟨qe', hqe', hid⟩ := (h.indexed k tag).1 hk
      rw [dialogs_eq_some, hqe, some_inj] at hqe'
      rw [← hid, hqe'.1]
    · rw [hk]
      exact h.indexed.index_key (dialogs_eq_some.2 ⟨hqe, hne⟩)
    · rw [Linked.idLookup_delEventQueue hqe, if_neg hne]
  · obtain ⟨qe, hqe, hid⟩ := (h.indexed k tag).1 hk
    exact ⟨qe, (dialogs_eq_some.1 hqe).1, hid⟩

/-- A request comes to the queue of another dialog, whose Call-ID and remote tag are cut
elsewhere. -/
theorem post_other_identity :
    let d := runFrom (step true) (empty : Dispatcher ℕ)
      [.addEventQueueId "local".toList 7 "call1".toList "2tag".toList "z9hG4bK".toList]
    d.postId true "call12".toList "tag".toList "z9hG4bK".toList = some 7 ∧
      d.queues.entries.map (fun e => e.2.ident) =
        [some ⟨"call1".toList, "2tag".toList, "z9hG4bK".toList⟩] := by
  decide +kernel

end Dispatcher

end Sems
