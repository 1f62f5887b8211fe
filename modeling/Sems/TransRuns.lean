import Sems.Runs
import Sems.TransFailover

/-!
# Runs of the transaction layer

A bucket of the transaction table with what happened in it, and the steps it takes. A step is
what a thread does while it holds the lock of the bucket. Where a function unlocks the bucket and
goes on later, the rest is in `calls` until some thread takes it up again (`resume`). The table is a
family of buckets.
-/

namespace Sems

open List

/-- A bucket, and the log of what its transactions did. -/
structure TransBucket where
  elmts : List SipTrans
  calls : List Call
  log : List TransLog
  /-- The number of requests accepted so far. -/
  requests : ℕ

namespace TransBucket

def init : TransBucket :=
  ⟨[], [], [], 0⟩

/-- `exist`. -/
def find (b : TransBucket) (addr : ℕ) : Option SipTrans :=
  b.elmts.find? (·.addr == addr)

/-- The address of a new transaction : the one the allocator has chosen, if it is not in use. -/
def newAddr (b : TransBucket) (addr : ℕ) : ℕ :=
  freshAddr b.elmts addr

/-- The bucket after a function has worked on the transaction at an address. -/
def apply (b : TransBucket) (addr : ℕ) (e : Effect) : TransBucket :=
  { b with
    elmts := replaceKey SipTrans.addr addr e.self b.elmts ++ e.added
    calls := b.calls ++ e.calls
    log := b.log ++ e.log }

end TransBucket

/-! ## `send_request` -/

/-- How the search for a target ends. -/
inductive SendOut where
  | noDestination
  | failed
  | sent (msg : TransMsg) (ts : List SipTarget)

/-- The loop of `send_request`. -/
def sendLoop (net : Attempts) (flags : TransFlags) (msg : TransMsg) : List SipTarget → SendOut
  | [] => .noDestination
  | tgt :: ts =>
    let a := net ts.length
    if !flags.disableBl && a.blacklisted then sendLoop net flags msg ts
    else
      match a.socket with
      | none => .failed
      | some sock =>
        if !a.generated then .failed
        else if a.sent then .sent (msg.generate flags a sock tgt) ts
        else sendLoop net flags msg ts

/-- The arguments of `send_request`, after the targets are resolved. -/
structure SendArgs where
  msg : TransMsg
  dialogId : Str
  flags : TransFlags
  targets : List SipTarget

/-- The transaction of a request that was sent. -/
def sentTrans (addr : ℕ) (args : SendArgs) (msg : TransMsg) (ts : List SipTarget) (request : ℕ) :
    SipTrans :=
  let t : SipTrans :=
    { updateUacRequest addr args.flags msg with
      targets := some ts
      dialogId := args.dialogId
      request := some request }
  if ts ≠ [] then t.resetTimer .STIMER_M else t

namespace TransBucket

variable (b : TransBucket)

/-- A request is accepted. -/
def accept (log : List TransLog) : TransBucket :=
  { b with log := b.log ++ log, requests := b.requests + 1 }

/-- The ACK of a 200 reply goes to the retransmission buffer of the INVITE. -/
def sentAck (msg : TransMsg) (dialogId : Str) : TransBucket :=
  if msg.localSocket.reliable then b
  else
    match matchRequest b.elmts msg .TT_UAC with
    | none => b
    | some t =>
      b.apply t.addr (.keep
        { t with retrBuf := true, dialogId := if t.dialogId = [] then dialogId else t.dialogId })

def sendRequest (net : Attempts) (addr : ℕ) (args : SendArgs) : TransBucket :=
  match sendLoop net args.flags args.msg args.targets with
  | .noDestination => b.accept [.reply (some b.requests) args.dialogId 500]
  | .failed => b
  | .sent msg ts =>
    if msg.method = .ACK then b.sentAck msg args.dialogId
    else
      let t := sentTrans (b.newAddr addr) args msg ts b.requests
      { b.accept [.request t.addr msg] with elmts := b.elmts ++ [t] }

/-! ## The other steps -/

/-- `process_rcvd_msg` with a reply. -/
def processReply (net : Attempts) (addr : ℕ) (reply : TransReply) : TransBucket :=
  match matchReply b.elmts reply with
  | none => b
  | some t => b.apply t.addr (passReply t reply (updateUacReply net (b.newAddr addr) t reply))

def cancel (env : CancelEnv) (addr : ℕ) (tr : ℕ) (dialogId : Str) (invCseq : ℕ) : TransBucket :=
  match cancelTarget b.elmts tr dialogId invCseq with
  | none => b
  | some t => b.apply t.addr (cancelTrans env (b.newAddr addr) t)

/-- `trans_timer::fire`. -/
def fire (net : Attempts) (addr : ℕ) (tr : ℕ) (slot : Fin 3) : TransBucket :=
  match b.find tr with
  | none => b
  | some t =>
    match t.timers slot with
    | none => b
    | some timer => b.apply tr (timerExpired net (b.newAddr addr) t timer.1)

/-- The last part of timer C. -/
def endTimerC (tr : ℕ) : TransBucket :=
  match b.find tr with
  | none => b
  | some t => b.apply tr (timeout t)

/-- A thread goes on with what it has still to do. -/
def resume (env : CancelEnv) (addr : ℕ) (i : ℕ) : TransBucket :=
  let b' : TransBucket := { b with calls := b.calls.eraseIdx i }
  match b.calls[i]? with
  | none => b
  | some (.cancel tr) => b'.cancel env addr tr [] 0
  | some (.cancelTimeout tr) =>
    let b' := b'.cancel env addr tr [] 0
    { b' with calls := b'.calls ++ [.timeout tr] }
  | some (.timeout tr) => b'.endTimerC tr

end TransBucket

/-- What can happen in a bucket. `addr` is the address of a new transaction. -/
inductive TransEv where
  | sendRequest (net : Attempts) (addr : ℕ) (args : SendArgs)
  | reply (net : Attempts) (addr : ℕ) (reply : TransReply)
  | timer (net : Attempts) (addr : ℕ) (tr : ℕ) (slot : Fin 3)
  | cancel (env : CancelEnv) (addr : ℕ) (tr : ℕ) (dialogId : Str) (invCseq : ℕ)
  | resume (env : CancelEnv) (addr : ℕ) (i : ℕ)

def TransBucket.step (b : TransBucket) : TransEv → TransBucket
  | .sendRequest net addr args => b.sendRequest net addr args
  | .reply net addr reply => b.processReply net addr reply
  | .timer net addr tr slot => b.fire net addr tr slot
  | .cancel env addr tr dialogId invCseq => b.cancel env addr tr dialogId invCseq
  | .resume env addr i => b.resume env addr i

/-! ## The addresses -/

/-- The transaction of a request that was sent is not answered. -/
theorem sentTrans_eq (addr : ℕ) (args : SendArgs) (msg : TransMsg) (ts : List SipTarget)
    (request : ℕ) :
    (sentTrans addr args msg ts request).addr = addr ∧
      (sentTrans addr args msg ts request).request = some request ∧
        (sentTrans addr args msg ts request).live = true := by
  have hlive := updateUacRequest_live addr args.flags msg
  have haddr := updateUacRequest_addr addr args.flags msg
  unfold sentTrans
  split_ifs
  · exact ⟨haddr, rfl, hlive⟩
  · exact ⟨haddr, rfl, hlive⟩

namespace TransBucket

variable {b : TransBucket} {t : SipTrans} {e : Effect} {a : ℕ}

theorem newAddr_notMem (b : TransBucket) (a : ℕ) : b.newAddr a ∉ b.elmts.map SipTrans.addr :=
  freshAddr_notMem

theorem find_mem {tr : ℕ} (h : b.find tr = some t) : t ∈ b.elmts ∧ t.addr = tr := by
  unfold find at h
  exact ⟨mem_of_find?_eq_some h, by simpa using find?_some h⟩

theorem matchReply_mem {reply : TransReply} (h : matchReply b.elmts reply = some t) :
    t ∈ b.elmts := by
  unfold matchReply at h
  split_ifs at h
  exact mem_of_find?_eq_some h

theorem cancelTarget_mem {tr invCseq : ℕ} {dialogId : Str}
    (h : cancelTarget b.elmts tr dialogId invCseq = some t) : t ∈ b.elmts := by
  unfold cancelTarget at h
  split at h
  case h_1 u hu =>
    cases h
    exact mem_of_find?_eq_some hu
  case h_2 =>
    split_ifs at h
    exact mem_reverse.1 (mem_of_find?_eq_some h)

variable {P : SipTrans → Prop} {s : SipTrans}

/-- The transactions after a function has worked on one of them. -/
theorem mem_apply {addr new : ℕ} (hs : s ∈ (b.apply addr e).elmts)
    (hadded : e.added = [] ∨ ∃ n, e.added = [n] ∧ n.addr = new ∧ P n) :
    (s ∈ b.elmts ∧ s.addr ≠ addr) ∨ s ∈ e.self ∨ (s.addr = new ∧ P s) := by
  rcases mem_append.1 hs with hs | hs
  · exact (mem_replaceKey.1 hs).imp_right fun hs => .inl hs.1
  · rcases hadded with hadded | ⟨n, hadded, hn⟩
    · rw [hadded] at hs
      exact absurd hs not_mem_nil
    · rw [hadded] at hs
      obtain rfl := mem_singleton.1 hs
      exact .inr (.inr hn)

/-- The addresses stay different. -/
theorem nodup_apply (h : (b.elmts.map SipTrans.addr).Nodup) (ht : t ∈ b.elmts)
    (hself : ∀ s ∈ e.self, s.addr = t.addr)
    (hadded : e.added = [] ∨ ∃ n, e.added = [n] ∧ n.addr = b.newAddr a ∧ P n) :
    ((b.apply t.addr e).elmts.map SipTrans.addr).Nodup := by
  refine nodup_append (nodup_replaceKey hself h) (fun hmem => b.newAddr_notMem a ?_)
    (hadded.imp_right fun ⟨n, hn, haddr, _⟩ => ⟨n, hn, haddr⟩)
  obtain ⟨s, hs, hsa⟩ := mem_map.1 hmem
  rw [← hsa]
  rcases mem_replaceKey.1 hs with ⟨hs, -⟩ | ⟨hs, -⟩
  · exact mem_map_of_mem hs
  · rw [hself s hs]
    exact mem_map_of_mem ht

end TransBucket

/-! ## The table -/

/-- The transaction table. -/
abbrev TransTable := ℕ → TransBucket

def TransTable.init : TransTable :=
  fun _ => .init

/-- One step of one bucket. -/
def TransTable.step (T : TransTable) (ev : ℕ × TransEv) : TransTable :=
  familyStep TransBucket.step T ev

/-! ## What a step can do -/

/-- The handler of timer C is at work on the transaction at an address. -/
def inTimerC (calls : List Call) (addr : ℕ) : Bool :=
  calls.any fun call => call = .cancelTimeout addr || call = .timeout addr

theorem inTimerC_append {calls calls' : List Call} {addr : ℕ} :
    inTimerC (calls ++ calls') addr = true ↔
      inTimerC calls addr = true ∨ inTimerC calls' addr = true := by
  unfold inTimerC
  rw [any_append, Bool.or_eq_true]

/-- A call is taken up. -/
theorem inTimerC_eraseIdx {calls : List Call} {i : ℕ} {call : Call} (h : calls[i]? = some call)
    {addr : ℕ} (hc : inTimerC calls addr = true) :
    inTimerC (calls.eraseIdx i) addr = true ∨ call = .cancelTimeout addr ∨
      call = .timeout addr := by
  obtain ⟨hi, rfl⟩ := List.getElem?_eq_some_iff.1 h
  obtain ⟨x, hx, hp⟩ := any_eq_true.1 hc
  rcases mem_cons.1 ((List.getElem_cons_eraseIdx_perm hi).mem_iff.2 hx) with rfl | hx
  · exact .inr (by simpa using hp)
  · exact .inl (any_eq_true.2 ⟨x, hx, hp⟩)

def TransEv.isTimer : TransEv → Bool
  | .timer _ _ _ _ => true
  | _ => false

namespace TransBucket

/-- What a step does by calling a function for the transaction. -/
inductive Works (b : TransBucket) (t : SipTrans) : TransEv → Effect → Prop
  | ack {net addr args} (dialogId : Str) :
    Works b t (.sendRequest net addr args) (.keep { t with retrBuf := true, dialogId := dialogId })
  | reply {net addr reply} (found : matchReply b.elmts reply = some t) :
    Works b t (.reply net addr reply)
      (passReply t reply (updateUacReply net (b.newAddr addr) t reply))
  | timer {net addr timer} (found : b.find t.addr = some t)
      (set : t.timers timer.type.slot = some ⟨timer, rfl⟩) :
    Works b t (.timer net addr t.addr timer.type.slot) (timerExpired net (b.newAddr addr) t timer)
  | cancel {ev} (env : CancelEnv) (addr : ℕ) (quiet : ev.isTimer = false) :
    Works b t ev (cancelTrans env (b.newAddr addr) t)
  | timeout {env addr i} (call : b.calls[i]? = some (.timeout t.addr))
      (found : b.find t.addr = some t) :
    Works b t (.resume env addr i) (timeout t)

/-- What a step can do to the bucket. The handler of timer C stays at work, but on a transaction
that is timed out. -/
inductive Moves (b : TransBucket) (ev : TransEv) : TransBucket → Prop
  | idle {calls} (quiet : ev.isTimer = false)
      (kept : ∀ t ∈ b.elmts, inTimerC b.calls t.addr → inTimerC calls t.addr) :
    Moves b ev { b with calls := calls }
  | noTimer {net addr tr slot} (expired : ev = .timer net addr tr slot)
      (unset : ∀ t ∈ b.elmts, t.addr = tr → t.timers slot = none) : Moves b ev b
  | refused (quiet : ev.isTimer = false) (dialogId : Str) :
    Moves b ev (b.accept [.reply (some b.requests) dialogId 500])
  | sent {addr args msg ts t} (quiet : ev.isTimer = false)
      (new : sentTrans (b.newAddr addr) args msg ts b.requests = t) :
    Moves b ev { b.accept [.request t.addr msg] with elmts := b.elmts ++ [t] }
  | works {t e calls} (mem : t ∈ b.elmts) (work : b.Works t ev e)
      (kept : ∀ u ∈ b.elmts, inTimerC b.calls u.addr ∧ (u.addr ≠ t.addr ∨ e ≠ timeout t) ∨
        inTimerC e.calls u.addr → inTimerC calls u.addr) :
    Moves b ev { b.apply t.addr e with calls := calls }

variable {b : TransBucket} {t : SipTrans} {e : Effect} {ev : TransEv}

theorem Works.moves (h : b.Works t ev e) (ht : t ∈ b.elmts) : b.Moves ev (b.apply t.addr e) :=
  .works ht h fun _ _ hc => inTimerC_append.2 (hc.imp_left And.left)

/-- `cancel` with the calls that are left before it and the one that comes after it. -/
theorem cancel_moves {env : CancelEnv} {addr tr invCseq : ℕ} {dialogId : Str}
    {calls rest : List Call} (quiet : ev.isTimer = false)
    (hcalls : ∀ {addr}, inTimerC b.calls addr → inTimerC calls addr ∨ inTimerC rest addr) :
    let b' := TransBucket.cancel { b with calls := calls } env addr tr dialogId invCseq
    b.Moves ev { b' with calls := b'.calls ++ rest } := by
  unfold cancel
  dsimp only
  cases htarget : cancelTarget b.elmts tr dialogId invCseq with
  | none => exact .idle quiet fun t _ hc => inTimerC_append.2 (hcalls hc)
  | some t =>
    refine .works (cancelTarget_mem htarget) (.cancel env addr quiet) fun u _ hc => ?_
    rw [inTimerC_append]
    rcases hc with ⟨hc, -⟩ | hc
    · exact (hcalls hc).imp_left fun hc => inTimerC_append.2 (.inl hc)
    · exact .inl (inTimerC_append.2 (.inr hc))

theorem sendRequest_moves {net : Attempts} {addr : ℕ} {args : SendArgs} :
    b.Moves (.sendRequest net addr args) (b.sendRequest net addr args) := by
  have hidle : b.Moves (.sendRequest net addr args) b := .idle rfl fun _ _ => id
  unfold sendRequest
  cases sendLoop net args.flags args.msg args.targets with
  | noDestination => exact .refused rfl args.dialogId
  | failed => exact hidle
  | sent msg ts =>
    dsimp only
    split_ifs
    · unfold sentAck
      split_ifs
      · exact hidle
      · cases hmatch : matchRequest b.elmts msg .TT_UAC with
        | none => exact hidle
        | some t => exact (Works.ack _).moves (mem_of_find?_eq_some hmatch)
    · exact .sent rfl rfl

theorem resume_moves {env : CancelEnv} {addr i : ℕ} :
    b.Moves (.resume env addr i) (b.resume env addr i) := by
  unfold resume
  cases hcall : b.calls[i]? with
  | none => exact .idle rfl fun _ _ => id
  | some call =>
    have herase := @inTimerC_eraseIdx _ _ _ hcall
    cases call with
    | cancel tr =>
      have h := @cancel_moves b (.resume env addr i) env addr tr 0 [] (b.calls.eraseIdx i) [] rfl
        fun hc => .inl ((herase hc).resolve_right (by simp))
      simp only [append_nil] at h
      exact h
    | cancelTimeout tr =>
      refine cancel_moves rfl fun hc => (herase hc).imp_right fun hc => ?_
      simpa [inTimerC] using hc
    | timeout tr =>
      dsimp only
      unfold endTimerC
      cases hfind : TransBucket.find { b with calls := b.calls.eraseIdx i } tr with
      | none =>
        refine .idle rfl fun t ht hc => (herase hc).resolve_right ?_
        rintro (hcall | hcall)
        · exact Call.noConfusion hcall
        · have hne := find?_eq_none.1 hfind t ht
          exact hne (beq_iff_eq.2 (Call.timeout.inj hcall).symm)
      | some t =>
        obtain ⟨ht, rfl⟩ := find_mem hfind
        refine .works ht (.timeout hcall hfind) fun u _ hc => inTimerC_append.2 ?_
        refine hc.imp_left fun ⟨hc, hne⟩ => (herase hc).resolve_right ?_
        rintro (hcall | hcall)
        · exact Call.noConfusion hcall
        · exact (hne.resolve_right (not_not.2 rfl)) (Call.timeout.inj hcall).symm

/-- What a step of a bucket can do. -/
theorem step_moves (h : (b.elmts.map SipTrans.addr).Nodup) (ev : TransEv) :
    b.Moves ev (b.step ev) := by
  cases ev with
  | sendRequest net addr args => exact sendRequest_moves
  | reply net addr reply =>
    show b.Moves _ (b.processReply net addr reply)
    unfold processReply
    cases hmatch : matchReply b.elmts reply with
    | none => exact .idle rfl fun _ _ => id
    | some t => exact (Works.reply hmatch).moves (matchReply_mem hmatch)
  | timer net addr tr slot =>
    show b.Moves _ (b.fire net addr tr slot)
    unfold fire
    cases hfind : b.find tr with
    | none =>
      refine .noTimer rfl fun t ht haddr => ?_
      exact absurd (beq_iff_eq.2 haddr) (find?_eq_none.1 hfind t ht)
    | some t =>
      obtain ⟨ht, rfl⟩ := find_mem hfind
      dsimp only
      cases hslot : t.timers slot with
      | none =>
        refine .noTimer rfl fun s hs haddr => ?_
        rw [inj_on_of_nodup_map h hs ht haddr]
        exact hslot
      | some timer =>
        obtain ⟨timer, rfl⟩ := timer
        exact (Works.timer hfind hslot).moves ht
  | cancel env addr tr dialogId invCseq =>
    have h := @cancel_moves b (.cancel env addr tr dialogId invCseq) env addr tr invCseq dialogId
      b.calls [] rfl .inl
    simp only [append_nil] at h
    exact h
  | resume env addr i => exact resume_moves

end TransBucket

/-! ## Short runs -/

def udpSocket : TrspSocket := ⟨0, false, [], []⟩

/-- Every attempt is sent, with a branch that says which one it was. -/
def allSent : Attempts :=
  fun n => ⟨false, some udpSocket, true, [], MAGIC_BRANCH_COOKIE ++ [Char.ofNat (48 + n)], true⟩

/-- A request is sent to the first of some targets. -/
def sendTo (targets : List SipTarget) (method : ReqMethod) (name : Str) : ℕ × TransEv :=
  (0, .sendRequest allSent 1 ⟨TransMsg.bare method name, "d".toList, ⟨false, false⟩, targets⟩)

/-- A reply from the `n`-th last target. -/
def replyTo (net : Attempts) (n code : ℕ) (name : Str) : ℕ × TransEv :=
  (0, .reply net 2
    ⟨code, MAGIC_BRANCH_COOKIE ++ [Char.ofNat (48 + n)], "1".toList, name, [], some udpSocket⟩)

end Sems
