import Sems.Runs
import Sems.TransServer

/-!
# Runs of the server side

The table of server transactions with the threads that work on it. A step is what a thread does
while it holds the lock of a bucket. Only a PRACK is processed in more than one step : its thread
unlocks the bucket of the PRACK, visits that of the INVITE, and comes back to add the transaction.
`hash` gives the bucket of a Call-ID and a CSeq number.
-/

namespace Sems

/-- What is handed to the UA, and what is sent. -/
inductive ServerLog where
  /-- `handle_sip_request` with a new transaction. -/
  | request (addr : ℕ) (msg : TransMsg)
  /-- `handle_sip_request` with the ACK of a 200 reply. -/
  | ack (msg : TransMsg)
  /-- The 400 reply to a PRACK without RAck. -/
  | badPrack (msg : TransMsg)
  | sent (log : TransLog)

structure ServerBucket where
  elmts : List SipTrans
  log : List ServerLog

/-- Where the thread of a PRACK is. -/
inductive PrackStage where
  | visitInvite
  | addTrans
  deriving DecidableEq

structure ServerTable where
  buckets : ℕ → ServerBucket
  /-- The PRACKs whose threads have unlocked the bucket. -/
  threads : List (TransMsg × PrackStage)

namespace ServerBucket

variable (b : ServerBucket)

def find (addr : ℕ) : Option SipTrans :=
  b.elmts.find? (·.addr == addr)

/-- Put another transaction in the place of the one at an address. -/
def update (addr : ℕ) (s : Option SipTrans) (log : List ServerLog) : ServerBucket :=
  ⟨replaceKey SipTrans.addr addr s b.elmts, b.log ++ log⟩

/-- A new transaction, which is handed to the UA. -/
def addTrans (addr : ℕ) (junk : TransFlags) (msg : TransMsg) : ServerBucket :=
  let t := newTrans (freshAddr b.elmts addr) junk msg .TT_UAS
  ⟨b.elmts ++ [t], b.log ++ [.request t.addr msg]⟩

/-- A request for which there is a transaction. -/
def matched (t : SipTrans) (msg : TransMsg) : ServerBucket :=
  if msg.method ≠ t.msg.method then
    let r := updateUasRequest t msg
    b.update t.addr r.1 (if r.2 && t.state = .TS_TERMINATED_200 then [.ack msg] else [])
  else b.update t.addr (some t) (if t.retrBuf then [.sent (.retransmit t.addr)] else [])

/-- The PRACK for a reliable reply. -/
def prack (msg : TransMsg) : ServerBucket :=
  match match1xxPrack b.elmts msg with
  | none => b
  | some t => b.update t.addr (updateUasRequest t msg).1 []

/-- `send_reply`. -/
def reply (b : ServerBucket) (env : ReplyEnv) (tr : ℕ) (reply : ServerReply) : ServerBucket :=
  match b.find tr with
  | none => b
  | some t => b.update tr (sendReply env t reply).1 []

end ServerBucket

/-- `timer_expired` for the timers of a server transaction. -/
def serverTimer (tr : SipTrans) (timer : TransTimer) : Effect :=
  match timer.type with
  | .STIMER_G => retransmitTimer tr timer
  | .STIMER_H => timerH tr
  | .STIMER_I | .STIMER_J => .removed
  | _ => .keep tr

def ServerBucket.fire (b : ServerBucket) (tr : ℕ) (slot : Fin 3) : ServerBucket :=
  match b.find tr with
  | none => b
  | some t =>
    match t.timers slot with
    | none => b
    | some timer =>
      let e := serverTimer t timer.1
      b.update tr e.self (e.log.map .sent)

/-- What can happen in the table. -/
inductive ServerEv where
  /-- A request is received. `addr` and `junk` are the memory of a new transaction. -/
  | receive (addr : ℕ) (junk : TransFlags) (msg : TransMsg)
  /-- The thread of a PRACK goes on. -/
  | resume (addr : ℕ) (junk : TransFlags) (i : ℕ)
  | reply (k : ℕ) (env : ReplyEnv) (tr : ℕ) (reply : ServerReply)
  | timer (k : ℕ) (tr : ℕ) (slot : Fin 3)

namespace ServerTable

def init : ServerTable :=
  ⟨fun _ => ⟨[], []⟩, []⟩

variable (hash : Str → Str → ℕ)

def setBucket (T : ServerTable) (k : ℕ) (b : ServerBucket) : ServerTable :=
  { T with buckets := Function.update T.buckets k b }

/-- The bucket of a request. -/
def bucketOf (msg : TransMsg) : ℕ :=
  hash msg.callid msg.cseqNumStr

/-- `process_rcvd_msg` with a request, up to the first unlock. -/
def receive (T : ServerTable) (addr : ℕ) (junk : TransFlags) (msg : TransMsg) : ServerTable :=
  let k := bucketOf hash msg
  let b := T.buckets k
  match matchRequest b.elmts msg .TT_UAS with
  | some t => T.setBucket k (b.matched t msg)
  | none =>
    match msg.method with
    | .ACK => T
    | .PRACK =>
      match msg.rack with
      | none => T.setBucket k { b with log := b.log ++ [.badPrack msg] }
      | some _ => { T with threads := T.threads ++ [(msg, .visitInvite)] }
    | _ => T.setBucket k (b.addTrans addr junk msg)

/-- The thread of a PRACK goes on until its next unlock. -/
def resume (T : ServerTable) (addr : ℕ) (junk : TransFlags) (i : ℕ) : ServerTable :=
  match T.threads[i]? with
  | none => T
  | some (msg, .visitInvite) =>
    let k := hash msg.callid ((msg.rack.map SipRack.cseqStr).getD [])
    { T.setBucket k ((T.buckets k).prack msg) with threads := T.threads.set i (msg, .addTrans) }
  | some (msg, .addTrans) =>
    let k := bucketOf hash msg
    { T.setBucket k ((T.buckets k).addTrans addr junk msg) with threads := T.threads.eraseIdx i }

def step (T : ServerTable) : ServerEv → ServerTable
  | .receive addr junk msg => T.receive hash addr junk msg
  | .resume addr junk i => T.resume hash addr junk i
  | .reply k env tr reply => T.setBucket k ((T.buckets k).reply env tr reply)
  | .timer k tr slot => T.setBucket k ((T.buckets k).fire tr slot)

end ServerTable

end Sems
