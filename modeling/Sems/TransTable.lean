import Sems.KeyedList
import Sems.SipTrans

/-!
# The transaction table

The searches of `trans_bucket` (`core/sip/trans_table.cpp`). A bucket is the list of its
transactions, and holds those of every call whose Call-ID and CSeq number have its hash.
-/

namespace Sems

open List

def MAGIC_BRANCH_COOKIE : Str := "z9hG4bK".toList

/-- `MAGIC_BRANCH_LEN`. -/
def MAGIC_BRANCH_LEN : ℕ := 7

/-- A received reply. Its socket is none when `transport_error` made it. -/
structure TransReply where
  code : ℕ
  branch : Str
  cseqNumStr : Str
  cseqMethodStr : Str
  toTag : Str
  localSocket : Option TrspSocket
  deriving DecidableEq, Repr

variable (msg : TransMsg)

/-- `do_3261_match`. -/
def TransMsg.hasCookie : Bool :=
  MAGIC_BRANCH_LEN < msg.branch.length && msg.branch.take MAGIC_BRANCH_LEN == MAGIC_BRANCH_COOKIE

/-- `branch` is the branch of `msg` after the cookie. -/
def compareBranch (t : SipTrans) (msg : TransMsg) (branch : Str) : Bool :=
  t.msg.branch.length == branch.length + MAGIC_BRANCH_LEN &&
    branch == t.msg.branch.drop MAGIC_BRANCH_LEN && t.msg.host == msg.host &&
    t.msg.port == msg.port

def match200Ack (t : SipTrans) (msg : TransMsg) : Bool :=
  msg.fromTag == t.msg.fromTag && msg.cseqNum == t.msg.cseqNum && msg.callid == t.msg.callid &&
    msg.toTag == t.toTag

/-- RFC 3261 matching. -/
def matches3261 (t : SipTrans) : Bool :=
  let branch := msg.branch.drop MAGIC_BRANCH_LEN
  if msg.method ≠ t.msg.method then
    if t.msg.method = .INVITE ∧ msg.method = .ACK then
      compareBranch t msg branch || match200Ack t msg
    else false
  else compareBranch t msg branch

/-- Pre-3261 matching. -/
def matchesPre3261 (t : SipTrans) : Bool :=
  if msg.method ≠ t.msg.method ∧ (msg.method ≠ .ACK ∨ t.msg.method ≠ .INVITE) then false
  else if msg.fromTag ≠ t.msg.fromTag then false
  else if msg.cseqNumStr ≠ t.msg.cseqNumStr then false
  else if msg.method = .ACK then
    if msg.toTag ≠ t.toTag then false
    -- 2xx ACK matching
    else if t.replyStatus < 300 then true
    else t.msg.ruriStr == msg.ruriStr
  else if msg.toTag ≠ t.msg.toTag then false
  else t.msg.ruriStr == msg.ruriStr

/-- What `match_request` asks of a transaction. -/
def matchesRequest (ttype : TransType) (t : SipTrans) : Bool :=
  t.type == ttype && if msg.hasCookie then matches3261 msg t else matchesPre3261 msg t

variable (elmts : List SipTrans)

def matchRequest (msg : TransMsg) (ttype : TransType) : Option SipTrans :=
  elmts.find? (matchesRequest msg ttype)

def matchesReply (reply : TransReply) (t : SipTrans) : Bool :=
  t.type == .TT_UAC && t.msg.branch.length == reply.branch.length &&
    t.msg.branch.drop MAGIC_BRANCH_LEN == reply.branch.drop MAGIC_BRANCH_LEN &&
    t.msg.cseqNumStr == reply.cseqNumStr && t.msg.cseqMethodStr == reply.cseqMethodStr

def matchReply (reply : TransReply) : Option SipTrans :=
  if reply.branch.length ≤ MAGIC_BRANCH_LEN then none else elmts.find? (matchesReply reply)

def matches1xxPrack (rack : SipRack) (t : SipTrans) : Bool :=
  msg.fromTag == t.msg.fromTag && msg.toTag == t.toTag && msg.callid == t.msg.callid &&
    rack.cseq == t.msg.cseqNum && rack.rseq == t.lastRseq && rack.method == t.msg.method

/-- The transaction of the reliable reply that a PRACK is for. -/
def match1xxPrack (msg : TransMsg) : Option SipTrans :=
  match msg.rack with
  | none => none
  | some rack => elmts.find? (matches1xxPrack msg rack)

/-- The latest client transaction of a dialog that is not abandoned. -/
def findUacTrans (dialogId : Str) (invCseq : ℕ) : Option SipTrans :=
  elmts.reverse.find? fun t =>
    t.type == .TT_UAC && t.dialogId == dialogId && t.msg.cseqNum == invCseq &&
      t.state ≠ .TS_ABANDONED

/-- The transaction `add_trans` makes. -/
def newTrans (addr : ℕ) (junk : TransFlags) (msg : TransMsg) (ttype : TransType) : SipTrans :=
  (SipTrans.new addr junk ttype msg).setState
    (if msg.method = .INVITE then
      if ttype = .TT_UAS then .TS_PROCEEDING else .TS_CALLING
    else .TS_TRYING)

/-! ## Addresses -/

/-- The address of a new transaction : the one the allocator has chosen, if it is not in use. -/
def freshAddr (addr : ℕ) : ℕ :=
  if elmts.any (·.addr == addr) then (elmts.map SipTrans.addr).sum + 1 else addr

theorem freshAddr_notMem {elmts : List SipTrans} {addr : ℕ} :
    freshAddr elmts addr ∉ elmts.map SipTrans.addr := by
  unfold freshAddr
  split_ifs with h
  · intro hmem
    have hle := le_sum_of_mem hmem
    omega
  · intro hmem
    obtain ⟨t, ht, rfl⟩ := mem_map.1 hmem
    exact h (any_eq_true.2 ⟨t, ht, beq_self_eq_true _⟩)

/-- At most one new transaction, with an address that is not in use. -/
theorem nodup_append {l added : List SipTrans} {a : ℕ} (h : (l.map SipTrans.addr).Nodup)
    (ha : a ∉ l.map SipTrans.addr) (hadded : added = [] ∨ ∃ n, added = [n] ∧ n.addr = a) :
    ((l ++ added).map SipTrans.addr).Nodup := by
  rcases hadded with rfl | ⟨n, rfl, rfl⟩
  · rw [append_nil]
    exact h
  · rw [map_append]
    refine h.append (nodup_singleton _) ?_
    intro x hx hn
    rw [mem_singleton.1 hn] at hx
    exact ha hx

end Sems
