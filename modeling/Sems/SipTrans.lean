import Sems.SipParser

/-!
# SIP transactions

`sip_trans` (`core/sip/sip_trans.cpp`) with its timers, and the target set of a request
(`core/sip/resolver.cpp`). A transaction has three timer slots, which the fourteen kinds of timers
share (`_timer_type_lookup`). The delay of a timer follows from its kind and the number of its
repetitions, so that a timer is these two. A transaction is known by its address.
-/

namespace Sems

open Function

/-! ## Timers -/

/-- `sip_timer_type`. -/
inductive TimerType where
  | STIMER_A
  | STIMER_B
  | STIMER_D
  | STIMER_E
  | STIMER_F
  | STIMER_K
  | STIMER_G
  | STIMER_H
  | STIMER_I
  | STIMER_J
  | STIMER_L
  | STIMER_M
  | STIMER_C
  | STIMER_BL
  deriving DecidableEq, Repr

/-- `_timer_type_lookup`. -/
def TimerType.slot : TimerType → Fin 3
  | .STIMER_A => 0
  | .STIMER_B => 1
  | .STIMER_D => 2
  | .STIMER_E => 0
  | .STIMER_F => 1
  | .STIMER_K => 2
  | .STIMER_G => 0
  | .STIMER_H => 1
  | .STIMER_I => 2
  | .STIMER_J => 0
  | .STIMER_L => 2
  | .STIMER_M => 2
  | .STIMER_C => 2
  | .STIMER_BL => 2

/-- `trans_timer` : its kind, and how often it was repeated. -/
structure TransTimer where
  type : TimerType
  n : ℕ
  deriving DecidableEq, Repr

/-- A timer in its slot. -/
abbrev SlotTimer (i : Fin 3) := { timer : TransTimer // timer.type.slot = i }

/-- The timers of a transaction. -/
abbrev Timers := (i : Fin 3) → Option (SlotTimer i)

namespace Timers

/-- No timer is set. -/
def empty : Timers :=
  fun _ => none

variable (ts : Timers) (type : TimerType)

/-- What is in the slot of a kind of timers. -/
def get : Option TransTimer :=
  (ts type.slot).map Subtype.val

/-- Sets a timer in its slot. -/
def put (timer : TransTimer) : Timers :=
  Function.update ts timer.type.slot (some ⟨timer, rfl⟩)

/-- Empties the slot of the type. -/
def clear : Timers :=
  Function.update ts type.slot none

/-- A timer of this kind is set. -/
def armed : Bool :=
  (ts.get type).any fun timer => timer.type = type

variable {ts : Timers} {type : TimerType} {timer : TransTimer}

theorem slot_of_get (h : ts.get type = some timer) : timer.type.slot = type.slot := by
  unfold get at h
  obtain ⟨x, -, rfl⟩ := Option.map_eq_some_iff.1 h
  exact x.2

theorem armed_iff : ts.armed type ↔ ∃ n, ts.get type = some ⟨type, n⟩ := by
  unfold armed
  rcases ts.get type with _ | ⟨type', n⟩
  · simp
  · simp [eq_comm]

theorem get_put (type : TimerType) :
    (ts.put timer).get type = if type.slot = timer.type.slot then some timer else ts.get type := by
  unfold get put
  by_cases h : type.slot = timer.type.slot
  · rw [if_pos h, h, update_self, Option.map_some]
  · rw [if_neg h, update_of_ne h]

theorem get_clear (type type' : TimerType) :
    (ts.clear type').get type = if type.slot = type'.slot then none else ts.get type := by
  unfold get clear
  by_cases h : type.slot = type'.slot
  · rw [if_pos h, h, update_self, Option.map_none]
  · rw [if_neg h, update_of_ne h]

@[simp]
theorem armed_empty : empty.armed type = false :=
  rfl

theorem armed_put :
    (ts.put timer).armed type =
      if type.slot = timer.type.slot then decide (timer.type = type) else ts.armed type := by
  unfold armed
  rw [get_put]
  split_ifs with h
  · rfl
  · rfl

theorem armed_clear (type' : TimerType) :
    (ts.clear type').armed type = if type.slot = type'.slot then false else ts.armed type := by
  unfold armed
  rw [get_clear]
  split_ifs with h
  · rfl
  · rfl

end Timers

/-! ## Transactions -/

/-- The side of a transaction. -/
inductive TransType where
  | TT_UAS
  | TT_UAC
  deriving DecidableEq, Repr

/-- The states of a transaction, with the 0 of the constructor. -/
inductive TransState where
  | TS_0
  | TS_TRYING
  | TS_CALLING
  | TS_PROCEEDING
  | TS_PROCEEDING_REL
  | TS_COMPLETED
  | TS_CONFIRMED
  | TS_TERMINATED_200
  | TS_TERMINATED
  | TS_ABANDONED
  | TS_REMOVED
  deriving DecidableEq, Repr

/-- The flags of `send_request`. -/
structure TransFlags where
  nextHopRuri : Bool
  disableBl : Bool
  deriving DecidableEq, Repr

/-- A target of a request : its address and transport. -/
structure SipTarget where
  ss : ℕ
  trsp : Str
  deriving DecidableEq, Repr

/-- A socket, with the address it advertises. -/
structure TrspSocket where
  id : ℕ
  reliable : Bool
  ip : Str
  port : Str
  deriving DecidableEq, Repr

/-- A request, as the transaction layer sees it : `sip_msg`, with the tags of From and To and its
first Via. -/
structure TransMsg where
  method : ReqMethod
  methodStr : Str
  ruriStr : Str
  branch : Str
  host : Str
  port : Str
  callid : Str
  fromTag : Str
  toTag : Str
  cseqNumStr : Str
  cseqNum : ℕ
  cseqMethodStr : Str
  rack : Option SipRack
  hdrs : List SipHeader
  remoteIp : ℕ
  localSocket : TrspSocket
  deriving DecidableEq, Repr

/-- A request over UDP with nothing in it but its method and CSeq 1. -/
def TransMsg.bare (method : ReqMethod) (name : Str) : TransMsg where
  method := method
  methodStr := name
  ruriStr := []
  branch := []
  host := []
  port := []
  callid := []
  fromTag := []
  toTag := []
  cseqNumStr := "1".toList
  cseqNum := 1
  cseqMethodStr := name
  rack := none
  hdrs := []
  remoteIp := 0
  localSocket := ⟨0, false, [], []⟩

/-- `sip_trans`. -/
structure SipTrans where
  /-- Its address. -/
  addr : ℕ
  type : TransType
  timers : Timers
  msg : TransMsg
  toTag : Str
  replyStatus : ℕ
  state : TransState
  lastRseq : ℕ
  dialogId : Str
  targets : Option (List SipTarget)
  /-- There is something in the retransmission buffer. -/
  retrBuf : Bool
  flags : TransFlags
  canceled : Bool
  /-- The call of `send_request` it comes from, none for a CANCEL. This is not in the code. -/
  request : Option ℕ

namespace SipTrans

/-- The constructor. It leaves the flags as the memory has them. -/
def new (addr : ℕ) (junk : TransFlags) (type : TransType) (msg : TransMsg) : SipTrans where
  addr := addr
  type := type
  timers := .empty
  msg := msg
  toTag := []
  replyStatus := 0
  state := .TS_0
  lastRseq := 0
  dialogId := []
  targets := none
  retrBuf := false
  flags := junk
  canceled := false
  request := none

variable (t : SipTrans) (type : TimerType)

/-- `get_timer`. -/
def getTimer : Option TransTimer :=
  t.timers.get type

/-- The timer of a slot is found by its type. -/
theorem getTimer_of_timers {t : SipTrans} {timer : TransTimer}
    (h : t.timers timer.type.slot = some ⟨timer, rfl⟩) : t.getTimer timer.type = some timer := by
  rw [getTimer, Timers.get, h]
  rfl

/-- Timers of one slot are the same. -/
theorem getTimer_of_slot (t : SipTrans) (type type' : TimerType) (h : type.slot = type'.slot) :
    t.getTimer type = t.getTimer type' := by
  rw [getTimer, getTimer, Timers.get, Timers.get, h]

/-- `reset_timer(trans_timer*, ..)`. -/
@[simp]
def putTimer (timer : TransTimer) : SipTrans :=
  { t with timers := t.timers.put timer }

/-- `reset_timer`, to a new expiry. -/
@[simp]
def resetTimer : SipTrans :=
  t.putTimer ⟨type, 0⟩

/-- `reset_timer((n<<16) | type, ..)`. -/
@[simp]
def repeatTimer (n : ℕ) : SipTrans :=
  t.putTimer ⟨type, n % 2 ^ 16⟩

/-- `clear_timer`. -/
@[simp]
def clearTimer : SipTrans :=
  { t with timers := t.timers.clear type }

/-- `reset_all_timers`. -/
@[simp]
def resetAllTimers : SipTrans :=
  { t with timers := .empty }

/-- A new `state`. -/
@[simp]
def setState (state : TransState) : SipTrans :=
  { t with state := state }

/-- `flags |= TR_FLAG_DISABLE_BL`. -/
@[simp]
def disableBl (t : SipTrans) : SipTrans :=
  { t with flags.disableBl := true }

/-- The request is not answered yet. -/
def live : Bool :=
  t.state = .TS_CALLING || t.state = .TS_TRYING || t.state = .TS_PROCEEDING

end SipTrans

end Sems
