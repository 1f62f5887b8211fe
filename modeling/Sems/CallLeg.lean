import Sems.Runs

/-!
# The legs of a forked call

`CallLeg` is the A leg of a call with one or more B legs while the initial INVITE is not answered.
The first B leg that rings becomes the peer, the first one that accepts is connected and the others
are terminated, and if all refuse, the last refusal is relayed.

A B leg is known by its local tag, so legs are numbered here in the order in which they are added.
`LegHooks` is what the rest of the SBC does while a reply is handled. `acts` and `finals` record
what the leg has done, and the final replies that came.
-/

namespace Sems

/-- `CallLeg::CallStatus`. -/
inductive CallStatus where
  | Disconnected
  | NoReply
  | Ringing
  | Connected
  | Disconnecting
  deriving DecidableEq

/-- What the A leg does towards its caller and the B legs. -/
inductive LegAct where
  /-- a reply of a B leg is relayed to the INVITE -/
  | relayed (leg code : ℕ)
  /-- `bye` answers the INVITE with 487 -/
  | replied487
  /-- a terminate event is posted to a B leg -/
  | terminate (leg : ℕ)
  deriving DecidableEq

/-- The leg of the caller. -/
structure CallLeg where
  callStatus : CallStatus
  otherId : Option ℕ
  otherLegs : List ℕ
  /-- the initial INVITE is in `recvd_req` -/
  recvdInvite : Bool
  sipRelayOnly : Bool
  stopped : Bool
  /-- the number of legs that were added -/
  added : ℕ
  /-- the final replies of the B legs, with their legs -/
  finals : List (ℕ × ℕ)
  acts : List LegAct
  deriving DecidableEq

/-- A reply of a B leg to the initial INVITE. -/
structure LegReply where
  leg : ℕ
  code : ℕ
  toTag : Bool
  deriving DecidableEq

/-- A B leg relays every reply but a 100. -/
def LegReply.forward (reply : LegReply) : Bool :=
  reply.code != 100

/-- What happens outside of the call leg while a reply is handled. -/
structure LegHooks where
  /-- `dlg->reply` accepts the reply that is relayed -/
  replies : Bool
  /-- `dlg->reply` accepts the 487 of `bye` -/
  replies487 : Bool
  /-- `onCallConnected` stops the call -/
  stopsConnected : Bool
  /-- the number of legs that `onBLegRefused` adds -/
  newLegs : ℕ
  deriving DecidableEq

namespace CallLeg

/-- The leg after it has got the initial INVITE. -/
def init : CallLeg where
  callStatus := .Disconnected
  otherId := none
  otherLegs := []
  recvdInvite := true
  sipRelayOnly := false
  stopped := false
  added := 0
  finals := []
  acts := []

variable (h : LegHooks) (s : CallLeg)

/-- `updateCallStatus`. -/
def updateCallStatus (status : CallStatus) : CallLeg :=
  { s with callStatus := status }

/-- `addNewCallee`. -/
def addNewCallee : CallLeg :=
  { s with
    otherLegs := s.otherLegs ++ [s.added]
    added := s.added + 1
    callStatus := if s.callStatus = .Disconnected then .NoReply else s.callStatus }

/-- Some callees, one after the other. -/
def addCallees : ℕ → CallLeg
  | 0 => s
  | n + 1 => (addCallees n).addNewCallee

/-- `onBLegRefused`, which may add legs. -/
def onBLegRefused : CallLeg :=
  s.addCallees h.newLegs

/-! ## Ending legs -/

/-- All legs but the peer are terminated, and only the peer stays in the list. -/
def terminateNotConnectedLegs : CallLeg :=
  { s with
    acts := s.acts ++ (s.otherLegs.filter fun leg => some leg ≠ s.otherId).map .terminate
    otherLegs := s.otherId.toList.filter (· ∈ s.otherLegs) }

/-- `terminateOtherLeg`. The id of the peer stays. -/
def terminateOtherLeg : CallLeg :=
  let s := if s.callStatus ≠ .Connected then s.terminateNotConnectedLegs else s
  { s with
    acts := s.acts ++ s.otherId.toList.map .terminate
    otherLegs := s.otherId.elim s.otherLegs s.otherLegs.erase
    callStatus := .Disconnected }

/-- `terminateLeg`. If the INVITE is not answered yet, `bye` does it. -/
def terminateLeg : CallLeg :=
  if s.recvdInvite && h.replies487 then
    { s with stopped := true, recvdInvite := false, acts := s.acts ++ [.replied487] }
  else { s with stopped := true }

/-- All legs are terminated. -/
def stopCall : CallLeg :=
  ((s.updateCallStatus .Disconnected).terminateNotConnectedLegs.terminateOtherLeg).terminateLeg h

/-- `removeOtherLeg`. -/
def removeOtherLeg (id : ℕ) : CallLeg :=
  { s with
    otherId := if s.otherId = some id then none else s.otherId
    otherLegs := s.otherLegs.erase id }

/-! ## Replies to the initial INVITE -/

variable (reply : LegReply)

/-- `relaySipReply`, and whether it returns 0. A reply to an answered INVITE is dropped without an
error, and a final reply answers it. -/
def relaySipReply : CallLeg × Bool :=
  if s.recvdInvite then
    if h.replies then
      ({ s with
          acts := s.acts ++ [.relayed reply.leg reply.code]
          recvdInvite := decide (reply.code < 200) }, true)
    else (s, false)
  else (s, true)

/-- `setOther`, and whether it returns true. -/
def setOther (id : ℕ) : CallLeg × Bool :=
  if s.otherId = some id then (s, true)
  else if id ∈ s.otherLegs then ({ s with otherId := some id, sipRelayOnly := true }, true)
  else (s, false)

/-- Relay a provisional reply, or stop the call. -/
def relay1xx : CallLeg :=
  if reply.forward then
    match s.relaySipReply h reply with
    | (s, true) => s
    | (s, false) => s.stopCall h
  else s

/-- `b2bInitial1xx` : the first leg that rings is the peer. -/
def b2bInitial1xx : CallLeg :=
  if reply.toTag = false ∨ reply.code = 100 then s
  else if s.callStatus = .NoReply then
    match s.setOther reply.leg with
    | (s, true) => (s.updateCallStatus .Ringing).relay1xx h reply
    | (s, false) => s
  else if s.otherId = some reply.leg then s.relay1xx h reply
  else s

/-- `b2bInitial2xx` : the other legs are terminated. -/
def b2bInitial2xx : CallLeg :=
  match s.setOther reply.leg with
  | (s, false) => s
  | (s, true) =>
    let s := { s.terminateNotConnectedLegs with otherLegs := [] }
    -- what follows is done even if `onCallConnected` has stopped the call
    let s := if h.stopsConnected then s.stopCall h else s
    if reply.forward then
      match s.relaySipReply h reply with
      | (s, true) => s.updateCallStatus .Connected
      | (s, false) => s.stopCall h
    else s.updateCallStatus .Connected

/-- `b2bInitialErr` : the last refusal ends the call. -/
def b2bInitialErr : CallLeg :=
  if s.callStatus = .Ringing ∧ s.otherId ≠ some reply.leg then
    (s.removeOtherLeg reply.leg).onBLegRefused h
  else
    let s := ((s.removeOtherLeg reply.leg).updateCallStatus .NoReply).onBLegRefused h
    let s := { s with sipRelayOnly := false }
    if s.otherLegs ≠ [] then s
    else
      let s := if reply.forward then (s.relaySipReply h reply).1 else s
      (s.updateCallStatus .Disconnected).stopCall h

/-- A reply before the call is connected. -/
def onInitialReply : CallLeg :=
  if reply.code < 200 then s.b2bInitial1xx h reply
  else if reply.code < 300 then s.b2bInitial2xx h reply
  else s.b2bInitialErr h reply

/-- The other replies, of the peer only : they are relayed as long as the INVITE is not
answered. -/
def onOtherReply : CallLeg :=
  if s.otherId ≠ some reply.leg then s
  else if reply.forward then
    match s.relaySipReply h reply with
    | (s, true) => s
    | (s, false) => s.terminateOtherLeg.terminateLeg h
  else s

/-- A reply of another leg. -/
def onB2BReply : CallLeg :=
  if s.callStatus = .NoReply ∨ s.callStatus = .Ringing then s.onInitialReply h reply
  else s.onOtherReply h reply

/-! ## Runs -/

/-- Note a final reply. -/
def received : CallLeg :=
  if reply.code < 200 then s else { s with finals := s.finals ++ [(reply.leg, reply.code)] }

end CallLeg

/-- What happens to the A leg. -/
inductive LegEv where
  | addCallee
  | reply (h : LegHooks) (reply : LegReply)

/-- A call from outside. -/
def CallLeg.step (s : CallLeg) : LegEv → CallLeg
  | .addCallee => s.addNewCallee
  | .reply h reply => (s.received reply).onB2BReply h reply

end Sems
