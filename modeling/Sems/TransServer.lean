import Sems.TransLayer

/-!
# The transaction layer : server transactions

The server side of `_trans_layer` : the replies of the UA (`send_reply`), the requests that are
received, and what they do to a transaction (`update_uas_reply`, `update_uas_request`).

`send_reply` looks for the headers Require and RSeq of a reliable reply. It goes through the
headers of the request (`req->hdrs`), not through those of the reply.
-/

namespace Sems

/-! ## `parse_extensions` and `parse_rseq` -/

def isExtensionSep (c : Char) : Bool :=
  c = ' ' || c = '\t' || c = ',' || c = '\r' || c = '\n'

/-- The option tags of a header, as far as they matter : whether 100rel is one. -/
def parseExtensions (s : Str) : Option Bool :=
  if s.all fun c => isExtensionSep c || isToken c then
    some ((s.splitOnP isExtensionSep).contains SIP_EXT_100REL)
  else none

def parseRseq (s : Str) : Option ℕ :=
  (readField s).map Prod.fst

/-! ## `send_reply` -/

/-- The reply of the UA. -/
structure ServerReply where
  code : ℕ
  hdrs : List SipHeader
  dialogId : Str
  toTag : Str

/-- What is known of Require and RSeq. -/
structure Rel100Scan where
  rel100Ext : Bool
  rseq : ℕ
  lastRseq : ℕ

/-- One turn of the loop over the headers of the request. -/
def Rel100Scan.header (s : Rel100Scan) (hdr : SipHeader) : Rel100Scan :=
  match hdr.type with
  | .H_REQUIRE =>
    if s.rel100Ext then s
    else
      match parseExtensions hdr.value with
      | none => s
      | some rel100 =>
        { s with
          rel100Ext := rel100
          -- our RSeq's are never 0
          lastRseq := if rel100 && s.rseq ≠ 0 then s.rseq else s.lastRseq }
  | .H_RSEQ =>
    if s.rseq ≠ 0 then s
    else
      match parseRseq hdr.value with
      | none => s
      | some rseq => { s with rseq := rseq, lastRseq := if s.rel100Ext then rseq else s.lastRseq }
  | _ => s

/-- What comes from outside while a reply is sent. -/
structure ReplyEnv where
  /-- There is a socket, and an address of the first Via. -/
  resolved : Bool
  sent : Bool

/-- The reply is repeated until there is an ACK or a PRACK. -/
def SipTrans.repeatReply (t : SipTrans) : SipTrans :=
  let ts := if !t.msg.localSocket.reliable then t.timers.put ⟨.STIMER_G, 0⟩ else t.timers
  { t with timers := ts.put ⟨.STIMER_H, 0⟩ }

/-- `update_uas_reply`, none when the transaction is removed. -/
def updateUasReply (t : SipTrans) (code : ℕ) : Option SipTrans :=
  let reliable := t.msg.localSocket.reliable
  let t := { t with replyStatus := code }
  if 300 ≤ code then
    let t := t.setState .TS_COMPLETED
    if t.msg.method = .INVITE then some t.repeatReply
    else if !reliable then some (t.resetTimer .STIMER_J)
    else none
  else if 200 ≤ code then
    if t.msg.method = .INVITE then some (t.setState .TS_TERMINATED_200).repeatReply
    else if !reliable then some ((t.setState .TS_COMPLETED).resetTimer .STIMER_J)
    else none
  else if t.lastRseq ≠ 0 then some (t.setState .TS_PROCEEDING_REL).repeatReply
  else some (t.setState .TS_PROCEEDING)

/-- The To-tag `send_reply` leaves. -/
def replyToTag (t : SipTrans) (reply : ServerReply) : Str :=
  if reply.toTag ≠ [] then if t.msg.toTag ≠ [] then t.msg.toTag else reply.toTag
  else if 300 ≤ reply.code then []
  else t.toTag

/-- `send_reply`, once it has found the transaction : the transaction, unless it is removed, and
whether the reply was sent. -/
def sendReply (env : ReplyEnv) (t : SipTrans) (reply : ServerReply) : Option SipTrans × Bool :=
  if 200 ≤ t.replyStatus then (some t, false)
  else
    let scan := t.msg.hdrs.foldl Rel100Scan.header ⟨false, 0, t.lastRseq⟩
    let t := { t with toTag := replyToTag t reply, lastRseq := scan.lastRseq }
    if !env.resolved then (some t, false)
    else if !env.sent then
      (if !t.msg.localSocket.reliable then some (t.resetTimer .STIMER_J) else none, false)
    else
      let t := { t with retrBuf := true }
      ((updateUasReply t reply.code).map fun t =>
        { t with dialogId := if t.dialogId = [] then reply.dialogId else t.dialogId }, true)

/-! ## Received requests -/

/-- `update_uas_request` with an ACK or a PRACK : the transaction, unless it is removed, and whether
there was an error. -/
def updateUasRequest (t : SipTrans) (msg : TransMsg) : Option SipTrans × Bool :=
  if msg.method ≠ .ACK ∧ msg.method ≠ .PRACK then (some t, false)
  else
    match t.state with
    | .TS_PROCEEDING => (some t, false)
    | .TS_PROCEEDING_REL =>
      if msg.method = .PRACK then
        (some ((t.clearTimer .STIMER_G).clearTimer .STIMER_H), true)
      else (some t, true)
    | .TS_COMPLETED =>
      if msg.method ≠ .ACK then (some t, false)
      else
        let t := ((t.setState .TS_CONFIRMED).clearTimer .STIMER_G).clearTimer .STIMER_H
        if msg.localSocket.reliable then (none, true) else (some (t.resetTimer .STIMER_I), true)
    | .TS_CONFIRMED => (some t, true)
    | .TS_TERMINATED_200 => if msg.method ≠ .ACK then (some t, false) else (none, true)
    | _ => (some t, false)

end Sems
