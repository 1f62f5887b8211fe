import Sems.ByteMem
import Sems.ParseCommon

/-!
# Connections of the JSON-RPC server

The JSON-RPC server (`apps/jsonrpc`) exchanges netstrings with its peers. A connection
(`RpcPeer.cpp`) has one buffer for messages in both directions and two counters. `netstringsRead` is
called by the server loop (`RpcServerLoop.cpp`) whenever there is something to read. A complete
message goes to a server thread (`RpcServerThread.cpp`), which hands it to `processMessage`, sends
the reply, and returns the connection to the loop. A message to be sent goes to a thread at once if
the connection is in the loop, and waits otherwise.

An `unsigned int` has 32 bits and a `ssize_t` 64. The bytes the peer has sent and the outcomes of
the system calls are inputs. The logs are for the statements.
-/

namespace Sems

/-- The longest message. -/
def MAX_RPC_MSG_SIZE : ℕ := 20 * 1024 * 1024

/-- The most digits of a length. -/
def MAX_NS_LEN_SIZE : ℕ := 10

/-- What a `read` finds : up to `n + 1` bytes, no bytes for now, the end of the stream, or an
error. -/
inductive ReadOutcome where
  | data (n : ℕ)
  | again
  | hangup
  | error
  deriving DecidableEq

/-- What a `read` returns : a number of bytes, or -1 with or without `EAGAIN`. -/
inductive ReadCount where
  | bytes (n : ℕ)
  | again
  | error

/-- The result of a `read` as an `unsigned int`. -/
def ReadCount.toUnsigned : ReadCount → ℕ
  | .bytes n => n % 2 ^ 32
  | .again => 2 ^ 32 - 1
  | .error => 2 ^ 32 - 1

/-- Why a connection was closed and removed. -/
inductive RemoveCause where
  | oversizeLength
  | invalidCharacter
  | badSize
  | exceedsBuffer
  | notTerminated
  | hangup
  | socketError
  | processing
  | writing
  | closeAlways
  deriving DecidableEq

/-- `ReadResult`. -/
inductive ReadResult where
  | CONTINUE
  | REMOVE (cause : RemoveCause)
  | DISPATCH

/-- What `processMessage` does : it returns an error, or leaves no reply or the text of one. -/
inductive ProcessOutcome where
  | error
  | noReply
  | reply (json : List Char)
  deriving DecidableEq

/-- A `JsonServerSendMessageEvent`, with the text made from its parameters. -/
structure SendMessage where
  isReply : Bool
  json : List Char
  deriving DecidableEq

/-- Who has the connection : the read loop, a thread with an event (a received message, or one to be
sent), or the event queue of the loop. -/
inductive ConnMode where
  | reading
  | thread (ev : Option SendMessage)
  | returned
  | removed (cause : RemoveCause)
  deriving DecidableEq

/-- A write into `msgbuf`, by its place and length, or into the `snd_size` before it. -/
inductive BufWrite where
  | msgbuf (a n : ℕ)
  | sndSize (n : ℕ)
  deriving DecidableEq

/-- `unread` are the bytes of the stream that were not read, `pending` the events of the connection,
and `handed` the messages handed to `processMessage`. -/
structure JsonrpcNetstringsConnection where
  closeAlways : Bool
  msgbuf : Mem
  msgSize : ℕ
  rcvdSize : ℕ
  inMsg : Bool
  msgRecv : Bool
  mode : ConnMode
  pending : List SendMessage
  unread : List Char
  handed : List (List Char)
  writes : List BufWrite

namespace JsonrpcNetstringsConnection

/-- A new connection. An accepted one is read at once, and the first event of one that the server
opens is a message to be sent. -/
def init (closeAlways : Bool) (mem : Mem) (stream : List Char) (first : Option SendMessage) :
    JsonrpcNetstringsConnection where
  closeAlways := closeAlways
  msgbuf := mem
  msgSize := 0
  rcvdSize := 0
  inMsg := false
  msgRecv := true
  mode := match first with
    | none => .reading
    | some m => .thread (some m)
  pending := []
  unread := stream
  handed := []
  writes := []

variable (s : JsonrpcNetstringsConnection)

/-- `resetRead`. -/
def resetRead : JsonrpcNetstringsConnection :=
  { s with inMsg := false, msgSize := 0, rcvdSize := 0, msgRecv := true }

/-- `messagePending`. -/
def messagePending : Bool :=
  s.msgSize ≠ 0

/-- The message in the buffer. -/
def message : List Char :=
  readMem s.msgbuf 0 s.msgSize

/-- Bytes written to the buffer, and noted. -/
def write (a : ℕ) (bytes : List Char) : JsonrpcNetstringsConnection :=
  { s with
    msgbuf := writeMem s.msgbuf a bytes
    writes := s.writes ++ [.msgbuf a bytes.length] }

/-! ## Reading -/

/-- `read(fd, msgbuf + a, n)`. -/
def read (o : ReadOutcome) (a n : ℕ) : JsonrpcNetstringsConnection × ReadCount :=
  match o with
  | .data k =>
    let bytes := s.unread.take (min (k + 1) n)
    if n = 0 then (s, .bytes 0)
    else if bytes = [] then (s, .again)
    else ({ s.write a bytes with unread := s.unread.drop bytes.length }, .bytes bytes.length)
  | .again => (s, .again)
  | .hangup => (s, .bytes 0)
  | .error => (s, .error)

/-- The end of a message, when all its bytes are there. -/
def checkComma : ReadResult :=
  if s.msgbuf s.msgSize = ',' then .DISPATCH else .REMOVE .notTerminated

/-- The test for the end of a message. -/
def checkBody : JsonrpcNetstringsConnection × ReadResult :=
  if s.rcvdSize = s.msgSize + 1 then (s, s.checkComma) else (s, .CONTINUE)

/-- The test after the first bytes of a message. The source tests for an error last, on an unsigned
number that is never negative. -/
def firstBody : JsonrpcNetstringsConnection × ReadResult :=
  if s.rcvdSize = s.msgSize + 1 then
    match s.checkComma with
    | .DISPATCH => (s.write (s.msgSize + 1) ['\x00'], .DISPATCH)
    | res => (s, res)
  else if s.rcvdSize = 0 then (s, .REMOVE .hangup)
  else (s, .CONTINUE)

/-- The `read` that follows the length. -/
def readBody (o : ReadOutcome) : JsonrpcNetstringsConnection × ReadResult :=
  let (s, r) := s.read o 0 (s.msgSize + 1)
  firstBody { s with rcvdSize := r.toUnsigned }

/-- The colon was read. -/
def endLength (o : ReadOutcome) : JsonrpcNetstringsConnection × ReadResult :=
  let s := s.write s.rcvdSize ['\x00']
  match str2i (readMem s.msgbuf 0 s.rcvdSize) with
  | none => (s, .REMOVE .badSize)
  | some n =>
    if MAX_RPC_MSG_SIZE - 2 < n then ({ s with msgSize := n }, .REMOVE .exceedsBuffer)
    else readBody { s with msgSize := n, inMsg := true } o

/-- The loop that reads the length, with the outcomes of its calls of `read`. At the end of the list
there are no more bytes for now. -/
def readLength : List ReadOutcome → JsonrpcNetstringsConnection →
    JsonrpcNetstringsConnection × ReadResult
  | [], s => if MAX_NS_LEN_SIZE < s.rcvdSize then (s, .REMOVE .oversizeLength) else (s, .CONTINUE)
  | o :: os, s =>
    if MAX_NS_LEN_SIZE < s.rcvdSize then (s, .REMOVE .oversizeLength)
    else
      match s.read o s.rcvdSize 1 with
      | (s, .bytes 0) => (s, .REMOVE .hangup)
      | (s, .again) => (s, .CONTINUE)
      | (s, .error) => (s, .REMOVE .socketError)
      | (s, .bytes _) =>
        if s.msgbuf s.rcvdSize = ':' then s.endLength (os.headD .again)
        else if isDigit (s.msgbuf s.rcvdSize) = false then (s, .REMOVE .invalidCharacter)
        else readLength os { s with rcvdSize := s.rcvdSize + 1 }

/-- The `read` in the middle of a message. The numbers are unsigned. -/
def readMessage (o : ReadOutcome) : JsonrpcNetstringsConnection × ReadResult :=
  match s.read o s.rcvdSize ((s.msgSize + 2 ^ 32 - s.rcvdSize + 1) % 2 ^ 32) with
  | (s, .bytes 0) => (s, .REMOVE .hangup)
  | (s, .again) => (s, .CONTINUE)
  | (s, .error) => (s, .REMOVE .socketError)
  | (s, .bytes r) => checkBody { s with rcvdSize := (s.rcvdSize + r) % 2 ^ 32 }

/-- `netstringsRead`. -/
def netstringsRead (os : List ReadOutcome) : JsonrpcNetstringsConnection × ReadResult :=
  if s.inMsg then s.readMessage (os.headD .again) else readLength os s

/-! ## The server loop -/

/-- The connection is closed. -/
def remove (cause : RemoveCause) : JsonrpcNetstringsConnection :=
  { s with mode := .removed cause }

/-- `read_cb`, which is called if the connection is in the read loop. -/
def readCb (os : List ReadOutcome) : JsonrpcNetstringsConnection :=
  if s.mode = .reading then
    match s.netstringsRead os with
    | (s, .CONTINUE) => s
    | (s, .REMOVE cause) => s.remove cause
    | (s, .DISPATCH) => { s with mode := .thread none }
  else s

/-- The `SendMessage` event of the loop. -/
def processSendMessage (m : SendMessage) : JsonrpcNetstringsConnection :=
  match s.mode with
  | .reading => { s with mode := .thread (some m) }
  | .removed _ => s
  | _ => { s with pending := s.pending ++ [m] }

/-- The first pending event is dispatched. Without one the connection goes on to `next`. -/
def dispatchPending (next : JsonrpcNetstringsConnection → JsonrpcNetstringsConnection) :
    JsonrpcNetstringsConnection :=
  match s.pending with
  | m :: rest => { s with pending := rest, mode := .thread (some m) }
  | [] => next s

/-- The `StartReadLoop` event of the loop. -/
def processStartReadLoop : JsonrpcNetstringsConnection :=
  if s.mode = .returned then s.dispatchPending fun s => { s.resetRead with mode := .reading }
  else s

/-- The connection goes back to the loop. -/
def returnConnection : JsonrpcNetstringsConnection :=
  s.dispatchPending fun s => { s with mode := .returned }

/-! ## The server threads -/

/-- The text of a message is copied into the buffer, if it is not too long. -/
def setMessage (json : List Char) : Option JsonrpcNetstringsConnection :=
  if MAX_RPC_MSG_SIZE < json.length then none
  else some { s.write 0 json with msgSize := json.length }

/-- A request to be sent. -/
def createRequest (json : List Char) : Option JsonrpcNetstringsConnection :=
  (s.setMessage json).map fun s => { s with msgRecv := false }

/-- A reply to be sent. -/
def createReply (json : List Char) : Option JsonrpcNetstringsConnection :=
  s.setMessage json

/-- `processMessage`, which returns an error with `false`. -/
def processMessage (r : ProcessOutcome) : JsonrpcNetstringsConnection × Bool :=
  let s := { s with handed := s.handed ++ [s.message] }
  match r with
  | .error => (s, false)
  | .noReply => ({ s with msgSize := 0 }, true)
  | .reply json =>
    match s.setMessage json with
    | none => (s, false)
    | some s => (s, true)

/-- `netstringsBlockingWrite` of a message. With `false` it returns `REMOVE`. -/
def netstringsBlockingWrite (sent : Bool) : JsonrpcNetstringsConnection × Bool :=
  let digits := (Nat.toDigits 10 s.msgSize).length
  if MAX_NS_LEN_SIZE < digits then (s, false)
  else
    let s := { s with writes := s.writes ++ [BufWrite.sndSize (digits + 1)] }
    let s := s.write s.msgSize [',']
    if sent then ({ s with rcvdSize := 0, msgSize := 0 }, true) else (s, false)

/-- The end of `process` of a thread. -/
def finishProcess (processed : Bool) : JsonrpcNetstringsConnection :=
  if processed && s.closeAlways then s.remove .closeAlways else s.returnConnection

/-- The message in the buffer is sent, unless it was received. -/
def sendPending (processed sent : Bool) : JsonrpcNetstringsConnection :=
  if s.messagePending && !s.msgRecv then
    match s.netstringsBlockingWrite sent with
    | (s, true) => s.finishProcess processed
    | (s, false) => s.remove .writing
  else s.finishProcess processed

/-- The message in the buffer is handed to `processMessage`, if it was received. -/
def processPending (r : ProcessOutcome) (sent : Bool) : JsonrpcNetstringsConnection :=
  if s.messagePending && s.msgRecv then
    match s.processMessage r with
    | (s, false) => s.remove .processing
    | (s, true) => { s with msgRecv := false }.sendPending true sent
  else s.sendPending false sent

/-- `process` of a thread, for the event dispatched to it. -/
def process (r : ProcessOutcome) (sent : Bool) : JsonrpcNetstringsConnection :=
  match s.mode with
  | .thread none => s.processPending r sent
  | .thread (some m) =>
    match if m.isReply then s.createReply m.json else s.createRequest m.json with
    | none => s.returnConnection
    | some s => { s with msgRecv := false }.processPending r sent
  | _ => s

end JsonrpcNetstringsConnection

/-- What happens to a connection. -/
inductive ConnEv where
  | readable (os : List ReadOutcome)
  | sendMessage (m : SendMessage)
  | thread (r : ProcessOutcome) (sent : Bool)
  | startReadLoop

namespace JsonrpcNetstringsConnection

/-- A call from outside. -/
def step (s : JsonrpcNetstringsConnection) (ev : ConnEv) : JsonrpcNetstringsConnection :=
  match ev with
  | .readable os => s.readCb os
  | .sendMessage m => s.processSendMessage m
  | .thread r sent => s.process r sent
  | .startReadLoop => s.processStartReadLoop

end JsonrpcNetstringsConnection

end Sems
