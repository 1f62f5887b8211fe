import Sems.DecimalText
import Sems.JsonRpcConnection
import Sems.Netstring
import Sems.Runs

/-!
# The messages of a JSON-RPC connection

A connection whose peer sends netstrings should hand their texts to `processMessage` one after the
other, however the stream is cut into reads and whatever is sent meanwhile (`MessagesOk`). It does
under the condition `EvOk` on its steps (`messagesOk_runs`) :

* the `read` that follows a length finds some bytes, or else the next `read` writes behind the
  buffer (`run_againAfterColon`);
* a message is not sent while a part of another one has been received, which would be lost;
* a message to be sent does not fill the whole buffer, since a comma is put behind it.

A connection in the read loop is in the middle of a length (`LengthPart`) or in the middle of a text
(`BodyPart`).
-/

namespace Sems

open List

def BufWrite.inside : BufWrite → Bool
  | .msgbuf a n => a + n ≤ MAX_RPC_MSG_SIZE
  | .sndSize n => n ≤ MAX_NS_LEN_SIZE + 1

/-- The connection was closed because of what the peer has sent. -/
def RemoveCause.ofStream : RemoveCause → Bool
  | .oversizeLength => true
  | .invalidCharacter => true
  | .badSize => true
  | .exceedsBuffer => true
  | .notTerminated => true
  | _ => false

/-- The comma behind a reply is inside the buffer. -/
def ProcessOutcome.fits : ProcessOutcome → Bool
  | .reply json => json.length ≠ MAX_RPC_MSG_SIZE
  | _ => true

namespace ReadOutcome

def isData : ReadOutcome → Bool
  | .data _ => true
  | _ => false

/-- `read` returns -1. -/
def isFailure : ReadOutcome → Bool
  | .again => true
  | .error => true
  | _ => false

end ReadOutcome

namespace JsonrpcNetstringsConnection

variable (s : JsonrpcNetstringsConnection)

/-- A message that was dispatched and not yet handed over. -/
def waiting : List (List Char) :=
  match s.mode with
  | .thread none => [s.message]
  | _ => []

/-- The messages handed over, and the one on its way, are the netstrings read so far, the connection
was not closed because of the stream, and the writes are inside the buffer. -/
structure MessagesOk (ps : List (List Char)) (s : JsonrpcNetstringsConnection) : Prop where
  handed : s.handed ++ s.waiting = received ps ((netstrings ps).length - s.unread.length)
  kept : ∀ cause, s.mode = .removed cause → cause.ofStream = false
  inside : ∀ w ∈ s.writes, w.inside = true

/-- If all bytes up to the colon of a length are read, then so are some behind it. -/
def BodyFollows (os : List ReadOutcome) : Prop :=
  let k := (s.unread.takeWhile (· ≠ ':')).length
  (∀ o ∈ os.take (k + 1), o.isData = true) → k < os.length →
    (os.getD (k + 1) .again).isFailure = false

/-- The condition on the steps. -/
def EvOk : ConnEv → Prop
  | .readable os => s.mode = .reading → s.inMsg = false → s.BodyFollows os
  | .sendMessage m => m.json.length ≠ MAX_RPC_MSG_SIZE ∧
      (s.mode = .reading → s.inMsg = false ∧ s.rcvdSize = 0)
  | .thread r _ => r.fits = true
  | .startReadLoop => True

instance (s : JsonrpcNetstringsConnection) (os : List ReadOutcome) : Decidable (s.BodyFollows os) :=
  inferInstanceAs (Decidable ((∀ o ∈ os.take _, _) → _ < _ → ReadOutcome.isFailure _ = false))

instance (s : JsonrpcNetstringsConnection) (ev : ConnEv) : Decidable (s.EvOk ev) :=
  match ev with
  | .readable os => inferInstanceAs (Decidable (_ → _ → s.BodyFollows os))
  | .sendMessage _ => inferInstanceAs (Decidable (_ ∧ (_ → _ ∧ _)))
  | .thread r _ => inferInstanceAs (Decidable (r.fits = true))
  | .startReadLoop => inferInstanceAs (Decidable True)

/-! ## One read -/

/-- What a `read` of at least one byte can do. -/
inductive ReadSpec (s : JsonrpcNetstringsConnection) (o : ReadOutcome) (a n : ℕ) :
    JsonrpcNetstringsConnection × ReadCount → Prop
  | hangup : ReadSpec s o a n (s, .bytes 0)
  | again : (s.unread ≠ [] → o.isFailure = true) → ReadSpec s o a n (s, .again)
  | error : o.isFailure = true → ReadSpec s o a n (s, .error)
  | data {x u : List Char} : o.isData = true → s.unread = x ++ u → x ≠ [] → x.length ≤ n →
      ReadSpec s o a n ({ s.write a x with unread := u }, .bytes x.length)

theorem read_spec (o : ReadOutcome) (a : ℕ) {n : ℕ} (hn : n ≠ 0) :
    ReadSpec s o a n (s.read o a n) := by
  cases o with
  | data k =>
    rw [read]
    rw [if_neg hn]
    split_ifs with hx
    · refine .again fun hne => absurd hx ?_
      rw [take_eq_nil_iff, not_or]
      exact ⟨by omega, hne⟩
    · have hsplit := prefix_iff_eq_append.1 (List.take_prefix (min (k + 1) n) s.unread)
      refine .data rfl hsplit.symm hx ?_
      rw [length_take]
      omega
  | again => exact .again fun _ => rfl
  | hangup => exact .hangup
  | error => exact .error rfl

/-! ## The state of a connection -/

variable (p : List Char) (rest : List (List Char)) (s : JsonrpcNetstringsConnection)

/-- The connection has read a part of a length. -/
structure LengthPart : Prop where
  bytes : readMem s.msgbuf 0 s.rcvdSize ++ s.unread = netstrings rest
  noColon : ':' ∉ readMem s.msgbuf 0 s.rcvdSize

/-- The connection has read a length and a part of the text `p`. -/
structure BodyPart : Prop where
  size : s.msgSize = p.length
  rcvd : s.rcvdSize ≤ p.length
  bytes : readMem s.msgbuf 0 s.rcvdSize ++ s.unread = p ++ ',' :: netstrings rest

/-- The connection has read the text `p` and its comma. -/
structure Dispatched : Prop where
  recv : s.msgRecv = true
  size : s.msgSize = p.length
  message : s.message = p
  unread : s.unread = netstrings rest

/-- The connection reads the netstrings `rest`. -/
structure Reading : Prop where
  recv : s.msgRecv = true
  lengthPart : s.inMsg = false → s.LengthPart rest
  bodyPart : s.inMsg = true → ∃ p ps, rest = p :: ps ∧ s.BodyPart p ps

/-- What is the same in all modes. -/
structure Base (ps rest : List (List Char)) (s : JsonrpcNetstringsConnection) : Prop where
  handed : ps = s.handed ++ rest
  pending : ∀ m ∈ s.pending, m.json.length ≠ MAX_RPC_MSG_SIZE
  inside : ∀ w ∈ s.writes, w.inside = true

/-- How far the connection is with the netstrings that were not handed over. -/
def Progress : Prop :=
  match s.mode with
  | .reading => s.Reading rest
  | .thread none => ∃ p ps, rest = p :: ps ∧ s.Dispatched p ps
  | .thread (some m) => s.unread = netstrings rest ∧ m.json.length ≠ MAX_RPC_MSG_SIZE
  | .returned => s.unread = netstrings rest
  | .removed cause => cause.ofStream = false ∧ Unfinished rest s.unread.length

def Inv (ps : List (List Char)) (s : JsonrpcNetstringsConnection) : Prop :=
  ∃ rest, s.Base ps rest ∧ s.Progress rest

/-- The result of `netstringsRead`. -/
structure ReadOk (ps rest : List (List Char)) (res : JsonrpcNetstringsConnection × ReadResult) :
    Prop where
  base : res.1.Base ps rest
  mode : res.1.mode = .reading
  result : match res.2 with
    | .CONTINUE => res.1.Reading rest
    | .REMOVE cause => cause.ofStream = false ∧ Unfinished rest res.1.unread.length
    | .DISPATCH => ∃ p ps, rest = p :: ps ∧ res.1.Dispatched p ps

variable {s t : JsonrpcNetstringsConnection} {ps rest : List (List Char)} {p : List Char}

theorem Base.congr (h : s.Base ps rest) (hhanded : t.handed = s.handed)
    (hpending : t.pending = s.pending) (hwrites : t.writes = s.writes) : t.Base ps rest :=
  ⟨hhanded ▸ h.handed, hpending ▸ h.pending, hwrites ▸ h.inside⟩

theorem Base.write (h : s.Base ps rest) {a : ℕ} {bytes : List Char}
    (hin : a + bytes.length ≤ MAX_RPC_MSG_SIZE) : (s.write a bytes).Base ps rest := by
  refine ⟨h.handed, h.pending, fun w hw => ?_⟩
  rcases mem_append.1 hw with hw | hw
  · exact h.inside w hw
  · rw [mem_singleton.1 hw]
    exact decide_eq_true hin

theorem LengthPart.unfinished (h : s.LengthPart rest) : Unfinished rest s.unread.length := by
  have hlen := congrArg List.length h.bytes
  rw [length_append] at hlen
  refine ⟨by omega, ?_⟩
  rintro p ps rfl
  have hdigits := length_le_of_netstrings h.noColon h.bytes
  rw [length_netstrings_cons, length_netstring] at hlen
  omega

theorem BodyPart.unfinished (h : s.BodyPart p rest) : Unfinished (p :: rest) s.unread.length := by
  have hlen := congrArg List.length h.bytes
  have hrcvd := h.rcvd
  rw [length_append, length_append, length_readMem, length_cons] at hlen
  refine ⟨?_, ?_⟩
  · rw [length_netstrings_cons, length_netstring]
    omega
  · rintro p' ps' heq
    obtain ⟨rfl, rfl⟩ := List.cons.inj heq
    omega

/-! ## Reading a text -/

variable {u : List Char}

/-- The text is complete. -/
theorem dispatched_of_complete (hrecv : s.msgRecv = true) (hsize : s.msgSize = p.length)
    (hbytes : readMem s.msgbuf 0 (p.length + 1) ++ s.unread = p ++ ',' :: netstrings rest) :
    s.checkComma = .DISPATCH ∧ s.Dispatched p rest := by
  rw [readMem_concat, append_assoc, Nat.zero_add] at hbytes
  obtain ⟨hp, htail⟩ := append_inj hbytes (length_readMem s.msgbuf 0 p.length)
  obtain ⟨hcomma, hu⟩ := List.cons.inj htail
  have hcheck : s.msgbuf s.msgSize = ',' := by rwa [hsize]
  have hmessage : s.message = p := by rwa [message, hsize]
  exact ⟨if_pos hcheck, hrecv, hsize, hmessage, hu⟩

/-- A write behind the text. -/
theorem Dispatched.write (h : s.Dispatched p rest) (bytes : List Char) :
    (s.write (s.msgSize + 1) bytes).Dispatched p rest := by
  have hmessage : (s.write (s.msgSize + 1) bytes).message = s.message :=
    readMem_congr fun b _ (hb : b < 0 + s.msgSize) => writeMem_of_lt (by omega)
  exact ⟨h.recv, h.size, hmessage.trans h.message, h.unread⟩

theorem reading_of_bodyPart (hrecv : s.msgRecv = true) (hin : s.inMsg = true)
    (h : s.BodyPart p rest) : s.Reading (p :: rest) where
  recv := hrecv
  lengthPart hnot := absurd (hin.symm.trans hnot) (by decide)
  bodyPart _ := ⟨p, rest, rfl, h⟩

/-- The connection reads the text `p`. -/
structure InBody (ps : List (List Char)) (p : List Char) (rest : List (List Char))
    (s : JsonrpcNetstringsConnection) : Prop where
  base : s.Base ps (p :: rest)
  mode : s.mode = .reading
  recv : s.msgRecv = true
  inMsg : s.inMsg = true
  size : s.msgSize = p.length

theorem length_lt_of_fits (hfits : p.length ≤ MAX_RPC_MSG_SIZE - 2) :
    p.length + 2 ≤ MAX_RPC_MSG_SIZE ∧ p.length + 2 < 2 ^ 32 := by
  have hmax : MAX_RPC_MSG_SIZE = 20971520 := rfl
  omega

section Received

variable (h : s.InBody ps p rest) (hrcvd : s.rcvdSize ≤ p.length + 1)
  (hbytes : readMem s.msgbuf 0 s.rcvdSize ++ s.unread = p ++ ',' :: netstrings rest)
include h hrcvd hbytes

/-- The rest of the text is yet to come. -/
theorem InBody.readOk (hpart : s.rcvdSize ≠ p.length + 1) : ReadOk ps (p :: rest) (s, .CONTINUE) :=
  ⟨h.base, h.mode, reading_of_bodyPart h.recv h.inMsg
    ⟨h.size, Nat.le_of_lt_succ (Nat.lt_of_le_of_ne hrcvd hpart), hbytes⟩⟩

theorem checkBody_ok : ReadOk ps (p :: rest) s.checkBody := by
  rw [checkBody, h.size]
  split_ifs with hall
  · rw [hall] at hbytes
    obtain ⟨hcheck, hdisp⟩ := dispatched_of_complete h.recv h.size hbytes
    rw [hcheck]
    exact ⟨h.base, h.mode, p, rest, rfl, hdisp⟩
  · exact h.readOk hrcvd hbytes hall

theorem firstBody_ok (hfits : p.length ≤ MAX_RPC_MSG_SIZE - 2) (hpos : s.rcvdSize ≠ 0) :
    ReadOk ps (p :: rest) s.firstBody := by
  rw [firstBody, h.size]
  split_ifs with hall
  · rw [hall] at hbytes
    obtain ⟨hcheck, hdisp⟩ := dispatched_of_complete h.recv h.size hbytes
    have hend := (length_lt_of_fits hfits).1
    rw [hcheck, ← h.size]
    exact ⟨h.base.write (h.size ▸ hend), h.mode, p, rest, rfl, hdisp.write _⟩
  · exact h.readOk hrcvd hbytes hall

end Received

section Fits

variable (hfits : p.length ≤ MAX_RPC_MSG_SIZE - 2)
include hfits

theorem readBody_ok (h : s.InBody ps p rest) (hunread : s.unread = p ++ ',' :: netstrings rest)
    {o : ReadOutcome} (ho : o.isFailure = false) : ReadOk ps (p :: rest) (s.readBody o) := by
  obtain ⟨hmax, hword⟩ := length_lt_of_fits hfits
  have hsize := h.size
  rw [readBody]
  have hspec := s.read_spec o 0 (Nat.succ_ne_zero s.msgSize)
  generalize s.read o 0 (s.msgSize + 1) = res at hspec
  cases hspec with
  | hangup =>
    have hstart : BodyPart p rest { s with rcvdSize := 0 } := ⟨hsize, Nat.zero_le _, hunread⟩
    exact ⟨h.base.congr rfl rfl rfl, h.mode, rfl, hstart.unfinished⟩
  | again hagain =>
    have hne : s.unread ≠ [] := by
      rw [hunread]
      exact append_ne_nil_of_right_ne_nil p (cons_ne_nil _ _)
    exact absurd (ho.symm.trans (hagain hne)) (by decide)
  | error herror => exact absurd (ho.symm.trans herror) (by decide)
  | @data x u _ hx hne hlen =>
    have hpos := length_pos_of_ne_nil hne
    have hmod : x.length % 2 ^ 32 = x.length := Nat.mod_eq_of_lt (by omega)
    have hbase' : (s.write 0 x).Base ps (p :: rest) := h.base.write (by omega)
    refine firstBody_ok (s := { s.write 0 x with
      unread := u, rcvdSize := x.length % 2 ^ 32 })
      ⟨hbase'.congr rfl rfl rfl, h.mode, h.recv, h.inMsg, hsize⟩ ?_ ?_ hfits ?_
    · show x.length % 2 ^ 32 ≤ p.length + 1
      omega
    · show readMem (writeMem s.msgbuf 0 x) 0 (x.length % 2 ^ 32) ++ u = _
      rw [hmod, readMem_writeMem, ← hx, hunread]
    · show x.length % 2 ^ 32 ≠ 0
      omega

theorem readMessage_ok (h : s.InBody ps p rest) (hpart : s.BodyPart p rest) {o : ReadOutcome} :
    ReadOk ps (p :: rest) (s.readMessage o) := by
  obtain ⟨hmax, hword⟩ := length_lt_of_fits hfits
  have hrcvd := hpart.rcvd
  have hcount : (s.msgSize + 2 ^ 32 - s.rcvdSize + 1) % 2 ^ 32 = p.length - s.rcvdSize + 1 := by
    rw [h.size]
    omega
  rw [readMessage, hcount]
  have hspec := s.read_spec o s.rcvdSize (Nat.succ_ne_zero (p.length - s.rcvdSize))
  generalize s.read o s.rcvdSize (p.length - s.rcvdSize + 1) = res at hspec
  cases hspec with
  | hangup => exact ⟨h.base, h.mode, rfl, hpart.unfinished⟩
  | again => exact ⟨h.base, h.mode, reading_of_bodyPart h.recv h.inMsg hpart⟩
  | error => exact ⟨h.base, h.mode, rfl, hpart.unfinished⟩
  | @data x u _ hx hne hlen =>
    have hbytes : readMem (s.write s.rcvdSize x).msgbuf 0 (s.rcvdSize + x.length) ++ u =
        p ++ ',' :: netstrings rest := by
      rw [write, readMem_writeMem_append, append_assoc, ← hx]
      exact hpart.bytes
    have hbase' : (s.write s.rcvdSize x).Base ps (p :: rest) := h.base.write (by omega)
    have hsum : (s.rcvdSize + x.length) % 2 ^ 32 = s.rcvdSize + x.length :=
      Nat.mod_eq_of_lt (by omega)
    obtain ⟨c, x, rfl⟩ := exists_cons_of_ne_nil hne
    refine checkBody_ok (s := { s.write s.rcvdSize (c :: x) with
      unread := u, rcvdSize := (s.rcvdSize + (c :: x).length) % 2 ^ 32 })
      ⟨hbase'.congr rfl rfl rfl, h.mode, h.recv, h.inMsg, h.size⟩ ?_ ?_
    · show (s.rcvdSize + (c :: x).length) % 2 ^ 32 ≤ p.length + 1
      omega
    · rw [hsum]
      exact hbytes

/-! ## Reading a length -/

theorem endLength_ok (hbase : s.Base ps (p :: rest)) (hmode : s.mode = .reading)
    (hrecv : s.msgRecv = true) (hdigits : readMem s.msgbuf 0 s.rcvdSize = Nat.toDigits 10 p.length)
    (hrcvd : s.rcvdSize ≤ MAX_NS_LEN_SIZE) (hunread : s.unread = p ++ ',' :: netstrings rest)
    {o : ReadOutcome} (ho : o.isFailure = false) : ReadOk ps (p :: rest) (s.endLength o) := by
  obtain ⟨hmax, hword⟩ := length_lt_of_fits hfits
  have hin : s.rcvdSize + ['\x00'].length ≤ MAX_RPC_MSG_SIZE :=
    (Nat.add_le_add_right hrcvd 1).trans (by decide)
  have hkeep : readMem (s.write s.rcvdSize ['\x00']).msgbuf 0 s.rcvdSize =
      Nat.toDigits 10 p.length := by
    rw [← hdigits]
    exact readMem_congr fun b _ hb => writeMem_of_lt (by omega)
  have hsize : str2i (Nat.toDigits 10 p.length) = some p.length := by
    have h := str2i_toDigits (Nat.lt_of_add_right_lt hword) endsNumber_nil
    rwa [append_nil] at h
  have hrun : s.endLength o = readBody { s.write s.rcvdSize ['\x00'] with
      msgSize := p.length, inMsg := true } o := by
    rw [endLength]
    rw [show (s.write s.rcvdSize ['\x00']).rcvdSize = s.rcvdSize from rfl, hkeep, hsize]
    exact if_neg (Nat.not_lt.2 hfits)
  rw [hrun]
  have hbase' := hbase.write hin
  exact readBody_ok hfits (s := { s.write s.rcvdSize ['\x00'] with
    msgSize := p.length, inMsg := true }) ⟨hbase'.congr rfl rfl rfl, hmode, hrecv, rfl, rfl⟩
    hunread ho

end Fits

theorem LengthPart.rcvdSize_le (hfits : ∀ p ∈ rest, p.length ≤ MAX_RPC_MSG_SIZE - 2)
    (h : s.LengthPart rest) : s.rcvdSize ≤ MAX_NS_LEN_SIZE := by
  cases rest with
  | nil =>
    have hlen := congrArg List.length h.bytes
    rw [length_append, length_readMem, netstrings_nil, length_nil] at hlen
    omega
  | cons p ps =>
    have hle := length_le_of_netstrings h.noColon h.bytes
    have hmax : p.length < 10 ^ 10 :=
      (Nat.lt_of_le_of_lt (hfits p mem_cons_self) (by decide))
    have hdigits : (Nat.toDigits 10 p.length).length ≤ 10 :=
      (Nat.length_toDigits_le_iff (by decide) (by decide)).2 hmax
    rw [length_readMem] at hle
    exact hle.trans hdigits

variable {os : List ReadOutcome}

/-- The colon is read. -/
theorem BodyFollows.headD {o : ReadOutcome} (h : s.BodyFollows (o :: os)) (hdata : o.isData = true)
    (hunread : s.unread = ':' :: u) :
    (os.headD .again).isFailure = false := by
  have hk : (s.unread.takeWhile (· ≠ ':')).length = 0 := by
    rw [hunread]
    rfl
  rw [BodyFollows, hk] at h
  have hget := h (by simpa using hdata) (Nat.zero_lt_succ _)
  rwa [getD_cons_succ, ← headD_eq_getD] at hget

/-- A digit is read. -/
theorem BodyFollows.tail {o : ReadOutcome} {c : Char} (h : s.BodyFollows (o :: os))
    (hdata : o.isData = true) (hc : c ≠ ':') (hunread : s.unread = c :: t.unread) :
    t.BodyFollows os := by
  have hk : (s.unread.takeWhile (· ≠ ':')).length = (t.unread.takeWhile (· ≠ ':')).length + 1 := by
    rw [hunread, takeWhile_cons, if_pos (decide_eq_true hc), length_cons]
  rw [BodyFollows, hk] at h
  intro hall hlt
  have hget := h (by exact forall_mem_cons.2 ⟨hdata, hall⟩) (Nat.succ_lt_succ hlt)
  rwa [getD_cons_succ] at hget

/-- A digit of a length was read. -/
theorem LengthPart.digit {c : Char} (h : s.LengthPart rest) (hc : c ≠ ':')
    (hunread : s.unread = c :: u) :
    LengthPart rest { s.write s.rcvdSize [c] with unread := u, rcvdSize := s.rcvdSize + 1 } := by
  have hmem : readMem (s.write s.rcvdSize [c]).msgbuf 0 (s.rcvdSize + 1) =
      readMem s.msgbuf 0 s.rcvdSize ++ [c] :=
    readMem_writeMem_append
  refine ⟨?_, ?_⟩
  · rw [hmem, append_assoc, singleton_append, ← hunread]
    exact h.bytes
  · rw [hmem, mem_append, mem_singleton, not_or]
    exact ⟨h.noColon, hc.symm⟩

theorem readLength_ok (hfits : ∀ p ∈ rest, p.length ≤ MAX_RPC_MSG_SIZE - 2) :
    ∀ {os : List ReadOutcome} {s : JsonrpcNetstringsConnection}, s.Base ps rest →
      s.mode = .reading → s.msgRecv = true → s.inMsg = false → s.LengthPart rest →
        s.BodyFollows os → ReadOk ps rest (readLength os s)
  | [], s, hbase, hmode, hrecv, hin, h, _ => by
    rw [readLength, if_neg (Nat.not_lt.2 (h.rcvdSize_le hfits))]
    exact ⟨hbase, hmode, hrecv, fun _ => h, fun ht => absurd (hin.symm.trans ht) (by decide)⟩
  | o :: os, s, hbase, hmode, hrecv, hin, h, hfollows => by
    have hle := h.rcvdSize_le hfits
    have hkeep : s.Reading rest :=
      ⟨hrecv, fun _ => h, fun ht => absurd (hin.symm.trans ht) (by decide)⟩
    rw [readLength, if_neg (Nat.not_lt.2 hle)]
    have hspec := s.read_spec o s.rcvdSize Nat.one_ne_zero
    generalize s.read o s.rcvdSize 1 = res at hspec
    cases hspec with
    | hangup => exact ⟨hbase, hmode, rfl, h.unfinished⟩
    | again => exact ⟨hbase, hmode, hkeep⟩
    | error => exact ⟨hbase, hmode, rfl, h.unfinished⟩
    | @data x u hdata hx hne hlen =>
      obtain ⟨c, rfl⟩ := length_eq_one_iff.1 (Nat.le_antisymm hlen (length_pos_of_ne_nil hne))
      have hbytes := h.bytes
      rw [hx] at hbytes
      obtain ⟨p, tail, hrest⟩ : ∃ p tail, rest = p :: tail := by
        refine exists_cons_of_ne_nil fun hnil => ?_
        rw [hnil] at hbytes
        exact absurd hbytes (append_ne_nil_of_right_ne_nil _ (cons_ne_nil c u))
      have hlast : (s.write s.rcvdSize [c]).msgbuf s.rcvdSize = c := by
        simp [write, writeMem]
      have hbase' : (s.write s.rcvdSize [c]).Base ps rest :=
        hbase.write ((Nat.add_le_add_right hle 1).trans (by decide))
      show ReadOk ps rest
        (if (s.write s.rcvdSize [c]).msgbuf s.rcvdSize = ':' then _
          else if isDigit ((s.write s.rcvdSize [c]).msgbuf s.rcvdSize) = false then _ else _)
      rw [hlast]
      rw [hrest] at hbytes
      rcases netstrings_length_cases h.noColon hbytes with ⟨rfl, hdigits, hu⟩ | ⟨hc, hdigit⟩
      · subst hrest
        have hkept : readMem (s.write s.rcvdSize [':']).msgbuf 0 s.rcvdSize =
            readMem s.msgbuf 0 s.rcvdSize :=
          readMem_congr fun b _ hb => writeMem_of_lt (by omega)
        exact endLength_ok (s := { s.write s.rcvdSize [':'] with unread := u })
          (hfits p mem_cons_self) (hbase'.congr rfl rfl rfl) hmode hrecv
          (hkept.trans hdigits) hle hu (hfollows.headD hdata hx)
      · rw [if_neg hc, if_neg (by rw [isDigit_eq, hdigit]; decide)]
        exact readLength_ok hfits (hbase'.congr rfl rfl rfl) hmode hrecv hin (h.digit hc hx)
          (hfollows.tail hdata hc hx)

theorem netstringsRead_ok (hfits : ∀ p ∈ rest, p.length ≤ MAX_RPC_MSG_SIZE - 2)
    (hbase : s.Base ps rest) (hmode : s.mode = .reading) (h : s.Reading rest)
    (hfollows : s.inMsg = false → s.BodyFollows os) :
    ReadOk ps rest (s.netstringsRead os) := by
  rw [netstringsRead]
  split_ifs with hin
  · obtain ⟨p, tail, rfl, hbody⟩ := h.bodyPart hin
    exact readMessage_ok (hfits p mem_cons_self) ⟨hbase, hmode, h.recv, hin, hbody.size⟩ hbody
  · have hin := Bool.eq_false_of_not_eq_true hin
    exact readLength_ok hfits hbase hmode h.recv hin (h.lengthPart hin) (hfollows hin)

/-! ## The steps -/

/-- The netstrings that were not handed over fit into the buffer. -/
theorem Base.fits (h : s.Base ps rest) (hps : ∀ p ∈ ps, p ≠ [] ∧ p.length ≤ MAX_RPC_MSG_SIZE - 2) :
    ∀ p ∈ rest, p ≠ [] ∧ p.length ≤ MAX_RPC_MSG_SIZE - 2 := by
  intro p hp
  refine hps p ?_
  rw [h.handed]
  exact mem_append_right _ hp

theorem readCb_inv (hps : ∀ p ∈ ps, p ≠ [] ∧ p.length ≤ MAX_RPC_MSG_SIZE - 2) (h : s.Inv ps)
    (hok : s.EvOk (.readable os)) : (s.readCb os).Inv ps := by
  obtain ⟨rest, hbase, hprogress⟩ := h
  rw [readCb]
  split_ifs with hmode
  · rw [Progress, hmode] at hprogress
    have hres := netstringsRead_ok (fun p hp => (hbase.fits hps p hp).2) hbase hmode hprogress
      (hok hmode)
    generalize s.netstringsRead os = res at hres
    obtain ⟨t, r⟩ := res
    obtain ⟨hbase, hmode, hr⟩ := hres
    refine ⟨rest, ?_⟩
    cases r with
    | CONTINUE =>
      refine ⟨hbase, ?_⟩
      rw [Progress, show t.mode = .reading from hmode]
      exact hr
    | REMOVE cause => exact ⟨hbase.congr rfl rfl rfl, hr⟩
    | DISPATCH =>
      obtain ⟨p, tail, hrest, hd⟩ := hr
      exact ⟨hbase.congr rfl rfl rfl, p, tail, hrest, hd.recv, hd.size, hd.message, hd.unread⟩
  · exact ⟨rest, hbase, hprogress⟩

/-- The connection is between two netstrings. -/
structure Between (ps rest : List (List Char)) (s : JsonrpcNetstringsConnection) : Prop extends
    Base ps rest s where
  unread : s.unread = netstrings rest

variable (h : s.Between ps rest)

include h

/-- The first pending message can be sent. -/
theorem dispatchPending_inv {next : JsonrpcNetstringsConnection → JsonrpcNetstringsConnection}
    (hnext : (next s).Inv ps) :
    (s.dispatchPending next).Inv ps := by
  rw [dispatchPending]
  cases hpending : s.pending with
  | nil => exact hnext
  | cons m tail =>
    have hall := h.pending
    rw [hpending, forall_mem_cons] at hall
    exact ⟨rest, ⟨h.handed, hall.2, h.inside⟩, h.unread, hall.1⟩

theorem returnConnection_inv : s.returnConnection.Inv ps :=
  dispatchPending_inv h ⟨rest, { h.toBase with }, h.unread⟩

omit h in
theorem processStartReadLoop_inv (h : s.Inv ps) : s.processStartReadLoop.Inv ps := by
  rw [processStartReadLoop]
  split_ifs with hmode
  · obtain ⟨rest, hbase, hunread⟩ := h
    rw [Progress, hmode] at hunread
    refine dispatchPending_inv ⟨hbase, hunread⟩ ⟨rest, { hbase with }, rfl, fun _ => ?_, nofun⟩
    exact ⟨hunread, not_mem_nil⟩
  · exact h

omit h in
theorem processSendMessage_inv (h : s.Inv ps) {m : SendMessage} (hok : s.EvOk (.sendMessage m)) :
    (s.processSendMessage m).Inv ps := by
  have hsame := h
  obtain ⟨rest, hbase, hprogress⟩ := h
  have hqueue : Base ps rest { s with pending := s.pending ++ [m] } := by
    refine ⟨hbase.handed, ?_, hbase.inside⟩
    rw [forall_mem_append, forall_mem_singleton]
    exact ⟨hbase.pending, hok.1⟩
  rw [processSendMessage]
  rw [Progress] at hprogress
  cases hmode : s.mode with rw [hmode] at hprogress
  | reading =>
    obtain ⟨hin, hrcvd⟩ := hok.2 hmode
    have hbytes := (hprogress.lengthPart hin).bytes
    rw [hrcvd] at hbytes
    exact ⟨rest, { hbase with }, hbytes, hok.1⟩
  | thread ev =>
    cases ev with
    | none =>
      obtain ⟨p, tail, hrest, hd⟩ := hprogress
      exact ⟨rest, { hqueue with }, p, tail, hrest, hd.recv, hd.size, hd.message, hd.unread⟩
    | some m' => exact ⟨rest, { hqueue with }, hprogress⟩
  | returned => exact ⟨rest, { hqueue with }, hprogress⟩
  | removed cause => exact hsame

/-- A connection that is closed between two netstrings. -/
theorem remove_inv {cause : RemoveCause} (hcause : cause.ofStream = false) :
    (s.remove cause).Inv ps := by
  refine ⟨rest, { h.toBase with }, hcause, ?_⟩
  show Unfinished rest s.unread.length
  rw [h.unread]
  exact unfinished_netstrings

theorem finishProcess_inv {processed : Bool} : (s.finishProcess processed).Inv ps := by
  rw [finishProcess]
  split_ifs
  · exact remove_inv h rfl
  · exact returnConnection_inv h

theorem netstringsBlockingWrite_spec (hsize : s.msgSize < MAX_RPC_MSG_SIZE) (sent : Bool) :
    (s.netstringsBlockingWrite sent).1.Between ps rest := by
  rw [netstringsBlockingWrite]
  split_ifs with hdigits hsent
  · exact h
  all_goals
    have hnote : Base ps rest { s with
        writes := s.writes ++ [.sndSize ((Nat.toDigits 10 s.msgSize).length + 1)] } := by
      refine ⟨h.handed, h.pending, ?_⟩
      rw [forall_mem_append, forall_mem_singleton]
      exact ⟨h.inside, decide_eq_true (Nat.succ_le_succ (Nat.not_lt.1 hdigits))⟩
    exact ⟨(hnote.write hsize).congr rfl rfl rfl, h.unread⟩

theorem sendPending_inv (hsize : s.msgSize < MAX_RPC_MSG_SIZE) (processed sent : Bool) :
    (s.sendPending processed sent).Inv ps := by
  rw [sendPending]
  split_ifs
  · have hwrite := netstringsBlockingWrite_spec h hsize sent
    generalize s.netstringsBlockingWrite sent = res at hwrite
    obtain ⟨t, ok⟩ := res
    cases ok with
    | true => exact finishProcess_inv hwrite
    | false => exact remove_inv hwrite rfl
  · exact finishProcess_inv h

/-- What `setMessage` leaves, if the text does not fill the buffer. -/
theorem setMessage_spec {json : List Char} (hne : json.length ≠ MAX_RPC_MSG_SIZE)
    (ht : s.setMessage json = some t) :
    t.Between ps rest ∧ t.msgSize < MAX_RPC_MSG_SIZE := by
  rw [setMessage] at ht
  split_ifs at ht with hlong
  have hle := Nat.not_lt.1 hlong
  rw [← Option.some.inj ht]
  exact ⟨⟨(h.toBase.write ((Nat.zero_add _).trans_le hle)).congr rfl rfl rfl, h.unread⟩,
    Nat.lt_of_le_of_ne hle hne⟩

variable {r : ProcessOutcome}

omit h in
/-- What `processMessage` leaves of a message that was dispatched. -/
theorem processMessage_spec (hbase : s.Base ps (p :: rest)) (h : s.Dispatched p rest)
    (hok : s.EvOk (.thread r true)) :
    (s.processMessage r).1.Between ps rest ∧
      ((s.processMessage r).2 = true → (s.processMessage r).1.msgSize < MAX_RPC_MSG_SIZE) := by
  have hnext : Base ps rest { s with handed := s.handed ++ [s.message] } := by
    refine ⟨?_, hbase.pending, hbase.inside⟩
    rw [h.message, append_assoc]
    exact hbase.handed
  cases r with
  | error => exact ⟨⟨hnext, h.unread⟩, nofun⟩
  | noReply =>
    exact ⟨⟨hnext.congr rfl rfl rfl, h.unread⟩, fun _ => (by decide : 0 < MAX_RPC_MSG_SIZE)⟩
  | reply json =>
    rw [processMessage]
    cases hset : setMessage { s with handed := s.handed ++ [s.message] } json with
    | none => exact ⟨⟨hnext, h.unread⟩, nofun⟩
    | some t =>
      obtain ⟨ht, hsize⟩ := setMessage_spec ⟨hnext, h.unread⟩ (of_decide_eq_true hok) hset
      exact ⟨ht, fun _ => hsize⟩

variable (hps : ∀ p ∈ ps, p ≠ [] ∧ p.length ≤ MAX_RPC_MSG_SIZE - 2)

include hps

variable {sent : Bool}

omit h in
theorem process_received (hbase : s.Base ps (p :: rest)) (h : s.Dispatched p rest)
    (hok : s.EvOk (.thread r true)) : (s.processPending r sent).Inv
    ps := by
  have hpending : (s.messagePending && s.msgRecv) = true := by
    have hne := ((hbase.fits hps) p mem_cons_self).1
    rw [h.recv, Bool.and_true, messagePending, h.size]
    exact decide_eq_true fun hzero => hne (length_eq_zero_iff.1 hzero)
  rw [processPending, if_pos hpending]
  have hspec := processMessage_spec hbase h hok
  generalize s.processMessage r = res at hspec
  obtain ⟨t, ok⟩ := res
  obtain ⟨ht, hsize⟩ := hspec
  cases ok with
  | true =>
    exact sendPending_inv (s := { t with msgRecv := false })
      ⟨ht.toBase.congr rfl rfl rfl, ht.unread⟩ (hsize rfl) true sent
  | false => exact remove_inv ht rfl

omit hps in
theorem process_send {m : SendMessage} (hne : m.json.length ≠ MAX_RPC_MSG_SIZE)
    (hmode : s.mode = .thread (some m)) : (s.process r sent).Inv
    ps := by
  rw [process, hmode]
  dsimp only
  have hspec : ∀ t, (if m.isReply then s.createReply m.json else s.createRequest m.json) = some t →
      t.Between ps rest ∧ t.msgSize < MAX_RPC_MSG_SIZE := by
    intro t ht
    split_ifs at ht
    · exact setMessage_spec h hne ht
    · obtain ⟨t, hset, rfl⟩ := Option.map_eq_some_iff.1 ht
      obtain ⟨ht, hsize⟩ := setMessage_spec h hne hset
      exact ⟨⟨ht.toBase.congr rfl rfl rfl, ht.unread⟩, hsize⟩
  generalize (if m.isReply then s.createReply m.json else s.createRequest m.json) = res at hspec
  cases res with
  | none => exact returnConnection_inv h
  | some t =>
    obtain ⟨ht, hsize⟩ := hspec t rfl
    have hnot : ¬ (({ t with msgRecv := false } : JsonrpcNetstringsConnection).messagePending &&
        false) = true := by
      rw [Bool.and_false]
      exact Bool.false_ne_true
    show (processPending { t with msgRecv := false } r sent).Inv ps
    rw [processPending, if_neg hnot]
    exact sendPending_inv (s := { t with msgRecv := false })
      ⟨ht.toBase.congr rfl rfl rfl, ht.unread⟩ hsize false sent

omit h

theorem process_inv (h : s.Inv ps) (hok : s.EvOk (.thread r sent)) : (s.process r sent).Inv ps := by
  have hsame := h
  obtain ⟨rest, hbase, hprogress⟩ := h
  rw [Progress] at hprogress
  cases hmode : s.mode with
  | reading => rwa [process, hmode]
  | thread ev =>
    rw [hmode] at hprogress
    cases ev with
    | none =>
      obtain ⟨p, tail, rfl, hd⟩ := hprogress
      rw [process, hmode]
      exact process_received hps hbase hd hok
    | some m => exact process_send ⟨hbase, hprogress.1⟩ hprogress.2 hmode
  | returned | removed cause => rwa [process, hmode]

theorem step_inv {ev : ConnEv} (h : s.Inv ps) (hok : s.EvOk ev) : (s.step ev).Inv ps := by
  cases ev with
  | readable os => exact readCb_inv hps h hok
  | sendMessage m => exact processSendMessage_inv h hok
  | thread r sent => exact process_inv hps h hok
  | startReadLoop => exact processStartReadLoop_inv h

omit hps

/-! ## Runs -/

theorem init_inv {closeAlways : Bool} {mem : Mem}
    {first : Option SendMessage} (hfirst : ∀ m ∈ first, m.json.length ≠ MAX_RPC_MSG_SIZE) :
    (init closeAlways mem (netstrings ps) first).Inv ps := by
  refine ⟨ps, ⟨rfl, nofun, nofun⟩, ?_⟩
  cases first with
  | none => exact ⟨rfl, fun _ => ⟨rfl, not_mem_nil⟩, nofun⟩
  | some m => exact ⟨rfl, hfirst m rfl⟩

theorem Progress.unfinished (h : s.Progress rest) (hmode : s.mode ≠ .thread none) :
    Unfinished rest s.unread.length := by
  have hboundary (hunread : s.unread = netstrings rest) : Unfinished rest s.unread.length := by
    rw [hunread]
    exact unfinished_netstrings
  rw [Progress] at h
  cases hm : s.mode with rw [hm] at h
  | reading =>
    cases hin : s.inMsg with
    | false => exact (h.lengthPart hin).unfinished
    | true =>
      obtain ⟨p, tail, rfl, hbody⟩ := h.bodyPart hin
      exact hbody.unfinished
  | thread ev =>
    cases ev with
    | none => exact absurd hm hmode
    | some m => exact hboundary h.1
  | returned => exact hboundary h
  | removed cause => exact h.2

theorem Inv.messagesOk (h : s.Inv ps) : s.MessagesOk ps := by
  obtain ⟨rest, hbase, hprogress⟩ := h
  refine ⟨?_, ?_, hbase.inside⟩
  · by_cases hmode : s.mode = .thread none
    · rw [Progress, hmode] at hprogress
      obtain ⟨p, tail, rfl, hd⟩ := hprogress
      have hps : ps = (s.handed ++ [p]) ++ tail := by
        rw [append_assoc]
        exact hbase.handed
      have hwaiting : s.waiting = [p] := by rw [waiting, hmode, ← hd.message]
      rw [hwaiting, hd.unread, hps, received_append unfinished_netstrings]
    · have hwaiting : s.waiting = [] := by
        rw [waiting]
        split
        · exact absurd ‹_› hmode
        · rfl
      rw [hwaiting, append_nil, hbase.handed, received_append (hprogress.unfinished hmode)]
  · intro cause hmode
    rw [Progress, hmode] at hprogress
    exact hprogress.1

/-- In every run whose steps meet the condition, the messages of the stream are handed over. -/
theorem messagesOk_runs (closeAlways : Bool) (mem : Mem) {ps : List (List Char)}
    (hps : ∀ p ∈ ps, p ≠ [] ∧ p.length ≤ MAX_RPC_MSG_SIZE - 2) {first : Option SendMessage}
    (hfirst : ∀ m ∈ first, m.json.length ≠ MAX_RPC_MSG_SIZE) {evs : List ConnEv}
    (hok : RunOk step EvOk (init closeAlways mem (netstrings ps) first) evs) :
    MessagesOk ps (runFrom step (init closeAlways mem (netstrings ps) first) evs) :=
  Inv.messagesOk (hok.inv (step_inv hps) (init_inv hfirst))

/-- A message that arrives in three reads, one that is sent afterwards, and another that
arrives. -/
def twoMessages : List ConnEv :=
  [.readable [.data 0, .data 0, .data 1], .readable [.data 0], .readable [.data 7],
    .thread (.reply "ok".toList) true, .startReadLoop, .sendMessage ⟨false, "hi".toList⟩,
    .thread .noReply true, .startReadLoop, .readable [.data 0, .data 0, .data 7],
    .thread .noReply true, .startReadLoop]

theorem messagesOk_runs_two :
    let s := runFrom step (init false (fun _ => ' ') (netstrings ["hello".toList, "bye".toList])
      none) twoMessages
    MessagesOk ["hello".toList, "bye".toList] s ∧ s.handed = ["hello".toList, "bye".toList] := by
  have hok : RunOk step EvOk (init false (fun _ => ' ')
      (netstrings ["hello".toList, "bye".toList]) none) twoMessages := by
    decide +kernel
  exact ⟨messagesOk_runs false (fun _ => ' ') (by decide) (by decide) hok, by decide +kernel⟩

/-- A `read` without bytes after the colon of a length, and the bytes after it. -/
theorem run_againAfterColon :
    ¬ MessagesOk ["hello".toList] (runFrom step (init false (fun _ => ' ')
      (netstrings ["hello".toList]) none)
        [.readable [.data 0, .data 0, .again], .readable [.data 7]]) := by
  intro h
  exact absurd (h.inside (.msgbuf 4294967295 6) (by decide +kernel)) (by decide)

end JsonrpcNetstringsConnection

end Sems
