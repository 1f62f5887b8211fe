import Sems.SipMsg

/-!
# Reliable provisional replies

`Am100rel` (`core/Am100rel.cpp`) numbers the reliable provisional replies a UAS sends, and
holds back what may not be sent before a PRACK. `rseq` is the last number used, 0 before the
first one, and `rseqConfirmed` says that the last one was acknowledged. `onReplyOut` may refuse a
reply by an exception.
-/

namespace Sems

inductive Rel100State where
  | disabled
  | supported
  | require
  | ignored
  deriving DecidableEq

/-- Status of a dialog. -/
inductive DlgStatus where
  | Disconnected
  | Trying
  | Proceeding
  | Cancelling
  | Early
  | Connected
  | Disconnecting
  deriving DecidableEq

structure Am100rel where
  reliable1xx : Rel100State
  rseq : BitVec 32
  rseqConfirmed : Bool
  rseq1st : BitVec 32
  rseqLast : BitVec 32
  deriving DecidableEq

/-- An error reply sent outside of a dialog's transactions. -/
structure ErrorReply where
  code : ℕ
  reason : Str
  hdrs : Str
  deriving DecidableEq

/-- `AmSession::Exception`. -/
structure SessionException where
  code : ℕ
  reason : Str
  deriving DecidableEq

/-- What `onReplyIn` tells the dialog and its handler. -/
inductive Rel100Action where
  | none
  | byeOnFailure
  | onInvite1xxRel
  | onPrack2xx
  deriving DecidableEq

/-- The header lists the extension. -/
def lists100rel (hdr : Str) : Bool :=
  keyInList hdr SIP_EXT_100REL

/-- The header block with a line that requires the extension. -/
def withRequire (hdrs : Str) : Str :=
  if lists100rel (getHeader hdrs SIP_HDR_REQUIRE) then hdrs
  else hdrs ++ hdrLine SIP_HDR_REQUIRE SIP_EXT_100REL

/-- The header block with a line that offers the extension, if it does not require it. -/
def withSupported (hdrs : Str) : Str :=
  if lists100rel (getHeader hdrs SIP_HDR_REQUIRE) then hdrs
  else hdrs ++ hdrLine SIP_HDR_SUPPORTED SIP_EXT_100REL

namespace Am100rel

def init (reliable1xx : Rel100State) : Am100rel where
  reliable1xx := reliable1xx
  rseq := 0
  rseqConfirmed := false
  rseq1st := 0
  rseqLast := 0

/-- The peer supports or requires the extension. -/
def advertised (req : AmSipRequest) : Bool :=
  lists100rel (getHeaderCompact req.hdrs SIP_HDR_SUPPORTED SIP_HDR_SUPPORTED_COMPACT) ||
    lists100rel (getHeader req.hdrs SIP_HDR_REQUIRE)

variable (r : Am100rel)

/-- The new state, and the reply if the request is rejected. -/
def onRequestIn (req : AmSipRequest) : Am100rel × Option ErrorReply :=
  if r.reliable1xx = .ignored then (r, none)
  else if req.method = .INVITE then
    match r.reliable1xx with
    | .supported => if advertised req then ({ r with reliable1xx := .require }, none) else (r, none)
    | .require =>
      if advertised req then (r, none)
      else (r, some ⟨421, "Extension Required".toList, hdrLine SIP_HDR_REQUIRE SIP_EXT_100REL⟩)
    | .disabled =>
      if lists100rel (getHeader req.hdrs SIP_HDR_REQUIRE) then
        (r, some ⟨420, "Bad Extension".toList, hdrLine "Unsupported".toList SIP_EXT_100REL⟩)
      else (r, none)
    | .ignored => (r, none)
  else if req.method = .PRACK then
    if r.reliable1xx ≠ .require then (r, none)
    else if r.rseq1st ≤ req.rseq ∧ req.rseq ≤ r.rseq then
      if req.rseq = r.rseq then ({ r with rseqConfirmed := true }, none) else (r, none)
    else (r, none)
  else (r, none)

/-- The case `REL100_REQUIRE` of `onReplyIn`, for a 1xx reply. -/
def onRel1xxIn (reply : AmSipReply) : Am100rel × Rel100Action × Bool :=
  if !lists100rel (getHeader reply.hdrs SIP_HDR_REQUIRE) || reply.rseq == 0 then
    (r, .byeOnFailure, true)
  else if r.rseqLast < reply.rseq then ({ r with rseqLast := reply.rseq }, .onInvite1xxRel, true)
  else (r, .none, true)

/-- The new state, what happens, and whether the reply goes on to the handler. -/
def onReplyIn (status : DlgStatus) (reply : AmSipReply) : Am100rel × Rel100Action × Bool :=
  if r.reliable1xx = .ignored then (r, .none, true)
  else if status ≠ .Trying ∧ status ≠ .Proceeding ∧ status ≠ .Early ∧ status ≠ .Connected then
    (r, .none, true)
  else if 100 < reply.code ∧ reply.code < 200 ∧ reply.cseqMethod = .INVITE then
    match r.reliable1xx with
    | .supported =>
      if lists100rel (getHeader reply.hdrs SIP_HDR_REQUIRE) then
        onRel1xxIn { r with reliable1xx := .require } reply
      else (r, .none, true)
    | .require => onRel1xxIn r reply
    | .disabled => (r, .none, true)
    | .ignored => (r, .none, true)
  else if r.reliable1xx ≠ .disabled ∧ reply.cseqMethod = .PRACK then
    if 300 ≤ reply.code then (r, .byeOnFailure, false)
    else if 200 ≤ reply.code then (r, .onPrack2xx, false)
    else (r, .none, false)
  else (r, .none, true)

/-- The header block of a request that is sent. -/
def onRequestOut (req : AmSipRequest) : AmSipRequest :=
  if r.reliable1xx = .ignored ∨ req.method ≠ .INVITE then req
  else
    match r.reliable1xx with
    | .supported => { req with hdrs := withSupported req.hdrs }
    | .require => { req with hdrs := withRequire req.hdrs }
    | .disabled => req
    | .ignored => req

def firstNotPracked : SessionException :=
  ⟨491, "first reliable 1xx not yet PRACKed".toList⟩

def lastNotPracked : SessionException :=
  ⟨491, "last reliable 1xx not yet PRACKed".toList⟩

/-- The case `REL100_REQUIRE` of `onReplyOut`, for a 1xx reply. -/
def onRel1xxOut (random : BitVec 32) (reply : AmSipReply) :
    Except SessionException (Am100rel × AmSipReply) :=
  let hdrs := withRequire reply.hdrs
  if getHeader hdrs SIP_HDR_RSEQ ≠ [] then .ok (r, { reply with hdrs := hdrs })
  else if r.rseq = 0 then
    let rseq := (random &&& 0x3ff) + 1
    .ok ({ r with rseq := rseq, rseqConfirmed := false, rseq1st := rseq },
      { reply with hdrs := hdrs ++ hdrLine SIP_HDR_RSEQ (int2str rseq) })
  else if r.rseqConfirmed = false ∧ r.rseq1st = r.rseq then
    .error firstNotPracked
  else
    let rseq := r.rseq + 1
    .ok ({ r with rseq := rseq },
      { reply with hdrs := hdrs ++ hdrLine SIP_HDR_RSEQ (int2str rseq) })

/-- The new state and the reply as it is sent. An exception leaves the state as it was. -/
def onReplyOut (random : BitVec 32) (reply : AmSipReply) :
    Except SessionException (Am100rel × AmSipReply) :=
  if r.reliable1xx = .ignored then .ok (r, reply)
  else if reply.cseqMethod = .INVITE then
    if 100 < reply.code ∧ reply.code < 200 then
      match r.reliable1xx with
      | .supported => .ok (r, { reply with hdrs := withSupported reply.hdrs })
      | .require => onRel1xxOut r random reply
      | .disabled => .ok (r, reply)
      | .ignored => .ok (r, reply)
    else if reply.code < 300 ∧ r.reliable1xx = .require then
      if r.rseq ≠ 0 ∧ r.rseqConfirmed = false then
        .error lastNotPracked
      else .ok (r, reply)
    else .ok (r, reply)
  else .ok (r, reply)

/-! ## A UAS that requires the extension -/

variable {r : Am100rel} {req : AmSipRequest} {reply : AmSipReply}

/-- The first number. -/
theorem toNat_first (random : BitVec 32) :
    0 < ((random &&& 0x3ff) + 1).toNat ∧ ((random &&& 0x3ff) + 1).toNat ≤ 1024 := by
  have hand : (random &&& 0x3ff).toNat ≤ 1023 := by
    rw [BitVec.toNat_and]
    exact Nat.and_le_right
  rw [BitVec.toNat_add]
  simp only [BitVec.ofNat_eq_ofNat, BitVec.toNat_ofNat] at hand ⊢
  omega

variable (hr : r.reliable1xx = .require)

include hr

theorem onReplyOut_1xx (hm : reply.cseqMethod = .INVITE) (h1 : 100 < reply.code)
    (h2 : reply.code < 200) (random : BitVec 32) :
    onReplyOut r random reply = onRel1xxOut r random reply := by
  unfold onReplyOut
  rw [if_neg (by simp [hr]), if_pos hm, if_pos ⟨h1, h2⟩, hr]

end Am100rel

end Sems
