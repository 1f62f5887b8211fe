import Sems.ParseCommon
import Sems.RegisterCache

/-!
# Register requests

How `_RegisterCache` answers a register request (`apps/sbc/RegisterCache.cpp`). `throttleRegister`
answers a request that renews cached bindings which the registrar keeps long enough, and forwards
any other. `saveSingleContact` is a registrar with one contact for each address of record. The
parsers of the From and Contact headers are parameters (`RegParsers`).
-/

namespace Sems

/-- A parsed contact : the URI as it is printed, and the header parameters. -/
structure RegContact where
  uri : Str
  params : OrdMap Str Str

structure RegParsers where
  /-- The URI of a From header. -/
  parseFrom : Str → Option Str
  canonicalizeAor : Str → Str
  parseContacts : Str → Option (List RegContact)

/-- The parts of a request that are read. -/
structure RegRequest where
  method : Str
  fromHdr : Str
  contact : Str
  hdrs : Str
  remoteIp : Str
  remotePort : BitVec 16
  trsp : Str
  localIf : BitVec 16

/-- The headers of a reply : a text, or a Contact header. -/
inductive RegHdrs where
  | text (hdrs : Str)
  | contacts (l : List RegContact)

structure RegReply where
  code : ℕ
  reason : Str
  hdrs : RegHdrs

def SIP_METH_REGISTER : Str := "REGISTER".toList

def DEFAULT_REG_EXPIRES : BitVec 32 := 3600

/-- What is known about the request. A parsed From header has an address of record, and a parsed
Contact header a contact. -/
structure RegisterCacheCtx where
  fromAor : Str
  aorParsed : Bool
  contacts : List RegContact
  contactsParsed : Bool
  requestedExpires : BitVec 32
  expiresParsed : Bool
  minRegExpires : BitVec 32
  maxUaExpires : BitVec 32
  fromAor_ne_nil : aorParsed = true → fromAor ≠ []
  contacts_ne_nil : contactsParsed = true → contacts ≠ []

/-- The context of a new request. -/
def RegisterCacheCtx.init (minRegExpires maxUaExpires : BitVec 32) : RegisterCacheCtx where
  fromAor := []
  aorParsed := false
  contacts := []
  contactsParsed := false
  requestedExpires := DEFAULT_REG_EXPIRES
  expiresParsed := false
  minRegExpires := minRegExpires
  maxUaExpires := maxUaExpires
  fromAor_ne_nil := nofun
  contacts_ne_nil := nofun

/-- What a handler does. `handled` is its result. -/
structure RegOutcome where
  handled : Bool
  cache : RegisterCache
  replies : List RegReply

/-- A sum in the 64 bits of a `long`. -/
def longAdd (a b : ℤ) : ℤ :=
  (a + b).bmod (2 ^ 64)

namespace RegisterCache

/-! ## Parsing -/

section Parse

variable (P : RegParsers)

def badFrom : RegReply :=
  ⟨400, "Bad request - bad From HF".toList, .text []⟩

def badRequest (warning : Str) : RegReply :=
  ⟨400, "Bad Request".toList, .text warning⟩

def malformedExpires : RegReply :=
  badRequest "Warning: Malformed expires\r\n".toList

variable (ctx : RegisterCacheCtx) (req : RegRequest)

/-- The address of record. Returns `0`, or `-1` after a reply. -/
def parseAoR : ℤ × RegisterCacheCtx × List RegReply :=
  if hparsed : ctx.aorParsed then (0, ctx, [])
  else
    match P.parseFrom req.fromHdr with
    | none => (-1, ctx, [badFrom])
    | some uri =>
      let fromAor := P.canonicalizeAor uri
      if h : fromAor = [] then
        (-1, { ctx with fromAor := fromAor
                        fromAor_ne_nil := fun h' => absurd h' hparsed }, [badFrom])
      else
        (0, { ctx with fromAor := fromAor, aorParsed := true
                       fromAor_ne_nil := fun _ => h }, [])

/-- The contacts. Returns `0`, or `-1` after a reply. -/
def parseContacts : ℤ × RegisterCacheCtx × List RegReply :=
  if ctx.contactsParsed then (0, ctx, [])
  else
    match P.parseContacts req.contact with
    | none => (-1, ctx, [badRequest "Warning: Malformed contact\r\n".toList])
    | some cs =>
      if h : ctx.contacts ++ cs = [] then
        (-1, ctx, [badRequest "Warning: Malformed contact\r\n".toList])
      else
        (0, { ctx with contacts := ctx.contacts ++ cs, contactsParsed := true
                       contacts_ne_nil := fun _ => h }, [])

/-- The Expires header. Returns `0`, or `true` after a reply. -/
def parseExpires : ℤ × RegisterCacheCtx × List RegReply :=
  if ctx.expiresParsed then (0, ctx, [])
  else
    let expiresStr := getHeader req.hdrs "Expires".toList
    if expiresStr = [] then (0, { ctx with expiresParsed := true }, [])
    else
      match str2i expiresStr with
      | none => (1, ctx, [malformedExpires])
      | some n => (0, { ctx with requestedExpires := BitVec.ofNat 32 n, expiresParsed := true }, [])

end Parse

/-! ## Throttling -/

/-- Why the request is not answered from the cache. -/
inductive ThrottleStop where
  | fwd
  | malformed

/-- The contact with another `expires` parameter. -/
def setExpires (contact : RegContact) (val : ℤ) : RegContact :=
  { contact with params := contact.params.insert "expires".toList (long2str val) }

/-- The expiry a contact asks for, and the contact as it is sent back. -/
def throttleExpires (maxUaExpires defaultExpires : BitVec 32) (contact : RegContact) :
    Except ThrottleStop (ℤ × RegContact) :=
  match contact.params.find? "expires".toList with
  | none =>
    if defaultExpires = 0 then .error .fwd
    else .ok (defaultExpires.toNat, setExpires contact defaultExpires.toNat)
  | some expires =>
    match str2long expires with
    | none => .error .malformed
    | some contactExpires =>
      if contactExpires = 0 then .error .fwd
      else if maxUaExpires ≠ 0 ∧ (maxUaExpires.toNat : ℤ) < contactExpires then
        .ok (maxUaExpires.toNat, setExpires contact maxUaExpires.toNat)
      else .ok (contactExpires, contact)

/-- One contact of the loop : the alias and its new expiry, and the contact as it is sent back. -/
def throttleContact (c : RegisterCache) (ctx : RegisterCacheCtx) (req : RegRequest) (now : ℤ)
    (defaultExpires : BitVec 32) (contact : RegContact) :
    Except ThrottleStop ((Str × ℤ) × RegContact) :=
  match throttleExpires ctx.maxUaExpires defaultExpires contact with
  | .error stop => .error stop
  | .ok (contactExpires, contact) =>
    match c.getAlias ctx.fromAor contact.uri req.remoteIp with
    | none => .error .fwd
    | some regBinding =>
      if regBinding.regExpire = 0 then .error .fwd
      else
        let contactExpires := longAdd contactExpires now
        -- 4 seconds buffer
        if regBinding.regExpire ≤ longAdd contactExpires 4 then .error .fwd
        else
          match c.findAliasEntry regBinding.aliasName with
          | none => .error .fwd
          | some aliasEntry =>
            if aliasEntry.sourceIp ≠ req.remoteIp ∨ aliasEntry.sourcePort ≠ req.remotePort then
              .error .fwd
            else .ok ((regBinding.aliasName, contactExpires), contact)

/-- The loop over the contacts. -/
def throttleLoop (c : RegisterCache) (ctx : RegisterCacheCtx) (req : RegRequest) (now : ℤ)
    (defaultExpires : BitVec 32) :
    List RegContact → Except ThrottleStop (List ((Str × ℤ) × RegContact))
  | [] => .ok []
  | contact :: rest =>
    match throttleContact c ctx req now defaultExpires contact with
    | .error stop => .error stop
    | .ok u =>
      match throttleLoop c ctx req now defaultExpires rest with
      | .error stop => .error stop
      | .ok us => .ok (u :: us)

/-- Write the new expiries, up to one without an alias entry. -/
def applyUpdates (c : RegisterCache) : List (Str × ℤ) → RegisterCache × Bool
  | [] => (c, true)
  | u :: us =>
    match c.updateAliasExpires u.1 u.2 with
    | (c, false) => (c, false)
    | (c, true) => applyUpdates c us

/-- `throttleRegister` once the request is parsed. -/
def throttleContacts (c : RegisterCache) (ctx : RegisterCacheCtx) (req : RegRequest) (now : ℤ) :
    RegOutcome :=
  let defaultExpires :=
    if ctx.requestedExpires ≠ 0 ∧ ctx.maxUaExpires < ctx.requestedExpires then ctx.maxUaExpires
    else ctx.requestedExpires
  match throttleLoop c ctx req now defaultExpires ctx.contacts with
  | .error .fwd => ⟨false, c, []⟩
  | .error .malformed => ⟨true, c, [malformedExpires]⟩
  | .ok us =>
    match applyUpdates c (us.map Prod.fst) with
    | (c, false) => ⟨false, c, []⟩
    | (c, true) => ⟨true, c, [⟨200, "OK".toList, .contacts (us.map Prod.snd)⟩]⟩

variable (P : RegParsers)

/-- Answer a request from the cache, or leave it to be forwarded. -/
def throttleRegister (c : RegisterCache) (ctx : RegisterCacheCtx) (req : RegRequest) (now : ℤ) :
    RegOutcome :=
  if req.method ≠ SIP_METH_REGISTER then ⟨false, c, []⟩
  else if req.contact = [] ∨ req.contact = "*".toList then ⟨false, c, []⟩
  else
    let (aorRet, ctx, aorReplies) := parseAoR P ctx req
    if aorRet < 0 then ⟨true, c, aorReplies⟩
    else
      let (contactRet, ctx, contactReplies) := parseContacts P ctx req
      if contactRet < 0 then ⟨true, c, aorReplies ++ contactReplies⟩
      else
        let (expiresRet, ctx, expiresReplies) := parseExpires ctx req
        if expiresRet < 0 then ⟨true, c, aorReplies ++ contactReplies ++ expiresReplies⟩
        else
          let o := throttleContacts c ctx req now
          { o with replies := aorReplies ++ contactReplies ++ expiresReplies ++ o.replies }

/-! ## One contact for each address of record -/

/-- The contact that is cached for the address of record. -/
def queryContacts (c : RegisterCache) (fromAor : Str) (now : ℤ) : RegHdrs :=
  match c.getAorAliasMap fromAor with
  | none => .text []
  | some aliasMap =>
    match aliasMap.entries.head? with
    | none => .text []
    | some (aliasName, _) =>
      match c.findAliasEntry aliasName with
      | none => .text []
      | some aliasEntry =>
        if now < aliasEntry.uaExpire then
          let exp : BitVec 32 := BitVec.ofInt 32 (aliasEntry.uaExpire - now)
          .contacts [⟨aliasEntry.contactUri, OrdMap.empty.insert "expires".toList (int2str exp)⟩]
        else .text []

/-- The alias entry of a contact. -/
def savedEntry (ctx : RegisterCacheCtx) (req : RegRequest) (now : ℤ) (contact : RegContact)
    (uaExpires : BitVec 32) : AliasEntry where
  aor := ctx.fromAor
  contactUri := contact.uri
  aliasName := []
  sourceIp := req.remoteIp
  sourcePort := req.remotePort
  trsp := req.trsp
  localIf := req.localIf
  remoteUa := getHeader req.hdrs "User-Agent".toList
  uaExpire := longAdd uaExpires.toNat now

variable (hashlittle : Str → BitVec 32 → BitVec 32)

variable (c : RegisterCache) (ctx : RegisterCacheCtx) (req : RegRequest) (now : ℤ)

/-- Cache the contact and send it back. -/
def saveContact (contact : RegContact) (contactExpires : BitVec 32) : RegOutcome :=
  let regExpires :=
    if contactExpires ≠ 0 ∧ contactExpires < ctx.minRegExpires then ctx.minRegExpires
    else contactExpires
  let uaExpires :=
    if contactExpires ≠ 0 ∧ ctx.maxUaExpires ≠ 0 ∧ ctx.maxUaExpires < contactExpires then
      ctx.maxUaExpires
    else contactExpires
  let regExpires : BitVec 32 := regExpires + BitVec.ofInt 32 now
  let contact' :=
    { contact with params := contact.params.insert "expires".toList (int2str uaExpires) }
  ⟨true, c.update hashlittle regExpires.toNat (savedEntry ctx req now contact uaExpires),
    [⟨200, "OK".toList, .contacts [contact']⟩]⟩

/-- Unregister the address of record. -/
def unregister : RegOutcome :=
  ⟨true, c.removeAor hashlittle ctx.fromAor, [⟨200, "OK".toList, .text []⟩]⟩

/-- `saveSingleContact` once the header with the contacts is parsed. -/
def saveContacts : RegOutcome :=
  match ctx.contacts with
  | [contact] =>
    match contact.params.find? "expires".toList with
    | some expires =>
      match str2i expires with
      | none => ⟨true, c, [malformedExpires]⟩
      | some n =>
        if BitVec.ofNat 32 n = 0 then c.unregister hashlittle ctx
        else c.saveContact hashlittle ctx req now contact (BitVec.ofNat 32 n)
    | none =>
      if ctx.requestedExpires = 0 then c.unregister hashlittle ctx
      else c.saveContact hashlittle ctx req now contact ctx.requestedExpires
  | _ =>
    ⟨true, c, [⟨403, "Forbidden".toList, .text "Warning: only one contact allowed\r\n".toList⟩]⟩

/-- Unregister with a Contact header of `*`, once the Expires header is parsed. -/
def saveStar : RegOutcome :=
  if ctx.requestedExpires ≠ 0 then
    ⟨true, c, [badRequest "Warning: Expires not equal 0\r\n".toList]⟩
  else c.unregister hashlittle ctx

/-- Answer a request as a registrar. -/
def saveSingleContact : RegOutcome :=
  if req.method ≠ SIP_METH_REGISTER then ⟨false, c, []⟩
  else
    let (aorRet, ctx, aorReplies) := parseAoR P ctx req
    if aorRet < 0 then ⟨true, c, aorReplies⟩
    else if req.contact = [] then
      ⟨true, c, aorReplies ++ [⟨200, "OK".toList, c.queryContacts ctx.fromAor now⟩]⟩
    else if req.contact = "*".toList then
      let (expiresRet, ctx, expiresReplies) := parseExpires ctx req
      if expiresRet < 0 then ⟨true, c, aorReplies ++ expiresReplies⟩
      else
        let o := c.saveStar hashlittle ctx
        { o with replies := aorReplies ++ expiresReplies ++ o.replies }
    else
      let (contactRet, ctx, contactReplies) := parseContacts P ctx req
      if contactRet < 0 then ⟨true, c, aorReplies ++ contactReplies⟩
      else
        let (expiresRet, ctx, expiresReplies) := parseExpires ctx req
        if expiresRet < 0 then ⟨true, c, aorReplies ++ contactReplies ++ expiresReplies⟩
        else
          let o := c.saveContacts hashlittle ctx req now
          { o with replies := aorReplies ++ contactReplies ++ expiresReplies ++ o.replies }

/-! ## What a throttled contact is -/

section Throttled

variable {c : RegisterCache} {ctx : RegisterCacheCtx} {req : RegRequest} {now : ℤ}
  {d : BitVec 32}

variable {u : (Str × ℤ) × RegContact}

/-- A contact that is answered has a binding that lasts longer, with an alias entry for the source.
-/
theorem throttleContact_ok {contact : RegContact}
    (h : throttleContact c ctx req now d contact = .ok u) :
    ∃ t b ae, throttleExpires ctx.maxUaExpires d contact = .ok (t, u.2) ∧
      c.getAlias ctx.fromAor u.2.uri req.remoteIp = some b ∧
      longAdd (longAdd t now) 4 < b.regExpire ∧ c.findAliasEntry b.aliasName = some ae ∧
      ae.sourceIp = req.remoteIp ∧ u.1 = (b.aliasName, longAdd t now) := by
  unfold throttleContact at h
  cases hexp : throttleExpires ctx.maxUaExpires d contact with
  | error stop =>
    rw [hexp] at h
    exact absurd h nofun
  | ok r =>
    obtain ⟨t, contact'⟩ := r
    rw [hexp] at h
    simp only at h
    cases hb : c.getAlias ctx.fromAor contact'.uri req.remoteIp with
    | none =>
      rw [hb] at h
      exact absurd h nofun
    | some b =>
      rw [hb] at h
      simp only at h
      split_ifs at h with hzero hlate
      cases hae : c.findAliasEntry b.aliasName with
      | none =>
        rw [hae] at h
        exact absurd h nofun
      | some ae =>
        rw [hae] at h
        simp only at h
        split_ifs at h with hsrc
        obtain rfl := Except.ok.inj h
        rw [not_or, not_not, not_not] at hsrc
        exact ⟨t, b, ae, rfl, hb, Int.not_le.1 hlate, hae, hsrc.1, rfl⟩

/-- Every contact of the loop is answered, or the loop stops. -/
theorem exists_of_mem_throttleLoop :
    ∀ {l : List RegContact} {us : List ((Str × ℤ) × RegContact)},
      throttleLoop c ctx req now d l = .ok us → u ∈ us →
        ∃ contact ∈ l, throttleContact c ctx req now d contact = .ok u
  | [], us, h, hmem => by
    rw [← Except.ok.inj h] at hmem
    exact absurd hmem List.not_mem_nil
  | contact :: l, us, h, hmem => by
    unfold throttleLoop at h
    cases hu : throttleContact c ctx req now d contact with
    | error stop =>
      rw [hu] at h
      exact absurd h nofun
    | ok u' =>
      cases hus : throttleLoop c ctx req now d l with
      | error stop =>
        rw [hu, hus] at h
        exact absurd h nofun
      | ok us' =>
        rw [hu, hus] at h
        rw [← Except.ok.inj h] at hmem
        rcases List.mem_cons.1 hmem with rfl | hmem
        · exact ⟨contact, List.mem_cons_self, hu⟩
        · obtain ⟨contact', hl, hu'⟩ := exists_of_mem_throttleLoop hus hmem
          exact ⟨contact', List.mem_cons_of_mem _ hl, hu'⟩

end Throttled

end RegisterCache

end Sems
