import Sems.RegisterRequest

/-!
# Replies to register requests

A handler that answers a request sends one final reply, a handler that leaves it sends none, and a
request that is left or refused does not change the cache (`Answered`).

The parser of the Expires header returns `true` after its error reply, where the callers test for a
negative number. So a request whose Expires header is not a number gets the error reply and is then
handled as if it had none, and this is the only way a handler fails (`register_answered_iff`).
-/

namespace Sems

namespace RegisterCache

variable {P : RegParsers} {hashlittle : Str → BitVec 32 → BitVec 32} {c : RegisterCache}
  {ctx : RegisterCacheCtx} {req : RegRequest} {now : ℤ}

/-- The number of final replies sent. -/
def finals (o : RegOutcome) : ℕ :=
  (o.replies.filter fun r => 200 ≤ r.code).length

/-- One final reply if the request is handled, none if not. A request that is not handled, or
refused with a 4xx, leaves the cache as it was. -/
structure Answered (c : RegisterCache) (o : RegOutcome) : Prop where
  one : o.handled = true → finals o = 1
  none : o.handled = false → finals o = 0
  unchanged : (o.handled = false ∨ ∃ r ∈ o.replies, 400 ≤ r.code ∧ r.code < 500) → o.cache = c

/-! ## Parsed requests -/

theorem answered_left : Answered c ⟨false, c, []⟩ :=
  ⟨nofun, fun _ => rfl, fun _ => rfl⟩

/-- A reply that leaves the cache as it was. -/
theorem answered_reply {r : RegReply} (hr : 200 ≤ r.code) : Answered c ⟨true, c, [r]⟩ :=
  ⟨fun _ => by simp [finals, hr], nofun, fun _ => rfl⟩

theorem answered_ok {c' : RegisterCache} {hdrs : RegHdrs} :
    Answered c ⟨true, c', [⟨200, "OK".toList, hdrs⟩]⟩ := by
  refine ⟨fun _ => rfl, nofun, ?_⟩
  rintro (h | ⟨r, hr, h400, -⟩)
  · exact absurd h nofun
  · rw [List.mem_singleton.1 hr] at h400
    have hlt : ¬ 400 ≤ 200 := by decide
    exact absurd h400 hlt

/-- An update of an expiry leaves the aliases. -/
theorem isSome_updateAliasExpires {a b : Str} {t : ℤ} (h : (c.findAliasEntry b).isSome) :
    ((c.updateAliasExpires a t).1.findAliasEntry b).isSome := by
  unfold updateAliasExpires
  split
  · show ((c.idIdx.insert a _).find? b).isSome
    rw [OrdMap.find?_insert_update, Function.update_apply]
    split_ifs
    · rfl
    · exact h
  · exact h

/-- With an entry for every alias no update fails. -/
theorem applyUpdates_true :
    ∀ {us : List (Str × ℤ)} {c : RegisterCache}, (∀ u ∈ us, (c.findAliasEntry u.1).isSome) →
      (applyUpdates c us).2 = true
  | [], _, _ => rfl
  | u :: us, c, h => by
    obtain ⟨hu, hus⟩ := List.forall_mem_cons.1 h
    obtain ⟨ae, hae⟩ := Option.isSome_iff_exists.1 hu
    have hupd : c.updateAliasExpires u.1 u.2 = ((c.updateAliasExpires u.1 u.2).1, true) := by
      unfold updateAliasExpires
      rw [hae]
    unfold applyUpdates
    rw [hupd]
    exact applyUpdates_true fun u' hu' => isSome_updateAliasExpires (hus u' hu')

theorem answered_throttleContacts : Answered c (throttleContacts c ctx req now) := by
  unfold throttleContacts
  simp only
  generalize (if ctx.requestedExpires ≠ 0 ∧ ctx.maxUaExpires < ctx.requestedExpires then
    ctx.maxUaExpires else ctx.requestedExpires) = d
  split
  · exact answered_left
  · exact answered_reply (by decide)
  · rename_i us hus
    have htrue : (applyUpdates c (us.map Prod.fst)).2 = true := by
      refine applyUpdates_true (List.forall_mem_map.2 fun u hu => ?_)
      obtain ⟨contact, -, hcontact⟩ := exists_of_mem_throttleLoop hus hu
      obtain ⟨t, b, ae, -, -, -, hae, -, hu⟩ := throttleContact_ok hcontact
      rw [hu, hae]
      rfl
    split
    · rename_i hfalse
      rw [hfalse] at htrue
      exact absurd htrue nofun
    · exact answered_ok

theorem answered_unregister : Answered c (c.unregister hashlittle ctx) :=
  answered_ok

theorem answered_saveStar : Answered c (c.saveStar hashlittle ctx) := by
  unfold saveStar
  split_ifs
  · exact answered_reply (by decide)
  · exact answered_unregister

theorem answered_saveContact {contact : RegContact} {t : BitVec 32} :
    Answered c (c.saveContact hashlittle ctx req now contact t) :=
  answered_ok

theorem answered_saveContacts : Answered c (c.saveContacts hashlittle ctx req now) := by
  unfold saveContacts
  split
  · split
    · split
      · exact answered_reply (by decide)
      · split_ifs
        · exact answered_unregister
        · exact answered_saveContact
    · split_ifs
      · exact answered_unregister
      · exact answered_saveContact
  · exact answered_reply (by decide)

/-! ## Parsing -/

variable (P) (ctx) (req) in
/-- The address of record is known or can be read. -/
def ReadsAor : Prop :=
  ctx.aorParsed = true ∨ ∃ uri, P.parseFrom req.fromHdr = some uri ∧ P.canonicalizeAor uri ≠ []

variable (P) (ctx) (req) in
/-- The contacts are known or can be read. -/
def ReadsContacts : Prop :=
  ctx.contactsParsed = true ∨ ∃ cs, P.parseContacts req.contact = some cs ∧ ctx.contacts ++ cs ≠ []

variable (ctx) (req) in
/-- There is an Expires header that is still to be read and not a number. -/
def BadExpires : Prop :=
  ctx.expiresParsed = false ∧ getHeader req.hdrs "Expires".toList ≠ [] ∧
    str2i (getHeader req.hdrs "Expires".toList) = none

/-- `parseAoR` succeeds without a reply and leaves what is known of the other headers, or fails
with a reply. -/
theorem parseAoR_cases (P : RegParsers) (ctx : RegisterCacheCtx) (req : RegRequest) :
    (ReadsAor P ctx req ∧ ∃ ctx', parseAoR P ctx req = (0, ctx', []) ∧
      ctx'.contacts = ctx.contacts ∧ ctx'.contactsParsed = ctx.contactsParsed ∧
      ctx'.expiresParsed = ctx.expiresParsed) ∨
    (¬ ReadsAor P ctx req ∧ ∃ ctx', parseAoR P ctx req = (-1, ctx', [badFrom])) := by
  unfold parseAoR
  split_ifs with hparsed
  · exact .inl ⟨.inl hparsed, ctx, rfl, rfl, rfl, rfl⟩
  cases huri : P.parseFrom req.fromHdr with
  | none => exact .inr ⟨by simp [ReadsAor, hparsed, huri], _, rfl⟩
  | some uri =>
    simp only
    split_ifs with hnil
    · exact .inr ⟨by simp [ReadsAor, hparsed, huri, hnil], _, rfl⟩
    · exact .inl ⟨.inr ⟨uri, huri, hnil⟩, _, rfl, rfl, rfl, rfl⟩

/-- `parseContacts` succeeds without a reply, leaving what is known of the Expires header, or fails
with one. -/
theorem parseContacts_cases (P : RegParsers) (ctx : RegisterCacheCtx) (req : RegRequest) :
    (ReadsContacts P ctx req ∧ ∃ ctx', parseContacts P ctx req = (0, ctx', []) ∧
      ctx'.expiresParsed = ctx.expiresParsed) ∨
    (¬ ReadsContacts P ctx req ∧ ∃ ctx' warning,
      parseContacts P ctx req = (-1, ctx', [badRequest warning])) := by
  unfold parseContacts
  split_ifs with hparsed
  · exact .inl ⟨.inl hparsed, ctx, rfl, rfl⟩
  cases hcs : P.parseContacts req.contact with
  | none => exact .inr ⟨by simp [ReadsContacts, hparsed, hcs], _, _, rfl⟩
  | some cs =>
    simp only
    split_ifs with hnil
    · exact .inr ⟨by simp_all [ReadsContacts], _, _, rfl⟩
    · exact .inl ⟨.inr ⟨cs, hcs, hnil⟩, _, rfl, rfl⟩

/-- `parseExpires` never returns a negative number, and replies to a header that is not a
number. -/
theorem parseExpires_cases (ctx : RegisterCacheCtx) (req : RegRequest) :
    (¬ BadExpires ctx req ∧ ∃ ctx', parseExpires ctx req = (0, ctx', [])) ∨
    (BadExpires ctx req ∧ parseExpires ctx req = (1, ctx, [malformedExpires])) := by
  unfold parseExpires
  split_ifs with hparsed
  · exact .inl ⟨by simp [BadExpires, hparsed], _, rfl⟩
  simp only
  split_ifs with hnil
  · exact .inl ⟨fun h => h.2.1 hnil, _, rfl⟩
  cases hn : str2i (getHeader req.hdrs "Expires".toList) with
  | none => exact .inr ⟨⟨by simpa using hparsed, hnil, hn⟩, rfl⟩
  | some n =>
    refine .inl ⟨fun h => ?_, _, rfl⟩
    have hnone := h.2.2
    rw [hn] at hnone
    exact absurd hnone nofun

/-- A reply too many. -/
theorem not_answered_cons {o : RegOutcome} (h : Answered c o) {r : RegReply} (hr : 200 ≤ r.code) :
    ¬ Answered c { o with replies := r :: o.replies } := by
  have hcons : finals { o with replies := r :: o.replies } = finals o + 1 := by
    simp [finals, hr]
  intro h'
  cases hhandled : o.handled with
  | true =>
    have hone := h'.one hhandled
    rw [hcons, h.one hhandled] at hone
    exact absurd hone (by decide)
  | false =>
    have hnone := h'.none hhandled
    rw [hcons] at hnone
    exact absurd hnone (Nat.succ_ne_zero _)

variable {f : RegisterCacheCtx → RegOutcome}

/-- What follows the parsing of the Expires header. -/
theorem answered_parseExpires_iff (hf : ∀ ctx, Answered c (f ctx)) :
    Answered c { f (parseExpires ctx req).2.1 with
      replies := (parseExpires ctx req).2.2 ++ (f (parseExpires ctx req).2.1).replies } ↔
      ¬ BadExpires ctx req := by
  rcases parseExpires_cases ctx req with ⟨hok, ctx', hres⟩ | ⟨hbad, hres⟩
  · rw [hres]
    exact iff_of_true (hf ctx') hok
  · rw [hres]
    exact iff_of_false (not_answered_cons (hf ctx) (by decide)) (not_not_intro hbad)

theorem parseExpires_not_neg : ¬ (parseExpires ctx req).1 < 0 := by
  rcases parseExpires_cases ctx req with ⟨-, ctx', hres⟩ | ⟨-, hres⟩
  · rw [hres]
    exact Int.lt_irrefl 0
  · rw [hres]
    exact (by decide : ¬ (1 : ℤ) < 0)

/-- What follows the parsing of the contacts. -/
theorem answered_parseContacts_iff (hf : ∀ ctx, Answered c (f ctx))
    {r e : ℤ × RegisterCacheCtx × List RegReply} (hr : parseContacts P ctx req = r)
    (he : parseExpires r.2.1 req = e) :
    Answered c
      (if r.1 < 0 then ⟨true, c, r.2.2⟩
      else if e.1 < 0 then ⟨true, c, r.2.2 ++ e.2.2⟩
      else { f e.2.1 with replies := r.2.2 ++ e.2.2 ++ (f e.2.1).replies }) ↔
      ¬ (ReadsContacts P ctx req ∧ BadExpires ctx req) := by
  subst hr he
  rcases parseContacts_cases P ctx req with ⟨hread, ctx', hres, hexp⟩ | ⟨hread, ctx', w, hres⟩
  · have hbad : BadExpires ctx' req ↔ BadExpires ctx req := by
      unfold BadExpires
      rw [hexp]
    rw [and_iff_right hread, ← hbad, ← answered_parseExpires_iff hf, hres, if_neg (Int.lt_irrefl 0),
      if_neg parseExpires_not_neg]
    rfl
  · rw [hres, if_pos (by decide : (-1 : ℤ) < 0)]
    exact iff_of_true (answered_reply (show 200 ≤ 400 by decide)) fun h => hread h.1

/-! ## The handlers -/

variable (P) (ctx) (req) in
/-- A request comes to an Expires header that is not a number. `star` is whether a Contact header of
`*` is handled. -/
def RefusesExpires (star : Bool) : Prop :=
  req.method = SIP_METH_REGISTER ∧ req.contact ≠ [] ∧ ReadsAor P ctx req ∧
    (if req.contact = "*".toList then star = true else ReadsContacts P ctx req) ∧
    BadExpires ctx req

theorem answered_throttleRegister_iff :
    Answered c (c.throttleRegister P ctx req now) ↔ ¬ RefusesExpires P ctx req false := by
  unfold throttleRegister RefusesExpires
  by_cases hmeth : req.method = SIP_METH_REGISTER
  swap
  · rw [if_pos hmeth]
    exact iff_of_true answered_left fun h => hmeth h.1
  rw [if_neg (not_not_intro hmeth)]
  by_cases hnone : req.contact = [] ∨ req.contact = "*".toList
  · rw [if_pos hnone]
    refine iff_of_true answered_left fun h => ?_
    rcases hnone with hnone | hstar
    · exact h.2.1 hnone
    · have hs := h.2.2.2.1
      rw [if_pos hstar] at hs
      exact absurd hs nofun
  rw [if_neg hnone]
  rw [not_or] at hnone
  rw [if_neg hnone.2]
  rcases parseAoR_cases P ctx req with ⟨hread, ctx', hres, hcs, hpar, hexp⟩ | ⟨hread, ctx', hres⟩
  · simp only [hres, List.nil_append]
    refine (answered_parseContacts_iff (fun _ => answered_throttleContacts) rfl rfl).trans
      (not_congr ?_)
    simp only [hmeth, hnone.1, hread, ne_eq, not_false_eq_true, true_and, ReadsContacts,
      BadExpires, hcs, hpar, hexp]
  · simp only [hres]
    exact iff_of_true (answered_reply (by decide)) fun h => hread h.2.2.1

theorem answered_saveSingleContact_iff :
    Answered c (c.saveSingleContact P hashlittle ctx req now) ↔
      ¬ RefusesExpires P ctx req true := by
  unfold saveSingleContact RefusesExpires
  by_cases hmeth : req.method = SIP_METH_REGISTER
  swap
  · rw [if_pos hmeth]
    exact iff_of_true answered_left fun h => hmeth h.1
  rw [if_neg (not_not_intro hmeth)]
  rcases parseAoR_cases P ctx req with ⟨hread, ctx', hres, hcs, hpar, hexp⟩ | ⟨hread, ctx', hres⟩
  swap
  · simp only [hres]
    exact iff_of_true (answered_reply (by decide)) fun h => hread h.2.2.1
  simp only [hres, List.nil_append]
  by_cases hnone : req.contact = []
  · rw [if_pos hnone]
    exact iff_of_true answered_ok fun h => h.2.1 hnone
  rw [if_neg hnone]
  by_cases hstar : req.contact = "*".toList
  · rw [if_pos hstar, if_neg parseExpires_not_neg, if_pos hstar]
    refine (answered_parseExpires_iff fun _ => answered_saveStar).trans (not_congr ?_)
    simp only [hmeth, hnone, hread, ne_eq, not_false_eq_true, true_and, BadExpires, hexp]
  · rw [if_neg hstar, if_neg hstar]
    refine (answered_parseContacts_iff (fun _ => answered_saveContacts) rfl rfl).trans
      (not_congr ?_)
    simp only [hmeth, hnone, hread, ne_eq, not_false_eq_true, true_and, ReadsContacts,
      BadExpires, hcs, hpar, hexp]

/-- A handler answers a request once or not at all, and leaves the cache to a request that it does
not answer or refuses, unless it comes to an Expires header that is not a number. -/
theorem register_answered_iff (P : RegParsers) (hashlittle : Str → BitVec 32 → BitVec 32)
    (c : RegisterCache) (ctx : RegisterCacheCtx) (req : RegRequest) (now : ℤ) :
    (Answered c (c.throttleRegister P ctx req now) ↔ ¬ RefusesExpires P ctx req false) ∧
      (Answered c (c.saveSingleContact P hashlittle ctx req now) ↔
        ¬ RefusesExpires P ctx req true) :=
  ⟨answered_throttleRegister_iff, answered_saveSingleContact_iff⟩

/-- An Expires header that is not a number gets an error reply, and then the request is forwarded or
answered again, with the contact cached. -/
theorem malformedExpires_two_replies :
    let P : RegParsers := ⟨fun _ => some "sip:a@d".toList, id,
      fun _ => some [⟨"sip:ua@h".toList, OrdMap.empty⟩]⟩
    let req : RegRequest := ⟨SIP_METH_REGISTER, "<sip:a@d>".toList, "<sip:ua@h>".toList,
      "Expires: soon\r\n".toList, "10.0.0.1".toList, 5060, "udp".toList, 0⟩
    let throttled := empty.throttleRegister P (.init 0 0) req 1000
    let saved := empty.saveSingleContact P (fun _ h => h) (.init 0 0) req 1000
    (throttled.handled = false ∧ throttled.replies.map RegReply.code = [400]) ∧
      saved.handled = true ∧ saved.replies.map RegReply.code = [400, 200] ∧
        saved.cache.bindings = 1 := by
  decide +kernel

end RegisterCache

end Sems
