import Sems.UacAuth
import Sems.HeaderLines

/-!
# The header texts of client authentication

Whether a request was authenticated is read off the text of its headers. `AuthHdrs` are the texts
where this works : lines without a tab between the name of an authorization header and its colon. In
such a text the headers of one kind are replaced by the new one and those of the other kind stay
(`resent_addHdr`). The texts of the challenge come out of one header of the reply, so they have no
line ends (`plainChallenge_parseHeader`).
-/

namespace Sems

open List

/-- The kind's header is in the text, with a value. -/
def hasHdr (hdrs : Str) (kind : AuthKind) : Prop :=
  getHeaderSingle hdrs kind.hdr ≠ []

/-- Lines where the authorization headers have no tab before the colon. -/
structure AuthLines (ls : List Str) : Prop where
  plain : ∀ l ∈ ls, PlainLine l
  value : ∀ l ∈ ls, ∀ (kind : AuthKind) (rest : Str),
    fieldRest (kind.hdr.map lowerChar) l = some rest → (fieldValue rest).isSome = true

def AuthHdrs (hdrs : Str) : Prop :=
  ∃ ls, hdrs = headerText ls ∧ AuthLines ls

/-! ## Texts without line ends -/

theorem plainLine_cvtHex (hash : BitVec 128) : PlainLine (cvtHex hash) := by
  have hdigit : ∀ m < 16, Nat.digitChar m ≠ '\r' ∧ Nat.digitChar m ≠ '\n' := by decide
  constructor <;> intro hmem
  · obtain ⟨i, -, hi⟩ := mem_map.1 hmem
    exact (hdigit _ (Nat.mod_lt _ (by decide))).1 hi
  · obtain ⟨i, -, hi⟩ := mem_map.1 hmem
    exact (hdigit _ (Nat.mod_lt _ (by decide))).2 hi

theorem plainLine_int2hexLookup {digit : BitVec 32} : PlainLine [int2hexLookup digit] := by
  have htable : "0123456789abcdef".toList.all (fun c => decide (PlainLine [c])) = true := by decide
  rw [int2hexLookup, getD_eq_getElem?_getD]
  cases hget : "0123456789abcdef".toList[digit.toNat]? with
  | none => decide
  | some c => exact of_decide_eq_true (all_eq_true.1 htable c (mem_of_getElem? hget))

theorem plainLine_int2hex (val : BitVec 32) : PlainLine (int2hex val) := by
  have hloop : ∀ (i : ℕ) (v : BitVec 32), PlainLine (int2hexLoop i v) := by
    intro i
    induction i with
    | zero => exact fun _ => plainLine_nil
    | succ i ih => exact fun v => plainLine_int2hexLookup.append (ih _)
  exact hloop 8 val

/-- The texts of the challenge that go into a header. -/
structure PlainChallenge (challenge : UACAuthDigestChallenge) : Prop where
  realm : PlainLine challenge.realm
  nonce : PlainLine challenge.nonce
  opaqueData : PlainLine challenge.opaqueData

theorem suffix_findName {name rest : Str} :
    ∀ {cs : Str} {prev : Option Char}, findName name prev cs = some rest → rest <:+ cs
  | [], _, h => by cases h
  | c :: cs, prev, h => by
    rw [findName] at h
    split_ifs at h
    · exact Option.some.inj h ▸ drop_suffix _ _
    · exact (suffix_findName h).trans (suffix_cons c cs)

theorem findAttribute_subset {name header : Str} : findAttribute name header ⊆ header := by
  rw [findAttribute]
  cases hfind : findName name none header with
  | none => exact nil_subset _
  | some rest =>
    exact List.Subset.trans (List.Subset.trans (List.takeWhile_prefix _).subset
      (dropWhile_suffix _).subset) (suffix_findName hfind).subset

variable {challenge : UACAuthDigestChallenge}

theorem plainChallenge_parseHeader {authHdr : Str} (hhdr : PlainLine authHdr)
    (h : PlainChallenge challenge) :
    PlainChallenge (parseHeader authHdr challenge).2 := by
  rw [parseHeader]
  dsimp only
  split_ifs
  · exact h
  · exact h
  · exact ⟨hhdr.mono findAttribute_subset, hhdr.mono findAttribute_subset,
      hhdr.mono findAttribute_subset⟩

theorem plainLine_qopValue (challenge : UACAuthDigestChallenge) : PlainLine challenge.qopValue := by
  rw [UACAuthDigestChallenge.qopValue]
  split_ifs
  · exact plainLine_nil
  · exact ⟨by decide, by decide⟩
  · exact ⟨by decide, by decide⟩
  · exact plainLine_nil

/-! ## The new header -/

/-- The header of a kind, as a line. -/
structure AuthLine (kind : AuthKind) (l : Str) : Prop where
  plain : PlainLine l
  value : ∃ v, l = kind.hdr ++ ':' :: ' ' :: 'D' :: v

theorem authLine_spec {cred : UACAuthCred} {uri cnonce qopValue response : Str} (kind : AuthKind)
    (hcred : PlainLine cred.user) (hchallenge : PlainChallenge challenge) (huri : PlainLine uri)
    (hcnonce : PlainLine cnonce) (hqop : PlainLine qopValue) (hresponse : PlainLine response)
    (nonceCount : BitVec 32) :
    AuthLine kind (authLine kind cred challenge uri cnonce qopValue response nonceCount) where
  plain := by
    have hhdr : PlainLine kind.hdr := by
      cases kind <;> exact ⟨by decide, by decide⟩
    have hopaque : ∀ part ∈ (if challenge.opaqueData = [] then []
        else ["opaque=\"".toList, challenge.opaqueData, "\", ".toList]), PlainLine part := by
      split_ifs
      · exact forall_mem_nil _
      · simp only [forall_mem_cons]
        exact ⟨by decide, hchallenge.opaqueData, by decide, forall_mem_nil _⟩
    have hcount : ∀ part ∈ (if qopValue = [] then []
        else ["qop=".toList, qopValue, ", cnonce=\"".toList, cnonce, "\", nc=".toList,
          int2hex nonceCount, ", ".toList]), PlainLine part := by
      split_ifs
      · exact forall_mem_nil _
      · simp only [forall_mem_cons]
        exact ⟨by decide, hqop, by decide, hcnonce, by decide, plainLine_int2hex _, by decide,
          forall_mem_nil _⟩
    refine plainLine_flatten ?_
    simp only [forall_mem_append, forall_mem_cons]
    exact ⟨⟨⟨⟨hhdr, by decide, by decide, hcred, by decide, hchallenge.realm, by decide,
      hchallenge.nonce, by decide, huri, by decide, forall_mem_nil _⟩, hopaque⟩, hcount⟩,
      by decide, hresponse, by decide, forall_mem_nil _⟩
  value := ⟨(authLine kind cred challenge uri cnonce qopValue response nonceCount).drop
    (kind.hdr.length + 3), by cases kind <;> rfl⟩

variable {ls : List Str} {l hdrs : Str} {kind : AuthKind}

theorem hdr_ne_nil : kind.hdr ≠ [] := by
  cases kind <;> decide

theorem cr_notMem_hdr : '\r' ∉ kind.hdr.map lowerChar := by
  cases kind <;> decide

/-- The names of the two headers have different first letters. -/
theorem head_hdr_ne {kind' : AuthKind} (h : kind' ≠ kind) :
    (kind'.hdr.map lowerChar).head? ≠ (kind.hdr.map lowerChar).head? := by
  cases kind <;> cases kind'
  · exact absurd rfl h
  · decide
  · decide
  · exact absurd rfl h

theorem fieldRest_authLine (hl : AuthLine kind l) :
    ∃ v, fieldRest (kind.hdr.map lowerChar) l = some (':' :: ' ' :: 'D' :: v) := by
  obtain ⟨v, rfl⟩ := hl.value
  exact ⟨v, fieldRest_self _ _⟩

theorem fieldRest_authLine_ne (hl : AuthLine kind l) {kind' : AuthKind} (h : kind' ≠ kind) :
    fieldRest (kind'.hdr.map lowerChar) l = none := by
  obtain ⟨v, hv⟩ := fieldRest_authLine hl
  refine fieldRest_other ?_ ?_ (head_hdr_ne h) hv
  · simpa using hdr_ne_nil
  · simpa using hdr_ne_nil

theorem authLines_authLine (hl : AuthLine kind l) : AuthLines [l] where
  plain := forall_mem_singleton.2 hl.plain
  value := by
    refine forall_mem_singleton.2 fun kind' rest hrest => ?_
    by_cases hkind : kind' = kind
    · subst hkind
      obtain ⟨v, hv⟩ := fieldRest_authLine hl
      obtain rfl := Option.some.inj (hv.symm.trans hrest)
      rfl
    · rw [fieldRest_authLine_ne hl hkind] at hrest
      cases hrest

theorem AuthLines.append {ls' : List Str} (h : AuthLines ls) (h' : AuthLines ls') :
    AuthLines (ls ++ ls') :=
  ⟨forall_mem_append.2 ⟨h.plain, h'.plain⟩, forall_mem_append.2 ⟨h.value, h'.value⟩⟩

theorem AuthLines.sublist {ls' : List Str} (h : AuthLines ls) (hsub : ls'.Sublist ls) :
    AuthLines ls' :=
  ⟨fun l hl => h.plain l (hsub.subset hl), fun l hl => h.value l (hsub.subset hl)⟩

theorem hasHdr_headerText (h : AuthLines ls) :
    hasHdr (headerText ls) kind ↔
      ((ls.findSome? (fieldRest (kind.hdr.map lowerChar))).bind fieldValue).getD [] ≠ [] := by
  rw [hasHdr, getHeaderSingle_headerText hdr_ne_nil cr_notMem_hdr h.plain]

theorem not_hasHdr_emptyLine (h : hdrs = CRLF ∨ hdrs = ['\r'] ∨ hdrs = ['\n']) :
    ¬ hasHdr hdrs kind := by
  rw [hasHdr, not_not]
  rcases h with rfl | rfl | rfl <;> cases kind <;> decide

/-- The text with a header added, as lines. -/
theorem addHdr_headerText (ls : List Str) (l : Str) :
    addHdr (headerText ls) (l ++ CRLF) = headerText (ls ++ [l]) ∨
      addHdr (headerText ls) (l ++ CRLF) = headerText [l] ∧
        ∀ kind, ¬ hasHdr (headerText ls) kind := by
  rw [addHdr]
  split_ifs with hempty
  · exact .inr ⟨(append_nil _).symm, fun kind => not_hasHdr_emptyLine hempty⟩
  · refine .inl ?_
    rw [headerText_append]
    exact congrArg (headerText ls ++ ·) (append_nil _).symm

/-- A header is added to lines. -/
theorem AuthHdrs.add (h : AuthHdrs hdrs) (hl : AuthLine kind l) :
    AuthHdrs (addHdr hdrs (l ++ CRLF)) := by
  obtain ⟨ls, rfl, hls⟩ := h
  rcases addHdr_headerText ls l with hadd | ⟨hadd, -⟩
  · exact ⟨_, hadd, hls.append (authLines_authLine hl)⟩
  · exact ⟨_, hadd, authLines_authLine hl⟩

/-- When a request is sent again, the headers of its kind are replaced, and those of the other kind
stay. -/
theorem AuthHdrs.replace (h : AuthHdrs hdrs) (hl : AuthLine kind l) :
    AuthHdrs (addHdr (removeHeader hdrs kind.hdr) (l ++ CRLF)) ∧
      hasHdr (addHdr (removeHeader hdrs kind.hdr) (l ++ CRLF)) kind ∧
      ∀ kind', hasHdr hdrs kind' →
        hasHdr (addHdr (removeHeader hdrs kind.hdr) (l ++ CRLF)) kind' := by
  obtain ⟨ls, rfl, hls⟩ := h
  obtain ⟨ls', hremove, hsub, hnone, hother⟩ := removeHeaderLoop_headerText hdr_ne_nil
    cr_notMem_hdr (length_le_headerText ls) hls.plain (fun x hx rest => hls.value x hx kind rest)
  have hls' := hls.sublist hsub
  obtain ⟨v, hv⟩ := fieldRest_authLine hl
  have hline := authLines_authLine hl
  have hkeep : ∀ kind', kind' ≠ kind → hasHdr (headerText ls) kind' →
      hasHdr (headerText ls') kind' := by
    intro kind' hne hhas
    rw [hasHdr_headerText hls']
    rw [hasHdr_headerText hls] at hhas
    rwa [hother _ (by simpa using hdr_ne_nil) (head_hdr_ne hne)]
  rw [removeHeader, hremove]
  rcases addHdr_headerText ls' l with hadd | ⟨hadd, hempty⟩
  · have hall := hls'.append hline
    rw [hadd]
    have hself : hasHdr (headerText (ls' ++ [l])) kind := by
      rw [hasHdr_headerText hall, findSome?_append, findSome?_eq_none_iff.2 hnone,
        Option.none_or, findSome?_cons, hv]
      simp [fieldValue]
    refine ⟨⟨_, rfl, hall⟩, hself, fun kind' hhas => ?_⟩
    by_cases hkind : kind' = kind
    · exact hkind ▸ hself
    · have hhas' := hkeep kind' hkind hhas
      rw [hasHdr_headerText hls'] at hhas'
      rw [hasHdr_headerText hall, findSome?_append]
      cases hfind : ls'.findSome? (fieldRest (kind'.hdr.map lowerChar)) with
      | none => simp [hfind] at hhas'
      | some rest => simpa [hfind] using hhas'
  · have hself : hasHdr (headerText [l]) kind := by
      rw [hasHdr_headerText hline, findSome?_cons, hv]
      simp [fieldValue]
    rw [hadd]
    refine ⟨⟨_, rfl, hline⟩, hself, fun kind' hhas => ?_⟩
    by_cases hkind : kind' = kind
    · exact hkind ▸ hself
    · exact absurd (hkeep kind' hkind hhas) (hempty kind')

end Sems
