import Sems.SdpParsed

/-!
# Answers and their offers

`AnswerOk` is what an answer is to be : its media lines are those of the offer, at most one has a
port, each has formats of the offer and a direction that fits, and the parser reads the printed
answer with the same m= lines.

A rejected line gets the first payload of the offer as its format, so a rejected fax line has none
(`getSdpAnswer_fax`), and a media type the parser does not know cannot be printed. `answerOk_iff` is
the main result : for every offer that was parsed, the answer is as it is to be if and only if no
line is of these kinds.
-/

namespace Sems

open List AnswerEnv SdpMedia Option

open NetworkType AddressType MediaType TransProt SdpDirection

/-! ## Payloads of the answer -/

variable {prov : PayloadProvider} {p q : SdpPayload} {c : Char}

theorem isToken_lowerChar (h : isToken c = true) : isToken (lowerChar c) = true := by
  rw [lowerChar]
  split_ifs with hupper
  · have hletters : ∀ n < 26, isToken (Char.ofNat (65 + n + 32)) = true := by decide
    obtain ⟨hge, hle⟩ := hupper
    have hge' : 65 ≤ c.toNat := hge
    have hle' : c.toNat ≤ 90 := hle
    have hletter := hletters (c.toNat - 65) (by omega)
    rwa [Nat.add_sub_cancel' hge'] at hletter
  · exact h

/-- A name that differs in the case only has no other characters. -/
theorem notMem_of_sameNoCase {name name' : Str} (h : sameNoCase name name' = true)
    (hname' : ∀ c ∈ name', isToken c = true) (hc : isToken (lowerChar c) = false) : c ∉ name := by
  intro hmem
  have hmem' : lowerChar c ∈ name'.map lowerChar := by
    rw [← of_decide_eq_true h]
    exact mem_map_of_mem hmem
  obtain ⟨d, hd, hdc⟩ := mem_map.1 hmem'
  rw [← hdc, isToken_lowerChar (hname' d hd)] at hc
  exact Bool.noConfusion hc

theorem isToken_lowerChar_end (hc : IsEnd c) : isToken (lowerChar c) = false := by
  rcases hc with rfl | rfl <;> decide

/-- A supported payload that is known by its name. -/
theorem exists_of_getDynPayload {name : Str} {rate param : BitVec 32}
    (h : prov.getDynPayload name rate param ≠ -1) :
    ∃ pl ∈ prov, sameNoCase name pl.name = true ∧ rate = pl.advertisedSampleRate := by
  rw [PayloadProvider.getDynPayload] at h
  cases hfind : prov.find? fun pl => sameNoCase name pl.name && rate = pl.advertisedSampleRate &&
      !(0 < param.toInt && 0 < pl.channels.toInt && param ≠ pl.channels) with
  | none =>
    rw [hfind] at h
    exact absurd rfl h
  | some pl =>
    have hpl := find?_some hfind
    simp only [Bool.and_eq_true, decide_eq_true_eq] at hpl
    exact ⟨pl, mem_of_find?_eq_some hfind, hpl.1.1, hpl.1.2⟩

/-- The provider has the payload, by its number or by its name. -/
def PayloadProvider.knows (prov : PayloadProvider) (p : SdpPayload) : Prop :=
  p.payloadType.toInt < DYNAMIC_PAYLOAD_TYPE_START ∧ (prov.payload p.payloadType).isSome = true ∨
    prov.getDynPayload p.encodingName p.clockRate p.encodingParam ≠ -1

theorem isSome_answerPayload : (prov.answerPayload p).isSome = true ↔ prov.knows p := by
  rw [PayloadProvider.answerPayload, PayloadProvider.knows]
  by_cases hstatic : p.payloadType.toInt < DYNAMIC_PAYLOAD_TYPE_START
  · cases prov.payload p.payloadType with
    | none => by_cases hdyn : prov.getDynPayload p.encodingName p.clockRate p.encodingParam = -1 <;>
        simp [hdyn]
    | some pl => simp [hstatic]
  · by_cases hdyn : prov.getDynPayload p.encodingName p.clockRate p.encodingParam = -1 <;>
      simp [hdyn, hstatic]

variable (h : prov.answerPayload p = some q)

include h

/-- A payload of the answer is a supported one with its number, or the one of the offer. -/
theorem answerPayload_cases :
    (∃ pl ∈ prov, pl.payloadId = p.payloadType ∧
      q = .named pl.payloadId pl.name pl.advertisedSampleRate 0) ∨
    (∃ pl ∈ prov, sameNoCase p.encodingName pl.name = true ∧
      p.clockRate = pl.advertisedSampleRate) ∧ q = p := by
  rw [PayloadProvider.answerPayload] at h
  split at h
  · rename_i pl hpl
    split_ifs at hpl
    have hid := find?_some hpl
    exact .inl ⟨pl, mem_of_find?_eq_some hpl, of_decide_eq_true hid, (some.inj h).symm⟩
  · split_ifs at h with hdyn
    exact .inr ⟨exists_of_getDynPayload hdyn, (some.inj h).symm⟩

theorem payloadType_answerPayload : q.payloadType = p.payloadType := by
  rcases answerPayload_cases h with ⟨pl, -, hid, rfl⟩ | ⟨-, rfl⟩
  · exact hid
  · rfl

/-- The lines of a payload of the answer can be read. -/
theorem payloadText_answerPayload (hparams : ∀ c, IsEnd c → c ∉ p.sdpFormatParameters) :
    PayloadText q := by
  rcases answerPayload_cases h with ⟨pl, -, -, rfl⟩ | ⟨⟨pl, -, hname, hrate⟩, rfl⟩
  · have hname : ∀ c, isToken c = false → c ∉ pl.name := fun c hc hmem =>
      absurd (pl.name_token c hmem) (by rw [hc]; exact Bool.false_ne_true)
    exact ⟨hname _ (by decide), fun c hc => hname c (by rcases hc with rfl | rfl <;> decide),
      fun _ => pl.rate_pos, fun _ _ => not_mem_nil⟩
  · exact ⟨notMem_of_sameNoCase hname pl.name_token (by decide),
      fun c hc => notMem_of_sameNoCase hname pl.name_token (isToken_lowerChar_end hc),
      fun _ => hrate ▸ pl.rate_pos, hparams⟩

omit h

/-! ## Lines of the answer -/

/-- What a line of the answer has in common with the line of the offer in every case. -/
structure AnswersLine (offer answer : SdpMedia) : Prop where
  type : answer.type = offer.type
  transport : answer.transport = offer.transport
  formats : answer.formats ⊆ offer.formats
  send : answer.send = true → offer.recv = true
  recv : answer.recv = true → offer.send = true

/-- The parts of a line of the answer that are not copied. -/
structure FreshLine (m : SdpMedia) : Prop where
  fmt : m.fmt = []
  conn : m.conn.address = []
  attributes : m.attributes = []
  payloads : ∀ p ∈ m.payloads, PayloadText p

variable {env : AnswerEnv} {m : SdpMedia}

theorem mem_sorted_payloads : p ∈ (env.sorted m).payloads ↔ p ∈ m.payloads :=
  (perm_insertionSort _ _).mem_iff

theorem formats_subset {m' : SdpMedia} (htransport : m'.transport = m.transport)
    (hfmt : m'.fmt = []) (h : ∀ q ∈ m'.payloads, ∃ p ∈ m.payloads, q.payloadType = p.payloadType) :
    m'.formats ⊆ m.formats := by
  rw [formats, formats, htransport, hfmt]
  split_ifs
  · intro f hf
    obtain ⟨q, hq, rfl⟩ := mem_map.1 hf
    obtain ⟨p, hp, hpt⟩ := h q hq
    exact mem_map.2 ⟨p, hp, by rw [hpt]⟩
  · intro f hf
    simp at hf

theorem mem_streamAnswer : q ∈ (env.sorted (env.streamAnswer m .new)).payloads ↔
    ∃ p ∈ m.payloads, env.payloadProvider.answerPayload p = some q := by
  rw [mem_sorted_payloads]
  exact mem_filterMap

theorem answersLine_accept (h : acceptable m = true) :
    AnswersLine m (env.sorted (env.streamAnswer m .new)) := by
  simp only [acceptable, Bool.and_eq_true, decide_eq_true_eq] at h
  have hsend : (!env.hold && m.recv) = true → m.recv = true :=
    fun hs => (Bool.and_eq_true_iff.1 hs).2
  have hrecv : (!env.remotehold && m.send) = true → m.send = true :=
    fun hs => (Bool.and_eq_true_iff.1 hs).2
  refine ⟨h.1.1.symm, h.1.2.symm, formats_subset h.1.2.symm rfl ?_, hsend, hrecv⟩
  intro q hq
  obtain ⟨p, hp, hpq⟩ := mem_streamAnswer.1 hq
  exact ⟨p, hp, payloadType_answerPayload hpq⟩

theorem freshLine_accept (hm : ParamsOk m.payloads) :
    FreshLine (env.sorted (env.streamAnswer m .new)) := by
  refine ⟨rfl, rfl, rfl, fun q hq => ?_⟩
  obtain ⟨p, hp, hpq⟩ := mem_streamAnswer.1 hq
  exact payloadText_answerPayload hpq (hm p hp)

theorem mem_rejectMedia : q ∈ (env.sorted (rejectMedia m)).payloads ↔
    ∃ p, m.payloads.head? = some p ∧
      { p with encodingName := [], sdpFormatParameters := [] } = q := by
  rw [mem_sorted_payloads, rejectMedia]
  simp

theorem answersLine_reject : AnswersLine m (env.sorted (rejectMedia m)) := by
  refine ⟨rfl, rfl, formats_subset rfl rfl ?_, nofun, nofun⟩
  intro q hq
  obtain ⟨p, hp, rfl⟩ := mem_rejectMedia.1 hq
  exact ⟨p, mem_of_head? hp, rfl⟩

theorem freshLine_reject : FreshLine (env.sorted (rejectMedia m)) := by
  refine ⟨rfl, rfl, rfl, fun q hq => ?_⟩
  obtain ⟨p, -, rfl⟩ := mem_rejectMedia.1 hq
  exact ⟨not_mem_nil, fun _ _ => not_mem_nil, fun h => absurd rfl h, fun _ _ => not_mem_nil⟩

/-- A line with formats. -/
theorem FreshLine.hasFormats (hm : FreshLine m) (h : m.formats ≠ []) : HasFormats m := by
  rw [formats, hm.fmt] at h
  split_ifs at h with hrtp
  · exact ⟨hrtp, fun hnil => h (by rw [hnil, map_nil])⟩
  · exact absurd rfl h

theorem formats_ne_nil (hm : HasFormats m) : m.formats ≠ [] := by
  rw [formats, if_pos hm.1]
  simpa using hm.2

theorem FreshLine.answerText (hm : FreshLine m) (hformats : HasFormats m) : AnswerText m :=
  ⟨hformats, hm.payloads, hm.conn, hm.attributes⟩

/-! ## Which answers can be read -/

instance (prov : PayloadProvider) (p : SdpPayload) : Decidable (prov.knows p) :=
  inferInstanceAs (Decidable (_ ∧ _ ∨ _))

/-- On the line that is accepted, the payload types the provider knows are not negative, which they
are from `2 ^ 31` on. -/
def AcceptOk (prov : PayloadProvider) (m : SdpMedia) : Prop :=
  ∀ p ∈ m.payloads, prov.knows p → 0 ≤ p.payloadType.toInt

instance (prov : PayloadProvider) (m : SdpMedia) : Decidable (AcceptOk prov m) :=
  inferInstanceAs (Decidable (∀ p ∈ m.payloads, prov.knows p → 0 ≤ p.payloadType.toInt))

/-- On a line that is rejected, the media type is known, the transport has payload types, and the
first of them is not negative. -/
def RejectOk (m : SdpMedia) : Prop :=
  m.type ≠ MT_NONE ∧ m.transport.isRtp = true ∧ ∃ p ∈ m.payloads.head?, 0 ≤ p.payloadType.toInt

instance (m : SdpMedia) : Decidable (RejectOk m) :=
  inferInstanceAs (Decidable (_ ∧ _ ∧ ∃ p ∈ m.payloads.head?, _))

/-- The condition on the lines of an offer. The first one that is acceptable is accepted. -/
def OfferOk (prov : PayloadProvider) : Bool → List SdpMedia → Prop
  | _, [] => True
  | first, m :: ms =>
    if AnswerEnv.acceptable m && first then AcceptOk prov m ∧ OfferOk prov false ms
    else RejectOk m ∧ OfferOk prov first ms

instance decidableOfferOk (prov : PayloadProvider) :
    ∀ (first : Bool) (ms : List SdpMedia), Decidable (OfferOk prov first ms)
  | _, [] => .isTrue trivial
  | first, m :: ms =>
    have := decidableOfferOk prov false ms
    have := decidableOfferOk prov first ms
    inferInstanceAs (Decidable (if AnswerEnv.acceptable m && first then
      AcceptOk prov m ∧ OfferOk prov false ms else RejectOk m ∧ OfferOk prov first ms))

theorem readable_accept (h : incompatible (env.streamAnswer m .new).payloads = false) :
    HasFormats (env.sorted (env.streamAnswer m .new)) ∧
        Readable (env.sorted (env.streamAnswer m .new)) ↔ AcceptOk env.payloadProvider m := by
  have hne : (env.sorted (env.streamAnswer m .new)).payloads ≠ [] := by
    obtain ⟨p, hp⟩ : ∃ p, p ∈ (env.streamAnswer m .new).payloads := by
      cases hps : (env.streamAnswer m .new).payloads with
      | nil => rw [hps] at h; exact Bool.noConfusion h
      | cons p ps => exact ⟨p, mem_cons_self⟩
    exact ne_nil_of_mem (mem_sorted_payloads.2 hp)
  constructor
  · rintro ⟨-, -, hread⟩ p hp hknows
    obtain ⟨q, hq⟩ := isSome_iff_exists.1 (isSome_answerPayload.2 hknows)
    rw [← payloadType_answerPayload hq]
    exact hread q (mem_streamAnswer.2 ⟨p, hp, hq⟩)
  · intro hok
    refine ⟨⟨rfl, hne⟩, (by decide : MT_AUDIO ≠ MT_NONE), fun q hq => ?_⟩
    obtain ⟨p, hp, hpq⟩ := mem_streamAnswer.1 hq
    rw [payloadType_answerPayload hpq]
    exact hok p hp (isSome_answerPayload.1 (isSome_iff_exists.2 ⟨q, hpq⟩))

theorem readable_reject : HasFormats (env.sorted (rejectMedia m)) ∧
    Readable (env.sorted (rejectMedia m)) ↔ RejectOk m := by
  constructor
  · rintro ⟨⟨hrtp, hne⟩, htype, hread⟩
    obtain ⟨q, hq⟩ := exists_mem_of_ne_nil _ hne
    have hpt := hread q hq
    obtain ⟨p, hp, rfl⟩ := mem_rejectMedia.1 hq
    exact ⟨htype, hrtp, p, hp, hpt⟩
  · rintro ⟨htype, hrtp, p, hp, hpt⟩
    refine ⟨⟨hrtp, ne_nil_of_mem (mem_rejectMedia.2 ⟨p, hp, rfl⟩)⟩, htype, fun q hq => ?_⟩
    obtain ⟨p', hp', rfl⟩ := mem_rejectMedia.1 hq
    obtain rfl := some.inj (hp.symm.trans hp')
    exact hpt

/-- The lines of an answer, one by one. -/
structure AnswersLines (env : AnswerEnv) (first : Bool) (offer answer : List SdpMedia) : Prop where
  lines : List.Forall₂ AnswersLine offer answer
  fresh : (∀ m ∈ offer, ParamsOk m.payloads) → ∀ m ∈ answer, FreshLine m
  ports : (answer.filter fun m => m.port ≠ 0).length ≤ first.toNat
  readable : (∀ m ∈ answer, HasFormats m ∧ Readable m) ↔ OfferOk env.payloadProvider first offer

theorem answersLines_answerMedia : ∀ {ms as : List SdpMedia} {first first' : Bool},
    env.answerMedia first ms = some (as, first') → AnswersLines env first ms as
  | [], as, first, first', h => by
    obtain ⟨rfl, -⟩ := Prod.mk.inj (some.inj h)
    exact ⟨.nil, fun _ => forall_mem_nil _, Nat.zero_le _, iff_of_true (forall_mem_nil _) trivial⟩
  | m :: ms, as, first, first', h => by
    rw [answerMedia] at h
    by_cases haccept : (acceptable m && first) = true
    · obtain ⟨hm, rfl⟩ := Bool.and_eq_true_iff.1 haccept
      dsimp only at h
      split_ifs at h with hinc
      obtain ⟨⟨rest, _⟩, hrest, h⟩ := map_eq_some_iff.1 h
      simp only [Prod.mk.injEq] at h
      obtain ⟨rfl, -⟩ := h
      have ih := answersLines_answerMedia hrest
      refine ⟨.cons (answersLine_accept hm) ih.lines, fun hparams => ?_, ?_, ?_⟩
      · obtain ⟨hp, hps⟩ := forall_mem_cons.1 hparams
        exact forall_mem_cons.2 ⟨freshLine_accept hp, ih.fresh hps⟩
      · have hports := ih.ports
        rw [Bool.toNat_false] at hports
        rw [filter_cons, Bool.toNat_true]
        split_ifs
        · rw [length_cons]
          omega
        · omega
      · rw [OfferOk, if_pos haccept, forall_mem_cons, ih.readable,
          readable_accept (Bool.eq_false_of_not_eq_true hinc)]
    · rw [if_neg haccept] at h
      obtain ⟨⟨rest, _⟩, hrest, h⟩ := map_eq_some_iff.1 h
      obtain ⟨rfl, -⟩ := h
      have ih := answersLines_answerMedia hrest
      refine ⟨.cons answersLine_reject ih.lines, fun hparams => ?_, ?_, ?_⟩
      · exact forall_mem_cons.2 ⟨freshLine_reject, ih.fresh (forall_mem_cons.1 hparams).2⟩
      · rw [filter_cons_of_neg]
        · exact ih.ports
        · exact (by decide : ¬ decide ((0 : BitVec 32) ≠ 0) = true)
      · rw [OfferOk, if_neg haccept, forall_mem_cons, ih.readable, readable_reject]

/-! ## The answer -/

/-- What an answer is to be. -/
structure AnswerOk (offer answer : AmSdp) : Prop where
  lines : List.Forall₂ AnswersLine offer.media answer.media
  formats : ∀ m ∈ answer.media, m.formats ≠ []
  ports : (answer.media.filter fun m => m.port ≠ 0).length ≤ 1
  printed : ∃ sdp, AmSdp.parse answer.print = .ok sdp ∧ sdp.media.map line = answer.media.map line

/-- What `answer` may hold before : attributes and an address that are printed as lines. -/
structure PlainSession (sdp : AmSdp) : Prop where
  origin : ∀ c, IsEnd c → c ∉ sdp.origin.conn.address
  attributes : ∀ a ∈ sdp.attributes, a.text ≠ [] ∧ ∀ c ∈ a.text, isPlain c = true

theorem plainSession_new : PlainSession .new :=
  ⟨fun _ _ => not_mem_nil, forall_mem_nil _⟩

theorem isAddress_advertisedIP (env : AnswerEnv) (addrType : AddressType) :
    IsAddress (env.advertisedIP addrType) := by
  rw [advertisedIP]
  cases hfind : env.rtpIfs.find? (hasAddrType addrType) with
  | some ip => exact env.rtpIfs_address ip (mem_of_find?_eq_some hfind)
  | none =>
    rw [getD_none, getLastD_eq_getLast?, getLast?_eq_some_getLast env.rtpIfs_ne_nil]
    exact env.rtpIfs_address _ (getLast_mem env.rtpIfs_ne_nil)

theorem getSdpAnswer_eq_some {offer answer₀ answer : AmSdp}
    (h : env.getSdpAnswer offer answer₀ = some answer) :
    AnswersLines env true offer.media answer.media ∧
      (PlainSession answer₀ → SessionText answer) := by
  rw [getSdpAnswer] at h
  cases hmedia : env.answerMedia true offer.media with
  | none =>
    rw [hmedia] at h
    exact absurd h nofun
  | some res =>
    obtain ⟨media, _ | _⟩ := res
    · rw [hmedia] at h
      obtain rfl := some.inj h
      refine ⟨answersLines_answerMedia hmedia, fun hsession => ?_⟩
      have hsems : '\n' ∉ "sems".toList ∧ '\x00' ∉ "sems".toList := by decide
      have haddress := isAddress_advertisedIP env
        (if offer.conn.address = [] then AT_V4 else offer.conn.addrType)
      exact ⟨fun c hc => hc.notMem hsems, hsession.origin, fun c hc => hc.notMem hsems,
        haddress.1, haddress.2, fun a ha => (hsession.attributes a ha).1,
        fun a ha => (hsession.attributes a ha).2⟩
    · rw [hmedia] at h
      exact absurd h nofun

/-- An answer is as it is to be exactly if each line of the offer meets the condition. -/
theorem answerOk_iff (env : AnswerEnv) (text : Str) {offer answer₀ answer : AmSdp}
    (hparse : AmSdp.parse text = .ok offer) (hsession : PlainSession answer₀)
    (h : env.getSdpAnswer offer answer₀ = some answer) :
    AnswerOk offer answer ↔ OfferOk env.payloadProvider true offer.media := by
  obtain ⟨hlines, htext⟩ := getSdpAnswer_eq_some h
  have hfresh := hlines.fresh (mediaParams_parse hparse)
  rw [← hlines.readable]
  constructor
  · intro hok
    have hformats : ∀ m ∈ answer.media, HasFormats m :=
      fun m hm => (hfresh m hm).hasFormats (hok.formats m hm)
    have hread := (readable_iff_parse_print (htext hsession) fun m hm =>
      (hfresh m hm).answerText (hformats m hm)).1 hok.printed
    exact fun m hm => ⟨hformats m hm, hread m hm⟩
  · intro hread
    refine ⟨hlines.lines, fun m hm => formats_ne_nil (hread m hm).1, hlines.ports, ?_⟩
    exact (readable_iff_parse_print (htext hsession) fun m hm =>
      (hfresh m hm).answerText (hread m hm).1).2 fun m hm => (hread m hm).2

/-! ## Two offers -/

/-- PCMU, as a codec module has it. -/
def pcmu : AmciPayload where
  payloadId := 0
  name := "PCMU".toList
  advertisedSampleRate := 8000
  channels := 1
  name_ne_nil := by decide
  name_token := all_eq_true.1 (by decide)
  rate_pos := by decide

def pcmuEnv : AnswerEnv where
  rtpIfs := ["10.0.0.1".toList]
  rtpIfs_ne_nil := by decide
  rtpIfs_address := by
    intro ip hip
    rw [mem_singleton.1 hip]
    have hchars : "10.0.0.1".toList.all (fun c => isPlain c && c != '/') = true := by decide
    exact ⟨by decide, fun c hc => by simpa using all_eq_true.1 hchars c hc⟩
  codecOrder := []
  payloadProvider := [pcmu]
  localPort := 40000
  hold := false
  remotehold := false

/-- A session with some media lines. -/
def offerText (media : String) : Str :=
  ("v=0\r\no=- 1 1 IN IP4 10.0.0.2\r\ns=-\r\nc=IN IP4 10.0.0.2\r\nt=0 0\r\n" ++ media).toList

/-- An audio line and a fax line. The fax line is rejected, and has no format. -/
theorem getSdpAnswer_fax :
    ((AmSdp.parse (offerText "m=audio 5004 RTP/AVP 0\r\nm=image 5006 udptl t38\r\n")).toOption.bind
      fun offer => (pcmuEnv.getSdpAnswer offer .new).map fun answer =>
        (offer.media.map formats, answer.media.map formats, answer.media.map SdpMedia.lineText)) =
      some ([[.payload 0], [.word "t38".toList]], [[.payload 0], []],
        ["audio 40000 RTP/AVP 0".toList, "image 0 udptl ".toList]) := by
  decide +kernel

theorem answerOk_iff_audio :
    ∃ offer answer, AmSdp.parse
        (offerText "m=audio 5004 RTP/AVP 0\r\nm=video 5006 RTP/AVP 34\r\n") = .ok offer ∧
      pcmuEnv.getSdpAnswer offer .new = some answer ∧ AnswerOk offer answer := by
  refine ⟨_, _, rfl, rfl, ?_⟩
  refine (answerOk_iff pcmuEnv (offerText "m=audio 5004 RTP/AVP 0\r\nm=video 5006 RTP/AVP 34\r\n")
    rfl plainSession_new rfl).2 ?_
  decide +kernel

end Sems
