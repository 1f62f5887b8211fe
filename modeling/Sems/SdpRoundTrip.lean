import Sems.SdpLines

/-!
# Printed descriptions and the parser

What is read of the lines a session description is printed with. The attribute lines of a media
description leave what its m= line says (`ReadsAttrs`), so that a list of media descriptions is read
as it was exactly if each m= line is (`parseText_print`, `readable_of_parseText`).
`readable_iff_parse_print` is the same for a whole session description.
-/

namespace Sems

open List

open NetworkType AddressType MediaType TransProt SdpDirection

variable {s body rest : Str} {c : Char} {st : SdpParseSt} {sdp sdp' : AmSdp}

/-! ## Attributes -/

/-- No payload has a zero clock rate. -/
def RatesOk (ps : List SdpPayload) : Prop :=
  ∀ p ∈ ps, p.clockRate ≠ 0

/-- The attribute is read, and gives no payload a zero clock rate. -/
def ReadsAttr (body : Str) : Prop :=
  '\n' ∉ body ∧ ∀ (rest : Str) (m : SdpMedia), RatesOk m.payloads →
    ∃ m', parseSdpAttr (body ++ CRLF ++ rest) m = .ok m' ∧ RatesOk m'.payloads

variable {name : Str}
variable {value text address : Str}

theorem splitAttr_value (hname : ':' ∉ name) (h : '\n' ∉ name ++ ':' :: value) (rest : Str) :
    splitAttr (name ++ ':' :: value ++ CRLF ++ rest) = (name, some (value ++ CRLF ++ rest)) := by
  have happ : name ++ ':' :: value ++ CRLF ++ rest = name ++ ':' :: (value ++ CRLF ++ rest) := by
    simp
  rw [splitAttr, getNextLine_line h, containsBefore_line (by decide), if_pos (by simp), happ,
    upTo_append hname, parseUntil_append hname]
  rfl

theorem splitAttr_plain (hname : ':' ∉ name) (h : ∀ c ∈ name, isPlain c = true) :
    splitAttr (name ++ CRLF ++ rest) = (name, none) := by
  have hnl : '\n' ∉ name := fun hmem => absurd (h _ hmem) (by decide)
  rw [splitAttr, getNextLine_line hnl, containsBefore_line (by decide),
    if_neg (by simpa using hname), lineText_line h]

/-- A search that leaves the line ends behind it. -/
theorem length_of_parseUntil : ∀ {s next : Str}, parseUntil c s = some next → next.length < s.length
  | [], _, h => absurd h nofun
  | x :: s, next, h => by
    rw [parseUntil] at h
    split_ifs at h
    · obtain rfl := Option.some.inj h
      exact Nat.lt_succ_self _
    · exact (length_of_parseUntil h).trans (Nat.lt_succ_self _)

theorem parseUntil_append_of_notMem : ∀ {s : Str}, c ∉ s →
    parseUntil c (s ++ rest) = parseUntil c rest
  | [], _ => rfl
  | x :: s, h => by
    rw [mem_cons, not_or] at h
    rw [cons_append, parseUntil, if_neg (Ne.symm h.1), parseUntil_append_of_notMem h.2]

/-- A string up to the line end, with the carriage return. -/
theorem stringBefore_line (s rest : Str) {k : ℕ} (hk : k ≤ 1) :
    ∃ tail, EndsNumber tail ∧ stringBefore (s ++ CRLF ++ rest) rest k = .ok (s ++ tail) := by
  have hlen : k ≤ (s ++ CRLF).length := by
    rw [length_append]
    exact hk.trans (Nat.le_add_left_of_le (by decide))
  rw [stringBefore_append hlen]
  rcases Nat.le_one_iff_eq_zero_or_eq_one.1 hk with rfl | rfl
  · exact ⟨CRLF, endsNumber_cr, by rw [Nat.sub_zero, take_length]⟩
  · refine ⟨['\r'], endsNumber_cr, ?_⟩
    have hcrlf : s ++ CRLF = (s ++ ['\r']) ++ ['\n'] := by simp [CRLF]
    have hcut : (s ++ ['\r'] ++ ['\n']).length - 1 = (s ++ ['\r']).length := by simp
    rw [hcrlf, hcut, take_left]

theorem parseEncParam_line (body rest : Str) (h : ' ' ∉ body) (n : ℕ) :
    ∃ param, parseEncParam rest n 0 (body ++ CRLF ++ rest) = .ok param := by
  have hlast : ∃ param : ℕ,
      (do return (str2i (← stringBefore (body ++ CRLF ++ rest) rest 1)).getD 0 :
        Except SdpError ℕ) = .ok param := by
    rw [stringBefore_append (by simp [CRLF])]
    exact ⟨_, rfl⟩
  cases n with
  | zero => exact hlast
  | succ n =>
    have hblank : ' ' ∉ body ++ CRLF := by simpa [CRLF] using h
    rw [parseEncParam, parseUntil_append_of_notMem hblank]
    cases hnext : parseUntil ' ' rest with
    | none => exact hlast
    | some next =>
      have hlt := length_of_parseUntil hnext
      dsimp only
      rw [if_neg (by omega)]
      exact hlast

/-- The text after the name of a payload. -/
def rateText (rate param : BitVec 32) : Str :=
  long2str rate.toInt ++ (if 0 < param.toInt then '/' :: long2str param.toInt else [])

theorem parseClkRate_line (rest : Str) {rate : BitVec 32} (hrate : 0 ≤ rate.toInt)
    (param : BitVec 32) :
    ∃ k, parseClkRate rest (rateText rate param ++ CRLF ++ rest) = .ok (rate.toNat, k) := by
  have hslash : ∀ pt : BitVec 32, '/' ∉ ptText pt := fun pt => notMem_ptText rfl (by decide)
  rw [parseClkRate, containsBefore_line (by decide), rateText]
  by_cases hparam : 0 < param.toInt
  · have happ : ptText rate ++ '/' :: ptText param ++ CRLF ++ rest =
        ptText rate ++ '/' :: (ptText param ++ CRLF ++ rest) := by simp
    have hread := str2i_ptText hrate endsNumber_nil
    rw [append_nil] at hread
    rw [if_pos hparam, if_pos (by simp), happ, parseUntil_append (hslash rate),
      upTo_append (hslash rate), hread]
    obtain ⟨k, hk⟩ := parseEncParam_line (ptText param) rest (notMem_ptText rfl (by decide))
      (ptText param ++ CRLF ++ rest).length
    refine ⟨k, ?_⟩
    exact congrArg (· >>= fun k => pure (rate.toNat, k)) hk
  · rw [if_neg hparam, append_nil, if_neg (by simpa using hslash rate)]
    obtain ⟨tail, htail, hstring⟩ := stringBefore_line (ptText rate) rest
      (by split_ifs <;> omega : (if rest = [] then 0 else 1) ≤ 1)
    rw [hstring]
    refine ⟨0, ?_⟩
    exact congrArg (fun n : Option ℕ => Except.ok (n.getD 0, 0)) (str2i_ptText hrate htail)

/-- A payload whose lines can be read : the name and the parameters have no line ends, and a payload
with a name has a clock rate. -/
structure PayloadText (p : SdpPayload) : Prop where
  slash : '/' ∉ p.encodingName
  name : ∀ c, IsEnd c → c ∉ p.encodingName
  rate : p.encodingName ≠ [] → 0 < p.clockRate.toInt
  params : ∀ c, IsEnd c → c ∉ p.sdpFormatParameters

theorem ne_zero_of_toInt_pos {x : BitVec 32} (h : 0 < x.toInt) : x ≠ 0 := by
  rintro rfl
  exact absurd h (by decide)

theorem rtpmapText_eq {p : SdpPayload} : p.rtpmapText = "rtpmap".toList ++ ':' ::
    (ptText p.payloadType ++ ' ' ::
      (p.encodingName ++ '/' :: rateText p.clockRate p.encodingParam)) := by
  have hname : "rtpmap:".toList = "rtpmap".toList ++ [':'] := by decide
  unfold SdpPayload.rtpmapText rateText
  rw [hname]
  generalize "rtpmap".toList = name
  simp only [append_assoc, cons_append, nil_append]

theorem IsEnd.notMem_rateText (hc : IsEnd c) {rate param : BitVec 32} :
    c ∉ rateText rate param := by
  have hslash : c ≠ '/' := hc.ne (by decide)
  rw [rateText]
  split_ifs <;> simp [hc.notMem_long2str, hslash]

variable {p : SdpPayload}

theorem IsEnd.notMem_rtpmapText (hc : IsEnd c) (hp : PayloadText p) : c ∉ p.rtpmapText := by
  rw [rtpmapText_eq]
  simp only [mem_append, mem_cons, not_or]
  exact ⟨hc.notMem (by decide), hc.ne (by decide), hc.notMem_long2str _, hc.ne (by decide),
    hp.name c hc, hc.ne (by decide), hc.notMem_rateText⟩

/-- An rtpmap line gives the payload its clock rate. -/
theorem rtpmapPayload_line (hp : PayloadText p) (hrate : 0 ≤ p.clockRate.toInt) (rest : Str) :
    ∃ q : SdpPayload, q.clockRate = p.clockRate ∧
      rtpmapPayload (p.rtpmapText ++ CRLF ++ rest) (some (ptText p.payloadType ++ ' ' ::
        (p.encodingName ++ '/' :: (rateText p.clockRate p.encodingParam ++ CRLF ++ rest)))) =
        .ok q := by
  have hblank : ' ' ∉ ptText p.payloadType := notMem_ptText rfl (by decide)
  have hcontains : containsBefore '/' rest (p.rtpmapText ++ CRLF ++ rest) = true := by
    rw [containsBefore_line (by decide), rtpmapText_eq]
    simp
  obtain ⟨k, hclk⟩ := parseClkRate_line rest hrate p.encodingParam
  rw [rtpmapPayload, getNextLine_line (isEnd_nl.notMem_rtpmapText hp), parseRtpmap,
    parseUntil_append hblank]
  generalize (str2i _).getD 0 = pt
  refine ⟨.named (.ofNat 32 pt) p.encodingName p.clockRate (.ofNat 32 k), rfl,
    (if_pos hcontains).trans ?_⟩
  rw [parseUntil_append hp.slash, upTo_append hp.slash]
  refine (congrArg (· >>= fun res : ℕ × ℕ => pure (SdpPayload.named (.ofNat 32 pt) p.encodingName
    (.ofNat 32 res.1) (.ofNat 32 res.2))) hclk).trans ?_
  simp [bind, Except.bind, pure, Except.pure]

theorem readsAttr_rtpmap (hp : PayloadText p) (hname : p.encodingName ≠ []) :
    ReadsAttr p.rtpmapText := by
  have hrate := hp.rate hname
  refine ⟨isEnd_nl.notMem_rtpmapText hp, fun rest m hm => ?_⟩
  obtain ⟨q, hq, hpayload⟩ := rtpmapPayload_line hp hrate.le rest
  have hsplit := splitAttr_value (by decide) (rtpmapText_eq ▸ isEnd_nl.notMem_rtpmapText hp) rest
  rw [← rtpmapText_eq] at hsplit
  simp only [append_assoc, cons_append] at hsplit hpayload
  rw [parseSdpAttr, append_assoc, hsplit]
  dsimp only
  rw [if_pos rfl, hpayload]
  refine ⟨_, rfl, forall_updatePayload _ (fun _ _ => ?_) hm⟩
  rw [hq]
  exact ne_zero_of_toInt_pos hrate

theorem fmtpText_eq : p.fmtpText = "fmtp".toList ++ ':' ::
    (ptText p.payloadType ++ ' ' :: p.sdpFormatParameters) := by
  have hname : "fmtp:".toList = "fmtp".toList ++ [':'] := by decide
  rw [SdpPayload.fmtpText, hname]
  generalize "fmtp".toList = name
  simp only [append_assoc, cons_append, nil_append]

theorem IsEnd.notMem_fmtpText (hc : IsEnd c) (hp : PayloadText p) : c ∉ p.fmtpText := by
  rw [fmtpText_eq]
  simp only [mem_append, mem_cons, not_or]
  exact ⟨hc.notMem (by decide), hc.ne (by decide), hc.notMem_long2str _, hc.ne (by decide),
    hp.params c hc⟩

theorem readsAttr_fmtp (hp : PayloadText p) : ReadsAttr p.fmtpText := by
  refine ⟨isEnd_nl.notMem_fmtpText hp, fun rest m hm => ?_⟩
  have hsplit := splitAttr_value (by decide) (fmtpText_eq ▸ isEnd_nl.notMem_fmtpText hp) rest
  rw [← fmtpText_eq] at hsplit
  have hparams : ∃ res, fmtpParams (p.fmtpText ++ CRLF ++ rest)
      (some (ptText p.payloadType ++ ' ' :: p.sdpFormatParameters ++ CRLF ++ rest)) = .ok res := by
    rw [fmtpParams, getNextLine_line (isEnd_nl.notMem_fmtpText hp), parseFmtp, between_append,
      if_pos (by simp)]
    exact ⟨_, rfl⟩
  obtain ⟨res, hres⟩ := hparams
  rw [parseSdpAttr, hsplit]
  dsimp only
  rw [if_neg (by decide), if_pos rfl, hres]
  refine ⟨_, rfl, forall_updatePayload res.1 ?_ hm⟩
  exact fun _ hq => hq

/-- The names of the attributes without a value. -/
def sendRecvNames : List Str :=
  ["sendrecv".toList, "sendonly".toList, "recvonly".toList, "inactive".toList]

theorem sendRecvText_mem {m : SdpMedia} : m.sendRecvText ∈ sendRecvNames := by
  rw [SdpMedia.sendRecvText]
  cases m.send <;> cases m.recv <;> decide

theorem readsAttr_sendRecvNames (h : name ∈ sendRecvNames) : ReadsAttr name := by
  have hnames : ∀ name ∈ sendRecvNames, '\n' ∉ name ∧ ':' ∉ name ∧ name.all isPlain = true ∧
      name ≠ "rtpmap".toList ∧ name ≠ "fmtp".toList := by decide
  obtain ⟨hnl, hcolon, hchars, hrtpmap, hfmtp⟩ := hnames name h
  refine ⟨hnl, fun rest m hm => ?_⟩
  rw [parseSdpAttr, splitAttr_plain hcolon (all_eq_true.1 hchars)]
  dsimp only
  rw [if_neg hrtpmap, if_neg hfmtp]
  split_ifs <;> exact ⟨_, rfl, hm⟩

theorem readsAttr_direction (h : '\n' ∉ value) :
    ReadsAttr ("direction".toList ++ ':' :: value) := by
  have hnl : '\n' ∉ "direction".toList ++ ':' :: value := by
    simp only [mem_append, mem_cons, not_or]
    exact ⟨by decide, by decide, h⟩
  refine ⟨hnl, fun rest m hm => ?_⟩
  rw [parseSdpAttr, splitAttr_value (by decide) hnl]
  dsimp only
  rw [if_neg (by decide), if_neg (by decide), if_pos rfl, Option.elim_some, parseDirection]
  refine ⟨_, rfl, ?_⟩
  split_ifs <;> exact hm

/-! ## Media descriptions -/

def SdpRates (sdp : AmSdp) : Prop :=
  ∀ m ∈ sdp.media, RatesOk m.payloads

/-- Attribute lines that are read, and leave what the m= lines say. -/
def ReadsAttrs (text : Str) : Prop :=
  ∀ (rest : Str) (sdp : AmSdp), sdp.media ≠ [] → SdpRates sdp → ∃ sdp',
    parseText .SDP_MEDIA (text ++ rest) sdp = parseText .SDP_MEDIA rest sdp' ∧
      sdp'.media.map SdpMedia.line = sdp.media.map SdpMedia.line ∧ sdp'.conn = sdp.conn ∧
        SdpRates sdp'

theorem readsAttrs_nil : ReadsAttrs [] :=
  fun _ sdp _ h => ⟨sdp, rfl, rfl, rfl, h⟩

theorem ReadsAttrs.append {text' : Str} (h : ReadsAttrs text) (h' : ReadsAttrs text') :
    ReadsAttrs (text ++ text') := by
  intro rest sdp hmedia hrates
  obtain ⟨sdp₁, hparse₁, hlines₁, hconn₁, hrates₁⟩ := h (text' ++ rest) sdp hmedia hrates
  have hmedia₁ : sdp₁.media ≠ [] := by
    intro hnil
    rw [hnil, map_nil, eq_comm, map_eq_nil_iff] at hlines₁
    exact hmedia hlines₁
  obtain ⟨sdp₂, hparse₂, hlines₂, hconn₂, hrates₂⟩ := h' rest sdp₁ hmedia₁ hrates₁
  refine ⟨sdp₂, ?_, hlines₂.trans hlines₁, hconn₂.trans hconn₁, hrates₂⟩
  rw [append_assoc, hparse₁, hparse₂]

theorem ReadsAttrs.flatMap {α : Type} {f : α → Str} :
    ∀ {l : List α}, (∀ a ∈ l, ReadsAttrs (f a)) → ReadsAttrs (l.flatMap f)
  | [], _ => readsAttrs_nil
  | a :: l, h => by
    obtain ⟨ha, hl⟩ := forall_mem_cons.1 h
    rw [flatMap_cons]
    exact ha.append (ReadsAttrs.flatMap hl)

theorem ReadsAttr.attrLine (h : ReadsAttr body) : ReadsAttrs (attrLine body) := by
  intro rest sdp hmedia hrates
  obtain ⟨ms, m, hms⟩ := (eq_nil_or_concat sdp.media).resolve_left hmedia
  rw [concat_eq_append] at hms
  have hm : RatesOk m.payloads := hrates m (by simp [hms])
  obtain ⟨m', hattr, hrates'⟩ := h.2 rest m hm
  have hline := line_of_parseSdpAttr hattr
  have hmodify : modifyLast (parseSdpAttr (body ++ CRLF ++ rest)) sdp =
      .ok { sdp with media := ms ++ [m'] } := by
    rw [modifyLast, hms, getLast?_concat, dropLast_concat]
    exact congrArg (· >>= fun m' => pure { sdp with media := ms ++ [m'] }) hattr
  refine ⟨{ sdp with media := ms ++ [m'] }, ?_, ?_, rfl, ?_⟩
  · rw [Sems.attrLine, parseText_line rfl h.1]
    exact congrArg (· >>= parseText .SDP_MEDIA rest) hmodify
  · simp [hms, hline]
  · intro m₁ hm₁
    rcases mem_append.1 hm₁ with hm₁ | hm₁
    · exact hrates m₁ (by rw [hms]; exact mem_append_left _ hm₁)
    · obtain rfl := mem_singleton.1 hm₁
      exact hrates'

theorem readsAttrs_options (hp : PayloadText p) : ReadsAttrs p.options := by
  rw [SdpPayload.options]
  refine ReadsAttrs.append ?_ ?_
  · split_ifs with hname
    · exact readsAttrs_nil
    · exact (readsAttr_rtpmap hp hname).attrLine
  · split_ifs
    · exact readsAttrs_nil
    · exact (readsAttr_fmtp hp).attrLine

theorem readsAttrs_directionLine {m : SdpMedia} : ReadsAttrs m.directionLine := by
  have hactive : "direction:active".toList = "direction".toList ++ ':' :: "active".toList := by
    decide
  have hpassive : "direction:passive".toList = "direction".toList ++ ':' :: "passive".toList := by
    decide
  have hboth : "direction:both".toList = "direction".toList ++ ':' :: "both".toList := by decide
  rw [SdpMedia.directionLine]
  cases m.dir with
  | DirBoth => exact hboth ▸ (readsAttr_direction (by decide)).attrLine
  | DirActive => exact hactive ▸ (readsAttr_direction (by decide)).attrLine
  | DirPassive => exact hpassive ▸ (readsAttr_direction (by decide)).attrLine
  | DirUndefined => exact readsAttrs_nil

/-- The media descriptions of an answer : they have formats, and neither a connection nor other
attributes. -/
structure AnswerText (m : SdpMedia) : Prop where
  formats : HasFormats m
  payloads : ∀ p ∈ m.payloads, PayloadText p
  conn : m.conn.address = []
  attributes : m.attributes = []

/-- The lines after the m= line. -/
def SdpMedia.attrLines (m : SdpMedia) : Str :=
  m.options ++ attrLine m.sendRecvText ++ m.directionLine

variable {m : SdpMedia}

open SdpMedia

theorem print_eq (hm : AnswerText m) :
    m.print ++ rest = sdpLine 'm' m.lineText ++ (m.attrLines ++ rest) := by
  rw [print, connLine, if_pos hm.conn, hm.attributes, attrLines]
  simp

theorem readsAttrs_attrLines (hm : AnswerText m) : ReadsAttrs m.attrLines := by
  rw [attrLines, options, if_pos hm.formats.1]
  exact ((ReadsAttrs.flatMap fun p hp => readsAttrs_options (hm.payloads p hp)).append
    (readsAttr_sendRecvNames sendRecvText_mem).attrLine).append readsAttrs_directionLine

/-- A media description is read from its m= line on. -/
theorem parseText_media (hm : AnswerText m) :
    parseText st (m.print ++ rest) sdp =
      (parseSdpMedia (m.lineText ++ CRLF ++ (m.attrLines ++ rest)) >>= fun m' =>
        parseText .SDP_MEDIA (m.attrLines ++ rest) { sdp with media := sdp.media ++ [m'] }) := by
  have hst : lineState st 'm' = .SDP_MEDIA := rfl
  rw [print_eq hm, parseText_line (by rw [hst]; rfl) (isEnd_nl.notMem_lineText hm.formats.1), hst]
  generalize m.lineText ++ CRLF ++ (m.attrLines ++ rest) = text
  cases hparse : parseSdpMedia text with
  | error e => simp [parseKnownLine, parseMediaLine, hparse, bind, Except.bind]
  | ok m' => simp [parseKnownLine, parseMediaLine, hparse, bind, Except.bind, pure, Except.pure]

theorem line_readMedia_ofType (hm : HasFormats m) :
    (readMedia m (m.payloads.map fun p => .ofType m.type p.payloadType)).line = m.line := by
  have hrtp : (readMedia m (m.payloads.map fun p =>
      .ofType m.type p.payloadType)).transport.isRtp = true := hm.1
  have hformats : (readMedia m (m.payloads.map fun p =>
      .ofType m.type p.payloadType)).formats = m.formats := by
    rw [formats, formats, if_pos hm.1, if_pos hrtp]
    exact map_map ..
  rw [line, hformats]
  rfl

theorem ratesOk_ofType {type : MediaType} {ps : List SdpPayload} :
    RatesOk (ps.map fun p => .ofType type p.payloadType) := by
  intro q hq
  obtain ⟨p, -, rfl⟩ := mem_map.1 hq
  exact (by decide : (-1 : BitVec 32) ≠ 0)

/-- A description that can be read is read. -/
theorem parseText_readable (hm : AnswerText m) (hread : Readable m) (hrates : SdpRates sdp) :
    ∃ sdp', parseText st (m.print ++ rest) sdp = parseText .SDP_MEDIA rest sdp' ∧
      sdp'.media.map line = sdp.media.map line ++ [m.line] ∧
        sdp'.conn = sdp.conn ∧ SdpRates sdp' := by
  obtain ⟨sdp', hparse, hlines, hconn, hrates'⟩ := readsAttrs_attrLines hm rest
    { sdp with
      media := sdp.media ++ [readMedia m (m.payloads.map fun p => .ofType m.type p.payloadType)] }
    (by simp) (forall_mem_append.2
      ⟨hrates, forall_mem_singleton.2 ratesOk_ofType⟩)
  refine ⟨sdp', ?_, ?_, hconn, hrates'⟩
  · rw [parseText_media hm, parseSdpMedia_print hm.formats hread]
    exact hparse
  · rw [hlines, map_append, map_singleton, line_readMedia_ofType hm.formats]

/-- The descriptions that can be read are read. -/
theorem parseText_print : ∀ {ms : List SdpMedia} {st : SdpParseSt} {sdp : AmSdp},
    (∀ m ∈ ms, AnswerText m) → (∀ m ∈ ms, Readable m) → SdpRates sdp →
      ∃ sdp', parseText st (ms.flatMap print) sdp = .ok sdp' ∧
        sdp'.media.map line = sdp.media.map line ++ ms.map line ∧
          sdp'.conn = sdp.conn ∧ SdpRates sdp'
  | [], st, sdp, _, _, hrates => ⟨sdp, rfl, (append_nil _).symm, rfl, hrates⟩
  | m :: ms, st, sdp, htext, hread, hrates => by
    obtain ⟨hm, hms⟩ := forall_mem_cons.1 htext
    obtain ⟨hm', hms'⟩ := forall_mem_cons.1 hread
    obtain ⟨sdp₁, hparse₁, hlines₁, hconn₁, hrates₁⟩ :=
      parseText_readable hm hm' hrates
    obtain ⟨sdp₂, hparse₂, hlines₂, hconn₂, hrates₂⟩ := parseText_print hms hms' hrates₁
    refine ⟨sdp₂, ?_, ?_, hconn₂.trans hconn₁, hrates₂⟩
    · rw [flatMap_cons, hparse₁, hparse₂]
    · rw [hlines₂, hlines₁, map_cons, append_assoc, singleton_append]

/-- Descriptions that are read as they were can be read. -/
theorem readable_of_parseText : ∀ {ms : List SdpMedia} {st : SdpParseSt} {sdp sdp' : AmSdp},
    (∀ m ∈ ms, AnswerText m) → SdpRates sdp →
      parseText st (ms.flatMap print) sdp = .ok sdp' →
        sdp'.media.map line = sdp.media.map line ++ ms.map line → ∀ m ∈ ms, Readable m
  | [], _, _, _, _, _, _, _ => forall_mem_nil _
  | m :: ms, st, sdp, sdp', htext, hrates, hok, hlines => by
    obtain ⟨hm, hms⟩ := forall_mem_cons.1 htext
    rw [flatMap_cons] at hok
    have hread : Readable m := by
      rw [parseText_media hm] at hok
      obtain ⟨m', hm', hok⟩ := bind_eq_ok.1 hok
      -- the m= line stays in its place, so that it is the one that was printed
      have hpre := lines_of_parseLines hok
      rw [hlines, map_append, prefix_append_right_inj, map_singleton, map_cons,
        cons_prefix_cons] at hpre
      exact readable_of_parseSdpMedia hm.formats hm' hpre.1
    obtain ⟨sdp₁, hparse₁, hlines₁, -, hrates₁⟩ :=
      parseText_readable hm hread hrates
    rw [hparse₁] at hok
    refine forall_mem_cons.2 ⟨hread, readable_of_parseText hms hrates₁ hok ?_⟩
    rw [hlines, hlines₁, map_cons, append_assoc, singleton_append]

/-! ## The session -/

/-- A session whose lines can be read. -/
structure SessionText (sdp : AmSdp) : Prop where
  user : ∀ c, IsEnd c → c ∉ sdp.origin.user
  origin : ∀ c, IsEnd c → c ∉ sdp.origin.conn.address
  name : ∀ c, IsEnd c → c ∉ sdp.sessionName
  address_ne_nil : sdp.conn.address ≠ []
  address : ∀ c ∈ sdp.conn.address, isPlain c = true ∧ c ≠ '/'
  attributes_ne_nil : ∀ a ∈ sdp.attributes, a.text ≠ []
  attributes : ∀ a ∈ sdp.attributes, ∀ c ∈ a.text, isPlain c = true

theorem IsEnd.notMem_of_isPlain (hc : IsEnd c) (h : ∀ x ∈ s, isPlain x = true) : c ∉ s := by
  intro hmem
  rcases hc with rfl | rfl <;> exact absurd (h _ hmem) (by decide)

theorem IsEnd.notMem_addressText (hc : IsEnd c) (h : c ∉ s) : c ∉ AmSdp.addressText s := by
  rw [AmSdp.addressText]
  split_ifs
  · exact not_mem_append (hc.notMem (by decide)) h
  · exact not_mem_append (hc.notMem (by decide)) h

theorem IsEnd.notMem_originText (hc : IsEnd c) (h : SessionText sdp) : c ∉ sdp.originText := by
  have haddress : c ∉ sdp.originAddress := by
    rw [AmSdp.originAddress]
    split_ifs
    · exact hc.notMem_addressText (h.origin c hc)
    · exact hc.notMem_addressText (hc.notMem_of_isPlain fun x hx => (h.address x hx).1)
    · exact absurd h.address_ne_nil ‹_›
  rw [AmSdp.originText, int2str]
  simp only [mem_append, mem_cons, not_or]
  exact ⟨⟨⟨⟨h.user c hc, hc.ne (by decide), hc.notMem_toDigits _⟩, hc.ne (by decide),
    hc.notMem_toDigits _⟩, hc.notMem (by decide)⟩, haddress⟩

theorem parseText_descr (hst : lineState .SDP_DESCR c = .SDP_DESCR)
    (hknown : knownLine .SDP_DESCR c = true) (hnl : '\n' ∉ body)
    (h : parseDescrLine c '=' (body ++ CRLF ++ rest) sdp = .ok sdp') :
    parseText .SDP_DESCR (sdpLine c body ++ rest) sdp = parseText .SDP_DESCR rest sdp' := by
  rw [parseText_line (hst.symm ▸ hknown) hnl, hst]
  exact congrArg (· >>= parseText .SDP_DESCR rest) h

/-- The address of the c= line is read. -/
theorem parseSdpConnection_line {pre : Str} (hpre : pre = "IN IP4 ".toList ∨ pre = "IN IP6 ".toList)
    (hne : address ≠ []) (h : ∀ c ∈ address, isPlain c = true ∧ c ≠ '/') :
    ∃ conn, parseSdpConnection (pre ++ address ++ CRLF ++ rest) = .ok (some conn) ∧
      conn.address = address := by
  have hlen : pre.length = 7 := by rcases hpre with rfl | rfl <;> decide
  have hplain : ∀ c ∈ pre ++ address, isPlain c = true := by
    have hpreplain : pre.all isPlain = true := by rcases hpre with rfl | rfl <;> decide
    exact forall_mem_append.2 ⟨all_eq_true.1 hpreplain, fun c hc => (h c hc).1⟩
  have hslash : '/' ∉ address := fun hmem => (h _ hmem).2 rfl
  have hpos : 0 < address.length := length_pos_of_ne_nil hne
  have htext : pre ++ address ++ CRLF ++ rest = pre ++ (address ++ CRLF ++ rest) := by
    simp only [append_assoc]
  have hdrop : (pre ++ address ++ CRLF ++ rest).drop 7 = address ++ CRLF ++ rest := by
    rw [htext, ← hlen, drop_left]
  have htype : ((pre ++ address ++ CRLF ++ rest).drop 3).take 3 = (pre.drop 3).take 3 := by
    rw [htext, drop_append_of_le_length (by omega), take_append_of_le_length]
    rw [length_drop]
    omega
  have hconn : connAddress (pre ++ address ++ CRLF ++ rest) = .ok address := by
    rw [connAddress, hdrop, getNextLine_line (isEnd_nl.notMem_of_isPlain hplain),
      containsBefore_line (by decide), if_neg (by simpa using hslash), lineLen_line hplain,
      length_append, hlen, Nat.add_sub_cancel_left, append_assoc, take_left]
  have hlong : ¬ lineLen (pre ++ address ++ CRLF ++ rest) ≤ 7 := by
    rw [lineLen_line hplain, length_append, hlen]
    omega
  rw [parseSdpConnection, if_neg hlong, htype, hconn]
  rcases hpre with rfl | rfl
  · exact ⟨⟨NT_IN, AT_V4, address⟩, rfl, rfl⟩
  · exact ⟨⟨NT_IN, AT_V6, address⟩, rfl, rfl⟩

theorem parseSdpConnection_print (hne : address ≠ [])
    (h : ∀ c ∈ address, isPlain c = true ∧ c ≠ '/') (rest : Str) :
    ∃ conn, parseSdpConnection ("IN ".toList ++ AmSdp.addressText address ++ CRLF ++ rest) =
      .ok (some conn) ∧ conn.address = address := by
  rw [AmSdp.addressText, ← append_assoc]
  split_ifs
  · exact parseSdpConnection_line (.inl rfl) hne h
  · exact parseSdpConnection_line (.inr rfl) hne h

theorem parseDescrLine_conn {conn : SdpConnection} (h : parseSdpConnection s = .ok (some conn)) :
    parseDescrLine 'c' '=' s sdp = .ok { sdp with conn } := by
  have hline : parseDescrLine 'c' '=' s sdp = (parseSdpConnection s >>= fun conn =>
      pure { sdp with conn := conn.getD sdp.conn }) := rfl
  rw [hline, h]
  rfl

theorem parseSessionAttr_print (hne : text ≠ []) (h : ∀ c ∈ text, isPlain c = true) (rest : Str) :
    ∃ attrs, parseSessionAttr '=' (text ++ CRLF ++ rest) = .ok attrs := by
  have hstrip : (text ++ CRLF).rdropWhile (fun c => c = '\n' || c = '\r') = text := by
    have hcrlf : text ++ CRLF = text ++ ['\r'] ++ ['\n'] := by simp [CRLF]
    rw [hcrlf, rdropWhile_concat_pos _ _ _ (by decide),
      rdropWhile_concat_pos _ _ _ (by decide), rdropWhile_eq_self_iff]
    intro hl
    obtain ⟨hcr, hlf, -⟩ := isPlain_iff.1 (h _ (getLast_mem hl))
    simp [hcr, hlf]
  rw [parseSessionAttr, if_neg (by simp [hne]), getNextLine_line (isEnd_nl.notMem_of_isPlain h),
    between_append, hstrip]
  dsimp only
  rw [if_neg hne]
  split_ifs <;> exact ⟨_, rfl⟩

/-- The attributes of the session add no media line. -/
theorem parseText_attributes (rest : Str) : ∀ {attrs : List SdpAttribute} (sdp : AmSdp),
    (∀ a ∈ attrs, a.text ≠ []) → (∀ a ∈ attrs, ∀ c ∈ a.text, isPlain c = true) →
      ∃ sdp', parseText .SDP_DESCR (attrs.flatMap SdpAttribute.print ++ rest) sdp =
        parseText .SDP_DESCR rest sdp' ∧ sdp'.media = sdp.media ∧ sdp'.conn = sdp.conn
  | [], sdp, _, _ => ⟨sdp, rfl, rfl, rfl⟩
  | a :: attrs, sdp, hne, hplain => by
    obtain ⟨hne, hnes⟩ := forall_mem_cons.1 hne
    obtain ⟨hplain, hplains⟩ := forall_mem_cons.1 hplain
    obtain ⟨as, has⟩ := parseSessionAttr_print hne hplain (attrs.flatMap SdpAttribute.print ++ rest)
    obtain ⟨sdp', hparse, hmedia, hconn⟩ := parseText_attributes rest
      { sdp with attributes := sdp.attributes ++ as } hnes hplains
    refine ⟨sdp', ?_, hmedia, hconn⟩
    rw [flatMap_cons, append_assoc, SdpAttribute.print, attrLine,
      parseText_descr rfl (by decide) (isEnd_nl.notMem_of_isPlain hplain), hparse]
    exact congrArg (· >>= fun as => pure { sdp with attributes := sdp.attributes ++ as }) has

/-- The lines before the media descriptions are read up to the connection. -/
theorem parseText_session (h : SessionText sdp) : ∃ sdp',
    parseText .SDP_DESCR sdp.print .new =
        parseText .SDP_DESCR (sdp.media.flatMap print) sdp' ∧
      sdp'.media = [] ∧ sdp'.conn.address = sdp.conn.address := by
  have hnl := isEnd_nl
  have hcline : '\n' ∉ "IN ".toList ++ AmSdp.addressText sdp.conn.address :=
    not_mem_append (by decide) (hnl.notMem_addressText
      (hnl.notMem_of_isPlain fun c hc => (h.address c hc).1))
  have hversion : '\n' ∉ int2str sdp.version := hnl.notMem_toDigits _
  rw [AmSdp.print, AmSdp.connLine, if_neg h.address_ne_nil]
  simp only [append_assoc]
  rw [parseText_descr rfl rfl hversion rfl, parseText_descr rfl rfl (hnl.notMem_originText h) rfl,
    parseText_descr rfl rfl (h.name _ hnl) rfl]
  generalize hrest : sdpLine 't' _ ++ _ = rest
  obtain ⟨conn, hconn, haddress⟩ := parseSdpConnection_print h.address_ne_nil h.address rest
  rw [parseText_descr rfl rfl hcline (parseDescrLine_conn hconn), ← hrest,
    parseText_descr rfl rfl (by decide) rfl]
  obtain ⟨sdp', hparse, hmedia, hconn'⟩ := parseText_attributes
    (sdp.media.flatMap print) _ h.attributes_ne_nil h.attributes
  exact ⟨sdp', hparse, hmedia, by rw [hconn']; exact haddress⟩

/-! ## Whole descriptions -/

theorem nul_notMem_sdpLine (hc : '\x00' ≠ c) (h : '\x00' ∉ s) : '\x00' ∉ sdpLine c s := by
  rw [sdpLine]
  simp only [mem_cons, mem_append, not_or]
  exact ⟨hc, by decide, h, by decide⟩

theorem nul_notMem_options (hp : PayloadText p) : '\x00' ∉ p.options := by
  have hnul : IsEnd '\x00' := .inr rfl
  rw [SdpPayload.options]
  refine not_mem_append ?_ ?_
  · split_ifs
    · exact not_mem_nil
    · exact nul_notMem_sdpLine (by decide) (hnul.notMem_rtpmapText hp)
  · split_ifs
    · exact not_mem_nil
    · exact nul_notMem_sdpLine (by decide) (hnul.notMem_fmtpText hp)

theorem nul_notMem_media (hm : AnswerText m) : '\x00' ∉ m.print := by
  have hnul : IsEnd '\x00' := .inr rfl
  have hoptions : '\x00' ∉ m.options := by
    rw [options, if_pos hm.formats.1, mem_flatMap]
    rintro ⟨p, hp, hmem⟩
    exact nul_notMem_options (hm.payloads p hp) hmem
  have hsend : '\x00' ∉ m.sendRecvText := by
    have hnames : ∀ name ∈ sendRecvNames, '\x00' ∉ name := by decide
    exact hnames _ sendRecvText_mem
  have hdir : '\x00' ∉ m.directionLine := by
    rw [directionLine]
    cases m.dir <;> decide
  rw [print, connLine, if_pos hm.conn, hm.attributes, flatMap_nil]
  simp only [mem_append, not_or]
  exact ⟨⟨⟨⟨⟨nul_notMem_sdpLine (by decide) (hnul.notMem_lineText hm.formats.1), by decide⟩,
    hoptions⟩, nul_notMem_sdpLine (by decide) hsend⟩, by decide⟩, hdir⟩

theorem nul_notMem_print (hs : SessionText sdp) (hm : ∀ m ∈ sdp.media, AnswerText m) :
    '\x00' ∉ sdp.print := by
  have hnul : IsEnd '\x00' := .inr rfl
  have hconn : '\x00' ∉ "IN ".toList ++ AmSdp.addressText sdp.conn.address :=
    not_mem_append (by decide) (hnul.notMem_addressText
      (hnul.notMem_of_isPlain fun c hc => (hs.address c hc).1))
  rw [AmSdp.print, AmSdp.connLine, if_neg hs.address_ne_nil]
  simp only [mem_append, not_or, mem_flatMap, not_exists, not_and]
  refine ⟨⟨⟨⟨⟨⟨?_, ?_⟩, ?_⟩, ?_⟩, ?_⟩, ?_⟩, ?_⟩
  · exact nul_notMem_sdpLine (by decide) (hnul.notMem_toDigits _)
  · exact nul_notMem_sdpLine (by decide) (hnul.notMem_originText hs)
  · exact nul_notMem_sdpLine (by decide) (hs.name _ hnul)
  · exact nul_notMem_sdpLine (by decide) hconn
  · decide
  · exact fun a ha =>
      nul_notMem_sdpLine (by decide) (hnul.notMem_of_isPlain (hs.attributes a ha))
  · exact fun m hmem => nul_notMem_media (hm m hmem)

/-- The parser on a text without a NUL. -/
theorem parse_eq_ok (h : '\x00' ∉ s) : AmSdp.parse s = .ok sdp ↔
    parseText .SDP_DESCR s .new = .ok sdp ∧ sdp.lacksConnection = false ∧
      sdp.zeroClockRate = false := by
  have htext : s.takeWhile (· ≠ '\x00') = s := by
    rw [takeWhile_eq_self_iff]
    intro c hc
    simpa using ne_of_mem_of_not_mem hc h
  rw [AmSdp.parse, htext]
  constructor
  · intro hok
    obtain ⟨sdp₁, hparse, hok⟩ := bind_eq_ok.1 hok
    split_ifs at hok with hbad
    obtain rfl := Except.ok.inj hok
    rw [Bool.or_eq_true, not_or, Bool.not_eq_true, Bool.not_eq_true] at hbad
    exact ⟨hparse, hbad⟩
  · rintro ⟨hparse, hconn, hrate⟩
    refine bind_eq_ok.2 ⟨sdp, hparse, ?_⟩
    rw [hconn, hrate]
    rfl

theorem zeroClockRate_eq_false (h : SdpRates sdp) : sdp.zeroClockRate = false := by
  simpa [AmSdp.zeroClockRate, SdpRates, RatesOk] using h

/-- A printed session description is read with the same m= lines exactly if each of them can be
read. -/
theorem readable_iff_parse_print (hs : SessionText sdp) (hm : ∀ m ∈ sdp.media, AnswerText m) :
    (∃ sdp', AmSdp.parse sdp.print = .ok sdp' ∧
      sdp'.media.map line = sdp.media.map line) ↔ ∀ m ∈ sdp.media, Readable m := by
  obtain ⟨sdp₀, hparse₀, hmedia₀, hconn₀⟩ := parseText_session hs
  have hrates₀ : SdpRates sdp₀ := by
    rw [SdpRates, hmedia₀]
    exact forall_mem_nil _
  have hlines₀ : sdp.media.map line = sdp₀.media.map line ++ sdp.media.map line := by
    rw [hmedia₀, map_nil, nil_append]
  simp only [parse_eq_ok (nul_notMem_print hs hm), hparse₀]
  constructor
  · rintro ⟨sdp', ⟨hok, -, -⟩, hlines⟩
    exact readable_of_parseText hm hrates₀ hok (hlines.trans hlines₀)
  · intro hread
    obtain ⟨sdp', hok, hlines, hconn, hrates⟩ := parseText_print hm hread hrates₀
    refine ⟨sdp', ⟨hok, ?_, zeroClockRate_eq_false hrates⟩, hlines.trans hlines₀.symm⟩
    rw [AmSdp.lacksConnection, hconn, hconn₀, decide_eq_false hs.address_ne_nil, Bool.false_and]

end Sems
