import Sems.SdpAnswer
import Sems.DecimalText

/-!
# Printed lines and the parser

What the parser's pointers do in a line that ends with a carriage return and a line feed.
`parseText_line` takes such lines off one by one, and the lines of a media description do not change
what its m= line says (`lines_of_parseLines`). `parseSdpMedia_print` and `readable_of_parseSdpMedia`
say which m= lines are read as they were.
-/

namespace Sems

open List SdpPayload SdpMedia

open NetworkType AddressType MediaType TransProt SdpDirection

variable {s body rest : Str} {c : Char}

/-! ## Pointers -/

theorem getNextLine_cons (hc : c ≠ '\n') (h : c = '\r' → s.head? ≠ some '\n') :
    getNextLine (c :: s) = getNextLine s := by
  rw [getNextLine, if_neg hc]
  rintro s' rfl rfl
  exact h rfl rfl

theorem head?_append_crlf (h : '\n' ∉ s) : (s ++ CRLF ++ rest).head? ≠ some '\n' := by
  cases s with
  | nil => simp [CRLF]
  | cons c s =>
    rw [mem_cons, not_or] at h
    simpa using Ne.symm h.1

/-- A line ends with its line feed. -/
theorem getNextLine_line : ∀ {s : Str}, '\n' ∉ s → getNextLine (s ++ CRLF ++ rest) = rest
  | [], _ => rfl
  | c :: s, h => by
    rw [mem_cons, not_or] at h
    rw [cons_append, cons_append, getNextLine_cons (Ne.symm h.1) fun _ => head?_append_crlf h.2]
    exact getNextLine_line h.2

theorem lineLen_line : ∀ {s : Str}, (∀ c ∈ s, isPlain c = true) →
    lineLen (s ++ CRLF ++ rest) = s.length
  | [], _ => rfl
  | c :: s, h => by
    obtain ⟨hc, hs⟩ := forall_mem_cons.1 h
    obtain ⟨hcr, hlf, -⟩ := isPlain_iff.1 hc
    have hcons : lineLen (c :: (s ++ CRLF ++ rest)) = lineLen (s ++ CRLF ++ rest) + 1 := by
      rw [lineLen, if_neg hlf, if_neg hcr]
      exact fun _ hc' _ => hcr hc'
    rw [cons_append, cons_append, hcons, lineLen_line hs, length_cons]

theorem lineText_line (h : ∀ c ∈ s, isPlain c = true) : lineText (s ++ CRLF ++ rest) = s := by
  rw [lineText, lineLen_line h, append_assoc, take_left]

theorem containsBefore_append {x : Char} {next : Str} :
    ∀ s : Str, containsBefore c next (s ++ x :: next) = s.contains c
  | [] => by simp [containsBefore]
  | y :: s => by
    have hlen : (s ++ x :: next).length ≠ next.length := by
      simp only [length_append, length_cons]
      omega
    rw [cons_append, containsBefore, containsBefore_append s, decide_eq_true hlen,
      Bool.true_and, contains_cons]
    exact congrArg (· || s.contains c) (by rw [Bool.beq_eq_decide_eq, decide_eq_decide, eq_comm])

/-- A character is looked for in a printed line. -/
theorem containsBefore_line (hc : c ≠ '\r') :
    containsBefore c rest (s ++ CRLF ++ rest) = s.contains c := by
  have happ : s ++ CRLF ++ rest = (s ++ ['\r']) ++ '\n' :: rest := by simp [CRLF]
  rw [happ, containsBefore_append]
  simp [hc]

theorem parseUntil_append : ∀ {s : Str}, c ∉ s → parseUntil c (s ++ c :: rest) = some rest
  | [], _ => by simp [parseUntil]
  | x :: s, h => by
    rw [mem_cons, not_or] at h
    rw [cons_append, parseUntil, if_neg (Ne.symm h.1), parseUntil_append h.2]

theorem upTo_append (h : c ∉ s) : upTo c (s ++ c :: rest) = s := by
  rw [upTo, takeWhile_append_of_pos, takeWhile_cons_of_neg, append_nil]
  · simp
  · intro x hx
    simpa using ne_of_mem_of_not_mem hx h

theorem between_append (s next : Str) : between (s ++ next) next = s := by
  rw [between, length_append, Nat.add_sub_cancel, take_left]

theorem stringBefore_append {next : Str} {k : ℕ} (h : k ≤ s.length) :
    stringBefore (s ++ next) next k = .ok (s.take (s.length - k)) := by
  rw [stringBefore, length_append, if_neg (by omega), Nat.add_sub_cancel,
    take_append_of_le_length (by omega)]

/-! ## Line by line -/

theorem bind_eq_ok {ε α β : Type} {x : Except ε α} {f : α → Except ε β} {b : β} :
    (x >>= f) = .ok b ↔ ∃ a, x = .ok a ∧ f a = .ok b := by
  cases x <;> simp [bind, Except.bind]

theorem suffix_getNextLine : getNextLine s <:+ s.tail := by
  fun_induction getNextLine s with
  | case1 => exact suffix_rfl
  | case2 s => exact suffix_cons _ _
  | case3 s => exact suffix_rfl
  | case4 c s _ _ ih => exact ih.trans (tail_suffix s)

theorem modifyLast_cases {f : SdpMedia → Except SdpError SdpMedia} {sdp sdp' : AmSdp}
    (h : modifyLast f sdp = .ok sdp') : sdp'.media = sdp.media ∨
      ∃ ms m m', sdp.media = ms ++ [m] ∧ f m = .ok m' ∧ sdp'.media = ms ++ [m'] := by
  rw [modifyLast] at h
  cases hlast : sdp.media.getLast? with
  | none =>
    rw [hlast] at h
    exact .inl (by rw [Except.ok.inj h])
  | some m =>
    rw [hlast] at h
    obtain ⟨m', hm', h⟩ := bind_eq_ok.1 h
    obtain rfl := Except.ok.inj h
    obtain ⟨ms, hms⟩ := getLast?_eq_some_iff.1 hlast
    exact .inr ⟨ms, m, m', hms, hm', by rw [hms, dropLast_concat]⟩

/-- What the text of a line does to the media descriptions. -/
inductive MediaStep (s : Str) : List SdpMedia → List SdpMedia → Prop
  | same (ms) : MediaStep s ms ms
  | media {ms m} : parseSdpMedia s = .ok m → MediaStep s ms (ms ++ [m])
  | conn (ms m conn) : MediaStep s (ms ++ [m]) (ms ++ [{ m with conn }])
  | attr {ms m m'} : parseSdpAttr s m = .ok m' → MediaStep s (ms ++ [m]) (ms ++ [m'])

variable {st : SdpParseSt} {sdp sdp' : AmSdp}

theorem mediaStep_of_parseKnownLine {eq : Char} (h : parseKnownLine st c eq s sdp = .ok sdp') :
    MediaStep s sdp.media sdp'.media := by
  cases st with
  | SDP_DESCR =>
    rw [parseKnownLine, parseDescrLine] at h
    split_ifs at h
    all_goals first
      | (obtain rfl := Except.ok.inj h; exact .same _)
      | (obtain ⟨_, -, h⟩ := bind_eq_ok.1 h
         obtain rfl := Except.ok.inj h
         exact .same _)
  | SDP_MEDIA =>
    rw [parseKnownLine, parseMediaLine] at h
    split_ifs at h
    · obtain ⟨m, hm, h⟩ := bind_eq_ok.1 h
      obtain rfl := Except.ok.inj h
      exact .media hm
    · obtain ⟨conn, -, h⟩ := bind_eq_ok.1 h
      cases conn with
      | none => exact Except.ok.inj h ▸ .same _
      | some conn =>
        rcases modifyLast_cases h with hms | ⟨ms, m, m', hms, hm, hms'⟩
        · exact hms ▸ .same _
        · rw [hms, hms', ← Except.ok.inj hm]
          exact .conn ms m conn
    · rcases modifyLast_cases h with hms | ⟨ms, m, m', hms, hm, hms'⟩
      · exact hms ▸ .same _
      · rw [hms, hms']
        exact .attr hm
    · exact Except.ok.inj h ▸ .same _

/-- Every line takes one character at least. -/
theorem parseLine_cases {next : Str} (h : parseLine st c s sdp = .ok (next, sdp')) :
    next <:+ s ∧ ∃ body, body <:+ s ∧ MediaStep body sdp.media sdp'.media := by
  rw [parseLine.eq_def] at h
  split_ifs at h
  · obtain ⟨body, hbody, h⟩ := bind_eq_ok.1 h
    obtain ⟨_, hknown, h⟩ := bind_eq_ok.1 h
    obtain ⟨rfl, rfl⟩ := Prod.mk.inj (Except.ok.inj h)
    have hsuffix : body <:+ s := by
      rcases s with _ | ⟨x, s⟩
      · exact absurd hbody nofun
      · rw [← Except.ok.inj hbody]
        exact suffix_cons x s
    exact ⟨(suffix_getNextLine.trans (tail_suffix body)).trans hsuffix, body, hsuffix,
      mediaStep_of_parseKnownLine hknown⟩
  · cases st with
    | SDP_DESCR | SDP_MEDIA =>
      obtain ⟨rfl, rfl⟩ := Prod.mk.inj (Except.ok.inj h)
      exact ⟨suffix_getNextLine, s, suffix_rfl, .same _⟩

/-- The number of turns does not matter, if there are as many as characters. -/
theorem parseLines_eq : ∀ {n m : ℕ} {st : SdpParseSt} {s : Str} {sdp : AmSdp},
    s.length ≤ n → s.length ≤ m → parseLines n st s sdp = parseLines m st s sdp
  | n, m, st, [], sdp, _, _ => by cases n <;> cases m <;> rfl
  | n + 1, m + 1, st, c :: s, sdp, hn, hm => by
    rw [parseLines, parseLines]
    cases hline : parseLine (lineState st c) c s sdp with
    | error e => rfl
    | ok res =>
      have hlen := (parseLine_cases hline).1.length_le
      rw [length_cons] at hn hm
      exact parseLines_eq (by omega) (by omega)

/-- The parser on a text. -/
def parseText (st : SdpParseSt) (s : Str) (sdp : AmSdp) : Except SdpError AmSdp :=
  parseLines s.length st s sdp

theorem parseText_cons : parseText st (c :: s) sdp =
    (parseLine (lineState st c) c s sdp >>= fun res =>
      parseText (lineState st c) res.1 res.2) := by
  rw [parseText, length_cons, parseLines]
  cases hline : parseLine (lineState st c) c s sdp with
  | error e => rfl
  | ok res => exact parseLines_eq (parseLine_cases hline).1.length_le le_rfl

/-- A printed line is taken off. -/
theorem parseText_line (hknown : knownLine (lineState st c) c = true) (h : '\n' ∉ body) :
    parseText st (sdpLine c body ++ rest) sdp =
      (parseKnownLine (lineState st c) c '=' (body ++ CRLF ++ rest) sdp >>=
        parseText (lineState st c) rest) := by
  rw [sdpLine, cons_append, cons_append, parseText_cons, parseLine.eq_def, if_pos hknown]
  have hnext : getNextLine (body ++ CRLF ++ rest) = rest := getNextLine_line h
  generalize body ++ CRLF ++ rest = line at hnext ⊢
  subst hnext
  cases hline : parseKnownLine (lineState st c) c '=' line sdp with
  | error e => simp [isEqlNext, hline, bind, Except.bind]
  | ok res => simp [isEqlNext, hline, bind, Except.bind, pure, Except.pure]

/-! ## What the m= lines say -/

variable {pt : BitVec 32}
variable {f : SdpPayload → SdpPayload}

theorem updatePayload_types (hf : ∀ p : SdpPayload, p.payloadType = pt → (f p).payloadType = pt) :
    ∀ ps : List SdpPayload, (updatePayload pt f ps).map payloadType = ps.map payloadType
  | [] => rfl
  | p :: ps => by
    rw [updatePayload]
    split_ifs with hp
    · rw [map_cons, map_cons, hf p hp, hp]
    · rw [map_cons, map_cons, updatePayload_types hf ps]

theorem forall_updatePayload {P : SdpPayload → Prop} (pt : BitVec 32) (hf : ∀ p, P p → P (f p)) :
    ∀ {ps : List SdpPayload}, (∀ p ∈ ps, P p) → ∀ p ∈ updatePayload pt f ps, P p
  | [], h => h
  | p :: ps, h => by
    obtain ⟨hp, hps⟩ := forall_mem_cons.1 h
    rw [updatePayload]
    split_ifs
    · exact forall_mem_cons.2 ⟨hf p hp, hps⟩
    · exact forall_mem_cons.2 ⟨hp, forall_updatePayload pt hf hps⟩

variable {m m' : SdpMedia}

theorem line_eq_of_types (htype : m'.type = m.type) (hport : m'.port = m.port)
    (htransport : m'.transport = m.transport) (hfmt : m'.fmt = m.fmt)
    (hpayloads : m'.payloads.map payloadType = m.payloads.map payloadType) :
    m'.line = m.line := by
  have hformats : m'.formats = m.formats := by
    have hmap : ∀ ps : List SdpPayload, (ps.map fun p => SdpFormat.payload p.payloadType) =
        (ps.map payloadType).map .payload := fun ps => (map_map ..).symm
    rw [formats, formats, htransport, hfmt, hmap, hmap, hpayloads]
  rw [line, line, htype, hport, htransport, hformats]

/-- An attribute does not change what the m= line says. -/
theorem line_of_parseSdpAttr (h : parseSdpAttr s m = .ok m') : m'.line = m.line := by
  rw [parseSdpAttr] at h
  generalize splitAttr s = res at h
  obtain ⟨attr, value⟩ := res
  dsimp only at h
  split_ifs at h
  · obtain ⟨p, -, h⟩ := bind_eq_ok.1 h
    obtain rfl := Except.ok.inj h
    exact line_eq_of_types rfl rfl rfl rfl (updatePayload_types (fun _ _ => rfl) _)
  · obtain ⟨p, -, h⟩ := bind_eq_ok.1 h
    obtain rfl := Except.ok.inj h
    refine line_eq_of_types rfl rfl rfl rfl (updatePayload_types ?_ _)
    exact fun _ hp => hp
  · obtain rfl := Except.ok.inj h
    cases value with
    | none => rfl
    | some value =>
      rw [Option.elim_some, parseDirection]
      split_ifs <;> rfl
  all_goals
    obtain rfl := Except.ok.inj h
    rfl

theorem MediaStep.lines {ms ms' : List SdpMedia} (h : MediaStep s ms ms') :
    ms.map line <+: ms'.map line := by
  cases h with
  | same => exact prefix_rfl
  | media hm =>
    rw [map_append]
    exact prefix_append _ _
  | conn ms m conn =>
    rw [map_append, map_append]
    exact prefix_rfl
  | attr hm =>
    simp only [map_append, map_singleton, line_of_parseSdpAttr hm]
    exact prefix_rfl

/-- The rest of a text adds media lines only. -/
theorem lines_of_parseLines : ∀ {n : ℕ} {st : SdpParseSt} {s : Str} {sdp sdp' : AmSdp},
    parseLines n st s sdp = .ok sdp' → sdp.media.map line <+: sdp'.media.map line
  | 0, _, _, _, _, h => by
    rw [parseLines] at h
    · exact Except.ok.inj h ▸ prefix_rfl
    · nofun
  | n + 1, _, [], _, _, h => Except.ok.inj h ▸ prefix_rfl
  | n + 1, _, c :: s, _, _, h => by
    obtain ⟨⟨next, sdp₁⟩, hline, h⟩ := bind_eq_ok.1 h
    obtain ⟨-, body, -, hstep⟩ := parseLine_cases hline
    exact hstep.lines.trans (lines_of_parseLines h)

/-! ## The m= line -/

/-- A payload type as it is printed. -/
abbrev ptText (pt : BitVec 32) : Str :=
  long2str pt.toInt

theorem notMem_ptText (hc : c.isDigit = false) (hminus : c ≠ '-') : c ∉ ptText pt :=
  notMem_long2str hc hminus _

theorem ptText_ne_nil : ptText pt ≠ [] := by
  rw [ptText, long2str]
  split_ifs
  · exact cons_ne_nil _ _
  · exact Nat.toDigits_ne_nil

/-- A number that is not negative is read back. -/
theorem str2i_ptText (h : 0 ≤ pt.toInt) {tail : Str} (htail : EndsNumber tail) :
    str2i (ptText pt ++ tail) = some pt.toNat := by
  have hnat : pt.toInt = (pt.toNat : ℤ) := by
    rw [BitVec.toInt_eq_toNat_cond] at h ⊢
    split_ifs at h ⊢ with hlt
    · rfl
    · omega
  rw [ptText, hnat, long2str_natCast]
  exact str2i_toDigits pt.isLt htail

theorem str2i_ptText_neg (h : pt.toInt < 0) (tail : Str) : str2i (ptText pt ++ tail) = none := by
  rw [ptText, long2str_neg h]
  exact str2i_minus _

/-- The text of the formats after the first blank. -/
def formatsFrom (pt : BitVec 32) (pts : List (BitVec 32)) : Str :=
  ptText pt ++ pts.flatMap fun pt => ' ' :: ptText pt

theorem formatsFrom_cons (pt pt' : BitVec 32) (pts : List (BitVec 32)) :
    formatsFrom pt (pt' :: pts) = ptText pt ++ ' ' :: formatsFrom pt' pts := by
  simp [formatsFrom]

theorem length_lt_formatsFrom :
    ∀ (pts : List (BitVec 32)) (pt : BitVec 32), pts.length < (formatsFrom pt pts).length
  | [], pt => by
    rw [formatsFrom, flatMap_nil, append_nil]
    exact length_pos_of_ne_nil ptText_ne_nil
  | pt' :: pts, pt => by
    have hlt := length_lt_formatsFrom pts pt'
    rw [formatsFrom_cons, length_append, length_cons, length_cons]
    omega

theorem formatPayload_nonneg (type : MediaType) (h : 0 ≤ pt.toInt) (prev : Option ℕ) {tail : Str}
    (htail : EndsNumber tail) :
    formatPayload type prev (ptText pt ++ tail) = .ok (pt.toNat, .ofType type pt) := by
  rw [formatPayload, str2i_ptText h htail]
  simp

variable {type : MediaType}

/-- In the place of a negative number the one before is read. -/
theorem formatPayload_neg (h : pt.toInt < 0) {prev : Option ℕ} (hprev : ∀ n ∈ prev, n < 2 ^ 31)
    {tail : Str} {n : ℕ} {p : SdpPayload}
    (hok : formatPayload type prev (ptText pt ++ tail) = .ok (n, p)) : p.payloadType ≠ pt := by
  rw [formatPayload, str2i_ptText_neg h] at hok
  cases prev with
  | none => exact absurd hok nofun
  | some k =>
    have hk : k < 2 ^ 31 := hprev k rfl
    obtain ⟨-, rfl⟩ := Prod.mk.inj (Except.ok.inj hok)
    rintro rfl
    rw [ofType, BitVec.toInt_eq_toNat_cond, BitVec.toNat_ofNat,
      Nat.mod_eq_of_lt (by omega), if_pos (by omega)] at h
    omega

/-- The last format of a printed line, with the carriage return. -/
theorem lastFormat_line (s rest : Str) :
    ∃ tail, EndsNumber tail ∧ lastFormat (s ++ CRLF ++ rest) rest = s ++ tail := by
  rw [lastFormat, between_append]
  split_ifs
  · exact ⟨CRLF, endsNumber_cr, rfl⟩
  · refine ⟨['\r'], endsNumber_cr, ?_⟩
    have hcrlf : s ++ CRLF = (s ++ ['\r']) ++ ['\n'] := by simp [CRLF]
    rw [hcrlf, dropLast_concat]

section Formats

variable (type : MediaType) (rest : Str) (prev : Option ℕ) (n : ℕ) (pt : BitVec 32)

/-- The formats of a printed line, one by one. -/
theorem parseFormats_last : ∃ tail, EndsNumber tail ∧
    parseFormats type rest (n + 1) prev (formatsFrom pt [] ++ CRLF ++ rest) =
      (formatPayload type prev (ptText pt ++ tail) >>= fun res => pure [res.2]) := by
  have hs : formatsFrom pt [] = ptText pt := append_nil _
  obtain ⟨tail, htail, hlast⟩ := lastFormat_line (ptText pt) rest
  have hblank : ' ' ∉ ptText pt := notMem_ptText rfl (by decide)
  refine ⟨tail, htail, ?_⟩
  rw [hs, parseFormats, containsBefore_line (by decide), if_neg (by simpa using hblank), hlast,
    if_neg (by simp [ptText_ne_nil])]

theorem parseFormats_cons (pt' : BitVec 32) (pts : List (BitVec 32)) :
    parseFormats type rest (n + 1) prev (formatsFrom pt (pt' :: pts) ++ CRLF ++ rest) =
      (formatPayload type prev (ptText pt) >>= fun res =>
        parseFormats type rest n (some res.1) (formatsFrom pt' pts ++ CRLF ++ rest) >>=
          fun payloads => pure (res.2 :: payloads)) := by
  have hblank : ' ' ∉ ptText pt := notMem_ptText rfl (by decide)
  rw [parseFormats, containsBefore_line (by decide), if_pos (by simp [formatsFrom_cons]),
    formatsFrom_cons]
  have happ : ptText pt ++ ' ' :: formatsFrom pt' pts ++ CRLF ++ rest =
      ptText pt ++ ' ' :: (formatsFrom pt' pts ++ CRLF ++ rest) := by simp
  rw [happ, parseUntil_append hblank, upTo_append hblank]
  exact if_neg ptText_ne_nil

variable {type rest prev n pt}

/-- Formats that are not negative are read back. -/
theorem parseFormats_nonneg :
    ∀ {pts : List (BitVec 32)} {pt : BitVec 32} {prev : Option ℕ} {n : ℕ},
      (∀ pt' ∈ pt :: pts, 0 ≤ pt'.toInt) → pts.length < n →
        parseFormats type rest n prev (formatsFrom pt pts ++ CRLF ++ rest) =
          .ok ((pt :: pts).map (ofType type))
  | [], pt, prev, n + 1, h, _ => by
    obtain ⟨tail, htail, hparse⟩ := parseFormats_last type rest prev n pt
    rw [hparse, formatPayload_nonneg type (h pt (by simp)) prev htail]
    rfl
  | pt' :: pts, pt, prev, n + 1, h, hn => by
    obtain ⟨hpt, hpts⟩ := forall_mem_cons.1 h
    have hfirst := formatPayload_nonneg type hpt prev endsNumber_nil
    rw [append_nil] at hfirst
    rw [parseFormats_cons, hfirst]
    refine congrArg (· >>= fun payloads => pure (ofType type pt :: payloads))
      (parseFormats_nonneg hpts ?_)
    simpa using hn

/-- The formats that are read differ from the printed ones if one is negative. -/
theorem nonneg_of_parseFormats :
    ∀ {pts : List (BitVec 32)} {pt : BitVec 32} {prev : Option ℕ} {n : ℕ} {ps : List SdpPayload},
      (∀ k ∈ prev, k < 2 ^ 31) → pts.length < n →
        parseFormats type rest n prev (formatsFrom pt pts ++ CRLF ++ rest) = .ok ps →
          ps.map payloadType = pt :: pts → ∀ pt' ∈ pt :: pts, 0 ≤ pt'.toInt
  | [], pt, prev, n + 1, ps, hprev, _, hok, hps => by
    obtain ⟨tail, -, hparse⟩ := parseFormats_last type rest prev n pt
    rw [hparse] at hok
    obtain ⟨⟨k, p⟩, hfirst, hok⟩ := bind_eq_ok.1 hok
    obtain rfl := Except.ok.inj hok
    rw [forall_mem_singleton]
    by_contra hneg
    exact formatPayload_neg (not_le.1 hneg) hprev hfirst (List.cons.inj hps).1
  | pt' :: pts, pt, prev, n + 1, ps, hprev, hn, hok, hps => by
    rw [parseFormats_cons] at hok
    obtain ⟨⟨k, p⟩, hfirst, hok⟩ := bind_eq_ok.1 hok
    obtain ⟨ps', hrest, hok⟩ := bind_eq_ok.1 hok
    obtain rfl := Except.ok.inj hok
    obtain ⟨hp, hps'⟩ := List.cons.inj hps
    rw [← append_nil (ptText pt)] at hfirst
    have hpt : 0 ≤ pt.toInt := by
      by_contra hneg
      exact formatPayload_neg (not_le.1 hneg) hprev hfirst hp
    have hk : k = pt.toNat := by
      rw [formatPayload_nonneg type hpt prev endsNumber_nil] at hfirst
      exact (Prod.mk.inj (Except.ok.inj hfirst)).1.symm
    have hlt : pt.toNat < 2 ^ 31 := by
      rw [BitVec.toInt_eq_toNat_cond] at hpt
      split_ifs at hpt <;> omega
    refine forall_mem_cons.2 ⟨hpt, ?_⟩
    refine nonneg_of_parseFormats ?_ (by simpa using hn) hrest hps'
    rintro k' hk'
    obtain rfl := Option.some.inj hk'
    omega

end Formats

theorem media_type_print (h : type ≠ MT_NONE) : media_type (media_t_2_str type) = type := by
  cases type <;> first | exact absurd rfl h | decide

theorem transport_type_print {transport : TransProt} (h : transport.isRtp = true) :
    transport_type (transport_p_2_str transport) = transport := by
  cases transport <;> first | exact absurd h (by decide) | decide

theorem notMem_media_t_2_str (h : type ≠ MT_NONE) : ' ' ∉ media_t_2_str type := by
  cases type <;> first | exact absurd rfl h | decide

theorem notMem_transport_p_2_str {transport : TransProt} (h : transport.isRtp = true) :
    ' ' ∉ transport_p_2_str transport := by
  cases transport <;> first | exact absurd h (by decide) | decide

theorem parseMediaPort_print (port : BitVec 32) (s : Str) :
    parseMediaPort (int2str port ++ ' ' :: s) = .ok (port, 0, some s) := by
  have hblank : ' ' ∉ int2str port := notMem_toDigits rfl _
  have hslash : '/' ∉ int2str port := notMem_toDigits rfl _
  have hread : str2i (int2str port) = some port.toNat := by
    have hdigits := str2i_toDigits port.isLt endsNumber_nil
    rwa [append_nil] at hdigits
  rw [parseMediaPort, upTo_append hblank, if_neg (by simpa using hslash), parseUntil_append hblank,
    hread]
  simp
  rfl

/-- The media line that is read, with its formats. -/
def readMedia (m : SdpMedia) (payloads : List SdpPayload) : SdpMedia :=
  { new with
    type := m.type, port := m.port, transport := m.transport, dir := DirBoth, payloads }

/-- A character that ends a line or the text. -/
def IsEnd (c : Char) : Prop :=
  c = '\n' ∨ c = '\x00'

theorem isEnd_nl : IsEnd '\n' :=
  .inl rfl

theorem IsEnd.notMem (hc : IsEnd c) (h : '\n' ∉ s ∧ '\x00' ∉ s) : c ∉ s := by
  rcases hc with rfl | rfl
  · exact h.1
  · exact h.2

theorem IsEnd.ne {x : Char} (hc : IsEnd c) (h : '\n' ≠ x ∧ '\x00' ≠ x) : c ≠ x := by
  rcases hc with rfl | rfl
  · exact h.1
  · exact h.2

theorem IsEnd.notMem_toDigits (hc : IsEnd c) (n : ℕ) : c ∉ Nat.toDigits 10 n := by
  rcases hc with rfl | rfl <;> exact Sems.notMem_toDigits rfl n

theorem IsEnd.notMem_long2str (hc : IsEnd c) (n : ℤ) : c ∉ long2str n := by
  rcases hc with rfl | rfl <;> exact Sems.notMem_long2str rfl (by decide) n

theorem IsEnd.notMem_lineText (hc : IsEnd c) (hrtp : m.transport.isRtp = true) :
    c ∉ m.lineText := by
  have htype : c ∉ media_t_2_str m.type := hc.notMem (by cases m.type <;> decide)
  have htransport : c ∉ transport_p_2_str m.transport :=
    hc.notMem (by cases m.transport <;> decide)
  have hport : c ∉ int2str m.port := hc.notMem_toDigits _
  have hpts : ∀ p ∈ m.payloads, c ∉ ptText p.payloadType := fun p _ => hc.notMem_long2str _
  have hblank : c ≠ ' ' := hc.ne (by decide)
  rw [SdpMedia.lineText, SdpMedia.formatsText, if_pos hrtp]
  simpa [htype, htransport, hport, hblank] using hpts

/-- A printed m= line of a known type is read up to its formats. -/
theorem parseSdpMedia_formats {p : SdpPayload} {ps : List SdpPayload} (htype : m.type ≠ MT_NONE)
    (hrtp : m.transport.isRtp = true) (hps : m.payloads = p :: ps) :
    ∃ n, ps.length < n ∧ parseSdpMedia (m.lineText ++ CRLF ++ rest) =
      (parseFormats m.type rest n none
        (formatsFrom p.payloadType (ps.map payloadType) ++ CRLF ++ rest) >>=
          fun payloads => pure (readMedia m payloads)) := by
  have hnext : getNextLine (m.lineText ++ CRLF ++ rest) = rest :=
    getNextLine_line (isEnd_nl.notMem_lineText hrtp)
  have htext : m.lineText ++ CRLF ++ rest = media_t_2_str m.type ++ ' ' :: (int2str m.port ++ ' ' ::
      (transport_p_2_str m.transport ++ ' ' ::
        (formatsFrom p.payloadType (ps.map payloadType) ++ CRLF ++ rest))) := by
    rw [SdpMedia.lineText, SdpMedia.formatsText, if_pos hrtp, hps]
    simp [formatsFrom, flatMap_map]
  generalize hformats : formatsFrom p.payloadType (ps.map payloadType) ++ CRLF ++ rest =
    formats at htext ⊢
  have hlen : ps.length < formats.length := by
    have hlt := length_lt_formatsFrom (ps.map payloadType) p.payloadType
    rw [length_map] at hlt
    rw [← hformats, length_append, length_append]
    omega
  refine ⟨formats.length, hlen, ?_⟩
  calc parseSdpMedia (m.lineText ++ CRLF ++ rest)
      = (parseMediaPort (int2str m.port ++ ' ' :: (transport_p_2_str m.transport ++ ' ' :: formats))
          >>= fun res => deref res.2.2 >>= parseProto m.type rest res.1 res.2.1) := by
        rw [parseSdpMedia, hnext, htext, upTo_append (notMem_media_t_2_str htype),
          parseUntil_append (notMem_media_t_2_str htype), media_type_print htype]
        rfl
    _ = parseProto m.type rest m.port 0 (transport_p_2_str m.transport ++ ' ' :: formats) := by
        rw [parseMediaPort_print]
        rfl
    _ = _ := by
        rw [parseProto, upTo_append (notMem_transport_p_2_str hrtp), transport_type_print hrtp]
        rw [if_pos hrtp, parseUntil_append (notMem_transport_p_2_str hrtp)]
        rfl

/-- The m= lines that are read as they were. -/
def Readable (m : SdpMedia) : Prop :=
  m.type ≠ MT_NONE ∧ ∀ p ∈ m.payloads, 0 ≤ p.payloadType.toInt

/-- A media line whose formats are printed. -/
def HasFormats (m : SdpMedia) : Prop :=
  m.transport.isRtp = true ∧ m.payloads ≠ []

theorem parseSdpMedia_print (hm : HasFormats m) (h : Readable m) (rest : Str) :
    parseSdpMedia (m.lineText ++ CRLF ++ rest) =
      .ok (readMedia m (m.payloads.map fun p => .ofType m.type p.payloadType)) := by
  obtain ⟨p, ps, hps⟩ := exists_cons_of_ne_nil hm.2
  obtain ⟨n, hn, hparse⟩ := parseSdpMedia_formats h.1 hm.1 hps
  have hnonneg : ∀ pt ∈ p.payloadType :: ps.map payloadType, 0 ≤ pt.toInt := by
    have hall := h.2
    rw [hps] at hall
    simpa using hall
  rw [hparse, parseFormats_nonneg hnonneg (by rwa [length_map]), hps, map_cons, map_map]
  rfl

theorem line_readMedia {payloads : List SdpPayload} (hrtp : m.transport.isRtp = true)
    (h : (readMedia m payloads).line = m.line) :
    payloads.map payloadType = m.payloads.map payloadType := by
  have hformats : (readMedia m payloads).formats = m.formats :=
    congrArg SdpMediaLine.formats h
  have hrtp' : (readMedia m payloads).transport.isRtp = true := hrtp
  rw [formats, formats, if_pos hrtp, if_pos hrtp'] at hformats
  have hinj : Function.Injective SdpFormat.payload := fun _ _ => SdpFormat.payload.inj
  refine map_injective_iff.2 hinj ?_
  rw [map_map, map_map]
  exact hformats

/-- A line of an unknown type loses its transport : the text for the type has blanks. -/
theorem transport_of_parseSdpMedia (htype : m.type = MT_NONE)
    (h : parseSdpMedia (m.lineText ++ CRLF ++ rest) = .ok m') : m'.transport = TP_NONE := by
  have htext : m.lineText ++ CRLF ++ rest = "<unknown".toList ++ ' ' :: ("media".toList ++ ' ' ::
      ("type>".toList ++ ' ' :: (int2str m.port ++ ' ' :: transport_p_2_str m.transport ++
        m.formatsText ++ CRLF ++ rest))) := by
    have hunknown : media_t_2_str MT_NONE =
        "<unknown".toList ++ ' ' :: ("media".toList ++ ' ' :: "type>".toList) := by decide
    rw [SdpMedia.lineText, htype, hunknown]
    simp only [append_assoc, cons_append]
  generalize int2str m.port ++ ' ' :: transport_p_2_str m.transport ++ m.formatsText ++ CRLF ++
    rest = tail at htext
  rw [htext, parseSdpMedia, parseUntil_append (by decide)] at h
  obtain ⟨s₁, hs₁, h⟩ := bind_eq_ok.1 h
  obtain rfl := Except.ok.inj hs₁
  rw [parseMediaPort, upTo_append (by decide), if_neg (by decide),
    parseUntil_append (by decide)] at h
  obtain ⟨_, hport, h⟩ := bind_eq_ok.1 h
  obtain rfl := Except.ok.inj hport
  obtain ⟨_, hs₂, h⟩ := bind_eq_ok.1 h
  obtain rfl := Except.ok.inj hs₂
  exact (Except.ok.inj h) ▸ rfl

/-- The other lines are read differently. -/
theorem readable_of_parseSdpMedia (hm : HasFormats m)
    (h : parseSdpMedia (m.lineText ++ CRLF ++ rest) = .ok m') (hline : m'.line = m.line) :
    Readable m := by
  have htype : m.type ≠ MT_NONE := by
    intro htype
    have htransport : m'.transport = m.transport := congrArg SdpMediaLine.transport hline
    rw [transport_of_parseSdpMedia htype h] at htransport
    exact absurd (htransport ▸ hm.1) (by decide)
  obtain ⟨p, ps, hps⟩ := exists_cons_of_ne_nil hm.2
  obtain ⟨n, hn, hparse⟩ := parseSdpMedia_formats htype hm.1 hps
  rw [hparse] at h
  obtain ⟨payloads, hformats, h⟩ := bind_eq_ok.1 h
  obtain rfl := Except.ok.inj h
  have hpts := line_readMedia hm.1 hline
  rw [hps, map_cons] at hpts
  have hnonneg := nonneg_of_parseFormats (by simp) (by rwa [length_map]) hformats hpts
  refine ⟨htype, ?_⟩
  rw [hps]
  simpa using hnonneg

end Sems
