import Sems.FramerRefine
import Sems.SipParser

/-!
# The framer and the message parser

A message that `parse_sip_msg` accepts was cut out of a stream by `skip_sip_msg_async`. The two
read the headers with the same machine, but differ where a header has no value, where the headers
end without an empty line, and in the number of a Content-Length.

`AlikeFramed` says of a text that none of these is there. For the messages that carry a
Content-Length and end with their body, it is what the framer needs to find the end of the
message.
-/

namespace Sems

open List FlParser

/-! ## The first line -/

/-- The kinds of states of `parse_first_line`, by what has been read there. -/
def FlInv (t : Str) (p : FlParser) : Prop :=
  match p.st with
  | .FL_METH => p.cur = t
  | .FL_SIPVER1 | .FL_SIPVER2 | .FL_SIPVER3 | .FL_SIPVER4 =>
    (∀ c ∈ t, isPlain c = true) ∧ (p.isRequest = false → p.cur = t)
  | .FL_ERR | .FL_BAD_VERSION => True
  | .ST_CR => p.saved ≠ .FL_BAD_VERSION → ∃ l, t = l ++ ['\r'] ∧ ∀ c ∈ l, isPlain c = true
  | .ST_LF | .ST_CRLF => p.saved ≠ .FL_BAD_VERSION → IsLine t
  | _ => ∀ c ∈ t, isPlain c = true

variable {c : Char}

theorem plain_concat {t : Str} (h : ∀ c ∈ t, isPlain c = true) (hc : isPlain c = true) :
    ∀ d ∈ t ++ [c], isPlain d = true := by
  intro d hd
  rcases mem_append.1 hd with hd | hd
  · exact h d hd
  · rwa [mem_singleton.1 hd]

/-- A class of characters without the ones that are not plain. -/
theorem isPlain_of {q : Char → Bool} (h : q '\r' = false ∧ q '\n' = false ∧ q '\x00' = false)
    (hc : q c = true) :
    isPlain c = true := by
  refine isPlain_iff.2 ⟨?_, ?_, ?_⟩ <;> rintro rfl
  · exact absurd hc (by rw [h.1]; decide)
  · exact absurd hc (by rw [h.2.1]; decide)
  · exact absurd hc (by rw [h.2.2]; decide)

section FlStep

variable {t : Str} {p q : FlParser}

theorem flInv_methChar (hcur : p.cur = t) (h : p.methChar c = .next q) : FlInv (t ++ [c]) q := by
  unfold methChar at h
  split_ifs at h with hsp
  · unfold parseMethod at h
    split_ifs at h with htok
    cases h
    refine plain_concat (fun d hd => ?_) (by rw [hsp]; decide)
    exact isPlain_of (by decide) (all_eq_true.1 htok d (hcur ▸ hd))
  · cases h
    show p.cur ++ [c] = t ++ [c]
    rw [hcur]

variable {st : FlState}

theorem flInv_verLetter {ok : Bool}
    (hinv : (∀ c ∈ t, isPlain c = true) ∧ (p.isRequest = false → p.cur = t))
    (hgoto : (∀ d ∈ t ++ [c], isPlain d = true) ∧ (p.isRequest = false → p.cur ++ [c] = t ++ [c]) →
      FlInv (t ++ [c]) (p.goto st c)) (h : p.verLetter ok st c = .next q)
    (hplain : ok = true → isPlain c = true) : FlInv (t ++ [c]) q := by
  unfold verLetter at h
  split_ifs at h with hok hreq
  · cases h
    exact hgoto ⟨plain_concat hinv.1 (hplain hok), fun hr => by rw [hinv.2 hr]⟩
  · exact flInv_methChar (hinv.2 (by simpa using hreq)) h
  · cases h
    trivial

variable (hinv : ∀ c ∈ t, isPlain c = true)
  (hgoto : (∀ d ∈ t ++ [c], isPlain d = true) → FlInv (t ++ [c]) (p.goto st c))

include hinv hgoto

theorem flInv_verDigit {ok : Bool} (h : p.verDigit ok st c = .next q)
    (hplain : ok = true → isPlain c = true) : FlInv (t ++ [c]) q := by
  unfold verDigit at h
  split_ifs at h with hok hreq <;> cases h
  · exact hgoto (plain_concat hinv (hplain hok))
  · trivial
  · trivial

theorem flInv_statDigit (h : p.statDigit st c = .next q) : FlInv (t ++ [c]) q := by
  unfold statDigit at h
  split_ifs at h with hd <;> cases h
  · exact hgoto (plain_concat hinv (isPlain_of (by decide) hd))
  · trivial

omit hinv hgoto

variable {other : Scan FlParser FirstLine ParseErr}

/-- A line end, in a state where everything before it is plain. -/
theorem flInv_caseCrLf (hplain : p.st ≠ .FL_BAD_VERSION → ∀ c ∈ t, isPlain c = true)
    (hother : c ≠ '\r' → c ≠ '\n' → other = .next q → FlInv (t ++ [c]) q)
    (h : p.caseCrLf c other = .next q) : FlInv (t ++ [c]) q := by
  unfold caseCrLf at h
  split_ifs at h with hcr hlf
  · cases h
    exact fun hs => ⟨t, by rw [hcr], hplain hs⟩
  · cases h
    exact fun hs => ⟨t, ['\n'], by rw [hlf], hplain hs, .inl rfl⟩
  · exact hother hcr hlf h

theorem flInv_char (hinv : FlInv t p) (h : p.char c = .next q) : FlInv (t ++ [c]) q := by
  unfold char at h
  by_cases h0 : c = '\x00'
  · rw [if_pos h0] at h
    cases h
  rw [if_neg h0] at h
  unfold FlInv at hinv
  cases hst : p.st with simp only [hst] at h hinv
  | FL_SIPVER1 | FL_SIPVER2 | FL_SIPVER3 => exact flInv_verLetter hinv id h (isPlain_of (by decide))
  | FL_SIPVER4 => exact flInv_verLetter hinv And.left h (isPlain_of (q := (· == '/')) (by decide))
  | FL_SIPVER_DIG1 => exact flInv_verDigit hinv id h (isPlain_of (q := (· == '2')) (by decide))
  | FL_SIPVER_SEP => exact flInv_verDigit hinv id h (isPlain_of (q := (· == '.')) (by decide))
  | FL_SIPVER_DIG2 =>
    refine flInv_verDigit hinv (fun hplain => ?_) h (isPlain_of (q := (· == '0')) (by decide))
    split_ifs <;> exact hplain
  | FL_METH => exact flInv_methChar hinv h
  | FL_RURI =>
    split_ifs at h with hsp hbad
    · cases hu : parseUri p.cur with
      | error e => simp [hu] at h
      | ok uri =>
        simp only [hu] at h
        cases h
        exact ⟨plain_concat hinv (by rw [hsp]; decide), fun hr => nomatch hr⟩
    · cases h
      simp only [not_or] at hbad
      simp only [push, hst]
      exact plain_concat hinv (isPlain_iff.2 ⟨hbad.1, hbad.2.1, h0⟩)
  | FL_SIPVER_SP | FL_STAT_SP =>
    split_ifs at h with hsp <;> cases h
    · exact plain_concat hinv (by rw [hsp]; decide)
    · trivial
  | FL_STAT1 | FL_STAT2 | FL_STAT3 => exact flInv_statDigit hinv id h
  | FL_REASON =>
    refine flInv_caseCrLf (fun _ => hinv) (fun hcr hlf hq => ?_) h
    cases hq
    simp only [push, hst]
    exact plain_concat hinv (isPlain_iff.2 ⟨hcr, hlf, h0⟩)
  | FL_EOL =>
    refine flInv_caseCrLf (fun _ => hinv) ?_ h
    intro _ _ hq
    cases hq
  | FL_ERR => cases h
  | FL_BAD_VERSION =>
    refine flInv_caseCrLf (fun hne => absurd hst hne) (fun _ _ hq => ?_) h
    cases hq
    unfold FlInv
    simp only [push, hst]
  | ST_CR =>
    split_ifs at h with hlf
    cases h
    intro hs
    obtain ⟨l, rfl, hl⟩ := hinv hs
    exact ⟨l, ['\r', '\n'], by simp [hlf], hl, .inr rfl⟩
  | ST_LF | ST_CRLF =>
    unfold finish at h
    split_ifs at h

/-- The loop reads the character, or fails. -/
def Scan.goesOn {σ ρ ε : Type} : Scan σ ρ ε → Bool
  | .next _ | .fail _ => true
  | .escape _ | .stop _ => false

theorem goesOn_methChar : (p.methChar c).goesOn = true := by
  unfold methChar
  split_ifs
  · cases parseMethod p.cur <;> rfl
  · rfl

theorem goesOn_caseCrLf (h : other.goesOn = true) : (p.caseCrLf c other).goesOn = true := by
  unfold caseCrLf
  split_ifs
  · rfl
  · rfl
  · exact h

/-- Only after the end of the line does the loop end. -/
theorem goesOn_char (hlf : p.st ≠ .ST_LF) (hcrlf : p.st ≠ .ST_CRLF) : (p.char c).goesOn = true := by
  unfold char
  split
  · rfl
  cases hst : p.st with dsimp only
  | FL_SIPVER1 | FL_SIPVER2 | FL_SIPVER3 | FL_SIPVER4 =>
    unfold verLetter
    split_ifs
    · rfl
    · exact goesOn_methChar
    · rfl
  | FL_METH => exact goesOn_methChar
  | FL_RURI =>
    split_ifs
    · cases parseUri p.cur <;> rfl
    · rfl
    · rfl
  | FL_REASON | FL_EOL | FL_BAD_VERSION => exact goesOn_caseCrLf rfl
  | ST_LF => exact absurd hst hlf
  | ST_CRLF => exact absurd hst hcrlf
  | FL_ERR => rfl
  | FL_SIPVER_DIG1 | FL_SIPVER_SEP | FL_SIPVER_DIG2 =>
    unfold verDigit
    split_ifs <;> rfl
  | FL_STAT1 | FL_STAT2 | FL_STAT3 =>
    unfold statDigit
    split_ifs <;> rfl
  | FL_SIPVER_SP | FL_STAT_SP | ST_CR => split_ifs <;> rfl

end FlStep

/-- After the end of the line. -/
theorem FlParser.finish_of_not_goesOn {p : FlParser} (h : (p.char c).goesOn = false) :
    (p.st = .ST_LF ∨ p.st = .ST_CRLF) ∧ p.char c = p.finish := by
  by_cases h0 : c = '\x00'
  · simp [char, h0, Scan.goesOn] at h
  by_cases hlf : p.st = .ST_LF
  · exact ⟨.inl hlf, by simp [char, hlf, h0]⟩
  by_cases hcrlf : p.st = .ST_CRLF
  · exact ⟨.inr hcrlf, by simp [char, hcrlf, h0]⟩
  · rw [goesOn_char hlf hcrlf] at h
    cases h

variable {s v M : Str}

/-- A first line that is accepted is a line. -/
theorem isLine_of_parseFirstLine {rest : Str} {fl : FirstLine}
    (h : parseFirstLine s = .ok (fl, rest)) :
    ∃ line c cs, s = line ++ rest ∧ IsLine line ∧ rest = c :: cs := by
  have hstart : FlInv [] start := ⟨by simp, fun _ => rfl⟩
  have hescape {t : Str} {p : FlParser} {c d : Char} {next : Char → FlParser} (_ : FlInv t p)
      (hesc : p.char c = .escape next) : FlInv (t ++ [c, d]) (next d) := by
    obtain ⟨-, hc⟩ := finish_of_not_goesOn (by rw [hesc]; rfl)
    rw [hesc, finish] at hc
    split_ifs at hc
  obtain ⟨line, p, hs, hinv, ⟨-, hfin⟩ | ⟨c, cs, rfl, hstop⟩⟩ :=
    scan_ok flInv_char hescape hstart h
  · cases hfin
  · refine ⟨line, c, cs, hs, ?_, rfl⟩
    obtain ⟨hst, hc⟩ := finish_of_not_goesOn (by rw [hstop]; rfl)
    have hbad : p.saved ≠ .FL_BAD_VERSION := by
      intro hbad
      rw [hstop, finish, if_pos hbad] at hc
      cases hc
    unfold FlInv at hinv
    rcases hst with hst | hst <;> rw [hst] at hinv <;> exact hinv hbad

variable {line : Str}

/-- A text has one first line. -/
theorem IsLine.eq_takeWhile (h : IsLine line) :
    line = (line ++ s).takeWhile (· != '\n') ++ ['\n'] := by
  obtain ⟨l, eol, rfl, hl, he⟩ := h
  have hlf : ∀ c ∈ l, (c != '\n') = true := by
    intro c hc
    simpa using (isPlain_iff.1 (hl c hc)).2.1
  rw [append_assoc, takeWhile_append_of_pos hlf]
  rcases he with rfl | rfl <;> simp

theorem IsLine.unique {line' s' : Str} (h : IsLine line) (h' : IsLine line')
    (heq : line ++ s = line' ++ s') : line = line' ∧ s = s' := by
  have hline : line = line' := by
    rw [h.eq_takeWhile, h'.eq_takeWhile, heq]
  subst hline
  exact ⟨rfl, append_cancel_left heq⟩

/-! ## A block of header fields -/

/-- The header of a field. -/
def HeaderField.header (f : HeaderField) : SipHeader :=
  ⟨parseHeaderType f.name, f.name, f.value⟩

theorem parseHeadersLoop_chars : ∀ {s : Str} {p q : HdrParser} (_ : p.chars s = some q)
    (hdrs : List SipHeader) (t : Str),
    parseHeadersLoop hdrs p (s ++ t) = parseHeadersLoop hdrs q t
  | [], p, q, h, hdrs, t => by
    cases h
    rfl
  | ch :: s, p, q, h, hdrs, t => by
    unfold HdrParser.chars at h
    split_ifs at h with h0
    rw [cons_append, parseHeadersLoop, if_neg h0]
    cases hc : p.char ch with
    | next p' =>
      rw [hc] at h
      exact parseHeadersLoop_chars h hdrs t
    | _ => simp [hc] at h

variable {eol : Str}

/-- The empty line. -/
theorem parseHeadersLoop_emptyLine (he : IsEol eol) (hdrs : List SipHeader) (body : Str) :
    parseHeadersLoop hdrs (HdrParser.start []) (eol ++ body) = .ok (hdrs, body) := by
  rw [parseHeadersLoop_chars (HdrParser.chars_eol he (.inl rfl))]
  rcases he with rfl | rfl <;> cases body <;>
    simp [parseHeadersLoop, parseHeadersEnd, HdrParser.eolState, HdrParser.start, HState.eolLen,
      HdrParser.char, HdrParser.afterEol]

/-- `parse_headers` over complete fields and an empty line. -/
theorem parseHeadersLoop_fields (he : IsEol eol) (body : Str) :
    ∀ {fs : List HeaderField} (_ : Unfolded fs) (hdrs : List SipHeader),
      parseHeadersLoop hdrs (HdrParser.start []) (fieldsText fs ++ eol ++ body) =
        .ok (hdrs ++ fs.map HeaderField.header, body)
  | [], _, hdrs => by
    rw [fieldsText_nil, nil_append, parseHeadersLoop_emptyLine he]
    simp
  | f :: fs, hu, hdrs => by
    obtain ⟨c, cs, htext, hw, h0⟩ := hu.exists_cons he body
    have hrec := parseHeadersLoop_fields he body hu.of_cons (hdrs ++ [f.header])
    rw [fieldsText_cons, append_assoc, append_assoc,
      parseHeadersLoop_chars (HdrParser.chars_field f []), ← append_assoc, htext]
    rw [htext, parseHeadersLoop, if_neg h0] at hrec
    rw [parseHeadersLoop, if_neg h0, HdrParser.char_after_field f hw]
    simpa [HdrParser.char, HdrParser.start, addParsedHeader, HeaderField.header] using hrec

/-! ## The framer over a block -/

theorem frameHdrs_chars : ∀ {s : Str} {p q : HdrParser} (_ : p.chars s = some q) (n used : ℕ)
    (t : Str), frameHdrs p n used (s ++ t) = frameHdrs q n (used + s.length) t
  | [], p, q, h, n, used, t => by
    cases h
    rfl
  | ch :: s, p, q, h, n, used, t => by
    unfold HdrParser.chars at h
    split_ifs at h with h0
    rw [cons_append, frameHdrs, if_neg h0]
    cases hc : p.char ch with
    | next p' =>
      rw [hc] at h
      refine (frameHdrs_chars h n (used + 1) t).trans ?_
      rw [length_cons, Nat.add_assoc, Nat.add_comm 1]
    | _ => simp [hc] at h

theorem frameHdrs_fields (he : IsEol eol) (body : Str) {k : ℕ} :
    ∀ {fs : List HeaderField} (_ : Unfolded fs) (n used : ℕ), contentLens n fs = some k →
      frameHdrs (HdrParser.start []) n used (fieldsText fs ++ eol ++ body) =
        frameBody k (used + (fieldsText fs ++ eol).length) body
  | [], _, n, used, hk => by
    cases hk
    rw [fieldsText_nil, nil_append,
      frameHdrs_chars (HdrParser.chars_eol he (.inl rfl)),
      frameHdrs_emptyLine (by rcases he with rfl | rfl; exacts [.inl rfl, .inr rfl]) rfl]
    rw [if_pos (by simp [HdrParser.start, HdrParser.eolLen_eolState he])]
  | f :: fs, hu, n, used, hk => by
    obtain ⟨c, cs, htext, hw, h0⟩ := hu.exists_cons he body
    obtain ⟨j, hj, hk⟩ := Option.bind_eq_some_iff.1 hk
    have hrec := frameHdrs_fields he body hu.of_cons j (used + f.text.length) hk
    rw [fieldsText_cons, append_assoc, append_assoc,
      frameHdrs_chars (HdrParser.chars_field f []), ← append_assoc, htext]
    rw [htext, frameHdrs_start h0] at hrec
    rw [frameHdrs, if_neg h0, HdrParser.char_after_field f hw]
    dsimp only
    rw [hj]
    dsimp only
    rw [hrec]
    congr 1
    simp only [length_append]
    omega

theorem frameLine_plain : ∀ {l : Str} (_ : ∀ c ∈ l, isPlain c = true) (used : ℕ) (t : Str),
    frameLine .H_NAME used (l ++ t) = frameLine .H_NAME (used + l.length) t
  | [], _, used, t => rfl
  | ch :: l, hl, used, t => by
    obtain ⟨hcr, hlf, h0⟩ := isPlain_iff.1 (hl ch (by simp))
    rw [cons_append, frameLine, if_neg h0, if_neg hcr, if_neg hlf,
      frameLine_plain (fun c hc => hl c (by simp [hc])), length_cons]
    congr 1
    omega

/-- The first line, and a character after it. -/
theorem frame_line (h : IsLine line) (h0 : c ≠ '\x00') (cs : Str) :
    frame (line ++ c :: cs) = frameHdrs (HdrParser.start []) 0 line.length (c :: cs) := by
  obtain ⟨l, eol, rfl, hl, he⟩ := h
  show frameLine .H_NAME 0 _ = _
  rw [append_assoc, frameLine_plain hl, frameHdrs_start h0, length_append]
  rcases he with rfl | rfl <;> simp [frameLine, h0]

/-! ## The number of a Content-Length -/

/-- A number `str2int` reads as `parse_sip_msg` does : ten digits at most, and no tab after
them. -/
def ReadsAlike (v : Str) : Prop :=
  (v.takeWhile isDigit).length ≤ 10 ∧ (v.dropWhile isDigit).head? ≠ some '\t'

instance (v : Str) : Decidable (ReadsAlike v) :=
  inferInstanceAs (Decidable (_ ∧ _))

/-- A value `skip_sip_msg_async` takes the same length from. One it cannot read leaves the
length 0. -/
def LengthAlike (v : Str) : Prop :=
  ReadsAlike v ∨ ∀ c ∈ v.takeWhile isDigit, c = '0'

theorem digitVal_eq_zero (h : isDigit c = true) : digitVal c = 0 ↔ c = '0' := by
  simp only [isDigit, isIn, Bool.and_eq_true, decide_eq_true_eq] at h
  constructor
  · intro h0
    unfold digitVal at h0
    exact Char.toNat_inj.1 (by show c.toNat = 0x30; omega)
  · rintro rfl
    rfl

/-- The two readers of a number, after `i` digits with the value `r`. -/
theorem digitsLoop_of_contentLengthDigits : ∀ {v : Str} {r n : ℕ} (i : ℕ), i ≤ 10 →
    contentLengthDigits r v = .ok n →
    digitsLoop INT_MAX r i v =
      if i + (v.takeWhile isDigit).length ≤ 10 ∧ (v.dropWhile isDigit).head? ≠ some '\t' then some n
      else none
  | [], r, n, i, hi, h => by
    cases h
    simp [digitsLoop, hi]
  | c :: cs, r, n, i, hi, h => by
    unfold contentLengthDigits at h
    split_ifs at h with hd hmax hw
    · have h0 : c ≠ '\x00' := by rintro rfl; exact absurd hd (by decide)
      rw [digitsLoop, if_neg h0, if_pos hd, if_neg hmax, takeWhile_cons_of_pos hd,
        dropWhile_cons_of_pos hd, length_cons]
      by_cases hlen : 10 < i + 1
      · rw [if_pos hlen, if_neg (by omega)]
      · rw [if_neg hlen, digitsLoop_of_contentLengthDigits (i + 1) (by omega) h, Nat.add_assoc,
          Nat.add_comm 1]
    · cases h
      obtain ⟨hcr, hlf, h0⟩ := isPlain_iff.1 (isPlain_of_isWsp hw)
      rw [digitsLoop, if_neg h0, if_neg hd, takeWhile_cons_of_neg hd, dropWhile_cons_of_neg hd]
      simp only [isWsp, Bool.or_eq_true, beq_iff_eq] at hw
      rcases hw with rfl | rfl <;> simp [hi]

/-- The number is 0 when all its digits are. -/
theorem contentLengthDigits_eq_zero : ∀ {v : Str} {r n : ℕ}, contentLengthDigits r v = .ok n →
    (n = 0 ↔ r = 0 ∧ ∀ c ∈ v.takeWhile isDigit, c = '0')
  | [], r, n, h => by
    cases h
    simp
  | c :: cs, r, n, h => by
    unfold contentLengthDigits at h
    split_ifs at h with hd hmax hw
    · rw [contentLengthDigits_eq_zero h, takeWhile_cons_of_pos hd]
      simp only [mem_cons, forall_eq_or_imp, ← digitVal_eq_zero hd, Nat.add_eq_zero_iff,
        Nat.mul_eq_zero]
      constructor
      · rintro ⟨⟨hr, hz⟩, hcs⟩
        exact ⟨by omega, hz, hcs⟩
      · rintro ⟨hr, hz, hcs⟩
        exact ⟨⟨.inl hr, hz⟩, hcs⟩
    · cases h
      simp [takeWhile_cons_of_neg hd]

variable {n : ℕ}

theorem contentLengthDigits_of_parse (hv : IsValue v) (h : parseContentLength v = .ok n) :
    contentLengthDigits 0 v = .ok n := by
  obtain ⟨c, cs, rfl, hw⟩ := hv.exists_cons
  unfold parseContentLength at h
  rwa [dropWhile_cons_of_neg (by simp [hw]), if_neg (by simp)] at h

/-- The number of a value that `parse_sip_msg` takes as a Content-Length. -/
theorem str2int_of_parseContentLength (hv : IsValue v) (h : parseContentLength v = .ok n) :
    str2int v = if ReadsAlike v then some (n : ℤ) else none := by
  replace h := contentLengthDigits_of_parse hv h
  obtain ⟨c, cs, rfl, hw⟩ := hv.exists_cons
  have hd : isDigit c = true := by
    unfold contentLengthDigits at h
    split_ifs at h with hd
    · exact hd
    · simp [hw] at *
  have hsp : c ≠ ' ' := by rintro rfl; exact absurd hd (by decide)
  have hminus : c ≠ '-' := by rintro rfl; exact absurd hd (by decide)
  have hloop : digitsLoop INT_MAX 0 0 (c :: cs) =
      if ReadsAlike (c :: cs) then some n else none := by
    rw [digitsLoop_of_contentLengthDigits 0 (Nat.zero_le _) h, Nat.zero_add]
    rfl
  unfold str2int
  rw [dropWhile_cons_of_neg (by simpa using hsp)]
  split
  · rename_i heq
    exact absurd (List.cons.inj heq).1 hminus
  · rw [hloop]
    split_ifs <;> rfl

variable {f : HeaderField} (hf : parseHeaderType f.name = .H_CONTENT_LENGTH)
  (h : parseContentLength f.value = .ok n)

include hf h

/-- The Content-Length after a field that `parse_sip_msg` reads as one of `n` bytes. -/
theorem contentLengthAfter_of_parseContentLength (m : ℕ) :
    contentLengthAfter m f.name f.value = some (if ReadsAlike f.value then n else m) := by
  have hname : f.name ≠ [] := by
    intro hnil
    rw [hnil] at hf
    cases hf
  unfold contentLengthAfter
  rw [if_pos ⟨hname, f.value_ok.ne_nil, hf⟩, str2int_of_parseContentLength f.value_ok h]
  split_ifs with hr
  · simp
  · rfl

/-- The framer takes the length of the message parser from a field. -/
theorem contentLengthAfter_eq_iff :
    contentLengthAfter 0 f.name f.value = some n ↔ LengthAlike f.value := by
  rw [contentLengthAfter_of_parseContentLength hf h]
  unfold LengthAlike
  by_cases hr : ReadsAlike f.value
  · simp [hr]
  · have hzero := contentLengthDigits_eq_zero (contentLengthDigits_of_parse f.value_ok h)
    simp only [hr, if_false, false_or, Option.some.injEq]
    rw [eq_comm, hzero]
    simp

omit hf h

/-! ## One Content-Length -/

def SipHeader.isContentLength (hdr : SipHeader) : Bool :=
  hdr.type == .H_CONTENT_LENGTH

variable {b : Bool}

theorem MsgHdrs.duplicated_of_add {h : MsgHdrs} {hdr : SipHeader} (hd : h.duplicated = true) :
    (h.add b hdr).duplicated = true := by
  unfold add file
  cases hdr.type with dsimp only
  | H_CALL_ID | H_CONTENT_LENGTH | H_FROM | H_TO | H_CSEQ => rw [hd, Bool.true_or]
  | H_RACK => split_ifs <;> exact hd
  | _ => exact hd

theorem MsgHdrs.duplicated_of_foldl : ∀ {hdrs : List SipHeader} {h : MsgHdrs},
    (hdrs.foldl (add b) h).duplicated = false → h.duplicated = false
  | [], h, hd => hd
  | hdr :: hdrs, h, hd => by
    have hadd : (h.add b hdr).duplicated = false := duplicated_of_foldl hd
    by_contra hne
    rw [duplicated_of_add (by simpa using hne)] at hadd
    cases hadd

/-- Without a header that is there twice, the Content-Length headers are at most one. -/
theorem MsgHdrs.contentLength_of_foldl : ∀ {hdrs : List SipHeader} {h : MsgHdrs},
    (hdrs.foldl (add b) h).duplicated = false →
    (hdrs.foldl (add b) h).contentLength.toList =
      h.contentLength.toList ++ hdrs.filter SipHeader.isContentLength
  | [], h, hd => by simp
  | hdr :: hdrs, h, hd => by
    have hadd : (h.add b hdr).duplicated = false := duplicated_of_foldl hd
    have hrec := contentLength_of_foldl (h := h.add b hdr) hd
    rw [foldl_cons, hrec]
    by_cases ht : hdr.type = .H_CONTENT_LENGTH
    · have hcl : (h.add b hdr).contentLength = some hdr := by simp [add, file, ht]
      have hnone : h.contentLength = none := by
        simp only [add, file, ht, Bool.or_eq_false_iff] at hadd
        simpa using hadd.2
      rw [filter_cons_of_pos (by simp [SipHeader.isContentLength, ht]), hcl, hnone]
      rfl
    · have hcl : (h.add b hdr).contentLength = h.contentLength := by
        unfold add file
        cases hty : hdr.type with dsimp only
        | H_CONTENT_LENGTH => exact absurd hty ht
        | H_RACK => split_ifs <;> rfl
      rw [filter_cons_of_neg (by simp [SipHeader.isContentLength, ht]), hcl]

/-- Only the fields with a Content-Length change it. -/
theorem contentLens_filter : ∀ (n : ℕ) (fs : List HeaderField),
    contentLens n fs = contentLens n (fs.filter (SipHeader.isContentLength ∘ HeaderField.header))
  | n, [] => rfl
  | n, f :: fs => by
    by_cases hf : (SipHeader.isContentLength ∘ HeaderField.header) f = true
    · rw [filter_cons_of_pos hf, contentLens, contentLens]
      congr 1
      funext k
      exact contentLens_filter k fs
    · have hsame : contentLengthAfter n f.name f.value = some n := by
        unfold contentLengthAfter
        rw [if_neg]
        rintro ⟨-, -, ht⟩
        exact hf (by simp [SipHeader.isContentLength, HeaderField.header, ht])
      rw [filter_cons_of_neg hf, contentLens, hsame, Option.bind_some, contentLens_filter]

/-! ## Agreement -/

/-- What an accepted message tells of its headers and body. -/
theorem parseSipMsg_ok {junk : Option ReqMethod} {msg : SipMsg} (h : parseSipMsg junk M = .ok msg) :
    ∃ fl s rest n, parseFirstLine M = .ok (fl, s) ∧ parseMsgHeaders fl s = .ok (msg.hdrs, rest) ∧
      bodyLen msg.hdrs rest.length = .ok n ∧ msg.body = ⟨M.length - rest.length, n⟩ := by
  unfold parseSipMsg at h
  split at h
  · cases h
  · cases h
  · rename_i fl s hfl
    split at h
    · cases h
    · rename_i hdrs rest hhdrs
      split at h
      · cases h
      · rename_i n hn
        unfold parseBodyless parseMandatory malformedMsg at h
        repeat' split at h
        all_goals cases h
        all_goals exact ⟨fl, s, rest, n, hfl, hhdrs, hn, rfl⟩

/-- The text as the framer and the message parser both read it : a line, header fields that each
have a value, an empty line and a body, with a length read alike. -/
def AlikeFramed (M : Str) : Prop :=
  ∃ line fs eol body, M = line ++ (fieldsText fs ++ eol ++ body) ∧ IsLine line ∧ IsEol eol ∧
    Unfolded fs ∧ ∀ f ∈ fs, parseHeaderType f.name = .H_CONTENT_LENGTH → LengthAlike f.value

section Agree

open HeaderField

variable {junk : Option ReqMethod} {msg : SipMsg}

/-- A block of headers does not start with a null byte. -/
theorem block_exists_cons (he : IsEol eol) (fs : List HeaderField) (s : Str) :
    ∃ c cs, fieldsText fs ++ eol ++ s = c :: cs ∧ c ≠ '\x00' := by
  cases fs with
  | nil =>
    obtain ⟨c, cs, rfl, -, h0⟩ := he.exists_cons
    exact ⟨c, cs ++ s, rfl, h0⟩
  | cons f fs =>
    have hchars := HdrParser.chars_field f []
    cases htext : f.text with
    | nil => simp [text] at htext
    | cons c cs =>
      refine ⟨c, cs ++ fieldsText fs ++ eol ++ s, by simp [fieldsText_cons, htext], ?_⟩
      rintro rfl
      rw [htext] at hchars
      cases hchars

variable (hmsg : parseSipMsg junk M = .ok msg) (hcl : msg.hdrs.contentLength ≠ none)
  (hbody : msg.body.s + msg.body.len = M.length)

include hmsg hcl hbody

section Fields

variable {body : Str} {fs : List HeaderField} (hM : M = line ++ (fieldsText fs ++ eol ++ body))
  (hline : IsLine line) (he : IsEol eol) (hu : Unfolded fs)

include hM hline he hu

/-- The Content-Length field of an accepted message that ends with its body. -/
theorem contentLength_field :
    ∃ f, fs.filter (SipHeader.isContentLength ∘ header) = [f] ∧
      parseContentLength f.value = .ok body.length := by
  obtain ⟨fl, s, rest, n, hfl, hhdrs, hn, hb⟩ := parseSipMsg_ok hmsg
  obtain ⟨line', c, cs, hs, hline', hcs⟩ := isLine_of_parseFirstLine hfl
  obtain ⟨rfl, hs'⟩ := hline.unique hline' (hM ▸ hs)
  unfold parseMsgHeaders at hhdrs
  have hparse : parseHeaders s = .ok (fs.map header, body) := by
    rw [hcs]
    show parseHeadersLoop [] (HdrParser.start []) (c :: cs) = _
    rw [← hcs, ← hs', parseHeadersLoop_fields he body hu, nil_append]
  rw [hparse] at hhdrs
  dsimp only at hhdrs
  split_ifs at hhdrs with hdup
  simp only [Except.ok.injEq, Prod.mk.injEq] at hhdrs
  obtain ⟨hh, rfl⟩ := hhdrs
  obtain ⟨hdr, hhdr⟩ := Option.ne_none_iff_exists'.1 hcl
  have hone := MsgHdrs.contentLength_of_foldl (Bool.not_eq_true _ ▸ hdup)
  rw [hh, hhdr, filter_map] at hone
  obtain ⟨f, hf, hfh⟩ := map_eq_singleton_iff.1 hone.symm
  refine ⟨f, hf, ?_⟩
  unfold bodyLen at hn
  rw [hhdr, ← hfh] at hn
  dsimp only at hn
  split at hn
  · cases hn
  · rename_i k hk
    split_ifs at hn
    cases hn
    rw [hb] at hbody
    have hlen : body.length ≤ M.length := by rw [hM]; simp; omega
    have hn : n = body.length := by
      dsimp only at hbody
      omega
    rw [← hn]
    exact hk

/-- The framer has the length of the body when the number is read alike. -/
theorem contentLens_eq_iff :
    contentLens 0 fs = some body.length ↔
      ∀ f ∈ fs, parseHeaderType f.name = .H_CONTENT_LENGTH → LengthAlike f.value := by
  obtain ⟨f, hone, hlen⟩ := contentLength_field hmsg hcl hbody hM hline he hu
  have hmem (g : HeaderField) : g ∈ fs ∧ parseHeaderType g.name = .H_CONTENT_LENGTH ↔ g = f := by
    have : g ∈ fs.filter (SipHeader.isContentLength ∘ header) ↔ g = f := by
      rw [hone, mem_singleton]
    simpa [mem_filter, SipHeader.isContentLength, header] using this
  have hlast : contentLens 0 [f] = contentLengthAfter 0 f.name f.value := Option.bind_fun_some _
  rw [contentLens_filter, hone, hlast, contentLengthAfter_eq_iff ((hmem f).2 rfl).2 hlen]
  constructor
  · intro halike g hg ht
    rwa [(hmem g).1 ⟨hg, ht⟩]
  · intro hall
    exact hall f ((hmem f).2 rfl).1 ((hmem f).2 rfl).2

end Fields

/-- The verdict on a text that starts with an accepted message. -/
theorem frame_eq_msg_iff {T : Str} : frame (M ++ T) = .msg M.length ↔ AlikeFramed M := by
  constructor
  · intro hframe
    have hspec := frame_spec (M ++ T)
    rw [hframe] at hspec
    rcases hspec with hv | ⟨st, used, hv⟩ | ⟨line, text, hM, hline, hv |
      ⟨fs, t, h, k, used, -, -, hv⟩ | ⟨fs, eol, rest, k, rfl, he, hu, hk, hv⟩⟩
    iterate 4 cases hv
    unfold frameBody at hv
    split_ifs at hv with hle
    have hlen : M.length = line.length + (fieldsText fs ++ eol).length + k := by
      simpa using hv
    have hM' : M = line ++ (fieldsText fs ++ eol ++ rest.take k) := by
      have := congrArg (List.take M.length) hM
      rw [take_left, ← append_assoc, hlen, ← length_append, take_length_add_append] at this
      simpa using this
    refine ⟨line, fs, eol, rest.take k, hM', hline, he, hu, ?_⟩
    refine (contentLens_eq_iff hmsg hcl hbody hM' hline he hu).1 ?_
    rw [hk, length_take, Nat.min_eq_left hle]
  · rintro ⟨line, fs, eol, body, hM, hline, he, hu, hall⟩
    have hk := (contentLens_eq_iff hmsg hcl hbody hM hline he hu).2 hall
    obtain ⟨c, cs, hc, h0⟩ := block_exists_cons he fs (body ++ T)
    have htext : M ++ T = line ++ c :: cs := by
      rw [hM, ← hc]
      simp
    rw [htext, frame_line hline h0, ← hc, frameHdrs_fields he _ hu 0 _ hk, frameBody,
      if_pos (by simp), hM]
    congr 1
    simp only [length_append]
    omega

end Agree

/-- The result of the framer, and the verdict. -/
theorem SkipRep.msg_iff {m : Mem} {orig finish len : ℕ} {v : Verdict} {r : AsyncResult}
    (h : SkipRep m orig finish v r) :
    (r.1 = none ∧ r.2.getMsgLen = len) ↔ v = .msg len := by
  cases h with
  | more hrep hc => simp
  | @msg len' q ho hlen =>
    simp only [true_and, Verdict.msg.injEq]
    omega
  | malformed herr => simp

/-- On an accepted message with a Content-Length that ends with its body, the framer stops at its
end just when the two read its text alike. -/
theorem skipSipMsgAsync_eq_iff {junk : Option ReqMethod} {M T : Str} {msg : SipMsg} {m : Mem}
    {buf : ℕ} (hmsg : parseSipMsg junk M = .ok msg) (hcl : msg.hdrs.contentLength ≠ none)
    (hbody : msg.body.s + msg.body.len = M.length)
    (hm : readMem m buf (M ++ T).length = M ++ T) :
    ((skipSipMsgAsync m (buf + (M ++ T).length) (.reset buf)).1 = none ∧
      (skipSipMsgAsync m (buf + (M ++ T).length) (.reset buf)).2.getMsgLen = M.length) ↔
      AlikeFramed M := by
  have hpos : 0 < (M ++ T).length := by
    obtain ⟨fl, s, rest, n, hfl, -⟩ := parseSipMsg_ok hmsg
    obtain ⟨line, c, cs, rfl, -, rfl⟩ := isLine_of_parseFirstLine hfl
    exact length_pos_iff.2 (by simp)
  generalize (M ++ T).length = n at hm hpos ⊢
  have hskip : SkipRep m buf (buf + n) (frame (readMem m buf (buf + n - buf)))
      (skipSipMsgAsync m (buf + n) (.reset buf)) :=
    skip_refines rep_reset (Nat.lt_add_of_pos_right hpos)
  rw [Nat.add_sub_cancel_left, hm] at hskip
  rw [hskip.msg_iff, frame_eq_msg_iff hmsg hcl hbody]

/-- A memory that starts with a text. -/
def memOf (s : Str) : Mem :=
  fun a => s.getD a '\x00'

/-- The message parser accepts the text, finds a Content-Length, and the body ends the text. -/
def acceptsWhole (M : Str) : Bool :=
  match parseSipMsg none M with
  | .ok msg => msg.hdrs.contentLength.isSome && msg.body.s + msg.body.len == M.length
  | .error _ => false

theorem exists_of_acceptsWhole (h : acceptsWhole M = true) :
    ∃ msg, parseSipMsg none M = .ok msg ∧ msg.hdrs.contentLength ≠ none ∧
      msg.body.s + msg.body.len = M.length := by
  unfold acceptsWhole at h
  split at h
  · rename_i msg hmsg
    simp only [Bool.and_eq_true, beq_iff_eq] at h
    exact ⟨msg, hmsg, Option.isSome_iff_ne_none.1 h.1, h.2⟩
  · cases h

/-- A request with a body of two bytes, with these values of Subject and Content-Length. -/
def byeRequest (subject length : Str) : Str :=
  "BYE sip:b SIP/2.0\nv:SIP/2.0/TCP h\nf:<sip:a>;tag=1\nt:<sip:b>\n".toList ++
    "i:1\nCSeq:1 BYE\ns:".toList ++ subject ++ "\nl:".toList ++ length ++ "\n\nok".toList

theorem alikeFramed_byeRequest :
    acceptsWhole (byeRequest ['x'] ['2']) = true ∧ AlikeFramed (byeRequest ['x'] ['2']) := by
  have haccepts : acceptsWhole (byeRequest ['x'] ['2']) = true := by decide +kernel
  obtain ⟨msg, hmsg, hcl, hbody⟩ := exists_of_acceptsWhole haccepts
  have hm : readMem (memOf (byeRequest ['x'] ['2'])) 0 (byeRequest ['x'] ['2'] ++ []).length =
      byeRequest ['x'] ['2'] ++ [] := by decide +kernel
  exact ⟨haccepts, (skipSipMsgAsync_eq_iff hmsg hcl hbody hm).1 (by decide +kernel)⟩

/-- Without a value of Subject the framer fails, and with a tab after the Content-Length it takes
the body for the next message. -/
theorem skipSipMsgAsync_ne_byeRequest :
    (∃ msg, parseSipMsg none (byeRequest [] ['2']) = .ok msg ∧ msg.hdrs.contentLength ≠ none ∧
      msg.body.s + msg.body.len = (byeRequest [] ['2']).length ∧
      (skipSipMsgAsync (memOf (byeRequest [] ['2'])) (byeRequest [] ['2']).length (.reset 0)).1 =
        some .MALFORMED_SIP_MSG) ∧
    ∃ msg, parseSipMsg none (byeRequest ['x'] ['2', '\t']) = .ok msg ∧
      msg.hdrs.contentLength ≠ none ∧
      msg.body.s + msg.body.len = (byeRequest ['x'] ['2', '\t']).length ∧
      (skipSipMsgAsync (memOf (byeRequest ['x'] ['2', '\t'])) (byeRequest ['x'] ['2', '\t']).length
        (.reset 0)).2.getMsgLen + 2 = (byeRequest ['x'] ['2', '\t']).length := by
  constructor
  · obtain ⟨msg, hmsg, hcl, hbody⟩ :=
      exists_of_acceptsWhole (M := byeRequest [] ['2']) (by decide +kernel)
    exact ⟨msg, hmsg, hcl, hbody, by decide +kernel⟩
  · obtain ⟨msg, hmsg, hcl, hbody⟩ :=
      exists_of_acceptsWhole (M := byeRequest ['x'] ['2', '\t']) (by decide +kernel)
    exact ⟨msg, hmsg, hcl, hbody, by decide +kernel⟩

end Sems
