import Sems.HeaderText
import Sems.ParseCommon

/-!
# The header machine

`parse_headers` (`core/sip/parse_header.cpp`) and `parse_header_async`
(`core/sip/sip_parser_async.cpp`) read a header with the same loop body, `HdrParser.char` : what one
character does to the state of the loop, or how the header ends. The cursor and the start of the
current token are replaced by the text between them.

A run of the machine over a text is `HdrParser.chars`. It follows the grammar of `HeaderField` :
`chars_field` runs it over a field, and `Reads.chars` says what it has read in every state.
-/

namespace Sems

open List

/-- The states of the loop. The first is 0, the start state of every parser. -/
inductive HState where
  | H_NAME
  | H_HCOLON
  | H_VALUE_SWS
  | H_VALUE
  | ST_CR
  | ST_LF
  | ST_CRLF
  deriving DecidableEq, Repr

/-- The length of the line end that leads to a state. -/
def HState.eolLen (st : HState) : ℕ :=
  if st = .ST_CRLF then 2 else 1

/-- The state of the loop. -/
structure HdrParser where
  st : HState
  saved : HState
  /-- The text from `begin` to the cursor. -/
  cur : Str
  name : Str
  deriving DecidableEq, Repr

/-- What one character does. After every result but `next`, the character is not read yet. -/
inductive HdrOut where
  | next (p : HdrParser)
  | endOfHeaders
  | field (name value : Str)
  | emptyValue
  | malformed

namespace HdrParser

/-- The state at the first character of a line. -/
def start (name : Str) : HdrParser :=
  ⟨.H_NAME, .H_NAME, [], name⟩

variable (p : HdrParser)

/-- Stay in the state. -/
def push (ch : Char) : HdrParser :=
  { p with cur := p.cur ++ [ch] }

def goto (st : HState) (ch : Char) : HdrParser :=
  { p with st := st, cur := p.cur ++ [ch] }

/-- `case_CR_LF`. -/
def lineEnd (st : HState) (ch : Char) : HdrParser :=
  { p with saved := p.st, st := st, cur := p.cur ++ [ch] }

/-- A character in the state `H_NAME`. -/
def nameChar (ch : Char) : HdrParser :=
  if ch = '\r' then p.lineEnd .ST_CR ch
  else if ch = '\n' then p.lineEnd .ST_LF ch
  else if ch = ':' then { p.goto .H_VALUE_SWS ch with name := p.cur }
  else if isWsp ch then { p.goto .H_HCOLON ch with name := p.cur }
  else p.push ch

/-- A character after the end of a line. -/
def afterEol (ch : Char) : HdrOut :=
  match p.saved with
  | .H_NAME => if p.cur.length = p.st.eolLen then .endOfHeaders else .malformed
  | .H_VALUE_SWS => if isWsp ch then .next (p.goto p.saved ch) else .emptyValue
  | .H_VALUE =>
    if isWsp ch then .next (p.goto p.saved ch)
    else .field p.name (p.cur.take (p.cur.length - p.st.eolLen))
  | _ => .next (p.goto p.saved ch)

/-- The loop body. -/
def char (ch : Char) : HdrOut :=
  match p.st with
  | .H_NAME => .next (p.nameChar ch)
  | .H_VALUE_SWS =>
    if ch = '\r' then .next (p.lineEnd .ST_CR ch)
    else if ch = '\n' then .next (p.lineEnd .ST_LF ch)
    else if isWsp ch then .next (p.push ch)
    else .next { p with st := .H_VALUE, cur := [ch] }
  | .H_VALUE =>
    if ch = '\r' then .next (p.lineEnd .ST_CR ch)
    else if ch = '\n' then .next (p.lineEnd .ST_LF ch)
    else .next (p.push ch)
  | .H_HCOLON =>
    if ch = ':' then .next (p.goto .H_VALUE_SWS ch)
    else if isWsp ch then .next (p.push ch)
    else .malformed
  | .ST_CR => if ch = '\n' then .next (p.goto .ST_CRLF ch) else .malformed
  | .ST_LF => p.afterEol ch
  | .ST_CRLF => p.afterEol ch

end HdrParser

/-! ## `parse_headers` -/

structure SipHeader where
  type : HdrType
  name : Str
  value : Str
  deriving DecidableEq, Repr

/-- `add_parsed_header`. -/
def addParsedHeader (hdrs : List SipHeader) (name value : Str) : List SipHeader :=
  hdrs ++ [⟨parseHeaderType name, name, value⟩]

/-- After the loop of `parse_headers`, with the text `rest` left. -/
def parseHeadersEnd (hdrs : List SipHeader) (p : HdrParser) (rest : Str) :
    Except ParseErr (List SipHeader × Str) :=
  match p.st with
  | .H_VALUE =>
    if 0 < p.cur.length then .ok (addParsedHeader hdrs p.name p.cur, rest)
    else .error .UNEXPECTED_EOT
  | .ST_LF | .ST_CRLF =>
    match p.saved with
    | .H_NAME => if p.cur.length = p.st.eolLen then .ok (hdrs, rest) else .error .MALFORMED_SIP_MSG
    | .H_VALUE =>
      if 2 < p.cur.length then
        .ok (addParsedHeader hdrs p.name (p.cur.take (p.cur.length - p.st.eolLen)), rest)
      else .error .UNEXPECTED_EOT
    | _ => .error .UNEXPECTED_EOT
  | _ => .error .UNEXPECTED_EOT

open HdrParser

/-- The loop of `parse_headers`. A header without a value is dropped, and its name stays in the next
one. -/
def parseHeadersLoop (hdrs : List SipHeader) (p : HdrParser) :
    Str → Except ParseErr (List SipHeader × Str)
  | [] => parseHeadersEnd hdrs p []
  | ch :: cs =>
    if ch = '\x00' then parseHeadersEnd hdrs p (ch :: cs)
    else
      match p.char ch with
      | .next p => parseHeadersLoop hdrs p cs
      | .endOfHeaders => .ok (hdrs, ch :: cs)
      | .field name value =>
        parseHeadersLoop (addParsedHeader hdrs name value) ((start []).nameChar ch) cs
      | .emptyValue => parseHeadersLoop hdrs ((start p.name).nameChar ch) cs
      | .malformed => .error .MALFORMED_SIP_MSG

/-- The headers of a text, and what follows the empty line after them. -/
def parseHeaders (s : Str) : Except ParseErr (List SipHeader × Str) :=
  match s with
  | [] => .ok ([], [])
  | s => parseHeadersLoop [] (start []) s

/-! ## Runs of the machine -/

namespace HdrParser

/-- Read a text inside one header. -/
def chars (p : HdrParser) : Str → Option HdrParser
  | [] => some p
  | ch :: cs =>
    if ch = '\x00' then none
    else
      match p.char ch with
      | .next p => chars p cs
      | _ => none

variable {p q : HdrParser} {ch : Char}

theorem chars_cons (h0 : ch ≠ '\x00') (h : p.char ch = .next q) (cs : Str) :
    p.chars (ch :: cs) = q.chars cs := by
  simp only [chars, if_neg h0, h]

theorem chars_append {p : HdrParser} :
    ∀ s t : Str, p.chars (s ++ t) = (p.chars s).bind fun q => q.chars t
  | [], t => rfl
  | ch :: cs, t => by
    simp only [cons_append, chars]
    split_ifs with h0
    · rfl
    · cases p.char ch with
      | next q => exact chars_append cs t
      | _ => rfl

theorem chars_append_of {r : HdrParser} {s t : Str} (hs : p.chars s = some q)
    (ht : q.chars t = some r) : p.chars (s ++ t) = some r := by
  rw [chars_append, hs, Option.bind_some, ht]

theorem chars_concat {r : HdrParser} {s : Str} (hs : p.chars s = some q) (h0 : ch ≠ '\x00')
    (h : q.char ch = .next r) : p.chars (s ++ [ch]) = some r :=
  chars_append_of hs (chars_cons h0 h [])

/-- The state after a line end. -/
def eolState (eol : Str) : HState :=
  if eol = ['\n'] then .ST_LF else .ST_CRLF

variable {eol : Str}

theorem eolLen_eolState (h : IsEol eol) : (eolState eol).eolLen = eol.length := by
  rcases h with rfl | rfl <;> rfl

/-- A line may end in a name and around a value. -/
theorem chars_eol (h : IsEol eol) (hst : p.st = .H_NAME ∨ p.st = .H_VALUE_SWS ∨ p.st = .H_VALUE) :
    p.chars eol = some ⟨eolState eol, p.st, p.cur ++ eol, p.name⟩ := by
  obtain ⟨st, saved, cur, name⟩ := p
  rcases h with rfl | rfl <;> rcases hst with rfl | rfl | rfl <;>
    simp [chars, char, nameChar, lineEnd, goto, eolState]

theorem afterEol_eq (hp : p.st = eolState eol) (ch : Char) : p.char ch = p.afterEol ch := by
  unfold char
  rw [hp]
  unfold eolState
  split_ifs <;> rfl

/-- A line end followed by a blank : back to the state before it. -/
theorem chars_fold {w : Char} (h : IsEol eol) (hw : isWsp w = true)
    (hst : p.st = .H_VALUE_SWS ∨ p.st = .H_VALUE) :
    p.chars (eol ++ [w]) = some ⟨p.st, p.st, p.cur ++ eol ++ [w], p.name⟩ := by
  have h0 : w ≠ '\x00' := (isPlain_iff.1 (isPlain_of_isWsp hw)).2.2
  refine chars_concat (chars_eol h (.inr hst)) h0 ?_
  rw [afterEol_eq rfl]
  rcases hst with hst | hst <;> simp [afterEol, hst, hw, goto]

variable {saved : HState} {name : Str}

theorem chars_name :
    ∀ {s : Str} (_ : ∀ c ∈ s, isNameChar c = true) (cur : Str),
      chars ⟨.H_NAME, saved, cur, name⟩ s = some ⟨.H_NAME, saved, cur ++ s, name⟩
  | [], _, cur => by simp [chars]
  | c :: cs, hs, cur => by
    obtain ⟨⟨hcr, hlf, h0⟩, hcol, hw⟩ := isNameChar_iff.1 (hs c (by simp))
    rw [chars_cons h0 (q := ⟨.H_NAME, saved, cur ++ [c], name⟩)
      (by simp [char, nameChar, push, hcr, hlf, hcol, hw]),
      chars_name (fun d hd => hs d (mem_cons_of_mem _ hd)), append_assoc,
      singleton_append]

theorem chars_hcolon :
    ∀ {s : Str} (_ : ∀ c ∈ s, isWsp c = true) (cur : Str),
      chars ⟨.H_HCOLON, saved, cur, name⟩ (s ++ [':']) =
        some ⟨.H_VALUE_SWS, saved, cur ++ s ++ [':'], name⟩
  | [], _, cur => by simp [chars, char, goto]
  | c :: cs, hs, cur => by
    have hc := hs c (by simp)
    have h0 : c ≠ '\x00' := (isPlain_iff.1 (isPlain_of_isWsp hc)).2.2
    have hcol : c ≠ ':' := by rintro rfl; exact absurd hc (by decide)
    rw [cons_append, chars_cons h0 (q := ⟨.H_HCOLON, saved, cur ++ [c], name⟩)
      (by simp [char, push, hcol, hc]),
      chars_hcolon (fun d hd => hs d (mem_cons_of_mem _ hd))]
    simp

/-- After the name, up to the colon. -/
theorem chars_colon {cur ws : Str} (hws : ∀ c ∈ ws, isWsp c = true) :
    chars ⟨.H_NAME, saved, cur, name⟩ (ws ++ [':']) =
      some ⟨.H_VALUE_SWS, saved, cur ++ ws ++ [':'], cur⟩ := by
  cases ws with
  | nil => simp [chars, char, nameChar, goto]
  | cons c cs =>
    have hc := hws c (by simp)
    obtain ⟨hcr, hlf, h0⟩ := isPlain_iff.1 (isPlain_of_isWsp hc)
    have hcol : c ≠ ':' := by rintro rfl; exact absurd hc (by decide)
    rw [cons_append, chars_cons h0 (q := ⟨.H_HCOLON, saved, cur ++ [c], cur⟩)
      (by simp [char, nameChar, goto, hcr, hlf, hcol, hc]),
      chars_hcolon (fun d hd => hws d (mem_cons_of_mem _ hd))]
    simp

/-- The blanks before a value. -/
theorem chars_gap (saved : HState) (cur name : Str) {g : Str} (h : IsGap g) :
    ∃ saved', chars ⟨.H_VALUE_SWS, saved, cur, name⟩ g =
      some ⟨.H_VALUE_SWS, saved', cur ++ g, name⟩ := by
  induction h with
  | nil => exact ⟨saved, by simp [chars]⟩
  | @blank g w _ hw ih =>
    obtain ⟨saved', ih⟩ := ih
    obtain ⟨hcr, hlf, h0⟩ := isPlain_iff.1 (isPlain_of_isWsp hw)
    refine ⟨saved', chars_concat ih h0 ?_⟩
    simp [char, push, hcr, hlf, hw]
  | @fold g eol w _ he hw ih =>
    obtain ⟨saved', ih⟩ := ih
    refine ⟨.H_VALUE_SWS, ?_⟩
    rw [append_assoc]
    refine chars_append_of ih ?_
    rw [chars_fold he hw (.inl rfl)]
    simp

theorem chars_value {cur : Str} {v : Str} (h : IsValue v) :
    ∃ saved', chars ⟨.H_VALUE_SWS, saved, cur, name⟩ v = some ⟨.H_VALUE, saved', v, name⟩ := by
  induction h with
  | @first c hc hw =>
    obtain ⟨hcr, hlf, h0⟩ := isPlain_iff.1 hc
    exact ⟨saved, by simp [chars, char, hcr, hlf, h0, hw]⟩
  | @char v c _ hc ih =>
    obtain ⟨saved', ih⟩ := ih
    obtain ⟨hcr, hlf, h0⟩ := isPlain_iff.1 hc
    refine ⟨saved', chars_concat ih h0 ?_⟩
    simp [char, push, hcr, hlf]
  | @fold v eol w _ he hw ih =>
    obtain ⟨saved', ih⟩ := ih
    refine ⟨.H_VALUE, ?_⟩
    rw [append_assoc]
    refine chars_append_of ih ?_
    rw [chars_fold he hw (.inr rfl)]
    simp

/-- Over the text of a field. -/
theorem chars_field (f : HeaderField) (name : Str) :
    (start name).chars f.text = some ⟨eolState f.eol, .H_VALUE, f.value ++ f.eol, f.name⟩ := by
  obtain ⟨s₁, hgap⟩ := chars_gap .H_NAME ([] ++ f.name ++ f.ws ++ [':']) f.name f.gap_ok
  obtain ⟨s₂, hvalue⟩ :=
    chars_value f.value_ok
  unfold HeaderField.text
  rw [append_assoc f.name]
  refine chars_append_of (chars_append_of (chars_append_of (chars_append_of
    (chars_name f.name_ok []) (chars_colon f.ws_ok)) hgap) hvalue) ?_
  rw [chars_eol f.eol_ok (.inr (.inr rfl))]

/-- A field is over with the first character after it that is not blank. -/
theorem char_after_field (f : HeaderField) (hw : isWsp ch = false) :
    char ⟨eolState f.eol, .H_VALUE, f.value ++ f.eol, f.name⟩ ch = .field f.name f.value := by
  rw [afterEol_eq rfl]
  simp [afterEol, hw, eolLen_eolState f.eol_ok]

/-- After a line end. -/
def AtEol (p : HdrParser) : Prop :=
  p.st = .ST_LF ∨ p.st = .ST_CRLF

/-- Only after a line end can a header be over. -/
theorem char_cases (p : HdrParser) (ch : Char) :
    (∃ q, p.char ch = .next q) ∨ p.char ch = .malformed ∨
      (p.AtEol ∧ p.char ch = p.afterEol ch) := by
  unfold char
  cases hp : p.st with
  | ST_LF => exact .inr (.inr ⟨.inl hp, rfl⟩)
  | ST_CRLF => exact .inr (.inr ⟨.inr hp, rfl⟩)
  | H_NAME => exact .inl ⟨_, rfl⟩
  | _ => split_ifs <;> simp

/-- How a header ends. -/
theorem char_eq_field {n v : Str} (h : p.char ch = .field n v) :
    p.AtEol ∧ p.saved = .H_VALUE ∧ n = p.name ∧ v = p.cur.take (p.cur.length - p.st.eolLen) ∧
      isWsp ch = false := by
  rcases p.char_cases ch with ⟨q, hq⟩ | hq | ⟨hst, hq⟩ <;> rw [h] at hq
  · cases hq
  · cases hq
  · refine ⟨hst, ?_⟩
    unfold afterEol at hq
    split at hq
    · split_ifs at hq
    · split_ifs at hq
    · split_ifs at hq with hw
      cases hq
      exact ⟨‹_›, rfl, rfl, by simpa using hw⟩
    · cases hq

/-- How the headers end. -/
theorem char_eq_endOfHeaders (h : p.char ch = .endOfHeaders) :
    p.AtEol ∧ p.saved = .H_NAME ∧ p.cur.length = p.st.eolLen := by
  rcases p.char_cases ch with ⟨q, hq⟩ | hq | ⟨hst, hq⟩ <;> rw [h] at hq
  · cases hq
  · cases hq
  · refine ⟨hst, ?_⟩
    unfold afterEol at hq
    split at hq
    · split_ifs at hq with hlen
      exact ⟨‹_›, hlen⟩
    · split_ifs at hq
    · split_ifs at hq
    · cases hq

end HdrParser

/-! ## What has been read -/

/-- The line end, or the part of it, that leads to a state. -/
def HState.tail : HState → Str
  | .ST_CR => ['\r']
  | .ST_LF => ['\n']
  | .ST_CRLF => ['\r', '\n']
  | _ => []

/-- The text `t` of a header up to a state before a line end, the token `cur` it ends with,
and the name. -/
def ReadsTo : HState → Str → Str → Str → Prop
  | .H_NAME, t, cur, name => t = cur ∧ name = [] ∧ ∀ c ∈ t, isNameChar c = true
  | .H_HCOLON, t, _, name => (∀ c ∈ name, isNameChar c = true) ∧
      ∃ ws, (∀ c ∈ ws, isWsp c = true) ∧ ws ≠ [] ∧ t = name ++ ws
  | .H_VALUE_SWS, t, _, name => (∀ c ∈ name, isNameChar c = true) ∧
      ∃ ws gap, (∀ c ∈ ws, isWsp c = true) ∧ IsGap gap ∧ t = name ++ ws ++ [':'] ++ gap
  | .H_VALUE, t, cur, name => (∀ c ∈ name, isNameChar c = true) ∧
      ∃ ws gap, (∀ c ∈ ws, isWsp c = true) ∧ IsGap gap ∧ IsValue cur ∧
        t = name ++ ws ++ [':'] ++ gap ++ cur
  | _, _, _, _ => False

/-- The machine is at the end of the text `t` of a header. -/
def Reads (t : Str) (p : HdrParser) : Prop :=
  (p.st.tail = [] ∧ ReadsTo p.st t p.cur p.name) ∨
    (p.st.tail ≠ [] ∧ p.saved ≠ .H_HCOLON ∧ ∃ t' cur', t = t' ++ p.st.tail ∧
      p.cur = cur' ++ p.st.tail ∧ ReadsTo p.saved t' cur' p.name)

namespace Reads

theorem start : Reads [] (start []) :=
  .inl ⟨rfl, rfl, rfl, by simp⟩

variable {t : Str} {p : HdrParser} {ch : Char}

variable (h : Reads t p)

include h

/-- A line that ends in a state of the loop. -/
theorem lineEnd {st st' : HState} (hp : p.st = st') (hc : st'.tail = [] ∧ st' ≠ .H_HCOLON)
    (hst : st.tail = [ch]) : Reads (t ++ [ch]) (p.lineEnd st ch) := by
  subst hp
  rcases h with ⟨-, h⟩ | ⟨hne, -⟩
  · exact .inr ⟨by simp [HdrParser.lineEnd, hst], hc.2, t, p.cur, by simp [HdrParser.lineEnd, hst],
      by simp [HdrParser.lineEnd, hst], h⟩
  · exact absurd hc.1 hne

theorem nameChar (hp : p.st = .H_NAME) (h0 : ch ≠ '\x00') : Reads (t ++ [ch]) (p.nameChar ch) := by
  have hread : ReadsTo .H_NAME t p.cur p.name := by
    rcases h with ⟨-, h⟩ | ⟨hne, -⟩
    · rwa [hp] at h
    · exact absurd (by rw [hp]; rfl) hne
  obtain ⟨rfl, hname, hchars⟩ := hread
  unfold nameChar
  split_ifs with hcr hlf hcol hw
  · exact lineEnd h hp (by decide) (by rw [hcr]; rfl)
  · exact lineEnd h hp (by decide) (by rw [hlf]; rfl)
  · exact .inl ⟨rfl, hchars, [], [], by simp, .nil, by simp [hcol]⟩
  · exact .inl ⟨rfl, hchars, [ch], by simpa using hw, by simp, rfl⟩
  · refine .inl ⟨by simp [push, hp, HState.tail], ?_⟩
    simp only [push, hp]
    refine ⟨rfl, hname, fun c hc => ?_⟩
    rcases mem_append.1 hc with hc | hc
    · exact hchars c hc
    · rw [mem_singleton.1 hc]
      exact isNameChar_iff.2 ⟨⟨hcr, hlf, h0⟩, hcol, by simpa using hw⟩

/-- In a state before a line end. -/
theorem inner {st : HState} (hp : p.st = st) (hst : st.tail = []) : ReadsTo st t p.cur p.name := by
  rcases h with ⟨-, h⟩ | ⟨hne, -⟩
  · rwa [hp] at h
  · exact absurd (by rw [hp]; exact hst) hne

/-- After a line end. -/
theorem outer (tail : Str) (hp : p.st.tail = tail) (htail : tail ≠ []) :
    p.saved ≠ .H_HCOLON ∧ ∃ t' cur', t = t' ++ tail ∧
      p.cur = cur' ++ tail ∧ ReadsTo p.saved t' cur' p.name := by
  subst hp
  rcases h with ⟨he, -⟩ | ⟨-, h⟩
  · exact absurd he htail
  · exact h

/-- A blank after a line end. -/
theorem goto_saved {eol : Str} (hp : p.st.tail = eol) (he : IsEol eol) (hw : isWsp ch = true)
    (hn : p.saved ≠ .H_NAME) :
    Reads (t ++ [ch]) (p.goto p.saved ch) := by
  have hne : eol ≠ [] := by rcases he with rfl | rfl <;> simp
  obtain ⟨hc, t', cur', rfl, hcur, hread⟩ := h.outer eol hp hne
  obtain ⟨st, saved, cur, name⟩ := p
  simp only at hp hn hc hcur hread
  cases saved with
  | H_VALUE_SWS =>
    obtain ⟨hname, ws, gap, hws, hgap, rfl⟩ := hread
    exact .inl ⟨rfl, hname, ws, gap ++ eol ++ [ch], hws, .fold hgap he hw, by simp [goto]⟩
  | H_VALUE =>
    obtain ⟨hname, ws, gap, hws, hgap, hv, rfl⟩ := hread
    refine .inl ⟨rfl, hname, ws, gap, hws, hgap, ?_, ?_⟩
    · simp only [goto, hcur]
      exact .fold hv he hw
    · simp [goto, hcur]
  | H_NAME => exact absurd rfl hn
  | H_HCOLON => exact absurd rfl hc
  | _ => exact hread.elim

theorem afterEol {q : HdrParser} {eol : Str} (hp : p.st.tail = eol) (he : IsEol eol)
    (hq : p.afterEol ch = .next q) :
    Reads (t ++ [ch]) q := by
  have hne : eol ≠ [] := by rcases he with rfl | rfl <;> simp
  obtain ⟨hc, t', cur', -, -, hread⟩ := h.outer eol hp hne
  unfold HdrParser.afterEol at hq
  cases hs : p.saved with
  | H_NAME =>
    simp only [hs] at hq
    split_ifs at hq
  | H_VALUE_SWS | H_VALUE =>
    simp only [hs] at hq
    split_ifs at hq with hw
    cases hq
    rw [← hs]
    exact goto_saved h hp he hw (by rw [hs]; decide)
  | H_HCOLON => exact absurd hs hc
  | _ =>
    rw [hs] at hread
    exact hread.elim

/-- One character. -/
theorem char {q : HdrParser} (h0 : ch ≠ '\x00') (hq : p.char ch = .next q) :
    Reads (t ++ [ch]) q := by
  unfold HdrParser.char at hq
  cases hp : p.st with
  | H_NAME =>
    simp only [hp] at hq
    cases hq
    exact h.nameChar hp h0
  | H_HCOLON =>
    obtain ⟨hname, ws, hws, hne, rfl⟩ := h.inner hp rfl
    simp only [hp] at hq
    split_ifs at hq with hcol hw
    · cases hq
      exact .inl ⟨rfl, hname, ws, [], hws, .nil, by simp [hcol, goto]⟩
    · cases hq
      refine .inl ⟨by simp [push, hp, HState.tail], ?_⟩
      simp only [push, hp]
      refine ⟨hname, ws ++ [ch], fun c hc => ?_, by simp, by simp⟩
      rcases mem_append.1 hc with hc | hc
      · exact hws c hc
      · rwa [mem_singleton.1 hc]
  | H_VALUE_SWS =>
    obtain ⟨hname, ws, gap, hws, hgap, rfl⟩ := h.inner hp rfl
    simp only [hp] at hq
    split_ifs at hq with hcr hlf hw <;> cases hq
    · exact lineEnd h hp (by decide) (by rw [hcr]; rfl)
    · exact lineEnd h hp (by decide) (by rw [hlf]; rfl)
    · refine .inl ⟨by simp [push, hp, HState.tail], ?_⟩
      simp only [push, hp]
      exact ⟨hname, ws, gap ++ [ch], hws, .blank hgap hw, by simp⟩
    · exact .inl ⟨rfl, hname, ws, gap, hws, hgap,
        .first (isPlain_iff.2 ⟨hcr, hlf, h0⟩) (by simpa using hw), rfl⟩
  | H_VALUE =>
    obtain ⟨hname, ws, gap, hws, hgap, hv, rfl⟩ := h.inner hp rfl
    simp only [hp] at hq
    split_ifs at hq with hcr hlf <;> cases hq
    · exact lineEnd h hp (by decide) (by rw [hcr]; rfl)
    · exact lineEnd h hp (by decide) (by rw [hlf]; rfl)
    · refine .inl ⟨by simp [push, hp, HState.tail], ?_⟩
      simp only [push, hp]
      exact ⟨hname, ws, gap, hws, hgap, .char hv (isPlain_iff.2 ⟨hcr, hlf, h0⟩), by simp⟩
  | ST_CR =>
    obtain ⟨hc, t', cur', rfl, hcur, hread⟩ := h.outer ['\r'] (by rw [hp]; rfl) (by simp)
    simp only [hp] at hq
    split_ifs at hq with hlf
    cases hq
    exact .inr ⟨by simp [goto, HState.tail], hc, t', cur',
      by simp [goto, HState.tail, hlf], by simp [goto, HState.tail, hlf, hcur],
      hread⟩
  | ST_LF =>
    simp only [hp] at hq
    exact h.afterEol (by rw [hp]; rfl) (.inl rfl) hq
  | ST_CRLF =>
    simp only [hp] at hq
    exact h.afterEol (by rw [hp]; rfl) (.inr rfl) hq

omit h in
/-- A line end and its length. -/
theorem isEol_tail (hp : p.AtEol) :
    IsEol p.st.tail ∧ p.st.tail ≠ [] ∧ p.st.eolLen = p.st.tail.length := by
  rcases hp with hp | hp <;> rw [hp]
  · exact ⟨.inl rfl, by decide, rfl⟩
  · exact ⟨.inr rfl, by decide, rfl⟩

/-- A header that is over is a field. -/
theorem field {n v : Str} (hf : p.char ch = .field n v) :
    ∃ f : HeaderField, f.text = t ∧ f.name = n ∧ f.value = v := by
  obtain ⟨hst, hs, rfl, rfl, -⟩ := char_eq_field hf
  obtain ⟨he, hne, hlen⟩ := isEol_tail hst
  obtain ⟨-, t', cur', rfl, hcur, hread⟩ := h.outer _ rfl hne
  rw [hs] at hread
  obtain ⟨hname, ws, gap, hws, hgap, hv, rfl⟩ := hread
  exact ⟨⟨p.name, ws, gap, cur', p.st.tail, hname, hws, hgap, hv, he⟩, rfl, rfl,
    by simp [hcur, hlen]⟩

/-- The headers are over after an empty line. -/
theorem emptyLine (hst : p.AtEol) (hs : p.saved = .H_NAME) (hcur : p.cur.length = p.st.eolLen) :
    IsEol t := by
  obtain ⟨he, hne, hlen⟩ := isEol_tail hst
  obtain ⟨-, t', cur', rfl, hcur', hread⟩ := h.outer _ rfl hne
  rw [hs] at hread
  obtain ⟨rfl, -, -⟩ := hread
  have : t' = [] := by
    rw [hcur', length_append, hlen] at hcur
    exact length_eq_zero_iff.1 (by omega)
  rwa [this, nil_append]

omit h in
/-- A line end that starts with what was read of one. -/
theorem exists_isEol_tail (st : HState) : ∃ w, IsEol (st.tail ++ w) := by
  cases st with
  | ST_LF => exact ⟨[], .inl rfl⟩
  | ST_CR => exact ⟨['\n'], .inr rfl⟩
  | ST_CRLF => exact ⟨[], .inr rfl⟩
  | _ => exact ⟨['\n'], .inl rfl⟩

/-- Once its name is read, a header is the beginning of a field, longer than the name. -/
theorem cut (hn : p.name ≠ []) :
    ∃ f : HeaderField, f.name = p.name ∧ t <+: f.text ∧ f.name.length < t.length := by
  -- the text before the line end, and the line end
  obtain ⟨st, t', cur', rfl, hread⟩ : ∃ st t' cur', t = t' ++ p.st.tail ∧
      ReadsTo st t' cur' p.name ∧ (st = .H_HCOLON → p.st.tail = []) := by
    rcases h with ⟨ht, h⟩ | ⟨-, hc, t', cur', rfl, -, h⟩
    · exact ⟨p.st, t, p.cur, by rw [ht, append_nil], h, fun _ => ht⟩
    · exact ⟨p.saved, t', cur', rfl, h, fun hs => absurd hs hc⟩
  obtain ⟨hread, htail⟩ := hread
  cases st with
  | H_NAME => exact absurd hread.2.1 hn
  | H_HCOLON =>
    obtain ⟨hname, ws, hws, hne, rfl⟩ := hread
    rw [htail rfl, append_nil]
    refine ⟨⟨p.name, ws, [], ['x'], ['\n'], hname, hws, .nil, .first rfl rfl, .inl rfl⟩, rfl,
      ⟨[':', 'x', '\n'], by simp [HeaderField.text]⟩, ?_⟩
    have := length_pos_iff.2 hne
    simp only [length_append]
    omega
  | H_VALUE_SWS =>
    obtain ⟨hname, ws, gap, hws, hgap, rfl⟩ := hread
    obtain ⟨w, hw⟩ := exists_isEol_tail p.st
    refine ⟨⟨p.name, ws, gap ++ (p.st.tail ++ w) ++ [' '], ['x'], ['\n'], hname, hws,
      .fold hgap hw rfl, .first rfl rfl, .inl rfl⟩, rfl,
      ⟨w ++ [' ', 'x', '\n'], by simp [HeaderField.text]⟩, ?_⟩
    simp only [length_append, length_cons, length_nil]
    omega
  | H_VALUE =>
    obtain ⟨hname, ws, gap, hws, hgap, hv, rfl⟩ := hread
    obtain ⟨w, hw⟩ := exists_isEol_tail p.st
    refine ⟨⟨p.name, ws, gap, cur', p.st.tail ++ w, hname, hws, hgap, hv, hw⟩, rfl,
      ⟨w, by simp [HeaderField.text]⟩, ?_⟩
    simp only [length_append, length_cons, length_nil]
    omega
  | _ => exact hread.elim

end Reads

end Sems
