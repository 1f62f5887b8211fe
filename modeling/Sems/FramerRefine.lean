import Sems.Framing
import Sems.SipParserAsync

/-!
# The code's framer refines the text framer

`Rep` relates a `parser_state` to the state of a text framer : its slices hold the text the
framer keeps. While they do, `skip_sip_msg_async` gives the verdict of the text framer, and the
state it leaves is again that of the text framer (`skip_refines`).

There is one relation for the result of each function of the source, and one lemma for its
loop.
-/

namespace Sems

open List HdrParser

/-! ## One header -/

/-- The state of `parse_header_async` is that of the header machine. -/
structure RepHdr (m : Mem) (p : ParserState) (h : HdrParser) : Prop where
  st : p.st = h.st
  saved : p.savedSt = h.saved
  cursor : p.c = p.beg + h.cur.length
  cur : readMem m p.beg h.cur.length = h.cur
  name : readMem m p.name.s p.name.len = h.name
  value : p.value.len = 0
  begLe : p.origBuf ≤ p.beg
  nameLe : p.name.len ≠ 0 → p.name.s + p.name.len ≤ p.c

/-- Where the message starts, how much of it was read, and its Content-Length. -/
structure Keeps (orig used n : ℕ) (p : ParserState) : Prop where
  origBuf : p.origBuf = orig
  cursor : p.c = orig + used
  stage : p.stage = .ST_HDRS
  contentLen : p.contentLen = n

namespace RepHdr

variable {m : Mem} {p : ParserState} {h : HdrParser} (hrep : RepHdr m p h)

include hrep

/-- The token with the character at the cursor. -/
theorem cur_concat : readMem m p.beg (h.cur ++ [m p.c]).length = h.cur ++ [m p.c] := by
  rw [length_append, length_singleton, readMem_concat, hrep.cur, ← hrep.cursor]

theorem cursor_concat : p.c + 1 = p.beg + (h.cur ++ [m p.c]).length := by
  rw [length_append, length_singleton, hrep.cursor, Nat.add_assoc]

theorem name_eq : readMem m p.beg (p.c - p.beg) = h.cur := by
  rw [hrep.cursor, Nat.add_sub_cancel_left, hrep.cur]

theorem nameLe_advance : p.name.len ≠ 0 → p.name.s + p.name.len ≤ p.c + 1 :=
  fun hne => Nat.le_succ_of_le (hrep.nameLe hne)

/-- Nothing but the line end was read. -/
theorem eol_iff : p.c = p.beg + p.st.eolLen ↔ h.cur.length = h.st.eolLen := by
  rw [hrep.cursor, hrep.st]
  omega

variable (st : HState)

/-- To another state, with the same token and name. -/
theorem goto : RepHdr m { p with st := st }.advance (h.goto st (m p.c)) :=
  ⟨rfl, hrep.saved, hrep.cursor_concat, hrep.cur_concat, hrep.name, hrep.value, hrep.begLe,
    hrep.nameLe_advance⟩

theorem push : RepHdr m p.advance (h.push (m p.c)) :=
  ⟨hrep.st, hrep.saved, hrep.cursor_concat, hrep.cur_concat, hrep.name, hrep.value, hrep.begLe,
    hrep.nameLe_advance⟩

theorem lineEnd : RepHdr m { p with savedSt := p.st, st := st }.advance (h.lineEnd st (m p.c)) :=
  ⟨rfl, hrep.st, hrep.cursor_concat, hrep.cur_concat, hrep.name, hrep.value, hrep.begLe,
    hrep.nameLe_advance⟩

/-- The name ends at the cursor. -/
theorem setName :
    RepHdr m { p with st := st, name := ⟨p.beg, p.c - p.beg⟩ }.advance
      { h.goto st (m p.c) with name := h.cur } :=
  ⟨rfl, hrep.saved, hrep.cursor_concat, hrep.cur_concat, hrep.name_eq, hrep.value, hrep.begLe,
    fun _ => by show p.beg + (p.c - p.beg) ≤ p.c + 1; have := hrep.cursor; omega⟩

/-- The value starts at the cursor. -/
theorem setBegin :
    RepHdr m { p with st := st, beg := p.c }.advance { h with st := st, cur := [m p.c] } :=
  ⟨rfl, hrep.saved, rfl, rfl, hrep.name, hrep.value,
    by show p.origBuf ≤ p.c; have := hrep.begLe; have := hrep.cursor; omega,
    hrep.nameLe_advance⟩

end RepHdr

/-- `q` differs from `p` only in the header that is read. -/
def SameMsg (p q : ParserState) : Prop :=
  q.c = p.c ∧ q.origBuf = p.origBuf ∧ q.stage = p.stage ∧ q.contentLen = p.contentLen

/-- The loop body of `parse_header_async` does what the header machine does. -/
inductive StepRep (m : Mem) (p : ParserState) : HdrOut → HeaderStep → Prop
  | next {h : HdrParser} {q : ParserState} : RepHdr m q.advance h → SameMsg p q →
      StepRep m p (.next h) (.next q)
  | endOfHeaders : StepRep m p .endOfHeaders (.ret none p)
  | field {name value : Str} {q : ParserState} : readMem m q.name.s q.name.len = name →
      readMem m q.value.s q.value.len = value → SameMsg p q →
      StepRep m p (.field name value) (.ret none q)
  | emptyValue {q : ParserState} : StepRep m p .emptyValue (.ret (some .MALFORMED_SIP_MSG) q)
  | malformed {q : ParserState} : StepRep m p .malformed (.ret (some .MALFORMED_SIP_MSG) q)

section StepRep

variable {m : Mem} {p : ParserState} {h : HdrParser}

theorem afterEol_rep (hrep : RepHdr m p h) :
    StepRep m p (h.afterEol (m p.c)) (headerAfterEol p (m p.c)) := by
  have hgoto : StepRep m p (.next (h.goto h.saved (m p.c))) (.next { p with st := p.savedSt }) := by
    rw [← hrep.saved]
    exact .next (hrep.goto p.savedSt) ⟨rfl, rfl, rfl, rfl⟩
  unfold afterEol headerAfterEol
  cases hs : h.saved with
  | H_NAME =>
    simp only [hrep.saved, hs, hrep.eol_iff]
    split_ifs
    · exact .endOfHeaders
    · exact .malformed
  | H_VALUE_SWS =>
    simp only [hrep.saved, hs] at hgoto ⊢
    split_ifs
    · exact hgoto
    · exact .emptyValue
  | H_VALUE =>
    simp only [hrep.saved, hs] at hgoto ⊢
    split_ifs
    · exact hgoto
    · refine .field hrep.name ?_ ⟨rfl, rfl, rfl, rfl⟩
      rw [hrep.st, show p.c - h.st.eolLen - p.beg = h.cur.length - h.st.eolLen by
        rw [hrep.cursor]; omega]
      exact readMem_take hrep.cur (Nat.sub_le _ _)
  | _ =>
    simp only [hrep.saved, hs] at hgoto ⊢
    exact hgoto

theorem headerChar_rep (hrep : RepHdr m p h) :
    StepRep m p (h.char (m p.c)) (headerChar p (m p.c)) := by
  unfold char headerChar
  rw [hrep.st]
  cases hp : h.st with
  | H_NAME =>
    unfold nameChar ParserState.caseCrLf
    dsimp only
    split_ifs
    · exact .next (hrep.lineEnd .ST_CR) ⟨rfl, rfl, rfl, rfl⟩
    · exact .next (hrep.lineEnd .ST_LF) ⟨rfl, rfl, rfl, rfl⟩
    · exact .next (hrep.setName .H_VALUE_SWS) ⟨rfl, rfl, rfl, rfl⟩
    · exact .next (hrep.setName .H_HCOLON) ⟨rfl, rfl, rfl, rfl⟩
    · exact .next hrep.push ⟨rfl, rfl, rfl, rfl⟩
  | H_HCOLON =>
    dsimp only
    split_ifs
    · exact .next (hrep.goto .H_VALUE_SWS) ⟨rfl, rfl, rfl, rfl⟩
    · exact .next hrep.push ⟨rfl, rfl, rfl, rfl⟩
    · exact .malformed
  | H_VALUE_SWS =>
    unfold ParserState.caseCrLf
    dsimp only
    split_ifs
    · exact .next (hrep.lineEnd .ST_CR) ⟨rfl, rfl, rfl, rfl⟩
    · exact .next (hrep.lineEnd .ST_LF) ⟨rfl, rfl, rfl, rfl⟩
    · exact .next hrep.push ⟨rfl, rfl, rfl, rfl⟩
    · exact .next (hrep.setBegin .H_VALUE) ⟨rfl, rfl, rfl, rfl⟩
  | H_VALUE =>
    unfold ParserState.caseCrLf
    dsimp only
    split_ifs
    · exact .next (hrep.lineEnd .ST_CR) ⟨rfl, rfl, rfl, rfl⟩
    · exact .next (hrep.lineEnd .ST_LF) ⟨rfl, rfl, rfl, rfl⟩
    · exact .next hrep.push ⟨rfl, rfl, rfl, rfl⟩
  | ST_CR =>
    dsimp only
    split_ifs
    · exact .next (hrep.goto .ST_CRLF) ⟨rfl, rfl, rfl, rfl⟩
    · exact .malformed
  | ST_LF | ST_CRLF => exact afterEol_rep hrep

end StepRep

/-- The verdict on the headers and the result of `parse_header_async` for one of them, from the
address `lo` on. -/
inductive HeaderRep (m : Mem) (orig finish n lo : ℕ) : Verdict → AsyncResult → Prop
  | more {used : ℕ} {q : ParserState} {h : HdrParser} : Keeps orig used n q → RepHdr m q h →
      (∃ t, Reads t h) → q.c = finish →
      HeaderRep m orig finish n lo (.more (.hdrs h n) used []) (some .UNEXPECTED_EOT, q)
  | malformed {err : ParseErr} {q : ParserState} : (err = .UNEXPECTED_EOT → q.c < finish) →
      HeaderRep m orig finish n lo .malformed (some err, q)
  | endOfHeaders {used : ℕ} {q : ParserState} : Keeps orig used n q → q.name.len = 0 →
      q.value.len = 0 → q.c ≤ finish →
      HeaderRep m orig finish n lo (frameBody n used (readMem m q.c (finish - q.c))) (none, q)
  | field {used : ℕ} {q : ParserState} {name value : Str} : Keeps orig used n q →
      readMem m q.name.s q.name.len = name → readMem m q.value.s q.value.len = value →
      value ≠ [] → lo ≤ q.c → q.c < finish →
      HeaderRep m orig finish n lo
        (match contentLengthAfter n name value with
          | some k => frameHdrs (HdrParser.start []) k used (readMem m q.c (finish - q.c))
          | none => .malformed)
        (none, q)

theorem HeaderRep.mono {m : Mem} {orig finish n lo lo' : ℕ} {v : Verdict} {r : AsyncResult}
    (h : HeaderRep m orig finish n lo' v r) (hlo : lo ≤ lo') :
    HeaderRep m orig finish n lo v r := by
  cases h with
  | more hk hrep hr hc => exact .more hk hrep hr hc
  | malformed herr => exact .malformed herr
  | endOfHeaders hk hname hvalue hc => exact .endOfHeaders hk hname hvalue hc
  | field hk hname hvalue hne hq hc => exact .field hk hname hvalue hne (Nat.le_trans hlo hq) hc

section Header

variable {m : Mem} {orig finish n : ℕ} {h : HdrParser}

/-- In the name of a header there is no name yet. -/
theorem Reads.name_eq_nil {t : Str} (hr : Reads t h) (hst : h.AtEol) (hs : h.saved = .H_NAME) :
    h.name = [] := by
  obtain ⟨-, hne, -⟩ := Reads.isEol_tail hst
  obtain ⟨-, t', cur', -, -, hread⟩ := hr.outer _ rfl hne
  rw [hs] at hread
  exact hread.2.1

variable {p : ParserState}

theorem RepHdr.name_len (hrep : RepHdr m p h) : p.name.len = h.name.length := by
  rw [← hrep.name, length_readMem]

theorem headerEnd_eq (p : ParserState) :
    headerEnd p =
      if (p.st = .ST_LF ∨ p.st = .ST_CRLF) ∧ p.savedSt = .H_NAME then
        if p.c = p.beg + p.st.eolLen then (none, p) else (some .MALFORMED_SIP_MSG, p)
      else (some .UNEXPECTED_EOT, p) := by
  unfold headerEnd
  cases hst : p.st <;> cases hs : p.savedSt <;> simp

variable {used : ℕ}

/-- Where the bytes end, or a null byte is. -/
theorem headerEnd_rep (hk : Keeps orig used n p) (hrep : RepHdr m p h) (hr : ∃ t, Reads t h)
    (hc : p.c ≤ finish) {lo : ℕ} :
    HeaderRep m orig finish n lo (frameHdrsEnd h n used (readMem m p.c (finish - p.c)))
      (headerEnd p) := by
  obtain ⟨t, ht⟩ := hr
  rw [headerEnd_eq, frameHdrsEnd, hrep.saved]
  simp only [hrep.eol_iff]
  rw [hrep.st]
  split_ifs with hend hcur hnil
  · refine .endOfHeaders hk ?_ hrep.value hc
    rw [hrep.name_len, ht.name_eq_nil hend.1 hend.2, length_nil]
  · exact .malformed (fun h => by cases h)
  · refine .more hk hrep ⟨t, ht⟩ ?_
    have := congrArg List.length hnil
    rw [length_readMem, length_nil] at this
    omega
  · refine .malformed fun _ => ?_
    by_contra hlt
    exact hnil (by rw [show finish - p.c = 0 by omega]; rfl)

variable {q : ParserState}

theorem Keeps.advance (hk : Keeps orig used n p) (hs : SameMsg p q) :
    Keeps orig (used + 1) n q.advance := by
  obtain ⟨hc, ho, hst, hn⟩ := hs
  refine ⟨ho.trans hk.origBuf, ?_, hst.trans hk.stage, hn.trans hk.contentLen⟩
  show q.c + 1 = orig + (used + 1)
  rw [hc, hk.cursor, Nat.add_assoc]

theorem Keeps.of_sameMsg (hk : Keeps orig used n p) (hs : SameMsg p q) : Keeps orig used n q := by
  obtain ⟨hc, ho, hst, hn⟩ := hs
  exact ⟨ho.trans hk.origBuf, hc.trans hk.cursor, hst.trans hk.stage, hn.trans hk.contentLen⟩

/-- The loop of `parse_header_async`. -/
theorem headerLoop_rep : ∀ (k : ℕ) {p : ParserState} {h : HdrParser} {used : ℕ},
    Keeps orig used n p → RepHdr m p h → (∃ t, Reads t h) → p.c + k = finish →
      HeaderRep m orig finish n p.c (frameHdrs h n used (readMem m p.c k)) (headerLoop m k p)
  | 0, p, h, used, hk, hrep, hr, hc => by
    have hend : HeaderRep m orig finish n p.c _ _ :=
      headerEnd_rep hk hrep hr (by omega)
    rwa [show finish - p.c = 0 by omega] at hend
  | k + 1, p, h, used, hk, hrep, hr, hc => by
    unfold headerLoop
    by_cases h0 : m p.c = '\x00'
    · rw [if_pos h0, readMem, frameHdrs, if_pos h0]
      have hend : HeaderRep m orig finish n p.c _ _ :=
        headerEnd_rep hk hrep hr (by omega)
      rwa [show finish - p.c = k + 1 by omega] at hend
    · have hrest : readMem m p.c (finish - p.c) = m p.c :: readMem m (p.c + 1) k := by
        rw [show finish - p.c = k + 1 by omega, readMem]
      have hstep := headerChar_rep hrep
      rw [if_neg h0, readMem, frameHdrs, if_neg h0]
      generalize hch : h.char (m p.c) = out at hstep ⊢
      generalize headerChar p (m p.c) = step at hstep ⊢
      obtain ⟨t, ht⟩ := hr
      cases hstep with
      | @next h' q hrep' hsame =>
        have hq : q.advance.c = p.c + 1 := congrArg (· + 1) hsame.1
        have hrec := headerLoop_rep k (hk.advance hsame) hrep' ⟨_, ht.char h0 hch⟩
          (by rw [hq]; omega)
        rw [hq] at hrec
        exact hrec.mono (Nat.le_succ _)
      | endOfHeaders =>
        obtain ⟨hst, hs, -⟩ := char_eq_endOfHeaders hch
        rw [← hrest]
        refine .endOfHeaders hk ?_ hrep.value (by omega)
        rw [hrep.name_len, ht.name_eq_nil hst hs, length_nil]
      | @field name value q hname hvalue hsame =>
        obtain ⟨f, -, -, hf⟩ := ht.field hch
        have hq : q.c = p.c := hsame.1
        have hres : HeaderRep m orig finish n p.c _ _ := .field (hk.of_sameMsg hsame) hname hvalue
          (hf ▸ f.value_ok.ne_nil) (Nat.le_of_eq hq.symm) (by omega)
        rw [hq, hrest] at hres
        simp only [frameHdrs_start h0] at hres
        exact hres
      | emptyValue | malformed => exact .malformed (fun h => by cases h)

/-- At the first character of a header, the cursor moves. -/
theorem headerLoop_start {k : ℕ} (hk : Keeps orig used n p) (hrep : RepHdr m p (start []))
    (hc : p.c + (k + 1) = finish) :
    HeaderRep m orig finish n (p.c + 1)
      (frameHdrs (start []) n used (readMem m p.c (k + 1))) (headerLoop m (k + 1) p) := by
  unfold headerLoop
  by_cases h0 : m p.c = '\x00'
  · rw [if_pos h0, readMem, frameHdrs, if_pos h0]
    have hend : HeaderRep m orig finish n (p.c + 1) _ _ :=
      headerEnd_rep hk hrep ⟨_, Reads.start⟩ (by omega)
    rwa [show finish - p.c = k + 1 by omega] at hend
  · have hstep := headerChar_rep hrep
    rw [if_neg h0, readMem, frameHdrs_start h0]
    rw [show (start []).char (m p.c) = .next ((start []).nameChar (m p.c)) from rfl] at hstep
    generalize headerChar p (m p.c) = step at hstep ⊢
    cases hstep with
    | @next h q hrep' hsame =>
      have hq : q.advance.c = p.c + 1 := congrArg (· + 1) hsame.1
      have hrec : HeaderRep m orig finish n q.advance.c _ _ :=
        headerLoop_rep k (hk.advance hsame) hrep' ⟨_, Reads.start.nameChar rfl h0⟩
          (by rw [hq]; omega)
      rwa [hq] at hrec

/-- The verdict on the headers and the result of `parse_headers_async`. -/
inductive HeadersRep (m : Mem) (orig finish : ℕ) : Verdict → AsyncResult → Prop
  | more {n used : ℕ} {q : ParserState} {h : HdrParser} : Keeps orig used n q → RepHdr m q h →
      (∃ t, Reads t h) → q.c = finish →
      HeadersRep m orig finish (.more (.hdrs h n) used []) (some .UNEXPECTED_EOT, q)
  | malformed {err : ParseErr} {q : ParserState} : (err = .UNEXPECTED_EOT → q.c < finish) →
      HeadersRep m orig finish .malformed (some err, q)
  | endOfHeaders {n used : ℕ} {q : ParserState} : Keeps orig used n q → q.name.len = 0 →
      q.value.len = 0 → q.c ≤ finish →
      HeadersRep m orig finish (frameBody n used (readMem m q.c (finish - q.c))) (none, q)

theorem isContentLength_iff {name value : Str} (hname : readMem m q.name.s q.name.len = name)
    (hvalue : readMem m q.value.s q.value.len = value) :
    isContentLength m q = true ↔
      name ≠ [] ∧ value ≠ [] ∧ parseHeaderType name = .H_CONTENT_LENGTH := by
  have hn : q.name.len = name.length := by rw [← hname, length_readMem]
  have hv : q.value.len = value.length := by rw [← hvalue, length_readMem]
  simp only [isContentLength, hname, decide_eq_true_eq]
  rw [hn, hv]
  simp

/-- The Content-Length after a field. -/
theorem noteContentLength_rep {name value : Str} (hk : Keeps orig used n q)
    (hname : readMem m q.name.s q.name.len = name)
    (hvalue : readMem m q.value.s q.value.len = value) :
    (∃ k, contentLengthAfter n name value = some k ∧ Keeps orig used k (noteContentLength m q) ∧
        ¬ (isContentLength m q ∧ (noteContentLength m q).contentLen < 0)) ∨
      (contentLengthAfter n name value = none ∧
        isContentLength m q ∧ (noteContentLength m q).contentLen < 0) := by
  have hiff := isContentLength_iff hname hvalue
  unfold contentLengthAfter noteContentLength
  by_cases hcl : isContentLength m q = true
  · rw [if_pos hcl, if_pos (hiff.1 hcl), hvalue]
    cases str2int value with
    | none =>
      refine .inl ⟨n, rfl, { hk with }, fun h => ?_⟩
      have := h.2
      simp only [Option.getD_none, hk.contentLen] at this
      omega
    | some v =>
      dsimp only [Option.getD_some]
      split_ifs with hneg
      · exact .inr ⟨rfl, hcl, hneg⟩
      · exact .inl ⟨v.toNat, rfl, ⟨hk.origBuf, hk.cursor, hk.stage, by simp; omega⟩,
          fun h => hneg h.2⟩
  · rw [if_neg hcl, if_neg (fun h => hcl (hiff.2 h))]
    exact .inl ⟨n, rfl, hk, fun h => hcl h.1⟩

theorem RepHdr.reset (hp : p.origBuf ≤ p.c) : RepHdr m p.resetHdrParser (start []) :=
  ⟨rfl, rfl, rfl, rfl, rfl, rfl, hp, fun h => absurd rfl h⟩

/-- The loop of `parse_headers_async`. -/
theorem headersLoop_rep : ∀ (k : ℕ) {p : ParserState} {h : HdrParser} {n used : ℕ},
    Keeps orig used n p → RepHdr m p h → (∃ t, Reads t h) → p.c < finish →
      (finish - p.c < k ∨ h = start [] ∧ finish - p.c ≤ k) →
      HeadersRep m orig finish (frameHdrs h n used (readMem m p.c (finish - p.c)))
        (headersLoop m finish k p)
  | 0, p, h, n, used, hk, hrep, hr, hc, hfuel => by omega
  | k + 1, p, h, n, used, hk, hrep, hr, hc, hfuel => by
    have hround : ∃ lo, finish - lo ≤ k ∧ HeaderRep m orig finish n lo
        (frameHdrs h n used (readMem m p.c (finish - p.c))) (parseHeaderAsync m finish p) := by
      unfold parseHeaderAsync
      rcases hfuel with hfuel | ⟨rfl, hfuel⟩
      · exact ⟨p.c, by omega, headerLoop_rep _ hk hrep hr (by omega)⟩
      · obtain ⟨j, hj⟩ : ∃ j, finish - p.c = j + 1 := ⟨finish - p.c - 1, by omega⟩
        rw [hj]
        exact ⟨p.c + 1, by omega, headerLoop_start hk hrep (by omega)⟩
    obtain ⟨lo, hlo, hround⟩ := hround
    unfold headersLoop
    rw [if_pos hc]
    generalize parseHeaderAsync m finish p = r at hround ⊢
    generalize frameHdrs h n used (readMem m p.c (finish - p.c)) = v at hround ⊢
    cases hround with
    | more hk hrep hr hc => exact .more hk hrep hr hc
    | malformed herr => exact .malformed herr
    | @endOfHeaders used q hk hname hvalue hc =>
      have hcl : isContentLength m q = false := by simp [isContentLength, hname]
      simp only [noteContentLength, hcl, Bool.false_eq_true, if_false, false_and, hname, hvalue,
        and_self, if_true]
      exact .endOfHeaders hk hname hvalue hc
    | @field used q name value hk hname hvalue hne hq hc =>
      have hv : (noteContentLength m q).value.len ≠ 0 := by
        have : (noteContentLength m q).value = q.value := by
          unfold noteContentLength
          split_ifs <;> rfl
        rw [this]
        intro h
        rw [h] at hvalue
        exact hne hvalue.symm
      rcases noteContentLength_rep hk hname hvalue with ⟨j, hj, hk', hneg⟩ | ⟨hj, hneg⟩
      · have hcur : (noteContentLength m q).c = q.c := by rw [hk'.cursor, hk.cursor]
        dsimp only
        rw [hj, if_neg hneg, if_neg (fun h => hv h.2)]
        have hrec := headersLoop_rep k (p := (noteContentLength m q).resetHdrParser)
          { hk' with }
          (RepHdr.reset (by rw [hk'.origBuf, hk'.cursor]; omega)) ⟨_, Reads.start⟩
          (hcur ▸ hc) (.inr ⟨rfl, by show finish - (noteContentLength m q).c ≤ k; omega⟩)
        rw [← hcur]
        exact hrec
      · dsimp only
        rw [hj, if_pos hneg]
        exact .malformed (fun h => nomatch h)

end Header

/-- The state of the code's framer is that of a text framer `used` characters into the message
at `orig`. -/
def Rep (m : Mem) (orig : ℕ) (p : ParserState) (used : ℕ) : FrameState → Prop
  | .line st => p.origBuf = orig ∧ p.c = orig + used ∧ p.stage = .ST_FL ∧ p.st = st ∧
      p.contentLen = 0
  | .hdrs h n => Keeps orig used n p ∧ RepHdr m p h ∧ ∃ t, Reads t h
  | .body n => p.origBuf = orig ∧ p.c = orig + used ∧ p.stage = .ST_BODY ∧ p.contentLen = n

theorem rep_reset {m : Mem} {a : ℕ} : Rep m a (.reset a) 0 (.line .H_NAME) :=
  ⟨rfl, rfl, rfl, rfl, rfl⟩

/-- The verdict on a message and the result of `skip_sip_msg_async`. -/
inductive SkipRep (m : Mem) (orig finish : ℕ) : Verdict → AsyncResult → Prop
  | more {s : FrameState} {used : ℕ} {q : ParserState} : Rep m orig q used s → q.c ≤ finish →
      SkipRep m orig finish (.more s used (readMem m q.c (finish - q.c)))
        (some .UNEXPECTED_EOT, q)
  | msg {len : ℕ} {q : ParserState} : q.origBuf = orig → q.getMsgLen = len →
      SkipRep m orig finish (.msg len) (none, q)
  | malformed {err : ParseErr} {q : ParserState} : err ≠ .UNEXPECTED_EOT →
      SkipRep m orig finish .malformed (some err, q)

section Skip

variable {m : Mem} {orig finish used : ℕ}

/-- All there is was read. -/
theorem SkipRep.atEnd {s : FrameState} {q : ParserState} (hrep : Rep m orig q used s)
    (hq : q.c = finish) : SkipRep m orig finish (.more s used []) (some .UNEXPECTED_EOT, q) := by
  have hmore : SkipRep m orig finish _ (some .UNEXPECTED_EOT, q) := .more hrep (Nat.le_of_eq hq)
  rw [hq, Nat.sub_self] at hmore
  exact hmore

variable {p : ParserState} (k : ℕ)

/-- The third stage. -/
theorem skipBody_rep {n : ℕ} (hrep : Rep m orig p used (.body n)) (hc : p.c ≤ finish) :
    SkipRep m orig finish (frameBody n used (readMem m p.c (finish - p.c)))
      (skipSipMsgLoop m finish (k + 1) p) := by
  obtain ⟨ho, hcur, hst, hn⟩ := hrep
  have hmsg : p.getMsgLen = (used + n : ℕ) := by
    rw [ParserState.getMsgLen, hcur, ho, hn]
    omega
  unfold skipSipMsgLoop
  rw [if_neg (by omega)]
  simp only [hst, hn, frameBody, length_readMem]
  by_cases h0 : n ≤ finish - p.c
  · split_ifs with h₁ h₂
    · exact .msg ho hmsg
    · omega
    · exact .msg ho hmsg
  · rw [if_neg h0, if_neg (by omega), if_pos (by omega)]
    exact .more ⟨ho, hcur, hst, hn⟩ hc

/-- The second stage. -/
theorem skipHdrs_rep {h : HdrParser} {n : ℕ} (hrep : Rep m orig p used (.hdrs h n))
    (hc : p.c < finish) :
    SkipRep m orig finish (frameHdrs h n used (readMem m p.c (finish - p.c)))
      (skipSipMsgLoop m finish (k + 2) p) := by
  obtain ⟨hk, hrep, hr⟩ := hrep
  have hres : HeadersRep m orig finish _ (parseHeadersAsync m finish p) :=
    headersLoop_rep _ hk hrep hr hc (.inl (Nat.lt_succ_self _))
  unfold skipSipMsgLoop
  rw [if_neg (by omega)]
  simp only [hk.stage]
  generalize parseHeadersAsync m finish p = r at hres ⊢
  generalize frameHdrs h n used (readMem m p.c (finish - p.c)) = v at hres ⊢
  cases hres with
  | @more n used q h hk hrep hr hq =>
    dsimp only
    rw [if_neg (fun h => absurd h.2 (by omega))]
    exact .atEnd ⟨hk, hrep, hr⟩ hq
  | @malformed err q herr =>
    dsimp only
    split_ifs with hnul
    · exact .malformed (by decide)
    · exact .malformed fun h => hnul ⟨h, herr h⟩
  | @endOfHeaders n used q hk hname hvalue hq =>
    dsimp only
    rw [if_pos ⟨hname, hvalue⟩]
    exact skipBody_rep (p := { q with stage := .ST_BODY }) k
      ⟨hk.origBuf, hk.cursor, rfl, hk.contentLen⟩ hq

/-- The verdict on the first line and the result of `skip_line_async`. -/
inductive LineRep (m : Mem) (orig finish : ℕ) : Verdict → AsyncResult → Prop
  | more {used : ℕ} {q : ParserState} {st : HState} : Rep m orig q used (.line st) →
      q.c = finish → LineRep m orig finish (.more (.line st) used []) (some .UNEXPECTED_EOT, q)
  | malformed {err : ParseErr} {q : ParserState} : (err = .UNEXPECTED_EOT → q.c < finish) →
      LineRep m orig finish .malformed (some err, q)
  | done {used : ℕ} {q : ParserState} : q.origBuf = orig → q.c = orig + used →
      q.contentLen = 0 → q.c < finish →
      LineRep m orig finish
        (frameHdrs (HdrParser.start []) 0 used (readMem m q.c (finish - q.c))) (none, q)

/-- The loop of `skip_line_async`. -/
theorem skipLineLoop_rep : ∀ (k : ℕ) {p : ParserState} {st : HState} {used : ℕ},
    Rep m orig p used (.line st) → p.c + k = finish →
      LineRep m orig finish (frameLine st used (readMem m p.c k)) (skipLineLoop m k p)
  | 0, p, st, used, hrep, hc => .more hrep hc
  | k + 1, p, st, used, hrep, hc => by
    obtain ⟨ho, hcur, hstage, hst, hn⟩ := hrep
    have hadv (q : ParserState) {st' : HState} (hq : q.origBuf = orig ∧ q.c = p.c ∧
        q.stage = .ST_FL ∧ q.st = st' ∧ q.contentLen = 0) :
        LineRep m orig finish (frameLine st' (used + 1) (readMem m (p.c + 1) k))
          (skipLineLoop m k q.advance) := by
      obtain ⟨hqo, hqc, hqs, hqt, hqn⟩ := hq
      have hqa : q.advance.c = p.c + 1 := congrArg (· + 1) hqc
      have hrep' : Rep m orig q.advance (used + 1) (.line st') :=
        ⟨hqo, by rw [hqa, hcur, Nat.add_assoc], hqs, hqt, hqn⟩
      have hrec : LineRep m orig finish _ _ := skipLineLoop_rep k hrep' (by rw [hqa]; omega)
      rwa [hqa] at hrec
    rw [readMem]
    unfold skipLineLoop frameLine
    by_cases h0 : m p.c = '\x00'
    · rw [if_pos h0, if_pos h0]
      exact .malformed fun _ => by omega
    · rw [if_neg h0, if_neg h0, hst]
      have hdone : LineRep m orig finish
          (frameHdrs ((start []).nameChar (m p.c)) 0 (used + 1) (readMem m (p.c + 1) k))
          (none, p) := by
        have hd : LineRep m orig finish _ (none, p) := .done ho hcur hn (by omega)
        rwa [show finish - p.c = k + 1 by omega, readMem, frameHdrs_start h0] at hd
      cases st with
      | H_NAME =>
        refine hadv _ ?_
        unfold ParserState.caseCrLf
        split_ifs <;> exact ⟨ho, rfl, hstage, by simp [hst], hn⟩
      | ST_CR =>
        dsimp only
        split_ifs
        · exact hadv _ ⟨ho, rfl, hstage, rfl, hn⟩
        · exact .malformed (fun h => by cases h)
      | ST_LF | ST_CRLF => exact hdone
      | _ => exact .malformed (fun h => by cases h)

/-- The first stage. -/
theorem skipLine_rep {st : HState} (hrep : Rep m orig p used (.line st)) (hc : p.c < finish) :
    SkipRep m orig finish (frameLine st used (readMem m p.c (finish - p.c)))
      (skipSipMsgLoop m finish (k + 3) p) := by
  have hres : LineRep m orig finish _ (skipLineAsync m finish p) :=
    skipLineLoop_rep _ hrep (by omega)
  unfold skipSipMsgLoop
  rw [if_neg (by omega)]
  simp only [hrep.2.2.1]
  generalize skipLineAsync m finish p = r at hres ⊢
  generalize frameLine st used (readMem m p.c (finish - p.c)) = v at hres ⊢
  cases hres with
  | @more used q st hrep hq =>
    dsimp only
    rw [if_neg (fun h => absurd h.2 (by omega))]
    exact .atEnd (s := .line st) hrep hq
  | @malformed err q herr =>
    dsimp only
    split_ifs with hnul
    · exact .malformed (by decide)
    · exact .malformed fun h => hnul ⟨h, herr h⟩
  | @done used q ho hcur hn hq =>
    exact skipHdrs_rep (p := { q with stage := .ST_HDRS }.resetHdrParser) k
      ⟨⟨ho, hcur, rfl, hn⟩, RepHdr.reset (by show q.origBuf ≤ q.c; omega), _, Reads.start⟩ hq

/-- `skip_sip_msg_async` gives the verdict of the text framer. -/
theorem skip_refines {s : FrameState} (hrep : Rep m orig p used s) (hc : p.c < finish) :
    SkipRep m orig finish (resume s used (readMem m p.c (finish - p.c)))
      (skipSipMsgAsync m finish p) := by
  cases s with
  | line st => exact skipLine_rep _ hrep hc
  | hdrs h n => exact skipHdrs_rep _ hrep hc
  | body n => exact skipBody_rep _ hrep (by omega)

end Skip

end Sems
