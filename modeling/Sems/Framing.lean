import Sems.ParseHeader
import Sems.StreamFramer

/-!
# Framing a text

What `skip_sip_msg_async` is for, without its buffer : a framer reads the text of a message from
its first character and says whether the message is over, and how long it is. `frame` is the
verdict on a text.

A framer that wants more text keeps a `FrameState`. To go on from it (`resume`) is to read the
whole text again (`resume_append`), and a verdict other than `more` is not changed by more text.
-/

namespace Sems

open List HdrParser

/-- What the framer is reading. -/
inductive FrameState where
  | line (st : HState)
  | hdrs (p : HdrParser) (contentLen : ℕ)
  | body (contentLen : ℕ)
  deriving DecidableEq

/-- What a framer says : it wants more text after `used` characters and those in `rest`, which it
has not read, or the message has `len` characters, or is malformed. -/
inductive Verdict where
  | more (s : FrameState) (used : ℕ) (rest : Str)
  | msg (len : ℕ)
  | malformed
  deriving DecidableEq

/-- The Content-Length after a header. Without a number it stays, and it must not be
negative. -/
def contentLengthAfter (contentLen : ℕ) (name value : Str) : Option ℕ :=
  if name ≠ [] ∧ value ≠ [] ∧ parseHeaderType name = .H_CONTENT_LENGTH then
    match str2int value with
    | none => some contentLen
    | some n => if n < 0 then none else some n.toNat
  else some contentLen

def frameBody (contentLen used : ℕ) (s : Str) : Verdict :=
  if contentLen ≤ s.length then .msg (used + contentLen) else .more (.body contentLen) used s

/-- Where the text ends, or has a null byte : only an empty line can end the headers there. -/
def frameHdrsEnd (p : HdrParser) (contentLen used : ℕ) (s : Str) : Verdict :=
  if (p.st = .ST_LF ∨ p.st = .ST_CRLF) ∧ p.saved = .H_NAME then
    if p.cur.length = p.st.eolLen then frameBody contentLen used s else .malformed
  else if s = [] then .more (.hdrs p contentLen) used []
  else .malformed

def frameHdrs (p : HdrParser) (contentLen used : ℕ) : Str → Verdict
  | [] => frameHdrsEnd p contentLen used []
  | ch :: cs =>
    if ch = '\x00' then frameHdrsEnd p contentLen used (ch :: cs)
    else
      match p.char ch with
      | .next q => frameHdrs q contentLen (used + 1) cs
      | .endOfHeaders => frameBody contentLen used (ch :: cs)
      | .field name value =>
        match contentLengthAfter contentLen name value with
        | some n => frameHdrs ((start []).nameChar ch) n (used + 1) cs
        | none => .malformed
      | _ => .malformed

def frameLine (st : HState) (used : ℕ) : Str → Verdict
  | [] => .more (.line st) used []
  | ch :: cs =>
    if ch = '\x00' then .malformed
    else
      match st with
      | .H_NAME =>
        frameLine (if ch = '\r' then .ST_CR else if ch = '\n' then .ST_LF else .H_NAME)
          (used + 1) cs
      | .ST_CR => if ch = '\n' then frameLine .ST_CRLF (used + 1) cs else .malformed
      | .ST_LF | .ST_CRLF => frameHdrs ((start []).nameChar ch) 0 (used + 1) cs
      | _ => .malformed

/-- Go on, with the text from the cursor on. -/
def resume (s : FrameState) (used : ℕ) (t : Str) : Verdict :=
  match s with
  | .line st => frameLine st used t
  | .hdrs p contentLen => frameHdrs p contentLen used t
  | .body contentLen => frameBody contentLen used t

/-- The verdict on a text. -/
def frame (s : Str) : Verdict :=
  resume (.line .H_NAME) 0 s

example : frame "BYE\r\nl: 2\r\n\r\nokBYE".toList = .msg 15 := by decide

/-! ## Going on -/

/-- The verdict once more text `t` is there. -/
def Verdict.onward (t : Str) : Verdict → Verdict
  | .more s used rest => resume s used (rest ++ t)
  | v => v

open Verdict

theorem frameBody_append {n used : ℕ} (s t : Str) :
    frameBody n used (s ++ t) = (frameBody n used s).onward t := by
  by_cases h : n ≤ s.length
  · have h' : n ≤ (s ++ t).length := by rw [length_append]; omega
    simp only [frameBody, if_pos h, if_pos h', onward]
  · rw [frameBody.eq_def n used s, if_neg h]
    rfl

/-- An empty line ends the headers whatever follows. -/
theorem frameHdrs_emptyLine {p : HdrParser} (hst : p.AtEol) (hs : p.saved = .H_NAME)
    (n used : ℕ) (s : Str) :
    frameHdrs p n used s =
      if p.cur.length = p.st.eolLen then frameBody n used s else .malformed := by
  have hend (s : Str) : frameHdrsEnd p n used s =
      if p.cur.length = p.st.eolLen then frameBody n used s else .malformed := by
    unfold frameHdrsEnd
    rw [if_pos ⟨hst, hs⟩]
  cases s with
  | nil => exact hend []
  | cons ch cs =>
    unfold frameHdrs
    split_ifs with h0 h0 h0
    · rw [hend, if_pos h0]
    · rw [hend, if_neg h0]
    all_goals
      have hch : p.char ch = p.afterEol ch := by
        rcases hst with hst | hst <;> simp [char, hst]
      simp [hch, afterEol, hs, h0]

/-- At the first character of a header. -/
theorem frameHdrs_start {ch : Char} (h0 : ch ≠ '\x00') (n used : ℕ) (cs : Str) :
    frameHdrs (start []) n used (ch :: cs) =
      frameHdrs ((start []).nameChar ch) n (used + 1) cs := by
  rw [frameHdrs, if_neg h0]
  rfl

theorem frameHdrs_append : ∀ (p : HdrParser) (n used : ℕ) (s t : Str),
    frameHdrs p n used (s ++ t) = (frameHdrs p n used s).onward t
  | p, n, used, [], t => by
    by_cases h : (p.st = .ST_LF ∨ p.st = .ST_CRLF) ∧ p.saved = .H_NAME
    · rw [nil_append, frameHdrs_emptyLine h.1 h.2, frameHdrs_emptyLine h.1 h.2]
      split_ifs
      · exact frameBody_append [] t
      · rfl
    · simp [frameHdrs, frameHdrsEnd, h, onward, resume]
  | p, n, used, ch :: s, t => by
    rw [cons_append]
    unfold frameHdrs
    split_ifs with h0
    · unfold frameHdrsEnd
      split_ifs
      · exact frameBody_append (ch :: s) t
      · rfl
      all_goals simp_all [onward]
    · cases p.char ch with
      | next q => exact frameHdrs_append q n (used + 1) s t
      | endOfHeaders => exact frameBody_append (ch :: s) t
      | field name value =>
        dsimp only
        cases contentLengthAfter n name value with
        | none => rfl
        | some n' => exact frameHdrs_append _ n' (used + 1) s t
      | _ => rfl

theorem frameLine_append : ∀ (st : HState) (used : ℕ) (s t : Str),
    frameLine st used (s ++ t) = (frameLine st used s).onward t
  | st, used, [], t => rfl
  | st, used, ch :: s, t => by
    rw [cons_append]
    unfold frameLine
    by_cases h0 : ch = '\x00'
    · rw [if_pos h0, if_pos h0]
      rfl
    · rw [if_neg h0, if_neg h0]
      cases st with
      | H_NAME => exact frameLine_append _ (used + 1) s t
      | ST_CR =>
        dsimp only
        split_ifs
        · exact frameLine_append _ (used + 1) s t
        · rfl
      | ST_LF | ST_CRLF => exact frameHdrs_append _ 0 (used + 1) s t
      | _ => rfl

/-- Going on is reading the whole text. -/
theorem resume_append {s : FrameState} {used : ℕ} {t u : Str} :
    resume s used (t ++ u) = (resume s used t).onward u := by
  cases s with
  | line st => exact frameLine_append st used t u
  | hdrs p n => exact frameHdrs_append p n used t u
  | body n => exact frameBody_append t u

/-! ## The framer of a stream -/

variable {n used : ℕ}

theorem bounds_of_frameBody {len : ℕ} {s : Str} (h : frameBody n used s = .msg len) :
    used ≤ len ∧ len ≤ used + s.length := by
  unfold frameBody at h
  split_ifs at h with hn
  cases h
  omega

theorem bounds_of_frameHdrs : ∀ {p : HdrParser} {n used len : ℕ} {s : Str},
    frameHdrs p n used s = .msg len → used ≤ len ∧ len ≤ used + s.length := by
  have hend {p : HdrParser} {n used len : ℕ} {s : Str} (h : frameHdrsEnd p n used s = .msg len) :
      used ≤ len ∧ len ≤ used + s.length := by
    unfold frameHdrsEnd at h
    split_ifs at h
    exact bounds_of_frameBody h
  intro p n used len s
  induction s generalizing p n used with
  | nil => exact hend
  | cons ch cs ih =>
    intro h
    have step {q : HdrParser} {n : ℕ} (h : frameHdrs q n (used + 1) cs = .msg len) :
        used ≤ len ∧ len ≤ used + (ch :: cs).length := by
      have := ih h
      rw [length_cons]
      omega
    unfold frameHdrs at h
    split_ifs at h with h0
    · exact hend h
    · cases hc : p.char ch with
      | next q =>
        rw [hc] at h
        exact step h
      | endOfHeaders =>
        rw [hc] at h
        exact bounds_of_frameBody h
      | field name value =>
        rw [hc] at h
        cases hn : contentLengthAfter n name value with
        | none => simp [hn] at h
        | some k =>
          simp only [hn] at h
          exact step h
      | emptyValue | malformed => simp [hc] at h

/-- A message is longer than what was read of its first line. -/
theorem bounds_of_frameLine : ∀ {s : Str} {st : HState} {used len : ℕ},
    frameLine st used s = .msg len → used < len ∧ len ≤ used + s.length
  | [], st, used, len, h => nomatch h
  | ch :: cs, st, used, len, h => by
    unfold frameLine at h
    split at h
    · cases h
    · rw [length_cons]
      cases st with
      | H_NAME =>
        have := bounds_of_frameLine h
        omega
      | ST_CR =>
        dsimp only at h
        split_ifs at h
        have := bounds_of_frameLine h
        omega
      | ST_LF | ST_CRLF =>
        have := bounds_of_frameHdrs h
        omega
      | _ => cases h

def Verdict.cut : Verdict → Cut
  | .more _ _ _ => .more
  | .msg len => .item len
  | .malformed => .bad

variable {v : Verdict}

theorem Verdict.cut_eq_item : v.cut = .item n ↔ v = .msg n := by
  cases v <;> simp [cut]

theorem Verdict.cut_eq_bad : v.cut = .bad ↔ v = .malformed := by
  cases v <;> simp [cut]

theorem frame_append (s t : Str) : frame (s ++ t) = (frame s).onward t :=
  resume_append

/-- The framer of SIP messages. -/
def sipFramer : StreamFramer Char where
  cut s := (frame s).cut
  pos h := (bounds_of_frameLine (cut_eq_item.1 h)).1
  le h := by
    have := (bounds_of_frameLine (cut_eq_item.1 h)).2
    omega
  item_append h t := by
    rw [frame_append, cut_eq_item.1 h]
    rfl
  bad_append h t := by
    rw [frame_append, cut_eq_bad.1 h]
    rfl

/-! ## What a framed text looks like -/

/-- The Content-Length after some fields. -/
def contentLens (n : ℕ) : List HeaderField → Option ℕ
  | [] => some n
  | f :: fs => (contentLengthAfter n f.name f.value).bind fun k => contentLens k fs

/-- The first line of a message. -/
def IsLine (line : Str) : Prop :=
  ∃ l eol, line = l ++ eol ∧ (∀ c ∈ l, isPlain c = true) ∧ IsEol eol

/-- The text of the headers, and the verdict on it : complete fields and a part of one, or an empty
line after them. -/
def HdrsSpec (n used : ℕ) (text : Str) (v : Verdict) : Prop :=
  v = .malformed ∨
    (∃ fs t h k used', text = fieldsText fs ++ t ∧ Reads t h ∧ v = .more (.hdrs h k) used' []) ∨
    ∃ fs eol rest k, text = fieldsText fs ++ eol ++ rest ∧ IsEol eol ∧ Unfolded fs ∧
      contentLens n fs = some k ∧ v = frameBody k (used + (fieldsText fs ++ eol).length) rest

/-- One more field in front. -/
theorem HdrsSpec.cons {k : ℕ} {ch : Char} {cs : Str} {f : HeaderField}
    (hk : contentLengthAfter n f.name f.value = some k) (hw : isWsp ch = false)
    (h : HdrsSpec k (used + f.text.length) (ch :: cs) v) :
    HdrsSpec n used (f.text ++ ch :: cs) v := by
  rcases h with h | ⟨fs, t, h, k', used', htext, hr, rfl⟩ |
    ⟨fs, eol, rest, k', htext, he, hu, hlen, rfl⟩
  · exact .inl h
  · exact .inr (.inl ⟨f :: fs, t, h, k', used', by rw [htext]; simp [fieldsText], hr, rfl⟩)
  · refine .inr (.inr ⟨f :: fs, eol, rest, k', by rw [htext]; simp [fieldsText], he,
      hu.cons (s := eol ++ rest) (by rw [htext, append_assoc]) hw,
      by simp [contentLens, hk, hlen], ?_⟩)
    congr 1
    rw [fieldsText_cons]
    simp only [length_append]
    omega

/-- After an empty line. -/
theorem HdrsSpec.emptyLine {t : Str} (ht : IsEol t) (used : ℕ) (s : Str) :
    HdrsSpec n used (t ++ s) (frameBody n (used + t.length) s) :=
  .inr (.inr ⟨[], t, s, n, rfl, ht, (fun _ h => nomatch h), rfl, rfl⟩)

theorem frameHdrsEnd_spec {s t : Str} {p : HdrParser} (hr : Reads t p) :
    HdrsSpec n used (t ++ s) (frameHdrsEnd p n (used + t.length) s) := by
  unfold frameHdrsEnd
  split_ifs with hend hlen hs
  · exact .emptyLine (hr.emptyLine hend.1 hend.2 hlen) used s
  · exact .inl rfl
  · exact .inr (.inl ⟨[], t, p, n, _, by simp [hs], hr, rfl⟩)
  · exact .inl rfl

theorem frameHdrs_spec : ∀ {s t : Str} {p : HdrParser} (_ : Reads t p) (n used : ℕ),
    HdrsSpec n used (t ++ s) (frameHdrs p n (used + t.length) s)
  | [], t, p, hr, n, used => frameHdrsEnd_spec hr
  | ch :: cs, t, p, hr, n, used => by
    unfold frameHdrs
    split_ifs with h0
    · exact frameHdrsEnd_spec hr
    · cases hc : p.char ch with
      | next q =>
        have hrec := frameHdrs_spec (hr.char h0 hc) n used (s := cs)
        rwa [append_assoc, singleton_append, length_append,
          length_singleton, ← Nat.add_assoc] at hrec
      | endOfHeaders =>
        obtain ⟨hst, hs, hlen⟩ := char_eq_endOfHeaders hc
        exact .emptyLine (hr.emptyLine hst hs hlen) used (ch :: cs)
      | field name value =>
        obtain ⟨-, -, -, -, hw⟩ := char_eq_field hc
        obtain ⟨f, rfl, rfl, rfl⟩ := hr.field hc
        dsimp only
        cases hk : contentLengthAfter n f.name f.value with
        | none => exact .inl rfl
        | some k =>
          exact .cons hk hw (frameHdrs_spec (Reads.start.nameChar rfl h0) k (used + f.text.length))
      | _ => exact .inl rfl

/-- A text, and the verdict on it. -/
def FrameSpec (s : Str) (v : Verdict) : Prop :=
  v = .malformed ∨ (∃ st used, v = .more (.line st) used []) ∨
    ∃ line text, s = line ++ text ∧ IsLine line ∧ HdrsSpec 0 line.length text v

theorem frameLine_spec : ∀ (s : Str) (st : HState) {l : Str} (_ : ∀ c ∈ l, isPlain c = true)
    (_ : st = .H_NAME ∨ st.tail ≠ []),
    FrameSpec (l ++ st.tail ++ s) (frameLine st (l ++ st.tail).length s)
  | [], st, l, hl, hst => .inr (.inl ⟨st, _, rfl⟩)
  | ch :: cs, st, l, hl, hst => by
    unfold frameLine
    by_cases h0 : ch = '\x00'
    · rw [if_pos h0]
      exact .inl rfl
    · rw [if_neg h0]
      have hdone (he : IsEol st.tail) : FrameSpec (l ++ st.tail ++ ch :: cs)
          (frameHdrs ((start []).nameChar ch) 0 ((l ++ st.tail).length + 1) cs) :=
        .inr (.inr ⟨l ++ st.tail, ch :: cs, rfl, ⟨l, st.tail, rfl, hl, he⟩,
          frameHdrs_spec (Reads.start.nameChar rfl h0) 0 _⟩)
      cases st with
      | H_NAME =>
        dsimp only
        split_ifs with hcr hlf
        · have hrec := frameLine_spec cs .ST_CR hl (.inr (by decide))
          simpa [HState.tail, hcr] using hrec
        · have hrec := frameLine_spec cs .ST_LF hl (.inr (by decide))
          simpa [HState.tail, hlf] using hrec
        · have hl' : ∀ c ∈ l ++ [ch], isPlain c = true := by
            intro c hc
            rcases mem_append.1 hc with hc | hc
            · exact hl c hc
            · rw [mem_singleton.1 hc]
              exact isPlain_iff.2 ⟨hcr, hlf, h0⟩
          have hrec := frameLine_spec cs .H_NAME hl' (.inl rfl)
          simpa [HState.tail] using hrec
      | ST_CR =>
        dsimp only
        split_ifs with hlf
        · have hrec := frameLine_spec cs .ST_CRLF hl (.inr (by decide))
          simpa [HState.tail, hlf] using hrec
        · exact .inl rfl
      | ST_LF => exact hdone (.inl rfl)
      | ST_CRLF => exact hdone (.inr rfl)
      | _ => exact absurd hst (by decide)

theorem frame_spec (s : Str) : FrameSpec s (frame s) :=
  frameLine_spec s .H_NAME (l := []) (by simp) (.inl rfl)

/-- The text ends in a header field, after its name. -/
def CutAfterName (s : Str) : Prop :=
  ∃ line fs h, ∃ f : HeaderField, s = line ++ fieldsText fs ++ h ∧ IsLine line ∧ h <+: f.text ∧
    f.name ≠ [] ∧ f.name.length < h.length

/-- A framer that has the name of a header, and wants more. -/
theorem cutAfterName_of_more {s rest : Str} {h : HdrParser}
    (hs : frame s = .more (.hdrs h n) used rest) (hname : h.name ≠ []) : CutAfterName s := by
  rcases frame_spec s with hv | ⟨st, used, hv⟩ | ⟨line, text, rfl, hline, hv⟩
  · rw [hs] at hv
    cases hv
  · rw [hs] at hv
    cases hv
  · rw [hs] at hv
    rcases hv with hv | ⟨fs, t, h', k, used', rfl, hr, hv⟩ | ⟨fs, eol, rest', k, -, -, -, -, hv⟩
    · cases hv
    · cases hv
      obtain ⟨f, hf, hpre, hlen⟩ := hr.cut hname
      exact ⟨line, fs, t, f, by simp, hline, hpre, hf ▸ hname, hlen⟩
    · unfold frameBody at hv
      split_ifs at hv
      cases hv

end Sems
