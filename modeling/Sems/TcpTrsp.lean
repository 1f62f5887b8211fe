import Sems.FramerRefine

/-!
# Reading a TCP connection

`tcp_trsp_socket::parse_input` (`core/sip/tcp_trsp.cpp`) : the bytes of a connection are read into
an input buffer, and every complete message in it is handed to the transaction layer. An unfinished
message is moved to the start of the buffer, and with it the pointers of the parser state, except
the name of the header that is read.

The messages handed over are those of the stream (`StreamFramer.drain`), however it was cut, as long
as no move happens inside a header after its name (`received_eq_whole`). Their bytes are always the
beginning of the stream (`received_flatten`).
-/

namespace Sems

open List StreamFramer

def MAX_TCP_MSGLEN : ℕ := 65535

/-- A connection. `received` are the messages handed to `received_msg`. -/
structure TcpTrspSocket where
  mem : Mem
  inputLen : ℕ
  pst : ParserState
  closed : Bool
  received : List Str

namespace TcpTrspSocket

/-- A new connection. The buffer holds whatever the memory held. -/
def init (m : Mem) : TcpTrspSocket :=
  ⟨m, 0, .reset 0, false, []⟩

variable (s : TcpTrspSocket)

def getInputFreeSpace : ℕ :=
  MAX_TCP_MSGLEN - s.inputLen

/-- The loop of `parse_input`. With `false` it returns -1. A round that does not return takes a
message from the buffer. -/
def parseInputLoop : ℕ → TcpTrspSocket → Bool × TcpTrspSocket
  | 0, s => (false, s)
  | k + 1, s =>
    match skipSipMsgAsync s.mem s.inputLen s.pst with
    | (some err, p) =>
      if err = .UNEXPECTED_EOT ∧ 0 < p.origBuf then
        -- `hdr.name` is not moved
        let shift := p.origBuf
        (true, { s with
          mem := moveMem s.mem shift (s.inputLen - shift)
          pst := { p with origBuf := 0, c := p.c - shift, beg := p.beg - shift }
          inputLen := s.inputLen - shift })
      else if err = .UNEXPECTED_EOT ∧ s.getInputFreeSpace ≠ 0 then (true, { s with pst := p })
      else (false, { s with pst := .reset 0, inputLen := 0 })
    | (none, p) =>
      let msgLen := p.getMsgLen.toNat
      let received := s.received ++ [readMem s.mem p.origBuf msgLen]
      let msgEnd := p.origBuf + msgLen
      if msgEnd < s.inputLen then
        parseInputLoop k { s with pst := .reset msgEnd, received := received }
      else (true, { s with pst := .reset 0, inputLen := 0, received := received })

def parseInput : Bool × TcpTrspSocket :=
  s.parseInputLoop (s.inputLen + 1)

/-- `on_read`, when `read` returns the bytes `chunk`. Nothing is read from a closed
connection. -/
def onRead (chunk : Str) : TcpTrspSocket :=
  if s.closed then s
  else
    let r := parseInput { s with
      mem := writeMem s.mem s.inputLen chunk
      inputLen := s.inputLen + chunk.length }
    if r.1 then r.2 else { r.2 with closed := true }

/-- Some chunks are read, one after the other. -/
def reads (chunks : List Str) : TcpTrspSocket :=
  chunks.foldl onRead s

end TcpTrspSocket

/-! ## The parser state in the buffer -/

variable {m : Mem} {orig used : ℕ} {p : ParserState} {st : FrameState}

theorem Rep.origBuf (h : Rep m orig p used st) : p.origBuf = orig ∧ p.c = orig + used := by
  cases st with
  | line st => exact ⟨h.1, h.2.1⟩
  | hdrs q n => exact ⟨h.1.origBuf, h.1.cursor⟩
  | body n => exact ⟨h.1, h.2.1⟩

/-- The parser state only reads what is before its cursor. -/
theorem Rep.congr {m' : Mem} (h : Rep m orig p used st) (hm : ∀ b < p.c, m' b = m b) :
    Rep m' orig p used st := by
  cases st with
  | line st | body n => exact h
  | hdrs q n =>
    obtain ⟨hk, hrep, hr⟩ := h
    refine ⟨hk, { hrep with cur := ?_, name := ?_ }, hr⟩
    · rw [readMem_congr fun b _ hb => hm b (by rw [hrep.cursor]; exact hb), hrep.cur]
    · by_cases hlen : p.name.len = 0
      · rw [← hrep.name, hlen]
        rfl
      · have := hrep.nameLe hlen
        rw [readMem_congr fun b _ hb => hm b (by omega), hrep.name]

/-- The move of an unfinished message to the start of the buffer, when no name was read. -/
theorem Rep.move {finish : ℕ} (h : Rep m orig p used st) (hc : p.c ≤ finish)
    (hname : ∀ q n, st = .hdrs q n → q.name = []) :
    Rep (moveMem m orig (finish - orig)) 0
      { p with origBuf := 0, c := p.c - orig, beg := p.beg - orig } used st := by
  cases st with
  | line st =>
    obtain ⟨-, hcur, hstage, hst, hn⟩ := h
    exact ⟨rfl, by show p.c - orig = _; omega, hstage, hst, hn⟩
  | body n =>
    obtain ⟨-, hcur, hstage, hn⟩ := h
    exact ⟨rfl, by show p.c - orig = _; omega, hstage, hn⟩
  | hdrs q n =>
    obtain ⟨hk, hrep, hr⟩ := h
    have hcur := hk.cursor
    have hcur' := hrep.cursor
    have hbeg : orig ≤ p.beg := hk.origBuf ▸ hrep.begLe
    have hlen : p.name.len = 0 := by rw [hrep.name_len, hname q n rfl, length_nil]
    refine ⟨⟨rfl, by show p.c - orig = _; omega, hk.stage, hk.contentLen⟩, ?_, hr⟩
    refine ⟨hrep.st, hrep.saved, ?_, ?_, ?_, hrep.value, Nat.zero_le _, fun h => absurd hlen h⟩
    · show p.c - orig = p.beg - orig + q.cur.length
      omega
    · show readMem _ (p.beg - orig) q.cur.length = q.cur
      rw [readMem_moveMem (by omega), Nat.add_sub_cancel' hbeg, hrep.cur]
    · rw [hlen, hname q n rfl]
      rfl

namespace TcpTrspSocket

/-- The connection is open, and its buffer holds the part `u` of a message. -/
structure Waiting (s : TcpTrspSocket) (u : Str) : Prop where
  isOpen : s.closed = false
  text : readMem s.mem 0 s.inputLen = u
  cursor : s.pst.c ≤ s.inputLen
  rep : ∃ st used, frame u = .more st used (readMem s.mem s.pst.c (s.inputLen - s.pst.c)) ∧
    Rep s.mem 0 s.pst used st

theorem waiting_init : (init m).Waiting [] :=
  ⟨rfl, rfl, Nat.le_refl 0, .line .H_NAME, 0, rfl, rep_reset⟩

/-- After the move of an unfinished message. -/
theorem waiting_move {s : TcpTrspSocket} {q : ParserState} (hop : s.closed = false)
    (hrep : Rep s.mem orig q used st) (hq : q.c ≤ s.inputLen)
    (hv : frame (readMem s.mem orig (s.inputLen - orig)) =
      .more st used (readMem s.mem q.c (s.inputLen - q.c)))
    (hcut : ¬ CutAfterName (readMem s.mem orig (s.inputLen - orig))) :
    Waiting { s with
      mem := moveMem s.mem orig (s.inputLen - orig)
      pst := { q with origBuf := 0, c := q.c - orig, beg := q.beg - orig }
      inputLen := s.inputLen - orig } (readMem s.mem orig (s.inputLen - orig)) := by
  obtain ⟨-, hqc⟩ := hrep.origBuf
  have hmv {a n : ℕ} (h : a + n ≤ s.inputLen - orig) :
      readMem (moveMem s.mem orig (s.inputLen - orig)) a n = readMem s.mem (orig + a) n :=
    readMem_moveMem h
  refine ⟨hop, hmv (by simp), by dsimp only; omega, st, used, ?_, hrep.move hq ?_⟩
  · dsimp only
    rw [hv, hmv (by omega), Nat.add_sub_cancel' (by omega),
      show s.inputLen - orig - (q.c - orig) = s.inputLen - q.c by omega]
  · rintro h n rfl
    by_contra hne
    exact hcut (cutAfterName_of_more hv hne)

/-- What `parse_input` does with the bytes `v` from `orig_buf` on. -/
theorem parseInputLoop_rep : ∀ {k : ℕ} {s : TcpTrspSocket} {orig used : ℕ} {st : FrameState},
    s.closed = false → Rep s.mem orig s.pst used st → s.pst.c < s.inputLen →
    frame (readMem s.mem orig (s.inputLen - orig)) =
      resume st used (readMem s.mem s.pst.c (s.inputLen - s.pst.c)) →
    s.inputLen - orig < k →
    let d := sipFramer.drain (readMem s.mem orig (s.inputLen - orig))
    (s.parseInputLoop k).2.received = s.received ++ d.1 ∧
      ((s.parseInputLoop k).1 = true → ∃ u, d.2 = some u ∧
        ((0 < orig ∨ d.1 ≠ [] → ¬ CutAfterName u) → (s.parseInputLoop k).2.Waiting u))
  | 0, s, orig, used, st, hop, hrep, hc, hframe, hk => absurd hk (Nat.not_lt_zero _)
  | k + 1, s, orig, used, st, hop, hrep, hc, hframe, hk => by
    intro d
    have hskip := skip_refines hrep hc
    rw [← hframe] at hskip
    unfold parseInputLoop
    generalize skipSipMsgAsync s.mem s.inputLen s.pst = r at hskip ⊢
    generalize hv : frame (readMem s.mem orig (s.inputLen - orig)) = v at hskip
    cases hskip with
    | @more st' used' q hrep' hq =>
      have hd : d = ([], some _) := drain_more (congrArg Verdict.cut hv)
      obtain ⟨ho, -⟩ := hrep'.origBuf
      rw [hd]
      dsimp only
      rw [ho]
      split_ifs with horig hfree
      · refine ⟨by simp, fun _ => ⟨_, rfl, fun hcond => ?_⟩⟩
        exact waiting_move hop hrep' hq hv (hcond (.inl horig.2))
      · refine ⟨by simp, fun _ => ⟨_, rfl, fun _ => ?_⟩⟩
        obtain rfl : orig = 0 := by
          by_contra hne
          exact horig ⟨rfl, Nat.pos_of_ne_zero hne⟩
        exact ⟨hop, rfl, hq, st', used', hv, hrep'⟩
      · exact ⟨by simp, fun h => nomatch h⟩
    | @msg len q ho hlen =>
      have hcut := congrArg Verdict.cut hv
      have hpos := sipFramer.pos hcut
      have hle := sipFramer.le hcut
      rw [length_readMem] at hle
      have hd : d = _ := drain_item hcut
      rw [hd, ← readMem_take rfl hle, readMem_drop hle, Nat.sub_sub]
      dsimp only
      rw [ho, hlen, Int.toNat_natCast]
      split_ifs with hmore
      · obtain ⟨hrec, hwait⟩ := parseInputLoop_rep
          (s := { s with pst := .reset (orig + len), received := s.received ++ [_] })
          hop rep_reset hmore rfl (by show s.inputLen - _ < k; omega)
        refine ⟨by rw [hrec]; simp, fun hret => ?_⟩
        obtain ⟨u, hu, hw⟩ := hwait hret
        exact ⟨u, hu, fun hcond => hw fun _ => hcond (.inr (by simp))⟩
      · have hend : s.inputLen - (orig + len) = 0 := by omega
        have hnil : sipFramer.drain (readMem s.mem (orig + len) 0) = ([], some []) :=
          drain_more rfl
        rw [hend, hnil]
        refine ⟨rfl, fun _ => ⟨[], rfl, fun _ => ?_⟩⟩
        exact ⟨hop, rfl, Nat.le_refl 0, .line .H_NAME, 0, rfl, rep_reset⟩
    | @malformed err q herr =>
      have hd : d = ([], none) := drain_bad (congrArg Verdict.cut hv)
      rw [hd]
      dsimp only
      rw [if_neg (fun h => herr h.1), if_neg (fun h => herr h.1)]
      exact ⟨by simp, fun h => nomatch h⟩

/-! ## Runs -/

variable (s : TcpTrspSocket)

/-- The bytes in the buffer. -/
def buffered : Str :=
  readMem s.mem 0 s.inputLen

/-- `read` can return the bytes `chunk`. -/
def Readable (chunk : Str) : Prop :=
  s.closed = false ∧ chunk ≠ [] ∧ chunk.length ≤ s.getInputFreeSpace

instance (s : TcpTrspSocket) (chunk : Str) : Decidable (s.Readable chunk) :=
  inferInstanceAs (Decidable (_ ∧ _ ∧ _))

/-- `read` can return these chunks, one after the other. -/
def ReadableAll : TcpTrspSocket → List Str → Prop
  | _, [] => True
  | s, chunk :: chunks => s.Readable chunk ∧ (s.onRead chunk).ReadableAll chunks

/-- When a message ends in the bytes of the buffer and of `chunk`, what follows it does not end in a
header after its name. -/
def CutOk (chunk : Str) : Prop :=
  (sipFramer.drain (s.buffered ++ chunk)).1 ≠ [] →
    ∀ u, (sipFramer.drain (s.buffered ++ chunk)).2 = some u → ¬ CutAfterName u

/-- Every chunk but the last ends well. -/
def CutsOk : TcpTrspSocket → List Str → Prop
  | s, chunk :: next :: chunks => s.CutOk chunk ∧ (s.onRead chunk).CutsOk (next :: chunks)
  | _, _ => True

/-- One chunk, after the part `u` of a message. -/
theorem onRead_rep {s : TcpTrspSocket} {u chunk : Str} (hw : s.Waiting u) (hne : chunk ≠ []) :
    (s.onRead chunk).received = s.received ++ (sipFramer.drain (u ++ chunk)).1 ∧
      ((s.onRead chunk).closed = false → s.CutOk chunk →
        ∃ u', (sipFramer.drain (u ++ chunk)).2 = some u' ∧ (s.onRead chunk).Waiting u') := by
  obtain ⟨st, used, hframe, hrep⟩ := hw.rep
  have hlen := length_pos_iff.2 hne
  have hcur := hw.cursor
  have htext : readMem (writeMem s.mem s.inputLen chunk) 0 (s.inputLen + chunk.length) =
      u ++ chunk := by
    rw [readMem_writeMem_append, hw.text]
  have hrest : readMem (writeMem s.mem s.inputLen chunk) s.pst.c
      (s.inputLen + chunk.length - s.pst.c) =
        readMem s.mem s.pst.c (s.inputLen - s.pst.c) ++ chunk := by
    rw [show s.inputLen + chunk.length - s.pst.c = s.inputLen - s.pst.c + chunk.length by omega,
      readMem_add, Nat.add_sub_cancel' hcur, readMem_writeMem,
      readMem_congr fun b _ hb => writeMem_of_lt (by omega)]
  obtain ⟨hrec, hwait⟩ := parseInputLoop_rep (k := s.inputLen + chunk.length + 1)
    (s := { s with
      mem := writeMem s.mem s.inputLen chunk
      inputLen := s.inputLen + chunk.length })
    hw.isOpen (hrep.congr fun b hb => writeMem_of_lt (by omega))
    (by show s.pst.c < s.inputLen + chunk.length; omega)
    (by rw [Nat.sub_zero, htext, frame_append, hframe, hrest]; rfl)
    (by show s.inputLen + chunk.length - 0 < _; omega)
  rw [Nat.sub_zero, htext] at hrec hwait
  unfold onRead parseInput
  rw [if_neg (by rw [hw.isOpen]; decide)]
  dsimp only
  split_ifs with hret
  · refine ⟨hrec, fun _ hcut => ?_⟩
    obtain ⟨u', hu, hw'⟩ := hwait hret
    refine ⟨u', hu, hw' fun hor => ?_⟩
    have hbuf : s.buffered = u := hw.text
    unfold CutOk at hcut
    rw [hbuf] at hcut
    exact hcut (hor.resolve_left (Nat.lt_irrefl 0)) u' hu
  · exact ⟨hrec, fun h => nomatch h⟩

/-- A connection that has read the stream `t`. -/
def Tracks (t : Str) : Prop :=
  s.received = (sipFramer.drain t).1 ∧ ∃ u, (sipFramer.drain t).2 = some u ∧ s.Waiting u

theorem tracks_init (m : Mem) : (init m).Tracks [] := by
  unfold Tracks
  exact ⟨rfl, [], rfl, waiting_init⟩

/-- One chunk. -/
theorem Tracks.onRead {s : TcpTrspSocket} {t chunk : Str} (h : s.Tracks t) (hne : chunk ≠ []) :
    (s.onRead chunk).received = (sipFramer.drain (t ++ chunk)).1 ∧
      ((s.onRead chunk).closed = false → s.CutOk chunk → (s.onRead chunk).Tracks (t ++ chunk)) := by
  obtain ⟨hrec, u, hu, hw⟩ := h
  obtain ⟨hrec', hwait⟩ := onRead_rep hw hne
  have hd : sipFramer.drain (t ++ chunk) = ((sipFramer.drain t).1 ++
      (sipFramer.drain (u ++ chunk)).1, (sipFramer.drain (u ++ chunk)).2) := by
    rw [drain_append, hu]
  have hall : (s.onRead chunk).received = (sipFramer.drain (t ++ chunk)).1 := by
    rw [hrec', hrec, hd]
  refine ⟨hall, fun hopen hcut => ⟨hall, ?_⟩⟩
  obtain ⟨u', hu', hw'⟩ := hwait hopen hcut
  exact ⟨u', by rw [hd]; exact hu', hw'⟩

/-- Any number of chunks. -/
theorem Tracks.reads : ∀ {chunks : List Str} {s : TcpTrspSocket} {t : Str}, s.Tracks t →
    s.ReadableAll chunks → s.CutsOk chunks →
    (s.reads chunks).received = (sipFramer.drain (t ++ chunks.flatten)).1
  | [], s, t, h, _, _ => by simpa [TcpTrspSocket.reads] using h.1
  | [chunk], s, t, h, hread, _ => by
    simpa [TcpTrspSocket.reads] using (h.onRead hread.1.2.1).1
  | chunk :: next :: chunks, s, t, h, hread, hcuts => by
    have hopen : (s.onRead chunk).closed = false := hread.2.1.1
    have hnext := (h.onRead hread.1.2.1).2 hopen hcuts.1
    have hrec := Tracks.reads hnext hread.2 hcuts.2
    rw [append_assoc] at hrec
    exact hrec

/-- However a stream is cut into chunks that can be read, the messages handed over are those of the
stream in one chunk, when no chunk that ends a message also ends in a later header after its name.
-/
theorem received_eq_whole (m : Mem) (chunks : List Str) (hread : (init m).ReadableAll chunks)
    (hcuts : (init m).CutsOk chunks) :
    ((init m).reads chunks).received = ((init m).reads [chunks.flatten]).received := by
  have hall := (tracks_init m).reads hread hcuts
  rw [hall, nil_append]
  cases chunks with
  | nil => rfl
  | cons chunk chunks =>
    have hne : (chunk :: chunks).flatten ≠ [] := by
      simp [hread.1.2.1]
    exact ((tracks_init m).onRead hne).1.symm

/-- Two requests, the second with a body. -/
def twoRequests : Str :=
  "BYE sip:a SIP/2.0\r\n\r\n".toList ++
    "INFO sip:b SIP/2.0\r\nl: 2\r\nSubject: cut after the colon\r\n\r\nok".toList

/-- Cut in the method of the second request. -/
theorem received_eq_whole_inMethod :
    ((init fun _ => 'x').reads [twoRequests.take 23, twoRequests.drop 23]).received =
      ((init fun _ => 'x').reads [twoRequests]).received := by
  refine received_eq_whole _ [twoRequests.take 23, twoRequests.drop 23]
    ⟨by decide, by decide, trivial⟩ ⟨fun _ u hu => ?_, trivial⟩
  have hu' : some "IN".toList = some u := hu ▸ (by decide)
  cases hu'
  rintro ⟨line, fs, h, f, htext, ⟨l, eol, rfl, -, he⟩, -⟩
  have hlf : '\n' ∈ eol := by rcases he with rfl | rfl <;> simp
  have hmem : '\n' ∈ "IN".toList := by
    rw [htext]
    simp [hlf]
  exact absurd hmem (by decide)

/-- After the colon of its Content-Length header the second request is moved, and the header's name
is no longer found : the body is left behind. -/
theorem received_ne_whole_afterName :
    (init fun _ => 'x').ReadableAll [twoRequests.take 44, twoRequests.drop 44] ∧
      ((init fun _ => 'x').reads [twoRequests.take 44, twoRequests.drop 44]).received =
        [twoRequests.take 21, (twoRequests.drop 21).take 58] ∧
      ((init fun _ => 'x').reads [twoRequests.take 44, twoRequests.drop 44]).received ≠
        ((init fun _ => 'x').reads [twoRequests]).received :=
  ⟨⟨by decide, by decide, trivial⟩, by decide, by decide⟩

end TcpTrspSocket

/-! ## No byte is lost

Where the messages end may depend on a name that is no longer found. Their bytes are those of the
stream all the same. -/

/-- The parser is inside the message that starts at `orig`, and before `finish`. -/
@[grind]
structure ParserState.InMsg (orig finish : ℕ) (p : ParserState) : Prop where
  origBuf : p.origBuf = orig
  orig_le : orig ≤ p.c
  le : p.c ≤ finish
  contentLen : 0 ≤ p.contentLen

section InMsg

open ParserState

variable {finish n : ℕ} (h : p.InMsg orig finish)

include h

theorem skipLineLoop_inMsg (hn : p.c + n = finish) : (skipLineLoop m n p).2.InMsg orig finish := by
  fun_induction skipLineLoop m n p
  all_goals grind [caseCrLf, advance]

theorem headerLoop_inMsg (hn : p.c + n = finish) : (headerLoop m n p).2.InMsg orig finish := by
  fun_induction headerLoop m n p
  all_goals grind [caseCrLf, advance, headerEnd, headerChar, headerAfterEol]

theorem headersLoop_inMsg (herr : (headersLoop m finish n p).1 ≠ some .MALFORMED_SIP_MSG) :
    (headersLoop m finish n p).2.InMsg orig finish := by
  have hone {p : ParserState} (h : p.InMsg orig finish) :
      (parseHeaderAsync m finish p).2.InMsg orig finish :=
    headerLoop_inMsg h (Nat.add_sub_cancel' h.le)
  fun_induction headersLoop m finish n p
  all_goals grind [noteContentLength, resetHdrParser]

/-- The end of a message is in the bytes that were looked at. -/
theorem skipSipMsgLoop_inMsg (herr : (skipSipMsgLoop m finish n p).1 ≠ some .MALFORMED_SIP_MSG) :
    (skipSipMsgLoop m finish n p).2.InMsg orig finish ∧
      ((skipSipMsgLoop m finish n p).1 = none →
        (skipSipMsgLoop m finish n p).2.c + (skipSipMsgLoop m finish n p).2.contentLen ≤
          finish) := by
  have hline {p : ParserState} (h : p.InMsg orig finish) :
      (skipLineAsync m finish p).2.InMsg orig finish :=
    skipLineLoop_inMsg h (Nat.add_sub_cancel' h.le)
  have hhdrs {p : ParserState} (h : p.InMsg orig finish)
      (herr : (parseHeadersAsync m finish p).1 ≠ some .MALFORMED_SIP_MSG) :
      (parseHeadersAsync m finish p).2.InMsg orig finish :=
    headersLoop_inMsg h herr
  fun_induction skipSipMsgLoop m finish n p
  all_goals grind [resetHdrParser]

end InMsg

namespace TcpTrspSocket

/-- The connection has read the stream `t`, has handed over its beginning and holds the rest. -/
structure Holds (s : TcpTrspSocket) (t : Str) : Prop where
  inMsg : s.pst.InMsg s.pst.origBuf s.inputLen
  stream : s.received.flatten ++ readMem s.mem s.pst.origBuf (s.inputLen - s.pst.origBuf) = t

theorem parseInputLoop_holds : ∀ (k : ℕ) {s : TcpTrspSocket} {t : Str}, s.Holds t →
    (s.parseInputLoop k).2.received.flatten <+: t ∧
      ((s.parseInputLoop k).1 = true →
        (s.parseInputLoop k).2.Holds t ∧ (s.parseInputLoop k).2.pst.origBuf = 0)
  | 0, _, _, h => ⟨⟨_, h.stream⟩, fun hr => absurd hr Bool.false_ne_true⟩
  | k + 1, s, t, h => by
    have hskip := @skipSipMsgLoop_inMsg s.mem _ _ _ (s.inputLen - s.pst.c + 3) h.inMsg
    unfold parseInputLoop skipSipMsgAsync
    generalize skipSipMsgLoop s.mem s.inputLen _ s.pst = r at hskip ⊢
    have hpre : s.received.flatten <+: t := ⟨_, h.stream⟩
    obtain ⟨_ | err, q⟩ := r
    · obtain ⟨⟨ho, hle, -, hlen⟩, hend⟩ := hskip (by simp)
      have hend := hend rfl
      dsimp only at ho hle hlen hend ⊢
      obtain ⟨n, hn⟩ : ∃ n : ℕ, q.getMsgLen = n :=
        Int.eq_ofNat_of_zero_le (by rw [ParserState.getMsgLen]; omega)
      have hfit : q.origBuf + n ≤ s.inputLen := by
        rw [ParserState.getMsgLen] at hn
        omega
      have hsplit : (s.received ++ [readMem s.mem q.origBuf n]).flatten ++
          readMem s.mem (q.origBuf + n) (s.inputLen - (q.origBuf + n)) = t := by
        rw [← h.stream, flatten_append, append_assoc, flatten_singleton, ← ho, ← readMem_add,
          show n + (s.inputLen - (q.origBuf + n)) = s.inputLen - q.origBuf by omega]
      rw [hn, Int.toNat_natCast]
      split_ifs with hmore
      · exact parseInputLoop_holds k ⟨⟨rfl, Nat.le_refl _, hfit, Int.le_refl 0⟩, hsplit⟩
      · rw [Nat.sub_eq_zero_of_le (not_lt.1 hmore)] at hsplit
        exact ⟨⟨[], hsplit⟩, fun _ =>
          ⟨⟨⟨rfl, Nat.le_refl 0, Nat.le_refl 0, Int.le_refl 0⟩, hsplit⟩, rfl⟩⟩
    · dsimp only
      split_ifs with hmove hfree
      · obtain ⟨⟨ho, hle, hfin, hlen⟩, -⟩ := hskip (by simp [hmove.1])
        dsimp only at ho hle hfin hlen
        refine ⟨hpre, fun _ => ⟨⟨⟨rfl, Nat.zero_le _, Nat.sub_le_sub_right hfin _, hlen⟩, ?_⟩, rfl⟩⟩
        rw [← h.stream, ho]
        exact congrArg _ (readMem_moveMem (by simp))
      · obtain ⟨hq, -⟩ := hskip (by simp [hfree.1])
        have ho := hq.origBuf
        refine ⟨hpre, fun _ => ⟨⟨{ hq with origBuf := rfl, orig_le := ho ▸ hq.orig_le }, ?_⟩, ?_⟩⟩
        · exact ho.symm ▸ h.stream
        · by_contra hne
          exact hmove ⟨hfree.1, Nat.pos_of_ne_zero hne⟩
      · exact ⟨hpre, False.elim⟩

/-- What was handed over of the stream `t`. -/
structure Conserves (s : TcpTrspSocket) (t : Str) : Prop where
  handed : s.received.flatten <+: t
  holds : s.closed = false → s.Holds t ∧ s.pst.origBuf = 0

theorem Conserves.onRead {s : TcpTrspSocket} {t : Str} (h : s.Conserves t) (chunk : Str) :
    (s.onRead chunk).Conserves (t ++ chunk) := by
  unfold TcpTrspSocket.onRead parseInput
  split_ifs with hclosed
  · exact ⟨h.handed.trans (prefix_append ..), fun hopen => absurd (hclosed.symm.trans hopen) nofun⟩
  · obtain ⟨hs, ho⟩ := h.holds (Bool.eq_false_iff.2 hclosed)
    have htext := hs.stream
    rw [ho, Nat.sub_zero] at htext
    have hread : Holds { s with
        mem := writeMem s.mem s.inputLen chunk
        inputLen := s.inputLen + chunk.length } (t ++ chunk) := by
      refine ⟨{ hs.inMsg with le := Nat.le_add_right_of_le hs.inMsg.le }, ?_⟩
      dsimp only
      rw [ho, Nat.sub_zero, readMem_writeMem_append, ← append_assoc, htext]
    obtain ⟨hpre, hret⟩ := parseInputLoop_holds (s.inputLen + chunk.length + 1) hread
    dsimp only
    split_ifs with hr
    · exact ⟨hpre, fun _ => hret hr⟩
    · exact ⟨hpre, nofun⟩

theorem Conserves.reads : ∀ {chunks : List Str} {s : TcpTrspSocket} {t : Str}, s.Conserves t →
    (s.reads chunks).Conserves (t ++ chunks.flatten)
  | [], s, t, h => (append_nil t).symm ▸ h
  | chunk :: chunks, s, t, h => by
    rw [flatten_cons, ← append_assoc]
    exact Conserves.reads (h.onRead chunk)

/-- However a stream is cut, no byte is lost between two messages, or handed over twice. -/
theorem received_flatten (m : Mem) (chunks : List Str) :
    ((init m).reads chunks).received.flatten <+: chunks.flatten := by
  have hinit : (init m).Conserves [] :=
    ⟨ nil_prefix, fun _ => ⟨⟨⟨rfl, Nat.le_refl 0, Nat.le_refl 0, Int.le_refl 0⟩, rfl⟩, rfl⟩⟩
  exact hinit.reads.handed

end TcpTrspSocket

end Sems
