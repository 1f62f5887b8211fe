import Sems.SdpRoundTrip

/-!
# What the parser gives

The parameters of a payload are copied from the offer to the answer. They are taken from one line of
the text (`notMem_formatParams`), so that the parameters of a parsed description have no line ends
(`mediaParams_parse`).
-/

namespace Sems

open List

variable {s : Str} {c : Char} {sdp sdp' : AmSdp}

/-! ## Parts of a line -/

/-- A line is what is before the next one, and has its line feed at its end. -/
theorem exists_line (s : Str) : ∃ line, s = line ++ getNextLine s ∧ '\n' ∉ line.dropLast := by
  fun_induction getNextLine s with
  | case1 => exact ⟨[], rfl, not_mem_nil⟩
  | case2 s => exact ⟨['\r', '\n'], rfl, by decide⟩
  | case3 s => exact ⟨['\n'], rfl, by decide⟩
  | case4 c s _ hc ih =>
    obtain ⟨line, hline, hnl⟩ := ih
    refine ⟨c :: line, by rw [cons_append, ← hline], ?_⟩
    cases line with
    | nil => exact not_mem_nil
    | cons x line =>
      rw [dropLast_cons_of_ne_nil (cons_ne_nil _ _)]
      exact not_mem_cons_of_ne_of_not_mem (Ne.symm hc) hnl

theorem suffix_of_parseUntil : ∀ {s next : Str}, parseUntil c s = some next → next <:+ s
  | [], _, h => absurd h nofun
  | x :: s, next, h => by
    rw [parseUntil] at h
    split_ifs at h
    · obtain rfl := Option.some.inj h
      exact suffix_cons _ _
    · exact (suffix_of_parseUntil h).trans (suffix_cons _ _)

theorem suffix_getD_parseUntil (c : Char) (s : Str) : (parseUntil c s).getD [] <:+ s := by
  cases h : parseUntil c s with
  | none => exact nil_suffix
  | some next => exact suffix_of_parseUntil h

variable {value : Str}

/-- What is left of a line has its line feed at its end too. -/
theorem notMem_between (hs : '\x00' ∉ s) (hvalue : value <:+ s) :
    '\n' ∉ (between value (getNextLine s)).dropLast ∧ '\x00' ∉ between value (getNextLine s) := by
  obtain ⟨line, hline, hnl⟩ := exists_line s
  generalize getNextLine s = next at hline ⊢
  subst hline
  rcases Nat.le_total value.length next.length with hle | hle
  · rw [between, Nat.sub_eq_zero_of_le hle, take_zero]
    exact ⟨not_mem_nil, not_mem_nil⟩
  · obtain ⟨seg, rfl⟩ := suffix_of_suffix_length_le (suffix_append line next) hvalue hle
    obtain ⟨pre, hpre⟩ := hvalue
    rw [← append_assoc] at hpre
    obtain rfl := append_cancel_right hpre
    rw [between_append]
    simp only [mem_append, not_or] at hs
    refine ⟨?_, hs.1.2⟩
    rcases eq_nil_or_concat seg with rfl | ⟨seg, x, rfl⟩
    · exact not_mem_nil
    · rw [concat_eq_append, dropLast_concat]
      rw [concat_eq_append, ← append_assoc, dropLast_concat] at hnl
      exact fun hmem => hnl (mem_append_right _ hmem)

/-- Parameters are taken from one line. -/
theorem notMem_formatParams (hs : '\x00' ∉ s) (hvalue : value <:+ s) (hc : IsEnd c) :
    c ∉ formatParams value (getNextLine s) := by
  obtain ⟨hnl, hnul⟩ := notMem_between hs hvalue
  rw [formatParams]
  split_ifs
  · exact not_mem_nil
  · generalize hp : (fun c : Char => decide (c = ' ') || decide (c = '\r') || decide (c = '\n') ||
      decide (c = '\t')) = p
    obtain ⟨tail, htail⟩ := rdropWhile_prefix p (between value (getNextLine s))
    have hlast := rdropWhile_last_not p (between value (getNextLine s))
    generalize List.rdropWhile p (between value (getNextLine s)) = params at htail hlast ⊢
    rw [← htail] at hnl hnul
    rcases hc with rfl | rfl
    · -- the last character is no line feed, and the others are not the last of the line
      intro hmem
      rcases eq_nil_or_concat params with rfl | ⟨params, x, rfl⟩
      · exact not_mem_nil hmem
      · rw [concat_eq_append] at hmem hlast hnl
        have hx : ¬ p x = true := by
          have hx := hlast (by simp)
          rwa [getLast_concat] at hx
        rcases mem_append.1 hmem with hmem | hmem
        · rw [append_assoc, dropLast_append_of_ne_nil (by simp)] at hnl
          exact hnl (mem_append_left _ hmem)
        · rw [← mem_singleton.1 hmem, ← hp] at hx
          exact hx (by decide)
    · exact fun hmem => hnul (mem_append_left _ hmem)

/-! ## Parameters -/

/-- The parameters have no line ends. -/
def ParamsOk (ps : List SdpPayload) : Prop :=
  ∀ p ∈ ps, ∀ c, IsEnd c → c ∉ p.sdpFormatParameters

theorem params_formatPayload {type : MediaType} {prev : Option ℕ} {n : ℕ} {p : SdpPayload}
    (h : formatPayload type prev value = .ok (n, p)) :
    p.sdpFormatParameters = [] := by
  rw [formatPayload] at h
  split at h
  · obtain ⟨-, rfl⟩ := Prod.mk.inj (Except.ok.inj h)
    rfl
  · cases h

theorem params_parseFormats {type : MediaType} {lineEnd : Str} :
    ∀ {n : ℕ} {prev : Option ℕ} {s : Str} {ps : List SdpPayload},
      parseFormats type lineEnd n prev s = .ok ps → ∀ p ∈ ps, p.sdpFormatParameters = []
  | 0, _, _, _, h => by
    obtain rfl := Except.ok.inj h
    nofun
  | n + 1, prev, s, ps, h => by
    rw [parseFormats] at h
    split_ifs at h
    · obtain ⟨next, -, h⟩ := bind_eq_ok.1 h
      exact params_parseFormats h
    · obtain ⟨next, -, h⟩ := bind_eq_ok.1 h
      obtain ⟨⟨k, p⟩, hp, h⟩ := bind_eq_ok.1 h
      obtain ⟨ps', hps', h⟩ := bind_eq_ok.1 h
      obtain rfl := Except.ok.inj h
      exact forall_mem_cons.2 ⟨params_formatPayload hp, params_parseFormats hps'⟩
    · obtain rfl := Except.ok.inj h
      nofun
    · obtain ⟨⟨k, p⟩, hp, h⟩ := bind_eq_ok.1 h
      obtain rfl := Except.ok.inj h
      exact forall_mem_singleton.2 (params_formatPayload hp)

theorem paramsOk_of_nil {ps : List SdpPayload} (h : ∀ p ∈ ps, p.sdpFormatParameters = []) :
    ParamsOk ps := by
  intro p hp c _
  rw [h p hp]
  exact not_mem_nil

theorem paramsOk_parseSdpMedia {m : SdpMedia} (h : parseSdpMedia s = .ok m) :
    ParamsOk m.payloads := by
  rw [parseSdpMedia] at h
  obtain ⟨_, -, h⟩ := bind_eq_ok.1 h
  obtain ⟨⟨port, nports, next⟩, -, h⟩ := bind_eq_ok.1 h
  obtain ⟨_, -, h⟩ := bind_eq_ok.1 h
  rw [parseProto] at h
  split_ifs at h
  · obtain ⟨_, -, h⟩ := bind_eq_ok.1 h
    obtain ⟨ps, hps, h⟩ := bind_eq_ok.1 h
    obtain rfl := Except.ok.inj h
    exact paramsOk_of_nil (params_parseFormats hps)
  · obtain rfl := Except.ok.inj h
    rintro p ⟨⟩

theorem params_rtpmapPayload {value : Option Str} {p : SdpPayload}
    (h : rtpmapPayload s value = .ok p) : p.sdpFormatParameters = [] := by
  rw [rtpmapPayload.eq_def] at h
  cases value with
  | none =>
    obtain rfl := Except.ok.inj h
    rfl
  | some value =>
    dsimp only at h
    rw [parseRtpmap] at h
    obtain ⟨_, -, h⟩ := bind_eq_ok.1 h
    split_ifs at h
    · obtain ⟨_, -, h⟩ := bind_eq_ok.1 h
      obtain ⟨_, -, h⟩ := bind_eq_ok.1 h
      obtain rfl := Except.ok.inj h
      rfl
    · obtain ⟨_, -, h⟩ := bind_eq_ok.1 h
      obtain rfl := Except.ok.inj h
      rfl

theorem params_fmtpParams {value : Option Str} (hs : '\x00' ∉ s)
    (hvalue : ∀ v ∈ value, v <:+ s) {res : BitVec 32 × Str}
    (h : fmtpParams s value = .ok res) (hc : IsEnd c) : c ∉ res.2 := by
  rw [fmtpParams.eq_def] at h
  cases value with
  | none =>
    obtain rfl := Except.ok.inj h
    exact not_mem_nil
  | some value =>
    have hsuffix := hvalue value rfl
    dsimp only at h
    rw [parseFmtp] at h
    split_ifs at h
    · obtain rfl := Except.ok.inj h
      exact notMem_formatParams hs ((suffix_getD_parseUntil ' ' value).trans hsuffix) hc
    · obtain ⟨_, -, h⟩ := bind_eq_ok.1 h
      obtain rfl := Except.ok.inj h
      obtain ⟨line, hline, -⟩ := exists_line s
      exact notMem_formatParams hs ⟨line, hline.symm⟩ hc

theorem paramsOk_parseSdpAttr {m m' : SdpMedia} (hs : '\x00' ∉ s) (hm : ParamsOk m.payloads)
    (h : parseSdpAttr s m = .ok m') : ParamsOk m'.payloads := by
  have hsuffix : ∀ v ∈ (splitAttr s).2, v <:+ s := by
    rw [splitAttr]
    split_ifs
    · rintro v hv
      obtain rfl := Option.some.inj hv
      exact suffix_getD_parseUntil ':' s
    · rintro v ⟨⟩
  rw [parseSdpAttr] at h
  generalize splitAttr s = res at h hsuffix
  obtain ⟨attr, value⟩ := res
  dsimp only at h hsuffix
  split_ifs at h
  · obtain ⟨p, hp, h⟩ := bind_eq_ok.1 h
    obtain rfl := Except.ok.inj h
    refine forall_updatePayload _ (fun _ _ c hc => ?_) hm
    rw [params_rtpmapPayload hp]
    exact not_mem_nil
  · obtain ⟨res, hres, h⟩ := bind_eq_ok.1 h
    obtain rfl := Except.ok.inj h
    exact forall_updatePayload _ (fun _ _ c hc => params_fmtpParams hs hsuffix hres hc) hm
  · obtain rfl := Except.ok.inj h
    cases value with
    | none => exact hm
    | some value =>
      rw [Option.elim_some, parseDirection]
      split_ifs <;> exact hm
  all_goals
    obtain rfl := Except.ok.inj h
    exact hm

/-- The parameters of a whole description. -/
def MediaParams (sdp : AmSdp) : Prop :=
  ∀ m ∈ sdp.media, ParamsOk m.payloads

theorem MediaStep.paramsOk {ms ms' : List SdpMedia} (h : MediaStep s ms ms') (hs : '\x00' ∉ s)
    (hms : ∀ m ∈ ms, ParamsOk m.payloads) : ∀ m ∈ ms', ParamsOk m.payloads := by
  cases h with
  | same => exact hms
  | media hm => exact forall_mem_append.2 ⟨hms, forall_mem_singleton.2 (paramsOk_parseSdpMedia hm)⟩
  | conn ms m conn =>
    rw [forall_mem_append, forall_mem_singleton] at hms ⊢
    exact hms
  | attr hm =>
    rw [forall_mem_append, forall_mem_singleton] at hms ⊢
    exact ⟨hms.1, paramsOk_parseSdpAttr hs hms.2 hm⟩

theorem MediaParams.parseLines : ∀ {n : ℕ} {st : SdpParseSt} {s : Str} {sdp sdp' : AmSdp},
    MediaParams sdp → '\x00' ∉ s → parseLines n st s sdp = .ok sdp' → MediaParams sdp'
  | 0, _, _, _, _, h, _, hok => by
    rw [Sems.parseLines] at hok
    · exact Except.ok.inj hok ▸ h
    · rintro _ _ _ ⟨⟩
  | n + 1, _, [], _, _, h, _, hok => Except.ok.inj hok ▸ h
  | n + 1, st, c :: s, sdp, sdp', h, hs, hok => by
    obtain ⟨⟨next, sdp₁⟩, hline, hok⟩ := bind_eq_ok.1 hok
    obtain ⟨hnext, body, hbody, hstep⟩ := parseLine_cases hline
    have hs : '\x00' ∉ s := fun hmem => hs (mem_cons_of_mem _ hmem)
    have h₁ : MediaParams sdp₁ := hstep.paramsOk (fun hmem => hs (hbody.subset hmem)) h
    exact h₁.parseLines (fun hmem => hs (hnext.subset hmem)) hok

/-- The parameters of a parsed description have no line ends. -/
theorem mediaParams_parse {text : Str} (h : AmSdp.parse text = .ok sdp) : MediaParams sdp := by
  obtain ⟨sdp₁, hparse, h⟩ := bind_eq_ok.1 h
  split_ifs at h
  obtain rfl := Except.ok.inj h
  have hnew : MediaParams .new := forall_mem_nil _
  refine hnew.parseLines ?_ hparse
  intro hmem
  simpa using mem_takeWhile_imp hmem

end Sems
