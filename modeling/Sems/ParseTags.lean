import Sems.ParseVia

/-!
# Tags and branches

`parse_from_to` and `parse_via` look for the parameters `tag`, `branch`, `received` and `rport` by
the letters of their names, and go on to the end of the name when all letters were found : a
longer name that begins with the word is taken for it, too. `reported_iff` says when the values
they report are those of the parameters with the whole name.
-/

namespace Sems

open List

/-- The value of the last parameter with `p`. -/
def lastValue (p : SipAvp → Bool) (params : List SipAvp) : Option Str :=
  (params.filter p).getLast?.map SipAvp.value

def begins (word : Str) (p : SipAvp) : Bool :=
  startsWith word p.name

/-- The name is the word, in any case. -/
def named (word : Str) (p : SipAvp) : Bool :=
  p.name.length == word.length && begins word p

/-- The last parameter whose name begins with the word has it as its whole name, or has the value of
the last one that does. `view` is how the value is reported. -/
def NoDecoy {α : Type} (view : Option Str → α) (word : Str) (params : List SipAvp) : Prop :=
  ∀ p, (params.filter (begins word)).getLast? = some p →
    p.name.length = word.length ∨ view (some p.value) = view (lastValue (named word) params)

/-- A value that is empty if there is none. -/
def orEmpty (value : Option Str) : Str :=
  value.getD []

/-- A parameter that begins with the word replaces the value. -/
def report {α : Type} (view : Option Str → α) (word : Str) (a : α) (p : SipAvp) : α :=
  if begins word p then view (some p.value) else a

def SipViaParm.rport? (v : SipViaParm) : Option Str :=
  if v.hasRport then some v.rport else none

def TagOk (ft : SipFromTo) : Prop :=
  ft.tag = orEmpty (lastValue (named "tag".toList) ft.nameaddr.params)

structure ViaOk (v : SipViaParm) : Prop where
  branch : v.branch = orEmpty (lastValue (named "branch".toList) v.params)
  recved : v.recved = orEmpty (lastValue (named "received".toList) v.params)
  rport : v.rport? = lastValue (named "rport".toList) v.params

/-! ## The last parameter -/

theorem foldl_report {α : Type} {view : Option Str → α} {word : Str} :
    ∀ (params : List SipAvp) (init : Option Str), params.foldl (report view word) (view init) =
      view ((lastValue (begins word) params).or init)
  | [], init => by simp [lastValue]
  | p :: params, init => by
    rw [foldl_cons, report]
    by_cases hp : begins word p = true
    · rw [if_pos hp, foldl_report params (some p.value)]
      simp only [lastValue, hp, filter_cons_of_pos, getLast?_cons]
      cases (params.filter (begins word)).getLast? <;> rfl
    · rw [if_neg hp, foldl_report params init]
      simp [lastValue, hp]

/-- Only a decoy makes a difference. -/
theorem foldl_report_iff {α : Type} (view : Option Str → α) (word : Str) (params : List SipAvp) :
    params.foldl (report view word) (view none) = view (lastValue (named word) params) ↔
      NoDecoy view word params := by
  have hnamed : params.filter (named word) =
      (params.filter (begins word)).filter fun p => p.name.length == word.length :=
    (filter_filter ..).symm
  rw [foldl_report, Option.or_none]
  unfold NoDecoy lastValue
  rw [hnamed]
  rcases eq_nil_or_concat (params.filter (begins word)) with hnil | ⟨init, p, hp⟩
  · simp [hnil]
  · by_cases hlen : p.name.length = word.length <;> simp [hp, hlen, filter_append]

/-! ## Via parameters -/

theorem isLetter_apart {l l' c : Char} (h : isLetter l c = true)
    (hne : ¬ (l = l' ∨ l.toNat + 0x20 = l'.toNat ∨ l'.toNat + 0x20 = l.toNat)) :
    isLetter l' c = false := by
  simp only [isLetter, Bool.or_eq_true, Bool.or_eq_false_iff, beq_iff_eq, beq_eq_false_iff_ne,
    ne_eq, ← Char.toNat_inj] at h hne ⊢
  omega

theorem startsWith_apart (n : Str) :
    (startsWith "branch".toList n = true → startsWith "received".toList n = false ∧
        startsWith "rport".toList n = false) ∧
      (startsWith "received".toList n = true → startsWith "rport".toList n = false) := by
  rcases n with _ | ⟨c, _ | ⟨d, n⟩⟩
  · decide
  · simp [startsWith]
  · have hc : isLetter 'b' c = true → isLetter 'r' c = false := (isLetter_apart · (by decide))
    have hd : isLetter 'e' d = true → isLetter 'p' d = false := (isLetter_apart · (by decide))
    simp +contextual [startsWith, hc, hd]

variable {v : SipViaParm}

/-- Each word has its own parameter. -/
theorem viaParam_eq {p : SipAvp} :
    (viaParam v p).branch = report orEmpty "branch".toList v.branch p ∧
      (viaParam v p).recved = report orEmpty "received".toList v.recved p ∧
      (viaParam v p).rport? = report id "rport".toList v.rport? p ∧
      (viaParam v p).params = v.params := by
  have hapart := startsWith_apart p.name
  unfold viaParam report begins
  generalize startsWith "branch".toList p.name = b at hapart ⊢
  generalize startsWith "received".toList p.name = r at hapart ⊢
  generalize startsWith "rport".toList p.name = q at hapart ⊢
  cases b <;> cases r <;> cases q <;> simp_all [orEmpty, SipViaParm.rport?]

/-- What is reported of an element are folds over its parameters. -/
structure Folded (v : SipViaParm) : Prop where
  branch : v.branch = v.params.foldl (report orEmpty "branch".toList) []
  recved : v.recved = v.params.foldl (report orEmpty "received".toList) []
  rport : v.rport? = v.params.foldl (report id "rport".toList) none

theorem Folded.foldl (hb : v.branch = []) (hr : v.recved = []) (hp : v.hasRport = false) :
    Folded (v.params.foldl viaParam v) := by
  have hparams : ∀ (l : List SipAvp) (w : SipViaParm), (l.foldl viaParam w).params = w.params := by
    intro l
    induction l with
    | nil => exact fun _ => rfl
    | cons p l ih => exact fun w => (ih _).trans viaParam_eq.2.2.2
  refine ⟨?_, ?_, ?_⟩ <;> rw [hparams]
  · rw [← foldl_hom SipViaParm.branch fun w p => viaParam_eq.1.symm, hb]
  · rw [← foldl_hom SipViaParm.recved fun w p => viaParam_eq.2.1.symm, hr]
  · rw [← foldl_hom SipViaParm.rport? fun w p => viaParam_eq.2.2.1.symm]
    simp [SipViaParm.rport?, hp]

theorem parseViaParm_folded {tr : SipTransport} {s rest : Str}
    (h : parseViaParm tr s = .ok (v, rest)) : Folded v := by
  unfold parseViaParm parseViaParams at h
  cases hby : parseBy s with
  | error e => simp [hby, Except.bind] at h
  | ok r =>
    cases hgen : parseGenParamsSc ',' r.2 with
    | error e => simp [hby, hgen, Except.bind, Except.map] at h
    | ok g =>
      simp only [hby, hgen, Except.bind, Except.map, Except.ok.injEq, Prod.mk.injEq] at h
      exact h.1 ▸ Folded.foldl rfl rfl rfl

theorem parseViaLoop_folded : ∀ {k : ℕ} {st saved : ViaState} {parms res : List SipViaParm}
    {tr : SipTransport} {s : Str}, (∀ v ∈ parms, Folded v) →
      parseViaLoop k st saved parms tr s = .ok res → ∀ v ∈ res, Folded v
  | 0, _, _, _, _, _, _, _, h => nomatch h
  | _ + 1, _, _, _, _, _, [], hparms, h => Except.ok.inj h ▸ hparms
  | k + 1, st, saved, parms, res, tr, c :: cs, hparms, h => by
    have ih : ∀ {st saved tr s}, parseViaLoop k st saved parms tr s = .ok res →
        ∀ v ∈ res, Folded v := parseViaLoop_folded hparms
    unfold parseViaLoop at h
    cases st <;> dsimp only at h
    case V_TRANS =>
      cases htr : parseTransport (c :: cs) with
      | error e => simp [htr] at h
      | ok r => exact ih (by simpa [htr] using h)
    case V_URI =>
      split_ifs at h
      · exact ih h
      · exact ih h
      · exact ih h
      cases hv : parseViaParm tr (c :: cs) with
      | error e => simp [hv] at h
      | ok r =>
        have hparms' : ∀ v ∈ parms ++ [r.1], Folded v := fun v hmem => by
          rcases mem_append.1 hmem with hmem | hmem
          · exact hparms v hmem
          · exact mem_singleton.1 hmem ▸ parseViaParm_folded hv
        exact parseViaLoop_folded hparms' (by simpa [hv] using h)
    case V_PARM_SEP | V_PARM_SEP_SWS | ST_CR => split_ifs at h <;> exact ih h
    all_goals exact ih h

/-- The values reported for a header are those of the parameters with the whole name exactly if
there is no decoy. -/
theorem reported_iff (s : Str) :
    ((∀ ft, parseFromTo s = .ok ft → TagOk ft) ∧
        ∀ parms, parseVia s = .ok parms → ∀ v ∈ parms, ViaOk v) ↔
      (∀ ft, parseFromTo s = .ok ft → NoDecoy orEmpty "tag".toList ft.nameaddr.params) ∧
        ∀ parms, parseVia s = .ok parms → ∀ v ∈ parms,
          NoDecoy orEmpty "branch".toList v.params ∧ NoDecoy orEmpty "received".toList v.params ∧
            NoDecoy id "rport".toList v.params := by
  refine and_congr (forall_congr' fun ft => imp_congr_right fun hft => ?_)
    (forall_congr' fun parms => imp_congr_right fun hparms => forall_congr' fun v =>
      imp_congr_right fun hv => ?_)
  · obtain ⟨na, -, rfl⟩ : ∃ na, parseNameaddr s = .ok na ∧ _ = ft := by
      unfold parseFromTo at hft
      cases hna : parseNameaddr s with
      | error e => simp [hna, Except.map] at hft
      | ok na => exact ⟨na, rfl, by simpa [hna, Except.map] using hft⟩
    exact foldl_report_iff orEmpty "tag".toList na.params
  · obtain ⟨hb, hr, hp⟩ := parseViaLoop_folded (by simp) hparms v hv
    rw [← foldl_report_iff, ← foldl_report_iff, ← foldl_report_iff]
    exact ⟨fun h => ⟨hb ▸ h.branch, hr ▸ h.recved, hp ▸ h.rport⟩,
      fun h => ⟨hb ▸ h.1, hr ▸ h.2.1, hp ▸ h.2.2⟩⟩

/-- Longer names. -/
theorem reported_decoy :
    (parseFromTo "<sip:a@b>;tag=1;tagged=2".toList).map (·.tag) = .ok "2".toList ∧
      (parseVia "SIP/2.0/UDP a;branch=z9;branches=2".toList).map (fun l => l.map (·.branch)) =
        .ok ["2".toList] := by
  decide

end Sems
