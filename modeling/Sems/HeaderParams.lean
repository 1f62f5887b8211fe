import Sems.SipMsg

/-!
# The parameters of a header value

`getHeaderParam` against the parameters of a header value `value *(;name[=value])`. The search
looks at what follows a semicolon and then skips as many characters as the name has, semicolons
among them, so a short parameter hides those after it, and a quoted semicolon counts like any other.
If that cannot happen before the first parameter with the name, the answer is its value
(`getHeaderParam_eq_firstValue`).
-/

namespace Sems

/-- A parameter of a header value. -/
structure HeaderParam where
  name : Str
  value : Option Str

/-- The parameter as it stands in the header. -/
def HeaderParam.text (p : HeaderParam) : Str :=
  p.name ++ p.value.elim [] ('=' :: ·)

/-- A value with its parameters. -/
def valueText (value : Str) (params : List HeaderParam) : Str :=
  value ++ params.flatMap fun p => ';' :: p.text

/-- The value of the first parameter with the name. -/
def firstValue (params : List HeaderParam) (name : Str) : Str :=
  ((params.find? (·.name == name)).bind (·.value)).getD []

/-- A character that ends neither a parameter nor the line. -/
def inParam (c : Char) : Bool :=
  c != ';' && c != '\n' && c != '\r'

section Search

variable {name : Str}

theorem prefix_iff {cs : Str} :
    name ++ ['='] <+: cs ↔ cs.take name.length = name ∧ cs[name.length]? = some '=' := by
  constructor
  · rintro ⟨tail, rfl⟩
    simp
  · rintro ⟨htake, hget⟩
    obtain ⟨hlt, heq⟩ := List.getElem?_eq_some_iff.mp hget
    have hcs := List.take_append_drop name.length cs
    rw [htake, List.drop_eq_getElem_cons hlt, heq] at hcs
    exact ⟨_, (List.append_assoc ..).trans hcs⟩

theorem takeWhile_ne {c : Char} {s : Str} (hs : c ∉ s) (t : Str) :
    (s ++ t).takeWhile (· != c) = s ++ t.takeWhile (· != c) :=
  List.takeWhile_append_of_pos fun x hx => by
    simpa using fun h : x = c => hs (h ▸ hx)

variable (heq : '=' ∉ name)
include heq

/-- A parameter with another name that is not shorter does not look like the one searched. -/
theorem HeaderParam.not_prefix {p : HeaderParam} (hne : p.name ≠ name) (hp : '=' ∉ p.name)
    (hlen : name.length ≤ p.text.length) (ps : List HeaderParam) :
    ¬ name ++ ['='] <+: valueText p.text ps := by
  rintro ⟨tail, htail⟩
  have hname := congrArg (List.takeWhile (· != '=')) htail
  rw [List.append_assoc, takeWhile_ne heq, valueText, HeaderParam.text, List.append_assoc,
    takeWhile_ne hp] at hname
  cases hv : p.value with
  | none =>
    have hpre : p.name <+: name := ⟨_, by simpa [hv] using hname.symm⟩
    exact hne (hpre.eq_of_length_le (by simpa [HeaderParam.text, hv] using hlen))
  | some v => exact hne (by simpa [hv] using hname.symm)

/-- The search, from a place where the parameters follow on a text without semicolons. -/
theorem getHeaderParamLoop_params (hname : name ≠ []) : ∀ {params : List HeaderParam} {k : ℕ}
    {pre : Str}, ';' ∉ pre → (valueText pre params).length < k →
      (∀ p ∈ params.takeWhile (·.name != name),
        ';' ∉ p.text ∧ '=' ∉ p.name ∧ name.length ≤ p.text.length) →
      (∀ p ∈ params.find? (·.name == name), p.value.any (·.all inParam)) →
        getHeaderParamLoop name k (valueText pre params) = firstValue params name
  | [], k + 1, pre, hpre, _, _, _ => by
    have hdrop : pre.dropWhile (· != ';') = [] := by
      simpa using fun c hc (h : c = ';') => hpre (h ▸ hc)
    simp [getHeaderParamLoop, valueText, firstValue, hdrop]
  | p :: ps, k + 1, pre, hpre, hk, hbefore, hfound => by
    have htext : valueText pre (p :: ps) = pre ++ ';' :: valueText p.text ps := by simp [valueText]
    have hdrop : (valueText pre (p :: ps)).dropWhile (· != ';') = ';' :: valueText p.text ps := by
      rw [htext, List.dropWhile_append_of_pos fun c hc => by
        simpa using fun h : c = ';' => hpre (h ▸ hc)]
      simp
    rw [htext, List.length_append, List.length_cons] at hk
    rw [getHeaderParamLoop, hdrop]
    simp only [← prefix_iff]
    by_cases hp : p.name = name
    · obtain ⟨v, hv, hplain⟩ : ∃ v, p.value = some v ∧ ∀ c ∈ v, inParam c := by
        simpa [hp, Option.any_eq_true] using hfound
      have hcs : valueText p.text ps = name ++ ['='] ++ valueText v ps := by
        simp [valueText, HeaderParam.text, hp, hv]
      have hend : (valueText v ps).takeWhile inParam = v := by
        rw [valueText, List.takeWhile_append_of_pos hplain]
        cases ps <;> simp [inParam]
      have hfirst : firstValue (p :: ps) name = v := by simp [firstValue, hp, hv]
      rw [hcs, if_pos (by simp), if_pos (List.prefix_append ..), List.drop_left' (by simp), hfirst]
      exact hend
    · simp only [List.takeWhile_cons, bne_iff_ne.2 hp, if_true, List.forall_mem_cons] at hbefore
      obtain ⟨⟨hsemi, hpeq, hlen⟩, hbefore⟩ := hbefore
      have hrest : ∀ {n}, n ≤ name.length → ((valueText p.text ps).drop n).length < k →
          getHeaderParamLoop name k ((valueText p.text ps).drop n) = firstValue (p :: ps) name := by
        intro n hn hlt
        have hcs : (valueText p.text ps).drop n = valueText (p.text.drop n) ps := by
          rw [valueText, List.drop_append_of_le_length (hn.trans hlen), valueText]
        rw [hcs] at hlt ⊢
        rw [getHeaderParamLoop_params hname (fun h => hsemi (List.mem_of_mem_drop h)) hlt hbefore
          (by simpa [hp] using hfound)]
        simp [firstValue, hp]
      obtain ⟨n, hn⟩ := Nat.exists_eq_succ_of_ne_zero (List.length_pos_of_ne_nil hname).ne'
      rw [if_neg (p.not_prefix heq hp hpeq hlen ps)]
      split_ifs
      · exact hrest le_rfl (by rw [List.length_drop]; omega)
      · rw [hn, List.drop_succ_cons]
        exact hrest (by omega) (by rw [List.length_drop]; omega)

end Search

end Sems
