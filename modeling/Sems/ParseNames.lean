import Sems.SipParser

/-!
# Known names

Which texts `parse_method` and `parse_header_type` take for a known method or header. Where all
names of a length start with the same letter, this letter is not looked at : `OPTIONS`, `REGISTER`
and `Route` are known by what follows it. Any other text is classified by its whole name
(`classified_iff`).
-/

namespace Sems

open List

def methodNames : List (Str × ReqMethod) :=
  [("INVITE".toList, .INVITE), ("CANCEL".toList, .CANCEL), ("ACK".toList, .ACK),
    ("BYE".toList, .BYE), ("OPTIONS".toList, .OPTIONS), ("REGISTER".toList, .REGISTER),
    ("PRACK".toList, .PRACK)]

/-- The headers, by the length of their compact and long names in lower case. -/
def headerNames : ℕ → List (Str × HdrType)
  | 1 => [("i".toList, .H_CALL_ID), ("m".toList, .H_CONTACT), ("l".toList, .H_CONTENT_LENGTH),
      ("c".toList, .H_CONTENT_TYPE), ("f".toList, .H_FROM), ("t".toList, .H_TO),
      ("v".toList, .H_VIA)]
  | 2 => [("to".toList, .H_TO)]
  | 3 => [("via".toList, .H_VIA)]
  | 4 => [("from".toList, .H_FROM), ("cseq".toList, .H_CSEQ), ("rseq".toList, .H_RSEQ),
      ("rack".toList, .H_RACK)]
  | 5 => [("route".toList, .H_ROUTE)]
  | 7 => [("call-id".toList, .H_CALL_ID), ("contact".toList, .H_CONTACT),
      ("require".toList, .H_REQUIRE)]
  | 12 => [("content-type".toList, .H_CONTENT_TYPE), ("record-route".toList, .H_RECORD_ROUTE),
      ("max-forwards".toList, .H_MAX_FORWARDS)]
  | 14 => [("content-length".toList, .H_CONTENT_LENGTH)]
  | _ => []

/-- The entry of a table with a name. -/
def classify {κ α : Type} [DecidableEq κ] (other : α) (key : κ) : List (κ × α) → α
  | [] => other
  | (name, value) :: names => if key = name then value else classify other key names

/-- The method with the name, and the header with the name in any case. -/
structure Classified (s : Str) : Prop where
  method : parseMethod s = .ok (classify .OTHER_METHOD s methodNames)
  header : parseHeaderType s = classify .H_OTHER (s.map lowerChar) (headerNames s.length)

/-- A text that ends like a name whose first letter is not looked at is this name. -/
structure FirstLetter (s : Str) : Prop where
  options : s.tail = "PTIONS".toList → s = "OPTIONS".toList
  register : s.tail = "EGISTER".toList → s = "REGISTER".toList
  route : (s.map lowerChar).tail = "oute".toList → s.map lowerChar = "route".toList

variable {s : Str} {c d : Char}

/-! ## Letters -/

theorem toNat_lt_of_isToken (h : isToken c = true) : c.toNat < 128 := by
  simp only [isToken, isAlphanum, isAlpha, isDigit, isIn, Bool.or_eq_true, Bool.and_eq_true,
    decide_eq_true_eq, contains_iff_mem] at h
  rcases h with h | h
  · omega
  · have hall : ("-.!%*_+`'~".toList.all fun c => c.toNat < 128) = true := by decide
    exact of_decide_eq_true (all_eq_true.1 hall c h)

/-- `c | 0x20` and the lower-case letter determine each other. -/
theorem lowerB_of_isToken (h : isToken c = true) :
    lowerChar c = (if lowerB c = 0x7f then '_' else Char.ofNat (lowerB c)) ∧
      lowerB (lowerChar c) = lowerB c := by
  have hall : ∀ i : Fin 128, isToken (Char.ofNat i) = true →
      lowerChar (Char.ofNat i) =
        (if lowerB (Char.ofNat i) = 0x7f then '_' else Char.ofNat (lowerB (Char.ofNat i))) ∧
      lowerB (lowerChar (Char.ofNat i)) = lowerB (Char.ofNat i) := by decide +kernel
  have hc := hall ⟨c.toNat, toNat_lt_of_isToken h⟩
  simp only [Char.ofNat_toNat] at hc
  exact hc h

/-- The letters in lower case are the same exactly if they are the same up to their case bit. -/
theorem map_lowerB_eq_iff : ∀ {l r : Str}, (∀ c ∈ l, isToken c = true) → r.all isToken = true →
    (l.map lowerB = r.map lowerB ↔ l.map lowerChar = r.map lowerChar)
  | [], r, _, _ => by cases r <;> simp
  | c :: l, [], _, _ => by simp
  | c :: l, d :: r, hl, hr => by
    obtain ⟨hc, hl⟩ := forall_mem_cons.1 hl
    obtain ⟨hd, hr⟩ := Bool.and_eq_true_iff.1 hr
    have hletter : lowerB c = lowerB d ↔ lowerChar c = lowerChar d := by
      constructor <;> intro h
      · rw [(lowerB_of_isToken hc).1, (lowerB_of_isToken hd).1, h]
      · rw [← (lowerB_of_isToken hc).2, ← (lowerB_of_isToken hd).2, h]
    simp only [map_cons, cons.injEq, hletter, map_lowerB_eq_iff hl hr]

theorem classify_lowerB {α : Type} {other : α} (hs : ∀ c ∈ s, isToken c = true) :
    ∀ {names : List (Str × α)},
      (names.all fun e => e.1.all isToken && e.1.map lowerChar == e.1) = true →
        classify other (s.map lowerChar) names =
          classify other (s.map lowerB) (names.map fun e => (e.1.map lowerB, e.2))
  | [], _ => rfl
  | (name, value) :: names, h => by
    simp only [all_cons, Bool.and_eq_true, beq_iff_eq] at h
    simp only [map_cons, classify, map_lowerB_eq_iff hs h.1.1, h.1.2, classify_lowerB hs h.2]

/-- A letter in either case. -/
theorem eitherCase_iff {l u : Char} (hl : l.toNat = u.toNat + 32)
    (hu : 65 ≤ u.toNat ∧ u.toNat ≤ 90) : c = l ∨ c = u ↔ lowerB c = l.toNat := by
  have hbit : ∀ n < 128, n ||| 32 = if n / 32 % 2 = 1 then n else n + 32 := by decide
  have hle : c.toNat ≤ lowerB c := Nat.left_le_or
  simp only [← Char.toNat_inj, hl]
  by_cases hc : c.toNat < 128
  · rw [lowerB, hbit _ hc]
    split_ifs <;> omega
  · omega

/-! ## Names -/

/-- What is looked at of the name of a header. -/
theorem parseHeaderType_eq (s : Str) :
    parseHeaderType s = if (s.map lowerB).tail = "oute".toList.map lowerB then .H_ROUTE
      else classify .H_OTHER (s.map lowerB)
        ((headerNames s.length).map fun e => (e.1.map lowerB, e.2)) := by
  unfold parseHeaderType
  simp (disch := decide) only [eitherCase_iff]
  split
  · simp [compactType, classify, headerNames, lowerB]
    rfl
  · simp [typeIf, lowerEq, classify, headerNames, lowerB]
  · simp [typeIf, lowerEq, classify, headerNames, lowerB]
  · simp [typeIf, lowerEq, classify, headerNames, lowerB]
    split_ifs <;> simp_all
  · simp [typeIf, lowerEq, classify, headerNames, lowerB]
    split_ifs <;> simp_all
  · rename_i c c1 cs _ _ _ _
    have hlen : 4 ≤ cs.length := by
      rcases cs with _ | ⟨c2, _ | ⟨c3, _ | ⟨c4, _ | ⟨c5, cs⟩⟩⟩⟩ <;> simp_all
    have hroute : (map lowerB (c :: c1 :: cs)).tail ≠ "oute".toList.map lowerB := fun h => by
      have hl := congrArg length h
      simp at hl
      omega
    rw [if_neg hroute]
    by_cases h7 : cs.length = 5
    · simp [h7, typeIf, lowerEq, classify, headerNames, lowerB]
      split_ifs <;> simp_all
    by_cases h12 : cs.length = 10
    · simp [h12, typeIf, lowerEq, classify, headerNames, lowerB]
      split_ifs <;> simp_all
    by_cases h14 : cs.length = 12
    · simp [h14, typeIf, lowerEq, classify, headerNames, lowerB]
    · have hnone : headerNames (c :: c1 :: cs).length = [] := by
        rw [length_cons, length_cons]
        unfold headerNames
        split <;> first | rfl | omega
      rw [hnone]
      simp [h7, h12, h14, classify]
  · simp [classify, headerNames]

/-- Which methods are known by their whole name. -/
theorem methodOf_eq_iff (s : Str) : methodOf s = classify .OTHER_METHOD s methodNames ↔
    (s.tail = "PTIONS".toList → s = "OPTIONS".toList) ∧
      (s.tail = "EGISTER".toList → s = "REGISTER".toList) := by
  rcases s with _ | ⟨c, s⟩
  · decide
  by_cases hO : s = "PTIONS".toList
  · subst hO
    by_cases hc : c = 'O' <;> simp [methodOf, methodNames, classify, hc]
  by_cases hR : s = "EGISTER".toList
  · subst hR
    by_cases hc : c = 'R' <;> simp [methodOf, methodNames, classify, hc]
  · refine iff_of_true ?_ ⟨fun h => absurd h hO, fun h => absurd h hR⟩
    have hO' : ¬ ((c :: s).length = 7 ∧ drop 1 (c :: s) = "PTIONS".toList) := fun h => hO h.2
    have hR' : ¬ ((c :: s).length = 8 ∧ drop 1 (c :: s) = "EGISTER".toList) := fun h => hR h.2
    rw [methodOf, if_neg hO', if_neg hR', methodNames, classify, classify, classify, classify,
      classify, classify, classify, classify]
    rw [if_neg (fun h => hO (cons.inj h).2 : c :: s ≠ "OPTIONS".toList),
      if_neg (fun h => hR (cons.inj h).2 : c :: s ≠ "REGISTER".toList)]

/-- A text is classified by its whole name exactly if it does not only end like a name whose first
letter is not looked at. -/
theorem classified_iff (s : Str) (hs : ∀ c ∈ s, isToken c = true) :
    Classified s ↔ FirstLetter s := by
  have hmethod : parseMethod s = .ok (methodOf s) := if_pos (all_eq_true.2 hs)
  have hheader : parseHeaderType s = classify .H_OTHER (s.map lowerChar) (headerNames s.length) ↔
      ((s.map lowerChar).tail = "oute".toList → s.map lowerChar = "route".toList) := by
    have hnames : ((headerNames s.length).all fun e =>
        e.1.all isToken && e.1.map lowerChar == e.1) = true := by
      unfold headerNames
      split <;> decide
    have hroute : (s.map lowerB).tail = "oute".toList.map lowerB ↔
        (s.map lowerChar).tail = "oute".toList := by
      rw [← map_tail, ← map_tail]
      exact map_lowerB_eq_iff (fun c hc => hs c (mem_of_mem_tail hc)) (by decide)
    simp only [parseHeaderType_eq, hroute, ← classify_lowerB hs hnames]
    rw [← length_map lowerChar]
    generalize s.map lowerChar = key
    split_ifs with h
    · obtain ⟨k, rfl⟩ : ∃ k, key = k :: "oute".toList := by
        rcases key with _ | ⟨k, key⟩
        · exact absurd h (by decide)
        · exact ⟨k, congrArg _ h⟩
      simp [classify, headerNames]
    · exact iff_of_true rfl fun hroute => absurd hroute h
  constructor
  · rintro ⟨hm, hh⟩
    rw [hmethod] at hm
    obtain ⟨hO, hR⟩ := (methodOf_eq_iff s).1 (Except.ok.inj hm)
    exact ⟨hO, hR, hheader.1 hh⟩
  · rintro ⟨hO, hR, hroute⟩
    exact ⟨hmethod.trans (congrArg _ ((methodOf_eq_iff s).2 ⟨hO, hR⟩)), hheader.2 hroute⟩

theorem classified_iff_via : "Via".toList.all isToken = true ∧ Classified "Via".toList := by
  have hletter : FirstLetter "Via".toList := ⟨by decide, by decide, by decide⟩
  exact ⟨by decide, (classified_iff _ (all_eq_true.1 (by decide))).2 hletter⟩

/-- Another first letter. -/
theorem classified_otherLetter :
    parseMethod "XPTIONS".toList = .ok .OPTIONS ∧ parseMethod "DEGISTER".toList = .ok .REGISTER ∧
      parseHeaderType "Boute".toList = .H_ROUTE := by
  decide +kernel

end Sems
