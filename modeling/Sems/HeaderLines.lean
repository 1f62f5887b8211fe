import Sems.SipMsg

/-!
# Headers that are lines

The functions of `SipMsg` look for a header in a text, here of lines that end with a carriage return
and a line feed (`headerText`). A header is found in the first line that starts with its name,
blanks and a colon (`getHeaderSingle_headerText`), and what is left after the headers with a name
are removed is the lines without these (`removeHeaderLoop_headerText`).

Between the name and the colon the first loop of `findHeader` skips tabs, and what comes after it
does not. `fieldValue` is `none` for such a line.
-/

namespace Sems

open List Option

/-- No line ends in a line. -/
def PlainLine (l : Str) : Prop :=
  '\r' ∉ l ∧ '\n' ∉ l

instance : DecidablePred PlainLine :=
  fun l => inferInstanceAs (Decidable ('\r' ∉ l ∧ '\n' ∉ l))

def headerText (ls : List Str) : Str :=
  ls.flatMap (· ++ CRLF)

/-- What comes after the lower-case name `hdr` in a line that starts with it and a colon. -/
def fieldRest (hdr l : Str) : Option Str :=
  match matchName hdr l with
  | ([], rest) => if atColon rest then some rest else none
  | _ => none

/-- The value after the name, if only spaces are before the colon. -/
def fieldValue (rest : Str) : Option Str :=
  match rest.dropWhile (· == ' ') with
  | ':' :: cs => some (cs.dropWhile (· == ' '))
  | _ => none

variable {hdr l t : Str} {ls : List Str}

theorem PlainLine.append {a b : Str} (ha : PlainLine a) (hb : PlainLine b) : PlainLine (a ++ b) :=
  ⟨fun h => (mem_append.1 h).elim ha.1 hb.1, fun h => (mem_append.1 h).elim ha.2 hb.2⟩

theorem PlainLine.mono {a b : Str} (hb : PlainLine b) (h : a ⊆ b) : PlainLine a :=
  ⟨fun hmem => hb.1 (h hmem), fun hmem => hb.2 (h hmem)⟩

theorem plainLine_flatten {parts : List Str} (h : ∀ a ∈ parts, PlainLine a) :
    PlainLine parts.flatten := by
  constructor <;> intro hmem
  · obtain ⟨a, ha, hc⟩ := mem_flatten.1 hmem
    exact (h a ha).1 hc
  · obtain ⟨a, ha, hc⟩ := mem_flatten.1 hmem
    exact (h a ha).2 hc

theorem plainLine_nil : PlainLine [] :=
  ⟨not_mem_nil, not_mem_nil⟩

theorem headerText_cons : headerText (l :: ls) = l ++ '\r' :: '\n' :: headerText ls := by
  simp [headerText, CRLF]

theorem headerText_append {ls' : List Str} :
    headerText (ls ++ ls') = headerText ls ++ headerText ls' :=
  flatMap_append

/-! ## One line -/

theorem lowerChar_ne_cr {c : Char} (h : c ≠ '\r') : lowerChar '\r' ≠ c := by
  exact h.symm

/-- The end of a line ends the comparison with a name. -/
theorem matchName_line (hhdr : '\r' ∉ hdr) :
    ∀ l : Str, matchName hdr (l ++ '\r' :: t) =
      ((matchName hdr l).1, (matchName hdr l).2 ++ '\r' :: t) := by
  induction hdr with
  | nil =>
    intro l
    cases l <;> rfl
  | cons h hdr ih =>
    intro l
    obtain ⟨hne, hhdr⟩ := not_or.1 (fun hmem => hhdr (mem_cons.2 hmem))
    cases l with
    | nil =>
      rw [nil_append, matchName, if_neg (lowerChar_ne_cr (Ne.symm hne))]
      rfl
    | cons c l =>
      rw [cons_append, matchName, matchName]
      split_ifs
      · exact ih hhdr l
      · rfl

theorem dropWhile_line {p : Char → Bool} (hp : p '\r' = false) (l : Str) :
    (l ++ '\r' :: t).dropWhile p = l.dropWhile p ++ '\r' :: t := by
  induction l with
  | nil => simp [hp]
  | cons c l ih =>
    rw [cons_append, dropWhile_cons, dropWhile_cons]
    split_ifs
    · exact ih
    · rfl

theorem atColon_line (l : Str) : atColon (l ++ '\r' :: t) = atColon l := by
  rw [atColon, atColon, dropWhile_line (by decide)]
  cases l.dropWhile fun c => c == ' ' || c == '\t' with
  | nil | cons c cs => rfl

theorem skipLine_line (hl : '\n' ∉ l) : skipLine (l ++ '\r' :: '\n' :: t) = t := by
  induction l with
  | nil => rfl
  | cons c l ih =>
    obtain ⟨hne, hl⟩ := not_or.1 (fun hmem => hl (mem_cons.2 hmem))
    rw [cons_append, skipLine, if_neg (Ne.symm hne)]
    exact ih hl

theorem suffix_matchName : ∀ hdr l : Str, (matchName hdr l).2 <:+ l
  | [], l => by cases l <;> exact suffix_rfl
  | _ :: _, [] => suffix_rfl
  | h :: hdr, c :: l => by
    rw [matchName]
    split_ifs
    · exact (suffix_matchName hdr l).trans (suffix_cons c l)
    · exact suffix_rfl

/-- The name is as long as the text before what is left. -/
theorem length_of_matchName : ∀ {hdr l : Str}, (matchName hdr l).1 = [] →
    l.length = hdr.length + (matchName hdr l).2.length
  | [], l, _ => by cases l <;> simp [matchName]
  | _ :: _, [], h => by simp [matchName] at h
  | x :: hdr, c :: l, h => by
    rw [matchName] at h ⊢
    split_ifs at h ⊢
    have := length_of_matchName h
    simp only [length_cons]
    omega

theorem fieldRest_eq_some {rest : Str} :
    fieldRest hdr l = some rest ↔ matchName hdr l = ([], rest) ∧ atColon rest = true := by
  rw [fieldRest]
  split
  · rename_i rest' hmatch
    rw [hmatch]
    by_cases hcolon : atColon rest' = true
    · rw [if_pos hcolon, some_inj, Prod.mk.injEq]
      constructor
      · rintro rfl
        exact ⟨⟨rfl, rfl⟩, hcolon⟩
      · exact fun h => h.1.2
    · rw [if_neg hcolon]
      constructor
      · nofun
      · rintro ⟨h, hrest⟩
        exact absurd ((Prod.mk.inj h).2 ▸ hrest) hcolon
  · rename_i hother
    constructor
    · nofun
    · exact fun h => absurd h.1 (hother rest)

/-! ## The search -/

/-- The search in the first line, and from the next line on. -/
theorem searchName_line (hhdr : '\r' ∉ hdr) (hl : '\n' ∉ l) (k : ℕ) :
    searchName hdr (k + 1) (l ++ '\r' :: '\n' :: t) =
      match fieldRest hdr l with
      | some rest => some (rest ++ '\r' :: '\n' :: t)
      | none => searchName hdr k t := by
  have hrest : '\n' ∉ (matchName hdr l).2 := fun hmem => hl ((suffix_matchName hdr l).subset hmem)
  have hne : l ++ '\r' :: '\n' :: t ≠ [] := by simp
  rw [searchName.eq_3 _ _ _ hne, matchName_line hhdr, fieldRest]
  generalize matchName hdr l = res at hrest ⊢
  obtain ⟨left, rest⟩ := res
  cases left with
  | nil =>
    dsimp only
    rw [atColon_line, skipLine_line hrest]
    split_ifs <;> rfl
  | cons x xs =>
    dsimp only
    rw [skipLine_line hrest]

/-- A header is found in the first line that has its name. -/
theorem searchName_headerText (hhdr : '\r' ∉ hdr) :
    ∀ {ls : List Str} {k : ℕ}, (∀ l ∈ ls, PlainLine l) → ls.length ≤ k →
      (∀ l ∈ ls, fieldRest hdr l = none) ∧ searchName hdr k (headerText ls) = none ∨
      ∃ before l after rest, ls = before ++ l :: after ∧ (∀ x ∈ before, fieldRest hdr x = none) ∧
        fieldRest hdr l = some rest ∧
        searchName hdr k (headerText ls) = some (rest ++ '\r' :: '\n' :: headerText after)
  | [], k, _, _ => by
    refine .inl ⟨by simp, ?_⟩
    cases k <;> rfl
  | l :: ls, 0, _, hk => by simp at hk
  | l :: ls, k + 1, hplain, hk => by
    have hl := hplain l mem_cons_self
    rw [headerText_cons, searchName_line hhdr hl.2]
    cases hfield : fieldRest hdr l with
    | some rest => exact .inr ⟨[], l, ls, rest, rfl, by simp, hfield, rfl⟩
    | none =>
      have hrec := searchName_headerText hhdr (fun x hx => hplain x (mem_cons_of_mem _ hx))
        (Nat.le_of_succ_le_succ hk)
      rcases hrec with ⟨hnone, hsearch⟩ | ⟨before, x, after, rest, rfl, hbefore, hx, hsearch⟩
      · refine .inl ⟨?_, hsearch⟩
        intro x hx
        rcases mem_cons.1 hx with rfl | hx
        · exact hfield
        · exact hnone x hx
      · refine .inr ⟨l :: before, x, after, rest, rfl, ?_, hx, hsearch⟩
        intro y hy
        rcases mem_cons.1 hy with rfl | hy
        · exact hfield
        · exact hbefore y hy

/-! ## Values and removal -/

variable {name : Str}

theorem length_le_headerText : ∀ ls : List Str, ls.length ≤ (headerText ls).length
  | [] => Nat.le_refl 0
  | l :: ls => by
    rw [headerText_cons, length_append, length_cons, length_cons, length_cons]
    have := length_le_headerText ls
    omega

theorem suffix_fieldValue {rest value : Str} (h : fieldValue rest = some value) :
    value <:+ rest := by
  rw [fieldValue] at h
  split at h
  · rename_i cs hcs
    obtain rfl := some.inj h
    have htail := hcs ▸ dropWhile_suffix _
    exact (dropWhile_suffix _).trans ((suffix_cons ':' cs).trans htail)
  · cases h

theorem suffix_of_fieldRest {rest : Str} (h : fieldRest hdr l = some rest) : rest <:+ l := by
  have hsuffix := suffix_matchName hdr l
  rwa [(fieldRest_eq_some.1 h).1] at hsuffix

theorem takeWhile_plain {v : Str} (hv : PlainLine v) :
    (v ++ '\r' :: t).takeWhile (fun c => c != '\r' && c != '\n') = v := by
  rw [takeWhile_append_of_pos]
  · simp
  · intro c hc
    have hcr : c ≠ '\r' := fun h => hv.1 (h ▸ hc)
    have hlf : c ≠ '\n' := fun h => hv.2 (h ▸ hc)
    simp [hcr, hlf]

/-- Where a header is found : the value ends where its line ends. -/
theorem findHeader_headerText (hname : '\r' ∉ name.map lowerChar)
    (hplain : ∀ l ∈ ls, PlainLine l) :
    (∀ l ∈ ls, fieldRest (name.map lowerChar) l = none) ∧
        findHeader (headerText ls) name 0 = none ∨
      ∃ before l after rest, ls = before ++ l :: after ∧
        (∀ x ∈ before, fieldRest (name.map lowerChar) x = none) ∧
        fieldRest (name.map lowerChar) l = some rest ∧
        findHeader (headerText ls) name 0 = (fieldValue rest).map fun value =>
          ⟨(headerText before).length + (l.length - value.length),
            (headerText before).length + l.length, (headerText before).length + name.length⟩ := by
  rcases searchName_headerText hname hplain (length_le_headerText ls) with
    ⟨hnone, hsearch⟩ | ⟨before, l, after, rest, rfl, hbefore, hfield, hsearch⟩
  · refine .inl ⟨hnone, ?_⟩
    rw [findHeader]
    split_ifs
    · rfl
    · rw [drop_zero, hsearch]
  · refine .inr ⟨before, l, after, rest, rfl, hbefore, hfield, ?_⟩
    have hl : PlainLine l := hplain l (by simp)
    have hlen : (headerText (before ++ l :: after)).length =
        (headerText before).length + (l.length + ((headerText after).length + 2)) := by
      rw [headerText_append, headerText_cons]
      simp
    have hmatch := (fieldRest_eq_some.1 hfield).1
    have hname : l.length = name.length + rest.length := by
      have := length_of_matchName (congrArg Prod.fst hmatch)
      rwa [hmatch, length_map] at this
    have hcr : '\r' ∉ rest := fun hmem => hl.1 ((suffix_of_fieldRest hfield).subset hmem)
    rw [findHeader, if_neg (by omega), drop_zero, hsearch]
    dsimp only
    rw [dropWhile_line (by decide), fieldValue]
    cases hdrop : rest.dropWhile (· == ' ') with
    | nil => rfl
    | cons c cs =>
      by_cases hc : c = ':'
      · subst hc
        have htail := hdrop ▸ dropWhile_suffix _
        have hvalue : cs.dropWhile (· == ' ') <:+ rest :=
          (dropWhile_suffix _).trans ((suffix_cons ':' cs).trans htail)
        have hend : (cs.dropWhile (· == ' ') ++ '\r' :: '\n' :: headerText after).takeWhile
            (fun c => c != '\r' && c != '\n') = cs.dropWhile (· == ' ') := by
          refine takeWhile_plain ⟨fun hmem => hcr (hvalue.subset hmem), fun hmem => ?_⟩
          exact hl.2 ((suffix_of_fieldRest hfield).subset (hvalue.subset hmem))
        have hle := hvalue.length_le
        simp only [cons_append, dropWhile_line (p := (· == ' ')) (by decide), hend,
          map_some, some.injEq, HeaderPos.mk.injEq, hlen, length_append,
          length_cons]
        omega
      · simp [hc]

/-- What comes after the first lines, at a place in the next one. -/
theorem drop_headerText {before after : List Str} {a : ℕ} (ha : a ≤ l.length) :
    (headerText (before ++ l :: after)).drop ((headerText before).length + a) =
      l.drop a ++ '\r' :: '\n' :: headerText after := by
  rw [headerText_append, drop_length_add_append, headerText_cons, drop_append_of_le_length ha]

theorem getHeaderSingle_headerText (hne : name ≠ []) (hname : '\r' ∉ name.map lowerChar)
    (hplain : ∀ l ∈ ls, PlainLine l) :
    getHeaderSingle (headerText ls) name =
      ((ls.findSome? (fieldRest (name.map lowerChar))).bind fieldValue).getD [] := by
  rw [getHeaderSingle, if_neg hne]
  rcases findHeader_headerText hname hplain with
    ⟨hnone, hfind⟩ | ⟨before, l, after, rest, rfl, hbefore, hfield, hfind⟩
  · rw [hfind, findSome?_eq_none_iff.2 hnone]
    rfl
  · rw [hfind, findSome?_append, findSome?_eq_none_iff.2 hbefore, none_or, findSome?_cons, hfield]
    cases hvalue : fieldValue rest with
    | none => simp [hvalue]
    | some value =>
      have hsuffix := (suffix_fieldValue hvalue).trans (suffix_of_fieldRest hfield)
      obtain ⟨pre, rfl⟩ := hsuffix
      dsimp only [map_some, bind_some]
      have hlen : (headerText before).length + (pre ++ value).length -
          ((headerText before).length + ((pre ++ value).length - value.length)) = value.length := by
        rw [length_append]
        omega
      rw [hvalue, drop_headerText (Nat.sub_le _ _), hlen]
      simp

theorem drop_takeWhile_length (p : Char → Bool) (s : Str) :
    s.drop (s.takeWhile p).length = s.dropWhile p := by
  induction s with
  | nil => rfl
  | cons c s ih =>
    rw [takeWhile_cons, dropWhile_cons]
    split_ifs
    · exact ih
    · rfl

/-- The line ends after a line go with the empty lines after it. -/
theorem dropWhile_lineEnds (hplain : ∀ l ∈ ls, PlainLine l) :
    (headerText ls).dropWhile (fun c => c == '\r' || c == '\n') =
      headerText (ls.dropWhile (· == [])) := by
  induction ls with
  | nil => rfl
  | cons l ls ih =>
    have hl := hplain l mem_cons_self
    cases l with
    | nil => exact ih fun x hx => hplain x (mem_cons_of_mem _ hx)
    | cons c l =>
      have hcr : c ≠ '\r' := fun h => hl.1 (h ▸ mem_cons_self)
      have hlf : c ≠ '\n' := fun h => hl.2 (h ▸ mem_cons_self)
      simp [hcr, hlf, headerText_cons]

/-- One round of `removeHeader` takes out the first line with the name and the empty lines after
it. -/
theorem removeHeaderLoop_succ (hname : '\r' ∉ name.map lowerChar)
    (hplain : ∀ l ∈ ls, PlainLine l)
    (hvalue : ∀ l ∈ ls, ∀ rest, fieldRest (name.map lowerChar) l = some rest →
      (fieldValue rest).isSome = true) (k : ℕ) :
    (∀ l ∈ ls, fieldRest (name.map lowerChar) l = none) ∧
        removeHeaderLoop name (k + 1) (headerText ls) = headerText ls ∨
      ∃ before l after rest, ls = before ++ l :: after ∧
        fieldRest (name.map lowerChar) l = some rest ∧
        removeHeaderLoop name (k + 1) (headerText ls) =
          removeHeaderLoop name k (headerText (before ++ after.dropWhile (· == []))) := by
  rcases findHeader_headerText hname hplain with
    ⟨hnone, hfind⟩ | ⟨before, l, after, rest, rfl, hbefore, hfield, hfind⟩
  · refine .inl ⟨hnone, ?_⟩
    rw [removeHeaderLoop, hfind]
  · refine .inr ⟨before, l, after, rest, rfl, hfield, ?_⟩
    have hmem : l ∈ before ++ l :: after := by simp
    obtain ⟨value, hvalue⟩ := isSome_iff_exists.1 (hvalue l hmem rest hfield)
    have hafter : ∀ x ∈ after, PlainLine x := fun x hx => hplain x (by simp [hx])
    rw [removeHeaderLoop, hfind, hvalue, map_some]
    dsimp only
    rw [drop_headerText (Nat.le_refl _), drop_length, nil_append, ← drop_drop,
      drop_headerText (Nat.le_refl _), drop_length, nil_append, Nat.add_sub_cancel,
      headerText_append, take_left]
    have hlineEnds : ('\r' :: '\n' :: headerText after).dropWhile
        (fun c => c == '\r' || c == '\n') = headerText (after.dropWhile (· == [])) :=
      dropWhile_lineEnds hafter
    rw [drop_takeWhile_length, hlineEnds, headerText_append]

/-- The first line with another name is not touched by taking out a line. -/
theorem findSome?_remove {m : Str} {before after : List Str} (hm : fieldRest m l = none)
    (hempty : fieldRest m [] = none) :
    (before ++ after.dropWhile (· == [])).findSome? (fieldRest m) =
      (before ++ l :: after).findSome? (fieldRest m) := by
  have hafter : (after.dropWhile (· == [])).findSome? (fieldRest m) =
      after.findSome? (fieldRest m) := by
    induction after with
    | nil => rfl
    | cons x after ih =>
      rw [dropWhile_cons]
      split_ifs with hx
      · rw [ih, findSome?_cons, beq_iff_eq.1 hx, hempty]
      · rfl
  rw [findSome?_append, findSome?_append, hafter, findSome?_cons, hm]

/-- A line has one name. -/
theorem fieldRest_other {m : Str} (hhdr : hdr ≠ []) (hm : m ≠ []) (hne : m.head? ≠ hdr.head?)
    {rest : Str} (h : fieldRest hdr l = some rest) : fieldRest m l = none := by
  obtain ⟨x, hdr, rfl⟩ := exists_cons_of_ne_nil hhdr
  obtain ⟨y, m, rfl⟩ := exists_cons_of_ne_nil hm
  have hmatch := (fieldRest_eq_some.1 h).1
  cases l with
  | nil => simp [matchName] at hmatch
  | cons c l =>
    rw [matchName] at hmatch
    split_ifs at hmatch with hc
    · have hcy : lowerChar c ≠ y := fun hcy => hne (by rw [← hc, ← hcy]; rfl)
      rw [fieldRest, matchName, if_neg hcy]
    · cases hmatch

theorem fieldRest_nil (hhdr : hdr ≠ []) : fieldRest hdr [] = none := by
  obtain ⟨x, hdr, rfl⟩ := exists_cons_of_ne_nil hhdr
  rfl

/-- The headers with the name are gone, and all others are still there. -/
theorem removeHeaderLoop_headerText (hne : name ≠ []) (hname : '\r' ∉ name.map lowerChar) :
    ∀ {k : ℕ} {ls : List Str}, ls.length ≤ k → (∀ l ∈ ls, PlainLine l) →
      (∀ l ∈ ls, ∀ rest, fieldRest (name.map lowerChar) l = some rest →
        (fieldValue rest).isSome = true) →
      ∃ ls', removeHeaderLoop name k (headerText ls) = headerText ls' ∧ ls'.Sublist ls ∧
        (∀ l ∈ ls', fieldRest (name.map lowerChar) l = none) ∧
        ∀ m, m ≠ [] → m.head? ≠ (name.map lowerChar).head? →
          ls'.findSome? (fieldRest m) = ls.findSome? (fieldRest m)
  | 0, ls, hk, _, _ => by
    obtain rfl := eq_nil_of_length_eq_zero (Nat.le_zero.1 hk)
    exact ⟨[], rfl, List.Sublist.refl _, by simp, fun _ _ _ => rfl⟩
  | k + 1, ls, hk, hplain, hvalue => by
    have hhdr : name.map lowerChar ≠ [] := by simpa using hne
    rcases removeHeaderLoop_succ hname hplain hvalue k with
      ⟨hnone, hremove⟩ | ⟨before, l, after, rest, rfl, hfield, hremove⟩
    · exact ⟨ls, hremove, List.Sublist.refl _, hnone, fun _ _ _ => rfl⟩
    · have hsub : (before ++ after.dropWhile (· == [])).Sublist (before ++ l :: after) :=
        (List.Sublist.refl before).append
          (((dropWhile_suffix _).sublist).trans (sublist_cons_self l after))
      have hlen : (before ++ after.dropWhile (· == [])).length ≤ k := by
        have hdrop : (after.dropWhile (· == [])).length ≤ after.length :=
          (dropWhile_suffix _).length_le
        rw [length_append, length_cons] at hk
        rw [length_append]
        omega
      obtain ⟨ls', hloop, hsub', hnone, hother⟩ := removeHeaderLoop_headerText hne hname hlen
        (fun x hx => hplain x (hsub.subset hx)) (fun x hx => hvalue x (hsub.subset hx))
      refine ⟨ls', hremove.trans hloop, hsub'.trans hsub, hnone, fun m hm hhead => ?_⟩
      rw [hother m hm hhead]
      exact findSome?_remove (fieldRest_other hhdr hm hhead hfield) (fieldRest_nil hm)

/-- The line of a header is found by its name. -/
theorem fieldRest_self (name : Str) (value : Str) :
    fieldRest (name.map lowerChar) (name ++ ':' :: value) = some (':' :: value) := by
  have hmatch : matchName (name.map lowerChar) (name ++ ':' :: value) = ([], ':' :: value) := by
    induction name with
    | nil => rfl
    | cons c name ih => rw [map_cons, cons_append, matchName, if_pos rfl, ih]
  exact fieldRest_eq_some.2 ⟨hmatch, rfl⟩

/-! ## Values of any text -/

theorem plainLine_takeWhile {s : Str} :
    PlainLine (s.takeWhile fun c => c != '\r' && c != '\n') := by
  have hall : ∀ c ∈ s.takeWhile (fun c => c != '\r' && c != '\n'),
      (c != '\r' && c != '\n') = true :=
    all_eq_true.1 all_takeWhile
  exact ⟨fun hmem => absurd (hall _ hmem) (by decide), fun hmem => absurd (hall _ hmem) (by decide)⟩

theorem suffix_skipLine : ∀ cs : Str, skipLine cs <:+ cs
  | [] => suffix_rfl
  | c :: cs => by
    rw [skipLine]
    split_ifs
    · exact suffix_cons c cs
    · exact (suffix_skipLine cs).trans (suffix_cons c cs)

theorem suffix_searchName {rest : Str} :
    ∀ {k : ℕ} {cs : Str}, searchName hdr k cs = some rest → rest <:+ cs
  | 0, _, h => by cases h
  | _ + 1, [], h => by cases h
  | k + 1, c :: cs, h => by
    have hmatch := suffix_matchName hdr (c :: cs)
    rw [searchName.eq_def] at h
    dsimp only at h
    split at h
    · rename_i rest' heq
      rw [heq] at hmatch
      split_ifs at h
      · exact some.inj h ▸ hmatch
      · exact (suffix_searchName h).trans ((suffix_skipLine _).trans hmatch)
    · rename_i heq
      rw [heq] at hmatch
      exact (suffix_searchName h).trans ((suffix_skipLine _).trans hmatch)

/-- The value of a header ends before the end of its line. -/
theorem plainLine_getHeaderSingle {hdrs : Str} : PlainLine (getHeaderSingle hdrs name) := by
  rw [getHeaderSingle]
  split_ifs
  · exact plainLine_nil
  · rw [findHeader]
    split_ifs
    · exact plainLine_nil
    · cases hsearch : searchName (name.map lowerChar) hdrs.length (hdrs.drop 0) with
      | none => exact plainLine_nil
      | some rest =>
        dsimp only
        split
        · exact plainLine_nil
        · rename_i p hp
          split at hp
          · rename_i cs hcs
            obtain rfl := some.inj hp
            have hsuffix : cs.dropWhile (· == ' ') <:+ hdrs := by
              have htail := hcs ▸ dropWhile_suffix _
              exact (dropWhile_suffix _).trans ((suffix_cons ':' cs).trans
                (htail.trans ((suffix_searchName hsearch).trans (drop_suffix 0 hdrs))))
            have hvalue := (suffix_iff_eq_drop.1 hsuffix).symm
            rw [hvalue, Nat.add_sub_cancel_left, ← prefix_iff_eq_take.1 (List.takeWhile_prefix _)]
            exact plainLine_takeWhile
          · cases hp

end Sems
