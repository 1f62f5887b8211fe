import Mathlib

/-!
# Header fields as text

The text of one header field of a message : a name, a colon, and a value that may be folded over
several lines, where every line after the first starts with a blank.

`HeaderField` is a field with the proofs that its parts are well formed, and `HeaderField.text`
its text. A field is only known to be over when the next character is read.
-/

namespace Sems

/-- A space or a tab. -/
def isWsp (c : Char) : Bool :=
  c == ' ' || c == '\t'

/-- A character that neither ends a line nor the text. -/
def isPlain (c : Char) : Bool :=
  c != '\r' && c != '\n' && c != '\x00'

/-- A character of a field name. -/
def isNameChar (c : Char) : Bool :=
  isPlain c && c != ':' && !isWsp c

variable {c : Char}

theorem isPlain_iff : isPlain c = true ↔ c ≠ '\r' ∧ c ≠ '\n' ∧ c ≠ '\x00' := by
  simp [isPlain, and_assoc]

theorem isNameChar_iff :
    isNameChar c = true ↔ (c ≠ '\r' ∧ c ≠ '\n' ∧ c ≠ '\x00') ∧ c ≠ ':' ∧ isWsp c = false := by
  simp [isNameChar, isPlain, and_assoc]

/-- A blank is plain. -/
theorem isPlain_of_isWsp (h : isWsp c = true) : isPlain c = true := by
  simp only [isWsp, Bool.or_eq_true, beq_iff_eq] at h
  rcases h with rfl | rfl <;> decide

/-- The end of a line. -/
def IsEol (eol : List Char) : Prop :=
  eol = ['\n'] ∨ eol = ['\r', '\n']

/-- What may stand between the colon and the value : blanks, and line ends followed by a
blank. -/
inductive IsGap : List Char → Prop
  | nil : IsGap []
  | blank {g : List Char} {w : Char} : IsGap g → isWsp w = true → IsGap (g ++ [w])
  | fold {g eol : List Char} {w : Char} :
      IsGap g → IsEol eol → isWsp w = true → IsGap (g ++ eol ++ [w])

/-- A value : it starts with a character that is not blank, and its line ends are followed by
a blank. -/
inductive IsValue : List Char → Prop
  | first {c : Char} : isPlain c = true → isWsp c = false → IsValue [c]
  | char {v : List Char} {c : Char} : IsValue v → isPlain c = true → IsValue (v ++ [c])
  | fold {v eol : List Char} {w : Char} :
      IsValue v → IsEol eol → isWsp w = true → IsValue (v ++ eol ++ [w])

variable {v eol : List Char}

theorem IsValue.ne_nil (h : IsValue v) : v ≠ [] := by
  cases h <;> simp

/-- A value starts with a character that is not blank. -/
theorem IsValue.exists_cons (h : IsValue v) : ∃ c cs, v = c :: cs ∧ isWsp c = false := by
  induction h with
  | @first c _ hw => exact ⟨c, [], rfl, hw⟩
  | @char v d _ _ ih =>
    obtain ⟨c, cs, rfl, hw⟩ := ih
    exact ⟨c, cs ++ [d], rfl, hw⟩
  | @fold v eol w _ _ _ ih =>
    obtain ⟨c, cs, rfl, hw⟩ := ih
    exact ⟨c, cs ++ eol ++ [w], rfl, hw⟩

/-- One header field. -/
structure HeaderField where
  name : List Char
  /-- The blanks before the colon. -/
  ws : List Char
  gap : List Char
  value : List Char
  eol : List Char
  name_ok : ∀ c ∈ name, isNameChar c = true
  ws_ok : ∀ c ∈ ws, isWsp c = true
  gap_ok : IsGap gap
  value_ok : IsValue value
  eol_ok : IsEol eol

namespace HeaderField

/-- The text of a field. -/
def text (f : HeaderField) : List Char :=
  f.name ++ f.ws ++ [':'] ++ f.gap ++ f.value ++ f.eol

/-- The text does not start with a blank, which would continue the field before it. -/
def StartsLine (f : HeaderField) : Prop :=
  f.name ≠ [] ∨ f.ws = []

theorem StartsLine.exists_cons {f : HeaderField} (h : f.StartsLine) :
    ∃ c cs, f.text = c :: cs ∧ isWsp c = false ∧ c ≠ '\x00' := by
  unfold text
  cases hn : f.name with
  | nil =>
    rw [h.resolve_left (fun hne => hne hn)]
    exact ⟨':', _, rfl, by decide, by decide⟩
  | cons c cs =>
    obtain ⟨⟨-, -, h0⟩, -, hw⟩ := isNameChar_iff.1 (f.name_ok c (by simp [hn]))
    exact ⟨c, _, rfl, hw, h0⟩

/-- A field whose text does not start with a blank. -/
theorem startsLine_of_text {f : HeaderField} {cs s : List Char}
    (h : f.text ++ s = c :: cs) (hw : isWsp c = false) : f.StartsLine := by
  unfold text at h
  cases hn : f.name with
  | cons d ds => exact .inl (by rw [hn]; simp)
  | nil =>
    refine .inr ?_
    cases hws : f.ws with
    | nil => rfl
    | cons w ws =>
      have hw' := f.ws_ok w (by simp [hws])
      simp only [hn, hws, List.nil_append, List.cons_append, List.cons.injEq] at h
      rw [h.1, hw] at hw'
      cases hw'

end HeaderField

theorem IsEol.exists_cons (h : IsEol eol) :
    ∃ c cs, eol = c :: cs ∧ isWsp c = false ∧ c ≠ '\x00' := by
  rcases h with rfl | rfl <;> exact ⟨_, _, rfl, by decide, by decide⟩

/-- The text of some fields, one after the other. -/
def fieldsText (fs : List HeaderField) : List Char :=
  (fs.map HeaderField.text).flatten

@[simp] theorem fieldsText_nil : fieldsText [] = [] := rfl

theorem fieldsText_cons (f : HeaderField) (fs : List HeaderField) :
    fieldsText (f :: fs) = f.text ++ fieldsText fs := by
  simp [fieldsText]

/-- No field but the first starts with a blank. -/
def Unfolded (fs : List HeaderField) : Prop :=
  ∀ f ∈ fs.tail, f.StartsLine

variable {f : HeaderField} {fs : List HeaderField}

theorem Unfolded.of_cons (h : Unfolded (f :: fs)) : Unfolded fs :=
  fun g hg => h g (List.mem_of_mem_tail hg)

/-- One more field before a text that does not start with a blank. -/
theorem Unfolded.cons {cs s : List Char} (h : Unfolded fs) (hs : fieldsText fs ++ s = c :: cs)
    (hw : isWsp c = false) :
    Unfolded (f :: fs) := by
  cases fs with
  | nil => exact fun g hg => nomatch hg
  | cons g gs =>
    rw [fieldsText_cons, List.append_assoc] at hs
    intro g' hg'
    rcases List.mem_cons.1 hg' with rfl | hg'
    · exact HeaderField.startsLine_of_text hs hw
    · exact h g' hg'

/-- What follows a field starts with a character that ends it. -/
theorem Unfolded.exists_cons (h : Unfolded (f :: fs)) (he : IsEol eol) (s : List Char) :
    ∃ c cs, fieldsText fs ++ eol ++ s = c :: cs ∧ isWsp c = false ∧ c ≠ '\x00' := by
  cases fs with
  | nil =>
    obtain ⟨c, cs, rfl, hc⟩ := he.exists_cons
    exact ⟨c, cs ++ s, by simp, hc⟩
  | cons g gs =>
    obtain ⟨c, cs, htext, hc⟩ := (h g (by simp)).exists_cons
    exact ⟨c, cs ++ fieldsText gs ++ eol ++ s, by simp [fieldsText_cons, htext], hc⟩

end Sems
