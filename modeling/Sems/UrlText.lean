import Mathlib

/-!
# Escaped URL texts

`urlEncode` writes every byte outside the unreserved characters of RFC 3986 as `%XX`, and
`urlDecode` reads such a text with a machine of three states, in which `%%` stands for `%` and a
broken escape is left out. What was encoded is decoded again, and no text grows when it is decoded
(`urlDecode_urlEncode`).
-/

namespace Sems

/-- A character of the text as a byte. -/
def ch (c : Char) : BitVec 8 :=
  .ofNat 8 c.toNat

/-- The comparisons are those of a signed `char`. -/
def inRange (lo hi : Char) (b : BitVec 8) : Bool :=
  (ch lo).sle b && b.sle (ch hi)

/-! ## The encoder -/

def isUrlUnreserved (b : BitVec 8) : Bool :=
  inRange 'A' 'Z' b || inRange 'a' 'z' b || inRange '0' '9' b ||
    b == ch '-' || b == ch '_' || b == ch '.' || b == ch '~'

/-- A digit of the format `%X`. -/
def hexDigit (v : BitVec 8) : BitVec 8 :=
  if v < 10#8 then ch '0' + v else ch 'A' + (v - 10#8)

def urlEncodeByte (b : BitVec 8) : List (BitVec 8) :=
  if isUrlUnreserved b then [b] else [ch '%', hexDigit (b >>> 4), hexDigit (b &&& 15#8)]

def urlEncode (s : List (BitVec 8)) : List (BitVec 8) :=
  s.flatMap urlEncodeByte

/-! ## The decoder -/

/-- The states of the decoder; the last one keeps the byte before the current one. -/
inductive UrlSt
  | uSNormal
  | uSH1
  | uSH2 (last : BitVec 8)

def hexVal (b : BitVec 8) : Option (BitVec 8) :=
  if inRange '0' '9' b then some (b - ch '0')
  else if inRange 'a' 'f' b then some (b - ch 'a' + 10#8)
  else if inRange 'A' 'F' b then some (b - ch 'A' + 10#8)
  else none

/-- One turn of the loop : the next state and what is added to the result. -/
def urlDecodeStep (b : BitVec 8) : UrlSt → UrlSt × List (BitVec 8)
  | .uSNormal => if b = ch '%' then (.uSH1, []) else (.uSNormal, [b])
  | .uSH1 => if b = ch '%' then (.uSNormal, [ch '%']) else (.uSH2 b, [])
  | .uSH2 last =>
    match hexVal b, hexVal last with
    | some lo, some hi => (.uSNormal, [lo + hi <<< 4])
    | _, _ => (.uSNormal, [])

def urlDecodeFrom : UrlSt → List (BitVec 8) → List (BitVec 8)
  | _, [] => []
  | st, b :: s => (urlDecodeStep b st).2 ++ urlDecodeFrom (urlDecodeStep b st).1 s

def urlDecode (s : List (BitVec 8)) : List (BitVec 8) :=
  urlDecodeFrom .uSNormal s

/-! ## Round trip -/

/-- The unreserved characters of RFC 3986, section 2.3. -/
def unreservedChars : List Char :=
  "ABCDEFGHIJKLMNOPQRSTUVWXYZabcdefghijklmnopqrstuvwxyz0123456789-_.~".toList

/-- A text of unreserved characters and `%XX` escapes. -/
inductive UrlEscaped : List (BitVec 8) → Prop
  | nil : UrlEscaped []
  | char {c s} : c ∈ unreservedChars → UrlEscaped s → UrlEscaped (ch c :: s)
  | escape {x y s} : x ∈ "0123456789ABCDEF".toList → y ∈ "0123456789ABCDEF".toList →
      UrlEscaped s → UrlEscaped (ch '%' :: ch x :: ch y :: s)

theorem mem_unreserved : ∀ b, isUrlUnreserved b → b ∈ unreservedChars.map ch := by
  decide +kernel

theorem mem_hexDigits : ∀ b : BitVec 8, hexDigit (b >>> 4) ∈ "0123456789ABCDEF".toList.map ch ∧
    hexDigit (b &&& 15#8) ∈ "0123456789ABCDEF".toList.map ch := by
  decide +kernel

theorem UrlEscaped.urlEncodeByte_append {s : List (BitVec 8)} (h : UrlEscaped s) (b : BitVec 8) :
    UrlEscaped (urlEncodeByte b ++ s) := by
  rw [urlEncodeByte]
  split_ifs with hb
  · obtain ⟨c, hc, rfl⟩ := List.mem_map.1 (mem_unreserved b hb)
    exact .char hc h
  · obtain ⟨hhi, hlo⟩ := mem_hexDigits b
    obtain ⟨x, hx, hhi⟩ := List.mem_map.1 hhi
    obtain ⟨y, hy, hlo⟩ := List.mem_map.1 hlo
    rw [← hhi, ← hlo]
    exact .escape hx hy h

theorem urlEscaped_urlEncode : ∀ s, UrlEscaped (urlEncode s)
  | [] => .nil
  | b :: s => (urlEscaped_urlEncode s).urlEncodeByte_append b

/-- An escape is read back : its digits are no `%`, and their values are the halves of the byte. -/
theorem hexVal_hexDigit : ∀ b : BitVec 8, hexDigit (b >>> 4) ≠ ch '%' ∧
    hexVal (hexDigit (b >>> 4)) = some (b >>> 4) ∧
      hexVal (hexDigit (b &&& 15#8)) = some (b &&& 15#8) ∧ (b &&& 15#8) + (b >>> 4) <<< 4 = b := by
  decide +kernel

theorem urlDecodeFrom_urlEncodeByte {b : BitVec 8} {s : List (BitVec 8)} :
    urlDecodeFrom .uSNormal (urlEncodeByte b ++ s) = b :: urlDecodeFrom .uSNormal s := by
  rw [urlEncodeByte]
  split_ifs with hb
  · have hne : b ≠ ch '%' := by
      rintro rfl
      exact absurd hb (by decide)
    simp [urlDecodeFrom, urlDecodeStep, hne]
  · obtain ⟨hne, hhi, hlo, hsum⟩ := hexVal_hexDigit b
    simp [urlDecodeFrom, urlDecodeStep, hne, hhi, hlo, hsum]

theorem length_urlDecodeStep_le {b : BitVec 8} {st : UrlSt} :
    (urlDecodeStep b st).2.length ≤ 1 := by
  rw [urlDecodeStep.eq_def]
  repeat' split
  all_goals simp

theorem length_urlDecodeFrom_le : ∀ (st : UrlSt) (s : List (BitVec 8)),
    (urlDecodeFrom st s).length ≤ s.length
  | _, [] => le_rfl
  | st, b :: s => by
    rw [urlDecodeFrom, List.length_append, List.length_cons, Nat.add_comm s.length]
    exact Nat.add_le_add length_urlDecodeStep_le (length_urlDecodeFrom_le _ s)

/-- An encoded text is made of unreserved characters and escapes and is decoded to what it was, and
the decoder makes no text longer. -/
theorem urlDecode_urlEncode (s : List (BitVec 8)) :
    urlDecode (urlEncode s) = s ∧ UrlEscaped (urlEncode s) ∧
      ∀ text, (urlDecode text).length ≤ text.length := by
  refine ⟨?_, urlEscaped_urlEncode s, length_urlDecodeFrom_le .uSNormal⟩
  induction s with
  | nil => rfl
  | cons b s ih => exact urlDecodeFrom_urlEncodeByte.trans (congrArg _ ih)

end Sems
