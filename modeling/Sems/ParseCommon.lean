import Sems.SipMsg

/-!
# What the parsers share

The error codes and character classes of `core/sip/parse_common.h`, the type of a header
(`core/sip/parse_header.cpp`), and the numbers of `core/AmUtils.cpp`.

A byte is a character below 256. A function that moves a cursor over the message returns the
text left.
-/

namespace Sems

/-- The parser's error codes. -/
inductive ParseErr where
  | UNDEFINED_ERR
  | UNEXPECTED_EOT
  | UNEXPECTED_EOL
  | MALFORMED_SIP_MSG
  | INCOMPLETE_SIP_MSG
  | MALFORMED_URI
  | MALFORMED_FLINE
  | MALFORMED_SIP_VERSION
  /-- `-99`, for a state no parser goes to. -/
  | BAD_STATE
  deriving DecidableEq, Repr

/-- `cstring` : a part of a buffer, by its address and length. -/
structure CString where
  s : ℕ
  len : ℕ
  deriving DecidableEq, Repr

/-! ## Character classes -/

variable (c : Char)

/-- `IS_IN`. -/
def isIn (l r : ℕ) : Bool :=
  l ≤ c.toNat && c.toNat ≤ r

/-- `IS_ALPHA`. -/
def isAlpha : Bool :=
  isIn c 0x41 0x5a || isIn c 0x61 0x7a

/-- `IS_DIGIT`. -/
def isDigit : Bool :=
  isIn c 0x30 0x39

/-- `IS_ALPHANUM`. -/
def isAlphanum : Bool :=
  isAlpha c || isDigit c

/-- `IS_TOKEN`. -/
def isToken : Bool :=
  isAlphanum c || "-.!%*_+`'~".toList.contains c

/-! ## Numbers -/

/-- Of a 32-bit `int`. -/
def INT_MAX : ℕ := 2147483647

/-- Of a 32-bit `unsigned int`. -/
def UINT_MAX : ℕ := 4294967295

/-- The value of a digit. -/
def digitVal : ℕ :=
  c.toNat - 0x30

/-- The digits of a number up to `max`, after `i` ones with the value `ret`. A blank or a line end
may follow. -/
def digitsLoop (max ret i : ℕ) : Str → Option ℕ
  | [] => some ret
  | c :: cs =>
    if c = '\x00' then some ret
    else if isDigit c then
      if (max - digitVal c) / 10 < ret then none
      else if 10 < i + 1 then none
      else digitsLoop max (ret * 10 + digitVal c) (i + 1) cs
    else if c ≠ ' ' ∧ c ≠ '\r' ∧ c ≠ '\n' then none
    else some ret

/-- The value of an unsigned number. Without one the result is left as it was. -/
def str2i (str : Str) : Option ℕ :=
  digitsLoop UINT_MAX 0 0 (str.dropWhile (· == ' '))

/-- The value of a signed number. Without one the result is left as it was. -/
def str2int (str : Str) : Option ℤ :=
  match str.dropWhile (· == ' ') with
  | '-' :: cs => (digitsLoop INT_MAX 0 0 (cs.dropWhile (· == ' '))).map fun n : ℕ => -(n : ℤ)
  | cs => (digitsLoop INT_MAX 0 0 cs).map fun n : ℕ => (n : ℤ)

/-- Of a 64-bit `long`. -/
def LONG_MAX : ℕ := 9223372036854775807

/-- `digitsLoop` of a `long`, which may have more digits. -/
def longDigitsLoop (ret i : ℕ) : Str → Option ℕ
  | [] => some ret
  | c :: cs =>
    if c = '\x00' then some ret
    else if isDigit c then
      if (LONG_MAX - digitVal c) / 10 < ret then none
      else if 20 < i + 1 then none
      else longDigitsLoop (ret * 10 + digitVal c) (i + 1) cs
    else if c ≠ ' ' ∧ c ≠ '\r' ∧ c ≠ '\n' then none
    else some ret

/-- The value of a `long`. Without one the result is left as it was. -/
def str2long (str : Str) : Option ℤ :=
  match str.dropWhile (· == ' ') with
  | '-' :: cs => (longDigitsLoop 0 0 (cs.dropWhile (· == ' '))).map fun n : ℕ => -(n : ℤ)
  | cs => (longDigitsLoop 0 0 cs).map fun n : ℕ => (n : ℤ)

/-- Decimal digits of a signed number. -/
def long2str (val : ℤ) : Str :=
  if val < 0 then '-' :: Nat.toDigits 10 val.natAbs else Nat.toDigits 10 val.natAbs

example : str2int "70 bytes".toList = some 70 := by decide

/-! ## Header types -/

/-- The types of headers the parser knows. -/
inductive HdrType where
  | H_TO
  | H_VIA
  | H_FROM
  | H_CSEQ
  | H_RSEQ
  | H_RACK
  | H_ROUTE
  | H_CALL_ID
  | H_CONTACT
  | H_REQUIRE
  | H_RECORD_ROUTE
  | H_CONTENT_TYPE
  | H_CONTENT_LENGTH
  | H_MAX_FORWARDS
  | H_OTHER
  deriving DecidableEq, Repr

/-- The type of a name of one letter. -/
def compactType : HdrType :=
  if lowerB c = 'i'.toNat then .H_CALL_ID
  else if lowerB c = 'm'.toNat then .H_CONTACT
  else if lowerB c = 'l'.toNat then .H_CONTENT_LENGTH
  else if lowerB c = 'c'.toNat then .H_CONTENT_TYPE
  else if lowerB c = 'f'.toNat then .H_FROM
  else if lowerB c = 't'.toNat then .H_TO
  else if lowerB c = 'v'.toNat then .H_VIA
  else .H_OTHER

/-- `type` when `lower_cmp` finds the same letters. -/
def typeIf (name hdr : Str) (type : HdrType) : HdrType :=
  if lowerEq name hdr then type else .H_OTHER

/-- `parse_header_type`, over the length of the name. -/
def parseHeaderType (name : Str) : HdrType :=
  match name with
  | [c] => compactType c
  | [_, _] => typeIf name "To".toList .H_TO
  | [_, _, _] => typeIf name "Via".toList .H_VIA
  | [c, c1, c2, c3] =>
    if c = 'f' ∨ c = 'F' then typeIf [c1, c2, c3] "rom".toList .H_FROM
    else if c = 'c' ∨ c = 'C' then typeIf [c1, c2, c3] "Seq".toList .H_CSEQ
    else if c = 'r' ∨ c = 'R' then
      if c1 = 's' ∨ c1 = 'S' then typeIf [c2, c3] "eq".toList .H_RSEQ
      else if c1 = 'a' ∨ c1 = 'A' then typeIf [c2, c3] "ck".toList .H_RACK
      else .H_OTHER
    else .H_OTHER
  -- the first letter is not looked at
  | [_, c1, c2, c3, c4] => typeIf [c1, c2, c3, c4] "oute".toList .H_ROUTE
  | c :: c1 :: cs =>
    if name.length = 7 then
      if c = 'c' ∨ c = 'C' then
        if c1 = 'a' ∨ c1 = 'A' then typeIf cs "ll-ID".toList .H_CALL_ID
        else if c1 = 'o' ∨ c1 = 'O' then typeIf cs "ntact".toList .H_CONTACT
        else .H_OTHER
      else if c = 'r' ∨ c = 'R' then typeIf (c1 :: cs) "equire".toList .H_REQUIRE
      else .H_OTHER
    else if name.length = 12 then
      if c = 'c' ∨ c = 'C' then typeIf name "Content-Type".toList .H_CONTENT_TYPE
      else if c = 'r' ∨ c = 'R' then typeIf name "Record-Route".toList .H_RECORD_ROUTE
      else if c = 'm' ∨ c = 'M' then typeIf name "Max-Forwards".toList .H_MAX_FORWARDS
      else .H_OTHER
    else if name.length = 14 then typeIf name "Content-Length".toList .H_CONTENT_LENGTH
    else .H_OTHER
  | [] => .H_OTHER

end Sems
