import Sems.SipMsg

/-!
# Branches and To-tags

`compute_tag`, `compute_branch` and `compute_sl_to_tag` (`core/sip/trans_table.cpp`). A tag is made
from two hash values, with `hl + (hh >> 16)` and the low 16 bits of `hh` in groups of six bits. The
group with the bits of both is always 0, so that six of the 48 bits are lost (`tag_injective_iff`).
-/

namespace Sems

/-- `_tag_lookup`. -/
def tagLookup : Str :=
  "abcdefghijklmnopqrstuvwxyzABCDEFGHIJKLMNOPQRSTUVWXYZ0123456789.~".toList

def tagChar (i : BitVec 32) : Char :=
  tagLookup.getD i.toNat 'a'

def computeTag (hl hh : BitVec 32) : Str :=
  let hl := hl + hh >>> 16
  let hh := hh &&& 0xFFFF#32
  [tagChar (hl &&& 0x3F#32), tagChar (hl >>> 6 &&& 0x3F#32), tagChar (hl >>> 12 &&& 0x3F#32),
    tagChar (hl >>> 18 &&& 0x3F#32), tagChar (hl >>> 24 &&& 0x3F#32),
    tagChar (hl >>> 30 &&& (hh <<< 2 &&& 0x3F#32)), tagChar (hh >>> 4 &&& 0x3F#32),
    tagChar (hh >>> 10 &&& 0x3F#32)]

theorem tagChar_six_inj (x y : BitVec 32) :
    tagChar (x &&& 0x3F#32) = tagChar (y &&& 0x3F#32) ↔ x.toNat % 64 = y.toNat % 64 := by
  have hsix : ∀ z : BitVec 32, (z &&& 0x3F#32).toNat = z.toNat % 64 := fun z =>
    Nat.and_two_pow_sub_one_eq_mod _ 6
  have hlt : ∀ z : BitVec 32, z.toNat % 64 < tagLookup.length := fun z => Nat.mod_lt _ (by decide)
  have hnodup : tagLookup.Nodup := by decide
  unfold tagChar
  rw [hsix, hsix, List.getD_eq_getElem _ _ (hlt x), List.getD_eq_getElem _ _ (hlt y)]
  exact hnodup.getElem_inj_iff

/-- The mixed group is 0. -/
theorem mixed_eq_zero (x y : BitVec 32) : x >>> 30 &&& (y <<< 2 &&& 0x3F#32) = 0#32 := by
  ext k hk
  simp only [BitVec.getElem_and, BitVec.getElem_ushiftRight, BitVec.getElem_shiftLeft]
  by_cases h : k < 2
  · simp [h]
  · have hx : x.getLsbD (30 + k) = false := BitVec.getLsbD_of_ge _ _ (by omega)
    simp [hx]

/-- What a tag is made from. `cnt` and `cnt'` are the values of `__branch_cnt`, in this order. -/
inductive TagSource where
  | values (hl hh : BitVec 32)
  | branch (cnt cnt' : BitVec 32) (callid cseq : Str)
  | slToTag (cnt cnt' : BitVec 32) (method ruri : Str) (callid fromHdr cseq : Option Str)

variable (hashlittle : Str → BitVec 32 → BitVec 32)

def hashHeader (hdr : Option Str) (h : BitVec 32) : BitVec 32 :=
  hdr.elim h (hashlittle · h)

namespace TagSource

/-- The hash values `hl` and `hh`. -/
def hashes : TagSource → BitVec 32 × BitVec 32
  | values hl hh => (hl, hh)
  | branch cnt cnt' callid cseq => (hashlittle callid cnt', hashlittle cseq cnt)
  | slToTag cnt cnt' method ruri callid fromHdr cseq =>
    (hashlittle ruri (hashlittle method cnt), hashHeader hashlittle cseq
      (hashHeader hashlittle fromHdr (hashHeader hashlittle callid cnt')))

variable (i j : TagSource)

/-- `compute_branch` and `compute_sl_to_tag`. -/
def tag : Str :=
  computeTag (i.hashes hashlittle).1 (i.hashes hashlittle).2

/-- The 48 bits : `hl + (hh >> 16)` and the low 16 bits of `hh`. -/
def bits : ℕ × ℕ :=
  let (hl, hh) := i.hashes hashlittle
  ((hl + hh >>> 16).toNat, hh.toNat % 2 ^ 16)

/-- The bits that are in the tag. -/
def kept : ℕ × ℕ :=
  ((i.bits hashlittle).1 % 2 ^ 30, (i.bits hashlittle).2 / 2 ^ 4)

/-- The bits of the mixed group. -/
def lost : ℕ × ℕ :=
  ((i.bits hashlittle).1 / 2 ^ 30, (i.bits hashlittle).2 % 2 ^ 4)

theorem tag_eq_iff :
    i.tag hashlittle = j.tag hashlittle ↔ i.kept hashlittle = j.kept hashlittle := by
  have hlow : ∀ x : BitVec 32, (x &&& 0xFFFF#32).toNat = x.toNat % 2 ^ 16 := fun x =>
    Nat.and_two_pow_sub_one_eq_mod _ 16
  unfold tag computeTag kept bits
  simp only [List.cons.injEq, mixed_eq_zero, tagChar_six_inj, BitVec.toNat_ushiftRight,
    Nat.shiftRight_eq_div_pow, hlow, and_true, true_and, Prod.mk.injEq]
  generalize ((i.hashes hashlittle).1 + _).toNat = a
  generalize ((j.hashes hashlittle).1 + _).toNat = b
  omega

/-- Tags that are equal are made from the same bits, unless only lost bits differ. -/
theorem tag_injective_iff :
    (i.tag hashlittle = j.tag hashlittle → i.bits hashlittle = j.bits hashlittle) ↔
      (i.kept hashlittle = j.kept hashlittle → i.lost hashlittle = j.lost hashlittle) := by
  rw [tag_eq_iff]
  unfold kept lost
  simp only [Prod.ext_iff]
  omega

/-- The lowest bit of `hh` is lost. -/
theorem tag_not_injective :
    ¬ ∀ i j : TagSource, i.tag (fun _ h => h) = j.tag (fun _ h => h) →
      i.bits (fun _ h => h) = j.bits (fun _ h => h) := by
  intro h
  exact absurd (h (.values 0 0) (.values 0 1) (by decide)) (by decide)

end TagSource

end Sems
