import Mathlib.Data.List.Basic
import SosKernel.Lib.Numeral

/-
  The function `number` of `lib/vsprintf.c`.

  Its result is the bytes it writes, and none when it writes
  none and returns 0.

  Main declarations:
    * `number`
    * `Field`: the parts of what is written
    * `Field.Selected`: the parts that the flags select
    * `number_writes`
-/

------------------------------------------------------------
-- The Function
------------------------------------------------------------

namespace SosKernel

namespace Vsprintf

def ZEROPAD : UInt32 := 1
def SIGN : UInt32 := 2
def PLUS : UInt32 := 4
def SPACE : UInt32 := 8
def LEFT : UInt32 := 16
def SPECIAL : UInt32 := 32
def SMALL : UInt32 := 64

/- The characters that are named in `number`. -/
def zero : UInt8 := 48
def space : UInt8 := 32
def minus : UInt8 := 45
def plus : UInt8 := 43

def upperDigits : List UInt8 :=
  "0123456789ABCDEFGHIJKLMNOPQRSTUVWXYZ".toList.map
    fun c => UInt8.ofNat c.toNat

def lowerDigits : List UInt8 :=
  "0123456789abcdefghijklmnopqrstuvwxyz".toList.map
    fun c => UInt8.ofNat c.toNat

/- A flag that is set in `type`. -/
def Flagged (type flag : UInt32) : Prop :=
  type &&& flag ≠ 0

instance (type flag : UInt32) :
    Decidable (Flagged type flag) :=
  inferInstanceAs (Decidable (_ ≠ _))

/- The base of a division that `do_div` makes. -/
structure Radix where
  base : UInt32
  two_le : 2 ≤ base.toNat
  le : base.toNat ≤ 36

/- What the bits of a number are without a sign. -/
theorem toNat_toUInt32
    (num : Int32) :
    (num.toUInt32.toNat : Int) =
      if num.toInt < 0 then num.toInt + 2 ^ 32
      else num.toInt := by
  have hBits : num.toInt = num.toBitVec.toInt := rfl
  have hNat : num.toUInt32.toNat = num.toBitVec.toNat := rfl
  have hLt := num.toBitVec.isLt
  rw [BitVec.toInt_eq_toNat_cond] at hBits
  split at hBits <;> split <;> omega

theorem toNat_base
    {base : Int32}
    (hBase : ¬ (base < 2 ∨ base > 36)) :
    (base.toUInt32.toNat : Int) = base.toInt ∧
      2 ≤ base.toInt ∧ base.toInt ≤ 36 := by
  have hTwo : (2 : Int32).toInt = 2 := rfl
  have hMax : (36 : Int32).toInt = 36 := rfl
  rw [gt_iff_lt, Int32.lt_iff_toInt_lt,
    Int32.lt_iff_toInt_lt] at hBase
  have hNat := toNat_toUInt32 base
  split at hNat <;> omega

/- A base that `number` takes. -/
def Radix.of
    (base : Int32)
    (hBase : ¬ (base < 2 ∨ base > 36)) : Radix where
  base := base.toUInt32
  two_le := by
    have hNat := toNat_base hBase
    omega
  le := by
    have hNat := toNat_base hBase
    omega

/- The loop that divides; its division is without sign. -/
def divLoop
    (digits : List UInt8)
    (radix : Radix)
    (num : UInt32)
    (tmp : List UInt8) : List UInt8 :=
  if num ≠ 0 then
    divLoop digits radix (num / radix.base)
      (tmp ++ [digits[(num % radix.base).toNat]!])
  else
    tmp
termination_by num.toNat
decreasing_by
  have hNum : num.toNat ≠ 0 := by
    intro hZero
    exact absurd (UInt32.toNat_inj.mp hZero) ‹_›
  have hTwo := radix.two_le
  rw [UInt32.toNat_div]
  exact Nat.div_lt_self (by omega) (by omega)

/- A counter that does not wrap. -/
theorem toInt_sub
    {a b : Int32}
    (hLow : -2 ^ 31 ≤ a.toInt - b.toInt)
    (hHigh : a.toInt - b.toInt < 2 ^ 31) :
    (a - b).toInt = a.toInt - b.toInt := by
  rw [Int32.toInt_sub]
  exact Int.bmod_eq_of_le (by omega) (by omega)

theorem toInt_sub_one
    {a : Int32}
    (ha : -2 ^ 31 < a.toInt) :
    (a - 1).toInt = a.toInt - 1 := by
  have hHigh := a.toInt_lt
  have hOne : (1 : Int32).toInt = 1 := rfl
  have hSub :=
    toInt_sub (a := a) (b := 1) (by omega) (by omega)
  omega

theorem zero_lt_iff
    {a : Int32} :
    0 < a ↔ 0 < a.toInt :=
  Int32.lt_iff_toInt_lt

/- The loops `while (size-- > 0) *str++ = c`. -/
def padLoop
    (c : UInt8)
    (size : Int32)
    (str : List UInt8) : Int32 × List UInt8 :=
  if 0 < size then
    padLoop c (size - 1) (str ++ [c])
  else
    (size - 1, str)
termination_by size.toInt.toNat
decreasing_by
  have hPos : 0 < size.toInt := zero_lt_iff.mp ‹_›
  rw [toInt_sub_one (by omega)]
  omega

/- The loop `while (i < precision--) *str++ = '0'`. -/
def zeroLoop
    (i precision : Int32)
    (str : List UInt8) : List UInt8 :=
  if i < precision then
    zeroLoop i (precision - 1) (str ++ [zero])
  else
    str
termination_by (precision.toInt - i.toInt).toNat
decreasing_by
  have hMore : i.toInt < precision.toInt :=
    Int32.lt_iff_toInt_lt.mp ‹_›
  have hLow := i.le_toInt
  rw [toInt_sub_one (by omega)]
  omega

/- The loop `while (i-- > 0) *str++ = tmp[i]`. -/
def copyLoop
    (tmp : List UInt8)
    (i : Int32)
    (str : List UInt8) : List UInt8 :=
  if 0 < i then
    copyLoop tmp (i - 1)
      (str ++ [tmp[(i - 1).toInt.toNat]!])
  else
    str
termination_by i.toInt.toNat
decreasing_by
  have hPos : 0 < i.toInt := zero_lt_iff.mp ‹_›
  rw [toInt_sub_one (by omega)]
  omega

def signOf (num : Int32) (type : UInt32) : UInt8 :=
  if Flagged type SIGN ∧ num < 0 then minus
  else if Flagged type PLUS then plus
  else if Flagged type SPACE then space
  else 0

/- What `number` writes, once it has the digits. -/
def writeField
    (type : UInt32)
    (c sign : UInt8)
    (special tmp : List UInt8)
    (size precision : Int32) : List UInt8 :=
  let i := Int32.ofNat tmp.length
  let (size, str) :=
    if Flagged type (ZEROPAD ||| LEFT) then (size, [])
    else padLoop space size []
  let str := if sign ≠ 0 then str ++ [sign] else str
  let str := str ++ special
  let (size, str) :=
    if Flagged type LEFT then (size, str)
    else padLoop c size str
  let str := zeroLoop i precision str
  let str := copyLoop tmp i str
  (padLoop space size str).2

def number
    (num base size precision : Int32)
    (type : UInt32) : Option (List UInt8) :=
  let digits :=
    if Flagged type SMALL then lowerDigits else upperDigits
  let type :=
    if Flagged type LEFT then type &&& ~~~ZEROPAD else type
  if hBase : base < 2 ∨ base > 36 then
    none
  else
    let c := if Flagged type ZEROPAD then zero else space
    let sign := signOf num type
    let num :=
      if Flagged type SIGN ∧ num < 0 then -num else num
    let size := if sign ≠ 0 then size - 1 else size
    let size :=
      if Flagged type SPECIAL then
        if base = 16 then size - 2
        else if base = 8 then size - 1
        else size
      else size
    let tmp :=
      if num = 0 then [zero]
      else divLoop digits (Radix.of base hBase) num.toUInt32 []
    let i := Int32.ofNat tmp.length
    let precision := if i > precision then i else precision
    let special :=
      if Flagged type SPECIAL then
        if base = 8 then [zero]
        else if base = 16 then [zero, digits[33]!]
        else []
      else []
    some (writeField type c sign special tmp
      (size - precision) precision)

------------------------------------------------------------
-- The Loops
------------------------------------------------------------

variable {digits : List UInt8}
variable {tmp str : List UInt8}

theorem padLoop_eq
    (c : UInt8)
    (size : Int32)
    (str : List UInt8) :
    (padLoop c size str).2 =
      str ++ List.replicate size.toInt.toNat c := by
  induction size, str using padLoop.induct c with
  | case1 size str hPos ih =>
      have hInt : 0 < size.toInt := zero_lt_iff.mp hPos
      have hNat :
          size.toInt.toNat = (size.toInt - 1).toNat + 1 := by
        omega
      rw [padLoop, if_pos hPos, ih, toInt_sub_one (by omega),
        hNat, List.replicate_succ, List.append_assoc]
      rfl
  | case2 size str hPos =>
      have hInt : ¬ 0 < size.toInt :=
        fun h => hPos (zero_lt_iff.mpr h)
      have hNat : size.toInt.toNat = 0 := by omega
      rw [padLoop, if_neg hPos, hNat, List.replicate_zero,
        List.append_nil]

/- What a loop leaves of its counter is below 0. -/
theorem padLoop_size
    (c : UInt8)
    (size : Int32)
    (str : List UInt8)
    (hSize : -2 ^ 31 < size.toInt) :
    (padLoop c size str).1.toInt = min size.toInt 0 - 1 := by
  induction size, str using padLoop.induct c with
  | case1 size str hPos ih =>
      have hInt : 0 < size.toInt := zero_lt_iff.mp hPos
      have hNext := toInt_sub_one hSize
      rw [padLoop, if_pos hPos, ih (by omega), hNext]
      omega
  | case2 size str hPos =>
      have hInt : ¬ 0 < size.toInt :=
        fun h => hPos (zero_lt_iff.mpr h)
      rw [padLoop, if_neg hPos, toInt_sub_one hSize]
      omega

/- A counter that is not above 0 pads nothing. -/
theorem padLoop_spent
    {c : UInt8}
    {size : Int32}
    (str : List UInt8)
    (hSize : size.toInt ≤ 0) :
    (padLoop c size str).2 = str := by
  rw [padLoop_eq, Int.toNat_of_nonpos hSize,
    List.replicate_zero, List.append_nil]

theorem zeroLoop_eq
    (i precision : Int32)
    (str : List UInt8) :
    zeroLoop i precision str =
      str ++ List.replicate
        (precision.toInt - i.toInt).toNat zero := by
  induction precision, str using zeroLoop.induct i with
  | case1 precision str hMore ih =>
      have hInt : i.toInt < precision.toInt :=
        Int32.lt_iff_toInt_lt.mp hMore
      have hLow := i.le_toInt
      have hNat :
          (precision.toInt - i.toInt).toNat =
            (precision.toInt - 1 - i.toInt).toNat + 1 := by
        omega
      rw [zeroLoop, if_pos hMore, ih, toInt_sub_one (by omega),
        hNat, List.replicate_succ, List.append_assoc]
      rfl
  | case2 precision str hMore =>
      have hInt : ¬ i.toInt < precision.toInt :=
        fun h => hMore (Int32.lt_iff_toInt_lt.mpr h)
      have hNat : (precision.toInt - i.toInt).toNat = 0 := by
        omega
      rw [zeroLoop, if_neg hMore, hNat, List.replicate_zero,
        List.append_nil]

/- The digits come out from the last one on. -/
theorem copyLoop_eq
    (tmp : List UInt8)
    (i : Int32)
    (str : List UInt8)
    (hi : i.toInt.toNat ≤ tmp.length) :
    copyLoop tmp i str =
      str ++ (tmp.take i.toInt.toNat).reverse := by
  induction i, str using copyLoop.induct tmp with
  | case1 i str hPos ih =>
      have hInt : 0 < i.toInt := zero_lt_iff.mp hPos
      have hNext := toInt_sub_one (a := i) (by omega)
      have hNat :
          i.toInt.toNat = (i - 1).toInt.toNat + 1 := by
        omega
      have hLt : (i - 1).toInt.toNat < tmp.length := by
        omega
      rw [copyLoop, if_pos hPos, ih (by omega), hNat,
        List.take_succ_eq_append_getElem hLt,
        List.reverse_append, List.append_assoc,
        getElem!_pos tmp _ hLt]
      rfl
  | case2 i str hPos =>
      have hInt : ¬ 0 < i.toInt :=
        fun h => hPos (zero_lt_iff.mpr h)
      have hNat : i.toInt.toNat = 0 := by omega
      rw [copyLoop, if_neg hPos, hNat, List.take_zero,
        List.reverse_nil, List.append_nil]

/-
  The division writes the digits of its number, the last one
  first.
-/
theorem divLoop_writes
    (radix : Radix)
    (num : UInt32)
    (tmp : List UInt8)
    (hDigits : digits.length = 36)
    (hNum : num ≠ 0) :
    ∃ s,
      divLoop digits radix num tmp = tmp ++ s ∧
        Numeral.Writes digits radix.base.toNat num.toNat
          s.reverse := by
  induction num, tmp using divLoop.induct digits radix with
  | case1 num tmp _ ih =>
      have hTwo := radix.two_le
      have hLe := radix.le
      have hRem : num.toNat % radix.base.toNat < 36 :=
        Nat.lt_of_lt_of_le (Nat.mod_lt _ (by omega)) hLe
      have hDigit :
          digits[num.toNat % radix.base.toNat]? =
            some digits[(num % radix.base).toNat]! := by
        rw [UInt32.toNat_mod, getElem!_pos digits _ (by omega)]
        exact List.getElem?_eq_getElem (by omega)
      rw [divLoop, if_pos hNum]
      by_cases hNext : num / radix.base = 0
      · have hLt : num.toNat < radix.base.toNat := by
          have hDiv :=
            congrArg UInt32.toNat hNext
          rw [UInt32.toNat_div] at hDiv
          rcases Nat.div_eq_zero_iff.mp hDiv with h | h
          · omega
          · exact h
        refine ⟨[digits[(num % radix.base).toNat]!], ?_, ?_⟩
        · rw [divLoop, if_neg (not_not.mpr hNext)]
        · rw [Nat.mod_eq_of_lt hLt] at hDigit
          exact Numeral.Writes.last hLt hDigit
      · rcases ih hNext with ⟨s, hLoop, hWrites⟩
        have hGe : radix.base.toNat ≤ num.toNat := by
          by_contra hLt
          apply hNext
          rw [← UInt32.toNat_inj, UInt32.toNat_div]
          exact Nat.div_eq_of_lt (by omega)
        refine ⟨digits[(num % radix.base).toNat]! :: s, ?_, ?_⟩
        · rw [hLoop, List.append_assoc]
          rfl
        · rw [UInt32.toNat_div] at hWrites
          rw [List.reverse_cons]
          exact Numeral.Writes.more hGe hWrites hDigit
  | case2 num tmp hZero => exact absurd hNum hZero

------------------------------------------------------------
-- Flags
------------------------------------------------------------

variable {type : UInt32}

theorem flagged_or
    (type flag other : UInt32) :
    Flagged type (flag ||| other) ↔
      Flagged type flag ∨ Flagged type other := by
  have hOr :
      type &&& (flag ||| other) =
        (type &&& flag) ||| (type &&& other) := by
    apply UInt32.toBitVec_inj.mp
    exact BitVec.and_or_distrib_left
  unfold Flagged
  rw [hOr, Ne, UInt32.or_eq_zero_iff]
  exact Decidable.not_and_iff_not_or_not

/- `type` once `LEFT` has cleared `ZEROPAD`. -/
def cleared (type : UInt32) : UInt32 :=
  if Flagged type LEFT then type &&& ~~~ZEROPAD else type

theorem cleared_flagged
    {flag : UInt32}
    (hFlag : ~~~ZEROPAD &&& flag = flag) :
    Flagged (cleared type) flag ↔ Flagged type flag := by
  unfold cleared
  split
  · unfold Flagged
    rw [UInt32.and_assoc, hFlag]
  · exact Iff.rfl

theorem cleared_zeropad :
    Flagged (cleared type) ZEROPAD ↔
      Flagged type ZEROPAD ∧ ¬ Flagged type LEFT := by
  unfold cleared
  split
  · next hLeft =>
      have hNone : ~~~ZEROPAD &&& ZEROPAD = 0 := rfl
      unfold Flagged
      rw [UInt32.and_assoc, hNone, UInt32.and_zero]
      exact ⟨fun h => absurd rfl h, fun h => absurd hLeft h.2⟩
  · next hLeft => exact (and_iff_left hLeft).symm

------------------------------------------------------------
-- Fields
------------------------------------------------------------

/- The parts of what `number` writes, in their order. -/
structure Field where
  left : Nat
  sign : List UInt8
  special : List UInt8
  zeros : Nat
  numeral : List UInt8
  right : Nat

def Field.bytes (field : Field) : List UInt8 :=
  List.replicate field.left space ++ field.sign ++
    field.special ++ List.replicate field.zeros zero ++
    field.numeral ++ List.replicate field.right space

/-
  The field of `size` more characters than its parts take,
  which are spaces or zeros.
-/
def padded
    (type : UInt32)
    (sign special tmp : List UInt8)
    (size precision : Nat) : Field where
  left :=
    if Flagged type LEFT ∨ Flagged type ZEROPAD then 0
    else size
  sign := sign
  special := special
  zeros :=
    (if Flagged type ZEROPAD ∧ ¬ Flagged type LEFT then size
      else 0) + (precision - tmp.length)
  numeral := tmp.reverse
  right := if Flagged type LEFT then size else 0

/-
  The first loop that pads takes all of the counter, and
  leaves none to the others.
-/
theorem writeField_eq
    {sign : UInt8}
    {special : List UInt8}
    {size precision : Int32}
    (hTmp : tmp.length ≤ 36)
    (hPrecision : 0 ≤ precision.toInt)
    (hSize : -2 ^ 31 + 2 < size.toInt) :
    writeField (cleared type)
        (if Flagged (cleared type) ZEROPAD then zero
          else space)
        sign special tmp size precision =
      (padded type (if sign ≠ 0 then [sign] else []) special
        tmp size.toInt.toNat precision.toInt.toNat).bytes := by
  have hLeft :
      Flagged (cleared type) LEFT ↔ Flagged type LEFT :=
    cleared_flagged rfl
  have hCount : (Int32.ofNat tmp.length).toInt = tmp.length :=
    Int32.toInt_ofNat_of_lt (by omega)
  have hZeros :
      (precision.toInt - tmp.length).toNat =
        precision.toInt.toNat - tmp.length := by
    omega
  have hCopy (str : List UInt8) :
      copyLoop tmp (Int32.ofNat tmp.length) str =
        str ++ tmp.reverse := by
    rw [copyLoop_eq _ _ _ (by omega), hCount, Int.toNat_natCast,
      List.take_length]
  have hSign (str : List UInt8) :
      (if sign ≠ 0 then str ++ [sign] else str) =
        str ++ if sign ≠ 0 then [sign] else [] := by
    split
    · rfl
    · exact (List.append_nil _).symm
  have hOnce (c d : UInt8) (str str' : List UInt8) :
      (padLoop d (padLoop c size str).1 str').2 = str' := by
    have hRest := padLoop_size c size str (by omega)
    exact padLoop_spent str' (by omega)
  have hTwice (c d e : UInt8) (str str' str'' : List UInt8) :
      (padLoop e
        (padLoop d (padLoop c size str).1 str').1
        str'').2 = str'' := by
    have hRest := padLoop_size c size str (by omega)
    have hNext :=
      padLoop_size d (padLoop c size str).1 str' (by omega)
    exact padLoop_spent str'' (by omega)
  simp only [writeField, padded, Field.bytes, flagged_or,
    cleared_zeropad, hLeft, hCopy, hSign, zeroLoop_eq,
    hCount, hZeros]
  by_cases hL : Flagged type LEFT
  · simp only [hL, padLoop_eq, not_true_eq_false, and_false,
      or_true, true_or, if_true, if_false, Nat.zero_add,
      List.replicate_zero, List.nil_append]
  · by_cases hZ : Flagged type ZEROPAD
    · simp only [hL, hZ, hOnce, padLoop_eq, not_false_eq_true,
        and_self, or_false, or_true, if_true, if_false,
        List.replicate_zero, List.nil_append,
        List.append_nil, List.replicate_add,
        List.append_assoc]
    · simp only [hL, hZ, hOnce, hTwice, padLoop_eq,
        not_false_eq_true, and_true, or_self,
        if_false, Nat.zero_add, List.replicate_zero,
        List.nil_append, List.append_nil, List.append_assoc]

theorem padded_length
    (type : UInt32)
    (sign special tmp : List UInt8)
    (size precision : Nat) :
    (padded type sign special tmp size
        precision).bytes.length =
      size + sign.length + special.length +
        max precision tmp.length := by
  unfold Field.bytes padded
  simp only [List.length_append, List.length_replicate,
    List.length_reverse]
  by_cases hL : Flagged type LEFT
  · simp only [hL, true_or, if_true, not_true_eq_false,
      and_false, if_false]
    omega
  · by_cases hZ : Flagged type ZEROPAD
    · simp only [hL, hZ, or_true, if_true,
        not_false_eq_true, and_self, if_false]
      omega
    · simp only [hL, hZ, or_self, if_false, false_and]
      omega

------------------------------------------------------------
-- What Is Selected
------------------------------------------------------------

def digitsOf (type : UInt32) : List UInt8 :=
  if Flagged type SMALL then lowerDigits else upperDigits

/- The number that the digits are of. -/
def magnitude (num : Int32) (type : UInt32) : Nat :=
  if Flagged type SIGN then num.toInt.natAbs
  else num.toUInt32.toNat

def signPart (num : Int32) (type : UInt32) : List UInt8 :=
  if Flagged type SIGN ∧ num.toInt < 0 then [minus]
  else if Flagged type PLUS then [plus]
  else if Flagged type SPACE then [space]
  else []

/- A base 16 is announced in the case of the digits. -/
def specialPart
    (base : Int32)
    (type : UInt32) : List UInt8 :=
  if Flagged type SPECIAL then
    if base = 8 then [zero]
    else if base = 16 then
      [zero, if Flagged type SMALL then 120 else 88]
    else []
  else []

namespace Field

/- The number that a field reads as. -/
def value
    (field : Field)
    (digits : List UInt8)
    (base : Nat) : Int :=
  if field.sign = [minus] then
    -(Numeral.value digits base field.numeral : Int)
  else
    Numeral.value digits base field.numeral

structure Selected
    (field : Field)
    (num base size precision : Int32)
    (type : UInt32) : Prop where
  sign_eq : field.sign = signPart num type
  special_eq : field.special = specialPart base type
  length_eq : (field.bytes.length : Int) =
    max size.toInt
      (field.sign.length + field.special.length +
        max precision.toInt field.numeral.length)
  left_aligned : Flagged type LEFT →
    field.left = 0 ∧
      field.zeros =
        (precision.toInt - field.numeral.length).toNat
  zero_padded : Flagged type ZEROPAD →
    ¬ Flagged type LEFT →
      field.left = 0 ∧ field.right = 0
  right_aligned : ¬ Flagged type ZEROPAD →
    ¬ Flagged type LEFT →
      field.right = 0 ∧
        field.zeros =
          (precision.toInt - field.numeral.length).toNat
  shortest : Numeral.Shortest (digitsOf type)
    base.toInt.toNat (magnitude num type) field.numeral
  fits : field.numeral.length ≤ 36
  value_eq :
    field.value (digitsOf type) base.toInt.toNat =
      if Flagged type SIGN then num.toInt
      else num.toUInt32.toNat

end Field

theorem digitsOf_length
    (type : UInt32) :
    (digitsOf type).length = 36 := by
  unfold digitsOf
  split <;> decide

theorem digitsOf_nodup
    (type : UInt32) :
    (digitsOf type).Nodup := by
  unfold digitsOf
  split <;> decide

/- The least number is its own negation, which has no sign. -/
theorem toNat_magnitude
    (num : Int32)
    (type : UInt32) :
    (if Flagged type SIGN ∧ num < 0 then -num
      else num).toUInt32.toNat = magnitude num type := by
  have hLow := num.le_toInt
  have hHigh := num.toInt_lt
  have hNegative : num < 0 ↔ num.toInt < 0 :=
    Int32.lt_iff_toInt_lt
  have hNat := toNat_toUInt32 num
  unfold magnitude
  simp only [hNegative]
  by_cases hSign : Flagged type SIGN
  · rw [if_pos hSign]
    by_cases hNum : num.toInt < 0
    · have hModulus : UInt32.size = 2 ^ 32 := rfl
      rw [if_pos ⟨hSign, hNum⟩]
      rw [if_pos hNum] at hNat
      rw [Int32.toUInt32_neg, UInt32.toNat_neg, hModulus]
      omega
    · rw [if_neg (fun h => hNum h.2)]
      rw [if_neg hNum] at hNat
      omega
  · rw [if_neg hSign, if_neg (fun h => hSign h.1)]

theorem signPart_eq
    (num : Int32)
    (type : UInt32) :
    (if signOf num (cleared type) ≠ 0 then
      [signOf num (cleared type)] else []) =
        signPart num type := by
  have hSign :
      Flagged (cleared type) SIGN ↔ Flagged type SIGN :=
    cleared_flagged rfl
  have hPlus :
      Flagged (cleared type) PLUS ↔ Flagged type PLUS :=
    cleared_flagged rfl
  have hSpace :
      Flagged (cleared type) SPACE ↔ Flagged type SPACE :=
    cleared_flagged rfl
  have hNegative : num < 0 ↔ num.toInt < 0 :=
    Int32.lt_iff_toInt_lt
  unfold signOf signPart
  simp only [hSign, hPlus, hSpace, hNegative]
  split
  · rfl
  · split
    · rfl
    · split
      · rfl
      · rfl

theorem signPart_minus_iff
    (num : Int32)
    (type : UInt32) :
    signPart num type = [minus] ↔
      Flagged type SIGN ∧ num.toInt < 0 := by
  unfold signPart
  by_cases hMinus : Flagged type SIGN ∧ num.toInt < 0
  · rw [if_pos hMinus]
    exact iff_of_true rfl hMinus
  · rw [if_neg hMinus]
    refine iff_of_false ?_ hMinus
    split
    · decide
    · split <;> decide

theorem value_of_magnitude
    {field : Field}
    {num : Int32}
    {base : Nat}
    (hSign : field.sign = signPart num type)
    (hValue :
      Numeral.value (digitsOf type) base field.numeral =
        magnitude num type) :
    field.value (digitsOf type) base =
      if Flagged type SIGN then num.toInt
      else num.toUInt32.toNat := by
  unfold Field.value
  simp only [hSign, hValue, signPart_minus_iff, magnitude]
  by_cases hFlag : Flagged type SIGN
  · by_cases hNum : num.toInt < 0
    · simp only [hFlag, hNum, and_self, if_true]
      omega
    · simp only [hFlag, hNum, and_false, if_true, if_false]
      omega
  · simp only [hFlag, false_and, if_false]

theorem tmp_writes
    {base : Int32}
    (num : Int32)
    (type : UInt32)
    (hBase : ¬ (base < 2 ∨ base > 36)) :
    Numeral.Writes (digitsOf type) base.toInt.toNat
      num.toUInt32.toNat
      (if num = 0 then [zero]
        else divLoop (digitsOf type) (Radix.of base hBase)
          num.toUInt32 []).reverse := by
  have hNat := toNat_base hBase
  by_cases hNum : num = 0
  · rw [if_pos hNum, hNum]
    have hZero : (digitsOf type)[0]? = some zero := by
      unfold digitsOf
      split <;> decide
    refine Numeral.Writes.last ?_ hZero
    change 0 < base.toInt.toNat
    omega
  · have hBits : num.toUInt32 ≠ 0 := by
      intro hZero
      apply hNum
      rw [← Int32.toInt32_toUInt32 num, hZero]
      rfl
    rcases divLoop_writes (Radix.of base hBase) num.toUInt32
        [] (digitsOf_length type) hBits with
      ⟨s, hLoop, hWrites⟩
    have hRadix :
        (Radix.of base hBase).base.toNat =
          base.toInt.toNat := by
      change base.toUInt32.toNat = base.toInt.toNat
      omega
    rw [if_neg hNum, hLoop, List.nil_append, ← hRadix]
    exact hWrites

theorem magnitude_cleared
    (num : Int32)
    (type : UInt32) :
    magnitude num (cleared type) = magnitude num type := by
  have hSign :
      Flagged (cleared type) SIGN ↔ Flagged type SIGN :=
    cleared_flagged rfl
  unfold magnitude
  simp only [hSign]

theorem signed_size
    {size : Int32}
    (num : Int32)
    (type : UInt32)
    (hSize : -1 ≤ size.toInt) :
    (if signOf num (cleared type) ≠ 0 then size - 1
      else size).toInt =
        size.toInt - (signPart num type).length := by
  rw [← signPart_eq]
  split
  · exact toInt_sub_one (by omega)
  · exact (Int.sub_zero _).symm

theorem signPart_length
    (num : Int32)
    (type : UInt32) :
    (signPart num type).length ≤ 1 := by
  unfold signPart
  split
  · exact Nat.le_refl 1
  · split
    · exact Nat.le_refl 1
    · split
      · exact Nat.le_refl 1
      · exact Nat.zero_le 1

theorem specialPart_length_eq
    (base : Int32)
    (type : UInt32) :
    (specialPart base type).length =
      if Flagged type SPECIAL then
        if base = 16 then 2 else if base = 8 then 1 else 0
      else 0 := by
  unfold specialPart
  by_cases hSpecial : Flagged type SPECIAL
  · rw [if_pos hSpecial, if_pos hSpecial]
    by_cases hEight : base = 8
    · subst hEight
      rfl
    · rw [if_neg hEight, if_neg hEight]
      split
      · rfl
      · rfl
  · rw [if_neg hSpecial, if_neg hSpecial]
    rfl

theorem specialPart_length
    (base : Int32)
    (type : UInt32) :
    (specialPart base type).length ≤ 2 := by
  rw [specialPart_length_eq]
  split
  · split
    · exact Nat.le_refl 2
    · split
      · exact Nat.le_succ 1
      · exact Nat.zero_le 2
  · exact Nat.zero_le 2

theorem special_size
    (base size : Int32)
    (type : UInt32)
    (hSize : -2 ≤ size.toInt) :
    (if Flagged (cleared type) SPECIAL then
      if base = 16 then size - 2
      else if base = 8 then size - 1
      else size
    else size).toInt =
      size.toInt - (specialPart base type).length := by
  have hSpecial :
      Flagged (cleared type) SPECIAL ↔
        Flagged type SPECIAL :=
    cleared_flagged rfl
  have hHigh := size.toInt_lt
  have hTwo : (2 : Int32).toInt = 2 := rfl
  rw [specialPart_length_eq]
  simp only [hSpecial]
  split
  · split
    · rw [toInt_sub (by omega) (by omega), hTwo]
      rfl
    · split
      · rw [toInt_sub_one (by omega)]
        rfl
      · exact (Int.sub_zero _).symm
  · exact (Int.sub_zero _).symm

theorem specialPart_eq
    (base : Int32)
    (type : UInt32) :
    (if Flagged (cleared type) SPECIAL then
      if base = 8 then [zero]
      else if base = 16 then [zero, (digitsOf type)[33]!]
      else []
    else []) = specialPart base type := by
  have hSpecial :
      Flagged (cleared type) SPECIAL ↔
        Flagged type SPECIAL :=
    cleared_flagged rfl
  have hDigit :
      (digitsOf type)[33]! =
        if Flagged type SMALL then 120 else 88 := by
    unfold digitsOf
    split
    · decide
    · decide
  rw [hDigit]
  unfold specialPart
  simp only [hSpecial]

theorem tmp_length
    {num : Int32}
    {base : Nat}
    (hBase : 2 ≤ base)
    (hWrites : Numeral.Writes (digitsOf type) base
      (magnitude num type) tmp.reverse) :
    tmp.length ≤ 32 := by
  have hMagnitude : magnitude num type < 2 ^ 32 := by
    rw [← magnitude_cleared, ← toNat_magnitude]
    exact UInt32.toNat_lt _
  rw [← List.length_reverse]
  exact hWrites.length_le hBase (by omega) hMagnitude

theorem max_places
    {precision : Int32}
    (hTmp : tmp.length ≤ 32) :
    (if Int32.ofNat tmp.length > precision then
      Int32.ofNat tmp.length else precision).toInt =
        max precision.toInt tmp.length := by
  have hCount : (Int32.ofNat tmp.length).toInt = tmp.length :=
    Int32.toInt_ofNat_of_lt (by omega)
  split
  · next hMore =>
      have hInt := Int32.lt_iff_toInt_lt.mp hMore
      omega
  · next hMore =>
      rw [gt_iff_lt, Int32.lt_iff_toInt_lt] at hMore
      omega

/-
  What is written, from the digits, the room that `size`
  leaves to them and the places they take.
-/
theorem number_eq
    (num base size precision : Int32)
    (type : UInt32)
    (hBase : ¬ (base < 2 ∨ base > 36))
    (hSize : -1 ≤ size.toInt) :
    ∃ (tmp : List UInt8) (room places : Int32),
      number num base size precision type =
          some (writeField (cleared type)
            (if Flagged (cleared type) ZEROPAD then zero
              else space)
            (signOf num (cleared type))
            (specialPart base type) tmp
            (room - places) places) ∧
        Numeral.Writes (digitsOf type) base.toInt.toNat
          (magnitude num type) tmp.reverse ∧
        room.toInt =
          size.toInt - (signPart num type).length -
            (specialPart base type).length ∧
        places.toInt = max precision.toInt tmp.length := by
  have hSign := signPart_length num type
  have hTwo := (toNat_base hBase).2.1
  have hWrites :=
    tmp_writes
      (if Flagged (cleared type) SIGN ∧ num < 0
        then -num else num) type hBase
  rw [toNat_magnitude, magnitude_cleared] at hWrites
  have hTmp := tmp_length (by omega) hWrites
  have hSigned := signed_size num type hSize
  have hRoom :=
    special_size base
      (if signOf num (cleared type) ≠ 0 then size - 1
        else size) type (by omega)
  rw [hSigned] at hRoom
  refine ⟨_, _, _, ?_, hWrites, hRoom, max_places hTmp⟩
  rw [← specialPart_eq]
  unfold number
  rw [dif_neg hBase]
  rfl

/- The parts of `number`, by what they have to take. -/
theorem padded_selected
    {num base size precision : Int32}
    {room places : Nat}
    (hBase : 2 ≤ base.toInt)
    (hWrites : Numeral.Writes (digitsOf type)
      base.toInt.toNat (magnitude num type) tmp.reverse)
    (hTmp : tmp.length ≤ 32)
    (hPlaces : (places : Int) =
      max precision.toInt tmp.length)
    (hRoom : room =
      (size.toInt - (signPart num type).length -
        (specialPart base type).length - places).toNat) :
    (padded type (signPart num type) (specialPart base type)
        tmp room places).Selected num base size precision
          type := by
  have hShortest :=
    hWrites.shortest (digitsOf_nodup type) (by omega)
  have hZeros (digits : Nat) (h : digits = tmp.length) :
      places - tmp.length =
        (precision.toInt - digits).toNat := by
    omega
  have hReverse : tmp.reverse.length = tmp.length :=
    List.length_reverse
  refine
    { sign_eq := rfl
      special_eq := rfl
      length_eq := ?_
      left_aligned := ?_
      zero_padded := ?_
      right_aligned := ?_
      shortest := hShortest
      fits := ?_
      value_eq := value_of_magnitude rfl hShortest.value_eq }
  · rw [padded_length]
    change
      ((room + (signPart num type).length +
          (specialPart base type).length +
          max places tmp.length : Nat) : Int) =
        max size.toInt
          ((signPart num type).length +
            (specialPart base type).length +
            max precision.toInt tmp.reverse.length)
    omega
  · intro hLeft
    refine ⟨if_pos (Or.inl hLeft), ?_⟩
    change (if _ then _ else 0) + _ = _
    rw [if_neg (fun h => h.2 hLeft), Nat.zero_add]
    exact hZeros _ hReverse
  · intro hZeropad hLeft
    exact ⟨if_pos (Or.inr hZeropad), if_neg hLeft⟩
  · intro hZeropad hLeft
    refine ⟨if_neg hLeft, ?_⟩
    change (if _ then _ else 0) + _ = _
    rw [if_neg (fun h => hZeropad h.1), Nat.zero_add]
    exact hZeros _ hReverse
  · change tmp.reverse.length ≤ 36
    omega

/-
  The parts of what is written are those that the flags
  select, and the digits read as the number.
-/
theorem number_writes
    (num base size precision : Int32)
    (type : UInt32)
    (hBase : 2 ≤ base.toInt ∧ base.toInt ≤ 36)
    (hSize : -1 ≤ size.toInt ∧ size.toInt ≤ 2 ^ 30)
    (hPrecision :
      -1 ≤ precision.toInt ∧ precision.toInt ≤ 2 ^ 30) :
    ∃ field : Field,
      number num base size precision type =
          some field.bytes ∧
        field.Selected num base size precision type := by
  have hTwo : (2 : Int32).toInt = 2 := rfl
  have hMax : (36 : Int32).toInt = 36 := rfl
  have hTaken : ¬ (base < 2 ∨ base > 36) := by
    rw [gt_iff_lt, Int32.lt_iff_toInt_lt,
      Int32.lt_iff_toInt_lt]
    omega
  rcases number_eq num base size precision type hTaken
      hSize.1 with
    ⟨tmp, room, places, hNumber, hWrites, hRoom, hPlaces⟩
  have hTmp := tmp_length (by omega) hWrites
  have hSign := signPart_length num type
  have hSpecial := specialPart_length base type
  have hRest :
      (room - places).toInt = room.toInt - places.toInt :=
    toInt_sub (by omega) (by omega)
  rw [writeField_eq (by omega) (by omega) (by omega),
    signPart_eq] at hNumber
  exact ⟨_, hNumber,
    padded_selected hBase.1 hWrites hTmp (by omega)
      (by omega)⟩

/- A case in hexadecimal. -/
theorem hexadecimal_writes :
    ∃ field : Field,
      number (-1) 16 12 (-1) (SPECIAL ||| SMALL) =
          some field.bytes ∧
        field.Selected (-1) 16 12 (-1) (SPECIAL ||| SMALL) :=
  number_writes (-1) 16 12 (-1) (SPECIAL ||| SMALL)
    (by decide) (by decide) (by decide)

end Vsprintf

end SosKernel
