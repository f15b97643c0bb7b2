import Mathlib.Data.Nat.Digits.Lemmas
import SosKernel.Elf.SymMap
import SosKernel.Vsprintf.Stars

/-
  What `vsprintf` prints.

  A format means the texts of its directives, one after the
  other.  The text of a directive is that of its argument in
  a field, and a number is written with the digits that it
  has in its base.  The scanner finds the directives and
  writes these texts.

  Main declarations:
    * `justified`, `numberText`: texts in their fields
    * `Directive.print`, `printed`: what a format means
    * `vsprintf_prints`
-/

------------------------------------------------------------
-- Texts
------------------------------------------------------------

namespace SosKernel

namespace Vsprintf

/- The strings that are known to be in memory. -/
abbrev Texts : Type := UInt32 → Option (List UInt8)

/- A string of memory, whose length is an `int`. -/
structure StringAt
    (mem : UInt32 → UInt8)
    (a : UInt32)
    (text : List UInt8) : Prop where
  name : Elf.SymMap.NameAt mem a text
  unterminated : Fs.Unterminated text
  short : text.length < 2 ^ 31

/- A text in a field of at least `width` places. -/
def justified
    (type : UInt32)
    (width : Nat)
    (text : List UInt8) : List UInt8 :=
  if Flagged type LEFT then
    text ++ List.replicate (width - text.length) space
  else
    List.replicate (width - text.length) space ++ text

/- The digits of a number, without zeros in front. -/
def numeral (type : UInt32) (base n : Nat) : List UInt8 :=
  if n = 0 then
    [zero]
  else
    (Nat.digits base n).reverse.map fun d => (digitsOf type)[d]!

/-
  A number of at least `precision` digits.  What is missing
  to the width are zeros after the sign and the prefix, if a
  flag says so, and otherwise spaces.
-/
def numberText
    (type : UInt32)
    (base : Int32)
    (width precision : Nat)
    (num : Int32) : List UInt8 :=
  let numeral :=
    numeral type base.toInt.toNat (magnitude num type)
  let digits :=
    List.replicate (precision - numeral.length) zero ++ numeral
  let announced := signPart num type ++ specialPart base type
  if Flagged type ZEROPAD ∧ ¬ Flagged type LEFT then
    announced ++
      List.replicate (width - (announced ++ digits).length)
        zero ++ digits
  else
    justified type width (announced ++ digits)

------------------------------------------------------------
-- The Meaning of a Format
------------------------------------------------------------

/- The number that decimal digits stand for. -/
def decimalValue (ds : List UInt8) : Nat :=
  ds.foldl (fun n c => n * 10 + (c.toNat - zero.toNat)) 0

/- The number that is written in the format, if any is. -/
def Amount.value : Amount → Option Nat
| .absent => none
| .digits ds => some (decimalValue ds)
| .star => none

/- The flags of a directive. -/
def Directive.type (d : Directive) : UInt32 :=
  d.flags.foldl (fun type c => type ||| (flagOf c).getD 0) 0

/- A dot without a number is the precision 0. -/
def placesOf (precision : Option Amount) : Option Nat :=
  precision.map fun amount => amount.value.getD 0

def Directive.places (d : Directive) : Option Nat :=
  placesOf d.precision

/-
  What a directive prints, and the arguments that it leaves.
  It is nothing if an argument of `%s` is no string.
-/
def Directive.print
    (texts : Texts)
    (d : Directive)
    (args : Args) : Option (List UInt8 × Args) :=
  let width := d.width.value.getD 0
  match d.conversion with
  | [] => some ([percent], args)
  | c :: _ =>
      match conversionOf c with
      | .char =>
          some (justified d.type width [(args 0).toUInt8],
            args.tail)
      | .string =>
          (texts (args 0)).map fun text =>
            (justified d.type width
              (text.take (d.places.getD text.length)),
              args.tail)
      | .pointer =>
          let type :=
            if d.width.value = none then d.type ||| ZEROPAD
            else d.type
          some
            (numberText type 16 (d.width.value.getD 8)
              (d.places.getD 0) (args 0).toInt32,
              args.tail)
      | .number base added =>
          some
            (numberText (d.type ||| added) base width
              (d.places.getD 0) (args 0).toInt32,
              args.tail)
      | .count => some ([], args.tail)
      | .other =>
          some (if c = percent then [percent] else [percent, c],
            args)

/- What the pieces of a format print. -/
def printed
    (texts : Texts) : List Piece → Args → Option (List UInt8)
| [], _ => some []
| .char c :: ps, args =>
    (printed texts ps args).map fun out => c :: out
| .directive d :: ps, args =>
    (d.print texts args).bind fun text =>
      (printed texts ps text.2).map fun out => text.1 ++ out

/-
  No number is taken from an argument, and none is too large
  for the counters of the loops.
-/
structure Directive.Moderate (d : Directive) : Prop where
  notStarred : ¬ d.Starred
  width : ∀ n, d.width.value = some n → n ≤ 2 ^ 30
  places : ∀ n, d.places = some n → n ≤ 2 ^ 30

def Moderate (ps : List Piece) : Prop :=
  ∀ d, .directive d ∈ ps → d.Moderate

/- No directive stores a count. -/
def Directive.Quiet (d : Directive) : Prop :=
  ∀ c, d.conversion = [c] → conversionOf c ≠ .count

def Quiet (ps : List Piece) : Prop :=
  ∀ d, .directive d ∈ ps → d.Quiet

/- Nothing but bytes is stored. -/
def State.BytesOnly (s : State) : Prop :=
  ∀ store ∈ s.stores, ∃ a c, store = .byte a c

instance (d : Directive) : Decidable d.Starred :=
  inferInstanceAs (Decidable (_ ∨ _))

theorem Directive.moderate_of
    {d : Directive}
    (hStarred : ¬ d.Starred)
    (hWidth : d.width.value.getD 0 ≤ 2 ^ 30)
    (hPlaces : d.places.getD 0 ≤ 2 ^ 30) :
    d.Moderate where
  notStarred := hStarred
  width := by
    intro n hn
    rw [hn] at hWidth
    exact hWidth
  places := by
    intro n hn
    rw [hn] at hPlaces
    exact hPlaces

theorem Directive.quiet_of
    {d : Directive}
    {c : UInt8}
    (hConversion : d.conversion = [c])
    (hNot : conversionOf c ≠ .count) :
    d.Quiet := by
  intro e he
  rw [hConversion] at he
  cases he
  exact hNot

------------------------------------------------------------
-- Reading a String
------------------------------------------------------------

variable {mem : UInt32 → UInt8}
variable {a : UInt32}
variable {text : List UInt8}

theorem add_ofNat_zero (a : UInt32) :
    a + UInt32.ofNat 0 = a :=
  UInt32.add_zero a

theorem add_ofNat_succ (a : UInt32) (k : Nat) :
    a + UInt32.ofNat (k + 1) = a + 1 + UInt32.ofNat k := by
  rw [UInt32.ofNat_add, UInt32.add_assoc, UInt32.add_comm 1]
  rfl

theorem endLoop_of_name
    {bound : Nat}
    (hName : Elf.SymMap.NameAt mem a text)
    (hText : Fs.Unterminated text)
    (hBound : text.length < bound) :
    endLoop mem bound a =
      some (a + UInt32.ofNat text.length) := by
  induction text generalizing a bound with
  | nil =>
      rcases bound with _ | bound
      · omega
      · have hZero : mem a = 0 := hName
        rw [endLoop, if_neg (not_not.mpr hZero)]
        exact congrArg some (add_ofNat_zero a).symm
  | cons c text ih =>
      rcases bound with _ | bound
      · omega
      · have hByte : mem a ≠ 0 := by
          rw [hName.1]
          exact hText c List.mem_cons_self
        have hRest : Fs.Unterminated text :=
          fun d hd => hText d (List.mem_cons_of_mem c hd)
        rw [List.length_cons] at hBound
        rw [endLoop, if_pos hByte,
          ih hName.2 hRest (by omega), List.length_cons,
          add_ofNat_succ]

theorem StringAt.strlen_eq
    (hString : StringAt mem a text) :
    strlen mem a = some (Int32.ofNat text.length) := by
  have hShort := hString.short
  unfold strlen
  rw [endLoop_of_name hString.name hString.unterminated
    (by omega), Option.map_some, toInt32_ofNat_sub]

theorem getElem_of_name
    (hName : Elf.SymMap.NameAt mem a text)
    {k : Nat}
    (hk : k < text.length) :
    mem (a + UInt32.ofNat k) = text[k] := by
  induction text generalizing a k with
  | nil => cases hk
  | cons c text ih =>
      rcases k with _ | k
      · rw [add_ofNat_zero]
        exact hName.1
      · rw [add_ofNat_succ]
        exact ih hName.2 (Nat.lt_of_succ_lt_succ hk)

/- The first bytes of a string. -/
theorem bytes_of_name
    (hName : Elf.SymMap.NameAt mem a text)
    {n : Nat}
    (hn : n ≤ text.length) :
    ((List.range n).map fun k => mem (a + UInt32.ofNat k)) =
      text.take n := by
  apply List.ext_getElem
  · rw [List.length_map, List.length_range, List.length_take]
    omega
  · intro k hk _
    rw [List.length_map, List.length_range] at hk
    rw [List.getElem_map, List.getElem_range,
      List.getElem_take]
    exact getElem_of_name hName (by omega)

------------------------------------------------------------
-- Characters and Strings in Fields
------------------------------------------------------------

theorem widthLoop_eq
    (size : Int32)
    (str : List UInt8)
    (hSize : -2 ^ 31 < size.toInt) :
    (widthLoop size str).1.toInt = min (size.toInt - 1) 0 ∧
      (widthLoop size str).2 =
        str ++ List.replicate (size.toInt - 1).toNat space := by
  induction size, str using widthLoop.induct with
  | case1 size str hPos ih =>
      have hOne := toInt_sub_one hSize
      have hInt : 0 < (size - 1).toInt := zero_lt_iff.mp hPos
      have hCount :
          (size.toInt - 1).toNat =
            (size.toInt - 1 - 1).toNat + 1 := by
        omega
      rcases ih (by omega) with ⟨hLeft, hText⟩
      rw [widthLoop, if_pos hPos, hLeft, hText, hOne, hCount,
        List.replicate_succ, List.append_assoc]
      exact ⟨by omega, rfl⟩
  | case2 size str hPos =>
      have hOne := toInt_sub_one hSize
      have hInt : ¬ 0 < (size - 1).toInt :=
        fun h => hPos (zero_lt_iff.mpr h)
      have hCount : (size.toInt - 1).toNat = 0 := by omega
      rw [widthLoop, if_neg hPos, hOne, hCount,
        List.replicate_zero, List.append_nil]
      exact ⟨by omega, rfl⟩

theorem fillLoop_eq
    (len size : Int32)
    (str : List UInt8)
    (hSize : -2 ^ 31 < size.toInt)
    (hLen : 0 ≤ len.toInt) :
    (fillLoop len size str).1.toInt =
        min size.toInt len.toInt - 1 ∧
      (fillLoop len size str).2 =
        str ++ List.replicate
          (size.toInt - len.toInt).toNat space := by
  induction size, str using fillLoop.induct len with
  | case1 size str hMore ih =>
      have hInt : len.toInt < size.toInt :=
        Int32.lt_iff_toInt_lt.mp hMore
      have hOne := toInt_sub_one hSize
      have hCount :
          (size.toInt - len.toInt).toNat =
            (size.toInt - 1 - len.toInt).toNat + 1 := by
        omega
      rcases ih (by omega) with ⟨hLeft, hText⟩
      rw [fillLoop, if_pos hMore, hLeft, hText, hOne, hCount,
        List.replicate_succ, List.append_assoc]
      exact ⟨by omega, rfl⟩
  | case2 size str hMore =>
      have hInt : ¬ len.toInt < size.toInt :=
        fun h => hMore (Int32.lt_iff_toInt_lt.mpr h)
      have hOne := toInt_sub_one hSize
      have hCount : (size.toInt - len.toInt).toNat = 0 := by
        omega
      rw [fillLoop, if_neg hMore, hOne, hCount,
        List.replicate_zero, List.append_nil]
      exact ⟨by omega, rfl⟩

theorem textLoop_eq
    (mem : UInt32 → UInt8)
    (len i : Int32)
    (s : UInt32)
    (str : List UInt8) :
    textLoop mem len i s str =
      str ++ (List.range (len.toInt - i.toInt).toNat).map
        fun k => mem (s + UInt32.ofNat k) := by
  induction i, s, str using textLoop.induct mem len with
  | case1 i s str hMore ih =>
      have hInt : i.toInt < len.toInt :=
        Int32.lt_iff_toInt_lt.mp hMore
      have hLow := i.le_toInt
      have hHigh := len.toInt_lt
      have hOne : (1 : Int32).toInt = 1 := rfl
      have hNext : (i + 1).toInt = i.toInt + 1 := by
        rw [Int32.toInt_add, hOne, Int.bmod_eq_of_le]
        all_goals omega
      have hCount :
          (len.toInt - i.toInt).toNat =
            (len.toInt - (i.toInt + 1)).toNat + 1 := by
        omega
      rw [textLoop, if_pos hMore, ih, hNext, hCount,
        List.range_succ_eq_map, List.map_cons, List.map_map,
        List.append_assoc, add_ofNat_zero]
      congr 1
      refine congrArg (mem s :: ·) ?_
      apply List.map_congr_left
      intro k _
      exact congrArg mem (add_ofNat_succ s k).symm
  | case2 i s str hMore =>
      have hInt : ¬ i.toInt < len.toInt :=
        fun h => hMore (Int32.lt_iff_toInt_lt.mpr h)
      have hCount : (len.toInt - i.toInt).toNat = 0 := by
        omega
      rw [textLoop, if_neg hMore, hCount]
      exact (List.append_nil str).symm

/- A number of the format as the scanner returns it. -/
def asInt : Option Nat → Int32
| none => -1
| some n => Int32.ofNat n

theorem toInt_asInt
    {amount : Option Nat}
    (hSmall : ∀ n, amount = some n → n ≤ 2 ^ 30) :
    (asInt amount).toInt =
      amount.elim (-1) fun n => (n : Int) := by
  cases amount with
  | none => rfl
  | some n =>
      have hn := hSmall n rfl
      exact Int32.toInt_ofNat_of_lt (by omega)

theorem toInt_asInt_getD
    {amount : Option Nat}
    (hSmall : ∀ n, amount = some n → n ≤ 2 ^ 30) :
    -1 ≤ (asInt amount).toInt ∧
      (asInt amount).toInt ≤ 2 ^ 30 ∧
        (asInt amount).toInt.toNat = amount.getD 0 := by
  have hInt := toInt_asInt hSmall
  cases amount with
  | none => exact ⟨by decide, by decide, rfl⟩
  | some n =>
      have hn := hSmall n rfl
      change _ = (n : Int) at hInt
      change _ ∧ _ ∧ _ = n
      omega

variable {type : UInt32}
variable {width places : Option Nat}

theorem charField_eq
    (c : UInt8)
    (hWidth : ∀ n, width = some n → n ≤ 2 ^ 30) :
    charField type (asInt width) c =
      justified type (width.getD 0) [c] := by
  rcases toInt_asInt_getD hWidth with ⟨hLow, hHigh, hNat⟩
  have hFirst := widthLoop_eq (asInt width) [] (by omega)
  have hCount :
      ((asInt width).toInt - 1).toNat =
        width.getD 0 - [c].length := by
    rw [List.length_singleton]
    omega
  by_cases hLeft : Flagged type LEFT
  · have hNext :=
      widthLoop_eq (asInt width) ([] ++ [c]) (by omega)
    simp only [charField, justified, if_pos hLeft]
    rw [← hCount]
    exact hNext.2
  · have hNext :=
      widthLoop_eq (widthLoop (asInt width) []).1
        ((widthLoop (asInt width) []).2 ++ [c]) (by omega)
    have hNone :
        ((widthLoop (asInt width) []).1.toInt - 1).toNat =
          0 := by
      omega
    simp only [charField, justified, if_neg hLeft]
    rw [hNext.2, hNone, hFirst.2, hCount, List.replicate_zero,
      List.append_nil, List.nil_append]

theorem stringField_eq
    (hString : StringAt mem a text)
    (hWidth : ∀ n, width = some n → n ≤ 2 ^ 30)
    (hPlaces : ∀ n, places = some n → n ≤ 2 ^ 30) :
    stringField mem a type (asInt width) (asInt places)
        (Int32.ofNat text.length) =
      justified type (width.getD 0)
        (text.take (places.getD text.length)) := by
  have hShort := hString.short
  have hLength :
      (Int32.ofNat text.length).toInt = text.length :=
    Int32.toInt_ofNat_of_lt hShort
  rcases toInt_asInt_getD hWidth with ⟨hLow, hHigh, hNat⟩
  have hZero : (0 : Int32).toInt = 0 := rfl
  -- the length that is left by the precision
  have hCut :
      (if asInt places < 0 then Int32.ofNat text.length
        else if Int32.ofNat text.length > asInt places
          then asInt places
        else Int32.ofNat text.length).toInt =
        (text.take (places.getD text.length)).length := by
    have hPrecision := toInt_asInt hPlaces
    rw [List.length_take]
    cases places with
    | none =>
        rw [if_pos (show asInt none < 0 by decide), hLength,
          Option.getD_none, Nat.min_self]
    | some n =>
        change _ = (n : Int) at hPrecision
        rw [Option.getD_some]
        split
        · next hNeg =>
            rw [Int32.lt_iff_toInt_lt] at hNeg
            omega
        · split
          · next hMore =>
              rw [gt_iff_lt, Int32.lt_iff_toInt_lt] at hMore
              omega
          · next hMore =>
              rw [gt_iff_lt, Int32.lt_iff_toInt_lt] at hMore
              omega
  unfold stringField justified
  generalize hLen :
    (if asInt places < 0 then Int32.ofNat text.length
      else if Int32.ofNat text.length > asInt places
        then asInt places
      else Int32.ofNat text.length) = len at hCut ⊢
  have hTake :
      (text.take (places.getD text.length)).length ≤
        text.length :=
    List.length_take_le' _ _
  have hBytes (str : List UInt8) :
      textLoop mem len 0 a str =
        str ++ text.take (places.getD text.length) := by
    have hCount :
        (len.toInt - (0 : Int32).toInt).toNat =
          (text.take (places.getD text.length)).length := by
      omega
    have hSame :
        text.take (text.take
            (places.getD text.length)).length =
          text.take (places.getD text.length) := by
      rw [List.length_take, ← List.take_eq_take_min]
    rw [textLoop_eq, hCount, bytes_of_name hString.name hTake,
      hSame]
  have hPad :
      ((asInt width).toInt - len.toInt).toNat =
        width.getD 0 -
          (text.take (places.getD text.length)).length := by
    omega
  have hFirst := fillLoop_eq len (asInt width) [] (by omega)
    (by omega)
  by_cases hLeft : Flagged type LEFT
  · have hNext := fillLoop_eq len (asInt width)
      (text.take (places.getD text.length)) (by omega)
      (by omega)
    simp only [if_pos hLeft]
    rw [hBytes, List.nil_append, hNext.2, hPad]
  · have hNext := fillLoop_eq len
      (fillLoop len (asInt width) []).1
      ((fillLoop len (asInt width) []).2 ++
        text.take (places.getD text.length)) (by omega)
      (by omega)
    have hNone :
        ((fillLoop len (asInt width) []).1.toInt -
          len.toInt).toNat = 0 := by
      omega
    simp only [if_neg hLeft]
    rw [hBytes, hNext.2, hNone, hFirst.2, hPad,
      List.replicate_zero, List.append_nil, List.nil_append]

------------------------------------------------------------
-- Numbers in Fields
------------------------------------------------------------

theorem numeral_of_writes
    {base n : Nat}
    {s : List UInt8}
    (hBase : 1 < base)
    (hWrites : Numeral.Writes (digitsOf type) base n s) :
    s = numeral type base n := by
  unfold numeral
  split
  · next hZero =>
      subst hZero
      have hFirst : (digitsOf type)[0]? = some zero := by
        unfold digitsOf
        split <;> decide
      cases hWrites with
      | last hLt hc =>
          rw [hFirst] at hc
          rw [Option.some_inj.mp hc]
      | more hLe => omega
  · next hNe => exact hWrites.eq_map_digits hBase hNe

theorem length_numeral
    {base n k : Nat}
    (hBase : 1 < base)
    (hk : 0 < k)
    (hn : n < base ^ k) :
    (numeral type base n).length ≤ k := by
  unfold numeral
  split
  · exact hk
  · rw [List.length_map, List.length_reverse,
      Nat.digits_length_le_iff hBase]
    exact hn

/- A numeral is a string. -/
theorem unterminated_numeral
    {base : Nat}
    (n : Nat)
    (hBase : 1 < base)
    (hMax : base ≤ 36) :
    Fs.Unterminated (numeral type base n) := by
  have hAll : (digitsOf type).all (· ≠ 0) = true := by
    unfold digitsOf
    split <;> rfl
  have hDigits : ∀ c ∈ digitsOf type, c ≠ 0 :=
    fun c hc => of_decide_eq_true (List.all_eq_true.mp hAll c hc)
  intro c hc
  unfold numeral at hc
  split at hc
  · rw [List.mem_singleton.mp hc]
    decide
  · rcases List.mem_map.mp hc with ⟨d, hd, rfl⟩
    have hLt :=
      Nat.digits_lt_base hBase (List.mem_reverse.mp hd)
    have hLength := digitsOf_length type
    rw [getElem!_pos _ d (by omega)]
    exact hDigits _ (List.getElem_mem _)

theorem padded_eq_numberText
    {base num : Int32}
    {width precision room places : Nat}
    {tmp : List UInt8}
    (hTmp : tmp.reverse =
      numeral type base.toInt.toNat (magnitude num type))
    (hPlaces : places = max precision tmp.length)
    (hRoom : room =
      width - (signPart num type).length -
        (specialPart base type).length - places) :
    (padded type (signPart num type) (specialPart base type)
        tmp room places).bytes =
      numberText type base width precision num := by
  have hLength : tmp.length =
      (numeral type base.toInt.toNat
        (magnitude num type)).length := by
    rw [← hTmp, List.length_reverse]
  unfold numberText justified padded Field.bytes
  rw [hTmp, hLength]
  generalize numeral type base.toInt.toNat
    (magnitude num type) = digits at *
  have hZeros : places - digits.length =
      precision - digits.length := by
    omega
  have hFill (sign special : List UInt8)
      (hFill : room =
        width - sign.length - special.length - places) :
      room = width -
        (sign ++ special ++
          (List.replicate (precision - digits.length) zero ++
            digits)).length := by
    simp only [List.length_append, List.length_replicate]
    omega
  have hRoom' := hFill _ _ hRoom
  rw [hZeros]
  by_cases hLeft : Flagged type LEFT
  · simp only [hLeft, true_or, not_true_eq_false, and_false,
      if_true, if_false, List.replicate_zero,
      List.nil_append, Nat.zero_add]
    rw [← hRoom']
    simp only [List.append_assoc]
  · by_cases hZero : Flagged type ZEROPAD
    · simp only [hLeft, hZero, or_true, not_false_eq_true,
        and_self, if_true, if_false, List.replicate_zero,
        List.nil_append, List.append_nil]
      rw [← hRoom', List.replicate_add]
      simp only [List.append_assoc]
    · simp only [hLeft, hZero, or_self, false_and, if_false,
        List.replicate_zero, List.append_nil, Nat.zero_add]
      rw [← hRoom']
      simp only [List.append_assoc]

theorem number_eq_numberText
    {base : Int32}
    (num : Int32)
    (type : UInt32)
    (hBase : ¬ (base < 2 ∨ base > 36))
    (hWidth : ∀ n, width = some n → n ≤ 2 ^ 30)
    (hPlaces : ∀ n, places = some n → n ≤ 2 ^ 30) :
    number num base (asInt width) (asInt places) type =
      some
        (numberText type base (width.getD 0)
          (places.getD 0) num) := by
  rcases toInt_asInt_getD hWidth with ⟨hLow, hHigh, hNat⟩
  rcases toInt_asInt_getD hPlaces with ⟨hLow', hHigh', hNat'⟩
  have hTwo := (toNat_base hBase).2.1
  rcases number_eq num base (asInt width) (asInt places) type
      hBase hLow with
    ⟨tmp, room, precision, hNumber, hWrites, hRoom, hMax⟩
  have hTmp := tmp_length (by omega) hWrites
  have hSign := signPart_length num type
  have hSpecial := specialPart_length base type
  have hRest :
      (room - precision).toInt =
        room.toInt - precision.toInt :=
    toInt_sub (by omega) (by omega)
  rw [writeField_eq (by omega) (by omega) (by omega),
    signPart_eq] at hNumber
  rw [hNumber]
  congr 1
  apply padded_eq_numberText
    (numeral_of_writes (by omega) hWrites)
  · omega
  · omega

------------------------------------------------------------
-- Reading the Format
------------------------------------------------------------

variable {call : Call}
variable {s : State}
variable {cs : List UInt8}
variable {c : UInt8}
variable {bound : Nat}

/- The state with the rest `cs` of the format to read. -/
def State.before (s : State) (call : Call) (cs : List UInt8) :
    State :=
  { s with fmt := call.fmt.chars.length - cs.length }

theorem run_peek_before
    (hSuffix : cs <:+ call.fmt.chars) :
    (peek call).run (s.before call cs) =
      .ok (cs.headD 0) (s.before call cs) := by
  have hLe : (s.before call cs).fmt ≤ call.fmt.chars.length :=
    Nat.sub_le _ _
  have hFmt :
      (s.before call cs).fmt =
        call.fmt.chars.length - cs.length := rfl
  rw [run_peek hLe, hFmt]
  congr 1
  unfold charAt
  rcases hSuffix with ⟨front, hChars⟩
  have hLength := congrArg List.length hChars
  rw [List.length_append] at hLength
  cases cs with
  | nil =>
      rw [if_neg (by simp)]
      rfl
  | cons c cs =>
      rw [List.length_cons] at hLength
      have hIndex :
          call.fmt.chars.length - (c :: cs).length =
            front.length := by
        rw [List.length_cons]
        omega
      rw [hIndex, if_pos (by omega), ← hChars,
        getElem!_pos _ _ (by simp)]
      simp

theorem run_advance_before
    (hSuffix : c :: cs <:+ call.fmt.chars) :
    advance.run (s.before call (c :: cs)) =
      .ok () (s.before call cs) := by
  have hLe := hSuffix.length_le
  rw [List.length_cons] at hLe
  have hFmt :
      call.fmt.chars.length - (cs.length + 1) + 1 =
        call.fmt.chars.length - cs.length := by
    omega
  exact congrArg
    (fun n => EStateM.Result.ok () { s with fmt := n }) hFmt

/- The value of the digits read after `n`. -/
theorem ofNat_digit
    (n : Nat)
    (hDigit : isDigit c = true) :
    Int32.ofNat n * 10 + Int32.ofNat c.toNat -
        Int32.ofNat zero.toNat =
      Int32.ofNat (n * 10 + (c.toNat - zero.toNat)) := by
  have hLow : zero.toNat ≤ c.toNat := by
    have hBoth := of_decide_eq_true hDigit
    exact UInt8.le_iff_toNat_le.mp hBoth.1
  have hSum : n * 10 + c.toNat =
      n * 10 + (c.toNat - zero.toNat) + zero.toNat := by
    omega
  have hTen : Int32.ofNat 10 = 10 := rfl
  rw [← hTen, ← Int32.ofNat_mul, ← Int32.ofNat_add, hSum,
    Int32.ofNat_add, Int32.add_sub_cancel]

theorem run_skipAtoi
    (n : Nat)
    (hSuffix : cs <:+ call.fmt.chars)
    (hBound : cs.length < bound) :
    (skipAtoi call bound (Int32.ofNat n)).run
        (s.before call cs) =
      .ok
        (Int32.ofNat
          ((cs.takeWhile isDigit).foldl
            (fun n c => n * 10 + (c.toNat - zero.toNat)) n))
        (s.before call (cs.dropWhile isDigit)) := by
  induction cs generalizing bound n with
  | nil =>
      rcases bound with _ | bound
      · omega
      · rw [skipAtoi,
          EStateM.bind_of_ok (run_peek_before hSuffix)]
        rfl
  | cons c cs ih =>
      rcases bound with _ | bound
      · omega
      · have hRest : cs <:+ call.fmt.chars :=
          (List.suffix_cons c cs).trans hSuffix
        rw [List.length_cons] at hBound
        rw [skipAtoi,
          EStateM.bind_of_ok (run_peek_before hSuffix)]
        by_cases hDigit : isDigit c = true
        · have hMore := @ih bound
            (n * 10 + (c.toNat - zero.toNat)) hRest (by omega)
          rw [← ofNat_digit n hDigit] at hMore
          rw [List.takeWhile_cons_of_pos hDigit,
            List.dropWhile_cons_of_pos hDigit, List.foldl_cons,
            ← hMore]
          simp only [List.headD_cons, hDigit, if_true]
          rw [EStateM.bind_of_ok (run_advance_before hSuffix)]
        · rw [List.takeWhile_cons_of_neg hDigit,
            List.dropWhile_cons_of_neg hDigit]
          simp only [List.headD_cons, hDigit]
          rfl

theorem run_processFlags
    (flags : UInt32)
    (hSuffix : c :: cs <:+ call.fmt.chars)
    (hBound : cs.length < bound) :
    (processFlags call bound flags).run
        (s.before call (c :: cs)) =
      .ok
        ((cs.takeWhile isFlag).foldl
          (fun type c => type ||| (flagOf c).getD 0) flags)
        (s.before call (cs.dropWhile isFlag)) := by
  induction cs generalizing c bound flags with
  | nil =>
      rcases bound with _ | bound
      · omega
      · have hRest : [] <:+ call.fmt.chars :=
          List.nil_suffix
        rw [processFlags,
          EStateM.bind_of_ok (run_advance_before hSuffix),
          EStateM.bind_of_ok (run_peek_before hRest)]
        rfl
  | cons d cs ih =>
      rcases bound with _ | bound
      · omega
      · have hRest : d :: cs <:+ call.fmt.chars :=
          (List.suffix_cons c (d :: cs)).trans hSuffix
        rw [List.length_cons] at hBound
        rw [processFlags,
          EStateM.bind_of_ok (run_advance_before hSuffix),
          EStateM.bind_of_ok (run_peek_before hRest)]
        cases hFlag : flagOf d with
        | some flag =>
            have hIs : isFlag d = true := by
              unfold isFlag
              rw [hFlag]
              rfl
            have hMore :=
              @ih d bound (flags ||| flag) hRest (by omega)
            rw [List.takeWhile_cons_of_pos hIs,
              List.dropWhile_cons_of_pos hIs, List.foldl_cons,
              hFlag, Option.getD_some, ← hMore]
            simp only [List.headD_cons, hFlag]
        | none =>
            have hNot : ¬ isFlag d = true := by
              unfold isFlag
              rw [hFlag]
              decide
            rw [List.takeWhile_cons_of_neg hNot,
              List.dropWhile_cons_of_neg hNot, List.headD_cons,
              hFlag]
            rfl

/- A number of the format, if there is one. -/
theorem readAmount_cons_digit
    (hDigit : isDigit c = true) :
    readAmount (c :: cs) =
      (.digits ((c :: cs).takeWhile isDigit),
        (c :: cs).dropWhile isDigit) := by
  rw [readAmount, if_pos hDigit]

theorem run_getFieldWidth
    (flags : UInt32)
    (hSuffix : cs <:+ call.fmt.chars)
    (hBound : cs.length < bound)
    (hStar : (readAmount cs).1 ≠ .star) :
    (getFieldWidth call bound flags).run (s.before call cs) =
      .ok (asInt (readAmount cs).1.value, flags)
        (s.before call (readAmount cs).2) := by
  rw [getFieldWidth,
    EStateM.bind_of_ok (run_peek_before hSuffix)]
  cases cs with
  | nil => rfl
  | cons c cs =>
      rw [List.headD_cons]
      by_cases hDigit : isDigit c = true
      · have hRun := @run_skipAtoi call s _ _ 0 hSuffix hBound
        rw [if_pos hDigit, readAmount_cons_digit hDigit]
        exact EStateM.bind_of_ok hRun
      · rw [readAmount, if_neg hDigit] at hStar ⊢
        rw [if_neg hDigit]
        split at hStar
        · exact absurd rfl hStar
        · next hc =>
            rw [if_neg hc, if_neg hc]
            rfl

theorem run_precisionAfterDot
    (hSuffix : cs <:+ call.fmt.chars)
    (hBound : cs.length < bound)
    (hStar : (readAmount cs).1 ≠ .star) :
    (precisionAfterDot call bound).run (s.before call cs) =
      .ok (asInt (readAmount cs).1.value)
        (s.before call (readAmount cs).2) := by
  rw [precisionAfterDot,
    EStateM.bind_of_ok (run_peek_before hSuffix)]
  cases cs with
  | nil => rfl
  | cons c cs =>
      rw [List.headD_cons]
      by_cases hDigit : isDigit c = true
      · have hRun := @run_skipAtoi call s _ _ 0 hSuffix hBound
        rw [if_pos hDigit, readAmount_cons_digit hDigit]
        exact hRun
      · rw [readAmount, if_neg hDigit] at hStar ⊢
        rw [if_neg hDigit]
        split at hStar
        · exact absurd rfl hStar
        · next hc =>
            rw [if_neg hc, if_neg hc]
            rfl

theorem run_getPrecision
    (hSuffix : cs <:+ call.fmt.chars)
    (hBound : cs.length < bound)
    (hStar : (readPrecision cs).1 ≠ some .star)
    (hPlaces :
      ∀ n, placesOf (readPrecision cs).1 = some n → n ≤ 2 ^ 30) :
    (getPrecision call bound).run (s.before call cs) =
      .ok (asInt (placesOf (readPrecision cs).1))
        (s.before call (readPrecision cs).2) := by
  rw [getPrecision,
    EStateM.bind_of_ok (run_peek_before hSuffix)]
  cases cs with
  | nil => rfl
  | cons c cs =>
      rw [List.headD_cons]
      by_cases hDot : c = dot
      · rw [readPrecision, if_pos hDot] at hStar hPlaces ⊢
        have hRest : cs <:+ call.fmt.chars :=
          (List.suffix_cons c cs).trans hSuffix
        have hAmount : (readAmount cs).1 ≠ .star :=
          fun h => hStar (congrArg some h)
        rw [List.length_cons] at hBound
        rw [if_pos hDot,
          EStateM.bind_of_ok (run_advance_before hSuffix),
          EStateM.bind_of_ok
            (run_precisionAfterDot hRest
              (by omega : cs.length < bound) hAmount)]
        have hInt := toInt_asInt hPlaces
        have hResult :
            (if asInt (readAmount cs).1.value < 0 then 0
              else asInt (readAmount cs).1.value) =
              asInt (placesOf (some (readAmount cs).1)) := by
          cases hValue : (readAmount cs).1.value with
          | none =>
              unfold placesOf
              rw [Option.map_some, hValue]
              rfl
          | some n =>
              have hSame :
                  placesOf (some (readAmount cs).1) = some n := by
                unfold placesOf
                rw [Option.map_some, hValue, Option.getD_some]
              rw [hSame] at hInt ⊢
              have hNot : ¬ asInt (some n) < 0 := by
                rw [Int32.lt_iff_toInt_lt, hInt]
                exact Int.not_lt.mpr (Int.natCast_nonneg n)
              exact if_neg hNot
        exact congrArg
          (fun p => EStateM.Result.ok p
            (s.before call (readAmount cs).2)) hResult
      · rw [readPrecision, if_neg hDot, if_neg hDot]
        rfl

theorem run_getQualifier
    (hSuffix : cs <:+ call.fmt.chars) :
    (getQualifier call).run (s.before call cs) =
      .ok () (s.before call (readQualifier cs).2) := by
  rw [getQualifier,
    EStateM.bind_of_ok (run_peek_before hSuffix)]
  cases cs with
  | nil => rfl
  | cons c cs =>
      rw [List.headD_cons, readQualifier]
      by_cases hc : c = letter 'h' ∨ c = letter 'l' ∨
          c = letter 'L'
      · have hIs : isQualifier c = true := decide_eq_true hc
        rw [if_pos hc, if_pos hIs]
        exact run_advance_before hSuffix
      · have hNot : ¬ isQualifier c = true :=
          fun h => hc (of_decide_eq_true h)
        rw [if_neg hc, if_neg hNot]
        rfl

------------------------------------------------------------
-- Writing the Texts
------------------------------------------------------------

/- The arguments from the `n`th on. -/
def Call.argsFrom (call : Call) (n : Nat) : Args :=
  fun i => call.args (n + i)

theorem Call.tail_argsFrom (n : Nat) :
    (call.argsFrom n).tail = call.argsFrom (n + 1) := by
  funext i
  change call.args (n + (i + 1)) = call.args (n + 1 + i)
  congr 1
  omega

/-
  From `s` to `s'` the text of a directive was put.  After
  `++fmt` the rest `cs` is to be read, and `args` are left.
-/
structure Put
    (call : Call)
    (quiet : Prop)
    (s s' : State)
    (cs text : List UInt8)
    (args : Args) : Prop where
  wrote : Wrote s s' text
  fmt_eq : s'.fmt + 1 = call.fmt.chars.length - cs.length
  args_eq : call.argsFrom s'.arg = args
  bytesOnly : quiet → s.BytesOnly → s'.BytesOnly

variable {quiet : Prop}

theorem State.BytesOnly.afterPut
    (hOnly : s.BytesOnly)
    (c : UInt8) :
    (s.afterPut c).BytesOnly := by
  intro store hStore
  rcases List.mem_append.mp hStore with h | h
  · exact hOnly store h
  · exact ⟨s.str, c, List.mem_singleton.mp h⟩

theorem puts_put
    (text : List UInt8)
    (hSuffix : c :: cs <:+ call.fmt.chars)
    (hFmt : s.fmt =
      call.fmt.chars.length - (c :: cs).length) :
    ∃ s', (puts text).run s = .ok () s' ∧
      Put call quiet s s' cs text (call.argsFrom s.arg) := by
  have hLe := hSuffix.length_le
  rw [List.length_cons] at hLe hFmt
  rcases run_puts text s with ⟨s', hRun, hWrote, hFmt'⟩
  have hOther :
      s'.arg = s.arg ∧ (s.BytesOnly → s'.BytesOnly) := by
    clear hWrote hFmt' hFmt
    induction text generalizing s with
    | nil =>
        cases hRun
        exact ⟨rfl, fun hOnly => hOnly⟩
    | cons d text ih =>
        rw [puts, EStateM.bind_of_ok (run_put d s)] at hRun
        rcases ih (s := s.afterPut d) hRun with
          ⟨hArg, hBytes⟩
        exact ⟨hArg, fun hOnly => hBytes (hOnly.afterPut d)⟩
  exact ⟨s', hRun, hWrote, by omega, by rw [hOther.1],
    fun _ => hOther.2⟩

/- A program that takes an argument and puts its text. -/
theorem put_vaArg_bind
    {f : UInt32 → PrintM Unit}
    {text : List UInt8}
    (hf : ∃ s',
      (f (call.args s.arg)).run s.taken = .ok () s' ∧
        Put call quiet s.taken s' cs text
          (call.argsFrom (s.arg + 1))) :
    ∃ s', (vaArg call >>= f).run s = .ok () s' ∧
      Put call quiet s s' cs text
        (call.argsFrom s.arg).tail := by
  rcases hf with ⟨s', hRun, hPut⟩
  refine ⟨s', ?_, ⟨hPut.wrote.str_eq, hPut.wrote.bytes_eq⟩,
    hPut.fmt_eq, ?_, hPut.bytesOnly⟩
  · rw [EStateM.bind_of_ok (run_vaArg call s)]
    exact hRun
  · rw [Call.tail_argsFrom]
    exact hPut.args_eq

theorem putNumber_put
    {base : Int32}
    (num : Int32)
    (type : UInt32)
    (hSuffix : c :: cs <:+ call.fmt.chars)
    (hFmt : s.fmt =
      call.fmt.chars.length - (c :: cs).length)
    (hBase : ¬ (base < 2 ∨ base > 36))
    (hWidth : ∀ n, width = some n → n ≤ 2 ^ 30)
    (hPlaces : ∀ n, places = some n → n ≤ 2 ^ 30) :
    ∃ s',
      (putNumber num base (asInt width) (asInt places)
        type).run s = .ok () s' ∧
      Put call quiet s s' cs
        (numberText type base (width.getD 0)
          (places.getD 0) num) (call.argsFrom s.arg) := by
  unfold putNumber
  rw [number_eq_numberText num type hBase hWidth hPlaces]
  exact puts_put _ hSuffix hFmt

theorem putOther_put
    (hSuffix : c :: cs <:+ call.fmt.chars)
    (hFmt : s.fmt =
      call.fmt.chars.length - (c :: cs).length) :
    ∃ s', (putOther c).run s = .ok () s' ∧
      Put call quiet s s' cs
        (if c = percent then [percent] else [percent, c])
        (call.argsFrom s.arg) := by
  have hc : c ≠ 0 :=
    call.fmt.unterminated c
      (hSuffix.subset List.mem_cons_self)
  have hText :
      (if c = percent then [percent] else [percent, c]) =
        (if c ≠ percent then [percent] else []) ++ [c] := by
    by_cases h : c = percent
    · rw [if_pos h, if_neg (not_not.mpr h), h]
      rfl
    · rw [if_neg h, if_pos h]
      rfl
  have hPuts :
      ∃ s',
        (puts (if c ≠ percent then [percent] else [])).run s =
            .ok () s' ∧
          Put call quiet s s' cs
            (if c ≠ percent then [percent] else [])
            (call.argsFrom s.arg) :=
    puts_put _ hSuffix hFmt
  rcases hPuts with ⟨s', hRun, hPut⟩
  refine ⟨s'.afterPut c, ?_, ?_, hPut.fmt_eq, hPut.args_eq,
    fun hQuiet hOnly =>
      (hPut.bytesOnly hQuiet hOnly).afterPut c⟩
  · rw [putOther, EStateM.bind_of_ok hRun, if_pos hc]
    rfl
  · rw [hText]
    exact hPut.wrote.trans (wrote_afterPut s' c)

/- At the end of the format only the percent sign is put. -/
theorem putOther_put_end
    (hNil : call.fmt.chars ≠ [])
    (hFmt : s.fmt = call.fmt.chars.length) :
    ∃ s', (putOther 0).run s = .ok () s' ∧
      Put call quiet s s' [] [percent]
        (call.argsFrom s.arg) := by
  have hPos := List.length_pos_of_ne_nil hNil
  refine ⟨{ s.afterPut percent with
    fmt := (s.afterPut percent).fmt - 1 }, rfl,
    ⟨(wrote_afterPut s percent).str_eq,
      (wrote_afterPut s percent).bytes_eq⟩, ?_, rfl,
    fun _ hOnly => hOnly.afterPut percent⟩
  change s.fmt - 1 + 1 = call.fmt.chars.length - 0
  omega

variable {texts : Texts}
variable {d : Directive}
variable {args : Args}

theorem putString_put
    {text : List UInt8}
    (type : UInt32)
    (hSuffix : c :: cs <:+ call.fmt.chars)
    (hFmt : s.fmt =
      call.fmt.chars.length - (c :: cs).length)
    (hWidth : ∀ n, width = some n → n ≤ 2 ^ 30)
    (hPlaces : ∀ n, places = some n → n ≤ 2 ^ 30)
    (hString : StringAt call.mem (call.args s.arg) text) :
    ∃ s',
      (putString call type (asInt width) (asInt places)).run
          s = .ok () s' ∧
        Put call quiet s s' cs
          (justified type (width.getD 0)
            (text.take (places.getD text.length)))
          (call.argsFrom s.arg).tail := by
  unfold putString
  refine put_vaArg_bind ?_
  rw [hString.strlen_eq]
  dsimp only
  rw [stringField_eq hString hWidth hPlaces]
  exact puts_put _ hSuffix hFmt

theorem putPointer_put
    (type : UInt32)
    (hSuffix : c :: cs <:+ call.fmt.chars)
    (hFmt : s.fmt =
      call.fmt.chars.length - (c :: cs).length)
    (hWidth : ∀ n, width = some n → n ≤ 2 ^ 30)
    (hPlaces : ∀ n, places = some n → n ≤ 2 ^ 30)
    (num : Int32) :
    ∃ s',
      (if asInt width = -1 then
          putNumber num 16 8 (asInt places) (type ||| ZEROPAD)
        else
          putNumber num 16 (asInt width) (asInt places)
            type).run s = .ok () s' ∧
        Put call quiet s s' cs
          (numberText
            (if width = none then type ||| ZEROPAD else type)
            16 (width.getD 8) (places.getD 0) num)
          (call.argsFrom s.arg) := by
  have hBase : ¬ ((16 : Int32) < 2 ∨ (16 : Int32) > 36) := by
    decide
  cases width with
  | none =>
      have hEight : ∀ n, some 8 = some n → n ≤ 2 ^ 30 := by
        intro n hn
        have hSame := Option.some_inj.mp hn
        omega
      have hMinus : asInt none = -1 := rfl
      have hSize : (8 : Int32) = asInt (some 8) := rfl
      have hGet :
          (none : Option Nat).getD 8 = (some 8).getD 0 := rfl
      rw [if_pos hMinus, if_pos rfl, hSize, hGet]
      exact putNumber_put num (type ||| ZEROPAD) hSuffix hFmt
        hBase hEight hPlaces
  | some n =>
      have hNe : asInt (some n) ≠ -1 := by
        intro hEq
        have hInt := toInt_asInt hWidth
        rw [hEq] at hInt
        have hn : ((-1 : Int32)).toInt = (n : Int) := hInt
        have hMinus : ((-1 : Int32)).toInt = -1 := rfl
        omega
      rw [if_neg hNe, if_neg (Option.some_ne_none n)]
      exact putNumber_put num type hSuffix hFmt hBase hWidth
        hPlaces

/- A count is stored elsewhere, and puts nothing. -/
theorem putCount_put
    (hSuffix : c :: cs <:+ call.fmt.chars)
    (hFmt : s.fmt =
      call.fmt.chars.length - (c :: cs).length)
    (hNot : ¬ quiet)
    (ip : UInt32) :
    ∃ s',
      (modify fun s : State =>
        { s with
          stores :=
            s.stores ++
              [.word ip (s.str - call.buf).toInt32] } :
        PrintM Unit).run s = .ok () s' ∧
        Put call quiet s s' cs [] (call.argsFrom s.arg) := by
  have hLe := hSuffix.length_le
  rw [List.length_cons] at hLe hFmt
  refine ⟨_, rfl, Wrote.of_same rfl ?_, ?_, rfl,
    fun hQuiet => absurd hQuiet hNot⟩
  · unfold State.bytes
    rw [List.filterMap_append]
    exact List.append_nil _
  · change s.fmt + 1 = _
    omega

theorem putConversion_put
    {text : List UInt8}
    (hStrings : ∀ a text,
      texts a = some text → StringAt call.mem a text)
    (hNil : call.fmt.chars ≠ [])
    (hSuffix : cs <:+ call.fmt.chars)
    (hFmt : s.fmt = call.fmt.chars.length - cs.length)
    (hWidth : ∀ n, d.width.value = some n → n ≤ 2 ^ 30)
    (hPlaces : ∀ n, d.places = some n → n ≤ 2 ^ 30)
    (hConversion : d.conversion = cs.take 1)
    (hPrint :
      d.print texts (call.argsFrom s.arg) =
        some (text, args)) :
    ∃ s',
      (putConversion call d.type (asInt d.width.value)
          (asInt d.places) (cs.headD 0)).run s = .ok () s' ∧
        Put call d.Quiet s s' (cs.drop 1) text args := by
  unfold Directive.print at hPrint
  rw [hConversion] at hPrint
  cases cs with
  | nil =>
      cases hPrint
      exact putOther_put_end hNil hFmt
  | cons c cs =>
      rw [List.headD_cons]
      unfold putConversion
      dsimp only [List.take_succ_cons, List.take_zero] at hPrint
      cases hc : conversionOf c with
      | char =>
          rw [hc] at hPrint
          cases hPrint
          refine put_vaArg_bind ?_
          rw [charField_eq _ hWidth]
          exact puts_put _ hSuffix hFmt
      | string =>
          rw [hc] at hPrint
          rcases Option.map_eq_some_iff.mp hPrint with
            ⟨t, hText, hSame⟩
          cases hSame
          exact putString_put d.type hSuffix hFmt hWidth hPlaces
            (hStrings _ _ hText)
      | pointer =>
          rw [hc] at hPrint
          cases hPrint
          refine put_vaArg_bind ?_
          exact putPointer_put (s := s.taken) d.type hSuffix
            hFmt hWidth hPlaces _
      | number base added =>
          rw [hc] at hPrint
          cases hPrint
          refine put_vaArg_bind ?_
          exact putNumber_put _ _ hSuffix hFmt (base_taken hc)
            hWidth hPlaces
      | count =>
          rw [hc] at hPrint
          cases hPrint
          refine put_vaArg_bind ?_
          exact putCount_put (s := s.taken) hSuffix hFmt
            (fun hQuiet => hQuiet c hConversion hc) _
      | other =>
          rw [hc] at hPrint
          cases hPrint
          exact putOther_put hSuffix hFmt

------------------------------------------------------------
-- Directives and Formats
------------------------------------------------------------

theorem Put.of_before
    {s' : State}
    {cs' text : List UInt8}
    (hPut : Put call quiet (s.before call cs') s' cs text args) :
    Put call quiet s s' cs text args where
  wrote := ⟨hPut.wrote.str_eq, hPut.wrote.bytes_eq⟩
  fmt_eq := hPut.fmt_eq
  args_eq := hPut.args_eq
  bytesOnly := hPut.bytesOnly

/- After `++fmt` the rest is what is read. -/
theorem Put.next
    {s' : State}
    {text : List UInt8}
    (hPut : Put call quiet s s' cs text args) :
    s'.next = s'.before call cs := by
  unfold State.next State.before
  rw [hPut.fmt_eq]

theorem directive_prints
    {text : List UInt8}
    (hStrings : ∀ a text,
      texts a = some text → StringAt call.mem a text)
    (hSuffix : percent :: cs <:+ call.fmt.chars)
    (hBound : call.fmt.chars.length < bound)
    (hModerate : (readDirective cs).1.Moderate)
    (hPrint :
      (readDirective cs).1.print texts
          (call.argsFrom s.arg) = some (text, args)) :
    ∃ s',
      (directive call bound).run
          (s.before call (percent :: cs)) = .ok () s' ∧
        Put call (readDirective cs).1.Quiet s s'
          (readDirective cs).2 text args := by
  have hNil : call.fmt.chars ≠ [] := by
    intro hNil
    rw [hNil] at hSuffix
    exact absurd (List.suffix_nil.mp hSuffix)
      (List.cons_ne_nil _ _)
  have hStarred := hModerate.notStarred
  unfold Directive.Starred at hStarred
  rw [not_or] at hStarred
  -- the rest of the format after each part
  have h₀ : cs <:+ call.fmt.chars :=
    (List.suffix_cons percent cs).trans hSuffix
  have h₁ : cs.dropWhile isFlag <:+ call.fmt.chars :=
    (List.dropWhile_suffix isFlag).trans h₀
  have h₂ : (readAmount (cs.dropWhile isFlag)).2 <:+
      call.fmt.chars :=
    List.IsSuffix.trans ⟨_, text_readAmount _⟩ h₁
  have h₃ : (readPrecision
      (readAmount (cs.dropWhile isFlag)).2).2 <:+
      call.fmt.chars :=
    List.IsSuffix.trans ⟨_, text_readPrecision _⟩ h₂
  have h₄ : (readQualifier (readPrecision
      (readAmount (cs.dropWhile isFlag)).2).2).2 <:+
      call.fmt.chars :=
    List.IsSuffix.trans ⟨_, text_readQualifier _⟩ h₃
  have hLength₀ := h₀.length_le
  have hLength₁ := h₁.length_le
  have hLength₂ := h₂.length_le
  rcases putConversion_put
      (s := s.before call (readQualifier (readPrecision
        (readAmount (cs.dropWhile isFlag)).2).2).2)
      hStrings hNil h₄ rfl hModerate.width hModerate.places
      rfl hPrint with
    ⟨s', hRun, hPut⟩
  refine ⟨s', ?_, hPut.of_before⟩
  unfold directive
  rw [EStateM.bind_of_ok
      (run_processFlags 0 hSuffix (by omega)),
    EStateM.bind_of_ok
      (run_getFieldWidth _ h₁ (by omega) hStarred.1),
    EStateM.bind_of_ok
      (run_getPrecision h₂ (by omega) hStarred.2
        hModerate.places),
    EStateM.bind_of_ok (run_getQualifier h₃),
    EStateM.bind_of_ok (run_peek_before h₄)]
  exact hRun

theorem scanLoop_prints
    {fuel : Nat}
    {out : List UInt8}
    (hStrings : ∀ a text,
      texts a = some text → StringAt call.mem a text)
    (hBound : call.fmt.chars.length < bound)
    (hSuffix : cs <:+ call.fmt.chars)
    (hFuel : cs.length < fuel)
    (hModerate : Moderate (pieces cs))
    (hPrints :
      printed texts (pieces cs) (call.argsFrom s.arg) =
        some out) :
    ∃ s',
      (scanLoop call bound fuel).run (s.before call cs) =
          .ok () s' ∧
        Wrote s s' out ∧
          (Quiet (pieces cs) → s.BytesOnly → s'.BytesOnly) := by
  induction cs using pieces.induct generalizing s fuel out with
  | case1 =>
      rcases fuel with _ | fuel
      · omega
      · rw [pieces] at hPrints
        cases hPrints
        rw [scanLoop,
          EStateM.bind_of_ok (run_peek_before hSuffix)]
        exact ⟨_, rfl, Wrote.of_same rfl rfl,
          fun _ hOnly => hOnly⟩
  | case2 cs ih =>
      rcases fuel with _ | fuel
      · omega
      · rw [pieces, if_pos rfl] at hPrints hModerate
        rcases Option.bind_eq_some_iff.mp hPrints with
          ⟨⟨text, args⟩, hPrint, hMore⟩
        rcases Option.map_eq_some_iff.mp hMore with
          ⟨rest, hRest, rfl⟩
        rcases directive_prints hStrings hSuffix hBound
            (hModerate _ List.mem_cons_self) hPrint with
          ⟨s', hRun, hPut⟩
        have hLe := readDirective_length_le cs
        have hSuffix' :
            (readDirective cs).2 <:+ call.fmt.chars :=
          List.IsSuffix.trans ⟨_, text_readDirective cs⟩ hSuffix
        rw [List.length_cons] at hFuel
        rw [← hPut.args_eq] at hRest
        rcases @ih s' fuel rest hSuffix' (by omega)
            (fun d hd => hModerate d
              (List.mem_cons_of_mem _ hd)) hRest with
          ⟨s'', hRun', hWrote, hBytes⟩
        refine ⟨s'', ?_, hPut.wrote.trans hWrote, ?_⟩
        rotate_left
        · rw [pieces, if_pos rfl]
          intro hQuiet hOnly
          exact hBytes
            (fun d hd => hQuiet d (List.mem_cons_of_mem _ hd))
            (hPut.bytesOnly
              (hQuiet _ List.mem_cons_self) hOnly)
        have hPercent : ¬ percent = 0 := by decide
        rw [scanLoop,
          EStateM.bind_of_ok (run_peek_before hSuffix),
          List.headD_cons, if_neg hPercent,
          if_neg (not_not.mpr rfl), EStateM.bind_of_ok hRun,
          EStateM.bind_of_ok (run_advance s'), hPut.next]
        exact hRun'
  | case3 c cs hc ih =>
      rcases fuel with _ | fuel
      · omega
      · rw [pieces, if_neg hc] at hPrints hModerate
        rcases Option.map_eq_some_iff.mp hPrints with
          ⟨rest, hRest, rfl⟩
        have hNull : c ≠ 0 :=
          call.fmt.unterminated c
            (hSuffix.subset List.mem_cons_self)
        have hSuffix' : cs <:+ call.fmt.chars :=
          (List.suffix_cons c cs).trans hSuffix
        rw [List.length_cons] at hFuel
        rcases @ih (s.afterPut c) fuel rest hSuffix' (by omega)
            (fun d hd => hModerate d
              (List.mem_cons_of_mem _ hd)) hRest with
          ⟨s'', hRun', hWrote, hBytes⟩
        refine ⟨s'', ?_, (wrote_afterPut s c).trans hWrote, ?_⟩
        rotate_left
        · rw [pieces, if_neg hc]
          intro hQuiet hOnly
          exact hBytes
            (fun d hd => hQuiet d (List.mem_cons_of_mem _ hd))
            (hOnly.afterPut c)
        have hAdvance :=
          @run_advance_before call (s.afterPut c) cs c hSuffix
        rw [scanLoop,
          EStateM.bind_of_ok (run_peek_before hSuffix),
          List.headD_cons, if_neg hNull, if_pos hc,
          EStateM.bind_of_ok (run_put c _)]
        exact (EStateM.bind_of_ok hAdvance).trans hRun'

/- The state after the null byte at the end. -/
def State.ended (s : State) : State :=
  { s with stores := s.stores ++ [.byte s.str 0] }

/- The bytes that are stored, and the result. -/
theorem vsprintf_sound
    {out : List UInt8}
    (texts : Texts)
    (call : Call)
    (more : Nat)
    (hStrings : ∀ a text,
      texts a = some text → StringAt call.mem a text)
    (hModerate : Moderate (pieces call.fmt.chars))
    (hPrints :
      printed texts (pieces call.fmt.chars) call.args =
        some out) :
    ∃ s,
      (vsprintf call
          (call.fmt.chars.length + 1 + more)).run call.start =
          .ok (Int32.ofNat out.length) s ∧
        s.bytes = bytesFrom call.buf (out ++ [0]) ∧
          (Quiet (pieces call.fmt.chars) → s.BytesOnly) := by
  have hArgs : call.argsFrom call.start.arg = call.args := by
    funext i
    exact congrArg call.args (Nat.zero_add i)
  have hStart :
      call.start.before call call.fmt.chars = call.start := by
    unfold State.before
    rw [Nat.sub_self]
    rfl
  rcases scanLoop_prints (s := call.start) hStrings
      (by omega :
        call.fmt.chars.length <
          call.fmt.chars.length + 1 + more)
      List.suffix_rfl
      (by omega :
        call.fmt.chars.length <
          call.fmt.chars.length + 1 + more)
      hModerate (hArgs ▸ hPrints) with
    ⟨s, hRun, hWrote, hBytes⟩
  rw [hStart] at hRun
  have hLength :
      (s.str - call.buf).toInt32 = Int32.ofNat out.length := by
    rw [hWrote.str_eq]
    exact toInt32_ofNat_sub _ _
  refine ⟨s.ended, ?_,
    (hWrote.trans (wrote_afterPut s 0)).bytes_eq, ?_⟩
  · rw [vsprintf, EStateM.bind_of_ok hRun, ← hLength]
    rfl
  · intro hQuiet
    have hNone : call.start.BytesOnly :=
      fun _ hStore => absurd hStore List.not_mem_nil
    exact (hBytes hQuiet hNone).afterPut 0

/- All that is asked of a format and its arguments. -/
structure Means
    (texts : Texts)
    (ps : List Piece)
    (args : Args)
    (out : List UInt8) : Prop where
  moderate : Moderate ps
  quiet : Quiet ps
  printed : Vsprintf.printed texts ps args = some out

/- A text in a field without a width. -/
theorem justified_zero (type : UInt32) (text : List UInt8) :
    justified type 0 text = text := by
  unfold justified
  rw [Nat.zero_sub, List.replicate_zero, List.append_nil,
    List.nil_append, ite_self]

/- An `int` in decimal. -/
def signedText (num : Int32) : List UInt8 :=
  signPart num SIGN ++ numeral SIGN 10 num.toInt.natAbs

/- There is a sign only if the number is negative. -/
theorem signPart_signed (num : Int32) :
    signPart num SIGN =
      if num.toInt < 0 then [minus] else [] := by
  have hSign : Flagged SIGN SIGN := by decide
  have hPlus : ¬ Flagged SIGN PLUS := by decide
  have hSpace : ¬ Flagged SIGN SPACE := by decide
  unfold signPart
  rw [if_neg hPlus, if_neg hSpace]
  by_cases hNum : num.toInt < 0
  · rw [if_pos ⟨hSign, hNum⟩, if_pos hNum]
  · rw [if_neg (fun h => hNum h.2), if_neg hNum]

theorem length_signedText (num : Int32) :
    (signedText num).length ≤ 11 := by
  have hLow := num.le_toInt
  have hHigh := num.toInt_lt
  have hNumeral :
      (numeral SIGN 10 num.toInt.natAbs).length ≤ 10 :=
    length_numeral (by decide) (by decide) (by omega)
  unfold signedText
  rw [List.length_append, signPart_signed]
  split
  · rw [List.length_singleton]
    omega
  · rw [List.length_nil]
    omega

theorem unterminated_signedText (num : Int32) :
    Fs.Unterminated (signedText num) := by
  intro c hc
  unfold signedText at hc
  rw [signPart_signed] at hc
  rcases List.mem_append.mp hc with h | h
  · split at h
    · rw [List.mem_singleton.mp h]
      decide
    · exact absurd h List.not_mem_nil
  · exact unterminated_numeral _ (by decide) (by decide) c h

/- A number in a field without a width or a precision. -/
theorem numberText_zero
    (type : UInt32)
    (base num : Int32) :
    numberText type base 0 0 num =
      signPart num type ++ specialPart base type ++
        numeral type base.toInt.toNat (magnitude num type) := by
  unfold numberText
  simp only [Nat.zero_sub, List.replicate_zero,
    List.nil_append, List.append_nil, justified_zero, ite_self]

namespace Means

variable {ds out : List UInt8}

theorem nil (args : Args) :
    Means texts (pieces []) args [] := by
  rw [pieces]
  exact ⟨fun _ hd => absurd hd List.not_mem_nil,
    fun _ hd => absurd hd List.not_mem_nil, rfl⟩

/- Characters stand for themselves. -/
theorem chars
    (cs : List UInt8)
    (hPlain : cs.all (· ≠ percent) = true)
    (hMeans : Means texts (pieces ds) args out) :
    Means texts (pieces (cs ++ ds)) args (cs ++ out) := by
  induction cs with
  | nil => exact hMeans
  | cons c cs ih =>
      rw [List.all_cons, Bool.and_eq_true] at hPlain
      have hc : c ≠ percent := of_decide_eq_true hPlain.1
      have hTail := ih hPlain.2
      rw [List.cons_append, pieces, if_neg hc]
      refine ⟨?_, ?_, ?_⟩
      · intro d hd
        rcases List.mem_cons.mp hd with h | h
        · cases h
        · exact hTail.moderate d h
      · intro d hd
        rcases List.mem_cons.mp hd with h | h
        · cases h
        · exact hTail.quiet d h
      · rw [Vsprintf.printed, hTail.printed]
        rfl

theorem directive
    {cs text : List UInt8}
    {args' : Args}
    (hRead : readDirective cs = (d, ds))
    (hModerate : d.Moderate)
    (hQuiet : d.Quiet)
    (hPrint : d.print texts args = some (text, args'))
    (hMeans : Means texts (pieces ds) args' out) :
    Means texts (pieces (percent :: cs)) args
      (text ++ out) := by
  rw [pieces, if_pos rfl, hRead]
  refine ⟨?_, ?_, ?_⟩
  · intro d' hd
    rcases List.mem_cons.mp hd with h | h
    · rw [Piece.directive.inj h]
      exact hModerate
    · exact hMeans.moderate d' h
  · intro d' hd
    rcases List.mem_cons.mp hd with h | h
    · rw [Piece.directive.inj h]
      exact hQuiet
    · exact hMeans.quiet d' h
  · rw [Vsprintf.printed, hPrint, Option.bind_some,
      hMeans.printed]
    rfl

/- `%s`, without flags. -/
theorem string
    (hText : texts (args 0) = some text)
    (hMeans : Means texts (pieces ds) args.tail out) :
    Means texts (pieces (percent :: letter 's' :: ds)) args
      (text ++ out) := by
  have hRead :
      readDirective (letter 's' :: ds) =
        (⟨[], .absent, none, [], [letter 's']⟩, ds) := rfl
  refine hMeans.directive hRead
    (Directive.moderate_of (by decide) (by decide)
      (by decide))
    (Directive.quiet_of rfl (by decide)) ?_
  have hPrint :
      Directive.print texts
          ⟨[], .absent, none, [], [letter 's']⟩ args =
        (texts (args 0)).map fun text =>
          (justified 0 0 (text.take text.length),
            args.tail) := rfl
  rw [hPrint, hText, Option.map_some, List.take_length,
    justified_zero]

/- `%x`, without flags. -/
theorem hexadecimal
    (hMeans : Means texts (pieces ds) args.tail out) :
    Means texts (pieces (percent :: letter 'x' :: ds)) args
      (numeral SMALL 16 (args 0).toNat ++ out) := by
  have hRead :
      readDirective (letter 'x' :: ds) =
        (⟨[], .absent, none, [], [letter 'x']⟩, ds) := rfl
  refine hMeans.directive hRead
    (Directive.moderate_of (by decide) (by decide)
      (by decide))
    (Directive.quiet_of rfl (by decide)) ?_
  have hPrint :
      Directive.print texts
          ⟨[], .absent, none, [], [letter 'x']⟩ args =
        some
          (numberText SMALL 16 0 0 (args 0).toInt32,
            args.tail) := rfl
  have hBase : (16 : Int32).toInt.toNat = 16 := by decide
  have hSign : signPart (args 0).toInt32 SMALL = [] := by
    unfold signPart
    rw [if_neg (fun h => absurd h.1 (by decide)),
      if_neg (by decide), if_neg (by decide)]
  have hMagnitude :
      magnitude (args 0).toInt32 SMALL = (args 0).toNat := by
    unfold magnitude
    rw [if_neg (by decide)]
    rfl
  rw [hPrint, numberText_zero, hSign, hBase, hMagnitude]
  rfl

/- `%d`, without flags. -/
theorem decimal
    (hMeans : Means texts (pieces ds) args.tail out) :
    Means texts (pieces (percent :: letter 'd' :: ds)) args
      (signedText (args 0).toInt32 ++ out) := by
  have hRead :
      readDirective (letter 'd' :: ds) =
        (⟨[], .absent, none, [], [letter 'd']⟩, ds) := rfl
  refine hMeans.directive hRead
    (Directive.moderate_of (by decide) (by decide)
      (by decide))
    (Directive.quiet_of rfl (by decide)) ?_
  have hPrint :
      Directive.print texts
          ⟨[], .absent, none, [], [letter 'd']⟩ args =
        some
          (numberText SIGN 10 0 0 (args 0).toInt32,
            args.tail) := rfl
  have hBase : (10 : Int32).toInt.toNat = 10 := by decide
  have hSpecial : specialPart 10 SIGN = [] := by decide
  have hMagnitude :
      magnitude (args 0).toInt32 SIGN =
        (args 0).toInt32.toInt.natAbs := by
    unfold magnitude
    rw [if_pos (by decide)]
  rw [hPrint, numberText_zero, hSpecial, hBase, hMagnitude,
    List.append_nil]
  rfl

end Means

/- The call `vsprintf(buf, "%-3d|%s", 7, "ok")`. -/
def tableCall : Call where
  buf := 0x1000
  fmt :=
    { chars :=
        [percent, minus, 51, letter 'd', 124, percent, letter 's']
      unterminated := by
        unfold Fs.Unterminated
        simp only [List.forall_mem_cons, List.not_mem_nil,
          false_implies, implies_true, and_true]
        decide }
  args := fun i => if i = 0 then 7 else 0x2000
  mem := fun a =>
    if a = 0x2000 then 111 else if a = 0x2001 then 107 else 0

def tableTexts : Texts := fun a =>
  if a = 0x2000 then some [111, 107] else none

theorem strings_tableCall :
    ∀ a text, tableTexts a = some text →
      StringAt tableCall.mem a text := by
  intro a text hText
  unfold tableTexts at hText
  split at hText
  · next ha =>
      cases hText
      subst ha
      refine ⟨by decide, ?_, by decide⟩
      exact Fs.unterminated_cons (by decide)
        (Fs.unterminated_cons (by decide) Fs.unterminated_nil)
  · cases hText

theorem means_tableCall :
    Means tableTexts (pieces tableCall.fmt.chars)
      tableCall.args
      [55, space, space, 124, 111, 107] := by
  have hTen : (10 : Int32).toInt.toNat = 10 := by decide
  have hSeven : magnitude 7 (LEFT ||| SIGN) = 7 := by decide
  have hNumeral : numeral (LEFT ||| SIGN) 10 7 = [55] := by
    rw [numeral, if_neg (by decide),
      Nat.digits_of_lt 10 7 (by decide) (by decide)]
    decide
  have hNumber :
      numberText (LEFT ||| SIGN) 10 3 0 7 =
        [55, space, space] := by
    unfold numberText
    rw [hTen, hSeven, hNumeral]
    decide
  have hLast :
      Means tableTexts (pieces [percent, letter 's'])
        (Args.tail tableCall.args) ([111, 107] ++ []) :=
    Means.string rfl (.nil _)
  have hMiddle := Means.chars [124] (by decide) hLast
  have hRead :
      readDirective
          [minus, 51, letter 'd', 124, percent, letter 's'] =
        (⟨[minus], .digits [51], none, [], [letter 'd']⟩,
          [124] ++ [percent, letter 's']) := rfl
  exact Means.directive hRead
    (Directive.moderate_of (by decide) (by decide)
      (by decide))
    (Directive.quiet_of rfl (by decide))
    (congrArg (fun t => some (t, Args.tail tableCall.args))
      hNumber)
    hMiddle

end Vsprintf

end SosKernel
