import SosKernel.Fs.Strings
import SosKernel.Lib.Program
import SosKernel.Vsprintf.Number

/-
  The function `vsprintf` of `lib/vsprintf.c`.

  The format is read through an index, and reading behind its
  null byte stops the program.  The words behind `args` on
  the stack are a sequence without end.  Memory is what the
  string arguments are read from; these lie apart from what
  is written, and the stores are kept as a list.

  Main declarations:
    * `vsprintf`
    * `Wrote`: a piece of output, right after the last one
    * `Written`: a string at `buf` and its length
    * `vsprintf_writes`
-/

------------------------------------------------------------
-- The State
------------------------------------------------------------

namespace SosKernel

namespace Vsprintf

/- A format; a null byte follows `chars`. -/
structure Format where
  chars : List UInt8
  unterminated : Fs.Unterminated chars

/- A store of `*str++ = c` or of `*ip = n`. -/
inductive Store where
| byte (str : UInt32) (c : UInt8)
| word (ip : UInt32) (n : Int32)
deriving DecidableEq, Repr

/-
  `beyondFormat` is a read of the format behind its end, and
  `noString` an argument that no null byte follows.  `hang`
  says that the bound of a loop was used up.
-/
inductive Fault where
| beyondFormat
| noString (s : UInt32)
| hang
deriving DecidableEq, Repr

/- The parameters of a call, and the memory at the call. -/
structure Call where
  buf : UInt32
  fmt : Format
  args : Nat → UInt32
  mem : UInt32 → UInt8

/- `fmt` is the index in the format, `arg` that in `args`. -/
structure State where
  str : UInt32
  fmt : Nat
  arg : Nat
  stores : List Store

abbrev PrintM := EStateM Fault State

/- `*fmt`. -/
def peek (call : Call) : PrintM UInt8 := fun s =>
  if s.fmt < call.fmt.chars.length then
    .ok call.fmt.chars[s.fmt]! s
  else if s.fmt = call.fmt.chars.length then
    .ok 0 s
  else
    .error .beyondFormat s

/- `++fmt`. -/
def advance : PrintM Unit :=
  modify fun s => { s with fmt := s.fmt + 1 }

/- `--fmt`. -/
def stepBack : PrintM Unit :=
  modify fun s => { s with fmt := s.fmt - 1 }

/- The next word of `args`. -/
def vaArg (call : Call) : PrintM UInt32 := fun s =>
  .ok (call.args s.arg) { s with arg := s.arg + 1 }

/- `*str++ = c`. -/
def put (c : UInt8) : PrintM Unit :=
  modify fun s =>
    { s with
      str := s.str + 1
      stores := s.stores ++ [.byte s.str c] }

def puts : List UInt8 → PrintM Unit
| [] => pure ()
| c :: cs => do
    put c
    puts cs

------------------------------------------------------------
-- The Scanner
------------------------------------------------------------

/- The characters that are named in `vsprintf`. -/
def percent : UInt8 := 37
def sharp : UInt8 := 35
def star : UInt8 := 42
def dot : UInt8 := 46

def letter (c : Char) : UInt8 := UInt8.ofNat c.toNat

def isDigit (c : UInt8) : Bool := 48 ≤ c ∧ c ≤ 57

/- The flag that a character sets. -/
def flagOf (c : UInt8) : Option UInt32 :=
  if c = minus then some LEFT
  else if c = plus then some PLUS
  else if c = space then some SPACE
  else if c = sharp then some SPECIAL
  else if c = zero then some ZEROPAD
  else none

def skipAtoi (call : Call) : Nat → Int32 → PrintM Int32
| 0, _ => throw .hang
| bound + 1, i => do
    let c ← peek call
    if isDigit c then
      advance
      skipAtoi call bound
        (i * 10 + Int32.ofNat c.toNat - Int32.ofNat zero.toNat)
    else
      return i

/- The statements from `repeat` on. -/
def processFlags (call : Call) : Nat → UInt32 → PrintM UInt32
| 0, _ => throw .hang
| bound + 1, flags => do
    advance
    let c ← peek call
    match flagOf c with
    | some flag => processFlags call bound (flags ||| flag)
    | none => return flags

/- The field width, and the flags after it. -/
def getFieldWidth
    (call : Call)
    (bound : Nat)
    (flags : UInt32) : PrintM (Int32 × UInt32) := do
  let c ← peek call
  if isDigit c then
    let fieldWidth ← skipAtoi call bound 0
    return (fieldWidth, flags)
  else if c = star then
    let arg ← vaArg call
    if arg.toInt32 < 0 then
      return (-arg.toInt32, flags ||| LEFT)
    else
      return (arg.toInt32, flags)
  else
    return (-1, flags)

/- What follows the dot of a precision. -/
def precisionAfterDot
    (call : Call)
    (bound : Nat) : PrintM Int32 := do
  let c ← peek call
  if isDigit c then
    skipAtoi call bound 0
  else if c = star then
    let arg ← vaArg call
    return arg.toInt32
  else
    return -1

def getPrecision
    (call : Call)
    (bound : Nat) : PrintM Int32 := do
  let c ← peek call
  if c = dot then
    advance
    let precision ← precisionAfterDot call bound
    return if precision < 0 then 0 else precision
  else
    return -1

/- The qualifier is read and then not used. -/
def getQualifier (call : Call) : PrintM Unit := do
  let c ← peek call
  if c = letter 'h' ∨ c = letter 'l' ∨ c = letter 'L' then
    advance

------------------------------------------------------------
-- Conversions
------------------------------------------------------------

/- The loops `while (--size > 0) *str++ = ' '`. -/
def widthLoop
    (size : Int32)
    (str : List UInt8) : Int32 × List UInt8 :=
  if 0 < size - 1 then
    widthLoop (size - 1) (str ++ [space])
  else
    (size - 1, str)
termination_by (size - 1).toInt.toNat
decreasing_by
  have hPos : 0 < (size - 1).toInt := zero_lt_iff.mp ‹_›
  rw [toInt_sub_one (by omega)]
  omega

/- The loops `while (len < size--) *str++ = ' '`. -/
def fillLoop
    (len size : Int32)
    (str : List UInt8) : Int32 × List UInt8 :=
  if len < size then
    fillLoop len (size - 1) (str ++ [space])
  else
    (size - 1, str)
termination_by (size.toInt - len.toInt).toNat
decreasing_by
  have hMore : len.toInt < size.toInt :=
    Int32.lt_iff_toInt_lt.mp ‹_›
  have hLow := len.le_toInt
  rw [toInt_sub_one (by omega)]
  omega

/- The loop `for (..; i < len; ++i) *str++ = *s++`. -/
def textLoop
    (mem : UInt32 → UInt8)
    (len i : Int32)
    (s : UInt32)
    (str : List UInt8) : List UInt8 :=
  if i < len then
    textLoop mem len (i + 1) (s + 1) (str ++ [mem s])
  else
    str
termination_by (len.toInt - i.toInt).toNat
decreasing_by
  have hMore : i.toInt < len.toInt :=
    Int32.lt_iff_toInt_lt.mp ‹_›
  have hLow := i.le_toInt
  have hHigh := len.toInt_lt
  have hOne : (1 : Int32).toInt = 1 := rfl
  rw [Int32.toInt_add, hOne, Int.bmod_eq_of_le]
  all_goals omega

/- What the case `'c'` writes. -/
def charField
    (flags : UInt32)
    (width : Int32)
    (c : UInt8) : List UInt8 :=
  let (width, str) :=
    if Flagged flags LEFT then (width, [])
    else widthLoop width []
  let str := str ++ [c]
  (widthLoop width str).2

/- What the case `'s'` writes, from the length of `s` on. -/
def stringField
    (mem : UInt32 → UInt8)
    (s flags : UInt32)
    (width precision len : Int32) : List UInt8 :=
  let len :=
    if precision < 0 then len
    else if len > precision then precision
    else len
  let (width, str) :=
    if Flagged flags LEFT then (width, [])
    else fillLoop len width []
  let str := textLoop mem len 0 s str
  (fillLoop len width str).2

/- The first null byte from `ptr` on. -/
def endLoop
    (mem : UInt32 → UInt8) : Nat → UInt32 → Option UInt32
| 0, _ => none
| bound + 1, ptr =>
    if mem ptr ≠ 0 then endLoop mem bound (ptr + 1)
    else some ptr

/- There are `2 ^ 32` bytes to look at. -/
def strlen
    (mem : UInt32 → UInt8)
    (str : UInt32) : Option Int32 :=
  (endLoop mem (2 ^ 32) str).map fun ptr =>
    (ptr - str).toInt32

/-
  The cases of the second `switch`.  A number has a base and
  the flags that its letters add on falling through.
-/
inductive Conversion where
| char
| string
| pointer
| number (base : Int32) (flags : UInt32)
| count
| other
deriving DecidableEq, Repr

def conversions : List (UInt8 × Conversion) :=
  [(letter 'c', .char),
    (letter 's', .string),
    (letter 'o', .number 8 0),
    (letter 'p', .pointer),
    (letter 'x', .number 16 SMALL),
    (letter 'X', .number 16 0),
    (letter 'd', .number 10 SIGN),
    (letter 'i', .number 10 SIGN),
    (letter 'u', .number 10 0),
    (letter 'b', .number 2 0),
    (letter 'n', .count)]

def conversionOf (c : UInt8) : Conversion :=
  (conversions.lookup c).getD .other

/- `str = number(str, ..)`. -/
def putNumber
    (num base size precision : Int32)
    (type : UInt32) : PrintM Unit :=
  match number num base size precision type with
  | some cs => puts cs
  | none => modify fun s => { s with str := 0 }

/- The default case. -/
def putOther (c : UInt8) : PrintM Unit := do
  puts (if c ≠ percent then [percent] else [])
  if c ≠ 0 then
    put c
  else
    stepBack

def putString
    (call : Call)
    (flags : UInt32)
    (width precision : Int32) : PrintM Unit := do
  let s ← vaArg call
  match strlen call.mem s with
  | some len =>
      puts (stringField call.mem s flags width precision len)
  | none => throw (.noString s)

def putConversion
    (call : Call)
    (flags : UInt32)
    (width precision : Int32)
    (c : UInt8) : PrintM Unit :=
  match conversionOf c with
  | .char => do
      let arg ← vaArg call
      puts (charField flags width arg.toUInt8)
  | .string => putString call flags width precision
  | .pointer => do
      let arg ← vaArg call
      if width = -1 then
        putNumber arg.toInt32 16 8 precision
          (flags ||| ZEROPAD)
      else
        putNumber arg.toInt32 16 width precision flags
  | .number base added => do
      let arg ← vaArg call
      putNumber arg.toInt32 base width precision
        (flags ||| added)
  | .count => do
      let ip ← vaArg call
      modify fun s =>
        { s with
          stores :=
            s.stores ++ [.word ip (s.str - call.buf).toInt32] }
  | .other => putOther c

/- What is done at a percent sign. -/
def directive (call : Call) (bound : Nat) : PrintM Unit := do
  let flags ← processFlags call bound 0
  let (fieldWidth, flags) ← getFieldWidth call bound flags
  let precision ← getPrecision call bound
  getQualifier call
  let c ← peek call
  putConversion call flags fieldWidth precision c

def scanLoop
    (call : Call)
    (bound : Nat) : Nat → PrintM Unit
| 0 => throw .hang
| fuel + 1 => do
    let c ← peek call
    if c = 0 then
      return
    else if c ≠ percent then
      put c
      advance
      scanLoop call bound fuel
    else
      directive call bound
      advance
      scanLoop call bound fuel

/- `bound` is the bound of each loop over the format. -/
def vsprintf (call : Call) (bound : Nat) : PrintM Int32 := do
  scanLoop call bound bound
  modify fun s =>
    { s with stores := s.stores ++ [.byte s.str 0] }
  let s ← get
  return (s.str - call.buf).toInt32

/- The state at the call. -/
def Call.start (call : Call) : State where
  str := call.buf
  fmt := 0
  arg := 0
  stores := []

/- The bytes that are stored, with their places. -/
def State.bytes (s : State) : List (UInt32 × UInt8) :=
  s.stores.filterMap fun
    | .byte str c => some (str, c)
    | .word _ _ => none

------------------------------------------------------------
-- Output
------------------------------------------------------------

variable {call : Call}
variable {s s' s'' : State}
variable {c : UInt8}
variable {cs ds : List UInt8}

/- Bytes at `a` and the addresses after it. -/
def bytesFrom : UInt32 → List UInt8 → List (UInt32 × UInt8)
| _, [] => []
| a, c :: cs => (a, c) :: bytesFrom (a + 1) cs

theorem bytesFrom_append
    (a : UInt32)
    (cs ds : List UInt8) :
    bytesFrom a (cs ++ ds) =
      bytesFrom a cs ++
        bytesFrom (a + UInt32.ofNat cs.length) ds := by
  induction cs generalizing a with
  | nil =>
      have hZero : a + UInt32.ofNat 0 = a := UInt32.add_zero a
      change bytesFrom a ds =
        bytesFrom (a + UInt32.ofNat 0) ds
      rw [hZero]
  | cons c cs ih =>
      have hNext :
          a + 1 + UInt32.ofNat cs.length =
            a + UInt32.ofNat (cs.length + 1) := by
        rw [UInt32.ofNat_add, UInt32.add_assoc,
          UInt32.add_comm 1]
        rfl
      change
        (a, c) :: bytesFrom (a + 1) (cs ++ ds) =
          (a, c) :: (bytesFrom (a + 1) cs ++
            bytesFrom (a + UInt32.ofNat (cs.length + 1)) ds)
      rw [ih, hNext]

/- From `s` to `s'` the bytes `cs` were put at `str`. -/
structure Wrote
    (s s' : State)
    (cs : List UInt8) : Prop where
  str_eq : s'.str = s.str + UInt32.ofNat cs.length
  bytes_eq : s'.bytes = s.bytes ++ bytesFrom s.str cs

theorem Wrote.of_same
    (hStr : s'.str = s.str)
    (hBytes : s'.bytes = s.bytes) :
    Wrote s s' [] where
  str_eq := hStr.trans (UInt32.add_zero s.str).symm
  bytes_eq := hBytes.trans (List.append_nil _).symm

theorem Wrote.trans
    (hFirst : Wrote s s' cs)
    (hNext : Wrote s' s'' ds) :
    Wrote s s'' (cs ++ ds) where
  str_eq := by
    rw [hNext.str_eq, hFirst.str_eq, List.length_append,
      UInt32.ofNat_add, UInt32.add_assoc]
  bytes_eq := by
    rw [hNext.bytes_eq, hFirst.bytes_eq, hFirst.str_eq,
      bytesFrom_append, List.append_assoc]

/- The state after `*str++ = c`. -/
def State.afterPut (s : State) (c : UInt8) : State :=
  { s with
    str := s.str + 1
    stores := s.stores ++ [.byte s.str c] }

theorem run_put (c : UInt8) (s : State) :
    (put c).run s = .ok () (s.afterPut c) := rfl

theorem wrote_afterPut (s : State) (c : UInt8) :
    Wrote s (s.afterPut c) [c] where
  str_eq := rfl
  bytes_eq := List.filterMap_append

theorem run_puts
    (cs : List UInt8)
    (s : State) :
    ∃ s', (puts cs).run s = .ok () s' ∧ Wrote s s' cs ∧
      s'.fmt = s.fmt := by
  induction cs generalizing s with
  | nil => exact ⟨s, rfl, Wrote.of_same rfl rfl, rfl⟩
  | cons c cs ih =>
      rcases ih (s.afterPut c) with ⟨s', hRun, hWrote, hFmt⟩
      refine ⟨s', ?_, (wrote_afterPut s c).trans hWrote, hFmt⟩
      rw [puts, EStateM.bind_of_ok (run_put c s)]
      exact hRun

------------------------------------------------------------
-- The Format
------------------------------------------------------------

/- The character that is read at `i`. -/
def charAt (call : Call) (i : Nat) : UInt8 :=
  if i < call.fmt.chars.length then call.fmt.chars[i]!
  else 0

/- The format from `i` on. -/
def rest (call : Call) (i : Nat) : List UInt8 :=
  call.fmt.chars.drop i

def stars (cs : List UInt8) : Nat := cs.count star

theorem run_peek
    (hLe : s.fmt ≤ call.fmt.chars.length) :
    (peek call).run s = .ok (charAt call s.fmt) s := by
  change peek call s = _
  unfold peek charAt
  split
  · rfl
  · rw [if_pos (by omega)]

theorem charAt_ne_zero_iff
    {i : Nat} :
    charAt call i ≠ 0 ↔ i < call.fmt.chars.length := by
  unfold charAt
  constructor
  · intro hNe
    by_contra hLt
    rw [if_neg hLt] at hNe
    exact hNe rfl
  · intro hLt
    rw [if_pos hLt, getElem!_pos call.fmt.chars i hLt]
    exact call.fmt.unterminated _ (List.getElem_mem hLt)

theorem rest_eq
    {i : Nat}
    (hLt : i < call.fmt.chars.length) :
    rest call i = charAt call i :: rest call (i + 1) := by
  unfold rest charAt
  rw [if_pos hLt, getElem!_pos call.fmt.chars i hLt]
  exact List.drop_eq_getElem_cons hLt

theorem stars_rest_length :
    stars (rest call call.fmt.chars.length) = 0 := by
  unfold rest stars
  rw [List.drop_length]
  rfl

/-
  From `s` to `s'` only `fmt` and `arg` have moved, and no
  star has been passed.
-/
structure Scanned
    (call : Call)
    (s s' : State) : Prop where
  str_eq : s'.str = s.str
  stores_eq : s'.stores = s.stores
  le : s.fmt ≤ s'.fmt
  le_length : s'.fmt ≤ call.fmt.chars.length
  stars_eq :
    stars (rest call s'.fmt) = stars (rest call s.fmt)

theorem Scanned.refl
    (hLe : s.fmt ≤ call.fmt.chars.length) :
    Scanned call s s where
  str_eq := rfl
  stores_eq := rfl
  le := le_refl _
  le_length := hLe
  stars_eq := rfl

theorem Scanned.trans
    (hFirst : Scanned call s s')
    (hNext : Scanned call s' s'') :
    Scanned call s s'' where
  str_eq := hNext.str_eq.trans hFirst.str_eq
  stores_eq := hNext.stores_eq.trans hFirst.stores_eq
  le := le_trans hFirst.le hNext.le
  le_length := hNext.le_length
  stars_eq := hNext.stars_eq.trans hFirst.stars_eq

theorem Scanned.wrote
    (hScanned : Scanned call s s') :
    Wrote s s' [] := by
  refine Wrote.of_same hScanned.str_eq ?_
  unfold State.bytes
  rw [hScanned.stores_eq]

/- The state after `++fmt`. -/
def State.next (s : State) : State :=
  { s with fmt := s.fmt + 1 }

theorem run_advance (s : State) :
    advance.run s = .ok () s.next := rfl

theorem Wrote.next
    (hWrote : Wrote s s' cs) :
    Wrote s s'.next cs where
  str_eq := hWrote.str_eq
  bytes_eq := hWrote.bytes_eq

/- A character that is no star is passed. -/
theorem scanned_next
    (hLt : s.fmt < call.fmt.chars.length)
    (hStar : charAt call s.fmt ≠ star) :
    Scanned call s s.next where
  str_eq := rfl
  stores_eq := rfl
  le := Nat.le_succ _
  le_length := hLt
  stars_eq := by
    rw [rest_eq hLt]
    exact (List.count_cons_of_ne hStar).symm

/- The state after an argument has been taken. -/
def State.taken (s : State) : State :=
  { s with arg := s.arg + 1 }

theorem run_vaArg (call : Call) (s : State) :
    (vaArg call).run s = .ok (call.args s.arg) s.taken := rfl

theorem scanned_taken
    (hLe : s.fmt ≤ call.fmt.chars.length) :
    Scanned call s s.taken where
  str_eq := rfl
  stores_eq := rfl
  le := le_refl _
  le_length := hLe
  stars_eq := rfl

/- An argument of which no null byte is the end. -/
def BadString
    (call : Call)
    (e : Fault)
    (_ : State) : Prop :=
  ∃ i, e = .noString (call.args i) ∧
    ∀ a, call.mem (call.args i + a) ≠ 0

/- What the parts of the scanner do. -/
def Scans
    {α : Type}
    (call : Call)
    (x : PrintM α)
    (s : State) : Prop :=
  (x.run s).Sat (fun _ s' => Scanned call s s') (BadString call)

theorem Scans.bind
    {α β : Type}
    {x : PrintM α}
    {f : α → PrintM β}
    (hx : Scans call x s)
    (hf : ∀ a s', Scanned call s s' → Scans call (f a) s') :
    Scans call (x >>= f) s := by
  refine EStateM.Result.Sat.bind hx ?_
  intro a s' hScanned
  refine (hf a s' hScanned).imp ?_ (fun _ _ h => h)
  intro b s'' hNext
  exact hScanned.trans hNext

theorem scans_pure
    {α : Type}
    (a : α)
    (hLe : s.fmt ≤ call.fmt.chars.length) :
    Scans call (pure a) s :=
  Scanned.refl hLe

/- A program that first looks at the next character. -/
theorem scans_peek_bind
    {α : Type}
    {f : UInt8 → PrintM α}
    (hLe : s.fmt ≤ call.fmt.chars.length)
    (hf : Scans call (f (charAt call s.fmt)) s) :
    Scans call (peek call >>= f) s := by
  unfold Scans
  rw [EStateM.bind_of_ok (run_peek hLe)]
  exact hf

/- A program that first passes a character. -/
theorem scans_advance_bind
    {α : Type}
    {f : Unit → PrintM α}
    (hLt : s.fmt < call.fmt.chars.length)
    (hStar : charAt call s.fmt ≠ star)
    (hf : Scans call (f ()) s.next) :
    Scans call (advance >>= f) s := by
  unfold Scans
  rw [EStateM.bind_of_ok (run_advance s)]
  refine EStateM.Result.Sat.imp hf ?_ (fun _ _ h => h)
  intro a s' hNext
  exact (scanned_next hLt hStar).trans hNext

/- A program that first takes an argument. -/
theorem scans_vaArg_bind
    {α : Type}
    {f : UInt32 → PrintM α}
    (hLe : s.fmt ≤ call.fmt.chars.length)
    (hf : Scans call (f (call.args s.arg)) s.taken) :
    Scans call (vaArg call >>= f) s := by
  unfold Scans
  rw [EStateM.bind_of_ok (run_vaArg call s)]
  refine EStateM.Result.Sat.imp hf ?_ (fun _ _ h => h)
  intro a s' hNext
  exact (scanned_taken hLe).trans hNext

------------------------------------------------------------
-- The Parts of the Scanner
------------------------------------------------------------

theorem isDigit_ne_zero
    (hDigit : isDigit c = true) :
    c ≠ 0 := by
  rintro rfl
  cases hDigit

theorem isDigit_ne_star
    (hDigit : isDigit c = true) :
    c ≠ star := by
  rintro rfl
  cases hDigit

theorem flagOf_ne_zero
    {flag : UInt32}
    (hFlag : flagOf c = some flag) :
    c ≠ 0 := by
  rintro rfl
  cases hFlag

theorem flagOf_ne_star
    {flag : UInt32}
    (hFlag : flagOf c = some flag) :
    c ≠ star := by
  rintro rfl
  cases hFlag

theorem skipAtoi_scans
    {bound : Nat}
    (i : Int32)
    (hLe : s.fmt ≤ call.fmt.chars.length)
    (hBound : call.fmt.chars.length < s.fmt + bound) :
    Scans call (skipAtoi call bound i) s := by
  induction bound generalizing i s with
  | zero => omega
  | succ bound ih =>
      rw [skipAtoi]
      refine scans_peek_bind hLe ?_
      split
      · next hDigit =>
          have hLt :=
            charAt_ne_zero_iff.mp (isDigit_ne_zero hDigit)
          have hMore :
              call.fmt.chars.length <
                s.next.fmt + bound := by
            change _ < s.fmt + 1 + bound
            omega
          exact scans_advance_bind hLt
            (isDigit_ne_star hDigit) (ih _ hLt hMore)
      · exact scans_pure i hLe

/- The percent sign, or a flag, is at `fmt`. -/
theorem processFlags_scans
    {bound : Nat}
    (flags : UInt32)
    (hLt : s.fmt < call.fmt.chars.length)
    (hStar : charAt call s.fmt ≠ star)
    (hBound : call.fmt.chars.length ≤ s.fmt + bound) :
    Scans call (processFlags call bound flags) s := by
  induction bound generalizing flags s with
  | zero => omega
  | succ bound ih =>
      rw [processFlags]
      refine scans_advance_bind hLt hStar ?_
      refine scans_peek_bind hLt ?_
      split
      · next flag hFlag =>
          have hNext :=
            charAt_ne_zero_iff.mp (flagOf_ne_zero hFlag)
          have hMore :
              call.fmt.chars.length ≤
                s.next.fmt + bound := by
            change _ ≤ s.fmt + 1 + bound
            omega
          exact ih _ hNext (flagOf_ne_star hFlag) hMore
      · exact scans_pure _ hLt

variable {bound : Nat}

theorem getFieldWidth_scans
    (flags : UInt32)
    (hLe : s.fmt ≤ call.fmt.chars.length)
    (hBound : call.fmt.chars.length < bound) :
    Scans call (getFieldWidth call bound flags) s := by
  unfold getFieldWidth
  refine scans_peek_bind hLe ?_
  split
  · refine (skipAtoi_scans 0 hLe (by omega)).bind ?_
    intro fieldWidth s' hScanned
    exact scans_pure _ hScanned.le_length
  · split
    · refine scans_vaArg_bind hLe ?_
      split
      · exact scans_pure _ hLe
      · exact scans_pure _ hLe
    · exact scans_pure _ hLe

theorem precisionAfterDot_scans
    (hLe : s.fmt ≤ call.fmt.chars.length)
    (hBound : call.fmt.chars.length < bound) :
    Scans call (precisionAfterDot call bound) s := by
  unfold precisionAfterDot
  refine scans_peek_bind hLe ?_
  split
  · exact skipAtoi_scans 0 hLe (by omega)
  · split
    · exact scans_vaArg_bind hLe (scans_pure _ hLe)
    · exact scans_pure _ hLe

theorem getPrecision_scans
    (hLe : s.fmt ≤ call.fmt.chars.length)
    (hBound : call.fmt.chars.length < bound) :
    Scans call (getPrecision call bound) s := by
  unfold getPrecision
  refine scans_peek_bind hLe ?_
  split
  · next hDot =>
      have hLt : s.fmt < call.fmt.chars.length := by
        rw [← charAt_ne_zero_iff, hDot]
        decide
      have hStar : charAt call s.fmt ≠ star := by
        rw [hDot]
        decide
      have hNext : s.next.fmt ≤ call.fmt.chars.length := hLt
      refine scans_advance_bind hLt hStar ?_
      refine (precisionAfterDot_scans hNext hBound).bind ?_
      intro precision s' hScanned
      exact scans_pure _ hScanned.le_length
  · exact scans_pure _ hLe

theorem getQualifier_scans
    (hLe : s.fmt ≤ call.fmt.chars.length) :
    Scans call (getQualifier call) s := by
  unfold getQualifier
  refine scans_peek_bind hLe ?_
  split
  · next hLetter =>
      have hLt : s.fmt < call.fmt.chars.length := by
        rw [← charAt_ne_zero_iff]
        intro hZero
        rw [hZero] at hLetter
        revert hLetter
        decide
      have hStar : charAt call s.fmt ≠ star := by
        intro hStar
        rw [hStar] at hLetter
        revert hLetter
        decide
      exact scanned_next hLt hStar
  · exact scans_pure _ hLe

------------------------------------------------------------
-- What Is Written
------------------------------------------------------------

variable {x : UInt8}
variable {mem : UInt32 → UInt8}

theorem mem_padLoop
    {size : Int32}
    {str : List UInt8}
    (hx : x ∈ (padLoop c size str).2) :
    x ∈ str ∨ x = c := by
  rw [padLoop_eq, List.mem_append] at hx
  exact hx.imp_right List.eq_of_mem_replicate

theorem mem_zeroLoop
    {i precision : Int32}
    {str : List UInt8}
    (hx : x ∈ zeroLoop i precision str) :
    x ∈ str ∨ x = zero := by
  rw [zeroLoop_eq, List.mem_append] at hx
  exact hx.imp_right List.eq_of_mem_replicate

theorem mem_copyLoop
    {tmp str : List UInt8}
    (hTmp : tmp.length ≤ 32)
    (hx : x ∈ copyLoop tmp (Int32.ofNat tmp.length) str) :
    x ∈ str ∨ x ∈ tmp := by
  have hCount : (Int32.ofNat tmp.length).toInt = tmp.length :=
    Int32.toInt_ofNat_of_lt (by omega)
  rw [copyLoop_eq _ _ _ (by omega), List.mem_append] at hx
  refine hx.imp_right ?_
  intro hx
  exact List.mem_of_mem_take (List.mem_reverse.mp hx)

theorem mem_writeField
    {type : UInt32}
    {sign : UInt8}
    {special tmp : List UInt8}
    {size precision : Int32}
    (hTmp : tmp.length ≤ 32)
    (hx :
      x ∈ writeField type c sign special tmp size precision) :
    x = space ∨ (x = sign ∧ sign ≠ 0) ∨ x ∈ special ∨ x = c ∨
      x = zero ∨ x ∈ tmp := by
  have hFirst {size : Int32} {str : List UInt8}
      (hx : x ∈ (if Flagged type (ZEROPAD ||| LEFT)
        then (size, str) else padLoop space size str).2) :
      x ∈ str ∨ x = space := by
    split at hx
    · exact Or.inl hx
    · exact mem_padLoop hx
  have hSign {str : List UInt8}
      (hx : x ∈ if sign ≠ 0 then str ++ [sign] else str) :
      x ∈ str ∨ (x = sign ∧ sign ≠ 0) := by
    split at hx
    · next hNe =>
        rcases List.mem_append.mp hx with hx | hx
        · exact Or.inl hx
        · exact Or.inr ⟨List.mem_singleton.mp hx, hNe⟩
    · exact Or.inl hx
  have hSecond {size : Int32} {str : List UInt8}
      (hx : x ∈ (if Flagged type LEFT
        then (size, str) else padLoop c size str).2) :
      x ∈ str ∨ x = c := by
    split at hx
    · exact Or.inl hx
    · exact mem_padLoop hx
  -- from the last loop to the first
  rcases mem_padLoop hx with hx | hx
  · rcases mem_copyLoop hTmp hx with hx | hx
    · rcases mem_zeroLoop hx with hx | hx
      · rcases hSecond hx with hx | hx
        · rcases List.mem_append.mp hx with hx | hx
          · rcases hSign hx with hx | hx
            · rcases hFirst hx with hx | hx
              · cases hx
              · exact Or.inl hx
            · exact Or.inr (Or.inl hx)
          · exact Or.inr (Or.inr (Or.inl hx))
        · exact Or.inr (Or.inr (Or.inr (Or.inl hx)))
      · exact Or.inr (Or.inr (Or.inr (Or.inr (Or.inl hx))))
    · exact Or.inr (Or.inr (Or.inr (Or.inr (Or.inr hx))))
  · exact Or.inl hx

/- A base that `number` takes gives a number and no star. -/
theorem number_no_star
    (num base size precision : Int32)
    (type : UInt32)
    (hBase : ¬ (base < 2 ∨ base > 36)) :
    ∃ cs, number num base size precision type = some cs ∧
      star ∉ cs := by
  have hTwo := (toNat_base hBase).2.1
  have hWrites :=
    tmp_writes
      (if Flagged (cleared type) SIGN ∧ num < 0
        then -num else num) type hBase
  have hNumeral := (hWrites.isNumeral (by omega)).2
  have hDigits : star ∉ digitsOf type := by
    unfold digitsOf
    split
    · decide
    · decide
  have hSpecial : star ∉ specialPart base type := by
    unfold specialPart
    split
    · split
      · decide
      · split
        · split
          · decide
          · decide
        · exact List.not_mem_nil
    · exact List.not_mem_nil
  have hSign : star ≠ signOf num (cleared type) := by
    unfold signOf
    split
    · decide
    · split
      · decide
      · split
        · decide
        · decide
  have hPad :
      star ≠
        if Flagged (cleared type) ZEROPAD then zero
        else space := by
    split
    · decide
    · decide
  rw [toNat_magnitude, magnitude_cleared] at hWrites
  have hTmp := tmp_length (by omega) hWrites
  rw [← specialPart_eq] at hSpecial
  unfold number
  rw [dif_neg hBase]
  refine ⟨_, rfl, ?_⟩
  intro hx
  rcases mem_writeField hTmp hx with h | h | h | h | h | h
  · cases h
  · exact hSign h.1
  · exact hSpecial h
  · exact hPad h
  · cases h
  · exact hDigits
      (List.mem_of_mem_take
        (hNumeral _ (List.mem_reverse.mpr h)))

theorem mem_widthLoop
    {size : Int32}
    {str : List UInt8}
    (hx : x ∈ (widthLoop size str).2) :
    x ∈ str ∨ x = space := by
  induction size, str using widthLoop.induct with
  | case1 size str hMore ih =>
      rw [widthLoop, if_pos hMore] at hx
      rcases ih hx with hx | hx
      · rw [List.mem_append, List.mem_singleton] at hx
        exact hx
      · exact Or.inr hx
  | case2 size str hMore =>
      rw [widthLoop, if_neg hMore] at hx
      exact Or.inl hx

theorem mem_fillLoop
    {len size : Int32}
    {str : List UInt8}
    (hx : x ∈ (fillLoop len size str).2) :
    x ∈ str ∨ x = space := by
  induction size, str using fillLoop.induct len with
  | case1 size str hMore ih =>
      rw [fillLoop, if_pos hMore] at hx
      rcases ih hx with hx | hx
      · rw [List.mem_append, List.mem_singleton] at hx
        exact hx
      · exact Or.inr hx
  | case2 size str hMore =>
      rw [fillLoop, if_neg hMore] at hx
      exact Or.inl hx

theorem mem_textLoop
    {len i : Int32}
    {a : UInt32}
    {str : List UInt8}
    (hx : x ∈ textLoop mem len i a str) :
    x ∈ str ∨ ∃ b, x = mem b := by
  induction i, a, str using textLoop.induct mem len with
  | case1 i a str hMore ih =>
      rw [textLoop, if_pos hMore] at hx
      rcases ih hx with hx | hx
      · rw [List.mem_append, List.mem_singleton] at hx
        exact hx.imp_right fun h => ⟨a, h⟩
      · exact Or.inr hx
  | case2 i a str hMore =>
      rw [textLoop, if_neg hMore] at hx
      exact Or.inl hx

theorem mem_charField
    {flags : UInt32}
    {width : Int32}
    (hx : x ∈ charField flags width c) :
    x = space ∨ x = c := by
  have hFirst
      (hx : x ∈ (if Flagged flags LEFT then (width, [])
        else widthLoop width []).2) :
      x = space := by
    split at hx
    · cases hx
    · rcases mem_widthLoop hx with hx | hx
      · cases hx
      · exact hx
  rcases mem_widthLoop hx with hx | hx
  · rcases List.mem_append.mp hx with hx | hx
    · exact Or.inl (hFirst hx)
    · exact Or.inr (List.mem_singleton.mp hx)
  · exact Or.inl hx

theorem mem_stringField
    {a flags : UInt32}
    {width precision len : Int32}
    (hx :
      x ∈ stringField mem a flags width precision len) :
    x = space ∨ ∃ b, x = mem b := by
  have hFirst {len : Int32}
      (hx : x ∈ (if Flagged flags LEFT then (width, [])
        else fillLoop len width []).2) :
      x = space := by
    split at hx
    · cases hx
    · rcases mem_fillLoop hx with hx | hx
      · cases hx
      · exact hx
  rcases mem_fillLoop hx with hx | hx
  · rcases mem_textLoop hx with hx | hx
    · exact Or.inl (hFirst hx)
    · exact Or.inr hx
  · exact Or.inl hx

theorem endLoop_none
    {bound : Nat}
    {ptr : UInt32}
    (hNone : endLoop mem bound ptr = none)
    {k : Nat}
    (hk : k < bound) :
    mem (ptr + UInt32.ofNat k) ≠ 0 := by
  induction bound generalizing ptr k with
  | zero => omega
  | succ bound ih =>
      rw [endLoop] at hNone
      split at hNone
      · next hByte =>
          cases k with
          | zero =>
              have hZero : ptr + UInt32.ofNat 0 = ptr :=
                UInt32.add_zero ptr
              rw [hZero]
              exact hByte
          | succ k =>
              have hNext :
                  ptr + UInt32.ofNat (k + 1) =
                    ptr + 1 + UInt32.ofNat k := by
                rw [UInt32.ofNat_add, UInt32.add_assoc,
                  UInt32.add_comm 1]
                rfl
              rw [hNext]
              exact ih hNone (by omega)
      · cases hNone

/- A string without a length has no end. -/
theorem strlen_none
    {str : UInt32}
    (hNone : strlen mem str = none)
    (a : UInt32) :
    mem (str + a) ≠ 0 := by
  unfold strlen at hNone
  rw [Option.map_eq_none_iff] at hNone
  have hByte := endLoop_none hNone a.toNat_lt
  rw [UInt32.ofNat_toNat] at hByte
  exact hByte

------------------------------------------------------------
-- What a Conversion Writes
------------------------------------------------------------

/- Neither the characters nor the strings have a star. -/
def Plain (call : Call) : Prop :=
  (∀ i, (call.args i).toUInt8 ≠ star) ∧
    ∀ a, call.mem a ≠ star

/-
  From `s` to `s'` the conversion at `fmt` was put.  In the
  middle of a directive that ends the format, `fmt` steps
  back.
-/
structure Converted
    (call : Call)
    (s s' : State)
    (cs : List UInt8) : Prop where
  wrote : Wrote s s' cs
  fmt_eq : s'.fmt = min s.fmt (call.fmt.chars.length - 1)
  stars_eq : Plain call →
    stars cs + stars (rest call (s'.fmt + 1)) =
      stars (rest call s.fmt)

theorem converted_of_wrote
    (hLt : s.fmt < call.fmt.chars.length)
    (hStar : charAt call s.fmt ≠ star)
    (hWrote : Wrote s s' cs)
    (hFmt : s'.fmt = s.fmt)
    (hNone : Plain call → star ∉ cs) :
    Converted call s s' cs where
  wrote := hWrote
  fmt_eq := by omega
  stars_eq := by
    intro hPlain
    have hRest :
        stars (charAt call s.fmt :: rest call (s.fmt + 1)) =
          stars (rest call (s.fmt + 1)) :=
      List.count_cons_of_ne hStar
    have hNoStar : stars cs = 0 :=
      List.count_eq_zero.mpr (hNone hPlain)
    rw [hFmt, rest_eq hLt, hRest, hNoStar, Nat.zero_add]

/- A program that puts the conversion at `fmt`. -/
def Converts (call : Call) (x : PrintM Unit) (s : State) : Prop :=
  (x.run s).Sat (fun _ s' => ∃ cs, Converted call s s' cs)
    (BadString call)

theorem puts_converts
    (hLt : s.fmt < call.fmt.chars.length)
    (hStar : charAt call s.fmt ≠ star)
    (hNone : Plain call → star ∉ cs) :
    Converts call (puts cs) s := by
  rcases run_puts cs s with ⟨s', hRun, hWrote, hFmt⟩
  unfold Converts
  rw [hRun]
  exact ⟨cs, converted_of_wrote hLt hStar hWrote hFmt hNone⟩

theorem putNumber_converts
    (num base size precision : Int32)
    (type : UInt32)
    (hLt : s.fmt < call.fmt.chars.length)
    (hStar : charAt call s.fmt ≠ star)
    (hBase : ¬ (base < 2 ∨ base > 36)) :
    Converts call (putNumber num base size precision type)
      s := by
  rcases number_no_star num base size precision type hBase with
    ⟨cs, hNumber, hNone⟩
  unfold putNumber
  rw [hNumber]
  exact puts_converts hLt hStar fun _ => hNone

/- A program that first takes an argument. -/
theorem converts_vaArg_bind
    {f : UInt32 → PrintM Unit}
    (hf : Converts call (f (call.args s.arg)) s.taken) :
    Converts call (vaArg call >>= f) s := by
  unfold Converts
  rw [EStateM.bind_of_ok (run_vaArg call s)]
  refine EStateM.Result.Sat.imp hf ?_ (fun _ _ h => h)
  rintro _ s' ⟨cs, hWrote, hFmt, hStars⟩
  exact ⟨cs, ⟨hWrote.str_eq, hWrote.bytes_eq⟩, hFmt, hStars⟩

theorem putString_converts
    (flags : UInt32)
    (width precision : Int32)
    (hLt : s.fmt < call.fmt.chars.length)
    (hStar : charAt call s.fmt ≠ star) :
    Converts call (putString call flags width precision)
      s := by
  have hLt' : s.taken.fmt < call.fmt.chars.length := hLt
  refine converts_vaArg_bind ?_
  split
  · refine puts_converts hLt' hStar ?_
    intro hPlain hMem
    rcases mem_stringField hMem with h | ⟨b, h⟩
    · cases h
    · exact hPlain.2 b h.symm
  · next hNone =>
      exact ⟨s.arg, rfl, fun a => strlen_none hNone a⟩

/- The default case, also at the end of the format. -/
theorem putOther_converts
    (hNil : call.fmt.chars ≠ [])
    (hLe : s.fmt ≤ call.fmt.chars.length) :
    Converts call (putOther (charAt call s.fmt)) s := by
  have hPos : 0 < call.fmt.chars.length :=
    List.length_pos_iff.mpr hNil
  rcases run_puts
      (if charAt call s.fmt ≠ percent then [percent] else [])
      s with
    ⟨t, hRun, hWrote, hFmt⟩
  have hPercent :
      stars (if charAt call s.fmt ≠ percent then [percent]
        else []) = 0 := by
    split
    · decide
    · rfl
  unfold Converts putOther
  rw [EStateM.bind_of_ok hRun]
  split
  · next hNe =>
      have hLt := charAt_ne_zero_iff.mp hNe
      refine
        ⟨_, hWrote.trans (wrote_afterPut t _), ?_, ?_⟩
      · change t.fmt = _
        omega
      · intro _
        change _ + stars (rest call (t.fmt + 1)) = _
        rw [hFmt, rest_eq hLt]
        unfold stars at hPercent ⊢
        rw [List.count_append, hPercent, Nat.zero_add,
          ← List.count_append]
        rfl
  · next hZero =>
      have hEnd : s.fmt = call.fmt.chars.length := by
        have hNot : ¬ s.fmt < call.fmt.chars.length :=
          fun h => hZero (charAt_ne_zero_iff.mpr h)
        omega
      refine ⟨_, ⟨hWrote.str_eq, hWrote.bytes_eq⟩, ?_, ?_⟩
      · change t.fmt - 1 = _
        omega
      · intro _
        have hLast :
            t.fmt - 1 + 1 = call.fmt.chars.length := by
          omega
        change _ + stars (rest call (t.fmt - 1 + 1)) = _
        rw [hPercent, hLast, hEnd, Nat.zero_add]

/- Each base in the table is one that `number` takes. -/
theorem base_taken
    {base : Int32}
    {added : UInt32}
    (h : conversionOf c = .number base added) :
    ¬ (base < 2 ∨ base > 36) := by
  have hTable :
      conversions.all fun entry =>
        match entry.2 with
        | .number base _ => ¬ (base < 2 ∨ base > 36)
        | _ => true := by
    decide
  unfold conversionOf at h
  cases hLookup : conversions.lookup c with
  | none =>
      rw [hLookup] at h
      cases h
  | some conversion =>
      rw [hLookup] at h
      have hConversion : conversion = .number base added := h
      rcases List.lookup_eq_some_iff.mp hLookup with
        ⟨before, after, hSplit, _⟩
      have hEntry :=
        List.all_eq_true.mp hTable (c, conversion) (by
          rw [hSplit]
          exact List.mem_append_right _ List.mem_cons_self)
      rw [hConversion] at hEntry
      exact of_decide_eq_true hEntry

/- Whatever is at `fmt`, and nothing when it is the end. -/
theorem putConversion_converts
    (flags : UInt32)
    (width precision : Int32)
    (hNil : call.fmt.chars ≠ [])
    (hLe : s.fmt ≤ call.fmt.chars.length) :
    Converts call
      (putConversion call flags width precision
        (charAt call s.fmt)) s := by
  have hLt (h : conversionOf (charAt call s.fmt) ≠ .other) :
      s.fmt < call.fmt.chars.length := by
    rw [← charAt_ne_zero_iff]
    intro hZero
    rw [hZero] at h
    exact h rfl
  have hStar (h : conversionOf (charAt call s.fmt) ≠ .other) :
      charAt call s.fmt ≠ star := by
    intro hStar
    rw [hStar] at h
    exact h rfl
  have hBase {base : Int32} {added : UInt32}
      (h : conversionOf (charAt call s.fmt) =
        .number base added) :
      ¬ (base < 2 ∨ base > 36) := base_taken h
  unfold putConversion
  split
  · next hConv =>
      have hNot : conversionOf (charAt call s.fmt) ≠ .other := by
        rw [hConv]
        exact Conversion.noConfusion
      refine converts_vaArg_bind ?_
      refine puts_converts (hLt hNot) (hStar hNot) ?_
      intro hPlain hMem
      rcases mem_charField hMem with h | h
      · cases h
      · exact hPlain.1 _ h.symm
  · next hConv =>
      have hNot : conversionOf (charAt call s.fmt) ≠ .other := by
        rw [hConv]
        exact Conversion.noConfusion
      exact putString_converts _ _ _ (hLt hNot) (hStar hNot)
  · next hConv =>
      have hNot : conversionOf (charAt call s.fmt) ≠ .other := by
        rw [hConv]
        exact Conversion.noConfusion
      have hLt' : s.taken.fmt < call.fmt.chars.length :=
        hLt hNot
      refine converts_vaArg_bind ?_
      split
      · exact putNumber_converts _ _ _ _ _ hLt' (hStar hNot)
          (by decide)
      · exact putNumber_converts _ _ _ _ _ hLt' (hStar hNot)
          (by decide)
  · next base added hConv =>
      have hNot : conversionOf (charAt call s.fmt) ≠ .other := by
        rw [hConv]
        exact Conversion.noConfusion
      have hLt' : s.taken.fmt < call.fmt.chars.length :=
        hLt hNot
      refine converts_vaArg_bind ?_
      exact putNumber_converts _ _ _ _ _ hLt' (hStar hNot)
        (hBase hConv)
  · next hConv =>
      have hNot : conversionOf (charAt call s.fmt) ≠ .other := by
        rw [hConv]
        exact Conversion.noConfusion
      refine converts_vaArg_bind ?_
      refine ⟨[], converted_of_wrote (hLt hNot) (hStar hNot)
        (Wrote.of_same rfl ?_) rfl
        fun _ => List.not_mem_nil⟩
      unfold State.bytes
      rw [List.filterMap_append]
      exact List.append_nil _
  · exact putOther_converts hNil hLe

------------------------------------------------------------
-- The Loop over the Format
------------------------------------------------------------

/-
  From `s` to `s'` the bytes `cs` were put, and `s'` is
  further on.
-/
structure Passed
    (call : Call)
    (s s' : State)
    (cs : List UInt8) : Prop where
  wrote : Wrote s s' cs
  lt : s.fmt < s'.fmt
  le_length : s'.fmt ≤ call.fmt.chars.length
  stars_eq : Plain call →
    stars cs + stars (rest call s'.fmt) =
      stars (rest call s.fmt)

theorem directive_converts
    (hPercent : charAt call s.fmt = percent)
    (hBound : call.fmt.chars.length < bound) :
    ((directive call bound).run s).Sat
      (fun _ s' => ∃ cs, Passed call s s'.next cs)
      (BadString call) := by
  have hLt : s.fmt < call.fmt.chars.length := by
    rw [← charAt_ne_zero_iff, hPercent]
    decide
  have hStar : charAt call s.fmt ≠ star := by
    rw [hPercent]
    decide
  have hNil : call.fmt.chars ≠ [] :=
    List.ne_nil_of_length_pos (by omega)
  unfold directive
  refine EStateM.Result.Sat.bind
    (processFlags_scans 0 hLt hStar (by omega)) ?_
  intro flags s₁ h₁
  refine EStateM.Result.Sat.bind
    (getFieldWidth_scans flags h₁.le_length hBound) ?_
  rintro ⟨fieldWidth, flags⟩ s₂ h₂
  refine EStateM.Result.Sat.bind
    (getPrecision_scans h₂.le_length hBound) ?_
  intro precision s₃ h₃
  refine EStateM.Result.Sat.bind
    (getQualifier_scans h₃.le_length) ?_
  intro _ s₄ h₄
  have hScanned := ((h₁.trans h₂).trans h₃).trans h₄
  have hLe := hScanned.le
  rw [EStateM.bind_of_ok (run_peek h₄.le_length)]
  refine EStateM.Result.Sat.imp
    (putConversion_converts flags fieldWidth precision hNil
      h₄.le_length) ?_ (fun _ _ h => h)
  rintro _ s' ⟨cs, hWrote, hFmt, hStars⟩
  refine ⟨cs, hScanned.wrote.trans hWrote.next, ?_, ?_, ?_⟩
  · change s.fmt < s'.fmt + 1
    omega
  · change s'.fmt + 1 ≤ _
    omega
  · intro hPlain
    exact (hStars hPlain).trans hScanned.stars_eq

theorem scanLoop_writes
    {fuel : Nat}
    (hLe : s.fmt ≤ call.fmt.chars.length)
    (hFuel : call.fmt.chars.length < s.fmt + fuel)
    (hBound : call.fmt.chars.length < bound) :
    ((scanLoop call bound fuel).run s).Sat
      (fun _ s' => ∃ cs, Wrote s s' cs ∧
        (Plain call → stars cs = stars (rest call s.fmt)))
      (BadString call) := by
  induction fuel generalizing s with
  | zero => omega
  | succ fuel ih =>
      -- one more pass, after what was put at `s`
      have hMore {s' : State} {cs : List UInt8}
          (hPassed : Passed call s s' cs) :
          ((scanLoop call bound fuel).run s').Sat
            (fun _ s'' => ∃ ds, Wrote s s'' ds ∧
              (Plain call →
                stars ds = stars (rest call s.fmt)))
            (BadString call) := by
        have hLt := hPassed.lt
        refine (ih hPassed.le_length (by omega)).imp ?_
          (fun _ _ h => h)
        rintro _ s'' ⟨ds, hWrote, hStars⟩
        refine ⟨cs ++ ds, hPassed.wrote.trans hWrote, ?_⟩
        intro hPlain
        rw [← hPassed.stars_eq hPlain, ← hStars hPlain]
        exact List.count_append
      rw [scanLoop, EStateM.bind_of_ok (run_peek hLe)]
      split
      · next hZero =>
          have hNot : ¬ s.fmt < call.fmt.chars.length :=
            fun h => charAt_ne_zero_iff.mpr h hZero
          have hEnd : s.fmt = call.fmt.chars.length := by
            omega
          refine ⟨[], Wrote.of_same rfl rfl, ?_⟩
          intro _
          rw [hEnd, stars_rest_length]
          rfl
      · next hNe =>
          have hLt := charAt_ne_zero_iff.mp hNe
          split
          · have hPassed :
                Passed call s
                  (s.afterPut (charAt call s.fmt)).next
                  [charAt call s.fmt] := by
              refine ⟨(wrote_afterPut s _).next,
                Nat.lt_succ_self _, hLt, ?_⟩
              intro _
              rw [rest_eq hLt]
              exact List.count_append.symm
            exact hMore hPassed
          · next hPercent =>
              refine EStateM.Result.Sat.bind
                (directive_converts (not_not.mp hPercent)
                  hBound) ?_
              rintro _ s' ⟨cs, hPassed⟩
              exact hMore hPassed

/-
  The output `out` is at `buf`, byte by byte and with a null
  byte right after it, and `n` is its length as an `int`.
-/
structure Written
    (call : Call)
    (n : Int32)
    (s : State)
    (out : List UInt8) : Prop where
  bytes_eq : s.bytes = bytesFrom call.buf (out ++ [0])
  length_eq : n = Int32.ofNat out.length
  toInt_eq : out.length < 2 ^ 31 → n.toInt = out.length

theorem toInt32_ofNat_sub
    (buf : UInt32)
    (n : Nat) :
    (buf + UInt32.ofNat n - buf).toInt32 = Int32.ofNat n := by
  rw [UInt32.add_comm, UInt32.add_sub_cancel]
  rfl

theorem vsprintf_sat
    (call : Call)
    (more : Nat) :
    ((vsprintf call
        (call.fmt.chars.length + 1 + more)).run
          call.start).Sat
      (fun n s => ∃ out, Written call n s out ∧
        (Plain call → stars out = stars call.fmt.chars))
      (BadString call) := by
  unfold vsprintf
  refine EStateM.Result.Sat.bind
    (scanLoop_writes (s := call.start) (Nat.zero_le _)
      (by omega) (by omega)) ?_
  rintro _ s ⟨out, hWrote, hStars⟩
  have hLength :
      (s.str - call.buf).toInt32 = Int32.ofNat out.length := by
    rw [hWrote.str_eq]
    exact toInt32_ofNat_sub _ _
  refine ⟨out, ⟨?_, hLength, ?_⟩, hStars⟩
  · have hEnd := hWrote.trans (wrote_afterPut s 0)
    exact hEnd.bytes_eq
  · intro hShort
    change (s.str - call.buf).toInt32.toInt = _
    rw [hLength]
    exact Int32.toInt_ofNat_of_lt hShort

/-
  For every format, every sequence of arguments and every
  memory, with the length of the format as the bound of the
  loops: the program never reads behind the end of the
  format and never uses up a bound, and it stops only at an
  argument of `%s` that is no string.
-/
theorem vsprintf_writes
    (call : Call)
    (more : Nat) :
    ((vsprintf call
        (call.fmt.chars.length + 1 + more)).run
          call.start).Sat
      (fun n s => ∃ out, Written call n s out)
      (BadString call) := by
  refine (vsprintf_sat call more).imp ?_ (fun _ _ h => h)
  rintro n s ⟨out, hWritten, _⟩
  exact ⟨out, hWritten⟩

end Vsprintf

end SosKernel
