import SosKernel.Vsprintf.Scanner

/-
  Widths and precisions of `vsprintf` that are taken from an
  argument.

  The formats are read once more here, as the comments of
  the source have them: a star is part of its directive.

  Main declarations:
    * `Directive`, `pieces`: how a format is to be read
    * `expand`: a format without its stars
    * `SameOutput`, `Starred`
    * `same_output_iff`
-/

------------------------------------------------------------
-- Directives
------------------------------------------------------------

namespace SosKernel

namespace Vsprintf

/- A width or a precision, as it is written. -/
inductive Amount where
| absent
| digits (ds : List UInt8)
| star
deriving DecidableEq, Repr

/- `precision` is what follows the dot, if there is one. -/
structure Directive where
  flags : List UInt8
  width : Amount
  precision : Option Amount
  qualifier : List UInt8
  conversion : List UInt8
deriving DecidableEq, Repr

inductive Piece where
| char (c : UInt8)
| directive (d : Directive)
deriving DecidableEq, Repr

def Amount.text : Amount → List UInt8
| .absent => []
| .digits ds => ds
| .star => [Vsprintf.star]

def precisionText (text : Amount → List UInt8) :
    Option Amount → List UInt8
| none => []
| some amount => dot :: text amount

def Directive.text (d : Directive) : List UInt8 :=
  percent :: (d.flags ++ d.width.text ++
    precisionText Amount.text d.precision ++ d.qualifier ++
    d.conversion)

def Piece.text : Piece → List UInt8
| .char c => [c]
| .directive d => d.text

/- The width or the precision is a star. -/
def Directive.Starred (d : Directive) : Prop :=
  d.width = .star ∨ d.precision = some .star

------------------------------------------------------------
-- Reading a Format
------------------------------------------------------------

def isFlag (c : UInt8) : Bool := (flagOf c).isSome

def isQualifier (c : UInt8) : Bool :=
  c = letter 'h' ∨ c = letter 'l' ∨ c = letter 'L'

def readAmount : List UInt8 → Amount × List UInt8
| [] => (.absent, [])
| c :: cs =>
    if isDigit c then
      (.digits ((c :: cs).takeWhile isDigit),
        (c :: cs).dropWhile isDigit)
    else if c = star then (.star, cs)
    else (.absent, c :: cs)

def readPrecision :
    List UInt8 → Option Amount × List UInt8
| [] => (none, [])
| c :: cs =>
    if c = dot then
      (some (readAmount cs).1, (readAmount cs).2)
    else (none, c :: cs)

def readQualifier : List UInt8 → List UInt8 × List UInt8
| [] => ([], [])
| c :: cs =>
    if isQualifier c then ([c], cs) else ([], c :: cs)

/- The directive whose percent sign is before `cs`. -/
def readDirective
    (cs : List UInt8) : Directive × List UInt8 :=
  let width := readAmount (cs.dropWhile isFlag)
  let precision := readPrecision width.2
  let qualifier := readQualifier precision.2
  ({ flags := cs.takeWhile isFlag
     width := width.1
     precision := precision.1
     qualifier := qualifier.1
     conversion := qualifier.2.take 1 },
    qualifier.2.drop 1)

theorem text_readAmount (cs : List UInt8) :
    (readAmount cs).1.text ++ (readAmount cs).2 = cs := by
  unfold readAmount
  split
  · rfl
  · split
    · exact List.takeWhile_append_dropWhile
    · split
      · next hStar =>
          rw [hStar]
          rfl
      · rfl

theorem text_readPrecision (cs : List UInt8) :
    precisionText Amount.text (readPrecision cs).1 ++
      (readPrecision cs).2 = cs := by
  unfold readPrecision
  split
  · rfl
  · next c cs =>
      split
      · next hDot =>
          rw [hDot]
          exact congrArg (dot :: ·) (text_readAmount cs)
      · rfl

theorem text_readQualifier (cs : List UInt8) :
    (readQualifier cs).1 ++ (readQualifier cs).2 = cs := by
  unfold readQualifier
  split
  · rfl
  · split
    · rfl
    · rfl

theorem text_readDirective (cs : List UInt8) :
    (readDirective cs).1.text ++ (readDirective cs).2 =
      percent :: cs := by
  have hWidth := text_readAmount (cs.dropWhile isFlag)
  have hPrecision :=
    text_readPrecision (readAmount (cs.dropWhile isFlag)).2
  have hQualifier :=
    text_readQualifier
      (readPrecision (readAmount (cs.dropWhile isFlag)).2).2
  unfold readDirective Directive.text
  dsimp only
  rw [List.cons_append, List.append_assoc,
    List.take_append_drop, List.append_assoc,
    hQualifier, List.append_assoc, hPrecision,
    List.append_assoc, hWidth,
    List.takeWhile_append_dropWhile]

theorem readDirective_length_le (cs : List UInt8) :
    (readDirective cs).2.length ≤ cs.length := by
  have hText :=
    congrArg List.length (text_readDirective cs)
  rw [List.length_append, Directive.text, List.length_cons,
    List.length_cons] at hText
  omega

/- The pieces of a format. -/
def pieces : List UInt8 → List Piece
| [] => []
| c :: cs =>
    if c = percent then
      .directive (readDirective cs).1 ::
        pieces (readDirective cs).2
    else
      .char c :: pieces cs
termination_by cs => cs.length
decreasing_by
  · exact Nat.lt_succ_of_le (readDirective_length_le cs)
  · exact Nat.lt_succ_self _

theorem text_pieces (cs : List UInt8) :
    (pieces cs).flatMap Piece.text = cs := by
  induction cs using pieces.induct with
  | case1 =>
      rw [pieces]
      rfl
  | case2 cs ih =>
      rw [pieces, if_pos rfl, List.flatMap_cons, ih]
      exact text_readDirective cs
  | case3 c cs hc ih =>
      rw [pieces, if_neg hc, List.flatMap_cons, ih]
      rfl

------------------------------------------------------------
-- Arguments in the Place of Stars
------------------------------------------------------------

abbrev Args : Type := Nat → UInt32

/- The words behind the first one. -/
def Args.tail (args : Args) : Args := fun i => args (i + 1)

def Args.cons (a : UInt32) (args : Args) : Args
| 0 => a
| i + 1 => args i

def decimal (n : Nat) : List UInt8 :=
  (Nat.toDigits 10 n).map letter

/- A negative width is a flag and its absolute value. -/
def widthText (a : Int32) : List UInt8 :=
  if a.toInt < 0 then minus :: decimal a.toInt.natAbs
  else decimal a.toInt.natAbs

/- A negative precision is 0. -/
def precisionOf (a : Int32) : List UInt8 :=
  if a.toInt < 0 then decimal 0 else decimal a.toInt.natAbs

/- The text with the argument in it, and what is left. -/
def Amount.filled
    (text : Int32 → List UInt8)
    (args : Args) : Amount → List UInt8 × Args
| .absent => ([], args)
| .digits ds => (ds, args)
| .star => (text (args 0).toInt32, args.tail)

def filledPrecision
    (args : Args) : Option Amount → List UInt8 × Args
| none => ([], args)
| some amount =>
    (dot :: (amount.filled precisionOf args).1,
      (amount.filled precisionOf args).2)

def Directive.filled
    (d : Directive)
    (args : Args) : List UInt8 × Args :=
  let width := d.width.filled widthText args
  let precision := filledPrecision width.2 d.precision
  (percent :: (d.flags ++ width.1 ++ precision.1 ++
    d.qualifier ++ d.conversion), precision.2)

/- The conversion itself takes an argument. -/
def Directive.takesArg (d : Directive) : Bool :=
  match d.conversion with
  | [] => false
  | c :: _ => conversionOf c ≠ .other

/-
  The format with the arguments of its stars in their place,
  and the other arguments.
-/
def expand : List Piece → Args → List UInt8 × Args
| [], args => ([], args)
| .char c :: ps, args =>
    (c :: (expand ps args).1, (expand ps args).2)
| .directive d :: ps, args =>
    let filled := d.filled args
    if d.takesArg then
      let more := expand ps filled.2.tail
      (filled.1 ++ more.1, more.2.cons (filled.2 0))
    else
      let more := expand ps filled.2
      (filled.1 ++ more.1, more.2)

------------------------------------------------------------
-- Formats without a Star
------------------------------------------------------------

variable {args : Args}
variable {d : Directive}

theorem Args.cons_tail (args : Args) :
    args.tail.cons (args 0) = args := by
  funext i
  cases i with
  | zero => rfl
  | succ i => rfl

theorem Amount.filled_of_ne
    {amount : Amount}
    (text : Int32 → List UInt8)
    (hNe : amount ≠ .star) :
    amount.filled text args = (amount.text, args) := by
  cases amount with
  | absent => rfl
  | digits ds => rfl
  | star => exact absurd rfl hNe

theorem filledPrecision_of_ne
    {precision : Option Amount}
    (hNe : precision ≠ some .star) :
    filledPrecision args precision =
      (precisionText Amount.text precision, args) := by
  cases precision with
  | none => rfl
  | some amount =>
      have hAmount : amount ≠ .star := by
        rintro rfl
        exact hNe rfl
      have hFilled :
          amount.filled precisionOf args = (amount.text, args) :=
        Amount.filled_of_ne precisionOf hAmount
      change
        (dot :: (amount.filled precisionOf args).1,
          (amount.filled precisionOf args).2) = _
      rw [hFilled]
      rfl

theorem Directive.filled_of_not_starred
    (hStars : ¬ d.Starred) :
    d.filled args = (d.text, args) := by
  have hWidth : d.width ≠ .star :=
    fun h => hStars (Or.inl h)
  have hPrecision : d.precision ≠ some .star :=
    fun h => hStars (Or.inr h)
  unfold Directive.filled Directive.text
  rw [Amount.filled_of_ne widthText hWidth]
  dsimp only
  rw [filledPrecision_of_ne hPrecision]

/- Some directive of the pieces has a star. -/
def StarredPieces (ps : List Piece) : Prop :=
  ∃ d, .directive d ∈ ps ∧ d.Starred

theorem expand_of_not_starred
    {ps : List Piece}
    (hStars : ¬ StarredPieces ps)
    (args : Args) :
    expand ps args = (ps.flatMap Piece.text, args) := by
  induction ps generalizing args with
  | nil => rfl
  | cons p ps ih =>
      have hRest : ¬ StarredPieces ps := by
        rintro ⟨d, hMem, hStarred⟩
        exact hStars ⟨d, List.mem_cons_of_mem p hMem, hStarred⟩
      cases p with
      | char c =>
          rw [expand, ih hRest]
          rfl
      | directive d =>
          have hHere : ¬ d.Starred :=
            fun h => hStars ⟨d, List.mem_cons_self, h⟩
          rw [expand, Directive.filled_of_not_starred hHere]
          dsimp only
          split
          · rw [ih hRest, args.cons_tail]
            rfl
          · rw [ih hRest]
            rfl

------------------------------------------------------------
-- Counting Stars
------------------------------------------------------------

theorem stars_append (cs ds : List UInt8) :
    stars (cs ++ ds) = stars cs + stars ds :=
  List.count_append

theorem isDigit_of_mem_decimal
    {n : Nat}
    {c : UInt8}
    (hMem : c ∈ decimal n) :
    isDigit c = true := by
  rcases List.mem_map.mp hMem with ⟨digit, hDigit, rfl⟩
  have hChar :=
    Nat.isDigit_of_mem_toDigits (by decide) (by decide) hDigit
  have hBounds : 48 ≤ digit.toNat ∧ digit.toNat ≤ 57 := by
    rw [Char.isDigit, Bool.and_eq_true, decide_eq_true_eq,
      decide_eq_true_eq] at hChar
    exact ⟨UInt32.le_iff_toNat_le.mp hChar.1,
      UInt32.le_iff_toNat_le.mp hChar.2⟩
  have hByte : (letter digit).toNat = digit.toNat :=
    UInt8.toNat_ofNat_of_lt (by
      change digit.toNat < 256
      omega)
  unfold isDigit
  rw [decide_eq_true_eq, UInt8.le_iff_toNat_le,
    UInt8.le_iff_toNat_le, hByte]
  exact hBounds

/- A byte that is put in the place of a star. -/
def Filler (c : UInt8) : Prop := c = minus ∨ isDigit c = true

theorem Filler.ne_zero
    {c : UInt8}
    (hFiller : Filler c) :
    c ≠ 0 := by
  rcases hFiller with rfl | hDigit
  · decide
  · exact isDigit_ne_zero hDigit

theorem Filler.ne_star
    {c : UInt8}
    (hFiller : Filler c) :
    c ≠ star := by
  rcases hFiller with rfl | hDigit
  · decide
  · exact isDigit_ne_star hDigit

theorem filler_widthText
    (a : Int32)
    (c : UInt8)
    (hMem : c ∈ widthText a) :
    Filler c := by
  unfold widthText at hMem
  split at hMem
  · rcases List.mem_cons.mp hMem with hMinus | hMem
    · exact Or.inl hMinus
    · exact Or.inr (isDigit_of_mem_decimal hMem)
  · exact Or.inr (isDigit_of_mem_decimal hMem)

theorem filler_precisionOf
    (a : Int32)
    (c : UInt8)
    (hMem : c ∈ precisionOf a) :
    Filler c := by
  unfold precisionOf at hMem
  split at hMem
  · exact Or.inr (isDigit_of_mem_decimal hMem)
  · exact Or.inr (isDigit_of_mem_decimal hMem)

theorem stars_fillers
    {cs : List UInt8}
    (hFillers : ∀ c ∈ cs, Filler c) :
    stars cs = 0 :=
  List.count_eq_zero.mpr fun hMem =>
    (hFillers star hMem).ne_star rfl

/- Filling takes the star away, and nothing else. -/
theorem Amount.stars_filled
    {text : Int32 → List UInt8}
    (hText : ∀ a, ∀ c ∈ text a, Filler c)
    (args : Args)
    (amount : Amount) :
    stars (amount.filled text args).1 +
        (if amount = .star then 1 else 0) =
      stars amount.text := by
  cases amount with
  | absent => rfl
  | digits ds => rfl
  | star =>
      rw [if_pos rfl]
      exact congrArg (· + 1) (stars_fillers (hText _))

theorem stars_filledPrecision
    (args : Args)
    (precision : Option Amount) :
    stars (filledPrecision args precision).1 +
        (if precision = some .star then 1 else 0) =
      stars (precisionText Amount.text precision) := by
  cases precision with
  | none => rfl
  | some amount =>
      have hAmount :=
        Amount.stars_filled filler_precisionOf args amount
      have hDot (cs : List UInt8) :
          stars (dot :: cs) = stars cs :=
        List.count_cons_of_ne (by decide)
      simp only [Option.some.injEq]
      change
        stars (dot :: (amount.filled precisionOf args).1) + _ =
          stars (dot :: amount.text)
      rw [hDot, hDot]
      exact hAmount

theorem Directive.stars_filled
    (d : Directive)
    (args : Args) :
    stars (d.filled args).1 +
        (if d.width = .star then 1 else 0) +
        (if d.precision = some .star then 1 else 0) =
      stars d.text := by
  have hPercent (cs : List UInt8) :
      stars (percent :: cs) = stars cs :=
    List.count_cons_of_ne (by decide)
  have hWidth :=
    Amount.stars_filled filler_widthText args d.width
  have hPrecision :=
    stars_filledPrecision
      (d.width.filled widthText args).2 d.precision
  unfold Directive.filled Directive.text
  simp only [hPercent, stars_append]
  omega

theorem stars_expand_le
    (ps : List Piece)
    (args : Args) :
    stars (expand ps args).1 ≤
      stars (ps.flatMap Piece.text) := by
  induction ps generalizing args with
  | nil => exact le_refl _
  | cons p ps ih =>
      rw [List.flatMap_cons, stars_append]
      cases p with
      | char c =>
          have hRest := ih args
          have hSplit :=
            stars_append [c] (expand ps args).1
          change stars ([c] ++ (expand ps args).1) ≤
            stars [c] + _
          omega
      | directive d =>
          have hHere := d.stars_filled args
          have hTail := ih (d.filled args).2.tail
          have hSame := ih (d.filled args).2
          change _ ≤ stars d.text + _
          rw [expand]
          dsimp only
          split
          · rw [stars_append]
            omega
          · rw [stars_append]
            omega

theorem Directive.stars_filled_lt
    (hStarred : d.Starred)
    (args : Args) :
    stars (d.filled args).1 < stars d.text := by
  have hHere := d.stars_filled args
  rcases hStarred with hWidth | hPrecision
  · rw [if_pos hWidth] at hHere
    omega
  · rw [if_pos hPrecision] at hHere
    omega

theorem stars_expand_lt
    {ps : List Piece}
    (hStars : StarredPieces ps)
    (args : Args) :
    stars (expand ps args).1 <
      stars (ps.flatMap Piece.text) := by
  induction ps generalizing args with
  | nil =>
      rcases hStars with ⟨d, hMem, _⟩
      cases hMem
  | cons p ps ih =>
      rw [List.flatMap_cons, stars_append]
      cases p with
      | char c =>
          have hRest : StarredPieces ps := by
            rcases hStars with ⟨d, hMem, hStarred⟩
            rcases List.mem_cons.mp hMem with hEq | hMem
            · cases hEq
            · exact ⟨d, hMem, hStarred⟩
          have hTail := ih hRest args
          have hSplit :=
            stars_append [c] (expand ps args).1
          change stars ([c] ++ (expand ps args).1) <
            stars [c] + _
          omega
      | directive d =>
          have hLess (args' : Args) :
              stars (d.filled args).1 +
                  stars (expand ps args').1 <
                stars d.text +
                  stars (ps.flatMap Piece.text) := by
            have hHere := d.stars_filled args
            have hTail := stars_expand_le ps args'
            rcases hStars with ⟨d', hMem, hStarred⟩
            rcases List.mem_cons.mp hMem with hEq | hMem
            · cases hEq
              have hFewer := d.stars_filled_lt hStarred args
              omega
            · have hFewer := ih ⟨d', hMem, hStarred⟩ args'
              omega
          change _ < stars d.text + _
          rw [expand]
          dsimp only
          split
          · rw [stars_append]
            exact hLess _
          · rw [stars_append]
            exact hLess _

------------------------------------------------------------
-- The Expanded Format
------------------------------------------------------------

/- Bytes of the old text, and others. -/
theorem Amount.mem_filled
    {text : Int32 → List UInt8}
    (hText : ∀ a, ∀ c ∈ text a, Filler c)
    {amount : Amount}
    {c : UInt8}
    (hMem : c ∈ (amount.filled text args).1) :
    c ∈ amount.text ∨ Filler c := by
  cases amount with
  | absent => exact Or.inl hMem
  | digits ds => exact Or.inl hMem
  | star => exact Or.inr (hText _ c hMem)

theorem mem_filledPrecision
    {precision : Option Amount}
    {c : UInt8}
    (hMem : c ∈ (filledPrecision args precision).1) :
    c ∈ precisionText Amount.text precision ∨ Filler c := by
  cases precision with
  | none => exact Or.inl hMem
  | some amount =>
      rcases List.mem_cons.mp hMem with hDot | hMem
      · exact Or.inl (List.mem_cons.mpr (Or.inl hDot))
      · rcases Amount.mem_filled filler_precisionOf hMem with
          hMem | hFiller
        · exact Or.inl (List.mem_cons_of_mem dot hMem)
        · exact Or.inr hFiller

theorem Directive.mem_filled
    {c : UInt8}
    (hMem : c ∈ (d.filled args).1) :
    c ∈ d.text ∨ Filler c := by
  unfold Directive.filled at hMem
  unfold Directive.text
  simp only [List.mem_cons, List.mem_append] at hMem ⊢
  rcases hMem with h | (((h | h) | h) | h) | h
  · exact Or.inl (Or.inl h)
  · exact Or.inl (Or.inr (Or.inl (Or.inl (Or.inl (Or.inl h)))))
  · rcases Amount.mem_filled filler_widthText h with h | h
    · exact
        Or.inl (Or.inr (Or.inl (Or.inl (Or.inl (Or.inr h)))))
    · exact Or.inr h
  · rcases mem_filledPrecision h with h | h
    · exact Or.inl (Or.inr (Or.inl (Or.inl (Or.inr h))))
    · exact Or.inr h
  · exact Or.inl (Or.inr (Or.inl (Or.inr h)))
  · exact Or.inl (Or.inr (Or.inr h))

theorem mem_expand
    {ps : List Piece}
    {c : UInt8}
    (hMem : c ∈ (expand ps args).1) :
    c ∈ ps.flatMap Piece.text ∨ Filler c := by
  induction ps generalizing args with
  | nil => exact Or.inl hMem
  | cons p ps ih =>
      rw [List.flatMap_cons, List.mem_append]
      cases p with
      | char c' =>
          rcases List.mem_cons.mp hMem with hHere | hMem
          · exact Or.inl (Or.inl (List.mem_singleton.mpr hHere))
          · exact (ih hMem).imp_left Or.inr
      | directive d =>
          have hSplit {args' : Args}
              (hMem : c ∈ (d.filled args).1 ++
                (expand ps args').1) :
              (c ∈ d.text ∨ c ∈ ps.flatMap Piece.text) ∨
                Filler c := by
            rcases List.mem_append.mp hMem with hMem | hMem
            · exact (Directive.mem_filled hMem).imp_left Or.inl
            · exact (ih hMem).imp_left Or.inr
          rw [expand] at hMem
          dsimp only at hMem
          split at hMem
          · exact hSplit hMem
          · exact hSplit hMem

/- Words that are all among `args`. -/
def Args.Among (args' args : Args) : Prop :=
  ∀ i, ∃ j, args' i = args j

theorem Args.among_tail (args : Args) : args.tail.Among args :=
  fun i => ⟨i + 1, rfl⟩

theorem Args.Among.trans
    {args' args'' : Args}
    (h₁ : args''.Among args')
    (h₂ : args'.Among args) :
    args''.Among args := by
  intro i
  rcases h₁ i with ⟨j, hj⟩
  rcases h₂ j with ⟨k, hk⟩
  exact ⟨k, hj.trans hk⟩

theorem Args.among_refl (args : Args) : args.Among args :=
  fun i => ⟨i, rfl⟩

theorem Args.Among.cons
    {args' : Args}
    (hAmong : args'.Among args)
    (j : Nat) :
    (args'.cons (args j)).Among args := by
  intro i
  cases i with
  | zero => exact ⟨j, rfl⟩
  | succ i => exact hAmong i

theorem Amount.filled_among
    (text : Int32 → List UInt8)
    (args : Args)
    (amount : Amount) :
    (amount.filled text args).2.Among args := by
  cases amount with
  | absent => exact args.among_refl
  | digits ds => exact args.among_refl
  | star => exact args.among_tail

theorem Directive.filled_among
    (d : Directive)
    (args : Args) :
    (d.filled args).2.Among args := by
  have hWidth := Amount.filled_among widthText args d.width
  refine Args.Among.trans ?_ hWidth
  unfold Directive.filled
  dsimp only
  cases d.precision with
  | none => exact Args.among_refl _
  | some amount => exact Amount.filled_among _ _ amount

theorem expand_among
    (ps : List Piece)
    (args : Args) :
    (expand ps args).2.Among args := by
  induction ps generalizing args with
  | nil => exact args.among_refl
  | cons p ps ih =>
      cases p with
      | char c => exact ih args
      | directive d =>
          have hFilled := d.filled_among args
          rw [expand]
          dsimp only
          split
          · have hTail :=
              (ih (d.filled args).2.tail).trans
                (Args.among_tail _)
            exact (hTail.cons 0).trans hFilled
          · exact (ih _).trans hFilled

/- The format in which each star has its argument. -/
def Format.expanded (fmt : Format) (args : Args) : Format where
  chars := (expand (pieces fmt.chars) args).1
  unterminated := by
    intro c hMem
    rcases mem_expand hMem with hMem | hFiller
    · rw [text_pieces] at hMem
      exact fmt.unterminated c hMem
    · exact hFiller.ne_zero

------------------------------------------------------------
-- The Same Output
------------------------------------------------------------

/- Some width or precision of the format is a star. -/
def Format.Starred (fmt : Format) : Prop :=
  StarredPieces (pieces fmt.chars)

/- What is written at `buf`, if the program returns. -/
def outputOf (call : Call) : Option (List UInt8) :=
  match (vsprintf call
    (call.fmt.chars.length + 1)).run call.start with
  | .ok _ s => some (s.bytes.map Prod.snd)
  | .error _ _ => none

/- The call without the arguments of the stars. -/
def Call.expanded (call : Call) : Call where
  buf := call.buf
  fmt := call.fmt.expanded call.args
  args := (expand (pieces call.fmt.chars) call.args).2
  mem := call.mem

/- The two calls put the same bytes, if both return. -/
def SameOutput (call : Call) : Prop :=
  ∀ out out',
    outputOf call = some out →
      outputOf call.expanded = some out' →
        out = out'

theorem Call.expanded_of_not_starred
    {call : Call}
    (hStars : ¬ call.fmt.Starred) :
    call.expanded = call := by
  have hExpand := expand_of_not_starred hStars call.args
  rw [text_pieces] at hExpand
  cases call with
  | mk buf fmt args mem =>
      cases fmt with
      | mk chars unterminated =>
          unfold Call.expanded Format.expanded
          dsimp only at hExpand ⊢
          congr 1
          · congr 1
            exact congrArg Prod.fst hExpand
          · exact congrArg Prod.snd hExpand

theorem map_snd_bytesFrom
    (a : UInt32)
    (cs : List UInt8) :
    (bytesFrom a cs).map Prod.snd = cs := by
  induction cs generalizing a with
  | nil => rfl
  | cons c cs ih => exact congrArg (c :: ·) (ih (a + 1))

/-
  With no star from outside, the output has the stars of the
  format.
-/
theorem stars_outputOf
    {call : Call}
    {out : List UInt8}
    (hPlain : Plain call)
    (hOut : outputOf call = some out) :
    stars out = stars call.fmt.chars := by
  have hSat := vsprintf_sat call 0
  rw [Nat.add_zero] at hSat
  unfold outputOf at hOut
  cases hRun :
      (vsprintf call (call.fmt.chars.length + 1)).run
        call.start with
  | error e s =>
      rw [hRun] at hOut
      cases hOut
  | ok n s =>
      rw [hRun] at hOut hSat
      rcases hSat with ⟨text, hWritten, hStars⟩
      have hText : out = text ++ [0] := by
        rw [← Option.some.inj hOut, hWritten.bytes_eq,
          map_snd_bytesFrom]
      have hNull : stars [0] = 0 := rfl
      rw [hText, stars_append, hNull, Nat.add_zero]
      exact hStars hPlain

/- A memory with a null byte in it has strings everywhere. -/
theorem outputOf_isSome
    {call : Call}
    {a : UInt32}
    (hNull : call.mem a = 0) :
    ∃ out, outputOf call = some out := by
  have hSat := vsprintf_sat call 0
  rw [Nat.add_zero] at hSat
  unfold outputOf
  cases hRun :
      (vsprintf call (call.fmt.chars.length + 1)).run
        call.start with
  | error e s =>
      rw [hRun] at hSat
      rcases hSat with ⟨i, _, hNone⟩
      refine absurd hNull ?_
      have hByte := hNone (a - call.args i)
      rw [UInt32.add_comm, UInt32.sub_add_cancel] at hByte
      exact hByte
  | ok n s => exact ⟨_, rfl⟩

theorem Plain.expanded
    {call : Call}
    (hPlain : Plain call) :
    Plain call.expanded := by
  refine ⟨?_, hPlain.2⟩
  intro i
  rcases expand_among (pieces call.fmt.chars) call.args i with
    ⟨j, hj⟩
  change ((expand _ call.args).2 i).toUInt8 ≠ star
  rw [hj]
  exact hPlain.1 j

/- A star that is put as it is makes the outputs differ. -/
theorem output_ne_of_starred
    {call : Call}
    {out out' : List UInt8}
    (hStarred : call.fmt.Starred)
    (hPlain : Plain call)
    (hOut : outputOf call = some out)
    (hOut' : outputOf call.expanded = some out') :
    out ≠ out' := by
  have hStars := stars_outputOf hPlain hOut
  have hStars' := stars_outputOf hPlain.expanded hOut'
  have hFewer := stars_expand_lt hStarred call.args
  rw [text_pieces] at hFewer
  rintro rfl
  change stars out = stars (expand _ call.args).1 at hStars'
  omega

theorem differs_of_starred
    {call : Call}
    {a : UInt32}
    (hStarred : call.fmt.Starred)
    (hPlain : Plain call)
    (hNull : call.mem a = 0) :
    ¬ SameOutput call := by
  have hNull' : call.expanded.mem a = 0 := hNull
  intro hSame
  rcases outputOf_isSome hNull with ⟨out, hOut⟩
  rcases outputOf_isSome hNull' with ⟨out', hOut'⟩
  exact output_ne_of_starred hStarred hPlain hOut hOut'
    (hSame out out' hOut hOut')

/-
  For every format: all calls with it have the same output
  as without the stars if and only if it has no star.  If it
  has one, then no call has the same output in which no
  character and no string has a star.
-/
theorem same_output_iff (fmt : Format) :
    ((∀ buf args mem, SameOutput ⟨buf, fmt, args, mem⟩) ↔
        ¬ fmt.Starred) ∧
      (fmt.Starred →
        ∀ buf args mem,
          Plain ⟨buf, fmt, args, mem⟩ →
            (∃ a, mem a = 0) →
              ¬ SameOutput ⟨buf, fmt, args, mem⟩) := by
  have hNever :
      fmt.Starred →
        ∀ buf args mem,
          Plain ⟨buf, fmt, args, mem⟩ →
            (∃ a, mem a = 0) →
              ¬ SameOutput ⟨buf, fmt, args, mem⟩ := by
    rintro hStarred buf args mem hPlain ⟨a, hNull⟩
    exact differs_of_starred hStarred hPlain hNull
  refine ⟨⟨?_, ?_⟩, hNever⟩
  · intro hSame hStarred
    refine hNever hStarred 0 (fun _ => 0) (fun _ => 0) ?_
      ⟨0, rfl⟩ (hSame 0 (fun _ => 0) fun _ => 0)
    have hZero : (0 : UInt32).toUInt8 ≠ star := by decide
    have hByte : (0 : UInt8) ≠ star := by decide
    exact ⟨fun _ => hZero, fun _ => hByte⟩
  · intro hStars buf args mem out out' hOut hOut'
    rw [Call.expanded_of_not_starred hStars] at hOut'
    rw [hOut] at hOut'
    exact Option.some.inj hOut'

/- The call `vsprintf(buf, "%*d", 5, 7)`. -/
def widthCall : Call where
  buf := 0x1000
  fmt :=
    { chars := [percent, star, letter 'd']
      unterminated := by
        unfold Fs.Unterminated
        simp only [List.forall_mem_cons, List.not_mem_nil,
          false_implies, implies_true, and_true]
        decide }
  args := fun i => if i = 0 then 5 else 7
  mem := fun _ => 0

theorem widthCall_output_ne : ¬ SameOutput widthCall := by
  have hStarred : widthCall.fmt.Starred := by
    refine ⟨(readDirective [star, letter 'd']).1, ?_,
      Or.inl rfl⟩
    change _ ∈ pieces [percent, star, letter 'd']
    rw [pieces, if_pos rfl]
    exact List.mem_cons_self
  have hPlain : Plain widthCall := by
    have hByte : (0 : UInt8) ≠ star := by decide
    refine ⟨?_, fun _ => hByte⟩
    intro i
    change (if i = 0 then (5 : UInt32) else 7).toUInt8 ≠ star
    split
    · decide
    · decide
  have hNull : widthCall.mem 0 = 0 := rfl
  exact differs_of_starred hStarred hPlain hNull

end Vsprintf

end SosKernel
