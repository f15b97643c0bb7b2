import Mathlib.Data.List.Infix
import Mathlib.Data.List.Range
import Mathlib.Data.Nat.Bitwise
import Mathlib.Logic.Function.Basic

/-
  The text screen of `lib/monitor.c`.

  Main declarations:
    * `Monitor`, `initMonitor`, `monitorPut`, `monitorWrite`
    * `Terminal`: a terminal with unboundedly many rows
    * `Shows`: the screen is a window on the terminal
    * `monitor_shows_window`
-/

------------------------------------------------------------
-- The Screen
------------------------------------------------------------

namespace SosKernel

namespace Monitor

def COLUMNS : Nat := 80
def LINES : Nat := 25

/-
  The variables of `monitor.c`, and what it does to the
  hardware.

  `videoMem i` is the word at `video_mem[i]`.  `stored` has
  the indices of the stores to video memory and `ports` the
  bytes sent to ports, both last first.
-/
structure State where
  videoMem : Nat → Nat
  xpos : Nat
  ypos : Nat
  backColor : Nat
  foreColor : Nat
  stored : List Nat
  ports : List (Nat × Nat)

/- Before `init_monitor`, over arbitrary video memory. -/
def State.static (videoMem : Nat → Nat) : State where
  videoMem := videoMem
  xpos := 0
  ypos := 0
  backColor := 0
  foreColor := 15
  stored := []
  ports := []

/- Write `video_mem[i]`. -/
def State.store (s : State) (i v : Nat) : State :=
  { s with
    videoMem := Function.update s.videoMem i v
    stored := i :: s.stored }

def outb (port v : Nat) (s : State) : State :=
  { s with ports := (port, v % 256) :: s.ports }

def vgaSetAttr (back fore : Nat) : Nat :=
  ((back <<< 4 ||| fore &&& 0x0F) % 256) <<< 8

def vgaFormatAscii (back fore ascii : Nat) : Nat :=
  ascii ||| vgaSetAttr back fore

def updateCursor (s : State) : State :=
  let cursorLocation := (s.ypos * 80 + s.xpos) % 2 ^ 16
  outb 0x3D5 cursorLocation <|
    outb 0x3D4 15 <|
      outb 0x3D5 (cursorLocation >>> 8) <|
        outb 0x3D4 14 s

def State.blank (s : State) : Nat :=
  vgaFormatAscii s.backColor s.foreColor 0x20

/- Store blanks at the `n` indices from `start` on. -/
def fillBlank (start n : Nat) (s : State) : State :=
  (List.range' start n).foldl
    (fun s' i => s'.store i s.blank) s

/- Move the `n` words from index 80 on to the start. -/
def copyRows (n : Nat) (s : State) : State :=
  (List.range n).foldl
    (fun s i => s.store i (s.videoMem (i + 80))) s

def scroll (s : State) : State :=
  if 25 ≤ s.ypos then
    { fillBlank (24 * 80) 80 (copyRows (24 * 80) s) with
      ypos := 24 }
  else
    s

def initMonitor (s : State) : State :=
  updateCursor
    { fillBlank 0 (COLUMNS * LINES) s with
      xpos := 0
      ypos := 0 }

/- A byte as a `char`, which is signed. -/
def asChar (byte : Nat) : Int :=
  if byte < 128 then byte else (byte : Int) - 256

/- The part of `monitor_put` up to the line break. -/
def putChar (c : Int) (s : State) : State :=
  if c = 0x08 ∧ s.xpos ≠ 0 then
    { s with xpos := s.xpos - 1 }
  else if c = 0x09 then
    { s with
      xpos :=
        (s.xpos + 4 - ((s.xpos + 4) &&& (4 - 1))) % 256 }
  else if c = 0x0D then
    { s with xpos := 0 }
  else if c = 0x0A then
    { s with
      xpos := 0
      ypos := (s.ypos + 1) % 256 }
  else if 0x20 ≤ c then
    { s.store (s.ypos * 80 + s.xpos)
        (c.toNat ||| vgaSetAttr s.backColor s.foreColor) with
      xpos := (s.xpos + 1) % 256 }
  else
    s

/- Insert a new line at the end of the row. -/
def wrap (s : State) : State :=
  if 80 ≤ s.xpos then
    { s with
      xpos := 0
      ypos := (s.ypos + 1) % 256 }
  else
    s

def monitorPut (s : State) (byte : UInt8) : State :=
  updateCursor
    (scroll (wrap (putChar (asChar byte.toNat) s)))

/- The bytes of a string; a null byte follows the list. -/
def monitorWrite : List UInt8 → State → State
| [], s => s
| byte :: rest, s =>
    if byte = 0 then s else monitorWrite rest (monitorPut s byte)

------------------------------------------------------------
-- A Terminal
------------------------------------------------------------

/-
  A terminal with rows of 80 cells, without end.  `cells r`
  is row `r`; the cursor never moves up.
-/
structure Terminal where
  cells : Nat → Nat → Nat
  row : Nat
  col : Nat

/- A white character on black. -/
def white (c : Nat) : Nat :=
  c ||| 0x0F00

def Terminal.empty : Terminal where
  cells _ _ := white 0x20
  row := 0
  col := 0

def Terminal.newline (t : Terminal) : Terminal :=
  { t with row := t.row + 1, col := 0 }

/- Move to a column, or to the next row at the end. -/
def Terminal.moveTo (t : Terminal) (col : Nat) : Terminal :=
  if col = 80 then t.newline else { t with col := col }

def Terminal.print (t : Terminal) (c : Nat) : Terminal :=
  { t with
    cells :=
      Function.update t.cells t.row
        (Function.update (t.cells t.row) t.col (white c)) }

/-
  A byte is a backspace, a tab, a carriage return, a newline
  or printable, or it does nothing.
-/
def Terminal.put (t : Terminal) (byte : Nat) : Terminal :=
  if byte = 0x08 then
    { t with col := t.col - 1 }
  else if byte = 0x09 then
    t.moveTo ((t.col / 4 + 1) * 4)
  else if byte = 0x0D then
    { t with col := 0 }
  else if byte = 0x0A then
    t.newline
  else if 0x20 ≤ byte ∧ byte < 0x80 then
    (t.print byte).moveTo (t.col + 1)
  else
    t

/- The first row of the window. -/
def Terminal.top (t : Terminal) : Nat :=
  t.row - 24

/-
  The screen shows the last 25 rows of the terminal, or the
  first 25, with the cursor where the terminal has it, and
  every store was to the screen.
-/
structure Shows (s : State) (t : Terminal) : Prop where
  cell :
    ∀ y x, y < 25 → x < 80 →
      s.videoMem (y * 80 + x) = t.cells (t.top + y) x
  xpos : s.xpos = t.col
  ypos : t.top + s.ypos = t.row
  xposLt : s.xpos < 80
  yposLt : s.ypos < 25
  stored : ∀ i ∈ s.stored, i < 80 * 25
  cursor :
    ∃ ports, s.ports =
      (0x3D5, (s.ypos * 80 + s.xpos) % 256) :: (0x3D4, 15) ::
        (0x3D5, (s.ypos * 80 + s.xpos) / 256) ::
          (0x3D4, 14) :: ports

------------------------------------------------------------
-- The Loops
------------------------------------------------------------

theorem copyRows_eq
    (n : Nat)
    (s : State) :
    copyRows n s =
      { s with
        videoMem := fun i =>
          if i < n then s.videoMem (i + 80) else s.videoMem i
        stored := (List.range n).reverse ++ s.stored } := by
  unfold copyRows
  induction n with
  | zero => simp
  | succ n ih =>
      rw [List.range_succ, List.foldl_append, ih]
      simp only [List.foldl_cons, List.foldl_nil, State.store,
        List.reverse_append, List.reverse_singleton,
        List.cons_append]
      congr 1
      funext i
      rw [Function.update_apply]
      by_cases hi : i = n
      · subst hi
        simp
      · have hSame : i < n + 1 ↔ i < n := by omega
        simp only [if_neg hi, hSame]

theorem fillBlank_eq
    (start n : Nat)
    (s : State) :
    fillBlank start n s =
      { s with
        videoMem := fun i =>
          if start ≤ i ∧ i < start + n then s.blank
          else s.videoMem i
        stored :=
          (List.range' start n).reverse ++ s.stored } := by
  unfold fillBlank
  induction n with
  | zero =>
      have hNone :
          ∀ i, ¬ (start ≤ i ∧ i < start) := by
        intro i
        omega
      simp [hNone]
  | succ n ih =>
      rw [List.range'_1_concat, List.foldl_append, ih]
      simp only [List.foldl_cons, List.foldl_nil, State.store,
        List.reverse_append, List.reverse_singleton,
        List.cons_append]
      congr 1
      funext i
      rw [Function.update_apply]
      by_cases hi : i = start + n
      · subst hi
        simp
      · have hSame :
            start ≤ i ∧ i < start + (n + 1) ↔
              start ≤ i ∧ i < start + n := by
          omega
        simp only [if_neg hi, hSame]

theorem scroll_of_lt
    {s : State}
    (hLt : s.ypos < 25) :
    scroll s = s :=
  if_neg (by omega)

/- Scrolling moves every row up and blanks the last one. -/
theorem scroll_eq
    {s : State}
    (hLe : 25 ≤ s.ypos) :
    ∃ stored, scroll s =
      { s with
        ypos := 24
        videoMem := fun i =>
          if i < 24 * 80 then s.videoMem (i + 80)
          else if i < 25 * 80 then s.blank
          else s.videoMem i
        stored := stored ++ s.stored } ∧
      ∀ i ∈ stored, i < 80 * 25 := by
  refine ⟨(List.range' (24 * 80) 80).reverse ++
    (List.range (24 * 80)).reverse, ?_, ?_⟩
  · rw [scroll, if_pos hLe, copyRows_eq, fillBlank_eq]
    simp only [State.blank, List.append_assoc]
    congr 1
    funext i
    by_cases hi : i < 24 * 80
    · rw [if_pos hi, if_neg (by omega), if_pos hi]
    · rw [if_neg hi, if_neg hi]
      by_cases hi' : i < 25 * 80
      · rw [if_pos (by omega), if_pos hi']
      · rw [if_neg (by omega), if_neg hi']
  · intro i hi
    rw [List.mem_append, List.mem_reverse, List.mem_reverse,
      List.mem_range, List.mem_range'_1] at hi
    omega

------------------------------------------------------------
-- The Window
------------------------------------------------------------

/-
  What every byte keeps: the screen is the window, the
  colours are white on black, and the rows below the
  terminal's cursor have not been used.
-/
structure Window (s : State) (t : Terminal) : Prop where
  cell :
    ∀ y x, y < 25 → x < 80 →
      s.videoMem (y * 80 + x) = t.cells (t.top + y) x
  xpos : s.xpos = t.col
  ypos : t.top + s.ypos = t.row
  xposLt : s.xpos < 80
  yposLt : s.ypos < 25
  stored : ∀ i ∈ s.stored, i < 80 * 25
  backColor : s.backColor = 0
  foreColor : s.foreColor = 15
  unused : ∀ r x, t.row < r → t.cells r x = white 0x20

variable {s : State}
variable {t : Terminal}

theorem Window.attr (hWindow : Window s t) :
    vgaSetAttr s.backColor s.foreColor = 0x0F00 := by
  rw [hWindow.backColor, hWindow.foreColor]
  decide

theorem Window.blank (hWindow : Window s t) :
    s.blank = white 0x20 := by
  rw [State.blank, vgaFormatAscii, hWindow.attr, white]

/- A new line, which scrolls when it leaves the window. -/
theorem Window.newline (hWindow : Window s t) :
    Window
      (scroll
        { s with
          xpos := 0
          ypos := (s.ypos + 1) % 256 })
      t.newline := by
  have hLt := hWindow.yposLt
  have hRow := hWindow.ypos
  have hTop : t.top = t.row - 24 := rfl
  have hNext : (s.ypos + 1) % 256 = s.ypos + 1 := by omega
  rw [hNext]
  by_cases hLast : s.ypos + 1 < 25
  · have hSame : t.newline.top = t.top := by
      simp only [Terminal.top, Terminal.newline]
      omega
    rw [scroll_of_lt hLast]
    refine
      { cell := ?_
        xpos := rfl
        ypos := ?_
        xposLt := Nat.zero_lt_succ 79
        yposLt := hLast
        stored := hWindow.stored
        backColor := hWindow.backColor
        foreColor := hWindow.foreColor
        unused := ?_ }
    · rw [hSame]
      exact hWindow.cell
    · rw [hSame]
      simp only [Terminal.newline]
      omega
    · intro r x hr
      exact hWindow.unused r x (Nat.lt_of_succ_lt hr)
  · have hNextTop : t.newline.top = t.top + 1 := by
      simp only [Terminal.top, Terminal.newline]
      omega
    rcases scroll_eq
      (s := { s with xpos := 0, ypos := s.ypos + 1 })
      (Nat.not_lt.mp hLast) with ⟨stored, hScroll, hStored⟩
    rw [hScroll]
    refine
      { cell := ?_
        xpos := rfl
        ypos := ?_
        xposLt := Nat.zero_lt_succ 79
        yposLt := Nat.lt_succ_self 24
        stored := ?_
        backColor := hWindow.backColor
        foreColor := hWindow.foreColor
        unused := ?_ }
    · intro y x hy hx
      simp only [hNextTop]
      by_cases hy' : y < 24
      · have hCell := hWindow.cell (y + 1) x (by omega) hx
        have hIndex : y * 80 + x + 80 = (y + 1) * 80 + x := by
          omega
        have hAbove : t.top + 1 + y = t.top + (y + 1) := by
          omega
        rw [if_pos (by omega), hIndex, hCell, hAbove]
        rfl
      · have hUnused := hWindow.unused (t.top + 1 + y) x
          (by omega)
        rw [if_neg (by omega), if_pos (by omega)]
        exact hWindow.blank.trans hUnused.symm
    · rw [hNextTop]
      simp only [Terminal.newline]
      omega
    · intro i hi
      rcases List.mem_append.mp hi with hi | hi
      · exact hStored i hi
      · exact hWindow.stored i hi
    · intro r x hr
      exact hWindow.unused r x (Nat.lt_of_succ_lt hr)

/- The cursor moves along the row, or to the next one. -/
theorem Window.moveTo
    (hWindow : Window s t)
    (col : Nat)
    (hCol : col ≤ 80) :
    Window (scroll (wrap { s with xpos := col }))
      (t.moveTo col) := by
  by_cases hEnd : col = 80
  · subst hEnd
    exact hWindow.newline
  · have hLt : col < 80 := by omega
    have hScroll :
        scroll { s with xpos := col } =
          { s with xpos := col } :=
      scroll_of_lt hWindow.yposLt
    rw [wrap, if_neg (by simpa using hLt), hScroll,
      Terminal.moveTo, if_neg hEnd]
    exact
      { hWindow with
        xpos := rfl
        xposLt := hLt }

/- A character is stored under the cursor. -/
theorem Window.print
    (hWindow : Window s t)
    (c : Nat) :
    Window
      (s.store (s.ypos * 80 + s.xpos)
        (c ||| vgaSetAttr s.backColor s.foreColor))
      (t.print c) := by
  have hX := hWindow.xposLt
  have hY := hWindow.yposLt
  have hRow := hWindow.ypos
  rw [hWindow.attr]
  refine
    { hWindow with
      cell := ?_
      stored := ?_
      unused := ?_ }
  · intro y x hy hx
    have hTop : (t.print c).top = t.top := rfl
    rw [hTop]
    simp only [State.store, Terminal.print,
      Function.update_apply]
    by_cases hHere : y = s.ypos ∧ x = s.xpos
    · rcases hHere with ⟨rfl, rfl⟩
      rw [if_pos rfl, if_pos hRow, hWindow.xpos,
        Function.update_self, white]
    · rw [if_neg (by omega), hWindow.cell y x hy hx]
      split
      · rename_i hSame
        have hElse : x ≠ t.col := by
          rw [← hWindow.xpos]
          omega
        rw [Function.update_of_ne hElse, hSame]
      · rfl
  · intro i hi
    rcases List.mem_cons.mp hi with rfl | hi
    · omega
    · exact hWindow.stored i hi
  · intro r x hr
    have hr : t.row < r := hr
    simp only [Terminal.print, Function.update_apply]
    rw [if_neg (by omega)]
    exact hWindow.unused r x hr

------------------------------------------------------------
-- Every Byte
------------------------------------------------------------

theorem and_not_three (n : Nat) :
    n - (n &&& (4 - 1)) = n / 4 * 4 := by
  have hMod : n &&& (4 - 1) = n % 4 :=
    Nat.and_two_pow_sub_one_eq_mod n 2
  rw [hMod]
  omega

/- What a byte does before the line break, by its value. -/
theorem putChar_asChar
    {byte : Nat}
    (hByte : byte < 256)
    (s : State) :
    putChar (asChar byte) s =
      if byte = 0x08 then
        { s with xpos := s.xpos - 1 }
      else if byte = 0x09 then
        { s with xpos := (s.xpos + 4) / 4 * 4 % 256 }
      else if byte = 0x0D then
        { s with xpos := 0 }
      else if byte = 0x0A then
        { s with xpos := 0, ypos := (s.ypos + 1) % 256 }
      else if 0x20 ≤ byte ∧ byte < 0x80 then
        { s.store (s.ypos * 80 + s.xpos)
            (byte ||| vgaSetAttr s.backColor s.foreColor)
          with xpos := (s.xpos + 1) % 256 }
      else
        s := by
  have hEq :
      ∀ n : Nat, n < 128 → (asChar byte = n ↔ byte = n) := by
    intro n hn
    unfold asChar
    split <;> omega
  have hPrint :
      0x20 ≤ asChar byte ↔ 0x20 ≤ byte ∧ byte < 0x80 := by
    unfold asChar
    split <;> omega
  have hCode : byte < 0x80 → (asChar byte).toNat = byte := by
    intro hAscii
    unfold asChar
    rw [if_pos hAscii]
    exact Int.toNat_natCast byte
  have h8 : asChar byte = 0x08 ↔ byte = 0x08 :=
    hEq 8 (by decide)
  have h9 : asChar byte = 0x09 ↔ byte = 0x09 :=
    hEq 9 (by decide)
  have hD : asChar byte = 0x0D ↔ byte = 0x0D :=
    hEq 13 (by decide)
  have hA : asChar byte = 0x0A ↔ byte = 0x0A :=
    hEq 10 (by decide)
  unfold putChar
  simp only [h8, h9, hD, hA, hPrint, and_not_three]
  by_cases hBack : byte = 0x08
  · subst hBack
    by_cases hZero : s.xpos = 0
    · rw [if_neg (by omega), if_neg (by omega),
        if_neg (by omega), if_neg (by omega),
        if_neg (by omega), if_pos rfl]
      have hSame : s.xpos - 1 = s.xpos := by omega
      rw [hSame]
    · rw [if_pos ⟨rfl, hZero⟩, if_pos rfl]
  · rw [if_neg (by omega), if_neg hBack]
    by_cases hPrintable : 0x20 ≤ byte ∧ byte < 0x80
    · rw [hCode hPrintable.2]
    · rw [if_neg hPrintable, if_neg hPrintable]

/- A byte has the same effect on the screen and on the terminal. -/
theorem Window.put
    {byte : Nat}
    (hWindow : Window s t)
    (hByte : byte < 256) :
    Window (scroll (wrap (putChar (asChar byte) s)))
      (t.put byte) := by
  have hCol := hWindow.xpos
  have hLt := hWindow.xposLt
  rw [putChar_asChar hByte, Terminal.put]
  by_cases hBack : byte = 0x08
  · have hMove := hWindow.moveTo (s.xpos - 1) (by omega)
    rw [Terminal.moveTo, if_neg (by omega), hCol] at hMove
    rw [if_pos hBack, if_pos hBack, hCol]
    exact hMove
  rw [if_neg hBack, if_neg hBack]
  by_cases hTab : byte = 0x09
  · have hMove := hWindow.moveTo
      ((s.xpos / 4 + 1) * 4) (by omega)
    have hNext :
        (s.xpos + 4) / 4 * 4 % 256 = (s.xpos / 4 + 1) * 4 := by
      omega
    rw [if_pos hTab, if_pos hTab, hNext, ← hCol]
    exact hMove
  rw [if_neg hTab, if_neg hTab]
  by_cases hReturn : byte = 0x0D
  · have hMove := hWindow.moveTo 0 (by omega)
    rw [if_pos hReturn, if_pos hReturn]
    exact hMove
  rw [if_neg hReturn, if_neg hReturn]
  by_cases hNewline : byte = 0x0A
  · rw [if_pos hNewline, if_pos hNewline]
    exact hWindow.newline
  rw [if_neg hNewline, if_neg hNewline]
  by_cases hPrint : 0x20 ≤ byte ∧ byte < 0x80
  · have hMove := (hWindow.print byte).moveTo
      (s.xpos + 1) (by omega)
    have hNext : (s.xpos + 1) % 256 = s.xpos + 1 := by omega
    rw [if_pos hPrint, if_pos hPrint, hNext, ← hCol]
    exact hMove
  · rw [if_neg hPrint, if_neg hPrint, wrap,
      if_neg (by omega), scroll_of_lt hWindow.yposLt]
    exact hWindow

------------------------------------------------------------
-- Every Run
------------------------------------------------------------

/- Sending the cursor's place to the hardware. -/
theorem Window.shows
    (hWindow : Window s t) :
    Shows (updateCursor s) t := by
  have hX := hWindow.xposLt
  have hY := hWindow.yposLt
  have hPlace :
      (s.ypos * 80 + s.xpos) % 2 ^ 16 =
        s.ypos * 80 + s.xpos := by
    omega
  refine
    { cell := hWindow.cell
      xpos := hWindow.xpos
      ypos := hWindow.ypos
      xposLt := hX
      yposLt := hY
      stored := hWindow.stored
      cursor := ⟨s.ports, ?_⟩ }
  simp only [updateCursor, outb, hPlace,
    Nat.shiftRight_eq_div_pow]
  have hHigh :
      (s.ypos * 80 + s.xpos) / 2 ^ 8 % 256 =
        (s.ypos * 80 + s.xpos) / 256 := by
    omega
  rw [hHigh]

theorem Window.updateCursor
    (hWindow : Window s t) :
    Window (updateCursor s) t :=
  { hWindow with }

/- The screen after `init_monitor` is the empty window. -/
theorem window_initMonitor (videoMem : Nat → Nat) :
    Window
      { fillBlank 0 (COLUMNS * LINES) (.static videoMem) with
        xpos := 0
        ypos := 0 }
      .empty := by
  rw [fillBlank_eq]
  refine
    { cell := ?_
      xpos := rfl
      ypos := rfl
      xposLt := Nat.zero_lt_succ 79
      yposLt := Nat.zero_lt_succ 24
      stored := ?_
      backColor := rfl
      foreColor := rfl
      unused := fun _ _ _ => rfl }
  · intro y x hy hx
    have hInside :
        0 ≤ y * 80 + x ∧ y * 80 + x < 0 + COLUMNS * LINES := by
      simp only [COLUMNS, LINES]
      omega
    simp only [if_pos hInside]
    change vgaFormatAscii 0 15 0x20 = white 0x20
    decide
  · intro i hi
    simp only [List.mem_append, List.mem_reverse,
      List.mem_range'_1, State.static, COLUMNS, LINES,
      List.not_mem_nil, or_false] at hi
    omega

/- The calls that write to the screen. -/
inductive Call where
| put (byte : UInt8)
| write (string : List UInt8)
deriving DecidableEq, Repr

def Call.run (s : State) : Call → State
| .put byte => monitorPut s byte
| .write string => monitorWrite string s

/- The bytes that a call writes, up to a terminator. -/
def Call.bytes : Call → List UInt8
| .put byte => [byte]
| .write string => string.takeWhile (· ≠ 0)

theorem monitorWrite_eq
    (string : List UInt8)
    (s : State) :
    monitorWrite string s =
      (string.takeWhile (· ≠ 0)).foldl monitorPut s := by
  induction string generalizing s with
  | nil => rfl
  | cons byte rest ih =>
      rw [monitorWrite]
      by_cases hNull : byte = 0
      · simp [hNull]
      · simp [hNull, ih]

theorem Call.run_eq
    (s : State)
    (call : Call) :
    call.run s = call.bytes.foldl monitorPut s := by
  cases call with
  | put byte => rfl
  | write string => exact monitorWrite_eq string s

/- A run of calls writes their bytes one after the other. -/
theorem foldl_run_eq
    (calls : List Call)
    (s : State) :
    calls.foldl Call.run s =
      (calls.flatMap Call.bytes).foldl monitorPut s := by
  induction calls generalizing s with
  | nil => rfl
  | cons call calls ih =>
      rw [List.foldl_cons, List.flatMap_cons,
        List.foldl_append, ih, Call.run_eq]

/- The terminal after the bytes. -/
def Terminal.putAll (bytes : List UInt8) : Terminal :=
  bytes.foldl (fun t byte => t.put byte.toNat) .empty

theorem shows_foldl
    (bytes : List UInt8)
    (hWindow : Window s t)
    (hShows : Shows s t) :
    Shows (bytes.foldl monitorPut s)
      (bytes.foldl (fun t byte => t.put byte.toNat) t) := by
  induction bytes generalizing s t with
  | nil => exact hShows
  | cons byte bytes ih =>
      have hPut := hWindow.put byte.toNat_lt
      exact ih hPut.updateCursor hPut.shows

/-
  Whatever is written after `init_monitor`, and after every
  byte of it: the screen and the cursor are the window on
  the last rows of the terminal that has got the same bytes,
  and all stores were inside the screen.
-/
theorem monitor_shows_window
    (videoMem : Nat → Nat)
    (calls : List Call) :
    let start := initMonitor (.static videoMem)
    let bytes := calls.flatMap Call.bytes
    calls.foldl Call.run start =
        bytes.foldl monitorPut start ∧
      ∀ before, before <+: bytes →
        Shows (before.foldl monitorPut start)
          (.putAll before) := by
  intro start bytes
  have hWindow := window_initMonitor videoMem
  refine ⟨foldl_run_eq calls start, ?_⟩
  intro before _
  exact shows_foldl before hWindow.updateCursor hWindow.shows

end Monitor

end SosKernel
