import SosKernel.Kbd

/-
  The status bits of the control keys, against the codes that
  the keyboard has sent.

  Main declarations:
    * `Watched`, `watch`: the driver and its history
    * `TracksKeys`: what the status bits should be
    * `nextControls`, `testBit_nextControls`
    * `controls_track_iff`
    * `repeated_shift_inverted`
-/

------------------------------------------------------------
-- Histories
------------------------------------------------------------

namespace SosKernel

namespace Kbd

/- The code of the key, without the bit of a release. -/
def keyOf (scancode : Nat) : Nat :=
  scancode - (scancode &&& RELEASED_MASK)

def isMake (scancode : Nat) : Bool :=
  scancode &&& RELEASED_MASK == 0

/- The code of a control key in the layout of the driver. -/
def controlCode (i : Nat) : Nat :=
  kbdKeymapUs.controlMap.getD i 0

/- Control, alt, left shift and right shift. -/
def momentaryKeys : List Nat := [0, 1, 3, 4]

/- Alt-gr and the three locks. -/
def otherKeys : List Nat := [2, 5, 6, 7]

/-
  The driver, the status byte before the last code, and the
  codes handled, last first.
-/
structure Watched where
  state : State
  before : Nat
  history : List UInt8

def Watched.controls (run : Watched) : Nat :=
  run.state.layout.controls

def watch (run : Watched) (code : UInt8) : Watched where
  state := kbdHandler code.toNat run.state
  before := run.controls
  history := code :: run.history

/- The start of the driver. -/
def initialWatch (s : State) : Watched where
  state := kbdInitDriver s
  before := 0
  history := []

/- The last code of the key was a make code. -/
def lastIsMake
    (key : Nat) : List UInt8 → Bool
| [] => false
| code :: history =>
    if keyOf code.toNat = key then
      isMake code.toNat
    else
      lastIsMake key history

/-
  The bit of a momentary key is set just when its last code
  was a make code, and the last code changed the bit of
  another control key only if it was that key's make code.
-/
structure TracksKeys (run : Watched) : Prop where
  momentary :
    ∀ i ∈ momentaryKeys,
      run.controls.testBit i =
        lastIsMake (controlCode i) run.history
  others :
    ∀ i ∈ otherKeys,
      run.controls.testBit i ≠ run.before.testBit i →
        ∃ code ∈ run.history.head?,
          code.toNat = controlCode i

/-
  The code is not the make code of a momentary key whose bit
  is set, nor the release of the code zero, which stands for
  alt-gr, while its bit is set.
-/
def NoRepeat (run : Watched) (code : UInt8) : Prop :=
  (∀ i ∈ momentaryKeys,
    code.toNat = controlCode i →
      run.controls.testBit i = false) ∧
    (code.toNat = RELEASED_MASK →
      run.controls.testBit 2 = false)

------------------------------------------------------------
-- The Status Byte
------------------------------------------------------------

/- The status byte after a code. -/
def nextControls (code controls : Nat) : Nat :=
  if code &&& RELEASED_MASK ≠ 0 then
    match kbdKeymapUs.controlKey 5 (keyOf code) with
    | some i => controls - (controls &&& 1 <<< i)
    | none => controls
  else
    match kbdKeymapUs.controlKey 8 code with
    | some i =>
        if controls &&& 1 <<< i ≠ 0 then
          controls - (controls &&& 1 <<< i)
        else
          controls ||| 1 <<< i
    | none => controls

/- The driver's layout, with a status byte. -/
def layoutWith (controls : Nat) : Keymap :=
  { kbdKeymapUs with controls := controls }

theorem kbdHandler_layout
    {s : State}
    {controls : Nat}
    (code : Nat)
    (hLayout : s.layout = layoutWith controls) :
    (kbdHandler code s).layout =
      layoutWith (nextControls code controls) := by
  have hKey :
      ∀ n c, s.layout.controlKey n c =
        kbdKeymapUs.controlKey n c := by
    intro n c
    rw [hLayout]
    rfl
  have hControls : s.layout.controls = controls := by
    rw [hLayout]
    rfl
  unfold kbdHandler nextControls
  rw [hKey, hKey]
  by_cases hReleased : code &&& RELEASED_MASK ≠ 0
  · rw [if_pos hReleased, if_pos hReleased]
    unfold keyOf
    cases kbdKeymapUs.controlKey 5
        (code - (code &&& RELEASED_MASK)) with
    | none => exact hLayout
    | some i =>
        simp only [Keymap.clearControl, hLayout]
        rfl
  · rw [if_neg hReleased, if_neg hReleased]
    cases kbdKeymapUs.controlKey 8 code with
    | none =>
        dsimp only
        split
        · exact hLayout
        · exact hLayout
    | some i =>
        simp only [hControls]
        split
        · simp only [Keymap.clearControl, hLayout]
          rfl
        · simp only [Keymap.setControl, hLayout]
          rfl

/- What is taken away are bits that are there. -/
theorem sub_and :
    ∀ c < 256, ∀ i < 8,
      c - (c &&& 1 <<< i) = c ^^^ (c &&& 1 <<< i) := by
  decide +kernel

theorem testBit_one_shiftLeft (i j : Nat) :
    (1 <<< i).testBit j = (j == i) := by
  rw [Nat.one_shiftLeft, Nat.testBit_two_pow]
  by_cases hSame : i = j
  · rw [hSame, beq_self_eq_true]
    exact decide_eq_true rfl
  · rw [beq_eq_false_iff_ne.mpr (Ne.symm hSame)]
    exact decide_eq_false hSame

theorem testBit_clear
    {c i : Nat}
    (hc : c < 256)
    (hi : i < 8)
    (j : Nat) :
    (c - (c &&& 1 <<< i)).testBit j =
      (c.testBit j && (j != i)) := by
  rw [sub_and c hc i hi, Nat.testBit_xor, Nat.testBit_and,
    testBit_one_shiftLeft, bne]
  cases c.testBit j with
  | false => rfl
  | true =>
      rw [Bool.true_and, Bool.true_xor, Bool.true_and]

theorem and_ne_zero_iff (c i : Nat) :
    c &&& 1 <<< i ≠ 0 ↔ c.testBit i = true := by
  rw [Nat.one_shiftLeft, Nat.and_two_pow]
  have hPow : 0 < 2 ^ i := Nat.two_pow_pos i
  cases c.testBit i with
  | false => simp
  | true => simp

theorem testBit_toggle
    {c i : Nat}
    (hc : c < 256)
    (hi : i < 8)
    (j : Nat) :
    (if c &&& 1 <<< i ≠ 0 then c - (c &&& 1 <<< i)
      else c ||| 1 <<< i).testBit j =
        (c.testBit j ^^ (j == i)) := by
  by_cases hSet : c.testBit i = true
  · rw [if_pos ((and_ne_zero_iff c i).mpr hSet),
      testBit_clear hc hi]
    by_cases hSame : j = i
    · rw [hSame, hSet, bne_self_eq_false, beq_self_eq_true]
      rfl
    · rw [bne_iff_ne.mpr hSame,
        beq_eq_false_iff_ne.mpr hSame, Bool.and_true,
        Bool.xor_false]
  · have hClear : c.testBit i = false :=
      Bool.eq_false_iff.mpr hSet
    rw [if_neg (mt (and_ne_zero_iff c i).mp hSet),
      Nat.testBit_or, testBit_one_shiftLeft]
    by_cases hSame : j = i
    · rw [hSame, hClear, beq_self_eq_true]
      rfl
    · rw [beq_eq_false_iff_ne.mpr hSame, Bool.or_false,
        Bool.xor_false]

theorem setControl_lt
    {c i : Nat}
    (hc : c < 256)
    (hi : i < 8) :
    c ||| 1 <<< i < 256 := by
  have hBit : 1 <<< i < 2 ^ 8 := by
    rw [Nat.one_shiftLeft]
    exact Nat.pow_lt_pow_right (by decide) hi
  exact Nat.or_lt_two_pow (show c < 2 ^ 8 from hc) hBit

theorem controlKey_lt
    {n code i : Nat}
    (hFind : kbdKeymapUs.controlKey n code = some i) :
    i < n :=
  List.mem_range.mp (List.mem_of_find?_eq_some hFind)

theorem ne_controlCode :
    ∀ code < 256, code &&& RELEASED_MASK ≠ 0 →
      ∀ i < 8, code ≠ controlCode i := by
  decide +kernel

theorem released_ne_zero :
    ∀ i < 8,
      (controlCode i + RELEASED_MASK) &&& RELEASED_MASK ≠
        0 := by
  decide

theorem isMake_controlCode :
    ∀ i < 8, isMake (controlCode i) = true := by
  decide

theorem isMake_released :
    ∀ i < 8,
      isMake (controlCode i + RELEASED_MASK) = false := by
  decide

theorem keyOf_eq_iff :
    ∀ code < 256, ∀ i < 8,
      (keyOf code = controlCode i ↔
        code = controlCode i ∨
          code = controlCode i + RELEASED_MASK) := by
  decide +kernel

/- The control keys that a code is meant for. -/
theorem controlKey_released :
    ∀ code < 256, code &&& RELEASED_MASK ≠ 0 →
      ∀ i < 8,
        (kbdKeymapUs.controlKey 5 (keyOf code) = some i ↔
          i < 5 ∧ code = controlCode i + RELEASED_MASK) := by
  decide +kernel

theorem controlKey_pressed :
    ∀ code < 256, code &&& RELEASED_MASK = 0 →
      ∀ i < 8,
        (kbdKeymapUs.controlKey 8 code = some i ↔
          code = controlCode i) := by
  decide +kernel

theorem testBit_nextControls
    {code controls i : Nat}
    (hCode : code < 256)
    (hControls : controls < 256)
    (hi : i < 8) :
    (nextControls code controls).testBit i =
      if code = controlCode i then
        !controls.testBit i
      else if i < 5 ∧
          code = controlCode i + RELEASED_MASK then
        false
      else
        controls.testBit i := by
  unfold nextControls
  by_cases hReleased : code &&& RELEASED_MASK ≠ 0
  · rw [if_pos hReleased,
      if_neg (ne_controlCode code hCode hReleased i hi)]
    cases hFind :
        kbdKeymapUs.controlKey 5 (keyOf code) with
    | none =>
        have hOther :
            ¬ (i < 5 ∧
              code = controlCode i + RELEASED_MASK) := by
          intro hThis
          rw [← controlKey_released code hCode hReleased i hi,
            hFind] at hThis
          cases hThis
        rw [if_neg hOther]
    | some j =>
        have hj := controlKey_lt hFind
        dsimp only
        rw [testBit_clear hControls (by omega)]
        have hIff :=
          controlKey_released code hCode hReleased i hi
        rw [hFind, Option.some.injEq] at hIff
        by_cases hSame : j = i
        · rw [if_pos (hIff.mp hSame), hSame, bne_self_eq_false,
            Bool.and_false]
        · rw [if_neg (mt hIff.mpr hSame),
            bne_iff_ne.mpr (Ne.symm hSame), Bool.and_true]
  · rw [if_neg hReleased]
    have hMake := not_not.mp hReleased
    have hNotReleased :
        ¬ (i < 5 ∧ code = controlCode i + RELEASED_MASK) := by
      rintro ⟨-, hThis⟩
      exact released_ne_zero i hi (hThis ▸ hMake)
    have hIff := controlKey_pressed code hCode hMake i hi
    rw [if_neg hNotReleased]
    cases hFind : kbdKeymapUs.controlKey 8 code with
    | none =>
        have hOther : code ≠ controlCode i := by
          intro hThis
          rw [hFind] at hIff
          cases hIff.mpr hThis
        rw [if_neg hOther]
    | some j =>
        have hj := controlKey_lt hFind
        dsimp only
        rw [testBit_toggle hControls hj]
        rw [hFind, Option.some.injEq] at hIff
        by_cases hSame : j = i
        · rw [if_pos (hIff.mp hSame), hSame, beq_self_eq_true,
            Bool.xor_true]
        · rw [if_neg (mt hIff.mpr hSame),
            beq_eq_false_iff_ne.mpr (Ne.symm hSame),
            Bool.xor_false]

theorem nextControls_lt
    {code controls : Nat}
    (hControls : controls < 256) :
    nextControls code controls < 256 := by
  unfold nextControls
  split
  · split
    · exact lt_of_le_of_lt (Nat.sub_le _ _) hControls
    · exact hControls
  · cases hFind : kbdKeymapUs.controlKey 8 code with
    | none => exact hControls
    | some i =>
        dsimp only
        split
        · exact lt_of_le_of_lt (Nat.sub_le _ _) hControls
        · exact setControl_lt hControls (controlKey_lt hFind)

/- The code of a key, or of its release. -/
theorem lastIsMake_cons
    {i : Nat}
    (code : UInt8)
    (history : List UInt8)
    (hi : i < 8) :
    lastIsMake (controlCode i) (code :: history) =
      if code.toNat = controlCode i then
        true
      else if code.toNat =
          controlCode i + RELEASED_MASK then
        false
      else
        lastIsMake (controlCode i) history := by
  have hKey :=
    keyOf_eq_iff code.toNat code.toNat_lt i hi
  rw [lastIsMake]
  by_cases hMake : code.toNat = controlCode i
  · rw [if_pos (hKey.mpr (.inl hMake)), if_pos hMake, hMake]
    exact isMake_controlCode i hi
  · rw [if_neg hMake]
    by_cases hBreak :
        code.toNat = controlCode i + RELEASED_MASK
    · rw [if_pos (hKey.mpr (.inr hBreak)), if_pos hBreak,
        hBreak]
      exact isMake_released i hi
    · rw [if_neg hBreak, if_neg]
      intro hThis
      rcases hKey.mp hThis with hThis | hThis
      · exact hMake hThis
      · exact hBreak hThis

------------------------------------------------------------
-- Runs
------------------------------------------------------------

/- The driver keeps its layout, and tracks the keys. -/
structure Tracked (run : Watched) : Prop where
  layout : run.state.layout = layoutWith run.controls
  controls : run.controls < 256
  keys : TracksKeys run

variable {run : Watched} {code : UInt8}

theorem Tracked.watch_controls
    (hRun : Tracked run)
    (code : UInt8) :
    (watch run code).controls =
      nextControls code.toNat run.controls := by
  have hLayout :=
    kbdHandler_layout code.toNat hRun.layout
  exact congrArg Keymap.controls hLayout

theorem momentaryKeys_lt :
    ∀ i ∈ momentaryKeys, i < 5 := by
  decide

theorem otherKeys_lt :
    ∀ i ∈ otherKeys, i < 8 ∧ (i < 5 → i = 2) := by
  decide

/- Each code that is no repeat keeps the keys tracked. -/
theorem Tracked.watch
    (hRun : Tracked run)
    (hFits : NoRepeat run code) :
    Tracked (watch run code) := by
  have hControls := hRun.watch_controls code
  refine ⟨?_, ?_, ?_, ?_⟩
  · rw [hControls]
    exact kbdHandler_layout code.toNat hRun.layout
  · rw [hControls]
    exact nextControls_lt hRun.controls
  · intro i hi
    have hLt := momentaryKeys_lt i hi
    rw [hControls,
      testBit_nextControls code.toNat_lt hRun.controls
        (by omega)]
    change _ =
      lastIsMake (controlCode i) (code :: run.history)
    rw [lastIsMake_cons code run.history (by omega)]
    split
    · rename_i hMake
      rw [hFits.1 i hi hMake]
      rfl
    · simp only [hLt, true_and]
      split
      · rfl
      · exact hRun.keys.momentary i hi
  · intro i hi hChanged
    rcases otherKeys_lt i hi with ⟨hLt, hAltGr⟩
    refine ⟨code, rfl, ?_⟩
    by_contra hOther
    rw [hControls,
      testBit_nextControls code.toNat_lt hRun.controls hLt,
      if_neg hOther] at hChanged
    split at hChanged
    · rename_i hReleased
      rcases hReleased with ⟨hLow, hReleased⟩
      rw [hAltGr hLow] at hChanged hReleased
      exact hChanged (hFits.2 hReleased).symm
    · exact hChanged rfl

/-
  A repeat turns the bit of a held key off, and the release
  of the code zero that of alt-gr.
-/
theorem Tracked.noRepeat
    (hRun : Tracked run)
    (hKeys : TracksKeys (Kbd.watch run code)) :
    NoRepeat run code := by
  have hControls := hRun.watch_controls code
  constructor
  · intro i hi hMake
    have hLt := momentaryKeys_lt i hi
    have hBit := hKeys.momentary i hi
    change _ =
      lastIsMake (controlCode i) (code :: run.history) at hBit
    rw [hControls,
      testBit_nextControls code.toNat_lt hRun.controls
        (by omega),
      lastIsMake_cons code run.history (by omega),
      if_pos hMake, if_pos hMake] at hBit
    rw [← Bool.not_eq_true', hBit]
  · intro hReleased
    by_contra hSet
    have hNext :
        (Kbd.watch run code).controls.testBit 2 = false := by
      rw [hControls,
        testBit_nextControls code.toNat_lt hRun.controls
          (by decide),
        hReleased]
      rfl
    have hChanged :
        (Kbd.watch run code).controls.testBit 2 ≠
          run.controls.testBit 2 := by
      intro hSame
      rw [← hSame, hNext] at hSet
      exact hSet rfl
    rcases hKeys.others 2 (by decide) hChanged with
      ⟨c, hc, hMake⟩
    cases hc
    rw [hReleased] at hMake
    cases hMake

theorem tracked_initialWatch (s : State) :
    Tracked (initialWatch s) where
  layout := rfl
  controls := Nat.zero_lt_succ 255
  keys := by
    refine ⟨?_, ?_⟩
    · intro i _
      exact Nat.zero_testBit i
    · intro i _ hChanged
      exact absurd rfl hChanged

/-
  From `kbd_init_driver` on, for every sequence of codes: the
  status bits track the keys after each of them if and only
  if no key is repeated while its bit is set.
-/
theorem controls_track_iff
    (s : State)
    (codes : List UInt8) :
    (∀ before, before <+: codes →
      TracksKeys (before.foldl watch (initialWatch s))) ↔
      AllFit watch NoRepeat (initialWatch s) codes :=
  forall_prefix_iff_allFit
    (fun _ hRun => hRun.keys)
    (fun _ _ hRun hFits => hRun.watch hFits)
    (fun _ _ hRun hAfter => hRun.noRepeat hAfter)
    (tracked_initialWatch s) codes

/-
  The left shift key is held until the keyboard repeats its
  make code, which turns its bit off.
-/
theorem repeated_shift_inverted :
    let run :=
      [42, 42].foldl watch
        (initialWatch ⟨kbdKeymapUs, 0, 0, fun _ => 0⟩)
    run.controls.testBit 3 = false ∧
      lastIsMake (controlCode 3) run.history = true ∧
      ¬ TracksKeys run := by
  intro run
  have hBit : run.controls.testBit 3 = false := by
    decide +kernel
  have hMake :
      lastIsMake (controlCode 3) run.history = true := by
    decide +kernel
  refine ⟨hBit, hMake, ?_⟩
  intro hKeys
  have hSame := hKeys.momentary 3 (by decide)
  rw [hBit, hMake] at hSame
  cases hSame

end Kbd

end SosKernel
