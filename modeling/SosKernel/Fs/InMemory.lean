import SosKernel.Fs.Strings
import SosKernel.Lib.Program
import SosKernel.Stop

/-
  `strcpy`, `strcat`, `strlen` and `strcmp` of
  `lib/string.c` on the bytes of memory, with the addresses
  that the first two read through `src`.

  Main declarations:
    * `StrM`, `load`, `read`, `write`
    * `strcpy`, `strcat`, `strlen`, `strcmp`
    * `run_strcpy_array`, `run_strcmp_array`: the functions
      on the arrays of the file system
    * `run_copyLoop`: copying a string that is not empty
    * `Joined`: what the two functions are for
    * `strcpy_strcat_iff`
-/

------------------------------------------------------------
-- Memory
------------------------------------------------------------

namespace SosKernel

namespace Fs

namespace InMemory

/-
  The bytes, and the addresses that have been read through
  `src`, last first.
-/
structure Memory where
  bytes : ByteMemory
  reads : List Nat

abbrev StrM := EStateM Stop Memory

def load (a : Nat) : StrM UInt8 := do
  return (← get).bytes a

def read (a : Nat) : StrM UInt8 := do
  modify fun m => { m with reads := a :: m.reads }
  return (← get).bytes a

def write (a : Nat) (v : UInt8) : StrM Unit :=
  modify fun m =>
    { m with bytes := Function.update m.bytes a v }

------------------------------------------------------------
-- The Functions
------------------------------------------------------------

/-
  `do *dest++ = *src++; while (*src != 0)`, with the last
  value of `dest`.
-/
def copyLoop : Nat → Nat → Nat → StrM Nat
| 0, _, _ => throw .hang
| fuel + 1, dest, src => do
    write dest (← read src)
    if (← read (src + 1)) ≠ 0 then
      copyLoop fuel (dest + 1) (src + 1)
    else
      return dest + 1

/- The address of the first null byte from `a` on. -/
def findEnd : Nat → Nat → StrM Nat
| 0, _ => throw .hang
| fuel + 1, a => do
    if (← load a) ≠ 0 then
      findEnd fuel (a + 1)
    else
      return a

/- The loop moves a copy of `dest`. -/
def strcpy (fuel dest src : Nat) : StrM Nat := do
  let _ ← copyLoop fuel dest src
  return dest

/- Both loops move `dest`, which is returned. -/
def strcat (fuel dest src : Nat) : StrM Nat := do
  let last ← findEnd fuel dest
  copyLoop fuel last src

def strlen (fuel str : Nat) : StrM Nat := do
  let last ← findEnd fuel str
  return last - str

def strcmp : Nat → Nat → Nat → StrM Int
| 0, _, _ => throw .hang
| fuel + 1, str1, str2 => do
    if (← load str1) = (← load str2) then
      if (← load str1) = 0 then
        return 0
      else
        strcmp fuel (str1 + 1) (str2 + 1)
    else
      return (((← load str1).toNat : Int) -
        ((← load str2).toNat : Int))

------------------------------------------------------------
-- One Access
------------------------------------------------------------

/- From `m` to `m'` only addresses in `P` were read. -/
def ReadsIn (P : Nat → Prop) (m m' : Memory) : Prop :=
  ∀ a ∈ m'.reads, a ∈ m.reads ∨ P a

/- The addresses from `a` to `a + n`. -/
def Within (a n x : Nat) : Prop :=
  a ≤ x ∧ x ≤ a + n

theorem ReadsIn.trans
    {P : Nat → Prop}
    {m m' m'' : Memory}
    (h₁ : ReadsIn P m m')
    (h₂ : ReadsIn P m' m'') :
    ReadsIn P m m'' := by
  intro a ha
  rcases h₂ a ha with ha | ha
  · exact h₁ a ha
  · exact .inr ha

theorem ReadsIn.imp
    {P Q : Nat → Prop}
    {m m' : Memory}
    (hReads : ReadsIn P m m')
    (hImp : ∀ a, P a → Q a) :
    ReadsIn Q m m' :=
  fun a ha => (hReads a ha).imp_right (hImp a)

def Memory.afterRead (m : Memory) (a : Nat) : Memory :=
  { m with reads := a :: m.reads }

def Memory.afterWrite
    (m : Memory)
    (a : Nat)
    (v : UInt8) : Memory :=
  { m with bytes := Function.update m.bytes a v }

theorem run_read
    (m : Memory)
    (a : Nat) :
    (read a).run m = .ok (m.bytes a) (m.afterRead a) := rfl

theorem run_load
    (m : Memory)
    (a : Nat) :
    (load a).run m = .ok (m.bytes a) m := rfl

theorem run_write
    (m : Memory)
    (a : Nat)
    (v : UInt8) :
    (write a v).run m = .ok () (m.afterWrite a v) := rfl

------------------------------------------------------------
-- Strings
------------------------------------------------------------

variable {m : Memory}
variable {s t u : List UInt8}
variable {dest src : Nat}

/- A string is at `a`: its bytes, and a null byte. -/
def Holds (m : Memory) (a : Nat) (s : List UInt8) : Prop :=
  m.bytes.HoldsAt a (cString s) ∧ Unterminated s

theorem Holds.congr
    {m' : Memory}
    (hHolds : Holds m src s)
    (hSame :
      ∀ x, Within src s.length x → m'.bytes x = m.bytes x) :
    Holds m' src s := by
  refine ⟨hHolds.1.congr ?_, hHolds.2⟩
  intro k hk
  unfold cString at hk
  rw [List.length_append, List.length_singleton] at hk
  exact hSame (src + k) ⟨by omega, by omega⟩

/- The loop of `strlen`, on the bytes of an array. -/
theorem run_findEnd_array
    {fuel n : Nat}
    (hHolds : m.bytes.HoldsAt src s)
    (hSome : Fs.strlen s = some n)
    (hFuel : s.length ≤ fuel) :
    (findEnd fuel src).run m = .ok (src + n) m := by
  induction s generalizing src fuel n with
  | nil => cases hSome
  | cons c s ih =>
      cases fuel with
      | zero => exact absurd hFuel (Nat.not_succ_le_zero _)
      | succ fuel =>
          have hFirst : m.bytes src = c :=
            hHolds 0 (Nat.zero_lt_succ _)
          rw [findEnd, EStateM.bind_of_ok (run_load m src),
            hFirst]
          unfold Fs.strlen at hSome
          by_cases hc : c = 0
          · rw [if_pos hc] at hSome
            cases hSome
            rw [if_neg (not_not.mpr hc)]
            rfl
          · rw [if_neg hc, Option.map_eq_some_iff] at hSome
            rcases hSome with ⟨k, hRest, rfl⟩
            have hTail : m.bytes.HoldsAt (src + 1) s :=
              hHolds.drop 1
            rw [if_pos hc,
              ih hTail hRest (Nat.le_of_succ_le_succ hFuel)]
            congr 1
            omega

/- The end of a string is found, and nothing is changed. -/
theorem run_findEnd
    {fuel : Nat}
    (hHolds : Holds m src s)
    (hFuel : s.length < fuel) :
    (findEnd fuel src).run m = .ok (src + s.length) m := by
  refine run_findEnd_array hHolds.1 (strlen_cString hHolds.2) ?_
  unfold cString
  rw [List.length_append]
  exact hFuel

------------------------------------------------------------
-- The Copying Loop
------------------------------------------------------------

/- One character is copied, and the next one is looked at. -/
def Memory.afterStep (m : Memory) (dest src : Nat) : Memory :=
  ((m.afterRead src).afterWrite dest
    (m.bytes src)).afterRead (src + 1)

theorem run_copyLoop_succ
    (fuel : Nat)
    (m : Memory)
    (dest src : Nat) :
    (copyLoop (fuel + 1) dest src).run m =
      if (m.afterStep dest src).bytes (src + 1) ≠ 0 then
        (copyLoop fuel (dest + 1) (src + 1)).run
          (m.afterStep dest src)
      else
        .ok (dest + 1) (m.afterStep dest src) := by
  rw [copyLoop, EStateM.bind_of_ok (run_read m src),
    EStateM.bind_of_ok (run_write _ dest (m.bytes src)),
    EStateM.bind_of_ok (run_read _ (src + 1))]
  by_cases hNext :
      (m.afterStep dest src).bytes (src + 1) ≠ 0
  · rw [if_pos hNext]
    exact congrArg (EStateM.run · _) (if_pos hNext)
  · rw [if_neg hNext]
    exact congrArg (EStateM.run · _) (if_neg hNext)

theorem bytes_afterStep_self :
    (m.afterStep dest src).bytes dest = m.bytes src :=
  Function.update_self dest _ _

theorem bytes_afterStep_of_ne
    {x : Nat}
    (hNe : x ≠ dest) :
    (m.afterStep dest src).bytes x = m.bytes x :=
  Function.update_of_ne hNe _ _

theorem readsIn_afterStep
    {n : Nat}
    (hn : 0 < n) :
    ReadsIn (Within src n) m (m.afterStep dest src) := by
  intro x hx
  rcases List.mem_cons.mp hx with rfl | hx
  · exact .inr ⟨by omega, by omega⟩
  · rcases List.mem_cons.mp hx with rfl | hx
    · exact .inr ⟨by omega, by omega⟩
    · exact .inl hx

/- What a string leaves at `dest` when it is copied. -/
structure Copied
    (m : Memory)
    (dest src : Nat)
    (s : List UInt8)
    (m' : Memory) : Prop where
  held : m'.bytes.HoldsAt dest s
  outside :
    ∀ x, x < dest ∨ dest + s.length ≤ x →
      m'.bytes x = m.bytes x
  reads : ReadsIn (Within src s.length) m m'

/- The bytes that an array gets, with the memory after it. -/
theorem run_copyLoop_array
    {room fuel : Nat}
    (hSome : strcpyBytes m.bytes room src = some s)
    (hApart : dest + s.length ≤ src ∨ src + s.length < dest)
    (hFuel : s.length ≤ fuel) :
    ∃ m',
      (copyLoop fuel dest src).run m =
          .ok (dest + s.length) m' ∧
        Copied m dest src s m' := by
  induction room generalizing m dest src s fuel with
  | zero => cases hSome
  | succ room ih =>
      have hHere {n : Nat} :
          ReadsIn (Within src (n + 1)) m
            (m.afterStep dest src) :=
        readsIn_afterStep (Nat.succ_pos _)
      unfold strcpyBytes at hSome
      split at hSome
      · next hNext =>
          rcases Option.map_eq_some_iff.mp hSome with
            ⟨bs, hRest, rfl⟩
          rw [List.length_cons] at hApart hFuel
          cases fuel with
          | zero => exact absurd hFuel (Nat.not_succ_le_zero _)
          | succ fuel =>
              have hTail :
                  strcpyBytes (m.afterStep dest src).bytes room
                    (src + 1) = some bs :=
                strcpyBytes_congr hRest fun x hLo hHi =>
                  bytes_afterStep_of_ne (by omega)
              rcases ih hTail
                  (by omega :
                    dest + 1 + bs.length ≤ src + 1 ∨
                      src + 1 + bs.length < dest + 1)
                  (Nat.le_of_succ_le_succ hFuel) with
                ⟨m', hRun, hCopied⟩
              rw [run_copyLoop_succ,
                bytes_afterStep_of_ne (by omega),
                if_pos hNext, List.length_cons]
              rw [Nat.add_assoc, Nat.add_comm 1] at hRun
              refine ⟨m', hRun, ?_⟩
              refine { held := ?_, outside := ?_, reads := ?_ }
              · intro k hk
                cases k with
                | zero =>
                    rw [Nat.add_zero,
                      hCopied.outside dest (by omega)]
                    exact bytes_afterStep_self
                | succ k =>
                    have hAddr :
                        dest + (k + 1) = dest + 1 + k := by
                      omega
                    rw [hAddr]
                    exact hCopied.held k
                      (Nat.lt_of_succ_lt_succ hk)
              · intro x hx
                rw [List.length_cons] at hx
                rw [hCopied.outside x (by omega)]
                exact bytes_afterStep_of_ne (by omega)
              · refine hHere.trans (hCopied.reads.imp ?_)
                rintro a ⟨hLow, hHigh⟩
                exact ⟨by omega, by omega⟩
      · next hNext =>
          cases hSome
          rw [List.length_singleton] at hApart hFuel
          cases fuel with
          | zero => exact absurd hFuel (Nat.not_succ_le_zero _)
          | succ fuel =>
              rw [run_copyLoop_succ,
                bytes_afterStep_of_ne (by omega),
                if_neg hNext]
              refine ⟨_, rfl, ?_⟩
              refine
                { held := ?_, outside := ?_, reads := hHere }
              · intro k hk
                have hZero : k = 0 := Nat.lt_one_iff.mp hk
                subst hZero
                exact bytes_afterStep_self
              · intro x hx
                rw [List.length_singleton] at hx
                exact bytes_afterStep_of_ne (by omega)

/-
  The characters of a string that is not empty are copied,
  but the null byte is not.
-/
theorem run_copyLoop
    {fuel : Nat}
    (hNonempty : s ≠ [])
    (hHolds : Holds m src s)
    (hApart : dest + s.length ≤ src ∨ src + s.length < dest)
    (hFuel : s.length ≤ fuel) :
    ∃ m',
      (copyLoop fuel dest src).run m =
          .ok (dest + s.length) m' ∧
        Copied m dest src s m' :=
  run_copyLoop_array
    (strcpyBytes_terminated hNonempty hHolds.2 hHolds.1
      (Nat.le_refl _)) hApart hFuel

/- `strcpy` into memory is `strcpy` into the array there. -/
theorem run_strcpy_array
    {fuel : Nat}
    (hHolds : m.bytes.HoldsAt dest s)
    (hSome : Fs.strcpy m.bytes s src = some t)
    (hApart : dest + s.length ≤ src ∨ src + s.length < dest)
    (hFuel : s.length ≤ fuel) :
    ∃ m',
      (strcpy fuel dest src).run m = .ok dest m' ∧
        m'.bytes.HoldsAt dest t := by
  rcases Option.map_eq_some_iff.mp hSome with ⟨bs, hBytes, rfl⟩
  have hFits := length_strcpyBytes hBytes
  have hApart' :
      dest + bs.length ≤ src ∨ src + bs.length < dest := by
    omega
  rcases run_copyLoop_array hBytes hApart'
      (Nat.le_trans hFits hFuel) with
    ⟨m', hRun, hCopied⟩
  refine ⟨m', ?_, ?_⟩
  · rw [strcpy, EStateM.bind_of_ok hRun]
    rfl
  · apply hCopied.held.append
    apply (hHolds.drop bs.length).congr
    intro k hk
    exact hCopied.outside _ (.inr (by omega))

theorem reads_copyLoop
    {fuel a last : Nat}
    {m' : Memory}
    (hRun : (copyLoop fuel dest src).run m = .ok last m')
    (ha : a ∈ m.reads) :
    a ∈ m'.reads := by
  induction fuel generalizing m dest src with
  | zero => cases hRun
  | succ fuel ih =>
      have hHere : a ∈ (m.afterStep dest src).reads :=
        List.mem_cons_of_mem _ (List.mem_cons_of_mem _ ha)
      rw [run_copyLoop_succ] at hRun
      by_cases hNext :
          (m.afterStep dest src).bytes (src + 1) ≠ 0
      · rw [if_pos hNext] at hRun
        exact ih hRun hHere
      · rw [if_neg hNext] at hRun
        cases hRun
        exact hHere

/- The second byte of `src` is always looked at. -/
theorem second_mem_reads_copyLoop
    {fuel last : Nat}
    {m' : Memory}
    (hRun : (copyLoop fuel dest src).run m = .ok last m') :
    src + 1 ∈ m'.reads := by
  cases fuel with
  | zero => cases hRun
  | succ fuel =>
      have hHere : src + 1 ∈ (m.afterStep dest src).reads :=
        List.mem_cons_self
      rw [run_copyLoop_succ] at hRun
      by_cases hNext :
          (m.afterStep dest src).bytes (src + 1) ≠ 0
      · rw [if_pos hNext] at hRun
        exact reads_copyLoop hRun hHere
      · rw [if_neg hNext] at hRun
        cases hRun
        exact hHere

------------------------------------------------------------
-- Comparing
------------------------------------------------------------

theorem run_strcmp_succ
    (fuel : Nat)
    (m : Memory)
    (a b : Nat) :
    (strcmp (fuel + 1) a b).run m =
      if m.bytes a = m.bytes b then
        if m.bytes a = 0 then
          .ok 0 m
        else
          (strcmp fuel (a + 1) (b + 1)).run m
      else
        .ok (((m.bytes a).toNat : Int) - (m.bytes b).toNat)
          m := by
  rw [strcmp, EStateM.bind_of_ok (run_load m a),
    EStateM.bind_of_ok (run_load m b)]
  by_cases hSame : m.bytes a = m.bytes b
  · rw [if_pos hSame, if_pos hSame,
      EStateM.bind_of_ok (run_load m a)]
    by_cases hEnd : m.bytes a = 0
    · rw [if_pos hEnd, if_pos hEnd]
      rfl
    · rw [if_neg hEnd, if_neg hEnd]
  · rw [if_neg hSame, if_neg hSame,
      EStateM.bind_of_ok (run_load m a),
      EStateM.bind_of_ok (run_load m b)]
    rfl

/- Memory compares as the arrays that it holds. -/
theorem run_strcmp_array
    {fuel a b : Nat}
    {d : Int}
    (hs : m.bytes.HoldsAt a s)
    (ht : m.bytes.HoldsAt b t)
    (hSome : Fs.strcmp s t = some d)
    (hFuel : s.length ≤ fuel) :
    (strcmp fuel a b).run m = .ok d m := by
  induction s generalizing a b t fuel with
  | nil => cases hSome
  | cons c s ih =>
      cases fuel with
      | zero => exact absurd hFuel (Nat.not_succ_le_zero _)
      | succ fuel =>
          cases t with
          | nil => cases hSome
          | cons e t =>
              have hLeft : m.bytes a = c :=
                hs 0 (Nat.zero_lt_succ _)
              have hRight : m.bytes b = e :=
                ht 0 (Nat.zero_lt_succ _)
              have hs' : m.bytes.HoldsAt (a + 1) s := hs.drop 1
              have ht' : m.bytes.HoldsAt (b + 1) t := ht.drop 1
              unfold Fs.strcmp at hSome
              rw [run_strcmp_succ, hLeft, hRight]
              by_cases hSame : c = e
              · rw [if_pos hSame] at hSome ⊢
                by_cases hc : c = 0
                · rw [if_pos hc] at hSome ⊢
                  cases hSome
                  rfl
                · rw [if_neg hc] at hSome ⊢
                  exact ih hs' ht' hSome
                    (Nat.le_of_succ_le_succ hFuel)
              · rw [if_neg hSame] at hSome ⊢
                cases hSome
                rfl

/- `strcmp` returns 0 just for equal strings. -/
theorem run_strcmp
    {fuel a b : Nat}
    (hs : Holds m a s)
    (ht : Holds m b t)
    (hFuel : s.length < fuel) :
    ∃ d,
      (strcmp fuel a b).run m = .ok d m ∧
        (d = 0 ↔ s = t) := by
  have hLength : (cString s).length ≤ fuel := by
    unfold cString
    rw [List.length_append]
    exact hFuel
  by_cases hSame : s = t
  · subst hSame
    refine ⟨0, ?_, iff_of_true rfl rfl⟩
    exact run_strcmp_array hs.1 ht.1 (strcmp_self hs.2) hLength
  · rcases strcmp_of_ne [] hs.2 ht.2 hSame with ⟨d, hSome, hd⟩
    refine ⟨d, ?_, iff_of_false hd hSame⟩
    exact run_strcmp_array hs.1 ht.1 hSome hLength

------------------------------------------------------------
-- What the Functions Are For
------------------------------------------------------------

/-
  The string `u` is at `dest`, as `strlen` and `strcmp` find,
  and nothing beyond the null byte of `s` has been read.
-/
structure Joined
    (dest : Nat)
    (u : List UInt8)
    (src : Nat)
    (s : List UInt8)
    (m : Memory) : Prop where
  held : Holds m dest u
  reads : ∀ a ∈ m.reads, Within src s.length a
  length :
    ∀ fuel, u.length < fuel →
      (strlen fuel dest).run m = .ok u.length m
  compare :
    ∀ fuel b v, u.length < fuel → Holds m b v →
      ∃ d, (strcmp fuel dest b).run m = .ok d m ∧
        (d = 0 ↔ u = v)

theorem joined_of_holds
    (hHolds : Holds m dest u)
    (hReads : ∀ a ∈ m.reads, Within src s.length a) :
    Joined dest u src s m where
  held := hHolds
  reads := hReads
  length fuel hFuel := by
    rw [strlen,
      EStateM.bind_of_ok (run_findEnd hHolds hFuel),
      Nat.add_sub_cancel_left]
    rfl
  compare fuel b v hFuel hb := run_strcmp hHolds hb hFuel

/- Nothing has been read yet. -/
def fresh (mem : ByteMemory) : Memory where
  bytes := mem
  reads := []

def StrcpyRight
    (mem : ByteMemory)
    (dest src : Nat)
    (s : List UInt8) : Prop :=
  ∃ bound, ∀ fuel, bound ≤ fuel →
    ∃ m,
      (strcpy fuel dest src).run (fresh mem) = .ok dest m ∧
        Joined dest s src s m

/- `strcat` returns the end of the result. -/
def StrcatRight
    (mem : ByteMemory)
    (dest src : Nat)
    (t s : List UInt8) : Prop :=
  ∃ bound, ∀ fuel, bound ≤ fuel →
    ∃ m,
      (strcat fuel dest src).run (fresh mem) =
          .ok (dest + (t ++ s).length) m ∧
        Joined dest (t ++ s) src s m

/- A copy behind `t` ends where a null byte was before. -/
theorem Copied.holds_iff
    {m' : Memory}
    (hPrefix : m.bytes.HoldsAt dest t)
    (ht : Unterminated t)
    (hs : Unterminated s)
    (hCopied : Copied m (dest + t.length) src s m') :
    Holds m' dest (t ++ s) ↔
      m.bytes (dest + t.length + s.length) = 0 := by
  have hLast :
      m'.bytes (dest + t.length + s.length) =
        m.bytes (dest + t.length + s.length) :=
    hCopied.outside _ (.inr (Nat.le_refl _))
  constructor
  · intro hHolds
    have hEnd := hHolds.1.right 0 Nat.zero_lt_one
    rw [List.length_append, Nat.add_zero, ← Nat.add_assoc,
      hLast] at hEnd
    exact hEnd
  · intro hZero
    have hFirst : m'.bytes.HoldsAt dest t := by
      refine hPrefix.congr ?_
      intro k hk
      exact hCopied.outside _ (by omega)
    have hEnd :
        m'.bytes.HoldsAt (dest + (t ++ s).length) [0] := by
      intro k hk
      have hk : k = 0 := Nat.lt_one_iff.mp hk
      subst hk
      rw [List.length_append, Nat.add_zero, ← Nat.add_assoc,
        hLast, hZero]
      rfl
    refine ⟨(hFirst.append hCopied.held).append hEnd, ?_⟩
    intro c hc
    rcases List.mem_append.mp hc with hc | hc
    · exact ht c hc
    · exact hs c hc

/-
  The loop that both functions end with: what has to hold if
  it is right.
-/
theorem copyLoop_needs
    {mem : ByteMemory}
    (hPrefix : mem.HoldsAt dest t)
    (ht : Unterminated t)
    (hSrc : Holds (fresh mem) src s)
    (hApart :
      dest + t.length + s.length < src ∨
        src + s.length < dest)
    (hRight :
      ∃ bound, ∀ fuel, bound ≤ fuel →
        ∃ last m,
          (copyLoop fuel (dest + t.length) src).run
              (fresh mem) = .ok last m ∧
            Joined dest (t ++ s) src s m) :
    s ≠ [] ∧ mem (dest + t.length + s.length) = 0 := by
  rcases hRight with ⟨bound, hRight⟩
  rcases hRight (max bound s.length) (Nat.le_max_left _ _)
    with ⟨last, m, hLoop, hJoined⟩
  have hNonempty : s ≠ [] := by
    intro hEmpty
    subst hEmpty
    have hBeyond :=
      hJoined.reads _ (second_mem_reads_copyLoop hLoop)
    exact absurd hBeyond.2 (Nat.not_succ_le_self src)
  have hApart' :
      dest + t.length + s.length ≤ src ∨
        src + s.length < dest + t.length := by
    omega
  rcases run_copyLoop hNonempty hSrc hApart'
    (Nat.le_max_right bound _) with ⟨m₂, hRun, hCopied⟩
  rw [hRun] at hLoop
  cases hLoop
  exact ⟨hNonempty,
    (hCopied.holds_iff hPrefix ht hSrc.2).mp hJoined.held⟩

/- The loop is right then, and ends where the result ends. -/
theorem copyLoop_right
    {mem : ByteMemory}
    {fuel : Nat}
    (hPrefix : mem.HoldsAt dest t)
    (ht : Unterminated t)
    (hSrc : Holds (fresh mem) src s)
    (hApart :
      dest + t.length + s.length < src ∨
        src + s.length < dest)
    (hNonempty : s ≠ [])
    (hZero : mem (dest + t.length + s.length) = 0)
    (hFuel : s.length ≤ fuel) :
    ∃ m,
      (copyLoop fuel (dest + t.length) src).run (fresh mem) =
          .ok (dest + (t ++ s).length) m ∧
        Joined dest (t ++ s) src s m := by
  have hApart' :
      dest + t.length + s.length ≤ src ∨
        src + s.length < dest + t.length := by
    omega
  rcases run_copyLoop hNonempty hSrc hApart' hFuel with
    ⟨m, hRun, hCopied⟩
  rw [Nat.add_assoc, ← List.length_append] at hRun
  refine ⟨m, hRun, joined_of_holds ?_ ?_⟩
  · exact (hCopied.holds_iff hPrefix ht hSrc.2).mpr hZero
  · intro a ha
    rcases hCopied.reads a ha with hNone | hWithin
    · cases hNone
    · exact hWithin

theorem strcpyRight_iff
    {mem : ByteMemory}
    (hSrc : Holds (fresh mem) src s)
    (hApart :
      dest + s.length < src ∨ src + s.length < dest) :
    StrcpyRight mem dest src s ↔
      s ≠ [] ∧ mem (dest + s.length) = 0 := by
  have hNothing : mem.HoldsAt dest [] := by
    intro k hk
    cases hk
  constructor
  · rintro ⟨bound, hRight⟩
    refine copyLoop_needs hNothing unterminated_nil hSrc hApart
      ⟨bound, ?_⟩
    intro fuel hFuel
    rcases hRight fuel hFuel with ⟨m, hRun, hJoined⟩
    rw [strcpy, EStateM.bind_eq_ok_iff] at hRun
    rcases hRun with ⟨last, m₁, hLoop, hEnd⟩
    cases hEnd
    exact ⟨last, m, hLoop, hJoined⟩
  · rintro ⟨hNonempty, hZero⟩
    refine ⟨s.length, ?_⟩
    intro fuel hFuel
    rcases copyLoop_right hNothing unterminated_nil hSrc hApart
        hNonempty hZero hFuel with ⟨m, hLoop, hJoined⟩
    refine ⟨m, ?_, hJoined⟩
    rw [List.length_nil, Nat.add_zero] at hLoop
    rw [strcpy, EStateM.bind_of_ok hLoop]
    rfl

theorem strcatRight_iff
    {mem : ByteMemory}
    (hDest : Holds (fresh mem) dest t)
    (hSrc : Holds (fresh mem) src s)
    (hApart :
      dest + t.length + s.length < src ∨
        src + s.length < dest) :
    StrcatRight mem dest src t s ↔
      s ≠ [] ∧ mem (dest + t.length + s.length) = 0 := by
  have hPrefix : mem.HoldsAt dest t := hDest.1.left
  have hStrcat :
      ∀ fuel, t.length < fuel →
        (strcat fuel dest src).run (fresh mem) =
          (copyLoop fuel (dest + t.length) src).run
            (fresh mem) := by
    intro fuel hFuel
    rw [strcat, EStateM.bind_of_ok (run_findEnd hDest hFuel)]
  constructor
  · rintro ⟨bound, hRight⟩
    refine copyLoop_needs hPrefix hDest.2 hSrc hApart
      ⟨max bound (t.length + 1), ?_⟩
    intro fuel hFuel
    rcases hRight fuel (by omega) with ⟨m, hRun, hJoined⟩
    rw [hStrcat fuel (by omega)] at hRun
    exact ⟨_, m, hRun, hJoined⟩
  · rintro ⟨hNonempty, hZero⟩
    refine ⟨max s.length (t.length + 1), ?_⟩
    intro fuel hFuel
    rw [hStrcat fuel (by omega)]
    exact copyLoop_right hPrefix hDest.2 hSrc hApart hNonempty
      hZero (by omega)

/-
  Both functions are right if and only if the source is not
  empty and the byte that should end the result is null
  before the call.
-/
theorem strcpy_strcat_iff
    (mem : ByteMemory)
    (dest src : Nat)
    (s : List UInt8)
    (hSrc : Holds (fresh mem) src s) :
    (dest + s.length < src ∨ src + s.length < dest →
      (StrcpyRight mem dest src s ↔
        s ≠ [] ∧ mem (dest + s.length) = 0)) ∧
    (∀ t, Holds (fresh mem) dest t →
      dest + t.length + s.length < src ∨
        src + s.length < dest →
      (StrcatRight mem dest src t s ↔
        s ≠ [] ∧ mem (dest + t.length + s.length) = 0)) :=
  ⟨strcpyRight_iff hSrc,
    fun _ hDest => strcatRight_iff hDest hSrc⟩

/- A one-character string at `0x2000`, and `rest` elsewhere. -/
def oneChar (rest : UInt8) : ByteMemory := fun x =>
  if x = 0x2000 then 97
  else if x = 0x2001 then 0
  else if x = 0x1000 then 98
  else rest

theorem holds_oneChar (rest : UInt8) :
    Holds (fresh (oneChar rest)) 0x2000 [97] := by
  refine ⟨?_, unterminated_cons (by decide) unterminated_nil⟩
  intro k hk
  have hCases : k = 0 ∨ k = 1 := by
    have hk : k < 2 := hk
    omega
  rcases hCases with rfl | rfl
  · rfl
  · rfl

theorem holds_oneChar_dest :
    Holds (fresh (oneChar 0)) 0x1000 [98] := by
  refine ⟨?_, unterminated_cons (by decide) unterminated_nil⟩
  intro k hk
  have hCases : k = 0 ∨ k = 1 := by
    have hk : k < 2 := hk
    omega
  rcases hCases with rfl | rfl
  · rfl
  · rfl

/- Into cleared memory both are right. -/
theorem oneChar_joined :
    StrcpyRight (oneChar 0) 0x1000 0x2000 [97] ∧
      StrcatRight (oneChar 0) 0x1000 0x2000 [98] [97] :=
  ⟨((strcpy_strcat_iff (oneChar 0) 0x1000 0x2000 [97]
      (holds_oneChar 0)).1 (.inl (by decide))).mpr
      ⟨List.cons_ne_nil 97 [], rfl⟩,
    ((strcpy_strcat_iff (oneChar 0) 0x1000 0x2000 [97]
      (holds_oneChar 0)).2 [98] holds_oneChar_dest
      (.inl (by decide))).mpr
      ⟨List.cons_ne_nil 97 [], rfl⟩⟩

/- The copy is not ended where there was no null byte. -/
theorem oneChar_not_ended :
    ¬ ∀ mem dest src s, Holds (fresh mem) src s →
      (dest + s.length < src ∨ src + s.length < dest) →
        StrcpyRight mem dest src s := by
  intro hAll
  have hApart :
      0x1000 + [(97 : UInt8)].length < 0x2000 ∨
        0x2000 + [(97 : UInt8)].length < 0x1000 :=
    .inl (by decide)
  have hRight :=
    hAll (oneChar 1) 0x1000 0x2000 [97] (holds_oneChar 1)
      hApart
  rw [strcpyRight_iff (holds_oneChar 1) hApart] at hRight
  exact absurd hRight.2 (by decide)

end InMemory

end Fs

end SosKernel
