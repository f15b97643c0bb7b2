import SosKernel.Lib.ByteStrings

/-
  The functions of `lib/string.c` that the file system uses.

  An array of characters is a list of bytes, to its end.  A
  function that would leave an array has no result.

  Main declarations:
    * `strcmp`, `strlen`, `strcpy`, `memcpy`
    * `strcmp_eq_zero_iff`
    * `strcpy_terminated`
-/

------------------------------------------------------------
-- The Functions
------------------------------------------------------------

namespace SosKernel

namespace Fs

/- A string as it is in memory. -/
def cString (s : List UInt8) : List UInt8 := s ++ [0]

def strcmp : List UInt8 → List UInt8 → Option Int
| c :: s, d :: t =>
    if c = d then
      if c = 0 then some 0 else strcmp s t
    else
      some ((c.toNat : Int) - d.toNat)
| _, _ => none

def strlen : List UInt8 → Option Nat
| [] => none
| c :: s => if c = 0 then some 0 else (strlen s).map (· + 1)

/- The bytes that `strcpy` takes, when `room` bytes fit. -/
def strcpyBytes
    (mem : ByteMemory) : Nat → Nat → Option (List UInt8)
| 0, _ => none
| room + 1, src =>
    if mem (src + 1) ≠ 0 then
      (strcpyBytes mem room (src + 1)).map (mem src :: ·)
    else
      some [mem src]

/-
  `strcpy` into the array `dest`.  The end of the string is
  not copied.
-/
def strcpy
    (mem : ByteMemory)
    (dest : List UInt8)
    (src : Nat) : Option (List UInt8) :=
  (strcpyBytes mem dest.length src).map fun bs =>
    bs ++ dest.drop bs.length

def memcpy
    (dest src : Nat) : Nat → ByteMemory → ByteMemory
| 0, mem => mem
| len + 1, mem =>
    memcpy (dest + 1) (src + 1) len
      (Function.update mem dest (mem src))

------------------------------------------------------------
-- Strings
------------------------------------------------------------

variable {mem : ByteMemory}
variable {s t rest : List UInt8}

/- No byte of the string ends it. -/
def Unterminated (s : List UInt8) : Prop :=
  ∀ c ∈ s, c ≠ 0

theorem unterminated_nil : Unterminated [] :=
  List.forall_mem_nil _

theorem unterminated_cons
    {c : UInt8}
    (hc : c ≠ 0)
    (hs : Unterminated s) :
    Unterminated (c :: s) :=
  List.forall_mem_cons.mpr ⟨hc, hs⟩

theorem strcmp_self
    (hs : Unterminated s) :
    strcmp (cString s) (s ++ 0 :: rest) = some 0 := by
  induction s with
  | nil => rfl
  | cons c s ih =>
      have hc : c ≠ 0 := hs c List.mem_cons_self
      have hRest : Unterminated s :=
        fun d hd => hs d (List.mem_cons_of_mem c hd)
      change
        (if c = c then
            if c = 0 then some 0
            else strcmp (cString s) (s ++ 0 :: rest)
          else some ((c.toNat : Int) - c.toNat)) = some 0
      rw [if_pos rfl, if_neg hc]
      exact ih hRest

theorem sub_toNat_ne_zero
    {c d : UInt8}
    (hNe : c ≠ d) :
    ((c.toNat : Int) - d.toNat) ≠ 0 := by
  intro hZero
  apply hNe
  apply UInt8.toNat_inj.mp
  omega

/- Different strings compare as different. -/
theorem strcmp_of_ne
    (rest : List UInt8)
    (hs : Unterminated s)
    (ht : Unterminated t)
    (hNe : s ≠ t) :
    ∃ d, strcmp (cString s) (t ++ 0 :: rest) = some d ∧
      d ≠ 0 := by
  induction s generalizing t with
  | nil =>
      cases t with
      | nil => exact absurd rfl hNe
      | cons d t =>
          have hd : (0 : UInt8) ≠ d :=
            (ht d List.mem_cons_self).symm
          exact ⟨_, if_neg hd, sub_toNat_ne_zero hd⟩
  | cons c s ih =>
      have hc : c ≠ 0 := hs c List.mem_cons_self
      have hRest : Unterminated s :=
        fun d hd => hs d (List.mem_cons_of_mem c hd)
      cases t with
      | nil => exact ⟨_, if_neg hc, sub_toNat_ne_zero hc⟩
      | cons d t =>
          by_cases hSame : c = d
          · subst hSame
            have hRest' : Unterminated t :=
              fun d hd => ht d (List.mem_cons_of_mem c hd)
            have hTails : s ≠ t := by
              intro hEq
              exact hNe (by rw [hEq])
            rcases ih hRest hRest' hTails with ⟨e, he, hZero⟩
            refine ⟨e, ?_, hZero⟩
            exact ((if_pos rfl).trans (if_neg hc)).trans he
          · exact ⟨_, if_neg hSame, sub_toNat_ne_zero hSame⟩

theorem strlen_cString
    (hs : Unterminated s) :
    strlen (cString s) = some s.length := by
  induction s with
  | nil => rfl
  | cons c s ih =>
      have hc : c ≠ 0 := hs c List.mem_cons_self
      have hRest : Unterminated s :=
        fun d hd => hs d (List.mem_cons_of_mem c hd)
      change (if c = 0 then some 0
        else (strlen (cString s)).map (· + 1)) = _
      rw [if_neg hc, ih hRest]
      rfl

theorem length_strcpyBytes
    {room src : Nat}
    (hSome : strcpyBytes mem room src = some s) :
    s.length ≤ room := by
  induction room generalizing src s with
  | zero => cases hSome
  | succ room ih =>
      unfold strcpyBytes at hSome
      split at hSome
      · rcases Option.map_eq_some_iff.mp hSome with
          ⟨bs, hRest, rfl⟩
        exact Nat.succ_le_succ (ih hRest)
      · cases hSome
        exact Nat.succ_le_succ (Nat.zero_le _)

/- Only the bytes up to the one that ends it are read. -/
theorem strcpyBytes_congr
    {mem' : ByteMemory}
    {room src : Nat}
    (hSome : strcpyBytes mem room src = some s)
    (hSame :
      ∀ x, src ≤ x → x ≤ src + s.length → mem' x = mem x) :
    strcpyBytes mem' room src = some s := by
  induction room generalizing src s with
  | zero => cases hSome
  | succ room ih =>
      unfold strcpyBytes at hSome ⊢
      split at hSome
      · next hNext =>
          rcases Option.map_eq_some_iff.mp hSome with
            ⟨bs, hRest, rfl⟩
          rw [List.length_cons] at hSame
          rw [hSame (src + 1) (by omega) (by omega),
            if_pos hNext, hSame src (by omega) (by omega)]
          refine Option.map_eq_some_iff.mpr ⟨bs, ?_, rfl⟩
          exact ih hRest fun x hLo hHi =>
            hSame x (by omega) (by omega)
      · next hNext =>
          cases hSome
          rw [List.length_singleton] at hSame
          rw [hSame (src + 1) (by omega) (by omega),
            if_neg hNext, hSame src (by omega) (by omega)]

/- The bytes up to the end of a string that fits. -/
theorem strcpyBytes_terminated
    {room src : Nat}
    (hNonempty : s ≠ [])
    (hs : Unterminated s)
    (hHolds : mem.HoldsAt src (cString s))
    (hRoom : s.length ≤ room) :
    strcpyBytes mem room src = some s := by
  induction s generalizing room src with
  | nil => exact absurd rfl hNonempty
  | cons c s ih =>
      have hRest : Unterminated s :=
        fun d hd => hs d (List.mem_cons_of_mem c hd)
      have hFirst : mem src = c :=
        hHolds 0 (Nat.zero_lt_succ _)
      have hTail : mem.HoldsAt (src + 1) (cString s) :=
        hHolds.drop 1
      cases room with
      | zero => exact absurd hRoom (Nat.not_succ_le_zero _)
      | succ room =>
          have hFits : s.length ≤ room :=
            Nat.le_of_succ_le_succ hRoom
          cases s with
          | nil =>
              have hEnd : mem (src + 1) = 0 :=
                hTail 0 (Nat.zero_lt_one)
              unfold strcpyBytes
              rw [if_neg (not_not.mpr hEnd), hFirst]
          | cons d s =>
              have hNext : mem (src + 1) = d :=
                hTail 0 (Nat.zero_lt_succ _)
              have hd : d ≠ 0 := hRest d List.mem_cons_self
              unfold strcpyBytes
              rw [hNext, if_pos hd,
                ih (List.cons_ne_nil d s) hRest hTail hFits,
                hFirst]
              rfl

/- Into a cleared array, the whole string is copied. -/
theorem strcpy_terminated
    {n src : Nat}
    (hNonempty : s ≠ [])
    (hs : Unterminated s)
    (hHolds : mem.HoldsAt src (cString s))
    (hRoom : s.length < n) :
    strcpy mem (List.replicate n 0) src =
      some (s ++ 0 :: List.replicate (n - s.length - 1) 0) := by
  have hBytes :=
    strcpyBytes_terminated hNonempty hs hHolds
      (Nat.le_of_lt hRoom)
  have hZeros :
      List.replicate (n - s.length) (0 : UInt8) =
        0 :: List.replicate (n - s.length - 1) 0 := by
    rw [← List.replicate_succ]
    congr 1
    omega
  unfold strcpy
  rw [List.length_replicate, hBytes, Option.map_some,
    List.drop_replicate, hZeros]

------------------------------------------------------------
-- Copies
------------------------------------------------------------

theorem memcpy_of_apart
    {dest src len x : Nat}
    (hApart : x < dest ∨ dest + len ≤ x) :
    memcpy dest src len mem x = mem x := by
  induction len generalizing dest src mem with
  | zero => rfl
  | succ len ih =>
      have hRest :
          memcpy (dest + 1) (src + 1) len
              (Function.update mem dest (mem src)) x =
            Function.update mem dest (mem src) x :=
        ih (by omega)
      exact hRest.trans
        (Function.update_of_ne (by omega) _ _)

/- A byte that the destination does not cover is copied. -/
theorem memcpy_apply_add_of_apart
    {dest src len k : Nat}
    (hApart : src + k < dest ∨ dest + len ≤ src + k)
    (hk : k < len) :
    memcpy dest src len mem (dest + k) = mem (src + k) := by
  induction len generalizing dest src k mem with
  | zero => exact absurd hk (Nat.not_lt_zero k)
  | succ len ih =>
      change
        memcpy (dest + 1) (src + 1) len
            (Function.update mem dest (mem src)) (dest + k) =
          mem (src + k)
      cases k with
      | zero =>
          rw [memcpy_of_apart (by omega)]
          exact Function.update_self _ _ _
      | succ k =>
          have hDest : dest + (k + 1) = dest + 1 + k := by
            omega
          have hSrc : src + (k + 1) = src + 1 + k := by omega
          rw [hDest, hSrc, ih (by omega) (by omega)]
          exact Function.update_of_ne (by omega) _ _

/- Bytes that the destination does not overlap are copied. -/
theorem memcpy_apply_add
    {dest src len k : Nat}
    (hApart : dest + len ≤ src ∨ src + len ≤ dest)
    (hk : k < len) :
    memcpy dest src len mem (dest + k) = mem (src + k) :=
  memcpy_apply_add_of_apart (by omega) hk

end Fs

end SosKernel
