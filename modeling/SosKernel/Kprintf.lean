import Mathlib.Data.List.TakeWhile
import SosKernel.Monitor
import SosKernel.Vsprintf.Render

/-
  The function `kprintf` of `lib/kprintf.c`: it prints into a
  static buffer of 1024 bytes, and writes that on the screen.

  Main declarations:
    * `Console`, `kprintf`
    * `Known`: strings that lie apart from the buffer
    * `Prints`: the text of a call
    * `Given`: all that a screen was given
    * `kprintf_shows`
-/

------------------------------------------------------------
-- The Function
------------------------------------------------------------

namespace SosKernel

namespace Kprintf

open Vsprintf (Args Format Means StringAt Texts
  add_ofNat_succ add_ofNat_zero)

/- Memory, and the state of `lib/monitor.c`. -/
structure Console where
  mem : UInt32 → UInt8
  monitor : Monitor.State

/- The size of `buf`. -/
def BUF_SIZE : Nat := 1024

/- A store of `vsprintf`, in memory. -/
def store
    (mem : UInt32 → UInt8) : Vsprintf.Store → UInt32 → UInt8
| .byte a c => Function.update mem a c
| .word a n =>
    let v := n.toUInt32
    Function.update
      (Function.update
        (Function.update (Function.update mem a v.toUInt8)
          (a + 1) (v >>> 8).toUInt8)
        (a + 2) (v >>> 16).toUInt8)
      (a + 3) (v >>> 24).toUInt8

/- The bytes from `a` up to a null byte. -/
def stringFrom
    (mem : UInt32 → UInt8) : Nat → UInt32 → List UInt8
| 0, _ => []
| n + 1, a =>
    if mem a = 0 then [] else mem a :: stringFrom mem n (a + 1)

/- Nothing, if `vsprintf` stops. -/
def kprintf
    (buf : UInt32)
    (fmt : Format)
    (args : Args)
    (c : Console) : Option Console :=
  let call : Vsprintf.Call := ⟨buf, fmt, args, c.mem⟩
  match (Vsprintf.vsprintf call
      (fmt.chars.length + 1)).run call.start with
  | .error _ _ => none
  | .ok i s =>
      let mem :=
        Function.update (s.stores.foldl store c.mem)
          (buf + i.toUInt32) 0
      some
        { mem := mem
          monitor :=
            Monitor.monitorWrite (stringFrom mem (2 ^ 32) buf)
              c.monitor }

------------------------------------------------------------
-- What It Is For
------------------------------------------------------------

/- An address in the buffer. -/
def InBuffer (buf x : UInt32) : Prop :=
  (x - buf).toNat < BUF_SIZE

instance (buf x : UInt32) : Decidable (InBuffer buf x) :=
  inferInstanceAs (Decidable (_ < _))

/- Strings of memory, apart from the buffer. -/
structure Known
    (buf : UInt32)
    (mem : UInt32 → UInt8)
    (texts : Texts) : Prop where
  string : ∀ a text, texts a = some text → StringAt mem a text
  apart : ∀ a text, texts a = some text →
    ∀ k, k ≤ text.length → ¬ InBuffer buf (a + .ofNat k)

/- The call prints `out`, and it fits in the buffer. -/
structure Prints
    (texts : Texts)
    (fmt : Format)
    (args : Args)
    (out : List UInt8) : Prop where
  means : Means texts (Vsprintf.pieces fmt.chars) args out
  fits : out.length < BUF_SIZE

/- The bytes of a string literal, and a format. -/
def literal (s : String) : List UInt8 :=
  s.toList.map Vsprintf.letter

def format
    (s : String)
    (hNull : (literal s).all (· ≠ 0) = true) : Format where
  chars := literal s
  unterminated := fun c hc =>
    of_decide_eq_true (List.all_eq_true.mp hNull c hc)

/- The arguments that are passed. -/
def argsOf (words : List UInt32) : Args :=
  fun i => words.getD i 0

/- What is written on the screen, up to a null byte. -/
def shown (out : List UInt8) : List UInt8 :=
  out.takeWhile (· ≠ 0)

/- All bytes that the screen was given after `init_monitor`. -/
def Given
    (videoMem : Nat → Nat)
    (bytes : List UInt8)
    (c : Console) : Prop :=
  c.monitor =
    bytes.foldl Monitor.monitorPut
      (Monitor.initMonitor (.static videoMem))

------------------------------------------------------------
-- Stores
------------------------------------------------------------

variable {mem : UInt32 → UInt8}
variable {buf a x : UInt32}
variable {out : List UInt8}

def putBytes
    (mem : UInt32 → UInt8)
    (stores : List (UInt32 × UInt8)) : UInt32 → UInt8 :=
  stores.foldl (fun mem p => Function.update mem p.1 p.2) mem

/- Stores of bytes alone. -/
theorem foldl_store
    {stores : List Vsprintf.Store}
    (hOnly : ∀ store ∈ stores, ∃ a c, store = .byte a c) :
    stores.foldl store mem =
      putBytes mem (stores.filterMap fun
        | .byte str c => some (str, c)
        | .word _ _ => none) := by
  induction stores generalizing mem with
  | nil => rfl
  | cons s stores ih =>
      rcases hOnly s List.mem_cons_self with ⟨a, c, rfl⟩
      exact ih fun t ht => hOnly t (List.mem_cons_of_mem _ ht)

theorem ofNat_toNat_lt
    {k : Nat}
    (hk : k < 2 ^ 32) :
    (UInt32.ofNat k).toNat = k :=
  UInt32.toNat_ofNat_of_lt' hk

theorem putBytes_of_apart
    (hApart : ∀ k, k < out.length → x ≠ a + UInt32.ofNat k) :
    putBytes mem (Vsprintf.bytesFrom a out) x = mem x := by
  induction out generalizing mem a with
  | nil => rfl
  | cons c out ih =>
      have hHere : x ≠ a := by
        have h := hApart 0 (Nat.succ_pos _)
        rwa [add_ofNat_zero] at h
      have hRest := @ih (Function.update mem a c) (a + 1) (by
        intro k hk
        have h := hApart (k + 1) (Nat.succ_lt_succ hk)
        rwa [add_ofNat_succ] at h)
      refine hRest.trans ?_
      exact Function.update_of_ne hHere c mem

theorem add_ofNat_ne
    {k : Nat}
    (hPos : 0 < k)
    (hk : k < 2 ^ 32) :
    a ≠ a + UInt32.ofNat k := by
  intro hEq
  have hZero : UInt32.ofNat k = 0 := by
    have h : a + 0 = a + UInt32.ofNat k := by
      rw [UInt32.add_zero]
      exact hEq
    exact (UInt32.add_right_inj a).mp h.symm
  have hNat := congrArg UInt32.toNat hZero
  rw [ofNat_toNat_lt hk] at hNat
  have h0 : (0 : UInt32).toNat = 0 := rfl
  omega

/- The first of the bytes, where they were put. -/
theorem putBytes_cons_self
    {byte : UInt8}
    (hLength : (byte :: out).length < 2 ^ 32) :
    putBytes mem (Vsprintf.bytesFrom a (byte :: out)) a =
      byte := by
  rw [List.length_cons] at hLength
  have hApart := @putBytes_of_apart
    (Function.update mem a byte) (a + 1) a out (by
    intro k hk
    rw [← add_ofNat_succ]
    exact add_ofNat_ne (Nat.succ_pos k) (by omega))
  refine hApart.trans ?_
  exact Function.update_self a byte mem

/- A string is found where it was put. -/
theorem nameAt_putBytes
    {rest : List UInt8}
    (hLength : (out ++ 0 :: rest).length < 2 ^ 32) :
    Elf.SymMap.NameAt
      (putBytes mem (Vsprintf.bytesFrom a (out ++ 0 :: rest)))
      a out := by
  induction out generalizing mem a with
  | nil => exact putBytes_cons_self hLength
  | cons c out ih =>
      exact ⟨putBytes_cons_self hLength,
        ih (Nat.lt_of_succ_lt hLength)⟩

theorem stringFrom_of_name
    {n : Nat}
    (hName : Elf.SymMap.NameAt mem a out)
    (hLength : out.length < n) :
    stringFrom mem n a = shown out := by
  induction out generalizing a n with
  | nil =>
      rcases n with _ | n
      · omega
      · have hZero : mem a = 0 := hName
        rw [stringFrom, if_pos hZero]
        rfl
  | cons c out ih =>
      rw [List.length_cons] at hLength
      rcases n with _ | n
      · omega
      · have hByte : mem a = c := hName.1
        unfold shown at ih ⊢
        rw [stringFrom, hByte, ih hName.2 (by omega)]
        by_cases hc : c = 0
        · rw [if_pos hc, List.takeWhile_cons_of_neg]
          simp [hc]
        · rw [if_neg hc, List.takeWhile_cons_of_pos]
          simp [hc]

/- The null byte of a string. -/
theorem mem_end_of_name
    (hName : Elf.SymMap.NameAt mem a out) :
    mem (a + UInt32.ofNat out.length) = 0 := by
  induction out generalizing a with
  | nil =>
      rw [List.length_nil, add_ofNat_zero]
      exact hName
  | cons c out ih =>
      rw [List.length_cons, add_ofNat_succ]
      exact ih hName.2

theorem nameAt_congr
    {mem' : UInt32 → UInt8}
    (hName : Elf.SymMap.NameAt mem a out)
    (hSame : ∀ k, k ≤ out.length →
      mem' (a + .ofNat k) = mem (a + .ofNat k)) :
    Elf.SymMap.NameAt mem' a out := by
  induction out generalizing a with
  | nil =>
      have h := hSame 0 (Nat.le_refl 0)
      rw [add_ofNat_zero] at h
      exact h.trans hName
  | cons c out ih =>
      have h := hSame 0 (Nat.zero_le _)
      rw [add_ofNat_zero] at h
      refine ⟨h.trans hName.1, ih hName.2 ?_⟩
      intro k hk
      rw [← add_ofNat_succ]
      exact hSame (k + 1) (Nat.succ_le_succ hk)

------------------------------------------------------------
-- One Call
------------------------------------------------------------

variable {texts : Texts}
variable {fmt : Format}
variable {args : Args}
variable {c : Console}
variable {videoMem : Nat → Nat}
variable {bytes : List UInt8}

theorem inBuffer_add
    {k : Nat}
    (hk : k < BUF_SIZE) :
    InBuffer buf (buf + UInt32.ofNat k) := by
  unfold InBuffer
  unfold BUF_SIZE at *
  rw [UInt32.add_comm, UInt32.add_sub_cancel,
    ofNat_toNat_lt (by omega)]
  exact hk

/- The strings are there as long as only the buffer changes. -/
theorem Known.congr
    {mem' : UInt32 → UInt8}
    (hKnown : Known buf mem texts)
    (hSame : ∀ x, ¬ InBuffer buf x → mem' x = mem x) :
    Known buf mem' texts where
  string := by
    intro a text hText
    have hString := hKnown.string a text hText
    exact ⟨nameAt_congr hString.name fun k hk =>
      hSame _ (hKnown.apart a text hText k hk),
      hString.unterminated, hString.short⟩
  apart := hKnown.apart

/- `vsprintf` puts the text and a null byte into the buffer. -/
theorem vsprintf_stored
    {mem : UInt32 → UInt8}
    (hKnown : Known buf mem texts)
    (hPrints : Prints texts fmt args out) :
    ∃ s,
      (Vsprintf.vsprintf ⟨buf, fmt, args, mem⟩
          (fmt.chars.length + 1)).run
          (Vsprintf.Call.start ⟨buf, fmt, args, mem⟩) =
          .ok (Int32.ofNat out.length) s ∧
        Function.update (s.stores.foldl store mem)
            (buf + (Int32.ofNat out.length).toUInt32) 0 =
          putBytes mem (Vsprintf.bytesFrom buf (out ++ [0])) := by
  have hFits := hPrints.fits
  unfold BUF_SIZE at hFits
  rcases Vsprintf.vsprintf_sound texts ⟨buf, fmt, args, mem⟩
      0 hKnown.string hPrints.means.moderate
      hPrints.means.printed with
    ⟨s, hRun, hStored, hBytes⟩
  have hStores :
      s.stores.foldl store mem =
        putBytes mem (Vsprintf.bytesFrom buf (out ++ [0])) := by
    rw [foldl_store (hBytes hPrints.means.quiet)]
    exact congrArg (putBytes mem) hStored
  have hName := @nameAt_putBytes mem buf out [] (by
    rw [List.length_append, List.length_singleton]
    omega)
  have hEnd :
      (Int32.ofNat out.length).toUInt32 =
        UInt32.ofNat out.length := rfl
  refine ⟨s, hRun, ?_⟩
  -- the byte at the end is there already
  rw [hStores, hEnd]
  exact Function.update_eq_self_iff.mpr
    (mem_end_of_name hName).symm

/-
  The screen gets the text up to its first null byte, and no
  memory changes but the buffer.
-/
theorem kprintf_prints
    (hKnown : Known buf c.mem texts)
    (hPrints : Prints texts fmt args out) :
    ∃ c', kprintf buf fmt args c = some c' ∧
      c'.monitor =
        (shown out).foldl Monitor.monitorPut c.monitor ∧
      ∀ x, ¬ InBuffer buf x → c'.mem x = c.mem x := by
  have hFits := hPrints.fits
  unfold BUF_SIZE at hFits
  rcases vsprintf_stored hKnown hPrints with ⟨s, hRun, hMem⟩
  have hName := @nameAt_putBytes c.mem buf out [] (by
    rw [List.length_append, List.length_singleton]
    omega)
  refine
    ⟨{ mem :=
         putBytes c.mem (Vsprintf.bytesFrom buf (out ++ [0]))
       monitor :=
         Monitor.monitorWrite (shown out) c.monitor },
      ?_, ?_, ?_⟩
  · unfold kprintf
    dsimp only
    rw [hRun]
    dsimp only
    rw [hMem, stringFrom_of_name hName (by omega)]
  · change Monitor.monitorWrite (shown out) c.monitor = _
    rw [Monitor.monitorWrite_eq]
    unfold shown
    rw [List.takeWhile_idem]
  · intro x hx
    refine putBytes_of_apart ?_
    intro k hk hEq
    rw [List.length_append, List.length_singleton] at hk
    rw [hEq] at hx
    refine hx (inBuffer_add ?_)
    unfold BUF_SIZE
    omega

------------------------------------------------------------
-- Literals and Strings
------------------------------------------------------------

theorem means_literal
    (args : Args)
    (cs : List UInt8)
    (hPlain : cs.all (· ≠ Vsprintf.percent) = true) :
    Means texts (Vsprintf.pieces cs) args cs := by
  have hMeans := Means.chars cs hPlain (@Means.nil texts args)
  rw [List.append_nil] at hMeans
  exact hMeans

theorem unterminated_append
    {cs ds : List UInt8}
    (hFirst : Fs.Unterminated cs)
    (hRest : Fs.Unterminated ds) :
    Fs.Unterminated (cs ++ ds) := by
  intro c hc
  rcases List.mem_append.mp hc with h | h
  · exact hFirst c h
  · exact hRest c h

theorem unterminated_literal
    (s : String)
    (hNull : (literal s).all (· ≠ 0) = true) :
    Fs.Unterminated (literal s) :=
  fun c hc => of_decide_eq_true (List.all_eq_true.mp hNull c hc)

/- All of a string is written on the screen. -/
theorem shown_of_unterminated
    {cs : List UInt8}
    (hText : Fs.Unterminated cs) :
    shown cs = cs :=
  List.takeWhile_eq_self_iff.mpr
    fun c hc => decide_eq_true (hText c hc)

------------------------------------------------------------
-- Runs of Calls
------------------------------------------------------------

theorem Given.putAll
    (hGiven : Given videoMem bytes c) :
    Monitor.Shows c.monitor (.putAll bytes) := by
  have hWindow := Monitor.window_initMonitor videoMem
  unfold Given at hGiven
  rw [hGiven]
  exact Monitor.shows_foldl bytes hWindow.updateCursor
    hWindow.shows

theorem Given.append
    {c' : Console}
    {more : List UInt8}
    (hGiven : Given videoMem bytes c)
    (hMore :
      c'.monitor = more.foldl Monitor.monitorPut c.monitor) :
    Given videoMem (bytes ++ more) c' := by
  unfold Given at *
  rw [hMore, hGiven, List.foldl_append]

/- The calls that write to the screen. -/
inductive Event where
| printf (fmt : Format) (args : Args)
| put (byte : UInt8)

def Event.run
    (buf : UInt32)
    (c : Console) : Event → Option Console
| .printf fmt args => kprintf buf fmt args c
| .put byte =>
    some { c with monitor := Monitor.monitorPut c.monitor byte }

/- The bytes of a call, which have to fit in the buffer. -/
inductive Event.Prints (texts : Texts) : Event → List UInt8 → Prop
| printf
    {fmt : Format}
    {args : Args}
    {out : List UInt8}
    (hPrints : Kprintf.Prints texts fmt args out) :
    Event.Prints texts (.printf fmt args) (shown out)
| put (byte : UInt8) :
    Event.Prints texts (.put byte) [byte]

theorem Event.run_prints
    {event : Event}
    (hKnown : Known buf c.mem texts)
    (hPrints : event.Prints texts out) :
    ∃ c', event.run buf c = some c' ∧
      c'.monitor = out.foldl Monitor.monitorPut c.monitor ∧
      ∀ x, ¬ InBuffer buf x → c'.mem x = c.mem x := by
  cases hPrints with
  | printf hPrints => exact kprintf_prints hKnown hPrints
  | put byte => exact ⟨_, rfl, rfl, fun _ _ => rfl⟩

theorem run_given
    {events : List Event}
    {outs : List (List UInt8)}
    (hKnown : Known buf c.mem texts)
    (hGiven : Given videoMem bytes c)
    (hPrints : List.Forall₂ (Event.Prints texts) events outs) :
    ∃ c', events.foldlM (Event.run buf) c = some c' ∧
      Given videoMem (bytes ++ outs.flatten) c' ∧
      ∀ x, ¬ InBuffer buf x → c'.mem x = c.mem x := by
  induction hPrints generalizing c bytes with
  | nil =>
      refine ⟨c, rfl, ?_, fun _ _ => rfl⟩
      rw [List.flatten_nil, List.append_nil]
      exact hGiven
  | cons hFirst _ ih =>
      rcases Event.run_prints hKnown hFirst with
        ⟨c', hRun, hMonitor, hSame⟩
      rcases ih (hKnown.congr hSame) (hGiven.append hMonitor)
        with ⟨c'', hRuns, hGiven', hSame'⟩
      refine ⟨c'', ?_, ?_, ?_⟩
      · rw [List.foldlM_cons, hRun]
        exact hRuns
      · rw [List.flatten_cons, ← List.append_assoc]
        exact hGiven'
      · intro x hx
        exact (hSame' x hx).trans (hSame x hx)

/-
  After `init_monitor`, every run of `kprintf` and
  `monitor_put` in which each text fits in the buffer: the
  screen shows the texts one after the other, and no memory
  has changed but the buffer.
-/
theorem kprintf_shows
    (texts : Texts)
    (events : List Event)
    (outs : List (List UInt8))
    (buf : UInt32)
    (mem : UInt32 → UInt8)
    (videoMem : Nat → Nat)
    (hKnown : Known buf mem texts)
    (hPrints : List.Forall₂ (Event.Prints texts) events outs) :
    ∃ c,
      events.foldlM (Event.run buf)
          ⟨mem, Monitor.initMonitor (.static videoMem)⟩ =
          some c ∧
        Monitor.Shows c.monitor (.putAll outs.flatten) ∧
          ∀ x, ¬ InBuffer buf x → c.mem x = mem x := by
  have hStart :
      Given videoMem []
        ⟨mem, Monitor.initMonitor (.static videoMem)⟩ := rfl
  rcases run_given hKnown hStart hPrints with
    ⟨c, hRun, hGiven, hSame⟩
  exact ⟨c, hRun, hGiven.putAll, hSame⟩

theorem known_tableCall :
    Known 0x1000 Vsprintf.tableCall.mem Vsprintf.tableTexts where
  string := Vsprintf.strings_tableCall
  apart := by
    intro a text hText k hk
    unfold Vsprintf.tableTexts at hText
    split at hText
    · next ha =>
        cases hText
        subst ha
        have hCases : k = 0 ∨ k = 1 ∨ k = 2 := by
          change k ≤ 2 at hk
          omega
        rcases hCases with rfl | rfl | rfl
        · decide
        · decide
        · decide
    · cases hText

theorem prints_tableCall :
    Prints Vsprintf.tableTexts Vsprintf.tableCall.fmt
      Vsprintf.tableCall.args
      [55, Vsprintf.space, Vsprintf.space, 124, 111, 107] where
  means := Vsprintf.means_tableCall
  fits := by decide

/- A line of a table, and a newline. -/
theorem kprintf_shows_table :
    ∃ c,
      [Event.printf Vsprintf.tableCall.fmt
          Vsprintf.tableCall.args, .put 10].foldlM
          (Event.run 0x1000)
          ⟨Vsprintf.tableCall.mem,
            Monitor.initMonitor (.static fun _ => 0)⟩ =
          some c ∧
        Monitor.Shows c.monitor
          (.putAll
            [shown
                [55, Vsprintf.space, Vsprintf.space, 124, 111,
                  107],
              [10]].flatten) ∧
          ∀ x, ¬ InBuffer 0x1000 x →
            c.mem x = Vsprintf.tableCall.mem x :=
  kprintf_shows Vsprintf.tableTexts _ _ 0x1000 _ _
    known_tableCall
    (.cons (.printf prints_tableCall) (.cons (.put 10) .nil))

end Kprintf

end SosKernel
