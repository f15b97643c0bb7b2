import SosKernel.Lib.ByteMemory

/-
  Two-level page tables in a byte memory.

  Main declarations:
    * `ByteMemory.word`, `ByteMemory.setWord`
    * `ByteMemory.clearFrame`
    * `ByteMemory.entry`, `ByteMemory.pageAt`
    * `ByteMemory.walk`: the translation of an address
    * `ByteMemory.Within`: a memory with more entries

  Frames are named by their address, a multiple of 4096, and
  hold 1024 words.  An entry whose lowest bit is set refers
  to the frame in its upper 20 bits.
-/

------------------------------------------------------------
-- Words of a Frame
------------------------------------------------------------

namespace ByteMemory

/- The word of index `i` in the frame. -/
def word (mem : ByteMemory) (frame i : Nat) : Nat :=
  mem.read32 (frame + 4 * i)

def setWord
    (mem : ByteMemory)
    (frame i v : Nat) : ByteMemory :=
  mem.write32 (frame + 4 * i) v

/- The frame with all its bytes zero. -/
def clearFrame
    (mem : ByteMemory)
    (frame : Nat) : ByteMemory :=
  fun x =>
    if frame ≤ x ∧ x < frame + 4096 then
      0
    else
      mem x

variable {mem mem' : ByteMemory}
variable {f g i j v : Nat}

theorem word_lt
    (mem : ByteMemory)
    (f i : Nat) :
    mem.word f i < 2 ^ 32 :=
  read32_lt mem _

theorem word_setWord_self
    (mem : ByteMemory)
    (f i : Nat)
    (hv : v < 2 ^ 32) :
    (mem.setWord f i v).word f i = v :=
  read32_write32_self mem _ hv

/- Another word, of the same frame or of another one. -/
theorem word_setWord_of_ne
    (mem : ByteMemory)
    (v : Nat)
    (hf : f % 4096 = 0)
    (hg : g % 4096 = 0)
    (hi : i < 1024)
    (hj : j < 1024)
    (hNe : g ≠ f ∨ j ≠ i) :
    (mem.setWord f i v).word g j = mem.word g j := by
  apply read32_write32_of_apart
  omega

/- A store does not reach other frames. -/
theorem sameOn_setWord
    (mem : ByteMemory)
    (v : Nat)
    (hf : f % 4096 = 0)
    (hg : g % 4096 = 0)
    (hi : i < 1024)
    (hNe : g ≠ f) :
    mem.SameOn g (g + 4096) (mem.setWord f i v) := by
  apply sameOn_write32
  omega

/- The words of a frame depend on its bytes. -/
theorem SameOn.word
    (hSame : mem.SameOn f (f + 4096) mem')
    (hi : i < 1024) :
    mem'.word f i = mem.word f i :=
  hSame.read32 (by omega) (by omega)

theorem sameOn_clearFrame
    (mem : ByteMemory)
    (hf : f % 4096 = 0)
    (hg : g % 4096 = 0)
    (hNe : g ≠ f) :
    mem.SameOn g (g + 4096) (mem.clearFrame f) := by
  intro x hLo hHi
  unfold clearFrame
  rw [if_neg (by omega)]

theorem word_clearFrame_self
    (mem : ByteMemory)
    (f : Nat)
    (hi : i < 1024) :
    (mem.clearFrame f).word f i = 0 := by
  have hByte :
      ∀ k, k < 4096 → mem.clearFrame f (f + k) = 0 := by
    intro k hk
    unfold clearFrame
    rw [if_pos (by omega)]
  have h0 := hByte (4 * i) (by omega)
  have h1 := hByte (4 * i + 1) (by omega)
  have h2 := hByte (4 * i + 2) (by omega)
  have h3 := hByte (4 * i + 3) (by omega)
  unfold word read32
  rw [← Nat.add_assoc] at h1 h2 h3
  rw [h0, h1, h2, h3]
  rfl

------------------------------------------------------------
-- Translation
------------------------------------------------------------

/- The frame that an entry refers to, if it is present. -/
def entryFrame (e : Nat) : Option Nat :=
  if e % 2 = 1 then
    some (e / 4096 * 4096)
  else
    none

/- The frame behind entry `i` of a directory or a table. -/
def entry (mem : ByteMemory) (f i : Nat) : Option Nat :=
  entryFrame (mem.word f i)

/- The frame of the page with number `n`. -/
def pageAt (mem : ByteMemory) (dir n : Nat) : Option Nat :=
  (mem.entry dir (n / 1024)).bind fun table =>
    mem.entry table (n % 1024)

/- The physical address behind the virtual one. -/
def walk (mem : ByteMemory) (dir a : Nat) : Option Nat :=
  (mem.pageAt dir (a / 4096)).map fun frame =>
    frame + a % 4096

theorem entryFrame_aligned
    {e t : Nat}
    (hEntry : entryFrame e = some t) :
    t % 4096 = 0 := by
  unfold entryFrame at hEntry
  split at hEntry
  · cases hEntry
    omega
  · cases hEntry

/- The entry that makes a frame present, with flags. -/
theorem entryFrame_add
    {flags : Nat}
    (hf : f % 4096 = 0)
    (hFlags : flags < 4096)
    (hPresent : flags % 2 = 1) :
    entryFrame (f + flags) = some f := by
  unfold entryFrame
  rw [if_pos (by omega)]
  congr 1
  omega

@[simp] theorem entryFrame_zero :
    entryFrame 0 = none := rfl

theorem entry_of_word
    {e : Nat}
    (hWord : mem.word f i = e) :
    mem.entry f i = entryFrame e := by
  unfold entry
  rw [hWord]

theorem entry_aligned
    {t : Nat}
    (hEntry : mem.entry f i = some t) :
    t % 4096 = 0 :=
  entryFrame_aligned hEntry

theorem pageAt_of_entry
    {t n : Nat}
    (hEntry : mem.entry f (n / 1024) = some t) :
    mem.pageAt f n = mem.entry t (n % 1024) := by
  unfold pageAt
  rw [hEntry]
  rfl

theorem pageAt_of_none
    {n : Nat}
    (hEntry : mem.entry f (n / 1024) = none) :
    mem.pageAt f n = none := by
  unfold pageAt
  rw [hEntry]
  rfl

/- An entry depends on one word. -/
theorem entry_congr
    (hWord : mem'.word f i = mem.word f i) :
    mem'.entry f i = mem.entry f i := by
  unfold entry
  rw [hWord]

/- The translation of a page depends on two words. -/
theorem pageAt_congr
    {n : Nat}
    (hEntry : mem'.word f (n / 1024) = mem.word f (n / 1024))
    (hTable :
      ∀ t, mem.entry f (n / 1024) = some t →
        mem'.word t (n % 1024) = mem.word t (n % 1024)) :
    mem'.pageAt f n = mem.pageAt f n := by
  have hDir := entry_congr hEntry
  cases hOld : mem.entry f (n / 1024) with
  | none =>
      rw [pageAt_of_none hOld,
        pageAt_of_none (hDir.trans hOld)]
  | some t =>
      rw [pageAt_of_entry hOld,
        pageAt_of_entry (hDir.trans hOld)]
      exact entry_congr (hTable t hOld)

theorem walk_of_pageAt
    {a frame : Nat}
    (hPage : mem.pageAt f (a / 4096) = some frame) :
    mem.walk f a = some (frame + a % 4096) := by
  unfold walk
  rw [hPage]
  rfl

/- An address in the page that starts at `base`. -/
theorem walk_add
    {base frame offset : Nat}
    (hBase : base % 4096 = 0)
    (hPage : mem.pageAt f (base / 4096) = some frame)
    (hOffset : offset < 4096) :
    mem.walk f (base + offset) = some (frame + offset) := by
  have hNumber : (base + offset) / 4096 = base / 4096 := by
    omega
  have hRest : (base + offset) % 4096 = offset := by omega
  rw [← hNumber] at hPage
  rw [walk_of_pageAt hPage, hRest]

------------------------------------------------------------
-- More Entries
------------------------------------------------------------

/- Every entry that is present stays as it is. -/
def Within (mem mem' : ByteMemory) : Prop :=
  ∀ f i g, f % 4096 = 0 → i < 1024 →
    mem.entry f i = some g → mem'.entry f i = some g

theorem Within.trans
    {mem'' : ByteMemory}
    (hFirst : mem.Within mem')
    (hSecond : mem'.Within mem'') :
    mem.Within mem'' := by
  intro f i g hf hi hEntry
  exact hSecond f i g hf hi (hFirst f i g hf hi hEntry)

/- An entry is stored where there was none. -/
theorem within_setWord
    (mem : ByteMemory)
    (v : Nat)
    (hf : f % 4096 = 0)
    (hi : i < 1024)
    (hZero : mem.word f i = 0) :
    mem.Within (mem.setWord f i v) := by
  intro g j e hg hj hEntry
  by_cases hSame : g = f ∧ j = i
  · rcases hSame with ⟨rfl, rfl⟩
    rw [entry_of_word hZero] at hEntry
    cases hEntry
  · rw [entry_congr (word_setWord_of_ne mem v hf hg hi hj
      (by omega))]
    exact hEntry

/- An entry is taken away. -/
theorem setWord_within
    (mem : ByteMemory)
    (hf : f % 4096 = 0)
    (hi : i < 1024) :
    (mem.setWord f i 0).Within mem := by
  intro g j e hg hj hEntry
  by_cases hSame : g = f ∧ j = i
  · rcases hSame with ⟨rfl, rfl⟩
    rw [entry_of_word
      (word_setWord_self mem _ _ (by decide))] at hEntry
    cases hEntry
  · rw [← entry_congr (word_setWord_of_ne mem 0 hf hg hi hj
      (by omega))]
    exact hEntry

/- Pages that are mapped stay mapped. -/
theorem Within.pageAt
    {d n : Nat}
    (hWithin : mem.Within mem')
    (hd : d % 4096 = 0)
    (hn : n / 1024 < 1024)
    (hPage : mem.pageAt d n = some f) :
    mem'.pageAt d n = some f := by
  cases hEntry : mem.entry d (n / 1024) with
  | none =>
      rw [pageAt_of_none hEntry] at hPage
      cases hPage
  | some t =>
      rw [pageAt_of_entry hEntry] at hPage
      rw [pageAt_of_entry (hWithin _ _ _ hd hn hEntry)]
      exact hWithin _ _ _ (entry_aligned hEntry)
        (Nat.mod_lt _ (by decide)) hPage

end ByteMemory
