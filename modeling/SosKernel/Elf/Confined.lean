import SosKernel.Elf.Zeros

/-
  Where `load_elf_binary` changes memory and mappings, for
  any content of the file.

  Main declarations:
    * `Within`: what a header asks for is the user's
    * `Foreign`: a frame that is none of the user's
    * `Confined`, `KernelKept`: what stays as it was
    * `load_elf_binary_confined`
    * `low_segment_overwrites`: a segment in low memory

  The loader checks no address of the file.  A file may end
  inside a header, of which the loader then uses what an
  earlier header has left, and a sum of offset and size may
  wrap, so that bytes from behind the file are copied.
-/

------------------------------------------------------------
-- Any File
------------------------------------------------------------

namespace SosKernel

namespace Elf

open Vmm

variable {m m' m'' : Machine}
variable {d : PageDirectory}
variable {s : Fs.Initrd}
variable {node : Fs.FsNode}
variable {t top start length dest len k n off : Nat}
variable {lo hi flags g : Nat}
variable {hdr elfHdr pHdr : List UInt8}
variable {content content' : Nat → UInt8}

/- The program headers, as the loop finds them in `p_hdr`. -/
def metHeaders
    (content : ByteMemory)
    (length : Nat)
    (elfHdr pHdr : List UInt8) : List (List UInt8) :=
  let elfHdr := localBytes content length 0 EHDR_SIZE elfHdr
  headers content length (ePhnum elfHdr) (ePhoff elfHdr) pHdr

/-
  The pages that are allocated for a header, and the
  addresses that its bytes are copied to, are the user's
  below `top`.
-/
structure Within
    (top length : Nat)
    (hdr : List UInt8) : Prop where
  pages : ∀ n, rangeStart (pVaddr hdr) ≤ n →
    n < rangeEnd (add32 (pVaddr hdr) (pMemsz hdr)) →
      userStart ≤ n ∧ n < top
  bytes : ∀ i, i < copied length hdr →
    IsUser top (add32 (pVaddr hdr) i) 1

/- A segment that is the user's asks for nothing else. -/
theorem Fits.within
    (hFits : Fits top length hdr) :
    Within top length hdr := by
  have hBounds := hFits.bounds
  have hPages := hFits.pages
  have hCopy := hFits.userCopied
  have hLast :
      pVaddr hdr + copied length hdr ≤ top * 4096 := hCopy.2
  constructor
  · rw [add32_of_lt (by omega)]
    intro n hn hn'
    omega
  · intro i hi
    rw [add32_of_lt (by omega)]
    refine ⟨Nat.le_trans hCopy.1 (Nat.le_add_right _ _), ?_⟩
    change pVaddr hdr + i + 1 ≤ top * 4096
    omega

theorem pVaddr_lt (hdr : List UInt8) :
    pVaddr hdr < 2 ^ 32 := by
  unfold pVaddr word
  exact ByteMemory.read32_lt _ _

/- `page_fault` panics, too. -/
def Panics (e : Stop) : Prop :=
  (∃ text, e = .panic text) ∨ ∃ a, e = .pageFault a

/-
  A frame that is not the directory, nor the page table or
  the frame of a page of the user, and that is not free.
-/
structure Foreign (m : Machine) (top g : Nat) : Prop where
  aligned : g % 4096 = 0
  ne_root : g ≠ m.root
  noTable : ∀ n, userStart ≤ n → n < top →
    m.ram.entry m.root (n / 1024) ≠ some g
  noPage : ∀ n, userStart ≤ n → n < top →
    m.ram.pageAt m.root n ≠ some g
  used : g ∉ m.frames

/-
  An entry of the directory has changed only if it was empty
  and covers a page of the user; it then names a frame from
  the allocator.  Other pages are mapped as before, but for
  those that show the tables, and foreign frames hold what
  they held.
-/
structure Confined
    (m : Machine)
    (top : Nat)
    (m' : Machine) : Prop where
  machine : m' = (m.withFrames m'.frames).withRam m'.ram
  taken : ∀ f ∈ m'.frames, f ∈ m.frames
  entries : ∀ j, j < 1024 →
    m'.ram.word m.root j = m.ram.word m.root j ∨
      m.ram.word m.root j = 0 ∧
        (∃ n, userStart ≤ n ∧ n < top ∧ n / 1024 = j) ∧
          ∃ f ∈ m.frames, m'.ram.entry m.root j = some f
  user : ∀ n f, userStart ≤ n → n < top →
    m'.ram.pageAt m.root n = some f →
      m.ram.pageAt m.root n = some f ∨ f ∈ m.frames
  others : ∀ n, n < 2 ^ 20 → n < userStart ∨ top ≤ n →
    m.ram.entry m.root (n / 1024) ≠ some m.root →
      m'.ram.pageAt m.root n = m.ram.pageAt m.root n
  bytes : ∀ g, Foreign m top g →
    m.ram.SameOn g (g + 4096) m'.ram

/-
  An address that is neither the user's nor in the window on
  the page tables leads where it led, and a byte in a foreign
  frame is what it was.
-/
def KernelKept (m : Machine) (top : Nat) (m' : Machine) : Prop :=
  ∀ va, va < 2 ^ 32 → ¬ IsUser top va 1 →
    m.ram.entry m.root (va / 2 ^ 22) ≠ some m.root →
      m'.translate va = m.translate va ∧
        ∀ x, m.translate va = some x →
          Foreign m top (x / 4096 * 4096) →
            m'.ram x = m.ram x

theorem Confined.root
    (hConfined : Confined m top m') :
    m'.root = m.root := by
  rw [hConfined.machine]
  rfl

theorem Confined.kernelKept
    (hConfined : Confined m top m')
    (hPaging : m.paging = true) :
    KernelKept m top m' := by
  intro va hva hOut hNoWindow
  have hPaging' : m'.paging = true := by
    rw [hConfined.machine]
    exact hPaging
  have hPage : va / 4096 < userStart ∨ top ≤ va / 4096 := by
    unfold IsUser LOWMEM_ID_MAP_END PAGE_SIZE at hOut
    rw [userStart_eq]
    omega
  have hIndex : va / 4096 / 1024 = va / 2 ^ 22 := by omega
  constructor
  · rw [translate_page hPaging', translate_page hPaging,
      hConfined.root]
    congr 1
    apply hConfined.others _ (by omega) hPage
    rw [hIndex]
    exact hNoWindow
  · intro x _ hForeign
    exact hConfined.bytes _ hForeign x (by omega) (by omega)

/- An entry names the frame that it named, or a new one. -/
theorem Confined.entry_cases
    {u j : Nat}
    (hConfined : Confined m top m')
    (hj : j < 1024)
    (hEntry : m'.ram.entry m.root j = some u) :
    m.ram.entry m.root j = some u ∨ u ∈ m.frames := by
  rcases hConfined.entries j hj with
    hSame | ⟨_, _, f, hf, hNew⟩
  · rw [ByteMemory.entry_congr hSame] at hEntry
    exact .inl hEntry
  · rw [hNew] at hEntry
    cases hEntry
    exact .inr hf

/- The entries, once a range of the user's has been filled. -/
theorem Confined.entries_filled
    (hConfined : Confined m top m')
    (hLo : userStart ≤ lo)
    (hHi : hi ≤ top)
    (hEntered :
      ByteMemory.Entered m.root lo hi hi flags
        m'.frames m''.frames m'.ram m''.ram) :
    ∀ j, j < 1024 →
      m''.ram.word m.root j = m.ram.word m.root j ∨
        m.ram.word m.root j = 0 ∧
          (∃ n, userStart ≤ n ∧ n < top ∧ n / 1024 = j) ∧
            ∃ f ∈ m.frames,
              m''.ram.entry m.root j = some f := by
  intro j hj
  rcases hConfined.entries j hj with
    hOld | ⟨hZero, hPage, f, hf, hEntry⟩
  · rcases hEntered.entries j hj with
      hSame | ⟨hZero, ⟨n, hn, hn', hIndex⟩, f, hf, hEntry⟩
    · exact .inl (hSame.trans hOld)
    · rw [hOld] at hZero
      exact .inr ⟨hZero, ⟨n, by omega, by omega, hIndex⟩, f,
        hConfined.taken f hf, hEntry⟩
  · rcases hEntered.entries j hj with hSame | ⟨hEmpty, _⟩
    · refine .inr ⟨hZero, hPage, f, hf, ?_⟩
      rw [ByteMemory.entry_congr hSame]
      exact hEntry
    · exact absurd hEmpty (entry_ne_zero hEntry)

/- A range of the user's pages is filled. -/
theorem Confined.filled
    (hConfined : Confined m top m')
    (hSpace : UserSpace m d t top)
    (hSpace' : UserSpace m' d t top)
    (hLo : userStart ≤ lo)
    (hHi : hi ≤ top)
    (hFlags : flags < 4096)
    (hFilling : Filling m' d t lo hi flags hi m'') :
    Confined m top m'' := by
  have hRoot := hConfined.root
  have hEntered := hFilling.entered
  have hWider := hSpace'.wider hLo hHi
  rw [hRoot] at hEntered hWider
  have hEntries :=
    hConfined.entries_filled hLo hHi hEntered
  refine
    { machine := ?_
      taken := fun f hf =>
        hConfined.taken f (hEntered.taken f hf)
      entries := hEntries
      user := ?_
      others := ?_
      bytes := ?_ }
  · rw [hFilling.machine, hConfined.machine]
    rfl
  · intro n f hn hn' hPage
    rcases hWider.pageAt_from (presentWith_lt hFlags)
        (presentWith_odd flags) hEntered hn hn' hPage with
      hOld | ⟨_, _, hNew⟩
    · exact hConfined.user n f hn hn' hOld
    · exact .inr (hConfined.taken f hNew)
  · intro n hn hOut hNoWindow
    have hWindow :
        m'.ram.entry m.root (n / 1024) ≠ some m.root := by
      intro hEntry
      rcases hConfined.entry_cases (by omega) hEntry with
        hOld | hFree
      · exact hNoWindow hOld
      · exact (hSpace.ready.spare m.root hFree).ne_root rfl
    rw [hEntered.others n hn (by omega) hWindow]
    exact hConfined.others n hn hOut hNoWindow
  · intro g hg
    refine (hConfined.bytes g hg).trans
      (hEntered.bytes g hg.aligned hg.ne_root ?_)
    intro n hn hn' hEntry
    have hBelow := hSpace.below
    have hEnd := userEnd_eq
    rcases hEntries (n / 1024) (by omega) with
      hSame | ⟨_, _, f, hf, hNew⟩
    · rw [ByteMemory.entry_congr hSame] at hEntry
      exact hg.noTable n (by omega) (by omega) hEntry
    · rw [hNew] at hEntry
      cases hEntry
      exact hg.used hf

/- Bytes are copied to the user's pages. -/
theorem Confined.copied
    (hConfined : Confined m top m')
    (hSpace' : UserSpace m' d t top)
    (hUser : IsUser top dest len)
    (hCopied : Copied m' dest content len m'') :
    Confined m top m'' := by
  have hRoot := hConfined.root
  have hTables := hCopied.tables
  have hFrames : m''.frames = m'.frames := by
    rw [hCopied.machine]
    rfl
  have hWord :
      ∀ j, j < 1024 →
        m''.ram.word m.root j = m'.ram.word m.root j := by
    intro j hj
    rw [← hRoot]
    exact hTables.word_root hj
  have hPage :
      ∀ n, n < 2 ^ 20 →
        m''.ram.pageAt m.root n = m'.ram.pageAt m.root n := by
    intro n hn
    rw [← hRoot]
    exact hTables.pageAt hn
  have hBelow := hSpace'.below
  have hEnd := userEnd_eq
  refine
    { machine := ?_
      taken := ?_
      entries := ?_
      user := ?_
      others := ?_
      bytes := ?_ }
  · rw [hCopied.machine, hConfined.machine]
    rfl
  · rw [hFrames]
    exact hConfined.taken
  · intro j hj
    rw [hWord j hj, ByteMemory.entry_congr (hWord j hj)]
    exact hConfined.entries j hj
  · intro n f hn hn' hf
    rw [hPage n (by omega)] at hf
    exact hConfined.user n f hn hn' hf
  · intro n hn hOut hNoWindow
    rw [hPage n hn]
    exact hConfined.others n hn hOut hNoWindow
  · intro g hg
    refine (hConfined.bytes g hg).trans ?_
    intro x hLo hHi
    apply hCopied.others
    intro i hi' hAt
    have hIn := hUser.page hi'
    rcases translate_eq_some hSpace'.paging hAt with
      ⟨f, hf, hx⟩
    have hAligned := (hSpace'.frame_data hIn.1 hIn.2 hf).1
    have hForeign := hg.aligned
    have hSame : f = g := by omega
    rw [hRoot, hSame] at hf
    rcases hConfined.user _ g hIn.1 hIn.2 hf with
      hOld | hFree
    · exact hg.noPage _ hIn.1 hIn.2 hOld
    · exact hg.used hFree

------------------------------------------------------------
-- Copying
------------------------------------------------------------

theorem Copied.congr
    (hCopied : Copied m dest content k m')
    (hSame : ∀ i, i < k → content' i = content i) :
    Copied m dest content' k m' where
  machine := hCopied.machine
  tables := hCopied.tables
  mapped := hCopied.mapped
  copied := fun i x hi hx =>
    (hCopied.copied i x hi hx).trans (hSame i hi).symm
  others := hCopied.others

/- One pass of the copy, from wherever it reads. -/
theorem Copied.sat_step_any
    (hCopied : Copied m dest content k m')
    (hSpace : UserSpace m d t top)
    (hUser : IsUser top dest len)
    (hk : k < len)
    (src : Nat) :
    ((do
      store8 (add32 dest k)
        (← load8 (add32 src k)) : VmM Unit).run m').Sat
      (fun _ m'' =>
        ∃ content, Copied m dest content (k + 1) m'')
      (fun e _ => Panics e) := by
  have hHigh : dest + len ≤ top * 4096 := hUser.2
  have hBelow : top ≤ 982015 := hSpace.below
  have hDestAddr : add32 dest k = dest + k :=
    add32_of_lt (by omega)
  have hDest :
      m'.translate (dest + k) = m.translate (dest + k) := by
    rw [hCopied.machine]
    exact hCopied.tables.translate hSpace.paging (by omega)
  rw [hDestAddr]
  cases hSrc : m'.translate (add32 src k) with
  | none =>
      have hFault :
          (load8 (add32 src k)).run m' =
            .error (.pageFault (add32 src k)) m' := by
        unfold load8
        rw [EStateM.bind_of_ok (EStateM.run_get m'), hSrc]
        rfl
      rw [EStateM.bind_of_error hFault]
      exact .inr ⟨_, rfl⟩
  | some x =>
      rw [EStateM.bind_of_ok (run_load8 hSrc)]
      cases hAt : m.translate (dest + k) with
      | none =>
          unfold store8
          rw [EStateM.bind_of_ok (EStateM.run_get m'), hDest,
            hAt]
          exact .inr ⟨_, rfl⟩
      | some y =>
          rw [run_store8 (hDest.trans hAt)]
          -- the byte that was read is the content from here on
          have hSame :
              Copied m dest
                (fun i => if i < k then content i else m'.ram x)
                k m' :=
            hCopied.congr fun i hi => if_pos hi
          have hNext := hSame.store hSpace hUser hk hAt
          rw [if_neg (Nat.lt_irrefl k)] at hNext
          exact ⟨_, hNext⟩

/- A copy to the user, from anywhere. -/
theorem sat_memcpy_any
    (hSpace : UserSpace m d t top)
    (hUser : IsUser top dest len)
    (src : Nat) :
    ((memcpy dest src len).run m).Sat
      (fun _ m' => ∃ content, Copied m dest content len m')
      (fun e _ => Panics e) := by
  unfold memcpy
  refine EStateM.sat_upTo
    (I := fun k m' => ∃ content, Copied m dest content k m')
    ⟨fun _ => 0, Copied.zero m dest _⟩ ?_
  rintro k m' hk ⟨content, hCopied⟩
  exact hCopied.sat_step_any hSpace hUser hk src

/- Addresses of the user do not wrap. -/
theorem IsUser.of_bytes
    (hBytes : ∀ i, i < len → IsUser top (add32 dest i) 1)
    (hLen : 0 < len)
    (hDest : dest < 2 ^ 32)
    (hTop : top ≤ userEnd) :
    IsUser top dest len := by
  have hEnd := userEnd_eq
  have hFirst := hBytes 0 hLen
  rw [add32_of_lt (by omega)] at hFirst
  have hLo : 4194304 ≤ dest := hFirst.1
  have hBelow : dest + 1 ≤ top * 4096 := hFirst.2
  refine ⟨hFirst.1, ?_⟩
  change dest + len ≤ top * 4096
  -- otherwise the first byte behind `top` is copied, too
  apply Nat.le_of_not_lt
  intro hPast
  have hBehind := hBytes (top * 4096 - dest) (by omega)
  rw [add32_of_lt (by omega)] at hBehind
  have hAbove :
      dest + (top * 4096 - dest) + 1 ≤ top * 4096 := hBehind.2
  omega

/- A read to the user's pages, with any offset and size. -/
theorem FileAt.sat_read_any
    {offset size va : Nat}
    (hFile : FileAt m s node top start length)
    (hSpace : UserSpace m d t top)
    (hva : va < 2 ^ 32)
    (hBytes :
      ∀ i, i < clamp length offset size →
        IsUser top (add32 va i) 1) :
    ((Elf.read s node offset size va).run m).Sat
      (fun _ m' =>
        m' = m ∨
          IsUser top va (clamp length offset size) ∧
            ∃ content,
              Copied m va content (clamp length offset size) m')
      (fun e _ => Panics e) := by
  unfold Elf.read
  rw [hFile.read]
  dsimp only
  rw [EStateM.bind_of_ok
    (hFile.run_initrdRange hSpace.paging offset size)]
  rcases Nat.eq_zero_or_pos (clamp length offset size) with
    hZero | hPos
  · rw [hZero]
    exact .inl rfl
  · have hUser :=
      IsUser.of_bytes hBytes hPos hva hSpace.below
    exact (sat_memcpy_any hSpace hUser _).bind fun _ _ h =>
      .inr ⟨hUser, h⟩

/- An allocation of some of the user's pages, or of none. -/
theorem sat_allocateRange_user
    {vaStart vaEnd : Nat}
    (hSpace : UserSpace m d t top)
    (hEnd : vaEnd < 2 ^ 32)
    (hPages :
      ∀ n, rangeStart vaStart ≤ n → n < rangeEnd vaEnd →
        userStart ≤ n ∧ n < top)
    (hFlags : flags < 4096) :
    ((allocateRange vaStart vaEnd flags).run m).Sat
      (fun _ m' =>
        m' = m ∨
          ∃ lo hi, userStart ≤ lo ∧ hi ≤ top ∧
            Filling m d t lo hi flags hi m')
      (fun e _ => Panics e) := by
  rcases Nat.lt_or_ge (rangeStart vaStart) (rangeEnd vaEnd) with
    hSome | hNone
  · have hLo : userStart ≤ rangeStart vaStart :=
      (hPages _ (Nat.le_refl _) hSome).1
    have hLast :=
      (hPages (rangeEnd vaEnd - 1) (by omega) (by omega)).2
    have hHi : rangeEnd vaEnd ≤ top := by omega
    have hTop := hSpace.below
    have hUserEnd := userEnd_eq
    have hBound : vaEnd ≤ KERNEL_ADDRESS_SPACE := by
      unfold KERNEL_ADDRESS_SPACE
      rcases Nat.lt_or_ge 0xFFFFF000 vaEnd with hHigh | hLow
      · -- the end of the range is rounded to 0
        unfold rangeEnd at hSome
        rw [pageRoundUp_zero hHigh hEnd] at hSome
        exact absurd hSome (Nat.not_lt_zero _)
      · unfold rangeEnd pgNumFromAddr at hHi
        rw [pageRoundUp_eq hLow] at hHi
        omega
    have hAllocated :=
      (hSpace.ready.narrow hLo hHi).sat_allocateRange_pages
        (Nat.le_of_lt hSome) hBound hFlags
    refine hAllocated.imp ?_ ?_
    · rintro _ m' ⟨_, hFilling⟩
      exact .inr ⟨_, _, hLo, hHi, hFilling⟩
    · rintro e _ ⟨rfl, _⟩
      exact .inl ⟨_, rfl⟩
  · rw [run_allocateRange_empty hNone]
    exact .inl rfl

------------------------------------------------------------
-- The Invariant
------------------------------------------------------------

/- After some of the headers, the file can still be read. -/
structure Bounded
    (m : Machine)
    (d : PageDirectory)
    (t top : Nat)
    (s : Fs.Initrd)
    (node : Fs.FsNode)
    (start length : Nat)
    (m' : Machine) : Prop where
  confined : Confined m top m'
  space : UserSpace m' d t top
  file : FileAt m' s node top start length
  content : ∀ k, k < length →
    contentAt m' start k = contentAt m start k

namespace Bounded

theorem refl
    (hSpace : UserSpace m d t top)
    (hFile : FileAt m s node top start length) :
    Bounded m d t top s node start length m where
  confined :=
    { machine := rfl
      taken := fun _ hf => hf
      entries := fun _ _ => .inl rfl
      user := fun _ _ _ _ hPage => .inl hPage
      others := fun _ _ _ _ => rfl
      bytes := fun _ _ => ByteMemory.SameOn.refl _ _ _ }
  space := hSpace
  file := hFile
  content := fun _ _ => rfl

/- A range of the user's pages has been allocated. -/
theorem filled
    (hSpace : UserSpace m d t top)
    (hBounded : Bounded m d t top s node start length m')
    (hLo : userStart ≤ lo)
    (hHi : hi ≤ top)
    (hFlags : flags < 4096)
    (hFilling : Filling m' d t lo hi flags hi m'') :
    Bounded m d t top s node start length m'' := by
  rcases hBounded.file.filled hBounded.space hLo hHi hFlags
      hFilling with
    ⟨hFile, hContent⟩
  exact
    { confined :=
        hBounded.confined.filled hSpace hBounded.space hLo hHi
          hFlags hFilling
      space :=
        hBounded.space.filled hLo hHi hFlags hFilling
      file := hFile
      content := fun k hk =>
        (hContent k hk).trans (hBounded.content k hk) }

/- Bytes have been copied to the user's pages. -/
theorem copied
    (hBounded : Bounded m d t top s node start length m')
    (hUser : IsUser top dest len)
    (hCopied : Copied m' dest content len m'') :
    Bounded m d t top s node start length m'' := by
  rcases hBounded.file.copied hBounded.space hUser
      hCopied with
    ⟨hFile, hContent⟩
  refine
    { confined :=
        hBounded.confined.copied hBounded.space hUser hCopied
      space := ?_
      file := hFile
      content := fun k hk =>
        (hContent k hk).trans (hBounded.content k hk) }
  rw [hCopied.machine]
  exact hBounded.space.withTables hCopied.tables

/- One pass of the loop, once the header has been read. -/
theorem sat_loadSegment
    (hSpace : UserSpace m d t top)
    (hBounded : Bounded m d t top s node start length m')
    (hWithin : PF_X = pType hdr → Within top length hdr) :
    ((loadSegment s node hdr).run m').Sat
      (fun _ m'' => Bounded m d t top s node start length m'')
      (fun e _ => Panics e) := by
  unfold loadSegment
  by_cases hType : PF_X = pType hdr
  · have hIn := hWithin hType
    rw [if_pos hType]
    have hEnd :
        add32 (pVaddr hdr) (pMemsz hdr) < 2 ^ 32 :=
      Nat.mod_lt _ (by decide)
    refine (sat_allocateRange_user hBounded.space hEnd hIn.pages
      userFlags_lt).bind ?_
    intro _ m₁ hAllocated
    have hNext :
        Bounded m d t top s node start length m₁ := by
      rcases hAllocated with
        rfl | ⟨lo, hi, hLo, hHi, hFilling⟩
      · exact hBounded
      · exact hBounded.filled hSpace hLo hHi userFlags_lt
          hFilling
    refine (hNext.file.sat_read_any hNext.space
      (pVaddr_lt hdr) hIn.bytes).bind ?_
    rintro _ m₂ (rfl | ⟨hUser, content, hCopied⟩)
    · exact hNext
    · exact hNext.copied hUser hCopied
  · rw [if_neg hType]
    exact hBounded

/- The loop, in any file. -/
theorem sat_loadSegments
    (hSpace : UserSpace m d t top)
    (hBounded : Bounded m d t top s node start length m')
    (hWithin :
      ∀ h ∈ headers (contentAt m start) length n off hdr,
        PF_X = pType h → Within top length h) :
    ((loadSegments s node n off hdr).run m').Sat
      (fun _ m'' => Bounded m d t top s node start length m'')
      (fun e _ => Panics e) := by
  induction n generalizing off hdr m' with
  | zero => exact hBounded
  | succ n ih =>
      have hLow := hBounded.file.bytes.low
      unfold LOWMEM_ID_MAP_END at hLow
      have hInside : Inside length off PHDR_SIZE :=
        inside_of_lt (by
          unfold PHDR_SIZE
          omega)
      have hRead :=
        hBounded.file.run_readLocal hBounded.space.paging
          hInside hdr
      rw [localBytes_congr hBounded.content hInside] at hRead
      rw [headers] at hWithin
      rw [loadSegments, EStateM.bind_of_ok hRead]
      refine (hBounded.sat_loadSegment hSpace
        (hWithin _ List.mem_cons_self)).bind ?_
      intro _ m₁ hNext
      exact ih hNext fun h hh =>
        hWithin h (List.mem_cons_of_mem _ hh)

end Bounded

/-
  Whatever the file holds: if the segments of the headers, as
  the loader reads them, are the user's, then the loader
  panics, or all but the user's pages stays as it was.
-/
theorem load_elf_binary_confined
    (hSpace : UserSpace m d t top)
    (hFile : FileAt m s node top start length)
    (hWithin :
      ∀ hdr ∈ metHeaders (contentAt m start) length elfHdr
          pHdr,
        PF_X = pType hdr → Within top length hdr) :
    ((loadElfBinary s node elfHdr pHdr).run m).Sat
      (fun _ m' => Confined m top m' ∧ KernelKept m top m')
      (fun e _ => Panics e) := by
  have hLow := hFile.bytes.low
  unfold LOWMEM_ID_MAP_END at hLow
  have hInside : Inside length 0 EHDR_SIZE :=
    inside_of_lt (by
      unfold EHDR_SIZE
      omega)
  have hRead :=
    hFile.run_readLocal hSpace.paging hInside elfHdr
  unfold loadElfBinary
  rw [EStateM.bind_of_ok hRead]
  split
  · exact .inl ⟨_, rfl⟩
  · refine ((Bounded.refl hSpace hFile).sat_loadSegments hSpace
      hWithin).bind ?_
    intro _ m' hBounded
    exact ⟨hBounded.confined,
      hBounded.confined.kernelKept hSpace.paging⟩

------------------------------------------------------------
-- Two Files
------------------------------------------------------------

/- A header, and the headers and data that follow. -/
def fileWith
    (entry count : Nat)
    (rest : List UInt8) : List UInt8 :=
  ELFMAG ++ List.replicate 20 0 ++
    littleEndian entry ++ littleEndian EHDR_SIZE ++
      List.replicate 12 0 ++ [UInt8.ofNat count, 0] ++
        List.replicate 6 0 ++ rest

/- Two program headers, of which the second is missing. -/
def shortFile : List UInt8 :=
  fileWith 0x10000000 2 (byteHeader 52 0x10000000)

def shortMachine : Machine := machineWith shortFile

def shortNode : Fs.FsNode :=
  { elfNode with length := 84 }

theorem fileAt_shortMachine :
    FileAt shortMachine elfInitrd shortNode
      ownTableStart 0x2100 84 where
  read := rfl
  header := resident_machineWith.narrow (by decide) (by decide)
  bytes := resident_machineWith.narrow (by decide) (by decide)
  offset := by decide
  length := by decide

/- The first header is used twice. -/
theorem metHeaders_shortMachine :
    metHeaders (contentAt shortMachine 0x2100) 84
        (List.replicate EHDR_SIZE 0)
        (List.replicate PHDR_SIZE 0) =
      [byteHeader 52 0x10000000, byteHeader 52 0x10000000] := by
  decide +kernel

theorem short_file_confined :
    ((loadElfBinary elfInitrd shortNode
        (List.replicate EHDR_SIZE 0)
        (List.replicate PHDR_SIZE 0)).run
      shortMachine).Sat
      (fun _ m' =>
        Confined shortMachine ownTableStart m' ∧
          KernelKept shortMachine ownTableStart m')
      (fun e _ => Panics e) := by
  have hFits :
      Fits ownTableStart 84 (byteHeader 52 0x10000000) :=
    { below := by decide
      user := by
        unfold IsUser
        decide
      room := by decide
      file := by
        unfold Inside
        decide }
  have hSpace :
      UserSpace shortMachine
        ⟨0x101000, USER_DIR_VIRTUAL, USER_TABLES_VIRTUAL⟩
        0x102000 ownTableStart :=
    userSpace_machineWith
  have hFile := fileAt_shortMachine
  have hAll :
      ∀ hdr ∈
          metHeaders (contentAt shortMachine 0x2100) 84
            (List.replicate EHDR_SIZE 0)
            (List.replicate PHDR_SIZE 0),
        PF_X = pType hdr → Within ownTableStart 84 hdr := by
    rw [metHeaders_shortMachine]
    intro hdr hMem _
    rcases List.mem_cons.mp hMem with hFirst | hMem
    · rw [hFirst]
      exact hFits.within
    · rw [List.mem_singleton.mp hMem]
      exact hFits.within
  -- the loader is not to be run here
  generalize shortMachine = m at hSpace hFile hAll ⊢
  exact load_elf_binary_confined hSpace hFile hAll

/- A segment of a byte, in the page of the ramdisk. -/
def lowFile : List UInt8 :=
  fileWith 0x2080 1 (byteHeader 84 0x2080 ++ [0xde])

def lowMachine : Machine := machineWith lowFile

def lowNode : Fs.FsNode :=
  { elfNode with length := 85 }

theorem fileAt_lowMachine :
    FileAt lowMachine elfInitrd lowNode
      ownTableStart 0x2100 85 where
  read := rfl
  header := resident_machineWith.narrow (by decide) (by decide)
  bytes := resident_machineWith.narrow (by decide) (by decide)
  offset := by decide
  length := by decide

def lowEnd : Machine :=
  EStateM.endState
    (loadElfBinary elfInitrd lowNode
      (List.replicate EHDR_SIZE 0)
      (List.replicate PHDR_SIZE 0))
    lowMachine

theorem run_lowMachine :
    (loadElfBinary elfInitrd lowNode
        (List.replicate EHDR_SIZE 0)
        (List.replicate PHDR_SIZE 0)).run
      lowMachine = .ok 0x2080 lowEnd :=
  EStateM.run_eq_of_value (by decide +kernel)

/- The ramdisk's page is not the user's. -/
theorem foreign_lowMachine :
    Foreign lowMachine ownTableStart 0x2000 := by
  have hRoot : lowMachine.root = 0x101000 := root_machineWith
  have hSpare :
      lowMachine.ram.Spare 0x101000 userStart ownTableStart
        0x2000 :=
    spare_elfRam (by decide) (by decide) (by decide)
  have hEnd := ownTableStart_eq
  refine
    { aligned := by decide
      ne_root := ?_
      noTable := ?_
      noPage := ?_
      used := by decide }
  · rw [hRoot]
    exact hSpare.ne_root
  · intro n _ hn
    rw [hRoot]
    exact hSpare.noTable (n / 1024) (by omega)
  · rw [hRoot]
    exact hSpare.noPage

/-
  The loader stores to the address that the file gives, in
  identity-mapped memory.
-/
theorem low_segment_overwrites :
    UserSpace lowMachine
        ⟨0x101000, USER_DIR_VIRTUAL, USER_TABLES_VIRTUAL⟩
        0x102000 ownTableStart ∧
      FileAt lowMachine elfInitrd lowNode
        ownTableStart 0x2100 85 ∧
      ∃ r m',
        (loadElfBinary elfInitrd lowNode
            (List.replicate EHDR_SIZE 0)
            (List.replicate PHDR_SIZE 0)).run
          lowMachine = .ok r m' ∧
        lowMachine.translate 0x2080 =
            some 0x2080 ∧
        m'.ram 0x2080 ≠ lowMachine.ram 0x2080 ∧
        ¬ Confined lowMachine ownTableStart m' := by
  have hChanged :
      lowEnd.ram 0x2080 ≠
        lowMachine.ram 0x2080 := by
    decide +kernel
  refine ⟨userSpace_machineWith, fileAt_lowMachine, 0x2080,
    lowEnd, run_lowMachine, ?_, hChanged, ?_⟩
  · exact (resident_machineWith.translate rfl (by decide)
      (by decide))
  · intro hConfined
    exact hChanged
      (hConfined.bytes 0x2000 foreign_lowMachine 0x2080
        (by decide) (by decide))

end Elf

end SosKernel
