import SosKernel.Elf.Load
import SosKernel.Vmm.UserPages

/-
  The memory that `load_elf_binary` leaves.

  Main declarations:
    * `FileAt`: a file of the ramdisk, in low memory
    * `sat_memcpy`: copying to the user's pages
    * `Loading`: the state of the loop, with the image so far
    * `Loading.filled`, `Loading.added`
-/

------------------------------------------------------------
-- The File
------------------------------------------------------------

namespace SosKernel

namespace Elf

open Vmm

variable {m m' : Machine}
variable {d : PageDirectory}
variable {s : Fs.Initrd}
variable {node : Fs.FsNode}
variable {t top a n i lo hi va : Nat}
variable {start length offset size : Nat}
variable {old : List UInt8}

/- The address of the file's header in the ramdisk. -/
def headerAt (s : Fs.Initrd) (node : Fs.FsNode) : Nat :=
  s.fileHeaders + Fs.HEADER_SIZE * node.inode.toNat

/-
  A file of the ramdisk: its header and its bytes are in low
  memory, which nothing else reaches.
-/
structure FileAt
    (m : Machine)
    (s : Fs.Initrd)
    (node : Fs.FsNode)
    (top start length : Nat) : Prop where
  read : node.read = some .initrdRead
  header :
    Resident m top (headerAt s node)
      (headerAt s node + Fs.HEADER_SIZE)
  bytes : Resident m top start (start + length)
  offset :
    m.ram.read32 (headerAt s node + Fs.OFFSET) = start
  length :
    m.ram.read32 (headerAt s node + Fs.LENGTH) = length

/- The bytes of the file. -/
def contentAt (m : Machine) (start : Nat) : ByteMemory :=
  fun k => m.ram (start + k)

theorem run_load8
    {x : Nat}
    (hAt : m.translate a = some x) :
    (load8 a).run m = .ok (m.ram x) m := by
  unfold load8
  rw [EStateM.bind_of_ok (EStateM.run_get m), hAt]
  rfl

theorem run_loadBytes
    (hPaging : m.paging = true)
    (hResident : Resident m top lo hi)
    (hLo : lo ≤ a)
    (hHi : a + n ≤ hi) :
    (loadBytes a n).run m =
      .ok ((List.range n).map fun k => m.ram (a + k)) m := by
  have hLow : hi ≤ 4194304 := hResident.low
  induction n generalizing a with
  | zero => rfl
  | succ n ih =>
      have hFirst :=
        run_load8
          (hResident.translate hPaging hLo (by omega))
      have hNext : add32 a 1 = a + 1 :=
        add32_of_lt (by omega)
      have hRest := ih (a := a + 1) (by omega) (by omega)
      rw [loadBytes, EStateM.bind_of_ok hFirst, hNext,
        EStateM.bind_of_ok hRest, List.range_succ_eq_map,
        List.map_cons, List.map_map]
      have hShift :
          (fun k => m.ram (a + k)) ∘ Nat.succ =
            fun k => m.ram (a + 1 + k) := by
        funext k
        dsimp only [Function.comp]
        rw [Nat.succ_eq_add_one, Nat.add_right_comm]
        rfl
      rw [hShift]
      rfl

theorem getD_range
    (f : Nat → UInt8)
    (hi : i < n) :
    ((List.range n).map f).getD i 0 = f i := by
  rw [List.getD_eq_getElem?_getD, List.getElem?_map,
    List.getElem?_range hi]
  rfl

/- A word of a copy is the word of what is copied. -/
theorem word_copy
    (mem : ByteMemory)
    (a : Nat)
    (hi : i + 4 ≤ n) :
    word ((List.range n).map fun k => mem (a + k)) i =
      mem.read32 (a + i) := by
  unfold word
  apply ByteMemory.read32_congr
  intro j hj
  rw [getD_range _ (by omega), Nat.add_assoc]

theorem FileAt.run_initrdRange
    (hFile : FileAt m s node top start length)
    (hPaging : m.paging = true)
    (offset size : Nat) :
    (initrdRange s node offset size).run m =
      .ok (add32 start offset, clamp length offset size)
        m := by
  have hLow := hFile.header.low
  unfold LOWMEM_ID_MAP_END at hLow
  have hAddr :
      add32 s.fileHeaders
          (Fs.HEADER_SIZE * node.inode.toNat) =
        headerAt s node := by
    unfold headerAt at hLow ⊢
    exact add32_of_lt (by omega)
  have hHeader :=
    run_loadBytes hPaging hFile.header (le_refl _)
      (le_refl _)
  have hStart :=
    word_copy (n := Fs.HEADER_SIZE) (i := Fs.OFFSET) m.ram
      (headerAt s node) (by decide)
  have hLength :=
    word_copy (n := Fs.HEADER_SIZE) (i := Fs.LENGTH) m.ram
      (headerAt s node) (by decide)
  rw [hFile.offset] at hStart
  rw [hFile.length] at hLength
  unfold initrdRange
  rw [hAddr, EStateM.bind_of_ok hHeader]
  dsimp only
  rw [hStart, hLength]
  rfl

/- What is read of the file lies in it. -/
def Inside (length offset size : Nat) : Prop :=
  clamp length offset size = 0 ∨
    offset + clamp length offset size ≤ length

/- A short read stays in the file. -/
theorem inside_of_lt
    (hLength : length + size < 2 ^ 32) :
    Inside length offset size := by
  unfold Inside clamp
  split
  · exact .inl rfl
  · rename_i hLe
    split
    · rw [sub32_of_le (by omega) (by omega)]
      exact .inr (by omega)
    · rename_i hFits
      rw [add32_of_lt (by omega)] at hFits
      exact .inr (by omega)

theorem FileAt.run_loadRange
    (hFile : FileAt m s node top start length)
    (hPaging : m.paging = true)
    (hInside : Inside length offset size) :
    (loadBytes (add32 start offset)
        (clamp length offset size)).run m =
      .ok
        ((List.range (clamp length offset size)).map
          fun k => contentAt m start (offset + k)) m := by
  have hLow := hFile.bytes.low
  unfold LOWMEM_ID_MAP_END at hLow
  rcases hInside with hZero | hLe
  · rw [hZero]
    rfl
  · have hAddr : add32 start offset = start + offset :=
      add32_of_lt (by omega)
    rw [hAddr, run_loadBytes hPaging hFile.bytes (by omega)
      (by omega)]
    unfold contentAt
    simp only [Nat.add_assoc]

theorem FileAt.run_readLocal
    (hFile : FileAt m s node top start length)
    (hPaging : m.paging = true)
    (hInside : Inside length offset size)
    (old : List UInt8) :
    (readLocal s node offset size old).run m =
      .ok
        (localBytes (contentAt m start) length offset size
          old) m := by
  unfold readLocal
  rw [hFile.read]
  dsimp only
  rw [EStateM.bind_of_ok
      (hFile.run_initrdRange hPaging offset size),
    EStateM.bind_of_ok (hFile.run_loadRange hPaging hInside)]
  rfl

------------------------------------------------------------
-- Copying to the User
------------------------------------------------------------

/-
  The first `k` bytes of `content` are at `dest`, and nothing
  else has changed.
-/
structure Copied
    (m : Machine)
    (dest : Nat)
    (content : Nat → UInt8)
    (k : Nat)
    (m' : Machine) : Prop where
  machine : m' = m.withRam m'.ram
  tables : SameTables m m'.ram
  mapped : ∀ i, i < k → ∃ x, m.translate (dest + i) = some x
  copied : ∀ i x, i < k →
    m.translate (dest + i) = some x → m'.ram x = content i
  others : ∀ x,
    (∀ i, i < k → m.translate (dest + i) ≠ some x) →
      m'.ram x = m.ram x

variable {dest src len k : Nat}
variable {content : Nat → UInt8}

theorem Copied.zero
    (m : Machine)
    (dest : Nat)
    (content : Nat → UInt8) :
    Copied m dest content 0 m where
  machine := rfl
  tables := fun _ _ => ByteMemory.SameOn.refl _ _ _
  mapped := fun i hi => absurd hi (Nat.not_lt_zero i)
  copied := fun i _ hi => absurd hi (Nat.not_lt_zero i)
  others := fun _ _ => rfl

/- The addresses from `dest` on are below the page `top`. -/
def IsUser (top dest len : Nat) : Prop :=
  LOWMEM_ID_MAP_END ≤ dest ∧ dest + len ≤ top * PAGE_SIZE

theorem IsUser.page
    (hUser : IsUser top dest len)
    (hi : i < len) :
    userStart ≤ (dest + i) / 4096 ∧
      (dest + i) / 4096 < top := by
  have hLo : 4194304 ≤ dest := hUser.1
  have hHi : dest + len ≤ top * 4096 := hUser.2
  rw [userStart_eq]
  omega

/- One more byte. -/
theorem Copied.store
    {x : Nat}
    (hCopied : Copied m dest content k m')
    (hSpace : UserSpace m d t top)
    (hUser : IsUser top dest len)
    (hk : k < len)
    (hAt : m.translate (dest + k) = some x) :
    Copied m dest content (k + 1)
      (m'.withRam fun y =>
        if y = x then content k else m'.ram y) where
  machine := by
    rw [hCopied.machine]
    rfl
  tables := by
    intro g hTable y hLo hHi
    have hOld := hCopied.tables g hTable y hLo hHi
    rcases translate_eq_some hSpace.paging hAt with
      ⟨f, hf, hx⟩
    have hPage := hUser.page hk
    rcases hSpace.frame_data hPage.1 hPage.2 hf with
      ⟨hAligned, hNot⟩
    have hNe : y ≠ x := by
      rintro rfl
      have hg := isTable_aligned hTable
      have hSame : f = g := by omega
      exact hNot (hSame ▸ hTable)
    change (if y = x then content k else m'.ram y) = m.ram y
    rw [if_neg hNe]
    exact hOld
  mapped := by
    intro i hi
    by_cases hLast : i = k
    · subst hLast
      exact ⟨x, hAt⟩
    · exact hCopied.mapped i (by omega)
  copied := by
    intro i y hi hy
    change (if y = x then content k else m'.ram y) = content i
    by_cases hLast : i = k
    · subst hLast
      rw [hAt] at hy
      cases hy
      rw [if_pos rfl]
    · have hNe : y ≠ x := by
        rintro rfl
        have hSame :=
          hSpace.translate_inj (hUser.page (by omega))
            (hUser.page hk) hy hAt
        omega
      rw [if_neg hNe]
      exact hCopied.copied i y (by omega) hy
  others := by
    intro y hNone
    change (if y = x then content k else m'.ram y) = m.ram y
    have hNe : y ≠ x := by
      rintro rfl
      exact hNone k (Nat.lt_succ_self k) hAt
    rw [if_neg hNe]
    exact hCopied.others y fun i hi => hNone i (by omega)

/- The error of a copy to pages that are not mapped. -/
def Faults (m : Machine) (dest len : Nat) (e : Stop) : Prop :=
  ∃ i, i < len ∧ m.translate (dest + i) = none ∧
    e = .pageFault (dest + i)

/- One pass of the copy. -/
theorem Copied.sat_step
    (hCopied : Copied m dest content k m')
    (hSpace : UserSpace m d t top)
    (hUser : IsUser top dest len)
    (hSource : Resident m top src (src + len))
    (hContent : ∀ i, i < len → content i = m.ram (src + i))
    (hk : k < len) :
    ((do
      store8 (add32 dest k)
        (← load8 (add32 src k)) : VmM Unit).run m').Sat
      (fun _ m'' => Copied m dest content (k + 1) m'')
      (fun e _ => Faults m dest len e) := by
  have hLow : src + len ≤ 4194304 := hSource.low
  have hHigh : dest + len ≤ top * 4096 := hUser.2
  have hBelow : top ≤ 982015 := hSource.below
  have hPaging := hSpace.paging
  have hSrcAddr : add32 src k = src + k :=
    add32_of_lt (by omega)
  have hDestAddr : add32 dest k = dest + k :=
    add32_of_lt (by omega)
  have hSrc :
      m'.translate (src + k) = some (src + k) := by
    rw [hCopied.machine,
      hCopied.tables.translate hPaging (by omega)]
    exact hSource.translate hPaging (by omega) (by omega)
  have hByte : m'.ram (src + k) = content k := by
    rw [hContent k hk]
    apply hCopied.others
    intro i hi hAt
    exact hSource.apart hSpace (a := src + k) (by omega)
      (by omega) (hUser.page (by omega)) hAt rfl
  have hLoad := run_load8 hSrc
  rw [hByte] at hLoad
  rw [hSrcAddr, hDestAddr, EStateM.bind_of_ok hLoad]
  have hDest :
      m'.translate (dest + k) = m.translate (dest + k) := by
    rw [hCopied.machine]
    exact hCopied.tables.translate hPaging (by omega)
  cases hAt : m.translate (dest + k) with
  | none =>
      unfold store8
      rw [EStateM.bind_of_ok (EStateM.run_get m'), hDest, hAt]
      exact ⟨k, hk, hAt, rfl⟩
  | some x =>
      rw [run_store8 (hDest.trans hAt)]
      exact hCopied.store hSpace hUser hk hAt

/- The copy of a part of low memory to the user. -/
theorem sat_memcpy
    (hSpace : UserSpace m d t top)
    (hUser : IsUser top dest len)
    (hSource : Resident m top src (src + len))
    (hContent : ∀ i, i < len → content i = m.ram (src + i)) :
    ((memcpy dest src len).run m).Sat
      (fun _ m' => Copied m dest content len m')
      (fun e _ => Faults m dest len e) := by
  unfold memcpy
  refine EStateM.sat_upTo
    (I := fun k m' => Copied m dest content k m')
    (Copied.zero m dest content) ?_
  intro k m' hk hCopied
  exact hCopied.sat_step hSpace hUser hSource hContent hk

/- A part of the file is read to the user's pages. -/
theorem FileAt.sat_read
    (hFile : FileAt m s node top start length)
    (hSpace : UserSpace m d t top)
    (hUser : IsUser top va (clamp length offset size))
    (hInside : Inside length offset size) :
    ((Elf.read s node offset size va).run m).Sat
      (fun _ m' =>
        Copied m va (fun k => contentAt m start (offset + k))
          (clamp length offset size) m')
      (fun e _ =>
        Faults m va (clamp length offset size) e) := by
  have hPaging := hSpace.paging
  have hLow := hFile.bytes.low
  unfold LOWMEM_ID_MAP_END at hLow
  have hCopy :
      ((memcpy va (add32 start offset)
          (clamp length offset size)).run m).Sat
        (fun _ m' =>
          Copied m va
            (fun k => contentAt m start (offset + k))
            (clamp length offset size) m')
        (fun e _ =>
          Faults m va (clamp length offset size) e) := by
    by_cases hZero : clamp length offset size = 0
    · rw [hZero]
      exact Copied.zero m va _
    · have hLe := hInside.resolve_left hZero
      have hAddr : add32 start offset = start + offset :=
        add32_of_lt (by omega)
      rw [hAddr]
      refine sat_memcpy hSpace hUser
        (hFile.bytes.narrow (by omega) (by omega)) ?_
      intro i _
      unfold contentAt
      rw [Nat.add_assoc]
  unfold Elf.read
  rw [hFile.read]
  dsimp only
  rw [EStateM.bind_of_ok
    (hFile.run_initrdRange hPaging offset size)]
  exact hCopy.bind fun _ _ h => h

------------------------------------------------------------
-- The State of the Loop
------------------------------------------------------------

/-
  From `m` on, the bytes of the image have been stored to the
  user's pages, and `used` pages have been allocated.  All
  other bytes of these pages are those that their frames had.
-/
structure Loading
    (m : Machine)
    (d : PageDirectory)
    (t top : Nat)
    (s : Fs.Initrd)
    (node : Fs.FsNode)
    (start length : Nat)
    (image : Image)
    (used : Nat)
    (m' : Machine) : Prop where
  machine : m' = (m.withFrames m'.frames).withRam m'.ram
  tables : ∀ g, IsTable m g → IsTable m' g
  space : UserSpace m' d t top
  file : FileAt m' s node top start length
  content : ∀ k, k < length →
    contentAt m' start k = contentAt m start k
  taken : ∀ f ∈ m'.frames, f ∈ m.frames
  enough : m.frames.length ≤ m'.frames.length + 2 * used
  spare : ∀ f ∈ m'.frames, m.ram.SameOn f (f + 4096) m'.ram
  mapped : ∀ va b, image va = some b →
    IsUser top va 1 ∧ ∃ x, m'.translate va = some x
  bytes : ∀ va x, IsUser top va 1 → m'.translate va = some x →
    m'.ram x = (image va).getD (m.ram x)

theorem IsUser.page_one
    (hUser : IsUser top va 1) :
    userStart ≤ va / 4096 ∧ va / 4096 < top :=
  hUser.page (i := 0) (by decide)

theorem Loading.refl
    (hSpace : UserSpace m d t top)
    (hFile : FileAt m s node top start length) :
    Loading m d t top s node start length (fun _ => none) 0 m where
  machine := rfl
  tables := fun _ hg => hg
  space := hSpace
  file := hFile
  content := fun _ _ => rfl
  taken := fun _ hf => hf
  enough := Nat.le_refl _
  spare := fun _ _ => ByteMemory.SameOn.refl _ _ _
  mapped := fun va b hb => by cases hb
  bytes := fun _ _ _ _ => rfl

variable {image : Image}
variable {used flags : Nat}

/- The header and the bytes of the file stay. -/
theorem FileAt.filled
    (hFile : FileAt m s node top start length)
    (hSpace : UserSpace m d t top)
    (hLo : userStart ≤ lo)
    (hHi : hi ≤ top)
    (hFlags : flags < 4096)
    (hFilling : Filling m d t lo hi flags hi m') :
    FileAt m' s node top start length ∧
      ∀ k, k < length →
        contentAt m' start k = contentAt m start k := by
  rcases hFile.header.filled hSpace hLo hHi hFlags hFilling
    with ⟨hHeader, hSame⟩
  rcases hFile.bytes.filled hSpace hLo hHi hFlags hFilling
    with ⟨hBytes, hContent⟩
  refine ⟨?_, ?_⟩
  · refine
      { read := hFile.read
        header := hHeader
        bytes := hBytes
        offset := ?_
        length := ?_ }
    · rw [hSame.read32 (by omega) (by
        unfold Fs.OFFSET Fs.HEADER_SIZE
        omega)]
      exact hFile.offset
    · rw [hSame.read32 (by omega) (by
        unfold Fs.LENGTH Fs.HEADER_SIZE
        omega)]
      exact hFile.length
  · intro k hk
    exact hContent (start + k) (by omega) (by omega)

theorem FileAt.copied
    {content : Nat → UInt8}
    (hFile : FileAt m s node top start length)
    (hSpace : UserSpace m d t top)
    (hUser : IsUser top dest len)
    (hCopied : Copied m dest content len m') :
    FileAt m' s node top start length ∧
      ∀ k, k < length →
        contentAt m' start k = contentAt m start k := by
  have hSame :
      ∀ lo hi, Resident m top lo hi →
        m.ram.SameOn lo hi m'.ram := by
    intro lo hi hResident x hLo hHi
    apply hCopied.others
    intro i hi' hAt
    exact hResident.apart hSpace hLo hHi (hUser.page hi') hAt
      rfl
  have hKeep :
      ∀ lo hi, Resident m top lo hi → Resident m' top lo hi := by
    intro lo hi hResident
    rw [hCopied.machine]
    exact hResident.withTables hCopied.tables
  have hHeader := hSame _ _ hFile.header
  refine ⟨?_, ?_⟩
  · refine
      { read := hFile.read
        header := hKeep _ _ hFile.header
        bytes := hKeep _ _ hFile.bytes
        offset := ?_
        length := ?_ }
    · rw [hHeader.read32 (by omega) (by
        unfold Fs.OFFSET Fs.HEADER_SIZE
        omega)]
      exact hFile.offset
    · rw [hHeader.read32 (by omega) (by
        unfold Fs.LENGTH Fs.HEADER_SIZE
        omega)]
      exact hFile.length
  · intro k hk
    exact hSame _ _ hFile.bytes (start + k) (by omega)
      (by omega)

namespace Loading

/- A range of the user's pages has been allocated. -/
theorem filled
    {m'' : Machine}
    (hLoading :
      Loading m d t top s node start length image used m')
    (hLo : userStart ≤ lo)
    (hHi : hi ≤ top)
    (hFlags : flags < 4096)
    (hFilling : Filling m' d t lo hi flags hi m'') :
    Loading m d t top s node start length image
      (used + (hi - lo)) m'' := by
  have hSpace := hLoading.space
  have hSpace' := hSpace.filled hLo hHi hFlags hFilling
  have hRoot := hFilling.root
  have hEntered := hFilling.entered
  have hWider := hSpace.wider hLo hHi
  have hEnd := userEnd_eq
  have hBelow := hSpace.below
  rcases hLoading.file.filled hSpace hLo hHi hFlags hFilling
    with ⟨hFile, hContent⟩
  -- frames that are no tables keep their bytes
  have hData :
      ∀ g, g % 4096 = 0 → ¬ IsTable m'' g →
        m'.ram.SameOn g (g + 4096) m''.ram := by
    intro g hg hNot
    refine hEntered.bytes g hg ?_ ?_
    · rintro rfl
      exact hNot (.inl hRoot.symm)
    · intro n hn hn' hEntry
      rw [← hRoot] at hEntry
      exact hNot (.inr ⟨n / 1024, by omega, hEntry⟩)
  refine
    { machine := ?_
      tables := ?_
      space := hSpace'
      file := hFile
      content := ?_
      taken := ?_
      enough := ?_
      spare := ?_
      mapped := ?_
      bytes := ?_ }
  · rw [hFilling.machine, hLoading.machine]
    rfl
  · intro g hg
    rcases hLoading.tables g hg with hSame | ⟨j, hj, hEntry⟩
    · exact .inl (hSame.trans hRoot.symm)
    · refine .inr ⟨j, hj, ?_⟩
      rw [hRoot]
      exact hEntered.entry_kept hj hEntry
  · intro k hk
    exact (hContent k hk).trans (hLoading.content k hk)
  · intro f hf
    exact hLoading.taken f (hEntered.taken f hf)
  · have hEnough := hFilling.enough
    have hBefore := hLoading.enough
    omega
  · intro f hf
    have hSpare := hSpace'.ready.spare f hf
    refine (hLoading.spare f (hEntered.taken f hf)).trans
      (hData f hSpare.aligned ?_)
    rintro (hSame | ⟨j, hj, hEntry⟩)
    · exact hSpare.ne_root hSame
    · exact hSpare.noTable j hj hEntry
  · intro va b hb
    rcases hLoading.mapped va b hb with ⟨hUser, x, hx⟩
    refine ⟨hUser, ?_⟩
    have hPage := hUser.page_one
    rcases translate_eq_some hSpace.paging hx with ⟨f, hf, _⟩
    rw [translate_page hSpace'.paging, hRoot]
    by_cases hInside : lo ≤ va / 4096 ∧ va / 4096 < hi
    · rcases hEntered.done _ hInside.1 hInside.2 with
        ⟨y, hy, hHas, _⟩
      rw [hHas.pageAt, ByteMemory.entryFrame_add hy
        (presentWith_lt hFlags) (presentWith_odd flags)]
      exact ⟨_, rfl⟩
    · rw [hWider.pageAt hEntered hPage.1 hPage.2 (by omega),
        hf]
      exact ⟨_, rfl⟩
  · intro va x hUser hx
    have hPage := hUser.page_one
    rcases translate_eq_some hSpace'.paging hx with
      ⟨f, hf, hxEq⟩
    rcases hSpace'.frame_data hPage.1 hPage.2 hf with
      ⟨hAligned, hNot⟩
    rw [hData f hAligned hNot x (by omega) (by omega)]
    rw [hRoot] at hf
    rcases hWider.pageAt_from (presentWith_lt hFlags)
      (presentWith_odd flags) hEntered hPage.1 hPage.2 hf with
      hOld | ⟨_, hNone, hMem⟩
    · apply hLoading.bytes va x hUser
      rw [translate_page hSpace.paging, hOld, hxEq]
      rfl
    · -- the page is new, so that the image has nothing there
      have hEmpty : image va = none := by
        by_contra hSome
        rcases Option.ne_none_iff_exists'.mp hSome with
          ⟨b, hb⟩
        rcases hLoading.mapped va b hb with ⟨_, y, hy⟩
        rw [translate_page hSpace.paging, hNone] at hy
        cases hy
      rw [hEmpty, Option.getD_none]
      exact hLoading.spare f hMem x (by omega) (by omega)

/- A part of the file has been copied. -/
theorem added
    {m'' : Machine}
    {hdr : List UInt8}
    (hLoading :
      Loading m d t top s node start length image used m')
    (hType : PF_X = pType hdr)
    (hUser : IsUser top (pVaddr hdr) (copied length hdr))
    (hInside : Inside length (pOffset hdr) (pFilesz hdr))
    (hCopied :
      Copied m' (pVaddr hdr)
        (fun k => contentAt m' start (pOffset hdr + k))
        (copied length hdr) m'') :
    Loading m d t top s node start length
      (addSegment (contentAt m start) length image hdr) used
      m'' := by
  have hSpace := hLoading.space
  have hPaging := hSpace.paging
  have hSpace' : UserSpace m'' d t top := by
    rw [hCopied.machine]
    exact hSpace.withTables hCopied.tables
  have hTranslate :
      ∀ va, IsUser top va 1 →
        m''.translate va = m'.translate va := by
    intro va hva
    have hHigh : va + 1 ≤ top * 4096 := hva.2
    have hBelow : top ≤ 982015 := hSpace.below
    rw [hCopied.machine]
    exact hCopied.tables.translate hPaging (by omega)
  rcases hLoading.file.copied hSpace hUser hCopied with
    ⟨hFile, hContent⟩
  have hFrames : m''.frames = m'.frames := by
    rw [hCopied.machine]
    rfl
  refine
    { machine := ?_
      tables := ?_
      space := hSpace'
      file := hFile
      content := ?_
      taken := ?_
      enough := ?_
      spare := ?_
      mapped := ?_
      bytes := ?_ }
  · rw [hCopied.machine, hLoading.machine]
    rfl
  · intro g hg
    rw [hCopied.machine]
    exact (hCopied.tables.isTable g).mpr (hLoading.tables g hg)
  · intro k hk
    exact (hContent k hk).trans (hLoading.content k hk)
  · rw [hFrames]
    exact hLoading.taken
  · rw [hFrames]
    exact hLoading.enough
  · intro f hf
    rw [hFrames] at hf
    refine (hLoading.spare f hf).trans ?_
    have hSpare := hSpace.ready.spare f hf
    intro x hLo hHi
    apply hCopied.others
    intro i hi hAt
    have hPage := hUser.page hi
    rcases translate_eq_some hPaging hAt with ⟨g, hg, hx⟩
    have hAligned :=
      (hSpace.frame_data hPage.1 hPage.2 hg).1
    have hAlignedF := hSpare.aligned
    have hSame : g = f := by omega
    exact hSpare.noPage _ hPage.1 hPage.2 (hSame ▸ hg)
  · intro va b hb
    unfold addSegment at hb
    split at hb
    · rename_i hIn
      rcases hCopied.mapped (va - pVaddr hdr) (by omega) with
        ⟨x, hx⟩
      have hAddr :
          pVaddr hdr + (va - pVaddr hdr) = va := by omega
      rw [hAddr] at hx
      have hva : IsUser top va 1 :=
        ⟨Nat.le_trans hUser.1 hIn.2.1,
          Nat.le_trans (by omega) hUser.2⟩
      exact ⟨hva, x, (hTranslate va hva).trans hx⟩
    · rcases hLoading.mapped va b hb with ⟨hva, x, hx⟩
      exact ⟨hva, x, (hTranslate va hva).trans hx⟩
  · intro va x hva hx
    rw [hTranslate va hva] at hx
    unfold addSegment
    by_cases hIn :
        pVaddr hdr ≤ va ∧ va < pVaddr hdr + copied length hdr
    · rw [if_pos ⟨hType, hIn⟩, Option.getD_some]
      have hAddr :
          pVaddr hdr + (va - pVaddr hdr) = va := by omega
      rw [hCopied.copied (va - pVaddr hdr) x (by omega)
        (by rw [hAddr]; exact hx)]
      apply hLoading.content
      have hLe := hInside.resolve_left (by
        unfold Elf.copied at hIn
        omega)
      unfold Elf.copied at hIn
      omega
    · rw [if_neg (fun h => hIn h.2), ← hLoading.bytes va x
        hva hx]
      apply hCopied.others
      intro i hi hAt
      have hSame :=
        hSpace.translate_inj (hUser.page hi) hva.page_one hAt
          hx
      omega

end Loading

end Elf

end SosKernel
