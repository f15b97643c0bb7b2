import SosKernel.Elf.Segments

/-
  The segments of a file in memory, and the bytes that are
  behind their part of the file.

  Main declarations:
    * `Loaded`: the segments with zeros behind that part
    * `AlwaysLoads`: for any other data in memory
    * `load_elf_binary_zeroes`: when that is so
    * `elfMachine`: a file with four such bytes
    * `sharedMachine`: pages that a table names already
-/

------------------------------------------------------------
-- Loaded Segments
------------------------------------------------------------

namespace SosKernel

namespace Elf

open Vmm

variable {m m' : Machine}
variable {d : PageDirectory}
variable {s : Fs.Initrd}
variable {node : Fs.FsNode}
variable {t top used start length va : Nat}
variable {hdr elfHdr pHdr : List UInt8}
variable {content content' : ByteMemory}

/- The segment's bytes of the file, and zeros behind them. -/
def SegmentLoaded
    (content : ByteMemory)
    (hdr : List UInt8)
    (m : Machine) : Prop :=
  ∀ k, k < pMemsz hdr →
    ∃ x, m.translate (pVaddr hdr + k) = some x ∧
      m.ram x =
        if k < pFilesz hdr then
          content (pOffset hdr + k)
        else
          0

def Loaded (content : ByteMemory) (m : Machine) : Prop :=
  ∀ hdr ∈ segments content, SegmentLoaded content hdr m

/- Other data in memory, but the same tables and file. -/
structure SameFile
    (m : Machine)
    (s : Fs.Initrd)
    (node : Fs.FsNode)
    (start length : Nat)
    (ram : ByteMemory) : Prop where
  tables : SameTables m ram
  header :
    m.ram.SameOn (headerAt s node)
      (headerAt s node + Fs.HEADER_SIZE) ram
  bytes : m.ram.SameOn start (start + length) ram

/-
  Whatever memory and the allocator's frames have had in
  them, the file is loaded, unless there are too few frames.
-/
def AlwaysLoads
    (m : Machine)
    (s : Fs.Initrd)
    (node : Fs.FsNode)
    (start length : Nat)
    (elfHdr pHdr : List UInt8) : Prop :=
  ∀ ram, SameFile m s node start length ram →
    ((loadElfBinary s node elfHdr pHdr).run
        (m.withRam ram)).Sat
      (fun _ m' => Loaded (contentAt m start) m')
      (fun e _ => e = noFrames)

variable {ram : ByteMemory}

namespace SameFile

theorem fileAt
    (hSame : SameFile m s node start length ram)
    (hFile : FileAt m s node top start length) :
    FileAt (m.withRam ram) s node top start length where
  read := hFile.read
  header := hFile.header.withTables hSame.tables
  bytes := hFile.bytes.withTables hSame.tables
  offset := by
    rw [← hFile.offset]
    exact hSame.header.read32 (by omega) (by
      unfold Fs.OFFSET Fs.HEADER_SIZE
      omega)
  length := by
    rw [← hFile.length]
    exact hSame.header.read32 (by omega) (by
      unfold Fs.LENGTH Fs.HEADER_SIZE
      omega)

theorem sameContent
    {k : Nat}
    (hSame : SameFile m s node start length ram)
    (hk : k < length) :
    contentAt (m.withRam ram) start k =
      contentAt m start k :=
  hSame.bytes (start + k) (by omega) (by omega)

end SameFile

namespace GoodElf

theorem elfHeader_congr
    (hGood : GoodElf content length)
    (hSame : ∀ k, k < length → content' k = content k) :
    elfHeader content' = elfHeader content := by
  have hHeader := hGood.header
  apply List.map_congr_left
  intro k hk
  have hk := List.mem_range.mp hk
  exact hSame k (by omega)

theorem programHeaders_congr
    (hGood : GoodElf content length)
    (hSame : ∀ k, k < length → content' k = content k) :
    programHeaders content' = programHeaders content := by
  unfold programHeaders
  rw [hGood.elfHeader_congr hSame]
  apply List.map_congr_left
  intro i hi
  have hInside := hGood.headers i (List.mem_range.mp hi)
  rw [Nat.mul_succ] at hInside
  apply List.map_congr_left
  intro k hk
  have hk := List.mem_range.mp hk
  exact hSame _ (by omega)

theorem segments_congr
    (hGood : GoodElf content length)
    (hSame : ∀ k, k < length → content' k = content k) :
    segments content' = segments content := by
  unfold segments
  rw [hGood.programHeaders_congr hSame]

theorem congr
    (hGood : GoodElf content length)
    (hSame : ∀ k, k < length → content' k = content k) :
    GoodElf content' length := by
  have hElf := hGood.elfHeader_congr hSame
  have hSegments := hGood.segments_congr hSame
  exact
    { magic := by rw [hElf]; exact hGood.magic
      header := hGood.header
      headers := by rw [hElf]; exact hGood.headers
      user := by rw [hSegments]; exact hGood.user
      sizes := by rw [hSegments]; exact hGood.sizes
      file := by rw [hSegments]; exact hGood.file
      apart := by rw [hSegments]; exact hGood.apart }

theorem endsBelow_congr
    (hGood : GoodElf content length)
    (hEnds : EndsBelow top content)
    (hSame : ∀ k, k < length → content' k = content k) :
    EndsBelow top content' := by
  unfold EndsBelow
  rw [hGood.segments_congr hSame]
  exact hEnds

/- The addresses of a segment are below `top`. -/
theorem isUser
    (hGood : GoodElf content length)
    (hEnds : EndsBelow top content)
    (hHdr : hdr ∈ segments content)
    (hIn : InSegment hdr va) :
    IsUser top va 1 := by
  have hLast := hIn.2
  exact ⟨Nat.le_trans (hGood.user hdr hHdr).1 hIn.1,
    Nat.le_trans (by omega) (hEnds hdr hHdr)⟩

end GoodElf

/- What the call leaves of the machine with other data. -/
theorem SameFile.sat_loadElfBinary
    (hSame : SameFile m s node start length ram)
    (hSpace : UserSpace m d t top)
    (hFile : FileAt m s node top start length)
    (hGood : GoodElf (contentAt m start) length)
    (hEnds : EndsBelow top (contentAt m start))
    (hElf : elfHdr.length = EHDR_SIZE)
    (hHdr : pHdr.length = PHDR_SIZE) :
    ((loadElfBinary s node elfHdr pHdr).run
        (m.withRam ram)).Sat
      (fun _ m' =>
        Loading (m.withRam ram) d t top s node start length
          (imageOf (contentAt (m.withRam ram) start) length
            (programHeaders
              (contentAt (m.withRam ram) start)))
          (pagesOf (programHeaders (contentAt m start))) m')
      (fun e _ =>
        e = noFrames ∧
          m.frames.length <
            2 *
              pagesOf
                (programHeaders (contentAt m start))) := by
  have hContent :
      ∀ k, k < length →
        contentAt (m.withRam ram) start k =
          contentAt m start k :=
    fun k hk => hSame.sameContent hk
  have hLoad :=
    Elf.sat_loadElfBinary (hSpace.withTables hSame.tables)
      (hSame.fileAt hFile) (hGood.congr hContent)
      (hGood.endsBelow_congr hEnds hContent) hElf hHdr
  rw [hGood.programHeaders_congr hContent] at hLoad ⊢
  exact hLoad.imp (fun _ _ h => h.2) fun _ _ h => h

/- With frames for all pages and their tables it returns. -/
theorem SameFile.run_loadElfBinary
    (hSame : SameFile m s node start length ram)
    (hSpace : UserSpace m d t top)
    (hFile : FileAt m s node top start length)
    (hGood : GoodElf (contentAt m start) length)
    (hEnds : EndsBelow top (contentAt m start))
    (hElf : elfHdr.length = EHDR_SIZE)
    (hHdr : pHdr.length = PHDR_SIZE)
    (hFrames :
      2 * pagesOf (programHeaders (contentAt m start)) ≤
        m.frames.length) :
    ∃ r m',
      (loadElfBinary s node elfHdr pHdr).run
          (m.withRam ram) = .ok r m' ∧
        Loading (m.withRam ram) d t top s node start length
          (imageOf (contentAt (m.withRam ram) start) length
            (programHeaders
              (contentAt (m.withRam ram) start)))
          (pagesOf (programHeaders (contentAt m start)))
          m' := by
  have hLoad :=
    hSame.sat_loadElfBinary hSpace hFile hGood hEnds hElf hHdr
  cases hRun :
      (loadElfBinary s node elfHdr pHdr).run
        (m.withRam ram) with
  | error e m' =>
      rw [hRun] at hLoad
      exact absurd hFrames (Nat.not_le_of_lt hLoad.2)
  | ok r m' =>
      rw [hRun] at hLoad
      exact ⟨r, m', rfl, hLoad⟩

/- The bytes of a segment, once the file has been loaded. -/
theorem SameFile.byte
    {x : Nat}
    (hSame : SameFile m s node start length ram)
    (hGood : GoodElf (contentAt m start) length)
    (hEnds : EndsBelow top (contentAt m start))
    (hLength : length < 2 ^ 32)
    (hLoading :
      Loading (m.withRam ram) d t top s node start length
        (imageOf (contentAt (m.withRam ram) start) length
          (programHeaders (contentAt (m.withRam ram) start)))
        used m')
    (hHdr : hdr ∈ segments (contentAt m start))
    (hIn : InSegment hdr va)
    (hAt : m'.translate va = some x) :
    m'.ram x =
      if va < pVaddr hdr + pFilesz hdr then
        contentAt m start (pOffset hdr + (va - pVaddr hdr))
      else
        ram x := by
  have hContent :
      ∀ k, k < length →
        contentAt (m.withRam ram) start k =
          contentAt m start k :=
    fun k hk => hSame.sameContent hk
  have hva := hGood.isUser hEnds hHdr hIn
  have hImage :=
    (hGood.congr hContent).imageOf_eq hLength (by
      rw [hGood.segments_congr hContent]
      exact hHdr) hIn
  rw [hLoading.bytes va x hva hAt, hImage]
  by_cases hFile : va < pVaddr hdr + pFilesz hdr
  · rw [if_pos hFile, if_pos hFile, Option.getD_some]
    apply hContent
    have hPart := hGood.file hdr hHdr
    have hFirst := hIn.1
    omega
  · rw [if_neg hFile, if_neg hFile, Option.getD_none]
    rfl

/- Without zeros the bytes of the file are all there is. -/
theorem alwaysLoads_of_noZeros
    (hSpace : UserSpace m d t top)
    (hFile : FileAt m s node top start length)
    (hGood : GoodElf (contentAt m start) length)
    (hEnds : EndsBelow top (contentAt m start))
    (hElf : elfHdr.length = EHDR_SIZE)
    (hHdr : pHdr.length = PHDR_SIZE)
    (hNoZeros : NoZeros (contentAt m start)) :
    AlwaysLoads m s node start length elfHdr pHdr := by
  have hLow := hFile.bytes.low
  unfold LOWMEM_ID_MAP_END at hLow
  have hLength : length < 2 ^ 32 := by omega
  intro ram hSame
  have hContent :
      ∀ k, k < length →
        contentAt (m.withRam ram) start k =
          contentAt m start k :=
    fun k hk => hSame.sameContent hk
  have hLoad :=
    hSame.sat_loadElfBinary hSpace hFile hGood hEnds hElf hHdr
  refine hLoad.imp ?_ fun _ _ h => h.1
  intro _ m' hLoading hdr hMem k hk
  have hWhole := hNoZeros hdr hMem
  have hIn : InSegment hdr (pVaddr hdr + k) :=
    ⟨Nat.le_add_right _ _, by omega⟩
  have hImage :=
    (hGood.congr hContent).imageOf_eq hLength (by
      rw [hGood.segments_congr hContent]
      exact hMem) hIn
  rw [if_pos (by omega)] at hImage
  rcases hLoading.mapped _ _ hImage with ⟨_, x, hx⟩
  refine ⟨x, hx, ?_⟩
  rw [hSame.byte hGood hEnds hLength hLoading hMem hIn hx,
    if_pos (by omega), if_pos (by omega),
    Nat.add_sub_cancel_left]

/- The user's bytes are apart from the tables and the file. -/
theorem SameFile.apart
    {x : Nat}
    {image : Image}
    (hSame : SameFile m s node start length ram)
    (hLoading :
      Loading (m.withRam ram) d t top s node start length image
        used m')
    (hUser : IsUser top va 1)
    (hAt : m'.translate va = some x) :
    ¬ IsTable m (x / 4096 * 4096) ∧
      ¬ (headerAt s node ≤ x ∧
          x < headerAt s node + Fs.HEADER_SIZE) ∧
        ¬ (start ≤ x ∧ x < start + length) := by
  have hSpace := hLoading.space
  have hPage := hUser.page_one
  rcases translate_eq_some hSpace.paging hAt with
    ⟨f, hf, hx⟩
  rcases hSpace.frame_data hPage.1 hPage.2 hf with
    ⟨hAligned, hNot⟩
  have hFrame : x / 4096 * 4096 = f := by omega
  refine ⟨?_, ?_, ?_⟩
  · rw [hFrame]
    intro hTable
    exact hNot (hLoading.tables f
      ((hSame.tables.isTable f).mpr hTable))
  · rintro ⟨hLo, hHi⟩
    exact hLoading.file.header.apart hSpace hLo hHi hPage hAt
      rfl
  · rintro ⟨hLo, hHi⟩
    exact hLoading.file.bytes.apart hSpace hLo hHi hPage hAt
      rfl

/- Memory that has ones wherever it may have anything. -/
theorem exists_sameFile_ones
    (m : Machine)
    (s : Fs.Initrd)
    (node : Fs.FsNode)
    (start length : Nat) :
    ∃ ram, SameFile m s node start length ram ∧
      ∀ x, ¬ IsTable m (x / 4096 * 4096) →
        ¬ (headerAt s node ≤ x ∧
            x < headerAt s node + Fs.HEADER_SIZE) →
          ¬ (start ≤ x ∧ x < start + length) →
            ram x = 1 := by
  classical
  refine
    ⟨fun x =>
      if IsTable m (x / 4096 * 4096) ∨
          (headerAt s node ≤ x ∧
            x < headerAt s node + Fs.HEADER_SIZE) ∨
          (start ≤ x ∧ x < start + length) then
        m.ram x
      else
        1,
      ⟨?_, ?_, ?_⟩, ?_⟩
  · intro g hTable x hLo hHi
    have hg := isTable_aligned hTable
    have hSame : x / 4096 * 4096 = g := by omega
    exact if_pos (.inl (hSame ▸ hTable))
  · intro x hLo hHi
    exact if_pos (.inr (.inl ⟨hLo, hHi⟩))
  · intro x hLo hHi
    exact if_pos (.inr (.inr ⟨hLo, hHi⟩))
  · intro x hTable hHeader hBytes
    apply if_neg
    rintro (h | h | h)
    · exact hTable h
    · exact hHeader h
    · exact hBytes h

/- Nothing is stored behind the bytes of the file. -/
theorem noZeros_of_alwaysLoads
    (hSpace : UserSpace m d t top)
    (hFile : FileAt m s node top start length)
    (hGood : GoodElf (contentAt m start) length)
    (hEnds : EndsBelow top (contentAt m start))
    (hElf : elfHdr.length = EHDR_SIZE)
    (hHdr : pHdr.length = PHDR_SIZE)
    (hFrames :
      2 * pagesOf (programHeaders (contentAt m start)) ≤
        m.frames.length)
    (hLoads : AlwaysLoads m s node start length elfHdr pHdr) :
    NoZeros (contentAt m start) := by
  have hLow := hFile.bytes.low
  unfold LOWMEM_ID_MAP_END at hLow
  have hLength : length < 2 ^ 32 := by omega
  intro hdr hMem
  by_contra hNe
  have hSizes := hGood.sizes hdr hMem
  rcases exists_sameFile_ones m s node start length with
    ⟨ram, hSame, hOnes⟩
  rcases hSame.run_loadElfBinary hSpace hFile hGood hEnds hElf hHdr
    hFrames with ⟨r, m', hRun, hLoading⟩
  have hImage := hLoads ram hSame
  rw [hRun] at hImage
  -- the first byte behind those of the file
  rcases hImage hdr hMem (pFilesz hdr) (by omega) with
    ⟨x, hx, hByte⟩
  rw [if_neg (Nat.lt_irrefl _)] at hByte
  have hIn : InSegment hdr (pVaddr hdr + pFilesz hdr) :=
    ⟨Nat.le_add_right _ _, by omega⟩
  rw [hSame.byte hGood hEnds hLength hLoading hMem hIn hx,
    if_neg (Nat.lt_irrefl _)] at hByte
  have hUser := hGood.isUser hEnds hMem hIn
  rcases hSame.apart hLoading hUser hx with
    ⟨hTable, hHeader, hBytes⟩
  rw [hOnes x hTable hHeader hBytes] at hByte
  exact absurd hByte (by decide)

/-
  The segments of a file that ends below `top` are in memory
  as the file describes them, whatever was there before, just
  if they have no zeros behind their bytes of the file;
  frames that are short are another matter.
-/
theorem load_elf_binary_zeroes
    (hSpace : UserSpace m d t top)
    (hFile : FileAt m s node top start length)
    (hGood : GoodElf (contentAt m start) length)
    (hElf : elfHdr.length = EHDR_SIZE)
    (hHdr : pHdr.length = PHDR_SIZE) :
    (EndsBelow top (contentAt m start) ∧
        NoZeros (contentAt m start) →
      AlwaysLoads m s node start length elfHdr pHdr) ∧
    (EndsBelow top (contentAt m start) →
      2 * pagesOf (programHeaders (contentAt m start)) ≤
          m.frames.length →
        (AlwaysLoads m s node start length elfHdr pHdr ↔
          NoZeros (contentAt m start))) := by
  have hLoads :=
    fun hEnds : EndsBelow top (contentAt m start) =>
      alwaysLoads_of_noZeros hSpace hFile hGood hEnds hElf
        hHdr
  refine ⟨fun h => hLoads h.1 h.2, ?_⟩
  intro hEnds hFrames
  exact
    ⟨noZeros_of_alwaysLoads hSpace hFile hGood hEnds hElf hHdr
      hFrames, hLoads hEnds⟩

------------------------------------------------------------
-- A File with Zeros
------------------------------------------------------------

def littleEndian (w : Nat) : List UInt8 :=
  (List.range 4).map fun i => UInt8.ofNat (w / 256 ^ i)

/-
  An `Elf32_Ehdr`, an `Elf32_Phdr`, and four bytes of data of
  a segment that has `memsz` bytes in memory.
-/
def elfFile (memsz : Nat) : List UInt8 :=
  ELFMAG ++ List.replicate 20 0 ++
    littleEndian 0x10000000 ++ littleEndian EHDR_SIZE ++
      List.replicate 12 0 ++ [1, 0] ++ List.replicate 6 0 ++
  littleEndian PF_X ++ littleEndian 84 ++
    littleEndian 0x10000000 ++ littleEndian 0x10000000 ++
      littleEndian 4 ++ littleEndian memsz ++
        littleEndian PAGE_SIZE ++ littleEndian PAGE_SIZE ++
  [0xde, 0xad, 0xbe, 0xef]

/- The file in the ramdisk; the rest is full of ones. -/
def onesRam (file : List UInt8) : ByteMemory := fun x =>
  if 0x2100 ≤ x ∧ x < 0x2100 + file.length then
    file.getD (x - 0x2100) 0
  else
    1

def fileRam (file : List UInt8) : ByteMemory :=
  ((onesRam file).setWord 0x2000 17 0x2100).setWord 0x2000 18
    file.length

/- The frames of the directory and of the low table. -/
def clearRam (file : List UInt8) : ByteMemory :=
  ((fileRam file).clearFrame 0x103000).clearFrame 0x101000

/-
  The directory of a user, with the ramdisk's page.  The
  table of the directory's own page has been used before.
-/
def elfRam (file : List UInt8) : ByteMemory :=
  (((((clearRam file).setWord
    0x103000 2 0x2003).setWord
    0x102000 1023 0x101003).setWord
    0x101000 0 0x103003).setWord
    0x101000 958 0x102003).setWord
    0x101000 959 0x101003

def machineWith (file : List UInt8) : Machine where
  ram := elfRam file
  paging := true
  cr3 := 0x101000
  currentDirectory := .heap 0xf0000010
  dirAt := fun _ =>
    some ⟨0x101000, USER_DIR_VIRTUAL, USER_TABLES_VIRTUAL⟩
  kmallocs := []
  frames := [0x104000, 0x105000]
  freed := []

def elfMachine (memsz : Nat) : Machine :=
  machineWith (elfFile memsz)

def elfInitrd : Fs.Initrd where
  fileHeaders := 0x2000
  root := Fs.zeroNode
  dev := Fs.zeroNode
  rootNodes := []

def elfNode : Fs.FsNode :=
  { Fs.zeroNode with
    flags := Fs.FS_FILE
    length := 88
    read := some .initrdRead }

variable {file : List UInt8}

theorem root_machineWith :
    (machineWith file).root = 0x101000 := by
  change pageAddr 0x101000 = 0x101000
  decide

theorem frames_machineWith :
    (machineWith file).frames = [0x104000, 0x105000] := rfl

theorem word_elfRam
    {i : Nat}
    (hi : i < 1024)
    (hLow : i ≠ 0)
    (hDir : i ≠ 958)
    (hSelf : i ≠ 959) :
    (elfRam file).word 0x101000 i = 0 := by
  unfold elfRam
  rw [ByteMemory.word_setWord_of_ne _ _ (by decide)
      (by decide) (by decide) hi (.inr hSelf),
    ByteMemory.word_setWord_of_ne _ _ (by decide)
      (by decide) (by decide) hi (.inr hDir),
    ByteMemory.word_setWord_of_ne _ _ (by decide)
      (by decide) (by decide) hi (.inr hLow),
    ByteMemory.word_setWord_of_ne _ _ (by decide)
      (by decide) (by decide) hi (.inl (by decide)),
    ByteMemory.word_setWord_of_ne _ _ (by decide)
      (by decide) (by decide) hi (.inl (by decide))]
  exact ByteMemory.word_clearFrame_self _ _ hi

theorem entry_elfRam_low :
    (elfRam file).entry 0x101000 0 = some 0x103000 := by
  refine (ByteMemory.entry_of_word (e := 0x103003) ?_).trans rfl
  unfold elfRam
  rw [ByteMemory.word_setWord_of_ne _ _ (by decide)
      (by decide) (by decide) (by decide) (.inr (by decide)),
    ByteMemory.word_setWord_of_ne _ _ (by decide)
      (by decide) (by decide) (by decide) (.inr (by decide))]
  exact ByteMemory.word_setWord_self _ _ _ (by decide)

theorem entry_elfRam_dir :
    (elfRam file).entry 0x101000 958 = some 0x102000 := by
  refine (ByteMemory.entry_of_word (e := 0x102003) ?_).trans rfl
  unfold elfRam
  rw [ByteMemory.word_setWord_of_ne _ _ (by decide)
      (by decide) (by decide) (by decide) (.inr (by decide))]
  exact ByteMemory.word_setWord_self _ _ _ (by decide)

theorem entry_elfRam_self :
    (elfRam file).entry 0x101000 959 = some 0x101000 := by
  refine (ByteMemory.entry_of_word (e := 0x101003) ?_).trans rfl
  exact ByteMemory.word_setWord_self _ _ _ (by decide)

/- The other tables. -/
theorem word_elfRam_of_ne
    {f i : Nat}
    (hf : f % 4096 = 0)
    (hi : i < 1024)
    (hNe : f ≠ 0x101000) :
    (elfRam file).word f i =
      (((clearRam file).setWord 0x103000 2 0x2003).setWord
        0x102000 1023 0x101003).word f i := by
  unfold elfRam
  rw [ByteMemory.word_setWord_of_ne _ _ (by decide) hf
      (by decide) hi (.inl hNe),
    ByteMemory.word_setWord_of_ne _ _ (by decide) hf
      (by decide) hi (.inl hNe),
    ByteMemory.word_setWord_of_ne _ _ (by decide) hf
      (by decide) hi (.inl hNe)]

theorem entry_elfRam_own :
    (elfRam file).entry 0x102000 1023 = some 0x101000 := by
  refine (ByteMemory.entry_of_word (e := 0x101003) ?_).trans rfl
  rw [word_elfRam_of_ne (by decide) (by decide) (by decide)]
  exact ByteMemory.word_setWord_self _ _ _ (by decide)

theorem entry_elfRam_ramdisk :
    (elfRam file).entry 0x103000 2 = some 0x2000 := by
  refine (ByteMemory.entry_of_word (e := 0x2003) ?_).trans rfl
  rw [word_elfRam_of_ne (by decide) (by decide) (by decide),
    ByteMemory.word_setWord_of_ne _ _ (by decide)
      (by decide) (by decide) (by decide) (.inl (by decide))]
  exact ByteMemory.word_setWord_self _ _ _ (by decide)

theorem entry_elfRam
    {j f : Nat}
    (hj : j < 1024)
    (hEntry : (elfRam file).entry 0x101000 j = some f) :
    j = 0 ∧ f = 0x103000 ∨ j = 958 ∧ f = 0x102000 ∨
      j = 959 ∧ f = 0x101000 := by
  by_cases hLow : j = 0
  · subst hLow
    rw [entry_elfRam_low] at hEntry
    exact .inl ⟨rfl, (Option.some.inj hEntry).symm⟩
  · by_cases hDir : j = 958
    · subst hDir
      rw [entry_elfRam_dir] at hEntry
      exact .inr (.inl ⟨rfl, (Option.some.inj hEntry).symm⟩)
    · by_cases hSelf : j = 959
      · subst hSelf
        rw [entry_elfRam_self] at hEntry
        exact .inr (.inr
          ⟨rfl, (Option.some.inj hEntry).symm⟩)
      · have hWord : (elfRam file).word 0x101000 j = 0 :=
          word_elfRam hj hLow hDir hSelf
        exact absurd hWord (entry_ne_zero hEntry)

/- No page of the user below the last table is mapped. -/
theorem pageAt_elfRam
    {n : Nat}
    (hLo : userStart ≤ n)
    (hHi : n < ownTableStart) :
    (elfRam file).pageAt 0x101000 n = none := by
  rw [userStart_eq] at hLo
  rw [ownTableStart_eq] at hHi
  exact ByteMemory.pageAt_of_none
    (ByteMemory.entry_of_word
      (word_elfRam (by omega) (by omega) (by omega)
        (by omega)))

theorem pageAt_elfRam_ramdisk :
    (elfRam file).pageAt 0x101000 2 = some 0x2000 :=
  (ByteMemory.pageAt_of_entry (n := 2)
    entry_elfRam_low).trans entry_elfRam_ramdisk

theorem selfMapped_machineWith :
    SelfMapped (machineWith file)
      ⟨0x101000, USER_DIR_VIRTUAL, USER_TABLES_VIRTUAL⟩
      0x102000 := by
  have hRoot := @root_machineWith file
  refine ⟨rfl, ?_, ⟨rfl, by decide, by decide, ?_, ?_⟩,
    ⟨rfl, by decide, by decide, ?_⟩⟩
  · rw [hRoot]
    decide
  · rw [hRoot]
    exact entry_elfRam_dir
  · rw [hRoot]
    exact entry_elfRam_own
  · rw [hRoot]
    exact entry_elfRam_self

/- A frame that is not one of the three tables. -/
theorem spare_elfRam
    {f : Nat}
    (hAligned : f % 4096 = 0)
    (hLt : f < 2 ^ 32)
    (hApart : f < 0x101000 ∨ 0x104000 ≤ f) :
    (elfRam file).Spare 0x101000 userStart ownTableStart f where
  aligned := hAligned
  lt := hLt
  ne_root := by omega
  noTable := by
    intro j hj hEntry
    have hTable := entry_elfRam hj hEntry
    omega
  noPage := by
    intro n hLo hHi
    rw [pageAt_elfRam hLo hHi]
    nofun

theorem userSpace_machineWith :
    UserSpace (machineWith file)
      ⟨0x101000, USER_DIR_VIRTUAL, USER_TABLES_VIRTUAL⟩
      0x102000 ownTableStart := by
  have hRoot := @root_machineWith file
  have hRam : (machineWith file).ram = elfRam file := rfl
  have hStart := userStart_eq
  have hEnd := ownTableStart_eq
  have hDir : pgNumFromAddr USER_DIR_VIRTUAL = 982015 := rfl
  have hPages : pgdirIdxFromAddr USER_TABLES_VIRTUAL = 959 :=
    rfl
  have hEmpty :
      ∀ n, userStart ≤ n → n < ownTableStart →
        (elfRam file).word 0x101000 (n / 1024) = 0 :=
    fun n hLo hHi =>
      word_elfRam (by omega) (by omega) (by omega) (by omega)
  refine
    { below := by decide
      ready :=
        { self := selfMapped_machineWith
          avoids := ?_
          tables := ?_
          spare := ?_
          nodup := frames_machineWith ▸ by decide }
      distinct := ?_ }
  · intro n _ hn
    unfold Outside
    dsimp only
    rw [hDir, hPages]
    omega
  · rw [hRoot, hRam]
    refine
      { aligned := by decide
        bound := by omega
        own := fun n hLo hHi => .inl (hEmpty n hLo hHi)
        whole := ?_
        data := ?_ }
    · intro n u hLo hHi hu
      exact absurd (hEmpty n hLo hHi) (entry_ne_zero hu)
    · intro n f hLo hHi hf
      rw [pageAt_elfRam hLo hHi] at hf
      cases hf
  · rw [hRoot, hRam]
    intro f hf
    have hCases : f = 0x104000 ∨ f = 0x105000 := by
      rcases List.mem_cons.mp hf with hf | hf
      · exact .inl hf
      · exact .inr (List.mem_singleton.mp hf)
    exact spare_elfRam (by omega) (by omega) (by omega)
  · rw [hRoot, hRam]
    intro n n' f hLo hHi _ _ hf
    rw [pageAt_elfRam hLo hHi] at hf
    cases hf

/- The page of the ramdisk. -/
theorem resident_machineWith :
    Resident (machineWith file) ownTableStart 0x2000
      0x3000 := by
  have hRoot := @root_machineWith file
  have hPage :
      ∀ a, 0x2000 ≤ a → a < 0x3000 → a / 4096 = 2 := by
    intro a hLo hHi
    omega
  refine
    { below := by decide
      low := by decide
      identity := ?_
      spare := ?_
      taken := ?_ }
  · intro a hLo hHi
    rw [hRoot, hPage a hLo hHi]
    exact pageAt_elfRam_ramdisk
  · intro a hLo hHi
    rw [hRoot, hPage a hLo hHi]
    exact spare_elfRam (by decide) (by decide) (by decide)
  · intro a hLo hHi
    rw [hPage a hLo hHi, frames_machineWith]
    decide

/- With and without four bytes behind those of the file. -/
def IsRoom (memsz : Nat) : Prop :=
  memsz = 4 ∨ memsz = 8

variable {memsz : Nat}

theorem fileAt_elfMachine
    (hRoom : IsRoom memsz) :
    FileAt (elfMachine memsz) elfInitrd elfNode ownTableStart
      0x2100 88 where
  read := rfl
  header := resident_machineWith.narrow (by decide) (by decide)
  bytes := resident_machineWith.narrow (by decide) (by decide)
  offset := by rcases hRoom with rfl | rfl <;> decide
  length := by rcases hRoom with rfl | rfl <;> decide

/- The header of its only segment. -/
def elfSegment (memsz : Nat) : List UInt8 :=
  ((elfFile memsz).drop EHDR_SIZE).take PHDR_SIZE

theorem segments_elfMachine
    (hRoom : IsRoom memsz) :
    segments (contentAt (elfMachine memsz) 0x2100) =
      [elfSegment memsz] := by
  rcases hRoom with rfl | rfl <;> decide

theorem elfSegment_facts
    (hRoom : IsRoom memsz) :
    pVaddr (elfSegment memsz) = 0x10000000 ∧
      pOffset (elfSegment memsz) = 84 ∧
      pFilesz (elfSegment memsz) = 4 ∧
      pMemsz (elfSegment memsz) = memsz ∧ 4 ≤ memsz ∧
      memsz ≤ 8 := by
  rcases hRoom with rfl | rfl <;> decide

theorem elfHeader_facts
    (hRoom : IsRoom memsz) :
    let hdr := elfHeader (contentAt (elfMachine memsz) 0x2100)
    hdr.take 4 = ELFMAG ∧ ePhnum hdr = 1 ∧ ePhoff hdr = 52 := by
  rcases hRoom with rfl | rfl <;> decide

theorem goodElf_elfMachine
    (hRoom : IsRoom memsz) :
    GoodElf (contentAt (elfMachine memsz) 0x2100) 88 := by
  rcases elfHeader_facts hRoom with ⟨hMagic, hCount, hFirst⟩
  rcases elfSegment_facts hRoom with
    ⟨hVaddr, hOffset, hFilesz, hMemsz, hLo, hHi⟩
  have hSegments := segments_elfMachine hRoom
  refine
    { magic := hMagic
      header := by decide
      headers := ?_
      user := ?_
      sizes := ?_
      file := ?_
      apart := ?_ }
  · intro i hi
    rw [hCount] at hi
    rw [hFirst]
    unfold PHDR_SIZE
    omega
  · rw [hSegments]
    intro hdr hMem
    cases List.mem_singleton.mp hMem
    have hEnd := userEnd_eq
    unfold IsUser LOWMEM_ID_MAP_END PAGE_SIZE
    omega
  · rw [hSegments]
    intro hdr hMem
    cases List.mem_singleton.mp hMem
    omega
  · rw [hSegments]
    intro hdr hMem
    cases List.mem_singleton.mp hMem
    omega
  · rw [hSegments]
    exact List.pairwise_singleton _ _

theorem endsBelow_elfMachine
    (hRoom : IsRoom memsz) :
    EndsBelow ownTableStart
      (contentAt (elfMachine memsz) 0x2100) := by
  rcases elfSegment_facts hRoom with
    ⟨hVaddr, _, _, hMemsz, _, hHi⟩
  have hEnd := ownTableStart_eq
  unfold EndsBelow PAGE_SIZE
  rw [segments_elfMachine hRoom]
  intro hdr hMem
  cases List.mem_singleton.mp hMem
  omega

theorem pages_elfMachine
    (hRoom : IsRoom memsz) :
    pagesOf
        (programHeaders
          (contentAt (elfMachine memsz) 0x2100)) = 1 := by
  rcases hRoom with rfl | rfl <;> decide

/- Without bytes behind those of the file it is loaded. -/
theorem elfMachine_loads :
    AlwaysLoads (elfMachine 4) elfInitrd elfNode 0x2100 88
      (List.replicate EHDR_SIZE 0)
      (List.replicate PHDR_SIZE 0) := by
  refine
    (load_elf_binary_zeroes userSpace_machineWith
      (fileAt_elfMachine (.inl rfl))
      (goodElf_elfMachine (.inl rfl))
      List.length_replicate List.length_replicate).1
      ⟨endsBelow_elfMachine (.inl rfl), ?_⟩
  intro hdr hMem
  have hSegments :=
    (segments_elfMachine (.inl rfl : IsRoom 4)) ▸ hMem
  cases List.mem_singleton.mp hSegments
  decide

theorem elfRam_one
    {x : Nat}
    (hTables : x < 0x101000 ∨ 0x104000 ≤ x)
    (hHeader : ¬ (0x2000 ≤ x ∧ x < 0x2000 + Fs.HEADER_SIZE))
    (hLength : (elfFile memsz).length = 88)
    (hBytes : ¬ (0x2100 ≤ x ∧ x < 0x2100 + 88)) :
    elfRam (elfFile memsz) x = 1 := by
  have hHeader : ¬ (0x2000 ≤ x ∧ x < 0x2000 + 76) := hHeader
  have hClear :
      ∀ (mem : ByteMemory) f, 0x101000 ≤ f → f < 0x104000 →
        f % 4096 = 0 → mem.clearFrame f x = mem x := by
    intro mem f hLo hHi hf
    unfold ByteMemory.clearFrame
    rw [if_neg (by omega)]
  have hSet :
      ∀ (mem : ByteMemory) f i v, i < 1024 → f % 4096 = 0 →
        0x101000 ≤ f ∧ f < 0x104000 ∨ f = 0x2000 ∧ i < 19 →
          mem.setWord f i v x = mem x := by
    intro mem f i v hi hf hPlace
    unfold ByteMemory.setWord
    exact ByteMemory.write32_apply_of_apart _ _ (by omega)
  unfold elfRam
  rw [hSet _ _ _ _ (by decide) (by decide) (by decide),
    hSet _ _ _ _ (by decide) (by decide) (by decide),
    hSet _ _ _ _ (by decide) (by decide) (by decide),
    hSet _ _ _ _ (by decide) (by decide) (by decide),
    hSet _ _ _ _ (by decide) (by decide) (by decide)]
  unfold clearRam
  rw [hClear _ _ (by decide) (by decide) (by decide),
    hClear _ _ (by decide) (by decide) (by decide)]
  unfold fileRam
  rw [hSet _ _ _ _ (by decide) (by decide) (by decide),
    hSet _ _ _ _ (by decide) (by decide) (by decide)]
  exact if_neg (by rw [hLength]; omega)

/- The four bytes behind the data are ones, not zeros. -/
theorem elfMachine_keeps_ones :
    UserSpace (elfMachine 8)
        ⟨0x101000, USER_DIR_VIRTUAL, USER_TABLES_VIRTUAL⟩
        0x102000 ownTableStart ∧
      FileAt (elfMachine 8) elfInitrd elfNode ownTableStart
        0x2100 88 ∧
      GoodElf (contentAt (elfMachine 8) 0x2100) 88 ∧
      EndsBelow ownTableStart
        (contentAt (elfMachine 8) 0x2100) ∧
      ∃ r m' x,
        (loadElfBinary elfInitrd elfNode
            (List.replicate EHDR_SIZE 0)
            (List.replicate PHDR_SIZE 0)).run (elfMachine 8) =
          .ok r m' ∧
        m'.translate 0x10000004 = some x ∧ m'.ram x = 1 ∧
        ¬ Loaded (contentAt (elfMachine 8) 0x2100) m' := by
  have hRoom : IsRoom 8 := .inr rfl
  have hRoot : (elfMachine 8).root = 0x101000 :=
    root_machineWith
  have hLength : 88 < 2 ^ 32 := by decide
  have hSame :
      SameFile (elfMachine 8) elfInitrd elfNode 0x2100 88
        (elfMachine 8).ram :=
    ⟨fun _ _ => ByteMemory.SameOn.refl _ _ _,
      ByteMemory.SameOn.refl _ _ _,
      ByteMemory.SameOn.refl _ _ _⟩
  have hMem :
      (elfSegment 8) ∈
        segments (contentAt (elfMachine 8) 0x2100) := by
    rw [segments_elfMachine hRoom]
    exact List.mem_singleton_self _
  have hFile : InSegment (elfSegment 8) 0x10000000 := by
    unfold InSegment
    decide
  have hBehind : InSegment (elfSegment 8) 0x10000004 := by
    unfold InSegment
    decide
  have hFrames :
      2 * pagesOf (programHeaders (contentAt (elfMachine 8) 0x2100)) ≤
        (elfMachine 8).frames.length := by
    rw [pages_elfMachine hRoom]
    decide
  rcases hSame.run_loadElfBinary userSpace_machineWith
      (fileAt_elfMachine hRoom) (goodElf_elfMachine hRoom)
      (endsBelow_elfMachine hRoom)
      (List.length_replicate (n := EHDR_SIZE) (a := 0))
      (List.length_replicate (n := PHDR_SIZE) (a := 0))
      hFrames with ⟨r, m', hRun, hLoading⟩
  have hSpace := hLoading.space
  have hImage :=
    (goodElf_elfMachine hRoom).imageOf_eq hLength hMem hFile
  rw [if_pos (by decide)] at hImage
  rcases hLoading.mapped _ _ hImage with ⟨_, y, hy⟩
  rcases translate_eq_some hSpace.paging hy with ⟨f, hf, _⟩
  have hAt : m'.translate 0x10000004 = some (f + 4) := by
    have hPage : 0x10000004 / 4096 = 0x10000000 / 4096 := by
      decide
    rw [translate_page hSpace.paging, hPage, hf]
    rfl
  have hUser : IsUser ownTableStart 0x10000004 1 :=
    ⟨by decide, by decide⟩
  have hByte :=
    hSame.byte (goodElf_elfMachine hRoom)
      (endsBelow_elfMachine hRoom) hLength hLoading hMem
      hBehind hAt
  rw [if_neg (by decide)] at hByte
  rcases hSame.apart hLoading hUser hAt with
    ⟨hTable, hHeader, hBytes⟩
  have hTables :
      f + 4 < 0x101000 ∨ 0x104000 ≤ f + 4 := by
    have hNotRoot : (f + 4) / 4096 * 4096 ≠ 0x101000 :=
      fun h => hTable (.inl (h.trans hRoot.symm))
    have hNotDir : (f + 4) / 4096 * 4096 ≠ 0x102000 := by
      intro h
      refine hTable (.inr ⟨958, by decide, ?_⟩)
      rw [hRoot, h]
      exact entry_elfRam_dir
    have hNotLow : (f + 4) / 4096 * 4096 ≠ 0x103000 := by
      intro h
      refine hTable (.inr ⟨0, by decide, ?_⟩)
      rw [hRoot, h]
      exact entry_elfRam_low
    omega
  have hOne : m'.ram (f + 4) = 1 :=
    hByte.trans (elfRam_one hTables hHeader (by decide) hBytes)
  refine ⟨userSpace_machineWith, fileAt_elfMachine hRoom,
    goodElf_elfMachine hRoom, endsBelow_elfMachine hRoom, r,
    m', f + 4, hRun, hAt, hOne, ?_⟩
  intro hLoaded
  rcases hLoaded (elfSegment 8) hMem 4 (by decide) with
    ⟨x, hx, hZero⟩
  have hAddr : pVaddr (elfSegment 8) + 4 = 0x10000004 := by
    decide
  rw [hAddr, hAt] at hx
  cases hx
  rw [hOne] at hZero
  exact absurd hZero (by decide)

------------------------------------------------------------
-- Pages of a Table That Was Not Cleared
------------------------------------------------------------

/- The header of a segment of one byte. -/
def byteHeader (offset vaddr : Nat) : List UInt8 :=
  littleEndian PF_X ++ littleEndian offset ++
    littleEndian vaddr ++ littleEndian vaddr ++
      littleEndian 1 ++ littleEndian 1 ++
        littleEndian PAGE_SIZE ++ littleEndian PAGE_SIZE

/- Two segments, on the first two pages of the last table. -/
def sharedFile : List UInt8 :=
  ELFMAG ++ List.replicate 20 0 ++
    littleEndian 0xef800000 ++ littleEndian EHDR_SIZE ++
      List.replicate 12 0 ++ [2, 0] ++ List.replicate 6 0 ++
  byteHeader 116 0xef800000 ++ byteHeader 117 0xef801000 ++
  [0xde, 0xad]

def sharedMachine : Machine := machineWith sharedFile

def sharedNode : Fs.FsNode :=
  { elfNode with length := 118 }

theorem fileAt_sharedMachine :
    FileAt sharedMachine elfInitrd sharedNode ownTableStart
      0x2100 118 where
  read := rfl
  header := resident_machineWith.narrow (by decide) (by decide)
  bytes := resident_machineWith.narrow (by decide) (by decide)
  offset := by decide
  length := by decide

theorem segments_sharedMachine :
    segments (contentAt sharedMachine 0x2100) =
      [byteHeader 116 0xef800000,
        byteHeader 117 0xef801000] := by
  decide +kernel

theorem goodElf_sharedMachine :
    GoodElf (contentAt sharedMachine 0x2100) 118 := by
  have hHeader :
      let hdr := elfHeader (contentAt sharedMachine 0x2100)
      hdr.take 4 = ELFMAG ∧ ePhnum hdr = 2 ∧
        ePhoff hdr = 52 := by
    decide +kernel
  rcases hHeader with ⟨hMagic, hCount, hFirst⟩
  refine
    { magic := hMagic
      header := by decide
      headers := ?_
      user := ?_
      sizes := ?_
      file := ?_
      apart := ?_ }
  · intro i hi
    rw [hCount] at hi
    rw [hFirst]
    unfold PHDR_SIZE
    omega
  · rw [segments_sharedMachine]
    unfold IsUser
    decide
  · rw [segments_sharedMachine]
    decide
  · rw [segments_sharedMachine]
    decide
  · rw [segments_sharedMachine, List.pairwise_pair]
    have hEnd : ∀ va, InSegment (byteHeader 116 0xef800000) va →
        va < 0xef800001 := fun va hIn => hIn.2
    have hStart :
        ∀ va, InSegment (byteHeader 117 0xef801000) va →
          0xef801000 ≤ va := fun va hIn => hIn.1
    intro va hIn hIn'
    have hLt := hEnd va hIn
    have hLe := hStart va hIn'
    omega

def sharedEnd : Machine :=
  EStateM.endState
    (loadElfBinary elfInitrd sharedNode
      (List.replicate EHDR_SIZE 0)
      (List.replicate PHDR_SIZE 0))
    sharedMachine

theorem run_sharedMachine :
    (loadElfBinary elfInitrd sharedNode
        (List.replicate EHDR_SIZE 0)
        (List.replicate PHDR_SIZE 0)).run sharedMachine =
      .ok 0xef800000 sharedEnd :=
  EStateM.run_eq_of_value (by decide +kernel)

/-
  Without zeros to be made, but on pages that a table names
  from an earlier use: both segments are stored to one frame.
-/
theorem sharedMachine_overwrites :
    UserSpace sharedMachine
        ⟨0x101000, USER_DIR_VIRTUAL, USER_TABLES_VIRTUAL⟩
        0x102000 ownTableStart ∧
      FileAt sharedMachine elfInitrd sharedNode ownTableStart
        0x2100 118 ∧
      GoodElf (contentAt sharedMachine 0x2100) 118 ∧
      NoZeros (contentAt sharedMachine 0x2100) ∧
      ∃ r m',
        (loadElfBinary elfInitrd sharedNode
            (List.replicate EHDR_SIZE 0)
            (List.replicate PHDR_SIZE 0)).run
          sharedMachine = .ok r m' ∧
        ¬ Loaded (contentAt sharedMachine 0x2100) m' := by
  have hFirst :
      byteHeader 116 0xef800000 ∈
        segments (contentAt sharedMachine 0x2100) := by
    rw [segments_sharedMachine]
    exact List.mem_cons_self
  have hZeros : NoZeros (contentAt sharedMachine 0x2100) := by
    unfold NoZeros
    rw [segments_sharedMachine]
    decide
  refine ⟨userSpace_machineWith, fileAt_sharedMachine,
    goodElf_sharedMachine, hZeros, 0xef800000, sharedEnd,
    run_sharedMachine, ?_⟩
  intro hLoaded
  rcases hLoaded _ hFirst 0 (by decide) with ⟨x, hx, hByte⟩
  have hOther :
      (sharedEnd.translate 0xef800000).map sharedEnd.ram =
        some 0xad := by
    decide +kernel
  have hAddr :
      pVaddr (byteHeader 116 0xef800000) + 0 = 0xef800000 := by
    decide
  rw [hAddr] at hx
  rw [hx] at hOther
  have hFile :
      contentAt sharedMachine 0x2100
          (pOffset (byteHeader 116 0xef800000) + 0) = 0xde := by
    decide +kernel
  rw [if_pos (by decide), hFile] at hByte
  rw [Option.map_some, hByte] at hOther
  exact absurd hOther (by decide)

end Elf

end SosKernel
