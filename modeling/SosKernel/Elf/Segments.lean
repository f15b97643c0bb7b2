import SosKernel.Elf.Image

/-
  The loop of `load_elf_binary`, and the segments of a file
  that is well formed.

  Main declarations:
    * `Loading.sat_loadSegments`: what the loop leaves
    * `GoodElf`: the files whose segments can be loaded
    * `GoodElf.imageOf_eq`: what they have in a segment
    * `sat_loadElfBinary`
-/

------------------------------------------------------------
-- One Pass
------------------------------------------------------------

namespace SosKernel

namespace Elf

open Vmm

variable {m m' : Machine}
variable {d : PageDirectory}
variable {s : Fs.Initrd}
variable {node : Fs.FsNode}
variable {t top n off used start length : Nat}
variable {hdr : List UInt8}
variable {image : Image}

/- The pages that are allocated for a header. -/
def segmentPages (hdr : List UInt8) : Nat :=
  if PF_X = pType hdr then
    rangeEnd (pVaddr hdr + pMemsz hdr) -
      rangeStart (pVaddr hdr)
  else
    0

def pagesOf (hdrs : List (List UInt8)) : Nat :=
  (hdrs.map segmentPages).sum

/-
  The segment of a header is the user's, below the page
  `top`, and what is copied is a part of the file that the
  segment has room for.
-/
structure Fits
    (top length : Nat)
    (hdr : List UInt8) : Prop where
  below : top ≤ userEnd
  user : IsUser top (pVaddr hdr) (pMemsz hdr)
  room : copied length hdr ≤ pMemsz hdr
  file : Inside length (pOffset hdr) (pFilesz hdr)

namespace Fits

theorem userCopied
    (hFits : Fits top length hdr) :
    IsUser top (pVaddr hdr) (copied length hdr) :=
  ⟨hFits.user.1,
    Nat.le_trans (Nat.add_le_add_left hFits.room _)
      hFits.user.2⟩

theorem bounds
    (hFits : Fits top length hdr) :
    4194304 ≤ pVaddr hdr ∧
      pVaddr hdr + pMemsz hdr ≤ top * 4096 ∧
        top ≤ 982015 :=
  ⟨hFits.user.1, hFits.user.2, hFits.below⟩

theorem rangeEnd_eq
    (hFits : Fits top length hdr) :
    rangeEnd (pVaddr hdr + pMemsz hdr) =
      (pVaddr hdr + pMemsz hdr + 4095) / 4096 := by
  have hBounds := hFits.bounds
  apply Vmm.rangeEnd_eq
  unfold KERNEL_ADDRESS_SPACE
  omega

/- Its pages are some of the user's. -/
theorem pages
    (hFits : Fits top length hdr) :
    userStart ≤ rangeStart (pVaddr hdr) ∧
      rangeEnd (pVaddr hdr + pMemsz hdr) ≤ top := by
  have hBounds := hFits.bounds
  rw [userStart_eq, hFits.rangeEnd_eq,
    rangeStart_eq]
  omega

/- The pages of the bytes that are copied. -/
theorem page
    {i : Nat}
    (hFits : Fits top length hdr)
    (hi : i < copied length hdr) :
    rangeStart (pVaddr hdr) ≤ (pVaddr hdr + i) / 4096 ∧
      (pVaddr hdr + i) / 4096 <
        rangeEnd (pVaddr hdr + pMemsz hdr) := by
  have hRoom := hFits.room
  rw [hFits.rangeEnd_eq, rangeStart_eq]
  omega

end Fits

theorem userFlags_lt : PAGE_WRITE ||| PAGE_USER < 4096 := by
  decide

/- What has been allocated can be written. -/
theorem not_faults
    {lo hi flags va len : Nat}
    {e : Stop}
    (hFilling : Filling m d t lo hi flags hi m')
    (hFlags : flags < 4096)
    (hPages : ∀ i, i < len →
      lo ≤ (va + i) / 4096 ∧ (va + i) / 4096 < hi) :
    ¬ Faults m' va len e := by
  rintro ⟨i, hi', hNone, _⟩
  have hPage := hPages i hi'
  rcases hFilling.entered.done _ hPage.1 hPage.2 with
    ⟨f, hf, hHas, _⟩
  rw [translate_page hFilling.self.maps.paging,
    hFilling.root, hHas.pageAt,
    ByteMemory.entryFrame_add hf (presentWith_lt hFlags)
      (presentWith_odd flags)] at hNone
  cases hNone

/- A header of another type is skipped. -/
theorem addSegment_of_ne
    {content : ByteMemory}
    (hType : ¬ PF_X = pType hdr) :
    addSegment content length image hdr = image := by
  funext va
  unfold addSegment
  rw [if_neg fun h => hType h.1]

theorem Loading.sat_loadSegment
    (hLoading :
      Loading m d t top s node start length image used m')
    (hFits : PF_X = pType hdr → Fits top length hdr) :
    ((loadSegment s node hdr).run m').Sat
      (fun _ m'' =>
        Loading m d t top s node start length
          (addSegment (contentAt m start) length image hdr)
          (used + segmentPages hdr) m'')
      (fun e _ =>
        e = noFrames ∧
          m.frames.length <
            2 * (used + segmentPages hdr)) := by
  unfold loadSegment segmentPages
  by_cases hType : PF_X = pType hdr
  · have hFits := hFits hType
    have hPages := hFits.pages
    have hBounds := hFits.bounds
    have hEnd :
        add32 (pVaddr hdr) (pMemsz hdr) =
          pVaddr hdr + pMemsz hdr :=
      add32_of_lt (by omega)
    have hReady :=
      hLoading.space.ready.narrow hPages.1 hPages.2
    have hAllocated :=
      hReady.sat_allocateRange (Nat.le_add_right _ _)
        (by unfold KERNEL_ADDRESS_SPACE; omega)
        userFlags_lt
    rw [if_pos hType, if_pos hType, hEnd]
    have hBefore := hLoading.enough
    refine (hAllocated.imp (fun _ _ h => h) ?_).bind ?_
    · rintro e _ ⟨he, hFew⟩
      exact ⟨he, by omega⟩
    · rintro _ m'' ⟨_, hFilling⟩
      have hFilled :=
        hLoading.filled hPages.1 hPages.2 userFlags_lt hFilling
      have hRead :=
        hFilled.file.sat_read hFilled.space hFits.userCopied
          hFits.file
      refine (hRead.imp (fun _ _ h => h) ?_).bind ?_
      · intro e _ hFaults
        exact absurd hFaults
          (not_faults hFilling userFlags_lt
            fun i hi => hFits.page hi)
      · intro _ m''' hCopied
        exact hFilled.added hType hFits.userCopied hFits.file
          hCopied
  · rw [if_neg hType, if_neg hType, addSegment_of_ne hType]
    exact hLoading

------------------------------------------------------------
-- The Loop
------------------------------------------------------------

/- What is read of the same file is the same. -/
theorem localBytes_congr
    {content content' : ByteMemory}
    {offset size : Nat}
    (hSame : ∀ k, k < length → content k = content' k)
    (hInside : Inside length offset size)
    (old : List UInt8) :
    localBytes content length offset size old =
      localBytes content' length offset size old := by
  unfold localBytes
  congr 1
  apply List.map_congr_left
  intro k hk
  have hk := List.mem_range.mp hk
  apply hSame
  have hLe := hInside.resolve_left (by omega)
  omega

theorem pagesOf_cons
    (hdr : List UInt8)
    (hdrs : List (List UInt8)) :
    pagesOf (hdr :: hdrs) =
      segmentPages hdr + pagesOf hdrs := by
  unfold pagesOf
  rw [List.map_cons, List.sum_cons]

theorem Loading.sat_loadSegments
    (hLoading :
      Loading m d t top s node start length image used m')
    (hFits :
      ∀ h ∈ headers (contentAt m start) length n off hdr,
        PF_X = pType h → Fits top length h) :
    ((loadSegments s node n off hdr).run m').Sat
      (fun _ m'' =>
        Loading m d t top s node start length
          ((headers (contentAt m start) length n off
              hdr).foldl
            (addSegment (contentAt m start) length) image)
          (used +
            pagesOf
              (headers (contentAt m start) length n off hdr))
          m'')
      (fun e _ =>
        e = noFrames ∧
          m.frames.length <
            2 * (used +
              pagesOf
                (headers (contentAt m start) length n off
                  hdr))) := by
  induction n generalizing off hdr image used m' with
  | zero => exact hLoading
  | succ n ih =>
      have hLow := hLoading.file.bytes.low
      unfold LOWMEM_ID_MAP_END at hLow
      have hInside : Inside length off PHDR_SIZE :=
        inside_of_lt (by
          unfold PHDR_SIZE
          omega)
      have hRead :=
        hLoading.file.run_readLocal hLoading.space.paging
          hInside hdr
      rw [localBytes_congr hLoading.content hInside]
        at hRead
      rw [headers] at hFits ⊢
      rw [loadSegments, EStateM.bind_of_ok hRead]
      rw [List.foldl_cons, pagesOf_cons, ← Nat.add_assoc]
      have hPass :=
        hLoading.sat_loadSegment (hFits _ List.mem_cons_self)
      refine (hPass.imp (fun _ _ h => h) ?_).bind ?_
      · rintro e _ ⟨he, hFew⟩
        exact ⟨he, by omega⟩
      · intro _ m'' hNext
        exact ih hNext fun h hh =>
          hFits h (List.mem_cons_of_mem _ hh)

------------------------------------------------------------
-- Good Files
------------------------------------------------------------

variable {content content' : ByteMemory}
variable {offset size va : Nat}
variable {elfHdr pHdr : List UInt8}

def elfHeader (content : ByteMemory) : List UInt8 :=
  (List.range EHDR_SIZE).map content

def programHeader
    (content : ByteMemory)
    (off : Nat) : List UInt8 :=
  (List.range PHDR_SIZE).map fun k => content (off + k)

def programHeaders
    (content : ByteMemory) : List (List UInt8) :=
  (List.range (ePhnum (elfHeader content))).map fun i =>
    programHeader content
      (ePhoff (elfHeader content) + PHDR_SIZE * i)

/- The headers of the type that is loaded. -/
def segments (content : ByteMemory) : List (List UInt8) :=
  (programHeaders content).filter fun hdr =>
    PF_X = pType hdr

def InSegment (hdr : List UInt8) (va : Nat) : Prop :=
  pVaddr hdr ≤ va ∧ va < pVaddr hdr + pMemsz hdr

/-
  A file with its headers in it.  Its segments are the user's,
  and apart; each has room for its part of the file.
-/
structure GoodElf
    (content : ByteMemory)
    (length : Nat) : Prop where
  magic : (elfHeader content).take 4 = ELFMAG
  header : EHDR_SIZE ≤ length
  headers : ∀ i, i < ePhnum (elfHeader content) →
    ePhoff (elfHeader content) + PHDR_SIZE * (i + 1) ≤ length
  user : ∀ hdr ∈ segments content,
    IsUser userEnd (pVaddr hdr) (pMemsz hdr)
  sizes : ∀ hdr ∈ segments content,
    pFilesz hdr ≤ pMemsz hdr
  file : ∀ hdr ∈ segments content,
    pOffset hdr + pFilesz hdr ≤ length
  apart : (segments content).Pairwise fun hdr hdr' =>
    ∀ va, InSegment hdr va → ¬ InSegment hdr' va

/- The segments end below the page `top`. -/
def EndsBelow (top : Nat) (content : ByteMemory) : Prop :=
  ∀ hdr ∈ segments content,
    pVaddr hdr + pMemsz hdr ≤ top * PAGE_SIZE

/- The segments have no bytes behind their part of the file. -/
def NoZeros (content : ByteMemory) : Prop :=
  ∀ hdr ∈ segments content, pFilesz hdr = pMemsz hdr

theorem mem_segments
    (hHdr : hdr ∈ programHeaders content)
    (hType : PF_X = pType hdr) :
    hdr ∈ segments content :=
  List.mem_filter.mpr ⟨hHdr, decide_eq_true hType⟩

theorem clamp_of_le
    (hLength : length < 2 ^ 32)
    (hLe : offset + size ≤ length) :
    clamp length offset size = size := by
  unfold clamp
  rw [if_neg (by omega), add32_of_lt (by omega),
    if_neg (by omega)]

/- A whole read leaves nothing of the variable. -/
theorem localBytes_whole
    {old : List UInt8}
    (hLength : length < 2 ^ 32)
    (hLe : offset + size ≤ length)
    (hOld : old.length = size) :
    localBytes content length offset size old =
      (List.range size).map fun k => content (offset + k) := by
  unfold localBytes
  rw [clamp_of_le hLength hLe,
    List.drop_eq_nil_of_le (Nat.le_of_eq hOld),
    List.append_nil]

theorem programHeader_length (content : ByteMemory) :
    (programHeader content off).length = PHDR_SIZE := by
  unfold programHeader
  rw [List.length_map, List.length_range]

/- The loop meets the headers as they are in the file. -/
theorem headers_eq
    (hLength : length < 2 ^ 32)
    (hInside : ∀ i, i < n →
      off + PHDR_SIZE * (i + 1) ≤ length)
    (hHdr : hdr.length = PHDR_SIZE) :
    headers content length n off hdr =
      (List.range n).map fun i =>
        programHeader content (off + PHDR_SIZE * i) := by
  induction n generalizing off hdr with
  | zero => rfl
  | succ n ih =>
      have hFirst : off + PHDR_SIZE ≤ length := by
        have hZero := hInside 0 (Nat.succ_pos n)
        rw [Nat.zero_add, Nat.mul_one] at hZero
        exact hZero
      have hNext : add32 off PHDR_SIZE = off + PHDR_SIZE :=
        add32_of_lt (by omega)
      have hRead :
          localBytes content length off PHDR_SIZE hdr =
            programHeader content off :=
        localBytes_whole hLength hFirst hHdr
      rw [headers, hRead, hNext, List.range_succ_eq_map,
        List.map_cons, List.map_map,
        ih ?_ (programHeader_length content)]
      · congr 1
        apply List.map_congr_left
        intro i _
        dsimp only [Function.comp]
        congr 1
        rw [Nat.mul_succ]
        omega
      · intro i hi
        have hLater := hInside (i + 1) (by omega)
        rw [Nat.mul_succ] at hLater
        omega

namespace GoodElf

theorem copied_eq
    (hGood : GoodElf content length)
    (hLength : length < 2 ^ 32)
    (hHdr : hdr ∈ segments content) :
    copied length hdr = pFilesz hdr :=
  clamp_of_le hLength (hGood.file hdr hHdr)

theorem fits
    (hGood : GoodElf content length)
    (hEnds : EndsBelow top content)
    (hBelow : top ≤ userEnd)
    (hLength : length < 2 ^ 32)
    (hHdr : hdr ∈ segments content) :
    Fits top length hdr := by
  have hFile := hGood.file hdr hHdr
  refine ⟨hBelow,
    ⟨(hGood.user hdr hHdr).1, hEnds hdr hHdr⟩, ?_, ?_⟩
  · rw [hGood.copied_eq hLength hHdr]
    exact hGood.sizes hdr hHdr
  · unfold Inside
    rw [clamp_of_le hLength hFile]
    exact .inr hFile

theorem headers_eq
    (hGood : GoodElf content length)
    (hLength : length < 2 ^ 32)
    (hHdr : pHdr.length = PHDR_SIZE) :
    Elf.headers content length (ePhnum (elfHeader content))
        (ePhoff (elfHeader content)) pHdr =
      programHeaders content :=
  Elf.headers_eq hLength hGood.headers hHdr

end GoodElf

/- The image of a good file, or too few frames for it. -/
theorem sat_loadElfBinary
    (hSpace : UserSpace m d t top)
    (hFile : FileAt m s node top start length)
    (hGood : GoodElf (contentAt m start) length)
    (hEnds : EndsBelow top (contentAt m start))
    (hElf : elfHdr.length = EHDR_SIZE)
    (hHdr : pHdr.length = PHDR_SIZE) :
    ((loadElfBinary s node elfHdr pHdr).run m).Sat
      (fun r m' =>
        r = eEntry (elfHeader (contentAt m start)) ∧
          Loading m d t top s node start length
            (imageOf (contentAt m start) length
              (programHeaders (contentAt m start)))
            (pagesOf (programHeaders (contentAt m start))) m')
      (fun e _ =>
        e = noFrames ∧
          m.frames.length <
            2 *
              pagesOf
                (programHeaders (contentAt m start))) := by
  have hLow := hFile.bytes.low
  unfold LOWMEM_ID_MAP_END at hLow
  have hLength : length < 2 ^ 32 := by omega
  have hFirst : 0 + EHDR_SIZE ≤ length := by
    rw [Nat.zero_add]
    exact hGood.header
  have hInside : Inside length 0 EHDR_SIZE :=
    inside_of_lt (by
      unfold EHDR_SIZE
      omega)
  have hRead :=
    hFile.run_readLocal hSpace.paging hInside elfHdr
  have hWhole :
      localBytes (contentAt m start) length 0 EHDR_SIZE
          elfHdr =
        elfHeader (contentAt m start) := by
    rw [localBytes_whole hLength hFirst hElf]
    unfold elfHeader
    simp only [Nat.zero_add]
  rw [hWhole] at hRead
  have hHeaders := hGood.headers_eq hLength hHdr
  have hFits :
      ∀ h ∈ headers (contentAt m start) length
          (ePhnum (elfHeader (contentAt m start)))
          (ePhoff (elfHeader (contentAt m start))) pHdr,
        PF_X = pType h → Fits top length h := by
    rw [hHeaders]
    intro h hh hType
    exact hGood.fits hEnds hSpace.below hLength
      (mem_segments hh hType)
  have hLoop :=
    (Loading.refl hSpace hFile).sat_loadSegments hFits
  rw [hHeaders, Nat.zero_add] at hLoop
  unfold loadElfBinary
  rw [EStateM.bind_of_ok hRead]
  dsimp only
  rw [if_neg (fun h => h hGood.magic)]
  exact hLoop.bind fun _ _ hLoading => ⟨rfl, hLoading⟩

------------------------------------------------------------
-- The Image of a Good File
------------------------------------------------------------

/- Headers whose bytes of the file are elsewhere. -/
theorem foldl_addSegment_of_out
    {hdrs : List (List UInt8)}
    (hOut : ∀ h ∈ hdrs, PF_X = pType h →
      ¬ (pVaddr h ≤ va ∧ va < pVaddr h + copied length h)) :
    hdrs.foldl (addSegment content length) image va =
      image va := by
  induction hdrs generalizing image with
  | nil => rfl
  | cons h hdrs ih =>
      rw [List.foldl_cons, ih fun h' hh' =>
        hOut h' (List.mem_cons_of_mem _ hh')]
      unfold addSegment
      rw [if_neg]
      rintro ⟨hType, hIn⟩
      exact hOut h List.mem_cons_self hType hIn

/- In a segment the image has its own part of the file. -/
theorem GoodElf.imageOf_eq
    (hGood : GoodElf content length)
    (hLength : length < 2 ^ 32)
    (hHdr : hdr ∈ segments content)
    (hIn : InSegment hdr va) :
    imageOf content length (programHeaders content) va =
      if va < pVaddr hdr + pFilesz hdr then
        some (content (pOffset hdr + (va - pVaddr hdr)))
      else
        none := by
  have hCopied := hGood.copied_eq hLength hHdr
  rcases List.mem_filter.mp hHdr with ⟨hMem, hDecide⟩
  have hType : PF_X = pType hdr := of_decide_eq_true hDecide
  rcases List.append_of_mem hMem with ⟨before, after, hSplit⟩
  have hSegments :
      segments content =
        before.filter (fun h => PF_X = pType h) ++
          hdr :: after.filter (fun h => PF_X = pType h) := by
    unfold segments
    rw [hSplit, List.filter_append,
      List.filter_cons_of_pos
        (p := fun h => decide (PF_X = pType h)) hDecide]
  have hApart := hGood.apart
  rw [hSegments] at hApart
  rcases List.pairwise_append.mp hApart with
    ⟨_, hTail, hCross⟩
  -- no other segment has the address
  have hOut :
      ∀ h, h ∈ programHeaders content → PF_X = pType h →
        ¬ InSegment h va →
          ¬ (pVaddr h ≤ va ∧
            va < pVaddr h + copied length h) := by
    rintro h hh hTypeH hNot ⟨hLo, hHi⟩
    have hSegment := mem_segments hh hTypeH
    have hRoom := hGood.sizes h hSegment
    rw [hGood.copied_eq hLength hSegment] at hHi
    exact hNot ⟨hLo, by omega⟩
  have hAfter :
      ∀ h ∈ after, PF_X = pType h →
        ¬ (pVaddr h ≤ va ∧
          va < pVaddr h + copied length h) := by
    intro h hh hTypeH
    have hMemH : h ∈ programHeaders content := by
      rw [hSplit]
      exact List.mem_append_right _
        (List.mem_cons_of_mem _ hh)
    apply hOut h hMemH hTypeH
    exact (List.pairwise_cons.mp hTail).1 h
      (List.mem_filter.mpr ⟨hh, decide_eq_true hTypeH⟩) va hIn
  have hBefore :
      ∀ h ∈ before, PF_X = pType h →
        ¬ (pVaddr h ≤ va ∧
          va < pVaddr h + copied length h) := by
    intro h hh hTypeH
    have hMemH : h ∈ programHeaders content := by
      rw [hSplit]
      exact List.mem_append_left _ hh
    apply hOut h hMemH hTypeH
    intro hInH
    exact hCross h
      (List.mem_filter.mpr ⟨hh, decide_eq_true hTypeH⟩) hdr
      List.mem_cons_self va hInH hIn
  unfold imageOf
  rw [hSplit, List.foldl_append, List.foldl_cons,
    foldl_addSegment_of_out hAfter, addSegment,
    foldl_addSegment_of_out hBefore, hCopied]
  by_cases hFile : va < pVaddr hdr + pFilesz hdr
  · rw [if_pos hFile, if_pos ⟨hType, hIn.1, hFile⟩]
  · rw [if_neg hFile, if_neg fun h => hFile h.2.2]

end Elf

end SosKernel
