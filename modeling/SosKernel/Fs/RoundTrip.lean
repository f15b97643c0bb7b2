import SosKernel.Fs.Initrd

/-
  A ramdisk that `make_initrd` has written is mounted by
  `init_initrd` with its files.

  Main declarations:
    * `PartlyAt`: a ramdisk while it is mounted
    * `Mounted`, `initInitrd_mounted`
    * `initrd_round_trip`
-/

------------------------------------------------------------
-- While the Ramdisk Is Mounted
------------------------------------------------------------

namespace SosKernel

namespace Fs

/- The first `m` headers have been relocated. -/
structure PartlyAt
    (mem : ByteMemory)
    (a base m : Nat)
    (files : List File) : Prop where
  headers :
    ∀ j (hj : j < files.length),
      HeaderAt mem (a + 4 + HEADER_SIZE * j) files[j]
        ((offsetOf files j + if j < m then base else 0) %
          2 ^ 32)
  contents :
    ∀ j (hj : j < files.length),
      mem.HoldsAt (a + offsetOf files j) files[j].contents

/- The node of a file. -/
def fileNode (i : Nat) (f : File) : FsNode :=
  { zeroNode with
    name :=
      f.name ++
        0 :: List.replicate (NODE_NAME - f.name.length - 1) 0
    length := UInt32.ofNat f.contents.length
    inode := UInt32.ofNat i
    flags := FS_FILE
    read := some .initrdRead }

/- The nodes of the files, from the number `i` on. -/
def fileNodes : Nat → List File → List FsNode
| _, [] => []
| i, f :: files => fileNode i f :: fileNodes (i + 1) files

variable {mem mem' : ByteMemory}
variable {location : UInt32}
variable {files : List File}
variable {a m n i : Nat}

theorem DATA_START_le_offsetOf
    (files : List File)
    (i : Nat) :
    DATA_START ≤ offsetOf files i :=
  Nat.le_add_right _ _

/- A relocation changes one offset only. -/
theorem relocate_of_apart
    {x : Nat}
    (hApart : x < a + OFFSET ∨ a + OFFSET + 4 ≤ x) :
    relocate location mem a x = mem x := by
  unfold relocate ByteMemory.write32
  rw [if_neg (by omega)]

/- The header is the same, but for the offset. -/
theorem HeaderAt.relocate
    {f : File}
    {offset : Nat}
    (hHeader : HeaderAt mem a f (offset % 2 ^ 32))
    (hShort : f.name.length ≤ 63) :
    HeaderAt (relocate location mem a) a f
      ((offset + location.toNat) % 2 ^ 32) where
  magic := by
    rw [relocate_of_apart (by unfold OFFSET; omega)]
    exact hHeader.magic
  name := by
    refine hHeader.name.congr ?_
    intro k hk
    unfold cString at hk
    rw [List.length_append, List.length_singleton] at hk
    apply relocate_of_apart
    unfold NAME OFFSET
    omega
  offset := by
    have hWord :=
      ByteMemory.read32_write32_self mem (a + OFFSET)
        (UInt32.toNat_lt
          (UInt32.ofNat (mem.read32 (a + OFFSET)) + location))
    refine Eq.trans hWord ?_
    rw [hHeader.offset, UInt32.toNat_add,
      UInt32.toNat_ofNat', Nat.mod_mod, Nat.mod_add_mod]
  length := by
    rw [← hHeader.length]
    apply ByteMemory.read32_congr
    intro k hk
    apply relocate_of_apart
    unfold LENGTH OFFSET
    omega

/- One turn of the loop relocates one header. -/
theorem PartlyAt.relocate
    (hPartly : PartlyAt mem a location.toNat m files)
    (hNames : ∀ f ∈ files, GoodName f.name)
    (hCount : files.length ≤ MAX_HEADERS)
    (hm : m < files.length) :
    PartlyAt
      (relocate location mem (a + 4 + HEADER_SIZE * m)) a
      location.toNat (m + 1) files := by
  refine ⟨?_, ?_⟩
  · intro j hj
    have hHeader := hPartly.headers j hj
    have hShort := (hNames _ (List.getElem_mem hj)).short
    by_cases hSame : j = m
    · subst hSame
      rw [if_neg (Nat.lt_irrefl j), Nat.add_zero] at hHeader
      rw [if_pos (Nat.lt_succ_self j)]
      exact hHeader.relocate hShort
    · have hIff : j < m + 1 ↔ j < m := by omega
      simp only [hIff]
      refine hHeader.congr hShort ?_
      intro k hk
      apply relocate_of_apart
      unfold HEADER_SIZE OFFSET at *
      omega
  · intro j hj
    refine (hPartly.contents j hj).congr ?_
    intro k hk
    have hStart := DATA_START_le_offsetOf files j
    apply relocate_of_apart
    unfold DATA_START HEADER_SIZE MAX_HEADERS OFFSET at *
    omega

/- The node that one turn of the loop makes. -/
theorem mountFile_spec
    (hPartly : PartlyAt mem a location.toNat m files)
    (hNames : ∀ f ∈ files, GoodName f.name)
    (hCount : files.length ≤ MAX_HEADERS)
    (hm : m < files.length) :
    mountFile (a + 4) location m mem =
      some
        (relocate location mem (a + 4 + HEADER_SIZE * m),
          fileNode m files[m]) := by
  have hName := hNames _ (List.getElem_mem hm)
  have hMagic := (hPartly.headers m hm).magic
  have hHeader :=
    (hPartly.relocate hNames hCount hm).headers m hm
  have hRoom : files[m].name.length < NODE_NAME := by
    have hShort := hName.short
    unfold NODE_NAME
    omega
  have hCopy :=
    strcpy_terminated hName.nonempty hName.unterminated
      hHeader.name hRoom
  unfold mountFile
  dsimp only
  rw [if_neg (not_not.mpr hMagic.symm)]
  unfold zeroNode
  rw [hCopy, Option.map_some, hHeader.length]
  rfl

/- The loop relocates the headers and makes all nodes. -/
theorem mountFiles_spec
    (hPartly : PartlyAt mem a location.toNat m files)
    (hNames : ∀ f ∈ files, GoodName f.name)
    (hCount : files.length ≤ MAX_HEADERS)
    (hn : m + n = files.length) :
    ∃ mem',
      mountFiles (a + 4) location n m mem =
          some (mem', fileNodes m (files.drop m)) ∧
        PartlyAt mem' a location.toNat files.length files := by
  induction n generalizing m mem with
  | zero =>
      rw [Nat.add_zero] at hn
      subst hn
      refine ⟨mem, ?_, hPartly⟩
      rw [List.drop_length]
      rfl
  | succ n ih =>
      have hm : m < files.length := by omega
      rcases ih (hPartly.relocate hNames hCount hm) (by omega)
        with ⟨mem', hRun, hEnd⟩
      refine ⟨mem', ?_, hEnd⟩
      unfold mountFiles
      rw [mountFile_spec hPartly hNames hCount hm,
        List.drop_eq_getElem_cons hm]
      simp only [hRun, Option.map_some]
      rfl

------------------------------------------------------------
-- The Mounted Ramdisk
------------------------------------------------------------

/-
  The file system has the files, and their headers and
  contents are in memory at `a`.
-/
structure Mounted
    (mem : ByteMemory)
    (a : Nat)
    (files : List File)
    (s : Initrd) : Prop where
  image : PartlyAt mem a a files.length files
  fileHeaders : s.fileHeaders = a + 4
  root :
    s.root.flags = FS_DIRECTORY ∧
      s.root.finddir = some .initrdFinddir
  rootNodes : s.rootNodes = fileNodes 0 files

/- A ramdisk in memory is mounted. -/
theorem initInitrd_mounted
    (hImage : ImageAt mem location.toNat 0 files)
    (hNames : ∀ f ∈ files, GoodName f.name)
    (hCount : files.length ≤ MAX_HEADERS) :
    ∃ mem' s,
      initInitrd location mem = some (mem', s) ∧
        Mounted mem' location.toNat files s := by
  have hStart :
      PartlyAt mem location.toNat location.toNat 0 files := by
    refine ⟨?_, hImage.contents⟩
    intro j hj
    rw [if_neg (Nat.not_lt_zero j)]
    exact hImage.headers j hj
  rcases mountFiles_spec hStart hNames hCount
      (Nat.zero_add _)
    with ⟨mem', hRun, hEnd⟩
  rw [List.drop_zero] at hRun
  unfold initInitrd
  simp only [hImage.nfiles, hRun, Option.map_some]
  exact ⟨mem', _, rfl,
    { image := hEnd
      fileHeaders := rfl
      root := ⟨rfl, rfl⟩
      rootNodes := rfl }⟩

theorem getElem?_fileNodes
    (files : List File)
    (i k : Nat) :
    (fileNodes i files)[k]? =
      files[k]?.map (fileNode (i + k)) := by
  induction files generalizing i k with
  | nil => rfl
  | cons f files ih =>
      cases k with
      | zero => rfl
      | succ k =>
          have hIndex : i + (k + 1) = i + 1 + k := by omega
          rw [hIndex]
          exact ih (i + 1) k

/- The node of the file number `i`. -/
theorem Mounted.node
    {s : Initrd}
    (hMounted : Mounted mem a files s)
    (hi : i < files.length) :
    s.node (.file i) = some (fileNode i files[i]) := by
  change s.rootNodes[i]? = _
  rw [hMounted.rootNodes, getElem?_fileNodes, Nat.zero_add,
    List.getElem?_eq_getElem hi]
  rfl

/- The mounted ramdisk depends on its own memory only. -/
theorem Mounted.congr
    {s : Initrd}
    (hMounted : Mounted mem a files s)
    (hNames : ∀ f ∈ files, GoodName f.name)
    (hCount : files.length ≤ MAX_HEADERS)
    (hSame :
      ByteMemory.SameOn a (a + DATA_START + totalSize files)
        mem mem') :
    Mounted mem' a files s where
  image := by
    refine ⟨?_, ?_⟩
    · intro j hj
      refine (hMounted.image.headers j hj).congr
        (hNames _ (List.getElem_mem hj)).short ?_
      intro k hk
      apply hSame
      · omega
      · unfold DATA_START HEADER_SIZE MAX_HEADERS at *
        omega
    · intro j hj
      refine (hMounted.image.contents j hj).congr ?_
      intro k hk
      have hEnd := sizeBefore_add_le hj
      apply hSame
      · omega
      · unfold offsetOf
        omega
  fileHeaders := hMounted.fileHeaders
  root := hMounted.root
  rootNodes := hMounted.rootNodes

------------------------------------------------------------
-- Finding Files
------------------------------------------------------------

/- The first file with the name is found. -/
theorem findNode_fileNodes
    {k : Nat}
    (hNames : ∀ f ∈ files, GoodName f.name)
    (hDistinct : (files.map (·.name)).Nodup)
    (hk : k < files.length) :
    findNode files[k].name (fileNodes i files) i =
      some (some (.file (i + k))) := by
  induction files generalizing i k with
  | nil => exact absurd hk (Nat.not_lt_zero k)
  | cons f files ih =>
      have hRest : ∀ g ∈ files, GoodName g.name :=
        fun g hg => hNames g (List.mem_cons_of_mem f hg)
      rw [List.map_cons, List.nodup_cons] at hDistinct
      have hFirst := hNames f List.mem_cons_self
      unfold fileNodes findNode fileNode
      cases k with
      | zero =>
          rw [List.getElem_cons_zero,
            strcmp_self hFirst.unterminated]
          rfl
      | succ k =>
          have hk' : k < files.length :=
            Nat.lt_of_succ_lt_succ hk
          have hMem := List.getElem_mem hk'
          have hNe : files[k].name ≠ f.name := by
            intro hSame
            apply hDistinct.1
            rw [← hSame]
            exact List.mem_map.mpr ⟨_, hMem, rfl⟩
          rcases strcmp_of_ne
              (List.replicate
                (NODE_NAME - f.name.length - 1) 0)
              (hRest _ hMem).unterminated hFirst.unterminated
              hNe
            with ⟨d, hd, hZero⟩
          have hIndex : i + (k + 1) = i + 1 + k := by omega
          rw [List.getElem_cons_succ, hd, hIndex]
          exact (if_neg hZero).trans
            (ih hRest hDistinct.2 hk')

/- A name that no file has is not found. -/
theorem findNode_of_not_mem
    {name : List UInt8}
    (hNames : ∀ f ∈ files, GoodName f.name)
    (hName : Unterminated name)
    (hOther : ∀ f ∈ files, f.name ≠ name) :
    findNode name (fileNodes i files) i = some none := by
  induction files generalizing i with
  | nil => rfl
  | cons f files ih =>
      have hFirst := hNames f List.mem_cons_self
      have hNe := hOther f List.mem_cons_self
      rcases strcmp_of_ne
          (List.replicate (NODE_NAME - f.name.length - 1) 0)
          hName hFirst.unterminated hNe.symm
        with ⟨d, hd, hZero⟩
      unfold fileNodes findNode fileNode
      rw [hd]
      exact (if_neg hZero).trans
        (ih (fun g hg => hNames g (List.mem_cons_of_mem f hg))
          (fun g hg => hOther g (List.mem_cons_of_mem f hg)))

theorem unterminated_DEV : Unterminated DEV :=
  unterminated_cons (by decide)
    (unterminated_cons (by decide)
      (unterminated_cons (by decide) unterminated_nil))

/- In the root, "dev" is the only other name. -/
theorem Mounted.finddir_root
    {s : Initrd}
    {name : List UInt8}
    (hMounted : Mounted mem a files s)
    (hName : Unterminated name)
    (hDev : name ≠ DEV) :
    finddir s .root name =
      findNode name (fileNodes 0 files) 0 := by
  rcases strcmp_of_ne [] hName unterminated_DEV hDev with
    ⟨d, hd, hZero⟩
  change strcmp (cString name) (cString DEV) = some d at hd
  have hFlags : (s.root.flags &&& 7) = FS_DIRECTORY := by
    rw [hMounted.root.1]
    decide
  simp only [finddir, Initrd.node, hFlags, if_true,
    hMounted.root.2]
  unfold initrdFinddir
  rw [hd, hMounted.rootNodes]
  exact if_neg (fun hBoth => hZero hBoth.2)

------------------------------------------------------------
-- Reading Files
------------------------------------------------------------

/- The bytes of a file from `offset` on, at most `size`. -/
def slice
    (contents : List UInt8)
    (offset size : Nat) : List UInt8 :=
  (contents.drop offset).take size

theorem length_slice
    (contents : List UInt8)
    (offset size : Nat) :
    (slice contents offset size).length =
      min (offset + size) contents.length - offset := by
  unfold slice
  rw [List.length_take, List.length_drop]
  omega

/- The number of bytes that `initrd_read` copies. -/
theorem read_size
    {offset size length : UInt32}
    (hSum : offset.toNat + size.toNat < 2 ^ 32)
    (hLe : ¬ offset > length) :
    (if offset + size > length then
        length - offset
      else
        size).toNat =
      min (offset.toNat + size.toNat) length.toNat -
        offset.toNat := by
  have hLe' : offset.toNat ≤ length.toNat := by
    rw [gt_iff_lt, UInt32.lt_iff_toNat_lt] at hLe
    omega
  have hAdd :
      (offset + size).toNat = offset.toNat + size.toNat := by
    rw [UInt32.toNat_add]
    exact Nat.mod_eq_of_lt hSum
  by_cases hPast : offset + size > length
  · have hPast' := UInt32.lt_iff_toNat_lt.mp hPast
    rw [if_pos hPast,
      UInt32.toNat_sub_of_le _ _
        (UInt32.le_iff_toNat_le.mpr hLe')]
    omega
  · have hPast' := mt UInt32.lt_iff_toNat_lt.mpr hPast
    rw [if_neg hPast]
    omega

/- A read within the limits yields a slice of the file. -/
theorem Mounted.read
    {s : Initrd}
    {offset size : UInt32}
    {buffer : Nat}
    (hMounted : Mounted mem a files s)
    (hi : i < files.length)
    (hEnd : a + DATA_START + totalSize files ≤ 2 ^ 32)
    (hSum : offset.toNat + size.toNat < 2 ^ 32)
    (hBuffer :
      buffer + size.toNat ≤ a + offsetOf files i ∨
        a + offsetOf files i + files[i].contents.length ≤
          buffer)
    (hCount : files.length ≤ MAX_HEADERS) :
    ∃ n mem',
      read s (.file i) offset size buffer mem =
          some (n, mem') ∧
        n.toNat =
          (slice files[i].contents offset.toNat
            size.toNat).length ∧
        mem'.HoldsAt buffer
          (slice files[i].contents offset.toNat
            size.toNat) ∧
        ∀ x, x < buffer ∨ buffer + n.toNat ≤ x →
          mem' x = mem x := by
  have hHeader := hMounted.image.headers i hi
  rw [if_pos hi] at hHeader
  have hBefore := sizeBefore_add_le hi
  have hLength :
      (UInt32.ofNat files[i].contents.length).toNat =
        files[i].contents.length := by
    apply UInt32.toNat_ofNat_of_lt'
    change files[i].contents.length < 2 ^ 32
    unfold DATA_START HEADER_SIZE MAX_HEADERS at hEnd
    omega
  have hInode :
      (fileNode i files[i]).inode.toNat = i := by
    apply UInt32.toNat_ofNat_of_lt'
    change i < 2 ^ 32
    unfold MAX_HEADERS at hCount
    omega
  have hRead :
      Fs.read s (.file i) offset size buffer mem =
        some
          (initrdRead s (fileNode i files[i]) offset size
            buffer mem) := by
    unfold Fs.read
    rw [hMounted.node hi]
    rfl
  rw [hRead]
  unfold initrdRead
  dsimp only
  rw [hInode, hMounted.fileHeaders, hHeader.offset,
    hHeader.length]
  by_cases hPast :
      offset > UInt32.ofNat files[i].contents.length
  · rw [if_pos hPast]
    have hPast' := UInt32.lt_iff_toNat_lt.mp hPast
    have hEmpty :
        (slice files[i].contents offset.toNat
          size.toNat).length = 0 := by
      rw [length_slice]
      omega
    refine ⟨0, mem, rfl, hEmpty.symm, ?_, fun _ _ => rfl⟩
    intro k hk
    omega
  · rw [if_neg hPast]
    have hSize := read_size hSum hPast
    rw [hLength, ← length_slice] at hSize
    refine ⟨_, _, rfl, hSize, ?_, ?_⟩
    · have hSlice :
          mem.HoldsAt (a + offsetOf files i + offset.toNat)
            (slice files[i].contents offset.toNat
              size.toNat) :=
        ((hMounted.image.contents i hi).drop
          offset.toNat).take size.toNat
      refine hSlice.congr ?_
      intro k hk
      rw [hSize]
      have hLe :=
        length_slice files[i].contents offset.toNat size.toNat
      -- A byte is copied, so that no address wraps.
      have hAddr :
          (UInt32.ofNat
              ((offsetOf files i + a) % 2 ^ 32) +
            offset).toNat =
            a + offsetOf files i + offset.toNat := by
        rw [UInt32.toNat_add, UInt32.toNat_ofNat',
          Nat.mod_mod, Nat.mod_add_mod]
        unfold offsetOf
        rw [Nat.mod_eq_of_lt (by omega)]
        omega
      rw [hAddr]
      exact memcpy_apply_add (by omega) hk
    · intro x hx
      exact memcpy_of_apart hx

------------------------------------------------------------
-- The Round Trip
------------------------------------------------------------

/-
  What a mounted ramdisk does with its root: every file is
  found under its name and no other name is found, and the
  slices of the files can be read.
-/
structure ServesFiles
    (mem : ByteMemory)
    (location : UInt32)
    (files : List File)
    (s : Initrd) : Prop where
  found :
    ∀ i (hi : i < files.length),
      finddir s .root files[i].name =
        some (some (.file i))
  isFile :
    ∀ i (hi : i < files.length),
      ∃ node,
        s.node (.file i) = some node ∧
          node.flags = FS_FILE ∧
          node.length.toNat = files[i].contents.length
  notFound :
    ∀ name, Unterminated name → name ≠ DEV →
      (∀ f ∈ files, f.name ≠ name) →
        finddir s .root name = some none
  reads :
    ∀ i (hi : i < files.length) (offset size : UInt32)
      (buffer : Nat),
      offset.toNat + size.toNat < 2 ^ 32 →
      (buffer + size.toNat ≤
            location.toNat + offsetOf files i ∨
          location.toNat + offsetOf files i +
            files[i].contents.length ≤ buffer) →
      ∃ n mem',
        read s (.file i) offset size buffer mem =
            some (n, mem') ∧
          n.toNat =
            (slice files[i].contents offset.toNat
              size.toNat).length ∧
          mem'.HoldsAt buffer
            (slice files[i].contents offset.toNat
              size.toNat) ∧
          ∀ x, x < buffer ∨ buffer + n.toNat ≤ x →
            mem' x = mem x

variable {fopen : List UInt8 → Option (List UInt8)}
variable {headers : ByteMemory}

/-
  A ramdisk that `make_initrd` has written serves its files
  once `init_initrd` has mounted it, and as long as nothing
  is stored over it.
-/
theorem initrd_round_trip
    (hOpens : Opens fopen files)
    (hNames : ∀ f ∈ files, GoodName f.name)
    (hNotDev : ∀ f ∈ files, f.name ≠ DEV)
    (hDistinct : (files.map (·.name)).Nodup)
    (hCount : files.length ≤ MAX_HEADERS)
    (hEnd :
      location.toNat + DATA_START + totalSize files ≤
        2 ^ 32) :
    ∃ image,
      makeInitrd fopen headers (files.map (·.name)) =
          some image ∧
        ∀ mem, ByteMemory.HoldsAt mem location.toNat image →
          ∃ mem' s,
            initInitrd location mem = some (mem', s) ∧
              ∀ mem'',
                ByteMemory.SameOn location.toNat
                    (location.toNat + image.length) mem'
                    mem'' →
                  ServesFiles mem'' location files s := by
  rcases makeInitrd_image headers hOpens hNames hCount
      (by omega)
    with ⟨image, hMake, hLength, hImage⟩
  refine ⟨image, hMake, ?_⟩
  intro mem hHolds
  rcases initInitrd_mounted (hImage mem _ hHolds) hNames
      hCount
    with ⟨mem', s, hInit, hMounted⟩
  refine ⟨mem', s, hInit, ?_⟩
  intro mem'' hSame
  rw [hLength, ← Nat.add_assoc] at hSame
  have hLater := hMounted.congr hNames hCount hSame
  refine ⟨?_, ?_, ?_, ?_⟩
  · intro i hi
    have hMem := List.getElem_mem hi
    rw [hLater.finddir_root (hNames _ hMem).unterminated
      (hNotDev _ hMem),
      findNode_fileNodes hNames hDistinct hi, Nat.zero_add]
  · intro i hi
    have hBefore := sizeBefore_add_le hi
    refine ⟨_, hLater.node hi, rfl, ?_⟩
    apply UInt32.toNat_ofNat_of_lt'
    change files[i].contents.length < 2 ^ 32
    unfold DATA_START HEADER_SIZE MAX_HEADERS at hEnd
    omega
  · intro name hName hDev hOther
    rw [hLater.finddir_root hName hDev]
    exact findNode_of_not_mem hNames hName hOther
  · intro i hi offset size buffer hSum hBuffer
    exact hLater.read hi hEnd hSum hBuffer hCount

/- Two files, of which the second is empty. -/
def twoFiles : List File :=
  [⟨[97], [1, 2, 3]⟩, ⟨[98, 99], []⟩]

def openTwo (name : List UInt8) : Option (List UInt8) :=
  (twoFiles.find? (·.name = name)).map (·.contents)

theorem twoFiles_round_trip :
    ∃ image,
      makeInitrd openTwo (fun _ => 0xAA)
          (twoFiles.map (·.name)) = some image ∧
        ∀ mem,
          ByteMemory.HoldsAt mem (0x200000 : UInt32).toNat
              image →
            ∃ mem' s,
              initInitrd 0x200000 mem = some (mem', s) ∧
                ∀ mem'',
                  ByteMemory.SameOn
                      (0x200000 : UInt32).toNat
                      ((0x200000 : UInt32).toNat +
                        image.length) mem' mem'' →
                    ServesFiles mem'' 0x200000 twoFiles s :=
  initrd_round_trip
    (by unfold Opens; decide)
    (by
      intro f hf
      simp only [twoFiles, List.mem_cons, List.not_mem_nil,
        or_false] at hf
      rcases hf with rfl | rfl
      · exact ⟨by decide, unterminated_cons (by decide) unterminated_nil,
          by decide⟩
      · exact ⟨by decide, unterminated_cons (by decide)
          (unterminated_cons (by decide) unterminated_nil),
          by decide⟩)
    (by decide) (by decide) (by decide) (by decide)

end Fs

end SosKernel
