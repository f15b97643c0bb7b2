import SosKernel.Fs.Strings

/-
  `make_initrd`: the tool that writes the ramdisk.

  Main declarations:
    * `makeInitrd`
    * `HeaderAt`, `ImageAt`: a ramdisk in memory
    * `makeInitrd_image`
-/

------------------------------------------------------------
-- The Tool
------------------------------------------------------------

namespace SosKernel

namespace Fs

def HEADER_MAGIC : UInt8 := 0xBF

/-
  The fields of `initrd_file_header_t`: the magic number is
  at 0, and three bytes before the offset are not used.
-/
def HEADER_SIZE : Nat := 76
def NAME : Nat := 1
def OFFSET : Nat := 68
def LENGTH : Nat := 72

def MAX_HEADERS : Nat := 64

/- Where the contents of the files begin. -/
def DATA_START : Nat := HEADER_SIZE * MAX_HEADERS + 4

/- The assignments to `headers[i]`. -/
def fillHeader
    (headers : ByteMemory)
    (i : Nat)
    (name : List UInt8)
    (offset length : UInt32) : ByteMemory :=
  let a := HEADER_SIZE * i
  let h := headers.putBytes (a + NAME) (cString name)
  let h : ByteMemory :=
    Function.update h (a + NAME + name.length) 0
  let h := h.write32 (a + OFFSET) offset.toNat
  let h := h.write32 (a + LENGTH) length.toNat
  Function.update h a HEADER_MAGIC

/- `fopen` gives the contents of the file with a name. -/
variable (fopen : List UInt8 → Option (List UInt8))

/- The first loop of `main`, from the file `i` on. -/
def fillHeaders :
    List (List UInt8) → Nat → UInt32 → ByteMemory →
      Option ByteMemory
| [], _, _, headers => some headers
| name :: argv, i, offset, headers =>
    match fopen name with
    | none => none
    | some contents =>
        let length := UInt32.ofNat contents.length
        fillHeaders argv (i + 1) (offset + length)
          (fillHeader headers i name offset length)

/- The second loop: the bytes that are written. -/
def fileData
    (headers : ByteMemory) :
    List (List UInt8) → Nat → Option (List UInt8)
| [], _ => some []
| name :: argv, i =>
    match fopen name with
    | none => none
    | some contents =>
        let length :=
          headers.read32 (HEADER_SIZE * i + LENGTH)
        (fileData headers argv (i + 1)).map
          (contents.take length ++ ·)

/-
  The ramdisk that `main` writes, when all files are there
  and their headers fit; `headers` is not cleared.
-/
def makeInitrd
    (headers : ByteMemory)
    (argv : List (List UInt8)) : Option (List UInt8) :=
  if argv.length ≤ MAX_HEADERS then
    match
        fillHeaders fopen argv 0 (UInt32.ofNat DATA_START)
          headers with
    | none => none
    | some headers =>
        (fileData fopen headers argv 0).map fun data =>
          ByteMemory.bytes32 argv.length ++
            (List.range (HEADER_SIZE * MAX_HEADERS)).map
              headers ++
            data
  else
    none

------------------------------------------------------------
-- A Ramdisk in Memory
------------------------------------------------------------

structure File where
  name : List UInt8
  contents : List UInt8
deriving DecidableEq, Repr

/- The header at `a` is that of the file. -/
structure HeaderAt
    (mem : ByteMemory)
    (a : Nat)
    (f : File)
    (offset : Nat) : Prop where
  magic : mem a = HEADER_MAGIC
  name : mem.HoldsAt (a + NAME) (cString f.name)
  offset : mem.read32 (a + OFFSET) = offset
  length : mem.read32 (a + LENGTH) = f.contents.length

/- The bytes of the files before the file `i`. -/
def sizeBefore (files : List File) (i : Nat) : Nat :=
  ((files.take i).map (·.contents.length)).sum

def totalSize (files : List File) : Nat :=
  (files.map (·.contents.length)).sum

/- Where the contents of the file `i` are. -/
def offsetOf (files : List File) (i : Nat) : Nat :=
  DATA_START + sizeBefore files i

/-
  The ramdisk with the files is in memory at `a`; `base` is
  added to the offsets of the files.
-/
structure ImageAt
    (mem : ByteMemory)
    (a base : Nat)
    (files : List File) : Prop where
  nfiles : mem.read32 a = files.length
  headers :
    ∀ i (hi : i < files.length),
      HeaderAt mem (a + 4 + HEADER_SIZE * i) files[i]
        ((offsetOf files i + base) % 2 ^ 32)
  contents :
    ∀ i (hi : i < files.length),
      mem.HoldsAt (a + offsetOf files i) files[i].contents

/- The names that a ramdisk can have. -/
structure GoodName (name : List UInt8) : Prop where
  nonempty : name ≠ []
  unterminated : Unterminated name
  short : name.length ≤ 63

variable {fopen}
variable {headers mem mem' : ByteMemory}
variable {files : List File}
variable {f : File}
variable {a i offset : Nat}

/- A header depends on its own bytes. -/
theorem HeaderAt.congr
    {b : Nat}
    (hHeader : HeaderAt mem a f offset)
    (hShort : f.name.length ≤ 63)
    (hSame :
      ∀ k, k < HEADER_SIZE → mem' (b + k) = mem (a + k)) :
    HeaderAt mem' b f offset where
  magic := (hSame 0 (by decide)).trans hHeader.magic
  name := by
    refine hHeader.name.congr ?_
    intro k hk
    unfold cString at hk
    rw [List.length_append, List.length_singleton] at hk
    rw [Nat.add_assoc, Nat.add_assoc]
    apply hSame
    unfold NAME HEADER_SIZE
    omega
  offset := by
    rw [← hHeader.offset]
    apply ByteMemory.read32_congr
    intro k hk
    rw [Nat.add_assoc, Nat.add_assoc]
    apply hSame
    unfold OFFSET HEADER_SIZE
    omega
  length := by
    rw [← hHeader.length]
    apply ByteMemory.read32_congr
    intro k hk
    rw [Nat.add_assoc, Nat.add_assoc]
    apply hSame
    unfold LENGTH HEADER_SIZE
    omega

------------------------------------------------------------
-- The Headers
------------------------------------------------------------

/- The other headers are left alone. -/
theorem fillHeader_of_apart
    {name : List UInt8}
    {offset length : UInt32}
    {x : Nat}
    (hShort : name.length ≤ 63)
    (hApart :
      x < HEADER_SIZE * i ∨ HEADER_SIZE * i + HEADER_SIZE ≤ x) :
    fillHeader headers i name offset length x = headers x := by
  unfold HEADER_SIZE at hApart
  have hLength : (cString name).length = name.length + 1 := by
    unfold cString
    rw [List.length_append, List.length_singleton]
  unfold fillHeader HEADER_SIZE NAME OFFSET LENGTH
  rw [Function.update_of_ne (by omega),
    ByteMemory.write32, if_neg (by omega),
    ByteMemory.write32, if_neg (by omega),
    Function.update_of_ne (by omega),
    ByteMemory.putBytes_of_apart (by omega)]

/- The header that is filled in holds the file. -/
theorem headerAt_fillHeader
    (headers : ByteMemory)
    (i : Nat)
    (hShort : f.name.length ≤ 63)
    (hLength : f.contents.length < 2 ^ 32)
    (offset : UInt32) :
    HeaderAt
      (fillHeader headers i f.name offset
        (UInt32.ofNat f.contents.length))
      (HEADER_SIZE * i) f offset.toNat where
  magic := Function.update_self _ _ _
  name := by
    have hCString :
        (cString f.name).length = f.name.length + 1 := by
      unfold cString
      rw [List.length_append, List.length_singleton]
    intro k hk
    have hPut :=
      ByteMemory.holdsAt_putBytes headers
        (HEADER_SIZE * i + NAME) (cString f.name) k hk
    unfold fillHeader
    unfold HEADER_SIZE NAME OFFSET LENGTH at *
    rw [Function.update_of_ne (by omega),
      ByteMemory.write32, if_neg (by omega),
      ByteMemory.write32, if_neg (by omega)]
    by_cases hEnd : k = f.name.length
    · subst hEnd
      rw [Function.update_self]
      exact (List.getElem_concat_length rfl hk).symm
    · rw [Function.update_of_ne (by omega)]
      exact hPut
  offset := by
    have hWord :=
      ByteMemory.read32_write32_self
        (Function.update
          (headers.putBytes (HEADER_SIZE * i + NAME)
            (cString f.name))
          (HEADER_SIZE * i + NAME + f.name.length) 0)
        (HEADER_SIZE * i + OFFSET) offset.toNat_lt
    refine Eq.trans ?_ hWord
    apply ByteMemory.read32_congr
    intro k hk
    unfold fillHeader
    unfold HEADER_SIZE NAME OFFSET LENGTH
    rw [Function.update_of_ne (by omega)]
    exact if_neg (by omega)
  length := by
    have hNat :
        (UInt32.ofNat f.contents.length).toNat =
          f.contents.length :=
      UInt32.toNat_ofNat_of_lt' hLength
    have hWord :=
      ByteMemory.read32_write32_self
        (ByteMemory.write32
          (Function.update
            (headers.putBytes (HEADER_SIZE * i + NAME)
              (cString f.name))
            (HEADER_SIZE * i + NAME + f.name.length) 0)
          (HEADER_SIZE * i + OFFSET) offset.toNat)
        (HEADER_SIZE * i + LENGTH) hLength
    refine Eq.trans ?_ hWord
    apply ByteMemory.read32_congr
    intro k hk
    unfold fillHeader
    rw [hNat]
    unfold HEADER_SIZE NAME OFFSET LENGTH
    exact Function.update_of_ne (by omega) _ _

------------------------------------------------------------
-- The Loops
------------------------------------------------------------

/- The names and contents that `fopen` gives. -/
def Opens
    (fopen : List UInt8 → Option (List UInt8))
    (files : List File) : Prop :=
  ∀ f ∈ files, fopen f.name = some f.contents

theorem sizeBefore_zero (files : List File) :
    sizeBefore files 0 = 0 :=
  rfl

theorem sizeBefore_cons
    (f : File)
    (files : List File)
    (i : Nat) :
    sizeBefore (f :: files) (i + 1) =
      f.contents.length + sizeBefore files i := by
  unfold sizeBefore
  rw [List.take_succ_cons, List.map_cons, List.sum_cons]

theorem totalSize_cons (f : File) (files : List File) :
    totalSize (f :: files) =
      f.contents.length + totalSize files := by
  unfold totalSize
  rw [List.map_cons, List.sum_cons]

/- The contents of a file are among the bytes. -/
theorem sizeBefore_add_le
    (hi : i < files.length) :
    sizeBefore files i + files[i].contents.length ≤
      totalSize files := by
  induction files generalizing i with
  | nil => exact absurd hi (Nat.not_lt_zero i)
  | cons f files ih =>
      rw [totalSize_cons]
      cases i with
      | zero =>
          rw [sizeBefore_zero, List.getElem_cons_zero]
          omega
      | succ i =>
          have hRest := ih (Nat.lt_of_succ_lt_succ hi)
          rw [sizeBefore_cons, List.getElem_cons_succ]
          omega

/-
  The first loop fills in the headers from `i` on, and
  leaves those before alone.
-/
theorem fillHeaders_spec
    (headers : ByteMemory)
    (i : Nat)
    (start : UInt32)
    (hOpens : Opens fopen files)
    (hNames : ∀ f ∈ files, GoodName f.name)
    (hSize : totalSize files < 2 ^ 32) :
    ∃ headers',
      fillHeaders fopen (files.map (·.name)) i start headers =
          some headers' ∧
        (∀ x, x < HEADER_SIZE * i → headers' x = headers x) ∧
        ∀ j (hj : j < files.length),
          HeaderAt headers' (HEADER_SIZE * (i + j)) files[j]
            ((start.toNat + sizeBefore files j) % 2 ^ 32) := by
  induction files generalizing i start headers with
  | nil =>
      exact ⟨headers, rfl, fun _ _ => rfl,
        fun j hj => absurd hj (Nat.not_lt_zero j)⟩
  | cons f files ih =>
      have hShort := (hNames f List.mem_cons_self).short
      rw [totalSize_cons] at hSize
      rcases
          ih
            (fillHeader headers i f.name start
              (UInt32.ofNat f.contents.length))
            (i + 1)
            (start + UInt32.ofNat f.contents.length)
            (fun g hg => hOpens g (List.mem_cons_of_mem f hg))
            (fun g hg => hNames g (List.mem_cons_of_mem f hg))
            (by omega)
        with ⟨headers', hRun, hBefore, hHeaders⟩
      have hLength : f.contents.length < 2 ^ 32 := by omega
      have hNat :
          (UInt32.ofNat f.contents.length).toNat =
            f.contents.length :=
        UInt32.toNat_ofNat_of_lt' hLength
      refine ⟨headers', ?_, ?_, ?_⟩
      · unfold fillHeaders
        rw [List.map_cons]
        simp only [hOpens f List.mem_cons_self]
        exact hRun
      · intro x hx
        rw [hBefore x (by unfold HEADER_SIZE at *; omega)]
        exact fillHeader_of_apart hShort (.inl hx)
      · intro j hj
        cases j with
        | zero =>
            rw [sizeBefore_zero, Nat.add_zero, Nat.add_zero,
              Nat.mod_eq_of_lt start.toNat_lt,
              List.getElem_cons_zero]
            refine (headerAt_fillHeader headers i hShort
              hLength start).congr hShort ?_
            intro k hk
            apply hBefore
            unfold HEADER_SIZE at *
            omega
        | succ j =>
            have hNext :=
              hHeaders j (Nat.lt_of_succ_lt_succ hj)
            have hIndex : i + 1 + j = i + (j + 1) := by omega
            rw [UInt32.toNat_add, hNat, hIndex,
              Nat.mod_add_mod, Nat.add_assoc] at hNext
            rw [sizeBefore_cons, List.getElem_cons_succ]
            exact hNext

/- The second loop writes the contents one after the other. -/
theorem fileData_spec
    (hOpens : Opens fopen files)
    (hHeaders :
      ∀ j (hj : j < files.length),
        headers.read32 (HEADER_SIZE * (i + j) + LENGTH) =
          files[j].contents.length) :
    fileData fopen headers (files.map (·.name)) i =
      some (files.map (·.contents)).flatten := by
  induction files generalizing i with
  | nil => rfl
  | cons f files ih =>
      have hFirst := hHeaders 0 (Nat.zero_lt_succ _)
      rw [Nat.add_zero, List.getElem_cons_zero] at hFirst
      have hRest :=
        ih (i := i + 1)
          (fun g hg => hOpens g (List.mem_cons_of_mem f hg))
          (by
            intro j hj
            have hNext := hHeaders (j + 1) (Nat.succ_lt_succ hj)
            have hIndex : i + (j + 1) = i + 1 + j := by omega
            rw [hIndex, List.getElem_cons_succ] at hNext
            exact hNext)
      rw [List.map_cons, List.map_cons, List.flatten_cons]
      unfold fileData
      simp only [hOpens f List.mem_cons_self, hFirst,
        List.take_length, hRest, Option.map_some]

------------------------------------------------------------
-- The Ramdisk
------------------------------------------------------------

/- The contents of a file among all the contents. -/
theorem holdsAt_contents
    (hHolds :
      mem.HoldsAt a (files.map (·.contents)).flatten)
    (hi : i < files.length) :
    mem.HoldsAt (a + sizeBefore files i) files[i].contents := by
  induction files generalizing a i with
  | nil => exact absurd hi (Nat.not_lt_zero i)
  | cons f files ih =>
      rw [List.map_cons, List.flatten_cons] at hHolds
      cases i with
      | zero =>
          rw [sizeBefore_zero, Nat.add_zero,
            List.getElem_cons_zero]
          exact hHolds.left
      | succ i =>
          have hRest :=
            ih hHolds.right (Nat.lt_of_succ_lt_succ hi)
          rw [sizeBefore_cons, List.getElem_cons_succ,
            ← Nat.add_assoc]
          exact hRest

/- The bytes that are written for the headers and files. -/
def imageBytes
    (headers : ByteMemory)
    (files : List File) : List UInt8 :=
  ByteMemory.bytes32 files.length ++
    (List.range (HEADER_SIZE * MAX_HEADERS)).map headers ++
    (files.map (·.contents)).flatten

theorem length_imageBytes
    (headers : ByteMemory)
    (files : List File) :
    (imageBytes headers files).length =
      DATA_START + totalSize files := by
  have hSum :
      (files.map (·.contents)).flatten.length =
        totalSize files := by
    rw [List.length_flatten, List.map_map]
    rfl
  unfold imageBytes DATA_START
  rw [List.length_append, List.length_append, hSum,
    List.length_map, List.length_range,
    ByteMemory.length_bytes32]
  omega

/- Where they are in memory, there is a ramdisk. -/
theorem imageAt_of_holdsAt
    (hNames : ∀ f ∈ files, GoodName f.name)
    (hCount : files.length ≤ MAX_HEADERS)
    (hHeaders :
      ∀ j (hj : j < files.length),
        HeaderAt headers (HEADER_SIZE * j) files[j]
          (offsetOf files j % 2 ^ 32))
    (hHolds : mem.HoldsAt a (imageBytes headers files)) :
    ImageAt mem a 0 files := by
  have hWord := hHolds.left.left
  have hTable := hHolds.left.right
  have hContents := hHolds.right
  rw [List.length_append, List.length_map,
    List.length_range, ByteMemory.length_bytes32,
    Nat.add_comm 4] at hContents
  refine ⟨?_, ?_, ?_⟩
  · unfold MAX_HEADERS at hCount
    exact hWord.read32 (by omega)
  · intro j hj
    have hMember := hNames _ (List.getElem_mem hj)
    refine (hHeaders j hj).congr hMember.short ?_
    intro k hk
    have hIndex :
        HEADER_SIZE * j + k < HEADER_SIZE * MAX_HEADERS := by
      unfold HEADER_SIZE MAX_HEADERS at *
      omega
    have hByte :=
      hTable (HEADER_SIZE * j + k)
        (by rw [List.length_map, List.length_range];
            exact hIndex)
    rw [List.getElem_map, List.getElem_range] at hByte
    rw [← hByte]
    congr 1
    change a + 4 + HEADER_SIZE * j + k = a + 4 + _
    omega
  · intro j hj
    have hFile := holdsAt_contents hContents hj
    unfold offsetOf
    rw [← Nat.add_assoc]
    exact hFile

/-
  The tool writes a ramdisk with the files, whatever was in
  the memory of the headers.
-/
theorem makeInitrd_image
    (headers : ByteMemory)
    (hOpens : Opens fopen files)
    (hNames : ∀ f ∈ files, GoodName f.name)
    (hCount : files.length ≤ MAX_HEADERS)
    (hSize : DATA_START + totalSize files ≤ 2 ^ 32) :
    ∃ image,
      makeInitrd fopen headers (files.map (·.name)) =
          some image ∧
        image.length = DATA_START + totalSize files ∧
        ∀ mem a, ByteMemory.HoldsAt mem a image →
          ImageAt mem a 0 files := by
  have hTotal : totalSize files < 2 ^ 32 := by
    unfold DATA_START HEADER_SIZE MAX_HEADERS at hSize
    omega
  have hStart :
      (UInt32.ofNat DATA_START).toNat = DATA_START := by
    decide
  rcases fillHeaders_spec headers 0
      (UInt32.ofNat DATA_START) hOpens hNames hTotal
    with ⟨headers', hRun, _, hHeaders⟩
  have hData :
      fileData fopen headers' (files.map (·.name)) 0 =
        some (files.map (·.contents)).flatten :=
    fileData_spec hOpens
      (fun j hj => (hHeaders j hj).length)
  refine ⟨imageBytes headers' files, ?_,
    length_imageBytes headers' files, ?_⟩
  · unfold makeInitrd
    rw [List.length_map, if_pos hCount, hRun]
    simp only [hData, Option.map_some]
    rfl
  · intro mem a hHolds
    refine imageAt_of_holdsAt hNames hCount ?_ hHolds
    intro j hj
    have hHeader := hHeaders j hj
    rw [hStart, Nat.zero_add] at hHeader
    exact hHeader

end Fs

end SosKernel
