import SosKernel.Fs.RoundTrip

/-
  Which part of a file `read` copies, for all offsets and
  sizes.

  Main declarations:
    * `initInitrd_nodes`: the nodes of any mounted ramdisk
    * `ReadsRange`: what `read` should do
    * `Escapes`: the sum of offset and size wraps into the
      file
    * `read_range_iff`
-/

------------------------------------------------------------
-- The Nodes of a Mounted Ramdisk
------------------------------------------------------------

namespace SosKernel

namespace Fs

variable {mem mem' mem₀ mem₁ : ByteMemory}
variable {location offset size : UInt32}
variable {nodes : List FsNode}
variable {node : FsNode}
variable {s : Initrd}
variable {a n i k buffer : Nat}

/- What the loop has stored in the node of number `i`. -/
structure IsFileNode (i : Nat) (node : FsNode) : Prop where
  flags : node.flags = FS_FILE
  inode : node.inode = UInt32.ofNat i
  read : node.read = some .initrdRead
  name : node.name.length = NODE_NAME

/- A copy keeps the length of the array. -/
theorem length_strcpy
    {dest bs : List UInt8}
    {src : Nat}
    (hCopy : strcpy mem dest src = some bs) :
    bs.length = dest.length := by
  unfold strcpy at hCopy
  rcases Option.map_eq_some_iff.mp hCopy with
    ⟨cs, hBytes, rfl⟩
  have hLe := length_strcpyBytes hBytes
  rw [List.length_append, List.length_drop]
  omega

theorem mountFile_node
    (hRun :
      mountFile a location i mem = some (mem', node)) :
    IsFileNode i node := by
  unfold mountFile at hRun
  dsimp only at hRun
  split at hRun
  · cases hRun
  · rcases Option.map_eq_some_iff.mp hRun with
      ⟨name, hCopy, hPair⟩
    cases hPair
    refine ⟨rfl, rfl, rfl, ?_⟩
    rw [length_strcpy hCopy]
    rfl

/- The loop makes one node for each number. -/
theorem mountFiles_nodes
    (hRun :
      mountFiles a location n i mem = some (mem', nodes)) :
    nodes.length = n ∧
      ∀ k (hk : k < nodes.length),
        IsFileNode (i + k) nodes[k] := by
  induction n generalizing i mem nodes with
  | zero =>
      cases hRun
      exact ⟨rfl, fun k hk => absurd hk (Nat.not_lt_zero k)⟩
  | succ n ih =>
      unfold mountFiles at hRun
      split at hRun
      · cases hRun
      · rename_i mem₁ first hFirst
        rcases Option.map_eq_some_iff.mp hRun with
          ⟨⟨mem₂, others⟩, hRest, hPair⟩
        cases hPair
        rcases ih hRest with ⟨hLength, hNodes⟩
        refine ⟨by rw [List.length_cons, hLength], ?_⟩
        intro k hk
        cases k with
        | zero => exact mountFile_node hFirst
        | succ k =>
            have hIndex : i + (k + 1) = i + 1 + k := by omega
            rw [hIndex]
            exact hNodes k (Nat.lt_of_succ_lt_succ hk)

/- Every node of a mounted ramdisk is that of a file. -/
theorem initInitrd_nodes
    (hMount : initInitrd location mem = some (mem', s)) :
    s.rootNodes.length < 2 ^ 32 ∧
      ∀ i (hi : i < s.rootNodes.length),
        IsFileNode i s.rootNodes[i] := by
  unfold initInitrd at hMount
  rcases Option.map_eq_some_iff.mp hMount with
    ⟨⟨mem₁, nodes⟩, hRun, hPair⟩
  cases hPair
  rcases mountFiles_nodes hRun with ⟨hLength, hNodes⟩
  refine ⟨?_, ?_⟩
  · dsimp only
    rw [hLength]
    exact ByteMemory.read32_lt mem _
  · intro i hi
    have hNode := hNodes i hi
    rw [Nat.zero_add] at hNode
    exact hNode

------------------------------------------------------------
-- Reading
------------------------------------------------------------

/- Where the header of a file places it, and its length. -/
def Initrd.fileOffset
    (s : Initrd)
    (mem : ByteMemory)
    (i : Nat) : UInt32 :=
  UInt32.ofNat
    (mem.read32 (s.fileHeaders + HEADER_SIZE * i + OFFSET))

def Initrd.fileLength
    (s : Initrd)
    (mem : ByteMemory)
    (i : Nat) : UInt32 :=
  UInt32.ofNat
    (mem.read32 (s.fileHeaders + HEADER_SIZE * i + LENGTH))

/- The number of bytes of a file between the two bounds. -/
def rangeSize (length offset size : UInt32) : Nat :=
  if offset > length then
    0
  else
    min size.toNat (length.toNat - offset.toNat)

/-
  `read` returns the number of bytes that the file has from
  `offset` on, at most `size`, and copies these bytes.
-/
def ReadsRange
    (s : Initrd)
    (mem : ByteMemory)
    (i : Nat)
    (offset size : UInt32)
    (buffer : Nat) : Prop :=
  ∃ n mem',
    read s (.file i) offset size buffer mem = some (n, mem') ∧
      n.toNat = rangeSize (s.fileLength mem i) offset size ∧
      (∀ k, k < n.toNat →
        mem' (buffer + k) =
          mem ((s.fileOffset mem i).toNat + offset.toNat + k)) ∧
      ∀ x, x < buffer ∨ buffer + n.toNat ≤ x →
        mem' x = mem x

/-
  The sum of offset and size is past 2^32 by no more than
  the length of the file.
-/
def Escapes (length offset size : UInt32) : Prop :=
  offset ≤ length ∧
    2 ^ 32 ≤ offset.toNat + size.toNat ∧
    offset.toNat + size.toNat ≤ 2 ^ 32 + length.toNat

instance (length offset size : UInt32) :
    Decidable (Escapes length offset size) := by
  unfold Escapes
  infer_instance

/- The size that `initrd_read` computes. -/
def clampedSize (length offset size : UInt32) : UInt32 :=
  if offset + size > length then length - offset else size

/- The computed size is right unless the sum escapes. -/
theorem clampedSize_eq_iff
    {length : UInt32}
    (hLe : ¬ offset > length) :
    (clampedSize length offset size).toNat =
        rangeSize length offset size ↔
      ¬ Escapes length offset size := by
  have hOffset : offset.toNat ≤ length.toNat := by
    rw [gt_iff_lt, UInt32.lt_iff_toNat_lt] at hLe
    omega
  have hLength := length.toNat_lt
  have hSize := size.toNat_lt
  have hAdd := UInt32.toNat_add offset size
  have hPast :
      offset + size > length ↔
        length.toNat < (offset + size).toNat := by
    rw [gt_iff_lt, UInt32.lt_iff_toNat_lt]
  have hSub :
      (length - offset).toNat =
        length.toNat - offset.toNat :=
    UInt32.toNat_sub_of_le _ _
      (UInt32.le_iff_toNat_le.mpr hOffset)
  unfold clampedSize rangeSize Escapes
  rw [if_neg hLe, UInt32.le_iff_toNat_le]
  by_cases hOver : offset + size > length
  · rw [if_pos hOver, hSub]
    rw [hPast, hAdd] at hOver
    omega
  · rw [if_neg hOver]
    rw [hPast, hAdd] at hOver
    omega

/- `read` of a file of a mounted ramdisk. -/
theorem read_file
    (hMount : initInitrd location mem₀ = some (mem₁, s))
    (hi : i < s.rootNodes.length) :
    read s (.file i) offset size buffer mem =
      some
        (if offset > s.fileLength mem i then
          (0, mem)
        else
          (clampedSize (s.fileLength mem i) offset size,
            memcpy buffer (s.fileOffset mem i + offset).toNat
              (clampedSize (s.fileLength mem i) offset
                size).toNat mem)) := by
  rcases initInitrd_nodes hMount with ⟨hCount, hNodes⟩
  have hNode := hNodes i hi
  have hInode : s.rootNodes[i].inode.toNat = i := by
    rw [hNode.inode]
    exact UInt32.toNat_ofNat_of_lt' (Nat.lt_trans hi hCount)
  have hAt : s.node (.file i) = some s.rootNodes[i] :=
    List.getElem?_eq_getElem hi
  unfold read
  rw [hAt, Option.map_some, hNode.read]
  unfold initrdRead
  dsimp only
  rw [hInode]
  rfl

/- A sum that escapes makes the count too large. -/
theorem ReadsRange.not_escapes
    (hReads : ReadsRange s mem i offset size buffer)
    (hMount : initInitrd location mem₀ = some (mem₁, s))
    (hi : i < s.rootNodes.length) :
    ¬ Escapes (s.fileLength mem i) offset size := by
  rcases hReads with ⟨n, mem', hSome, hCount, _⟩
  rw [read_file hMount hi] at hSome
  by_cases hPast : offset > s.fileLength mem i
  · rintro ⟨hLe, _⟩
    exact absurd hLe (UInt32.not_le.mpr hPast)
  · rw [if_neg hPast] at hSome
    cases hSome
    exact (clampedSize_eq_iff hPast).mp hCount

/-
  `read` is right for exactly those offsets and sizes whose
  sum does not wrap into the file.
-/
theorem read_range_iff
    (hMount : initInitrd location mem₀ = some (mem₁, s))
    (hi : i < s.rootNodes.length)
    (hFile :
      (s.fileOffset mem i).toNat +
        (s.fileLength mem i).toNat ≤ 2 ^ 32)
    (hBuffer :
      buffer + rangeSize (s.fileLength mem i) offset size ≤
          (s.fileOffset mem i).toNat ∨
        (s.fileOffset mem i).toNat +
          (s.fileLength mem i).toNat ≤ buffer) :
    ReadsRange s mem i offset size buffer ↔
      ¬ Escapes (s.fileLength mem i) offset size := by
  constructor
  · intro hReads
    exact hReads.not_escapes hMount hi
  · intro hNot
    unfold ReadsRange
    rw [read_file hMount hi]
    by_cases hPast : offset > s.fileLength mem i
    · rw [if_pos hPast]
      refine ⟨0, mem, rfl, ?_, ?_, ?_⟩
      · unfold rangeSize
        rw [if_pos hPast]
        rfl
      · intro k hk
        exact absurd hk (Nat.not_lt_zero k)
      · intro x _
        rfl
    · rw [if_neg hPast]
      have hCount := (clampedSize_eq_iff hPast).mpr hNot
      refine ⟨_, _, rfl, hCount, ?_, ?_⟩
      · intro k hk
        have hOffset :
            offset.toNat ≤ (s.fileLength mem i).toNat := by
          rw [gt_iff_lt, UInt32.lt_iff_toNat_lt] at hPast
          omega
        have hRange :
            rangeSize (s.fileLength mem i) offset size ≤
              (s.fileLength mem i).toNat - offset.toNat := by
          unfold rangeSize
          rw [if_neg hPast]
          exact Nat.min_le_right _ _
        -- a byte is copied, so that no address wraps
        have hAddr :
            (s.fileOffset mem i + offset).toNat =
              (s.fileOffset mem i).toNat + offset.toNat := by
          rw [UInt32.toNat_add]
          exact Nat.mod_eq_of_lt (by omega)
        rw [hAddr]
        exact memcpy_apply_add (by omega) hk
      · intro x hx
        exact memcpy_of_apart hx

------------------------------------------------------------
-- A Ramdisk with One File
------------------------------------------------------------

/- One file "a" of three bytes, right behind its header. -/
def oneFile : ByteMemory :=
  let mem := ByteMemory.write32 (fun _ => 0) 0x200000 1
  let mem := mem.write32 0x200004 0x61BF
  let mem := mem.write32 (0x200004 + OFFSET) 80
  let mem := mem.write32 (0x200004 + LENGTH) 3
  mem.write32 0x200050 0x030201

theorem oneFile_mounted :
    ∃ mem s, initInitrd 0x200000 oneFile = some (mem, s) ∧
      s.rootNodes.length = 1 ∧
      s.fileOffset mem 0 = 0x200050 ∧
      s.fileLength mem 0 = 3 := by
  have hMap :
      (initInitrd 0x200000 oneFile).map
          (fun r => (r.2.rootNodes.length,
            r.2.fileOffset r.1 0, r.2.fileLength r.1 0)) =
        some (1, 0x200050, 3) := by
    decide +kernel
  rcases Option.map_eq_some_iff.mp hMap with
    ⟨⟨mem, s⟩, hMount, hFields⟩
  rw [Prod.mk.injEq, Prod.mk.injEq] at hFields
  exact ⟨mem, s, hMount, hFields⟩

theorem read_range_within :
    ∃ mem s, initInitrd 0x200000 oneFile = some (mem, s) ∧
      (ReadsRange s mem 0 1 0xFFFFFF 0x300000 ↔
        ¬ Escapes 3 1 0xFFFFFF) := by
  rcases oneFile_mounted with
    ⟨mem, s, hMount, hCount, hOffset, hLength⟩
  have hIff :
      ReadsRange s mem 0 1 0xFFFFFF 0x300000 ↔
        ¬ Escapes (s.fileLength mem 0) 1 0xFFFFFF :=
    read_range_iff hMount
      (by rw [hCount]; decide)
      (by rw [hOffset, hLength]; decide)
      (by rw [hOffset, hLength]; decide)
  rw [hLength] at hIff
  exact ⟨mem, s, hMount, hIff⟩

/-
  From the offset 2 of three bytes, 0xFFFFFFFE bytes are
  copied instead of one.
-/
theorem read_range_escapes :
    ¬ ∀ location mem₀ mem s i offset size buffer,
      initInitrd location mem₀ = some (mem, s) →
        i < s.rootNodes.length →
        (s.fileOffset mem i).toNat +
          (s.fileLength mem i).toNat ≤ 2 ^ 32 →
        (s.fileOffset mem i).toNat +
          (s.fileLength mem i).toNat ≤ buffer →
        ReadsRange s mem i offset size buffer := by
  intro hAll
  rcases oneFile_mounted with
    ⟨mem, s, hMount, hCount, hOffset, hLength⟩
  have hi : 0 < s.rootNodes.length := by
    rw [hCount]
    decide
  have hReads :=
    hAll _ _ mem s 0 2 0xFFFFFFFE 0x300000 hMount hi
      (by rw [hOffset, hLength]; decide)
      (by rw [hOffset, hLength]; decide)
  have hNot := hReads.not_escapes hMount hi
  rw [hLength] at hNot
  exact hNot (by decide)

end Fs

end SosKernel
