import SosKernel.Fs.Initrd
import SosKernel.Vmm.AllocateRange

/-
  `load_elf_binary` of `elf.c`, with `read` through the
  current directory.

  Main declarations:
    * `initrdRange`, `read`, `readLocal`
    * `loadSegments`, `loadElfBinary`
    * `localBytes`, `headers`: what is read into the locals
    * `Image`, `imageOf`: the bytes that the headers describe

  The two headers are local variables, which `read` fills in:
  a read that is short leaves old bytes in them.
-/

------------------------------------------------------------
-- Reading a File
------------------------------------------------------------

namespace SosKernel

namespace Elf

open Vmm

def load8 (a : Nat) : VmM UInt8 := do
  match (← get).translate a with
  | none => throw (.pageFault a)
  | some pa => return (← get).ram pa

def memcpy (dest src len : Nat) : VmM Unit :=
  EStateM.upTo
    (fun k => do
      store8 (add32 dest k) (← load8 (add32 src k)))
    len

/- A copy of `n` bytes from `a` on. -/
def loadBytes : Nat → Nat → VmM (List UInt8)
| _, 0 => return []
| a, n + 1 => do
    let b ← load8 a
    let bs ← loadBytes (add32 a 1) n
    return b :: bs

/- The halfword and the word at `i` in a variable. -/
def half (bs : List UInt8) (i : Nat) : Nat :=
  (bs.getD i 0).toNat + 256 * (bs.getD (i + 1) 0).toNat

def word (bs : List UInt8) (i : Nat) : Nat :=
  ByteMemory.read32 (fun x => bs.getD x 0) i

/- How much of a file of the given length is read. -/
def clamp (length offset size : Nat) : Nat :=
  if length < offset then
    0
  else if length < add32 offset size then
    sub32 length offset
  else
    size

/- Where `initrd_read` copies from, and how many bytes. -/
def initrdRange
    (s : Fs.Initrd)
    (node : Fs.FsNode)
    (offset size : Nat) : VmM (Nat × Nat) := do
  let header ←
    loadBytes
      (add32 s.fileHeaders
        (Fs.HEADER_SIZE * node.inode.toNat))
      Fs.HEADER_SIZE
  let length := word header Fs.LENGTH
  return (add32 (word header Fs.OFFSET) offset,
    clamp length offset size)

def read
    (s : Fs.Initrd)
    (node : Fs.FsNode)
    (offset size buffer : Nat) : VmM Nat := do
  match node.read with
  | none => return 0
  | some .initrdRead =>
      let range ← initrdRange s node offset size
      memcpy buffer range.1 range.2
      return range.2

/- A read into a local variable with the bytes `old`. -/
def readLocal
    (s : Fs.Initrd)
    (node : Fs.FsNode)
    (offset size : Nat)
    (old : List UInt8) : VmM (List UInt8) := do
  match node.read with
  | none => return old
  | some .initrdRead =>
      let range ← initrdRange s node offset size
      let bytes ← loadBytes range.1 range.2
      return bytes ++ old.drop range.2

------------------------------------------------------------
-- Headers
------------------------------------------------------------

/- "\177ELF" -/
def ELFMAG : List UInt8 := [0x7f, 69, 76, 70]

def PF_X : Nat := 1

/- The sizes of an `Elf32_Ehdr` and of an `Elf32_Phdr`. -/
def EHDR_SIZE : Nat := 52
def PHDR_SIZE : Nat := 32

/- Fields of an `Elf32_Ehdr`. -/
def eEntry (hdr : List UInt8) : Nat := word hdr 24
def ePhoff (hdr : List UInt8) : Nat := word hdr 28
def ePhnum (hdr : List UInt8) : Nat := half hdr 44

/- Fields of an `Elf32_Phdr`. -/
def pType (hdr : List UInt8) : Nat := word hdr 0
def pOffset (hdr : List UInt8) : Nat := word hdr 4
def pVaddr (hdr : List UInt8) : Nat := word hdr 8
def pFilesz (hdr : List UInt8) : Nat := word hdr 16
def pMemsz (hdr : List UInt8) : Nat := word hdr 20

------------------------------------------------------------
-- Loading
------------------------------------------------------------

/- The body of the loop, once the header has been read. -/
def loadSegment
    (s : Fs.Initrd)
    (node : Fs.FsNode)
    (hdr : List UInt8) : VmM Unit := do
  if PF_X = pType hdr then
    let _ ←
      allocateRange (pVaddr hdr)
        (add32 (pVaddr hdr) (pMemsz hdr))
        (PAGE_WRITE ||| PAGE_USER)
    let _ ←
      read s node (pOffset hdr) (pFilesz hdr) (pVaddr hdr)

/- The loop, with `n` headers left. -/
def loadSegments
    (s : Fs.Initrd)
    (node : Fs.FsNode) :
    Nat → Nat → List UInt8 → VmM Unit
| 0, _, _ => return ()
| n + 1, off, hdr => do
    let hdr ← readLocal s node off PHDR_SIZE hdr
    loadSegment s node hdr
    loadSegments s node n (add32 off PHDR_SIZE) hdr

/- `elfHdr` and `pHdr` are the variables before the call. -/
def loadElfBinary
    (s : Fs.Initrd)
    (node : Fs.FsNode)
    (elfHdr pHdr : List UInt8) : VmM Nat := do
  let elfHdr ← readLocal s node 0 EHDR_SIZE elfHdr
  if elfHdr.take 4 ≠ ELFMAG then
    throw (.panic "ELF: This is not an elf file.")
  loadSegments s node (ePhnum elfHdr) (ePhoff elfHdr) pHdr
  return eEntry elfHdr

------------------------------------------------------------
-- What the Headers Describe
------------------------------------------------------------

/- The bytes of a variable after a read from `content`. -/
def localBytes
    (content : ByteMemory)
    (length offset size : Nat)
    (old : List UInt8) : List UInt8 :=
  (List.range (clamp length offset size)).map
      (fun k => content (offset + k)) ++
    old.drop (clamp length offset size)

/- The program headers that the loop meets. -/
def headers
    (content : ByteMemory)
    (length : Nat) :
    Nat → Nat → List UInt8 → List (List UInt8)
| 0, _, _ => []
| n + 1, off, hdr =>
    let hdr := localBytes content length off PHDR_SIZE hdr
    hdr :: headers content length n (add32 off PHDR_SIZE) hdr

/- The number of bytes that are copied for a header. -/
def copied (length : Nat) (hdr : List UInt8) : Nat :=
  clamp length (pOffset hdr) (pFilesz hdr)

/- Bytes at some of the addresses. -/
abbrev Image : Type := Nat → Option UInt8

/- What one header adds to an image. -/
def addSegment
    (content : ByteMemory)
    (length : Nat)
    (image : Image)
    (hdr : List UInt8) : Image :=
  fun va =>
    if PF_X = pType hdr ∧ pVaddr hdr ≤ va ∧
        va < pVaddr hdr + copied length hdr then
      some (content (pOffset hdr + (va - pVaddr hdr)))
    else
      image va

/- The image of all headers, in their order. -/
def imageOf
    (content : ByteMemory)
    (length : Nat)
    (hdrs : List (List UInt8)) : Image :=
  hdrs.foldl (addSegment content length) fun _ => none

end Elf

end SosKernel
