import SosKernel.Lib.ByteMemory
import SosKernel.Layout
import SosKernel.Stop

/-
  The kernel heap of `mm/kheap.c`, over the bytes of its
  pages.

  Main declarations:
    * `Heap`, `HeapM`
    * `kmalloc`, `kfree`
    * `splitChunk`, `glueChunk`, `allocChunk`, `freeChunk`

  A chunk starts with a `kheader_t` of three words: `prev`,
  `next`, and a word with `allocated` in its lowest bit and
  `length` in the others.  Pages and frames are seen through
  the interface of `pmm.c` and `vmm.c`: `mapping` gives the
  frame of each mapped page, `frames` the answers still to
  come from `pmm_alloc_page`, and `frameBytes` what a free
  frame holds.  Loops take a bound.
-/

------------------------------------------------------------
-- The State
------------------------------------------------------------

namespace SosKernel

namespace Kheap

structure Heap where
  mem : ByteMemory
  mapping : Nat → Option Nat
  kheapMax : Nat
  kheapFirst : Nat
  frames : List Nat
  frameBytes : Nat → Nat → UInt8
  freed : List Nat

/- A heap computation. -/
abbrev HeapM := EStateM Stop Heap

------------------------------------------------------------
-- Memory
------------------------------------------------------------

/- An access to the mapped byte at `a`, or a page fault. -/
def touch (a : Nat) : HeapM Unit := do
  if ((← get).mapping (a / PAGE_SIZE)).isNone then
    throw (.pageFault a)

def load32 (a : Nat) : HeapM Nat := do
  touch a
  touch (a + 3)
  return (← get).mem.read32 a

def store32 (a v : Nat) : HeapM Unit := do
  touch a
  touch (a + 3)
  modify fun h => { h with mem := h.mem.write32 a v }

------------------------------------------------------------
-- Pages
------------------------------------------------------------

/- The next answer of `pmm_alloc_page`. -/
def pmmAllocPage : HeapM Nat := do
  match (← get).frames with
  | [] => throw (.panic "PMM Stack: no free pages.")
  | frame :: rest =>
      modify fun h => { h with frames := rest }
      return frame

def pmmFreePage (frame : Nat) : HeapM Unit :=
  modify fun h => { h with freed := frame :: h.freed }

/- The page at `va` now shows the bytes of the frame. -/
def map (va frame : Nat) : HeapM Unit :=
  modify fun h =>
    { h with
      mapping :=
        fun page =>
          if page = va / PAGE_SIZE then
            some frame
          else
            h.mapping page
      mem :=
        fun x =>
          if x / PAGE_SIZE = va / PAGE_SIZE then
            h.frameBytes frame (x % PAGE_SIZE)
          else
            h.mem x }

def unmap (va : Nat) : HeapM Unit :=
  modify fun h =>
    { h with
      mapping :=
        fun page =>
          if page = va / PAGE_SIZE then
            none
          else
            h.mapping page }

/- The frame of a mapped page. -/
def getMapping (va : Nat) : HeapM Nat := do
  match (← get).mapping (va / PAGE_SIZE) with
  | none => throw (.badPointer va)
  | some frame => return frame

------------------------------------------------------------
-- Headers
------------------------------------------------------------

/- `sizeof(kheader_t)`. -/
def HEADER_SIZE : Nat := 12

def getPrev (header : Nat) : HeapM Nat :=
  load32 header

def getNext (header : Nat) : HeapM Nat :=
  load32 (header + 4)

def getAllocated (header : Nat) : HeapM Nat := do
  return (← load32 (header + 8)) % 2

def getLength (header : Nat) : HeapM Nat := do
  return (← load32 (header + 8)) / 2

def setPrev (header v : Nat) : HeapM Unit :=
  store32 header v

def setNext (header v : Nat) : HeapM Unit :=
  store32 (header + 4) v

/- Store the one-bit field, keeping `length`. -/
def setAllocated (header v : Nat) : HeapM Unit := do
  let word ← load32 (header + 8)
  store32 (header + 8) (word / 2 * 2 + v % 2)

/- Store the 31-bit field, keeping `allocated`. -/
def setLength (header v : Nat) : HeapM Unit := do
  let word ← load32 (header + 8)
  store32 (header + 8) (v % 2 ^ 31 * 2 + word % 2)

------------------------------------------------------------
-- Growing and Shrinking
------------------------------------------------------------

/- The loop of `alloc_chunk`. -/
def growHeap : Nat → Nat → HeapM Unit
| 0, _ => throw .hang
| fuel + 1, target => do
    let kheapMax := (← get).kheapMax
    if kheapMax < target then
      let page ← pmmAllocPage
      map kheapMax page
      modify fun h =>
        { h with kheapMax := add32 h.kheapMax PAGE_SIZE }
      growHeap fuel target

def allocChunk (fuel start len : Nat) : HeapM Unit := do
  if sub32 KHEAP_END start < len then
    throw (.panic "Heap: out of memory.")
  growHeap fuel (add32 start len)

/- The loop of `free_chunk`. -/
def shrinkHeap : Nat → Nat → HeapM Unit
| 0, _ => throw .hang
| fuel + 1, chunk => do
    if chunk ≤ sub32 (← get).kheapMax PAGE_SIZE then
      modify fun h =>
        { h with kheapMax := sub32 h.kheapMax PAGE_SIZE }
      let kheapMax := (← get).kheapMax
      let page ← getMapping kheapMax
      pmmFreePage page
      unmap kheapMax
      shrinkHeap fuel chunk

/- Drop the last chunk.  `chunk->prev` may be null. -/
def freeChunk (fuel chunk : Nat) : HeapM Unit := do
  setNext (← getPrev chunk) 0
  if (← getPrev chunk) = 0 then
    modify fun h => { h with kheapFirst := 0 }
  shrinkHeap fuel chunk

------------------------------------------------------------
-- Splitting and Coalescing
------------------------------------------------------------

def splitChunk (chunk len : Nat) : HeapM Unit := do
  if HEADER_SIZE < sub32 (← getLength chunk) len then
    let newchunk := add32 chunk (← getLength chunk)
    setPrev newchunk chunk
    setNext newchunk (← getNext chunk)
    setAllocated newchunk 0
    setLength newchunk (sub32 (← getLength chunk) len)
    setNext chunk newchunk
    setLength chunk len

/- Take a free successor into the chunk. -/
def glueNext (chunk : Nat) : HeapM Unit := do
  if (← getNext chunk) ≠ 0 then
    if (← getAllocated (← getNext chunk)) = 0 then
      setLength chunk
        (add32 (← getLength chunk)
          (← getLength (← getNext chunk)))
      setPrev (← getNext (← getNext chunk)) chunk
      setNext chunk (← getNext (← getNext chunk))

/-
  Take the chunk into a free predecessor.  The result is the
  chunk that remains.
-/
def gluePrev (chunk : Nat) : HeapM Nat := do
  if (← getPrev chunk) = 0 then
    return chunk
  else if (← getAllocated (← getPrev chunk)) = 0 then
    setLength (← getPrev chunk)
      (add32 (← getLength (← getPrev chunk))
        (← getLength chunk))
    setNext (← getPrev chunk) (← getNext chunk)
    setPrev (← getNext chunk) (← getPrev chunk)
    getPrev chunk
  else
    return chunk

def glueChunk (fuel chunk : Nat) : HeapM Unit := do
  glueNext chunk
  let chunk ← gluePrev chunk
  if (← getNext chunk) = 0 then
    freeChunk fuel chunk

------------------------------------------------------------
-- Allocation
------------------------------------------------------------

/-
  The search of `kmalloc`: the first free chunk that is long
  enough, or null, with the chunk before it.
-/
def findChunk :
    Nat → Nat → Nat → Nat → HeapM (Nat × Nat)
| 0, _, _, _ => throw .hang
| fuel + 1, len, curHeader, prevHeader => do
    if curHeader = 0 then
      return (0, prevHeader)
    else if (← getAllocated curHeader) = 0 ∧
        len ≤ (← getLength curHeader) then
      return (curHeader, prevHeader)
    else
      findChunk fuel len (← getNext curHeader) curHeader

/- Where a new last chunk starts. -/
def chunkStart (prevHeader : Nat) : HeapM Nat := do
  if prevHeader ≠ 0 then
    return add32 prevHeader (← getLength prevHeader)
  else
    modify fun h => { h with kheapFirst := KHEAP_START }
    return KHEAP_START

/- A new last chunk.  `prev_header` may be null. -/
def appendChunk
    (fuel len prevHeader : Nat) :
    HeapM Nat := do
  let start ← chunkStart prevHeader
  allocChunk fuel start len
  setPrev start prevHeader
  setNext start 0
  setAllocated start 1
  setLength start len
  setNext prevHeader start
  return add32 start HEADER_SIZE

def kmalloc (fuel len : Nat) : HeapM Nat := do
  let len := add32 len HEADER_SIZE
  let (curHeader, prevHeader) ←
    findChunk fuel len (← get).kheapFirst 0
  if curHeader ≠ 0 then
    splitChunk curHeader len
    setAllocated curHeader 1
    return add32 curHeader HEADER_SIZE
  else
    appendChunk fuel len prevHeader

def kfree (fuel p : Nat) : HeapM Unit := do
  let header := sub32 p HEADER_SIZE
  setAllocated header 0
  glueChunk fuel header

end Kheap

end SosKernel
