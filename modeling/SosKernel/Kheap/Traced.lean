import SosKernel.Lib.Tracing
import SosKernel.Kheap.Model

/-
  The heap with a trace of its stores and of its arithmetic
  on lengths and addresses.

  Main declarations:
    * `Event`
    * `Traced.kmalloc`, `Traced.kfree`
    * `Traced.kmalloc_traces`, `Traced.kfree_traces`

  Each function is the one of `Kheap.Model`, with an event
  for every addition, every subtraction, every value of the
  31-bit field `length`, and every store.
-/

------------------------------------------------------------
-- Events
------------------------------------------------------------

namespace SosKernel

namespace Kheap

/-
  `add a b` is the evaluation of `a + b`, `sub a b` that of
  `a - b`, and `length v` an assignment of `v` to `length`.
  A store of a word goes with `kheap_max` and with whether
  its bytes are mapped, at that moment.
-/
inductive Event where
| add (a b : Nat)
| sub (a b : Nat)
| length (v : Nat)
| store (a kheapMax : Nat) (mapped : Bool)
deriving DecidableEq, Repr

/- Both ends of the word at `a` are mapped. -/
def Heap.isMapped (h : Heap) (a : Nat) : Bool :=
  (h.mapping (a / PAGE_SIZE)).isSome &&
    (h.mapping ((a + 3) / PAGE_SIZE)).isSome

/- A heap computation with a trace. -/
abbrev TraceM := EStateM Stop (WithTrace Heap Event)

namespace Traced

open EStateM (lift record Traces)

------------------------------------------------------------
-- Arithmetic and Stores
------------------------------------------------------------

def add (a b : Nat) : TraceM Nat := do
  record fun _ => .add a b
  return add32 a b

def sub (a b : Nat) : TraceM Nat := do
  record fun _ => .sub a b
  return sub32 a b

def store32 (a v : Nat) : TraceM Unit := do
  record fun h => .store a h.kheapMax (h.isMapped a)
  lift (Kheap.store32 a v)

def getHeap : TraceM Heap :=
  lift get

def getPrev (header : Nat) : TraceM Nat :=
  lift (Kheap.getPrev header)

def getNext (header : Nat) : TraceM Nat :=
  lift (Kheap.getNext header)

def getAllocated (header : Nat) : TraceM Nat :=
  lift (Kheap.getAllocated header)

def getLength (header : Nat) : TraceM Nat :=
  lift (Kheap.getLength header)

def setPrev (header v : Nat) : TraceM Unit :=
  store32 header v

def setNext (header v : Nat) : TraceM Unit :=
  store32 (header + 4) v

def setAllocated (header v : Nat) : TraceM Unit := do
  let word ← lift (load32 (header + 8))
  store32 (header + 8) (word / 2 * 2 + v % 2)

def setLength (header v : Nat) : TraceM Unit := do
  record fun _ => .length v
  let word ← lift (load32 (header + 8))
  store32 (header + 8) (v % 2 ^ 31 * 2 + word % 2)

------------------------------------------------------------
-- Growing and Shrinking
------------------------------------------------------------

def growHeap : Nat → Nat → TraceM Unit
| 0, _ => throw .hang
| fuel + 1, target => do
    let kheapMax := (← getHeap).kheapMax
    if kheapMax < target then
      let page ← lift pmmAllocPage
      lift (map kheapMax page)
      record fun h => .add h.kheapMax PAGE_SIZE
      lift (modify fun h =>
        { h with kheapMax := add32 h.kheapMax PAGE_SIZE })
      growHeap fuel target

def allocChunk (fuel start len : Nat) : TraceM Unit := do
  if (← sub KHEAP_END start) < len then
    throw (.panic "Heap: out of memory.")
  growHeap fuel (← add start len)

def freeChunk (fuel chunk : Nat) : TraceM Unit := do
  setNext (← getPrev chunk) 0
  if (← getPrev chunk) = 0 then
    lift (modify fun h => { h with kheapFirst := 0 })
  lift (shrinkHeap fuel chunk)

------------------------------------------------------------
-- Splitting and Coalescing
------------------------------------------------------------

def splitChunk (chunk len : Nat) : TraceM Unit := do
  if HEADER_SIZE < (← sub (← getLength chunk) len) then
    let newchunk ← add chunk (← getLength chunk)
    setPrev newchunk chunk
    setNext newchunk (← getNext chunk)
    setAllocated newchunk 0
    setLength newchunk (← sub (← getLength chunk) len)
    setNext chunk newchunk
    setLength chunk len

def glueNext (chunk : Nat) : TraceM Unit := do
  if (← getNext chunk) ≠ 0 then
    if (← getAllocated (← getNext chunk)) = 0 then
      setLength chunk
        (← add (← getLength chunk)
          (← getLength (← getNext chunk)))
      setPrev (← getNext (← getNext chunk)) chunk
      setNext chunk (← getNext (← getNext chunk))

def gluePrev (chunk : Nat) : TraceM Nat := do
  if (← getPrev chunk) = 0 then
    return chunk
  else if (← getAllocated (← getPrev chunk)) = 0 then
    setLength (← getPrev chunk)
      (← add (← getLength (← getPrev chunk))
        (← getLength chunk))
    setNext (← getPrev chunk) (← getNext chunk)
    setPrev (← getNext chunk) (← getPrev chunk)
    getPrev chunk
  else
    return chunk

def glueChunk (fuel chunk : Nat) : TraceM Unit := do
  glueNext chunk
  let chunk ← gluePrev chunk
  if (← getNext chunk) = 0 then
    freeChunk fuel chunk

------------------------------------------------------------
-- Allocation
------------------------------------------------------------

def chunkStart (prevHeader : Nat) : TraceM Nat := do
  if prevHeader ≠ 0 then
    add prevHeader (← getLength prevHeader)
  else
    lift (modify fun h => { h with kheapFirst := KHEAP_START })
    return KHEAP_START

def appendChunk
    (fuel len prevHeader : Nat) :
    TraceM Nat := do
  let start ← chunkStart prevHeader
  allocChunk fuel start len
  setPrev start prevHeader
  setNext start 0
  setAllocated start 1
  setLength start len
  setNext prevHeader start
  add start HEADER_SIZE

def kmalloc (fuel len : Nat) : TraceM Nat := do
  let len ← add len HEADER_SIZE
  let (curHeader, prevHeader) ←
    lift (findChunk fuel len (← getHeap).kheapFirst 0)
  if curHeader ≠ 0 then
    splitChunk curHeader len
    setAllocated curHeader 1
    add curHeader HEADER_SIZE
  else
    appendChunk fuel len prevHeader

def kfree (fuel p : Nat) : TraceM Unit := do
  let header ← sub p HEADER_SIZE
  setAllocated header 0
  glueChunk fuel header

------------------------------------------------------------
-- The Same Computations
------------------------------------------------------------

theorem store32_traces (a v : Nat) :
    Traces (store32 a v) (Kheap.store32 a v) :=
  .record _ (.lift _)

theorem setAllocated_traces (header v : Nat) :
    Traces (setAllocated header v)
      (Kheap.setAllocated header v) :=
  .bind (.lift _) fun _ => store32_traces _ _

theorem setLength_traces (header v : Nat) :
    Traces (setLength header v) (Kheap.setLength header v) :=
  .record _ (.bind (.lift _) fun _ => store32_traces _ _)

/- An addition before a program that uses the sum. -/
theorem add_traces
    {α : Type}
    {f' : Nat → TraceM α}
    {x : HeapM α}
    {a b : Nat}
    (hx : Traces (f' (add32 a b)) x) :
    Traces (add a b >>= f') x := by
  rw [add, bind_assoc]
  simp only [pure_bind]
  exact .record _ hx

theorem sub_traces
    {α : Type}
    {f' : Nat → TraceM α}
    {x : HeapM α}
    {a b : Nat}
    (hx : Traces (f' (sub32 a b)) x) :
    Traces (sub a b >>= f') x := by
  rw [sub, bind_assoc]
  simp only [pure_bind]
  exact .record _ hx

theorem growHeap_traces (fuel target : Nat) :
    Traces (growHeap fuel target)
      (Kheap.growHeap fuel target) := by
  induction fuel with
  | zero => exact .throw _
  | succ fuel ih =>
      unfold growHeap Kheap.growHeap
      refine .bind (.lift _) fun h => .ite ?_ (.pure _)
      refine .bind (.lift _) fun page => ?_
      refine .bind (.lift _) fun _ => ?_
      exact .record _ (.bind (.lift _) fun _ => ih)

theorem allocChunk_traces (fuel start len : Nat) :
    Traces (allocChunk fuel start len)
      (Kheap.allocChunk fuel start len) := by
  unfold allocChunk Kheap.allocChunk
  refine sub_traces (.ite (.bind (.throw _) fun _ => ?_) ?_)
  · exact add_traces (growHeap_traces _ _)
  · exact add_traces (growHeap_traces _ _)

theorem freeChunk_traces (fuel chunk : Nat) :
    Traces (freeChunk fuel chunk)
      (Kheap.freeChunk fuel chunk) := by
  unfold freeChunk Kheap.freeChunk
  refine .bind (.lift _) fun prev => ?_
  refine .bind (store32_traces _ _) fun _ => ?_
  refine .bind (.lift _) fun prev => .ite ?_ (.lift _)
  exact .bind (.lift _) fun _ => .lift _

theorem splitChunk_traces (chunk len : Nat) :
    Traces (splitChunk chunk len)
      (Kheap.splitChunk chunk len) := by
  unfold splitChunk Kheap.splitChunk
  refine .bind (.lift _) fun length => ?_
  refine sub_traces (.ite ?_ (.pure _))
  refine .bind (.lift _) fun length => add_traces ?_
  refine .bind (store32_traces _ _) fun _ => ?_
  refine .bind (.lift _) fun next => ?_
  refine .bind (store32_traces _ _) fun _ => ?_
  refine .bind (setAllocated_traces _ _) fun _ => ?_
  refine .bind (.lift _) fun length => sub_traces ?_
  refine .bind (setLength_traces _ _) fun _ => ?_
  refine .bind (store32_traces _ _) fun _ => ?_
  exact setLength_traces _ _

theorem glueNext_traces (chunk : Nat) :
    Traces (glueNext chunk) (Kheap.glueNext chunk) := by
  unfold glueNext Kheap.glueNext
  refine .bind (.lift _) fun next => .ite ?_ (.pure _)
  refine .bind (.lift _) fun next => ?_
  refine .bind (.lift _) fun allocated =>
    .ite ?_ (.pure _)
  refine .bind (.lift _) fun length => ?_
  refine .bind (.lift _) fun next => ?_
  refine .bind (.lift _) fun nextLength => add_traces ?_
  refine .bind (setLength_traces _ _) fun _ => ?_
  refine .bind (.lift _) fun next => ?_
  refine .bind (.lift _) fun after => ?_
  refine .bind (store32_traces _ _) fun _ => ?_
  refine .bind (.lift _) fun next => ?_
  refine .bind (.lift _) fun after => ?_
  exact store32_traces _ _

theorem gluePrev_traces (chunk : Nat) :
    Traces (gluePrev chunk) (Kheap.gluePrev chunk) := by
  unfold gluePrev Kheap.gluePrev
  refine .bind (.lift _) fun prev => .ite (.pure _) ?_
  refine .bind (.lift _) fun prev => ?_
  refine .bind (.lift _) fun allocated =>
    .ite ?_ (.pure _)
  refine .bind (.lift _) fun prev => ?_
  refine .bind (.lift _) fun prev' => ?_
  refine .bind (.lift _) fun prevLength => ?_
  refine .bind (.lift _) fun length => add_traces ?_
  refine .bind (setLength_traces _ _) fun _ => ?_
  refine .bind (.lift _) fun prev => ?_
  refine .bind (.lift _) fun next => ?_
  refine .bind (store32_traces _ _) fun _ => ?_
  refine .bind (.lift _) fun next => ?_
  refine .bind (.lift _) fun prev => ?_
  exact .bind (store32_traces _ _) fun _ => .lift _

theorem glueChunk_traces (fuel chunk : Nat) :
    Traces (glueChunk fuel chunk)
      (Kheap.glueChunk fuel chunk) := by
  unfold glueChunk Kheap.glueChunk
  refine .bind (glueNext_traces _) fun _ => ?_
  refine .bind (gluePrev_traces _) fun chunk => ?_
  refine .bind (.lift _) fun next => ?_
  exact .ite (freeChunk_traces _ _) (.pure _)

theorem chunkStart_traces (prevHeader : Nat) :
    Traces (chunkStart prevHeader)
      (Kheap.chunkStart prevHeader) := by
  unfold chunkStart Kheap.chunkStart
  refine .ite ?_ (.bind (.lift _) fun _ => .pure _)
  exact .bind (.lift _) fun length => .record _ (.pure _)

theorem appendChunk_traces (fuel len prevHeader : Nat) :
    Traces (appendChunk fuel len prevHeader)
      (Kheap.appendChunk fuel len prevHeader) := by
  unfold appendChunk Kheap.appendChunk
  refine .bind (chunkStart_traces _) fun start => ?_
  refine .bind (allocChunk_traces _ _ _) fun _ => ?_
  refine .bind (store32_traces _ _) fun _ => ?_
  refine .bind (store32_traces _ _) fun _ => ?_
  refine .bind (setAllocated_traces _ _) fun _ => ?_
  refine .bind (setLength_traces _ _) fun _ => ?_
  refine .bind (store32_traces _ _) fun _ => ?_
  exact .record _ (.pure _)

/- `kmalloc` with its trace is `kmalloc`. -/
theorem kmalloc_traces (fuel len : Nat) :
    Traces (kmalloc fuel len) (Kheap.kmalloc fuel len) := by
  unfold kmalloc Kheap.kmalloc
  refine add_traces (.bind (.lift _) fun h => ?_)
  refine .bind (.lift _) fun found => .ite ?_ ?_
  · refine .bind (splitChunk_traces _ _) fun _ => ?_
    refine .bind (setAllocated_traces _ _) fun _ => ?_
    exact .record _ (.pure _)
  · exact appendChunk_traces _ _ _

/- The first addition of `kmalloc` is in its trace. -/
theorem add_mem_kmalloc
    (fuel len : Nat)
    (s : WithTrace Heap Event) :
    .add len HEADER_SIZE ∈ ((kmalloc fuel len).run s).trace := by
  unfold kmalloc
  rw [add, bind_assoc]
  simp only [pure_bind]
  refine Traces.record_mem (x := Kheap.kmalloc fuel len) _ ?_
    s
  unfold Kheap.kmalloc
  refine .bind (.lift _) fun h => ?_
  refine .bind (.lift _) fun found => .ite ?_ ?_
  · refine .bind (splitChunk_traces _ _) fun _ => ?_
    refine .bind (setAllocated_traces _ _) fun _ => ?_
    exact .record _ (.pure _)
  · exact appendChunk_traces _ _ _

theorem kfree_traces (fuel p : Nat) :
    Traces (kfree fuel p) (Kheap.kfree fuel p) := by
  unfold kfree Kheap.kfree
  refine sub_traces ?_
  refine .bind (setAllocated_traces _ _) fun _ => ?_
  exact glueChunk_traces _ _

end Traced

end Kheap

end SosKernel
