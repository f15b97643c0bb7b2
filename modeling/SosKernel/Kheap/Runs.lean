import Mathlib.Data.List.Nodup
import Mathlib.Order.Interval.Set.Basic
import SosKernel.Lib.Reachable
import SosKernel.Kheap.Kmalloc

/-
  Runs of the heap and its clients.

  Main declarations:
    * `Config`, `Step`
    * `Act`, `Does`, `RegularStep`: steps with their events
    * `OnChain`: the headers of the chain
-/

------------------------------------------------------------
-- Configurations and Steps
------------------------------------------------------------

namespace SosKernel

namespace Kheap

/-
  The heap with its live allocations: the pointers that have
  been returned and not freed since, with their lengths.
-/
structure Config where
  heap : Heap
  live : List (Nat × Nat)

/- The empty heap, over any memory. -/
def Empty (cfg : Config) : Prop :=
  cfg.heap.kheapMax = KHEAP_START ∧
    cfg.heap.kheapFirst = 0 ∧
    cfg.live = []

/- The heap after a client's store of one byte. -/
def Heap.storeByte (h : Heap) (a : Nat) (b : UInt8) : Heap :=
  h.withMem fun x => if x = a then b else h.mem x

/- The heap with other answers of the page allocator. -/
def Heap.supply
    (h : Heap)
    (frames : List Nat)
    (frameBytes : Nat → Nat → UInt8) : Heap :=
  { h with frames := frames, frameBytes := frameBytes }

/-
  A call that returned, with the calls of `kmalloc` that are
  allowed; a client's store to what it owns; or a change of
  the free frames.
-/
inductive Step
    (allowed : Heap → Nat → Prop) :
    Config → Config → Prop where
| kmalloc
    {cfg : Config}
    {h' : Heap}
    {p : Nat}
    (fuel len : Nat)
    (hLen : len ≤ MAX_LEN)
    (hAllowed : allowed cfg.heap len)
    (hRun : (kmalloc fuel len).run cfg.heap = .ok p h') :
    Step allowed cfg ⟨h', (p, len) :: cfg.live⟩
| kfree
    {cfg : Config}
    {h' : Heap}
    (fuel p len : Nat)
    (hLive : (p, len) ∈ cfg.live)
    (hRun : (kfree fuel p).run cfg.heap = .ok () h') :
    Step allowed cfg ⟨h', cfg.live.erase (p, len)⟩
| store
    {cfg : Config}
    (p len a : Nat)
    (b : UInt8)
    (hLive : (p, len) ∈ cfg.live)
    (hRange : p ≤ a ∧ a < p + len) :
    Step allowed cfg ⟨cfg.heap.storeByte a b, cfg.live⟩
| supply
    {cfg : Config}
    (frames : List Nat)
    (frameBytes : Nat → Nat → UInt8) :
    Step allowed cfg
      ⟨cfg.heap.supply frames frameBytes, cfg.live⟩

/- Every call of `kmalloc` is allowed. -/
def AnyLen (_ : Heap) (_ : Nat) : Prop := True

------------------------------------------------------------
-- Steps with Events
------------------------------------------------------------

/- A call, or what happens between two calls. -/
inductive Act where
| kmalloc (len : Nat)
| kfree (p : Nat)
| other
deriving DecidableEq, Repr

/-
  What a call that returns does, with its events; a client's
  store to what it owns; and a change of the free frames.
-/
inductive Does :
    Config → Act → List Event → Config → Prop where
| kmalloc
    {cfg : Config}
    {h' : Heap}
    {p : Nat}
    {events : List Event}
    (fuel len : Nat)
    (hLen : len < 2 ^ 32)
    (hRun :
      (Traced.kmalloc fuel len).run ⟨cfg.heap, []⟩ =
        .ok p ⟨h', events⟩) :
    Does cfg (.kmalloc len) events ⟨h', (p, len) :: cfg.live⟩
| kfree
    {cfg : Config}
    {h' : Heap}
    {events : List Event}
    (fuel p len : Nat)
    (hLive : (p, len) ∈ cfg.live)
    (hRun :
      (Traced.kfree fuel p).run ⟨cfg.heap, []⟩ =
        .ok () ⟨h', events⟩) :
    Does cfg (.kfree p) events
      ⟨h', cfg.live.erase (p, len)⟩
| store
    {cfg : Config}
    (p len a : Nat)
    (b : UInt8)
    (hLive : (p, len) ∈ cfg.live)
    (hRange : p ≤ a ∧ a < p + len) :
    Does cfg .other [] ⟨cfg.heap.storeByte a b, cfg.live⟩
| supply
    {cfg : Config}
    (frames : List Nat)
    (frameBytes : Nat → Nat → UInt8) :
    Does cfg .other []
      ⟨cfg.heap.supply frames frameBytes, cfg.live⟩

/- The length with the header is a word, and no split. -/
def Regular (h : Heap) : Act → Prop
| .kmalloc len => len + HEADER_SIZE < 2 ^ 32 ∧ NoSplit h len
| .kfree _ => True
| .other => True

def RegularStep (cfg cfg' : Config) : Prop :=
  ∃ act events, Regular cfg.heap act ∧
    Does cfg act events cfg'

/- Any call that returns, and what clients do. -/
def AnyStep (cfg cfg' : Config) : Prop :=
  ∃ act events, Does cfg act events cfg'

/- The empty heap, with none of its pages mapped. -/
def Fresh (cfg : Config) : Prop :=
  Empty cfg ∧
    ∀ page, KHEAP_START / PAGE_SIZE ≤ page →
      page < KHEAP_END / PAGE_SIZE →
        cfg.heap.mapping page = none

------------------------------------------------------------
-- The Chain in Memory
------------------------------------------------------------

/- The headers that are met from `kheap_first`. -/
inductive OnChain (h : Heap) : Nat → Prop where
| first
    (hFirst : h.kheapFirst ≠ 0) :
    OnChain h h.kheapFirst
| next
    {a : Nat}
    (hOn : OnChain h a)
    (hNext : h.mem.read32 (a + 4) ≠ 0) :
    OnChain h (h.mem.read32 (a + 4))

/- The chunk holds the allocation. -/
structure Chunk.Backs
    (c : Chunk)
    (x : Nat × Nat) : Prop where
  allocated : c.allocated = true
  payload : x.1 = c.addr + HEADER_SIZE
  room : x.2 + HEADER_SIZE ≤ c.length

variable {cfg : Config}
variable {chunks : List Chunk}
variable {stop : Nat}
variable {h : Heap}

/- The chain of a sound heap meets its chunks only. -/
theorem Sound.onChain
    {a : Nat}
    (hSound : Sound h chunks stop)
    (hOn : OnChain h a) :
    ∃ c ∈ chunks, c.addr = a := by
  induction hOn with
  | first hFirst =>
      rw [hSound.first] at hFirst ⊢
      cases chunks with
      | nil => exact absurd rfl hFirst
      | cons c cs => exact ⟨c, by simp, rfl⟩
  | next _ hNext ih =>
      rcases ih with ⟨c, hMem, rfl⟩
      rcases List.append_of_mem hMem with ⟨bs, as, rfl⟩
      rw [hSound.header.2.1] at hNext ⊢
      cases as with
      | nil => exact absurd rfl hNext
      | cons d as => exact ⟨d, by simp, rfl⟩

/- A call of a run has its events. -/
theorem Step.does
    {allowed : Heap → Nat → Prop}
    {cfg' : Config}
    (hStep : Step allowed cfg cfg') :
    ∃ act events, Does cfg act events cfg' ∧
      ∀ len, act = .kmalloc len →
        len + HEADER_SIZE < 2 ^ 32 ∧ allowed cfg.heap len := by
  cases hStep with
  | kmalloc fuel len hLen hAllowed hRun =>
      rcases (Traced.kmalloc_traces fuel len).exists_run
        ⟨cfg.heap, []⟩ hRun with ⟨events, hTraced⟩
      unfold MAX_LEN KHEAP_END KHEAP_START HEADER_SIZE at hLen
      refine ⟨.kmalloc len, events,
        .kmalloc fuel len (by omega) hTraced, ?_⟩
      rintro _ ⟨⟩
      unfold HEADER_SIZE
      exact ⟨by omega, hAllowed⟩
  | kfree fuel p len hLive hRun =>
      rcases (Traced.kfree_traces fuel p).exists_run
        ⟨cfg.heap, []⟩ hRun with ⟨events, hTraced⟩
      exact ⟨.kfree p, events,
        .kfree fuel p len hLive hTraced, by simp⟩
  | store p len a b hLive hRange =>
      exact ⟨.other, [], .store p len a b hLive hRange,
        by simp⟩
  | supply frames frameBytes =>
      exact ⟨.other, [], .supply frames frameBytes, by simp⟩

theorem Step.regular
    {cfg' : Config}
    (hStep : Step NoSplit cfg cfg') :
    RegularStep cfg cfg' := by
  rcases hStep.does with ⟨act, events, hDoes, hAct⟩
  refine ⟨act, events, ?_, hDoes⟩
  cases act with
  | kmalloc len => exact hAct len rfl
  | kfree p => trivial
  | other => trivial

theorem Step.any
    {allowed : Heap → Nat → Prop}
    {cfg' : Config}
    (hStep : Step allowed cfg cfg') :
    AnyStep cfg cfg' := by
  rcases hStep.does with ⟨act, events, hDoes, _⟩
  exact ⟨act, events, hDoes⟩

/- The search meets no header but those that are listed. -/
theorem Examined.mem
    {len a : Nat}
    {headers : List Nat}
    (hFirst : h.kheapFirst ∈ headers)
    (hNext :
      ∀ b ∈ headers,
        h.mem.read32 (b + 4) ∈ 0 :: headers)
    (hExamined : Examined h len a) :
    a ∈ headers := by
  induction hExamined with
  | first => exact hFirst
  | next _ _ hNull ih =>
      exact (List.mem_cons.mp (hNext _ ih)).resolve_left hNull

/- Nothing that the search can meet is long enough. -/
theorem noSplit_of_headers
    {len : Nat}
    (headers : List Nat)
    (hFirst : h.kheapFirst ∈ headers)
    (hNext :
      ∀ b ∈ headers,
        h.mem.read32 (b + 4) ∈ 0 :: headers)
    (hLeft :
      ∀ b ∈ headers,
        h.mem.read32 (b + 8) / 2 - (len + HEADER_SIZE) ≤
          HEADER_SIZE) :
    NoSplit h len :=
  fun a hExamined _ =>
    hLeft a (hExamined.mem hFirst hNext)

------------------------------------------------------------
-- A Run without a Split, and One with a Split
------------------------------------------------------------

/- An empty heap: the first four mebibytes are mapped. -/
def emptyHeap : Heap where
  mem := fun _ => 0
  mapping :=
    fun page =>
      if page < 0x400 then
        some (page * PAGE_SIZE)
      else
        none
  kheapMax := KHEAP_START
  kheapFirst := 0
  frames := [0x400000]
  frameBytes := fun _ _ => 0
  freed := []

/- After two calls of `kmalloc`. -/
def firstHeap : Heap :=
  EStateM.endState (kmalloc 2 100) emptyHeap

def secondHeap : Heap :=
  EStateM.endState (kmalloc 2 20) firstHeap

/- The first chunk is free again. -/
def freedHeap : Heap :=
  EStateM.endState (kfree 2 0xF000000C) secondHeap

/- It is taken whole, twelve bytes being left over. -/
def exactHeap : Heap :=
  EStateM.endState (kmalloc 2 88) freedHeap

/- It is split. -/
def splitHeap : Heap :=
  EStateM.endState (kmalloc 2 20) freedHeap

/- The header of the second chunk is now a free chunk. -/
def reusedHeap : Heap :=
  EStateM.endState (kmalloc 3 20) splitHeap

theorem kmalloc_first :
    (kmalloc 2 100).run emptyHeap =
      .ok 0xF000000C firstHeap :=
  EStateM.run_eq_of_value (by decide)

theorem kmalloc_second :
    (kmalloc 2 20).run firstHeap =
      .ok 0xF000007C secondHeap :=
  EStateM.run_eq_of_value (by decide)

theorem kfree_first :
    (kfree 2 0xF000000C).run secondHeap =
      .ok () freedHeap :=
  EStateM.run_eq_of_value (by decide)

theorem kmalloc_exact :
    (kmalloc 2 88).run freedHeap =
      .ok 0xF000000C exactHeap :=
  EStateM.run_eq_of_value (by decide)

theorem kmalloc_split :
    (kmalloc 2 20).run freedHeap =
      .ok 0xF000000C splitHeap :=
  EStateM.run_eq_of_value (by decide)

theorem kmalloc_reused :
    (kmalloc 3 20).run splitHeap =
      .ok 0xF000007C reusedHeap :=
  EStateM.run_eq_of_value (by decide)

/- The one chunk there is is allocated. -/
theorem noSplit_firstHeap : NoSplit firstHeap 20 := by
  intro a hExamined hFits
  have hMem : a ∈ [0xF0000000] :=
    hExamined.mem (by decide +kernel) (by decide +kernel)
  have hTaken : firstHeap.mem.read32 (0xF0000000 + 8) % 2 = 1 := by
    decide +kernel
  rw [List.mem_singleton.mp hMem] at hFits
  exact absurd (hTaken.symm.trans hFits.1) Nat.one_ne_zero

/- The free chunk leaves no more than a header. -/
theorem noSplit_freedHeap : NoSplit freedHeap 88 :=
  noSplit_of_headers [0xF0000000, 0xF0000070]
    (by decide +kernel) (by decide +kernel)
    (by decide +kernel)

attribute [irreducible]
  firstHeap secondHeap freedHeap exactHeap splitHeap
  reusedHeap

theorem fresh_emptyHeap : Fresh ⟨emptyHeap, []⟩ := by
  refine ⟨⟨rfl, rfl, rfl⟩, ?_⟩
  intro page hLo _
  unfold KHEAP_START PAGE_SIZE at hLo
  exact if_neg (show ¬ page < 0x400 by omega)

/- On the empty heap nothing is searched. -/
theorem noSplit_emptyHeap (len : Nat) :
    NoSplit emptyHeap len := by
  have hNone :
      ∀ a, ¬ Examined emptyHeap (len + HEADER_SIZE) a := by
    intro a hExamined
    induction hExamined with
    | first hFirst => exact hFirst rfl
    | next _ _ _ ih => exact ih
  intro a hExamined
  exact absurd hExamined (hNone a)

/- The first call, which splits nothing. -/
theorem fresh_firstHeap :
    Reachable Fresh (Step NoSplit)
      ⟨firstHeap, [(0xF000000C, 100)]⟩ :=
  .step (.start fresh_emptyHeap)
    (.kmalloc 2 100 (by decide) (noSplit_emptyHeap 100)
      kmalloc_first)

theorem reachable_firstHeap :
    Reachable Empty (Step NoSplit)
      ⟨firstHeap, [(0xF000000C, 100)]⟩ :=
  fresh_firstHeap.mono (fun _ hFresh => hFresh.1)
    (fun _ _ hStep => hStep)

theorem regular_firstHeap :
    Reachable Empty RegularStep
      ⟨firstHeap, [(0xF000000C, 100)]⟩ :=
  reachable_firstHeap.mono (fun _ hEmpty => hEmpty)
    (fun _ _ hStep => hStep.regular)

/- The second call appends a chunk. -/
theorem fresh_secondHeap :
    Reachable Fresh (Step NoSplit)
      ⟨secondHeap, [(0xF000007C, 20), (0xF000000C, 100)]⟩ :=
  .step fresh_firstHeap
    (.kmalloc 2 20 (by decide) noSplit_firstHeap
      kmalloc_second)

/- A chunk is freed, and allocated again. -/
theorem fresh_exactHeap :
    Reachable Fresh (Step NoSplit)
      ⟨exactHeap, [(0xF000000C, 88), (0xF000007C, 20)]⟩ := by
  have hFreed :
      Reachable Fresh (Step NoSplit)
        ⟨freedHeap, [(0xF000007C, 20)]⟩ :=
    .step fresh_secondHeap
      (.kfree 2 0xF000000C 100 (by simp) kfree_first)
  exact .step hFreed
    (.kmalloc 2 88 (by decide) noSplit_freedHeap
      kmalloc_exact)

/- The run up to the split. -/
theorem fresh_freedHeap :
    Reachable Fresh (Step AnyLen)
      ⟨freedHeap, [(0xF000007C, 20)]⟩ := by
  have hFirst :
      Reachable Fresh (Step AnyLen)
        ⟨firstHeap, [(0xF000000C, 100)]⟩ :=
    .step (.start fresh_emptyHeap)
      (.kmalloc 2 100 (by decide) trivial kmalloc_first)
  have hSecond :
      Reachable Fresh (Step AnyLen)
        ⟨secondHeap,
          [(0xF000007C, 20), (0xF000000C, 100)]⟩ :=
    .step hFirst
      (.kmalloc 2 20 (by decide) trivial kmalloc_second)
  exact .step hSecond
    (.kfree 2 0xF000000C 100 (by simp) kfree_first)

theorem reachable_freedHeap :
    Reachable Empty (Step AnyLen)
      ⟨freedHeap, [(0xF000007C, 20)]⟩ :=
  fresh_freedHeap.mono (fun _ hFresh => hFresh.1)
    (fun _ _ hStep => hStep)

theorem reachable_splitHeap :
    Reachable Empty (Step AnyLen)
      ⟨splitHeap, [(0xF000000C, 20), (0xF000007C, 20)]⟩ :=
  .step reachable_freedHeap
    (.kmalloc 2 20 (by decide) trivial kmalloc_split)

end Kheap

end SosKernel
