import SosKernel.Lib.Tracing
import SosKernel.Vmm.GiveBack

/-
  `diff_directories`, with what it prints and where it reads
  in the windows of the page tables.

  Main declarations:
    * `Event`, `diffDirectories`
    * `TableDiffers`, `Reports`: what it is for
    * `Machine.bothMounted`: memory while it compares
    * `FirstTables`, `FirstDiffer`: when it is right
    * `diff_directories_iff`
-/

------------------------------------------------------------
-- The Function
------------------------------------------------------------

namespace SosKernel

namespace Vmm

namespace Diff

/-
  A call of `kprintf`, and an access to `pages[n]` of one of
  the two mount points.
-/
inductive Event where
| printed (format : String) (args : List Nat)
| accessed (n : Nat)
deriving DecidableEq, Repr

abbrev DiffM := EStateM Stop (WithTrace Machine Event)

def kprintf (format : String) (args : List Nat) : DiffM Unit :=
  EStateM.record fun _ => .printed format args

def loadEntry (mount : Mount) (pd : Nat) : DiffM Nat :=
  EStateM.lift (loadAt mount.directory pd)

def loadPage (mount : Mount) (n : Nat) : DiffM Nat := do
  EStateM.record fun _ => .accessed n
  EStateM.lift (loadAt mount.pages n)

/- The inner loop has the index `pg`, and not `pd`, too. -/
def diffPage (amp bmp : Mount) (pd pg : Nat) : DiffM Unit := do
  if (← loadPage amp pg) ≠ (← loadPage bmp pg) then
    kprintf "page: %d\n" [pd * 1024 + pg]

def diffDir (amp bmp : Mount) (pd : Nat) : DiffM Unit := do
  if (← loadEntry amp pd) ≠ (← loadEntry bmp pd) then
    kprintf "dir: %d\n" [pd]

/- The second test is of `amp` again. -/
def diffTables (amp bmp : Mount) (pd : Nat) : DiffM Unit := do
  if (← loadEntry amp pd) ≠ 0 then
    if (← loadEntry amp pd) ≠ 0 then
      EStateM.upTo (diffPage amp bmp pd) 1024

def diffEntry (amp bmp : Mount) (pd : Nat) : DiffM Unit := do
  diffDir amp bmp pd
  diffTables amp bmp pd

def diffEntries (amp bmp : Mount) : DiffM Unit :=
  EStateM.upTo (diffEntry amp bmp) 1024

/- What follows the first line of the output. -/
def diffMounted (amp bmp : Mount) : DiffM Unit := do
  diffEntries amp bmp
  kprintf "end diff\n" []
  EStateM.lift (umountDirectory amp)
  EStateM.lift (umountDirectory bmp)

def diffDirectories (adir bdir : DirPtr) : DiffM Unit := do
  let amp ← EStateM.lift (mountDirectory adir)
  let bmp ← EStateM.lift (mountDirectory bdir)
  kprintf "start diff\n" []
  diffMounted amp bmp

------------------------------------------------------------
-- What It Is For
------------------------------------------------------------

variable {m : Machine}
variable {d : PageDirectory}
variable {t mt tk k p w p' w' fa fb ta tb : Nat}

/- Both directories have a table at `pd`. -/
def BothTables (ram : ByteMemory) (fa fb pd : Nat) : Prop :=
  (ram.entry fa pd).isSome ∧ (ram.entry fb pd).isSome

/- Both have a table at `pd`, with different entries `pg`. -/
def TableDiffers
    (ram : ByteMemory)
    (fa fb pd pg : Nat) : Prop :=
  ∃ ta tb,
    ram.entry fa pd = some ta ∧ ram.entry fb pd = some tb ∧
      ram.word ta pg ≠ ram.word tb pg

/- What is printed, and which tables are looked at. -/
structure Reports
    (ram : ByteMemory)
    (fa fb : Nat)
    (events : List Event) : Prop where
  dirs :
    ∀ pd, pd < 1024 →
      (.printed "dir: %d\n" [pd] ∈ events ↔
        ram.word fa pd ≠ ram.word fb pd)
  pages :
    ∀ pd pg, pd < 1024 → pg < 1024 →
      (.printed "page: %d\n" [pd * 1024 + pg] ∈ events ↔
        TableDiffers ram fa fb pd pg)
  accesses :
    ∀ n, .accessed n ∈ events →
      BothTables ram fa fb (n / 1024)

------------------------------------------------------------
-- Two Mounts
------------------------------------------------------------

/- Both directories are mounted. -/
structure Comparing
    (m : Machine)
    (d : PageDirectory)
    (t mt tk k p w p' w' fa fb : Nat) : Prop where
  setup : Setup m d t mt tk k
  a : MountedAt m mt p w fa
  b : MountedAt m mt p' w' fb

/- Two directories are mounted one after the other. -/
theorem comparing_mountBoth
    {ps ws : List Nat}
    (hSetup : Setup m d t mt tk k)
    (hPages : emptyPages m mt = p :: p' :: ps)
    (hWindows : emptyWindows m = w :: w' :: ws)
    (hfa : fa < 2 ^ 32)
    (hfb : fb < 2 ^ 32)
    (hAlignedA : fa % 4096 = 0)
    (hAlignedB : fb % 4096 = 0) :
    Comparing (m.withRam (mountBoth m mt fa p w p' w' fb))
      d t mt tk k p w p' w' fa fb := by
  have hmt := hSetup.mountTable_aligned
  have hRoot := root_aligned m
  have hApart := hSetup.apart
  rcases hSetup.slots hPages hWindows with
    ⟨hSlot, hSlot', hNePage, hNeWindow⟩
  have hSetup' := hSetup.mount (x := fa) hSlot
  have hFirst := hSetup.mountedAt hSlot hfa
  have hSecond := hSetup'.mountedAt hSlot' hfb
  rw [pageAddr_of_aligned hAlignedA] at hFirst
  rw [pageAddr_of_aligned hAlignedB] at hSecond
  have hIs := hSlot
  unfold IsSlot at hIs
  refine ⟨hSetup'.mount hSlot', ?_, hSecond⟩
  refine hFirst.congr rfl ?_ ?_
  · exact word_mountRam hmt hRoot hmt hSlot' (by omega)
      (.inr hNePage) (.inl hApart)
  · exact word_mountRam hmt hRoot hRoot hSlot' (by omega)
      (.inl hApart.symm) (.inr hNeWindow)

namespace Comparing

variable {pd pg n : Nat}

theorem run_loadEntry_a
    (hComparing : Comparing m d t mt tk k p w p' w' fa fb)
    (trace : List Event)
    (hpd : pd < 1024) :
    (loadEntry (mountAt p w) pd).run ⟨m, trace⟩ =
      .ok (m.ram.word fa pd) ⟨m, trace⟩ :=
  EStateM.run_lift_ok
    ((hComparing.a.maps hComparing.setup).shows.loadAt hpd)

theorem run_loadEntry_b
    (hComparing : Comparing m d t mt tk k p w p' w' fa fb)
    (trace : List Event)
    (hpd : pd < 1024) :
    (loadEntry (mountAt p' w') pd).run ⟨m, trace⟩ =
      .ok (m.ram.word fb pd) ⟨m, trace⟩ :=
  EStateM.run_lift_ok
    ((hComparing.b.maps hComparing.setup).shows.loadAt hpd)

end Comparing

/- A window of page tables, with a table at the index. -/
theorem run_loadPage
    {f n : Nat}
    (trace : List Event)
    (hMounted : MountedAt m mt p w f)
    (hSetup : Setup m d t mt tk k)
    (hn : n < 2 ^ 20)
    (hEntry : m.ram.entry f (n / 1024) = some ta) :
    (loadPage (mountAt p w) n).run ⟨m, trace⟩ =
      .ok (m.ram.word ta (n % 1024))
        ⟨m, trace ++ [.accessed n]⟩ := by
  unfold loadPage
  rw [EStateM.bind_of_ok (EStateM.run_record _ _)]
  exact EStateM.run_lift_ok
    ((hMounted.tables hSetup).loadAt hn hEntry)

/- Without a table there is nothing to read. -/
theorem loadPage_faults
    {f n v : Nat}
    {s s' : WithTrace Machine Event}
    (hState : s.state = m)
    (hMounted : MountedAt m mt p w f)
    (hSetup : Setup m d t mt tk k)
    (hn : n < 1024)
    (hNone : m.ram.entry f 0 = none) :
    (loadPage (mountAt p w) n).run s ≠ .ok v s' := by
  intro hRun
  subst hState
  unfold loadPage at hRun
  rw [EStateM.bind_of_ok (EStateM.run_record _ _)] at hRun
  rcases load32_ok (EStateM.lift_eq_ok hRun) with
    ⟨pa, hAt, _, _⟩
  have hSlot := hMounted.slot
  unfold IsSlot at hSlot
  have hIndex :
      index (mountAt p w).pages n = 2 ^ 22 * w + 4 * n := by
    have hLt : 2 ^ 22 * w + 4 * n < 2 ^ 32 := by omega
    exact add32_of_lt hLt
  have hPage : (2 ^ 22 * w + 4 * n) / 4096 = 1024 * w := by
    omega
  have hDir : 1024 * w / 1024 = w := by omega
  have hTab : 1024 * w % 1024 = 0 := by omega
  have hWindow :
      s.state.ram.entry s.state.root (1024 * w / 1024) =
        some f := by
    rw [hDir]
    exact hMounted.window
  have hWalk :
      s.state.ram.walk s.state.root (2 ^ 22 * w + 4 * n) =
        none := by
    unfold ByteMemory.walk
    rw [hPage, ByteMemory.pageAt_of_entry hWindow, hTab,
      hNone]
    rfl
  change s.state.translate _ = _ at hAt
  rw [hIndex] at hAt
  unfold Machine.translate at hAt
  rw [if_pos hSetup.self.maps.paging] at hAt
  change s.state.ram.walk s.state.root _ = _ at hAt
  rw [hWalk] at hAt
  cases hAt

------------------------------------------------------------
-- The Loops
------------------------------------------------------------

/- What the inner loop does for one index. -/
def pageEvents
    (ram : ByteMemory)
    (ta tb pd pg : Nat) : List Event :=
  .accessed pg :: .accessed pg ::
    if ram.word ta pg ≠ ram.word tb pg then
      [.printed "page: %d
" [pd * 1024 + pg]]
    else
      []

def dirEvents
    (ram : ByteMemory)
    (fa fb pd : Nat) : List Event :=
  if ram.word fa pd ≠ ram.word fb pd then
    [.printed "dir: %d\n" [pd]]
  else
    []

def tableEvents
    (ram : ByteMemory)
    (fa ta tb pd : Nat) : List Event :=
  if ram.word fa pd ≠ 0 then
    (List.range 1024).flatMap (pageEvents ram ta tb pd)
  else
    []

theorem Comparing.run_diffPage
    {pg : Nat}
    (hComparing : Comparing m d t mt tk k p w p' w' fa fb)
    (trace : List Event)
    (pd : Nat)
    (hpg : pg < 1024)
    (hA : m.ram.entry fa 0 = some ta)
    (hB : m.ram.entry fb 0 = some tb) :
    (diffPage (mountAt p w) (mountAt p' w') pd pg).run
        ⟨m, trace⟩ =
      .ok ()
        ⟨m, trace ++ pageEvents m.ram ta tb pd pg⟩ := by
  have hDiv : pg / 1024 = 0 := Nat.div_eq_of_lt hpg
  have hMod : pg % 1024 = pg := Nat.mod_eq_of_lt hpg
  rw [← hDiv] at hA hB
  have hLoadA :=
    run_loadPage trace hComparing.a hComparing.setup
      (by omega) hA
  have hLoadB :=
    run_loadPage (trace ++ [.accessed pg]) hComparing.b
      hComparing.setup (by omega) hB
  rw [hMod] at hLoadA hLoadB
  unfold diffPage
  rw [EStateM.bind_of_ok hLoadA, EStateM.bind_of_ok hLoadB]
  unfold pageEvents
  by_cases hNe : m.ram.word ta pg ≠ m.ram.word tb pg
  · rw [if_pos hNe, if_pos hNe]
    unfold kprintf
    rw [EStateM.run_record]
    unfold WithTrace.push
    rw [List.append_assoc, List.append_assoc]
    rfl
  · rw [if_neg hNe, if_neg hNe, List.append_assoc]
    rfl

theorem Comparing.run_diffDir
    {pd : Nat}
    (hComparing : Comparing m d t mt tk k p w p' w' fa fb)
    (trace : List Event)
    (hpd : pd < 1024) :
    (diffDir (mountAt p w) (mountAt p' w') pd).run
        ⟨m, trace⟩ =
      .ok () ⟨m, trace ++ dirEvents m.ram fa fb pd⟩ := by
  unfold diffDir dirEvents
  rw [EStateM.bind_of_ok
      (hComparing.run_loadEntry_a trace hpd),
    EStateM.bind_of_ok (hComparing.run_loadEntry_b trace hpd)]
  by_cases hNe : m.ram.word fa pd ≠ m.ram.word fb pd
  · rw [if_pos hNe, if_pos hNe]
    rfl
  · rw [if_neg hNe, if_neg hNe, List.append_nil]
    rfl

theorem Comparing.run_diffTables
    {pd : Nat}
    (hComparing : Comparing m d t mt tk k p w p' w' fa fb)
    (trace : List Event)
    (hpd : pd < 1024)
    (hTables :
      m.ram.word fa pd ≠ 0 →
        m.ram.entry fa 0 = some ta ∧
          m.ram.entry fb 0 = some tb) :
    (diffTables (mountAt p w) (mountAt p' w') pd).run
        ⟨m, trace⟩ =
      .ok () ⟨m, trace ++ tableEvents m.ram fa ta tb pd⟩ := by
  unfold diffTables tableEvents
  rw [EStateM.bind_of_ok
    (hComparing.run_loadEntry_a trace hpd)]
  by_cases hUsed : m.ram.word fa pd ≠ 0
  · rcases hTables hUsed with ⟨hA, hB⟩
    rw [if_pos hUsed, if_pos hUsed,
      EStateM.bind_of_ok
        (hComparing.run_loadEntry_a trace hpd),
      if_pos hUsed]
    apply EStateM.run_upTo_trace
    intro pg trace hpg
    exact hComparing.run_diffPage trace pd hpg hA hB
  · rw [if_neg hUsed, if_neg hUsed, List.append_nil]
    rfl

theorem state_of_loadPage
    {mount : Mount}
    {n v : Nat}
    {s s' : WithTrace Machine Event}
    (hRun : (loadPage mount n).run s = .ok v s') :
    s'.state = s.state := by
  unfold loadPage at hRun
  rw [EStateM.bind_of_ok (EStateM.run_record _ _)] at hRun
  have hLoad := EStateM.lift_eq_ok hRun
  exact loadAt_ok hLoad

/- The inner loop begins with the first tables. -/
theorem Comparing.tables_of_diffPage
    {pd : Nat}
    {s s' : WithTrace Machine Event}
    (hComparing : Comparing m d t mt tk k p w p' w' fa fb)
    (hState : s.state = m)
    (hRun :
      (diffPage (mountAt p w) (mountAt p' w') pd 0).run s =
        .ok () s') :
    BothTables m.ram fa fb 0 := by
  unfold diffPage at hRun
  rw [EStateM.bind_eq_ok_iff] at hRun
  rcases hRun with ⟨_, s₁, hA, hRun⟩
  rw [EStateM.bind_eq_ok_iff] at hRun
  rcases hRun with ⟨_, s₂, hB, _⟩
  have hState₁ : s₁.state = m :=
    (state_of_loadPage hA).trans hState
  constructor
  · rw [Option.isSome_iff_ne_none]
    intro hNone
    exact loadPage_faults hState hComparing.a
      hComparing.setup (by decide) hNone hA
  · rw [Option.isSome_iff_ne_none]
    intro hNone
    exact loadPage_faults hState₁ hComparing.b
      hComparing.setup (by decide) hNone hB

/- An entry that is used needs the two first tables. -/
theorem Comparing.tables_of_diffTables
    {pd : Nat}
    {trace : List Event}
    {s : WithTrace Machine Event}
    (hComparing : Comparing m d t mt tk k p w p' w' fa fb)
    (hpd : pd < 1024)
    (hRun :
      (diffTables (mountAt p w) (mountAt p' w') pd).run
        ⟨m, trace⟩ = .ok () s)
    (hUsed : m.ram.word fa pd ≠ 0) :
    BothTables m.ram fa fb 0 := by
  unfold diffTables at hRun
  rw [EStateM.bind_of_ok
      (hComparing.run_loadEntry_a trace hpd), if_pos hUsed,
    EStateM.bind_of_ok
      (hComparing.run_loadEntry_a trace hpd), if_pos hUsed]
    at hRun
  by_contra hNone
  -- the first round does not return
  have hLoop :=
    EStateM.upTo_invariant
      (I := fun i s => i = 0 ∧ s.state = m) hRun ⟨rfl, rfl⟩
      (by
        rintro i s s' _ ⟨rfl, hState⟩ hBody
        exact absurd
          (hComparing.tables_of_diffPage hState hBody) hNone)
  exact absurd hLoop.1 (by decide)

------------------------------------------------------------
-- When It Is Right
------------------------------------------------------------

/- A directory with entries has its first table, as has `b`. -/
def FirstTables (ram : ByteMemory) (fa fb : Nat) : Prop :=
  (∃ pd, pd < 1024 ∧ ram.word fa pd ≠ 0) →
    BothTables ram fa fb 0

/-
  The tables differ where the first ones do, at each entry
  that `a` has, and nowhere else.
-/
def DifferAsFirst (ram : ByteMemory) (fa fb : Nat) : Prop :=
  ∀ pd pg, pd < 1024 → pg < 1024 →
    (TableDiffers ram fa fb pd pg ↔
      ram.word fa pd ≠ 0 ∧ TableDiffers ram fa fb 0 pg)

def allEvents
    (ram : ByteMemory)
    (fa fb ta tb : Nat) : List Event :=
  [.printed "start diff\n" []] ++
    (List.range 1024).flatMap (fun pd =>
      dirEvents ram fa fb pd ++
        tableEvents ram fa ta tb pd) ++
    [.printed "end diff\n" []]

section

variable {ram : ByteMemory}
variable {pd pg n : Nat}
variable {event : Event}

theorem mem_dirEvents :
    event ∈ dirEvents ram fa fb pd ↔
      ram.word fa pd ≠ ram.word fb pd ∧
        event = .printed "dir: %d\n" [pd] := by
  unfold dirEvents
  by_cases hNe : ram.word fa pd ≠ ram.word fb pd
  · rw [if_pos hNe, List.mem_singleton]
    exact (and_iff_right hNe).symm
  · rw [if_neg hNe]
    exact iff_of_false List.not_mem_nil fun h => hNe h.1

theorem mem_pageEvents :
    event ∈ pageEvents ram ta tb pd pg ↔
      event = .accessed pg ∨
        ram.word ta pg ≠ ram.word tb pg ∧
          event = .printed "page: %d\n" [pd * 1024 + pg] := by
  unfold pageEvents
  rw [List.mem_cons, List.mem_cons, ← or_assoc, or_self]
  refine or_congr_right ?_
  by_cases hNe : ram.word ta pg ≠ ram.word tb pg
  · rw [if_pos hNe, List.mem_singleton]
    exact (and_iff_right hNe).symm
  · rw [if_neg hNe]
    exact iff_of_false List.not_mem_nil fun h => hNe h.1

theorem mem_tableEvents :
    event ∈ tableEvents ram fa ta tb pd ↔
      ram.word fa pd ≠ 0 ∧
        ∃ pg, pg < 1024 ∧
          event ∈ pageEvents ram ta tb pd pg := by
  unfold tableEvents
  by_cases hUsed : ram.word fa pd ≠ 0
  · rw [if_pos hUsed, List.mem_flatMap]
    simp only [List.mem_range]
    exact (and_iff_right hUsed).symm
  · rw [if_neg hUsed]
    exact iff_of_false List.not_mem_nil fun h => hUsed h.1

theorem mem_allEvents :
    event ∈ allEvents ram fa fb ta tb ↔
      event = .printed "start diff\n" [] ∨
        (∃ pd, pd < 1024 ∧
          (event ∈ dirEvents ram fa fb pd ∨
            event ∈ tableEvents ram fa ta tb pd)) ∨
        event = .printed "end diff\n" [] := by
  unfold allEvents
  rw [List.mem_append, List.mem_append, List.mem_singleton,
    List.mem_singleton, List.mem_flatMap, or_assoc]
  simp only [List.mem_range, List.mem_append]

theorem dir_mem_allEvents
    (hpd : pd < 1024) :
    .printed "dir: %d\n" [pd] ∈ allEvents ram fa fb ta tb ↔
      ram.word fa pd ≠ ram.word fb pd := by
  rw [mem_allEvents]
  constructor
  · rintro (hStart | ⟨pd', _, hDir | hTable⟩ | hEnd)
    · exact absurd (Event.printed.inj hStart).1 (by decide)
    · rcases mem_dirEvents.mp hDir with ⟨hNe, hSame⟩
      cases hSame
      exact hNe
    · rcases mem_tableEvents.mp hTable with ⟨_, pg, _, hPage⟩
      rcases mem_pageEvents.mp hPage with hSame | ⟨_, hSame⟩
      · cases hSame
      · exact absurd (Event.printed.inj hSame).1 (by decide)
    · exact absurd (Event.printed.inj hEnd).1 (by decide)
  · intro hNe
    exact .inr (.inl ⟨pd, hpd,
      .inl (mem_dirEvents.mpr ⟨hNe, rfl⟩)⟩)

theorem page_mem_allEvents
    (hpd : pd < 1024)
    (hpg : pg < 1024) :
    .printed "page: %d\n" [pd * 1024 + pg] ∈
        allEvents ram fa fb ta tb ↔
      ram.word fa pd ≠ 0 ∧
        ram.word ta pg ≠ ram.word tb pg := by
  rw [mem_allEvents]
  constructor
  · rintro (hStart | ⟨pd', _, hDir | hTable⟩ | hEnd)
    · exact absurd (Event.printed.inj hStart).1 (by decide)
    · rcases mem_dirEvents.mp hDir with ⟨_, hSame⟩
      exact absurd (Event.printed.inj hSame).1 (by decide)
    · rcases mem_tableEvents.mp hTable with
        ⟨hUsed, pg', hpg', hPage⟩
      rcases mem_pageEvents.mp hPage with hSame | ⟨hNe, hSame⟩
      · cases hSame
      · have hIndex :=
          List.singleton_inj.mp (Event.printed.inj hSame).2
        have hPd : pd' = pd := by omega
        have hPg : pg' = pg := by omega
        subst hPd
        subst hPg
        exact ⟨hUsed, hNe⟩
    · exact absurd (Event.printed.inj hEnd).1 (by decide)
  · rintro ⟨hUsed, hNe⟩
    have hPage :
        .printed "page: %d\n" [pd * 1024 + pg] ∈
          pageEvents ram ta tb pd pg :=
      mem_pageEvents.mpr (.inr ⟨hNe, rfl⟩)
    exact .inr (.inl ⟨pd, hpd,
      .inr (mem_tableEvents.mpr ⟨hUsed, pg, hpg, hPage⟩)⟩)

theorem accessed_mem_allEvents
    (hMem : .accessed n ∈ allEvents ram fa fb ta tb) :
    n / 1024 = 0 ∧ ∃ pd, pd < 1024 ∧ ram.word fa pd ≠ 0 := by
  rcases mem_allEvents.mp hMem with
    hStart | ⟨pd, hpd, hDir | hTable⟩ | hEnd
  · cases hStart
  · cases (mem_dirEvents.mp hDir).2
  · rcases mem_tableEvents.mp hTable with
      ⟨hUsed, pg, hpg, hPage⟩
    rcases mem_pageEvents.mp hPage with hSame | ⟨_, hSame⟩
    · cases hSame
      exact ⟨Nat.div_eq_of_lt hpg, pd, hpd, hUsed⟩
    · cases hSame
  · cases hEnd

/- What is printed is right if the tables differ so. -/
theorem reports_allEvents_iff
    (hTables :
      (∃ pd, pd < 1024 ∧ ram.word fa pd ≠ 0) →
        ram.entry fa 0 = some ta ∧
          ram.entry fb 0 = some tb) :
    Reports ram fa fb (allEvents ram fa fb ta tb) ↔
      DifferAsFirst ram fa fb := by
  have hPage :
      ∀ pd pg, pd < 1024 →
        (ram.word fa pd ≠ 0 ∧
            ram.word ta pg ≠ ram.word tb pg ↔
          ram.word fa pd ≠ 0 ∧
            TableDiffers ram fa fb 0 pg) := by
    intro pd pg hpd
    refine and_congr_right ?_
    intro hUsed
    rcases hTables ⟨pd, hpd, hUsed⟩ with ⟨hA, hB⟩
    constructor
    · intro hNe
      exact ⟨ta, tb, hA, hB, hNe⟩
    · rintro ⟨ta', tb', hA', hB', hNe⟩
      rw [hA] at hA'
      rw [hB] at hB'
      cases hA'
      cases hB'
      exact hNe
  constructor
  · intro hReports pd pg hpd hpg
    rw [← hReports.pages pd pg hpd hpg,
      page_mem_allEvents hpd hpg]
    exact hPage pd pg hpd
  · intro hDiffer
    refine { dirs := ?_, pages := ?_, accesses := ?_ }
    · intro pd hpd
      exact dir_mem_allEvents hpd
    · intro pd pg hpd hpg
      rw [page_mem_allEvents hpd hpg, hPage pd pg hpd]
      exact (hDiffer pd pg hpd hpg).symm
    · intro n hMem
      rcases accessed_mem_allEvents hMem with ⟨hZero, hUsed⟩
      rcases hTables hUsed with ⟨hA, hB⟩
      rw [hZero]
      constructor
      · rw [hA]
        rfl
      · rw [hB]
        rfl

end

------------------------------------------------------------
-- The Whole Call
------------------------------------------------------------

/-
  The memory while the two directories in the frames `fa` and
  `fb` are mounted.
-/
def bothMounted (m : Machine) (fa fb : Nat) : ByteMemory :=
  match
    m.ram.entry m.root (pgdirIdxFromAddr MOUNT_DIR_START)
  with
  | none => m.ram
  | some mt =>
      match emptyPages m mt, emptyWindows m with
      | p :: p' :: _, w :: w' :: _ =>
          mountBoth m mt fa p w p' w' fb
      | _, _ => m.ram

theorem bothMounted_eq
    {ps ws : List Nat}
    (hSetup : Setup m d t mt tk k)
    (hPages : emptyPages m mt = p :: p' :: ps)
    (hWindows : emptyWindows m = w :: w' :: ws) :
    bothMounted m fa fb = mountBoth m mt fa p w p' w' fb := by
  unfold bothMounted
  rw [hSetup.mountTable]
  dsimp only
  rw [hPages, hWindows]

/- Only the current directory and the mount table change. -/
theorem word_bothMounted
    {g j : Nat}
    {ps ws : List Nat}
    (hSetup : Setup m d t mt tk k)
    (hPages : emptyPages m mt = p :: p' :: ps)
    (hWindows : emptyWindows m = w :: w' :: ws)
    (hg : g % 4096 = 0)
    (hj : j < 1024)
    (hRoot : g ≠ m.root)
    (hTable : g ≠ mt) :
    (bothMounted m fa fb).word g j = m.ram.word g j := by
  rcases hSetup.slots hPages hWindows with
    ⟨hSlot, hSlot', _, _⟩
  have hmt := hSetup.mountTable_aligned
  have hAligned := root_aligned m
  rw [bothMounted_eq hSetup hPages hWindows]
  unfold mountBoth
  rw [word_mountRam hmt hAligned hg hSlot' hj (.inl hTable)
      (.inl hRoot),
    word_mountRam hmt hAligned hg hSlot hj (.inl hTable)
      (.inl hRoot)]

/- The call returns, and what it prints is right. -/
def DiffRight
    (m : Machine)
    (adir bdir : DirPtr)
    (fa fb : Nat) : Prop :=
  ∃ s,
    (diffDirectories adir bdir).run ⟨m, []⟩ = .ok () s ∧
      Reports (bothMounted m fa fb) fa fb s.trace

theorem run_kprintf
    (format : String)
    (args : List Nat)
    (trace : List Event) :
    (kprintf format args).run ⟨m, trace⟩ =
      .ok () ⟨m, trace ++ [.printed format args]⟩ := rfl

/- The two directories are mounted. -/
theorem run_diffDirectories
    {adir bdir : DirPtr}
    {ra rb : PageDirectory}
    {ps ws : List Nat}
    (hSetup : Setup m d t mt tk k)
    (hPages : emptyPages m mt = p :: p' :: ps)
    (hWindows : emptyWindows m = w :: w' :: ws)
    (hA : m.dirAt adir = some ra)
    (hB : m.dirAt bdir = some rb)
    (hLt : ra.physical < 2 ^ 32) :
    (diffDirectories adir bdir).run ⟨m, []⟩ =
      (diffMounted (mountAt p w) (mountAt p' w')).run
        ⟨m.withRam
          (mountBoth m mt ra.physical p w p' w' rb.physical),
          [.printed "start diff\n" []]⟩ := by
  rcases isSlot_of_mem hPages hWindows with ⟨hSlot, _, _⟩
  have hFirst :=
    hSetup.run_mountDirectory hPages hWindows hA
  rcases hSetup.empty_mount hLt hPages hWindows with
    ⟨hPages', hWindows'⟩
  have hSetup' := hSetup.mount (x := ra.physical) hSlot
  have hSecond :
      (mountDirectory bdir).run
          (m.withRam
            (mountRam m.ram mt m.root p w ra.physical)) =
        .ok (mountAt p' w')
          (m.withRam
            (mountBoth m mt ra.physical p w p' w'
              rb.physical)) :=
    hSetup'.run_mountDirectory hPages' hWindows' hB
  unfold diffDirectories
  rw [EStateM.bind_of_ok (EStateM.run_lift_ok hFirst),
    EStateM.bind_of_ok (EStateM.run_lift_ok hSecond),
    EStateM.bind_of_ok (run_kprintf "start diff\n" [] _),
    List.nil_append]

/- With the first tables, the loop returns. -/
theorem Comparing.run_diffEntries
    (hComparing : Comparing m d t mt tk k p w p' w' fa fb)
    (trace : List Event)
    (hTables :
      (∃ pd, pd < 1024 ∧ m.ram.word fa pd ≠ 0) →
        m.ram.entry fa 0 = some ta ∧
          m.ram.entry fb 0 = some tb) :
    (diffEntries (mountAt p w) (mountAt p' w')).run
        ⟨m, trace⟩ =
      .ok ()
        ⟨m, trace ++
          (List.range 1024).flatMap fun pd =>
            dirEvents m.ram fa fb pd ++
              tableEvents m.ram fa ta tb pd⟩ := by
  unfold diffEntries
  apply EStateM.run_upTo_trace
  intro pd trace hpd
  unfold diffEntry
  rw [EStateM.bind_of_ok (hComparing.run_diffDir trace hpd),
    hComparing.run_diffTables _ hpd fun hUsed =>
      hTables ⟨pd, hpd, hUsed⟩, List.append_assoc]

theorem Comparing.run_diffMounted
    (hComparing : Comparing m d t mt tk k p w p' w' fa fb)
    (hTables :
      (∃ pd, pd < 1024 ∧ m.ram.word fa pd ≠ 0) →
        m.ram.entry fa 0 = some ta ∧
          m.ram.entry fb 0 = some tb) :
    ∃ s,
      (diffMounted (mountAt p w) (mountAt p' w')).run
          ⟨m, [.printed "start diff\n" []]⟩ = .ok () s ∧
        s.trace = allEvents m.ram fa fb ta tb := by
  have hLoop :=
    hComparing.run_diffEntries
      [.printed "start diff\n" []] hTables
  have hUmountA :=
    hComparing.setup.run_umountDirectory hComparing.a.slot
  have hUmountB :
      (umountDirectory (mountAt p' w')).run
          (m.withRam (umountRam m.ram mt m.root p w)) =
        .ok ()
          (m.withRam (umountBoth m.ram m.root mt p w p' w')) :=
    (hComparing.setup.umount
      hComparing.a.slot).run_umountDirectory hComparing.b.slot
  refine
    ⟨⟨m.withRam (umountBoth m.ram m.root mt p w p' w'),
      allEvents m.ram fa fb ta tb⟩, ?_, rfl⟩
  unfold diffMounted allEvents
  rw [EStateM.bind_of_ok hLoop,
    EStateM.bind_of_ok (run_kprintf "end diff\n" [] _),
    EStateM.bind_of_ok (EStateM.run_lift_ok hUmountA),
    EStateM.run_lift_ok hUmountB]

/- Without them, it does not. -/
theorem Comparing.firstTables_of_run
    {trace : List Event}
    {s : WithTrace Machine Event}
    (hComparing : Comparing m d t mt tk k p w p' w' fa fb)
    (hRun :
      (diffEntries (mountAt p w) (mountAt p' w')).run
        ⟨m, trace⟩ = .ok () s) :
    FirstTables m.ram fa fb := by
  by_contra hNone
  unfold FirstTables at hNone
  rw [Classical.not_imp] at hNone
  rcases hNone with ⟨⟨pd, hpd, hUsed⟩, hAbsent⟩
  unfold diffEntries at hRun
  -- no entry before the one reached has been used
  have hLoop :=
    EStateM.upTo_invariant
      (I := fun i s =>
        s.state = m ∧ ∀ j, j < i → m.ram.word fa j = 0)
      hRun ⟨rfl, by omega⟩
      (by
        rintro i ⟨m', trace⟩ s' hi ⟨hState, hBefore⟩ hBody
        have hState : m' = m := hState
        subst hState
        unfold diffEntry at hBody
        rw [EStateM.bind_of_ok
          (hComparing.run_diffDir trace hi)] at hBody
        have hZero : m'.ram.word fa i = 0 := by
          by_contra hUsed
          exact hAbsent
            (hComparing.tables_of_diffTables hi hBody hUsed)
        have hUnused :
            m'.ram.word fa i ≠ 0 →
              m'.ram.entry fa 0 = some 0 ∧
                m'.ram.entry fb 0 = some 0 :=
          fun hUsed => absurd hZero hUsed
        rw [hComparing.run_diffTables _ hi hUnused] at hBody
        cases hBody
        refine ⟨rfl, ?_⟩
        intro j hj
        by_cases hLast : j = i
        · rw [hLast, hZero]
        · exact hBefore j (by omega))
  exact hUsed (hLoop.2 pd hpd)

theorem diffRight_iff
    {adir bdir : DirPtr}
    {ra rb : PageDirectory}
    (hMount : CanMount m k 2 [])
    (hA : m.dirAt adir = some ra)
    (hB : m.dirAt bdir = some rb)
    (hLtA : ra.physical < 2 ^ 32)
    (hLtB : rb.physical < 2 ^ 32)
    (hAlignedA : ra.physical % 4096 = 0)
    (hAlignedB : rb.physical % 4096 = 0) :
    DiffRight m adir bdir ra.physical rb.physical ↔
      FirstTables (bothMounted m ra.physical rb.physical)
          ra.physical rb.physical ∧
        DifferAsFirst
          (bothMounted m ra.physical rb.physical)
          ra.physical rb.physical := by
  rcases hMount with
    ⟨d, t, mt, tk, hSetup, hPages, hWindows, _⟩
  rcases exists_cons_cons hPages with ⟨p, p', ps, hPages⟩
  rcases exists_cons_cons hWindows with ⟨w, w', ws, hWindows⟩
  have hComparing :=
    comparing_mountBoth hSetup hPages hWindows hLtA hLtB
      hAlignedA hAlignedB
  have hRun :=
    run_diffDirectories hSetup hPages hWindows hA hB hLtA
  unfold DiffRight
  rw [hRun, bothMounted_eq hSetup hPages hWindows]
  generalize
    mountBoth m mt ra.physical p w p' w' rb.physical = ram
      at hComparing
  -- the tables that the loop reads
  have hBoth :
      FirstTables ram ra.physical rb.physical →
        ∃ ta tb,
          (∃ pd, pd < 1024 ∧ ram.word ra.physical pd ≠ 0) →
            ram.entry ra.physical 0 = some ta ∧
              ram.entry rb.physical 0 = some tb := by
    intro hFirst
    by_cases hUsed :
        ∃ pd, pd < 1024 ∧ ram.word ra.physical pd ≠ 0
    · rcases hFirst hUsed with ⟨hSomeA, hSomeB⟩
      rcases Option.isSome_iff_exists.mp hSomeA with ⟨ta, hTa⟩
      rcases Option.isSome_iff_exists.mp hSomeB with ⟨tb, hTb⟩
      exact ⟨ta, tb, fun _ => ⟨hTa, hTb⟩⟩
    · exact ⟨0, 0, fun h => absurd h hUsed⟩
  constructor
  · rintro ⟨s, hRun, hReports⟩
    have hLoop := hRun
    unfold diffMounted at hLoop
    rw [EStateM.bind_eq_ok_iff] at hLoop
    rcases hLoop with ⟨_, s₁, hLoop, _⟩
    have hFirst := hComparing.firstTables_of_run hLoop
    rcases hBoth hFirst with ⟨ta, tb, hTables⟩
    rcases hComparing.run_diffMounted hTables with
      ⟨s₂, hRun₂, hTrace⟩
    rw [hRun] at hRun₂
    cases hRun₂
    rw [hTrace] at hReports
    exact ⟨hFirst,
      (reports_allEvents_iff hTables).mp hReports⟩
  · rintro ⟨hFirst, hDiffer⟩
    rcases hBoth hFirst with ⟨ta, tb, hTables⟩
    rcases hComparing.run_diffMounted hTables with
      ⟨s, hRun, hTrace⟩
    refine ⟨s, hRun, ?_⟩
    rw [hTrace]
    exact (reports_allEvents_iff hTables).mpr hDiffer

/-
  For two live directories: the call is right if and only if
  both have a first table, should `a` have any, and their
  tables differ just as the first ones do.
-/
theorem diff_directories_iff
    {m : Machine}
    {k : Nat}
    {adir bdir : DirPtr}
    {ra rb : PageDirectory}
    (hMount : CanMount m k 2 [])
    (hA : m.dirAt adir = some ra)
    (hB : m.dirAt bdir = some rb)
    (hLtA : ra.physical < 2 ^ 32)
    (hLtB : rb.physical < 2 ^ 32)
    (hAlignedA : ra.physical % 4096 = 0)
    (hAlignedB : rb.physical % 4096 = 0) :
    DiffRight m adir bdir ra.physical rb.physical ↔
      FirstTables (bothMounted m ra.physical rb.physical)
          ra.physical rb.physical ∧
        DifferAsFirst
          (bothMounted m ra.physical rb.physical)
          ra.physical rb.physical :=
  diffRight_iff hMount hA hB hLtA hLtB hAlignedA hAlignedB

------------------------------------------------------------
-- Two Directories of Users
------------------------------------------------------------

/-
  Two directories with the kernel's first table, and with a
  table each for entry 64.
-/
def userRam : ByteMemory :=
  ((((kernelRam.setWord
    0x104000 0 0x106003).setWord
    0x105000 0 0x106003).setWord
    0x104000 64 0x107007).setWord
    0x105000 64 0x108007).setWord
    0x107000 0 0x109007

def userRecord (f : Nat) : PageDirectory where
  physical := f
  directory := USER_DIR_VIRTUAL
  pages := USER_TABLES_VIRTUAL

def userMachine : Machine :=
  ((kernelMachine userRam).withRecord (.heap 0xF000000C)
    (userRecord 0x104000)).withRecord (.heap 0xF0000024)
    (userRecord 0x105000)

theorem canMount_userMachine :
    CanMount userMachine 0x101000 2 [] := by
  have hKernel :
      CanMount (kernelMachine userRam) 0x101000 2
        [0x104000, 0x105000] := by
    apply canMount_kernelMachine <;> decide
  rcases hKernel with
    ⟨d, t, mt, tk, hSetup, hPages, hWindows, _⟩
  have hFirst :
      Setup
        ((kernelMachine userRam).withRecord
          (.heap 0xF000000C) (userRecord 0x104000))
        d t mt tk 0x101000 :=
    hSetup.withRecord nofun nofun
  have hSecond : Setup userMachine d t mt tk 0x101000 :=
    hFirst.withRecord nofun nofun
  exact ⟨d, t, mt, tk, hSecond, hPages, hWindows,
    fun _ hf => absurd hf List.not_mem_nil⟩

theorem userMachine_dirs :
    userMachine.dirAt (.heap 0xF000000C) =
        some (userRecord 0x104000) ∧
      userMachine.dirAt (.heap 0xF0000024) =
        some (userRecord 0x105000) :=
  ⟨rfl, rfl⟩

theorem userMachine_diff :
    DiffRight userMachine (.heap 0xF000000C)
        (.heap 0xF0000024) (userRecord 0x104000).physical
        (userRecord 0x105000).physical ↔
      FirstTables
          (bothMounted userMachine
            (userRecord 0x104000).physical
            (userRecord 0x105000).physical)
          (userRecord 0x104000).physical
          (userRecord 0x105000).physical ∧
        DifferAsFirst
          (bothMounted userMachine
            (userRecord 0x104000).physical
            (userRecord 0x105000).physical)
          (userRecord 0x104000).physical
          (userRecord 0x105000).physical :=
  diff_directories_iff canMount_userMachine
    userMachine_dirs.1 userMachine_dirs.2 (by decide)
    (by decide) (by decide) (by decide)

/- The memory at the directories while they are compared. -/
theorem word_userMachine
    {g j : Nat}
    (hg : g % 4096 = 0)
    (hj : j < 1024)
    (hLo : 0x104000 ≤ g) :
    (bothMounted userMachine 0x104000 0x105000).word g j =
      userRam.word g j := by
  rcases canMount_userMachine with
    ⟨d, t, mt, tk, hSetup, hPages, hWindows, _⟩
  rcases exists_cons_cons hPages with ⟨p, p', ps, hPages⟩
  rcases exists_cons_cons hWindows with ⟨w, w', ws, hWindows⟩
  have hRoot : userMachine.root = 0x101000 := by decide
  have hTable : mt = 0x103000 := by
    have hEntry :
        userMachine.ram.entry userMachine.root
          (pgdirIdxFromAddr MOUNT_DIR_START) =
            some 0x103000 := by
      rw [hRoot]
      decide
    rw [hSetup.mountTable] at hEntry
    exact Option.some.inj hEntry
  exact word_bothMounted hSetup hPages hWindows hg hj
    (by omega) (by omega)

/-
  The tables of entry 64 differ in their first page, and
  nothing is printed.
-/
theorem userMachine_wrong :
    ¬ DiffRight userMachine (.heap 0xF000000C)
      (.heap 0xF0000024) 0x104000 0x105000 := by
  have hIff :=
    diffRight_iff canMount_userMachine userMachine_dirs.1
      userMachine_dirs.2 (by decide) (by decide) (by decide)
      (by decide)
  change ¬ DiffRight userMachine _ _
    (userRecord 0x104000).physical
    (userRecord 0x105000).physical
  rw [hIff]
  rintro ⟨_, hDiffer⟩
  have hEntry :
      ∀ g j, g % 4096 = 0 → j < 1024 → 0x104000 ≤ g →
        (bothMounted userMachine 0x104000 0x105000).entry g j =
          userRam.entry g j :=
    fun g j hg hj hLo =>
      ByteMemory.entry_congr (word_userMachine hg hj hLo)
  have hHere :
      TableDiffers (bothMounted userMachine 0x104000 0x105000)
        0x104000 0x105000 64 0 := by
    refine ⟨0x107000, 0x108000, ?_, ?_, ?_⟩
    · rw [hEntry _ _ (by decide) (by decide) (by decide)]
      decide
    · rw [hEntry _ _ (by decide) (by decide) (by decide)]
      decide
    · rw [word_userMachine (by decide) (by decide)
          (by decide),
        word_userMachine (by decide) (by decide) (by decide)]
      decide
  have hFirst :=
    ((hDiffer 64 0 (by decide) (by decide)).mp hHere).2
  rcases hFirst with ⟨ta, tb, hTa, hTb, hNe⟩
  change (bothMounted userMachine 0x104000 0x105000).entry
    0x104000 0 = some ta at hTa
  change (bothMounted userMachine 0x104000 0x105000).entry
    0x105000 0 = some tb at hTb
  rw [hEntry _ _ (by decide) (by decide) (by decide)]
    at hTa hTb
  have hSame : userRam.entry 0x104000 0 =
      userRam.entry 0x105000 0 := by
    decide
  rw [hTa, hTb] at hSame
  cases hSame
  exact hNe rfl

end Diff

end Vmm

end SosKernel
