import SosKernel.Vmm.Boot
import SosKernel.Vmm.GiveBack
import SosKernel.Vmm.AllocateRange

/-
  The mount points, as directories are cloned, made current
  and destroyed.

  Main declarations:
    * `DirectoryCall`, `Run`
    * `MountsClear`, `NeverExhausted`
    * `AtBoot`: before the first clone
    * `mounts_clear_iff`
    * `first_clone_keeps_windows`

  `clone_directory` mounts the source and the clone in the
  current directory.  When that is the source, the copy loop
  reads both entries and gives them to the clone, in which
  nothing ever clears them.
-/

------------------------------------------------------------
-- Runs
------------------------------------------------------------

namespace SosKernel

namespace Vmm

variable {m m' m₁ : Machine}
variable {d : PageDirectory}
variable {dir tab t u f q new : Nat}
variable {tabs qs rest : List Nat}

/- `clone_directory` is called with the current directory. -/
inductive DirectoryCall where
| clone
| switch (dir : DirPtr)
| destroy (dir : DirPtr)
deriving DecidableEq, Repr

namespace DirectoryCall

def body (m : Machine) : DirectoryCall → VmM Unit
| .clone => do
    let _ ← cloneDirectory copyPagePhysical m.currentDirectory
| .switch dir => switchPageDirectory dir
| .destroy dir => destroyDirectory dir

/- Live directories, and the current one is not destroyed. -/
def Allowed (m : Machine) : DirectoryCall → Prop
| .clone => True
| .switch dir => ∃ record, m.dirAt dir = some record
| .destroy dir =>
    (∃ record, m.dirAt dir = some record) ∧
      dir ≠ m.currentDirectory

end DirectoryCall

/- Calls that return, one after the other. -/
inductive Run :
    Machine → List DirectoryCall → Machine → Prop where
| nil (m : Machine) : Run m [] m
| cons
    {m m₁ m' : Machine}
    {call : DirectoryCall}
    {calls : List DirectoryCall}
    (hAllowed : call.Allowed m)
    (hCall : (call.body m).run m = .ok () m₁)
    (hRest : Run m₁ calls m') :
    Run m (call :: calls) m'

/-
  In every live directory the entries of the windows are
  empty, and the mount pages are not mapped.
-/
def MountsClear (m : Machine) : Prop :=
  ∀ dir record, m.dirAt dir = some record →
    (∀ w, IsWindow w →
      m.ram.word (pageAddr record.physical) w = 0) ∧
    ∀ n, IsMountPage n →
      m.ram.pageAt (pageAddr record.physical) n = none

/- The panic of `find_mount_point`. -/
def noMountPoints : Stop :=
  .panic "VMM: there's no free mount points."

/- No call that may follow runs out of mount points. -/
def NeverExhausted (m : Machine) : Prop :=
  ∀ call m', DirectoryCall.Allowed m call →
    (call.body m).run m ≠ .error noMountPoints m'

/- What holds between any two calls of a run. -/
def KeepsMounts
    (m : Machine)
    (calls : List DirectoryCall) : Prop :=
  ∀ before m', before <+: calls → Run m before m' →
    MountsClear m' ∧ NeverExhausted m'

/- The machine with other answers still to come. -/
def Machine.answered
    (m : Machine)
    (frames kmallocs : List Nat) : Machine :=
  { m with frames := frames, kmallocs := kmallocs }

------------------------------------------------------------
-- Before the First Clone
------------------------------------------------------------

/-
  The kernel's directory is the only one, and the allocator's
  frames are not in use.
-/
structure AtBoot
    (m : Machine)
    (dir tab t u : Nat)
    (tabs : List Nat) : Prop where
  booted : Booted m dir tab t u tabs
  alone : ∀ q, m.dirAt (.heap q) = none
  fresh : ∀ f ∈ m.frames, Fresh m f
  apart : ∀ f g rest, m.frames = f :: g :: rest → f ≠ g

/- `CR3` names the same frame; the allocators are free. -/
theorem Booted.congr
    (hBooted : Booted m dir tab t u tabs)
    (hPaging : m'.paging = m.paging)
    (hRam : m'.ram = m.ram)
    (hDirs : m'.dirAt = m.dirAt)
    (hCurrent : m'.currentDirectory = m.currentDirectory)
    (hRoot : m'.root = m.root) :
    Booted m' dir tab t u tabs := by
  have hSelf :=
    hBooted.self.congr hPaging hRoot hDirs hCurrent
      (by rw [hRam]) (by rw [hRam]) (by rw [hRam])
  rcases hBooted with ⟨hKernel, hRecord, hDir, _, hGood, hCount,
    hLow, hStack, hPage, hWindow, hHeap, hEmpty, hIdentity,
    hStackEmpty, hPageSelf, hPageEmpty⟩
  rw [← hRam] at hLow hStack hPage hWindow hHeap hEmpty
  rw [← hRam] at hIdentity hStackEmpty hPageSelf hPageEmpty
  exact
    { current := hCurrent.trans hKernel
      record := (congrFun hDirs _).trans hRecord
      root := hRoot.trans hDir
      self := hSelf
      good := hGood
      count := hCount
      low := hLow
      stack := hStack
      page := hPage
      window := hWindow
      heap := hHeap
      empty := hEmpty
      identity := hIdentity
      stackEmpty := hStackEmpty
      pageSelf := hPageSelf
      pageEmpty := hPageEmpty }

namespace AtBoot

theorem record_eq
    {p : DirPtr}
    (hBoot : AtBoot m dir tab t u tabs)
    (hRecord : m.dirAt p = some d) :
    p = .kernelDirectory ∧ d = kernelRecord dir := by
  cases p with
  | kernelDirectory =>
      rw [hBoot.booted.record] at hRecord
      exact ⟨rfl, (Option.some.inj hRecord).symm⟩
  | heap q =>
      rw [hBoot.alone q] at hRecord
      cases hRecord

/- The kernel's directory stays current. -/
theorem step
    {call : DirectoryCall}
    (hBoot : AtBoot m dir tab t u tabs)
    (hAllowed : call.Allowed m)
    (hNe : call ≠ .clone)
    (hCall : (call.body m).run m = .ok () m') :
    AtBoot m' dir tab t u tabs := by
  cases call with
  | clone => exact absurd rfl hNe
  | switch p =>
      rcases hAllowed with ⟨d, hRecord⟩
      have hSwitch := run_switchPageDirectory hRecord
      rcases hBoot.record_eq hRecord with ⟨rfl, rfl⟩
      have hEnd := hSwitch.symm.trans hCall
      cases hEnd
      have hRoot :
          (m.switched .kernelDirectory
            (kernelRecord dir)).root = m.root := by
        rw [hBoot.booted.root]
        exact pageAddr_of_aligned hBoot.booted.dir_aligned
      refine
        { booted :=
            hBoot.booted.congr rfl rfl rfl
              hBoot.booted.current.symm hRoot
          alone := hBoot.alone
          fresh := ?_
          apart := hBoot.apart }
      intro f hf
      have hFresh := hBoot.fresh f hf
      refine ⟨hFresh.aligned, hFresh.lt, ?_, ?_⟩
      · rw [hRoot]
        exact hFresh.ne_root
      · intro i hi
        rw [hRoot]
        exact hFresh.unused i hi
  | destroy p =>
      rcases hAllowed with ⟨⟨d, hRecord⟩, hOther⟩
      rcases hBoot.record_eq hRecord with ⟨rfl, _⟩
      exact absurd hBoot.booted.current.symm hOther

theorem entry_stack
    (hBoot : AtBoot m dir tab t u tabs) :
    m.ram.entry dir 1021 = some u :=
  hBoot.booted.entry_of (by simp) hBoot.booted.stack

theorem entry_page
    (hBoot : AtBoot m dir tab t u tabs) :
    m.ram.entry dir 1022 = some t :=
  hBoot.booted.entry_of (by simp) hBoot.booted.page

theorem mountsClear
    (hBoot : AtBoot m dir tab t u tabs) :
    MountsClear m := by
  intro p record hRecord
  rcases hBoot.record_eq hRecord with ⟨_, rfl⟩
  have hDir :
      pageAddr (kernelRecord dir).physical = dir :=
    pageAddr_of_aligned hBoot.booted.dir_aligned
  rw [hDir]
  constructor
  · intro w hw
    rw [isWindow_iff] at hw
    exact hBoot.booted.empty w (by omega) (by omega) (by omega)
  · intro n hn
    rw [isMountPage_iff] at hn
    exact hBoot.booted.pageAt_none (by omega) (by omega)
      (by omega)

theorem setup
    (hBoot : AtBoot m dir tab t u tabs) :
    Setup m (kernelRecord dir) t u t dir := by
  have hRoot := hBoot.booted.root
  have hSelf := hBoot.booted.self
  have hMaps := hSelf.maps
  have hTables := hSelf.tables
  have hNodup := hBoot.booted.good.nodup
  have hApart : u ≠ dir := by
    rintro rfl
    simp at hNodup
  rw [hRoot] at hMaps hTables
  refine
    { pointers := .inl ⟨rfl, rfl⟩
      self := hSelf
      mountTable := ?_
      kernel := hBoot.booted.record
      kernelMaps := hMaps
      kernelTables := hTables
      kernelMountTable := hBoot.entry_stack
      apart := ?_
      apartKernel := hApart }
  · rw [hRoot]
    exact hBoot.entry_stack
  · rw [hRoot]
    exact hApart

theorem unused
    (hBoot : AtBoot m dir tab t u tabs)
    (hf : f ∈ m.frames) :
    Unused m t u t dir f := by
  have hFresh := hBoot.fresh f hf
  have hRoot := hBoot.booted.root
  have hUnused := hFresh.unused
  rw [hRoot] at hUnused
  have hTable : f ≠ t := by
    rintro rfl
    exact hUnused 1022 (by decide) hBoot.entry_page
  refine
    { aligned := hFresh.aligned
      lt := hFresh.lt
      root := hFresh.ne_root
      table := hTable
      mountTable := ?_
      kernelTable := hTable
      kernel := ?_ }
  · rintro rfl
    exact hUnused 1021 (by decide) hBoot.entry_stack
  · rw [← hRoot]
    exact hFresh.ne_root

/- All mount points are free. -/
theorem empty
    (hBoot : AtBoot m dir tab t u tabs) :
    emptyPages m u = [1019, 1020, 1021, 1022] ∧
      emptyWindows m =
        [1012, 1013, 1014, 1015, 1016, 1017, 1018, 1019] := by
  have hAll {f i n : Nat}
      (hZero : ∀ j, i ≤ j → j < i + n → m.ram.word f j = 0) :
      emptyEntries m.ram f i n = List.range' i n := by
    unfold emptyEntries
    rw [List.filter_eq_self]
    intro j hj
    rw [List.mem_range'_1] at hj
    rw [decide_eq_true_eq]
    exact hZero j hj.1 hj.2
  constructor
  · refine (hAll (n := 4) ?_).trans rfl
    intro j _ hHi
    change j < 1019 + 4 at hHi
    exact hBoot.booted.stackEmpty j (by omega)
  · unfold emptyWindows
    rw [hBoot.booted.root]
    refine (hAll (n := 8) ?_).trans rfl
    intro j hLo hHi
    change 1012 ≤ j at hLo
    change j < 1012 + 8 at hHi
    exact hBoot.booted.empty j (by omega) (by omega) (by omega)

end AtBoot

------------------------------------------------------------
-- The First Clone
------------------------------------------------------------

/- The loop is done, and there is no frame for the table. -/
theorem Cloning.run_fill_short
    {mt tk k p w p' w' : Nat}
    (copy : Nat → Nat → VmM Unit)
    (q : Nat)
    (hCloning : Cloning m d t mt tk k p w p' w' new)
    (hFrames : m.frames = []) :
    ∃ m',
      (do
        memset (mountAt p' w').directory 0 PAGE_SIZE
        EStateM.upTo
          (cloneEntry copy (mountAt p w) (mountAt p' w')) 1024
        let record : PageDirectory :=
          ⟨new, USER_DIR_VIRTUAL, USER_TABLES_VIRTUAL⟩
        writeDirectory (.heap q) record
        mapSelf (mountAt p' w') record
        umountDirectory (mountAt p w)
        umountDirectory (mountAt p' w')
        return DirPtr.heap q : VmM DirPtr).run m =
        .error noFrames m' := by
  have hCleared :=
    hCloning.sameBut hCloning.unused
      (sameBut_clearFrame m.ram hCloning.unused.aligned)
  have hWrite (m : Machine) :
      (writeDirectory (.heap q)
          ⟨new, USER_DIR_VIRTUAL,
            USER_TABLES_VIRTUAL⟩).run m =
        .ok ()
          (m.withRecord (.heap q)
            ⟨new, USER_DIR_VIRTUAL,
              USER_TABLES_VIRTUAL⟩) := rfl
  have hSelf
      {m : Machine}
      (hFrames : m.frames = []) :
      (mapSelf (mountAt p' w')
          ⟨new, USER_DIR_VIRTUAL,
            USER_TABLES_VIRTUAL⟩).run m =
        .error noFrames m := by
    unfold mapSelf
    exact EStateM.bind_of_error (run_pmmAllocPage_nil hFrames)
  rw [EStateM.bind_of_ok hCloning.memset_dest,
    EStateM.bind_of_ok (Cloning.run_loop copy hCleared)]
  dsimp only
  exact ⟨_, (EStateM.bind_of_ok (hWrite _)).trans
    (EStateM.bind_of_error (hSelf hFrames))⟩

/- A window at which a directory was mounted is in use. -/
theorem not_mountsClear
    {p : DirPtr}
    (hRecord :
      m.dirAt p =
        some ⟨new, USER_DIR_VIRTUAL, USER_TABLES_VIRTUAL⟩)
    (hEntry : m.ram.entry new 1012 = some dir)
    (hNew : new % 4096 = 0) :
    ¬ MountsClear m := by
  intro hClear
  have hZero :=
    (hClear p _ hRecord).1 1012 (isWindow_iff.mpr (by decide))
  dsimp only at hZero
  rw [pageAddr_of_aligned hNew] at hZero
  exact entry_ne_zero hEntry hZero

namespace AtBoot

/-
  With two frames and a record the clone is made.  It has the
  entries of both mounts.
-/
theorem run_clone
    (hBoot : AtBoot m dir tab t u tabs)
    (hKmallocs : m.kmallocs = q :: qs)
    (hFrames : m.frames = new :: f :: rest) :
    ∃ m',
      (cloneDirectory copyPagePhysical
          m.currentDirectory).run m = .ok (.heap q) m' ∧
        m'.dirAt (.heap q) =
          some
            ⟨new, USER_DIR_VIRTUAL, USER_TABLES_VIRTUAL⟩ ∧
        m'.ram.entry new 1012 = some dir ∧
        m'.ram.entry new 1013 = some new := by
  have hSetup := hBoot.setup
  have hPages := hBoot.empty.1
  have hWindows := hBoot.empty.2
  have hNew : Unused m t u t dir new :=
    hBoot.unused (by rw [hFrames]; simp)
  have hTab : Unused m t u t dir f :=
    hBoot.unused (by rw [hFrames]; simp)
  have hApart : f ≠ new :=
    (hBoot.apart new f rest hFrames).symm
  have hFits := hBoot.booted.good.fits dir (by simp)
  have hk : dir < 2 ^ 32 := by omega
  have hRun :=
    hSetup.run_cloneDirectory copyPagePhysical hPages hWindows
      hk hKmallocs (hBoot.alone q) hFrames hNew hTab
  have hCloned :=
    hSetup.cloned q rest qs hPages hWindows hNew hTab hApart
  rcases hSetup.slots hPages hWindows with ⟨hSlot, hSlot', _, _⟩
  have hWord :=
    hSetup.word_cloneEnd (j := 1012) q rest qs hSlot hSlot' hNew
      hTab hApart (by decide) (by decide) (by decide)
  have hWord' :=
    hSetup.word_cloneEnd (j := 1013) q rest qs hSlot hSlot' hNew
      hTab hApart (by decide) (by decide) (by decide)
  -- the loop has read the entries of the two mounts
  have hCloning := hSetup.cloning hPages hWindows hk hNew
  have hSrc := hCloning.src.window
  have hDest := hCloning.dest.window
  rw [withRam_root, withRam_ram, hBoot.booted.root]
    at hSrc hDest
  have hEntry := (ByteMemory.entry_of_word hWord).trans hSrc
  have hEntry' := (ByteMemory.entry_of_word hWord').trans hDest
  have hRecord :
      (cloneEnd m u dir 1019 1012 1020 1013 q new f qs
          rest).dirAt (.heap q) =
        some
          ⟨new, USER_DIR_VIRTUAL, USER_TABLES_VIRTUAL⟩ := by
    rw [hCloned.machine]
    exact Function.update_self _ _ _
  rw [hBoot.booted.current]
  exact ⟨_, hRun, hRecord, hEntry, hEntry'⟩

/-
  The first clone keeps two windows in use for ever, unless
  one of the allocators has nothing left.
-/
theorem clone_cases
    (hBoot : AtBoot m dir tab t u tabs) :
    (∃ e m',
      (cloneDirectory copyPagePhysical
          m.currentDirectory).run m = .error e m' ∧
        e ≠ noMountPoints) ∨
      ∃ p m',
        (cloneDirectory copyPagePhysical
            m.currentDirectory).run m = .ok p m' ∧
          ¬ MountsClear m' := by
  rcases hKmallocs : m.kmallocs with _ | ⟨q, qs⟩
  · refine .inl ⟨.panic "Heap: out of memory.", m, ?_, ?_⟩
    · unfold cloneDirectory
      refine EStateM.bind_of_error ?_
      unfold kmallocDirectory
      rw [EStateM.bind_of_ok (EStateM.run_get m), hKmallocs]
      rfl
    · unfold noMountPoints
      simp
  have hRecord := run_kmallocDirectory hKmallocs (hBoot.alone q)
  have hNoFrames : noFrames ≠ noMountPoints := by
    unfold noFrames noMountPoints
    simp
  rcases hFrames : m.frames with _ | ⟨new, _ | ⟨f, rest⟩⟩
  · refine .inl
      ⟨noFrames, { m with kmallocs := qs }, ?_, hNoFrames⟩
    unfold cloneDirectory
    rw [EStateM.bind_of_ok hRecord]
    exact EStateM.bind_of_error (run_pmmAllocPage_nil hFrames)
  · refine .inl ?_
    have hNew : Unused m t u t dir new :=
      hBoot.unused (by rw [hFrames]; simp)
    have hSetup := hBoot.setup
    have hFits := hBoot.booted.good.fits dir (by simp)
    have hCurrent : DirPtr.heap q ≠ m.currentDirectory := by
      rw [hBoot.booted.current]
      exact nofun
    have hTaken :
        Setup
          (Machine.withFrames { m with kmallocs := qs } [])
          (kernelRecord dir) t u t dir :=
      hSetup.congr
        (Machine.withFrames { m with kmallocs := qs } [])
        rfl rfl rfl rfl rfl (fun _ _ _ _ _ => rfl)
    have hStart :
        Setup (cloneStart m q new qs []) (kernelRecord dir) t u
          t dir :=
      hTaken.withRecord hCurrent nofun
    have hClone :
        (cloneStart m q new qs []).dirAt (.heap q) =
          some ⟨new, 0, 0⟩ := by
      unfold cloneStart Machine.withRecord
      exact Function.update_self _ _ _
    rcases hStart.run_mountBoth hBoot.empty.1 hBoot.empty.2
      (by omega) hClone (hNew.congr rfl) with
      ⟨mMid, hMountSrc, hMountDest, hCloning⟩
    rcases Cloning.run_fill_short copyPagePhysical q hCloning
      rfl with ⟨m', hFill⟩
    have hAlloc :
        pmmAllocPage.run { m with kmallocs := qs } =
          .ok new
            (Machine.withFrames { m with kmallocs := qs } []) :=
      run_pmmAllocPage hFrames
    have hWrite :
        (writeDirectory (.heap q) ⟨new, 0, 0⟩).run
            (Machine.withFrames { m with kmallocs := qs } []) =
          .ok () (cloneStart m q new qs []) := rfl
    refine ⟨noFrames, m', ?_, hNoFrames⟩
    rw [hBoot.booted.current]
    unfold cloneDirectory
    rw [EStateM.bind_of_ok hRecord, EStateM.bind_of_ok hAlloc,
      EStateM.bind_of_ok hWrite, EStateM.bind_of_ok hMountSrc,
      EStateM.bind_of_ok hMountDest]
    exact hFill
  · rcases hBoot.run_clone hKmallocs hFrames with
      ⟨m', hRun, hRecord, hEntry, _⟩
    have hNew := hBoot.fresh new (by rw [hFrames]; simp)
    exact .inr ⟨_, m', hRun,
      not_mountsClear hRecord hEntry hNew.aligned⟩

theorem neverExhausted
    (hBoot : AtBoot m dir tab t u tabs) :
    NeverExhausted m := by
  intro call m' hAllowed hRun
  cases call with
  | clone =>
      unfold DirectoryCall.body at hRun
      rcases hBoot.clone_cases with
        ⟨e, m₁, hClone, hNe⟩ | ⟨p, m₁, hClone, _⟩
      · rw [EStateM.bind_of_error hClone] at hRun
        cases hRun
        exact hNe rfl
      · rw [EStateM.bind_of_ok hClone] at hRun
        cases hRun
  | switch p =>
      rcases hAllowed with ⟨d, hRecord⟩
      have hEnd :=
        (run_switchPageDirectory hRecord).symm.trans hRun
      cases hEnd
  | destroy p =>
      rcases hAllowed with ⟨⟨d, hRecord⟩, hOther⟩
      rcases hBoot.record_eq hRecord with ⟨rfl, _⟩
      exact hOther hBoot.booted.current.symm

/- A clone that returned has left its windows in use. -/
theorem not_clear_after
    (hBoot : AtBoot m dir tab t u tabs)
    (hCall :
      (DirectoryCall.clone.body m).run m = .ok () m') :
    ¬ MountsClear m' := by
  unfold DirectoryCall.body at hCall
  rcases hBoot.clone_cases with
    ⟨e, m₁, hClone, _⟩ | ⟨p, m₁, hClone, hNot⟩
  · rw [EStateM.bind_of_error hClone] at hCall
    cases hCall
  · rw [EStateM.bind_of_ok hClone] at hCall
    cases hCall
    exact hNot

end AtBoot

------------------------------------------------------------
-- Every Run
------------------------------------------------------------

/- The runs of a list of calls begin with those of the first. -/
theorem keepsMounts_cons
    {call : DirectoryCall}
    {calls : List DirectoryCall}
    (hAllowed : call.Allowed m)
    (hCall : (call.body m).run m = .ok () m₁) :
    KeepsMounts m (call :: calls) ↔
      (MountsClear m ∧ NeverExhausted m) ∧
        KeepsMounts m₁ calls := by
  constructor
  · intro hKeeps
    refine ⟨hKeeps [] m List.nil_prefix (.nil m), ?_⟩
    intro before m' hPrefix hRun
    exact hKeeps (call :: before) m'
      ((List.prefix_cons_inj call).mpr hPrefix)
      (.cons hAllowed hCall hRun)
  · rintro ⟨hFirst, hKeeps⟩ before m' hPrefix hRun
    cases hRun with
    | nil => exact hFirst
    | cons hAllowed' hCall' hRest =>
        rcases List.cons_prefix_cons.mp hPrefix with
          ⟨rfl, hTail⟩
        have hSame := hCall.symm.trans hCall'
        cases hSame
        exact hKeeps _ m' hTail hRest

theorem AtBoot.keepsMounts_iff
    {calls : List DirectoryCall}
    (hBoot : AtBoot m dir tab t u tabs)
    (hRun : Run m calls m') :
    KeepsMounts m calls ↔ .clone ∉ calls := by
  induction hRun with
  | nil m =>
      refine ⟨fun _ => List.not_mem_nil, fun _ => ?_⟩
      intro before m' hPrefix hRun
      rw [List.prefix_nil.mp hPrefix] at hRun
      cases hRun
      exact ⟨hBoot.mountsClear, hBoot.neverExhausted⟩
  | @cons m m₁ m' call calls hAllowed hCall hRest ih =>
      rw [keepsMounts_cons hAllowed hCall]
      by_cases hClone : call = .clone
      · subst hClone
        refine ⟨fun hKeeps => ?_, fun hNone => ?_⟩
        · have hFirst :=
            hKeeps.2 [] m₁ List.nil_prefix (.nil m₁)
          exact absurd hFirst.1 (hBoot.not_clear_after hCall)
        · exact absurd List.mem_cons_self hNone
      · have hNext := hBoot.step hAllowed hClone hCall
        rw [ih hNext, List.mem_cons, not_or]
        refine ⟨fun hKeeps => ⟨Ne.symm hClone, hKeeps.2⟩,
          fun hNone => ⟨?_, hNone.2⟩⟩
        exact ⟨hBoot.mountsClear, hBoot.neverExhausted⟩

/- The machine that `init_vmm` leaves. -/
theorem Booted.atBoot
    {frames kmallocs : List Nat}
    (hBooted : Booted m dir tab t u tabs)
    (hAlone : ∀ q, m.dirAt (.heap q) = none)
    (hFresh : ∀ f ∈ frames, Fresh m f)
    (hApart : ∀ f g rest, frames = f :: g :: rest → f ≠ g) :
    AtBoot (m.answered frames kmallocs) dir tab t u tabs where
  booted := hBooted.congr rfl rfl rfl rfl rfl
  alone := hAlone
  fresh := fun f hf =>
    have hNew := hFresh f hf
    ⟨hNew.aligned, hNew.lt, hNew.ne_root, hNew.unused⟩
  apart := hApart

/-
  From the machine that `init_vmm` leaves, with any answers
  of the two allocators that name nothing in use: the mount
  points are empty between all calls of a run exactly if the
  run clones nothing.
-/
theorem mounts_clear_iff
    {boot : Machine}
    {frames kmallocs : List Nat}
    {calls : List DirectoryCall}
    (hPaging : boot.paging = false)
    (hGood : GoodFrames boot.frames)
    (hInit : initVmm.run boot = .ok () m)
    (hAlone : ∀ q, boot.dirAt (.heap q) = none)
    (hFresh : ∀ f ∈ frames, Fresh m f)
    (hApart : ∀ f g rest, frames = f :: g :: rest → f ≠ g)
    (hRun : Run (m.answered frames kmallocs) calls m') :
    KeepsMounts (m.answered frames kmallocs) calls ↔
      .clone ∉ calls := by
  rcases initVmm_booted hPaging hGood hInit with
    ⟨dir, tab, t, u, tabs, _, hBooted, hHeap⟩
  have hNone : ∀ q, m.dirAt (.heap q) = none := fun q =>
    (hHeap q).trans (hAlone q)
  exact (hBooted.atBoot hNone hFresh hApart).keepsMounts_iff
    hRun

------------------------------------------------------------
-- After 128 Frames
------------------------------------------------------------

/- What is left to hand out is in use nowhere. -/
theorem Booted.fresh_left
    {frames : List Nat}
    (hBooted : Booted m dir tab t u tabs)
    (hGood : GoodFrames frames)
    (hFrames : frames = dir :: tab :: t :: tabs ++ u :: rest) :
    (∀ f ∈ rest, Fresh m f) ∧
      ∀ f g more, rest = f :: g :: more → f ≠ g := by
  have hNodup := hGood.nodup
  rw [hFrames, List.append_cons] at hNodup
  have hSplit := List.nodup_append.mp hNodup
  have hMem :
      ∀ f ∈ dir :: tab :: t :: u :: tabs,
        f ∈ dir :: tab :: t :: tabs ++ [u] := by
    intro f hf
    simp only [List.mem_cons, List.mem_append,
      List.cons_append, List.not_mem_nil, or_false] at hf ⊢
    tauto
  constructor
  · intro f hf
    have hIn : f ∈ frames := by
      rw [hFrames]
      simp [hf]
    have hFits := hGood.fits f hIn
    refine
      { aligned := hGood.aligned f hIn
        lt := by omega
        ne_root := ?_
        unused := ?_ }
    · rw [hBooted.root]
      rintro rfl
      exact hSplit.2.2 f (hMem f List.mem_cons_self) f hf rfl
    · intro i hi hEntry
      rw [hBooted.root] at hEntry
      rcases hBooted.entry_place hi hEntry with ⟨k, hAt, _⟩
      exact hSplit.2.2 f (hMem f (List.mem_of_getElem? hAt)) f
        hf rfl
  · rintro f g more rfl rfl
    have hRest := hSplit.2.1
    simp at hRest

theorem bootMachine_left :
    ∃ m dir tab t u tabs f g more,
      initVmm.run Paged.bootMachine = .ok () m ∧
        m.frames = f :: g :: more ∧
        (∀ f ∈ m.frames, Fresh m f) ∧
        (∀ f g more, m.frames = f :: g :: more → f ≠ g) ∧
        Booted m dir tab t u tabs ∧
        ∀ q, m.dirAt (.heap q) = none := by
  rcases initVmm_total rfl Paged.goodFrames_bootMachine
    (by rw [Paged.length_bootMachine]; decide) with ⟨m, hRun⟩
  rcases initVmm_booted rfl Paged.goodFrames_bootMachine hRun
    with ⟨dir, tab, t, u, tabs, hFrames, hBooted, hHeap⟩
  have hLeft :=
    hBooted.fresh_left Paged.goodFrames_bootMachine hFrames
  have hLength := congrArg List.length hFrames
  have hCount := hBooted.count
  rw [Paged.length_bootMachine] at hLength
  simp only [List.cons_append, List.length_cons,
    List.length_append] at hLength
  rcases exists_cons_cons (by omega : 2 ≤ m.frames.length) with
    ⟨f, g, more, hMore⟩
  exact ⟨m, dir, tab, t, u, tabs, f, g, more, hRun, hMore,
    hLeft.1, hLeft.2, hBooted, hHeap⟩

/- The kernel's directory is made current again, and cloned. -/
theorem clone_after_switch :
    ∃ m m', initVmm.run Paged.bootMachine = .ok () m ∧
      Run (m.answered m.frames [KHEAP_START])
        [.switch .kernelDirectory, .clone] m' ∧
      (KeepsMounts (m.answered m.frames [KHEAP_START])
          [.switch .kernelDirectory, .clone] ↔
        .clone ∉
          [DirectoryCall.switch .kernelDirectory, .clone]) := by
  rcases bootMachine_left with ⟨m, dir, tab, t, u, tabs, f, g,
    more, hInit, hFrames, hFresh, hApart, hBooted, hHeap⟩
  have hBoot :
      AtBoot (m.answered m.frames [KHEAP_START]) dir tab t u
        tabs :=
    hBooted.atBoot hHeap hFresh hApart
  have hSwitch := run_switchPageDirectory hBoot.booted.record
  have hAllowed :
      (DirectoryCall.switch .kernelDirectory).Allowed
        (m.answered m.frames [KHEAP_START]) :=
    ⟨_, hBoot.booted.record⟩
  have hNext := hBoot.step hAllowed nofun hSwitch
  rcases hNext.run_clone rfl hFrames with ⟨m', hClone, _, _⟩
  have hCall :
      (DirectoryCall.clone.body
          ((m.answered m.frames [KHEAP_START]).switched
            .kernelDirectory (kernelRecord dir))).run
        ((m.answered m.frames [KHEAP_START]).switched
          .kernelDirectory (kernelRecord dir)) = .ok () m' := by
    unfold DirectoryCall.body
    rw [EStateM.bind_of_ok hClone]
    rfl
  have hRun :
      Run (m.answered m.frames [KHEAP_START])
        [.switch .kernelDirectory, .clone] m' :=
    .cons hAllowed hSwitch (.cons trivial hCall (.nil m'))
  exact ⟨m, m', hInit, hRun,
    mounts_clear_iff rfl Paged.goodFrames_bootMachine hInit
      (fun _ => rfl) hFresh hApart hRun⟩

/- The first clone has entries at two of the windows. -/
theorem first_clone_keeps_windows :
    ∃ m m', initVmm.run Paged.bootMachine = .ok () m ∧
      Run (m.answered m.frames [KHEAP_START]) [.clone] m' ∧
      ¬ MountsClear m' := by
  rcases bootMachine_left with ⟨m, dir, tab, t, u, tabs, f, g,
    more, hInit, hFrames, hFresh, hApart, hBooted, hHeap⟩
  have hBoot :
      AtBoot (m.answered m.frames [KHEAP_START]) dir tab t u
        tabs :=
    hBooted.atBoot hHeap hFresh hApart
  rcases hBoot.run_clone rfl hFrames with
    ⟨m', hClone, hRecord, hEntry, _⟩
  have hAligned := (hFresh f (by rw [hFrames]; simp)).aligned
  have hCall :
      (DirectoryCall.clone.body
          (m.answered m.frames [KHEAP_START])).run
        (m.answered m.frames [KHEAP_START]) = .ok () m' := by
    unfold DirectoryCall.body
    rw [EStateM.bind_of_ok hClone]
    rfl
  exact ⟨m, m', hInit, .cons trivial hCall (.nil m'),
    not_mountsClear hRecord hEntry hAligned⟩

end Vmm

end SosKernel
