import SosKernel.Vmm.AddressSpace

/-
  `map`, `unmap` and `get_mapping` implement an address
  space.

  Main declarations:
    * `Tracks.fresh`, `Tracks.map`, `Tracks.unmap`: one call
    * `Tracks.agrees`
    * `Built.refines`: every run of edits
-/

------------------------------------------------------------
-- One Edit
------------------------------------------------------------

namespace SosKernel

namespace Vmm

variable {m m' : Machine}
variable {d : PageDirectory}
variable {space : AddressSpace}
variable {t u n v f va pa flags : Nat}

theorem Tracks.withFrames
    (hTracks : Tracks d t m space)
    (frames : List Nat) :
    Tracks d t (m.withFrames frames) space where
  built :=
    { self := hTracks.built.self.withFrames frames
      layout := hTracks.built.layout
      kernelTables := hTracks.built.kernelTables
      distinct := hTracks.built.distinct }
  clean :=
    { present := hTracks.clean.present
      selfOnly := hTracks.clean.selfOnly }
  pages := hTracks.pages

/- Without a page table an ordinary page has none to share. -/
theorem Tracks.selfOnly
    (hTracks : Tracks d t m space)
    (hOrdinary : Ordinary d n)
    (hZero : m.ram.word m.root (n / 1024) = 0) :
    ∀ i, i < 1024 → i ≠ pgdirIdxFromAddr d.pages →
      m.ram.entry m.root i ≠ some m.root := by
  rcases hTracks.clean.selfOnly with hOnly | hAll
  · exact hOnly
  · exact absurd hZero (hAll n hOrdinary)

theorem Fresh.ne_table
    (hFresh : Fresh m f)
    (hBuilt : Built m d t) :
    f ≠ t := by
  have hFits := hBuilt.self.maps.fits
  rintro rfl
  exact hFresh.unused _ (by omega) hBuilt.self.maps.dir

/-
  An empty page table is installed: no page is mapped, and
  none is unmapped.
-/
theorem Tracks.fresh
    (hTracks : Tracks d t m space)
    (hOrdinary : Ordinary d n)
    (hZero : m.ram.word m.root (n / 1024) = 0)
    (hFresh : Fresh m f) :
    Tracks d t
        (m.withRam (freshTable m.ram m.root (n / 1024) f))
        space ∧
      (freshTable m.ram m.root (n / 1024) f).entry m.root
        (n / 1024) = some f := by
  have hOnly := hTracks.selfOnly hOrdinary hZero
  rcases hTracks with ⟨hBuilt, hClean, hPages⟩
  have hn := hOrdinary.lt
  have hi : n / 1024 < 1024 := by omega
  have hAligned := root_aligned m
  rcases hBuilt.self.freshTable hi hZero hFresh.aligned
    hFresh.lt hFresh.ne_root (hFresh.ne_table hBuilt) with
    ⟨hSelf, hNew⟩
  -- words of other frames, but for the entry itself
  have hWord :
      ∀ g j, g % 4096 = 0 → g ≠ f → j < 1024 →
        (g ≠ m.root ∨ j ≠ n / 1024) →
          (freshTable m.ram m.root (n / 1024) f).word g j =
            m.ram.word g j := by
    intro g j hg hNe hj hOther
    unfold freshTable
    rw [(ByteMemory.sameOn_clearFrame _ hFresh.aligned hg
      hNe).word hj]
    exact ByteMemory.word_setWord_of_ne _ _ hAligned hg hi hj
      hOther
  have hDir :
      ∀ i, i < 1024 → i ≠ n / 1024 →
        (freshTable m.ram m.root (n / 1024) f).word m.root i =
          m.ram.word m.root i :=
    fun i hi' hNe =>
      hWord m.root i hAligned hFresh.ne_root.symm hi' (.inr hNe)
  have hEntry :
      ∀ i, i < 1024 → i ≠ n / 1024 →
        (freshTable m.ram m.root (n / 1024) f).entry m.root i =
          m.ram.entry m.root i :=
    fun i hi' hNe => ByteMemory.entry_congr (hDir i hi' hNe)
  have hEmpty :
      ∀ j, j < 1024 →
        (freshTable m.ram m.root (n / 1024) f).word f j = 0 :=
    fun j hj => ByteMemory.word_clearFrame_self _ f hj
  have hNone : m.ram.entry m.root (n / 1024) = none := by
    rw [ByteMemory.entry_of_word hZero]
    rfl
  refine ⟨?_, hNew⟩
  refine
    { built :=
        { self := hSelf
          layout := hBuilt.layout
          kernelTables := ?_
          distinct := ?_ }
      clean :=
        { present := ?_
          selfOnly := ?_ }
      pages := ?_ }
  · intro n' hn' hKernel
    rcases hBuilt.kernelTables n' hn' hKernel with ⟨w, hw⟩
    have hLt := hn'.lt
    have hNe : n' / 1024 ≠ n / 1024 := by
      intro hSame
      rw [hSame, hNone] at hw
      cases hw
    exact ⟨w, (hEntry _ (by omega) hNe).trans hw⟩
  · intro n' w hn' hw
    have hLt := hn'.lt
    rw [withRam_ram, withRam_root] at hw ⊢
    by_cases hSame : n' / 1024 = n / 1024
    · rw [hSame, hNew] at hw
      cases hw
      refine ⟨hFresh.ne_root, ?_⟩
      intro i hi' hNe
      rw [hSame] at hNe
      rw [hEntry i hi' hNe]
      exact hFresh.unused i hi'
    · rw [hEntry _ (by omega) hSame] at hw
      rcases hBuilt.distinct n' w hn' hw with ⟨hNeRoot, hApart⟩
      refine ⟨hNeRoot, ?_⟩
      intro i hi' hNe
      by_cases hNewIndex : i = n / 1024
      · rw [hNewIndex, hNew]
        rintro ⟨⟩
        exact hFresh.unused _ (by omega) hw
      · rw [hEntry i hi' hNewIndex]
        exact hApart i hi' hNe
  · intro n' hn'
    have hLt := hn'.lt
    rw [withRam_ram, withRam_root]
    by_cases hSame : n' / 1024 = n / 1024
    · refine .inr ⟨f, ?_, .inl (hEmpty _ (by omega))⟩
      rw [hSame]
      exact hNew
    · rw [hDir _ (by omega) hSame, hEntry _ (by omega) hSame]
      rcases hClean.present n' hn' with hNot | ⟨w, hw, hOdd⟩
      · exact .inl hNot
      · refine .inr ⟨w, hw, ?_⟩
        have hNeRoot := (hBuilt.distinct n' w hn' hw).1
        have hNeFresh : w ≠ f := by
          rintro rfl
          exact hFresh.unused _ (by omega) hw
        rw [hWord w _ (ByteMemory.entry_aligned hw) hNeFresh
          (by omega) (.inl hNeRoot)]
        exact hOdd
  · refine .inl ?_
    intro i hi' hNe
    rw [withRam_ram, withRam_root]
    by_cases hNewIndex : i = n / 1024
    · rw [hNewIndex, hNew]
      intro hSame
      exact hFresh.ne_root (Option.some.inj hSame)
    · rw [hEntry i hi' hNewIndex]
      exact hOnly i hi' hNe
  · intro n' hn' hOutside
    rw [withRam_ram, withRam_root, ← hPages n' hn' hOutside]
    by_cases hSame : n' / 1024 = n / 1024
    · rw [ByteMemory.pageAt_of_entry (by rw [hSame]; exact hNew),
        ByteMemory.pageAt_of_none (by rw [hSame]; exact hNone),
        ByteMemory.entry_of_word (hEmpty _ (by omega))]
      rfl
    · refine ByteMemory.pageAt_congr (hDir _ (by omega) hSame) ?_
      intro w hw
      have hNeFresh : w ≠ f := by
        rintro rfl
        exact hFresh.unused _ (by omega) hw
      have hNeRoot : w ≠ m.root := by
        rintro rfl
        exact hOnly _ (by omega) hOutside.2 hw
      exact hWord w _ (ByteMemory.entry_aligned hw) hNeFresh
        (by omega) (.inl hNeRoot)

theorem mapEntry_odd
    (pa : Nat)
    (hFlags : flags < 0x1000) :
    mapEntry pa flags % 2 = 1 := by
  rcases mapEntry_eq pa hFlags with ⟨low, _, hOdd, hEq⟩
  have hPage := pageAddr_aligned pa
  omega

/- A call of `map` that returned has mapped the page. -/
theorem Tracks.map
    (hTracks : Tracks d t m space)
    (hva : va < 2 ^ 32)
    (hpa : pa < 2 ^ 32)
    (hFlags : flags < 0x1000)
    (hOrdinary : Ordinary d (pgNumFromAddr va))
    (hFresh :
      m.ram.word m.root (va / 2 ^ 22) = 0 →
        ∀ f rest, m.frames = f :: rest → Fresh m f)
    (hRun : (Vmm.map va pa flags).run m = .ok () m') :
    Tracks d t m'
      (Function.update space (pgNumFromAddr va)
        (some (pageAddr pa))) := by
  have hSelf := hTracks.built.self
  have hFrame : ByteMemory.entryFrame (mapEntry pa flags) =
      some (pageAddr pa) := entryFrame_mapEntry hFlags
  have hLt := mapEntry_lt hpa hFlags
  have hOdd := mapEntry_odd pa hFlags
  have hPresent := hTracks.clean.present _ hOrdinary
  by_cases hZero : m.ram.word m.root (va / 2 ^ 22) = 0
  · have hNeeds := hSelf.map_frames hva hZero hRun
    rcases List.exists_cons_of_ne_nil hNeeds with
      ⟨f, rest, hFrames⟩
    have hNew := hFresh hZero f rest hFrames
    rw [hSelf.run_map_fresh hva hZero hFrames hNew.aligned
      hNew.lt hNew.ne_root (hNew.ne_table hTracks.built)] at hRun
    rw [← pgNum_div] at hZero
    rcases (hTracks.withFrames rest).fresh hOrdinary hZero
      ⟨hNew.aligned, hNew.lt, hNew.ne_root, hNew.unused⟩ with
      ⟨hTable, hEntry⟩
    have hStored :=
      hTable.store hOrdinary hEntry hLt (.inr hOdd)
    rw [checkKernel_ok hRun, ← pgNum_div, ← pgNum_mod, ← hFrame]
    exact hStored
  · rw [pgNum_div] at hPresent
    rcases hPresent with hNot | ⟨u, hEntry, _⟩
    · exact absurd hNot hZero
    · rw [hSelf.run_map_table hva hEntry] at hRun
      rw [← pgNum_div] at hEntry
      have hStored :=
        hTracks.store hOrdinary hEntry hLt (.inr hOdd)
      rw [checkKernel_ok hRun, ← pgNum_mod, ← hFrame]
      exact hStored

/- A call of `unmap` has unmapped the page. -/
theorem Tracks.unmap
    (hTracks : Tracks d t m space)
    (hva : va < 2 ^ 32)
    (hOrdinary : Ordinary d (pgNumFromAddr va))
    (hTable : m.ram.word m.root (va / 2 ^ 22) ≠ 0)
    (hRun : (Vmm.unmap va).run m = .ok () m') :
    Tracks d t m'
      (Function.update space (pgNumFromAddr va) none) := by
  have hPresent := hTracks.clean.present _ hOrdinary
  rw [pgNum_div] at hPresent
  rcases hPresent with hNot | ⟨u, hEntry, _⟩
  · exact absurd hNot hTable
  · rw [hTracks.built.self.run_unmap hva hEntry] at hRun
    cases hRun
    rw [← pgNum_div] at hEntry
    exact hTracks.store hOrdinary hEntry (by decide) (.inl rfl)

------------------------------------------------------------
-- Every Run
------------------------------------------------------------

/- `get_mapping` agrees with the hardware on a present entry. -/
theorem entryMapping_eq
    {e : Nat}
    (va : Nat)
    (hLt : e < 2 ^ 32)
    (hPresent : e = 0 ∨ e % 2 = 1) :
    entryMapping e va =
      (ByteMemory.entryFrame e).map fun frame =>
        frame + va % 4096 := by
  unfold entryMapping ByteMemory.entryFrame
  rcases hPresent with hZero | hOdd
  · subst hZero
    rfl
  · rw [if_pos (by omega), if_pos hOdd]
    unfold pageAddr pageFlags PAGE_SIZE
    rw [Option.map_some, add32_of_lt (by omega)]

theorem Tracks.agrees
    (hTracks : Tracks d t m space) :
    Agrees d m space := by
  have hSelf := hTracks.built.self
  have hRoot := hSelf.physical
  refine
    { walk := ?_
      lookup := ?_ }
  · intro n hn hOutside
    rw [hRoot]
    exact hTracks.pages n hn hOutside
  · intro va hva hOrdinary
    have hPresent := hTracks.clean.present _ hOrdinary
    have hIndex : va / 4096 / 1024 = va / 2 ^ 22 := by omega
    rw [pgNum_div, pgNum_mod] at hPresent
    rw [hRoot]
    unfold ByteMemory.walk
    rcases hPresent with hZero | ⟨u, hEntry, hOdd⟩
    · have hNone : m.ram.pageAt m.root (va / 4096) = none := by
        apply ByteMemory.pageAt_of_none
        rw [hIndex, ByteMemory.entry_of_word hZero]
        rfl
      rw [hSelf.run_getMapping_none hva hZero, hNone]
      rfl
    · rw [hSelf.run_getMapping_table hva hEntry,
        entryMapping_eq va (ByteMemory.word_lt _ _ _) hOdd,
        ByteMemory.pageAt_of_entry (by rw [hIndex]; exact hEntry)]
      rfl

theorem EditStep.tracks
    {cfg cfg' : Machine × AddressSpace}
    (hStep : EditStep d cfg cfg')
    (hTracks : Tracks d t cfg.1 cfg.2) :
    Tracks d t cfg'.1 cfg'.2 := by
  cases hStep with
  | map va pa flags hva hpa hFlags hOrdinary hFresh hRun =>
      exact hTracks.map hva hpa hFlags hOrdinary hFresh hRun
  | unmap va hva hOrdinary hTable hRun =>
      exact hTracks.unmap hva hOrdinary hTable hRun

/-
  In a directory without stale entries every run of `map` and
  `unmap` implements the updates of an address space.
-/
theorem Built.refines
    (hBuilt : Built m d t)
    (hClean : Clean m d) :
    Refines m d := by
  intro frames cfg hReach
  have hTracks : Tracks d t cfg.1 cfg.2 := by
    refine hReach.invariant ?_
      (fun _ _ _ hTracks hStep => hStep.tracks hTracks)
    rintro _ rfl
    have hStart : Tracks d t m (m.ram.pageAt m.root) :=
      ⟨hBuilt, hClean, fun _ _ _ => rfl⟩
    rw [hBuilt.self.physical]
    exact hStart.withFrames frames
  exact hTracks.agrees

end Vmm

end SosKernel
