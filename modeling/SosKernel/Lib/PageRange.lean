import SosKernel.Lib.PageTable

/-
  Entering a range of pages in a two-level page table, when
  the tables of the range are not shared.

  Main declarations:
    * `ByteMemory.OwnTable`: an entry with a table of its own
    * `ByteMemory.addTable`: a new table, cleared
    * `ByteMemory.Entered`: the pages entered so far
    * `ByteMemory.Entered.addTable`, `ByteMemory.Entered.store`
-/

------------------------------------------------------------
-- Tables of Their Own
------------------------------------------------------------

namespace ByteMemory

/-
  The entry is zero, or it refers to a table that no other
  entry refers to.
-/
def OwnTable (mem : ByteMemory) (root i : Nat) : Prop :=
  mem.word root i = 0 ∨
    ∃ u, mem.entry root i = some u ∧ u ≠ root ∧
      ∀ j, j < 1024 → j ≠ i → mem.entry root j ≠ some u

/- The table `f` for the entry `i`, cleared. -/
def addTable
    (mem : ByteMemory)
    (root i f e : Nat) : ByteMemory :=
  (mem.setWord root i e).clearFrame f

variable {mem mem' : ByteMemory}
variable {root i j n n' f g u v e : Nat}

theorem entry_ne_none
    (hEntry : mem.entry f i = some u) :
    mem.word f i ≠ 0 := by
  intro hZero
  rw [entry_of_word hZero] at hEntry
  cases hEntry

/- An entry's own table is its alone. -/
theorem OwnTable.table
    (hOwn : mem.OwnTable root i)
    (hEntry : mem.entry root i = some u) :
    u ≠ root ∧
      ∀ j, j < 1024 → j ≠ i → mem.entry root j ≠ some u := by
  rcases hOwn with hZero | ⟨w, hw, hNe, hOther⟩
  · exact absurd hZero (entry_ne_none hEntry)
  · rw [hEntry] at hw
    cases hw
    exact ⟨hNe, hOther⟩

theorem OwnTable.congr
    (hOwn : mem.OwnTable root i)
    (hi : i < 1024)
    (hRoot :
      ∀ j, j < 1024 → mem'.word root j = mem.word root j) :
    mem'.OwnTable root i := by
  rcases hOwn with hZero | ⟨u, hu, hNe, hOther⟩
  · exact .inl ((hRoot i hi).trans hZero)
  · refine .inr ⟨u, ?_, hNe, ?_⟩
    · rw [entry_congr (hRoot i hi)]
      exact hu
    · intro j hj hNe'
      rw [entry_congr (hRoot j hj)]
      exact hOther j hj hNe'

------------------------------------------------------------
-- An Entry of a Table
------------------------------------------------------------

/- A store into a table is not seen in the directory. -/
theorem word_root_store
    (hRoot : root % 4096 = 0)
    (hOwn : mem.OwnTable root (n / 1024))
    (hEntry : mem.entry root (n / 1024) = some u)
    (hj : j < 1024) :
    (mem.setWord u (n % 1024) v).word root j =
      mem.word root j :=
  word_setWord_of_ne _ _ (entry_aligned hEntry) hRoot
    (Nat.mod_lt _ (by decide)) hj
    (.inl (hOwn.table hEntry).1.symm)

theorem pageAt_store_self
    (hRoot : root % 4096 = 0)
    (hn : n < 2 ^ 20)
    (hOwn : mem.OwnTable root (n / 1024))
    (hEntry : mem.entry root (n / 1024) = some u)
    (hv : v < 2 ^ 32) :
    (mem.setWord u (n % 1024) v).pageAt root n =
      entryFrame v := by
  have hDir :
      (mem.setWord u (n % 1024) v).entry root (n / 1024) =
        some u := by
    rw [entry_congr
      (word_root_store hRoot hOwn hEntry (by omega))]
    exact hEntry
  rw [pageAt_of_entry hDir]
  exact entry_of_word (word_setWord_self _ _ _ hv)

theorem pageAt_store_of_ne
    (hRoot : root % 4096 = 0)
    (hn' : n' < 2 ^ 20)
    (hNe : n' ≠ n)
    (hOwn : mem.OwnTable root (n / 1024))
    (hEntry : mem.entry root (n / 1024) = some u) :
    (mem.setWord u (n % 1024) v).pageAt root n' =
      mem.pageAt root n' := by
  apply pageAt_congr
  · exact word_root_store hRoot hOwn hEntry (by omega)
  · intro w hw
    apply word_setWord_of_ne _ _ (entry_aligned hEntry)
      (entry_aligned hw) (by omega) (by omega)
    by_cases hSame : n' / 1024 = n / 1024
    · exact .inr (by omega)
    · refine .inl ?_
      rintro rfl
      exact (hOwn.table hEntry).2 _ (by omega) hSame hw

------------------------------------------------------------
-- A New Table
------------------------------------------------------------

theorem word_addTable_self
    (mem : ByteMemory)
    (root i f e : Nat)
    (hj : j < 1024) :
    (mem.addTable root i f e).word f j = 0 :=
  word_clearFrame_self _ _ hj

/- What a new table needs to be. -/
structure NewTable
    (mem : ByteMemory)
    (root i f e : Nat) : Prop where
  root_aligned : root % 4096 = 0
  index : i < 1024
  zero : mem.word root i = 0
  aligned : f % 4096 = 0
  ne_root : f ≠ root
  noTable : ∀ j, j < 1024 → mem.entry root j ≠ some f
  lt : e < 2 ^ 32
  frame : entryFrame e = some f

namespace NewTable

theorem word_other
    (hNew : NewTable mem root i f e)
    (hg : g % 4096 = 0)
    (hj : j < 1024)
    (hFrame : g ≠ f)
    (hOther : g ≠ root ∨ j ≠ i) :
    (mem.addTable root i f e).word g j = mem.word g j := by
  unfold addTable
  rw [(sameOn_clearFrame _ hNew.aligned hg hFrame).word hj]
  exact word_setWord_of_ne _ _ hNew.root_aligned hg hNew.index
    hj hOther

theorem word_root
    (hNew : NewTable mem root i f e)
    (hj : j < 1024)
    (hNe : j ≠ i) :
    (mem.addTable root i f e).word root j = mem.word root j :=
  hNew.word_other hNew.root_aligned hj hNew.ne_root.symm
    (.inr hNe)

theorem entry_root
    (hNew : NewTable mem root i f e)
    (hj : j < 1024)
    (hNe : j ≠ i) :
    (mem.addTable root i f e).entry root j =
      mem.entry root j :=
  entry_congr (hNew.word_root hj hNe)

theorem entry_self
    (hNew : NewTable mem root i f e) :
    (mem.addTable root i f e).entry root i = some f := by
  have hWord :
      (mem.addTable root i f e).word root i = e := by
    unfold addTable
    rw [(sameOn_clearFrame _ hNew.aligned hNew.root_aligned
      hNew.ne_root.symm).word hNew.index]
    exact word_setWord_self _ _ _ hNew.lt
  rw [entry_of_word hWord]
  exact hNew.frame

/- The new table maps nothing. -/
theorem pageAt_none
    (hNew : NewTable mem root i f e)
    (hn : n / 1024 = i) :
    (mem.addTable root i f e).pageAt root n = none := by
  have hDir :
      (mem.addTable root i f e).entry root (n / 1024) =
        some f := by
    rw [hn]
    exact hNew.entry_self
  rw [pageAt_of_entry hDir,
    entry_of_word
      (word_addTable_self _ _ _ _ _ (Nat.mod_lt _ (by decide)))]
  rfl

/-
  Pages stay as they are, unless they show the tables of the
  directory.
-/
theorem pageAt_eq
    (hNew : NewTable mem root i f e)
    (hn : n < 2 ^ 20)
    (hWindow : mem.entry root (n / 1024) ≠ some root) :
    (mem.addTable root i f e).pageAt root n =
      mem.pageAt root n := by
  by_cases hSame : n / 1024 = i
  · rw [hNew.pageAt_none hSame]
    have hZero := hNew.zero
    rw [← hSame] at hZero
    exact (pageAt_of_none (entry_of_word hZero)).symm
  · apply pageAt_congr
    · exact hNew.word_root (by omega) hSame
    · intro w hw
      apply hNew.word_other (entry_aligned hw) (by omega)
      · rintro rfl
        exact hNew.noTable _ (by omega) hw
      · refine .inl ?_
        rintro rfl
        exact hWindow hw

/- A page that shows a table shows the new one, too. -/
theorem pageAt_window
    (hNew : NewTable mem root i f e)
    (hn : n < 2 ^ 20)
    (hWindow : mem.entry root (n / 1024) = some root)
    (hNe : n % 1024 ≠ i) :
    (mem.addTable root i f e).pageAt root n =
      mem.pageAt root n := by
  have hIndex : n / 1024 ≠ i := by
    intro hSame
    rw [hSame, entry_of_word hNew.zero] at hWindow
    cases hWindow
  have hDir :=
    (hNew.entry_root (j := n / 1024) (by omega) hIndex).trans
      hWindow
  rw [pageAt_of_entry hWindow, pageAt_of_entry hDir]
  exact hNew.entry_root (Nat.mod_lt _ (by decide)) hNe

/- Frames other than the two stay as they are. -/
theorem sameOn
    (hNew : NewTable mem root i f e)
    (hg : g % 4096 = 0)
    (hRoot : g ≠ root)
    (hFrame : g ≠ f) :
    mem.SameOn g (g + 4096) (mem.addTable root i f e) :=
  (sameOn_setWord _ _ hNew.root_aligned hg hNew.index
    hRoot).trans
    (sameOn_clearFrame _ hNew.aligned hg hFrame)

theorem ownTable
    (hNew : NewTable mem root i f e)
    (hj : j < 1024)
    (hOwn : mem.OwnTable root j) :
    (mem.addTable root i f e).OwnTable root j := by
  by_cases hSame : j = i
  · subst hSame
    refine .inr ⟨f, hNew.entry_self, hNew.ne_root, ?_⟩
    intro l hl hNe
    rw [hNew.entry_root hl hNe]
    exact hNew.noTable l hl
  · rcases hOwn with hZero | ⟨u, hu, hNe, hOther⟩
    · exact .inl ((hNew.word_root hj hSame).trans hZero)
    · refine .inr ⟨u, ?_, hNe, ?_⟩
      · rw [hNew.entry_root hj hSame]
        exact hu
      · intro l hl hNe'
        by_cases hSelf : l = i
        · subst hSelf
          rw [hNew.entry_self]
          intro hEq
          cases hEq
          exact hNew.noTable j hj hu
        · rw [hNew.entry_root hl hSelf]
          exact hOther l hl hNe'

end NewTable

------------------------------------------------------------
-- A Range of Pages
------------------------------------------------------------

/-
  The tables of the pages from `lo` up to `hi`: none is
  shared, their entries are zero or present, and no page is
  mapped to the directory or to a table.
-/
structure RangeTables
    (mem : ByteMemory)
    (root lo hi : Nat) : Prop where
  aligned : root % 4096 = 0
  bound : hi ≤ 2 ^ 20
  own : ∀ n, lo ≤ n → n < hi → mem.OwnTable root (n / 1024)
  whole : ∀ n u, lo ≤ n → n < hi →
    mem.entry root (n / 1024) = some u →
      mem.word u (n % 1024) = 0 ∨
        mem.word u (n % 1024) % 2 = 1
  data : ∀ n f, lo ≤ n → n < hi →
    mem.pageAt root n = some f →
      f ≠ root ∧ ∀ j, j < 1024 → mem.entry root j ≠ some f

/- A frame that neither an entry nor a page refers to. -/
structure Spare
    (mem : ByteMemory)
    (root lo hi f : Nat) : Prop where
  aligned : f % 4096 = 0
  lt : f < 2 ^ 32
  ne_root : f ≠ root
  noTable : ∀ j, j < 1024 → mem.entry root j ≠ some f
  noPage : ∀ n, lo ≤ n → n < hi → mem.pageAt root n ≠ some f

/- The page has the entry `e` in its table. -/
def HasEntry (mem : ByteMemory) (root n e : Nat) : Prop :=
  ∃ u, mem.entry root (n / 1024) = some u ∧
    mem.word u (n % 1024) = e

/-
  From `mem` on, the pages from `lo` up to `k` have been
  entered with the flags `low`: with the frame they had, or
  with one of `frames`, of which `spare` is left.
-/
structure Entered
    (root lo hi k low : Nat)
    (frames spare : List Nat)
    (mem mem' : ByteMemory) : Prop where
  tables : RangeTables mem' root lo hi
  isSpare : ∀ f ∈ spare, Spare mem' root lo hi f
  nodup : spare.Nodup
  taken : ∀ f ∈ spare, f ∈ frames
  done : ∀ n, lo ≤ n → n < k →
    ∃ f, f % 4096 = 0 ∧ mem'.HasEntry root n (f + low) ∧
      (mem.pageAt root n = some f ∨
        mem.pageAt root n = none ∧ f ∈ frames)
  unique : ∀ n n' f, lo ≤ n → n < k → lo ≤ n' → n' < hi →
    mem.pageAt root n = none →
      mem'.pageAt root n = some f →
        mem'.pageAt root n' = some f → n' = n
  others : ∀ n, n < 2 ^ 20 → n < lo ∨ k ≤ n →
    mem.entry root (n / 1024) ≠ some root →
      mem'.pageAt root n = mem.pageAt root n
  words : ∀ n u, n < 2 ^ 20 → n < lo ∨ k ≤ n →
    mem.entry root (n / 1024) ≠ some root →
      mem'.entry root (n / 1024) = some u →
        mem'.word u (n % 1024) = 0 ∨
          mem.entry root (n / 1024) = some u ∧
            mem'.word u (n % 1024) = mem.word u (n % 1024)
  entries : ∀ i, i < 1024 →
    mem'.word root i = mem.word root i ∨
      mem.word root i = 0 ∧
        (∃ n, lo ≤ n ∧ n < hi ∧ n / 1024 = i) ∧
          ∃ f ∈ frames, mem'.entry root i = some f
  bytes : ∀ g, g % 4096 = 0 → g ≠ root →
    (∀ n, lo ≤ n → n < hi →
      mem'.entry root (n / 1024) ≠ some g) →
        mem.SameOn g (g + 4096) mem'

variable {lo hi k low : Nat}
variable {frames spare : List Nat}

theorem HasEntry.pageAt
    (hHas : mem.HasEntry root n e) :
    mem.pageAt root n = entryFrame e := by
  rcases hHas with ⟨u, hu, hWord⟩
  rw [pageAt_of_entry hu]
  exact entry_of_word hWord

theorem Entered.start
    (hTables : RangeTables mem root lo hi)
    (hSpare : ∀ f ∈ frames, Spare mem root lo hi f)
    (hNodup : frames.Nodup) :
    Entered root lo hi lo low frames frames mem mem where
  tables := hTables
  isSpare := hSpare
  nodup := hNodup
  taken := fun _ hf => hf
  done := fun n hLo hk => by omega
  unique := fun n n' f hLo hk => by omega
  others := fun _ _ _ _ => rfl
  words := fun _ _ _ _ _ hu => .inr ⟨hu, rfl⟩
  entries := fun _ _ => .inl rfl
  bytes := fun _ _ _ _ => SameOn.refl _ _ _

namespace Entered

/- The order of the spare frames does not matter. -/
theorem perm
    {spare' : List Nat}
    (hEntered :
      Entered root lo hi k low frames spare mem mem')
    (hPerm : spare'.Perm spare) :
    Entered root lo hi k low frames spare' mem mem' :=
  { hEntered with
    isSpare := fun f hf =>
      hEntered.isSpare f (hPerm.mem_iff.mp hf)
    nodup := hPerm.nodup_iff.mpr hEntered.nodup
    taken := fun f hf =>
      hEntered.taken f (hPerm.mem_iff.mp hf) }

/- The range has no window on the directory. -/
theorem no_window
    (hEntered :
      Entered root lo hi k low frames spare mem mem')
    (hLo : lo ≤ n)
    (hHi : n < hi) :
    mem'.entry root (n / 1024) ≠ some root := by
  intro hWindow
  exact ((hEntered.tables.own n hLo hHi).table hWindow).1 rfl

/- No window on the directory is added. -/
theorem window
    (hEntered :
      Entered root lo hi k low frames spare mem mem')
    (hi : i < 1024)
    (hWindow : mem'.entry root i = some root) :
    mem.entry root i = some root := by
  rcases hEntered.entries i hi with
    hSame | ⟨_, ⟨n, hLo, hHi, hn⟩, _⟩
  · rw [← entry_congr hSame]
    exact hWindow
  · rw [← hn] at hWindow
    exact absurd hWindow (hEntered.no_window hLo hHi)

/- The next page is as it was. -/
theorem next
    (hEntered :
      Entered root lo hi k low frames spare mem mem')
    (hLo : lo ≤ k)
    (hHi : k < hi) :
    mem'.pageAt root k = mem.pageAt root k := by
  have hBound := hEntered.tables.bound
  apply hEntered.others k (by omega) (.inr (Nat.le_refl k))
  intro hWindow
  rcases hEntered.entries (k / 1024) (by omega) with
    hSame | ⟨hZero, _⟩
  · apply hEntered.no_window hLo hHi
    rw [entry_congr hSame]
    exact hWindow
  · exact entry_ne_none hWindow hZero

theorem newTable
    (hEntered :
      Entered root lo hi k low frames (g :: spare) mem mem')
    (hHi : k < hi)
    (hZero : mem'.word root (k / 1024) = 0)
    (he : e < 2 ^ 32)
    (hFrame : entryFrame e = some g) :
    NewTable mem' root (k / 1024) g e := by
  have hBound := hEntered.tables.bound
  have hSpare := hEntered.isSpare g List.mem_cons_self
  exact
    { root_aligned := hEntered.tables.aligned
      index := by omega
      zero := hZero
      aligned := hSpare.aligned
      ne_root := hSpare.ne_root
      noTable := hSpare.noTable
      lt := he
      frame := hFrame }

/- Pages of the range stay as they are. -/
theorem pageAt_addTable
    (hEntered :
      Entered root lo hi k low frames (g :: spare) mem mem')
    (hNew : NewTable mem' root i g e)
    (hLo : lo ≤ n)
    (hHi : n < hi) :
    (mem'.addTable root i g e).pageAt root n =
      mem'.pageAt root n := by
  have hBound := hEntered.tables.bound
  exact hNew.pageAt_eq (by omega)
    (hEntered.no_window hLo hHi)

/- The next page needs a table. -/
theorem addTable
    (hEntered :
      Entered root lo hi k low frames (g :: spare) mem mem')
    (hLo : lo ≤ k)
    (hHi : k < hi)
    (hZero : mem'.word root (k / 1024) = 0)
    (he : e < 2 ^ 32)
    (hFrame : entryFrame e = some g) :
    Entered root lo hi k low frames spare mem
      (mem'.addTable root (k / 1024) g e) := by
  have hNew := hEntered.newTable hHi hZero he hFrame
  have hBound := hEntered.tables.bound
  have hSpare := hEntered.isSpare g List.mem_cons_self
  have hNodup := List.nodup_cons.mp hEntered.nodup
  -- a page with a table has another table
  have hWord :
      ∀ n u, lo ≤ n → n < hi →
        mem'.entry root (n / 1024) = some u →
          n / 1024 ≠ k / 1024 ∧
            (mem'.addTable root (k / 1024) g e).word u
                (n % 1024) =
              mem'.word u (n % 1024) := by
    intro n u hLo hHi hu
    constructor
    · intro hSame
      rw [hSame, entry_of_word hZero] at hu
      cases hu
    · apply hNew.word_other (entry_aligned hu) (by omega)
      · rintro rfl
        exact hSpare.noTable _ (by omega) hu
      · refine .inl ?_
        rintro rfl
        exact hEntered.no_window hLo hHi hu
  have hPage :
      ∀ n, lo ≤ n → n < hi →
        (mem'.addTable root (k / 1024) g e).pageAt root n =
          mem'.pageAt root n :=
    fun n hLo hHi => hEntered.pageAt_addTable hNew hLo hHi
  refine
    { tables := ?_
      isSpare := ?_
      nodup := hNodup.2
      taken := fun f hf =>
        hEntered.taken f (List.mem_cons_of_mem _ hf)
      done := ?_
      unique := ?_
      others := ?_
      words := ?_
      entries := ?_
      bytes := ?_ }
  · refine
      { aligned := hEntered.tables.aligned
        bound := hBound
        own := ?_
        whole := ?_
        data := ?_ }
    · intro n hLo hHi
      exact hNew.ownTable (by omega)
        (hEntered.tables.own n hLo hHi)
    · intro n u hLo hHi hu
      by_cases hSame : n / 1024 = k / 1024
      · rw [hSame, hNew.entry_self] at hu
        cases hu
        exact .inl
          (word_addTable_self _ _ _ _ _ (by omega))
      · rw [hNew.entry_root (by omega) hSame] at hu
        rw [(hWord n u hLo hHi hu).2]
        exact hEntered.tables.whole n u hLo hHi hu
    · intro n f hLo hHi hf
      rw [hPage n hLo hHi] at hf
      rcases hEntered.tables.data n f hLo hHi hf with
        ⟨hNe, hNoTable⟩
      refine ⟨hNe, ?_⟩
      intro j hj
      by_cases hSame : j = k / 1024
      · rw [hSame, hNew.entry_self]
        intro hEq
        cases hEq
        exact hSpare.noPage n hLo hHi hf
      · rw [hNew.entry_root hj hSame]
        exact hNoTable j hj
  · intro f hf
    have hOld :=
      hEntered.isSpare f (List.mem_cons_of_mem _ hf)
    refine
      { aligned := hOld.aligned
        lt := hOld.lt
        ne_root := hOld.ne_root
        noTable := ?_
        noPage := ?_ }
    · intro j hj
      by_cases hSame : j = k / 1024
      · rw [hSame, hNew.entry_self]
        intro hEq
        cases hEq
        exact hNodup.1 hf
      · rw [hNew.entry_root hj hSame]
        exact hOld.noTable j hj
    · intro n hLo hHi
      rw [hPage n hLo hHi]
      exact hOld.noPage n hLo hHi
  · intro n hLo hk
    rcases hEntered.done n hLo hk with
      ⟨f, hf, ⟨u, hu, hEntry⟩, hFrom⟩
    rcases hWord n u hLo (by omega) hu with ⟨hNe, hSame⟩
    refine ⟨f, hf, ⟨u, ?_, hSame.trans hEntry⟩, hFrom⟩
    rw [hNew.entry_root (by omega) hNe]
    exact hu
  · intro n n' f hLo hk hLo' hHi' hNone hf hf'
    rw [hPage n hLo (by omega)] at hf
    rw [hPage n' hLo' hHi'] at hf'
    exact hEntered.unique n n' f hLo hk hLo' hHi' hNone hf hf'
  · intro n hn hOut hWindow
    rw [hNew.pageAt_eq hn
      (fun h => hWindow (hEntered.window (by omega) h))]
    exact hEntered.others n hn hOut hWindow
  · intro n u hn hOut hWindow hu
    by_cases hSame : n / 1024 = k / 1024
    · rw [hSame, hNew.entry_self] at hu
      cases hu
      exact .inl (word_addTable_self _ _ _ _ _ (by omega))
    · rw [hNew.entry_root (by omega) hSame] at hu
      rw [hNew.word_other (entry_aligned hu) (by omega)]
      · exact hEntered.words n u hn hOut hWindow hu
      · rintro rfl
        exact hSpare.noTable _ (by omega) hu
      · refine .inl ?_
        rintro rfl
        exact hWindow (hEntered.window (by omega) hu)
  · intro j hj
    by_cases hSame : j = k / 1024
    · subst hSame
      refine .inr ⟨?_, ⟨k, hLo, hHi, rfl⟩, g,
        hEntered.taken g List.mem_cons_self,
        hNew.entry_self⟩
      rcases hEntered.entries _ hj with
        hEq | ⟨hZero', _⟩
      · rw [← hEq]
        exact hZero
      · exact hZero'
    · rw [hNew.word_root hj hSame, hNew.entry_root hj hSame]
      exact hEntered.entries j hj
  · intro f hf hNe hNoTable
    have hOther : f ≠ g := by
      rintro rfl
      exact hNoTable k hLo hHi hNew.entry_self
    refine (hEntered.bytes f hf hNe ?_).trans
      (hNew.sameOn hf hNe hOther)
    intro n hLo hHi hEntry
    have hApart : n / 1024 ≠ k / 1024 :=
      (hWord n f hLo hHi hEntry).1
    apply hNoTable n hLo hHi
    rw [hNew.entry_root (by omega) hApart]
    exact hEntry

/-
  The entry of the next page, with the frame `f`.  If one of
  two pages is new, the frame is not that of the other.
-/
theorem store
    {spare' : List Nat}
    (hEntered :
      Entered root lo hi k low frames spare mem mem')
    (hLo : lo ≤ k)
    (hHi : k < hi)
    (hEntry : mem'.entry root (k / 1024) = some u)
    (hLow : low < 4096)
    (hOdd : low % 2 = 1)
    (hf : f % 4096 = 0)
    (hLt : f < 2 ^ 32)
    (hNe : f ≠ root)
    (hNoTable : ∀ j, j < 1024 → mem'.entry root j ≠ some f)
    (hSpare : ∀ x ∈ spare', x ∈ spare ∧ x ≠ f)
    (hNodup : spare'.Nodup)
    (hFrom :
      mem.pageAt root k = some f ∨
        mem.pageAt root k = none ∧ f ∈ frames)
    (hOnly : ∀ n, lo ≤ n → n < hi → n ≠ k →
      mem.pageAt root k = none ∨
        n < k ∧ mem.pageAt root n = none →
          mem'.pageAt root n ≠ some f) :
    Entered root lo hi (k + 1) low frames spare' mem
      (mem'.setWord u (k % 1024) (f + low)) := by
  have hBound := hEntered.tables.bound
  have hRoot := hEntered.tables.aligned
  have hOwn := hEntered.tables.own k hLo hHi
  have huAligned := entry_aligned hEntry
  have hNeRoot := (hOwn.table hEntry).1
  have hFrame : entryFrame (f + low) = some f :=
    entryFrame_add hf hLow hOdd
  have hDir :
      ∀ j, j < 1024 →
        (mem'.setWord u (k % 1024) (f + low)).word root j =
          mem'.word root j :=
    fun j hj => word_root_store hRoot hOwn hEntry hj
  have hDirEntry :
      ∀ j, j < 1024 →
        (mem'.setWord u (k % 1024) (f + low)).entry root j =
          mem'.entry root j :=
    fun j hj => entry_congr (hDir j hj)
  have hSelf :
      (mem'.setWord u (k % 1024) (f + low)).pageAt root k =
        some f := by
    rw [pageAt_store_self hRoot (by omega) hOwn hEntry
      (by omega)]
    exact hFrame
  have hPage :
      ∀ n, n < 2 ^ 20 → n ≠ k →
        (mem'.setWord u (k % 1024) (f + low)).pageAt root n =
          mem'.pageAt root n :=
    fun n hn hNe => pageAt_store_of_ne hRoot hn hNe hOwn hEntry
  have hWord :
      ∀ n w, n < 2 ^ 20 → n ≠ k →
        mem'.entry root (n / 1024) = some w →
          (mem'.setWord u (k % 1024) (f + low)).word w
              (n % 1024) =
            mem'.word w (n % 1024) := by
    intro n w hn hNe' hw
    apply word_setWord_of_ne _ _ huAligned (entry_aligned hw)
      (by omega) (by omega)
    by_cases hSame : n / 1024 = k / 1024
    · exact .inr (by omega)
    · refine .inl ?_
      rintro rfl
      exact (hOwn.table hEntry).2 _ (by omega) hSame hw
  refine
    { tables := ?_
      isSpare := ?_
      nodup := hNodup
      taken := fun x hx =>
        hEntered.taken x (hSpare x hx).1
      done := ?_
      unique := ?_
      others := ?_
      words := ?_
      entries := ?_
      bytes := ?_ }
  · refine
      { aligned := hRoot
        bound := hBound
        own := ?_
        whole := ?_
        data := ?_ }
    · intro n hLo hHi
      exact (hEntered.tables.own n hLo hHi).congr (by omega)
        hDir
    · intro n w hLo hHi hw
      rw [hDirEntry _ (by omega)] at hw
      by_cases hSame : n = k
      · subst hSame
        rw [hEntry] at hw
        cases hw
        rw [word_setWord_self _ _ _ (by omega)]
        exact .inr (by omega)
      · rw [hWord n w (by omega) hSame hw]
        exact hEntered.tables.whole n w hLo hHi hw
    · intro n x hLo hHi hx
      have hOld :
          x ≠ root ∧
            ∀ j, j < 1024 → mem'.entry root j ≠ some x := by
        by_cases hSame : n = k
        · rw [hSame, hSelf] at hx
          cases hx
          exact ⟨hNe, hNoTable⟩
        · rw [hPage n (by omega) hSame] at hx
          exact hEntered.tables.data n x hLo hHi hx
      refine ⟨hOld.1, ?_⟩
      intro j hj
      rw [hDirEntry j hj]
      exact hOld.2 j hj
  · intro x hx
    rcases hSpare x hx with ⟨hMem, hNeX⟩
    have hOld := hEntered.isSpare x hMem
    refine
      { aligned := hOld.aligned
        lt := hOld.lt
        ne_root := hOld.ne_root
        noTable := ?_
        noPage := ?_ }
    · intro j hj
      rw [hDirEntry j hj]
      exact hOld.noTable j hj
    · intro n hLo hHi
      by_cases hSame : n = k
      · rw [hSame, hSelf]
        intro hEq
        cases hEq
        exact hNeX rfl
      · rw [hPage n (by omega) hSame]
        exact hOld.noPage n hLo hHi
  · intro n hLo hk
    by_cases hSame : n = k
    · subst hSame
      refine ⟨f, hf, ⟨u, ?_, ?_⟩, hFrom⟩
      · rw [hDirEntry _ (by omega)]
        exact hEntry
      · exact word_setWord_self _ _ _ (by omega)
    · rcases hEntered.done n hLo (by omega) with
        ⟨x, hx, ⟨w, hw, hOld⟩, hOldFrom⟩
      refine ⟨x, hx, ⟨w, ?_, ?_⟩, hOldFrom⟩
      · rw [hDirEntry _ (by omega)]
        exact hw
      · exact (hWord n w (by omega) hSame hw).trans hOld
  · intro n n' x hLoN hk hLo' hHi' hNone hx hx'
    by_contra hApart
    by_cases hSame : n = k
    · subst hSame
      rw [hSelf] at hx
      cases hx
      rw [hPage n' (by omega) hApart] at hx'
      exact hOnly n' hLo' hHi' hApart (.inl hNone) hx'
    · rw [hPage n (by omega) hSame] at hx
      by_cases hSame' : n' = k
      · subst hSame'
        rw [hSelf] at hx'
        cases hx'
        exact hOnly n hLoN (by omega) hSame
          (.inr ⟨by omega, hNone⟩) hx
      · rw [hPage n' (by omega) hSame'] at hx'
        exact hApart (hEntered.unique n n' x hLoN (by omega)
          hLo' hHi' hNone hx hx')
  · intro n hn hOut hWindow
    rw [hPage n hn (by omega)]
    exact hEntered.others n hn (by omega) hWindow
  · intro n w hn hOut hWindow hw
    rw [hDirEntry _ (by omega)] at hw
    rw [hWord n w hn (by omega) hw]
    exact hEntered.words n w hn (by omega) hWindow hw
  · intro j hj
    rw [hDir j hj, hDirEntry j hj]
    exact hEntered.entries j hj
  · intro g hg hNeG hNoTableG
    have hOther : g ≠ u := by
      rintro rfl
      apply hNoTableG k hLo hHi
      rw [hDirEntry _ (by omega)]
      exact hEntry
    refine (hEntered.bytes g hg hNeG ?_).trans
      (sameOn_setWord _ _ huAligned hg (by omega) hOther)
    intro n hLo hHi hEntryG
    apply hNoTableG n hLo hHi
    rw [hDirEntry _ (by omega)]
    exact hEntryG

/- The next page keeps its frame. -/
theorem keep
    (hEntered :
      Entered root lo hi k low frames spare mem mem')
    (hLo : lo ≤ k)
    (hHi : k < hi)
    (hEntry : mem'.entry root (k / 1024) = some u)
    (hLow : low < 4096)
    (hOdd : low % 2 = 1)
    (hLt : f < 2 ^ 32)
    (hPage : mem'.pageAt root k = some f) :
    Entered root lo hi (k + 1) low frames spare mem
      (mem'.setWord u (k % 1024) (f + low)) := by
  have hBound := hEntered.tables.bound
  have hData := hEntered.tables.data k f hLo hHi hPage
  have hOld : mem.pageAt root k = some f := by
    rw [← hEntered.next hLo hHi]
    exact hPage
  refine hEntered.store hLo hHi hEntry hLow hOdd
    (entry_aligned (pageAt_of_entry hEntry ▸ hPage)) hLt hData.1
    hData.2 ?_ hEntered.nodup (.inl hOld) ?_
  · intro x hx
    refine ⟨hx, ?_⟩
    rintro rfl
    exact (hEntered.isSpare x hx).noPage k hLo hHi hPage
  · intro n hLoN hHiN hNe hNew hSame
    rcases hNew with hNone | ⟨hLt, hNone⟩
    · rw [hOld] at hNone
      cases hNone
    · exact hNe (hEntered.unique n k f hLoN hLt hLo hHi hNone
        hSame hPage).symm

/- The next page gets a spare frame. -/
theorem take
    (hEntered :
      Entered root lo hi k low frames (f :: spare) mem mem')
    (hLo : lo ≤ k)
    (hHi : k < hi)
    (hEntry : mem'.entry root (k / 1024) = some u)
    (hLow : low < 4096)
    (hOdd : low % 2 = 1)
    (hNone : mem.pageAt root k = none) :
    Entered root lo hi (k + 1) low frames spare mem
      (mem'.setWord u (k % 1024) (f + low)) := by
  have hSpare := hEntered.isSpare f List.mem_cons_self
  have hNodup := List.nodup_cons.mp hEntered.nodup
  refine hEntered.store hLo hHi hEntry hLow hOdd
    hSpare.aligned hSpare.lt hSpare.ne_root hSpare.noTable ?_
    hNodup.2
    (.inr ⟨hNone, hEntered.taken f List.mem_cons_self⟩) ?_
  · intro x hx
    refine ⟨List.mem_cons_of_mem _ hx, ?_⟩
    rintro rfl
    exact hNodup.1 hx
  · intro n hLoN hHiN _ _
    exact hSpare.noPage n hLoN hHiN

/- An entry's own table stays its own. -/
theorem ownTable
    (hEntered :
      Entered root lo hi k low frames spare mem mem')
    (hi : i < 1024)
    (hFrames :
      ∀ f ∈ frames, ∀ j, j < 1024 → mem.entry root j ≠ some f)
    (hOwn : mem.OwnTable root i) :
    mem'.OwnTable root i := by
  rcases hEntered.entries i hi with
    hSame | ⟨_, ⟨n, hLo, hHi, hn⟩, _⟩
  · rcases hOwn with hZero | ⟨u, hu, hNe, hOther⟩
    · exact .inl (hSame.trans hZero)
    · refine .inr ⟨u, ?_, hNe, ?_⟩
      · rw [entry_congr hSame]
        exact hu
      · intro j hj hNe'
        rcases hEntered.entries j hj with
          hSame' | ⟨_, _, f, hf, hEntry⟩
        · rw [entry_congr hSame']
          exact hOther j hj hNe'
        · rw [hEntry]
          intro hEq
          cases hEq
          exact hFrames u hf i hi hu
  · rw [← hn]
    exact hEntered.tables.own n hLo hHi

/- A frame that no entry referred to, and that is not new. -/
theorem noTable
    (hEntered :
      Entered root lo hi k low frames spare mem mem')
    (hNoTable : ∀ j, j < 1024 → mem.entry root j ≠ some f)
    (hOld : f ∉ frames) :
    ∀ j, j < 1024 → mem'.entry root j ≠ some f := by
  intro j hj hEntry
  rcases hEntered.entries j hj with
    hSame | ⟨_, _, x, hx, hNew⟩
  · rw [entry_congr hSame] at hEntry
    exact hNoTable j hj hEntry
  · rw [hNew] at hEntry
    cases hEntry
    exact hOld hx

/- The tables that were there stay. -/
theorem entry_kept
    {j u : Nat}
    (hEntered :
      Entered root lo hi k low frames spare mem mem')
    (hj : j < 1024)
    (hEntry : mem.entry root j = some u) :
    mem'.entry root j = some u := by
  rcases hEntered.entries j hj with hSame | ⟨hZero, _, _⟩
  · rw [entry_congr hSame]
    exact hEntry
  · rw [entry_of_word hZero] at hEntry
    cases hEntry

end Entered

------------------------------------------------------------
-- A Wider Range
------------------------------------------------------------

/- No two pages of the range have the same frame. -/
def Distinct (mem : ByteMemory) (root lo hi : Nat) : Prop :=
  ∀ n n' f, lo ≤ n → n < hi → lo ≤ n' → n' < hi →
    mem.pageAt root n = some f →
      mem.pageAt root n' = some f → n = n'

/-
  All pages from `lo'` up to `hi'` could be entered, and those
  from `lo` up to `hi` are.
-/
structure Wider
    (mem : ByteMemory)
    (root lo hi lo' hi' : Nat)
    (frames : List Nat) : Prop where
  above : lo' ≤ lo
  below : hi ≤ hi'
  tables : RangeTables mem root lo' hi'
  spare : ∀ f ∈ frames, Spare mem root lo' hi' f

namespace Wider

variable {lo' hi' : Nat}

theorem no_window
    (hWider : Wider mem root lo hi lo' hi' frames)
    (hLo : lo' ≤ n)
    (hHi : n < hi') :
    mem.entry root (n / 1024) ≠ some root := by
  intro hWindow
  exact ((hWider.tables.own n hLo hHi).table hWindow).1 rfl

/- The other pages stay as they are. -/
theorem pageAt
    (hWider : Wider mem root lo hi lo' hi' frames)
    (hEntered :
      Entered root lo hi hi low frames spare mem mem')
    (hLo : lo' ≤ n)
    (hHi : n < hi')
    (hOut : n < lo ∨ hi ≤ n) :
    mem'.pageAt root n = mem.pageAt root n := by
  have hBound := hWider.tables.bound
  exact hEntered.others n (by omega) hOut
    (hWider.no_window hLo hHi)

/- A page has the frame it had, or a new one. -/
theorem pageAt_from
    (hWider : Wider mem root lo hi lo' hi' frames)
    (hLow : low < 4096)
    (hOdd : low % 2 = 1)
    (hEntered :
      Entered root lo hi hi low frames spare mem mem')
    (hLo : lo' ≤ n)
    (hHi : n < hi')
    (hPage : mem'.pageAt root n = some f) :
    mem.pageAt root n = some f ∨
      (lo ≤ n ∧ n < hi) ∧ mem.pageAt root n = none ∧
        f ∈ frames := by
  by_cases hInside : lo ≤ n ∧ n < hi
  · rcases hEntered.done n hInside.1 hInside.2 with
      ⟨x, hx, hHas, hFrom⟩
    rw [hHas.pageAt, entryFrame_add hx hLow hOdd] at hPage
    cases hPage
    rcases hFrom with hOld | hNew
    · exact .inl hOld
    · exact .inr ⟨hInside, hNew⟩
  · rw [hWider.pageAt hEntered hLo hHi (by omega)] at hPage
    exact .inl hPage

theorem entered_tables
    (hWider : Wider mem root lo hi lo' hi' frames)
    (hEntered :
      Entered root lo hi hi low frames spare mem mem') :
    RangeTables mem' root lo' hi' := by
  have hBound := hWider.tables.bound
  refine
    { aligned := hWider.tables.aligned
      bound := hBound
      own := ?_
      whole := ?_
      data := ?_ }
  · intro n hLo hHi
    exact hEntered.ownTable (by omega)
      (fun f hf => (hWider.spare f hf).noTable)
      (hWider.tables.own n hLo hHi)
  · intro n u hLo hHi hu
    by_cases hInside : lo ≤ n ∧ n < hi
    · exact hEntered.tables.whole n u hInside.1 hInside.2 hu
    · rcases hEntered.words n u (by omega) (by omega)
        (hWider.no_window hLo hHi) hu with
        hZero | ⟨hOld, hSame⟩
      · exact .inl hZero
      · rw [hSame]
        exact hWider.tables.whole n u hLo hHi hOld
  · intro n f hLo hHi hf
    by_cases hInside : lo ≤ n ∧ n < hi
    · exact hEntered.tables.data n f hInside.1 hInside.2 hf
    · rw [hWider.pageAt hEntered hLo hHi (by omega)] at hf
      rcases hWider.tables.data n f hLo hHi hf with
        ⟨hNe, hNoTable⟩
      refine ⟨hNe, hEntered.noTable hNoTable ?_⟩
      intro hMem
      exact (hWider.spare f hMem).noPage n hLo hHi hf

theorem entered_spare
    (hWider : Wider mem root lo hi lo' hi' frames)
    (hEntered :
      Entered root lo hi hi low frames spare mem mem')
    (hf : f ∈ spare) :
    Spare mem' root lo' hi' f := by
  have hSpare := hEntered.isSpare f hf
  refine
    { aligned := hSpare.aligned
      lt := hSpare.lt
      ne_root := hSpare.ne_root
      noTable := hSpare.noTable
      noPage := ?_ }
  intro n hLo hHi
  by_cases hInside : lo ≤ n ∧ n < hi
  · exact hSpare.noPage n hInside.1 hInside.2
  · rw [hWider.pageAt hEntered hLo hHi (by omega)]
    exact (hWider.spare f (hEntered.taken f hf)).noPage n hLo
      hHi

/- New frames are not those of other pages. -/
theorem entered_distinct
    (hWider : Wider mem root lo hi lo' hi' frames)
    (hLow : low < 4096)
    (hOdd : low % 2 = 1)
    (hEntered :
      Entered root lo hi hi low frames spare mem mem')
    (hDistinct : mem.Distinct root lo' hi') :
    mem'.Distinct root lo' hi' := by
  intro n n' f hLo hHi hLo' hHi' hf hf'
  rcases hWider.pageAt_from hLow hOdd hEntered hLo hHi hf with
    hOld | ⟨hIn, hNone, hMem⟩
  · rcases hWider.pageAt_from hLow hOdd hEntered hLo' hHi' hf'
      with hOld' | ⟨hIn', hNone', hMem'⟩
    · exact hDistinct n n' f hLo hHi hLo' hHi' hOld hOld'
    · exact absurd hOld ((hWider.spare f hMem').noPage n hLo hHi)
  · rcases hWider.pageAt_from hLow hOdd hEntered hLo' hHi' hf'
      with hOld' | ⟨hIn', hNone', hMem'⟩
    · exact absurd hOld'
        ((hWider.spare f hMem).noPage n' hLo' hHi')
    · exact (hEntered.unique n n' f hIn.1 hIn.2 hIn'.1 hIn'.2
        hNone hf hf').symm

end Wider

end ByteMemory
