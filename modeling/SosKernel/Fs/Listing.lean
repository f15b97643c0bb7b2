import Mathlib.Data.List.Forall2
import SosKernel.Fs.ReadRange

/-
  The names that `readdir` lists and those that `finddir`
  finds, in the two directories of a mounted ramdisk.

  Main declarations:
    * `HoldsName`, `FileNames`
    * `Agrees`: listing and search describe one set
    * `readdir_file`, `findNode_isSome_iff`
    * `listing_agrees_iff`
    * `dev_disagrees`
-/

------------------------------------------------------------
-- Names
------------------------------------------------------------

namespace SosKernel

namespace Fs

/- The array holds the string `name` and its end. -/
def HoldsName (array name : List UInt8) : Prop :=
  Unterminated name ∧ ∃ rest, array = name ++ 0 :: rest

/- The names of the files, in the order of their nodes. -/
def FileNames (s : Initrd) (names : List (List UInt8)) : Prop :=
  List.Forall₂ (fun node name => HoldsName node.name name)
    s.rootNodes names

/- The call returns an entry with this name. -/
def ReturnsName
    (s : Initrd)
    (d : NodeRef)
    (index : UInt32)
    (name : List UInt8) : Prop :=
  ∀ dirent : Dirent, dirent.name.length = NODE_NAME →
    ∃ dirent' : Dirent,
      readdir s d index dirent = some (true, dirent') ∧
        HoldsName dirent'.name name

def ReturnsNull
    (s : Initrd)
    (d : NodeRef)
    (index : UInt32) : Prop :=
  ∀ dirent, readdir s d index dirent = some (false, dirent)

/-
  The calls with the indices 0, 1, ... return these names
  before the first null, if there is a null.
-/
structure Lists
    (s : Initrd)
    (d : NodeRef)
    (names : List (List UInt8)) : Prop where
  returns :
    ∀ i (hi : i < names.length),
      ReturnsName s d (UInt32.ofNat i) names[i]
  length_le : names.length ≤ 2 ^ 32
  null :
    names.length < 2 ^ 32 →
      ReturnsNull s d (UInt32.ofNat names.length)

/-
  The names listed before the first null are distinct, they
  are the names that are found, and nothing is listed after
  the first null.
-/
def Agrees (s : Initrd) (d : NodeRef) : Prop :=
  ∃ names,
    Lists s d names ∧
      names.Nodup ∧
      (∀ name, Unterminated name →
        ∃ r, finddir s d name = some r ∧
          (r.isSome ↔ name ∈ names)) ∧
      ∀ index : UInt32, names.length < index.toNat →
        ReturnsNull s d index

/- No call returns both. -/
theorem ReturnsName.not_null
    {s : Initrd}
    {d : NodeRef}
    {index : UInt32}
    {name : List UInt8}
    (hName : ReturnsName s d index name) :
    ¬ ReturnsNull s d index := by
  intro hNull
  rcases hName ⟨zeroNode.name, 0⟩ rfl with
    ⟨dirent, hEntry, -⟩
  rw [hNull] at hEntry
  cases hEntry

------------------------------------------------------------
-- Copies of Names
------------------------------------------------------------

variable {mem mem₀ mem₁ : ByteMemory}
variable {location : UInt32}
variable {s : Initrd}
variable {d : NodeRef}
variable {nodes : List FsNode}
variable {names : List (List UInt8)}
variable {array name : List UInt8}

theorem HoldsName.strlen
    (hName : HoldsName array name) :
    strlen array = some name.length := by
  rcases hName with ⟨hName, rest, rfl⟩
  induction name with
  | nil => rfl
  | cons c name ih =>
      have hc : c ≠ 0 := hName c List.mem_cons_self
      have hRest : Unterminated name :=
        fun b hb => hName b (List.mem_cons_of_mem c hb)
      rw [List.cons_append, Fs.strlen, if_neg hc, ih hRest]
      rfl

/- The copy ends at a zero that is no farther than `room`. -/
theorem strcpyBytes_of_zero
    {src k : Nat}
    (room : Nat)
    (hZero : mem (src + k + 1) = 0)
    (hRoom : k < room) :
    ∃ b bs, strcpyBytes mem room src = some (b :: bs) := by
  induction room generalizing src k with
  | zero => exact absurd hRoom (Nat.not_lt_zero k)
  | succ room ih =>
      unfold strcpyBytes
      split
      · rename_i hNext
        cases k with
        | zero => exact absurd hZero hNext
        | succ k =>
            have hAddr :
                src + (k + 1) + 1 = src + 1 + k + 1 := by
              omega
            rw [hAddr] at hZero
            rcases ih hZero (Nat.lt_of_succ_lt_succ hRoom) with
              ⟨b, bs, hCopy⟩
            exact ⟨_, _, by rw [hCopy]; rfl⟩
      · exact ⟨_, _, rfl⟩

/-
  A name is copied into an array of the same length, and
  ended there.
-/
theorem HoldsName.strcpy
    (dest : List UInt8)
    (hName : HoldsName array name)
    (hLength : array.length ≤ dest.length) :
    ∃ bs, strcpy (bytesOf array) dest 0 = some bs ∧
      HoldsName (bs.set name.length 0) name := by
  rcases hName with ⟨hName, rest, rfl⟩
  rw [List.length_append, List.length_cons] at hLength
  unfold Fs.strcpy
  cases hCons : name with
  | nil =>
      -- more may be copied, which the end cuts off
      have hZero :
          bytesOf (0 :: rest) (0 + rest.length + 1) = 0 := by
        unfold bytesOf
        rw [List.getD_eq_getElem?_getD,
          List.getElem?_eq_none (by rw [List.length_cons]; omega)]
        rfl
      rw [hCons, List.length_nil] at hLength
      rcases strcpyBytes_of_zero dest.length
          hZero (by omega) with ⟨b, bs, hCopy⟩
      rw [List.nil_append, hCopy]
      refine ⟨_, rfl, ?_, _, rfl⟩
      intro c hc
      cases hc
  | cons c cs =>
      have hHolds :
          (bytesOf (name ++ 0 :: rest)).HoldsAt 0
            (cString name) := by
        intro k hk
        have hPrefix : cString name <+: name ++ 0 :: rest := by
          refine ⟨rest, ?_⟩
          rw [cString, List.append_assoc]
          rfl
        have hIn := Nat.lt_of_lt_of_le hk hPrefix.length_le
        rw [Nat.zero_add, bytesOf, List.getD_eq_getElem?_getD,
          List.getElem?_eq_getElem hIn, hPrefix.getElem hk]
        rfl
      rw [← hCons,
        strcpyBytes_terminated (by rw [hCons]; exact List.cons_ne_nil c cs)
          hName hHolds (by omega)]
      refine ⟨_, rfl, hName, dest.drop (name.length + 1), ?_⟩
      rw [List.set_append_right _ _ (Nat.le_refl _),
        Nat.sub_self, List.drop_eq_getElem_cons (by omega),
        List.set_cons_zero]

------------------------------------------------------------
-- The Directories of a Mounted Ramdisk
------------------------------------------------------------

theorem initInitrd_dir
    (hMount : initInitrd location mem₀ = some (mem₁, s))
    (hd : d = .root ∨ d = .dev) :
    ∃ node, s.node d = some node ∧
      node.flags = FS_DIRECTORY ∧
      node.readdir = some .initrdReaddir ∧
      node.finddir = some .initrdFinddir := by
  unfold initInitrd at hMount
  rcases Option.map_eq_some_iff.mp hMount with
    ⟨⟨mem, nodes⟩, -, hPair⟩
  cases hPair
  rcases hd with rfl | rfl
  · exact ⟨_, rfl, rfl, rfl, rfl⟩
  · exact ⟨_, rfl, rfl, rfl, rfl⟩

theorem readdir_dir
    (hMount : initInitrd location mem₀ = some (mem₁, s))
    (hd : d = .root ∨ d = .dev)
    (index : UInt32)
    (dirent : Dirent) :
    readdir s d index dirent =
      initrdReaddir s d index dirent := by
  rcases initInitrd_dir hMount hd with
    ⟨node, hNode, hFlags, hReaddir, -⟩
  have hDirectory : (FS_DIRECTORY &&& 7) = FS_DIRECTORY := by
    decide
  unfold readdir
  simp only [hNode, hFlags, hReaddir, hDirectory, if_true]

theorem finddir_dir
    (hMount : initInitrd location mem₀ = some (mem₁, s))
    (hd : d = .root ∨ d = .dev)
    (name : List UInt8) :
    finddir s d name = initrdFinddir s d name := by
  rcases initInitrd_dir hMount hd with
    ⟨node, hNode, hFlags, -, hFinddir⟩
  have hDirectory : (FS_DIRECTORY &&& 7) = FS_DIRECTORY := by
    decide
  unfold finddir
  simp only [hNode, hFlags, hFinddir, hDirectory, if_true]

------------------------------------------------------------
-- Listing
------------------------------------------------------------

/- The entry of the root for the other directory. -/
theorem readdir_zero
    (hMount : initInitrd location mem₀ = some (mem₁, s)) :
    ReturnsName s .root 0 DEV := by
  intro dirent hLength
  have hDev : HoldsName (cString DEV) DEV :=
    ⟨unterminated_DEV, [], rfl⟩
  rcases hDev.strcpy dirent.name
      (by rw [hLength]; decide) with ⟨bs, hCopy, hBs⟩
  rw [readdir_dir hMount (.inl rfl)]
  unfold initrdReaddir
  rw [if_pos ⟨rfl, rfl⟩, hCopy]
  exact ⟨_, rfl, hBs⟩

theorem FileNames.length
    (hNames : FileNames s names) :
    s.rootNodes.length = names.length :=
  hNames.length_eq

/- An index from one on stands for a file, if it is small. -/
theorem readdir_file
    {i : Nat}
    (hMount : initInitrd location mem₀ = some (mem₁, s))
    (hd : d = .root ∨ d = .dev)
    (hNames : FileNames s names)
    (hi : i < names.length) :
    ReturnsName s d (UInt32.ofNat (i + 1)) names[i] := by
  intro dirent hLength
  rcases initInitrd_nodes hMount with ⟨hCount, hNodes⟩
  have hFiles := hNames.length
  have hIndex :
      (UInt32.ofNat (i + 1) - 1).toNat = i := by
    rw [UInt32.toNat_sub, UInt32.toNat_ofNat']
    change (2 ^ 32 - 1 + (i + 1) % 2 ^ 32) % 2 ^ 32 = i
    omega
  have hRoot :
      ¬ (d = .root ∧ UInt32.ofNat (i + 1) = 0) := by
    rintro ⟨-, hZero⟩
    have hNat := congrArg UInt32.toNat hZero
    rw [UInt32.toNat_ofNat', Nat.mod_eq_of_lt (by omega)]
      at hNat
    cases hNat
  have hi' : i < s.rootNodes.length := by omega
  have hName : HoldsName s.rootNodes[i].name names[i] :=
    List.Forall₂.get hNames hi' hi
  rcases hName.strcpy dirent.name
      (by rw [hLength, (hNodes i hi').name]) with
    ⟨bs, hCopy, hBs⟩
  rw [readdir_dir hMount hd]
  unfold initrdReaddir
  rw [if_neg hRoot, hIndex, List.getElem?_eq_getElem hi']
  simp only [hCopy, hName.strlen]
  exact ⟨_, rfl, hBs⟩

/- Past the files there is nothing, nor at the index -1. -/
theorem readdir_null
    {index : UInt32}
    (hMount : initInitrd location mem₀ = some (mem₁, s))
    (hd : d = .root ∨ d = .dev)
    (hRoot : d = .root → index ≠ 0)
    (hPast : s.rootNodes.length ≤ (index - 1).toNat) :
    ReturnsNull s d index := by
  intro dirent
  rw [readdir_dir hMount hd]
  unfold initrdReaddir
  rw [if_neg (fun hBoth => hRoot hBoth.1 hBoth.2),
    List.getElem?_eq_none hPast]

------------------------------------------------------------
-- Searching
------------------------------------------------------------

/- The loop of the search finds the names of the files. -/
theorem findNode_isSome_iff
    (hNames :
      List.Forall₂ (fun node name => HoldsName node.name name)
        nodes names)
    (hName : Unterminated name)
    (i : Nat) :
    ∃ r, findNode name nodes i = some r ∧
      (r.isSome ↔ name ∈ names) := by
  induction hNames generalizing i with
  | nil => exact ⟨none, rfl, by simp⟩
  | @cons node first nodes names hFirst hRest ih =>
      rcases hFirst with ⟨hFirst, rest, hArray⟩
      unfold findNode
      rw [hArray]
      by_cases hSame : name = first
      · rw [hSame, strcmp_self hFirst]
        exact ⟨_, if_pos rfl, by simp⟩
      · rcases strcmp_of_ne rest hName hFirst hSame with
          ⟨e, he, hZero⟩
        rcases ih (i + 1) with ⟨r, hFind, hIff⟩
        rw [he]
        refine ⟨r, (if_neg hZero).trans hFind, ?_⟩
        rw [hIff, List.mem_cons]
        exact ⟨.inr, fun hMem => hMem.resolve_left hSame⟩

/- What is found in the directories. -/
theorem finddir_isSome_iff
    (hMount : initInitrd location mem₀ = some (mem₁, s))
    (hd : d = .root ∨ d = .dev)
    (hNames : FileNames s names)
    (hName : Unterminated name) :
    ∃ r, finddir s d name = some r ∧
      (r.isSome ↔ (d = .root ∧ name = DEV) ∨ name ∈ names) := by
  have hDevName : Unterminated DEV := unterminated_DEV
  rcases findNode_isSome_iff hNames hName 0 with
    ⟨r, hFind, hIff⟩
  rw [finddir_dir hMount hd]
  unfold initrdFinddir
  by_cases hDev : name = DEV
  · rw [hDev]
    rw [hDev] at hFind hIff
    have hSelf :
        strcmp (cString DEV) (cString DEV) = some 0 :=
      strcmp_self hDevName
    rw [hSelf]
    by_cases hRoot : d = .root
    · exact ⟨_, if_pos ⟨hRoot, rfl⟩, by simp [hRoot]⟩
    · refine ⟨r, ?_, ?_⟩
      · exact (if_neg (fun hBoth => hRoot hBoth.1)).trans hFind
      · rw [hIff]
        simp [hRoot]
  · rcases strcmp_of_ne [] hName hDevName hDev with
      ⟨e, he, hZero⟩
    change strcmp (cString name) (cString DEV) = some e at he
    rw [he]
    refine ⟨r, ?_, ?_⟩
    · exact (if_neg (fun hBoth => hZero hBoth.2)).trans hFind
    · rw [hIff]
      simp [hDev]

------------------------------------------------------------
-- Agreement
------------------------------------------------------------

theorem toNat_sub_one
    {index : UInt32}
    (hIndex : index ≠ 0) :
    (index - 1).toNat = index.toNat - 1 := by
  apply UInt32.toNat_sub_of_le
  have hNat : index.toNat ≠ (0 : UInt32).toNat :=
    mt UInt32.toNat_inj.mp hIndex
  exact UInt32.le_iff_toNat_le.mpr
    (Nat.one_le_iff_ne_zero.mpr hNat)

/- The root lists "dev" and then the files. -/
theorem agrees_root
    (hMount : initInitrd location mem₀ = some (mem₁, s))
    (hNames : FileNames s names)
    (hDistinct : names.Nodup)
    (hDev : DEV ∉ names) :
    Agrees s .root := by
  have hCount := (initInitrd_nodes hMount).1
  have hLength := hNames.length
  have hPast :
      ∀ index : UInt32, names.length < index.toNat →
        ReturnsNull s .root index := by
    intro index hIndex
    have hNe : index ≠ 0 := by
      rintro rfl
      exact Nat.not_lt_zero _ hIndex
    refine readdir_null hMount (.inl rfl) (fun _ => hNe) ?_
    rw [toNat_sub_one hNe, hLength]
    exact Nat.le_sub_one_of_lt hIndex
  refine ⟨DEV :: names, ⟨?_, ?_, ?_⟩, ?_, ?_, ?_⟩
  · intro i hi
    cases i with
    | zero => exact readdir_zero hMount
    | succ i =>
        exact readdir_file hMount (.inl rfl) hNames
          (Nat.lt_of_succ_lt_succ hi)
  · rw [List.length_cons]
    omega
  · intro hRoom
    apply hPast
    rw [UInt32.toNat_ofNat', Nat.mod_eq_of_lt hRoom]
    exact Nat.lt_succ_self _
  · exact List.nodup_cons.mpr ⟨hDev, hDistinct⟩
  · intro name hName
    rcases finddir_isSome_iff hMount (.inl rfl) hNames hName
      with ⟨r, hFind, hIff⟩
    refine ⟨r, hFind, ?_⟩
    rw [hIff, List.mem_cons]
    simp only [true_and]
  · intro index hIndex
    apply hPast
    exact Nat.lt_of_succ_lt hIndex

/- The index zero is past the files of the directory. -/
theorem readdir_dev_zero
    (hMount : initInitrd location mem₀ = some (mem₁, s)) :
    ReturnsNull s .dev 0 := by
  refine readdir_null hMount (.inr rfl) ?_ ?_
  · intro hRoot
    cases hRoot
  · have hCount := (initInitrd_nodes hMount).1
    change s.rootNodes.length ≤ 2 ^ 32 - 1
    omega

/-
  The other directory lists nothing before the first null,
  and its callbacks find the files all the same.
-/
theorem agrees_dev_iff
    (hMount : initInitrd location mem₀ = some (mem₁, s))
    (hNames : FileNames s names) :
    Agrees s .dev ↔ names = [] := by
  have hNull := readdir_dev_zero hMount
  constructor
  · rintro ⟨listed, hLists, -, hFinds, -⟩
    have hNothing : listed = [] := by
      cases listed with
      | nil => rfl
      | cons name listed =>
          have hEntry :=
            hLists.returns 0 (Nat.zero_lt_succ _)
          exact absurd hNull hEntry.not_null
    cases names with
    | nil => rfl
    | cons name names =>
        have hName : Unterminated name := by
          rcases hNode : s.rootNodes with _ | ⟨node, nodes⟩
          · have hLength := hNames.length
            rw [hNode] at hLength
            cases hLength
          · unfold FileNames at hNames
            rw [hNode, List.forall₂_cons] at hNames
            exact hNames.1.1
        rcases hFinds name hName with ⟨r, hFind, hIff⟩
        rcases finddir_isSome_iff hMount (.inr rfl) hNames
            hName with ⟨r', hFind', hIff'⟩
        rw [hFind', Option.some.injEq] at hFind
        rw [hNothing, ← hFind] at hIff
        have hFound := hIff'.mpr (.inr List.mem_cons_self)
        cases hIff.mp hFound
  · rintro rfl
    refine ⟨[], ⟨?_, Nat.zero_le _, fun _ => hNull⟩,
      List.nodup_nil, ?_, ?_⟩
    · intro i hi
      exact absurd hi (Nat.not_lt_zero i)
    · intro name hName
      rcases finddir_isSome_iff hMount (.inr rfl) hNames hName
        with ⟨r, hFind, hIff⟩
      refine ⟨r, hFind, hIff.trans ?_⟩
      simp
    · intro index hIndex
      have hFiles := hNames.length
      refine readdir_null hMount (.inr rfl) ?_ ?_
      · intro hRoot
        cases hRoot
      · rw [hFiles]
        exact Nat.zero_le _

/-
  In a mounted ramdisk with distinct names of files other
  than "dev", listing and search agree in the root, and in
  the other directory only when there are no files.
-/
theorem listing_agrees_iff
    (hMount : initInitrd location mem₀ = some (mem₁, s))
    (hNames : FileNames s names)
    (hDistinct : names.Nodup)
    (hDev : DEV ∉ names)
    (hd : d = .root ∨ d = .dev) :
    Agrees s d ↔ d = .root ∨ names = [] := by
  rcases hd with rfl | rfl
  · exact ⟨fun _ => .inl rfl,
      fun _ => agrees_root hMount hNames hDistinct hDev⟩
  · rw [agrees_dev_iff hMount hNames]
    exact ⟨.inr, fun hEither =>
      hEither.resolve_left (fun hRoot => by cases hRoot)⟩

------------------------------------------------------------
-- A Ramdisk with One File
------------------------------------------------------------

theorem oneFile_names :
    ∃ mem s, initInitrd 0x200000 oneFile = some (mem, s) ∧
      FileNames s [[97]] := by
  have hMap :
      (initInitrd 0x200000 oneFile).map
          (fun r => r.2.rootNodes.map (·.name)) =
        some [97 :: 0 :: List.replicate 126 0] := by
    decide +kernel
  rcases Option.map_eq_some_iff.mp hMap with
    ⟨⟨mem, s⟩, hMount, hNames⟩
  refine ⟨mem, s, hMount, ?_⟩
  have hName :
      HoldsName (97 :: 0 :: List.replicate 126 0) [97] :=
    ⟨unterminated_cons (by decide) unterminated_nil, _, rfl⟩
  have hArrays :
      List.Forall₂ HoldsName (s.rootNodes.map (·.name))
        [[97]] := by
    rw [hNames]
    exact .cons hName .nil
  exact List.forall₂_map_left_iff.mp hArrays

theorem oneFile_agrees :
    ∃ mem s, initInitrd 0x200000 oneFile = some (mem, s) ∧
      (Agrees s .dev ↔ NodeRef.dev = .root ∨ [([97] : List UInt8)] = []) := by
  rcases oneFile_names with ⟨mem, s, hMount, hNames⟩
  exact ⟨mem, s, hMount,
    listing_agrees_iff hMount hNames (by decide)
      (by decide) (.inr rfl)⟩

/-
  With one file, `readdir` of the other directory lists
  nothing, and `finddir` finds the file there.
-/
theorem dev_disagrees :
    ¬ ∀ location mem₀ mem s names d,
      initInitrd location mem₀ = some (mem, s) →
        FileNames s names →
        names.Nodup →
        DEV ∉ names →
        d = .root ∨ d = .dev →
        Agrees s d := by
  intro hAll
  rcases oneFile_names with ⟨mem, s, hMount, hNames⟩
  have hAgrees :=
    hAll _ _ mem s _ _ hMount hNames (by decide)
      (by decide) (.inr rfl)
  cases (agrees_dev_iff hMount hNames).mp hAgrees

end Fs

end SosKernel
