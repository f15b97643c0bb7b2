import SosKernel.Fs.Listing
import SosKernel.Kprintf

/-
  The function `debug_print_root_content` of `init/debug.c`,
  for a ramdisk that `make_initrd` has written.

  Main declarations:
    * `debugPrintRootContent`
    * `Row`: what is shown of a node
    * `print_rows`: a listing is printed row by row
    * `root_content_shown`
-/

------------------------------------------------------------
-- The Function
------------------------------------------------------------

namespace SosKernel

namespace Debug

open Fs (Dirent File FsNode HoldsName Initrd ReturnsName
  ReturnsNull finddir readdir)
open Kprintf (Console Given InBuffer Known Prints argsOf format
  kprintf literal putBytes shown shown_of_unterminated
  unterminated_append unterminated_literal)
open Vsprintf (Args Format Means Texts)

/- Where the buffer of `kprintf` and the shared entry are. -/
structure Link where
  buf : UInt32
  dirent : UInt32

def lineFormat : Format :=
  format "\t%.20s\t0x%x\t%d\n" (by decide)

/- The bytes of a `dirent_t`. -/
def direntBytes (dirent : Dirent) : List UInt8 :=
  dirent.name ++
    [dirent.inode.toUInt8, (dirent.inode >>> 8).toUInt8,
      (dirent.inode >>> 16).toUInt8,
      (dirent.inode >>> 24).toUInt8]

/- The string in an array. -/
def stringOf (array : List UInt8) : List UInt8 :=
  array.takeWhile (· ≠ 0)

/- The node that `finddir` returns, if it returns one. -/
def foundNode
    (s : Initrd)
    (name : List UInt8) : Option FsNode :=
  (finddir s .root name).join.bind s.node

/- The shared entry is stored. -/
def storeDirent
    (link : Link)
    (dirent : Dirent)
    (c : Console) : Console where
  mem :=
    putBytes c.mem
      (Vsprintf.bytesFrom link.dirent (direntBytes dirent))
  monitor := c.monitor

/- The call of `kprintf`, with the entry in memory. -/
def printNode
    (link : Link)
    (dirent : Dirent)
    (fsnode : FsNode)
    (c : Console) : Option Console :=
  kprintf link.buf lineFormat
    (argsOf [link.dirent, fsnode.flags, fsnode.length])
    (storeDirent link dirent c)

/-
  The loop from the index `i` on, of as many rounds at most.
  There is no result if a name that is listed is not found,
  since its node is read then.
-/
def debugPrintRootContent
    (link : Link)
    (s : Initrd) :
    Nat → UInt32 → Dirent → Console → Option (Dirent × Console)
| 0, _, _, _ => none
| n + 1, i, dirent, c =>
    (readdir s .root i dirent).bind fun entry =>
      if entry.1 then
        (foundNode s (stringOf entry.2.name)).bind
          fun fsnode =>
            (printNode link entry.2 fsnode c).bind fun c =>
              debugPrintRootContent link s n (i + 1) entry.2 c
      else
        some (entry.2, c)

------------------------------------------------------------
-- What It Is For
------------------------------------------------------------

/- What is shown of a node. -/
structure Row where
  name : List UInt8
  flags : UInt32
  length : UInt32

/- The line of a row, with the start of the name only. -/
def Row.line (row : Row) : List UInt8 :=
  literal "\t" ++
    (row.name.take 20 ++
      (literal "\t0x" ++
        (Vsprintf.numeral Vsprintf.SMALL 16 row.flags.toNat ++
          (literal "\t" ++
            (Vsprintf.signedText row.length.toInt32 ++
              literal "\n")))))

/- The root lists the row at the index. -/
structure Row.ListedAt
    (s : Initrd)
    (i : UInt32)
    (row : Row) : Prop where
  unterminated : Fs.Unterminated row.name
  returned : ReturnsName s .root i row.name
  found :
    ∃ node, foundNode s row.name = some node ∧
      node.flags = row.flags ∧ node.length = row.length

/- The rows of a ramdisk with the files. -/
def rowsOf (files : List File) : List Row :=
  ⟨Fs.DEV, Fs.FS_DIRECTORY, 0⟩ ::
    files.map fun f =>
      ⟨f.name, Fs.FS_FILE, .ofNat f.contents.length⟩

/- An address in the shared entry. -/
def InDirent (link : Link) (x : UInt32) : Prop :=
  (x - link.dirent).toNat < Fs.NODE_NAME + 4

def Apart (link : Link) : Prop :=
  ∀ k, k < Fs.NODE_NAME + 4 →
    ¬ InBuffer link.buf (link.dirent + .ofNat k)

------------------------------------------------------------
-- One Line
------------------------------------------------------------

variable {link : Link}
variable {s : Initrd}
variable {dirent dirent' : Dirent}
variable {c : Console}
variable {texts : Texts}
variable {args : Args}
variable {name text ds out : List UInt8}

/- `%.20s`: a string, up to 20 bytes of it. -/
theorem means_start
    (hText : texts (args 0) = some text)
    (hMeans : Means texts (Vsprintf.pieces ds) args.tail out) :
    Means texts
      (Vsprintf.pieces
        (Vsprintf.percent :: (literal ".20s" ++ ds)))
      args (text.take 20 ++ out) := by
  have hRead :
      Vsprintf.readDirective (literal ".20s" ++ ds) =
        (⟨[], .absent,
          some (.digits (literal "20")), [], literal "s"⟩,
          ds) := by
    rfl
  refine hMeans.directive hRead
    (Vsprintf.Directive.moderate_of (by decide) (by decide)
      (by decide))
    (Vsprintf.Directive.quiet_of rfl (by decide)) ?_
  have hPrint :
      Vsprintf.Directive.print texts
          ⟨[], .absent, some (.digits (literal "20")), [],
            literal "s"⟩ args =
        (texts (args 0)).map fun text =>
          (Vsprintf.justified 0 0 (text.take 20),
            args.tail) := by
    rfl
  rw [hPrint, hText, Option.map_some, Vsprintf.justified_zero]

theorem means_line
    (row : Row)
    {p : UInt32}
    (hName : texts p = some row.name) :
    Means texts (Vsprintf.pieces lineFormat.chars)
      (argsOf [p, row.flags, row.length]) row.line := by
  have hChars :
      lineFormat.chars =
        literal "\t" ++
          (Vsprintf.percent ::
            (literal ".20s" ++
              (literal "\t0x" ++
                (Vsprintf.percent :: Vsprintf.letter 'x' ::
                  (literal "\t" ++
                    (Vsprintf.percent :: Vsprintf.letter 'd' ::
                      literal "\n")))))) := by
    decide
  rw [hChars]
  refine Means.chars _ (by decide) (means_start hName ?_)
  refine Means.chars _ (by decide) (Means.hexadecimal ?_)
  refine Means.chars _ (by decide) (Means.decimal ?_)
  exact Kprintf.means_literal _ _ (by decide)

theorem Row.shown_line
    (row : Row)
    (hName : Fs.Unterminated row.name) :
    shown row.line = row.line := by
  refine shown_of_unterminated ?_
  refine unterminated_append
    (unterminated_literal _ (by decide)) ?_
  refine unterminated_append
    (fun c hc => hName c (List.mem_of_mem_take hc)) ?_
  refine unterminated_append
    (unterminated_literal _ (by decide)) ?_
  refine unterminated_append
    (Vsprintf.unterminated_numeral _ (by decide) (by decide)) ?_
  refine unterminated_append
    (unterminated_literal _ (by decide)) ?_
  exact unterminated_append
    (Vsprintf.unterminated_signedText _)
    (unterminated_literal _ (by decide))

theorem Row.length_line (row : Row) :
    row.line.length < Kprintf.BUF_SIZE := by
  have hName : (row.name.take 20).length ≤ 20 :=
    List.length_take_le 20 row.name
  have hFlags :
      (Vsprintf.numeral Vsprintf.SMALL 16
        row.flags.toNat).length ≤ 8 :=
    Vsprintf.length_numeral (by decide) (by decide)
      row.flags.toNat_lt
  have hLength :=
    Vsprintf.length_signedText row.length.toInt32
  have hFirst : (literal "\t").length = 1 := by decide
  have hSecond : (literal "\t0x").length = 3 := by decide
  have hLast : (literal "\n").length = 1 := by decide
  unfold Row.line Kprintf.BUF_SIZE
  rw [List.length_append, List.length_append,
    List.length_append, List.length_append,
    List.length_append, List.length_append]
  omega

theorem length_direntBytes
    (hLength : dirent.name.length = Fs.NODE_NAME) :
    (direntBytes dirent).length = Fs.NODE_NAME + 4 := by
  unfold direntBytes
  rw [List.length_append, hLength]
  rfl

/- Nothing but the entry is stored with it. -/
theorem storeDirent_of_apart
    {x : UInt32}
    (hLength : dirent.name.length = Fs.NODE_NAME)
    (hx : ¬ InDirent link x) :
    (storeDirent link dirent c).mem x = c.mem x := by
  refine Kprintf.putBytes_of_apart ?_
  intro k hk hEq
  rw [length_direntBytes hLength] at hk
  rw [hEq] at hx
  refine hx ?_
  unfold InDirent Fs.NODE_NAME at *
  rw [UInt32.add_comm, UInt32.add_sub_cancel,
    Kprintf.ofNat_toNat_lt (by omega)]
  exact hk

theorem length_lt_of_holdsName
    {array : List UInt8}
    (hName : HoldsName array name) :
    name.length < array.length := by
  rcases hName with ⟨-, rest, rfl⟩
  rw [List.length_append, List.length_cons]
  omega

theorem stringOf_holdsName
    {array : List UInt8}
    (hName : HoldsName array name) :
    stringOf array = name := by
  rcases hName with ⟨hTerminated, rest, rfl⟩
  have hAll : ∀ c ∈ name, decide (c ≠ 0) = true :=
    fun c hc => decide_eq_true (hTerminated c hc)
  unfold stringOf
  rw [List.takeWhile_append_of_pos hAll,
    List.takeWhile_cons_of_neg (by decide), List.append_nil]

/- A memory of which one string is known. -/
def textAt (a : UInt32) (text : List UInt8) : Texts :=
  fun b => if b = a then some text else none

theorem textAt_self (a : UInt32) (text : List UInt8) :
    textAt a text a = some text :=
  if_pos rfl

/- The name of the entry is a string in memory. -/
theorem known_dirent
    (c : Console)
    (hApart : Apart link)
    (hLength : dirent.name.length = Fs.NODE_NAME)
    (hName : HoldsName dirent.name name) :
    Known link.buf (storeDirent link dirent c).mem
      (textAt link.dirent name) where
  string := by
    intro a text hText
    have hRoom := length_lt_of_holdsName hName
    rw [hLength] at hRoom
    rcases hName with ⟨hTerminated, rest, hArray⟩
    unfold textAt at hText
    split at hText
    · next ha =>
        cases hText
        subst ha
        refine ⟨?_, hTerminated, ?_⟩
        · have hBytes := length_direntBytes hLength
          unfold storeDirent
          unfold direntBytes at hBytes ⊢
          rw [hArray, List.append_assoc,
            List.cons_append] at hBytes ⊢
          refine Kprintf.nameAt_putBytes ?_
          rw [hBytes]
          decide
        · unfold Fs.NODE_NAME at hRoom
          omega
    · cases hText
  apart := by
    intro a text hText k hk
    have hRoom := length_lt_of_holdsName hName
    rw [hLength] at hRoom
    unfold textAt at hText
    split at hText
    · next ha =>
        cases hText
        subst ha
        exact hApart k (by omega)
    · cases hText

/- A node is printed as its row. -/
theorem printNode_prints
    {fsnode : FsNode}
    (row : Row)
    (hApart : Apart link)
    (hLength : dirent.name.length = Fs.NODE_NAME)
    (hName : HoldsName dirent.name row.name)
    (hFlags : fsnode.flags = row.flags)
    (hSize : fsnode.length = row.length) :
    ∃ c', printNode link dirent fsnode c = some c' ∧
      c'.monitor =
        row.line.foldl Monitor.monitorPut c.monitor ∧
      ∀ x, ¬ InBuffer link.buf x → ¬ InDirent link x →
        c'.mem x = c.mem x := by
  have hKnown := known_dirent c hApart hLength hName
  have hMeans :=
    means_line row (textAt_self link.dirent row.name)
  rcases Kprintf.kprintf_prints hKnown
      ⟨hMeans, row.length_line⟩ with
    ⟨c', hRun, hMonitor, hSame⟩
  rw [row.shown_line hName.1] at hMonitor
  refine ⟨c', ?_, hMonitor, ?_⟩
  · unfold printNode
    rw [hFlags, hSize]
    exact hRun
  · intro x hBuf hDirent
    exact (hSame x hBuf).trans
      (storeDirent_of_apart hLength hDirent)

------------------------------------------------------------
-- The Listing
------------------------------------------------------------

/- The array of the shared entry keeps its length. -/
theorem initrdReaddir_length
    {i : UInt32}
    {b : Bool}
    (hRun :
      Fs.initrdReaddir s .root i dirent = some (b, dirent')) :
    dirent'.name.length = dirent.name.length := by
  unfold Fs.initrdReaddir at hRun
  split at hRun
  · rcases Option.map_eq_some_iff.mp hRun with
      ⟨bs, hCopy, hPair⟩
    cases hPair
    exact (List.length_set).trans (Fs.length_strcpy hCopy)
  · split at hRun
    · cases hRun
      rfl
    · split at hRun
      · next hCopy _ =>
          cases hRun
          exact (List.length_set).trans
            (Fs.length_strcpy hCopy)
      · cases hRun

theorem readdir_length
    {i : UInt32}
    {b : Bool}
    (hRun : readdir s .root i dirent = some (b, dirent')) :
    dirent'.name.length = dirent.name.length := by
  unfold readdir at hRun
  split at hRun
  · cases hRun
  · split at hRun
    · split at hRun
      · cases hRun
        rfl
      · exact initrdReaddir_length hRun
    · cases hRun
      rfl

/- A listing is printed row by row. -/
theorem print_rows
    {videoMem : Nat → Nat}
    {bytes : List UInt8}
    {i : Nat}
    (rows : List Row)
    (hApart : Apart link)
    (hRows :
      ∀ k (hk : k < rows.length),
        rows[k].ListedAt s (.ofNat (i + k)))
    (hNull : ReturnsNull s .root (.ofNat (i + rows.length)))
    (hLength : dirent.name.length = Fs.NODE_NAME)
    (hGiven : Given videoMem bytes c) :
    ∃ dirent' c',
      debugPrintRootContent link s (rows.length + 1) (.ofNat i)
          dirent c = some (dirent', c') ∧
        Given videoMem (bytes ++ rows.flatMap Row.line) c' ∧
        ∀ x, ¬ InBuffer link.buf x → ¬ InDirent link x →
          c'.mem x = c.mem x := by
  induction rows generalizing i dirent c bytes with
  | nil =>
      refine ⟨dirent, c, ?_, ?_, fun _ _ _ => rfl⟩
      · have hLast := hNull dirent
        rw [List.length_nil, Nat.add_zero] at hLast
        rw [debugPrintRootContent, hLast]
        rfl
      · rw [List.flatMap_nil, List.append_nil]
        exact hGiven
  | cons row rows ih =>
      have hFirst := hRows 0 (Nat.succ_pos _)
      rw [Nat.add_zero] at hFirst
      rcases hFirst.returned dirent hLength with
        ⟨dirent', hReaddir, hName⟩
      rcases hFirst.found with
        ⟨fsnode, hFound, hFlags, hSize⟩
      have hLength' := (readdir_length hReaddir).trans hLength
      rcases printNode_prints row hApart hLength' hName hFlags
          hSize with ⟨c', hPrint, hMonitor, hSame⟩
      have hRest :
          ∀ k (hk : k < rows.length),
            rows[k].ListedAt s (.ofNat (i + 1 + k)) := by
        intro k hk
        have h := hRows (k + 1) (Nat.succ_lt_succ hk)
        rwa [← Nat.add_right_comm, Nat.add_assoc]
      have hEnd :
          ReturnsNull s .root
            (.ofNat (i + 1 + rows.length)) := by
        rwa [Nat.add_right_comm, Nat.add_assoc]
      rcases ih hRest hEnd hLength' (hGiven.append hMonitor)
        with ⟨dirent'', c'', hRun, hGiven', hSame'⟩
      refine ⟨dirent'', c'', ?_, ?_, ?_⟩
      · have hNext : UInt32.ofNat i + 1 = .ofNat (i + 1) :=
          (UInt32.ofNat_add i 1).symm
        rw [List.length_cons, debugPrintRootContent,
          hReaddir, Option.bind_some, if_pos rfl,
          stringOf_holdsName hName, hFound,
          Option.bind_some, hPrint, Option.bind_some, hNext]
        exact hRun
      · rw [List.flatMap_cons, ← List.append_assoc]
        exact hGiven'
      · intro x hBuf hDirent
        exact (hSame' x hBuf hDirent).trans
          (hSame x hBuf hDirent)

------------------------------------------------------------
-- A Ramdisk
------------------------------------------------------------

variable {mem mem' : ByteMemory}
variable {location : UInt32}
variable {files : List File}
variable {fopen : List UInt8 → Option (List UInt8)}
variable {headers : ByteMemory}

theorem holdsName_fileNode
    {f : File}
    (i : Nat)
    (hName : Fs.GoodName f.name) :
    HoldsName (Fs.fileNode i f).name f.name :=
  ⟨hName.unterminated, _, rfl⟩

theorem forall₂_fileNodes
    (i : Nat)
    (hNames : ∀ f ∈ files, Fs.GoodName f.name) :
    List.Forall₂ (fun node name => HoldsName node.name name)
      (Fs.fileNodes i files) (files.map (·.name)) := by
  induction files generalizing i with
  | nil => exact .nil
  | cons f files ih =>
      exact .cons
        (holdsName_fileNode i (hNames f List.mem_cons_self))
        (ih (i + 1)
          fun g hg => hNames g (List.mem_cons_of_mem f hg))

theorem listedAt_dev
    (hMount : Fs.initInitrd location mem = some (mem', s)) :
    Row.ListedAt s 0 ⟨Fs.DEV, Fs.FS_DIRECTORY, 0⟩ where
  unterminated := Fs.unterminated_DEV
  returned := Fs.readdir_zero hMount
  found := by
    have hFound : finddir s .root Fs.DEV = some (some .dev) := by
      rw [Fs.finddir_dir hMount (.inl rfl)]
      have hSame :
          Fs.strcmp (Fs.cString Fs.DEV) (Fs.cString Fs.DEV) =
            some 0 :=
        Fs.strcmp_self Fs.unterminated_DEV
      unfold Fs.initrdFinddir
      rw [hSame]
      exact if_pos ⟨rfl, rfl⟩
    unfold foundNode
    rw [hFound]
    unfold Fs.initInitrd at hMount
    rcases Option.map_eq_some_iff.mp hMount with
      ⟨⟨mem₁, nodes⟩, -, hPair⟩
    cases hPair
    exact ⟨_, rfl, rfl, rfl⟩

theorem listedAt_file
    {i : Nat}
    (hMount : Fs.initInitrd location mem = some (mem', s))
    (hMounted : Fs.Mounted mem' location.toNat files s)
    (hNames : ∀ f ∈ files, Fs.GoodName f.name)
    (hNotDev : ∀ f ∈ files, f.name ≠ Fs.DEV)
    (hDistinct : (files.map (·.name)).Nodup)
    (hi : i < files.length) :
    Row.ListedAt s (.ofNat (i + 1))
      ⟨files[i].name, Fs.FS_FILE,
        .ofNat files[i].contents.length⟩ where
  unterminated := (hNames _ (List.getElem_mem hi)).unterminated
  returned := by
    have hFiles : Fs.FileNames s (files.map (·.name)) := by
      unfold Fs.FileNames
      rw [hMounted.rootNodes]
      exact forall₂_fileNodes 0 hNames
    have hReturns := Fs.readdir_file hMount (.inl rfl) hFiles
      (by rw [List.length_map]; exact hi)
    rwa [List.getElem_map] at hReturns
  found := by
    have hMem := List.getElem_mem hi
    have hFound := hMounted.finddir_root
      (hNames _ hMem).unterminated (hNotDev _ hMem)
    rw [Fs.findNode_fileNodes hNames hDistinct hi,
      Nat.zero_add] at hFound
    unfold foundNode
    rw [hFound]
    exact ⟨_, hMounted.node hi, rfl, rfl⟩

/-
  A ramdisk with these files, as `make_initrd` writes it, is
  mounted, and its root is printed: a line for `dev`, and one
  for each file in the order of the ramdisk, with the start of
  its name, its flags and its size.
-/
theorem root_content_shown
    (link : Link)
    (videoMem : Nat → Nat)
    (hOpens : Fs.Opens fopen files)
    (hNames : ∀ f ∈ files, Fs.GoodName f.name)
    (hNotDev : ∀ f ∈ files, f.name ≠ Fs.DEV)
    (hDistinct : (files.map (·.name)).Nodup)
    (hCount : files.length ≤ Fs.MAX_HEADERS)
    (hEnd :
      location.toNat + Fs.DATA_START + Fs.totalSize files ≤
        2 ^ 32)
    (hApart : Apart link) :
    ∃ image,
      Fs.makeInitrd fopen headers (files.map (·.name)) =
          some image ∧
        ∀ mem, ByteMemory.HoldsAt mem location.toNat image →
          ∃ mem' s,
            Fs.initInitrd location mem = some (mem', s) ∧
              ∀ dirent bytes c,
                dirent.name.length = Fs.NODE_NAME →
                Given videoMem bytes c →
                  ∃ dirent' c',
                    debugPrintRootContent link s
                        (files.length + 2) 0 dirent c =
                        some (dirent', c') ∧
                      Monitor.Shows c'.monitor
                        (.putAll
                          (bytes ++
                            (rowsOf files).flatMap Row.line)) ∧
                        ∀ x, ¬ InBuffer link.buf x →
                          ¬ InDirent link x →
                            c'.mem x = c.mem x := by
  rcases Fs.makeInitrd_image headers hOpens hNames hCount
      (by omega)
    with ⟨image, hMake, -, hImage⟩
  refine ⟨image, hMake, ?_⟩
  intro mem hHolds
  rcases Fs.initInitrd_mounted (hImage mem _ hHolds) hNames
      hCount
    with ⟨mem', s, hMount, hMounted⟩
  refine ⟨mem', s, hMount, ?_⟩
  intro dirent bytes c hLength hGiven
  have hRows : (rowsOf files).length = files.length + 1 := by
    unfold rowsOf
    rw [List.length_cons, List.length_map]
  have hListed :
      ∀ k (hk : k < (rowsOf files).length),
        (rowsOf files)[k].ListedAt s (.ofNat (0 + k)) := by
    intro k hk
    rw [Nat.zero_add]
    rcases k with _ | k
    · exact listedAt_dev hMount
    · have hk' : k < files.length := by omega
      have hFile := listedAt_file hMount hMounted hNames hNotDev
        hDistinct hk'
      have hRow :
          (rowsOf files)[k + 1] =
            ⟨files[k].name, Fs.FS_FILE,
              .ofNat files[k].contents.length⟩ :=
        List.getElem_map _
      rw [hRow]
      exact hFile
  have hNodes := (forall₂_fileNodes 0 hNames).length_eq
  rw [List.length_map] at hNodes
  have hIndex :
      (UInt32.ofNat (files.length + 1)).toNat =
        files.length + 1 := by
    unfold Fs.MAX_HEADERS at hCount
    exact Kprintf.ofNat_toNat_lt (by omega)
  have hNe : UInt32.ofNat (files.length + 1) ≠ 0 := by
    intro hZero
    rw [hZero] at hIndex
    cases hIndex
  have hNull :
      ReturnsNull s .root
        (.ofNat (0 + (rowsOf files).length)) := by
    rw [hRows, Nat.zero_add]
    refine Fs.readdir_null hMount (.inl rfl) (fun _ => hNe) ?_
    rw [Fs.toNat_sub_one hNe, hIndex, hMounted.rootNodes,
      hNodes]
    exact Nat.le_refl _
  rcases print_rows (rowsOf files) hApart hListed hNull hLength
      hGiven with ⟨dirent', c', hRun, hGiven', hSame⟩
  rw [hRows] at hRun
  exact ⟨dirent', c', hRun, hGiven'.putAll, hSame⟩

theorem goodName_twoFiles :
    ∀ f ∈ Fs.twoFiles, Fs.GoodName f.name := by
  intro f hf
  rcases List.mem_cons.mp hf with rfl | hf
  · exact ⟨by decide,
      Fs.unterminated_cons (by decide) Fs.unterminated_nil,
      by decide⟩
  · rw [List.mem_singleton.mp hf]
    exact ⟨by decide,
      Fs.unterminated_cons (by decide)
        (Fs.unterminated_cons (by decide) Fs.unterminated_nil),
      by decide⟩

/- Two files, of which the second is empty. -/
theorem root_content_shown_twoFiles :
    ∃ image,
      Fs.makeInitrd Fs.openTwo (fun _ => 0xAA)
          (Fs.twoFiles.map (·.name)) = some image ∧
        ∀ mem,
          ByteMemory.HoldsAt mem (0x200000 : UInt32).toNat
              image →
            ∃ mem' s,
              Fs.initInitrd 0x200000 mem = some (mem', s) ∧
                ∀ dirent bytes c,
                  dirent.name.length = Fs.NODE_NAME →
                  Given (fun _ => 0) bytes c →
                    ∃ dirent' c',
                      debugPrintRootContent ⟨0x1000, 0x2000⟩ s
                          (Fs.twoFiles.length + 2) 0 dirent c =
                          some (dirent', c') ∧
                        Monitor.Shows c'.monitor
                          (.putAll
                            (bytes ++
                              (rowsOf Fs.twoFiles).flatMap
                                Row.line)) ∧
                          ∀ x, ¬ InBuffer 0x1000 x →
                            ¬ InDirent ⟨0x1000, 0x2000⟩ x →
                              c'.mem x = c.mem x :=
  root_content_shown ⟨0x1000, 0x2000⟩ (fun _ => 0)
    (by unfold Fs.Opens; decide) goodName_twoFiles (by decide)
    (by decide) (by decide) (by decide)
    (by unfold Apart; decide)

end Debug

end SosKernel
