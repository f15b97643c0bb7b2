import SosKernel.Fs.MakeInitrd

/-
  The ramdisk in the kernel: `fs/initrd.c`, with `read`,
  `readdir` and `finddir` of `fs/fs.c`.

  Main declarations:
    * `FsNode`, `Initrd`, `NodeRef`, `Dirent`
    * `initInitrd`
    * `readdir`, `finddir`, `read`
-/

------------------------------------------------------------
-- Nodes
------------------------------------------------------------

namespace SosKernel

namespace Fs

def FS_FILE : UInt32 := 1
def FS_DIRECTORY : UInt32 := 2

/- The functions to which a node can point. -/
inductive ReadType where
| initrdRead
deriving DecidableEq, Repr

inductive ReaddirType where
| initrdReaddir
deriving DecidableEq, Repr

inductive FinddirType where
| initrdFinddir
deriving DecidableEq, Repr

/- The length of the array for the name of a node. -/
def NODE_NAME : Nat := 128

structure FsNode where
  name : List UInt8
  flags : UInt32
  inode : UInt32
  length : UInt32
  read : Option ReadType
  readdir : Option ReaddirType
  finddir : Option FinddirType
deriving DecidableEq, Repr

/- A node after `memset`. -/
def zeroNode : FsNode where
  name := List.replicate NODE_NAME 0
  flags := 0
  inode := 0
  length := 0
  read := none
  readdir := none
  finddir := none

/- Put a string that fits into the name of a cleared node. -/
def FsNode.named (name : List UInt8) : FsNode :=
  { zeroNode with
    name := name ++ zeroNode.name.drop name.length }

/- The pointers to nodes that the file system hands out. -/
inductive NodeRef where
| root
| dev
| file (i : Nat)
deriving DecidableEq, Repr

/- The variables of `fs/initrd.c`. -/
structure Initrd where
  fileHeaders : Nat
  root : FsNode
  dev : FsNode
  rootNodes : List FsNode
deriving DecidableEq, Repr

def Initrd.node (s : Initrd) : NodeRef → Option FsNode
| .root => some s.root
| .dev => some s.dev
| .file i => s.rootNodes[i]?

------------------------------------------------------------
-- Mounting
------------------------------------------------------------

/- The string "dev". -/
def DEV : List UInt8 := [100, 101, 118]

/- The string "initrd". -/
def INITRD : List UInt8 := [105, 110, 105, 116, 114, 100]

/- Add `location` to the offset in the header at `a`. -/
def relocate
    (location : UInt32)
    (mem : ByteMemory)
    (a : Nat) : ByteMemory :=
  mem.write32 (a + OFFSET)
    (UInt32.ofNat (mem.read32 (a + OFFSET)) + location).toNat

/-
  The body of the loop of `init_initrd`.  There is no result
  when it panics, or when a name does not end in its array.
-/
def mountFile
    (fileHeaders : Nat)
    (location : UInt32)
    (i : Nat)
    (mem : ByteMemory) : Option (ByteMemory × FsNode) :=
  let a := fileHeaders + HEADER_SIZE * i
  if HEADER_MAGIC ≠ mem a then
    none
  else
    let mem := relocate location mem a
    (strcpy mem zeroNode.name (a + NAME)).map fun name =>
      (mem,
        { zeroNode with
          name := name
          length := UInt32.ofNat (mem.read32 (a + LENGTH))
          inode := UInt32.ofNat i
          flags := FS_FILE
          read := some .initrdRead })

/- The loop: `n` files from the file `i` on. -/
def mountFiles
    (fileHeaders : Nat)
    (location : UInt32) :
    Nat → Nat → ByteMemory → Option (ByteMemory × List FsNode)
| 0, _, mem => some (mem, [])
| n + 1, i, mem =>
    match mountFile fileHeaders location i mem with
    | none => none
    | some (mem, node) =>
        (mountFiles fileHeaders location n (i + 1) mem).map
          fun (mem, nodes) => (mem, node :: nodes)

/- `init_initrd`; `kmalloc` gives memory for the nodes. -/
def initInitrd
    (location : UInt32)
    (mem : ByteMemory) : Option (ByteMemory × Initrd) :=
  let fileHeaders := location.toNat + 4
  let nfiles := mem.read32 location.toNat
  (mountFiles fileHeaders location nfiles 0 mem).map
    fun (mem, nodes) =>
      (mem,
        { fileHeaders := fileHeaders
          root :=
            { FsNode.named INITRD with
              flags := FS_DIRECTORY
              readdir := some .initrdReaddir
              finddir := some .initrdFinddir }
          dev :=
            { FsNode.named DEV with
              flags := FS_DIRECTORY
              readdir := some .initrdReaddir
              finddir := some .initrdFinddir }
          rootNodes := nodes })

------------------------------------------------------------
-- Listing
------------------------------------------------------------

/- A `dirent_t`; the calls share one. -/
structure Dirent where
  name : List UInt8
  inode : UInt32
deriving DecidableEq, Repr

/- An array of characters, which zeros follow. -/
def bytesOf (array : List UInt8) : ByteMemory :=
  fun x => array.getD x 0

/-
  Whether an entry is returned, and the shared entry after
  the call.  A name that fills its array has no result.
-/
def initrdReaddir
    (s : Initrd)
    (ref : NodeRef)
    (index : UInt32)
    (dirent : Dirent) : Option (Bool × Dirent) :=
  if ref = .root ∧ index = 0 then
    (strcpy (bytesOf (cString DEV)) dirent.name 0).map
      fun name =>
        (true, { name := name.set 3 0, inode := 0 })
  else
    match s.rootNodes[(index - 1).toNat]? with
    | none => some (false, dirent)
    | some node =>
        match strcpy (bytesOf node.name) dirent.name 0,
            strlen node.name with
        | some name, some len =>
            some
              (true,
                { name := name.set len 0
                  inode := node.inode })
        | _, _ => none

/- `readdir` of `fs/fs.c`. -/
def readdir
    (s : Initrd)
    (ref : NodeRef)
    (index : UInt32)
    (dirent : Dirent) : Option (Bool × Dirent) :=
  match s.node ref with
  | none => none
  | some node =>
      if node.flags &&& 7 = FS_DIRECTORY then
        match node.readdir with
        | none => some (false, dirent)
        | some .initrdReaddir =>
            initrdReaddir s ref index dirent
      else
        some (false, dirent)

------------------------------------------------------------
-- Finding and Reading
------------------------------------------------------------

/-
  The loop of `initrd_finddir`, from the node `i` on.  The
  outer option is empty when a comparison leaves an array.
-/
def findNode
    (name : List UInt8) :
    List FsNode → Nat → Option (Option NodeRef)
| [], _ => some none
| node :: nodes, i =>
    match strcmp (cString name) node.name with
    | none => none
    | some d =>
        if d = 0 then some (some (.file i))
        else findNode name nodes (i + 1)

def initrdFinddir
    (s : Initrd)
    (ref : NodeRef)
    (name : List UInt8) : Option (Option NodeRef) :=
  match strcmp (cString name) (cString DEV) with
  | none => none
  | some d =>
      if ref = .root ∧ d = 0 then some (some .dev)
      else findNode name s.rootNodes 0

/- `finddir` of `fs/fs.c`. -/
def finddir
    (s : Initrd)
    (ref : NodeRef)
    (name : List UInt8) : Option (Option NodeRef) :=
  match s.node ref with
  | none => none
  | some node =>
      if node.flags &&& 7 = FS_DIRECTORY then
        match node.finddir with
        | none => some none
        | some .initrdFinddir => initrdFinddir s ref name
      else
        some none

/- The number of bytes and the memory after the copy. -/
def initrdRead
    (s : Initrd)
    (node : FsNode)
    (offset size : UInt32)
    (buffer : Nat)
    (mem : ByteMemory) : UInt32 × ByteMemory :=
  let a := s.fileHeaders + HEADER_SIZE * node.inode.toNat
  let headerOffset := UInt32.ofNat (mem.read32 (a + OFFSET))
  let headerLength := UInt32.ofNat (mem.read32 (a + LENGTH))
  if offset > headerLength then
    (0, mem)
  else
    let size :=
      if offset + size > headerLength then
        headerLength - offset
      else
        size
    (size,
      memcpy buffer (headerOffset + offset).toNat size.toNat
        mem)

/- `read` of `fs/fs.c`. -/
def read
    (s : Initrd)
    (ref : NodeRef)
    (offset size : UInt32)
    (buffer : Nat)
    (mem : ByteMemory) : Option (UInt32 × ByteMemory) :=
  (s.node ref).map fun node =>
    match node.read with
    | none => (0, mem)
    | some .initrdRead =>
        initrdRead s node offset size buffer mem

end Fs

end SosKernel
