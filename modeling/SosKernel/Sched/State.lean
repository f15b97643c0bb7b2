import Mathlib.Logic.Function.Basic
import SosKernel.Layout
import SosKernel.Stop
import SosKernel.Sched.List

/-
  The scheduler's state, with the operations that build and
  destroy its records.

  Main declarations:
    * `Thread`, `Task`, `State`
    * `createThread`, `createTask`, `destroyTask`
    * `initThreading`, `initTasking`, `initScheduler`

  Records live in stores indexed by address; a record that
  has been given to `kfree` is absent from its store.  The
  heap and the address spaces are seen through their
  interface: `kmalloc` and `pmm_alloc_page` answer with
  arbitrary fresh addresses, listed in advance.
-/

------------------------------------------------------------
-- Records
------------------------------------------------------------

namespace SosKernel

namespace Sched

/- The registers that `switch_context` saves and loads. -/
structure Context where
  esp : Nat
  ebp : Nat
  ebx : Nat
  esi : Nat
  edi : Nat
  eflags : Nat
deriving DecidableEq, Repr

/- `THREAD_RUNNING`, `THREAD_WAITING`, `THREAD_DYING`. -/
inductive ThreadState where
| running
| waiting
| dying
deriving DecidableEq, Repr

/-
  A `thread_t`, and what the scheduler does not see: `copied`
  holds as long as the thread's stack is the copy that
  `clone_directory` made of its parent's.
-/
structure Thread where
  saved : Context
  esp0 : Nat
  tid : Nat
  stackSize : Nat
  state : ThreadState
  copied : Bool := false
deriving DecidableEq, Repr

/- A `task_t`, with its list of threads. -/
structure Task where
  pageDirectory : DirPtr
  pid : Nat
  threads : ListT
deriving DecidableEq, Repr

/-
  Everything `sched/` keeps.

  `threads` is the static list pointer of `sched.c`, kept as
  the address of the task whose list it is.  `dirAt` gives
  the `physical` field of each live directory.  `kmallocs`
  and `frames` are the answers still to come from the heap
  and from the frame allocator; `kfrees` records the
  arguments of `kfree`, last first.
-/
structure State where
  threadAt : Nat → Option Thread
  taskAt : Nat → Option Task
  dirAt : DirPtr → Option Nat
  tasks : Option ListT
  threads : Nat
  currentTask : Nat
  kernelTask : Nat
  currentThread : Nat
  kernelThread : Nat
  currentDirectory : DirPtr
  cr3 : Nat
  nextPid : Nat
  nextTid : Nat
  regs : Context
  kmallocs : List Nat
  frames : List Nat
  kfrees : List Nat

/- A scheduler computation. -/
abbrev SchedM := EStateM Stop State

------------------------------------------------------------
-- Heap and Records
------------------------------------------------------------

/- The next answer of `kmalloc`. -/
def kmalloc : SchedM Nat := do
  let s ← get
  match s.kmallocs with
  | [] => throw (.panic "Heap: out of memory.")
  | p :: rest =>
      set { s with kmallocs := rest }
      return p

/- The next answer of `pmm_alloc_page`. -/
def pmmAllocPage : SchedM Nat := do
  let s ← get
  match s.frames with
  | [] => throw (.panic "PMM Stack: no free pages.")
  | frame :: rest =>
      set { s with frames := rest }
      return frame

def kfree (p : Nat) : SchedM Unit :=
  modify fun s => { s with kfrees := p :: s.kfrees }

def readThread (p : Nat) : SchedM Thread := do
  match (← get).threadAt p with
  | none => throw (.badPointer p)
  | some thread => return thread

def readTask (p : Nat) : SchedM Task := do
  match (← get).taskAt p with
  | none => throw (.badPointer p)
  | some task => return task

def readTasks : SchedM ListT := do
  match (← get).tasks with
  | none => throw (.badPointer 0)
  | some tasks => return tasks

def writeThread (p : Nat) (thread : Thread) : SchedM Unit :=
  modify fun s =>
    { s with
      threadAt :=
        Function.update s.threadAt p (some thread) }

def writeTask (p : Nat) (task : Task) : SchedM Unit :=
  modify fun s =>
    { s with
      taskAt := Function.update s.taskAt p (some task) }

def writeTasks (tasks : ListT) : SchedM Unit :=
  modify fun s => { s with tasks := some tasks }

/- Replace the list that the task at `p` owns. -/
def writeTaskList (p : Nat) (list : ListT) : SchedM Unit := do
  let task ← readTask p
  writeTask p { task with threads := list }

/-
  `kmalloc` for a thread record.  The heap's contract: the
  answer is not null and no live record is there.
-/
def kmallocThread (thread : Thread) : SchedM Nat := do
  let p ← kmalloc
  if p = 0 ∨ ((← get).threadAt p).isSome then
    throw (.badAlloc p)
  writeThread p thread
  return p

/- `kmalloc` for a task record, under the same contract. -/
def kmallocTask (task : Task) : SchedM Nat := do
  let p ← kmalloc
  if p = 0 ∨ ((← get).taskAt p).isSome then
    throw (.badAlloc p)
  writeTask p task
  return p

/- The two allocations of `list_new`. -/
def kmallocList : SchedM ListT := do
  let addr ← kmalloc
  let storage ← kmalloc
  return listNew addr storage

------------------------------------------------------------
-- Address Spaces, Seen From the Scheduler
------------------------------------------------------------

/-
  `clone_directory`: a new directory object with a frame of
  its own.
-/
def cloneDirectory : SchedM DirPtr := do
  let p ← kmalloc
  if ((← get).dirAt (.heap p)).isSome then
    throw (.badAlloc p)
  let physical ← pmmAllocPage
  modify fun s =>
    { s with
      dirAt :=
        Function.update s.dirAt (.heap p) (some physical) }
  return .heap p

def destroyDirectory (dir : DirPtr) : SchedM Unit := do
  match dir with
  | .kernelDirectory =>
      throw (.panic
        "VMM: deleting kernel (reference) directory.")
  | .heap p =>
      modify fun s =>
        { s with
          dirAt := Function.update s.dirAt (.heap p) none }
      kfree p

/- Make `dir` current and load its frame into CR3. -/
def switchPageDirectory (dir : DirPtr) : SchedM Unit := do
  match (← get).dirAt dir with
  | none => throw (.badPointer 0)
  | some physical =>
      modify fun s =>
        { s with currentDirectory := dir, cr3 := physical }

------------------------------------------------------------
-- Threads
------------------------------------------------------------

def zeroContext : Context := ⟨0, 0, 0, 0, 0, 0⟩

/- The next value of a wrapping 32-bit counter. -/
def succ32 (n : Nat) : Nat :=
  (n + 1) % 2 ^ 32

def THREAD_STACK_SIZE : Nat := 0x1000

/-
  `create_thread` on the stack top that `allocate_stack`
  returned.  Four words are pushed before the stack pointer
  is saved.
-/
def createThread (stack stackSize : Nat) : SchedM Nat := do
  let tid := (← get).nextTid
  let p ← kmallocThread
    { saved :=
        { zeroContext with
          esp := stack - 16, ebp := 0, eflags := 0x200 }
      esp0 := stack
      tid := tid
      stackSize := stackSize
      state := .running }
  modify fun s => { s with nextTid := succ32 s.nextTid }
  return p

/- Free a thread record. -/
def destroyThread (p : Nat) : SchedM Unit := do
  kfree p
  let _ ← readThread p
  modify fun s =>
    { s with
      threadAt := Function.update s.threadAt p none }

/- Set the `state` field of a record. -/
def setThreadState
    (p : Nat)
    (state : ThreadState) :
    SchedM Unit := do
  let thread ← readThread p
  writeThread p { thread with state := state }

/-
  The part of `thread_exit` that changes the state; the
  thread then spins until the timer preempts it.
-/
def threadExit : SchedM Unit := do
  setThreadState (← get).currentThread .dying

def initThreading
    (kstackTop kstackBottom : Nat) :
    SchedM Nat := do
  let tid := (← get).nextTid
  let p ← kmallocThread
    { saved := zeroContext
      esp0 := kstackTop
      tid := tid
      stackSize := (kstackTop + 2 ^ 32 - kstackBottom + 4) %
        2 ^ 32
      state := .running }
  modify fun s =>
    { s with
      nextTid := succ32 s.nextTid
      currentThread := p
      kernelThread := p }
  return p

------------------------------------------------------------
-- Tasks
------------------------------------------------------------

def createTask
    (mainThread : Nat)
    (directory : DirPtr) :
    SchedM Nat := do
  let pid := (← get).nextPid
  let p ← kmallocTask
    { pageDirectory := directory
      pid := pid
      threads := listNew 0 0 }
  modify fun s => { s with nextPid := succ32 s.nextPid }
  let list ← kmallocList
  writeTaskList p (listPushBack list mainThread)
  return p

/-
  The loop of `destroy_task`: `list_next` advances before it
  reads.
-/
def destroyThreads : Nat → ListT → SchedM Unit
| 0, _ => throw .hang
| fuel + 1, list =>
    if listIsEnd list then
      return ()
    else do
      let (p, list) := listNext list
      destroyThread p
      destroyThreads fuel list

def destroyTask (p : Nat) : SchedM Unit := do
  let task ← readTask p
  let list := listRewind task.threads
  destroyThreads (list.size + 1) list
  kfree list.storage
  kfree list.addr
  destroyDirectory task.pageDirectory
  kfree p
  modify fun s =>
    { s with taskAt := Function.update s.taskAt p none }

def taskAddThread (task thread : Nat) : SchedM Unit := do
  let owner ← readTask task
  writeTaskList task (listPushBack owner.threads thread)

def initTasking (initThread : Nat) : SchedM Nat := do
  let p ← createTask initThread (← get).currentDirectory
  modify fun s =>
    { s with currentTask := p, kernelTask := p }
  return p

------------------------------------------------------------
-- Start
------------------------------------------------------------

def initScheduler (initialTask : Nat) : SchedM Unit := do
  let tasks ← kmallocList
  writeTasks (listPushBack tasks initialTask)
  let task ← readTask initialTask
  modify fun s => { s with threads := initialTask }
  writeTaskList initialTask (listNext task.threads).2

def scheduleAddTask (newTask : Nat) : SchedM Unit := do
  let tasks ← readTasks
  writeTasks (listPushBack tasks newTask)

end Sched

end SosKernel
