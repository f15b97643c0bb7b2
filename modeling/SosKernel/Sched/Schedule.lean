import SosKernel.Sched.State

/-
  `schedule`, the context switch and the calls that start,
  stop and wake threads.

  Main declarations:
    * `pickTask`, `pickThread`: the two loops of `schedule`
    * `switchContext`, `schedule`
    * `execThread`, `execElf`
    * `fork`, `forkAgain`: its two passes
    * `sleep`, `wakeup`, `kill`

  Both loops take a bound on their iterations.  A loop that
  uses the bound up stops with `Stop.hang`.
-/

------------------------------------------------------------
-- The Loops of `schedule`
------------------------------------------------------------

namespace SosKernel

namespace Sched

/-
  The inner loop: pick the next task that has threads and
  advance past it, destroying the tasks that have none.
-/
def pickTask : Nat → SchedM Nat
| 0 => throw .hang
| fuel + 1 => do
    let tasks ← readTasks
    if listIsEnd tasks then
      writeTasks (listRewind tasks)
    let tasks ← readTasks
    let newTask := listCurrent tasks
    let task ← readTask newTask
    if listIsEmpty task.threads then
      writeTasks (listRemove tasks)
      destroyTask newTask
      pickTask fuel
    else
      writeTasks (listNext tasks).2
      return newTask

/-
  At the end of the current list, rewind it, choose a task
  and make its list the current one.  The result is the new
  value of `new_task`, null when the task is not switched.
-/
def chooseTask (bound newTask : Nat) : SchedM Nat := do
  let threads := (← get).threads
  let owner ← readTask threads
  if listIsEnd owner.threads then
    writeTaskList threads (listRewind owner.threads)
    let newTask ← pickTask bound
    modify fun s => { s with threads := newTask }
    let task ← readTask newTask
    writeTaskList newTask (listRewind task.threads)
    if newTask = (← get).currentTask then
      return 0
    else
      return newTask
  else
    return newTask

/-
  The outer loop: look at the thread under the cursor until
  a running one is met.  Returns it with `new_task`.  A
  waiting thread leaves the cursor where it is.
-/
def pickThread
    (bound : Nat) :
    Nat → Nat → SchedM (Nat × Nat)
| 0, _ => throw .hang
| fuel + 1, newTask => do
    let newTask ← chooseTask bound newTask
    let threads := (← get).threads
    let owner ← readTask threads
    let newThread := listCurrent owner.threads
    let thread ← readThread newThread
    match thread.state with
    | .dying =>
        writeTaskList threads (listRemove owner.threads)
        destroyThread newThread
        pickThread bound fuel newTask
    | .waiting =>
        pickThread bound fuel newTask
    | .running =>
        writeTaskList threads (listNext owner.threads).2
        return (newThread, newTask)

------------------------------------------------------------
-- Context Switch
------------------------------------------------------------

/-
  Store the registers into a record.  The record may already
  have been freed: the store then changes no live record.
-/
def saveRegisters (p : Nat) : SchedM Unit :=
  modify fun s =>
    { s with
      threadAt :=
        Function.update s.threadAt p
          ((s.threadAt p).map fun thread =>
            { thread with saved := s.regs }) }

def loadRegisters (p : Nat) : SchedM Unit := do
  let thread ← readThread p
  modify fun s => { s with regs := thread.saved }

/-
  `switch_context` of `asm/task.s`.  A null `task` keeps the
  current task and its address space.
-/
def switchContext (thread task : Nat) : SchedM Unit := do
  saveRegisters (← get).currentThread
  modify fun s => { s with currentThread := thread }
  if task ≠ 0 then
    modify fun s => { s with currentTask := task }
    let newTask ← readTask task
    switchPageDirectory newTask.pageDirectory
  loadRegisters (← get).currentThread

def schedule (bound : Nat) : SchedM Unit := do
  if (← get).tasks.isNone then
    return ()
  let (newThread, newTask) ← pickThread bound bound 0
  if (← get).currentThread ≠ newThread then
    switchContext newThread newTask

def preempt (bound : Nat) : SchedM Unit :=
  schedule bound

------------------------------------------------------------
-- Waiting, Waking and Killing
------------------------------------------------------------

def sleep (bound : Nat) : SchedM Unit := do
  setThreadState (← get).currentThread .waiting
  preempt bound

def wakeup (thread : Nat) : SchedM Unit :=
  setThreadState thread .running

def kill (thread : Nat) : SchedM Unit := do
  if thread ≠ (← get).currentThread then
    setThreadState thread .dying

------------------------------------------------------------
-- New Threads and Tasks
------------------------------------------------------------

def IF_FLAG : Nat := 0x200

/- Clear the interrupt flag. -/
def cli : SchedM Unit :=
  modify fun s =>
    { s with
      regs :=
        { s.regs with
          eflags :=
            s.regs.eflags -
              (s.regs.eflags &&& IF_FLAG) } }

/- Set the interrupt flag. -/
def sti : SchedM Unit :=
  modify fun s =>
    { s with
      regs :=
        { s.regs with
          eflags := s.regs.eflags ||| IF_FLAG } }

/- A new thread of the current task, on a given stack. -/
def execThread (stack : Nat) : SchedM Nat := do
  let newThread ← createThread stack THREAD_STACK_SIZE
  taskAddThread (← get).currentTask newThread
  match (← get).threadAt newThread with
  | none => throw (.badPointer newThread)
  | some thread => return thread.tid

/-
  A new task with an address space cloned from the current
  one.  `stack` is the stack top that `allocate_stack`
  returns in the new address space.
-/
def execElf (stack : Nat) : SchedM Nat := do
  cli
  let oldDir := (← get).currentDirectory
  let newDir ← cloneDirectory
  switchPageDirectory newDir
  let newThread ← createThread stack THREAD_STACK_SIZE
  let newTask ← createTask newThread newDir
  scheduleAddTask newTask
  switchPageDirectory oldDir
  sti
  return (← readTask newTask).pid

/-
  `fork` from the return of `clone_directory` on.  The
  registers saved into the new record are those at the
  `save_thread_state` call.
-/
def forkCloned
    (newThread : Nat)
    (pageDir : DirPtr) :
    SchedM Nat := do
  let newTask ← createTask newThread pageDir
  scheduleAddTask newTask
  saveRegisters newThread
  if (← get).currentThread = newThread then
    return 0
  else
    sti
    return (← readTask newTask).pid

/-
  `fork`, in the parent.  The stack is copied inside the call
  of `clone_directory`, so the copy still has the return
  address of that call.
-/
def fork : SchedM Nat := do
  if (← get).kernelThread = (← get).currentThread then
    throw (.panic "SCHED: no forking from kernel thread.")
  cli
  let parent ← readThread (← get).currentThread
  let tid := (← get).nextTid
  let newThread ← kmallocThread
    { saved := zeroContext
      esp0 := parent.esp0
      tid := tid
      stackSize := parent.stackSize
      state := .running
      copied := true }
  modify fun s => { s with nextTid := succ32 s.nextTid }
  let pageDir ← cloneDirectory
  forkCloned newThread pageDir

/-
  `fork`, in the child.  When the child runs for the first
  time, `switch_context` returns to the address on the copied
  stack, after the call of `clone_directory`, with the flags
  in eax: these become `page_dir`, and the child makes a task
  of itself once more.  `save_thread_state` then writes a
  return address of the child's own.
-/
def forkAgain : SchedM Nat := do
  let newThread := (← get).currentThread
  let eflags := (← get).regs.eflags
  let thread ← readThread newThread
  writeThread newThread { thread with copied := false }
  forkCloned newThread (.heap eflags)

end Sched

end SosKernel
