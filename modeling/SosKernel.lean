import SosKernel.Asm.Interrupts
import SosKernel.Asm.Invisible
import SosKernel.Asm.Returns
import SosKernel.Asm.Scheduled
import SosKernel.Debug
import SosKernel.Echo
import SosKernel.Elf.Confined
import SosKernel.Elf.SymMap
import SosKernel.Fs.InMemory
import SosKernel.Fs.Listing
import SosKernel.Idt
import SosKernel.Kbd.Controls
import SosKernel.Kheap.Bounds
import SosKernel.Kheap.Contents
import SosKernel.Kheap.PagedHeap
import SosKernel.Kheap.Restore
import SosKernel.Kheap.Stores
import SosKernel.Lock
import SosKernel.Panic
import SosKernel.Pmm.Paged
import SosKernel.Pmm.Termination
import SosKernel.Sched.DestroyTask
import SosKernel.Sched.Removal
import SosKernel.Sched.Resize
import SosKernel.Sched.ForkedChild
import SosKernel.Sched.Termination
import SosKernel.TestThread
import SosKernel.Vmm.Boot
import SosKernel.Vmm.CloneSpace
import SosKernel.Vmm.Diff
import SosKernel.Vmm.StaleWindow
import SosKernel.Vmm.UserStacks
