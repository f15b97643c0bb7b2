import Mathlib.Data.Nat.Basic

/-
  The ways a kernel computation can end without returning.

  A computation of the model is a state program that either
  returns or stops; a stop keeps the state it happened in,
  so that statements can speak about runs that never return.
-/

namespace SosKernel

/-
  Why a computation stopped.

  `panic` is a call of `panic(msg)`.  `pageFault` is an
  access through an unmapped address, which `page_fault`
  turns into a panic.  `badPointer` is a use of a null
  pointer or of a record that is not live, and `badAlloc` an
  answer of `kmalloc` that breaks its contract.  `hang` says
  that the loop bound given to the model was used up.
-/
inductive Stop where
| panic (msg : String)
| pageFault (va : Nat)
| badPointer (p : Nat)
| badAlloc (p : Nat)
| hang
deriving DecidableEq, Repr

end SosKernel
