import Rtos.Kernel.State

/-!
# Consistency checks

The kernel checks itself before every scheduling decision and at every task switch (`Kernel.check`): no task waits for a
mutex it holds, no semaphore exceeds its maximum, and no ring exceeds its bounds.
-/

namespace Rtos.Kernel
set_option autoImplicit false

variable {c : Config}

/-- No task waits for a mutex it holds. -/
def waitsConsistent (k : Kernel c) : Bool :=
  (List.finRange c.tasks.size).all fun task =>
    match k.tasks[task].wait with
    | some (.mutex mutex) => k.holders[mutex] ≠ some task
    | _ => true

/-- No semaphore exceeds its maximum. -/
def semaphoresConsistent (k : Kernel c) : Bool :=
  (List.finRange c.semaphores.size).all fun semaphore =>
    match k.semaphores[semaphore].max with
    | some max => k.semaphores[semaphore].value ≤ max
    | none => true

/-- Every ring starts at one of its slots and holds at most as many messages as it has slots. -/
def ringsConsistent (k : Kernel c) : Bool :=
  (List.finRange c.queues.size).all fun queue =>
    k.rings[queue].head < (c.queueAttr queue).length.toNat && k.rings[queue].count ≤ (c.queueAttr queue).length.toNat

/-- Whether the state of the kernel is consistent. -/
def isConsistent (k : Kernel c) : Bool := k.waitsConsistent && k.semaphoresConsistent && k.ringsConsistent

def check : Action c Unit := do
  if !(← get).isConsistent then fail .invariantViolation

end Rtos.Kernel
