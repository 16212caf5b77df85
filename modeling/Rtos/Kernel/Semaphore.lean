import Rtos.Kernel.State

/-!
# Semaphores

A semaphore counts tokens, up to a maximum if it has one. Posting to an empty semaphore wakes all tasks that wait for
it. This module holds the steps that do not wait.
-/

namespace Rtos.Kernel
set_option autoImplicit false

variable {c : Config}

def setValue (k : Kernel c) (semaphore : c.SemaphoreId) (value : UInt32) : Kernel c :=
  { k with semaphores := k.semaphores.set semaphore { k.semaphores[semaphore] with value := value } }

def setMax (k : Kernel c) (semaphore : c.SemaphoreId) (max : UInt32) : Kernel c :=
  { k with semaphores := k.semaphores.set semaphore { k.semaphores[semaphore] with max := some max } }

def tryWait (semaphore : c.SemaphoreId) : Action c Bool := do
  let value := (← get).semaphores[semaphore].value
  if value = 0 then return false
  modify (·.setValue semaphore (value - 1))
  return true

/-- The value after one more post, if that is within the maximum and within 32 bits. -/
def SemaphoreState.posted? (s : SemaphoreState) : Option UInt32 :=
  if s.value = 0xffffffff then none
  else
    match s.max with
    | some max => if s.value + 1 ≤ max then some (s.value + 1) else none
    | none => some (s.value + 1)

/-- Add a token. Only an empty semaphore can have waiting tasks to wake. -/
def post (semaphore : c.SemaphoreId) : Action c Unit := do
  let s := (← get).semaphores[semaphore]
  match SemaphoreState.posted? s with
  | none => fail .semaphoreMaxExceeded
  | some value =>
    modify (·.setValue semaphore value)
    if s.value = 0 then modify (·.wakeWaiters (.semaphore semaphore))

/-- Give a semaphore that has no maximum a maximum, which must be positive and not below the value. -/
def initMax (semaphore : c.SemaphoreId) (max : UInt32) : Action c Unit := do
  let s := (← get).semaphores[semaphore]
  if s.max ≠ none then fail .semaphoreMaxAlreadyInit
  if max = 0 ∨ s.value > max then fail .semaphoreMaxInvalid
  modify (·.setMax semaphore max)

end Rtos.Kernel
