/-!
# Message buffers and the buffer pool

* `Buffer`: where a message comes from or goes to. A buffer may lie in the buffer pool itself.
* `Pool.load`, `Pool.store`, `Pool.move`: reading, writing and copying bytes of the pool.
* `Buffer.overlaps`: whether a buffer shares a byte with a part of the pool.
-/

namespace Rtos
set_option autoImplicit false

/-- A message buffer. -/
inductive Buffer
  /-- Memory of the caller, with its contents. -/
  | own (bytes : List UInt8)
  /-- A part of the buffer pool of the kernel. -/
  | pooled (start length : Nat)
  deriving DecidableEq, Repr

def Buffer.length : Buffer → Nat
  | .own bytes => bytes.length
  | .pooled _ length => length

/-- Whether a buffer shares a byte with the `size` bytes of the pool that begin at `start`. -/
def Buffer.overlaps (buffer : Buffer) (start size : Nat) : Bool :=
  match buffer with
  | .own _ => false
  | .pooled first length => start < first + length && first < start + size

/-! ## The buffer pool -/

namespace Pool

def load (pool : Array UInt8) (start length : Nat) : List UInt8 :=
  (List.range length).map fun i => pool.getD (start + i) 0

def store (pool : Array UInt8) (start : Nat) : List UInt8 → Array UInt8
  | [] => pool
  | byte :: bytes => store (pool.setIfInBounds start byte) (start + 1) bytes

/-- Copy bytes within the pool, one after the other. -/
def move (pool : Array UInt8) (source target : Nat) : Nat → Array UInt8
  | 0 => pool
  | length + 1 => move (pool.setIfInBounds target (pool.getD source 0)) (source + 1) (target + 1) length

end Pool

/-- The contents of a buffer. -/
def Buffer.contents (buffer : Buffer) (pool : Array UInt8) : List UInt8 :=
  match buffer with
  | .own bytes => bytes
  | .pooled start length => Pool.load pool start length

end Rtos
