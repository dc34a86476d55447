import Columnar.Action
import Columnar.Bytes
import Columnar.Ledger

/-!
Blocks of memory. A block is charged to one account for as long as it lives, by its length,
which is a whole number of grains. New memory is zero. To grow a block, the new memory is taken
before the old is given back, so a refusal leaves the block as it was.
-/

namespace Columnar

structure Block (n : Nat) where
  bytes : Bytes
  account : Fin n

namespace Block

variable {n : Nat}

/-- Memory is handed out in multiples of this many bytes. -/
def grain : Nat := 16

/-- The least multiple of the grain that holds the given number of bytes. -/
def roundUp (size : Nat) : Nat := (size + (grain - 1)) / grain * grain

def size (block : Block n) : Nat := block.bytes.size

def empty (account : Fin n) : Block n := ⟨#[], account⟩

/-- Takes zeroed memory for at least the given number of bytes. A request that the account
accepts though no memory is so large is a breach, and its charge is lost. -/
def allocate (account : Fin n) (size : Nat) : Accounting n (Block n) := do
  if Word.size ≤ size + (grain - 1) then
    throw (.error (.capacityExhausted size ((← get).account account).limit))
  Ledger.acquire account (roundUp size)
  if Word.largestRequest < roundUp size then
    throw .tooLarge
  return ⟨Bytes.zeros (roundUp size), account⟩

def release (block : Block n) : Accounting n Unit :=
  Ledger.release block.account block.size

/-- Takes two blocks from one account, or none. -/
def allocateBoth (account : Fin n) (first second : Nat) : Accounting n (Block n × Block n) := do
  let left ← allocate account first
  let right ← tryCatch (allocate account second) fun failure => do
    left.release
    throw failure
  return (left, right)

/-- Takes a larger block for at least the given number of bytes, with the bytes held so far in
front. The smaller block is not given back yet. -/
def enlarge (block : Block n) (size : Nat) : Accounting n (Block n) := do
  let larger ← allocate block.account size
  return { larger with bytes := block.bytes.extendTo larger.size }

/-- Charges the block to another account, even beyond its limit, and tells whether the account
is still within it. A block that stays with its account always fits. -/
def moveTo (block : Block n) (target : Fin n) : Accounting n (Block n × Bool) := do
  if block.account = target then
    return (block, true)
  let fits ← Ledger.forceAcquire target block.size
  block.release
  return ({ block with account := target }, fits)

@[inline] def mapBytes (block : Block n) (change : Bytes → Bytes) : Block n :=
  { block with bytes := change block.bytes }

def zeroed (block : Block n) : Block n := block.mapBytes fun bytes => Bytes.zeros bytes.size

theorem le_roundUp (size : Nat) : size ≤ roundUp size := by
  simp only [roundUp, grain]
  omega

theorem eq_of_allocate {account : Fin n} {size : Nat} {before after : Ledger n} {block : Block n}
    (taken : allocate account size before = .ok block after) :
    block = ⟨Bytes.zeros (roundUp size), account⟩ := by
  unfold allocate at taken
  split at taken
  · simp [Action.bind_ok] at taken
  · split at taken
    · simp [Action.bind_ok, Action.map_ok] at taken
    · simp only [bind_pure_comp, Action.map_ok] at taken
      obtain ⟨_, _, same⟩ := taken
      exact same.symm

theorem size_of_enlarge {block larger : Block n} {size : Nat} {before after : Ledger n}
    (longer : block.size ≤ size) (taken : block.enlarge size before = .ok larger after) :
    larger.size = roundUp size := by
  simp only [enlarge, bind_pure_comp, Action.map_ok] at taken
  obtain ⟨fresh, allocated, rfl⟩ := taken
  have length : fresh.size = roundUp size := by simp [eq_of_allocate allocated, Block.size]
  have fits := le_roundUp size
  have room : block.bytes.size ≤ fresh.size := by
    simp only [Block.size] at longer length ⊢
    omega
  exact (Bytes.size_extendTo block.bytes room).trans length

end Block

end Columnar
