/-!
# ShareIndex.Index.Slot

The slot that a call must have while it runs, so that at most one call runs at a time.

* `Slot.acquire` — takes the slot; answers whether it was free.
* `Slot.release` — gives it back, however the call has ended.
-/

namespace ShareIndex
namespace Index

inductive Slot where
  | free
  | taken
  deriving DecidableEq, Repr

namespace Slot

def isTaken : Slot → Bool
  | free => false
  | taken => true

/-- Whether the caller may run, and the slot after that. A slot that is taken stays with who has it. -/
def acquire : Slot → Bool × Slot
  | free => (true, taken)
  | taken => (false, taken)

def release (_ : Slot) : Slot := free

end Slot
end Index
end ShareIndex
