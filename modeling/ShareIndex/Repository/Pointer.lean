import ShareIndex.Repository.Program

/-!
# ShareIndex.Repository.Pointer

The stored pointer to the active generation, and the holder that follows it.

* `storedGeneration` — reads the pointer; a text that names no generation counts as no pointer.
* `refresh`          — copies the pointer into the holder.
-/

namespace ShareIndex
namespace Repository

def storedGeneration : Action (Option Generation) := do
  let pointer ← request .store (.get Key.active)
  return pointer.bind Generation.ofText?

def refresh : Action (Option Generation) := do
  let active ← storedGeneration
  writeHolder active
  return active

end Repository
end ShareIndex
