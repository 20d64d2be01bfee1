/-!
# ShareIndex.Repository.Generation

Published downloads are kept in two generations: readers use the active one while the other one is filled anew.

* `Generation`       — one of the two.
* `Generation.text`  — its name in keys and in the stored pointer; `Generation.ofText?` reads it back.
-/

namespace ShareIndex
namespace Repository

inductive Generation where
  | a
  | b
  deriving DecidableEq, Repr

namespace Generation

def text : Generation → String
  | a => "A"
  | b => "B"

def other : Generation → Generation
  | a => b
  | b => a

def ofText? (text : String) : Option Generation :=
  if text = "A" then some a else if text = "B" then some b else none

theorem ofText?_text (g : Generation) : ofText? g.text = some g := by cases g <;> rfl

theorem other_ne (g : Generation) : g.other ≠ g := by cases g <;> simp [other]

/-- The generation that the next batch is written to. -/
def standby : Option Generation → Generation
  | none => a
  | some g => g.other

end Generation
end Repository
end ShareIndex
