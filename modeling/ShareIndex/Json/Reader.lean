import ShareIndex.Json.Token

/-!
# ShareIndex.Json.Reader

Reads JSON. What has been read is a stack of containers that are not yet closed; each token changes it.

* `Open`    — a container with what has been read of it.
* `Reading` — the open containers, and what may come next.
* `step?`   — what a token does.
* `read?`   — the datum of a whole text.
-/

namespace ShareIndex
namespace Json

inductive Open where
  | list (items : List Datum)
  /-- A table, and the key whose value is being read. -/
  | table (entries : List (String × Datum)) (key : String)

/-- The open containers stand with the innermost first. -/
inductive Reading where
  | awaitValue (stack : List Open)
  /-- After the start of a list. -/
  | firstItem (stack : List Open)
  /-- After the start of a table. -/
  | firstKey (stack : List Open)
  /-- After a comma in a table. -/
  | awaitKey (entries : List (String × Datum)) (stack : List Open)
  | awaitColon (entries : List (String × Datum)) (key : String) (stack : List Open)
  | complete (value : Datum) (stack : List Open)

/-- How many containers may be open at a time. -/
def maxDepth : Nat := 127

namespace Reading

/-- What a token does where a value is expected. -/
def startValue? (stack : List Open) : Token → Option Reading
  | .scalar value => some (.complete value stack)
  | .openList => if stack.length < maxDepth then some (.firstItem stack) else none
  | .openTable => if stack.length < maxDepth then some (.firstKey stack) else none
  | _ => none

def startKey? (entries : List (String × Datum)) (stack : List Open) : Token → Option Reading
  | .scalar (.text key) => some (.awaitColon entries key stack)
  | _ => none

/-- What a token does after a complete value. -/
def continueAfter? (value : Datum) : List Open → Token → Option Reading
  | .list items :: stack, .comma => some (.awaitValue (.list (items ++ [value]) :: stack))
  | .list items :: stack, .closeList => some (.complete (.list (items ++ [value])) stack)
  | .table entries key :: stack, .comma => some (.awaitKey (Datum.put key value entries) stack)
  | .table entries key :: stack, .closeTable => some (.complete (.table (Datum.put key value entries)) stack)
  | _, _ => none

def step? : Reading → Token → Option Reading
  | .awaitValue stack, token => startValue? stack token
  | .firstItem stack, .closeList => some (.complete (.list []) stack)
  | .firstItem stack, token => startValue? (.list [] :: stack) token
  | .firstKey stack, .closeTable => some (.complete (.table []) stack)
  | .firstKey stack, token => startKey? [] stack token
  | .awaitKey entries stack, token => startKey? entries stack token
  | .awaitColon entries key stack, .colon => some (.awaitValue (.table entries key :: stack))
  | .awaitColon _ _ _, _ => none
  | .complete value stack, token => continueAfter? value stack token

end Reading

/-- The datum of a text; of two entries with one key the later one counts. -/
def read? (cs : List Char) : Option Datum := do
  match ← (← tokens? cs).foldlM Reading.step? (.awaitValue []) with
  | .complete value [] => return value
  | _ => none

end Json
end ShareIndex
