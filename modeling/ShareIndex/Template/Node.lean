import ShareIndex.Template.Value
import ShareIndex.Template.Word

/-!
# ShareIndex.Template.Node

The structure of a template.

* `Expression` — constants, variables with what is looked up in them, lists, maps, and calls of functions.
* `Statement`  — what a single statement tag says.
* `Node`       — text, values to be written, branches, loops, bindings and nested templates.
* `nodes?`     — the nodes of a template, if it is well-formed.
-/

namespace ShareIndex
namespace Template

inductive Key where
  | name (value : String)
  | index (value : Nat)
  deriving DecidableEq, Repr

/-- A look-up in a value; an optional one finds nothing where there is nothing. -/
structure Step where
  optional : Bool
  key : Key
  deriving DecidableEq, Repr

inductive Expression where
  | constant (value : Value)
  /-- An optional one finds nothing where no variable has the name. -/
  | variable (optional : Bool) (name : String) (steps : List Step)
  | list (items : List Expression)
  | map (entries : List (String × Expression))
  | call (function : String) (arguments : List Expression)

inductive LoopNames where
  | item (name : String)
  | entry (key value : String)
  deriving DecidableEq, Repr

inductive Statement where
  | branch (negated : Bool) (condition : Expression)
  | otherwiseBranch (negated : Bool) (condition : Expression)
  | otherwise
  | endBranch
  | loop (names : LoopNames) (items : Expression)
  | endLoop
  | binding (value : Expression) (name : String)
  | endBinding
  | nested (template : String)

inductive Node where
  | text (value : List Char)
  | output (value : Expression) (formatter : Formatter)
  | branch (negated : Bool) (condition : Expression) (yes no : List Node)
  | loop (names : LoopNames) (items : Expression) (body : List Node)
  | binding (value : Expression) (name : String) (body : List Node)
  | nested (template : String)

/-! ### Expressions -/

/-- The value of a digit, a letter counting from ten on. -/
def digitValue? (c : Char) : Option Nat :=
  if Decimal.isDigit c then some (Decimal.digitValue c)
  else if 'a' ≤ c.toLower ∧ c.toLower ≤ 'z' then some (c.toLower.toNat - 'a'.toNat + 10)
  else none

/-- The natural number of the digits in a base. Underscores part digits, and no digit at all is zero. -/
def radixNumber? (radix : Nat) (cs : List Char) : Option Nat :=
  (cs.filter (· ≠ '_')).foldlM (fun n c => do
    let d ← digitValue? c
    if d < radix then some (radix * n + d) else none) 0

def naturalOf? : List Char → Option Nat
  | '0' :: 'x' :: digits => radixNumber? 16 digits
  | '0' :: 'o' :: digits => radixNumber? 8 digits
  | '0' :: 'b' :: digits => radixNumber? 2 digits
  | digits => radixNumber? 10 digits

/-- An integer of 64 bits. -/
def integerOf? (negative : Bool) (cs : List Char) : Option Int := do
  let n ← naturalOf? cs
  let z : Int := if negative then -(n : Int) else n
  if Decimal.InRange z then some z else none

/-- The number that a numeral stands for: an integer if it is one of 64 bits, or else a decimal number. -/
def numberOf? (negative : Bool) (cs : List Char) : Option Value :=
  match integerOf? negative cs with
  | some z => some (.integer z)
  | none => (Binary64.ofNumeral? negative cs).map .decimal

/-- An index is below 2 to the power of 64. -/
def indexOf? (digits : List Char) : Option Nat := do
  let n ← Decimal.parseNat digits
  if n < Decimal.wordLimit then some n else none

/-- A look-up by the words after a point. -/
def key? : List Word → Option (Key × List Word)
  | .name n :: rest => if keywords.contains n then none else some (.name n, rest)
  | .index ds :: rest => (indexOf? ds).map fun i => (.index i, rest)
  | _ => none

/-- The look-ups after the name of a variable. -/
def steps? : Nat → List Word → Option (List Step × List Word)
  | fuel + 1, .sign '.' :: rest => do
    let (key, rest) ← key? rest
    let (more, rest) ← steps? fuel rest
    return (⟨false, key⟩ :: more, rest)
  | fuel + 1, .optionalPoint :: rest => do
    let (key, rest) ← key? rest
    let (more, rest) ← steps? fuel rest
    return (⟨true, key⟩ :: more, rest)
  | 0, _ => none
  | _, rest => some ([], rest)

/-- A variable by its name and what follows it. -/
def variableOf? (optional : Bool) : List Word → Option (Expression × List Word)
  | .name n :: rest => do
    if keywords.contains n then none
    else
      let (path, rest) ← steps? (rest.length + 1) rest
      return (.variable optional n path, rest)
  | _ => none

mutual

/-- A constant, a variable, a list, a map, a call, or a value in parentheses. -/
def operand? : Nat → List Word → Option (Expression × List Word)
  | 0, _ => none
  | _ + 1, [] => none
  | fuel + 1, w :: rest =>
    match w with
    | .quoted cs => some (.constant (.text cs), rest)
    | .numeral cs => (numberOf? false cs).map fun v => (.constant v, rest)
    | .sign '-' =>
      match rest with
      | .numeral cs :: rest => (numberOf? true cs).map fun v => (.constant v, rest)
      | _ => none
    | .sign '+' =>
      match rest with
      | .numeral cs :: rest => (numberOf? false cs).map fun v => (.constant v, rest)
      | _ => none
    | .sign '[' => do
      let (items, rest) ← items? fuel rest
      return (.list items, rest)
    | .sign '\x7b' => do
      let (entries, rest) ← entries? fuel rest
      return (.map entries, rest)
    | .sign '(' => do
      match ← value? fuel rest with
      | (value, .sign ')' :: rest) => return (value, rest)
      | _ => none
    | .sign '.' => variableOf? false rest
    | .optionalPoint => variableOf? true rest
    | .name "true" => some (.constant (.truth true), rest)
    | .name "false" => some (.constant (.truth false), rest)
    | .name n =>
      if keywords.contains n then none
      else
        match rest with
        | .sign '(' :: .sign ')' :: rest => some (.call n [], rest)
        | .sign '(' :: rest => do
          let (arguments, rest) ← operands? fuel rest
          match rest with
          | .sign ')' :: rest => return (.call n arguments, rest)
          | _ => none
        | rest => variableOf? false (.name n :: rest)
    | _ => none

/-- An operand and the calls that it is passed through. -/
def value? : Nat → List Word → Option (Expression × List Word)
  | 0, _ => none
  | fuel + 1, ws => do
    let (value, rest) ← operand? fuel ws
    calls? fuel value rest

/-- The calls that a value is passed through. -/
def calls? : Nat → Expression → List Word → Option (Expression × List Word)
  | 0, _, _ => none
  | fuel + 1, value, .sign '|' :: .name n :: rest =>
    if keywords.contains n then none
    else
      match rest with
      | .sign ':' :: rest => do
        let (arguments, rest) ← operands? fuel rest
        calls? fuel (.call n (value :: arguments)) rest
      | rest => calls? fuel (.call n [value]) rest
  | _, _, .sign '|' :: _ => none
  | _, value, rest => some (value, rest)

/-- Operands with commas between them. -/
def operands? : Nat → List Word → Option (List Expression × List Word)
  | 0, _ => none
  | fuel + 1, ws => do
    let (first, rest) ← operand? fuel ws
    match rest with
    | .sign ',' :: rest =>
      let (others, rest) ← operands? fuel rest
      return (first :: others, rest)
    | rest => return ([first], rest)

/-- Items up to the end of their list; a comma may follow the last one. -/
def items? : Nat → List Word → Option (List Expression × List Word)
  | 0, _ => none
  | fuel + 1, ws =>
    match ws with
    | .sign ']' :: rest => some ([], rest)
    | ws => do
      match ← operand? fuel ws with
      | (item, .sign ',' :: rest) =>
        let (items, rest) ← items? fuel rest
        return (item :: items, rest)
      | (item, .sign ']' :: rest) => return ([item], rest)
      | _ => none

/-- Entries up to the end of their map; a comma may follow the last one. -/
def entries? : Nat → List Word → Option (List (String × Expression) × List Word)
  | 0, _ => none
  | fuel + 1, ws =>
    match ws with
    | .sign '\x7d' :: rest => some ([], rest)
    | .name key :: .sign ':' :: rest => entriesAfter? fuel key rest
    | .quoted key :: .sign ':' :: rest => entriesAfter? fuel (String.ofList key) rest
    | _ => none

/-- An entry whose key has been read, and those after it. -/
def entriesAfter? : Nat → String → List Word → Option (List (String × Expression) × List Word)
  | 0, _, _ => none
  | fuel + 1, key, ws => do
    match ← operand? fuel ws with
    | (value, .sign ',' :: rest) =>
      let (entries, rest) ← entries? fuel rest
      return ((key, value) :: entries, rest)
    | (value, .sign '\x7d' :: rest) => return ([(key, value)], rest)
    | _ => none

end

def expression? (ws : List Word) : Option (Expression × List Word) := value? (3 * ws.length + 3) ws

/-- An expression that takes up all words. -/
def wholeExpression? (ws : List Word) : Option Expression := do
  match ← expression? ws with
  | (value, []) => some value
  | _ => none

/-- A last call without arguments may name a formatter. -/
def output : Expression → Node
  | .call n [value] =>
    match Formatter.ofName? n with
    | some f => .output value f
    | none => .output (.call n [value]) .verbatim
  | value => .output value .verbatim

/-! ### Statements -/

def condition? : List Word → Option (Bool × Expression)
  | .name "not" :: rest => (wholeExpression? rest).map (true, ·)
  | ws => (wholeExpression? ws).map (false, ·)

def freeName? (n : String) : Option String := if keywords.contains n then none else some n

def statement? : List Word → Option Statement
  | .name "if" :: ws => (condition? ws).map fun (negated, condition) => .branch negated condition
  | [.name "else"] => some .otherwise
  | .name "else" :: .name "if" :: ws =>
    (condition? ws).map fun (negated, condition) => .otherwiseBranch negated condition
  | [.name "endif"] => some .endBranch
  | .name "for" :: .name k :: .sign ',' :: .name v :: .name "in" :: ws => do
    return .loop (.entry (← freeName? k) (← freeName? v)) (← wholeExpression? ws)
  | .name "for" :: .name n :: .name "in" :: ws => do
    return .loop (.item (← freeName? n)) (← wholeExpression? ws)
  | [.name "endfor"] => some .endLoop
  | [.name "endwith"] => some .endBinding
  | [.name "include", .quoted name] => some (.nested (String.ofList name))
  | .name "include" :: .quoted name :: .name "with" :: ws =>
    (wholeExpression? ws).map fun _ => .nested (String.ofList name)
  | .name "with" :: ws => do
    match ← expression? ws with
    | (value, [.name "as", .name n]) => return .binding value (← freeName? n)
    | _ => none
  | _ => none

/-! ### Nodes -/

mutual

/-- The nodes up to the first statement that ends a part, that statement, and what follows it. -/
def part? : Nat → List Piece → Option (List Node × Option Statement × List Piece)
  | 0, _ => none
  | _, [] => some ([], none, [])
  | fuel + 1, .text value :: rest => do
    let (nodes, stop, rest) ← part? fuel rest
    return (.text value :: nodes, stop, rest)
  | fuel + 1, .expression ws :: rest => do
    let value ← wholeExpression? ws
    let (nodes, stop, rest) ← part? fuel rest
    return (output value :: nodes, stop, rest)
  | fuel + 1, .statement ws :: rest => do
    match ← statement? ws with
    | .branch negated condition =>
      let (yes, stop, rest) ← part? fuel rest
      let (no, rest) ← alternative? fuel stop rest
      let (nodes, stop, rest) ← part? fuel rest
      return (.branch negated condition yes no :: nodes, stop, rest)
    | .loop names items =>
      match ← part? fuel rest with
      | (body, some .endLoop, rest) =>
        let (nodes, stop, rest) ← part? fuel rest
        return (.loop names items body :: nodes, stop, rest)
      | _ => none
    | .binding value name =>
      match ← part? fuel rest with
      | (body, some .endBinding, rest) =>
        let (nodes, stop, rest) ← part? fuel rest
        return (.binding value name body :: nodes, stop, rest)
      | _ => none
    | .nested template =>
      let (nodes, stop, rest) ← part? fuel rest
      return (.nested template :: nodes, stop, rest)
    | stop => return ([], some stop, rest)

/-- What is taken when the condition before `stop` does not hold. -/
def alternative? : Nat → Option Statement → List Piece → Option (List Node × List Piece)
  | 0, _, _ => none
  | _, some .endBranch, rest => some ([], rest)
  | fuel + 1, some .otherwise, rest => do
    match ← part? fuel rest with
    | (no, some .endBranch, rest) => return (no, rest)
    | _ => none
  | fuel + 1, some (.otherwiseBranch negated condition), rest => do
    let (yes, stop, rest) ← part? fuel rest
    let (no, rest) ← alternative? fuel stop rest
    return ([.branch negated condition yes no], rest)
  | _, _, _ => none

end

def nodes? (source : String) : Option (List Node) := do
  let pieces ← pieces? source
  match ← part? (2 * pieces.length + 2) pieces with
  | (nodes, none, _) => some nodes
  | _ => none

end Template
end ShareIndex
