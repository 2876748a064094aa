import StackGraph.Text.Basic
/-!
# JSON

JSON values and their two layouts: compact, on one line, and indented by two blanks per level, where
empty arrays and objects stay on one line. Members of an object keep the order they are given in.

Between quotes only the quotation mark, the backslash and control characters are escaped.
-/

namespace StackGraph

/-- JSON values. The numbers of reports are natural. -/
inductive Json where
  | null
  | bool (value : Bool)
  | nat (value : Nat)
  | string (text : String)
  | array (items : List Json)
  | object (members : List (String × Json))

namespace Json

instance : Inhabited Json := ⟨null⟩

/-- How a character is written between quotes. -/
def escapeChar : Char → List Char
  | '"' => ['\\', '"']
  | '\\' => ['\\', '\\']
  | '\x08' => ['\\', 'b']
  | '\x0c' => ['\\', 'f']
  | '\n' => ['\\', 'n']
  | '\r' => ['\\', 'r']
  | '\t' => ['\\', 't']
  | c => if c.toNat < 32 then ['\\', 'u'] ++ Text.hex 4 c.toNat else [c]

/-- A text between quotes. -/
def quote (s : String) : String := "\"" ++ Text.escape escapeChar s ++ "\""

/-- An array of texts. -/
def strings (texts : List String) : Json := array (texts.map string)

/-- A text, or null if there is none. -/
def stringOrNull : Option String → Json
  | some text => string text
  | none => null

mutual

/-- A value on one line. -/
def compact : Json → String
  | null => "null"
  | bool value => if value then "true" else "false"
  | nat value => toString value
  | string text => quote text
  | array items => "[" ++ ",".intercalate (compactItems items) ++ "]"
  | object members => "\x7b" ++ ",".intercalate (compactMembers members) ++ "\x7d"
termination_by structural v => v

/-- Items on one line each by itself. -/
def compactItems : List Json → List String
  | [] => []
  | v :: vs => v.compact :: compactItems vs
termination_by structural vs => vs

/-- Members on one line each by itself. -/
def compactMembers : List (String × Json) → List String
  | [] => []
  | (key, v) :: vs => (quote key ++ ":" ++ v.compact) :: compactMembers vs
termination_by structural vs => vs

end

/-- A line break and the indentation of a level. -/
def lineBreak (level : Nat) : String := String.ofList ('\n' :: List.replicate (2 * level) ' ')

/-- Parts between two brackets, each on a line of its own one level further in. -/
def enclose (left right : String) (level : Nat) (parts : List String) : String :=
  if parts.isEmpty then left ++ right
  else
    left ++ lineBreak (level + 1) ++ ("," ++ lineBreak (level + 1)).intercalate parts ++
      lineBreak level ++ right

mutual

/-- A value over several lines, as it stands at a level of indentation. -/
def prettyAt (level : Nat) : Json → String
  | null => "null"
  | bool value => if value then "true" else "false"
  | nat value => toString value
  | string text => quote text
  | array items => enclose "[" "]" level (prettyItems (level + 1) items)
  | object members => enclose "\x7b" "\x7d" level (prettyMembers (level + 1) members)
termination_by structural v => v

/-- The items of an array at a level of indentation. -/
def prettyItems (level : Nat) : List Json → List String
  | [] => []
  | v :: vs => v.prettyAt level :: prettyItems level vs
termination_by structural vs => vs

/-- The members of an object at a level of indentation. -/
def prettyMembers (level : Nat) : List (String × Json) → List String
  | [] => []
  | (key, v) :: vs => (quote key ++ ": " ++ v.prettyAt level) :: prettyMembers level vs
termination_by structural vs => vs

end

/-- A value over several lines. -/
def pretty (v : Json) : String := v.prettyAt 0

end Json

end StackGraph
