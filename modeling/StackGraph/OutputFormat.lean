import StackGraph.Text.Basic
/-!
# Output formats

The formats that a report can be written in, and their names. A name is recognised in letters of
either case where `OutputFormat.ofAnyCase?` reads it, and only in small letters where
`OutputFormat.ofName?` does.
-/

namespace StackGraph

/-- The formats of a report. -/
inductive OutputFormat where
  | json
  /-- A directed graph in the DOT language. -/
  | dot
  /-- A Mermaid flowchart. -/
  | mermaid
  /-- A page that can be viewed by itself. -/
  | html
deriving DecidableEq, Repr

namespace OutputFormat

/-- Every format. -/
def all : List OutputFormat := [json, dot, mermaid, html]

/-- The name of a format. -/
def text : OutputFormat → String
  | json => "json"
  | dot => "dot"
  | mermaid => "mermaid"
  | html => "html"

/-- The usual extension of a file of this format. -/
def extension : OutputFormat → String
  | mermaid => "mmd"
  | format => format.text

/-- The format of a name. -/
def ofName? (name : String) : Option OutputFormat := all.find? fun format => format.text == name

/-- The format of a name in letters of either case; `graphviz` is another name of the DOT language.
No letter outside ASCII has a small form that occurs in one of the names, so only the ASCII letters
need a change of case. -/
def ofAnyCase? (name : String) : Option OutputFormat :=
  let small := String.ofList (name.toList.map Char.toLower)
  if small = "graphviz" then some dot else ofName? small

/-- Reading the name of a format gives the format. -/
theorem ofName?_text (format : OutputFormat) : ofName? format.text = some format := by
  cases format <;> rfl

end OutputFormat

end StackGraph
