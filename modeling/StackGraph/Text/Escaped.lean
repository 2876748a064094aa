import StackGraph.Text.Basic
/-!
# Escaped text of the exports

How a text stands inside a quoted DOT string, inside a Mermaid label and inside HTML markup.
-/

namespace StackGraph.Text

/-- A character inside a quoted DOT string. -/
def dotChar : Char → List Char
  | '"' => ['\\', '"']
  | '\\' => ['\\', '\\']
  | '\n' => ['\\', 'n']
  | c => [c]

/-- A text inside a quoted DOT string: quotes, backslashes and line breaks are escaped. -/
def dotEscape (s : String) : String := escape dotChar s

/-- A character inside a Mermaid label. -/
def mermaidChar : Char → List Char
  | '"' => "#quot;".toList
  | c => [c]

/-- A text inside a Mermaid label: quotes become a named entity. -/
def mermaidEscape (s : String) : String := escape mermaidChar s

/-- A character inside HTML markup. -/
def htmlChar : Char → List Char
  | '&' => "&amp;".toList
  | '<' => "&lt;".toList
  | '>' => "&gt;".toList
  | '"' => "&quot;".toList
  | '\'' => "&#39;".toList
  | c => [c]

/-- A text inside HTML markup, also between double quotes. -/
def htmlEscape (s : String) : String := escape htmlChar s

/-- Lines with a line break after each. -/
def unlines (lines : List String) : String := String.join (lines.map (· ++ "\n"))

end StackGraph.Text
