import StackGraph.Export.Dot
import StackGraph.Export.Html
import StackGraph.Export.Mermaid
import StackGraph.OutputFormat
import StackGraph.Report.Json
/-!
# Rendering a report

A report in each of the output formats. Equal reports have equal texts.
-/

namespace StackGraph

/-- The text of a report in a format; JSON is written over several lines. -/
def Report.render (r : Report) : OutputFormat → String
  | .json => r.jsonText true
  | .dot => Dot.render r
  | .mermaid => Mermaid.render r
  | .html => Html.render r

end StackGraph
