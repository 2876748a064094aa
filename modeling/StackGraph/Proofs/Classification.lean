import StackGraph.Discovery
import StackGraph.Proofs.Runs
import StackGraph.Proofs.Settings.Checks
/-!
# Kinds of configuration files

A file is an orchestration file or a module definition by its name alone. The
extension of a name is what follows its last point, so no extension of a name has
a point in it. The extension in the settings may have one: those in front are
dropped, and the check only asks that something is left.

So what makes a module definition has a part that is not about the name
(`Settings.classify_eq_some_iff`). If the extension has no point, it is what one
expects, any stem with a point and the extension behind it. If it has one, there
is no module definition, and settings that passed the check find none in any tree
(`Workspace.moduleDefinitions_of_discover`).
-/

namespace StackGraph

/-! ## The last point of a name -/

namespace Path

variable {p : Path} {name stem extension : String}

theorem splitExtension_of_notMem (h : '.' ∉ name.toList) : splitExtension name = none := by
  have hall : name.toList.reverse.dropWhile (· != '.') = [] :=
    List.dropWhile_eq_nil_iff.2 fun c hc =>
      bne_iff_ne.2 fun hpoint => h (hpoint ▸ List.mem_reverse.1 hc)
  simp [splitExtension, hall]

/-- A name is split at a point that none follows, unless nothing is before it. -/
theorem splitExtension_append (h : '.' ∉ extension.toList) :
    splitExtension (stem ++ "." ++ extension)
      = if stem = "" then none else some (stem, extension) := by
  have hreversed : (stem ++ "." ++ extension).toList.reverse
      = extension.toList.reverse ++ '.' :: stem.toList.reverse := by simp
  have hrun : ∀ c ∈ extension.toList.reverse, (c != '.') = true := fun c hc =>
    bne_iff_ne.2 fun hpoint => h (hpoint ▸ List.mem_reverse.1 hc)
  have hstops : Text.Stops (· != '.') ('.' :: stem.toList.reverse) := Text.stops_cons.2 rfl
  simp only [splitExtension, hreversed, Text.dropWhile_append_of_stops hrun hstops,
    Text.takeWhile_append_of_stops hrun hstops]
  simp

/-- A name with a point in it has a last one. -/
theorem exists_eq_append_of_mem (h : '.' ∈ name.toList) :
    ∃ stem extension, name = stem ++ "." ++ extension ∧ '.' ∉ extension.toList := by
  obtain ⟨after, before, heq, hafter⟩ := List.eq_append_cons_of_mem (List.mem_reverse.2 h)
  refine ⟨.ofList before.reverse, .ofList after.reverse, String.toList_injective ?_, by simpa⟩
  simpa using congrArg List.reverse heq

/-- **What a name is split into**: all before its last point and all behind. -/
theorem splitExtension_eq_some_iff :
    splitExtension name = some (stem, extension)
      ↔ name = stem ++ "." ++ extension ∧ stem ≠ "" ∧ '.' ∉ extension.toList := by
  constructor
  · intro h
    by_cases hpoint : '.' ∈ name.toList
    · obtain ⟨stem', extension', rfl, hafter⟩ := exists_eq_append_of_mem hpoint
      rw [splitExtension_append hafter] at h
      split at h
      · cases h
      · rename_i hstem
        cases h
        exact ⟨rfl, hstem, hafter⟩
    · rw [splitExtension_of_notMem hpoint] at h
      cases h
  · rintro ⟨rfl, hstem, hafter⟩
    rw [splitExtension_append hafter, if_neg hstem]

/-- The extension of a path is what follows the last point of its name. -/
theorem extension?_eq_some_iff (h : p.fileName? = some name) :
    p.extension? = some extension
      ↔ (∃ stem, stem ≠ "" ∧ name = stem ++ "." ++ extension) ∧ '.' ∉ extension.toList := by
  rw [extension?, h, Option.bind_some, Option.map_eq_some_iff]
  constructor
  · rintro ⟨⟨stem, extension⟩, hsplit, rfl⟩
    obtain ⟨hname, hstem, hextension⟩ := splitExtension_eq_some_iff.1 hsplit
    exact ⟨⟨stem, hstem, hname⟩, hextension⟩
  · rintro ⟨⟨stem, hstem, hname⟩, hextension⟩
    exact ⟨_, splitExtension_eq_some_iff.2 ⟨hname, hstem, hextension⟩, rfl⟩

end Path

/-! ## Files of a kind -/

namespace Settings

variable {s : Settings} {p : Path} {name : String}

theorem classify_eq_orchestration_iff (h : p.fileName? = some name) :
    s.classify p = some .orchestration ↔ name = s.orchestrationFile := by
  rw [classify, h, Option.bind_some]
  split
  · rename_i hname
    exact iff_of_true rfl hname
  · rename_i hname
    exact iff_of_false (by split <;> simp) hname

theorem classify_eq_moduleDefinition_iff (h : p.fileName? = some name) :
    s.classify p = some .moduleDefinition
      ↔ name ≠ s.orchestrationFile ∧ p.extension? = some s.moduleExtension := by
  rw [classify, h, Option.bind_some]
  split
  · rename_i hname
    exact iff_of_false (by simp) fun hnot => hnot.1 hname
  · rename_i hname
    rw [and_iff_right hname]
    simp

/-- With a point in the extension no file is a module definition. -/
theorem classify_ne_moduleDefinition (h : '.' ∈ s.moduleExtension.toList) :
    s.classify p ≠ some .moduleDefinition := by
  intro hkind
  cases hname : p.fileName? with
  | none => simp [classify, hname] at hkind
  | some name =>
    have hextension := ((classify_eq_moduleDefinition_iff hname).1 hkind).2
    exact ((Path.extension?_eq_some_iff hname).1 hextension).2 h

end Settings

namespace Workspace

variable {w : Workspace} {s : Settings} {d : Discovery}

/-- **Settings with a point in the extension find no module definition**, in any
tree. -/
theorem moduleDefinitions_of_discover (hpoint : '.' ∈ s.moduleExtension.toList)
    (h : w.discover s = .ok d) : d.moduleDefinitions = [] := by
  obtain ⟨globs, -, hd⟩ := bind_eq_ok_iff.1 h
  obtain rfl := Except.ok.inj hd
  show sortBy Path.compare (List.filter _ _) = []
  rw [List.filter_eq_nil_iff.2 fun p _ hkind =>
    Settings.classify_ne_moduleDefinition hpoint (eq_of_beq hkind)]
  exact List.mergeSort_nil

end Workspace

namespace Settings

variable {s : Settings} {p : Path} {name : String}

/-- **The kind of a file by its name.** Orchestration files have the name in the
settings. A module definition is one that does not, with a stem and the extension
in the settings, if there is no point in the extension. -/
theorem classify_eq_some_iff (h : p.fileName? = some name) :
    (s.classify p = some .orchestration ↔ name = s.orchestrationFile)
      ∧ (s.classify p = some .moduleDefinition
        ↔ name ≠ s.orchestrationFile
          ∧ (∃ stem, stem ≠ "" ∧ name = stem ++ "." ++ s.moduleExtension)
          ∧ '.' ∉ s.moduleExtension.toList) := by
  rw [← Path.extension?_eq_some_iff h]
  exact ⟨classify_eq_orchestration_iff h, classify_eq_moduleDefinition_iff h⟩

/-- The points in front of an extension do no harm. -/
theorem classify_tofu :
    { Layer.empty with moduleExtension := some ".tofu" }.settings.classify ⟨"net/main.tofu"⟩
      = some .moduleDefinition :=
  (classify_eq_some_iff (show Path.fileName? ⟨"net/main.tofu"⟩ = some "main.tofu" by decide)).2.2
    ⟨by decide, ⟨"main", by decide, by decide⟩, by decide⟩

/-- **An extension with a point inside passes the check**, and a file that has it
is of no kind. -/
theorem classify_tfJson :
    let s := { Layer.empty with moduleExtension := some "tf.json" }.settings
    s.check ⟨.directory true [], ⟨"/"⟩, ∅⟩ = .ok ()
      ∧ "main.tf.json" = "main" ++ "." ++ s.moduleExtension
      ∧ s.classify ⟨"main.tf.json"⟩ = none :=
  ⟨by decide +kernel, by decide, by decide⟩

end Settings

end StackGraph
