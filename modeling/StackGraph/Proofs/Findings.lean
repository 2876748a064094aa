import StackGraph.Proofs.Ordered
import StackGraph.Reference.Scan
/-!
# What is found in texts

A reference that is found in a text has one of two forms, and its text is
determined by its name and its output (`Reference.IsFound`). Neither of the two
holds a point, since a point is no character of a name, so they can be read off
the text again (`Reference.ofDependency_expression_inj`): whatever mentions the
text of a reference says which reference it is about.
-/

namespace StackGraph

/-- **A reference as it is found in a text**, in one of the two forms; its name
and its output hold no point. -/
inductive Reference.IsFound : Reference → Prop
  /-- An output of a nested module. -/
  | module {name output : String} (hname : '.' ∉ name.toList) (houtput : '.' ∉ output.toList) :
    IsFound (.ofModule name output)
  /-- An output of a dependency. -/
  | dependency {name output : String} (hname : '.' ∉ name.toList)
      (houtput : '.' ∉ output.toList) : IsFound (.ofDependency name output)

namespace Findings

variable {α : Type} {form : List Char → Option (α × List Char)} {s rest : List Char} {x : α}

theorem exists_of_mem_occurrencesAfter {skip : Nat} (h : x ∈ occurrencesAfter form skip s) :
    ∃ t rest, form t = some (x, rest) := by
  induction s generalizing skip with
  | nil =>
    rw [occurrencesAfter] at h
    exact absurd h List.not_mem_nil
  | cons c s ih =>
    cases skip with
    | succ skip =>
      rw [occurrencesAfter] at h
      exact ih h
    | zero =>
      rw [occurrencesAfter] at h
      split at h
      · rename_i found after hform
        -- an occurrence is the one at this place, or it stands further behind
        rcases List.mem_cons.1 h with rfl | h
        · split at hform
          · exact ⟨s, after, hform⟩
          · cases hform
        · exact ih h
      · exact ih h

/-- **Every occurrence has the form** that was looked for. -/
theorem exists_of_mem_occurrences (h : x ∈ occurrences form s) :
    ∃ t rest, form t = some (x, rest) := by
  unfold occurrences at h
  split at h
  · rename_i found after hform
    rcases List.mem_cons.1 h with rfl | h
    · exact ⟨s, after, hform⟩
    · exact exists_of_mem_occurrencesAfter h
  · exact exists_of_mem_occurrencesAfter h

/-- A name holds no point. -/
theorem notMem_of_name? {name : String} (h : name? s = some (name, rest)) :
    '.' ∉ name.toList := by
  unfold name? at h
  split at h
  · cases h
  · cases h
    rw [String.toList_ofList]
    intro hmem
    exact absurd (List.all_eq_true.1 List.all_takeWhile _ hmem) (by decide)

theorem isFound_of_moduleForm {r : Reference} (h : moduleForm s = some (r, rest)) :
    r.IsFound := by
  simp only [moduleForm, Option.bind_eq_bind, Option.bind_eq_some_iff, Prod.exists] at h
  obtain ⟨_, -, name, _, hname, _, -, output, _, houtput, hr⟩ := h
  cases hr
  exact .module (notMem_of_name? hname) (notMem_of_name? houtput)

theorem isFound_of_dependencyForm {r : Reference} (h : dependencyForm s = some (r, rest)) :
    r.IsFound := by
  simp only [dependencyForm, Option.bind_eq_bind, Option.bind_eq_some_iff, Prod.exists] at h
  obtain ⟨_, -, name, _, hname, _, -, output, _, houtput, hr⟩ := h
  cases hr
  exact .dependency (notMem_of_name? hname) (notMem_of_name? houtput)

/-- **The references in texts are found ones.** -/
theorem isFound_of_mem_scan {texts : List String} {r : Reference}
    (h : r ∈ (scan texts).references) : r.IsFound := by
  rw [scan, mem_setOfList] at h
  obtain ⟨t, -, hr⟩ := List.mem_flatMap.1 h
  rcases List.mem_append.1 hr with hr | hr
  · obtain ⟨s, rest, hform⟩ := exists_of_mem_occurrences hr
    exact isFound_of_moduleForm hform
  · obtain ⟨s, rest, hform⟩ := exists_of_mem_occurrences hr
    exact isFound_of_dependencyForm hform

end Findings

namespace Reference

variable {name name' output output' : String}

/-- **Name and output are read off the text** of a reference to a dependency, if
they hold no point: the points of the text are then the two that belong to its
form. -/
theorem ofDependency_expression_inj (hname : '.' ∉ name.toList) (houtput : '.' ∉ output.toList)
    (h : (ofDependency name output).expression = (ofDependency name' output').expression) :
    name = name' ∧ output = output' := by
  have hlist : name.toList ++ ".outputs.".toList ++ output.toList
      = name'.toList ++ ".outputs.".toList ++ output'.toList := by
    simpa [ofDependency, List.append_assoc] using congrArg String.toList h
  -- both sides have as many points, so there is none in the other name either
  have hcount := congrArg (List.count '.') hlist
  simp only [List.count_append, List.count_eq_zero.2 hname, List.count_eq_zero.2 houtput] at hcount
  have hname' : '.' ∉ name'.toList := List.count_eq_zero.1 (by omega)
  have hfirst : ∀ n o : List Char, '.' ∉ n →
      (n ++ ".outputs.".toList ++ o).takeWhile (· ≠ '.') = n := by
    intro n o hn
    rw [List.append_assoc, List.takeWhile_append_of_pos fun c hc => by
      simpa using fun hdot : c = '.' => hn (hdot ▸ hc)]
    simp
  have hnames : name.toList = name'.toList := by
    rw [← hfirst _ output.toList hname, hlist, hfirst _ _ hname']
  rw [hnames] at hlist
  exact ⟨String.toList_inj.1 hnames, String.toList_inj.1 (List.append_cancel_left hlist)⟩

end Reference

end StackGraph
