import StackGraph.Proofs.Findings
import StackGraph.Proofs.Occurrences.Forms
import StackGraph.Proofs.Occurrences.Search
/-!
# Forms without an index

Outputs of dependencies and of remote states and data sources are written
without brackets: an occurrence holds only characters of names and points. No
other occurrence can start behind one of these, so none lies inside another,
and what is found is every occurrence there is (`Findings.IsSolid.mem_occurrences`).

The statement about texts (`Findings.scan_exactly`) does not mention the
search. Names are as long as they can be there as well: between two names stand
points, and behind the last one the text does not go on with a character of
names (`Findings.Occurs`).
-/

namespace StackGraph.Findings

open Text

variable {α : Type} {form : List Char → Option (α × List Char)} {s t u : List Char} {x : α}

/-! ## Solid forms -/

/-- **A solid form** takes no character behind which an occurrence may
start. -/
def IsSolid (form : List Char → Option (α × List Char)) : Prop :=
  ∀ u x after, form u = some (x, after) →
    ∃ taken, u = taken ++ after ∧ ∀ c ∈ taken, isBoundary c = false

theorem IsSolid.takes (h : IsSolid form) : Takes form := by
  intro u x after hform
  obtain ⟨taken, rfl, -⟩ := h u x after hform
  exact List.suffix_append taken after

/-- **No place lies inside an occurrence of a solid form**: the character
before it would be one that the form takes. -/
theorem IsSolid.not_inside (h : IsSolid form) (hu : Behind s u) : ¬ Inside form s u := by
  rintro ⟨v, y, after, hv, hform, hle, hlt⟩
  obtain ⟨taken, rfl, hsolid⟩ := h v y after hform
  obtain ⟨before, c, rfl, hc⟩ := hu
  obtain ⟨more, htaken⟩ := List.suffix_of_suffix_length_le (List.suffix_append before (c :: u))
    hv.suffix hlt
  -- what is taken reaches at least up to the place
  have hmem : c ∈ taken := by
    have hshort : (more ++ [c]).length ≤ taken.length := by
      have hlen := congrArg List.length htaken
      simp only [List.length_append, List.length_cons, List.length_nil] at hlen ⊢
      omega
    have hprefix : more ++ [c] <+: taken :=
      List.prefix_of_prefix_length_le ⟨u, by simpa using htaken⟩
        (List.prefix_append taken after) hshort
    exact hprefix.subset (by simp)
  rw [hsolid c hmem] at hc
  cases hc

theorem IsSolid.nested (h : IsSolid form) : Nested form s :=
  fun _ v _ y _ last hu _ hv hy hle hlt =>
    absurd ⟨v, y, last, hv, hy, hle, hlt⟩ (h.not_inside hu)

/-- **Every occurrence of a solid form is found.** -/
theorem IsSolid.mem_occurrences (h : IsSolid form) :
    x ∈ occurrences form t
      ↔ ∃ before u after, t = before ++ u ∧ Open before ∧ form u = some (x, after) := by
  rw [Findings.mem_occurrences h.takes h.nested]
  refine exists_congr fun before => exists_congr fun u => exists_congr fun after => ?_
  refine and_congr_right fun ht => and_congr_right fun hopen => and_iff_left ?_
  exact h.not_inside (behind_blank_cons.2 ⟨before, ht, hopen⟩)

theorem IsName.isBoundary_eq_false {name : String} (h : IsName name) :
    ∀ c ∈ name.toList, isBoundary c = false := by
  intro c hc
  rw [isBoundary, h.2 c hc]
  rfl

theorem isBoundary_eq_false_of_all {word : String}
    (h : word.toList.all (!isBoundary ·) = true) : ∀ c ∈ word.toList, isBoundary c = false :=
  fun c hc => (Bool.not_eq_eq_eq_not ..).mp (List.all_eq_true.1 h c hc)

/-- Two names with points and words between them hold no boundary. -/
theorem isBoundary_eq_false_of_mem {before name between output : String}
    (hbefore : before.toList.all (!isBoundary ·) = true) (hname : IsName name)
    (hbetween : between.toList.all (!isBoundary ·) = true) (houtput : IsName output) :
    ∀ c ∈ (before ++ name ++ between ++ output).toList, isBoundary c = false := by
  simp only [String.toList_append, List.forall_mem_append]
  exact ⟨⟨⟨isBoundary_eq_false_of_all hbefore, hname.isBoundary_eq_false⟩,
    isBoundary_eq_false_of_all hbetween⟩, houtput.isBoundary_eq_false⟩

theorem isSolid_dependencyForm : IsSolid dependencyForm := by
  intro u r after h
  obtain ⟨name, output, hname, houtput, -, -, rfl⟩ := dependencyForm_eq_some_iff.1 h
  exact ⟨_, rfl, isBoundary_eq_false_of_mem (by decide) hname (by decide) houtput⟩

theorem isSolid_remoteStateForm : IsSolid remoteStateForm := by
  intro u name after h
  obtain ⟨output, hname, houtput, -, rfl⟩ := remoteStateForm_eq_some_iff.1 h
  exact ⟨_, rfl, isBoundary_eq_false_of_mem (by decide) hname (by decide) houtput⟩

theorem isSolid_dataForm : IsSolid dataForm := by
  intro u source after h
  obtain ⟨type, name, htype, hname, -, -, rfl⟩ := dataForm_eq_some_iff.1 h
  exact ⟨_, rfl, isBoundary_eq_false_of_mem (by decide) htype (by decide) hname⟩

/-! ## Occurrences of words -/

/-- **Some words occur in a text** at its start or behind a character that is
none of a name or of a longer path, and no character of a name follows them. -/
def Occurs (words text : String) : Prop :=
  ∃ before after, text.toList = before ++ (words.toList ++ after) ∧ Open before
    ∧ Stops isNameChar after

/-- Words that go on with a point occur up to there. -/
theorem Occurs.of_append {words more text : String} (h : Occurs (words ++ more) text)
    (hmore : Stops isNameChar more.toList) (hne : more ≠ "") : Occurs words text := by
  obtain ⟨before, after, htext, hopen, -⟩ := h
  refine ⟨before, more.toList ++ after, by simpa using htext, hopen, ?_⟩
  obtain ⟨c, rest, hcons⟩ := List.exists_cons_of_ne_nil fun hnil =>
    hne (String.toList_eq_nil_iff.1 hnil)
  rw [hcons, List.cons_append, stops_cons]
  rw [hcons, stops_cons] at hmore
  exact hmore

/-! ## What is found in texts -/

variable {texts : List String}

theorem mem_references_scan {r : Reference} :
    r ∈ (scan texts).references
      ↔ ∃ t ∈ texts,
        r ∈ occurrences moduleForm t.toList ∨ r ∈ occurrences dependencyForm t.toList := by
  simp only [scan, mem_setOfList, List.mem_flatMap, List.mem_append]

theorem via_of_mem_occurrences_moduleForm {r : Reference} (h : r ∈ occurrences moduleForm t) :
    r.via = .module := by
  obtain ⟨s, after, hform⟩ := exists_of_mem_occurrences h
  obtain ⟨name, index, output, -, -, -, -, rfl, -⟩ := moduleForm_eq_some_iff.1 hform
  rfl

/-- References through dependencies have their form. -/
theorem exists_ofDependency_of_mem_scan {r : Reference} (h : r ∈ (scan texts).references)
    (hvia : r.via = .dependency) : ∃ name output, r = .ofDependency name output := by
  obtain ⟨t, -, h | h⟩ := mem_references_scan.1 h
  · rw [via_of_mem_occurrences_moduleForm h] at hvia
    cases hvia
  · obtain ⟨s, after, hform⟩ := exists_of_mem_occurrences h
    obtain ⟨name, output, -, -, -, rfl, -⟩ := dependencyForm_eq_some_iff.1 hform
    exact ⟨name, output, rfl⟩

/-- The dependencies that are found are those whose words occur. -/
theorem ofDependency_mem_scan {name output : String} :
    .ofDependency name output ∈ (scan texts).references
      ↔ IsName name ∧ IsName output
        ∧ ∃ t ∈ texts, Occurs ("dependency." ++ name ++ ".outputs." ++ output) t := by
  rw [mem_references_scan]
  constructor
  · rintro ⟨t, ht, h | h⟩
    · cases via_of_mem_occurrences_moduleForm h
    · obtain ⟨before, u, after, htext, hopen, hform⟩ := isSolid_dependencyForm.mem_occurrences.1 h
      obtain ⟨n, o, hname, houtput, hafter, hr, rfl⟩ := dependencyForm_eq_some_iff.1 hform
      obtain ⟨-, rfl, rfl, -⟩ := Reference.mk.inj hr
      exact ⟨hname, houtput, t, ht, before, after, htext, hopen, hafter⟩
  · rintro ⟨hname, houtput, t, ht, before, after, htext, hopen, hafter⟩
    refine ⟨t, ht, .inr (isSolid_dependencyForm.mem_occurrences.2
      ⟨before, _, after, htext, hopen, dependencyForm_eq_some_iff.2 ?_⟩)⟩
    exact ⟨name, output, hname, houtput, hafter, rfl, rfl⟩

/-- The remote states that are found are those whose words occur. -/
theorem mem_remoteStates_scan {name : String} :
    name ∈ (scan texts).remoteStates
      ↔ IsName name ∧ ∃ output, IsName output ∧ ∃ t ∈ texts,
          Occurs ("data.terraform_remote_state." ++ name ++ ".outputs." ++ output) t := by
  simp only [scan, mem_setOfList, List.mem_flatMap]
  constructor
  · rintro ⟨t, ht, h⟩
    obtain ⟨before, u, after, htext, hopen, hform⟩ := isSolid_remoteStateForm.mem_occurrences.1 h
    obtain ⟨output, hname, houtput, hafter, rfl⟩ := remoteStateForm_eq_some_iff.1 hform
    exact ⟨hname, output, houtput, t, ht, before, after, htext, hopen, hafter⟩
  · rintro ⟨hname, output, houtput, t, ht, before, after, htext, hopen, hafter⟩
    exact ⟨t, ht, isSolid_remoteStateForm.mem_occurrences.2
      ⟨before, _, after, htext, hopen,
        remoteStateForm_eq_some_iff.2 ⟨output, hname, houtput, hafter, rfl⟩⟩⟩

/-- The data sources that are found are those whose words occur. -/
theorem mem_dataSources_scan {source : String} :
    source ∈ (scan texts).dataSources
      ↔ ∃ type name, IsName type ∧ IsName name ∧ source = type ++ "." ++ name
        ∧ ∃ t ∈ texts, Occurs ("data." ++ type ++ "." ++ name) t := by
  simp only [scan, mem_setOfList, List.mem_flatMap]
  constructor
  · rintro ⟨t, ht, h⟩
    obtain ⟨before, u, after, htext, hopen, hform⟩ := isSolid_dataForm.mem_occurrences.1 h
    obtain ⟨type, name, htype, hname, hafter, rfl, rfl⟩ := dataForm_eq_some_iff.1 hform
    exact ⟨type, name, htype, hname, rfl, t, ht, before, after, htext, hopen, hafter⟩
  · rintro ⟨type, name, htype, hname, rfl, t, ht, before, after, htext, hopen, hafter⟩
    exact ⟨t, ht, isSolid_dataForm.mem_occurrences.2
      ⟨before, _, after, htext, hopen,
        dataForm_eq_some_iff.2 ⟨type, name, htype, hname, hafter, rfl, rfl⟩⟩⟩

/-- A remote state is a data source as well. -/
theorem mem_dataSources_of_mem_remoteStates {name : String}
    (h : name ∈ (scan texts).remoteStates) :
    "terraform_remote_state." ++ name ∈ (scan texts).dataSources := by
  obtain ⟨hname, output, -, t, ht, hoccurs⟩ := mem_remoteStates_scan.1 h
  refine mem_dataSources_scan.2 ⟨"terraform_remote_state", name, by decide, hname, ?_, t, ht, ?_⟩
  · rfl
  · have hwords : "data." ++ "terraform_remote_state" ++ "." ++ name ++ (".outputs." ++ output)
        = "data.terraform_remote_state." ++ name ++ ".outputs." ++ output := by
      rw [← String.append_assoc]
      rfl
    rw [← hwords] at hoccurs
    refine hoccurs.of_append ?_ ?_
    · rw [String.toList_append]
      exact stops_cons.2 (by decide)
    · simp

/-- **What is found are the occurrences** of the forms without an index, of
each in any of the texts, and nothing else; and a remote state is found as a
data source as well. -/
theorem scan_exactly (texts : List String) :
    (∀ name output, .ofDependency name output ∈ (scan texts).references
        ↔ IsName name ∧ IsName output
          ∧ ∃ t ∈ texts, Occurs ("dependency." ++ name ++ ".outputs." ++ output) t)
      ∧ (∀ r ∈ (scan texts).references, r.via = .dependency →
        ∃ name output, r = .ofDependency name output)
      ∧ (∀ name, name ∈ (scan texts).remoteStates
        ↔ IsName name ∧ ∃ output, IsName output ∧ ∃ t ∈ texts,
          Occurs ("data.terraform_remote_state." ++ name ++ ".outputs." ++ output) t)
      ∧ (∀ source, source ∈ (scan texts).dataSources
        ↔ ∃ type name, IsName type ∧ IsName name ∧ source = type ++ "." ++ name
          ∧ ∃ t ∈ texts, Occurs ("data." ++ type ++ "." ++ name) t)
      ∧ ∀ name ∈ (scan texts).remoteStates,
        "terraform_remote_state." ++ name ∈ (scan texts).dataSources :=
  ⟨fun _ _ => ofDependency_mem_scan, fun _ => exists_ofDependency_of_mem_scan,
    fun _ => mem_remoteStates_scan, fun _ => mem_dataSources_scan,
    fun _ => mem_dataSources_of_mem_remoteStates⟩

end StackGraph.Findings
