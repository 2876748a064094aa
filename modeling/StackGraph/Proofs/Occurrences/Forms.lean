import StackGraph.Proofs.Runs
import StackGraph.Reference.Scan
/-!
# What the forms of a reference are

The functions that take a reference from the start of a text are described by
the texts that they take: fixed words with names between them, each name as
long as it can be, and in one of the forms an index in brackets. Every form is
an equivalence between what its function gives and how the text can be divided
(`Findings.moduleForm_eq_some_iff` and its neighbours), so nothing else has to
look into these functions.
-/

namespace StackGraph.Findings

open Text

variable {s rest after word : List Char} {name output : String}

/-! ## Words and names -/

/-- **A name**: at least one character, and only those of names. -/
def IsName (name : String) : Prop := name ≠ "" ∧ ∀ c ∈ name.toList, isNameChar c = true

instance : DecidablePred IsName := fun name =>
  decidable_of_iff (name ≠ "" ∧ name.toList.all isNameChar = true)
    (and_congr_right fun _ => List.all_eq_true)

theorem literal?_eq_some_iff : literal? word s = some rest ↔ s = word ++ rest := by
  induction word generalizing s with
  | nil => simp [literal?]
  | cons a word ih =>
    cases s with
    | nil => simp [literal?]
    | cons b s =>
      rw [literal?, List.cons_append, List.cons_eq_cons]
      split
      · rename_i hab
        rw [ih, eq_comm (a := b), and_iff_right hab]
      · rename_i hab
        exact iff_of_false (by simp) fun h => hab h.1.symm

/-- A name is taken up to where its run ends. -/
theorem name?_eq_some_iff :
    name? s = some (name, rest)
      ↔ IsName name ∧ Stops isNameChar rest ∧ s = name.toList ++ rest := by
  have hsplit := List.takeWhile_append_dropWhile (p := isNameChar) (l := s)
  constructor
  · intro h
    unfold name? at h
    split at h
    · cases h
    · rename_i hne
      cases h
      rw [IsName, String.toList_ofList]
      refine ⟨⟨fun hempty => hne (String.ofList_eq_empty_iff.1 hempty), fun c hc => ?_⟩,
        stops_dropWhile, hsplit.symm⟩
      exact List.all_eq_true.1 List.all_takeWhile c hc
  · rintro ⟨⟨hne, hall⟩, hrest, rfl⟩
    rw [name?, takeWhile_append_of_stops hall hrest, dropWhile_append_of_stops hall hrest]
    split
    · rename_i hnil
      exact absurd (String.toList_eq_nil_iff.1 hnil) hne
    · rw [String.ofList_toList]

/-! ## Indices -/

/-- **An index between a name and an output**: nothing, or a pair of brackets
that ends with the first closing one. -/
def IsIndex (index : List Char) : Prop :=
  index = [] ∨ ∃ inside, ']' ∉ inside ∧ index = '[' :: (inside ++ [']'])

/-- Behind an index there is a point. -/
theorem skipIndex_eq_iff :
    skipIndex s = ['.'] ++ rest ↔ ∃ index, IsIndex index ∧ s = index ++ '.' :: rest := by
  constructor
  · intro h
    unfold skipIndex at h
    split at h
    · rename_i inner
      split at h
      · rename_i after hclose
        obtain rfl := h
        refine ⟨'[' :: (inner.takeWhile (· != ']') ++ [']']), .inr ⟨_, ?_, rfl⟩, ?_⟩
        · intro hmem
          simpa using List.all_eq_true.1 List.all_takeWhile _ hmem
        · have hsplit := List.takeWhile_append_dropWhile (p := (· != ']')) (l := inner)
          rw [hclose] at hsplit
          simpa using hsplit.symm
      · exact ⟨[], .inl rfl, h⟩
    · exact ⟨[], .inl rfl, h⟩
  · rintro ⟨index, rfl | ⟨inside, hinside, rfl⟩, rfl⟩
    · rfl
    · have hrun : ∀ c ∈ inside, (c != ']') = true := fun c hc =>
        bne_iff_ne.2 fun heq => hinside (heq ▸ hc)
      have hdrop : (inside ++ (']' :: '.' :: rest)).dropWhile (· != ']') = ']' :: '.' :: rest :=
        dropWhile_append_of_stops hrun (stops_cons.2 rfl)
      rw [show '[' :: (inside ++ [']']) ++ '.' :: rest = '[' :: (inside ++ (']' :: '.' :: rest)) by
        simp, skipIndex]
      simp only [hdrop]
      rfl

/-- A name ends where an index or a point follows. -/
theorem IsIndex.stops {index : List Char} (h : IsIndex index) :
    Stops isNameChar (index ++ '.' :: rest) := by
  rcases h with rfl | ⟨inside, -, rfl⟩
  · exact stops_cons.2 (by decide)
  · exact stops_cons.2 (by decide)

/-! ## The forms -/

/-- An output of a nested module. -/
theorem moduleForm_eq_some_iff {r : Reference} :
    moduleForm s = some (r, after)
      ↔ ∃ name index output, IsName name ∧ IsIndex index ∧ IsName output ∧ Stops isNameChar after
        ∧ r = .ofModule name output
        ∧ s = "module.".toList ++ (name.toList ++ (index ++ '.' :: (output.toList ++ after))) := by
  simp only [moduleForm, Option.bind_eq_bind, Option.bind_eq_some_iff, Prod.exists,
    literal?_eq_some_iff, skipIndex_eq_iff, name?_eq_some_iff, Option.pure_def,
    Option.some.injEq, Prod.mk.injEq]
  constructor
  · rintro ⟨_, rfl, name, _, ⟨hname, -, rfl⟩, _, ⟨index, hindex, rfl⟩, output, _,
      ⟨houtput, hafter, rfl⟩, rfl, rfl⟩
    exact ⟨name, index, output, hname, hindex, houtput, hafter, rfl, rfl⟩
  · rintro ⟨name, index, output, hname, hindex, houtput, hafter, rfl, rfl⟩
    exact ⟨_, rfl, name, _, ⟨hname, hindex.stops, rfl⟩, _, ⟨index, hindex, rfl⟩, output, _,
      ⟨houtput, hafter, rfl⟩, rfl, rfl⟩

/-- An output of a dependency. -/
theorem dependencyForm_eq_some_iff {r : Reference} :
    dependencyForm s = some (r, after)
      ↔ ∃ name output, IsName name ∧ IsName output ∧ Stops isNameChar after
        ∧ r = .ofDependency name output
        ∧ s = ("dependency." ++ name ++ ".outputs." ++ output).toList ++ after := by
  simp only [dependencyForm, Option.bind_eq_bind, Option.bind_eq_some_iff, Prod.exists,
    literal?_eq_some_iff, name?_eq_some_iff, Option.pure_def, Option.some.injEq, Prod.mk.injEq,
    String.toList_append, List.append_assoc]
  constructor
  · rintro ⟨_, rfl, name, _, ⟨hname, -, rfl⟩, _, rfl, output, _, ⟨houtput, hafter, rfl⟩, rfl, rfl⟩
    exact ⟨name, output, hname, houtput, hafter, rfl, rfl⟩
  · rintro ⟨name, output, hname, houtput, hafter, rfl, rfl⟩
    exact ⟨_, rfl, name, _, ⟨hname, stops_cons.2 (by decide), rfl⟩, _, rfl, output, _,
      ⟨houtput, hafter, rfl⟩, rfl, rfl⟩

/-- An output of a remote state. -/
theorem remoteStateForm_eq_some_iff :
    remoteStateForm s = some (name, after)
      ↔ ∃ output, IsName name ∧ IsName output ∧ Stops isNameChar after
        ∧ s = ("data.terraform_remote_state." ++ name ++ ".outputs." ++ output).toList
          ++ after := by
  simp only [remoteStateForm, Option.bind_eq_bind, Option.bind_eq_some_iff, Prod.exists,
    literal?_eq_some_iff, name?_eq_some_iff, Option.pure_def, Option.some.injEq, Prod.mk.injEq,
    String.toList_append, List.append_assoc]
  constructor
  · rintro ⟨_, rfl, name, _, ⟨hname, -, rfl⟩, _, rfl, output, _, ⟨houtput, hafter, rfl⟩, rfl, rfl⟩
    exact ⟨output, hname, houtput, hafter, rfl⟩
  · rintro ⟨output, hname, houtput, hafter, rfl⟩
    exact ⟨_, rfl, name, _, ⟨hname, stops_cons.2 (by decide), rfl⟩, _, rfl, output, _,
      ⟨houtput, hafter, rfl⟩, rfl, rfl⟩

/-- A data source. -/
theorem dataForm_eq_some_iff {source : String} :
    dataForm s = some (source, after)
      ↔ ∃ type name, IsName type ∧ IsName name ∧ Stops isNameChar after
        ∧ source = type ++ "." ++ name ∧ s = ("data." ++ type ++ "." ++ name).toList ++ after := by
  simp only [dataForm, Option.bind_eq_bind, Option.bind_eq_some_iff, Prod.exists,
    literal?_eq_some_iff, name?_eq_some_iff, Option.pure_def, Option.some.injEq, Prod.mk.injEq,
    String.toList_append, List.append_assoc]
  constructor
  · rintro ⟨_, rfl, type, _, ⟨htype, -, rfl⟩, _, rfl, name, _, ⟨hname, hafter, rfl⟩, rfl, rfl⟩
    exact ⟨type, name, htype, hname, hafter, rfl, rfl⟩
  · rintro ⟨type, name, htype, hname, hafter, rfl, rfl⟩
    exact ⟨_, rfl, type, _, ⟨htype, stops_cons.2 (by decide), rfl⟩, _, rfl, name, _,
      ⟨hname, hafter, rfl⟩, rfl, rfl⟩

end StackGraph.Findings
