import StackGraph.Proofs.Occurrences.Plain
/-!
# References inside an index

A reference to an output of a nested module may have an index, and whatever
stands between its brackets is taken together with it. Other references can
stand there, and they are passed over: in `module.a[module.b.idx].c` only the
output `c` of `a` is found.

Which references are passed over can be said without following the search. The
brackets of an index close at the first closing one, so references around the
same place share it, and with it their end. Hence occurrences nest
(`Findings.nested_moduleForm`), and a reference is found exactly if it stands
somewhere outside the indices of all references, whether these are found or not
(`Findings.ofModule_mem_scan_iff`).
-/

namespace StackGraph.Findings

open Text

variable {t u v q before after last : List Char} {c : Char} {name output : String}
variable {x y r : Reference}

/-! ## Where a place inside a reference is -/

/-- A character of a text in two parts stands in the second one or in the
first. -/
theorem cases_of_append_eq {word rest : List Char} (heq : word ++ rest = q ++ c :: u) :
    (∃ more, q = word ++ more ∧ rest = more ++ c :: u)
      ∨ ∃ more, word = q ++ c :: more ∧ u = more ++ rest := by
  rcases List.append_eq_append_iff.1 heq with ⟨more, hq, hrest⟩ | ⟨more, hword, hrest⟩
  · exact .inl ⟨more, hq, hrest⟩
  · cases more with
    | nil => exact .inl ⟨[], by simpa using hword.symm, hrest.symm⟩
    | cons b more =>
      obtain ⟨rfl, hu⟩ := List.cons.inj hrest
      exact .inr ⟨more, hword, hu⟩

/-- It stands in the second part if the first one does not hold it. -/
theorem exists_append_of_not_mem {word rest : List Char} (h : c ∉ word)
    (heq : word ++ rest = q ++ c :: u) : ∃ more, q = word ++ more ∧ rest = more ++ c :: u := by
  refine (cases_of_append_eq heq).resolve_right ?_
  rintro ⟨more, rfl, -⟩
  exact h (by simp)

theorem IsName.not_mem (h : IsName name) (hc : isNameChar c = false) : c ∉ name.toList :=
  fun hmem => by rw [h.2 c hmem] at hc; cases hc

theorem not_mem_of_isBoundary {word : List Char} (h : ∀ b ∈ word, isBoundary b = false)
    (hc : isBoundary c = true) : c ∉ word :=
  fun hmem => by rw [h c hmem] at hc; cases hc

/-- **A place inside a reference is inside its index**: the words of a
reference and its output hold no character behind which another one starts, and
the closing bracket is followed by a point. -/
theorem exists_brackets (hform : moduleForm (q ++ c :: u) = some (y, last))
    (hc : isBoundary c = true) (hle : last.length ≤ u.length) (hdot : u.head? ≠ some '.') :
    ∃ name head tail output, IsName name ∧ IsName output ∧ Stops isNameChar last
      ∧ ']' ∉ head ++ tail ∧ q ++ [c] = "module.".toList ++ (name.toList ++ '[' :: head)
      ∧ u = tail ++ ']' :: '.' :: (output.toList ++ last) := by
  obtain ⟨name, index, output, hname, hindex, houtput, hlast, -, htext⟩ :=
    moduleForm_eq_some_iff.1 hform
  -- the place is not in the output, since too much would stand behind the reference
  have hend : ∀ more, '.' :: (output.toList ++ last) ≠ more ++ c :: u := by
    intro more heq
    have hsolid : ∀ b ∈ '.' :: output.toList, isBoundary b = false :=
      List.forall_mem_cons.2 ⟨by decide, houtput.isBoundary_eq_false⟩
    have hout : c ∉ '.' :: output.toList := not_mem_of_isBoundary hsolid hc
    obtain ⟨rest, -, hrest⟩ := exists_append_of_not_mem hout heq
    rw [hrest, List.length_append, List.length_cons] at hle
    omega
  have hwords : c ∉ "module.".toList :=
    not_mem_of_isBoundary (isBoundary_eq_false_of_all (by decide)) hc
  obtain ⟨q₁, rfl, h₁⟩ := exists_append_of_not_mem hwords htext.symm
  obtain ⟨q₂, rfl, h₂⟩ := exists_append_of_not_mem
    (not_mem_of_isBoundary hname.isBoundary_eq_false hc) h₁
  rcases hindex with rfl | ⟨inside, hinside, rfl⟩
  · exact absurd h₂ (hend q₂)
  · have hbrackets : '[' :: inside ++ (']' :: '.' :: (output.toList ++ last)) = q₂ ++ c :: u := by
      simpa using h₂
    rcases cases_of_append_eq hbrackets with ⟨more, rfl, hu⟩ | ⟨tail, hq, rfl⟩
    · -- the place is behind the closing bracket, and so at the point or in the output
      cases more with
      | nil => exact absurd (by rw [← (List.cons.inj hu).2]; rfl) hdot
      | cons b more => exact absurd (List.cons.inj hu).2 (hend more)
    · -- the place is between the brackets
      obtain ⟨head, hhead⟩ : ∃ head, q₂ ++ [c] = '[' :: head := by
        cases q₂ with
        | nil => exact ⟨[], by rw [(List.cons.inj hq).1]; rfl⟩
        | cons b q₂ => exact ⟨q₂ ++ [c], by rw [(List.cons.inj hq).1]; rfl⟩
      have hinside' : inside = head ++ tail := by
        refine (List.cons.inj (?_ : '[' :: inside = '[' :: (head ++ tail))).2
        rw [hq, ← List.cons_append, ← hhead, List.append_assoc, List.singleton_append]
      rw [hinside'] at hinside
      refine ⟨name, head, tail, output, hname, houtput, hlast, hinside, ?_, rfl⟩
      rw [← hhead]
      simp

/-- A reference does not start with a point. -/
theorem head?_ne_of_moduleForm (h : moduleForm u = some (x, after)) : u.head? ≠ some '.' := by
  obtain ⟨name, index, output, -, -, -, -, -, rfl⟩ := moduleForm_eq_some_iff.1 h
  rw [show "module.".toList = 'm' :: "odule.".toList by decide, List.cons_append, List.head?_cons]
  decide

/-! ## References nest -/

theorem takes_moduleForm : Takes moduleForm := by
  intro u x after h
  obtain ⟨name, index, output, -, -, -, -, -, rfl⟩ := moduleForm_eq_some_iff.1 h
  exact ⟨"module.".toList ++ (name.toList ++ (index ++ '.' :: output.toList)), by simp⟩

/-- **References nest.** One that starts inside the index of another either
ends before the closing bracket, or has an index itself: then this bracket
closes both, and both have the same output. -/
theorem nested_moduleForm {s : List Char} : Nested moduleForm s := by
  intro u v x y after last hu hx hv hy hle hlt
  obtain ⟨q, c, rfl, hc⟩ := hu.of_length_lt hv.suffix hlt
  obtain ⟨_, _, tail, output, -, houtput, hlast, hinside, -, htail⟩ :=
    exists_brackets hy hc hle (head?_ne_of_moduleForm hx)
  obtain ⟨name', index, output', hname', hindex, houtput', hafter, -, htext⟩ :=
    moduleForm_eq_some_iff.1 hx
  have hnotail : ']' ∉ tail := fun h => hinside (List.mem_append_right _ h)
  have hname : ']' ∉ "module.".toList ++ name'.toList := by
    rw [List.mem_append, not_or]
    exact ⟨by decide, hname'.not_mem (by decide)⟩
  rw [htext] at htail
  rcases hindex with rfl | ⟨inside, hno, rfl⟩
  · have hword : ']' ∉ "module.".toList ++ name'.toList ++ '.' :: output'.toList := by
      rw [List.mem_append, List.mem_cons, not_or, not_or]
      exact ⟨hname, by decide, houtput'.not_mem (by decide)⟩
    have hsplit : "module.".toList ++ name'.toList ++ '.' :: output'.toList ++ after
        = tail ++ ']' :: '.' :: (output.toList ++ last) := by simpa using htail
    obtain ⟨more, -, rfl⟩ := exists_append_of_not_mem hword hsplit
    simp only [List.length_append, List.length_cons]
    omega
  · have hword : ']' ∉ "module.".toList ++ name'.toList ++ '[' :: inside := by
      rw [List.mem_append, List.mem_cons, not_or, not_or]
      exact ⟨hname, by decide, hno⟩
    have hrun : ∀ word : List Char, ']' ∉ word → ∀ b ∈ word, (b != ']') = true :=
      fun word h b hb => bne_iff_ne.2 fun heq => h (heq ▸ hb)
    obtain ⟨-, hrest⟩ := append_inj_of_stops (p := (· != ']')) (hrun _ hword) (stops_cons.2 rfl)
      (hrun _ hnotail) (stops_cons.2 rfl)
      (show _ ++ ']' :: '.' :: (output'.toList ++ after) = _ by simpa using htail)
    have houtputs := (List.cons.inj (List.cons.inj hrest).2).2
    exact (append_inj_of_stops houtput'.2 hafter houtput.2 hlast houtputs).2 ▸ Nat.le_refl _

/-! ## What is found -/

/-- **A place inside an index**: before it stands a reference up to its opening
bracket, and from there on the text goes up to the closing bracket and the
output behind it. -/
def InIndex (before rest : List Char) : Prop :=
  ∃ start name head tail output after, Open start ∧ IsName name ∧ IsName output
    ∧ Stops isNameChar after ∧ ']' ∉ head ++ tail
    ∧ before = start ++ ("module.".toList ++ (name.toList ++ '[' :: head))
    ∧ rest = tail ++ ']' :: '.' :: (output.toList ++ after)

/-- **A reference lies inside another one exactly if it stands in the index of
one.** -/
theorem inside_moduleForm_iff (hopen : Open before) (hu : moduleForm u = some (x, after)) :
    Inside moduleForm (' ' :: (before ++ u)) u ↔ InIndex before u := by
  constructor
  · rintro ⟨v, y, last, hv, hy, hle, hlt⟩
    have hplace : Behind (' ' :: (before ++ u)) u := behind_blank_cons.2 ⟨before, rfl, hopen⟩
    obtain ⟨q, c, rfl, hc⟩ := hplace.of_length_lt hv.suffix hlt
    obtain ⟨start, hstart, hopen'⟩ := behind_blank_cons.1 hv
    obtain ⟨name, head, tail, output, hname, houtput, hlast, hinside, hq, htail⟩ :=
      exists_brackets hy hc hle (head?_ne_of_moduleForm hu)
    refine ⟨start, name, head, tail, output, last, hopen', hname, houtput, hlast, hinside, ?_,
      htail⟩
    rw [← hq]
    exact List.append_cancel_right (by simpa using hstart)
  · rintro ⟨start, name, head, tail, output, last, hopen', hname, houtput, hlast, hinside, rfl, rfl⟩
    refine ⟨"module.".toList ++ (name.toList ++ '[' :: head)
        ++ (tail ++ ']' :: '.' :: (output.toList ++ last)), .ofModule name output, last,
      behind_blank_cons.2 ⟨start, by simp, hopen'⟩, moduleForm_eq_some_iff.2 ?_, ?_, ?_⟩
    · exact ⟨name, '[' :: (head ++ tail ++ [']']), output, hname, .inr ⟨_, hinside, rfl⟩, houtput,
        hlast, rfl, by simp⟩
    · simp only [List.length_append, List.length_cons]
      omega
    · simp only [List.length_append, List.length_cons]
      omega

/-- The text of a reference to an output of a nested module, with an index. -/
def written (name : String) (index : List Char) (output : String) : List Char :=
  ("module." ++ name).toList ++ index ++ ("." ++ output).toList

/-- **A reference to an output of a nested module is found** exactly if it
stands in one of the texts, with an index or without one, at a place that is not
inside the index of such a reference. -/
theorem ofModule_mem_scan_iff (texts : List String) (name output : String) :
    .ofModule name output ∈ (scan texts).references
      ↔ IsName name ∧ IsName output ∧ ∃ t ∈ texts, ∃ before index after,
        t.toList = before ++ (written name index output ++ after) ∧ Open before ∧ IsIndex index
          ∧ Stops isNameChar after ∧ ¬ InIndex before (written name index output ++ after) := by
  have hwritten : ∀ index after, written name index output ++ after
      = "module.".toList ++ (name.toList ++ (index ++ '.' :: (output.toList ++ after))) := by
    intro index after
    rw [written, String.toList_append, String.toList_append, show ".".toList = ['.'] by decide]
    simp
  rw [mem_references_scan]
  constructor
  · rintro ⟨t, ht, h | h⟩
    · obtain ⟨before, u, after, htext, hopen, hform, hinside⟩ :=
        (mem_occurrences takes_moduleForm nested_moduleForm).1 h
      rw [htext, inside_moduleForm_iff hopen hform] at hinside
      obtain ⟨n, index, o, hname, hindex, houtput, hafter, hr, rfl⟩ :=
        moduleForm_eq_some_iff.1 hform
      obtain ⟨-, rfl, rfl, -⟩ := Reference.mk.inj hr
      rw [← hwritten] at htext hinside
      exact ⟨hname, houtput, t, ht, before, index, after, htext, hopen, hindex, hafter, hinside⟩
    · obtain ⟨s, after, hform⟩ := exists_of_mem_occurrences h
      obtain ⟨n, o, -, -, -, hr, -⟩ := dependencyForm_eq_some_iff.1 hform
      cases (Reference.mk.inj hr).1
  · rintro ⟨hname, houtput, t, ht, before, index, after, htext, hopen, hindex, hafter, hinside⟩
    have hform : moduleForm (written name index output ++ after)
        = some (.ofModule name output, after) :=
      moduleForm_eq_some_iff.2 ⟨name, index, output, hname, hindex, houtput, hafter, rfl,
        hwritten index after⟩
    refine ⟨t, ht, .inl ((mem_occurrences takes_moduleForm nested_moduleForm).2
      ⟨before, _, after, htext, hopen, hform, ?_⟩)⟩
    rw [htext, inside_moduleForm_iff hopen hform]
    exact hinside

/-- A reference inside the index of another one is passed over. -/
theorem ofModule_not_mem_scan_inIndex :
    IsName "b" ∧ IsName "idx" ∧ Occurs "module.b.idx" "module.a[module.b.idx].c"
      ∧ .ofModule "b" "idx" ∉ (scan ["module.a[module.b.idx].c"]).references := by
  refine ⟨by decide, by decide, ⟨"module.a[".toList, "].c".toList, by decide +kernel, ?_, ?_⟩, ?_⟩
  · rintro c ⟨⟩
    decide
  · exact stops_cons.2 (by decide)
  · rw [mem_references_scan]
    decide +kernel

end StackGraph.Findings
