import StackGraph.Proofs.Occurrences.Forms
/-!
# The forms as patterns

The functions that take a reference from the start of a text never go back:
every name is as long as it can be, an index is taken if there is one, and where
the text does not go on in the same way there is no reference. A regular
expression goes back. It can match in several ways, with fewer characters of a
name or without an index, and the first one counts in an order of preference
that tries longer names and the index first.

Here the forms are written as such patterns, and both readings agree
(`Findings.scan_eq_search`): going back never helps, since what has to follow a
name or an index cannot start inside of it. The same holds of the search. Behind
each place the pattern is tried before the next place, at the start of the text
also without a character before it, and the search goes on behind a match.
-/

namespace StackGraph.Findings

open Text

/-! ## Patterns -/

/-- Patterns, as far as the forms use them. -/
inductive Pattern where
  /-- A fixed text. -/
  | words (text : List Char)
  /-- One character of a kind. -/
  | char (p : Char → Bool)
  /-- Any number of characters of a kind, rather more than fewer. -/
  | many (p : Char → Bool)
  /-- The place at the start of the whole text. -/
  | start
  /-- One pattern behind another one. -/
  | seq (first second : Pattern)
  /-- Either of two patterns, rather the first. -/
  | either (first second : Pattern)
  /-- A pattern, rather than nothing. -/
  | optional (inner : Pattern)
  /-- A pattern whose text is kept. -/
  | group (inner : Pattern)

/-- One way in which a pattern matches. -/
structure Way where
  /-- The texts that are kept. -/
  kept : List (List Char)
  /-- What is left of the text. -/
  rest : List Char

/-- What can be left behind any number of characters of a kind, with the longest
run first. -/
def restsOf (p : Char → Bool) : List Char → List (List Char)
  | [] => [[]]
  | c :: s => if p c then restsOf p s ++ [c :: s] else [c :: s]

/-- **The ways in which a pattern matches** at some place of a text with `size`
characters, in the order of preference. -/
def ways (size : Nat) : Pattern → List Char → List Way
  | .words text, s => ((literal? text s).map (⟨[], ·⟩)).toList
  | .char _, [] => []
  | .char p, c :: s => if p c then [⟨[], s⟩] else []
  | .many p, s => (restsOf p s).map (⟨[], ·⟩)
  | .start, s => if s.length = size then [⟨[], s⟩] else []
  | .seq first second, s =>
    (ways size first s).flatMap fun w =>
      (ways size second w.rest).map fun v => ⟨w.kept ++ v.kept, v.rest⟩
  | .either first second, s => ways size first s ++ ways size second s
  | .optional inner, s => ways size inner s ++ [⟨[], s⟩]
  | .group inner, s =>
    (ways size inner s).map fun w => ⟨s.take (s.length - w.rest.length) :: w.kept, w.rest⟩

/-- The way that a pattern prefers. -/
def preferred (size : Nat) (pattern : Pattern) (s : List Char) : Option Way :=
  (ways size pattern s).head?

/-- The texts that are kept of the matches in a text with `size` characters,
after `skip` characters. The patterns take one character at least. -/
def searchAfter (size : Nat) (pattern : Pattern) : Nat → List Char → List (List (List Char))
  | _, [] => []
  | skip + 1, _ :: rest => searchAfter size pattern skip rest
  | 0, c :: rest =>
    match preferred size pattern (c :: rest) with
    | some w => w.kept :: searchAfter size pattern (rest.length - w.rest.length) rest
    | none => searchAfter size pattern 0 rest

/-- **The matches of a pattern in a text**, from left to right. -/
def search (pattern : Pattern) (text : String) : List (List (List Char)) :=
  searchAfter text.toList.length pattern 0 text.toList

/-! ## The patterns of the forms -/

namespace Pattern

/-- A name, which is kept. -/
def name : Pattern := .group (.seq (.char isNameChar) (.many isNameChar))

/-- An index in brackets. -/
def brackets : Pattern := .seq (.words ['[']) (.seq (.many (· != ']')) (.words [']']))

/-- A pattern at the start of a text or behind a boundary. -/
def behind (inner : Pattern) : Pattern := .seq (.either .start (.char isBoundary)) inner

/-- An output of a nested module. -/
def ofModule : Pattern :=
  .seq (.words "module.".toList) (.seq name (.seq (.optional brackets) (.seq (.words ['.']) name)))

/-- An output of a dependency. -/
def ofDependency : Pattern :=
  .seq (.words "dependency.".toList) (.seq name (.seq (.words ".outputs.".toList) name))

/-- An output of a remote state. -/
def ofRemoteState : Pattern :=
  .seq (.words "data.terraform_remote_state.".toList)
    (.seq name (.seq (.words ".outputs.".toList) name))

/-- A data source. -/
def ofData : Pattern := .seq (.words "data.".toList) (.seq name (.seq (.words ['.']) name))

end Pattern

/-! ## The preferred way -/

section Preferred

variable {size : Nat} {pattern : Pattern} {s : List Char} {p : Char → Bool}

/-- **A pattern that no text matches which goes on with a character of a
kind.** -/
def Rejects (size : Nat) (pattern : Pattern) (p : Char → Bool) : Prop :=
  ∀ c s, p c = true → ways size pattern (c :: s) = []

/-- The longest run leaves the least, and each shorter one is followed by one
more character of the kind. -/
theorem exists_restsOf_eq (p : Char → Bool) (s : List Char) :
    ∃ more, restsOf p s = s.dropWhile p :: more
      ∧ ∀ rest ∈ more, ∃ c t, rest = c :: t ∧ p c = true := by
  induction s with
  | nil => exact ⟨[], rfl, by simp⟩
  | cons c s ih =>
    rw [restsOf]
    split
    · rename_i hc
      obtain ⟨more, hmore, hall⟩ := ih
      rw [hmore, List.dropWhile_cons_of_pos hc]
      refine ⟨more ++ [c :: s], rfl, fun rest hrest => ?_⟩
      rcases List.mem_append.1 hrest with hrest | hrest
      · exact hall rest hrest
      · exact ⟨c, s, List.mem_singleton.1 hrest, hc⟩
    · rename_i hc
      exact ⟨[], by rw [List.dropWhile_cons_of_neg hc], by simp⟩

/-- Where a pattern follows that rejects more characters of the kind, only the
longest run is left to try. -/
theorem flatMap_restsOf {β : Type} {f : List Char → List β}
    (hf : ∀ c s, p c = true → f (c :: s) = []) :
    (restsOf p s).flatMap f = f (s.dropWhile p) := by
  obtain ⟨more, hmore, hall⟩ := exists_restsOf_eq p s
  have hnone : more.flatMap f = [] := List.flatMap_eq_nil_iff.2 fun rest hrest => by
    obtain ⟨c, t, rfl, hc⟩ := hall rest hrest
    exact hf c t hc
  rw [hmore, List.flatMap_cons, hnone, List.append_nil]

theorem ways_seq_words {text : List Char} :
    ways size (.seq (.words text) pattern) s
      = (literal? text s).elim [] fun rest => ways size pattern rest := by
  rw [ways, ways]
  cases literal? text s with
  | none => rfl
  | some rest => simp

theorem preferred_seq_words {text : List Char} :
    preferred size (.seq (.words text) pattern) s
      = (literal? text s).bind (preferred size pattern) := by
  rw [preferred, ways_seq_words]
  cases literal? text s <;> rfl

/-- A fixed text rejects a kind that its first character is not of. -/
theorem rejects_seq_words {text : List Char} {c : Char} (hfirst : text.head? = some c)
    (hc : p c = false) : Rejects size (.seq (.words text) pattern) p := by
  intro b s hb
  obtain ⟨text, rfl⟩ := List.head?_eq_some_iff.1 hfirst
  have hne : c ≠ b := by
    rintro rfl
    rw [hb] at hc
    cases hc
  rw [ways_seq_words, literal?, if_neg hne]
  rfl

/-! ### Names -/

/-- What is taken up to the end of a run is the run. -/
theorem take_length_sub_dropWhile (p : Char → Bool) (s : List Char) :
    s.take (s.length - (s.dropWhile p).length) = s.takeWhile p := by
  have hlength := congrArg List.length (List.takeWhile_append_dropWhile (p := p) (l := s))
  rw [List.length_append] at hlength
  rw [show s.length - (s.dropWhile p).length = (s.takeWhile p).length by omega]
  exact (List.prefix_iff_eq_take.1 (List.takeWhile_prefix p)).symm

/-- A name matches in as many ways as there are runs behind its first
character. -/
theorem ways_name_cons {c : Char} {t : List Char} (hc : isNameChar c = true) :
    ways size .name (c :: t)
      = (restsOf isNameChar t).map fun rest =>
        ⟨[(c :: t).take ((c :: t).length - rest.length)], rest⟩ := by
  simp [Pattern.name, ways, hc, Function.comp_def]

theorem name?_cons {c : Char} {t : List Char} (hc : isNameChar c = true) :
    name? (c :: t) = some (.ofList ((c :: t).takeWhile isNameChar), t.dropWhile isNameChar) := by
  rw [name?, List.takeWhile_cons_of_pos hc, List.dropWhile_cons_of_pos hc]

/-- Where no name is read the pattern does not match. -/
theorem name_cases (s : List Char) :
    (name? s = none ∧ ∀ size, ways size .name s = [])
      ∨ ∃ c t, s = c :: t ∧ isNameChar c = true := by
  cases s with
  | nil => exact .inl ⟨rfl, fun _ => rfl⟩
  | cons c t =>
    by_cases hc : isNameChar c = true
    · exact .inr ⟨c, t, rfl, hc⟩
    · refine .inl ⟨?_, fun _ => ?_⟩
      · rw [name?, List.takeWhile_cons_of_neg hc]
      · simp [Pattern.name, ways, hc]

/-- **A name in front of a pattern that rejects its characters** is as long as
it can be. -/
theorem preferred_seq_name (h : Rejects size pattern isNameChar) :
    preferred size (.seq .name pattern) s
      = (name? s).bind fun n =>
        (preferred size pattern n.2).map fun w => ⟨n.1.toList :: w.kept, w.rest⟩ := by
  rcases name_cases s with ⟨hnone, hways⟩ | ⟨c, t, rfl, hc⟩
  · rw [preferred, ways, hways, hnone]
    rfl
  · rw [preferred, ways, ways_name_cons hc, List.flatMap_map, flatMap_restsOf, name?_cons hc,
      List.head?_map, ← List.dropWhile_cons_of_pos hc, take_length_sub_dropWhile]
    · simp [preferred, String.toList_ofList]
    · intro b r hb
      rw [h b r hb]
      rfl

/-- A name at the end is as long as it can be. -/
theorem preferred_name : preferred size .name s = (name? s).map fun n => ⟨[n.1.toList], n.2⟩ := by
  rcases name_cases s with ⟨hnone, hways⟩ | ⟨c, t, rfl, hc⟩
  · rw [preferred, hways, hnone]
    rfl
  · obtain ⟨more, hmore, -⟩ := exists_restsOf_eq isNameChar t
    rw [preferred, ways_name_cons hc, hmore, name?_cons hc, List.map_cons, List.head?_cons,
      ← List.dropWhile_cons_of_pos hc, take_length_sub_dropWhile]
    simp [String.toList_ofList]

/-! ### Indices -/

/-- Brackets match in one way at most: they end with the first closing one. -/
theorem ways_brackets {inner : List Char} :
    ways size .brackets ('[' :: inner)
      = ((literal? [']'] (inner.dropWhile (· != ']'))).map (⟨[], ·⟩)).toList := by
  have hopen : literal? ['['] ('[' :: inner) = some inner := rfl
  rw [Pattern.brackets, ways_seq_words, hopen, Option.elim_some, ways, ways, List.flatMap_map,
    flatMap_restsOf]
  · rw [ways]
    cases literal? [']'] (inner.dropWhile (· != ']')) <;> rfl
  · intro c t hc
    have hclose : literal? [']'] (c :: t) = none := if_neg (bne_iff_ne.1 hc).symm
    rw [ways, hclose]
    rfl

theorem ways_seq_optional {inner : Pattern} :
    ways size (.seq (.optional inner) pattern) s
      = ((ways size inner s).flatMap fun w =>
          (ways size pattern w.rest).map fun v => ⟨w.kept ++ v.kept, v.rest⟩)
        ++ ways size pattern s := by
  rw [ways, ways, List.flatMap_append]
  simp

/-- **An index in front of a point** is taken if there is one: without it the
opening bracket stands where the point has to be. -/
theorem preferred_seq_index :
    preferred size (.seq (.optional .brackets) (.seq (.words ['.']) pattern)) s
      = preferred size (.seq (.words ['.']) pattern) (skipIndex s) := by
  rw [preferred, ways_seq_optional, preferred]
  unfold skipIndex
  split
  · rename_i inner
    have hpoint : ways size (.seq (.words ['.']) pattern) ('[' :: inner) = [] :=
      rejects_seq_words (p := (· == '[')) rfl rfl _ _ rfl
    rw [ways_brackets, hpoint, List.append_nil]
    split
    · rename_i after hclose
      rw [hclose, show literal? [']'] (']' :: after) = some after by rfl]
      simp
    · rename_i hclose
      have hnone : literal? [']'] (inner.dropWhile (· != ']')) = none := by
        cases hrest : inner.dropWhile (· != ']') with
        | nil => rfl
        | cons c rest =>
          refine if_neg ?_
          rintro rfl
          exact hclose rest hrest
      rw [hnone, hpoint]
      rfl
  · rename_i hbracket
    have hnone : literal? ['['] s = none := by
      cases s with
      | nil => rfl
      | cons c rest =>
        refine if_neg ?_
        rintro rfl
        exact hbracket rest rfl
    rw [Pattern.brackets, ways_seq_words, hnone]
    rfl

theorem rejects_seq_optional {inner : Pattern} (hinner : Rejects size inner p)
    (h : Rejects size pattern p) : Rejects size (.seq (.optional inner) pattern) p := by
  intro c s hc
  rw [ways_seq_optional, hinner c s hc, h c s hc]
  rfl

end Preferred

/-! ## The forms -/

section Forms

variable {α : Type} {size : Nat} {form : List Char → Option (α × List Char)}
variable {pattern : Pattern} {read : List (List Char) → α} {s : List Char}

/-- **A form is read by a pattern**: it gives what the preferred way of the
pattern keeps. -/
def IsReadBy (form : List Char → Option (α × List Char)) (pattern : Pattern)
    (read : List (List Char) → α) : Prop :=
  ∀ size s, form s = (preferred size pattern s).map fun w => (read w.kept, w.rest)

/-- One of the texts that are kept. -/
def keptAt (kept : List (List Char)) (i : Nat) : String := .ofList (kept.getD i [])

theorem keptAt_zero {text : String} {kept : List (List Char)} :
    keptAt (text.toList :: kept) 0 = text := String.ofList_toList

theorem keptAt_one {text : String} {first : List Char} {kept : List (List Char)} :
    keptAt (first :: text.toList :: kept) 1 = text := String.ofList_toList

/-- Two names with fixed texts before them. -/
theorem preferred_two_names {before between : List Char} {c : Char}
    (hfirst : between.head? = some c) (hc : isNameChar c = false) :
    preferred size (.seq (.words before) (.seq .name (.seq (.words between) .name))) s
      = (literal? before s).bind fun rest => (name? rest).bind fun n =>
        (literal? between n.2).bind fun rest => (name? rest).bind fun m =>
          some ⟨[n.1.toList, m.1.toList], m.2⟩ := by
  rw [preferred_seq_words]
  refine congrArg _ (funext fun rest => ?_)
  rw [preferred_seq_name (rejects_seq_words hfirst hc)]
  refine congrArg _ (funext fun n => ?_)
  rw [preferred_seq_words]
  cases literal? between n.2 with
  | none => rfl
  | some rest =>
    rw [Option.bind_some, Option.bind_some, preferred_name]
    cases name? rest <;> rfl

theorem isReadBy_ofModule :
    IsReadBy moduleForm .ofModule fun kept => .ofModule (keptAt kept 0) (keptAt kept 1) := by
  intro size s
  have hpoint : ∀ pattern, Rejects size (.seq (.words ['.']) pattern) isNameChar :=
    fun _ => rejects_seq_words rfl (by decide)
  have hbracket : Rejects size .brackets isNameChar := rejects_seq_words rfl (by decide)
  rw [Pattern.ofModule, preferred_seq_words]
  simp only [moduleForm, Option.bind_eq_bind]
  cases literal? "module.".toList s with
  | none => rfl
  | some rest =>
    rw [Option.bind_some, Option.bind_some,
      preferred_seq_name (rejects_seq_optional hbracket (hpoint _))]
    cases name? rest with
    | none => rfl
    | some n =>
      rw [Option.bind_some, Option.bind_some, preferred_seq_index, preferred_seq_words]
      cases literal? ['.'] (skipIndex n.2) with
      | none => rfl
      | some rest =>
        rw [Option.bind_some, Option.bind_some, preferred_name]
        cases name? rest with
        | none => rfl
        | some m =>
          simp only [Option.bind_some, Option.map_some, keptAt_zero, keptAt_one]
          rfl

theorem isReadBy_ofDependency :
    IsReadBy dependencyForm .ofDependency
      fun kept => .ofDependency (keptAt kept 0) (keptAt kept 1) := by
  intro size s
  rw [Pattern.ofDependency, preferred_two_names (c := '.') (by decide) (by decide)]
  simp only [dependencyForm, Option.map_bind, Function.comp_def, Option.map_some, keptAt_zero,
    keptAt_one]
  rfl

theorem isReadBy_ofRemoteState :
    IsReadBy remoteStateForm .ofRemoteState fun kept => keptAt kept 0 := by
  intro size s
  rw [Pattern.ofRemoteState, preferred_two_names (c := '.') (by decide) (by decide)]
  simp only [remoteStateForm, Option.map_bind, Function.comp_def, Option.map_some, keptAt_zero]
  rfl

theorem isReadBy_ofData :
    IsReadBy dataForm .ofData fun kept => keptAt kept 0 ++ "." ++ keptAt kept 1 := by
  intro size s
  rw [Pattern.ofData, preferred_two_names (c := '.') rfl (by decide)]
  simp only [dataForm, Option.map_bind, Function.comp_def, Option.map_some, keptAt_zero,
    keptAt_one]
  rfl

end Forms

/-! ## The search -/

section Search

variable {α : Type} {size : Nat} {form : List Char → Option (α × List Char)}
variable {pattern : Pattern} {read : List (List Char) → α} {s rest : List Char}

theorem suffix_of_mem_restsOf {p : Char → Bool} (h : rest ∈ restsOf p s) : rest <:+ s := by
  induction s with
  | nil =>
    obtain rfl := List.mem_singleton.1 h
    exact List.suffix_rfl
  | cons c s ih =>
    rw [restsOf] at h
    split at h
    · rcases List.mem_append.1 h with h | h
      · exact (ih h).trans (List.suffix_cons c s)
      · obtain rfl := List.mem_singleton.1 h
        exact List.suffix_rfl
    · obtain rfl := List.mem_singleton.1 h
      exact List.suffix_rfl

/-- **What a way leaves is an end of the text**, by induction on the pattern. -/
theorem suffix_of_mem_ways {w : Way} (h : w ∈ ways size pattern s) : w.rest <:+ s := by
  induction pattern generalizing s w with
  | words text =>
    rw [ways, Option.mem_toList, Option.map_eq_some_iff] at h
    obtain ⟨rest, hrest, rfl⟩ := h
    rw [literal?_eq_some_iff.1 hrest]
    exact List.suffix_append text rest
  | char p =>
    cases s with
    | nil => exact absurd h List.not_mem_nil
    | cons c s =>
      rw [ways, List.mem_ite_nil_right] at h
      rw [List.mem_singleton.1 h.2]
      exact List.suffix_cons c s
  | many p =>
    obtain ⟨rest, hrest, rfl⟩ := List.mem_map.1 h
    exact suffix_of_mem_restsOf hrest
  | start =>
    rw [ways, List.mem_ite_nil_right] at h
    obtain rfl := List.mem_singleton.1 h.2
    exact List.suffix_rfl
  | seq first second ihfirst ihsecond =>
    obtain ⟨u, hu, hw⟩ := List.mem_flatMap.1 h
    obtain ⟨v, hv, rfl⟩ := List.mem_map.1 hw
    exact (ihsecond hv).trans (ihfirst hu)
  | either first second ihfirst ihsecond =>
    exact (List.mem_append.1 h).elim ihfirst ihsecond
  | optional inner ih =>
    rcases List.mem_append.1 h with h | h
    · exact ih h
    · obtain rfl := List.mem_singleton.1 h
      exact List.suffix_rfl
  | group inner ih =>
    obtain ⟨v, hv, rfl⟩ := List.mem_map.1 h
    exact ih (w := v) hv

/-- **A pattern takes at least one character.** -/
def Advances (pattern : Pattern) : Prop :=
  ∀ size s w, preferred size pattern s = some w → w.rest.length < s.length

theorem advances_seq_words {text : List Char} (hne : text ≠ []) :
    Advances (.seq (.words text) pattern) := by
  intro size s w h
  rw [preferred_seq_words, Option.bind_eq_some_iff] at h
  obtain ⟨rest, hrest, hw⟩ := h
  have hle := (suffix_of_mem_ways (List.mem_of_mem_head? hw)).length_le
  have hpos := List.length_pos_iff.2 hne
  rw [literal?_eq_some_iff.1 hrest, List.length_append]
  omega

/-- Behind a boundary a pattern is tried one character further on; at the start
of the text it is tried there first. -/
theorem preferred_behind {c : Char} :
    preferred size (.behind pattern) (c :: s)
      = (if (c :: s).length = size then preferred size pattern (c :: s) else none).or
        (if isBoundary c then preferred size pattern s else none) := by
  have hways : ways size (.behind pattern) (c :: s)
      = (if (c :: s).length = size then ways size pattern (c :: s) else [])
        ++ (if isBoundary c then ways size pattern s else []) := by
    rw [Pattern.behind, ways, ways, List.flatMap_append, ways, ways]
    split <;> split <;> simp
  rw [preferred, hways, List.head?_append, apply_ite List.head?, apply_ite List.head?]
  rfl

/-- One step of the search, at a place that is not the start of the text or
where the pattern does not match without a boundary. -/
theorem occurrencesAfter_cons {c : Char} (hread : IsReadBy form pattern read)
    (hrest : ∀ skip, occurrencesAfter form skip rest
      = (searchAfter size (.behind pattern) skip rest).map read)
    (hfirst : preferred size (.behind pattern) (c :: rest)
      = if isBoundary c then preferred size pattern rest else none) :
    occurrencesAfter form 0 (c :: rest)
      = (searchAfter size (.behind pattern) 0 (c :: rest)).map read := by
  rw [occurrencesAfter, searchAfter, hfirst, hread size rest]
  by_cases hc : isBoundary c = true
  · rw [if_pos hc, if_pos hc]
    cases preferred size pattern rest with
    | none => exact hrest 0
    | some w => exact congrArg (List.cons _) (hrest _)
  · rw [if_neg hc, if_neg hc]
    exact hrest 0

/-- **One search is the other** behind the start of the text. -/
theorem occurrencesAfter_eq_searchAfter (hread : IsReadBy form pattern read) {skip : Nat}
    (hsize : s.length < size) :
    occurrencesAfter form skip s = (searchAfter size (.behind pattern) skip s).map read := by
  induction s generalizing skip with
  | nil => rw [occurrencesAfter, searchAfter, List.map_nil]
  | cons c rest ih =>
    have hrest : rest.length < size := (Nat.lt_succ_self _).trans hsize
    cases skip with
    | succ skip => exact ih hrest
    | zero =>
      refine occurrencesAfter_cons hread (fun _ => ih hrest) ?_
      rw [preferred_behind, if_neg hsize.ne, Option.none_or]

/-- **A form occurs where its pattern matches.** -/
theorem occurrences_eq_search (hadvances : Advances pattern) (hread : IsReadBy form pattern read)
    (t : String) : occurrences form t.toList = (search (.behind pattern) t).map read := by
  rw [search, occurrences]
  generalize t.toList = s
  rw [hread s.length s]
  cases s with
  | nil =>
    cases hfirst : preferred 0 pattern [] with
    | none => rfl
    | some w => exact absurd (hadvances _ _ _ hfirst) (Nat.not_lt_zero _)
  | cons c rest =>
    have hrest : ∀ skip, occurrencesAfter form skip rest
        = (searchAfter (c :: rest).length (.behind pattern) skip rest).map read :=
      fun _ => occurrencesAfter_eq_searchAfter hread (Nat.lt_succ_self rest.length)
    have hstart : preferred (c :: rest).length (.behind pattern) (c :: rest)
        = (preferred (c :: rest).length pattern (c :: rest)).or
          (if isBoundary c then preferred (c :: rest).length pattern rest else none) := by
      rw [preferred_behind, if_pos rfl]
    cases hfirst : preferred (c :: rest).length pattern (c :: rest) with
    | none =>
      rw [hfirst, Option.none_or] at hstart
      exact occurrencesAfter_cons hread hrest hstart
    | some w =>
      -- the match takes a character, so the search goes on behind the first one
      have hlt := hadvances _ _ _ hfirst
      have hskip : (c :: rest).length - w.rest.length = rest.length - w.rest.length + 1 := by
        rw [List.length_cons] at hlt ⊢
        omega
      rw [hfirst, Option.some_or] at hstart
      rw [searchAfter, hstart, Option.map_some]
      simp only [hskip]
      exact congrArg (List.cons _) (hrest _)

end Search

/-- **What is found are the matches of four patterns**, with backtracking: the
preferred way at each place, from left to right. -/
theorem scan_eq_search (texts : List String) :
    scan texts =
      { references := .ofList (texts.flatMap fun t =>
          (search (.behind .ofModule) t).map (fun kept => .ofModule (keptAt kept 0) (keptAt kept 1))
            ++ (search (.behind .ofDependency) t).map
              fun kept => .ofDependency (keptAt kept 0) (keptAt kept 1)) _
        dataSources := .ofList (texts.flatMap fun t =>
          (search (.behind .ofData) t).map fun kept => keptAt kept 0 ++ "." ++ keptAt kept 1) _
        remoteStates := .ofList (texts.flatMap fun t =>
          (search (.behind .ofRemoteState) t).map fun kept => keptAt kept 0) _ } := by
  have hmodule := occurrences_eq_search (advances_seq_words (by decide)) isReadBy_ofModule
  have hdependency := occurrences_eq_search (advances_seq_words (by decide)) isReadBy_ofDependency
  have hdata := occurrences_eq_search (advances_seq_words (by decide)) isReadBy_ofData
  have hremote := occurrences_eq_search (advances_seq_words (by decide)) isReadBy_ofRemoteState
  rw [scan]
  simp only [hmodule, hdependency, hdata, hremote]
  rfl

end StackGraph.Findings
