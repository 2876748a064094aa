import Mathlib.Data.List.Infix
import StackGraph.Reference.Scan
/-!
# What a search from left to right finds

Occurrences of a form are looked for from left to right, and the search goes on
behind an occurrence that it found. So an occurrence that starts inside another
one may be passed over, and whether it is seems to depend on everything that
was found before.

It does not if occurrences nest: if none that starts inside another one ends
behind it (`Findings.Nested`). Then an occurrence is found exactly if it lies
inside no other, whether that one is found itself or not
(`Findings.mem_occurrences`). The reason is that what passes over an occurrence
passes over all that lies inside it as well.

Places in a text are told apart by what stands behind them, so the place of an
occurrence is a suffix of the text. A text starts where a search may start, as
if there were a blank before it.
-/

namespace StackGraph.Findings

variable {α : Type} {form : List Char → Option (α × List Char)}
variable {s s' t u before : List Char} {c : Char} {x : α} {skip : Nat}

/-! ## Places -/

/-- **A place behind a boundary**: the character before what stands there is
none of a name or of a longer path. -/
def Behind (s u : List Char) : Prop := ∃ before c, s = before ++ c :: u ∧ isBoundary c = true

theorem not_behind_nil : ¬ Behind [] u := by
  rintro ⟨before, c, h, -⟩
  exact absurd h.symm (List.append_ne_nil_of_right_ne_nil _ (List.cons_ne_nil _ _))

theorem behind_cons : Behind (c :: s) u ↔ isBoundary c = true ∧ u = s ∨ Behind s u := by
  constructor
  · rintro ⟨before, b, h, hb⟩
    cases before with
    | nil =>
      obtain ⟨rfl, rfl⟩ := List.cons.inj h
      exact .inl ⟨hb, rfl⟩
    | cons a before => exact .inr ⟨before, b, (List.cons.inj h).2, hb⟩
  · rintro (⟨hc, rfl⟩ | ⟨before, b, rfl, hb⟩)
    · exact ⟨[], c, rfl, hc⟩
    · exact ⟨c :: before, b, rfl, hb⟩

theorem Behind.suffix (h : Behind s u) : u <:+ s := by
  obtain ⟨before, c, rfl, -⟩ := h
  exact ⟨before ++ [c], by simp⟩

theorem Behind.length_lt (h : Behind s u) : u.length < s.length := by
  obtain ⟨before, c, rfl, -⟩ := h
  simp only [List.length_append, List.length_cons]
  omega

theorem Behind.of_suffix (h : Behind s u) (hs : s <:+ s') : Behind s' u := by
  obtain ⟨before, c, rfl, hc⟩ := h
  obtain ⟨more, rfl⟩ := hs
  exact ⟨more ++ before, c, by simp, hc⟩

/-- A place lies in the rest of a text if there is less behind it than the
rest. -/
theorem Behind.of_length_lt (h : Behind s u) (hs : s' <:+ s) (hlen : u.length < s'.length) :
    Behind s' u := by
  obtain ⟨before, c, rfl, hc⟩ := h
  obtain ⟨more, rfl⟩ := List.suffix_of_suffix_length_le (List.suffix_append before (c :: u)) hs hlen
  exact ⟨more, c, rfl, hc⟩

/-- **A text behind which an occurrence may start**: it is empty, or it ends
with a character that is none of a name or of a longer path. -/
def Open (before : List Char) : Prop := ∀ c ∈ before.getLast?, isBoundary c = true

/-- With a blank before it, the start of a text is behind a boundary as well. -/
theorem behind_blank_cons : Behind (' ' :: t) u ↔ ∃ before, t = before ++ u ∧ Open before := by
  rw [behind_cons]
  constructor
  · rintro (⟨-, rfl⟩ | ⟨before, c, rfl, hc⟩)
    · exact ⟨[], rfl, by simp [Open]⟩
    · refine ⟨before ++ [c], by simp, fun b hb => ?_⟩
      rw [List.getLast?_concat] at hb
      exact Option.some.inj hb ▸ hc
  · rintro ⟨before, rfl, hopen⟩
    rcases List.eq_nil_or_concat before with rfl | ⟨before, c, rfl⟩
    · exact .inl ⟨rfl, rfl⟩
    · exact .inr ⟨before, c, by simp, hopen c (by simp)⟩

/-! ## Occurrences inside others -/

/-- **A place inside an occurrence**: the occurrence starts before it, and what
is left behind the occurrence is no longer than what stands at the place. -/
def Inside (form : List Char → Option (α × List Char)) (s u : List Char) : Prop :=
  ∃ v y after, Behind s v ∧ form v = some (y, after) ∧ after.length ≤ u.length
    ∧ u.length < v.length

/-- A form takes characters from the start of a text. -/
def Takes (form : List Char → Option (α × List Char)) : Prop :=
  ∀ u x after, form u = some (x, after) → after <:+ u

/-- **Occurrences nest**: one that starts inside another does not end behind
it. -/
def Nested (form : List Char → Option (α × List Char)) (s : List Char) : Prop :=
  ∀ u v x y after last, Behind s u → form u = some (x, after) → Behind s v →
    form v = some (y, last) → last.length ≤ u.length → u.length < v.length →
    last.length ≤ after.length

theorem Nested.of_suffix (h : Nested form s) (hs : s' <:+ s) : Nested form s' :=
  fun u v x y after last hu hx hv hy =>
    h u v x y after last (hu.of_suffix hs) hx (hv.of_suffix hs) hy

theorem Inside.of_suffix (h : Inside form s u) (hs : s <:+ s') : Inside form s' u := by
  obtain ⟨v, y, after, hv, hy, hle, hlt⟩ := h
  exact ⟨v, y, after, hv.of_suffix hs, hy, hle, hlt⟩

/-- **One step of the search**: behind an occurrence at the next place, the
places that lie inside no occurrence are this one and those of the rest. -/
theorem exists_not_inside_iff {rest after : List Char} {y : α} (htakes : Takes form)
    (hnested : Nested form (c :: rest)) (hc : isBoundary c = true)
    (hform : form rest = some (y, after)) :
    (∃ u last, Behind (c :: rest) u ∧ form u = some (x, last) ∧ ¬ Inside form (c :: rest) u)
      ↔ x = y ∨ ∃ u last, Behind after u ∧ form u = some (x, last) ∧ ¬ Inside form after u := by
  have hafter : after <:+ c :: rest := (htakes _ _ _ hform).trans (List.suffix_cons c rest)
  have hfirst : Behind (c :: rest) rest := behind_cons.2 (.inl ⟨hc, rfl⟩)
  constructor
  · rintro ⟨u, last, hu, hx, hinside⟩
    by_cases hlen : u.length < rest.length
    · -- the place is not inside the first occurrence, so it is behind it
      have hlt : u.length < after.length := by
        by_contra hle
        exact hinside ⟨rest, y, after, hfirst, hform, Nat.not_lt.1 hle, hlen⟩
      exact .inr ⟨u, last, hu.of_length_lt hafter hlt, hx,
        fun h => hinside (h.of_suffix hafter)⟩
    · rcases behind_cons.1 hu with ⟨-, rfl⟩ | hu
      · rw [hform] at hx
        cases hx
        exact .inl rfl
      · exact absurd hu.length_lt hlen
  · rintro (rfl | ⟨u, last, hu, hx, hinside⟩)
    · refine ⟨rest, after, hfirst, hform, ?_⟩
      rintro ⟨v, z, last, hv, -, -, hlt⟩
      have := hv.length_lt
      rw [List.length_cons] at this
      omega
    · refine ⟨u, last, hu.of_suffix hafter, hx, ?_⟩
      rintro ⟨v, z, end', hv, hz, hle, hlt⟩
      have hult := hu.length_lt
      by_cases hvlen : v.length < after.length
      · exact hinside ⟨v, z, end', hv.of_length_lt hafter hvlen, hz, hle, hlt⟩
      · -- an occurrence around the place starts inside the first one and ends behind it
        rcases behind_cons.1 hv with ⟨-, rfl⟩ | hv'
        · rw [hform] at hz
          cases hz
          omega
        · have := hnested v rest z y end' after hv hz hfirst hform (Nat.not_lt.1 hvlen)
            hv'.length_lt
          omega

/-- What is found behind some characters that are passed over. -/
theorem mem_occurrencesAfter (htakes : Takes form) (hnested : Nested form s) :
    x ∈ occurrencesAfter form skip s
      ↔ ∃ u last, Behind (s.drop skip) u ∧ form u = some (x, last)
        ∧ ¬ Inside form (s.drop skip) u := by
  induction s generalizing skip with
  | nil =>
    rw [occurrencesAfter, List.drop_nil]
    refine iff_of_false List.not_mem_nil ?_
    rintro ⟨u, last, hu, -⟩
    exact not_behind_nil hu
  | cons c rest ih =>
    have hrest := hnested.of_suffix (List.suffix_cons c rest)
    cases skip with
    | succ skip =>
      rw [occurrencesAfter, List.drop_succ_cons]
      exact ih hrest
    | zero =>
      rw [occurrencesAfter, List.drop_zero]
      split
      · rename_i y after hmatch
        split at hmatch
        · rename_i hc
          rw [List.mem_cons, ih hrest, exists_not_inside_iff htakes hnested hc hmatch,
            ← List.suffix_iff_eq_drop.1 (htakes _ _ _ hmatch)]
        · cases hmatch
      · rename_i hmatch
        rw [ih hrest, List.drop_zero]
        -- no occurrence starts at this place, so none is added and none is covered
        have hnone : ∀ u y last, Behind (c :: rest) u → form u = some (y, last) →
            Behind rest u := by
          intro u y last hu hy
          rcases behind_cons.1 hu with ⟨hc, rfl⟩ | hu
          · rw [if_pos hc, hy] at hmatch
            cases hmatch
          · exact hu
        refine exists_congr fun u => exists_congr fun last => ?_
        constructor
        · rintro ⟨hu, hx, hinside⟩
          refine ⟨hu.of_suffix (List.suffix_cons c rest), hx, ?_⟩
          rintro ⟨v, y, end', hv, hy, hle, hlt⟩
          exact hinside ⟨v, y, end', hnone v y end' hv hy, hy, hle, hlt⟩
        · rintro ⟨hu, hx, hinside⟩
          exact ⟨hnone u x last hu hx, hx,
            fun h => hinside (h.of_suffix (List.suffix_cons c rest))⟩

/-- A search starts as if there were a blank before the text. -/
theorem occurrences_eq : occurrences form t = occurrencesAfter form 0 (' ' :: t) := by
  rw [occurrences, occurrencesAfter, if_pos (by decide)]

/-- **What a search finds**: the occurrences that lie inside no other. -/
theorem mem_occurrences (htakes : Takes form) (hnested : Nested form (' ' :: t)) :
    x ∈ occurrences form t
      ↔ ∃ before u after, t = before ++ u ∧ Open before ∧ form u = some (x, after)
        ∧ ¬ Inside form (' ' :: t) u := by
  rw [occurrences_eq, mem_occurrencesAfter htakes hnested, List.drop_zero]
  constructor
  · rintro ⟨u, after, hu, hx, hinside⟩
    obtain ⟨before, ht, hopen⟩ := behind_blank_cons.1 hu
    exact ⟨before, u, after, ht, hopen, hx, hinside⟩
  · rintro ⟨before, u, after, ht, hopen, hx, hinside⟩
    exact ⟨u, after, behind_blank_cons.2 ⟨before, ht, hopen⟩, hx, hinside⟩

end StackGraph.Findings
