import Mathlib.Data.List.TakeWhile
/-!
# Runs of characters

Names, numbers and the insides of brackets are read as runs: as many characters
of one kind as there are. A run ends where a text goes on with no character of
the kind, and a text is divided into a run and such a rest in one way only.
-/

namespace StackGraph.Text

variable {α : Type} {p : α → Bool} {s run run' rest rest' : List α}

/-- **A text with which a run ends**: it does not start with one more character
of the kind. -/
def Stops (p : α → Bool) (rest : List α) : Prop := ∀ c ∈ rest.head?, p c = false

theorem stops_nil : Stops p [] := by simp [Stops]

theorem stops_cons {c : α} : Stops p (c :: rest) ↔ p c = false := by simp [Stops]

theorem stops_dropWhile : Stops p (s.dropWhile p) := fun c hc => by
  have h := List.head?_dropWhile_not p s
  rw [Option.mem_def.1 hc] at h
  simpa using h

/-- The whole run is taken, and nothing behind it. -/
theorem takeWhile_append_of_stops (h : ∀ c ∈ run, p c) (hrest : Stops p rest) :
    (run ++ rest).takeWhile p = run := by
  rw [List.takeWhile_append_of_pos h]
  cases rest with
  | nil => rw [List.takeWhile_nil, List.append_nil]
  | cons c rest =>
    rw [List.takeWhile_cons_of_neg (ne_true_of_eq_false (stops_cons.1 hrest)), List.append_nil]

theorem dropWhile_append_of_stops (h : ∀ c ∈ run, p c) (hrest : Stops p rest) :
    (run ++ rest).dropWhile p = rest := by
  rw [List.dropWhile_append_of_pos h]
  cases rest with
  | nil => rfl
  | cons c rest => exact List.dropWhile_cons_of_neg (ne_true_of_eq_false (stops_cons.1 hrest))

/-- **A text is divided in one way** into a run and a rest with which it ends. -/
theorem append_inj_of_stops (h : ∀ c ∈ run, p c) (hrest : Stops p rest)
    (h' : ∀ c ∈ run', p c) (hrest' : Stops p rest') (heq : run ++ rest = run' ++ rest') :
    run = run' ∧ rest = rest' := by
  constructor
  · rw [← takeWhile_append_of_stops h hrest, heq, takeWhile_append_of_stops h' hrest']
  · rw [← dropWhile_append_of_stops h hrest, heq, dropWhile_append_of_stops h' hrest']

/-- **A text is divided in one way** at the first occurrence of a character. -/
theorem append_cons_inj [DecidableEq α] {c : α} (h : c ∉ run) (h' : c ∉ run')
    (heq : run ++ c :: rest = run' ++ c :: rest') : run = run' ∧ rest = rest' := by
  have hstops : ∀ rest : List α, Stops (fun d => decide (d ≠ c)) (c :: rest) := fun rest =>
    stops_cons.2 (by simp)
  have hrun : ∀ run : List α, c ∉ run → ∀ d ∈ run, decide (d ≠ c) := fun run hc d hd =>
    decide_eq_true fun hdc => hc (hdc ▸ hd)
  obtain ⟨hsame, hrest⟩ := append_inj_of_stops (hrun run h) (hstops _) (hrun run' h') (hstops _) heq
  exact ⟨hsame, (List.cons.inj hrest).2⟩

end StackGraph.Text
