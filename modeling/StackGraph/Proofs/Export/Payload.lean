import StackGraph.Proofs.Export.Markup
import StackGraph.Proofs.Json.Roundtrip
/-!
# The data of a page is read back

The data of the graph is JSON in which every `</` is written `<\/`, so that it
cannot end the element that holds it. This is a replacement in a finished text,
which knows nothing of what it replaces. It is harmless because of what JSON is:
no text that denotes a value has a `<` outside of its quoted parts, in a quoted
part a `<` never stands behind a backslash that escapes it, and between quotes a
slash behind a backslash is a slash.

Instead of looking for the places where a `</` may stand in a text that was
written, all texts are read: whatever denotes a value denotes the same value
after the replacement (`Json.read?_protectEnd`). What each reader contributes is
that it takes a protected text for the text that it protects and leaves a
protected rest (`Json.Keeps`), so the proof goes along the readers and not along
the values.
-/

namespace StackGraph

/-! ## Protected text -/

namespace Html

variable {c : Char} {s front : List Char}

theorem protectEnd_cons (h : c ≠ '<') : protectEnd (c :: s) = c :: protectEnd s := by
  rw [protectEnd]
  exact fun _ hc => absurd hc h

/-- Only a slash can be escaped, and only directly behind a `<`. -/
theorem protectEnd_append (h : '<' ∉ front) : protectEnd (front ++ s) = front ++ protectEnd s := by
  induction front with
  | nil => rfl
  | cons c front ih =>
    obtain ⟨hc, hfront⟩ := not_or.1 (List.mem_cons.not.1 h)
    rw [List.cons_append, protectEnd_cons (Ne.symm hc), ih hfront, List.cons_append]

/-- The first character stays what it is. -/
theorem head?_protectEnd : (protectEnd s).head? = s.head? := by
  cases s with
  | nil => rfl
  | cons c s =>
    rw [protectEnd.eq_def]
    split <;> simp_all

/-- Nothing is taken away. -/
theorem length_le_length_protectEnd : s.length ≤ (protectEnd s).length := by
  induction s using protectEnd.induct with
  | case1 rest ih =>
    simp only [protectEnd, List.length_cons]
    omega
  | case2 c rest hend ih =>
    rw [protectEnd.eq_2 c rest hend]
    exact Nat.succ_le_succ ih
  | case3 => exact Nat.le_refl _

/-- **Protected text has no `</`.** -/
theorem not_infix_protectEnd : ¬ ['<', '/'] <:+: protectEnd s := by
  induction s using protectEnd.induct with
  | case1 rest ih =>
    simp only [protectEnd, List.infix_cons_iff, List.cons_prefix_cons]
    simpa using ih
  | case2 c rest hend ih =>
    rw [protectEnd.eq_2 c rest hend, List.infix_cons_iff, List.cons_prefix_cons]
    rintro (⟨hc, hslash⟩ | hinfix)
    · -- behind the `<` a slash would come first, which is the other case
      obtain ⟨t, ht⟩ := hslash
      have hhead : rest.head? = some '/' := by
        rw [← head?_protectEnd, ← ht]
        rfl
      obtain ⟨rest', rfl⟩ := List.head?_eq_some_iff.1 hhead
      exact hend rest' hc.symm rfl
    · exact ih hinfix
  | case3 => simp [protectEnd]

variable {p : Char → Bool}

/-- A run of characters that ends before every `<` is followed by protected
text. -/
theorem exists_run (h : p '<' = false) : ∃ run rest, s = run ++ rest ∧ (∀ c ∈ run, p c)
    ∧ protectEnd s = run ++ protectEnd rest
    ∧ Text.Stops p rest ∧ Text.Stops p (protectEnd rest) := by
  have hrun : ∀ c ∈ s.takeWhile p, p c := fun _ hc => List.mem_takeWhile_imp hc
  have hlt : '<' ∉ s.takeWhile p := fun hc => ne_true_of_eq_false h (hrun _ hc)
  refine ⟨s.takeWhile p, s.dropWhile p, List.takeWhile_append_dropWhile.symm, hrun, ?_,
    Text.stops_dropWhile, ?_⟩
  · rw [← protectEnd_append hlt, List.takeWhile_append_dropWhile]
  · rw [Text.Stops, head?_protectEnd]
    exact Text.stops_dropWhile

theorem takeWhile_protectEnd (h : p '<' = false) :
    (protectEnd s).takeWhile p = s.takeWhile p := by
  obtain ⟨run, rest, hs, hrun, hprotect, hrest, hrest'⟩ := @exists_run s p h
  rw [hprotect, hs, Text.takeWhile_append_of_stops hrun hrest',
    Text.takeWhile_append_of_stops hrun hrest]

theorem dropWhile_protectEnd (h : p '<' = false) :
    (protectEnd s).dropWhile p = protectEnd (s.dropWhile p) := by
  obtain ⟨run, rest, hs, hrun, hprotect, hrest, hrest'⟩ := @exists_run s p h
  rw [hprotect, hs, Text.dropWhile_append_of_stops hrun hrest',
    Text.dropWhile_append_of_stops hrun hrest]

end Html

/-! ## Reading protected text -/

namespace Json

open Html

variable {s rest text : List Char}

/-- **A reader keeps its value** if it takes a protected text for the text that it
protects, and leaves a protected rest. -/
def Keeps {α : Type} (element? : List Char → Option (α × List Char)) : Prop :=
  ∀ ⦃s x rest⦄, element? s = some (x, rest) → element? (protectEnd s) = some (x, protectEnd rest)

theorem skipSpace_protectEnd : skipSpace (protectEnd s) = protectEnd (skipSpace s) :=
  dropWhile_protectEnd rfl

/-! ### Texts between quotes -/

/-- A code is made of hexadecimal digits. -/
theorem hexDigit?_ne_none_of_mem {n : Nat} {c : Char} (h : Text.hexValue? s = some n)
    (hc : c ∈ s) : Text.hexDigit? c ≠ none := by
  have hfold : ∀ init, s.foldlM (fun n c => (Text.hexDigit? c).map (16 * n + ·)) init = some n →
      Text.hexDigit? c ≠ none := by
    clear h
    induction s with
    | nil => exact absurd hc List.not_mem_nil
    | cons d s ih =>
      intro init h
      rw [List.foldlM_cons] at h
      obtain ⟨next, hd, hs⟩ := Option.bind_eq_some_iff.1 h
      rcases List.mem_cons.1 hc with rfl | hc
      · obtain ⟨value, hvalue, -⟩ := Option.map_eq_some_iff.1 hd
        rw [hvalue]
        exact Option.some_ne_none value
      · exact ih hc next hs
  exact hfold 0 h

/-- A character that is written by its code is not changed. -/
theorem protectEnd_code {a b c d : Char} {n : Nat} (h : Text.hexValue? [a, b, c, d] = some n) :
    protectEnd ('\\' :: 'u' :: a :: b :: c :: d :: s)
      = '\\' :: 'u' :: a :: b :: c :: d :: protectEnd s := by
  have hlt : '<' ∉ [a, b, c, d] := fun hc => hexDigit?_ne_none_of_mem h hc rfl
  exact @protectEnd_append s ['\\', 'u', a, b, c, d] (by simpa using hlt)

/-- An escaped slash is read as a slash. -/
theorem quoted?_slash : quoted? ('\\' :: '/' :: s) = quoted? ('/' :: s) := by
  rw [quoted?_cons (c := '/') (by decide) (by decide) (by decide)]
  rfl

theorem map_cons_eq_some_iff {o : Option (List Char × List Char)} {c : Char} :
    (o.map fun (t, s) => (c :: t, s)) = some (text, rest)
      ↔ ∃ t, o = some (t, rest) ∧ c :: t = text := by
  rw [Option.map_eq_some_iff]
  constructor
  · rintro ⟨⟨t, s⟩, ho, heq⟩
    obtain ⟨rfl, rfl⟩ := Prod.mk.inj heq
    exact ⟨t, ho, rfl⟩
  · rintro ⟨t, ho, rfl⟩
    exact ⟨(t, rest), ho, rfl⟩

/-- **A text between quotes is the same when it is protected**, and the quotation
mark that ends it stays where it is. -/
theorem keeps_quoted? : Keeps quoted? := by
  intro s text rest h
  induction s using quoted?.induct generalizing text rest with
  | case1 => cases h
  | case2 s =>
    obtain ⟨rfl, rfl⟩ := Prod.mk.inj (Option.some.inj h)
    rfl
  | case3 a b c d s ih ihpair =>
    rw [quoted?] at h
    obtain ⟨code, hcode, h⟩ := Option.bind_eq_some_iff.1 h
    rw [protectEnd_code hcode]
    simp only [quoted?, hcode, Option.bind_eq_bind, Option.bind_some]
    cases hchar : Text.charOf? code with
    | some char =>
      rw [hchar] at h
      exact map_cons_eq_some_iff.2 ((map_cons_eq_some_iff.1 h).imp fun t ht => ⟨ih ht.1, ht.2⟩)
    | none =>
      -- the first of two codes, so the second one follows at once
      rw [hchar] at h
      dsimp only at h ihpair
      split at h
      case h_2 => cases h
      case h_1 _ a b c d s _ =>
        obtain ⟨second, hsecond, h⟩ := Option.bind_eq_some_iff.1 h
        obtain ⟨joined, hjoined, h⟩ := Option.bind_eq_some_iff.1 h
        obtain ⟨char, hchar, h⟩ := Option.bind_eq_some_iff.1 h
        rw [protectEnd_code hsecond]
        simp only [hsecond, hjoined, hchar, Option.bind_some]
        exact map_cons_eq_some_iff.2
          ((map_cons_eq_some_iff.1 h).imp fun t ht => ⟨ihpair ht.1, ht.2⟩)
  | case4 c s hcode ih =>
    rw [quoted?.eq_4 c s hcode] at h
    obtain ⟨char, hchar, h⟩ := Option.bind_eq_some_iff.1 h
    have hlt : c ≠ '<' := by
      rintro rfl
      cases hchar
    have hu : c ≠ 'u' := by
      rintro rfl
      cases hchar
    rw [protectEnd_cons (by decide), protectEnd_cons hlt,
      quoted?.eq_4 c _ fun _ _ _ _ _ hc => absurd hc hu, hchar]
    exact map_cons_eq_some_iff.2 ((map_cons_eq_some_iff.1 h).imp fun t ht => ⟨ih ht.1, ht.2⟩)
  | case5 c s hquote hcode hescape hcontrol =>
    rw [quoted?.eq_5 c s hquote hcode hescape, if_pos hcontrol] at h
    cases h
  | case6 c s hquote hcode hescape hcontrol ih =>
    rw [quoted?.eq_5 c s hquote hcode hescape, if_neg hcontrol] at h
    obtain ⟨t, ht, rfl⟩ := map_cons_eq_some_iff.1 h
    have hslash : c ≠ '\\' := by
      rintro rfl
      cases s with
      | nil => cases ht
      | cons d s => exact hescape d s rfl rfl
    by_cases hend : c = '<' ∧ s.head? = some '/'
    · obtain ⟨rfl, hhead⟩ := hend
      obtain ⟨s, rfl⟩ := List.head?_eq_some_iff.1 hhead
      rw [protectEnd, quoted?_cons hquote hslash hcontrol, quoted?_slash,
        ← protectEnd_cons (by decide), ih ht, Option.map_some]
    · have hprotect : protectEnd (c :: s) = c :: protectEnd s := by
        rw [protectEnd]
        rintro s' hc rfl
        exact hend ⟨hc, rfl⟩
      rw [hprotect, quoted?_cons hquote hslash hcontrol, ih ht, Option.map_some]

/-! ### Numbers and other scalars -/

theorem keeps_number? : Keeps number? := by
  intro s n rest h
  simp only [number?, takeWhile_protectEnd (s := s) (p := Char.isDigit) rfl,
    dropWhile_protectEnd (s := s) (p := Char.isDigit) rfl] at h ⊢
  split at h
  case isTrue => cases h
  case isFalse hzero =>
    obtain ⟨n, hn, heq⟩ := Option.map_eq_some_iff.1 h
    obtain ⟨rfl, rfl⟩ := Prod.mk.inj heq
    rw [if_neg hzero, hn, Option.map_some]

/-- A number begins with a digit. -/
theorem exists_digit_of_number? {n : Nat} (h : number? s = some (n, rest)) :
    ∃ c t, s = c :: t ∧ c.isDigit := by
  cases s with
  | nil => cases h
  | cons c t =>
    refine ⟨c, t, rfl, ?_⟩
    by_contra hc
    rw [number?, List.takeWhile_cons_of_neg hc] at h
    cases h

theorem scalar?_of_isDigit {c : Char} (h : c.isDigit) :
    scalar? (c :: s) = (number? (c :: s)).map fun (n, s) => (nat n, s) := by
  rw [scalar?]
  all_goals exact fun _ heq => ne_of_isDigit h rfl (List.cons.inj heq).1

theorem keeps_scalar? : Keeps scalar? := by
  intro s v rest h
  rw [scalar?.eq_def] at h
  split at h
  case h_1 s =>
    obtain ⟨⟨text, rest⟩, hquoted, heq⟩ := Option.map_eq_some_iff.1 h
    obtain ⟨rfl, rfl⟩ := Prod.mk.inj heq
    rw [protectEnd_cons (by decide), scalar?, keeps_quoted? hquoted, Option.map_some]
  case h_5 s _ _ _ _ =>
    obtain ⟨⟨n, rest⟩, hnumber, heq⟩ := Option.map_eq_some_iff.1 h
    obtain ⟨rfl, rfl⟩ := Prod.mk.inj heq
    obtain ⟨c, t, rfl, hdigit⟩ := exists_digit_of_number? hnumber
    have hread := keeps_number? hnumber
    rw [protectEnd_cons (ne_of_isDigit hdigit rfl)] at hread ⊢
    rw [scalar?_of_isDigit hdigit, hread, Option.map_some]
  all_goals
    obtain ⟨rfl, rfl⟩ := Prod.mk.inj (Option.some.inj h)
    rfl

/-! ### Arrays and objects -/

section Elements

variable {α : Type} {element? : List Char → Option (α × List Char)} {closing : Char}

/-- Elements are kept if each element is, and a longer text has no fewer of
them to spare. -/
theorem Keeps.elements? (h : Keeps element?) (hclosing : closing ≠ '<') {most most' : Nat}
    {xs : List α} (hread : Json.elements? element? closing most s = some (xs, rest))
    (hmost : most ≤ most') :
    Json.elements? element? closing most' (protectEnd s) = some (xs, protectEnd rest) := by
  induction most generalizing s xs most' with
  | zero => cases hread
  | succ most ih =>
    obtain ⟨most', rfl⟩ := Nat.exists_eq_add_one_of_ne_zero (Nat.ne_zero_of_lt hmost)
    rw [Json.elements?] at hread ⊢
    obtain ⟨⟨x, s⟩, hx, hnext⟩ := Option.bind_eq_some_iff.1 hread
    clear hread
    rw [h hx]
    dsimp only [Option.bind_eq_bind, Option.bind_some] at hnext ⊢
    rw [skipSpace_protectEnd]
    split at hnext
    case h_1 => cases hnext
    case h_2 c t heq =>
      rw [heq]
      split at hnext
      case isTrue hc =>
        subst hc
        obtain ⟨rfl, rfl⟩ := Prod.mk.inj (Option.some.inj hnext)
        rw [protectEnd_cons hclosing]
        exact if_pos rfl
      case isFalse hc =>
        split at hnext
        case isFalse => cases hnext
        case isTrue hcomma =>
          subst hcomma
          obtain ⟨⟨ys, s⟩, hys, heq⟩ := Option.map_eq_some_iff.1 hnext
          obtain ⟨rfl, rfl⟩ := Prod.mk.inj heq
          rw [protectEnd_cons (by decide)]
          dsimp only
          rw [if_neg hc, if_pos rfl, ih hys (Nat.le_of_succ_le_succ hmost), Option.map_some]

theorem Keeps.enclosed? (h : Keeps element?) (hclosing : closing ≠ '<') :
    Keeps (Json.enclosed? element? closing) := by
  intro s xs rest hread
  rw [Json.enclosed?] at hread ⊢
  rw [skipSpace_protectEnd]
  split at hread
  case h_1 => cases hread
  case h_2 c t heq =>
    rw [heq]
    split at hread
    case isTrue hc =>
      subst hc
      obtain ⟨rfl, rfl⟩ := Prod.mk.inj (Option.some.inj hread)
      rw [protectEnd_cons hclosing]
      exact if_pos rfl
    case isFalse hc =>
      have hlong := h.elements? hclosing hread length_le_length_protectEnd
      -- the first character is the same one, so it is no closing bracket either
      obtain ⟨t', ht'⟩ : ∃ t', protectEnd (c :: t) = c :: t' :=
        List.head?_eq_some_iff.1 head?_protectEnd
      rw [ht'] at hlong ⊢
      dsimp only
      rw [if_neg hc]
      exact hlong

theorem Keeps.member? (h : Keeps element?) : Keeps (Json.member? element?) := by
  intro s m rest hread
  rw [Json.member?] at hread ⊢
  rw [skipSpace_protectEnd]
  split at hread
  case h_2 => cases hread
  case h_1 t heq =>
    rw [heq, protectEnd_cons (by decide)]
    obtain ⟨⟨key, s⟩, hkey, hnext⟩ := Option.bind_eq_some_iff.1 hread
    dsimp only at hnext
    show (quoted? (protectEnd t)).bind _ = _
    rw [keeps_quoted? hkey]
    dsimp only [Option.bind_some]
    rw [skipSpace_protectEnd]
    split at hnext
    case h_2 => cases hnext
    case h_1 t heq =>
      obtain ⟨⟨x, s⟩, hx, heq'⟩ := Option.map_eq_some_iff.1 hnext
      obtain ⟨rfl, rfl⟩ := Prod.mk.inj heq'
      rw [heq, protectEnd_cons (by decide)]
      show (element? (protectEnd t)).map _ = _
      rw [h hx, Option.map_some]

end Elements

/-! ### Values -/

variable {depth : Nat}

theorem keeps_value? : Keeps (value? depth) := by
  induction depth with
  | zero =>
    intro s v rest h
    rw [value?] at h ⊢
    rw [skipSpace_protectEnd]
    exact keeps_scalar? h
  | succ depth ih =>
    intro s v rest h
    rw [value?] at h ⊢
    rw [skipSpace_protectEnd]
    split at h
    case h_1 t heq =>
      obtain ⟨⟨items, s⟩, hitems, heq'⟩ := Option.map_eq_some_iff.1 h
      obtain ⟨rfl, rfl⟩ := Prod.mk.inj heq'
      rw [heq, protectEnd_cons (by decide)]
      show (Json.enclosed? (value? depth) ']' (protectEnd t)).map _ = _
      rw [ih.enclosed? (by decide) hitems, Option.map_some]
    case h_2 t heq =>
      obtain ⟨⟨members, s⟩, hmembers, heq'⟩ := Option.map_eq_some_iff.1 h
      obtain ⟨rfl, rfl⟩ := Prod.mk.inj heq'
      rw [heq, protectEnd_cons (by decide)]
      show (Json.enclosed? (Json.member? (value? depth)) '\x7d' (protectEnd t)).map _ = _
      rw [ih.member?.enclosed? (by decide) hmembers, Option.map_some]
    case h_3 t harray hobject =>
      have hread := keeps_scalar? h
      -- the first character stays what it is, so no bracket is opened either
      have hhead : ∀ {c u}, protectEnd (skipSpace s) = c :: u → ∃ u, skipSpace s = c :: u := by
        intro c u hcons
        refine List.head?_eq_some_iff.1 ?_
        rw [← head?_protectEnd, hcons, List.head?_cons]
      split
      case h_1 hcons =>
        obtain ⟨u, hu⟩ := hhead hcons
        exact absurd hu (harray u)
      case h_2 hcons =>
        obtain ⟨u, hu⟩ := hhead hcons
        exact absurd hu (hobject u)
      case h_3 => exact hread

/-- **Whatever denotes a value denotes it when it is protected.** -/
theorem read?_protectEnd {t : String} {v : Json} (h : read? t = some v) :
    read? (String.ofList (protectEnd t.toList)) = some v := by
  obtain ⟨⟨w, rest⟩, hvalue, hend⟩ := Option.bind_eq_some_iff.1 h
  rw [read?, String.toList_ofList, keeps_value? hvalue]
  dsimp only [Option.bind_eq_bind, Option.bind_some] at hend ⊢
  rw [skipSpace_protectEnd]
  split at hend
  case isFalse => cases hend
  case isTrue hempty =>
    rw [List.isEmpty_iff.1 hempty]
    exact hend

/-- A value on one line is read back. -/
theorem read?_compact {v : Json} (h : Within depthLimit v) : read? v.compact = some v := by
  have hread : value? depthLimit (v.compact.toList ++ []) = some (v, []) :=
    (@Layout.reads onOneLine _ 0 _ h).reads [] fun _ hc => by cases hc
  rw [List.append_nil] at hread
  rw [read?, hread]
  rfl

end Json

/-! ## The data of the graph -/

namespace Html

variable {r : Report} {layout : Layout} {depth : Nat}

theorem within_moduleData {m : ModuleReport} : Json.Within (depth + 2) (moduleData m) := by
  simp [moduleData]

theorem within_graphData : Json.Within (depth + 4) (graphData r layout) := by
  have hcycles : Json.Within (depth + 3) (.array (r.cycles.map Cycle.toJson)) :=
    Json.within_array_map fun _ => Json.within_strings
  simp only [graphData, Json.within_object, List.forall_mem_cons]
  refine ⟨by simp, hcycles, ?_, List.forall_mem_nil _⟩
  exact Json.within_object_map fun _ => within_moduleData

/-- **The page holds the data of the graph in disguise.** Between the markup of
the page stands a text without `</` that denotes one object, whatever the texts
of the report hold: the bounds of the drawing, the cycles with all their
members, and for every module of the report what the script shows of it. -/
theorem payload_denotes_graphData (r : Report) :
    render r = front r ++ payload r (Layout.ofReport r) ++ back
      ∧ ¬ ['<', '/'] <:+: (payload r (Layout.ofReport r)).toList
      ∧ Json.read? (payload r (Layout.ofReport r)) = some (graphData r (Layout.ofReport r))
      ∧ graphData r (Layout.ofReport r) = .object
        [("bounds", .object [("height", .nat (Layout.ofReport r).height),
            ("width", .nat (Layout.ofReport r).width)]),
          ("cycles", .array (r.cycles.map fun c => .array (c.walk.map .string))),
          ("modules", .object (r.modules.toList.map fun (id, m) => (id, .object
            [("complexity_score", .nat m.complexityScore),
              ("dependencies", .array (m.dependencies.map .string)),
              ("dependents", .array (m.dependents.map .string)),
              ("outputs", .array (m.outputs.map .string)),
              ("source", .string m.source), ("stub", .bool m.stub)])))] := by
  have hdepth : Json.Within Json.depthLimit (graphData r (Layout.ofReport r)) :=
    @within_graphData r _ 123
  refine ⟨render_eq_front_append r, ?_, Json.read?_protectEnd (Json.read?_compact hdepth), rfl⟩
  rw [payload, String.toList_ofList]
  exact not_infix_protectEnd

end Html

end StackGraph
