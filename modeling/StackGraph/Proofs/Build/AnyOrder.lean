import StackGraph.Proofs.Build.Absorption
/-!
# Which orders of absorbing agree

A module can absorb its fragments in any order, and whatever it gathers is the
same: all its sets, its nested modules with their sources, whether it is a stub,
and its declarations up to their order. The source of the unit is the exception.
The empty text stands for no source, and a source that is found replaces no
source at all; but the empty text is also the least of all texts, so it replaces
every source, and what was found before it is forgotten.

As long as no fragment gives the empty text as its source, the least source of
all is left, in whatever order they come. Once a fragment does, only the sources
behind the last such fragment count, and any of the others can be moved there.
So the order does not matter exactly if there is nothing to forget: if no
fragment gives the empty text, or none gives any source but the one that the
unit takes from its only nested module anyway (`Module.settled_perm_iff`).
-/

namespace StackGraph

open Std

/-- The fragment without what only orchestration files declare. -/
def Fragment.withoutDeclared (f : Fragment) : Fragment := { f with source := none, declared := [] }

namespace Module

variable {m n : Module} {f : Fragment} {fs gs : List Fragment} {s : String} {ss ts : List String}

/-! ## All but the declared -/

/-- The module without what only orchestration files declare: its source and its
declarations. -/
def withoutDeclared (m : Module) : Module := { m with source := "", declarations := [] }

theorem withoutDeclared_foldl_absorb :
    (fs.foldl absorb m).withoutDeclared
      = (fs.map Fragment.withoutDeclared).foldl absorb m.withoutDeclared := by
  induction fs generalizing m with
  | nil => rfl
  | cons f fs ih => exact ih

theorem withoutDeclared_settleSource : m.settleSource.withoutDeclared = m.withoutDeclared := by
  obtain ⟨source, h⟩ := m.exists_settleSource_eq
  rw [h]
  rfl

/-- **All else is the same in any order.** -/
theorem withoutDeclared_perm (h : fs.Perm gs) :
    (fs.foldl absorb m).withoutDeclared = (gs.foldl absorb m).withoutDeclared := by
  have hnone : (fs.map Fragment.withoutDeclared).filter Fragment.declares = [] := by
    rw [List.filter_map, List.map_eq_nil_iff]
    exact List.filter_eq_nil_iff.2 fun _ _ => Bool.false_ne_true
  rw [withoutDeclared_foldl_absorb, withoutDeclared_foldl_absorb,
    foldl_absorb_perm (h.map _) (by rw [hnone]; exact Nat.zero_le 1)]

theorem declarations_perm (h : fs.Perm gs) :
    (fs.foldl absorb m).declarations.Perm (gs.foldl absorb m).declarations := by
  rw [declarations_foldl_absorb, declarations_foldl_absorb]
  exact (h.flatMap_right _).append_left _

/-- Modules that agree on all else differ in their source and their declarations
alone. -/
theorem eq_of_withoutDeclared_eq (h : m.withoutDeclared = n.withoutDeclared) :
    m = { n with source := m.source, declarations := m.declarations } :=
  congrArg (fun k : Module => { k with source := m.source, declarations := m.declarations }) h

/-! ## The source -/

/-- **What is left of some sources**, one found after the other. -/
def mergeSources (s : String) (ss : List String) : String :=
  ss.foldl (fun s found => mergeSource s (some found)) s

theorem source_foldl_absorb :
    (fs.foldl absorb m).source = mergeSources m.source (fs.filterMap Fragment.source) := by
  induction fs generalizing m with
  | nil => rfl
  | cons f fs ih =>
    rw [List.foldl_cons, ih]
    show mergeSources (mergeSource m.source f.source) _ = _
    cases hf : f.source with
    | none =>
      rw [List.filterMap_cons_none hf]
      rfl
    | some found =>
      rw [List.filterMap_cons_some hf]
      rfl

theorem mergeSources_append :
    mergeSources s (ss ++ ts) = mergeSources (mergeSources s ss) ts := List.foldl_append

/-- The empty text replaces every source. -/
theorem mergeSource_empty : mergeSource s (some "") = "" := by
  by_cases hs : s = ""
  · exact if_pos (.inl hs)
  · refine if_pos (.inr ?_)
    rw [String.lt_iff_toList_lt]
    obtain ⟨c, rest, hs⟩ := List.exists_cons_of_ne_nil (mt String.toList_eq_nil_iff.1 hs)
    rw [hs]
    exact List.nil_lt_cons c rest

/-- **The least of some sources**, where the empty text is none. -/
def leastSource (ss : List String) : String := ((ss.filter (· ≠ "")).min?).getD ""

theorem leastSource_congr (h : ∀ s, s ∈ ss ↔ s ∈ ts) : leastSource ss = leastSource ts := by
  rw [leastSource, leastSource, min?_congr fun s => ?_]
  rw [List.mem_filter, List.mem_filter, h]

/-- The least of some sources stands for all of them. -/
theorem leastSource_cons_leastSource :
    leastSource (leastSource ss :: ts) = leastSource (ss ++ ts) := by
  have hleast : [leastSource ss].filter (· ≠ "") = (ss.filter (· ≠ "")).min?.toList := by
    unfold leastSource
    cases hmin : (ss.filter (· ≠ "")).min? with
    | none => rfl
    | some s =>
      have hs : s ≠ "" := by simpa using (List.mem_filter.1 (List.min?_mem hmin)).2
      simp [hs]
  rw [leastSource, ← List.singleton_append, List.filter_append, hleast, min?_toList_append,
    ← List.filter_append, leastSource]

/-- **Without the empty text** the least source of all is left. -/
theorem mergeSources_of_notMem (h : "" ∉ ss) : mergeSources s ss = leastSource (s :: ss) := by
  induction ss generalizing s with
  | nil =>
    by_cases hs : s = ""
    · simp [mergeSources, leastSource, hs]
    · simp [mergeSources, leastSource, hs]
  | cons t ss ih =>
    obtain ⟨ht, hss⟩ := not_or.1 (List.mem_cons.not.1 h)
    have hstep : mergeSource s (some t) = leastSource [s, t] := by
      by_cases hs : s = ""
      · simp [mergeSource, leastSource, hs, Ne.symm ht]
      · by_cases hlt : t < s
        · simp [mergeSource, leastSource, hs, Ne.symm ht, hlt, min_eq_right_of_lt hlt]
        · simp [mergeSource, leastSource, hs, Ne.symm ht, hlt, min_eq_left (le_of_not_gt hlt)]
    show mergeSources (mergeSource s (some t)) ss = _
    rw [ih hss, hstep, leastSource_cons_leastSource]
    rfl

/-- What is left is one of the sources. -/
theorem mergeSources_mem_cons : mergeSources s ss ∈ s :: ss := by
  induction ss generalizing s with
  | nil => exact List.mem_singleton_self s
  | cons t ss ih =>
    have hstep : mergeSource s (some t) = s ∨ mergeSource s (some t) = t := by
      show (if _ then t else s) = s ∨ (if _ then t else s) = t
      split
      · exact .inr rfl
      · exact .inl rfl
    rcases List.mem_cons.1 (@ih (mergeSource s (some t))) with h | h
    · rcases hstep with hs | ht
      · exact List.mem_cons.2 (.inl (h.trans hs))
      · exact List.mem_cons_of_mem _ (List.mem_cons.2 (.inl (h.trans ht)))
    · exact List.mem_cons_of_mem _ (List.mem_cons_of_mem _ h)

/-- **With the empty text** what the unit had before is forgotten, and one of the
sources that were found is left. -/
theorem mergeSources_mem (h : "" ∈ ss) : mergeSources s ss ∈ ss := by
  obtain ⟨front, back, rfl⟩ := List.append_of_mem h
  rw [mergeSources_append]
  show mergeSources (mergeSource _ (some "")) back ∈ _
  rw [mergeSource_empty]
  exact List.mem_append_right _ mergeSources_mem_cons

/-! ## The settled module -/

/-- **The source of the only nested module**; empty if there is none or if there
are several. -/
def onlySource (m : Module) : String :=
  match m.invocations.toList with
  | [(_, source)] => source
  | _ => ""

theorem source_settleSource :
    m.settleSource.source = if m.source = "" then m.onlySource else m.source := by
  unfold settleSource onlySource
  by_cases hs : m.source = ""
  · rw [if_pos hs, if_pos hs]
    rcases m.invocations.toList with _ | ⟨only, _ | ⟨second, rest⟩⟩
    · exact hs
    · rfl
    · exact hs
  · rw [if_neg hs, if_neg hs]

/-- **The module that absorbed some fragments** and settled its source. -/
def settled (m : Module) (fs : List Fragment) : Module := (fs.foldl absorb m).settleSource

theorem onlySource_perm (h : fs.Perm gs) :
    (fs.foldl absorb m).onlySource = (gs.foldl absorb m).onlySource := by
  show (fs.foldl absorb m).withoutDeclared.onlySource = _
  rw [withoutDeclared_perm h]
  rfl

/-- Every fragment can be absorbed last. -/
theorem exists_perm_concat (h : f ∈ fs) : ∃ rest, fs.Perm (rest ++ [f]) := by
  obtain ⟨front, back, rfl⟩ := List.append_of_mem h
  exact ⟨front ++ back, List.perm_middle.trans (List.perm_append_singleton ..).symm⟩

theorem source_settled_concat (hf : f.source = some s) :
    (m.settled (fs ++ [f])).source
      = if mergeSource (fs.foldl absorb m).source (some s) = ""
        then ((fs ++ [f]).foldl absorb m).onlySource
        else mergeSource (fs.foldl absorb m).source (some s) := by
  have hsource : ((fs ++ [f]).foldl absorb m).source
      = mergeSource (fs.foldl absorb m).source (some s) := by
    rw [List.foldl_append]
    show mergeSource _ f.source = _
    rw [hf]
  rw [settled, source_settleSource, hsource]

/-- **Order matters** if there is a source to forget: a fragment with the empty
text and one with another source than that of the only nested module. -/
theorem eq_onlySource_of_perm
    (h : ∀ gs, fs.Perm gs → (m.settled gs).source = (m.settled fs).source)
    (hempty : "" ∈ fs.filterMap Fragment.source) (hs : s ∈ fs.filterMap Fragment.source)
    (hne : s ≠ "") : s = (fs.foldl absorb m).onlySource := by
  obtain ⟨f, hf, hfsource⟩ := List.mem_filterMap.1 hempty
  obtain ⟨g, hg, hgsource⟩ := List.mem_filterMap.1 hs
  have hfg : g ≠ f := by
    rintro rfl
    exact hne (Option.some.inj (hgsource.symm.trans hfsource))
  obtain ⟨rest, hrest⟩ := exists_perm_concat hf
  obtain ⟨rest', hrest'⟩ : ∃ rest', rest.Perm (rest' ++ [g]) :=
    exists_perm_concat ((List.mem_append.1 (hrest.mem_iff.1 hg)).resolve_right
      fun hmem => hfg (List.mem_singleton.1 hmem))
  -- with the empty text last the source is forgotten, with the other one last it is kept
  have hlast : fs.Perm (rest' ++ [f] ++ [g]) :=
    hrest.trans ((hrest'.append_right [f]).trans (by
      rw [List.append_assoc, List.append_assoc]
      exact (List.Perm.swap f g []).append_left rest'))
  have hforgotten : (m.settled (rest ++ [f])).source = (fs.foldl absorb m).onlySource := by
    rw [source_settled_concat hfsource, mergeSource_empty, if_pos rfl, onlySource_perm hrest]
  have hkept : (m.settled (rest' ++ [f] ++ [g])).source = s := by
    have hbefore : ((rest' ++ [f]).foldl absorb m).source = "" := by
      rw [List.foldl_append]
      show mergeSource _ f.source = ""
      rw [hfsource, mergeSource_empty]
    have hmerge : mergeSource "" (some s) = s := by simp [mergeSource]
    rw [source_settled_concat hgsource, hbefore, hmerge, if_neg hne]
  rw [← hkept, h _ hlast, ← h _ hrest, hforgotten]

/-- **Order does not matter** where the empty text and the source of the only
nested module are all that is found: the unit takes that source either way. -/
theorem source_settled_of_mem (hempty : "" ∈ fs.filterMap Fragment.source)
    (h : ∀ s ∈ fs.filterMap Fragment.source, s = "" ∨ s = (fs.foldl absorb m).onlySource) :
    (m.settled fs).source = (fs.foldl absorb m).onlySource := by
  rw [settled, source_settleSource, source_foldl_absorb]
  split
  · rfl
  · rename_i hne
    exact (h _ (mergeSources_mem hempty)).resolve_left hne

/-- **In which orders fragments can be absorbed.** In any order a module ends
with the same contents, but for its source and the order of its declarations.
Its source is the same in every order exactly if no fragment gives the empty
text as its source, or none gives any other source than that of the only nested
module. -/
theorem settled_perm_iff (m : Module) (fs : List Fragment) :
    (∀ gs, fs.Perm gs →
      m.settled gs = { m.settled fs with
          source := (m.settled gs).source, declarations := (m.settled gs).declarations }
        ∧ (m.settled gs).declarations.Perm (m.settled fs).declarations)
      ∧ ((∀ gs, fs.Perm gs → (m.settled gs).source = (m.settled fs).source)
        ↔ "" ∉ fs.filterMap Fragment.source
          ∨ ∀ s ∈ fs.filterMap Fragment.source, s = "" ∨ s = (fs.foldl absorb m).onlySource) := by
  refine ⟨fun gs hperm => ⟨eq_of_withoutDeclared_eq ?_, ?_⟩, fun h => ?_, fun h gs hperm => ?_⟩
  · rw [settled, settled, withoutDeclared_settleSource, withoutDeclared_settleSource,
      withoutDeclared_perm hperm]
  · rw [settled, settled, declarations_settleSource, declarations_settleSource]
    exact declarations_perm hperm.symm
  · refine or_iff_not_imp_left.2 fun hempty s hs => or_iff_not_imp_left.2 fun hne => ?_
    exact eq_onlySource_of_perm h (not_not.1 hempty) hs hne
  · have hmem : ∀ s, s ∈ fs.filterMap Fragment.source ↔ s ∈ gs.filterMap Fragment.source :=
      fun s => (hperm.filterMap _).mem_iff
    by_cases hempty : "" ∈ fs.filterMap Fragment.source
    · have hall := h.resolve_left (not_not_intro hempty)
      rw [source_settled_of_mem hempty hall, onlySource_perm hperm]
      refine source_settled_of_mem ((hmem _).1 hempty) fun s hs => ?_
      rw [← onlySource_perm hperm]
      exact hall s ((hmem s).2 hs)
    · have hleast : (gs.foldl absorb m).source = (fs.foldl absorb m).source := by
        rw [source_foldl_absorb, source_foldl_absorb, mergeSources_of_notMem hempty,
          mergeSources_of_notMem (mt (hmem _).2 hempty)]
        exact leastSource_congr fun s => by rw [List.mem_cons, List.mem_cons, hmem]
      rw [settled, settled, source_settleSource, source_settleSource, hleast,
        onlySource_perm hperm]

/-- A fragment of an orchestration file with a source. -/
def sourceFragment (file source : String) : Fragment :=
  { Fragment.empty "app" file (some .orchestration) with source := some source }

/-- A source that comes before the empty text is forgotten, and one that comes
behind it is kept. -/
theorem source_settled_emptySource :
    [sourceFragment "app/a.hcl" "git::net", sourceFragment "app/b.hcl" ""].Perm
        [sourceFragment "app/b.hcl" "", sourceFragment "app/a.hcl" "git::net"]
      ∧ ((Module.new "app" ⟨"app"⟩).settled
        [sourceFragment "app/a.hcl" "git::net", sourceFragment "app/b.hcl" ""]).source = ""
      ∧ ((Module.new "app" ⟨"app"⟩).settled
        [sourceFragment "app/b.hcl" "", sourceFragment "app/a.hcl" "git::net"]).source
          = "git::net" := by
  refine ⟨List.Perm.swap .., ?_, ?_⟩
  · decide +kernel
  · decide +kernel

end Module

end StackGraph
