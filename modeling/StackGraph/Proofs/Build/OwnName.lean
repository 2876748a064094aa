import StackGraph.Proofs.Build.MissingBlock
/-!
# Nested modules that go by the name of their unit

A reference `module.name.output` may mean the module that the source of the
nested module leads to, or the one in a directory `name` beside the unit. Where
no other module competes one expects it to mean the former. But the lookup of
the sibling does not leave out the unit itself: a unit in a directory `vpc` is
the module in the directory `vpc` beside itself. So if it wraps a nested module
of this name, it is a second candidate for its own references, and they are
called ambiguous (`Graph.ambiguous_wrapping`).

`InvokesOnly` states the situation: the nested module has a local source that
leads to another module, and nothing else competes, except perhaps the unit.
Then the references mean what the source leads to exactly if the unit is not its
own sibling under this name, and otherwise they mean nothing and the ambiguity
between the two is reported (`Graph.referenceMeans_iff_sibling_ne`).
-/

namespace StackGraph

open Std

/-- **A unit invokes a module under a name, and nothing else goes by it**, except
perhaps the unit itself. -/
structure InvokesOnly (root : ScanRoot) (fragments : List Fragment) (m name t : String) : Prop where
  /-- The local source of the nested module leads to the module. -/
  invoked : ∃ source, Invokes fragments m name source ∧ isLocalSource source = true
    ∧ root.resolve m source = some t
  isScanned : IsScanned fragments t
  /-- It is not the unit that invokes it. -/
  ne : t ≠ m
  /-- No dependency of the unit has the name. -/
  undeclared : ∀ d ∈ declarationsOf fragments m, d.name ≠ some name
  /-- No third module has the directory of the name beside the unit. -/
  beside : ∀ u, ModuleId.sibling m name = some u → IsScanned fragments u → u = m ∨ u = t

variable {root : ScanRoot} {fragments : List Fragment} {m name source t u : String} {r : Reference}

/-- **A directory is its own sibling** under its own name. -/
theorem ModuleId.sibling_append {parent : String} (hslash : '/' ∉ name.toList)
    (hparent : parent ≠ rootId) :
    sibling (parent ++ "/" ++ name) name = some (parent ++ "/" ++ name) := by
  have htext := Text.toList_append_slash parent name
  have hroot : parent ++ "/" ++ name ≠ rootId := by
    intro h
    have hmem : '/' ∈ rootId.toList := h ▸ htext ▸ List.mem_append_right _ List.mem_cons_self
    exact absurd hmem (by decide)
  have hfront : (Text.splitOn (· == '/') (parent ++ "/" ++ name).toList).dropLast
      = Text.splitOn (· == '/') parent.toList := by
    rw [htext, Text.splitOn_append_cons, Text.splitOn_of_not_mem hslash, List.dropLast_concat]
  have hjoin : Text.intercalate ['/'] (Text.splitOn (· == '/') parent.toList) = parent.toList := by
    rw [Text.intercalate_eq, Text.splitOn_eq_splitOnP]
    exact List.intercalate_splitOn '/'
  have hup : parent? (parent ++ "/" ++ name) = some parent := by
    rw [parent?, if_neg hroot, hfront]
    split
    · rename_i hnil
      exact absurd hnil (Text.splitOn_ne_nil _ _)
    · rw [hjoin, String.ofList_toList]
  rw [sibling, hup]
  exact if_neg hparent

/-- The source of a nested module is determined. -/
theorem Invokes.unique {source' : String} (h : Invokes fragments m name source)
    (h' : Invokes fragments m name source') : source = source' := by
  obtain ⟨f, hf, hid, hsource⟩ := h.given
  obtain ⟨f', hf', hid', hsource'⟩ := h'.given
  exact String.le_antisymm (h.least f' hf' hid' _ hsource') (h'.least f hf hid _ hsource)

/-- A name that is not declared means nothing as a dependency. -/
theorem not_dependencyMeans (h : ∀ d ∈ declarationsOf fragments m, d.name ≠ some name) :
    ¬ DependencyMeans fragments m name t := by
  rintro ⟨d, hlast, -⟩
  obtain ⟨hd, hname⟩ := List.mem_filter.1 (List.mem_of_getLast? hlast)
  exact h d hd (of_decide_eq_true hname)

/-- A reference in a directory shows that it was scanned. -/
theorem Refers.isScanned (h : Refers fragments m r) : IsScanned fragments m := by
  obtain ⟨f, hf, hid, -⟩ := h
  exact ⟨f, hf, hid⟩

namespace InvokesOnly

/-- The source of the nested module is local. -/
theorem isLocalSource (h : InvokesOnly root fragments m name t)
    (hsource : Invokes fragments m name source) : isLocalSource source = true := by
  obtain ⟨_, hinvokes, hlocal, -⟩ := h.invoked
  rwa [hsource.unique hinvokes]

/-- **The candidates** are the invoked module and, if it is its own sibling, the
unit. -/
theorem candidate_iff (h : InvokesOnly root fragments m name t) (hm : IsScanned fragments m) :
    Candidate root fragments m name u ↔ u = t ∨ ModuleId.sibling m name = some m ∧ u = m := by
  obtain ⟨source, hinvokes, hlocal, htarget⟩ := h.invoked
  constructor
  · intro hu
    cases hu with
    | invoked hinvokes' _ htarget' _ =>
      rw [hinvokes'.unique hinvokes, htarget] at htarget'
      exact .inl (Option.some.inj htarget').symm
    | declared hmeans => exact absurd hmeans (not_dependencyMeans h.undeclared)
    | beside hsibling hscanned =>
      rcases h.beside u hsibling hscanned with rfl | hu
      · exact .inr ⟨hsibling, rfl⟩
      · exact .inl hu
  · rintro (rfl | ⟨hsibling, rfl⟩)
    · exact .invoked hinvokes hlocal htarget h.isScanned
    · exact .beside hsibling hm

/-- **A unit that is not its own sibling** refers to the module that it
invokes. -/
theorem referenceMeans (h : InvokesOnly root fragments m name t) (hr : Refers fragments m r)
    (hvia : r.via = .module) (hname : r.name = name) (hown : ModuleId.sibling m name ≠ some m) :
    ReferenceMeans root fragments m r t := by
  subst hname
  refine .module hvia (fun _ => h.isLocalSource) fun u => ?_
  rw [h.candidate_iff hr.isScanned, or_iff_left fun hu => hown hu.1]

/-- **A unit that is its own sibling** refers to nothing, since there are two
candidates. -/
theorem not_referenceMeans (h : InvokesOnly root fragments m name t) (hr : Refers fragments m r)
    (hvia : r.via = .module) (hname : r.name = name) (hown : ModuleId.sibling m name = some m) :
    ¬ ReferenceMeans root fragments m r u := by
  subst hname
  intro hmeans
  cases hmeans with
  | dependency hvia' _ => rw [hvia] at hvia'; cases hvia'
  | module _ _ honly =>
    have ht : t = u := (honly t).1 ((h.candidate_iff hr.isScanned).2 (.inl rfl))
    have hm : m = u := (honly m).1 ((h.candidate_iff hr.isScanned).2 (.inr ⟨hown, rfl⟩))
    exact h.ne (ht.trans hm.symm)

end InvokesOnly

/-! ## The ambiguity is reported -/

/-- A set of two names, in order. -/
theorem setToList_eq_pair {l : List String} (h : ∀ u, u ∈ l ↔ u = m ∨ u = t) (hne : t ≠ m) :
    (ExtTreeSet.ofList l compare).toList = [min m t, max m t] := by
  have hordered : (ExtTreeSet.ofList l compare).toList.Pairwise (· < ·) :=
    ExtTreeSet.ordered_toList.imp compareName_eq_lt.1
  have hpair : [min m t, max m t].Pairwise (· < ·) :=
    List.pairwise_pair.2 (min_lt_max.2 hne.symm)
  refine hordered.eq_of_mem_iff hpair fun u => ?_
  rw [ExtTreeSet.mem_toList, mem_setOfList, h, List.mem_pair]
  rcases le_total m t with hle | hle
  · rw [min_eq_left hle, max_eq_right hle]
  · rw [min_eq_right hle, max_eq_left hle, or_comm]

namespace Modules

/-- Several candidates leave the choice open. -/
theorem choose_of_two_le {candidates : List String} {inside : Bool}
    (h : 2 ≤ candidates.length) : choose candidates inside = .nothing (.ambiguous candidates) := by
  match candidates, h with
  | _ :: _ :: _, _ => rfl

/-- What a reference means depends on what it goes through, and on the name. -/
theorem resolveReference_congr {modules : Modules} {n : Module} {named : NameMap (Option String)}
    {r' : Reference} (hvia : r'.via = r.via) (hname : r'.name = r.name) :
    modules.resolveReference root n named r' = modules.resolveReference root n named r := by
  unfold resolveReference resolveDependency resolveNested
  rw [hvia, hname]

/-- **A reference of a unit that is its own sibling** is ambiguous between the
unit and the module that it invokes. -/
theorem resolveReference_eq_ambiguous (h : InvokesOnly root fragments m name t)
    (hr : Refers fragments m r) (hvia : r.via = .module) (hname : r.name = name)
    (hown : ModuleId.sibling m name = some m) :
    (ofFragments root fragments).resolveReference root (merged root fragments m)
        ((ofFragments root fragments).namedDependencies (merged root fragments m)) r
      = .nothing (.ambiguous [min m t, max m t]) := by
  subst hname
  have hnear : ((merged root fragments m).invocations[r.name]?).any
      (fun source => !isLocalSource source) = false := by
    rw [Option.any_eq_false]
    intro source hsource
    rw [h.isLocalSource (invocations_merged_eq_some_iff.1 hsource)]
    rfl
  rw [resolveReference, hvia]
  show resolveNested _ _ _ _ _ = _
  rw [resolveNested]
  split
  · rename_i hforeign
    rw [hnear] at hforeign
    cases hforeign
  · have hcandidates : ∀ u, Candidate root fragments m r.name u ↔ u = m ∨ u = t := by
      intro u
      rw [h.candidate_iff hr.isScanned, and_iff_right hown, or_comm]
    have hpair := setToList_eq_pair
      (fun u => (mem_candidates fun _ => h.isLocalSource).trans (hcandidates u)) h.ne
    exact (congrArg (choose · _) hpair).trans (choose_of_two_le le_rfl)

end Modules

namespace Graph

open Modules

/-- **A reference of a unit that is its own sibling is reported**, or another one
through the same name in its place. -/
theorem exists_ambiguous_mem_diagnostics (h : InvokesOnly root fragments m name t)
    (hr : Refers fragments m r) (hvia : r.via = .module) (hname : r.name = name)
    (hown : ModuleId.sibling m name = some m) :
    ∃ r', Refers fragments m r' ∧ r'.via = .module ∧ r'.name = name
      ∧ .resolution m ((ReferenceFailure.ambiguous [min m t, max m t]).message r')
        ∈ (build root fragments).diagnostics := by
  have hnothing := resolveReference_eq_ambiguous h hr hvia hname hown
  obtain ⟨r', failure, hmem, hvia', hname'⟩ :=
    exists_mem_unresolvedOf (mem_references_merged.2 hr) hnothing
  obtain ⟨hr', hnothing'⟩ := of_mem_unresolvedOf hmem
  -- the reference that is reported in its place is ambiguous for the same reason
  rw [resolveReference_congr hvia' hname', hnothing] at hnothing'
  cases hnothing'
  refine ⟨r', mem_references_merged.1 hr', hvia'.trans hvia, hname'.trans hname, ?_⟩
  refine mem_diagnostics_build.2 (.inr (.inl ⟨m, hr.isScanned, ?_⟩))
  refine List.mem_append_right _ (List.mem_map.2 ⟨_, hmem, ?_⟩)
  rw [id_merged]

/-- **References to an invoked module without a competitor** mean this module,
and give evidence for an edge, exactly if the unit is not its own sibling under
the name of the nested module. If it is, they mean nothing, and their ambiguity
between the unit and the module that it invokes is reported. -/
theorem referenceMeans_iff_sibling_ne (h : InvokesOnly root fragments m name t)
    (hr : Refers fragments m r) (hvia : r.via = .module) (hname : r.name = name) :
    (ReferenceMeans root fragments m r t ↔ ModuleId.sibling m name ≠ some m)
      ∧ (ModuleId.sibling m name ≠ some m →
        .inferred ∈ (build root fragments).graph.evidenceFor t m)
      ∧ (ModuleId.sibling m name = some m →
        (∀ u, ¬ ReferenceMeans root fragments m r u)
          ∧ ∃ r', Refers fragments m r' ∧ r'.via = .module ∧ r'.name = name
            ∧ .resolution m ((ReferenceFailure.ambiguous [min m t, max m t]).message r')
              ∈ (build root fragments).diagnostics) := by
  refine ⟨⟨fun hmeans hown => ?_, h.referenceMeans hr hvia hname⟩, fun hown => ?_, fun hown => ?_⟩
  · exact h.not_referenceMeans hr hvia hname hown hmeans
  · exact mem_evidenceFor_build.2 ⟨h.ne, r, hr, h.referenceMeans hr hvia hname hown⟩
  · exact ⟨fun u => h.not_referenceMeans hr hvia hname hown,
      exists_ambiguous_mem_diagnostics h hr hvia hname hown⟩

/-! ## A unit that wraps a module -/

/-- A unit that wraps the module `vpc` in another directory, and passes on an
output of it. -/
def wrapping (unit : String) : List Fragment :=
  [{ Fragment.empty unit (unit ++ "/main.tf") (some .moduleDefinition) with
      outputs := ExtTreeSet.ofList ["id"] compare
      references := [.ofModule "vpc" "id"]
      invocations := ExtTreeMap.ofList [("vpc", "../../modules/vpc")] compare },
    { Fragment.empty "modules/vpc" "modules/vpc/main.tf" (some .moduleDefinition) with
      outputs := ExtTreeSet.ofList ["id"] compare }]

/-- The root of the tree that the unit is scanned in. -/
def wrappingRoot : ScanRoot := ⟨⟨"/stack"⟩⟩

variable {unit : String}

theorem isScanned_wrapping : IsScanned (wrapping unit) u ↔ u = unit ∨ u = "modules/vpc" := by
  simp [IsScanned, wrapping, Fragment.empty, eq_comm]

theorem refers_wrapping_iff : Refers (wrapping unit) unit r ↔ r = .ofModule "vpc" "id" := by
  simp [Refers, wrapping, Fragment.empty]

/-- Nothing but the wrapped module goes by its name, except perhaps the unit. -/
theorem invokesOnly_wrapping
    (htarget : wrappingRoot.resolve unit "../../modules/vpc" = some "modules/vpc")
    (hne : "modules/vpc" ≠ unit) :
    InvokesOnly wrappingRoot (wrapping unit) unit "vpc" "modules/vpc" where
  invoked := by
    have hsource : (ExtTreeMap.ofList [("vpc", "../../modules/vpc")] compare :
        NameMap String)["vpc"]? = some "../../modules/vpc" := by decide
    refine ⟨_, ⟨⟨_, List.mem_cons_self, rfl, hsource⟩, ?_⟩, by decide, htarget⟩
    intro f hf hid other hother
    rcases List.mem_pair.1 hf with rfl | rfl
    · exact (Option.some.inj (hsource.symm.trans hother)).le
    · exact absurd hid hne
  isScanned := isScanned_wrapping.2 (.inr rfl)
  ne := hne
  undeclared d hd := by
    obtain ⟨f, hf, -, hdeclared⟩ := mem_declarationsOf.1 hd
    rcases List.mem_pair.1 hf with rfl | rfl <;> exact absurd hdeclared List.not_mem_nil
  beside _ _ hscanned := isScanned_wrapping.1 hscanned

/-- A unit in a directory of another name reads from the module that it wraps. -/
theorem evidence_wrapping_app :
    ModuleId.sibling "live/app" "vpc" ≠ some "live/app"
      ∧ .inferred ∈ (build wrappingRoot (wrapping "live/app")).graph.evidenceFor
        "modules/vpc" "live/app" := by
  have hown : ModuleId.sibling "live/app" "vpc" ≠ some "live/app" := by decide
  have honly : InvokesOnly wrappingRoot (wrapping "live/app") "live/app" "vpc" "modules/vpc" :=
    invokesOnly_wrapping (by decide) (by decide)
  exact ⟨hown,
    (referenceMeans_iff_sibling_ne honly (refers_wrapping_iff.2 rfl) rfl rfl).2.1 hown⟩

/-- **A unit in a directory `vpc` that wraps the module `vpc`** has no edge from
it: its reference is ambiguous between the unit itself and the module. -/
theorem ambiguous_wrapping :
    InvokesOnly wrappingRoot (wrapping "live/vpc") "live/vpc" "vpc" "modules/vpc"
      ∧ Refers (wrapping "live/vpc") "live/vpc" (.ofModule "vpc" "id")
      ∧ .inferred ∉ (build wrappingRoot (wrapping "live/vpc")).graph.evidenceFor
        "modules/vpc" "live/vpc"
      ∧ .resolution "live/vpc" "module.vpc.id is ambiguous between live/vpc, modules/vpc"
        ∈ (build wrappingRoot (wrapping "live/vpc")).diagnostics := by
  have hown : ModuleId.sibling "live/vpc" "vpc" = some "live/vpc" := by decide
  have honly : InvokesOnly wrappingRoot (wrapping "live/vpc") "live/vpc" "vpc" "modules/vpc" :=
    invokesOnly_wrapping (by decide) (by decide)
  have hrefers : Refers (wrapping "live/vpc") "live/vpc" (.ofModule "vpc" "id") :=
    refers_wrapping_iff.2 rfl
  refine ⟨honly, hrefers, ?_, ?_⟩
  · rw [mem_evidenceFor_build]
    rintro ⟨-, r, hr, hmeans⟩
    obtain rfl := refers_wrapping_iff.1 hr
    exact honly.not_referenceMeans hr rfl rfl hown hmeans
  · obtain ⟨r, hr, -, -, hmem⟩ := exists_ambiguous_mem_diagnostics honly hrefers rfl rfl hown
    obtain rfl := refers_wrapping_iff.1 hr
    have hmessage : (ReferenceFailure.ambiguous [min "live/vpc" "modules/vpc",
        max "live/vpc" "modules/vpc"]).message (.ofModule "vpc" "id")
        = "module.vpc.id is ambiguous between live/vpc, modules/vpc" := by decide
    rwa [hmessage] at hmem

end Graph

end StackGraph
