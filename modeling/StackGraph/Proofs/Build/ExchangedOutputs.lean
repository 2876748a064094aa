import StackGraph.Graph.Suggestion
import StackGraph.Proofs.Build.Dependencies
import StackGraph.Proofs.Directory
import StackGraph.Proofs.Graph.CycleEdges
/-!
# The outputs that a cycle exchanges

The suggestions for a cycle list the outputs that are read along its edges.
They do not ask the builder which references an edge comes from: they take a
reference of the target of an edge for one to its source if it goes by a name
of the source, which is the name of its directory or that of a declaration
whose path leads there (`KnownAs`).

The builder resolves names in more ways than these two, and in each of the
others a reference is overlooked (`Overlooked`): a declaration whose path leads
nowhere may still mean the only module of its basename, and a nested module
with a local source may have any name. Conversely a name of the source may mean
another module in the target, or nothing, and then its outputs are listed
although nobody reads them. What is listed is thus what is read along the edges
but for these two differences (`Graph.mem_exchangedOutputs_iff`), and each of
them occurs (`Graph.exchangedOutputs_movedVpc`).
-/

namespace StackGraph

open Std

variable {root : ScanRoot} {fragments : List Fragment} {id m t name : String} {r : Reference}

/-! ## Names of a module -/

/-- **A name by which a module knows another one**: that of its directory, or
that of a declaration whose path leads to it. -/
def KnownAs (fragments : List Fragment) (m t name : String) : Prop :=
  name = ModuleId.basename t
    ∨ ∃ d ∈ declarationsOf fragments m, d.name = some name ∧ d.target = some t

/-- **How a reference is overlooked**: it means a module by a name by which the
module it stands in does not know the other. -/
inductive Overlooked (root : ScanRoot) (fragments : List Fragment) (m t : String)
    (r : Reference) : Prop
  /-- Its dependency has a path that leads to no module, but a basename that
  only this one has. -/
  | basename {d : Declaration} {u : String} (hunknown : ¬ KnownAs fragments m t r.name)
      (hlast : lastNamed? fragments m r.name = some d) (htarget : d.target = some u)
      (hnowhere : ¬ IsScanned fragments u) (hbasename : ModuleId.basename t = ModuleId.basename u)
  /-- Its nested module has a local source that leads to this one. -/
  | invoked {source : String} (hunknown : ¬ KnownAs fragments m t r.name)
      (hinvokes : Invokes fragments m r.name source) (hlocal : isLocalSource source = true)
      (htarget : root.resolve m source = some t)
  /-- Its name leads from the directory beside the module further down. -/
  | below (hunknown : ¬ KnownAs fragments m t r.name)
      (hsibling : ModuleId.sibling m r.name = some t) (hslash : '/' ∈ r.name.toList)

theorem Overlooked.not_knownAs (h : Overlooked root fragments m t r) :
    ¬ KnownAs fragments m t r.name := by
  cases h <;> assumption

theorem ModuleId.basename_of_not_mem (h : '/' ∉ name.toList) : basename name = name := by
  rw [basename, Text.splitOn_of_not_mem h, List.getLast?_singleton, Option.getD_some,
    String.ofList_toList]

/-- Nothing before the last slash counts. -/
theorem ModuleId.basename_append {parent : String} (h : '/' ∉ name.toList) :
    basename (parent ++ "/" ++ name) = name := by
  have htext := Text.toList_append_slash parent name
  rw [basename, htext, Text.splitOn_append_cons, Text.splitOn_of_not_mem h, List.getLast?_concat,
    Option.getD_some, String.ofList_toList]

/-- A module in a directory beside another one has the name of this directory. -/
theorem ModuleId.basename_sibling (hslash : '/' ∉ name.toList) (h : sibling m name = some t) :
    basename t = name := by
  unfold sibling at h
  split at h
  · cases h
  · split at h
    · obtain rfl := Option.some.inj h
      exact basename_of_not_mem hslash
    · obtain rfl := Option.some.inj h
      exact basename_append hslash

/-- What a declaration means is known by its name, or its path leads nowhere. -/
theorem DependencyMeans.knownAs_or_overlooked (h : DependencyMeans fragments m r.name t) :
    KnownAs fragments m t r.name ∨ Overlooked root fragments m t r := by
  obtain ⟨d, hlast, hmeans⟩ := h
  refine or_iff_not_imp_left.2 fun hunknown => ?_
  cases hmeans with
  | scanned htarget _ =>
    obtain ⟨hd, hname⟩ := List.mem_filter.1 (List.mem_of_getLast? hlast)
    exact absurd (.inr ⟨d, hd, of_decide_eq_true hname, htarget⟩) hunknown
  | basename htarget hnowhere honly =>
    exact .basename hunknown hlast htarget hnowhere ((honly t).2 rfl).2

/-- **A reference means a module by a name of it**, or it is overlooked. -/
theorem ReferenceMeans.knownAs_or_overlooked (h : ReferenceMeans root fragments m r t) :
    KnownAs fragments m t r.name ∨ Overlooked root fragments m t r := by
  cases h with
  | dependency _ hmeans => exact hmeans.knownAs_or_overlooked
  | module _ _ honly =>
    cases (honly t).2 rfl with
    | declared hmeans => exact hmeans.knownAs_or_overlooked
    | invoked hinvokes hlocal htarget _ =>
      exact or_iff_not_imp_left.2 fun hunknown => .invoked hunknown hinvokes hlocal htarget
    | beside hsibling _ =>
      refine or_iff_not_imp_left.2 fun hunknown => .below hunknown hsibling ?_
      by_contra hslash
      exact hunknown (.inl (ModuleId.basename_sibling hslash hsibling).symm)

/-! ## The listed outputs -/

namespace Graph

open Modules

variable {text : String} {c : Cycle}

/-- What a module of a built graph knows by a name. -/
theorem mem_knownNames_settle {links : List Link} :
    name ∈ knownNames (settle links (merged root fragments m)) t ↔ KnownAs fragments m t name := by
  show name ∈ _ :: ((merged root fragments m).declarations.filter _).filterMap _ ↔ _
  rw [declarations_merged, List.mem_cons, List.mem_filterMap, KnownAs]
  refine or_congr_right (exists_congr fun d => ?_)
  rw [List.mem_filter, decide_eq_true_eq, and_assoc, and_comm (a := d.target = some t)]
  rfl

/-- **The outputs that are listed for an edge** are those of the references by
a name of its source. -/
theorem mem_outputsRead_build :
    text ∈ (build root fragments).graph.outputsRead t m
      ↔ ∃ r, Refers fragments m r ∧ KnownAs fragments m t r.name
        ∧ text = t ++ "." ++ r.output := by
  unfold outputsRead
  split
  · rename_i hnone
    refine iff_of_false List.not_mem_nil ?_
    rintro ⟨r, ⟨f, hf, hid, -⟩, -⟩
    have hmem : m ∈ (build root fragments).graph.modules := mem_modules_build.2 ⟨f, hf, hid⟩
    rw [ExtTreeMap.mem_iff_isSome_getElem?, hnone] at hmem
    cases hmem
  · rename_i consumer hconsumer
    obtain rfl := eq_settle_of_getElem?_build hconsumer
    rw [List.mem_map]
    refine exists_congr fun r => ?_
    rw [List.mem_filter, ExtTreeSet.mem_toList, List.contains_iff_mem, mem_knownNames_settle,
      and_assoc, eq_comm (b := text)]
    exact and_congr_left fun _ => mem_references_merged

/-- The outputs that are listed for a cycle. -/
theorem mem_exchangedOutputs_build :
    text ∈ (build root fragments).graph.exchangedOutputs c
      ↔ ∃ t m r, (t, m) ∈ c.edges ∧ Refers fragments m r ∧ KnownAs fragments m t r.name
        ∧ text = t ++ "." ++ r.output := by
  rw [exchangedOutputs, ExtTreeSet.mem_toList, mem_setOfList, List.mem_flatMap, Prod.exists]
  refine exists_congr fun t => exists_congr fun m => ?_
  rw [mem_outputsRead_build, exists_and_left]

/-- **The outputs that are listed for a cycle** are those that are read along
its edges, and by no overlooked reference, together with those that seem to be
read because a reference that means something else, or nothing, goes by a name
of the source. -/
theorem mem_exchangedOutputs_iff (root : ScanRoot) (fragments : List Fragment) (c : Cycle)
    (text : String) :
    text ∈ (build root fragments).graph.exchangedOutputs c
      ↔ ∃ t m r, (t, m) ∈ c.edges ∧ Refers fragments m r ∧ text = t ++ "." ++ r.output
        ∧ (ReferenceMeans root fragments m r t ∧ ¬ Overlooked root fragments m t r
          ∨ KnownAs fragments m t r.name ∧ ¬ ReferenceMeans root fragments m r t) := by
  rw [mem_exchangedOutputs_build]
  refine exists_congr fun t => exists_congr fun m => exists_congr fun r =>
    and_congr_right fun _ => and_congr_right fun _ => ?_
  rw [and_comm]
  refine and_congr_right fun _ => ?_
  constructor
  · intro hknown
    by_cases hmeans : ReferenceMeans root fragments m r t
    · exact .inl ⟨hmeans, fun hover => hover.not_knownAs hknown⟩
    · exact .inr ⟨hknown, hmeans⟩
  · rintro (⟨hmeans, hover⟩ | ⟨hknown, -⟩)
    · exact hmeans.knownAs_or_overlooked.resolve_right hover
    · exact hknown

/-- Two units that need each other. The first one declares the second under the
name `network` and by a path that has moved, and has a nested module `vpc` from
elsewhere. -/
def movedVpc : List Fragment :=
  [{ Fragment.empty "app" "app/main.tf" (some .moduleDefinition) with
      references := [.ofModule "vpc" "id"]
      invocations := ExtTreeMap.ofList [("vpc", "terraform-aws-modules/vpc/aws")] compare },
    { Fragment.empty "app" "app/terragrunt.hcl" (some .orchestration) with
      declared := [⟨some "network", "../moved/vpc", some "moved/vpc"⟩]
      references := [.ofDependency "network" "vpc_id"] },
    { Fragment.empty "vpc" "vpc/terragrunt.hcl" (some .orchestration) with
      declared := [⟨some "app", "../app", some "app"⟩]
      references := [.ofDependency "app" "app_id"] }]

theorem sortBy_movedVpc : sortBy (compareOn Fragment.file) movedVpc = movedVpc :=
  List.mergeSort_of_pairwise (by decide)

/-- In the example the output that is read goes unlisted, and the one that is
listed for the same edge is read by nobody. -/
theorem exchangedOutputs_movedVpc :
    (build ⟨⟨"/stack"⟩⟩ movedVpc).graph.cycles = [⟨["app", "vpc", "app"]⟩]
      ∧ (build ⟨⟨"/stack"⟩⟩ movedVpc).graph.exchangedOutputs ⟨["app", "vpc", "app"]⟩
        = ["app.app_id", "vpc.id"]
      ∧ (Refers movedVpc "app" (.ofDependency "network" "vpc_id")
        ∧ ReferenceMeans ⟨⟨"/stack"⟩⟩ movedVpc "app" (.ofDependency "network" "vpc_id") "vpc")
      ∧ ∀ r, Refers movedVpc "app" r → r.output = "id" →
        ¬ ReferenceMeans ⟨⟨"/stack"⟩⟩ movedVpc "app" r "vpc" := by
  refine ⟨?_, ?_, ⟨⟨_, List.mem_cons_of_mem _ List.mem_cons_self, rfl, List.mem_cons_self⟩, ?_⟩, ?_⟩
  · unfold build ofFragments
    rw [sortBy_movedVpc]
    decide +kernel
  · unfold build ofFragments
    rw [sortBy_movedVpc]
    decide +kernel
  · rw [← resolveReference_eq_module_iff]
    unfold merged ofFragments fragmentsOf
    rw [sortBy_movedVpc]
    decide +kernel
  · rintro r ⟨f, hf, hid, hr⟩ houtput
    have heq : r = .ofModule "vpc" "id" := by
      simp only [movedVpc, List.mem_cons, List.not_mem_nil, or_false] at hf
      rcases hf with rfl | rfl | rfl
      · exact List.mem_singleton.1 hr
      · rw [List.mem_singleton.1 hr] at houtput
        exact absurd houtput (by decide)
      · exact absurd hid (by decide)
    rw [heq, ← resolveReference_eq_module_iff]
    unfold merged ofFragments fragmentsOf
    rw [sortBy_movedVpc]
    decide +kernel

end Graph

end StackGraph
