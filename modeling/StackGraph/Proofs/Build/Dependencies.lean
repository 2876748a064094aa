import Mathlib.Data.List.Sort
import StackGraph.Proofs.Build.Evidence
/-!
# Modules and edges say the same

What a module depends on is kept twice: in the module, as the set of what it
declares and the set of what it only refers to, and in the graph, as the edges
into the module with their evidence. The two are filled separately from the
list of links, the module by sorting out its own links, the graph by adding
all of them. `Module.Agrees` says that they are one relation in two forms, and
that the complexity of the module counts this relation; every module of a
built graph satisfies it (`Graph.agrees_build`).
-/

namespace StackGraph

open Std

/-! ## What a module is given -/

namespace Modules

variable {links : List Link} {m : Module} {id t : String} {kind : EdgeKind}

/-- The targets of the links of one kind from a module, itself apart. -/
theorem mem_targets :
    t ∈ (links.filter fun l => l.module == id && l.kind == kind && !l.isSelf).map Link.target
      ↔ t ≠ id ∧ ∃ l ∈ links, l.target = t ∧ l.module = id ∧ l.kind = kind := by
  simp only [List.mem_map, List.mem_filter, Bool.and_eq_true, beq_iff_eq, Link.isSelf,
    Bool.not_eq_true', beq_eq_false_iff_ne]
  constructor
  · rintro ⟨l, ⟨hl, ⟨hid, hkind⟩, hne⟩, rfl⟩
    exact ⟨fun h => hne (hid.trans h.symm), l, hl, rfl, hid, hkind⟩
  · rintro ⟨hne, l, hl, rfl, hid, hkind⟩
    exact ⟨l, ⟨hl, ⟨hid, hkind⟩, fun h => hne (h.symm.trans hid)⟩, rfl⟩

theorem mem_declaredDependencies_settle :
    t ∈ (settle links m).declaredDependencies
      ↔ t ≠ m.id ∧ ∃ l ∈ links, l.target = t ∧ l.module = m.id ∧ l.kind = .explicit := by
  unfold settle
  rw [mem_setOfList, mem_targets]

/-- A module that is declared is not counted as referred to. -/
theorem mem_inferredReferences_settle :
    t ∈ (settle links m).inferredReferences
      ↔ (t ≠ m.id ∧ ∃ l ∈ links, l.target = t ∧ l.module = m.id ∧ l.kind = .inferred)
        ∧ t ∉ (settle links m).declaredDependencies := by
  unfold settle
  rw [ExtTreeSet.mem_diff_iff, mem_setOfList, mem_targets]

/-- The complexity is that of the settled module. -/
theorem complexityScore_settle : (settle links m).complexityScore = (settle links m).complexity :=
  rfl

end Modules

/-! ## Agreement -/

/-- **A module agrees with a graph** if its dependencies and its complexity are
those that the edges into it give. -/
structure Module.Agrees (m : Module) (g : Graph) : Prop where
  /-- The modules with an edge into it are its dependencies, in the same
  order. -/
  upstream_eq : g.upstream m.id = m.dependencies.toList
  /-- Declared dependencies are those with declared evidence. -/
  declared_iff : ∀ t, t ∈ m.declaredDependencies ↔ .explicit ∈ g.evidenceFor t m.id
  /-- The others are those that are known from references alone. -/
  inferred_iff : ∀ t, t ∈ m.inferredReferences ↔ g.evidenceFor t m.id = {.inferred}
  /-- Nothing is both. -/
  disjoint : ∀ t ∈ m.declaredDependencies, t ∉ m.inferredReferences
  /-- The module does not depend on itself. -/
  irreflexive : m.id ∉ m.declaredDependencies ∧ m.id ∉ m.inferredReferences
  /-- Everything it depends on is a module of the graph. -/
  mem_modules : ∀ t, t ∈ m.declaredDependencies ∨ t ∈ m.inferredReferences → t ∈ g.modules
  /-- The complexity weighs the edges into the module and its parts. -/
  complexityScore_eq : m.complexityScore
    = 1 + 2 * (g.upstream m.id).length + m.inputs.size + m.outputs.size
      + 3 * m.dataSources.size + 2 * m.resources.size

namespace Graph

open Modules

variable {root : ScanRoot} {fragments : List Fragment} {g : Graph} {id t : String} {m : Module}

/-- Evidence is that of references alone if it holds such evidence and no
other. -/
theorem evidence_eq_inferred_iff {e : Evidence} :
    e = {.inferred} ↔ .inferred ∈ e ∧ .explicit ∉ e := by
  constructor
  · rintro rfl
    decide
  · rintro ⟨hinferred, hexplicit⟩
    refine ExtTreeSet.ext_mem fun kind => ?_
    cases kind with
    | explicit => exact iff_of_false hexplicit (by decide)
    | inferred => exact iff_of_true hinferred (by decide)

/-- **Two facts are enough for agreement.** If declared dependencies are those
with declared evidence and the others those with no other evidence than
inferred, the edges being evidenced, then the rest follows. -/
theorem agrees_of_evidence (hg : g.Evidenced)
    (hdeclared : ∀ t, t ∈ m.declaredDependencies ↔ .explicit ∈ g.evidenceFor t m.id)
    (hinferred : ∀ t, t ∈ m.inferredReferences ↔ g.evidenceFor t m.id = {.inferred})
    (hscore : m.complexityScore = m.complexity) : m.Agrees g := by
  -- an edge has evidence, and what is not declared evidence is inferred
  have hedge : ∀ t, t ∈ m.declaredDependencies ∨ t ∈ m.inferredReferences ↔ g.HasEdge t m.id := by
    intro t
    rw [hdeclared, hinferred, evidence_eq_inferred_iff, hg t m.id]
    constructor
    · rintro (h | ⟨h, -⟩)
      · exact ⟨_, h⟩
      · exact ⟨_, h⟩
    · rintro ⟨kind, h⟩
      by_cases hex : .explicit ∈ g.evidenceFor t m.id
      · exact .inl hex
      · cases kind with
        | explicit => exact .inl h
        | inferred => exact .inr ⟨h, hex⟩
  have hdisjoint : ∀ t ∈ m.declaredDependencies, t ∉ m.inferredReferences := by
    intro t ht hi
    exact (evidence_eq_inferred_iff.1 ((hinferred t).1 hi)).2 ((hdeclared t).1 ht)
  -- both lists are in strict order, so equal members are enough
  have hupstream : g.upstream m.id = m.dependencies.toList := by
    have hlt : ∀ {l : List String}, l.Pairwise (compare · · = .lt) → l.Pairwise (· < ·) :=
      fun h => h.imp compareName_eq_lt.1
    refine List.Pairwise.eq_of_mem_iff (hlt pairwise_upstream)
      (hlt ExtTreeSet.ordered_toList) fun t => ?_
    rw [mem_upstream, ← hedge, ExtTreeSet.mem_toList, Module.dependencies, ExtTreeSet.mem_union_iff]
  refine ⟨hupstream, hdeclared, hinferred, hdisjoint, ?_, ?_, ?_⟩
  · exact ⟨fun h => ((hedge _).1 (.inl h)).ne rfl, fun h => ((hedge _).1 (.inr h)).ne rfl⟩
  · exact fun t h => ((hedge t).1 h).source_mem
  · rw [hscore, Module.complexity, hupstream, ExtTreeSet.length_toList, Module.dependencies,
      ExtTreeSet.size_union_of_not_mem hdisjoint]

/-- A module of a built graph is a merged one with its dependencies. -/
theorem eq_settle_of_getElem?_build (h : (build root fragments).graph.modules[id]? = some m) :
    m = settle ((ofFragments root fragments).links root) (merged root fragments id) := by
  rw [modules_build, ExtTreeMap.getElem?_map, Option.map_eq_some_iff] at h
  obtain ⟨n, hn, rfl⟩ := h
  rw [eq_merged_of_getElem? hn]

theorem mem_declaredDependencies_build
    (h : (build root fragments).graph.modules[id]? = some m) :
    t ∈ m.declaredDependencies ↔ .explicit ∈ (build root fragments).graph.evidenceFor t id := by
  rw [eq_settle_of_getElem?_build h, mem_declaredDependencies_settle, exists_mem_links, id_merged,
    mem_evidenceFor_build]

theorem mem_inferredReferences_build
    (h : (build root fragments).graph.modules[id]? = some m) :
    t ∈ m.inferredReferences
      ↔ (build root fragments).graph.evidenceFor t id = {.inferred} := by
  rw [evidence_eq_inferred_iff, ← mem_declaredDependencies_build h, mem_evidenceFor_build,
    eq_settle_of_getElem?_build h, mem_inferredReferences_settle, exists_mem_links, id_merged]

/-- **Every module of a built graph agrees with it.** -/
theorem agrees_build (root : ScanRoot) (fragments : List Fragment) (id : String) (m : Module)
    (h : (build root fragments).graph.modules[id]? = some m) :
    m.id = id ∧ m.Agrees (build root fragments).graph := by
  have hid := (build root fragments).graph.id_eq id m h
  have hscore : m.complexityScore = m.complexity := by
    rw [eq_settle_of_getElem?_build h, complexityScore_settle]
  refine ⟨hid, agrees_of_evidence evidenced_build (fun t => ?_) (fun t => ?_) hscore⟩
  · rw [hid]
    exact mem_declaredDependencies_build h
  · rw [hid]
    exact mem_inferredReferences_build h

/-- A unit that declares one neighbour and refers to two, the declared one
among them. -/
def appOnNet : List Fragment :=
  [{ Fragment.empty "app" "app/main.tf" (some .moduleDefinition) with
      references := [.ofDependency "net" "id", .ofModule "log" "id"] },
    { Fragment.empty "app" "app/terragrunt.hcl" (some .orchestration) with
      declared := [⟨some "net", "../net", some "net"⟩] },
    Fragment.empty "log" "log/main.tf" (some .moduleDefinition),
    Fragment.empty "net" "net/main.tf" (some .moduleDefinition)]

/-- The unit once its links are known. -/
def app : Module :=
  settle ((ofFragments ⟨⟨"/stack"⟩⟩ appOnNet).links ⟨⟨"/stack"⟩⟩)
    (merged ⟨⟨"/stack"⟩⟩ appOnNet "app")

/-- In the example one dependency is declared and the other one inferred. -/
theorem agrees_build_appOnNet :
    (build ⟨⟨"/stack"⟩⟩ appOnNet).graph.modules["app"]? = some app
      ∧ (app.id = "app" ∧ app.Agrees (build ⟨⟨"/stack"⟩⟩ appOnNet).graph)
      ∧ app.declaredDependencies.toList = ["net"] ∧ app.inferredReferences.toList = ["log"] := by
  have hsort : sortBy (compareOn Fragment.file) appOnNet = appOnNet :=
    List.mergeSort_of_pairwise (by decide)
  have hscanned : fragmentsOf appOnNet "app" ≠ [] := by
    rw [ne_eq, fragmentsOf_eq_nil, not_not]
    exact ⟨_, List.mem_cons_self, rfl⟩
  have happ : (build ⟨⟨"/stack"⟩⟩ appOnNet).graph.modules["app"]? = some app := by
    rw [modules_build, ExtTreeMap.getElem?_map, getElem?_ofFragments, if_neg hscanned]
    rfl
  refine ⟨happ, agrees_build _ _ _ _ happ, ?_, ?_⟩
  · unfold app merged ofFragments fragmentsOf
    rw [hsort]
    decide
  · unfold app merged ofFragments fragmentsOf
    rw [hsort]
    decide

end Graph

end StackGraph
