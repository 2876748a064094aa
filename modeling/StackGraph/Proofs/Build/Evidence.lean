import StackGraph.Proofs.Build.Resolution
import StackGraph.Proofs.Graph.Edges
/-!
# The evidence for an edge

The builder turns every declaration and every reference that means a module
into a link, keeps the links in one list, and adds an edge for each. Here the
way is followed back: the links are the declarations and references of a module
that mean a module (`Modules.mem_links`), and so the built graph has evidence
of a kind for an edge exactly if something of that kind in its target means
its source, and the two differ (`Graph.mem_evidenceFor_build`).
-/

namespace StackGraph

open Std

variable {root : ScanRoot} {fragments : List Fragment} {id m t : String} {kind : EdgeKind}

/-- A reference in some file of a directory. -/
def Refers (fragments : List Fragment) (id : String) (r : Reference) : Prop :=
  ∃ f ∈ fragments, f.moduleId = id ∧ r ∈ f.references

@[simp] theorem mem_declarationsOf {d : Declaration} :
    d ∈ declarationsOf fragments id ↔ ∃ f ∈ fragments, f.moduleId = id ∧ d ∈ f.declared := by
  rw [declarationsOf, List.mem_flatMap]
  simp [and_assoc]

theorem isScanned_of_mem_declarationsOf {d : Declaration} (hd : d ∈ declarationsOf fragments id) :
    IsScanned fragments id := by
  obtain ⟨f, hf, hid, -⟩ := mem_declarationsOf.1 hd
  exact ⟨f, hf, hid⟩

/-- **What names a module** in a directory, for each kind of edge: a
declaration or a reference that means it. -/
def Names (root : ScanRoot) (fragments : List Fragment) (m t : String) : EdgeKind → Prop
  | .explicit => ∃ d ∈ declarationsOf fragments m, DeclarationMeans fragments d t
  | .inferred => ∃ r, Refers fragments m r ∧ ReferenceMeans root fragments m r t

/-- A module that names something has a file. -/
theorem Names.source_isScanned (h : Names root fragments m t kind) : IsScanned fragments m := by
  cases kind with
  | explicit =>
    obtain ⟨d, hd, -⟩ := h
    exact isScanned_of_mem_declarationsOf hd
  | inferred =>
    obtain ⟨r, ⟨f, hf, hid, -⟩, -⟩ := h
    exact ⟨f, hf, hid⟩

/-- Whatever is named was scanned. -/
theorem Names.target_isScanned (h : Names root fragments m t kind) : IsScanned fragments t := by
  cases kind with
  | explicit => obtain ⟨d, -, hd⟩ := h; exact hd.isScanned
  | inferred => obtain ⟨r, -, hr⟩ := h; exact hr.isScanned

/-! ## Links -/

namespace Modules

/-- The values of the map of modules. -/
theorem mem_values_ofFragments {n : Module} :
    n ∈ (ofFragments root fragments).values
      ↔ ∃ id, IsScanned fragments id ∧ n = merged root fragments id := by
  rw [mem_values]
  refine exists_congr fun id => ?_
  rw [getElem?_ofFragments, ← not_iff_comm.1 (@fragmentsOf_eq_nil fragments id).symm]
  split
  · rename_i hnil
    simp [hnil]
  · rename_i hne
    simp [hne, eq_comm]

variable {modules : Modules} {n : Module} {l : Link}

theorem declarationLink?_eq_some_iff {d : Declaration} :
    modules.declarationLink? n d = some l
      ↔ ∃ u, modules.resolveDeclaration d = .ok u ∧ l = ⟨n.id, u, .explicit, d.origin⟩ := by
  unfold declarationLink?
  split
  · rename_i herror
    simp [herror]
  · rename_i u hok
    simp [hok, eq_comm]

/-- The links of a module: first its declarations, then its references. -/
theorem mem_linksOf :
    l ∈ modules.linksOf root n
      ↔ (∃ d ∈ n.declarations, ∃ u, modules.resolveDeclaration d = .ok u
          ∧ l = ⟨n.id, u, .explicit, d.origin⟩)
        ∨ ∃ r ∈ n.references, ∃ u,
          modules.resolveReference root n (modules.namedDependencies n) r = .module u
            ∧ l = ⟨n.id, u, .inferred, "reference " ++ r.expression⟩ := by
  unfold linksOf
  rw [List.mem_append, List.mem_filterMap, List.mem_filterMap]
  refine or_congr ?_ (exists_congr fun r => ?_)
  · exact exists_congr fun d => and_congr_right fun _ => declarationLink?_eq_some_iff
  · rw [ExtTreeSet.mem_toList]
    refine and_congr_right fun _ => ?_
    split
    · rename_i u hmodule
      simp [hmodule, eq_comm]
    · rename_i hnot
      constructor
      · rintro ⟨⟩
      · rintro ⟨u, hu, -⟩
        exact absurd hu (hnot u)

/-- **The links** are the declarations and the references of a module that
mean a module. -/
theorem mem_links :
    l ∈ (ofFragments root fragments).links root
      ↔ (∃ d ∈ declarationsOf fragments l.module, DeclarationMeans fragments d l.target
          ∧ l.kind = .explicit ∧ l.origin = d.origin)
        ∨ ∃ r, Refers fragments l.module r ∧ ReferenceMeans root fragments l.module r l.target
          ∧ l.kind = .inferred ∧ l.origin = "reference " ++ r.expression := by
  unfold links
  rw [List.mem_flatMap]
  constructor
  · rintro ⟨n, hn, hl⟩
    obtain ⟨id, -, rfl⟩ := mem_values_ofFragments.1 hn
    rcases mem_linksOf.1 hl with ⟨d, hd, u, hok, rfl⟩ | ⟨r, hr, u, hmodule, rfl⟩
    · rw [declarations_merged] at hd
      rw [id_merged]
      exact .inl ⟨d, hd, resolveDeclaration_eq_ok_iff.1 hok, rfl, rfl⟩
    · rw [id_merged]
      exact .inr ⟨r, mem_references_merged.1 hr, resolveReference_eq_module_iff.1 hmodule, rfl, rfl⟩
  · obtain ⟨m, t, kind, origin⟩ := l
    rintro (⟨d, hd, hmeans, rfl, rfl⟩ | ⟨r, hr, hmeans, rfl, rfl⟩)
    · have hnames : Names root fragments m t .explicit := ⟨d, hd, hmeans⟩
      refine ⟨_, mem_values_ofFragments.2 ⟨m, hnames.source_isScanned, rfl⟩,
        mem_linksOf.2 (.inl ⟨d, ?_, t, resolveDeclaration_eq_ok_iff.2 hmeans, ?_⟩)⟩
      · rwa [declarations_merged]
      · rw [id_merged]
    · have hnames : Names root fragments m t .inferred := ⟨r, hr, hmeans⟩
      refine ⟨_, mem_values_ofFragments.2 ⟨m, hnames.source_isScanned, rfl⟩,
        mem_linksOf.2 (.inr ⟨r, mem_references_merged.2 hr, t,
          resolveReference_eq_module_iff.2 hmeans, ?_⟩)⟩
      rw [id_merged]

/-- There is a link of a kind from one module to another exactly if something
of this kind in the one names the other. -/
theorem exists_mem_links :
    (∃ l ∈ (ofFragments root fragments).links root, l.target = t ∧ l.module = m ∧ l.kind = kind)
      ↔ Names root fragments m t kind := by
  constructor
  · rintro ⟨l, hl, rfl, rfl, rfl⟩
    rcases mem_links.1 hl with ⟨d, hd, hmeans, hkind, -⟩ | ⟨r, hr, hmeans, hkind, -⟩
    · rw [hkind]
      exact ⟨d, hd, hmeans⟩
    · rw [hkind]
      exact ⟨r, hr, hmeans⟩
  · intro h
    cases kind with
    | explicit =>
      obtain ⟨d, hd, hmeans⟩ := h
      exact ⟨⟨m, t, .explicit, _⟩, mem_links.2 (.inl ⟨d, hd, hmeans, rfl, rfl⟩), rfl, rfl, rfl⟩
    | inferred =>
      obtain ⟨r, hr, hmeans⟩ := h
      exact ⟨⟨m, t, .inferred, _⟩, mem_links.2 (.inr ⟨r, hr, hmeans, rfl, rfl⟩), rfl, rfl, rfl⟩

end Modules

/-! ## The built graph -/

namespace Graph

open Modules

variable {modules : Modules} {links : List Link}

/-- Modules that are stored under their own ids are so in the graph too, each
with its dependencies. -/
theorem modules_foldl_settle
    (h : ∀ (id : String) (m : Module), modules[id]? = some m → m.id = id) :
    ((modules.values.map (settle links)).foldl addModule empty).modules
      = modules.map fun _ m => settle links m := by
  -- the entries that are added are those of the map, since settling keeps the id
  have hentries : (modules.values.map (settle links)).map (fun m => (m.id, m))
      = (modules.map fun _ m => settle links m).toList := by
    rw [values_eq_map_toList, List.map_map, List.map_map, ExtTreeMap.toList_map]
    refine List.map_congr_left fun p hp => ?_
    have hid := h p.1 p.2 (ExtTreeMap.mem_toList_iff_getElem?_eq_some.1 hp)
    show ((settle links p.2).id, settle links p.2) = (p.1, settle links p.2)
    rw [← hid]
    rfl
  rw [modules_foldl_addModule_empty, hentries, mapOfList_toList]

/-- **The modules of a graph of links** are those given, each with its
dependencies. -/
theorem modules_ofLinks (h : ∀ (id : String) (m : Module), modules[id]? = some m → m.id = id) :
    (ofLinks modules links).modules = modules.map fun _ m => settle links m := by
  rw [ofLinks, modules_foldl_addEdge, modules_foldl_settle h]

/-- **The evidence in a graph of links**: the kinds of the links between two
different modules. -/
theorem mem_evidenceFor_ofLinks
    (h : ∀ (id : String) (m : Module), modules[id]? = some m → m.id = id) :
    kind ∈ (ofLinks modules links).evidenceFor t m
      ↔ (t ∈ modules ∧ m ∈ modules ∧ t ≠ m)
        ∧ ∃ l ∈ links, l.target = t ∧ l.module = m ∧ l.kind = kind := by
  rw [ofLinks, mem_evidenceFor_foldl_addEdge, modules_foldl_settle h, ExtTreeMap.mem_map,
    ExtTreeMap.mem_map, evidenceFor_foldl_addModule_empty]
  exact or_iff_right ExtTreeSet.not_mem_empty

/-- A built graph has no edge without evidence. -/
theorem evidenced_build : (build root fragments).graph.Evidenced :=
  (evidenced_of_evidence_eq_empty evidence_foldl_addModule).foldl_addEdge

/-- **The modules of a built graph**, each with its dependencies. -/
theorem modules_build :
    (build root fragments).graph.modules
      = (ofFragments root fragments).map
          fun _ m => settle ((ofFragments root fragments).links root) m :=
  modules_ofLinks id_eq_ofFragments

/-- The modules of a built graph are the scanned ones. -/
@[simp] theorem mem_modules_build :
    id ∈ (build root fragments).graph.modules ↔ IsScanned fragments id := by
  rw [modules_build, ExtTreeMap.mem_map, mem_ofFragments]

/-- **The evidence for an edge of a built graph**: what names the one end in
the other, if the two differ. -/
theorem mem_evidenceFor_build :
    kind ∈ (build root fragments).graph.evidenceFor t m
      ↔ t ≠ m ∧ Names root fragments m t kind := by
  rw [build, mem_evidenceFor_ofLinks id_eq_ofFragments, exists_mem_links, mem_ofFragments,
    mem_ofFragments]
  constructor
  · rintro ⟨⟨-, -, hne⟩, hnames⟩
    exact ⟨hne, hnames⟩
  · rintro ⟨hne, hnames⟩
    exact ⟨⟨hnames.target_isScanned, hnames.source_isScanned, hne⟩, hnames⟩

/-- **The edges of a built graph are exactly those that the fragments give
evidence for.** An edge is declared if some declaration in its target means
its source, and inferred if some reference in its target does; in neither case
may the two be the same, and there is no other edge. -/
theorem edges_build_exactly (root : ScanRoot) (fragments : List Fragment) (t m : String) :
    let g := (build root fragments).graph
    (.explicit ∈ g.evidenceFor t m
        ↔ t ≠ m ∧ ∃ d ∈ declarationsOf fragments m, DeclarationMeans fragments d t)
      ∧ (.inferred ∈ g.evidenceFor t m
        ↔ t ≠ m ∧ ∃ r, Refers fragments m r ∧ ReferenceMeans root fragments m r t)
      ∧ (g.HasEdge t m ↔ .explicit ∈ g.evidenceFor t m ∨ .inferred ∈ g.evidenceFor t m) := by
  refine ⟨mem_evidenceFor_build, mem_evidenceFor_build, ?_⟩
  rw [evidenced_build t m]
  constructor
  · rintro ⟨kind, h⟩
    cases kind with
    | explicit => exact .inl h
    | inferred => exact .inr h
  · exact fun h => h.elim (fun h => ⟨_, h⟩) fun h => ⟨_, h⟩

end Graph

end StackGraph
