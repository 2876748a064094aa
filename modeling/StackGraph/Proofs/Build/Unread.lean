import StackGraph.Proofs.Build.Diagnostics
/-!
# What the builder does not read

A module records which files it comes from and whether all of them failed, and
nothing that the builder decides depends on either: declarations and
references are resolved by the ids of the modules and by what these declare,
refer to and invoke. An `Unread` names such a part of a module by the function
that clears it, together with the function that clears its origin in a
fragment. Clearing commutes with every step of a build, and so two builds from
fragments that are equal once cleared have the same links, the same edges with
the same evidence, and the same modules once cleared. Their diagnostics can
differ only in those that the fragments bring along
(`Graph.diagnostics_build`).
-/

namespace StackGraph

open Std

/-- **A part of modules that is kept but not read**, given by what clears it. -/
structure Unread where
  /-- The module without that part. -/
  clear : Module → Module
  /-- The fragment without what goes into that part. -/
  clearIn : Fragment → Fragment
  /-- Absorbing brings nothing else into the cleared module than the cleared
  fragment does. -/
  clear_absorb : ∀ m f, clear (m.absorb f) = clear ((clear m).absorb (clearIn f))
  /-- The source is settled without it. -/
  clear_settleSource : ∀ m, clear m.settleSource = (clear m).settleSource
  /-- The dependencies are settled without it. -/
  clear_settle : ∀ links m, clear (Modules.settle links m) = Modules.settle links (clear m)
  /-- A fragment stays in its directory. -/
  moduleId_clearIn : ∀ f, (clearIn f).moduleId = f.moduleId
  id_clear : ∀ m, (clear m).id = m.id
  declarations_clear : ∀ m, (clear m).declarations = m.declarations
  references_clear : ∀ m, (clear m).references = m.references
  invocations_clear : ∀ m, (clear m).invocations = m.invocations

variable {root : ScanRoot} {fragments fragments' : List Fragment} {id : String} (u : Unread)

namespace Unread

/-! ## Merging -/

/-- **Two folds over fragments that are equal once cleared** end in modules
that are equal once cleared. -/
theorem clear_foldl_absorb {fs fs' : List Fragment} {m m' : Module} (hm : u.clear m = u.clear m')
    (hfs : fs.map u.clearIn = fs'.map u.clearIn) :
    u.clear (fs.foldl Module.absorb m) = u.clear (fs'.foldl Module.absorb m') := by
  induction fs generalizing fs' m m' with
  | nil =>
    rw [List.map_eq_nil_iff.1 hfs.symm]
    exact hm
  | cons f fs ih =>
    obtain ⟨f', fs', rfl, hf, hrest⟩ := List.map_eq_cons_iff.1 hfs.symm
    rw [List.foldl_cons, List.foldl_cons]
    refine ih ?_ hrest.symm
    rw [u.clear_absorb, u.clear_absorb m', hm, hf]

/-- The cleared module of a directory, from its cleared fragments. -/
theorem clear_merged
    (h : (fragmentsOf fragments id).map u.clearIn = (fragmentsOf fragments' id).map u.clearIn) :
    u.clear (Modules.merged root fragments id) = u.clear (Modules.merged root fragments' id) := by
  rw [Modules.merged, Modules.merged, u.clear_settleSource, u.clear_settleSource,
    u.clear_foldl_absorb rfl h]

end Unread

/-! ## Resolution -/

namespace Modules

variable {modules : Modules} {m : Module} {d : Declaration} {r : Reference}

/-- The modules without the unread part. -/
def cleared (u : Unread) (modules : Modules) : Modules := modules.map fun _ => u.clear

theorem getElem?_cleared : (modules.cleared u)[id]? = (modules[id]?).map u.clear :=
  ExtTreeMap.getElem?_map

theorem getElem?_map_clear {modules' : Modules} (h : modules.cleared u = modules'.cleared u) :
    (modules[id]?).map u.clear = (modules'[id]?).map u.clear := by
  rw [← getElem?_cleared, h, getElem?_cleared]

theorem keys_cleared : (modules.cleared u).keys = modules.keys := ExtTreeMap.keys_map

@[simp] theorem mem_cleared : id ∈ modules.cleared u ↔ id ∈ modules := ExtTreeMap.mem_map

@[simp] theorem resolveDeclaration_cleared :
    (modules.cleared u).resolveDeclaration d = modules.resolveDeclaration d := by
  have hnamed : ∀ name, (modules.cleared u).named name = modules.named name := by
    intro name
    rw [named, keys_cleared, named]
  unfold resolveDeclaration
  simp only [mem_cleared, hnamed]

@[simp] theorem namedDependencies_cleared :
    (modules.cleared u).namedDependencies (u.clear m) = modules.namedDependencies m := by
  unfold namedDependencies
  simp only [u.declarations_clear, resolveDeclaration_cleared]

@[simp] theorem resolveReference_cleared {named : NameMap (Option String)} :
    (modules.cleared u).resolveReference root (u.clear m) named r
      = modules.resolveReference root m named r := by
  have hinvoked : (modules.cleared u).invocationTarget? root (u.clear m)
      = modules.invocationTarget? root m := by
    funext source
    simp only [invocationTarget?, u.id_clear, mem_cleared]
  have hsibling : (modules.cleared u).siblingModule? (u.clear m) r.name
      = modules.siblingModule? m r.name := by
    simp only [siblingModule?, u.id_clear, mem_cleared]
  unfold resolveReference resolveNested
  rw [hinvoked, hsibling, u.invocations_clear]

/-- **The links of a module** are those of the cleared one. -/
theorem linksOf_cleared :
    (modules.cleared u).linksOf root (u.clear m) = modules.linksOf root m := by
  have hdeclared : (modules.cleared u).declarationLink? (u.clear m)
      = modules.declarationLink? m := by
    funext d
    simp only [declarationLink?, resolveDeclaration_cleared, u.id_clear]
  unfold linksOf
  simp only [hdeclared, namedDependencies_cleared, resolveReference_cleared, u.declarations_clear,
    u.references_clear, u.id_clear]

/-- **What a module names in vain** is what the cleared one does. -/
theorem diagnosticsOf_cleared :
    (modules.cleared u).diagnosticsOf root (u.clear m) = modules.diagnosticsOf root m := by
  have hdeclared : (modules.cleared u).declarationDiagnostic? (u.clear m)
      = modules.declarationDiagnostic? m := by
    funext d
    simp only [declarationDiagnostic?, resolveDeclaration_cleared, u.id_clear]
  unfold diagnosticsOf unresolvedOf
  simp only [hdeclared, namedDependencies_cleared, resolveReference_cleared, u.declarations_clear,
    u.references_clear, u.id_clear]

theorem values_cleared : (modules.cleared u).values = modules.values.map u.clear := by
  rw [values_eq_map_toList, values_eq_map_toList, cleared, ExtTreeMap.toList_map, List.map_map,
    List.map_map]
  rfl

/-- All links are those of the cleared modules. -/
theorem links_cleared : (modules.cleared u).links root = modules.links root := by
  rw [links, links, values_cleared, List.flatMap_map]
  exact List.flatMap_congr fun m _ => linksOf_cleared u

/-- **What the builder reports** on some modules: what they name in vain, and
the first links of each to itself. -/
def reports (root : ScanRoot) (modules : Modules) : List Diagnostic :=
  modules.values.flatMap (modules.diagnosticsOf root)
    ++ (firstOfEach (fun l : Link => (l.module, l.kind)) []
      ((modules.links root).filter Link.isSelf)).map Link.selfDiagnostic

theorem reports_cleared : (modules.cleared u).reports root = modules.reports root := by
  rw [reports, reports, links_cleared, values_cleared, List.flatMap_map]
  refine congrArg (· ++ _) (List.flatMap_congr fun m _ => ?_)
  exact diagnosticsOf_cleared u

/-- The cleared modules of two lists of fragments are the same if those of
every directory are. -/
theorem cleared_ofFragments (hscanned : ∀ id, IsScanned fragments id ↔ IsScanned fragments' id)
    (h : ∀ id, u.clear (merged root fragments id) = u.clear (merged root fragments' id)) :
    (ofFragments root fragments).cleared u = (ofFragments root fragments').cleared u := by
  refine ExtTreeMap.ext_getElem? fun id => ?_
  have hnil : fragmentsOf fragments id = [] ↔ fragmentsOf fragments' id = [] := by
    rw [fragmentsOf_eq_nil, fragmentsOf_eq_nil, hscanned]
  rw [getElem?_cleared, getElem?_cleared, getElem?_ofFragments, getElem?_ofFragments]
  simp only [hnil]
  split
  · rfl
  · rw [Option.map_some, Option.map_some, h]

end Modules

/-! ## The built graph -/

namespace Graph

open Modules

/-- **The diagnostics of a build** are those of the fragments and what the
builder reports on the modules. -/
theorem diagnostics_build :
    (build root fragments).diagnostics
      = Diagnostic.arrange (fragments.flatMap Fragment.diagnostics
        ++ (ofFragments root fragments).reports root) := by
  rw [build, reports, ← List.append_assoc]
  refine Diagnostic.arrange_congr fun d => ?_
  simp only [List.mem_append, List.mem_flatMap, mem_sortBy]

/-- **Builds from the same cleared modules** have the same edges with the same
evidence, and the same modules once cleared. -/
theorem build_congr
    (h : (ofFragments root fragments).cleared u = (ofFragments root fragments').cleared u) :
    cleared u (build root fragments).graph.modules
        = cleared u (build root fragments').graph.modules
      ∧ (build root fragments).graph.evidence = (build root fragments').graph.evidence
      ∧ (ofFragments root fragments).links root = (ofFragments root fragments').links root
      ∧ (ofFragments root fragments).reports root = (ofFragments root fragments').reports root := by
  have hlinks : (ofFragments root fragments).links root
      = (ofFragments root fragments').links root := by
    rw [← links_cleared u, h, links_cleared u]
  have hreports : (ofFragments root fragments).reports root
      = (ofFragments root fragments').reports root := by
    rw [← reports_cleared u, h, reports_cleared u]
  have hmem : ∀ id, id ∈ ofFragments root fragments ↔ id ∈ ofFragments root fragments' := by
    intro id
    rw [← mem_cleared u, h, mem_cleared u]
  have hsettle : ∀ {links : List Link} {modules : Modules},
      cleared u (modules.map fun _ m => settle links m)
        = (modules.cleared u).map fun _ m => settle links m := by
    intro links modules
    rw [cleared, cleared, ExtTreeMap.map_map, ExtTreeMap.map_map]
    simp only [u.clear_settle]
  refine ⟨?_, ?_, hlinks, hreports⟩
  · rw [modules_build, modules_build, hsettle, hsettle, h, hlinks]
  · refine evidenced_build.evidence_eq evidenced_build fun a b kind => ?_
    rw [build, build, mem_evidenceFor_ofLinks id_eq_ofFragments,
      mem_evidenceFor_ofLinks id_eq_ofFragments, hlinks, hmem, hmem]

end Graph

end StackGraph
