import StackGraph.Proofs.Build.Rearrangement
import StackGraph.Proofs.Lowering
/-!
# One file or two

The code of a unit can stand in one file or be spread over several. What a file
contributes is collected in two ways: from the blocks at its top, and from every
text in it. Both only gather, so a document that is made of two contributes what
the two contribute together (`Fragment.Joins`), with two exceptions. Of several
nested modules of one name the last counts within a file, but the least source
counts across files; and a document has one attribute of a name, so of two
attributes one is lost with all its references. Where the two documents share
neither a nested module nor an attribute, a module absorbs the one file as it
absorbs the two (`Module.absorb_joined`).
-/

namespace StackGraph

open Std

/-! ## Fragments that make up another one -/

/-- **A fragment is made of two others**: it contributes what the two contribute
together. -/
structure Fragment.Joins (f f₁ f₂ : Fragment) : Prop where
  kind : f₁.kind = f.kind ∧ f₂.kind = f.kind
  /-- There is no source of the unit, of which only one could be kept. -/
  source : f.source = none ∧ f₁.source = none ∧ f₂.source = none
  declared : f.declared = f₁.declared ++ f₂.declared
  references : ∀ r, r ∈ f.references ↔ r ∈ f₁.references ∨ r ∈ f₂.references
  outputs : ∀ name, name ∈ f.outputs ↔ name ∈ f₁.outputs ∨ name ∈ f₂.outputs
  inputs : ∀ name, name ∈ f.inputs ↔ name ∈ f₁.inputs ∨ name ∈ f₂.inputs
  dataSources : ∀ name, name ∈ f.dataSources ↔ name ∈ f₁.dataSources ∨ name ∈ f₂.dataSources
  remoteStates : ∀ name, name ∈ f.remoteStates ↔ name ∈ f₁.remoteStates ∨ name ∈ f₂.remoteStates
  resources : ∀ name, name ∈ f.resources ↔ name ∈ f₁.resources ∨ name ∈ f₂.resources
  invocations : ∀ (name source : String), f.invocations[name]? = some source
    ↔ f₁.invocations[name]? = some source ∨ f₂.invocations[name]? = some source
  stub : f.stub = (f₁.stub && f₂.stub)

namespace Module

variable {m : Module} {f f₁ f₂ : Fragment}

/-- A set that gathers what two sets hold together. -/
theorem union_eq_union_union {s t t₁ t₂ : NameSet} (h : ∀ name, name ∈ t ↔ name ∈ t₁ ∨ name ∈ t₂) :
    s ∪ t = s ∪ t₁ ∪ t₂ := by
  ext name
  simp only [ExtTreeSet.mem_union_iff, h, or_assoc]

/-- **A fragment is absorbed as the two that it is made of**, but for the
files. -/
theorem absorb_of_joins (h : f.Joins f₁ f₂) :
    (m.absorb f).withoutFiles = ((m.absorb f₁).absorb f₂).withoutFiles := by
  have hsource : mergeSource m.source f.source
      = mergeSource (mergeSource m.source f₁.source) f₂.source := by
    rw [h.source.1, h.source.2.1, h.source.2.2]
    rfl
  have hinvocations : (m.absorb f).invocations = ((m.absorb f₁).absorb f₂).invocations := by
    refine ExtTreeMap.ext_getElem? fun name => ?_
    rw [getElem?_invocations_absorb, getElem?_invocations_absorb, getElem?_invocations_absorb,
      min?_toList_append, List.append_assoc]
    refine min?_congr fun s => ?_
    simp only [List.mem_append, Option.mem_toList, h.invocations]
  have hkinds : (m.absorb f).kinds = ((m.absorb f₁).absorb f₂).kinds := by
    unfold absorb
    rw [h.kind.1, h.kind.2]
    cases f.kind with
    | none => rfl
    | some kind =>
      ext k
      simp only [ExtTreeSet.mem_insert]
      tauto
  have hstub : (m.stub && f.stub) = (m.stub && f₁.stub && f₂.stub) := by
    rw [h.stub, Bool.and_assoc]
  have hdeclarations : m.declarations ++ f.declared
      = m.declarations ++ f₁.declared ++ f₂.declared := by
    rw [h.declared, List.append_assoc]
  have hreferences : m.references.insertMany f.references
      = (m.references.insertMany f₁.references).insertMany f₂.references := by
    ext r
    simp only [mem_setInsertMany, h.references, or_assoc]
  rw [withoutFiles, withoutFiles, Module.mk.injEq]
  exact ⟨rfl, rfl, hsource, rfl, rfl, union_eq_union_union h.outputs, union_eq_union_union h.inputs,
    union_eq_union_union h.dataSources, union_eq_union_union h.remoteStates,
    union_eq_union_union h.resources, hinvocations, rfl, hkinds, hstub, rfl, hdeclarations,
    hreferences⟩

end Module

/-! ## Documents that make up another one -/

namespace Document

variable {d d' : Document} {identifier name text : String}

/-- **Two documents in one**: the attributes of both, then the blocks of the
first and those of the second. -/
def joined (d d' : Document) : Document := ⟨d.attributes ∪ d'.attributes, d.blocks ++ d'.blocks⟩

/-- **No attribute in common.** -/
def AttributesDisjoint (d d' : Document) : Prop := ∀ name ∈ d.attributes, name ∉ d'.attributes

/-- **No nested module in common**: no name is the label of a nested module in
both. -/
def ModulesDisjoint (d d' : Document) : Prop :=
  (d.singleLabels "module").Disjoint (d'.singleLabels "module")

theorem blocksOf_joined :
    (d.joined d').blocksOf identifier = d.blocksOf identifier ++ d'.blocksOf identifier :=
  List.filter_append ..

theorem singleLabels_joined :
    (d.joined d').singleLabels identifier
      = d.singleLabels identifier ++ d'.singleLabels identifier := by
  rw [singleLabels, blocksOf_joined, List.filterMap_append, singleLabels, singleLabels]

theorem doubleLabels_joined :
    (d.joined d').doubleLabels identifier
      = d.doubleLabels identifier ++ d'.doubleLabels identifier := by
  rw [doubleLabels, blocksOf_joined, List.filterMap_append, doubleLabels, doubleLabels]

theorem nestedModules_joined :
    (d.joined d').nestedModules = d.nestedModules ++ d'.nestedModules := by
  rw [nestedModules, blocksOf_joined, List.filterMap_append, nestedModules, nestedModules]

/-- Nested modules are named by their labels. -/
theorem map_fst_nestedModules : d.nestedModules.map Prod.fst = d.singleLabels "module" := by
  rw [nestedModules, singleLabels, List.map_filterMap]
  refine List.filterMap_congr fun b _ => ?_
  split <;> rfl

/-- **The source of a nested module** is the one that it has in one of the two
documents. -/
theorem getElem?_nestedModules_joined {source : String} (h : d.ModulesDisjoint d') :
    (ExtTreeMap.ofList (d.joined d').nestedModules compare)[name]? = some source
      ↔ (ExtTreeMap.ofList d.nestedModules compare)[name]? = some source
        ∨ (ExtTreeMap.ofList d'.nestedModules compare)[name]? = some source := by
  -- entries of the name are in one of the two lists only
  have hone : d.nestedModules.filter (·.1 = name) = []
      ∨ d'.nestedModules.filter (·.1 = name) = [] := by
    by_contra hboth
    obtain ⟨h₁, h₂⟩ := not_or.1 hboth
    obtain ⟨p, hp⟩ := List.exists_mem_of_ne_nil _ h₁
    obtain ⟨q, hq⟩ := List.exists_mem_of_ne_nil _ h₂
    simp only [List.mem_filter, decide_eq_true_eq] at hp hq
    refine h (a := name) ?_ ?_
    · rw [← map_fst_nestedModules, ← hp.2]
      exact List.mem_map_of_mem hp.1
    · rw [← map_fst_nestedModules, ← hq.2]
      exact List.mem_map_of_mem hq.1
  rw [getElem?_mapOfList, getElem?_mapOfList, getElem?_mapOfList, nestedModules_joined,
    List.filter_append]
  rcases hone with h | h
  · simp [h]
  · simp [h]

/-- **The texts of both** are those of each. -/
theorem mem_texts_joined (h : d.AttributesDisjoint d') :
    text ∈ (d.joined d').texts ↔ text ∈ d.texts ∨ text ∈ d'.texts := by
  have hattribute : ∀ (name : String) (v : Value), (d.joined d').attributes[name]? = some v
      ↔ d.attributes[name]? = some v ∨ d'.attributes[name]? = some v := by
    intro name v
    show (d.attributes ∪ d'.attributes)[name]? = some v ↔ _
    rw [ExtTreeMap.getElem?_union]
    by_cases hname : name ∈ d.attributes
    · rw [ExtTreeMap.getElem?_eq_none (h name hname)]
      simp
    · rw [ExtTreeMap.getElem?_eq_none hname]
      simp
  rw [mem_texts, mem_texts, mem_texts]
  show _ ∨ (∃ b ∈ d.blocks ++ d'.blocks, _) ↔ _
  simp only [hattribute, List.mem_append, or_and_right, exists_or]
  exact or_or_or_comm

end Document

/-! ## Files that make up another one -/

/-- **What is found in more texts** is what is found in either part of them. -/
theorem Findings.mem_scan_of_mem_iff {ts ts₁ ts₂ : List String}
    (h : ∀ t, t ∈ ts ↔ t ∈ ts₁ ∨ t ∈ ts₂) :
    (∀ r, r ∈ (scan ts).references ↔ r ∈ (scan ts₁).references ∨ r ∈ (scan ts₂).references)
      ∧ (∀ name, name ∈ (scan ts).dataSources
        ↔ name ∈ (scan ts₁).dataSources ∨ name ∈ (scan ts₂).dataSources)
      ∧ ∀ name, name ∈ (scan ts).remoteStates
        ↔ name ∈ (scan ts₁).remoteStates ∨ name ∈ (scan ts₂).remoteStates := by
  simp only [scan, mem_setOfList, List.mem_flatMap, h, or_and_right, exists_or, implies_true,
    and_self]

/-- **A module definition that could be read**, with its document. -/
structure ConfigFile.Defines (file : ConfigFile) (d : Document) : Prop where
  kind : file.kind = .moduleDefinition
  failed : file.failed = false
  document : file.document = d

namespace Fragment

variable {root : ScanRoot} {both file file' : ConfigFile} {d d' : Document}

/-- What a module definition contributes. -/
theorem ofFile_of_defines (h : file.Defines d) :
    ofFile root file
      = (({ empty (root.moduleIdOfFile file.path) file.relativePath (some .moduleDefinition) with
          diagnostics := file.diagnostics } : Fragment).addModuleDefinition d).addFindings
        (Findings.scan d.texts) := by
  rw [ofFile, h.kind, h.failed, h.document]
  rfl

/-- **A file with two documents in it** contributes what files with one each
contribute. -/
theorem joins_ofFile (hboth : both.Defines (d.joined d')) (h : file.Defines d)
    (h' : file'.Defines d') (hattributes : d.AttributesDisjoint d')
    (hmodules : d.ModulesDisjoint d') :
    (ofFile root both).Joins (ofFile root file) (ofFile root file') := by
  obtain ⟨hreferences, hdata, hstates⟩ :=
    Findings.mem_scan_of_mem_iff fun _ => Document.mem_texts_joined hattributes
  rw [ofFile_of_defines hboth, ofFile_of_defines h, ofFile_of_defines h']
  have hsingle : ∀ identifier name,
      name ∈ ExtTreeSet.ofList ((d.joined d').singleLabels identifier) compare
        ↔ name ∈ ExtTreeSet.ofList (d.singleLabels identifier) compare
          ∨ name ∈ ExtTreeSet.ofList (d'.singleLabels identifier) compare := by
    simp [Document.singleLabels_joined]
  have hdouble : ∀ identifier name,
      name ∈ ExtTreeSet.ofList ((d.joined d').doubleLabels identifier) compare
        ↔ name ∈ ExtTreeSet.ofList (d.doubleLabels identifier) compare
          ∨ name ∈ ExtTreeSet.ofList (d'.doubleLabels identifier) compare := by
    simp [Document.doubleLabels_joined]
  exact {
    kind := ⟨rfl, rfl⟩
    source := ⟨rfl, rfl, rfl⟩
    declared := rfl
    references := fun r => by simpa only [addFindings, ExtTreeSet.mem_toList] using hreferences r
    outputs := hsingle "output"
    inputs := hsingle "variable"
    dataSources := fun name => by
      -- those of the blocks and those that were found
      simp only [addFindings, addModuleDefinition, ExtTreeSet.mem_union_iff, hdouble, hdata]
      exact or_or_or_comm
    remoteStates := hstates
    resources := hdouble "resource"
    invocations := fun _ _ => Document.getElem?_nestedModules_joined hmodules
    stub := rfl }

end Fragment

/-- **It does not matter how the code of a unit is split over files.** Take two
documents that share neither a nested module nor an attribute. A module that
absorbs the file with both of them is the module that absorbs the file with the
first one and then the file with the second one, but for the names of the
files. -/
theorem Module.absorb_joined (root : ScanRoot) (m : Module) (d d' : Document)
    (both file file' : ConfigFile) (hboth : both.Defines (d.joined d')) (h : file.Defines d)
    (h' : file'.Defines d') (hattributes : d.AttributesDisjoint d')
    (hmodules : d.ModulesDisjoint d') :
    (m.absorb (.ofFile root both)).withoutFiles
      = ((m.absorb (.ofFile root file)).absorb (.ofFile root file')).withoutFiles :=
  absorb_of_joins (Fragment.joins_ofFile hboth h h' hattributes hmodules)

/-- The first half of a unit: a nested module that reads an output of another
one. -/
def vpcCode : Document where
  attributes := ExtTreeMap.ofList [("region", .expression "data.aws_region.here.name")] compare
  blocks := [⟨"module", ["vpc"], ⟨ExtTreeMap.ofList
    [("source", .string "../modules/vpc"), ("zone", .expression "module.net.zone")] compare, []⟩⟩]

/-- The second half: the other nested module and an output of the unit. -/
def netCode : Document where
  attributes := ExtTreeMap.ofList [("zone", .expression "module.vpc.zone")] compare
  blocks := [⟨"module", ["net"], ⟨ExtTreeMap.ofList
      [("source", .string "../modules/net")] compare, []⟩⟩,
    ⟨"output", ["id"], ⟨ExtTreeMap.ofList [("value", .expression "module.net.id")] compare, []⟩⟩]

/-- A module definition of the unit. -/
def unitFile (name : String) (d : Document) : ConfigFile :=
  ⟨⟨"/stack/app/" ++ name⟩, "app/" ++ name, .moduleDefinition, d, [], false⟩

/-- The two halves are absorbed as the whole. -/
theorem Module.absorb_joined_halves :
    vpcCode.AttributesDisjoint netCode ∧ vpcCode.ModulesDisjoint netCode
      ∧ ((Module.new "app" ⟨"/stack/app"⟩).absorb
          (.ofFile ⟨⟨"/stack"⟩⟩ (unitFile "main.tf" (vpcCode.joined netCode)))).withoutFiles
        = (((Module.new "app" ⟨"/stack/app"⟩).absorb
          (.ofFile ⟨⟨"/stack"⟩⟩ (unitFile "vpc.tf" vpcCode))).absorb
            (.ofFile ⟨⟨"/stack"⟩⟩ (unitFile "net.tf" netCode))).withoutFiles := by
  have hattributes : vpcCode.AttributesDisjoint netCode := by
    intro name hname hname'
    simp only [vpcCode, netCode, ExtTreeMap.mem_ofList, List.map_cons, List.map_nil,
      List.contains_cons, List.contains_nil, Bool.or_false, beq_iff_eq] at hname hname'
    exact absurd (hname.symm.trans hname') (by decide)
  have hmodules : vpcCode.ModulesDisjoint netCode := by
    intro name hname hname'
    have hvpc : vpcCode.singleLabels "module" = ["vpc"] := rfl
    have hnet : netCode.singleLabels "module" = ["net"] := rfl
    rw [hvpc, List.mem_singleton] at hname
    rw [hnet, List.mem_singleton] at hname'
    exact absurd (hname.symm.trans hname') (by decide)
  exact ⟨hattributes, hmodules, Module.absorb_joined _ _ _ _ _ _ _ ⟨rfl, rfl, rfl⟩ ⟨rfl, rfl, rfl⟩
    ⟨rfl, rfl, rfl⟩ hattributes hmodules⟩

end StackGraph
