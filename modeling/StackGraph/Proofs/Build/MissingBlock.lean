import StackGraph.Proofs.Build.Accounting
import StackGraph.Proofs.Build.Files
import StackGraph.Proofs.Findings
/-!
# References without a block

A reference `dependency.name.outputs.output` means what the `dependency` block
of its name means. Where the block means nothing, the block itself is reported
and the reference adds no second diagnostic; only where there is no block at
all the reference is reported as one without a block.

But what the builder knows of a block is its declaration, and a block is
declared only if its path is a literal. So a block without a path, or with one
that would need evaluation, is not there for the references to it: it is
reported, and they are reported as well, as if nobody had written it
(`Graph.missingBlock_mem_diagnostics_bareBlock`). What is true is said exactly:
a module has a diagnostic for references of a name without a block if and only
if it has such references and no block of the name has a literal path
(`Graph.exists_missingBlock_iff`).
-/

namespace StackGraph

open Std

/-- The diagnostic for a reference to an output of a dependency without a
block. -/
def Diagnostic.missingBlock (id name output : String) : Diagnostic :=
  .resolution id (ReferenceFailure.noBlock.message (.ofDependency name output))

/-- **A fragment of a text**: its references are found ones, and its diagnostics
name a file. -/
structure Fragment.IsOfText (f : Fragment) : Prop where
  isFound : ∀ r ∈ f.references, r.IsFound
  path_ne_none : ∀ d ∈ f.diagnostics, d.path ≠ none

/-! ## References that mean nothing -/

namespace Modules

variable {root : ScanRoot} {fragments : List Fragment} {id name : String} {r : Reference}
variable {failure : ReferenceFailure} {modules : Modules} {m : Module}

/-- What a module is said to name in vain are references of it. -/
theorem of_mem_unresolvedOf (h : (r, failure) ∈ modules.unresolvedOf root m) :
    r ∈ m.references
      ∧ modules.resolveReference root m (modules.namedDependencies m) r = .nothing failure := by
  obtain ⟨r', hr', hsome⟩ := List.mem_filterMap.1 (mem_of_mem_firstOfEach h)
  rw [ExtTreeSet.mem_toList] at hr'
  split at hsome
  · rename_i failure' hnothing
    cases hsome
    exact ⟨hr', hnothing⟩
  · cases hsome

/-- **A reference that means nothing is reported**, or another one to the same
name in its place. -/
theorem exists_mem_unresolvedOf (hr : r ∈ m.references)
    (hnothing : modules.resolveReference root m (modules.namedDependencies m) r
      = .nothing failure) :
    ∃ r' failure', (r', failure') ∈ modules.unresolvedOf root m
      ∧ r'.via = r.via ∧ r'.name = r.name := by
  obtain ⟨⟨r', failure'⟩, hfirst, hkey⟩ :
      ∃ p ∈ modules.unresolvedOf root m, (p.1.via, p.1.name) = (r.via, r.name) := by
    refine exists_mem_firstOfEach (x := (r, failure)) ?_ List.not_mem_nil
    refine List.mem_filterMap.2 ⟨r, ExtTreeSet.mem_toList.2 hr, ?_⟩
    rw [hnothing]
  obtain ⟨hvia, hname⟩ := Prod.mk.inj hkey
  exact ⟨r', failure', hfirst, hvia, hname⟩

/-- A name is unknown to a module without a declaration of it. -/
theorem getElem?_namedDependencies_eq_none :
    ((ofFragments root fragments).namedDependencies (merged root fragments id))[name]? = none
      ↔ ∀ d ∈ declarationsOf fragments id, d.name ≠ some name := by
  rw [getElem?_namedDependencies, declarations_merged, Option.map_eq_none_iff,
    List.getLast?_eq_none_iff, List.filter_eq_nil_iff]
  simp only [decide_eq_true_eq]
  rfl

/-- **A reference through a dependency means nothing** exactly if no declaration
has its name. -/
theorem resolveReference_eq_nothing_iff (hvia : r.via = .dependency) :
    (ofFragments root fragments).resolveReference root (merged root fragments id)
        ((ofFragments root fragments).namedDependencies (merged root fragments id)) r
        = .nothing failure
      ↔ failure = .noBlock ∧ ∀ d ∈ declarationsOf fragments id, d.name ≠ some r.name := by
  rw [← @getElem?_namedDependencies_eq_none root, resolveReference, hvia]
  show resolveDependency _ r = _ ↔ _
  unfold resolveDependency
  split
  · rename_i hsome
    simp [hsome]
  · rename_i hsome
    simp [hsome]
  · rename_i hnone
    simp [hnone, eq_comm]

end Modules

/-! ## The wording tells what a diagnostic is about -/

/-- The word that a reference starts with. -/
def Via.word : Via → String
  | module => "module"
  | dependency => "dependency"

theorem Via.notMem_word (via : Via) : '.' ∉ via.word.toList := by
  cases via <;> decide

theorem Via.eq_of_word_eq {via via' : Via} (h : via.word = via'.word) : via = via' := by
  cases via <;> cases via' <;> first | rfl | exact absurd h (by decide)

/-- No declaration is reported in words that start like a reference. -/
theorem DeclarationFailure.message_ne_append {d : Declaration} {failure : DeclarationFailure}
    {via : Via} {rest : List Char} : (failure.message d).toList ≠ via.word.toList ++ '.' :: rest := by
  intro h
  cases via with
  | module =>
    have hfirst := congrArg (·[0]?) h
    obtain ⟨_ | named, path, target⟩ := d <;> cases failure <;> simp [message, Via.word] at hfirst
  | dependency =>
    have hlast := congrArg (·[10]?) h
    obtain ⟨_ | named, path, target⟩ := d <;> cases failure <;> simp [message, Via.word] at hlast

theorem DeclarationFailure.message_ne {d : Declaration} {failure : DeclarationFailure}
    {name output : String} :
    failure.message d ≠ ReferenceFailure.noBlock.message (.ofDependency name output) := by
  intro h
  have hstart : ∃ rest, (ReferenceFailure.noBlock.message (.ofDependency name output)).toList
      = Via.dependency.word.toList ++ '.' :: rest := by
    simp [ReferenceFailure.message, Reference.ofDependency, Via.word]
  obtain ⟨rest, hrest⟩ := hstart
  exact message_ne_append ((congrArg String.toList h).trans hrest)

/-- **The words for a reference without a block** are about one name only. -/
theorem Reference.IsFound.of_message_eq {r : Reference} {failure : ReferenceFailure}
    {name output : String} (hfound : r.IsFound)
    (hfailure : r.via = .dependency → failure = .noBlock)
    (h : failure.message r = ReferenceFailure.noBlock.message (.ofDependency name output)) :
    r = .ofDependency name output := by
  cases hfound with
  | module hname houtput =>
    -- the two forms differ in their first letters
    have hlist := congrArg (fun s => s.toList[0]?) h
    cases failure <;> simp [ReferenceFailure.message, ofModule, ofDependency] at hlist
  | dependency hname houtput =>
    rw [hfailure rfl, ReferenceFailure.message, ReferenceFailure.message] at h
    have hexpression := congrArg String.toList h
    rw [String.toList_append, String.toList_append] at hexpression
    obtain ⟨rfl, rfl⟩ := ofDependency_expression_inj hname houtput
      (String.toList_inj.1 (List.append_cancel_right hexpression))
    rfl

/-! ## Which references are reported -/

namespace Graph

open Modules

variable {root : ScanRoot} {fragments : List Fragment} {id name output : String}

/-- **What is reported as a reference without a block** is a reference of the
module to a name that it does not declare. -/
theorem of_missingBlock_mem_diagnostics (htext : ∀ f ∈ fragments, f.IsOfText)
    (h : .missingBlock id name output ∈ (build root fragments).diagnostics) :
    Refers fragments id (.ofDependency name output)
      ∧ ∀ d ∈ declarationsOf fragments id, d.name ≠ some name := by
  rcases mem_diagnostics_build.1 h with ⟨f, hf, hd⟩ | ⟨id', -, hd⟩ | ⟨l, -, hd⟩
  · exact absurd rfl ((htext f hf).path_ne_none _ hd)
  · rw [diagnosticsOf, List.mem_append, id_merged] at hd
    rcases hd with hd | hd
    · obtain ⟨d, -, hsome⟩ := List.mem_filterMap.1 hd
      unfold declarationDiagnostic? at hsome
      split at hsome
      · exact absurd (congrArg Diagnostic.message (Option.some.inj hsome))
          DeclarationFailure.message_ne
      · cases hsome
    · obtain ⟨⟨r, failure⟩, hmem, heq⟩ := List.mem_map.1 hd
      obtain ⟨hr, hnothing⟩ := of_mem_unresolvedOf hmem
      obtain ⟨f, hf, hid, hrf⟩ := mem_references_merged.1 hr
      obtain rfl : id' = id := Option.some.inj (congrArg Diagnostic.module heq)
      obtain rfl := ((htext f hf).isFound r hrf).of_message_eq
        (fun hvia => ((resolveReference_eq_nothing_iff hvia).1 hnothing).1)
        (congrArg Diagnostic.message heq)
      exact ⟨⟨f, hf, hid, hrf⟩, ((resolveReference_eq_nothing_iff rfl).1 hnothing).2⟩
  · cases congrArg Diagnostic.kind hd

/-- **A reference to a name that its module does not declare is reported**, or
another one to the same name in its place. -/
theorem exists_missingBlock_mem_diagnostics (htext : ∀ f ∈ fragments, f.IsOfText)
    (hrefers : Refers fragments id (.ofDependency name output))
    (hundeclared : ∀ d ∈ declarationsOf fragments id, d.name ≠ some name) :
    ∃ output, .missingBlock id name output ∈ (build root fragments).diagnostics := by
  have hnothing := (@resolveReference_eq_nothing_iff root fragments id
    (.ofDependency name output) .noBlock rfl).2 ⟨rfl, hundeclared⟩
  obtain ⟨r, failure, hmem, hvia, hname⟩ :=
    exists_mem_unresolvedOf (mem_references_merged.2 hrefers) hnothing
  obtain ⟨hr, hfails⟩ := of_mem_unresolvedOf hmem
  obtain ⟨f, hf, -, hrf⟩ := mem_references_merged.1 hr
  obtain ⟨rfl, -⟩ := (resolveReference_eq_nothing_iff hvia).1 hfails
  obtain ⟨f', hf', hid', -⟩ := hrefers
  refine ⟨r.output, mem_diagnostics_build.2 (.inr (.inl ⟨id, ⟨f', hf', hid'⟩, ?_⟩))⟩
  refine List.mem_append_right _ (List.mem_map.2 ⟨_, hmem, ?_⟩)
  -- a found reference through a dependency is the one of its name and its output
  have heq : r = .ofDependency name r.output := by
    cases (htext f hf).isFound r hrf with
    | module => cases hvia
    | dependency => rw [← show _ = name from hname]; rfl
  rw [id_merged, Diagnostic.missingBlock, ← heq]

end Graph

/-! ## Blocks and their declarations -/

/-- The body of a block gives its path as a literal. -/
def Hcl.Body.HasLiteralPath (inner : Hcl.Body) : Prop :=
  ∃ value written, .attribute "config_path" value ∈ inner ∧ value.lower = .string written

/-- **A module has a `dependency` block** of a name: one of its orchestration
files can be read and holds the block. A block with any other number of labels
violates the vocabulary. -/
def Workspace.HasBlock (w : Workspace) (root : ScanRoot) (files : List (Path × FileKind))
    (id name : String) (inner : Hcl.Body) : Prop :=
  ∃ path text body, (path, .orchestration) ∈ files ∧ root.moduleIdOfFile path = id
    ∧ w.readText path = .ok text ∧ Hcl.Body.read? text = some body
    ∧ .block (.mk "dependency" [name] inner) ∈ body

namespace Document

/-- **A named outcome that is no problem** is that of a block with a literal
path. -/
theorem exists_block_of_mem_declarations {d : Document} {name written : String}
    (h : .ok (some name, written) ∈ d.declarations) :
    ∃ b ∈ d.blocksOf "dependency", b.name?.getD "" = name
      ∧ b.body.get? "config_path" = some (.string written) := by
  rcases List.mem_append.1 h with h | h
  · obtain ⟨b, hb, hok⟩ := List.mem_map.1 h
    refine ⟨b, hb, ?_⟩
    unfold dependencyOf at hok
    dsimp only at hok
    split at hok
    · rename_i path hpath
      cases hok
      exact ⟨rfl, hpath⟩
    · cases hok
    · cases hok
  · -- the entries of lists have no name
    obtain ⟨b, -, hok⟩ := List.mem_flatMap.1 h
    unfold entriesOf at hok
    split at hok
    · exact absurd hok List.not_mem_nil
    · obtain ⟨item, -, hitem⟩ := List.mem_map.1 hok
      unfold entryOf at hitem
      split at hitem <;> cases hitem
    · cases List.mem_singleton.1 hok

end Document

namespace Fragment

variable {root : ScanRoot} {path : Path} {text name : String} {body : Hcl.Body}

/-- **What an orchestration file declares by name** are its blocks with literal
paths. -/
theorem exists_mem_declared_iff (hread : Hcl.Body.read? text = some body) :
    (∃ d ∈ (ofOrchestration root path text).declared, d.name = some name)
      ↔ ∃ inner, .block (.mk "dependency" [name] inner) ∈ body
        ∧ Hcl.Body.HasLiteralPath inner := by
  have hrule : FileKind.orchestration.labelRule? "dependency" = some ⟨"dependency", 1, 1⟩ := by
    decide
  constructor
  · rintro ⟨d, hd, hname⟩
    rw [ofOrchestration, ConfigFile.ofText_of_read? hread, declared_ofFile rfl rfl] at hd
    obtain ⟨outcome, houtcome, hsome⟩ := List.mem_filterMap.1 hd
    rcases outcome with problem | ⟨name', written⟩
    · cases hsome
    · obtain rfl := Option.some.inj hsome
      obtain rfl : name' = some name := hname
      obtain ⟨b, hb, hlabel, hpath⟩ := Document.exists_block_of_mem_declarations houtcome
      obtain ⟨labels, inner, hblock, hallows, rfl⟩ := exists_block_of_mem_keptDocument hrule hb
      obtain ⟨value, hvalue, hliteral⟩ := Hcl.exists_attribute_of_getElem?_lowerAttributes hpath
      have hone : labels.length = 1 := by
        simp only [LabelRule.allows, Bool.and_eq_true, decide_eq_true_eq] at hallows
        omega
      obtain ⟨label, rfl⟩ := List.length_eq_one_iff.1 hone
      obtain rfl : label = name := hlabel
      exact ⟨inner, hblock, value, written, hvalue, hliteral⟩
  · rintro ⟨inner, hblock, value, written, hvalue, hliteral⟩
    rcases @dropped_or_kept root path _ _ _ _ hread _ _ hrule hblock with ⟨hallows, -⟩ | ⟨-, hkept⟩
    · cases hallows
    · have hdistinct := (Hcl.Body.distinct_of_read? hread).body hblock
      have hget : (Hcl.Block.mk "dependency" [name] inner).lower.body.get? "config_path"
          = some (.string written) :=
        hliteral ▸ Hcl.getElem?_lowerAttributes hdistinct hvalue
      have houtcome := Document.dependencyOf_mem_declarations hkept
      rw [Document.dependencyOf_of_string hget] at houtcome
      exact ⟨_, mem_declared hread houtcome, rfl⟩

/-- Only orchestration files that can be read declare something. -/
theorem kind_of_mem_declared {file : ConfigFile} {d : Declaration}
    (hd : d ∈ (ofFile root file).declared) :
    file.failed = false ∧ file.kind = .orchestration := by
  unfold ofFile at hd
  split at hd
  · exact absurd hd List.not_mem_nil
  · rename_i hread
    refine ⟨by simpa using hread, ?_⟩
    dsimp only at hd
    split at hd
    · assumption
    · exact absurd hd List.not_mem_nil

end Fragment

namespace Workspace

variable {w : Workspace} {root : ScanRoot} {files : List (Path × FileKind)} {p : Path × FileKind}
variable {id name text : String}

theorem kind_ofText {path : Path} {kind : FileKind} :
    (ConfigFile.ofText root path kind text).kind = kind := by
  unfold ConfigFile.ofText
  split <;> rfl

theorem fragment_of_readText {path : Path} (h : w.readText path = .ok text) :
    w.fragment root (path, .orchestration) = Fragment.ofOrchestration root path text := by
  rw [fragment, ConfigFile.read, h]

/-- **Whatever a file is, its fragment is that of a text.** -/
theorem isOfText_fragment : (w.fragment root p).IsOfText := by
  refine ⟨?_, fun d hd => ?_⟩
  · unfold fragment Fragment.ofFile
    split
    · exact fun r hr => absurd hr List.not_mem_nil
    · exact fun r hr => Findings.isFound_of_mem_scan (ExtTreeSet.mem_toList.1 hr)
  · rw [path_of_mem_diagnostics_fragment hd]
    exact Option.some_ne_none _

theorem isOfText_of_mem_fragments : ∀ f ∈ w.fragments root files, f.IsOfText := by
  intro f hf
  obtain ⟨p, -, rfl⟩ := List.mem_map.1 hf
  exact isOfText_fragment

/-- What declares something is an orchestration file with a text that can be
read. -/
theorem exists_text_of_mem_declared {d : Declaration} (hd : d ∈ (w.fragment root p).declared) :
    ∃ text body, p.2 = .orchestration ∧ w.readText p.1 = .ok text
      ∧ Hcl.Body.read? text = some body := by
  obtain ⟨hfailed, hkind⟩ := Fragment.kind_of_mem_declared hd
  have hbroken : ¬ w.IsBroken p.1 := by
    rw [← ConfigFile.failed_read, hfailed]
    exact Bool.false_ne_true
  unfold IsBroken at hbroken
  push Not at hbroken
  obtain ⟨text, hreadText, hsome⟩ := hbroken
  obtain ⟨body, hread⟩ := Option.ne_none_iff_exists'.1 fun hnone =>
    hsome (Option.map_eq_none_iff.2 hnone)
  refine ⟨text, body, ?_, hreadText, hread⟩
  rw [← hkind, ConfigFile.read, hreadText]
  exact kind_ofText.symm

/-- **What a module declares by name** are its blocks with literal paths. -/
theorem exists_mem_declarationsOf_iff :
    (∃ d ∈ declarationsOf (w.fragments root files) id, d.name = some name)
      ↔ ∃ inner, w.HasBlock root files id name inner ∧ Hcl.Body.HasLiteralPath inner := by
  constructor
  · rintro ⟨d, hd, hname⟩
    obtain ⟨f, hf, hid, hdf⟩ := mem_declarationsOf.1 hd
    obtain ⟨⟨path, kind⟩, hp, rfl⟩ := List.mem_map.1 hf
    obtain ⟨text, body, hkind, hreadText, hread⟩ := exists_text_of_mem_declared hdf
    obtain rfl : kind = .orchestration := hkind
    rw [fragment_of_readText hreadText] at hdf
    obtain ⟨inner, hblock, hliteral⟩ := (Fragment.exists_mem_declared_iff hread).1 ⟨d, hdf, hname⟩
    rw [moduleId_fragment] at hid
    exact ⟨inner, ⟨path, text, body, hp, hid, hreadText, hread, hblock⟩, hliteral⟩
  · rintro ⟨inner, ⟨path, text, body, hp, hid, hreadText, hread, hblock⟩, hliteral⟩
    obtain ⟨d, hd, hname⟩ :=
      (Fragment.exists_mem_declared_iff hread).2 ⟨inner, hblock, hliteral⟩
    refine ⟨d, mem_declarationsOf.2 ⟨_, List.mem_map_of_mem hp, ?_, ?_⟩, hname⟩
    · rw [moduleId_fragment, hid]
    · rwa [fragment_of_readText hreadText]

end Workspace

/-! ## Which modules have a diagnostic for a missing block -/

namespace Graph

/-- **A module has a diagnostic for references of a name without a block**
exactly if it has references through this name and none of its blocks of the
name has a literal path. -/
theorem exists_missingBlock_iff (w : Workspace) (root : ScanRoot)
    (files : List (Path × FileKind)) (id name : String) :
    (∃ output, .missingBlock id name output
        ∈ (build root (w.fragments root files)).diagnostics)
      ↔ (∃ output, Refers (w.fragments root files) id (.ofDependency name output))
        ∧ ∀ inner, w.HasBlock root files id name inner → ¬ Hcl.Body.HasLiteralPath inner := by
  have htext : ∀ f ∈ w.fragments root files, f.IsOfText := Workspace.isOfText_of_mem_fragments
  have hblocks : (∀ d ∈ declarationsOf (w.fragments root files) id, d.name ≠ some name)
      ↔ ∀ inner, w.HasBlock root files id name inner → ¬ Hcl.Body.HasLiteralPath inner := by
    have h := not_congr (@Workspace.exists_mem_declarationsOf_iff w root files id name)
    push Not at h
    exact h
  rw [← hblocks]
  constructor
  · rintro ⟨output, h⟩
    obtain ⟨hrefers, hundeclared⟩ := of_missingBlock_mem_diagnostics htext h
    exact ⟨⟨output, hrefers⟩, hundeclared⟩
  · rintro ⟨⟨output, hrefers⟩, hundeclared⟩
    exact exists_missingBlock_mem_diagnostics htext hrefers hundeclared

end Graph

/-- A unit with a block that has no path, and a reference through it. -/
def bareBlockText : String :=
  "dependency \"net\" \x7b\n\x7d\ninputs = \x7b\n  id = dependency.net.outputs.id\n\x7d\n"

/-- The workspace that holds nothing but the unit. -/
def bareBlockWorkspace : Workspace :=
  ⟨.directory true [("stack", .directory true [("app", .directory true
    [("terragrunt.hcl", .file (some bareBlockText))])])], ⟨"/"⟩, ∅⟩

/-- The file of the unit. -/
def bareBlockFiles : List (Path × FileKind) :=
  [(⟨"/stack/app/terragrunt.hcl"⟩, .orchestration)]

/-- Whether a body starts with a block for `net` that says nothing. -/
def hasBareBlock : Hcl.Body → Bool
  | .block (.mk identifier labels []) :: _ => identifier == "dependency" && labels == ["net"]
  | _ => false

theorem mem_of_hasBareBlock {body : Hcl.Body} (h : hasBareBlock body) :
    .block (.mk "dependency" ["net"] []) ∈ body := by
  unfold hasBareBlock at h
  split at h
  · simp only [Bool.and_eq_true, beq_iff_eq] at h
    obtain ⟨rfl, rfl⟩ := h
    exact List.mem_cons_self
  · cases h

theorem hasBlock_bareBlock :
    bareBlockWorkspace.HasBlock ⟨⟨"/stack"⟩⟩ bareBlockFiles "app" "net" [] := by
  have htext : bareBlockWorkspace.readText ⟨"/stack/app/terragrunt.hcl"⟩ = .ok bareBlockText := by
    decide +kernel
  have hread : (Hcl.Body.read? bareBlockText).any hasBareBlock := by decide +kernel
  obtain ⟨body, hbody, hbare⟩ := (Option.any_eq_true _ _).1 hread
  exact ⟨_, _, body, List.mem_cons_self, by decide +kernel, htext, hbody,
    mem_of_hasBareBlock hbare⟩

/-- The reference through the block without a path is reported as one without a
block. -/
theorem Graph.missingBlock_mem_diagnostics_bareBlock :
    bareBlockWorkspace.HasBlock ⟨⟨"/stack"⟩⟩ bareBlockFiles "app" "net" []
      ∧ ∃ output, .missingBlock "app" "net" output
        ∈ (build ⟨⟨"/stack"⟩⟩
          (bareBlockWorkspace.fragments ⟨⟨"/stack"⟩⟩ bareBlockFiles)).diagnostics := by
  refine ⟨hasBlock_bareBlock, ?_⟩
  have hrefers : Refers (bareBlockWorkspace.fragments ⟨⟨"/stack"⟩⟩ bareBlockFiles) "app"
      (.ofDependency "net" "id") :=
    ⟨_, List.mem_cons_self, by decide +kernel, by decide +kernel⟩
  exact exists_missingBlock_mem_diagnostics Workspace.isOfText_of_mem_fragments hrefers
    (by decide +kernel)

end StackGraph
