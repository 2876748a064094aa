import StackGraph.Proofs.Build.Diagnostics
/-!
# Declarations that come back to their own module

A declaration whose path leads to its own directory gives no edge, and the
module is told that it refers to itself. So it is told if the path leads to a
directory that was not scanned and has the name of its own, while no other
scanned module has: the builder looks for the only module of that name, and does
not leave out the one that asks. Both are summed up in `ComesBack`, which takes
no look at the builder.

Of the declarations of a module that come back only the first is reported
(`IsFirstBack`), so the main statement `Graph.selfReference_mem_diagnostics_iff`
says which one the message is about. That it is the first by its place among the
files of the module, and not among all links of the build, is
`Modules.find?_links_eq_some_iff`.
-/

namespace StackGraph

open Std

/-- **A declaration that comes back** to the directory that it stands in. -/
inductive ComesBack (fragments : List Fragment) (m : String) (d : Declaration) : Prop
  /-- Its path leads there. -/
  | written (htarget : d.target = some m)
  /-- Its path leads to a directory that was not scanned, and this is the only
  scanned one with the basename of the path. -/
  | guessed {t : String} (htarget : d.target = some t) (hunknown : ¬ IsScanned fragments t)
      (honly : ∀ v, (IsScanned fragments v ∧ ModuleId.basename v = ModuleId.basename t) ↔ v = m)

/-- **The first declaration** in a directory that comes back. -/
structure IsFirstBack (fragments : List Fragment) (m : String) (d : Declaration) : Prop where
  comesBack : ComesBack fragments m d
  first : ∃ before after, declarationsOf fragments m = before ++ d :: after
    ∧ ∀ e ∈ before, ¬ ComesBack fragments m e

variable {root : ScanRoot} {fragments : List Fragment} {m : String} {d : Declaration}

/-- A declaration comes back exactly if it means its own module. -/
theorem comesBack_iff (hm : IsScanned fragments m) :
    ComesBack fragments m d ↔ DeclarationMeans fragments d m := by
  constructor
  · intro h
    cases h with
    | written htarget => exact .scanned htarget hm
    | guessed htarget hunknown honly => exact .basename htarget hunknown honly
  · intro h
    cases h with
    | scanned htarget _ => exact .written htarget
    | basename htarget hunknown honly => exact .guessed htarget hunknown honly

theorem IsFirstBack.mem (h : IsFirstBack fragments m d) : d ∈ declarationsOf fragments m := by
  obtain ⟨before, after, hsplit, -⟩ := h.first
  exact hsplit ▸ List.mem_append_right _ List.mem_cons_self

/-- The first declaration that comes back is found by whatever test tells those
that do. -/
theorem isFirstBack_iff {p : Declaration → Bool} (hp : ∀ e, p e ↔ ComesBack fragments m e) :
    IsFirstBack fragments m d ↔ (declarationsOf fragments m).find? p = some d := by
  simp only [List.find?_eq_some_iff_append, Bool.not_eq_true', ← Bool.not_eq_true, hp]
  exact ⟨fun ⟨hback, hfirst⟩ => ⟨hback, hfirst⟩, fun ⟨hback, hfirst⟩ => ⟨hback, hfirst⟩⟩

/-- Among declarations of which one comes back, there is a first one. -/
theorem exists_isFirstBack (hd : d ∈ declarationsOf fragments m)
    (h : ComesBack fragments m d) : ∃ e, IsFirstBack fragments m e := by
  classical
  have hfound : ((declarationsOf fragments m).find? fun e => ComesBack fragments m e).isSome :=
    List.find?_isSome.2 ⟨d, hd, decide_eq_true h⟩
  obtain ⟨e, he⟩ := Option.isSome_iff_exists.1 hfound
  exact ⟨e, (isFirstBack_iff fun _ => decide_eq_true_iff).2 he⟩

namespace Modules

variable {modules : Modules} {n : Module} {l : Link}

/-- Whether a link is a declaration of a module that comes back to it. -/
abbrev isBack (m : String) (l : Link) : Bool :=
  l.isSelf ∧ l.module = m ∧ l.kind = .explicit

theorem isBack_iff : isBack m l ↔ l.target = m ∧ l.module = m ∧ l.kind = .explicit := by
  rw [decide_eq_true_iff, Link.isSelf, beq_iff_eq]
  constructor
  · rintro ⟨hself, hmodule, hkind⟩
    exact ⟨hself.symm.trans hmodule, hmodule, hkind⟩
  · rintro ⟨htarget, hmodule, hkind⟩
    exact ⟨hmodule.trans htarget.symm, hmodule, hkind⟩

/-- The link of a declaration comes back if the declaration does. -/
theorem any_declarationLink?_iff (hm : IsScanned fragments m) :
    ((ofFragments root fragments).declarationLink? (merged root fragments m) d).any (isBack m)
      ↔ ComesBack fragments m d := by
  rw [comesBack_iff hm, ← @resolveDeclaration_eq_ok_iff root, Option.any_eq_true]
  constructor
  · rintro ⟨l, hl, hback⟩
    obtain ⟨u, hok, rfl⟩ := declarationLink?_eq_some_iff.1 hl
    have hu : u = m := (isBack_iff.1 hback).1
    rwa [hu] at hok
  · intro hok
    exact ⟨_, declarationLink?_eq_some_iff.2 ⟨m, hok, rfl⟩, isBack_iff.2 ⟨rfl, id_merged, rfl⟩⟩

/-- The links of a module are those of its declarations, and inferred ones behind
them. -/
theorem exists_linksOf_eq (root : ScanRoot) (modules : Modules) (n : Module) :
    ∃ inferred, modules.linksOf root n
        = n.declarations.filterMap (modules.declarationLink? n) ++ inferred
      ∧ ∀ l ∈ inferred, l.kind = .inferred := by
  refine ⟨_, rfl, fun l hl => ?_⟩
  obtain ⟨r, -, hr⟩ := List.mem_filterMap.1 hl
  split at hr <;> cases hr
  rfl

/-- The first link of a module that comes back is that of the first declaration
that does. -/
theorem find?_linksOf_eq_some_iff (hm : IsScanned fragments m) :
    ((ofFragments root fragments).linksOf root (merged root fragments m)).find? (isBack m) = some l
      ↔ ∃ d, IsFirstBack fragments m d ∧ l = ⟨m, m, .explicit, d.origin⟩ := by
  obtain ⟨inferred, hlinks, hinferred⟩ :=
    exists_linksOf_eq root (ofFragments root fragments) (merged root fragments m)
  have hnone : inferred.find? (isBack m) = none := by
    refine List.find?_eq_none.2 fun l hl hback => ?_
    cases (hinferred l hl).symm.trans (isBack_iff.1 hback).2.2
  have hdeclarations : (merged root fragments m).declarations = declarationsOf fragments m :=
    declarations_merged
  rw [hlinks, List.find?_append, hnone, Option.or_none, List.find?_filterMap, hdeclarations,
    Option.bind_eq_some_iff]
  refine exists_congr fun d => ?_
  rw [← isFirstBack_iff fun _ => any_declarationLink?_iff hm]
  refine and_congr_right fun hd => ?_
  -- the declaration means its module and nothing else
  have hok := (@resolveDeclaration_eq_ok_iff root _ _ _).2 ((comesBack_iff hm).1 hd.comesBack)
  rw [declarationLink?, hok, id_merged]
  exact ⟨fun h => (Option.some.inj h).symm, fun h => congrArg some h.symm⟩

/-- **The first link of a build** that comes back to a module. -/
theorem find?_links_eq_some_iff :
    ((ofFragments root fragments).links root).find? (isBack m) = some l
      ↔ ∃ d, IsFirstBack fragments m d ∧ l = ⟨m, m, .explicit, d.origin⟩ := by
  -- only the module itself has links from it
  have hof : ∀ l, ((ofFragments root fragments).links root).find? (isBack m) = some l →
      IsScanned fragments m ∧ ((ofFragments root fragments).linksOf root
        (merged root fragments m)).find? (isBack m) = some l := by
    intro l hl
    rw [links, List.find?_flatMap] at hl
    obtain ⟨n, hn, hfound⟩ := List.exists_of_findSome?_eq_some hl
    obtain ⟨id, hid, rfl⟩ := mem_values_ofFragments.1 hn
    have hmodule : l.module = id := by
      rcases mem_linksOf.1 (List.mem_of_find?_eq_some hfound) with ⟨_, -, _, -, rfl⟩ | ⟨_, -, _, -, rfl⟩
      · exact id_merged
      · exact id_merged
    obtain rfl : m = id := (isBack_iff.1 (List.find?_some hfound)).2.1.symm.trans hmodule
    exact ⟨hid, hfound⟩
  constructor
  · intro h
    obtain ⟨hm, hfound⟩ := hof l h
    exact (find?_linksOf_eq_some_iff hm).1 hfound
  · rintro ⟨d, hd, rfl⟩
    have hm := isScanned_of_mem_declarationsOf hd.mem
    have hfound := (@find?_linksOf_eq_some_iff root _ _ _ hm).2 ⟨d, hd, rfl⟩
    have hsome : (((ofFragments root fragments).links root).find? (isBack m)).isSome := by
      rw [links, List.find?_flatMap, List.findSome?_isSome_iff]
      exact ⟨_, mem_values_ofFragments.2 ⟨m, hm, rfl⟩, hfound ▸ rfl⟩
    obtain ⟨l, hl⟩ := Option.isSome_iff_exists.1 hsome
    rw [hl, ← hfound, (hof l hl).2]

end Modules

/-- What a declaration is called in a message is not what a reference is called. -/
theorem Declaration.origin_ne (d : Declaration) (s : String) : d.origin ≠ "reference " ++ s := by
  have hdeclaration : d.origin.toList.head? = some 'd' := by
    unfold origin
    split <;> simp
  have hreference : ("reference " ++ s).toList.head? = some 'r' := by simp
  intro h
  rw [h, hreference] at hdeclaration
  exact absurd hdeclaration (by decide)

namespace Graph

open Modules

/-- **The reported links to itself** that the declarations of a module are. -/
theorem mem_selfLinks_iff {l : Link} :
    (l ∈ firstOfEach (fun l : Link => (l.module, l.kind)) []
        (((ofFragments root fragments).links root).filter Link.isSelf)
      ∧ l.module = m ∧ l.kind = .explicit)
      ↔ ∃ d, IsFirstBack fragments m d ∧ l = ⟨m, m, .explicit, d.origin⟩ := by
  have hsame : l.module = m → l.kind = .explicit → (fun k : Link => decide (k.isSelf = true
      ∧ decide ((k.module, k.kind) = (l.module, l.kind)) = true)) = isBack m := by
    intro hmodule hkind
    funext k
    rw [hmodule, hkind]
    simp [isBack]
  rw [mem_firstOfEach_iff, List.find?_filter, and_iff_right List.not_mem_nil,
    ← @find?_links_eq_some_iff root]
  constructor
  · rintro ⟨hfind, hmodule, hkind⟩
    rwa [hsame hmodule hkind] at hfind
  · intro hfind
    obtain ⟨-, hmodule, hkind⟩ := isBack_iff.1 (List.find?_some hfind)
    rw [hsame hmodule hkind]
    exact ⟨hfind, hmodule, hkind⟩

/-- The report of a declaration that comes back. -/
abbrev selfReport (m : String) (d : Declaration) : Diagnostic :=
  .selfReference m (d.origin ++ " refers to the module itself; edge ignored")

/-- **A declaration is reported to come back** by its file, or if the first one
that does so is called the same. -/
theorem mem_diagnostics_build_selfReport :
    selfReport m d ∈ (build root fragments).diagnostics
      ↔ (∃ f ∈ fragments, selfReport m d ∈ f.diagnostics)
        ∨ ∃ e, IsFirstBack fragments m e ∧ e.origin = d.origin := by
  rw [mem_diagnostics_build]
  refine or_congr_right ?_
  constructor
  · rintro (⟨id, -, hdiagnostic⟩ | ⟨l, hl, heq⟩)
    · cases kind_of_mem_diagnosticsOf hdiagnostic
    · have hmodule : l.module = m := (Option.some.inj (congrArg Diagnostic.module heq)).symm
      have horigin : l.origin = d.origin :=
        (String.append_left_inj _).1 (congrArg Diagnostic.message heq).symm
      have hlinks := (List.mem_filter.1 (mem_of_mem_firstOfEach hl)).1
      rcases mem_links.1 hlinks with ⟨-, -, -, hkind, -⟩ | ⟨r, -, -, -, hreference⟩
      · obtain ⟨e, he, rfl⟩ := mem_selfLinks_iff.1 ⟨hl, hmodule, hkind⟩
        exact ⟨e, he, horigin⟩
      · exact absurd (horigin.symm.trans hreference) (d.origin_ne _)
  · rintro ⟨e, he, horigin⟩
    have hl := (@mem_selfLinks_iff root _ _ _).2 ⟨e, he, rfl⟩
    refine .inr ⟨_, hl.1, ?_⟩
    rw [selfReport, ← horigin]
    rfl

/-- **Declarations that are reported to come back.** Apart from what its files
report already, a module is told that a declaration refers to the module itself
exactly if this is what the first one that comes back is called, and there is
such a declaration exactly if the path of some declaration leads to the module,
or leads to a directory that was not scanned while of all scanned modules only
this one has its basename. -/
theorem selfReference_mem_diagnostics_iff (root : ScanRoot) (fragments : List Fragment)
    (m : String) :
    (∀ d : Declaration,
      .selfReference m (d.origin ++ " refers to the module itself; edge ignored")
          ∈ (build root fragments).diagnostics
        ↔ (∃ f ∈ fragments,
            .selfReference m (d.origin ++ " refers to the module itself; edge ignored")
              ∈ f.diagnostics)
          ∨ ∃ e, IsFirstBack fragments m e ∧ e.origin = d.origin)
      ∧ ((∃ e, IsFirstBack fragments m e)
        ↔ ∃ e ∈ declarationsOf fragments m, e.target = some m
          ∨ ∃ t, e.target = some t ∧ ¬ IsScanned fragments t
            ∧ ∀ v, (IsScanned fragments v ∧ ModuleId.basename v = ModuleId.basename t) ↔ v = m) := by
  refine ⟨fun d => mem_diagnostics_build_selfReport, ?_⟩
  constructor
  · rintro ⟨e, he⟩
    refine ⟨e, he.mem, ?_⟩
    cases he.comesBack with
    | written htarget => exact .inl htarget
    | guessed htarget hunknown honly => exact .inr ⟨_, htarget, hunknown, honly⟩
  · rintro ⟨e, he, htarget | ⟨t, htarget, hunknown, honly⟩⟩
    · exact exists_isFirstBack he (.written htarget)
    · exact exists_isFirstBack he (.guessed htarget hunknown honly)

/-- A unit that depends on a module of its own name which is not where it is
looked for. -/
def strayVpc : List Fragment :=
  [{ Fragment.empty "app/vpc" "app/vpc/terragrunt.hcl" (some .orchestration) with
      declared := [⟨some "vpc", "../../moved/vpc", some "moved/vpc"⟩] }]

/-- **A path to another directory** is reported as one to the module itself. -/
theorem selfReference_mem_diagnostics_strayVpc :
    (⟨⟨"/stack"⟩⟩ : ScanRoot).resolve "app/vpc" "../../moved/vpc" = some "moved/vpc"
      ∧ (∀ d ∈ declarationsOf strayVpc "app/vpc", d.target ≠ some "app/vpc")
      ∧ (∀ f ∈ strayVpc, f.diagnostics = [])
      ∧ .selfReference "app/vpc" "dependency \"vpc\" refers to the module itself; edge ignored"
        ∈ (build ⟨⟨"/stack"⟩⟩ strayVpc).diagnostics := by
  have hdeclared : ∀ d, d ∈ declarationsOf strayVpc "app/vpc"
      ↔ d = ⟨some "vpc", "../../moved/vpc", some "moved/vpc"⟩ := by
    simp [strayVpc, Fragment.empty]
  have hscanned : ∀ v, IsScanned strayVpc v ↔ v = "app/vpc" := by
    simp [IsScanned, strayVpc, Fragment.empty, eq_comm]
  refine ⟨by decide, fun d hd => ?_, fun f hf => ?_, ?_⟩
  · rw [(hdeclared d).1 hd]
    decide
  · obtain rfl := List.mem_singleton.1 hf
    rfl
  · have hunknown : ¬ IsScanned strayVpc "moved/vpc" :=
      fun h => absurd ((hscanned _).1 h) (by decide)
    have honly : ∀ v, (IsScanned strayVpc v ∧ ModuleId.basename v = ModuleId.basename "moved/vpc")
        ↔ v = "app/vpc" := by
      intro v
      rw [hscanned, and_iff_left_iff_imp]
      rintro rfl
      decide
    obtain ⟨e, he⟩ := exists_isFirstBack ((hdeclared _).2 rfl) (.guessed rfl hunknown honly)
    obtain rfl := (hdeclared e).1 he.mem
    exact mem_diagnostics_build_selfReport.2 (.inr ⟨_, he, rfl⟩)

end Graph

end StackGraph
