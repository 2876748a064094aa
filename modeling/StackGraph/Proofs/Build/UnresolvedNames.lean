import StackGraph.Proofs.Build.OwnName
import StackGraph.Proofs.Runs
/-!
# Names that mean nothing

A module uses a name through references, possibly through many of them, one for
each output that it reads. What a reference means depends on what it goes
through and on the name alone, so all references through one name mean the same
(`Modules.resolveReference_congr`), and where they mean nothing one diagnostic
says so for all of them.

Here it is said when this is the case, in terms of the candidates for a name
(`NameCandidate`): there are several, or there is none and nothing in the module
accounts for that (`NamedInVain`). The reasons that the builder gives are the
same seen from the other end (`NameFails`).

That there is one diagnostic and no second one takes an argument about texts. At
the end all diagnostics are arranged together, and they no longer say which
reference they come from. But their wording does: it starts with the reference,
whose name ends at its second point
(`Reference.IsFound.via_and_name_of_message_eq`). The main statement is
`Graph.namedInVain_reported_once`.
-/

namespace StackGraph

open Std

variable {root : ScanRoot} {fragments : List Fragment} {id name t : String} {r r' : Reference}
variable {via : Via} {failure : ReferenceFailure}

/-! ## Candidates -/

/-- **The candidates for a name**, by what it is used through. A nested module
whose source lies elsewhere leaves none. -/
inductive NameCandidate (root : ScanRoot) (fragments : List Fragment) (id name : String) :
    Via → String → Prop
  /-- Through a dependency, what the dependency of the name means. -/
  | dependency {t : String} (hmeans : DependencyMeans fragments id name t) :
    NameCandidate root fragments id name .dependency t
  /-- Through a nested module, whose source if any is local, its candidates. -/
  | module {t : String}
      (hlocal : ∀ source, Invokes fragments id name source → isLocalSource source = true)
      (hcandidate : Candidate root fragments id name t) :
    NameCandidate root fragments id name .module t

/-- **A name is used in vain** in a directory. -/
inductive NamedInVain (root : ScanRoot) (fragments : List Fragment) (id name : String)
    (via : Via) : Prop
  /-- There are two candidates. -/
  | several {t u : String} (ht : NameCandidate root fragments id name via t)
      (hu : NameCandidate root fragments id name via u) (hne : t ≠ u) :
    NamedInVain root fragments id name via
  /-- There is no candidate, and no nested module or declaration of the name
  that accounts for this. -/
  | unknown (hnone : ∀ t, ¬ NameCandidate root fragments id name via t)
      (huninvoked : via = .module → ∀ source, ¬ Invokes fragments id name source)
      (hundeclared : ∀ d ∈ declarationsOf fragments id, d.name ≠ some name) :
    NamedInVain root fragments id name via

/-- **Why a name means no module.** -/
inductive NameFails (root : ScanRoot) (fragments : List Fragment) (id name : String) :
    Via → ReferenceFailure → Prop
  /-- No dependency has the name. -/
  | noBlock (hundeclared : ∀ d ∈ declarationsOf fragments id, d.name ≠ some name) :
    NameFails root fragments id name .dependency .noBlock
  /-- Nothing has the name. -/
  | noCandidate (hnone : ∀ t, ¬ Candidate root fragments id name t)
      (huninvoked : ∀ source, ¬ Invokes fragments id name source)
      (hundeclared : ∀ d ∈ declarationsOf fragments id, d.name ≠ some name) :
    NameFails root fragments id name .module .noCandidate
  /-- The candidates are those listed. -/
  | ambiguous {ids : List String}
      (hlocal : ∀ source, Invokes fragments id name source → isLocalSource source = true)
      (hids : ∀ t, t ∈ ids ↔ Candidate root fragments id name t)
      (hordered : ids.Pairwise (· < ·)) (hseveral : 2 ≤ ids.length) :
    NameFails root fragments id name .module (.ambiguous ids)

/-- The last declaration of a name means one module only. -/
theorem DependencyMeans.unique {u : String} (ht : DependencyMeans fragments id name t)
    (hu : DependencyMeans fragments id name u) : t = u := by
  rw [← @Modules.namedDependencies_eq_some_iff ⟨⟨""⟩⟩] at ht hu
  exact Option.some.inj (Option.some.inj (ht.symm.trans hu))

namespace Modules

/-! ## The reasons that the builder gives -/

/-- The candidates that the builder finds for a nested module, in order. -/
def candidatesOf (root : ScanRoot) (fragments : List Fragment) (id name : String) : List String :=
  let modules := ofFragments root fragments
  let m := merged root fragments id
  (ExtTreeSet.ofList
    ((m.invocations[name]?.bind (invocationTarget? root modules m)).toList
      ++ ((modules.namedDependencies m)[name]?.getD none).toList
      ++ (modules.siblingModule? m name).toList) compare).toList

theorem mem_candidatesOf (hlocal : ∀ source, Invokes fragments id name source →
    isLocalSource source = true) :
    t ∈ candidatesOf root fragments id name ↔ Candidate root fragments id name t := by
  rw [candidatesOf, ExtTreeSet.mem_toList, mem_setOfList, mem_candidates hlocal]

theorem pairwise_candidatesOf : (candidatesOf root fragments id name).Pairwise (· < ·) :=
  ExtTreeSet.ordered_toList.imp compareName_eq_lt.1

/-- **Nothing accounts for the lack of candidates** exactly if no nested module
and no declaration has the name. -/
theorem inside_eq_false_iff (h : candidatesOf root fragments id name = []) :
    ((((merged root fragments id).invocations[name]?).isSome
        && ((merged root fragments id).invocations[name]?.bind (invocationTarget? root
          (ofFragments root fragments) (merged root fragments id))).isNone)
      || ((ofFragments root fragments).namedDependencies (merged root fragments id))[name]?
        == some none) = false
      ↔ (∀ source, ¬ Invokes fragments id name source)
        ∧ ∀ d ∈ declarationsOf fragments id, d.name ≠ some name := by
  have hnone : ∀ t, t ∉ candidatesOf root fragments id name := fun t ht => by
    rw [h] at ht
    exact List.not_mem_nil ht
  simp only [candidatesOf, ExtTreeSet.mem_toList, mem_setOfList, List.mem_append, not_or,
    Option.mem_toList] at hnone
  have hinvoked := Option.eq_none_iff_forall_ne_some.2 fun t => (hnone t).1.1
  have hnamed := Option.eq_none_iff_forall_ne_some.2 fun t => (hnone t).1.2
  rw [hinvoked, Option.isNone_none, Bool.and_true, Bool.or_eq_false_iff,
    Option.isSome_eq_false_iff, Option.isNone_iff_eq_none,
    ← @getElem?_namedDependencies_eq_none root]
  refine and_congr ?_ ?_
  · rw [Option.eq_none_iff_forall_ne_some]
    exact forall_congr' fun source => not_congr invocations_merged_eq_some_iff
  · -- a declaration of the name means nothing, or it would be a candidate
    rcases Option.getD_eq_iff.1 hnamed with hnothing | ⟨hundeclared, -⟩
    · rw [hnothing]
      exact iff_of_false (by decide) (by rintro ⟨⟩)
    · rw [hundeclared]
      exact iff_of_true (by decide) rfl

/-- A choice fails if there are several candidates, or none where there should
be one. -/
theorem choose_eq_nothing_iff {candidates : List String} {inside : Bool} :
    choose candidates inside = .nothing failure
      ↔ (candidates = [] ∧ inside = false ∧ failure = .noCandidate)
        ∨ 2 ≤ candidates.length ∧ failure = .ambiguous candidates := by
  match candidates with
  | [] => cases inside <;> simp [choose, eq_comm]
  | [_] => simp [choose]
  | _ :: _ :: _ => simp [choose, eq_comm]

/-- **A reference through a nested module means nothing** exactly if its name
fails, and for the same reason. -/
theorem resolveNested_eq_nothing_iff :
    (ofFragments root fragments).resolveNested root (merged root fragments id)
        ((ofFragments root fragments).namedDependencies (merged root fragments id)) r
        = .nothing failure
      ↔ NameFails root fragments id r.name .module failure := by
  rw [resolveNested]
  split
  · rename_i hforeign
    obtain ⟨source, hinvokes, hsource⟩ := (Option.any_eq_true _ _).1 hforeign
    replace hinvokes := invocations_merged_eq_some_iff.1 hinvokes
    refine iff_of_false (by rintro ⟨⟩) fun h => ?_
    cases h with
    | noCandidate _ huninvoked _ => exact huninvoked source hinvokes
    | ambiguous hlocal _ _ _ =>
      rw [hlocal source hinvokes] at hsource
      cases hsource
  · rename_i hnear
    have hlocal : ∀ source, Invokes fragments id r.name source → isLocalSource source = true := by
      intro source hinvokes
      have hsome := (@invocations_merged_eq_some_iff root _ _ _ _).2 hinvokes
      simpa [hsome] using hnear
    show choose (candidatesOf root fragments id r.name) _ = _ ↔ _
    rw [choose_eq_nothing_iff]
    constructor
    · rintro (⟨hnil, hinside, rfl⟩ | ⟨hseveral, rfl⟩)
      · obtain ⟨huninvoked, hundeclared⟩ := (inside_eq_false_iff hnil).1 hinside
        refine .noCandidate (fun t ht => ?_) huninvoked hundeclared
        rw [← mem_candidatesOf hlocal, hnil] at ht
        exact List.not_mem_nil ht
      · exact .ambiguous hlocal (fun _ => mem_candidatesOf hlocal) pairwise_candidatesOf hseveral
    · intro h
      cases h with
      | noCandidate hnone huninvoked hundeclared =>
        have hnil : candidatesOf root fragments id r.name = [] :=
          List.eq_nil_iff_forall_not_mem.2 fun t ht => hnone t ((mem_candidatesOf hlocal).1 ht)
        exact .inl ⟨hnil, (inside_eq_false_iff hnil).2 ⟨huninvoked, hundeclared⟩, rfl⟩
      | ambiguous _ hids hordered hseveral =>
        have hsame := hordered.eq_of_mem_iff pairwise_candidatesOf fun t =>
          (hids t).trans (mem_candidatesOf hlocal).symm
        rw [hsame] at hseveral ⊢
        exact .inr ⟨hseveral, rfl⟩

/-- **A reference means nothing exactly if its name fails**, and for the same
reason. -/
theorem resolveReference_eq_nothing_iff_nameFails :
    (ofFragments root fragments).resolveReference root (merged root fragments id)
        ((ofFragments root fragments).namedDependencies (merged root fragments id)) r
        = .nothing failure
      ↔ NameFails root fragments id r.name r.via failure := by
  cases hvia : r.via with
  | dependency =>
    rw [resolveReference_eq_nothing_iff hvia]
    constructor
    · rintro ⟨rfl, hundeclared⟩
      exact .noBlock hundeclared
    · rintro ⟨hundeclared⟩
      exact ⟨rfl, hundeclared⟩
  | module =>
    rw [resolveReference, hvia]
    exact resolveNested_eq_nothing_iff

end Modules

open Modules in
/-- **A name is used in vain exactly if there is a reason for it.** -/
theorem exists_nameFails_iff :
    (∃ failure, NameFails root fragments id name via failure)
      ↔ NamedInVain root fragments id name via := by
  constructor
  · rintro ⟨failure, h⟩
    cases h with
    | noBlock hundeclared =>
      refine .unknown (fun t ht => ?_) (by rintro ⟨⟩) hundeclared
      cases ht with
      | dependency hmeans => exact not_dependencyMeans hundeclared hmeans
    | noCandidate hnone huninvoked hundeclared =>
      refine .unknown (fun t ht => ?_) (fun _ => huninvoked) hundeclared
      cases ht with
      | module _ hcandidate => exact hnone t hcandidate
    | @ambiguous ids hlocal hids hordered hseveral =>
      match ids, hseveral with
      | t :: u :: _, _ =>
        have hlt : t < u := (List.pairwise_cons.1 hordered).1 u List.mem_cons_self
        exact .several (.module hlocal ((hids t).1 List.mem_cons_self))
          (.module hlocal ((hids u).1 (List.mem_cons_of_mem _ List.mem_cons_self))) hlt.ne
  · intro h
    cases h with
    | several ht hu hne =>
      cases ht with
      | dependency ht =>
        cases hu with
        | dependency hu => exact absurd (ht.unique hu) hne
      | module hlocal ht =>
        cases hu with
        | module _ hu =>
          refine ⟨_, .ambiguous hlocal (fun _ => mem_candidatesOf hlocal) pairwise_candidatesOf ?_⟩
          exact two_le_length ((mem_candidatesOf hlocal).2 ht) ((mem_candidatesOf hlocal).2 hu) hne
    | unknown hnone huninvoked hundeclared =>
      cases via with
      | dependency => exact ⟨_, .noBlock hundeclared⟩
      | module =>
        refine ⟨_, .noCandidate (fun t ht => hnone t (.module (fun source hsource => ?_) ht))
          (huninvoked rfl) hundeclared⟩
        exact absurd hsource (huninvoked rfl source)

/-! ## The wording tells the name -/

namespace Reference.IsFound

/-- **The wording of a failure starts with the reference**: its word, a point, its
name and another point. -/
theorem exists_toList_message_eq (h : r.IsFound) (failure : ReferenceFailure) :
    '.' ∉ r.name.toList ∧ ∃ rest, (failure.message r).toList
      = r.via.word.toList ++ '.' :: (r.name.toList ++ '.' :: rest) := by
  cases h with
  | module hname _ =>
    refine ⟨hname, ?_⟩
    cases failure <;> simp [ReferenceFailure.message, ofModule, Via.word]
  | dependency hname _ =>
    refine ⟨hname, ?_⟩
    cases failure <;> simp [ReferenceFailure.message, ofDependency, Via.word]

/-- **The wording tells which name failed**, and what it is used through. -/
theorem via_and_name_of_message_eq {failure' : ReferenceFailure} (hr : r.IsFound)
    (hr' : r'.IsFound) (h : failure.message r = failure'.message r') :
    r.via = r'.via ∧ r.name = r'.name := by
  obtain ⟨hname, rest, hmessage⟩ := hr.exists_toList_message_eq failure
  obtain ⟨hname', rest', hmessage'⟩ := hr'.exists_toList_message_eq failure'
  rw [h, hmessage'] at hmessage
  obtain ⟨hword, hrest⟩ :=
    Text.append_cons_inj (Via.notMem_word _) (Via.notMem_word _) hmessage
  obtain ⟨hsame, -⟩ := Text.append_cons_inj hname' hname hrest
  exact ⟨(Via.eq_of_word_eq (String.toList_inj.1 hword)).symm, (String.toList_inj.1 hsame).symm⟩

end Reference.IsFound

/-! ## What is reported of a name -/

/-- **A diagnostic is about a name** of a module, by what it is used through: it is
the wording of a failure of some reference of the name. -/
def Diagnostic.IsAbout (d : Diagnostic) (id name : String) (via : Via) : Prop :=
  ∃ (r : Reference) (failure : ReferenceFailure), r.IsFound ∧ r.name = name ∧ r.via = via
    ∧ d = .resolution id (failure.message r)

namespace Modules

/-- A module is said to use a name in vain by one reference only. -/
theorem unique_of_mem_unresolvedOf {modules : Modules} {m : Module} {failure' : ReferenceFailure}
    (h : (r, failure) ∈ modules.unresolvedOf root m)
    (h' : (r', failure') ∈ modules.unresolvedOf root m) (hvia : r.via = r'.via)
    (hname : r.name = r'.name) : r = r' ∧ failure = failure' :=
  Prod.mk.inj (eq_of_mem_firstOfEach h h' (Prod.ext hvia hname))

end Modules

namespace Graph

open Modules

/-- **What a build adds about a name** to what the files bring: one diagnostic
about it, or none. -/
structure AddsOnly (root : ScanRoot) (fragments : List Fragment) (id name : String) (via : Via)
    (report : Option Diagnostic) : Prop where
  isAbout : ∀ d ∈ report, d.IsAbout id name via
  mem_iff : ∀ d, d.IsAbout id name via → (d ∈ (build root fragments).diagnostics
    ↔ d ∈ report ∨ ∃ f ∈ fragments, d ∈ f.diagnostics)

/-- **What is reported about a name** comes with a file, or says that a reference of
this name means nothing. -/
theorem mem_diagnostics_iff_of_isAbout {d : Diagnostic}
    (hfound : ∀ f ∈ fragments, ∀ r ∈ f.references, r.IsFound) (hid : IsScanned fragments id)
    (h : d.IsAbout id name via) :
    d ∈ (build root fragments).diagnostics
      ↔ (∃ r failure,
          (r, failure) ∈ (ofFragments root fragments).unresolvedOf root (merged root fragments id)
            ∧ r.name = name ∧ r.via = via ∧ d = .resolution id (failure.message r))
        ∨ ∃ f ∈ fragments, d ∈ f.diagnostics := by
  obtain ⟨r, failure, hr, rfl, rfl, rfl⟩ := h
  rw [mem_diagnostics_build, or_comm]
  refine or_congr_left ?_
  constructor
  · rintro (⟨id', -, hd⟩ | ⟨l, -, hd⟩)
    · rw [diagnosticsOf, List.mem_append, id_merged] at hd
      rcases hd with hd | hd
      · obtain ⟨e, -, hsome⟩ := List.mem_filterMap.1 hd
        unfold declarationDiagnostic? at hsome
        split at hsome
        · obtain ⟨-, rest, hmessage⟩ := hr.exists_toList_message_eq failure
          have hwording := congrArg Diagnostic.message (Option.some.inj hsome)
          exact absurd ((congrArg String.toList hwording).trans hmessage)
            DeclarationFailure.message_ne_append
        · cases hsome
      · obtain ⟨⟨r', failure'⟩, hmem, heq⟩ := List.mem_map.1 hd
        obtain rfl : id' = id := Option.some.inj (congrArg Diagnostic.module heq)
        obtain ⟨f, hf, -, hrf⟩ := mem_references_merged.1 (of_mem_unresolvedOf hmem).1
        obtain ⟨hvia, hname⟩ := (hfound f hf r' hrf).via_and_name_of_message_eq hr
          (congrArg Diagnostic.message heq)
        exact ⟨r', failure', hmem, hname, hvia, heq.symm⟩
    · cases congrArg Diagnostic.kind hd
  · rintro ⟨r', failure', hmem, -, -, heq⟩
    refine .inl ⟨id, hid, List.mem_append_right _ (List.mem_map.2 ⟨_, hmem, ?_⟩)⟩
    rw [id_merged, heq]

/-- **A name that is used in vain is reported once**, with the reason. -/
theorem addsOnly_of_nameFails (hfound : ∀ f ∈ fragments, ∀ r ∈ f.references, r.IsFound)
    (hr : Refers fragments id r) (hfails : NameFails root fragments id r.name r.via failure) :
    ∃ r', Refers fragments id r' ∧ r'.name = r.name ∧ r'.via = r.via
      ∧ AddsOnly root fragments id r.name r.via (some (.resolution id (failure.message r'))) := by
  have hnothing := resolveReference_eq_nothing_iff_nameFails.2 hfails
  obtain ⟨r', failure', hmem, hvia, hname⟩ :=
    exists_mem_unresolvedOf (mem_references_merged.2 hr) hnothing
  obtain ⟨hr', hnothing'⟩ := of_mem_unresolvedOf hmem
  -- the reference that is reported in its place fails for the same reason
  rw [resolveReference_congr hvia hname, hnothing] at hnothing'
  cases hnothing'
  replace hr' : Refers fragments id r' := mem_references_merged.1 hr'
  refine ⟨r', hr', hname, hvia, ⟨?_, fun d hd => ?_⟩⟩
  · rintro d ⟨⟩
    obtain ⟨f, hf, -, hrf⟩ := hr'
    exact ⟨r', failure, hfound f hf r' hrf, hname, hvia, rfl⟩
  · rw [mem_diagnostics_iff_of_isAbout hfound hr.isScanned hd, Option.mem_some_iff]
    refine or_congr_left ⟨?_, ?_⟩
    · rintro ⟨s, failure', hs, hsname, hsvia, rfl⟩
      obtain ⟨rfl, rfl⟩ :=
        unique_of_mem_unresolvedOf hmem hs (hvia.trans hsvia.symm) (hname.trans hsname.symm)
      rfl
    · rintro rfl
      exact ⟨r', failure, hmem, hname, hvia, rfl⟩

/-- **A name that is not used in vain is not reported.** -/
theorem addsOnly_none (hfound : ∀ f ∈ fragments, ∀ r ∈ f.references, r.IsFound)
    (hid : IsScanned fragments id) (h : ¬ NamedInVain root fragments id name via) :
    AddsOnly root fragments id name via none := by
  refine ⟨by simp, fun d hd => ?_⟩
  rw [mem_diagnostics_iff_of_isAbout hfound hid hd]
  refine or_congr_left (iff_of_false ?_ (by simp))
  rintro ⟨s, failure, hs, rfl, rfl, -⟩
  have hfails := resolveReference_eq_nothing_iff_nameFails.1 (of_mem_unresolvedOf hs).2
  exact h (exists_nameFails_iff.1 ⟨failure, hfails⟩)

/-- **Names that are used in vain are reported once**, each with one diagnostic
for the module and what it is used through, and no other name is reported. This
does not depend on how many references there are, since all references of a
module through one name mean the same. A nested module whose source lies
elsewhere leaves no candidates. -/
theorem namedInVain_reported_once (root : ScanRoot) (fragments : List Fragment)
    (hfound : ∀ f ∈ fragments, ∀ r ∈ f.references, r.IsFound) (id : String) (m : Module)
    (hm : (build root fragments).graph.modules[id]? = some m) (r : Reference)
    (hr : r ∈ m.references) :
    (NamedInVain root fragments id r.name r.via → ∃ r' ∈ m.references, ∃ failure,
        r'.name = r.name ∧ r'.via = r.via ∧ NameFails root fragments id r.name r.via failure
          ∧ AddsOnly root fragments id r.name r.via (some (.resolution id (failure.message r'))))
      ∧ (¬ NamedInVain root fragments id r.name r.via →
        AddsOnly root fragments id r.name r.via none)
      ∧ (build root fragments).diagnostics.Nodup
      ∧ (∀ r' ∈ m.references, r'.name = r.name → r'.via = r.via →
        let resolve := (ofFragments root fragments).resolveReference root
          (merged root fragments id)
          ((ofFragments root fragments).namedDependencies (merged root fragments id))
        resolve r' = resolve r)
      ∧ ∀ source, Invokes fragments id r.name source → isLocalSource source = false →
        ∀ t, ¬ NameCandidate root fragments id r.name .module t := by
  have hrefers : ∀ r', r' ∈ m.references ↔ Refers fragments id r' := fun r' => by
    rw [eq_settle_of_getElem?_build hm]
    exact mem_references_merged
  replace hr := (hrefers r).1 hr
  refine ⟨fun hvain => ?_, addsOnly_none hfound hr.isScanned, Diagnostic.nodup_arrange,
    fun r' _ hname hvia => resolveReference_congr hvia hname, ?_⟩
  · obtain ⟨failure, hfails⟩ := exists_nameFails_iff.2 hvain
    obtain ⟨r', hr', hname, hvia, honly⟩ := addsOnly_of_nameFails hfound hr hfails
    exact ⟨r', (hrefers r').2 hr', failure, hname, hvia, hfails, honly⟩
  · rintro source hinvokes hforeign t (_ | ⟨hlocal, -⟩)
    rw [hlocal source hinvokes] at hforeign
    cases hforeign

/-- A unit that reads two outputs of a module that nobody knows. -/
def strayLog : List Fragment :=
  [{ Fragment.empty "live/app" "live/app/main.tf" (some .moduleDefinition) with
      references := [.ofModule "log" "id", .ofModule "log" "arn"] }]

/-- The unit once its links are known. -/
def strayUnit : Module :=
  settle ((ofFragments ⟨⟨"/stack"⟩⟩ strayLog).links ⟨⟨"/stack"⟩⟩)
    (merged ⟨⟨"/stack"⟩⟩ strayLog "live/app")

theorem isScanned_strayLog : IsScanned strayLog id ↔ id = "live/app" := by
  simp [IsScanned, strayLog, Fragment.empty, eq_comm]

theorem getElem?_strayLog :
    (build ⟨⟨"/stack"⟩⟩ strayLog).graph.modules["live/app"]? = some strayUnit := by
  have hscanned : fragmentsOf strayLog "live/app" ≠ [] := by
    rw [ne_eq, fragmentsOf_eq_nil, not_not]
    exact isScanned_strayLog.2 rfl
  rw [modules_build, ExtTreeMap.getElem?_map, getElem?_ofFragments, if_neg hscanned]
  rfl

theorem namedInVain_strayLog : NamedInVain ⟨⟨"/stack"⟩⟩ strayLog "live/app" "log" .module := by
  have huninvoked : ∀ source, ¬ Invokes strayLog "live/app" "log" source := by
    rintro source ⟨⟨f, hf, -, hsource⟩, -⟩
    obtain rfl := List.mem_singleton.1 hf
    cases hsource
  have hundeclared : ∀ d ∈ declarationsOf strayLog "live/app", d.name ≠ some "log" := by
    intro d hd
    obtain ⟨f, hf, -, hdeclared⟩ := mem_declarationsOf.1 hd
    obtain rfl := List.mem_singleton.1 hf
    exact absurd hdeclared List.not_mem_nil
  refine .unknown (fun t ht => ?_) (fun _ => huninvoked) hundeclared
  cases ht with
  | module _ hcandidate =>
    cases hcandidate with
    | invoked hinvokes _ _ _ => exact huninvoked _ hinvokes
    | declared hmeans => exact not_dependencyMeans hundeclared hmeans
    | beside hsibling hscanned =>
      have hlog : ModuleId.sibling "live/app" "log" = some "live/log" := by decide
      obtain rfl := Option.some.inj (hlog.symm.trans hsibling)
      exact absurd (isScanned_strayLog.1 hscanned) (by decide)

/-- The two references of the example leave one diagnostic. -/
theorem namedInVain_reported_once_strayLog :
    (∀ f ∈ strayLog, ∀ r ∈ f.references, r.IsFound)
      ∧ (build ⟨⟨"/stack"⟩⟩ strayLog).graph.modules["live/app"]? = some strayUnit
      ∧ .ofModule "log" "id" ∈ strayUnit.references ∧ .ofModule "log" "arn" ∈ strayUnit.references
      ∧ ∃ d, AddsOnly ⟨⟨"/stack"⟩⟩ strayLog "live/app" "log" .module (some d) := by
  have hfound : ∀ f ∈ strayLog, ∀ r ∈ f.references, r.IsFound := by
    intro f hf r hr
    obtain rfl := List.mem_singleton.1 hf
    rcases List.mem_pair.1 hr with rfl | rfl <;> exact .module (by decide) (by decide)
  have hrefers : ∀ output ∈ ["id", "arn"], .ofModule "log" output ∈ strayUnit.references := by
    intro output houtput
    refine mem_references_merged.2 ⟨_, List.mem_cons_self, rfl, ?_⟩
    exact List.mem_map_of_mem houtput
  have hid := hrefers "id" (by decide)
  refine ⟨hfound, getElem?_strayLog, hid, hrefers "arn" (by decide), ?_⟩
  obtain ⟨_, -, _, -, -, -, honly⟩ :=
    (namedInVain_reported_once _ _ hfound _ _ getElem?_strayLog _ hid).1 namedInVain_strayLog
  exact ⟨_, honly⟩

end Graph

end StackGraph
