import StackGraph.Proofs.Build.Merging
/-!
# What declarations and references mean

A declaration or a reference is resolved by looking things up: in the map of
modules, in the list of modules of one name, in a map from the names of
dependencies. Here the same is said without any map, from the fragments alone.

A declaration means the module that its path leads to, or else the only module
of the same basename (`DeclarationMeans`). A name means what the last
declaration of that name means, even if that is nothing (`DependencyMeans`). A
reference through a dependency means what its name means; a reference through
a nested module means the only one of up to three candidates, unless the
source of the nested module lies outside the scanned tree (`ReferenceMeans`).

For each of the three there is one statement that the function of the builder
gives a module exactly if this is its meaning. After them no proof needs to
look into these functions again.
-/

namespace StackGraph

open Std

/-! ## The meanings -/

/-- **What a declaration means.** -/
inductive DeclarationMeans (fragments : List Fragment) (d : Declaration) : String → Prop
  /-- Its path leads to a scanned module. -/
  | scanned {t : String} (htarget : d.target = some t) (hscanned : IsScanned fragments t) :
    DeclarationMeans fragments d t
  /-- Its path leads elsewhere, but exactly one scanned module has the
  basename of the path. -/
  | basename {t u : String} (htarget : d.target = some t) (hunknown : ¬ IsScanned fragments t)
      (honly : ∀ v, (IsScanned fragments v ∧ ModuleId.basename v = ModuleId.basename t) ↔ v = u) :
    DeclarationMeans fragments d u

/-- **Why a declaration means no module.** -/
inductive DeclarationFails (fragments : List Fragment) (d : Declaration) :
    DeclarationFailure → Prop
  /-- Its path leads out of the scan root. -/
  | outside (htarget : d.target = none) : DeclarationFails fragments d .outside
  /-- No scanned module has its path or the basename of its path. -/
  | unknown {t : String} (htarget : d.target = some t) (hunknown : ¬ IsScanned fragments t)
      (hnone : ∀ v, IsScanned fragments v → ModuleId.basename v ≠ ModuleId.basename t) :
    DeclarationFails fragments d .unknown
  /-- No scanned module has its path, and those listed have its basename. -/
  | ambiguous {t : String} {ids : List String} (htarget : d.target = some t)
      (hunknown : ¬ IsScanned fragments t)
      (hids : ∀ v, v ∈ ids ↔ IsScanned fragments v ∧ ModuleId.basename v = ModuleId.basename t)
      (hnodup : ids.Nodup) (hseveral : 2 ≤ ids.length) :
    DeclarationFails fragments d (.ambiguous ids)

/-- The declarations in one directory, in the order of its files. -/
def declarationsOf (fragments : List Fragment) (id : String) : List Declaration :=
  (fragmentsOf fragments id).flatMap Fragment.declared

/-- The last declaration of a name in one directory. -/
def lastNamed? (fragments : List Fragment) (id name : String) : Option Declaration :=
  ((declarationsOf fragments id).filter (·.name = some name)).getLast?

/-- **What the name of a dependency means** in one directory. -/
def DependencyMeans (fragments : List Fragment) (id name t : String) : Prop :=
  ∃ d, lastNamed? fragments id name = some d ∧ DeclarationMeans fragments d t

/-- **The source of a nested module** of one directory: the least that a
fragment of it gives. -/
structure Invokes (fragments : List Fragment) (id name source : String) : Prop where
  given : ∃ f ∈ fragments, f.moduleId = id ∧ f.invocations[name]? = some source
  least : ∀ f ∈ fragments, f.moduleId = id → ∀ other, f.invocations[name]? = some other →
    source ≤ other

/-- **The candidates for a nested module** of the given name. -/
inductive Candidate (root : ScanRoot) (fragments : List Fragment) (id name : String) :
    String → Prop
  /-- The scanned module that its local source leads to. -/
  | invoked {source t : String} (hinvokes : Invokes fragments id name source)
      (hlocal : isLocalSource source = true) (htarget : root.resolve id source = some t)
      (hscanned : IsScanned fragments t) : Candidate root fragments id name t
  /-- What the dependency of its name means. -/
  | declared {t : String} (hmeans : DependencyMeans fragments id name t) :
    Candidate root fragments id name t
  /-- The scanned module in a directory of its name beside this one. -/
  | beside {t : String} (hsibling : ModuleId.sibling id name = some t)
      (hscanned : IsScanned fragments t) : Candidate root fragments id name t

/-- **What a reference means** in one directory. -/
inductive ReferenceMeans (root : ScanRoot) (fragments : List Fragment) (id : String)
    (r : Reference) : String → Prop
  /-- A reference through a dependency means what its name means. -/
  | dependency {t : String} (hvia : r.via = .dependency)
      (hmeans : DependencyMeans fragments id r.name t) : ReferenceMeans root fragments id r t
  /-- A reference through a nested module, whose source if any is local, means
  the only candidate. -/
  | module {t : String} (hvia : r.via = .module)
      (hlocal : ∀ source, Invokes fragments id r.name source → isLocalSource source = true)
      (honly : ∀ u, Candidate root fragments id r.name u ↔ u = t) :
    ReferenceMeans root fragments id r t

variable {root : ScanRoot} {fragments : List Fragment} {id name t : String}

/-- Whatever a declaration means was scanned. -/
theorem DeclarationMeans.isScanned {d : Declaration} (h : DeclarationMeans fragments d t) :
    IsScanned fragments t := by
  cases h with
  | scanned _ hscanned => exact hscanned
  | basename _ _ honly => exact ((honly t).2 rfl).1

theorem not_declarationMeans_of_none {d : Declaration} (h : d.target = none) :
    ¬ DeclarationMeans fragments d t := by
  intro hmeans
  cases hmeans with
  | scanned htarget _ => rw [h] at htarget; cases htarget
  | basename htarget _ _ => rw [h] at htarget; cases htarget

/-- A path to a scanned module leaves no choice. -/
theorem declarationMeans_iff_of_scanned {d : Declaration} {u : String} (h : d.target = some u)
    (hscanned : IsScanned fragments u) : DeclarationMeans fragments d t ↔ t = u := by
  constructor
  · intro hmeans
    cases hmeans with
    | scanned htarget _ => rw [h] at htarget; cases htarget; rfl
    | basename htarget hunknown _ =>
      rw [h] at htarget
      cases htarget
      exact absurd hscanned hunknown
  · rintro rfl
    exact .scanned h hscanned

/-- Any other path is a matter of its basename. -/
theorem declarationMeans_iff_of_unknown {d : Declaration} {u : String} (h : d.target = some u)
    (hunknown : ¬ IsScanned fragments u) :
    DeclarationMeans fragments d t
      ↔ ∀ v, (IsScanned fragments v ∧ ModuleId.basename v = ModuleId.basename u) ↔ v = t := by
  constructor
  · intro hmeans
    cases hmeans with
    | scanned htarget hscanned =>
      rw [h] at htarget
      cases htarget
      exact absurd hscanned hunknown
    | basename htarget _ honly => rw [h] at htarget; cases htarget; exact honly
  · exact .basename h hunknown

theorem DependencyMeans.isScanned (h : DependencyMeans fragments id name t) :
    IsScanned fragments t := by
  obtain ⟨d, -, hd⟩ := h
  exact hd.isScanned

theorem Candidate.isScanned (h : Candidate root fragments id name t) : IsScanned fragments t := by
  cases h with
  | invoked _ _ _ hscanned => exact hscanned
  | declared hmeans => exact hmeans.isScanned
  | beside _ hscanned => exact hscanned

/-- Whatever a reference means was scanned. -/
theorem ReferenceMeans.isScanned {r : Reference} (h : ReferenceMeans root fragments id r t) :
    IsScanned fragments t := by
  cases h with
  | dependency _ hmeans => exact hmeans.isScanned
  | module _ _ honly => exact ((honly t).2 rfl).isScanned

/-! ## The functions of the builder give these meanings -/

namespace Modules

/-- The modules of a basename. -/
theorem mem_named {b : String} :
    t ∈ named (ofFragments root fragments) b
      ↔ IsScanned fragments t ∧ ModuleId.basename t = b := by
  rw [named, List.mem_filter, ExtTreeMap.mem_keys, mem_ofFragments, beq_iff_eq]

theorem nodup_named {modules : Modules} {b : String} : (modules.named b).Nodup :=
  ExtTreeMap.nodup_keys.filter _

/-- **A declaration resolves to what it means.** -/
theorem resolveDeclaration_eq_ok_iff {d : Declaration} :
    (ofFragments root fragments).resolveDeclaration d = .ok t ↔ DeclarationMeans fragments d t := by
  unfold resolveDeclaration
  split
  · rename_i hnone
    exact iff_of_false (by rintro ⟨⟩) (not_declarationMeans_of_none hnone)
  · rename_i target hsome
    split
    · rename_i hmem
      rw [declarationMeans_iff_of_scanned hsome (mem_ofFragments.1 hmem), Except.ok.injEq, eq_comm]
    · rename_i hunknown
      rw [mem_ofFragments] at hunknown
      rw [declarationMeans_iff_of_unknown hsome hunknown]
      simp only [← @mem_named root]
      rw [← eq_singleton_iff nodup_named]
      -- what remains is how a list of candidates is read
      split
      · rename_i hnil
        simp [hnil]
      · rename_i only hone
        simp [hone]
      · rename_i hnot
        exact iff_of_false (by rintro ⟨⟩) (hnot t)

/-- **A declaration that resolves to nothing fails for the reason given.** -/
theorem fails_of_resolveDeclaration_eq_error {d : Declaration} {failure : DeclarationFailure}
    (h : (ofFragments root fragments).resolveDeclaration d = .error failure) :
    DeclarationFails fragments d failure := by
  unfold resolveDeclaration at h
  split at h
  · rename_i hnone
    cases h
    exact .outside hnone
  · rename_i target hsome
    split at h
    · cases h
    · rename_i hunknown
      rw [mem_ofFragments] at hunknown
      split at h
      · rename_i hnil
        cases h
        refine .unknown hsome hunknown fun v hv hbase => ?_
        have hmem : v ∈ named (ofFragments root fragments) (ModuleId.basename target) :=
          mem_named.2 ⟨hv, hbase⟩
        rw [hnil] at hmem
        exact List.not_mem_nil hmem
      · cases h
      · rename_i hnotNil hnotOne
        cases h
        refine .ambiguous hsome hunknown (fun v => mem_named) nodup_named ?_
        match hids : named (ofFragments root fragments) (ModuleId.basename target) with
        | [] => exact absurd hids hnotNil
        | [only] => exact absurd hids (hnotOne only)
        | _ :: _ :: _ => exact Nat.le_add_left 2 _

/-- The last declaration of a name decides what the name resolves to. -/
theorem getElem?_namedDependencies {modules : Modules} {m : Module} :
    (modules.namedDependencies m)[name]?
      = ((m.declarations.filter (·.name = some name)).getLast?).map
          fun d => (modules.resolveDeclaration d).toOption := by
  have hfilter : ∀ ds : List Declaration,
      (ds.filterMap fun d => d.name.map fun n => (n, (modules.resolveDeclaration d).toOption)).filter
          (·.1 = name)
        = (ds.filter (·.name = some name)).map
            fun d => (name, (modules.resolveDeclaration d).toOption) := by
    intro ds
    induction ds with
    | nil => rfl
    | cons d ds ih =>
      cases hname : d.name with
      | none => simp [hname, ih]
      | some n =>
        by_cases hn : n = name
        · simp [hname, hn, ih]
        · simp [hname, hn, ih]
  rw [namedDependencies, getElem?_mapOfList, hfilter, List.getLast?_map, Option.map_map]
  rfl

/-- **The name of a dependency resolves to what it means.** -/
theorem namedDependencies_eq_some_iff :
    ((ofFragments root fragments).namedDependencies (merged root fragments id))[name]?
        = some (some t)
      ↔ DependencyMeans fragments id name t := by
  rw [getElem?_namedDependencies, declarations_merged]
  show Option.map _ (lastNamed? fragments id name) = _ ↔ _
  rw [Option.map_eq_some_iff, DependencyMeans]
  refine exists_congr fun d => and_congr_right fun _ => ?_
  have hmeans := @resolveDeclaration_eq_ok_iff root fragments t d
  rw [← hmeans]
  cases (ofFragments root fragments).resolveDeclaration d with
  | error _ => simp [Except.toOption]
  | ok u => simp [Except.toOption]

/-- The source of a nested module. -/
theorem invocations_merged_eq_some_iff {source : String} :
    (merged root fragments id).invocations[name]? = some source
      ↔ Invokes fragments id name source := by
  have hmem : ∀ s, s ∈ (fragmentsOf fragments id).filterMap (·.invocations[name]?)
      ↔ ∃ f ∈ fragments, f.moduleId = id ∧ f.invocations[name]? = some s := by
    intro s
    simp [List.mem_filterMap, and_assoc]
  rw [getElem?_invocations_merged, List.min?_eq_some_iff, hmem]
  constructor
  · rintro ⟨hgiven, hleast⟩
    exact ⟨hgiven, fun f hf hid other ho => hleast other ((hmem other).2 ⟨f, hf, hid, ho⟩)⟩
  · rintro ⟨hgiven, hleast⟩
    refine ⟨hgiven, fun other ho => ?_⟩
    obtain ⟨f, hf, hid, ho⟩ := (hmem other).1 ho
    exact hleast f hf hid other ho

/-- A choice falls on a module exactly if it is the only candidate. -/
theorem choose_eq_module_iff {candidates : List String} {inside : Bool} :
    choose candidates inside = .module t ↔ candidates = [t] := by
  unfold choose
  split
  · split <;> simp
  · simp
  · rename_i hnot
    constructor
    · rintro ⟨⟩
    · exact fun h => absurd h (hnot t)

/-- **The candidates that the builder collects** for a nested module with a
local source, if it has one. -/
theorem mem_candidates (hlocal : ∀ source, Invokes fragments id name source →
    isLocalSource source = true) :
    t ∈ (((merged root fragments id).invocations[name]?).bind (invocationTarget? root
          (ofFragments root fragments) (merged root fragments id))).toList
        ++ ((((ofFragments root fragments).namedDependencies
          (merged root fragments id))[name]?).getD none).toList
        ++ ((ofFragments root fragments).siblingModule? (merged root fragments id) name).toList
      ↔ Candidate root fragments id name t := by
  rw [List.mem_append, List.mem_append, Option.mem_toList, Option.mem_toList, Option.mem_toList,
    Option.bind_eq_some_iff, siblingModule?, Option.filter_eq_some_iff]
  simp only [invocationTarget?, Option.filter_eq_some_iff, invocations_merged_eq_some_iff,
    id_merged, mem_ofFragments, decide_eq_true_eq, Option.getD_eq_iff]
  constructor
  · rintro ((⟨source, hinvokes, htarget, hscanned⟩ | hdeclared) | ⟨hsibling, hscanned⟩)
    · exact .invoked hinvokes (hlocal source hinvokes) htarget hscanned
    · rcases hdeclared with h | ⟨-, h⟩
      · exact .declared (namedDependencies_eq_some_iff.1 h)
      · cases h
    · exact .beside hsibling hscanned
  · intro h
    cases h with
    | invoked hinvokes _ htarget hscanned => exact .inl (.inl ⟨_, hinvokes, htarget, hscanned⟩)
    | declared hmeans => exact .inl (.inr (.inl (namedDependencies_eq_some_iff.2 hmeans)))
    | beside hsibling hscanned => exact .inr ⟨hsibling, hscanned⟩

/-- A reference through a dependency resolves to what its name is mapped to. -/
theorem resolveDependency_eq_module_iff {named : NameMap (Option String)} {r : Reference} :
    resolveDependency named r = .module t ↔ named[r.name]? = some (some t) := by
  unfold resolveDependency
  split <;> simp_all

/-- **A reference through a nested module** resolves to its only candidate,
unless the nested module comes from elsewhere. -/
theorem resolveNested_eq_module_iff {r : Reference} :
    (ofFragments root fragments).resolveNested root (merged root fragments id)
        ((ofFragments root fragments).namedDependencies (merged root fragments id)) r = .module t
      ↔ (∀ source, Invokes fragments id r.name source → isLocalSource source = true)
        ∧ ∀ u, Candidate root fragments id r.name u ↔ u = t := by
  rw [resolveNested]
  split
  -- a source from elsewhere ends the search for candidates before it begins
  · rename_i hforeign
    obtain ⟨source, hinvokes, hsource⟩ := (Option.any_eq_true _ _).1 hforeign
    constructor
    · rintro ⟨⟩
    · rintro ⟨hlocal, -⟩
      rw [hlocal source (invocations_merged_eq_some_iff.1 hinvokes)] at hsource
      cases hsource
  · rename_i hnear
    have hlocal : ∀ source, Invokes fragments id r.name source → isLocalSource source = true := by
      intro source hinvokes
      have hsome := (@invocations_merged_eq_some_iff root _ _ _ _).2 hinvokes
      simpa [hsome] using hnear
    rw [choose_eq_module_iff, eq_singleton_iff nodup_setToList]
    simp only [ExtTreeSet.mem_toList, mem_setOfList, mem_candidates hlocal]
    exact ⟨fun h => ⟨hlocal, h⟩, fun h => h.2⟩

/-- **A reference resolves to what it means.** -/
theorem resolveReference_eq_module_iff {r : Reference} :
    (ofFragments root fragments).resolveReference root (merged root fragments id)
        ((ofFragments root fragments).namedDependencies (merged root fragments id)) r = .module t
      ↔ ReferenceMeans root fragments id r t := by
  unfold resolveReference
  split
  · rename_i hvia
    rw [resolveDependency_eq_module_iff, namedDependencies_eq_some_iff]
    constructor
    · exact .dependency hvia
    · intro h
      cases h with
      | dependency _ hmeans => exact hmeans
      | module hvia' _ _ => rw [hvia] at hvia'; cases hvia'
  · rename_i hvia
    rw [resolveNested_eq_module_iff]
    constructor
    · rintro ⟨hlocal, honly⟩
      exact .module hvia hlocal honly
    · intro h
      cases h with
      | dependency hvia' _ => rw [hvia] at hvia'; cases hvia'
      | module _ hlocal honly => exact ⟨hlocal, honly⟩

end Modules

end StackGraph
