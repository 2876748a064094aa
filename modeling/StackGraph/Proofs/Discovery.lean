import Mathlib.Data.List.Infix
import StackGraph.Proofs.Walk
/-!
# What discovery finds

Discovery leaves an entry out where it meets it, together with everything below
it, and stops at the limit on the depth. So whether a file is found depends on
all names on the way to it, but each of them is looked at on its own, by a visit
of the directory that it lies in. `Settings.Selects` says from the names of a
file alone whether it is found: there are no more of them than the limit, no
pattern matches one of them or the path that ends in it, and the last one is the
name of a configuration file. The scan root is not among the names, so whatever
a pattern says about its name has no effect.

In a tree without links, what is found are the files that are selected, each one
once (`Workspace.discover_exactly`), whether it may be opened or not. A directory
can only be visited if its path is one that can be opened (`Settings.Opens`),
which fails for a path of more than 4095 bytes; one that may not be opened has
nothing in it that anybody could see.
-/

namespace StackGraph

open Std

/-! ## Names on a way -/

/-- What holds for every name on a way, each with the names before it, from the
first name on. -/
theorem forall_prefix_cons {P : List String → String → Prop} {first : String} {rest : List String} :
    (∀ above name, above ++ [name] <+: first :: rest → P above name)
      ↔ P [] first ∧ ∀ above name, above ++ [name] <+: rest → P (first :: above) name := by
  constructor
  · exact fun h => ⟨h [] first (by simp), fun above name hway =>
      h (first :: above) name ((List.prefix_cons_inj first).2 hway)⟩
  · rintro ⟨hfirst, hrest⟩ above name hway
    cases above with
    | nil =>
      obtain rfl := (List.cons_prefix_cons.1 hway).1
      exact hfirst
    | cons first' above =>
      obtain ⟨rfl, hbehind⟩ : first' = first ∧ above ++ [name] <+: rest :=
        List.cons_prefix_cons.1 hway
      exact hrest above name hbehind

/-- Names are checked one after the other. -/
instance decidableForallPrefix {P : List String → String → Prop}
    [∀ above name, Decidable (P above name)] :
    ∀ names : List String, Decidable (∀ above name, above ++ [name] <+: names → P above name)
  | [] => isTrue (by simp)
  | first :: rest =>
    have := decidableForallPrefix (P := fun above => P (first :: above)) rest
    decidable_of_iff _ forall_prefix_cons.symm

instance decidableExistsOk {ε α : Type} {P : α → Prop} [DecidablePred P] :
    ∀ r : Except ε α, Decidable (∃ a, r = .ok a ∧ P a)
  | .ok a => decidable_of_iff (P a) (by simp)
  | .error _ => isFalse (by simp)

/-! ## What is selected -/

namespace Settings

/-- Whether a pattern matches the name of an entry or its path from the scan
root, given the names of the directories above it. -/
def Excludes (s : Settings) (above : List String) (name : String) : Prop :=
  ∃ text ∈ s.excludes, ∃ g, Glob.read text = .ok g
    ∧ (g.matchesText name ∨ g.matchesText ("/".intercalate (above ++ [name])))

instance {s : Settings} {above : List String} {name : String} : Decidable (s.Excludes above name) :=
  inferInstanceAs (Decidable (∃ text ∈ s.excludes, ∃ g, Glob.read text = .ok g ∧ _))

/-- **The files of a kind that the settings select**, by the names on the way to
them from the scan root. -/
structure Selects (s : Settings) (names : List String) (kind : FileKind) : Prop where
  /-- The file lies within the limit on the depth. -/
  within : ∀ limit ∈ s.maxDepth, names.length ≤ limit
  /-- Its name is that of a file of this kind. -/
  classified : ∃ name ∈ names.getLast?, s.classify ⟨name⟩ = some kind
  /-- Neither the file nor a directory on the way to it is left out. -/
  kept : ∀ above name, above ++ [name] <+: names → ¬ s.Excludes above name

instance {s : Settings} {names : List String} {kind : FileKind} :
    Decidable (s.Selects names kind) :=
  decidable_of_iff
    ((∀ limit ∈ s.maxDepth, names.length ≤ limit)
      ∧ (∃ name ∈ names.getLast?, s.classify ⟨name⟩ = some kind)
      ∧ ∀ above name, above ++ [name] <+: names → ¬ s.Excludes above name)
    ⟨fun ⟨hwithin, hclassified, hkept⟩ => ⟨hwithin, hclassified, hkept⟩,
      fun ⟨hwithin, hclassified, hkept⟩ => ⟨hwithin, hclassified, hkept⟩⟩

/-- Whether every directory on the way to a file has a path that can be
opened. -/
def Opens (s : Settings) (names : List String) : Prop :=
  ∀ above name, above ++ [name] <+: names → FileError.ofPath? (s.scanPath.descend above) = none

instance {s : Settings} {names : List String} : Decidable (s.Opens names) :=
  inferInstanceAs (Decidable (∀ above name, above ++ [name] <+: names → _))

end Settings

namespace Discovery

/-- The files of a kind. -/
def ofKind (d : Discovery) : FileKind → List Path
  | .orchestration => d.orchestration
  | .moduleDefinition => d.moduleDefinitions

/-- **What is found are the files of a tree that are selected.** -/
structure IsSelection (d : Discovery) (s : Settings) (t : FileTree) : Prop where
  /-- A file that is selected is listed once. -/
  once : ∀ names kind, t.HasFile names → s.Opens names → s.Selects names kind →
    (d.ofKind kind).count (s.scanPath.descend names) = 1
  /-- One that is not selected as a file of a kind is not listed as one. -/
  never : ∀ names kind, t.HasFile names → ¬ s.Selects names kind →
    s.scanPath.descend names ∉ d.ofKind kind
  /-- Nothing else is listed. -/
  only : ∀ kind, ∀ p ∈ d.ofKind kind, ∃ names, t.HasFile names ∧ p = s.scanPath.descend names
  /-- The files of a kind are in the order of their paths. -/
  sorted : ∀ kind, (d.ofKind kind).Pairwise (Path.compare · · = .lt)

end Discovery

/-! ## Patterns -/

/-- Patterns are read one by one. -/
theorem Glob.exists_readAll {texts : List String}
    (h : ∀ text ∈ texts, ∃ g, Glob.read text = .ok g) :
    ∃ globs, Glob.readAll texts = .ok globs
      ∧ ∀ g, g ∈ globs ↔ ∃ text ∈ texts, Glob.read text = .ok g := by
  induction texts with
  | nil => exact ⟨[], rfl, by simp⟩
  | cons text texts ih =>
    obtain ⟨⟨g, hg⟩, hrest⟩ := List.forall_mem_cons.1 h
    obtain ⟨globs, hglobs, hmem⟩ := ih hrest
    refine ⟨g :: globs, ?_, fun g' => ?_⟩
    · unfold Glob.readAll at hglobs ⊢
      rw [List.mapM_cons, hg, hglobs]
      rfl
    · rw [List.mem_cons, hmem, List.exists_mem_cons_iff, hg, Except.ok.injEq, eq_comm]

/-! ## Which files are met -/

namespace Survey

variable {s : Survey} {onLink : List Entered → String → Path → Nat → List Visit}
variable {here : Entered} {above : List Entered} {depth : Nat} {path : Path}
variable {t node : FileTree} {entries : List (String × FileTree)} {name : String}
variable {done names : List String}

/-- Whether a visit of a directory, given by the names on the way to it, meets
an entry of this name and goes on. -/
structure Admits (s : Survey) (above : List String) (name : String) : Prop where
  descends : s.descends above.length
  opens : FileError.ofPath? (s.root.path.descend above) = none
  kept : ¬ s.isExcluded name (s.root.path.descend (above ++ [name]))

/-- Only below a directory that may be opened a file is met. -/
theorem exists_eq_of_file_mem_below (h : .file path ∈ s.below onLink here above depth t) :
    ∃ writable entries, t = .directory writable entries := by
  cases t with
  | directory writable entries => exact ⟨writable, entries, rfl⟩
  | closedDirectory =>
    rw [below_closedDirectory, unreadable] at h
    split at h
    · exact absurd h List.not_mem_nil
    · cases List.mem_singleton.1 h
  | _ =>
    rw [below_of_not_isDirectory rfl] at h
    exact absurd h List.not_mem_nil

/-- What is met at an entry that is no link: a file, or what is below a
directory, unless the entry is left out. -/
theorem mem_atEntry (h : node.IsPlain) :
    .file path ∈ (s.atEntry onLink here above depth (name, node)).2
      ↔ ¬ s.isExcluded name (here.2.child name)
        ∧ (node.HasFile [] ∧ path = here.2.child name
          ∨ .file path ∈ s.below onLink (here.1 ++ [name], here.2.child name) (here :: above) depth
              node) := by
  rw [FileTree.hasFile_nil]
  cases h with
  | file | closedFile =>
    rw [atEntry_of_isFile rfl, below_of_not_isDirectory rfl]
    split <;> simp_all [FileTree.isFile]
  | directory | closedDirectory =>
    rw [atEntry_of_isDirectory rfl]
    split <;> simp_all [FileTree.isFile]

/-- A file in a tree that is met if the tree is visited, given the names on the
way to the tree. -/
structure Meets (s : Survey) (t : FileTree) (done names : List String) : Prop where
  hasFile : t.HasFile names
  admits : ∀ above name, above ++ [name] <+: names → s.Admits (done ++ above) name

theorem meets_nil : s.Meets t done [] ↔ t.HasFile [] :=
  ⟨Meets.hasFile, fun h => ⟨h, by simp⟩⟩

/-- **One step of the walk**: a file below a directory is met if the visit meets
the entry that it lies in, and meets the file there. -/
theorem meets_directory_cons {writable : Bool} (h : (entries.map Prod.fst).Nodup) :
    s.Meets (.directory writable entries) done (name :: names)
      ↔ s.Admits done name
        ∧ ∃ node, (name, node) ∈ entries ∧ s.Meets node (done ++ [name]) names := by
  constructor
  · rintro ⟨hfile, hadmits⟩
    obtain ⟨node, hmem, hfile⟩ := (FileTree.hasFile_directory_cons h).1 hfile
    obtain ⟨hfirst, hrest⟩ := forall_prefix_cons.1 hadmits
    rw [List.append_nil] at hfirst
    refine ⟨hfirst, node, hmem, hfile, fun above next hway => ?_⟩
    rw [← List.append_cons]
    exact hrest above next hway
  · rintro ⟨hfirst, node, hmem, hfile, hrest⟩
    refine ⟨(FileTree.hasFile_directory_cons h).2 ⟨node, hmem, hfile⟩,
      forall_prefix_cons.2 ⟨?_, fun above next hway => ?_⟩⟩
    · rwa [List.append_nil]
    · rw [List.append_cons]
      exact hrest above next hway

/-- The files that are met at an entry, from those that are met below it. -/
theorem mem_atEntry_iff_meets (h : node.IsPlain) (hhere : here.2 = s.root.path.descend done)
    (hbelow : .file path ∈ s.below onLink (here.1 ++ [name], here.2.child name) (here :: above)
        (done ++ [name]).length node
      ↔ ∃ names, names ≠ [] ∧ s.Meets node (done ++ [name]) names
        ∧ path = s.root.path.descend (done ++ [name] ++ names)) :
    .file path ∈ (s.atEntry onLink here above (done.length + 1) (name, node)).2
      ↔ ¬ s.isExcluded name (s.root.path.descend (done ++ [name]))
        ∧ ∃ names, s.Meets node (done ++ [name]) names
          ∧ path = s.root.path.descend (done ++ [name] ++ names) := by
  have hlength : done.length + 1 = (done ++ [name]).length := by simp
  rw [mem_atEntry h, hlength, hbelow, Path.child_eq_descend hhere]
  refine and_congr_right fun _ => ⟨?_, ?_⟩
  · rintro (⟨hfile, rfl⟩ | ⟨names, -, hmeets, rfl⟩)
    · exact ⟨[], meets_nil.2 hfile, by rw [List.append_nil]⟩
    · exact ⟨names, hmeets, rfl⟩
  · rintro ⟨names, hmeets, rfl⟩
    by_cases hnames : names = []
    · subst hnames
      exact .inl ⟨meets_nil.1 hmeets, by rw [List.append_nil]⟩
    · exact .inr ⟨names, hnames, hmeets, rfl⟩

/-- **What is met below a directory** are its files, in the entries that the
visits meet: by induction on the tree, whatever names lead to it. -/
theorem mem_below (h : t.IsPlain) (hhere : here.2 = s.root.path.descend done) :
    .file path ∈ s.below onLink here above done.length t
      ↔ ∃ names, names ≠ [] ∧ s.Meets t done names
        ∧ path = s.root.path.descend (done ++ names) := by
  induction h generalizing here above done path with
  | file | closedFile | closedDirectory =>
    refine iff_of_false (fun hmet => nomatch exists_eq_of_file_mem_below hmet) ?_
    rintro ⟨names, hne, hmeets, -⟩
    obtain ⟨name, names, rfl⟩ := List.exists_cons_of_ne_nil hne
    exact nomatch hmeets.hasFile.exists_eq
  | @directory writable entries distinct named plain ih =>
    rw [mem_below_directory, hhere]
    constructor
    · rintro ⟨hdescends, ⟨e, -, hunreadable⟩ | ⟨hopens, ⟨name, node⟩, he, hmet⟩⟩
      · cases hunreadable
      rw [mem_atEntry_iff_meets (plain _ he) hhere (ih _ he (Path.child_eq_descend hhere))] at hmet
      obtain ⟨hkept, names, hmeets, rfl⟩ := hmet
      exact ⟨name :: names, List.cons_ne_nil _ _, (meets_directory_cons distinct).2
        ⟨⟨hdescends, hopens, hkept⟩, node, he, hmeets⟩, by rw [← List.append_cons]⟩
    · rintro ⟨names, hne, hmeets, rfl⟩
      obtain ⟨name, names, rfl⟩ := List.exists_cons_of_ne_nil hne
      obtain ⟨hadmits, node, he, hmeets⟩ := (meets_directory_cons distinct).1 hmeets
      refine ⟨hadmits.descends, .inr ⟨hadmits.opens, (name, node), he, ?_⟩⟩
      rw [mem_atEntry_iff_meets (plain _ he) hhere (ih _ he (Path.child_eq_descend hhere))]
      exact ⟨hadmits.kept, names, hmeets, by rw [List.append_cons]⟩

end Survey

/-! ## What is found -/

namespace Settings

variable {s : Settings} {globs : List Glob} {above names : List String} {name : String}
variable {kind : FileKind} {p : Path}

/-- What decides about the entries, if the settings have these patterns. -/
def survey (s : Settings) (globs : List Glob) : Survey :=
  ⟨⟨s.scanPath⟩, globs, s.maxDepth, s.followLinks⟩

theorem isExcluded_survey (hglobs : ∀ g, g ∈ globs ↔ ∃ text ∈ s.excludes, Glob.read text = .ok g)
    (h : ∀ entry ∈ above ++ [name], IsEntryName entry) :
    (s.survey globs).isExcluded name (s.scanPath.descend (above ++ [name]))
      ↔ s.Excludes above name := by
  have hrelative : (s.survey globs).root.relativePath (s.scanPath.descend (above ++ [name]))
      = "/".intercalate (above ++ [name]) := ScanRoot.relativePath_descend h
  rw [Survey.isExcluded, hrelative, List.any_eq_true, Excludes]
  constructor
  · rintro ⟨g, hg, hmatches⟩
    obtain ⟨text, htext, hread⟩ := (hglobs g).1 hg
    exact ⟨text, htext, g, hread, Bool.or_eq_true_iff.1 hmatches⟩
  · rintro ⟨text, htext, g, hread, hmatches⟩
    exact ⟨g, (hglobs g).2 ⟨text, htext, hread⟩, Bool.or_eq_true_iff.2 hmatches⟩

/-- The limit on the depth is one on the number of names. -/
theorem forall_descends_iff (globs : List Glob) :
    (∀ above name, above ++ [name] <+: names → (s.survey globs).descends above.length)
      ↔ ∀ limit ∈ s.maxDepth, names.length ≤ limit := by
  simp only [Survey.descends, survey, Option.all_eq_true, decide_eq_true_eq, Option.mem_def]
  constructor
  · intro h limit hlimit
    obtain rfl | ⟨above, name, rfl⟩ := List.eq_nil_or_concat' names
    · exact Nat.zero_le _
    · simpa [Nat.succ_le_iff] using h above name List.prefix_rfl limit hlimit
  · intro h above name hway limit hlimit
    have hlength := hway.length_le
    rw [List.length_append, List.length_singleton] at hlength
    exact hlength.trans (h limit hlimit)

/-- **Every visit on the way goes on** if the file is within the limit, its
directories can be opened and nothing on the way is left out. -/
theorem forall_admits_iff (hglobs : ∀ g, g ∈ globs ↔ ∃ text ∈ s.excludes, Glob.read text = .ok g)
    (h : ∀ entry ∈ names, IsEntryName entry) :
    (∀ above name, above ++ [name] <+: names → (s.survey globs).Admits above name)
      ↔ (∀ limit ∈ s.maxDepth, names.length ≤ limit) ∧ s.Opens names
        ∧ ∀ above name, above ++ [name] <+: names → ¬ s.Excludes above name := by
  have hexcluded {above name} (hway : above ++ [name] <+: names) :
      (s.survey globs).isExcluded name (s.scanPath.descend (above ++ [name]))
        ↔ s.Excludes above name :=
    isExcluded_survey hglobs fun entry hentry => h entry (hway.subset hentry)
  rw [← forall_descends_iff globs]
  constructor
  · intro hadmits
    exact ⟨fun above name hway => (hadmits above name hway).descends,
      fun above name hway => (hadmits above name hway).opens,
      fun above name hway => (hexcluded hway).not.1 (hadmits above name hway).kept⟩
  · rintro ⟨hdescends, hopens, hkept⟩ above name hway
    exact ⟨hdescends above name hway, hopens above name hway,
      (hexcluded hway).not.2 (hkept above name hway)⟩

/-- The kind of a file depends on its name only. -/
theorem classify_descend (h : ∀ entry ∈ above ++ [name], IsEntryName entry) :
    s.classify (p.descend (above ++ [name])) = s.classify ⟨name⟩ := by
  obtain ⟨habove, hname⟩ := List.forall_mem_append.1 h
  have hname := List.forall_mem_singleton.1 hname
  rw [classify, classify, Path.extension?, Path.extension?, Path.fileName?_descend habove hname,
    Path.fileName?_name hname]

/-- **A file that is met is selected** if its name is that of a file of the
kind. -/
theorem meets_and_classify_iff {t : FileTree} (ht : t.IsPlain)
    (hglobs : ∀ g, g ∈ globs ↔ ∃ text ∈ s.excludes, Glob.read text = .ok g) :
    names ≠ [] ∧ (s.survey globs).Meets t [] names ∧ s.classify (p.descend names) = some kind
      ↔ t.HasFile names ∧ s.Opens names ∧ s.Selects names kind := by
  constructor
  · rintro ⟨hne, hmeets, hkind⟩
    have hproper := ht.isEntryName hmeets.hasFile
    obtain ⟨hwithin, hopens, hkept⟩ := (forall_admits_iff hglobs hproper).1 hmeets.admits
    obtain ⟨above, name, rfl⟩ := (List.eq_nil_or_concat' names).resolve_left hne
    exact ⟨hmeets.hasFile, hopens, hwithin,
      ⟨name, List.getLast?_concat, classify_descend hproper ▸ hkind⟩, hkept⟩
  · rintro ⟨hfile, hopens, hwithin, ⟨name, hlast, hkind⟩, hkept⟩
    obtain ⟨above, rfl⟩ := List.getLast?_eq_some_iff.1 hlast
    have hproper := ht.isEntryName hfile
    exact ⟨List.concat_ne_nil _ _,
      ⟨hfile, (forall_admits_iff hglobs hproper).2 ⟨hwithin, hopens, hkept⟩⟩,
      (classify_descend hproper).trans hkind⟩

end Settings

theorem Discovery.ofKind_ofVisits {s : Settings} {visits : List Visit} {kind : FileKind} :
    (ofVisits s visits).ofKind kind
      = sortBy Path.compare
        ((visits.filterMap Visit.file?).filter fun p => s.classify p == some kind) := by
  cases kind <;> rfl

namespace Workspace

section Root

variable {w : Workspace} {s : Survey} {location : Location} {writable : Bool}
variable {entries : List (String × FileTree)}
variable (hroot : w.find s.root.path .target = .ok (location, .directory writable entries))
variable (hplain : (FileTree.directory writable entries).IsPlain)

include hroot hplain

theorem mem_visits {p : Path} :
    .file p ∈ s.visits w
      ↔ ∃ names, names ≠ [] ∧ s.Meets (.directory writable entries) [] names
        ∧ p = s.root.path.descend names := by
  rw [Survey.visits_of_find hroot]
  exact Survey.mem_below hplain rfl

theorem nodup_visits : ((s.visits w).filterMap Visit.file?).Nodup :=
  (Survey.isSpread_visits (.inl hplain) rfl hroot).nodup_files

end Root

section Listed

variable {w : Workspace} {s : Settings} {globs : List Glob} {location : Location} {writable : Bool}
variable {entries : List (String × FileTree)}
variable (hroot : w.find (s.survey globs).root.path .target
  = .ok (location, .directory writable entries))
variable (hplain : (FileTree.directory writable entries).IsPlain)

include hroot hplain

/-- **What is listed** are the files of the tree that are selected and whose
directories can be opened. -/
theorem mem_ofKind_iff (hglobs : ∀ g, g ∈ globs ↔ ∃ text ∈ s.excludes, Glob.read text = .ok g)
    (kind : FileKind) (p : Path) :
    p ∈ (Discovery.ofVisits s ((s.survey globs).visits w)).ofKind kind
      ↔ ∃ names, ((FileTree.directory writable entries).HasFile names ∧ s.Opens names
          ∧ s.Selects names kind) ∧ p = s.scanPath.descend names := by
  rw [Discovery.ofKind_ofVisits, mem_sortBy, List.mem_filter, Survey.mem_filterMap_file?,
    mem_visits hroot hplain, beq_iff_eq]
  constructor
  · rintro ⟨⟨names, hne, hmeets, rfl⟩, hkind⟩
    exact ⟨names, (Settings.meets_and_classify_iff hplain hglobs).1 ⟨hne, hmeets, hkind⟩, rfl⟩
  · rintro ⟨names, hselected, rfl⟩
    obtain ⟨hne, hmeets, hkind⟩ := (Settings.meets_and_classify_iff hplain hglobs).2 hselected
    exact ⟨⟨names, hne, hmeets, rfl⟩, hkind⟩

theorem nodup_ofKind (kind : FileKind) :
    ((Discovery.ofVisits s ((s.survey globs).visits w)).ofKind kind).Nodup := by
  rw [Discovery.ofKind_ofVisits]
  exact perm_sortBy.nodup_iff.2 ((nodup_visits hroot hplain).filter _)

end Listed

/-- **Discovery finds exactly what is selected**, in a tree without links and
for any limit on the depth and any patterns. -/
theorem discover_exactly {w : Workspace} {s : Settings} {location : Location} {writable : Bool}
    {entries : List (String × FileTree)}
    (hroot : w.find s.scanPath .target = .ok (location, .directory writable entries))
    (hplain : (FileTree.directory writable entries).IsPlain)
    (hglobs : ∀ text ∈ s.excludes, ∃ g, Glob.read text = .ok g) :
    ∃ d, w.discover s = .ok d ∧ d.IsSelection s (.directory writable entries) := by
  obtain ⟨globs, hread, hmem⟩ := Glob.exists_readAll hglobs
  replace hroot : w.find (s.survey globs).root.path .target
    = .ok (location, .directory writable entries) := hroot
  have hlisted := mem_ofKind_iff hroot hplain hmem
  refine ⟨.ofVisits s ((s.survey globs).visits w), by rw [discover, hread]; rfl, ?_⟩
  constructor
  case once =>
    intro names kind hfile hopens hselects
    exact List.count_eq_one_of_mem (nodup_ofKind hroot hplain kind)
      ((hlisted kind _).2 ⟨names, ⟨hfile, hopens, hselects⟩, rfl⟩)
  case never =>
    intro names kind hfile hnot hlist
    obtain ⟨names', ⟨hfile', -, hselects⟩, hsame⟩ := (hlisted kind _).1 hlist
    obtain rfl := (hplain.components_descend_inj hfile hfile').1 (congrArg Path.components hsame)
    exact hnot hselects
  case only =>
    intro kind p hlist
    obtain ⟨names, ⟨hfile, -⟩, rfl⟩ := (hlisted kind p).1 hlist
    exact ⟨names, hfile, rfl⟩
  case sorted =>
    intro kind
    rw [Discovery.ofKind_ofVisits]
    refine pairwise_lt_sortBy ((nodup_visits hroot hplain).filter _) fun p hp q hq heq => ?_
    -- paths that are equal in the order are those of one file
    rw [← mem_sortBy, ← Discovery.ofKind_ofVisits] at hp hq
    obtain ⟨names, ⟨hfile, -⟩, rfl⟩ := (hlisted kind p).1 hp
    obtain ⟨names', ⟨hfile', -⟩, rfl⟩ := (hlisted kind q).1 hq
    rw [(hplain.components_descend_inj hfile hfile').1 (Path.components_eq_of_compare heq)]

/-- A tree where one directory is left out by its path and another one by its
name. -/
def infraEntries : List (String × FileTree) :=
  [("main.tf", .file (some "")),
    ("live", .directory true
      [("prod", .directory true [("main.tf", .file (some ""))]),
        ("dev", .directory true [("main.tf", .file (some ""))])]),
    (".terraform", .directory true [("main.tf", .file (some ""))])]

def infra : Workspace :=
  ⟨.directory true [("infra", .directory true infraEntries)], ⟨"/"⟩, ∅⟩

/-- Settings with a pattern that matches the name of the scan root itself. -/
def infraSettings : Settings :=
  { Settings.defaults with
    scanPath := ⟨"/infra"⟩, excludes := ["infra", ".terraform", "live/d*"], maxDepth := some 3 }

/-- In the example the file in a directory that is not left out is found, and
that in the other directory is not, although the scan root has an excluded
name. -/
theorem discover_exactly_infra :
    infra.find ⟨"/infra"⟩ .target = .ok (["infra"], .directory true infraEntries)
      ∧ ∃ d, infra.discover infraSettings = .ok d
        ∧ d.moduleDefinitions.count ⟨"/infra/live/prod/main.tf"⟩ = 1
        ∧ ⟨"/infra/live/dev/main.tf"⟩ ∉ d.moduleDefinitions := by
  have hroot : infra.find ⟨"/infra"⟩ .target = .ok (["infra"], .directory true infraEntries) := rfl
  have hmodule : (FileTree.directory true [("main.tf", .file (some ""))]).IsPlain :=
    .directory (by decide) (by decide) (List.forall_mem_singleton.2 (.file _))
  have hlive : (FileTree.directory true
      [("prod", .directory true [("main.tf", .file (some ""))]),
        ("dev", .directory true [("main.tf", .file (some ""))])]).IsPlain :=
    .directory (by decide) (by decide) (by simpa using hmodule)
  have hplain : (FileTree.directory true infraEntries).IsPlain :=
    .directory (by decide) (by decide) (by simpa [infraEntries] using ⟨.file _, hlive, hmodule⟩)
  have hglobs : ∀ text ∈ infraSettings.excludes, ∃ g, Glob.read text = .ok g := by
    intro text htext
    simp only [infraSettings, List.mem_cons, List.not_mem_nil, or_false] at htext
    rcases htext with rfl | rfl | rfl <;> exact ⟨_, rfl⟩
  obtain ⟨d, hd, hselection⟩ := discover_exactly hroot hplain hglobs
  refine ⟨hroot, d, hd, ?_, ?_⟩
  · exact hselection.once ["live", "prod", "main.tf"] .moduleDefinition ⟨_, rfl, rfl⟩ (by decide)
      (by decide)
  · exact hselection.never ["live", "dev", "main.tf"] .moduleDefinition ⟨_, rfl, rfl⟩ (by decide)

end Workspace

end StackGraph
