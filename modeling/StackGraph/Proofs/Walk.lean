import Mathlib.Data.List.Pairwise
import StackGraph.Discovery
import StackGraph.Proofs.FileTree
/-!
# The walk

Where links are followed, what is visited is no longer the tree itself. A link
can lead to a directory that lies elsewhere and is visited there as well, even
through another link, so one file can be met several times. But it is never met
twice under one path: a visit shows the names that were gone down from the scan
root, and since the entries of a directory have different names, the visits
unfold the tree into one where every place is reached in one way
(`Survey.IsSpread`).

This holds of the files that are met and of the problems alike, whatever the
links are: where a link is followed, the walk goes on under its own name. So no
file is met twice (`Survey.IsSpread.nodup_files`), and a diagnostic that shows
the path of a file that was met cannot be one of the walk itself
(`Survey.IsSpread.path_ne`). Only the problem of a link to a directory that may
not be opened shows no place at all.
-/

namespace StackGraph

/-! ## Trees with links -/

namespace FileTree

variable {t node : FileTree} {here : Location} {name : String}

/-- **Trees as a system of files has them.** The entries of a directory have
names, and different ones; what is in a file and where a link leads is free. -/
inductive IsProper : FileTree → Prop
  | file (content : Option String) : IsProper (.file content)
  | link (target : Path) : IsProper (.link target)
  | closedFile : IsProper .closedFile
  | closedDirectory (writable : Bool) : IsProper (.closedDirectory writable)
  | directory {writable : Bool} {entries : List (String × FileTree)}
      (distinct : (entries.map Prod.fst).Nodup) (named : ∀ e ∈ entries, IsEntryName e.1)
      (proper : ∀ e ∈ entries, IsProper e.2) : IsProper (.directory writable entries)

/-- A tree without links is one with links. -/
theorem IsPlain.isProper (h : t.IsPlain) : t.IsProper := by
  induction h with
  | file content => exact .file content
  | closedFile => exact .closedFile
  | closedDirectory writable => exact .closedDirectory writable
  | directory distinct named _ ih => exact .directory distinct named ih

/-- The entries of a tree without links have none. -/
theorem IsPlain.of_mem {writable : Bool} {entries : List (String × FileTree)}
    (h : IsPlain (.directory writable entries)) {e : String × FileTree} (he : e ∈ entries) :
    e.2.IsPlain := by
  cases h with
  | directory _ _ plain => exact plain e he

theorem IsProper.of_child? (h : t.IsProper) (hchild : t.child? name = some node) :
    node.IsProper := by
  cases h with
  | directory distinct _ proper => exact proper _ ((child?_eq_some_iff distinct).1 hchild)
  | _ => cases hchild

/-- Every node of a proper tree is one. -/
theorem IsProper.of_get? (h : t.IsProper) (hget : t.get? here = some node) : node.IsProper := by
  induction here generalizing t with
  | nil => exact Option.some.inj hget ▸ h
  | cons name here ih =>
    obtain ⟨child, hchild, hget⟩ := Option.bind_eq_some_iff.1 hget
    exact ih (h.of_child? hchild) hget

/-- **Whatever a path leads to is a proper tree**, if the whole one is. -/
theorem IsProper.of_find {w : Workspace} {p : Path} {purpose : Purpose} {location : Location}
    (h : w.files.IsProper) (hfind : w.find p purpose = .ok (location, node)) : node.IsProper :=
  h.of_get? (Workspace.get?_of_find hfind)

end FileTree

/-! ## The walk, entry by entry -/

namespace Survey

variable {s : Survey} {onLink : List Entered → String → Path → Nat → List Visit}
variable {here : Entered} {above : List Entered} {depth : Nat}
variable {node : FileTree} {entries : List (String × FileTree)} {name : String}

/-- What is met at an entry of a directory, with its name. -/
def atEntry (s : Survey) (onLink : List Entered → String → Path → Nat → List Visit)
    (here : Entered) (above : List Entered) (depth : Nat) (entry : String × FileTree) :
    String × List Visit :=
  let path := here.2.child entry.1
  (entry.1, match entry.2 with
    | .link _ => if s.followLinks then onLink (here :: above) entry.1 path depth else []
    | .file _ | .closedFile => if s.isExcluded entry.1 path then [] else [.file path]
    | .directory .. | .closedDirectory _ =>
      if s.isExcluded entry.1 path then []
      else s.below onLink (here.1 ++ [entry.1], path) (here :: above) depth entry.2)

theorem atEntry_of_isFile (h : node.isFile) :
    (s.atEntry onLink here above depth (name, node)).2
      = if s.isExcluded name (here.2.child name) then [] else [.file (here.2.child name)] := by
  cases node with
  | file | closedFile => rfl
  | _ => cases h

theorem atEntry_link {target : Path} :
    (s.atEntry onLink here above depth (name, .link target)).2
      = if s.followLinks then onLink (here :: above) name (here.2.child name) depth else [] := rfl

theorem atEntry_of_isDirectory (h : node.isDirectory) :
    (s.atEntry onLink here above depth (name, node)).2
      = if s.isExcluded name (here.2.child name) then []
        else s.below onLink (here.1 ++ [name], here.2.child name) (here :: above) depth node := by
  cases node with
  | directory | closedDirectory => rfl
  | _ => cases h

/-- The entries of a directory are visited one by one. -/
theorem belowEntries_eq_map :
    s.belowEntries onLink here above depth entries
      = entries.map (s.atEntry onLink here above depth) := by
  induction entries with
  | nil => simp [belowEntries]
  | cons e entries ih =>
    obtain ⟨name, node⟩ := e
    cases node <;> rw [belowEntries, ih] <;> rfl

theorem below_of_not_isDirectory (h : node.isDirectory = false) :
    s.below onLink here above depth node = [] := by
  cases node with
  | directory | closedDirectory => cases h
  | _ => simp [below]

theorem below_closedDirectory {writable : Bool} :
    s.below onLink here above depth (.closedDirectory writable)
      = if !s.descends depth then []
        else [s.unreadable here.2 ((FileError.ofPath? here.2).getD .permissionDenied)] := by
  simp [below]

/-- **What is met below a directory** is what is met at its entries, or that it
cannot be opened, unless it is too deep. -/
theorem mem_below_directory {writable : Bool} {v : Visit} :
    v ∈ s.below onLink here above depth (.directory writable entries)
      ↔ s.descends depth ∧ ((∃ e, FileError.ofPath? here.2 = some e ∧ v = s.unreadable here.2 e)
        ∨ FileError.ofPath? here.2 = none
          ∧ ∃ e ∈ entries, v ∈ (s.atEntry onLink here above (depth + 1) e).2) := by
  rw [below]
  by_cases hdepth : s.descends depth
  · rw [if_neg (by simpa using hdepth), and_iff_right hdepth]
    cases FileError.ofPath? here.2 with
    | some e => simp
    | none =>
      rw [List.mem_flatMap, belowEntries_eq_map]
      simp only [mem_sortBy, List.mem_map, exists_exists_and_eq_and, reduceCtorEq, false_and,
        exists_false, false_or, true_and]
  · rw [if_pos (by simpa using hdepth)]
    exact iff_of_false List.not_mem_nil fun h => hdepth h.1

section Following

variable {w : Workspace} {links : Nat} {path : Path} {location : Location} {writable : Bool}

theorem atLink_of_error {e : FileError} (h : w.find path .target = .error e) :
    s.atLink w (links + 1) above name path depth = [s.unreadable path e] := by
  rw [atLink, h]

theorem atLink_of_back {ancestor : Entered}
    (h : w.find path .target = .ok (location, .directory writable entries))
    (hback : above.find? (fun entered => entered.1 == location) = some ancestor) :
    s.atLink w (links + 1) above name path depth = [s.loop path ancestor.2] := by
  simp only [atLink, h, hback]

theorem atLink_of_new (h : w.find path .target = .ok (location, .directory writable entries))
    (hnew : above.find? (fun entered => entered.1 == location) = none) :
    s.atLink w (links + 1) above name path depth
      = if s.isExcluded name path then []
        else s.below (s.atLink w links) (location, path) above depth
          (.directory writable entries) := by
  simp only [atLink, h, hnew]

theorem atLink_of_closed (h : w.find path .target = .ok (location, .closedDirectory writable)) :
    s.atLink w (links + 1) above name path depth = [unopened] := by
  rw [atLink, h]

theorem atLink_of_not_isDirectory (h : w.find path .target = .ok (location, node))
    (hnode : node.isDirectory = false) :
    s.atLink w (links + 1) above name path depth
      = if s.isExcluded name path then [] else [.file path] := by
  rw [atLink, h]
  cases node with
  | directory | closedDirectory => cases hnode
  | _ => rfl

end Following

/-- From a root that leads to a directory, the visits are those below it. -/
theorem visits_of_find {w : Workspace} {location : Location} {writable : Bool}
    (hroot : w.find s.root.path .target = .ok (location, .directory writable entries)) :
    s.visits w
      = s.below (s.atLink w w.files.size) (location, s.root.path) [] ([] : List String).length
        (.directory writable entries) := by
  obtain ⟨⟨_, node⟩, hentry⟩ := Workspace.exists_find_entry hroot
  simp only [visits, hroot, hentry, List.length_nil]

/-- If the root leads to a directory that may not be opened, it is the only
problem that is met; behind a link that is followed it has no place. -/
theorem visits_of_find_closed {w : Workspace} {place location : Location} {entry : FileTree}
    {writable : Bool} (hentry : w.find s.root.path .entry = .ok (place, entry))
    (hroot : w.find s.root.path .target = .ok (location, .closedDirectory writable)) :
    s.visits w = if s.followLinks && !entry.isDirectory then [unopened]
      else s.below (s.atLink w w.files.size) (location, s.root.path) [] 0
        (.closedDirectory writable) := by
  simp only [visits, hroot, hentry]

end Survey

/-! ## Where a visit lies -/

/-- Names are read back from the text with slashes between them. -/
theorem splitOn_intercalate_cons {name : String} {names : List String}
    (h : ∀ entry ∈ name :: names, IsEntryName entry) :
    Text.splitOn (· == '/') ("/".intercalate (name :: names)).toList
      = (name :: names).map String.toList := by
  rw [ScanRoot.toList_joined]
  refine Text.splitOn_intercalate (List.cons_ne_nil _ _) fun piece hpiece => ?_
  obtain ⟨entry, hentry, rfl⟩ := List.mem_map.1 hpiece
  exact (h entry hentry).no_slash

/-- **Names with slashes between them** can be told apart. -/
theorem intercalate_inj {names names' : List String} (h : ∀ name ∈ names, IsEntryName name)
    (h' : ∀ name ∈ names', IsEntryName name)
    (heq : "/".intercalate names = "/".intercalate names') : names = names' := by
  -- no name at all leaves the empty text, which would be an empty name
  have hnil : ∀ {name names}, (∀ entry ∈ name :: names, IsEntryName entry) →
      "/".intercalate (name :: names) ≠ "" := by
    intro name names hproper hempty
    have hsplit := splitOn_intercalate_cons hproper
    rw [hempty, List.map_cons] at hsplit
    exact (hproper name List.mem_cons_self).toList_ne.1 (List.cons.inj hsplit).1.symm
  cases names with
  | nil =>
    cases names' with
    | nil => rfl
    | cons => exact absurd heq.symm (hnil h')
  | cons name names =>
    cases names' with
    | nil => exact absurd heq (hnil h)
    | cons name' names' =>
      have hsplit := splitOn_intercalate_cons h
      rw [heq, splitOn_intercalate_cons h'] at hsplit
      exact (List.map_injective_iff.2 (fun _ _ => String.toList_inj.1) hsplit).symm

namespace Visit

variable {root : ScanRoot} {v : Visit} {names : List String}

/-- The path from the scan root that shows what a visit met. A point shows no
place. -/
def shown (root : ScanRoot) : Visit → Option String
  | file path => some (root.relativePath path)
  | problem d => d.path.filter (· ≠ ".")

/-- **A visit lies at the end of some names**, gone down from the scan root: a
file below it, or a problem there. One problem has no place. -/
inductive LiesAt (root : ScanRoot) (names : List String) : Visit → Prop
  | file (hne : names ≠ []) : LiesAt root names (.file (root.path.descend names))
  | problem (message : String) :
    LiesAt root names (.problem (.filesystem (root.relativePath (root.path.descend names)) message))
  | nowhere : LiesAt root names Survey.unopened

theorem mem_shown_problem {d : Diagnostic} {text : String} :
    text ∈ (problem d).shown root ↔ d.path = some text ∧ text ≠ "." := by
  rw [shown, Option.mem_filter_iff, Option.mem_def, decide_eq_true_eq]

/-- Wherever a visit lies, it shows the names if it shows any place. -/
theorem LiesAt.eq_of_mem_shown {text : String} (h : v.LiesAt root names)
    (hnames : ∀ name ∈ names, IsEntryName name) (htext : text ∈ v.shown root) :
    text = "/".intercalate names := by
  rw [← @ScanRoot.relativePath_descend root _ hnames]
  cases h with
  | file => exact (Option.some.inj htext).symm
  | problem => exact (Option.some.inj (mem_shown_problem.1 htext).1).symm
  | nowhere =>
    obtain ⟨hpath, hpoint⟩ := mem_shown_problem.1 htext
    exact absurd (Option.some.inj hpath).symm hpoint

end Visit

namespace Survey

variable {s : Survey} {onLink : List Entered → String → Path → Nat → List Visit}
variable {here : Entered} {above : List Entered} {depth : Nat} {path : Path} {v : Visit}
variable {t node : FileTree} {entries : List (String × FileTree)} {name : String}
variable {done names : List String} {visits : List Visit}

/-- **Visits that lie in places of their own**, all of them at or below the place
that some names lead to. -/
structure IsSpread (s : Survey) (done : List String) (visits : List Visit) : Prop where
  lies : ∀ v ∈ visits, ∃ names, (∀ name ∈ names, IsEntryName name) ∧ v.LiesAt s.root (done ++ names)
  apart : visits.Pairwise fun v v' => ∀ text ∈ v.shown s.root, text ∉ v'.shown s.root

theorem isSpread_nil : s.IsSpread done [] :=
  ⟨fun _ hv => absurd hv List.not_mem_nil, List.Pairwise.nil⟩

/-- One visit is alone in its place. -/
theorem isSpread_singleton (h : v.LiesAt s.root done) : s.IsSpread done [v] :=
  ⟨fun _ hv => ⟨[], by simp, List.mem_singleton.1 hv ▸ (List.append_nil done).symm ▸ h⟩,
    List.pairwise_singleton _ _⟩

/-- **Visits of different entries** stay in places of their own. -/
theorem isSpread_flatMap {found : List (String × List Visit)}
    (hdone : ∀ name ∈ done, IsEntryName name) (hdistinct : found.Pairwise (·.1 ≠ ·.1))
    (hnamed : ∀ e ∈ found, IsEntryName e.1) (h : ∀ e ∈ found, s.IsSpread (done ++ [e.1]) e.2) :
    s.IsSpread done (found.flatMap Prod.snd) := by
  constructor
  · intro v hv
    obtain ⟨e, he, hv⟩ := List.mem_flatMap.1 hv
    obtain ⟨names, hnames, hlies⟩ := (h e he).lies v hv
    exact ⟨e.1 :: names, List.forall_mem_cons.2 ⟨hnamed e he, hnames⟩, by
      rwa [← List.append_cons] at hlies⟩
  · rw [List.pairwise_flatMap]
    refine ⟨fun e he => (h e he).apart, hdistinct.imp_of_mem fun {e e'} he he' hne => ?_⟩
    -- what is shown starts with the name of the entry
    have hshown : ∀ {e}, e ∈ found → ∀ v ∈ e.2, ∀ text ∈ v.shown s.root,
        ∃ names, (∀ name ∈ done ++ e.1 :: names, IsEntryName name)
          ∧ text = "/".intercalate (done ++ e.1 :: names) := by
      intro e he v hv text htext
      obtain ⟨names, hnames, hlies⟩ := (h e he).lies v hv
      rw [← List.append_cons] at hlies
      have hproper : ∀ name ∈ done ++ e.1 :: names, IsEntryName name :=
        List.forall_mem_append.2 ⟨hdone, List.forall_mem_cons.2 ⟨hnamed e he, hnames⟩⟩
      exact ⟨names, hproper, hlies.eq_of_mem_shown hproper htext⟩
    intro v hv v' hv' text htext htext'
    obtain ⟨names, hproper, rfl⟩ := hshown he v hv text htext
    obtain ⟨names', hproper', hsame⟩ := hshown he' v' hv' _ htext'
    exact hne (List.cons.inj (List.append_cancel_left (intercalate_inj hproper hproper' hsame))).1

/-- What is met at links lies in places of its own, behind the names of the
links. -/
def SpreadsLinks (s : Survey) (onLink : List Entered → String → Path → Nat → List Visit) : Prop :=
  ∀ above name done depth, (∀ entry ∈ done ++ [name], IsEntryName entry) →
    s.IsSpread (done ++ [name]) (onLink above name (s.root.path.descend (done ++ [name])) depth)

/-- **What is met at an entry** lies in places of its own, if this holds of what
is met below it. -/
theorem isSpread_atEntry (honLink : node.IsPlain ∨ s.SpreadsLinks onLink)
    (hhere : here.2 = s.root.path.descend done)
    (hdone : ∀ entry ∈ done ++ [name], IsEntryName entry)
    (hbelow : s.IsSpread (done ++ [name])
      (s.below onLink (here.1 ++ [name], here.2.child name) (here :: above) depth node)) :
    s.IsSpread (done ++ [name]) (s.atEntry onLink here above depth (name, node)).2 := by
  have hpath : here.2.child name = s.root.path.descend (done ++ [name]) :=
    Path.child_eq_descend hhere
  cases node with
  | link target =>
    rw [atEntry_link, hpath]
    split
    · exact honLink.resolve_left nofun _ _ _ _ hdone
    · exact isSpread_nil
  | file | closedFile =>
    rw [atEntry_of_isFile rfl, hpath]
    split
    · exact isSpread_nil
    · exact isSpread_singleton (.file (List.concat_ne_nil _ _))
  | directory | closedDirectory =>
    rw [atEntry_of_isDirectory rfl]
    split
    · exact isSpread_nil
    · exact hbelow

/-- **What is met below a directory** lies in places of its own, if there are no
links in it or this holds of what is met at links: by induction on the tree,
whatever names lead to it. -/
theorem isSpread_below (honLink : t.IsPlain ∨ s.SpreadsLinks onLink) (h : t.IsProper)
    (hhere : here.2 = s.root.path.descend done) (hdone : ∀ name ∈ done, IsEntryName name) :
    s.IsSpread done (s.below onLink here above depth t) := by
  induction h generalizing here above depth done with
  | file | link | closedFile => rw [below_of_not_isDirectory rfl]; exact isSpread_nil
  | closedDirectory writable =>
    rw [below_closedDirectory]
    split
    · exact isSpread_nil
    · rw [unreadable, hhere]
      exact isSpread_singleton (.problem _)
  | @directory writable entries distinct named proper ih =>
    rw [below]
    split
    · exact isSpread_nil
    split
    · rw [unreadable, hhere]
      exact isSpread_singleton (.problem _)
    rw [belowEntries_eq_map]
    have hnames : (entries.map (s.atEntry onLink here above (depth + 1))).Pairwise (·.1 ≠ ·.1) :=
      List.pairwise_map.2 (List.pairwise_map.1 distinct)
    refine isSpread_flatMap hdone (perm_sortBy.symm.pairwise hnames Ne.symm) ?_ ?_
    · intro met hmet
      obtain ⟨e, he, rfl⟩ := List.mem_map.1 (mem_sortBy.1 hmet)
      exact named e he
    · intro met hmet
      obtain ⟨⟨name, node⟩, he, rfl⟩ := List.mem_map.1 (mem_sortBy.1 hmet)
      have hentry : ∀ entry ∈ done ++ [name], IsEntryName entry :=
        List.forall_mem_append.2 ⟨hdone, List.forall_mem_singleton.2 (named _ he)⟩
      have honLink' : node.IsPlain ∨ s.SpreadsLinks onLink :=
        honLink.imp_left fun hplain => hplain.of_mem he
      exact isSpread_atEntry honLink' hhere hentry
        (ih _ he honLink' (Path.child_eq_descend hhere) hentry)

/-- **What is met at links** lies in places of its own: by induction on the
number of links that may still be followed one within the other. -/
theorem spreadsLinks_atLink {w : Workspace} (h : w.files.IsProper) {links : Nat} :
    s.SpreadsLinks (s.atLink w links) := by
  induction links with
  | zero => exact fun _ _ _ _ _ => isSpread_nil
  | succ links ih =>
    intro above name done depth hdone
    rw [atLink]
    split
    · exact isSpread_singleton (.problem _)
    · rename_i location writable entries hfind
      split
      · exact isSpread_singleton (.problem _)
      · split
        · exact isSpread_nil
        · exact isSpread_below (.inr ih) (h.of_find hfind) rfl hdone
    · exact isSpread_singleton .nowhere
    · split
      · exact isSpread_nil
      · exact isSpread_singleton (.file (List.concat_ne_nil _ _))

/-- **All that the walk meets** lies in places of its own, if the scan root holds
no links or they lead to trees as they should be. -/
theorem isSpread_visits {w : Workspace} {location : Location}
    (h : t.IsPlain ∨ w.files.IsProper) (hdirectory : t.isDirectory)
    (hroot : w.find s.root.path .target = .ok (location, t)) : s.IsSpread [] (s.visits w) := by
  have hproper : t.IsProper :=
    h.elim FileTree.IsPlain.isProper fun hfiles => hfiles.of_find hroot
  have hlinks : t.IsPlain ∨ s.SpreadsLinks (s.atLink w w.files.size) :=
    h.imp_right fun hfiles => spreadsLinks_atLink hfiles
  have hbelow : s.IsSpread []
      (s.below (s.atLink w w.files.size) (location, s.root.path) [] 0 t) :=
    isSpread_below hlinks hproper rfl (by simp)
  cases t with
  | directory =>
    rw [visits_of_find hroot]
    exact hbelow
  | closedDirectory =>
    obtain ⟨⟨place, entry⟩, hentry⟩ := Workspace.exists_find_entry hroot
    rw [visits_of_find_closed hentry hroot]
    split
    · exact isSpread_singleton .nowhere
    · exact hbelow
  | _ => cases hdirectory

/-! ### What is told apart -/

variable {p q : Path} {d : Diagnostic}

/-- **Visits that show one place are the same.** -/
theorem IsSpread.eq_of_mem_shown {v v' : Visit} {text : String} (h : s.IsSpread done visits)
    (hv : v ∈ visits) (hv' : v' ∈ visits) (htext : text ∈ v.shown s.root)
    (htext' : text ∈ v'.shown s.root) : v = v' := by
  have hsymm : Std.Symm fun v v' : Visit => ∀ text ∈ v.shown s.root, text ∉ v'.shown s.root :=
    ⟨fun _ _ hapart text htext htext' => hapart text htext' htext⟩
  by_contra hne
  exact h.apart.forall hv hv' hne text htext htext'

theorem mem_filterMap_file? :
    path ∈ visits.filterMap Visit.file? ↔ .file path ∈ visits := by
  rw [List.mem_filterMap]
  constructor
  · rintro ⟨visit, hvisit, hfile⟩
    cases visit <;> cases hfile
    exact hvisit
  · exact fun h => ⟨_, h, rfl⟩

/-- **No file is met twice.** -/
theorem IsSpread.nodup_files (h : s.IsSpread done visits) :
    (visits.filterMap Visit.file?).Nodup := by
  refine List.pairwise_filterMap.2 (h.apart.imp fun {v v'} hapart => ?_)
  rintro path hpath _ hpath' rfl
  cases v <;> cases hpath
  cases v' <;> cases hpath'
  exact hapart _ rfl rfl

end Survey

end StackGraph
