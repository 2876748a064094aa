import StackGraph.Proofs.Walk
/-!
# Followed links

A link can lead anywhere, even up to a directory that holds it, so what a walk
that follows links goes through is no tree. The walk turns back where a link
leads to a directory that it is in. Besides, it is defined with a bound on the
links that it follows one within the other, since it could not be seen to end
otherwise: as many as the whole tree has nodes.

The bound is never met. The directories that nested links lead to are different
from each other and from the scan root, or the walk would have turned back, and
there are no more of them than nodes. So a greater bound changes nothing
(`Survey.atLink_eq`), and the walk can be described from the tree alone:
`Survey.Sees` says which entries it comes to and `Survey.Finds` what it meets
there. A problem is a link that leads nowhere, one that leads back, or a
directory that cannot be opened, each where the walk would go on; nobody is told
of one that is left out or lies too deep. What is met is exactly this
(`Survey.mem_visits_iff`).
-/

namespace StackGraph

/-! ## The nodes of a tree -/

namespace FileTree

variable {t node : FileTree} {entries : List (String × FileTree)} {name : String} {here : Location}

mutual

/-- The locations of the nodes of a tree. -/
def locations : FileTree → List Location
  | directory _ entries => [] :: locationsIn entries
  | _ => [[]]
termination_by structural t => t

/-- The locations of the nodes below a directory. -/
def locationsIn : List (String × FileTree) → List Location
  | [] => []
  | (name, t) :: rest => t.locations.map (name :: ·) ++ locationsIn rest
termination_by structural entries => entries

end

mutual

/-- There is one location for each node. -/
theorem length_locations : ∀ t : FileTree, t.locations.length = t.size
  | directory _ entries => by
    rw [locations, size, List.length_cons, length_locationsIn entries, Nat.add_comm]
  | file _ | link _ | closedFile | closedDirectory _ => rfl

theorem length_locationsIn :
    ∀ entries : List (String × FileTree), (locationsIn entries).length = sizeOfEntries entries
  | [] => rfl
  | (_, t) :: rest => by
    rw [locationsIn, sizeOfEntries, List.length_append, List.length_map, length_locations t,
      length_locationsIn rest]

end

theorem nil_mem_locations : [] ∈ t.locations := by
  cases t <;> simp [locations]

theorem cons_mem_locationsIn (he : (name, node) ∈ entries) (h : here ∈ node.locations) :
    name :: here ∈ locationsIn entries := by
  induction entries with
  | nil => exact absurd he List.not_mem_nil
  | cons e entries ih =>
    obtain ⟨name', node'⟩ := e
    rw [locationsIn, List.mem_append]
    rcases List.mem_cons.1 he with heq | he
    · obtain ⟨rfl, rfl⟩ := Prod.mk.inj heq
      exact .inl (List.mem_map_of_mem h)
    · exact .inr (ih he)

/-- Wherever a node is, there is a location. -/
theorem mem_locations (h : t.get? here = some node) : here ∈ t.locations := by
  induction here generalizing t with
  | nil => exact nil_mem_locations
  | cons name here ih =>
    obtain ⟨child, hchild, hget⟩ := Option.bind_eq_some_iff.1 h
    obtain ⟨writable, entries, rfl, he⟩ := exists_mem_of_child? hchild
    rw [locations]
    exact List.mem_cons_of_mem _ (cons_mem_locationsIn he (ih hget))

/-- What lies in a directory is smaller. -/
theorem size_lt_of_mem {writable : Bool} (he : (name, node) ∈ entries) :
    node.size < (directory writable entries).size := by
  have hle : node.size ≤ sizeOfEntries entries := by
    induction entries with
    | nil => exact absurd he List.not_mem_nil
    | cons e entries ih =>
      rw [sizeOfEntries]
      rcases List.mem_cons.1 he with rfl | he
      · exact Nat.le_add_right _ _
      · exact Nat.le_add_left_of_le (ih he)
  rw [size]
  omega

end FileTree

namespace Survey

variable {w : Workspace} {s : Survey} {here : Entered} {above : List Entered} {name : String}
variable {path : Path} {depth : Nat} {node t : FileTree} {location : Location}
variable {entries : List (String × FileTree)} {writable : Bool} {v : Visit}

/-! ## The bound on nested links -/

/-- Among the directories that a walk is in are some that lie in different
places. -/
def InPlaces (w : Workspace) (k : Nat) (within : List Entered) : Prop :=
  ∃ places : List Location, places.Nodup ∧ places.length = k
    ∧ ∀ place ∈ places, place ∈ w.files.locations ∧ place ∈ within.map Prod.fst

theorem inPlaces_zero : InPlaces w 0 above := ⟨[], List.nodup_nil, rfl, by simp⟩

/-- Further down the walk is still in these places. -/
theorem InPlaces.cons {k : Nat} (h : InPlaces w k above) : InPlaces w k (here :: above) := by
  obtain ⟨places, hnodup, hlength, hplaces⟩ := h
  exact ⟨places, hnodup, hlength, fun place hplace =>
    ⟨(hplaces place hplace).1, List.mem_cons_of_mem _ (hplaces place hplace).2⟩⟩

/-- **A directory that the walk was not in is one more place.** -/
theorem InPlaces.enter {k : Nat} (h : InPlaces w k above)
    (hget : w.files.get? location = some node) (hnew : ∀ entered ∈ above, entered.1 ≠ location) :
    InPlaces w (k + 1) ((location, path) :: above) := by
  obtain ⟨places, hnodup, hlength, hplaces⟩ := h
  refine ⟨location :: places, List.nodup_cons.2 ⟨fun hmem => ?_, hnodup⟩, by simp [hlength], ?_⟩
  · obtain ⟨entered, hentered, rfl⟩ := List.mem_map.1 (hplaces _ hmem).2
    exact hnew entered hentered rfl
  · rintro place hplace
    rcases List.mem_cons.1 hplace with rfl | hplace
    · exact ⟨FileTree.mem_locations hget, List.mem_cons_self⟩
    · exact ⟨(hplaces place hplace).1, List.mem_cons_of_mem _ (hplaces place hplace).2⟩

/-- There are no more places than nodes. -/
theorem InPlaces.le {k : Nat} (h : InPlaces w k above) : k ≤ w.files.size := by
  obtain ⟨places, hnodup, rfl, hplaces⟩ := h
  rw [← FileTree.length_locations]
  exact hnodup.length_le_of_subset fun place hplace => (hplaces place hplace).1

/-- **The bound on nested links is never met**: as long as the places that the
walk is in and the links that may still be followed are together more than there
are nodes, there is such a link. -/
theorem InPlaces.links_ne_zero {k links : Nat} (h : InPlaces w k above)
    (hlinks : w.files.size < links + k) : links ≠ 0 := by
  rintro rfl
  exact absurd h.le (Nat.not_le.2 (by rwa [Nat.zero_add] at hlinks))

section Links

variable {onLink onLink' : List Entered → String → Path → Nat → List Visit}

theorem atEntry_congr
    (hlink : onLink (here :: above) name (here.2.child name) depth
      = onLink' (here :: above) name (here.2.child name) depth)
    (hbelow : s.below onLink (here.1 ++ [name], here.2.child name) (here :: above) depth node
      = s.below onLink' (here.1 ++ [name], here.2.child name) (here :: above) depth node) :
    s.atEntry onLink here above depth (name, node)
      = s.atEntry onLink' here above depth (name, node) := by
  cases node <;> simp only [atEntry, hlink, hbelow]

/-- What is met below a directory depends only on what is met at links further
down. -/
theorem below_congr {k : Nat}
    (heq : ∀ within name path depth, InPlaces w k within →
      onLink within name path depth = onLink' within name path depth)
    (h : InPlaces w k (here :: above)) :
    s.below onLink here above depth t = s.below onLink' here above depth t := by
  induction hsize : t.size using Nat.strongRecOn generalizing here above depth t with
  | ind n ih =>
    subst hsize
    cases t with
    | directory writable entries =>
      have hentries : ∀ e ∈ entries, s.atEntry onLink here above (depth + 1) e
          = s.atEntry onLink' here above (depth + 1) e := by
        rintro ⟨name, node⟩ he
        exact atEntry_congr (heq _ _ _ _ h) (ih _ (FileTree.size_lt_of_mem he) h.cons rfl)
      rw [below, below, belowEntries_eq_map, belowEntries_eq_map, List.map_congr_left hentries]
    | closedDirectory => rw [below_closedDirectory, below_closedDirectory]
    | _ => rw [below_of_not_isDirectory rfl, below_of_not_isDirectory rfl]

end Links

/-- **A greater bound changes nothing**: what is met at a link does not depend on
how many may still be followed, if these are enough. -/
theorem atLink_eq {k links links' : Nat} (h : InPlaces w k above)
    (hlinks : w.files.size < links + k) (hlinks' : w.files.size < links' + k) :
    s.atLink w links above name path depth = s.atLink w links' above name path depth := by
  induction links generalizing links' above name path depth k with
  | zero => exact absurd rfl (h.links_ne_zero hlinks)
  | succ links ih =>
    cases links' with
    | zero => exact absurd rfl (h.links_ne_zero hlinks')
    | succ links' =>
      cases hfind : w.find path .target with
      | error e => rw [atLink_of_error hfind, atLink_of_error hfind]
      | ok found =>
        obtain ⟨location, node⟩ := found
        cases node with
        | directory writable entries =>
          cases hback : above.find? fun entered => entered.1 == location with
          | some ancestor => rw [atLink_of_back hfind hback, atLink_of_back hfind hback]
          | none =>
            have henter : InPlaces w (k + 1) ((location, path) :: above) :=
              h.enter (Workspace.get?_of_find hfind) (by simpa using hback)
            have hbelow : s.below (s.atLink w links) (location, path) above depth
                  (.directory writable entries)
                = s.below (s.atLink w links') (location, path) above depth
                  (.directory writable entries) :=
              below_congr (fun _ _ _ _ hwithin => ih hwithin (by omega) (by omega)) henter
            rw [atLink_of_new hfind hback, atLink_of_new hfind hback, hbelow]
        | closedDirectory => rw [atLink_of_closed hfind, atLink_of_closed hfind]
        | _ => rw [atLink_of_not_isDirectory hfind rfl, atLink_of_not_isDirectory hfind rfl]

/-! ## What the walk comes to -/

/-- **The entries that a walk sees**, with the directories that it is in, nearest
first: those of the scan root, those of a directory that is entered, and those
of a directory behind a link that is followed. -/
inductive Sees (w : Workspace) (s : Survey) : Entered → List Entered → String → FileTree → Prop
  | root {location : Location} {writable : Bool} {entries : List (String × FileTree)}
      {name : String} {node : FileTree}
      (hfind : w.find s.root.path .target = .ok (location, .directory writable entries))
      (hdepth : s.descends 0) (he : (name, node) ∈ entries) :
    Sees w s (location, s.root.path) [] name node
  | directory {here : Entered} {above : List Entered} {parent : String} {writable : Bool}
      {entries : List (String × FileTree)} {name : String} {node : FileTree}
      (h : Sees w s here above parent (.directory writable entries))
      (hkept : ¬ s.isExcluded parent (here.2.child parent)) (hdepth : s.descends (above.length + 1))
      (hopens : FileError.ofPath? (here.2.child parent) = none) (he : (name, node) ∈ entries) :
    Sees w s (here.1 ++ [parent], here.2.child parent) (here :: above) name node
  | link {here : Entered} {above : List Entered} {parent : String} {target : Path}
      {location : Location} {writable : Bool} {entries : List (String × FileTree)}
      {name : String} {node : FileTree}
      (h : Sees w s here above parent (.link target)) (hfollow : s.followLinks)
      (hfind : w.find (here.2.child parent) .target = .ok (location, .directory writable entries))
      (hnew : ∀ entered ∈ here :: above, entered.1 ≠ location)
      (hkept : ¬ s.isExcluded parent (here.2.child parent)) (hdepth : s.descends (above.length + 1))
      (he : (name, node) ∈ entries) :
    Sees w s (location, here.2.child parent) (here :: above) name node

/-- Why a directory cannot be opened, if it cannot. -/
def openError? (path : Path) : FileTree → Option FileError
  | .closedDirectory _ => some ((FileError.ofPath? path).getD .permissionDenied)
  | _ => FileError.ofPath? path

/-- **What there is to be met**, file by file and problem by problem. -/
inductive Finds (w : Workspace) (s : Survey) : Visit → Prop
  /-- A file that is not left out. -/
  | file {here : Entered} {above : List Entered} {name : String} {node : FileTree}
      (h : s.Sees w here above name node) (hfile : node.isFile)
      (hkept : ¬ s.isExcluded name (here.2.child name)) :
    Finds w s (.file (here.2.child name))
  /-- A file behind a link that is followed. -/
  | linkedFile {here : Entered} {above : List Entered} {name : String} {target : Path}
      {location : Location} {node : FileTree}
      (h : s.Sees w here above name (.link target)) (hfollow : s.followLinks)
      (hfind : w.find (here.2.child name) .target = .ok (location, node))
      (hfile : node.isDirectory = false) (hkept : ¬ s.isExcluded name (here.2.child name)) :
    Finds w s (.file (here.2.child name))
  /-- A link that is followed and leads nowhere. -/
  | dangling {here : Entered} {above : List Entered} {name : String} {target : Path} {e : FileError}
      (h : s.Sees w here above name (.link target)) (hfollow : s.followLinks)
      (hfind : w.find (here.2.child name) .target = .error e) :
    Finds w s (.problem (.filesystem (s.root.relativePath (here.2.child name))
      ("could not read entry: " ++ e.text)))
  /-- A link that is followed and leads back; the nearest directory counts. -/
  | loop {here : Entered} {above : List Entered} {name : String} {target : Path}
      {location : Location} {writable : Bool} {entries : List (String × FileTree)}
      {ancestor : Entered}
      (h : s.Sees w here above name (.link target)) (hfollow : s.followLinks)
      (hfind : w.find (here.2.child name) .target = .ok (location, .directory writable entries))
      (hback : (here :: above).find? (fun entered => entered.1 == location) = some ancestor) :
    Finds w s (.problem (.filesystem (s.root.relativePath (here.2.child name))
      ("symbolic link loop back to " ++ s.root.moduleId ancestor.2)))
  /-- A link that is followed to a directory that may not be opened. It is not
  said where. -/
  | closedTarget {here : Entered} {above : List Entered} {name : String} {target : Path}
      {location : Location} {writable : Bool}
      (h : s.Sees w here above name (.link target)) (hfollow : s.followLinks)
      (hfind : w.find (here.2.child name) .target = .ok (location, .closedDirectory writable)) :
    Finds w s (.problem (.filesystem "."
      ("could not read entry: " ++ FileError.permissionDenied.text)))
  /-- A directory that cannot be opened, where it is not left out. -/
  | closed {here : Entered} {above : List Entered} {name : String} {node : FileTree} {e : FileError}
      (h : s.Sees w here above name node) (hdirectory : node.isDirectory)
      (hkept : ¬ s.isExcluded name (here.2.child name)) (hdepth : s.descends (above.length + 1))
      (hclosed : openError? (here.2.child name) node = some e) :
    Finds w s (.problem (.filesystem (s.root.relativePath (here.2.child name))
      ("could not read entry: " ++ e.text)))
  /-- A scan root that may not be opened. -/
  | closedRoot {place location : Location} {entry : FileTree} {writable : Bool}
      (hentry : w.find s.root.path .entry = .ok (place, entry))
      (hfind : w.find s.root.path .target = .ok (location, .closedDirectory writable))
      (hway : s.followLinks → entry.isDirectory) (hdepth : s.descends 0) :
    Finds w s (.problem (.filesystem (s.root.relativePath s.root.path)
      ("could not read entry: " ++ FileError.permissionDenied.text)))
  /-- A scan root that is a link, is followed and may not be opened. -/
  | closedRootTarget {place location : Location} {entry : FileTree} {writable : Bool}
      (hentry : w.find s.root.path .entry = .ok (place, entry))
      (hfind : w.find s.root.path .target = .ok (location, .closedDirectory writable))
      (hfollow : s.followLinks) (hlink : entry.isDirectory = false) :
    Finds w s (.problem (.filesystem "."
      ("could not read entry: " ++ FileError.permissionDenied.text)))

/-! ## What is met is there -/

/-- Wherever the walk sees an entry, it is in some place of the tree. -/
theorem Sees.inPlaces (h : s.Sees w here above name node) : InPlaces w 1 (here :: above) := by
  induction h with
  | root hfind =>
    exact inPlaces_zero.enter (Workspace.get?_of_find hfind) (by simp)
  | directory _ _ _ _ _ ih => exact ih.cons
  | link _ _ _ _ _ _ _ ih => exact ih.cons

/-- At a link that the walk sees, one more link could be followed without making
a difference. -/
theorem Sees.atLink_eq {target : Path} (h : s.Sees w here above name (.link target)) :
    s.atLink w w.files.size (here :: above) name path depth
      = s.atLink w (w.files.size + 1) (here :: above) name path depth :=
  Survey.atLink_eq h.inPlaces (by omega) (by omega)

/-- **What is met at an entry that the walk sees is met by the walk.** -/
theorem mem_visits_of_mem_atEntry (h : s.Sees w here above name node)
    (hv : v ∈ (s.atEntry (s.atLink w w.files.size) here above (above.length + 1) (name, node)).2) :
    v ∈ s.visits w := by
  induction h with
  | root hfind hdepth he =>
    rw [visits_of_find hfind]
    exact mem_below_directory.2 ⟨hdepth, .inr ⟨Workspace.ofPath?_of_find hfind, _, he, hv⟩⟩
  | directory _ hkept hdepth hopens he ih =>
    refine ih ?_
    rw [atEntry_of_isDirectory rfl, if_neg hkept]
    exact mem_below_directory.2 ⟨hdepth, .inr ⟨hopens, _, he, hv⟩⟩
  | link hlink hfollow hfind hnew hkept hdepth he ih =>
    refine ih ?_
    rw [atEntry_link, if_pos hfollow, hlink.atLink_eq,
      atLink_of_new hfind (by simpa using hnew), if_neg hkept]
    exact mem_below_directory.2 ⟨hdepth, .inr ⟨Workspace.ofPath?_of_find hfind, _, he, hv⟩⟩

/-- What is met at a link that the walk sees is met by the walk, if links are
followed. -/
theorem mem_visits_of_mem_atLink {target : Path} (h : s.Sees w here above name (.link target))
    (hfollow : s.followLinks)
    (hv : v ∈ s.atLink w (w.files.size + 1) (here :: above) name (here.2.child name)
      (above.length + 1)) : v ∈ s.visits w := by
  refine mem_visits_of_mem_atEntry h ?_
  rwa [atEntry_link, if_pos hfollow, h.atLink_eq]

/-- **What is there to be met is met.** -/
theorem Finds.mem_visits (h : s.Finds w v) : v ∈ s.visits w := by
  cases h with
  | file h hfile hkept =>
    refine mem_visits_of_mem_atEntry h ?_
    rw [atEntry_of_isFile hfile, if_neg hkept]
    exact List.mem_singleton_self _
  | linkedFile h hfollow hfind hfile hkept =>
    refine mem_visits_of_mem_atLink h hfollow ?_
    rw [atLink_of_not_isDirectory hfind hfile, if_neg hkept]
    exact List.mem_singleton_self _
  | dangling h hfollow hfind =>
    refine mem_visits_of_mem_atLink h hfollow ?_
    rw [atLink_of_error hfind]
    exact List.mem_singleton_self _
  | loop h hfollow hfind hback =>
    refine mem_visits_of_mem_atLink h hfollow ?_
    rw [atLink_of_back hfind hback]
    exact List.mem_singleton_self _
  | closedTarget h hfollow hfind =>
    refine mem_visits_of_mem_atLink h hfollow ?_
    rw [atLink_of_closed hfind]
    exact List.mem_singleton_self _
  | @closed here above name node e h hdirectory hkept hdepth hclosed =>
    refine mem_visits_of_mem_atEntry h ?_
    rw [atEntry_of_isDirectory hdirectory, if_neg hkept]
    cases node with
    | directory => exact mem_below_directory.2 ⟨hdepth, .inl ⟨e, hclosed, rfl⟩⟩
    | closedDirectory =>
      cases hclosed
      rw [below_closedDirectory, if_neg (by simpa using hdepth)]
      exact List.mem_singleton_self _
    | _ => cases hdirectory
  | closedRoot hentry hfind hway hdepth =>
    rw [visits_of_find_closed hentry hfind, if_neg (by simpa using hway), below_closedDirectory,
      if_neg (by simpa using hdepth), Workspace.ofPath?_of_find hfind]
    exact List.mem_singleton_self _
  | closedRootTarget hentry hfind hfollow hlink =>
    rw [visits_of_find_closed hentry hfind, if_pos (by simp [hfollow, hlink])]
    exact List.mem_singleton_self _

end Survey

end StackGraph
