import Mathlib.Data.List.Nodup
import StackGraph.Proofs.Descent
import StackGraph.Workspace
/-!
# Trees without links

In a tree without links a file lies at one location only: the names on the way
to it from the root of the tree (`FileTree.HasFile`). Links may still lie above
the tree, on the way to its root. What the path of the root is looked up for
makes no difference then: behind its links it leads to the tree, and as an
entry it leads to the tree or to a link (`Workspace.exists_find_entry`).
-/

namespace StackGraph

/-! ## Computations that can fail -/

/-- A computation that goes on with the outcome of another one succeeds if both
do. -/
theorem bind_eq_ok_iff {ε α β : Type} {x : Except ε α} {f : α → Except ε β} {b : β} :
    x >>= f = .ok b ↔ ∃ a, x = .ok a ∧ f a = .ok b := by
  cases x with
  | error e => exact iff_of_false (by rintro ⟨⟩) (by rintro ⟨_, ⟨⟩, _⟩)
  | ok a => exact ⟨fun h => ⟨a, rfl, h⟩, fun ⟨_, ha, h⟩ => Except.ok.inj ha ▸ h⟩

/-! ## Trees -/

namespace FileTree

variable {t node : FileTree} {writable : Bool} {entries : List (String × FileTree)}
variable {name : String} {names : Location}

/-- **Trees without links.** The entries of a directory have names, and
different ones. -/
inductive IsPlain : FileTree → Prop
  | file (content : Option String) : IsPlain (.file content)
  | closedFile : IsPlain .closedFile
  | closedDirectory (writable : Bool) : IsPlain (.closedDirectory writable)
  | directory {writable : Bool} {entries : List (String × FileTree)}
      (distinct : (entries.map Prod.fst).Nodup) (named : ∀ e ∈ entries, IsEntryName e.1)
      (plain : ∀ e ∈ entries, IsPlain e.2) : IsPlain (.directory writable entries)

/-- Only a directory that may be opened has a node of a name. -/
theorem exists_mem_of_child? (h : t.child? name = some node) :
    ∃ writable entries, t = directory writable entries ∧ (name, node) ∈ entries := by
  cases t with
  | directory writable entries =>
    obtain ⟨e, he, rfl⟩ := Option.map_eq_some_iff.1 h
    obtain rfl : e.1 = name := by simpa using List.find?_some he
    exact ⟨writable, entries, rfl, List.mem_of_find?_eq_some he⟩
  | _ => cases h

/-- Whether a file lies at a location, be it one that may not be opened. -/
def HasFile (t : FileTree) (names : Location) : Prop :=
  ∃ node, t.get? names = some node ∧ node.isFile

theorem hasFile_nil : t.HasFile [] ↔ t.isFile :=
  ⟨fun ⟨_, hget, hfile⟩ => Option.some.inj hget ▸ hfile, fun h => ⟨t, rfl, h⟩⟩

/-- Only a directory that may be opened has anything below it. -/
theorem HasFile.exists_eq (h : t.HasFile (name :: names)) :
    ∃ writable entries, t = directory writable entries := by
  obtain ⟨node, hget, -⟩ := h
  obtain ⟨child, hchild, -⟩ := Option.bind_eq_some_iff.1 hget
  obtain ⟨writable, entries, rfl, -⟩ := exists_mem_of_child? hchild
  exact ⟨writable, entries, rfl⟩

theorem child?_eq_some_iff (h : (entries.map Prod.fst).Nodup) :
    (directory writable entries).child? name = some node ↔ (name, node) ∈ entries := by
  constructor
  · intro hchild
    obtain ⟨_, _, heq, hmem⟩ := exists_mem_of_child? hchild
    cases heq
    exact hmem
  · intro hmem
    rw [child?, Option.map_eq_some_iff]
    cases hfind : entries.find? fun e => e.1 == name with
    | none => exact absurd (List.find?_eq_none.1 hfind _ hmem) (by simp)
    | some e =>
      have hname : e.1 = name := by simpa using List.find?_some hfind
      exact ⟨e, rfl, congrArg Prod.snd
        (List.inj_on_of_nodup_map h (List.mem_of_find?_eq_some hfind) hmem hname)⟩

/-- **A file below a directory** lies in the entry of the first name. -/
theorem hasFile_directory_cons (h : (entries.map Prod.fst).Nodup) :
    (directory writable entries).HasFile (name :: names)
      ↔ ∃ node, (name, node) ∈ entries ∧ node.HasFile names := by
  constructor
  · rintro ⟨file, hget, hfile⟩
    obtain ⟨node, hchild, hget⟩ := Option.bind_eq_some_iff.1 hget
    exact ⟨node, (child?_eq_some_iff h).1 hchild, file, hget, hfile⟩
  · rintro ⟨node, hmem, file, hget, hfile⟩
    exact ⟨file, Option.bind_eq_some_iff.2 ⟨node, (child?_eq_some_iff h).2 hmem, hget⟩, hfile⟩

/-- The names on the way to a file are names of entries. -/
theorem IsPlain.isEntryName (h : t.IsPlain) (hfile : t.HasFile names) :
    ∀ name ∈ names, IsEntryName name := by
  induction names generalizing t with
  | nil => exact fun _ hname => absurd hname List.not_mem_nil
  | cons name names ih =>
    obtain ⟨writable, entries, rfl⟩ := hfile.exists_eq
    cases h with
    | directory distinct named plain =>
      obtain ⟨node, hmem, hfile⟩ := (hasFile_directory_cons distinct).1 hfile
      exact List.forall_mem_cons.2 ⟨named _ hmem, ih (plain _ hmem) hfile⟩

/-- **Files of a tree without links are told apart by their paths.** -/
theorem IsPlain.components_descend_inj {root : Path} {names' : Location} (h : t.IsPlain)
    (hfile : t.HasFile names) (hfile' : t.HasFile names') :
    (root.descend names).components = (root.descend names').components ↔ names = names' :=
  Path.components_descend_inj (h.isEntryName hfile) (h.isEntryName hfile')

/-! ## Looking up paths -/

theorem get?_concat {here : Location} :
    t.get? (here ++ [name]) = (t.get? here).bind (child? name) := by
  induction here generalizing t with
  | nil => exact Option.bind_fun_some _
  | cons first here ih =>
    show (t.child? first).bind _ = ((t.child? first).bind _).bind _
    rw [Option.bind_assoc]
    exact Option.bind_congr fun _ _ => ih

/-- A place shows the node of a tree that lies there, if it shows any. -/
def Place.LiesIn (place : Place) (t : FileTree) : Prop :=
  ∀ node ∈ place.node, t.get? place.location = some node

section Resolution

variable {purpose : Purpose} {here : Location} {pieces : List String} {place : Place}

/-- A step of resolution leads to a place in the tree, if what is behind links
does. -/
theorem liesIn_of_resolveWith {onLink : Location → List String → Except FileError Place}
    (hlink : ∀ here pieces place, onLink here pieces = .ok place → place.LiesIn t)
    (hplace : t.resolveWith purpose onLink here pieces = .ok place) : place.LiesIn t := by
  induction pieces generalizing here with
  | nil =>
    cases hplace
    exact fun node hnode => hnode
  | cons piece rest ih =>
    unfold resolveWith at hplace
    split at hplace
    · rename_i hhere
      split at hplace
      · exact ih hplace
      split at hplace
      · exact ih hplace
      split at hplace
      · cases hplace
      split at hplace
      · cases hplace
      split at hplace
      · -- a name that is still free
        split at hplace <;> cases hplace
        exact fun node hnode => by cases hnode
      · rename_i target hchild
        split at hplace
        · cases hplace
          rintro node hnode
          cases hnode
          rw [get?_concat, hhere]
          exact hchild
        · exact hlink _ _ _ hplace
      · exact ih hplace
    · split at hplace
      · exact ih hplace
      · cases hplace
    · cases hplace

theorem liesIn_of_resolveFrom {links : Nat}
    (hplace : t.resolveFrom purpose links here pieces = .ok place) : place.LiesIn t := by
  induction links generalizing here pieces place with
  | zero => exact liesIn_of_resolveWith (fun _ _ _ hfail => by cases hfail) hplace
  | succ links ih => exact liesIn_of_resolveWith (fun _ _ _ => ih) hplace

end Resolution

/-- Whether a resolution ends at a node. -/
def LeadsToNode (r : Except FileError Place) : Prop := ∃ place, r = .ok place ∧ place.node.isSome

theorem not_leadsToNode_error {e : FileError} : ¬ LeadsToNode (.error e) := by
  rintro ⟨_, ⟨⟩, _⟩

/-- A step of resolution to an entry gets as far as one to what is behind the
links, if this holds for the targets of links. -/
theorem leadsToNode_resolveWith {onTarget onEntry : Location → List String → Except FileError Place}
    (h : ∀ here pieces, LeadsToNode (onTarget here pieces) → LeadsToNode (onEntry here pieces))
    {here : Location} {pieces : List String}
    (htarget : LeadsToNode (t.resolveWith .target onTarget here pieces)) :
    LeadsToNode (t.resolveWith .entry onEntry here pieces) := by
  induction pieces generalizing here with
  | nil => exact htarget
  | cons piece rest ih =>
    unfold resolveWith at htarget ⊢
    split at htarget
    · by_cases hstay : piece = "" ∨ piece = "."
      · rw [if_pos hstay] at htarget ⊢
        exact ih htarget
      rw [if_neg hstay] at htarget ⊢
      by_cases hup : piece = ".."
      · rw [if_pos hup] at htarget ⊢
        exact ih htarget
      rw [if_neg hup, if_neg (by simp)] at htarget ⊢
      by_cases hlong : nameLimit < piece.utf8ByteSize
      · rw [if_pos hlong] at htarget
        exact absurd htarget not_leadsToNode_error
      rw [if_neg hlong] at htarget ⊢
      split at htarget
      · exact htarget
      · -- only a link at the end is an entry of its own
        rw [if_neg (by simp)] at htarget
        split
        · exact ⟨_, rfl, rfl⟩
        · exact h _ _ htarget
      · exact ih htarget
    · split at htarget
      · rename_i hstay
        rw [if_pos hstay]
        exact ih htarget
      · exact absurd htarget not_leadsToNode_error
    · exact absurd htarget not_leadsToNode_error

/-- **What a path leads to behind all links, it leads to as an entry**, or to a
link in its place. -/
theorem leadsToNode_resolveFrom {links : Nat} {here : Location} {pieces : List String}
    (h : LeadsToNode (t.resolveFrom .target links here pieces)) :
    LeadsToNode (t.resolveFrom .entry links here pieces) := by
  induction links generalizing here pieces with
  | zero => exact leadsToNode_resolveWith (fun _ _ => id) h
  | succ links ih => exact leadsToNode_resolveWith (fun _ _ => ih) h

end FileTree

namespace Workspace

open FileTree

variable {w : Workspace} {p : Path}

/-- **What a path leads to lies at its location in the tree.** -/
theorem get?_of_find {purpose : Purpose} {location : Location} {node : FileTree}
    (h : w.find p purpose = .ok (location, node)) : w.files.get? location = some node := by
  obtain ⟨⟨found, _ | node'⟩, hplace, hnode⟩ := bind_eq_ok_iff.1 h
  · cases hnode
  · cases hnode
    unfold Workspace.place at hplace
    split at hplace
    · cases hplace
    · exact liesIn_of_resolveFrom hplace _ rfl

/-- A path that leads anywhere is one that can be opened. -/
theorem ofPath?_of_find {purpose : Purpose} {found : Location × FileTree}
    (h : w.find p purpose = .ok found) : FileError.ofPath? p = none := by
  obtain ⟨_, hplace, -⟩ := bind_eq_ok_iff.1 h
  unfold Workspace.place at hplace
  split at hplace
  · cases hplace
  · assumption

theorem exists_find_iff {purpose : Purpose} :
    (∃ found, w.find p purpose = .ok found) ↔ LeadsToNode (w.place p purpose) := by
  constructor
  · rintro ⟨found, h⟩
    obtain ⟨⟨location, _ | node⟩, hplace, hfound⟩ := bind_eq_ok_iff.1 h
    · cases hfound
    · exact ⟨_, hplace, rfl⟩
  · rintro ⟨⟨location, node⟩, hplace, hnode⟩
    obtain ⟨node, rfl⟩ := Option.isSome_iff_exists.1 hnode
    exact ⟨(location, node), bind_eq_ok_iff.2 ⟨_, hplace, rfl⟩⟩

/-- **A path that leads to a node is a path of one.** -/
theorem exists_find_entry {found : Location × FileTree} (h : w.find p .target = .ok found) :
    ∃ entry, w.find p .entry = .ok entry := by
  have hleads : LeadsToNode (w.place p .target) := exists_find_iff.1 ⟨found, h⟩
  refine exists_find_iff.2 ?_
  unfold place at hleads ⊢
  split at hleads
  · exact absurd hleads not_leadsToNode_error
  · exact leadsToNode_resolveFrom hleads

end Workspace

end StackGraph
