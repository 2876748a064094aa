import Mathlib.Data.List.DropRight
import StackGraph.ScanRoot
/-!
# The directory of a file

A path is a text, and what it means are its components. Taking the parent is
done on the text: the pieces between the slashes are cut off from the end,
those that stand for nothing together with the one that stands for the last
component, and the rest is put together again. On components this is simply
leaving out the last one (`Path.exists_parent?_eq`), whatever slashes and
points are written in between.

So the id of the module of a file and the path of the file from the scan root
are computed in different ways from different texts, but the id is the
directory part of the path (`ScanRoot.moduleIdOfFile_eq`).
-/

namespace StackGraph

/-! ## Splitting and putting together -/

namespace Text

variable {p : Char → Bool} {c : Char} {s piece : List Char} {pieces : List (List Char)}

/-- Text is split as lists are in the library. -/
theorem splitOn_eq_splitOnP : splitOn p s = s.splitOnP p := by
  induction s with
  | nil => rfl
  | cons a s ih =>
    rw [splitOn, ih, List.splitOnP_cons_eq_if_modifyHead]
    obtain ⟨piece, pieces, hsplit⟩ := List.exists_cons_of_ne_nil (List.splitOnP_ne_nil p s)
    rw [hsplit]
    cases p a <;> rfl

/-- Pieces are put together as lists are in the library. -/
theorem intercalate_eq (separator : List Char) (pieces : List (List Char)) :
    intercalate separator pieces = separator.intercalate pieces := by
  induction pieces with
  | nil => rfl
  | cons piece pieces ih =>
    cases pieces with
    | nil => simp [intercalate, List.intercalate]
    | cons next pieces =>
      rw [intercalate, ih, List.intercalate_cons_cons]
      exact List.cons_ne_nil _ _

/-- A separator ends the pieces of what is before it. -/
theorem splitOn_append_separator {t : List Char} (hc : p c) :
    splitOn p (s ++ c :: t) = splitOn p s ++ splitOn p t := by
  simp only [splitOn_eq_splitOnP]
  exact List.splitOnP_append_cons s t hc

/-- **Pieces without separators are found again.** -/
theorem splitOn_intercalate_separator (hc : p c) (hne : pieces ≠ [])
    (h : ∀ piece ∈ pieces, ∀ d ∈ piece, p d = false) :
    splitOn p (intercalate [c] pieces) = pieces := by
  induction pieces with
  | nil => exact absurd rfl hne
  | cons piece pieces ih =>
    obtain ⟨hpiece, hpieces⟩ := List.forall_mem_cons.1 h
    have hsingle : splitOn p piece = [piece] := by
      rw [splitOn_eq_splitOnP]
      exact List.splitOnP_eq_singleton hpiece
    cases pieces with
    | nil => exact hsingle
    | cons next pieces =>
      show splitOn p (piece ++ [c] ++ intercalate [c] (next :: pieces)) = _
      rw [List.append_assoc, List.singleton_append, splitOn_append_separator hc, hsingle,
        ih (List.cons_ne_nil _ _) hpieces]
      rfl

theorem splitOn_intercalate (hne : pieces ≠ []) (h : ∀ piece ∈ pieces, c ∉ piece) :
    splitOn (· == c) (intercalate [c] pieces) = pieces :=
  splitOn_intercalate_separator (beq_self_eq_true c) hne fun piece hpiece _ hd =>
    beq_eq_false_iff_ne.2 fun heq => h piece hpiece (heq ▸ hd)

/-- Without the separator there is only one piece. -/
theorem splitOn_of_not_mem (h : c ∉ s) : splitOn (· == c) s = [s] := by
  rw [splitOn_eq_splitOnP]
  exact List.splitOnP_eq_singleton fun d hd => beq_eq_false_iff_ne.2 fun heq => h (heq ▸ hd)

/-- Only the empty text has the empty piece alone. -/
theorem splitOn_eq_singleton_nil : splitOn (· == c) s = [[]] ↔ s = [] := by
  constructor
  · intro h
    rw [splitOn_eq_splitOnP] at h
    have hjoin : [c].intercalate (s.splitOnP (· == c)) = s := List.intercalate_splitOn c
    rw [← hjoin, h]
    rfl
  · rintro rfl
    rfl

/-- A text behind another one and a slash, as characters. -/
theorem toList_append_slash (a b : String) :
    (a ++ "/" ++ b).toList = a.toList ++ '/' :: b.toList := by simp

theorem splitOn_append_cons {t : List Char} :
    splitOn (· == c) (s ++ c :: t) = splitOn (· == c) s ++ splitOn (· == c) t :=
  splitOn_append_separator (beq_self_eq_true c)

/-- No piece has a separator. -/
theorem eq_false_of_mem_splitOn (h : piece ∈ splitOn p s) (hc : c ∈ piece) : p c = false := by
  induction s generalizing piece with
  | nil =>
    rw [List.mem_singleton.1 h] at hc
    exact absurd hc List.not_mem_nil
  | cons a s ih =>
    obtain ⟨next, pieces, hsplit⟩ := List.exists_cons_of_ne_nil (splitOn_ne_nil p s)
    rw [hsplit] at ih
    rw [splitOn, hsplit] at h
    cases ha : p a with
    | true =>
      rw [ha] at h
      rcases List.mem_cons.1 h with rfl | h
      · exact absurd hc List.not_mem_nil
      · exact ih h hc
    | false =>
      rw [ha] at h
      rcases List.mem_cons.1 h with rfl | h
      · rcases List.mem_cons.1 hc with rfl | hc
        · exact ha
        · exact ih List.mem_cons_self hc
      · exact ih (List.mem_cons_of_mem _ h) hc

theorem not_mem_of_mem_splitOn (h : piece ∈ splitOn (· == c) s) : c ∉ piece := by
  intro hc
  have hne := eq_false_of_mem_splitOn h hc
  rw [beq_self_eq_true] at hne
  cases hne

end Text

/-! ## Components -/

namespace Path

variable {p q base : Path} {first piece : List Char} {rest pieces : List (List Char)}
variable {init components : List Component} {name : String}

/-- What the first piece of a path stands for. -/
def lead (first : List Char) : List Component :=
  if first = [] then [.root] else if first = ['.'] then [.here] else (component? first).toList

/-- A path is absolute exactly if its first piece is empty and not all of
it. -/
theorem isAbsolute_iff (h : p.pieces = first :: rest) :
    p.isAbsolute ↔ first = [] ∧ rest ≠ [] := by
  rw [isAbsolute, beq_iff_eq]
  rw [Path.pieces] at h
  cases htext : p.text.toList with
  | nil =>
    rw [htext] at h
    cases h
    simp
  | cons c cs =>
    rw [htext, Text.splitOn] at h
    obtain ⟨next, others, hsplit⟩ := List.exists_cons_of_ne_nil (Text.splitOn_ne_nil (· == '/') cs)
    rw [hsplit] at h
    by_cases hc : c = '/'
    · subst hc
      cases h
      simp
    · have hc' : (c == '/') = false := by simpa using hc
      rw [hc'] at h
      cases h
      simp [hc]

/-- **The components of a path** from its pieces, unless it is empty. -/
theorem components_eq (h : p.pieces = first :: rest) (hne : first ≠ [] ∨ rest ≠ []) :
    p.components = lead first ++ rest.filterMap component? := by
  have habsolute := isAbsolute_iff h
  rw [components, h, lead]
  by_cases hfirst : first = []
  · rw [if_pos (habsolute.2 ⟨hfirst, hne.resolve_left (not_not.2 hfirst)⟩), hfirst]
    rfl
  · rw [if_neg (fun habs => hfirst (habsolute.1 habs).1), if_neg hfirst]
    by_cases hpoint : first = ['.']
    · rw [hpoint]
      rfl
    · rw [if_neg (by simpa using hpoint), if_neg hpoint, List.filterMap_cons]
      cases component? first <;> rfl

/-- The empty path has no components. -/
theorem components_eq_nil (h : p.pieces = [[]]) : p.components = [] := by
  have habsolute : ¬ p.isAbsolute := fun habs => ((isAbsolute_iff h).1 habs).2 rfl
  rw [components, h, if_neg habsolute]
  rfl

/-- A name among the components is not empty and has no slash. -/
theorem name_of_mem_components (h : .name name ∈ p.components) : name ≠ "" ∧ '/' ∉ name.toList := by
  have hbody : .name name ∈ p.pieces.filterMap component? := by
    unfold components at h
    split at h
    · simpa using h
    · split at h
      · simpa using h
      · exact h
  obtain ⟨piece, hpiece, hname⟩ := List.mem_filterMap.1 hbody
  unfold component? at hname
  split at hname
  · cases hname
  · rename_i hvoid
    split at hname
    · cases hname
    · cases hname
      rw [String.toList_ofList]
      refine ⟨fun hempty => hvoid (.inl ?_), Text.not_mem_of_mem_splitOn hpiece⟩
      simpa using congrArg String.toList hempty

/-! ### The parent -/

/-- Whether a piece stands for nothing. -/
abbrev isVoid (piece : List Char) : Bool := piece = [] ∨ piece = ['.']

theorem length_lead_le (first : List Char) : (lead first).length ≤ 1 := by
  unfold lead
  split
  · rfl
  · split
    · rfl
    · exact Option.length_toList_le

theorem dropVoid_cons : dropVoid (first :: rest) = first :: rest.rdropWhile isVoid := rfl

theorem component?_eq_none_iff : component? piece = none ↔ isVoid piece := by
  unfold component?
  split
  · simp_all
  · split <;> simp_all

/-- Pieces that stand for nothing can be cut off. -/
theorem filterMap_rdropWhile :
    (pieces.rdropWhile isVoid).filterMap component? = pieces.filterMap component? := by
  induction pieces using List.reverseRecOn with
  | nil => rfl
  | append_singleton pieces piece ih =>
    by_cases hvoid : isVoid piece
    · rw [List.rdropWhile_concat_pos _ _ _ hvoid, ih, List.filterMap_append]
      simp [component?_eq_none_iff.2 hvoid]
    · rw [List.rdropWhile_concat_neg _ _ _ hvoid]

/-- The path of some pieces. A single empty one stands for the root. -/
def ofPieces (pieces : List (List Char)) : Path :=
  match pieces with
  | [[]] => ⟨"/"⟩
  | pieces => ⟨String.ofList (Text.intercalate ['/'] pieces)⟩

/-- **The components of a path that is put together.** -/
theorem components_ofPieces (hslash : ∀ piece ∈ first :: rest, '/' ∉ piece) :
    (ofPieces (first :: rest)).components = lead first ++ rest.filterMap component? := by
  unfold ofPieces
  split
  · rename_i hroot
    cases hroot
    rfl
  · rename_i hroot
    refine components_eq ?_ ?_
    · rw [Path.pieces, String.toList_ofList, Text.splitOn_intercalate (List.cons_ne_nil _ _) hslash]
    · by_contra hempty
      obtain ⟨hfirst, hrest⟩ := not_or.1 hempty
      exact hroot (by rw [not_not.1 hfirst, not_not.1 hrest])

/-- The parent in terms of pieces. -/
theorem parent?_eq (h : p.components = init ++ [.name name]) :
    p.parent? = match dropVoid p.pieces with
      | [] | [_] => some ⟨""⟩
      | kept => some (ofPieces (dropVoid kept.dropLast)) := by
  unfold parent?
  rw [h, List.reverse_append]
  show (match dropVoid p.pieces with
    | [] | [_] => some (⟨""⟩ : Path)
    | kept => match dropVoid kept.dropLast with
      | [[]] => some ⟨"/"⟩
      | rest => some ⟨String.ofList (Text.intercalate ['/'] rest)⟩) = _
  split
  · rfl
  · rfl
  · unfold ofPieces
    split <;> rfl

/-- **Taking the parent leaves out the last component**, if it is a name. -/
theorem exists_parent?_eq (h : p.components = init ++ [.name name]) :
    ∃ q, p.parent? = some q ∧ q.components = init := by
  obtain ⟨first, rest, hpieces⟩ :=
    List.exists_cons_of_ne_nil (Text.splitOn_ne_nil (· == '/') p.text.toList)
  replace hpieces : p.pieces = first :: rest := hpieces
  have hslash : ∀ piece ∈ first :: rest, '/' ∉ piece := fun piece hpiece =>
    Text.not_mem_of_mem_splitOn (hpieces ▸ hpiece : piece ∈ p.pieces)
  rw [parent?_eq h, hpieces, dropVoid_cons]
  have hne : first ≠ [] ∨ rest ≠ [] := by
    by_contra hempty
    obtain ⟨hfirst, hrest⟩ := not_or.1 hempty
    rw [components_eq_nil (by rw [hpieces, not_not.1 hfirst, not_not.1 hrest])] at h
    exact absurd h.symm (by simp)
  rw [components_eq hpieces hne, ← filterMap_rdropWhile] at h
  rcases List.eq_nil_or_concat (rest.rdropWhile isVoid) with hcut | ⟨kept, last, hcut⟩
  · -- the first piece is all that the path says
    rw [hcut] at h ⊢
    refine ⟨⟨""⟩, rfl, ?_⟩
    have hlength := congrArg List.length h
    have hlead := length_lead_le first
    simp only [List.filterMap_nil, List.append_nil, List.length_append, List.length_singleton]
      at hlength
    rw [List.length_eq_zero_iff.1 (by omega : init.length = 0)]
    rfl
  · -- the last piece that says something is left out, with all that follow it
    rw [List.concat_eq_append] at hcut
    obtain ⟨c, hc⟩ : ∃ c, component? last = some c := by
      have hlast := List.rdropWhile_last_not isVoid rest (by simp [hcut])
      simp only [hcut, List.getLast_append_singleton] at hlast
      exact Option.ne_none_iff_exists'.1 fun hnone => hlast (component?_eq_none_iff.1 hnone)
    rw [hcut, List.filterMap_append, List.filterMap_cons_some hc, List.filterMap_nil,
      ← List.append_assoc] at h
    refine ⟨ofPieces (dropVoid (first :: kept)), ?_, ?_⟩
    · rw [hcut]
      rcases hshape : kept ++ [last] with _ | ⟨second, others⟩
      · exact absurd hshape (by simp)
      · show some (ofPieces (dropVoid (first :: second :: others).dropLast)) = _
        rw [← hshape, ← List.cons_append, List.dropLast_concat]
    · rw [dropVoid_cons, components_ofPieces, filterMap_rdropWhile, (List.append_inj' h rfl).1]
      have hkept : kept <+: rest :=
        (List.prefix_append kept [last]).trans (hcut ▸ List.rdropWhile_prefix isVoid rest)
      intro piece hpiece
      refine hslash piece (List.cons_subset_cons first ?_ hpiece)
      exact ((List.rdropWhile_prefix isVoid kept).trans hkept).subset

/-! ### Below another path -/

/-- **A path lies below a base** if its components start with those of the
base. -/
theorem below?_eq_some_iff :
    p.below? base = some components ↔ p.components = base.components ++ components := by
  have hgo : ∀ as bs : List Component,
      below?.go as bs = some components ↔ bs = as ++ components := by
    intro as
    induction as with
    | nil => intro bs; simp [below?.go]
    | cons a as ih =>
      intro bs
      cases bs with
      | nil => simp [below?.go]
      | cons b bs =>
        rw [below?.go, List.cons_append, List.cons.injEq]
        split
        · rename_i hab
          rw [ih, hab, and_iff_right rfl]
        · rename_i hab
          exact iff_of_false (by rintro ⟨⟩) fun h => hab h.1.symm
  exact hgo _ _

end Path

/-! ## Ids -/

/-- **Every id is made of its segments.** -/
theorem ModuleId.ofSegments_segments {id : String} : ofSegments (segments id) = id := by
  unfold segments
  split
  · rename_i hroot
    exact hroot.symm
  · have hne : (Text.splitOn (· == '/') id.toList).isEmpty = false :=
      List.isEmpty_eq_false_iff.2 (Text.splitOn_ne_nil _ _)
    have hjoin : ['/'].intercalate (id.toList.splitOnP (· == '/')) = id.toList :=
      List.intercalate_splitOn '/'
    rw [ofSegments, hne, Text.intercalate_eq, Text.splitOn_eq_splitOnP, hjoin]
    exact String.ofList_toList

/-- **The directory part** of the path of a file: all but its last name, where
a point stands for nothing. -/
def directoryPart (relative : String) : String :=
  ModuleId.ofSegments (Text.splitOn (· == '/') relative.toList).dropLast

/-- **A file below the scan root**: its path continues that of the root, and it
ends in the name of the file. -/
def ScanRoot.Holds (root : ScanRoot) (p : Path) : Prop :=
  ∃ components name, p.components = root.path.components ++ (components ++ [.name name])

namespace ScanRoot

open StackGraph.Path

variable {root : ScanRoot} {p : Path} {components : List Component} {name : String}

theorem relativePath_eq (h : p.components = root.path.components ++ components) :
    root.relativePath p = joinNames components := by
  rw [relativePath, below?_eq_some_iff.2 h]

/-- The names on the way to a path below the scan root. -/
theorem name_of_mem (h : p.components = root.path.components ++ components)
    (hname : name ∈ components.filterMap Component.name?) : name ≠ "" ∧ '/' ∉ name.toList := by
  obtain ⟨c, hc, hsome⟩ := List.mem_filterMap.1 hname
  cases c with
  | name =>
    cases hsome
    exact name_of_mem_components (h ▸ List.mem_append_right _ hc)
  | _ => cases hsome

/-- Names with slashes between them, as characters. -/
theorem toList_joined {names : List String} :
    ("/".intercalate names).toList = Text.intercalate ['/'] (names.map String.toList) := by
  rw [String.toList_intercalate, Text.intercalate_eq]
  rfl

/-- The id of a directory from the names on the way to it. -/
theorem moduleId_eq (h : p.components = root.path.components ++ components) :
    root.moduleId p
      = ModuleId.ofSegments ((components.filterMap Component.name?).map String.toList) := by
  have hname : ∀ name ∈ components.filterMap Component.name?, name ≠ "" ∧ '/' ∉ name.toList :=
    fun _ => name_of_mem h
  rw [moduleId, relativePath_eq h, joinNames, ModuleId.ofSegments]
  cases hnames : components.filterMap Component.name? with
  | nil => rfl
  | cons first rest =>
    have hfirst := (hname first (hnames ▸ List.mem_cons_self)).1
    have hjoined : "/".intercalate (first :: rest) ≠ "" := by
      cases rest with
      | nil => simpa using hfirst
      | cons second rest => simp [String.intercalate_cons_cons]
    rw [← toList_joined, String.ofList_toList]
    simp [hjoined]

/-- The directory part of the path of a file, from the names on the way to
it. -/
theorem directoryPart_relativePath
    (h : p.components = root.path.components ++ (components ++ [.name name])) :
    directoryPart (root.relativePath p)
      = ModuleId.ofSegments ((components.filterMap Component.name?).map String.toList) := by
  have hslash : ∀ piece ∈ ((components ++ [Component.name name]).filterMap
      Component.name?).map String.toList, '/' ∉ piece := by
    intro piece hpiece
    obtain ⟨name', hname', rfl⟩ := List.mem_map.1 hpiece
    exact (name_of_mem h hname').2
  have hnames : ((components ++ [Component.name name]).filterMap Component.name?).map String.toList
      = (components.filterMap Component.name?).map String.toList ++ [name.toList] := by
    simp [Component.name?]
  rw [directoryPart, relativePath_eq h, joinNames, toList_joined,
    Text.splitOn_intercalate (hnames ▸ List.concat_ne_nil _ _) hslash, hnames,
    List.dropLast_concat]

/-- **The id of the module of a file is the directory part of its path** from
the scan root. -/
theorem moduleIdOfFile_eq (h : root.Holds p) :
    root.moduleIdOfFile p = directoryPart (root.relativePath p) := by
  obtain ⟨components, name, hp⟩ := h
  obtain ⟨dir, hdir, hcomponents⟩ := exists_parent?_eq (hp.trans (List.append_assoc _ _ _).symm)
  rw [moduleIdOfFile, hdir, directoryPart_relativePath hp]
  exact moduleId_eq hcomponents

end ScanRoot

end StackGraph
