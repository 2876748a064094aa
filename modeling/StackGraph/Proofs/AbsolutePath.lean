import StackGraph.Proofs.RelativePath
/-!
# Absolute paths

What a relative path means from a module can be written absolutely as well: the
path of the scan root, the id of the module, and the relative path, with slashes
in between. An absolute path is taken apart in another way than a relative one,
though. Its components behind those of the scan root are found first, and only
the names among them are put together again and followed from the scan root, so
its pairs of points lead nowhere (`ScanRoot.resolve_absolutely`). Thus it means
something in any case, and what the relative path means only if this does not go
up.

One further thing is lost with the pieces that stand for nothing. The name of a
unit's file with a point behind it is a directory on a relative path, but the end
of an absolute one.
-/

namespace StackGraph

namespace Text

variable {p q : Char → Bool} {s : List Char}

/-- Text is split by what its own characters satisfy. -/
theorem splitOn_congr (h : ∀ c ∈ s, p c = q c) : splitOn p s = splitOn q s := by
  induction s with
  | nil => rfl
  | cons c s ih =>
    obtain ⟨hc, hs⟩ := List.forall_mem_cons.1 h
    rw [splitOn, splitOn, hc, ih hs]

end Text

namespace ModuleId

variable {done names segments : List (List Char)} {path : String}

/-- Without backslashes, segments are what stands between slashes. -/
theorem writtenSegments_eq (h : '\\' ∉ path.toList) :
    writtenSegments path = Text.splitOn (· == '/') path.toList := by
  refine Text.splitOn_congr fun c hc => ?_
  have hne : (c == '\\') = false := beq_eq_false_iff_ne.2 fun heq => h (heq ▸ hc)
  rw [isSeparator, hne, Bool.or_false]

/-- No segment that is written has a separator. -/
theorem isIdSegment_of_mem_filter {name : List Char}
    (h : name ∈ (writtenSegments path).filter isName) : IsIdSegment name := by
  obtain ⟨hwritten, hname⟩ := List.mem_filter.1 h
  exact ⟨hname, fun c hc => Text.eq_false_of_mem_splitOn hwritten hc⟩

/-- The names of ids in normal form are known from the id. -/
theorem ofSegments_inj {names' : List (List Char)} (h : ∀ name ∈ names, IsIdSegment name)
    (h' : ∀ name ∈ names', IsIdSegment name) (heq : ofSegments names = ofSegments names') :
    names = names' := by
  rw [← segments_ofSegments h, heq, segments_ofSegments h']

/-- **A way that does not go up** goes down all the names on it. -/
theorem foldlM_step_of_not_mem (h : ['.', '.'] ∉ segments) :
    segments.foldlM step done = some ((segments.filter isName).reverse ++ done) := by
  induction segments generalizing done with
  | nil => rfl
  | cons segment rest ih =>
    obtain ⟨hup, hrest⟩ := List.ne_and_not_mem_of_not_mem_cons h
    rcases segment_cases segment with hvoid | rfl | hname
    · have hname : ¬ isName segment := by rcases hvoid with rfl | rfl <;> decide
      rw [List.foldlM_cons, step, if_pos hvoid, List.filter_cons_of_neg hname]
      exact ih hrest
    · exact absurd rfl hup
    · rw [List.foldlM_cons, step_name hname, List.filter_cons_of_pos hname, List.reverse_cons,
        List.append_assoc]
      exact ih hrest

/-- Names have no points to go up by. -/
theorem not_mem_up (h : ∀ name ∈ names, IsIdSegment name) : ['.', '.'] ∉ names := fun hmem =>
  absurd (h _ hmem).isName (by decide)

/-- **Following names alone** from the scan root. -/
theorem follow_intercalate (h : ∀ name ∈ names, IsIdSegment name) :
    follow rootId (Text.intercalate ['/'] names) = some (ofSegments (withoutUnitFile names)) := by
  show (climb [] (Text.splitOn isSeparator _)).map _ = _
  by_cases hnil : names = []
  · rw [hnil]
    rfl
  · have hkept : ∀ name ∈ withoutUnitFile names, IsIdSegment name := fun name hname =>
      h name ((withoutUnitFile_prefix_self names).subset hname)
    have hnames : (withoutUnitFile names).filter isName = withoutUnitFile names :=
      List.filter_eq_self.2 fun name hname => (hkept name hname).isName
    rw [Text.splitOn_intercalate_separator (by decide) hnil fun name hname =>
        (h name hname).no_separator, climb_eq, foldlM_step_of_not_mem (not_mem_up hkept), hnames,
      Option.map_some, List.append_nil, List.reverse_reverse]

/-- **The name of a unit's file** is left out in the same way among all segments
and among the names, if it can only be the last of these as the last of all. -/
theorem withoutUnitFile_filter {above : List (List Char)}
    (h : ∀ name ∈ (above ++ segments.filter isName).getLast?, isUnitFile name →
      segments.getLast? = some name) :
    withoutUnitFile (above ++ segments.filter isName)
      = above ++ (withoutUnitFile segments).filter isName := by
  rcases withoutUnitFile_cases segments with ⟨hlast, hself⟩ | ⟨last, hunit, hsegments⟩
  · rw [hself]
    exact withoutUnitFile_eq_self fun name hname hunit => hlast name (h name hname hunit) hunit
  · have hfilter : segments.filter isName = (withoutUnitFile segments).filter isName ++ [last] := by
      conv_lhs => rw [hsegments]
      rw [List.filter_append, List.filter_singleton, isName_of_isUnitFile hunit, cond_true]
    have hsingle : withoutUnitFile [last] = [] := if_pos hunit
    rw [hfilter, ← List.append_assoc, withoutUnitFile_append (List.cons_ne_nil _ _), hsingle,
      List.append_nil]

/-- Points to go up by are no name of a unit's file. -/
theorem mem_withoutUnitFile_iff :
    ['.', '.'] ∈ withoutUnitFile segments ↔ ['.', '.'] ∈ segments := by
  rcases withoutUnitFile_cases segments with ⟨-, hself⟩ | ⟨last, hunit, hsegments⟩
  · rw [hself]
  · have hup : ['.', '.'] ≠ last := by
      rintro rfl
      exact absurd hunit (by decide)
    conv_rhs => rw [hsegments, List.mem_append, List.mem_singleton, or_iff_left hup]

end ModuleId

namespace Path

variable {p : Path} {pieces : List (List Char)} {s : String}

/-- The components of an absolute path. -/
theorem components_of_isAbsolute (h : p.isAbsolute) :
    p.components = .root :: p.pieces.filterMap component? := if_pos h

theorem isAbsolute_append_slash (h : p.isAbsolute) : isAbsolute ⟨p.text ++ "/" ++ s⟩ := by
  rw [isAbsolute, beq_iff_eq] at h ⊢
  rw [Text.toList_append_slash, List.head?_append, h]
  rfl

/-- **More components are put behind a slash.** -/
theorem components_append_slash (h : p.isAbsolute) :
    components ⟨p.text ++ "/" ++ s⟩
      = p.components ++ (Text.splitOn (· == '/') s.toList).filterMap component? := by
  rw [components_of_isAbsolute (isAbsolute_append_slash h), components_of_isAbsolute h,
    Path.pieces, Text.toList_append_slash, Text.splitOn_append_cons, List.filterMap_append]
  rfl

/-- The names among the components that some pieces stand for. -/
theorem map_filterMap_component? :
    ((pieces.filterMap component?).filterMap Component.name?).map String.toList
      = pieces.filter ModuleId.isName := by
  have hpiece : ∀ piece, ((component? piece).bind Component.name?).map String.toList
      = Option.guard ModuleId.isName piece := by
    intro piece
    rcases ModuleId.segment_cases piece with (rfl | rfl) | rfl | hname
    · rfl
    · rfl
    · rfl
    · obtain ⟨hempty, hhere, hup⟩ := of_decide_eq_true hname
      rw [component?, if_neg (not_or.2 ⟨hempty, hhere⟩), if_neg hup, Option.guard, if_pos hname]
      exact congrArg some String.toList_ofList
  rw [List.filterMap_filterMap, List.map_filterMap, ← List.filterMap_eq_filter]
  exact congrArg (List.filterMap · pieces) (funext hpiece)

end Path

namespace ScanRoot

open ModuleId

variable {root : ScanRoot} {id s path : String}

/-- An absolute path is seen from the scan root and followed from there. -/
theorem resolve_of_isAbsolute (h : Path.isAbsolute ⟨path⟩)
    (htrim : Text.trim path.toList = path.toList) :
    root.resolve id path
      = (Path.below? ⟨path⟩ root.path).bind fun components =>
          follow rootId (Path.joinNames components).toList := by
  obtain ⟨rest, hrest⟩ := List.head?_eq_some_iff.1 (beq_iff_eq.1 h)
  replace hrest : path.toList = '/' :: rest := hrest
  have hpath : path = String.ofList ('/' :: rest) := by rw [← hrest, String.ofList_toList]
  unfold resolve
  rw [htrim, hrest, hpath]
  rfl

/-- **A path from a module, written absolutely.** -/
def absolutely (root : ScanRoot) (id s : String) : String :=
  (if id = rootId then root.path.text else root.path.text ++ "/" ++ id) ++ "/" ++ s

/-- The path that is written absolutely continues the path of a directory. -/
theorem exists_absolutely_eq (hroot : root.path.isAbsolute) :
    ∃ dir : Path, dir.isAbsolute ∧ root.absolutely id s = dir.text ++ "/" ++ s
      ∧ dir.components = root.path.components
        ++ (ModuleId.segments id).filterMap Path.component? := by
  unfold absolutely ModuleId.segments
  split
  · exact ⟨root.path, hroot, rfl, (List.append_nil _).symm⟩
  · exact ⟨_, Path.isAbsolute_append_slash hroot, rfl, Path.components_append_slash hroot⟩

/-- The names of a module and those of a path that is written. -/
theorem isIdSegment_of_mem_append (hid : IsNormal id) {name : List Char}
    (h : name ∈ ModuleId.segments id ++ (writtenSegments s).filter isName) : IsIdSegment name :=
  (List.mem_append.1 h).elim hid.isIdSegment isIdSegment_of_mem_filter

/-- **An absolute path means the names on it**, whether it goes up or not. -/
theorem resolve_absolutely_eq (hroot : root.path.isAbsolute) (hid : IsNormal id)
    (hs : IsRelativePath s) (hback : '\\' ∉ s.toList) :
    root.resolve id (root.absolutely id s)
      = some (ofSegments (withoutUnitFile
          (ModuleId.segments id ++ (writtenSegments s).filter isName))) := by
  obtain ⟨dir, hdir, htext, hcomponents⟩ := @exists_absolutely_eq root id s hroot
  have htrim : Text.trim (dir.text ++ "/" ++ s).toList = (dir.text ++ "/" ++ s).toList := by
    have hhead : dir.text.toList.head? = some '/' := beq_iff_eq.1 hdir
    rw [Text.toList_append_slash]
    refine Text.trim_append (fun hnil => ?_) hs.toList_ne_nil (fun c hc => ?_)
      (Text.trim_eq_self_iff.1 hs.trimmed).2
    · rw [hnil] at hhead
      cases hhead
    · rw [hhead] at hc
      cases hc
      decide
  have hbelow : Path.below? ⟨dir.text ++ "/" ++ s⟩ root.path
      = some ((ModuleId.segments id ++ writtenSegments s).filterMap Path.component?) := by
    rw [Path.below?_eq_some_iff, Path.components_append_slash hdir, hcomponents,
      writtenSegments_eq hback, List.filterMap_append, List.append_assoc]
  have hnames : (ModuleId.segments id).filter isName = ModuleId.segments id :=
    List.filter_eq_self.2 fun name hname => (hid.isIdSegment hname).isName
  rw [htext, resolve_of_isAbsolute (Path.isAbsolute_append_slash hdir) htrim, hbelow,
    Option.bind_some, Path.joinNames, toList_joined, Path.map_filterMap_component?,
    List.filter_append, hnames]
  exact follow_intercalate fun name => isIdSegment_of_mem_append hid

/-- **A relative path that does not go up** means the names on it. -/
theorem resolve_of_not_mem (hs : IsRelativePath s) (hup : ['.', '.'] ∉ writtenSegments s) :
    root.resolve id s
      = some (ofSegments
          (ModuleId.segments id ++ (withoutUnitFile (writtenSegments s)).filter isName)) := by
  rw [resolve_of_isRelativePath hs, follow_toList, climb_eq,
    foldlM_step_of_not_mem (mt mem_withoutUnitFile_iff.1 hup), Option.map_some, List.reverse_append,
    List.reverse_reverse, List.reverse_reverse]

/-- **A relative path that goes up** does not mean all the names on it. -/
theorem resolve_ne_of_mem (hid : IsNormal id) (hs : IsRelativePath s)
    (hup : ['.', '.'] ∈ writtenSegments s) :
    root.resolve id s
      ≠ some (ofSegments
          (ModuleId.segments id ++ (withoutUnitFile (writtenSegments s)).filter isName)) := by
  intro heq
  rw [resolve_of_isRelativePath hs, follow_toList] at heq
  obtain ⟨done, hdone, hnames⟩ := Option.map_eq_some_iff.1 heq
  have hkept : ∀ name ∈ ModuleId.segments id
      ++ (withoutUnitFile (writtenSegments s)).filter isName, IsIdSegment name := by
    intro name hname
    have hsub := (withoutUnitFile_prefix_self (writtenSegments s)).sublist.filter isName
    exact isIdSegment_of_mem_append hid
      (((List.Sublist.refl _).append hsub).subset hname)
  have hlength := congrArg List.length (ofSegments_inj (hid.of_climb hdone) hkept hnames)
  have hcount := length_of_foldlM (climb_eq.symm.trans hdone)
  have hpos := List.count_pos_iff.2 (mem_withoutUnitFile_iff.2 hup)
  simp only [List.length_reverse, List.length_append, ← List.countP_eq_length_filter]
    at hlength hcount
  omega

/-- **Paths that are written absolutely.** From a module whose id is in normal
form, the absolute path means the names of the module and of the relative path,
with all pairs of points left out; so it means something always. It means the
same as the relative path exactly if there are none, where a path that ends in
the name of a unit's file must do so without anything behind it. -/
theorem resolve_absolutely (root : ScanRoot) {id s : String} (hroot : root.path.isAbsolute)
    (hid : IsNormal id) (hs : IsRelativePath s) (hback : '\\' ∉ s.toList) :
    root.resolve id (root.absolutely id s)
        = some (ofSegments (withoutUnitFile
            (ModuleId.segments id ++ (writtenSegments s).filter isName)))
      ∧ ((∀ name ∈ (ModuleId.segments id ++ (writtenSegments s).filter isName).getLast?,
          ".hcl".toList <:+ name → (writtenSegments s).getLast? = some name) →
        (root.resolve id (root.absolutely id s) = root.resolve id s
          ↔ ['.', '.'] ∉ writtenSegments s)) := by
  refine ⟨resolve_absolutely_eq hroot hid hs hback, fun hlast => ?_⟩
  rw [resolve_absolutely_eq hroot hid hs hback, withoutUnitFile_filter fun name hname hunit =>
    hlast name hname (isUnitFile_iff.1 hunit)]
  constructor
  · exact fun heq hup => resolve_ne_of_mem hid hs hup heq.symm
  · exact fun hup => (resolve_of_not_mem hs hup).symm

/-- A path down to the file of a unit means the unit, written in either way. -/
theorem resolve_absolutely_netFile :
    (⟨"/infra"⟩ : Path).isAbsolute ∧ IsNormal "env/app" ∧ IsRelativePath "./db/net.hcl"
      ∧ '\\' ∉ "./db/net.hcl".toList
      ∧ (⟨⟨"/infra"⟩⟩ : ScanRoot).resolve "env/app" "/infra/env/app/./db/net.hcl"
        = some "env/app/db"
      ∧ (⟨⟨"/infra"⟩⟩ : ScanRoot).resolve "env/app" "./db/net.hcl" = some "env/app/db" := by
  have hroot : (⟨"/infra"⟩ : Path).isAbsolute := by decide
  have hid : IsNormal "env/app" := by decide
  have hs : IsRelativePath "./db/net.hcl" := by decide
  have hback : '\\' ∉ "./db/net.hcl".toList := by decide
  obtain ⟨hmeans, hsame⟩ := resolve_absolutely ⟨⟨"/infra"⟩⟩ hroot hid hs hback
  have hwritten := (hsame (by decide)).2 (by decide)
  have hnames : ofSegments (withoutUnitFile (ModuleId.segments "env/app"
      ++ (writtenSegments "./db/net.hcl").filter isName)) = "env/app/db" := by decide
  have htext : (⟨⟨"/infra"⟩⟩ : ScanRoot).absolutely "env/app" "./db/net.hcl"
      = "/infra/env/app/./db/net.hcl" := by decide
  rw [hnames] at hmeans
  rw [hmeans] at hwritten
  rw [htext] at hmeans
  exact ⟨hroot, hid, hs, hback, hmeans, hwritten.symm⟩

/-- **A path that goes up** to a module beside means another one if it is written
absolutely, and one that leaves the scan root means something. -/
theorem resolve_absolutely_ne_besideVpc :
    (⟨"/infra"⟩ : Path).isAbsolute ∧ IsNormal "ec2" ∧ IsNormal rootId
      ∧ IsRelativePath "../vpc" ∧ '\\' ∉ "../vpc".toList
      ∧ (⟨⟨"/infra"⟩⟩ : ScanRoot).absolutely "ec2" "../vpc" = "/infra/ec2/../vpc"
      ∧ (⟨⟨"/infra"⟩⟩ : ScanRoot).resolve "ec2" "../vpc" = some "vpc"
      ∧ (⟨⟨"/infra"⟩⟩ : ScanRoot).resolve "ec2" "/infra/ec2/../vpc" = some "ec2/vpc"
      ∧ (⟨⟨"/infra"⟩⟩ : ScanRoot).absolutely rootId "../vpc" = "/infra/../vpc"
      ∧ (⟨⟨"/infra"⟩⟩ : ScanRoot).resolve rootId "../vpc" = none
      ∧ (⟨⟨"/infra"⟩⟩ : ScanRoot).resolve rootId "/infra/../vpc" = some "vpc" := by
  decide

end ScanRoot

end StackGraph
