import StackGraph.Proofs.Directory
/-!
# Relative paths

A relative path is followed from a module segment by segment, on a stack of the
names of the directory that it has come to: a name goes down, two points go up,
and above the scan root there is nothing. Both kinds of slashes separate
segments, empty ones and single points mean nothing, and the name of a unit's
own file is passed over if it is the last.

All but this last rule looks at one segment at a time, so without it following a
path is a fold (`ModuleId.climb_eq`), and the way along two paths one after the
other is the way along the second from where the first leads to. The last rule
is the reason for the only condition: the first path must not end in the name of
a unit's file, which means nothing at its end, but would be a directory with
something behind it.

For ids to carry this over, where a path leads to must be told by its id. Ids in
normal form do so (`ModuleId.IsNormal`), and nothing but ids in normal form ever
comes out. The main statement is `ScanRoot.resolve_append`.
-/

namespace StackGraph

namespace Text

variable {s t : List Char} {c : Char}

/-- **Text without white space at its ends**, by its first and its last
character. -/
theorem trim_eq_self_iff :
    trim s = s ↔ (∀ c ∈ s.head?, isBlank c = false) ∧ ∀ c ∈ s.getLast?, isBlank c = false := by
  have hhead : s.dropWhile isBlank = s ↔ ∀ c ∈ s.head?, isBlank c = false := by
    cases s with
    | nil => simp
    | cons c s => simp [List.dropWhile_eq_self_iff]
  have hlast : s.rdropWhile isBlank = s ↔ ∀ c ∈ s.getLast?, isBlank c = false := by
    rw [List.rdropWhile_eq_self_iff]
    rcases List.eq_nil_or_concat s with rfl | ⟨s, c, rfl⟩
    · simp
    · simp
  show (s.dropWhile isBlank).rdropWhile isBlank = s ↔ _
  rw [← hhead, ← hlast]
  constructor
  · intro h
    -- what is cut off twice is not cut off at all
    have hdrop : s.dropWhile isBlank = s := by
      refine (List.dropWhile_suffix isBlank).eq_of_length_le ?_
      calc s.length = ((s.dropWhile isBlank).rdropWhile isBlank).length := by rw [h]
        _ ≤ (s.dropWhile isBlank).length := (List.rdropWhile_prefix isBlank _).length_le
    exact ⟨hdrop, by rwa [hdrop] at h⟩
  · rintro ⟨hdrop, hrdrop⟩
    rw [hdrop, hrdrop]

/-- Two texts without white space at their outer ends. -/
theorem trim_append (hs : s ≠ []) (ht : t ≠ []) (hhead : ∀ c ∈ s.head?, isBlank c = false)
    (hlast : ∀ c ∈ t.getLast?, isBlank c = false) : trim (s ++ c :: t) = s ++ c :: t := by
  rw [trim_eq_self_iff, List.head?_append_of_ne_nil _ hs, List.append_cons,
    List.getLast?_append_of_ne_nil _ ht]
  exact ⟨hhead, hlast⟩

end Text

namespace ModuleId

/-! ## Segments -/

/-- Whether a segment goes down. -/
abbrev isName (segment : List Char) : Bool :=
  segment ≠ [] ∧ segment ≠ ['.'] ∧ segment ≠ ['.', '.']

/-- Whether a character separates the segments of a path. -/
abbrev isSeparator (c : Char) : Bool := c == '/' || c == '\\'

/-- The segments of a path as it is written. -/
def writtenSegments (path : String) : List (List Char) := Text.splitOn isSeparator path.toList

/-- **A segment of an id in normal form**: a name without separators. -/
structure IsIdSegment (segment : List Char) : Prop where
  isName : isName segment
  no_separator : ∀ c ∈ segment, isSeparator c = false

theorem isIdSegment_iff {segment : List Char} :
    IsIdSegment segment ↔ ModuleId.isName segment ∧ segment.all (!isSeparator ·) := by
  simp only [List.all_eq_true, Bool.not_eq_true']
  exact ⟨fun h => ⟨h.isName, h.no_separator⟩, fun ⟨hname, hseparator⟩ => ⟨hname, hseparator⟩⟩

instance : DecidablePred IsIdSegment := fun _ => decidable_of_iff _ isIdSegment_iff.symm

/-- **An id in normal form**: that of the scan root, or names with slashes
between them. -/
def IsNormal (id : String) : Prop :=
  ∃ names, (∀ name ∈ names, IsIdSegment name) ∧ id = ofSegments names

variable {id : String} {name segment : List Char} {names done done' : List (List Char)}
variable {segments rest : List (List Char)}

theorem IsIdSegment.no_slash (h : IsIdSegment name) : '/' ∉ name := fun hc =>
  absurd (h.no_separator _ hc) (by decide)

/-- **The names of an id in normal form** are found again. -/
theorem segments_ofSegments (h : ∀ name ∈ names, IsIdSegment name) :
    ModuleId.segments (ofSegments names) = names := by
  by_cases hnil : names = []
  · rw [hnil]
    rfl
  · have hsplit : Text.splitOn (· == '/') (Text.intercalate ['/'] names) = names :=
      Text.splitOn_intercalate hnil fun name hname => (h name hname).no_slash
    have hroot : String.ofList (Text.intercalate ['/'] names) ≠ rootId := by
      intro heq
      -- the id of the root is a point, and a point is no name
      have hpoint : names = [['.']] := by
        rw [← hsplit, ← String.toList_ofList (l := Text.intercalate ['/'] names), heq]
        rfl
      exact absurd (h ['.'] (hpoint ▸ List.mem_singleton_self _)).isName (by decide)
    rw [ofSegments, if_neg (by simpa using hnil), ModuleId.segments, if_neg hroot,
      String.toList_ofList, hsplit]

/-- The names of an id in normal form are segments of it. -/
theorem IsNormal.isIdSegment (h : IsNormal id) (hname : name ∈ ModuleId.segments id) :
    IsIdSegment name := by
  obtain ⟨names, hnames, rfl⟩ := h
  rw [segments_ofSegments hnames] at hname
  exact hnames name hname

theorem isNormal_iff : IsNormal id ↔ ∀ name ∈ ModuleId.segments id, IsIdSegment name :=
  ⟨fun h _ => h.isIdSegment, fun hnames => ⟨_, hnames, ofSegments_segments.symm⟩⟩

instance : DecidablePred IsNormal := fun _ => decidable_of_iff _ isNormal_iff.symm

/-! ## Following segments -/

/-- Where one segment leads to from the names of a directory, last name
first. -/
def step (done : List (List Char)) (segment : List Char) : Option (List (List Char)) :=
  if segment = [] ∨ segment = ['.'] then some done
  else if segment = ['.', '.'] then done.tail?
  else some (segment :: done)

/-- The segments without the name of a unit's own file at the end. -/
def withoutUnitFile (segments : List (List Char)) : List (List Char) :=
  if (segments.getLast?).any isUnitFile then segments.dropLast else segments

theorem isUnitFile_iff : isUnitFile segment ↔ ".hcl".toList <:+ segment := by
  have hstart : ∀ as bs : List Char, Text.hasStart as bs ↔ as <+: bs := by
    intro as
    induction as with
    | nil => simp [Text.hasStart]
    | cons a as ih =>
      intro bs
      cases bs with
      | nil => simp [Text.hasStart]
      | cons b bs => simp [Text.hasStart, List.cons_prefix_cons, ih]
  rw [isUnitFile, hstart, List.reverse_prefix]

/-- Whatever is no name stays or goes up. -/
theorem segment_cases (segment : List Char) :
    (segment = [] ∨ segment = ['.']) ∨ segment = ['.', '.'] ∨ isName segment := by
  by_contra h
  obtain ⟨hvoid, h⟩ := not_or.1 h
  obtain ⟨hup, hname⟩ := not_or.1 h
  exact hname (decide_eq_true ⟨(not_or.1 hvoid).1, (not_or.1 hvoid).2, hup⟩)

theorem step_name (h : isName segment) : step done segment = some (segment :: done) := by
  obtain ⟨hempty, hhere, hup⟩ := of_decide_eq_true h
  rw [step, if_neg (not_or.2 ⟨hempty, hhere⟩), if_neg hup]

/-- The name of a unit's file is a name. -/
theorem isName_of_isUnitFile (h : isUnitFile segment) : isName segment := by
  refine decide_eq_true ⟨?_, ?_, ?_⟩ <;> (rintro rfl; exact absurd h (by decide))

/-- Only the end of a path can be the name of a unit's file. -/
theorem withoutUnitFile_append (h : rest ≠ []) :
    withoutUnitFile (segments ++ rest) = segments ++ withoutUnitFile rest := by
  rw [withoutUnitFile, withoutUnitFile, List.getLast?_append_of_ne_nil _ h,
    List.dropLast_append_of_ne_nil h]
  split <;> rfl

/-- The end of a path is left out exactly if it is the name of a unit's file. -/
theorem withoutUnitFile_cases (segments : List (List Char)) :
    ((∀ last ∈ segments.getLast?, ¬ isUnitFile last) ∧ withoutUnitFile segments = segments)
      ∨ ∃ last, isUnitFile last ∧ segments = withoutUnitFile segments ++ [last] := by
  by_cases hany : (segments.getLast?).any isUnitFile
  · obtain ⟨last, hlast, hunit⟩ := (Option.any_eq_true _ _).1 hany
    obtain ⟨init, rfl⟩ := List.getLast?_eq_some_iff.1 hlast
    refine .inr ⟨last, hunit, ?_⟩
    rw [withoutUnitFile, if_pos hany, List.dropLast_concat]
  · refine .inl ⟨fun last hlast hunit => hany ?_, if_neg hany⟩
    exact (Option.any_eq_true _ _).2 ⟨last, hlast, hunit⟩

theorem withoutUnitFile_eq_self (h : ∀ last ∈ segments.getLast?, ¬ isUnitFile last) :
    withoutUnitFile segments = segments := by
  rcases withoutUnitFile_cases segments with ⟨-, hself⟩ | ⟨last, hunit, hsegments⟩
  · exact hself
  · refine absurd hunit (h last ?_)
    rw [hsegments]
    exact List.getLast?_concat

theorem withoutUnitFile_prefix_self (segments : List (List Char)) :
    withoutUnitFile segments <+: segments := by
  rcases withoutUnitFile_cases segments with ⟨-, hself⟩ | ⟨last, -, hsegments⟩
  · exact ⟨[], by rw [List.append_nil, hself]⟩
  · exact ⟨[last], hsegments.symm⟩

/-- Following a path takes a step for its first segment, unless this is the name
of a unit's file and the last. -/
theorem climb_cons :
    climb done (segment :: rest)
      = if rest = [] ∧ isUnitFile segment then some done
        else (step done segment).bind (climb · rest) := by
  rw [climb.eq_def, step]
  dsimp only
  by_cases hunit : rest = [] ∧ isUnitFile segment
  · obtain ⟨hempty, hhere, hup⟩ := of_decide_eq_true (isName_of_isUnitFile hunit.2)
    rw [if_neg (not_or.2 ⟨hempty, hhere⟩), if_neg hup, if_pos (by simpa using hunit), if_pos hunit]
  · rw [if_neg hunit]
    split
    · rfl
    · split
      · cases done <;> rfl
      · rw [if_neg (by simpa using hunit)]
        rfl

/-- **Following segments is a fold** over all of them but the name of a unit's
file at the end. -/
theorem climb_eq : climb done segments = (withoutUnitFile segments).foldlM step done := by
  induction segments generalizing done with
  | nil => rfl
  | cons segment rest ih =>
    rw [climb_cons]
    split
    · rename_i hunit
      obtain ⟨rfl, hunit⟩ := hunit
      have hwithout : withoutUnitFile [segment] = [] := if_pos hunit
      rw [hwithout]
      rfl
    · rename_i hunit
      have hwithout : withoutUnitFile (segment :: rest) = segment :: withoutUnitFile rest := by
        by_cases hrest : rest = []
        · subst hrest
          exact if_neg fun hany => hunit ⟨rfl, hany⟩
        · exact @withoutUnitFile_append [segment] rest hrest
      rw [hwithout, List.foldlM_cons]
      exact congrArg _ (funext fun _ => ih)

/-- **The way along two paths**, one behind the other. -/
theorem climb_append (hlast : ∀ last ∈ segments.getLast?, ¬ isUnitFile last) (h : rest ≠ []) :
    climb done (segments ++ rest) = (climb done segments).bind (climb · rest) := by
  simp only [climb_eq]
  rw [withoutUnitFile_append h, withoutUnitFile_eq_self hlast, List.foldlM_append]
  rfl

/-- **A step** stays, goes up or goes down. -/
theorem step_cases (h : step done segment = some done') :
    ((segment = [] ∨ segment = ['.']) ∧ done' = done)
      ∨ (segment = ['.', '.'] ∧ ∃ name, done = name :: done')
      ∨ isName segment ∧ done' = segment :: done := by
  rcases segment_cases segment with hvoid | rfl | hname
  · rw [step, if_pos hvoid] at h
    exact .inl ⟨hvoid, (Option.some.inj h).symm⟩
  · cases done with
    | nil => cases h
    | cons name above =>
      cases h
      exact .inr (.inl ⟨rfl, name, rfl⟩)
  · rw [step_name hname] at h
    exact .inr (.inr ⟨hname, (Option.some.inj h).symm⟩)

/-- A step leads nowhere if it goes up from the scan root. -/
theorem step_eq_none_iff : step done segment = none ↔ segment = ['.', '.'] ∧ done = [] := by
  rcases segment_cases segment with hvoid | rfl | hname
  · rw [step, if_pos hvoid]
    refine iff_of_false (by rintro ⟨⟩) ?_
    rintro ⟨rfl, -⟩
    exact absurd hvoid (by decide)
  · cases done <;> simp [step]
  · rw [step_name hname]
    exact iff_of_false (by rintro ⟨⟩) fun h => (of_decide_eq_true hname).2.2 h.1

/-- **Only names are left**, and none of them has a separator. -/
theorem isIdSegment_of_foldlM (h : segments.foldlM step done = some done')
    (hdone : ∀ name ∈ done, IsIdSegment name)
    (hsegments : ∀ segment ∈ segments, ∀ c ∈ segment, isSeparator c = false) :
    ∀ name ∈ done', IsIdSegment name := by
  induction segments generalizing done with
  | nil =>
    obtain rfl := Option.some.inj h
    exact hdone
  | cons segment rest ih =>
    obtain ⟨hsegment, hrest⟩ := List.forall_mem_cons.1 hsegments
    obtain ⟨next, hstep, hnext⟩ := Option.bind_eq_some_iff.1 (List.foldlM_cons.symm.trans h)
    refine ih hnext ?_ hrest
    obtain ⟨-, rfl⟩ | ⟨-, name, rfl⟩ | ⟨hname, rfl⟩ := step_cases hstep
    · exact hdone
    · exact (List.forall_mem_cons.1 hdone).2
    · exact List.forall_mem_cons.2 ⟨⟨hname, hsegment⟩, hdone⟩

/-- **How deep the way leads**: a name for each name on it, less one for each pair
of points. -/
theorem length_of_foldlM (h : segments.foldlM step done = some done') :
    done'.length + segments.count ['.', '.'] = done.length + segments.countP isName := by
  induction segments generalizing done with
  | nil =>
    obtain rfl := Option.some.inj h
    rfl
  | cons segment rest ih =>
    obtain ⟨next, hstep, hnext⟩ := Option.bind_eq_some_iff.1 (List.foldlM_cons.symm.trans h)
    have hrest := ih hnext
    obtain ⟨hvoid, rfl⟩ | ⟨rfl, name, rfl⟩ | ⟨hname, rfl⟩ := step_cases hstep
    · have hup : segment ≠ ['.', '.'] := by rcases hvoid with rfl | rfl <;> decide
      have hname : ¬ isName segment := by rcases hvoid with rfl | rfl <;> decide
      rwa [List.count_cons_of_ne hup, List.countP_cons_of_neg hname]
    · rw [List.count_cons_self, List.countP_cons_of_neg (by decide), List.length_cons]
      omega
    · have hup : segment ≠ ['.', '.'] := (of_decide_eq_true hname).2.2
      rw [List.count_cons_of_ne hup, List.countP_cons_of_pos hname]
      rw [List.length_cons] at hrest
      omega

/-! ## Leaving the scan root -/

/-- **A path climbs out** of a directory at some depth: on a beginning of it there
are more pairs of points than the depth and the names on the way make up for. -/
def ClimbsOut (depth : Nat) (segments : List (List Char)) : Prop :=
  ∃ way, way <+: segments ∧ depth + way.countP isName < way.count ['.', '.']

/-- Steps lead nowhere exactly if they climb out. -/
theorem foldlM_step_eq_none_iff :
    segments.foldlM step done = none ↔ ClimbsOut done.length segments := by
  constructor
  · induction segments using List.reverseRecOn with
    | nil => rintro ⟨⟩
    | append_singleton segments segment ih =>
      intro h
      cases hway : segments.foldlM step done with
      | none =>
        obtain ⟨way, hprefix, hlt⟩ := ih hway
        exact ⟨way, hprefix.trans (List.prefix_append _ _), hlt⟩
      | some done' =>
        -- the last step has nowhere to go up to
        have hstep : step done' segment = none := by
          rw [List.foldlM_append, hway] at h
          cases hnext : step done' segment with
          | none => rfl
          | some next => cases (congrArg (·.bind some) hnext).symm.trans h
        have hlength := length_of_foldlM hway
        have hup := step_eq_none_iff.1 hstep
        obtain ⟨rfl, rfl⟩ := hup
        refine ⟨_, List.prefix_rfl, ?_⟩
        rw [List.countP_append, List.count_append]
        rw [List.length_nil] at hlength
        show _ + (_ + 0) < _ + 1
        omega
  · rintro ⟨way, ⟨rest, rfl⟩, hlt⟩
    rw [List.foldlM_append]
    cases hway : way.foldlM step done with
    | none => rfl
    | some done' =>
      have hlength := length_of_foldlM hway
      omega

/-- The name of a unit's file at the end makes no difference to this. -/
theorem climbsOut_withoutUnitFile {depth : Nat} :
    ClimbsOut depth (withoutUnitFile segments) ↔ ClimbsOut depth segments := by
  rcases withoutUnitFile_cases segments with ⟨-, hself⟩ | ⟨last, hunit, hsegments⟩
  · rw [hself]
  · have hname := isName_of_isUnitFile hunit
    have hup : last ≠ ['.', '.'] := (of_decide_eq_true hname).2.2
    constructor
    · rintro ⟨way, hprefix, hlt⟩
      exact ⟨way, hprefix.trans (withoutUnitFile_prefix_self segments), hlt⟩
    · rintro ⟨way, hprefix, hlt⟩
      rw [hsegments] at hprefix
      rcases List.prefix_concat_iff.1 hprefix with rfl | hprefix
      · -- the way up to the file is no less out
        refine ⟨withoutUnitFile segments, List.prefix_rfl, ?_⟩
        rw [List.countP_append, List.count_append, List.countP_singleton, if_pos hname,
          List.count_singleton, if_neg (by simpa using hup)] at hlt
        omega
      · exact ⟨way, hprefix, hlt⟩

/-- **A path leads nowhere exactly if it climbs out.** -/
theorem climb_eq_none_iff : climb done segments = none ↔ ClimbsOut done.length segments := by
  rw [climb_eq, foldlM_step_eq_none_iff, climbsOut_withoutUnitFile]

/-! ## Following paths -/

/-- Where a path leads to is the id of the names that are left. -/
theorem follow_toList {path : String} :
    follow id path.toList
      = (climb (ModuleId.segments id).reverse (writtenSegments path)).map
        fun names => ofSegments names.reverse := rfl

/-- The names that are left make up an id in normal form. -/
theorem IsNormal.of_climb (hid : IsNormal id) {path : List Char}
    (h : climb (ModuleId.segments id).reverse (Text.splitOn isSeparator path) = some done) :
    ∀ name ∈ done.reverse, IsIdSegment name := by
  rw [climb_eq] at h
  intro name hname
  refine isIdSegment_of_foldlM h (fun name hname => ?_) (fun segment hsegment c hc => ?_) name
    (List.mem_reverse.1 hname)
  · exact hid.isIdSegment (List.mem_reverse.1 hname)
  · exact Text.eq_false_of_mem_splitOn ((withoutUnitFile_prefix_self _).subset hsegment) hc

/-- **A path leads from ids in normal form to ids in normal form.** -/
theorem IsNormal.follow (hid : IsNormal id) {path : List Char} {k : String}
    (h : follow id path = some k) : IsNormal k := by
  obtain ⟨done, hdone, rfl⟩ := Option.map_eq_some_iff.1 h
  exact ⟨done.reverse, hid.of_climb hdone, rfl⟩

/-- **A path behind another one** leads on from where the other leads to. -/
theorem IsNormal.follow_append (hid : IsNormal id) {a b : String}
    (hlast : ∀ last ∈ (writtenSegments a).getLast?, ¬ isUnitFile last) :
    ModuleId.follow id (a ++ "/" ++ b).toList
      = (ModuleId.follow id a.toList).bind (ModuleId.follow · b.toList) := by
  have hsegments : writtenSegments (a ++ "/" ++ b) = writtenSegments a ++ writtenSegments b := by
    rw [writtenSegments, Text.toList_append_slash, Text.splitOn_append_separator (by decide)]
    rfl
  have hrest : writtenSegments b ≠ [] := Text.splitOn_ne_nil _ _
  rw [follow_toList, hsegments, climb_append hlast hrest, follow_toList]
  cases hclimb : climb (ModuleId.segments id).reverse (writtenSegments a) with
  | none => rfl
  | some done =>
    -- the id tells the names that are left
    rw [Option.map_some, Option.bind_some, Option.bind_some, follow_toList,
      segments_ofSegments (hid.of_climb hclimb), List.reverse_reverse]

end ModuleId

/-- **A relative path as it is written**: there is something, without white space
around it, and it does not start with a slash. -/
structure IsRelativePath (path : String) : Prop where
  ne_empty : path ≠ ""
  trimmed : Text.trim path.toList = path.toList
  relative : path.toList.head? ≠ some '/'

instance : DecidablePred IsRelativePath := fun path =>
  decidable_of_iff (path ≠ "" ∧ Text.trim path.toList = path.toList ∧ path.toList.head? ≠ some '/')
    ⟨fun ⟨hempty, htrim, hrelative⟩ => ⟨hempty, htrim, hrelative⟩,
      fun ⟨hempty, htrim, hrelative⟩ => ⟨hempty, htrim, hrelative⟩⟩

theorem IsRelativePath.toList_ne_nil {path : String} (h : IsRelativePath path) :
    path.toList ≠ [] := fun hnil => h.ne_empty (String.toList_eq_nil_iff.1 hnil)

/-- A relative path behind another one is a relative path. -/
theorem IsRelativePath.append {a b : String} (ha : IsRelativePath a) (hb : IsRelativePath b) :
    IsRelativePath (a ++ "/" ++ b) := by
  have htext := Text.toList_append_slash a b
  refine ⟨fun hempty => ?_, ?_, ?_⟩
  · rw [hempty] at htext
    exact absurd htext.symm (by simp)
  · rw [htext]
    exact Text.trim_append ha.toList_ne_nil hb.toList_ne_nil
      (Text.trim_eq_self_iff.1 ha.trimmed).1 (Text.trim_eq_self_iff.1 hb.trimmed).2
  · rw [htext, List.head?_append_of_ne_nil _ ha.toList_ne_nil]
    exact ha.relative

namespace ScanRoot

open ModuleId

variable {root : ScanRoot} {id k path : String}

/-- A relative path is followed from the module. -/
theorem resolve_of_isRelativePath (h : IsRelativePath path) :
    root.resolve id path = follow id path.toList := by
  unfold resolve
  rw [h.trimmed]
  split
  · rename_i hnil
    exact absurd hnil h.toList_ne_nil
  · rename_i rest habsolute
    exact absurd (by rw [habsolute]; rfl) h.relative
  · rfl

/-- **Whatever a path means has an id in normal form.** -/
theorem isNormal_of_resolve (hid : IsNormal id) (h : root.resolve id path = some k) :
    IsNormal k := by
  unfold resolve at h
  split at h
  · cases h
  · obtain ⟨components, -, hfollow⟩ := Option.bind_eq_some_iff.1 h
    have hroot : IsNormal rootId := ⟨[], by simp, rfl⟩
    exact hroot.follow hfollow
  · exact hid.follow h

/-- **Relative paths compose.** From a module whose id is in normal form, a path
behind another one means what it means from where the other leads to, and
nothing if the other leads nowhere, provided that the other does not end in the
name of a unit's file. Whatever a path means has an id in normal form again, and
a relative path means nothing exactly if it climbs out of the scan root. -/
theorem resolve_append (root : ScanRoot) {id a b : String} (hid : IsNormal id)
    (ha : IsRelativePath a) (hb : IsRelativePath b)
    (hlast : ∀ last ∈ (writtenSegments a).getLast?, ¬ ".hcl".toList <:+ last) :
    root.resolve id (a ++ "/" ++ b) = (root.resolve id a).bind (root.resolve · b)
      ∧ (∀ path k, root.resolve id path = some k → IsNormal k)
      ∧ ∀ path, IsRelativePath path →
        (root.resolve id path = none
          ↔ ClimbsOut (ModuleId.segments id).length (writtenSegments path)) := by
  refine ⟨?_, fun path k => isNormal_of_resolve hid, fun path hpath => ?_⟩
  · have hunit : ∀ last ∈ (writtenSegments a).getLast?, ¬ isUnitFile last := fun last hmem h =>
      hlast last hmem (isUnitFile_iff.1 h)
    rw [resolve_of_isRelativePath (ha.append hb), hid.follow_append hunit,
      resolve_of_isRelativePath ha]
    exact congrArg _ (funext fun k => (resolve_of_isRelativePath hb).symm)
  · rw [resolve_of_isRelativePath hpath, follow_toList, Option.map_eq_none_iff, climb_eq_none_iff,
      List.length_reverse]

/-- A path out of an application and on to the file of the database beside it. -/
theorem resolve_append_database :
    IsNormal "prod/app" ∧ IsRelativePath "../" ∧ IsRelativePath "./db//main.hcl"
      ∧ (∀ last ∈ (writtenSegments "../").getLast?, ¬ ".hcl".toList <:+ last)
      ∧ (⟨⟨"/infra"⟩⟩ : ScanRoot).resolve "prod/app" ("../" ++ "/" ++ "./db//main.hcl")
        = some "prod/db" := by
  have hid : IsNormal "prod/app" := by decide
  have ha : IsRelativePath "../" := by decide
  have hb : IsRelativePath "./db//main.hcl" := by decide
  have hlast : ∀ last ∈ (writtenSegments "../").getLast?, ¬ ".hcl".toList <:+ last := by decide
  obtain ⟨happend, -, -⟩ := resolve_append ⟨⟨"/infra"⟩⟩ hid ha hb hlast
  refine ⟨hid, ha, hb, hlast, happend.trans ?_⟩
  decide

end ScanRoot

end StackGraph
