import StackGraph.Proofs.Export.Payload
import StackGraph.Proofs.Export.ScriptData
/-!
# Where the data of a page ends

The data of the graph stands in a script element. It must not end that element,
and it must not keep the end tag behind it from doing so. The first holds since
there is no `</` in the data. Nothing sees to the second: neither the escapes of
JSON nor the protection of end tags change a `<!--`, so one in a text of the
report is one in the data (`Html.commentStart_infix_payload_iff`). With a tag that
opens a script behind it, the end tag of the data ends nothing. The next one does
not help, as another script begins before it, so all the rest of the page belongs
to the data (`Html.scriptText?_back`).
-/

namespace StackGraph

/-! ## Words in a text -/

namespace Text

variable {c : Char} {a b w front : List Char}

theorem prefix_append_cons_iff (h : c ∉ w) : w <+: a ++ c :: b ↔ w <+: a := by
  induction a generalizing w with
  | nil =>
    cases w with
    | nil => simp
    | cons d w => simpa using fun hd => absurd hd.symm (not_or.1 (List.mem_cons.not.1 h)).1
  | cons d a ih =>
    cases w with
    | nil => simp
    | cons e w =>
      rw [List.cons_append, List.cons_prefix_cons, List.cons_prefix_cons,
        ih fun hc => h (List.mem_cons_of_mem e hc)]

/-- **A word does not go across a character that it does not have.** -/
theorem infix_append_cons_iff (h : c ∉ w) : w <:+: a ++ c :: b ↔ w <:+: a ∨ w <:+: b := by
  induction a with
  | nil =>
    have hbegin := @prefix_append_cons_iff c [] b w h
    rw [List.nil_append] at hbegin ⊢
    rw [List.infix_cons_iff, hbegin, List.infix_nil, List.prefix_nil]
  | cons d a ih =>
    have hbegin := @prefix_append_cons_iff c (d :: a) b w h
    rw [List.cons_append] at hbegin ⊢
    rw [List.infix_cons_iff, hbegin, ih, List.infix_cons_iff, or_assoc]

/-- A word between two characters that it does not have. -/
theorem infix_between_iff {d : Char} (hc : c ∉ w) (hd : d ∉ w) (hw : w ≠ []) :
    w <:+: c :: (a ++ [d]) ↔ w <:+: a := by
  have hright : w <:+: a ++ [d] ↔ w <:+: a := by
    rw [infix_append_cons_iff hd, List.infix_nil, or_iff_left hw]
  rw [← hright]
  have hleft := @infix_append_cons_iff c [] (a ++ [d]) w hc
  rwa [List.infix_nil, or_iff_right hw, List.nil_append] at hleft

/-- A word in a list whose separator it does not have. -/
theorem infix_intercalate_iff (h : c ∉ w) (hw : w ≠ []) {parts : List (List Char)} :
    w <:+: [c].intercalate parts ↔ ∃ part ∈ parts, w <:+: part := by
  induction parts with
  | nil => simp [hw]
  | cons part parts ih =>
    cases parts with
    | nil => simp
    | cons next parts =>
      rw [List.intercalate_cons_cons, List.append_assoc, List.singleton_append,
        infix_append_cons_iff h, ih, List.exists_mem_cons_iff (a := part)]

/-- A word does not begin where its first character does not stand. -/
theorem cons_infix_append_iff (h : c ∉ front) : c :: w <:+: front ++ b ↔ c :: w <:+: b := by
  induction front with
  | nil => rfl
  | cons d front ih =>
    obtain ⟨hd, hfront⟩ := not_or.1 (List.mem_cons.not.1 h)
    rw [List.cons_append, List.infix_cons_iff, ih hfront, or_iff_right]
    exact fun hbegin => hd (List.cons_prefix_cons.1 hbegin).1

end Text

/-! ## The beginning of escaped text in JSON -/

namespace Json

open Html Text

/-- A value one of whose texts has a property, be it a name or not. -/
inductive Mentions (p : String → Prop) : Json → Prop
  | string {text : String} (h : p text) : Mentions p (string text)
  | item {items : List Json} {v : Json} (hv : v ∈ items) (h : Mentions p v) :
    Mentions p (array items)
  | name {members : List (String × Json)} {m : String × Json} (hm : m ∈ members) (h : p m.1) :
    Mentions p (object members)
  | member {members : List (String × Json)} {m : String × Json} (hm : m ∈ members)
    (h : Mentions p m.2) : Mentions p (object members)

section Mentions

variable {p : String → Prop}

@[simp] theorem mentions_null : ¬ Mentions p null := nofun

@[simp] theorem mentions_bool {value : Bool} : ¬ Mentions p (bool value) := nofun

@[simp] theorem mentions_nat {n : Nat} : ¬ Mentions p (nat n) := nofun

@[simp] theorem mentions_string {text : String} : Mentions p (string text) ↔ p text :=
  ⟨fun | .string h => h, .string⟩

@[simp] theorem mentions_array {items : List Json} :
    Mentions p (array items) ↔ ∃ v ∈ items, Mentions p v :=
  ⟨fun | .item hv h => ⟨_, hv, h⟩, fun ⟨_, hv, h⟩ => .item hv h⟩

@[simp] theorem mentions_object {members : List (String × Json)} :
    Mentions p (object members) ↔ ∃ m ∈ members, p m.1 ∨ Mentions p m.2 := by
  constructor
  · intro h
    cases h with
    | name hm h => exact ⟨_, hm, .inl h⟩
    | member hm h => exact ⟨_, hm, .inr h⟩
  · rintro ⟨m, hm, h | h⟩
    · exact .name hm h
    · exact .member hm h

@[simp] theorem mentions_strings {texts : List String} :
    Mentions p (strings texts) ↔ ∃ text ∈ texts, p text := by
  simp [strings]

end Mentions

variable {c : Char} {s w : List Char}

/-- A character stands for itself, or a backslash and something harmless stands
for it. -/
theorem escapeChar_eq_or : escapeChar c = [c]
    ∨ escapeChar c ≠ [c] ∧ ∃ code, escapeChar c = '\\' :: code ∧ '<' ∉ code := by
  have hhex : ∀ n < 32, '<' ∉ 'u' :: Text.hex 4 n := by decide
  rw [escapeChar.eq_def]
  split
  case h_8 =>
    split
    case isTrue hcontrol => exact .inr ⟨by simp, _, rfl, hhex _ hcontrol⟩
    case isFalse => exact .inl rfl
  all_goals exact .inr ⟨by decide, _, rfl, by decide⟩

/-- What begins an escaped text begins the text, if it needs no escape. -/
theorem prefix_flatMap_escapeChar_iff (h : ∀ c ∈ w, escapeChar c = [c]) :
    w <+: s.flatMap escapeChar ↔ w <+: s := by
  induction s generalizing w with
  | nil => rfl
  | cons c s ih =>
    cases w with
    | nil => simp
    | cons d w =>
      obtain ⟨hd, hw⟩ := List.forall_mem_cons.1 h
      rw [List.flatMap_cons, List.cons_prefix_cons]
      rcases @escapeChar_eq_or c with hc | ⟨hne, code, hc, -⟩
      · rw [hc, List.singleton_append, List.cons_prefix_cons, ih hw]
      · have hslash : d ≠ '\\' := by
          rintro rfl
          cases hd
        have hdc : d ≠ c := by
          rintro rfl
          exact hne hd
        rw [hc, List.cons_append, List.cons_prefix_cons]
        simp only [hslash, hdc, false_and]

theorem escapeChar_of_mem_commentStart (h : c ∈ commentStart) : escapeChar c = [c] := by
  have hall : commentStart.all fun c => escapeChar c = [c] := by decide
  exact of_decide_eq_true (List.all_eq_true.1 hall c h)

theorem commentStart_ne_nil : commentStart ≠ [] := nofun

theorem commentStart_infix_flatMap_escapeChar_iff :
    commentStart <:+: s.flatMap escapeChar ↔ commentStart <:+: s := by
  induction s with
  | nil => rfl
  | cons c s ih =>
    have hbegin := @prefix_flatMap_escapeChar_iff (c :: s) commentStart
      fun _ => escapeChar_of_mem_commentStart
    rw [List.flatMap_cons] at hbegin ⊢
    rcases @escapeChar_eq_or c with hc | ⟨hne, code, hc, hcode⟩
    · rw [hc, List.singleton_append] at hbegin ⊢
      rw [List.infix_cons_iff, List.infix_cons_iff, hbegin, ih]
    · have hskip : commentStart <:+: escapeChar c ++ s.flatMap escapeChar
          ↔ commentStart <:+: s.flatMap escapeChar :=
        cons_infix_append_iff (by rw [hc]; simpa using hcode)
      have hlt : ¬ commentStart <+: c :: s := fun h =>
        hne (escapeChar_of_mem_commentStart ((List.cons_prefix_cons.1 h).1 ▸ List.mem_cons_self))
      rw [hskip, ih, List.infix_cons_iff, or_iff_right hlt]

theorem commentStart_infix_quote_iff {text : String} :
    commentStart <:+: (quote text).toList ↔ commentStart <:+: text.toList := by
  rw [toList_quote, infix_between_iff (by decide) (by decide) commentStart_ne_nil,
    commentStart_infix_flatMap_escapeChar_iff]

/-- Between brackets it stands in one of the parts. -/
theorem commentStart_infix_enclosed_iff {left right : Char} (hleft : left ∉ commentStart)
    (hright : right ∉ commentStart) {parts : List (List Char)} :
    commentStart <:+: left :: enclosed right [] [] parts
      ↔ ∃ part ∈ parts, commentStart <:+: part := by
  have henclosed : enclosed right [] [] parts = [','].intercalate parts ++ [right] := by
    cases parts with
    | nil => rfl
    | cons part parts => rfl
  rw [henclosed, infix_between_iff hleft hright commentStart_ne_nil,
    infix_intercalate_iff (by decide) commentStart_ne_nil]

theorem not_infix_of_notMem (h : '<' ∉ s) : ¬ commentStart <:+: s := fun hin =>
  h (hin.subset List.mem_cons_self)

/-- A value that holds no text is written without a `<`. -/
theorem commentStart_infix_scalar_iff {v : Json} (h : Within 0 v) :
    commentStart <:+: v.compact.toList ↔ v.Mentions (commentStart <:+: ·.toList) := by
  cases v with
  | null => exact iff_of_false (not_infix_of_notMem (by decide)) mentions_null
  | bool value =>
    exact iff_of_false (not_infix_of_notMem (by cases value <;> decide)) mentions_bool
  | nat n =>
    exact iff_of_false (not_infix_of_notMem (not_mem_toString (by decide) n)) mentions_nat
  | string text =>
    rw [mentions_string]
    exact commentStart_infix_quote_iff
  | array items => exact h.elim
  | object members => exact h.elim

/-- **A `<!--` in a value that is written on one line** is in one of its texts. -/
theorem commentStart_infix_compact_iff {depth : Nat} {v : Json} (h : Within depth v) :
    commentStart <:+: v.compact.toList ↔ v.Mentions (commentStart <:+: ·.toList) := by
  induction depth generalizing v with
  | zero => exact commentStart_infix_scalar_iff h
  | succ depth ih =>
    cases v with
    | array items =>
      have hcompact : (array items).compact.toList
          = '[' :: enclosed ']' [] [] (items.map fun v => v.compact.toList) :=
        @onOneLine.text_array 0 items
      rw [hcompact, commentStart_infix_enclosed_iff (by decide) (by decide), mentions_array]
      simp only [List.mem_map, exists_exists_and_eq_and]
      exact exists_congr fun v => and_congr_right fun hv => ih (h v hv)
    | object members =>
      have hcompact : (object members).compact.toList
          = '\x7b' :: enclosed '\x7d' [] []
              (members.map fun m => (quote m.1).toList ++ ':' :: m.2.compact.toList) :=
        @onOneLine.text_object 0 members
      rw [hcompact, commentStart_infix_enclosed_iff (by decide) (by decide), mentions_object]
      simp only [List.mem_map, exists_exists_and_eq_and]
      refine exists_congr fun m => and_congr_right fun hm => ?_
      rw [infix_append_cons_iff (by decide), commentStart_infix_quote_iff, ih (h m hm)]
    | _ => exact commentStart_infix_scalar_iff h

end Json

/-! ## The element of the data -/

namespace Html

open Text

variable {r : Report} {layout : Layout} {p : String → Prop} {s w : List Char}

/-- The texts of a module that are part of its data. -/
def moduleTexts (m : ModuleReport) : List String :=
  m.dependencies ++ m.dependents ++ m.outputs ++ [m.source]

/-- **The texts of a report that are part of its data**: the walks of its cycles,
and the ids of its modules with the texts of each. -/
def dataTexts (r : Report) : List String :=
  r.cycles.flatMap Cycle.walk ++ r.modules.toList.flatMap fun (id, m) => id :: moduleTexts m

/-- The names in the data of a graph that are the same in each of them. -/
def dataNames : List String :=
  ["bounds", "height", "width", "cycles", "modules", "complexity_score", "dependencies",
    "dependents", "outputs", "source", "stub"]

theorem exists_mem_flatMap_iff {α : Type} {f : α → List String} {xs : List α} :
    (∃ text ∈ xs.flatMap f, p text) ↔ ∃ x ∈ xs, ∃ text ∈ f x, p text := by
  simp only [List.mem_flatMap]
  constructor
  · rintro ⟨text, ⟨x, hx, htext⟩, h⟩
    exact ⟨x, hx, text, htext, h⟩
  · rintro ⟨x, hx, text, htext, h⟩
    exact ⟨text, ⟨x, hx, htext⟩, h⟩

theorem mentions_moduleData_iff (hnames : ∀ name ∈ dataNames, ¬ p name) {m : ModuleReport} :
    (moduleData m).Mentions p ↔ ∃ text ∈ moduleTexts m, p text := by
  simp only [dataNames, List.forall_mem_cons] at hnames
  simp [moduleData, moduleTexts, hnames, or_and_right, exists_or]

/-- **The data of a graph mentions the texts of its report**, and names of its
own. -/
theorem mentions_graphData_iff (hnames : ∀ name ∈ dataNames, ¬ p name) :
    (graphData r layout).Mentions p ↔ ∃ text ∈ dataTexts r, p text := by
  have htexts : (∃ text ∈ dataTexts r, p text) ↔ (∃ c ∈ r.cycles, c.toJson.Mentions p)
      ∨ ∃ e ∈ r.modules.toList, p e.1 ∨ (moduleData e.2).Mentions p := by
    simp only [dataTexts, List.mem_append, or_and_right, exists_or, exists_mem_flatMap_iff,
      List.exists_mem_cons_iff, mentions_moduleData_iff hnames, Cycle.toJson,
      Json.mentions_strings]
  rw [htexts]
  simp only [dataNames, List.forall_mem_cons] at hnames
  simp [graphData, hnames]

/-- What begins protected text without a `<` is not changed. -/
theorem prefix_protectEnd_iff (h : '<' ∉ w) : w <+: protectEnd s ↔ w <+: s := by
  induction w generalizing s with
  | nil => simp
  | cons d w ih =>
    obtain ⟨hd, hw⟩ := not_or.1 (List.mem_cons.not.1 h)
    cases s with
    | nil => rfl
    | cons c s =>
      by_cases hc : c = '<'
      · subst hc
        obtain ⟨t, ht⟩ : ∃ t, protectEnd ('<' :: s) = '<' :: t :=
          List.head?_eq_some_iff.1 head?_protectEnd
        rw [ht, List.cons_prefix_cons, List.cons_prefix_cons]
        simp only [Ne.symm hd, false_and]
      · rw [protectEnd_cons hc, List.cons_prefix_cons, List.cons_prefix_cons, ih hw]

/-- **The protection of end tags keeps every `<!--`.** -/
theorem commentStart_infix_protectEnd_iff :
    commentStart <:+: protectEnd s ↔ commentStart <:+: s := by
  induction s using protectEnd.induct with
  | case1 rest ih =>
    simp only [protectEnd, List.infix_cons_iff, ih]
    simp [commentStart]
  | case2 c rest hend ih =>
    rw [protectEnd.eq_2 c rest hend, List.infix_cons_iff, List.infix_cons_iff, ih]
    refine or_congr_left ?_
    rw [commentStart, List.cons_prefix_cons, List.cons_prefix_cons,
      prefix_protectEnd_iff (by decide)]
  | case3 => rfl

/-- **A `<!--` in the data** comes from a text of the report. -/
theorem commentStart_infix_payload_iff : commentStart <:+: (payload r layout).toList
    ↔ ∃ text ∈ dataTexts r, commentStart <:+: text.toList := by
  have hwithin : Json.Within 4 (graphData r layout) := @within_graphData r layout 0
  rw [payload, String.toList_ofList, commentStart_infix_protectEnd_iff,
    Json.commentStart_infix_compact_iff hwithin, mentions_graphData_iff]
  decide

theorem LeavesOpen.has_commentStart (h : LeavesOpen s) : commentStart <:+: s := by
  obtain ⟨tail, htail, -⟩ := h
  exact (List.prefix_append commentStart tail).isInfix.trans htail.isInfix

/-! ### The rest of the page -/

open ScriptState

/-- The start tag of the data. -/
def dataTag : String := "<script type=\"application/json\" id=\"graph-data\">"

/-- The data stands directly behind its start tag. -/
theorem dataTag_suffix_front (r : Report) : dataTag.toList <:+ (front r).toList := by
  have hlast : renderAll
      [.markup "</aside>\n</main>\n<script type=\"application/json\" id=\"graph-data\">"]
        = "</aside>\n</main>\n" ++ dataTag := by
    decide +kernel
  rw [front, beforeData, renderAll_append, hlast, ← String.append_assoc, String.toList_append]
  exact List.suffix_append _ _

/-- The page behind the end tag of the data: a script of its own. -/
def afterEndTag : String :=
  "\n<script>\n" ++ Text.unlines Page.script ++ "</script>\n</body>\n</html>\n"

theorem back_eq : back.toList = endTag ++ afterEndTag.toList := by
  have htags : "</script>\n<script>\n" = "</script>" ++ "\n<script>\n" := by decide +kernel
  have hback : back = "</script>" ++ afterEndTag := by
    rw [back, renderAll, afterData, List.map_singleton, String.join_cons, String.join_nil,
      String.append_empty, Part.render, htags, afterEndTag, String.append_assoc,
      String.append_assoc, String.append_assoc]
  rw [hback]
  exact String.toList_append

/-- Lines that are all read in one state. -/
theorem run_unlines {state : ScriptState} {lines : List String}
    (h : ∀ line ∈ lines, run state (line.toList ++ ['\n']) = state) :
    run state (Text.unlines lines).toList = state := by
  induction lines with
  | nil => rfl
  | cons line lines ih =>
    obtain ⟨hline, hlines⟩ := List.forall_mem_cons.1 h
    have htext : (Text.unlines (line :: lines)).toList
        = (line.toList ++ ['\n']) ++ (Text.unlines lines).toList := by
      rw [Text.unlines, List.map_cons, String.join_cons, String.toList_append,
        String.toList_append, Text.unlines]
      rfl
    rw [htext, run_append, hline, ih hlines]

/-- No line of the script ends what is escaped twice. -/
theorem run_script :
    run (text (some .twice)) (Text.unlines Page.script).toList = text (some .twice) := by
  refine run_unlines ?_
  simp only [Page.script, List.forall_mem_cons, String.toList_append]
  and_intros
  all_goals
    first
    | exact List.forall_mem_nil _
    | -- reading a literal as its characters is much faster than its evaluation
      repeat rw [String.toList_ofList]
      decide +kernel

/-- **There is no other end tag for the data**: the script that ends on the rest
of the page has begun there. -/
theorem closesAfter?_afterEndTag :
    closesAfter? (text (some .once)) afterEndTag.toList = none := by
  have htag : run (text (some .once)) "\n<script>\n".toList = text (some .twice) := by
    decide +kernel
  have hend : closesAfter? (text (some .twice)) "</script>\n</body>\n</html>\n".toList = none := by
    decide +kernel
  have hscript : run (text (some .once)) ("\n<script>\n" ++ Text.unlines Page.script).toList
      = text (some .twice) := by
    rw [String.toList_append, run_append, htag, run_script]
  rw [afterEndTag, String.toList_append, closesAfter?_append (by rw [hscript]; nofun), hscript,
    hend, Option.map_none]

/-- **The rest of the page ends a text** that does not leave its element open, and
no other one. -/
theorem scriptText?_back (h : ¬ ['<', '/'] <:+: s) :
    (scriptText? (s ++ back.toList) = some s ↔ ¬ LeavesOpen s)
      ∧ (scriptText? (s ++ back.toList) = none ↔ LeavesOpen s) := by
  rw [back_eq]
  by_cases hleaves : LeavesOpen s
  · rw [scriptText?_endTag_of_leavesOpen h hleaves, closesAfter?_afterEndTag]
    simpa using hleaves
  · rw [scriptText?_endTag h hleaves]
    simpa using hleaves

theorem not_infix_payload : ¬ ['<', '/'] <:+: (payload r layout).toList := by
  rw [payload, String.toList_ofList]
  exact not_infix_protectEnd

/-- **Where the data of a page ends.** It stands in a script element, and no `</`
is in it. The end tag that is written behind it ends that element unless the data
has a `<!--` that no `-->` ends and behind it a tag that opens a script. If it
does, nothing on the page ends the element. A `<!--` is in the data as soon as it
is in one of its texts. -/
theorem scriptText?_payload_iff (r : Report) :
    (render r = front r ++ payload r (Layout.ofReport r) ++ back
        ∧ dataTag.toList <:+ (front r).toList ∧ endTag <+: back.toList)
      ∧ ¬ ['<', '/'] <:+: (payload r (Layout.ofReport r)).toList
      ∧ (commentStart <:+: (payload r (Layout.ofReport r)).toList
        ↔ ∃ text ∈ dataTexts r, commentStart <:+: text.toList)
      ∧ (scriptText? ((payload r (Layout.ofReport r)).toList ++ back.toList)
          = some (payload r (Layout.ofReport r)).toList
        ↔ ¬ LeavesOpen (payload r (Layout.ofReport r)).toList)
      ∧ (scriptText? ((payload r (Layout.ofReport r)).toList ++ back.toList) = none
        ↔ LeavesOpen (payload r (Layout.ofReport r)).toList) := by
  have hback : endTag <+: back.toList := back_eq ▸ List.prefix_append _ _
  exact ⟨⟨render_eq_front_append r, dataTag_suffix_front r, hback⟩, not_infix_payload,
    commentStart_infix_payload_iff, scriptText?_back not_infix_payload⟩

/-- A report of one module with the given source. -/
def withSource (source : String) : Report :=
  { nothing with
    modules := Std.ExtTreeMap.ofList
      [("a", ⟨source, ⟨"a"⟩, [], [], [], [], [], [], [], [], [], ∅, [], [], false, 1⟩)] compare
    layers := [["a"]] }

/-- A source can leave the data open. -/
theorem leavesOpen_payload_withSource : LeavesOpen
    (payload (withSource "<!--<script>") (Layout.ofReport (withSource "<!--<script>"))).toList := by
  have hheight : (Layout.ofReport (withSource "<!--<script>")).height = 116 := by decide +kernel
  have hwidth : (Layout.ofReport (withSource "<!--<script>")).width = 176 := by decide +kernel
  have hdata : graphData (withSource "<!--<script>") (Layout.ofReport (withSource "<!--<script>"))
      = .object [("bounds", .object [("height", .nat 116), ("width", .nat 176)]),
        ("cycles", .array []),
        ("modules", .object [("a", .object [("complexity_score", .nat 1),
          ("dependencies", .array []), ("dependents", .array []), ("outputs", .array []),
          ("source", .string "<!--<script>"), ("stub", .bool false)])])] := by
    rw [graphData, hheight, hwidth]
    rfl
  rw [← (isOpen_run_and_leavesOpen_iff not_infix_payload).2, payload, String.toList_ofList, hdata]
  simp only [Json.compact, Json.compactMembers, Json.compactItems, String.toList_append,
    String.toList_intercalate, Json.toList_quote, List.map_cons, List.map_nil,
    if_neg Bool.false_ne_true]
  repeat rw [String.toList_ofList]
  decide +kernel

/-- With a `<!--` in a source the data has one too, and its element can go on up
to the end of the page. -/
theorem scriptText?_payload_withSource :
    commentStart <:+: (payload (withSource "<!--<script>")
        (Layout.ofReport (withSource "<!--<script>"))).toList
      ∧ scriptText? ((payload (withSource "<!--<script>")
        (Layout.ofReport (withSource "<!--<script>"))).toList ++ back.toList) = none :=
  ⟨leavesOpen_payload_withSource.has_commentStart,
    (scriptText?_back not_infix_payload).2.2 leavesOpen_payload_withSource⟩

end Html

end StackGraph
