import StackGraph.Proofs.Json.Roundtrip
import StackGraph.Proofs.Ordered
import StackGraph.Proofs.Timestamp
import StackGraph.Report.Reader
/-!
# Reports read back

Every part of a report is read back from its JSON form: lists item by item,
maps entry by entry, and objects field by field, as the names of their fields
differ from each other. With the layouts of JSON it follows that a report is
read back from its text.

A report holds counts that fit in a word and a point in time within its bounds,
and nothing else is asked of it: its parts need not agree. Everything but the
time is then read back as it was. So is the time, unless it lies in a leap
second that is not in place: its text is that of the next second, which is read
instead (`Report.read_jsonText`). Nothing is asked in vain, since every report
that is read from some text is within the bounds and has its time in place
(`Report.inRange_of_read?`).
-/

namespace StackGraph

open Std

namespace Json

variable {α : Type}

/-! ### Lists and maps -/

/-- What is read back one by one is read back as a list. -/
theorem mapM_map {β : Type} {f : α → β} {read? : β → Option α} {xs : List α}
    (h : ∀ x ∈ xs, read? (f x) = some x) : (xs.map f).mapM read? = some xs := by
  induction xs with
  | nil => rfl
  | cons x xs ih =>
    obtain ⟨hx, hxs⟩ := List.forall_mem_cons.1 h
    rw [List.map_cons, List.mapM_cons, hx, ih hxs]
    rfl

theorem list?_array {f : α → Json} {item? : Json → Option α} {xs : List α}
    (h : ∀ x ∈ xs, item? (f x) = some x) : list? item? (array (xs.map f)) = some xs :=
  mapM_map h

theorem texts?_strings {texts : List String} : texts? (strings texts) = some texts :=
  list?_array fun _ _ => rfl

/-- Things that are read back from their names are read back as a list of names.
-/
theorem list?_strings {name : α → String} {item? : Json → Option α} {xs : List α}
    (h : ∀ x, item? (string (name x)) = some x) :
    list? item? (strings (xs.map name)) = some xs := by
  rw [strings, List.map_map]
  exact list?_array fun x _ => h x

theorem map?_object {f : α → Json} {value? : Json → Option α} {m : NameMap α}
    (h : ∀ (name : String) (x : α), m[name]? = some x → value? (f x) = some x) :
    map? value? (object (m.toList.map fun (name, x) => (name, f x))) = some m := by
  have hentries : (m.toList.map fun (name, x) => (name, f x)).mapM
      (fun e => (value? e.2).map fun x => (e.1, x)) = some m.toList := by
    refine mapM_map fun (name, x) hx => ?_
    rw [h name x (ExtTreeMap.mem_toList_iff_getElem?_eq_some.1 hx), Option.map_some]
  rw [map?, hentries, Option.map_some, mapOfList_toList]

theorem count?_nat {n : Nat} (h : n < Text.wordCount) : count? (nat n) = some n := if_pos h

/-! ### Objects -/

theorem lookup_of_mem {members : List (String × Json)} (h : (members.map Prod.fst).Nodup)
    {m : String × Json} (hm : m ∈ members) : members.lookup m.1 = some m.2 := by
  induction members with
  | nil => exact absurd hm List.not_mem_nil
  | cons first members ih =>
    obtain ⟨hnot, hnodup⟩ := List.nodup_cons.1 h
    rcases List.mem_cons.1 hm with rfl | hm
    · exact List.lookup_cons_self
    · have hne : m.1 ≠ first.1 := fun heq => hnot (heq ▸ List.mem_map_of_mem hm)
      rw [List.lookup_cons, beq_false_of_ne hne]
      exact ih hnodup hm

theorem lookup_of_not_mem {members : List (String × Json)} {name : String}
    (h : name ∉ members.map Prod.fst) : members.lookup name = none :=
  List.lookup_eq_none_iff.2 fun _ hm => bne_iff_ne.2 fun heq => h (heq ▸ List.mem_map_of_mem hm)

/-- **The fields of an object whose names differ are found in it,** each with
its value, and no other ones. What is read from fields that are found so is read
from the object. -/
theorem fields?_bind {names : List String} {members : List (String × Json)}
    {read? : List (String × Json) → Option α} {x : α} (hnodup : (members.map Prod.fst).Nodup)
    (h : ∀ fields : List (String × Json), (∀ m ∈ members, fields.lookup m.1 = some m.2) →
      (∀ name ∉ members.map Prod.fst, fields.lookup name = none) → read? fields = some x) :
    ((object members).fields? names).bind read? = some x := by
  have hfields : (object members).fields? names = some members :=
    if_pos (List.Pairwise.filter _ hnodup)
  rw [hfields, Option.bind_some]
  exact h members (fun _ => lookup_of_mem hnodup) fun _ => lookup_of_not_mem

end Json

/-! ### The parts of a report -/

theorem EdgeKind.ofJson?_text (k : EdgeKind) : ofJson? (.string k.text) = some k := by
  cases k <;> rfl

theorem FileKind.ofJson?_text (k : FileKind) : ofJson? (.string k.text) = some k := by
  cases k <;> rfl

theorem SuggestionKind.ofJson?_text (k : SuggestionKind) : ofJson? (.string k.text) = some k := by
  cases k <;> rfl

theorem Severity.ofJson?_text (s : Severity) : ofJson? (.string s.text) = some s := by
  cases s <;> rfl

theorem DiagnosticKind.ofJson?_text (k : DiagnosticKind) : ofJson? (.string k.text) = some k := by
  cases k <;> rfl

theorem Edge.ofJson?_toJson (e : Edge) : ofJson? e.toJson = some e := by
  rw [ofJson?, toJson, Option.bind_eq_bind]
  refine Json.fields?_bind (by simp) fun fields hfields _ => ?_
  simp only [List.forall_mem_cons] at hfields
  simp only [Json.field?, hfields, Option.bind_eq_bind, Option.bind_some, Json.text?,
    EdgeKind.ofJson?_text, Json.list?_strings EdgeKind.ofJson?_text, setOfList_toList]
  rfl

/-- A diagnostic without a file or a module is read back as one without them. -/
theorem Diagnostic.ofJson?_toJson (d : Diagnostic) : ofJson? d.toJson = some d := by
  obtain ⟨kind, severity, path, module, message⟩ := d
  rw [ofJson?, toJson, Option.bind_eq_bind]
  refine Json.fields?_bind (by cases path <;> cases module <;> simp)
    fun fields hfields hmissing => ?_
  have hpath : Json.optionalField? fields "path" Json.text? = some path := by
    cases path with
    | none => rw [Json.optionalField?, hmissing "path" (by cases module <;> simp)]
    | some path =>
      rw [Json.optionalField?, hfields ("path", .string path) (by simp)]
      rfl
  have hmodule : Json.optionalField? fields "module" Json.text? = some module := by
    cases module with
    | none => rw [Json.optionalField?, hmissing "module" (by cases path <;> simp)]
    | some module =>
      rw [Json.optionalField?, hfields ("module", .string module) (by simp)]
      rfl
  simp only [List.forall_mem_append, List.forall_mem_cons] at hfields
  simp only [Json.field?, hfields, hpath, hmodule, Option.bind_eq_bind, Option.bind_some,
    Json.text?, DiagnosticKind.ofJson?_text, Severity.ofJson?_text]
  rfl

theorem ModuleReport.ofJson?_toJson {m : ModuleReport} (h : m.complexityScore < Text.wordCount) :
    ofJson? m.toJson = some m := by
  have hinvocations : Json.map? Json.text? (Json.ofTexts m.invocations) = some m.invocations :=
    Json.map?_object fun _ _ _ => rfl
  rw [ofJson?, toJson, Option.bind_eq_bind]
  refine Json.fields?_bind (by simp) fun fields hfields _ => ?_
  simp only [List.forall_mem_cons] at hfields
  simp only [Json.field?, hfields, Option.bind_eq_bind, Option.bind_some, Json.text?,
    Path.ofJson?, Option.map_some, Json.texts?_strings, hinvocations,
    Json.list?_strings FileKind.ofJson?_text, Json.bool?, Json.count?_nat h]
  rfl

theorem Cycle.ofJson?_toJson (c : Cycle) : ofJson? c.toJson = some c := by
  rw [ofJson?, toJson, Json.texts?_strings, Option.map_some]

theorem Suggestion.ofJson?_toJson (s : Suggestion) : ofJson? s.toJson = some s := by
  rw [ofJson?, toJson, Option.bind_eq_bind]
  refine Json.fields?_bind (by simp) fun fields hfields _ => ?_
  simp only [List.forall_mem_cons] at hfields
  simp only [Json.field?, hfields, Option.bind_eq_bind, Option.bind_some, Json.text?,
    SuggestionKind.ofJson?_text, Json.texts?_strings]
  rfl

theorem CycleAdvice.ofJson?_toJson (a : CycleAdvice) : ofJson? a.toJson = some a := by
  rw [ofJson?, toJson, Option.bind_eq_bind]
  refine Json.fields?_bind (by simp) fun fields hfields _ => ?_
  simp only [List.forall_mem_cons] at hfields
  simp only [Json.field?, hfields, Option.bind_eq_bind, Option.bind_some, Cycle.ofJson?_toJson,
    Json.list?_array fun s _ => Suggestion.ofJson?_toJson s]
  rfl

theorem Reach.ofJson?_toJson {r : Reach} (h : r.count < Text.wordCount) :
    ofJson? r.toJson = some r := by
  rw [ofJson?, toJson, Option.bind_eq_bind]
  refine Json.fields?_bind (by simp) fun fields hfields _ => ?_
  simp only [List.forall_mem_cons] at hfields
  simp only [Json.field?, hfields, Option.bind_eq_bind, Option.bind_some, Json.texts?_strings,
    Json.count?_nat h]
  rfl

theorem HighImpact.ofJson?_toJson {i : HighImpact} (h : i.count < Text.wordCount) :
    ofJson? i.toJson = some i := by
  rw [ofJson?, toJson, Option.bind_eq_bind]
  refine Json.fields?_bind (by simp) fun fields hfields _ => ?_
  simp only [List.forall_mem_cons] at hfields
  simp only [Json.field?, hfields, Option.bind_eq_bind, Option.bind_some, Json.text?,
    Json.texts?_strings, Json.count?_nat h]
  rfl

theorem ComplexityBuckets.ofJson?_toJson (b : ComplexityBuckets) : ofJson? b.toJson = some b := by
  rw [ofJson?, toJson, Option.bind_eq_bind]
  refine Json.fields?_bind (by simp) fun fields hfields _ => ?_
  simp only [List.forall_mem_cons] at hfields
  simp only [Json.field?, hfields, Option.bind_eq_bind, Option.bind_some, Json.texts?_strings]
  rfl

theorem Timestamp.ofJson?_text {t : Timestamp} (h : t.InBounds) :
    ofJson? (.string (t.text "Z")) = some t.settled := by
  rw [ofJson?, Json.text?, Option.bind_some, h.read?_text]

/-- What the parts of a report can hold: counts that fit in a word, and a point
in time within its bounds. -/
structure Report.InBounds (r : Report) : Prop where
  generatedAt : ∀ t ∈ r.generatedAt, t.InBounds
  totalModules : r.totalModules < Text.wordCount
  totalDependencies : r.totalDependencies < Text.wordCount
  totalCycles : r.totalCycles < Text.wordCount
  complexityScore : ∀ (id : String) (m : ModuleReport), r.modules[id]? = some m →
    m.complexityScore < Text.wordCount
  reach : ∀ (id : String) (reach : Reach), r.impact.reach[id]? = some reach →
    reach.count < Text.wordCount
  high : ∀ h ∈ r.impact.high, h.count < Text.wordCount

/-- A report whose time exists: a leap second is in place. -/
structure Report.InRange (r : Report) : Prop extends r.InBounds where
  isInPlace : ∀ t ∈ r.generatedAt, t.IsInPlace

/-- The report with the leap second of its time in place. -/
def Report.settled (r : Report) : Report :=
  { r with generatedAt := r.generatedAt.map Timestamp.settled }

namespace Report

variable {r : Report}

/-- A report stays what it is exactly if its time is in place. -/
theorem settled_eq_self_iff : r.settled = r ↔ ∀ t ∈ r.generatedAt, t.IsInPlace := by
  have htime : r.settled = r ↔ r.generatedAt.map Timestamp.settled = r.generatedAt :=
    ⟨congrArg generatedAt, fun heq => by rw [settled, heq]⟩
  rw [htime]
  cases r.generatedAt with
  | none => exact iff_of_true rfl nofun
  | some t =>
    rw [Option.map_some, Option.some_inj, Timestamp.settled_eq_self_iff]
    exact ⟨fun h _ ht => Option.some.inj ht ▸ h, fun h => h t rfl⟩

theorem InBounds.ofJson?_impact (h : r.InBounds) :
    Impact.ofJson? r.impact.toJson = some r.impact := by
  have hhigh : Json.list? HighImpact.ofJson? (.array (r.impact.high.map HighImpact.toJson))
      = some r.impact.high :=
    Json.list?_array fun i hi => HighImpact.ofJson?_toJson (h.high i hi)
  have hreach := @Json.map?_object _ Reach.toJson Reach.ofJson? r.impact.reach
    fun id reach hid => Reach.ofJson?_toJson (h.reach id reach hid)
  rw [Impact.ofJson?, Impact.toJson, Option.bind_eq_bind]
  refine Json.fields?_bind (by simp) fun fields hfields _ => ?_
  simp only [List.forall_mem_cons] at hfields
  simp only [Json.field?, hfields, Option.bind_eq_bind, Option.bind_some, hhigh, hreach,
    Json.texts?_strings]
  rfl

theorem InBounds.optional?_generatedAt (h : r.InBounds) :
    Json.optional? Timestamp.ofJson? (.stringOrNull (r.generatedAt.map (·.text "Z")))
      = some (r.generatedAt.map Timestamp.settled) := by
  cases hat : r.generatedAt with
  | none => rfl
  | some t =>
    rw [Option.map_some, Json.stringOrNull, Json.optional?,
      Timestamp.ofJson?_text (h.generatedAt t hat), Option.map_some, Option.map_some]
    exact nofun

/-- **A report is read back from its JSON form**, its time in place. -/
theorem InBounds.ofJson?_toJson (h : r.InBounds) : ofJson? r.toJson = some r.settled := by
  have hmodules := @Json.map?_object _ ModuleReport.toJson ModuleReport.ofJson? r.modules
    fun id m hid => ModuleReport.ofJson?_toJson (h.complexityScore id m hid)
  have hedges : Json.list? Edge.ofJson? (.array (r.edges.map Edge.toJson)) = some r.edges :=
    Json.list?_array fun e _ => e.ofJson?_toJson
  have hcycles : Json.list? Cycle.ofJson? (.array (r.cycles.map Cycle.toJson)) = some r.cycles :=
    Json.list?_array fun c _ => c.ofJson?_toJson
  have hpaths := @Json.map?_object _ (fun paths => .array (List.map Json.strings paths))
    (Json.list? Json.texts?) r.paths fun _ _ _ => Json.list?_array fun _ _ => Json.texts?_strings
  have hadvice : Json.list? CycleAdvice.ofJson? (.array (r.advice.map CycleAdvice.toJson))
      = some r.advice :=
    Json.list?_array fun a _ => a.ofJson?_toJson
  have hlayers : Json.list? Json.texts? (.array (r.layers.map Json.strings)) = some r.layers :=
    Json.list?_array fun _ _ => Json.texts?_strings
  have hdiagnostics : Json.list? Diagnostic.ofJson? (.array (r.diagnostics.map Diagnostic.toJson))
      = some r.diagnostics :=
    Json.list?_array fun d _ => d.ofJson?_toJson
  rw [ofJson?, toJson, Option.bind_eq_bind]
  refine Json.fields?_bind (by simp) fun fields hfields _ => ?_
  simp only [List.forall_mem_cons] at hfields
  simp only [Json.field?, Json.optionalField?, hfields, Option.bind_eq_bind, Option.bind_some,
    Path.ofJson?, Json.text?, Option.map_some, h.optional?_generatedAt, hmodules, hedges, hcycles,
    hpaths, Json.count?_nat h.totalModules, Json.count?_nat h.totalDependencies,
    Json.count?_nat h.totalCycles, hadvice, h.ofJson?_impact, ComplexityBuckets.ofJson?_toJson,
    hlayers, hdiagnostics]
  rfl

end Report

/-! ### The depth of a report -/

section Depth

variable {depth : Nat}

theorem Edge.within_toJson {e : Edge} : Json.Within (depth + 2) e.toJson := by
  simp [toJson]

theorem Diagnostic.within_toJson {d : Diagnostic} : Json.Within (depth + 1) d.toJson := by
  obtain ⟨kind, severity, path, module, message⟩ := d
  cases path <;> cases module <;> simp [toJson]

theorem ModuleReport.within_toJson {m : ModuleReport} : Json.Within (depth + 2) m.toJson := by
  have hinvocations : Json.Within (depth + 1) (.ofTexts m.invocations) :=
    Json.within_object_map fun _ => Json.within_string
  simp [toJson, hinvocations]

theorem CycleAdvice.within_toJson {a : CycleAdvice} : Json.Within (depth + 4) a.toJson := by
  have hsuggestions : Json.Within (depth + 3) (.array (a.suggestions.map Suggestion.toJson)) :=
    Json.within_array_map fun s => by simp [Suggestion.toJson]
  simp [toJson, Cycle.toJson, hsuggestions]

theorem Impact.within_toJson {i : Impact} : Json.Within (depth + 4) i.toJson := by
  have hhigh : Json.Within (depth + 3) (.array (i.high.map HighImpact.toJson)) :=
    Json.within_array_map fun h => by simp [HighImpact.toJson]
  have hreach : ∀ reach : Reach, Json.Within (depth + 2) reach.toJson :=
    fun reach => by simp [Reach.toJson]
  simp only [toJson, Json.within_object, List.forall_mem_cons]
  exact ⟨hhigh, Json.within_object_map hreach, Json.within_strings, List.forall_mem_nil _⟩

/-- The parts of a report do not stand deep inside each other. -/
theorem Report.within_toJson {r : Report} : Json.Within (depth + 6) r.toJson := by
  have hat : Json.Within (depth + 5) (.stringOrNull (r.generatedAt.map (·.text "Z"))) := by
    cases r.generatedAt <;> simp [Json.stringOrNull]
  have hpaths : ∀ paths : List (List String),
      Json.Within (depth + 4) (.array (paths.map Json.strings)) :=
    fun _ => Json.within_array_map fun _ => Json.within_strings
  simp only [toJson, Json.within_object, List.forall_mem_cons]
  refine ⟨Json.within_string, hat, ?_, ?_, ?_, Json.within_object_map hpaths, Json.within_nat,
    Json.within_nat, Json.within_nat, ?_, Impact.within_toJson, ?_, ?_, ?_, List.forall_mem_nil _⟩
  · exact Json.within_object_map fun _ => ModuleReport.within_toJson
  · exact Json.within_array_map fun _ => Edge.within_toJson
  · exact Json.within_array_map fun _ => Json.within_strings
  · exact Json.within_array_map fun _ => CycleAdvice.within_toJson
  · simp [ComplexityBuckets.toJson]
  · exact Json.within_array_map fun _ => Json.within_strings
  · exact Json.within_array_map fun _ => Diagnostic.within_toJson

end Depth

/-! ### The text of a report -/

/-- A report is read back from its text, over several lines and on one, with the
leap second of its time in place. -/
theorem Report.InBounds.read?_jsonText {r : Report} (h : r.InBounds) (pretty : Bool) :
    Report.read? (r.jsonText pretty) = some r.settled := by
  have hwithin : Json.Within Json.depthLimit r.toJson := @Report.within_toJson 121 r
  have hjson : Json.read? (r.jsonText pretty) = some r.toJson := by
    cases pretty with
    | false => exact Json.onOneLine.read? 0 hwithin
    | true => exact Json.overLines.read? 0 hwithin
  rw [Report.read?, hjson, Option.bind_some, h.ofJson?_toJson]

/-- **A report is read back from its text,** over several lines and on one: all
its modules, edges, cycles, paths, suggestions and diagnostics with what they
hold and what they lack, and the time, with every character of every text. Only
a leap second that is not in place is read back as the next second; so the
report itself is read back exactly if its time is in place. -/
theorem Report.read_jsonText (r : Report) (pretty : Bool) (h : r.InBounds) :
    Report.read? (r.jsonText pretty) = some r.settled
      ∧ (Report.read? (r.jsonText pretty) = some r ↔ ∀ t ∈ r.generatedAt, t.IsInPlace) := by
  have hread := h.read?_jsonText pretty
  refine ⟨hread, ?_⟩
  rw [hread, Option.some_inj, settled_eq_self_iff]

/-- A report made in a leap second, long ago, with a module whose name needs an
escape and with a diagnostic about nothing in particular. -/
def Report.withEscapes : Report where
  scanRoot := ⟨"C:\\\u0007\t\"stacks\""⟩
  generatedAt := some ⟨-62167219201, 1500000000⟩
  modules := ExtTreeMap.ofList [("\n", ⟨"", ⟨"/"⟩, [], [], [], [], [], [], [], [], [],
    ExtTreeMap.ofList [("é", "\u2028")] compare, [], [.orchestration], true, 3⟩)] compare
  edges := [⟨"\n", "\r", .inferred, {.inferred, .explicit}⟩]
  cycles := [⟨["\n", "\r", "\n"]⟩]
  paths := ExtTreeMap.ofList [("\n -> \r", [["\n", "\r"], []])] compare
  totalModules := 0
  totalDependencies := 1
  totalCycles := 18446744073709551615
  advice := [⟨⟨[]⟩, [⟨.restructure, ["\u007f"], "/"⟩]⟩]
  impact := ⟨[⟨"\n", 4, []⟩], ∅, [""]⟩
  complexity := ⟨["\n"], [], ["\r"]⟩
  layers := [[], ["\n"]]
  diagnostics := [⟨.grammar, .warning, none, none, "\x0c\x08"⟩]

theorem Report.read_jsonText_withEscapes : Report.withEscapes.InBounds ∧
    Report.read? (Report.withEscapes.jsonText true) = some Report.withEscapes := by
  have hbounds : Report.withEscapes.InBounds :=
    { generatedAt := by
        rintro t ⟨⟩
        exact ⟨by decide, by decide⟩
      totalModules := by decide
      totalDependencies := by decide
      totalCycles := by decide
      complexityScore := by
        intro id m hid
        change (ExtTreeMap.ofList [_] compare)[id]? = some m at hid
        rw [ExtTreeMap.ofList_singleton, ExtTreeMap.getElem?_insert] at hid
        split at hid
        · obtain rfl := Option.some.inj hid
          decide
        · exact absurd hid (by simp)
      reach := by
        intro id reach hid
        exact absurd hid (by simp [Report.withEscapes])
      high := by decide }
  refine ⟨hbounds, (Report.read_jsonText _ true hbounds).2.2 ?_⟩
  rintro t ⟨⟩
  decide

/-- A report on nothing, made in a leap second behind the fifth second of a
minute. -/
def Report.inEarlyLeap : Report where
  scanRoot := ⟨"."⟩
  generatedAt := some ⟨4, 1000000000⟩
  modules := ∅
  edges := []
  cycles := []
  paths := ∅
  totalModules := 0
  totalDependencies := 0
  totalCycles := 0
  advice := []
  impact := ⟨[], ∅, []⟩
  complexity := ⟨[], [], []⟩
  layers := []
  diagnostics := []

/-- **A leap second out of place is not read back**: the report has the text of
one that was made a second later, and this is the one that is read. -/
theorem Report.read_jsonText_ne_inEarlyLeap : Report.inEarlyLeap.InBounds
    ∧ Report.read? (Report.inEarlyLeap.jsonText true)
      = some { Report.inEarlyLeap with generatedAt := some ⟨5, 0⟩ }
    ∧ Report.read? (Report.inEarlyLeap.jsonText false)
      = some { Report.inEarlyLeap with generatedAt := some ⟨5, 0⟩ }
    ∧ { Report.inEarlyLeap with generatedAt := some ⟨5, 0⟩ } ≠ Report.inEarlyLeap := by
  have hbounds : Report.inEarlyLeap.InBounds :=
    { generatedAt := by
        rintro t ⟨⟩
        exact ⟨by decide, by decide⟩
      totalModules := by decide
      totalDependencies := by decide
      totalCycles := by decide
      complexityScore := fun id m hid => absurd hid (by simp [Report.inEarlyLeap])
      reach := fun id reach hid => absurd hid (by simp [Report.inEarlyLeap])
      high := by decide }
  refine ⟨hbounds, hbounds.read?_jsonText true, hbounds.read?_jsonText false, fun heq => ?_⟩
  cases congrArg Report.generatedAt heq

/-! ### What is read -/

namespace Json

variable {α : Type}

theorem exists_of_mem_mapM {β : Type} {f : β → Option α} {xs : List β} {ys : List α} {y : α}
    (h : xs.mapM f = some ys) (hy : y ∈ ys) : ∃ x, f x = some y := by
  induction xs generalizing ys with
  | nil =>
    cases h
    exact absurd hy List.not_mem_nil
  | cons x xs ih =>
    rw [List.mapM_cons] at h
    obtain ⟨first, hfirst, h⟩ := Option.bind_eq_some_iff.1 h
    obtain ⟨rest, hrest, h⟩ := Option.bind_eq_some_iff.1 h
    cases h
    rcases List.mem_cons.1 hy with rfl | hy
    · exact ⟨x, hfirst⟩
    · exact ih hrest hy

theorem exists_of_mem_list? {item? : Json → Option α} {v : Json} {xs : List α} {x : α}
    (h : list? item? v = some xs) (hx : x ∈ xs) : ∃ v, item? v = some x := by
  unfold list? at h
  split at h
  · exact exists_of_mem_mapM h hx
  · cases h

theorem exists_of_map? {value? : Json → Option α} {v : Json} {m : NameMap α} {name : String} {x : α}
    (h : map? value? v = some m) (hx : m[name]? = some x) : ∃ v, value? v = some x := by
  unfold map? at h
  split at h
  · obtain ⟨entries, hentries, rfl⟩ := Option.map_eq_some_iff.1 h
    rw [getElem?_mapOfList] at hx
    obtain ⟨e, he, rfl⟩ := Option.map_eq_some_iff.1 hx
    obtain ⟨member, hmember⟩ :=
      exists_of_mem_mapM hentries (List.mem_of_mem_filter (List.mem_of_getLast? he))
    obtain ⟨y, hy, rfl⟩ := Option.map_eq_some_iff.1 hmember
    exact ⟨_, hy⟩
  · cases h

theorem exists_of_field? {fields : List (String × Json)} {name : String} {value? : Json → Option α}
    {x : α} (h : field? fields name value? = some x) : ∃ v, value? v = some x := by
  obtain ⟨v, -, hv⟩ := Option.bind_eq_some_iff.1 h
  exact ⟨v, hv⟩

theorem count?_lt {v : Json} {n : Nat} (h : count? v = some n) : n < Text.wordCount := by
  unfold count? at h
  split at h
  · split at h
    · cases h
      assumption
    · cases h
  · cases h

theorem field?_count?_lt {fields : List (String × Json)} {name : String} {n : Nat}
    (h : field? fields name count? = some n) : n < Text.wordCount :=
  (exists_of_field? h).elim fun _ => count?_lt

end Json

theorem ModuleReport.complexityScore_lt {v : Json} {m : ModuleReport} (h : ofJson? v = some m) :
    m.complexityScore < Text.wordCount := by
  unfold ofJson? at h
  iterate 16 obtain ⟨_, -, h⟩ := Option.bind_eq_some_iff.1 h
  obtain ⟨score, hscore, h⟩ := Option.bind_eq_some_iff.1 h
  cases h
  exact Json.field?_count?_lt hscore

theorem Reach.count_lt {v : Json} {r : Reach} (h : ofJson? v = some r) :
    r.count < Text.wordCount := by
  unfold ofJson? at h
  iterate 2 obtain ⟨_, -, h⟩ := Option.bind_eq_some_iff.1 h
  obtain ⟨count, hcount, h⟩ := Option.bind_eq_some_iff.1 h
  cases h
  exact Json.field?_count?_lt hcount

theorem HighImpact.count_lt {v : Json} {i : HighImpact} (h : ofJson? v = some i) :
    i.count < Text.wordCount := by
  unfold ofJson? at h
  iterate 2 obtain ⟨_, -, h⟩ := Option.bind_eq_some_iff.1 h
  obtain ⟨count, hcount, h⟩ := Option.bind_eq_some_iff.1 h
  obtain ⟨_, -, h⟩ := Option.bind_eq_some_iff.1 h
  cases h
  exact Json.field?_count?_lt hcount

theorem Impact.counts_lt {v : Json} {i : Impact} (h : ofJson? v = some i) :
    (∀ high ∈ i.high, high.count < Text.wordCount) ∧ ∀ (id : String) (reach : Reach),
      i.reach[id]? = some reach → reach.count < Text.wordCount := by
  unfold ofJson? at h
  obtain ⟨_, -, h⟩ := Option.bind_eq_some_iff.1 h
  obtain ⟨high, hhigh, h⟩ := Option.bind_eq_some_iff.1 h
  obtain ⟨reach, hreach, h⟩ := Option.bind_eq_some_iff.1 h
  obtain ⟨_, -, h⟩ := Option.bind_eq_some_iff.1 h
  cases h
  obtain ⟨_, hhigh⟩ := Json.exists_of_field? hhigh
  obtain ⟨_, hreach⟩ := Json.exists_of_field? hreach
  refine ⟨fun i hi => ?_, fun id r hid => ?_⟩
  · obtain ⟨_, hread⟩ := Json.exists_of_mem_list? hhigh hi
    exact HighImpact.count_lt hread
  · obtain ⟨_, hread⟩ := Json.exists_of_map? hreach hid
    exact Reach.count_lt hread

namespace Report

theorem isPoint_of_optionalField? {fields : List (String × Json)} {name : String}
    {at? : Option Timestamp} (h : Json.optionalField? fields name Timestamp.ofJson? = some at?) :
    ∀ t ∈ at?, t.IsPoint := by
  rintro t rfl
  unfold Json.optionalField? at h
  split at h
  · cases h
  · unfold Json.optional? at h
    split at h
    · cases h
    · obtain ⟨t', ht, heq⟩ := Option.map_eq_some_iff.1 h
      obtain rfl := Option.some.inj heq
      obtain ⟨text, -, hread⟩ := Option.bind_eq_some_iff.1 ht
      exact Timestamp.isPoint_of_read? hread

theorem inRange_of_ofJson? {v : Json} {r : Report} (h : ofJson? v = some r) : r.InRange := by
  unfold ofJson? at h
  iterate 2 obtain ⟨_, -, h⟩ := Option.bind_eq_some_iff.1 h
  obtain ⟨generatedAt, hat, h⟩ := Option.bind_eq_some_iff.1 h
  obtain ⟨modules, hmodules, h⟩ := Option.bind_eq_some_iff.1 h
  iterate 3 obtain ⟨_, -, h⟩ := Option.bind_eq_some_iff.1 h
  obtain ⟨totalModules, htotalModules, h⟩ := Option.bind_eq_some_iff.1 h
  obtain ⟨totalDependencies, htotalDependencies, h⟩ := Option.bind_eq_some_iff.1 h
  obtain ⟨totalCycles, htotalCycles, h⟩ := Option.bind_eq_some_iff.1 h
  obtain ⟨_, -, h⟩ := Option.bind_eq_some_iff.1 h
  obtain ⟨impact, himpact, h⟩ := Option.bind_eq_some_iff.1 h
  iterate 3 obtain ⟨_, -, h⟩ := Option.bind_eq_some_iff.1 h
  cases h
  obtain ⟨_, hmodules⟩ := Json.exists_of_field? hmodules
  obtain ⟨_, himpact⟩ := Json.exists_of_field? himpact
  have hpoint := isPoint_of_optionalField? hat
  exact {
    generatedAt := fun t ht => (hpoint t ht).toInBounds
    isInPlace := fun t ht => (hpoint t ht).isInPlace
    totalModules := Json.field?_count?_lt htotalModules
    totalDependencies := Json.field?_count?_lt htotalDependencies
    totalCycles := Json.field?_count?_lt htotalCycles
    complexityScore := fun id m hid => by
      obtain ⟨_, hread⟩ := Json.exists_of_map? hmodules hid
      exact ModuleReport.complexityScore_lt hread
    reach := (Impact.counts_lt himpact).2
    high := (Impact.counts_lt himpact).1 }

/-- **Only what is in range is read** from a text of any kind: within the bounds,
and with its time in place. -/
theorem inRange_of_read? {text : String} {r : Report} (h : read? text = some r) : r.InRange := by
  obtain ⟨_, -, hread⟩ := Option.bind_eq_some_iff.1 h
  exact inRange_of_ofJson? hread

end Report

end StackGraph
