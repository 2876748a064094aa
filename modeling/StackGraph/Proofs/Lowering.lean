import StackGraph.Proofs.Extraction
import StackGraph.Proofs.Hcl.Rendering
/-!
# What a document shows of its text

References are looked for in the texts of a document, so an expression counts
only if its text is one of them or part of one. Lists, blocks and parentheses
keep all that stands in them. Objects do not: an object becomes a map whose keys
are texts, and of several entries whose keys have one text only the last is
left. A bare name, a quoted text and an expression are different keys but may
have the same text, as `(var.zone)` and `"(var.zone)"` have.

So an expression is shown wherever it stands, unless it stands in the value of
such an entry (`Hcl.Expr.Kept`); and the entries that are left of an object are
exactly those behind which the text of the key is not repeated
(`Hcl.texts_show_kept`). Keys are shown in any case, since a lost entry shares
the text of its key with one that is left.
-/

namespace StackGraph

open Std Text

/-! ## The texts of values and documents -/

theorem Value.textsOfList_eq_flatMap {items : List Value} :
    textsOfList items = items.flatMap texts := by
  induction items with
  | nil => rfl
  | cons v items ih => rw [textsOfList, ih, List.flatMap_cons]

theorem Value.textsOfEntries_eq_flatMap {entries : List (String × Value)} :
    textsOfEntries entries = entries.flatMap fun p => p.1 :: p.2.texts := by
  induction entries with
  | nil => rfl
  | cons p entries ih => rw [textsOfEntries, ih, List.flatMap_cons]

theorem Document.textsOfBlocks_eq_flatMap {blocks : List Block} :
    textsOfBlocks blocks = blocks.flatMap (·.body.texts) := by
  induction blocks with
  | nil => rfl
  | cons b blocks ih => rw [textsOfBlocks, ih, List.flatMap_cons]

/-- The texts of a document are those of its attributes and those in its
blocks. -/
theorem Document.mem_texts {text : String} {d : Document} :
    text ∈ d.texts
      ↔ (∃ (name : String) (v : Value), d.attributes[name]? = some v ∧ text ∈ v.texts)
        ∨ ∃ b ∈ d.blocks, text ∈ b.body.texts := by
  obtain ⟨attributes, blocks⟩ := d
  rw [texts, List.mem_append, textsOfBlocks_eq_flatMap, List.mem_flatMap, List.mem_flatMap]
  simp only [Prod.exists, ExtTreeMap.mem_toList_iff_getElem?_eq_some]

namespace Hcl

variable {e outer : Expr} {entries : List Entry}

/-! ## Code -/

/-- **Code**: whatever is not a literal, a list or an object, also between
parentheses. -/
def Expr.isCode : Expr → Bool
  | .null | .bool _ | .number _ | .string _ | .list _ | .object _ => false
  | .parens inner => inner.isCode
  | _ => true
termination_by structural e => e

/-- Code becomes a text, one that it is written as. -/
theorem Expr.exists_lower_of_isCode (h : e.isCode = true) :
    ∃ text, e.lower = .expression text ∧ e.Renders text := by
  induction e using Expr.isCode.induct with
  | case7 inner ih =>
    rw [isCode] at h
    obtain ⟨text, htext, hrenders⟩ := ih h
    refine ⟨_, ?_, .parens hrenders⟩
    rw [lower, htext]
  | case8 e _ _ _ _ _ _ hparens =>
    cases e with
    | template frame text => exact ⟨text, rfl, .bare frame text⟩
    | parens inner => exact absurd rfl (hparens inner)
    | null | bool _ | number _ | string _ | list _ | object _ => cases h
    | _ => exact ⟨_, rfl, .whole _ 0⟩
  | _ => cases h

/-- **Where an expression becomes a text, all code in it is shown**: only
parentheses are around the code then, and they become part of the text. -/
theorem Expr.Stands.shownIn_text? (h : e.Stands outer) (hcode : e.isCode = true) {text : String}
    (htext : outer.lower.text? = some text) : e.ShownIn text := by
  induction h generalizing text with
  | self =>
    obtain ⟨written, hlower, hrenders⟩ := exists_lower_of_isCode hcode
    rw [hlower] at htext
    cases htext
    exact ⟨text, hrenders, .refl _⟩
  | @parens inner _ ih =>
    rw [lower] at htext
    split at htext
    · rename_i text' hinner
      cases htext
      exact (ih (by rw [hinner]; rfl)).within (within_between _ _ _)
    · exact ih htext
  | item | key | value => cases htext

/-- The text of a key shows all code in the key. -/
theorem Expr.Stands.shownIn_keyText (h : e.Stands outer) (hcode : e.isCode = true) :
    e.ShownIn (keyText outer outer.lower) := by
  unfold keyText
  cases htext : outer.lower.text? with
  | some text => exact h.shownIn_text? hcode htext
  | none => exact h.shownIn_textIn 0

/-! ## Objects -/

theorem lowerItems_eq_map {items : List Expr} : lowerItems items = items.map Expr.lower := by
  induction items with
  | nil => rfl
  | cons item items ih => rw [lowerItems, ih, List.map_cons]

theorem lowerEntries_eq_map : lowerEntries entries = entries.map Entry.lower := by
  induction entries with
  | nil => rfl
  | cons entry entries ih => rw [lowerEntries, ih, List.map_cons]

/-- **The last entry with the text of its key.** -/
def Entry.IsLastIn (entry : Entry) (entries : List Entry) : Prop :=
  ∃ before after, entries = before ++ entry :: after
    ∧ ∀ later ∈ after, later.lower.1 ≠ entry.lower.1

/-- Among the entries with one text of a key there is a last one. -/
theorem Entry.exists_isLastIn {entry : Entry} (h : entry ∈ entries) :
    ∃ last : Entry, last.IsLastIn entries ∧ last.lower.1 = entry.lower.1 := by
  induction entries generalizing entry with
  | nil => exact absurd h List.not_mem_nil
  | cons first entries ih =>
    by_cases hagain : ∃ later ∈ entries, later.lower.1 = entry.lower.1
    · obtain ⟨later, hlater, hkey⟩ := hagain
      obtain ⟨last, ⟨before, after, rfl, hafter⟩, hlast⟩ := ih hlater
      exact ⟨last, ⟨first :: before, after, rfl, hafter⟩, hlast.trans hkey⟩
    · obtain rfl : entry = first :=
        (List.mem_cons.1 h).resolve_right fun hmem => hagain ⟨entry, hmem, rfl⟩
      exact ⟨entry, ⟨[], entries, rfl, fun later hlater hkey => hagain ⟨later, hlater, hkey⟩⟩, rfl⟩

/-- **What is left of an object**: for each text of a key the last entry. -/
theorem Expr.exists_lower_object (entries : List Entry) :
    ∃ kept, (object entries).lower = .map kept
      ∧ ∀ key v, (key, v) ∈ kept
        ↔ ∃ entry : Entry, entry.IsLastIn entries ∧ entry.lower = (key, v) := by
  refine ⟨_, rfl, fun key v => ?_⟩
  rw [ExtTreeMap.mem_toList_iff_getElem?_eq_some, getElem?_mapOfList_eq_some_iff,
    lowerEntries_eq_map]
  constructor
  · rintro ⟨before, after, hmap, hafter⟩
    obtain ⟨before, rest, rfl, -, hrest⟩ := List.map_eq_append_iff.1 hmap
    obtain ⟨entry, after, rfl, hentry, rfl⟩ := List.map_eq_cons_iff.1 hrest
    refine ⟨entry, ⟨before, after, rfl, fun later hlater => ?_⟩, hentry⟩
    rw [hentry]
    exact hafter _ (List.mem_map_of_mem hlater)
  · rintro ⟨entry, ⟨before, after, rfl, hafter⟩, hentry⟩
    refine ⟨before.map Entry.lower, after.map Entry.lower, ?_, ?_⟩
    · rw [List.map_append, List.map_cons, hentry]
    · rw [List.forall_mem_map]
      rw [hentry] at hafter
      exact hafter

/-! ## Documents -/

/-- **An expression that is kept** stands in another one, and in no value of an
entry behind which the text of its key is repeated. -/
inductive Expr.Kept (e : Expr) : Expr → Prop
  | self : Kept e e
  | parens {inner : Expr} (h : Kept e inner) : Kept e (.parens inner)
  | item {items : List Expr} {item : Expr} (hitem : item ∈ items) (h : Kept e item) :
    Kept e (.list items)
  /-- No key is lost, and a key becomes a text as a whole. -/
  | key {entries : List Entry} {key value : Expr} (hentry : .keyed key value ∈ entries)
    (h : e.Stands key) : Kept e (.object entries)
  | value {entries : List Entry} {entry : Entry} (hlast : entry.IsLastIn entries)
    (h : Kept e entry.value) : Kept e (.object entries)

/-- **Where no text of a key is repeated, all that stands is kept.** -/
theorem Expr.Stands.kept (h : e.Stands outer)
    (hkeys : ∀ entries, (object entries).Stands outer → ∀ entry ∈ entries, entry.IsLastIn entries) :
    e.Kept outer := by
  induction h with
  | self => exact .self
  | parens _ ih => exact .parens (ih fun entries h => hkeys entries (.parens h))
  | item hitem _ ih => exact .item hitem (ih fun entries h => hkeys entries (.item hitem h))
  | key hentry h => exact .key hentry h
  | value hentry _ ih =>
    exact .value (hkeys _ .self _ hentry) (ih fun entries h => hkeys entries (.value hentry h))

theorem Entry.lower_snd (entry : Entry) : entry.lower.2 = entry.value.lower := by
  cases entry <;> rfl

/-- **The texts of a value show the code that is kept.** -/
theorem Expr.Kept.exists_shownIn (h : e.Kept outer) (hcode : e.isCode = true) :
    ∃ t ∈ outer.lower.texts, e.ShownIn t := by
  induction h with
  | self =>
    obtain ⟨text, hlower, hrenders⟩ := exists_lower_of_isCode hcode
    rw [hlower]
    exact ⟨text, List.mem_singleton_self text, text, hrenders, .refl _⟩
  | parens _ ih =>
    obtain ⟨t, ht, hshown⟩ := ih
    rw [lower]
    split
    · rename_i text hinner
      rw [hinner] at ht
      obtain rfl := List.mem_singleton.1 ht
      exact ⟨_, List.mem_singleton_self _, hshown.within (within_between _ _ _)⟩
    · exact ⟨t, ht, hshown⟩
  | @item items item hitem _ ih =>
    obtain ⟨t, ht, hshown⟩ := ih
    refine ⟨t, ?_, hshown⟩
    rw [lower, Value.texts, Value.textsOfList_eq_flatMap, lowerItems_eq_map, List.mem_flatMap]
    exact ⟨item.lower, List.mem_map_of_mem hitem, ht⟩
  | @key entries key value hentry h =>
    obtain ⟨kept, hkept, hmem⟩ := exists_lower_object entries
    -- another entry may be left in place of this one, with the same text as its key
    obtain ⟨last, hlast, hkey⟩ := Entry.exists_isLastIn hentry
    refine ⟨keyText key key.lower, ?_, h.shownIn_keyText hcode⟩
    rw [hkept, Value.texts, Value.textsOfEntries_eq_flatMap, List.mem_flatMap]
    refine ⟨last.lower, (hmem _ _).2 ⟨last, hlast, rfl⟩, ?_⟩
    rw [hkey]
    exact List.mem_cons_self
  | @value entries entry hlast _ ih =>
    obtain ⟨t, ht, hshown⟩ := ih
    obtain ⟨kept, hkept, hmem⟩ := exists_lower_object entries
    refine ⟨t, ?_, hshown⟩
    rw [hkept, Value.texts, Value.textsOfEntries_eq_flatMap, List.mem_flatMap]
    refine ⟨entry.lower, (hmem _ _).2 ⟨entry, hlast, rfl⟩, List.mem_cons_of_mem _ ?_⟩
    rwa [Entry.lower_snd]

/-- **A body holds a value of some kind**, as that of an attribute of its own or
of a block in it. -/
inductive Body.Holds (P : Expr → Prop) : Body → Prop
  | own {items : Body} {name : String} {value : Expr} (hmem : .attribute name value ∈ items)
    (h : P value) : Holds P items
  | inner {items inner : Body} {identifier : String} {labels : List String}
    (hmem : .block (.mk identifier labels inner) ∈ items) (h : Holds P inner) : Holds P items

/-- **The texts of a document show the code that is kept**, by induction on the
blocks around it. -/
theorem Body.Holds.exists_shownIn {body : Body} (h : Body.Holds e.Kept body)
    (hdistinct : Body.Distinct body) (hcode : e.isCode = true) :
    ∃ t ∈ body.lower.texts, e.ShownIn t := by
  induction h with
  | own hmem h =>
    obtain ⟨t, ht, hshown⟩ := h.exists_shownIn hcode
    have hget := getElem?_lowerAttributes hdistinct hmem
    exact ⟨t, Document.mem_texts.2 (.inl ⟨_, _, hget, ht⟩), hshown⟩
  | inner hmem _ ih =>
    obtain ⟨t, ht, hshown⟩ := ih (hdistinct.body hmem)
    have hblock := mem_lowerBlocks.2 ⟨_, hmem, rfl⟩
    exact ⟨t, Document.mem_texts.2 (.inr ⟨_, hblock, ht⟩), hshown⟩

/-- **What a document shows.** Its texts show all code that is kept in the body;
and an object keeps, for each text of a key, its last entry. -/
theorem texts_show_kept (body : Body) (hdistinct : Body.Distinct body) :
    (∀ e : Expr, e.isCode = true → Body.Holds e.Kept body → ∃ t ∈ body.lower.texts, e.ShownIn t)
      ∧ ∀ entries, ∃ kept, (Expr.object entries).lower = .map kept
        ∧ ∀ key v, (key, v) ∈ kept
          ↔ ∃ entry : Entry, entry.IsLastIn entries ∧ entry.lower = (key, v) :=
  ⟨fun _ hcode h => h.exists_shownIn hdistinct hcode, Expr.exists_lower_object⟩

/-! ## Two keys with one text -/

/-- The identifier that a nested module has as an output. -/
def idOf (name : String) : Expr := .attribute (.attribute (.variable "module") name) "id"

/-- An object with a key in parentheses and a quoted one of the same text. -/
def zonesText : String :=
  "locals \x7b\n  ids = \x7b\n" ++
    "    (var.zone)   = module.net.id\n    \"(var.zone)\" = module.vpc.id\n" ++ "  \x7d\n\x7d\n"

/-- The entries of the object. -/
def zones : List Entry :=
  [.keyed (.parens (.attribute (.variable "var") "zone")) (idOf "net"),
    .keyed (.string "(var.zone)") (idOf "vpc")]

/-- What the text with the object says. -/
def zonesBody : Body := [.block (.mk "locals" [] [.attribute "ids" (.object zones)])]

/-- Whether a body is that with the object. -/
def isZonesBody : Body → Bool
  | [.block (.mk "locals" [] [.attribute "ids" (.object
      [.keyed (.parens (.attribute (.variable "var") "zone"))
        (.attribute (.attribute (.variable "module") "net") "id"),
      .keyed (.string "(var.zone)")
        (.attribute (.attribute (.variable "module") "vpc") "id")])])] => true
  | _ => false

theorem eq_zonesBody_of_isZonesBody {body : Body} (h : isZonesBody body) : body = zonesBody := by
  unfold isZonesBody at h
  split at h
  · rfl
  · cases h

theorem read?_zonesText : Body.read? zonesText = some zonesBody := by
  have hread : (Body.read? zonesText).any isZonesBody := by decide +kernel
  obtain ⟨body, hbody, hzones⟩ := (Option.any_eq_true _ _).1 hread
  rw [hbody, eq_zonesBody_of_isZonesBody hzones]

/-- Of the two entries with one text of a key the second is shown. -/
theorem texts_show_kept_zones :
    Body.Distinct zonesBody ∧ ∃ t ∈ zonesBody.lower.texts, (idOf "vpc").ShownIn t := by
  have hdistinct := Body.distinct_of_read? read?_zonesText
  obtain ⟨hshown, -⟩ := texts_show_kept zonesBody hdistinct
  have hlast : (Entry.keyed (.string "(var.zone)") (idOf "vpc")).IsLastIn zones :=
    ⟨zones.take 1, [], rfl, by simp⟩
  refine ⟨hdistinct, hshown (idOf "vpc") rfl (.inner List.mem_cons_self ?_)⟩
  exact .own List.mem_cons_self (.value hlast .self)

/-- The first is shown nowhere, though the keys differ. -/
theorem not_shownIn_zones :
    Body.read? zonesText = some zonesBody ∧ zones.Pairwise (fun a b => a.sameKey b = false)
      ∧ (idOf "net").isCode = true ∧ Body.Holds (idOf "net").Stands zonesBody
      ∧ ∀ t ∈ zonesBody.lower.texts, ¬ (idOf "net").ShownIn t := by
  refine ⟨read?_zonesText, by simp [zones, Entry.sameKey, Expr.same], rfl, ?_, ?_⟩
  · exact .inner List.mem_cons_self (.own List.mem_cons_self (.value List.mem_cons_self .self))
  · have htexts : zonesBody.lower.texts = ["(var.zone)", "module.vpc.id"] := by decide +kernel
    rw [htexts]
    rintro t ht ⟨text, hrenders, hwithin⟩
    obtain rfl : text = "module.net.id" := by
      cases hrenders
      rfl
    have hnone : ∀ t ∈ ["(var.zone)", "module.vpc.id"], ¬ Text.Within "module.net.id" t := by
      decide +kernel
    exact hnone t ht hwithin

end Hcl

end StackGraph
