import Mathlib.Data.List.DropRight
import Mathlib.Data.List.Forall2
import StackGraph.Json.Reader
import StackGraph.Proofs.Digits
/-!
# JSON read back

Both layouts of a JSON value are read back as that value. They differ in the
blanks between the parts alone, so what is proved for an array or an object
is proved once, with any blanks around its parts.

What may follow a value matters only behind a number: no further digit.
-/

namespace StackGraph

/-- Every character is the one with its code. -/
theorem Text.charOf?_toNat (c : Char) : Text.charOf? c.toNat = some c := dif_pos c.valid

namespace Json

/-! ### Texts and numbers -/

section Scalars

variable {c : Char} {rest s : List Char}

/-- The code of a control character has four places. -/
theorem hexValue?_hex : ∀ n < 32, ∃ a b c d,
    Text.hex 4 n = [a, b, c, d] ∧ Text.hexValue? [a, b, c, d] = some n := by
  have hread : ∀ n < 32,
      (Text.hex 4 n).length = 4 ∧ Text.hexValue? (Text.hex 4 n) = some n := by
    decide
  intro n hn
  obtain ⟨hlen, hvalue⟩ := hread n hn
  match hhex : Text.hex 4 n, hlen with
  | [a, b, c, d], _ => exact ⟨a, b, c, d, rfl, hhex ▸ hvalue⟩

/-- A character that needs no escape stands for itself. -/
theorem quoted?_cons (hquote : c ≠ '"') (hslash : c ≠ '\\') (hcontrol : ¬ c.toNat < 32) :
    quoted? (c :: rest) = (quoted? rest).map fun (text, s) => (c :: text, s) := by
  rw [quoted?, if_neg hcontrol]
  · exact hquote
  · exact fun _ _ _ _ _ h => absurd h hslash
  · exact fun _ _ h => absurd h hslash

/-- **A character is read back from its escape.** -/
theorem quoted?_escapeChar : quoted? (escapeChar c ++ rest)
    = (quoted? rest).map fun (text, s) => (c :: text, s) := by
  rw [escapeChar.eq_def]
  split
  case h_8 hquote hslash _ _ _ _ _ =>
    split
    case isTrue hcontrol =>
      obtain ⟨a, b, c', d, hhex, hvalue⟩ := hexValue?_hex c.toNat hcontrol
      rw [hhex]
      simp only [List.cons_append, List.nil_append, quoted?, hvalue, Option.bind_eq_bind,
        Option.bind_some, Text.charOf?_toNat]
    case isFalse hcontrol => exact quoted?_cons hquote hslash hcontrol
  all_goals rfl

/-- A text is read back up to the quotation mark at its end. -/
theorem quoted?_flatMap : quoted? (s.flatMap escapeChar ++ '"' :: rest) = some (s, rest) := by
  induction s with
  | nil => rfl
  | cons c s ih =>
    rw [List.flatMap_cons, List.append_assoc, quoted?_escapeChar, ih, Option.map_some]

theorem toList_quote {text : String} :
    (quote text).toList = '"' :: (text.toList.flatMap escapeChar ++ ['"']) := by
  simp only [quote, Text.escape, String.toList_append, String.toList_ofList, String.reduceToList,
    List.cons_append, List.nil_append]

/-- A number is read back if no further digit follows. -/
theorem number?_toDigits {n : Nat} (hrest : EndsDigits rest) :
    number? (Nat.toDigits 10 n ++ rest) = some (n, rest) := by
  have hdigits : ∀ c ∈ Nat.toDigits 10 n, c.isDigit := fun _ => Text.isDigit_of_mem_toDigits
  rw [number?, Text.takeWhile_digits hdigits hrest, Text.dropWhile_digits hdigits hrest,
    Text.natValue?_toDigits, if_neg, Option.map_some]
  rintro ⟨hlen, hhead⟩
  by_cases hn : n = 0
  · subst hn
    exact hlen rfl
  · exact Text.head?_toDigits_ne hn hhead

end Scalars

/-! ### Parts between brackets -/

/-- No text of a value has this character at its start: a blank is left out
before it, and a closing bracket ends what it stands in. -/
def opens (c : Char) : Bool := !isSpace c && c != ']' && c != '\x7d'

section Parts

variable {α : Type} {element? : List Char → Option (α × List Char)} {blanks rest s : List Char}

/-- **What a reader reads.** The text is read as the value, whatever follows it
unless it is a digit. -/
structure Reads (element? : List Char → Option (α × List Char)) (text : List Char) (x : α) :
    Prop where
  starts : ∃ c ds, text = c :: ds ∧ opens c = true
  reads : ∀ rest, EndsDigits rest → element? (text ++ rest) = some (x, rest)

/-- The reader leaves blanks at the start of its text out. -/
def Skips (element? : List Char → Option (α × List Char)) : Prop :=
  ∀ s, element? (skipSpace s) = element? s

theorem skipSpace_append (h : ∀ c ∈ blanks, isSpace c) : skipSpace (blanks ++ s) = skipSpace s :=
  List.dropWhile_append_of_pos h

theorem skipSpace_cons {c : Char} (h : isSpace c = false) : skipSpace (c :: s) = c :: s :=
  List.dropWhile_cons_of_neg (ne_true_of_eq_false h)

theorem Skips.append (hskips : Skips element?) (h : ∀ c ∈ blanks, isSpace c) :
    element? (blanks ++ s) = element? s := by
  rw [← hskips, skipSpace_append h, hskips]

theorem not_isSpace_of_opens {c : Char} (h : opens c = true) : isSpace c = false := by
  simp only [opens, Bool.and_eq_true, Bool.not_eq_true'] at h
  exact h.1.1

theorem not_isDigit_of_isSpace {c : Char} (h : isSpace c) : c.isDigit = false := by
  simp only [isSpace, Bool.or_eq_true, beq_iff_eq] at h
  rcases h with ((rfl | rfl) | rfl) | rfl <;> rfl

theorem endsDigits_blanks (h : ∀ c ∈ blanks, isSpace c) (hrest : EndsDigits rest) :
    EndsDigits (blanks ++ rest) := by
  cases blanks with
  | nil => exact hrest
  | cons c blanks => exact endsDigits_cons (not_isDigit_of_isSpace (h c List.mem_cons_self))

/-- A bracket that ends an array or an object. -/
structure Closes (c : Char) : Prop where
  not_opens : opens c = false
  not_isSpace : isSpace c = false
  not_isDigit : c.isDigit = false
  ne_comma : c ≠ ','

variable {closing : Char} {inner outer : List Char} {texts : List (List Char)} {xs : List α}

section Elements

variable {s' : List Char} {x : α} {most : Nat}

theorem elements?_append (hskips : Skips element?) (h : ∀ c ∈ blanks, isSpace c) :
    elements? element? closing most (blanks ++ s) = elements? element? closing most s := by
  cases most with
  | zero => rfl
  | succ most => rw [elements?, elements?, hskips.append h]

/-- An element before the closing bracket is the last one. -/
theorem elements?_last (h : element? s = some (x, s')) (hs : skipSpace s' = closing :: rest) :
    elements? element? closing (most + 1) s = some ([x], rest) := by
  simp only [elements?, h, Option.bind_eq_bind, Option.bind_some, hs, if_true]

/-- Behind a comma there are further elements. -/
theorem elements?_cons (hclosing : Closes closing) (h : element? s = some (x, s'))
    (hs : skipSpace s' = ',' :: rest) :
    elements? element? closing (most + 1) s
      = (elements? element? closing most rest).map fun (xs, s) => (x :: xs, s) := by
  simp only [elements?, h, Option.bind_eq_bind, Option.bind_some, hs, hclosing.ne_comma.symm,
    if_true, if_false]

end Elements

/-- **At least one element is read, and the further ones behind commas.** -/
theorem elements?_intercalate (hskips : Skips element?) (hclosing : Closes closing)
    (hinner : ∀ c ∈ inner, isSpace c) (houter : ∀ c ∈ outer, isSpace c)
    (h : List.Forall₂ (Reads element?) texts xs) (hne : texts ≠ []) {most : Nat}
    (hmost : ((',' :: inner).intercalate texts ++ (outer ++ closing :: rest)).length ≤ most) :
    elements? element? closing most
      ((',' :: inner).intercalate texts ++ (outer ++ closing :: rest)) = some (xs, rest) := by
  induction h generalizing most with
  | nil => exact absurd rfl hne
  | @cons text x texts xs hx hxs ih =>
    obtain ⟨most, rfl⟩ : ∃ n, most = n + 1 := by
      refine Nat.exists_eq_add_one_of_ne_zero ?_
      rintro rfl
      simp at hmost
    cases hxs with
    | nil =>
      rw [List.intercalate_singleton]
      refine elements?_last (hx.reads _ (endsDigits_blanks houter
        (endsDigits_cons hclosing.not_isDigit))) ?_
      rw [skipSpace_append houter, skipSpace_cons hclosing.not_isSpace]
    | @cons text' x' texts xs hx' hxs =>
      rw [List.intercalate_cons_cons, List.append_assoc, List.append_assoc, List.cons_append]
        at hmost ⊢
      have hshorter : ((',' :: inner).intercalate (text' :: texts) ++
          (outer ++ closing :: rest)).length ≤ most := by
        rw [List.length_append, List.length_cons, List.length_append] at hmost
        omega
      rw [elements?_cons hclosing (hx.reads _ (endsDigits_cons (c := ',') rfl))
        (skipSpace_cons rfl), elements?_append hskips hinner, ih (List.cons_ne_nil _ _) hshorter,
        Option.map_some]

/-- The text behind the opening bracket of an array or object: the parts with
commas between them and the given blanks before each of them and before the
closing bracket. -/
def enclosed (closing : Char) (inner outer : List Char) (texts : List (List Char)) : List Char :=
  if texts.isEmpty then [closing]
  else inner ++ ((',' :: inner).intercalate texts ++ (outer ++ [closing]))

/-- **The parts between two brackets are read back, whatever blanks stand around
them.** -/
theorem enclosed?_enclosed (hskips : Skips element?) (hclosing : Closes closing)
    (hinner : ∀ c ∈ inner, isSpace c) (houter : ∀ c ∈ outer, isSpace c)
    (h : List.Forall₂ (Reads element?) texts xs) :
    enclosed? element? closing (enclosed closing inner outer texts ++ rest) = some (xs, rest) := by
  cases h with
  | nil =>
    rw [enclosed?, show enclosed closing inner outer [] ++ rest = closing :: rest from rfl,
      skipSpace_cons hclosing.not_isSpace]
    exact if_pos rfl
  | @cons text x texts xs hx hxs =>
    -- Behind the blanks the first part begins, not the closing bracket.
    obtain ⟨c, ds, rfl, hopens⟩ := hx.starts
    obtain ⟨ds', hbegin⟩ : ∃ ds', (',' :: inner).intercalate ((c :: ds) :: texts) ++
        (outer ++ closing :: rest) = c :: ds' := by
      cases texts with
      | nil => exact ⟨_, rfl⟩
      | cons text' texts => exact ⟨_, by rw [List.intercalate_cons_cons]; rfl⟩
    have hne : c ≠ closing := by
      rintro rfl
      exact ne_true_of_eq_false hclosing.not_opens hopens
    rw [enclosed?, enclosed, if_neg (by simp), List.append_assoc, List.append_assoc,
      List.append_assoc, List.singleton_append, skipSpace_append hinner, hbegin,
      skipSpace_cons (not_isSpace_of_opens hopens)]
    dsimp only
    rw [if_neg hne, ← hbegin]
    exact elements?_intercalate hskips hclosing hinner houter (.cons hx hxs) (List.cons_ne_nil _ _)
      (Nat.le_refl _)

end Parts

/-! ### Values -/

/-- Arrays and objects stand inside each other to at most the given depth. -/
def Within : Nat → Json → Prop
  | 0, array _ => False
  | 0, object _ => False
  | depth + 1, array items => ∀ v ∈ items, Within depth v
  | depth + 1, object members => ∀ m ∈ members, Within depth m.2
  | _, _ => True

section Within

variable {depth : Nat}

@[simp] theorem within_null : Within depth null := by cases depth <;> trivial

@[simp] theorem within_bool {value : Bool} : Within depth (bool value) := by
  cases depth <;> trivial

@[simp] theorem within_nat {n : Nat} : Within depth (nat n) := by cases depth <;> trivial

@[simp] theorem within_string {text : String} : Within depth (string text) := by
  cases depth <;> trivial

@[simp] theorem within_array {items : List Json} :
    Within (depth + 1) (array items) ↔ ∀ v ∈ items, Within depth v := Iff.rfl

@[simp] theorem within_object {members : List (String × Json)} :
    Within (depth + 1) (object members) ↔ ∀ m ∈ members, Within depth m.2 := Iff.rfl

theorem within_array_map {α : Type} {f : α → Json} {xs : List α} (h : ∀ x, Within depth (f x)) :
    Within (depth + 1) (array (xs.map f)) :=
  List.forall_mem_map.2 fun x _ => h x

theorem within_object_map {α : Type} {f : α → Json} {entries : List (String × α)}
    (h : ∀ x, Within depth (f x)) :
    Within (depth + 1) (object (entries.map fun (name, x) => (name, f x))) :=
  List.forall_mem_map.2 fun e _ => h e.2

@[simp] theorem within_strings {texts : List String} : Within (depth + 1) (strings texts) :=
  within_array_map fun _ => within_string

end Within

section Values

variable {depth : Nat} {inner outer rest : List Char} {texts : List (List Char)}

theorem value?_skips : Skips (value? depth) := by
  intro s
  have hidem : skipSpace (skipSpace s) = skipSpace s := List.dropWhile_idempotent ..
  cases depth <;> simp only [value?, hidem]

theorem member?_skips : Skips (member? (value? depth)) := by
  intro s
  have hidem : skipSpace (skipSpace s) = skipSpace s := List.dropWhile_idempotent ..
  simp only [member?, hidem]

theorem closes_array : Closes ']' := ⟨rfl, rfl, rfl, by decide⟩

theorem closes_object : Closes '\x7d' := ⟨rfl, rfl, rfl, by decide⟩

/-- A value that holds no others is read at any depth. -/
theorem reads_of_scalar {c : Char} {ds : List Char} {v : Json} (hopens : opens c = true)
    (harray : c ≠ '[') (hobject : c ≠ '\x7b')
    (h : ∀ rest, EndsDigits rest → scalar? (c :: ds ++ rest) = some (v, rest)) :
    Reads (value? depth) (c :: ds) v where
  starts := ⟨c, ds, rfl, hopens⟩
  reads rest hrest := by
    have hread := h rest hrest
    rw [List.cons_append] at hread ⊢
    cases depth with
    | zero => rw [value?, skipSpace_cons (not_isSpace_of_opens hopens), hread]
    | succ depth =>
      rw [value?, skipSpace_cons (not_isSpace_of_opens hopens)]
      split
      case h_1 heq => exact absurd (List.cons.inj heq).1 harray
      case h_2 heq => exact absurd (List.cons.inj heq).1 hobject
      case h_3 => exact hread

theorem reads_null : Reads (value? depth) "null".toList null :=
  reads_of_scalar rfl (by decide) (by decide) fun _ _ => rfl

theorem reads_bool {value : Bool} :
    Reads (value? depth) (if value then "true" else "false").toList (bool value) := by
  cases value with
  | false => exact reads_of_scalar rfl (by decide) (by decide) fun _ _ => rfl
  | true => exact reads_of_scalar rfl (by decide) (by decide) fun _ _ => rfl

theorem reads_string {text : String} : Reads (value? depth) (quote text).toList (string text) := by
  rw [toList_quote]
  refine reads_of_scalar rfl (by decide) (by decide) fun rest _ => ?_
  rw [List.cons_append, List.append_assoc, List.singleton_append, scalar?, quoted?_flatMap,
    Option.map_some]
  exact congrArg (fun s => some (string s, rest)) String.ofList_toList

/-- A character that is no digit is another one than a digit. -/
theorem ne_of_isDigit {c d : Char} (hc : c.isDigit) (hd : d.isDigit = false) : c ≠ d := by
  rintro rfl
  exact ne_true_of_eq_false hd hc

theorem opens_of_isDigit {c : Char} (h : c.isDigit) : opens c = true := by
  have hspace : isSpace c = false := by
    cases hs : isSpace c with
    | false => rfl
    | true => exact absurd h (ne_true_of_eq_false (not_isDigit_of_isSpace hs))
  rw [opens, hspace, bne_iff_ne.2 (ne_of_isDigit h rfl), bne_iff_ne.2 (ne_of_isDigit h rfl)]
  rfl

theorem reads_nat {n : Nat} : Reads (value? depth) (toString n).toList (nat n) := by
  rw [show (toString n).toList = Nat.toDigits 10 n from Nat.toList_repr]
  obtain ⟨c, ds, hcons⟩ := List.exists_cons_of_ne_nil (Nat.toDigits_ne_nil (b := 10) (n := n))
  have hdigit : c.isDigit := Text.isDigit_of_mem_toDigits (hcons ▸ List.mem_cons_self)
  rw [hcons]
  refine reads_of_scalar (opens_of_isDigit hdigit) (ne_of_isDigit hdigit rfl)
    (ne_of_isDigit hdigit rfl) fun rest hrest => ?_
  rw [List.cons_append, scalar?]
  · rw [← List.cons_append, ← hcons, number?_toDigits hrest, Option.map_some]
  all_goals exact fun _ h => ne_of_isDigit hdigit rfl (List.cons.inj h).1

theorem value?_array : value? (depth + 1) ('[' :: rest)
    = (enclosed? (value? depth) ']' rest).map fun (items, s) => (array items, s) := rfl

theorem value?_object : value? (depth + 1) ('\x7b' :: rest)
    = (enclosed? (member? (value? depth)) '\x7d' rest).map fun (members, s) =>
        (object members, s) := rfl

/-- Behind its name and a colon the value of a member stands. -/
theorem member?_quote {s key : List Char} (h : quoted? s = some (key, ':' :: rest)) :
    member? (value? depth) ('"' :: s)
      = (value? depth rest).map fun (v, s) => ((String.ofList key, v), s) := by
  show (quoted? s).bind _ = _
  rw [h]
  rfl

/-- **An array is read back, whatever blanks stand around its items.** -/
theorem reads_array {items : List Json} (hinner : ∀ c ∈ inner, isSpace c)
    (houter : ∀ c ∈ outer, isSpace c) (h : List.Forall₂ (Reads (value? depth)) texts items) :
    Reads (value? (depth + 1)) ('[' :: enclosed ']' inner outer texts) (array items) where
  starts := ⟨'[', _, rfl, rfl⟩
  reads rest _ := by
    rw [List.cons_append, value?_array,
      enclosed?_enclosed value?_skips closes_array hinner houter h, Option.map_some]

/-- An object is read back in the same way. -/
theorem reads_object {members : List (String × Json)} (hinner : ∀ c ∈ inner, isSpace c)
    (houter : ∀ c ∈ outer, isSpace c)
    (h : List.Forall₂ (Reads (member? (value? depth))) texts members) :
    Reads (value? (depth + 1)) ('\x7b' :: enclosed '\x7d' inner outer texts) (object members) where
  starts := ⟨'\x7b', _, rfl, rfl⟩
  reads rest _ := by
    rw [List.cons_append, value?_object,
      enclosed?_enclosed member?_skips closes_object hinner houter h, Option.map_some]

/-- A member is read back, whatever blanks stand behind its colon. -/
theorem reads_member {key : String} {blanks text : List Char} {v : Json}
    (hblanks : ∀ c ∈ blanks, isSpace c) (h : Reads (value? depth) text v) :
    Reads (member? (value? depth)) ((quote key).toList ++ ':' :: (blanks ++ text)) (key, v) where
  starts := ⟨'"', _, by rw [toList_quote]; rfl, rfl⟩
  reads rest hrest := by
    rw [toList_quote, List.append_assoc, List.cons_append, List.append_assoc,
      List.singleton_append, List.cons_append, member?_quote quoted?_flatMap, List.append_assoc,
      value?_skips.append hblanks, h.reads rest hrest, Option.map_some, String.ofList_toList]

end Values

/-! ### The two layouts -/

/-- A way to write values, which depends on the level at which they stand: the
parts of an array or an object stand one level further in, between blanks. -/
structure Layout where
  text : Nat → Json → String
  /-- The blanks before each part of a value at a level. -/
  inner : Nat → List Char
  /-- The blanks before its closing bracket. -/
  outer : Nat → List Char
  /-- The blanks behind the colon of a member. -/
  colon : List Char
  isSpace_inner : ∀ {level}, ∀ c ∈ inner level, isSpace c
  isSpace_outer : ∀ {level}, ∀ c ∈ outer level, isSpace c
  isSpace_colon : ∀ c ∈ colon, isSpace c
  text_null : ∀ {level}, text level null = "null"
  text_bool : ∀ {level value}, text level (bool value) = if value then "true" else "false"
  text_nat : ∀ {level n}, text level (nat n) = toString n
  text_string : ∀ {level s}, text level (string s) = quote s
  text_array : ∀ {level items}, (text level (array items)).toList
    = '[' :: enclosed ']' (inner level) (outer level)
        (items.map fun v => (text (level + 1) v).toList)
  text_object : ∀ {level members}, (text level (object members)).toList
    = '\x7b' :: enclosed '\x7d' (inner level) (outer level)
        (members.map fun m => (quote m.1).toList ++ ':' :: (colon ++ (text (level + 1) m.2).toList))

/-- **A value that is laid out is read back.** -/
theorem Layout.reads (l : Layout) {depth level : Nat} {v : Json} (h : Within depth v) :
    Reads (value? depth) (l.text level v).toList v := by
  induction depth generalizing v level with
  | zero =>
    cases v with
    | null => exact l.text_null ▸ reads_null
    | bool value => exact l.text_bool ▸ reads_bool
    | nat value => exact l.text_nat ▸ reads_nat
    | string text => exact l.text_string ▸ reads_string
    | array items => exact h.elim
    | object members => exact h.elim
  | succ depth ih =>
    cases v with
    | null => exact l.text_null ▸ reads_null
    | bool value => exact l.text_bool ▸ reads_bool
    | nat value => exact l.text_nat ▸ reads_nat
    | string text => exact l.text_string ▸ reads_string
    | array items =>
      rw [l.text_array]
      refine reads_array l.isSpace_inner l.isSpace_outer ?_
      rw [List.forall₂_map_left_iff, List.forall₂_same]
      exact fun v hv => ih (h v hv)
    | object members =>
      rw [l.text_object]
      refine reads_object l.isSpace_inner l.isSpace_outer ?_
      rw [List.forall₂_map_left_iff, List.forall₂_same]
      exact fun m hm => reads_member l.isSpace_colon (ih (h m hm))

section Layouts

variable {level : Nat} {items : List Json} {members : List (String × Json)}

theorem toList_compactItems :
    (compactItems items).map String.toList = items.map fun v => v.compact.toList := by
  induction items with
  | nil => rfl
  | cons v items ih => rw [compactItems, List.map_cons, ih, List.map_cons]

theorem toList_compactMembers : (compactMembers members).map String.toList
    = members.map fun m => (quote m.1).toList ++ ':' :: m.2.compact.toList := by
  induction members with
  | nil => rfl
  | cons m members ih =>
    rw [compactMembers, List.map_cons, ih, List.map_cons, String.toList_append,
      String.toList_append, List.append_assoc]
    rfl

theorem toList_prettyItems :
    (prettyItems level items).map String.toList = items.map fun v => (v.prettyAt level).toList := by
  induction items with
  | nil => rfl
  | cons v items ih => rw [prettyItems, List.map_cons, ih, List.map_cons]

theorem toList_prettyMembers : (prettyMembers level members).map String.toList
    = members.map fun m => (quote m.1).toList ++ ':' :: ' ' :: (m.2.prettyAt level).toList := by
  induction members with
  | nil => rfl
  | cons m members ih =>
    rw [prettyMembers, List.map_cons, ih, List.map_cons, String.toList_append,
      String.toList_append, List.append_assoc]
    rfl

/-- On one line no blanks stand between the parts. -/
theorem toList_compact (l r : String) (closing : Char) (parts : List String)
    (hr : r.toList = [closing]) : (l ++ ",".intercalate parts ++ r).toList
      = l.toList ++ enclosed closing [] [] (parts.map String.toList) := by
  rw [String.toList_append, String.toList_append, String.toList_intercalate, hr, enclosed]
  cases parts with
  | nil => simp
  | cons part parts => simp

/-- Over several lines each part stands on its own one. -/
theorem toList_enclose (l r : String) (closing : Char) (parts : List String)
    (hr : r.toList = [closing]) : (enclose l r level parts).toList
      = l.toList ++ enclosed closing (lineBreak (level + 1)).toList (lineBreak level).toList
          (parts.map String.toList) := by
  rw [enclose, enclosed, List.isEmpty_map]
  split
  · rw [String.toList_append, hr]
  · simp [hr]

theorem isSpace_of_mem_lineBreak {c : Char} (h : c ∈ (lineBreak level).toList) : isSpace c := by
  rw [lineBreak, String.toList_ofList, List.mem_cons, List.mem_replicate] at h
  rcases h with rfl | ⟨-, rfl⟩ <;> rfl

end Layouts

/-- The layout on one line. -/
def onOneLine : Layout where
  text _ := compact
  inner _ := []
  outer _ := []
  colon := []
  isSpace_inner _ hc := absurd hc List.not_mem_nil
  isSpace_outer _ hc := absurd hc List.not_mem_nil
  isSpace_colon _ hc := absurd hc List.not_mem_nil
  text_null := rfl
  text_bool := rfl
  text_nat := rfl
  text_string := rfl
  text_array := by
    intro _ items
    rw [compact, toList_compact _ _ ']' _ rfl, toList_compactItems]
    rfl
  text_object := by
    intro _ members
    rw [compact, toList_compact _ _ '\x7d' _ rfl, toList_compactMembers]
    rfl

/-- The layout over several lines. -/
def overLines : Layout where
  text := prettyAt
  inner level := (lineBreak (level + 1)).toList
  outer level := (lineBreak level).toList
  colon := [' ']
  isSpace_inner _ := isSpace_of_mem_lineBreak
  isSpace_outer _ := isSpace_of_mem_lineBreak
  isSpace_colon _ hc := by rw [List.mem_singleton.1 hc]; rfl
  text_null := rfl
  text_bool := rfl
  text_nat := rfl
  text_string := rfl
  text_array := by
    intro level items
    rw [prettyAt, toList_enclose _ _ ']' _ rfl, toList_prettyItems]
    rfl
  text_object := by
    intro level members
    rw [prettyAt, toList_enclose _ _ '\x7d' _ rfl, toList_prettyMembers]
    rfl

/-- **A text is read back as the value that it was made of.** A line break may
follow. -/
theorem Layout.read? (l : Layout) (level : Nat) {v : Json} (h : Within depthLimit v) :
    Json.read? (l.text level v ++ "\n") = some v := by
  have hread : value? depthLimit ((l.text level v).toList ++ ['\n']) = some (v, ['\n']) :=
    (l.reads h).reads _ (endsDigits_cons rfl)
  rw [Json.read?, String.toList_append, show "\n".toList = ['\n'] from rfl, hread]
  rfl

end Json

end StackGraph
