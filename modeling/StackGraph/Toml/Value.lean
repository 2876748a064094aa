import StackGraph.Decimal.Binary64
/-!
# TOML values

Values and tables of TOML, and the rules by which the lines of a text fill the tables. A table
remembers how it came about, since that decides what may still be added to it: a table is opened by
at most one header; dotted names fill only tables that dotted names have made; a table in braces is
complete. Several headers in double brackets open one table each, gathered in an array.
-/

namespace StackGraph.Toml

/-- How a table came about. -/
inductive Origin where
  /-- By a header below it. -/
  | implied
  /-- By a dotted name in front of a value. -/
  | dotted
  /-- By its own header. -/
  | header
  /-- As a value in braces. -/
  | inline
deriving DecidableEq, Repr

/-- Values. A date or time is not kept. -/
inductive Value where
  | string (text : String)
  | integer (value : Int)
  | float (value : Binary64)
  | bool (value : Bool)
  | time
  /-- An array, and whether headers made it. -/
  | array (ofHeaders : Bool) (items : List Value)
  | table (origin : Origin) (entries : List (String × Value))

/-- The entries of a table, each name once. -/
abbrev Entries := List (String × Value)

namespace Entries

/-- The value of a name. -/
def get? (es : Entries) (name : String) : Option Value :=
  (es.find? fun e => e.1 == name).map Prod.snd

/-- The entries with a value for a name. -/
def put (name : String) (value : Value) : Entries → Entries
  | [] => [(name, value)]
  | e :: rest => if e.1 == name then (name, value) :: rest else e :: put name value rest

/-- Changes the table that some names lead to. Missing tables on the way are made, and `dotted` says
that the names stand in front of a value. -/
def change (dotted : Bool) (f : Origin → Entries → Option (Origin × Entries)) :
    List String → Origin → Entries → Option (Origin × Entries)
  | [], origin, es => f origin es
  | name :: rest, origin, es =>
    match es.get? name with
    | none => do
      let (o, inner) ← change dotted f rest (if dotted then .dotted else .implied) []
      some (origin, es.put name (.table o inner))
    | some (.table o inner) =>
      if o = .inline ∨ (dotted ∧ o = .header) then none
      else do
        let (o, inner) ← change dotted f rest o inner
        some (origin, es.put name (.table o inner))
    | some (.array true items) =>
      match items.getLast? with
      | some (.table o inner) => do
        let (o, inner) ← change dotted f rest o inner
        some (origin, es.put name (.array true (items.dropLast ++ [.table o inner])))
      | _ => none
    | some _ => none

/-- Adds a value under a dotted name. The name must be new, and all but its last part must lead to a
table that a dotted name has made. -/
def define (names : List String) (value : Value) (origin : Origin) (es : Entries) :
    Option (Origin × Entries) :=
  match names.reverse with
  | [] => none
  | name :: above =>
    change true (fun o inner =>
      if (!above.isEmpty && o != .dotted) || (inner.get? name).isSome then none
      else some (o, inner.put name value)) above.reverse origin es

/-- Opens the table of a header. -/
def openTable (names : List String) (origin : Origin) (es : Entries) : Option (Origin × Entries) :=
  match names.reverse with
  | [] => none
  | name :: above =>
    change false (fun o inner =>
      match inner.get? name with
      | none => some (o, inner.put name (.table .header []))
      | some (.table .implied t) => some (o, inner.put name (.table .header t))
      | some _ => none) above.reverse origin es

/-- Opens a further table of a header in double brackets. -/
def openItem (names : List String) (origin : Origin) (es : Entries) : Option (Origin × Entries) :=
  match names.reverse with
  | [] => none
  | name :: above =>
    change false (fun o inner =>
      match inner.get? name with
      | none => some (o, inner.put name (.array true [.table .header []]))
      | some (.array true items) =>
        some (o, inner.put name (.array true (items ++ [.table .header []])))
      | some _ => none) above.reverse origin es

end Entries

end StackGraph.Toml
