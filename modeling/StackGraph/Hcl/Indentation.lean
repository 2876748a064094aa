import StackGraph.Hcl.Concrete
import StackGraph.Text.Basic
/-!
# Indentation of heredocs

A heredoc may stand with the indentation of the text around it. `dedent?` removes what its lines
have in common. A line counts where a literal piece begins it, and a piece with a line that is not
indented does not count at all. Code at the beginning of a line leaves no indentation to remove.

Where lines are changed their line breaks become plain ones, without a carriage return.
-/

namespace StackGraph.Hcl

namespace Indentation

/-- The lines of a text with their line breaks; a text that ends in a line break has no empty line
after it. -/
def lines : List Char → List (List Char)
  | [] => []
  | c :: rest =>
    if c = '\n' then ['\n'] :: lines rest
    else
      match lines rest with
      | [] => [[c]]
      | line :: others => (c :: line) :: others

/-- A line without its line break. -/
def bare (line : List Char) : List Char :=
  match line.reverse with
  | '\n' :: '\r' :: r => r.reverse
  | '\n' :: r => r.reverse
  | _ => line

/-- A line with its characters changed and a plain line break, if it has one. -/
def mapLine (f : List Char → List Char) (line : List Char) : List Char :=
  f (bare line) ++ (if line.getLast? = some '\n' then ['\n'] else [])

/-- A text with `n` blanks before each line that is not empty. -/
def indent (n : Nat) (text : List Char) : List Char :=
  (lines text).flatMap
    (mapLine fun line => if line.isEmpty then [] else List.replicate n ' ' ++ line)

/-- The number of blanks at the start of a line that is not empty. -/
def width? (line : List Char) : Option Nat :=
  if (bare line).isEmpty then none else some ((bare line).takeWhile Text.isBlank).length

/-- The smallest indentation of the lines that a literal text begins, where none of them stands at
the margin; `inside` tells whether the text continues a line. -/
def smallest? (inside : Bool) (text : List Char) : Option Nat :=
  let all := if inside then (lines text).drop 1 else lines text
  (all.filterMap width?).min?.filter (0 < ·)

/-- The literal text with the first `n` characters of each line that it begins removed. -/
def remove (n : Nat) (inside : Bool) (text : List Char) : List Char :=
  match inside, lines text with
  | true, line :: others => mapLine id line ++ others.flatMap (mapLine (List.drop n))
  | _, all => all.flatMap (mapLine (List.drop n))

end Indentation

open Indentation

namespace Concrete.Piece

/-- The smallest indentation of the lines that the pieces begin, given that of the lines before. -/
def indentation? : Bool → List Piece → Option Nat → Option Nat
  | _, [], found => found
  | inside, literal text :: rest, found =>
    indentation? (text.getLast? != some '\n') rest
      (found.toList ++ (smallest? inside text).toList).min?
  | inside, _ :: rest, found => if inside then indentation? true rest found else none

/-- The pieces with `n` characters of each line that they begin removed. -/
def removeIndentation (n : Nat) : Bool → List Piece → List Piece
  | _, [] => []
  | inside, literal text :: rest =>
    literal (remove n inside text) :: removeIndentation n (text.getLast? != some '\n') rest
  | _, code :: rest => code :: removeIndentation n true rest

/-- The pieces without their indentation, if they have one, and its length. -/
def dedent? (pieces : List Piece) : Option (Nat × List Piece) :=
  (indentation? false pieces none).map fun n => (n, removeIndentation n false pieces)

end Concrete.Piece

end StackGraph.Hcl
