import RowStore.Text.Blank
import RowStore.RecordError

/-! # Type names
How a column type is written: `int` or `integer`, or one of `string`, `char` and `varchar`, in any
letter case, with blanks around it. The names of text types may be followed by a width in parentheses,
and blanks may stand at every joint. -/

namespace RowStore.ColumnType

/-- The width of a text type that is written without one. -/
def defaultWidth : Nat := 128

/-- The greatest width of a text type: a length is stored in 32 bits. -/
def maxWidth : Nat := UInt32.size - 1

/-- The number that decimal digits spell. -/
def digitsValue (ds : List Char) : Nat :=
  ds.foldl (fun n d => 10 * n + (d.toNat - '0'.toNat)) 0

/-- What follows the name of a type: nothing, or a width in parentheses. The outer `none` stands for
anything else. -/
def width? (cs : List Char) : Option (Option Nat) :=
  match dropBlanks cs with
  | [] => some none
  | '(' :: rest =>
    let rest := dropBlanks rest
    let digits := rest.takeWhile Char.isDigit
    match digits, dropBlanks (rest.dropWhile Char.isDigit) with
    | _ :: _, ')' :: rest =>
      if (dropBlanks rest).isEmpty then some (some (digitsValue digits)) else none
    | _, _ => none
  | _ => none

/-- The type that a text names. -/
def parse? (s : String) : Option ColumnType :=
  let cs := dropBlanks s.toList
  let word := String.ofList ((cs.takeWhile Char.isAlpha).map Char.toLower)
  match width? (cs.dropWhile Char.isAlpha) with
  | some none =>
    if word ∈ ["int", "integer"] then some int
    else if word ∈ ["string", "char", "varchar"] then some (text defaultWidth)
    else none
  | some (some width) =>
    if word ∈ ["string", "char", "varchar"] ∧ width ≤ maxWidth then some (text width) else none
  | none => none

/-- The type that a text names, or the text itself as an error. -/
def parse (s : String) : Except RecordError ColumnType :=
  match parse? s with
  | some t => .ok t
  | none => .error (.invalidType s)

end RowStore.ColumnType
