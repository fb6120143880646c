import RowStore.Text.Width

/-! # Grids
A grid is a table of texts under titles, drawn with rules between its rows. Each column is as wide as
its widest line, and a cell with several lines takes as many lines of the drawing. Main statement:
cutting a text into lines loses nothing (`flatten_cutLines`). -/

namespace RowStore

/-- Texts in rows, under titles. -/
structure Grid where
  titles : List String
  rows : List (List String)
  deriving DecidableEq, Repr

namespace Grid

/-- Cuts a text after every line feed. -/
def cutLines : List Char → List (List Char)
  | [] => []
  | '\n' :: cs => ['\n'] :: cutLines cs
  | c :: cs =>
    match cutLines cs with
    | [] => [[c]]
    | line :: rest =>
      (c :: line) :: rest

/-- The pieces of a text make it up again. -/
theorem flatten_cutLines (cs : List Char) : (cutLines cs).flatten = cs := by
  fun_induction cutLines cs with
  | case1 => rfl
  | case2 cs ih => simp [ih]
  | case3 c cs _ none ih => simpa [none] using ih
  | case4 c cs _ line rest some ih => simpa [some] using ih

/-- A line without the line feed at its end, and without the carriage return before that. -/
def withoutEnd (line : List Char) : List Char :=
  match line.reverse with
  | '\n' :: '\r' :: rest | '\n' :: rest => rest.reverse
  | _ => line

/-- The lines of a text; an end of line at its end starts no other one. -/
def lines (s : String) : List String :=
  (cutLines s.toList).map fun line => String.ofList (withoutEnd line)

/-- The number of columns that a cell takes. -/
def cellWidth (s : String) : Nat :=
  ((lines s).map Width.ofText).foldl max 0

/-- The widths of the columns. -/
def widths (g : Grid) : List Nat :=
  (List.range ((g.titles :: g.rows).map List.length |>.foldl max 0)).map fun i =>
    ((g.titles :: g.rows).map fun row => (row[i]?.map cellWidth).getD 0).foldl max 0

/-- A rule over columns of the given widths. -/
def rule (mark : Char) (widths : List Nat) : String :=
  "+" ++ String.join (widths.map fun w => String.ofList (List.replicate (w + 2) mark) ++ "+")

/-- A text with blanks after it, up to a width. -/
def pad (width : Nat) (s : String) : String :=
  s ++ String.ofList (List.replicate (width - Width.ofText s) ' ')

/-- The lines of a row. -/
def drawRow (widths : List Nat) (row : List String) : List String :=
  let cells := row.map lines
  let height := (cells.map List.length).foldl max 1
  (List.range height).map fun i =>
    "|" ++ String.join ((widths.zip cells).map fun (w, cell) =>
      " " ++ pad w (cell[i]?.getD "") ++ " |")

/-- The lines of the drawing. -/
def draw (g : Grid) : List String :=
  let widths := g.widths
  let thin := rule '-' widths
  let body := g.rows.map fun row => drawRow widths row
  [thin] ++ drawRow widths g.titles ++ [rule '=' widths]
    ++ (body.flatMap fun lines => lines ++ [thin]) ++ (if g.rows.isEmpty then [thin] else [])

end Grid

end RowStore
