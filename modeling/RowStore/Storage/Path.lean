/-! # Paths
A path is a text whose names are set apart by slashes. Empty names and single dots stay in the directory
they stand in, two dots lead to the directory above. A path that ends in a slash can only name a
directory, and one whose last name is a dot names the directory itself. -/

namespace RowStore

/-- One step of a path. -/
inductive PathStep where
  /-- To the entry of a name. -/
  | name (s : String)
  /-- To the directory above. -/
  | up
  /-- To the same place, which must be a directory; only a path's last step. -/
  | stay
  deriving DecidableEq, Repr

/-- A path with the steps it is made of. -/
structure Path where
  /-- The path as it is written. -/
  text : String
  /-- Whether the steps start at the root, and not at the working directory. -/
  absolute : Bool
  steps : List PathStep
  /-- Whether the path ends in a slash, and so can only name a directory. -/
  directory : Bool
  deriving DecidableEq, Repr

namespace Path

/-- The pieces of a text between slashes; there is always one more than there are slashes. -/
def pieces : List Char → List (List Char)
  | [] => [[]]
  | c :: cs =>
    match c, pieces cs with
    | '/', rest => [] :: rest
    | c, piece :: rest => (c :: piece) :: rest
    | c, [] => [[c]]

/-- The step that a piece between slashes means. -/
def step? (piece : String) : Option PathStep :=
  if piece = "" ∨ piece = "." then none
  else if piece = ".." then some .up
  else some (.name piece)

/-- Reads a path, where `root` is how the root is written, without a slash at its end. -/
def parse (root text : String) : Path :=
  let cs := text.toList
  let anchor := root.toList ++ ['/']
  let absolute := anchor.isPrefixOf cs
  let parts := (pieces (if absolute then cs.drop anchor.length else cs)).map String.ofList
  { text, absolute
    steps := parts.filterMap step? ++
      if (parts.filter (· ≠ "")).getLast? = some "." then [.stay] else []
    directory := parts.getLast? = some "" }

/-- The path without its last name or double dot. -/
def parent (p : Path) : Path :=
  { p with steps := (p.steps.filter (· ≠ .stay)).dropLast, directory := false }

/-- The path that leads on from a directory, unless it starts at the root itself. -/
def join (base p : Path) : Path :=
  if p.absolute then p
  else { p with
    text := base.text ++ "/" ++ p.text
    absolute := base.absolute
    steps := base.steps ++ p.steps }

end Path

end RowStore
