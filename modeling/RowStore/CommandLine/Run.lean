import RowStore.CommandLine.Help
import RowStore.Database
import RowStore.Text.Grid

/-! # Running commands
What the program does for its arguments: it changes the files and says something. Each command works in
one transaction. -/

namespace RowStore.CommandLine

/-- What the program says, and the code that it ends with. -/
structure Output where
  code : Nat
  out : String
  err : String
  deriving DecidableEq, Repr

/-- The only transaction of a command. -/
def onlyTxn : TxnId := ⟨1⟩

/-- The name of the only table. -/
def tableName : String := "data"

/-- Columns of the given types, named by their positions. -/
def schemaOf (types : List ColumnType) : Schema :=
  ⟨types.zipIdx.map fun (type, i) => ⟨"f" ++ toString i, type⟩⟩

/-- Works that fail as a database does, and keep the engine that they have come to. -/
abbrev Work := ExceptT DatabaseError (StateM Engine)

/-- Works on the engine. -/
def onEngine {ε α : Type} (wrap : ε → DatabaseError) (f : Engine → Engine × Except ε α) : Work α := do
  let (e, result) := f (← get)
  set e
  match result with
  | .ok a => return a
  | .error err => throw (wrap err)

/-- The path that an argument writes. -/
def pathOf (text : String) : Work Path := do
  return .parse (← get).disk.root text

/-- Opens a file that is there as a table. -/
def openExisting (text : String) (types : List ColumnType) : Work TableId := do
  let path ← pathOf text
  if (← get).disk.exists? path then
    onEngine id (·.openTable path tableName (schemaOf types) none)
  else throw (.io .notFound)

/-- A scan of a table, and all its tuples. -/
def scanAll (table : TableId) : Work (Scan × List Tuple) := do
  match (← get).scan table tableName with
  | .error e => throw (.catalog e)
  | .ok scan =>
    let tuples ← onEngine .file (·.tuplesOf onlyTxn scan)
    return (scan, tuples)

/-- Commits the transaction. -/
def commit : Work Unit :=
  onEngine .file (·.complete onlyTxn true)

/-- Builds a table's file from comma-separated records, and tells how many. -/
def convert (input output : String) (types : List ColumnType) (delimiter : Char) : Work String := do
  if delimiter.toNat ≥ UInt8.size then throw (.config (.wideDelimiter delimiter))
  let outputPath ← pathOf output
  let file ← onEngine .file fun e =>
    let (disk, result) := HeapFile.createAt e.disk outputPath (schemaOf types) e.config.pageSize
    ({ e with disk }, result)
  modify fun e => { e with catalog := e.catalog.add tableName file none }
  let inputPath ← pathOf input
  let count ← onEngine id (·.load onlyTxn file.id inputPath delimiter.toNat.toUInt8)
  commit
  return "Wrote " ++ toString count ++ " rows to " ++ output ++ "\n"

/-- Draws all tuples of a table's file. -/
def print (text : String) (types : List ColumnType) : Work String := do
  let (scan, tuples) ← scanAll (← openExisting text types)
  commit
  let grid : Grid := ⟨scan.schema.columns.map Column.name, tuples.map (·.values.map Value.render)⟩
  return String.join (grid.draw.map (· ++ "\n"))

/-- Tells the sizes of a table's file. -/
def info (text : String) (types : List ColumnType) : Work String := do
  let table ← openExisting text types
  let (scan, tuples) ← scanAll table
  commit
  let e ← get
  let file := scan.cursor.file
  return String.join ([
    ("file:        ", e.disk.fullPath file.location),
    ("table id:    ", table.text),
    ("schema:      ", file.schema.render),
    ("page size:   ", toString file.pageSize),
    ("record size: ", toString file.layout.recordSize),
    ("slots/page:  ", toString file.layout.slotCount),
    ("pages:       ", toString (e.numPages file)),
    ("tuples:      ", toString tuples.length)].map fun (name, value) => name ++ value ++ "\n")

/-- Does what a command asks for. -/
def Command.work : Command → Work String
  | convert input output types delimiter => CommandLine.convert input output types delimiter
  | print file types => CommandLine.print file types
  | info file types => CommandLine.info file types

/-- An output of the program that fails. -/
def failed (e : DatabaseError) : Output :=
  ⟨1, "", "Error: " ++ e.message ++ "\n"⟩

/-- Does what a command asks for with a configuration. -/
def runCommand (disk : FileTree) (config : Config) (command : Command) : FileTree × Output :=
  match Engine.ofConfig disk config with
  | .error err => (disk, failed err)
  | .ok e =>
    let (result, e) := command.work.run e
    (e.disk, match result with
      | .ok out => ⟨0, out, ""⟩
      | .error err => failed err)

/-- Does what a request asks for. -/
def runRequest (disk : FileTree) : Request → FileTree × Output
  | .run pageSize? poolPages? command =>
    runCommand disk (Config.standard.override pageSize? poolPages?) command
  | .help topic => (disk, ⟨0, helpText topic, ""⟩)
  | .version => (disk, ⟨0, versionText, ""⟩)
  | .misuse => (disk, ⟨2, "", "error: these arguments cannot be used; try '--help'\n"⟩)

/-- Does what the arguments of a command line ask for. -/
def run (disk : FileTree) (args : List String) : FileTree × Output :=
  runRequest disk (.ofArgs args)

end RowStore.CommandLine
