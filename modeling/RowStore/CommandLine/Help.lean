import RowStore.CommandLine.Request

/-! # Help
How to use the program and its commands, as text. -/

namespace RowStore.CommandLine

/-- The program's name. -/
def programName : String := "heapdb"

/-- The program's name and version. -/
def versionText : String := programName ++ " 0.1.0\n"

/-- The name of a command. -/
def Verb.name : Verb → String
  | convert => "convert"
  | print => "print"
  | info => "info"

/-- What a command does. -/
def Verb.about : Verb → String
  | convert => "Build a heap file from a headerless CSV file in one transaction"
  | print => "Print every tuple of a heap file"
  | info => "Show page and tuple counts of a heap file"

/-- The paths that a command works on. -/
def Verb.operands : Verb → List String
  | convert => ["<INPUT>", "<OUTPUT>"]
  | print | info => ["<FILE>"]

/-- The part of a help text under a heading: names, and what they mean in a column after them. -/
def helpSection (heading : String) (entries : List (String × String)) : String :=
  let width := (entries.map fun (name, _) => name.length).foldl max 0
  heading ++ ":\n" ++ String.join (entries.map fun (name, meaning) =>
    "  " ++ name ++ String.ofList (List.replicate (width + 2 - name.length) ' ') ++ meaning ++ "\n")

/-- The option for the size of pages. -/
def pageSizeHelp : String × String :=
  ("    --page-size <PAGE_SIZE>", "Page size in bytes")

/-- The option for the number of pages in memory. -/
def pagesHelp : String × String :=
  ("    --pages <BUFFER_POOL_PAGES>", "Buffer pool capacity in pages")

/-- The option for messages. -/
def verboseHelp : String × String :=
  ("-v, --verbose...", "Increase log verbosity (-v info, -vv debug, -vvv trace)")

/-- The option for help. -/
def helpHelp : String × String :=
  ("-h, --help", "Print help")

/-- What the command that shows help texts does. -/
def helpAbout : String :=
  "Print this message or the help of the given subcommand(s)"

/-- How to use the program. -/
def topHelp : String :=
  "Build and inspect heap table files\n\nUsage: " ++ programName ++ " [OPTIONS] <COMMAND>\n\n"
    ++ helpSection "Commands" ([Verb.convert, .print, .info].map (fun v => (v.name, v.about))
      ++ [("help", helpAbout)])
    ++ "\n" ++ helpSection "Options"
      [pageSizeHelp, pagesHelp, verboseHelp, helpHelp, ("-V, --version", "Print version")]

/-- The options that a command has of its own. -/
def Verb.ownOptions : Verb → List (String × String) × List (String × String)
  | convert =>
    ([("    --types <TYPES>", "Column types, e.g. int,string(16)")],
      [("    --delimiter <DELIMITER>", "[default: ,]")])
  | print | info => ([("    --types <TYPES>", "")], [])

/-- How to use a command. -/
def Verb.help (v : Verb) : String :=
  let (early, late) := v.ownOptions
  v.about ++ "\n\nUsage: " ++ programName ++ " " ++ v.name ++ " [OPTIONS] --types <TYPES> "
    ++ " ".intercalate v.operands ++ "\n\n"
    ++ helpSection "Arguments" (v.operands.map fun o => (o, ""))
    ++ "\n" ++ helpSection "Options"
      ([pageSizeHelp] ++ early ++ late ++ [pagesHelp, verboseHelp, helpHelp])

/-- How to use the command that shows help texts. -/
def helpHelpText : String :=
  helpAbout ++ "\n\nUsage: " ++ programName ++ " help [COMMAND]...\n\n"
    ++ helpSection "Arguments" [("[COMMAND]...", "Print help for the subcommand(s)")]

/-- How to use the program, or one of its commands. -/
def helpText : Topic → String
  | .program => topHelp
  | .command v => v.help
  | .help => helpHelpText

end RowStore.CommandLine
