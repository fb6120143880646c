import RowStore.Value.TypeName

/-! # Requests
What the arguments of a command line ask for. An option's value is the next argument, or stands after
an equals sign; it is read when the next option or argument is met, so a request for help that comes
first wins. A path too many is refused where it stands. The sizes may be given before the command and
after it, and there the later ones count. -/

namespace RowStore.CommandLine

/-- The names of the commands. -/
inductive Verb where
  | convert
  | print
  | info
  deriving DecidableEq, Repr

/-- What is done with a file of records. -/
inductive Command where
  /-- Builds a table's file from comma-separated records. -/
  | convert (input output : String) (types : List ColumnType) (delimiter : Char)
  /-- Draws all tuples of a table's file. -/
  | print (file : String) (types : List ColumnType)
  /-- Tells the sizes of a table's file. -/
  | info (file : String) (types : List ColumnType)
  deriving DecidableEq, Repr

/-- What a help text is about. -/
inductive Topic where
  | program
  | command (verb : Verb)
  /-- The command that shows help texts. -/
  | help
  deriving DecidableEq, Repr

/-- What arguments ask for. -/
inductive Request where
  | run (pageSize? poolPages? : Option Nat) (command : Command)
  /-- How to use the program, or one of its commands. -/
  | help (topic : Topic)
  | version
  /-- The arguments make no sense. -/
  | misuse
  deriving DecidableEq, Repr

/-- An option that has a value. -/
inductive Opt where
  | pageSize
  | pages
  | types
  | delimiter
  deriving DecidableEq, Repr

/-- The command of a name. -/
def Verb.ofName? : String → Option Verb
  | "convert" => some convert
  | "print" => some print
  | "info" => some info
  | _ => none

/-- The command that arguments belong to, or the program for those before any. -/
def Topic.ofVerb? (verb? : Option Verb) : Topic :=
  verb?.elim program command

/-- The topic of a name. -/
def Topic.ofName? (name : String) : Option Topic :=
  if name = "help" then some help else command <$> Verb.ofName? name

/-- The number of paths that a command takes. -/
def Verb.paths : Verb → Nat
  | convert => 2
  | print | info => 1

/-- The option of a name, for a command or for all of them. -/
def Opt.ofName? (verb? : Option Verb) : String → Option Opt
  | "page-size" => some pageSize
  | "pages" => some pages
  | "types" => if verb?.isSome then some types else none
  | "delimiter" => if verb? = some .convert then some delimiter else none
  | _ => none

/-- What has been read of a command's arguments, or of those before the command. -/
structure Args where
  pageSize? : Option Nat := none
  pages? : Option Nat := none
  types : List ColumnType := []
  delimiter? : Option Char := none
  paths : List String := []

/-- What has been met and is not read yet. -/
inductive Pending where
  | nothing
  /-- An option whose value comes next. -/
  | awaits (o : Opt)
  | value (o : Opt) (text : String)
  | path (text : String)

/-- A number that fits a word: digits, perhaps after a plus sign. -/
def word? (s : String) : Option Nat :=
  let digits := match s.toList with
    | '+' :: rest => rest
    | cs => cs
  if digits.isEmpty || !digits.all Char.isDigit then none
  else
    let n := ColumnType.digitsValue digits
    if n < UInt64.size then some n else none

/-- The types in a list with commas. -/
def types? (s : String) : Option (List ColumnType) :=
  (s.splitOn ",").mapM fun name => (ColumnType.parse name).toOption

/-- The only character of a text. -/
def onlyChar? (s : String) : Option Char :=
  match s.toList with
  | [c] => some c
  | _ => none

namespace Args

/-- Reads an option's value. Only types can be given more than once. -/
def setOption (a : Args) (o : Opt) (text : String) : Option Args :=
  match o with
  | .pageSize => do
    guard a.pageSize?.isNone
    return { a with pageSize? := some (← word? text) }
  | .pages => do
    guard a.pages?.isNone
    return { a with pages? := some (← word? text) }
  | .types => do return { a with types := a.types ++ (← types? text) }
  | .delimiter => do
    guard a.delimiter?.isNone
    return { a with delimiter? := some (← onlyChar? text) }

/-- Reads what is pending. -/
def resolve (a : Args) : Pending → Option Args
  | .nothing => some a
  | .awaits _ => none
  | .value o text => a.setOption o text
  | .path text => if text = "" then none else some { a with paths := a.paths ++ [text] }

/-- The command that the arguments make up. -/
def command? (a : Args) (verb : Verb) : Option Command :=
  if a.types.isEmpty then none
  else match verb, a.paths with
    | .convert, [input, output] =>
      some (.convert input output a.types (a.delimiter?.getD ','))
    | .print, [file] => some (.print file a.types)
    | .info, [file] => some (.info file a.types)
    | _, _ => none

end Args

/-- What comes of an argument that stands for itself. -/
inductive Flag where
  /-- The arguments go on. -/
  | goOn (a : Args)
  /-- The request is known. -/
  | over (r : Request)

/-- Reads letters after a single dash. What is pending is read first. -/
def shortFlags (verb? : Option Verb) (a : Args) (pending : Pending) : List Char → Flag
  | [] => .goOn a
  | c :: cs =>
    match c, a.resolve pending with
    | 'v', some a => shortFlags verb? a .nothing cs
    | 'h', some _ => .over (.help (.ofVerb? verb?))
    | 'V', some _ => .over (if verb?.isNone then .version else .misuse)
    | _, _ => .over .misuse

/-- Reads a name after two dashes that is no option with a value. What is pending is read first. -/
def longFlag (verb? : Option Verb) (a : Args) (pending : Pending) (name : String) : Flag :=
  match name, a.resolve pending with
  | "verbose", some a => .goOn a
  | "help", some _ => .over (.help (.ofVerb? verb?))
  | "version", some _ => .over (if verb?.isNone then .version else .misuse)
  | _, _ => .over .misuse

/-- The texts before and after the first equals sign. -/
def splitValue (s : String) : String × Option String :=
  let name := s.toList.takeWhile (· ≠ '=')
  (String.ofList name,
    match s.toList.dropWhile (· ≠ '=') with
    | [] => none
    | _ :: value => some (String.ofList value))

/-- What an argument looks like. -/
inductive Shape where
  /-- Two dashes alone: paths follow. -/
  | dashes
  | long (name : String) (value? : Option String)
  | short (letters : List Char)
  | plain

/-- What an argument looks like. -/
def Shape.of (s : String) : Shape :=
  match s.toList with
  | ['-', '-'] => .dashes
  | '-' :: '-' :: rest =>
    let (name, value?) := splitValue (String.ofList rest)
    .long name value?
  | ['-'] => .plain
  | '-' :: letters => .short letters
  | _ => .plain

/-- What arguments that are all paths make up with those before them. -/
def endWithPaths (verb : Verb) (a : Args) (pending : Pending) (paths : List String) :
    Option (Args × Command) := do
  let a ← a.resolve pending
  let a ← paths.foldlM (fun a path => a.resolve (.path path)) a
  return (a, ← a.command? verb)

/-- What the arguments of a command make up, or the request that they are instead. -/
def ofVerb (verb : Verb) : Args → Pending → List String → Except Request (Args × Command)
  | a, pending, [] => (endWithPaths verb a pending []).elim (.error .misuse) .ok
  | a, pending, s :: rest =>
    let goOn : Flag → Except Request (Args × Command)
      | .goOn a => ofVerb verb a .nothing rest
      | .over r => .error r
    match Shape.of s with
    | .dashes => (endWithPaths verb a pending rest).elim (.error .misuse) .ok
    | .short letters => goOn (shortFlags (some verb) a pending letters)
    | .long name value? =>
      match Opt.ofName? (some verb) name, value?, a.resolve pending with
      | some o, none, some a => ofVerb verb a (.awaits o) rest
      | some o, some text, some a =>
        match a.setOption o text with
        | some a => ofVerb verb a .nothing rest
        | none => .error .misuse
      | none, none, _ => goOn (longFlag (some verb) a pending name)
      | _, _, _ => .error .misuse
    | .plain =>
      match pending with
      | .awaits o => ofVerb verb a (.value o s) rest
      | _ =>
        match a.resolve pending with
        | some a =>
          if a.paths.length < verb.paths then ofVerb verb a (.path s) rest else .error .misuse
        | none => .error .misuse

/-- The request for help on the commands of the given names: none of them has commands of its own. -/
def helpOn : List String → Request
  | [] => .help .program
  | [name] => (Topic.ofName? name).elim .misuse .help
  | _ => .misuse

/-- The request of a command with its arguments; `a` was given before the command, and what is pending
there is read last. -/
def withVerb (verb : Verb) (a : Args) (pending : Pending) (rest : List String) : Request :=
  match ofVerb verb {} .nothing rest with
  | .error r => r
  | .ok (inner, command) =>
    match a.resolve pending with
    | some a => .run (inner.pageSize? <|> a.pageSize?) (inner.pages? <|> a.pages?) command
    | none => .misuse

/-- What the arguments before a command ask for, with the command after them. -/
def fromTop : Args → Pending → List String → Request
  | _, _, [] => .misuse
  | a, pending, s :: rest =>
    let goOn : Flag → Request
      | .goOn a => fromTop a .nothing rest
      | .over r => r
    match Shape.of s with
    | .dashes => .misuse
    | .short letters => goOn (shortFlags none a pending letters)
    | .long name value? =>
      match Opt.ofName? none name, value?, a.resolve pending with
      | some o, none, some a => fromTop a (.awaits o) rest
      | some o, some text, some a =>
        match a.setOption o text with
        | some a => fromTop a .nothing rest
        | none => .misuse
      | none, none, _ => goOn (longFlag none a pending name)
      | _, _, _ => .misuse
    | .plain =>
      match pending, Verb.ofName? s with
      | .awaits o, _ => fromTop a (.value o s) rest
      | _, some verb => withVerb verb a pending rest
      | _, none => if s = "help" then helpOn rest else .misuse

/-- What the arguments of a command line ask for. -/
def Request.ofArgs (args : List String) : Request :=
  fromTop {} .nothing args

end RowStore.CommandLine
