import RowStore.Value.TypeName

/-! # JSON documents
Reading JSON text into a tree, and records out of the tree. Only whole numbers and texts are ever used,
so other numbers keep no value, and a text that pairs surrogates wrongly is kept as one that cannot be
used. A record may be written as an object, whose unknown fields are passed over, or as a list of its
fields in order. -/

namespace RowStore

/-- A JSON value. -/
inductive Json where
  | null
  | bool (b : Bool)
  /-- A number; its value if it is written with digits only. -/
  | number (whole? : Option Nat)
  /-- A text, unless its escapes spell none. -/
  | text (s? : Option String)
  | list (items : List Json)
  | object (fields : List (Option String × Json))

namespace Json

/-- Whether a character is white space between tokens. -/
def isSpace (c : Char) : Bool :=
  c == ' ' || c == '\t' || c == '\n' || c == '\r'

/-- The text after the white space at its start. -/
def skip (cs : List Char) : List Char :=
  cs.dropWhile isSpace

/-- The value of a hexadecimal digit. -/
def hexDigit? (c : Char) : Option Nat :=
  if c.isDigit then some (c.toNat - '0'.toNat)
  else if 'a' ≤ c ∧ c ≤ 'f' then some (c.toNat - 'a'.toNat + 10)
  else if 'A' ≤ c ∧ c ≤ 'F' then some (c.toNat - 'A'.toNat + 10)
  else none

/-- The code units of a text up to its closing quote, and what follows. Controls must be escaped. -/
def units? : List Char → Option (List Nat × List Char)
  | '"' :: rest => some ([], rest)
  | '\\' :: 'u' :: a :: b :: c :: d :: rest => do
    let unit := (((← hexDigit? a) * 16 + (← hexDigit? b)) * 16 + (← hexDigit? c)) * 16
      + (← hexDigit? d)
    let (units, rest) ← units? rest
    return (unit :: units, rest)
  | '\\' :: c :: rest => do
    let unit ← match c with
      | '"' | '\\' | '/' => some c.toNat
      | 'b' => some 0x08
      | 'f' => some 0x0C
      | 'n' => some 0x0A
      | 'r' => some 0x0D
      | 't' => some 0x09
      | _ => none
    let (units, rest) ← units? rest
    return (unit :: units, rest)
  | c :: rest =>
    if c.toNat < 0x20 ∨ c = '\\' then none
    else do
      let (units, rest) ← units? rest
      return (c.toNat :: units, rest)
  | [] => none

/-- The characters that code units spell: a high surrogate and the low one after it are one character,
and a surrogate alone is none. -/
def chars? : List Nat → Option (List Char)
  | high :: low :: rest =>
    if 0xD800 ≤ high ∧ high < 0xDC00 then
      if 0xDC00 ≤ low ∧ low < 0xE000 then
        (Char.ofNat (0x10000 + (high - 0xD800) * 0x400 + (low - 0xDC00)) :: ·) <$> chars? rest
      else none
    else if 0xDC00 ≤ high ∧ high < 0xE000 then none
    else (Char.ofNat high :: ·) <$> chars? (low :: rest)
  | [unit] => if 0xD800 ≤ unit ∧ unit < 0xE000 then none else some [Char.ofNat unit]
  | [] => some []

/-- The text after an opening quote, and what follows its closing quote. -/
def text? (cs : List Char) : Option (Option String × List Char) := do
  let (units, rest) ← units? cs
  return (String.ofList <$> chars? units, rest)

/-- What follows one or more digits. -/
def afterDigits? (cs : List Char) : Option (List Char) :=
  if (cs.takeWhile Char.isDigit).isEmpty then none else some (cs.dropWhile Char.isDigit)

/-- What follows the fraction of a number, if it has one. -/
def afterFraction? : List Char → Option (List Char)
  | '.' :: rest => afterDigits? rest
  | cs => some cs

/-- What follows the exponent of a number, if it has one. -/
def afterExponent? : List Char → Option (List Char)
  | e :: rest =>
    if e = 'e' ∨ e = 'E' then
      match rest with
      | '+' :: rest | '-' :: rest => afterDigits? rest
      | _ => afterDigits? rest
    else some (e :: rest)
  | [] => some []

/-- The digits in front of the point, and what follows them: a zero stands alone. -/
def wholePart? : List Char → Option (List Char × List Char)
  | '0' :: rest => some (['0'], rest)
  | cs => (cs.takeWhile Char.isDigit, ·) <$> afterDigits? cs

/-- A number, and what follows it. -/
def number? (cs : List Char) : Option (Json × List Char) := do
  let (negative, cs) := match cs with
    | '-' :: rest => (true, rest)
    | _ => (false, cs)
  let (digits, rest) ← wholePart? cs
  let after ← afterExponent? (← afterFraction? rest)
  let isWhole := !negative && after.length == rest.length
  return (number (if isWhole then some (ColumnType.digitsValue digits) else none), after)

/-- What follows a word, if the text starts with it. -/
def after? (word : String) (cs : List Char) : Option (List Char) :=
  if word.toList.isPrefixOf cs then some (cs.drop word.length) else none

mutual

/-- A value, and what follows it. Each value and each separator takes at least one character, so as
much fuel as there are characters is enough. -/
def value? : Nat → List Char → Option (Json × List Char)
  | 0, _ => none
  | fuel + 1, cs =>
    match skip cs with
    | '"' :: rest => do
      let (s?, rest) ← text? rest
      return (text s?, rest)
    | '[' :: rest =>
      match skip rest with
      | ']' :: rest => some (list [], rest)
      | rest => do
        let (items, rest) ← items? fuel rest
        return (list items, rest)
    | '\x7b' :: rest =>
      match skip rest with
      | '\x7d' :: rest => some (object [], rest)
      | rest => do
        let (fields, rest) ← fields? fuel rest
        return (object fields, rest)
    | 'n' :: rest => (null, ·) <$> after? "ull" rest
    | 't' :: rest => (bool true, ·) <$> after? "rue" rest
    | 'f' :: rest => (bool false, ·) <$> after? "alse" rest
    | cs => number? cs

/-- The items of a list up to its closing bracket, and what follows. -/
def items? : Nat → List Char → Option (List Json × List Char)
  | 0, _ => none
  | fuel + 1, cs => do
    let (item, rest) ← value? fuel cs
    match skip rest with
    | ',' :: rest =>
      let (items, rest) ← items? fuel rest
      return (item :: items, rest)
    | ']' :: rest => return ([item], rest)
    | _ => none

/-- The fields of an object up to its closing brace, and what follows. -/
def fields? : Nat → List Char → Option (List (Option String × Json) × List Char)
  | 0, _ => none
  | fuel + 1, cs => do
    match skip cs with
    | '"' :: rest =>
      let (name?, rest) ← text? rest
      match skip rest with
      | ':' :: rest =>
        let (item, rest) ← value? fuel rest
        match skip rest with
        | ',' :: rest =>
          let (fields, rest) ← fields? fuel rest
          return ((name?, item) :: fields, rest)
        | '\x7d' :: rest => return ([(name?, item)], rest)
        | _ => none
      | _ => none
    | _ => none

end

/-- The value that a whole text spells. -/
def parse? (s : String) : Option Json := do
  let cs := s.toList
  let (j, rest) ← value? (cs.length + 1) cs
  if (skip rest).isEmpty then return j else none

/-! ## Records -/

/-- The value of a field, if it is there; fails if it is there twice. -/
def field? (fields : List (Option String × Json)) (name : String) : Option (Option Json) :=
  match fields.filter (·.1 == some name) with
  | [] => some none
  | [(_, j)] => some (some j)
  | _ => none

/-- The fields of a record, in the order of their names; a field that is not there is `none`. -/
def record? (names : List String) : Json → Option (List (Option Json))
  | object fields => if fields.all (·.1.isSome) then names.mapM (field? fields) else none
  | list items =>
    if items.length ≤ names.length then
      some (items.map some ++ List.replicate (names.length - items.length) none)
    else none
  | _ => none

/-- A number that a 64-bit word holds. -/
def word? : Json → Option Nat
  | number (some n) => if n < UInt64.size then some n else none
  | _ => none

/-- A number that a 64-bit word holds, or `standard` where it is absent. -/
def wordOr? (standard : Nat) : Option Json → Option Nat
  | none => some standard
  | some j => j.word?

/-- A text. -/
def string? : Json → Option String
  | text s? => s?
  | _ => none

/-- The items of a list. -/
def list? : Json → Option (List Json)
  | list items => some items
  | _ => none

/-- A value that may be missing: `null` and an absent field stand for none. -/
def optional? {α : Type} (read : Json → Option α) : Option Json → Option (Option α)
  | none | some null => some none
  | some j => some <$> read j

end Json

end RowStore
