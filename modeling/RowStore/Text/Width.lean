import RowStore.Text.Emoji
import RowStore.Text.Ligature

/-! # Widths
How many columns a text takes. Characters that are drawn as one, such as the parts of an emoji, count as
what is drawn. A text is read from its end, since it is the character before a sequence whose width the
sequence decides; the reader keeps a `Following` of what it has read. -/

namespace RowStore.Width

/-- What the characters after a place make of the one before it. -/
inductive Context where
  /-- Nothing: the character stands for itself. -/
  | plain
  /-- A line feed, which a carriage return before it belongs to. -/
  | lineFeed
  /-- A skin tone. -/
  | skinTone
  /-- A picture. -/
  | picture
  /-- A joiner and a picture. -/
  | joinedPicture
  /-- A keycap, a joiner and a picture. -/
  | joinedKeycap
  /-- One letter for a flag. -/
  | flagLetter
  /-- Several letters for flags. -/
  | flagLetters
  /-- One letter for a flag, a joiner and a picture. -/
  | joinedFlagLetter
  /-- An even number of letters for flags, a joiner and a picture. -/
  | joinedFlags
  /-- An odd number, three at least, of letters for flags, a joiner and a picture. -/
  | joinedOddFlags
  /-- A number of tag letters, the end of the tags, a joiner and a picture. -/
  | tagLetters (count : Nat)
  /-- A number of tag digits, and what can follow them before a joiner and a picture. -/
  | tagDigits (count : Nat)
  /-- An Arabic alef. -/
  | alef
  /-- The end of another ligature, and whether a joiner stands before it. -/
  | ligature (ending : Ligature.Waiting) (joined : Bool)
  deriving DecidableEq, Repr

/-- How a selector shows the character before it. -/
inductive Style where
  | text
  | picture
  deriving DecidableEq, Repr

/-- What follows a place in a text. -/
structure Following where
  context : Context := .plain
  /-- The style that the selector right after the place asks for. -/
  style : Option Style := none
  deriving DecidableEq, Repr

namespace Context

/-- Whether selectors leave a context as it is. -/
def isLigature : Context → Bool
  | alef | ligature .. => true
  | _ => false

/-- Whether a picture before the context joins the picture in it. -/
def joinsPicture : Context → Bool
  | joinedPicture | joinedKeycap => true
  | _ => false

/-- What a character is to the one before it. -/
def ofChar (c : Char) : Context :=
  if c = '\n' then lineFeed
  else if Ligature.isAlef c then alef
  else if Emoji.isFlagLetter c then flagLetter
  else if Emoji.isSkinTone c then skinTone
  else if Emoji.isPictorial c then picture
  else
    match Ligature.Waiting.ofChar? c with
    | some ending => ligature ending false
    | none => plain

/-- The context before a selector. -/
def select (style : Style) (k : Context) : Following :=
  match style with
  | .text => ⟨if k.isLigature then k else plain, some .text⟩
  | .picture => ⟨if k.isLigature || k.joinsPicture then k else plain, some .picture⟩

/-- The number of columns that a character adds to a sequence after it that it belongs to, and the context
before it. -/
def extend? (c : Char) : Context → Option (Int × Context)
  | plain => none
  | lineFeed => if c = '\r' then some (0, plain) else none
  | skinTone =>
    if Emoji.isBody c then some (0, picture)
    else if c = Emoji.joiner then some (0, joinedPicture)
    else none
  | picture => if c = Emoji.joiner then some (0, joinedPicture) else none
  | joinedPicture =>
    if c = Emoji.keycap then some (0, joinedKeycap)
    else if Emoji.isFlagLetter c then some (1, joinedFlagLetter)
    else if Emoji.isSkinTone c then some (0, skinTone)
    else if c = Emoji.tagEnd then some (0, tagLetters 0)
    else if Emoji.isPictorial c then some (0, picture)
    else none
  | joinedKeycap => none
  | flagLetter => if Emoji.isFlagLetter c then some (1, flagLetters) else none
  | flagLetters =>
    if Emoji.isFlagLetter c then some (1, flagLetters)
    else if c = Emoji.joiner then some (0, joinedPicture)
    else none
  | joinedFlagLetter => if Emoji.isFlagLetter c then some (-1, joinedFlags) else none
  | joinedFlags =>
    if Emoji.isFlagLetter c then some (3, joinedOddFlags)
    else if c = Emoji.joiner then some (0, joinedPicture)
    else none
  | joinedOddFlags =>
    if Emoji.isFlagLetter c then some (-1, joinedFlags)
    else if c = Emoji.joiner then some (0, joinedPicture)
    else none
  | tagLetters n =>
    if n < 6 && Emoji.isTagLetter c then some (0, tagLetters (n + 1))
    else if n < 5 && Emoji.isTagDigit c then some (0, tagDigits 1)
    else if 3 ≤ n && c = Emoji.blackFlag then some (0, picture)
    else none
  | tagDigits n =>
    if n < 3 && Emoji.isTagDigit c then some (0, tagDigits (n + 1))
    else if n = 3 && c = Emoji.blackFlag then some (0, picture)
    else none
  | alef =>
    if Ligature.isLam c then some (0, plain)
    else if Ligature.isTransparent c then some (0, alef)
    else none
  | ligature ending joined =>
    if c = Ligature.joiner then some (0, ligature ending true)
    else if Ligature.isIgnorableMark c then some (0, ligature ending joined)
    else
      match ending.fuse? joined c with
      | some (columns, some ending) => some (columns, ligature ending true)
      | some (columns, none) => some (columns, plain)
      | none => none

end Context

/-- The number of columns that a character adds to the text after it, and what then follows the place
before it. -/
def step (c : Char) (f : Following) : Int × Following :=
  if f.style = some .picture ∧ Emoji.takesPicture c then
    (if f.context.joinsPicture then 0 else 2, ⟨.picture, none⟩)
  else
    let k := if f.style = none ∨ f.context.isLigature then f.context else .plain
    if c = Emoji.pictureSelector then (0, k.select .picture)
    else if c = Emoji.textSelector then (0, k.select .text)
    else if f.style = some .text ∧ Emoji.takesText c then (1, ⟨.plain, none⟩)
    else
      match k.extend? c with
      | some (columns, k) => (columns, ⟨k, none⟩)
      | none => (CharWidth.columns c, ⟨.ofChar c, none⟩)

/-- The number of columns that characters take, and what they are to a character before them. -/
def measure (cs : List Char) : Int × Following :=
  cs.foldr (fun c (columns, f) => let (more, f) := step c f; (columns + more, f)) (0, {})

/-- Where a text stands in a sequence that sets colours: an escape character, a bracket, and all up to
the letter `m`. -/
inductive Colour where
  | outside
  | escape
  | inside
  deriving DecidableEq

/-- One for a character that takes up columns by itself. -/
def visible (c : Char) : Nat :=
  if CharWidth.isControl c || CharWidth.columns c == 0 then 0 else 1

/-- The number of visible characters of sequences that set colours. -/
def hidden : Colour → List Char → Nat
  | _, [] => 0
  | .outside, c :: cs => hidden (if c = '\x1b' then .escape else .outside) cs
  | .escape, c :: cs => if c = '[' then hidden .inside cs + 1 else hidden .outside cs
  | .inside, c :: cs => hidden (if c = 'm' then .outside else .inside) cs + visible c

/-- The number of columns that a text takes. What sets colours takes none, but for the columns of
controls in it and the second columns of wide characters. -/
def ofText (s : String) : Nat :=
  (measure s.toList).1.toNat - hidden .outside s.toList

end RowStore.Width
