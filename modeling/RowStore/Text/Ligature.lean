import RowStore.Text.CharWidth

/-! # Ligatures
Letters of some scripts are drawn as one with the letters after them. The letter that comes last in such
a form waits for a partner before it: `Waiting.fuse?` says which character is that partner, and by how many
columns it adds to the form. -/

namespace RowStore.Ligature

/-- Joins the letters around it. -/
def joiner : Char := '\u200D'

/-- Whether a character is an Arabic alef. -/
def isAlef (c : Char) : Bool :=
  Ranges.has
    [(0x622, 0x623), (0x625, 0x625), (0x627, 0x627), (0x671, 0x673), (0x675, 0x675), (0x773, 0x774),
     (0x870, 0x882)]
    c.toNat

/-- Whether a character is an Arabic lam. -/
def isLam (c : Char) : Bool :=
  Ranges.has [(0x644, 0x644), (0x6B5, 0x6B8), (0x76A, 0x76A), (0x8A6, 0x8A6), (0x8C7, 0x8C7)] c.toNat

/-- Code points that take no column and still keep the letters on their sides apart. -/
def joinBreaking : Ranges :=
  [(0x605, 0x605), (0x890, 0x891), (0x8E2, 0x8E2), (0x9BE, 0x9BE), (0x9D7, 0x9D7), (0xB3E, 0xB3E),
   (0xB57, 0xB57), (0xBBE, 0xBBE), (0xBD7, 0xBD7), (0xCC0, 0xCC0), (0xCC2, 0xCC2), (0xCC7, 0xCC8),
   (0xCCA, 0xCCB), (0xCD5, 0xCD6), (0xD3E, 0xD3E), (0xD4E, 0xD4E), (0xD57, 0xD57), (0xDCF, 0xDCF),
   (0xDDF, 0xDDF), (0x1160, 0x11FF), (0x180E, 0x180E), (0x1B35, 0x1B35), (0x1B3B, 0x1B3B),
   (0x1B3D, 0x1B3D), (0x1B43, 0x1B43), (0x200C, 0x200D), (0x2065, 0x2069), (0x302E, 0x302F),
   (0x3164, 0x3164), (0xA8FA, 0xA8FA), (0xD7B0, 0xD7C6), (0xD7CB, 0xD7FB), (0xFF9E, 0xFFA0),
   (0xFFF0, 0xFFF8), (0x111C2, 0x111C3), (0x1133E, 0x1133E), (0x11357, 0x11357), (0x114B0, 0x114B0),
   (0x114BD, 0x114BD), (0x115AF, 0x115AF), (0x11930, 0x11930), (0x1193F, 0x1193F),
   (0x11941, 0x11941), (0x11A3A, 0x11A3A), (0x11A84, 0x11A89), (0x11D46, 0x11D46),
   (0x11F02, 0x11F02), (0x1D165, 0x1D165), (0x1D16E, 0x1D172), (0xE0000, 0xE0000),
   (0xE0002, 0xE001F), (0xE0080, 0xE00FF), (0xE01F0, 0xE0FFF)]

/-- Whether Arabic letters join over a character as if it were not there. -/
def isTransparent (c : Char) : Bool :=
  CharWidth.columns c == 0 && !joinBreaking.has c.toNat

/-- Whether a character is a mark that can be ignored, and so keeps no letters apart. -/
def isIgnorableMark (c : Char) : Bool :=
  Ranges.has
    [(0x34F, 0x34F), (0x17B4, 0x17B5), (0x180B, 0x180D), (0x180F, 0x180F), (0xFE00, 0xFE0F),
     (0xE0100, 0xE01EF)]
    c.toNat

/-- Whether a character is a Khmer letter that can be written below another one. -/
def isStackable (c : Char) : Bool :=
  Ranges.has
    [(0x1780, 0x1782), (0x1784, 0x1787), (0x1789, 0x178C), (0x178E, 0x1793), (0x1795, 0x1798),
     (0x179B, 0x179D), (0x17A0, 0x17A0), (0x17A2, 0x17A2), (0x17A7, 0x17A7), (0x17AB, 0x17AC),
     (0x17AF, 0x17AF)]
    c.toNat

/-- Whether a character is a Tifinagh consonant. -/
def isTifinagh (c : Char) : Bool :=
  Ranges.has [(0x2D31, 0x2D65), (0x2D6F, 0x2D6F)] c.toNat

/-- Whether a character is the first of two Lisu letters that write one tone. -/
def isFirstTone (c : Char) : Bool :=
  Ranges.has [(0xA4F8, 0xA4FB)] c.toNat

/-- Whether a character is the second of two Lisu letters that write one tone. -/
def isSecondTone (c : Char) : Bool :=
  Ranges.has [(0xA4FC, 0xA4FD)] c.toNat

/-- What ends a form that a character before it may complete. -/
inductive Waiting where
  /-- A Hebrew lamed, for an alef. -/
  | lamed
  /-- A Khmer letter, for the sign that writes it below the letter before. -/
  | stackable
  /-- A Buginese ya, for a vowel sign. -/
  | ya
  /-- A Buginese vowel sign and ya, for a letter a. -/
  | vowelAndYa
  /-- A Tifinagh consonant, for another one or the sign between them. -/
  | consonant
  /-- The sign between two Tifinagh consonants, and the second of them. -/
  | joinedConsonant
  /-- The second of two letters for a Lisu tone. -/
  | secondTone
  /-- An Old Turkic orkhon i, for an orkhon ec. -/
  | orkhonI
  deriving DecidableEq, Repr

/-- The form that a character ends by itself. -/
def Waiting.ofChar? (c : Char) : Option Waiting :=
  if c = '\u05DC' then some lamed
  else if isStackable c then some stackable
  else if c = '\u1A10' then some ya
  else if isTifinagh c then some consonant
  else if isSecondTone c then some secondTone
  else if c = Char.ofNat 0x10C03 then some orkhonI
  else none

/-- The number of columns that a character adds to a form that ends after it, and the form that then goes
on to wait. `joined` says whether a joiner stands between the two. -/
def Waiting.fuse? (joined : Bool) (c : Char) : Waiting → Option (Int × Option Waiting)
  | lamed => if joined && c = '\u05D0' then some (0, none) else none
  | stackable => if c = '\u17D2' then some (-1, none) else none
  | ya => if joined && c = '\u1A17' then some (0, some vowelAndYa) else none
  | vowelAndYa => if c = '\u1A15' then some (0, none) else none
  | consonant =>
    if c = '\u2D7F' then some (1, some joinedConsonant)
    else if joined && isTifinagh c then some (0, none)
    else none
  | joinedConsonant => if isTifinagh c then some (-1, none) else none
  | secondTone => if isFirstTone c then some (0, none) else none
  | orkhonI => if joined && c = Char.ofNat 0x10C32 then some (0, none) else none

end RowStore.Ligature
