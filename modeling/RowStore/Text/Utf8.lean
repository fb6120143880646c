/-! # UTF-8
Texts are stored as their UTF-8 octets. `encode` writes them. `decodeLossy` reads any octets, and puts
one replacement character for each longest piece that starts no character; it takes the octets one at
a time, so it is a fold over a small state. `decode?` refuses what is not well formed. -/

namespace RowStore

/-- A sequence of octets. -/
abbrev Bytes := List UInt8

namespace Utf8

/-- The octets of a text. -/
def encode (s : String) : Bytes :=
  s.toList.flatMap String.utf8EncodeChar

@[simp] theorem encode_empty : encode "" = [] := rfl

/-- The character that stands for octets that cannot be read. -/
def replacement : Char := '\uFFFD'

/-- A character whose first octets have been read. -/
structure Unfinished where
  /-- The bits read so far. -/
  bits : Nat
  /-- How many octets are missing. -/
  missing : Nat
  /-- The least octet that may come next. -/
  low : UInt8
  /-- The greatest octet that may come next. -/
  high : UInt8
  deriving DecidableEq, Repr

/-- What a first octet begins. -/
inductive Lead where
  /-- A whole character of one octet. -/
  | whole (c : Char)
  /-- A character that goes on. -/
  | opens (p : Unfinished)
  /-- No character begins with this octet. -/
  | invalid
  deriving DecidableEq, Repr

/-- What octet `b` begins. The bounds on the next octet rule out overlong forms, surrogates and code
points above `0x10FFFF`. -/
def lead (b : UInt8) : Lead :=
  if b < 0x80 then .whole (Char.ofNat b.toNat)
  else if b < 0xC2 then .invalid
  else if b < 0xE0 then .opens ⟨b.toNat - 0xC0, 1, 0x80, 0xBF⟩
  else if b = 0xE0 then .opens ⟨0, 2, 0xA0, 0xBF⟩
  else if b = 0xED then .opens ⟨0xD, 2, 0x80, 0x9F⟩
  else if b < 0xF0 then .opens ⟨b.toNat - 0xE0, 2, 0x80, 0xBF⟩
  else if b = 0xF0 then .opens ⟨0, 3, 0x90, 0xBF⟩
  else if b < 0xF4 then .opens ⟨b.toNat - 0xF0, 3, 0x80, 0xBF⟩
  else if b = 0xF4 then .opens ⟨4, 3, 0x80, 0x8F⟩
  else .invalid

/-- Reads an octet between two characters: the characters it completes, and what it leaves open. -/
def startAt (b : UInt8) : List Char × Option Unfinished :=
  match lead b with
  | .whole c => ([c], none)
  | .opens p => ([], some p)
  | .invalid => ([replacement], none)

/-- Reads an octet. One that cannot continue the open character closes it as unreadable, and is then
read as a first octet. -/
def next (state : Option Unfinished) (b : UInt8) : List Char × Option Unfinished :=
  match state with
  | none => startAt b
  | some p =>
    if p.low ≤ b ∧ b ≤ p.high then
      let bits := p.bits * 64 + (b.toNat - 0x80)
      if p.missing = 1 then ([Char.ofNat bits], none)
      else ([], some ⟨bits, p.missing - 1, 0x80, 0xBF⟩)
    else
      let (cs, state) := startAt b
      (replacement :: cs, state)

/-- The characters read from octets, starting inside the character `state` leaves open. -/
def decodeFrom : Option Unfinished → Bytes → List Char
  | none, [] => []
  | some _, [] => [replacement]
  | state, b :: rest =>
    let (cs, state) := next state b
    cs ++ decodeFrom state rest

/-- The text of any octets, with a replacement character for what cannot be read. -/
def decodeLossy (bytes : Bytes) : String :=
  String.ofList (decodeFrom none bytes)

@[simp] theorem decodeLossy_nil : decodeLossy [] = "" := rfl

/-- The text of well-formed octets. A reading that had to replace something does not write back to the
octets it came from. -/
def decode? (bytes : Bytes) : Option String :=
  let text := decodeLossy bytes
  if encode text = bytes then some text else none

theorem encode_of_decode? {bytes : Bytes} {s : String} (h : decode? bytes = some s) :
    encode s = bytes := by
  simp only [decode?, Option.ite_none_right_eq_some, Option.some.injEq] at h
  exact h.2 ▸ h.1

end Utf8

end RowStore
