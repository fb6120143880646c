import RowStore.Text.Quoted

/-! # Values and column types
A column holds 32-bit integers, or texts of at most a fixed number of octets. -/

namespace RowStore

/-- What a column holds. -/
inductive ColumnType where
  /-- Signed 32-bit integers. -/
  | int
  /-- Texts of at most `width` octets. -/
  | text (width : Nat)
  deriving DecidableEq, Repr, Inhabited

namespace ColumnType

/-- The number of octets that store the length of a text. -/
def lengthSize : Nat := 4

/-- The number of octets that every value of the type takes. -/
def size : ColumnType → Nat
  | int => 4
  | text width => lengthSize + width

/-- The name of the type. -/
def name : ColumnType → String
  | int => "int"
  | text width => "string(" ++ toString width ++ ")"

/-- The number of octets that values of the types take one after another. -/
def totalSize (types : List ColumnType) : Nat :=
  types.foldr (·.size + ·) 0

@[simp] theorem totalSize_nil : totalSize [] = 0 := rfl

@[simp] theorem totalSize_cons (t : ColumnType) (types : List ColumnType) :
    totalSize (t :: types) = t.size + totalSize types := rfl

@[simp] theorem totalSize_append (types more : List ColumnType) :
    totalSize (types ++ more) = totalSize types + totalSize more := by
  induction types with
  | nil => simp
  | cons t types ih => simp [ih, Nat.add_assoc]

end ColumnType

/-- What a field holds. -/
inductive Value where
  | int (n : Int32)
  | text (s : String)
  deriving DecidableEq, Inhabited

namespace Value

/-- The narrowest type a value fits. -/
def type : Value → ColumnType
  | int _ => .int
  | text s => .text s.utf8ByteSize

/-- Whether a value can be stored in a column of a type. -/
def fits : Value → ColumnType → Bool
  | int _, .int => true
  | text s, .text width => s.utf8ByteSize ≤ width
  | _, _ => false

@[simp] theorem fits_type (v : Value) : v.fits v.type = true := by
  cases v <;> simp [fits, type]

/-- A value as it is shown in a table. -/
def render : Value → String
  | int n => toString n.toInt
  | text s => s

/-- A value as messages show it, with its kind. -/
def describe : Value → String
  | int n => "Int(" ++ toString n.toInt ++ ")"
  | text s => "String(" ++ Quoted.text s ++ ")"

/-- Every integer comes before every text; texts are ordered by their code points, which is the order
of their octets. -/
def cmp : Value → Value → Ordering
  | int m, int n => compare m.toInt n.toInt
  | int _, text _ => .lt
  | text _, int _ => .gt
  | text s, text t => compare s t

instance : Ord Value := ⟨cmp⟩

end Value

end RowStore
