import Mathlib.Algebra.Group.Nat.Defs
import Mathlib.Data.List.Forall2
import Mathlib.Data.List.TakeWhile
import RowStore.Value.TypeName

/-! # The grammar of type names
A text names a type if it is one of five words in any ASCII case, with blanks around it; the words for
texts may be followed by a width in parentheses (`ColumnType.Names`). The same texts are those in which a
pattern finds parts (`ColumnType.Matches`) that a type is made of (`ColumnType.ofMatch`). The pattern
knows the letters and digits of Unicode, and what is made of the parts only those of ASCII: a text that is
taken by the one and refused by the other names nothing. Main statement: `ColumnType.parse_exact`. -/

namespace RowStore

/-- Whether all characters are blanks. -/
def Blanks (cs : List Char) : Prop :=
  ∀ c ∈ cs, isBlank c = true

namespace ColumnType

/-- The names of the type of integers. -/
def intNames : List String := ["int", "integer"]

/-- The names of the types of texts. -/
def textNames : List String := ["string", "char", "varchar"]

/-- A word with its ASCII letters in lower case. -/
def lower (word : List Char) : String :=
  String.ofList (word.map Char.toLower)

/-! ## The grammar -/

/-- How a text names a type. -/
inductive Names : List Char → ColumnType → Prop where
  | int {before word after : List Char} (start : Blanks before) (named : lower word ∈ intNames)
      (stop : Blanks after) : Names (before ++ (word ++ after)) .int
  | text {before word after : List Char} (start : Blanks before) (named : lower word ∈ textNames)
      (stop : Blanks after) : Names (before ++ (word ++ after)) (.text 128)
  | textOf {before word gap left digits right after : List Char} (start : Blanks before)
      (named : lower word ∈ textNames) (between : Blanks gap) (opened : Blanks left)
      (some_digit : digits ≠ []) (digit : ∀ d ∈ digits, d.isDigit = true)
      (narrow : Nat.ofDigitChars 10 digits 0 ≤ 2 ^ 32 - 1) (closed : Blanks right)
      (stop : Blanks after) :
      Names (before ++ (word ++ (gap ++ '(' :: (left ++ (digits ++ (right ++ ')' :: after))))))
        (.text (Nat.ofDigitChars 10 digits 0))

/-! ## The pattern -/

/-- A class of decimal digits: of the ASCII characters just `0` to `9`, and no blanks. -/
structure DigitClass where
  contains : Char → Prop
  ascii : ∀ c, c.toNat < 128 → (contains c ↔ c.isDigit = true)
  not_blank : ∀ c, contains c → isBlank c = false

/-- Whether a character is a small ASCII letter in some case. The long s and the Kelvin sign are the
only other characters that have an ASCII letter as their lower case. -/
def SameLetter (letter c : Char) : Prop :=
  c.toLower = letter ∨ letter = 's' ∧ c = 'ſ' ∨ letter = 'k' ∧ c = '\u212A'

/-- What the pattern of a type's name finds in a text: a word, and digits if a width follows it. -/
inductive Matches (D : DigitClass) : List Char → List Char → Option (List Char) → Prop where
  | word {before word after : List Char} {name : String} (start : Blanks before)
      (named : name ∈ intNames ++ textNames) (spelled : List.Forall₂ SameLetter name.toList word)
      (stop : Blanks after) : Matches D (before ++ (word ++ after)) word none
  | wordOf {before word gap left digits right after : List Char} {name : String} (start : Blanks before)
      (named : name ∈ intNames ++ textNames) (spelled : List.Forall₂ SameLetter name.toList word)
      (between : Blanks gap) (opened : Blanks left) (some_digit : digits ≠ [])
      (digit : ∀ d ∈ digits, D.contains d) (closed : Blanks right) (stop : Blanks after) :
      Matches D (before ++ (word ++ (gap ++ '(' :: (left ++ (digits ++ (right ++ ')' :: after))))))
        word (some digits)

/-- The 64-bit number that characters spell: ASCII digits, perhaps behind a plus sign. -/
def word64? (cs : List Char) : Option Nat :=
  let digits := if cs.head? = some '+' then cs.tail else cs
  if digits ≠ [] ∧ digits.all Char.isDigit ∧ Nat.ofDigitChars 10 digits 0 < 2 ^ 64 then
    some (Nat.ofDigitChars 10 digits 0)
  else none

/-- The type that a word names with a width, or without. -/
def ofWord (word : String) (width? : Option Nat) : Option ColumnType :=
  if word ∈ intNames ∧ width? = none then some .int
  else if word ∈ textNames then
    let width := width?.getD defaultWidth
    if width < 2 ^ 32 ∧ width + lengthSize < 2 ^ 64 then some (.text width) else none
  else none

/-- The type that is made of what the pattern has found. -/
def ofMatch (word : List Char) : Option (List Char) → Option ColumnType
  | none => ofWord (lower word) none
  | some digits => (word64? digits).bind fun width => ofWord (lower word) (some width)

end ColumnType

/-! ## Runs of characters -/

section Runs

variable {cs rest : List Char} {c : Char} {p : Char → Bool}

theorem takeWhile_append_of_stop (all : ∀ d ∈ cs, p d = true) (stop : ∀ c ∈ rest.head?, p c = false) :
    (cs ++ rest).takeWhile p = cs := by
  rw [List.takeWhile_append_of_pos all]
  cases rest with
  | nil => simp
  | cons c rest => simp [stop c rfl]

theorem dropWhile_append_of_stop (all : ∀ d ∈ cs, p d = true) (stop : ∀ c ∈ rest.head?, p c = false) :
    (cs ++ rest).dropWhile p = rest := by
  rw [List.dropWhile_append_of_pos all]
  cases rest with
  | nil => rfl
  | cons c rest => exact List.dropWhile_cons_of_neg (by simp [stop c rfl])

/-- Characters that are not all of a class begin with a run of it, and a character that ends the run. -/
theorem exists_stop (others : ¬ ∀ d ∈ cs, p d = true) :
    ∃ run c rest, cs = run ++ c :: rest ∧ (∀ d ∈ run, p d = true) ∧ p c = false := by
  induction cs with
  | nil => exact absurd nofun others
  | cons d cs ih =>
    by_cases here : p d = true
    · obtain ⟨run, c, rest, rfl, all, stop⟩ := ih fun all => others (List.forall_mem_cons.mpr ⟨here, all⟩)
      exact ⟨d :: run, c, rest, rfl, List.forall_mem_cons.mpr ⟨here, all⟩, stop⟩
    · exact ⟨[], d, cs, rfl, nofun, by simpa using here⟩

theorem dropBlanks_append (blank : Blanks cs) : dropBlanks (cs ++ rest) = dropBlanks rest :=
  List.dropWhile_append_of_pos blank

theorem dropBlanks_cons (here : isBlank c = false) : dropBlanks (c :: rest) = c :: rest :=
  List.dropWhile_cons_of_neg (by simp [here])

theorem dropBlanks_of_head (here : ∀ c ∈ cs.head?, isBlank c = false) : dropBlanks cs = cs := by
  cases cs with
  | nil => rfl
  | cons c cs => exact dropBlanks_cons (here c rfl)

theorem dropBlanks_append_of_plain {before : List Char} (blank : Blanks before) (some_char : cs ≠ [])
    (plain : ∀ c ∈ cs, isBlank c = false) : dropBlanks (before ++ (cs ++ rest)) = cs ++ rest := by
  rw [dropBlanks_append blank]
  refine dropBlanks_of_head fun c here => ?_
  rw [List.head?_append_of_ne_nil _ some_char] at here
  exact plain c (List.mem_of_mem_head? here)

/-- Blanks end a run of a class that has no blanks. -/
theorem stop_of_blanks (plain : ∀ c, p c = true → isBlank c = false) (blank : Blanks cs)
    (stop : ∀ c ∈ rest.head?, p c = false) : ∀ c ∈ (cs ++ rest).head?, p c = false := by
  cases cs with
  | nil => exact stop
  | cons d cs =>
    rintro _ ⟨⟩
    refine Bool.eq_false_iff.mpr fun here => ?_
    exact Bool.false_ne_true ((plain d here).symm.trans (blank d (.head _)))

theorem dropBlanks_eq_nil_iff : dropBlanks cs = [] ↔ Blanks cs :=
  List.dropWhile_eq_nil_iff

/-- A text is what is left without its first blanks, behind these. -/
theorem exists_blanks (cs : List Char) : ∃ before, Blanks before ∧ cs = before ++ dropBlanks cs :=
  ⟨cs.takeWhile isBlank, fun _ mem => List.mem_takeWhile_imp mem, List.takeWhile_append_dropWhile.symm⟩

/-- The ASCII characters that are seen are no blanks. -/
theorem isBlank_of_seen (low : 0x20 < c.toNat) (high : c.toNat < 0x7F) : isBlank c = false := by
  simp only [isBlank, Bool.or_eq_false_iff, Bool.and_eq_false_iff, decide_eq_false_iff_not,
    beq_eq_false_iff_ne]
  omega

theorem isBlank_digit (digit : c.isDigit = true) : isBlank c = false := by
  have bounds := Char.isDigit_iff_toNat.mp digit
  simp only [Char.reduceToNat] at bounds
  exact isBlank_of_seen (by omega) (by omega)

theorem isAlpha_iff : c.isAlpha = true ↔
    65 ≤ c.toNat ∧ c.toNat ≤ 90 ∨ 97 ≤ c.toNat ∧ c.toNat ≤ 122 := by
  show (decide ('A'.val ≤ c.val ∧ c.val ≤ 'Z'.val) || (decide ('a'.val ≤ c.val) && decide (c.val ≤ 'z'.val)))
    = true ↔ _
  simp [UInt32.le_iff_toNat_le]

theorem isBlank_alpha (alpha : c.isAlpha = true) : isBlank c = false := by
  have bounds := isAlpha_iff.mp alpha
  exact isBlank_of_seen (by omega) (by omega)

/-- Only letters are letters in lower case. -/
theorem isAlpha_of_toLower (alpha : c.toLower.isAlpha = true) : c.isAlpha = true := by
  by_cases upper : 'A'.val ≤ c.val ∧ c.val ≤ 'Z'.val
  · exact isAlpha_iff.mpr (.inl (by simpa [UInt32.le_iff_toNat_le] using upper))
  · have same : c.toLower = c := dif_neg upper
    rwa [same] at alpha

end Runs

namespace ColumnType

variable {D : DigitClass} {cs word rest digits : List Char} {c : Char} {s : String}

/-! ## What follows a word -/

theorem digitsValue_eq (ds : List Char) : digitsValue ds = Nat.ofDigitChars 10 ds 0 :=
  Nat.ofDigitChars_eq_foldl.symm

theorem width?_of_blanks (blank : Blanks cs) : width? cs = some none := by
  rw [width?, dropBlanks_eq_nil_iff.mpr blank]

theorem width?_of_stop (here : isBlank c = false) (ne : c ≠ '(') : width? (c :: rest) = none := by
  rw [width?, dropBlanks_cons here]
  split
  · next eq => cases eq
  · next eq => exact absurd (List.cons.inj eq).1 ne
  · rfl

/-- A width in parentheses is read if it is made of ASCII digits. -/
theorem width?_of_parentheses {gap left right after : List Char} (between : Blanks gap)
    (opened : Blanks left) (some_digit : digits ≠ [])
    (digit : ∀ d ∈ digits, isBlank d = false ∧ d ≠ ')') (closed : Blanks right) (stop : Blanks after) :
    width? (gap ++ '(' :: (left ++ (digits ++ (right ++ ')' :: after)))) =
      if digits.all Char.isDigit then some (some (Nat.ofDigitChars 10 digits 0)) else none := by
  simp only [width?, dropBlanks_append between, dropBlanks_cons (rfl : isBlank '(' = false),
    dropBlanks_append_of_plain opened some_digit fun d mem => (digit d mem).1]
  by_cases all : ∀ d ∈ digits, d.isDigit = true
  · rw [if_pos (List.all_eq_true.mpr all)]
    have last : ∀ c ∈ (right ++ ')' :: after).head?, c.isDigit = false :=
      stop_of_blanks (fun _ => isBlank_digit) closed (by rintro _ ⟨⟩; rfl)
    obtain ⟨d, ds, rfl⟩ := List.exists_cons_of_ne_nil some_digit
    rw [takeWhile_append_of_stop all last, dropWhile_append_of_stop all last, dropBlanks_append closed,
      dropBlanks_cons (rfl : isBlank ')' = false)]
    show (if (dropBlanks after).isEmpty = true then some (some (digitsValue (d :: ds))) else none) = _
    rw [dropBlanks_eq_nil_iff.mpr stop, digitsValue_eq]
    rfl
  · rw [if_neg (mt List.all_eq_true.mp all)]
    obtain ⟨run, c, others, rfl, ascii, stop⟩ := exists_stop all
    obtain ⟨plain, ne⟩ := digit c (List.mem_append_right _ (.head _))
    have split : run ++ c :: others ++ (right ++ ')' :: after)
        = run ++ c :: (others ++ (right ++ ')' :: after)) := by simp
    rw [split, takeWhile_append_of_stop ascii (by simpa using stop),
      dropWhile_append_of_stop ascii (by simpa using stop), dropBlanks_cons plain]
    -- the character that is no ASCII digit is not the parenthesis either
    split
    · next eq => exact absurd (List.cons.inj eq).1 ne
    · rfl

/-- What can be read behind a word is nothing but blanks, or a width in parentheses. -/
theorem exists_of_width? {w? : Option Nat} (h : width? cs = some w?) :
    (w? = none ∧ Blanks cs) ∨ ∃ gap left digits right after, Blanks gap ∧ Blanks left ∧ digits ≠ [] ∧
      (∀ d ∈ digits, d.isDigit = true) ∧ Blanks right ∧ Blanks after ∧
      w? = some (Nat.ofDigitChars 10 digits 0) ∧
      cs = gap ++ '(' :: (left ++ (digits ++ (right ++ ')' :: after))) := by
  rw [width?] at h
  split at h
  · next nothing => exact .inl ⟨(Option.some.inj h).symm, dropBlanks_eq_nil_iff.mp nothing⟩
  · next rest opened =>
    dsimp only at h
    split at h
    · next d ds others digits closed =>
      rw [Option.ite_none_right_eq_some] at h
      obtain ⟨ended, h⟩ := h
      obtain ⟨gap, between, eq⟩ := exists_blanks cs
      obtain ⟨left, opening, eq'⟩ := exists_blanks rest
      obtain ⟨right, closing, eq''⟩ := exists_blanks ((dropBlanks rest).dropWhile Char.isDigit)
      refine .inr ⟨gap, left, d :: ds, right, others, between, opening, List.cons_ne_nil _ _, ?_, closing,
        dropBlanks_eq_nil_iff.mp (List.isEmpty_iff.mp ended), ?_, ?_⟩
      · exact fun c mem => List.mem_takeWhile_imp (digits ▸ mem)
      · rw [← Option.some.inj h, digits, digitsValue_eq]
      · rw [← closed, ← eq'', ← digits, List.takeWhile_append_dropWhile, ← eq', ← opened, ← eq]
    · cases h
  · cases h

/-! ## The words -/

/-- The two kinds of names have no name in common. -/
theorem not_mem_intNames {name : String} (named : name ∈ textNames) : name ∉ intNames := by
  revert name
  decide

/-- A width that fits into the length of a text leaves room for this length. -/
theorem fits_iff {width : Nat} : (width < 2 ^ 32 ∧ width + lengthSize < 2 ^ 64) ↔ width ≤ maxWidth := by
  rw [lengthSize, maxWidth, UInt32.size]
  omega

theorem ofWord_eq_some_iff {name : String} {w? : Option Nat} {t : ColumnType} :
    ofWord name w? = some t ↔ (name ∈ intNames ∧ w? = none ∧ t = .int) ∨
      (name ∈ textNames ∧ w?.getD defaultWidth ≤ maxWidth ∧ t = .text (w?.getD defaultWidth)) := by
  simp only [ofWord, fits_iff]
  by_cases text : name ∈ textNames
  · simp [text, not_mem_intNames text, eq_comm]
  · simp [text, and_assoc, eq_comm]

/-- What is read is the type that the first word of the text and its width make. -/
theorem parse?_eq (s : String) : parse? s =
    (width? ((dropBlanks s.toList).dropWhile Char.isAlpha)).bind
      (ofWord (lower ((dropBlanks s.toList).takeWhile Char.isAlpha))) := by
  rw [parse?, ← lower]
  generalize lower _ = name
  cases width? _ with
  | none => rfl
  | some w? =>
    cases w? with
    | none => simp [ofWord, intNames, textNames, defaultWidth, lengthSize]
    | some width =>
      simp only [Option.bind_some, ofWord, fits_iff, reduceCtorEq, and_false, if_false, ite_and]
      rfl

/-- The names are made of letters. -/
theorem isAlpha_of_mem_names {name : String} (named : name ∈ intNames ++ textNames) :
    name.toList ≠ [] ∧ ∀ c ∈ name.toList, c.isAlpha = true := by
  have all : (intNames ++ textNames).all fun name =>
      name.toList ≠ [] ∧ name.toList.all Char.isAlpha = true := by decide +kernel
  simpa using List.all_eq_true.mp all name named

theorem isAlpha_of_lower (named : lower word ∈ intNames ++ textNames) : ∀ c ∈ word, c.isAlpha = true := by
  intro c mem
  refine isAlpha_of_toLower ?_
  exact (isAlpha_of_mem_names named).2 _ (by rw [lower, String.toList_ofList]; exact List.mem_map_of_mem mem)

/-- The characters that spell a letter are no blanks and no parentheses. -/
theorem SameLetter.plain {letter : Char} (same : SameLetter letter c) (alpha : letter.isAlpha = true) :
    isBlank c = false ∧ c ≠ '(' := by
  obtain rfl | ⟨-, rfl⟩ | ⟨-, rfl⟩ := same
  · refine ⟨isBlank_alpha (isAlpha_of_toLower alpha), ?_⟩
    rintro rfl
    exact absurd alpha (by decide)
  · decide
  · decide

theorem plain_of_spelled {letters : List Char} (alpha : ∀ c ∈ letters, c.isAlpha = true)
    (spelled : List.Forall₂ SameLetter letters word) : ∀ c ∈ word, isBlank c = false ∧ c ≠ '(' := by
  induction spelled with
  | nil => exact nofun
  | cons same _ ih =>
    rw [List.forall_mem_cons] at alpha ⊢
    exact ⟨same.plain alpha.1, ih alpha.2⟩

theorem ofWord_of_foreign (foreign : ¬ ∀ c ∈ word, c.isAlpha = true) (w? : Option Nat) :
    ofWord (lower word) w? = none := by
  refine Option.eq_none_iff_forall_ne_some.mpr fun t made => foreign (isAlpha_of_lower ?_)
  rw [List.mem_append]
  exact (ofWord_eq_some_iff.mp made).imp And.left And.left

/-- Where a text spells a name, the type that this name makes with what follows it is read. A spelling with
other characters than ASCII letters makes none. -/
theorem parse?_of_spelled {name : String} {before : List Char} (eq : s.toList = before ++ (word ++ rest))
    (start : Blanks before) (named : name ∈ intNames ++ textNames)
    (spelled : List.Forall₂ SameLetter name.toList word) (follows : ∀ c ∈ rest.head?, c.isAlpha = false) :
    parse? s = (width? rest).bind (ofWord (lower word)) := by
  obtain ⟨some_letter, letters⟩ := isAlpha_of_mem_names named
  have plain := plain_of_spelled letters spelled
  have some_char : word ≠ [] := by
    rintro rfl
    exact some_letter (List.forall₂_nil_right_iff.mp spelled)
  rw [parse?_eq, eq, dropBlanks_append_of_plain start some_char fun c mem => (plain c mem).1]
  by_cases alpha : ∀ c ∈ word, c.isAlpha = true
  · rw [takeWhile_append_of_stop alpha follows, dropWhile_append_of_stop alpha follows]
  · -- the letters end inside the word, at a character that can follow none
    obtain ⟨run, c, others, rfl, letter, stop⟩ := exists_stop alpha
    obtain ⟨here, ne⟩ := plain c (List.mem_append_right _ (.head _))
    rw [List.append_assoc, List.cons_append, dropWhile_append_of_stop letter (by simpa using stop),
      width?_of_stop here ne, funext (ofWord_of_foreign alpha)]
    simp

/-! ## The pattern and the grammar -/

/-- The ASCII digits and the Arabic-Indic ones. -/
def arabicIndic : DigitClass where
  contains c := c.isDigit = true ∨ 0x660 ≤ c.toNat ∧ c.toNat ≤ 0x669
  ascii c low := or_iff_left (by omega)
  not_blank c digit := by
    obtain ascii | bounds := digit
    · exact isBlank_digit ascii
    · simp only [isBlank, Bool.or_eq_false_iff, Bool.and_eq_false_iff, decide_eq_false_iff_not,
        beq_eq_false_iff_ne]
      omega

theorem DigitClass.ne {d : Char} (digit : D.contains d) (low : c.toNat < 128) (other : c.isDigit = false) :
    d ≠ c := by
  rintro rfl
  exact Bool.false_ne_true (other.symm.trans ((D.ascii d low).mp digit))

/-- Digits make the type of the number that they spell if all are ASCII digits. A number of more than 64
bits is not read, but is too wide in any case. -/
theorem ofMatch_digits (digit : ∀ d ∈ digits, D.contains d) (some_digit : digits ≠ []) :
    ofMatch word (some digits) = if digits.all Char.isDigit then
      ofWord (lower word) (some (Nat.ofDigitChars 10 digits 0)) else none := by
  have no_sign : digits.head? ≠ some '+' := fun sign =>
    DigitClass.ne (digit '+' (List.mem_of_mem_head? sign)) (by decide) (by decide) rfl
  simp only [ofMatch, word64?, if_neg no_sign]
  by_cases ascii : digits.all Char.isDigit = true
  · by_cases narrow : Nat.ofDigitChars 10 digits 0 < 2 ^ 64
    · simp only [some_digit, ascii, narrow, ne_eq, not_false_eq_true, true_and, if_true, Option.bind_some]
    · have wide (t : ColumnType) : ofWord (lower word) (some (Nat.ofDigitChars 10 digits 0)) ≠ some t := by
        rw [ne_eq, ofWord_eq_some_iff]
        rintro (⟨-, none_some, -⟩ | ⟨-, fits, -⟩)
        · cases none_some
        · rw [Option.getD_some, maxWidth, UInt32.size] at fits
          omega
      simp only [narrow, and_false, if_false, Option.bind_none, if_pos ascii]
      exact (Option.eq_none_iff_forall_ne_some.mpr wide).symm
  · simp [ascii]

/-- What the parser reads is what is made of the parts that the pattern finds. -/
theorem parse?_of_matches {digits? : Option (List Char)} (found : Matches D s.toList word digits?) :
    parse? s = ofMatch word digits? := by
  generalize eq : s.toList = cs at found
  cases found with
  | word start named spelled stop =>
    rw [parse?_of_spelled eq start named spelled, width?_of_blanks stop]
    · rfl
    · have ended : ∀ c ∈ ([] : List Char).head?, c.isAlpha = false := nofun
      simpa using stop_of_blanks (fun _ => isBlank_alpha) stop ended
  | wordOf start named spelled between opened some_digit digit closed stop =>
    rw [parse?_of_spelled eq start named spelled, ofMatch_digits digit some_digit,
      width?_of_parentheses between opened some_digit _ closed stop]
    · split <;> rfl
    · exact fun d mem => ⟨D.not_blank d (digit d mem), DigitClass.ne (digit d mem) (by decide) (by decide)⟩
    · exact stop_of_blanks (fun _ => isBlank_alpha) between (by rintro _ ⟨⟩; rfl)

theorem names_of_parse? {t : ColumnType} (read : parse? s = some t) : Names s.toList t := by
  rw [parse?_eq, Option.bind_eq_some_iff] at read
  obtain ⟨w?, follows, made⟩ := read
  -- the text is blanks, the letters behind them, and the rest
  obtain ⟨before, start, eq⟩ := exists_blanks s.toList
  rw [eq, ← List.takeWhile_append_dropWhile (p := Char.isAlpha) (l := dropBlanks s.toList)]
  generalize (dropBlanks s.toList).takeWhile Char.isAlpha = word at made ⊢
  generalize (dropBlanks s.toList).dropWhile Char.isAlpha = rest at follows ⊢
  obtain ⟨rfl, stop⟩ | ⟨gap, left, digits, right, after, between, opened, some_digit, digit, closed, stop,
    rfl, rfl⟩ := exists_of_width? follows
  · obtain ⟨named, -, rfl⟩ | ⟨named, -, rfl⟩ := ofWord_eq_some_iff.mp made
    · exact .int start named stop
    · exact .text start named stop
  · obtain ⟨-, unwritten, -⟩ | ⟨named, narrow, rfl⟩ := ofWord_eq_some_iff.mp made
    · cases unwritten
    · exact .textOf start named between opened some_digit digit narrow closed stop

theorem sameLetter_toLower (word : List Char) : List.Forall₂ SameLetter (lower word).toList word := by
  rw [lower, String.toList_ofList, List.forall₂_map_left_iff, List.forall₂_same]
  exact fun _ _ => .inl rfl

/-- In a text that names a type, the pattern finds parts that this type is made of. -/
theorem Names.exists_matches (D : DigitClass) {t : ColumnType} (names : Names cs t) :
    ∃ word digits?, Matches D cs word digits? ∧ ofMatch word digits? = some t := by
  cases names with
  | int start named stop =>
    exact ⟨_, none, .word start (List.mem_append_left _ named) (sameLetter_toLower _) stop,
      ofWord_eq_some_iff.mpr (.inl ⟨named, rfl, rfl⟩)⟩
  | text start named stop =>
    exact ⟨_, none, .word start (List.mem_append_right _ named) (sameLetter_toLower _) stop,
      ofWord_eq_some_iff.mpr (.inr ⟨named, by decide, rfl⟩)⟩
  | @textOf _ _ _ _ digits _ _ start named between opened some_digit digit narrow closed stop =>
    have inClass : ∀ d ∈ digits, D.contains d := fun d mem => by
      have bounds := Char.isDigit_iff_toNat.mp (digit d mem)
      simp only [Char.reduceToNat] at bounds
      exact (D.ascii d (by omega)).mpr (digit d mem)
    refine ⟨_, some digits, .wordOf start (List.mem_append_right _ named) (sameLetter_toLower _) between
      opened some_digit inClass closed stop, ?_⟩
    rw [ofMatch_digits inClass some_digit, if_pos (List.all_eq_true.mpr digit)]
    exact ofWord_eq_some_iff.mpr (.inr ⟨named, narrow, rfl⟩)

theorem parse?_eq_some_iff {t : ColumnType} : parse? s = some t ↔ Names s.toList t := by
  refine ⟨names_of_parse?, fun names => ?_⟩
  obtain ⟨word, digits?, found, made⟩ := names.exists_matches arabicIndic
  rw [parse?_of_matches found, made]

/-- The width of a text type is shown as a number that names it. -/
theorem names_name_text {width : Nat} (narrow : width ≤ 2 ^ 32 - 1) :
    Names (ColumnType.text width).name.toList (.text width) := by
  have shown : (ColumnType.text width).name.toList =
      [] ++ ("string".toList ++ ([] ++ '(' :: ([] ++ (Nat.toDigits 10 width ++ ([] ++ ')' :: []))))) := by
    simp [name]
  have value := Nat.ofDigitChars_ten_toDigits (n := width)
  rw [shown]
  -- the width as the value of its digits, but not inside the digits
  nth_rewrite 2 [← value]
  have digit : ∀ d ∈ Nat.toDigits 10 width, d.isDigit = true := fun _ mem =>
    Nat.isDigit_of_mem_toDigits (by decide) (by decide) mem
  exact .textOf nofun (by decide +kernel) nofun nofun Nat.toDigits_ne_nil digit (value.symm ▸ narrow)
    nofun nofun

/-- A type that has a name is named by the text that shows it. -/
theorem Names.name {t : ColumnType} (names : Names cs t) : Names t.name.toList t := by
  cases names with
  | int =>
    have bare : Names ([] ++ ("int".toList ++ [])) .int := .int nofun (by decide +kernel) nofun
    simpa [ColumnType.name] using bare
  | text => exact names_name_text (by decide)
  | textOf _ _ _ _ _ _ narrow => exact names_name_text narrow

theorem parse_of_none (unread : parse? s = none) : parse s = .error (.invalidType s) := by
  rw [parse, unread]

theorem parse_eq_ok_iff {t : ColumnType} : parse s = .ok t ↔ Names s.toList t := by
  rw [← parse?_eq_some_iff, parse]
  cases parse? s <;> simp

/-- **The texts that name a type.** Whatever the text, the parser takes it as the type that it names, and
gives it back in the error if it names none. That is just what is made of the parts that the pattern finds,
whatever digits the pattern knows besides those of ASCII, and an error where it finds none. A type that was
read is read again from the text that shows it. -/
theorem parse_exact (D : DigitClass) (s : String) :
    (∀ t, parse s = .ok t ↔ Names s.toList t) ∧
      ((¬ ∃ t, Names s.toList t) → parse s = .error (.invalidType s)) ∧
      (∀ word digits?, Matches D s.toList word digits? →
        parse s = (ofMatch word digits?).elim (.error (.invalidType s)) .ok) ∧
      ((¬ ∃ word digits?, Matches D s.toList word digits?) → parse s = .error (.invalidType s)) ∧
      ∀ t, parse s = .ok t → parse t.name = .ok t := by
  refine ⟨fun t => parse_eq_ok_iff, fun unnamed => ?_, fun word digits? found => ?_, fun unmatched => ?_,
    fun t read => parse_eq_ok_iff.mpr (parse_eq_ok_iff.mp read).name⟩
  · exact parse_of_none (Option.eq_none_iff_forall_ne_some.mpr fun t read =>
      unnamed ⟨t, names_of_parse? read⟩)
  · rw [parse, parse?_of_matches found]
    cases ofMatch word digits? <;> rfl
  · refine parse_of_none (Option.eq_none_iff_forall_ne_some.mpr fun t read => unmatched ?_)
    obtain ⟨word, digits?, found, -⟩ := (names_of_parse? read).exists_matches D
    exact ⟨word, digits?, found⟩

example : parse " VarChar ( 007 ) " = .ok (.text 7) := by decide +kernel

-- digits of the pattern, but not of a number
example : parse "string(٣)" = .error (.invalidType "string(٣)") := by decide +kernel

end ColumnType

end RowStore
