import Mathlib.Data.List.Basic
import Mathlib.Data.List.Induction
import RowStore.Proofs.Page.Fields
import RowStore.Storage.FileTree

/-! # Opening files
To open a file may make it, and directories above it, and changes nothing that was there before
(`makes_openWithDirectories`). A path that has been opened leads to the same file as long as directories
and files stay what they are (`openWithDirectories_again`). Whether a path that names nothing leads to a
new file (`Foresees`) is certain when the directory above is there (`foresees_of_isDirectory_parent`) or
the path never leads up (`Rooted.foresees`). -/

namespace RowStore

namespace FileTree

variable {t t' t'' : FileTree} {p : Path} {l m : Location} {steps more : List PathStep}

/-! ## Trees that differ -/

/-- Whether directories and files stay what they are. -/
structure Keeps (t t' : FileTree) : Prop where
  root : t'.root = t.root
  cwd : t'.cwd = t.cwd
  directories : ∀ l, t.node? l = some .directory → t'.node? l = some .directory
  files : ∀ l content, t.node? l = some (.file content) → ∃ content', t'.node? l = some (.file content')

/-- Whether one tree is another one with more directories and empty files. -/
structure Makes (t t' : FileTree) : Prop where
  root : t'.root = t.root
  cwd : t'.cwd = t.cwd
  node? : ∀ l, t'.node? l = t.node? l ∨
    t.node? l = none ∧ (t'.node? l = some .directory ∨ t'.node? l = some (.file []))

/-- Whether one tree is another one with files of other contents in some places. -/
structure Rewrites (t t' : FileTree) (places : Location → Prop) : Prop where
  root : t'.root = t.root
  cwd : t'.cwd = t.cwd
  node? : ∀ l, t'.node? l = t.node? l ∨ places l ∧ ∃ content, t'.node? l = some (.file content)

theorem node?_put (h : l ≠ []) (n : FileNode) (m : Location) :
    (t.put l n).node? m = if m = l then some n else t.node? m := by
  by_cases here : m = l
  · subst here
    simp [node?, put, h]
  · simp [node?, put, t.nodes.get?_insert_of_ne _ here, here]

theorem Makes.refl (t : FileTree) : t.Makes t :=
  ⟨rfl, rfl, fun _ => .inl rfl⟩

theorem Makes.trans (h : t.Makes t') (h' : t'.Makes t'') : t.Makes t'' where
  root := h'.root.trans h.root
  cwd := h'.cwd.trans h.cwd
  node? l := by
    rcases h'.node? l with same | ⟨missing, made⟩
    · rw [same]
      exact h.node? l
    · rcases h.node? l with same | ⟨-, made'⟩
      · exact .inr ⟨same ▸ missing, made⟩
      · rcases made' with made' | made' <;> cases missing.symm.trans made'

/-- What is put where nothing stands is made. -/
theorem Makes.put (place : l ≠ []) (missing : t.node? l = none) {n : FileNode}
    (new : n = .directory ∨ n = .file []) : t.Makes (t.put l n) where
  root := rfl
  cwd := rfl
  node? m := by
    rw [node?_put place]
    split
    · next here =>
      rw [here]
      exact .inr ⟨missing, new.imp (congrArg some) (congrArg some)⟩
    · exact .inl rfl

/-- What was there stays as it is. -/
theorem Makes.node?_of_some (h : t.Makes t') {n : FileNode} (here : t.node? l = some n) :
    t'.node? l = some n := by
  rcases h.node? l with same | ⟨missing, -⟩
  · exact same.trans here
  · cases missing.symm.trans here

theorem Makes.keeps (h : t.Makes t') : t.Keeps t' where
  root := h.root
  cwd := h.cwd
  directories _ := h.node?_of_some
  files _ content here := ⟨content, h.node?_of_some here⟩

theorem Keeps.trans (h : t.Keeps t') (h' : t'.Keeps t'') : t.Keeps t'' where
  root := h'.root.trans h.root
  cwd := h'.cwd.trans h.cwd
  directories l here := h'.directories l (h.directories l here)
  files l content here := by
    obtain ⟨content', here'⟩ := h.files l content here
    exact h'.files l content' here'

theorem Rewrites.refl (t : FileTree) (places : Location → Prop) : t.Rewrites t places :=
  ⟨rfl, rfl, fun _ => .inl rfl⟩

theorem Rewrites.trans {places : Location → Prop} (h : t.Rewrites t' places)
    (h' : t'.Rewrites t'' places) : t.Rewrites t'' places where
  root := h'.root.trans h.root
  cwd := h'.cwd.trans h.cwd
  node? l := by
    rcases h'.node? l with same | written
    · rw [same]
      exact h.node? l
    · exact .inr written

theorem Rewrites.write (place : l ≠ []) {places : Location → Prop} (inside : places l)
    (content : Bytes) : t.Rewrites (t.write l content) places where
  root := rfl
  cwd := rfl
  node? m := by
    rw [FileTree.write, node?_put place]
    split
    · next here => exact .inr ⟨here ▸ inside, content, rfl⟩
    · exact .inl rfl

/-- To write to files makes no files of directories. -/
theorem Rewrites.keeps {places : Location → Prop} (h : t.Rewrites t' places)
    (files : ∀ l, places l → ∃ content, t.node? l = some (.file content)) : t.Keeps t' where
  root := h.root
  cwd := h.cwd
  directories l here := by
    rcases h.node? l with same | ⟨inside, -⟩
    · exact same.trans here
    · obtain ⟨content, file⟩ := files l inside
      cases here.symm.trans file
  files l content here := by
    rcases h.node? l with same | ⟨-, written⟩
    · exact ⟨content, same.trans here⟩
    · exact written

/-! ## Following paths -/

/-- A path with a first step leads on from where this step leads. -/
theorem walk_cons_eq_ok {s : PathStep} : t.walk l (s :: steps) = .ok m ↔
    t.node? l = some .directory ∧ (∀ n, s = .name n → (t.node? (l ++ [n])).isSome = true) ∧
      t.walk (follow l s) steps = .ok m := by
  cases here : t.node? l with
  | none => simp [walk, here]
  | some node =>
    cases node with
    | file content => simp [walk, here]
    | directory =>
      cases s with
      | stay | up => simp [walk, here, follow]
      | name n =>
        have form : t.walk l (.name n :: steps)
            = if (t.node? (l ++ [n])).isSome then t.walk (l ++ [n]) steps else .error .notFound := by
          rw [walk]
          exact here
        rw [form]
        by_cases there : (t.node? (l ++ [n])).isSome = true
        · simp only [there, if_true, follow, true_and]
          exact ⟨fun walked => ⟨fun _ eq => PathStep.name.inj eq ▸ there, walked⟩, And.right⟩
        · rw [if_neg there]
          exact ⟨nofun, fun ⟨_, present, _⟩ => absurd (present n rfl) there⟩

/-- A path in two parts leads through the place that the first one names. -/
theorem walk_append_eq_ok : t.walk l (steps ++ more) = .ok m ↔
    ∃ mid, t.walk l steps = .ok mid ∧ t.walk mid more = .ok m := by
  induction steps generalizing l with
  | nil => simp [walk]
  | cons s rest ih =>
    simp only [List.cons_append, walk_cons_eq_ok, ih]
    constructor
    · rintro ⟨above, there, mid, first, second⟩
      exact ⟨mid, ⟨above, there, first⟩, second⟩
    · rintro ⟨mid, ⟨above, there, first⟩, second⟩
      exact ⟨above, there, mid, first, second⟩

theorem walk_name_eq_ok {n : String} : t.walk l [.name n] = .ok m ↔
    t.node? l = some .directory ∧ (t.node? (l ++ [n])).isSome = true ∧ m = l ++ [n] := by
  rw [walk_cons_eq_ok]
  constructor
  · rintro ⟨above, there, reached⟩
    exact ⟨above, there n rfl, (Except.ok.inj reached).symm⟩
  · rintro ⟨above, there, rfl⟩
    exact ⟨above, fun _ eq => PathStep.name.inj eq ▸ there, rfl⟩

/-- Paths lead to the same places as long as directories and files stay what they are. -/
theorem Keeps.walk (h : t.Keeps t') (walked : t.walk l steps = .ok m) : t'.walk l steps = .ok m := by
  induction steps generalizing l with
  | nil => exact walked
  | cons s rest ih =>
    obtain ⟨above, there, rest⟩ := walk_cons_eq_ok.mp walked
    refine walk_cons_eq_ok.mpr ⟨h.directories l above, fun n eq => ?_, ih rest⟩
    obtain ⟨node, here⟩ := Option.isSome_iff_exists.mp (there n eq)
    cases node with
    | directory => rw [h.directories _ here]; rfl
    | file content =>
      obtain ⟨content', here'⟩ := h.files _ content here
      rw [here']
      rfl

/-- Steps that stay in a directory may be left out. -/
theorem walk_filter (walked : t.walk l steps = .ok m) :
    t.walk l (steps.filter (· ≠ .stay)) = .ok m := by
  induction steps generalizing l with
  | nil => exact walked
  | cons s rest ih =>
    obtain ⟨above, there, rest⟩ := walk_cons_eq_ok.mp walked
    by_cases stays : s = .stay
    · subst stays
      exact ih rest
    · rw [List.filter_cons_of_pos (by simpa using stays)]
      exact walk_cons_eq_ok.mpr ⟨above, there, ih rest⟩

/-- The entry that a path names last stands, or would stand, in the directory that the steps before lead
to. -/
theorem lastEntry_eq_some : t.lastEntry p = .ok (some l) ↔
    ∃ above n, p.steps = p.steps.dropLast ++ [.name n] ∧
      t.walk (t.start p) p.steps.dropLast = .ok above ∧ t.node? above = some .directory ∧
      l = above ++ [n] := by
  have last : ∀ n, p.steps = p.steps.dropLast ++ [.name n] ↔ p.steps.getLast? = some (.name n) := by
    intro n
    constructor
    · intro eq
      rw [eq, List.getLast?_concat]
    · intro eq
      exact (List.dropLast_append_getLast? _ eq).symm
  rw [lastEntry, bind_eq_ok]
  simp only [last]
  constructor
  · rintro ⟨above, walked, entry⟩
    split at entry
    · next n directory last =>
      exact ⟨above, n, last, walked, directory, (Option.some.inj (Except.ok.inj entry)).symm⟩
    · cases entry
    · cases entry
    · cases entry
  · rintro ⟨above, n, last, walked, directory, rfl⟩
    refine ⟨above, walked, ?_⟩
    simp only [directory, last]
    rfl

/-- The entry that a path names last is found if it is there, unless it is a file and the path can only
name a directory. -/
theorem find_of_lastEntry (entry : t.lastEntry p = .ok (some l)) {n : FileNode}
    (here : t.node? l = some n) (plain : p.directory = false) : t.find p = .ok (l, n) := by
  obtain ⟨above, name, steps, walked, directory, rfl⟩ := lastEntry_eq_some.mp entry
  have all : t.walk (t.start p) p.steps = .ok (above ++ [name]) := by
    rw [steps, walk_append_eq_ok]
    refine ⟨above, walked, walk_name_eq_ok.mpr ⟨directory, ?_, rfl⟩⟩
    rw [here]
    rfl
  rw [find, bind_eq_ok]
  refine ⟨_, all, ?_⟩
  cases n with
  | directory => simp only [here]; rfl
  | file content => simp only [here, plain]; rfl

/-! ## Making directories -/

theorem isDirectory_of_walk (walked : t.walk (t.start p) p.steps = .ok l)
    (directory : t.node? l = some .directory) : t.isDirectory p = true := by
  have found : t.find p = .ok (l, .directory) := by
    rw [find, bind_eq_ok]
    refine ⟨l, walked, ?_⟩
    simp only [directory]
    rfl
  rw [isDirectory, found]

theorem exists_walk_of_find {n : FileNode} (h : t.find p = .ok (l, n)) :
    t.walk (t.start p) p.steps = .ok l ∧ t.node? l = some n := by
  obtain ⟨m, walked, h⟩ := bind_eq_ok.mp h
  split at h
  · next content here =>
    split at h
    · cases h
    · obtain ⟨rfl, rfl⟩ := Prod.mk.inj (Except.ok.inj h)
      exact ⟨walked, here⟩
  · next here =>
    obtain ⟨rfl, rfl⟩ := Prod.mk.inj (Except.ok.inj h)
    exact ⟨walked, here⟩
  · cases h

/-- What is made was missing. -/
theorem makeDirectory_eq_ok : t.makeDirectory p = .ok t' ↔
    ∃ l, t.lastEntry p = .ok (some l) ∧ t.node? l = none ∧ t' = t.put l .directory := by
  rw [makeDirectory, bind_eq_ok]
  constructor
  · rintro ⟨entry, last, made⟩
    cases entry with
    | none => cases made
    | some l =>
      dsimp only at made
      split at made
      · cases made
      · next missing =>
        exact ⟨l, last, Option.not_isSome_iff_eq_none.mp missing, (Except.ok.inj made).symm⟩
  · rintro ⟨l, last, missing, rfl⟩
    refine ⟨some l, last, ?_⟩
    simp only [missing]
    rfl

theorem ne_nil_of_lastEntry (h : t.lastEntry p = .ok (some l)) : l ≠ [] := by
  obtain ⟨above, n, -, -, -, rfl⟩ := lastEntry_eq_some.mp h
  exact List.append_ne_nil_of_right_ne_nil _ (List.cons_ne_nil _ _)

/-- A directory that is there is not made again. -/
theorem ensureDirectory_of_isDirectory (h : t.isDirectory p = true) :
    t.ensureDirectory p = .ok t := by
  rw [ensureDirectory]
  split
  · next made eq =>
    -- the entry that would be made is the one that is found
    obtain ⟨l, last, missing, -⟩ := makeDirectory_eq_ok.mp eq
    obtain ⟨above, n, steps, walked, directory, rfl⟩ := lastEntry_eq_some.mp last
    rw [isDirectory] at h
    split at h
    · next m found =>
      obtain ⟨all, -⟩ := exists_walk_of_find found
      rw [steps, walk_append_eq_ok] at all
      obtain ⟨mid, first, final⟩ := all
      obtain rfl := Except.ok.inj (walked.symm.trans first)
      obtain ⟨-, there, -⟩ := walk_name_eq_ok.mp final
      rw [missing] at there
      cases there
    · cases h
  · rw [if_pos h]

theorem makes_ensureDirectory (h : t.ensureDirectory p = .ok t') : t.Makes t' := by
  rw [ensureDirectory] at h
  split at h
  · next made =>
    obtain rfl := Except.ok.inj h
    obtain ⟨l, last, missing, rfl⟩ := makeDirectory_eq_ok.mp made
    exact .put (ne_nil_of_lastEntry last) missing (.inl rfl)
  · split at h
    · exact Except.ok.inj h ▸ .refl t
    · cases h

theorem makes_makeDirectories (depth : Nat) (t : FileTree) (p : Path) :
    t.Makes (makeDirectories depth t p).1 := by
  induction depth generalizing t p with
  | zero => exact .refl t
  | succ depth ih =>
    rw [makeDirectories]
    split
    · next made => exact makes_ensureDirectory made
    · have above := ih t p.parent
      split
      · next made =>
        rw [made] at above
        split
        · next last => exact above.trans (makes_ensureDirectory last)
        · exact above
      · exact above
    · exact .refl t

theorem makeDirectories_of_isDirectory (h : t.isDirectory p = true) (depth : Nat) :
    makeDirectories (depth + 1) t p = (t, .ok ()) := by
  rw [makeDirectories, ensureDirectory_of_isDirectory h]

/-! ## Opening files -/

/-- A file that can be opened was there, or is made where nothing was. -/
theorem openFile_eq_ok : t.openFile p = .ok (t', l) ↔
    t.lastEntry p = .ok (some l) ∧ p.directory = false ∧
      ((∃ content, t.node? l = some (.file content)) ∧ t' = t ∨
        t.node? l = none ∧ t' = t.write l []) := by
  rw [openFile, bind_eq_ok]
  constructor
  · rintro ⟨entry, last, h⟩
    cases entry with
    | none => cases h
    | some m =>
      dsimp only at h
      split at h
      · cases h
      · next plain =>
        have plain := Bool.not_eq_true _ ▸ plain
        split at h
        · cases h
        · next content here =>
          obtain ⟨rfl, rfl⟩ := Prod.mk.inj (Except.ok.inj h)
          exact ⟨last, plain, .inl ⟨⟨content, here⟩, rfl⟩⟩
        · next missing =>
          obtain ⟨rfl, rfl⟩ := Prod.mk.inj (Except.ok.inj h)
          exact ⟨last, plain, .inr ⟨missing, rfl⟩⟩
  · rintro ⟨last, plain, node⟩
    refine ⟨some l, last, ?_⟩
    rcases node with ⟨⟨content, here⟩, rfl⟩ | ⟨missing, rfl⟩
    · simp only [plain, here]
      rfl
    · simp only [plain, missing]
      rfl

theorem openWithDirectories_eq_ok : t.openWithDirectories p = (t', .ok l) ↔
    ∃ mid, makeDirectories (p.steps.length + 1) t p.parent = (mid, .ok ()) ∧
      mid.openFile p = .ok (t', l) := by
  rw [openWithDirectories]
  constructor
  · intro h
    split at h
    · cases h
    · next mid made =>
      refine ⟨mid, made, ?_⟩
      split at h
      · next opened =>
        cases h
        exact opened
      · cases h
  · rintro ⟨mid, made, opened⟩
    simp only [made, opened]

theorem makes_openFile (h : t.openFile p = .ok (t', l)) : t.Makes t' := by
  obtain ⟨last, -, ⟨-, rfl⟩ | ⟨missing, rfl⟩⟩ := openFile_eq_ok.mp h
  · exact .refl _
  · exact .put (ne_nil_of_lastEntry last) missing (.inr rfl)

/-- To open a file changes nothing that was there before, whether or not it can be opened. -/
theorem makes_openWithDirectories (t : FileTree) (p : Path) : t.Makes (t.openWithDirectories p).1 := by
  have above := makes_makeDirectories (p.steps.length + 1) t p.parent
  rw [openWithDirectories]
  split
  · next made =>
    rw [made] at above
    exact above
  · next mid made =>
    rw [made] at above
    split
    · next opened => exact above.trans (makes_openFile opened)
    · exact above

/-- A file that has been opened is there. -/
theorem exists_file_of_open (h : t.openWithDirectories p = (t', .ok l)) :
    l ≠ [] ∧ t'.lastEntry p = .ok (some l) ∧ p.directory = false ∧
      ∃ content, t'.node? l = some (.file content) := by
  obtain ⟨mid, -, opened⟩ := openWithDirectories_eq_ok.mp h
  obtain ⟨last, plain, node⟩ := openFile_eq_ok.mp opened
  have place := ne_nil_of_lastEntry last
  rcases node with ⟨there, rfl⟩ | ⟨missing, rfl⟩
  · exact ⟨place, last, plain, there⟩
  · -- the directory of the file is as it was
    refine ⟨place, ?_, plain, [], ?_⟩
    · obtain ⟨above, n, steps, walked, directory, rfl⟩ := lastEntry_eq_some.mp last
      have makes : mid.Makes (mid.write (above ++ [n]) []) := .put place missing (.inr rfl)
      refine lastEntry_eq_some.mpr ⟨above, n, steps, makes.keeps.walk walked, ?_, rfl⟩
      exact makes.keeps.directories _ directory
    · rw [write, node?_put place, if_pos rfl]

/-- **A file that has been opened is opened again in the same place**, and nothing is made then. -/
theorem openWithDirectories_again (h : t.openWithDirectories p = (t', .ok l)) (keeps : t'.Keeps t'') :
    t''.exists? p = true ∧ t''.openWithDirectories p = (t'', .ok l) := by
  obtain ⟨-, last, plain, content, here⟩ := exists_file_of_open h
  obtain ⟨content', here'⟩ := keeps.files l content here
  obtain ⟨above, n, steps, walked, directory, eq⟩ := lastEntry_eq_some.mp last
  have start : t''.start p = t'.start p := by rw [FileTree.start, FileTree.start, keeps.cwd]
  have walked' : t''.walk (t''.start p) p.steps.dropLast = .ok above := start ▸ keeps.walk walked
  have directory' := keeps.directories above directory
  have last' : t''.lastEntry p = .ok (some l) :=
    lastEntry_eq_some.mpr ⟨above, n, steps, walked', directory', eq⟩
  refine ⟨?found, openWithDirectories_eq_ok.mpr ⟨t'', ?made, ?opened⟩⟩
  case found =>
    rw [exists?, find_of_lastEntry last' here' plain]
    rfl
  case made =>
    refine makeDirectories_of_isDirectory (isDirectory_of_walk ?_ directory') _
    -- the path of the directory lacks the last step, and those that stay
    have parent : p.parent.steps = p.steps.dropLast.filter (· ≠ .stay) := by
      rw [Path.parent, steps, List.filter_append, List.dropLast_concat]
      simp
    rw [parent]
    exact walk_filter walked'
  case opened => exact openFile_eq_ok.mpr ⟨last', plain, .inl ⟨⟨content', here'⟩, rfl⟩⟩

/-! ## Paths that name nothing -/

/-- Whether a path that names nothing leads to a new file when it is opened. A path that leads through a
missing directory and up again names nothing before this directory is made, and may lead to a file that is
there. -/
def Foresees (t : FileTree) (p : Path) : Prop :=
  t.exists? p = false → ∀ l, (t.openWithDirectories p).2 = .ok l → t.node? l = none

/-- Whether everything stands in a directory. -/
def Rooted (t : FileTree) : Prop :=
  ∀ l ≠ [], (t.node? l).isSome = true → t.node? l.dropLast = some .directory

/-- Nothing has to be made for a file in a directory that is there. -/
theorem foresees_of_isDirectory_parent (h : t.isDirectory p.parent = true) : t.Foresees p := by
  intro unseen l opened
  rcases eq : t.openWithDirectories p with ⟨t', result⟩
  obtain rfl : result = .ok l := by rwa [eq] at opened
  obtain ⟨mid, made, opened⟩ := openWithDirectories_eq_ok.mp eq
  obtain rfl : t = mid := by
    rw [makeDirectories_of_isDirectory h] at made
    exact (Prod.mk.inj made).1
  obtain ⟨last, plain, ⟨⟨content, here⟩, -⟩ | ⟨missing, -⟩⟩ := openFile_eq_ok.mp opened
  · rw [exists?, find_of_lastEntry last here plain] at unseen
    cases unseen
  · exact missing

/-- A path that never leads up leads on from where it starts. -/
theorem prefix_of_walk (never : .up ∉ steps) (walked : t.walk l steps = .ok m) : l <+: m := by
  induction steps generalizing l with
  | nil => exact Except.ok.inj walked ▸ List.prefix_refl l
  | cons s rest ih =>
    obtain ⟨-, -, rest⟩ := walk_cons_eq_ok.mp walked
    have onwards := ih (fun mem => never (.tail _ mem)) rest
    cases s with
    | name n => exact (List.prefix_append l [n]).trans onwards
    | stay => exact onwards
    | up => exact absurd (.head _) never

namespace Rooted

variable (h : t.Rooted)

include h

/-- What stands above something is a directory. -/
theorem directory_of_prefix (here : (t.node? m).isSome = true) (above : l <+: m) (ne : l ≠ m) :
    t.node? l = some .directory := by
  obtain ⟨rest, rfl⟩ := above
  induction rest using List.reverseRecOn with
  | nil => exact absurd (List.append_nil l).symm ne
  | append_singleton rest n ih =>
    have up := h _ (by simp) here
    rw [← List.append_assoc, List.dropLast_concat] at up
    by_cases last : rest = []
    · rwa [last, List.append_nil] at up
    · refine ih (by rw [up]; rfl) fun eq => last ?_
      exact List.append_right_eq_self.mp eq.symm

/-- A path that never leads up, and with more directories would lead to a place above something, leads
there. -/
theorem walk {target : Location} (never : .up ∉ steps) (walked : t'.walk l steps = .ok m)
    (here : (t.node? target).isSome = true) (above : m <+: target) (ne : m ≠ target) :
    t.walk l steps = .ok m := by
  induction steps generalizing l with
  | nil => exact walked
  | cons s rest ih =>
    obtain ⟨-, -, onwards⟩ := walk_cons_eq_ok.mp walked
    have never' : .up ∉ rest := fun mem => never (.tail _ mem)
    have first := prefix_of_walk never walked
    have strict : l ≠ target := by
      rintro rfl
      exact ne (above.eq_of_length_le first.length_le)
    refine walk_cons_eq_ok.mpr ⟨h.directory_of_prefix here (first.trans above) strict, ?_,
      ih never' onwards⟩
    rintro n rfl
    have next : l ++ [n] <+: target := (prefix_of_walk never' onwards).trans above
    by_cases last : l ++ [n] = target
    · rwa [last]
    · rw [h.directory_of_prefix here next last]
      rfl

/-- A path that never leads up leads to a new file if it names nothing. -/
theorem foresees (never : .up ∉ p.steps) : t.Foresees p := by
  intro unseen l opened
  rcases eq : t.openWithDirectories p with ⟨t', result⟩
  obtain rfl : result = .ok l := by rwa [eq] at opened
  have makes := makes_openWithDirectories t p
  rw [eq] at makes
  obtain ⟨-, last, plain, content, file⟩ := exists_file_of_open eq
  obtain ⟨above, n, steps, walked, -, rfl⟩ := lastEntry_eq_some.mp last
  rw [Option.eq_none_iff_forall_ne_some]
  intro node here
  -- what was there would have been found
  have there : (t.node? (above ++ [n])).isSome = true := by rw [here]; rfl
  have strict : above ≠ above ++ [n] := fun same => by simpa using congrArg List.length same
  have start : t'.start p = t.start p := by rw [FileTree.start, FileTree.start, makes.cwd]
  have last' : t.lastEntry p = .ok (some (above ++ [n])) := by
    refine lastEntry_eq_some.mpr ⟨above, n, steps, ?_, ?_, rfl⟩
    · refine h.walk (fun mem => never (List.dropLast_subset _ mem)) (start ▸ walked) there ?_ strict
      exact List.prefix_append ..
    · exact h.directory_of_prefix there (List.prefix_append ..) strict
  rw [exists?, find_of_lastEntry last' here plain] at unseen
  cases unseen

end Rooted

end FileTree

end RowStore
