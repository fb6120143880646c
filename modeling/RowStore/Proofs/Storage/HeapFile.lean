import RowStore.Proofs.Page.Rows
import RowStore.Storage.HeapFile

/-! # The pages of a file
A page can be read if the file reaches to its end (`Covers`). To write a page that the file covers
changes what is read there, to the rows of the page that was written, and nowhere else, whether or not
the write stops early (`readPage_of_writePage`, `octets_of_writePage`). To append a page to a file of whole pages
changes no page that can be read, and the new one has no rows (`readPage_append`,
`readPage_append_cases`). -/

namespace RowStore

theorem Layout.pageSize_pos (l : Layout) : 0 < l.pageSize := by
  have pos := l.slotCapacity_pos
  rw [slotCapacity] at pos
  split at pos
  · exact absurd pos (Nat.lt_irrefl 0)
  · omega

theorem liftRecord_eq_ok {α : Type} {x : Except RecordError α} {a : α} :
    liftRecord x = .ok a ↔ x = .ok a := by
  cases x <;> simp [liftRecord]

namespace FileTree

variable {content octets : Bytes} {position : Nat}

theorem getElem?_splice (inside : position ≤ content.length) (i : Nat) :
    (splice content position octets)[i]? =
      if position ≤ i ∧ i < position + octets.length then octets[i - position]?
      else content[i]? := by
  have gap : position - content.length = 0 := Nat.sub_eq_zero_of_le inside
  simp only [splice, gap, List.replicate_zero, List.append_nil, List.getElem?_append,
    List.length_append, List.length_take, Nat.min_eq_left inside, List.getElem?_take,
    List.getElem?_drop]
  split
  · split
    · rw [if_neg (by omega)]
    · rw [if_pos (by omega)]
  · rw [if_neg (by omega)]
    congr 1
    omega

/-- To write at the end is to append. -/
theorem splice_length (content octets : Bytes) :
    splice content content.length octets = content ++ octets := by
  simp [splice, List.drop_eq_nil_of_le]

end FileTree

namespace HeapFile

variable {f : HeapFile} {content content' : Bytes} {p : PageId} {page page' : Page}

theorem pageSize_pos (f : HeapFile) : 0 < f.pageSize :=
  f.layout.pageSize_pos

/-- Whether a file reaches to the end of a page. -/
def Covers (f : HeapFile) (content : Bytes) (n : Nat) : Prop :=
  f.offset (n + 1) ≤ content.length

/-- The octets of a page. -/
def octets (f : HeapFile) (content : Bytes) (n : Nat) : Bytes :=
  (content.drop (f.offset n)).take f.pageSize

/-- Whether a file ends where a page does. -/
def Whole (f : HeapFile) (content : Bytes) : Prop :=
  f.offset (f.numPages content) = content.length

theorem offset_succ (f : HeapFile) (n : Nat) : f.offset (n + 1) = f.offset n + f.pageSize :=
  Nat.succ_mul ..

/-- Two pages do not overlap, whichever of them comes first. -/
theorem offset_apart (f : HeapFile) {m n : Nat} (ne : m ≠ n) :
    f.offset m + f.pageSize ≤ f.offset n ∨ f.offset n + f.pageSize ≤ f.offset m := by
  rw [← offset_succ, ← offset_succ]
  rcases Nat.lt_or_gt_of_ne ne with lt | gt
  · exact .inl (Nat.mul_le_mul_right _ lt)
  · exact .inr (Nat.mul_le_mul_right _ gt)

theorem Covers.lt_numPages {n : Nat} (h : f.Covers content n) : n < f.numPages content := by
  have pos := f.pageSize_pos
  rw [numPages, Nat.lt_iff_add_one_le, Nat.le_div_iff_mul_le pos]
  exact Nat.le_trans h (by omega)

/-- The pages of a file make up for its length. -/
theorem length_le_offset_numPages (f : HeapFile) (content : Bytes) :
    content.length ≤ f.offset (f.numPages content) := by
  have pos := f.pageSize_pos
  have rounded := Nat.lt_div_mul_add (a := content.length + f.pageSize - 1) pos
  rw [offset, numPages]
  omega

/-- In a file that ends inside its last page, a page that can be read is not the last. -/
theorem Covers.succ_lt_numPages {n : Nat} (h : f.Covers content n) (cut : ¬ f.Whole content) :
    n + 1 < f.numPages content := by
  refine Nat.lt_of_le_of_ne h.lt_numPages fun last => cut ?_
  -- if it were the last, the file would end where that page does
  rw [Covers, last] at h
  exact Nat.le_antisymm h (f.length_le_offset_numPages content)

/-- Every page of a file of whole pages is covered. -/
theorem Whole.covers {n : Nat} (whole : f.Whole content) (inside : n < f.numPages content) :
    f.Covers content n := by
  rw [Covers, ← whole]
  exact Nat.mul_le_mul_right _ inside

theorem numPages_pos (cut : ¬ f.Whole content) : 0 < f.numPages content := by
  refine Nat.pos_of_ne_zero fun zero => cut ?_
  have above := f.length_le_offset_numPages content
  rw [zero, offset, Nat.zero_mul] at above
  rw [Whole, zero, offset, Nat.zero_mul]
  exact (Nat.le_zero.mp above).symm

theorem length_octets {n : Nat} :
    (f.octets content n).length = f.pageSize ↔ f.Covers content n := by
  have pos := f.pageSize_pos
  simp only [octets, List.length_take, List.length_drop, Covers, offset_succ]
  omega

theorem readPage_eq : f.readPage content p =
    if p.table = f.id ∧ p.number < f.numPages content then
      if (f.octets content p.number).length = f.pageSize then
        liftRecord (Page.decode p f.layout (f.octets content p.number))
      else .error (.shortRead p (f.octets content p.number).length)
    else .error (.invalidPage p (f.numPages content)) := rfl

/-- The pages that can be read. -/
theorem readPage_eq_ok : f.readPage content p = .ok page ↔
    p.table = f.id ∧ f.Covers content p.number ∧
      Page.decode p f.layout (f.octets content p.number) = .ok page := by
  rw [readPage_eq]
  constructor
  · intro h
    split at h
    · next valid =>
      split at h
      · next length => exact ⟨valid.1, length_octets.mp length, liftRecord_eq_ok.mp h⟩
      · exact nomatch h
    · exact nomatch h
  · rintro ⟨table, covers, h⟩
    rw [if_pos ⟨table, covers.lt_numPages⟩, if_pos (length_octets.mpr covers)]
    exact liftRecord_eq_ok.mpr h

/-- A page that the file covers can be read. -/
theorem exists_readPage (table : p.table = f.id) (covers : f.Covers content p.number) :
    ∃ page, f.readPage content p = .ok page := by
  simp only [readPage_eq_ok, table, covers, true_and]
  rw [Page.decode, dif_pos (show _ = f.layout.pageSize from length_octets.mpr covers)]
  exact ⟨_, rfl⟩

/-! ## Writing -/

/-- A write goes through if the page can be encoded. -/
theorem writePage_eq_ok {count? : Option Nat} (table : page.id.table = f.id)
    (covers : f.Covers content page.id.number) :
    f.writePage content page count? = .ok content' ↔ ∃ octets, page.encode = .ok octets ∧
      content' = FileTree.splice content (f.offset page.id.number)
        (count?.elim octets octets.take) := by
  rw [writePage, bind_eq_ok]
  simp only [liftRecord_eq_ok, if_pos (And.intro table (Nat.le_of_lt covers.lt_numPages))]
  constructor
  · rintro ⟨octets, encoded, h⟩
    exact ⟨octets, encoded, (Except.ok.inj h).symm⟩
  · rintro ⟨octets, encoded, rfl⟩
    exact ⟨octets, encoded, rfl⟩

/-- A file in which nothing but one page may be other than before. -/
structure Touches (f : HeapFile) (content : Bytes) (n : Nat) (content' : Bytes) : Prop where
  length : content'.length = content.length
  others : ∀ m ≠ n, f.octets content' m = f.octets content m

/-- Octets that are written from the start of a page on, and not past its end, change this page alone:
they stand there, and behind them what stood there before. -/
theorem octets_splice {n : Nat} {octets : Bytes} (covers : f.Covers content n)
    (size : octets.length ≤ f.pageSize) :
    f.Touches content n (FileTree.splice content (f.offset n) octets) ∧
      f.octets (FileTree.splice content (f.offset n) octets) n
        = octets ++ (f.octets content n).drop octets.length := by
  rw [Covers, offset_succ] at covers
  have start : f.offset n ≤ content.length := by omega
  refine ⟨⟨?length, ?others⟩, ?here⟩
  case length =>
    rw [FileTree.length_splice]
    omega
  case here =>
    -- octet by octet, those that were written come first
    apply List.ext_getElem?
    intro k
    simp only [HeapFile.octets, List.getElem?_take, List.getElem?_drop, List.getElem?_append,
      FileTree.getElem?_splice start]
    by_cases written : k < octets.length
    · rw [if_pos (by omega), if_pos (by omega), if_pos written, Nat.add_sub_cancel_left]
    · rw [if_neg (c := f.offset n ≤ f.offset n + k ∧ _) (by omega), if_neg written,
        Nat.add_sub_cancel' (by omega)]
  case others =>
    intro m ne
    apply List.ext_getElem?
    intro k
    simp only [HeapFile.octets, List.getElem?_take, List.getElem?_drop]
    split
    · next lt =>
      rw [FileTree.getElem?_splice start, if_neg]
      have apart := f.offset_apart ne
      omega
    · rfl

section Write

variable (table : page.id.table = f.id) (layout : page.layout = f.layout) (sound : page.Sound)
  (covers : f.Covers content page.id.number)

include table layout sound covers

/-- A write leaves the file as long as it was, and changes the octets of one page. Those of the page as it
is written come first, up to where the write stops, and then those that were there before. -/
theorem octets_of_writePage {count? : Option Nat}
    (h : f.writePage content page count? = .ok content') :
    f.Touches content page.id.number content' ∧ ∃ octets, page.encode = .ok octets ∧
      f.octets content' page.id.number = count?.elim octets fun count =>
        octets.take count ++ (f.octets content page.id.number).drop count := by
  obtain ⟨octets, encoded, rfl⟩ := (writePage_eq_ok table covers).mp h
  have size : octets.length = f.pageSize := by
    rw [(Page.spec_of_encode sound encoded).1, layout, pageSize]
  have before : (f.octets content page.id.number).length = f.pageSize := length_octets.mpr covers
  cases count? with
  | none =>
    obtain ⟨touches, here⟩ := octets_splice covers (Nat.le_of_eq size)
    refine ⟨touches, octets, encoded, here.trans ?_⟩
    rw [List.drop_of_length_le (Nat.le_of_eq (before.trans size.symm)), List.append_nil]
    rfl
  | some count =>
    have part : (octets.take count).length ≤ f.pageSize := by
      rw [List.length_take]
      omega
    obtain ⟨touches, here⟩ := octets_splice covers part
    refine ⟨touches, octets, encoded, here.trans ?_⟩
    have rest : (f.octets content page.id.number).drop (min count octets.length)
        = (f.octets content page.id.number).drop count := by
      rw [List.drop_eq_drop_iff]
      omega
    rw [List.length_take, rest]
    rfl

/-- What has been written is read back. -/
theorem readPage_of_writePage (storable : f.schema.Storable)
    (h : f.writePage content page = .ok content') :
    ∃ page', f.readPage content' page.id = .ok page' ∧ page.Agrees page' := by
  obtain ⟨touches, octets, encoded, here⟩ := octets_of_writePage table layout sound covers h
  obtain ⟨-, page', decoded, agrees⟩ := Page.decode_of_encode sound (layout ▸ storable) encoded
  have covered : f.Covers content' page.id.number := by rwa [Covers, touches.length]
  refine ⟨page', readPage_eq_ok.mpr ⟨table, covered, ?_⟩, agrees⟩
  rw [here]
  exact layout ▸ decoded

end Write

/-! ## Appending -/

theorem Covers.append {n : Nat} (covers : f.Covers content n) :
    f.Covers (content ++ f.layout.emptyPage) n := by
  rw [Covers, List.length_append]
  exact Nat.le_add_right_of_le covers

section Append

variable (whole : f.Whole content)

include whole

/-- To append a page to a file of whole pages is to append its octets. -/
theorem allocate_of_whole :
    f.allocate content = (⟨f.id, f.numPages content⟩, content ++ f.layout.emptyPage) := by
  rw [allocate, whole, FileTree.splice_length]

theorem numPages_append :
    f.numPages (content ++ f.layout.emptyPage) = f.numPages content + 1 := by
  have pos := f.pageSize_pos
  have length : (content ++ f.layout.emptyPage).length = f.offset (f.numPages content + 1) := by
    rw [List.length_append, Layout.length_emptyPage, ← whole, offset_succ, pageSize]
  rw [numPages, length, offset, Nat.add_sub_assoc pos, Nat.add_comm,
    Nat.add_mul_div_right _ _ pos, Nat.div_eq_of_lt (by omega), Nat.zero_add]

theorem whole_append : f.Whole (content ++ f.layout.emptyPage) := by
  rw [Whole, numPages_append whole, offset_succ, whole, List.length_append,
    Layout.length_emptyPage, pageSize]

theorem covers_append {n : Nat} (covers : f.Covers (content ++ f.layout.emptyPage) n) :
    f.Covers content n ∨ n = f.numPages content := by
  have lt := covers.lt_numPages
  rw [numPages_append whole] at lt
  exact (Nat.lt_succ_iff_lt_or_eq.mp lt).imp_left whole.covers

end Append

theorem octets_append {n : Nat} (covers : f.Covers content n) (rest : Bytes) :
    f.octets (content ++ rest) n = f.octets content n := by
  rw [Covers, offset_succ] at covers
  rw [octets, octets, List.drop_append_of_le_length (by omega),
    List.take_append_of_le_length (by rw [List.length_drop]; omega)]

/-- To append a page changes no page that can be read. -/
theorem readPage_append (h : f.readPage content p = .ok page) :
    f.readPage (content ++ f.layout.emptyPage) p = .ok page := by
  obtain ⟨table, covers, decoded⟩ := readPage_eq_ok.mp h
  exact readPage_eq_ok.mpr ⟨table, covers.append, octets_append covers _ ▸ decoded⟩

/-- The page that has been appended has no rows, and all others are as before. -/
theorem readPage_append_cases (whole : f.Whole content)
    (h : f.readPage (content ++ f.layout.emptyPage) p = .ok page) :
    f.readPage content p = .ok page ∨
      (∀ page, f.readPage content p ≠ .ok page) ∧ ∀ slot, page.row? slot = none := by
  obtain ⟨table, covers, decoded⟩ := readPage_eq_ok.mp h
  rcases covers_append whole covers with covers | new
  · exact .inl (readPage_eq_ok.mpr ⟨table, covers, octets_append covers _ ▸ decoded⟩)
  · refine .inr ⟨?_, ?_⟩
    · -- a page with this number was beyond the end of the file
      intro page old
      obtain ⟨-, covers, -⟩ := readPage_eq_ok.mp old
      exact Nat.ne_of_lt covers.lt_numPages new
    · intro slot
      have blank : f.octets (content ++ f.layout.emptyPage) p.number = f.layout.emptyPage := by
        rw [octets, new, whole, List.drop_left, pageSize, List.take_of_length_le]
        exact Nat.le_of_eq f.layout.length_emptyPage
      rw [blank] at decoded
      exact Page.row?_of_empty decoded slot

end HeapFile

end RowStore
