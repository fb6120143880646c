import RowStore.Proofs.Engine.Disk
import RowStore.Proofs.Page.Edits

/-! # A file as an array of pages
Any octets are an array of pages, the last of which may be cut off. To write a page puts it at its
place, which may be the first one past the end, and to allocate one puts an empty page there. Neither
touches the octets of a page that was whole, and if the last page was cut off, zeros make up for what
was missing. Main statement: `page_array`. -/

namespace RowStore

namespace FileTree

variable (content octets : Bytes) (position : Nat)

/-- What comes before the octets that are written at a position. -/
theorem length_before_splice :
    (content.take position ++ List.replicate (position - content.length) (0 : UInt8)).length
      = position := by
  rw [List.length_append, List.length_take, List.length_replicate]
  omega

/-- What is found where octets have been written. -/
theorem drop_splice : (splice content position octets).drop position =
    octets ++ content.drop (position + octets.length) := by
  rw [splice, List.append_assoc]
  exact List.drop_left' (length_before_splice content position)

/-- What stood before the position is kept. -/
theorem getElem?_splice_of_lt {i : Nat} (before : i < position) (inside : i < content.length) :
    (splice content position octets)[i]? = content[i]? := by
  have early : i < (content.take position).length := by
    rw [List.length_take]
    omega
  have prefixed : i < (content.take position
      ++ List.replicate (position - content.length) (0 : UInt8)).length := by
    rwa [length_before_splice]
  rw [splice, List.append_assoc, List.getElem?_append_left prefixed,
    List.getElem?_append_left early, List.getElem?_take_of_lt before]

/-- What stood after the octets that are written is kept. -/
theorem getElem?_splice_of_le {i : Nat} (after : position + octets.length ≤ i) :
    (splice content position octets)[i]? = content[i]? := by
  obtain ⟨k, rfl⟩ := Nat.exists_eq_add_of_le after
  have tail := congrArg (·[octets.length + k]?) (drop_splice content octets position)
  simp only [List.getElem?_drop] at tail
  rw [Nat.add_assoc, tail, List.getElem?_append_right (Nat.le_add_right _ _),
    Nat.add_sub_cancel_left, List.getElem?_drop, Nat.add_assoc]

end FileTree

namespace HeapFile

variable {f : HeapFile} {content content' octets : Bytes} {page : Page} {p : PageId} {n : Nat}

/-- The number of pages is the least that makes up for the octets. -/
theorem numPages_le_iff {k : Nat} : f.numPages content ≤ k ↔ content.length ≤ f.offset k := by
  have pos := f.pageSize_pos
  constructor
  · intro few
    exact Nat.le_trans (f.length_le_offset_numPages content) (Nat.mul_le_mul_right _ few)
  · intro short
    have rounded : content.length + f.pageSize - 1 < f.offset (k + 1) := by
      rw [offset_succ]
      omega
    exact Nat.le_of_lt_succ ((Nat.div_lt_iff_lt_mul pos).mpr rounded)

/-- What has been made of a file when a page was put at its place: the file reaches to the end of the
page at least, the octets are there, and the other pages that were whole are as they were. -/
structure Puts (f : HeapFile) (content : Bytes) (n : Nat) (octets content' : Bytes) : Prop where
  length : content'.length = max content.length (f.offset (n + 1))
  here : f.octets content' n = octets
  others : ∀ m ≠ n, f.Covers content m → f.octets content' m = f.octets content m

/-- Octets of a page's number that are written where a page starts are put there as a page. -/
theorem puts_splice (size : octets.length = f.pageSize) :
    f.Puts content n octets (FileTree.splice content (f.offset n) octets) where
  length := by rw [FileTree.length_splice, offset_succ, size]
  here := by
    rw [HeapFile.octets, FileTree.drop_splice]
    exact List.take_left' size
  others := by
    intro m other covers
    rw [Covers, offset_succ] at covers
    apply List.ext_getElem?
    intro k
    simp only [HeapFile.octets, List.getElem?_take, List.getElem?_drop]
    split
    · next inside =>
      rcases f.offset_apart other with before | after
      · exact FileTree.getElem?_splice_of_lt _ _ _ (by omega) (by omega)
      · exact FileTree.getElem?_splice_of_le _ _ _ (by omega)
    · rfl

section Puts

variable (h : f.Puts content n octets content')

include h

/-- A page past the end makes the file longer by as many pages as it is past the end. -/
theorem Puts.numPages : f.numPages content' = max (f.numPages content) (n + 1) := by
  have reach (k : Nat) : f.numPages content' ≤ k ↔ f.numPages content ≤ k ∧ n + 1 ≤ k := by
    rw [numPages_le_iff, h.length, Nat.max_le, numPages_le_iff, offset, offset,
      Nat.mul_le_mul_right_iff f.pageSize_pos]
  apply Nat.le_antisymm
  · exact (reach _).mpr ⟨Nat.le_max_left _ _, Nat.le_max_right _ _⟩
  · exact Nat.max_le.mpr ((reach _).mp (Nat.le_refl _))

theorem Puts.covers : f.Covers content' n := by
  rw [Covers, h.length]
  exact Nat.le_max_right _ _

theorem Puts.covers_of {m : Nat} (covers : f.Covers content m) : f.Covers content' m := by
  rw [Covers, h.length]
  exact Nat.le_trans covers (Nat.le_max_left _ _)

/-- The page that was put is read. -/
theorem Puts.readPage_here (table : p.table = f.id) (place : p.number = n)
    (decoded : Page.decode p f.layout octets = .ok page) : f.readPage content' p = .ok page := by
  subst place
  refine readPage_eq_ok.mpr ⟨table, h.covers, ?_⟩
  rwa [h.here]

/-- The other pages that were whole are read as before. -/
theorem Puts.readPage_of_ne (table : p.table = f.id) (other : p.number ≠ n)
    (covers : f.Covers content p.number) : f.readPage content' p = f.readPage content p := by
  obtain ⟨old, read⟩ := exists_readPage table covers
  obtain ⟨-, -, decoded⟩ := readPage_eq_ok.mp read
  rw [read]
  refine readPage_eq_ok.mpr ⟨table, h.covers_of covers, ?_⟩
  rwa [h.others _ other covers]

/-- A file of whole pages is one afterwards. -/
theorem Puts.dvd_length (whole : f.pageSize ∣ content.length) : f.pageSize ∣ content'.length := by
  rw [h.length]
  rcases Nat.le_total (f.offset (n + 1)) content.length with kept | grown
  · rwa [Nat.max_eq_left kept]
  · rw [Nat.max_eq_right grown]
    exact Nat.dvd_mul_left ..

end Puts

/-- A page is written if it is one of the file's, or the one past the last, and can be encoded. -/
theorem writePage_eq_ok_iff : f.writePage content page = .ok content' ↔
    (page.id.table = f.id ∧ page.id.number ≤ f.numPages content) ∧
      ∃ octets, page.encode = .ok octets ∧
        content' = FileTree.splice content (f.offset page.id.number) octets := by
  rw [writePage, bind_eq_ok]
  simp only [liftRecord_eq_ok]
  constructor
  · rintro ⟨octets, encoded, h⟩
    split at h
    · next near => exact ⟨near, octets, encoded, (Except.ok.inj h).symm⟩
    · cases h
  · rintro ⟨near, octets, encoded, rfl⟩
    exact ⟨octets, encoded, if_pos near⟩

/-- A page that is written is put at its place. -/
theorem puts_of_writePage (layout : page.layout = f.layout) (sound : page.Sound)
    (h : f.writePage content page = .ok content') :
    ∃ octets, page.encode = .ok octets ∧ f.Puts content page.id.number octets content' := by
  obtain ⟨-, octets, encoded, rfl⟩ := writePage_eq_ok_iff.mp h
  have size : octets.length = f.pageSize := by
    rw [(Page.spec_of_encode sound encoded).1, layout, pageSize]
  exact ⟨octets, encoded, puts_splice size⟩

/-- To allocate a page puts an empty one past the last. -/
theorem puts_allocate (f : HeapFile) (content : Bytes) :
    f.Puts content (f.numPages content) f.layout.emptyPage (f.allocate content).2 :=
  puts_splice f.layout.length_emptyPage

/-! ## Updates one after another -/

/-- What is done to the pages of a file. -/
inductive Update where
  | write (page : Page)
  | allocate

/-- The octets of a file after an update; a page that cannot be written leaves them as they were. -/
def update (f : HeapFile) (content : Bytes) : Update → Bytes
  | .write page =>
    match f.writePage content page with
    | .ok content' => content'
    | .error _ => content
  | .allocate => (f.allocate content).2

/-- The octets of a file after updates one after another. -/
def updates (f : HeapFile) (content : Bytes) (us : List Update) : Bytes :=
  us.foldl f.update content

/-- An update leaves a file of whole pages if it was one. -/
theorem dvd_length_update {u : Update}
    (own : ∀ page, u = .write page → page.layout = f.layout ∧ page.Sound)
    (whole : f.pageSize ∣ content.length) : f.pageSize ∣ (f.update content u).length := by
  cases u with
  | write page =>
    rw [update]
    split
    · next written =>
      obtain ⟨layout, sound⟩ := own page rfl
      obtain ⟨_, -, puts⟩ := puts_of_writePage layout sound written
      exact puts.dvd_length whole
    · exact whole
  | allocate => exact (f.puts_allocate content).dvd_length whole

theorem dvd_length_updates {us : List Update}
    (own : ∀ page, .write page ∈ us → page.layout = f.layout ∧ page.Sound)
    (whole : f.pageSize ∣ content.length) : f.pageSize ∣ (f.updates content us).length :=
  List.foldlRecOn us f.update (motive := fun content => f.pageSize ∣ content.length) whole
    fun _ whole _ mem => dvd_length_update (fun page written => own page (written ▸ mem)) whole

/-- An engine after an update of a file; a page that cannot be written leaves it as it was. -/
def updateIn (f : HeapFile) (e : Engine) : Update → Engine
  | .write page =>
    match e.writeTo f page with
    | .ok e' => e'
    | .error _ => e
  | .allocate => (e.allocate f).1

/-- An engine writes pages to a file and allocates pages in it by updates of its octets. -/
theorem octets_updateIn (place : f.location ≠ []) (e : Engine) (u : Update) :
    (f.updateIn e u).octets f = f.update (e.octets f) u := by
  cases u with
  | write page =>
    simp only [updateIn, update, Engine.writeTo, Engine.octets]
    cases f.writePage (e.disk.content f.location) page with
    | ok content' => exact FileTree.content_write place content'
    | error err => rfl
  | allocate => exact FileTree.content_write place _

/-- Whatever an engine writes to a file, page by page, the octets of the file are updated so. -/
theorem octets_updatesIn (place : f.location ≠ []) (e : Engine) (us : List Update) :
    (us.foldl f.updateIn e).octets f = f.updates (e.octets f) us :=
  (List.foldl_hom (Engine.octets · f) fun e u => (octets_updateIn place e u).symm).symm

/-! ## The array of pages -/

/-- What is read of a file after a page has been written to it. -/
structure Wrote (f : HeapFile) (content : Bytes) (page : Page) (content' : Bytes) : Prop where
  numPages : f.numPages content' = max (f.numPages content) (page.id.number + 1)
  back : f.schema.Storable → ∃ read, f.readPage content' page.id = .ok read ∧ page.Agrees read
  others : ∀ p, p.table = f.id → p.number ≠ page.id.number → f.Covers content p.number →
    f.readPage content' p = f.readPage content p

/-- What is read of a file after a page has been allocated. -/
structure Grew (f : HeapFile) (content : Bytes) (p : PageId) (content' : Bytes) : Prop where
  id : p = ⟨f.id, f.numPages content⟩
  numPages : f.numPages content' = f.numPages content + 1
  empty : ∃ page, f.readPage content' p = .ok page ∧ Page.empty p f.layout = .ok page ∧
    ∀ slot, page.isUsed slot = false
  others : ∀ p, p.table = f.id → f.Covers content p.number →
    f.readPage content' p = f.readPage content p

theorem wrote_of_writePage (layout : page.layout = f.layout) (sound : page.Sound)
    (h : f.writePage content page = .ok content') : f.Wrote content page content' := by
  obtain ⟨octets, encoded, puts⟩ := puts_of_writePage layout sound h
  refine ⟨puts.numPages, fun storable => ?back, fun p table other covers => ?others⟩
  case back =>
    obtain ⟨-, read, decoded, agrees⟩ :=
      Page.decode_of_encode sound (layout ▸ storable) encoded
    have table := (writePage_eq_ok_iff.mp h).1.1
    exact ⟨read, puts.readPage_here table rfl (layout ▸ decoded), agrees⟩
  case others => exact puts.readPage_of_ne table other covers

theorem grew_allocate (f : HeapFile) (content : Bytes) :
    f.Grew content (f.allocate content).1 (f.allocate content).2 := by
  have puts := f.puts_allocate content
  refine ⟨rfl, ?numPages, ?empty, fun p table covers => ?others⟩
  case numPages => rw [puts.numPages, Nat.max_eq_right (Nat.le_succ _)]
  case empty =>
    obtain ⟨page, blank⟩ : ∃ page, Page.empty (f.allocate content).1 f.layout = .ok page := by
      rw [Page.empty, Page.decode, dif_pos f.layout.length_emptyPage]
      exact ⟨_, rfl⟩
    refine ⟨page, puts.readPage_here rfl rfl blank, blank, fun slot => ?_⟩
    rw [← (Page.sound_of_decode blank).isSome_row? slot, Page.row?_of_empty blank]
    rfl
  case others => exact puts.readPage_of_ne table (Nat.ne_of_lt covers.lt_numPages) covers

/-- **A file is an array of pages.** Its octets may be any, and may end inside a page. A page is refused,
and the octets are left, if it is another table's, past the first free place, or cannot be encoded; else
it is read back, and the other whole pages are as they were. A page that is allocated gets the first free
number, and is empty. A page can be read if it is counted and the file reaches to its end. Updates keep a
file of whole pages one. -/
theorem page_array (f : HeapFile) (content : Bytes) :
    (∀ page : Page, page.layout = f.layout → page.Sound →
      ((∃ err, f.writePage content page = .error err) ↔ page.id.table ≠ f.id ∨
        f.numPages content < page.id.number ∨ ∃ err, page.encode = .error err) ∧
      (∀ err, f.writePage content page = .error err → f.update content (.write page) = content) ∧
      ∀ content', f.writePage content page = .ok content' → f.Wrote content page content') ∧
    f.Grew content (f.allocate content).1 (f.allocate content).2 ∧
    (∀ p, p.table = f.id → ((∃ page, f.readPage content p = .ok page) ↔
      p.number < f.numPages content ∧ f.Covers content p.number)) ∧
    ∀ us : List Update, (∀ page, .write page ∈ us → page.layout = f.layout ∧ page.Sound) →
      f.pageSize ∣ content.length → f.pageSize ∣ (f.updates content us).length := by
  refine ⟨fun page layout sound => ⟨?refused, ?left, ?wrote⟩, f.grew_allocate content,
    fun p table => ⟨?counted, ?read⟩, fun us own => dvd_length_updates own⟩
  case refused =>
    have failed {ε α : Type} (x : Except ε α) : (∃ err, x = .error err) ↔ ¬ ∃ a, x = .ok a := by
      cases x <;> simp
    simp only [failed, writePage_eq_ok_iff, exists_and_left]
    by_cases encodes : ∃ octets, page.encode = .ok octets <;> grind
  case left =>
    intro err refused
    rw [update, refused]
  case wrote => exact fun content' written => wrote_of_writePage layout sound written
  case counted =>
    rintro ⟨page, read⟩
    obtain ⟨-, covers, -⟩ := readPage_eq_ok.mp read
    exact ⟨covers.lt_numPages, covers⟩
  case read => exact fun counted => exists_readPage table counted.2

/-- A file of words. -/
def wordFile : HeapFile := ⟨["words"], Page.wordLayout⟩

/-- A whole page and four octets of another. -/
def cutWords : Bytes := Page.untidyBytes ++ [1, 2, 3, 4]

/-- A page is written past the one that is cut off, which can be read from then on. -/
theorem page_array_cut : ∃ page content', page.id = ⟨wordFile.id, 2⟩ ∧
    (∀ page, wordFile.readPage cutWords ⟨wordFile.id, 1⟩ ≠ .ok page) ∧
    wordFile.writePage cutWords page = .ok content' ∧
    wordFile.numPages content' = 3 ∧
    (∃ read, wordFile.readPage content' ⟨wordFile.id, 2⟩ = .ok read ∧ page.Agrees read) ∧
    (∃ page, wordFile.readPage content' ⟨wordFile.id, 1⟩ = .ok page) ∧
    wordFile.readPage content' ⟨wordFile.id, 0⟩ = wordFile.readPage cutWords ⟨wordFile.id, 0⟩ ∧
    wordFile.pageSize ∣ (wordFile.updates content' [.allocate, .write page, .allocate]).length := by
  obtain ⟨page, start⟩ : ∃ page,
      Page.decode ⟨wordFile.id, 2⟩ Page.wordLayout Page.untidyBytes = .ok page := ⟨_, rfl⟩
  obtain ⟨-, id, layout, -⟩ := Page.decode_cases start
  have sound := Page.sound_of_decode start
  have storable : wordFile.schema.Storable := by
    intro t mem
    obtain rfl := List.mem_singleton.mp mem
    show 3 ≤ ColumnType.maxWidth
    decide
  have counted : wordFile.numPages cutWords = 2 := by decide
  have present : wordFile.Covers cutWords 0 := by
    show 16 ≤ 20
    decide
  obtain ⟨content', written⟩ : ∃ content', wordFile.writePage cutWords page = .ok content' := by
    obtain rfl := Except.ok.inj start
    exact ⟨_, rfl⟩
  obtain ⟨writing, -, reading, -⟩ := page_array wordFile cutWords
  have wrote := (writing page layout sound).2.2 content' written
  have three : wordFile.numPages content' = 3 := by rw [wrote.numPages, counted, id]; rfl
  have long : content'.length = 48 := by
    obtain ⟨_, -, puts⟩ := puts_of_writePage layout sound written
    rw [puts.length, id]
    rfl
  obtain ⟨-, -, later, aligned⟩ := page_array wordFile content'
  refine ⟨page, content', id, ?cut, written, three, id ▸ wrote.back storable, ?filled,
    wrote.others _ rfl (by rw [id]; decide) present, aligned _ ?own (by rw [long]; decide)⟩
  case cut =>
    intro page read
    have reach : 32 ≤ 20 := ((reading ⟨wordFile.id, 1⟩ rfl).mp ⟨page, read⟩).2
    exact absurd reach (by decide)
  case filled =>
    refine (later ⟨wordFile.id, 1⟩ rfl).mpr ⟨by rw [three]; decide, ?_⟩
    show 32 ≤ content'.length
    rw [long]
    decide
  case own =>
    intro page' mem
    obtain rfl : page' = page := by simpa using mem
    exact ⟨layout, sound⟩

end HeapFile

end RowStore
