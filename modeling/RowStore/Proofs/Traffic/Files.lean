import RowStore.Proofs.Storage.FileTree
import RowStore.Proofs.Traffic.Steps

/-! # Which files are written to
Whatever is asked of the engine, it writes to the files of registered tables only, in each step of a call
(`rewrites_step`) and at the end of a transaction (`rewrites_complete`). All other files and directories
stay as they are. -/

namespace RowStore

/-- The places of the files of registered tables. -/
def Catalog.Places (c : Catalog) (l : Location) : Prop :=
  ∃ table f, c.file? table = some f ∧ f.location = l

namespace Engine

variable {e e' : Engine} {t : TxnId} {p : PageId} {c : Call} {progress : Progress} {faults : Faults}

/-- To replace the content of a table's file is to write to a file of a registered table. -/
theorem rewrites_write {table : TableId} {f : HeapFile} (storable : e.catalog.Storable)
    (found : e.catalog.file? table = some f) (content : Bytes) :
    e.disk.Rewrites (e.disk.write f.location content) e.catalog.Places :=
  .write (storable.of_file? found).1 ⟨table, f, found, rfl⟩ content

theorem rewrites_step (h : e.Sound) (hc : c.Sound e) (hs : e.step t c = (e', progress)) :
    e.disk.Rewrites e'.disk e.catalog.Places := by
  cases asks : c.asks? with
  | some asked =>
    rw [disk_of_asks h hc asks hs]
    exact .refl _ _
  | none =>
    obtain ⟨locks, rfl⟩ | ⟨i, rfl, rfl⟩ := step_of_not_asks asks hs
    · exact .refl _ _
    · exact rewrites_write h.storable (Insertion.Sound.registered hc) _

/-! ## Ends of transactions -/

theorem rewrites_wrote {page : Page} {disk : FileTree} {result : Except FileError Unit}
    (storable : e.catalog.Storable) (wrote : e.Wrote p page faults disk result) :
    e.disk.Rewrites disk e.catalog.Places := by
  cases wrote with
  | refused => exact .refl _ _
  | stopped _ found | done found => exact rewrites_write storable found _

theorem rewrites_writeBack {result : Except FileError Unit} (storable : e.catalog.Storable)
    (hw : e.writeBack p faults = (e', result)) :
    e'.catalog = e.catalog ∧ e.disk.Rewrites e'.disk e.catalog.Places := by
  cases writesBack_of_writeBack hw with
  | clean => exact ⟨rfl, .refl _ _⟩
  | dirty _ _ _ _ wrote | failed _ _ wrote => exact ⟨rfl, rewrites_wrote storable wrote⟩

/-- To read a page again changes the pool only. -/
theorem revertPage_eq (e : Engine) (faults : Faults) (p : PageId) :
    e.revertPage faults p = { e with pool := (e.revertPage faults p).pool } := by
  rw [revertPage]
  split
  · rfl
  · split <;> rfl

theorem rewrites_complete (storable : e.catalog.Storable) (t : TxnId) (commit : Bool)
    (faults : Faults) : e.disk.Rewrites (e.complete t commit faults).1.disk e.catalog.Places := by
  have before : ∃ e' : Engine, (e'.catalog = e.catalog ∧ e.disk.Rewrites e'.disk e.catalog.Places) ∧
      (e.complete t commit faults).1 = e'.finish t := by
    refine complete_induction ⟨rfl, .refl _ _⟩ ?write ?revert t commit
    case write =>
      rintro e₁ e₂ p result ⟨same, rewrites⟩ wrote
      obtain ⟨same', more⟩ := rewrites_writeBack (same.symm ▸ storable) wrote
      exact ⟨same'.trans same, rewrites.trans (same ▸ more)⟩
    case revert =>
      rintro e₁ p ⟨same, rewrites⟩
      rw [revertPage_eq]
      exact ⟨same, rewrites⟩
  obtain ⟨e', ⟨-, rewrites⟩, done⟩ := before
  exact done ▸ rewrites

end Engine

end RowStore
