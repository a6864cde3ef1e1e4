import EvmBridge.Proofs.Docking.StoredMembers
import EvmBridge.Proofs.Ledger.Keys

/-! # Tables of written rows

`RowTable α`: how values of a type are written down as rows of one table of a store, whose keys all begin
alike. Where every row of the table was written for some value (`RowTable.Fills`), a listing of the table
is the rows of the values that it holds, one after the other (`RowTable.Fills.exists_listed`), and reads
as these values. The three tables are those of kept headers, bridge records and quorum members.
-/

namespace EvmBridge
set_option autoImplicit false
open KeyOrder (before)

/-- How values are written down as the rows of a table. -/
structure RowTable (α : Type) where
  /-- What the keys of the table begin with. -/
  start : Bytes
  key : α → Bytes
  codec : Codec α
  /-- Which values a row can hold. -/
  fits : α → Prop
  isPrefixOf_key : ∀ a, start.isPrefixOf (key a) = true
  restores : codec.Restores fits

namespace RowTable
variable {α : Type} {t : RowTable α} {rows : Rows} {a b : α}

/-- The row of a value. -/
def row (t : RowTable α) (a : α) : Bytes × Bytes := (t.key a, t.codec.write a)

/-- Whether the row of a value is there as it was written. -/
def Holds (t : RowTable α) (rows : Rows) (a : α) : Prop :=
  rows.get? (t.key a) = some (t.codec.write a)

/-- Whether every row of the table was written for some value. -/
def Fills (t : RowTable α) (rows : Rows) : Prop :=
  ∀ key value, t.start.isPrefixOf key = true → rows.get? key = some value →
    ∃ a, t.fits a ∧ t.row a = (key, value)

theorem decode_row (ha : t.fits a) : t.codec.decode (t.row a).2 = .ok a := t.restores.decode ha

/-- The row under a key is that of one value only. -/
theorem Holds.eq (h : t.Holds rows a) (h' : t.Holds rows b) (ha : t.fits a) (hb : t.fits b)
    (hkey : t.key a = t.key b) : a = b := by
  have hwrite : t.codec.write a = t.codec.write b := by
    rw [Holds, hkey, show rows.get? (t.key b) = some (t.codec.write b) from h'] at h
    exact (Option.some.inj h).symm
  have hdecode := decode_row ha
  rw [row, hwrite] at hdecode
  exact Except.ok.inj (hdecode.symm.trans (decode_row hb))

/-! ## Changes -/

theorem holds_insert : t.Holds (rows.insert (t.key a) (t.codec.write a)) a := by
  rw [Holds, Table.get?_insert, if_pos rfl]

theorem fills_empty : t.Fills .empty := fun key value _ h => by
  rw [Table.get?_empty] at h
  cases h

theorem Fills.insert (h : t.Fills rows) (ha : t.fits a) :
    t.Fills (rows.insert (t.key a) (t.codec.write a)) := by
  intro key value hkey hvalue
  rw [Table.get?_insert] at hvalue
  split at hvalue
  next heq => exact ⟨a, ha, by rw [row, heq, Option.some.inj hvalue]⟩
  · exact h key value hkey hvalue

/-- A row beside the table does not count. -/
theorem Fills.insert_beside (h : t.Fills rows) {key value : Bytes}
    (hkey : t.start.isPrefixOf key = false) : t.Fills (rows.insert key value) := by
  intro key' value' hkey' hvalue
  rw [Table.get?_insert] at hvalue
  split at hvalue
  next heq =>
    rw [heq, hkey'] at hkey
    cases hkey
  · exact h key' value' hkey' hvalue

/-- What writing the row of a value changes. -/
structure Writes (t : RowTable α) (a : α) (rows rows' : Rows) : Prop where
  held : t.Holds rows' a
  others : ∀ key, key ≠ t.key a → rows'.get? key = rows.get? key
  fills : t.Fills rows → t.Fills rows'

theorem writes_insert (ha : t.fits a) :
    t.Writes a rows (rows.insert (t.key a) (t.codec.write a)) where
  held := holds_insert
  others key hne := by rw [Table.get?_insert, if_neg hne.symm]
  fills h := h.insert ha

/-! ## Listings -/

theorem exists_rows {rs : List (Bytes × Bytes)} (h : ∀ r ∈ rs, ∃ a, t.fits a ∧ t.row a = r) :
    ∃ as : List α, (∀ a ∈ as, t.fits a) ∧ rs = as.map t.row := by
  induction rs with
  | nil => exact ⟨[], by simp, rfl⟩
  | cons r rs ih =>
    rw [List.forall_mem_cons] at h
    obtain ⟨⟨a, ha, rfl⟩, hrest⟩ := h
    obtain ⟨as, has, rfl⟩ := ih hrest
    exact ⟨a :: as, List.forall_mem_cons.2 ⟨ha, has⟩, rfl⟩

/-- A listing of a table is the rows of the values that it holds, in the order of their keys. -/
theorem Fills.exists_listed (h : t.Fills rows) :
    ∃ as : List α, rows.under t.start = as.map t.row ∧ (∀ a, a ∈ as ↔ t.fits a ∧ t.Holds rows a) ∧
      as.Pairwise fun a b => before (t.key a) (t.key b) = true := by
  have hrows : ∀ r ∈ rows.under t.start, ∃ a, t.fits a ∧ t.row a = r := by
    rintro ⟨key, value⟩ hr
    obtain ⟨hkey, hvalue⟩ := Rows.mem_under_iff.1 hr
    exact h key value hkey hvalue
  obtain ⟨as, hfits, hlist⟩ := exists_rows hrows
  refine ⟨as, hlist, fun a => ?_, ?_⟩
  · have hheld : ∀ b ∈ as, t.Holds rows b := fun b hb =>
      (Rows.mem_under_iff.1 (hlist ▸ List.mem_map_of_mem hb)).2
    refine ⟨fun ha => ⟨hfits a ha, hheld a ha⟩, fun ⟨ha, hholds⟩ => ?_⟩
    have hmem : t.row a ∈ as.map t.row :=
      hlist ▸ Rows.mem_under_iff.2 ⟨t.isPrefixOf_key a, hholds⟩
    obtain ⟨b, hb, hrow⟩ := List.mem_map.1 hmem
    rwa [hholds.eq (hheld b hb) ha (hfits b hb) (congrArg Prod.fst hrow).symm]
  · have hascending := (rows.filter fun k _ => t.start.isPrefixOf k).ascending
    rwa [← Rows.under_eq, hlist, List.pairwise_map] at hascending

/-- Rows of values read as these values. -/
theorem mapM_decode {as : List α} (h : ∀ a ∈ as, t.fits a) :
    (as.map t.row).mapM (fun row => t.codec.decode row.2) = .ok as := by
  induction as with
  | nil => rfl
  | cons a as ih =>
    obtain ⟨ha, has⟩ := List.forall_mem_cons.1 h
    rw [List.map_cons, List.mapM_cons, decode_row ha, ih has]
    rfl

end RowTable

/-! ## The three tables -/

namespace Ledger

/-- The headers by height. -/
def headerRows : RowTable Header where
  start := headerTable
  key h := headerKey h.height
  codec := .header
  fits _ := True
  isPrefixOf_key h := isPrefixOf_headerKey h.height
  restores := Codec.restores_header

/-- The bridge records by transaction. -/
def recordRows : RowTable Record where
  start := recordTable
  key r := recordKey r.txHash
  codec := .record
  fits := Record.Fits
  isPrefixOf_key r := isPrefixOf_recordKey r.txHash
  restores := Codec.restores_record

end Ledger

/-- The quorum members by sign address. -/
def Members.memberRows : RowTable QuorumMember where
  start := table
  key m := key m.signAddress
  codec := .member
  fits := QuorumMember.Fits
  isPrefixOf_key m := isPrefixOf_key m.signAddress
  restores := Codec.restores_member

end EvmBridge
