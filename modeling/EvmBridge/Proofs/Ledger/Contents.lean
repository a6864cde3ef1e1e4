import EvmBridge.Proofs.Ledger.Keys
import EvmBridge.Proofs.RowRoundTrip
import EvmBridge.Proofs.StoreCalls
import EvmBridge.Proofs.Tables

/-! # What a ledger's rows say

`Contents` are headers by height and bridge records by transaction hash, as two finite maps, and
`Contents.HeldBy` relates them to the rows of a store that write them down. Every change of a row that
the ledger makes is a change of one of the maps, and the listings that the ledger reads are the
entries of the maps in order.
-/

namespace EvmBridge
set_option autoImplicit false

open Ledger

/-! ## Rows that were written -/

namespace Ledger

theorem readHeader_write (h : Header) : readHeader (some (Codec.header.write h)) = .ok (some h) := by
  rw [readHeader, Codec.decode_header]
  rfl

theorem readRecord_write {r : Record} (hr : r.Fits) :
    readRecord (some (Codec.record.write r)) = .ok (some r) := by
  rw [readRecord, Codec.decode_record hr]
  rfl

/-- Records that read one by one can be cut off. -/
theorem exists_staleRecords (below : UInt64) {rows : List (Bytes × Bytes)}
    (h : ∀ row ∈ rows, ∃ r, Codec.record.decode row.2 = .ok r) :
    ∃ keys, staleRecords below rows = .ok keys := by
  induction rows with
  | nil => exact ⟨[], rfl⟩
  | cons row rows ih =>
    obtain ⟨⟨r, hr⟩, hrest⟩ := List.forall_mem_cons.1 h
    obtain ⟨keys, hkeys⟩ := ih hrest
    simp only [staleRecords, hr, hkeys, bind, Except.bind]
    exact ⟨_, rfl⟩

/-- The stale keys are those of the rows that read as records of blocks below the height. -/
theorem mem_staleRecords_iff {below : UInt64} {rows : List (Bytes × Bytes)} {keys : List Bytes}
    (h : staleRecords below rows = .ok keys) {key : Bytes} : key ∈ keys ↔
      ∃ row r, (key, row) ∈ rows ∧ Codec.record.decode row = .ok r ∧ r.blockHeight < below := by
  induction rows generalizing keys with
  | nil =>
    cases h
    simp
  | cons first rows ih =>
    obtain ⟨r, hr, h⟩ := exists_of_bind_eq_ok h
    obtain ⟨rest, hrest, h⟩ := exists_of_bind_eq_ok h
    cases h
    have hfirst : (∃ row r', (key, row) = first ∧ Codec.record.decode row = .ok r' ∧
        r'.blockHeight < below) ↔ key = first.1 ∧ r.blockHeight < below := by
      constructor
      · rintro ⟨row, r', rfl, hr', hlt⟩
        rw [hr] at hr'
        cases hr'
        exact ⟨rfl, hlt⟩
      · rintro ⟨rfl, hlt⟩
        exact ⟨first.2, r, rfl, hr, hlt⟩
    simp only [List.mem_cons, or_and_right, exists_or, hfirst, ← ih hrest]
    by_cases hlt : r.blockHeight < below
    · simp [hlt]
    · simp [hlt]

/-- Rows of records that fit all read. -/
theorem staleRecords_map {below : UInt64} {α : Type} {key : α → Bytes} {value : α → Record}
    {es : List α} (h : ∀ e ∈ es, (value e).Fits) :
    staleRecords below (es.map fun e => (key e, Codec.record.write (value e)))
      = .ok ((es.filter fun e => (value e).blockHeight < below).map key) := by
  induction es with
  | nil => rfl
  | cons e es ih =>
    obtain ⟨he, hes⟩ := List.forall_mem_cons.1 h
    simp only [List.map_cons, staleRecords, Codec.decode_record he, ih hes, bind, Except.bind, pure,
      Except.pure]
    by_cases hb : (value e).blockHeight < below
    · simp [hb]
    · simp [hb]

end Ledger

/-! ## Contents -/

/-- Headers by height, and bridge records by the hash of their transaction. -/
structure Contents where
  headers : Table UInt64 Header
  records : Table Hash Record

namespace Contents

/-- No headers and no records. -/
def empty : Contents := ⟨.empty, .empty⟩

/-- With a header, instead of any at its height. -/
def addHeader (c : Contents) (h : Header) : Contents :=
  { c with headers := c.headers.insert h.height h }

/-- Without the header at a height. -/
def dropHeader (c : Contents) (height : UInt64) : Contents :=
  { c with headers := c.headers.erase height }

/-- With a bridge record, instead of any of its transaction. -/
def addRecord (c : Contents) (r : Record) : Contents :=
  { c with records := c.records.insert r.txHash r }

/-- Without the bridge record of a transaction. -/
def dropRecord (c : Contents) (hash : Hash) : Contents :=
  { c with records := c.records.erase hash }

/-- With bridge records, of which the later ones count. -/
def addRecords (c : Contents) (rs : List Record) : Contents := rs.foldl addRecord c

/-- Without the headers, and without the records of blocks, below a height. -/
def cutOff (c : Contents) (below : UInt64) : Contents where
  headers := c.headers.filter fun height _ => ¬ height < below
  records := c.records.filter fun _ r => ¬ r.blockHeight < below

/-- The newest header where the slot holds `slot`. -/
def latest (c : Contents) (slot : Option Header) : Option Header :=
  slot.or (c.headers.last?.map (·.2))

/-- The kept header right below a height. -/
def below? (c : Contents) (height : UInt64) : Option Header :=
  if height = 0 then none else c.headers.get? (height - 1)

theorem get?_dropHeader_sub_one (c : Contents) (height : UInt64) :
    (c.dropHeader height).headers.get? (height - 1) = c.headers.get? (height - 1) := by
  have hne : height ≠ height - 1 := by
    intro h
    have := congrArg UInt64.toNat h
    have := height.toNat_lt
    rw [UInt64.toNat_sub] at *
    simp at *
    omega
  rw [dropHeader, Table.get?_erase, if_neg hne]

theorem headers_addRecords (c : Contents) (rs : List Record) :
    (c.addRecords rs).headers = c.headers := by
  induction rs generalizing c with
  | nil => rfl
  | cons r rs ih => exact ih (c.addRecord r)

theorem get?_addHeader_eq_some_iff {c : Contents} {new h : Header} {height : UInt64} :
    (c.addHeader new).headers.get? height = some h ↔
      height = new.height ∧ h = new ∨ height ≠ new.height ∧ c.headers.get? height = some h := by
  rw [addHeader, Table.get?_insert]
  by_cases heq : new.height = height
  · simp [heq, eq_comm]
  · simp [heq, Ne.symm heq]

theorem get?_dropHeader_eq_some_iff {c : Contents} {h : Header} {height k : UInt64} :
    (c.dropHeader height).headers.get? k = some h ↔ k ≠ height ∧ c.headers.get? k = some h := by
  rw [dropHeader, Table.get?_erase]
  by_cases heq : height = k
  · simp [heq]
  · simp [heq, Ne.symm heq]

theorem get?_dropHeader_eq_none_iff {c : Contents} {height k : UInt64} :
    (c.dropHeader height).headers.get? k = none ↔ k = height ∨ c.headers.get? k = none := by
  simp only [Option.eq_none_iff_forall_ne_some, ne_eq, get?_dropHeader_eq_some_iff]
  grind

theorem records_addHeader (c : Contents) (h : Header) : (c.addHeader h).records = c.records := rfl

/-- Whether rows write down exactly these headers and bridge records, next to whatever else the store
is used for. -/
structure HeldBy (c : Contents) (rows : Rows) : Prop where
  header : ∀ h, rows.get? (headerKey h) = (c.headers.get? h).map Codec.header.write
  record : ∀ x, rows.get? (recordKey x) = (c.records.get? x).map Codec.record.write
  header_key : ∀ key v, headerTable.isPrefixOf key = true → rows.get? key = some v →
    ∃ h, key = headerKey h
  record_key : ∀ key v, recordTable.isPrefixOf key = true → rows.get? key = some v →
    ∃ x, key = recordKey x
  fits : ∀ x r, c.records.get? x = some r → r.Fits

theorem heldBy_empty {rows : Rows} (hh : rows.under headerTable = [])
    (hr : rows.under recordTable = []) : empty.HeldBy rows where
  header h := Rows.get?_eq_none_of_under_eq_nil hh (isPrefixOf_headerKey h)
  record x := Rows.get?_eq_none_of_under_eq_nil hr (isPrefixOf_recordKey x)
  header_key key v hp hv := by
    rw [Rows.get?_eq_none_of_under_eq_nil hh hp] at hv
    cases hv
  record_key key v hp hv := by
    rw [Rows.get?_eq_none_of_under_eq_nil hr hp] at hv
    cases hv
  fits x r h := by cases h

namespace HeldBy
variable {c : Contents} {rows : Rows}

/-! ### Changes -/

theorem addHeader (hc : c.HeldBy rows) (h : Header) :
    (c.addHeader h).HeldBy (rows.insert (headerKey h.height) (Codec.header.write h)) where
  header h' := by
    rw [Table.get?_insert, Contents.addHeader, Table.get?_insert]
    by_cases he : h.height = h'
    · rw [if_pos he, if_pos (congrArg headerKey he)]
      rfl
    · rw [if_neg he, if_neg fun hk => he (headerKey_injective hk), hc.header]
  record x := by
    rw [Table.get?_insert, if_neg (headerKey_ne_recordKey _ _)]
    exact hc.record x
  header_key key v hp hv := by
    rw [Table.get?_insert] at hv
    split at hv
    next he => exact ⟨h.height, he.symm⟩
    · exact hc.header_key key v hp hv
  record_key key v hp hv := by
    rw [Table.get?_insert] at hv
    split at hv
    next he =>
      rw [← he, not_isPrefixOf_recordTable (isPrefixOf_headerKey _)] at hp
      cases hp
    · exact hc.record_key key v hp hv
  fits := hc.fits

theorem dropHeader (hc : c.HeldBy rows) (height : UInt64) :
    (c.dropHeader height).HeldBy (rows.erase (headerKey height)) where
  header h' := by
    rw [Table.get?_erase, Contents.dropHeader, Table.get?_erase]
    by_cases he : height = h'
    · rw [if_pos he, if_pos (congrArg headerKey he)]
      rfl
    · rw [if_neg he, if_neg fun hk => he (headerKey_injective hk), hc.header]
  record x := by
    rw [Table.get?_erase, if_neg (headerKey_ne_recordKey _ _)]
    exact hc.record x
  header_key key v hp hv := hc.header_key key v hp (Table.get?_of_get?_erase hv)
  record_key key v hp hv := hc.record_key key v hp (Table.get?_of_get?_erase hv)
  fits := hc.fits

theorem dropRecord (hc : c.HeldBy rows) (hash : Hash) :
    (c.dropRecord hash).HeldBy (rows.erase (recordKey hash)) where
  header h := by
    rw [Table.get?_erase, if_neg fun he => headerKey_ne_recordKey _ _ he.symm]
    exact hc.header h
  record x := by
    rw [Table.get?_erase, Contents.dropRecord, Table.get?_erase]
    by_cases he : hash = x
    · rw [if_pos he, if_pos (congrArg recordKey he)]
      rfl
    · rw [if_neg he, if_neg fun hk => he (recordKey_injective hk), hc.record]
  header_key key v hp hv := hc.header_key key v hp (Table.get?_of_get?_erase hv)
  record_key key v hp hv := hc.record_key key v hp (Table.get?_of_get?_erase hv)
  fits x r h := hc.fits x r (Table.get?_of_get?_erase h)

theorem addRecord (hc : c.HeldBy rows) {r : Record} (hr : r.Fits) :
    (c.addRecord r).HeldBy (rows.insert (recordKey r.txHash) (Codec.record.write r)) where
  header h := by
    rw [Table.get?_insert, if_neg fun he => headerKey_ne_recordKey _ _ he.symm]
    exact hc.header h
  record x := by
    rw [Table.get?_insert, Contents.addRecord, Table.get?_insert]
    by_cases he : r.txHash = x
    · rw [if_pos he, if_pos (congrArg recordKey he)]
      rfl
    · rw [if_neg he, if_neg fun hk => he (recordKey_injective hk), hc.record]
  header_key key v hp hv := by
    rw [Table.get?_insert] at hv
    split at hv
    next he =>
      rw [← he, not_isPrefixOf_headerTable (isPrefixOf_recordKey _)] at hp
      cases hp
    · exact hc.header_key key v hp hv
  record_key key v hp hv := by
    rw [Table.get?_insert] at hv
    split at hv
    next he => exact ⟨r.txHash, he.symm⟩
    · exact hc.record_key key v hp hv
  fits x r' h := by
    rw [Contents.addRecord, Table.get?_insert] at h
    split at h
    · cases h
      exact hr
    · exact hc.fits x r' h

/-! ### Listings -/

theorem under_headers (hc : c.HeldBy rows) : rows.under headerTable
    = c.headers.entries.map fun e => (headerKey e.1, Codec.header.write e.2) :=
  Rows.under_eq_map headerKey_before_iff.2 isPrefixOf_headerKey hc.header hc.header_key

theorem under_records (hc : c.HeldBy rows) : rows.under recordTable
    = c.records.entries.map fun e => (recordKey e.1, Codec.record.write e.2) :=
  Rows.under_eq_map recordKey_before_iff.2 isPrefixOf_recordKey hc.record hc.record_key

theorem readHeader_last (hc : c.HeldBy rows) :
    readHeader ((rows.under headerTable).getLast?.map (·.2))
      = .ok (c.headers.last?.map (·.2)) := by
  rw [hc.under_headers, List.getLast?_map, Table.last?]
  cases c.headers.entries.getLast? with
  | none => rfl
  | some e => exact readHeader_write e.2

theorem readHeader_get (hc : c.HeldBy rows) (height : UInt64) :
    readHeader (rows.get? (headerKey height)) = .ok (c.headers.get? height) := by
  rw [hc.header]
  cases c.headers.get? height with
  | none => rfl
  | some h => exact readHeader_write h

theorem readRecord_get (hc : c.HeldBy rows) (hash : Hash) :
    readRecord (rows.get? (recordKey hash)) = .ok (c.records.get? hash) := by
  rw [hc.record]
  cases hr : c.records.get? hash with
  | none => rfl
  | some r => exact readRecord_write (hc.fits hash r hr)

/-! ### Cutting off -/

theorem staleHeaders_eq (hc : c.HeldBy rows) (below : UInt64) :
    staleHeaders below (rows.under headerTable)
      = (c.headers.entries.filter fun e => e.1 < below).map fun e => headerKey e.1 := by
  have hk : ∀ h : UInt64, heightOfKey? (headerKey h) = some h :=
    fun h => heightOfKey?_eq_some_iff.2 rfl
  rw [hc.under_headers, staleHeaders, List.map_map, List.filter_map]
  simp [Function.comp_def, hk]

theorem staleRecords_eq (hc : c.HeldBy rows) (below : UInt64) :
    staleRecords below (rows.under recordTable)
      = .ok ((c.records.entries.filter fun e => e.2.blockHeight < below).map
          fun e => recordKey e.1) := by
  rw [hc.under_records]
  exact staleRecords_map fun e he => hc.fits e.1 e.2 ((c.records.get?_eq_some_iff e.1 e.2).2 he)

end HeldBy

/-- The keys of all rows that are cut off below a height. -/
def staleKeys (c : Contents) (below : UInt64) : List Bytes :=
  (c.headers.entries.filter fun e => e.1 < below).map (fun e => headerKey e.1)
    ++ (c.records.entries.filter fun e => e.2.blockHeight < below).map fun e => recordKey e.1

theorem headerKey_mem_staleKeys {c : Contents} {below h : UInt64} :
    headerKey h ∈ c.staleKeys below ↔ (c.headers.get? h).isSome ∧ h < below := by
  simp only [staleKeys, List.mem_append, List.mem_map, List.mem_filter, decide_eq_true_eq]
  constructor
  · rintro (⟨e, ⟨he, hlt⟩, hk⟩ | ⟨e, -, hk⟩)
    · obtain rfl := headerKey_injective hk
      rw [(c.headers.get?_eq_some_iff e.1 e.2).2 he]
      exact ⟨rfl, hlt⟩
    · exact absurd hk.symm (headerKey_ne_recordKey _ _)
  · rintro ⟨hs, hlt⟩
    obtain ⟨hd, hg⟩ := Option.isSome_iff_exists.1 hs
    exact .inl ⟨(h, hd), ⟨(c.headers.get?_eq_some_iff h hd).1 hg, hlt⟩, rfl⟩

theorem recordKey_mem_staleKeys {c : Contents} {below : UInt64} {x : Hash} :
    recordKey x ∈ c.staleKeys below ↔ ∃ r, c.records.get? x = some r ∧ r.blockHeight < below := by
  simp only [staleKeys, List.mem_append, List.mem_map, List.mem_filter, decide_eq_true_eq]
  constructor
  · rintro (⟨e, -, hk⟩ | ⟨e, ⟨he, hlt⟩, hk⟩)
    · exact absurd hk (headerKey_ne_recordKey _ _)
    · obtain rfl := recordKey_injective hk
      exact ⟨e.2, (c.records.get?_eq_some_iff e.1 e.2).2 he, hlt⟩
  · rintro ⟨r, hr, hlt⟩
    exact .inr ⟨(x, r), ⟨(c.records.get?_eq_some_iff x r).1 hr, hlt⟩, rfl⟩

/-- Deleting the stale rows cuts the contents off. -/
theorem HeldBy.cutOff {c : Contents} {rows : Rows} (hc : c.HeldBy rows) (below : UInt64) :
    (c.cutOff below).HeldBy (rows.apply ((c.staleKeys below).map .delete)) := by
  constructor
  · intro h
    rw [Rows.get?_apply_delete, Contents.cutOff, Table.get?_filter, hc.header]
    by_cases hlt : h < below
    · cases hg : c.headers.get? h with
      | none => simp
      | some hd =>
        rw [if_pos (headerKey_mem_staleKeys.2 ⟨by rw [hg]; rfl, hlt⟩)]
        simp [hlt]
    · rw [if_neg fun hm => hlt (headerKey_mem_staleKeys.1 hm).2]
      cases c.headers.get? h with
      | none => rfl
      | some hd => simp [hlt]
  · intro x
    rw [Rows.get?_apply_delete, Contents.cutOff, Table.get?_filter, hc.record]
    cases hg : c.records.get? x with
    | none => simp
    | some r =>
      by_cases hlt : r.blockHeight < below
      · rw [if_pos (recordKey_mem_staleKeys.2 ⟨r, hg, hlt⟩)]
        simp [hlt]
      · have hm : recordKey x ∉ c.staleKeys below := by
          intro hm
          obtain ⟨r', hr, hlt'⟩ := recordKey_mem_staleKeys.1 hm
          rw [hg] at hr
          cases hr
          exact hlt hlt'
        rw [if_neg hm]
        simpa using hlt
  · intro key v hp hv
    rw [Rows.get?_apply_delete] at hv
    split at hv
    · cases hv
    · exact hc.header_key key v hp hv
  · intro key v hp hv
    rw [Rows.get?_apply_delete] at hv
    split at hv
    · cases hv
    · exact hc.record_key key v hp hv
  · intro x r h
    rw [Contents.cutOff, Table.get?_filter, Option.filter_eq_some_iff] at h
    exact hc.fits x r h.1

end Contents
end EvmBridge
