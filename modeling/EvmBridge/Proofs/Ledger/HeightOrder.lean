import EvmBridge.Proofs.Ledger.Retry
import EvmBridge.Proofs.WrittenRows

/-! # Headers in the order of their heights

A height is the number that the key of its header row writes behind the start of the table, most
significant byte first. The keys therefore stand in the order of the heights, and whatever headers were
kept, in whatever order, the last row of the table is the highest header and a cut finds exactly the
headers below its bound (`Ledger.headers_by_height`).
-/

namespace EvmBridge.Ledger
set_option autoImplicit false
open KeyOrder (before)
open EvmBridge.Action

/-- Whether a header is kept and none above it. -/
structure IsHighest (rows : Rows) (h : Header) : Prop where
  held : headerRows.Holds rows h
  highest : ∀ other, headerRows.Holds rows other → other.height ≤ h.height

/-- Whether every bridge record row reads. -/
def RecordsRead (rows : Rows) : Prop :=
  ∀ row ∈ rows.under recordTable, ∃ r, Codec.record.decode row.2 = .ok r

theorem recordsRead_of_fills {rows : Rows} (h : recordRows.Fills rows) : RecordsRead rows := by
  intro row hmem
  obtain ⟨hkey, hvalue⟩ := Rows.mem_under_iff.1 hmem
  obtain ⟨r, hr, hrow⟩ := h row.1 row.2 hkey hvalue
  exact ⟨r, by rw [← congrArg Prod.snd hrow]; exact recordRows.decode_row hr⟩

/-! ## The rows of the header table -/

section Listing
variable {rows : Rows} {below : UInt64}

theorem height_lt_iff {a b : UInt64} : a < b ↔ before (headerKey a) (headerKey b) = true := by
  rw [headerKey_before_iff, UInt64.lt_iff_toNat_lt]
  exact decide_eq_true_iff.symm

/-- The headers of a table that holds nothing else, in the order of their heights. -/
theorem exists_headers (hrows : headerRows.Fills rows) :
    ∃ hs : List Header, rows.under headerTable = hs.map headerRows.row ∧
      (∀ h, h ∈ hs ↔ headerRows.Holds rows h) ∧ hs.Pairwise fun a b => a.height < b.height := by
  obtain ⟨hs, hlist, hmem, hascending⟩ := hrows.exists_listed
  exact ⟨hs, hlist, fun h => (hmem h).trans (and_iff_right trivial), hascending.imp height_lt_iff.2⟩

theorem eq_of_height_eq {a b : Header} (ha : headerRows.Holds rows a) (hb : headerRows.Holds rows b)
    (h : a.height = b.height) : a = b :=
  ha.eq hb trivial trivial (congrArg headerKey h)

/-- Of headers that ascend, the last one is the highest. -/
theorem getLast?_eq_some_iff_isHighest {hs : List Header} {h : Header}
    (hmem : ∀ h, h ∈ hs ↔ headerRows.Holds rows h)
    (hascending : hs.Pairwise fun a b => a.height < b.height) :
    hs.getLast? = some h ↔ IsHighest rows h := by
  have hlast : ∀ last, hs.getLast? = some last → IsHighest rows last := by
    intro last h
    obtain ⟨init, rfl⟩ := List.getLast?_eq_some_iff.1 h
    refine ⟨(hmem last).1 (by simp), fun other hother => ?_⟩
    rcases List.mem_append.1 ((hmem other).2 hother) with hinit | hone
    · have hlt := (List.pairwise_append.1 hascending).2.2 other hinit last (List.mem_singleton_self _)
      exact UInt64.le_of_lt hlt
    · rw [List.mem_singleton.1 hone]
      exact UInt64.le_refl _
  refine ⟨hlast h, fun hh => ?_⟩
  cases hl : hs.getLast? with
  | none =>
    rw [List.getLast?_eq_none_iff.1 hl] at hmem
    exact absurd ((hmem h).2 hh.held) List.not_mem_nil
  | some last =>
    have hlast := hlast last hl
    have heq := UInt64.le_antisymm (hh.highest last hlast.held) (hlast.highest h hh.held)
    rw [eq_of_height_eq hlast.held hh.held heq]

theorem getLast?_headers_iff (hrows : headerRows.Fills rows) {row : Bytes × Bytes} :
    (rows.under headerTable).getLast? = some row ↔ ∃ h, IsHighest rows h ∧ row = headerRows.row h := by
  obtain ⟨hs, hlist, hmem, hascending⟩ := exists_headers hrows
  rw [hlist, List.getLast?_map, Option.map_eq_some_iff]
  exact exists_congr fun h =>
    and_congr (getLast?_eq_some_iff_isHighest hmem hascending) eq_comm

theorem nodup_staleHeaders : (staleHeaders below (rows.under headerTable)).Nodup := by
  rw [staleHeaders, Rows.under_eq]
  refine List.Pairwise.filter _ (List.pairwise_map.2 ?_)
  exact (rows.filter fun key _ => headerTable.isPrefixOf key).ascending.imp ne_of_before

theorem mem_staleHeaders_iff (hrows : headerRows.Fills rows) {key : Bytes} :
    key ∈ staleHeaders below (rows.under headerTable) ↔
      ∃ h, headerRows.Holds rows h ∧ key = headerKey h.height ∧ h.height < below := by
  obtain ⟨hs, hlist, hmem, -⟩ := exists_headers hrows
  have hheight : ∀ h : Header, heightOfKey? (headerRows.row h).1 = some h.height :=
    fun h => heightOfKey?_eq_some_iff.2 rfl
  rw [hlist, staleHeaders, List.map_map, List.filter_map, List.mem_map]
  simp only [Function.comp_apply, List.mem_filter, hmem, hheight, Option.any_some, decide_eq_true_eq]
  constructor
  · rintro ⟨h, ⟨hh, hlt⟩, rfl⟩
    exact ⟨h, hh, rfl, hlt⟩
  · rintro ⟨h, hh, rfl, hlt⟩
    exact ⟨h, ⟨hh, hlt⟩, rfl⟩

end Listing

/-! ## Reading and cutting off -/

section Calls
variable {l : Ledger} {below : UInt64}

/-- The newest header is the highest one, and there is none only if no header is kept. -/
theorem ends_latest_of_headers (hslot : l.newest = none) (hrows : headerRows.Fills l.store.rows) :
    Ends latest l (fun newest _ => ∀ h, newest = some h ↔ IsHighest l.store.rows h)
      fun _ _ => l.store.MayFail := by
  obtain ⟨hs, hlist, hmem, hascending⟩ := exists_headers hrows
  have hread : readHeader ((l.store.rows.under headerTable).getLast?.map (·.2)) = .ok hs.getLast? := by
    rw [hlist, List.getLast?_map]
    cases hs.getLast? with
    | none => rfl
    | some h => exact readHeader_write h
  refine (ends_latest_of_read hslot hread).mono ?_ fun _ _ hf => hf.1
  rintro _ _ ⟨rfl, -⟩ h
  exact getLast?_eq_some_iff_isHighest hmem hascending

/-- What a cut leaves under a key. -/
theorem ends_prune_get? {keys : List Bytes}
    (hkeys : staleRecords below (l.store.rows.under recordTable) = .ok keys) :
    Ends (prune below) l
      (fun n l' => n = (staleHeaders below (l.store.rows.under headerTable)).length ∧
        ∀ key, l'.store.rows.get? key
          = if key ∈ staleHeaders below (l.store.rows.under headerTable) ++ keys then none
            else l.store.rows.get? key)
      fun _ _ => l.store.MayFail := by
  refine (ends_prune_of_read hkeys).mono ?_ fun _ _ hf => hf.1
  rintro n l' ⟨hn, made, hl⟩
  refine ⟨hn, fun key => ?_⟩
  rw [hl.rows, Rows.get?_apply_delete]

/-- What a cut leaves of the headers. -/
theorem ends_prune_headers (hrows : headerRows.Fills l.store.rows) (hread : RecordsRead l.store.rows) :
    Ends (prune below) l
      (fun n l' => n = (staleHeaders below (l.store.rows.under headerTable)).length ∧
        ∀ h, headerRows.Holds l'.store.rows h ↔
          headerRows.Holds l.store.rows h ∧ below ≤ h.height)
      fun _ _ => l.store.MayFail := by
  obtain ⟨keys, hkeys⟩ := exists_staleRecords below hread
  have hrecord : ∀ height, headerKey height ∉ keys := by
    intro height hmem
    obtain ⟨row, r, hrow, -⟩ := (mem_staleRecords_iff hkeys).1 hmem
    have hprefix := not_isPrefixOf_headerTable (Rows.mem_under_iff.1 hrow).1
    rw [isPrefixOf_headerKey] at hprefix
    cases hprefix
  refine (ends_prune_get? hkeys).mono (fun n l' ⟨hn, hget⟩ => ⟨hn, fun h => ?_⟩) fun _ _ hf => hf
  have hholds : headerRows.Holds l'.store.rows h ↔
      headerKey h.height ∉ staleHeaders below (l.store.rows.under headerTable) ∧
        headerRows.Holds l.store.rows h := by
    rw [RowTable.Holds, show headerRows.key h = headerKey h.height from rfl, hget]
    simp only [List.mem_append, or_iff_left (hrecord h.height)]
    split
    next hmem => simp [hmem]
    next hmem => exact (and_iff_right hmem).symm
  rw [hholds, mem_staleHeaders_iff hrows, and_comm, ← UInt64.not_lt]
  refine and_congr_right fun hheld => not_congr ⟨?_, fun hlt => ⟨h, hheld, rfl, hlt⟩⟩
  rintro ⟨other, -, hkey, hlt⟩
  rwa [headerKey_injective hkey]

end Calls

/-! ## The order of heights -/

/-- What the order of the keys means for a ledger: the last row of its header table, the newest header
where the slot is empty, and the rows that a cut finds. -/
structure ByHeight (l : Ledger) : Prop where
  last : ∀ row, (l.store.rows.under headerTable).getLast? = some row ↔
    ∃ h, IsHighest l.store.rows h ∧ row = headerRows.row h
  newest : l.newest = none →
    Ends latest l (fun newest _ => ∀ h, newest = some h ↔ IsHighest l.store.rows h)
      fun _ _ => l.store.MayFail
  stale : ∀ below key, key ∈ staleHeaders below (l.store.rows.under headerTable) ↔
    ∃ h, headerRows.Holds l.store.rows h ∧ key = headerKey h.height ∧ h.height < below
  /-- No row is found twice. -/
  once : ∀ below, (staleHeaders below (l.store.rows.under headerTable)).Nodup
  pruned : RecordsRead l.store.rows → ∀ below, Ends (prune below) l
    (fun n l' => n = (staleHeaders below (l.store.rows.under headerTable)).length ∧
      ∀ h, headerRows.Holds l'.store.rows h ↔ headerRows.Holds l.store.rows h ∧ below ≤ h.height)
    fun _ _ => l.store.MayFail

theorem Reachable.fills {l : Ledger} (hl : l.Reachable) :
    headerRows.Fills l.store.rows ∧ RecordsRead l.store.rows := by
  obtain ⟨c, hc⟩ := hl.says
  constructor
  · intro key value hkey hvalue
    obtain ⟨height, rfl⟩ := hc.held.header_key key value hkey hvalue
    rw [hc.held.header] at hvalue
    obtain ⟨h, hh, rfl⟩ := Option.map_eq_some_iff.1 hvalue
    exact ⟨h, trivial, by rw [RowTable.row, ← hc.filed height h hh]; rfl⟩
  · intro row hrow
    rw [hc.held.under_records] at hrow
    obtain ⟨e, he, rfl⟩ := List.mem_map.1 hrow
    have hget := (c.records.get?_eq_some_iff e.1 e.2).2 he
    exact ⟨e.2, Codec.decode_record (hc.held.fits e.1 e.2 hget)⟩

/-- The keys of header rows stand in the order of their heights and give them back, no other key gives
a height, and wherever all header rows were written for headers, as they are in every ledger that comes
of its calls, the rows are found by height. -/
theorem headers_by_height :
    (∀ a b : UInt64, (a < b ↔ before (headerKey a) (headerKey b) = true) ∧
      (a < b ↔ headerKey a < headerKey b)) ∧
    (∀ a, heightOfKey? (headerKey a) = some a) ∧
    (∀ key a, heightOfKey? key = some a → key = headerKey a) ∧
    (∀ l : Ledger, headerRows.Fills l.store.rows → ByHeight l) ∧
    ∀ l : Ledger, l.Reachable → headerRows.Fills l.store.rows ∧ RecordsRead l.store.rows := by
  refine ⟨fun a b => ⟨height_lt_iff, height_lt_iff.trans Bytes.before_iff_lt⟩,
    fun a => heightOfKey?_eq_some_iff.2 rfl, fun key a => heightOfKey?_eq_some_iff.1,
    fun l hrows => ?_, fun l => Reachable.fills⟩
  exact {
    last := fun row => getLast?_headers_iff hrows
    newest := fun hslot => ends_latest_of_headers hslot hrows
    stale := fun below key => mem_staleHeaders_iff hrows
    once := fun below => nodup_staleHeaders
    pruned := fun hread below => ends_prune_headers hrows hread }

/-- Three headers, the highest of them at the last height there is. -/
theorem headers_by_height_carry :
    let record := fun height => LedgerCall.single (.record (Sample.header height))
    let l := [record 256, record 18446744073709551615, record 255].foldl
      (fun l call => call.perform.final (l.withPlan .never)) (Ledger.ofStore (.reliable .empty))
    let again := Ledger.ofStore (.reliable l.store.rows)
    headerKey 255 < headerKey 256 ∧
      latest.outcome again = .ok (some (Sample.header 18446744073709551615)) ∧
      (prune 256).outcome again = .ok 1 ∧
      headerRows.Holds ((prune 256).final again).store.rows (Sample.header 256) ∧
      ¬ headerRows.Holds ((prune 256).final again).store.rows (Sample.header 255) := by
  intro record l again
  have hempty : (Ledger.ofStore (.reliable .empty)).Reachable := .new rfl rfl
  have hreachable : l.Reachable :=
    ((hempty.call .never (record 256)).call .never (record 18446744073709551615)).call .never
      (record 255)
  obtain ⟨horder, -, -, hby, hfills⟩ := headers_by_height
  obtain ⟨hrows, hread⟩ := hfills l hreachable
  have hagain : ByHeight again := hby again hrows
  have hreliable : ∀ (_ : BridgeError) (_ : Ledger), ¬ again.store.MayFail :=
    fun _ _ => Store.not_mayFail_reliable l.store.rows
  obtain ⟨newest, hlatest, hnewest⟩ := (hagain.newest rfl).exists_answer hreliable
  obtain ⟨n, hprune, rfl, hholds⟩ := (hagain.pruned hread 256).exists_answer hreliable
  have hhighest : IsHighest l.store.rows (Sample.header 18446744073709551615) := by
    refine ⟨rfl, fun other _ => ?_⟩
    exact UInt64.le_iff_toNat_le.2 (Nat.le_of_lt_succ other.height.toNat_lt)
  rw [(hnewest _).2 hhighest] at hlatest
  have hlow : (256 : UInt64) ≤ (Sample.header 256).height := by decide
  have hcut : ¬ (256 : UInt64) ≤ (Sample.header 255).height := by decide
  exact ⟨(horder 255 256).2.1 (by decide), hlatest, hprune, (hholds _).2 ⟨rfl, hlow⟩,
    fun hheld => hcut ((hholds _).1 hheld).2⟩

end EvmBridge.Ledger
