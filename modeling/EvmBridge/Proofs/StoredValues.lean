import EvmBridge.Proofs.Ledger.HeightOrder

/-! # What is stored is read

A header, a bridge record and a quorum member are written down in one row each, and every reader of a
row makes exactly that value of it, whatever else the store holds (`stored_values_read`). Readers of a
whole table can do so only where the other rows of the table read as well.
-/

namespace EvmBridge
set_option autoImplicit false
open EvmBridge.Action

namespace Ledger

/-! ## Headers -/

/-- What becomes of a header that is kept. Unless a store call fails, the readers answer it. -/
structure HeaderReads (h : Header) : Prop where
  decodes : Codec.header.decode (Codec.header.write h) = .ok h
  written : ∀ l, Ends (record h) l
    (fun _ l' => headerRows.Writes h l.store.rows l'.store.rows) fun _ _ => l.store.MayFail
  byHeight : ∀ l, headerRows.Holds l.store.rows h →
    Ends (byHeight h.height) l (fun found _ => found = some h) fun _ _ => l.store.MayFail
  /-- Unless the header is at the last height there is, it can be rewound to from above. -/
  rewind : ∀ l, headerRows.Holds l.store.rows h → h.height + 1 ≠ 0 →
    Ends (rewind (h.height + 1)) l (fun previous l' => previous = some h ∧ l'.newest = some h)
      fun _ _ => l.store.MayFail
  latest : ∀ l, l.newest = none →
    (l.store.rows.under headerTable).getLast? = some (headerRows.row h) →
    Ends latest l (fun newest l' => newest = some h ∧ l'.newest = some h) fun _ _ => l.store.MayFail

theorem ends_byHeight_of_holds {l : Ledger} {h : Header} (hh : headerRows.Holds l.store.rows h) :
    Ends (byHeight h.height) l (fun found _ => found = some h) fun _ _ => l.store.MayFail := by
  have hrow : l.store.rows.get? (headerKey h.height) = some (Codec.header.write h) := hh
  refine ends_bind.2 (ends_onStore (ends_ofExcept.2 ?_) fun hf _ => hf)
  dsimp only
  rw [hrow, readHeader_write]

theorem ends_rewind_of_holds {l : Ledger} {h : Header} (hh : headerRows.Holds l.store.rows h)
    (hne : h.height + 1 ≠ 0) :
    Ends (rewind (h.height + 1)) l (fun previous l' => previous = some h ∧ l'.newest = some h)
      fun _ _ => l.store.MayFail := by
  -- The row above goes, and that of the header stays.
  have hkey : headerKey (h.height + 1) ≠ headerRows.key h := fun he => by
    have hself : h.height + 1 = h.height := headerKey_injective he
    simp at hself
  have hkept : headerRows.Holds (l.store.rows.change (.delete (headerKey (h.height + 1)))) h := by
    rw [RowTable.Holds, Rows.change, Table.get?_erase, if_neg hkey]
    exact hh
  refine ends_bind.2 (ends_onStore ?_ fun hf _ => hf)
  rw [if_neg hne, UInt64.add_sub_cancel]
  refine (ends_byHeight_of_holds hkept).bind ?_ fun _ _ hf => hf
  rintro _ _ rfl
  exact ⟨rfl, rfl⟩

theorem headerReads (h : Header) : HeaderReads h where
  decodes := Codec.decode_header h
  written _ := ends_bind.2 (ends_onStore (RowTable.writes_insert trivial) fun hf _ => hf)
  byHeight _ := ends_byHeight_of_holds
  rewind _ := ends_rewind_of_holds
  latest l hslot hlast := by
    have hread : readHeader ((l.store.rows.under headerTable).getLast?.map (·.2)) = .ok (some h) := by
      rw [hlast]
      exact readHeader_write h
    exact (ends_latest_of_read hslot hread).mono (fun _ _ ⟨hnewest, hl⟩ => ⟨hnewest, hl.newest⟩)
      fun _ _ hf => hf.1

/-! ## Bridge records -/

/-- What becomes of a bridge record that is kept. Unless a store call fails, a look-up answers it, and
a cut removes its row exactly if it reads as a record of a block below the bound. -/
structure RecordReads (r : Record) : Prop where
  decodes : Codec.record.decode (Codec.record.write r) = .ok r
  written : ∀ l, Ends (cacheRecord r) l
    (fun _ l' => recordRows.Writes r l.store.rows l'.store.rows) fun _ _ => l.store.MayFail
  cached : ∀ l, recordRows.Holds l.store.rows r →
    Ends (cachedRecord r.txHash) l (fun found _ => found = some r) fun _ _ => l.store.MayFail
  pruned : ∀ l below, recordRows.Holds l.store.rows r → RecordsRead l.store.rows →
    Ends (prune below) l
      (fun _ l' => l'.store.rows.get? (recordKey r.txHash)
        = if r.blockHeight < below then none else some (Codec.record.write r))
      fun _ _ => l.store.MayFail

theorem recordKey_not_mem_staleHeaders {below : UInt64} {hash : Hash} {rows : List (Bytes × Bytes)} :
    recordKey hash ∉ staleHeaders below rows := by
  intro hmem
  obtain ⟨height, hheight, -⟩ := (Option.any_eq_true _ _).1 (List.mem_filter.1 hmem).2
  exact headerKey_ne_recordKey _ _ (heightOfKey?_eq_some_iff.1 hheight).symm

theorem ends_prune_of_holds {l : Ledger} {r : Record} {below : UInt64} (hr : r.Fits)
    (hh : recordRows.Holds l.store.rows r) (hread : RecordsRead l.store.rows) :
    Ends (prune below) l
      (fun _ l' => l'.store.rows.get? (recordKey r.txHash)
        = if r.blockHeight < below then none else some (Codec.record.write r))
      fun _ _ => l.store.MayFail := by
  have hrow : l.store.rows.get? (recordKey r.txHash) = some (Codec.record.write r) := hh
  obtain ⟨keys, hkeys⟩ := exists_staleRecords below hread
  have hstale : recordKey r.txHash ∈ keys ↔ r.blockHeight < below := by
    rw [mem_staleRecords_iff hkeys]
    constructor
    · rintro ⟨row, r', hmem, hdecode, hlt⟩
      have hsame := (Rows.mem_under_iff.1 hmem).2
      rw [hrow] at hsame
      rw [← Option.some.inj hsame, Codec.decode_record hr] at hdecode
      rwa [Except.ok.inj hdecode]
    · intro hlt
      exact ⟨_, r, Rows.mem_under_iff.2 ⟨isPrefixOf_recordKey _, hrow⟩, Codec.decode_record hr, hlt⟩
  refine (ends_prune_get? hkeys).mono (fun _ l' ⟨_, hget⟩ => ?_) fun _ _ hf => hf
  rw [hget, hrow]
  simp only [List.mem_append, recordKey_not_mem_staleHeaders, false_or, hstale]

theorem recordReads {r : Record} (hr : r.Fits) : RecordReads r where
  decodes := Codec.decode_record hr
  written _ := ends_onStore (RowTable.writes_insert hr) fun hf _ => hf
  cached l hh := by
    have hrow : l.store.rows.get? (recordKey r.txHash) = some (Codec.record.write r) := hh
    refine ends_bind.2 (ends_onStore (ends_ofExcept.2 ?_) fun hf _ => hf)
    dsimp only
    rw [hrow, readRecord_write hr]
  pruned _ _ := ends_prune_of_holds hr

end Ledger

/-! ## Quorum members -/

namespace Members

/-- What becomes of a member that is stored. -/
structure MemberReads (m : QuorumMember) : Prop where
  decodes : Codec.member.decode (Codec.member.write m) = .ok m
  written : ∀ s, Ends (save m) s (fun _ s' => memberRows.Writes m s.rows s'.rows) fun _ _ => s.MayFail

/-- Loading answers each member that the rows were written for, once. -/
theorem ends_load_of_fills {s : Store} (hrows : memberRows.Fills s.rows) :
    Ends load s
      (fun ms _ => ms.Nodup ∧ ∀ m, m ∈ ms ↔ QuorumMember.Fits m ∧ memberRows.Holds s.rows m)
      fun _ _ => s.MayFail := by
  obtain ⟨ms, hlist, hmem, hascending⟩ := hrows.exists_listed
  have hread : (s.rows.under table).mapM (fun row => Codec.member.decode row.2) = .ok ms := by
    have hlist : s.rows.under table = ms.map memberRows.row := hlist
    rw [hlist]
    exact memberRows.mapM_decode fun m hm => ((hmem m).1 hm).1
  have hnodup : ms.Nodup := hascending.imp fun hlt heq =>
    ne_of_before hlt (congrArg memberRows.key heq)
  refine ends_bind.2 (Store.ends_perform ?_ fun hf _ => hf)
  refine ends_bind.2 (ends_ofExcept.2 ?_)
  dsimp only
  rw [hread]
  refine ends_pure.2 ⟨(perm_byOrder ms).nodup_iff.2 hnodup, fun m => ?_⟩
  rw [(perm_byOrder ms).mem_iff]
  exact hmem m

theorem memberReads {m : QuorumMember} (hm : m.Fits) : MemberReads m where
  decodes := Codec.decode_member hm
  written s := by
    unfold save Store.put
    exact Store.ends_perform (RowTable.writes_insert hm) fun hf _ => hf

end Members

/-! ## All that is stored -/

/-- Headers, bridge records and members are read as they were written. The lengths of the texts and
lists of a record or a member are to be numbers of eight bytes, as those of anything in memory are. -/
theorem stored_values_read :
    (∀ h : Header, Ledger.HeaderReads h) ∧
    (∀ r : Record, r.Fits → Ledger.RecordReads r) ∧
    (∀ m : QuorumMember, m.Fits → Members.MemberReads m) ∧
    ∀ s : Store, Members.memberRows.Fills s.rows → Ends Members.load s
      (fun ms _ => ms.Nodup ∧ ∀ m, m ∈ ms ↔ QuorumMember.Fits m ∧ Members.memberRows.Holds s.rows m)
      fun _ _ => s.MayFail :=
  ⟨Ledger.headerReads, fun _ => Ledger.recordReads, fun _ => Members.memberReads,
    fun _ => Members.ends_load_of_fills⟩

/-- A header, a record of the greatest amount there is with texts beyond ASCII, and a member, next to
each other in one store. -/
theorem stored_values_read_together :
    let h := Sample.header 9
    let r : Record := {
      Record.ofTransaction .deposit (Sample.transaction (.fill 7) Sample.user Sample.bridgeContract
        (BitVec.allOnes 256) []) (.token Sample.token 3 18) with
      counterpart := some "адрес", signers := [Sample.user, Sample.relayer] }
    let m := Sample.member "ключ" "02aa" true 1
    let rows : Rows := ((Table.empty.insert (Ledger.headerKey 9) (Codec.header.write h)).insert
      (Ledger.recordKey (.fill 7)) (Codec.record.write r)).insert (Members.key "ключ")
      (Codec.member.write m)
    let l := Ledger.ofStore (.reliable rows)
    r.Fits ∧ m.Fits ∧ (Ledger.byHeight 9).outcome l = .ok (some h) ∧
      (Ledger.cachedRecord (.fill 7)).outcome l = .ok (some r) ∧
      ((Ledger.prune 101).final l).store.rows.get? (Ledger.recordKey (.fill 7)) = none ∧
      ∃ ms, Members.load.outcome l.store = .ok ms ∧ m ∈ ms := by
  intro h r m rows l
  have hr : r.Fits := by
    refine ⟨fun t ht => ?_, nofun, by decide, by decide, by decide⟩
    obtain rfl : "адрес" = t := Option.some.inj ht
    decide
  have hm : m.Fits := ⟨by decide, by decide⟩
  let start : Rows := Table.empty.insert (Ledger.headerKey 9) (Codec.header.write h)
  have hrecord : Ledger.recordRows.Writes r start _ := RowTable.writes_insert hr
  have hmember : Members.memberRows.Writes m _ rows := RowTable.writes_insert hm
  -- Each row stays when the others are written.
  have hh : Ledger.headerRows.Holds rows h :=
    (hmember.others _ (by decide)).trans ((hrecord.others _ (by decide)).trans RowTable.holds_insert)
  have hrow : Ledger.recordRows.Holds rows r := (hmember.others _ (by decide)).trans hrecord.held
  have hrecords : Ledger.recordRows.Fills rows := by
    refine RowTable.Fills.insert_beside (hrecord.fills ?_) (by decide)
    exact RowTable.fills_empty.insert_beside (by decide)
  have hmembers : Members.memberRows.Fills rows := by
    refine hmember.fills (RowTable.Fills.insert_beside ?_ (by decide))
    exact RowTable.fills_empty.insert_beside (by decide)
  -- From here on the rows are whatever they are, and nothing is computed on them.
  clear_value rows
  obtain ⟨hheader, hrecordReads, -, hload⟩ := stored_values_read
  have hreliable : ¬ l.store.MayFail := Store.not_mayFail_reliable rows
  obtain ⟨_, hbyHeight, rfl⟩ := ((hheader h).byHeight l hh).exists_answer fun _ _ => hreliable
  obtain ⟨_, hcached, rfl⟩ := ((hrecordReads r hr).cached l hrow).exists_answer fun _ _ => hreliable
  obtain ⟨_, -, hpruned⟩ := ((hrecordReads r hr).pruned l 101 hrow
    (Ledger.recordsRead_of_fills hrecords)).exists_answer fun _ _ => hreliable
  rw [if_pos (show r.blockHeight < 101 by decide)] at hpruned
  obtain ⟨ms, hms, -, hmem⟩ := (hload l.store hmembers).exists_answer fun _ _ => hreliable
  exact ⟨hr, hm, hbyHeight, hcached, hpruned, ms, hms, (hmem m).2 ⟨hm, hmember.held⟩⟩

end EvmBridge
