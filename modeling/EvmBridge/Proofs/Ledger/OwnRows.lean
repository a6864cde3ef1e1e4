import EvmBridge.Proofs.Ledger.Calls
import EvmBridge.Proofs.StoreParts

/-! # The ledger's own rows

The ledger's tables are a part of its store. No call of the ledger can tell its store from one that
holds only this part (`Ledger.alike_call`), and none touches the other rows (`Ledger.get?_call`).
-/

namespace EvmBridge.Ledger
set_option autoImplicit false
open EvmBridge.Action

/-- Whether a key belongs to one of the ledger's tables. -/
def ownKey (key : Bytes) : Bool := headerTable.isPrefixOf key || recordTable.isPrefixOf key

theorem ownKey_headers {key : Bytes} (h : headerTable.isPrefixOf key = true) : ownKey key = true := by
  rw [ownKey, h, Bool.true_or]

theorem ownKey_records {key : Bytes} (h : recordTable.isPrefixOf key = true) : ownKey key = true := by
  rw [ownKey, h, Bool.or_true]

theorem ownKey_headerKey (height : UInt64) : ownKey (headerKey height) = true :=
  ownKey_headers (isPrefixOf_headerKey height)

theorem ownKey_recordKey (hash : Hash) : ownKey (recordKey hash) = true :=
  ownKey_records (isPrefixOf_recordKey hash)

/-- Whether the store of a second ledger holds the ledger's own rows of a first one's store, and both
have the same slot. -/
structure Beside (plan : FaultPlan) (rest : Rows) (whole part : Ledger) : Prop where
  store : Store.Beside ownKey plan rest whole.store part.store
  newest : whole.newest = part.newest

variable {plan : FaultPlan} {rest : Rows}

theorem alike_onStore {α : Type} {act : Action Store α}
    (h : Alike (Store.Beside ownKey plan rest) act) : Alike (Beside plan rest) (onStore act) :=
  alike_within h (fun _ _ hst => hst.store) fun _ _ _ _ hst hst' => ⟨hst', hst.newest⟩

theorem alike_setNewest (h : Option Header) : Alike (Beside plan rest) (setNewest h) :=
  fun _ _ hst => .ok ⟨hst.store, rfl⟩

theorem alike_record (h : Header) : Alike (Beside plan rest) (record h) :=
  (alike_onStore (Store.alike_put (ownKey_headerKey _) _)).bind fun _ _ => alike_setNewest _

theorem alike_byHeight (height : UInt64) : Alike (Beside plan rest) (byHeight height) :=
  (alike_onStore (Store.alike_get (ownKey_headerKey height))).bind fun _ _ => alike_ofExcept _

theorem alike_cachedRecord (hash : Hash) : Alike (Beside plan rest) (cachedRecord hash) :=
  (alike_onStore (Store.alike_get (ownKey_recordKey hash))).bind fun _ _ => alike_ofExcept _

theorem alike_latest : Alike (Beside plan rest) latest := by
  rintro ⟨s, slot⟩ ⟨t, slot'⟩ hst
  obtain rfl : slot = slot' := hst.newest
  cases slot with
  | some h => exact .ok hst
  | none =>
    -- With empty slots both ledgers look into their stores.
    have hscan : Alike (Beside plan rest) (do
        let rows ← onStore (Store.scan headerTable)
        let h ← Action.ofExcept (readHeader (rows.getLast?.map (·.2)))
        setNewest h
        return h) :=
      (alike_onStore (Store.alike_scan fun _ => ownKey_headers)).bind fun _ _ =>
        (alike_ofExcept _).bind fun h _ => (alike_setNewest h).bind fun _ _ => alike_pure _
    exact hscan _ _ hst

theorem alike_delete (height : UInt64) : Alike (Beside plan rest) (delete height) :=
  alike_onStore (Store.alike_delete (ownKey_headerKey height))

theorem alike_rewind (height : UInt64) : Alike (Beside plan rest) (rewind height) := by
  have hset : ∀ h, Alike (Beside plan rest) (do setNewest h; return h) := fun h =>
    (alike_setNewest h).bind fun _ _ => alike_pure _
  refine (alike_delete height).bind fun _ _ => ?_
  dsimp only
  split
  · exact (alike_pure _).bind fun h _ => hset h
  · exact (alike_byHeight _).bind fun h _ => hset h

/-- The keys that are cut off are keys of rows that were listed. -/
theorem alike_prune (below : UInt64) : Alike (Beside plan rest) (prune below) := by
  refine (alike_onStore (Store.alike_scan fun _ => ownKey_headers)).bind fun headers hheaders => ?_
  refine (alike_onStore (Store.alike_scan fun _ => ownKey_records)).bind fun records hrecords => ?_
  refine (alike_ofExcept _).bind fun keys hkeys => ?_
  have hown : ∀ change ∈ (staleHeaders below headers ++ keys).map RowChange.delete,
      ownKey change.key = true := by
    intro change hchange
    obtain ⟨key, hkey, rfl⟩ := List.mem_map.1 hchange
    rcases List.mem_append.1 hkey with hkey | hkey
    · obtain ⟨row, hrow, rfl⟩ := List.mem_map.1 (List.mem_filter.1 hkey).1
      exact ownKey_headers (Store.isPrefixOf_of_answers_scan (answers_of_within hheaders) hrow)
    · obtain ⟨row, r, hrow, -⟩ := (mem_staleRecords_iff (eq_ok_of_answers hkeys)).1 hkey
      exact ownKey_records (Store.isPrefixOf_of_answers_scan (answers_of_within hrecords) hrow)
  dsimp only
  split
  · exact (alike_pure _).bind fun _ _ => alike_pure _
  · exact (alike_onStore (Store.alike_batch hown)).bind fun _ _ => alike_pure _

theorem alike_purgeUpTo (limit : Nat) : Alike (Beside plan rest) (purgeUpTo limit) := by
  induction limit with
  | zero => exact fun _ _ hst => .error hst
  | succ limit ih =>
    refine alike_latest.bind fun newest _ => ?_
    cases newest with
    | none => exact alike_pure _
    | some h => exact (alike_rewind h.height).bind fun _ _ => ih.bind fun _ _ => alike_pure _

/-- A call sees and changes the ledger's own rows only. -/
theorem alike_call (call : LedgerCall) : Alike (Beside plan rest) call.perform := by
  have hdone : ∀ {α : Type} {act : Action Ledger α} {f : α → LedgerAnswer},
      Alike (Beside plan rest) act → Alike (Beside plan rest) (do return f (← act)) :=
    fun h => h.bind fun _ _ => alike_pure _
  cases call with
  | purge => exact hdone (alike_purgeUpTo _)
  | single op =>
    cases op with
    | record h => exact hdone (alike_record h)
    | prune below => exact hdone (alike_prune below)
    | latest => exact hdone alike_latest
    | byHeight height => exact hdone (alike_byHeight height)
    | delete height => exact hdone (alike_delete height)
    | rewind height => exact hdone (alike_rewind height)
    | cacheRecord r => exact hdone (alike_onStore (Store.alike_put (ownKey_recordKey r.txHash) _))
    | cachedRecord hash => exact hdone (alike_cachedRecord hash)
    | evict hash => exact hdone (alike_onStore (Store.alike_delete (ownKey_recordKey hash)))
    | restart => exact fun _ _ hst => .ok ⟨hst.store, rfl⟩

/-- No call touches rows that are not the ledger's own. -/
theorem get?_call {key : Bytes} (hk : ownKey key = false) (call : LedgerCall) (l : Ledger) :
    (call.perform.final l).store.rows.get? key = l.store.rows.get? key := by
  have hst : Beside l.store.plan (l.store.rows.filter fun key _ => !ownKey key) l
      ⟨{ l.store with rows := l.store.rows.filter fun key _ => ownKey key }, l.newest⟩ :=
    ⟨⟨rfl, rfl, fun _ => rfl, Rows.joins_filter _ _⟩, rfl⟩
  have hafter := ((alike_call call).outcome_final hst).2.store.rows
  rw [(hafter.outside key hk).1, (hst.store.rows.outside key hk).1]

end EvmBridge.Ledger
