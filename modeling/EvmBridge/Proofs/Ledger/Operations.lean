import EvmBridge.Proofs.Ledger.Contents
import EvmBridge.Proofs.StoreCalls

/-! # What the ledger's operations do

One lemma for each operation, on a ledger whose rows hold given contents and whose store may fail at
any call: what it answers, what the rows hold afterwards, what is in the slot, and which store calls
it made. A look-up of the newest header and a cut read whole tables, and are described over any rows
that read first (`Ledger.ends_latest_of_read`, `Ledger.ends_prune_of_read`).
-/

namespace EvmBridge
set_option autoImplicit false
open EvmBridge.Action

namespace Ledger

/-- How an operation leaves a ledger: the store calls that it made, the last one first, what the rows
hold afterwards, and the slot. -/
structure Leaves (l l' : Ledger) (made : List StoreCall) (c : Contents) (slot : Option Header) :
    Prop where
  plan : l'.store.plan = l.store.plan
  calls : l'.store.calls = made ++ l.store.calls
  held : c.HeldBy l'.store.rows
  newest : l'.newest = slot

theorem Leaves.trans {l l' l'' : Ledger} {made made' : List StoreCall} {c c' : Contents}
    {slot slot' : Option Header} (h : l.Leaves l' made c slot) (h' : l'.Leaves l'' made' c' slot') :
    l.Leaves l'' (made' ++ made) c' slot' where
  plan := h'.plan.trans h.plan
  calls := by rw [h'.calls, h.calls, List.append_assoc]
  held := h'.held
  newest := h'.newest

theorem Leaves.mayFail {l l' : Ledger} {made : List StoreCall} {c : Contents} {slot : Option Header}
    (h : l.Leaves l' made c slot) (hf : l'.store.MayFail) : l.store.MayFail := by
  obtain ⟨calls, hc⟩ := hf
  exact ⟨calls, by rw [← h.plan, hc]⟩

/-- How an operation leaves a ledger whatever its rows hold: the store calls that it made, the rows,
and the slot. -/
structure Goes (l l' : Ledger) (made : List StoreCall) (rows : Rows) (slot : Option Header) : Prop where
  plan : l'.store.plan = l.store.plan
  calls : l'.store.calls = made ++ l.store.calls
  rows : l'.store.rows = rows
  newest : l'.newest = slot

theorem Goes.leaves {l l' : Ledger} {made : List StoreCall} {rows : Rows} {slot : Option Header}
    {c : Contents} (h : l.Goes l' made rows slot) (hc : c.HeldBy rows) : l.Leaves l' made c slot where
  plan := h.plan
  calls := h.calls
  held := h.rows ▸ hc
  newest := h.newest

section Specs
variable {l : Ledger} {c : Contents}

/-- A store call on behalf of the ledger. -/
theorem ends_onStore {α : Type} {call : StoreCall} {effect : Rows → α × Rows}
    {ok : α → Ledger → Prop} {err : BridgeError → Ledger → Prop}
    (hok : ok (effect l.store.rows).1 { l with
      store := { l.store with rows := (effect l.store.rows).2, calls := call :: l.store.calls } })
    (herr : l.store.MayFail → ∀ e, err e { l with
      store := { l.store with calls := call :: l.store.calls } }) :
    Ends (onStore (Store.perform call effect)) l ok err :=
  ends_within.2 (Store.ends_perform hok herr)

theorem ends_setNewest {h : Option Header} {ok : Unit → Ledger → Prop}
    {err : BridgeError → Ledger → Prop} :
    Ends (setNewest h) l ok err ↔ ok () { l with newest := h } := Iff.rfl

theorem ends_record (hc : c.HeldBy l.store.rows) (h : Header) :
    Ends (record h) l
      (fun _ l' => l.Leaves l' [.put (headerKey h.height)] (c.addHeader h) (some h))
      (fun _ l' => l.store.MayFail ∧ l.Leaves l' [.put (headerKey h.height)] c l.newest) := by
  refine ends_bind.2 (ends_onStore ?_ ?_)
  · exact ⟨rfl, rfl, hc.addHeader h, rfl⟩
  · intro hf e
    exact ⟨hf, rfl, rfl, hc, rfl⟩

theorem ends_cacheRecord (hc : c.HeldBy l.store.rows) {r : Record} (hr : r.Fits) :
    Ends (cacheRecord r) l
      (fun _ l' => l.Leaves l' [.put (recordKey r.txHash)] (c.addRecord r) l.newest)
      (fun _ l' => l.store.MayFail ∧ l.Leaves l' [.put (recordKey r.txHash)] c l.newest) := by
  refine ends_onStore ?_ ?_
  · exact ⟨rfl, rfl, hc.addRecord hr, rfl⟩
  · intro hf e
    exact ⟨hf, rfl, rfl, hc, rfl⟩

theorem ends_cachedRecord (hc : c.HeldBy l.store.rows) (hash : Hash) :
    Ends (cachedRecord hash) l
      (fun r l' => r = c.records.get? hash ∧ l.Leaves l' [.get (recordKey hash)] c l.newest)
      (fun _ l' => l.store.MayFail ∧ l.Leaves l' [.get (recordKey hash)] c l.newest) := by
  refine ends_bind.2 (ends_onStore ?_ ?_)
  · refine ends_ofExcept.2 ?_
    rw [hc.readRecord_get]
    exact ⟨rfl, rfl, rfl, hc, rfl⟩
  · intro hf e
    exact ⟨hf, rfl, rfl, hc, rfl⟩

theorem ends_evict (hc : c.HeldBy l.store.rows) (hash : Hash) :
    Ends (evict hash) l
      (fun _ l' => l.Leaves l' [.delete (recordKey hash)] (c.dropRecord hash) l.newest)
      (fun _ l' => l.store.MayFail ∧ l.Leaves l' [.delete (recordKey hash)] c l.newest) := by
  refine ends_onStore ?_ ?_
  · exact ⟨rfl, rfl, hc.dropRecord hash, rfl⟩
  · intro hf e
    exact ⟨hf, rfl, rfl, hc, rfl⟩

/-- The store calls of a look-up of the newest header. -/
def latestCalls : (slot : Option Header) → List StoreCall
  | some _ => []
  | none => [.scan headerTable]

/-- With an empty slot, the newest header is what the last row reads as. -/
theorem ends_latest_of_read {newest : Option Header} (hslot : l.newest = none)
    (hread : readHeader ((l.store.rows.under headerTable).getLast?.map (·.2)) = .ok newest) :
    Ends latest l
      (fun answer l' => answer = newest ∧ l.Goes l' [.scan headerTable] l.store.rows newest)
      (fun _ l' => l.store.MayFail ∧ l.Goes l' [.scan headerTable] l.store.rows none) := by
  refine ends_bind.2 (ends_get.2 ?_)
  rw [hslot]
  refine ends_bind.2 (ends_onStore ?_ ?_)
  · refine ends_bind.2 (ends_ofExcept.2 ?_)
    rw [hread]
    exact ⟨rfl, rfl, rfl, rfl, rfl⟩
  · intro hf e
    exact ⟨hf, rfl, rfl, rfl, hslot⟩

theorem ends_latest (hc : c.HeldBy l.store.rows) :
    Ends latest l
      (fun newest l' => newest = c.latest l.newest ∧
        l.Leaves l' (latestCalls l.newest) c (c.latest l.newest))
      (fun _ l' => l.store.MayFail ∧ l.Leaves l' (latestCalls l.newest) c l.newest) := by
  obtain ⟨store, slot⟩ := l
  cases slot with
  | some h => exact ends_bind.2 (ends_get.2 (ends_pure.2 ⟨rfl, rfl, rfl, hc, rfl⟩))
  | none =>
    refine (ends_latest_of_read rfl hc.readHeader_last).mono ?_ ?_
    · rintro _ l' ⟨rfl, hl⟩
      exact ⟨rfl, hl.leaves hc⟩
    · rintro _ l' ⟨hf, hl⟩
      exact ⟨hf, hl.leaves hc⟩

theorem ends_byHeight (hc : c.HeldBy l.store.rows) (height : UInt64) :
    Ends (byHeight height) l
      (fun h l' => h = c.headers.get? height ∧ l.Leaves l' [.get (headerKey height)] c l.newest)
      (fun _ l' => l.store.MayFail ∧ l.Leaves l' [.get (headerKey height)] c l.newest) := by
  refine ends_bind.2 (ends_onStore ?_ ?_)
  · refine ends_ofExcept.2 ?_
    rw [hc.readHeader_get]
    exact ⟨rfl, rfl, rfl, hc, rfl⟩
  · intro hf e
    exact ⟨hf, rfl, rfl, hc, rfl⟩

theorem ends_delete (hc : c.HeldBy l.store.rows) (height : UInt64) :
    Ends (delete height) l
      (fun _ l' => l.Leaves l' [.delete (headerKey height)] (c.dropHeader height) l.newest)
      (fun _ l' => l.store.MayFail ∧ l.Leaves l' [.delete (headerKey height)] c l.newest) := by
  refine ends_onStore ?_ ?_
  · exact ⟨rfl, rfl, hc.dropHeader height, rfl⟩
  · intro hf e
    exact ⟨hf, rfl, rfl, hc, rfl⟩

theorem ends_rewind (hc : c.HeldBy l.store.rows) (height : UInt64) :
    Ends (rewind height) l
      (fun h l' => h = c.below? height ∧
        ∃ made, l.Leaves l' made (c.dropHeader height) (c.below? height))
      (fun _ l' => l.store.MayFail ∧
        (l.Leaves l' [.delete (headerKey height)] c l.newest ∨
          height ≠ 0 ∧ l.Leaves l' [.get (headerKey (height - 1)), .delete (headerKey height)]
            (c.dropHeader height) l.newest)) := by
  refine (ends_delete hc height).bind (fun _ l₁ h₁ => ?_) fun _ _ h => ⟨h.1, .inl h.2⟩
  by_cases h0 : height = 0
  · have hb : c.below? height = none := if_pos h0
    rw [if_pos h0, hb]
    refine ends_bind.2 (ends_pure.2 (ends_bind.2 (ends_setNewest.2 (ends_pure.2 ?_))))
    exact ⟨rfl, _, h₁.plan, h₁.calls, h₁.held, rfl⟩
  · have hb : c.below? height = (c.dropHeader height).headers.get? (height - 1) := by
      rw [c.get?_dropHeader_sub_one]
      exact if_neg h0
    rw [if_neg h0]
    refine (ends_byHeight h₁.held (height - 1)).bind (fun h l₂ h₂ => ?_) fun _ l₂ h => ?_
    · obtain ⟨rfl, h₂⟩ := h₂
      have h₃ := h₁.trans h₂
      refine ends_bind.2 (ends_setNewest.2 (ends_pure.2 ?_))
      exact ⟨hb.symm, _, h₃.plan, h₃.calls, h₃.held, hb.symm⟩
    · have h₃ := h₁.trans h.2
      rw [h₁.newest] at h₃
      exact ⟨h₁.mayFail h.1, .inr ⟨h0, h₃⟩⟩

/-- The store calls of cutting off, from the last one that a failure let it make. -/
inductive CutCalls : List StoreCall → Prop
  | headers : CutCalls [.scan headerTable]
  | records : CutCalls [.scan recordTable, .scan headerTable]
  | batch : CutCalls [.batch, .scan recordTable, .scan headerTable]

/-- A cut removes the stale rows and no others, provided that all bridge record rows read. -/
theorem ends_prune_of_read {below : UInt64} {keys : List Bytes}
    (hkeys : staleRecords below (l.store.rows.under recordTable) = .ok keys) :
    Ends (prune below) l
      (fun n l' => n = (staleHeaders below (l.store.rows.under headerTable)).length ∧
        ∃ made, l.Goes l' made (l.store.rows.apply
          ((staleHeaders below (l.store.rows.under headerTable) ++ keys).map .delete)) l.newest)
      (fun _ l' => l.store.MayFail ∧
        ∃ made, CutCalls made ∧ l.Goes l' made l.store.rows l.newest) := by
  refine ends_bind.2 (ends_onStore ?_ ?_)
  · refine ends_bind.2 (ends_onStore ?_ ?_)
    · refine ends_bind.2 (ends_ofExcept.2 ?_)
      dsimp only
      rw [hkeys]
      generalize staleHeaders below (l.store.rows.under headerTable) = headers
      dsimp only
      by_cases he : (headers ++ keys).isEmpty = true
      · rw [if_pos he, List.isEmpty_iff.1 he]
        refine ends_bind.2 (ends_pure.2 (ends_pure.2 ?_))
        exact ⟨rfl, [.scan recordTable, .scan headerTable], rfl, rfl, rfl, rfl⟩
      · rw [if_neg he]
        refine ends_bind.2 (ends_onStore (ends_pure.2 ?_) ?_)
        · exact ⟨rfl, [.batch, .scan recordTable, .scan headerTable], rfl, rfl, rfl, rfl⟩
        · intro hf e
          exact ⟨hf, _, .batch, rfl, rfl, rfl, rfl⟩
    · intro hf e
      exact ⟨hf, _, .records, rfl, rfl, rfl, rfl⟩
  · intro hf e
    exact ⟨hf, _, .headers, rfl, rfl, rfl, rfl⟩

theorem ends_prune (hc : c.HeldBy l.store.rows) (below : UInt64) :
    Ends (prune below) l
      (fun n l' => n = (c.headers.entries.filter fun e => e.1 < below).length ∧
        ∃ made, l.Leaves l' made (c.cutOff below) l.newest)
      (fun _ l' => l.store.MayFail ∧ ∃ made, CutCalls made ∧ l.Leaves l' made c l.newest) := by
  have hcut := hc.cutOff below
  refine (ends_prune_of_read (hc.staleRecords_eq below)).mono ?_ ?_
  · rintro _ l' ⟨rfl, made, hl⟩
    rw [hc.staleHeaders_eq] at hl ⊢
    exact ⟨List.length_map _, made, hl.leaves hcut⟩
  · rintro _ l' ⟨hf, made, hcalls, hl⟩
    exact ⟨hf, made, hcalls, hl.leaves hc⟩

end Specs
end Ledger
end EvmBridge
