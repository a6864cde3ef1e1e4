import EvmBridge.Proofs.Ledger.OwnRows
import EvmBridge.Sample

/-! # Calls after a failed call

A rewind stops half-way where its second store call fails, and a purge after any number of rewinds.
Still every call can be made once more after it failed: without failures it then leaves what it would
have left at once (`Ledger.retry_after_failure`). Contents and slot come out the same by
`LedgerCall.Stops.effect_eq`, and they fix the rows, since no call touches rows of others.
-/

namespace EvmBridge
set_option autoImplicit false
open EvmBridge.Action

/-! ## Contents fix the rows -/

namespace Contents
open Ledger

theorem HeldBy.get?_eq_none {c : Contents} {rows : Rows} (h : c.HeldBy rows) {key : Bytes}
    (hk : ownKey key = true) (hheader : ∀ height, key ≠ headerKey height)
    (hrecord : ∀ hash, key ≠ recordKey hash) : rows.get? key = none := by
  cases hv : rows.get? key with
  | none => rfl
  | some v =>
    rcases Bool.or_eq_true_iff.1 hk with hp | hp
    · obtain ⟨height, rfl⟩ := h.header_key key v hp hv
      exact absurd rfl (hheader height)
    · obtain ⟨hash, rfl⟩ := h.record_key key v hp hv
      exact absurd rfl (hrecord hash)

theorem HeldBy.get?_eq {c : Contents} {rows rows' : Rows} (h : c.HeldBy rows) (h' : c.HeldBy rows')
    {key : Bytes} (hk : ownKey key = true) : rows.get? key = rows'.get? key := by
  by_cases hheader : ∃ height, key = headerKey height
  · obtain ⟨height, rfl⟩ := hheader
    rw [h.header, h'.header]
  by_cases hrecord : ∃ hash, key = recordKey hash
  · obtain ⟨hash, rfl⟩ := hrecord
    rw [h.record, h'.record]
  rw [not_exists] at hheader hrecord
  rw [h.get?_eq_none hk hheader hrecord, h'.get?_eq_none hk hheader hrecord]

/-- Rows are what the contents and the rows of others are. -/
theorem HeldBy.rows_eq {c : Contents} {rows rows' : Rows} (h : c.HeldBy rows) (h' : c.HeldBy rows')
    (hrest : ∀ key, ownKey key = false → rows.get? key = rows'.get? key) : rows = rows' := by
  refine Table.ext_get? fun key => ?_
  cases hk : ownKey key with
  | true => exact h.get?_eq h' hk
  | false => exact hrest key hk

theorem eq_of_model_eq {c c' : Contents} {slot slot' : Option Header}
    (h : c.model slot = c'.model slot') : c = c' ∧ slot = slot' := by
  obtain ⟨headers, records⟩ := c
  obtain ⟨headers', records'⟩ := c'
  simp only [model, LedgerModel.mk.injEq] at h
  obtain ⟨hheaders, hrecords, hslot⟩ := h
  obtain rfl : headers = headers' := Table.ext_get? (congrFun hheaders)
  obtain rfl : records = records' := Table.ext_get? (congrFun hrecords)
  exact ⟨rfl, hslot⟩

end Contents

namespace Ledger

/-! ## Reachable ledgers -/

/-- The ledger over the same rows, with the given failures from now on. -/
def withPlan (l : Ledger) (plan : FaultPlan) : Ledger := { l with store := l.store.withPlan plan }

/-- The ledger over the same rows, on a store that does not fail from now on. -/
def withoutFailures (l : Ledger) : Ledger := l.withPlan .never

/-- Ledgers that come of calls, any of which may have failed, over a store that had no rows of a
ledger. -/
inductive Reachable : Ledger → Prop
  | new {s : Store} (headers : s.rows.under headerTable = [])
    (records : s.rows.under recordTable = []) : Reachable (.ofStore s)
  | call {l : Ledger} (h : Reachable l) (plan : FaultPlan) (call : LedgerCall) :
    Reachable (call.perform.final (l.withPlan plan))

theorem says_call {l : Ledger} {c : Contents} (h : l.Says c) (call : LedgerCall) :
    ∃ c', (call.perform.final l).Says c' := by
  refine Ends.outcome (p := fun _ l' => ∃ c', Says l' c') ?_
  refine (ends_call h call).mono (fun _ _ hl => ?_) fun _ _ hl => ?_
  · exact hl.imp fun c' hc' => hc'.1
  · exact hl.2.imp fun c' hc' => hc'.1

theorem Reachable.says {l : Ledger} (h : l.Reachable) : ∃ c, l.Says c := by
  induction h with
  | new headers records =>
    exact ⟨.empty, Contents.heldBy_empty headers records, Table.filedBy_empty⟩
  | @call l _ plan call ih =>
    obtain ⟨c, hc⟩ := ih
    exact says_call (l := l.withPlan plan) ⟨hc.held, hc.filed⟩ call

/-! ## The same call once more -/

/-- What a call leaves where no store call fails. -/
theorem call_withoutFailures {l : Ledger} {c : Contents} (h : l.Says c) (call : LedgerCall) :
    ∃ answer c', call.perform.outcome l.withoutFailures = .ok answer ∧
      (call.perform.final l.withoutFailures).Says c' ∧
      c'.model (call.perform.final l.withoutFailures).newest = call.effect (c.model l.newest) := by
  have hl : l.withoutFailures.Says c := ⟨h.held, h.filed⟩
  refine Ends.outcome (p := fun o l' => ∃ answer c', o = .ok answer ∧ Says l' c' ∧
    c'.model l'.newest = call.effect (c.model l.newest)) ?_
  refine (ends_call hl call).mono (fun answer l' hl' => ?_) fun _ _ hl' => ?_
  · obtain ⟨c', hc'⟩ := hl'
    exact ⟨answer, c', rfl, hc'⟩
  · exact absurd hl'.1 (Store.not_mayFail_reliable _)

/-- What is promised of a ledger that a call left behind when it failed. -/
structure Retries (call : LedgerCall) (l failed : Ledger) : Prop where
  once : ∃ answer, call.perform.outcome l.withoutFailures = .ok answer
  again : ∃ answer, call.perform.outcome failed.withoutFailures = .ok answer
  /-- The second attempt leaves the rows that one attempt without failures leaves. -/
  rows : (call.perform.final failed.withoutFailures).store.rows
    = (call.perform.final l.withoutFailures).store.rows
  newest : (call.perform.final failed.withoutFailures).newest
    = (call.perform.final l.withoutFailures).newest
  unchanged : call ≠ .purge → (∀ height, call ≠ .single (.rewind height)) →
    failed.store.rows = l.store.rows ∧ failed.newest = l.newest
  rewinding : ∀ height, call = .single (.rewind height) → failed.newest = l.newest ∧
    (failed.store.rows = l.store.rows ∨
      failed.store.rows = l.store.rows.erase (headerKey height))

theorem retries_of_stops {l failed : Ledger} {c c' : Contents} {call : LedgerCall} (hc : l.Says c)
    (hc' : failed.Says c') (hstops : call.Stops c l.newest c' failed.newest)
    (hrest : ∀ key, ownKey key = false → failed.store.rows.get? key = l.store.rows.get? key) :
    Retries call l failed := by
  obtain ⟨answer, d, honce, hd, hmodel⟩ := call_withoutFailures hc call
  obtain ⟨answer', d', hagain, hd', hmodel'⟩ := call_withoutFailures hc' call
  -- Both attempts come to the same model, hence to the same contents and slot.
  rw [hstops.effect_eq, ← hmodel] at hmodel'
  obtain ⟨rfl, hnewest⟩ := Contents.eq_of_model_eq hmodel'
  refine ⟨⟨answer, honce⟩, ⟨answer', hagain⟩, ?_, hnewest, ?_, ?_⟩
  · refine hd'.held.rows_eq hd.held fun key hk => ?_
    rw [get?_call hk, get?_call hk]
    exact hrest key hk
  · intro hpurge hrewind
    cases call with
    | purge => exact absurd rfl hpurge
    | single op =>
      obtain ⟨hslot, rfl | ⟨height, rfl, -⟩⟩ := hstops.of_single
      · exact ⟨hc'.held.rows_eq hc.held hrest, hslot⟩
      · exact absurd rfl (hrewind height)
  · rintro height rfl
    obtain ⟨hslot, rfl | ⟨_, heq, rfl⟩⟩ := hstops.of_single
    · exact ⟨hslot, .inl (hc'.held.rows_eq hc.held hrest)⟩
    · cases heq
      refine ⟨hslot, .inr (hc'.held.rows_eq (hc.held.dropHeader height) fun key hk => ?_)⟩
      have hne : headerKey height ≠ key := by
        rintro rfl
        rw [ownKey_headerKey] at hk
        cases hk
      rw [hrest key hk, Table.get?_erase, if_neg hne]

/-- Whichever store call a call fails at, it can be made once more. -/
theorem retry_after_failure {l : Ledger} (hl : l.Reachable) (call : LedgerCall) (plan : FaultPlan)
    {e : BridgeError} (hfails : call.perform.outcome (l.withPlan plan) = .error e) :
    Retries call l (call.perform.final (l.withPlan plan)) := by
  obtain ⟨c, hc⟩ := hl.says
  have hplan : (l.withPlan plan).Says c := ⟨hc.held, hc.filed⟩
  obtain ⟨-, c', hc', hstops⟩ := (ends_call hplan call).of_outcome_error hfails
  exact retries_of_stops hc hc' hstops fun key hk => get?_call hk call _

/-- The rewind of the only header, which fails at the look-up below it: the row is gone then, and the
slot still names it. -/
theorem retry_after_failure_rewind :
    let call := LedgerCall.single (.rewind 7)
    let l := (LedgerCall.single (.record (Sample.header 7))).perform.final
      ((Ledger.ofStore (.reliable .empty)).withPlan .never)
    let plan : FaultPlan := fun calls => calls.length = 2
    let failed := call.perform.final (l.withPlan plan)
    call.perform.outcome (l.withPlan plan) = .error (.storage "injected get") ∧
      failed.store.rows.get? (headerKey 7) = none ∧ failed.newest = some (Sample.header 7) ∧
      Retries call l failed :=
  ⟨rfl, rfl, rfl,
    retry_after_failure (.call (.new rfl rfl) _ _) _ _ (e := .storage "injected get") rfl⟩

end Ledger
end EvmBridge
