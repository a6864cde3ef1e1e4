import EvmBridge.Proofs.Ledger.Retry

/-! # Purging a ledger

A purge drops the newest header until there is none. A round need not remove a row, since the slot may
name a header whose row is gone, and the next round may be higher up than the last one, since an empty
slot is filled from the last row. Still every round leaves one round less to go, so that the loop ends
by itself, after as many rounds as can be told beforehand: `Ledger.purge_empties`.
-/

namespace EvmBridge
set_option autoImplicit false
open EvmBridge.Action

namespace Contents
open Ledger
variable {c c' : Contents} {rows rows' : Rows}

/-- The rows outside the header table are those of the bridge records and those of others. -/
theorem HeldBy.get?_eq_of_records_eq (h : c.HeldBy rows) (h' : c'.HeldBy rows')
    (hrecords : c'.records = c.records)
    (hrest : ∀ key, ownKey key = false → rows'.get? key = rows.get? key) {key : Bytes}
    (hk : headerTable.isPrefixOf key = false) : rows'.get? key = rows.get? key := by
  cases hown : ownKey key with
  | false => exact hrest key hown
  | true =>
    have hheader : ∀ height, key ≠ headerKey height := by
      rintro height rfl
      rw [isPrefixOf_headerKey] at hk
      cases hk
    by_cases hrecord : ∃ hash, key = recordKey hash
    · obtain ⟨hash, rfl⟩ := hrecord
      rw [h.record, h'.record, hrecords]
    · rw [not_exists] at hrecord
      rw [h.get?_eq_none hown hheader hrecord, h'.get?_eq_none hown hheader hrecord]

end Contents

namespace Ledger
variable {l l' : Ledger} {c : Contents}

/-- Whether the slot names a header whose row is gone. -/
def slotIsAhead (l : Ledger) : Bool :=
  l.newest.any fun h => (l.store.rows.get? (headerKey h.height)).isNone

/-- What a purge makes of a ledger in so many rounds. -/
structure PurgedTo (l l' : Ledger) (rounds : Nat) : Prop where
  headers : l'.store.rows.under headerTable = []
  newest : l'.newest = none
  latest : Ledger.latest.outcome l'.withoutFailures = .ok none
  others : ∀ key, headerTable.isPrefixOf key = false →
    l'.store.rows.get? key = l.store.rows.get? key
  /-- One round for each row, and one for a slot ahead of the rows. -/
  rounds : rounds = (l.store.rows.under headerTable).length + l.slotIsAhead.toNat

theorem rounds_eq (hc : c.HeldBy l.store.rows) : c.rounds l.newest
    = (l.store.rows.under headerTable).length + l.slotIsAhead.toNat := by
  have hsize : (l.store.rows.under headerTable).length = c.headers.size := by
    rw [hc.under_headers, List.length_map, Table.size]
  rw [hsize, Contents.rounds, slotIsAhead]
  congr 1
  cases l.newest with
  | none => rfl
  | some h =>
    rw [Option.any_some, Option.all_some, hc.header, Table.contains]
    cases c.headers.get? h.height <;> rfl

theorem outcome_latest_of_empty (hc : c.HeldBy l.store.rows) (hheaders : c.headers = .empty)
    (hnewest : l.newest = none) : Ledger.latest.outcome l.withoutFailures = .ok none := by
  have hl : c.HeldBy l.withoutFailures.store.rows := hc
  have hlatest : c.latest l.withoutFailures.newest = none := by
    rw [show l.withoutFailures.newest = none from hnewest, Contents.latest, hheaders]
    rfl
  refine Ends.outcome (p := fun result _ => result = .ok none) ?_
  refine (ends_latest hl).mono (fun newest _ h => ?_) fun _ _ h => ?_
  · rw [h.1, hlatest]
  · exact absurd h.1 (Store.not_mayFail_reliable _)

/-- A purge that ends within a limit ends the same way within a greater one. -/
theorem purgeUpTo_add {limit rounds : Nat} (h : purgeUpTo limit l = .ok rounds l') (more : Nat) :
    purgeUpTo (limit + more) l = .ok rounds l' := by
  induction limit generalizing l l' rounds with
  | zero => cases h
  | succ limit ih =>
    rw [Nat.succ_add_eq_add_succ, Nat.add_succ]
    obtain ⟨newest, l₁, hlatest, h⟩ := bind_eq_ok_iff.1 h
    refine bind_eq_ok_iff.2 ⟨newest, l₁, hlatest, ?_⟩
    cases newest with
    | none => exact h
    | some top =>
      obtain ⟨previous, l₂, hrewind, h⟩ := bind_eq_ok_iff.1 h
      obtain ⟨rest, l₃, hrest, h⟩ := bind_eq_ok_iff.1 h
      exact bind_eq_ok_iff.2 ⟨previous, l₂, hrewind, bind_eq_ok_iff.2 ⟨rest, l₃, ih hrest, h⟩⟩

theorem purgeUpTo_withoutFailures (hc : l.Says c) {limit : Nat} (hlimit : c.rounds l.newest < limit) :
    ∃ l', purgeUpTo limit l.withoutFailures = .ok (c.rounds l.newest) l' ∧
      ∃ made, l.withoutFailures.Leaves l' made { c with headers := .empty } none := by
  have hends := ends_purgeUpTo (l := l.withoutFailures) hc.held hc.filed hlimit
  unfold Ends at hends
  cases hpurge : purgeUpTo limit l.withoutFailures with
  | ok rounds l' =>
    rw [hpurge] at hends
    obtain ⟨rfl, hleaves⟩ := hends
    exact ⟨l', rfl, hleaves⟩
  | error e l' =>
    rw [hpurge] at hends
    exact absurd hends.1 (Store.not_mayFail_reliable _)

/-- Whatever calls a ledger comes of, a purge without failures ends by itself, with no header left and
all else as it was. -/
theorem purge_empties (hl : l.Reachable) : ∃ rounds,
    purge.outcome l.withoutFailures = .ok rounds ∧
    l.PurgedTo (purge.final l.withoutFailures) rounds ∧
    ∀ limit, rounds < limit → purgeUpTo limit l.withoutFailures = purge l.withoutFailures := by
  obtain ⟨c, hc⟩ := hl.says
  have hheld : c.HeldBy l.withoutFailures.store.rows := hc.held
  obtain ⟨l', hone, made, hl'⟩ := purgeUpTo_withoutFailures hc (Nat.lt_succ_self (c.rounds l.newest))
  have hall : ∀ limit, c.rounds l.newest < limit →
      purgeUpTo limit l.withoutFailures = .ok (c.rounds l.newest) l' := by
    intro limit hlimit
    obtain ⟨more, rfl⟩ := Nat.exists_eq_add_of_le hlimit
    exact purgeUpTo_add hone more
  have hpurge : purge l.withoutFailures = .ok (c.rounds l.newest) l' := hall _ (c.rounds_lt_limit _)
  have hfinal : purge.final l.withoutFailures = l' := by simp only [final, EStateM.run, hpurge]
  have hrest : ∀ key, ownKey key = false → l'.store.rows.get? key = l.store.rows.get? key := by
    intro key hk
    have hcall : (LedgerCall.purge.perform.final l.withoutFailures) = l' := by
      simp only [LedgerCall.perform, final, EStateM.run, bind, EStateM.bind, hpurge]
      rfl
    rw [← hcall]
    exact get?_call hk .purge l.withoutFailures
  refine ⟨c.rounds l.newest, ?_, ?_, fun limit hlimit => (hall limit hlimit).trans hpurge.symm⟩
  · simp only [outcome, EStateM.run, hpurge]
  · rw [hfinal]
    exact {
      headers := by rw [hl'.held.under_headers]; rfl
      newest := hl'.newest
      latest := outcome_latest_of_empty hl'.held rfl hl'.newest
      others := fun key hk => hc.held.get?_eq_of_records_eq hl'.held rfl hrest hk
      rounds := rounds_eq hc.held }

/-- The newest header was deleted behind the slot. The first round removes no row, the second one the
row at height 0. -/
theorem purge_empties_behind_slot :
    let record := fun height => LedgerCall.single (.record (Sample.header height))
    let l := [record 0, record 9, .single (.delete 9)].foldl
      (fun l call => call.perform.final (l.withPlan .never)) (Ledger.ofStore (.reliable .empty))
    l.Reachable ∧ l.slotIsAhead = true ∧ l.store.rows.keys = [headerKey 0] ∧
      purge.outcome l.withoutFailures = .ok 2 ∧
      l.PurgedTo (purge.final l.withoutFailures) 2 := by
  intro record l
  have hempty : (Ledger.ofStore (.reliable .empty)).Reachable := .new rfl rfl
  have hreachable : l.Reachable :=
    ((hempty.call .never (record 0)).call .never (record 9)).call .never (.single (.delete 9))
  obtain ⟨rounds, hpurge, hpurged, -⟩ := purge_empties hreachable
  obtain rfl : rounds = 2 := hpurged.rounds
  exact ⟨hreachable, rfl, rfl, hpurge, hpurged⟩

end Ledger
end EvmBridge
