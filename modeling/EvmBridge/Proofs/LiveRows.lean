import EvmBridge.Proofs.PrefixScan
import EvmBridge.Proofs.StoreCalls
import EvmBridge.Proofs.Tables

/-! # What a store lists

After any puts, deletions and batches, a store that does not fail holds under each key what the last
change of the key put there. A listing has the keys that begin as asked, each once and in the order of
their bytes, and agrees with the look-ups of single keys (`Store.scan_run`).
-/

namespace EvmBridge
set_option autoImplicit false
open EvmBridge.Action

/-! ## Operations -/

/-- An operation that changes a store. -/
inductive StoreOp where
  | put (key value : Bytes)
  | delete (key : Bytes)
  | batch (changes : List RowChange)

namespace StoreOp

/-- Carries an operation out on a store. -/
def perform : StoreOp → Action Store Unit
  | put key value => Store.put key value
  | delete key => Store.delete key
  | batch changes => Store.batch changes

/-- The changes that an operation makes, in order. -/
def changes : StoreOp → List RowChange
  | put key value => [.put key value]
  | delete key => [.delete key]
  | batch changes => changes

end StoreOp

/-- Operations one after the other. -/
def Store.run (ops : List StoreOp) : Action Store Unit := ops.forM StoreOp.perform

/-- Whether changes leave a key with a value: the last one of the key puts it there. -/
def Rows.Live (changes : List RowChange) (key value : Bytes) : Prop :=
  lastOn? RowChange.key changes key = some (.put key value)

/-! ## Rows after changes -/

theorem Rows.get?_apply_empty_iff {changes : List RowChange} {key value : Bytes} :
    (Rows.apply .empty changes).get? key = some value ↔ Live changes key value := by
  rw [Rows.get?_apply, Live]
  cases hlast : lastOn? RowChange.key changes key with
  | none => simp [Table.get?_empty]
  | some c =>
    have hkey := key_of_lastOn? hlast
    cases c with
    | put k v =>
      have hk : k = key := hkey
      simp [RowChange.value?, hk]
    | delete k => simp [RowChange.value?]

namespace Store

theorem makes_op (op : StoreOp) : Makes op.perform op.changes := by
  cases op with
  | put key value => exact makes_put key value
  | delete key => exact makes_delete key
  | batch changes => exact makes_batch changes

theorem makes_run (ops : List StoreOp) : Makes (run ops) (ops.flatMap StoreOp.changes) :=
  .forM makes_op ops

/-- What a store shows after any operations on an empty one, none of which fails. -/
theorem scan_run (ops : List StoreOp) (start : Bytes) :
    let changes := ops.flatMap StoreOp.changes
    let s := (run ops).final (.reliable .empty)
    (run ops).outcome (.reliable .empty) = .ok () ∧
      (∀ key value, (get key).outcome s = .ok (some value) ↔ Rows.Live changes key value) ∧
      ∃ listed, (scan start).outcome s = .ok listed ∧
        (listed.map (·.1)).Pairwise (· < ·) ∧
        (∀ key value, (key, value) ∈ listed ↔ start <+: key ∧ Rows.Live changes key value) ∧
        (∀ key, start <+: key → (get key).outcome s = .ok (listed.lookup key)) ∧
        (start = [] → listed = s.rows.entries) := by
  intro changes s
  obtain ⟨hrun, hs, hrows⟩ := (makes_run ops).final_reliable .empty
  have hget : ∀ key, (get key).outcome s = .ok (s.rows.get? key) := fun key => outcome_perform hs
  have hlive : ∀ key value, s.rows.get? key = some value ↔ Rows.Live changes key value := by
    intro key value
    rw [hrows]
    exact Rows.get?_apply_empty_iff
  refine ⟨hrun, fun key value => ?_, s.rows.under start, outcome_perform hs, ?_, ?_, ?_, ?_⟩
  · rw [hget, Except.ok.injEq, hlive]
  · rw [Rows.under_eq, List.pairwise_map]
    exact (s.rows.filter _).ascending.imp fun h => Bytes.before_iff_lt.1 h
  · intro key value
    rw [Rows.mem_under_iff, List.isPrefixOf_iff_prefix, hlive]
  · intro key hkey
    have hprefix : start.isPrefixOf key = true := List.isPrefixOf_iff_prefix.2 hkey
    rw [hget, Rows.under_eq, Table.lookup_entries, Table.get?_filter]
    cases s.rows.get? key <;> simp [Option.filter, hprefix]
  · rintro rfl
    rw [Rows.under_eq]
    exact List.filter_eq_self.2 fun _ _ => rfl

/-- Keys that begin with the greatest byte, one of them put again after its deletion. -/
example :
    let ops : List StoreOp := [.put [0xFF] [1], .batch [.put [0xFF, 0xFF] [2], .put [0xFE, 0xFF] [3],
      .delete [0xFF], .put [0xFF] [4]]]
    ((do run ops; scan [0xFF] : Action Store _).outcome (.reliable .empty)).toOption
      = some [([0xFF], [4]), ([0xFF, 0xFF], [2])] := by
  decide +kernel

end Store
end EvmBridge
