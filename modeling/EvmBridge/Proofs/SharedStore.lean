import EvmBridge.Proofs.Docking.StoredMembers
import EvmBridge.Proofs.Ledger.OwnRows

/-! # A ledger and a quorum in one store

A ledger and the stored quorum can use one store, since their tables are apart. However their calls
take turns, each of the two is answered as if it had a store of its own, and the shared store holds
the rows of both stores (`SharedStore.run_apart`).
-/

namespace EvmBridge
set_option autoImplicit false
open EvmBridge.Action

/-! ## Calls in turn -/

/-- What calls answer one after the other, and the state after them. A failure does not end the
run. -/
def Action.runAll {σ ι α : Type} (perform : ι → Action σ α) :
    List ι → σ → List (Except BridgeError α) × σ
  | [], s => ([], s)
  | call :: calls, s =>
    let rest := runAll perform calls ((perform call).final s)
    ((perform call).outcome s :: rest.1, rest.2)

/-- A call of the stored quorum. -/
inductive MemberCall where
  | save (m : QuorumMember)
  | remove (signAddress : String)
  | load

/-- What a call of the stored quorum answers. -/
inductive MemberAnswer where
  | done
  | members (ms : List QuorumMember)

/-- Carries a call out on the store of the quorum. -/
def MemberCall.perform : MemberCall → Action Store MemberAnswer
  | save m => do Members.save m; return .done
  | remove signAddress => do Members.remove signAddress; return .done
  | load => return .members (← Members.load)

namespace SharedStore

/-- What the calls of a ledger and of the quorum in the ledger's store answer, one after the other,
and the ledger after them. -/
def run : List (LedgerCall ⊕ MemberCall) → Ledger →
    List (Except BridgeError LedgerAnswer ⊕ Except BridgeError MemberAnswer) × Ledger
  | [], l => ([], l)
  | .inl call :: calls, l =>
    let rest := run calls (call.perform.final l)
    (.inl (call.perform.outcome l) :: rest.1, rest.2)
  | .inr call :: calls, l =>
    let rest := run calls ((Ledger.onStore call.perform).final l)
    (.inr ((Ledger.onStore call.perform).outcome l) :: rest.1, rest.2)

end SharedStore

/-! ## The quorum's own rows -/

namespace Members
open Ledger

theorem ownKey_eq_false {key : Bytes} (h : table.isPrefixOf key = true) : ownKey key = false := by
  obtain ⟨raw, rfl⟩ := List.isPrefixOf_iff_prefix.1 h
  rfl

/-- No call of the quorum sees or changes rows of a ledger. -/
theorem alike_call {plan : FaultPlan} {rest : Rows} (call : MemberCall) :
    Alike (Store.Beside (fun key => !ownKey key) plan rest) call.perform := by
  have hown : ∀ key, table.isPrefixOf key = true → (!ownKey key) = true := fun key h => by
    rw [ownKey_eq_false h, Bool.not_false]
  cases call with
  | save m =>
    exact (Store.alike_put (hown _ (isPrefixOf_key m.signAddress)) _).bind fun _ _ => alike_pure _
  | remove x => exact (Store.alike_delete (hown _ (isPrefixOf_key x))).bind fun _ _ => alike_pure _
  | load =>
    have hload : Alike (Store.Beside (fun key => !ownKey key) plan rest) load :=
      (Store.alike_scan hown).bind fun _ _ => (alike_ofExcept _).bind fun _ _ => alike_pure _
    exact hload.bind fun _ _ => alike_pure _

end Members

/-! ## One store for two -/

namespace SharedStore
open Ledger

/-- Whether a ledger's store holds the rows of another ledger with the same slot and the rows of the
stored quorum, and no call of any of them fails. -/
structure Splits (whole ledger : Ledger) (quorum : Store) : Prop where
  ledger : Ledger.Beside .never quorum.rows whole ledger
  reliable : quorum.plan = .never

variable {whole ledger : Ledger} {quorum : Store}

theorem Splits.rest (h : Splits whole ledger quorum) :
    Store.Beside (fun key => !ownKey key) .never ledger.store.rows whole.store quorum :=
  ⟨h.ledger.store.whole_plan, h.reliable, fun _ => rfl, h.ledger.store.rows.swap⟩

theorem Splits.with_rest (h : Splits whole ledger quorum) {store quorum' : Store}
    (h' : Store.Beside (fun key => !ownKey key) .never ledger.store.rows store quorum') :
    Splits { whole with store := store } ledger quorum' := by
  have hrows := h'.rows.swap
  simp only [Bool.not_not] at hrows
  exact ⟨⟨⟨h'.whole_plan, h.ledger.store.part_plan, fun _ => rfl, hrows⟩, h.ledger.newest⟩,
    h'.part_plan⟩

theorem Splits.ledger_call (h : Splits whole ledger quorum) (call : LedgerCall) :
    call.perform.outcome whole = call.perform.outcome ledger ∧
      Splits (call.perform.final whole) (call.perform.final ledger) quorum := by
  obtain ⟨hanswer, hafter⟩ := (alike_call call).outcome_final h.ledger
  exact ⟨hanswer, hafter, h.reliable⟩

theorem Splits.member_call (h : Splits whole ledger quorum) (call : MemberCall) :
    (onStore call.perform).outcome whole = call.perform.outcome quorum ∧
      Splits ((onStore call.perform).final whole) ledger (call.perform.final quorum) := by
  obtain ⟨hanswer, hafter⟩ := (Members.alike_call call).outcome_final h.rest
  have hwithin : (onStore call.perform).outcome whole = call.perform.outcome whole.store ∧
      (onStore call.perform).final whole
        = { whole with store := call.perform.final whole.store } := by
    simp only [onStore, within, Action.outcome, Action.final, EStateM.run]
    cases call.perform whole.store <;> exact ⟨rfl, rfl⟩
  rw [hwithin.1, hwithin.2]
  exact ⟨hanswer, h.with_rest hafter⟩

/-- What the two are answered, and what they leave, next to what they are answered and leave apart. -/
structure Apart (calls : List (LedgerCall ⊕ MemberCall)) (whole ledger : Ledger) (quorum : Store) :
    Prop where
  ledger_answers : (run calls whole).1.filterMap Sum.getLeft?
    = (runAll LedgerCall.perform (calls.filterMap Sum.getLeft?) ledger).1
  member_answers : (run calls whole).1.filterMap Sum.getRight?
    = (runAll MemberCall.perform (calls.filterMap Sum.getRight?) quorum).1
  splits : Splits (run calls whole).2
    (runAll LedgerCall.perform (calls.filterMap Sum.getLeft?) ledger).2
    (runAll MemberCall.perform (calls.filterMap Sum.getRight?) quorum).2

theorem Splits.run (h : Splits whole ledger quorum) (calls : List (LedgerCall ⊕ MemberCall)) :
    Apart calls whole ledger quorum := by
  induction calls generalizing whole ledger quorum with
  | nil => exact ⟨rfl, rfl, h⟩
  | cons call calls ih =>
    cases call with
    | inl call =>
      obtain ⟨hanswer, hafter⟩ := h.ledger_call call
      have hrest := ih hafter
      refine ⟨?_, hrest.member_answers, hrest.splits⟩
      exact congrArg₂ List.cons hanswer hrest.ledger_answers
    | inr call =>
      obtain ⟨hanswer, hafter⟩ := h.member_call call
      have hrest := ih hafter
      refine ⟨hrest.ledger_answers, ?_, hrest.splits⟩
      exact congrArg₂ List.cons hanswer hrest.member_answers

/-- From an empty store, the calls of the ledger and of the quorum are answered as if each had a store
of its own, and the shared store is the disjoint union of the two. -/
theorem run_apart (calls : List (LedgerCall ⊕ MemberCall)) :
    let shared := run calls (.ofStore (.reliable .empty))
    let ledger := runAll LedgerCall.perform (calls.filterMap Sum.getLeft?)
      (.ofStore (.reliable .empty))
    let quorum := runAll MemberCall.perform (calls.filterMap Sum.getRight?) (.reliable .empty)
    shared.1.filterMap Sum.getLeft? = ledger.1 ∧
      shared.1.filterMap Sum.getRight? = quorum.1 ∧
      shared.2.newest = ledger.2.newest ∧
      shared.2.store.rows.entries.Perm (ledger.2.store.rows.entries ++ quorum.2.rows.entries) := by
  have hempty : Splits (.ofStore (.reliable .empty)) (.ofStore (.reliable .empty))
      (.reliable .empty) :=
    ⟨⟨⟨rfl, rfl, fun _ => rfl, Rows.joins_empty _⟩, rfl⟩, rfl⟩
  have hrun := hempty.run calls
  exact ⟨hrun.ledger_answers, hrun.member_answers, hrun.splits.ledger.newest,
    hrun.splits.ledger.store.rows.perm⟩

end SharedStore
end EvmBridge
