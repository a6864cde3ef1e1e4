import EvmBridge.Parsing

/-! # The two stages of parsing

Every operation first looks at the transaction alone. Unless that ends it, it goes on with the receipt,
in one way wherever that is from, and after it the node is asked for nothing but a minter
(`Bridge.staged_parse`).
-/

namespace EvmBridge.Bridge
set_option autoImplicit false

/-- Whether an operation gets as far as needing the receipt of a transaction. -/
def needsReceipt (b : Bridge) (tx : Transaction) : TxKind → Bool
  | .deposit => (b.depositRoute? tx).isSome
  | .withdrawal => (b.withdrawalHash? tx).isSome
  | .membershipChange => (b.membershipDraft? tx).isSome
  | .upgradeAuthorization => (b.upgradeDraft? tx).isSome

/-- What can be done once the receipt is at hand. -/
inductive Concludes (b : Bridge) : Action Exchanges (Option Record) → Prop where
  | answer (found : Option Record) : Concludes b (pure found)
  | minter (token : Address) (found : Bool → Option Record) :
    Concludes b (b.isMinter token false >>= fun registered => pure (found registered))

/-- An operation that ends without a receipt, or goes on with the receipt. -/
inductive Staged (b : Bridge) (tx : Transaction)
    (op : Option Receipt → Action Exchanges (Option Record)) : Bool → Prop where
  | done (hop : ∀ supplied, op supplied = pure none) : Staged b tx op false
  | asks (rest : Option Receipt → Action Exchanges (Option Record))
      (hop : ∀ supplied, op supplied = b.receiptFor tx supplied >>= rest)
      (hrest : ∀ receipt, b.Concludes (rest receipt)) : Staged b tx op true

variable {b : Bridge} {tx : Transaction} {kind : TxKind}

theorem staged_parseDeposit : b.Staged tx (b.parseDeposit tx) (b.depositRoute? tx).isSome := by
  unfold parseDeposit
  cases b.depositRoute? tx with
  | none => exact .done fun _ => rfl
  | some route =>
    refine .asks _ (fun _ => rfl) fun receipt => ?_
    split
    · exact .minter ..
    · exact .answer _

theorem staged_parseWithdrawal : b.Staged tx (b.parseWithdrawal tx) (b.withdrawalHash? tx).isSome := by
  unfold parseWithdrawal
  cases b.withdrawalHash? tx with
  | none => exact .done fun _ => rfl
  | some h => exact .asks _ (fun _ => rfl) fun _ => .answer _

theorem staged_parseDraft (draft : Option Record) :
    b.Staged tx (b.parseDraft tx draft) draft.isSome := by
  unfold parseDraft
  cases draft with
  | none => exact .done fun _ => rfl
  | some record => exact .asks _ (fun _ => rfl) fun _ => .answer _

theorem staged_parse (b : Bridge) (tx : Transaction) (kind : TxKind) :
    b.Staged tx (b.parse kind tx) (b.needsReceipt tx kind) := by
  cases kind with
  | deposit => exact staged_parseDeposit
  | withdrawal => exact staged_parseWithdrawal
  | membershipChange => exact staged_parseDraft _
  | upgradeAuthorization => exact staged_parseDraft _

theorem parse_of_needless (h : b.needsReceipt tx kind = false) (supplied : Option Receipt) :
    b.parse kind tx supplied = pure none := by
  have hstaged := b.staged_parse tx kind
  rw [h] at hstaged
  cases hstaged with
  | done hop => exact hop supplied

/-- What creates a contract is not looked at any further. -/
theorem needsReceipt_of_creation (hcreates : tx.recipient = none) :
    b.needsReceipt tx kind = false := by
  have htargets : b.targets tx = false := by simp [targets, hcreates]
  cases kind with
  | deposit => simp [needsReceipt, depositRoute?, hcreates]
  | withdrawal => simp [needsReceipt, withdrawalHash?, htargets]
  | membershipChange => simp [needsReceipt, membershipDraft?, htargets]
  | upgradeAuthorization => simp [needsReceipt, upgradeDraft?, htargets]

end EvmBridge.Bridge
