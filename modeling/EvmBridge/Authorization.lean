import EvmBridge.Bridge

/-! # Membership changes and upgrades

Both are recognised from their calldata alone. The receipt, if there is one, only adds the signer.

* `Bridge.membershipDraft?`, `Bridge.upgradeDraft?`: the record from the transaction alone.
* `Bridge.parseMembershipChange`, `Bridge.parseUpgrade`: the record with what the receipt adds.
-/

namespace EvmBridge.Bridge
set_option autoImplicit false

/-- The record of an authorisation before its receipt is looked at. It moves nothing. -/
def authorizationDraft (b : Bridge) (kind : TxKind) (tx : Transaction) (platformTxHash : String) :
    Record :=
  { Record.ofTransaction kind tx b.nativeAsset with
    value := 0
    platformTxHash := some platformTxHash }

/-- The record of a membership change, from the transaction alone. -/
def membershipDraft? (b : Bridge) (tx : Transaction) : Option Record :=
  if b.targets tx then
    match b.classify tx.input, Call.managerChange tx.input with
    | .membershipChange h, .ok args =>
      some { b.authorizationDraft .membershipChange tx h with
        addedMembers := args.added
        removedMembers := args.removed }
    | _, _ => none
  else none

/-- The record of an upgrade, from the transaction alone. -/
def upgradeDraft? (b : Bridge) (tx : Transaction) : Option Record :=
  if b.targets tx then
    match b.classify tx.input with
    | .upgradeAuthorization h => some (b.authorizationDraft .upgradeAuthorization tx h)
    | _ => none
  else none

theorem membershipDraft?_eq_some_iff {b : Bridge} {tx : Transaction} {r : Record} :
    b.membershipDraft? tx = some r ↔ b.targets tx = true ∧ ∃ h args,
      b.classify tx.input = .membershipChange h ∧ Call.managerChange tx.input = .ok args ∧
      r = { b.authorizationDraft .membershipChange tx h with
        addedMembers := args.added
        removedMembers := args.removed } := by
  unfold membershipDraft?
  by_cases htargets : b.targets tx = true
  · rw [if_pos htargets]
    constructor
    · intro hr
      split at hr
      next h args hclass hargs =>
        cases hr
        exact ⟨htargets, h, args, hclass, hargs, rfl⟩
      · cases hr
    · rintro ⟨-, h, args, hclass, hargs, rfl⟩
      rw [hclass, hargs]
  · rw [if_neg htargets]
    exact iff_of_false nofun fun h => htargets h.1

theorem upgradeDraft?_eq_some_iff {b : Bridge} {tx : Transaction} {r : Record} :
    b.upgradeDraft? tx = some r ↔ b.targets tx = true ∧ ∃ h,
      b.classify tx.input = .upgradeAuthorization h ∧
      r = b.authorizationDraft .upgradeAuthorization tx h := by
  unfold upgradeDraft?
  by_cases htargets : b.targets tx = true
  · rw [if_pos htargets]
    constructor
    · intro hr
      split at hr
      next h hclass =>
        cases hr
        exact ⟨htargets, h, hclass, rfl⟩
      · cases hr
    · rintro ⟨-, h, hclass, rfl⟩
      rw [hclass]
  · rw [if_neg htargets]
    exact iff_of_false nofun fun h => htargets h.1

/-- A record with what its receipt adds, pending or not. -/
def parseDraft (b : Bridge) (tx : Transaction) (draft : Option Record)
    (supplied : Option Receipt) : Action Exchanges (Option Record) := do
  match draft with
  | none => return none
  | some record =>
    let receipt ← b.receiptFor tx supplied
    return some (b.withCompletion receipt record)

/-- The record of a membership change. -/
def parseMembershipChange (b : Bridge) (tx : Transaction) (supplied : Option Receipt) :
    Action Exchanges (Option Record) :=
  b.parseDraft tx (b.membershipDraft? tx) supplied

/-- The record of an upgrade. -/
def parseUpgrade (b : Bridge) (tx : Transaction) (supplied : Option Receipt) :
    Action Exchanges (Option Record) :=
  b.parseDraft tx (b.upgradeDraft? tx) supplied

end EvmBridge.Bridge
