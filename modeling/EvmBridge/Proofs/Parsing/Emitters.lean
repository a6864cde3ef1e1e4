import EvmBridge.Proofs.Parsing.CrossOut
import EvmBridge.Proofs.Parsing.WellFormed

/-! # Who emits the events of the native coin

An accepted record of the native coin is backed by an event of the receipt that carries its value
(`Record.CarriedBy`). The contract that emitted the event is not looked at: of the same events by
other contracts the same record is made (`Bridge.carried_whoever_emits`), so that nothing tells an
event of the bridge contract from an imitation. Only a token's transfers are tied to their emitter.
-/

namespace EvmBridge
set_option autoImplicit false
open EvmBridge.Action

/-- A receipt whose logs other contracts emitted. -/
def Receipt.emittedBy (r : Receipt) (emitter : Log → Address) : Receipt :=
  { r with logs := r.logs.map fun log => log.emittedBy (emitter log) }

/-- Whether an event carries a record's value: a deposit's together with its sender, a payout's
together with its recipient. -/
inductive Record.CarriedBy (r : Record) : Event → Prop where
  | deposit (hkind : r.kind = .deposit) : CarriedBy r (.depositFunds r.sender r.value)
  | crossOut {recipient : String} (hkind : r.kind = .deposit)
      (hcounterpart : r.counterpart = some recipient) :
      CarriedBy r (.crossOutFunds r.sender recipient r.value .zero)
  | payout (hkind : r.kind = .withdrawal) : CarriedBy r (.transferFunds r.recipient r.value)

namespace Bridge
variable {b : Bridge} {tx : Transaction} {receipt : Receipt} {r : Record} (emitter : Log → Address)

/-! ## What is read from a receipt -/

theorem completionHash?_emittedBy :
    b.completionHash? (receipt.emittedBy emitter) = b.completionHash? receipt := by
  unfold completionHash? Receipt.emittedBy
  rw [List.getLast?_map]
  cases receipt.logs.getLast? with
  | none => rfl
  | some log =>
    simp only [Option.map_some, event_emittedBy]
    rcases b.event log with _ | (_ | _ | _ | _ | _ | _) <;> rfl

theorem hasDepositEvent_emittedBy (logs : List Log) :
    b.hasDepositEvent tx (logs.map fun log => log.emittedBy (emitter log))
      = b.hasDepositEvent tx logs := by
  induction logs with
  | nil => rfl
  | cons log logs ih =>
    rw [List.map_cons, hasDepositEvent, hasDepositEvent, ih, event_emittedBy]
    change (if log.topics.head? = _ then _ else _) = _
    rcases b.event log with _ | (_ | _ | _ | _ | _ | _) <;> rfl

theorem nativeCrossOut?_emittedBy :
    b.nativeCrossOut? tx (receipt.emittedBy emitter) = b.nativeCrossOut? tx receipt := by
  have hfind : (receipt.emittedBy emitter).logs.find?
        (·.topics.head? = some b.config.signatures.crossOutFunds)
      = (receipt.logs.find? (·.topics.head? = some b.config.signatures.crossOutFunds)).map
          fun log => log.emittedBy (emitter log) := List.find?_map ..
  unfold nativeCrossOut?
  rw [hfind]
  cases receipt.logs.find? (·.topics.head? = some b.config.signatures.crossOutFunds) with
  | none => rfl
  | some log =>
    simp only [Option.map_some, event_emittedBy]
    rcases b.event log with _ | (_ | _ | _ | _ | _ | _) <;> rfl

theorem payout?_emittedBy {logs : List Log} {p : Payout} (h : b.payout? logs = some p)
    (hasset : p.asset = b.nativeAsset) :
    b.payout? (logs.map fun log => log.emittedBy (emitter log)) = some p := by
  induction logs with
  | nil => cases h
  | cons log logs ih =>
    rw [payout?] at h
    rw [List.map_cons, payout?, event_emittedBy]
    cases hevent : b.event log with
    | error fault =>
      rw [hevent] at h
      cases h
    | ok e =>
      rw [hevent] at h
      cases e with
      | transfer contract sender recipient amount =>
        dsimp only at h
        -- The first transfer decides, and what it pays is a token. So no emitter is looked at before
        -- a native payout.
        split at h
        · obtain ⟨-, rfl⟩ := nonZeroPayout_eq_some_iff.1 h
          cases hasset
        · cases h
      | transferFunds recipient amount => exact h
      | depositFunds | crossOutFunds | completed | unrecognized => exact ih h

/-! ## The event behind a record -/

/-- Whether some log of a receipt is an event that carries a record's value. -/
def HasEventOf (b : Bridge) (receipt : Receipt) (r : Record) : Prop :=
  ∃ log ∈ receipt.logs, ∃ e, b.event log = .ok e ∧ r.CarriedBy e

/-! ## Records of the native coin -/

theorem withCompletion_emittedBy :
    b.withCompletion (some (receipt.emittedBy emitter)) r = b.withCompletion (some receipt) r := by
  unfold withCompletion
  rw [Option.bind_some, Option.bind_some, completionHash?_emittedBy]

theorem withCompletion_asset (completing : Option Receipt) (r : Record) :
    (b.withCompletion completing r).asset = r.asset := by
  obtain ⟨_, _, heq⟩ := b.withCompletion_eq completing r
  rw [heq]

theorem carriedBy_withCompletion {e : Event} (completing : Option Receipt) (h : r.CarriedBy e) :
    (b.withCompletion completing r).CarriedBy e := by
  obtain ⟨_, _, heq⟩ := b.withCompletion_eq completing r
  rw [heq]
  cases h with
  | deposit hkind => exact .deposit hkind
  | crossOut hkind hcounterpart => exact .crossOut hkind hcounterpart
  | payout hkind => exact .payout hkind

theorem withdrawalRecord?_emittedBy {h : String} (hmade : b.withdrawalRecord? tx h receipt = some r)
    (hasset : r.asset = b.nativeAsset) :
    b.withdrawalRecord? tx h (receipt.emittedBy emitter) = some r ∧ b.HasEventOf receipt r := by
  have hstatus : (receipt.emittedBy emitter).status = receipt.status := rfl
  unfold withdrawalRecord? at hmade ⊢
  rw [hstatus]
  split at hmade
  next hcarried =>
    obtain ⟨p, hp, rfl⟩ := Option.map_eq_some_iff.1 hmade
    rw [withCompletion_asset] at hasset
    have hpaid : b.payout? (receipt.emittedBy emitter).logs = some p :=
      payout?_emittedBy emitter hp hasset
    obtain ⟨log, hmem, hpays⟩ := (payout?_eq_some_iff.1 hp).exists_mem
    have hevent : b.event log = .ok (.transferFunds p.recipient p.amount) := by
      cases hpays with
      | token => cases hasset
      | native hevent => exact hevent
    refine ⟨?_, log, hmem, _, hevent, carriedBy_withCompletion _ (.payout rfl)⟩
    rw [if_pos hcarried, hpaid, Option.map_some, withCompletion_emittedBy]
  · cases hmade

theorem nativeDeposit?_emittedBy (hmade : b.nativeDeposit? tx receipt = some r) :
    b.nativeDeposit? tx (receipt.emittedBy emitter) = some r ∧ b.HasEventOf receipt r := by
  have hsame : b.nativeDeposit? tx (receipt.emittedBy emitter) = b.nativeDeposit? tx receipt := by
    unfold nativeDeposit? Receipt.emittedBy
    rw [hasDepositEvent_emittedBy]
  rw [hsame]
  refine ⟨hmade, ?_⟩
  obtain ⟨-, hfirst, rfl⟩ := nativeDeposit?_eq_some_iff.1 hmade
  obtain ⟨log, hmem, -, hevent⟩ := hfirst.exists_mem
  exact ⟨log, hmem, _, hevent, .deposit rfl⟩

theorem hasEventOf_of_nativeCrossOut (hmade : b.nativeCrossOut? tx receipt = some r) :
    b.HasEventOf receipt r := by
  obtain ⟨-, recipient, hfirst, rfl⟩ := nativeCrossOut?_eq_some_iff.1 hmade
  obtain ⟨log, hmem, -, hevent⟩ := hfirst.exists_mem
  exact ⟨log, hmem, _, hevent, .crossOut rfl rfl⟩

theorem asset_of_tokenCrossOut {args : Call.CrossOut}
    (hmade : b.tokenCrossOut? tx args receipt = some r) : r.asset ≠ b.nativeAsset := by
  obtain ⟨info, -, -, -, rfl⟩ := tokenCrossOut?_eq_some_iff.1 hmade
  exact nofun

theorem asset_of_tokenDeposit {info : TokenInfo}
    (hmade : b.tokenDeposit? tx info receipt = some r) : r.asset ≠ b.nativeAsset := by
  obtain ⟨-, sender, amount, -, -, rfl⟩ := tokenDeposit?_eq_some_iff.1 hmade
  exact nofun

theorem crossOutRecord?_emittedBy {args : Call.CrossOut}
    (hmade : b.crossOutRecord? tx args receipt = some r) (hasset : r.asset = b.nativeAsset) :
    b.crossOutRecord? tx args (receipt.emittedBy emitter) = some r ∧ b.HasEventOf receipt r := by
  have hcarried : (receipt.emittedBy emitter).status = true ∧
      ¬(receipt.emittedBy emitter).logs.isEmpty ↔ receipt.status = true ∧ ¬receipt.logs.isEmpty := by
    simp [Receipt.emittedBy]
  unfold crossOutRecord? at hmade ⊢
  split at hmade
  next hcondition =>
    rw [if_pos (hcarried.2 hcondition)]
    split at hmade
    next hzero =>
      rw [if_pos hzero, nativeCrossOut?_emittedBy]
      exact ⟨hmade, hasEventOf_of_nativeCrossOut hmade⟩
    · exact absurd hasset (asset_of_tokenCrossOut hmade)
  · cases hmade

/-- A deposit of the native coin goes by a route that asks for no minter. -/
theorem depositRecord?_emittedBy {route : DepositRoute}
    (hmade : b.depositRecord? tx route receipt = some r) (hasset : r.asset = b.nativeAsset) :
    b.depositRecord? tx route (receipt.emittedBy emitter) = some r ∧ b.HasEventOf receipt r ∧
      b.minterToCheck? route = none := by
  cases route with
  | native =>
    obtain ⟨hagain, hevent⟩ := nativeDeposit?_emittedBy emitter hmade
    exact ⟨hagain, hevent, rfl⟩
  | token info => exact absurd hasset (asset_of_tokenDeposit hmade)
  | crossOut args =>
    obtain ⟨hagain, hevent⟩ := crossOutRecord?_emittedBy emitter hmade hasset
    exact ⟨hagain, hevent, rfl⟩

/-! ## Parsing -/

theorem outcome_parseDeposit_supplied {route : DepositRoute}
    (hroute : b.depositRoute? tx = some route) (hminter : b.minterToCheck? route = none) (past : Exchanges) :
    (b.parseDeposit tx (some receipt)).outcome past = .ok (b.depositRecord? tx route receipt) :=
  outcome_parseDeposit_unchecked hroute hminter (.supplied receipt)

theorem outcome_parseWithdrawal_supplied {h : String} (hhash : b.withdrawalHash? tx = some h)
    (past : Exchanges) :
    (b.parseWithdrawal tx (some receipt)).outcome past = .ok (b.withdrawalRecord? tx h receipt) := by
  rw [outcome_parseWithdrawal (.supplied receipt), hhash, Option.bind_some]

/-- A record of the native coin is carried by an event of the receipt at hand, and the same record is
made, of that receipt, whichever contracts have emitted its events. -/
theorem carried_whoever_emits {kind : TxKind} {supplied : Option Receipt} {past : Exchanges}
    (hkind : kind.movesAsset = true) (hasset : r.asset = b.nativeAsset)
    (h : (b.parse kind tx supplied).outcome past = .ok (some r)) :
    ∃ receipt, b.HasReceipt tx past supplied receipt ∧ b.HasEventOf receipt r ∧
      ∀ emitter past',
        (b.parse kind tx (some (receipt.emittedBy emitter))).outcome past' = .ok (some r) := by
  cases kind with
  | deposit =>
    obtain ⟨route, receipt, hroute, hreceipt, hmade⟩ := ends_parseDeposit_route.of_outcome h r rfl
    refine ⟨receipt, hreceipt, ?_, fun emitter past' => ?_⟩
    · exact (depositRecord?_emittedBy Log.address hmade hasset).2.1
    · obtain ⟨hagain, -, hminter⟩ := depositRecord?_emittedBy emitter hmade hasset
      exact (outcome_parseDeposit_supplied hroute hminter past').trans (congrArg _ hagain)
  | withdrawal =>
    obtain ⟨hash, receipt, htargets, hclass, hreceipt, hmade⟩ :=
      ends_parseWithdrawal.of_outcome h r rfl
    have hhash : b.withdrawalHash? tx = some hash := by
      simp only [withdrawalHash?, htargets, hclass, if_true]
    refine ⟨receipt, hreceipt, ?_, fun emitter past' => ?_⟩
    · exact (withdrawalRecord?_emittedBy Log.address hmade hasset).2
    · obtain ⟨hagain, -⟩ := withdrawalRecord?_emittedBy emitter hmade hasset
      exact (outcome_parseWithdrawal_supplied hhash past').trans (congrArg _ hagain)
  | membershipChange | upgradeAuthorization => cases hkind

/-- A native deposit and a payout, backed by the contract's own events, are accepted alike when a
stranger emits those events and the contract none. -/
theorem carried_by_stranger :
    let b := Sample.plainBridge Sample.emptyChain
    let s := b.config.signatures
    let stranger : Log → Address := fun _ => Sample.token
    let paid := Sample.transaction (.fill 1) Sample.user Sample.bridgeContract 5 []
    let drawn := Sample.transaction (.fill 2) Sample.relayer Sample.bridgeContract 0
      (Abi.encodeCall s.withdraw [.string "p1", .address Sample.user, .uint 7, .bool false,
        .address .zero, .bytes []])
    let deposit := Sample.receipt paid.hash [.ofDepositFunds s Sample.bridgeContract Sample.user 5]
    let payout := Sample.receipt drawn.hash [.ofTransferFunds s Sample.bridgeContract Sample.user 7]
    let r := Record.ofTransaction .deposit paid b.nativeAsset
    let r' := { Record.ofTransaction .withdrawal drawn b.nativeAsset with
      recipient := Sample.user, value := 7, platformTxHash := some "p1" }
    ((b.parse .deposit paid (some (deposit.emittedBy stranger))).outcome [] = .ok (some r) ∧
        ∀ log ∈ (deposit.emittedBy stranger).logs, log.address ≠ b.config.bridgeContract) ∧
      (b.parse .withdrawal drawn (some (payout.emittedBy stranger))).outcome [] = .ok (some r') ∧
        ∀ log ∈ (payout.emittedBy stranger).logs, log.address ≠ b.config.bridgeContract := by
  intro b s stranger paid drawn deposit payout r r'
  have hparse : (b.parse .deposit paid (some deposit)).outcome [] = .ok (some r) :=
    ok_of_toOption (by decide +kernel)
  have hparse' : (b.parse .withdrawal drawn (some payout)).outcome [] = .ok (some r') :=
    ok_of_toOption (by decide +kernel)
  obtain ⟨receipt, hreceipt, -, hagain⟩ := carried_whoever_emits rfl rfl hparse
  obtain ⟨receipt', hreceipt', -, hagain'⟩ := carried_whoever_emits rfl rfl hparse'
  cases hreceipt
  cases hreceipt'
  exact ⟨⟨hagain stranger [], by decide⟩, hagain' stranger [], by decide⟩

end Bridge
end EvmBridge
