import EvmBridge.Proofs.Parsing.Acceptance
import EvmBridge.Proofs.Parsing.Stages
import EvmBridge.Sample

/-! # One kind for each transaction

`Bridge.analyze` picks the kind that it takes a transaction as from the calldata, the way of parsing
for each kind decides by itself. Where the contract is not a token of its own, and calldata for one of
the contract's actions is sent to the contract, both come to the same: no transaction is of two kinds,
and none that is of some kind is missed (`Bridge.analyze_iff_parse`).
-/

namespace EvmBridge
set_option autoImplicit false
open EvmBridge.Action

/-! ## Nodes that do not remember -/

/-- A node that replies to each request in one way, whatever it was asked before. -/
def Node.Fixed (n : Node) : Prop :=
  ∀ past past' c limit, n.respond past c limit = n.respond past' c limit

theorem SimulatedChain.fixed (c : SimulatedChain) : c.node.Fixed := fun _ _ _ _ => rfl

namespace Action
variable {α β : Type}

/-- Whether the outcome of an action does not depend on the exchanges before it. -/
def Uniform (x : Action Exchanges α) : Prop := ∀ past past', x.outcome past = x.outcome past'

theorem uniform_pure (a : α) : Uniform (pure a) := fun _ _ => rfl

theorem uniform_ofExcept (r : Except BridgeError α) : Uniform (ofExcept r) := by
  intro past past'
  cases r <;> rfl

theorem Uniform.bind {x : Action Exchanges α} {f : α → Action Exchanges β} (hx : Uniform x)
    (hf : ∀ a, Uniform (f a)) : Uniform (x >>= f) := by
  intro past past'
  rw [outcome_bind, outcome_bind, hx past past']
  exact congrArg _ (funext fun a => hf a _ _)

theorem uniform_ask {n : Node} (hn : n.Fixed) (limit : UInt64) (c : NodeCall) :
    Uniform (n.ask limit c) := by
  intro past past'
  simp only [outcome, EStateM.run, Node.ask, hn past past']
  cases n.respond past' c limit <;> rfl

end Action

namespace Bridge
variable {b : Bridge} {tx : Transaction}

theorem Concludes.uniform (hn : b.node.Fixed) {act : Action Exchanges (Option Record)}
    (h : b.Concludes act) : Uniform act := by
  cases h with
  | answer found => exact uniform_pure found
  | minter token found =>
    have hminter : Uniform (b.isMinter token false) :=
      (uniform_ask hn _ _).bind fun _ => uniform_ofExcept _
    exact hminter.bind fun _ => uniform_pure _

theorem uniform_parse (hn : b.node.Fixed) (kind : TxKind) (supplied : Option Receipt) :
    Uniform (b.parse kind tx supplied) := by
  have hreceipt : Uniform (b.receiptFor tx supplied) := by
    cases supplied with
    | some r => exact uniform_pure _
    | none => exact uniform_ask hn _ _
  have hstaged := b.staged_parse tx kind
  generalize b.needsReceipt tx kind = needs at hstaged
  cases hstaged with
  | done hop =>
    rw [hop]
    exact uniform_pure none
  | asks rest hop hrest =>
    rw [hop]
    exact hreceipt.bind fun receipt => (hrest receipt).uniform hn

/-! ## The kind of what is accepted -/

theorem kind?_classify_eq_deposit_iff {s : Signatures} {input : Bytes} :
    (s.classify input).kind? = some .deposit ↔ s.methodOf? input = some .crossOut := by
  unfold Signatures.classify
  split
  next hnone => simp [hnone, Intent.kind?]
  next hcrossOut => simp [hcrossOut, Intent.kind?]
  next m hother hmethod =>
    rw [hmethod]
    have hne : some m ≠ some .crossOut := fun h => hother (Option.some.inj h)
    split
    next h _ =>
      refine iff_of_false ?_ hne
      cases m with
      | crossOut => exact absurd rfl hne
      | withdraw | managerChange | upgrade => exact nofun
    · exact iff_of_false nofun hne

theorem kindOf?_of_kind {kind : TxKind} (h : (b.classify tx.input).kind? = some kind) :
    b.kindOf? tx = some kind := by
  simp only [kindOf?, h]

theorem kindOf?_of_plain (h : (b.classify tx.input).kind? = none)
    (hplain : b.mayBePlainDeposit tx = true) : b.kindOf? tx = some .deposit := by
  simp only [kindOf?, h, hplain, if_true]

theorem recipient_of_token_route {info : TokenInfo} (h : b.depositRoute? tx = some (.token info)) :
    ∃ recipient, tx.recipient = some recipient ∧ b.tokens.lookup recipient = some info := by
  unfold depositRoute? at h
  split at h
  · cases h
  next recipient hrecipient =>
    split at h
    · obtain ⟨_, _, h⟩ := Option.map_eq_some_iff.1 h
      cases h
    · split at h
      · cases h
      · obtain ⟨_, hlookup, h⟩ := Option.map_eq_some_iff.1 h
        cases h
        exact ⟨recipient, hrecipient, hlookup⟩

theorem classify_of_membershipDraft {d : Record} (h : b.membershipDraft? tx = some d) :
    (b.classify tx.input).kind? = some .membershipChange := by
  obtain ⟨-, _, _, hclass, -, -⟩ := membershipDraft?_eq_some_iff.1 h
  rw [hclass]
  rfl

theorem classify_of_upgradeDraft {d : Record} (h : b.upgradeDraft? tx = some d) :
    (b.classify tx.input).kind? = some .upgradeAuthorization := by
  obtain ⟨-, _, hclass, -⟩ := upgradeDraft?_eq_some_iff.1 h
  rw [hclass]
  rfl

section Kinds
variable (htoken : b.tokens.lookup b.config.bridgeContract = none)
  (htx : b.targets tx = true ∨ ∀ kind ∈ (b.classify tx.input).kind?, kind = .deposit)
include htoken htx

theorem kindOf?_of_route {route : DepositRoute} (h : b.depositRoute? tx = some route) :
    b.kindOf? tx = some .deposit := by
  cases routes_of_depositRoute? h with
  | crossOut hmethod => exact kindOf?_of_kind (kind?_classify_eq_deposit_iff.2 hmethod)
  | native hmethod hsends =>
    obtain ⟨-, -, hempty⟩ := sendsNative_iff.1 hsends
    refine kindOf?_of_plain ?_ (by rw [mayBePlainDeposit, hsends, Bool.true_or])
    rw [hempty]
    rfl
  | token hmethod =>
    obtain ⟨recipient, hrecipient, hlookup⟩ := recipient_of_token_route h
    -- The token is not the contract, so that its calldata is none for an action of the contract.
    have htargets : b.targets tx ≠ true := by
      intro htargets
      have heq := hrecipient.symm.trans (targets_iff.1 htargets)
      rw [Option.some.inj heq, htoken] at hlookup
      cases hlookup
    refine kindOf?_of_plain ?_ (by
      rw [mayBePlainDeposit, hrecipient, Option.bind_some, hlookup, Option.isSome_some, Bool.or_true])
    cases hkind : (b.classify tx.input).kind? with
    | none => rfl
    | some kind =>
      have hdeposit := htx.resolve_left htargets kind hkind
      rw [hdeposit] at hkind
      exact absurd (kind?_classify_eq_deposit_iff.1 hkind) hmethod

/-- What is accepted as one of a kind is what it is analysed as. -/
theorem kindOf?_of_parsed {kind : TxKind} {past : Exchanges} {r : Record}
    (h : (b.parse kind tx none).outcome past = .ok (some r)) : b.kindOf? tx = some kind := by
  cases kind with
  | deposit =>
    obtain ⟨route, -, hroute, -⟩ := ends_parseDeposit_route.of_outcome h r rfl
    exact kindOf?_of_route htoken htx hroute
  | withdrawal =>
    obtain ⟨hash, -, -, hclass, -⟩ := ends_parseWithdrawal.of_outcome h r rfl
    exact kindOf?_of_kind (by rw [hclass]; rfl)
  | membershipChange =>
    obtain ⟨d, hd, -⟩ := ends_parseDraft.of_outcome h r rfl
    exact kindOf?_of_kind (classify_of_membershipDraft hd)
  | upgradeAuthorization =>
    obtain ⟨d, hd, -⟩ := ends_parseDraft.of_outcome h r rfl
    exact kindOf?_of_kind (classify_of_upgradeDraft hd)

end Kinds

/-- At most one way of parsing accepts a transaction, as one record, and the analysis accepts it
exactly if one of them does, as that record. -/
theorem analyze_iff_parse (hnode : b.node.Fixed)
    (htoken : b.tokens.lookup b.config.bridgeContract = none)
    (htx : b.targets tx = true ∨ ∀ kind ∈ (b.classify tx.input).kind?, kind = .deposit) :
    (∀ kind kind' past past' r r', (b.parse kind tx none).outcome past = .ok (some r) →
      (b.parse kind' tx none).outcome past' = .ok (some r') → kind = kind' ∧ r = r') ∧
    ∀ past past' r, (b.analyze tx).outcome past = .ok (some r) ↔
      ∃ kind, (b.parse kind tx none).outcome past' = .ok (some r) := by
  constructor
  · intro kind kind' past past' r r' h h'
    have hkind := kindOf?_of_parsed htoken htx h
    rw [kindOf?_of_parsed htoken htx h'] at hkind
    cases hkind
    rw [uniform_parse hnode kind none past past', h'] at h
    exact ⟨rfl, (Option.some.inj (Except.ok.inj h)).symm⟩
  · intro past past' r
    constructor
    · intro h
      unfold analyze at h
      split at h
      next kind _ => exact ⟨kind, (uniform_parse hnode kind none past' past).trans h⟩
      · cases h
    · rintro ⟨kind, h⟩
      simp only [analyze, kindOf?_of_parsed htoken htx h]
      exact (uniform_parse hnode kind none past past').trans h

/-- A native deposit is analysed as one and parsed as nothing else. -/
theorem analyze_iff_parse_deposit :
    let tx := Sample.transaction (.fill 1) Sample.user Sample.bridgeContract 5 []
    let receipt := Sample.receipt tx.hash
      [.ofDepositFunds Sample.plainSignatures Sample.bridgeContract Sample.user 5]
    let b := Sample.plainBridge (Sample.emptyChain.addTransaction tx receipt)
    let r := Record.ofTransaction .deposit tx b.nativeAsset
    (b.node.Fixed ∧ b.tokens.lookup b.config.bridgeContract = none ∧ b.targets tx = true) ∧
      (b.analyze tx).outcome [] = .ok (some r) ∧
      ∀ kind past r', (b.parse kind tx none).outcome past = .ok (some r') →
        kind = .deposit ∧ r' = r := by
  intro tx receipt b r
  have hnode : b.node.Fixed := SimulatedChain.fixed _
  have htargets : b.targets tx = true := by decide
  have hparse : (b.parse .deposit tx none).outcome [] = .ok (some r) :=
    ok_of_toOption (by decide +kernel)
  obtain ⟨hone, hanalyze⟩ := analyze_iff_parse hnode rfl (.inl htargets)
  exact ⟨⟨hnode, rfl, htargets⟩, (hanalyze [] [] r).2 ⟨.deposit, hparse⟩,
    fun kind past r' h => hone kind .deposit past [] r' r h hparse⟩

end Bridge
end EvmBridge
