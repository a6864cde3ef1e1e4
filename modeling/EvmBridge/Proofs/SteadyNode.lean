import EvmBridge.Parsing
import EvmBridge.Proofs.Outcome

/-! # A node whose answers do not change

The calls of a node may fail at any time, but as long as each request has one answer only, what is
made of the answers does not depend on the failures: `Bridge.follows_analyze`.
-/

namespace EvmBridge
set_option autoImplicit false
open EvmBridge.Action

/-- The node gives these answers, whenever it answers. -/
def Node.Steady (n : Node) (answers : (c : NodeCall) → c.Answer) : Prop :=
  ∀ past c limit a, n.respond past c limit = .answer a → a = answers c

/-- The node that always gives these answers. -/
def Node.ofAnswers (answers : (c : NodeCall) → c.Answer) : Node :=
  ⟨fun _ c _ => .answer (answers c)⟩

/-! ## Actions that follow each other -/

/-- What the first action answers, the second one answers always. -/
def Action.Follows {α : Type} (x y : Action Exchanges α) : Prop :=
  ∀ past, Ends x past (fun a _ => ∀ past', Ends y past' (fun a' _ => a' = a) fun _ _ => False)
    fun _ _ => True

namespace Action
variable {α β : Type}

theorem follows_pure (a : α) : Follows (pure a) (pure a) := fun _ _ => rfl

theorem follows_ofExcept (r : Except BridgeError α) : Follows (ofExcept r) (ofExcept r) := by
  intro past
  cases r with
  | ok a => exact fun _ => rfl
  | error e => exact True.intro

theorem Follows.bind {x y : Action Exchanges α} {f g : α → Action Exchanges β} (h : Follows x y)
    (hf : ∀ a, Follows (f a) (g a)) : Follows (x >>= f) (y >>= g) := by
  intro past
  refine (h past).bind (fun a past₁ ha => ?_) fun _ _ h => h
  refine (hf a past₁).mono (fun b _ hb past' => ?_) fun _ _ h => h
  refine (ha past').bind (fun a' past₂ he => ?_) fun _ _ h => h
  rw [he]
  exact hb past₂

theorem follows_ask {n : Node} {answers : (c : NodeCall) → c.Answer} (h : n.Steady answers)
    (limit : UInt64) (c : NodeCall) : Follows (n.ask limit c) ((Node.ofAnswers answers).ask limit c) := by
  intro past
  unfold Ends Node.ask
  cases hr : n.respond past c limit with
  | answer a => exact fun past' => (h past c limit a hr).symm
  | failed e => exact True.intro
  | late => exact True.intro

end Action

/-! ## The analysis of a transaction -/

namespace Bridge

/-- The same bridge to another node. -/
def withNode (b : Bridge) (n : Node) : Bridge := { b with node := n }

/-! ### What is read from logs does not ask the node -/

theorem payout?_withNode (b : Bridge) (n : Node) (logs : List Log) :
    (b.withNode n).payout? logs = b.payout? logs := by
  have hevent : (b.withNode n).event = b.event := rfl
  induction logs with
  | nil => rfl
  | cons log logs ih =>
    rw [payout?, payout?, hevent, ih]
    rfl

theorem hasDepositEvent_withNode (b : Bridge) (n : Node) (tx : Transaction) (logs : List Log) :
    (b.withNode n).hasDepositEvent tx logs = b.hasDepositEvent tx logs := by
  have hevent : (b.withNode n).event = b.event := rfl
  induction logs with
  | nil => rfl
  | cons log logs ih =>
    rw [hasDepositEvent, hasDepositEvent, hevent, ih]
    rfl

theorem crossOutEvidence?_withNode (b : Bridge) (n : Node) (tx : Transaction) (args : Call.CrossOut)
    (seen : CrossOutEvidence) (logs : List Log) :
    (b.withNode n).crossOutEvidence? tx args seen logs = b.crossOutEvidence? tx args seen logs := by
  have hevent : (b.withNode n).event = b.event := rfl
  induction logs generalizing seen with
  | nil => rfl
  | cons log logs ih =>
    simp only [crossOutEvidence?, hevent, ih]
    rfl

theorem withdrawalRecord?_withNode (b : Bridge) (n : Node) (tx : Transaction) (hash : String)
    (r : Receipt) : (b.withNode n).withdrawalRecord? tx hash r = b.withdrawalRecord? tx hash r := by
  rw [withdrawalRecord?, payout?_withNode]
  rfl

theorem depositRecord?_withNode (b : Bridge) (n : Node) (tx : Transaction) (route : DepositRoute)
    (r : Receipt) : (b.withNode n).depositRecord? tx route r = b.depositRecord? tx route r := by
  cases route with
  | native =>
    simp only [depositRecord?, nativeDeposit?, hasDepositEvent_withNode]
    rfl
  | token info => rfl
  | crossOut args =>
    simp only [depositRecord?, crossOutRecord?, tokenCrossOut?, crossOutEvidence?_withNode]
    rfl

/-! ### Parsing -/

section
variable {b : Bridge} {answers : (c : NodeCall) → c.Answer} (h : b.node.Steady answers)
include h

theorem follows_receiptFor (tx : Transaction) (supplied : Option Receipt) :
    Follows (b.receiptFor tx supplied) ((b.withNode (.ofAnswers answers)).receiptFor tx supplied) := by
  cases supplied with
  | none => exact follows_ask h _ _
  | some r => exact follows_pure _

theorem follows_isMinter (token : Address) (latest : Bool) :
    Follows (b.isMinter token latest) ((b.withNode (.ofAnswers answers)).isMinter token latest) :=
  (follows_ask h _ _).bind fun _ => follows_ofExcept _

theorem follows_parseWithdrawal (tx : Transaction) (supplied : Option Receipt) :
    Follows (b.parseWithdrawal tx supplied)
      ((b.withNode (.ofAnswers answers)).parseWithdrawal tx supplied) := by
  have hhash : (b.withNode (.ofAnswers answers)).withdrawalHash? tx = b.withdrawalHash? tx := rfl
  have hrecord : (b.withNode (.ofAnswers answers)).withdrawalRecord? tx = b.withdrawalRecord? tx :=
    funext fun hash => funext fun r => b.withdrawalRecord?_withNode _ tx hash r
  unfold parseWithdrawal
  rw [hhash, hrecord]
  cases b.withdrawalHash? tx with
  | none => exact follows_pure _
  | some hash => exact (follows_receiptFor h tx supplied).bind fun r => follows_pure _

theorem follows_parseDraft (tx : Transaction) (draft : Option Record) (supplied : Option Receipt) :
    Follows (b.parseDraft tx draft supplied)
      ((b.withNode (.ofAnswers answers)).parseDraft tx draft supplied) := by
  cases draft with
  | none => exact follows_pure _
  | some record => exact (follows_receiptFor h tx supplied).bind fun r => follows_pure _

theorem follows_parseDeposit (tx : Transaction) (supplied : Option Receipt) :
    Follows (b.parseDeposit tx supplied)
      ((b.withNode (.ofAnswers answers)).parseDeposit tx supplied) := by
  have hroute : (b.withNode (.ofAnswers answers)).depositRoute? tx = b.depositRoute? tx := rfl
  have hrecord : (b.withNode (.ofAnswers answers)).depositRecord? tx = b.depositRecord? tx :=
    funext fun route => funext fun r => b.depositRecord?_withNode _ tx route r
  have hminter : (b.withNode (.ofAnswers answers)).minterToCheck? = b.minterToCheck? := rfl
  unfold parseDeposit
  rw [hroute, hrecord, hminter]
  cases b.depositRoute? tx with
  | none => exact follows_pure _
  | some route =>
    refine (follows_receiptFor h tx supplied).bind fun receipt => ?_
    split
    · exact (follows_isMinter h _ _).bind fun _ => follows_pure _
    · exact follows_pure _

theorem follows_analyze (tx : Transaction) :
    Follows (b.analyze tx) ((b.withNode (.ofAnswers answers)).analyze tx) := by
  have hkind : (b.withNode (.ofAnswers answers)).kindOf? tx = b.kindOf? tx := rfl
  unfold analyze
  rw [hkind]
  cases b.kindOf? tx with
  | none => exact follows_pure _
  | some kind =>
    cases kind with
    | deposit => exact follows_parseDeposit h tx none
    | withdrawal => exact follows_parseWithdrawal h tx none
    | membershipChange => exact follows_parseDraft h tx (b.membershipDraft? tx) none
    | upgradeAuthorization => exact follows_parseDraft h tx (b.upgradeDraft? tx) none

end

end Bridge
end EvmBridge
