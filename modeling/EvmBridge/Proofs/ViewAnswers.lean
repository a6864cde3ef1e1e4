import EvmBridge.Proofs.Abi.RoundTrip
import EvmBridge.Proofs.LastWrites
import EvmBridge.Proofs.Parsing.Acceptance
import EvmBridge.Proofs.Tables
import EvmBridge.Sample

/-! # Whom a view answers for

A simulated chain keeps the outputs of views by calldata, and calldata tells all the platform
transactions and tokens apart that can be asked for (`ViewSubject.calldata_injective`). So a view
answers with what was set last for exactly the one that is asked for (`Bridge.views_after`).
-/

namespace EvmBridge
set_option autoImplicit false
open EvmBridge.Action

/-! ## Calldata of texts and addresses -/

namespace Abi

theorem mod_eq_of_word_eq {n m : Nat} (h : word n = word m) : n % 32 = m % 32 := by
  have hnat := congrArg Bytes.toNat (List.append_cancel_left h)
  rw [Bytes.toNat_ofNat, Bytes.toNat_ofNat] at hnat
  omega

/-- The length word may be too narrow for the length, but it still tells how many zeros follow. -/
theorem counted_injective {a b : Bytes} (h : counted a = counted b) : a = b := by
  obtain ⟨hword, hpadded⟩ := List.append_inj h (by rw [length_word, length_word])
  have hmod := mod_eq_of_word_eq hword
  have hlength := congrArg List.length hpadded
  simp only [padded, List.length_append, Bytes.length_zeros] at hlength
  exact (List.append_inj hpadded (by omega)).1

theorem encode_string (s : String) : encode [.string s] = word 32 ++ counted (Utf8.encode s) := by
  simp [encode, partList, part, assemble, heads, tails]

theorem encode_address (a : Address) : encode [.address a] = a.word := by
  simp [encode, partList, part, assemble, heads, tails]

theorem encode_string_injective {s s' : String} (h : encode [.string s] = encode [.string s']) :
    s = s' := by
  rw [encode_string, encode_string] at h
  exact Utf8.encode_injective (counted_injective (List.append_cancel_left h))

theorem encode_address_injective {a a' : Address} (h : encode [.address a] = encode [.address a']) :
    a = a' := by
  rw [encode_address, encode_address] at h
  rw [← FixedBytes.low_word (by decide) a, h, FixedBytes.low_word (by decide) a']

theorem encode_string_ne_address (s : String) (a : Address) : encode [.string s] ≠ encode [.address a] := by
  intro h
  have hlength := congrArg List.length h
  have hcounted := length_counted (Utf8.encode s)
  rw [encode_string, encode_address, List.length_append, length_word, FixedBytes.word,
    List.length_append, Bytes.length_zeros, a.length_bytes] at hlength
  omega

end Abi

theorem Call.boolResult_encode (value : Bool) : boolResult (Abi.encode [.bool value]) = .ok value := by
  cases value <;> rfl

/-! ## Subjects of views -/

/-- What a view is about: whether a platform transaction was carried out, or whether a token is
registered as a minter. -/
inductive ViewSubject where
  | completed (platformTxHash : String)
  | minter (token : Address)
  deriving DecidableEq

namespace ViewSubject

/-- The calldata that asks for a subject. -/
def calldata (s : Signatures) : ViewSubject → Bytes
  | completed h => Abi.encodeCall s.isCompleted [.string h]
  | minter token => Abi.encodeCall s.isMinter [.address token]

/-- Whatever the selectors are, even equal ones, each subject has calldata of its own. -/
theorem calldata_injective (s : Signatures) {x y : ViewSubject} (h : calldata s x = calldata s y) :
    x = y := by
  have hencode : ∀ {f g : Selector} {vs ws : List AbiValue},
      Abi.encodeCall f vs = Abi.encodeCall g ws → Abi.encode vs = Abi.encode ws := fun {f g _ _} h =>
    (List.append_inj h (f.length_bytes.trans g.length_bytes.symm)).2
  cases x with
  | completed p =>
    cases y with
    | completed p' => rw [Abi.encode_string_injective (hencode h)]
    | minter token => exact absurd (hencode h) (Abi.encode_string_ne_address p token)
  | minter token =>
    cases y with
    | completed p => exact absurd (hencode h).symm (Abi.encode_string_ne_address p token)
    | minter token' => rw [Abi.encode_address_injective (hencode h)]

end ViewSubject

/-! ## Setting views -/

/-- A value that a view is set to answer with. -/
structure ViewSetting where
  subject : ViewSubject
  value : Bool

namespace ViewSetting

/-- The output of a view that is set to a value. -/
def output (x : ViewSetting) : Bytes := Abi.encode [.bool x.value]

/-- A simulated chain with a view set. -/
def apply (c : SimulatedChain) (x : ViewSetting) : SimulatedChain :=
  match x.subject with
  | .completed h => Sample.setCompleted c h x.value
  | .minter token => Sample.setMinter c token x.value

/-- The value that was set last for a subject; no if none was. -/
def last (xs : List ViewSetting) (subject : ViewSubject) : Bool :=
  ((lastOn? ViewSetting.subject xs subject).map value).getD false

theorem apply_eq (c : SimulatedChain) (x : ViewSetting) :
    apply c x = c.setView (x.subject.calldata Sample.signatures) x.output := by
  unfold apply
  cases x.subject <;> rfl

end ViewSetting

namespace SimulatedChain
variable {c : SimulatedChain} {limit : UInt64}

/-- The output of the view of a subject. -/
def shown (c : SimulatedChain) (subject : ViewSubject) : Bytes :=
  (c.views.get? (subject.calldata Sample.signatures)).getD c.viewDefault

theorem shown_apply (c : SimulatedChain) (x : ViewSetting) (subject : ViewSubject) :
    (x.apply c).shown subject = if x.subject = subject then x.output else c.shown subject := by
  rw [ViewSetting.apply_eq, setView, shown, Table.get?_insert]
  by_cases h : x.subject = subject
  · rw [if_pos (congrArg _ h), if_pos h, Option.getD_some]
  · rw [if_neg fun he => h (ViewSubject.calldata_injective _ he), if_neg h, shown]

/-- Whether a chain answers views within a time limit, each with its own output. -/
structure ServesViews (c : SimulatedChain) (limit : UInt64) : Prop where
  served : c.refused.contains "call_view" = false
  inTime : ¬limit < c.delay
  up : c.down = false
  ownOutputs : c.viewOverride = none

theorem ServesViews.apply (h : c.ServesViews limit) (x : ViewSetting) :
    (x.apply c).ServesViews limit := by
  rw [ViewSetting.apply_eq]
  exact ⟨h.served, h.inTime, h.up, h.ownOutputs⟩

theorem ServesViews.foldl (h : c.ServesViews limit) (xs : List ViewSetting) :
    (xs.foldl ViewSetting.apply c).ServesViews limit := by
  induction xs generalizing c with
  | nil => exact h
  | cons x xs ih => exact ih (h.apply x)

theorem ServesViews.respond_view (h : c.ServesViews limit) (contract : Address)
    (subject : ViewSubject) (latest : Bool) :
    c.respond (.view contract (subject.calldata Sample.signatures) latest) limit
      = .answer (c.shown subject) := by
  have hserved : ¬c.refused.contains
      (NodeCall.view contract (subject.calldata Sample.signatures) latest).method = true := by
    rw [NodeCall.method, h.served]
    decide
  rw [respond, if_neg hserved, if_neg h.inTime, if_neg (by rw [h.up]; decide), answer, h.ownOutputs]
  rfl

end SimulatedChain

namespace Bridge
variable {b : Bridge} {c : SimulatedChain}

theorem outcome_boolView (hnode : b.node = c.node) (hc : c.ServesViews b.config.rpcTimeout)
    {subject : ViewSubject} {value : Bool} (hshown : c.shown subject = Abi.encode [.bool value])
    (latest : Bool) (past : Exchanges) :
    (b.boolView (subject.calldata Sample.signatures) latest).outcome past = .ok value := by
  refine outcome_boolView_eq_ok_iff.2 ⟨Abi.encode [.bool value], ?_, Call.boolResult_encode value⟩
  rw [hnode, ← hshown]
  exact hc.respond_view ..

/-- What the views answer on a chain that is asked with the canonical selectors, after any settings.
Before the first one its views all answer no. -/
theorem views_after (xs : List ViewSetting)
    (hnode : b.node = (xs.foldl ViewSetting.apply c).node)
    (hc : c.ServesViews b.config.rpcTimeout) (hunset : c.views = .empty)
    (hno : c.viewDefault = Abi.encode [.bool false])
    (hcompleted : b.config.signatures.isCompleted = Sample.signatures.isCompleted)
    (hminter : b.config.signatures.isMinter = Sample.signatures.isMinter)
    (latest : Bool) (past : Exchanges) :
    (∀ h, (b.isCompleted h latest).outcome past = .ok (ViewSetting.last xs (.completed h))) ∧
      ∀ token, (b.isMinter token latest).outcome past = .ok (ViewSetting.last xs (.minter token)) := by
  have hshown : ∀ subject, (xs.foldl ViewSetting.apply c).shown subject
      = Abi.encode [.bool (ViewSetting.last xs subject)] := by
    intro subject
    have hfirst : c.shown subject = Abi.encode [.bool false] := by
      rw [SimulatedChain.shown, hunset, Table.get?_empty, Option.getD_none, hno]
    rw [look_foldl SimulatedChain.shown_apply, hfirst, ViewSetting.last]
    cases lastOn? ViewSetting.subject xs subject <;> rfl
  have hasked := fun subject => outcome_boolView hnode (hc.foldl xs) (hshown subject) latest past
  refine ⟨fun h => ?_, fun token => ?_⟩
  · rw [isCompleted, hcompleted]
    exact hasked (.completed h)
  · rw [isMinter, hminter]
    exact hasked (.minter token)

/-- Two texts of which one is the other with a zero byte behind it, and a token between them. -/
theorem views_after_similar :
    let xs : List ViewSetting := [⟨.completed "p", true⟩, ⟨.completed "p\x00", true⟩,
      ⟨.minter Sample.token, true⟩, ⟨.completed "p", false⟩]
    let b := { Sample.bridge 103 with node := (xs.foldl ViewSetting.apply Sample.emptyChain).node }
    Sample.emptyChain.ServesViews b.config.rpcTimeout ∧
      (b.isCompleted "p" true).outcome [] = .ok false ∧
      (b.isCompleted "p\x00" true).outcome [] = .ok true ∧
      (b.isMinter Sample.token true).outcome [] = .ok true ∧
      (b.isMinter Sample.user true).outcome [] = .ok false := by
  intro xs b
  have hserves : Sample.emptyChain.ServesViews b.config.rpcTimeout := ⟨rfl, by decide, rfl, rfl⟩
  obtain ⟨hcompleted, hminter⟩ := views_after (b := b) (c := Sample.emptyChain) xs rfl hserves rfl rfl
    rfl rfl true []
  exact ⟨hserves, hcompleted "p", hcompleted "p\x00", hminter Sample.token, hminter Sample.user⟩

end Bridge
end EvmBridge
