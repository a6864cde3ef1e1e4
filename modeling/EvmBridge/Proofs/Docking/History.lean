import EvmBridge.Proofs.Docking.Switch

/-! # Histories of a registry

A registry gets operations one after the other, and during each of them any call of the store may
fail. `Registry.Step` lists what an operation can do to the registry, whatever the store does: a
failed one does nothing. `Docking.run` carries operations out and notes what each answered, so that a
theorem can look back: `inForce` and `seated` for the quorum, `highest` for the network's height,
`gate` for the height from which a chain is active.
-/

namespace EvmBridge
set_option autoImplicit false
open EvmBridge.Action

/-! ## Operations -/

/-- An operation on a registry and the store of its members. -/
inductive DockingOp where
  | register (a : Adapter)
  /-- Any member in memory has lengths that fit. -/
  | addMember (m : QuorumMember) (fits : m.Fits)
  | loadMembers
  | setLocal (address : Option String)
  | setQuorum (q : Quorum)
  | setActivation (chain : ChainId) (height : UInt64)
  | switchVersion (chain : ChainId) (a : Adapter) (version : UInt32)
  | observe (height : UInt64)
  | ensureSigning (chain : ChainId) (identity : Option SigningIdentity)

/-- What an operation on a registry answers. -/
inductive DockingAnswer where
  | done
  | loaded (members : Nat)
  | switched (o : SwitchOutcome)
  /-- Whether the local node is registered as a signer. -/
  | signer (registered : Bool)

/-- A change of the registry alone, which cannot fail. -/
def Docking.publish (change : Registry → Registry) : Action Docking DockingAnswer := fun d =>
  .ok .done { d with registry := change d.registry }

/-- Carries an operation out on a registry and its store. -/
def DockingOp.perform : DockingOp → Action Docking DockingAnswer
  | register a => Docking.publish (·.register a)
  | addMember m _ => do Docking.addMember m; return .done
  | loadMembers => return .loaded (← Docking.loadMembers)
  | setLocal address => Docking.publish (·.setLocal address)
  | setQuorum q => Docking.publish (·.setQuorum q)
  | setActivation chain height => Docking.publish (·.setActivation chain height)
  | switchVersion chain a version => return .switched (← Docking.switchVersion chain a version)
  | observe height => Docking.publish (·.observe height)
  | ensureSigning chain identity =>
    return .signer (← Docking.transition fun r => Action.ofExcept (r.ensureSigning chain identity))

/-- Whether an operation calls the store, and so can fail with it. -/
def DockingOp.usesStore : DockingOp → Bool
  | addMember .. | loadMembers | switchVersion .. => true
  | register _ | setLocal _ | setQuorum _ | setActivation .. | observe _ | ensureSigning .. => false

namespace Registry
variable (r : Registry)

/-- What the attempt to register the local node as a signer can come to. -/
inductive Signing (chain : ChainId) (identity : Option SigningIdentity) :
    Except BridgeError (Bool × Registry) → Prop
  | again (hl : chain ∈ r.latched) : Signing chain identity (.ok (true, r))
  | unknown (hl : chain ∉ r.latched) (ha : r.adapters.get? chain = none) :
    Signing chain identity (.error (.unknownChain chain))
  | early {a : Adapter} (hl : chain ∉ r.latched) (ha : r.adapters.get? chain = some a)
    (hh : r.networkHeight < (r.activationHeights.get? chain).getD 0) :
    Signing chain identity (.ok (false, r))
  | refused {a : Adapter} {i : SigningIdentity} {e : BridgeError} (hl : chain ∉ r.latched)
    (ha : r.adapters.get? chain = some a) (hi : identity = some i)
    (himport : a.importIdentity i = .error e) : Signing chain identity (.ok (false, r))
  | imported {a : Adapter} {i : SigningIdentity} (hl : chain ∉ r.latched)
    (ha : r.adapters.get? chain = some a) (hi : identity = some i) (hnone : a.identity = none)
    (hh : (r.activationHeights.get? chain).getD 0 ≤ r.networkHeight) :
    Signing chain identity (.ok (true, { r with
      latched := chain :: r.latched
      adapters := r.adapters.insert chain { a with identity := some i } }))
  | latched {a : Adapter} (hl : chain ∉ r.latched) (ha : r.adapters.get? chain = some a)
    (hi : identity = none ∨ a.signAddress?.isSome)
    (hh : (r.activationHeights.get? chain).getD 0 ≤ r.networkHeight) :
    Signing chain identity (.ok (true, { r with latched := chain :: r.latched }))

theorem eq_of_importIdentity {a a' : Adapter} {i : SigningIdentity}
    (h : a.importIdentity i = .ok a') : a' = { a with identity := some i } := by
  unfold Adapter.importIdentity at h
  split at h <;> cases h
  rfl

theorem signing_ensureSigning (chain : ChainId) (identity : Option SigningIdentity) :
    r.Signing chain identity (r.ensureSigning chain identity) := by
  unfold ensureSigning
  split
  next hl => exact .again hl
  next hl =>
  unfold adapter
  cases ha : r.adapters.get? chain with
  | none => exact .unknown hl ha
  | some a =>
    simp only [bind, Except.bind]
    split
    next hh => exact .early hl ha hh
    next hh =>
    have hh := UInt64.not_lt.1 hh
    split
    next i hi =>
      cases himport : a.importIdentity i with
      | error e => exact .refused hl ha rfl himport
      | ok a' =>
        cases eq_of_importIdentity himport
        exact .imported hl ha rfl (Option.map_eq_none_iff.1 hi) hh
    next identity _ _ hno =>
      refine .latched hl ha ?_ hh
      cases identity with
      | none => exact .inl rfl
      | some i => exact .inr (Option.isSome_iff_ne_none.2 fun hnone => hno i rfl hnone)

/-- What an operation can answer and what it then makes of a registry. -/
inductive Step : DockingOp → Except BridgeError DockingAnswer → Registry → Prop
  | failed {op : DockingOp} (hf : op.usesStore = true) (e : BridgeError) : Step op (.error e) r
  | register (a : Adapter) : Step (.register a) (.ok .done) (r.register a)
  | addMember (m : QuorumMember) (fits : m.Fits) :
    Step (.addMember m fits) (.ok .done) (r.withMembers (r.members.insert m.signAddress m))
  | loadMembers (ms : List QuorumMember) (fits : ∀ m ∈ ms, m.Fits) :
    Step .loadMembers (.ok (.loaded (Docking.bySignAddress ms).size))
      (r.withMembers (Docking.bySignAddress ms))
  | setLocal (address : Option String) :
    Step (.setLocal address) (.ok .done) (r.setLocal address)
  | setQuorum (q : Quorum) : Step (.setQuorum q) (.ok .done) (r.setQuorum q)
  | setActivation (chain : ChainId) (height : UInt64) :
    Step (.setActivation chain height) (.ok .done) (r.setActivation chain height)
  | switchVersion {chain : ChainId} {a : Adapter} (hc : a.chain = chain) (version : UInt32) :
    Step (.switchVersion chain a version) (.ok (.switched (r.switchOutcome version)))
      (r.afterSwitch chain a version)
  | observe (height : UInt64) : Step (.observe height) (.ok .done) (r.observe height)
  | ensureSigning {chain : ChainId} {identity : Option SigningIdentity} {registered : Bool}
    {r' : Registry} (h : r.Signing chain identity (.ok (registered, r'))) :
    Step (.ensureSigning chain identity) (.ok (.signer registered)) r'
  | unsigned {chain : ChainId} {identity : Option SigningIdentity} {e : BridgeError}
    (h : r.Signing chain identity (.error e)) : Step (.ensureSigning chain identity) (.error e) r

end Registry

namespace Docking

theorem ends_transition_bind {α : Type} {change : Registry → Action Store (α × Registry)}
    {f : α → DockingAnswer} {d : Docking} {ok : DockingAnswer → Docking → Prop}
    {err : BridgeError → Docking → Prop}
    (h : Ends (change d.registry) d.store (fun a s => ok (f a.1) ⟨a.2, s⟩)
      fun e s => err e ⟨d.registry, s⟩) :
    Ends (transition change >>= fun a => pure (f a)) d ok err :=
  ends_bind.2 (ends_transition.2 h)

theorem ends_perform (op : DockingOp) (d : Docking) :
    Ends op.perform d (fun answer d' => d.registry.Step op (.ok answer) d'.registry)
      fun e d' => d.registry.Step op (.error e) d'.registry := by
  cases op with
  | register a => exact .register a
  | addMember m fits =>
    refine ends_transition_bind (f := fun _ => .done) (ends_bind.2 ?_)
    exact (Ends.trivial _ _).mono (fun _ _ _ => .addMember m fits) fun _ _ _ => .failed rfl _
  | loadMembers =>
    refine ends_transition_bind (ends_bind.2 ?_)
    exact Members.ends_load_fits.mono (fun ms _ h => .loadMembers ms h) fun _ _ _ => .failed rfl _
  | setLocal address => exact .setLocal address
  | setQuorum q => exact .setQuorum q
  | setActivation chain height => exact .setActivation chain height
  | switchVersion chain a version =>
    refine ends_bind.2 ?_
    by_cases hc : a.chain = chain
    · refine (ends_switchVersion hc version d).mono ?_ ?_
      · rintro o d' ⟨rfl, hs⟩
        rw [ends_pure, hs.registry]
        exact .switchVersion hc version
      · rintro e d' ⟨-, hi⟩
        rw [hi.registry]
        exact .failed rfl _
    · obtain ⟨e, he⟩ := switchVersion_refused hc version d
      unfold Ends
      rw [he]
      exact .failed rfl _
  | observe height => exact .observe height
  | ensureSigning chain identity =>
    refine ends_transition_bind (ends_ofExcept.2 ?_)
    have h := d.registry.signing_ensureSigning chain identity
    cases hr : d.registry.ensureSigning chain identity with
    | ok answer => exact .ensureSigning (hr ▸ h)
    | error e => exact .unsigned (hr ▸ h)

theorem step_perform (op : DockingOp) (d : Docking) :
    d.registry.Step op (op.perform.outcome d) (op.perform.final d).registry :=
  Ends.outcome (p := fun o (d' : Docking) => d.registry.Step op o d'.registry) (ends_perform op d)

end Docking

/-! ## Runs -/

/-- An operation, and the store calls that fail in the meantime. -/
structure DockingCall where
  op : DockingOp
  plan : FaultPlan

/-- An operation that was carried out, and what it answered. -/
structure DockingEvent where
  op : DockingOp
  outcome : Except BridgeError DockingAnswer

/-- A registry with what happened to it, the last event first. -/
structure DockingRun where
  past : List DockingEvent
  docking : Docking

namespace Docking

/-- The registry with a store that fails as planned from now on. -/
def withPlan (d : Docking) (plan : FaultPlan) : Docking := { d with store := d.store.withPlan plan }

/-- A run goes on by one operation. -/
def next (run : DockingRun) (call : DockingCall) : DockingRun where
  past := ⟨call.op, call.op.perform.outcome (run.docking.withPlan call.plan)⟩ :: run.past
  docking := call.op.perform.final (run.docking.withPlan call.plan)

/-- Carries calls out one after the other, whether they fail or not. -/
def run (d : Docking) (calls : List DockingCall) : DockingRun := calls.foldl next ⟨[], d⟩

/-- What holds at the start and is kept by each of the operations holds at the end. -/
theorem run_keeps {p : DockingRun → Prop} {d : Docking} {calls : List DockingCall}
    (hstart : p ⟨[], d⟩) (hnext : ∀ run, p run → ∀ call ∈ calls, p (next run call)) :
    p (d.run calls) := List.foldlRecOn calls next hstart hnext

theorem step_next (run : DockingRun) (call : DockingCall) :
    run.docking.registry.Step call.op
      (call.op.perform.outcome (run.docking.withPlan call.plan)) (next run call).docking.registry :=
  step_perform call.op (run.docking.withPlan call.plan)

end Docking

/-- Whether a registry is one that a process starts with, for the quorum parameters `q`. -/
inductive Registry.Initial (q : Quorum) : Registry → Prop
  | ofQuorum : Initial q (.ofQuorum q)
  | ofConfig {c : Config} {r : Registry} (hq : c.quorum = q) (h : Registry.ofConfig c = .ok r) :
    Initial q r

/-! ## Looking back -/

namespace DockingEvent

/-- The quorum parameters in force: those that were set last, at first `q`. -/
def inForce (q : Quorum) : List DockingEvent → Quorum
  | [] => q
  | e :: past =>
    match e.op with
    | .setQuorum q' => q'
    | _ => inForce q past

/-- The quorum parameters in force when the seats were counted: at the last switch that succeeded,
at first `q`. -/
def seated (q : Quorum) : List DockingEvent → Quorum
  | [] => q
  | e :: past =>
    match e.outcome with
    | .ok (.switched _) => inForce q past
    | _ => seated q past

/-- The greatest network height observed. -/
def highest : List DockingEvent → UInt64
  | [] => 0
  | e :: past =>
    match e.op with
    | .observe height => max (highest past) height
    | _ => highest past

/-- The height from which a chain is active: the one set last, at first that of `r`, 0 if there is
none. -/
def gate (r : Registry) (chain : ChainId) : List DockingEvent → UInt64
  | [] => (r.activationHeights.get? chain).getD 0
  | e :: past =>
    match e.op with
    | .setActivation chain' height => if chain' = chain then height else gate r chain past
    | _ => gate r chain past

/-- Whether the local node was registered as a signer on a chain. -/
def registers (e : DockingEvent) (chain : ChainId) : Bool :=
  match e.op, e.outcome with
  | .ensureSigning chain' _, .ok (.signer true) => chain' = chain
  | _, _ => false

/-- An operation that uses the store sets none of these. -/
theorem unset_of_usesStore {op : DockingOp} (hf : op.usesStore = true)
    (o : Except BridgeError DockingAnswer) (past : List DockingEvent) :
    (∀ q, inForce q (⟨op, o⟩ :: past) = inForce q past) ∧
      highest (⟨op, o⟩ :: past) = highest past ∧
      (∀ r chain, gate r chain (⟨op, o⟩ :: past) = gate r chain past) ∧
      ∀ chain, registers ⟨op, o⟩ chain = false := by
  cases op with
  | addMember | loadMembers | switchVersion =>
    exact ⟨fun _ => rfl, rfl, fun _ _ => rfl, fun _ => rfl⟩
  | register | setLocal | setQuorum | setActivation | observe | ensureSigning => cases hf

end DockingEvent

/-! ## A sample run -/

namespace Sample

/-- A registry without members, on an empty store that does not fail. -/
def emptyDocking : Docking := ⟨.ofQuorum ⟨[], 1, 67⟩, .reliable .empty⟩

/-- The local node becomes a signer, and loses its seed seat with a version switch. Later the store
fails twice. -/
def calls : List DockingCall :=
  [⟨.register (adapter 103 1), .never⟩, ⟨.setActivation 103 10, .never⟩,
    ⟨.addMember (member "a" "02bb" true 1) ⟨by decide, by decide⟩, .never⟩,
    ⟨.setLocal (some "a"), .never⟩, ⟨.setQuorum ⟨["02AA"], 3, 67⟩, .never⟩,
    ⟨.ensureSigning 103 (some identity), .never⟩, ⟨.observe 12, .never⟩,
    ⟨.ensureSigning 103 (some identity), .never⟩,
    ⟨.switchVersion 103 (adapter 103 2) 2, .never⟩, ⟨.setQuorum ⟨[], 9, 67⟩, .never⟩,
    ⟨.addMember (member "c" "02cc" false 1) ⟨by decide, by decide⟩, .never⟩,
    ⟨.addMember (member "b" "02cc" false 1) ⟨by decide, by decide⟩, .never⟩,
    ⟨.addMember (member "d" "02cc" false 1) ⟨by decide, by decide⟩,
      .ofRules [⟨"put", [], 0⟩]⟩,
    ⟨.loadMembers, .ofRules [⟨"scan", [], 0⟩]⟩]

end Sample
end EvmBridge
