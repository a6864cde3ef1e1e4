import EvmBridge.Proofs.Docking.Invariant

/-! # The local node as a signer

Once the local node is registered as a signer on a chain it stays registered, and only the call that
registers it first looks at heights and identities. `Registry.Recalls` ties the registry to its
history; with it `Docking.signing_run` says what each call does, whatever happened before it.
-/

namespace EvmBridge
set_option autoImplicit false
open DockingEvent (registers highest gate)

namespace Registry
variable {r r' : Registry}

/-! ## What the registry knows of its history -/

/-- A registry that started as `r₀` knows where the local node was registered, the greatest height
and the heights from which chains are active. -/
structure Recalls (r₀ r : Registry) (past : List DockingEvent) : Prop where
  latched : ∀ chain, chain ∈ r.latched ↔ ∃ e ∈ past, registers e chain = true
  height : r.networkHeight = highest past
  gate : ∀ chain, (r.activationHeights.get? chain).getD 0 = gate r₀ chain past

theorem mem_latched_of_step {op : DockingOp} {o : Except BridgeError DockingAnswer}
    (hs : r.Step op o r') (chain : ChainId) :
    chain ∈ r'.latched ↔ registers ⟨op, o⟩ chain = true ∨ chain ∈ r.latched := by
  cases hs with
  | failed hf e =>
    have hnone := (DockingEvent.unset_of_usesStore hf (.error e) []).2.2.2 chain
    simp [hnone]
  | ensureSigning hs =>
    cases hs with
    | again hl =>
      refine ⟨.inr, fun h => h.elim (fun hc => ?_) id⟩
      exact of_decide_eq_true hc ▸ hl
    | early | refused => simp [registers]
    | imported | latched => simp [registers, eq_comm]
  | unsigned => simp [registers]
  | register | addMember | loadMembers | setLocal | setQuorum | setActivation | switchVersion
  | observe => exact (or_iff_right nofun).symm

theorem Recalls.step {r₀ : Registry} {past : List DockingEvent} (h : Recalls r₀ r past)
    {op : DockingOp} {o : Except BridgeError DockingAnswer} (hs : r.Step op o r') :
    Recalls r₀ r' (⟨op, o⟩ :: past) where
  latched chain := by
    rw [mem_latched_of_step hs, h.latched]
    simp
  height := by
    cases hs with
    | failed hf e => rw [(DockingEvent.unset_of_usesStore hf (.error e) past).2.1, h.height]
    | observe height => exact congrArg (max · height) h.height
    | ensureSigning hs => cases hs <;> exact h.height
    | register | addMember | loadMembers | setLocal | setQuorum | setActivation | switchVersion
    | unsigned => exact h.height
  gate chain := by
    cases hs with
    | failed hf e => rw [(DockingEvent.unset_of_usesStore hf (.error e) past).2.2.1, h.gate]
    | setActivation chain' height =>
      show (Table.get? (r.activationHeights.insert chain' height) chain).getD 0
        = if chain' = chain then height else _
      rw [Table.get?_insert]
      split
      · rfl
      · exact h.gate chain
    | ensureSigning hs => cases hs <;> exact h.gate chain
    | register | addMember | loadMembers | setLocal | setQuorum | switchVersion | observe
    | unsigned => exact h.gate chain

theorem recalls_initial {q : Quorum} (h : Initial q r) : Recalls r r [] := by
  obtain ⟨heights, rfl⟩ := h.eq
  exact ⟨fun chain => by simp [ofQuorum], rfl, fun chain => rfl⟩

/-! ## One call -/

/-- What an attempt to register the local node as a signer answers, and what it makes of a registry
that started as `r₀` and has this history. -/
structure Attempt (r₀ : Registry) (past : List DockingEvent) (r : Registry) (chain : ChainId)
    (identity : Option SigningIdentity) (o : Except BridgeError DockingAnswer) (r' : Registry) :
    Prop where
  answer : o = .ok (.signer true) ∨ o = .ok (.signer false) ∨ o = .error (.unknownChain chain)
  again : (∃ e ∈ past, registers e chain = true) → o = .ok (.signer true) ∧ r' = r
  first : (∀ e ∈ past, registers e chain = false) → o = .ok (.signer true) →
    gate r₀ chain past ≤ highest past ∧ (∃ a, r.adapter chain = .ok a) ∧
      (identity ≠ none → ∃ a, r'.adapter chain = .ok a ∧ a.signAddress? ≠ none)
  adapters : ∀ chain', r'.adapter chain' = r.adapter chain' ∨
    chain' = chain ∧ ∃ a i, r.adapter chain = .ok a ∧ a.identity = none ∧ identity = some i ∧
      r'.adapter chain = .ok { a with identity := some i }
  latched : ∀ chain', chain' ∈ r'.latched ↔
    (chain' = chain ∧ o = .ok (.signer true)) ∨ chain' ∈ r.latched
  refused : o ≠ .ok (.signer true) → r' = r

section Attempt
variable {r₀ : Registry} {past : List DockingEvent} {chain : ChainId}
  {identity : Option SigningIdentity} {o : Except BridgeError DockingAnswer}

theorem registers_ensureSigning_iff {chain' : ChainId} :
    registers ⟨.ensureSigning chain identity, o⟩ chain' = true ↔
      chain' = chain ∧ o = .ok (.signer true) := by
  unfold registers
  split
  next hop ho =>
    cases hop
    simp only at ho
    simp [ho, eq_comm]
  next hno =>
    refine ⟨nofun, fun ⟨_, ho⟩ => ?_⟩
    exact (hno _ _ rfl ho).elim

theorem Recalls.mem_latched (h : Recalls r₀ r past) (hr : ∃ e ∈ past, registers e chain = true) :
    chain ∈ r.latched := (h.latched chain).2 hr

/-- An attempt that does not succeed leaves everything as it was. -/
theorem Recalls.attempt_unchanged (h : Recalls r₀ r past) (hl : chain ∉ r.latched)
    (ho : o = .ok (.signer false) ∨ o = .error (.unknownChain chain)) :
    Attempt r₀ past r chain identity o r := by
  have hne : o ≠ .ok (.signer true) := by
    rintro rfl
    rcases ho with ho | ho <;> cases ho
  refine ⟨.inr ho, fun hr => absurd (h.mem_latched hr) hl, fun _ ht => absurd ht hne,
    fun _ => .inl rfl, fun chain' => ?_, fun _ => rfl⟩
  simp [hne]

theorem Recalls.attempt (h : Recalls r₀ r past)
    (hs : r.Step (.ensureSigning chain identity) o r') :
    Attempt r₀ past r chain identity o r' := by
  have hlatched : ∀ chain', chain' ∈ r'.latched ↔
      (chain' = chain ∧ o = .ok (.signer true)) ∨ chain' ∈ r.latched := fun chain' => by
    rw [mem_latched_of_step hs, registers_ensureSigning_iff]
  cases hs with
  | failed hf => cases hf
  | unsigned hs =>
    cases hs with
    | unknown hl => exact h.attempt_unchanged hl (.inr rfl)
  | ensureSigning hs =>
    cases hs with
    | early hl | refused hl => exact h.attempt_unchanged hl (.inl rfl)
    | again hl =>
      refine ⟨.inl rfl, fun _ => ⟨rfl, rfl⟩, fun hno => ?_, fun _ => .inl rfl, hlatched,
        fun _ => rfl⟩
      obtain ⟨e, he, hr⟩ := (h.latched chain).1 hl
      rw [hno e he] at hr
      cases hr
    | @imported a i hl ha hi hnone hh =>
      rw [h.gate, h.height] at hh
      rw [← adapter_eq_ok_iff] at ha
      have hnew : (r.adapters.insert chain { a with identity := some i }).get? chain
          = some { a with identity := some i } := by rw [Table.get?_insert, if_pos rfl]
      refine ⟨.inl rfl, fun hr => absurd (h.mem_latched hr) hl, fun _ _ => ⟨hh, ⟨a, ha⟩, fun _ =>
        ⟨_, adapter_eq_ok_iff.2 hnew, nofun⟩⟩, fun chain' => ?_, hlatched, fun hne => absurd rfl hne⟩
      by_cases hc : chain = chain'
      · exact .inr ⟨hc.symm, a, i, ha, hnone, hi, adapter_eq_ok_iff.2 hnew⟩
      · refine .inl ?_
        simp only [adapter, Table.get?_insert, if_neg hc]
    | @latched a hl ha hi hh =>
      rw [h.gate, h.height] at hh
      rw [← adapter_eq_ok_iff] at ha
      exact ⟨.inl rfl, fun hr => absurd (h.mem_latched hr) hl, fun _ _ => ⟨hh, ⟨a, ha⟩, fun hsome =>
        ⟨a, ha, Option.isSome_iff_ne_none.1 (hi.resolve_left hsome)⟩⟩, fun _ => .inl rfl, hlatched,
        fun hne => absurd rfl hne⟩

end Attempt
end Registry

namespace Docking

/-- After every run, each attempt to register the local node as a signer does what `Attempt` says. -/
theorem signing_run {q : Quorum} {d : Docking} (hd : Registry.Initial q d.registry)
    (calls : List DockingCall) (chain : ChainId) (identity : Option SigningIdentity)
    (plan : FaultPlan) :
    let run := d.run calls
    let after := next run ⟨.ensureSigning chain identity, plan⟩
    ∃ e, after.past = e :: run.past ∧ e.op = .ensureSigning chain identity ∧
      Registry.Attempt d.registry run.past run.docking.registry chain identity e.outcome
        after.docking.registry := by
  intro run after
  have hrecalls : d.registry.Recalls run.docking.registry run.past :=
    run_keeps (p := fun run => d.registry.Recalls run.docking.registry run.past)
      (Registry.recalls_initial hd) fun run h call _ => h.step (step_next run call)
  exact ⟨_, rfl, rfl, hrecalls.attempt (step_next run ⟨.ensureSigning chain identity, plan⟩)⟩

/-- The local node signs on after it lost its seat and the adapter was switched. -/
theorem signing_run_again :
    let run := Sample.emptyDocking.run Sample.calls
    let after := next run ⟨.ensureSigning 103 none, .never⟩
    Registry.Initial ⟨[], 1, 67⟩ Sample.emptyDocking.registry ∧
      (∃ e ∈ run.past, registers e 103 = true) ∧
      after.docking.registry = run.docking.registry := by
  intro run after
  have hpast : ∃ e ∈ run.past, registers e 103 = true := by decide +kernel
  obtain ⟨e, -, -, h⟩ := signing_run (d := Sample.emptyDocking) .ofQuorum Sample.calls 103 none .never
  exact ⟨.ofQuorum, hpast, (h.again hpast).2⟩

end Docking
end EvmBridge
