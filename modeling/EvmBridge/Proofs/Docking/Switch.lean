import EvmBridge.Proofs.Docking.StoredMembers
import EvmBridge.Sample

/-! # Version switches that fail

A version switch makes one list of row changes in turn, `Registry.switchChanges`, and only then takes
a new registry (`Docking.ends_switchVersion`). So a switch that fails leaves the registry as it was,
and the same switch made once more comes to what it would have come to at once
(`Docking.switchVersion_again`).
-/

namespace EvmBridge
set_option autoImplicit false
open EvmBridge.Action

/-- What the next switch changes in the store: the leaving members go, then the others are stored with
their new numbers. -/
def Registry.switchChanges (r : Registry) : List RowChange :=
  r.leaving.map Members.removal ++ r.remaining.map Members.storing

namespace Docking

/-! ## What a switch does -/

theorem makes_removeAll (ms : List QuorumMember) :
    Store.Makes (removeAll ms) (ms.map Members.removal) := by
  induction ms with
  | nil => exact Store.makes_nil
  | cons m ms ih => exact (Store.makes_delete _).bind ih

theorem makes_saveAll (ms : List QuorumMember) :
    Store.Makes (saveAll ms) (ms.map Members.storing) := by
  induction ms with
  | nil => exact Store.makes_nil
  | cons m ms ih => exact (Store.makes_put _ _).bind ih

theorem ends_transition {α : Type} {change : Registry → Action Store (α × Registry)} {d : Docking}
    {ok : α → Docking → Prop} {err : BridgeError → Docking → Prop} :
    Ends (transition change) d ok err ↔
      Ends (change d.registry) d.store (fun a s => ok a.1 ⟨a.2, s⟩) fun e s => err e ⟨d.registry, s⟩ := by
  simp only [Ends, transition, EStateM.run]
  cases change d.registry d.store <;> rfl

/-- What a completed switch leaves. -/
structure Switched (d : Docking) (chain : ChainId) (a : Adapter) (version : UInt32) (d' : Docking) :
    Prop where
  registry : d'.registry = d.registry.afterSwitch chain a version
  rows : d'.store.rows = d.store.rows.apply d.registry.switchChanges

/-- What a switch leaves that was cut short: a first part of its changes is made. -/
structure Interrupted (d d' : Docking) : Prop where
  registry : d'.registry = d.registry
  rows : ∃ done left, done ++ left = d.registry.switchChanges ∧ d'.store.rows = d.store.rows.apply done

variable {chain : ChainId} {a : Adapter}

theorem switchVersion_eq (hc : a.chain = chain) (version : UInt32) :
    switchVersion chain a version = transition fun r => do
      removeAll r.leaving
      saveAll r.remaining
      return (r.switchOutcome version, r.afterSwitch chain a version) := by
  unfold switchVersion
  exact if_neg (not_not_intro hc)

theorem ends_switchVersion (hc : a.chain = chain) (version : UInt32) (d : Docking) :
    Ends (switchVersion chain a version) d
      (fun o d' => o = d.registry.switchOutcome version ∧ d.Switched chain a version d')
      (fun _ d' => d.store.MayFail ∧ d.Interrupted d') := by
  have hmakes := (makes_removeAll d.registry.leaving).bind (makes_saveAll d.registry.remaining)
  rw [switchVersion_eq hc]
  refine ends_transition.2 ?_
  rw [← bind_assoc]
  refine (hmakes d.store).bind ?_ ?_
  · rintro - s ⟨-, hrows⟩
    exact ⟨rfl, rfl, hrows⟩
  · rintro e s ⟨hf, done, left, hall, hrows⟩
    exact ⟨hf, rfl, done, left, hall, hrows⟩

theorem switchVersion_refused (hc : a.chain ≠ chain) (version : UInt32) (d : Docking) :
    ∃ e, switchVersion chain a version d = .error e d := by
  unfold switchVersion
  rw [if_pos hc]
  exact ⟨_, rfl⟩

/-! ## After a failure -/

/-- The registry and the rows as they are, on a store that does not fail. -/
def withoutFailures (d : Docking) : Docking := { d with store := .reliable d.store.rows }

theorem switchVersion_withoutFailures (hc : a.chain = chain) (version : UInt32) (d : Docking) :
    (switchVersion chain a version).outcome d.withoutFailures
        = .ok (d.registry.switchOutcome version) ∧
      d.Switched chain a version ((switchVersion chain a version).final d.withoutFailures) := by
  have hends := ends_switchVersion hc version d.withoutFailures
  refine Ends.outcome (p := fun o d' => o = .ok _ ∧ d.Switched chain a version d') (hends.mono ?_ ?_)
  · rintro o d' ⟨rfl, hs⟩
    exact ⟨rfl, hs.registry, hs.rows⟩
  · rintro e d' ⟨hf, -⟩
    exact absurd hf (Store.not_mayFail_reliable _)

theorem interrupted_of_failed (hc : a.chain = chain) {version : UInt32} {d : Docking}
    {e : BridgeError} (h : (switchVersion chain a version).outcome d = .error e) :
    d.Interrupted ((switchVersion chain a version).final d) := by
  have hends := ends_switchVersion hc version d
  refine Ends.outcome (p := fun o d' => o = .error e → d.Interrupted d') (hends.mono ?_ ?_) h
  · rintro o d' - ho
    cases ho
  · rintro e' d' ⟨-, hi⟩ -
    exact hi

/-- A failed switch leaves the registry as it was, and the same switch without failures then comes
to what it would have come to at once. -/
theorem switchVersion_again (chain : ChainId) (a : Adapter) (version : UInt32) {d : Docking}
    {e : BridgeError} (h : (switchVersion chain a version).outcome d = .error e) :
    let switch := switchVersion chain a version
    let failed := switch.final d
    failed.registry = d.registry ∧
      switch.outcome failed.withoutFailures = switch.outcome d.withoutFailures ∧
      (switch.final failed.withoutFailures).registry = (switch.final d.withoutFailures).registry ∧
      (switch.final failed.withoutFailures).store.rows
        = (switch.final d.withoutFailures).store.rows ∧
      (a.chain = chain →
        switch.outcome failed.withoutFailures = .ok (d.registry.switchOutcome version)) := by
  intro switch failed
  by_cases hc : a.chain = chain
  · obtain ⟨hregistry, done, left, hall, hrows⟩ := interrupted_of_failed hc h
    obtain ⟨honce, hs⟩ := switchVersion_withoutFailures hc version d
    obtain ⟨htwice, hs'⟩ := switchVersion_withoutFailures hc version failed
    rw [hregistry] at htwice
    refine ⟨hregistry, htwice.trans honce.symm, ?_, ?_, fun _ => htwice⟩
    · rw [hs'.registry, hs.registry, hregistry]
    · rw [hs'.rows, hs.rows, hregistry, hrows, ← hall, Rows.apply_again]
  · -- The adapter is refused each time, and nothing has changed.
    have hfinal : failed = d := by
      obtain ⟨e', he⟩ := switchVersion_refused hc version d
      simp only [failed, switch, Action.final, EStateM.run, he]
    rw [hfinal]
    exact ⟨rfl, rfl, rfl, rfl, fun h => absurd h hc⟩

/-- A switch of the sample members that fails when the second of the remaining two is stored. -/
theorem outcome_switchVersion_failing_put :
    (switchVersion 103 (Sample.adapter 103 2) 2).outcome
      (Sample.docking (.ofRules [⟨"put", [], 1⟩])) = .error (.storage "injected put") := by
  generalize hd : Sample.docking (.ofRules [⟨"put", [], 1⟩]) = d
  have hordered : d.registry.orderedMembers = Sample.members := by
    subst hd
    exact Members.byOrder_eq (by unfold Members.Ranked; decide) (by decide)
  have hleaving : d.registry.leaving = [Sample.member "a" "02bb" true 3] := by
    rw [Registry.leaving, hordered]
    subst hd
    rfl
  have hremaining : d.registry.remaining = Registry.numberFrom 1
      [Sample.member "c" "02aa" false 2, Sample.member "b" "02cc" false 5] := by
    rw [Registry.remaining, hordered]
    subst hd
    rfl
  have hchain : (Sample.adapter 103 2).chain = 103 := rfl
  rw [switchVersion_eq hchain]
  simp only [Action.outcome, EStateM.run, transition, hleaving, hremaining]
  subst hd
  rfl

theorem switchVersion_again_after_put :
    let d := Sample.docking (.ofRules [⟨"put", [], 1⟩])
    let switch := switchVersion 103 (Sample.adapter 103 2) 2
    let failed := switch.final d
    switch.outcome d = .error (.storage "injected put") ∧
      failed.registry = d.registry ∧
      switch.outcome failed.withoutFailures = .ok (d.registry.switchOutcome 2) := by
  have h := switchVersion_again 103 (Sample.adapter 103 2) 2 outcome_switchVersion_failing_put
  exact ⟨outcome_switchVersion_failing_put, h.1, h.2.2.2.2 rfl⟩

end Docking
end EvmBridge
