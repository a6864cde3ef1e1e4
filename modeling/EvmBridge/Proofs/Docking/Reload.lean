import EvmBridge.Proofs.Docking.Invariant

/-! # Members in memory and members in the store

Members are stored before they are added, and a version switch removes and stores them before the
registry changes. So the store holds the members of the registry (`Docking.Held`) as long as it fails
in no switch, and a registry that starts over loads the same members in the same order
(`Docking.reload_run`).
-/

namespace EvmBridge
set_option autoImplicit false
open EvmBridge.Action
open Members (HeldBy key removal byOrder byOrderAndAddress)

theorem Docking.ends_loadMembers_values {d : Docking} {t : Table String QuorumMember}
    (ht : t.FiledBy QuorumMember.signAddress) (hheld : HeldBy t.values d.store.rows) :
    Ends loadMembers d
      (fun n d' => n = t.size ∧ d'.registry = d.registry.withMembers t ∧
        d'.store.rows = d.store.rows)
      fun _ d' => d.store.MayFail ∧ d'.registry = d.registry ∧ d'.store.rows = d.store.rows := by
  have hload := ends_loadMembers hheld
  rw [bySignAddress_values ht] at hload
  exact hload.mono (fun _ _ ⟨hn, hr, hrows, _⟩ => ⟨hn, hr, hrows⟩) fun _ _ hf => hf

/-! ## Operations -/

/-- Whether an operation was a switch in which a call of the store failed. A switch fails otherwise
only if it is given the adapter of another chain. -/
def DockingEvent.cutShort (e : DockingEvent) : Bool :=
  match e.op, e.outcome with
  | .switchVersion chain a _, .error _ => a.chain = chain
  | _, _ => false

theorem Registry.Signing.members {r r' : Registry} {chain : ChainId}
    {identity : Option SigningIdentity} {registered : Bool}
    (h : r.Signing chain identity (.ok (registered, r'))) : r'.members = r.members := by
  cases h <;> rfl

namespace Docking

/-- Whether the store holds the members of the registry. -/
def Held (d : Docking) : Prop := HeldBy d.registry.members.values d.store.rows

/-- Whether a registry is in order and its store holds its members. -/
structure InStep (d : Docking) : Prop where
  filed : d.registry.Filed
  held : d.Held

variable {d : Docking}

theorem InStep.switched (h : d.InStep) {chain : ChainId} {a : Adapter} {version : UInt32}
    {d' : Docking} (hs : d.Switched chain a version d') : d'.Held := by
  -- The leaving members are removed, and then the others are stored with their numbers.
  have hstaying : HeldBy (d.registry.staying ++ [])
      (d.store.rows.apply (d.registry.leaving.map removal)) := by
    rw [List.append_nil]
    exact (h.held.perm d.registry.perm_leaving_staying.symm).removals
  have hremaining : HeldBy (d.registry.remaining ++ []) d'.store.rows := by
    rw [hs.rows, Registry.switchChanges, Rows.apply_append]
    exact hstaying.numbered
  rw [List.append_nil] at hremaining
  rw [Held, hs.registry]
  exact hremaining.perm (perm_values_bySignAddress hremaining.distinct).symm

theorem InStep.ends_addMember (h : d.InStep) {m : QuorumMember} (hf : m.Fits) :
    Ends (addMember m) d (fun _ d' => d'.Held) fun _ d' => d'.Held := by
  refine ends_transition.2 (ends_bind.2 ?_)
  unfold Members.save Store.put
  exact Store.ends_perform (h.held.insert h.filed.members hf) fun _ _ => h.held

/-- Every operation keeps the store in step, unless it is a switch that is cut short. -/
theorem InStep.ends_perform (h : d.InStep) (op : DockingOp) :
    Ends op.perform d (fun _ d' => d'.Held)
      fun e d' => DockingEvent.cutShort ⟨op, .error e⟩ = false → d'.Held := by
  cases op with
  | register | setLocal | setQuorum | setActivation | observe => exact h.held
  | addMember m fits =>
    exact (h.ends_addMember fits).bind (fun _ _ hd => hd) fun _ _ hd _ => hd
  | loadMembers =>
    refine (ends_loadMembers_values h.filed.members h.held).bind ?_ ?_
    · rintro n d' ⟨-, hr, hrows⟩
      rw [ends_pure, Held, hr, hrows]
      exact h.held
    · rintro e d' ⟨-, hr, hrows⟩ -
      rw [Held, hr, hrows]
      exact h.held
  | switchVersion chain a version =>
    by_cases hc : a.chain = chain
    · refine (ends_switchVersion hc version d).bind (fun o d' hs => h.switched hs.2) ?_
      intro e d' _ hcut
      simp [DockingEvent.cutShort, hc] at hcut
    · obtain ⟨e, he⟩ := switchVersion_refused hc version d
      refine ends_bind.2 ?_
      unfold Ends
      rw [he]
      exact fun _ => h.held
  | ensureSigning chain identity =>
    refine ends_transition_bind (f := .signer) (ends_ofExcept.2 ?_)
    have hs := d.registry.signing_ensureSigning chain identity
    cases hr : d.registry.ensureSigning chain identity with
    | ok answer =>
      rw [hr] at hs
      show HeldBy answer.2.members.values d.store.rows
      rw [hs.members]
      exact h.held
    | error e => exact fun _ => h.held

theorem InStep.next {run : DockingRun} (h : run.docking.InStep) (call : DockingCall)
    (hcut : ∀ e ∈ (next run call).past, e.cutShort = false) : (next run call).docking.InStep := by
  have hplan : (run.docking.withPlan call.plan).InStep := ⟨h.filed, h.held⟩
  refine ⟨h.filed.step (step_next run call), ?_⟩
  exact Ends.outcome (p := fun o d' => DockingEvent.cutShort ⟨call.op, o⟩ = false → d'.Held)
    ((hplan.ends_perform call.op).mono (fun _ _ hd _ => hd) fun _ _ hd => hd)
    (hcut _ (List.mem_cons_self ..))

/-! ## Starting over -/

/-- What the registry shows and what the store loads. -/
theorem InStep.ends_load (h : d.InStep) :
    Ends Members.load (.reliable d.store.rows) (fun l _ => l = d.registry.orderedMembers)
      fun _ _ => False := by
  have hload := HeldBy.ends_load (s := .reliable d.store.rows) h.held
  rw [bySignAddress_values h.filed.members] at hload
  exact hload.mono (fun _ _ hl => hl.1) fun _ _ hf => Store.not_mayFail_reliable _ hf.1

theorem InStep.ends_restart (h : d.InStep) {fresh : Registry} :
    Ends loadMembers (d.restart fresh).withoutFailures
      (fun n d' => n = d.registry.members.size ∧ d'.registry.members = d.registry.members)
      fun _ _ => False := by
  refine (ends_loadMembers_values (d := (d.restart fresh).withoutFailures) h.filed.members
    h.held).mono ?_ fun _ _ hf => Store.not_mayFail_reliable _ hf.1
  rintro n d' ⟨hn, hr, -⟩
  exact ⟨hn, by rw [hr]; rfl⟩

theorem inStep_initial {q : Quorum} (hd : Registry.Initial q d.registry)
    (hempty : d.store.rows.under Members.table = []) : d.InStep := by
  refine ⟨Registry.filed_initial hd, ?_⟩
  obtain ⟨heights, hr⟩ := hd.eq
  rw [Held, hr]
  exact Members.heldBy_nil hempty

/-- The store loads what the registry shows, and a registry that starts over shows the same, whatever
operations there were and wherever the store failed in adding and loading members. -/
theorem reload_run {q : Quorum} {d : Docking} (hd : Registry.Initial q d.registry)
    (hempty : d.store.rows.under Members.table = []) (calls : List DockingCall)
    (hcut : ∀ e ∈ (d.run calls).past, e.cutShort = false) :
    let after := (d.run calls).docking
    let shown := after.registry.orderedMembers
    shown = byOrderAndAddress after.registry.members.values ∧
      Members.load.outcome (.reliable after.store.rows) = .ok shown ∧
      ∀ fresh : Registry,
        let restarted := (after.restart fresh).withoutFailures
        loadMembers.outcome restarted = .ok shown.length ∧
          (loadMembers.final restarted).registry.members = after.registry.members ∧
          (loadMembers.final restarted).registry.orderedMembers = shown := by
  intro after shown
  have hstep : (∀ e ∈ (d.run calls).past, e.cutShort = false) → after.InStep := by
    refine run_keeps (p := fun run => (∀ e ∈ run.past, e.cutShort = false) → run.docking.InStep)
      (fun _ => inStep_initial hd hempty) fun run h call _ hcut => ?_
    exact (h fun e he => hcut e (List.mem_cons_of_mem _ he)).next call hcut
  have h := hstep hcut
  have hlength : shown.length = after.registry.members.size :=
    (Members.perm_byOrder _).length_eq.trans (List.length_map _)
  refine ⟨Members.byOrder_eq_byOrderAndAddress h.filed.members.ascending, ?_, fun fresh => ?_⟩
  · exact Ends.outcome (p := fun o _ => o = .ok shown)
      (h.ends_load.mono (fun _ _ hl => congrArg _ hl) fun _ _ hf => hf.elim)
  · rw [hlength]
    refine Ends.outcome (p := fun o d' => o = .ok _ ∧ d'.registry.members = after.registry.members ∧
      d'.registry.orderedMembers = shown) (h.ends_restart.mono ?_ fun _ _ hf => hf.elim)
    rintro n d' ⟨rfl, hmembers⟩
    exact ⟨rfl, hmembers, congrArg (fun ms : Table String QuorumMember => byOrder ms.values) hmembers⟩

/-- Two members of one order, the later one by sign address added first. -/
theorem reload_run_tied :
    let run := Sample.emptyDocking.run Sample.calls
    Registry.Initial ⟨[], 1, 67⟩ Sample.emptyDocking.registry ∧
      Sample.emptyDocking.store.rows.under Members.table = [] ∧
      (∀ e ∈ run.past, e.cutShort = false) ∧
      Members.load.outcome (.reliable run.docking.store.rows)
        = .ok [Sample.member "b" "02cc" false 1, Sample.member "c" "02cc" false 1] := by
  intro run
  have hcut : ∀ e ∈ run.past, e.cutShort = false := by decide +kernel
  have hvalues : run.docking.registry.members.values
      = [Sample.member "b" "02cc" false 1, Sample.member "c" "02cc" false 1] := by decide +kernel
  have h := reload_run (d := Sample.emptyDocking) .ofQuorum rfl Sample.calls hcut
  refine ⟨.ofQuorum, rfl, hcut, h.2.1.trans (congrArg _ ?_)⟩
  show byOrder run.docking.registry.members.values = _
  rw [hvalues]
  exact List.mergeSort_of_pairwise (by decide)

end Docking
end EvmBridge
