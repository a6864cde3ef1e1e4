import EvmBridge.Proofs.Docking.History
import EvmBridge.Proofs.Docking.Recovery

/-! # What holds of every registry

`Registry.Filed` is what each operation keeps: adapters and members stand under the keys that they
name themselves, versions are recorded for the same chains as adapters, and whether the local node is
a member is what the members say. With what the history says about the seats this gives
`Registry.Sound`, which holds after every run (`Docking.sound_run`).
-/

namespace EvmBridge
set_option autoImplicit false

/-! ## Members by their sign addresses -/

namespace Docking

theorem filedBy_bySignAddress (ms : List QuorumMember) :
    (bySignAddress ms).FiledBy QuorumMember.signAddress := by
  refine List.foldlRecOn
    (motive := fun t : Table String QuorumMember => t.FiledBy QuorumMember.signAddress) _ _
    Table.filedBy_empty fun t ht e he => ?_
  obtain ⟨m, -, rfl⟩ := List.mem_map.1 he
  exact ht.insert m

end Docking

/-! ## What each operation keeps -/

namespace Registry

/-- What an operation needs of a registry and leaves of it. -/
structure Filed (r : Registry) : Prop where
  adapters : r.adapters.FiledBy Adapter.chain
  versions : ∀ chain, r.versions.contains chain = r.adapters.contains chain
  members : r.members.FiledBy QuorumMember.signAddress
  localIsMember : r.localIsMember = r.localAddress.any r.members.contains

variable {r r' : Registry}

theorem Initial.eq {q : Quorum} (h : Initial q r) :
    ∃ heights, r = { Registry.ofQuorum q with activationHeights := heights } := by
  cases h with
  | ofQuorum => exact ⟨_, rfl⟩
  | @ofConfig c _ hq hr =>
    subst hq
    unfold Registry.ofConfig at hr
    cases hc : c.check with
    | error e =>
      rw [hc] at hr
      cases hr
    | ok =>
      rw [hc] at hr
      cases hr
      exact ⟨_, rfl⟩

theorem filed_initial {q : Quorum} (h : Initial q r) : r.Filed := by
  obtain ⟨heights, rfl⟩ := h.eq
  exact ⟨Table.filedBy_empty, fun _ => rfl, Table.filedBy_empty, rfl⟩

theorem Filed.withMembers (h : r.Filed) {ms : Table String QuorumMember}
    (hms : ms.FiledBy QuorumMember.signAddress) : (r.withMembers ms).Filed :=
  ⟨h.adapters, h.versions, hms, rfl⟩

theorem map_signAddress_numberFrom (n : Nat) (ms : List QuorumMember) :
    (numberFrom n ms).map (·.signAddress) = ms.map (·.signAddress) := by
  induction ms generalizing n with
  | nil => rfl
  | cons m ms ih => simp only [numberFrom, List.map_cons, ih]

theorem map_signAddress_remaining (r : Registry) :
    r.remaining.map (·.signAddress) = r.staying.map (·.signAddress) :=
  map_signAddress_numberFrom 1 r.staying

theorem mem_members_iff (r : Registry) {m : QuorumMember} :
    m ∈ r.members.values ↔ m ∈ r.leaving ∨ m ∈ r.staying := by
  rw [← r.perm_leaving_staying.mem_iff, List.mem_append]

theorem Filed.nodup_leaving_staying (h : r.Filed) :
    ((r.leaving ++ r.staying).map (·.signAddress)).Nodup :=
  (r.perm_leaving_staying.map _).nodup_iff.2 h.members.nodup

theorem Filed.nodup_staying (h : r.Filed) : (r.staying.map (·.signAddress)).Nodup :=
  h.nodup_leaving_staying.sublist ((List.sublist_append_right _ _).map _)

theorem Filed.nodup_remaining (h : r.Filed) : (r.remaining.map (·.signAddress)).Nodup := by
  rw [map_signAddress_remaining]
  exact h.nodup_staying

/-- A member stays exactly if its sign address is none of those who leave. -/
theorem Filed.contains_remaining (h : r.Filed) (x : String) :
    (Docking.bySignAddress r.remaining).contains x
      = (r.members.contains x && !r.leaving.any fun m => m.signAddress = x) := by
  have hstays : (Docking.bySignAddress r.remaining).contains x = true ↔
      x ∈ r.staying.map (·.signAddress) := by
    rw [← map_signAddress_remaining, List.mem_map, Table.contains, Option.isSome_iff_exists]
    exact exists_congr fun m => Docking.get?_bySignAddress h.nodup_remaining
  rw [Bool.eq_iff_iff, hstays, Bool.and_eq_true, h.members.contains_iff, List.mem_map]
  simp only [Bool.not_eq_true', List.any_eq_false, decide_eq_true_eq]
  constructor
  · rintro ⟨m, hm, rfl⟩
    refine ⟨⟨m, r.mem_members_iff.2 (.inr hm), rfl⟩, fun m' hm' hx => ?_⟩
    -- Two members of one sign address are one member, and nobody both leaves and stays.
    have hget := h.members.mem_values_iff.1 (r.mem_members_iff.2 (.inr hm))
    have hget' := h.members.mem_values_iff.1 (r.mem_members_iff.2 (.inl hm'))
    rw [hx, hget] at hget'
    have hloses := losesSeat_of_mem_leaving hm'
    rw [← Option.some.inj hget', losesSeat_of_mem_staying hm] at hloses
    cases hloses
  · rintro ⟨⟨m, hm, hx⟩, hnone⟩
    exact ⟨m, (r.mem_members_iff.1 hm).resolve_left fun hl => hnone m hl hx, hx⟩

theorem Filed.afterSwitch (h : r.Filed) (a : Adapter) (version : UInt32) :
    (r.afterSwitch a.chain a version).Filed where
  adapters := h.adapters.insert a
  versions chain := by
    show (r.versions.insert _ _).contains chain = (r.adapters.insert _ _).contains chain
    rw [Table.contains_insert, Table.contains_insert, h.versions]
  members := Docking.filedBy_bySignAddress _
  localIsMember := by
    show (r.localIsMember && !r.localLeaves) = r.localAddress.any
      (Docking.bySignAddress r.remaining).contains
    rw [h.localIsMember, localLeaves]
    cases r.localAddress with
    | none => rfl
    | some x => exact (h.contains_remaining x).symm

theorem Filed.signing (h : r.Filed) {chain : ChainId} {identity : Option SigningIdentity}
    {registered : Bool} (hs : r.Signing chain identity (.ok (registered, r'))) : r'.Filed := by
  cases hs with
  | again | early | refused => exact h
  | latched => exact ⟨h.adapters, h.versions, h.members, h.localIsMember⟩
  | @imported a i _ ha =>
    -- The adapter stays that of its chain, which had a version all along.
    obtain rfl := h.adapters _ _ ha
    refine ⟨h.adapters.insert { a with identity := some i }, fun chain' => ?_, h.members,
      h.localIsMember⟩
    rw [Table.contains_insert, h.versions]
    by_cases hc : a.chain = chain'
    · subst hc
      simp [Table.contains, ha]
    · simp [hc]

/-- Every operation keeps what is filed. -/
theorem Filed.step (h : r.Filed) {op : DockingOp} {o : Except BridgeError DockingAnswer}
    (hs : r.Step op o r') : r'.Filed := by
  cases hs with
  | failed | unsigned => exact h
  | register a =>
    refine ⟨h.adapters.insert a, fun chain => ?_, h.members, h.localIsMember⟩
    show (r.versions.insert _ _).contains chain = (r.adapters.insert _ _).contains chain
    rw [Table.contains_insert, Table.contains_insert, h.versions]
  | addMember m => exact h.withMembers (h.members.insert m)
  | loadMembers ms => exact h.withMembers (Docking.filedBy_bySignAddress ms)
  | setLocal address => exact ⟨h.adapters, h.versions, h.members, rfl⟩
  | setQuorum | setActivation | observe =>
    exact ⟨h.adapters, h.versions, h.members, h.localIsMember⟩
  | switchVersion hc version => exact hc ▸ h.afterSwitch _ version
  | ensureSigning hs => exact h.signing hs

/-! ## Members that can be stored -/

theorem fits_remaining (h : ∀ m ∈ r.members.values, m.Fits) : ∀ m ∈ r.remaining, m.Fits := by
  intro m hm
  obtain ⟨m', hm', order, rfl⟩ := exists_of_mem_numberFrom hm
  have hfits := h m' (r.mem_members_iff.2 (.inr hm'))
  exact ⟨hfits.signAddress, hfits.signingPublicKey⟩

/-- Members are added in memory or loaded from rows, so that each of them can be stored. -/
theorem fits_step (h : ∀ m ∈ r.members.values, m.Fits) {op : DockingOp}
    {o : Except BridgeError DockingAnswer} (hs : r.Step op o r') :
    ∀ m ∈ r'.members.values, m.Fits := by
  cases hs with
  | failed | unsigned | register | setLocal | setQuorum | setActivation | observe => exact h
  | addMember added fits =>
    intro m hm
    rcases Table.mem_values_insert hm with rfl | hm
    · exact fits
    · exact h m hm
  | loadMembers ms fits => exact fun m hm => fits m (Docking.mem_of_mem_bySignAddress hm)
  | switchVersion hc version =>
    exact fun m hm => fits_remaining h m (Docking.mem_of_mem_bySignAddress hm)
  | ensureSigning hs => cases hs <;> exact h

/-! ## Chains that are active -/

theorem Filed.ascending_allActive (h : r.Filed) (height : UInt64) :
    ((r.allActive height).map Adapter.chain).Pairwise (· < ·) := by
  refine (h.adapters.filter _).ascending.imp fun hab => ?_
  rw [UInt16.lt_iff_toNat_lt]
  exact of_decide_eq_true hab

theorem Filed.mem_allActive_iff (h : r.Filed) {height : UInt64} {a : Adapter} :
    a ∈ r.allActive height ↔ r.adapters.get? a.chain = some a ∧
      ∀ gate, r.activationHeights.get? a.chain = some gate → gate ≤ height := by
  rw [allActive, (h.adapters.filter _).mem_values_iff, Table.get?_filter,
    Option.filter_eq_some_iff, isActiveAt, Option.all_eq_true]
  simp only [decide_eq_true_eq]

/-! ## Seats -/

theorem seats_add (q : Quorum) :
    q.seedCount + q.nonSeedCount = max q.totalSeats q.seedKeys.length := by
  simp only [Quorum.nonSeedCount, Quorum.seedCount]
  omega

/-- The quorum parameters in force, and those by which the seats were counted. -/
structure Seats (r : Registry) (q : Quorum) (past : List DockingEvent) : Prop where
  quorum : r.quorum = DockingEvent.inForce q past
  seedCount : r.seedCount = (DockingEvent.seated q past).seedCount
  nonSeedCount : r.nonSeedCount = (DockingEvent.seated q past).nonSeedCount

theorem Seats.step {q : Quorum} {past : List DockingEvent} (h : r.Seats q past) {op : DockingOp}
    {o : Except BridgeError DockingAnswer} (hs : r.Step op o r') :
    r'.Seats q (⟨op, o⟩ :: past) := by
  cases hs with
  | failed hf e =>
    have hunset := (DockingEvent.unset_of_usesStore hf (.error e) past).1 q
    exact ⟨h.quorum.trans hunset.symm, h.seedCount, h.nonSeedCount⟩
  | setQuorum q' => exact ⟨rfl, h.seedCount, h.nonSeedCount⟩
  | switchVersion hc version =>
    exact ⟨h.quorum, congrArg Quorum.seedCount h.quorum, congrArg Quorum.nonSeedCount h.quorum⟩
  | ensureSigning hs =>
    cases hs <;> exact ⟨h.quorum, h.seedCount, h.nonSeedCount⟩
  | register | addMember | loadMembers | setLocal | setActivation | observe | unsigned =>
    exact ⟨h.quorum, h.seedCount, h.nonSeedCount⟩

/-! ## After every run -/

/-- What a registry shows, for the quorum parameters by which its seats were counted. -/
structure Sound (r : Registry) (seated : Quorum) : Prop where
  versions : ∀ chain, (∃ v, r.version chain = .ok v) ↔ ∃ a, r.adapter chain = .ok a
  adapters : ∀ chain a, r.adapter chain = .ok a → a.chain = chain
  members : ∀ x m, r.members.get? x = some m → m.signAddress = x
  localIsMember : r.localIsMember = true ↔
    ∃ x, r.localAddress = some x ∧ ∃ m ∈ r.orderedMembers, m.signAddress = x
  seedCount : r.seedCount = seated.seedKeys.length
  nonSeedCount : r.nonSeedCount = seated.totalSeats - seated.seedKeys.length
  seats : r.seedCount + r.nonSeedCount = max seated.totalSeats seated.seedKeys.length
  ascending : ∀ height, ((r.allActive height).map Adapter.chain).Pairwise (· < ·)
  active : ∀ height a, a ∈ r.allActive height ↔ r.adapter a.chain = .ok a ∧
    ∀ gate, r.activationHeights.get? a.chain = some gate → gate ≤ height

theorem adapter_eq_ok_iff {chain : ChainId} {a : Adapter} :
    r.adapter chain = .ok a ↔ r.adapters.get? chain = some a := by
  unfold adapter
  cases r.adapters.get? chain <;> simp

theorem version_eq_ok_iff {chain : ChainId} {v : UInt32} :
    r.version chain = .ok v ↔ r.versions.get? chain = some v := by
  unfold version
  cases r.versions.get? chain <;> simp

theorem Filed.sound (h : r.Filed) {q : Quorum} {past : List DockingEvent} (hq : r.Seats q past) :
    r.Sound (DockingEvent.seated q past) where
  versions chain := by
    simp only [version_eq_ok_iff, adapter_eq_ok_iff, ← Option.isSome_iff_exists]
    exact Bool.eq_iff_iff.1 (h.versions chain)
  adapters chain a ha := h.adapters chain a (adapter_eq_ok_iff.1 ha)
  members := h.members
  localIsMember := by
    have hmem : ∀ m, m ∈ r.orderedMembers ↔ m ∈ r.members.values := fun m =>
      (Members.perm_byOrder _).mem_iff
    simp only [h.localIsMember, Option.any_eq_true, h.members.contains_iff, hmem]
  seedCount := hq.seedCount
  nonSeedCount := hq.nonSeedCount
  seats := by rw [hq.seedCount, hq.nonSeedCount, seats_add]
  ascending := h.ascending_allActive
  active height a := by rw [h.mem_allActive_iff, adapter_eq_ok_iff]

end Registry

namespace Docking
open Registry

/-- Every registry is sound, whatever operations it got and wherever the store failed. -/
theorem sound_run {q : Quorum} {d : Docking} (hd : Initial q d.registry)
    (calls : List DockingCall) :
    (d.run calls).docking.registry.Sound (DockingEvent.seated q (d.run calls).past) := by
  have hkept : (d.run calls).docking.registry.Filed ∧
      (d.run calls).docking.registry.Seats q (d.run calls).past := by
    refine run_keeps (p := fun run => run.docking.registry.Filed ∧
      run.docking.registry.Seats q run.past) ⟨filed_initial hd, ?_⟩ fun run h call _ => ?_
    · obtain ⟨heights, hr⟩ := hd.eq
      rw [hr]
      exact ⟨rfl, rfl, rfl⟩
    · exact ⟨h.1.step (step_next run call), h.2.step (step_next run call)⟩
  exact hkept.1.sound hkept.2

/-- The seats are those of the parameters that were in force at the switch, not of those set since. -/
theorem sound_run_switched :
    let run := Sample.emptyDocking.run Sample.calls
    Registry.Initial ⟨[], 1, 67⟩ Sample.emptyDocking.registry ∧
      run.docking.registry.Sound ⟨["02AA"], 3, 67⟩ ∧
      run.docking.registry.quorum = ⟨[], 9, 67⟩ ∧ run.docking.registry.localIsMember = false := by
  intro run
  have hseated : DockingEvent.seated ⟨[], 1, 67⟩ run.past = ⟨["02AA"], 3, 67⟩ := by decide +kernel
  have h := sound_run (d := Sample.emptyDocking) .ofQuorum Sample.calls
  exact ⟨.ofQuorum, hseated ▸ h, by decide +kernel, by decide +kernel⟩

end Docking
end EvmBridge
