import EvmBridge.Proofs.Docking.Invariant

/-! # The effect of a version switch

All that a version switch does to the registry and to the stored rows, and all that it leaves alone,
as one list of facts (`Docking.SwitchEffect`), which holds of every switch that the store lets through
(`Docking.switchVersion_effect`). Orders may be zero or shared before the switch: members of the same
order stand by their sign addresses, and are numbered as they stand.
-/

namespace EvmBridge
set_option autoImplicit false
open EvmBridge.Action
open Members (key storing removal byOrderAndAddress)

/-- A member apart from the order. -/
def QuorumMember.unnumbered (m : QuorumMember) : QuorumMember := { m with order := 0 }

/-! ## Stored members -/

theorem Members.key_mem_changes {ms : List QuorumMember} {x : String} {f : QuorumMember → RowChange}
    (hf : ∀ m, (f m).key = key m.signAddress) :
    key x ∈ (ms.map f).map RowChange.key ↔ x ∈ ms.map (·.signAddress) := by
  simp only [List.mem_map, exists_exists_and_eq_and, hf]
  exact exists_congr fun m => and_congr_right fun _ => ⟨key_injective, congrArg key⟩

theorem Members.get?_apply_storing {rows : Rows} {ms : List QuorumMember}
    (h : (ms.map (·.signAddress)).Nodup) {m : QuorumMember} (hm : m ∈ ms) :
    (rows.apply (ms.map storing)).get? (key m.signAddress) = some (Codec.member.write m) := by
  induction ms generalizing rows with
  | nil => cases hm
  | cons m' ms ih =>
    obtain ⟨hm', hnodup⟩ := List.nodup_cons.1 h
    rcases List.mem_cons.1 hm with rfl | hm
    · -- No later change is about this member's row.
      have hlast : key m.signAddress ∉ (ms.map storing).map RowChange.key := by
        rwa [key_mem_changes fun _ => rfl]
      exact (Rows.get?_apply_of_not_mem _ hlast).trans ((Rows.get?_change ..).trans (if_pos rfl))
    · exact ih hnodup hm

namespace Docking

theorem get?_bySignAddress_map {ms : List QuorumMember} (h : (ms.map (·.signAddress)).Nodup)
    {f : QuorumMember → QuorumMember} (hf : ∀ m, (f m).signAddress = m.signAddress) (x : String) :
    (bySignAddress (ms.map f)).get? x = ((bySignAddress ms).get? x).map f := by
  have h' : ((ms.map f).map (·.signAddress)).Nodup := by
    rw [List.map_map]
    simpa only [Function.comp_def, hf] using h
  refine Option.ext fun m => ?_
  rw [get?_bySignAddress h', List.mem_map, Option.map_eq_some_iff]
  constructor
  · rintro ⟨⟨m', hm', rfl⟩, rfl⟩
    exact ⟨m', (get?_bySignAddress h).2 ⟨hm', (hf m').symm⟩, rfl⟩
  · rintro ⟨m', hm', rfl⟩
    obtain ⟨hmem, rfl⟩ := (get?_bySignAddress h).1 hm'
    exact ⟨⟨m', hmem, rfl⟩, hf m'⟩

end Docking

/-! ## The members after a switch -/

namespace Registry
open Docking

theorem map_unnumbered_numberFrom (n : Nat) (ms : List QuorumMember) :
    (numberFrom n ms).map QuorumMember.unnumbered = ms.map QuorumMember.unnumbered := by
  induction ms generalizing n with
  | nil => rfl
  | cons m ms ih =>
    rw [numberFrom, List.map_cons, List.map_cons, ih]
    rfl

variable {r : Registry}

theorem mem_leaving_iff {m : QuorumMember} :
    m ∈ r.leaving ↔ m ∈ r.members.values ∧ r.losesSeat m = true := by
  rw [leaving, List.mem_filter, orderedMembers, (Members.perm_byOrder _).mem_iff]

theorem mem_staying_iff {m : QuorumMember} :
    m ∈ r.staying ↔ m ∈ r.members.values ∧ r.losesSeat m = false := by
  rw [staying, List.mem_filter, orderedMembers, (Members.perm_byOrder _).mem_iff,
    Bool.not_eq_true']

theorem Filed.get?_staying (h : r.Filed) (x : String) :
    (bySignAddress r.staying).get? x = (r.members.get? x).filter fun m => m ∉ r.leaving := by
  refine Option.ext fun m => ?_
  rw [get?_bySignAddress h.nodup_staying, mem_staying_iff, h.members.mem_values_iff,
    Option.filter_eq_some_iff, decide_eq_true_eq, mem_leaving_iff, h.members.mem_values_iff]
  constructor
  · rintro ⟨⟨hm, hstays⟩, rfl⟩
    exact ⟨hm, fun hleaves => by simp [hstays] at hleaves⟩
  · rintro ⟨hm, hstays⟩
    obtain rfl := h.members x m hm
    exact ⟨⟨hm, Bool.eq_false_iff.2 fun hl => hstays ⟨hm, hl⟩⟩, rfl⟩

/-- Apart from the order, whoever does not leave is a member as before. -/
theorem Filed.get?_remaining (h : r.Filed) (x : String) :
    ((bySignAddress r.remaining).get? x).map QuorumMember.unnumbered
      = ((r.members.get? x).filter fun m => m ∉ r.leaving).map QuorumMember.unnumbered := by
  have hkeeps : ∀ m : QuorumMember, m.unnumbered.signAddress = m.signAddress := fun _ => rfl
  rw [← get?_bySignAddress_map h.nodup_remaining hkeeps, remaining, map_unnumbered_numberFrom,
    ← h.get?_staying, ← get?_bySignAddress_map h.nodup_staying hkeeps]
  rfl

theorem Filed.orderedMembers_eq (h : r.Filed) :
    r.orderedMembers = byOrderAndAddress r.members.values :=
  Members.byOrder_eq_byOrderAndAddress h.members.ascending

theorem Filed.staying_eq (h : r.Filed) :
    r.staying = (byOrderAndAddress r.members.values).filter fun m => m ∉ r.leaving := by
  rw [staying, ← h.orderedMembers_eq]
  refine List.filter_congr fun m hm => ?_
  rw [Bool.eq_iff_iff, decide_eq_true_eq, leaving, List.mem_filter, Bool.not_eq_true']
  exact ⟨fun hl hm' => by simp [hl] at hm', fun hm' => Bool.eq_false_iff.2 fun hl => hm' ⟨hm, hl⟩⟩

/-- Those who stay stand in the order in which they were numbered, if there are numbers for all. -/
theorem Filed.orderedMembers_remaining (h : r.Filed) (hsize : r.staying.length < UInt32.size) :
    Members.byOrder (bySignAddress r.remaining).values
      = r.staying.mapIdx fun i m => { m with order := UInt32.ofNat (i + 1) } := by
  have hnumbers : 1 + r.staying.length ≤ UInt32.size := by omega
  have hremaining : r.remaining = numberFrom 1 r.staying := rfl
  have hranked : Members.Ranked r.remaining := (ranked_numberFrom hnumbers).1
  rw [Members.byOrder_eq hranked (perm_values_bySignAddress h.nodup_remaining), hremaining,
    numberFrom_eq_mapIdx hnumbers]
  simp only [Nat.add_comm 1]

end Registry

namespace Docking

/-- What a switch of a chain to an adapter and version is to do to a registry and its store, for the
answer `o` and the registry and store `d'` afterwards. -/
structure SwitchEffect (d : Docking) (chain : ChainId) (a : Adapter) (version : UInt32)
    (o : SwitchOutcome) (d' : Docking) : Prop where
  /-- The seed members without a configured key leave, and nobody else. -/
  removed : o.removed = (byOrderAndAddress d.registry.members.values).filter fun m =>
    m.isSeed && !d.registry.quorum.seedKeys.any (Quorum.sameKey · m.signingPublicKey)
  /-- The others are members as before, apart from the order. -/
  members : ∀ x, (d'.registry.members.get? x).map QuorumMember.unnumbered
    = ((d.registry.members.get? x).filter fun m => m ∉ o.removed).map QuorumMember.unnumbered
  ordered :
    let staying := (byOrderAndAddress d.registry.members.values).filter fun m => m ∉ o.removed
    staying.length < UInt32.size → d'.registry.orderedMembers
      = staying.mapIdx fun i m => { m with order := UInt32.ofNat (i + 1) }
  localRemoved : o.localRemoved = true ↔
    ∃ x, d.registry.localAddress = some x ∧ ∃ m ∈ o.removed, m.signAddress = x
  localIsMember : d'.registry.localIsMember = (d.registry.localIsMember && !o.localRemoved)
  adapter : d'.registry.adapters.get? chain = some a
  version : o.version = version ∧ d'.registry.versions.get? chain = some version
  otherChains : ∀ chain', chain' ≠ chain →
    d'.registry.adapters.get? chain' = d.registry.adapters.get? chain' ∧
      d'.registry.versions.get? chain' = d.registry.versions.get? chain'
  activationHeights : d'.registry.activationHeights = d.registry.activationHeights
  quorum : d'.registry.quorum = d.registry.quorum
  localAddress : d'.registry.localAddress = d.registry.localAddress
  networkHeight : d'.registry.networkHeight = d.registry.networkHeight
  latched : d'.registry.latched = d.registry.latched
  seedCount : o.seedCount = d.registry.quorum.seedKeys.length ∧
    d'.registry.seedCount = d.registry.quorum.seedKeys.length
  nonSeedCount :
    let others := d.registry.quorum.totalSeats - d.registry.quorum.seedKeys.length
    o.nonSeedCount = others ∧ d'.registry.nonSeedCount = others
  stored : ∀ m ∈ d'.registry.members.values,
    d'.store.rows.get? (key m.signAddress) = some (Codec.member.write m) ∧
      Codec.member.decode (Codec.member.write m) = .ok m
  deleted : ∀ m ∈ o.removed, d'.store.rows.get? (key m.signAddress) = none
  otherRows : ∀ k, (∀ m ∈ d.registry.members.values, k ≠ key m.signAddress) →
    d'.store.rows.get? k = d.store.rows.get? k

variable {d d' : Docking} {chain : ChainId} {a : Adapter} {version : UInt32}

/-! ## The rows after a switch -/

section Rows
variable (hs : d.Switched chain a version d')
include hs

theorem Switched.get?_remaining (h : d.registry.Filed) {m : QuorumMember}
    (hm : m ∈ d.registry.remaining) :
    d'.store.rows.get? (key m.signAddress) = some (Codec.member.write m) := by
  rw [hs.rows, Registry.switchChanges, Rows.apply_append]
  exact Members.get?_apply_storing h.nodup_remaining hm

theorem Switched.get?_leaving (h : d.registry.Filed) {m : QuorumMember}
    (hm : m ∈ d.registry.leaving) : d'.store.rows.get? (key m.signAddress) = none := by
  have hapart := h.nodup_leaving_staying
  rw [List.map_append, List.nodup_append, ← Registry.map_signAddress_remaining] at hapart
  -- The storings that follow the removals are about other members.
  have hnot : key m.signAddress ∉ (d.registry.remaining.map storing).map RowChange.key := by
    rw [Members.key_mem_changes fun _ => rfl]
    exact fun hm' => hapart.2.2 _ (List.mem_map_of_mem hm) _ hm' rfl
  have hremovals : d.registry.leaving.map removal
      = (d.registry.leaving.map fun m => key m.signAddress).map .delete := by
    rw [List.map_map]
    rfl
  rw [hs.rows, Registry.switchChanges, Rows.apply_append, Rows.get?_apply_of_not_mem _ hnot,
    hremovals, Rows.get?_apply_delete, if_pos (List.mem_map_of_mem hm)]

theorem Switched.get?_of_no_member {k : Bytes}
    (hk : ∀ m ∈ d.registry.members.values, k ≠ key m.signAddress) :
    d'.store.rows.get? k = d.store.rows.get? k := by
  rw [hs.rows]
  refine Rows.get?_apply_of_not_mem _ fun hmem => ?_
  rw [Registry.switchChanges, List.map_append, List.mem_append, List.map_map, List.map_map,
    List.mem_map, List.mem_map] at hmem
  rcases hmem with ⟨m, hm, rfl⟩ | ⟨m, hm, rfl⟩
  · exact hk m (d.registry.mem_members_iff.2 (.inl hm)) rfl
  · obtain ⟨m', hm', order, rfl⟩ := Registry.exists_of_mem_numberFrom hm
    exact hk m' (d.registry.mem_members_iff.2 (.inr hm')) rfl

end Rows

/-! ## The whole effect -/

theorem Switched.effect (hs : d.Switched chain a version d') (h : d.registry.Filed)
    (hfits : ∀ m ∈ d.registry.members.values, m.Fits) :
    d.SwitchEffect chain a version (d.registry.switchOutcome version) d' := by
  obtain ⟨hregistry, hrows⟩ := id hs
  constructor
  case removed =>
    rw [← h.orderedMembers_eq]
    rfl
  case members =>
    intro x
    rw [hregistry]
    exact h.get?_remaining x
  case ordered =>
    intro staying hsize
    have hstaying : staying = d.registry.staying := h.staying_eq.symm
    rw [hstaying] at hsize ⊢
    rw [hregistry]
    exact h.orderedMembers_remaining hsize
  case localRemoved =>
    simp only [Registry.switchOutcome, Registry.localLeaves, Option.any_eq_true, List.any_eq_true,
      decide_eq_true_eq]
  case otherChains =>
    intro chain' hne
    rw [hregistry]
    exact ⟨(Table.get?_insert ..).trans (if_neg hne.symm),
      (Table.get?_insert ..).trans (if_neg hne.symm)⟩
  case adapter =>
    rw [hregistry]
    exact (Table.get?_insert ..).trans (if_pos rfl)
  case version =>
    rw [hregistry]
    exact ⟨rfl, (Table.get?_insert ..).trans (if_pos rfl)⟩
  case stored =>
    intro m hm
    rw [hregistry] at hm
    have hremains := mem_of_mem_bySignAddress hm
    exact ⟨hs.get?_remaining h hremains,
      Codec.decode_member (Registry.fits_remaining hfits m hremains)⟩
  case deleted => exact fun m hm => hs.get?_leaving h hm
  case otherRows => exact fun k hk => hs.get?_of_no_member hk
  case seedCount | nonSeedCount =>
    rw [hregistry]
    exact ⟨rfl, rfl⟩
  case localIsMember | activationHeights | quorum | localAddress | networkHeight | latched =>
    rw [hregistry]
    rfl

theorem filed_run {q : Quorum} {d : Docking} (hd : Registry.Initial q d.registry)
    (calls : List DockingCall) : (d.run calls).docking.registry.Filed :=
  run_keeps (p := fun run => run.docking.registry.Filed) (Registry.filed_initial hd)
    fun run h call _ => h.step (step_next run call)

theorem fits_run {q : Quorum} {d : Docking} (hd : Registry.Initial q d.registry)
    (calls : List DockingCall) : ∀ m ∈ (d.run calls).docking.registry.members.values, m.Fits := by
  refine run_keeps (p := fun run => ∀ m ∈ run.docking.registry.members.values, m.Fits) ?_
    fun run h call _ => Registry.fits_step h (step_next run call)
  obtain ⟨heights, hr⟩ := hd.eq
  rw [hr]
  exact fun _ h => nomatch h

/-- A switch to an adapter of another chain is refused before it does anything. -/
theorem switchVersion_of_ne (hc : a.chain ≠ chain) (version : UInt32) (d : Docking) :
    switchVersion chain a version d = .error (.config ("adapter for chain " ++
      toString a.chain.toNat ++ " registered under " ++ toString chain.toNat)) d := by
  unfold switchVersion
  rw [if_pos hc]
  rfl

/-- In every state of a registry a version switch has its effect, unless the adapter is one of another
chain: then nothing changes. -/
theorem switchVersion_effect {q : Quorum} {d : Docking} (hd : Registry.Initial q d.registry)
    (calls : List DockingCall) (chain : ChainId) (a : Adapter) (version : UInt32) :
    let before := (d.run calls).docking
    let switch := switchVersion chain a version
    (a.chain = chain → ∃ o, switch.outcome before.withoutFailures = .ok o ∧
      before.SwitchEffect chain a version o (switch.final before.withoutFailures)) ∧
    (a.chain ≠ chain → ∀ plan,
      switch.outcome (before.withPlan plan) = .error (.config ("adapter for chain " ++
        toString a.chain.toNat ++ " registered under " ++ toString chain.toNat)) ∧
      switch.final (before.withPlan plan) = before.withPlan plan) := by
  intro before switch
  refine ⟨fun hc => ?_, fun hc plan => ?_⟩
  · obtain ⟨ho, hs⟩ := switchVersion_withoutFailures hc version before
    exact ⟨_, ho, hs.effect (filed_run hd calls) (fits_run hd calls)⟩
  · have hrefused := switchVersion_of_ne hc version (before.withPlan plan)
    simp only [switch, Action.outcome, Action.final, EStateM.run, hrefused, and_self]

/-- Three members of one order, of whom the local one has a seed seat without a configured key. -/
def tiedCalls : List DockingCall :=
  [⟨.addMember (Sample.member "c" "02cc" false 2) ⟨by decide, by decide⟩, .never⟩,
    ⟨.addMember (Sample.member "a" "02bb" true 2) ⟨by decide, by decide⟩, .never⟩,
    ⟨.addMember (Sample.member "b" "02aa" true 2) ⟨by decide, by decide⟩, .never⟩,
    ⟨.setLocal (some "a"), .never⟩, ⟨.setQuorum ⟨["02AA"], 3, 67⟩, .never⟩]

theorem switchVersion_effect_tied :
    let before := (Sample.emptyDocking.run tiedCalls).docking
    let switch := switchVersion 103 (Sample.adapter 103 2) 2
    let after := switch.final before.withoutFailures
    Registry.Initial ⟨[], 1, 67⟩ Sample.emptyDocking.registry ∧
      ∃ o, switch.outcome before.withoutFailures = .ok o ∧
        before.SwitchEffect 103 (Sample.adapter 103 2) 2 o after ∧
        o.removed = [Sample.member "a" "02bb" true 2] ∧ o.localRemoved = true ∧
        after.registry.orderedMembers = [{ Sample.member "b" "02aa" true 2 with order := 1 },
          Sample.member "c" "02cc" false 2] := by
  intro before switch after
  obtain ⟨o, ho, heffect⟩ := (switchVersion_effect (d := Sample.emptyDocking) .ofQuorum tiedCalls 103
    (Sample.adapter 103 2) 2).1 rfl
  have hordered : byOrderAndAddress before.registry.members.values
      = [Sample.member "a" "02bb" true 2, Sample.member "b" "02aa" true 2,
        Sample.member "c" "02cc" false 2] := by
    have hvalues : before.registry.members.values
        = [Sample.member "a" "02bb" true 2, Sample.member "b" "02aa" true 2,
          Sample.member "c" "02cc" false 2] := by decide +kernel
    rw [hvalues]
    exact List.mergeSort_of_pairwise (by decide)
  have hquorum : before.registry.quorum = ⟨["02AA"], 3, 67⟩ := by decide +kernel
  have hremoved : o.removed = [Sample.member "a" "02bb" true 2] := by
    rw [heffect.removed, hordered, hquorum]
    decide
  refine ⟨.ofQuorum, o, ho, heffect, hremoved, heffect.localRemoved.2 ?_, ?_⟩
  · exact ⟨"a", by decide +kernel, _, by rw [hremoved]; exact List.mem_singleton_self _, rfl⟩
  · have hafter := heffect.ordered
    rw [hordered, hremoved] at hafter
    exact hafter (by decide)

end Docking
end EvmBridge
