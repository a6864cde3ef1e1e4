import EvmBridge.Proofs.Docking.Switch

/-! # Recovery of an interrupted version switch

A version switch may be cut short after any of its row changes, and the process may be restarted: a
new registry loads the members that the store holds by then and makes the same switch. Whatever first
part of the changes was made, the held members still stand in quorum order, some of those who leave
gone or some of those who stay renumbered (`Registry.Remnant`), and the switch of such members comes
to what the switch at once would have come to (`Docking.recover_interrupted`).
-/

namespace EvmBridge
set_option autoImplicit false
open EvmBridge.Action
open Members (Ranked HeldBy storing removal byOrder)

namespace Registry

/-! ## Parts of numbered members -/

theorem exists_of_mem_numberFrom {n : Nat} {ms : List QuorumMember} {m : QuorumMember}
    (h : m ∈ numberFrom n ms) : ∃ m' ∈ ms, ∃ order, m = { m' with order := order } := by
  induction ms generalizing n with
  | nil => cases h
  | cons m' ms ih =>
    rcases List.mem_cons.1 h with rfl | h
    · exact ⟨m', List.mem_cons_self .., _, rfl⟩
    · obtain ⟨m'', hm, order, rfl⟩ := ih h
      exact ⟨m'', List.mem_cons_of_mem _ hm, order, rfl⟩

/-- A first part of numbered members is a first part of the members, numbered. -/
theorem exists_of_numberFrom_eq_append {n : Nat} {ms saved left : List QuorumMember}
    (h : numberFrom n ms = saved ++ left) :
    ∃ before after, ms = before ++ after ∧ saved = numberFrom n before := by
  induction saved generalizing n ms with
  | nil => exact ⟨[], ms, rfl, rfl⟩
  | cons m saved ih =>
    cases ms with
    | nil => cases h
    | cons m' ms =>
      rw [numberFrom, List.cons_append] at h
      obtain ⟨rfl, htail⟩ := List.cons.inj h
      obtain ⟨before, after, rfl, rfl⟩ := ih htail
      exact ⟨m' :: before, after, rfl, rfl⟩

/-! ## What an interrupted switch leaves -/

variable {r : Registry} {rows : Rows}

/-- The members who stay with the next switch, as they are. -/
def staying (r : Registry) : List QuorumMember := r.orderedMembers.filter fun m => !r.losesSeat m

/-- Whether a store in which a part of a switch was made holds members from which the same switch
comes to the same end. -/
structure Remnant (r : Registry) (rows : Rows) (done : List RowChange) (ms : List QuorumMember) :
    Prop where
  held : HeldBy ms (rows.apply done)
  ranked : Ranked ms
  remaining : numberFrom 1 (ms.filter fun m => !r.losesSeat m) = r.remaining
  rows : (rows.apply done).apply ((ms.filter r.losesSeat).map removal ++ r.remaining.map storing)
    = rows.apply r.switchChanges

theorem losesSeat_of_mem_leaving {m : QuorumMember} (h : m ∈ r.leaving) : r.losesSeat m = true :=
  (List.mem_filter.1 h).2

theorem losesSeat_of_mem_staying {m : QuorumMember} (h : m ∈ r.staying) : r.losesSeat m = false := by
  simpa using (List.mem_filter.1 h).2

theorem perm_leaving_staying (r : Registry) : (r.leaving ++ r.staying).Perm r.members.values :=
  (List.filter_append_perm r.losesSeat r.orderedMembers).trans (Members.perm_byOrder _)

theorem filter_losesSeat {out stay : List QuorumMember} (hout : ∀ m ∈ out, r.losesSeat m = true)
    (hstay : ∀ m ∈ stay, r.losesSeat m = false) : (out ++ stay).filter r.losesSeat = out := by
  rw [List.filter_append, List.filter_eq_self.2 hout, List.filter_eq_nil_iff.2 (by simpa using hstay),
    List.append_nil]

theorem filter_not_losesSeat {out stay : List QuorumMember}
    (hout : ∀ m ∈ out, r.losesSeat m = true) (hstay : ∀ m ∈ stay, r.losesSeat m = false) :
    (out ++ stay).filter (fun m => !r.losesSeat m) = stay := by
  rw [List.filter_append, List.filter_eq_nil_iff.2 (by simpa using hout),
    List.filter_eq_self.2 (by simpa using hstay), List.nil_append]

/-- Some of the leaving members are gone. -/
theorem remnant_of_removals (hheld : HeldBy r.members.values rows)
    (horders : (r.members.values.map (·.order)).Nodup) {out rest : List QuorumMember}
    (hout : r.leaving = out ++ rest) :
    r.Remnant rows (out.map removal) (byOrder (rest ++ r.staying)) := by
  have hperm := r.perm_leaving_staying
  rw [hout, List.append_assoc] at hperm
  have hranked : Ranked r.orderedMembers := Members.ranked_byOrder horders
  have hrest : Ranked rest := by
    have hleaving : Ranked r.leaving := hranked.filter _
    rw [hout] at hleaving
    exact hleaving.sublist (List.sublist_append_right out rest)
  have hnodup : ((rest ++ r.staying).map (·.order)).Nodup :=
    ((hperm.map _).nodup_iff.2 horders).sublist ((List.sublist_append_right out _).map _)
  have hloses : ∀ m ∈ rest, r.losesSeat m = true := fun m hm =>
    losesSeat_of_mem_leaving (hout ▸ List.mem_append_right out hm)
  have hleave := filter_losesSeat hloses fun m => losesSeat_of_mem_staying (r := r)
  have hstay := filter_not_losesSeat hloses fun m => losesSeat_of_mem_staying (r := r)
  refine ⟨?_, Members.ranked_byOrder hnodup, ?_, ?_⟩
  · exact (hheld.perm hperm.symm).removals.perm (Members.perm_byOrder _).symm
  · rw [Members.filter_byOrder hnodup (by rw [hstay]; exact hranked.filter _), hstay]
    rfl
  · rw [Members.filter_byOrder hnodup (by rwa [hleave]), hleave, ← Rows.apply_append, switchChanges,
      hout, List.map_append, List.append_assoc]

/-- All leaving members are gone, and some of the others have their new numbers. -/
theorem remnant_of_storings (hheld : HeldBy r.members.values rows)
    (horders : (r.members.values.map (·.order)).Nodup)
    (hpositive : ∀ m ∈ r.members.values, 1 ≤ m.order) {before after : List QuorumMember}
    (hstay : r.staying = before ++ after) :
    r.Remnant rows (r.leaving.map removal ++ (numberFrom 1 before).map storing)
      (numberFrom 1 before ++ after) := by
  have hranked : Ranked (before ++ after) := hstay ▸ (Members.ranked_byOrder horders).filter _
  have hfrom : ∀ m ∈ before ++ after, 1 ≤ m.order.toNat := fun m hm => by
    have hm' : m ∈ r.members.values :=
      r.perm_leaving_staying.mem_iff.1 (List.mem_append_right _ (hstay ▸ hm))
    exact UInt32.le_iff_toNat_le.1 (hpositive m hm')
  have hremaining : numberFrom 1 (before ++ after) = r.remaining := hstay ▸ rfl
  have hstays : ∀ m ∈ numberFrom 1 before ++ after, r.losesSeat m = false := fun m hm => by
    have hold : ∀ m ∈ before ++ after, r.losesSeat m = false := fun m hm =>
      losesSeat_of_mem_staying (hstay ▸ hm)
    rcases List.mem_append.1 hm with hm | hm
    · obtain ⟨m', hm', order, rfl⟩ := exists_of_mem_numberFrom hm
      exact hold m' (List.mem_append_left _ hm')
    · exact hold m (List.mem_append_right _ hm)
  have hnone : ∀ m ∈ ([] : List QuorumMember), r.losesSeat m = true := fun m hm => by cases hm
  refine ⟨?_, (ranked_numberFrom_append hranked hfrom).1, ?_, ?_⟩
  · have hgone := (hheld.perm r.perm_leaving_staying.symm).removals
    rw [hstay] at hgone
    rw [Rows.apply_append]
    exact hgone.numbered
  · have h := filter_not_losesSeat hnone hstays
    rw [List.nil_append] at h
    rw [h, numberFrom_again, hremaining]
  · -- Nobody is left to be removed, and the storings are made once more from the first.
    have h := filter_losesSeat hnone hstays
    rw [List.nil_append] at h
    rw [h, List.map_nil, List.nil_append, switchChanges, ← hremaining, numberFrom_append,
      List.map_append, rows.apply_append, Rows.apply_again, ← Rows.apply_append]

/-- A switch that was cut short anywhere leaves a remnant. -/
theorem exists_remnant (hheld : HeldBy r.members.values rows)
    (horders : (r.members.values.map (·.order)).Nodup)
    (hpositive : ∀ m ∈ r.members.values, 1 ≤ m.order) {done left : List RowChange}
    (hdone : done ++ left = r.switchChanges) : ∃ ms, r.Remnant rows done ms := by
  -- The removals come first: the switch was cut short among them or among the storings.
  rcases List.append_eq_append_iff.1 hdone with ⟨rest, hleaving, -⟩ | ⟨saved, rfl, hsaved⟩
  · obtain ⟨out, kept, hout, rfl, -⟩ := List.map_eq_append_iff.1 hleaving
    exact ⟨_, remnant_of_removals hheld horders hout⟩
  · obtain ⟨named, kept, hall, rfl, -⟩ := List.map_eq_append_iff.1 hsaved
    obtain ⟨before, after, hstay, rfl⟩ := exists_of_numberFrom_eq_append hall
    exact ⟨_, remnant_of_storings hheld horders hpositive hstay⟩

theorem losesSeat_congr {r r' : Registry} (h : r'.quorum = r.quorum) : r'.losesSeat = r.losesSeat := by
  funext m
  rw [losesSeat, losesSeat, h]

/-- A registry of the held members goes on with what is left of the switch. -/
theorem Remnant.switch {done : List RowChange} {ms : List QuorumMember} (h : r.Remnant rows done ms)
    {r' : Registry} (hquorum : r'.quorum = r.quorum)
    (hmembers : r'.members = Docking.bySignAddress ms) :
    r'.remaining = r.remaining ∧ (rows.apply done).apply r'.switchChanges = rows.apply r.switchChanges := by
  have hordered : r'.orderedMembers = ms := by
    rw [orderedMembers, hmembers]
    exact Members.byOrder_eq h.ranked (Docking.perm_values_bySignAddress h.held.distinct)
  have hremaining : r'.remaining = r.remaining := by
    rw [Registry.remaining, hordered, losesSeat_congr hquorum]
    exact h.remaining
  refine ⟨hremaining, ?_⟩
  rw [switchChanges, hremaining, leaving, hordered, losesSeat_congr hquorum]
  exact h.rows

end Registry

namespace Docking

/-! ## After a restart -/

/-- What a restarted process does: it loads the members and makes the switch. -/
def recover (chain : ChainId) (a : Adapter) (version : UInt32) : Action Docking SwitchOutcome := do
  let _ ← loadMembers
  switchVersion chain a version

theorem ends_loadMembers {d : Docking} {ms : List QuorumMember} (hheld : HeldBy ms d.store.rows) :
    Ends loadMembers d
      (fun n d' => n = (bySignAddress ms).size ∧ d'.registry = d.registry.withMembers (bySignAddress ms)
        ∧ d'.store.rows = d.store.rows ∧ d'.store.plan = d.store.plan)
      (fun _ d' => d.store.MayFail ∧ d'.registry = d.registry ∧ d'.store.rows = d.store.rows) := by
  have hloaded : bySignAddress (byOrder (bySignAddress ms).values) = bySignAddress ms :=
    bySignAddress_congr hheld.distinct
      ((Members.perm_byOrder _).trans (perm_values_bySignAddress hheld.distinct))
  refine ends_transition.2 (ends_bind.2 (hheld.ends_load.mono ?_ ?_))
  · rintro l s ⟨rfl, hrows, hplan⟩
    rw [hloaded]
    exact ⟨rfl, rfl, hrows, hplan⟩
  · rintro e s ⟨hf, hrows⟩
    exact ⟨hf, rfl, hrows⟩

/-- After a switch that was cut short, a restarted process comes to the members and the rows that the
switch would have come to at once. The members have to be those that the store holds, each with a
positive order of its own. -/
theorem recover_interrupted {chain : ChainId} {a : Adapter} {version : UInt32} {d : Docking}
    {fresh : Registry} {e : BridgeError} (hc : a.chain = chain)
    (hheld : HeldBy d.registry.members.values d.store.rows)
    (horders : (d.registry.members.values.map (·.order)).Nodup)
    (hpositive : ∀ m ∈ d.registry.members.values, 1 ≤ m.order)
    (hquorum : fresh.quorum = d.registry.quorum)
    (hfailed : (switchVersion chain a version).outcome d = .error e) :
    let switch := switchVersion chain a version
    let restarted := ((switch.final d).restart fresh).withoutFailures
    let recovered := (recover chain a version).final restarted
    let uninterrupted := switch.final d.withoutFailures
    (∃ o, (recover chain a version).outcome restarted = .ok o) ∧
      recovered.registry.members = uninterrupted.registry.members ∧
      recovered.store.rows = uninterrupted.store.rows := by
  intro switch restarted recovered uninterrupted
  obtain ⟨-, done, left, hdone, hrows⟩ := interrupted_of_failed hc hfailed
  obtain ⟨ms, hms⟩ := Registry.exists_remnant hheld horders hpositive hdone
  have honce := (switchVersion_withoutFailures hc version d).2
  have hheld' : HeldBy ms restarted.store.rows := by
    show HeldBy ms (switch.final d).store.rows
    rw [hrows]
    exact hms.held
  have hends : Ends (recover chain a version) restarted
      (fun _ d' => d'.registry.members = uninterrupted.registry.members ∧
        d'.store.rows = uninterrupted.store.rows) fun _ _ => False := by
    have hreliable : ¬ restarted.store.MayFail := Store.not_mayFail_reliable _
    refine (ends_loadMembers hheld').bind ?_ fun _ _ hf => hreliable hf.1
    rintro - loaded ⟨-, hregistry, hsame, hplan⟩
    refine (ends_switchVersion hc version loaded).mono ?_ ?_
    · rintro - d' ⟨-, hs⟩
      have hquorum' : loaded.registry.quorum = d.registry.quorum := by
        rw [hregistry]
        exact hquorum
      have hmembers : loaded.registry.members = bySignAddress ms := by
        rw [hregistry]
        rfl
      obtain ⟨hremaining, hend⟩ := hms.switch hquorum' hmembers
      constructor
      · rw [hs.registry, honce.registry]
        exact congrArg bySignAddress hremaining
      · rw [hs.rows, hsame, honce.rows, ← hend, ← hrows]
        rfl
    · rintro - d' ⟨⟨calls, hf⟩, -⟩
      exact hreliable ⟨calls, hplan ▸ hf⟩
  exact Ends.outcome (p := fun o d' => (∃ x, o = .ok x) ∧
    d'.registry.members = uninterrupted.registry.members ∧
    d'.store.rows = uninterrupted.store.rows)
    (hends.mono (fun o d' h => ⟨⟨o, rfl⟩, h⟩) fun _ _ h => h.elim)

theorem heldBy_sample (plan : FaultPlan) :
    HeldBy (Sample.docking plan).registry.members.values (Sample.docking plan).store.rows := by
  have hdistinct : (Sample.members.map (·.signAddress)).Nodup := by decide
  have hfits : ∀ m ∈ Sample.members, m.Fits := by
    simp only [Sample.members, List.forall_mem_cons]
    exact ⟨⟨by decide, by decide⟩, ⟨by decide, by decide⟩, ⟨by decide, by decide⟩,
      fun m hm => by cases hm⟩
  have hheld : HeldBy (Sample.members ++ []) (Rows.apply .empty (Sample.members.map storing)) :=
    (Members.heldBy_nil rfl).additions hdistinct hfits
  exact hheld.perm (perm_values_bySignAddress hdistinct).symm

/-- The switch fails after one of two members has its new number, and the process is restarted. -/
theorem recover_interrupted_after_put :
    let d := Sample.docking (.ofRules [⟨"put", [], 1⟩])
    let switch := switchVersion 103 (Sample.adapter 103 2) 2
    let restarted := ((switch.final d).restart (.ofQuorum d.registry.quorum)).withoutFailures
    let recovered := (recover 103 (Sample.adapter 103 2) 2).final restarted
    switch.outcome d = .error (.storage "injected put") ∧
      recovered.registry.members = (switch.final d.withoutFailures).registry.members ∧
      recovered.store.rows = (switch.final d.withoutFailures).store.rows := by
  intro d switch restarted recovered
  have hquorum : (Registry.ofQuorum d.registry.quorum).quorum = d.registry.quorum := rfl
  have h := recover_interrupted rfl (heldBy_sample _) (by decide) (by decide) hquorum
    outcome_switchVersion_failing_put
  exact ⟨outcome_switchVersion_failing_put, h.2.1, h.2.2⟩

end Docking
end EvmBridge
