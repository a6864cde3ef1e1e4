import Mathlib.Data.List.Nodup
import EvmBridge.Docking.Switch

/-! # The order of a quorum

Members that each have an order of their own stand in one order only (`Members.byOrder_eq`). If all
orders are positive, the member at a place has at least the number of the place as its order. So a
quorum of which a first part has its new numbers already still stands in quorum order
(`Registry.ranked_numberFrom_append`), and numbering it once more comes to the same as numbering it at
once (`Registry.numberFrom_again`).

Members of the same order stand by their sign addresses: sorting members by order who ascend by sign
address comes to sorting them by both (`Members.byOrder_eq_byOrderAndAddress`).
-/

namespace EvmBridge
set_option autoImplicit false
open KeyOrder (before)

namespace Members

/-- Whether members stand in quorum order, each with an order of its own. -/
def Ranked (ms : List QuorumMember) : Prop := ms.Pairwise fun a b => a.order < b.order

theorem perm_byOrder (ms : List QuorumMember) : (byOrder ms).Perm ms := List.mergeSort_perm ms _

theorem order_trans (a b c : QuorumMember) (hab : decide (a.order ≤ b.order) = true)
    (hbc : decide (b.order ≤ c.order) = true) : decide (a.order ≤ c.order) = true := by
  simp only [decide_eq_true_eq] at *
  exact UInt32.le_trans hab hbc

theorem order_total (a b : QuorumMember) :
    (decide (a.order ≤ b.order) || decide (b.order ≤ a.order)) = true := by
  simp only [Bool.or_eq_true, decide_eq_true_eq]
  exact UInt32.le_total a.order b.order

theorem pairwise_byOrder (ms : List QuorumMember) :
    (byOrder ms).Pairwise fun a b => a.order ≤ b.order :=
  (List.pairwise_mergeSort order_trans order_total ms).imp fun hab => of_decide_eq_true hab

theorem ranked_byOrder {ms : List QuorumMember} (h : (ms.map (·.order)).Nodup) :
    Ranked (byOrder ms) := by
  have hd : ((byOrder ms).map (·.order)).Nodup := ((perm_byOrder ms).map _).nodup_iff.2 h
  refine ((pairwise_byOrder ms).and (List.pairwise_map.1 hd)).imp ?_
  rintro a b ⟨hle, hne⟩
  exact UInt32.lt_of_le_of_ne hle hne

theorem Ranked.nodup_orders {ms : List QuorumMember} (h : Ranked ms) : (ms.map (·.order)).Nodup :=
  List.pairwise_map.2 (h.imp fun hab => UInt32.ne_of_lt hab)

/-- Members that each have an order of their own stand in one quorum order only. -/
theorem Ranked.eq_of_perm {ms ms' : List QuorumMember} (h : Ranked ms) (h' : Ranked ms')
    (hp : ms.Perm ms') : ms = ms' :=
  hp.eq_of_pairwise (fun _ _ _ _ hab hba => absurd hba (UInt32.lt_asymm hab)) h h'

theorem byOrder_eq {ms ranked : List QuorumMember} (hr : Ranked ranked) (hp : ms.Perm ranked) :
    byOrder ms = ranked :=
  (ranked_byOrder ((hp.map _).nodup_iff.2 hr.nodup_orders)).eq_of_perm hr
    ((perm_byOrder ms).trans hp)

/-- Sorting leaves a part that stands in quorum order as it is. -/
theorem filter_byOrder {ms : List QuorumMember} {p : QuorumMember → Bool}
    (h : (ms.map (·.order)).Nodup) (hr : Ranked (ms.filter p)) :
    (byOrder ms).filter p = ms.filter p :=
  Ranked.eq_of_perm ((ranked_byOrder h).filter p) hr ((perm_byOrder ms).filter p)

/-! ## Members of the same order -/

/-- Whether a member may stand before another, by order and then by sign address. -/
def notAfter (a b : QuorumMember) : Bool :=
  a.order < b.order || (a.order = b.order && !before b.signAddress a.signAddress)

/-- Members by order, those of the same order by sign address. -/
def byOrderAndAddress (ms : List QuorumMember) : List QuorumMember := ms.mergeSort notAfter

theorem notAfter_iff {a b : QuorumMember} : notAfter a b = true ↔
    a.order < b.order ∨ a.order = b.order ∧ before b.signAddress a.signAddress = false := by
  simp [notAfter]

theorem notAfter_trans (a b c : QuorumMember) (hab : notAfter a b = true)
    (hbc : notAfter b c = true) : notAfter a c = true := by
  rw [notAfter_iff] at *
  rcases hab with hab | ⟨hab, hab'⟩ <;> rcases hbc with hbc | ⟨hbc, hbc'⟩
  · exact .inl (UInt32.lt_trans hab hbc)
  · exact .inl (hbc ▸ hab)
  · exact .inl (hab ▸ hbc)
  · refine .inr ⟨hab.trans hbc, Bool.eq_false_iff.2 fun hca => ?_⟩
    -- If the third came before the first, it would come before the second as well.
    cases hlt : before a.signAddress b.signAddress with
    | true => simp [KeyOrder.before_trans hca hlt] at hbc'
    | false => simp [← KeyOrder.before_connected hlt hab', hca] at hbc'

theorem notAfter_total (a b : QuorumMember) : (notAfter a b || notAfter b a) = true := by
  rw [Bool.or_eq_true, notAfter_iff, notAfter_iff]
  by_cases h : a.order = b.order
  · cases hlt : before a.signAddress b.signAddress with
    | true => exact .inl (.inr ⟨h, before_asymm hlt⟩)
    | false => exact .inr (.inr ⟨h.symm, rfl⟩)
  · exact (UInt32.lt_or_lt_of_ne h).imp .inl .inl

theorem signAddress_eq_of_notAfter {a b : QuorumMember} (hab : notAfter a b = true)
    (hba : notAfter b a = true) : a.signAddress = b.signAddress := by
  rw [notAfter_iff] at *
  rcases hab with hab | ⟨hab, hab'⟩ <;> rcases hba with hba | ⟨hba, hba'⟩
  · exact absurd hba (UInt32.lt_asymm hab)
  · exact absurd (hba ▸ hab) (UInt32.lt_irrefl _)
  · exact absurd (hab ▸ hba) (UInt32.lt_irrefl _)
  · exact KeyOrder.before_connected hba' hab'

/-- Sorting by order keeps members of the same order in the order of their sign addresses. -/
theorem pairwise_byOrder_and_address {ms : List QuorumMember}
    (h : (ms.map (·.signAddress)).Pairwise fun a b => before a b = true) :
    (byOrder ms).Pairwise fun a b =>
      a.order < b.order ∨ a.order = b.order ∧ before a.signAddress b.signAddress = true := by
  induction ms with
  | nil => simp [byOrder]
  | cons m ms ih =>
    obtain ⟨hm, hms⟩ := List.pairwise_cons.1 h
    -- The first member goes behind those of smaller order only.
    obtain ⟨front, back, hall, hrest, hfront⟩ := List.mergeSort_cons order_trans order_total m ms
    have hsorted := pairwise_byOrder (m :: ms)
    have ih := ih hms
    rw [byOrder, hall] at hsorted ⊢
    rw [byOrder, hrest] at ih
    have hbefore : ∀ a ∈ front, a.order < m.order := fun a ha => by
      simpa using hfront a ha
    have hbehind : ∀ b ∈ back, m.order < b.order ∨
        m.order = b.order ∧ before m.signAddress b.signAddress = true := fun b hb => by
      have hmem : b ∈ ms := by
        rw [← (perm_byOrder ms).mem_iff, byOrder, hrest]
        exact List.mem_append_right front hb
      have hle : m.order ≤ b.order :=
        (List.pairwise_cons.1 (List.pairwise_append.1 hsorted).2.1).1 b hb
      rcases UInt32.lt_or_eq_of_le hle with hlt | heq
      · exact .inl hlt
      · exact .inr ⟨heq, hm _ (List.mem_map_of_mem hmem)⟩
    obtain ⟨hfront', hback, hacross⟩ := List.pairwise_append.1 ih
    refine List.pairwise_append.2 ⟨hfront', List.pairwise_cons.2 ⟨hbehind, hback⟩, fun a ha b hb => ?_⟩
    rcases List.mem_cons.1 hb with rfl | hb
    · exact .inl (hbefore a ha)
    · exact hacross a ha b hb

theorem byOrder_eq_byOrderAndAddress {ms : List QuorumMember}
    (h : (ms.map (·.signAddress)).Pairwise fun a b => before a b = true) :
    byOrder ms = byOrderAndAddress ms := by
  have hleft : (byOrder ms).Pairwise fun a b => notAfter a b = true :=
    (pairwise_byOrder_and_address h).imp fun hab =>
      notAfter_iff.2 (hab.imp_right fun ⟨heq, hlt⟩ => ⟨heq, before_asymm hlt⟩)
  have hright : (byOrderAndAddress ms).Pairwise fun a b => notAfter a b = true :=
    List.pairwise_mergeSort notAfter_trans notAfter_total ms
  have hperm := (perm_byOrder ms).trans (List.mergeSort_perm ms notAfter).symm
  refine hperm.eq_of_pairwise (fun a b ha hb hab hba => ?_) hleft hright
  have hb' := (List.mergeSort_perm ms notAfter).mem_iff.1 hb
  have hnodup : (ms.map (·.signAddress)).Nodup := h.imp ne_of_before
  exact List.inj_on_of_nodup_map hnodup ((perm_byOrder ms).mem_iff.1 ha) hb'
    (signAddress_eq_of_notAfter hab hba)

end Members

namespace Registry
open Members

theorem numberFrom_append (n : Nat) (before after : List QuorumMember) :
    numberFrom n (before ++ after)
      = numberFrom n before ++ numberFrom (n + before.length) after := by
  induction before generalizing n with
  | nil => rfl
  | cons m before ih =>
    rw [List.cons_append, numberFrom, ih, numberFrom, List.length_cons, List.cons_append,
      Nat.add_assoc, Nat.add_comm 1]

theorem numberFrom_numberFrom (n k : Nat) (ms : List QuorumMember) :
    numberFrom n (numberFrom k ms) = numberFrom n ms := by
  induction ms generalizing n k with
  | nil => rfl
  | cons m ms ih => simp only [numberFrom, ih]

theorem length_numberFrom (n : Nat) (ms : List QuorumMember) :
    (numberFrom n ms).length = ms.length := by
  induction ms generalizing n with
  | nil => rfl
  | cons m ms ih => simp only [numberFrom, List.length_cons, ih]

/-- Numbering members of whom the first have been numbered already comes to numbering them all. -/
theorem numberFrom_again (n : Nat) (before after : List QuorumMember) :
    numberFrom n (numberFrom n before ++ after) = numberFrom n (before ++ after) := by
  rw [numberFrom_append, numberFrom_numberFrom, length_numberFrom, ← numberFrom_append]

theorem toNat_number {n : Nat} (h : n < UInt32.size) :
    (UInt32.ofNat (min n (UInt32.size - 1))).toNat = n := by
  rw [Nat.min_eq_left (Nat.le_sub_one_of_lt h), UInt32.toNat_ofNat_of_lt' h]

theorem numberFrom_eq_mapIdx {n : Nat} {ms : List QuorumMember} (h : n + ms.length ≤ UInt32.size) :
    numberFrom n ms = ms.mapIdx fun i m => { m with order := UInt32.ofNat (n + i) } := by
  induction ms generalizing n with
  | nil => rfl
  | cons m ms ih =>
    rw [List.length_cons] at h
    have hmin : min n (UInt32.size - 1) = n := Nat.min_eq_left (by omega)
    rw [numberFrom, hmin, List.mapIdx_cons, ih (by omega)]
    simp only [Nat.add_zero, Nat.add_assoc, Nat.add_comm 1]

/-- Members stand in quorum order as soon as they are numbered, if there are numbers for all. -/
theorem ranked_numberFrom {n : Nat} {ms : List QuorumMember} (h : n + ms.length ≤ UInt32.size) :
    Ranked (numberFrom n ms) ∧ ∀ m ∈ numberFrom n ms, n ≤ m.order.toNat := by
  induction ms generalizing n with
  | nil => exact ⟨.nil, nofun⟩
  | cons m ms ih =>
    rw [List.length_cons] at h
    have hnumber := toNat_number (n := n) (by omega)
    obtain ⟨hranked, hfrom⟩ := ih (n := n + 1) (by omega)
    refine ⟨List.pairwise_cons.2 ⟨fun x hx => ?_, hranked⟩, fun x hx => ?_⟩
    · rw [UInt32.lt_iff_toNat_lt, hnumber]
      exact hfrom x hx
    · rcases List.mem_cons.1 hx with rfl | hx
      · exact Nat.le_of_eq hnumber.symm
      · exact Nat.le_of_succ_le (hfrom x hx)

/-- Members in quorum order with orders of at least `n` stay in quorum order while the first of them
get the numbers from `n` on. -/
theorem ranked_numberFrom_append {n : Nat} {before after : List QuorumMember}
    (hr : Ranked (before ++ after)) (hn : ∀ m ∈ before ++ after, n ≤ m.order.toNat) :
    Ranked (numberFrom n before ++ after) ∧
      ∀ m ∈ numberFrom n before ++ after, n ≤ m.order.toNat := by
  induction before generalizing n with
  | nil => exact ⟨hr, hn⟩
  | cons m before ih =>
    obtain ⟨hm, hr⟩ := List.pairwise_cons.1 hr
    have hmn : n ≤ m.order.toNat := hn m (List.mem_cons_self ..)
    -- The orders after that of `m` are greater than `n`, since the order of `m` is at least `n`.
    have hnext : ∀ x ∈ before ++ after, n + 1 ≤ x.order.toNat := fun x hx =>
      Nat.lt_of_le_of_lt hmn (UInt32.lt_iff_toNat_lt.1 (hm x hx))
    obtain ⟨hranked, hfrom⟩ := ih hr hnext
    have hnumber := toNat_number (Nat.lt_of_le_of_lt hmn m.order.toNat_lt)
    rw [numberFrom, List.cons_append]
    refine ⟨List.pairwise_cons.2 ⟨fun x hx => ?_, hranked⟩, fun x hx => ?_⟩
    · rw [UInt32.lt_iff_toNat_lt, hnumber]
      exact hfrom x hx
    · rcases List.mem_cons.1 hx with rfl | hx
      · exact Nat.le_of_eq hnumber.symm
      · exact Nat.le_of_succ_le (hfrom x hx)

end Registry
end EvmBridge
