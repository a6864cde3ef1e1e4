import EvmBridge.Table
import Mathlib.Data.List.Perm.Subperm

/-! # More of tables

What erasing does to the number of entries, the entry of the greatest key, tables made of a list, and
tables whose values name the keys that they stand under (`Table.FiledBy`).
-/

namespace EvmBridge
set_option autoImplicit false
open KeyOrder (before)

namespace Table

/-! ## Entries -/

section Entries
variable {κ β : Type} [KeyOrder κ] [DecidableEq κ]

omit [DecidableEq κ] in
theorem nodup_entries (t : Table κ β) : t.entries.Nodup :=
  t.ascending.imp fun h heq => ne_of_before h (congrArg Prod.fst heq)

theorem lookup_entries [BEq κ] [LawfulBEq κ] (t : Table κ β) (k : κ) :
    t.entries.lookup k = t.get? k := by
  unfold get?
  induction t.entries with
  | nil => rfl
  | cons e es ih =>
    rw [lookupIn, List.lookup_cons, ih]
    by_cases h : e.1 = k
    · simp [h]
    · have hk : (k == e.1) = false := beq_false_of_ne (Ne.symm h)
      rw [hk, if_neg h]

theorem contains_insert (t : Table κ β) (k k' : κ) (v : β) :
    (t.insert k v).contains k' = (decide (k = k') || t.contains k') := by
  rw [contains, get?_insert]
  by_cases h : k = k' <;> simp [h, contains]

theorem erase_of_get?_eq_none {t : Table κ β} {k : κ} (h : t.get? k = none) : t.erase k = t := by
  refine ext_get? fun k' => ?_
  rw [get?_erase]
  split
  next heq => rw [← heq, h]
  · rfl

theorem get?_of_last? {t : Table κ β} {e : κ × β} (h : t.last? = some e) :
    t.get? e.1 = some e.2 :=
  (t.get?_eq_some_iff e.1 e.2).2 (List.mem_of_getLast? h)

/-- No key comes after the last one. -/
theorem before_of_last? {t : Table κ β} {e : κ × β} (h : t.last? = some e) {k : κ} {v : β}
    (hk : t.get? k = some v) : k = e.1 ∨ before k e.1 = true := by
  obtain ⟨es, hs⟩ := t
  obtain ⟨init, rfl⟩ := List.getLast?_eq_some_iff.1 h
  rcases List.mem_append.1 ((get?_eq_some_iff _ k v).1 hk) with hm | hm
  · exact .inr ((List.pairwise_append.1 hs).2.2 _ hm e (List.mem_singleton_self e))
  · exact .inl (congrArg Prod.fst (List.mem_singleton.1 hm))

theorem get?_of_get?_erase {t : Table κ β} {k k' : κ} {v : β} (h : (t.erase k).get? k' = some v) :
    t.get? k' = some v := by
  rw [get?_erase] at h
  split at h
  · cases h
  · exact h

theorem last?_eq_none_iff {t : Table κ β} : t.last? = none ↔ ∀ k, t.get? k = none := by
  rw [last?, List.getLast?_eq_none_iff]
  constructor
  · intro h k
    rw [get?_eq_none_iff, h]
    simp
  · intro h
    refine List.eq_nil_iff_forall_not_mem.2 fun e he => ?_
    have := (t.get?_eq_some_iff e.1 e.2).2 he
    rw [h] at this
    cases this

/-- Tables with the same entries up to a function list them alike. -/
theorem map_entries_eq {γ : Type} {t t' : Table κ β} (f : β → γ)
    (h : ∀ k, (t.get? k).map f = (t'.get? k).map f) :
    t.entries.map (fun e => (e.1, f e.2)) = t'.entries.map fun e => (e.1, f e.2) := by
  have hasc : ∀ t : Table κ β, (t.entries.map fun e => (e.1, f e.2)).Pairwise
      fun a b => before a.1 b.1 = true := fun t => List.pairwise_map.2 t.ascending
  have hget : ∀ (t : Table κ β) k, get? ⟨_, hasc t⟩ k = (t.get? k).map f := by
    intro t k
    refine Option.ext fun v => ?_
    rw [get?_eq_some_iff, List.mem_map, Option.map_eq_some_iff]
    constructor
    · rintro ⟨e, he, heq⟩
      cases heq
      exact ⟨e.2, (t.get?_eq_some_iff e.1 e.2).2 he, rfl⟩
    · rintro ⟨v, hv, rfl⟩
      exact ⟨(k, v), (t.get?_eq_some_iff k v).1 hv, rfl⟩
  refine congrArg entries (ext_get? (s := ⟨_, hasc t⟩) (t := ⟨_, hasc t'⟩) fun k => ?_)
  rw [hget, hget, h]

theorem mem_values_iff {t : Table κ β} {v : β} : v ∈ t.values ↔ ∃ k, t.get? k = some v := by
  simp [values, get?_eq_some_iff]

theorem mem_values_insert {t : Table κ β} {k : κ} {v v' : β} (h : v' ∈ (t.insert k v).values) :
    v' = v ∨ v' ∈ t.values := by
  obtain ⟨k', hk'⟩ := mem_values_iff.1 h
  rw [get?_insert] at hk'
  split at hk'
  · exact .inl (Option.some.inj hk').symm
  · exact .inr (mem_values_iff.2 ⟨k', hk'⟩)

end Entries

/-- There are no more heights than numbers of eight bytes. -/
theorem size_le_of_height {β : Type} (t : Table UInt64 β) : t.size ≤ UInt64.size := by
  have hnodup : (t.entries.map fun e => e.1.toNat).Nodup :=
    List.pairwise_map.2 (t.ascending.imp fun h => Nat.ne_of_lt (of_decide_eq_true h))
  have hsub : (t.entries.map fun e => e.1.toNat) ⊆ List.range UInt64.size := by
    intro n hn
    obtain ⟨e, -, rfl⟩ := List.mem_map.1 hn
    exact List.mem_range.2 e.1.toNat_lt
  have hle := (List.subperm_of_subset hnodup hsub).length_le
  rwa [List.length_map, List.length_range] at hle

/-! ## Tables of a list -/

section Lists
variable {κ β : Type} [KeyOrder κ]

theorem perm_insertIn {k : κ} {v : β} {es : List (κ × β)} (h : k ∉ es.map (·.1)) :
    (insertIn k v es).Perm ((k, v) :: es) := by
  induction es with
  | nil => exact .refl _
  | cons e es ih =>
    rw [List.map_cons, List.mem_cons, not_or] at h
    rw [insertIn]
    split
    · exact .refl _
    split
    · exact ((ih h.2).cons e).trans (.swap ..)
    next hk hk' =>
      exact absurd (KeyOrder.before_connected (by simpa using hk) (by simpa using hk')) h.1

/-- Entries with keys of their own are added to a table as they are. -/
theorem perm_entries_foldl {es : List (κ × β)} {t : Table κ β}
    (h : ((es ++ t.entries).map (·.1)).Nodup) :
    (es.foldl (fun t e => t.insert e.1 e.2) t).entries.Perm (es ++ t.entries) := by
  induction es generalizing t with
  | nil => exact .refl _
  | cons e es ih =>
    have hk : e.1 ∉ t.entries.map (·.1) := by
      rw [List.cons_append, List.map_cons, List.nodup_cons, List.map_append, List.mem_append,
        not_or] at h
      exact h.1.2
    have hperm : (es ++ (t.insert e.1 e.2).entries).Perm (e :: es ++ t.entries) :=
      ((perm_insertIn hk).append_left es).trans List.perm_middle
    exact (ih ((hperm.map _).nodup_iff.2 h)).trans hperm

theorem perm_entries_ofList {es : List (κ × β)} (h : (es.map (·.1)).Nodup) :
    (ofList es).entries.Perm es := by
  have hall : ((es ++ (empty : Table κ β).entries).map (·.1)).Nodup := by
    rwa [empty, List.append_nil]
  have hperm := perm_entries_foldl hall
  rwa [empty, List.append_nil] at hperm

theorem size_erase_add_one [DecidableEq κ] {t : Table κ β} {k : κ} {v : β}
    (h : t.get? k = some v) : (t.erase k).size + 1 = t.size := by
  have hback : (t.erase k).insert k v = t := by
    refine ext_get? fun k' => ?_
    rw [get?_insert, get?_erase]
    split
    next heq => rw [← heq, h]
    · rfl
  have hk : k ∉ (t.erase k).entries.map (·.1) := by simp [erase, filter]
  calc (t.erase k).size + 1 = ((k, v) :: (t.erase k).entries).length := rfl
    _ = ((t.erase k).insert k v).size := (perm_insertIn hk).length_eq.symm
    _ = t.size := by rw [hback]

end Lists

/-! ## Tables whose values name their keys -/

section Filed
variable {κ β : Type} [KeyOrder κ] [DecidableEq κ] {t : Table κ β} {name : β → κ}

/-- Whether every value stands under the key that it names. -/
def FiledBy (t : Table κ β) (name : β → κ) : Prop := ∀ k v, t.get? k = some v → name v = k

theorem filedBy_empty : (empty : Table κ β).FiledBy name := fun k v h => by
  rw [get?_empty] at h
  cases h

theorem FiledBy.insert (h : t.FiledBy name) (v : β) : (t.insert (name v) v).FiledBy name := by
  intro k w hw
  rw [get?_insert] at hw
  split at hw
  next hk => simpa [← Option.some.inj hw] using hk
  · exact h k w hw

theorem FiledBy.filter (h : t.FiledBy name) (p : κ → β → Bool) : (t.filter p).FiledBy name := by
  intro k v hv
  rw [get?_filter, Option.filter_eq_some_iff] at hv
  exact h k v hv.1

theorem FiledBy.mem_values_iff (h : t.FiledBy name) {v : β} :
    v ∈ t.values ↔ t.get? (name v) = some v := by
  rw [Table.mem_values_iff]
  constructor
  · rintro ⟨k, hk⟩
    rwa [h k v hk]
  · exact fun hv => ⟨_, hv⟩

theorem FiledBy.map_values (h : t.FiledBy name) : t.values.map name = t.keys := by
  rw [values, keys, List.map_map]
  refine List.map_congr_left fun e he => ?_
  exact h e.1 e.2 ((t.get?_eq_some_iff e.1 e.2).2 he)

theorem FiledBy.ascending (h : t.FiledBy name) :
    (t.values.map name).Pairwise fun a b => before a b = true := by
  rw [h.map_values, keys, List.pairwise_map]
  exact t.ascending

theorem FiledBy.nodup (h : t.FiledBy name) : (t.values.map name).Nodup :=
  h.ascending.imp ne_of_before

theorem FiledBy.contains_iff (h : t.FiledBy name) {k : κ} :
    t.contains k = true ↔ ∃ v ∈ t.values, name v = k := by
  rw [contains, Option.isSome_iff_exists]
  constructor
  · rintro ⟨v, hv⟩
    exact ⟨v, Table.mem_values_iff.2 ⟨k, hv⟩, h k v hv⟩
  · rintro ⟨v, hv, rfl⟩
    exact ⟨v, h.mem_values_iff.1 hv⟩

end Filed
end Table
end EvmBridge
