import EvmBridge.Proofs.PrefixScan
import EvmBridge.Proofs.StoreCalls
import EvmBridge.Proofs.Tables

/-! # Parts of a store

`Action.Alike R act`: run on two related states, an action answers alike or fails alike, and the
states are related again. The rules follow how actions are put together.

Of two stores one can hold a part of the other's rows, those of certain keys (`Store.Beside`). A call
about these keys alone cannot tell the two stores apart, and it leaves all other rows as they are.
-/

namespace EvmBridge
set_option autoImplicit false

/-! ## Actions on two states -/

namespace Action
variable {σ τ α β : Type}

/-- Two ends of one action: the same answer or the same failure, in related states. -/
inductive SameEnd (R : σ → σ → Prop) :
    EStateM.Result BridgeError σ α → EStateM.Result BridgeError σ α → Prop
  | ok {a : α} {s t : σ} (states : R s t) : SameEnd R (.ok a s) (.ok a t)
  | error {e : BridgeError} {s t : σ} (states : R s t) : SameEnd R (.error e s) (.error e t)

/-- Whether an action ends alike in related states. -/
def Alike (R : σ → σ → Prop) (act : Action σ α) : Prop := ∀ s t, R s t → SameEnd R (act s) (act t)

/-- Whether an action can answer a value. -/
def Answers (act : Action σ α) (a : α) : Prop := ∃ s t, act s = .ok a t

theorem eq_ok_of_answers {r : Except BridgeError α} {a : α}
    (h : (ofExcept r : Action σ α).Answers a) : r = .ok a := by
  obtain ⟨s, t, h⟩ := h
  cases r <;> cases h
  rfl

theorem answers_of_within {read : σ → τ} {write : τ → σ → σ} {act : Action τ α} {a : α}
    (h : (within read write act).Answers a) : act.Answers a := by
  obtain ⟨s, t, h⟩ := h
  simp only [within, EStateM.run] at h
  cases hact : act (read s) <;> rw [hact] at h <;> cases h
  exact ⟨_, _, hact⟩

section Rules
variable {R : σ → σ → Prop}

theorem alike_pure (a : α) : Alike R (pure a) := fun _ _ hst => .ok hst

theorem alike_ofExcept (r : Except BridgeError α) : Alike R (ofExcept r) := by
  intro s t hst
  cases r with
  | ok a => exact .ok hst
  | error e => exact .error hst

/-- First one action, then the next, whatever the first can have answered. -/
theorem Alike.bind {x : Action σ β} {f : β → Action σ α} (hx : Alike R x)
    (hf : ∀ b, x.Answers b → Alike R (f b)) : Alike R (x >>= f) := by
  intro s t hst
  show SameEnd R (EStateM.bind x f s) (EStateM.bind x f t)
  unfold EStateM.bind
  have hends := hx s t hst
  cases hs : x s <;> cases ht : x t <;> rw [hs, ht] at hends <;> cases hends
  case ok.ok.ok hst' => exact hf _ ⟨s, _, hs⟩ _ _ hst'
  case error.error.error hst' => exact .error hst'

theorem alike_within {S : τ → τ → Prop} {read : σ → τ} {write : τ → σ → σ} {act : Action τ α}
    (h : Alike S act) (hread : ∀ s t, R s t → S (read s) (read t))
    (hwrite : ∀ s t s' t', R s t → S s' t' → R (write s' s) (write t' t)) :
    Alike R (within read write act) := by
  intro s t hst
  simp only [within, EStateM.run]
  have hends := h _ _ (hread s t hst)
  revert hends
  generalize act (read s) = r
  generalize act (read t) = r'
  rintro (hst' | hst')
  · exact .ok (hwrite s t _ _ hst hst')
  · exact .error (hwrite s t _ _ hst hst')

theorem Alike.outcome_final {act : Action σ α} (h : Alike R act) {s t : σ} (hst : R s t) :
    act.outcome s = act.outcome t ∧ R (act.final s) (act.final t) := by
  unfold Action.outcome Action.final EStateM.run
  have hends := h s t hst
  revert hends
  generalize act s = r
  generalize act t = r'
  rintro (hst' | hst')
  · exact ⟨rfl, hst'⟩
  · exact ⟨rfl, hst'⟩

end Rules
end Action

open EvmBridge.Action

/-! ## Rows of certain keys -/

namespace Rows

/-- Whether rows are put together of a part, with all that have one of certain keys, and the rest. -/
structure Joins (own : Bytes → Bool) (whole part rest : Rows) : Prop where
  inside : ∀ key, own key = true → whole.get? key = part.get? key ∧ rest.get? key = none
  outside : ∀ key, own key = false → whole.get? key = rest.get? key ∧ part.get? key = none

variable {own : Bytes → Bool} {whole part rest : Rows}

theorem joins_filter (own : Bytes → Bool) (r : Rows) :
    Joins own r (r.filter fun key _ => own key) (r.filter fun key _ => !own key) := by
  constructor <;> intro key hk <;> rw [Table.get?_filter, Table.get?_filter] <;>
    cases r.get? key <;> simp [Option.filter, hk]

theorem joins_empty (own : Bytes → Bool) : Joins own .empty .empty .empty :=
  ⟨fun _ _ => ⟨rfl, rfl⟩, fun _ _ => ⟨rfl, rfl⟩⟩

/-- The rest is a part as well, and the part its rest. -/
theorem Joins.swap (h : Joins own whole part rest) : Joins (fun key => !own key) whole rest part where
  inside key hk := h.outside key (by simpa using hk)
  outside key hk := h.inside key (by simpa using hk)

theorem Joins.change (h : Joins own whole part rest) {c : RowChange} (hc : own c.key = true) :
    Joins own (whole.change c) (part.change c) rest where
  inside key hk := by
    rw [get?_change, get?_change, (h.inside key hk).1]
    exact ⟨rfl, (h.inside key hk).2⟩
  outside key hk := by
    have hne : c.key ≠ key := by
      rintro rfl
      rw [hc] at hk
      cases hk
    rw [get?_change, get?_change, if_neg hne, if_neg hne]
    exact h.outside key hk

theorem Joins.apply (h : Joins own whole part rest) {changes : List RowChange}
    (hc : ∀ c ∈ changes, own c.key = true) :
    Joins own (whole.apply changes) (part.apply changes) rest := by
  induction changes generalizing whole part with
  | nil => exact h
  | cons c changes ih =>
    exact ih (h.change (hc c List.mem_cons_self)) fun c' hm => hc c' (List.mem_cons_of_mem _ hm)

/-- A listing of keys that are all in the part lists the part. -/
theorem Joins.under_eq (h : Joins own whole part rest) {start : Bytes}
    (hs : ∀ key, start.isPrefixOf key = true → own key = true) :
    whole.under start = part.under start := by
  rw [Rows.under_eq, Rows.under_eq]
  refine congrArg Table.entries (Table.ext_get? fun key => ?_)
  rw [Table.get?_filter, Table.get?_filter]
  by_cases hp : start.isPrefixOf key = true
  · rw [(h.inside key (hs key hp)).1]
  · cases whole.get? key <;> cases part.get? key <;> simp [Option.filter, hp]

/-- The rows of the part and the rest are all the rows. -/
theorem Joins.perm (h : Joins own whole part rest) :
    whole.entries.Perm (part.entries ++ rest.entries) := by
  have hnodup : (part.entries ++ rest.entries).Nodup := by
    refine List.nodup_append.2 ⟨part.nodup_entries, rest.nodup_entries, ?_⟩
    rintro ⟨key, v⟩ hv _ hw rfl
    rw [← Table.get?_eq_some_iff] at hv hw
    cases hk : own key with
    | true => simp [(h.inside key hk).2] at hw
    | false => simp [(h.outside key hk).2] at hv
  refine (List.perm_ext_iff_of_nodup whole.nodup_entries hnodup).2 fun ⟨key, v⟩ => ?_
  rw [List.mem_append, ← Table.get?_eq_some_iff, ← Table.get?_eq_some_iff, ← Table.get?_eq_some_iff]
  cases hk : own key with
  | true => simp [(h.inside key hk).1, (h.inside key hk).2]
  | false => simp [(h.outside key hk).1, (h.outside key hk).2]

end Rows

/-! ## Calls about certain keys -/

namespace Store

/-- Whether the second store holds a part of the first one's rows, next to a rest, and fails from now
on at the same calls as the first. -/
structure Beside (own : Bytes → Bool) (plan : FaultPlan) (rest : Rows) (whole part : Store) :
    Prop where
  whole_plan : whole.plan = plan
  part_plan : part.plan = plan
  fails : ∀ made, plan (made ++ whole.calls) = plan (made ++ part.calls)
  rows : whole.rows.Joins own part.rows rest

variable {own : Bytes → Bool} {plan : FaultPlan} {rest : Rows} {α : Type}

theorem alike_perform {call : StoreCall} {effect : Rows → α × Rows}
    (h : ∀ whole part, Rows.Joins own whole part rest → (effect whole).1 = (effect part).1 ∧
      Rows.Joins own (effect whole).2 (effect part).2 rest) :
    Alike (Beside own plan rest) (perform call effect) := by
  intro s t hst
  obtain ⟨hanswer, hrows⟩ := h _ _ hst.rows
  have hfails : ∀ made, plan (made ++ call :: s.calls) = plan (made ++ call :: t.calls) := by
    intro made
    simpa using hst.fails (made ++ [call])
  have hcall : plan (call :: s.calls) = plan (call :: t.calls) := hfails []
  simp only [perform, hst.whole_plan, hst.part_plan, hcall, ← hanswer]
  by_cases hf : plan (call :: t.calls) = true
  · rw [if_pos hf, if_pos hf]
    exact .error ⟨rfl, rfl, hfails, hst.rows⟩
  · rw [if_neg hf, if_neg hf]
    exact .ok ⟨rfl, rfl, hfails, hrows⟩

theorem alike_get {key : Bytes} (hk : own key = true) : Alike (Beside own plan rest) (get key) :=
  alike_perform fun _ _ h => ⟨(h.inside key hk).1, h⟩

theorem alike_put {key : Bytes} (hk : own key = true) (value : Bytes) :
    Alike (Beside own plan rest) (put key value) :=
  alike_perform fun _ _ h => ⟨rfl, h.change (c := .put key value) hk⟩

theorem alike_delete {key : Bytes} (hk : own key = true) :
    Alike (Beside own plan rest) (delete key) :=
  alike_perform fun _ _ h => ⟨rfl, h.change (c := .delete key) hk⟩

theorem alike_batch {changes : List RowChange} (hc : ∀ c ∈ changes, own c.key = true) :
    Alike (Beside own plan rest) (batch changes) :=
  alike_perform fun _ _ h => ⟨rfl, h.apply hc⟩

theorem alike_scan {start : Bytes} (hs : ∀ key, start.isPrefixOf key = true → own key = true) :
    Alike (Beside own plan rest) (scan start) :=
  alike_perform fun _ _ h => ⟨h.under_eq hs, h⟩

/-- A listing answers rows whose keys begin as asked. -/
theorem isPrefixOf_of_answers_scan {start : Bytes} {rows : List (Bytes × Bytes)}
    (h : (scan start).Answers rows) {row : Bytes × Bytes} (hrow : row ∈ rows) :
    start.isPrefixOf row.1 = true := by
  obtain ⟨s, t, h⟩ := h
  simp only [scan, perform] at h
  split at h <;> cases h
  exact (Rows.mem_under_iff.1 hrow).1

end Store
end EvmBridge
