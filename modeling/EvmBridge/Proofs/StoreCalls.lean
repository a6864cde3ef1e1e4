import EvmBridge.Proofs.LastWrites
import EvmBridge.Proofs.Outcome
import EvmBridge.Store

/-! # What store calls leave behind

One rule for every call of a store that may fail (`Store.ends_perform`), and one for actions that make
changes of single rows one after the other (`Store.Makes`): such an action can stop after any first
part of its changes. Of the changes of one key the last one counts, so that a list of which a first
part has been made already can be made once more from its start (`Rows.apply_again`).
-/

namespace EvmBridge
set_option autoImplicit false
open EvmBridge.Action

/-! ## Calls -/

/-- Whether some call of the store can fail. -/
def Store.MayFail (s : Store) : Prop := ∃ calls, s.plan calls = true

theorem Store.ends_perform {α : Type} {call : StoreCall} {effect : Rows → α × Rows} {s : Store}
    {ok : α → Store → Prop} {err : BridgeError → Store → Prop}
    (hok : ok (effect s.rows).1 { s with rows := (effect s.rows).2, calls := call :: s.calls })
    (herr : s.MayFail → ∀ e, err e { s with calls := call :: s.calls }) :
    Ends (Store.perform call effect) s ok err := by
  by_cases hf : s.plan (call :: s.calls) = true
  · simp only [Ends, Store.perform, if_pos hf]
    exact herr ⟨_, hf⟩ _
  · simp only [Ends, Store.perform, if_neg hf]
    exact hok

theorem Store.outcome_perform {α : Type} {call : StoreCall} {effect : Rows → α × Rows} {s : Store}
    (hs : ¬ s.MayFail) : (perform call effect).outcome s = .ok (effect s.rows).1 :=
  (ends_perform rfl fun hf => absurd hf hs).outcome_eq_ok

theorem Store.not_mayFail_reliable (rows : Rows) : ¬(Store.reliable rows).MayFail := by
  rintro ⟨calls, hf⟩
  cases hf

/-! ## Changes -/

namespace RowChange

/-- The key that a change is about. -/
def key : RowChange → Bytes
  | put key _ | delete key => key

/-- The value that a change leaves under its key. -/
def value? : RowChange → Option Bytes
  | put _ value => some value
  | delete _ => none

end RowChange

namespace Rows

theorem apply_append (r : Rows) (done left : List RowChange) :
    r.apply (done ++ left) = (r.apply done).apply left := List.foldl_append

theorem get?_change (r : Rows) (c : RowChange) (key : Bytes) :
    (r.change c).get? key = if c.key = key then c.value? else r.get? key := by
  cases c with
  | put k v => exact Table.get?_insert r k v key
  | delete k => exact Table.get?_erase r k key

/-- A row comes from the last change of its key. -/
theorem get?_apply (r : Rows) (changes : List RowChange) (key : Bytes) :
    (r.apply changes).get? key
      = ((lastOn? RowChange.key changes key).map RowChange.value?).getD (r.get? key) :=
  look_foldl get?_change changes r key

/-- Changes of other keys leave a row alone. -/
theorem get?_apply_of_not_mem (r : Rows) {changes : List RowChange} {key : Bytes}
    (h : key ∉ changes.map RowChange.key) : (r.apply changes).get? key = r.get? key := by
  have hnone : lastOn? RowChange.key changes key = none := by
    rw [lastOn?_eq_none_iff]
    rintro c hc rfl
    exact h (List.mem_map_of_mem hc)
  rw [get?_apply, hnone]
  rfl

/-- Deletions remove the rows of their keys and no others. -/
theorem get?_apply_delete (rows : Rows) (keys : List Bytes) (key : Bytes) :
    (rows.apply (keys.map .delete)).get? key = if key ∈ keys then none else rows.get? key := by
  induction keys generalizing rows with
  | nil => rfl
  | cons k keys ih =>
    have h := ih (rows.change (.delete k))
    simp only [apply, List.map_cons, List.foldl_cons] at h ⊢
    rw [h, change, Table.get?_erase]
    by_cases hk : k = key
    · simp [hk]
    · simp [hk, Ne.symm hk]

/-- A row comes out alike from two stores if it did not differ before or is changed. -/
theorem get?_apply_congr {r r' : Rows} {changes : List RowChange} {key : Bytes}
    (h : key ∈ changes.map RowChange.key ∨ r.get? key = r'.get? key) :
    (r.apply changes).get? key = (r'.apply changes).get? key := by
  rcases h with h | h
  · obtain ⟨c, hc, hkey⟩ := List.mem_map.1 h
    obtain ⟨last, hlast⟩ := Option.ne_none_iff_exists'.1
      fun hnone => lastOn?_eq_none_iff.1 hnone c hc hkey
    rw [get?_apply, get?_apply, hlast]
    rfl
  · rw [get?_apply, get?_apply, h]

/-- Changes that were made in part can be made once more from the start. -/
theorem apply_again (r : Rows) (done left : List RowChange) :
    (r.apply done).apply (done ++ left) = r.apply (done ++ left) := by
  refine Table.ext_get? fun key => get?_apply_congr ?_
  by_cases hk : key ∈ done.map RowChange.key
  · exact .inl (by rw [List.map_append]; exact List.mem_append_left _ hk)
  · exact .inr (r.get?_apply_of_not_mem hk)

end Rows

/-! ## Changes in turn -/

/-- Whether an action makes these changes in turn. Where a call fails, those before it are made. -/
def Store.Makes (act : Action Store Unit) (changes : List RowChange) : Prop :=
  ∀ s : Store, Ends act s
    (fun _ s' => s'.plan = s.plan ∧ s'.rows = s.rows.apply changes)
    (fun _ s' => s.MayFail ∧ ∃ done left, done ++ left = changes ∧ s'.rows = s.rows.apply done)

namespace Store

theorem makes_nil : Makes (pure ()) [] := fun _ => ⟨rfl, rfl⟩

theorem makes_put (key value : Bytes) : Makes (put key value) [.put key value] := fun _ =>
  ends_perform ⟨rfl, rfl⟩ fun hf _ => ⟨hf, [], _, rfl, rfl⟩

theorem makes_delete (key : Bytes) : Makes (delete key) [.delete key] := fun _ =>
  ends_perform ⟨rfl, rfl⟩ fun hf _ => ⟨hf, [], _, rfl, rfl⟩

theorem makes_batch (changes : List RowChange) : Makes (batch changes) changes := fun _ =>
  ends_perform ⟨rfl, rfl⟩ fun hf _ => ⟨hf, [], _, rfl, rfl⟩

theorem Makes.bind {x y : Action Store Unit} {first next : List RowChange} (hx : Makes x first)
    (hy : Makes y next) : Makes (x >>= fun _ => y) (first ++ next) := by
  intro s
  refine (hx s).bind ?_ ?_
  · rintro - t ⟨hplan, hrows⟩
    refine (hy t).mono ?_ ?_
    · rintro - u ⟨hplan', hrows'⟩
      exact ⟨hplan'.trans hplan, by rw [hrows', hrows, Rows.apply_append]⟩
    · rintro - u ⟨⟨calls, hf⟩, done, left, rfl, hrows'⟩
      refine ⟨⟨calls, by rwa [← hplan]⟩, first ++ done, left, List.append_assoc .., ?_⟩
      rw [hrows', hrows, Rows.apply_append]
  · rintro - t ⟨hf, done, left, rfl, hrows⟩
    exact ⟨hf, done, left ++ next, (List.append_assoc ..).symm, hrows⟩

/-- Actions for the elements of a list, one after the other. -/
theorem Makes.forM {α : Type} {act : α → Action Store Unit} {changes : α → List RowChange}
    (h : ∀ a, Makes (act a) (changes a)) (as : List α) : Makes (as.forM act) (as.flatMap changes) := by
  induction as with
  | nil => exact makes_nil
  | cons a as ih => exact (h a).bind ih

/-- Over a store that does not fail, all the changes are made. -/
theorem Makes.final_reliable {act : Action Store Unit} {changes : List RowChange}
    (h : Makes act changes) (rows : Rows) :
    act.outcome (.reliable rows) = .ok () ∧ ¬ (act.final (.reliable rows)).MayFail ∧
      (act.final (.reliable rows)).rows = rows.apply changes := by
  refine Ends.outcome (p := fun o s => o = .ok () ∧ ¬ s.MayFail ∧ s.rows = rows.apply changes)
    ((h (.reliable rows)).mono ?_ fun _ _ hf => ?_)
  · rintro - s ⟨hplan, hrows⟩
    refine ⟨rfl, ?_, hrows⟩
    rintro ⟨calls, hf⟩
    rw [hplan] at hf
    cases hf
  · exact absurd hf.1 (not_mayFail_reliable rows)

end Store
end EvmBridge
