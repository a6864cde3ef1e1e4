import EvmBridge.Proofs.Ledger.Operations
import Mathlib.Data.Nat.Count
import Mathlib.Data.Nat.Find

/-! # The ledger as two maps and a slot

Whatever operations a ledger gets, new ledgers over the same store included, it answers as if it kept
headers and bridge records in two plain maps next to the slot (`LedgerModel.step`), as long as the
store does not fail: `Ledger.answers_eq_model`. Keys, rows and listings are invisible from outside.
-/

namespace EvmBridge
set_option autoImplicit false
open EvmBridge.Action

/-! ## Operations -/

/-- An operation on the ledger. -/
inductive LedgerOp where
  | record (h : Header)
  | prune (below : UInt64)
  | latest
  | byHeight (height : UInt64)
  | delete (height : UInt64)
  | rewind (height : UInt64)
  /-- Any record in memory has lengths that fit. -/
  | cacheRecord (r : Record) (fits : r.Fits)
  | cachedRecord (hash : Hash)
  | evict (hash : Hash)
  /-- A new ledger over the same store. -/
  | restart

/-- What an operation on the ledger answers. -/
inductive LedgerAnswer where
  | done
  | count (headers : Nat)
  | header (h : Option Header)
  | bridgeRecord (r : Option Record)
  deriving DecidableEq

/-- Carries an operation out on the ledger. -/
def LedgerOp.perform : LedgerOp → Action Ledger LedgerAnswer
  | record h => do Ledger.record h; return .done
  | prune below => return .count (← Ledger.prune below)
  | latest => return .header (← Ledger.latest)
  | byHeight height => return .header (← Ledger.byHeight height)
  | delete height => do Ledger.delete height; return .done
  | rewind height => return .header (← Ledger.rewind height)
  | cacheRecord r _ => do Ledger.cacheRecord r; return .done
  | cachedRecord hash => return .bridgeRecord (← Ledger.cachedRecord hash)
  | evict hash => do Ledger.evict hash; return .done
  | restart => fun l => .ok .done (.ofStore l.store)

/-- What operations answer, one after the other. A failure does not end the run. -/
def Ledger.answers : List LedgerOp → Ledger → List (Except BridgeError LedgerAnswer)
  | [], _ => []
  | op :: ops, l => op.perform.outcome l :: answers ops (op.perform.final l)

/-! ## The model -/

/-- Headers by height, bridge records by the hash of their transaction, and the slot for the newest
header. -/
structure LedgerModel where
  headers : UInt64 → Option Header
  records : Hash → Option Record
  newest : Option Header

namespace LedgerModel

/-- Nothing kept, and the slot empty. -/
def empty : LedgerModel := ⟨fun _ => none, fun _ => none, none⟩

variable (m : LedgerModel)

/-- The number of headers below a height. -/
def countBelow (below : UInt64) : Nat :=
  Nat.count (fun n => (m.headers (.ofNat n)).isSome) below.toNat

/-- The header of the greatest height. -/
def top : Option Header :=
  m.headers (.ofNat (Nat.findGreatest (fun n => (m.headers (.ofNat n)).isSome) (UInt64.size - 1)))

/-- The answer to an operation, and the model after it. -/
def step : LedgerOp → LedgerAnswer × LedgerModel
  | .record h =>
    (.done, { m with headers := Function.update m.headers h.height (some h), newest := some h })
  | .prune below =>
    (.count (m.countBelow below), { m with
      headers := fun height => if height < below then none else m.headers height
      records := fun hash => (m.records hash).filter fun r => ¬ r.blockHeight < below })
  | .latest => (.header (m.newest.or m.top), { m with newest := m.newest.or m.top })
  | .byHeight height => (.header (m.headers height), m)
  | .delete height => (.done, { m with headers := Function.update m.headers height none })
  | .rewind height =>
    let previous := if height = 0 then none else m.headers (height - 1)
    (.header previous,
      { m with headers := Function.update m.headers height none, newest := previous })
  | .cacheRecord r _ => (.done, { m with records := Function.update m.records r.txHash (some r) })
  | .cachedRecord hash => (.bridgeRecord (m.records hash), m)
  | .evict hash => (.done, { m with records := Function.update m.records hash none })
  | .restart => (.done, { m with newest := none })

/-- What operations answer, one after the other, if none fails. -/
def answers : List LedgerOp → LedgerModel → List LedgerAnswer
  | [], _ => []
  | op :: ops, m => (m.step op).1 :: answers ops (m.step op).2

end LedgerModel

/-! ## Contents as a model -/

namespace Contents
variable {c : Contents} {slot : Option Header}

/-- Contents and slot as a model. -/
def model (c : Contents) (slot : Option Header) : LedgerModel :=
  ⟨c.headers.get?, c.records.get?, slot⟩

theorem update_get? {κ β : Type} [KeyOrder κ] [DecidableEq κ] {t t' : Table κ β} {k : κ}
    {v : Option β} (h : ∀ k', t'.get? k' = if k = k' then v else t.get? k') :
    t'.get? = Function.update t.get? k v := by
  funext k'
  rw [h, Function.update_apply]
  simp only [eq_comm]

theorem model_addHeader (h : Header) : (c.addHeader h).model slot
    = ⟨Function.update c.headers.get? h.height (some h), c.records.get?, slot⟩ :=
  congrArg (LedgerModel.mk · _ _) (update_get? (Table.get?_insert _ _ _))

theorem model_dropHeader (height : UInt64) : (c.dropHeader height).model slot
    = ⟨Function.update c.headers.get? height none, c.records.get?, slot⟩ :=
  congrArg (LedgerModel.mk · _ _) (update_get? (Table.get?_erase _ _))

theorem model_addRecord (r : Record) : (c.addRecord r).model slot
    = ⟨c.headers.get?, Function.update c.records.get? r.txHash (some r), slot⟩ :=
  congrArg (LedgerModel.mk _ · _) (update_get? (Table.get?_insert _ _ _))

theorem model_dropRecord (hash : Hash) : (c.dropRecord hash).model slot
    = ⟨c.headers.get?, Function.update c.records.get? hash none, slot⟩ :=
  congrArg (LedgerModel.mk _ · _) (update_get? (Table.get?_erase _ _))

theorem model_cutOff (below : UInt64) :
    (c.cutOff below).model slot = ((c.model slot).step (.prune below)).2 := by
  refine congrArg₂ (LedgerModel.mk · · slot) (funext fun height => ?_) (funext fun hash => ?_)
  · rw [cutOff, Table.get?_filter]
    show Option.filter _ _ = if height < below then none else c.headers.get? height
    by_cases hlt : height < below
    · simp [hlt]
    · cases c.headers.get? height <;> simp [hlt]
  · rw [cutOff, Table.get?_filter]
    rfl

theorem countBelow_model (below : UInt64) :
    (c.model slot).countBelow below = (c.headers.entries.filter fun e => e.1 < below).length := by
  -- No height is listed twice, so that counting rows is counting heights.
  have hnodup : ((c.headers.entries.filter fun e => e.1 < below).map fun e => e.1.toNat).Nodup := by
    refine List.pairwise_map.2 ((c.headers.ascending.filter _).imp fun {a b} hab => ?_)
    exact Nat.ne_of_lt (of_decide_eq_true hab)
  rw [LedgerModel.countBelow, Nat.count_eq_card_filter_range,
    ← List.length_map (fun e : UInt64 × Header => e.1.toNat), ← List.toFinset_card_of_nodup hnodup]
  congr 1
  ext n
  simp only [Finset.mem_filter, Finset.mem_range, List.mem_toFinset, List.mem_map, List.mem_filter,
    decide_eq_true_eq]
  constructor
  · rintro ⟨hlt, hsome⟩
    obtain ⟨h, hget⟩ := Option.isSome_iff_exists.1 hsome
    have hn : (UInt64.ofNat n).toNat = n := UInt64.toNat_ofNat_of_lt' (hlt.trans below.toNat_lt)
    refine ⟨(.ofNat n, h), ⟨(c.headers.get?_eq_some_iff _ h).1 hget, ?_⟩, hn⟩
    rw [UInt64.lt_iff_toNat_lt, hn]
    exact hlt
  · rintro ⟨e, ⟨he, hlt⟩, rfl⟩
    refine ⟨UInt64.lt_iff_toNat_lt.1 hlt, ?_⟩
    rw [UInt64.ofNat_toNat]
    exact Option.isSome_iff_exists.2 ⟨e.2, (c.headers.get?_eq_some_iff e.1 e.2).2 he⟩

theorem top_model : (c.model slot).top = c.headers.last?.map (·.2) := by
  cases hlast : c.headers.last? with
  | none => exact Table.last?_eq_none_iff.1 hlast _
  | some e =>
    have hget := Table.get?_of_last? hlast
    have hgreatest : Nat.findGreatest (fun n => ((c.model slot).headers (.ofNat n)).isSome)
        (UInt64.size - 1) = e.1.toNat := by
      refine Nat.findGreatest_eq_iff.2 ⟨Nat.le_sub_one_of_lt e.1.toNat_lt, fun _ => ?_, ?_⟩
      · rw [UInt64.ofNat_toNat]
        exact Option.isSome_iff_exists.2 ⟨e.2, hget⟩
      · intro n hlt hle hsome
        obtain ⟨h, hn⟩ := Option.isSome_iff_exists.1 hsome
        have hnat : (UInt64.ofNat n).toNat = n :=
          UInt64.toNat_ofNat_of_lt' (Nat.lt_of_le_pred (by decide) hle)
        -- A header at a height above the last key would have come after it.
        rcases Table.before_of_last? hlast hn with heq | hbefore
        · rw [← heq, hnat] at hlt
          exact Nat.lt_irrefl n hlt
        · have hlt' : (UInt64.ofNat n).toNat < e.1.toNat := of_decide_eq_true hbefore
          rw [hnat] at hlt'
          exact Nat.lt_asymm hlt hlt'
    rw [LedgerModel.top, hgreatest, UInt64.ofNat_toNat]
    exact hget

theorem latest_eq_model : c.latest slot = slot.or (c.model slot).top := by
  rw [top_model]
  rfl

end Contents

/-! ## One operation -/

/-- What the rows still hold where an operation failed: all that they held, except that a rewind may
have removed its header already. -/
inductive LedgerOp.Stops (c : Contents) : LedgerOp → Contents → Prop
  | unchanged (op : LedgerOp) : Stops c op c
  | rewinding {height : UInt64} (above : height ≠ 0) : Stops c (.rewind height) (c.dropHeader height)

/-- Whether a ledger shows what the model says, over a store that does not fail. -/
structure LedgerModel.ShownBy (m : LedgerModel) (l : Ledger) : Prop where
  reliable : ¬ l.store.MayFail
  held : ∃ c : Contents, c.HeldBy l.store.rows ∧ m = c.model l.newest

namespace Ledger

theorem shownBy_empty : LedgerModel.empty.ShownBy (.ofStore (.reliable .empty)) :=
  ⟨Store.not_mayFail_reliable _, .empty, Contents.heldBy_empty rfl rfl, rfl⟩

/-- One operation answers as the model does and leaves what the model becomes. Where a store call
fails, the slot stays. -/
theorem ends_op {l : Ledger} {c : Contents} (hc : c.HeldBy l.store.rows) (op : LedgerOp) :
    Ends op.perform l
      (fun answer l' => ∃ made c' slot, l.Leaves l' made c' slot ∧
        (c.model l.newest).step op = (answer, c'.model slot))
      (fun _ l' => l.store.MayFail ∧ ∃ made c', l.Leaves l' made c' l.newest ∧ op.Stops c c') := by
  cases op with
  | record header =>
    refine (ends_record hc header).bind (fun _ l' h => ends_pure.2 ?_) fun _ _ h => ?_
    · exact ⟨_, _, _, h, Prod.ext rfl (c.model_addHeader header).symm⟩
    · exact ⟨h.1, _, _, h.2, .unchanged _⟩
  | prune below =>
    refine (ends_prune hc below).bind (fun n l' h => ends_pure.2 ?_) fun _ _ h => ?_
    · obtain ⟨rfl, made, h⟩ := h
      exact ⟨_, _, _, h, Prod.ext (congrArg LedgerAnswer.count (c.countBelow_model below))
        (c.model_cutOff below).symm⟩
    · obtain ⟨hf, made, -, h⟩ := h
      exact ⟨hf, _, _, h, .unchanged _⟩
  | latest =>
    refine (ends_latest hc).bind (fun newest l' h => ends_pure.2 ?_) fun _ _ h => ?_
    · obtain ⟨rfl, h⟩ := h
      refine ⟨_, _, _, h, ?_⟩
      rw [c.latest_eq_model]
      rfl
    · exact ⟨h.1, _, _, h.2, .unchanged _⟩
  | byHeight height =>
    refine (ends_byHeight hc height).bind (fun found l' h => ends_pure.2 ?_) fun _ _ h => ?_
    · exact ⟨_, _, _, h.2, by rw [h.1]; rfl⟩
    · exact ⟨h.1, _, _, h.2, .unchanged _⟩
  | delete height =>
    refine (ends_delete hc height).bind (fun _ l' h => ends_pure.2 ?_) fun _ _ h => ?_
    · exact ⟨_, _, _, h, Prod.ext rfl (c.model_dropHeader height).symm⟩
    · exact ⟨h.1, _, _, h.2, .unchanged _⟩
  | rewind height =>
    refine (ends_rewind hc height).bind (fun found l' h => ends_pure.2 ?_) fun _ _ h => ?_
    · obtain ⟨rfl, made, h⟩ := h
      exact ⟨_, _, _, h, Prod.ext rfl (c.model_dropHeader height).symm⟩
    · obtain ⟨hf, h | ⟨above, h⟩⟩ := h
      · exact ⟨hf, _, _, h, .unchanged _⟩
      · exact ⟨hf, _, _, h, .rewinding above⟩
  | cacheRecord r fits =>
    refine (ends_cacheRecord hc fits).bind (fun _ l' h => ends_pure.2 ?_) fun _ _ h => ?_
    · exact ⟨_, _, _, h, Prod.ext rfl (c.model_addRecord r).symm⟩
    · exact ⟨h.1, _, _, h.2, .unchanged _⟩
  | cachedRecord hash =>
    refine (ends_cachedRecord hc hash).bind (fun found l' h => ends_pure.2 ?_) fun _ _ h => ?_
    · exact ⟨_, _, _, h.2, by rw [h.1]; rfl⟩
    · exact ⟨h.1, _, _, h.2, .unchanged _⟩
  | evict hash =>
    refine (ends_evict hc hash).bind (fun _ l' h => ends_pure.2 ?_) fun _ _ h => ?_
    · exact ⟨_, _, _, h, Prod.ext rfl (c.model_dropRecord hash).symm⟩
    · exact ⟨h.1, _, _, h.2, .unchanged _⟩
  | restart => exact ⟨[], c, none, ⟨rfl, rfl, hc, rfl⟩, rfl⟩

/-- Over a store that does not fail, every operation is one step of the model. -/
theorem ends_perform {m : LedgerModel} {l : Ledger} (h : m.ShownBy l) (op : LedgerOp) :
    Ends op.perform l (fun answer l' => answer = (m.step op).1 ∧ (m.step op).2.ShownBy l')
      fun _ _ => False := by
  obtain ⟨hl, c, hc, rfl⟩ := h
  refine (ends_op hc op).mono (fun answer l' h => ?_) fun _ _ h => hl h.1
  obtain ⟨made, c', slot, h, hstep⟩ := h
  rw [hstep]
  exact ⟨rfl, fun hf => hl (h.mayFail hf), c', h.held, by rw [h.newest]⟩

/-! ## Runs -/

theorem answers_eq_of_shownBy {m : LedgerModel} {l : Ledger} (h : m.ShownBy l)
    (ops : List LedgerOp) : answers ops l = (LedgerModel.answers ops m).map .ok := by
  induction ops generalizing m l with
  | nil => rfl
  | cons op ops ih =>
    have hstep : op.perform.outcome l = .ok (m.step op).1 ∧
        (m.step op).2.ShownBy (op.perform.final l) :=
      Ends.outcome (p := fun o l' => o = .ok (m.step op).1 ∧ (m.step op).2.ShownBy l')
        ((ends_perform h op).mono (fun _ _ h => ⟨congrArg _ h.1, h.2⟩) fun _ _ => False.elim)
    rw [answers, LedgerModel.answers, List.map_cons, hstep.1, ih hstep.2]

/-- From an empty store that does not fail, every operation is answered as by the model. -/
theorem answers_eq_model (ops : List LedgerOp) :
    answers ops (.ofStore (.reliable .empty)) = (LedgerModel.answers ops .empty).map .ok :=
  answers_eq_of_shownBy shownBy_empty ops

end Ledger
end EvmBridge
