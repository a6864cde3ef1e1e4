import EvmBridge.Proofs.Ledger.Refinement

/-! # All calls of a ledger

Besides the single operations there is the purge, a loop of rewinds. It takes exactly
`Contents.rounds` of them, so that the loop never runs out of its limit (`Ledger.ends_purge`). Every
call, purges included, is one change of the model (`LedgerCall.effect`) or stops at a failing store
call (`LedgerCall.Stops`).
-/

namespace EvmBridge
set_option autoImplicit false
open EvmBridge.Action

/-- A call of a ledger. -/
inductive LedgerCall where
  | single (op : LedgerOp)
  | purge

/-- Carries a call out on a ledger. -/
def LedgerCall.perform : LedgerCall → Action Ledger LedgerAnswer
  | single op => op.perform
  | purge => return .count (← Ledger.purge)

/-! ## What a call makes of the model -/

/-- Whether every header stands at its own height. -/
def LedgerModel.Filed (m : LedgerModel) : Prop :=
  ∀ height h, m.headers height = some h → h.height = height

namespace LedgerCall

/-- The model after a call. -/
def effect (m : LedgerModel) : LedgerCall → LedgerModel
  | single op => (m.step op).2
  | purge => { m with headers := fun _ => none, newest := none }

theorem filed_effect {m : LedgerModel} (hm : m.Filed) (call : LedgerCall) :
    (call.effect m).Filed := by
  have hdrop : ∀ height, LedgerModel.Filed
      { m with headers := Function.update m.headers height none } := by
    intro height k h hk
    dsimp only at hk
    rw [Function.update_apply] at hk
    split at hk
    · cases hk
    · exact hm k h hk
  cases call with
  | purge => exact fun _ _ hk => nomatch hk
  | single op =>
    cases op with
    | record header =>
      intro k h hk
      simp only [effect, LedgerModel.step, Function.update_apply] at hk
      split at hk
      next heq => rw [heq, Option.some.inj hk]
      · exact hm k h hk
    | prune below =>
      intro k h hk
      simp only [effect, LedgerModel.step] at hk
      split at hk
      · cases hk
      · exact hm k h hk
    | delete height => exact hdrop height
    | rewind height => exact hdrop height
    | latest | byHeight | cacheRecord | cachedRecord | evict | restart => exact hm

/-- What a failed call leaves of the contents and the slot: where a single operation stops, or any
headers and any slot on the way of a purge. -/
inductive Stops (c : Contents) (slot : Option Header) : LedgerCall → Contents → Option Header → Prop
  | single {op : LedgerOp} {c' : Contents} (stops : op.Stops c c') : Stops c slot (.single op) c' slot
  | purge {c' : Contents} {slot' : Option Header} (records : c'.records = c.records) :
    Stops c slot .purge c' slot'

/-- A single operation stops with the slot as it was, and with the contents as they were unless it is
a rewind. -/
theorem Stops.of_single {c c' : Contents} {slot slot' : Option Header} {op : LedgerOp}
    (h : (LedgerCall.single op).Stops c slot c' slot') : slot' = slot ∧
      (c' = c ∨ ∃ height, op = .rewind height ∧ c' = c.dropHeader height) := by
  cases h with
  | single stops =>
    cases stops with
    | unchanged => exact ⟨rfl, .inl rfl⟩
    | rewinding => exact ⟨rfl, .inr ⟨_, rfl, rfl⟩⟩

/-- Wherever a call stopped, made once more it has the effect that it would have had. -/
theorem Stops.effect_eq {c c' : Contents} {slot slot' : Option Header} {call : LedgerCall}
    (h : call.Stops c slot c' slot') : call.effect (c'.model slot') = call.effect (c.model slot) := by
  cases h with
  | purge records => simp only [effect, Contents.model, records]
  | single stops =>
    cases stops with
    | unchanged => rfl
    | @rewinding height above =>
      have hgone : (c.dropHeader height).headers.get? = Function.update c.headers.get? height none :=
        Contents.update_get? (Table.get?_erase c.headers height)
      have hagain : Function.update (c.dropHeader height).headers.get? height none
          = Function.update c.headers.get? height none := by rw [hgone, Function.update_idem]
      simp only [effect, LedgerModel.step, Contents.model, hagain, c.get?_dropHeader_sub_one]
      rfl

end LedgerCall

/-! ## Purging -/

namespace Contents
variable {c : Contents} {slot : Option Header}

/-- How often a purge rewinds: once for every header, and once for a slot that names a height without
a header. -/
def rounds (c : Contents) (slot : Option Header) : Nat :=
  c.headers.size + if slot.all fun h => c.headers.contains h.height then 0 else 1

/-- The header below is kept under its own height, so that after a rewind only headers count. -/
theorem rounds_rewind (hc : c.headers.FiledBy Header.height) (height : UInt64) :
    (c.dropHeader height).rounds (c.below? height) = (c.headers.erase height).size := by
  have hall : (c.below? height).all
      (fun h => (c.dropHeader height).headers.contains h.height) = true := by
    refine (Option.all_eq_true _ _).2 fun h hb => ?_
    unfold below? at hb
    split at hb
    · cases hb
    · have hheight : h.height = height - 1 := hc _ _ hb
      rw [Table.contains, hheight, get?_dropHeader_sub_one, hb]
      rfl
  rw [rounds, if_pos hall]
  rfl

/-- A rewind leaves one round less to go. -/
theorem rounds_rewind_add_one (hc : c.headers.FiledBy Header.height) {h : Header}
    (hl : c.latest slot = some h) :
    (c.dropHeader h.height).rounds (c.below? h.height) + 1 = c.rounds slot := by
  rw [rounds_rewind hc]
  cases hg : c.headers.get? h.height with
  | some v =>
    have hall : slot.all (fun h' => c.headers.contains h'.height) = true := by
      refine (Option.all_eq_true _ _).2 fun h' hslot => ?_
      rw [Option.mem_def.1 hslot] at hl
      cases hl
      rw [Table.contains, hg]
      rfl
    rw [rounds, if_pos hall, Table.size_erase_add_one hg, Nat.add_zero]
  | none =>
    -- A header that is not kept can only be the newest by the slot.
    have hslot : slot = some h := by
      cases slot with
      | some h' => exact hl
      | none =>
        obtain ⟨e, he, rfl⟩ := Option.map_eq_some_iff.1 hl
        have hlast := Table.get?_of_last? he
        rw [← hc _ _ hlast, hg] at hlast
        cases hlast
    have hall : ¬ slot.all (fun h' => c.headers.contains h'.height) = true := by
      rw [hslot]
      simp [Table.contains, hg]
    rw [rounds, if_neg hall, Table.erase_of_get?_eq_none hg]

theorem rounds_lt_limit (c : Contents) (slot : Option Header) : c.rounds slot < UInt64.size + 2 := by
  have hsize := c.headers.size_le_of_height
  unfold rounds
  split <;> omega

end Contents

namespace Ledger
variable {l : Ledger} {c : Contents}

theorem ends_purgeUpTo {limit : Nat} (hc : c.HeldBy l.store.rows)
    (hfiled : c.headers.FiledBy Header.height) (hlimit : c.rounds l.newest < limit) :
    Ends (purgeUpTo limit) l
      (fun n l' => n = c.rounds l.newest ∧
        ∃ made, l.Leaves l' made { c with headers := .empty } none)
      (fun _ l' => l.store.MayFail ∧ ∃ made c' slot, l.Leaves l' made c' slot ∧
        c'.headers.FiledBy Header.height ∧ c'.records = c.records) := by
  -- Each round leaves fewer rounds to go, and the limit is above their number.
  induction limit generalizing l c with
  | zero => exact absurd hlimit (Nat.not_lt_zero _)
  | succ limit ih =>
    refine (ends_latest hc).bind (fun newest l₁ h₁ => ?_) fun _ l₁ h₁ => ?_
    · obtain ⟨rfl, h₁⟩ := h₁
      cases hl : c.latest l.newest with
      | none =>
        obtain ⟨hslot, hrows⟩ := Option.or_eq_none_iff.1 hl
        have hempty : c.headers = .empty := by
          refine Table.ext_get? (Table.last?_eq_none_iff.1 ?_)
          exact Option.map_eq_none_iff.1 hrows
        rw [hl] at h₁
        refine ends_pure.2 ⟨?_, _, by rwa [← hempty]⟩
        rw [Contents.rounds, hslot, hempty]
        rfl
      | some h =>
        refine (ends_rewind h₁.held h.height).bind (fun _ l₂ h₂ => ?_) fun _ l₂ h₂ => ?_
        · obtain ⟨-, made, h₂⟩ := h₂
          have h₁₂ := h₁.trans h₂
          have hrounds := Contents.rounds_rewind_add_one hfiled hl
          rw [← h₂.newest] at hrounds
          refine (ih h₂.held (hfiled.filter _) (by omega)).bind (fun n l₃ h₃ => ends_pure.2 ?_)
            fun _ l₃ h₃ => ?_
          · obtain ⟨rfl, made', h₃⟩ := h₃
            exact ⟨hrounds, _, h₁₂.trans h₃⟩
          · obtain ⟨hf, made', c', slot, h₃, hrest⟩ := h₃
            exact ⟨h₁₂.mayFail hf, _, c', slot, h₁₂.trans h₃, hrest⟩
        · -- The rewind failed before its header was gone or after.
          obtain ⟨hf, h₂ | ⟨-, h₂⟩⟩ := h₂
          · exact ⟨h₁.mayFail hf, _, _, _, h₁.trans h₂, hfiled, rfl⟩
          · exact ⟨h₁.mayFail hf, _, _, _, h₁.trans h₂, hfiled.filter _, rfl⟩
    · exact ⟨h₁.1, _, _, _, h₁.2, hfiled, rfl⟩

theorem ends_purge (hc : c.HeldBy l.store.rows) (hfiled : c.headers.FiledBy Header.height) :
    Ends purge l
      (fun n l' => n = c.rounds l.newest ∧
        ∃ made, l.Leaves l' made { c with headers := .empty } none)
      (fun _ l' => l.store.MayFail ∧ ∃ made c' slot, l.Leaves l' made c' slot ∧
        c'.headers.FiledBy Header.height ∧ c'.records = c.records) :=
  ends_purgeUpTo hc hfiled (c.rounds_lt_limit _)

/-! ## Any call -/

/-- What a ledger's rows say, where every header stands at its own height. -/
structure Says (l : Ledger) (c : Contents) : Prop where
  held : c.HeldBy l.store.rows
  filed : c.headers.FiledBy Header.height

theorem ends_call (h : l.Says c) (call : LedgerCall) :
    Ends call.perform l
      (fun _ l' => ∃ c', l'.Says c' ∧ c'.model l'.newest = call.effect (c.model l.newest))
      (fun _ l' => l.store.MayFail ∧ ∃ c', l'.Says c' ∧ call.Stops c l.newest c' l'.newest) := by
  have hfiled : (call.effect (c.model l.newest)).Filed :=
    LedgerCall.filed_effect (m := c.model l.newest) h.filed call
  cases call with
  | single op =>
    refine (ends_op h.held op).mono (fun answer l' hl => ?_) fun _ l' hl => ?_
    · obtain ⟨made, c', slot, hl, hstep⟩ := hl
      have hmodel : c'.model l'.newest = (LedgerCall.single op).effect (c.model l.newest) := by
        rw [LedgerCall.effect, hstep, hl.newest]
      rw [← hmodel] at hfiled
      exact ⟨c', ⟨hl.held, hfiled⟩, hmodel⟩
    · obtain ⟨hf, made, c', hl, hstops⟩ := hl
      refine ⟨hf, c', ⟨hl.held, ?_⟩, ?_⟩
      · cases hstops with
        | unchanged => exact h.filed
        | rewinding => exact h.filed.filter _
      · rw [hl.newest]
        exact .single hstops
  | purge =>
    refine (ends_purge h.held h.filed).bind (fun n l' hl => ends_pure.2 ?_) fun _ l' hl => ?_
    · obtain ⟨-, made, hl⟩ := hl
      refine ⟨_, ⟨hl.held, Table.filedBy_empty⟩, ?_⟩
      rw [hl.newest]
      rfl
    · obtain ⟨hf, made, c', slot, hl, hc', hrecords⟩ := hl
      exact ⟨hf, c', ⟨hl.held, hc'⟩, .purge hrecords⟩

end Ledger
end EvmBridge
