import EvmBridge.Proofs.Docking.StoredMembers
import EvmBridge.Sample

/-! # What the stored quorum loads

However members are saved and removed, as long as the store does not fail: loading answers one member
for each sign address that was saved and not removed since, as it was saved last, by order and by the
bytes of the sign address (`Members.load_run`).
-/

namespace EvmBridge
set_option autoImplicit false
open EvmBridge.Action

/-! ## Operations -/

/-- An operation on the stored quorum. -/
inductive MemberOp where
  /-- Any member in memory has lengths that fit. -/
  | save (m : QuorumMember) (fits : m.Fits)
  | remove (signAddress : String)

namespace MemberOp

/-- Carries an operation out on the store. -/
def perform : MemberOp → Action Store Unit
  | save m _ => Members.save m
  | remove x => Members.remove x

/-- The sign address that an operation is about. -/
def signAddress : MemberOp → String
  | save m _ => m.signAddress
  | remove x => x

/-- The member that an operation leaves under its sign address. -/
def member? : MemberOp → Option QuorumMember
  | save m _ => some m
  | remove _ => none

/-- The change of a row that an operation makes. -/
def change : MemberOp → RowChange
  | save m _ => Members.storing m
  | remove x => .delete (Members.key x)

/-- What becomes of members by sign address. -/
def next (t : Table String QuorumMember) : MemberOp → Table String QuorumMember
  | save m _ => t.insert m.signAddress m
  | remove x => t.erase x

/-- Whether a member was saved, and its sign address neither saved again nor removed later. -/
def Saved (ops : List MemberOp) (m : QuorumMember) : Prop :=
  ∃ fits, lastOn? signAddress ops m.signAddress = some (save m fits)

variable {t : Table String QuorumMember} {rows : Rows} {op : MemberOp}

theorem get?_next (t : Table String QuorumMember) (op : MemberOp) (x : String) :
    (next t op).get? x = if op.signAddress = x then op.member? else t.get? x := by
  cases op with
  | save m _ => exact Table.get?_insert t m.signAddress m x
  | remove x' => exact Table.get?_erase t x' x

theorem filedBy_next (ht : t.FiledBy QuorumMember.signAddress) :
    (next t op).FiledBy QuorumMember.signAddress := by
  cases op with
  | save m _ => exact ht.insert m
  | remove x => exact ht.filter _

theorem heldBy_next (h : Members.HeldBy t.values rows) (ht : t.FiledBy QuorumMember.signAddress) :
    Members.HeldBy (next t op).values (rows.change op.change) := by
  cases op with
  | save m fits => exact h.insert ht fits
  | remove x => exact h.erase ht x

theorem makes_perform (op : MemberOp) : Store.Makes op.perform [op.change] := by
  cases op with
  | save m _ => exact Store.makes_put _ _
  | remove x => exact Store.makes_delete _

theorem saved_iff {ops : List MemberOp} {m : QuorumMember} :
    Saved ops m ↔ (ops.foldl next .empty).get? m.signAddress = some m := by
  rw [look_foldl get?_next, Table.get?_empty, Saved]
  cases hlast : lastOn? signAddress ops m.signAddress with
  | none => simp
  | some op =>
    cases op with
    | save m' fits =>
      constructor
      · rintro ⟨_, heq⟩
        cases heq
        rfl
      · intro heq
        cases heq
        exact ⟨fits, rfl⟩
    | remove x => simp [member?]

end MemberOp

namespace Members

/-- Operations one after the other. -/
def run (ops : List MemberOp) : Action Store Unit := ops.forM MemberOp.perform

theorem makes_run (ops : List MemberOp) : Store.Makes (run ops) (ops.map MemberOp.change) :=
  List.map_eq_flatMap ▸ .forM MemberOp.makes_perform ops

theorem heldBy_run {t : Table String QuorumMember} {rows : Rows} (h : HeldBy t.values rows)
    (ht : t.FiledBy QuorumMember.signAddress) (ops : List MemberOp) :
    HeldBy (ops.foldl MemberOp.next t).values (rows.apply (ops.map MemberOp.change)) ∧
      (ops.foldl MemberOp.next t).FiledBy QuorumMember.signAddress := by
  induction ops generalizing t rows with
  | nil => exact ⟨h, ht⟩
  | cons op ops ih => exact ih (MemberOp.heldBy_next h ht) (MemberOp.filedBy_next ht)

/-- What is loaded after any saves and removals on a store without members. -/
theorem load_run {rows : Rows} (hempty : rows.under table = []) (ops : List MemberOp) :
    let s := (run ops).final (.reliable rows)
    (run ops).outcome (.reliable rows) = .ok () ∧
      ∃ loaded, load.outcome s = .ok loaded ∧
        (∀ m, m ∈ loaded ↔ MemberOp.Saved ops m) ∧
        (loaded.map (·.signAddress)).Nodup ∧
        loaded.Pairwise fun a b => a.order < b.order ∨
          a.order = b.order ∧ Utf8.encode a.signAddress < Utf8.encode b.signAddress := by
  intro s
  obtain ⟨hrun, hs, hrows⟩ := (makes_run ops).final_reliable rows
  -- Beside the rows, the members by sign address go through the same operations.
  have hnone : HeldBy (Table.empty : Table String QuorumMember).values rows := heldBy_nil hempty
  obtain ⟨hheld, hfiled⟩ := heldBy_run hnone Table.filedBy_empty ops
  generalize ht : ops.foldl MemberOp.next .empty = t at hheld hfiled
  have hheld' : HeldBy t.values s.rows := hrows ▸ hheld
  have hload : load.outcome s = .ok (byOrder t.values) := by
    have hends := hheld'.ends_load
    rw [Docking.bySignAddress_values hfiled] at hends
    exact (hends.mono (fun _ _ h => h.1) fun _ _ h => hs h.1).outcome_eq_ok
  refine ⟨hrun, byOrder t.values, hload, fun m => ?_, ?_, ?_⟩
  · rw [(perm_byOrder _).mem_iff, hfiled.mem_values_iff, ← ht, MemberOp.saved_iff]
  · exact ((perm_byOrder _).map _).nodup_iff.2 hfiled.nodup
  · refine (pairwise_byOrder_and_address hfiled.ascending).imp fun h => h.imp_right fun h => ?_
    exact ⟨h.1, Bytes.before_iff_lt.1 h.2⟩

/-- A member who is saved once more, and one who is removed again. -/
theorem load_run_resaved :
    let first := Sample.member "b" "02bb" true 3
    let last := Sample.member "b" "02cc" false 1
    let gone := Sample.member "a" "02aa" false 1
    let ops : List MemberOp := [.save first ⟨by decide, by decide⟩, .save gone ⟨by decide, by decide⟩,
      .save last ⟨by decide, by decide⟩, .remove "a"]
    Rows.under .empty table = [] ∧
      ∃ loaded, load.outcome ((run ops).final (.reliable .empty)) = .ok loaded ∧
        last ∈ loaded ∧ first ∉ loaded ∧ ∀ m ∈ loaded, m.signAddress ≠ "a" := by
  intro first last gone ops
  obtain ⟨-, loaded, hload, hsaved, -, -⟩ := @load_run .empty rfl ops
  have hlast : MemberOp.Saved ops last := ⟨⟨by decide, by decide⟩, rfl⟩
  refine ⟨rfl, loaded, hload, (hsaved last).2 hlast, fun h => ?_, fun m hm ha => ?_⟩
  · obtain ⟨_, hfirst⟩ := (hsaved first).1 h
    have heq : last = first := MemberOp.save.inj (Option.some.inj hfirst)
    exact absurd heq (by decide)
  · obtain ⟨_, hsave⟩ := (hsaved m).1 hm
    rw [ha] at hsave
    cases hsave

end Members
end EvmBridge
