import Mathlib.Tactic.Common
import EvmBridge.Table

/-! # Heights

Heights are 64 bits wide, so that the one after the last is the first again.
-/

namespace EvmBridge
set_option autoImplicit false

/-! ## Neighbours -/

namespace Height

theorem toNat_next {height : UInt64} (h : height.toNat + 1 < UInt64.size) :
    (height + 1).toNat = height.toNat + 1 := by
  rw [UInt64.toNat_add]
  exact Nat.mod_eq_of_lt h

theorem pos_of_ne_zero {height : UInt64} (h : height ≠ 0) : 0 < height.toNat :=
  Nat.pos_of_ne_zero fun h0 => h (UInt64.toNat_inj.1 h0)

theorem toNat_previous {height : UInt64} (h : height ≠ 0) :
    (height - 1).toNat = height.toNat - 1 := by
  exact UInt64.toNat_sub_of_le height 1 (pos_of_ne_zero h)

theorem previous_next (height : UInt64) : height + 1 - 1 = height := by
  simp

/-! ## Ranges -/

/-- So many heights from a first one upwards. -/
def up (first : UInt64) : (count : Nat) → List UInt64
  | 0 => []
  | count + 1 => first :: up (first + 1) count

/-- So many heights from a first one downwards. -/
def down (first : UInt64) : (count : Nat) → List UInt64
  | 0 => []
  | count + 1 => first :: down (first - 1) count

theorem up_succ (first : UInt64) (count : Nat) :
    up first (count + 1) = up first count ++ [first + .ofNat count] := by
  induction count generalizing first with
  | zero => simp [up]
  | succ count ih =>
    rw [up, ih, up, List.cons_append]
    congr 3
    rw [UInt64.ofNat_add, UInt64.add_assoc, UInt64.add_comm 1]
    rfl

/-- A range up to the next height ends in that height. -/
theorem up_next {first last : UInt64} (h : first ≤ last) (hlast : last.toNat + 1 < UInt64.size) :
    up first ((last + 1).toNat + 1 - first.toNat)
      = up first (last.toNat + 1 - first.toNat) ++ [last + 1] := by
  have hle := UInt64.le_iff_toNat_le.1 h
  have hcount : (last + 1).toNat + 1 - first.toNat = last.toNat + 1 - first.toNat + 1 := by
    rw [toNat_next hlast]
    omega
  have hend : first + .ofNat (last.toNat + 1 - first.toNat) = last + 1 := by
    have hle' : first ≤ last + 1 := by
      rw [UInt64.le_iff_toNat_le, toNat_next hlast]
      omega
    rw [← toNat_next hlast, ← UInt64.toNat_sub_of_le _ _ hle', UInt64.ofNat_toNat]
    grind
  rw [hcount, up_succ, hend]

theorem down_succ (first : UInt64) (count : Nat) :
    down first (count + 1) = down first count ++ [first - .ofNat count] := by
  induction count generalizing first with
  | zero => simp [down]
  | succ count ih =>
    rw [down, ih, down, List.cons_append]
    congr 3
    rw [UInt64.ofNat_add]
    grind

theorem down_sub {bottom top : UInt64} (h : bottom ≤ top) :
    down top (top.toNat - bottom.toNat + 1) = down top (top.toNat - bottom.toNat) ++ [bottom] := by
  rw [down_succ, ← UInt64.toNat_sub_of_le top bottom h, UInt64.ofNat_toNat]
  congr 2
  grind

theorem length_up (first : UInt64) (count : Nat) : (up first count).length = count := by
  induction count generalizing first with
  | zero => rfl
  | succ count ih => rw [up, List.length_cons, ih]

theorem length_down (first : UInt64) (count : Nat) : (down first count).length = count := by
  induction count generalizing first with
  | zero => rfl
  | succ count ih => rw [down, List.length_cons, ih]

end Height
end EvmBridge
