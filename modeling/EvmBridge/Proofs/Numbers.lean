import Mathlib.Tactic.Ring
import EvmBridge.FixedBytes

/-! # Numbers in fixed-width bytes

Writing and reading are inverse at both ends: `toNat_ofNat` and `ofNat_toNat` with the most
significant byte first, `toNatLittle_ofNatLittle` with the least significant byte first, and
`ofBytes_toBytes` for 256-bit amounts.
-/

namespace EvmBridge
set_option autoImplicit false

namespace Bytes

/-! ## Least significant byte first -/

theorem toNatLittle_ofNatLittle (w n : ℕ) : toNatLittle (ofNatLittle w n) = n % 256 ^ w := by
  induction w generalizing n with
  | zero => simp [ofNatLittle, toNatLittle, Nat.mod_one]
  | succ w ih =>
    have hd : n % (256 * 256 ^ w) = n % 256 + 256 * (n / 256 % 256 ^ w) := Nat.mod_mul
    have hx : (UInt8.ofNat n).toNat = n % 256 := UInt8.toNat_ofNat'
    rw [ofNatLittle, toNatLittle, ih, hx, pow_succ', hd]

theorem toNatLittle_lt (b : Bytes) : toNatLittle b < 256 ^ b.length := by
  induction b with
  | nil => simp [toNatLittle]
  | cons x b ih =>
    have hx := x.toNat_lt
    rw [toNatLittle, List.length_cons, Nat.pow_succ]
    omega

theorem ofNatLittle_toNatLittle (b : Bytes) : ofNatLittle b.length (toNatLittle b) = b := by
  apply toNatLittle_injective (by simp)
  rw [toNatLittle_ofNatLittle, Nat.mod_eq_of_lt (toNatLittle_lt b)]

/-! ## Most significant byte first -/

theorem toNat_lt (b : Bytes) : toNat b < 256 ^ b.length := by
  rw [toNat_eq, ← List.length_reverse]
  exact toNatLittle_lt _

/-- Reading what was written gives the number back, up to the width. -/
theorem toNat_ofNat (w n : ℕ) : toNat (ofNat w n) = n % 256 ^ w := by
  rw [toNat_eq, ofNat, List.reverse_reverse, toNatLittle_ofNatLittle]

theorem toNat_cons (x : UInt8) (b : Bytes) :
    toNat (x :: b) = x.toNat * 256 ^ b.length + toNat b := by
  have h : ∀ (b : Bytes) (n : ℕ),
      b.foldl (fun n x => n * 256 + x.toNat) n = n * 256 ^ b.length + toNat b := by
    intro b
    induction b with
    | nil => intro n; simp [toNat]
    | cons y b ih =>
      intro n
      rw [toNat, List.foldl_cons, List.foldl_cons, ih, ih, List.length_cons]
      ring
  rw [toNat, List.foldl_cons, h, Nat.zero_mul, Nat.zero_add]

/-- Among byte strings of one length the key order is the order of the numbers. -/
theorem before_iff_toNat_lt {a b : Bytes} (hl : a.length = b.length) :
    before a b = true ↔ toNat a < toNat b := by
  induction a generalizing b with
  | nil =>
    have hb : b = [] := List.length_eq_zero_iff.1 hl.symm
    subst hb
    simp [before]
  | cons x a ih =>
    cases b with
    | nil => simp at hl
    | cons y b =>
      have hl : a.length = b.length := by simpa using hl
      have ha := toNat_lt a
      have hb := toNat_lt b
      rw [toNat_cons, toNat_cons, hl]
      rw [hl] at ha
      simp only [before, Bool.or_eq_true, decide_eq_true_eq, Bool.and_eq_true, beq_iff_eq, ih hl]
      rcases Nat.lt_trichotomy x.toNat y.toNat with hlt | heq | hgt
      · have := Nat.mul_le_mul_right (256 ^ b.length) hlt
        rw [Nat.succ_mul] at this
        exact ⟨fun _ => by omega, fun _ => .inl hlt⟩
      · have hxy := UInt8.toNat_inj.1 heq
        subst hxy
        simp
      · have := Nat.mul_le_mul_right (256 ^ b.length) hgt
        rw [Nat.succ_mul] at this
        refine ⟨?_, fun _ => by omega⟩
        rintro (hlt | ⟨rfl, -⟩)
        · omega
        · exact absurd hgt (Nat.lt_irrefl _)

/-- Writing the number of a byte string at its own width gives the byte string back. -/
theorem ofNat_toNat (b : Bytes) : ofNat b.length (toNat b) = b := by
  rw [ofNat, toNat_eq, ← List.length_reverse, ofNatLittle_toNatLittle, List.reverse_reverse]

end Bytes

namespace U256

/-- The bytes of an amount read as that amount. -/
theorem ofBytes_toBytes (n : U256) : ofBytes n.toBytes = n := by
  apply BitVec.eq_of_toNat_eq
  rw [ofBytes, toBytes, Bytes.toNat_ofNat, BitVec.toNat_ofNat]
  have h := n.isLt
  norm_num
  omega

end U256
end EvmBridge
