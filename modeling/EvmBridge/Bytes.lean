/-! # Byte strings

Byte strings, the numbers they write, and the order in which a store keeps them.

* `Bytes.toNatLittle`, `Bytes.ofNatLittle`: numbers of a fixed width with the least significant byte
  first.
* `Bytes.toNat`, `Bytes.ofNat`: the same with the most significant byte first.
* `Bytes.before`: the lexicographic order; `Bytes.before_trans` and `Bytes.before_connected`
  make it a strict total order.
-/

namespace EvmBridge
set_option autoImplicit false

/-- A byte string. -/
abbrev Bytes := List UInt8

namespace Bytes

/-- `n` zero bytes. -/
def zeros (n : Nat) : Bytes := List.replicate n 0

@[simp] theorem length_zeros (n : Nat) : (zeros n).length = n := by simp [zeros]

/-! ## Numbers, least significant byte first -/

/-- The number that a byte string writes in base 256, least significant byte first. -/
def toNatLittle : Bytes → Nat
  | [] => 0
  | x :: b => x.toNat + 256 * toNatLittle b

/-- The low `width` base-256 digits of a number, least significant byte first. -/
def ofNatLittle : (width : Nat) → Nat → Bytes
  | 0, _ => []
  | w + 1, n => UInt8.ofNat n :: ofNatLittle w (n / 256)

@[simp] theorem length_ofNatLittle (w n : Nat) : (ofNatLittle w n).length = w := by
  induction w generalizing n with
  | zero => rfl
  | succ w ih => simp [ofNatLittle, ih]

/-! ## Numbers, most significant byte first -/

/-- The number that a byte string writes in base 256, most significant byte first. -/
def toNat (b : Bytes) : Nat := b.foldl (fun n x => n * 256 + x.toNat) 0

/-- The low `width` base-256 digits of a number, most significant byte first. -/
def ofNat (width n : Nat) : Bytes := (ofNatLittle width n).reverse

@[simp] theorem length_ofNat (w n : Nat) : (ofNat w n).length = w := by simp [ofNat]

/-- Reading from one end is reading the reverse from the other. -/
theorem toNat_eq (b : Bytes) : toNat b = toNatLittle b.reverse := by
  have h : ∀ l : Bytes, l.reverse.foldl (fun n x => n * 256 + x.toNat) 0 = toNatLittle l := by
    intro l
    induction l with
    | nil => rfl
    | cons x l ih =>
      rw [List.reverse_cons, List.foldl_append, ih]
      simp only [List.foldl_cons, List.foldl_nil, toNatLittle]
      omega
  rw [toNat, ← h b.reverse, List.reverse_reverse]

/-- Byte strings of one length that write the same number are equal. -/
theorem toNatLittle_injective {a b : Bytes} (hl : a.length = b.length)
    (h : toNatLittle a = toNatLittle b) : a = b := by
  induction a generalizing b with
  | nil => exact (List.length_eq_zero_iff.1 hl.symm).symm
  | cons x a ih =>
    cases b with
    | nil => simp at hl
    | cons y b =>
      have hx := x.toNat_lt
      have hy := y.toNat_lt
      simp only [toNatLittle] at h
      have hxy : x = y := UInt8.toNat_inj.1 (by omega)
      rw [hxy, ih (by simpa using hl) (by omega)]

/-! ## Lexicographic order -/

/-- The strict lexicographic order of byte strings: a proper initial part comes first. -/
def before : Bytes → Bytes → Bool
  | _, [] => false
  | [], _ :: _ => true
  | x :: a, y :: b => x.toNat < y.toNat || (x == y && before a b)

theorem before_irrefl (a : Bytes) : before a a = false := by
  induction a with
  | nil => rfl
  | cons x a ih => simp [before, ih]

theorem before_trans {a b c : Bytes} (h₁ : before a b = true) (h₂ : before b c = true) :
    before a c = true := by
  induction a generalizing b c with
  | nil =>
    cases b with
    | nil => simp [before] at h₁
    | cons y b => cases c with
      | nil => simp [before] at h₂
      | cons z c => rfl
  | cons x a ih =>
    cases b with
    | nil => simp [before] at h₁
    | cons y b => cases c with
      | nil => simp [before] at h₂
      | cons z c =>
        simp only [before, Bool.or_eq_true, decide_eq_true_eq, Bool.and_eq_true,
          beq_iff_eq] at h₁ h₂ ⊢
        rcases h₁ with h₁ | ⟨rfl, h₁⟩ <;> rcases h₂ with h₂ | ⟨rfl, h₂⟩
        · exact .inl (Nat.lt_trans h₁ h₂)
        · exact .inl h₁
        · exact .inl h₂
        · exact .inr ⟨rfl, ih h₁ h₂⟩

theorem before_connected {a b : Bytes} (h₁ : before a b = false) (h₂ : before b a = false) :
    a = b := by
  induction a generalizing b with
  | nil => cases b with
    | nil => rfl
    | cons y b => simp [before] at h₁
  | cons x a ih => cases b with
    | nil => simp [before] at h₂
    | cons y b =>
      simp only [before, Bool.or_eq_false_iff, decide_eq_false_iff_not, Bool.and_eq_false_imp,
        beq_iff_eq] at h₁ h₂
      have hxy : x = y := UInt8.toNat_inj.1 (by omega)
      subst hxy
      rw [ih (h₁.2 rfl) (h₂.2 rfl)]

end Bytes
end EvmBridge
