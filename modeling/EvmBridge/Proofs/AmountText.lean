import EvmBridge.Proofs.Numbers
import EvmBridge.Row.Amount

/-! # Amounts as text

`Amount.ofText_text`: a stored amount reads as the amount it was written for. The digits are followed
as numbers below sixteen: `nibbles` are the digits of bytes, `significant` those that are written.
-/

namespace EvmBridge
set_option autoImplicit false

namespace Hex

/-- The values of the digits of a byte string. -/
def nibbles (b : Bytes) : List ℕ := b.flatMap fun x => [x.toNat / 16, x.toNat % 16]

theorem nibbles_lt (b : Bytes) : ∀ d ∈ nibbles b, d < 16 := by
  intro d hd
  obtain ⟨x, -, hx⟩ := List.mem_flatMap.1 hd
  have := x.toNat_lt
  simp only [List.mem_cons, List.not_mem_nil, or_false] at hx
  omega

theorem digits_eq (b : Bytes) : digits b = (nibbles b).map digit := by
  rw [digits, nibbles, List.map_flatMap]
  rfl

@[simp] theorem length_nibbles (b : Bytes) : (nibbles b).length = 2 * b.length := by
  induction b with
  | nil => rfl
  | cons x b ih =>
    simp only [nibbles, List.flatMap_cons, List.length_append, List.length_cons,
      List.length_nil] at ih ⊢
    omega

theorem utf8EncodeChar_digit {d : ℕ} (h : d < 16) :
    String.utf8EncodeChar (digit d) = [UInt8.ofNat (digit d).toNat] := by
  have hs : ∀ d < 16, String.utf8EncodeChar (digit d) = [UInt8.ofNat (digit d).toNat] := by
    decide
  exact hs d h

theorem value?_digit {d : ℕ} (h : d < 16) : value? (UInt8.ofNat (digit d).toNat) = some d := by
  have hs : ∀ d < 16, value? (UInt8.ofNat (digit d).toNat) = some d := by decide
  exact hs d h

theorem digit_eq_zero_iff {d : ℕ} (h : d < 16) : digit d = '0' ↔ d = 0 := by
  have hs : ∀ d < 16, digit d = '0' ↔ d = 0 := by decide
  exact hs d h

end Hex

namespace Amount
open Hex

/-- The values of the digits that are written: none in front that are zero, but at least one. -/
def significant (n : U256) : List ℕ :=
  match (nibbles n.toBytes).dropWhile (· = 0) with
  | [] => [0]
  | ds => ds

theorem dropWhile_zero_map (ds : List ℕ) (h : ∀ d ∈ ds, d < 16) :
    (ds.map digit).dropWhile (· = '0') = (ds.dropWhile (· = 0)).map digit := by
  induction ds with
  | nil => rfl
  | cons d ds ih =>
    have hd := digit_eq_zero_iff (h d (List.mem_cons_self ..))
    have ih := ih fun e he => h e (List.mem_cons_of_mem _ he)
    by_cases h0 : d = 0
    · rw [List.map_cons, List.dropWhile_cons_of_pos (by simpa using hd.2 h0),
        List.dropWhile_cons_of_pos (by simpa using h0), ih]
    · simp [hd, h0]

theorem digits_eq (n : U256) : digits n = (significant n).map digit := by
  rw [digits, Hex.digits_eq, dropWhile_zero_map _ (nibbles_lt _), significant]
  cases (nibbles n.toBytes).dropWhile (· = 0) <;> rfl

theorem significant_lt (n : U256) : ∀ d ∈ significant n, d < 16 := by
  intro d hd
  rw [significant] at hd
  split at hd
  · simp at hd
    omega
  · exact nibbles_lt _ d ((List.dropWhile_sublist _).subset hd)

theorem significant_ne_nil (n : U256) : significant n ≠ [] := by
  rw [significant]
  split
  · simp
  · assumption

theorem length_significant_le (n : U256) : (significant n).length ≤ 64 := by
  have h := (List.dropWhile_sublist (l := nibbles n.toBytes) (· = 0)).length_le
  simp only [length_nibbles, U256.length_toBytes] at h
  rw [significant]
  split
  · simp
  · exact h

/-! ## The number that the digits write -/

theorem foldl_digits (ds : List ℕ) (n : ℕ) :
    ds.foldl (fun n d => n * 16 + d) n = n * 16 ^ ds.length + ofDigits ds := by
  induction ds generalizing n with
  | nil => simp [ofDigits]
  | cons d ds ih =>
    have h0 := ih (0 * 16 + d)
    rw [ofDigits, List.foldl_cons, List.foldl_cons, ih, h0, List.length_cons]
    ring

theorem ofDigits_cons (d : ℕ) (ds : List ℕ) :
    ofDigits (d :: ds) = d * 16 ^ ds.length + ofDigits ds := by
  have h := foldl_digits ds (0 * 16 + d)
  rw [Nat.zero_mul, Nat.zero_add] at h
  rw [ofDigits, List.foldl_cons, Nat.zero_mul, Nat.zero_add, h]

theorem ofDigits_dropWhile (ds : List ℕ) : ofDigits (ds.dropWhile (· = 0)) = ofDigits ds := by
  induction ds with
  | nil => rfl
  | cons d ds ih =>
    by_cases h : d = 0
    · simp [h, ih, ofDigits_cons]
    · simp [h]

theorem ofDigits_nibbles (b : Bytes) : ofDigits (nibbles b) = Bytes.toNat b := by
  -- both are folds from the front, so the number already read is kept general
  have h : ∀ n, (nibbles b).foldl (fun n d => n * 16 + d) n
      = b.foldl (fun n x => n * 256 + x.toNat) n := by
    induction b with
    | nil => intro n; rfl
    | cons x b ih =>
      intro n
      have hx : (n * 16 + x.toNat / 16) * 16 + x.toNat % 16 = n * 256 + x.toNat := by omega
      have hb := ih (n * 256 + x.toNat)
      simp only [nibbles, List.flatMap_cons, List.foldl_append, List.foldl_cons,
        List.foldl_nil] at hb ⊢
      rw [hx, hb]
  exact h 0

theorem ofDigits_significant (n : U256) : ofDigits (significant n) = n.toNat := by
  have hn : ofDigits (nibbles n.toBytes) = n.toNat := by
    rw [ofDigits_nibbles, U256.toBytes, Bytes.toNat_ofNat]
    exact Nat.mod_eq_of_lt n.isLt
  rw [← hn, ← ofDigits_dropWhile (nibbles n.toBytes), significant]
  split
  next h => rw [h]; rfl
  · rfl

/-! ## Reading -/

theorem digitValues_map (p : ℕ) (ds : List ℕ) (h : ∀ d ∈ ds, d < 16) :
    digitValues p (ds.map fun d => UInt8.ofNat (digit d).toNat) = .ok ds := by
  induction ds generalizing p with
  | nil => rfl
  | cons d ds ih =>
    have hd := value?_digit (h d (List.mem_cons_self ..))
    have ih := ih (p + 1) fun e he => h e (List.mem_cons_of_mem _ he)
    simp only [List.map_cons, digitValues, hd, ih, Except.map]

theorem encode_text (n : U256) :
    Utf8.encode (text n)
      = 48 :: 120 :: (significant n).map fun d => UInt8.ofNat (digit d).toNat := by
  have hd : ∀ ds : List ℕ, (∀ d ∈ ds, d < 16) → (ds.map digit).flatMap String.utf8EncodeChar
      = ds.map fun d => UInt8.ofNat (digit d).toNat := by
    intro ds h
    induction ds with
    | nil => rfl
    | cons d ds ih =>
      rw [List.map_cons, List.flatMap_cons, utf8EncodeChar_digit (h d (List.mem_cons_self ..)),
        ih fun e he => h e (List.mem_cons_of_mem _ he)]
      rfl
  rw [Utf8.encode, text, String.toList_ofList, digits_eq, List.flatMap_cons, List.flatMap_cons,
    hd _ (significant_lt n)]
  rfl

/-- A written amount reads as that amount. -/
theorem ofText_text (n : U256) : ofText (Utf8.encode (text n)) = .ok n := by
  have hne := significant_ne_nil n
  have hle := length_significant_le n
  rw [encode_text, ofText]
  simp only [withoutMark, List.isEmpty_iff, List.map_eq_nil_iff, List.length_map]
  rw [if_neg (by simp only [hne, false_or]; omega), digitValues_map _ _ (significant_lt n)]
  have hp : pairedDigits (significant n).length (significant n) = significant n := if_pos rfl
  simp only [Except.map, hp, ofDigits_significant, BitVec.ofNat_toNat, BitVec.setWidth_eq]

end Amount
end EvmBridge
