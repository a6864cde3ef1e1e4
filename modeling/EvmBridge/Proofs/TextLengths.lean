import Mathlib.Tactic.Ring
import EvmBridge.Text.Utf8

/-! # Lengths of texts read from bytes

A text that well-formed bytes hold is written with no more bytes than it was read from:
`Utf8.length_encode_le_of_decode?`. While a character is being read, the bits that the reader holds
bound the number of the character, and so the bytes that it takes.
-/

namespace EvmBridge.Utf8
set_option autoImplicit false

/-- Characters of at most so many bytes have numbers below this. -/
def sizeBound : Nat → Nat
  | 0 => 0
  | 1 => 0x80
  | 2 => 0x800
  | 3 => 0x10000
  | _ => 0x200000

theorem toNat_ofNat_le (n : Nat) : (Char.ofNat n).toNat ≤ n := by
  by_cases h : n.isValidChar
  · rw [Char.ofNat, dif_pos h]
    exact Nat.le_refl n
  · rw [Char.ofNat, dif_neg h]
    exact Nat.zero_le n

theorem length_encodeChar_le {n size : Nat} (hn : n < sizeBound size) :
    (String.utf8EncodeChar (Char.ofNat n)).length ≤ size := by
  have hv : (Char.ofNat n).val.toNat ≤ n := toNat_ofNat_le n
  rw [String.length_utf8EncodeChar, Char.utf8Size]
  simp only [UInt32.le_iff_toNat_le, UInt32.toNat_ofNatLT]
  match size, hn with
  | 1, hn | 2, hn | 3, hn | size + 4, hn =>
    simp only [sizeBound] at hn
    repeat' split
    all_goals omega

/-- Whether a reader that holds so many bytes of a character can only go on to one of as many bytes as
it will have read. -/
def Position.Holds : Position → Nat → Prop
  | .boundary, held => held = 0
  | .inside value more _ _, held =>
    1 ≤ held ∧ 1 ≤ more ∧ held + more ≤ 4 ∧ (value + 1) * 64 ^ more ≤ sizeBound (held + more)

theorem lead_cases (b : UInt8) :
    (b.toNat < sizeBound 1 ∧ lead b = ([some (Char.ofNat b.toNat)], .boundary)) ∨
      (lead b).1 = [none] ∨ ((lead b).1 = [] ∧ (lead b).2.Holds 1) := by
  have hb := b.toNat_lt
  simp only [lead]
  split
  · exact .inl ⟨by assumption, rfl⟩
  split
  · exact .inr (.inl rfl)
  repeat' split
  rotate_left 7
  · exact .inr (.inl rfl)
  all_goals exact .inr (.inr ⟨rfl, by simp only [Position.Holds, sizeBound]; omega⟩)

theorem holds_lead {b : UInt8} {cs : List Char} (h : (lead b).1 = cs.map some) :
    ∃ held, (lead b).2.Holds held ∧ (cs.flatMap String.utf8EncodeChar).length + held ≤ 1 := by
  rcases lead_cases b with ⟨hb, hlead⟩ | hnone | ⟨hnil, hholds⟩
  · rw [hlead] at h ⊢
    obtain ⟨c, rfl, hc⟩ := List.map_eq_singleton_iff.1 h.symm
    cases hc
    refine ⟨0, rfl, ?_⟩
    simpa using length_encodeChar_le hb
  · rw [hnone] at h
    cases cs <;> cases h
  · rw [hnil, eq_comm, List.map_eq_nil_iff] at h
    subst h
    exact ⟨1, hholds, by simp⟩

theorem holds_feed {p : Position} {held : Nat} (hp : p.Holds held) {b : UInt8} {cs : List Char}
    (h : (feed p b).1 = cs.map some) :
    ∃ held', (feed p b).2.Holds held' ∧
      (cs.flatMap String.utf8EncodeChar).length + held' ≤ held + 1 := by
  cases p with
  | boundary =>
    obtain rfl : held = 0 := hp
    exact holds_lead h
  | inside value more low high =>
    obtain ⟨hheld, hmore, hsize, hbound⟩ := hp
    have hbits : (b.toNat - 0x80) % 64 < 64 := Nat.mod_lt _ (by decide)
    generalize hnext : value * 64 + (b.toNat - 0x80) % 64 = next
    simp only [feed, hnext] at h ⊢
    by_cases hr : low ≤ b.toNat ∧ b.toNat ≤ high
    · rw [if_pos hr] at h ⊢
      by_cases hone : more = 1
      · subst hone
        rw [if_pos rfl] at h ⊢
        obtain ⟨c, rfl, hc⟩ := List.map_eq_singleton_iff.1 h.symm
        cases hc
        refine ⟨0, rfl, ?_⟩
        have hl : next < sizeBound (held + 1) := by omega
        simpa using length_encodeChar_le hl
      · rw [if_neg hone] at h ⊢
        rw [eq_comm, List.map_eq_nil_iff] at h
        subst h
        refine ⟨held + 1, ⟨by omega, by omega, by omega, ?_⟩, by simp⟩
        -- The new bits make the number at most 64 times as great, and there is one byte less to come.
        have hpow : 64 ^ more = 64 * 64 ^ (more - 1) := by
          rw [← Nat.pow_succ', Nat.succ_eq_add_one, Nat.sub_add_cancel hmore]
        calc (next + 1) * 64 ^ (more - 1)
            ≤ ((value + 1) * 64) * 64 ^ (more - 1) := Nat.mul_le_mul_right _ (by omega)
          _ = (value + 1) * 64 ^ more := by rw [hpow, Nat.mul_assoc]
          _ ≤ sizeBound (held + more) := hbound
          _ = sizeBound (held + 1 + (more - 1)) := by
            rw [show held + 1 + (more - 1) = held + more by omega]
    · rw [if_neg hr] at h
      cases cs <;> cases h

theorem length_le_of_scanFrom {p : Position} {held : Nat} (hp : p.Holds held) {b : Bytes}
    {cs : List Char} (h : scanFrom p b = cs.map some) :
    (cs.flatMap String.utf8EncodeChar).length ≤ held + b.length := by
  induction b generalizing p held cs with
  | nil =>
    cases p with
    | boundary =>
      cases cs with
      | nil => simp
      | cons c cs => cases h
    | inside value more low high => cases cs <;> cases h
  | cons x b ih =>
    rw [scanFrom_cons, List.append_eq_map_iff] at h
    obtain ⟨cs₁, cs₂, rfl, h₁, h₂⟩ := h
    obtain ⟨held', hq, hl⟩ := holds_feed hp h₁.symm
    have hrest := ih hq h₂.symm
    rw [List.flatMap_append, List.length_append, List.length_cons]
    omega

theorem eq_map_some_of_mapM {l : List (Option Char)} {cs : List Char}
    (h : l.mapM id = some cs) : l = cs.map some := by
  induction l generalizing cs with
  | nil =>
    cases h
    rfl
  | cons o l ih =>
    rw [List.mapM_cons] at h
    obtain ⟨c, hc, h⟩ := Option.bind_eq_some_iff.1 h
    obtain ⟨rest, hr, h⟩ := Option.bind_eq_some_iff.1 h
    cases h
    rw [List.map_cons, ← ih hr]
    exact congrArg (· :: l) hc

/-- A text takes no more bytes than it was read from. -/
theorem length_encode_le_of_decode? {b : Bytes} {s : String} (h : decode? b = some s) :
    (encode s).length ≤ b.length := by
  obtain ⟨cs, hcs, rfl⟩ := Option.map_eq_some_iff.1 h
  have hstart : Position.boundary.Holds 0 := rfl
  have hl := length_le_of_scanFrom hstart (eq_map_some_of_mapM hcs)
  rwa [Nat.zero_add, ← String.toList_ofList (l := cs)] at hl

end EvmBridge.Utf8
