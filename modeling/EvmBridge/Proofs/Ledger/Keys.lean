import EvmBridge.Ledger
import EvmBridge.Proofs.Numbers
import EvmBridge.Proofs.PrefixScan

/-! # Keys of the ledger's rows

The key order of header rows is the order of their heights (`headerKey_before_iff`), a header key
gives back its height and no other key gives one (`heightOfKey?_eq_some_iff`), and no key belongs to
both tables.
-/

namespace EvmBridge.Ledger
set_option autoImplicit false
open KeyOrder (before)

theorem toNat_ofNat_height (h : UInt64) : Bytes.toNat (Bytes.ofNat 8 h.toNat) = h.toNat := by
  rw [Bytes.toNat_ofNat]
  exact Nat.mod_eq_of_lt h.toNat_lt

/-! ## Header keys -/

theorem headerKey_before_iff {a b : UInt64} :
    before (headerKey a) (headerKey b) = true ↔ before a b = true := by
  have hl : (Bytes.ofNat 8 a.toNat).length = (Bytes.ofNat 8 b.toNat).length := by simp
  have h := Bytes.before_iff_toNat_lt hl
  rw [toNat_ofNat_height, toNat_ofNat_height] at h
  show Bytes.before _ _ = true ↔ decide (a.toNat < b.toNat) = true
  rw [headerKey, headerKey, Bytes.before_append, h, decide_eq_true_eq]

theorem headerKey_injective {a b : UInt64} (h : headerKey a = headerKey b) : a = b := by
  have h := congrArg Bytes.toNat (List.append_cancel_left h)
  rw [toNat_ofNat_height, toNat_ofNat_height] at h
  exact UInt64.toNat_inj.1 h

theorem isPrefixOf_headerKey (h : UInt64) : headerTable.isPrefixOf (headerKey h) = true := by
  simp [headerKey, List.isPrefixOf_iff_prefix]

/-- A key belongs to the header at a height exactly if it is that height's header key. -/
theorem heightOfKey?_eq_some_iff {key : Bytes} {h : UInt64} :
    heightOfKey? key = some h ↔ key = headerKey h := by
  constructor
  · intro hk
    unfold heightOfKey? at hk
    split at hk
    next hc =>
      obtain ⟨hp, hl⟩ := hc
      obtain ⟨raw, rfl⟩ := List.isPrefixOf_iff_prefix.1 hp
      have hraw : raw.length = 8 := by simpa using hl
      have hlt : Bytes.toNat raw < 2 ^ 64 := by simpa [hraw] using Bytes.toNat_lt raw
      cases hk
      rw [List.drop_left, headerKey, UInt64.toNat_ofNat_of_lt' hlt, ← hraw, Bytes.ofNat_toNat]
    · cases hk
  · rintro rfl
    unfold heightOfKey?
    rw [if_pos ⟨isPrefixOf_headerKey h, by simp [headerKey]⟩, headerKey, List.drop_left,
      toNat_ofNat_height, UInt64.ofNat_toNat]

/-! ## Record keys -/

theorem recordKey_before_iff {a b : Hash} :
    before (recordKey a) (recordKey b) = true ↔ before a b = true := by
  show Bytes.before _ _ = true ↔ Bytes.before _ _ = true
  rw [recordKey, recordKey, Bytes.before_append]

theorem recordKey_injective {a b : Hash} (h : recordKey a = recordKey b) : a = b :=
  FixedBytes.bytes_inj (List.append_cancel_left h)

theorem isPrefixOf_recordKey (hash : Hash) : recordTable.isPrefixOf (recordKey hash) = true := by
  simp [recordKey, List.isPrefixOf_iff_prefix]

/-! ## The two tables are apart -/

theorem not_isPrefixOf_recordTable {key : Bytes} (h : headerTable.isPrefixOf key = true) :
    recordTable.isPrefixOf key = false := by
  obtain ⟨raw, rfl⟩ := List.isPrefixOf_iff_prefix.1 h
  rfl

theorem not_isPrefixOf_headerTable {key : Bytes} (h : recordTable.isPrefixOf key = true) :
    headerTable.isPrefixOf key = false := by
  obtain ⟨raw, rfl⟩ := List.isPrefixOf_iff_prefix.1 h
  rfl

theorem headerKey_ne_recordKey (h : UInt64) (hash : Hash) : headerKey h ≠ recordKey hash := by
  intro he
  have hp := not_isPrefixOf_headerTable (isPrefixOf_recordKey hash)
  rw [← he, isPrefixOf_headerKey] at hp
  cases hp

end EvmBridge.Ledger
