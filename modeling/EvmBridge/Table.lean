import EvmBridge.FixedBytes

/-! # Tables in key order

A finite map kept as its entries in ascending key order, so that two tables with the same entries
are equal and a listing needs no sorting.

* `KeyOrder`: keys with a strict total order; instances for byte strings (lexicographic), texts (by
  their UTF-8 bytes), fixed byte strings and fixed-width numbers.
* `Table`: the entries, with the proof that their keys ascend.
* `Table.get?`, `Table.insert`, `Table.erase`, `Table.filter`: the operations, each described by
  what `get?` answers afterwards (`get?_insert`, `get?_erase`, `get?_filter`).
* `Table.scan`: the entries from the first key that is not before a given one, as long as they
  satisfy a condition.
* `Table.ext_get?`: two tables that answer alike are equal.
-/

namespace EvmBridge
set_option autoImplicit false

/-! ## Ordered keys -/

/-- Keys in a strict total order. -/
class KeyOrder (κ : Type) where
  before : κ → κ → Bool
  before_irrefl : ∀ a, before a a = false
  before_trans : ∀ {a b c}, before a b = true → before b c = true → before a c = true
  before_connected : ∀ {a b}, before a b = false → before b a = false → a = b

open KeyOrder (before)

/-- The order of an injective image. -/
@[reducible] def KeyOrder.lift {κ ι : Type} [KeyOrder ι] (f : κ → ι)
    (inj : ∀ {a b}, f a = f b → a = b) : KeyOrder κ where
  before a b := before (f a) (f b)
  before_irrefl a := before_irrefl (f a)
  before_trans h₁ h₂ := before_trans h₁ h₂
  before_connected h₁ h₂ := inj (before_connected h₁ h₂)

instance : KeyOrder Bytes where
  before := Bytes.before
  before_irrefl := Bytes.before_irrefl
  before_trans := Bytes.before_trans
  before_connected := Bytes.before_connected

instance : KeyOrder Nat where
  before a b := decide (a < b)
  before_irrefl a := by simp
  before_trans h₁ h₂ := by simp at *; omega
  before_connected h₁ h₂ := by simp at *; omega

instance : KeyOrder String := .lift Utf8.encode Utf8.encode_injective

instance (n : Nat) : KeyOrder (FixedBytes n) := .lift FixedBytes.bytes FixedBytes.bytes_inj

instance : KeyOrder UInt16 := .lift UInt16.toNat UInt16.toNat_inj.1

instance : KeyOrder UInt32 := .lift UInt32.toNat UInt32.toNat_inj.1

instance : KeyOrder UInt64 := .lift UInt64.toNat UInt64.toNat_inj.1

section Order
variable {κ : Type} [KeyOrder κ]

theorem before_asymm {a b : κ} (h : before a b = true) : before b a = false := by
  cases hb : before b a with
  | false => rfl
  | true =>
    have := KeyOrder.before_trans h hb
    rw [KeyOrder.before_irrefl] at this
    cases this

theorem ne_of_before {a b : κ} (h : before a b = true) : a ≠ b := by
  rintro rfl
  rw [KeyOrder.before_irrefl] at h
  cases h

end Order

/-! ## Tables -/

/-- A finite map: its entries, with ascending keys. -/
structure Table (κ β : Type) [KeyOrder κ] where
  entries : List (κ × β)
  ascending : entries.Pairwise fun a b => before a.1 b.1 = true

namespace Table
variable {κ β : Type} [KeyOrder κ]

theorem ext_entries {s t : Table κ β} (h : s.entries = t.entries) : s = t := by
  cases s; cases t; cases h; rfl

/-- No entries. -/
def empty : Table κ β := ⟨[], .nil⟩

instance : Inhabited (Table κ β) := ⟨empty⟩

/-- The keys in ascending order. -/
def keys (t : Table κ β) : List κ := t.entries.map (·.1)

/-- The values in the order of their keys. -/
def values (t : Table κ β) : List β := t.entries.map (·.2)

/-- The number of entries. -/
def size (t : Table κ β) : Nat := t.entries.length

/-- The value of a key in a list of entries. -/
def lookupIn [DecidableEq κ] (k : κ) : List (κ × β) → Option β
  | [] => none
  | e :: es => if e.1 = k then some e.2 else lookupIn k es

/-- The value of a key. -/
def get? [DecidableEq κ] (t : Table κ β) (k : κ) : Option β := lookupIn k t.entries

/-- Whether a key has a value. -/
def contains [DecidableEq κ] (t : Table κ β) (k : κ) : Bool := (t.get? k).isSome

/-! ### Insertion -/

/-- Entries with one more, in its place, instead of any entry of the same key. -/
def insertIn (k : κ) (v : β) : List (κ × β) → List (κ × β)
  | [] => [(k, v)]
  | e :: es =>
    if before k e.1 then (k, v) :: e :: es
    else if before e.1 k then e :: insertIn k v es
    else (k, v) :: es

theorem mem_insertIn {k : κ} {v : β} {es : List (κ × β)} {a : κ × β}
    (h : a ∈ insertIn k v es) : a = (k, v) ∨ a ∈ es := by
  induction es with
  | nil => simpa [insertIn] using h
  | cons e es ih =>
    rw [insertIn] at h
    split at h
    · simpa using h
    split at h
    · rcases List.mem_cons.1 h with rfl | h
      · simp
      · rcases ih h with rfl | h <;> simp_all
    · rcases List.mem_cons.1 h with rfl | h <;> simp_all

theorem ascending_insertIn (k : κ) (v : β) {es : List (κ × β)}
    (h : es.Pairwise fun a b => before a.1 b.1 = true) :
    (insertIn k v es).Pairwise fun a b => before a.1 b.1 = true := by
  induction es with
  | nil => simp [insertIn]
  | cons e es ih =>
    have he := (List.pairwise_cons.1 h).1
    rw [insertIn]
    split
    next hk =>
      refine List.pairwise_cons.2 ⟨?_, h⟩
      intro a ha
      rcases List.mem_cons.1 ha with rfl | ha
      · exact hk
      · exact KeyOrder.before_trans hk (he _ ha)
    next hk =>
      split
      next hk' =>
        refine List.pairwise_cons.2 ⟨?_, ih (List.Pairwise.of_cons h)⟩
        intro a ha
        rcases mem_insertIn ha with rfl | ha
        · exact hk'
        · exact he _ ha
      next hk' =>
        have : k = e.1 :=
          KeyOrder.before_connected (by simpa using hk) (by simpa using hk')
        subst this
        exact List.pairwise_cons.2 ⟨fun a ha => he _ ha, List.Pairwise.of_cons h⟩

/-- The table with a value for a key, instead of any it had. -/
def insert (t : Table κ β) (k : κ) (v : β) : Table κ β :=
  ⟨insertIn k v t.entries, ascending_insertIn k v t.ascending⟩

/-- The table of a list of entries, the later one winning where two have the same key. -/
def ofList (es : List (κ × β)) : Table κ β := es.foldl (fun t e => t.insert e.1 e.2) empty

/-! ### Removal -/

/-- The entries that satisfy a condition. -/
def filter (t : Table κ β) (p : κ → β → Bool) : Table κ β :=
  ⟨t.entries.filter fun e => p e.1 e.2, t.ascending.filter _⟩

/-- The table without a key. -/
def erase [DecidableEq κ] (t : Table κ β) (k : κ) : Table κ β := t.filter fun k' _ => k' ≠ k

/-! ### Listing a stretch of keys -/

/-- The entries from the first key that is not before `start`, as long as their keys satisfy a
condition. -/
def scan (t : Table κ β) (start : κ) (p : κ → Bool) : List (κ × β) :=
  (t.entries.dropWhile fun e => before e.1 start).takeWhile fun e => p e.1

/-- The entry of the greatest key. -/
def last? (t : Table κ β) : Option (κ × β) := t.entries.getLast?

/-! ### What the operations do to look-ups -/

section Lookup
variable [DecidableEq κ]

theorem lookupIn_insertIn (k : κ) (v : β) (es : List (κ × β)) (k' : κ) :
    lookupIn k' (insertIn k v es) = if k = k' then some v else lookupIn k' es := by
  induction es with
  | nil => rfl
  | cons e es ih =>
    rw [insertIn]
    split
    · rfl
    next hk =>
      split
      next hk' =>
        have hne : e.1 ≠ k := ne_of_before hk'
        rw [lookupIn, ih, lookupIn]
        by_cases hek : e.1 = k'
        · rw [if_pos hek, if_pos hek, if_neg (fun h => hne (hek.trans h.symm))]
        · rw [if_neg hek, if_neg hek]
      next hk' =>
        have : k = e.1 :=
          KeyOrder.before_connected (by simpa using hk) (by simpa using hk')
        subst this
        rw [lookupIn, lookupIn]
        by_cases hek : e.1 = k'
        · rw [if_pos hek, if_pos hek]
        · rw [if_neg hek, if_neg hek, if_neg hek]

theorem get?_empty (k : κ) : (empty : Table κ β).get? k = none := rfl

theorem get?_insert (t : Table κ β) (k : κ) (v : β) (k' : κ) :
    (t.insert k v).get? k' = if k = k' then some v else t.get? k' :=
  lookupIn_insertIn k v t.entries k'

/-- A key looks up a value exactly if the table has that entry. -/
theorem get?_eq_some_iff (t : Table κ β) (k : κ) (v : β) :
    t.get? k = some v ↔ (k, v) ∈ t.entries := by
  obtain ⟨es, hs⟩ := t
  show lookupIn k es = some v ↔ (k, v) ∈ es
  induction es with
  | nil => simp [lookupIn]
  | cons e es ih =>
    have he := (List.pairwise_cons.1 hs).1
    have ih := ih (List.Pairwise.of_cons hs)
    rw [lookupIn]
    by_cases hk : e.1 = k
    · rw [if_pos hk, List.mem_cons]
      constructor
      · intro h
        cases h
        exact .inl (Prod.ext hk.symm rfl)
      · rintro (h | h)
        · rw [← h]
        · exact absurd hk (ne_of_before (he _ h))
    · rw [if_neg hk, ih, List.mem_cons]
      constructor
      · exact .inr
      · rintro (h | h)
        · exact absurd (congrArg Prod.fst h).symm hk
        · exact h

theorem get?_eq_none_iff (t : Table κ β) (k : κ) : t.get? k = none ↔ ∀ v, (k, v) ∉ t.entries := by
  constructor
  · intro h v hm
    rw [(t.get?_eq_some_iff k v).2 hm] at h
    cases h
  · intro h
    cases hg : t.get? k with
    | none => rfl
    | some v => exact absurd ((t.get?_eq_some_iff k v).1 hg) (h v)

theorem get?_filter (t : Table κ β) (p : κ → β → Bool) (k : κ) :
    (t.filter p).get? k = (t.get? k).filter (p k) := by
  cases hg : t.get? k with
  | none =>
    rw [get?_eq_none_iff] at hg
    rw [Option.filter_none, get?_eq_none_iff]
    intro v hv
    exact hg v (List.mem_filter.1 hv).1
  | some v =>
    rw [get?_eq_some_iff] at hg
    by_cases hp : p k v = true
    · rw [Option.filter_some, if_pos hp, get?_eq_some_iff]
      exact List.mem_filter.2 ⟨hg, hp⟩
    · rw [Option.filter_some, if_neg hp, get?_eq_none_iff]
      intro w hw
      have hm := List.mem_filter.1 hw
      have hvw : some w = some v := by
        rw [← (t.get?_eq_some_iff k w).2 hm.1, (t.get?_eq_some_iff k v).2 hg]
      cases hvw
      exact hp hm.2

theorem get?_erase (t : Table κ β) (k k' : κ) :
    (t.erase k).get? k' = if k = k' then none else t.get? k' := by
  rw [erase, get?_filter]
  by_cases h : k = k'
  · subst h
    cases t.get? k <;> simp [Option.filter]
  · rw [if_neg h]
    cases t.get? k' <;> simp [Option.filter, Ne.symm h]

/-- Tables that answer every look-up alike are equal. -/
theorem ext_get? {s t : Table κ β} (h : ∀ k, s.get? k = t.get? k) : s = t := by
  apply ext_entries
  have hm : ∀ e, e ∈ s.entries ↔ e ∈ t.entries := by
    rintro ⟨k, v⟩
    rw [← get?_eq_some_iff, ← get?_eq_some_iff, h]
  obtain ⟨es, hs⟩ := s
  obtain ⟨fs, ht⟩ := t
  simp only at hm ⊢
  clear h
  induction es generalizing fs with
  | nil => cases fs with
    | nil => rfl
    | cons f fs => exact absurd ((hm f).2 List.mem_cons_self) List.not_mem_nil
  | cons e es ih => cases fs with
    | nil => exact absurd ((hm e).1 List.mem_cons_self) List.not_mem_nil
    | cons f fs =>
      have he := (List.pairwise_cons.1 hs).1
      have hf := (List.pairwise_cons.1 ht).1
      have hef : e = f := by
        rcases List.mem_cons.1 ((hm e).1 List.mem_cons_self) with h | h
        · exact h
        rcases List.mem_cons.1 ((hm f).2 List.mem_cons_self) with h' | h'
        · exact h'.symm
        · exact absurd (hf _ h) (by rw [before_asymm (he _ h')]; simp)
      subst hef
      rw [ih (List.Pairwise.of_cons hs) fs (List.Pairwise.of_cons ht)]
      intro a
      constructor
      · intro ha
        rcases List.mem_cons.1 ((hm a).1 (List.mem_cons_of_mem _ ha)) with rfl | h
        · exact absurd rfl (ne_of_before (he _ ha))
        · exact h
      · intro ha
        rcases List.mem_cons.1 ((hm a).2 (List.mem_cons_of_mem _ ha)) with rfl | h
        · exact absurd rfl (ne_of_before (hf _ ha))
        · exact h

end Lookup
end Table
end EvmBridge
