import Mathlib.Data.List.Forall2
import EvmBridge.Abi.Decode
import EvmBridge.Abi.Encode
import EvmBridge.Proofs.Numbers

/-! # Call values that are read back

Encoded values are read back by the types that they have (`Abi.decode_encode`). A value is found
through its head word and, unless it stands there itself, at its place in the tail, so the proof goes
over the types of the values, and over lists of values with the place that head and tail have reached
(`Abi.decodeFrom_of_stands`). The codec keeps places and lengths as numbers of 32 bits, and so the
encoding has to be shorter than 2³² bytes.
-/

namespace EvmBridge
set_option autoImplicit false

/-! ## Bytes at a place -/

namespace Bytes
variable {a b data : Bytes} {place : Nat}

/-- Whether bytes stand in data from a place on. -/
def Stands (b : Bytes) (place : Nat) (data : Bytes) : Prop :=
  ∃ before after, data = before ++ b ++ after ∧ before.length = place

theorem stands_self (b : Bytes) : Stands b 0 b := ⟨[], [], by simp, rfl⟩

theorem Stands.left (h : Stands (a ++ b) place data) : Stands a place data := by
  obtain ⟨before, after, rfl, hl⟩ := h
  exact ⟨before, b ++ after, by simp, hl⟩

theorem Stands.right (h : Stands (a ++ b) place data) : Stands b (place + a.length) data := by
  obtain ⟨before, after, rfl, rfl⟩ := h
  exact ⟨before ++ a, after, by simp, by simp⟩

theorem Stands.drop (h : Stands b place data) : Stands b 0 (data.drop place) := by
  obtain ⟨before, after, rfl, rfl⟩ := h
  exact ⟨[], after, by simp, rfl⟩

end Bytes

/-! ## Typed values -/

/-- The values of a type. A number may be of any size, whatever the bits of its type. -/
inductive AbiValue.HasType : AbiValue → AbiType → Prop
  | string (s : String) : HasType (.string s) .string
  | address (a : Address) : HasType (.address a) .address
  | uint (n : U256) (bits : Nat) : HasType (.uint n) (.uint bits)
  | bool (b : Bool) : HasType (.bool b) .bool
  | bytes (b : Bytes) : HasType (.bytes b) .bytes
  | array {vs : List AbiValue} {t : AbiType} (h : ∀ v ∈ vs, HasType v t) :
    HasType (.array vs) (.array t)

namespace Abi
open Bytes (Stands)

/-! ## Words -/

section Words
variable {b data : Bytes} {place n : Nat}

theorem slice_of_stands (h : Stands b place data) : slice data place b.length = .ok b := by
  obtain ⟨before, after, rfl, rfl⟩ := h
  simp [slice]

theorem length_word (n : Nat) : (word n).length = 32 := by simp [word]

theorem wordAt_of_stands (h : Stands b place data) (hl : b.length = 32) :
    wordAt data place = .ok b := by
  rw [wordAt, ← hl]
  exact slice_of_stands h

theorem sizeAt_of_stands (h : Stands (word n) place data) (hn : n < 2 ^ 32) :
    sizeAt data place = .ok n := by
  have htake : (word n).take 28 = Bytes.zeros 28 := List.take_left' (Bytes.length_zeros 28)
  have hdrop : (word n).drop 28 = Bytes.ofNat 4 n := List.drop_left' (Bytes.length_zeros 28)
  rw [sizeAt, wordAt_of_stands h (length_word n)]
  simp only [bind, Except.bind, htake, if_true, hdrop, Bytes.toNat_ofNat]
  exact congrArg Except.ok (Nat.mod_eq_of_lt hn)

theorem boolAt_of_stands {v : Bool} (h : Stands (word v.toNat) place data) :
    boolAt data place = .ok v := by
  rw [boolAt, wordAt_of_stands h (length_word _)]
  cases v <;> rfl

theorem length_counted (b : Bytes) : 32 + b.length ≤ (counted b).length := by
  simp only [counted, padded, List.length_append, length_word]
  omega

theorem countedAt_of_stands {start : Nat} (hplace : Stands (word start) place data)
    (h : Stands (counted b) start data) (hfits : start + (counted b).length < 2 ^ 32) :
    countedAt data place = .ok b := by
  have hlength := length_counted b
  have hsize := sizeAt_of_stands h.left (by omega)
  have hbytes := slice_of_stands h.right.left
  rw [length_word] at hbytes
  rw [countedAt, sizeAt_of_stands hplace (by omega)]
  simp only [bind, Except.bind, hsize, hbytes]

end Words

/-! ## Heads and tails -/

/-- What a part adds to the head, where the tail has reached a place. -/
def headOf (place : Nat) : AbiPart → Bytes
  | .inline w => w
  | .placed _ => word place

/-- What a part adds to the tail. -/
def tailOf : AbiPart → Bytes
  | .inline _ => []
  | .placed content => content

theorem heads_cons (place : Nat) (p : AbiPart) (ps : List AbiPart) :
    heads place (p :: ps) = headOf place p ++ heads (place + (tailOf p).length) ps := by
  cases p <;> rfl

theorem tails_cons (p : AbiPart) (ps : List AbiPart) : tails (p :: ps) = tailOf p ++ tails ps := by
  cases p <;> rfl

theorem length_headOf_part (place : Nat) (v : AbiValue) : (headOf place (part v)).length = 32 := by
  cases v with
  | string | bytes | array => exact length_word place
  | address a => simp [part, headOf, FixedBytes.word, a.length_bytes]
  | uint n => exact U256.length_toBytes n
  | bool b => exact length_word b.toNat

theorem length_partList (vs : List AbiValue) : (partList vs).length = vs.length := by
  induction vs with
  | nil => rfl
  | cons v vs ih => simp [partList, ih]

theorem length_heads_partList (place : Nat) (vs : List AbiValue) :
    (heads place (partList vs)).length = 32 * vs.length := by
  induction vs generalizing place with
  | nil => rfl
  | cons v vs ih =>
    rw [partList, heads_cons, List.length_append, length_headOf_part, ih, List.length_cons]
    omega

theorem length_encode (vs : List AbiValue) :
    (encode vs).length = 32 * vs.length + (tails (partList vs)).length := by
  rw [encode, assemble, List.length_append, length_heads_partList]

/-! ## Reading what was written -/

/-- Whether a type reads a value back wherever its head and its tail stand. -/
def ReadsBack (v : AbiValue) (t : AbiType) : Prop :=
  ∀ {data : Bytes} {place start : Nat}, Stands (headOf start (part v)) place data →
    Stands (tailOf (part v)) start data → start + (tailOf (part v)).length < 2 ^ 32 →
      decodeAt t data place = .ok v

theorem decodeFrom_of_stands {vs : List AbiValue} {ts : List AbiType}
    (h : List.Forall₂ ReadsBack vs ts) {data : Bytes} {place start : Nat}
    (hheads : Stands (heads start (partList vs)) place data)
    (htails : Stands (tails (partList vs)) start data)
    (hfits : start + (tails (partList vs)).length < 2 ^ 32) :
    decodeFrom ts data place = .ok vs := by
  -- On the values that are left: each moves on by a word in the head and by its tail.
  induction h generalizing place start with
  | nil => rfl
  | @cons v t vs ts hv _ ih =>
    rw [partList, heads_cons] at hheads
    rw [partList, tails_cons] at htails hfits
    rw [List.length_append] at hfits
    have hfirst := hv hheads.left htails.left (by omega)
    have hnext := hheads.right
    rw [length_headOf_part] at hnext
    have hrest := ih hnext htails.right (by omega)
    rw [decodeFrom, hfirst]
    simp only [bind, Except.bind, hrest]
    rfl

/-- An array is read as that many values of its element's type. -/
theorem collect_eq_decodeFrom (t : AbiType) (data : Bytes) (count place : Nat) :
    collect (decodeAt t data) count place = decodeFrom (List.replicate count t) data place := by
  induction count generalizing place with
  | zero => rfl
  | succ count ih => simp only [collect, List.replicate_succ, decodeFrom, ih]

theorem decodeFrom_encode {vs : List AbiValue} {ts : List AbiType}
    (h : List.Forall₂ ReadsBack vs ts) {data : Bytes} (hdata : Stands (encode vs) 0 data)
    (hfits : (encode vs).length < 2 ^ 32) : decodeFrom ts data 0 = .ok vs := by
  have hheads := hdata.left
  have htails := hdata.right
  rw [length_partList] at hheads htails
  rw [length_heads_partList, Nat.zero_add] at htails
  rw [length_encode] at hfits
  exact decodeFrom_of_stands h hheads htails hfits

theorem forall₂_replicate {vs : List AbiValue} {t : AbiType} (h : ∀ v ∈ vs, ReadsBack v t) :
    List.Forall₂ ReadsBack vs (List.replicate vs.length t) := by
  induction vs with
  | nil => exact .nil
  | cons v vs ih =>
    exact .cons (h v (List.mem_cons_self ..)) (ih fun v' hv => h v' (List.mem_cons_of_mem _ hv))

theorem readsBack_array {vs : List AbiValue} {t : AbiType} (h : ∀ v ∈ vs, ReadsBack v t) :
    ReadsBack (.array vs) (.array t) := by
  intro data place start hhead htail hfits
  have hall := forall₂_replicate h
  have hcontent : tailOf (part (.array vs)) = word vs.length ++ encode vs := rfl
  rw [hcontent, List.length_append, length_word] at hfits
  rw [hcontent] at htail
  have hlength := length_encode vs
  -- The places of the elements are counted from behind the array's length.
  have helements := htail.right.drop
  rw [length_word] at helements
  rw [decodeAt, sizeAt_of_stands hhead (by omega)]
  simp only [bind, Except.bind]
  rw [sizeAt_of_stands htail.left (by omega)]
  simp only [collect_eq_decodeFrom, decodeFrom_encode hall helements (by omega)]
  rfl

theorem readsBack_of_hasType {v : AbiValue} {t : AbiType} (h : v.HasType t) : ReadsBack v t := by
  induction h with
  | string s =>
    intro data place start hhead htail hfits
    rw [decodeAt, countedAt_of_stands hhead htail hfits]
    exact congrArg (fun s => Except.ok (AbiValue.string s)) (Utf8.decodeLossy_encode s)
  | bytes b =>
    intro data place start hhead htail hfits
    rw [decodeAt, countedAt_of_stands hhead htail hfits]
    rfl
  | address a =>
    intro data place start hhead _ _
    rw [decodeAt, wordAt_of_stands hhead (length_headOf_part start (.address a))]
    exact congrArg (fun a => Except.ok (AbiValue.address a)) (FixedBytes.low_word (by decide) a)
  | uint n bits =>
    intro data place start hhead _ _
    rw [decodeAt, wordAt_of_stands hhead (length_headOf_part start (.uint n))]
    exact congrArg (fun n => Except.ok (AbiValue.uint n)) (U256.ofBytes_toBytes n)
  | bool b =>
    intro data place start hhead _ _
    rw [decodeAt, boolAt_of_stands hhead]
    rfl
  | array _ ih => exact readsBack_array ih

/-- Values are read back by their types. -/
theorem decode_encode {vs : List AbiValue} {ts : List AbiType}
    (h : List.Forall₂ AbiValue.HasType vs ts) (hfits : (encode vs).length < 2 ^ 32) :
    decode ts (encode vs) = .ok vs := by
  -- A value takes a word at least, so that there are bytes if there are types.
  have hdata : ¬((encode vs).isEmpty = true ∧ ¬ts.isEmpty = true) := by
    rintro ⟨hempty, hts⟩
    have hlength := length_encode vs
    rw [List.isEmpty_iff.1 hempty] at hlength
    have hts' : ts.length = 0 := by
      rw [← h.length_eq]
      simp at hlength
      omega
    exact hts (List.isEmpty_iff.2 (List.length_eq_zero_iff.1 hts'))
  rw [decode, if_neg hdata]
  exact decodeFrom_encode (h.imp fun _ _ => readsBack_of_hasType) (Bytes.stands_self _) hfits

end Abi
end EvmBridge
