import EvmBridge.Proofs.Abi.Reading
import EvmBridge.Proofs.Abi.RoundTrip

/-! # What decoded arguments are

Whatever the bytes are, values that decode have the types asked for (`Call.forall₂_of_arguments`). So the
readers of single arguments never meet a value of another type.
-/

namespace EvmBridge
set_option autoImplicit false
open AbiValue (HasType)

/-! ## Types of decoded values -/

namespace Abi
variable {ts : List AbiType} {data : Bytes} {place : Nat} {vs : List AbiValue}

theorem hasType_of_decodeAt {t : AbiType} {v : AbiValue} (h : decodeAt t data place = .ok v) :
    v.HasType t := by
  induction t generalizing data place v with
  | string =>
    obtain ⟨b, -, h⟩ := exists_of_bind_eq_ok h
    cases h
    exact .string _
  | address =>
    obtain ⟨w, -, h⟩ := exists_of_bind_eq_ok h
    cases h
    exact .address _
  | uint bits =>
    obtain ⟨w, -, h⟩ := exists_of_bind_eq_ok h
    cases h
    exact .uint _ bits
  | bool =>
    obtain ⟨b, -, h⟩ := exists_of_bind_eq_ok h
    cases h
    exact .bool _
  | bytes =>
    obtain ⟨b, -, h⟩ := exists_of_bind_eq_ok h
    cases h
    exact .bytes _
  | array element ih =>
    obtain ⟨start, -, h⟩ := exists_of_bind_eq_ok h
    obtain ⟨count, -, h⟩ := exists_of_bind_eq_ok h
    obtain ⟨vs, hvs, h⟩ := exists_of_bind_eq_ok h
    cases h
    -- The elements are read in other data, so the hypothesis is for all data and places.
    refine .array fun v hv => ?_
    obtain ⟨place, hv⟩ := (exists_of_collect hvs).2 v hv
    exact ih hv

theorem forall₂_of_decodeFrom (h : decodeFrom ts data place = .ok vs) : List.Forall₂ HasType vs ts := by
  induction ts generalizing place vs with
  | nil =>
    cases h
    exact .nil
  | cons t ts ih =>
    obtain ⟨v, hv, h⟩ := exists_of_bind_eq_ok h
    obtain ⟨rest, hrest, h⟩ := exists_of_bind_eq_ok h
    cases h
    exact .cons (hasType_of_decodeAt hv) (ih hrest)

end Abi

/-! ## Values of a type -/

namespace AbiValue
variable {v : AbiValue}

theorem HasType.exists_string (h : v.HasType .string) : ∃ s, v.string? = some s := by
  cases h with
  | string s => exact ⟨s, rfl⟩

theorem HasType.exists_address (h : v.HasType .address) : ∃ a, v.address? = some a := by
  cases h with
  | address a => exact ⟨a, rfl⟩

theorem HasType.exists_uint {bits : Nat} (h : v.HasType (.uint bits)) : ∃ n, v.uint? = some n := by
  cases h with
  | uint n => exact ⟨n, rfl⟩

theorem exists_map_address {vs : List AbiValue} (h : ∀ v ∈ vs, v.HasType .address) :
    ∃ as : List Address, vs = as.map .address := by
  induction vs with
  | nil => exact ⟨[], rfl⟩
  | cons v vs ih =>
    obtain ⟨as, rfl⟩ := ih fun v' hv => h v' (List.mem_cons_of_mem _ hv)
    cases h v (List.mem_cons_self ..) with
    | address a => exact ⟨a :: as, rfl⟩

theorem addresses?_map (as : List Address) : (array (as.map address)).addresses? = some as := by
  rw [addresses?]
  induction as with
  | nil => rfl
  | cons a as ih =>
    rw [List.map_cons, List.mapM_cons, ih]
    rfl

theorem HasType.exists_addresses (h : v.HasType (.array .address)) : ∃ as, v.addresses? = some as := by
  cases h with
  | array h =>
    obtain ⟨as, rfl⟩ := exists_map_address h
    exact ⟨as, addresses?_map as⟩

end AbiValue

/-! ## Arguments of calls -/

namespace Call
variable {m : Method} {input : Bytes} {vs : List AbiValue}

theorem forall₂_of_arguments (h : arguments m input = .ok vs) : List.Forall₂ HasType vs m.layout :=
  Abi.forall₂_of_decodeFrom (Abi.decodeFrom_of_decode (ok_of_mapError (values_of_arguments h)))

/-- A reader finds something at the place of a type that suits it. -/
theorem exists_field {α : Type} {read : AbiValue → Option α} {expected : String} {ts : List AbiType}
    {t : AbiType} {i : Nat} (h : List.Forall₂ HasType vs ts) (ht : ts[i]? = some t)
    (hread : ∀ {v : AbiValue}, v.HasType t → ∃ a, read v = some a) :
    ∃ a, field read expected vs i = .ok a := by
  induction h generalizing i with
  | nil => cases ht
  | cons hv _ ih =>
    cases i with
    | zero =>
      cases ht
      obtain ⟨a, ha⟩ := hread hv
      exact ⟨a, by simp [field, ha]⟩
    | succ i => exact ih ht

theorem exists_platformTxHash (h : arguments m input = .ok vs) :
    ∃ p, platformTxHash m input = .ok p := by
  have hfirst : m.layout[0]? = some .string := by cases m <;> rfl
  obtain ⟨p, hp⟩ : ∃ p, stringField vs 0 = .ok p :=
    exists_field (forall₂_of_arguments h) hfirst HasType.exists_string
  refine ⟨p, ?_⟩
  rw [platformTxHash, h]
  exact hp

theorem exists_crossOut (h : arguments .crossOut input = .ok vs) : ∃ args, crossOut input = .ok args := by
  have ht := forall₂_of_arguments h
  obtain ⟨recipient, hr⟩ : ∃ a, stringField vs 0 = .ok a := exists_field ht rfl HasType.exists_string
  obtain ⟨amount, ha⟩ : ∃ n, uintField vs 1 = .ok n := exists_field ht rfl HasType.exists_uint
  obtain ⟨token, hc⟩ : ∃ a, addressField vs 2 = .ok a := exists_field ht rfl HasType.exists_address
  refine ⟨⟨recipient, amount, token⟩, ?_⟩
  simp only [crossOut, h, hr, ha, hc, bind, Except.bind, pure, Except.pure]

theorem exists_managerChange (h : arguments .managerChange input = .ok vs) :
    ∃ args, managerChange input = .ok args ∧ stringField vs 0 = .ok args.platformTxHash := by
  have ht := forall₂_of_arguments h
  obtain ⟨p, hp⟩ : ∃ p, stringField vs 0 = .ok p := exists_field ht rfl HasType.exists_string
  obtain ⟨added, ha⟩ : ∃ as, addressesField vs 1 = .ok as :=
    exists_field ht rfl HasType.exists_addresses
  obtain ⟨removed, hr⟩ : ∃ as, addressesField vs 2 = .ok as :=
    exists_field ht rfl HasType.exists_addresses
  refine ⟨⟨p, added, removed⟩, ?_, hp⟩
  simp only [managerChange, h, hp, ha, hr, bind, Except.bind, pure, Except.pure]

/-- A view returns a truth value exactly if its output decodes to that value alone. -/
theorem boolResult_eq_ok_iff {output : Bytes} {value : Bool} :
    boolResult output = .ok value ↔ Abi.decode [.bool] output = .ok [.bool value] := by
  constructor
  · intro h
    obtain ⟨vs, hvs, h⟩ := exists_of_bind_eq_ok h
    have hdecode : Abi.decode [.bool] output = .ok vs := ok_of_mapError hvs
    cases Abi.forall₂_of_decodeFrom (Abi.decodeFrom_of_decode hdecode) with
    | cons hv hrest =>
      cases hrest
      cases hv with
      | bool found =>
        cases h
        exact hdecode
  · intro h
    rw [boolResult, values, h]
    rfl

end Call

end EvmBridge
