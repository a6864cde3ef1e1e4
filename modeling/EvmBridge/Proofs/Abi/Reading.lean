import EvmBridge.Call
import EvmBridge.Proofs.Outcome

/-! # What reading calls comes from

Reading turned round: what stands behind values that were decoded, what all that can be wrong with the
arguments of a call is (`Method.Unreadable`), and where a platform transaction that a call names stands
in it (`Signatures.arguments_of_classify`).
-/

namespace EvmBridge
set_option autoImplicit false

/-! ## Decoded values -/

namespace Abi
variable {ts : List AbiType} {data : Bytes} {place : Nat} {vs : List AbiValue}

theorem exists_of_collect {α : Type} {read : Nat → Except AbiFault α} {count : Nat} {as : List α}
    (h : collect read count place = .ok as) :
    as.length = count ∧ ∀ a ∈ as, ∃ place, read place = .ok a := by
  induction count generalizing place as with
  | zero =>
    cases h
    exact ⟨rfl, fun _ ha => nomatch ha⟩
  | succ count ih =>
    obtain ⟨a, ha, h⟩ := exists_of_bind_eq_ok h
    obtain ⟨rest, hrest, h⟩ := exists_of_bind_eq_ok h
    cases h
    obtain ⟨hlength, hread⟩ := ih hrest
    exact ⟨congrArg (· + 1) hlength, List.forall_mem_cons.2 ⟨⟨place, ha⟩, hread⟩⟩

theorem decodeFrom_of_decode (h : decode ts data = .ok vs) : decodeFrom ts data 0 = .ok vs := by
  unfold decode at h
  split at h
  · cases h
  · exact h

theorem exists_of_decodeFrom (h : decodeFrom ts data place = .ok vs) :
    ∀ v ∈ vs, ∃ t place, decodeAt t data place = .ok v := by
  induction ts generalizing place vs with
  | nil =>
    cases h
    exact fun _ hv => nomatch hv
  | cons t ts ih =>
    obtain ⟨v, hv, h⟩ := exists_of_bind_eq_ok h
    obtain ⟨rest, hrest, h⟩ := exists_of_bind_eq_ok h
    cases h
    exact List.forall_mem_cons.2 ⟨⟨t, place, hv⟩, ih hrest⟩

end Abi

/-! ## Arguments -/

/-- Why no arguments of a method can be read from calldata. -/
inductive Method.Unreadable (m : Method) (input : Bytes) : CallFault → Prop
  | tooShort (hlength : input.length < 4) : Unreadable m input .tooShort
  | undecodable {fault : AbiFault} (hlength : 4 ≤ input.length)
    (hdecode : Abi.decode m.layout (input.drop 4) = .error fault) : Unreadable m input (.undecodable fault)

namespace Call
variable {m : Method} {input : Bytes} {vs : List AbiValue} {fault : CallFault}

theorem arguments_eq_error_iff : arguments m input = .error fault ↔ m.Unreadable input fault := by
  unfold arguments
  split
  next hlength =>
    constructor
    · intro h
      cases h
      exact .tooShort hlength
    · intro h
      cases h with
      | tooShort => rfl
      | undecodable hlength' => omega
  next hlength =>
    constructor
    · intro h
      unfold values at h
      cases hdecode : Abi.decode m.layout (input.drop 4) with
      | ok vs => rw [hdecode] at h; cases h
      | error f =>
        rw [hdecode] at h
        cases h
        exact .undecodable (by omega) hdecode
    · intro h
      cases h with
      | tooShort hlength' => omega
      | undecodable _ hdecode =>
        rw [values, hdecode]
        rfl

theorem values_of_arguments (h : arguments m input = .ok vs) :
    values m.layout (input.drop 4) = .ok vs := by
  unfold arguments at h
  split at h
  · cases h
  · exact h

/-- What always reads the arguments of a method fails only where there are none. -/
theorem bind_arguments_eq_error_iff {α : Type} {read : List AbiValue → Except CallFault α}
    (hread : ∀ vs, arguments m input = .ok vs → ∃ a, (arguments m input >>= read) = .ok a) :
    (arguments m input >>= read) = .error fault ↔ m.Unreadable input fault := by
  rw [← arguments_eq_error_iff]
  cases harguments : arguments m input with
  | error f =>
    constructor
    · intro h
      cases h
      rfl
    · intro h
      cases h
      rfl
  | ok vs =>
    obtain ⟨a, ha⟩ := hread vs harguments
    rw [harguments] at ha
    rw [ha]
    exact iff_of_false nofun nofun

theorem string_of_stringField {text : String} (h : stringField vs 0 = .ok text) :
    ∃ rest, vs = .string text :: rest := by
  unfold stringField field at h
  split at h
  next text' hread =>
    cases h
    cases vs with
    | nil => cases hread
    | cons v rest =>
      cases v with
      | string s =>
        cases hread
        exact ⟨rest, rfl⟩
      | address | uint | bool | bytes | array => cases hread
  · cases h

end Call

/-! ## Classified calls -/

namespace Signatures
variable {s : Signatures} {m : Method} {input : Bytes} {p : String}

theorem classify_eq_ofMethod (hmethod : s.methodOf? input = some m) (hm : m ≠ .crossOut)
    (hp : Call.platformTxHash m input = .ok p) : s.classify input = .ofMethod m p := by
  rw [classify, hmethod]
  cases m with
  | crossOut => exact absurd rfl hm
  | withdraw | managerChange | upgrade => simp only [hp]

/-- Calldata that names a platform transaction names it in its first argument. -/
theorem arguments_of_classify (h : (s.classify input).platformTxHash? = some p) :
    ∃ m rest, s.classify input = .ofMethod m p ∧ m ≠ .crossOut ∧ s.methodOf? input = some m ∧
      Call.arguments m input = .ok (.string p :: rest) := by
  unfold classify at h
  split at h
  · cases h
  · cases h
  next m hm hmethod =>
    split at h
    next text htext =>
      obtain ⟨vs, hvs, hfield⟩ := exists_of_bind_eq_ok htext
      obtain ⟨rest, rfl⟩ := Call.string_of_stringField hfield
      have hclass := classify_eq_ofMethod hmethod hm htext
      obtain rfl : text = p := by
        cases m with
        | crossOut => cases h
        | withdraw | managerChange | upgrade => exact Option.some.inj h
      exact ⟨m, rest, hclass, hm, hmethod, hvs⟩
    · cases h

end Signatures
end EvmBridge
