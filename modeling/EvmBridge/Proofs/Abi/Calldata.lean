import Mathlib.Data.List.Nodup
import EvmBridge.Proofs.Abi.Arguments
import EvmBridge.Sample

/-! # Calls that are read back

Calldata made of a method and arguments of its types is taken for that method and gives the same
arguments back, as long as the methods have different selectors (`Signatures.Calls.read_back`). The
sample calls are made in that way.
-/

namespace EvmBridge
set_option autoImplicit false
open AbiValue (HasType)

/-- Whether calldata calls a method with these arguments, each of its type. -/
structure Signatures.Calls (s : Signatures) (m : Method) (vs : List AbiValue) (input : Bytes) :
    Prop where
  typed : List.Forall₂ HasType vs m.layout
  encoded : input = Abi.encodeCall (s.selector m) vs

/-- What a call of a method asks for, by the first of its arguments. -/
inductive Method.Asks (first : String) : Method → Intent → Prop
  | withdraw : Asks first .withdraw (.withdrawal first)
  | managerChange : Asks first .managerChange (.membershipChange first)
  | upgrade : Asks first .upgrade (.upgradeAuthorization first)
  | crossOut : Asks first .crossOut .crossOut

theorem Method.asks_ofMethod (m : Method) (first : String) : m.Asks first (.ofMethod m first) := by
  cases m with
  | withdraw => exact .withdraw
  | managerChange => exact .managerChange
  | upgrade => exact .upgrade
  | crossOut => exact .crossOut

/-! ## Lists of addresses -/

theorem AbiValue.hasType_addresses (as : List Address) :
    HasType (.array (as.map .address)) (.array .address) := by
  refine .array fun v hv => ?_
  obtain ⟨a, -, rfl⟩ := List.mem_map.1 hv
  exact .address a

theorem Call.addressesField_eq {vs : List AbiValue} {i : Nat} {as : List Address}
    (h : vs[i]? = some (.array (as.map .address))) : addressesField vs i = .ok as := by
  rw [addressesField, field, h, Option.bind_some, AbiValue.addresses?_map]

theorem Call.values_encode {vs : List AbiValue} {ts : List AbiType} (h : List.Forall₂ HasType vs ts)
    (hfits : (Abi.encode vs).length < 2 ^ 32) : values ts (Abi.encode vs) = .ok vs := by
  rw [values, Abi.decode_encode h hfits]
  rfl

/-! ## The sample calls -/

namespace Sample

theorem calls_withdrawCall (platformTxHash : String) :
    signatures.Calls .withdraw
      [.string platformTxHash, .address user, .uint 1, .bool false, .address .zero,
        .bytes (List.replicate 65 0x5A)] (withdrawCall platformTxHash) :=
  ⟨.cons (.string _) (.cons (.address _) (.cons (.uint _ _) (.cons (.bool _) (.cons (.address _)
    (.cons (.bytes _) .nil))))), rfl⟩

theorem calls_crossOutCall (recipient : String) (amount : U256) (token : Address) :
    signatures.Calls .crossOut [.string recipient, .uint amount, .address token]
      (crossOutCall recipient amount token) :=
  ⟨.cons (.string _) (.cons (.uint _ _) (.cons (.address _) .nil)), rfl⟩

theorem calls_managerChangeCall (platformTxHash : String) (added removed : List Address) :
    signatures.Calls .managerChange
      [.string platformTxHash, .array (added.map .address), .array (removed.map .address), .uint 1,
        .bytes []] (managerChangeCall platformTxHash added removed) :=
  ⟨.cons (.string _) (.cons (AbiValue.hasType_addresses added)
    (.cons (AbiValue.hasType_addresses removed) (.cons (.uint _ _) (.cons (.bytes _) .nil)))), rfl⟩

theorem calls_upgradeCall (platformTxHash : String) (contract : Address) :
    signatures.Calls .upgrade [.string platformTxHash, .address contract, .bytes []]
      (upgradeCall platformTxHash contract) :=
  ⟨.cons (.string _) (.cons (.address _) (.cons (.bytes _) .nil)), rfl⟩

end Sample

/-- The methods of the canonical signatures have different selectors. -/
theorem Signatures.nodup_standard : (Method.all.map standard.selector).Nodup := by
  decide +kernel

namespace Signatures.Calls
variable {s : Signatures} {m : Method} {vs : List AbiValue} {input : Bytes}

/-! ## Selector and arguments -/

theorem length_le (h : s.Calls m vs input) : 4 ≤ input.length := by
  rw [h.encoded, Abi.encodeCall, List.length_append, (s.selector m).length_bytes]
  omega

theorem take_eq (h : s.Calls m vs input) : input.take 4 = (s.selector m).bytes := by
  rw [h.encoded, Abi.encodeCall, List.take_left' (s.selector m).length_bytes]

theorem drop_eq (h : s.Calls m vs input) : input.drop 4 = Abi.encode vs := by
  rw [h.encoded, Abi.encodeCall, List.drop_left' (s.selector m).length_bytes]

theorem methodOf?_eq (h : s.Calls m vs input) (hd : (Method.all.map s.selector).Nodup) :
    s.methodOf? input = some m := by
  have hall : ∀ m : Method, m ∈ Method.all := fun m => by cases m <;> decide
  have hsame : ∀ m', (s.selector m').bytes = (s.selector m).bytes ↔ m' = m := fun m' =>
    ⟨fun he => List.inj_on_of_nodup_map hd (hall m') (hall m) (FixedBytes.bytes_inj he),
      fun he => he ▸ rfl⟩
  rw [methodOf?, if_neg (Nat.not_lt.2 h.length_le), h.take_eq]
  simp only [hsame]
  cases m <;> rfl

theorem arguments_eq (h : s.Calls m vs input) (hfits : input.length < 2 ^ 32) :
    Call.arguments m input = .ok vs := by
  have hencode : (Abi.encode vs).length < 2 ^ 32 := by
    rw [← h.drop_eq, List.length_drop]
    omega
  rw [Call.arguments, if_neg (Nat.not_lt.2 h.length_le), h.drop_eq,
    Call.values_encode h.typed hencode]

/-! ## What the bridge uses of the arguments -/

theorem exists_first (h : s.Calls m vs input) : ∃ first rest, vs = .string first :: rest := by
  have ht := h.typed
  cases m with
  | withdraw | managerChange | upgrade | crossOut =>
    match vs, ht with
    | _, .cons (.string first) _ => exact ⟨first, _, rfl⟩

theorem classify_eq (h : s.Calls m vs input) (hd : (Method.all.map s.selector).Nodup)
    (hfits : input.length < 2 ^ 32) {first : String} {rest : List AbiValue}
    (hvs : vs = .string first :: rest) : s.classify input = .ofMethod m first := by
  have hhash : Call.platformTxHash m input = .ok first := by
    rw [Call.platformTxHash, h.arguments_eq hfits, hvs]
    rfl
  cases m with
  | crossOut =>
    rw [classify, h.methodOf?_eq hd]
    rfl
  | withdraw | managerChange | upgrade =>
    exact classify_eq_ofMethod (h.methodOf?_eq hd) (by decide) hhash

theorem crossOut_eq (h : s.Calls .crossOut vs input) (hfits : input.length < 2 ^ 32) :
    ∃ recipient amount token, vs = [.string recipient, .uint amount, .address token] ∧
      Call.crossOut input = .ok ⟨recipient, amount, token⟩ := by
  have harguments := h.arguments_eq hfits
  match vs, h.typed, harguments with
  | _, .cons (.string recipient) (.cons (.uint amount _) (.cons (.address token) .nil)), harguments =>
    refine ⟨recipient, amount, token, rfl, ?_⟩
    rw [Call.crossOut, harguments]
    rfl

theorem managerChange_eq (h : s.Calls .managerChange vs input) (hfits : input.length < 2 ^ 32) :
    ∃ hash added removed count payload,
      vs = [.string hash, .array (added.map .address), .array (removed.map .address), .uint count,
        .bytes payload] ∧
      Call.managerChange input = .ok ⟨hash, added, removed⟩ := by
  have harguments := h.arguments_eq hfits
  match vs, h.typed, harguments with
  | _, .cons (.string hash) (.cons (.array hadded) (.cons (.array hremoved)
      (.cons (.uint count _) (.cons (.bytes payload) .nil)))), harguments =>
    obtain ⟨added, rfl⟩ := AbiValue.exists_map_address hadded
    obtain ⟨removed, rfl⟩ := AbiValue.exists_map_address hremoved
    refine ⟨hash, added, removed, count, payload, rfl, ?_⟩
    rw [Call.managerChange, harguments]
    simp only [bind, Except.bind]
    rw [Call.addressesField_eq rfl, Call.addressesField_eq rfl]
    rfl

/-- Calldata gives back the method and the arguments that it was made of. The codec keeps places and
lengths as numbers of 32 bits, so the calldata has to be shorter than 2³² bytes. -/
theorem read_back (h : s.Calls m vs input) (hd : (Method.all.map s.selector).Nodup)
    (hfits : input.length < 2 ^ 32) :
    s.methodOf? input = some m ∧
      Call.arguments m input = .ok vs ∧
      (∃ first, vs[0]? = some (.string first) ∧ m.Asks first (s.classify input)) ∧
      (m = .crossOut → ∃ recipient amount token,
        vs = [.string recipient, .uint amount, .address token] ∧
          Call.crossOut input = .ok ⟨recipient, amount, token⟩) ∧
      (m = .managerChange → ∃ hash added removed count payload,
        vs = [.string hash, .array (added.map .address), .array (removed.map .address),
          .uint count, .bytes payload] ∧
          Call.managerChange input = .ok ⟨hash, added, removed⟩) := by
  refine ⟨h.methodOf?_eq hd, h.arguments_eq hfits, ?_, ?_, ?_⟩
  · obtain ⟨first, rest, hvs⟩ := h.exists_first
    exact ⟨first, by rw [hvs]; rfl, h.classify_eq hd hfits hvs ▸ m.asks_ofMethod first⟩
  · rintro rfl
    exact h.crossOut_eq hfits
  · rintro rfl
    exact h.managerChange_eq hfits

/-- A sample call of each method. -/
theorem read_back_samples :
    let joining := [Sample.user, Sample.relayer]
    let change := Sample.managerChangeCall "p2" joining [Sample.token]
    Sample.signatures.methodOf? (Sample.withdrawCall "p1") = some .withdraw ∧
      Call.managerChange change = .ok ⟨"p2", joining, [Sample.token]⟩ ∧
      Sample.signatures.classify (Sample.upgradeCall "p3" Sample.token) = .upgradeAuthorization "p3" ∧
      Call.crossOut (Sample.crossOutCall "q" 5 Sample.token) = .ok ⟨"q", 5, Sample.token⟩ := by
  intro joining change
  have hd : (Method.all.map Sample.signatures.selector).Nodup := nodup_standard
  have hw := read_back (Sample.calls_withdrawCall "p1") hd (by decide +kernel)
  have hu := read_back (Sample.calls_upgradeCall "p3" Sample.token) hd (by decide +kernel)
  have hm := read_back (Sample.calls_managerChangeCall "p2" joining [Sample.token]) hd
    (by decide +kernel)
  have hc := read_back (Sample.calls_crossOutCall "q" 5 Sample.token) hd (by decide +kernel)
  refine ⟨hw.1, ?_, ?_, ?_⟩
  · obtain ⟨hash, added, removed, count, payload, hvs, hcall⟩ := hm.2.2.2.2 rfl
    have hinj : (AbiValue.address : Address → AbiValue).Injective := fun _ _ => AbiValue.address.inj
    obtain ⟨hhash, hrest⟩ := List.cons.inj hvs
    obtain ⟨hadded, hrest⟩ := List.cons.inj hrest
    obtain ⟨hremoved, -⟩ := List.cons.inj hrest
    rw [hcall, AbiValue.string.inj hhash, hinj.list_map (AbiValue.array.inj hadded),
      hinj.list_map (AbiValue.array.inj hremoved)]
  · obtain ⟨first, hfirst, hasks⟩ := hu.2.2.1
    cases hfirst
    generalize Sample.signatures.classify (Sample.upgradeCall "p3" Sample.token) = intent at hasks ⊢
    cases hasks
    rfl
  · obtain ⟨recipient, amount, token, hvs, hcall⟩ := hc.2.2.2.1 rfl
    cases hvs
    exact hcall

end Signatures.Calls
end EvmBridge
