import EvmBridge.Proofs.Abi.Reading
import EvmBridge.Proofs.Parsing.Acceptance

/-! # Lengths of decoded texts and lists

Calldata and events write lengths in words of which only the last four bytes may be other than zero.
So what is decoded from them is short, and every bridge record that a transaction is analysed to fits
a row: `Bridge.fits_analyze`.
-/

namespace EvmBridge
set_option autoImplicit false

/-! ## Texts -/

namespace Utf8

theorem length_lead_le (b : UInt8) : (lead b).1.length ≤ 1 := by
  simp only [lead]
  repeat' split
  all_goals simp

theorem length_feed_le (p : Position) (b : UInt8) : (feed p b).1.length ≤ 2 := by
  have hl := length_lead_le b
  cases p with
  | boundary => exact Nat.le_succ_of_le hl
  | inside value more low high =>
    simp only [feed]
    repeat' split
    · simp
    · simp
    · simpa using hl

theorem length_scanFrom_le (p : Position) (b : Bytes) : (scanFrom p b).length ≤ 2 * b.length + 1 := by
  induction b generalizing p with
  | nil => cases p <;> simp [scanFrom]
  | cons x b ih =>
    have hf := length_feed_le p x
    have hs := ih (feed p x).2
    rw [scanFrom_cons, List.length_append, List.length_cons]
    omega

theorem length_flatMap_encodeChar_le (cs : List Char) :
    (cs.flatMap String.utf8EncodeChar).length ≤ 4 * cs.length := by
  induction cs with
  | nil => simp
  | cons c cs ih =>
    have hc := c.utf8Size_le_four
    rw [List.flatMap_cons, List.length_append, List.length_cons, String.length_utf8EncodeChar]
    omega

theorem length_encode_decodeLossy_le (b : Bytes) :
    (encode (decodeLossy b)).length ≤ 8 * b.length + 4 := by
  have hs := length_scanFrom_le .boundary b
  have he := length_flatMap_encodeChar_le ((scan b).map fun c => c.getD (Char.ofNat 0xFFFD))
  rw [List.length_map] at he
  rw [encode, decodeLossy, String.toList_ofList]
  unfold scan at he ⊢
  omega

end Utf8

/-! ## Values -/

/-- Whether the length of a text or of a list of values can be written in eight bytes. -/
def AbiValue.Short : AbiValue → Prop
  | .string s => (Utf8.encode s).length < UInt64.size
  | .array elements => elements.length < UInt64.size
  | _ => True

theorem Bytes.toNat_lt_size {b : Bytes} (h : b.length ≤ 4) : toNat b < UInt32.size := by
  rcases b with _ | ⟨x, _ | ⟨y, _ | ⟨z, _ | ⟨w, _ | ⟨v, b⟩⟩⟩⟩⟩ <;> grind [toNat, UInt8.toNat_lt]

namespace Abi

theorem sizeAt_lt {data : Bytes} {place n : Nat} (h : sizeAt data place = .ok n) : n < UInt32.size := by
  obtain ⟨w, hw, h⟩ := exists_of_bind_eq_ok h
  have hl : (w.drop 28).length ≤ 4 := by
    unfold wordAt slice at hw
    split at hw
    · cases hw
      simp only [List.length_drop, List.length_take]
      omega
    · cases hw
  split at h
  · cases h
    exact Bytes.toNat_lt_size hl
  · cases h

theorem length_countedAt_lt {data b : Bytes} {place : Nat} (h : countedAt data place = .ok b) :
    b.length < UInt32.size := by
  obtain ⟨start, -, h⟩ := exists_of_bind_eq_ok h
  obtain ⟨length, hl, h⟩ := exists_of_bind_eq_ok h
  have hlt := sizeAt_lt hl
  unfold slice at h
  split at h
  · cases h
    simp only [List.length_take]
    omega
  · cases h

theorem short_decodeAt {t : AbiType} {data : Bytes} {place : Nat} {v : AbiValue}
    (h : decodeAt t data place = .ok v) : v.Short := by
  cases t with
  | string =>
    obtain ⟨b, hb, h⟩ := exists_of_bind_eq_ok h
    cases h
    have hl := length_countedAt_lt hb
    have hs := Utf8.length_encode_decodeLossy_le b
    simp only [AbiValue.Short, UInt64.size, UInt32.size] at hl ⊢
    omega
  | array element =>
    obtain ⟨start, -, h⟩ := exists_of_bind_eq_ok h
    obtain ⟨count, hc, h⟩ := exists_of_bind_eq_ok h
    obtain ⟨vs, hv, h⟩ := exists_of_bind_eq_ok h
    cases h
    have hl := sizeAt_lt hc
    simp only [AbiValue.Short, (exists_of_collect hv).1, UInt64.size, UInt32.size] at hl ⊢
    omega
  | address | uint | bool | bytes =>
    obtain ⟨w, -, h⟩ := exists_of_bind_eq_ok h
    cases h
    trivial

end Abi

/-! ## Arguments and fields -/

namespace Call

theorem short_values {ts : List AbiType} {data : Bytes} {vs : List AbiValue}
    (h : values ts data = .ok vs) : ∀ v ∈ vs, v.Short := by
  intro v hv
  have hdecode := Abi.decodeFrom_of_decode (ok_of_mapError h)
  obtain ⟨t, place, hat⟩ := Abi.exists_of_decodeFrom hdecode v hv
  exact Abi.short_decodeAt hat

theorem exists_of_field {α : Type} {read : AbiValue → Option α} {expected : String}
    {vs : List AbiValue} {i : Nat} {a : α} (h : field read expected vs i = .ok a) :
    ∃ v ∈ vs, read v = some a := by
  unfold field at h
  split at h
  next b hb =>
    cases h
    obtain ⟨v, hv, hr⟩ := Option.bind_eq_some_iff.1 hb
    exact ⟨v, List.mem_of_getElem? hv, hr⟩
  · cases h

theorem short_stringField {vs : List AbiValue} {i : Nat} {s : String} (hv : ∀ v ∈ vs, v.Short)
    (h : stringField vs i = .ok s) : (Utf8.encode s).length < UInt64.size := by
  obtain ⟨v, hm, hr⟩ := exists_of_field h
  have hs := hv v hm
  cases v <;> simp only [AbiValue.string?, Option.some.injEq, reduceCtorEq] at hr
  subst hr
  exact hs

theorem short_addressesField {vs : List AbiValue} {i : Nat} {as : List Address}
    (hv : ∀ v ∈ vs, v.Short) (h : addressesField vs i = .ok as) : as.length < UInt64.size := by
  obtain ⟨v, hm, hr⟩ := exists_of_field h
  have hs := hv v hm
  cases v <;> simp only [AbiValue.addresses?, reduceCtorEq] at hr
  next elements =>
  have hl : ∀ (vs : List AbiValue) (as : List Address),
      vs.mapM AbiValue.address? = some as → as.length = vs.length := by
    intro vs
    induction vs with
    | nil => intro as h; cases h; rfl
    | cons v vs ih =>
      intro as h
      rw [List.mapM_cons] at h
      obtain ⟨a, -, h⟩ := Option.bind_eq_some_iff.1 h
      obtain ⟨rest, hr, h⟩ := Option.bind_eq_some_iff.1 h
      cases h
      rw [List.length_cons, List.length_cons, ih rest hr]
  rw [hl _ _ hr]
  exact hs

theorem short_arguments {m : Method} {input : Bytes} {vs : List AbiValue}
    (h : arguments m input = .ok vs) : ∀ v ∈ vs, v.Short := short_values (values_of_arguments h)

theorem short_crossOut {input : Bytes} {c : CrossOut} (h : crossOut input = .ok c) :
    (Utf8.encode c.recipient).length < UInt64.size := by
  obtain ⟨vs, hv, h⟩ := exists_of_bind_eq_ok h
  obtain ⟨s, hs, h⟩ := exists_of_bind_eq_ok h
  obtain ⟨n, -, h⟩ := exists_of_bind_eq_ok h
  obtain ⟨a, -, h⟩ := exists_of_bind_eq_ok h
  cases h
  exact short_stringField (short_arguments hv) hs

theorem short_managerChange {input : Bytes} {c : ManagerChange} (h : managerChange input = .ok c) :
    c.added.length < UInt64.size ∧ c.removed.length < UInt64.size := by
  obtain ⟨vs, hv, h⟩ := exists_of_bind_eq_ok h
  obtain ⟨s, -, h⟩ := exists_of_bind_eq_ok h
  obtain ⟨as, ha, h⟩ := exists_of_bind_eq_ok h
  obtain ⟨rs, hr, h⟩ := exists_of_bind_eq_ok h
  cases h
  exact ⟨short_addressesField (short_arguments hv) ha, short_addressesField (short_arguments hv) hr⟩

end Call

/-- Whether the texts of an event can have their length written in eight bytes. -/
def Event.Short : Event → Prop
  | .crossOutFunds _ recipient _ _ => (Utf8.encode recipient).length < UInt64.size
  | .completed _ platformTxHash => (Utf8.encode platformTxHash).length < UInt64.size
  | _ => True

theorem Log.short_crossOutFunds {log : Log} {e : Event} (h : log.crossOutFunds = .ok e) :
    e.Short := by
  obtain ⟨vs, hv, h⟩ := exists_of_bind_eq_ok h
  obtain ⟨a, -, h⟩ := exists_of_bind_eq_ok h
  obtain ⟨s, hs, h⟩ := exists_of_bind_eq_ok h
  obtain ⟨n, -, h⟩ := exists_of_bind_eq_ok h
  obtain ⟨t, -, h⟩ := exists_of_bind_eq_ok h
  cases h
  exact Call.short_stringField (Call.short_values hv) hs

theorem Log.short_completed {kind : TxKind} {log : Log} {e : Event}
    (h : log.completed kind = .ok e) : e.Short := by
  obtain ⟨vs, hv, h⟩ := exists_of_bind_eq_ok h
  obtain ⟨s, hs, h⟩ := exists_of_bind_eq_ok h
  cases h
  exact Call.short_stringField (Call.short_values hv) hs

theorem Log.short_depositFunds {log : Log} {e : Event} (h : log.depositFunds = .ok e) :
    e.Short := by
  obtain ⟨vs, -, h⟩ := exists_of_bind_eq_ok h
  obtain ⟨a, -, h⟩ := exists_of_bind_eq_ok h
  obtain ⟨n, -, h⟩ := exists_of_bind_eq_ok h
  cases h
  trivial

theorem Log.short_transferFunds {log : Log} {e : Event} (h : log.transferFunds = .ok e) :
    e.Short := by
  unfold Log.transferFunds at h
  split at h
  · cases h
  · cases h
    trivial

theorem Log.short_transfer {log : Log} {e : Event} (h : log.transfer = .ok e) : e.Short := by
  unfold Log.transfer at h
  repeat' split at h
  all_goals cases h
  all_goals trivial

theorem Signatures.short_decodeEvent {s : Signatures} {log : Log} {e : Event}
    (h : s.decodeEvent log = .ok e) : e.Short := by
  unfold Signatures.decodeEvent at h
  split at h
  · cases h
    trivial
  split at h
  · exact Log.short_transfer h
  split at h
  · exact Log.short_transferFunds h
  split at h
  · exact Log.short_depositFunds (ok_of_mapError h)
  split at h
  · exact Log.short_crossOutFunds (ok_of_mapError h)
  split at h
  · exact Log.short_completed (ok_of_mapError h)
  · cases h
    trivial

/-! ## Records -/

theorem Record.fits_ofTransaction (kind : TxKind) (tx : Transaction) (asset : Asset) :
    (Record.ofTransaction kind tx asset).Fits := by
  constructor <;> simp [Record.ofTransaction]

namespace Bridge
variable (b : Bridge)

theorem fits_withCompletion {receipt : Option Receipt} {r : Record} (hr : r.Fits)
    (hs : r.signers = []) : (b.withCompletion receipt r).Fits := by
  rw [withCompletion_of_unsigned hs]
  cases hc : receipt.bind b.completionHash? with
  | none => exact hr
  | some h =>
    obtain ⟨x, -, hx⟩ := Option.bind_eq_some_iff.1 hc
    obtain ⟨log, -, _, hlog⟩ := completionHash?_eq_some_iff.1 hx
    have hl : (Utf8.encode h).length < UInt64.size := Signatures.short_decodeEvent hlog
    exact ⟨hr.counterpart, by simpa using hl, by simp [UInt64.size], hr.addedMembers, hr.removedMembers⟩

theorem short_classify {input : Bytes} {h : String}
    (hc : (b.classify input).platformTxHash? = some h) : (Utf8.encode h).length < UInt64.size := by
  obtain ⟨m, rest, -, -, -, harguments⟩ := Signatures.arguments_of_classify hc
  exact Call.short_arguments harguments _ (List.mem_cons_self ..)

theorem fits_membershipDraft {tx : Transaction} {r : Record} (h : b.membershipDraft? tx = some r) :
    r.Fits ∧ r.signers = [] := by
  obtain ⟨-, p, args, hc, ha, rfl⟩ := membershipDraft?_eq_some_iff.1 h
  have hp := b.short_classify (h := p) (by rw [hc]; rfl)
  have hm := Call.short_managerChange ha
  exact ⟨⟨by simp [authorizationDraft, Record.ofTransaction], by simpa [authorizationDraft],
    by simp [authorizationDraft, Record.ofTransaction], hm.1, hm.2⟩, rfl⟩

theorem fits_upgradeDraft {tx : Transaction} {r : Record} (h : b.upgradeDraft? tx = some r) :
    r.Fits ∧ r.signers = [] := by
  obtain ⟨-, p, hc, rfl⟩ := upgradeDraft?_eq_some_iff.1 h
  have hp := b.short_classify (h := p) (by rw [hc]; rfl)
  exact ⟨⟨by simp [authorizationDraft, Record.ofTransaction], by simpa [authorizationDraft],
    by simp [authorizationDraft, Record.ofTransaction],
    by simp [authorizationDraft, Record.ofTransaction],
    by simp [authorizationDraft, Record.ofTransaction]⟩, rfl⟩

theorem fits_withdrawalRecord {tx : Transaction} {h : String} {r : Receipt} {x : Record}
    (hh : (Utf8.encode h).length < UInt64.size) (hx : b.withdrawalRecord? tx h r = some x) : x.Fits := by
  unfold withdrawalRecord? at hx
  split at hx
  · obtain ⟨p, -, rfl⟩ := Option.map_eq_some_iff.1 hx
    have hd := Record.fits_ofTransaction .withdrawal tx p.asset
    exact b.fits_withCompletion ⟨hd.counterpart, by simpa using hh, hd.signers, hd.addedMembers,
      hd.removedMembers⟩ rfl
  · cases hx

/-- A deposit's record fits, whatever is put into its fields, if its counterpart does. -/
theorem fits_deposit {tx : Transaction} {asset : Asset} {sender recipient : Address} {value : U256}
    {counterpart : Option String} (hc : ∀ t ∈ counterpart, (Utf8.encode t).length < UInt64.size) :
    { Record.ofTransaction .deposit tx asset with
      sender := sender, recipient := recipient, value := value,
      counterpart := counterpart : Record }.Fits :=
  have hd := Record.fits_ofTransaction .deposit tx asset
  ⟨hc, hd.platformTxHash, hd.signers, hd.addedMembers, hd.removedMembers⟩

theorem fits_nativeCrossOut {tx : Transaction} {r : Receipt} {x : Record}
    (hx : b.nativeCrossOut? tx r = some x) : x.Fits := by
  unfold nativeCrossOut? at hx
  split at hx
  · cases hx
  split at hx
  next he =>
    split at hx
    · cases hx
      refine fits_deposit fun t ht => ?_
      cases ht
      exact Signatures.short_decodeEvent he
    · cases hx
  · cases hx

theorem fits_depositRecord {tx : Transaction} {route : DepositRoute} {r : Receipt} {x : Record}
    (hroute : b.Routes tx route) (hx : b.depositRecord? tx route r = some x) : x.Fits := by
  cases hroute with
  | native =>
    simp only [depositRecord?, nativeDeposit?] at hx
    split at hx
    · cases hx
      exact fits_deposit (by simp)
    · cases hx
  | token =>
    simp only [depositRecord?, tokenDeposit?] at hx
    split at hx
    · split at hx
      · split at hx
        · cases hx
        · cases hx
          exact fits_deposit (by simp [Record.ofTransaction])
      · cases hx
    · cases hx
  | crossOut _ _ _ hargs =>
    simp only [depositRecord?, crossOutRecord?] at hx
    split at hx
    · split at hx
      · exact b.fits_nativeCrossOut hx
      · unfold tokenCrossOut? at hx
        split at hx
        · cases hx
        · split at hx
          · cases hx
            exact fits_deposit (by simpa using Call.short_crossOut hargs)
          · cases hx
    · cases hx

/-! ## Analysis -/

section Actions
open EvmBridge.Action

theorem fits_parseDraft {tx : Transaction} {draft : Option Record} {supplied : Option Receipt}
    {past : Exchanges} (hd : ∀ r ∈ draft, r.Fits ∧ r.signers = []) :
    Ends (b.parseDraft tx draft supplied) past (fun found _ => ∀ r ∈ found, r.Fits)
      fun _ _ => True := by
  refine ends_parseDraft.mono (fun found _ h r hr => ?_) fun _ _ _ => trivial
  obtain ⟨d, hmem, receipt, rfl⟩ := h r hr
  exact b.fits_withCompletion (hd d hmem).1 (hd d hmem).2

theorem fits_parseWithdrawal {tx : Transaction} {supplied : Option Receipt} {past : Exchanges} :
    Ends (b.parseWithdrawal tx supplied) past (fun found _ => ∀ r ∈ found, r.Fits)
      fun _ _ => True := by
  refine ends_parseWithdrawal.mono (fun found _ h r hr => ?_) fun _ _ _ => trivial
  obtain ⟨h, receipt, -, hclass, -, hmade⟩ := h r hr
  exact b.fits_withdrawalRecord (b.short_classify (by rw [hclass]; rfl)) hmade

theorem fits_parseDeposit {tx : Transaction} {supplied : Option Receipt} {past : Exchanges} :
    Ends (b.parseDeposit tx supplied) past (fun found _ => ∀ r ∈ found, r.Fits)
      fun _ _ => True := by
  refine ends_parseDeposit.mono (fun found _ h r hr => ?_) fun _ _ _ => trivial
  obtain ⟨route, receipt, hroute, -, hmade⟩ := h r hr
  exact b.fits_depositRecord hroute hmade

/-- Whatever a transaction is analysed to fits a row. -/
theorem fits_analyze (tx : Transaction) (past : Exchanges) :
    Ends (b.analyze tx) past (fun found _ => ∀ r ∈ found, r.Fits) fun _ _ => True := by
  unfold analyze
  cases b.kindOf? tx with
  | none => exact ends_pure.2 (by simp)
  | some kind =>
    cases kind with
    | deposit => exact b.fits_parseDeposit
    | withdrawal => exact b.fits_parseWithdrawal
    | membershipChange => exact b.fits_parseDraft fun r hr => b.fits_membershipDraft hr
    | upgradeAuthorization => exact b.fits_parseDraft fun r hr => b.fits_upgradeDraft hr

end Actions
end Bridge
end EvmBridge
