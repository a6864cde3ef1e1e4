import EvmBridge.Proofs.AmountText
import EvmBridge.Proofs.Outcome

/-! # Hexadecimal text and the bytes that it writes

A text is read as `n` bytes exactly if it has `2 * n` hexadecimal digits of either case, with at most
one `0x` in front, and the bytes are the pairs of digits in order (`FixedBytes.ofText_grammar`). The
grammar is about characters and the reader about UTF-8 bytes: a byte below 128 is always a character of
its own (`cons_of_encode_cons`), and all digits and the mark are such characters.
-/

namespace EvmBridge
set_option autoImplicit false

namespace Hex

/-! ## The grammar -/

/-- The sixteen digits in small letters, each at the place of its value. -/
def numerals : List Char := "0123456789abcdef".toList

/-- The value of a character as a hexadecimal digit of either case. -/
def digitValue? (c : Char) : Option ℕ := numerals.idxOf? c.toLower

/-- Characters that write bytes: two digits for each byte, the high one first. -/
inductive Spells : List Char → Bytes → Prop
  | nil : Spells [] []
  | cons {high low : Char} {h l : ℕ} {cs : List Char} {b : Bytes} (high_value : digitValue? high = some h)
    (low_value : digitValue? low = some l) (rest : Spells cs b) :
    Spells (high :: low :: cs) (UInt8.ofNat (h * 16 + l) :: b)

/-- Whether a text is so many digits of either case, with or without `0x` in front. -/
def IsNumber (count : ℕ) (s : String) : Prop :=
  ∃ cs, (s.toList = cs ∨ s.toList = '0' :: 'x' :: cs) ∧ cs.length = count ∧
    ∀ c ∈ cs, c.toLower ∈ numerals

/-- Characters without a leading `0x`, if they have one. -/
def unmarked : List Char → List Char
  | '0' :: 'x' :: cs => cs
  | cs => cs

/-- The characters of a text without a leading `0x`, in small letters. -/
def plain (s : String) : List Char := (unmarked s.toList).map Char.toLower

/-! ## Digits -/

theorem digitValue?_isSome_iff {c : Char} : (digitValue? c).isSome ↔ c.toLower ∈ numerals :=
  List.isSome_idxOf?

theorem digitValue?_eq_some_iff {c : Char} {v : ℕ} :
    digitValue? c = some v ↔ v < 16 ∧ c.toLower = digit v := by
  have hplace : ∀ v < 16, numerals[v]? = some (digit v) ∧ numerals.idxOf? (digit v) = some v := by
    decide
  constructor
  · intro h
    obtain ⟨hv, hc, -⟩ := List.idxOf?_eq_some_iff.1 h
    have hd := (hplace v hv).1
    rw [List.getElem?_eq_getElem hv, hc] at hd
    exact ⟨hv, Option.some.inj hd⟩
  · rintro ⟨hv, hc⟩
    rw [digitValue?, hc]
    exact (hplace v hv).2

theorem toNat_lt_of_digit {c : Char} (h : c.toLower ∈ numerals) : c.toNat < 128 := by
  have hnumerals : ∀ d ∈ numerals, d.toNat < 128 := by
    -- Decided over the sixteen digits: `decide` on the statement itself goes through all characters.
    have hall : numerals.all (fun d => d.toNat < 128) = true := by decide
    simpa only [decide_eq_true_eq] using List.all_eq_true.1 hall
  unfold Char.toLower at h
  split at h
  next hupper => exact Nat.lt_of_le_of_lt (UInt32.le_iff_toNat_le.1 hupper.2) (by decide)
  · exact hnumerals c h

theorem digitValue?_ofNat {n : ℕ} (h : n < 128) :
    digitValue? (Char.ofNat n) = value? (UInt8.ofNat n) := by
  have hs : ∀ n < 128, digitValue? (Char.ofNat n) = value? (UInt8.ofNat n) := by decide
  exact hs n h

theorem bounds_of_value? {x : UInt8} {v : ℕ} (h : value? x = some v) : x.toNat < 128 ∧ v < 16 := by
  unfold value? at h
  dsimp only at h
  repeat' split at h
  · cases h
    omega
  · cases h
    omega
  · cases h
    omega
  · cases h

theorem valueAt_eq_ok_iff {x : UInt8} {p v : ℕ} : valueAt x p = .ok v ↔ value? x = some v := by
  rw [valueAt]
  cases value? x <;> simp

/-! ## Characters of one byte -/

theorem encodeChar_of_lt {c : Char} (h : c.toNat < 128) :
    String.utf8EncodeChar c = [UInt8.ofNat c.toNat] :=
  if_pos (Nat.le_of_lt_succ h)

/-- A character beyond the first 128 begins with a byte beyond them. -/
theorem encodeChar_of_ge {c : Char} (h : 128 ≤ c.toNat) :
    ∃ x bytes, String.utf8EncodeChar c = x :: bytes ∧ 128 ≤ x.toNat := by
  have hn : 128 ≤ c.val.toNat := h
  simp only [String.utf8EncodeChar]
  repeat' split
  · omega
  all_goals exact ⟨_, _, rfl, by rw [UInt8.toNat_ofNat']; omega⟩

theorem cons_of_encode_cons {cs : List Char} {x : UInt8} {bytes : Bytes}
    (h : cs.flatMap String.utf8EncodeChar = x :: bytes) (hx : x.toNat < 128) :
    ∃ cs', cs = Char.ofNat x.toNat :: cs' ∧ cs'.flatMap String.utf8EncodeChar = bytes := by
  cases cs with
  | nil => cases h
  | cons c cs =>
    rw [List.flatMap_cons] at h
    rcases Nat.lt_or_ge c.toNat 128 with hc | hc
    · rw [encodeChar_of_lt hc] at h
      obtain ⟨rfl, rfl⟩ := List.cons.inj h
      have hn : (UInt8.ofNat c.toNat).toNat = c.toNat :=
        UInt8.toNat_ofNat_of_lt' (Nat.lt_trans hc (by decide))
      exact ⟨cs, by rw [hn, Char.ofNat_toNat], rfl⟩
    · obtain ⟨y, _, hy, hge⟩ := encodeChar_of_ge hc
      rw [hy] at h
      obtain rfl := (List.cons.inj h).1
      omega

theorem withoutMark_encode (s : String) :
    withoutMark (Utf8.encode s) = (unmarked s.toList).flatMap String.utf8EncodeChar := by
  rw [Utf8.encode]
  generalize s.toList = cs
  unfold withoutMark
  split
  next bytes h =>
    obtain ⟨cs₁, rfl, h₁⟩ := cons_of_encode_cons h (by decide)
    obtain ⟨cs₂, rfl, rfl⟩ := cons_of_encode_cons h₁ (by decide)
    rfl
  next hno =>
    unfold unmarked
    split
    next cs => exact absurd rfl (hno _)
    · rfl

/-! ## What the reader accepts -/

theorem nibbles_cons {h l : ℕ} (hh : h < 16) (hl : l < 16) (b : Bytes) :
    nibbles (UInt8.ofNat (h * 16 + l) :: b) = h :: l :: nibbles b := by
  have hlt : h * 16 + l < 256 := by omega
  have hx : (UInt8.ofNat (h * 16 + l)).toNat = h * 16 + l := UInt8.toNat_ofNat_of_lt' hlt
  have hdiv : (h * 16 + l) / 16 = h := by omega
  have hmod : (h * 16 + l) % 16 = l := by omega
  rw [nibbles, List.flatMap_cons, hx, hdiv, hmod]
  rfl

/-- The reader takes the values of the digits two by two. -/
theorem pairs_eq_ok_iff {p : ℕ} {text b : Bytes} (heven : text.length % 2 = 0) :
    pairs p text = .ok b ↔ text.map value? = (nibbles b).map some := by
  fun_induction pairs p text generalizing b with
  | case1 p high low rest ih =>
    have hrest : rest.length % 2 = 0 := by simpa [Nat.add_assoc] using heven
    constructor
    · intro h
      obtain ⟨vh, hh, h⟩ := exists_of_bind_eq_ok h
      obtain ⟨vl, hl, h⟩ := exists_of_bind_eq_ok h
      obtain ⟨bs, hbs, h⟩ := exists_of_bind_eq_ok h
      cases h
      rw [valueAt_eq_ok_iff] at hh hl
      rw [nibbles_cons (bounds_of_value? hh).2 (bounds_of_value? hl).2, List.map_cons, List.map_cons,
        hh, hl, (ih hrest).1 hbs]
      rfl
    · intro h
      cases b with
      | nil => cases h
      | cons x b =>
        obtain ⟨hh, h⟩ := List.cons.inj h
        obtain ⟨hl, h⟩ := List.cons.inj h
        have hx : UInt8.ofNat (x.toNat / 16 * 16 + x.toNat % 16) = x := by
          rw [Nat.div_add_mod', UInt8.ofNat_toNat]
        simp only [valueAt_eq_ok_iff.2 hh, valueAt_eq_ok_iff.2 hl, (ih hrest).2 h, bind, Except.bind,
          pure, Except.pure, hx]
  | case2 text p hne =>
    have hnil : text = [] := by
      rcases text with _ | ⟨x, _ | ⟨y, rest⟩⟩
      · rfl
      · cases heven
      · exact (hne x y rest rfl).elim
    subst hnil
    constructor
    · intro h
      cases h
      rfl
    · intro h
      cases b with
      | nil => rfl
      | cons x b => cases h

theorem decode_eq_ok_iff {n : ℕ} {text b : Bytes} :
    decode n text = .ok b ↔ b.length = n ∧ text.map value? = (nibbles b).map some := by
  constructor
  · intro h
    refine ⟨length_of_decode h, ?_⟩
    unfold decode at h
    split at h
    · cases h
    next heven =>
      split at h
      · cases h
      · exact (pairs_eq_ok_iff (not_not.1 heven)).1 h
  · rintro ⟨rfl, h⟩
    have hlength : text.length = 2 * b.length := by simpa using congrArg List.length h
    have heven : text.length % 2 = 0 := by omega
    rw [decode, if_neg (by omega), if_neg (by omega)]
    exact (pairs_eq_ok_iff heven).2 h

/-! ## Spelled bytes -/

theorem spells_iff_encode {cs : List Char} {b : Bytes} :
    Spells cs b ↔ (cs.flatMap String.utf8EncodeChar).map value? = (nibbles b).map some := by
  constructor
  · intro h
    induction h with
    | nil => rfl
    | @cons high low h l cs b hh hl _ ih =>
      have hdigit : ∀ {c : Char} {v : ℕ}, digitValue? c = some v →
          (String.utf8EncodeChar c).map value? = [some v] ∧ v < 16 := by
        intro c v hv
        have hc : c.toNat < 128 :=
          toNat_lt_of_digit (digitValue?_isSome_iff.1 (Option.isSome_of_eq_some hv))
        rw [encodeChar_of_lt hc, List.map_singleton, ← digitValue?_ofNat hc, Char.ofNat_toNat, hv]
        exact ⟨rfl, (digitValue?_eq_some_iff.1 hv).1⟩
      obtain ⟨hhigh, hh⟩ := hdigit hh
      obtain ⟨hlow, hl⟩ := hdigit hl
      rw [nibbles_cons hh hl, List.flatMap_cons, List.flatMap_cons, List.map_append, List.map_append,
        hhigh, hlow, ih]
      rfl
  · intro h
    induction b generalizing cs with
    | nil =>
      cases cs with
      | nil => exact .nil
      | cons c cs =>
        have hc := List.map_eq_nil_iff.1 h
        rw [List.flatMap_cons, List.append_eq_nil_iff] at hc
        exact absurd hc.1 (by simp)
    | cons x b ih =>
      obtain ⟨high, _, hcs, hh, h₁⟩ := List.map_eq_cons_iff.1 h
      obtain ⟨low, _, rfl, hl, h₂⟩ := List.map_eq_cons_iff.1 h₁
      obtain ⟨cs₁, rfl, hcs₁⟩ := cons_of_encode_cons hcs (bounds_of_value? hh).1
      obtain ⟨cs₂, rfl, rfl⟩ := cons_of_encode_cons hcs₁ (bounds_of_value? hl).1
      have hdigit : ∀ {y : UInt8} {v : ℕ}, value? y = some v →
          digitValue? (Char.ofNat y.toNat) = some v := by
        intro y v hv
        rw [digitValue?_ofNat (bounds_of_value? hv).1, UInt8.ofNat_toNat, hv]
      have hspells := Spells.cons (hdigit hh) (hdigit hl) (ih h₂)
      rwa [Nat.div_add_mod', UInt8.ofNat_toNat] at hspells

/-- Bytes are spelled by their own digits in either case, and by nothing else. -/
theorem spells_iff_lower {cs : List Char} {b : Bytes} :
    Spells cs b ↔ cs.map Char.toLower = digits b := by
  have hpair : ∀ {h l : ℕ}, h < 16 → l < 16 → pair (UInt8.ofNat (h * 16 + l)) = [digit h, digit l] := by
    intro h l hh hl
    have hnibbles := nibbles_cons hh hl []
    simp only [nibbles, List.flatMap_cons, List.flatMap_nil, List.append_nil, List.cons.injEq,
      and_true] at hnibbles
    rw [pair, hnibbles.1, hnibbles.2]
  constructor
  · intro h
    induction h with
    | nil => rfl
    | cons hh hl _ ih =>
      obtain ⟨hh, hhigh⟩ := digitValue?_eq_some_iff.1 hh
      obtain ⟨hl, hlow⟩ := digitValue?_eq_some_iff.1 hl
      rw [digits, List.flatMap_cons, hpair hh hl, List.map_cons, List.map_cons, hhigh, hlow, ih]
      rfl
  · intro h
    induction b generalizing cs with
    | nil =>
      rw [List.map_eq_nil_iff.1 h]
      exact .nil
    | cons x b ih =>
      obtain ⟨high, _, rfl, hhigh, h₁⟩ := List.map_eq_cons_iff.1 h
      obtain ⟨low, cs, rfl, hlow, h₂⟩ := List.map_eq_cons_iff.1 h₁
      have hx := x.toNat_lt
      have hhigh := digitValue?_eq_some_iff.2 ⟨by omega, hhigh⟩
      have hlow := digitValue?_eq_some_iff.2 ⟨by omega, hlow⟩
      have hspells := Spells.cons hhigh hlow (ih h₂)
      rwa [Nat.div_add_mod', UInt8.ofNat_toNat] at hspells

/-! ## Accepted texts -/

theorem decodeText_eq_ok_iff {n : ℕ} {s : String} {b : Bytes} :
    decodeText n s = .ok b ↔ b.length = n ∧ Spells (unmarked s.toList) b := by
  rw [decodeText, withoutMark_encode, decode_eq_ok_iff, spells_iff_encode]

theorem Spells.length_eq {cs : List Char} {b : Bytes} (h : Spells cs b) : cs.length = 2 * b.length := by
  induction h with
  | nil => rfl
  | cons _ _ _ ih =>
    simp only [List.length_cons, ih]
    omega

theorem Spells.mem_numerals {cs : List Char} {b : Bytes} (h : Spells cs b) :
    ∀ c ∈ cs, c.toLower ∈ numerals := by
  induction h with
  | nil => simp
  | cons hh hl _ ih =>
    rw [List.forall_mem_cons, List.forall_mem_cons]
    exact ⟨digitValue?_isSome_iff.1 (Option.isSome_of_eq_some hh),
      digitValue?_isSome_iff.1 (Option.isSome_of_eq_some hl), ih⟩

/-- An even number of digits spells as many bytes as there are pairs. -/
theorem exists_spells {n : ℕ} {cs : List Char} (hlength : cs.length = 2 * n)
    (hdigits : ∀ c ∈ cs, c.toLower ∈ numerals) : ∃ b, b.length = n ∧ Spells cs b := by
  induction n generalizing cs with
  | zero =>
    rw [List.length_eq_zero_iff.1 hlength]
    exact ⟨[], rfl, .nil⟩
  | succ n ih =>
    match cs, hlength, hdigits with
    | high :: low :: cs, hlength, hdigits =>
      rw [List.forall_mem_cons, List.forall_mem_cons] at hdigits
      obtain ⟨hhigh, hlow, hrest⟩ := hdigits
      obtain ⟨h, hh⟩ := Option.isSome_iff_exists.1 (digitValue?_isSome_iff.2 hhigh)
      obtain ⟨l, hl⟩ := Option.isSome_iff_exists.1 (digitValue?_isSome_iff.2 hlow)
      simp only [List.length_cons] at hlength
      obtain ⟨b, rfl, hb⟩ := ih (by omega) hrest
      exact ⟨_, rfl, .cons hh hl hb⟩

/-- No digit is an `x`, so that there is only one way to see a mark in a text. -/
theorem isNumber_iff {count : ℕ} {s : String} : IsNumber count s ↔
    (unmarked s.toList).length = count ∧ ∀ c ∈ unmarked s.toList, c.toLower ∈ numerals := by
  rw [IsNumber]
  generalize s.toList = text
  constructor
  · rintro ⟨cs, rfl | rfl, hlength, hdigits⟩
    · have hself : unmarked text = text := by
        unfold unmarked
        split
        next cs =>
          have hx : 'x'.toLower ∈ numerals := hdigits 'x' (by simp)
          exact absurd hx (by decide)
        · rfl
      rw [hself]
      exact ⟨hlength, hdigits⟩
    · exact ⟨hlength, hdigits⟩
  · rintro ⟨hlength, hdigits⟩
    refine ⟨unmarked text, ?_, hlength, hdigits⟩
    unfold unmarked
    split
    · exact .inr rfl
    · exact .inl rfl

end Hex

namespace FixedBytes
variable {n : ℕ}

theorem ofText_eq_ok_iff {s : String} {a : FixedBytes n} :
    ofText s = .ok a ↔ Hex.Spells (Hex.unmarked s.toList) a.bytes := by
  have hdecode : ofText s = .ok a ↔ Hex.decodeText n s = .ok a.bytes := by
    unfold ofText
    split
    next b h =>
      have hb : Hex.decodeText n s = .ok a.bytes ↔ b = a.bytes := by rw [h, Except.ok.injEq]
      rw [hb, Except.ok.injEq, FixedBytes.ext_iff]
    next e h => simp [h]
  rw [hdecode, Hex.decodeText_eq_ok_iff, and_iff_right a.length_bytes]

/-- A text is read as the bytes whose own digits it has, apart from the mark and from cases. -/
theorem ofText_eq_ok_iff_plain {s : String} {a : FixedBytes n} :
    ofText s = .ok a ↔ Hex.plain s = Hex.digits a.bytes :=
  ofText_eq_ok_iff.trans Hex.spells_iff_lower

theorem plain_text (a : FixedBytes n) : Hex.plain a.text = Hex.digits a.bytes := by
  have hsmall : ∀ d < 16, (Hex.digit d).toLower = Hex.digit d := by decide
  have htext : a.text.toList = '0' :: 'x' :: Hex.digits a.bytes := by simp [text, Hex.encode]
  rw [Hex.plain, htext, Hex.unmarked, Hex.digits_eq, List.map_map]
  exact List.map_congr_left fun d hd => hsmall d (Hex.nibbles_lt _ d hd)

/-- Which texts are read as `n` bytes, twenty for an address and 32 for a hash or a private key, and as
which bytes. -/
theorem ofText_grammar :
    (∀ s, (∃ a : FixedBytes n, ofText s = .ok a) ↔ Hex.IsNumber (2 * n) s) ∧
    (∀ s (a : FixedBytes n), ofText s = .ok a ↔ Hex.Spells (Hex.unmarked s.toList) a.bytes) ∧
    (∀ s t, Hex.plain s = Hex.plain t → ∀ a : FixedBytes n, ofText s = .ok a ↔ ofText t = .ok a) ∧
    (∀ a : FixedBytes n, ofText a.text = .ok a) ∧
    ∀ s t (a b : FixedBytes n), ofText s = .ok a → ofText t = .ok b →
      (a = b ↔ Hex.plain s = Hex.plain t) := by
  refine ⟨fun s => ?_, fun s a => ofText_eq_ok_iff, fun s t h a => ?_, fun a => ?_,
    fun s t a b hs ht => ?_⟩
  · rw [Hex.isNumber_iff]
    constructor
    · rintro ⟨a, ha⟩
      have hspells := ofText_eq_ok_iff.1 ha
      rw [hspells.length_eq, a.length_bytes]
      exact ⟨rfl, hspells.mem_numerals⟩
    · rintro ⟨hlength, hdigits⟩
      obtain ⟨b, hb, hspells⟩ := Hex.exists_spells hlength hdigits
      exact ⟨⟨b, hb⟩, ofText_eq_ok_iff.2 hspells⟩
  · rw [ofText_eq_ok_iff_plain, ofText_eq_ok_iff_plain, h]
  · exact ofText_eq_ok_iff_plain.2 (plain_text a)
  · have hs' := ofText_eq_ok_iff_plain.1 hs
    have ht' := ofText_eq_ok_iff_plain.1 ht
    constructor
    · rintro rfl
      rw [hs', ht']
    · intro h
      have hsb : ofText s = .ok b := ofText_eq_ok_iff_plain.2 (h.trans ht')
      exact Except.ok.inj (hs.symm.trans hsb)

/-- One address in two spellings, and another one. -/
theorem ofText_grammar_mixed_case :
    let marked := "0x00000000000000000000000000000000000000fF"
    let bare := "00000000000000000000000000000000000000Ff"
    let other := "00000000000000000000000000000000000000fe"
    let a : Address := .low [0xFF]
    let b : Address := .low [0xFE]
    Hex.plain marked = Hex.plain bare ∧ ofText marked = .ok a ∧ ofText bare = .ok a ∧
      ofText other = .ok b ∧ (a = b ↔ Hex.plain marked = Hex.plain other) := by
  intro marked bare other a b
  obtain ⟨-, -, hsame, -, hiff⟩ := @ofText_grammar 20
  have hplain : Hex.plain marked = Hex.plain bare := by decide
  have hmarked : ofText marked = .ok a := ofText_eq_ok_iff_plain.2 (by decide)
  have hother : ofText other = .ok b := ofText_eq_ok_iff_plain.2 (by decide)
  exact ⟨hplain, hmarked, (hsame marked bare hplain a).1 hmarked, hother,
    hiff marked other a b hmarked hother⟩

end FixedBytes
end EvmBridge
