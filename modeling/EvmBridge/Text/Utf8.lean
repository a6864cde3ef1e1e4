import EvmBridge.Bytes

/-! # UTF-8 text

* `Utf8.encode`: the bytes of a text.
* `Utf8.scan`: a byte string as the characters it holds, with `none` for each ill-formed part. A
  part is as long as a well-formed character could still be: it ends before the first byte that
  cannot continue it.
* `Utf8.decode?` accepts well-formed bytes only; `Utf8.decodeLossy` puts the replacement character
  in the place of every ill-formed part.

`Utf8.decode?_encode` and `Utf8.decodeLossy_encode` say that both give back an encoded text, and
`Utf8.encode_injective` that the bytes determine the text.
-/

namespace EvmBridge.Utf8
set_option autoImplicit false

/-- The UTF-8 bytes of a text. -/
def encode (s : String) : Bytes := s.toList.flatMap String.utf8EncodeChar

/-- Where a reader of UTF-8 stands: between two characters, or inside one, with the bits read so
far, the number of bytes still to come, and the range in which the next byte has to be. -/
inductive Position where
  | boundary
  | inside (value more low high : Nat)

/-- What the first byte of a character gives: the characters now complete, and the new position.
The first continuation byte is held to a narrower range where a wider one would allow an overlong
form, a surrogate or a number beyond the last character. -/
def lead (b : UInt8) : List (Option Char) × Position :=
  let n := b.toNat
  if n < 0x80 then ([some (Char.ofNat n)], .boundary)
  else if n < 0xC2 then ([none], .boundary)
  else if n < 0xE0 then ([], .inside (n - 0xC0) 1 0x80 0xBF)
  else if n = 0xE0 then ([], .inside 0 2 0xA0 0xBF)
  else if n = 0xED then ([], .inside 13 2 0x80 0x9F)
  else if n < 0xF0 then ([], .inside (n - 0xE0) 2 0x80 0xBF)
  else if n = 0xF0 then ([], .inside 0 3 0x90 0xBF)
  else if n < 0xF4 then ([], .inside (n - 0xF0) 3 0x80 0xBF)
  else if n = 0xF4 then ([], .inside 4 3 0x80 0x8F)
  else ([none], .boundary)

/-- What the next byte gives. A byte that cannot continue the character begins a new one. -/
def feed : Position → UInt8 → List (Option Char) × Position
  | .boundary, b => lead b
  | .inside value more low high, b =>
    if low ≤ b.toNat ∧ b.toNat ≤ high then
      let value := value * 64 + (b.toNat - 0x80) % 64
      if more = 1 then ([some (Char.ofNat value)], .boundary)
      else ([], .inside value (more - 1) 0x80 0xBF)
    else (none :: (lead b).1, (lead b).2)

/-- The characters of a byte string read from a position; `none` stands for an ill-formed part. -/
def scanFrom : Position → Bytes → List (Option Char)
  | .boundary, [] => []
  | .inside .., [] => [none]
  | p, b :: bs => (feed p b).1 ++ scanFrom (feed p b).2 bs

/-- The characters of a byte string; `none` stands for an ill-formed part. -/
def scan (b : Bytes) : List (Option Char) := scanFrom .boundary b

/-- The text of well-formed bytes. -/
def decode? (b : Bytes) : Option String := ((scan b).mapM id).map String.ofList

/-- The text of any bytes, with U+FFFD for every ill-formed part. -/
def decodeLossy (b : Bytes) : String :=
  String.ofList ((scan b).map fun c => c.getD (Char.ofNat 0xFFFD))

/-! ## Reading what was written -/

theorem scanFrom_cons (p : Position) (b : UInt8) (bs : Bytes) :
    scanFrom p (b :: bs) = (feed p b).1 ++ scanFrom (feed p b).2 bs := by
  cases p <;> rfl

theorem feed_inside_last {value low high n : Nat} (hn : n < 256) (hl : low ≤ n) (hh : n ≤ high) :
    feed (.inside value 1 low high) (UInt8.ofNat n)
      = ([some (Char.ofNat (value * 64 + (n - 0x80) % 64))], .boundary) := by
  have hx : (UInt8.ofNat n).toNat = n := by simpa using hn
  simp [feed, hx, hl, hh]

theorem feed_inside_more {value low high n : Nat} (more : Nat) (hn : n < 256) (hl : low ≤ n)
    (hh : n ≤ high) :
    feed (.inside value (more + 2) low high) (UInt8.ofNat n)
      = ([], .inside (value * 64 + (n - 0x80) % 64) (more + 1) 0x80 0xBF) := by
  have hx : (UInt8.ofNat n).toNat = n := by simpa using hn
  simp [feed, hx, hl, hh]

theorem lead_two {n : Nat} (hl : 0xC2 ≤ n) (hh : n < 0xE0) :
    lead (UInt8.ofNat n) = ([], .inside (n - 0xC0) 1 0x80 0xBF) := by
  have hx : (UInt8.ofNat n).toNat = n := by simp; omega
  simp only [lead, hx]
  rw [if_neg (by omega), if_neg (by omega), if_pos hh]

/-- The range of the byte that follows a three-byte lead. -/
def secondOfThree (n : Nat) : Nat × Nat :=
  if n = 0xE0 then (0xA0, 0xBF) else if n = 0xED then (0x80, 0x9F) else (0x80, 0xBF)

theorem lead_three {n : Nat} (hl : 0xE0 ≤ n) (hh : n < 0xF0) :
    lead (UInt8.ofNat n)
      = ([], .inside (n - 0xE0) 2 (secondOfThree n).1 (secondOfThree n).2) := by
  have hx : (UInt8.ofNat n).toNat = n := by simp; omega
  simp only [lead, hx, secondOfThree]
  rw [if_neg (by omega), if_neg (by omega), if_neg (by omega)]
  by_cases h₁ : n = 0xE0
  · rw [if_pos h₁, if_pos h₁, h₁]
  rw [if_neg h₁, if_neg h₁]
  by_cases h₂ : n = 0xED
  · rw [if_pos h₂, if_pos h₂, h₂]
  · rw [if_neg h₂, if_neg h₂, if_pos hh]

/-- The range of the byte that follows a four-byte lead. -/
def secondOfFour (n : Nat) : Nat × Nat :=
  if n = 0xF0 then (0x90, 0xBF) else if n = 0xF4 then (0x80, 0x8F) else (0x80, 0xBF)

theorem lead_four {n : Nat} (hl : 0xF0 ≤ n) (hh : n ≤ 0xF4) :
    lead (UInt8.ofNat n)
      = ([], .inside (n - 0xF0) 3 (secondOfFour n).1 (secondOfFour n).2) := by
  have hx : (UInt8.ofNat n).toNat = n := by simp; omega
  simp only [lead, hx, secondOfFour]
  rw [if_neg (by omega), if_neg (by omega), if_neg (by omega), if_neg (by omega),
    if_neg (by omega), if_neg (by omega)]
  by_cases h₁ : n = 0xF0
  · rw [if_pos h₁, if_pos h₁, h₁]
  rw [if_neg h₁, if_neg h₁]
  by_cases h₂ : n = 0xF4
  · rw [if_pos h₂, if_neg (by omega), if_pos h₂, h₂]
  · rw [if_pos (by omega), if_neg h₂]

/-- A written character is read back, whatever follows it. -/
theorem scanFrom_encodeChar (c : Char) (bs : Bytes) :
    scanFrom .boundary (String.utf8EncodeChar c ++ bs) = some c :: scanFrom .boundary bs := by
  have hv : c.toNat < 0xD800 ∨ (0xDFFF < c.toNat ∧ c.toNat < 0x110000) := c.valid
  have hc : Char.ofNat c.toNat = c := Char.ofNat_toNat c
  generalize hn : c.toNat = n at hv hc
  have hn' : c.val.toNat = n := hn
  simp only [String.utf8EncodeChar, hn']
  split
  · have hx : (UInt8.ofNat n).toNat = n := by simp; omega
    have h1 : n < 128 := by omega
    simp [scanFrom_cons, feed, lead, hx, h1, hc]
  split
  · have hd : n / 64 % 32 = n / 64 := Nat.mod_eq_of_lt (by omega)
    have hs : (n / 64 + 192 - 0xC0) * 64 + (n % 64 + 128 - 0x80) % 64 = n := by omega
    simp only [List.cons_append, List.nil_append, scanFrom_cons, hd]
    rw [show feed .boundary = lead from rfl, lead_two (by omega) (by omega)]
    simp only [List.nil_append]
    rw [feed_inside_last (by omega) (by omega) (by omega), hs, hc]
    rfl
  split
  · have hd : n / 4096 % 16 = n / 4096 := Nat.mod_eq_of_lt (by omega)
    have hs : ((n / 4096 + 224 - 0xE0) * 64 + (n / 64 % 64 + 128 - 0x80) % 64) * 64
        + (n % 64 + 128 - 0x80) % 64 = n := by omega
    simp only [List.cons_append, List.nil_append, scanFrom_cons, hd]
    rw [show feed .boundary = lead from rfl, lead_three (by omega) (by omega)]
    simp only [List.nil_append]
    have hr : (secondOfThree (n / 4096 + 224)).1 ≤ n / 64 % 64 + 128
        ∧ n / 64 % 64 + 128 ≤ (secondOfThree (n / 4096 + 224)).2 := by
      simp only [secondOfThree]
      repeat' split
      all_goals simp only
      all_goals omega
    rw [feed_inside_more 0 (by omega) hr.1 hr.2]
    simp only [List.nil_append]
    rw [feed_inside_last (by omega) (by omega) (by omega), hs, hc]
    rfl
  · have hd : n / 262144 % 8 = n / 262144 := Nat.mod_eq_of_lt (by omega)
    have hs : (((n / 262144 + 240 - 0xF0) * 64 + (n / 4096 % 64 + 128 - 0x80) % 64) * 64
        + (n / 64 % 64 + 128 - 0x80) % 64) * 64 + (n % 64 + 128 - 0x80) % 64 = n := by omega
    simp only [List.cons_append, List.nil_append, scanFrom_cons, hd]
    rw [show feed .boundary = lead from rfl, lead_four (by omega) (by omega)]
    simp only [List.nil_append]
    have hr : (secondOfFour (n / 262144 + 240)).1 ≤ n / 4096 % 64 + 128
        ∧ n / 4096 % 64 + 128 ≤ (secondOfFour (n / 262144 + 240)).2 := by
      simp only [secondOfFour]
      repeat' split
      all_goals simp only
      all_goals omega
    rw [feed_inside_more 1 (by omega) hr.1 hr.2]
    simp only [List.nil_append]
    rw [feed_inside_more 0 (by omega) (by omega) (by omega)]
    simp only [List.nil_append]
    rw [feed_inside_last (by omega) (by omega) (by omega), hs, hc]
    rfl

/-- The characters of an encoded text are the text's own. -/
theorem scan_encode (s : String) : scan (encode s) = s.toList.map some := by
  have h : ∀ cs : List Char,
      scanFrom .boundary (cs.flatMap String.utf8EncodeChar) = cs.map some := by
    intro cs
    induction cs with
    | nil => rfl
    | cons c cs ih => rw [List.flatMap_cons, scanFrom_encodeChar, ih, List.map_cons]
  exact h s.toList

theorem mapM_some (cs : List Char) : (cs.map some).mapM id = some cs := by
  induction cs with
  | nil => rfl
  | cons c cs ih => rw [List.map_cons, List.mapM_cons, ih]; rfl

theorem decode?_encode (s : String) : decode? (encode s) = some s := by
  rw [decode?, scan_encode, mapM_some, Option.map_some, String.ofList_toList]

theorem decodeLossy_encode (s : String) : decodeLossy (encode s) = s := by
  rw [decodeLossy, scan_encode, List.map_map]
  simp [Function.comp_def]

/-- The bytes of a text determine it. -/
theorem encode_injective {s t : String} (h : encode s = encode t) : s = t := by
  have hs := decode?_encode s
  rw [h, decode?_encode] at hs
  exact (Option.some.inj hs).symm

end EvmBridge.Utf8
