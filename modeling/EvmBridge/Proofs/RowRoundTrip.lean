import EvmBridge.Proofs.AmountText
import EvmBridge.Proofs.Outcome
import EvmBridge.Proofs.TextLengths
import EvmBridge.Row.Layout

/-! # Stored rows read back

`Codec.Restores c fits`: reading what `c` wrote for a value that fits gives the value back and leaves
what follows. Codecs made of others restore what their parts do, and so every kept header
(`Codec.decode_header`), every bridge record that fits (`Codec.decode_record`) and every quorum member
that fits (`Codec.decode_member`) reads back. `Codec.Yields c fits`: whatever `c` reads fits, so that
a member that was read can be written (`Codec.fits_of_decode_member`).
-/

namespace EvmBridge.Codec
set_option autoImplicit false
variable {α β : Type}

/-- Reading what was written gives the value back, whatever follows it. -/
def Restores (c : Codec α) (fits : α → Prop) : Prop :=
  ∀ a rest, fits a → c.read (c.write a ++ rest) = .ok (a, rest)

theorem read_bind {act : RowReader α} {f : α → RowReader β} {b rest : Bytes} {a : α}
    (h : act b = .ok (a, rest)) : (act >>= f) b = f a rest := by
  show (act b >>= fun p => f p.1 p.2) = f a rest
  rw [h]
  rfl

theorem Restores.decode {c : Codec α} {fits : α → Prop} (h : c.Restores fits) {a : α}
    (ha : fits a) : c.decode (c.write a) = .ok a := by
  have hr := h a [] ha
  rw [List.append_nil] at hr
  simp only [Codec.decode, StateT.run, hr]

/-! ## Pieces -/

theorem next_append {n : ℕ} (a : FixedBytes n) (rest : Bytes) :
    next n (a.bytes ++ rest) = .ok (a, rest) := by
  obtain ⟨b, rfl⟩ := a
  simp [next]

theorem nextNat_append {w n : ℕ} (h : n < 256 ^ w) (rest : Bytes) :
    nextNat w (Bytes.ofNatLittle w n ++ rest) = .ok (n, rest) := by
  have hn := next_append ⟨Bytes.ofNatLittle w n, Bytes.length_ofNatLittle w n⟩ rest
  rw [nextNat, read_bind hn, Bytes.toNatLittle_ofNatLittle, Nat.mod_eq_of_lt h]
  rfl

theorem nextBytes_append {b : Bytes} (h : b.length < 2 ^ 64) (rest : Bytes) :
    nextBytes (Bytes.ofNatLittle 8 b.length ++ b ++ rest) = .ok (b, rest) := by
  have hl := nextNat_append (w := 8) (by norm_num at h ⊢; exact h) (b ++ rest)
  have hb := next_append ⟨b, rfl⟩ rest
  rw [nextBytes, List.append_assoc, read_bind hl, read_bind hb]
  rfl

/-! ## Codecs -/

theorem restores_fixed (n : ℕ) : (fixed n).Restores fun _ => True :=
  fun a rest _ => next_append a rest

theorem restores_u8 : u8.Restores fun _ => True := by
  intro n rest _
  have h := nextNat_append (w := 1) (n := n.toNat) n.toNat_lt rest
  exact (read_bind h).trans (by rw [UInt8.ofNat_toNat]; rfl)

theorem restores_bool : bool.Restores fun _ => True := by
  intro b rest _
  cases b with
  | false => exact (read_bind (restores_u8 0 rest trivial)).trans rfl
  | true => exact (read_bind (restores_u8 1 rest trivial)).trans rfl

theorem restores_u32 : u32.Restores fun _ => True := by
  intro n rest _
  have h := nextNat_append (w := 4) (n := n.toNat) n.toNat_lt rest
  exact (read_bind h).trans (by rw [UInt32.ofNat_toNat]; rfl)

theorem restores_u64 : u64.Restores fun _ => True := by
  intro n rest _
  have h := nextNat_append (w := 8) (n := n.toNat) n.toNat_lt rest
  exact (read_bind h).trans (by rw [UInt64.ofNat_toNat]; rfl)

theorem restores_choice {count : ℕ} (hc : count < 2 ^ 32) :
    (choice count).Restores fun _ => True := by
  intro i rest _
  have h := nextNat_append (w := 4) (n := i.val) (by have := i.isLt; norm_num at *; omega) rest
  exact (read_bind h).trans (by rw [dif_pos i.isLt]; rfl)

theorem restores_text : text.Restores fun s => (Utf8.encode s).length < 2 ^ 64 := by
  intro s rest hs
  exact (read_bind (nextBytes_append hs rest)).trans (by simp only [Utf8.decode?_encode]; rfl)

theorem restores_amount : amount.Restores fun _ => True := by
  intro n rest _
  have hl : (Utf8.encode (Amount.text n)).length < 2 ^ 64 := by
    have := Amount.length_significant_le n
    simp only [Amount.encode_text, List.length_cons, List.length_map]
    omega
  have h := restores_text (Amount.text n) rest hl
  exact (read_bind h).trans (by simp only [Amount.ofText_text]; rfl)

theorem restores_option {c : Codec α} {fits : α → Prop} (h : c.Restores fits) :
    (option c).Restores fun o => ∀ a ∈ o, fits a := by
  intro o rest ho
  cases o with
  | none => exact (read_bind (restores_u8 0 rest trivial)).trans rfl
  | some a =>
    have ha := h a rest (ho a rfl)
    exact (read_bind (restores_u8 1 (c.write a ++ rest) trivial)).trans (read_bind ha)

theorem nextMany_append {c : Codec α} {fits : α → Prop} (h : c.Restores fits) (as : List α)
    (ha : ∀ a ∈ as, fits a) (rest : Bytes) :
    nextMany c.read as.length (as.flatMap c.write ++ rest) = .ok (as, rest) := by
  induction as with
  | nil => rfl
  | cons a as ih =>
    have h1 := h a (as.flatMap c.write ++ rest) (ha a (List.mem_cons_self ..))
    have h2 := ih fun b hb => ha b (List.mem_cons_of_mem _ hb)
    rw [List.flatMap_cons, List.append_assoc, List.length_cons, nextMany, read_bind h1,
      read_bind h2]
    rfl

theorem restores_list {c : Codec α} {fits : α → Prop} (h : c.Restores fits) :
    (list c).Restores fun as => as.length < 2 ^ 64 ∧ ∀ a ∈ as, fits a := by
  intro as rest ⟨hl, ha⟩
  have h1 := nextNat_append (w := 8) (n := as.length) (by norm_num at hl ⊢; exact hl)
    (as.flatMap c.write ++ rest)
  rw [← List.append_assoc] at h1
  exact (read_bind h1).trans (nextMany_append h as ha rest)

theorem restores_pair {c : Codec α} {d : Codec β} {p : α → Prop} {q : β → Prop}
    (hc : c.Restores p) (hd : d.Restores q) : (pair c d).Restores fun x => p x.1 ∧ q x.2 := by
  rintro ⟨a, b⟩ rest ⟨ha, hb⟩
  have h1 := hc a (d.write b ++ rest) ha
  rw [← List.append_assoc] at h1
  exact (read_bind h1).trans (read_bind (hd b rest hb))

theorem restores_via {c : Codec β} {forth : α → β} {back : β → α} {p : β → Prop}
    (hc : c.Restores p) (hb : ∀ a, back (forth a) = a) :
    (via c forth back).Restores fun a => p (forth a) := by
  intro a rest ha
  exact (read_bind (hc (forth a) rest ha)).trans (by rw [hb]; rfl)

theorem Restores.mono {c : Codec α} {p q : α → Prop} (h : c.Restores p) (hq : ∀ a, q a → p a) :
    c.Restores q :=
  fun a rest ha => h a rest (hq a ha)

/-! ## Rows -/

theorem restores_header : header.Restores fun _ => True :=
  (restores_via (restores_pair (restores_fixed 32) (restores_pair (restores_fixed 32)
    (restores_pair restores_u64 restores_u64))) fun _ => rfl).mono fun _ _ => by simp

theorem decode_header (h : Header) : header.decode (header.write h) = .ok h :=
  restores_header.decode trivial

theorem write_header_injective {h h' : Header} (he : header.write h = header.write h') : h = h' := by
  have hd := decode_header h
  rw [he, decode_header] at hd
  exact (Except.ok.inj hd).symm

theorem restores_kind : kind.Restores fun _ => True :=
  restores_via (restores_choice (by decide)) fun k => by cases k <;> rfl

theorem restores_asset : asset.Restores fun _ => True := by
  intro a rest _
  cases a with
  | native id decimals =>
    have hf := restores_pair restores_u32 restores_u8 (id, decimals) rest ⟨trivial, trivial⟩
    have hc := restores_choice (by decide : 2 < 2 ^ 32) 0
      (nativeFields.write (id, decimals) ++ rest) trivial
    rw [← List.append_assoc] at hc
    exact (read_bind hc).trans (read_bind hf)
  | token contract id decimals =>
    have hf := restores_pair (restores_fixed 20) (restores_pair restores_u32 restores_u8)
      (contract, id, decimals) rest ⟨trivial, trivial, trivial⟩
    have hc := restores_choice (by decide : 2 < 2 ^ 32) 1
      (tokenFields.write (contract, id, decimals) ++ rest) trivial
    rw [← List.append_assoc] at hc
    exact (read_bind hc).trans (read_bind hf)

theorem restores_record : record.Restores Record.Fits := by
  have texts := restores_option restores_text
  have lists := restores_list (restores_fixed 20)
  refine (restores_via (restores_pair (restores_fixed 32) (restores_pair restores_u64
    (restores_pair restores_kind (restores_pair (restores_fixed 20) (restores_pair
    (restores_fixed 20) (restores_pair restores_amount (restores_pair restores_asset
    (restores_pair texts (restores_pair lists (restores_pair texts (restores_pair lists
    lists))))))))))) fun _ => rfl).mono fun r h => ?_
  simpa using ⟨h.counterpart, h.signers, h.platformTxHash, h.addedMembers, h.removedMembers⟩

/-- A written bridge record reads as that record, provided that it fits. -/
theorem decode_record {r : Record} (h : r.Fits) : record.decode (record.write r) = .ok r :=
  restores_record.decode h

/-! ## What is read fits -/

/-- Whatever is read fits. -/
def Yields (c : Codec α) (fits : α → Prop) : Prop :=
  ∀ b a rest, c.read b = .ok (a, rest) → fits a

theorem exists_of_read_bind {act : RowReader α} {f : α → RowReader β} {b rest : Bytes} {x : β}
    (h : (act >>= f) b = .ok (x, rest)) : ∃ a b', act b = .ok (a, b') ∧ f a b' = .ok (x, rest) := by
  obtain ⟨⟨a, b'⟩, ha, hf⟩ := exists_of_bind_eq_ok (x := act b) (f := fun p => f p.1 p.2) h
  exact ⟨a, b', ha, hf⟩

theorem Yields.decode {c : Codec α} {fits : α → Prop} (h : c.Yields fits) {b : Bytes} {a : α}
    (ha : c.decode b = .ok a) : fits a := by
  unfold Codec.decode at ha
  cases hr : c.read.run b with
  | error e =>
    rw [hr] at ha
    cases ha
  | ok p =>
    rw [hr] at ha
    cases ha
    exact h b p.1 p.2 hr

theorem yields_true (c : Codec α) : c.Yields fun _ => True := fun _ _ _ _ => trivial

theorem nextNat_lt {w n : ℕ} {b rest : Bytes} (h : nextNat w b = .ok (n, rest)) : n < 256 ^ w := by
  obtain ⟨word, b', -, h⟩ := exists_of_read_bind h
  cases h
  have hlt := Bytes.toNatLittle_lt word.bytes
  rwa [word.length_bytes] at hlt

theorem yields_text : text.Yields fun s => (Utf8.encode s).length < 2 ^ 64 := by
  intro b s rest h
  obtain ⟨bytes, b₁, hb, h⟩ := exists_of_read_bind h
  obtain ⟨length, b₂, hl, hb⟩ := exists_of_read_bind hb
  obtain ⟨piece, b₃, -, hb⟩ := exists_of_read_bind hb
  cases hb
  have hlt := nextNat_lt hl
  cases ht : Utf8.decode? piece.bytes with
  | none =>
    simp only [ht] at h
    cases h
  | some t =>
    simp only [ht] at h
    cases h
    have hle := Utf8.length_encode_le_of_decode? ht
    rw [piece.length_bytes] at hle
    exact Nat.lt_of_le_of_lt hle (by norm_num at hlt ⊢; exact hlt)

theorem yields_pair {c : Codec α} {d : Codec β} {p : α → Prop} {q : β → Prop} (hc : c.Yields p)
    (hd : d.Yields q) : (pair c d).Yields fun x => p x.1 ∧ q x.2 := by
  intro b x rest h
  obtain ⟨a, b₁, ha, h⟩ := exists_of_read_bind h
  obtain ⟨a', b₂, ha', h⟩ := exists_of_read_bind h
  cases h
  exact ⟨hc _ _ _ ha, hd _ _ _ ha'⟩

theorem yields_via {c : Codec β} {forth : α → β} {back : β → α} {p : β → Prop} {q : α → Prop}
    (hc : c.Yields p) (hq : ∀ x, p x → q (back x)) : (via c forth back).Yields q := by
  intro b a rest h
  obtain ⟨x, b', hx, h⟩ := exists_of_read_bind h
  cases h
  exact hq _ (hc _ _ _ hx)

end EvmBridge.Codec

namespace EvmBridge

/-! ## Quorum members -/

/-- Whether the lengths of a member's texts can be written in eight bytes. -/
structure QuorumMember.Fits (m : QuorumMember) : Prop where
  signAddress : (Utf8.encode m.signAddress).length < 2 ^ 64
  signingPublicKey : (Utf8.encode m.signingPublicKey).length < 2 ^ 64

namespace Codec

theorem restores_member : member.Restores QuorumMember.Fits :=
  (restores_via (restores_pair restores_text (restores_pair (restores_fixed 20)
    (restores_pair restores_text (restores_pair restores_bool restores_u32)))) fun _ => rfl).mono
    fun _ h => by simpa using ⟨h.signAddress, h.signingPublicKey⟩

/-- A written member reads as that member, provided that it fits. -/
theorem decode_member {m : QuorumMember} (h : m.Fits) : member.decode (member.write m) = .ok m :=
  restores_member.decode h

/-- A member that was read can be written. -/
theorem fits_of_decode_member {b : Bytes} {m : QuorumMember} (h : member.decode b = .ok m) :
    m.Fits :=
  (yields_via (yields_pair yields_text (yields_pair (yields_true _) (yields_pair yields_text
    (yields_true _)))) fun _ hx => ⟨hx.1, hx.2.2.1⟩ : member.Yields QuorumMember.Fits).decode h

end Codec
end EvmBridge
