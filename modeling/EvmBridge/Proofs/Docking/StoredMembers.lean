import EvmBridge.Proofs.Docking.MemberOrder
import EvmBridge.Proofs.PrefixScan
import EvmBridge.Proofs.RowRoundTrip
import EvmBridge.Proofs.StoreCalls
import EvmBridge.Proofs.Tables

/-! # The members that a store holds

`Members.HeldBy ms rows`: the rows of the member table read as exactly these members, in whatever
order. Storing a member once more with another number and removing members keep this relation, and
loading finds the held members by order (`Members.HeldBy.ends_load`).
-/

namespace EvmBridge
set_option autoImplicit false
open KeyOrder (before)
open EvmBridge.Action

/-! ## Members by their sign addresses -/

namespace Docking

theorem perm_entries_bySignAddress {ms : List QuorumMember}
    (h : (ms.map (·.signAddress)).Nodup) :
    (bySignAddress ms).entries.Perm (ms.map fun m => (m.signAddress, m)) :=
  Table.perm_entries_ofList (by rwa [List.map_map])

theorem perm_values_bySignAddress {ms : List QuorumMember} (h : (ms.map (·.signAddress)).Nodup) :
    (bySignAddress ms).values.Perm ms := by
  have hp := (perm_entries_bySignAddress h).map (·.2)
  rwa [List.map_map, show ((·.2) ∘ fun m : QuorumMember => (m.signAddress, m)) = id from rfl,
    List.map_id] at hp

theorem get?_bySignAddress {ms : List QuorumMember} (h : (ms.map (·.signAddress)).Nodup)
    {x : String} {m : QuorumMember} :
    (bySignAddress ms).get? x = some m ↔ m ∈ ms ∧ m.signAddress = x := by
  rw [Table.get?_eq_some_iff, (perm_entries_bySignAddress h).mem_iff, List.mem_map]
  constructor
  · rintro ⟨m', hm, he⟩
    cases he
    exact ⟨hm, rfl⟩
  · rintro ⟨hm, rfl⟩
    exact ⟨m, hm, rfl⟩

/-- Two members may have the same sign address: then one of them is left. -/
theorem mem_of_mem_bySignAddress {ms : List QuorumMember} {m : QuorumMember}
    (h : m ∈ (bySignAddress ms).values) : m ∈ ms := by
  have hall : ∀ m' ∈ (bySignAddress ms).values, m' ∈ ms := by
    refine List.foldlRecOn (motive := fun t : Table String QuorumMember => ∀ m' ∈ t.values, m' ∈ ms)
      _ _ (fun _ h => nomatch h) fun t ht e he m' hm' => ?_
    obtain ⟨added, hadded, rfl⟩ := List.mem_map.1 he
    rcases Table.mem_values_insert hm' with rfl | hm'
    · exact hadded
    · exact ht m' hm'
  exact hall m h

theorem bySignAddress_congr {ms ms' : List QuorumMember} (h : (ms.map (·.signAddress)).Nodup)
    (hp : ms'.Perm ms) : bySignAddress ms' = bySignAddress ms := by
  have h' := (hp.map (·.signAddress)).nodup_iff.2 h
  refine Table.ext_get? fun x => Option.ext fun m => ?_
  rw [get?_bySignAddress h, get?_bySignAddress h', hp.mem_iff]

theorem bySignAddress_values {t : Table String QuorumMember}
    (ht : t.FiledBy QuorumMember.signAddress) :
    bySignAddress t.values = t := by
  refine Table.ext_get? fun x => Option.ext fun m => ?_
  rw [get?_bySignAddress ht.nodup, ht.mem_values_iff]
  constructor
  · rintro ⟨hm, rfl⟩
    exact hm
  · intro hm
    obtain rfl := ht x m hm
    exact ⟨hm, rfl⟩

end Docking

namespace Members

/-! ## Keys -/

theorem key_before {a b : String} (h : before a b = true) : before (key a) (key b) = true := by
  show Bytes.before (table ++ Utf8.encode a) (table ++ Utf8.encode b) = true
  rwa [Bytes.before_append]

theorem key_injective {a b : String} (h : key a = key b) : a = b :=
  Utf8.encode_injective (List.append_cancel_left h)

theorem isPrefixOf_key (x : String) : table.isPrefixOf (key x) = true := by
  simp [key, List.isPrefixOf_iff_prefix]

/-! ## Loaded members -/

/-- Loaded members were read from rows, and so can be written, whatever the rows are. -/
theorem ends_load_fits {s : Store} :
    Ends load s (fun ms _ => ∀ m ∈ ms, m.Fits) fun _ _ => True := by
  refine (Ends.trivial _ _).bind (fun rows _ _ => ?_) fun _ _ _ => trivial
  refine ends_bind.2 (ends_ofExcept.2 ?_)
  cases hread : rows.mapM fun row => Codec.member.decode row.2 with
  | error e => trivial
  | ok ms =>
    intro m hm
    obtain ⟨row, -, hrow⟩ := exists_of_mapM_eq_ok hread m ((perm_byOrder ms).mem_iff.1 hm)
    exact Codec.fits_of_decode_member hrow

/-! ## Held members -/

/-- Whether the rows of the member table read as exactly these members. -/
structure HeldBy (ms : List QuorumMember) (rows : Rows) : Prop where
  distinct : (ms.map (·.signAddress)).Nodup
  row : ∀ m ∈ ms, (rows.get? (key m.signAddress)).map Codec.member.decode = some (.ok m)
  only : ∀ k v, table.isPrefixOf k = true → rows.get? k = some v → ∃ m ∈ ms, k = key m.signAddress

theorem heldBy_nil {rows : Rows} (h : rows.under table = []) : HeldBy [] rows where
  distinct := .nil
  row m hm := by cases hm
  only k v hk hv := by
    rw [Rows.get?_eq_none_of_under_eq_nil h hk] at hv
    cases hv

namespace HeldBy
variable {ms ms' : List QuorumMember} {rows : Rows}

theorem perm (h : HeldBy ms rows) (hp : ms.Perm ms') : HeldBy ms' rows where
  distinct := (hp.map _).nodup_iff.1 h.distinct
  row m hm := h.row m (hp.mem_iff.2 hm)
  only k v hk hv := by
    obtain ⟨m, hm, rfl⟩ := h.only k v hk hv
    exact ⟨m, hp.mem_iff.1 hm, rfl⟩

/-- A held member was read from a row, and so its texts are not too long to be written. -/
theorem fits (h : HeldBy ms rows) {m : QuorumMember} (hm : m ∈ ms) : m.Fits := by
  obtain ⟨v, -, hv⟩ := Option.map_eq_some_iff.1 (h.row m hm)
  exact Codec.fits_of_decode_member hv

theorem get?_key (h : HeldBy ms rows) (x : String) :
    (rows.get? (key x)).map Codec.member.decode
      = ((Docking.bySignAddress ms).get? x).map .ok := by
  cases hm : (Docking.bySignAddress ms).get? x with
  | some m =>
    obtain ⟨hmem, rfl⟩ := (Docking.get?_bySignAddress h.distinct).1 hm
    exact h.row m hmem
  | none =>
    cases hv : rows.get? (key x) with
    | none => rfl
    | some v =>
      obtain ⟨m, hm', hk⟩ := h.only (key x) v (isPrefixOf_key x) hv
      have hx := (Docking.get?_bySignAddress h.distinct).2 ⟨hm', (key_injective hk).symm⟩
      rw [hm] at hx
      cases hx

/-! ### Changes -/

theorem remove {m : QuorumMember} (h : HeldBy (m :: ms) rows) :
    HeldBy ms (rows.erase (key m.signAddress)) := by
  obtain ⟨hm, hd⟩ := List.nodup_cons.1 (List.map_cons .. ▸ h.distinct)
  refine ⟨hd, fun m' hm' => ?_, fun k v hk hv => ?_⟩
  · have hne : key m.signAddress ≠ key m'.signAddress := fun he =>
      hm (key_injective he ▸ List.mem_map_of_mem hm')
    rw [Table.get?_erase, if_neg hne]
    exact h.row m' (List.mem_cons_of_mem _ hm')
  · rw [Table.get?_erase] at hv
    split at hv
    · cases hv
    next hne =>
      obtain ⟨m', hm', rfl⟩ := h.only k v hk hv
      rcases List.mem_cons.1 hm' with rfl | hm'
      · exact absurd rfl hne
      · exact ⟨m', hm', rfl⟩

theorem add {m : QuorumMember} (h : HeldBy ms rows) (hm : m.signAddress ∉ ms.map (·.signAddress))
    (hf : m.Fits) :
    HeldBy (m :: ms) (rows.insert (key m.signAddress) (Codec.member.write m)) := by
  refine ⟨?_, fun m' hm' => ?_, fun k v hk hv => ?_⟩
  · rw [List.map_cons]
    exact List.nodup_cons.2 ⟨hm, h.distinct⟩
  · rw [Table.get?_insert]
    rcases List.mem_cons.1 hm' with rfl | hm'
    · rw [if_pos rfl, Option.map_some, Codec.decode_member hf]
    · have hne : key m.signAddress ≠ key m'.signAddress := fun he =>
        hm (key_injective he ▸ List.mem_map_of_mem hm')
      rw [if_neg hne]
      exact h.row m' hm'
  · rw [Table.get?_insert] at hv
    split at hv
    next he => exact ⟨m, List.mem_cons_self .., he.symm⟩
    · obtain ⟨m', hm', rfl⟩ := h.only k v hk hv
      exact ⟨m', List.mem_cons_of_mem _ hm', rfl⟩

/-- Storing a member puts it in the place of the one with its sign address. -/
theorem replace {m m' : QuorumMember} (h : HeldBy (m :: ms) rows)
    (hs : m'.signAddress = m.signAddress) (hf : m'.Fits) :
    HeldBy (m' :: ms) (rows.insert (key m'.signAddress) (Codec.member.write m')) := by
  have hm : m'.signAddress ∉ ms.map (·.signAddress) := by
    rw [hs]
    exact (List.nodup_cons.1 (List.map_cons .. ▸ h.distinct)).1
  have hadd := h.remove.add hm hf
  have hrows : (rows.erase (key m.signAddress)).insert (key m'.signAddress) (Codec.member.write m')
      = rows.insert (key m'.signAddress) (Codec.member.write m') := by
    refine Table.ext_get? fun k => ?_
    rw [Table.get?_insert, Table.get?_insert, Table.get?_erase, hs]
    split <;> rfl
  rwa [hrows] at hadd

end HeldBy

/-- How a member is stored. -/
def storing (m : QuorumMember) : RowChange := .put (key m.signAddress) (Codec.member.write m)

/-- How a member is removed. -/
def removal (m : QuorumMember) : RowChange := .delete (key m.signAddress)

namespace HeldBy
variable {ms : List QuorumMember} {rows : Rows}

theorem removals {out : List QuorumMember} (h : HeldBy (out ++ ms) rows) :
    HeldBy ms (rows.apply (out.map removal)) := by
  induction out generalizing rows with
  | nil => exact h
  | cons m out ih => exact ih (remove h)

/-- Members who are stored with new numbers are held with these. -/
theorem numbered {n : Nat} {before after : List QuorumMember} (h : HeldBy (before ++ after) rows) :
    HeldBy (Registry.numberFrom n before ++ after)
      (rows.apply ((Registry.numberFrom n before).map storing)) := by
  induction before generalizing n rows after with
  | nil => exact h
  | cons m before ih =>
    rw [Registry.numberFrom, List.map_cons]
    generalize UInt32.ofNat (min n (UInt32.size - 1)) = order
    have hm : m.Fits := h.fits (List.mem_cons_self ..)
    have hf : QuorumMember.Fits { m with order := order } := ⟨hm.signAddress, hm.signingPublicKey⟩
    have hone : HeldBy ({ m with order := order } :: (before ++ after))
        (rows.change (storing { m with order := order })) := replace h rfl hf
    -- While the others are numbered, this member stands behind them with its number.
    exact (ih (hone.perm List.perm_middle.symm)).perm List.perm_middle

/-- Members who were not held are stored one after the other. -/
theorem additions {new : List QuorumMember} (h : HeldBy ms rows)
    (hd : ((new ++ ms).map (·.signAddress)).Nodup) (hf : ∀ m ∈ new, m.Fits) :
    HeldBy (new ++ ms) (rows.apply (new.map storing)) := by
  induction new generalizing ms rows with
  | nil => exact h
  | cons m new ih =>
    have hperm : (new ++ m :: ms).Perm (m :: new ++ ms) := List.perm_middle
    have hm : m.signAddress ∉ ms.map (·.signAddress) := by
      rw [List.cons_append, List.map_cons, List.nodup_cons, List.map_append, List.mem_append,
        not_or] at hd
      exact hd.1.2
    have hone : HeldBy (m :: ms) (rows.change (storing m)) := h.add hm (hf m (List.mem_cons_self ..))
    exact (ih hone ((hperm.map _).nodup_iff.2 hd)
      fun m' hm' => hf m' (List.mem_cons_of_mem _ hm')).perm hperm

/-! ### Loading -/

theorem ends_load {s : Store} (h : HeldBy ms s.rows) :
    Ends load s (fun l s' => l = byOrder (Docking.bySignAddress ms).values ∧ s'.rows = s.rows ∧
        s'.plan = s.plan)
      fun _ s' => s.MayFail ∧ s'.rows = s.rows := by
  have hlist := Rows.map_under_eq key_before isPrefixOf_key h.get?_key fun k v hk hv => by
    obtain ⟨m, -, he⟩ := h.only k v hk hv
    exact ⟨_, he⟩
  have hread : (s.rows.under table).mapM (fun row => Codec.member.decode row.2)
      = .ok (Docking.bySignAddress ms).values := by
    have hdecode : (s.rows.under table).map (fun row => Codec.member.decode row.2)
        = (Docking.bySignAddress ms).values.map .ok := by
      have hsnd := congrArg (List.map (·.2)) hlist
      rw [List.map_map, List.map_map] at hsnd
      rw [Table.values, List.map_map]
      exact hsnd
    calc (s.rows.under table).mapM (fun row => Codec.member.decode row.2)
        = ((s.rows.under table).map fun row => Codec.member.decode row.2).mapM id := by
          rw [List.mapM_map]
          rfl
      _ = (Docking.bySignAddress ms).values.mapM fun m => pure m := by
          rw [hdecode, List.mapM_map]
          rfl
      _ = .ok (Docking.bySignAddress ms).values := by
          rw [List.mapM_pure, List.map_id']
          rfl
  refine ends_bind.2 (Store.ends_perform ?_ fun hf _ => ⟨hf, rfl⟩)
  refine ends_bind.2 (ends_ofExcept.2 ?_)
  rw [hread]
  exact ⟨rfl, rfl, rfl⟩

end HeldBy

/-! ### Members in a table -/

section Tables
variable {t : Table String QuorumMember} {rows : Rows}

/-- The members of a table are held if every look-up in the table reads the row of its key. -/
theorem heldBy_values_iff (ht : t.FiledBy QuorumMember.signAddress) :
    HeldBy t.values rows ↔
      (∀ x, (rows.get? (key x)).map Codec.member.decode = (t.get? x).map .ok) ∧
        ∀ k v, table.isPrefixOf k = true → rows.get? k = some v → ∃ x, k = key x := by
  constructor
  · refine fun h => ⟨fun x => ?_, fun k v hk hv => ?_⟩
    · rw [h.get?_key, Docking.bySignAddress_values ht]
    · obtain ⟨m, -, he⟩ := h.only k v hk hv
      exact ⟨_, he⟩
  · refine fun ⟨hrow, honly⟩ => ⟨ht.nodup, fun m hm => ?_, fun k v hk hv => ?_⟩
    · rw [hrow, ht.mem_values_iff.1 hm, Option.map_some]
    · obtain ⟨x, rfl⟩ := honly k v hk hv
      have hx := hrow x
      rw [hv] at hx
      obtain ⟨m, hm, -⟩ := Option.map_eq_some_iff.1 hx.symm
      exact ⟨m, Table.mem_values_iff.2 ⟨x, hm⟩, by rw [ht x m hm]⟩

/-- A member that is stored and added, whether its sign address is a new one or not. -/
theorem HeldBy.insert (h : HeldBy t.values rows) (ht : t.FiledBy QuorumMember.signAddress)
    {m : QuorumMember} (hf : m.Fits) :
    HeldBy (t.insert m.signAddress m).values
      (rows.insert (key m.signAddress) (Codec.member.write m)) := by
  obtain ⟨hrow, honly⟩ := (heldBy_values_iff ht).1 h
  refine (heldBy_values_iff (ht.insert m)).2 ⟨fun x => ?_, fun k v hk hv => ?_⟩
  · rw [Table.get?_insert, Table.get?_insert]
    by_cases hx : m.signAddress = x
    · rw [if_pos (congrArg key hx), if_pos hx, Option.map_some, Codec.decode_member hf,
        Option.map_some]
    · rw [if_neg fun he => hx (key_injective he), if_neg hx, hrow]
  · rw [Table.get?_insert] at hv
    split at hv
    next he => exact ⟨_, he.symm⟩
    · exact honly k v hk hv

/-- A member that is removed, whether there was one or not. -/
theorem HeldBy.erase (h : HeldBy t.values rows) (ht : t.FiledBy QuorumMember.signAddress) (x : String) :
    HeldBy (t.erase x).values (rows.erase (key x)) := by
  obtain ⟨hrow, honly⟩ := (heldBy_values_iff ht).1 h
  have hfiled : (t.erase x).FiledBy QuorumMember.signAddress := ht.filter _
  refine (heldBy_values_iff hfiled).2 ⟨fun x' => ?_, fun k v hk hv => ?_⟩
  · rw [Table.get?_erase, Table.get?_erase]
    by_cases hx : x = x'
    · rw [if_pos (congrArg key hx), if_pos hx]
      rfl
    · rw [if_neg fun he => hx (key_injective he), if_neg hx, hrow]
  · exact honly k v hk (Table.get?_of_get?_erase hv)

end Tables
end Members
end EvmBridge
