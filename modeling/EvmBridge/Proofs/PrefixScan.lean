import EvmBridge.Store

/-! # Listing rows by how their keys begin

Keys that begin alike form an unbroken stretch of the key order (`Bytes.isPrefixOf_of_between`), so
that a listing which starts at the common beginning and stops at the first other key lists exactly
the rows with that beginning: `Rows.under_eq`. Where these rows read as the entries of a table whose
keys are ordered alike, the listing is the table: `Rows.map_under_eq`.
-/

namespace EvmBridge
set_option autoImplicit false

namespace Bytes

/-- A byte string comes nowhere after one that it begins with. -/
theorem before_eq_false_of_isPrefixOf {p a : Bytes} (h : p.isPrefixOf a = true) :
    before a p = false := by
  induction p generalizing a with
  | nil => cases a <;> rfl
  | cons x p ih =>
    cases a with
    | nil => cases h
    | cons y a =>
      simp only [List.isPrefixOf, Bool.and_eq_true, beq_iff_eq] at h
      obtain ⟨rfl, h⟩ := h
      simp [before, ih h]

theorem isPrefixOf_of_between {p a b : Bytes} (hpa : before a p = false) (hab : before a b = true)
    (hb : p.isPrefixOf b = true) : p.isPrefixOf a = true := by
  induction p generalizing a b with
  | nil => simp
  | cons x p ih =>
    cases b with
    | nil => cases hb
    | cons z b =>
      cases a with
      | nil => simp [before] at hpa
      | cons y a =>
        simp only [List.isPrefixOf, before, Bool.and_eq_true, beq_iff_eq, Bool.or_eq_true,
          decide_eq_true_eq, Bool.or_eq_false_iff, decide_eq_false_iff_not,
          Bool.and_eq_false_imp] at hb hpa hab ⊢
        obtain ⟨rfl, hb⟩ := hb
        rcases hab with hlt | ⟨rfl, hab⟩
        · exact absurd hlt hpa.1
        · exact ⟨rfl, ih (hpa.2 rfl) hab hb⟩

theorem before_append (p a b : Bytes) : before (p ++ a) (p ++ b) = before a b := by
  induction p with
  | nil => rfl
  | cons x p ih => simp [before, ih]

/-- The key order is the order of lists of bytes. -/
theorem before_iff_lt {a b : Bytes} : before a b = true ↔ a < b := by
  induction a generalizing b with
  | nil => cases b <;> simp [before]
  | cons x a ih =>
    cases b with
    | nil => simp [before]
    | cons y b => simp [before, List.cons_lt_cons_iff, UInt8.lt_iff_toNat_lt, ih]

end Bytes

open KeyOrder (before)

/-- Among ascending entries that do not come before the start, the keys that begin with it come
first. -/
theorem takeWhile_isPrefixOf {β : Type} (start : Bytes) (es : List (Bytes × β))
    (hs : es.Pairwise fun a b => before a.1 b.1 = true)
    (hf : ∀ e ∈ es, before e.1 start = false) :
    es.takeWhile (fun e => start.isPrefixOf e.1) = es.filter fun e => start.isPrefixOf e.1 := by
  induction es with
  | nil => rfl
  | cons e es ih =>
    have he := (List.pairwise_cons.1 hs).1
    have ih := ih (List.Pairwise.of_cons hs) fun e' h => hf e' (List.mem_cons_of_mem _ h)
    by_cases hp : start.isPrefixOf e.1 = true
    · rw [List.takeWhile_cons, if_pos hp, List.filter_cons, if_pos hp, ih]
    · rw [List.takeWhile_cons, if_neg hp, List.filter_cons, if_neg hp, eq_comm,
        List.filter_eq_nil_iff]
      intro e' h hp'
      exact hp (Bytes.isPrefixOf_of_between (hf e (List.mem_cons_self ..)) (he e' h) hp')

namespace Rows

/-- A listing holds exactly the rows whose keys begin as asked, in key order. -/
theorem under_eq (r : Rows) (start : Bytes) :
    r.under start = (r.filter fun k _ => start.isPrefixOf k).entries := by
  obtain ⟨es, hs⟩ := r
  show (es.dropWhile fun e => before e.1 start).takeWhile (fun e => start.isPrefixOf e.1)
    = es.filter fun e => start.isPrefixOf e.1
  induction es with
  | nil => rfl
  | cons e es ih =>
    have he := (List.pairwise_cons.1 hs).1
    by_cases hb : before e.1 start = true
    · have hp : ¬ start.isPrefixOf e.1 = true := by
        intro hp
        have := Bytes.before_eq_false_of_isPrefixOf hp
        exact absurd hb (by rw [show before e.1 start = false from this]; simp)
      rw [List.dropWhile_cons, if_pos hb, List.filter_cons, if_neg hp]
      exact ih (List.Pairwise.of_cons hs)
    · rw [List.dropWhile_cons, if_neg hb]
      apply takeWhile_isPrefixOf start _ hs
      intro e' h
      rcases List.mem_cons.1 h with rfl | h
      · simpa using hb
      · cases hlt : before e'.1 start with
        | false => rfl
        | true => exact absurd (KeyOrder.before_trans (he e' h) hlt) hb

theorem mem_under_iff {r : Rows} {start key value : Bytes} :
    (key, value) ∈ r.under start ↔ start.isPrefixOf key = true ∧ r.get? key = some value := by
  rw [under_eq, ← Table.get?_eq_some_iff, Table.get?_filter, Option.filter_eq_some_iff, and_comm]

theorem get?_eq_of_under_eq {r r' : Rows} {start key : Bytes} (h : r.under start = r'.under start)
    (hk : start.isPrefixOf key = true) : r.get? key = r'.get? key := by
  refine Option.ext fun value => ⟨fun hv => ?_, fun hv => ?_⟩
  · have hm := mem_under_iff.2 ⟨hk, hv⟩
    rw [h] at hm
    exact (mem_under_iff.1 hm).2
  · have hm := mem_under_iff.2 ⟨hk, hv⟩
    rw [← h] at hm
    exact (mem_under_iff.1 hm).2

theorem get?_eq_none_of_under_eq_nil {r : Rows} {start key : Bytes} (h : r.under start = [])
    (hk : start.isPrefixOf key = true) : r.get? key = none := by
  cases hg : r.get? key with
  | none => rfl
  | some value =>
    have hm := mem_under_iff.2 ⟨hk, hg⟩
    rw [h] at hm
    cases hm

/-! ## Tables written down as rows -/

variable {κ β : Type} [KeyOrder κ] [DecidableEq κ]

/-- Rows that read as a table list it in its own order. -/
theorem map_under_eq {γ : Type} {rows : Rows} {start : Bytes} {t : Table κ β} {f : κ → Bytes}
    {read : Bytes → γ} {g : β → γ}
    (hf : ∀ {a b}, before a b = true → before (f a) (f b) = true)
    (hp : ∀ k, start.isPrefixOf (f k) = true)
    (hg : ∀ k, (rows.get? (f k)).map read = (t.get? k).map g)
    (ho : ∀ key v, start.isPrefixOf key = true → rows.get? key = some v → ∃ k, key = f k) :
    (rows.under start).map (fun row => (row.1, read row.2))
      = t.entries.map fun e => (f e.1, g e.2) := by
  have hl : ((rows.under start).map fun row => (row.1, read row.2)).Pairwise
      fun a b => before a.1 b.1 = true := by
    rw [under_eq]
    exact List.pairwise_map.2 (rows.filter _).ascending
  have hs : (t.entries.map fun e => (f e.1, g e.2)).Pairwise fun a b => before a.1 b.1 = true :=
    List.pairwise_map.2 (t.ascending.imp hf)
  refine congrArg Table.entries
    (Table.ext_get? (s := ⟨_, hl⟩) (t := ⟨_, hs⟩) fun key => Option.ext fun v => ?_)
  rw [Table.get?_eq_some_iff ⟨_, hl⟩ key v, Table.get?_eq_some_iff ⟨_, hs⟩ key v, List.mem_map,
    List.mem_map]
  constructor
  · rintro ⟨⟨key, raw⟩, hm, he⟩
    cases he
    obtain ⟨hpre, hv⟩ := mem_under_iff.1 hm
    obtain ⟨k, rfl⟩ := ho key raw hpre hv
    have hk := hg k
    rw [hv] at hk
    obtain ⟨b, hb, hread⟩ := Option.map_eq_some_iff.1 hk.symm
    exact ⟨(k, b), (t.get?_eq_some_iff k b).1 hb, by rw [hread]⟩
  · rintro ⟨⟨k, b⟩, hm, he⟩
    cases he
    have hk := hg k
    rw [(t.get?_eq_some_iff k b).2 hm] at hk
    obtain ⟨raw, hv, hread⟩ := Option.map_eq_some_iff.1 hk
    exact ⟨(f k, raw), mem_under_iff.2 ⟨hp k, hv⟩, by rw [hread]⟩

/-- Rows that write down a table list it in its own order. -/
theorem under_eq_map {rows : Rows} {start : Bytes} {t : Table κ β} {f : κ → Bytes} {g : β → Bytes}
    (hf : ∀ {a b}, before a b = true → before (f a) (f b) = true)
    (hp : ∀ k, start.isPrefixOf (f k) = true) (hg : ∀ k, rows.get? (f k) = (t.get? k).map g)
    (ho : ∀ key v, start.isPrefixOf key = true → rows.get? key = some v → ∃ k, key = f k) :
    rows.under start = t.entries.map fun e => (f e.1, g e.2) := by
  have hg' : ∀ k, (rows.get? (f k)).map id = (t.get? k).map g := fun k => by
    rw [Option.map_id_apply, hg]
  simpa using map_under_eq hf hp hg' ho

end Rows
end EvmBridge
