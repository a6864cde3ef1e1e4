import EvmBridge.Proofs.Heights
import EvmBridge.Proofs.Scan.Run

/-! # A scanner that nothing disturbs

While no call fails and the node serves one chain, the ledger holds the headers of that chain in one
range of heights, its window. Each call moves the window, in one of four ways: it starts, grows by
one header, shrinks by one header or stays.
-/

namespace EvmBridge
set_option autoImplicit false

/-- A header without the time at which it was observed. -/
def Header.undated (h : Header) : Header := { h with observedAt := 0 }

/-- The scanner's node serves the blocks of one chain from the first height to scan up to a tip, and
neither it nor the analysis ever fails. -/
structure Scanner.Watches (sc : Scanner) (block : UInt64 → Block) (tip : UInt64) : Prop where
  never_fails : ¬ sc.MayFail
  serves : ∀ past height, sc.startHeight ≤ height →
    sc.node.respond past (.block height) sc.timeLimit
      = .answer (if height ≤ tip then some (block height) else none)
  start_le : sc.startHeight ≤ tip
  tip_lt : tip.toNat + 1 < UInt64.size
  own_height : ∀ height, sc.startHeight ≤ height → height ≤ tip → (block height).height = height
  linked : ∀ height, sc.startHeight ≤ height → height < tip →
    (block (height + 1)).parentHash = (block height).hash

/-! ## Windows -/

namespace Contents
open Ledger

/-- Nothing is known of any header. -/
structure Blank (c : Contents) (slot : Option Header) : Prop where
  rows : ∀ height, c.headers.get? height = none
  newest : slot = none

/-- The headers are those of a chain's blocks in a range of heights, the last one in the slot. -/
structure Window (block : UInt64 → Block) (oldest : ℕ) (top : UInt64) (c : Contents)
    (slot : Option Header) : Prop where
  le : oldest ≤ top.toNat
  rows : ∀ height, (c.headers.get? height).map Header.undated
    = if oldest ≤ height.toNat ∧ height.toNat ≤ top.toNat then some ((block height).header 0) else none
  newest : slot.map Header.undated = some ((block top).header 0)

theorem Blank.latest {c : Contents} {slot : Option Header} (hc : c.Blank slot) :
    c.latest slot = none := by
  rw [Contents.latest, hc.newest, Table.last?_eq_none_iff.2 hc.rows]
  rfl

namespace Window
variable {block block' : UInt64 → Block} {oldest : ℕ} {top : UInt64} {c : Contents}
  {slot : Option Header}

theorem exists_newest (hc : c.Window block oldest top slot) :
    ∃ h, slot = some h ∧ h.height = (block top).height ∧ h.hash = (block top).hash := by
  obtain ⟨h, rfl, he⟩ := Option.map_eq_some_iff.1 hc.newest
  exact ⟨h, rfl, (congrArg Header.height he :), (congrArg Header.hash he :)⟩

/-- The window of one chain is that of another one with the same blocks there. -/
theorem transfer (hc : c.Window block oldest top slot)
    (h : ∀ height : UInt64, oldest ≤ height.toNat → height.toNat ≤ top.toNat →
      block height = block' height) : c.Window block' oldest top slot where
  le := hc.le
  rows height := by
    rw [hc.rows]
    split
    next hr => rw [h height hr.1 hr.2]
    · rfl
  newest := by rw [hc.newest, h top hc.le (Nat.le_refl _)]

theorem addRecords (hc : c.Window block oldest top slot) (found : List Record) :
    (c.addRecords found).Window block oldest top slot where
  le := hc.le
  rows height := by rw [c.headers_addRecords, hc.rows]
  newest := hc.newest

/-- The header right above grows the window. -/
theorem addHeader (hc : c.Window block oldest top slot) (now : UInt64)
    (htop : top.toNat + 1 < UInt64.size) (hb : (block (top + 1)).height = top + 1) :
    (c.addHeader ((block (top + 1)).header now)).Window block oldest (top + 1)
      (some ((block (top + 1)).header now)) where
  le := by
    rw [Height.toNat_next htop]
    exact Nat.le_succ_of_le hc.le
  rows height := by
    have hnext := Height.toNat_next htop
    have hle := hc.le
    have hheight : ((block (top + 1)).header now).height = top + 1 := hb
    rw [Contents.addHeader, Table.get?_insert, hheight]
    by_cases heq : top + 1 = height
    · subst heq
      rw [if_pos rfl, if_pos (by omega)]
      rfl
    · rw [if_neg heq, hc.rows]
      have hne := mt UInt64.toNat_inj.1 heq
      rw [hnext] at hne ⊢
      exact if_congr (by omega) rfl rfl
  newest := rfl

/-- Cutting off lifts the lower end of the window. -/
theorem cutOff (hc : c.Window block oldest top slot) (below : UInt64) (hbelow : below ≤ top) :
    (c.cutOff below).Window block (max oldest below.toNat) top slot where
  le := max_le hc.le hbelow
  rows height := by
    have hrows := hc.rows height
    rw [Contents.cutOff, Table.get?_filter]
    by_cases hlt : height < below
    · have hlt' := UInt64.lt_iff_toNat_lt.1 hlt
      rw [if_neg (by omega)]
      cases c.headers.get? height <;> simp [hlt]
    · have hle' : below.toNat ≤ height.toNat := Nat.le_of_not_lt hlt
      have hsame : ((c.headers.get? height).filter fun _ => ¬ height < below)
          = c.headers.get? height := by
        cases c.headers.get? height <;> simp [hlt]
      rw [hsame, hrows]
      exact if_congr (by omega) rfl rfl
  newest := hc.newest

/-- Dropping the newest header shrinks the window. -/
theorem dropTop (hc : c.Window block oldest top slot) (h : oldest < top.toNat) :
    (c.dropHeader top).Window block oldest (top - 1) (c.below? top) := by
  have h0 : top ≠ 0 := by
    rintro rfl
    exact absurd h (Nat.not_lt_zero _)
  have hprev := Height.toNat_previous h0
  refine ⟨by omega, fun height => ?_, ?_⟩
  · rw [Contents.dropHeader, Table.get?_erase]
    by_cases heq : top = height
    · subst heq
      rw [if_pos rfl, if_neg (by omega)]
      rfl
    · have hne := mt UInt64.toNat_inj.1 heq
      rw [if_neg heq, hc.rows]
      exact if_congr (by omega) rfl rfl
  · rw [Contents.below?, if_neg h0, hc.rows, if_pos (by omega)]

/-- Dropping the only header leaves nothing. -/
theorem dropLast (hc : c.Window block oldest top slot) (h : oldest = top.toNat) :
    (c.dropHeader top).Blank (c.below? top) := by
  refine ⟨fun height => ?_, ?_⟩
  · rw [Contents.dropHeader, Table.get?_erase]
    by_cases heq : top = height
    · rw [if_pos heq]
    · have hne := mt UInt64.toNat_inj.1 heq
      have hrows := hc.rows height
      rw [if_neg (by omega)] at hrows
      rw [if_neg heq, Option.map_eq_none_iff.1 hrows]
  · rw [Contents.below?]
    split
    · rfl
    next h0 =>
      have hprev := Height.toNat_previous h0
      have hpos := Height.pos_of_ne_zero h0
      have hrows := hc.rows (top - 1)
      rw [if_neg (by omega)] at hrows
      exact Option.map_eq_none_iff.1 hrows

end Window

/-- The first header makes a window. -/
theorem Blank.addHeader {c : Contents} {slot : Option Header} (hc : c.Blank slot)
    {block : UInt64 → Block} {height : UInt64} (now : UInt64) (hb : (block height).height = height) :
    (c.addHeader ((block height).header now)).Window block height.toNat height
      (some ((block height).header now)) where
  le := Nat.le_refl _
  rows height' := by
    have hheight : ((block height).header now).height = height := hb
    rw [Contents.addHeader, Table.get?_insert, hheight]
    by_cases heq : height = height'
    · subst heq
      rw [if_pos rfl, if_pos (by omega)]
      rfl
    · have hne := mt UInt64.toNat_inj.1 heq
      rw [if_neg heq, hc.rows, if_neg (by omega)]
      rfl
  newest := rfl

/-- Two ledgers with the same window show the same headers. -/
theorem persisted_eq_of_window {l l' : Ledger} {c c' : Contents} {block : UInt64 → Block}
    {oldest : ℕ} {top : UInt64} (hc : c.HeldBy l.store.rows) (hc' : c'.HeldBy l'.store.rows)
    (h : c.Window block oldest top l.newest) (h' : c'.Window block oldest top l'.newest) :
    l.persisted.map (fun row => (row.1, row.2.map Header.undated))
      = l'.persisted.map (fun row => (row.1, row.2.map Header.undated)) := by
  have hsame := Table.map_entries_eq Header.undated fun height =>
    (h.rows height).trans (h'.rows height).symm
  have hshow := congrArg (List.map fun e => (headerKey e.1, some e.2)) hsame
  rw [Ledger.persisted_eq hc, Ledger.persisted_eq hc']
  simpa only [List.map_map, Function.comp_def, Option.map_some] using hshow

end Contents

/-! ## Calls -/

/-- No store call can fail, and the contents and the slot are as said. -/
def ScanState.Shows (s : ScanState) (shown : Contents → Option Header → Prop) : Prop :=
  ¬ s.ledger.store.MayFail ∧
    ∃ c : Contents, c.HeldBy s.ledger.store.rows ∧ shown c s.ledger.newest

namespace Scanner
variable {sc : Scanner} {block block' : UInt64 → Block} {tip : UInt64}

theorem Watches.answer_eq (hsc : sc.Watches block tip) {height : UInt64}
    (h : sc.startHeight ≤ height) {answer : Option Block} (ha : sc.Answers height answer) :
    answer = if height ≤ tip then some (block height) else none := by
  obtain ⟨past, ha⟩ := ha
  rw [hsc.serves past height h] at ha
  exact (Reply.answer.inj ha).symm

/-- All that a call can do that nothing disturbs. -/
theorem Watches.step_cases (hsc : sc.Watches block tip) {now : UInt64} {s s' : ScanState}
    {c : Contents} {result : Except BridgeError ScanOutcome} {next : UInt64}
    (hstore : ¬ s.ledger.store.MayFail) (hnext : sc.nextHeight (s.latest c) = next)
    (hstart : sc.startHeight ≤ next) (h : sc.Step now s c result s') :
    (tip < next ∧ result = .ok .upToDate ∧
      ∃ made, s.ledger.Leaves s'.ledger made c (s.latest c)) ∨
    (∃ previous, next ≤ tip ∧ s.latest c = some previous ∧
      previous.hash ≠ (block next).parentHash ∧ result = .ok (.rewound previous.height) ∧
      ∃ made, s.ledger.Leaves s'.ledger made (c.dropHeader previous.height)
        (c.below? previous.height)) ∨
    (next ≤ tip ∧ (∀ previous ∈ s.latest c, previous.hash = (block next).parentHash) ∧
      result = .ok (.advanced next) ∧
      ∃ found made, s.ledger.Leaves s'.ledger made
        (sc.kept next ((c.addRecords found).addHeader ((block next).header now)))
        (some ((block next).header now))) := by
  have hserved : ∀ {b : Block}, sc.Answers next (some b) → next ≤ tip ∧ b = block next := by
    intro b hb
    have hb := hsc.answer_eq hstart hb
    split at hb
    next hle => exact ⟨hle, Option.some.inj hb⟩
    · cases hb
  cases h with
  | stalled hf _ _ _ _ _ =>
    rcases hf with hf | hf
    · exact absurd hf hstore
    · exact absurd hf hsc.never_fails
  | upToDate ha hl _ =>
    rw [hnext] at ha
    have ha := hsc.answer_eq hstart ha
    split at ha
    · cases ha
    next hgt => exact .inl ⟨UInt64.not_le.1 hgt, rfl, _, hl⟩
  | unread hf _ _ _ _ _ _ _ => exact absurd hf hstore
  | rewound hb hprevious hne hl _ =>
    rw [hnext] at hb
    obtain ⟨hle, rfl⟩ := hserved hb
    exact .inr (.inl ⟨_, hle, hprevious, hne, rfl, _, hl⟩)
  | uncut hf _ _ _ _ _ _ _ => exact absurd hf hstore
  | advanced hb hparent _ hl _ =>
    rw [hnext] at hb ⊢
    obtain ⟨hle, rfl⟩ := hserved hb
    rw [hsc.own_height next hstart hle] at hl
    exact .inr (.inr ⟨hle, hparent, rfl, _, _, hl⟩)

/-- From every state that shows one thing, calls have these outcomes and leave another one. -/
def Leads (sc : Scanner) (before : Contents → Option Header → Prop) (outcomes : List ScanOutcome)
    (after : Contents → Option Header → Prop) : Prop :=
  ∀ (s : ScanState) (times : List UInt64), s.Shows before → times.length = outcomes.length →
    (sc.run times s).1 = outcomes.map .ok ∧ (sc.run times s).2.Shows after

section Leads
variable {before mid after : Contents → Option Header → Prop} {outcomes later : List ScanOutcome}

theorem Leads.refl (sc : Scanner) (before : Contents → Option Header → Prop) :
    sc.Leads before [] before := by
  intro s times hs ht
  rw [List.length_eq_zero_iff.1 ht]
  exact ⟨rfl, hs⟩

theorem Leads.trans (h : sc.Leads before outcomes mid) (h' : sc.Leads mid later after) :
    sc.Leads before (outcomes ++ later) after := by
  intro s times hs ht
  rw [List.length_append] at ht
  have hsplit := List.take_append_drop outcomes.length times
  obtain ⟨h₁, hs₁⟩ := h s (times.take outcomes.length) hs (by rw [List.length_take]; omega)
  obtain ⟨h₂, hs₂⟩ := h' _ (times.drop outcomes.length) hs₁ (by rw [List.length_drop]; omega)
  rw [← hsplit, run_append, h₁, h₂, List.map_append]
  exact ⟨rfl, hs₂⟩

theorem Leads.weaken (h : sc.Leads before outcomes mid) (hafter : ∀ c slot, mid c slot → after c slot) :
    sc.Leads before outcomes after := by
  intro s times hs ht
  obtain ⟨h₁, hstore, c, hc, hmid⟩ := h s times hs ht
  exact ⟨h₁, hstore, c, hc, hafter _ _ hmid⟩

/-- One call. -/
theorem Leads.single {outcome : ScanOutcome}
    (hstep : ∀ {now s c result s'}, ¬ s.ledger.store.MayFail → before c s.ledger.newest →
      sc.Step now s c result s' →
      result = .ok outcome ∧ ∃ made c' slot, s.ledger.Leaves s'.ledger made c' slot ∧ after c' slot) :
    sc.Leads before [outcome] after := by
  intro s times hs ht
  obtain ⟨now, rfl⟩ := List.length_eq_one_iff.1 ht
  obtain ⟨hstore, c, hc, hs⟩ := hs
  obtain ⟨hresult, made, c', slot, hl, hafter⟩ := hstep hstore hs (sc.step_syncNext hc now)
  refine ⟨congrArg (fun result => [result]) hresult, fun hf => hstore (hl.mayFail hf), c', hl.held, ?_⟩
  rwa [← hl.newest] at hafter

end Leads

/-! ## Ways to move the window -/

/-- What is left of a window after a commit. -/
theorem window_kept (sc : Scanner) {c : Contents} {slot : Option Header} {oldest : ℕ} {top : UInt64}
    (hc : c.Window block oldest top slot) :
    (sc.kept top c).Window block (max oldest (top.toNat - sc.retention.toNat)) top slot := by
  rw [Scanner.kept]
  split
  next hle =>
    rw [← UInt64.toNat_sub_of_le top sc.retention hle]
    refine hc.cutOff _ ?_
    rw [UInt64.le_iff_toNat_le, UInt64.toNat_sub_of_le top sc.retention hle]
    exact Nat.sub_le ..
  next hgt =>
    have hgt := UInt64.lt_iff_toNat_lt.1 (UInt64.not_le.1 hgt)
    rwa [Nat.sub_eq_zero_of_le hgt.le, Nat.max_zero]

/-- An empty ledger is scanned from the first height. -/
theorem Watches.leads_start (hsc : sc.Watches block tip) :
    sc.Leads Contents.Blank [.advanced sc.startHeight]
      (Contents.Window block sc.startHeight.toNat sc.startHeight) := by
  refine .single fun {now s c result s'} hstore hs hstep => ?_
  have hlatest : s.latest c = none := hs.latest
  have hnext : sc.nextHeight (s.latest c) = sc.startHeight := by rw [hlatest]; rfl
  rcases hsc.step_cases hstore hnext (UInt64.le_refl _) hstep with
    ⟨hlt, -⟩ | ⟨previous, -, hprevious, -⟩ | ⟨-, -, rfl, found, made, hl⟩
  · exact absurd hsc.start_le (UInt64.not_le.2 hlt)
  · rw [hlatest] at hprevious
    cases hprevious
  · refine ⟨rfl, made, _, _, hl, ?_⟩
    have hfirst := hsc.own_height _ (UInt64.le_refl _) hsc.start_le
    have hrows : (c.addRecords found).Blank s.ledger.newest :=
      ⟨fun height => by rw [c.headers_addRecords, hs.rows], hs.newest⟩
    have hw := sc.window_kept (hrows.addHeader now hfirst)
    rwa [Nat.max_eq_left (Nat.sub_le ..)] at hw

section
variable {oldest : ℕ} {top : UInt64} (hsc : sc.Watches block tip)
  (hstart : sc.startHeight.toNat ≤ oldest)
include hsc hstart

/-- All that a call can do with a window, of this chain or another one. -/
theorem Watches.window_cases {now : UInt64} {s s' : ScanState} {c : Contents}
    {result : Except BridgeError ScanOutcome} (hstore : ¬ s.ledger.store.MayFail)
    (htop : top ≤ tip) (hs : c.Window block' oldest top s.ledger.newest)
    (hheight : (block' top).height = top) (h : sc.Step now s c result s') :
    (top = tip ∧ result = .ok .upToDate ∧
      ∃ made, s.ledger.Leaves s'.ledger made c s.ledger.newest) ∨
    (top < tip ∧ (block' top).hash ≠ (block top).hash ∧ result = .ok (.rewound top) ∧
      ∃ made, s.ledger.Leaves s'.ledger made (c.dropHeader top) (c.below? top)) ∨
    (top < tip ∧ (block' top).hash = (block top).hash ∧ result = .ok (.advanced (top + 1)) ∧
      ∃ found made, s.ledger.Leaves s'.ledger made
        (sc.kept (top + 1) ((c.addRecords found).addHeader ((block (top + 1)).header now)))
        (some ((block (top + 1)).header now))) := by
  have htip := hsc.tip_lt
  have hle := hs.le
  have htop' := UInt64.le_iff_toNat_le.1 htop
  have hadd := Height.toNat_next (by omega : top.toNat + 1 < UInt64.size)
  have hin : sc.startHeight ≤ top := UInt64.le_iff_toNat_le.2 (by omega)
  have hin' : sc.startHeight ≤ top + 1 := UInt64.le_iff_toNat_le.2 (by omega)
  have hbelow : top + 1 ≤ tip → top < tip := fun hle => by
    have := UInt64.le_iff_toNat_le.1 hle
    exact UInt64.lt_iff_toNat_lt.2 (by omega)
  obtain ⟨newest, hnewest, hh, hhash⟩ := hs.exists_newest
  have hlatest : s.latest c = some newest := by
    rw [ScanState.latest, hnewest]
    rfl
  have hnext : sc.nextHeight (s.latest c) = top + 1 := by
    rw [hlatest]
    exact congrArg (· + 1) (hh.trans hheight)
  rcases hsc.step_cases hstore hnext hin' h with
    ⟨hgt, hresult, made, hl⟩ | ⟨previous, hlt, hprevious, hne, hresult, made, hl⟩ |
      ⟨hlt, hparent, hresult, hl⟩
  · have hgt := UInt64.lt_iff_toNat_lt.1 hgt
    rw [hlatest, ← hnewest] at hl
    exact .inl ⟨UInt64.toNat_inj.1 (by omega), hresult, made, hl⟩
  · rw [hlatest] at hprevious
    cases hprevious
    rw [hsc.linked top hin (hbelow hlt), hhash] at hne
    rw [hh, hheight] at hl hresult
    exact .inr (.inl ⟨hbelow hlt, hne, hresult, made, hl⟩)
  · have hsame := hparent newest hlatest
    rw [hsc.linked top hin (hbelow hlt), hhash] at hsame
    exact .inr (.inr ⟨hbelow hlt, hsame, hresult, hl⟩)

/-- Below the tip, the next header is added. -/
theorem Watches.leads_up (hlt : top < tip) :
    sc.Leads (Contents.Window block oldest top) [.advanced (top + 1)]
      (Contents.Window block (max oldest ((top + 1).toNat - sc.retention.toNat)) (top + 1)) := by
  refine .single fun {now s c result s'} hstore hs hstep => ?_
  have hlt' := UInt64.lt_iff_toNat_lt.1 hlt
  have htip := hsc.tip_lt
  have hle := hs.le
  have hsize : top.toNat + 1 < UInt64.size := by omega
  have hadd := Height.toNat_next hsize
  have hown := hsc.own_height top (UInt64.le_iff_toNat_le.2 (by omega)) (UInt64.le_of_lt hlt)
  have hown' := hsc.own_height (top + 1) (UInt64.le_iff_toNat_le.2 (by omega))
    (UInt64.le_iff_toNat_le.2 (by omega))
  rcases hsc.window_cases hstart hstore (UInt64.le_of_lt hlt) hs hown hstep with
    ⟨rfl, -⟩ | ⟨-, hne, -⟩ | ⟨-, -, rfl, found, made, hl⟩
  · exact absurd hlt' (Nat.lt_irrefl _)
  · exact absurd rfl hne
  · exact ⟨rfl, made, _, _, hl, sc.window_kept ((hs.addRecords found).addHeader now hsize hown')⟩

/-- At the tip, nothing happens. -/
theorem Watches.leads_still :
    sc.Leads (Contents.Window block oldest tip) [.upToDate]
      (Contents.Window block oldest tip) := by
  refine .single fun {now s c result s'} hstore hs hstep => ?_
  have hown := hsc.own_height tip hsc.start_le (UInt64.le_refl _)
  rcases hsc.window_cases hstart hstore (UInt64.le_refl _) hs hown hstep with
    ⟨-, rfl, made, hl⟩ | ⟨hlt, -⟩ | ⟨hlt, -⟩
  · exact ⟨rfl, made, _, _, hl, hs⟩
  · exact absurd hlt (UInt64.lt_irrefl _)
  · exact absurd hlt (UInt64.lt_irrefl _)

/-- A header that is not on the chain is dropped. -/
theorem Watches.leads_down (hlt : top < tip) (hheight : (block' top).height = top)
    (hne : (block top).hash ≠ (block' top).hash) :
    sc.Leads (Contents.Window block' oldest top) [.rewound top] fun c slot =>
      if oldest < top.toNat then c.Window block' oldest (top - 1) slot else c.Blank slot := by
  refine .single fun {now s c result s'} hstore hs hstep => ?_
  have hle := hs.le
  rcases hsc.window_cases hstart hstore (UInt64.le_of_lt hlt) hs hheight hstep with
    ⟨rfl, -⟩ | ⟨-, -, rfl, made, hl⟩ | ⟨-, hsame, -⟩
  · exact absurd hlt (UInt64.lt_irrefl _)
  · refine ⟨rfl, made, _, _, hl, ?_⟩
    split
    next hlt => exact hs.dropTop hlt
    next hge => exact hs.dropLast (by omega)
  · exact absurd hsame.symm hne

end

end Scanner
end EvmBridge
