import EvmBridge.Proofs.Parsing.WellFormed
import EvmBridge.Proofs.Scan.FailedCall
import EvmBridge.Proofs.Scan.Retention

/-! # Bridge records of dropped blocks

A rewind drops the header of a block, and nothing else. The bridge records of that block stay behind
until the scanner is back at its height, or finds their transactions in another block; meanwhile they
are served although they are above the newest header. There are no other records above it:
`Scanner.servesAboveTop_iff_orphaned`.
-/

namespace EvmBridge
set_option autoImplicit false
open EvmBridge.Action

/-- A bridge record is served whose block is above the newest header. -/
def Ledger.ServesAboveTop (l : Ledger) (hash : Hash) (r : Record) : Prop :=
  (Ledger.cachedRecord hash).outcome l.withoutFailures = .ok (some r) ∧
    ∀ top ∈ l.top, top.height < r.blockHeight

namespace Contents
variable {c : Contents} {hash : Hash} {r : Record}

/-- A record is kept, but no header at its height. -/
def Orphan (c : Contents) (hash : Hash) (r : Record) : Prop :=
  c.records.get? hash = some r ∧ c.headers.get? r.blockHeight = none

theorem orphan_dropHeader_iff {height : UInt64} :
    (c.dropHeader height).Orphan hash r ↔
      c.Orphan hash r ∨ c.records.get? hash = some r ∧ r.blockHeight = height := by
  have hrecords : (c.dropHeader height).records = c.records := rfl
  rw [Orphan, Orphan, get?_dropHeader_eq_none_iff, hrecords]
  tauto

end Contents

namespace Scanner

/-- The blocks that the node serves have the height that they are asked for, as have their
transactions and the records made of these. -/
structure KeepsHeights (sc : Scanner) : Prop where
  blocks : sc.ServesOwnHeights
  transactions : ∀ height b, sc.Answers height (some b) →
    ∀ tx ∈ b.transactions, tx.blockHeight = some height
  records : ∀ tx timestamp past, Ends (sc.analyze tx timestamp) past
    (fun found _ => ∀ r ∈ found, r.blockHeight = tx.blockHeight.getD 0) fun _ _ => True

/-- A call stays below a height and finds no record of a transaction. -/
def Spares (sc : Scanner) (now : UInt64) (s : ScanState) (hash : Hash) (height : UInt64) : Prop :=
  ∀ next, (sc.syncNext now).outcome s = .ok (.advanced next) → next < height ∧
    ∀ b found asked,
      sc.node.respond s.exchanges (.block next) sc.timeLimit = .answer (some b) →
      sc.analyzeAll b.timestamp b.transactions (⟨.block next, true⟩ :: s.exchanges)
        = .ok found asked →
      ∀ r ∈ found, r.txHash ≠ hash

/-- The block of a served record was dropped, and every call since then spared the record. -/
inductive Orphaned (sc : Scanner) (start : ScanState) (hash : Hash) (r : Record) :
    (times : List UInt64) → Prop where
  | dropped {times : List UInt64} {now : UInt64}
      (hserved : (Ledger.cachedRecord hash).outcome (sc.run times start).2.ledger.withoutFailures
        = .ok (some r))
      (hrewound : (sc.syncNext now).outcome (sc.run times start).2
        = .ok (.rewound r.blockHeight)) :
      Orphaned sc start hash r (times ++ [now])
  | spared {times : List UInt64} {now : UInt64} (h : Orphaned sc start hash r times)
      (hspares : sc.Spares now (sc.run times start).2 hash r.blockHeight) :
      Orphaned sc start hash r (times ++ [now])

variable {sc : Scanner} {s s' : ScanState} {c c' : Contents} {now : UInt64}
  {result : Except BridgeError ScanOutcome} {hash : Hash} {r : Record}

/-! ## The heights of records -/

theorem records_ofBridge (b : Bridge) (retention timeLimit startHeight : UInt64) (tx : Transaction)
    (timestamp : UInt64) (past : Exchanges) :
    Ends ((ofBridge b retention timeLimit startHeight).analyze tx timestamp) past
      (fun found _ => ∀ r ∈ found, r.blockHeight = tx.blockHeight.getD 0) fun _ _ => True := by
  refine (Bridge.ends_analyze tx past).mono (fun found _ h r hr => ?_) fun _ _ _ => trivial
  obtain ⟨_, -, hw⟩ := h r hr
  exact hw.blockHeight

theorem KeepsHeights.blockHeight_of_found (hkeeps : sc.KeepsHeights) {height : UInt64} {b : Block}
    {past asked : Exchanges} {found : List Record} (hb : sc.Answers height (some b))
    (hfound : sc.analyzeAll b.timestamp b.transactions past = .ok found asked) :
    ∀ r ∈ found, r.blockHeight = height := by
  refine (ends_of_ok hfound).1 (sc.ends_analyzeAll b.timestamp (fun tx htx past => ?_) past)
  refine (hkeeps.records tx b.timestamp past).mono (fun found _ h r hr => ?_) fun _ _ _ => trivial
  rw [h r hr, hkeeps.transactions height b hb tx htx]
  rfl

/-! ## Contents between calls -/

/-- What holds of a state and its contents between two calls, while the store does not fail. -/
structure Tracked (sc : Scanner) (s : ScanState) (c : Contents) : Prop where
  held : c.HeldBy s.ledger.store.rows
  reliable : ¬ s.ledger.store.MayFail
  linked : c.Linked (s.latest c)
  top_row : ∀ top ∈ s.latest c, c.headers.get? top.height = some top
  started : ∀ height h, c.headers.get? height = some h → sc.startHeight ≤ height
  /-- The block of an orphan is still to be scanned again. -/
  ahead : ∀ hash r, c.Orphan hash r → sc.nextHeight (s.latest c) ≤ r.blockHeight

theorem tracked_empty (hempty : s.ledger.IsEmpty) (hreliable : ¬ s.ledger.store.MayFail) :
    sc.Tracked s .empty := by
  have hnone : s.latest .empty = none := by
    rw [ScanState.latest, hempty.newest]
    rfl
  refine ⟨hempty.held, hreliable, ?_, ?_, nofun, fun _ _ h => nomatch h.1⟩
  · rw [hnone]
    exact .empty
  · rw [hnone]
    exact nofun

namespace Tracked

theorem toNat_nextHeight (hs : sc.Tracked s c) {top : Header} (htop : s.latest c = some top) :
    (sc.nextHeight (s.latest c)).toNat = top.height.toNat + 1 := by
  rw [htop]
  exact Height.toNat_next (hs.linked.top top htop).1

theorem startHeight_le (hs : sc.Tracked s c) : sc.startHeight ≤ sc.nextHeight (s.latest c) := by
  cases htop : s.latest c with
  | none => exact UInt64.le_refl _
  | some top =>
    have hstarted := UInt64.le_iff_toNat_le.1 (hs.started _ _ (hs.top_row top htop))
    have hnext := hs.toNat_nextHeight htop
    rw [← htop, UInt64.le_iff_toNat_le]
    omega

/-- A record is above the newest header exactly if its height has no header. -/
theorem above_iff (hs : sc.Tracked s c) (hr : c.records.get? hash = some r) :
    (∀ top ∈ s.latest c, top.height < r.blockHeight) ↔ c.headers.get? r.blockHeight = none := by
  constructor
  · intro habove
    by_contra hsome
    obtain ⟨h, hg⟩ := Option.ne_none_iff_exists'.1 hsome
    cases htop : s.latest c with
    | none =>
      rw [Contents.Linked.get?_of_latest_eq_none htop] at hg
      cases hg
    | some top =>
      have hlt := UInt64.lt_iff_toNat_lt.1 (habove top htop)
      rcases (hs.linked.top top htop).2 _ h hg with hlower | ⟨heq, -⟩
      · omega
      · rw [heq] at hlt
        omega
  · intro hnone top htop
    have hahead := UInt64.le_iff_toNat_le.1 (hs.ahead hash r ⟨hr, hnone⟩)
    rw [hs.toNat_nextHeight htop] at hahead
    exact UInt64.lt_iff_toNat_lt.2 hahead

theorem servesAboveTop_iff (hs : sc.Tracked s c) :
    s.ledger.ServesAboveTop hash r ↔ c.Orphan hash r := by
  rw [Ledger.ServesAboveTop, Ledger.outcome_cachedRecord hs.held, Ledger.top_eq hs.held,
    Except.ok.injEq]
  exact and_congr_right fun hr => hs.above_iff hr

end Tracked

/-! ## One call -/

theorem nextHeight_le {newest : Option Header} {height : UInt64} (hstart : sc.startHeight ≤ height)
    (hbelow : ∀ top ∈ newest, top.height.toNat < height.toNat) : sc.nextHeight newest ≤ height := by
  cases newest with
  | none => exact hstart
  | some top =>
    have hlt := hbelow top rfl
    have hnext : (sc.nextHeight (some top)).toNat = top.height.toNat + 1 :=
      Height.toNat_next (Nat.lt_of_le_of_lt hlt height.toNat_lt_size)
    rw [UInt64.le_iff_toNat_le, hnext]
    exact hlt

theorem Tracked.rewound {previous : Header} {made : List StoreCall} (hs : sc.Tracked s c)
    (htop : s.latest c = some previous)
    (hl : s.ledger.Leaves s'.ledger made (c.dropHeader previous.height)
      (c.below? previous.height)) : sc.Tracked s' (c.dropHeader previous.height) := by
  have hlinked : c.Linked (some previous) := htop ▸ hs.linked
  have hlatest : s'.latest (c.dropHeader previous.height)
      = (c.dropHeader previous.height).latest (c.below? previous.height) := by
    rw [ScanState.latest, hl.newest]
  have hrow : ∀ top ∈ s'.latest (c.dropHeader previous.height),
      (c.dropHeader previous.height).headers.get? top.height = some top := by
    rw [hlatest]
    exact hlinked.rewind.get?_latest hlinked.get?_below
  have hlinked' : (c.dropHeader previous.height).Linked
      (s'.latest (c.dropHeader previous.height)) := by
    rw [hlatest]
    exact hlinked.rewind.latest
  -- The next block is one that was scanned before, or the first one.
  have hnext : sc.nextHeight (s'.latest (c.dropHeader previous.height)) ≤ previous.height :=
    nextHeight_le (hs.started _ _ (hs.top_row previous htop)) fun top ht =>
      (hlinked.get?_of_dropTop (hrow top ht)).2
  refine ⟨hl.held, mt hl.mayFail hs.reliable, hlinked', hrow, fun height h hg => ?_,
    fun hash r horphan => ?_⟩
  · exact hs.started height h (hlinked.get?_of_dropTop hg).1
  · rcases Contents.orphan_dropHeader_iff.1 horphan with horphan | ⟨-, heq⟩
    · have hahead := hs.ahead hash r horphan
      rw [UInt64.le_iff_toNat_le] at hahead hnext ⊢
      rw [hs.toNat_nextHeight htop] at hahead
      omega
    · rw [heq]
      exact hnext

theorem get?_kept_eq_none_iff {found : List Record} {new : Header} {height k : UInt64}
    (hnew : new.height = height) (hwindow : sc.InWindow height k) :
    (sc.kept height ((c.addRecords found).addHeader new)).headers.get? k = none ↔
      k ≠ height ∧ c.headers.get? k = none := by
  simp only [Option.eq_none_iff_forall_ne_some, ne_eq, get?_headers_kept_eq_some_iff, hwindow,
    and_true, Contents.get?_addHeader_eq_some_iff, c.headers_addRecords, hnew]
  grind

theorem Tracked.orphan_kept_iff {found : List Record} {new : Header} {height : UInt64}
    (hs : sc.Tracked s c) (hheight : height = sc.nextHeight (s.latest c))
    (hnew : new.height = height) (hfound : ∀ r ∈ found, r.blockHeight = height) :
    (sc.kept height ((c.addRecords found).addHeader new)).Orphan hash r ↔
      c.Orphan hash r ∧ height < r.blockHeight ∧ ∀ r' ∈ found, r'.txHash ≠ hash := by
  rw [Contents.Orphan, get?_records_kept_eq_some_iff, Contents.records_addHeader,
    Contents.get?_addRecords_eq_some_iff]
  constructor
  · rintro ⟨⟨hr, hwindow⟩, hnone⟩
    obtain ⟨hne, hnone⟩ := (get?_kept_eq_none_iff hnew hwindow).1 hnone
    rcases hr with ⟨hlast, -⟩ | ⟨hr, hother⟩
    · exact absurd (hfound r hlast.mem) hne
    · have hahead := hs.ahead hash r ⟨hr, hnone⟩
      rw [← hheight] at hahead
      exact ⟨⟨hr, hnone⟩, UInt64.lt_of_le_of_ne hahead hne.symm, hother⟩
  · rintro ⟨⟨hr, hnone⟩, hlt, hother⟩
    have hwindow : sc.InWindow height r.blockHeight :=
      (UInt64.lt_iff_toNat_lt.1 hlt).le.trans (Nat.le_add_right ..)
    exact ⟨⟨.inr ⟨hr, hother⟩, hwindow⟩,
      (get?_kept_eq_none_iff hnew hwindow).2 ⟨(UInt64.ne_of_lt hlt).symm, hnone⟩⟩

theorem Tracked.advanced (hkeeps : sc.KeepsHeights) {b : Block} {found : List Record}
    {past asked : Exchanges} {made : List StoreCall} (hs : sc.Tracked s c)
    (hb : sc.Answers (sc.nextHeight (s.latest c)) (some b))
    (hparent : ∀ previous ∈ s.latest c, previous.hash = b.parentHash)
    (hfound : sc.analyzeAll b.timestamp b.transactions past = .ok found asked)
    (hl : s.ledger.Leaves s'.ledger made
      (sc.kept b.height ((c.addRecords found).addHeader (b.header now))) (some (b.header now))) :
    sc.Tracked s' (sc.kept b.height ((c.addRecords found).addHeader (b.header now))) := by
  have hheight : b.height = sc.nextHeight (s.latest c) := (hkeeps.blocks _ b hb).1
  have hlatest : s'.latest (sc.kept b.height ((c.addRecords found).addHeader (b.header now)))
      = some (b.header now) := by
    rw [ScanState.latest, hl.newest]
    rfl
  have hnew : (b.header now).height = b.height := rfl
  have hwindow : sc.InWindow b.height b.height := Nat.le_add_right ..
  have hsize : b.height.toNat + 1 < UInt64.size := by
    rw [hheight]
    exact (hkeeps.blocks _ b hb).2
  have hnext : (sc.nextHeight (some (b.header now))).toNat = b.height.toNat + 1 :=
    Height.toNat_next hsize
  have hown : ∀ r ∈ found, r.blockHeight = b.height := by
    rw [hheight]
    exact hkeeps.blockHeight_of_found hb hfound
  refine ⟨hl.held, mt hl.mayFail hs.reliable, ?_, ?_, fun height h hg => ?_,
    fun hash r horphan => ?_⟩
  · rw [hlatest]
    exact linked_kept (linked_commit hkeeps.blocks hs.linked
      Contents.Linked.get?_of_latest_eq_none hb hparent found) b.height
  · rw [hlatest]
    rintro _ ⟨⟩
    exact get?_headers_kept_eq_some_iff.2
      ⟨Contents.get?_addHeader_eq_some_iff.2 (.inl ⟨rfl, rfl⟩), hwindow⟩
  · have hg := (get?_headers_kept_eq_some_iff.1 hg).1
    rw [Contents.get?_addHeader_eq_some_iff, c.headers_addRecords] at hg
    rcases hg with ⟨rfl, -⟩ | ⟨-, hg⟩
    · exact hs.startHeight_le.trans_eq hheight.symm
    · exact hs.started height h hg
  · obtain ⟨-, hlt, -⟩ := (hs.orphan_kept_iff hheight hnew hown).1 horphan
    rw [hlatest, UInt64.le_iff_toNat_le, hnext]
    exact UInt64.lt_iff_toNat_lt.1 hlt

theorem Turn.tracked (hkeeps : sc.KeepsHeights) (hs : sc.Tracked s c)
    (h : sc.Turn now s c result s' c') : sc.Tracked s' c' := by
  cases h with
  | unchanged _ hl =>
    have hlatest : s'.latest c = s.latest c := by
      rw [ScanState.latest, hl.newest]
      exact c.latest_latest _
    refine ⟨hl.held, mt hl.mayFail hs.reliable, ?_, ?_, hs.started, ?_⟩
    · rw [hlatest]
      exact hs.linked
    · rw [hlatest]
      exact hs.top_row
    · rw [hlatest]
      exact hs.ahead
  | rewound hlatest hl => exact hs.rewound hlatest hl
  | advanced hserved hparent hfound hl => exact hs.advanced hkeeps ⟨_, hserved⟩ hparent hfound hl

/-- A call leaves the records without a header alone that it spares, and adds those of the block that
it drops. -/
theorem Turn.orphan_iff (hkeeps : sc.KeepsHeights) (hs : sc.Tracked s c)
    (h : sc.Turn now s c ((sc.syncNext now).outcome s) s' c') :
    c'.Orphan hash r ↔ c.Orphan hash r ∧ sc.Spares now s hash r.blockHeight ∨
      c.records.get? hash = some r ∧ (sc.syncNext now).outcome s = .ok (.rewound r.blockHeight) := by
  unfold Spares
  generalize (sc.syncNext now).outcome s = result at h ⊢
  cases h with
  | unchanged hresult _ =>
    have hadvanced : ∀ next, result ≠ .ok (.advanced next) := fun next h => by cases hresult _ h
    have hrewound : result ≠ .ok (.rewound r.blockHeight) := fun h => by cases hresult _ h
    simp [hadvanced, hrewound]
  | rewound _ _ =>
    rw [Contents.orphan_dropHeader_iff]
    simp [eq_comm]
  | @advanced _ _ _ b found hserved _ hfound _ =>
    have hheight : b.height = sc.nextHeight (s.latest c) := (hkeeps.blocks _ b ⟨_, hserved⟩).1
    have hown := hkeeps.blockHeight_of_found ⟨_, hserved⟩ hfound
    rw [← hheight] at hserved hfound hown ⊢
    rw [hs.orphan_kept_iff hheight rfl hown]
    constructor
    · rintro ⟨horphan, hlt, hother⟩
      refine .inl ⟨horphan, ?_⟩
      rintro _ ⟨⟩
      refine ⟨hlt, fun b' found' asked' hserved' hfound' => ?_⟩
      rw [hserved] at hserved'
      cases hserved'
      rw [hfound] at hfound'
      cases hfound'
      exact hother
    · rintro (⟨horphan, hspares⟩ | ⟨-, h⟩)
      · obtain ⟨hlt, hother⟩ := hspares _ rfl
        exact ⟨horphan, hlt, hother b found _ hserved hfound⟩
      · cases h

/-! ## Runs -/

theorem Tracked.next (hkeeps : sc.KeepsHeights) (hs : sc.Tracked s c) (now : UInt64) :
    ∃ c', sc.Tracked ((sc.syncNext now).final s) c' ∧
      sc.Turn now s c ((sc.syncNext now).outcome s) ((sc.syncNext now).final s) c' := by
  have hturn : ∃ c', sc.Turn now s c ((sc.syncNext now).outcome s) ((sc.syncNext now).final s) c' :=
    Ends.outcome (p := fun result s' => ∃ c', sc.Turn now s c result s' c')
      ((sc.ends_syncNext hs.held now).mono (fun _ _ h => h)
        fun _ _ h => ⟨c, h.resolve_left hs.reliable⟩)
  obtain ⟨c', h⟩ := hturn
  exact ⟨c', h.tracked hkeeps hs, h⟩

/-- What is served above the newest header after a call. -/
theorem Tracked.servesAboveTop_next_iff (hkeeps : sc.KeepsHeights) (hs : sc.Tracked s c)
    (now : UInt64) :
    ((sc.syncNext now).final s).ledger.ServesAboveTop hash r ↔
      s.ledger.ServesAboveTop hash r ∧ sc.Spares now s hash r.blockHeight ∨
        (Ledger.cachedRecord hash).outcome s.ledger.withoutFailures = .ok (some r) ∧
          (sc.syncNext now).outcome s = .ok (.rewound r.blockHeight) := by
  obtain ⟨c', hs', h⟩ := hs.next hkeeps now
  rw [hs'.servesAboveTop_iff, hs.servesAboveTop_iff, Ledger.outcome_cachedRecord hs.held,
    Except.ok.injEq]
  exact h.orphan_iff hkeeps hs

theorem tracked_run (hkeeps : sc.KeepsHeights) {start : ScanState}
    (hempty : start.ledger.IsEmpty) (hreliable : ¬ start.ledger.store.MayFail)
    (times : List UInt64) : ∃ c, sc.Tracked (sc.run times start).2 c := by
  induction times using List.reverseRecOn with
  | nil => exact ⟨_, tracked_empty hempty hreliable⟩
  | append_singleton times now ih =>
    obtain ⟨c, hs⟩ := ih
    obtain ⟨c', hs', -⟩ := hs.next hkeeps now
    rw [run_snoc]
    exact ⟨c', hs'⟩

/-- While the store does not fail, a bridge record is served above the newest header exactly if its
block was dropped and every call since then spared it, whatever chain the node shows and wherever the
node fails. -/
theorem servesAboveTop_iff_orphaned (sc : Scanner) (hkeeps : sc.KeepsHeights) {start : ScanState}
    (hempty : start.ledger.IsEmpty) (hreliable : ¬ start.ledger.store.MayFail)
    (times : List UInt64) (hash : Hash) (r : Record) :
    (sc.run times start).2.ledger.ServesAboveTop hash r ↔ sc.Orphaned start hash r times := by
  constructor
  · intro h
    induction times using List.reverseRecOn with
    | nil =>
      have hs : sc.Tracked start .empty := tracked_empty hempty hreliable
      obtain ⟨hr, -⟩ := hs.servesAboveTop_iff.1 h
      cases hr
    | append_singleton times now ih =>
      obtain ⟨c, hs⟩ := tracked_run hkeeps hempty hreliable times
      rw [run_snoc, hs.servesAboveTop_next_iff hkeeps] at h
      rcases h with ⟨h, hspares⟩ | ⟨hserved, hrewound⟩
      · exact .spared (ih h) hspares
      · exact .dropped hserved hrewound
  · intro h
    induction h with
    | @dropped times now hserved hrewound =>
      obtain ⟨c, hs⟩ := tracked_run hkeeps hempty hreliable times
      rw [run_snoc, hs.servesAboveTop_next_iff hkeeps]
      exact .inr ⟨hserved, hrewound⟩
    | @spared times now _ hspares ih =>
      obtain ⟨c, hs⟩ := tracked_run hkeeps hempty hreliable times
      rw [run_snoc, hs.servesAboveTop_next_iff hkeeps]
      exact .inl ⟨ih, hspares⟩

end Scanner

namespace Sample

/-- A deposit at height 10. -/
def orphanDeposit : Transaction := ⟨.fill 9, some 10, user, some bridgeContract, 5, []⟩

/-- The block of the deposit, and a block of another chain above it. -/
def orphanBlock? (height : UInt64) : Option Block :=
  if height = 10 then some { forkBlock 0 1 10 with transactions := [orphanDeposit] }
  else if height = 11 then some (forkBlock 0 2 11)
  else none

/-- The answers of a node with these blocks and the receipt of the deposit. -/
def orphanAnswers : (call : NodeCall) → call.Answer
  | .block height => orphanBlock? height
  | .receipt hash => some (receipt hash [.ofDepositFunds plainSignatures bridgeContract user 5])
  | call => emptyChain.answer call

/-- A scanner that asks such a node. -/
def orphanScanner : Scanner :=
  .ofBridge { plainBridge emptyChain with node := flakyNode orphanAnswers fun _ => false } 3 1000 10

theorem keepsHeights_orphanScanner : orphanScanner.KeepsHeights := by
  have hserved : ∀ height b, orphanScanner.Answers height (some b) →
      height = 10 ∧ b = { forkBlock 0 1 10 with transactions := [orphanDeposit] } ∨
        height = 11 ∧ b = forkBlock 0 2 11 := by
    rintro height b ⟨past, hb⟩
    have hb : orphanBlock? height = some b := Reply.answer.inj hb
    unfold orphanBlock? at hb
    split_ifs at hb with h₁ h₂
    · exact .inl ⟨h₁, (Option.some.inj hb).symm⟩
    · exact .inr ⟨h₂, (Option.some.inj hb).symm⟩
  refine ⟨fun height b hb => ?_, fun height b hb => ?_, Scanner.records_ofBridge _ _ _ _⟩
  · rcases hserved height b hb with ⟨rfl, rfl⟩ | ⟨rfl, rfl⟩ <;> exact ⟨rfl, by decide⟩
  · rcases hserved height b hb with ⟨rfl, rfl⟩ | ⟨rfl, rfl⟩
    · exact List.forall_mem_singleton.2 rfl
    · exact nofun

end Sample

/-- The block of a deposit is dropped, and the deposit is served without any header. -/
theorem Scanner.servesAboveTop_of_dropped_deposit :
    let sc := Sample.orphanScanner
    let start := Sample.scanState fun _ => false
    let r := Record.ofTransaction .deposit Sample.orphanDeposit
      (Sample.plainBridge Sample.emptyChain).nativeAsset
    (sc.run [7, 8] start).1.map Except.toOption = [some (.advanced 10), some (.rewound 10)] ∧
      (sc.run [7, 8] start).2.ledger.persisted = [] ∧
      (sc.run [7, 8] start).2.ledger.ServesAboveTop Sample.orphanDeposit.hash r := by
  intro sc start r
  have hoccurs : (sc.run [7, 8] start).1.map Except.toOption
      = [some (.advanced 10), some (.rewound 10)] := by decide +kernel
  have hheaders : (sc.run [7, 8] start).2.ledger.persisted = [] := by decide +kernel
  have hserved : (Ledger.cachedRecord Sample.orphanDeposit.hash).outcome
      (sc.run [7] start).2.ledger.withoutFailures = .ok (some r) :=
    ok_of_toOption (by decide +kernel)
  have hrewound : (sc.syncNext 8).outcome (sc.run [7] start).2 = .ok (.rewound r.blockHeight) :=
    ok_of_toOption (by decide +kernel)
  have horphaned : sc.Orphaned start Sample.orphanDeposit.hash r ([7] ++ [8]) :=
    .dropped hserved hrewound
  have hreliable : ¬ start.ledger.store.MayFail := by
    rintro ⟨_, hfails⟩
    cases hfails
  exact ⟨hoccurs, hheaders, (servesAboveTop_iff_orphaned sc Sample.keepsHeights_orphanScanner
    ⟨rfl, rfl, rfl⟩ hreliable [7, 8] _ r).2 horphaned⟩

end EvmBridge
