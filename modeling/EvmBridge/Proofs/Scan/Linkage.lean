import EvmBridge.Proofs.Heights
import EvmBridge.Proofs.Scan.Run
import EvmBridge.Sample

/-! # The headers of a scanned ledger are linked

Whatever chain the node shows from call to call, and wherever calls fail, the persisted headers stay
in order: each under its own height, none above the newest one, and neighbours linked by hash.
-/

namespace EvmBridge
set_option autoImplicit false
open KeyOrder (before)

/-- The persisted headers of a ledger are in order. -/
structure Ledger.Linked (l : Ledger) : Prop where
  /-- Every row is a header under its own height. -/
  own_height : ∀ row ∈ l.persisted, ∃ h, row = (headerKey h.height, some h)
  /-- No row is higher than the header in the slot. -/
  newest_highest : ∀ top ∈ l.newest, ∀ key h, (key, some h) ∈ l.persisted → h.height ≤ top.height
  /-- The row at the height of the header in the slot is absent, or that header. -/
  newest_row : ∀ top ∈ l.newest, l.store.rows.get? (headerKey top.height) = none ∨
    l.store.rows.get? (headerKey top.height) = some (Codec.header.write top)
  /-- A header names the one right below it as its parent. -/
  linked : ∀ key lower key' upper, (key, some lower) ∈ l.persisted →
    (key', some upper) ∈ l.persisted → upper.height.toNat = lower.height.toNat + 1 →
    upper.parentHash = lower.hash

/-- The blocks that the node serves have the height that they are asked for, and none the last one
that there is. -/
def Scanner.ServesOwnHeights (sc : Scanner) : Prop :=
  ∀ height b, sc.Answers height (some b) → b.height = height ∧ height.toNat + 1 < UInt64.size

/-! ## Contents in order -/

/-- The headers are in order below the one in the slot. -/
structure Contents.Linked (c : Contents) (slot : Option Header) : Prop where
  own : ∀ height h, c.headers.get? height = some h →
    h.height = height ∧ height.toNat + 1 < UInt64.size
  top : ∀ top ∈ slot, top.height.toNat + 1 < UInt64.size ∧
    ∀ height h, c.headers.get? height = some h →
      height.toNat < top.height.toNat ∨ height = top.height ∧ h = top
  link : ∀ height lower upper, c.headers.get? height = some lower →
    c.headers.get? (height + 1) = some upper → upper.parentHash = lower.hash

namespace Contents.Linked
variable {c c' : Contents} {slot : Option Header}

theorem empty : Contents.empty.Linked none := ⟨nofun, nofun, nofun⟩

/-- Headers may be dropped. -/
theorem sub (hc : c.Linked slot)
    (h : ∀ height h, c'.headers.get? height = some h → c.headers.get? height = some h) :
    c'.Linked slot where
  own height hd hg := hc.own height hd (h height hd hg)
  top top htop := ⟨(hc.top top htop).1, fun height hd hg => (hc.top top htop).2 height hd (h height hd hg)⟩
  link height lower upper hl hu := hc.link height lower upper (h _ _ hl) (h _ _ hu)

/-- The slot may be filled from the rows. -/
theorem latest (hc : c.Linked slot) : c.Linked (c.latest slot) := by
  cases slot with
  | some top => exact hc
  | none =>
    refine ⟨hc.own, ?_, hc.link⟩
    intro top htop
    obtain ⟨e, he, rfl⟩ := Option.map_eq_some_iff.1 htop
    obtain ⟨hown, hsize⟩ := hc.own e.1 e.2 (Table.get?_of_last? he)
    refine ⟨by rwa [hown], fun height h hg => ?_⟩
    rw [hown]
    rcases Table.before_of_last? he hg with rfl | hlt
    · have := Table.get?_of_last? he
      rw [hg] at this
      exact .inr ⟨rfl, Option.some.inj this⟩
    · exact .inl (of_decide_eq_true hlt)

/-- The newest header has a row, if that in the slot has one. -/
theorem get?_latest (hc : c.Linked slot)
    (hslot : ∀ top ∈ slot, c.headers.get? top.height = some top) :
    ∀ top ∈ c.latest slot, c.headers.get? top.height = some top := by
  cases slot with
  | some _ => exact hslot
  | none =>
    intro top htop
    obtain ⟨e, he, rfl⟩ := Option.map_eq_some_iff.1 htop
    have hg := Table.get?_of_last? he
    rwa [(hc.own _ _ hg).1]

/-- While the newest header is unknown, there is none. -/
theorem get?_of_latest_eq_none (h : c.latest slot = none) (height : UInt64) :
    c.headers.get? height = none := by
  obtain ⟨-, h⟩ := Option.or_eq_none_iff.1 h
  exact Table.last?_eq_none_iff.1 (Option.map_eq_none_iff.1 h) height

theorem dropHeader (hc : c.Linked slot) (height : UInt64) : (c.dropHeader height).Linked slot :=
  hc.sub fun h hd hg => by
    exact (get?_dropHeader_eq_some_iff.1 hg).2

theorem cutOff (hc : c.Linked slot) (below : UInt64) : (c.cutOff below).Linked slot :=
  hc.sub fun h hd hg => by
    rw [Contents.cutOff, Table.get?_filter, Option.filter_eq_some_iff] at hg
    exact hg.1

/-- What is left when the newest header is dropped is below it. -/
theorem get?_of_dropTop {top h : Header} {height : UInt64} (hc : c.Linked (some top))
    (hg : (c.dropHeader top.height).headers.get? height = some h) :
    c.headers.get? height = some h ∧ height.toNat < top.height.toNat := by
  obtain ⟨hne, hg⟩ := get?_dropHeader_eq_some_iff.1 hg
  obtain hlt | ⟨heq, -⟩ := (hc.top top rfl).2 height h hg
  · exact ⟨hg, hlt⟩
  · exact absurd heq hne

theorem get?_below {height : UInt64} (hc : c.Linked slot) :
    ∀ below ∈ c.below? height, (c.dropHeader height).headers.get? below.height = some below := by
  intro below hbelow
  rw [Option.mem_def, Contents.below?] at hbelow
  split at hbelow
  · cases hbelow
  · rw [(hc.own _ below hbelow).1, c.get?_dropHeader_sub_one]
    exact hbelow

/-- The newest header is dropped, and the one below it becomes the newest. -/
theorem rewind {top : Header} (hc : c.Linked (some top)) :
    (c.dropHeader top.height).Linked (c.below? top.height) := by
  have hdrop := hc.dropHeader top.height
  refine ⟨hdrop.own, ?_, hdrop.link⟩
  intro below hbelow
  rw [Contents.below?] at hbelow
  split at hbelow
  · cases hbelow
  next h0 =>
    obtain ⟨hown, hsize⟩ := hc.own _ below hbelow
    refine ⟨by rwa [hown], fun height h hg => ?_⟩
    obtain ⟨hg, hlt⟩ := hc.get?_of_dropTop hg
    have hpos := Height.pos_of_ne_zero h0
    have hprev := Height.toNat_previous h0
    rw [hown]
    by_cases heq : height = top.height - 1
    · subst heq
      rw [hg] at hbelow
      exact .inr ⟨rfl, Option.some.inj hbelow⟩
    · have := mt UInt64.toNat_inj.1 heq
      exact .inl (by omega)

/-- A header that follows the newest one is added. -/
theorem addHeader (hc : c.Linked slot) {h : Header} (hsize : h.height.toNat + 1 < UInt64.size)
    (hnext : ∀ top ∈ slot, h.height = top.height + 1 ∧ h.parentHash = top.hash)
    (hfirst : slot = none → ∀ height, c.headers.get? height = none) :
    (c.addHeader h).Linked (some h) := by
  -- All that was kept before is below the new header.
  have hlower : ∀ height old, c.headers.get? height = some old →
      height.toNat < h.height.toNat ∧ (height + 1 = h.height → h.parentHash = old.hash) := by
    intro height old hg
    cases slot with
    | none =>
      rw [hfirst rfl height] at hg
      cases hg
    | some top =>
      obtain ⟨hheight, hparent⟩ := hnext top rfl
      obtain ⟨htop, hall⟩ := hc.top top rfl
      have hadd := Height.toNat_next htop
      rw [hheight, hadd]
      rcases hall height old hg with hlt | ⟨rfl, rfl⟩
      · refine ⟨by omega, fun he => ?_⟩
        have := congrArg UInt64.toNat he
        rw [hadd, Height.toNat_next (by omega)] at this
        omega
      · exact ⟨by omega, fun _ => hparent⟩
  have hrows : ∀ height new, (c.addHeader h).headers.get? height = some new →
      height = h.height ∧ new = h ∨ c.headers.get? height = some new :=
    fun _ _ hg => (get?_addHeader_eq_some_iff.1 hg).imp_right And.right
  refine ⟨?_, ?_, ?_⟩
  · intro height new hg
    rcases hrows height new hg with ⟨rfl, rfl⟩ | hg
    · exact ⟨rfl, hsize⟩
    · exact hc.own height new hg
  · rintro _ ⟨⟩
    refine ⟨hsize, fun height new hg => ?_⟩
    rcases hrows height new hg with heq | hg
    · exact .inr heq
    · exact .inl (hlower height new hg).1
  · intro height lower upper hl hu
    rcases hrows height lower hl with ⟨rfl, rfl⟩ | hlold
    · have hnext := Height.toNat_next hsize
      rcases hrows _ upper hu with ⟨heq, -⟩ | hu
      · have := congrArg UInt64.toNat heq
        omega
      · have := (hlower _ upper hu).1
        omega
    · rcases hrows _ upper hu with ⟨heq, rfl⟩ | hu
      · exact (hlower height lower hlold).2 heq
      · exact hc.link height lower upper hlold hu

end Contents.Linked

/-! ## Calls and runs -/

namespace Scanner
variable {sc : Scanner}

/-- The commit of a block, before old blocks are cut off. -/
theorem linked_commit (hnode : sc.ServesOwnHeights) {now : UInt64} {c : Contents}
    {newest : Option Header} {b : Block} (hc : c.Linked newest)
    (hnone : newest = none → ∀ height, c.headers.get? height = none)
    (hb : sc.Answers (sc.nextHeight newest) (some b))
    (hparent : ∀ previous ∈ newest, previous.hash = b.parentHash) (found : List Record) :
    ((c.addRecords found).addHeader (b.header now)).Linked (some (b.header now)) := by
  obtain ⟨hheight, hsize⟩ := hnode _ b hb
  have hsame : (c.addRecords found).Linked newest :=
    hc.sub fun height h hg => by rwa [c.headers_addRecords] at hg
  refine hsame.addHeader ?_ ?_ ?_
  · show b.height.toNat + 1 < UInt64.size
    rwa [hheight]
  · intro top htop
    refine ⟨hheight.trans ?_, (hparent top htop).symm⟩
    rw [Option.mem_def.1 htop]
    rfl
  · intro h height
    rw [c.headers_addRecords]
    exact hnone h height

theorem linked_kept {c : Contents} {slot : Option Header} (hc : c.Linked slot) (height : UInt64) :
    (sc.kept height c).Linked slot := by
  rw [kept]
  split
  · exact hc.cutOff _
  · exact hc

theorem Step.linked (hnode : sc.ServesOwnHeights) {now : UInt64} {s s' : ScanState} {c : Contents}
    {result : Except BridgeError ScanOutcome} (hs : c.Linked s.ledger.newest)
    (h : sc.Step now s c result s') :
    ∃ c' : Contents, c'.HeldBy s'.ledger.store.rows ∧ c'.Linked s'.ledger.newest := by
  have hlatest : c.Linked (s.latest c) := hs.latest
  have hnone : s.latest c = none → ∀ height, c.headers.get? height = none :=
    Contents.Linked.get?_of_latest_eq_none
  cases h with
  | stalled _ hl _ _ hheaders hslot =>
    refine ⟨_, hl.held, ?_⟩
    rw [hl.newest]
    rcases hslot with rfl | rfl
    · exact hs.sub fun height h hg => by rwa [hheaders] at hg
    · exact hlatest.sub fun height h hg => by rwa [hheaders] at hg
  | upToDate _ hl _ =>
    refine ⟨_, hl.held, ?_⟩
    rw [hl.newest]
    exact hlatest
  | unread _ _ hprevious _ _ hl _ _ =>
    refine ⟨_, hl.held, ?_⟩
    rw [hl.newest, ← hprevious]
    exact hlatest.dropHeader _
  | rewound _ hprevious _ hl _ =>
    refine ⟨_, hl.held, ?_⟩
    rw [hl.newest]
    rw [hprevious] at hlatest
    exact hlatest.rewind
  | uncut _ hb hparent _ _ hl _ _ =>
    refine ⟨_, hl.held, ?_⟩
    rw [hl.newest]
    exact linked_commit hnode hlatest hnone hb hparent _
  | advanced hb hparent _ hl _ =>
    refine ⟨_, hl.held, ?_⟩
    rw [hl.newest]
    exact linked_kept (linked_commit hnode hlatest hnone hb hparent _) _

end Scanner

theorem Ledger.linked_of_contents {l : Ledger} {c : Contents} (hc : c.HeldBy l.store.rows)
    (h : c.Linked l.newest) : l.Linked := by
  have hown : ∀ key hd, (key, some hd) ∈ l.persisted → c.headers.get? hd.height = some hd := by
    intro key hd hm
    obtain ⟨height, hd', hg, he⟩ := (mem_persisted_iff hc).1 hm
    cases he
    rwa [(h.own height hd hg).1]
  refine ⟨?_, ?_, ?_, ?_⟩
  · intro row hrow
    obtain ⟨height, hd, hg, rfl⟩ := (mem_persisted_iff hc).1 hrow
    exact ⟨hd, by rw [(h.own height hd hg).1]⟩
  · intro top htop key hd hm
    rw [UInt64.le_iff_toNat_le]
    rcases (h.top top htop).2 _ hd (hown key hd hm) with hlt | ⟨-, rfl⟩
    · exact hlt.le
    · exact Nat.le_refl _
  · intro top htop
    rw [hc.header]
    cases hg : c.headers.get? top.height with
    | none => exact .inl rfl
    | some hd =>
      rcases (h.top top htop).2 _ hd hg with hlt | ⟨-, rfl⟩
      · exact absurd hlt (Nat.lt_irrefl _)
      · exact .inr rfl
  · intro key lower key' upper hl hu hnext
    have hl := hown key lower hl
    have hu := hown key' upper hu
    refine h.link lower.height lower upper hl ?_
    have hadd := Height.toNat_next (h.own _ lower hl).2
    rwa [UInt64.toNat_inj.1 (hadd.trans hnext.symm)]

theorem Scanner.exists_linked_run (sc : Scanner) (hnode : sc.ServesOwnHeights) {s : ScanState}
    (hs : s.ledger.IsEmpty) (times : List UInt64) :
    ∃ c : Contents, c.HeldBy (sc.run times s).2.ledger.store.rows ∧
      c.Linked (sc.run times s).2.ledger.newest := by
  have hempty : Contents.empty.Linked s.ledger.newest := by
    rw [hs.newest]
    exact .empty
  exact (sc.run_keeps (fun c s => c.Linked s.ledger.newest) (fun _ => True)
    (fun _ hs hstep => ⟨trivial, hstep.linked hnode hs⟩) times hs.held hempty).2

/-- After every run from an empty ledger, the persisted headers are in order. -/
theorem Scanner.linked_run (sc : Scanner) (hnode : sc.ServesOwnHeights) {s : ScanState}
    (hs : s.ledger.IsEmpty) (times : List UInt64) : (sc.run times s).2.ledger.Linked := by
  obtain ⟨c, hc, hlinked⟩ := sc.exists_linked_run hnode hs times
  exact Ledger.linked_of_contents hc hlinked

/-- The headers of two blocks, scanned by three calls of which the first failed to keep a header. -/
theorem Scanner.linked_run_failing_store :
    let sc := Sample.scanner
      (Sample.flakyNode (Sample.chainAnswers (Sample.forkBlock 0 1) 5) fun _ => false) 1 3
    let s := (sc.run [7, 8, 9]
      (Sample.scanState (Sample.failingOnce (· = .put (Ledger.headerKey 3))))).2
    s.ledger.persisted.map (·.1) = [Ledger.headerKey 3, Ledger.headerKey 4] ∧ s.ledger.Linked := by
  intro sc s
  refine ⟨by decide +kernel, linked_run sc ?_ ⟨rfl, rfl, rfl⟩ [7, 8, 9]⟩
  rintro height b ⟨past, hb⟩
  exact Sample.height_of_chainAnswers (fun _ => rfl) (by decide) (Reply.answer.inj hb)

end EvmBridge
