import EvmBridge.Proofs.Scan.Window
import EvmBridge.Sample

/-! # Following a node to another chain

A scanner that has scanned one chain up to its tip, when its node turns to a longer chain, drops the
headers that the two do not share, or all that it kept, and then scans the other chain up to its tip.
What it keeps in the end is what it would keep had it never seen the first chain.
-/

namespace EvmBridge
set_option autoImplicit false

/-- Two chains have the same blocks below some height and blocks of different hashes from there on,
as far as the first one goes. -/
structure Forked (start tip : UInt64) (cut : ℕ) (before after : UInt64 → Block) : Prop where
  shared : ∀ height, start ≤ height → height ≤ tip → height.toNat < cut →
    before height = after height
  apart : ∀ height, start ≤ height → height ≤ tip → cut ≤ height.toNat →
    (after height).hash ≠ (before height).hash

/-- Two ledgers show the same headers, apart from when they were observed. -/
structure Ledger.Alike (l l' : Ledger) : Prop where
  persisted : l.persisted.map (fun row => (row.1, row.2.map Header.undated))
    = l'.persisted.map fun row => (row.1, row.2.map Header.undated)
  newest : l.newest.map Header.undated = l'.newest.map Header.undated

/-- Nothing is scanned yet, and no store call can fail. -/
structure ScanState.Fresh (s : ScanState) : Prop where
  empty : s.ledger.IsEmpty
  reliable : ¬ s.ledger.store.MayFail

theorem ScanState.Fresh.shows {s : ScanState} (hs : s.Fresh) : s.Shows Contents.Blank :=
  ⟨hs.reliable, _, hs.empty.held, fun _ => rfl, hs.empty.newest⟩

namespace Scanner
variable {sc : Scanner} {block before : UInt64 → Block} {tip : UInt64}

/-! ## Repeated calls -/

/-- From any window, the chain is scanned up to its tip. -/
theorem Watches.leads_tip (hsc : sc.Watches block tip) {oldest : ℕ} {top : UInt64} {count : ℕ}
    (hstart : sc.startHeight.toNat ≤ oldest) (hkept : top.toNat - sc.retention.toNat ≤ oldest)
    (hcount : top.toNat + count = tip.toNat) :
    sc.Leads (Contents.Window block oldest top) ((Height.up (top + 1) count).map .advanced)
      (Contents.Window block (max oldest (tip.toNat - sc.retention.toNat)) tip) := by
  induction count generalizing oldest top with
  | zero =>
    obtain rfl : top = tip := UInt64.toNat_inj.1 hcount
    rw [Nat.max_eq_left hkept]
    exact .refl _ _
  | succ count ih =>
    have htip := hsc.tip_lt
    have hnext := Height.toNat_next (by omega : top.toNat + 1 < UInt64.size)
    have hone := hsc.leads_up hstart (UInt64.lt_iff_toNat_lt.2 (by omega) : top < tip)
    have hrest := ih (by omega : _ ≤ max oldest ((top + 1).toNat - sc.retention.toNat))
      (by omega : (top + 1).toNat - _ ≤ _) (by omega)
    have hmax : max (max oldest ((top + 1).toNat - sc.retention.toNat))
        (tip.toNat - sc.retention.toNat) = max oldest (tip.toNat - sc.retention.toNat) := by
      omega
    rw [hmax] at hrest
    exact hone.trans hrest

/-- An empty ledger is scanned up to the tip. -/
theorem Watches.leads_scan (hsc : sc.Watches block tip) :
    sc.Leads Contents.Blank
      ((Height.up sc.startHeight (tip.toNat + 1 - sc.startHeight.toNat)).map .advanced)
      (Contents.Window block (max sc.startHeight.toNat (tip.toNat - sc.retention.toNat)) tip) := by
  have hle := UInt64.le_iff_toNat_le.1 hsc.start_le
  have hcount : tip.toNat + 1 - sc.startHeight.toNat = tip.toNat - sc.startHeight.toNat + 1 := by
    omega
  rw [hcount]
  exact hsc.leads_start.trans (hsc.leads_tip (Nat.le_refl _) (Nat.sub_le ..) (by omega))

/-- At the tip, nothing happens any more. -/
theorem Watches.leads_rest (hsc : sc.Watches block tip) {oldest : ℕ}
    (hstart : sc.startHeight.toNat ≤ oldest) (count : ℕ) :
    sc.Leads (Contents.Window block oldest tip) (.replicate count .upToDate)
      (Contents.Window block oldest tip) := by
  induction count with
  | zero => exact .refl _ _
  | succ count ih => exact (hsc.leads_still hstart).trans ih

/-- Headers that are not on the chain are dropped, down to one that is to stay. -/
theorem Watches.leads_fall (hsc : sc.Watches block tip) {oldest : ℕ} {top bottom : UInt64}
    {count : ℕ} (hstart : sc.startHeight.toNat ≤ oldest) (hlt : top < tip)
    (hcount : bottom.toNat + count = top.toNat) (hbottom : oldest ≤ bottom.toNat)
    (hown : ∀ height : UInt64, oldest ≤ height.toNat → height ≤ top →
      (before height).height = height)
    (hapart : ∀ height : UInt64, bottom < height → height ≤ top →
      (block height).hash ≠ (before height).hash) :
    sc.Leads (Contents.Window before oldest top) ((Height.down top count).map .rewound)
      (Contents.Window before oldest bottom) := by
  induction count generalizing top with
  | zero =>
    obtain rfl : bottom = top := UInt64.toNat_inj.1 hcount
    exact .refl _ _
  | succ count ih =>
    have hpos : top ≠ 0 := by
      rintro rfl
      exact absurd hcount (Nat.succ_ne_zero _)
    have hprev := Height.toNat_previous hpos
    have hlt' := UInt64.lt_iff_toNat_lt.1 hlt
    have hone := hsc.leads_down hstart hlt (hown top (by omega) (UInt64.le_refl _))
      (hapart top (UInt64.lt_iff_toNat_lt.2 (by omega)) (UInt64.le_refl _))
    have hle : top - 1 ≤ top := UInt64.le_iff_toNat_le.2 (by omega)
    have hrest := ih (UInt64.lt_iff_toNat_lt.2 (by omega) : top - 1 < tip) (by omega)
      (fun height h h' => hown height h (UInt64.le_trans h' hle))
      fun height h h' => hapart height h (UInt64.le_trans h' hle)
    refine (hone.weaken fun c slot h => ?_).trans hrest
    rwa [if_pos (by omega)] at h

/-! ## The other chain -/

section
variable {top : UInt64} {cut oldest : ℕ} (hsc : sc.Watches block tip)
  (hfork : Forked sc.startHeight top cut before block) (hlonger : top < tip)
  (holdest : oldest = max sc.startHeight.toNat (top.toNat - sc.retention.toNat))
  (hown : ∀ height, sc.startHeight ≤ height → height ≤ top → (before height).height = height)
include hsc hfork hlonger holdest hown

/-- A shared header is kept: the chain is scanned from the last shared one. -/
theorem Watches.leads_from_shared {bottom : UInt64} (hkept : oldest ≤ bottom.toNat)
    (hbottom : bottom.toNat + 1 = min cut (top.toNat + 1)) :
    sc.Leads (Contents.Window before oldest top)
      ((Height.down top (top.toNat - bottom.toNat)).map .rewound
        ++ (Height.up (bottom + 1) (tip.toNat - bottom.toNat)).map .advanced)
      (Contents.Window block (max sc.startHeight.toNat (tip.toNat - sc.retention.toNat)) tip) := by
  have hlt := UInt64.lt_iff_toNat_lt.1 hlonger
  have hstart : sc.startHeight.toNat ≤ oldest := by omega
  have hfall := hsc.leads_fall hstart hlonger
    (by omega : bottom.toNat + (top.toNat - bottom.toNat) = top.toNat) hkept
    (fun height h h' => hown height (UInt64.le_iff_toNat_le.2 (by omega)) h') fun height h h' => by
      have := UInt64.lt_iff_toNat_lt.1 h
      have := UInt64.le_iff_toNat_le.1 h'
      exact hfork.apart height (UInt64.le_iff_toNat_le.2 (by omega)) h' (by omega)
  have hshared : ∀ (c : Contents) slot, c.Window before oldest bottom slot →
      c.Window block oldest bottom slot := fun c slot hw => hw.transfer fun height h h' =>
    hfork.shared height (UInt64.le_iff_toNat_le.2 (by omega)) (UInt64.le_iff_toNat_le.2 (by omega))
      (by omega)
  have hclimb := hsc.leads_tip hstart (by omega : bottom.toNat - _ ≤ oldest)
    (by omega : bottom.toNat + (tip.toNat - bottom.toNat) = tip.toNat)
  have hmax : max oldest (tip.toNat - sc.retention.toNat)
      = max sc.startHeight.toNat (tip.toNat - sc.retention.toNat) := by omega
  rw [hmax] at hclimb
  exact (hfall.weaken hshared).trans hclimb

/-- No shared header is kept: all headers are dropped and the chain is scanned from the start. -/
theorem Watches.leads_from_start (hle : oldest ≤ top.toNat) (hcut : cut ≤ oldest) :
    sc.Leads (Contents.Window before oldest top)
      ((Height.down top (top.toNat - oldest + 1)).map .rewound
        ++ (Height.up sc.startHeight (tip.toNat + 1 - sc.startHeight.toNat)).map .advanced)
      (Contents.Window block (max sc.startHeight.toNat (tip.toNat - sc.retention.toNat)) tip) := by
  have hlt := UInt64.lt_iff_toNat_lt.1 hlonger
  have hstart : sc.startHeight.toNat ≤ oldest := by omega
  have hapart : ∀ height : UInt64, oldest ≤ height.toNat → height ≤ top →
      (block height).hash ≠ (before height).hash := fun height h h' =>
    hfork.apart height (UInt64.le_iff_toNat_le.2 (by omega)) h' (by omega)
  have hown' : ∀ height : UInt64, oldest ≤ height.toNat → height ≤ top →
      (before height).height = height :=
    fun height h h' => hown height (UInt64.le_iff_toNat_le.2 (by omega)) h'
  obtain ⟨bottom, rfl⟩ : ∃ bottom : UInt64, bottom.toNat = oldest :=
    ⟨.ofNat oldest, UInt64.toNat_ofNat_of_lt (Nat.lt_of_le_of_lt hle top.toNat_lt)⟩
  have hin : bottom ≤ top := UInt64.le_iff_toNat_le.2 hle
  have hfall := hsc.leads_fall hstart hlonger
    (by omega : bottom.toNat + (top.toNat - bottom.toNat) = top.toNat) (Nat.le_refl _) hown'
    fun height h => hapart height (UInt64.lt_iff_toNat_lt.1 h).le
  have hlast := hsc.leads_down hstart (UInt64.lt_of_le_of_lt hin hlonger)
    (hown' bottom (Nat.le_refl _) hin) (hapart bottom (Nat.le_refl _) hin)
  have hblank := hlast.weaken fun c slot h => by
    rw [if_neg (Nat.lt_irrefl _)] at h
    exact h
  have hall := (hfall.trans hblank).trans hsc.leads_scan
  rw [Height.down_sub hin, List.map_append]
  exact hall

/-- From what a scan of one chain keeps, the longer chain is scanned up to its tip. -/
theorem Watches.leads_reorg (hle : oldest ≤ top.toNat) :
    ∃ (dropped : ℕ) (first : UInt64), first ≤ tip ∧
      sc.Leads (Contents.Window before oldest top)
        ((Height.down top dropped).map .rewound
          ++ (Height.up first (tip.toNat + 1 - first.toNat)).map .advanced)
        (Contents.Window block (max sc.startHeight.toNat (tip.toNat - sc.retention.toNat)) tip) := by
  rcases Nat.lt_or_ge oldest cut with hcut | hcut
  · have hlt := UInt64.lt_iff_toNat_lt.1 hlonger
    have htip := hsc.tip_lt
    obtain ⟨bottom, hbottom⟩ : ∃ bottom : UInt64, bottom.toNat = min (cut - 1) top.toNat :=
      ⟨.ofNat (min (cut - 1) top.toNat), UInt64.toNat_ofNat_of_lt (by omega)⟩
    have hnext := Height.toNat_next (by omega : bottom.toNat + 1 < UInt64.size)
    have hleads := hsc.leads_from_shared hfork hlonger holdest hown
      (by omega : oldest ≤ bottom.toNat) (by omega)
    have hcount : tip.toNat - bottom.toNat = tip.toNat + 1 - (bottom + 1).toNat := by omega
    rw [hcount] at hleads
    exact ⟨_, bottom + 1, UInt64.le_iff_toNat_le.2 (by omega), hleads⟩
  · exact ⟨_, _, hsc.start_le, hsc.leads_from_start hfork hlonger holdest hown hle hcut⟩

end

/-! ## Whole runs -/

/-- Enough calls on an empty ledger scan the chain up to its tip. -/
theorem Watches.shows_run (hsc : sc.Watches block tip) {s : ScanState} (hs : s.Fresh)
    {times : List UInt64} (htimes : tip.toNat < sc.startHeight.toNat + times.length) :
    (sc.run times s).2.Shows
      (Contents.Window block (max sc.startHeight.toNat (tip.toNat - sc.retention.toNat)) tip) := by
  have hleads := hsc.leads_scan.trans (hsc.leads_rest (Nat.le_max_left ..)
    (times.length - (tip.toNat + 1 - sc.startHeight.toNat)))
  refine (hleads s times hs.shows ?_).2
  rw [List.length_append, List.length_map, Height.length_up, List.length_replicate]
  omega

/-- From a state, calls drop headers from a top downwards, then take the blocks up to a tip, and then
rest; and they leave the headers of a scanner that started with nothing. -/
def Converges (sc : Scanner) (top tip : UInt64) (s : ScanState) : Prop :=
  ∃ (dropped : ℕ) (first : UInt64), first ≤ tip ∧ ∀ (rest : ℕ) (times : List UInt64),
    times.length = dropped + (tip.toNat + 1 - first.toNat) + rest →
    (sc.run times s).1
      = ((Height.down top dropped).map ScanOutcome.rewound
          ++ (Height.up first (tip.toNat + 1 - first.toNat)).map ScanOutcome.advanced
          ++ List.replicate rest ScanOutcome.upToDate).map .ok ∧
    ∀ (fresh : ScanState) (timesFresh : List UInt64), fresh.Fresh →
      tip.toNat < sc.startHeight.toNat + timesFresh.length →
      (sc.run times s).2.ledger.Alike (sc.run timesFresh fresh).2.ledger

/-- A scanner that has scanned one chain up to its tip, when its node turns to a longer one, converges
to what a scanner keeps that only ever saw the second chain. -/
theorem converges_reorg {scA scB : Scanner} {blockA blockB : UInt64 → Block} {tipA tipB : UInt64}
    {cut : ℕ} (hA : scA.Watches blockA tipA) (hB : scB.Watches blockB tipB)
    (hstart : scA.startHeight = scB.startHeight) (hretention : scA.retention = scB.retention)
    (hfork : Forked scB.startHeight tipA cut blockA blockB) (hlonger : tipA < tipB) {s : ScanState}
    (hs : s.Fresh) {timesA : List UInt64}
    (htimesA : tipA.toNat < scA.startHeight.toNat + timesA.length) :
    scB.Converges tipA tipB (scA.run timesA s).2 := by
  have hkept := hA.shows_run hs htimesA
  rw [hstart, hretention] at hkept
  have hown : ∀ height, scB.startHeight ≤ height → height ≤ tipA →
      (blockA height).height = height := by
    rw [← hstart]
    exact hA.own_height
  have hle := UInt64.le_iff_toNat_le.1 hA.start_le
  rw [hstart] at hle
  obtain ⟨dropped, first, hfirst, hleads⟩ := hB.leads_reorg hfork hlonger rfl hown
    (max_le hle (Nat.sub_le ..))
  refine ⟨dropped, first, hfirst, fun rest times htimes => ?_⟩
  have hall := hleads.trans (hB.leads_rest (Nat.le_max_left ..) rest)
  obtain ⟨houtcomes, -, c, hc, hwindow⟩ := hall _ times hkept (by
    rw [List.length_append, List.length_append, List.length_map, List.length_map, Height.length_up,
      Height.length_down, List.length_replicate, htimes])
  refine ⟨houtcomes, fun fresh timesFresh hfresh htimesFresh => ?_⟩
  obtain ⟨-, c', hc', hwindow'⟩ := hB.shows_run hfresh htimesFresh
  exact ⟨Contents.persisted_eq_of_window hc hc' hwindow hwindow',
    hwindow.newest.trans hwindow'.newest.symm⟩

theorem watches_forkBlock {cut tip retention start : UInt64} {tag : UInt8} (hle : start ≤ tip)
    (htip : tip.toNat + 1 < UInt64.size) :
    (Sample.scanner (Sample.flakyNode (Sample.chainAnswers (Sample.forkBlock cut tag) tip)
      fun _ => false) retention start).Watches (Sample.forkBlock cut tag) tip where
  never_fails := by
    rintro (⟨past, height, h⟩ | ⟨tx, timestamp, past, e, past', h⟩)
    · exact h _ rfl
    · cases h
  serves past height _ := rfl
  start_le := hle
  tip_lt := htip
  own_height height _ _ := rfl
  linked height _ _ := congrArg (Sample.forkHash cut tag) (Height.previous_next height)

/-- The heights 3 to 5 of one chain are scanned, of which 4 and 5 are still kept; then the node turns
to a chain that forks off at height 4 and ends at height 6. -/
theorem converges_reorg_fork :
    (Sample.scanner (Sample.flakyNode (Sample.chainAnswers (Sample.forkBlock 4 2) 6) fun _ => false)
      1 3).Converges 5 6
      ((Sample.scanner (Sample.flakyNode (Sample.chainAnswers (Sample.forkBlock 4 1) 5)
        fun _ => false) 1 3).run [10, 20, 30] (Sample.scanState fun _ => false)).2 := by
  have hA : (Sample.scanner (Sample.flakyNode (Sample.chainAnswers (Sample.forkBlock 4 1) 5)
      fun _ => false) 1 3).Watches (Sample.forkBlock 4 1) 5 :=
    watches_forkBlock (by decide) (by decide)
  have hB : (Sample.scanner (Sample.flakyNode (Sample.chainAnswers (Sample.forkBlock 4 2) 6)
      fun _ => false) 1 3).Watches (Sample.forkBlock 4 2) 6 :=
    watches_forkBlock (by decide) (by decide)
  have hfork : Forked 3 5 4 (Sample.forkBlock 4 1) (Sample.forkBlock 4 2) := by
    refine ⟨fun height hstart _ hcut => ?_, fun height _ htip hcut => ?_⟩
    · have h3 : 3 ≤ height.toNat := UInt64.le_iff_toNat_le.1 hstart
      obtain rfl : height = 3 := UInt64.toNat_inj.1 (by omega : height.toNat = 3)
      rfl
    · have h5 : height.toNat ≤ 5 := UInt64.le_iff_toNat_le.1 htip
      rcases (by omega : height.toNat = 4 ∨ height.toNat = 5) with h | h
      · obtain rfl : height = 4 := UInt64.toNat_inj.1 h
        decide
      · obtain rfl : height = 5 := UInt64.toNat_inj.1 h
        decide
  have hfresh : (Sample.scanState fun _ => false).Fresh :=
    ⟨⟨rfl, rfl, rfl⟩, fun ⟨_, hf⟩ => Bool.false_ne_true hf⟩
  exact converges_reorg hA hB rfl rfl hfork (by decide) hfresh (by decide)

end Scanner
end EvmBridge
