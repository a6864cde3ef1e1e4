import EvmBridge.Proofs.Ledger.Retry
import EvmBridge.Proofs.Scan.Linkage

/-! # What is kept of old blocks

A call that advances to a height keeps the headers and the bridge records from the retention below
that height on, and nothing older (`Scanner.Retains`). What was kept before may come of any run,
with failures and reorganisations: whatever an earlier call failed to cut off goes now.
-/

namespace EvmBridge
set_option autoImplicit false
open EvmBridge.Action

/-- Whether a record is among those found, and is the last one of its transaction. -/
def Record.LastIn (r : Record) (found : List Record) : Prop :=
  ∃ earlier later, found = earlier ++ r :: later ∧ ∀ r' ∈ later, r'.txHash ≠ r.txHash

theorem Record.LastIn.mem {r : Record} {found : List Record} (h : r.LastIn found) : r ∈ found := by
  obtain ⟨earlier, later, rfl, -⟩ := h
  simp

theorem Record.lastIn_cons {r first : Record} {found : List Record} :
    r.LastIn (first :: found) ↔
      r.LastIn found ∨ r = first ∧ ∀ r' ∈ found, r'.txHash ≠ first.txHash := by
  constructor
  · rintro ⟨earlier, later, hsplit, hlater⟩
    cases earlier with
    | nil =>
      obtain ⟨rfl, rfl⟩ := List.cons.inj hsplit
      exact .inr ⟨rfl, hlater⟩
    | cons first' earlier =>
      obtain ⟨-, rfl⟩ := List.cons.inj hsplit
      exact .inl ⟨earlier, later, rfl, hlater⟩
  · rintro (⟨earlier, later, rfl, hlater⟩ | ⟨rfl, hlater⟩)
    · exact ⟨first :: earlier, later, rfl, hlater⟩
    · exact ⟨[], found, rfl, hlater⟩

/-! ## Look-ups -/

namespace Contents
open Ledger
variable {c : Contents} {found : List Record} {r : Record} {hash : Hash}

/-- Of the records added, the last one of a transaction is found, and else the one before. -/
theorem get?_addRecords_eq_some_iff : (c.addRecords found).records.get? hash = some r ↔
    r.LastIn found ∧ r.txHash = hash ∨
      c.records.get? hash = some r ∧ ∀ r' ∈ found, r'.txHash ≠ hash := by
  induction found generalizing c with
  | nil => simp [addRecords, Record.LastIn]
  | cons first found ih =>
    have hadded : (c.addRecord first).records.get? hash
        = if first.txHash = hash then some first else c.records.get? hash := Table.get?_insert ..
    change ((c.addRecord first).addRecords found).records.get? hash = some r ↔ _
    rw [ih, hadded, Record.lastIn_cons, List.forall_mem_cons]
    by_cases hhash : first.txHash = hash
    · subst hhash
      rw [if_pos rfl]
      grind
    · rw [if_neg hhash]
      grind

end Contents

namespace Ledger
variable {l : Ledger} {c : Contents}

/-- The kept bridge record rows, with what they read as. -/
def cached (l : Ledger) : List (Bytes × Option Record) :=
  (l.store.rows.under recordTable).map fun row => (row.1, (Codec.record.decode row.2).toOption)

theorem mem_cached_iff (hc : c.HeldBy l.store.rows) {row : Bytes × Option Record} :
    row ∈ l.cached ↔ ∃ hash r, c.records.get? hash = some r ∧ row = (recordKey hash, some r) := by
  rw [cached, hc.under_records, List.map_map, List.mem_map]
  have hread : ∀ hash r, c.records.get? hash = some r →
      (Codec.record.decode (Codec.record.write r)).toOption = some r := by
    intro hash r hr
    rw [Codec.decode_record (hc.fits hash r hr)]
    rfl
  constructor
  · rintro ⟨e, he, rfl⟩
    have hr := (c.records.get?_eq_some_iff e.1 e.2).2 he
    exact ⟨e.1, e.2, hr, Prod.ext rfl (hread e.1 e.2 hr)⟩
  · rintro ⟨hash, r, hr, rfl⟩
    exact ⟨(hash, r), (c.records.get?_eq_some_iff hash r).1 hr, Prod.ext rfl (hread hash r hr)⟩

theorem outcome_cachedRecord (hc : c.HeldBy l.store.rows) (hash : Hash) :
    (cachedRecord hash).outcome l.withoutFailures = .ok (c.records.get? hash) := by
  have hl : c.HeldBy l.withoutFailures.store.rows := hc
  refine Ends.outcome (p := fun result _ => result = .ok (c.records.get? hash)) ?_
  refine (ends_cachedRecord hl hash).mono (fun r _ h => ?_) fun _ _ h => ?_
  · rw [h.1]
  · exact absurd h.1 (Store.not_mayFail_reliable _)

theorem recordRow_mem_cached_iff (hc : c.HeldBy l.store.rows) {hash : Hash} {r : Record} :
    (recordKey hash, some r) ∈ l.cached ↔ c.records.get? hash = some r := by
  rw [mem_cached_iff hc]
  constructor
  · rintro ⟨hash', r', hr, heq⟩
    obtain ⟨hkey, hsome⟩ := Prod.mk.inj heq
    rwa [recordKey_injective hkey, Option.some.inj hsome]
  · exact fun hr => ⟨hash, r, hr, rfl⟩

theorem headerRow_mem_persisted_iff (hc : c.HeldBy l.store.rows) {height : UInt64} {h : Header} :
    (headerKey height, some h) ∈ l.persisted ↔ c.headers.get? height = some h := by
  rw [mem_persisted_iff hc]
  constructor
  · rintro ⟨height', h', hg, heq⟩
    obtain ⟨hkey, hsome⟩ := Prod.mk.inj heq
    rwa [headerKey_injective hkey, Option.some.inj hsome]
  · exact fun hg => ⟨height, h, hg, rfl⟩

end Ledger

namespace Scanner
variable {sc : Scanner} {c : Contents}

/-- Whether a height is not more than the retention below another one. -/
def InWindow (sc : Scanner) (top height : UInt64) : Prop :=
  top.toNat ≤ height.toNat + sc.retention.toNat

theorem inWindow_iff (sc : Scanner) {top height : UInt64} (h : sc.retention ≤ top) :
    sc.InWindow top height ↔ ¬ height < top - sc.retention := by
  rw [InWindow, UInt64.not_lt, UInt64.le_iff_toNat_le, UInt64.toNat_sub_of_le _ _ h,
    Nat.sub_le_iff_le_add]

theorem inWindow_of_lt (sc : Scanner) {top : UInt64} (h : top < sc.retention) (height : UInt64) :
    sc.InWindow top height :=
  (UInt64.lt_iff_toNat_lt.1 h).le.trans (Nat.le_add_left _ _)

theorem get?_headers_kept_eq_some_iff {top height : UInt64} {h : Header} :
    (sc.kept top c).headers.get? height = some h ↔
      c.headers.get? height = some h ∧ sc.InWindow top height := by
  rw [kept]
  split
  next hle =>
    rw [Contents.cutOff, Table.get?_filter, Option.filter_eq_some_iff, sc.inWindow_iff hle]
    simp
  next hlt => rw [and_iff_left (sc.inWindow_of_lt (UInt64.not_le.1 hlt) height)]

theorem get?_records_kept_eq_some_iff {top : UInt64} {hash : Hash} {r : Record} :
    (sc.kept top c).records.get? hash = some r ↔
      c.records.get? hash = some r ∧ sc.InWindow top r.blockHeight := by
  rw [kept]
  split
  next hle =>
    rw [Contents.cutOff, Table.get?_filter, Option.filter_eq_some_iff, sc.inWindow_iff hle]
    simp
  next hlt => rw [and_iff_left (sc.inWindow_of_lt (UInt64.not_le.1 hlt) _)]

/-- What is kept, of a ledger and of a block with the records found in it, by a call that advances to
a height. -/
structure Retains (sc : Scanner) (height : UInt64) (new : Header) (found : List Record)
    (l l' : Ledger) : Prop where
  /-- The new header, and the others in the window. -/
  headers : ∀ row, row ∈ l'.persisted ↔ row = (Ledger.headerKey height, some new) ∨
    row ∈ l.persisted ∧ ∃ old, row = (Ledger.headerKey old.height, some old) ∧
      old.height ≠ height ∧ sc.InWindow height old.height
  /-- The records of blocks in the window, those found in place of others of the same
  transactions. -/
  records : ∀ row, row ∈ l'.cached ↔ ∃ hash r, row = (Ledger.recordKey hash, some r) ∧
    sc.InWindow height r.blockHeight ∧
    (r.LastIn found ∧ r.txHash = hash ∨ row ∈ l.cached ∧ ∀ r' ∈ found, r'.txHash ≠ hash)
  read_back : ∀ r, r.LastIn found → r.blockHeight = height →
    (Ledger.cachedRecord r.txHash).outcome l'.withoutFailures = .ok (some r)

/-! ## Calls and runs -/

/-- Every header is kept under its own height, whatever the node serves. -/
theorem Step.filed {now : UInt64} {s s' : ScanState} {result : Except BridgeError ScanOutcome}
    (hfiled : c.headers.FiledBy Header.height) (h : sc.Step now s c result s') :
    ∃ c' : Contents, c'.HeldBy s'.ledger.store.rows ∧ c'.headers.FiledBy Header.height := by
  have hcommit : ∀ (b : Block) (found : List Record),
      ((c.addRecords found).addHeader (b.header now)).headers.FiledBy Header.height := by
    intro b found
    rw [Contents.addHeader, c.headers_addRecords]
    exact hfiled.insert (b.header now)
  cases h with
  | stalled _ hl _ _ hheaders _ => exact ⟨_, hl.held, hheaders ▸ hfiled⟩
  | upToDate _ hl _ => exact ⟨_, hl.held, hfiled⟩
  | unread _ _ _ _ _ hl _ _ => exact ⟨_, hl.held, hfiled.filter _⟩
  | rewound _ _ _ hl _ => exact ⟨_, hl.held, hfiled.filter _⟩
  | uncut _ _ _ _ _ hl _ _ => exact ⟨_, hl.held, hcommit _ _⟩
  | advanced _ _ _ hl _ =>
    refine ⟨_, hl.held, ?_⟩
    rw [kept]
    split
    · exact (hcommit _ _).filter _
    · exact hcommit _ _

theorem says_run (sc : Scanner) {start : ScanState} (hstart : start.ledger.IsEmpty)
    (times : List UInt64) : ∃ c, (sc.run times start).2.ledger.Says c := by
  obtain ⟨-, c, hc, hfiled⟩ := sc.run_keeps (fun c _ => c.headers.FiledBy Header.height)
    (fun _ => True) (fun _ hfiled hstep => ⟨trivial, hstep.filed hfiled⟩) times hstart.held
    Table.filedBy_empty
  exact ⟨c, hc, hfiled⟩

/-- What is kept of contents when a block has been scanned, as the rows show it. -/
theorem retains_of_leaves {l l' : Ledger} {height : UInt64} {new : Header} {found : List Record}
    {made : List StoreCall} {slot : Option Header} (hc : l.Says c) (hnew : new.height = height)
    (h : l.Leaves l' made (sc.kept height ((c.addRecords found).addHeader new)) slot) :
    sc.Retains height new found l l' where
  headers row := by
    rw [Ledger.mem_persisted_iff h.held]
    simp only [get?_headers_kept_eq_some_iff, Contents.get?_addHeader_eq_some_iff,
      c.headers_addRecords, hnew]
    constructor
    · rintro ⟨k, hd, ⟨⟨rfl, rfl⟩ | ⟨hne, hg⟩, hwindow⟩, rfl⟩
      · exact .inl rfl
      · obtain rfl := hc.filed k hd hg
        exact .inr ⟨(Ledger.headerRow_mem_persisted_iff hc.held).2 hg, hd, rfl, hne, hwindow⟩
    · rintro (rfl | ⟨hrow, old, rfl, hne, hwindow⟩)
      · exact ⟨height, new, ⟨.inl ⟨rfl, rfl⟩, Nat.le_add_right ..⟩, rfl⟩
      · have hg := (Ledger.headerRow_mem_persisted_iff hc.held).1 hrow
        exact ⟨old.height, old, ⟨.inr ⟨hne, hg⟩, hwindow⟩, rfl⟩
  records row := by
    rw [Ledger.mem_cached_iff h.held]
    refine exists_congr fun hash => exists_congr fun r => ?_
    rw [get?_records_kept_eq_some_iff, Contents.records_addHeader,
      Contents.get?_addRecords_eq_some_iff]
    constructor
    · rintro ⟨⟨hr, hwindow⟩, rfl⟩
      rw [Ledger.recordRow_mem_cached_iff hc.held]
      exact ⟨rfl, hwindow, hr⟩
    · rintro ⟨rfl, hwindow, hr⟩
      rw [Ledger.recordRow_mem_cached_iff hc.held] at hr
      exact ⟨⟨hr, hwindow⟩, rfl⟩
  read_back r hlast hheight := by
    have hkept : (sc.kept height ((c.addRecords found).addHeader new)).records.get? r.txHash
        = some r := by
      refine get?_records_kept_eq_some_iff.2 ⟨?_, hheight ▸ Nat.le_add_right ..⟩
      exact Contents.get?_addRecords_eq_some_iff.2 (.inl ⟨hlast, rfl⟩)
    rw [Ledger.outcome_cachedRecord h.held, hkept]

/-- No header is kept at the next height. -/
theorem get?_nextHeight (sc : Scanner) {s : ScanState} (hlinked : c.Linked s.ledger.newest) :
    c.headers.get? (sc.nextHeight (s.latest c)) = none := by
  have hlatest : c.Linked (s.latest c) := hlinked.latest
  cases hl : s.latest c with
  | none => exact Contents.Linked.get?_of_latest_eq_none hl _
  | some top =>
    rw [hl] at hlatest
    obtain ⟨hsize, hall⟩ := hlatest.top top rfl
    have hnext : (sc.nextHeight (some top)).toNat = top.height.toNat + 1 := Height.toNat_next hsize
    rw [Option.eq_none_iff_forall_ne_some]
    intro h hg
    rcases hall _ h hg with hlt | ⟨heq, -⟩
    · omega
    · rw [heq] at hnext
      omega

/-- If the node serves all blocks at their own heights, a call advances to a height at which there
was no header. -/
theorem not_persisted_of_advanced (sc : Scanner) {start : ScanState}
    (hstart : start.ledger.IsEmpty) (times : List UInt64) (now : UInt64) {height : UInt64}
    (hnode : sc.ServesOwnHeights)
    (h : (sc.syncNext now).outcome (sc.run times start).2 = .ok (.advanced height)) :
    ∀ row ∈ (sc.run times start).2.ledger.persisted, row.1 ≠ Ledger.headerKey height := by
  obtain ⟨c, hc, hlinked⟩ := sc.exists_linked_run hnode hstart times
  have hstep := sc.step_syncNext hc now
  rw [h] at hstep
  cases hstep
  rintro row hrow hkey
  obtain ⟨k, hd, hg, rfl⟩ := (Ledger.mem_persisted_iff hc).1 hrow
  rw [Ledger.headerKey_injective hkey, sc.get?_nextHeight hlinked] at hg
  cases hg

/-- After any run from an empty ledger, a call that advances to a height keeps the header and the
bridge records of its block and, of what was kept before, exactly what is within the retention,
provided that the node serves the block of the height that it is asked for. If it always does, there
was no header at that height to be replaced. -/
theorem retains_of_advanced (sc : Scanner) {start : ScanState} (hstart : start.ledger.IsEmpty)
    (times : List UInt64) (now : UInt64) {height : UInt64}
    (hnode : ∀ b, sc.Answers height (some b) → b.height = height)
    (h : (sc.syncNext now).outcome (sc.run times start).2 = .ok (.advanced height)) :
    (∃ b found asked,
      sc.node.respond (sc.run times start).2.exchanges (.block height) sc.timeLimit
        = .answer (some b) ∧
      sc.analyzeAll b.timestamp b.transactions
        (⟨.block height, true⟩ :: (sc.run times start).2.exchanges) = .ok found asked ∧
      sc.Retains height (b.header now) found (sc.run times start).2.ledger
        ((sc.syncNext now).final (sc.run times start).2).ledger) ∧
    (sc.ServesOwnHeights →
      ∀ row ∈ (sc.run times start).2.ledger.persisted, row.1 ≠ Ledger.headerKey height) := by
  refine ⟨?_, fun hall => sc.not_persisted_of_advanced hstart times now hall h⟩
  obtain ⟨c, hc⟩ := sc.says_run hstart times
  obtain ⟨b, found, asked, made, hserved, hfound, hl⟩ :=
    (sc.ends_syncNext_advanced hc.held now).of_outcome h height rfl
  have hheight : b.height = height := hnode b ⟨_, hserved⟩
  rw [hheight] at hl
  exact ⟨b, found, asked, hserved, hfound, retains_of_leaves hc hheight hl⟩

end Scanner

namespace Sample

/-- A block with one payment to the bridge contract. -/
def paidBlock (height : UInt64) : Block :=
  { forkBlock 0 1 height with transactions := [payment height bridgeContract 5] }

/-- A scanner that takes every transaction for a deposit. -/
def depositScanner (node : Node) (retention startHeight : UInt64) : Scanner :=
  { scanner node retention startHeight with
    analyze tx _ := pure (some (.ofTransaction .deposit tx (.native 1 18)))
    fits_analyze tx _ _ := fun _ hr => by
      cases hr
      exact Record.fits_ofTransaction .deposit tx _ }

/-- The row of the record of a payment, with what it reads as. -/
def depositRow (height : UInt64) : Bytes × Option Record :=
  (Ledger.recordKey (deposited height 5).txHash, some (deposited height 5))

end Sample

/-- The blocks up to height 5 are committed, but the last call fails to cut off the one at height 3.
The next call cuts off all below height 5, headers and records alike. -/
theorem Scanner.retains_of_advanced_late :
    let sc := Sample.depositScanner
      (Sample.flakyNode (Sample.chainAnswers Sample.paidBlock 9) fun _ => false) 1 3
    let start := Sample.scanState (Sample.failingOnce (· = .batch))
    let s := (sc.run [6, 7, 8] start).2
    let l' := ((sc.syncNext 9).final s).ledger
    (sc.run [6, 7, 8] start).1.map Except.toOption = [some (.advanced 3), some (.advanced 4), none] ∧
      s.ledger.persisted.map (·.1)
        = [Ledger.headerKey 3, Ledger.headerKey 4, Ledger.headerKey 5] ∧
      s.ledger.cached = [Sample.depositRow 3, Sample.depositRow 4, Sample.depositRow 5] ∧
      (sc.syncNext 9).outcome s = .ok (.advanced 6) ∧
      sc.Retains 6 ((Sample.paidBlock 6).header 9) [Sample.deposited 6 5] s.ledger l' ∧
      l'.persisted.map (·.1) = [Ledger.headerKey 5, Ledger.headerKey 6] ∧
      l'.cached = [Sample.depositRow 5, Sample.depositRow 6] := by
  intro sc start s l'
  have hfails : (sc.run [6, 7, 8] start).1.map Except.toOption
      = [some (.advanced 3), some (.advanced 4), none] := by decide +kernel
  have hrows : s.ledger.persisted.map (·.1)
      = [Ledger.headerKey 3, Ledger.headerKey 4, Ledger.headerKey 5] := by decide +kernel
  have hcached : s.ledger.cached
      = [Sample.depositRow 3, Sample.depositRow 4, Sample.depositRow 5] := by decide +kernel
  have hadvanced : (sc.syncNext 9).outcome s = .ok (.advanced 6) :=
    ok_of_toOption (by decide +kernel)
  have hnode : ∀ b, sc.Answers 6 (some b) → b.height = 6 := by
    rintro b ⟨past, hb⟩
    cases hb
    rfl
  obtain ⟨⟨b, found, asked, hserved, hfound, hretains⟩, -⟩ :=
    retains_of_advanced sc ⟨rfl, rfl, rfl⟩ [6, 7, 8] 9 hnode hadvanced
  obtain rfl : Sample.paidBlock 6 = b := Option.some.inj (Reply.answer.inj hserved)
  obtain ⟨rfl, -⟩ : [Sample.deposited 6 5] = found ∧ _ = asked := EStateM.Result.ok.inj hfound
  exact ⟨hfails, hrows, hcached, hadvanced, hretains, by decide +kernel, by decide +kernel⟩

end EvmBridge
