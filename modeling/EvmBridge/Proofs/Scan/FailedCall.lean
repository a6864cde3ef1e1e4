import EvmBridge.Proofs.Scan.Run
import EvmBridge.Sample

/-! # What a failed call leaves behind

A call that fails is meant to record nothing, so that the next one takes the same height again. That
is so unless it fails at the reading of the header below a dropped one, or while cutting off old
blocks: by then a header row has been removed, or a block has been committed and forwarded.
-/

namespace EvmBridge
set_option autoImplicit false
open EvmBridge.Action

/-- The newest header, as a look-up answers that does not fail. -/
def Ledger.top (l : Ledger) : Option Header :=
  (Ledger.latest.outcome { l with store := { l.store with plan := fun _ => false } }).toOption.join

/-- The store calls that were made between two states, the last one first. -/
def ScanState.callsSince (s s' : ScanState) : List StoreCall :=
  s'.ledger.store.calls.take (s'.ledger.store.calls.length - s.ledger.store.calls.length)

/-- From the one state to the other nothing is recorded, and the same height comes next. -/
structure Scanner.NothingRecorded (sc : Scanner) (s s' : ScanState) : Prop where
  header_rows : s'.ledger.store.rows.under Ledger.headerTable
    = s.ledger.store.rows.under Ledger.headerTable
  top : s'.ledger.top = s.ledger.top
  sink : s'.sink = s.sink
  next : sc.nextHeight s'.ledger.top = sc.nextHeight s.ledger.top

/-- Where a call may fail so that nothing is recorded: before the first change; or behind the removal
of a row that was not there; or behind a commit that changed nothing, since the newest header came
once more. -/
def ScanState.FailsUnnoticed (s s' : ScanState) : Prop :=
  match Stop.of (s.callsSince s') with
  | .early => True
  | .reading => ∀ top ∈ s.ledger.top, s.ledger.store.rows.get? (Ledger.headerKey top.height) = none
  | .cutting => s'.ledger.newest = s.ledger.top ∧ s'.sink = s.sink ∧
      ∀ top ∈ s.ledger.top, s.ledger.store.rows.get? (Ledger.headerKey top.height)
        = some (Codec.header.write top)

/-! ## Headers and rows -/

namespace Ledger
variable {l : Ledger} {c : Contents}

theorem top_eq (hc : c.HeldBy l.store.rows) : l.top = c.latest l.newest := by
  obtain ⟨⟨rows, plan, calls⟩, slot⟩ := l
  have hnever : ¬ Store.MayFail ⟨rows, fun _ => false, calls⟩ := fun ⟨_, hf⟩ => by cases hf
  have hlatest : Ledger.latest.outcome ⟨⟨rows, fun _ => false, calls⟩, slot⟩
      = .ok (c.latest slot) :=
    Ends.outcome (p := fun result _ => result = .ok (c.latest slot))
      ((ends_latest (l := ⟨⟨rows, fun _ => false, calls⟩, slot⟩) hc).mono
        (fun _ _ h => congrArg _ h.1) fun _ _ h => absurd h.1 hnever)
  rw [top, hlatest]
  rfl

theorem Leaves.callsSince_eq {s s' : ScanState} {made : List StoreCall} {slot : Option Header}
    (h : s.ledger.Leaves s'.ledger made c slot) : s.callsSince s' = made := by
  rw [ScanState.callsSince, h.calls, List.length_append, Nat.add_sub_cancel]
  exact List.take_left

end Ledger

namespace Contents
open Ledger
variable {c c' : Contents} {rows rows' : Rows}

theorem under_headers_eq (hc : c.HeldBy rows) (hc' : c'.HeldBy rows')
    (h : c'.headers = c.headers) : rows'.under headerTable = rows.under headerTable := by
  rw [hc.under_headers, hc'.under_headers, h]

theorem latest_latest (c : Contents) (slot : Option Header) :
    c.latest (c.latest slot) = c.latest slot := by
  rw [latest, latest, Option.or_assoc, Option.or_self]

theorem headers_dropHeader_of_none {height : UInt64} (h : c.headers.get? height = none) :
    (c.dropHeader height).headers = c.headers :=
  Table.erase_of_get?_eq_none h

theorem headers_addHeader_of_some {h : Header} (hh : c.headers.get? h.height = some h) :
    (c.addHeader h).headers = c.headers := by
  refine Table.ext_get? fun k => ?_
  rw [addHeader, Table.get?_insert]
  split
  next heq => rw [← heq, hh]
  · rfl

end Contents

/-! ## Failed calls -/

namespace Scanner
variable {sc : Scanner} {s s' : ScanState} {c : Contents}

theorem Step.nothingRecorded_iff {now : UInt64} {e : BridgeError}
    (hc : c.HeldBy s.ledger.store.rows) (h : sc.Step now s c (.error e) s') :
    sc.NothingRecorded s s' ↔ s.FailsUnnoticed s' := by
  have htop := Ledger.top_eq hc
  cases h with
  | stalled _ hl hsink hstop hheaders hslot =>
    have hsame : s'.ledger.top = s.ledger.top := by
      rw [Ledger.top_eq hl.held, htop, hl.newest]
      rcases hslot with rfl | rfl
      · rw [Contents.latest, hheaders, Contents.latest]
      · rw [Contents.latest, hheaders]
        exact c.latest_latest _
    have hkept : s.FailsUnnoticed s' := by
      rw [ScanState.FailsUnnoticed, hl.callsSince_eq, hstop]
      trivial
    exact iff_of_true ⟨Contents.under_headers_eq hc hl.held hheaders, hsame, hsink, by rw [hsame]⟩
      hkept
  | @unread _ _ _ _ previous _ _ hprevious _ _ hl hsink hstop =>
    have htop' : s.ledger.top = some previous := htop.trans hprevious
    have hsame : s'.ledger.top = s.ledger.top := by
      rw [Ledger.top_eq hl.held, htop', hl.newest]
      rfl
    rw [ScanState.FailsUnnoticed, hl.callsSince_eq, hstop, htop']
    constructor
    · rintro hn _ ⟨⟩
      rw [← Rows.get?_eq_of_under_eq hn.header_rows (Ledger.isPrefixOf_headerKey _), hl.held.header,
        Contents.dropHeader, Table.get?_erase, if_pos rfl]
      rfl
    · intro hnone
      have hrow := hnone previous rfl
      rw [hc.header, Option.map_eq_none_iff] at hrow
      exact ⟨Contents.under_headers_eq hc hl.held (Contents.headers_dropHeader_of_none hrow), hsame,
        hsink, by rw [hsame]⟩
  | @uncut _ _ _ b found _ _ _ _ _ hl hsink hstop =>
    have htop' : s'.ledger.top = s'.ledger.newest := by
      rw [Ledger.top_eq hl.held, hl.newest]
      rfl
    have hadded : ((c.addRecords found).addHeader (b.header now)).headers
        = (c.addHeader (b.header now)).headers := by
      rw [Contents.addHeader, c.headers_addRecords, Contents.addHeader]
    rw [ScanState.FailsUnnoticed, hl.callsSince_eq, hstop]
    constructor
    · intro hn
      have hnewest : s'.ledger.newest = s.ledger.top := htop'.symm.trans hn.top
      refine ⟨hnewest, hn.sink, fun top ht => ?_⟩
      rw [← hnewest, hl.newest] at ht
      cases ht
      rw [← Rows.get?_eq_of_under_eq hn.header_rows (Ledger.isPrefixOf_headerKey _), hl.held.header,
        hadded, Contents.addHeader, Table.get?_insert, if_pos rfl]
      rfl
    · rintro ⟨hnewest, hsink', hrow⟩
      have hrow := hrow (b.header now) (by rw [← hnewest, hl.newest]; rfl)
      rw [hc.header] at hrow
      obtain ⟨h, hg, hw⟩ := Option.map_eq_some_iff.1 hrow
      obtain rfl := Codec.write_header_injective hw
      have hsame : s'.ledger.top = s.ledger.top := htop'.trans hnewest
      exact ⟨Contents.under_headers_eq hc hl.held
        (hadded.trans (Contents.headers_addHeader_of_some hg)), hsame, hsink', by rw [hsame]⟩

/-- If the node serves each block at its own height, what is committed is new. -/
theorem Step.not_nothingRecorded_of_cutting {now : UInt64} {e : BridgeError}
    (hnode : ∀ height b, sc.Answers height (some b) → b.height = height)
    (hc : c.HeldBy s.ledger.store.rows) (h : sc.Step now s c (.error e) s')
    (hstop : Stop.of (s.callsSince s') = .cutting) : ¬ sc.NothingRecorded s s' := by
  rw [h.nothingRecorded_iff hc, ScanState.FailsUnnoticed, hstop]
  rintro ⟨hnewest, -, -⟩
  rw [Ledger.top_eq hc] at hnewest
  cases h with
  | stalled _ hl _ hearly _ _ =>
    rw [hl.callsSince_eq, hearly] at hstop
    cases hstop
  | unread _ _ _ _ _ hl _ hreading =>
    rw [hl.callsSince_eq, hreading] at hstop
    cases hstop
  | @uncut _ _ _ b _ _ hb _ _ _ hl _ _ =>
    have hlatest : s.latest c = some (b.header now) := hnewest.symm.trans hl.newest
    have hheight := hnode _ b hb
    rw [hlatest] at hheight
    -- The new header would be one above itself.
    have hself : b.height = b.height + 1 := hheight
    grind

/-- A failed call after any run from an empty ledger records nothing exactly if it fails
unnoticed. -/
theorem nothingRecorded_iff_failsUnnoticed (sc : Scanner) {start : ScanState}
    (hstart : start.ledger.IsEmpty) (times : List UInt64) (now : UInt64) {e : BridgeError}
    (h : (sc.syncNext now).outcome (sc.run times start).2 = .error e) :
    sc.NothingRecorded (sc.run times start).2 ((sc.syncNext now).final (sc.run times start).2) ↔
      (sc.run times start).2.FailsUnnoticed ((sc.syncNext now).final (sc.run times start).2) := by
  obtain ⟨c, hc⟩ := sc.held_run times hstart.held
  have hstep := sc.step_syncNext hc now
  rw [h] at hstep
  exact hstep.nothingRecorded_iff hc

/-- The block at height 10 is committed, and then the look-up of old bridge records fails. -/
theorem recorded_by_failed_call :
    let sc := Sample.scanner (Sample.flakyNode (Sample.chainAnswers (Sample.forkBlock 0 1) 10)
      fun _ => false) 0 10
    let s := Sample.scanState (.ofRules [⟨"scan", Ledger.recordTable, 0⟩])
    (sc.syncNext 7).outcome s = .error (.storage "injected scan") ∧
      ¬ sc.NothingRecorded s ((sc.syncNext 7).final s) := by
  intro sc s
  have hfails : (sc.syncNext 7).outcome s = .error (.storage "injected scan") := rfl
  have hempty : s.ledger.IsEmpty := ⟨rfl, rfl, rfl⟩
  refine ⟨hfails, fun hn => ?_⟩
  have hunnoticed : s.FailsUnnoticed ((sc.syncNext 7).final s) :=
    (nothingRecorded_iff_failsUnnoticed sc hempty [] 7 hfails).1 hn
  have hstop : Stop.of (s.callsSince ((sc.syncNext 7).final s)) = .cutting := rfl
  have htop : s.ledger.top = none := rfl
  have hnewest : ((sc.syncNext 7).final s).ledger.newest
      = some ((Sample.forkBlock 0 1 10).header 7) := rfl
  rw [ScanState.FailsUnnoticed, hstop] at hunnoticed
  obtain ⟨hsame, -⟩ := hunnoticed
  rw [hnewest, htop] at hsame
  cases hsame

/-- A call that fails while cutting off old blocks has recorded something, if the node serves each
block at its own height. -/
theorem not_nothingRecorded_of_cutting (sc : Scanner)
    (hnode : ∀ height b, sc.Answers height (some b) → b.height = height) {start : ScanState}
    (hstart : start.ledger.IsEmpty) (times : List UInt64) (now : UInt64) {e : BridgeError}
    (h : (sc.syncNext now).outcome (sc.run times start).2 = .error e)
    (hstop : Stop.of ((sc.run times start).2.callsSince
      ((sc.syncNext now).final (sc.run times start).2)) = .cutting) :
    ¬ sc.NothingRecorded (sc.run times start).2
      ((sc.syncNext now).final (sc.run times start).2) := by
  obtain ⟨c, hc⟩ := sc.held_run times hstart.held
  have hstep := sc.step_syncNext hc now
  rw [h] at hstep
  exact hstep.not_nothingRecorded_of_cutting hnode hc hstop

end Scanner
end EvmBridge
