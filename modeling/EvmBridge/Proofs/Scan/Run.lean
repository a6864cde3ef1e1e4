import EvmBridge.Proofs.Scan.Step

/-! # Runs of a scanner

A run is a list of calls, each at a time of its own. What the node and the store do during a run
depends on the calls that they got before, so that they may change or fail between any two calls.
-/

namespace EvmBridge
set_option autoImplicit false

/-! ## What a ledger shows -/

namespace Ledger

/-- The persisted header rows, with what they read as. -/
def persisted (l : Ledger) : List (Bytes × Option Header) :=
  (l.store.rows.under headerTable).map fun row => (row.1, (Codec.header.decode row.2).toOption)

/-- Nothing is kept, and the slot is empty. -/
structure IsEmpty (l : Ledger) : Prop where
  headers : l.store.rows.under headerTable = []
  records : l.store.rows.under recordTable = []
  newest : l.newest = none

theorem IsEmpty.held {l : Ledger} (h : l.IsEmpty) : Contents.empty.HeldBy l.store.rows :=
  Contents.heldBy_empty h.headers h.records

theorem persisted_eq {l : Ledger} {c : Contents} (hc : c.HeldBy l.store.rows) :
    l.persisted = c.headers.entries.map fun e => (headerKey e.1, some e.2) := by
  rw [persisted, hc.under_headers, List.map_map]
  refine List.map_congr_left fun e _ => ?_
  simp only [Function.comp_apply, Codec.decode_header]
  rfl

theorem mem_persisted_iff {l : Ledger} {c : Contents} (hc : c.HeldBy l.store.rows)
    {row : Bytes × Option Header} :
    row ∈ l.persisted ↔ ∃ height h, c.headers.get? height = some h ∧
      row = (headerKey height, some h) := by
  rw [persisted_eq hc, List.mem_map]
  constructor
  · rintro ⟨e, he, rfl⟩
    exact ⟨e.1, e.2, (c.headers.get?_eq_some_iff e.1 e.2).2 he, rfl⟩
  · rintro ⟨height, h, hg, rfl⟩
    exact ⟨(height, h), (c.headers.get?_eq_some_iff height h).1 hg, rfl⟩

end Ledger

/-! ## Runs -/

namespace Scanner
variable (sc : Scanner)

/-- What calls at these times answer, and the state after them. -/
def run : (times : List UInt64) → ScanState → List (Except BridgeError ScanOutcome) × ScanState
  | [], s => ([], s)
  | now :: later, s =>
    let rest := run later ((sc.syncNext now).final s)
    ((sc.syncNext now).outcome s :: rest.1, rest.2)

theorem run_append (times later : List UInt64) (s : ScanState) :
    sc.run (times ++ later) s
      = ((sc.run times s).1 ++ (sc.run later (sc.run times s).2).1,
          (sc.run later (sc.run times s).2).2) := by
  induction times generalizing s with
  | nil => rfl
  | cons now times ih => simp only [List.cons_append, run, ih]

theorem run_snoc (times : List UInt64) (now : UInt64) (s : ScanState) :
    (sc.run (times ++ [now]) s).2 = (sc.syncNext now).final (sc.run times s).2 := by
  rw [run_append]
  rfl

/-- What every call keeps and answers, every run keeps and answers. -/
theorem run_keeps (keeps : Contents → ScanState → Prop)
    (answers : Except BridgeError ScanOutcome → Prop)
    (hstep : ∀ {now s c result s'}, c.HeldBy s.ledger.store.rows → keeps c s →
      sc.Step now s c result s' →
      answers result ∧ ∃ c', c'.HeldBy s'.ledger.store.rows ∧ keeps c' s')
    (times : List UInt64) {s : ScanState} {c : Contents} (hc : c.HeldBy s.ledger.store.rows)
    (hs : keeps c s) :
    (∀ result ∈ (sc.run times s).1, answers result) ∧
      ∃ c', c'.HeldBy (sc.run times s).2.ledger.store.rows ∧ keeps c' (sc.run times s).2 := by
  induction times generalizing s c with
  | nil => exact ⟨by simp [run], c, hc, hs⟩
  | cons now later ih =>
    obtain ⟨hanswer, c₁, hc₁, hs₁⟩ := hstep hc hs (sc.step_syncNext hc now)
    obtain ⟨hrest, hlast⟩ := ih hc₁ hs₁
    refine ⟨fun result hr => ?_, hlast⟩
    rcases List.mem_cons.1 hr with rfl | hr
    · exact hanswer
    · exact hrest result hr

theorem Step.held {now : UInt64} {s s' : ScanState} {c : Contents}
    {result : Except BridgeError ScanOutcome} (h : sc.Step now s c result s') :
    ∃ c' : Contents, c'.HeldBy s'.ledger.store.rows := by
  cases h with
  | stalled _ hl _ _ _ _ => exact ⟨_, hl.held⟩
  | upToDate _ hl _ => exact ⟨_, hl.held⟩
  | unread _ _ _ _ _ hl _ _ => exact ⟨_, hl.held⟩
  | rewound _ _ _ hl _ => exact ⟨_, hl.held⟩
  | uncut _ _ _ _ _ hl _ _ => exact ⟨_, hl.held⟩
  | advanced _ _ _ hl _ => exact ⟨_, hl.held⟩

/-- After every run, the rows are those of some contents. -/
theorem held_run (times : List UInt64) {s : ScanState} {c : Contents}
    (hc : c.HeldBy s.ledger.store.rows) :
    ∃ c' : Contents, c'.HeldBy (sc.run times s).2.ledger.store.rows := by
  obtain ⟨-, c', hc', -⟩ := sc.run_keeps (fun _ _ => True) (fun _ => True)
    (fun _ _ hstep => ⟨trivial, hstep.held.imp fun _ h => ⟨h, trivial⟩⟩) times hc trivial
  exact ⟨c', hc'⟩

end Scanner
end EvmBridge
