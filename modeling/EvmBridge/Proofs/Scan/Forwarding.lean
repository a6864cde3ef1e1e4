import EvmBridge.Proofs.Heights
import EvmBridge.Proofs.Scan.Run
import EvmBridge.Proofs.SteadyNode
import EvmBridge.Sample

/-! # Records are forwarded once and in order

Calls may fail at any point and are then made again. As the records of a block are forwarded right
after its header is kept, what the sink got is always what the blocks up to the newest header hold.
-/

namespace EvmBridge
set_option autoImplicit false
open EvmBridge.Action

/-! ## The records of a chain -/

/-- The blocks of these answers have the height that they are asked for, none the last one that there
is, and each names the one below it as its parent. -/
structure LinkedAnswers (answers : (c : NodeCall) → c.Answer) : Prop where
  own_height : ∀ height b, answers (.block height) = some b →
    b.height = height ∧ height.toNat + 1 < UInt64.size
  linked : ∀ height lower upper, answers (.block height) = some lower →
    answers (.block (height + 1)) = some upper → upper.parentHash = lower.hash

namespace Bridge

/-- The record of a transaction, as it is found when no request fails. -/
def accepted (b : Bridge) (answers : (c : NodeCall) → c.Answer) (tx : Transaction) :
    Option Record :=
  ((b.withNode (.ofAnswers answers)).analyze tx |>.outcome []).toOption.join

/-- The records of the block at a height, in the order of its transactions. -/
def recordsAt (b : Bridge) (answers : (c : NodeCall) → c.Answer) (height : UInt64) : List Record :=
  match answers (.block height) with
  | some block => block.transactions.filterMap (b.accepted answers)
  | none => []

end Bridge

/-- What was forwarded is what the blocks from the first height up to the newest header hold. -/
def ScanState.Forwarded (s : ScanState) (b : Bridge) (answers : (c : NodeCall) → c.Answer)
    (start : UInt64) : Prop :=
  match s.ledger.newest with
  | none => s.ledger.persisted = [] ∧ s.sink = some ⟨[], false⟩
  | some top => start ≤ top.height ∧
      (∀ height, start ≤ height → height ≤ top.height → (answers (.block height)).isSome) ∧
      s.sink = some ⟨(Height.up start (top.height.toNat + 1 - start.toNat)).flatMap
        (b.recordsAt answers), false⟩

namespace Scanner
variable {b : Bridge} {answers : (c : NodeCall) → c.Answer} {retention timeLimit start : UInt64}

theorem answers_eq (hnode : b.node.Steady answers) {height : UInt64} {answer : Option Block}
    (h : (ofBridge b retention timeLimit start).Answers height answer) :
    answer = answers (.block height) := by
  obtain ⟨past, h⟩ := h
  exact hnode past (.block height) timeLimit answer h

theorem accepted_eq (hnode : b.node.Steady answers) {tx : Transaction} {past : Exchanges} :
    Ends (b.analyze tx) past (fun found _ => b.accepted answers tx = found) fun _ _ => True := by
  refine (Bridge.follows_analyze hnode tx past).mono (fun found _ h => ?_) fun _ _ h => h
  have hsteady : ((b.withNode (.ofAnswers answers)).analyze tx).outcome [] = .ok found :=
    Ends.outcome (p := fun result _ => result = .ok found)
      ((h []).mono (fun _ _ he => congrArg _ he) fun _ _ he => he.elim)
  rw [Bridge.accepted, hsteady]
  rfl

/-- The analysis of a block finds its records, if it succeeds. -/
theorem found_eq (hnode : b.node.Steady answers) {block : Block} {found : List Record}
    (h : (ofBridge b retention timeLimit start).Finds block found) :
    found = block.transactions.filterMap (b.accepted answers) := by
  have hall : ∀ (txs : List Transaction) past,
      Ends ((ofBridge b retention timeLimit start).analyzeAll block.timestamp txs) past
        (fun found _ => found = txs.filterMap (b.accepted answers)) fun _ _ => True := by
    intro txs
    induction txs with
    | nil => exact fun past => rfl
    | cons tx txs ih =>
      intro past
      refine (accepted_eq hnode).bind (fun first past₁ hfirst => ?_) fun _ _ h => h
      refine (ih past₁).bind (fun rest past₂ hrest => ?_) fun _ _ h => h
      refine ends_pure.2 ?_
      rw [hrest, List.filterMap_cons, hfirst]
      cases first <;> rfl
  obtain ⟨past, past', h⟩ := h
  have hends := hall block.transactions past
  unfold Ends at hends
  rwa [h] at hends

end Scanner

/-! ## Calls and runs -/

/-- What contents and slot say was forwarded. -/
inductive Contents.Forwarded (b : Bridge) (answers : (c : NodeCall) → c.Answer) (start : UInt64)
    (c : Contents) : Option Header → Option Sink → Prop where
  | nothing : (∀ height, c.headers.get? height = none) →
      c.Forwarded b answers start none (some ⟨[], false⟩)
  | upTo {top : Header} {block : Block} : answers (.block top.height) = some block →
      top.hash = block.hash → start ≤ top.height →
      (∀ height, start ≤ height → height ≤ top.height → (answers (.block height)).isSome) →
      c.Forwarded b answers start (some top)
        (some ⟨(Height.up start (top.height.toNat + 1 - start.toNat)).flatMap (b.recordsAt answers),
          false⟩)

namespace Contents.Forwarded
variable {b : Bridge} {answers : (c : NodeCall) → c.Answer} {start : UInt64} {c c' : Contents}
  {slot : Option Header} {sink : Option Sink}

/-- The slot is empty only while there are no rows. -/
theorem latest_eq (h : c.Forwarded b answers start slot sink) : c.latest slot = slot := by
  cases h with
  | nothing hrows =>
    rw [Contents.latest, Table.last?_eq_none_iff.2 hrows]
    rfl
  | upTo _ _ _ _ => rfl

theorem of_headers_eq (h : c.Forwarded b answers start slot sink) (hc : c'.headers = c.headers) :
    c'.Forwarded b answers start slot sink := by
  cases h with
  | nothing hrows => exact .nothing (by rwa [hc])
  | upTo hblock hhash hle hserved => exact .upTo hblock hhash hle hserved

/-- A commit forwards the records of the next block. -/
theorem commit (h : c.Forwarded b answers start slot sink) (hchain : LinkedAnswers answers)
    {block : Block} (now : UInt64)
    (hblock : answers (.block ((slot.map (·.height + 1)).getD start)) = some block) :
    c'.Forwarded b answers start (some (block.header now))
      (sink.map (·.forward (block.transactions.filterMap (b.accepted answers)))) := by
  obtain ⟨hheight, hsize⟩ := hchain.own_height _ block hblock
  have hrecords : b.recordsAt answers (block.header now).height
      = block.transactions.filterMap (b.accepted answers) := by
    rw [Bridge.recordsAt, show (block.header now).height = _ from hheight, hblock]
  have hat : answers (.block (block.header now).height) = some block := by
    rwa [show (block.header now).height = _ from hheight]
  cases h with
  | nothing _ =>
    have hfirst : (block.header now).height = start := hheight
    have hone : (block.header now).height.toNat + 1 - start.toNat = 1 := by
      rw [hfirst]
      omega
    have hsent : (Height.up start ((block.header now).height.toNat + 1 - start.toNat)).flatMap
        (b.recordsAt answers) = block.transactions.filterMap (b.accepted answers) := by
      rw [hone, ← hrecords, hfirst]
      simp [Height.up]
    have hle : start ≤ (block.header now).height := UInt64.le_of_eq hfirst.symm
    have hup := upTo (b := b) (c := c') hat rfl hle fun height h h' => by
      rw [hfirst] at h'
      rw [UInt64.le_antisymm h' h, ← hfirst, hat]
      rfl
    rw [hsent] at hup
    exact hup
  | @upTo top below hbelow _ hle hserved =>
    have hnext : (block.header now).height = top.height + 1 := hheight
    have htop := (hchain.own_height _ below hbelow).2
    have hadd := Height.toNat_next htop
    have hle' : start ≤ top.height + 1 := by
      rw [UInt64.le_iff_toNat_le] at hle ⊢
      omega
    have hsent : (Height.up start ((block.header now).height.toNat + 1 - start.toNat)).flatMap
        (b.recordsAt answers)
          = (Height.up start (top.height.toNat + 1 - start.toNat)).flatMap (b.recordsAt answers)
            ++ block.transactions.filterMap (b.accepted answers) := by
      rw [hnext, Height.up_next hle htop, List.flatMap_append, ← hrecords, hnext]
      simp
    have hup := upTo (b := b) (c := c') hat rfl (hnext ▸ hle') fun height h h' => by
      by_cases hold : height ≤ top.height
      · exact hserved height h hold
      · rw [hnext] at h'
        have hlast : height = top.height + 1 := by
          refine UInt64.toNat_inj.1 ?_
          rw [UInt64.le_iff_toNat_le] at h' hold
          omega
        rw [hlast, ← hnext, hat]
        rfl
    rw [hsent] at hup
    exact hup

/-- What a state with such contents shows. -/
theorem state {s : ScanState} (h : c.Forwarded b answers start s.ledger.newest s.sink)
    (hc : c.HeldBy s.ledger.store.rows) : s.Forwarded b answers start := by
  unfold ScanState.Forwarded
  generalize s.ledger.newest = slot at h
  generalize s.sink = sink at h
  cases h with
  | nothing hrows =>
    refine ⟨List.eq_nil_iff_forall_not_mem.2 fun row hrow => ?_, rfl⟩
    obtain ⟨height, h, hg, -⟩ := (Ledger.mem_persisted_iff hc).1 hrow
    rw [hrows] at hg
    cases hg
  | upTo _ _ hle hserved => exact ⟨hle, hserved, rfl⟩

end Contents.Forwarded

namespace Scanner
variable {b : Bridge} {answers : (c : NodeCall) → c.Answer} {retention timeLimit start : UInt64}

theorem Step.forwarded (hnode : b.node.Steady answers) (hchain : LinkedAnswers answers)
    {now : UInt64} {s s' : ScanState} {c : Contents} {result : Except BridgeError ScanOutcome}
    (hs : c.Forwarded b answers start s.ledger.newest s.sink)
    (h : (ofBridge b retention timeLimit start).Step now s c result s') :
    (∀ height, result ≠ .ok (.rewound height)) ∧
      ∃ c' : Contents, c'.HeldBy s'.ledger.store.rows ∧
        c'.Forwarded b answers start s'.ledger.newest s'.sink := by
  have hlatest : s.latest c = s.ledger.newest := hs.latest_eq
  have hnext : (ofBridge b retention timeLimit start).nextHeight (s.latest c)
      = (s.ledger.newest.map (·.height + 1)).getD start := by
    rw [hlatest]
    cases s.ledger.newest <;> rfl
  -- The next block always follows the newest header.
  have hlinked : ∀ block previous,
      answers (.block ((s.ledger.newest.map (·.height + 1)).getD start)) = some block →
      s.ledger.newest = some previous → previous.hash = block.parentHash := by
    intro block previous hblock hprevious
    rw [hprevious] at hs hblock
    generalize s.sink = sink at hs
    cases hs with
    | upTo hbelow hhash _ _ => exact hhash.trans (hchain.linked _ _ _ hbelow hblock).symm
  cases h with
  | stalled _ hl hsink _ hheaders hslot =>
    refine ⟨fun height => by rintro ⟨⟩, _, hl.held, ?_⟩
    rw [hlatest, or_self] at hslot
    rw [hl.newest, hsink, hslot]
    exact hs.of_headers_eq hheaders
  | upToDate _ hl hsink =>
    refine ⟨fun height => by rintro ⟨⟩, _, hl.held, ?_⟩
    rw [hl.newest, hsink, hlatest]
    exact hs
  | unread _ hb hprevious hne _ _ _ _ =>
    have hb := answers_eq hnode hb
    rw [hnext] at hb
    rw [hlatest] at hprevious
    exact absurd (hlinked _ _ hb.symm hprevious) hne
  | rewound hb hprevious hne _ _ =>
    have hb := answers_eq hnode hb
    rw [hnext] at hb
    rw [hlatest] at hprevious
    exact absurd (hlinked _ _ hb.symm hprevious) hne
  | uncut _ hb _ hfound _ hl hsink _ =>
    refine ⟨fun height => by rintro ⟨⟩, _, hl.held, ?_⟩
    have hb := answers_eq hnode hb
    rw [hnext] at hb
    rw [hl.newest, hsink, found_eq hnode hfound]
    exact hs.commit hchain now hb.symm
  | advanced hb _ hfound hl hsink =>
    refine ⟨fun height => by rintro ⟨⟩, _, hl.held, ?_⟩
    have hb := answers_eq hnode hb
    rw [hnext] at hb
    rw [hl.newest, hsink, found_eq hnode hfound]
    exact hs.commit hchain now hb.symm

/-- After every run from an empty ledger, each record of each block up to the newest header has been
forwarded once, in order, and no header was dropped. -/
theorem forwarded_run (b : Bridge) (answers : (c : NodeCall) → c.Answer)
    (hnode : b.node.Steady answers) (hchain : LinkedAnswers answers)
    (retention timeLimit start : UInt64) {s : ScanState} (hs : s.ledger.IsEmpty)
    (hsink : s.sink = some ⟨[], false⟩) (times : List UInt64) :
    (∀ result ∈ ((ofBridge b retention timeLimit start).run times s).1,
      ∀ height, result ≠ .ok (.rewound height)) ∧
    ((ofBridge b retention timeLimit start).run times s).2.Forwarded b answers start := by
  have hstart : Contents.empty.Forwarded b answers start s.ledger.newest s.sink := by
    rw [hs.newest, hsink]
    exact .nothing fun _ => rfl
  obtain ⟨hresults, c, hc, hlast⟩ := run_keeps _
    (fun c s => c.Forwarded b answers start s.ledger.newest s.sink)
    (fun result => ∀ height, result ≠ .ok (.rewound height))
    (fun _ hs hstep => hstep.forwarded hnode hchain hs) times hs.held hstart
  exact ⟨hresults, hlast.state hc⟩

end Scanner

namespace Sample

/-- The block at a height, with two deposits and a payment to somebody else between them. -/
def paymentBlock (height : UInt64) : Block :=
  { forkBlock 0 1 height with
    transactions := [payment height bridgeContract 5, payment height user 7,
      payment height bridgeContract 6] }

/-- The answers of a node with these blocks up to a tip, and one receipt for all transactions. -/
def paymentAnswers (tip : UInt64) : (call : NodeCall) → call.Answer
  | .receipt hash => some (receipt hash [.ofDepositFunds plainSignatures bridgeContract user 5,
      .ofDepositFunds plainSignatures bridgeContract user 6])
  | call => chainAnswers paymentBlock tip call

theorem steady_flakyNode (answers : (call : NodeCall) → call.Answer) (fails : Exchanges → Bool) :
    (flakyNode answers fails).Steady answers := by
  intro past call limit a h
  unfold flakyNode at h
  dsimp only at h
  split at h
  · cases h
  · exact (Reply.answer.inj h).symm

theorem linkedAnswers_paymentAnswers {tip : UInt64} (htip : tip.toNat + 1 < UInt64.size) :
    LinkedAnswers (paymentAnswers tip) where
  own_height _ _ h := height_of_chainAnswers (fun _ => rfl) htip h
  linked height lower upper hlower hupper := by
    obtain ⟨-, hlower⟩ := Option.ite_none_right_eq_some.1 hlower
    obtain ⟨-, hupper⟩ := Option.ite_none_right_eq_some.1 hupper
    cases hlower
    cases hupper
    exact congrArg (forkHash 0 1) (Height.previous_next height)

end Sample

/-- Blocks up to height 6 with two deposits each. The node fails once while the block at height 4 is
analysed, the store once when its header is to be kept, and once when the header at height 3 is to be
cut off, after the deposits at height 5 were forwarded. Each deposit is forwarded once all the same. -/
theorem Scanner.forwarded_run_failing_calls :
    let b := { Sample.plainBridge Sample.emptyChain with
      node := Sample.flakyNode (Sample.paymentAnswers 6) fun past => past.length = 4 }
    let plan := Sample.failingOnce fun call =>
      call = .put (Ledger.headerKey 4) || call = .batch
    let sc := ofBridge b 1 1000 3
    let start := Sample.scanState plan
    let s := (sc.run [1, 2, 3, 4, 5, 6, 7] start).2
    (sc.run [1, 2, 3, 4, 5, 6, 7] start).1.map Except.toOption = [some (.advanced 3), none, none,
        some (.advanced 4), none, some (.advanced 6), some .upToDate] ∧
      ((∀ result ∈ (sc.run [1, 2, 3, 4, 5, 6, 7] start).1,
          ∀ height, result ≠ .ok (.rewound height)) ∧
        s.Forwarded b (Sample.paymentAnswers 6) 3) ∧
      s.ledger.newest.map (·.height) = some 6 ∧
      s.sink = some ⟨[Sample.deposited 3 5, Sample.deposited 3 6, Sample.deposited 4 5,
        Sample.deposited 4 6, Sample.deposited 5 5, Sample.deposited 5 6, Sample.deposited 6 5,
        Sample.deposited 6 6], false⟩ := by
  intro b plan sc start s
  refine ⟨by decide +kernel, ?_, by decide +kernel, by decide +kernel⟩
  exact forwarded_run b (Sample.paymentAnswers 6) (Sample.steady_flakyNode _ _)
    (Sample.linkedAnswers_paymentAnswers (by decide)) 1 1000 3 ⟨rfl, rfl, rfl⟩ rfl
    [1, 2, 3, 4, 5, 6, 7]

end EvmBridge
