import EvmBridge.Proofs.Ledger.Operations
import EvmBridge.Scanner

/-! # What one call of a scanner can do

`Scanner.Step` lists all that `Scanner.syncNext` can do on a state whose rows hold given contents,
against a store and a node that may fail at any request; `Scanner.step_syncNext` says that the list
is complete. What a run keeps is proved from it, one case for each constructor. `Scanner.Turn` is the
shorter list for a store that does not fail, with all that was served and found (`Scanner.ends_syncNext`).
-/

namespace EvmBridge
set_option autoImplicit false
open EvmBridge.Action

/-- Where a failed call stopped. -/
inductive Stop where
  /-- Before any header row or the sink was touched. -/
  | early
  /-- Behind the removal of the newest header, at the reading of the one below it. -/
  | reading
  /-- Behind the commit of a block, while cutting off old blocks. -/
  | cutting
  deriving DecidableEq

/-- Where a failed call stopped, from the store calls that it made, the last one first. -/
def Stop.of : List StoreCall → Stop
  | .get _ :: _ => .reading
  | .batch :: _ => .cutting
  | .scan _ :: _ :: _ => .cutting
  | _ => .early

theorem Stop.of_early (made : List StoreCall) (slot : Option Header)
    (h : ∀ call ∈ made.head?, ∃ key, call = .put key) :
    Stop.of (made ++ Ledger.latestCalls slot) = .early := by
  cases made with
  | nil => cases slot <;> rfl
  | cons call made =>
    obtain ⟨key, rfl⟩ := h call rfl
    rfl

theorem Stop.of_cutting {cut : List StoreCall} (h : Ledger.CutCalls cut) (key : Bytes)
    (made : List StoreCall) : Stop.of (cut ++ .put key :: made) = .cutting := by
  cases h <;> rfl

/-- The header that is kept of a block. -/
def Block.header (b : Block) (observedAt : UInt64) : Header :=
  ⟨b.hash, b.parentHash, b.height, observedAt⟩

/-- The newest header of a state whose rows hold `c`. -/
def ScanState.latest (s : ScanState) (c : Contents) : Option Header := c.latest s.ledger.newest

namespace Scanner
variable (sc : Scanner)

/-- Whether the node can answer the request for the block at a height in this way. -/
def Answers (height : UInt64) (answer : Option Block) : Prop :=
  ∃ past, sc.node.respond past (.block height) sc.timeLimit = .answer answer

/-- Whether the analysis of a block can find these records. -/
def Finds (b : Block) (found : List Record) : Prop :=
  ∃ past past', sc.analyzeAll b.timestamp b.transactions past = .ok found past'

/-- Whether the request for some block, or the analysis of some transaction, can fail. -/
def MayFail : Prop :=
  (∃ past h, ∀ a, sc.node.respond past (.block h) sc.timeLimit ≠ .answer a) ∨
    ∃ tx timestamp past e past', sc.analyze tx timestamp past = .error e past'

/-- What is left of contents when a block at a height has been scanned. -/
def kept (height : UInt64) (c : Contents) : Contents :=
  if sc.retention ≤ height then c.cutOff (height - sc.retention) else c

/-- All that a call can do, on the state `s` with the contents `c`. -/
inductive Step (now : UInt64) (s : ScanState) (c : Contents) :
    Except BridgeError ScanOutcome → ScanState → Prop
  /-- It fails before it has touched a header or the sink. -/
  | stalled {e : BridgeError} {s' : ScanState} {c' : Contents} {made : List StoreCall}
      {slot : Option Header} :
      s.ledger.store.MayFail ∨ sc.MayFail →
      s.ledger.Leaves s'.ledger made c' slot → s'.sink = s.sink → Stop.of made = .early →
      c'.headers = c.headers → slot = s.ledger.newest ∨ slot = s.latest c →
      Step now s c (.error e) s'
  /-- There is no next block. -/
  | upToDate {s' : ScanState} {made : List StoreCall} :
      sc.Answers (sc.nextHeight (s.latest c)) none →
      s.ledger.Leaves s'.ledger made c (s.latest c) → s'.sink = s.sink →
      Step now s c (.ok .upToDate) s'
  /-- It drops the newest header, but fails to read the one below. -/
  | unread {e : BridgeError} {s' : ScanState} {made : List StoreCall} {b : Block}
      {previous : Header} :
      s.ledger.store.MayFail →
      sc.Answers (sc.nextHeight (s.latest c)) (some b) →
      s.latest c = some previous → previous.hash ≠ b.parentHash → previous.height ≠ 0 →
      s.ledger.Leaves s'.ledger made (c.dropHeader previous.height) (some previous) →
      s'.sink = s.sink → Stop.of made = .reading →
      Step now s c (.error e) s'
  /-- It drops the newest header. -/
  | rewound {s' : ScanState} {made : List StoreCall} {b : Block} {previous : Header} :
      sc.Answers (sc.nextHeight (s.latest c)) (some b) →
      s.latest c = some previous → previous.hash ≠ b.parentHash →
      s.ledger.Leaves s'.ledger made (c.dropHeader previous.height) (c.below? previous.height) →
      s'.sink = s.sink →
      Step now s c (.ok (.rewound previous.height)) s'
  /-- It commits the next block, but fails to cut off old blocks. -/
  | uncut {e : BridgeError} {s' : ScanState} {made : List StoreCall} {b : Block}
      {found : List Record} :
      s.ledger.store.MayFail →
      sc.Answers (sc.nextHeight (s.latest c)) (some b) →
      (∀ previous ∈ s.latest c, previous.hash = b.parentHash) → sc.Finds b found →
      sc.retention ≤ b.height →
      s.ledger.Leaves s'.ledger made ((c.addRecords found).addHeader (b.header now))
        (some (b.header now)) →
      s'.sink = s.sink.map (·.forward found) → Stop.of made = .cutting →
      Step now s c (.error e) s'
  /-- It commits the next block and cuts off old blocks. -/
  | advanced {s' : ScanState} {made : List StoreCall} {b : Block} {found : List Record} :
      sc.Answers (sc.nextHeight (s.latest c)) (some b) →
      (∀ previous ∈ s.latest c, previous.hash = b.parentHash) → sc.Finds b found →
      s.ledger.Leaves s'.ledger made
        (sc.kept b.height ((c.addRecords found).addHeader (b.header now))) (some (b.header now)) →
      s'.sink = s.sink.map (·.forward found) →
      Step now s c (.ok (.advanced (sc.nextHeight (s.latest c)))) s'

/-! ## Its parts -/

theorem ends_ask (past : Exchanges) (height : UInt64) :
    Ends (sc.node.ask sc.timeLimit (.block height)) past
      (fun answer asked => sc.node.respond past (.block height) sc.timeLimit = .answer answer ∧
        asked = ⟨.block height, true⟩ :: past)
      fun _ _ => sc.MayFail := by
  unfold Ends Node.ask
  cases hr : sc.node.respond past (.block height) sc.timeLimit with
  | answer a => exact ⟨rfl, rfl⟩
  | failed e => exact .inl ⟨past, height, fun a ha => by rw [hr] at ha; cases ha⟩
  | late => exact .inl ⟨past, height, fun a ha => by rw [hr] at ha; cases ha⟩

/-- What holds of the record of each transaction holds of all records. -/
theorem ends_analyzeAll {p : Record → Prop} (timestamp : UInt64) {txs : List Transaction}
    (hp : ∀ tx ∈ txs, ∀ past, Ends (sc.analyze tx timestamp) past
      (fun found _ => ∀ r ∈ found, p r) fun _ _ => True) (past : Exchanges) :
    Ends (sc.analyzeAll timestamp txs) past (fun found _ => ∀ r ∈ found, p r)
      fun _ _ => sc.MayFail := by
  induction txs generalizing past with
  | nil => exact ends_pure.2 (by simp)
  | cons tx txs ih =>
    rw [List.forall_mem_cons] at hp
    refine (hp.1 past).with_eq.bind (fun found past₁ h => ?_)
      fun e past₁ h => .inr ⟨tx, timestamp, past, e, past₁, h.2⟩
    refine (ih hp.2 past₁).bind (fun rest past₂ hrest => ?_) fun _ _ h => h
    refine ends_pure.2 fun r hr => ?_
    rcases List.mem_append.1 hr with hr | hr
    · exact h.1 r (Option.mem_toList.1 hr)
    · exact hrest r hr

theorem ends_cacheAll {l : Ledger} {c : Contents} (hc : c.HeldBy l.store.rows) (rs : List Record)
    (hrs : ∀ r ∈ rs, r.Fits) :
    Ends (cacheAll rs) l
      (fun _ l' => ∃ made, l.Leaves l' made (c.addRecords rs) l.newest)
      (fun _ l' => l.store.MayFail ∧ ∃ key made c', c'.headers = c.headers ∧
        l.Leaves l' (.put key :: made) c' l.newest) := by
  induction rs generalizing l c with
  | nil => exact ends_pure.2 ⟨[], rfl, rfl, hc, rfl⟩
  | cons r rs ih =>
    have hr := hrs r (List.mem_cons_self ..)
    refine (Ledger.ends_cacheRecord hc hr).bind (fun _ l₁ h₁ => ?_) fun _ l₁ h => ?_
    · refine (ih h₁.held fun r' h => hrs r' (List.mem_cons_of_mem _ h)).mono ?_ ?_
      · rintro _ l₂ ⟨made, h₂⟩
        rw [h₁.newest] at h₂
        exact ⟨_, h₁.trans h₂⟩
      · rintro _ l₂ ⟨hf, key, made, c', hh, h₂⟩
        rw [h₁.newest] at h₂
        exact ⟨h₁.mayFail hf, key, made ++ _, c', hh, h₁.trans h₂⟩
    · exact ⟨h.1, _, [], c, rfl, h.2⟩

theorem ends_forward {s : ScanState} {rs : List Record} {ok : Unit → ScanState → Prop}
    {err : BridgeError → ScanState → Prop} :
    Ends (ScanState.forward rs) s ok err ↔ ok () { s with sink := s.sink.map (·.forward rs) } :=
  Iff.rfl

theorem ends_analyzeBlock {s : ScanState} {c : Contents} (hc : c.HeldBy s.ledger.store.rows)
    (now : UInt64) (b : Block) :
    Ends (sc.analyzeBlock now b) s
      (fun _ s' => ∃ found asked made,
        sc.analyzeAll b.timestamp b.transactions s.exchanges = .ok found asked ∧
        s.ledger.Leaves s'.ledger made
          (sc.kept b.height ((c.addRecords found).addHeader (b.header now)))
          (some (b.header now)) ∧
        s'.sink = s.sink.map (·.forward found))
      (fun _ s' =>
        (∃ made c', (s.ledger.store.MayFail ∨ sc.MayFail ∧ c' = c) ∧
          (∀ call ∈ made.head?, ∃ key, call = .put key) ∧ c'.headers = c.headers ∧
          s.ledger.Leaves s'.ledger made c' s.ledger.newest ∧ s'.sink = s.sink) ∨
        ∃ found cut key made, s.ledger.store.MayFail ∧ sc.Finds b found ∧
          sc.retention ≤ b.height ∧ Ledger.CutCalls cut ∧
          s.ledger.Leaves s'.ledger (cut ++ .put key :: made)
            ((c.addRecords found).addHeader (b.header now)) (some (b.header now)) ∧
          s'.sink = s.sink.map (·.forward found)) := by
  have hanalyze := sc.ends_analyzeAll b.timestamp
    (fun tx (_ : tx ∈ b.transactions) past => sc.fits_analyze tx b.timestamp past) s.exchanges
  refine (ends_within.2 (hanalyze.with_eq.mono (fun found past h => ?_) fun e past h => ?_)).bind (fun _ _ h => h) fun _ _ h => h
  · obtain ⟨hfits, hfound⟩ := h
    refine ends_bind.2 (ends_within.2 ((ends_cacheAll hc found hfits).mono
      (fun _ l₁ h => ?_) fun e l₁ h => ?_))
    · obtain ⟨made₁, h₁⟩ := h
      refine ends_bind.2 (ends_within.2 ((Ledger.ends_record h₁.held _).mono
        (fun _ l₂ h => ?_) fun e l₂ h => ?_))
      · have h₂ := (h₁.trans h : s.ledger.Leaves l₂ _ ((c.addRecords found).addHeader (b.header now))
          (some (b.header now)))
        refine ends_bind.2 (ends_forward.2 ?_)
        by_cases hr : sc.retention ≤ b.height
        · rw [if_pos hr]
          refine ends_bind.2 (ends_within.2
            ((Ledger.ends_prune h₂.held (b.height - sc.retention)).mono
              (fun _ l₃ h => ?_) fun e l₃ h => ?_))
          · obtain ⟨-, made₃, h₃⟩ := h
            rw [h₂.newest] at h₃
            have hkept : sc.kept b.height ((c.addRecords found).addHeader (b.header now))
                = ((c.addRecords found).addHeader (b.header now)).cutOff (b.height - sc.retention) :=
              if_pos hr
            have h₄ := h₂.trans h₃
            rw [← hkept] at h₄
            exact ends_pure.2 ⟨found, _, _, hfound, h₄, rfl⟩
          · obtain ⟨hf, cut, hcut, h₃⟩ := h
            rw [h₂.newest] at h₃
            exact .inr ⟨found, cut, _, made₁, h₂.mayFail hf, ⟨_, _, hfound⟩, hr, hcut, h₂.trans h₃,
              rfl⟩
        · rw [if_neg hr]
          have hkept : sc.kept b.height ((c.addRecords found).addHeader (b.header now))
              = (c.addRecords found).addHeader (b.header now) := if_neg hr
          rw [← hkept] at h₂
          exact ends_bind.2 (ends_pure.2 (ends_pure.2 ⟨found, _, _, hfound, h₂, rfl⟩))
      · have h₂ := h₁.trans h.2
        rw [h₁.newest] at h₂
        exact .inl ⟨_, _, .inl (h₁.mayFail h.1), by rintro _ ⟨⟩; exact ⟨_, rfl⟩,
          c.headers_addRecords found, h₂, rfl⟩
    · obtain ⟨hf, key, made, c', hh, h₁⟩ := h
      exact .inl ⟨_, c', .inl hf, by rintro _ ⟨⟩; exact ⟨key, rfl⟩, hh, h₁, rfl⟩
  · exact .inl ⟨[], c, .inr ⟨h.1, rfl⟩, by rintro _ ⟨⟩, rfl, ⟨rfl, rfl, hc, rfl⟩, rfl⟩

/-! ## The whole call -/

theorem hash_eq_of_filter_eq_none {newest : Option Header} {parent : Hash}
    (h : newest.filter (·.hash ≠ parent) = none) : ∀ previous ∈ newest, previous.hash = parent := by
  intro previous hp
  by_contra hne
  exact Option.filter_eq_none_iff.1 h previous hp (decide_eq_true hne)

/-- What a call does is in the list. -/
theorem step_syncNext {s : ScanState} {c : Contents} (hc : c.HeldBy s.ledger.store.rows)
    (now : UInt64) :
    sc.Step now s c ((sc.syncNext now).outcome s) ((sc.syncNext now).final s) := by
  refine Ends.outcome (p := sc.Step now s c) ?_
  refine (ends_within.2 ((Ledger.ends_latest hc).mono (fun newest l₁ h => ?_)
    fun e l₁ h => ?_)).bind (fun _ _ h => h) fun _ _ h => h
  · obtain ⟨rfl, h₁⟩ := h
    refine ends_bind.2 (ends_within.2 ((sc.ends_ask s.exchanges _).mono
      (fun answer past hask => ?_) fun e past hask => ?_))
    · replace hask : sc.Answers (sc.nextHeight (s.latest c)) answer := ⟨_, hask.1⟩
      cases answer with
      | none => exact ends_pure.2 (.upToDate hask h₁ rfl)
      | some b =>
        cases hf : (s.latest c).filter (·.hash ≠ b.parentHash) with
        | some previous =>
          obtain ⟨hlatest, hne⟩ := Option.filter_eq_some_iff.1 hf
          have hne : previous.hash ≠ b.parentHash := of_decide_eq_true hne
          have hmatch : (c.latest s.ledger.newest).filter (·.hash ≠ b.parentHash) = some previous := hf
          simp only [hmatch]
          refine ends_bind.2 (ends_within.2 ((Ledger.ends_rewind h₁.held previous.height).mono
            (fun _ l₂ h => ?_) fun e l₂ h => ?_))
          · obtain ⟨-, made, h₂⟩ := h
            exact ends_pure.2 (.rewound hask hlatest hne (h₁.trans h₂) rfl)
          · obtain ⟨hf, h₂ | ⟨h0, h₂⟩⟩ := h
            · rw [h₁.newest] at h₂
              exact .stalled (.inl (h₁.mayFail hf)) (h₁.trans h₂) rfl rfl rfl (.inr rfl)
            · rw [h₁.newest.trans hlatest] at h₂
              exact .unread (h₁.mayFail hf) hask hlatest hne h0 (h₁.trans h₂) rfl rfl
        | none =>
          have hmatch : (c.latest s.ledger.newest).filter (·.hash ≠ b.parentHash) = none := hf
          simp only [hmatch]
          have hlinked : ∀ previous ∈ s.latest c, previous.hash = b.parentHash :=
            hash_eq_of_filter_eq_none hf
          refine ((sc.ends_analyzeBlock h₁.held now b).mono
            (fun _ s₂ h => ?_) fun e s₂ h => ?_).bind (fun _ _ h => h) fun _ _ h => h
          · obtain ⟨found, _, made, hfound, h₂, hsink⟩ := h
            exact ends_pure.2 (.advanced hask hlinked ⟨_, _, hfound⟩ (h₁.trans h₂) hsink)
          · obtain ⟨made, c', hf, hmade, hh, h₂, hsink⟩ |
              ⟨found, cut, key, made, hf, hfound, hr, hcut, h₂, hsink⟩ := h
            · rw [h₁.newest] at h₂
              exact .stalled (hf.imp h₁.mayFail And.left) (h₁.trans h₂) hsink
                (Stop.of_early _ _ hmade) hh (.inr rfl)
            · have h₃ := h₁.trans h₂
              rw [List.append_assoc, List.cons_append] at h₃
              exact .uncut (h₁.mayFail hf) hask hlinked hfound hr h₃ hsink
                (Stop.of_cutting hcut _ _)
    · exact .stalled (.inr hask) h₁ rfl (Stop.of_early [] _ (by rintro _ ⟨⟩)) rfl (.inr rfl)
  · exact .stalled (.inl h.1) h.2 rfl (Stop.of_early [] _ (by rintro _ ⟨⟩)) rfl (.inl rfl)

/-- What becomes of contents in a call during which the store does not fail. -/
inductive Turn (now : UInt64) (s : ScanState) (c : Contents) :
    Except BridgeError ScanOutcome → ScanState → Contents → Prop
  /-- There is no next block, or the node or the analysis fails. -/
  | unchanged {result : Except BridgeError ScanOutcome} {s' : ScanState} {made : List StoreCall} :
      (∀ outcome, result = .ok outcome → outcome = .upToDate) →
      s.ledger.Leaves s'.ledger made c (s.latest c) → Turn now s c result s' c
  | rewound {s' : ScanState} {made : List StoreCall} {previous : Header} :
      s.latest c = some previous →
      s.ledger.Leaves s'.ledger made (c.dropHeader previous.height) (c.below? previous.height) →
      Turn now s c (.ok (.rewound previous.height)) s' (c.dropHeader previous.height)
  /-- The node serves the next block, and these records are found in it. -/
  | advanced {s' : ScanState} {asked : Exchanges} {made : List StoreCall} {b : Block}
      {found : List Record} :
      sc.node.respond s.exchanges (.block (sc.nextHeight (s.latest c))) sc.timeLimit
        = .answer (some b) →
      (∀ previous ∈ s.latest c, previous.hash = b.parentHash) →
      sc.analyzeAll b.timestamp b.transactions
        (⟨.block (sc.nextHeight (s.latest c)), true⟩ :: s.exchanges) = .ok found asked →
      s.ledger.Leaves s'.ledger made
        (sc.kept b.height ((c.addRecords found).addHeader (b.header now))) (some (b.header now)) →
      Turn now s c (.ok (.advanced (sc.nextHeight (s.latest c)))) s'
        (sc.kept b.height ((c.addRecords found).addHeader (b.header now)))

/-- A call that answers, or on a store that does not fail, is one of these. -/
theorem ends_syncNext {s : ScanState} {c : Contents} (hc : c.HeldBy s.ledger.store.rows)
    (now : UInt64) :
    Ends (sc.syncNext now) s
      (fun outcome s' => ∃ c', sc.Turn now s c (.ok outcome) s' c')
      fun e s' => s.ledger.store.MayFail ∨ sc.Turn now s c (.error e) s' c := by
  refine (ends_within.2 ((Ledger.ends_latest hc).mono (fun newest l₁ h => ?_)
    fun _ _ h => .inl h.1)).bind (fun _ _ h => h) fun _ _ h => h
  obtain ⟨rfl, h₁⟩ := h
  refine ends_bind.2 (ends_within.2 ((sc.ends_ask s.exchanges _).mono (fun answer asked h => ?_)
    fun _ _ _ => .inr (.unchanged nofun h₁)))
  obtain ⟨hserved, rfl⟩ := h
  cases answer with
  | none => exact ends_pure.2 ⟨c, .unchanged (fun _ h => (Except.ok.inj h).symm) h₁⟩
  | some b =>
    dsimp only
    split
    next previous hmatch =>
      refine ends_bind.2 (ends_within.2 ((Ledger.ends_rewind h₁.held previous.height).mono
        (fun _ l₂ h => ?_) fun _ _ h => .inl (h₁.mayFail h.1)))
      obtain ⟨-, made, h₂⟩ := h
      exact ends_pure.2 ⟨_, .rewound (Option.filter_eq_some_iff.1 hmatch).1 (h₁.trans h₂)⟩
    next hmatch =>
      have hlinked : ∀ previous ∈ s.latest c, previous.hash = b.parentHash :=
        hash_eq_of_filter_eq_none hmatch
      refine (sc.ends_analyzeBlock h₁.held now b).bind (fun _ s₂ h => ends_pure.2 ?_)
        fun _ s₂ h => ?_
      · obtain ⟨found, asked, made, hfound, h₂, -⟩ := h
        exact ⟨_, .advanced hserved hlinked hfound (h₁.trans h₂)⟩
      · obtain ⟨made, _, hf | ⟨-, rfl⟩, -, -, h₂, -⟩ | ⟨_, _, _, _, hf, -⟩ := h
        · exact .inl (h₁.mayFail hf)
        · rw [h₁.newest] at h₂
          exact .inr (.unchanged nofun (h₁.trans h₂))
        · exact .inl (h₁.mayFail hf)

/-- What a call that advances was served, found and left behind. -/
theorem ends_syncNext_advanced {s : ScanState} {c : Contents} (hc : c.HeldBy s.ledger.store.rows)
    (now : UInt64) :
    Ends (sc.syncNext now) s
      (fun result s' => ∀ height, result = .advanced height → ∃ b found asked made,
        sc.node.respond s.exchanges (.block height) sc.timeLimit = .answer (some b) ∧
        sc.analyzeAll b.timestamp b.transactions (⟨.block height, true⟩ :: s.exchanges)
          = .ok found asked ∧
        s.ledger.Leaves s'.ledger made
          (sc.kept b.height ((c.addRecords found).addHeader (b.header now))) (some (b.header now)))
      fun _ _ => True := by
  refine (sc.ends_syncNext hc now).mono (fun outcome s' h => ?_) fun _ _ _ => trivial
  rintro height rfl
  obtain ⟨c', h⟩ := h
  cases h with
  | unchanged hresult _ => cases hresult _ rfl
  | advanced hserved _ hfound hl => exact ⟨_, _, _, _, hserved, hfound, hl⟩

end Scanner
end EvmBridge
