import EvmBridge.Bridge

/-! # What a log says of its emitter

Of all events only a transfer names the contract that emitted it. Any other event is read from a log
in the same way whichever contract the log is of (`Signatures.decodeEvent_emittedBy`).
-/

namespace EvmBridge
set_option autoImplicit false

/-- A log as another contract would have emitted it. -/
def Log.emittedBy (log : Log) (contract : Address) : Log := { log with address := contract }

/-- An event as another contract would have emitted it. Only a transfer says who emitted it. -/
def Event.emittedBy (contract : Address) : Event → Event
  | .transfer _ sender recipient amount => .transfer contract sender recipient amount
  | e => e

/-- Whether what is read from a log does not name the contract that emitted it. -/
def Event.Unnamed {ε : Type} (read : Except ε Event) : Prop :=
  ∀ contract, read.map (Event.emittedBy contract) = read

theorem Event.Unnamed.bind {ε α : Type} {x : Except ε α} {f : α → Except ε Event}
    (h : ∀ a, Unnamed (f a)) : Unnamed (x >>= f) := by
  intro contract
  cases x with
  | error e => rfl
  | ok a => exact h a contract

theorem Event.Unnamed.mapError {ε ε' : Type} {read : Except ε Event} (h : Unnamed read)
    (f : ε → ε') : Unnamed (read.mapError f) := by
  intro contract
  have h := h contract
  cases read with
  | error e => rfl
  | ok e => exact congrArg Except.ok (Except.ok.inj h)

namespace Log

theorem unnamed_transferFunds (log : Log) : Event.Unnamed log.transferFunds := by
  intro contract
  unfold transferFunds
  split <;> rfl

theorem unnamed_depositFunds (log : Log) : Event.Unnamed log.depositFunds :=
  .bind fun _ => .bind fun _ => .bind fun _ _ => rfl

theorem unnamed_crossOutFunds (log : Log) : Event.Unnamed log.crossOutFunds :=
  .bind fun _ => .bind fun _ => .bind fun _ => .bind fun _ => .bind fun _ _ => rfl

theorem unnamed_completed (log : Log) (kind : TxKind) : Event.Unnamed (log.completed kind) :=
  .bind fun _ => .bind fun _ _ => rfl

theorem transfer_emittedBy (log : Log) (contract : Address) :
    (log.emittedBy contract).transfer = log.transfer.map (Event.emittedBy contract) := by
  obtain ⟨address, topics, data⟩ := log
  unfold transfer emittedBy
  match topics with
  | [] | [_] | [_, _] => rfl
  | [_, _, _] =>
    dsimp only
    split <;> rfl
  | _ :: _ :: _ :: _ :: _ => rfl

end Log

/-- What a log says depends on its emitter only as far as a transfer names it. -/
theorem Signatures.decodeEvent_emittedBy (s : Signatures) (log : Log) (contract : Address) :
    s.decodeEvent (log.emittedBy contract)
      = (s.decodeEvent log).map (Event.emittedBy contract) := by
  unfold decodeEvent
  rw [show (log.emittedBy contract).topics = log.topics from rfl]
  cases log.topics.head? with
  | none => rfl
  | some topic =>
    dsimp only
    split
    · exact log.transfer_emittedBy contract
    split
    · exact (log.unnamed_transferFunds contract).symm
    split
    · exact (log.unnamed_depositFunds.mapError _ contract).symm
    split
    · exact (log.unnamed_crossOutFunds.mapError _ contract).symm
    split
    next kind _ => exact ((log.unnamed_completed kind).mapError _ contract).symm
    · rfl

namespace Bridge
variable {b : Bridge}

theorem event_emittedBy (log : Log) (contract : Address) :
    b.event (log.emittedBy contract) = (b.event log).map (Event.emittedBy contract) :=
  b.config.signatures.decodeEvent_emittedBy log contract

/-- A transfer names the contract that emitted it. -/
theorem address_of_transfer {log : Log} {contract sender recipient : Address} {amount : U256}
    (h : b.event log = .ok (.transfer contract sender recipient amount)) :
    log.address = contract := by
  have hsame := b.event_emittedBy log log.address
  rw [show log.emittedBy log.address = log from rfl, h] at hsame
  cases hsame
  rfl

end Bridge
end EvmBridge
