import EvmBridge.Bridge

/-! # Deposits

A deposit comes by one of three routes: the native coin sent to the contract without calldata, a
token sent to the contract by its own transfer, or a cross-out call of the contract.

* `DepositRoute`, `Bridge.depositRoute?`: the route of a transaction, from the transaction alone.
* `Bridge.nativeDeposit?`, `Bridge.tokenDeposit?`, `Bridge.nativeCrossOut?` and
  `Bridge.tokenCrossOut?`: the record by each route with a given receipt.
* `Bridge.parseDeposit`: the record of a transaction. A bound token also has to be registered as a
  minter, which the node is asked last.
-/

namespace EvmBridge
set_option autoImplicit false

/-- How a deposit is made. -/
inductive DepositRoute where
  /-- The native coin, sent to the contract. -/
  | native
  /-- A token, sent to the contract by the token's contract. -/
  | token (info : TokenInfo)
  /-- A cross-out call. -/
  | crossOut (args : Call.CrossOut)
  deriving DecidableEq

namespace Bridge

/-! ## Routes -/

/-- Whether a transaction only sends the native coin to the contract. -/
def sendsNative (b : Bridge) (tx : Transaction) : Bool :=
  b.targets tx && tx.value ≠ 0 && tx.input.isEmpty

/-- The arguments of a cross-out call, if it is made to the contract, late enough, and decodes. -/
def crossOutArguments? (b : Bridge) (tx : Transaction) : Option Call.CrossOut :=
  if b.targets tx ∧ b.config.crossOutActivationHeight ≤ tx.blockHeight.getD 0 then
    (Call.crossOut tx.input).toOption
  else none

/-- The route of a transaction. Calldata that selects the cross-out method goes by no other. -/
def depositRoute? (b : Bridge) (tx : Transaction) : Option DepositRoute :=
  match tx.recipient with
  | none => none
  | some recipient =>
    if b.config.signatures.methodOf? tx.input = some .crossOut then
      (b.crossOutArguments? tx).map .crossOut
    else if b.sendsNative tx then some .native
    else (b.tokens.lookup recipient).map .token

/-! ## The native coin, sent to the contract -/

/-- Whether some deposit event carries the transaction's sender and value. One that does not decode
ends the search. -/
def hasDepositEvent (b : Bridge) (tx : Transaction) : List Log → Bool
  | [] => false
  | log :: logs =>
    if log.topics.head? = some b.config.signatures.depositFunds then
      match b.event log with
      | .ok (.depositFunds sender amount) =>
        (sender = tx.sender && amount = tx.value) || hasDepositEvent b tx logs
      | .ok _ => hasDepositEvent b tx logs
      | .error _ => false
    else hasDepositEvent b tx logs

/-- The record of a native deposit. -/
def nativeDeposit? (b : Bridge) (tx : Transaction) (r : Receipt) : Option Record :=
  if r.status ∧ b.hasDepositEvent tx r.logs then
    some (Record.ofTransaction .deposit tx b.nativeAsset)
  else none

/-! ## A token, sent to the contract -/

/-- Sender and amount of a log, if it is a transfer of a token to the contract. -/
def incomingTransfer? (b : Bridge) (token : Address) (log : Log) : Option (Address × U256) :=
  match b.event log with
  | .ok (.transfer contract sender recipient amount) =>
    if contract = token ∧ recipient = b.config.bridgeContract then some (sender, amount) else none
  | _ => none

/-- The record of a token deposit: the first transfer of the token to the contract. -/
def tokenDeposit? (b : Bridge) (tx : Transaction) (info : TokenInfo) (r : Receipt) :
    Option Record :=
  if r.status then
    match r.logs.findSome? (b.incomingTransfer? info.contract) with
    | some (sender, amount) =>
      if amount = 0 then none
      else some { Record.ofTransaction .deposit tx (.ofToken info) with
        sender := sender
        recipient := b.config.bridgeContract
        value := amount }
    | none => none
  else none

/-! ## Cross-out calls -/

/-- The record of a native cross-out. The first log with the cross-out topic has to carry the
transaction's own sender and value, and the zero token. -/
def nativeCrossOut? (b : Bridge) (tx : Transaction) (r : Receipt) : Option Record :=
  match r.logs.find? (·.topics.head? = some b.config.signatures.crossOutFunds) with
  | none => none
  | some log =>
    match b.event log with
    | .ok (.crossOutFunds sender recipient amount token) =>
      if sender = tx.sender ∧ amount = tx.value ∧ token = .zero ∧ amount ≠ 0 then
        some { Record.ofTransaction .deposit tx b.nativeAsset with
          value := amount
          counterpart := some recipient }
      else none
    | _ => none

/-- What the logs of a token cross-out have shown so far. -/
structure CrossOutEvidence where
  transferSeen : Bool
  eventSeen : Bool
  deriving DecidableEq

/-- What the logs of a token cross-out show. Every transfer has to be of the named token and amount,
either from the sender to the contract or from the contract to the zero address, every cross-out
event has to repeat sender and arguments, and every log has to decode; else there is no evidence. -/
def crossOutEvidence? (b : Bridge) (tx : Transaction) (args : Call.CrossOut) :
    CrossOutEvidence → List Log → Option CrossOutEvidence
  | seen, [] => some seen
  | seen, log :: logs =>
    match b.event log with
    | .ok (.transfer contract sender recipient amount) =>
      if contract ≠ args.token then none
      else if recipient = .zero then
        if sender = b.config.bridgeContract ∧ amount = args.amount then
          crossOutEvidence? b tx args seen logs
        else none
      else if sender = tx.sender ∧ recipient = b.config.bridgeContract ∧ amount = args.amount then
        crossOutEvidence? b tx args { seen with transferSeen := true } logs
      else none
    | .ok (.crossOutFunds sender recipient amount token) =>
      if sender = tx.sender ∧ recipient = args.recipient ∧ amount = args.amount ∧
          token = args.token then
        crossOutEvidence? b tx args { seen with eventSeen := true } logs
      else none
    | .ok _ => crossOutEvidence? b tx args seen logs
    | .error _ => none

/-- The record of a token cross-out: calldata, transfer and event agree, and the amount is not
zero. -/
def tokenCrossOut? (b : Bridge) (tx : Transaction) (args : Call.CrossOut) (r : Receipt) :
    Option Record :=
  match b.tokens.lookup args.token with
  | none => none
  | some info =>
    if b.crossOutEvidence? tx args ⟨false, false⟩ r.logs = some ⟨true, true⟩ ∧ args.amount ≠ 0 then
      some { Record.ofTransaction .deposit tx (.ofToken info) with
        value := args.amount
        counterpart := some args.recipient }
    else none

/-- The record of a cross-out call with a receipt. -/
def crossOutRecord? (b : Bridge) (tx : Transaction) (args : Call.CrossOut) (r : Receipt) :
    Option Record :=
  if r.status ∧ ¬r.logs.isEmpty then
    if args.token = .zero then b.nativeCrossOut? tx r else b.tokenCrossOut? tx args r
  else none

/-! ## All routes -/

/-- The record of a transaction by a route with a receipt. -/
def depositRecord? (b : Bridge) (tx : Transaction) (route : DepositRoute) (r : Receipt) :
    Option Record :=
  match route with
  | .native => b.nativeDeposit? tx r
  | .token info => b.tokenDeposit? tx info r
  | .crossOut args => b.crossOutRecord? tx args r

/-- The token whose registration as a minter has to be asked for on a route. -/
def minterToCheck? (b : Bridge) : DepositRoute → Option Address
  | .token info => if b.tokens.isBound info.assetId then some info.contract else none
  | _ => none

/-- The record of a deposit; none if the transaction is not one, or is still pending. -/
def parseDeposit (b : Bridge) (tx : Transaction) (supplied : Option Receipt) :
    Action Exchanges (Option Record) := do
  match b.depositRoute? tx with
  | none => return none
  | some route =>
    let receipt ← b.receiptFor tx supplied
    match receipt.bind (b.depositRecord? tx route), b.minterToCheck? route with
    | some record, some token => return if ← b.isMinter token false then some record else none
    | record, _ => return record

end Bridge
end EvmBridge
