import EvmBridge.Bridge

/-! # Withdrawals

A withdrawal is a call of the contract's withdraw method that was carried out and paid something
out. The first log that pays out, or that does not decode, decides.

* `Bridge.payout?`: what the logs pay out.
* `Bridge.withdrawalHash?`: what a transaction has to be before its receipt is looked at.
* `Bridge.withdrawalRecord?`: the record of such a transaction with a given receipt.
* `Bridge.parseWithdrawal`: the record of a transaction, asking for the receipt if necessary.
-/

namespace EvmBridge
set_option autoImplicit false

/-- What a withdrawal pays out. -/
structure Payout where
  recipient : Address
  amount : U256
  asset : Asset
  deriving DecidableEq

namespace Bridge

/-- A payout, unless it is of nothing. -/
def nonZeroPayout (recipient : Address) (amount : U256) (asset : Asset) : Option Payout :=
  if amount = 0 then none else some ⟨recipient, amount, asset⟩

/-- What the logs pay out: the first transfer of a token or payout of the native coin. There is none
if a log before it does not decode, the token is not registered, or the amount is zero. -/
def payout? (b : Bridge) : List Log → Option Payout
  | [] => none
  | log :: logs =>
    match b.event log with
    | .ok (.transfer contract _ recipient amount) =>
      match b.tokens.lookup contract with
      | some info => nonZeroPayout recipient amount (.ofToken info)
      | none => none
    | .ok (.transferFunds recipient amount) => nonZeroPayout recipient amount b.nativeAsset
    | .ok _ => payout? b logs
    | .error _ => none

/-- The platform transaction named by a transaction that calls the contract's withdraw method. -/
def withdrawalHash? (b : Bridge) (tx : Transaction) : Option String :=
  if b.targets tx then
    match b.classify tx.input with
    | .withdrawal h => some h
    | _ => none
  else none

/-- The record of a withdraw call with a receipt. -/
def withdrawalRecord? (b : Bridge) (tx : Transaction) (platformTxHash : String) (r : Receipt) :
    Option Record :=
  if r.status then
    (b.payout? r.logs).map fun p =>
      b.withCompletion (some r)
        { Record.ofTransaction .withdrawal tx p.asset with
          platformTxHash := some platformTxHash
          recipient := p.recipient
          value := p.amount }
  else none

/-- The record of a withdrawal; none if the transaction is not one, or is still pending. -/
def parseWithdrawal (b : Bridge) (tx : Transaction) (supplied : Option Receipt) :
    Action Exchanges (Option Record) := do
  match b.withdrawalHash? tx with
  | none => return none
  | some h =>
    let r ← b.receiptFor tx supplied
    return r.bind (b.withdrawalRecord? tx h)

end Bridge
end EvmBridge
