import EvmBridge.Keccak

/-! # Methods and events of the bridge contract

* `Signatures`: the selectors and event topics by which calldata and logs are recognised.
* `Signatures.standard`: those of the contract's canonical signatures.
-/

namespace EvmBridge
set_option autoImplicit false

/-- Selectors of the contract's methods and views, and topics of its events. -/
structure Signatures where
  withdraw : Selector
  managerChange : Selector
  upgrade : Selector
  crossOut : Selector
  isCompleted : Selector
  isMinter : Selector
  depositFunds : Hash
  crossOutFunds : Hash
  erc20Transfer : Hash
  transferFunds : Hash
  withdrawCompleted : Hash
  managerChangeCompleted : Hash
  upgradeCompleted : Hash
  deriving DecidableEq

/-- The selectors and topics of the canonical signatures. -/
def Signatures.standard : Signatures where
  withdraw := Keccak.selector "createOrSignWithdraw(string,address,uint256,bool,address,bytes)"
  managerChange :=
    Keccak.selector "createOrSignManagerChange(string,address[],address[],uint8,bytes)"
  upgrade := Keccak.selector "createOrSignUpgrade(string,address,bytes)"
  crossOut := Keccak.selector "crossOut(string,uint256,address)"
  isCompleted := Keccak.selector "isCompletedTransaction(string)"
  isMinter := Keccak.selector "isMinterERC20(address)"
  depositFunds := Keccak.hashText "DepositFunds(address,uint256)"
  crossOutFunds := Keccak.hashText "CrossOutFunds(address,string,uint256,address)"
  erc20Transfer := Keccak.hashText "Transfer(address,address,uint256)"
  transferFunds := Keccak.hashText "TransferFunds(address,uint256)"
  withdrawCompleted := Keccak.hashText "TxWithdrawCompleted(string)"
  managerChangeCompleted := Keccak.hashText "TxManagerChangeCompleted(string)"
  upgradeCompleted := Keccak.hashText "TxUpgradeCompleted(string)"

end EvmBridge
