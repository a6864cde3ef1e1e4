import EvmBridge.BridgeError
import EvmBridge.Table

/-! # The key-value store

Rows in key order, behind calls that may fail. A failing call changes no row.

* `Rows`: the rows, with `Rows.apply` for a batch of changes and `Rows.under` for the rows whose
  keys begin alike.
* `StoreCall`, `FaultPlan`: the calls, and which of them fail, given all calls made before.
* `FaultPlan.ofRules`: the plan of a list of rules that each fail the calls of one method after a
  number of them.
* `Store`: rows, plan and the calls made so far, with one action for each call.
-/

namespace EvmBridge
set_option autoImplicit false

/-! ## Rows -/

/-- The stored rows. -/
abbrev Rows := Table Bytes Bytes

/-- A change of one row. -/
inductive RowChange where
  | put (key value : Bytes)
  | delete (key : Bytes)
  deriving DecidableEq

namespace Rows

/-- The rows after one change. Deleting a row that is not there changes nothing. -/
def change (r : Rows) : RowChange → Rows
  | .put key value => r.insert key value
  | .delete key => r.erase key

/-- The rows after a list of changes, made in order. -/
def apply (r : Rows) (changes : List RowChange) : Rows := changes.foldl change r

/-- The rows whose keys begin with the given bytes, in key order. -/
def under (r : Rows) (start : Bytes) : List (Bytes × Bytes) := r.scan start start.isPrefixOf

end Rows

/-! ## Calls that fail -/

/-- A call of the store. -/
inductive StoreCall where
  | get (key : Bytes)
  | put (key : Bytes)
  | delete (key : Bytes)
  | batch
  | scan (start : Bytes)
  deriving DecidableEq

namespace StoreCall

/-- The name of the called method. -/
def method : StoreCall → String
  | get _ => "get"
  | put _ => "put"
  | delete _ => "delete"
  | batch => "batch"
  | scan _ => "scan"

/-- The key that a call is about; a batch is about none. -/
def key : StoreCall → Bytes
  | get key | put key | delete key | scan key => key
  | batch => []

/-- Whether a call only reads. -/
def isRead : StoreCall → Bool
  | get _ | scan _ => true
  | put _ | delete _ | batch => false

end StoreCall

/-- Which calls fail: a condition on the calls so far, the one in question first. -/
abbrev FaultPlan := List StoreCall → Bool

/-- A rule that fails the calls of one method on keys that begin alike, after so many of them. -/
structure FaultRule where
  method : String
  start : Bytes
  after : Nat
  deriving DecidableEq

namespace FaultRule

/-- Whether a rule is about a call. -/
def covers (r : FaultRule) (c : StoreCall) : Bool :=
  r.method = c.method && r.start.isPrefixOf c.key

/-- Puts a call before the rules in order, up to the first that fails it; a rule that lets a call
pass counts it. Answers whether the call fails, and the rules afterwards. -/
def visit (c : StoreCall) : List FaultRule → Bool × List FaultRule
  | [] => (false, [])
  | r :: rs =>
    if r.covers c then
      match r.after with
      | 0 => (true, r :: rs)
      | n + 1 =>
        let (fails, rest) := visit c rs
        (fails, { r with after := n } :: rest)
    else
      let (fails, rest) := visit c rs
      (fails, r :: rest)

/-- The rules after a list of calls, the last call first. -/
def afterCalls (rules : List FaultRule) : List StoreCall → List FaultRule
  | [] => rules
  | c :: past => (visit c (afterCalls rules past)).2

end FaultRule

namespace FaultPlan

/-- No call fails. -/
def never : FaultPlan := fun _ => false

/-- The plan of a list of rules. -/
def ofRules (rules : List FaultRule) : FaultPlan
  | [] => false
  | c :: past => (FaultRule.visit c (FaultRule.afterCalls rules past)).1

end FaultPlan

/-! ## The store -/

/-- A key-value store. -/
structure Store where
  rows : Rows
  plan : FaultPlan
  /-- The calls made under the plan, the last one first. -/
  calls : List StoreCall

namespace Store

/-- A store that never fails, with the given rows. -/
def reliable (rows : Rows) : Store := ⟨rows, .never, []⟩

/-- The store with another plan, which knows of no calls yet. -/
def withPlan (s : Store) (plan : FaultPlan) : Store := ⟨s.rows, plan, []⟩

/-- How many of the calls only read. -/
def reads (s : Store) : Nat := s.calls.countP StoreCall.isRead

/-- Makes a call: notes it, and carries it out on the rows unless it fails. -/
def perform {α : Type} (c : StoreCall) (effect : Rows → α × Rows) : Action Store α := fun s =>
  let calls := c :: s.calls
  if s.plan calls then .error (.storage ("injected " ++ c.method)) { s with calls := calls }
  else .ok (effect s.rows).1 { s with rows := (effect s.rows).2, calls := calls }

/-- The value of a key. -/
def get (key : Bytes) : Action Store (Option Bytes) :=
  perform (.get key) fun r => (r.get? key, r)

/-- Gives a key a value. -/
def put (key value : Bytes) : Action Store Unit :=
  perform (.put key) fun r => ((), r.change (.put key value))

/-- Removes a key, if it is there. -/
def delete (key : Bytes) : Action Store Unit :=
  perform (.delete key) fun r => ((), r.change (.delete key))

/-- Makes all changes or none. -/
def batch (changes : List RowChange) : Action Store Unit :=
  perform .batch fun r => ((), r.apply changes)

/-- The rows whose keys begin with the given bytes, in key order. -/
def scan (start : Bytes) : Action Store (List (Bytes × Bytes)) :=
  perform (.scan start) fun r => (r.under start, r)

end Store
end EvmBridge
