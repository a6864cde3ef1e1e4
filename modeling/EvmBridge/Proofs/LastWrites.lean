import Mathlib.Data.List.Induction

/-! # The last operation on a key

Where each operation of a list is about one key, what stands under a key afterwards comes from the last
operation on it (`look_foldl`), however the state keeps it: as rows, as members or as outputs of views.
-/

namespace EvmBridge
set_option autoImplicit false
variable {σ ω κ ν : Type} [DecidableEq κ] {key : ω → κ} {ops : List ω} {o : ω} {k : κ}

/-- The last operation on a key. -/
def lastOn? (key : ω → κ) (ops : List ω) (k : κ) : Option ω := ops.reverse.find? fun o => key o = k

theorem lastOn?_snoc :
    lastOn? key (ops ++ [o]) k = if key o = k then some o else lastOn? key ops k := by
  by_cases h : key o = k <;> simp [lastOn?, h]

theorem lastOn?_eq_none_iff : lastOn? key ops k = none ↔ ∀ o ∈ ops, key o ≠ k := by
  simp [lastOn?]

theorem key_of_lastOn? (h : lastOn? key ops k = some o) : key o = k := by
  unfold lastOn? at h
  simpa using List.find?_some h

/-- A state in which every operation settles its own key and leaves the others alone shows under each key
what the last operation on it put there, and without one what was there at first. -/
theorem look_foldl {step : σ → ω → σ} {look : σ → κ → ν} {value : ω → ν}
    (h : ∀ s o k, look (step s o) k = if key o = k then value o else look s k) (ops : List ω) (s : σ)
    (k : κ) : look (ops.foldl step s) k = ((lastOn? key ops k).map value).getD (look s k) := by
  induction ops using List.reverseRecOn with
  | nil => rfl
  | append_singleton ops o ih =>
    rw [List.foldl_append, lastOn?_snoc]
    refine (h _ o k).trans ?_
    split
    · rfl
    · exact ih

end EvmBridge
