import EvmBridge.BridgeError

/-! # What an action ends in

`Action.Ends act s ok err`: run on `s`, the action either answers something that satisfies `ok`, or
fails with something that satisfies `err`, each together with the state that is left. The lemmas
follow how actions are put together, so that an action built of others is run by rewriting.
-/

namespace EvmBridge
set_option autoImplicit false
variable {σ τ α β : Type}

/-! ## Results without a state -/

theorem exists_of_bind_eq_ok {ε : Type} {x : Except ε α} {f : α → Except ε β} {b : β}
    (h : (x >>= f) = .ok b) : ∃ a, x = .ok a ∧ f a = .ok b := by
  cases x with
  | error e => cases h
  | ok a => exact ⟨a, rfl, h⟩

theorem ok_of_mapError {ε ε' : Type} {x : Except ε α} {f : ε → ε'} {a : α}
    (h : x.mapError f = .ok a) : x = .ok a := by
  cases x with
  | error e => cases h
  | ok b => cases h; rfl

theorem exists_of_mapM_eq_ok {ε : Type} {f : α → Except ε β} {as : List α} {bs : List β}
    (h : as.mapM f = .ok bs) : ∀ b ∈ bs, ∃ a ∈ as, f a = .ok b := by
  induction as generalizing bs with
  | nil =>
    cases h
    exact fun _ hb => nomatch hb
  | cons a as ih =>
    rw [List.mapM_cons] at h
    obtain ⟨b, hb, h⟩ := exists_of_bind_eq_ok h
    obtain ⟨rest, hrest, h⟩ := exists_of_bind_eq_ok h
    cases h
    refine List.forall_mem_cons.2 ⟨⟨a, List.mem_cons_self .., hb⟩, fun b' hb' => ?_⟩
    obtain ⟨a', ha', hf⟩ := ih hrest b' hb'
    exact ⟨a', List.mem_cons_of_mem _ ha', hf⟩

theorem ok_of_toOption {ε : Type} {x : Except ε α} {a : α} (h : x.toOption = some a) : x = .ok a := by
  cases x with
  | error e => cases h
  | ok b => cases h; rfl

/-! ## Actions -/

namespace Action

theorem bind_eq_ok_iff {x : Action σ β} {f : β → Action σ α} {s t : σ} {a : α} :
    (x >>= f) s = .ok a t ↔ ∃ b s', x s = .ok b s' ∧ f b s' = .ok a t := by
  have h : (x >>= f) s = EStateM.bind x f s := rfl
  rw [h, EStateM.bind]
  constructor
  · intro h
    cases hx : x s with
    | error e s' => rw [hx] at h; cases h
    | ok b s' => rw [hx] at h; exact ⟨b, s', rfl, h⟩
  · rintro ⟨b, s', hx, hf⟩
    rw [hx]
    exact hf

theorem outcome_bind (x : Action σ α) (f : α → Action σ β) (s : σ) :
    (x >>= f).outcome s = x.outcome s >>= fun a => (f a).outcome (x.final s) := by
  simp only [outcome, final, EStateM.run, bind, EStateM.bind]
  cases x s <;> rfl

theorem final_bind (x : Action σ α) (f : α → Action σ β) (s : σ) :
    (x >>= f).final s
      = match x.outcome s with
        | .ok a => (f a).final (x.final s)
        | .error _ => x.final s := by
  simp only [outcome, final, EStateM.run, bind, EStateM.bind]
  cases x s <;> rfl

/-- What holds of an answer, and what holds of a failure, each with the state that is left. -/
def Ends (act : Action σ α) (s : σ) (ok : α → σ → Prop) (err : BridgeError → σ → Prop) : Prop :=
  match act s with
  | .ok a t => ok a t
  | .error e t => err e t

section Laws
variable {ok : α → σ → Prop} {err : BridgeError → σ → Prop} {s : σ}

theorem ends_pure {a : α} : Ends (pure a : Action σ α) s ok err ↔ ok a s := Iff.rfl

theorem ends_bind {x : Action σ β} {f : β → Action σ α} :
    Ends (x >>= f) s ok err ↔ Ends x s (fun b t => Ends (f b) t ok err) err := by
  have h : (x >>= f) s = EStateM.bind x f s := rfl
  simp only [Ends, h, EStateM.bind]
  cases x s <;> rfl

theorem ends_get {ok : σ → σ → Prop} : Ends (get : Action σ σ) s ok err ↔ ok s s := Iff.rfl

theorem ends_ofExcept {r : Except BridgeError α} :
    Ends (ofExcept r) s ok err ↔ (match r with | .ok a => ok a s | .error e => err e s) := by
  cases r <;> rfl

theorem ends_within {read : σ → τ} {write : τ → σ → σ} {act : Action τ α} :
    Ends (within read write act) s ok err ↔
      Ends act (read s) (fun a t => ok a (write t s)) (fun e t => err e (write t s)) := by
  simp only [Ends, within, EStateM.run]
  cases act (read s) <;> rfl

theorem ends_of_ok {act : Action σ α} {a : α} {t : σ} (h : act s = .ok a t) :
    Ends act s ok err ↔ ok a t := by
  unfold Ends
  rw [h]

/-- Weaker conclusions hold as well. -/
theorem Ends.mono {act : Action σ α} {ok' : α → σ → Prop} {err' : BridgeError → σ → Prop}
    (h : Ends act s ok err) (hok : ∀ a t, ok a t → ok' a t) (herr : ∀ e t, err e t → err' e t) :
    Ends act s ok' err' := by
  unfold Ends at h ⊢
  cases hr : act s with
  | ok a t => rw [hr] at h; exact hok a t h
  | error e t => rw [hr] at h; exact herr e t h

theorem Ends.trivial (act : Action σ α) (s : σ) : Ends act s (fun _ _ => True) fun _ _ => True := by
  unfold Ends
  cases act s <;> exact True.intro

/-- What is known of the outcome can be put beside the outcome itself. -/
theorem Ends.with_eq {act : Action σ α} (h : Ends act s ok err) :
    Ends act s (fun a t => ok a t ∧ act s = .ok a t) fun e t => err e t ∧ act s = .error e t := by
  unfold Ends at h ⊢
  cases hr : act s with
  | ok a t => rw [hr] at h; exact ⟨h, rfl⟩
  | error e t => rw [hr] at h; exact ⟨h, rfl⟩

/-- First one action, then the next, each by what is known of it. -/
theorem Ends.bind {x : Action σ β} {f : β → Action σ α} {mid : β → σ → Prop}
    {err' : BridgeError → σ → Prop} (h : Ends x s mid err') (hok : ∀ b t, mid b t → Ends (f b) t ok err)
    (herr : ∀ e t, err' e t → err e t) : Ends (x >>= f) s ok err :=
  ends_bind.2 (h.mono hok herr)

end Laws

/-- What an action ends in holds of its outcome and the state it leaves. -/
theorem Ends.outcome {act : Action σ α} {s : σ} {p : Except BridgeError α → σ → Prop}
    (h : Ends act s (fun a t => p (.ok a) t) (fun e t => p (.error e) t)) :
    p (act.outcome s) (act.final s) := by
  unfold Ends at h
  unfold Action.outcome Action.final
  simp only [EStateM.run]
  cases hr : act s with
  | ok a t => rw [hr] at h; exact h
  | error e t => rw [hr] at h; exact h

/-- An action that cannot fail answers. -/
theorem Ends.exists_answer {act : Action σ α} {s : σ} {ok : α → σ → Prop}
    {err : BridgeError → σ → Prop} (h : Ends act s ok err) (hno : ∀ e t, ¬ err e t) :
    ∃ a, act.outcome s = .ok a ∧ ok a (act.final s) :=
  Ends.outcome (p := fun o t => ∃ a, o = .ok a ∧ ok a t)
    (h.mono (fun a _ ha => ⟨a, rfl, ha⟩) fun e t he => absurd he (hno e t))

/-- An action that cannot end otherwise ends in this answer. -/
theorem Ends.outcome_eq_ok {act : Action σ α} {s : σ} {a : α}
    (h : Ends act s (fun a' _ => a' = a) fun _ _ => False) : act.outcome s = .ok a :=
  Ends.outcome (p := fun o _ => o = .ok a)
    (h.mono (fun _ _ ha => congrArg _ ha) fun _ _ => False.elim)

/-- An action that cannot end otherwise ends in this failure. -/
theorem Ends.outcome_eq_error {act : Action σ α} {s : σ} {e : BridgeError}
    (h : Ends act s (fun _ _ => False) fun e' _ => e' = e) : act.outcome s = .error e :=
  Ends.outcome (p := fun o _ => o = .error e)
    (h.mono (fun _ _ => False.elim) fun _ _ he => congrArg _ he)

/-- What is known of an answer holds of the one that is given. -/
theorem Ends.of_outcome {act : Action σ α} {s : σ} {ok : α → σ → Prop} {err : BridgeError → σ → Prop}
    (h : Ends act s ok err) {a : α} (ha : act.outcome s = .ok a) : ok a (act.final s) :=
  Ends.outcome (p := fun o t => o = .ok a → ok a t)
    (h.mono (fun _ _ hok he => Except.ok.inj he ▸ hok) fun _ _ _ => nofun) ha

/-- What is known of a failure holds of the one that there is. -/
theorem Ends.of_outcome_error {act : Action σ α} {s : σ} {ok : α → σ → Prop}
    {err : BridgeError → σ → Prop} (h : Ends act s ok err) {e : BridgeError}
    (he : act.outcome s = .error e) : err e (act.final s) :=
  Ends.outcome (p := fun o t => o = .error e → err e t)
    (h.mono (fun _ _ _ => nofun) fun _ _ herr ho => Except.error.inj ho ▸ herr) he

end Action
end EvmBridge
