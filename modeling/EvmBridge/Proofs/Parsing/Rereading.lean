import EvmBridge.Proofs.Parsing.Acceptance
import EvmBridge.Proofs.Abi.Arguments
import EvmBridge.Sample

/-! # Calls that are read twice

The arguments of a call are read to classify it and read again for what the bridge uses of them. Both
readings go over the same bytes with the same layout, so the second finds what the first one found, and
no call that was classified fails in it (`Signatures.read_again`).
-/

namespace EvmBridge
set_option autoImplicit false
open EvmBridge.Action

theorem Intent.ofMethod_inj {m m' : Method} {p p' : String} (hm : m ≠ .crossOut)
    (h : ofMethod m p = ofMethod m' p') : m = m' ∧ p = p' := by
  cases m with
  | crossOut => exact absurd rfl hm
  | withdraw | managerChange | upgrade =>
    cases m' <;> cases h
    exact ⟨rfl, rfl⟩

namespace Signatures
variable {s : Signatures} {input : Bytes} {m : Method} {p : String}

theorem arguments_of_classify_ofMethod (hm : m ≠ .crossOut) (h : s.classify input = .ofMethod m p) :
    ∃ rest, Call.arguments m input = .ok (.string p :: rest) := by
  have hp : (s.classify input).platformTxHash? = some p := by
    rw [h]
    cases m with
    | crossOut => exact absurd rfl hm
    | withdraw | managerChange | upgrade => rfl
  obtain ⟨m', rest, hclass, -, -, harguments⟩ := arguments_of_classify hp
  obtain ⟨rfl, -⟩ := Intent.ofMethod_inj hm (h.symm.trans hclass)
  exact ⟨rest, harguments⟩

theorem managerChange_of_classify (h : s.classify input = .membershipChange p) :
    ∃ added removed, Call.managerChange input = .ok ⟨p, added, removed⟩ := by
  obtain ⟨rest, harguments⟩ := arguments_of_classify_ofMethod (m := .managerChange) nofun h
  obtain ⟨⟨p', added, removed⟩, hcall, hp⟩ := Call.exists_managerChange harguments
  cases hp
  exact ⟨added, removed, hcall⟩

end Signatures

namespace Bridge
variable {b : Bridge} {tx : Transaction}

theorem parseDraft_eq_none_iff {draft : Option Record} {supplied : Option Receipt} {past : Exchanges} :
    (b.parseDraft tx draft supplied).outcome past = .ok none ↔ draft = none := by
  unfold parseDraft
  cases draft with
  | none => exact iff_of_true rfl rfl
  | some record =>
    refine iff_of_false (fun h => ?_) nofun
    rw [outcome_bind] at h
    obtain ⟨receipt, -, h⟩ := exists_of_bind_eq_ok h
    cases h

/-- The second reading of a membership change does not give its record up. -/
theorem membershipDraft?_eq_none_iff :
    b.membershipDraft? tx = none ↔
      ¬(b.targets tx = true ∧ ∃ p, b.config.signatures.classify tx.input = .membershipChange p) := by
  rw [Option.eq_none_iff_forall_ne_some]
  constructor
  · rintro hnone ⟨htargets, p, hclass⟩
    obtain ⟨added, removed, hcall⟩ := Signatures.managerChange_of_classify hclass
    exact hnone _ (membershipDraft?_eq_some_iff.2 ⟨htargets, p, _, hclass, hcall, rfl⟩)
  · intro hnot r hr
    obtain ⟨htargets, p, _, hclass, -, -⟩ := membershipDraft?_eq_some_iff.1 hr
    exact hnot ⟨htargets, p, hclass⟩

end Bridge

namespace Signatures

/-- What is read of calldata after it was classified, for all calldata: a membership change is read and
names the same platform transaction, so that only the first reading decides whether one is recorded; the
first argument is the one that a call was classified by; and a call that cannot be read has no whole
selector or arguments that do not decode, never an argument of another type. -/
theorem read_again (s : Signatures) (input : Bytes) :
    (∀ p, s.classify input = .membershipChange p →
      ∃ added removed, Call.managerChange input = .ok ⟨p, added, removed⟩) ∧
    (∀ (b : Bridge) tx supplied past, b.config.signatures = s → tx.input = input →
      ((b.parse .membershipChange tx supplied).outcome past = .ok none ↔
        ¬(b.targets tx = true ∧ ∃ p, s.classify input = .membershipChange p))) ∧
    (∀ m p, m ≠ .crossOut → s.classify input = .ofMethod m p →
      ∃ rest, Call.arguments m input = .ok (.string p :: rest)) ∧
    ∀ fault,
      (Call.crossOut input = .error fault ↔ Method.crossOut.Unreadable input fault) ∧
      (Call.managerChange input = .error fault ↔ Method.managerChange.Unreadable input fault) ∧
      ∀ m, Call.platformTxHash m input = .error fault ↔ m.Unreadable input fault := by
  refine ⟨fun p => managerChange_of_classify, ?_, fun m p => arguments_of_classify_ofMethod,
    fun fault => ⟨?_, ?_, fun m => ?_⟩⟩
  · rintro b tx supplied past rfl rfl
    exact Bridge.parseDraft_eq_none_iff.trans Bridge.membershipDraft?_eq_none_iff
  · exact Call.bind_arguments_eq_error_iff fun _ => Call.exists_crossOut
  · refine Call.bind_arguments_eq_error_iff fun _ h => ?_
    obtain ⟨args, hcall, -⟩ := Call.exists_managerChange h
    exact ⟨args, hcall⟩
  · exact Call.bind_arguments_eq_error_iff fun _ => Call.exists_platformTxHash

/-- A membership change whose texts and lists all stand in one place, and the same cut short. -/
theorem read_again_overlapping :
    let input := [2, 2, 2, 2] ++ ([160, 160, 160, 1, 160, 0].map Abi.word).flatten
    let tx := Sample.transaction (.fill 1) Sample.relayer Sample.bridgeContract 0 input
    Sample.plainSignatures.classify input = .membershipChange "" ∧
      (∃ added removed, Call.managerChange input = .ok ⟨"", added, removed⟩) ∧
      (∃ rest, Call.arguments .managerChange input = .ok (.string "" :: rest)) ∧
      (∀ supplied past, ((Sample.plainBridge Sample.emptyChain).parse .membershipChange tx
        supplied).outcome past ≠ .ok none) ∧
      Call.managerChange (input.take 3) = .error .tooShort := by
  intro input tx
  have hclass : Sample.plainSignatures.classify input = .membershipChange "" := by decide +kernel
  obtain ⟨hchange, hparse, harguments, -⟩ := read_again Sample.plainSignatures input
  have hshort := (read_again Sample.plainSignatures (input.take 3)).2.2.2 .tooShort
  refine ⟨hclass, hchange "" hclass, harguments .managerChange "" nofun hclass,
    fun supplied past h => ?_, hshort.2.1.2 (.tooShort (by decide))⟩
  have hnot := (hparse (Sample.plainBridge Sample.emptyChain) tx supplied past rfl rfl).1 h
  exact hnot ⟨by decide, "", hclass⟩

end Signatures
end EvmBridge
