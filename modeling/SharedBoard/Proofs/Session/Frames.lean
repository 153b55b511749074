import SharedBoard.Proofs.Session.Authority
import SharedBoard.Proofs.Wire.Outcomes

/-! Only frames that mean something move a session. One that does not is skipped as if it had not
come; a refusal may take back what the user did, but nothing that the server confirmed.
-/

namespace SharedBoard.Session

/-- A frame that means nothing is skipped: the session stays as it is, and nothing goes out. -/
theorem step_of_error (session : Session) {text : String} {error : FrameError}
    (nothing : Inbound.ofText text = .error error)
    : session.step (.transport (.message text)) = .quiet session := by
  simp only [step, handle, onMessage, nothing]

/-- Whether an input is a text that means nothing. -/
def Input.isNoise : Input → Bool
  | .transport (.message text) => (Inbound.ofText text).toOption.isNone
  | _ => false

/-- What comes of a run is what comes of it without the texts that mean nothing, by induction over
the inputs.
-/
theorem run_filter_noise (session : Session) (inputs : List Input)
    : session.run (inputs.filter (fun input => !input.isNoise)) = session.run inputs := by
  induction inputs generalizing session with
  | nil => rfl
  | cons input rest ih =>
      rw [run_eq_andThen]
      cases noise : input.isNoise with
      | false => simp only [List.filter_cons, noise, Bool.not_false, if_true, run_eq_andThen, ih]
      | true =>
          have skipped : session.step input = .quiet session := by
            unfold Input.isNoise at noise
            split at noise
            · next text =>
                cases decoded : Inbound.ofText text with
                | error error => exact session.step_of_error decoded
                | ok inbound => simp [decoded, Except.toOption] at noise
            · exact absurd noise (by decide)
          rw [skipped, Reaction.quiet_andThen, ← ih session]
          simp [noise]

/-- A refusal leaves the confirmed board as it is. -/
theorem confirmed_step_of_rejected (session : Session) {text : String} {kind : EventKind}
    {message : String} {answer : Option RequestId}
    (refused : Inbound.ofText text = .ok (.rejected kind message answer))
    : (session.step (.transport (.message text))).session.confirmed = session.confirmed := by
  simp only [step, handle, onMessage, refused]
  exact confirmed_onRejected session kind message answer

/-- Every text comes to exactly one outcome: malformed if it is no envelope, else an unknown event
if no kind has the name, else a refusal if it reports no success, else a missing result, a bad
result or an event. A session skips every text that comes to an error, and keeps the confirmed
board at every refusal.
-/
theorem only_meant_frames_take_effect
    : (∀ text outcome, Inbound.Outcome text outcome ↔ Inbound.ofText text = outcome)
      ∧ ∀ (session : Session) (text : String),
          (∀ error, Inbound.ofText text = .error error →
            session.step (.transport (.message text)) = .quiet session)
          ∧ ∀ kind message answer, Inbound.ofText text = .ok (.rejected kind message answer) →
            (session.step (.transport (.message text))).session.confirmed = session.confirmed :=
  ⟨fun _ _ => Inbound.outcome_iff, fun session _ =>
    ⟨fun _ nothing => session.step_of_error nothing,
      fun _ _ _ refused => session.confirmed_step_of_rejected refused⟩⟩

/-- A session on a board without groups. -/
def bare : Session :=
  .start default [] none .lightAqua none

/-- A refusal of the end of a post, without words. -/
def wordlessRefusal : String :=
  "\x7b\"event\":\"post.delete\",\"success\":false,\"result\":[1]\x7d"

/-- A text that is no document is skipped, and a refusal without words gets its words from the kind
and leaves the confirmed board as it is.
-/
theorem only_meant_frames_take_effect_bare
    : Inbound.Outcome "[" (.error .malformed)
      ∧ bare.step (.transport (.message "[")) = .quiet bare
      ∧ Inbound.Outcome wordlessRefusal (.ok (.rejected .postDelete "post.delete failed" none))
      ∧ (bare.step (.transport (.message wordlessRefusal))).session.confirmed
        = bare.confirmed := by
  have broken : Inbound.ofText "[" = .error .malformed := by cbv
  have refused : Inbound.ofText wordlessRefusal
      = .ok (.rejected .postDelete "post.delete failed" none) := by
    cbv
  obtain ⟨outcomes, sessions⟩ := only_meant_frames_take_effect
  exact ⟨(outcomes _ _).mpr broken, (sessions bare _).1 _ broken, (outcomes _ _).mpr refused,
    (sessions bare _).2 _ _ _ refused⟩

end SharedBoard.Session
