import TimedText.Check.Context
/-!
Attempts and runs in a row, by what comes of the first one: a value, with which
the second one goes on, or a fault, which ends both.
-/

namespace TimedText

namespace Attempt

variable {α β : Type} {first : Attempt α} {next : α → Attempt β}

theorem bind_of_ok {value : α} (gives : first.result = .ok value) :
    first >>= next =
      ⟨(next value).result, first.findings ++ (next value).findings⟩ := by
  change first.andThen next = _
  rw [andThen, gives]

theorem bind_of_error {fault : Fault} (stops : first.result = .error fault) :
    first >>= next = ⟨.error fault, first.findings⟩ := by
  change first.andThen next = _
  rw [andThen, stops]

theorem exists_ok {attempt : Attempt α} (ok : attempt.result.isOk = true) :
    ∃ value, attempt.result = .ok value := by
  cases result : attempt.result with
  | ok value => exact ⟨value, rfl⟩
  | error fault =>
      rw [result] at ok
      cases ok

theorem ok_of_bind {last : β} (gives : (first >>= next).result = .ok last) :
    ∃ value, first.result = .ok value ∧ (next value).result = .ok last := by
  cases result : first.result with
  | ok value =>
      rw [bind_of_ok result] at gives
      exact ⟨value, rfl, gives⟩
  | error fault =>
      rw [bind_of_error result] at gives
      cases gives

end Attempt

namespace Check.Run

variable {α β : Type} {first : Run α} {next : α → Run β} {context : Context}

theorem bind_of_ok {value : α} (gives : (first context).result = .ok value) :
    (first >>= next) context =
      ⟨(next value (first context).context).result,
        (next value (first context).context).context,
        (first context).findings ++ (next value (first context).context).findings⟩ := by
  change first.andThen next context = _
  simp only [andThen, gives]

theorem bind_of_error {fault : Fault}
    (stops : (first context).result = .error fault) :
    (first >>= next) context =
      ⟨.error fault, (first context).context, (first context).findings⟩ := by
  change first.andThen next context = _
  simp only [andThen, stops]

theorem exists_of_bind {last : β} {after : Context} {made : Log}
    (ends : (first >>= next) context = ⟨.ok last, after, made⟩) :
    ∃ value between one others, first context = ⟨.ok value, between, one⟩ ∧
      next value between = ⟨.ok last, after, others⟩ ∧ made = one ++ others := by
  cases gives : (first context).result with
  | error fault =>
      rw [bind_of_error gives] at ends
      cases ends
  | ok value =>
      rw [bind_of_ok gives, Outcome.mk.injEq] at ends
      rcases ends with ⟨result, rfl, rfl⟩
      exact ⟨value, _, _, _, by rw [← gives], by rw [← result], rfl⟩

theorem exists_of_inside {presence : Timing.Presence} {value : α} {after : Context} {made : Log}
    (ends : Run.inside presence first context = ⟨.ok value, after, made⟩) :
    ∃ between, first { context with entered := presence :: context.entered }
        = ⟨.ok value, between, made⟩ ∧
      after = { between with entered := between.entered.tail } := by
  rw [Run.inside, Outcome.mk.injEq] at ends
  rcases ends with ⟨result, rfl, rfl⟩
  exact ⟨_, by rw [← result], rfl⟩

end Check.Run

end TimedText
