import Storyworld.EventLog
import Storyworld.Proofs.Value

/-!
This module contains the tokens of a log: each is there once and without blanks around it, so a log
that is loaded from them has them again.
-/

namespace Storyworld.EventLog

/-- Every token is there once, is not empty and has no blanks around it. -/
structure Clean (log : EventLog) : Prop where
  nodup : log.tokens.Nodup
  token : ∀ token ∈ log.tokens, token ≠ "" ∧ Text.strip token = token

theorem clean_empty : Clean {} where
  nodup := List.nodup_nil
  token _ h := by cases h

theorem Clean.noteText {log : EventLog} (h : Clean log) (token : String)
    : Clean (log.noteText token) := by
  unfold EventLog.noteText note
  split
  next => exact h
  next hnew =>
    rw [not_or] at hnew
    constructor
    case nodup =>
      rw [List.nodup_append]
      refine ⟨h.nodup, by simp, ?_⟩
      rintro old hold new hnew' rfl
      obtain rfl : old = Text.strip token := by simpa using hnew'
      exact hnew.2 hold
    case token =>
      intro other hother
      rw [List.mem_append, List.mem_singleton] at hother
      rcases hother with hold | rfl
      . exact h.token other hold
      . exact ⟨hnew.1, Text.strip_strip token⟩

variable {ρ : Type} [Scalar ρ]

theorem run_forM_add {tokens : List String} (log : EventLog)
    (h : Clean ⟨log.tokens ++ tokens⟩)
    : ((tokens.map (.text : String → Value ρ)).forM add).run log
      = (.ok (), ⟨log.tokens ++ tokens⟩) := by
  induction tokens generalizing log with
  | nil =>
    rw [List.append_nil]
    rfl
  | cons token tokens ih =>
    have hadd : (add (.text token : Value ρ)).run log = (.ok (), ⟨log.tokens ++ [token]⟩) := by
      obtain ⟨hne, hstrip⟩ := h.token token (by simp)
      have hnew : token ∉ log.tokens := by
        have hnodup := h.nodup
        rw [List.nodup_append] at hnodup
        intro hmem
        exact hnodup.2.2 token hmem token (by simp) rfl
      unfold add note
      rw [Act.run_bind, Act.run_lift, Value.key?_text, hstrip]
      simp [hne, hnew]
    have hrest := ih ⟨log.tokens ++ [token]⟩ (by simpa using h)
    rw [List.map_cons]
    unfold List.forM
    rw [Act.run_bind, hadd]
    dsimp only
    rw [hrest]
    simp

theorem run_load {log : EventLog} (h : Clean log) (old : EventLog)
    : (load (.list (log.tokens.map (.text : String → Value ρ)))).run old = (.ok (), log) := by
  unfold load
  rw [Act.run_bind, Act.run_set]
  exact run_forM_add {} h

end Storyworld.EventLog
