/-!
# Runs under a rule

A run is a list of events, each of which leads from one state to the next. What is true of a run often
hangs on a rule that those who cause the events keep, and the rule looks at the state: a queue is emptied
only *while it is aborted*. `Obeys` says that every event of a run keeps the rule where it happens, and
`Obeys.preserves` carries an invariant along such a run.
-/

namespace Playback

variable {σ α : Type}

/-- Whether every event keeps the rule in the state that it meets. -/
def Obeys (next : σ → α → σ) (rule : σ → α → Prop) : σ → List α → Prop
  | _, [] => True
  | s, a :: as => rule s a ∧ Obeys next rule (next s a) as

namespace Obeys

variable {next : σ → α → σ} {rule : σ → α → Prop}

instance decidable [∀ s a, Decidable (rule s a)] : ∀ s as, Decidable (Obeys next rule s as)
  | _, [] => isTrue trivial
  | s, a :: as =>
    have := decidable (next s a) as
    inferInstanceAs (Decidable (rule s a ∧ Obeys next rule (next s a) as))

/-- A rule that does not look at the state. -/
theorem of_forall {Q : α → Prop} {s : σ} {as : List α} (h : ∀ a ∈ as, Q a) :
    Obeys next (fun _ a => Q a) s as := by
  induction as generalizing s with
  | nil => trivial
  | cons a as ih => exact ⟨h a (List.mem_cons_self ..), ih fun b hb => h b (List.mem_cons_of_mem _ hb)⟩

/-- What every event under the rule preserves, a run under the rule preserves. -/
theorem preserves {P : σ → Prop} (step : ∀ s a, P s → rule s a → P (next s a)) {s : σ} {as : List α}
    (hs : P s) (h : Obeys next rule s as) : P (as.foldl next s) := by
  induction as generalizing s with
  | nil => exact hs
  | cons a as ih => exact ih (step s a hs h.1) h.2

end Obeys
end Playback
