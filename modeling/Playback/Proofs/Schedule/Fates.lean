import Playback.Proofs.Schedule.Owners

/-!
# What becomes of a task

From the books (`Ledger.Balanced`) and from whose task it is (`Ledger.Owned`) follows what becomes of tasks
(`fates`):

> every task that was accepted ran once, or was taken back by its own runner, or was dropped with its loop,
> or waits; and what was taken back or dropped never runs.

A loop that is ending takes no task any more and has none to run (`refuses`), and so nothing of it runs again
(`quitting_acts`).
-/

namespace Playback

variable {α : Type}

namespace Roster

variable {r r' : Roster α} {a : ScheduleAct α} {e : Entries α}

/-- A request tells how many tasks it took back. -/
theorem remove_count {k : Nat} {t : TaskRunner} (known : r.runner? k = some t) (taskId : Option Nat) :
    (r.scheduler.remove t taskId).1 = (r.entries (.remove k taskId)).removed.length := by
  obtain ⟨loop, id⟩ := t
  cases loop with
  | none => simp [Scheduler.remove, entries, takesBack, ScheduleAct.request?, known]
  | some i =>
    show (r.scheduler.update i 0 fun l => l.remove id taskId).1 = _
    cases present : r.loop? i with
    | none =>
      rw [update_none present]
      simp [entries, takesBack, ScheduleAct.request?, known, present]
    | some l =>
      rw [update_some present]
      simp [entries, takesBack, ScheduleAct.request?, known, present, Loop.remove]

/-- A loop that is ending runs nothing. -/
theorem Deed.ran_running (h : Deed r a r' e) {x : Ticket α} (hx : x ∈ e.ran) :
    ∃ l, r.loop? x.loop = some l ∧ l.queue.quitting = false := by
  cases h with
  | executes i l m rest present running =>
    rw [List.mem_singleton.mp hx]
    exact ⟨l, present, running⟩
  | _ => cases hx

theorem loop?_quit {i : Nat} {l : Loop α} (present : r.loop? i = some l) :
    (r.act (.quit i)).loop? i = some l.quit := by
  simp only [act, Scheduler.quit, update_some present]
  exact loop?_setLoop_self present _

/-- A loop that is ending takes nothing and has nothing to run. -/
theorem refuses {i : Nat} {l : Loop α} (present : r.loop? i = some l) (quitting : l.queue.quitting = true) :
    (∀ delay task, (r.scheduler.postLoop i delay task).1 = false) ∧
    (∀ t : TaskRunner, t.loop = some i → ∀ delay taskId task,
      (r.scheduler.post t delay taskId task).1 = false) ∧
    r.scheduler.next? i = none := by
  have hpost (delay : Nat) (task : α) (runner : Option Nat) (taskId : Nat) :
      (r.scheduler.update i false fun l => l.post r.scheduler.now delay task runner taskId).1 = false := by
    rw [update_some present]
    simp [Loop.post_accepted, quitting]
  refine ⟨fun delay task => hpost .., fun ⟨loop, id⟩ hloop delay taskId task => ?_, ?_⟩
  · cases hloop
    exact hpost ..
  · simp [Scheduler.next?, show r.scheduler.loops[i]? = some l from present, Loop.next?, MessageQueue.next?,
      quitting]

end Roster

namespace Ledger

/-- What ended without having run never runs. -/
theorem Balanced.not_ran {w : Ledger α} (h : w.Balanced) {t : Ticket α}
    (ht : t ∈ w.entries.removed.map (·.ticket) ++ w.entries.dropped) : t ∉ w.entries.ran := by
  have hnodup : (w.entries.ended ++ w.pending).Nodup := h.balance.nodup_iff.mpr h.nodup
  rw [Entries.ended, List.append_assoc, List.append_assoc, List.nodup_append] at hnodup
  intro hran
  rw [← List.append_assoc] at hnodup
  exact hnodup.2.2 t hran t (List.mem_append_left _ ht) rfl

/-- Nothing is taken out of the record. -/
theorem acts_entries (w : Ledger α) (as : List (ScheduleAct α)) :
    ∃ e, (w.acts as).entries = w.entries.append e := by
  induction as generalizing w with
  | nil => exact ⟨.empty, by simp [acts, Entries.append, Entries.empty]⟩
  | cons a as ih =>
    obtain ⟨e, he⟩ := ih (w.act a)
    exact ⟨(w.roster.entries a).append e, by simp [acts, act, Entries.append] at he ⊢; exact he⟩

/-- What was taken back or dropped stays so. -/
theorem gone_stays (w : Ledger α) (as : List (ScheduleAct α)) {t : Ticket α}
    (ht : t ∈ w.entries.removed.map (·.ticket) ++ w.entries.dropped) :
    t ∈ (w.acts as).entries.removed.map (·.ticket) ++ (w.acts as).entries.dropped := by
  obtain ⟨e, he⟩ := w.acts_entries as
  simp only [he, Entries.append, List.map_append, List.mem_append] at ht ⊢
  rcases ht with ht | ht
  · exact .inl (.inl ht)
  · exact .inr (.inl ht)

/-- A loop that is ending stays so, and none of its tasks run from then on. -/
theorem quitting_acts {w : Ledger α} {i : Nat} {l : Loop α} (present : w.roster.loop? i = some l)
    (quitting : l.queue.quitting = true) (as : List (ScheduleAct α)) :
    (∃ l, (w.acts as).roster.loop? i = some l ∧ l.queue.quitting = true) ∧
    ∀ x ∈ (w.acts as).entries.ran, x.loop = i → x ∈ w.entries.ran := by
  induction as generalizing w l with
  | nil => exact ⟨⟨l, present, quitting⟩, fun x hx _ => hx⟩
  | cons a as ih =>
    have hdeed := w.roster.act_deed a
    obtain ⟨l', present', advances⟩ := hdeed.present present
    obtain ⟨hstays, hran⟩ := ih (w := w.act a) present' (advances.quitting quitting)
    refine ⟨hstays, fun x hx hloop => ?_⟩
    have hbefore := hran x hx hloop
    rw [ran_act] at hbefore
    rcases List.mem_append.mp hbefore with hold | hnew
    · exact hold
    · obtain ⟨l₀, present₀, running⟩ := hdeed.ran_running hnew
      rw [hloop, present] at present₀
      cases present₀
      rw [quitting] at running
      cases running

/-- After a request for all tasks of a runner those that had not run never do. -/
theorem Owned.never_ran {w : Ledger α} (h : w.Owned) {a : ScheduleAct α} {k : Nat}
    (asked : a.request? = some (k, none)) {p : Posting α} (hp : p ∈ w.entries.accepted)
    (howner : p.owner = some k) (hran : p.ticket ∉ w.entries.ran) (later : List (ScheduleAct α)) :
    p.ticket ∉ ((w.act a).acts later).entries.ran := by
  have hact := h.act a
  have hwaits : p.ticket ∉ (w.act a).pending := by
    intro hwaits
    have hmeant := ((h.request asked hp).mp hwaits).2
    simp [Posting.meantBy, howner] at hmeant
  have hnothing : (w.act a).entries.ran = w.entries.ran := by
    have hexec : w.roster.executes a = [] := by cases a with
      | take => cases asked
      | _ => rfl
    rw [ran_act]
    simp [Entries.ran, Roster.entries, hexec]
  have hended : p.ticket ∈ (w.act a).entries.ended ++ (w.act a).pending :=
    hact.balanced.balance.mem_iff.mpr (List.mem_map.mpr ⟨p, List.mem_append_left _ hp, rfl⟩)
  have hgone : p.ticket ∈ (w.act a).entries.removed.map (·.ticket) ++ (w.act a).entries.dropped := by
    simp only [Entries.ended, List.mem_append, hnothing] at hended
    simpa [hran, hwaits] using hended
  exact (hact.acts later).balanced.not_ran (gone_stays _ later hgone)

/-- **The fates of tasks.** In every run: each accepted task is, once and in one place, among those that ran,
that were taken back, that were dropped and that wait. A task is taken back only by the runner it was posted
through, under its id if one is given, and dropped only by the end of its loop. A request takes back just
the tasks that it means and tells their number. What a runner had posted and had not run never runs once all
its tasks were taken back, as when it is reset or dropped. And a loop that was ended takes no task, runs
none, and has none to run. -/
theorem fates (before : List (ScheduleAct α)) (a : ScheduleAct α) (later : List (ScheduleAct α)) :
    let w := (empty : Ledger α).acts before
    let w' := w.act a
    let w'' := w'.acts later
    (w.entries.accepted.map Posting.ticket).Nodup ∧
    (w.entries.ran ++ w.entries.removed.map (·.ticket) ++ w.entries.dropped ++ w.pending).Perm
      (w.entries.accepted.map Posting.ticket) ∧
    (∀ x ∈ w.entries.removed, ∃ p ∈ w.entries.accepted,
      p.ticket = x.ticket ∧ p.meantBy x.runner x.taskId = true) ∧
    (∀ t ∈ w.entries.dropped, ∃ l, w.roster.loop? t.loop = some l ∧ l.queue.quitting = true) ∧
    (∀ k taskId, a.request? = some (k, taskId) → ∀ p ∈ w.entries.accepted,
      (p.ticket ∈ w'.pending ↔ p.ticket ∈ w.pending ∧ p.meantBy k taskId = false)) ∧
    (∀ k taskId t, a = .remove k taskId → w.roster.runner? k = some t →
      w'.entries.removed.length = w.entries.removed.length + (w.roster.scheduler.remove t taskId).1) ∧
    (∀ k, a.request? = some (k, none) → ∀ p ∈ w.entries.accepted, p.owner = some k →
      p.ticket ∉ w.entries.ran → p.ticket ∉ w''.entries.ran) ∧
    (∀ i l, a = .quit i → w.roster.loop? i = some l →
      (∀ delay task, (w''.roster.scheduler.postLoop i delay task).1 = false) ∧
      (∀ t : TaskRunner, t.loop = some i → ∀ delay taskId task,
        (w''.roster.scheduler.post t delay taskId task).1 = false) ∧
      w''.roster.scheduler.next? i = none ∧
      ∀ x ∈ w''.entries.ran, x.loop = i → x ∈ w.entries.ran) := by
  intro w w' w''
  have h : w.Owned := empty_owned.acts before
  refine ⟨h.balanced.nodup, h.balanced.balance, h.removed, h.dropped,
    fun k taskId asked p hp => h.request asked hp, fun k taskId t ha known => ?_,
    fun k asked p hp howner hran => h.never_ran asked hp howner hran later, fun i l ha present => ?_⟩
  · subst ha
    rw [Roster.remove_count known]
    exact List.length_append
  · subst ha
    obtain ⟨⟨l', present', quitting⟩, hran⟩ :=
      quitting_acts (w := w') (Roster.loop?_quit present) l.quit_quitting later
    obtain ⟨hpostLoop, hpost, hnext⟩ := Roster.refuses present' quitting
    have hnothing : w'.entries.ran = w.entries.ran := by
      rw [ran_act]
      simp [Entries.ran, Roster.entries, Roster.executes]
    exact ⟨hpostLoop, hpost, hnext, hnothing ▸ hran⟩

/-- Tasks of a runner, of its copy and of none on one loop; the first of them has run. -/
def sharedLoop : List (ScheduleAct String) :=
  [.addLoop "main", .attach 0, .clone 0, .post 0 0 1 "first", .post 0 100 1 "one", .post 0 100 2 "two",
    .post 1 100 1 "other", .postLoop 0 100 "direct", .take 0]

/-- The later acts let all that waits run. -/
theorem shared_loop_fates :
    let w := (empty : Ledger String).acts sharedLoop
    let later : List (ScheduleAct String) := [.advance 200, .take 0, .take 0, .take 0]
    let two : Posting String := ⟨0, 2, "two", 0, 100, some 0, some 1, 2⟩
    let other : Posting String := ⟨0, 3, "other", 0, 100, some 1, some 2, 1⟩
    two ∈ w.entries.accepted ∧ other ∈ w.entries.accepted ∧ w.roster.runner? 0 = some ⟨some 0, 1⟩ ∧
    (w.act (.remove 0 (some 1))).entries.removed.length = 1 ∧
    other.ticket ∈ (w.act (.remove 0 (some 1))).pending ∧
    two.ticket ∉ ((w.act (.drop 0)).acts later).entries.ran ∧
    ((w.act (.drop 0)).acts later).entries.ran.map (·.message.task) = ["first", "other", "direct"] ∧
    ((w.act (.quit 0)).acts later).roster.scheduler.next? 0 = none := by
  intro w later two other
  have htwo : two ∈ w.entries.accepted := by decide +kernel
  have hother : other ∈ w.entries.accepted := by decide +kernel
  have hrunner : w.roster.runner? 0 = some ⟨some 0, 1⟩ := by decide +kernel
  have hran : two.ticket ∉ w.entries.ran := by decide +kernel
  have hwaits : other.ticket ∈ w.pending := by decide +kernel
  obtain ⟨l, present⟩ : ∃ l, w.roster.loop? 0 = some l := ⟨_, rfl⟩
  obtain ⟨-, -, -, -, hmeant, hcount, -⟩ := fates sharedLoop (.remove 0 (some 1)) later
  obtain ⟨-, -, -, -, -, -, hnever, -⟩ := fates sharedLoop (.drop 0) later
  obtain ⟨-, -, -, -, -, -, -, hquit⟩ := fates sharedLoop (.quit 0) later
  have hone : w.entries.removed.length + (w.roster.scheduler.remove ⟨some 0, 1⟩ (some 1)).1 = 1 := by
    decide +kernel
  exact ⟨htwo, hother, hrunner, (hcount 0 (some 1) _ rfl hrunner).trans hone,
    (hmeant 0 (some 1) rfl other hother).mpr ⟨hwaits, rfl⟩, hnever 0 rfl two htwo rfl hran,
    by decide +kernel, (hquit 0 l rfl present).2.2.1⟩

end Ledger
end Playback
