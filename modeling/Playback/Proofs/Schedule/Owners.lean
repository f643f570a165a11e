import Playback.Proofs.Schedule.Ledger

/-!
# Whose task it is

A loop tells the tasks of its runners apart by the ids of the runners. `Ledger.Owned` says why that is as
good as telling the runners themselves apart, whatever runners are made, copied, reset and dropped: an id is
given once in a loop, so a runner that still has its loop means by its id the tasks that were posted through
it, and no others. Hence (`Owned.request`):

> a request takes back those tasks that were posted through the same runner, and have the id if one is given.
-/

namespace Playback

variable {α : Type}

/-- Whether a runner's request to take back tasks, of one id or of all, means a task: it was posted through
this runner. -/
def Posting.meantBy (p : Posting α) (runner : Nat) (taskId : Option Nat) : Bool :=
  p.owner == some runner && taskId.all (· == p.taskId)

namespace Roster

variable {r r' : Roster α} {a : ScheduleAct α} {e : Entries α}

/-! ## Runners -/

theorem runner?_lt {k : Nat} {t : TaskRunner} (h : r.runner? k = some t) : k < r.runners.length := by
  unfold runner? at h
  cases hk : r.runners[k]? with
  | none => rw [hk] at h; cases h
  | some t' => exact (List.getElem?_eq_some_iff.mp hk).1

theorem Deed.runners_length (h : Deed r a r' e) : r.runners.length ≤ r'.runners.length := by
  cases h with
  | attaches | detaches => simp
  | retires => simp
  | takesBack _ _ _ _ _ _ _ _ _ _ kept =>
    rcases kept with rfl | ⟨-, t, -, rfl⟩
    · exact Nat.le_refl _
    · simp
  | _ => exact Nat.le_refl _

theorem of_getElem?_snoc {runners : List (Option TaskRunner)} {o : Option TaskRunner} {k : Nat} {t : TaskRunner}
    (h : (runners ++ [o])[k]?.join = some t) : runners[k]?.join = some t ∨ k = runners.length ∧ o = some t := by
  by_cases hk : k < runners.length
  · rw [List.getElem?_append_left hk] at h
    exact .inl h
  · rw [List.getElem?_append_right (Nat.le_of_not_lt hk)] at h
    cases hd : k - runners.length with
    | zero =>
      rw [hd] at h
      exact .inr ⟨by omega, h⟩
    | succ d => simp [hd] at h

theorem of_getElem?_set {runners : List (Option TaskRunner)} {o : Option TaskRunner} {k k₀ : Nat}
    {t : TaskRunner} (h : (runners.set k₀ o)[k]?.join = some t) :
    runners[k]?.join = some t ∨ o = some t := by
  rw [List.getElem?_set] at h
  split at h
  next =>
    split at h
    next => exact .inr h
    next => cases h
  next => exact .inl h

/-- A runner with a loop was there before, or was made now, with a new id. -/
theorem Deed.runner?_made (h : Deed r a r' e) {k i id : Nat} (hk : r'.runner? k = some ⟨some i, id⟩) :
    r.runner? k = some ⟨some i, id⟩ ∨ k = r.runners.length ∧ ∃ l l', r.loop? i = some l ∧
      id = l.runners + 1 ∧ r'.loop? i = some l' ∧ l'.runners = id := by
  have hset (k₀ : Nat) (t : Option TaskRunner) (loopless : ∀ u, t = some u → u.loop = none)
      (hk : (r.runners.set k₀ t)[k]?.join = some ⟨some i, id⟩) : r.runner? k = some ⟨some i, id⟩ := by
    rcases of_getElem?_set hk with hold | hnew
    · exact hold
    · cases loopless _ hnew
  cases h with
  | attaches _ i₀ l _ present =>
    rcases of_getElem?_snoc hk with hold | ⟨hlast, hnew⟩
    · exact .inl hold
    · cases hnew
      exact .inr ⟨hlast, l, l.attach.2, present, rfl, loop?_setLoop_self present _, rfl⟩
  | detaches =>
    rcases of_getElem?_snoc hk with hold | ⟨-, hnew⟩
    · exact .inl hold
    · cases hnew
  | takesBack _ k₀ _ _ _ _ _ _ _ _ kept =>
    rcases kept with rfl | ⟨-, t, loopless, rfl⟩
    · exact .inl hk
    · exact .inl (hset k₀ t loopless hk)
  | retires _ k₀ t _ _ loopless => exact .inl (hset k₀ t loopless hk)
  | _ => exact .inl hk

/-- A runner keeps its loop, unless all its tasks are taken back. -/
theorem Deed.runner?_kept (h : Deed r a r' e) {k i id : Nat} (hk : r.runner? k = some ⟨some i, id⟩) :
    r'.runner? k = some ⟨some i, id⟩ ∨ a.request? = some (k, none) := by
  have hset (k₀ : Nat) (t : Option TaskRunner) (asked : a.request? = some (k₀, none)) :
      (r.runners.set k₀ t)[k]?.join = some ⟨some i, id⟩ ∨ a.request? = some (k, none) := by
    by_cases hne : k₀ = k
    · exact .inr (hne ▸ asked)
    · rw [List.getElem?_set_ne hne]
      exact .inl hk
  cases h with
  | attaches | detaches =>
    have hsnoc (o : Option TaskRunner) : (r.runners ++ [o])[k]? = r.runners[k]? :=
      List.getElem?_append_left (runner?_lt hk)
    exact .inl ((congrArg Option.join (hsnoc _)).trans hk)
  | takesBack _ k₀ _ _ _ _ _ asked _ _ kept =>
    rcases kept with rfl | ⟨rfl, t, -, rfl⟩
    · exact .inl hk
    · exact hset k₀ t asked
  | retires _ k₀ t asked => exact hset k₀ t asked
  | _ => exact .inl hk

/-- A task is posted through a runner under its id, or through none. -/
theorem Deed.posted (h : Deed r a r' e) {p : Posting α} (hp : p ∈ e.accepted) :
    r'.runners = r.runners ∧ ((p.owner = none ∧ p.runnerId = none) ∨ ∃ k id,
      p.owner = some k ∧ p.runnerId = some id ∧ r.runner? k = some ⟨some p.loop, id⟩) := by
  cases h with
  | posts _ q l _ _ _ _ _ owned =>
    rw [List.mem_singleton.mp hp]
    exact ⟨rfl, owned⟩
  | _ => cases hp

/-- What is taken back waited in the loop of the runner, under its id. -/
theorem Deed.removed (h : Deed r a r' e) {x : Removal α} (hx : x ∈ e.removed) :
    x.ticket ∈ r.pending ∧ ∃ id, r.runner? x.runner = some ⟨some x.ticket.loop, id⟩ ∧
      x.ticket.message.matchedBy id x.taskId = true := by
  cases h with
  | takesBack _ k i id l taskId _ _ present attached =>
    obtain ⟨m, hm, rfl⟩ := List.mem_map.mp hx
    obtain ⟨hwaits, hmatched⟩ := List.mem_filter.mp hm
    exact ⟨mem_pending.mpr ⟨l, present, hwaits⟩, id, attached, hmatched⟩
  | _ => cases hx

/-- What is dropped waited in a loop that has ended now. -/
theorem Deed.dropped (h : Deed r a r' e) {t : Ticket α} (ht : t ∈ e.dropped) :
    ∃ l, r'.loop? t.loop = some l ∧ l.queue.quitting = true := by
  cases h with
  | quits i l present =>
    obtain ⟨m, -, rfl⟩ := List.mem_map.mp ht
    exact ⟨_, loop?_setLoop_self present _, rfl⟩
  | _ => cases ht

end Roster

namespace Ledger

/-- Tasks belong to the runner they were posted through, and its id says so as long as it has its loop. -/
structure Owned (w : Ledger α) : Prop where
  balanced : w.Balanced
  /-- A runner got its id from its loop, -/
  given : ∀ k i id, w.roster.runner? k = some ⟨some i, id⟩ → ∃ l, w.roster.loop? i = some l ∧ id ≤ l.runners
  /-- and no other runner has it. -/
  distinct : ∀ k k' i id, w.roster.runner? k = some ⟨some i, id⟩ → w.roster.runner? k' = some ⟨some i, id⟩ →
    k = k'
  used : ∀ p ∈ w.entries.accepted, ∀ id, p.runnerId = some id →
    ∃ l, w.roster.loop? p.loop = some l ∧ id ≤ l.runners
  known : ∀ p ∈ w.entries.accepted, ∀ k, p.owner = some k → k < w.roster.runners.length
  owner : ∀ p ∈ w.entries.accepted, ∀ k i id, w.roster.runner? k = some ⟨some i, id⟩ →
    (p.owner = some k ↔ p.loop = i ∧ p.runnerId = some id)
  /-- While a task waits its runner has its loop. -/
  attached : ∀ p ∈ w.entries.accepted, p.ticket ∈ w.pending → ∀ k, p.owner = some k →
    ∃ id, w.roster.runner? k = some ⟨some p.loop, id⟩
  removed : ∀ x ∈ w.entries.removed, ∃ p ∈ w.entries.accepted,
    p.ticket = x.ticket ∧ p.meantBy x.runner x.taskId = true
  dropped : ∀ t ∈ w.entries.dropped, ∃ l, w.roster.loop? t.loop = some l ∧ l.queue.quitting = true

theorem empty_owned : (empty : Ledger α).Owned := by
  have hnone (k : Nat) : (empty : Ledger α).roster.runner? k = none := rfl
  refine ⟨empty_balanced, ?_, ?_, ?_, ?_, ?_, ?_, ?_, ?_⟩
  · intro k i id hk
    rw [hnone] at hk
    cases hk
  · intro k k' i id hk
    rw [hnone] at hk
    cases hk
  all_goals exact fun _ hp => nomatch hp

namespace Owned

variable {w : Ledger α}

theorem meantBy_iff (h : w.Owned) {p : Posting α} (hp : p ∈ w.entries.accepted) {k i id : Nat}
    (attached : w.roster.runner? k = some ⟨some i, id⟩) (taskId : Option Nat) :
    p.meantBy k taskId = true ↔ p.loop = i ∧ p.ticket.message.matchedBy id taskId = true := by
  have howner := h.owner p hp k i id attached
  simp only [Posting.meantBy, Message.matchedBy, Posting.ticket, Bool.and_eq_true, beq_iff_eq, howner,
    and_assoc]

/-- A runner without a loop has no task that waits. -/
theorem not_meant (h : w.Owned) {k : Nat} (idle : w.roster.Idle k) {p : Posting α}
    (hp : p ∈ w.entries.accepted) (waits : p.ticket ∈ w.pending) (taskId : Option Nat) :
    p.meantBy k taskId = false := by
  refine Bool.eq_false_iff.mpr fun hmeant => ?_
  have howner : p.owner = some k := by
    simp only [Posting.meantBy, Bool.and_eq_true, beq_iff_eq] at hmeant
    exact hmeant.1
  obtain ⟨id, hk⟩ := h.attached p hp waits k howner
  obtain ⟨l, hl, -⟩ := h.given k p.loop id hk
  rw [idle p.loop id hk] at hl
  cases hl

/-- A request takes back the tasks that it means, and no others. -/
theorem request (h : w.Owned) {a : ScheduleAct α} {k : Nat} {taskId : Option Nat}
    (asked : a.request? = some (k, taskId)) {p : Posting α} (hp : p ∈ w.entries.accepted) :
    p.ticket ∈ (w.act a).pending ↔ p.ticket ∈ w.pending ∧ p.meantBy k taskId = false := by
  -- a runner without a loop means nothing that waits
  have hidle (idle : w.roster.Idle k) :
      p.ticket ∈ w.pending ↔ p.ticket ∈ w.pending ∧ p.meantBy k taskId = false :=
    ⟨fun hwaits => ⟨hwaits, h.not_meant idle hp hwaits taskId⟩, And.left⟩
  have hdeed := w.roster.act_deed a
  show p.ticket ∈ (w.roster.act a).pending ↔ _
  generalize w.roster.act a = r', w.roster.entries a = e at hdeed
  cases hdeed with
  | nothing _ idle => exact hidle (idle k taskId asked)
  | retires _ k₀ t asked' idle =>
    rw [asked] at asked'
    cases asked'
    exact hidle idle
  | takesBack _ k₀ i id l taskId₀ _ asked' present attached =>
    rw [asked] at asked'
    cases asked'
    have hmeant := h.meantBy_iff hp attached taskId
    show p.ticket ∈ (w.roster.setLoop i _).pending ↔ _
    rw [Roster.mem_pending, show w.pending = w.roster.pending from rfl, Roster.mem_pending]
    by_cases hloop : i = p.loop
    · subst hloop
      have hsame : p.meantBy k taskId = p.ticket.message.matchedBy id taskId :=
        Bool.eq_iff_iff.mpr (hmeant.trans (and_iff_right rfl))
      rw [show p.ticket.loop = p.loop from rfl, Roster.loop?_setLoop_self present, present, hsame]
      simp only [Option.some.injEq, exists_eq_left', List.mem_filter, Bool.not_eq_true']
    · rw [show p.ticket.loop = p.loop from rfl, Roster.loop?_setLoop_ne hloop]
      have hother : p.meantBy k taskId = false := Bool.eq_false_iff.mpr fun hm => hloop (hmeant.mp hm).1.symm
      simp only [hother, and_true]
  | waits | adds | executes | quits => cases asked
  | attaches _ _ _ other | detaches _ other | posts _ _ _ other | marks _ _ _ _ other =>
    rw [other] at asked
    cases asked

/-- A task that waits, and has waited before, is none that was put in now. -/
theorem waited (h : w.Owned) {a : ScheduleAct α} {p : Posting α} (hp : p ∈ w.entries.accepted)
    (waits : p.ticket ∈ (w.act a).pending) : p.ticket ∈ w.pending := by
  rcases mem_pending_act waits with hold | ⟨q, hq, hticket⟩
  · exact hold
  · have hnodup := (h.balanced.act a).nodup
    rw [show (w.act a).entries.accepted = w.entries.accepted ++ (w.roster.entries a).accepted from rfl,
      List.map_append, List.nodup_append] at hnodup
    exact absurd hticket.symm
      (hnodup.2.2 _ (List.mem_map.mpr ⟨p, hp, rfl⟩) _ (List.mem_map.mpr ⟨q, hq, rfl⟩))

theorem act_attached (h : w.Owned) (a : ScheduleAct α) :
    ∀ p ∈ (w.act a).entries.accepted, p.ticket ∈ (w.act a).pending → ∀ k, p.owner = some k →
      ∃ id, (w.act a).roster.runner? k = some ⟨some p.loop, id⟩ := by
  have hdeed := w.roster.act_deed a
  intro p hp waits k howner
  rcases List.mem_append.mp hp with hold | hnew
  · obtain ⟨id, hk⟩ := h.attached p hold (h.waited hold waits) k howner
    rcases hdeed.runner?_kept hk with hk' | asked
    · exact ⟨id, hk'⟩
    · -- a runner that loses its loop takes its tasks back
      have hother := ((h.request asked hold).mp waits).2
      simp [Posting.meantBy, howner] at hother
  · obtain ⟨hsame, ⟨hnone, -⟩ | ⟨k', id, howner', -, hk⟩⟩ := hdeed.posted hnew
    · rw [hnone] at howner
      cases howner
    · rw [howner'] at howner
      cases howner
      exact ⟨id, by rw [← hk]; exact congrArg (fun runners => runners[k]?.join) hsame⟩

theorem act_owner (h : w.Owned) (a : ScheduleAct α) :
    ∀ p ∈ (w.act a).entries.accepted, ∀ k i id, (w.act a).roster.runner? k = some ⟨some i, id⟩ →
      (p.owner = some k ↔ p.loop = i ∧ p.runnerId = some id) := by
  have hdeed := w.roster.act_deed a
  intro p hp k i id hk
  rcases List.mem_append.mp hp with hold | hnew
  · rcases hdeed.runner?_made hk with hk | ⟨hlast, l, -, hl, hid, -⟩
    · exact h.owner p hold k i id hk
    · -- a new runner, with a new id, owns nothing
      refine iff_of_false (fun howner => ?_) (fun ⟨hloop, hused⟩ => ?_)
      · have := h.known p hold k howner
        omega
      · obtain ⟨l', hl', hle⟩ := h.used p hold id hused
        rw [hloop, hl] at hl'
        cases hl'
        omega
  · obtain ⟨hsame, howned⟩ := hdeed.posted hnew
    replace hk : w.roster.runner? k = some ⟨some i, id⟩ := by
      rw [← hk]
      exact congrArg (fun runners => runners[k]?.join) hsame.symm
    obtain ⟨hnone, hnone'⟩ | ⟨k', id', howner, hid, hk'⟩ := howned
    · simp [hnone, hnone']
    · rw [howner, hid]
      refine ⟨fun heq => ?_, fun ⟨hloop, heq⟩ => ?_⟩
      · cases heq
        rw [hk] at hk'
        cases hk'
        exact ⟨rfl, rfl⟩
      · cases heq
        rw [hloop] at hk'
        rw [h.distinct k' k i id hk' hk]

theorem act_removed (h : w.Owned) (a : ScheduleAct α) :
    ∀ x ∈ (w.act a).entries.removed, ∃ p ∈ (w.act a).entries.accepted,
      p.ticket = x.ticket ∧ p.meantBy x.runner x.taskId = true := by
  intro x hx
  rcases List.mem_append.mp hx with hold | hnew
  · obtain ⟨p, hp, hmeant⟩ := h.removed x hold
    exact ⟨p, List.mem_append_left _ hp, hmeant⟩
  · obtain ⟨hwaits, id, attached, hmatched⟩ := (w.roster.act_deed a).removed hnew
    obtain ⟨p, hp, hticket⟩ := h.balanced.mem_accepted (List.mem_append_right _ hwaits)
    refine ⟨p, List.mem_append_left _ hp, hticket, (h.meantBy_iff hp attached x.taskId).mpr ⟨?_, ?_⟩⟩
    · exact congrArg Ticket.loop hticket
    · rw [hticket]
      exact hmatched

theorem act (h : w.Owned) (a : ScheduleAct α) : (w.act a).Owned where
  balanced := h.balanced.act a
  given := fun k i id hk => by
    rcases (w.roster.act_deed a).runner?_made hk with hk | ⟨-, -, l', -, -, hl', hid⟩
    · obtain ⟨l, hl, hle⟩ := h.given k i id hk
      obtain ⟨l', hl', advances⟩ := (w.roster.act_deed a).present hl
      exact ⟨l', hl', Nat.le_trans hle advances.runners⟩
    · exact ⟨l', hl', Nat.le_of_eq hid.symm⟩
  distinct := fun k k' i id hk hk' => by
    -- a new id is none that was given before
    have hnew {k : Nat} {l : Loop α} (hk : w.roster.runner? k = some ⟨some i, id⟩)
        (hl : w.roster.loop? i = some l) : id ≠ l.runners + 1 := by
      obtain ⟨l', hl', hle⟩ := h.given k i id hk
      rw [hl] at hl'
      cases hl'
      omega
    rcases (w.roster.act_deed a).runner?_made hk with hk | ⟨hlast, l, -, hl, hid, -⟩
    · rcases (w.roster.act_deed a).runner?_made hk' with hk' | ⟨-, l, -, hl, hid, -⟩
      · exact h.distinct k k' i id hk hk'
      · exact absurd hid (hnew hk hl)
    · rcases (w.roster.act_deed a).runner?_made hk' with hk' | ⟨hlast', -⟩
      · exact absurd hid (hnew hk' hl)
      · rw [hlast, hlast']
  used := fun p hp id hid => by
    have hgrown {l : Loop α} (hl : w.roster.loop? p.loop = some l) (hle : id ≤ l.runners) :
        ∃ l, (w.act a).roster.loop? p.loop = some l ∧ id ≤ l.runners := by
      obtain ⟨l', hl', advances⟩ := (w.roster.act_deed a).present hl
      exact ⟨l', hl', Nat.le_trans hle advances.runners⟩
    rcases List.mem_append.mp hp with hold | hnew
    · obtain ⟨l, hl, hle⟩ := h.used p hold id hid
      exact hgrown hl hle
    · obtain ⟨-, ⟨-, hnone⟩ | ⟨k, id', -, hid', hk⟩⟩ := (w.roster.act_deed a).posted hnew
      · rw [hnone] at hid
        cases hid
      · rw [hid'] at hid
        cases hid
        obtain ⟨l, hl, hle⟩ := h.given k p.loop id hk
        exact hgrown hl hle
  known := fun p hp k howner => by
    refine Nat.lt_of_lt_of_le ?_ (w.roster.act_deed a).runners_length
    rcases List.mem_append.mp hp with hold | hnew
    · exact h.known p hold k howner
    · obtain ⟨-, ⟨hnone, -⟩ | ⟨k', id, howner', -, hk⟩⟩ := (w.roster.act_deed a).posted hnew
      · rw [hnone] at howner
        cases howner
      · rw [howner'] at howner
        cases howner
        exact Roster.runner?_lt hk
  owner := h.act_owner a
  attached := h.act_attached a
  removed := h.act_removed a
  dropped := fun t ht => by
    rcases List.mem_append.mp ht with hold | hnew
    · obtain ⟨l, hl, hquit⟩ := h.dropped t hold
      obtain ⟨l', hl', advances⟩ := (w.roster.act_deed a).present hl
      exact ⟨l', hl', advances.quitting hquit⟩
    · exact (w.roster.act_deed a).dropped hnew

theorem acts (h : w.Owned) (as : List (ScheduleAct α)) : (w.acts as).Owned :=
  List.foldlRecOn as Ledger.act h fun _ hw a _ => hw.act a

end Owned

end Ledger
end Playback
