import Mathlib.Data.List.Chain
import Playback.Proofs.PacketQueue.History

/-!
# Waiting for an entry

A reader that waits looks at the queue, gives notice if nothing is there, looks again, and only then sleeps. It lets
go of the queue whenever it gives notice and for as long as it sleeps; whoever is notified, and everyone else, may
then do to the queue what they like. `Reader.turns` is such a call against a script of what they do.

The law is `sleeps_only_on_nothing`: no call sleeps while there is something for it. Two things carry it. Between the
second look and the sleep nobody comes in, so that a sleeping reader knows how often readers had been woken when there
was nothing (`Undisturbed`); and whoever brings an entry or aborts the queue wakes the readers (`apply_wakes`).
-/

namespace Playback

namespace PacketQueue

variable {q : PacketQueue}

/-- The queue after some operations. -/
def after (q : PacketQueue) (ops : List QueueOp) : PacketQueue :=
  ops.foldl (fun q op => (q.apply op).2) q

/-- There is nothing to be had, and no reason to give up. -/
def HasNothing (q : PacketQueue) : Prop :=
  q.aborted = false ∧ q.entries = []

/-- Where there was nothing, there is nothing afterwards, unless the readers are woken. -/
def Wakes (q q' : PacketQueue) : Prop :=
  q'.wakeups = q.wakeups + 1 ∨ (q'.wakeups = q.wakeups ∧ (q.HasNothing → q'.HasNothing))

theorem putItem_wakes (q : PacketQueue) (item : QueueItem) : q.Wakes (q.putItem item).2 := by
  unfold putItem
  split
  next => exact .inr ⟨rfl, id⟩
  next => exact .inl rfl

theorem look_wakes (q : PacketQueue) (notified : Bool) : q.Wakes (q.look notified).2 := by
  rcases hentries : q.entries with _ | ⟨e, rest⟩
  · have hsame : (q.look notified).2 = q := by
      unfold look pop
      rw [hentries]
      split <;> rfl
    rw [hsame]
    exact .inr ⟨rfl, id⟩
  · refine .inr ⟨?_, fun h => by cases hentries.symm.trans h.2⟩
    unfold look pop
    rw [hentries]
    split <;> rfl

theorem take_wakes (q : PacketQueue) : q.Wakes q.take.2 := by
  have hlook := q.look_wakes false
  unfold take
  split <;> next heq => rwa [heq] at hlook

/-- Whoever brings an entry or aborts the queue wakes the readers. -/
theorem apply_wakes (q : PacketQueue) (op : QueueOp) : q.Wakes (q.apply op).2 := by
  cases op with
  | start | abort | signal => exact .inl rfl
  | put p => exact q.putItem_wakes (.packet p)
  | putBoundary => exact q.putItem_wakes .boundary
  | putEndOfStream => exact q.putItem_wakes .endOfStream
  | beginGeneration =>
    show q.Wakes q.beginGeneration.2
    unfold beginGeneration
    split
    next => exact .inr ⟨rfl, id⟩
    next => exact .inl rfl
  | flush => exact .inr ⟨rfl, fun h => ⟨h.1, rfl⟩⟩
  | take => exact q.take_wakes

/-- There is nothing unless the readers were woken since. -/
structure Undisturbed (q : PacketQueue) (since : Nat) : Prop where
  past : since ≤ q.wakeups
  nothing : since = q.wakeups → q.HasNothing

theorem Undisturbed.wakes {q' : PacketQueue} {since : Nat} (h : q.Undisturbed since) (wakes : q.Wakes q') :
    q'.Undisturbed since := by
  have hpast := h.past
  rcases wakes with hwoken | ⟨hsame, hnothing⟩
  · exact ⟨by omega, fun hsince => by omega⟩
  · exact ⟨by omega, fun hsince => hnothing (h.nothing (by omega))⟩

theorem Undisturbed.after {since : Nat} (h : q.Undisturbed since) (ops : List QueueOp) :
    (q.after ops).Undisturbed since :=
  List.foldlRecOn (motive := fun q : PacketQueue => q.Undisturbed since) ops _ h
    fun q hq op _ => hq.wakes (q.apply_wakes op)

end PacketQueue

/-! ## Calls -/

/-- What a reader does at once, without letting go of the queue in between. -/
structure ReaderTurn where
  reader : Reader
  /-- The queue as the reader saw it. -/
  saw : PacketQueue
  outcome : ReaderStep
  /-- The queue as the reader left it. -/
  left : PacketQueue

namespace ReaderTurn

/-- The reader is awake and looks at the queue. -/
def Looks (t : ReaderTurn) : Prop :=
  ∃ notified, t.reader = .looking notified

/-- The reader gives notice. -/
def Notifies (t : ReaderTurn) : Prop :=
  ∃ next, t.outcome = .notify next

/-- The reader begins to sleep. -/
def FallsAsleep (t : ReaderTurn) : Prop :=
  t.Looks ∧ ∃ since, t.outcome = .go (.asleep since)

/-- What a reader does in a turn hangs on what it sees. -/
structure Lawful (t : ReaderTurn) : Prop where
  notifies : t.Notifies → t.Looks ∧ t.saw.HasNothing
  fallsAsleep : t.FallsAsleep → t.saw.HasNothing ∧ t.outcome = .go (.asleep t.saw.wakeups)
  /-- A sleeping reader wakes up, or sleeps on. -/
  sleeps : ¬ t.Looks → t.outcome = .go .fresh ∨ t.outcome = .go t.reader ∧ t.saw.HasNothing
  givesUp : t.outcome = .done .aborted ↔ t.Looks ∧ t.saw.aborted = true
  takes : ∀ e, t.outcome = .done (.entry e) ↔
    t.Looks ∧ t.saw.aborted = false ∧ t.saw.entries.head? = some e
  /-- Who waits is not told that the queue is empty. -/
  waits : t.outcome ≠ .done .empty
  taken : ∀ e, t.outcome = .done (.entry e) →
    t.saw.entries = e :: t.left.entries ∧ t.saw.pop = (some e, t.left)
  kept : (∀ e, t.outcome ≠ .done (.entry e)) → t.left = t.saw

end ReaderTurn

namespace Reader

def turn (r : Reader) (q : PacketQueue) : ReaderTurn :=
  ⟨r, q, (r.step q).1, (r.step q).2⟩

/-- The turns of a reader until it has an answer, or until the script ends of what others do whenever it lets go of
the queue. -/
def turns (r : Reader) (q : PacketQueue) : List (List QueueOp) → List ReaderTurn
  | [] => [r.turn q]
  | ops :: script =>
    r.turn q :: match (r.turn q).outcome with
      | .go next | .notify next => next.turns ((r.turn q).left.after ops) script
      | .done _ => []

/-- What a reader does in a turn, by what it sees. -/
inductive Acts : Reader → PacketQueue → ReaderStep → PacketQueue → Prop where
  | sleepOn {q : PacketQueue} : Acts (.asleep q.wakeups) q (.go (.asleep q.wakeups)) q
  | wakeUp {q : PacketQueue} {since : Nat} (woken : since ≠ q.wakeups) : Acts (.asleep since) q (.go fresh) q
  | giveUp {q : PacketQueue} (notified : Bool) (aborted : q.aborted = true) :
      Acts (.looking notified) q (.done .aborted) q
  | take {q q' : PacketQueue} (notified : Bool) {e : QueueEntry} (running : q.aborted = false)
      (first : q.entries = e :: q'.entries) (popped : q.pop = (some e, q')) :
      Acts (.looking notified) q (.done (.entry e)) q'
  | notify {q : PacketQueue} (nothing : q.HasNothing) : Acts (.looking false) q (.notify (.looking true)) q
  | sleep {q : PacketQueue} (nothing : q.HasNothing) : Acts (.looking true) q (.go (.asleep q.wakeups)) q

theorem step_acts (r : Reader) (q : PacketQueue) : r.Acts q (r.step q).1 (r.step q).2 := by
  cases r with
  | asleep since =>
    by_cases hsince : since = q.wakeups
    · subst hsince
      have hstep : (asleep q.wakeups).step q = (.go (.asleep q.wakeups), q) := by simp [step]
      rw [hstep]
      exact .sleepOn
    · have hstep : (asleep since).step q = (.go fresh, q) := by simp [step, hsince]
      rw [hstep]
      exact .wakeUp hsince
  | looking notified =>
    cases haborted : q.aborted with
    | true =>
      have hstep : (looking notified).step q = (.done .aborted, q) := by
        simp [step, PacketQueue.look, haborted]
      rw [hstep]
      exact .giveUp notified haborted
    | false =>
      cases hentries : q.entries with
      | nil =>
        cases notified with
        | false =>
          have hstep : (looking false).step q = (.notify (.looking true), q) := by
            simp [step, PacketQueue.look, PacketQueue.pop, haborted, hentries]
          rw [hstep]
          exact .notify ⟨haborted, hentries⟩
        | true =>
          have hstep : (looking true).step q = (.go (.asleep q.wakeups), q) := by
            simp [step, PacketQueue.look, PacketQueue.pop, haborted, hentries]
          rw [hstep]
          exact .sleep ⟨haborted, hentries⟩
      | cons e rest =>
        have hpop : q.pop = (some e, q.pop.2) := by simp [PacketQueue.pop, hentries]
        have hstep : (looking notified).step q = (.done (.entry e), q.pop.2) := by
          simp [step, PacketQueue.look, PacketQueue.pop, haborted, hentries]
        rw [hstep]
        exact .take notified haborted (by simp [PacketQueue.pop, hentries]) hpop

/-- A reader that sleeps has missed nothing. -/
def Rests (r : Reader) (q : PacketQueue) : Prop :=
  ∀ since, r = .asleep since → q.Undisturbed since

theorem Acts.lawful {t : ReaderTurn} (h : t.reader.Acts t.saw t.outcome t.left) (rests : t.reader.Rests t.saw) :
    t.Lawful := by
  obtain ⟨reader, saw, outcome, left⟩ := t
  dsimp only at h rests
  cases h with
  | sleepOn =>
    have hnothing := (rests _ rfl).nothing rfl
    constructor <;> simp [ReaderTurn.Notifies, ReaderTurn.FallsAsleep, ReaderTurn.Looks, hnothing]
  | wakeUp woken => constructor <;> simp [ReaderTurn.Notifies, ReaderTurn.FallsAsleep, ReaderTurn.Looks]
  | giveUp notified aborted =>
    constructor <;> simp [ReaderTurn.Notifies, ReaderTurn.FallsAsleep, ReaderTurn.Looks, aborted]
  | take notified running first popped =>
    constructor <;> simp [ReaderTurn.Notifies, ReaderTurn.FallsAsleep, ReaderTurn.Looks, running, first, popped]
  | notify nothing =>
    constructor <;> simp [ReaderTurn.Notifies, ReaderTurn.FallsAsleep, ReaderTurn.Looks, nothing, nothing.1, nothing.2]
  | sleep nothing =>
    constructor <;> simp [ReaderTurn.Notifies, ReaderTurn.FallsAsleep, ReaderTurn.Looks, nothing, nothing.1, nothing.2]

/-- When a reader goes on, whatever others do first, it has missed nothing. -/
theorem Acts.rests {r next : Reader} {q q' : PacketQueue} {outcome : ReaderStep} (h : r.Acts q outcome q')
    (rests : r.Rests q) (goesOn : outcome = .go next ∨ outcome = .notify next) (ops : List QueueOp) :
    next.Rests (q'.after ops) := by
  intro since hasleep
  subst hasleep
  cases h with
  | sleepOn =>
    obtain ⟨⟨⟩⟩ | ⟨⟨⟩⟩ := goesOn
    exact (rests _ rfl).after ops
  | sleep nothing =>
    obtain ⟨⟨⟩⟩ | ⟨⟨⟩⟩ := goesOn
    exact PacketQueue.Undisturbed.after ⟨Nat.le_refl _, fun _ => nothing⟩ ops
  | wakeUp | giveUp | take | notify => obtain ⟨⟨⟩⟩ | ⟨⟨⟩⟩ := goesOn

/-- One turn comes after another. -/
def Follows (t t' : ReaderTurn) : Prop :=
  t.outcome = .go t'.reader ∨ t.outcome = .notify t'.reader

/-- What holds of all turns of a call. -/
theorem turns_rest {r : Reader} {q : PacketQueue} (h : r.Rests q) (script : List (List QueueOp)) :
    ∀ t ∈ r.turns q script, t.reader.Acts t.saw t.outcome t.left ∧ t.reader.Rests t.saw := by
  induction script generalizing r q with
  | nil =>
    intro t ht
    obtain rfl : t = r.turn q := List.mem_singleton.mp ht
    exact ⟨r.step_acts q, h⟩
  | cons ops script ih =>
    intro t ht
    unfold turns at ht
    rcases List.mem_cons.mp ht with rfl | ht
    · exact ⟨r.step_acts q, h⟩
    · split at ht
      next next hgo => exact ih ((r.step_acts q).rests h (.inl hgo) ops) t ht
      next next hnotify => exact ih ((r.step_acts q).rests h (.inr hnotify) ops) t ht
      next => cases ht

theorem turns_head (r : Reader) (q : PacketQueue) (script : List (List QueueOp)) :
    ∃ rest, r.turns q script = r.turn q :: rest := by
  cases script with
  | nil => exact ⟨[], rfl⟩
  | cons ops script => exact ⟨_, rfl⟩

theorem turns_chain (r : Reader) (q : PacketQueue) (script : List (List QueueOp)) :
    (r.turns q script).IsChain Follows := by
  induction script generalizing r q with
  | nil => exact .singleton _
  | cons ops script ih =>
    have hjoin {next : Reader} (hgoes : Follows (r.turn q) (next.turn ((r.turn q).left.after ops))) :
        (r.turn q :: next.turns ((r.turn q).left.after ops) script).IsChain Follows := by
      obtain ⟨rest, hrest⟩ := next.turns_head ((r.turn q).left.after ops) script
      have hchain := ih next ((r.turn q).left.after ops)
      rw [hrest] at hchain ⊢
      exact .cons_cons hgoes hchain
    unfold turns
    split
    next next hgo => exact hjoin (.inl hgo)
    next next hnotify => exact hjoin (.inr hnotify)
    next => exact .singleton _

/-- The second look of a call comes directly after the notice. -/
theorem notice_before {q : PacketQueue} {script : List (List QueueOp)} {before after : List ReaderTurn}
    {t : ReaderTurn} (hts : fresh.turns q script = before ++ t :: after) (second : t.reader = .looking true) :
    ∃ before' notice, before = before' ++ [notice] ∧ notice.Notifies := by
  rcases List.eq_nil_or_concat before with rfl | ⟨before', notice, rfl⟩
  · obtain ⟨rest, hrest⟩ := fresh.turns_head q script
    obtain ⟨rfl, -⟩ := List.cons.inj (hrest.symm.trans hts)
    cases second
  · refine ⟨before', notice, List.concat_eq_append, ?_⟩
    rw [List.concat_eq_append, List.append_assoc] at hts
    have hmem : notice ∈ fresh.turns q script := by rw [hts]; simp
    obtain ⟨hacts, -⟩ := turns_rest (r := fresh) (fun _ h => nomatch h) script notice hmem
    have hgoes : Follows notice t :=
      List.isChain_iff_forall_rel_of_append_cons_cons.mp (fresh.turns_chain q script) hts
    rcases hgoes with hgo | hnotify
    · -- whoever goes on without a notice sleeps or has just woken up
      rw [second] at hgo
      generalize notice.reader = reader, notice.left = left at hacts
      rw [hgo] at hacts
      cases hacts
    · exact ⟨_, hnotify⟩

/-- **No call sleeps while there is something for it.** Whatever the queue holds when a reader comes that waits, and
whatever is done to it whenever the reader lets go of it: the reader gives notice only after a look at an empty queue
that is not aborted. It falls asleep only when, in the turn right after a notice, it again sees the queue empty and not
aborted, and without letting go of it; so that every sleep has a notice of its own. When it sleeps on there is nothing
for it. It gives up exactly if it looks at an aborted queue, whatever that holds; and it gets an entry exactly if it
looks at one that is not aborted, which is the first entry, and takes that and nothing else. Either ends the call. -/
theorem sleeps_only_on_nothing (q : PacketQueue) (script : List (List QueueOp)) :
    let ts := fresh.turns q script
    (∀ t ∈ ts, t.Lawful) ∧
    (∀ before t after, ts = before ++ t :: after → t.FallsAsleep →
      ∃ before' notice, before = before' ++ [notice] ∧ notice.Notifies) ∧
    ∀ before t after d, ts = before ++ t :: after → t.outcome = .done d → after = [] := by
  intro ts
  have hturns : ∀ t ∈ ts, t.reader.Acts t.saw t.outcome t.left ∧ t.reader.Rests t.saw :=
    turns_rest (r := fresh) (fun _ h => nomatch h) script
  refine ⟨fun t ht => (hturns t ht).1.lawful (hturns t ht).2, ?_, ?_⟩
  · rintro before ⟨reader, saw, outcome, left⟩ after hts ⟨⟨notified, hlooks⟩, since, hsleeps⟩
    obtain ⟨hacts, -⟩ := hturns _ (hts ▸ List.mem_append_right _ (List.mem_cons_self ..))
    dsimp only at hlooks hsleeps hacts
    subst hlooks hsleeps
    cases hacts with
    | sleep nothing => exact notice_before hts rfl
  · intro before t after d hts hdone
    cases after with
    | nil => rfl
    | cons next after =>
      have hfollows : Follows t next :=
        List.isChain_iff_forall_rel_of_append_cons_cons.mp (fresh.turns_chain q script) hts
      rcases hfollows with hgo | hnotify
      · cases hdone.symm.trans hgo
      · cases hdone.symm.trans hnotify

/-- A reader that finds nothing twice, sleeps, and is woken by the end of the stream. -/
example :
    (fresh.turns (PacketQueue.new .audio).start.take.2 [[], [], [.putEndOfStream], []]).map (·.reader)
      = [.looking false, .looking true, .asleep 1, .asleep 1, .looking false] := by
  decide

end Reader
end Playback
