import Playback.Decode.Decoder

/-!
# Ends of generations

A decoder delivers the end of a generation to its renderer, which announces it once everything of the
generation is put out. Two fields carry that through: `endSerial`, the generation whose end was delivered
last, and `endReported`, whether an end was announced. Deliveries, new generations, flushes and callbacks
come in any order.

`EndView` is what matters of a renderer, together with an account of what was delivered and announced, and
`EndMove` says what each event may do to it. Four things are preserved by moves:

* `Backed`: no end is announced more often than it was delivered;
* `Once`: no end is announced twice, as long as ends are delivered in the order of their generations;
* `Since`: after the end of the present generation was delivered, and while the generation stays, whether it
  is announced hangs on whether an end was reported before (`Since.announced_iff`);
* `Cleared`: after a flush no end is reported, until that of the present generation is delivered.
-/

namespace Playback

/-- What an event means for the ends of generations. -/
inductive EndEvent where
  /-- A new generation begins. -/
  | restart
  /-- The end of a generation is delivered. -/
  | deliver (serial : Serial)
  | flush
  /-- The renderer looks whether there is an end to announce. -/
  | look
  | other

/-- The generation whose end this is. -/
def ReadResult.end? {Out : Type} : ReadResult Out → Option Serial
  | .endOfStream serial => some serial
  | _ => none

/-- The event of a result that is delivered. -/
def ReadResult.event {Out : Type} (result : ReadResult Out) : EndEvent :=
  match result.end? with
  | some serial => .deliver serial
  | none => .other

/-- What matters of a renderer, with an account of the ends, newest first. -/
structure EndView where
  /-- The present generation. -/
  live : Serial
  /-- The generation whose end was delivered last. -/
  mark : Option Serial
  reported : Bool
  delivered : List Serial
  announced : List Serial

/-- What events may do. -/
inductive EndMove (v : EndView) : EndEvent → EndView → Prop where
  | restart : EndMove v .restart { v with live := v.live + 1 }
  | deliver (serial : Serial) :
      EndMove v (.deliver serial) { v with mark := some serial, delivered := serial :: v.delivered }
  | keep (same : v.mark = some v.live) : EndMove v .flush v
  | drop (other : v.mark ≠ some v.live) : EndMove v .flush { v with mark := none, reported := false }
  | silent : EndMove v .look v
  | announce (due : v.mark = some v.live) (unreported : v.reported = false) :
      EndMove v .look { v with reported := true, announced := v.live :: v.announced }
  | other : EndMove v .other v

/-- Whether an event keeps the present generation and its end. -/
def EndEvent.staysIn (live : Serial) : EndEvent → Bool
  | .restart => false
  | .deliver serial => serial = live
  | _ => true

/-- Whether an event keeps the present generation and does not bring its end. -/
def EndEvent.staysBefore (live : Serial) : EndEvent → Bool
  | .restart => false
  | .deliver serial => serial ≠ live
  | _ => true

namespace EndView

/-- Every announcement is backed by a delivery of its own, and so is an end that is still to be
announced. -/
def Backed (v : EndView) : Prop :=
  ∀ s, v.announced.count s + (if v.mark = some s ∧ v.reported = false then 1 else 0) ≤ v.delivered.count s

theorem Backed.move {v v' : EndView} {e : EndEvent} (h : v.Backed) (move : EndMove v e v') :
    v'.Backed := by
  intro s
  have hs := h s
  cases move with
  | restart | keep | silent | other => exact hs
  | deliver serial =>
    -- the end that may be announced now is the one that was delivered
    show v.announced.count s + (if some serial = some s ∧ v.reported = false then 1 else 0)
      ≤ (serial :: v.delivered).count s
    rw [List.count_cons]
    by_cases heq : serial = s
    · subst heq
      simp only [beq_self_eq_true, if_true]
      split <;> omega
    · rw [if_neg (by simp [heq])]
      omega
  | drop =>
    show v.announced.count s + (if none = some s ∧ false = false then 1 else 0) ≤ v.delivered.count s
    rw [if_neg (by simp)]
    omega
  | announce due unreported =>
    -- the announcement takes the place of the end that was still to be announced
    show (v.live :: v.announced).count s + (if v.mark = some s ∧ true = false then 1 else 0)
      ≤ v.delivered.count s
    rw [if_neg (by simp), List.count_cons]
    by_cases heq : v.live = s
    · rw [if_pos ⟨due.trans (congrArg some heq), unreported⟩] at hs
      simp only [heq, beq_self_eq_true, if_true]
      omega
    · rw [if_neg (by simpa using heq)]
      omega

/-- The ends were delivered in the order of their generations. -/
def InOrder (v : EndView) : Prop :=
  v.delivered.Pairwise (· ≥ ·)

theorem InOrder.of_move {v v' : EndView} {e : EndEvent} (h : v'.InOrder) (move : EndMove v e v') :
    v.InOrder := by
  cases move with
  | deliver => exact (List.pairwise_cons.mp h).2
  | restart | keep | drop | silent | announce | other => exact h

/-- No end was announced twice. Why it cannot happen: an end of the present generation that was announced is
still marked and reported, or a later end was delivered, and then it is not marked again. -/
structure Once (v : EndView) : Prop where
  nodup : v.announced.Nodup
  past : ∀ s ∈ v.announced, s ≤ v.live
  last : ∀ s, v.mark = some s → s ∈ v.delivered ∧ ∀ d ∈ v.delivered, d ≤ s
  closed : v.live ∈ v.announced →
    (v.mark = some v.live ∧ v.reported = true) ∨ ∃ d ∈ v.delivered, v.live < d

theorem Once.not_due {v : EndView} (h : v.Once) (due : v.mark = some v.live)
    (unreported : v.reported = false) : v.live ∉ v.announced := by
  intro hmem
  rcases h.closed hmem with ⟨-, hreported⟩ | ⟨d, hd, hlater⟩
  · rw [hreported] at unreported
    cases unreported
  · exact Nat.not_le_of_lt hlater ((h.last _ due).2 d hd)

theorem Once.move {v v' : EndView} {e : EndEvent} (h : v.Once) (move : EndMove v e v')
    (order : v'.InOrder) : v'.Once := by
  cases move with
  | keep | silent | other => exact h
  | restart =>
    -- the new generation is later than all that were announced
    refine ⟨h.nodup, fun s hs => Nat.le_succ_of_le (h.past s hs), h.last, fun hmem => ?_⟩
    exact absurd (h.past _ hmem) (Nat.not_succ_le_self _)
  | deliver serial =>
    have hlatest : ∀ d ∈ v.delivered, d ≤ serial := (List.pairwise_cons.mp order).1
    refine ⟨h.nodup, h.past, ?_, fun hmem => ?_⟩
    · rintro _ ⟨⟩
      exact ⟨List.mem_cons_self .., List.forall_mem_cons.mpr ⟨Nat.le_refl _, hlatest⟩⟩
    · rcases h.closed hmem with ⟨hmark, hreported⟩ | ⟨d, hd, hlater⟩
      · rcases Nat.eq_or_lt_of_le (hlatest _ (h.last _ hmark).1) with heq | hlater
        · exact .inl ⟨congrArg some heq.symm, hreported⟩
        · exact .inr ⟨serial, List.mem_cons_self .., hlater⟩
      · exact .inr ⟨d, List.mem_cons_of_mem _ hd, hlater⟩
  | drop other =>
    refine ⟨h.nodup, h.past, (fun _ hmark => nomatch hmark), fun hmem => ?_⟩
    rcases h.closed hmem with ⟨hmark, -⟩ | hlater
    · exact absurd hmark other
    · exact .inr hlater
  | announce due unreported =>
    refine ⟨List.nodup_cons.mpr ⟨h.not_due due unreported, h.nodup⟩, ?_, h.last, fun _ => .inl ⟨due, rfl⟩⟩
    exact List.forall_mem_cons.mpr ⟨Nat.le_refl _, h.past⟩

/-- What an account of a run looks like. -/
structure Sound (v : EndView) : Prop where
  backed : v.Backed
  once : v.InOrder → v.Once

theorem Sound.move {v v' : EndView} {e : EndEvent} (h : v.Sound) (move : EndMove v e v') : v'.Sound :=
  ⟨h.backed.move move, fun order => (h.once (order.of_move move)).move move order⟩

theorem new_sound : Sound ⟨0, none, false, [], []⟩ :=
  ⟨fun _ => Nat.le_refl 0, fun _ => ⟨List.nodup_nil, nofun, nofun, nofun⟩⟩

/-- How a view came from one in which the end of the present generation had just been delivered, while the
generation stayed: an end is announced at most once, and only if none was reported before. -/
structure Since (x v : EndView) : Prop where
  live : v.live = x.live
  mark : v.mark = some x.live
  reported : x.reported = true → v.reported = true ∧ v.announced = x.announced
  unreported : x.reported = false →
    (v.reported = false ∧ v.announced = x.announced) ∨
      (v.reported = true ∧ v.announced = x.live :: x.announced)

theorem Since.refl {x : EndView} (h : x.mark = some x.live) : Since x x :=
  ⟨rfl, h, fun hx => ⟨hx, rfl⟩, fun hx => .inl ⟨hx, rfl⟩⟩

theorem Since.move {x v v' : EndView} {e : EndEvent} (h : Since x v) (move : EndMove v e v')
    (stays : e.staysIn x.live = true) : Since x v' := by
  cases move with
  | restart => cases stays
  | keep | silent | other => exact h
  | deliver serial =>
    have hserial : serial = x.live := by simpa [EndEvent.staysIn] using stays
    exact ⟨h.live, congrArg some hserial, h.reported, h.unreported⟩
  | drop other => exact absurd (h.mark.trans (congrArg some h.live.symm)) other
  | announce due unreported =>
    refine ⟨h.live, h.mark, fun hx => ?_, fun hx => ?_⟩
    · rw [(h.reported hx).1] at unreported
      cases unreported
    · rcases h.unreported hx with ⟨-, hsame⟩ | ⟨hreported, -⟩
      · exact .inr ⟨rfl, by rw [hsame, h.live]⟩
      · rw [hreported] at unreported
        cases unreported

/-- A look that finds nothing left announces the end, unless that is done. -/
def look (v : EndView) : EndView :=
  if v.mark = some v.live ∧ v.reported = false then
    { v with reported := true, announced := v.live :: v.announced }
  else v

/-- After a callback, which looks if data has run out, the end is announced if it already was at the time of
its delivery, or if none was reported by then and it has been announced since or data has run out. -/
theorem Since.announced_iff {x v : EndView} (h : Since x v) (out : Bool) :
    x.live ∈ (if out then v.look else v).announced ↔
      x.live ∈ x.announced ∨ (x.reported = false ∧ (x.live ∈ v.announced ∨ out = true)) := by
  cases hx : x.reported with
  | true =>
    obtain ⟨hreported, hsame⟩ := h.reported hx
    cases out <;> simp [EndView.look, hreported, hsame]
  | false =>
    rcases h.unreported hx with ⟨hreported, hsame⟩ | ⟨hreported, hnew⟩
    · cases out with
      | false => simp [hsame]
      | true =>
        have hdue : v.mark = some v.live := h.mark.trans (congrArg some h.live.symm)
        simp [EndView.look, hdue, hreported, h.live]
    · cases out <;> simp [EndView.look, hreported, hnew]

theorem look_move (v : EndView) : EndMove v .look v.look := by
  unfold EndView.look
  split
  next h => exact .announce h.1 h.2
  next => exact .silent

/-- What a callback does that announces an end, or does not. -/
def after (v : EndView) (ended : Bool) : EndView :=
  { v with
    reported := v.reported || ended
    announced := if ended then v.live :: v.announced else v.announced }

/-- A callback announces an end if data has run out, none was reported and the end is the present one. -/
theorem after_eq (v : EndView) (out : Bool) :
    v.after (out && !v.reported && v.mark = some v.live) = if out then v.look else v := by
  obtain ⟨live, mark, reported, delivered, announced⟩ := v
  cases out with
  | false => simp [after]
  | true =>
    cases reported with
    | true => simp [after, EndView.look]
    | false => by_cases hmark : mark = some live <;> simp [after, EndView.look, hmark]

/-- No end of the present generation was delivered, and none is reported. -/
structure Cleared (live : Serial) (v : EndView) : Prop where
  same : v.live = live
  mark : v.mark ≠ some live
  reported : v.reported = false

theorem Cleared.move {live : Serial} {v v' : EndView} {e : EndEvent} (h : Cleared live v)
    (move : EndMove v e v') (stays : e.staysBefore live = true) : Cleared live v' := by
  cases move with
  | restart => cases stays
  | keep | silent | other => exact h
  | deliver serial =>
    have hserial : serial ≠ live := by simpa [EndEvent.staysBefore] using stays
    exact ⟨h.same, by simpa using hserial, h.reported⟩
  | drop => exact ⟨h.same, by simp, rfl⟩
  | announce due => exact absurd (due.trans (congrArg some h.same)) h.mark

theorem cleared_of_flush {v v' : EndView} (move : EndMove v .flush v') (pending : v.mark ≠ some v.live) :
    Cleared v.live v' := by
  cases move with
  | keep same => exact absurd same pending
  | drop => exact ⟨rfl, by simp, rfl⟩

end EndView

end Playback
