import Playback.Proofs.Player.Traffic

/-!
# Where seeks lead

A position that a user asks for travels: it is noted as the target, waits as a task of the player and then as one of the
demuxer, is brought within the duration, passed to the source, and comes back with the report that the seek is
completed, to be noted again. `Carries` says, of a whole player, that every position on this way was asked for, and
every target was made of one; each act keeps that (`act_carries`).

What a source goes through is `Source.Driven`: it is read, and it is asked to go to such targets and to no others.
-/

namespace Playback

variable {R κa κv σ : Type}

/-- What becomes of a source that is read and asked to go to targets, of which the duration at that time decides whether
they are allowed. -/
inductive Source.Driven [Source σ R] (allowed : R → R → Prop) (source : σ) : σ → Prop where
  | refl : Driven allowed source source
  | read {before : σ} (driven : Driven allowed source before) : Driven allowed source (Source.read before).2
  | seek {before : σ} (driven : Driven allowed source before) (target : R)
      (ok : allowed (Source.info before).duration target) : Driven allowed source (Source.seek before target).2

theorem Source.Driven.trans [Source σ R] {allowed : R → R → Prop} {source source' later : σ}
    (h : Driven allowed source source') (h' : Driven allowed source' later) : Driven allowed source later := by
  induction h' with
  | refl => exact h
  | read _ ih => exact ih.read
  | seek _ target ok ih => exact ih.seek target ok

theorem Source.Driven.mono [Source σ R] {allowed allowed' : R → R → Prop} {source source' : σ}
    (h : Driven allowed source source') (weaker : ∀ duration target, allowed duration target → allowed' duration target) :
    Driven allowed' source source' := by
  induction h with
  | refl => exact .refl
  | read _ ih => exact ih.read
  | seek _ target ok ih => exact ih.seek target (weaker _ _ ok)

variable [Scalar R]

/-- A target that was made of a position that was asked for. -/
def Landed (asked : R → Prop) (duration target : R) : Prop :=
  ∃ position, asked position ∧ target = Demuxer.seekTarget duration position

namespace Demuxer

omit [Scalar R] in
theorem postRead_messages {d : Demuxer R σ} {now delay : Nat} {m : Message (DemuxTask R)}
    (hm : m ∈ (d.postRead now delay).loop.queue.messages) : m ∈ d.loop.queue.messages ∨ m.task = .read := by
  rcases Loop.mem_post hm with hm | ⟨htask, -⟩
  · exact .inl (Loop.mem_remove hm)
  · exact .inr htask

omit [Scalar R] in
theorem notify_messages {d : Demuxer R σ} {now : Nat} {m : Message (DemuxTask R)}
    (hm : m ∈ (d.notify now).loop.queue.messages) : m ∈ d.loop.queue.messages ∨ m.task = .read := by
  unfold notify at hm
  split at hm
  next => exact .inl hm
  next => exact postRead_messages hm

omit [Scalar R] in
/-- The thread brings only tasks to read. -/
theorem Turned.messages {d d' : Demuxer R σ} {now : Nat} (turned : Turned now d d') {m : Message (DemuxTask R)}
    (hm : m ∈ d'.loop.queue.messages) : m ∈ d.loop.queue.messages ∨ m.task = .read := by
  cases turned with
  | rests loop queue => exact .inl (queue ▸ hm)
  | takes loop next | denies _ loop next => exact .inl ((Loop.mem_next? next).2 hm)
  | reads | fails => exact .inl hm
  | posts => exact postRead_messages hm
  | grants _ loop next => exact (postRead_messages hm).imp_left fun hm => (Loop.mem_next? next).2 hm

variable [Source σ R]

/-- Nothing but reading is done to the source, and no seek is completed. -/
def Reads (source : σ) (x : Demuxed R σ) : Prop :=
  (x.demuxer.source = source ∨ x.demuxer.source = (Source.read source).2) ∧ ∀ t, x.event ≠ some (.seekCompleted t)

theorem readOne_reads (d : Demuxer R σ) (queues : List StreamQueue) (m : MediaClock R) (now left : Nat) :
    Reads d.source (d.readOne queues m now left) := by
  unfold readOne
  dsimp only
  split
  next => exact ⟨.inl rfl, nofun⟩
  next left =>
    split
    next => exact ⟨.inl rfl, nofun⟩
    next =>
      split
      next p source hread =>
        refine ⟨.inr ?_, nofun⟩
        rw [hread]
        unfold store
        split
        next => cases p.stream <;> rfl
        next => rfl
      next source hread =>
        split <;> exact ⟨.inr (congrArg Prod.snd hread).symm, nofun⟩
      next e source hread => exact ⟨.inr (congrArg Prod.snd hread).symm, nofun⟩

/-- A step leaves the source alone or reads it; or it is the turn of a seek that the source can do, with the target that
the duration makes of the position. -/
theorem step_target (d : Demuxer R σ) (queues : List StreamQueue) (m : MediaClock R) (now : Nat) :
    Reads d.source (d.step queues m now) ∨
      ∃ position loop, d.loop.next? now = some (.seek position, loop) ∧ Source.isSeekable d.source = true ∧
        let target := seekTarget (Source.info d.source).duration position
        (d.step queues m now).demuxer.source = (Source.seek d.source target).2 ∧
          ∀ t, (d.step queues m now).event = some (.seekCompleted t) → t = target := by
  unfold step
  split
  next left _ => exact .inl (d.readOne_reads queues m now left)
  next =>
    split
    next loop hnext => exact .inl ⟨.inl rfl, nofun⟩
    next position loop hnext =>
      unfold seek
      split
      next => exact .inl ⟨.inl rfl, nofun⟩
      next hseekable =>
        refine .inr ⟨position, loop, hnext, by simpa using hseekable, ?_⟩
        dsimp only
        split
        next e source hseek => exact ⟨(congrArg Prod.snd hseek).symm, nofun⟩
        next source hseek =>
          refine ⟨(congrArg Prod.snd hseek).symm, fun t ht => ?_⟩
          cases ht
          rfl
    next => exact .inl ⟨.inl (by dsimp only; split <;> rfl), nofun⟩

end Demuxer

namespace Player

/-! ## The target of a player -/

@[simp] theorem setState_seekTarget (p : Player R κa κv σ) (state : PlaybackState) :
    (p.setState state).seekTarget = p.seekTarget :=
  p.enter_seekTarget state

omit [Scalar R] in
@[simp] theorem scheduleStatus_seekTarget (p : Player R κa κv σ) : p.scheduleStatus.seekTarget = p.seekTarget := by
  obtain ⟨loop, hschedule⟩ := p.scheduleStatus_eq
  rw [hschedule]

omit [Scalar R] in
theorem posts_seekTarget (tasks : List (PlayerTask R κa κv σ)) (p : Player R κa κv σ) :
    (tasks.foldl (fun p task => (p.post task).2) p).seekTarget = p.seekTarget := by
  obtain ⟨loop, hposts⟩ := posts_eq tasks p
  rw [hposts]

variable [Source σ R]

/-- A task keeps the target, or forgets it, or notes where a seek has led. -/
theorem run_seekTarget (p : Player R κa κv σ) (task : PlayerTask R κa κv σ) :
    (p.run task).seekTarget = p.seekTarget ∨ (p.run task).seekTarget = none ∨
      ∃ t, task = .demuxed (.seekCompleted t) ∧ (p.run task).seekTarget = some t := by
  cases task with
  | openMedia media =>
    show (p.openMedia media).seekTarget = _ ∨ (p.openMedia media).seekTarget = _ ∨ _
    unfold openMedia
    split
    next => exact .inl rfl
    next =>
      split
      next => exact .inl (setState_seekTarget ..)
      next =>
        refine .inr (.inl ?_)
        rw [scheduleStatus_seekTarget]
        exact setState_seekTarget ..
  | applyPlayback | setVolume | setMuted => exact .inl rfl
  | seek position =>
    left
    show (p.runSeek position).seekTarget = _
    unfold runSeek
    split
    next => rfl
    next =>
      dsimp only
      split
      next => exact setState_seekTarget ..
      next => rfl
  | demuxed event =>
    show (p.onDemuxed event).seekTarget = p.seekTarget ∨ (p.onDemuxed event).seekTarget = none ∨
      ∃ t, PlayerTask.demuxed event = .demuxed (.seekCompleted t) ∧ (p.onDemuxed event).seekTarget = some t
    unfold onDemuxed
    split
    next => exact .inl rfl
    next =>
      cases event with
      | seekCompleted t => exact .inr (.inr ⟨t, rfl, rfl⟩)
      | endOfFile => exact .inl rfl
      | error text => exact .inl (setState_seekTarget ..)
  | rendered stream event =>
    left
    show (p.onRendered stream event).seekTarget = _
    unfold onRendered
    split
    next => rfl
    next =>
      cases event with
      | ended serial =>
        dsimp only
        split
        next => exact setState_seekTarget ..
        next => rfl
      | firstFrame => rfl
      | error text => cases stream <;> exact setState_seekTarget ..
  | checkBuffering =>
    left
    show p.checkBuffering.seekTarget = _
    rcases p.checkBuffering_eq with heq | ⟨state, heq⟩
    · rw [heq]
    · rw [heq, setState_seekTarget]
  | reportStatus => exact .inl (scheduleStatus_seekTarget p.reportStatus)

variable [Codec κa RawAudioFrame] [Codec κv RawVideoFrame]

/-- What becomes of the target in an act. -/
inductive Retargets (p : Player R κa κv σ) (a : PlayerAct R κa κv σ) : Option R → Prop where
  | keeps : Retargets p a p.seekTarget
  | forgets : Retargets p a none
  | asks (position : R) (call : a = .seek position) : Retargets p a (some (Scalar.max position 0.0))
  | lands (t : R) (waits : ∃ m ∈ p.loop.queue.messages, m.task = .demuxed (.seekCompleted t)) :
      Retargets p a (some t)

theorem act_retargets (p : Player R κa κv σ) (a : PlayerAct R κa κv σ) : p.Retargets a (p.act a).seekTarget := by
  have hkeeps {t : Option R} (same : t = p.seekTarget) : p.Retargets a t := same ▸ .keeps
  have hleaves := p.act_leaves a
  generalize p.act a = p' at hleaves ⊢
  cases hleaves with
  | same _ _ _ _ target => exact hkeeps target
  | closes _ _ _ _ target =>
    rw [target]
    exact .forgets
  | opens media q _ _ _ target =>
    show p.Retargets _ q.seekTarget
    rw [target]
    exact .forgets
  | asks _ _ q _ _ _ _ target =>
    show p.Retargets _ q.seekTarget
    rcases target with hsame | ⟨position, rfl, hnoted⟩
    · exact hkeeps hsame
    · rw [hnoted]
      exact .asks position rfl
  | runs task loop next =>
    rcases run_seekTarget { p with loop } task with hsame | hnone | ⟨t, rfl, hsome⟩
    · exact hkeeps hsame
    · rw [hnone]
      exact .forgets
    · rw [hsome]
      exact .lands t (Loop.mem_next? next).1
  | pulls | works => exact hkeeps (posts_seekTarget ..)

/-! ## What is on the way -/

/-- A seek that waits in the demuxer's loop waited there before, or in the player's. -/
theorem act_seeks (p : Player R κa κv σ) {a : PlayerAct R κa κv σ} {d : Demuxer R σ} (hd : d ∈ (p.act a).demuxer?)
    {m : Message (DemuxTask R)} (hm : m ∈ d.loop.queue.messages) {position : R} (htask : m.task = .seek position) :
    (∃ before ∈ p.demuxer?, m ∈ before.loop.queue.messages) ∨ ∃ m' ∈ p.loop.queue.messages, m'.task = .seek position := by
  -- what the demuxer posts to itself is no seek
  have hseek {messages : List (Message (DemuxTask R))} (hm : m ∈ messages ∨ m.task = .read) : m ∈ messages :=
    hm.resolve_right fun hread => nomatch hread.symm.trans htask
  have hdrives := p.act_drives a
  generalize (p.act a).demuxer? = after at hdrives hd
  cases hdrives with
  | keeps => exact .inl ⟨d, hd, hm⟩
  | ends => cases hd
  | opens media =>
    cases hd
    cases hseek (Demuxer.postRead_messages hm)
  | seeks x waits =>
    obtain ⟨before, hbefore, rfl⟩ := Option.map_eq_some_iff.mp hd
    rcases Loop.mem_post hm with hm | ⟨hasked, -⟩
    · exact .inl ⟨before, hbefore, hm⟩
    · cases htask.symm.trans hasked
      exact .inr waits
  | wakes =>
    obtain ⟨before, hbefore, rfl⟩ := Option.map_eq_some_iff.mp hd
    exact .inl ⟨before, hbefore, hseek (Demuxer.notify_messages hm)⟩
  | steps s alive =>
    cases hd
    have hturned := s.demuxer.step_turned s.queues s.clock p.now
    exact .inl ⟨s.demuxer, by rw [demuxer?, alive]; rfl, hseek (hturned.messages hm)⟩

/-- Only the demuxer's thread reports for the demuxer. -/
theorem stepSession_demuxed {s : Session R κa κv σ} {now : Nat} {thread : PlayerThread} {event : DemuxEvent R}
    (h : PlayerTask.demuxed event ∈ (stepSession s now thread).1) :
    (s.demuxer.step s.queues s.clock now).event = some event := by
  cases thread with
  | player => cases h
  | demuxer =>
    obtain ⟨e, he, heq⟩ := Option.map_eq_some_iff.mp (Option.mem_toList.mp h)
    cases heq
    exact he
  | audioDecoder | audioRenderer => cases ha : s.audio <;> simp [stepSession, ha] at h
  | videoDecoder | videoRenderer => cases hv : s.video <;> simp [stepSession, hv] at h

omit [Source σ R] [Codec κa RawAudioFrame] [Codec κv RawVideoFrame] in
/-- Whether a task carries only what was asked for. -/
def Backed (opened : Media κa κv σ → Prop) (asked : R → Prop) : PlayerTask R κa κv σ → Prop
  | .openMedia media => opened media
  | .seek position => asked position
  | .demuxed (.seekCompleted t) => ∃ duration, Landed asked duration t
  | _ => True

omit [Source σ R] [Codec κa RawAudioFrame] [Codec κv RawVideoFrame] in
theorem backed_of_periodic {opened : Media κa κv σ → Prop} {asked : R → Prop} {task : PlayerTask R κa κv σ}
    (h : task.isPeriodic = true) : Backed opened asked task := by
  cases task with
  | checkBuffering | reportStatus => trivial
  | _ => cases h

/-- Every position and target that is on its way was asked for, or was made of one that was. -/
structure Carries (opened : Media κa κv σ → Prop) (asked : R → Prop) (p : Player R κa κv σ) : Prop where
  tasks : ∀ m ∈ p.loop.queue.messages, Backed opened asked m.task
  waits : ∀ d ∈ p.demuxer?, ∀ m ∈ d.loop.queue.messages, ∀ position, m.task = .seek position → asked position
  driven : ∀ d ∈ p.demuxer?, ∃ media, opened media ∧ Source.Driven (Landed asked) media.source d.source
  target : ∀ t ∈ p.seekTarget, (∃ position, asked position ∧ t = Scalar.max position 0.0) ∨
    ∃ duration, Landed asked duration t

section

variable {opened : Media κa κv σ → Prop} {asked : R → Prop} {p : Player R κa κv σ}

omit [Codec κa RawAudioFrame] [Codec κv RawVideoFrame] in
/-- The turn of a seek is that of a position that was asked for. -/
theorem Carries.lands (h : p.Carries opened asked) {s : Session R κa κv σ} (hs : p.session = some s) :
    (∃ media, opened media ∧
      Source.Driven (Landed asked) media.source (s.demuxer.step s.queues s.clock p.now).demuxer.source) ∧
    ∀ t, (s.demuxer.step s.queues s.clock p.now).event = some (.seekCompleted t) →
      ∃ duration, Landed asked duration t := by
  have hd : s.demuxer ∈ p.demuxer? := by rw [demuxer?, hs]; rfl
  obtain ⟨media, hopened, hdriven⟩ := h.driven s.demuxer hd
  rcases s.demuxer.step_target s.queues s.clock p.now with ⟨hsource, hsilent⟩ |
      ⟨position, loop, hnext, -, hsource, hlands⟩
  · refine ⟨⟨media, hopened, ?_⟩, fun t ht => absurd ht (hsilent t)⟩
    rcases hsource with hsame | hread
    · rw [hsame]
      exact hdriven
    · rw [hread]
      exact hdriven.read
  · -- the position waited, so it was asked for, and the target is made of it
    obtain ⟨m, hm, htask⟩ := (Loop.mem_next? hnext).1
    have hlanded : Landed asked (Source.info s.demuxer.source).duration _ :=
      ⟨position, h.waits s.demuxer hd m hm position htask, rfl⟩
    refine ⟨⟨media, hopened, ?_⟩, fun t ht => ⟨_, hlands t ht ▸ hlanded⟩⟩
    rw [hsource]
    exact hdriven.seek _ hlanded

theorem Carries.reports (h : p.Carries opened asked) (a : PlayerAct R κa κv σ) :
    ∀ task ∈ p.reports a, Backed opened asked task := by
  intro task ht
  obtain ⟨s, hs, ⟨audio, -, out, e, -, rfl⟩ | ⟨thread, hstep⟩⟩ := mem_reports ht
  · trivial
  · have hreport := stepSession_reports s p.now thread task hstep
    cases task with
    | demuxed event =>
      cases event with
      | seekCompleted t => exact (h.lands hs).2 t (stepSession_demuxed hstep)
      | endOfFile | error => trivial
    | rendered => trivial
    | _ => cases hreport

theorem act_carries (h : p.Carries opened asked) {a : PlayerAct R κa κv σ}
    (rule : ∀ task ∈ a.call?, Backed opened asked task) : (p.act a).Carries opened asked := by
  constructor
  · intro m hm
    cases p.act_origin a m hm with
    | before waits => exact h.tasks m waits
    | call call => exact rule m.task call
    | report given => exact h.reports a m.task given
    | again periodic => exact backed_of_periodic periodic
  · intro d hd m hm position htask
    rcases p.act_seeks hd hm htask with ⟨before, hbefore, hwaits⟩ | ⟨m', hm', htask'⟩
    · exact h.waits before hbefore m hwaits position htask
    · have hasked := h.tasks m' hm'
      rw [htask'] at hasked
      exact hasked
  · intro d hd
    rcases p.act_source a d hd with ⟨before, hbefore, hsource⟩ | ⟨m, hm, media, htask, hsource⟩ | ⟨s, alive, hsource⟩
    · rw [hsource]
      exact h.driven before hbefore
    · have hopened := h.tasks m hm
      rw [htask] at hopened
      rw [hsource]
      exact ⟨media, hopened, .refl⟩
    · rw [hsource]
      exact (h.lands alive).1
  · have hretargets := p.act_retargets a
    generalize (p.act a).seekTarget = after at hretargets ⊢
    intro t ht
    cases hretargets with
    | keeps => exact h.target t ht
    | forgets => cases ht
    | asks position call =>
      cases ht
      exact .inl ⟨position, rule (.seek position) (by rw [call]; rfl), rfl⟩
    | lands t' waits =>
      cases ht
      obtain ⟨m, hm, htask⟩ := waits
      have hlanded := h.tasks m hm
      rw [htask] at hlanded
      exact .inr hlanded

/-- In every run, all positions and targets on their way go back to calls of the run, and sources are driven by them. -/
theorem acts_carries (config : PlayerConfig R) (device : AudioDevice) (filter : RateFilter R)
    (as : List (PlayerAct R κa κv σ)) :
    ((make config device filter).acts as).Carries (fun media => .requestOpen media ∈ as)
      fun position => .seek position ∈ as := by
  have hmake : (make config device filter : Player R κa κv σ).Carries (fun media => .requestOpen media ∈ as)
      fun position => .seek position ∈ as := ⟨nofun, nofun, nofun, nofun⟩
  refine List.foldlRecOn as act hmake fun p h a ha => act_carries h fun task htask => ?_
  cases a with
  | requestOpen | seek => cases htask; exact ha
  | setPlayWhenReady | setVolume | setMuted => cases htask; trivial
  | stop | release | pull | advance | step => cases htask

end

end Player
end Playback
