import Playback.Proofs.Player.Acts
import Playback.Proofs.Schedule.Pending
import Playback.Scripted.Player

/-!
# Buffering that does not end

A player that buffers waits until there is enough in its queues, and its demuxer reads until there is.
`Session.hasEnough` and `Demuxer.needsMore` decide that, and were they complementary, one of the two would
always go on. They are, but for the limit of bytes: only the demuxer looks at it. So when the queues are
over the limit and one of them lacks packets, the demuxer does not read and the player waits.

This is for good, once the decoders wait too (`Stalled`): their rings are full, and nothing is put out while
the player buffers. No step of any thread, no pull and no time that goes by changes anything, until a user
seeks or stops.
-/

namespace Playback

variable {R κa κv σ : Type}

/-! ## The two tests -/

section Tests

variable [Scalar R]

/-- Whether a queue has not enough to play. -/
def StreamQueue.lacks (c : BufferConfig R) (q : StreamQueue) : Bool :=
  !q.queue.hasEnough q.timeBase c.minFrames c.minDuration

/-- The demuxer stops reading for the sake of bytes although a queue lacks packets. -/
structure Overfull (c : BufferConfig R) (queues : List StreamQueue) : Prop where
  finite : c.infinite = false
  bytes : c.maxQueueBytes < Demuxer.totalSize queues
  lacking : ∃ q ∈ queues, q.lacks c = true

instance (c : BufferConfig R) (queues : List StreamQueue) : Decidable (Overfull c queues) :=
  decidable_of_iff (c.infinite = false ∧ c.maxQueueBytes < Demuxer.totalSize queues ∧
    ∃ q ∈ queues, q.lacks c = true)
    ⟨fun ⟨finite, bytes, lacking⟩ => ⟨finite, bytes, lacking⟩, fun h => ⟨h.finite, h.bytes, h.lacking⟩⟩

theorem Overfull.needsMore {c : BufferConfig R} {queues : List StreamQueue} (h : Overfull c queues) :
    Demuxer.needsMore c queues = false := by
  have hbytes : ¬ Demuxer.totalSize queues ≤ c.maxQueueBytes := Nat.not_le_of_lt h.bytes
  simp [Demuxer.needsMore, h.finite, hbytes]

theorem Overfull.hasEnough {c : BufferConfig R} {s : Session R κa κv σ} (h : Overfull c s.queues)
    (reading : s.demuxer.eof = false) : s.hasEnough c = false := by
  obtain ⟨q, hq, hlacks⟩ := h.lacking
  have hall : (s.queues.all fun q => q.queue.hasEnough q.timeBase c.minFrames c.minDuration) = false := by
    rw [List.all_eq_false]
    exact ⟨q, hq, by simpa [StreamQueue.lacks] using hlacks⟩
  rw [Session.hasEnough, h.finite, reading, hall]
  rfl

/-- A demuxer that does not read and a player that has not enough: that is the limit of bytes. -/
theorem overfull_of_tests {c : BufferConfig R} {s : Session R κa κv σ}
    (hmore : Demuxer.needsMore c s.queues = false) (henough : s.hasEnough c = false) :
    Overfull c s.queues ∧ s.demuxer.eof = false := by
  rw [Session.hasEnough, Bool.or_eq_false_iff, Bool.or_eq_false_iff] at henough
  obtain ⟨⟨hfinite, hreading⟩, hall⟩ := henough
  obtain ⟨q, hq, hnot⟩ := List.all_eq_false.mp hall
  have hlacks : q.lacks c = true := by simpa [StreamQueue.lacks] using hnot
  have hany : (s.queues.any fun q => !q.queue.hasEnough q.timeBase c.minFrames c.minDuration) = true :=
    List.any_eq_true.mpr ⟨q, hq, hlacks⟩
  rw [Demuxer.needsMore, hfinite, hany, Bool.and_true, Bool.false_or, decide_eq_false_iff_not] at hmore
  exact ⟨⟨hfinite, Nat.lt_of_not_le hmore, q, hq, hlacks⟩, hreading⟩

/-- No limit of bytes is a fault, however small. -/
theorem fault?_maxQueueBytes {S : Type} [TextScalar S] (c : PlayerConfig S) (limit : Nat) :
    PlayerConfig.fault? { c with buffer := { c.buffer with maxQueueBytes := limit } } = c.fault? :=
  rfl

end Tests

/-! ## What waits -/

/-- The tasks of a renderer's thread that ask for data. -/
def AudioTask.isAttempt : AudioTask R → Bool
  | .attemptRead => true
  | .newBlock _ => false

/-- The tasks of a renderer's thread that do not bring a picture. -/
def VideoTask.isAttempt : VideoTask R → Bool
  | .attemptRead | .refresh => true
  | .newFrame _ => false

def DemuxTask.isRead : DemuxTask R → Bool
  | .read => true
  | .seek _ => false

/-- The tasks of a player that leave alone what buffers. -/
def PlayerTask.isIdle : PlayerTask R κa κv σ → Bool
  | .seek _ | .demuxed _ | .rendered _ _ => false
  | _ => true

/-- The calls that end buffering. -/
def PlayerAct.interrupts : PlayerAct R κa κv σ → Bool
  | .seek _ | .stop | .release => true
  | _ => false

/-- No request, neither one that is worked on nor one that waits. -/
structure Decoder.Idle {κ φ τ : Type} (d : Decoder κ φ τ) : Prop where
  current : d.current.isNone = true
  messages : d.loop.queue.messages.isEmpty = true

instance {κ φ τ : Type} (d : Decoder κ φ τ) : Decidable d.Idle :=
  decidable_of_iff (d.current.isNone = true ∧ d.loop.queue.messages.isEmpty = true)
    ⟨fun ⟨current, messages⟩ => ⟨current, messages⟩, fun h => ⟨h.current, h.messages⟩⟩

/-- A pipeline that asks for no blocks and plays none. -/
structure AudioPipeline.Stalled (a : AudioPipeline R κa) : Prop where
  decoder : a.decoder.Idle
  full : a.renderer.ring.isFull = true
  silent : a.renderer.sink.puller.playing = false
  tasks : a.loop.Holds AudioTask.isAttempt

instance (a : AudioPipeline R κa) : Decidable a.Stalled :=
  decidable_of_iff (a.decoder.Idle ∧ a.renderer.ring.isFull = true ∧
    a.renderer.sink.puller.playing = false ∧ a.loop.Holds AudioTask.isAttempt)
    ⟨fun ⟨decoder, full, silent, tasks⟩ => ⟨decoder, full, silent, tasks⟩,
      fun h => ⟨h.decoder, h.full, h.silent, h.tasks⟩⟩

/-- A pipeline that asks for no pictures and shows none. -/
structure VideoPipeline.Stalled (v : VideoPipeline R κv) : Prop where
  decoder : v.decoder.Idle
  full : v.renderer.ring.isFull = true
  filled : v.renderer.ring.isEmpty = false
  paused : v.renderer.paused = true
  shown : v.renderer.forceRefresh = false
  tasks : v.loop.Holds VideoTask.isAttempt

instance (v : VideoPipeline R κv) : Decidable v.Stalled :=
  decidable_of_iff (v.decoder.Idle ∧ v.renderer.ring.isFull = true ∧ v.renderer.ring.isEmpty = false ∧
    v.renderer.paused = true ∧ v.renderer.forceRefresh = false ∧ v.loop.Holds VideoTask.isAttempt)
    ⟨fun ⟨decoder, full, filled, paused, shown, tasks⟩ => ⟨decoder, full, filled, paused, shown, tasks⟩,
      fun h => ⟨h.decoder, h.full, h.filled, h.paused, h.shown, h.tasks⟩⟩

/-- A session with these queues of which every thread waits. -/
structure Session.Stalled [Scalar R] (queues : List StreamQueue) (s : Session R κa κv σ) : Prop where
  same : s.queues = queues
  overfull : Overfull s.demuxer.config queues
  eof : s.demuxer.eof = false
  tasks : s.demuxer.loop.Holds DemuxTask.isRead
  audio : ∀ a ∈ s.audio, a.Stalled
  video : ∀ v ∈ s.video, v.Stalled

/-- A player that buffers, while every thread of its session waits. -/
structure Player.Stalled [Scalar R] (queues : List StreamQueue) (p : Player R κa κv σ) : Prop where
  buffering : p.state = .buffering
  tasks : p.loop.Holds PlayerTask.isIdle
  overfull : Overfull p.config.buffer queues
  session : ∃ s, p.session = some s ∧ s.Stalled queues

/-! ## What the threads do -/

theorem AudioPipeline.Stalled.attemptRead {a : AudioPipeline R κa} (h : a.Stalled) (now : Nat) :
    a.attemptRead now = a := by
  have hwants : a.renderer.wantsRead a.queue.published = false := by
    simp [AudioRenderer.wantsRead, h.full]
  rw [AudioPipeline.attemptRead, hwants]
  rfl

theorem VideoPipeline.Stalled.attemptRead {v : VideoPipeline R κv} (h : v.Stalled) (now : Nat) :
    v.attemptRead now = v := by
  have hwants : v.renderer.wantsRead v.queue.published = false := by
    simp [VideoRenderer.wantsRead, h.full]
  rw [VideoPipeline.attemptRead, hwants]
  rfl

/-- A decoder without a request takes nothing from its queue. -/
theorem Decoder.Idle.step {κ φ τ : Type} (Raw Out : Type) [Codec κ Raw] [Finisher φ Raw Out]
    {d : Decoder κ φ τ} (h : d.Idle) (q : PacketQueue) (now : Nat) :
    ∃ d' : Decoder κ φ τ, d'.Idle ∧ d.step q now = ((.silent : DecoderEvent Out τ), d', q) := by
  have hnone : d.loop.next? now = none := by
    simp [Loop.next?, MessageQueue.next?, List.isEmpty_iff.mp h.messages]
  refine ⟨if d.loop.isEnding then { d with loop := d.loop.finish } else d, ?_, ?_⟩
  · split
    next => exact ⟨h.current, h.messages⟩
    next => exact h
  · unfold Decoder.step
    split
    next tag phase hcurrent =>
      have hnone := h.current
      rw [hcurrent] at hnone
      cases hnone
    next => rw [hnone]

theorem AudioPipeline.Stalled.step {a : AudioPipeline R κa} (h : a.Stalled) (now : Nat) :
    ∃ loop, loop.Holds AudioTask.isAttempt ∧ a.step now = ([], { a with loop }) := by
  unfold AudioPipeline.step
  split
  next task loop hnext =>
    obtain ⟨hkind, hloop⟩ := h.tasks.next? hnext
    cases task with
    | attemptRead =>
      have hstalled : ({ a with loop } : AudioPipeline R κa).Stalled :=
        ⟨h.decoder, h.full, h.silent, hloop⟩
      exact ⟨loop, hloop, by rw [AudioPipeline.run, hstalled.attemptRead]⟩
    | newBlock => cases hkind
  next =>
    split
    next => exact ⟨a.loop.finish, h.tasks, rfl⟩
    next => exact ⟨a.loop, h.tasks, rfl⟩

theorem Demuxer.postRead_holds {d : Demuxer R σ} (h : d.loop.Holds DemuxTask.isRead) (now delay : Nat) :
    (d.postRead now delay).loop.Holds DemuxTask.isRead :=
  (h.remove d.runner (some DemuxTask.readId)).post now delay _ _ rfl

variable [Scalar R]

/-- A refresh while nothing is to be shown changes nothing. -/
theorem VideoRenderer.refresh_paused {v : VideoRenderer R} (paused : v.paused = true)
    (shown : v.forceRefresh = false) (filled : v.ring.isEmpty = false) (full : v.ring.isFull = true)
    (m : MediaClock R) (live : LiveSerials) (now : R) :
    v.refresh m live now = ⟨v, m, v.config.refreshRate, none, false, false⟩ := by
  obtain ⟨config, ring⟩ := v
  simp only at paused shown filled full
  subst paused shown
  simp [refresh, display, filled, full]

theorem VideoPipeline.Stalled.step {v : VideoPipeline R κv} (h : v.Stalled) (m : MediaClock R)
    (live : LiveSerials) (now : Nat) :
    ∃ loop, loop.Holds VideoTask.isAttempt ∧ v.step m live now = ([], { v with loop }, m) := by
  unfold VideoPipeline.step
  split
  next task loop hnext =>
    obtain ⟨hkind, hloop⟩ := h.tasks.next? hnext
    have hstalled : ({ v with loop } : VideoPipeline R κv).Stalled :=
      ⟨h.decoder, h.full, h.filled, h.paused, h.shown, hloop⟩
    cases task with
    | attemptRead => exact ⟨loop, hloop, by rw [VideoPipeline.run, hstalled.attemptRead]⟩
    | newFrame => cases hkind
    | refresh =>
      unfold VideoPipeline.run
      dsimp only
      split
      next => exact ⟨loop, hloop, rfl⟩
      next =>
        rw [VideoRenderer.refresh_paused h.paused h.shown h.filled h.full]
        exact ⟨_, hloop.post _ _ _ _ rfl, rfl⟩
  next =>
    split
    next => exact ⟨v.loop.finish, h.tasks, rfl⟩
    next => exact ⟨v.loop, h.tasks, rfl⟩

namespace Demuxer

/-- A demuxer whose queues are over the limit of bytes reads nothing. -/
theorem step_overfull [Source σ R] {d : Demuxer R σ} {queues : List StreamQueue}
    (h : Overfull d.config queues) (tasks : d.loop.Holds DemuxTask.isRead) (m : MediaClock R) (now : Nat) :
    ∃ loop reading, loop.Holds DemuxTask.isRead ∧
      d.step queues m now = ⟨{ d with loop, reading }, queues, m, none⟩ := by
  unfold step
  split
  next left hreading =>
    -- a reading that is under way is given up at the limit and tried again later
    unfold readOne
    dsimp only
    split
    next => exact ⟨_, none, postRead_holds tasks _ _, rfl⟩
    next =>
      rw [h.needsMore]
      exact ⟨_, none, postRead_holds tasks _ _, rfl⟩
  next hreading =>
    split
    next loop hnext => exact ⟨loop, _, (tasks.next? hnext).2, rfl⟩
    next position loop hnext => cases (tasks.next? hnext).1
    next =>
      split
      next => exact ⟨d.loop.finish, d.reading, tasks, rfl⟩
      next => exact ⟨d.loop, d.reading, tasks, rfl⟩

end Demuxer

namespace Session

omit [Scalar R] in
theorem setQueues_self (s : Session R κa κv σ) : s.setQueues s.queues = s := by
  obtain ⟨clock, demuxer, audio, video, info⟩ := s
  cases audio <;> cases video <;> rfl

namespace Stalled

variable {queues : List StreamQueue} {s : Session R κa κv σ}

theorem withClock (h : s.Stalled queues) (clock : MediaClock R) : { s with clock }.Stalled queues :=
  ⟨h.same, h.overfull, h.eof, h.tasks, h.audio, h.video⟩

theorem withAudio (h : s.Stalled queues) {a a' : AudioPipeline R κa} (hs : s.audio = some a)
    (queue : a'.queue = a.queue) (timeBase : a'.timeBase = a.timeBase) (stalled : a'.Stalled) :
    { s with audio := some a' }.Stalled queues := by
  refine ⟨?_, h.overfull, h.eof, h.tasks, fun x hx => ?_, h.video⟩
  · rw [← h.same]
    simp [Session.queues, hs, queue, timeBase]
  · cases hx
    exact stalled

theorem withVideo (h : s.Stalled queues) {v v' : VideoPipeline R κv} (hs : s.video = some v)
    (queue : v'.queue = v.queue) (timeBase : v'.timeBase = v.timeBase) (stalled : v'.Stalled) :
    { s with video := some v' }.Stalled queues := by
  refine ⟨?_, h.overfull, h.eof, h.tasks, h.audio, fun x hx => ?_⟩
  · rw [← h.same]
    simp [Session.queues, hs, queue, timeBase]
  · cases hx
    exact stalled

/-- The threads of the session report nothing, and go on waiting. -/
theorem step [Codec κa RawAudioFrame] [Codec κv RawVideoFrame] [Source σ R] (h : s.Stalled queues)
    (now : Nat) (thread : PlayerThread) :
    ∃ s' : Session R κa κv σ, s'.Stalled queues ∧ Player.stepSession s now thread = ([], s') := by
  cases thread with
  | player => exact ⟨s, h, rfl⟩
  | demuxer =>
    have hover : Overfull s.demuxer.config s.queues := h.same ▸ h.overfull
    obtain ⟨loop, reading, htasks, hstep⟩ := Demuxer.step_overfull hover h.tasks s.clock now
    refine ⟨{ s with demuxer := { s.demuxer with loop, reading } },
      ⟨h.same, h.overfull, h.eof, htasks, h.audio, h.video⟩, ?_⟩
    simp only [Player.stepSession, hstep]
    exact congrArg (Prod.mk []) (setQueues_self { s with demuxer := { s.demuxer with loop, reading } })
  | audioDecoder =>
    cases hs : s.audio with
    | none => exact ⟨s, h, by simp [Player.stepSession, hs]⟩
    | some a =>
      have ha := h.audio a hs
      obtain ⟨d, hd, hstep⟩ := ha.decoder.step RawAudioFrame (AudioBlock R) a.queue now
      refine ⟨{ s with audio := some { a with decoder := d } }, ?_, ?_⟩
      · exact h.withAudio hs rfl rfl ⟨hd, ha.full, ha.silent, ha.tasks⟩
      · simp [Player.stepSession, hs, AudioPipeline.stepDecoder, hstep, AudioPipeline.afterDecoding,
          Player.wakeDemuxer]
  | videoDecoder =>
    cases hs : s.video with
    | none => exact ⟨s, h, by simp [Player.stepSession, hs]⟩
    | some v =>
      have hv := h.video v hs
      obtain ⟨d, hd, hstep⟩ := hv.decoder.step RawVideoFrame (VideoFrame R) v.queue now
      refine ⟨{ s with video := some { v with decoder := d } }, ?_, ?_⟩
      · exact h.withVideo hs rfl rfl ⟨hd, hv.full, hv.filled, hv.paused, hv.shown, hv.tasks⟩
      · simp [Player.stepSession, hs, VideoPipeline.stepDecoder, hstep, VideoPipeline.afterDecoding,
          Player.wakeDemuxer]
  | audioRenderer =>
    cases hs : s.audio with
    | none => exact ⟨s, h, by simp [Player.stepSession, hs]⟩
    | some a =>
      have ha := h.audio a hs
      obtain ⟨loop, htasks, hstep⟩ := ha.step now
      refine ⟨{ s with audio := some { a with loop } }, ?_, ?_⟩
      · exact h.withAudio hs rfl rfl ⟨ha.decoder, ha.full, ha.silent, htasks⟩
      · simp [Player.stepSession, hs, hstep]
  | videoRenderer =>
    cases hs : s.video with
    | none => exact ⟨s, h, by simp [Player.stepSession, hs]⟩
    | some v =>
      have hv := h.video v hs
      obtain ⟨loop, htasks, hstep⟩ := hv.step s.clock s.live now
      refine ⟨{ s with video := some { v with loop } }, ?_, ?_⟩
      · exact h.withVideo hs rfl rfl ⟨hv.decoder, hv.full, hv.filled, hv.paused, hv.shown, htasks⟩
      · simp [Player.stepSession, hs, hstep]

theorem setPaused (h : s.Stalled queues) (now : Nat) : (s.setPaused true now).Stalled queues := by
  refine ⟨?_, h.overfull, h.eof, h.tasks, fun a ha => ?_, fun v hv => ?_⟩
  · rw [← h.same]
    simp [Session.queues, Session.setPaused, Option.map_map, Function.comp_def]
  · obtain ⟨x, hx, rfl⟩ := Option.map_eq_some_iff.mp ha
    have hx' := h.audio x hx
    exact ⟨hx'.decoder, hx'.full, rfl, hx'.tasks⟩
  · obtain ⟨x, hx, rfl⟩ := Option.map_eq_some_iff.mp hv
    have hx' := h.video x hx
    have hsame : x.renderer.setPaused s.clock true (Scalar.ofNanos now) = x.renderer := if_pos hx'.paused
    rw [hsame]
    exact hx'

/-- The volume does not matter. -/
theorem onRenderer (h : s.Stalled queues) (f : AudioRenderer R → AudioRenderer R)
    (ring : ∀ r, (f r).ring = r.ring) (puller : ∀ r, (f r).sink.puller = r.sink.puller) :
    Session.Stalled queues { s with
      audio := s.audio.map fun a => { a with renderer := f a.renderer } } := by
  refine ⟨?_, h.overfull, h.eof, h.tasks, fun a ha => ?_, h.video⟩
  · rw [← h.same]
    simp [Session.queues, Option.map_map, Function.comp_def]
  · obtain ⟨x, hx, rfl⟩ := Option.map_eq_some_iff.mp ha
    have hx' := h.audio x hx
    exact ⟨hx'.decoder, by rw [ring]; exact hx'.full, by rw [puller]; exact hx'.silent, hx'.tasks⟩

end Stalled
end Session

namespace Player

variable {queues : List StreamQueue} {p : Player R κa κv σ}

namespace Stalled

theorem hasEnough (h : p.Stalled queues) {s : Session R κa κv σ} (hs : p.session = some s) :
    s.hasEnough p.config.buffer = false := by
  obtain ⟨s', hs', hstalled⟩ := h.session
  rw [hs] at hs'
  cases hs'
  exact Overfull.hasEnough (hstalled.same ▸ h.overfull) hstalled.eof

theorem post (h : p.Stalled queues) (task : PlayerTask R κa κv σ) (delay taskId : Nat)
    (idle : task.isIdle = true) : (p.post task delay taskId).2.Stalled queues :=
  ⟨h.buffering, h.tasks.post p.now delay (some p.runner) taskId idle, h.overfull, h.session⟩

theorem onSession (h : p.Stalled queues) (f : Session R κa κv σ → Session R κa κv σ)
    (stalled : ∀ s, s.Stalled queues → (f s).Stalled queues) :
    { p with session := p.session.map f }.Stalled queues := by
  obtain ⟨s, hs, hstalled⟩ := h.session
  exact ⟨h.buffering, h.tasks, h.overfull, f s, by simp [hs], stalled s hstalled⟩

theorem applyPlayback (h : p.Stalled queues) : p.applyPlayback.Stalled queues := by
  have hpaused : (!p.isPlaying) = true := by simp [isPlaying, h.buffering]
  unfold Player.applyPlayback
  rw [hpaused]
  exact h.onSession _ fun _ hs => hs.setPaused p.now

theorem run [Source σ R] (h : p.Stalled queues) {task : PlayerTask R κa κv σ} (idle : task.isIdle = true) :
    (p.run task).Stalled queues := by
  cases task with
  | openMedia media =>
    rw [Player.run, p.openMedia_other media (by simp [h.buffering])]
    exact h
  | applyPlayback => exact h.applyPlayback
  | setVolume volume =>
    exact h.onSession _ fun _ hs =>
      hs.onRenderer (·.setVolume volume) (fun _ => rfl) fun _ => rfl
  | setMuted muted =>
    exact h.onSession _ fun _ hs =>
      hs.onRenderer (·.setMuted muted) (fun _ => rfl) fun _ => rfl
  | checkBuffering =>
    -- the check finds too little and is posted again
    have hsame : p.checkBuffering = p := by
      obtain ⟨s, hs, -⟩ := h.session
      simp [Player.checkBuffering, hs, h.buffering, h.hasEnough hs]
    show (p.checkBuffering.scheduleBufferingCheck).Stalled queues
    rw [hsame]
    exact h.post _ _ _ rfl
  | reportStatus =>
    have hreport : p.reportStatus.Stalled queues :=
      h.onSession _ fun s hs => by
        split
        next => exact hs.withClock _
        next => exact hs
    show (p.reportStatus.scheduleStatus).Stalled queues
    unfold scheduleStatus
    split
    next => exact hreport
    next => exact hreport.post _ _ _ rfl
  | seek | demuxed | rendered => cases idle

variable [Codec κa RawAudioFrame] [Codec κv RawVideoFrame] [Source σ R]

/-- Only a seek and a stop get the player out of it. -/
theorem act (h : p.Stalled queues) {a : PlayerAct R κa κv σ} (rule : a.interrupts = false) :
    (p.act a).Stalled queues := by
  obtain ⟨s, hs, hstalled⟩ := h.session
  cases a with
  | seek | stop | release => cases rule
  | requestOpen media =>
    obtain ⟨e, hrefused⟩ := requestOpen_refused media (p := p) (by simp [Closed, h.buffering])
    show (p.requestOpen media).2.Stalled queues
    rw [hrefused]
    exact h
  | setPlayWhenReady playWhenReady =>
    have h' : { p with playWhenReady }.Stalled queues := ⟨h.buffering, h.tasks, h.overfull, h.session⟩
    exact h'.post .applyPlayback 0 0 rfl
  | setVolume volume =>
    have h' : { p with volume := Scalar.clamp volume 0.0 1.0 }.Stalled queues :=
      ⟨h.buffering, h.tasks, h.overfull, h.session⟩
    exact h'.post (.setVolume _) 0 0 rfl
  | setMuted muted =>
    have h' : { p with muted }.Stalled queues := ⟨h.buffering, h.tasks, h.overfull, h.session⟩
    exact h'.post (.setMuted muted) 0 0 rfl
  | pull out =>
    have hsame : (p.pull out).2 = p := by
      unfold Player.pull
      rw [hs]
      dsimp only
      split
      next => rfl
      next a ha =>
        -- the output is paused and puts out silence without asking the renderer
        have hsilent : a.renderer.sink.isPulling = false := by
          simp [AudioSink.isPulling, PullSink.source?, (hstalled.audio a ha).silent]
        have hquiet : a.pull s.clock s.live p.now out = (List.replicate out.length 0, [], a, s.clock) := by
          rw [AudioPipeline.pull, hsilent]
          rfl
        rw [hquiet]
        show ({ p with session := some { s with audio := some a } } : Player R κa κv σ) = p
        rw [← ha, ← hs]
    show (p.pull out).2.Stalled queues
    rw [hsame]
    exact h
  | advance nanos => exact ⟨h.buffering, h.tasks, h.overfull, h.session⟩
  | step thread =>
    by_cases hthread : thread = .player
    · subst hthread
      have hdoes := p.act_does (.step .player)
      generalize p.act (.step .player) = p' at hdoes ⊢
      cases hdoes with
      | works _ _ quiet => cases quiet
      | runs task loop next =>
        obtain ⟨hidle, htasks⟩ := h.tasks.next? next
        have hloop : ({ p with loop } : Player R κa κv σ).Stalled queues :=
          ⟨h.buffering, htasks, h.overfull, h.session⟩
        exact hloop.run hidle
      | rests loop _ queue => exact ⟨h.buffering, fun m hm => h.tasks m (queue ▸ hm), h.overfull, h.session⟩
    · obtain ⟨s', hstalled', hstep⟩ := hstalled.step p.now thread
      have hact : p.act (.step thread) = { p with session := some s' } := by
        show p.step thread = _
        unfold Player.step
        cases thread <;> first | exact absurd rfl hthread | simp [hs, hstep]
      rw [hact]
      exact ⟨h.buffering, h.tasks, h.overfull, s', rfl, hstalled'⟩

theorem acts (h : p.Stalled queues) {as : List (PlayerAct R κa κv σ)}
    (rule : ∀ a ∈ as, a.interrupts = false) : (p.acts as).Stalled queues :=
  List.foldlRecOn (motive := Player.Stalled queues) as Player.act h fun _ hp a ha => hp.act (rule a ha)

end Stalled

/-- **When buffering does not end.** For every configuration, all that queues can hold: the demuxer does not
read and the player has not enough exactly if reading goes on, is limited, the queues are over the limit of
bytes, and one of them lacks packets. And a player that stands there with everything waiting buffers, with
the same queues, after every run without a seek and a stop. -/
theorem buffering_stalls [Codec κa RawAudioFrame] [Codec κv RawVideoFrame] [Source σ R]
    (c : BufferConfig R) (s : Session R κa κv σ) (p : Player R κa κv σ)
    (queues : List StreamQueue) :
    (Demuxer.needsMore c s.queues = false ∧ s.hasEnough c = false ↔
      Overfull c s.queues ∧ s.demuxer.eof = false) ∧
    (p.Stalled queues → ∀ as, (∀ a ∈ as, PlayerAct.interrupts a = false) →
      (p.acts as).state = .buffering ∧ (p.acts as).session.map (·.queues) = some queues) := by
  constructor
  · constructor
    · rintro ⟨hmore, henough⟩
      exact overfull_of_tests hmore henough
    · rintro ⟨hover, hreading⟩
      exact ⟨hover.needsMore, hover.hasEnough hreading⟩
  · intro hstalled as hrule
    have hend := hstalled.acts hrule
    obtain ⟨s', hs', hsame⟩ := hend.session
    exact ⟨hend.buffering, by rw [hs', Option.map_some, hsame.same]⟩

/-! A player in which this happens. -/

/-- A configuration in which one packet is over the limit of bytes. -/
def tightConfig : PlayerConfig Float :=
  { PlayerConfig.default with
    buffer := { BufferConfig.default with maxQueueBytes := 0, audioRingCapacity := 1 } }

/-- A run after which one block is decoded and one packet waits. -/
def untilStalled : List (PlayerAct Float (ScriptedCodec RawAudioFrame) (ScriptedCodec RawVideoFrame)
    (ScriptedSource Float)) :=
  [.requestOpen (.audible (.tone 3)), .step .player, .step .audioRenderer]
    ++ List.replicate 20 (.step .audioDecoder) ++ List.replicate 3 (.step .demuxer)
    ++ List.replicate 20 (.step .audioDecoder) ++ [.step .audioRenderer, .advance 10000000]
    ++ List.replicate 3 (.step .demuxer)

theorem stalled_by_one_packet :
    let p : ScriptedPlayer Float := (make tightConfig .obliging .silent).acts untilStalled
    (∃ queues, p.Stalled queues) ∧
      (p.acts [.setPlayWhenReady true, .advance 60000000000, .step .demuxer, .step .player]).state
        = .buffering := by
  intro p
  have hplayer : p.state = .buffering ∧ p.loop.Holds PlayerTask.isIdle := by decide +kernel
  have hsession : ∃ s ∈ p.session, (Overfull p.config.buffer s.queues ∧
      Overfull s.demuxer.config s.queues ∧ s.demuxer.eof = false ∧
      s.demuxer.loop.Holds DemuxTask.isRead ∧ (∀ a ∈ s.audio, a.Stalled) ∧ ∀ v ∈ s.video, v.Stalled) := by
    decide +kernel
  obtain ⟨s, hs, hover, hdemuxer, hreading, htasks, haudio, hvideo⟩ := hsession
  have hstalled : p.Stalled s.queues :=
    ⟨hplayer.1, hplayer.2, hover, s, hs, rfl, hdemuxer, hreading, htasks, haudio, hvideo⟩
  refine ⟨⟨s.queues, hstalled⟩, ?_⟩
  exact ((buffering_stalls p.config.buffer s p s.queues).2 hstalled _ (by decide)).1

end Player
end Playback
