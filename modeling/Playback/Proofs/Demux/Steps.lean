import Playback.Demux.Demuxer

/-!
# Steps of a demuxer

`step_cases` says once what a step of a demuxer's thread may do, whatever the source: where batches end, when the
task to read is posted again and which packets are counted play no part in it. `seek_granted` and `seek_denied` are
the two ways that a seek can go.

`Logged` is a source that keeps account of what it gave, seek by seek. A demuxer does with it what it does with the
source itself (`step_plain`).
-/

namespace Playback

variable {R σ : Type}

/-! ## What a step of the thread does -/

namespace Demuxer

variable [Scalar R] [Source σ R]

/-- Where a seek to a position leads; nowhere if the source cannot seek. -/
def sought? (source : σ) (position : R) : Option (Except PlayerError Unit × σ) :=
  if Source.isSeekable source then
    some (Source.seek source (seekTarget (Source.info source).duration position))
  else none

/-- What a step may do to the queues and to what is known of the source; `eof` says whether the end is
marked. -/
inductive Stepped (source : σ) (eof : Bool) (queues : List StreamQueue) (m : MediaClock R) :
    Demuxed R σ → Prop where
  /-- Nothing is read. -/
  | idle {d : Demuxer R σ} (same : d.source = source) (mark : d.eof = eof) :
      Stepped source eof queues m ⟨d, queues, m, none⟩
  | packet {d : Demuxer R σ} {p : Packet} (read : Source.read source = (.ok (some p), d.source))
      (known : p.stream ∈ queues.map (·.queue.stream)) (mark : d.eof = false) :
      Stepped source eof queues m ⟨d, onStream p.stream (fun q => (q.put p).2) queues, m, none⟩
  /-- No queue is for the packet. -/
  | passed {d : Demuxer R σ} {p : Packet} (read : Source.read source = (.ok (some p), d.source))
      (unknown : p.stream ∉ queues.map (·.queue.stream)) (mark : d.eof = eof) :
      Stepped source eof queues m ⟨d, queues, m, none⟩
  | ends {d : Demuxer R σ} (read : Source.read source = (.ok none, d.source)) (first : eof = false)
      (mark : d.eof = true) :
      Stepped source eof queues m ⟨d, onAll (fun q => q.putEndOfStream.2) queues, m, some .endOfFile⟩
  /-- The end is marked already. -/
  | still {d : Demuxer R σ} (read : Source.read source = (.ok none, d.source)) (again : eof = true)
      (mark : d.eof = true) : Stepped source eof queues m ⟨d, queues, m, none⟩
  | fails {d : Demuxer R σ} {e : PlayerError} (read : Source.read source = (.error e, d.source))
      (mark : d.eof = eof) : Stepped source eof queues m ⟨d, queues, m, some (.error e.message)⟩
  | seeks {d : Demuxer R σ} {position : R} {clock : MediaClock R} {event : Option (DemuxEvent R)}
      (sought : sought? source position = some (.ok (), d.source)) (mark : d.eof = false) :
      Stepped source eof queues m ⟨d, onAll (fun q => q.beginGeneration.2) queues, clock, event⟩
  /-- The source could not go there. -/
  | stays {d : Demuxer R σ} {position : R} {e : PlayerError}
      (sought : sought? source position = some (.error e, d.source)) (mark : d.eof = eof) :
      Stepped source eof queues m ⟨d, queues, m, some (.error e.message)⟩

omit [Scalar R] [Source σ R] in
theorem store_known {queues : List StreamQueue} {p : Packet}
    (known : queues.any (·.queue.stream = p.stream) = true) (d : Demuxer R σ) :
    ∃ videoPackets audioPackets, d.store queues p
      = ({ d with eof := false, videoPackets, audioPackets },
        onStream p.stream (fun q => (q.put p).2) queues) := by
  unfold store
  rw [if_pos known]
  cases p.stream with
  | video => exact ⟨_, _, rfl⟩
  | audio => exact ⟨_, _, rfl⟩

theorem readOne_cases (d : Demuxer R σ) (queues : List StreamQueue) (m : MediaClock R) (now left : Nat) :
    Stepped d.source d.eof queues m (d.readOne queues m now left) := by
  have hmem (p : Packet) : queues.any (·.queue.stream = p.stream) = true
      ↔ p.stream ∈ queues.map (·.queue.stream) := by
    simp only [List.any_eq_true, decide_eq_true_eq, List.mem_map]
  unfold readOne
  dsimp only
  split
  next => exact .idle rfl rfl
  next left =>
    split
    next => exact .idle rfl rfl
    next =>
      split
      next p source heq =>
        by_cases hknown : queues.any (·.queue.stream = p.stream) = true
        · obtain ⟨_, _, hstore⟩ := store_known hknown { d with source, reading := some left }
          rw [hstore]
          exact .packet heq ((hmem p).mp hknown) rfl
        · unfold store
          rw [if_neg hknown]
          exact .passed heq (fun h => hknown ((hmem p).mpr h)) rfl
      next source heq =>
        split
        next hagain => exact .still heq hagain rfl
        next hfirst => exact .ends heq (by simpa using hfirst) rfl
      next e source heq => exact .fails heq rfl

omit [Scalar R] [Source σ R] in
/-- A wake-up posts a task at most. -/
theorem notify_eq (d : Demuxer R σ) (now : Nat) : ∃ loop, d.notify now = { d with loop } := by
  unfold notify
  split
  next => exact ⟨d.loop, rfl⟩
  next => exact ⟨_, rfl⟩

/-- A seek that succeeds begins a generation in every queue and sets the external clock. -/
theorem seek_granted {d : Demuxer R σ} {position : R} {source : σ}
    (granted : sought? d.source position = some (.ok (), source)) (queues : List StreamQueue)
    (m : MediaClock R) (now : Nat) :
    let target := seekTarget (Source.info d.source).duration position
    d.seek queues m now position = ⟨{ d with source, eof := false, failed := false }.postRead now 0,
      onAll (fun q => q.beginGeneration.2) queues, m.setAt .external target 0 (Scalar.ofNanos now),
      some (.seekCompleted target)⟩ := by
  unfold sought? at granted
  obtain ⟨hseekable, hseek⟩ := Option.ite_none_right_eq_some.mp granted
  intro target
  unfold seek
  dsimp only
  rw [hseekable, Option.some.inj hseek]
  rfl

/-- A seek that is refused or fails leaves everything but the source as it was. -/
theorem seek_denied {d : Demuxer R σ} {position : R}
    (denied : ∀ source, sought? d.source position ≠ some (.ok (), source)) (queues : List StreamQueue)
    (m : MediaClock R) (now : Nat) :
    ∃ source event, d.seek queues m now position = ⟨{ d with source }, queues, m, event⟩ ∧
      ((source = d.source ∧ event = none) ∨
        ∃ e, sought? d.source position = some (.error e, source) ∧ event = some (.error e.message)) := by
  unfold seek
  dsimp only
  split
  next => exact ⟨_, _, rfl, .inl ⟨rfl, rfl⟩⟩
  next hseekable =>
    have hsought : sought? d.source position
        = some (Source.seek d.source (seekTarget (Source.info d.source).duration position)) :=
      if_pos (by simpa using hseekable)
    split
    next e source heq => exact ⟨_, _, rfl, .inr ⟨e, hsought.trans (congrArg some heq), rfl⟩⟩
    next source heq => exact absurd (hsought.trans (congrArg some heq)) (denied source)

theorem seek_cases (d : Demuxer R σ) (queues : List StreamQueue) (m : MediaClock R) (now : Nat) (position : R) :
    Stepped d.source d.eof queues m (d.seek queues m now position) := by
  by_cases h : ∃ source, sought? d.source position = some (.ok (), source)
  · obtain ⟨source, hgranted⟩ := h
    rw [seek_granted hgranted]
    exact .seeks hgranted rfl
  · obtain ⟨source, event, hseek, ⟨rfl, rfl⟩ | ⟨e, hsought, rfl⟩⟩ :=
      seek_denied (fun source hgranted => h ⟨source, hgranted⟩) queues m now
    · rw [hseek]
      exact .idle rfl rfl
    · rw [hseek]
      exact .stays hsought rfl

theorem step_cases (d : Demuxer R σ) (queues : List StreamQueue) (m : MediaClock R) (now : Nat) :
    Stepped d.source d.eof queues m (d.step queues m now) := by
  unfold step
  split
  next left _ => exact d.readOne_cases queues m now left
  next =>
    split
    next => exact .idle rfl rfl
    next position loop _ => exact seek_cases { d with loop } queues m now position
    next =>
      split
      next => exact .idle rfl rfl
      next => exact .idle rfl rfl

end Demuxer

/-! ## Sources with an account -/

/-- What a source gives to a read: a packet, or the end, or an error. -/
abbrev SourceAnswer := Except PlayerError (Option Packet)

/-- A source with an account of its answers, oldest first. -/
structure Logged (σ : Type) where
  source : σ
  /-- What it gave before each of the seeks that succeeded. -/
  past : List (List SourceAnswer)
  /-- What it gave since the last one. -/
  recent : List SourceAnswer

/-- A source that answers as before and keeps account of it. -/
instance Logged.instSource [Source σ R] : Source (Logged σ) R where
  read s :=
    let (answer, source) := Source.read s.source
    (answer, { s with source, recent := s.recent ++ [answer] })
  seek s position :=
    match Source.seek s.source position with
    | (.ok (), source) => (.ok (), ⟨source, s.past ++ [s.recent], []⟩)
    | (.error e, source) => (.error e, { s with source })
  info s := Source.info s.source
  stream? s := Source.stream? s.source
  isSeekable s := Source.isSeekable s.source

namespace Logged

/-- The answers in each generation. -/
def generations (s : Logged σ) : List (List SourceAnswer) :=
  s.past ++ [s.recent]

variable [Source σ R] {s s' : Logged σ}

theorem read_eq (s : Logged σ) : Source.read s = ((Source.read s.source).1,
    ⟨(Source.read s.source).2, s.past, s.recent ++ [(Source.read s.source).1]⟩) :=
  rfl

theorem seek_eq (s : Logged σ) (position : R) :
    Source.seek s position = match Source.seek s.source position with
      | (.ok (), source) => (.ok (), ⟨source, s.past ++ [s.recent], []⟩)
      | (.error e, source) => (.error e, { s with source }) :=
  rfl

theorem read_account {answer : SourceAnswer} (h : Source.read s = (answer, s')) :
    s'.past = s.past ∧ s'.recent = s.recent ++ [answer] := by
  rw [read_eq] at h
  obtain ⟨rfl, rfl⟩ := Prod.mk.inj h
  exact ⟨rfl, rfl⟩

theorem seek_account {position : R} {result : Except PlayerError Unit}
    (h : Source.seek s position = (result, s')) :
    (result = .ok () → s'.past = s.past ++ [s.recent] ∧ s'.recent = []) ∧
      (∀ e, result = .error e → s'.past = s.past ∧ s'.recent = s.recent) := by
  rw [seek_eq] at h
  split at h
  next =>
    obtain ⟨rfl, rfl⟩ := Prod.mk.inj h
    exact ⟨fun _ => ⟨rfl, rfl⟩, nofun⟩
  next =>
    obtain ⟨rfl, rfl⟩ := Prod.mk.inj h
    exact ⟨nofun, fun _ _ => ⟨rfl, rfl⟩⟩

end Logged

/-! ## The account changes nothing -/

namespace Demuxer

/-- The demuxer without the account of its source. -/
def plain (d : Demuxer R (Logged σ)) : Demuxer R σ :=
  ⟨d.source.source, d.config, d.loop, d.runner, d.reading, d.eof, d.stopped, d.failed, d.videoPackets,
    d.audioPackets⟩

end Demuxer

def Demuxed.plain (r : Demuxed R (Logged σ)) : Demuxed R σ :=
  ⟨r.demuxer.plain, r.queues, r.clock, r.event⟩

namespace Demuxer

theorem store_plain (d : Demuxer R (Logged σ)) (queues : List StreamQueue) (p : Packet) :
    d.plain.store queues p = ((d.store queues p).1.plain, (d.store queues p).2) := by
  unfold store
  split
  next => cases p.stream <;> rfl
  next => rfl

variable [Scalar R] [Source σ R]

theorem seek_plain (d : Demuxer R (Logged σ)) (queues : List StreamQueue) (m : MediaClock R) (now : Nat)
    (position : R) : d.plain.seek queues m now position = (d.seek queues m now position).plain := by
  have hplain : d.plain.source = d.source.source := rfl
  have hseekable : Source.isSeekable d.source = Source.isSeekable d.source.source := rfl
  have hinfo : Source.info d.source = Source.info d.source.source := rfl
  unfold seek
  dsimp only
  rw [hplain, Logged.seek_eq, hseekable, hinfo]
  generalize seekTarget (Source.info d.source.source).duration position = target
  split
  next => rfl
  next => rcases Source.seek d.source.source target with ⟨_ | _, source⟩ <;> rfl

theorem readOne_plain (d : Demuxer R (Logged σ)) (queues : List StreamQueue) (m : MediaClock R) (now left : Nat) :
    d.plain.readOne queues m now left = (d.readOne queues m now left).plain := by
  have hplain : d.plain.source = d.source.source := rfl
  have hconfig : d.plain.config = d.config := rfl
  have heof : d.plain.eof = d.eof := rfl
  cases left with
  | zero => rfl
  | succ left =>
    unfold readOne
    dsimp only
    rw [Logged.read_eq, hplain, hconfig]
    split
    next => rfl
    next =>
      rcases Source.read d.source.source with ⟨_ | _ | p, source⟩
      · rfl
      · dsimp only
        rw [heof]
        split <;> rfl
      · exact congrArg (fun r : Demuxer R σ × List StreamQueue => (⟨r.1, r.2, m, none⟩ : Demuxed R σ))
          (store_plain { d with
            source := ⟨source, d.source.past, d.source.recent ++ [.ok (some p)]⟩
            reading := some left } queues p)

/-- A demuxer steps as it would without the account. -/
theorem step_plain (d : Demuxer R (Logged σ)) (queues : List StreamQueue) (m : MediaClock R) (now : Nat) :
    d.plain.step queues m now = (d.step queues m now).plain := by
  have hreading : d.plain.reading = d.reading := rfl
  have hloop : d.plain.loop = d.loop := rfl
  unfold step
  rw [hreading, hloop]
  split
  next left _ => exact d.readOne_plain queues m now left
  next =>
    split
    next => rfl
    next position loop _ => exact seek_plain { d with loop } queues m now position
    next =>
      cases d.loop.isEnding <;> rfl

end Demuxer

end Playback
