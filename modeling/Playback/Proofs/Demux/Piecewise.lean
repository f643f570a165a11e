import Mathlib.Data.List.Forall2
import Playback.Proofs.Demux.Content

/-!
# A step of a demuxer, queue by queue

`Demuxer.step` changes all queues at once. The thread itself looks at one queue after the other, goes to the source, and
then writes into one queue after the other, while decoders go on taking entries out. `Demuxer.beginStep` is the part of
a step up to where something is written, judged by what the thread saw of the queues; `Writing` is what is left to do
then, and `DemuxThread.write` does it for the next queue.

Nobody being in its way, the thread makes just the step (`begin_writes`). What it is about to write, it has from its
source, and what joins a generation only where it saw the queues within their limit (`Begins`).
-/

namespace Playback

variable {R σ : Type}

/-- A change that a demuxer's thread makes in one queue after the other. -/
inductive Sweep (R : Type) where
  /-- The end of the source is marked. -/
  | ends
  /-- A new generation begins at a target. -/
  | generation (target : R)
deriving DecidableEq

/-- The change in one queue. -/
def Sweep.change : Sweep R → PacketQueue → PacketQueue
  | .ends, q => q.putEndOfStream.2
  | .generation _, q => q.beginGeneration.2

/-- What a demuxer's thread has still to do in its step. -/
inductive Writing (R : Type) where
  | nothing
  /-- A packet goes into the queue of its stream. -/
  | packet (p : Packet)
  /-- The queues from this one on are changed, and then the step is finished. -/
  | sweep (s : Sweep R) (next : Nat)
deriving DecidableEq

namespace Demuxer

variable [Scalar R] [Source σ R]

/-- Reads the next packet of a batch, unless what was seen of the queues is enough. -/
def beginRead (d : Demuxer R σ) (seen : List StreamQueue) (now : Nat) : Nat → Demuxer R σ × Writing R
  | 0 => ({ d with reading := none }.postRead now 0, .nothing)
  | left + 1 =>
    let done := { d with reading := none }
    if !needsMore d.config seen then (done.postRead now d.retryDelay, .nothing)
    else
      match Source.read d.source with
      | (.ok (some p), source) =>
        (({ d with source, reading := some left }.store seen p).1,
          if seen.any (·.queue.stream = p.stream) then .packet p else .nothing)
      | (.ok none, source) =>
        if d.eof then ({ done with source, eof := true }.postRead now d.retryDelay, .nothing)
        else ({ done with source, eof := true }, .sweep .ends 0)
      | (.error _, source) => ({ done with source, failed := true }, .nothing)

/-- Takes the source to a position, if it can be taken there. -/
def beginSeek (d : Demuxer R σ) (position : R) : Demuxer R σ × Writing R :=
  match sought? d.source position with
  | some (.ok _, source) =>
    ({ d with source }, .sweep (.generation (seekTarget (Source.info d.source).duration position)) 0)
  | some (.error _, source) => ({ d with source }, .nothing)
  | none => (d, .nothing)

/-- A step up to where something is written. -/
def beginStep (d : Demuxer R σ) (seen : List StreamQueue) (now : Nat) : Demuxer R σ × Writing R :=
  match d.reading with
  | some left => d.beginRead seen now left
  | none =>
    match d.loop.next? now with
    | some (.read, loop) =>
      ({ d with loop, reading := if d.stopped || d.failed then none else some DemuxTask.batch }, .nothing)
    | some (.seek position, loop) => { d with loop }.beginSeek position
    | none => (if d.loop.isEnding then { d with loop := d.loop.finish } else d, .nothing)

end Demuxer

/-- A demuxer with its queues and clocks, its thread in the midst of a step. -/
structure DemuxThread (R σ : Type) where
  demuxer : Demuxer R σ
  queues : List StreamQueue
  clock : MediaClock R
  writing : Writing R

/-- Where a step leaves the thread. -/
def Demuxed.thread (r : Demuxed R σ) : DemuxThread R σ :=
  ⟨r.demuxer, r.queues, r.clock, .nothing⟩

namespace DemuxThread

variable [Scalar R]

/-- What is done after the last queue. -/
def finish (t : DemuxThread R σ) (now : Nat) : Sweep R → DemuxThread R σ
  | .ends => { t with demuxer := t.demuxer.postRead now t.demuxer.retryDelay, writing := .nothing }
  | .generation target => { t with
      demuxer := { t.demuxer with eof := false, failed := false }.postRead now 0
      clock := t.clock.setAt .external target 0 (Scalar.ofNanos now)
      writing := .nothing }

/-- Does what comes next of what is left to do. -/
def write (t : DemuxThread R σ) (now : Nat) : DemuxThread R σ :=
  match t.writing with
  | .nothing => t
  | .packet p => { t with
      queues := Demuxer.onStream p.stream (fun q => (q.put p).2) t.queues
      writing := .nothing }
  | .sweep s next =>
    if next < t.queues.length then { t with
      queues := t.queues.modify next fun q => { q with queue := s.change q.queue }
      writing := .sweep s (next + 1) }
    else t.finish now s

def writes (t : DemuxThread R σ) (now : Nat) : Nat → DemuxThread R σ
  | 0 => t
  | count + 1 => (t.write now).writes now count

/-- Begins a step, judged by what was seen of the queues. -/
def begin [Source σ R] (t : DemuxThread R σ) (seen : List StreamQueue) (now : Nat) : DemuxThread R σ :=
  let (demuxer, writing) := t.demuxer.beginStep seen now
  { t with demuxer, writing }

/-! ## Whole steps -/

theorem writes_done {t : DemuxThread R σ} (done : t.writing = .nothing) (now count : Nat) :
    t.writes now count = t := by
  induction count with
  | zero => rfl
  | succ count ih =>
    have hwrite : t.write now = t := by simp only [write, done]
    rw [writes, hwrite, ih]

/-- A sweep goes through the rest of the queues. -/
theorem writes_sweep (d : Demuxer R σ) (front rest : List StreamQueue) (m : MediaClock R) (s : Sweep R) (now : Nat) :
    (⟨d, front ++ rest, m, .sweep s front.length⟩ : DemuxThread R σ).writes now (rest.length + 1)
      = (⟨d, front ++ Demuxer.onAll s.change rest, m, .nothing⟩ : DemuxThread R σ).finish now s := by
  induction rest generalizing front with
  | nil =>
    have hlast : ¬ front.length < (front ++ []).length := by simp
    show (if front.length < (front ++ []).length then _ else _) = _
    rw [if_neg hlast]
    cases s <;> rfl
  | cons q rest ih =>
    have hnext : front.length < (front ++ q :: rest).length := by simp
    have hchanged : (front ++ q :: rest).modify front.length (fun q => { q with queue := s.change q.queue })
        = (front ++ [{ q with queue := s.change q.queue }]) ++ rest := by
      rw [List.modify_eq_take_cons_drop hnext]
      simp
    have hstep : (⟨d, front ++ q :: rest, m, .sweep s front.length⟩ : DemuxThread R σ).write now
        = ⟨d, (front ++ [{ q with queue := s.change q.queue }]) ++ rest, m,
          .sweep s (front ++ [{ q with queue := s.change q.queue }]).length⟩ := by
      show (if front.length < (front ++ q :: rest).length then _ else _) = _
      rw [if_pos hnext, hchanged, List.length_append]
      rfl
    rw [List.length_cons, writes, hstep, ih]
    simp [Demuxer.onAll]

/-- A sweep goes through all queues. -/
theorem writes_all (d : Demuxer R σ) (queues : List StreamQueue) (m : MediaClock R) (s : Sweep R) (now : Nat) :
    (⟨d, queues, m, .sweep s 0⟩ : DemuxThread R σ).writes now (queues.length + 1)
      = (⟨d, Demuxer.onAll s.change queues, m, .nothing⟩ : DemuxThread R σ).finish now s :=
  writes_sweep d [] queues m s now

variable [Source σ R]

theorem beginRead_writes (d : Demuxer R σ) (queues : List StreamQueue) (m : MediaClock R) (now left : Nat) :
    (⟨(d.beginRead queues now left).1, queues, m, (d.beginRead queues now left).2⟩ : DemuxThread R σ).writes now
      (queues.length + 1) = (d.readOne queues m now left).thread := by
  cases left with
  | zero => exact writes_done rfl ..
  | succ left =>
    unfold Demuxer.beginRead Demuxer.readOne
    dsimp only
    cases Demuxer.needsMore d.config queues with
    | false => exact writes_done rfl ..
    | true =>
      rcases Source.read d.source with ⟨_ | _ | p, source⟩
      · exact writes_done rfl ..
      · cases heof : d.eof with
        | true => exact writes_done rfl ..
        | false => exact writes_all ..
      · dsimp only [Bool.not_true, Bool.false_eq_true, if_false]
        by_cases hknown : queues.any (·.queue.stream = p.stream) = true
        · -- the packet is written at once, and nothing is left to do
          obtain ⟨videoPackets, audioPackets, hstore⟩ :=
            Demuxer.store_known hknown { d with source, reading := some left }
          rw [hstore, if_pos hknown, writes]
          exact writes_done rfl ..
        · rw [if_neg hknown, Demuxer.store, if_neg hknown]
          exact writes_done rfl ..

theorem beginSeek_writes (d : Demuxer R σ) (queues : List StreamQueue) (m : MediaClock R) (now : Nat) (position : R) :
    (⟨(d.beginSeek position).1, queues, m, (d.beginSeek position).2⟩ : DemuxThread R σ).writes now (queues.length + 1)
      = (d.seek queues m now position).thread := by
  unfold Demuxer.beginSeek Demuxer.sought? Demuxer.seek
  cases Source.isSeekable d.source with
  | false => exact writes_done rfl ..
  | true =>
    dsimp only [if_true, Bool.not_true, Bool.false_eq_true, if_false]
    rcases Source.seek d.source (Demuxer.seekTarget (Source.info d.source).duration position) with ⟨_ | _, source⟩
    · exact writes_done rfl ..
    · exact writes_all ..

/-- A step that nobody comes in between of, queue by queue, is the step of all queues at once. -/
theorem begin_writes (t : DemuxThread R σ) (now : Nat) :
    (t.begin t.queues now).writes now (t.queues.length + 1)
      = (t.demuxer.step t.queues t.clock now).thread := by
  unfold begin Demuxer.beginStep Demuxer.step
  dsimp only
  cases t.demuxer.reading with
  | some left => exact beginRead_writes ..
  | none =>
    rcases t.demuxer.loop.next? now with _ | ⟨_ | position, loop⟩
    · exact writes_done rfl ..
    · exact writes_done rfl ..
    · exact beginSeek_writes ..

end DemuxThread

/-! ## Packets that a source gave -/

namespace Logged

def packets (s : Logged σ) : List Packet :=
  s.generations.flatten.filterMap packetOf?

theorem packets_eq (s : Logged σ) : s.packets = (s.past.flatten ++ s.recent).filterMap packetOf? := by
  simp [packets, generations]

variable [Source σ R] {s s' : Logged σ}

theorem packets_read {answer : SourceAnswer} (h : Source.read s = (answer, s')) :
    s'.packets = s.packets ++ (packetOf? answer).toList := by
  obtain ⟨hpast, hrecent⟩ := read_account h
  rw [packets_eq, packets_eq, hpast, hrecent, ← List.append_assoc, List.filterMap_append]
  cases hpacket : packetOf? answer <;> simp [hpacket]

theorem packets_seek {position : R} {result : Except PlayerError Unit} (h : Source.seek s position = (result, s')) :
    s'.packets = s.packets := by
  rw [packets_eq, packets_eq]
  obtain ⟨hgranted, hdenied⟩ := seek_account h
  cases result with
  | ok =>
    obtain ⟨hpast, hrecent⟩ := hgranted rfl
    rw [hpast, hrecent]
    simp
  | error e =>
    obtain ⟨hpast, hrecent⟩ := hdenied e rfl
    rw [hpast, hrecent]

end Logged

/-! ## The beginning of a step -/

namespace Demuxer

variable [Scalar R] [Source σ R]

/-- What joins a generation is written within the limit, and packets come from the source. -/
inductive Begun (config : BufferConfig R) (seen : List StreamQueue) (source : Logged σ) : Writing R → Prop where
  | nothing : Begun config seen source .nothing
  | packet (p : Packet) (more : needsMore config seen = true) (given : p ∈ source.packets) :
      Begun config seen source (.packet p)
  | ends (more : needsMore config seen = true) : Begun config seen source (.sweep .ends 0)
  | generation (target : R) : Begun config seen source (.sweep (.generation target) 0)

/-- A step begins with the configuration that there was, and forgets no packet. -/
structure Begins (d : Demuxer R (Logged σ)) (seen : List StreamQueue) (r : Demuxer R (Logged σ) × Writing R) :
    Prop where
  config : r.1.config = d.config
  packets : d.source.packets ⊆ r.1.source.packets
  writing : Begun d.config seen r.1.source r.2

omit [Source σ R] in
theorem Begins.idle {d d' : Demuxer R (Logged σ)} {seen : List StreamQueue} (config : d'.config = d.config)
    (packets : d.source.packets ⊆ d'.source.packets) : d.Begins seen (d', .nothing) :=
  ⟨config, packets, .nothing⟩

theorem beginRead_begins (d : Demuxer R (Logged σ)) (seen : List StreamQueue) (now left : Nat) :
    d.Begins seen (d.beginRead seen now left) := by
  cases left with
  | zero => exact .idle rfl (List.Subset.refl _)
  | succ left =>
    unfold beginRead
    dsimp only
    cases hmore : needsMore d.config seen with
    | false => exact .idle rfl (List.Subset.refl _)
    | true =>
      rcases hread : Source.read d.source with ⟨_ | _ | p, source⟩
      all_goals
        have hpackets := Logged.packets_read hread
        have hkept : d.source.packets ⊆ source.packets := hpackets ▸ List.subset_append_left _ _
      · exact .idle rfl hkept
      · cases d.eof with
        | true => exact .idle rfl hkept
        | false => exact ⟨rfl, hkept, .ends hmore⟩
      · dsimp only [Bool.not_true, Bool.false_eq_true, if_false]
        by_cases hknown : seen.any (·.queue.stream = p.stream) = true
        · obtain ⟨videoPackets, audioPackets, hstore⟩ := store_known hknown { d with source, reading := some left }
          have hgiven : p ∈ source.packets := hpackets ▸ List.mem_append_right _ (List.mem_singleton_self p)
          rw [hstore, if_pos hknown]
          exact ⟨rfl, hkept, .packet p hmore hgiven⟩
        · rw [if_neg hknown, store, if_neg hknown]
          exact .idle rfl hkept

theorem beginSeek_begins (d : Demuxer R (Logged σ)) (seen : List StreamQueue) (position : R) :
    d.Begins seen (d.beginSeek position) := by
  have hkept {result : Except PlayerError Unit} {source : Logged σ}
      (h : sought? d.source position = some (result, source)) : d.source.packets ⊆ source.packets := by
    rw [Logged.packets_seek (Option.some.inj (Option.ite_none_right_eq_some.mp h).2)]
    exact List.Subset.refl _
  unfold beginSeek
  split
  next h => exact ⟨rfl, hkept h, .generation _⟩
  next h => exact .idle rfl (hkept h)
  next => exact .idle rfl (List.Subset.refl _)

theorem beginStep_begins (d : Demuxer R (Logged σ)) (seen : List StreamQueue) (now : Nat) :
    d.Begins seen (d.beginStep seen now) := by
  unfold beginStep
  split
  next => exact d.beginRead_begins ..
  next =>
    split
    next => exact .idle rfl (List.Subset.refl _)
    next loop _ =>
      obtain ⟨hconfig, hpackets, hwriting⟩ := beginSeek_begins { d with loop } seen _
      exact ⟨hconfig, hpackets, hwriting⟩
    next =>
      split
      next => exact .idle rfl (List.Subset.refl _)
      next => exact .idle rfl (List.Subset.refl _)

end Demuxer

end Playback
