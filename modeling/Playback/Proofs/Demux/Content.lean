import Playback.PacketQueue.Take
import Playback.Proofs.Demux.Steps
import Playback.Scripted.Source

/-!
# What a demuxer puts into its queues

A demuxer reads in batches that end early for several reasons, is woken by decoders, and seeks between two
batches. What it puts into the queues depends on none of that, but only on what its source gave and when
seeks succeeded. `deliveries` says what follows from the answers of a source within one generation: the packets of
those streams that have a queue, and a mark for the end, unless one was put since the last packet. Each queue gets a
boundary and then its packets and all marks (`writtenTo`).

`Track` is a queue with everything that was put into it, and `Track.Holds` ties the two to the account of the source:
an item that joins the present generation, a new generation and a look of a reader each keep it. `act_accounted`
carries this along a run.
-/

namespace Playback

variable {R σ : Type}

/-! ## What follows from the answers of a source -/

/-- What an answer puts into queues of these kinds; `ended` says whether the end is marked. -/
def delivery (kinds : List StreamKind) (ended : Bool) : SourceAnswer → List QueueItem
  | .ok (some p) => if p.stream ∈ kinds then [.packet p] else []
  | .ok none => if ended then [] else [.endOfStream]
  | .error _ => []

/-- Whether the end is marked after an answer. -/
def endedAfter (kinds : List StreamKind) (ended : Bool) : SourceAnswer → Bool
  | .ok (some p) => if p.stream ∈ kinds then false else ended
  | .ok none => true
  | .error _ => ended

/-- What the answers of a generation put into the queues. -/
def deliveries (kinds : List StreamKind) : Bool → List SourceAnswer → List QueueItem
  | _, [] => []
  | ended, answer :: answers =>
    delivery kinds ended answer ++ deliveries kinds (endedAfter kinds ended answer) answers

/-- Whether an item goes into the queue of a stream: its packets do, and all marks. -/
def QueueItem.goesTo (kind : StreamKind) : QueueItem → Bool
  | .packet p => p.stream = kind
  | _ => true

/-- What is put into the queue of a stream in one generation. -/
def generationOf (kind : StreamKind) (serial : Serial) (items : List QueueItem) : List QueueEntry :=
  (.boundary :: items.filter (·.goesTo kind)).map (⟨·, serial⟩)

/-- What is put into the queue of a stream in all generations. -/
def writtenTo (kinds : List StreamKind) (kind : StreamKind) (generations : List (List SourceAnswer)) :
    List QueueEntry :=
  (generations.mapIdx fun n answers => generationOf kind (n + 1) (deliveries kinds false answers)).flatten

theorem deliveries_append (kinds : List StreamKind) (ended : Bool) (front rest : List SourceAnswer) :
    deliveries kinds ended (front ++ rest) = deliveries kinds ended front
      ++ deliveries kinds (front.foldl (endedAfter kinds) ended) rest := by
  induction front generalizing ended with
  | nil => rfl
  | cons answer front ih =>
    rw [List.cons_append, deliveries, deliveries, ih, List.append_assoc, List.foldl_cons]

/-- The packets among the items. -/
def QueueItem.packet? : QueueItem → Option Packet
  | .packet p => some p
  | _ => none

/-- The packet of an answer. -/
def packetOf? (answer : SourceAnswer) : Option Packet :=
  answer.toOption.join

/-- Of the packets that a source gives, those of streams with a queue are delivered, in their order. -/
theorem deliveries_packets (kinds : List StreamKind) (ended : Bool) (answers : List SourceAnswer) :
    (deliveries kinds ended answers).filterMap QueueItem.packet?
      = (answers.filterMap packetOf?).filter (·.stream ∈ kinds) := by
  induction answers generalizing ended with
  | nil => rfl
  | cons answer answers ih =>
    rw [deliveries, List.filterMap_append, ih, List.filterMap_cons]
    rcases answer with e | _ | p
    · rfl
    · cases ended <;> rfl
    · by_cases hkind : p.stream ∈ kinds
      · simp [delivery, packetOf?, Except.toOption, QueueItem.packet?, hkind]
      · simp [delivery, packetOf?, Except.toOption, hkind]

/-- Between two marks there is a packet; and if the end is marked, a packet comes before the next mark. -/
theorem deliveries_marks (kinds : List StreamKind) (ended : Bool) (answers : List SourceAnswer) :
    ¬ [QueueItem.endOfStream, .endOfStream] <:+: deliveries kinds ended answers ∧
      (ended = true → (deliveries kinds ended answers).head? ≠ some .endOfStream) := by
  induction answers generalizing ended with
  | nil => exact ⟨fun h => absurd (List.infix_nil.mp h) (List.cons_ne_nil _ _), fun _ => nofun⟩
  | cons answer answers ih =>
    rcases answer with e | _ | p
    · exact ih ended
    · cases ended with
      | true => exact ih true
      | false =>
        obtain ⟨hmarks, hhead⟩ := ih true
        refine ⟨fun h => ?_, nofun⟩
        rcases List.infix_cons_iff.mp h with hprefix | hinfix
        · obtain ⟨rest, hrest⟩ := (List.cons_prefix_cons.mp hprefix).2
          exact hhead rfl (congrArg List.head? hrest).symm
        · exact hmarks hinfix
    · by_cases hkind : p.stream ∈ kinds
      · have hcons : deliveries kinds ended (.ok (some p) :: answers)
            = .packet p :: deliveries kinds false answers := by
          simp [deliveries, delivery, endedAfter, hkind]
        rw [hcons]
        refine ⟨fun h => ?_, fun _ => nofun⟩
        rcases List.infix_cons_iff.mp h with hprefix | hinfix
        · cases (List.cons_prefix_cons.mp hprefix).1
        · exact (ih false).1 hinfix
      · have hsame : deliveries kinds ended (.ok (some p) :: answers) = deliveries kinds ended answers := by
          simp [deliveries, delivery, endedAfter, hkind]
        rw [hsame]
        exact ih ended

/-! ## Queues with an account -/

/-- What is new in a queue after a change that takes nothing out: everything in a new generation, and otherwise
what stands behind what it held. -/
def PacketQueue.news (q q' : PacketQueue) : List QueueEntry :=
  if q'.serial = q.serial then q'.entries.drop q.entries.length else q'.entries

theorem PacketQueue.look_keeps (q : PacketQueue) (notified : Bool) :
    (q.look notified).2.stream = q.stream ∧ (q.look notified).2.aborted = q.aborted ∧
      (q.look notified).2.serial = q.serial ∧ (q.look notified).2.published = q.published ∧
      (q.look notified).2.entries <:+ q.entries := by
  unfold look pop
  split
  next => exact ⟨rfl, rfl, rfl, rfl, List.suffix_refl _⟩
  next =>
    cases hentries : q.entries with
    | nil =>
      refine ⟨rfl, rfl, rfl, rfl, ?_⟩
      show q.entries <:+ []
      simp [hentries]
    | cons e rest => exact ⟨rfl, rfl, rfl, rfl, List.suffix_cons e rest⟩

theorem PacketQueue.putItem_stream (q : PacketQueue) (item : QueueItem) : (q.putItem item).2.stream = q.stream := by
  unfold putItem
  split <;> rfl

theorem PacketQueue.beginGeneration_stream (q : PacketQueue) : q.beginGeneration.2.stream = q.stream := by
  unfold beginGeneration
  split <;> rfl

/-- The queue of a stream with an account of what was put into it, oldest first. -/
structure Track where
  stream : StreamQueue
  put : List QueueEntry

namespace Track

/-- A queue that has just been started. -/
def new (kind : StreamKind) (timeBase : Ratio) : Track :=
  let queue := (PacketQueue.new kind).start
  ⟨⟨queue, timeBase⟩, (PacketQueue.new kind).news queue⟩

def queue (t : Track) : PacketQueue := t.stream.queue

def kind (t : Track) : StreamKind := t.queue.stream

/-- The track after a change of its queue. -/
def change (t : Track) (q : PacketQueue) : Track :=
  ⟨{ t.stream with queue := q }, t.put ++ t.queue.news q⟩

/-- A reader looks into the queue. -/
def look (t : Track) (notified : Bool) : Track :=
  { t with stream := { t.stream with queue := (t.queue.look notified).2 } }

/-- The account is right: the queue runs, is in the last of these generations, and holds the last of what was
put into it. -/
structure Holds (kinds : List StreamKind) (past : List (List SourceAnswer)) (recent : List SourceAnswer) (t : Track) :
    Prop where
  running : t.queue.aborted = false
  serial : t.queue.serial = past.length + 1
  published : t.queue.published = past.length + 1
  put : t.put = writtenTo kinds t.kind (past ++ [recent])
  held : t.queue.entries <:+ t.put

theorem writtenTo_concat (kinds : List StreamKind) (kind : StreamKind) (past : List (List SourceAnswer))
    (recent : List SourceAnswer) :
    writtenTo kinds kind (past ++ [recent])
      = writtenTo kinds kind past ++ generationOf kind (past.length + 1) (deliveries kinds false recent) := by
  unfold writtenTo
  rw [List.mapIdx_concat, List.flatten_concat]

/-- What one more answer adds. -/
theorem writtenTo_answer (kinds : List StreamKind) (kind : StreamKind) (past : List (List SourceAnswer))
    (recent : List SourceAnswer) (answer : SourceAnswer) :
    writtenTo kinds kind (past ++ [recent ++ [answer]]) = writtenTo kinds kind (past ++ [recent])
      ++ ((delivery kinds (recent.foldl (endedAfter kinds) false) answer).filter (·.goesTo kind)).map
        (⟨·, past.length + 1⟩) := by
  have hone (ended : Bool) : deliveries kinds ended [answer] = delivery kinds ended answer := List.append_nil _
  rw [writtenTo_concat, writtenTo_concat, deliveries_append, hone, List.append_assoc]
  simp [generationOf]

theorem change_self (t : Track) : t.change t.queue = t := by
  have hnews : t.queue.news t.queue = [] := (if_pos rfl).trans List.drop_length
  unfold change
  rw [hnews, List.append_nil]
  rfl

variable {kinds : List StreamKind} {past : List (List SourceAnswer)} {recent : List SourceAnswer} {t : Track}

theorem new_holds (kinds : List StreamKind) (kind : StreamKind) (timeBase : Ratio) :
    (new kind timeBase).Holds kinds [] [] where
  running := rfl
  serial := rfl
  published := rfl
  put := rfl
  held := List.suffix_refl _

/-- An item joins the present generation. -/
theorem Holds.push (h : t.Holds kinds past recent) {answer : SourceAnswer} {item : QueueItem}
    (mark : item.isBoundary = false) (mine : item.goesTo t.kind = true)
    (news : delivery kinds (recent.foldl (endedAfter kinds) false) answer = [item]) :
    (t.change (t.queue.putItem item).2).Holds kinds past (recent ++ [answer]) := by
  have hitem : (t.queue.putItem item).2 = t.queue.push item := by simp [PacketQueue.putItem, h.running]
  have hserial : (t.queue.push item).serial = t.queue.serial := by simp [PacketQueue.push, mark]
  have hpublished : (t.queue.push item).published = t.queue.published := by simp [PacketQueue.push, mark]
  have hentries : (t.queue.push item).entries = t.queue.entries ++ [⟨item, t.queue.serial⟩] := by
    simp [PacketQueue.push, mark]
  have hput : (t.change (t.queue.push item)).put = t.put ++ [⟨item, t.queue.serial⟩] := by
    unfold change PacketQueue.news
    rw [if_pos hserial, hentries, List.drop_left]
  have hkind : (t.change (t.queue.push item)).kind = t.kind := rfl
  rw [hitem]
  refine ⟨h.running, hserial.trans h.serial, hpublished.trans h.published, ?_, ?_⟩
  · rw [hput, hkind, writtenTo_answer, news, h.put, h.serial, List.filter_cons_of_pos mine]
    rfl
  · rw [hput]
    show (t.queue.push item).entries <:+ _
    rw [hentries]
    obtain ⟨front, hfront⟩ := h.held
    exact ⟨front, by rw [← hfront, List.append_assoc]⟩

/-- Nothing is put into the queue. -/
theorem Holds.keep (h : t.Holds kinds past recent) {answer : SourceAnswer}
    (news : ∀ item ∈ delivery kinds (recent.foldl (endedAfter kinds) false) answer, item.goesTo t.kind = false) :
    t.Holds kinds past (recent ++ [answer]) := by
  refine ⟨h.running, h.serial, h.published, ?_, h.held⟩
  rw [writtenTo_answer, List.filter_eq_nil_iff.mpr (by simpa using news), h.put]
  exact (List.append_nil _).symm

theorem Holds.begin (h : t.Holds kinds past recent) :
    (t.change t.queue.beginGeneration.2).Holds kinds (past ++ [recent]) [] := by
  have hbegin : t.queue.beginGeneration.2 = t.queue.flush.push .boundary := by
    simp [PacketQueue.beginGeneration, h.running]
  have hserial : (t.queue.flush.push .boundary).serial = t.queue.serial + 1 := rfl
  have hput : (t.change (t.queue.flush.push .boundary)).put = t.put ++ [⟨.boundary, t.queue.serial + 1⟩] := by
    unfold change PacketQueue.news
    rw [hserial, if_neg (Nat.succ_ne_self _)]
    rfl
  have hlength : (past ++ [recent]).length = past.length + 1 := List.length_append
  rw [hbegin]
  refine ⟨h.running, ?_, ?_, ?_, ?_⟩
  · rw [hlength, ← h.serial]
    rfl
  · rw [hlength, ← h.serial]
    rfl
  · rw [hput, writtenTo_concat, hlength, h.put, h.serial]
    rfl
  · rw [hput]
    exact List.suffix_append _ _

/-- A reader that looks takes the first entry out, or nothing. -/
theorem Holds.look (h : t.Holds kinds past recent) (notified : Bool) :
    (t.look notified).Holds kinds past recent := by
  obtain ⟨hkind, hrunning, hserial, hpublished, hentries⟩ := t.queue.look_keeps notified
  refine ⟨hrunning.trans h.running, hserial.trans h.serial, hpublished.trans h.published, ?_,
    hentries.trans h.held⟩
  have hkind' : (t.look notified).kind = t.kind := hkind
  rw [hkind']
  exact h.put

end Track

/-! ## Runs -/

/-- What happens to a demuxer and its queues. -/
inductive DemuxAct (R : Type) where
  | start (now : Nat)
  | step (now : Nat)
  /-- A decoder found its queue empty. -/
  | notify (now : Nat)
  | requestSeek (now : Nat) (position : R)
  /-- A reader looks into the queue of a stream. -/
  | look (kind : StreamKind) (notified : Bool)
  | stop

/-- A demuxer with its queues and clocks, and with the accounts of its source and its queues. -/
structure DemuxWatch (R σ : Type) where
  demuxer : Demuxer R (Logged σ)
  tracks : List Track
  clock : MediaClock R

namespace DemuxWatch

variable [Scalar R]

/-- A new demuxer, with started queues for these streams. -/
def new (source : σ) (config : BufferConfig R) (clock : MediaClock R) (streams : List (StreamKind × Ratio)) :
    DemuxWatch R σ where
  demuxer := .new ⟨source, [], []⟩ config
  tracks := streams.map fun (kind, timeBase) => .new kind timeBase
  clock

def queues (w : DemuxWatch R σ) : List StreamQueue :=
  w.tracks.map (·.stream)

variable [Source σ R]

def act (w : DemuxWatch R σ) : DemuxAct R → DemuxWatch R σ
  | .start now => { w with demuxer := w.demuxer.start now }
  | .step now =>
    let r := w.demuxer.step w.queues w.clock now
    { demuxer := r.demuxer
      tracks := w.tracks.zipWith (fun t q => t.change q.queue) r.queues
      clock := r.clock }
  | .notify now => { w with demuxer := w.demuxer.notify now }
  | .requestSeek now position => { w with demuxer := w.demuxer.requestSeek now position }
  | .look kind notified =>
    { w with tracks := w.tracks.map fun t => if t.kind = kind then t.look notified else t }
  | .stop => { w with demuxer := w.demuxer.stop }

def acts (w : DemuxWatch R σ) (as : List (DemuxAct R)) : DemuxWatch R σ :=
  as.foldl act w

/-- The account of the source explains what was put into the queues, and whether the end is marked. -/
structure Accounted (kinds : List StreamKind) (w : DemuxWatch R σ) : Prop where
  streams : w.tracks.map (·.kind) = kinds
  ended : w.demuxer.eof = w.demuxer.source.recent.foldl (endedAfter kinds) false
  tracks : ∀ t ∈ w.tracks, t.Holds kinds w.demuxer.source.past w.demuxer.source.recent

/-! A step gives the queues back, and their tracks follow. -/

omit [Scalar R] [Source σ R] in
theorem follow_same (tracks : List Track) :
    tracks.zipWith (fun t q => t.change q.queue) (tracks.map (·.stream)) = tracks := by
  have hself : (fun t : Track => t.change t.stream.queue) = id := funext Track.change_self
  rw [List.zipWith_map_right, List.zipWith_self, hself, List.map_id]

theorem follow_onAll (tracks : List Track) (f : PacketQueue → PacketQueue) :
    tracks.zipWith (fun t q => t.change q.queue) (Demuxer.onAll f (tracks.map (·.stream)))
      = tracks.map fun t => t.change (f t.queue) := by
  rw [Demuxer.onAll, List.map_map, List.zipWith_map_right, List.zipWith_self]
  rfl

theorem follow_onStream {tracks : List Track} (distinct : (tracks.map (·.kind)).Nodup) (kind : StreamKind)
    (f : PacketQueue → PacketQueue) :
    tracks.zipWith (fun t q => t.change q.queue) (Demuxer.onStream kind f (tracks.map (·.stream)))
      = tracks.map fun t => if t.kind = kind then t.change (f t.queue) else t := by
  induction tracks with
  | nil => rfl
  | cons t tracks ih =>
    obtain ⟨hnew, hdistinct⟩ := List.nodup_cons.mp distinct
    rw [List.map_cons, List.map_cons, Demuxer.onStream]
    by_cases hkind : t.kind = kind
    · have hothers : ∀ t' ∈ tracks, (if t'.kind = kind then t'.change (f t'.queue) else t') = t' :=
        fun t' ht' => if_neg fun h => hnew (List.mem_map.mpr ⟨t', ht', h.trans hkind.symm⟩)
      rw [if_pos hkind, if_pos (show t.stream.queue.stream = kind from hkind), List.zipWith_cons_cons, follow_same,
        List.map_congr_left hothers, List.map_id']
      rfl
    · rw [if_neg hkind, if_neg (show t.stream.queue.stream ≠ kind from hkind), List.zipWith_cons_cons,
        ih hdistinct]
      exact congrArg (· :: _) t.change_self

namespace Accounted

variable {kinds : List StreamKind} {w : DemuxWatch R σ} {d : Demuxer R (Logged σ)}

omit [Scalar R] [Source σ R] in
/-- Every track changes by itself. -/
theorem change (h : w.Accounted kinds) {f : Track → Track} (clock : MediaClock R)
    (ended : d.eof = d.source.recent.foldl (endedAfter kinds) false)
    (hkind : ∀ t ∈ w.tracks, (f t).kind = t.kind)
    (holds : ∀ t ∈ w.tracks, t.Holds kinds w.demuxer.source.past w.demuxer.source.recent →
      (f t).Holds kinds d.source.past d.source.recent) :
    Accounted kinds ⟨d, w.tracks.map f, clock⟩ := by
  refine ⟨?_, ended, fun t ht => ?_⟩
  · rw [List.map_map, ← h.streams]
    exact List.map_congr_left hkind
  · obtain ⟨t, ht', rfl⟩ := List.mem_map.mp ht
    exact holds t ht' (h.tracks t ht')

omit [Scalar R] [Source σ R] in
/-- Nothing is put into the queues, and the source is as it was or could not go elsewhere. -/
theorem same (h : w.Accounted kinds) (clock : MediaClock R) (mark : d.eof = w.demuxer.eof)
    (past : d.source.past = w.demuxer.source.past) (recent : d.source.recent = w.demuxer.source.recent) :
    Accounted kinds ⟨d, w.tracks, clock⟩ := by
  refine ⟨h.streams, ?_, ?_⟩
  · rw [mark, recent]
    exact h.ended
  · rw [past, recent]
    exact h.tracks

omit [Scalar R] in
/-- The source answers. -/
theorem answer (h : w.Accounted kinds) {answer : SourceAnswer} {f : Track → Track} (clock : MediaClock R)
    (read : Source.read w.demuxer.source = (answer, d.source))
    (mark : d.eof = endedAfter kinds w.demuxer.eof answer)
    (hkind : ∀ t ∈ w.tracks, (f t).kind = t.kind)
    (holds : ∀ t ∈ w.tracks, t.Holds kinds w.demuxer.source.past w.demuxer.source.recent →
      (f t).Holds kinds w.demuxer.source.past (w.demuxer.source.recent ++ [answer])) :
    Accounted kinds ⟨d, w.tracks.map f, clock⟩ := by
  obtain ⟨hpast, hrecent⟩ := Logged.read_account read
  refine h.change clock ?_ hkind ?_
  · rw [mark, hrecent, List.foldl_append, h.ended]
    rfl
  · rw [hpast, hrecent]
    exact holds

omit [Scalar R] in
/-- The source answers, and nothing comes of it. -/
theorem silent (h : w.Accounted kinds) {answer : SourceAnswer} (clock : MediaClock R)
    (read : Source.read w.demuxer.source = (answer, d.source))
    (mark : d.eof = endedAfter kinds w.demuxer.eof answer) (nothing : delivery kinds w.demuxer.eof answer = []) :
    Accounted kinds ⟨d, w.tracks, clock⟩ := by
  have hanswer := h.answer (f := id) clock read mark (fun _ _ => rfl) fun t _ ht =>
    ht.keep (by rw [← h.ended, nothing]; exact nofun)
  rwa [List.map_id] at hanswer

end Accounted

theorem step_accounted {kinds : List StreamKind} (distinct : kinds.Nodup) {w : DemuxWatch R σ}
    (h : w.Accounted kinds) (now : Nat) : (w.act (.step now)).Accounted kinds := by
  have hcases := w.demuxer.step_cases w.queues w.clock now
  have hkinds : w.queues.map (·.queue.stream) = kinds := by
    rw [← h.streams, queues, List.map_map]
    rfl
  show Accounted kinds ⟨_, _, _⟩
  -- in each case the tracks first follow the queues, and then the account of each of them
  generalize w.demuxer.step w.queues w.clock now = r at hcases
  cases hcases with
  | idle same mark =>
    dsimp only
    rw [queues, follow_same]
    exact h.same _ mark (congrArg _ same) (congrArg _ same)
  | @packet d p read known mark =>
    rw [hkinds] at known
    have hdelivery : delivery kinds w.demuxer.eof (.ok (some p)) = [.packet p] := if_pos known
    dsimp only
    rw [queues, follow_onStream (h.streams ▸ distinct)]
    refine h.answer _ read ?_ (fun t _ => ?_) fun t _ ht => ?_
    · rw [mark]
      exact (if_pos known).symm
    · split
      next => exact t.queue.putItem_stream _
      next => rfl
    · rw [h.ended] at hdelivery
      split
      next hmine => exact ht.push rfl (by simp [QueueItem.goesTo, hmine]) hdelivery
      next hother =>
        refine ht.keep fun item hitem => ?_
        rw [hdelivery] at hitem
        rw [List.mem_singleton.mp hitem]
        simpa [QueueItem.goesTo] using Ne.symm hother
  | passed read unknown mark =>
    rw [hkinds] at unknown
    dsimp only
    rw [queues, follow_same]
    exact h.silent _ read (mark.trans (if_neg unknown).symm) (if_neg unknown)
  | ends read first mark =>
    have hdelivery : delivery kinds w.demuxer.eof (.ok none) = [.endOfStream] := by
      rw [first]
      rfl
    rw [h.ended] at hdelivery
    dsimp only
    rw [queues, follow_onAll]
    exact h.answer _ read mark (fun t _ => t.queue.putItem_stream _) fun t _ ht => ht.push rfl rfl hdelivery
  | still read again mark =>
    dsimp only
    rw [queues, follow_same]
    exact h.silent _ read mark (if_pos again)
  | fails read mark =>
    dsimp only
    rw [queues, follow_same]
    exact h.silent _ read mark rfl
  | seeks sought mark =>
    obtain ⟨-, hseek⟩ := Option.ite_none_right_eq_some.mp sought
    obtain ⟨hpast, hrecent⟩ := (Logged.seek_account (Option.some.inj hseek)).1 rfl
    dsimp only
    rw [queues, follow_onAll]
    refine h.change _ ?_ (fun t _ => t.queue.beginGeneration_stream) fun t _ ht => ?_
    · rw [mark, hrecent]
      rfl
    · rw [hpast, hrecent]
      exact ht.begin
  | stays sought mark =>
    obtain ⟨-, hseek⟩ := Option.ite_none_right_eq_some.mp sought
    obtain ⟨hpast, hrecent⟩ := (Logged.seek_account (Option.some.inj hseek)).2 _ rfl
    dsimp only
    rw [queues, follow_same]
    exact h.same _ mark hpast hrecent

theorem act_accounted {kinds : List StreamKind} (distinct : kinds.Nodup) {w : DemuxWatch R σ}
    (h : w.Accounted kinds) (a : DemuxAct R) : (w.act a).Accounted kinds := by
  cases a with
  | step now => exact step_accounted distinct h now
  | start | requestSeek | stop => exact ⟨h.streams, h.ended, h.tracks⟩
  | notify now =>
    obtain ⟨loop, hnotify⟩ := w.demuxer.notify_eq now
    refine h.same w.clock ?_ ?_ ?_ <;> rw [hnotify]
  | look kind notified =>
    refine h.change w.clock h.ended (fun t _ => ?_) fun t _ ht => ?_
    · split
      next => exact (t.queue.look_keeps notified).1
      next => rfl
    · split
      next => exact ht.look notified
      next => exact ht

omit [Scalar R] [Source σ R] in
theorem new_accounted (source : σ) (config : BufferConfig R) (clock : MediaClock R)
    (streams : List (StreamKind × Ratio)) :
    (new source config clock streams).Accounted (streams.map Prod.fst) where
  streams := List.map_map
  ended := rfl
  tracks t ht := by
    obtain ⟨⟨kind, timeBase⟩, -, rfl⟩ := List.mem_map.mp ht
    exact Track.new_holds _ kind timeBase

theorem acts_accounted (source : σ) (config : BufferConfig R) (clock : MediaClock R)
    {streams : List (StreamKind × Ratio)} (distinct : (streams.map Prod.fst).Nodup) (as : List (DemuxAct R)) :
    ((new source config clock streams).acts as).Accounted (streams.map Prod.fst) :=
  List.foldlRecOn as act (new_accounted source config clock streams) fun _ h a _ => act_accounted distinct h a

/-- The position that the thread is about to seek to. -/
def seeking? (w : DemuxWatch R σ) (now : Nat) : Option R :=
  match w.demuxer.reading, w.demuxer.loop.next? now with
  | none, some (.seek position, _) => some position
  | _, _ => none

/-- A seek that the source grants begins a generation in every queue; one that it refuses, or that fails, leaves
the queues, the clocks and the marks of the demuxer as they were. -/
theorem Accounted.seek {w : DemuxWatch R σ} {kinds : List StreamKind} (h : w.Accounted kinds) {now : Nat}
    {position : R} (seeks : w.seeking? now = some position) :
    let w' := w.act (.step now)
    ((∃ source, Demuxer.sought? w.demuxer.source position = some (.ok (), source)) →
      w'.demuxer.source.generations = w.demuxer.source.generations ++ [[]] ∧
      w'.tracks.map (·.queue.serial) = w.tracks.map (·.queue.serial + 1)) ∧
    ((∀ source, Demuxer.sought? w.demuxer.source position ≠ some (.ok (), source)) →
      w'.tracks = w.tracks ∧ w'.clock = w.clock ∧ w'.demuxer.eof = w.demuxer.eof ∧
      w'.demuxer.failed = w.demuxer.failed) := by
  obtain ⟨loop, hstep⟩ : ∃ loop, w.demuxer.step w.queues w.clock now
      = { w.demuxer with loop }.seek w.queues w.clock now position := by
    unfold seeking? at seeks
    split at seeks
    next position' loop hreading hnext =>
      obtain rfl := Option.some.inj seeks
      exact ⟨loop, by simp only [Demuxer.step, hreading, hnext]⟩
    next => cases seeks
  have hact : w.act (.step now) = ⟨(w.demuxer.step w.queues w.clock now).demuxer,
      w.tracks.zipWith (fun t q => t.change q.queue) (w.demuxer.step w.queues w.clock now).queues,
      (w.demuxer.step w.queues w.clock now).clock⟩ := rfl
  rw [hstep] at hact
  intro w'
  constructor
  · rintro ⟨source, hgranted⟩
    obtain ⟨-, hsought⟩ := Option.ite_none_right_eq_some.mp hgranted
    obtain ⟨hpast, hrecent⟩ := (Logged.seek_account (Option.some.inj hsought)).1 rfl
    rw [Demuxer.seek_granted (d := { w.demuxer with loop }) hgranted, queues, follow_onAll] at hact
    show (w.act (.step now)).demuxer.source.generations = _ ∧ (w.act (.step now)).tracks.map _ = _
    rw [hact]
    constructor
    · show source.past ++ [source.recent] = _
      rw [hpast, hrecent]
      rfl
    · rw [List.map_map]
      refine List.map_congr_left fun t ht => ?_
      have hrunning := (h.tracks t ht).running
      show t.queue.beginGeneration.2.serial = t.queue.serial + 1
      simp [PacketQueue.beginGeneration, hrunning, PacketQueue.push, PacketQueue.flush, QueueItem.isBoundary]
  · intro hdenied
    obtain ⟨source, event, hseek, -⟩ :=
      Demuxer.seek_denied (d := { w.demuxer with loop }) hdenied w.queues w.clock now
    rw [hseek, queues, follow_same] at hact
    show (w.act (.step now)).tracks = _ ∧ (w.act (.step now)).clock = _ ∧
      (w.act (.step now)).demuxer.eof = _ ∧ (w.act (.step now)).demuxer.failed = _
    rw [hact]
    exact ⟨rfl, rfl, rfl, rfl⟩

end DemuxWatch

/-- **The queues of a demuxer hold what its source gave.** Whatever the order of steps, wake-ups, seeks and looks
of readers, each queue got in each generation one boundary, then the packets of its stream that the source gave in
that generation, in their order, and the marks of the end, which all queues get together and of which no two
follow one another without a packet between them. All queues are in the same generation, which counts the seeks
that succeeded; a seek that is refused or fails changes no queue, no clock and no mark. The account of the source
makes no difference to the demuxer. -/
theorem content_by_generation [Scalar R] [Source σ R] (source : σ) (config : BufferConfig R)
    (clock : MediaClock R) (streams : List (StreamKind × Ratio)) (distinct : (streams.map Prod.fst).Nodup)
    (as : List (DemuxAct R)) :
    let kinds := streams.map Prod.fst
    let w := (DemuxWatch.new source config clock streams).acts as
    let generations := w.demuxer.source.generations
    w.tracks.map (·.kind) = kinds ∧
    (∀ t ∈ w.tracks, t.put = writtenTo kinds t.kind generations ∧ t.queue.entries <:+ t.put ∧
      t.queue.aborted = false ∧ t.queue.serial = generations.length ∧ t.queue.published = generations.length) ∧
    (∀ answers ∈ generations,
      (deliveries kinds false answers).filterMap QueueItem.packet?
        = (answers.filterMap packetOf?).filter (·.stream ∈ kinds) ∧
      ¬ [QueueItem.endOfStream, .endOfStream] <:+: deliveries kinds false answers) ∧
    (∀ now position, w.seeking? now = some position →
      let w' := w.act (.step now)
      ((∃ source, Demuxer.sought? w.demuxer.source position = some (.ok (), source)) →
        w'.demuxer.source.generations = generations ++ [[]] ∧
        w'.tracks.map (·.queue.serial) = w.tracks.map (·.queue.serial + 1)) ∧
      ((∀ source, Demuxer.sought? w.demuxer.source position ≠ some (.ok (), source)) →
        w'.tracks = w.tracks ∧ w'.clock = w.clock ∧ w'.demuxer.eof = w.demuxer.eof ∧
        w'.demuxer.failed = w.demuxer.failed)) ∧
    (∀ now, w.demuxer.plain.step w.queues w.clock now = (w.demuxer.step w.queues w.clock now).plain) := by
  intro kinds w generations
  have h : w.Accounted kinds := DemuxWatch.acts_accounted source config clock distinct as
  have hlength : generations.length = w.demuxer.source.past.length + 1 := List.length_append
  refine ⟨h.streams, fun t ht => ?_, fun answers _ => ?_, fun now position hseek => h.seek hseek,
    fun now => w.demuxer.step_plain w.queues w.clock now⟩
  · have htrack := h.tracks t ht
    rw [hlength]
    exact ⟨htrack.put, htrack.held, htrack.running, htrack.serial, htrack.published⟩
  · exact ⟨deliveries_packets kinds false answers, (deliveries_marks kinds false answers).1⟩

/-! A source of two packets that pretends twice to be at its end before the second one. After its end a seek
leads back to the first one. -/

def packetAtStart (stream : StreamKind) : Packet :=
  { stream, data := [], pts := some 0, dts := none, duration := 0, timeBase := ⟨1, 1000⟩, isKey := false }

def haltingSource : ScriptedSource Float where
  packets := #[packetAtStart .video, packetAtStart .audio]
  info := .unknown
  audio := none
  video := none
  seekable := true
  failAt := none
  seekError := none
  gaps := [(1, 2)]
  next := 0
  seeks := []

def haltingReads : List (DemuxAct Float) :=
  [.start 0, .step 0, .step 0, .look .video false, .step 0, .step 10000000, .step 10000000, .step 20000000,
    .step 20000000, .notify 20000000, .step 20000000, .requestSeek 25000000 0.0, .step 25000000, .step 25000000,
    .step 25000000]

theorem content_of_halting_source :
    let w := (DemuxWatch.new haltingSource .default (.new .audioMaster id 0.0)
      [(.video, ⟨1, 1000⟩), (.audio, ⟨1, 1000⟩)]).acts haltingReads
    w.tracks.map (·.put) =
      [[⟨.boundary, 1⟩, ⟨.packet (packetAtStart .video), 1⟩, ⟨.endOfStream, 1⟩, ⟨.endOfStream, 1⟩,
          ⟨.boundary, 2⟩, ⟨.packet (packetAtStart .video), 2⟩],
        [⟨.boundary, 1⟩, ⟨.endOfStream, 1⟩, ⟨.packet (packetAtStart .audio), 1⟩, ⟨.endOfStream, 1⟩,
          ⟨.boundary, 2⟩]] ∧
    ∀ t ∈ w.tracks, t.put = writtenTo [.video, .audio] t.kind w.demuxer.source.generations ∧
      t.queue.serial = w.demuxer.source.generations.length := by
  intro w
  refine ⟨by decide +kernel, fun t ht => ?_⟩
  obtain ⟨hput, -, -, hserial, -⟩ := (content_by_generation haltingSource .default (.new .audioMaster id 0.0)
    [(.video, ⟨1, 1000⟩), (.audio, ⟨1, 1000⟩)] (by decide) haltingReads).2.1 t ht
  exact ⟨hput, hserial⟩

end Playback
