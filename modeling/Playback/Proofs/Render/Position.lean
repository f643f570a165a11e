import Mathlib.Tactic.Ring
import Playback.Proofs.Exact
import Playback.Proofs.Render.Writing

/-!
# The position that is heard

The audio clock is set by bytes. A renderer knows where the block ends that it plays and how much of it is left; from
this it sets the clock after each callback. Where blocks follow one another without a gap, that is the position of the
first one and the time of all the bytes that were played since, less what is still on its way to the ear
(`clock_follows_bytes`). Neither the ends of the blocks show in it, nor the sizes of the requests, nor the times at
which there was nothing to play.

`Tracks` carries the proof. It says which of the blocks were begun and which wait, that the bytes of those begun are the
bytes played and those left of the present one, and that the renderer knows the position at the end of them all.
-/

namespace Playback

open Exact

/-! ## Blocks without gaps -/

/-- The bytes of some blocks. -/
def blockBytes (blocks : List (AudioBlock Exact)) : Nat :=
  (blocks.map (·.data.length)).sum

/-- Blocks one behind the other from a position on, each as long as its data takes at so many bytes per second. -/
def Contiguous (rate : Nat) : Rat → List (AudioBlock Exact) → Prop
  | _, [] => True
  | position, block :: rest =>
    ∃ duration : Rat, block.pts = finite position ∧ block.duration = finite duration ∧
      duration * rate = block.data.length ∧ Contiguous rate (position + duration) rest

theorem blockBytes_append (blocks blocks' : List (AudioBlock Exact)) :
    blockBytes (blocks ++ blocks') = blockBytes blocks + blockBytes blocks' := by
  rw [blockBytes, List.map_append, List.sum_append]
  rfl

/-- A block ends where all the bytes up to it end. -/
theorem Contiguous.ends {rate : Nat} (pos : 0 < rate) {before rest : List (AudioBlock Exact)}
    {block : AudioBlock Exact} {position : Rat} (h : Contiguous rate position (before ++ block :: rest)) :
    ∃ start duration : Rat, block.pts = finite start ∧ block.duration = finite duration ∧
      start + duration = position + blockBytes (before ++ [block]) / rate := by
  have hrate : (rate : Rat) ≠ 0 := by exact_mod_cast Nat.ne_of_gt pos
  induction before generalizing position with
  | nil =>
    obtain ⟨duration, hpts, hduration, hbytes, -⟩ := h
    refine ⟨position, duration, hpts, hduration, ?_⟩
    rw [← eq_div_iff hrate] at hbytes
    rw [hbytes]
    simp [blockBytes]
  | cons first before ih =>
    obtain ⟨duration, -, -, hbytes, hrest⟩ := h
    obtain ⟨start, duration', hpts, hduration', hend⟩ := ih hrest
    refine ⟨start, duration', hpts, hduration', ?_⟩
    rw [← eq_div_iff hrate] at hbytes
    rw [hend, hbytes, add_assoc, ← add_div]
    simp [blockBytes]

theorem Contiguous.before {rate : Nat} {before rest : List (AudioBlock Exact)} {position : Rat}
    (h : Contiguous rate position (before ++ rest)) : Contiguous rate position before := by
  induction before generalizing position with
  | nil => trivial
  | cons block before ih =>
    obtain ⟨duration, hpts, hduration, hbytes, hrest⟩ := h
    exact ⟨duration, hpts, hduration, hbytes, ih hrest⟩

namespace AudioRenderer

/-- How many bytes a callback plays for so many that are asked for. -/
def taken {R : Type} [Scalar R] (a : AudioRenderer R) (m : MediaClock R) (live : LiveSerials) (now : R) (n : Nat) :
    Nat :=
  (a.pieces m live now n).flatten.length

/-! ## What was begun and what waits -/

/-- Nothing of a generation was begun, and these blocks of it wait. So it is with a new renderer, and after the flush
of a seek (`flush_unbegun`). -/
structure Unbegun (a : AudioRenderer Exact) (serial : Serial) (waiting : List (AudioBlock Exact)) : Prop where
  ring : a.ring.Holds waiting
  present : ∀ block ∈ waiting, block.serial = serial
  playing : a.playing = none
  clockSerial : a.clockSerial = none

/-- How far a renderer is in the blocks of a generation that lie without gaps from a position on: which of them were
begun and which wait, and how many bytes were played. The renderer knows the position at the end of those begun. -/
structure Tracks (a : AudioRenderer Exact) (serial : Serial) (rate : Nat) (position : Rat)
    (begun waiting : List (AudioBlock Exact)) (played : Nat) : Prop where
  device : a.deviceParams.bytesPerSecond = rate
  ring : a.ring.Holds waiting
  present : ∀ block ∈ waiting, block.serial = serial
  playing : ∀ p, a.playing = some p → p.serial = serial
  bytes : played + a.unplayed.length = blockBytes begun
  clock : begun = [] ∧ a.clockSerial = none ∨
    begun ≠ [] ∧ a.clockSerial = some serial ∧ a.clockPts = finite (position + blockBytes begun / rate)

variable {a a' : AudioRenderer Exact} {m : MediaClock Exact} {live : LiveSerials} {now : Exact} {serial : Serial}
  {rate : Nat} {position : Rat} {begun waiting : List (AudioBlock Exact)} {played : Nat}

theorem Unbegun.tracks (h : a.Unbegun serial waiting) (position : Rat) :
    a.Tracks serial a.deviceParams.bytesPerSecond position [] waiting 0 where
  device := rfl
  ring := h.ring
  present := h.present
  playing p hp := by rw [h.playing] at hp; cases hp
  bytes := by unfold unplayed; rw [h.playing]; rfl
  clock := .inl ⟨rfl, h.clockSerial⟩

/-- A flush keeps the position at the end of the present block exactly if that is of the generation. -/
theorem flush_clock (a : AudioRenderer Exact) (serial : Serial) :
    (a.clockSerial = some serial →
      (a.flush serial).clockSerial = some serial ∧ (a.flush serial).clockPts = a.clockPts) ∧
    (a.clockSerial ≠ some serial → (a.flush serial).clockSerial = none) := by
  unfold flush
  dsimp only
  constructor <;> intro hclock <;> split <;> simp [hclock]

/-- After a flush nothing of the generation was begun, unless it had been before. -/
theorem flush_unbegun {l : List (AudioBlock Exact)} (ring : a.ring.Holds l)
    (playing : ∀ p, a.playing = some p → p.serial ≠ serial) (clockSerial : a.clockSerial ≠ some serial) :
    (a.flush serial).Unbegun serial (l.filter (·.serial = serial)) := by
  obtain ⟨hring, hplaying⟩ := a.flush_kept serial
  refine ⟨hring ▸ ring.retain _, fun block hblock => by simpa using (List.mem_filter.mp hblock).2, ?_, ?_⟩
  · rw [hplaying, Option.filter_eq_none_iff]
    exact fun p hp => by simpa using playing p hp
  · exact (a.flush_clock serial).2 clockSerial

theorem Tracks.same (h : a.Tracks serial rate position begun waiting played) (device : a'.deviceParams = a.deviceParams)
    (ring : a'.ring = a.ring) (playing : a'.playing = a.playing) (clockSerial : a'.clockSerial = a.clockSerial)
    (clockPts : a'.clockPts = a.clockPts) : a'.Tracks serial rate position begun waiting played where
  device := by rw [device, h.device]
  ring := ring ▸ h.ring
  present := h.present
  playing := playing ▸ h.playing
  bytes := by
    have hbytes := h.bytes
    unfold unplayed at hbytes ⊢
    rwa [playing]
  clock := by rw [clockSerial, clockPts]; exact h.clock

/-- Some bytes of the present block are played. -/
theorem Tracks.play (h : a.Tracks serial rate position begun waiting played) {n : Nat}
    (enough : n ≤ a.unplayed.length) : (a.play n).Tracks serial rate position begun waiting (played + n) where
  device := h.device
  ring := h.ring
  present := h.present
  playing p hp := by
    obtain ⟨p', hp', rfl⟩ := Option.map_eq_some_iff.mp hp
    exact h.playing p' hp'
  bytes := by
    have hrest : (a.play n).unplayed = a.unplayed.drop n := a.unplayed_drop n
    have hbytes := h.bytes
    rw [hrest, List.length_drop]
    omega
  clock := h.clock

/-- The next block is begun once the present one is played. -/
theorem Tracks.goesOn (h : a.Tracks live.audio rate position begun waiting played) (spent : a.unplayed = [])
    (pos : 0 < rate) (contiguous : Contiguous rate position (begun ++ waiting)) (master : m.masterType = .audioMaster)
    (now : Exact) :
    ∃ begun' waiting', begun' ++ waiting' = begun ++ waiting ∧
      (a.nextBlock m live now).2.Tracks live.audio rate position begun' waiting' played := by
  have hplays := a.nextBlock_plays m live now
  have hbegins := nextBlock_begins h.ring m live now
  -- all that waits is of the generation, so that no block is dropped
  have hpresent : waiting.dropWhile (·.serial ≠ live.audio) = waiting := by
    cases waiting with
    | nil => rfl
    | cons block rest =>
      exact List.dropWhile_cons_of_neg (by simpa using h.present block (List.mem_cons_self ..))
  have hbytes := h.bytes
  rw [spent, List.length_nil, Nat.add_zero] at hbytes
  rw [hpresent] at hbegins
  generalize a.nextBlock m live now = next at *
  cases hbegins with
  | nothing empty => exact ⟨begun, [], rfl, h.device, empty, h.present, fun p hp => (nomatch hp), hbytes, h.clock⟩
  | @block a' block rest ring clockPts clockSerial playing =>
    obtain ⟨start, duration, hpts, hduration, hend⟩ := contiguous.ends pos
    have hplaying := playing master
    have hdata : a'.unplayed = block.data := by unfold unplayed; rw [hplaying]; rfl
    have hserial := h.present block (List.mem_cons_self ..)
    refine ⟨begun ++ [block], rest, List.append_assoc .., ?_, ring,
      fun b hb => h.present b (List.mem_cons_of_mem _ hb), fun p hp => ?_, ?_, .inr ⟨by simp, ?_, ?_⟩⟩
    · obtain ⟨_, _, _, _, _, _, _, hsame⟩ := hplays
      rw [hsame]
      exact h.device
    · rw [hplaying] at hp
      cases hp
      exact hserial
    · rw [hdata, blockBytes_append, hbytes]
      rfl
    · rw [clockSerial, hserial]
    · rw [clockPts, hpts, hduration, isNaN_finite, finite_add, hend]
      rfl

/-- Filling a buffer goes on in the blocks, as many bytes as there are in the pieces. -/
theorem Fills.tracks {n : Nat} {pieces : List Bytes} {missing : Bool} (fills : Fills m live now a n pieces missing a')
    (h : a.Tracks live.audio rate position begun waiting played) (pos : 0 < rate)
    (contiguous : Contiguous rate position (begun ++ waiting)) (master : m.masterType = .audioMaster) :
    ∃ begun' waiting', begun' ++ waiting' = begun ++ waiting ∧
      a'.Tracks live.audio rate position begun' waiting' (played + pieces.flatten.length) := by
  have spent (a : AudioRenderer Exact) : (a.play a.unplayed.length).unplayed = [] := by
    rw [play, unplayed_drop, List.drop_length]
  induction fills generalizing begun waiting played with
  | within a n enough =>
    have hpiece : [a.unplayed.take n].flatten.length = n := by simpa using enough
    rw [hpiece]
    exact ⟨begun, waiting, rfl, h.play enough⟩
  | @runsOut a a' n short none =>
    have hnext := (h.play (Nat.le_refl _)).goesOn (spent a) pos contiguous master now
    rw [none] at hnext
    simpa using hnext
  | @goesOn a next a' n pieces missing short found rest ih =>
    obtain ⟨begun', waiting', hblocks, hnext⟩ := (h.play (Nat.le_refl _)).goesOn (spent a) pos contiguous master now
    rw [found] at hnext
    obtain ⟨begun'', waiting'', hblocks', hfilled⟩ := ih hnext (hblocks.symm ▸ contiguous)
    rw [List.flatten_cons, List.length_append, ← Nat.add_assoc]
    exact ⟨begun'', waiting'', hblocks'.trans hblocks, hfilled⟩

/-! ## Callbacks -/

/-- Where the clock is set to: the position at the end of the block, less what is left of it and what is on its way. -/
theorem Tracks.updateClock (h : a.Tracks serial rate position begun waiting played) (pos : 0 < rate)
    (m : MediaClock Exact) (live : LiveSerials) (now : Exact) (delay : Rat) (n : Nat) :
    (begun = [] → a.updateClock m live now (finite delay) n = m) ∧
      (begun ≠ [] → (a.updateClock m live now (finite delay) n).audio
        = m.audio.setAt (finite (position + played / rate - 2 * n / rate - delay)) serial now) := by
  have hrate : (rate : Rat) ≠ 0 := by exact_mod_cast Nat.ne_of_gt pos
  constructor
  · intro hbegun
    rcases h.clock with ⟨-, hclock⟩ | ⟨hsome, -⟩
    · unfold AudioRenderer.updateClock
      rw [hclock]
    · exact absurd hbegun hsome
  · intro hbegun
    rcases h.clock with ⟨hnone, -⟩ | ⟨-, hclock, hpts⟩
    · exact absurd hnone hbegun
    · -- what is left of the block cancels out against the bytes that were not played yet
      have hset : a.clockPts - Scalar.ofInt ((2 * n + a.unplayed.length : Nat) : Int)
            / Scalar.ofInt (max (a.deviceParams.bytesPerSecond : Int) 1) - finite delay
          = finite (position + played / rate - 2 * n / rate - delay) := by
        have hmax : max (rate : Int) 1 = rate := max_eq_left (by exact_mod_cast pos)
        rw [hpts, h.device, hmax, ← h.bytes, ofInt_eq, ofInt_eq, finite_div _ (by exact_mod_cast hrate), finite_sub,
          finite_sub]
        congr 1
        push_cast
        ring
      unfold AudioRenderer.updateClock
      rw [hclock]
      dsimp only
      rw [hset, hpts, isNaN_finite]
      rfl

/-- A callback goes on in the blocks, as many bytes as it plays. -/
theorem Tracks.render (h : a.Tracks live.audio rate position begun waiting played) (pos : 0 < rate)
    (contiguous : Contiguous rate position (begun ++ waiting)) (master : m.masterType = .audioMaster)
    (now delay : Exact) (out : Bytes) :
    ∃ begun' waiting', begun' ++ waiting' = begun ++ waiting ∧
      (a.render m live now delay out).renderer.Tracks live.audio rate position begun' waiting'
        (played + a.taken m live now out.length) := by
  have hasked : ({ a with requestSize := out.length } : AudioRenderer Exact).Tracks live.audio rate position begun
      waiting played := h.same rfl rfl rfl rfl rfl
  obtain ⟨missing, filled, endReported, underruns, hrenderer, -, hfills⟩ := render_fills h.ring m live now delay out
  rw [hrenderer, taken]
  rcases hfills with ⟨-, hpieces, hfilled⟩ | hfills
  · rw [hpieces, hfilled]
    exact ⟨begun, waiting, rfl, hasked.same rfl rfl rfl rfl rfl⟩
  · obtain ⟨begun', waiting', hblocks, hfilled⟩ := hfills.tracks hasked pos contiguous master
    exact ⟨begun', waiting', hblocks, hfilled.same rfl rfl rfl rfl rfl⟩

/-- A callback outside a pause plays what is asked for, as far as there are blocks. -/
theorem Tracks.taken (h : a.Tracks live.audio rate position begun waiting played) (pos : 0 < rate)
    (contiguous : Contiguous rate position (begun ++ waiting)) (master : m.masterType = .audioMaster)
    (running : a.paused = false) (now : Exact) (n : Nat) :
    played + a.taken m live now n = min (played + n) (blockBytes (begun ++ waiting)) := by
  have hout : (List.replicate n (0 : UInt8)).length = n := List.length_replicate
  obtain ⟨begun', waiting', hblocks, hafter⟩ :=
    h.render pos contiguous master now (finite 0) (List.replicate n 0)
  obtain ⟨-, hle, hends⟩ := render_poured ⟨_, h.ring⟩ m live now (finite 0) (List.replicate n 0)
  rw [hout] at hafter hle hends
  have hmost : a.taken m live now n ≤ n := hle
  have hbytes := hafter.bytes
  rw [← hblocks, blockBytes_append]
  rcases Nat.lt_or_ge (a.taken m live now n) n with hlt | hge
  · -- nothing is left when less is played
    obtain ⟨hplaying, hring⟩ := (hends hlt).resolve_left (by simp [running])
    have hwaiting : waiting' = [] := hafter.ring.toList.symm.trans hring.toList
    have hover : (a.render m live now (finite 0) (List.replicate n 0)).renderer.unplayed = [] := by
      unfold unplayed
      rw [hplaying]
      rfl
    have hnone : blockBytes waiting' = 0 := by rw [hwaiting]; rfl
    rw [hover, List.length_nil] at hbytes
    omega
  · omega

/-! ## Runs -/

/-- A flush in the generation leaves everything of it. -/
theorem Tracks.flush (h : a.Tracks serial rate position begun waiting played) :
    (a.flush serial).Tracks serial rate position begun waiting played := by
  obtain ⟨hring, hplaying⟩ := a.flush_kept serial
  obtain ⟨hkept, hnone⟩ := a.flush_clock serial
  have hwaiting : waiting.filter (·.serial = serial) = waiting :=
    List.filter_eq_self.mpr fun block hblock => by simpa using h.present block hblock
  have hsame : (a.flush serial).playing = a.playing := by
    rw [hplaying]
    cases hp : a.playing with
    | none => rfl
    | some p => exact if_pos (by simpa using h.playing p hp)
  have hdevice : (a.flush serial).deviceParams = a.deviceParams := by
    unfold AudioRenderer.flush
    dsimp only
    split <;> split <;> rfl
  refine ⟨hdevice ▸ h.device, ?_, h.present, hsame ▸ h.playing, ?_, ?_⟩
  · rw [hring]
    exact hwaiting ▸ h.ring.retain _
  · have hbytes := h.bytes
    unfold unplayed at hbytes ⊢
    rwa [hsame]
  · rcases h.clock with ⟨hbegun, hclock⟩ | ⟨hbegun, hclock, hpts⟩
    · exact .inl ⟨hbegun, hnone (by simp [hclock])⟩
    · exact .inr ⟨hbegun, (hkept hclock).1, (hkept hclock).2.trans hpts⟩

/-- A block of the generation waits behind the others if it finds room. -/
theorem Tracks.deliver (h : a.Tracks serial rate position begun waiting played) (block : AudioBlock Exact) :
    (a.deliver serial (.frame block)).2.Tracks serial rate position begun
      (waiting ++ if block.serial = serial ∧ a.ring.isFull = false then [block] else []) played := by
  have hfull : a.ring.isFull = decide (waiting.length = a.ring.capacity) := h.ring.full
  unfold AudioRenderer.deliver
  dsimp only
  by_cases hpresent : block.serial = serial
  · rw [if_pos hpresent]
    by_cases hroom : waiting.length = a.ring.capacity
    · rw [if_neg (by simp [hfull, hroom]), h.ring.pushBack_full hroom, List.append_nil]
      exact h.same rfl rfl rfl rfl rfl
    · obtain ⟨-, hring, -⟩ := h.ring.pushBack (Nat.lt_of_le_of_ne h.ring.bound hroom) block
      rw [if_pos ⟨hpresent, by simp [hfull, hroom]⟩]
      refine ⟨h.device, hring, fun b hb => ?_, h.playing, h.bytes, h.clock⟩
      rcases List.mem_append.mp hb with hb | hb
      · exact h.present b hb
      · rw [List.mem_singleton.mp hb]
        exact hpresent
  · rw [if_neg hpresent, if_neg fun hboth => hpresent hboth.1, List.append_nil]
    exact h.same rfl rfl rfl rfl rfl

end AudioRenderer

/-- Whether an act leaves the generation going on, with audio as the master. -/
def AudioAct.continues {R : Type} [Scalar R] : AudioAct R → Bool
  | .restart | .stop => false
  | .render clock .. => clock.masterType = .audioMaster
  | _ => true

namespace AudioWatch

section

variable {R : Type} [Scalar R]

/-- The block that is put into the ring by an act: one of the generation that finds room. -/
def accepts (w : AudioWatch R) : AudioAct R → List (AudioBlock R)
  | .deliver (.frame block) => if block.serial = w.live ∧ w.renderer.ring.isFull = false then [block] else []
  | _ => []

def accepted (w : AudioWatch R) : List (AudioAct R) → List (AudioBlock R)
  | [] => []
  | a :: as => w.accepts a ++ (w.act a).accepted as

/-- How many bytes are played in an act. -/
def plays (w : AudioWatch R) : AudioAct R → Nat
  | .render clock video now _ out => w.renderer.taken clock ⟨w.live, video⟩ now out.length
  | _ => 0

def played (w : AudioWatch R) : List (AudioAct R) → Nat
  | [] => 0
  | a :: as => w.plays a + (w.act a).played as

end

variable {rate : Nat} {position : Rat} {begun waiting : List (AudioBlock Exact)} {played : Nat}

theorem act_tracks {w : AudioWatch Exact} (h : w.renderer.Tracks w.live rate position begun waiting played)
    (pos : 0 < rate) {a : AudioAct Exact} (continues : a.continues = true)
    (contiguous : Contiguous rate position (begun ++ waiting ++ w.accepts a)) :
    (w.act a).live = w.live ∧ ∃ begun' waiting', begun' ++ waiting' = begun ++ waiting ++ w.accepts a ∧
      (w.act a).renderer.Tracks w.live rate position begun' waiting' (played + w.plays a) := by
  have hquiet {w' : AudioWatch Exact} (hlive : w'.live = w.live)
      (h' : w'.renderer.Tracks w.live rate position begun waiting played) :
      w'.live = w.live ∧ ∃ begun' waiting', begun' ++ waiting' = begun ++ waiting ++ [] ∧
        w'.renderer.Tracks w.live rate position begun' waiting' (played + 0) :=
    ⟨hlive, begun, waiting, (List.append_nil _).symm, h'⟩
  cases a with
  | restart | stop => cases continues
  | deliver result =>
    cases result with
    | frame block => exact ⟨rfl, begun, _, (List.append_assoc ..).symm, h.deliver block⟩
    | endOfStream | aborted | error => exact hquiet rfl (h.same rfl rfl rfl rfl rfl)
  | flush => exact hquiet rfl h.flush
  | render clock video now delay out =>
    have hnone : w.accepts (.render clock video now delay out) = [] := rfl
    have hmaster : clock.masterType = .audioMaster := of_decide_eq_true continues
    have hlive : w.renderer.Tracks (LiveSerials.mk w.live video).audio rate position begun waiting played := h
    rw [hnone, List.append_nil] at contiguous ⊢
    exact ⟨rfl, hlive.render pos contiguous hmaster now delay out⟩
  | request | setPaused | setVolume | setMuted => exact hquiet rfl (h.same rfl rfl rfl rfl rfl)

theorem acts_tracks {w : AudioWatch Exact} (h : w.renderer.Tracks w.live rate position begun waiting played)
    (pos : 0 < rate) {as : List (AudioAct Exact)} (continues : ∀ a ∈ as, a.continues = true)
    (contiguous : Contiguous rate position (begun ++ waiting ++ w.accepted as)) :
    ∃ begun' waiting', begun' ++ waiting' = begun ++ waiting ++ w.accepted as ∧
      (w.acts as).renderer.Tracks w.live rate position begun' waiting' (played + w.played as) := by
  induction as generalizing w begun waiting played with
  | nil => exact ⟨begun, waiting, (List.append_nil _).symm, h⟩
  | cons a as ih =>
    rw [accepted, ← List.append_assoc] at contiguous ⊢
    -- what the first act accepts is the beginning of what the run accepts
    obtain ⟨hlive, begun', waiting', hblocks, hact⟩ :=
      act_tracks h pos (continues a (List.mem_cons_self ..)) contiguous.before
    rw [← hlive] at hact
    rw [← hblocks] at contiguous ⊢
    obtain ⟨begun'', waiting'', hblocks', hacts⟩ :=
      ih hact (fun b hb => continues b (List.mem_cons_of_mem _ hb)) contiguous
    rw [AudioWatch.played, ← Nat.add_assoc]
    exact ⟨begun'', waiting'', hblocks', hlive ▸ hacts⟩

end AudioWatch

/-- **The audio clock follows the bytes that were played.** Let nothing of a generation be begun, audio be the master,
and let the blocks of the generation that find room follow one another without gaps from a position on. After any acts
in which the generation goes on, take a callback outside a pause. The bytes played until after it are those played
before and those that it asks for, as far as there are blocks. While all blocks still wait the clock is left alone;
otherwise the audio clock is set to the position of the first block and the time of the bytes played, less the time of
twice the request and less the delay of the device. -/
theorem clock_follows_bytes (w : AudioWatch Exact) (waiting : List (AudioBlock Exact)) (position : Rat)
    (as : List (AudioAct Exact)) (clock : MediaClock Exact) (video : Serial) (now : Exact) (delay : Rat) (out : Bytes)
    (unbegun : w.renderer.Unbegun w.live waiting) (pos : 0 < w.renderer.deviceParams.bytesPerSecond)
    (continues : ∀ a ∈ as, a.continues = true)
    (contiguous : Contiguous w.renderer.deviceParams.bytesPerSecond position (waiting ++ w.accepted as))
    (running : (w.acts as).renderer.paused = false) (master : clock.masterType = .audioMaster) :
    let rate : Rat := w.renderer.deviceParams.bytesPerSecond
    let blocks := waiting ++ w.accepted as
    let a := (w.acts as).renderer
    let r := a.render clock ⟨w.live, video⟩ now (finite delay) out
    let played := w.played as + a.taken clock ⟨w.live, video⟩ now out.length
    played = min (w.played as + out.length) (blockBytes blocks) ∧
    (r.renderer.ring.length = blocks.length → r.clock = clock) ∧
    (r.renderer.ring.length < blocks.length → r.clock.audio
      = clock.audio.setAt (finite (position + played / rate - 2 * out.length / rate - delay)) w.live now) := by
  intro rate blocks a r played
  obtain ⟨begun, left, hblocks, htracks⟩ := AudioWatch.acts_tracks (unbegun.tracks position) pos continues contiguous
  rw [Nat.zero_add] at htracks
  have hlive : a.Tracks (LiveSerials.mk w.live video).audio _ position begun left (w.played as) := htracks
  have hcontiguous : Contiguous _ position (begun ++ left) := hblocks.symm ▸ contiguous
  obtain ⟨begun', left', hblocks', hafter⟩ := hlive.render pos hcontiguous master now (finite delay) out
  have hclock : r.clock = r.renderer.updateClock clock ⟨w.live, video⟩ now (finite delay) out.length := rfl
  obtain ⟨hnone, hset⟩ := hafter.updateClock pos clock ⟨w.live, video⟩ now delay out.length
  have hring : r.renderer.ring.length = left'.length := hafter.ring.length
  have hlength : blocks.length = begun'.length + left'.length := by
    rw [← List.length_append, hblocks', hblocks, List.nil_append]
  refine ⟨?_, fun hall => ?_, fun hsome => ?_⟩
  · have htaken := hlive.taken pos hcontiguous master running now out.length
    rwa [hblocks] at htaken
  · rw [hclock]
    exact hnone (List.eq_nil_of_length_eq_zero (by omega))
  · rw [hclock]
    exact hset (List.ne_nil_of_length_pos (by omega))

/-! A seek to position 10, on a device that plays four bytes in a second. The first block of the new generation waits
already when the flush comes. -/

def pieceOf (serial : Serial) (pts duration : Rat) (data : Bytes) : AudioBlock Exact :=
  { pts := finite pts, duration := finite duration, sampleCount := data.length / 2, params := default, serial, data }

def firstPiece : AudioBlock Exact := pieceOf 2 10 (3 / 2) [1, 2, 3, 4, 5, 6]

def secondPiece : AudioBlock Exact := pieceOf 2 (23 / 2) (1 / 2) [7, 8]

def thirdPiece : AudioBlock Exact := pieceOf 2 12 1 [9, 10, 11, 12]

def beforeSeek : AudioRenderer Exact :=
  { (AudioRenderer.new (.default : AudioConfig Exact) .default 4 .obliging .silent) with
    ring := (((Ring.new 4).pushBack (pieceOf 1 3 1 [0, 0, 0, 0])).2.pushBack firstPiece).2
    playing := some ⟨[0, 0], 1⟩
    clockPts := finite 3
    clockSerial := some 1
    deviceParams := ⟨2, 1, .i16⟩ }

def afterSeek : AudioWatch Exact := ⟨beforeSeek.flush 2, 2, [], []⟩

def audioClock : MediaClock Exact := .new .audioMaster id (finite 0)

/-- The second callback asks for a byte more than there is. -/
def twoCallbacks : List (AudioAct Exact) :=
  [.setPaused false, .render audioClock 0 (finite 100) (finite 0) [0, 0, 0, 0, 0], .deliver (.frame secondPiece),
    .render audioClock 0 (finite 101) (finite 0) [0, 0, 0, 0], .deliver (.frame thirdPiece)]

/-- Ten bytes are played: five, three and two. That is two and a half seconds, less one that is on its way and a quarter
for the device. -/
theorem clock_after_seek :
    afterSeek.played twoCallbacks = 8 ∧
    (afterSeek.acts twoCallbacks).renderer.taken audioClock ⟨2, 0⟩ (finite 102) 2 = 2 ∧
    ((afterSeek.acts twoCallbacks).renderer.render audioClock ⟨2, 0⟩ (finite 102) (finite (1 / 4)) [0, 0]).clock.audio
      = audioClock.audio.setAt (finite (45 / 4)) 2 (finite 102) := by
  have hring : beforeSeek.ring.Holds [pieceOf 1 3 1 [0, 0, 0, 0], firstPiece] := by
    have hnew : (Ring.new 4 : Ring (AudioBlock Exact)).Holds [] := Ring.new_holds 4
    obtain ⟨-, hone, hcapacity⟩ := hnew.pushBack (by decide) (pieceOf 1 3 1 [0, 0, 0, 0])
    exact (hone.pushBack (by rw [hcapacity]; decide) firstPiece).2.1
  have hplaying : ∀ p, beforeSeek.playing = some p → p.serial ≠ 2 := by
    intro p hp
    cases hp
    decide
  have hunbegun : (beforeSeek.flush 2).Unbegun 2 [firstPiece] :=
    AudioRenderer.flush_unbegun hring hplaying (by decide)
  have hrate : afterSeek.renderer.deviceParams.bytesPerSecond = 4 := by decide +kernel
  have haccepted : afterSeek.accepted twoCallbacks = [secondPiece, thirdPiece] := by decide +kernel
  have hcontiguous : Contiguous afterSeek.renderer.deviceParams.bytesPerSecond 10
      ([firstPiece] ++ afterSeek.accepted twoCallbacks) := by
    rw [haccepted, hrate]
    refine ⟨3 / 2, rfl, rfl, ?_, 1 / 2, ?_, rfl, ?_, 1, ?_, rfl, ?_, trivial⟩
    all_goals decide +kernel
  have hplayed : afterSeek.played twoCallbacks = 8 := by decide +kernel
  have htaken : (afterSeek.acts twoCallbacks).renderer.taken audioClock ⟨2, 0⟩ (finite 102) 2 = 2 := by decide +kernel
  obtain ⟨-, -, hset⟩ := clock_follows_bytes afterSeek [firstPiece] 10 twoCallbacks audioClock 0 (finite 102) (1 / 4)
    [0, 0] hunbegun (by decide +kernel) (by decide +kernel) hcontiguous (by decide +kernel) rfl
  have hlive : afterSeek.live = 2 := rfl
  have hlength : ([0, 0] : Bytes).length = 2 := rfl
  rw [hlive, hlength, hplayed, htaken, hrate] at hset
  have hvalue : 10 + ((8 + 2 : Nat) : Rat) / (4 : Nat) - 2 * (2 : Nat) / (4 : Nat) - 1 / 4 = 45 / 4 := by norm_num
  rw [hvalue] at hset
  exact ⟨hplayed, htaken, hset (by decide +kernel)⟩

end Playback
