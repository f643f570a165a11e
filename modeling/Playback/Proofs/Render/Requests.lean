import Playback.Proofs.Audio.Mix
import Playback.Proofs.Render.Playing
import Playback.Proofs.Ring

/-!
# The sizes of requests

A device asks for bytes in requests of any sizes. What it gets for them, one after the other, is what it would get
for one request of all the bytes (`output_of_requests`): the data of the blocks at the present volume, and silence
behind it. Where the blocks begin and end makes no difference, nor do requests during a pause.

The data that is still to come (`upcoming`) carries the proof: a request takes as many bytes off it as it asks for
(`fill_heard`), and `heard_add` puts the requests together.
-/

namespace Playback

variable {R : Type} [Scalar R]

namespace AudioRenderer

/-! ## Blocks -/

omit [Scalar R] in
/-- The next block is the first one of the generation, and those before it are dropped. -/
theorem takeBlock_eq (serial : Serial) {ring : Ring (AudioBlock R)} {l : List (AudioBlock R)}
    (h : ring.Holds l) {fuel : Nat} (hfuel : l.length ≤ fuel) :
    (takeBlock serial fuel ring).1 = (l.dropWhile (·.serial ≠ serial)).head? ∧
      (takeBlock serial fuel ring).2.Holds (l.dropWhile (·.serial ≠ serial)).tail := by
  induction l generalizing fuel ring with
  | nil =>
    cases fuel with
    | zero => exact ⟨rfl, h⟩
    | succ fuel =>
      rw [takeBlock, h.popFront_nil]
      exact ⟨rfl, h⟩
  | cons block l ih =>
    cases fuel with
    | zero => cases hfuel
    | succ fuel =>
      obtain ⟨hpop, hrest⟩ := h.popFront_cons
      rw [takeBlock]
      rcases hring : ring.popFront with ⟨taken, ring'⟩
      rw [hring] at hpop hrest
      subst hpop
      dsimp only
      by_cases hserial : block.serial = serial
      · rw [if_pos hserial, List.dropWhile_cons_of_neg (by simp [hserial])]
        exact ⟨rfl, hrest⟩
      · rw [if_neg hserial, List.dropWhile_cons_of_pos (by simp [hserial])]
        exact ih hrest (Nat.le_of_succ_le_succ hfuel)

variable {a : AudioRenderer R} {m : MediaClock R} {live : LiveSerials} {now : R}

/-- Without blocks nothing is played. -/
theorem nextBlock_none (h : a.ring.Holds []) (m : MediaClock R) (live : LiveSerials) (now : R) :
    ∃ ring, ring.Holds [] ∧ a.nextBlock m live now = (false, { a with ring, playing := none }) := by
  obtain ⟨hblock, hring⟩ := takeBlock_eq live.audio h (Nat.le_of_eq h.length.symm)
  unfold nextBlock
  rcases htake : takeBlock live.audio a.ring.length a.ring with ⟨block, ring⟩
  rw [htake] at hblock hring
  subst hblock
  exact ⟨ring, hring, rfl⟩

/-- Where audio is the master the next block is played as it is. -/
theorem nextBlock_some {block : AudioBlock R} {l : List (AudioBlock R)} (h : a.ring.Holds (block :: l))
    (present : block.serial = live.audio) (master : m.masterType = .audioMaster) (now : R) :
    ∃ ring clockPts clockSerial, ring.Holds l ∧ a.nextBlock m live now
      = (true, { a with ring, playing := some ⟨block.data, block.serial⟩, clockPts, clockSerial }) := by
  obtain ⟨hblock, hring⟩ := takeBlock_eq live.audio h (Nat.le_of_eq h.length.symm)
  rw [List.dropWhile_cons_of_neg (by simp [present])] at hblock hring
  unfold nextBlock
  rcases htake : takeBlock live.audio a.ring.length a.ring with ⟨taken, ring⟩
  rw [htake] at hblock hring
  subst hblock
  dsimp only [List.head?_cons]
  rw [if_pos master]
  exact ⟨ring, _, _, hring, rfl⟩

/-! ## What is still to come -/

/-- Sample format, volume and mute flag. -/
def tone (a : AudioRenderer R) : SampleFormat × R × Bool :=
  (a.deviceParams.format, a.volume, a.muted)

/-- What is heard of data in so many bytes, as the renderer plays it. -/
def heard (a : AudioRenderer R) (data : Bytes) (n : Nat) : Bytes :=
  Playback.heard a.tone.1 a.tone.2.1 a.tone.2.2 data n

/-- The data that is still to be played: that of the present block and that of the blocks in the ring. -/
def upcoming (a : AudioRenderer R) : Bytes :=
  a.unplayed ++ a.ring.toList.flatMap (·.data)

/-- The blocks in the ring are of one generation, and no sample is cut by the end of a block. -/
structure Uncut (a : AudioRenderer R) (serial : Serial) : Prop where
  intact : a.ring.Intact
  present : ∀ block ∈ a.ring.toList, block.serial = serial
  blocks : ∀ block ∈ a.ring.toList, a.tone.1.size ∣ block.data.length
  playing : a.tone.1.size ∣ a.unplayed.length

/-- A renderer that plays so many bytes comes to another one: they are taken off what is still to come, and the
output is what is heard of it. -/
structure Heard (a : AudioRenderer R) (serial : Serial) (n : Nat) (output : Bytes) (a' : AudioRenderer R) :
    Prop where
  uncut : a'.Uncut serial
  tone : a'.tone = a.tone
  upcoming : a'.upcoming = a.upcoming.drop n
  output : output = a.heard a.upcoming n

theorem Heard.refl {serial : Serial} (h : a.Uncut serial) : a.Heard serial 0 [] a :=
  ⟨h, rfl, rfl, (heard_zero ..).symm⟩

theorem Heard.trans {a' a'' : AudioRenderer R} {serial : Serial} {n n' : Nat} {output output' : Bytes}
    (h : a.Heard serial n output a') (h' : a'.Heard serial n' output' a'') (whole : a.tone.1.size ∣ n) :
    a.Heard serial (n + n') (output ++ output') a'' where
  uncut := h'.uncut
  tone := h'.tone.trans h.tone
  upcoming := by rw [h'.upcoming, h.upcoming, List.drop_drop]
  output := by
    rw [h.output, h'.output, h.upcoming]
    unfold heard
    rw [h.tone]
    exact (heard_add _ _ whole _ _).symm

omit [Scalar R] in
theorem unplayed_drop (a : AudioRenderer R) (n : Nat) :
    ({ a with playing := a.playing.map fun p => { p with rest := p.rest.drop n } } :
      AudioRenderer R).unplayed = a.unplayed.drop n := by
  unfold unplayed
  cases a.playing with
  | none => exact List.drop_nil.symm
  | some p => rfl

theorem dvd_min {k m n : Nat} (hm : k ∣ m) (hn : k ∣ n) : k ∣ min m n := by
  rcases Nat.le_total m n with hle | hle
  · rwa [Nat.min_eq_left hle]
  · rwa [Nat.min_eq_right hle]

/-- What is mixed of the present block into a buffer sounds as it does by itself. -/
theorem mix_unplayed (a : AudioRenderer R) {out : Bytes} {n : Nat} (room : n ≤ out.length)
    (enough : n ≤ a.unplayed.length) (whole : a.tone.1.size ∣ n) :
    mix (out.take n) (a.unplayed.take n) a.deviceParams.format a.volume a.muted
      = voiced a.tone.1 a.tone.2.1 a.tone.2.2 (a.unplayed.take n) := by
  have hlength : (a.unplayed.take n).length = n := List.length_take_of_le enough
  exact mix_eq_voiced _ _ (by rw [hlength]; exact List.length_take_of_le room) (by rw [hlength]; exact whole)

/-- Some bytes of the present block are played. -/
theorem play_heard {serial : Serial} (h : a.Uncut serial) {n : Nat} (hn : n ≤ a.unplayed.length)
    (whole : a.tone.1.size ∣ n) :
    a.Heard serial n (voiced a.tone.1 a.tone.2.1 a.tone.2.2 (a.unplayed.take n))
      { a with playing := a.playing.map fun p => { p with rest := p.rest.drop n } } := by
  have hrest := a.unplayed_drop n
  refine ⟨⟨h.intact, h.present, h.blocks, ?_⟩, rfl, ?_, (heard_left _ _ whole hn _).symm⟩
  · rw [hrest, List.length_drop]
    exact Nat.dvd_sub h.playing whole
  · unfold upcoming
    rw [hrest, List.drop_append_of_le_length hn]

/-- Where nothing is to come, silence is played. -/
theorem silence_heard {serial : Serial} (hnone : a.unplayed = []) (h : a.ring.Holds []) {ring : Ring (AudioBlock R)}
    (hring : ring.Holds []) (n : Nat) :
    a.Heard serial n (List.replicate n 0) { a with ring, playing := none } where
  uncut := ⟨⟨[], hring⟩, by rw [hring.toList]; exact List.forall_mem_nil _,
    by rw [hring.toList]; exact List.forall_mem_nil _, Nat.dvd_zero _⟩
  tone := rfl
  upcoming := by
    unfold upcoming
    rw [hnone, h.toList, hring.toList]
    exact List.drop_nil.symm
  output := by
    unfold heard upcoming
    rw [hnone, h.toList]
    exact (heard_nil ..).symm

/-- A new block is begun when the present one is played. -/
theorem block_heard {serial : Serial} (h : a.Uncut serial) (hnone : a.unplayed = []) {block : AudioBlock R}
    {l : List (AudioBlock R)} (hl : a.ring.Holds (block :: l)) {ring : Ring (AudioBlock R)}
    (hring : ring.Holds l) (clockPts : R) (clockSerial : Option Serial) :
    a.Heard serial 0 []
      { a with ring, playing := some ⟨block.data, block.serial⟩, clockPts, clockSerial } := by
  have hpresent := h.present
  have hblocks := h.blocks
  rw [hl.toList] at hpresent hblocks
  refine ⟨⟨⟨l, hring⟩, ?_, ?_, hblocks block (List.mem_cons_self ..)⟩, rfl, ?_, ?_⟩
  · rw [hring.toList]
    exact fun b hb => hpresent b (List.mem_cons_of_mem _ hb)
  · rw [hring.toList]
    exact fun b hb => hblocks b (List.mem_cons_of_mem _ hb)
  · unfold upcoming
    rw [hnone, hl.toList, hring.toList]
    rfl
  · exact (heard_zero ..).symm

/-- Callbacks that fill a buffer block by block. The fuel lasts for as many blocks as the ring holds. -/
theorem fill_heard (live : LiveSerials) (now : R) (master : m.masterType = .audioMaster) (fuel : Nat)
    {a : AudioRenderer R} (h : a.Uncut live.audio) {out : Bytes} (whole : a.tone.1.size ∣ out.length)
    (hfuel : a.ring.toList.length < fuel) :
    a.Heard live.audio out.length (a.fill m live now out fuel).1 (a.fill m live now out fuel).2.2 := by
  induction fuel generalizing a out with
  | zero => cases hfuel
  | succ fuel ih =>
    have hcount : a.tone.1.size ∣ min a.unplayed.length out.length := dvd_min h.playing whole
    unfold fill
    dsimp only
    generalize hn : min a.unplayed.length out.length = n at hcount ⊢
    have hmix := mix_unplayed a (by omega : n ≤ out.length) (by omega : n ≤ a.unplayed.length) hcount
    have hplay := play_heard h (by omega : n ≤ a.unplayed.length) hcount
    have hrest := a.unplayed_drop n
    have hring : ({ a with playing := a.playing.map fun p => { p with rest := p.rest.drop n } } :
      AudioRenderer R).ring = a.ring := rfl
    rw [hmix]
    generalize voiced a.tone.1 a.tone.2.1 a.tone.2.2 (a.unplayed.take n) = written at hplay ⊢
    generalize ({ a with playing := a.playing.map fun p => { p with rest := p.rest.drop n } } :
      AudioRenderer R) = played at hplay hrest hring ⊢
    split
    next hempty =>
      -- the request ends within the present block
      have hall : n = out.length := by
        have hle : out.length ≤ n := by simpa using hempty
        omega
      rw [← hall]
      exact hplay
    next hmore =>
      have hlt : n < out.length := by simpa using hmore
      have hnone : played.unplayed = [] := by
        rw [hrest]
        exact List.drop_eq_nil_of_le (by omega)
      have hleft : n + (out.drop n).length = out.length := by
        rw [List.length_drop]
        omega
      obtain ⟨l, hl⟩ := hplay.uncut.intact
      rw [← hleft]
      cases l with
      | nil =>
        obtain ⟨ring, hring', hnext⟩ := nextBlock_none hl m live now
        rw [hnext]
        exact hplay.trans (silence_heard hnone hl hring' _) hcount
      | cons block l =>
        have hpresent := hplay.uncut.present block (by rw [hl.toList]; exact List.mem_cons_self ..)
        obtain ⟨ring, clockPts, clockSerial, hring', hnext⟩ :=
          nextBlock_some hl hpresent master now
        rw [hnext]
        have hblock := block_heard hplay.uncut hnone hl hring' clockPts clockSerial
        have hbegun := hplay.trans hblock hcount
        rw [Nat.add_zero, List.append_nil] at hbegun
        have hfuel' : ring.toList.length < fuel := by
          rw [← hring, hl.toList, List.length_cons] at hfuel
          rw [hring'.toList]
          omega
        have hsize : a.tone.1.size ∣ (out.drop n).length := by
          rw [List.length_drop]
          exact Nat.dvd_sub whole hcount
        exact hbegun.trans (ih hbegun.uncut (by rw [hbegun.tone]; exact hsize) hfuel') hcount

/-- Two renderers have the same data to play, in the same way. -/
def SameSound (a a' : AudioRenderer R) : Prop :=
  a'.ring = a.ring ∧ a'.playing = a.playing ∧ a'.tone = a.tone

omit [Scalar R] in
theorem SameSound.upcoming {a a' : AudioRenderer R} (h : a.SameSound a') : a'.upcoming = a.upcoming := by
  unfold AudioRenderer.upcoming unplayed
  rw [h.1, h.2.1]

omit [Scalar R] in
theorem SameSound.uncut {a a' : AudioRenderer R} (h : a.SameSound a') {serial : Serial}
    (hcut : a.Uncut serial) : a'.Uncut serial := by
  obtain ⟨hring, hplaying, htone⟩ := h
  obtain ⟨hintact, hpresent, hblocks, hrest⟩ := hcut
  refine ⟨?_, ?_, ?_, ?_⟩
  · rwa [hring]
  · rwa [hring]
  · rwa [hring, htone]
  · unfold unplayed at hrest ⊢
    rwa [hplaying, htone]

theorem Heard.of_same {a b b' a' : AudioRenderer R} {serial : Serial} {n : Nat} {output : Bytes}
    (h : b.Heard serial n output b') (hb : a.SameSound b) (hb' : b'.SameSound a') :
    a.Heard serial n output a' where
  uncut := hb'.uncut h.uncut
  tone := hb'.2.2.trans (h.tone.trans hb.2.2)
  upcoming := by rw [hb'.upcoming, h.upcoming, hb.upcoming]
  output := by
    rw [h.output, hb.upcoming]
    unfold heard
    rw [hb.2.2]

theorem render_heard {serial video : Serial} (h : a.Uncut serial) (running : a.paused = false)
    (master : m.masterType = .audioMaster) (delay : R) {out : Bytes} (whole : a.tone.1.size ∣ out.length) :
    a.Heard serial out.length (a.render m ⟨serial, video⟩ now delay out).output
      (a.render m ⟨serial, video⟩ now delay out).renderer := by
  have hsame : a.SameSound { a with requestSize := out.length } := ⟨rfl, rfl, rfl⟩
  unfold render
  dsimp only
  rw [if_neg (by simp [running])]
  by_cases hempty : out = []
  · subst hempty
    exact (Heard.refl (hsame.uncut h)).of_same hsame ⟨rfl, rfl, rfl⟩
  · rw [if_neg (by simp [hempty])]
    obtain ⟨l, hl⟩ := h.intact
    have hfuel : a.ring.toList.length < a.ring.length + 1 := by
      rw [hl.toList, hl.length]
      exact Nat.lt_succ_self _
    have hfill := fill_heard ⟨serial, video⟩ now master (a.ring.length + 1)
      (hsame.uncut h) whole hfuel
    exact hfill.of_same hsame ⟨rfl, rfl, rfl⟩

/-- During a pause a callback gives silence, and nothing is played. -/
theorem render_paused (a : AudioRenderer R) (h : a.paused = true) (m : MediaClock R) (live : LiveSerials)
    (now delay : R) (out : Bytes) :
    (a.render m live now delay out).output = List.replicate out.length 0 ∧
      a.SameSound (a.render m live now delay out).renderer := by
  unfold render
  dsimp only
  rw [if_pos h]
  exact ⟨rfl, rfl, rfl, rfl⟩

end AudioRenderer

/-! ## Requests -/

/-- A request of the device for as many bytes as its buffer has, with what the callback meets. -/
structure AudioRequest (R : Type) where
  paused : Bool
  clock : MediaClock R
  video : Serial
  now : R
  delay : R
  buffer : Bytes

namespace AudioRenderer

/-- A callback for a request. -/
def serve (a : AudioRenderer R) (serial : Serial) (r : AudioRequest R) : Rendered R :=
  (a.setPaused r.paused).render r.clock ⟨serial, r.video⟩ r.now r.delay r.buffer

/-- The renderer after some requests. -/
def afterRequests (a : AudioRenderer R) (serial : Serial) (rs : List (AudioRequest R)) : AudioRenderer R :=
  rs.foldl (fun a r => (a.serve serial r).renderer) a

/-- What is put out for requests outside a pause, one after the other. -/
def outputs (a : AudioRenderer R) (serial : Serial) : List (AudioRequest R) → Bytes
  | [] => []
  | r :: rs =>
    let rest := (a.serve serial r).renderer.outputs serial rs
    if r.paused then rest else (a.serve serial r).output ++ rest

/-- How many bytes are asked for outside a pause. -/
def requested : List (AudioRequest R) → Nat
  | [] => 0
  | r :: rs => (if r.paused then 0 else r.buffer.length) + requested rs

theorem outputs_heard {serial : Serial} (rs : List (AudioRequest R)) {a : AudioRenderer R}
    (h : a.Uncut serial)
    (master : ∀ r ∈ rs, r.paused = false → r.clock.masterType = .audioMaster)
    (whole : ∀ r ∈ rs, r.paused = false → a.tone.1.size ∣ r.buffer.length) :
    a.Heard serial (requested rs) (a.outputs serial rs) (a.afterRequests serial rs) := by
  induction rs generalizing a with
  | nil => exact .refl h
  | cons r rs ih =>
    have hpaused : a.SameSound (a.setPaused r.paused) := ⟨rfl, rfl, rfl⟩
    have hmaster := master r (List.mem_cons_self ..)
    have hwhole := whole r (List.mem_cons_self ..)
    have hrest {b : AudioRenderer R} (hb : b.Uncut serial) (htone : b.tone = a.tone) :
        b.Heard serial (requested rs) (b.outputs serial rs) (b.afterRequests serial rs) := by
      refine ih hb (fun r' hr' => master r' (List.mem_cons_of_mem _ hr')) fun r' hr' => ?_
      rw [htone]
      exact whole r' (List.mem_cons_of_mem _ hr')
    unfold outputs requested
    show a.Heard serial _ _ ((a.serve serial r).renderer.afterRequests serial rs)
    cases hr : r.paused with
    | true =>
      have hpause : a.SameSound (a.serve serial r).renderer :=
        (render_paused (a.setPaused r.paused) hr r.clock ⟨serial, r.video⟩ r.now r.delay r.buffer).2
      rw [if_pos rfl, if_pos rfl, Nat.zero_add]
      exact (hrest (hpause.uncut h) hpause.2.2).of_same hpause ⟨rfl, rfl, rfl⟩
    | false =>
      have hserved : a.Heard serial r.buffer.length (a.serve serial r).output (a.serve serial r).renderer :=
        (render_heard (hpaused.uncut h) hr (hmaster hr) r.delay (hwhole hr)).of_same hpaused ⟨rfl, rfl, rfl⟩
      rw [if_neg Bool.false_ne_true, if_neg Bool.false_ne_true]
      exact hserved.trans (hrest hserved.uncut hserved.tone) (hwhole hr)

/-- **The sizes of requests do not matter.** Let audio be the master, and let neither the end of a block nor that
of a request cut a sample. What a renderer puts out for requests outside a pause is the data of the present block
and of the blocks in the ring, mixed at its volume, cut to the number of bytes that are asked for or filled up with
silence. A request during a pause gets silence and takes nothing. -/
theorem output_of_requests (a : AudioRenderer R) (serial : Serial) (rs : List (AudioRequest R))
    (uncut : a.Uncut serial)
    (master : ∀ r ∈ rs, r.paused = false → r.clock.masterType = .audioMaster)
    (whole : ∀ r ∈ rs, r.paused = false → a.deviceParams.format.size ∣ r.buffer.length) :
    let data := a.unplayed ++ a.ring.toList.flatMap (·.data)
    a.outputs serial rs
        = (mix (List.replicate data.length 0) data a.deviceParams.format a.volume a.muted).take (requested rs)
          ++ List.replicate (requested rs - data.length) 0 ∧
    ∀ before r after, rs = before ++ r :: after → r.paused = true →
      let b := a.afterRequests serial before
      (b.serve serial r).output = List.replicate r.buffer.length 0 ∧
        (b.serve serial r).renderer.ring = b.ring ∧ (b.serve serial r).renderer.playing = b.playing := by
  intro data
  constructor
  · exact (outputs_heard rs uncut master whole).output
  · intro before r after _ hpaused b
    obtain ⟨hsilent, hring, hplaying, -⟩ :=
      render_paused (b.setPaused r.paused) hpaused r.clock ⟨serial, r.video⟩ r.now r.delay r.buffer
    exact ⟨hsilent, hring, hplaying⟩

/-- A renderer at half the volume with three blocks, one of them empty. -/
def threeBlocks : AudioRenderer Float :=
  let block (data : Bytes) : AudioBlock Float :=
    { pts := 0.0, duration := 0.0, sampleCount := data.length / 2, params := default, serial := 1, data }
  { (new { (.default : AudioConfig Float) with volume := 0.5 } .default 4 .obliging .silent) with
    ring := [[0, 2], [], [0, 4, 0, 8]].foldl (fun ring data => (ring.pushBack (block data)).2) (.new 4) }

/-- A request with a buffer that is not empty before. -/
def requestOf (paused : Bool) (size : Nat) : AudioRequest Float :=
  { paused, clock := .new .audioMaster id 0.0, video := 0, now := 0.0, delay := 0.0
    buffer := List.replicate size 0xaa }

theorem three_blocks_in_two_requests :
    threeBlocks.Uncut 1 ∧
      threeBlocks.outputs 1 [requestOf false 4, requestOf true 3, requestOf false 6]
        = [0, 1, 0, 2, 0, 4, 0, 0, 0, 0] := by
  have huncut : threeBlocks.Uncut 1 :=
    ⟨(((Ring.Intact.pushBack ⟨[], Ring.new_holds 4⟩ _).pushBack _).pushBack _), by decide +kernel,
      by decide +kernel, by decide +kernel⟩
  refine ⟨huncut, (output_of_requests threeBlocks 1 _ huncut ?_ ?_).1.trans (by decide +kernel)⟩
  · decide +kernel
  · decide +kernel

end AudioRenderer
end Playback
