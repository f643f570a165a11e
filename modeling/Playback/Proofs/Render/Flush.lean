import Playback.Proofs.Audio.Samples
import Playback.Proofs.Render.EndOfStream
import Playback.Proofs.Render.Requests

/-!
# What is left, and heard, after a flush

A flush keeps what is of the present generation, in its order, and drops the rest. From then on, for as long as the
generation stays, only blocks of it are heard (`output_after_flush`): no others are taken out of the ring
(`nextBlock_current`), and the block that is being played was of the generation when the flush was over.

`Composed` says what an output is made of: blocks that are played to their end, a last one that is played as far as
the request goes, and silence. A volume between silence and the full one works on whole samples, so that a sample
which the end of a block or of a request cuts is left as the buffer had it. That is the only way in which anything
else can be heard.
-/

namespace Playback

variable {R : Type} [Scalar R]

namespace Compensator

variable {c : Compensator R} {data stretched : Bytes} {params : AudioParams} {wanted : Nat}

/-- What comes of data is the data itself or samples in its format. -/
theorem stretch_data (c : Compensator R) (h : (c.stretch data params wanted).1 = .ok stretched) :
    stretched = data ∨ ∃ samples, stretched = Sample.encode params.format samples := by
  unfold stretch at h
  split at h
  next => exact .inl (Except.ok.inj h).symm
  next =>
    dsimp only at h
    split at h
    next => exact absurd h nofun
    next =>
      split at h
      next => exact absurd h nofun
      next =>
        unfold Except.map at h
        split at h
        next => exact absurd h nofun
        next samples _ => exact .inr ⟨samples, (Except.ok.inj h).symm⟩

/-- The library stays the same. -/
theorem process_filter (c : Compensator R) (data : Bytes) (params : AudioParams) (wanted : Nat) :
    (c.process data params wanted).2.filter = c.filter := by
  show (c.stretch data params wanted).2.filter = c.filter
  unfold stretch
  dsimp only
  repeat' split
  all_goals rfl

end Compensator

namespace AudioRenderer

/-! ## What an output is made of -/

/-- What is played is the data of a block as it is, or brought closer to the master by a library. -/
def MadeOf (filter : RateFilter R) (p : PlayingBlock) (block : AudioBlock R) : Prop :=
  p.serial = block.serial ∧ (p.rest = block.data ∨
    ∃ (c : Compensator R) (wanted : Nat), c.filter = filter ∧
      p.rest = (c.process block.data block.params wanted).1)

/-- What a callback may play: the present block, and what it makes of the blocks in the ring. -/
def Playable (a : AudioRenderer R) (p : PlayingBlock) : Prop :=
  a.playing = some p ∨ ∃ block ∈ a.ring.toList, MadeOf a.compensator.filter p block

/-- Data mixed into a part of the buffer, as the renderer plays it. -/
def mixed (a : AudioRenderer R) (out data : Bytes) : Bytes :=
  mix out data a.tone.1 a.tone.2.1 a.tone.2.2

/-- What the output is made of that a callback leaves in a buffer: of silence and of blocks of one generation. -/
inductive Composed (a : AudioRenderer R) (serial : Serial) : Bytes → Bytes → Prop where
  | silence (out : Bytes) : Composed a serial out (List.replicate out.length 0)
  /-- The request ends in a block. -/
  | ends (p : PlayingBlock) (playable : a.Playable p) (present : p.serial = serial) (out : Bytes)
      (enough : out.length ≤ p.rest.length) : Composed a serial out (a.mixed out (p.rest.take out.length))
  /-- A block is played to its end, and the output goes on. -/
  | goesOn (p : PlayingBlock) (playable : a.Playable p) (present : p.serial = serial) (old : Bytes)
      (all : old.length = p.rest.length) {out output : Bytes} (rest : Composed a serial out output) :
      Composed a serial (old ++ out) (a.mixed old p.rest ++ output)

theorem Composed.mono {a a' : AudioRenderer R} {serial : Serial} {out output : Bytes}
    (h : a'.Composed serial out output) (tone : a'.tone = a.tone)
    (playable : ∀ p, a'.Playable p → a.Playable p) : a.Composed serial out output := by
  have hmixed (out data : Bytes) : a'.mixed out data = a.mixed out data := by
    unfold mixed
    rw [tone]
  induction h with
  | silence out => exact .silence out
  | ends p hp hserial out enough =>
    rw [hmixed]
    exact .ends p (playable p hp) hserial out enough
  | goesOn p hp hserial old all rest ih =>
    rw [hmixed]
    exact .goesOn p (playable p hp) hserial old all ih

/-! ## Whole samples -/

/-- No sample is cut at a volume at which samples are scaled: the request and the blocks are whole samples of the
device's format. -/
def NeverCuts (a : AudioRenderer R) (out : Bytes) : Prop :=
  ¬ Scales a.volume a.muted ∨ (a.deviceParams.format.size ∣ out.length ∧
    a.deviceParams.format.size ∣ a.unplayed.length ∧
    ∀ block ∈ a.ring.toList, block.params.format = a.deviceParams.format ∧
      a.deviceParams.format.size ∣ block.data.length)

theorem process_whole (c : Compensator R) {data : Bytes} {params : AudioParams}
    (h : params.format.size ∣ data.length) (wanted : Nat) :
    params.format.size ∣ (c.process data params wanted).1.length := by
  show params.format.size ∣ ((c.stretch data params wanted).1.toOption.getD data).length
  cases hresult : (c.stretch data params wanted).1 with
  | error e => exact h
  | ok stretched =>
    rcases c.stretch_data hresult with rfl | ⟨samples, rfl⟩
    · exact h
    · rw [Except.toOption, Option.getD_some, Sample.encode_length]
      exact Nat.dvd_mul_left ..

/-- What is played is whole samples, too. -/
theorem Playable.whole {a : AudioRenderer R} {p : PlayingBlock} (h : a.Playable p)
    (playing : a.deviceParams.format.size ∣ a.unplayed.length)
    (blocks : ∀ block ∈ a.ring.toList, block.params.format = a.deviceParams.format ∧
      a.deviceParams.format.size ∣ block.data.length) : a.deviceParams.format.size ∣ p.rest.length := by
  rcases h with hp | ⟨block, hmem, -, hdata | ⟨c, wanted, -, hdata⟩⟩
  · simpa [unplayed, hp] using playing
  · rw [hdata]
    exact (blocks block hmem).2
  · obtain ⟨hformat, hwhole⟩ := blocks block hmem
    rw [hdata]
    rw [← hformat] at hwhole ⊢
    exact process_whole c hwhole wanted

/-- What is not silent sounds in a block of the generation. -/
theorem Composed.sounds {a : AudioRenderer R} {serial : Serial} {out output : Bytes}
    (h : a.Composed serial out output) (uncut : a.NeverCuts out) :
    ∀ byte ∈ output, byte = 0 ∨ ∃ p n, a.Playable p ∧ p.serial = serial ∧
      byte ∈ voiced a.deviceParams.format a.volume a.muted (p.rest.take n) := by
  have hcut : ¬ Scales a.volume a.muted ∨ (a.deviceParams.format.size ∣ out.length ∧
      ∀ p, a.Playable p → a.deviceParams.format.size ∣ p.rest.length) :=
    uncut.imp_right fun ⟨hout, hplaying, hblocks⟩ => ⟨hout, fun p hp => hp.whole hplaying hblocks⟩
  clear uncut
  have hmixed {out data : Bytes} (hlength : out.length = data.length)
      (hwhole : ¬ Scales a.volume a.muted ∨ a.deviceParams.format.size ∣ data.length) :
      a.mixed out data = voiced a.deviceParams.format a.volume a.muted data := by
    rcases hwhole with hscales | hwhole
    · exact mix_eq_voiced_of_not_scales _ _ hscales hlength
    · exact mix_eq_voiced _ _ hlength hwhole
  induction h with
  | silence out =>
    intro byte hbyte
    exact .inl (List.eq_of_mem_replicate hbyte)
  | ends p hp hserial out enough =>
    intro byte hbyte
    have hlength : (p.rest.take out.length).length = out.length := List.length_take_of_le enough
    rw [hmixed hlength.symm (by rw [hlength]; exact hcut.imp_right And.left)] at hbyte
    exact .inr ⟨p, out.length, hp, hserial, hbyte⟩
  | goesOn p hp hserial old all rest ih =>
    intro byte hbyte
    have hrest := hcut.imp_right fun ⟨hout, hblocks⟩ => by
      rw [List.length_append, all] at hout
      exact And.intro ((Nat.dvd_add_right (hblocks p hp)).mp hout) hblocks
    rcases List.mem_append.mp hbyte with hbyte | hbyte
    · rw [hmixed all (hcut.imp_right fun h => h.2 p hp)] at hbyte
      exact .inr ⟨p, p.rest.length, hp, hserial, by rwa [List.take_length]⟩
    · exact ih hrest byte hbyte

/-! ## Only the present generation is played -/

/-- What is being played belongs to a generation. -/
structure Current (a : AudioRenderer R) (serial : Serial) : Prop where
  intact : a.ring.Intact
  playing : ∀ p, a.playing = some p → p.serial = serial

variable {a : AudioRenderer R} {m : MediaClock R} {live : LiveSerials} {now : R}

/-- The output ends within the present block. -/
theorem Current.ends {serial : Serial} (h : a.Current serial) {out : Bytes}
    (enough : out.length ≤ a.unplayed.length) :
    a.Composed serial out
      (mix out (a.unplayed.take out.length) a.deviceParams.format a.volume a.muted) := by
  cases hp : a.playing with
  | none =>
    have hnone : a.unplayed = [] := by simp [unplayed, hp]
    have hout : out = [] := List.eq_nil_of_length_eq_zero (by simpa [hnone] using enough)
    subst hout
    have hmix : mix [] (a.unplayed.take 0) a.deviceParams.format a.volume a.muted = [] :=
      List.eq_nil_of_length_eq_zero (mix_length ..)
    rw [List.length_nil, hmix]
    exact .silence []
  | some p =>
    have hrest : a.unplayed = p.rest := by simp [unplayed, hp]
    rw [hrest] at enough ⊢
    exact .ends p (.inl hp) (h.playing p hp) out enough

/-- The present block is played to its end, and the output goes on. -/
theorem Current.goesOn {serial : Serial} (h : a.Current serial) {old : Bytes}
    (all : old.length = a.unplayed.length) {out output : Bytes} (rest : a.Composed serial out output) :
    a.Composed serial (old ++ out)
      (mix old a.unplayed a.deviceParams.format a.volume a.muted ++ output) := by
  cases hp : a.playing with
  | none =>
    have hnone : a.unplayed = [] := by simp [unplayed, hp]
    have hold : old = [] := List.eq_nil_of_length_eq_zero (by rw [all, hnone]; rfl)
    subst hold
    have hmix : mix [] a.unplayed a.deviceParams.format a.volume a.muted = [] :=
      List.eq_nil_of_length_eq_zero (mix_length ..)
    rw [hmix]
    exact rest
  | some p =>
    have hrest : a.unplayed = p.rest := by simp [unplayed, hp]
    rw [hrest] at all ⊢
    exact .goesOn p (.inl hp) (h.playing p hp) old all rest

theorem synchronize_keeps (a : AudioRenderer R) (m : MediaClock R) (live : LiveSerials) (now : R)
    (sampleCount : Nat) (params : AudioParams) :
    (a.synchronize m live now sampleCount params).2.ring = a.ring ∧
      (a.synchronize m live now sampleCount params).2.compensator = a.compensator := by
  unfold synchronize
  dsimp only
  repeat' split
  all_goals exact ⟨rfl, rfl⟩

/-- A new block is one of the present generation from the ring. -/
theorem nextBlock_current (h : a.ring.Intact) (m : MediaClock R) (live : LiveSerials) (now : R) :
    (a.nextBlock m live now).2.Current live.audio ∧
      ∀ p, (a.nextBlock m live now).2.Playable p →
        ∃ block ∈ a.ring.toList, MadeOf a.compensator.filter p block := by
  obtain ⟨l, hl⟩ := h
  obtain ⟨hblock, hring⟩ := takeBlock_eq live.audio hl (Nat.le_of_eq hl.length.symm)
  have hsuffix := List.dropWhile_suffix (l := l) fun block => decide (block.serial ≠ live.audio)
  have hfirst := List.head?_dropWhile_not (fun block : AudioBlock R => decide (block.serial ≠ live.audio)) l
  rw [hl.toList]
  unfold nextBlock
  rcases htake : takeBlock live.audio a.ring.length a.ring with ⟨taken, ring⟩
  rw [htake] at hblock hring
  dsimp only at hblock hring
  generalize l.dropWhile (fun block => decide (block.serial ≠ live.audio)) = rest at *
  cases rest with
  | nil =>
    subst hblock
    dsimp only [List.head?_nil]
    refine ⟨⟨⟨[], hring⟩, fun p hp => nomatch hp⟩, fun p hp => ?_⟩
    rcases hp with hp | ⟨block, hmem, -⟩
    · cases hp
    · rw [hring.toList] at hmem
      cases hmem
  | cons block rest =>
    subst hblock
    have hmem : ∀ b ∈ block :: rest, b ∈ l := fun b hb => hsuffix.subset hb
    have hserial : block.serial = live.audio := by simpa using hfirst
    -- whatever becomes of the data, the ring is the one without the block
    have hmade {a' : AudioRenderer R} {data : Bytes} (hring' : a'.ring = ring)
        (hfilter : a'.compensator.filter = a.compensator.filter) (hplaying : a'.playing = some ⟨data, block.serial⟩)
        (hdata : MadeOf a.compensator.filter ⟨data, block.serial⟩ block) :
        a'.Current live.audio ∧ ∀ p, a'.Playable p → ∃ block ∈ l, MadeOf a.compensator.filter p block := by
      refine ⟨⟨⟨rest, hring' ▸ hring⟩, fun p hp => ?_⟩, fun p hp => ?_⟩
      · rw [hplaying] at hp
        cases hp
        exact hserial
      · rcases hp with hp | ⟨b, hb, hp⟩
        · rw [hplaying] at hp
          cases hp
          exact ⟨block, hmem _ (List.mem_cons_self ..), hdata⟩
        · rw [hring', hring.toList] at hb
          rw [hfilter] at hp
          exact ⟨b, hmem b (List.mem_cons_of_mem _ hb), hp⟩
    dsimp only [List.head?_cons]
    split
    next => exact hmade rfl rfl rfl ⟨rfl, .inl rfl⟩
    next =>
      obtain ⟨hring', hsame⟩ :=
        synchronize_keeps { a with ring } m live now block.sampleCount block.params
      have hfilter := congrArg Compensator.filter hsame
      exact hmade hring' ((Compensator.process_filter ..).trans hfilter) rfl ⟨rfl, .inr ⟨_, _, hfilter, rfl⟩⟩

omit [Scalar R] in
theorem Plays.tone {a a' : AudioRenderer R} (h : a.Plays a') : a'.tone = a.tone := by
  obtain ⟨_, _, _, _, _, _, _, rfl⟩ := h
  rfl

/-- A callback plays blocks of the present generation, and goes on with blocks of it. -/
theorem fill_composed (m : MediaClock R) (live : LiveSerials) (now : R) (fuel : Nat) {a : AudioRenderer R}
    (h : a.Current live.audio) (out : Bytes) :
    a.Composed live.audio out (a.fill m live now out fuel).1 ∧
      (a.fill m live now out fuel).2.2.Current live.audio := by
  induction fuel generalizing a out with
  | zero => exact ⟨.silence out, h.intact, fun p hp => nomatch hp⟩
  | succ fuel ih =>
    unfold fill
    dsimp only
    generalize hn : min a.unplayed.length out.length = n
    generalize hplayed : ({ a with playing := a.playing.map fun p => { p with rest := p.rest.drop n } } :
      AudioRenderer R) = played
    have htone : played.tone = a.tone := by rw [← hplayed]; rfl
    have hring : played.ring = a.ring := by rw [← hplayed]
    have hlibrary : played.compensator = a.compensator := by rw [← hplayed]
    have hintact : played.ring.Intact := by rw [hring]; exact h.intact
    have hcurrent : ∀ p, played.playing = some p → p.serial = live.audio := by
      intro p hp
      rw [← hplayed] at hp
      obtain ⟨p', hp', rfl⟩ := Option.map_eq_some_iff.mp hp
      exact h.playing p' hp'
    have hnext := nextBlock_current hintact m live now
    have hsame := (played.nextBlock_plays m live now).tone
    rw [hring, hlibrary] at hnext
    split
    next hempty =>
      -- the request ends within the present block
      have hall : n = out.length := by
        have hle : out.length ≤ n := by simpa using hempty
        omega
      rw [hall, List.take_length]
      exact ⟨h.ends (by omega), hintact, hcurrent⟩
    next hmore =>
      -- the present block is played to its end, and what follows it fills the rest
      have hlt : n < out.length := by simpa using hmore
      have hwhole : n = a.unplayed.length := by omega
      have hjoin {rest : Bytes} (hrest : a.Composed live.audio (out.drop n) rest) :
          a.Composed live.audio out
            (mix (out.take n) (a.unplayed.take n) a.deviceParams.format a.volume a.muted ++ rest) := by
        have hold : (out.take n).length = a.unplayed.length := by
          rw [List.length_take_of_le (Nat.le_of_lt hlt), hwhole]
        have hgoes := h.goesOn hold hrest
        rwa [List.take_append_drop, ← List.take_length (l := a.unplayed), ← hwhole] at hgoes
      rcases hblock : played.nextBlock m live now with ⟨found, next⟩
      rw [hblock] at hnext hsame
      dsimp only at hnext hsame ⊢
      cases found with
      | false => exact ⟨hjoin (.silence _), hnext.1⟩
      | true =>
        obtain ⟨hrest, hafter⟩ := ih hnext.1 (out.drop n)
        exact ⟨hjoin (hrest.mono (hsame.trans htone) fun p hp => .inr (hnext.2 p hp)), hafter⟩

theorem render_composed {serial : Serial} (h : a.Current serial) (m : MediaClock R) (video : Serial)
    (now delay : R) (out : Bytes) :
    a.Composed serial out (a.render m ⟨serial, video⟩ now delay out).output ∧
      (a.render m ⟨serial, video⟩ now delay out).renderer.Current serial := by
  unfold render
  dsimp only
  split
  next => exact ⟨.silence out, h.intact, h.playing⟩
  next =>
    split
    next hempty =>
      rw [List.isEmpty_iff.mp hempty]
      exact ⟨.silence [], h.intact, h.playing⟩
    next =>
      have hasked : ({ a with requestSize := out.length } : AudioRenderer R).Current serial :=
        ⟨h.intact, h.playing⟩
      obtain ⟨houtput, hafter⟩ :=
        fill_composed m ⟨serial, video⟩ now (a.ring.length + 1) hasked out
      exact ⟨houtput.mono rfl fun p hp => hp, hafter.intact, hafter.playing⟩

/-! ## Flushes -/

/-- A flush drops blocks by their serials alone. -/
theorem flush_kept (a : AudioRenderer R) (serial : Serial) :
    (a.flush serial).ring = a.ring.retain (·.serial = serial) ∧
      (a.flush serial).playing = a.playing.filter (·.serial = serial) := by
  unfold flush
  dsimp only
  split <;> split <;> exact ⟨rfl, rfl⟩

theorem flush_current (h : a.ring.Intact) (serial : Serial) : (a.flush serial).Current serial := by
  obtain ⟨hring, hplaying⟩ := a.flush_kept serial
  refine ⟨hring ▸ h.retain _, fun p hp => ?_⟩
  rw [hplaying] at hp
  simpa using (Option.filter_eq_some_iff.mp hp).2

omit [Scalar R] in
theorem deliver_current {serial : Serial} (h : a.Current serial) (live : Serial)
    (result : ReadResult (AudioBlock R)) : (a.deliver live result).2.Current serial := by
  cases result with
  | frame block =>
    unfold deliver
    dsimp only
    split
    next => exact ⟨h.intact.pushBack block, h.playing⟩
    next => exact ⟨h.intact, h.playing⟩
  | endOfStream | aborted | error => exact ⟨h.intact, h.playing⟩

end AudioRenderer

/-- Whether a new generation begins. -/
def AudioAct.restarts : AudioAct R → Bool
  | .restart => true
  | _ => false

namespace AudioWatch

/-- While the generation stays, only blocks of it are played. -/
theorem act_current {w : AudioWatch R} (h : w.renderer.Current w.live) {a : AudioAct R}
    (stays : a.restarts = false) :
    (w.act a).renderer.Current (w.act a).live ∧ (w.act a).live = w.live := by
  cases a with
  | restart => cases stays
  | deliver result => exact ⟨AudioRenderer.deliver_current h w.live result, rfl⟩
  | flush => exact ⟨AudioRenderer.flush_current h.intact w.live, rfl⟩
  | render clock video now delay out =>
    exact ⟨(AudioRenderer.render_composed h clock video now delay out).2, rfl⟩
  | request | setPaused | setVolume | setMuted => exact ⟨⟨h.intact, h.playing⟩, rfl⟩
  | stop => exact ⟨⟨⟨[], w.renderer.ring.clear_holds⟩, fun p hp => nomatch hp⟩, rfl⟩

theorem acts_current {w : AudioWatch R} (h : w.renderer.Current w.live) {as : List (AudioAct R)}
    (stays : ∀ a ∈ as, a.restarts = false) :
    (w.acts as).renderer.Current (w.acts as).live ∧ (w.acts as).live = w.live :=
  List.foldlRecOn (motive := fun y => y.renderer.Current y.live ∧ y.live = w.live) as act ⟨h, rfl⟩
    fun _ ⟨hy, hlive⟩ a ha =>
      have hact := act_current hy (stays a ha)
      ⟨hact.1, hact.2.trans hlive⟩

end AudioWatch

/-- **Only the present generation is left after a flush, and heard.** A flush keeps the blocks, or pictures, of the
generation that is present, in their order, and a block that is being played where it is if it is of that
generation; it drops all others. After a flush of an audio renderer, while the generation stays and whatever is
delivered, every output is made of blocks of that generation and of silence: each byte is silent or is a byte of
such a block as it sounds, unless a sample is cut at a volume at which samples are scaled. -/
theorem output_after_flush :
    (∀ (a : AudioRenderer R) (serial : Serial) (l : List (AudioBlock R)), a.ring.Holds l →
      (a.flush serial).ring.Holds (l.filter (·.serial = serial)) ∧
        (a.flush serial).playing = a.playing.filter (·.serial = serial)) ∧
    (∀ (v : VideoRenderer R) (serial : Serial) (l : List (VideoFrame R)), v.ring.Holds l →
      (v.flush serial).ring.Holds (l.filter (·.serial = serial))) ∧
    (∀ (w : AudioWatch R) (as : List (AudioAct R)) (clock : MediaClock R) (video : Serial) (now delay : R)
      (out : Bytes), w.renderer.ring.Intact → (∀ a ∈ as, a.restarts = false) →
      let a := ((w.act .flush).acts as).renderer
      let output := (a.render clock ⟨w.live, video⟩ now delay out).output
      a.Composed w.live out output ∧
      (a.NeverCuts out → ∀ byte ∈ output, byte ≠ 0 → ∃ p n, a.Playable p ∧ p.serial = w.live ∧
        byte ∈ voiced a.deviceParams.format a.volume a.muted (p.rest.take n))) := by
  refine ⟨fun a serial l h => ?_, fun v serial l h => ?_, ?_⟩
  · obtain ⟨hring, hplaying⟩ := a.flush_kept serial
    exact ⟨hring ▸ h.retain _, hplaying⟩
  · exact (v.flush_keeps serial).1 ▸ h.retain _
  · intro w as clock video now delay out hintact hstays a output
    obtain ⟨hcurrent, hlive⟩ := AudioWatch.acts_current (w := w.act .flush)
      (AudioRenderer.flush_current hintact w.live) hstays
    rw [hlive] at hcurrent
    have hcomposed := (AudioRenderer.render_composed hcurrent clock video now delay out).1
    exact ⟨hcomposed, fun hcut byte hbyte hloud => (hcomposed.sounds hcut byte hbyte).resolve_left hloud⟩

/-! A seek at half the volume, with blocks of both generations in the ring and one of the past that is played. A
stale block and one of three silent samples arrive after the flush. -/

def blockOf (serial : Serial) (data : Bytes) : AudioBlock Float :=
  { pts := 0.0, duration := 0.0, sampleCount := data.length / 2, params := default, serial, data }

def midSeek : AudioWatch Float where
  renderer := { (AudioRenderer.new { (.default : AudioConfig Float) with volume := 0.5 } .default 4 .obliging
      .silent) with
    ring := (((Ring.new 4).pushBack (blockOf 1 [9, 9])).2.pushBack (blockOf 2 [0, 8])).2
    playing := some ⟨[7, 7], 1⟩
    paused := false }
  live := 2
  delivered := []
  announced := []

def sought : AudioRenderer Float :=
  ((midSeek.act .flush).acts
    [.deliver (.frame (blockOf 1 [5, 5])), .deliver (.frame (blockOf 2 [0, 0, 0, 0, 0, 0]))]).renderer

theorem midSeek_holds : midSeek.renderer.ring.Holds [blockOf 1 [9, 9], blockOf 2 [0, 8]] := by
  have hnew : (Ring.new 4 : Ring (AudioBlock Float)).Holds [] := Ring.new_holds 4
  obtain ⟨-, hone, hcapacity⟩ := hnew.pushBack (by decide) (blockOf 1 [9, 9])
  exact (hone.pushBack (by rw [hcapacity]; decide) (blockOf 2 [0, 8])).2.1

/-- The bytes that are heard are of the present generation; but the last of five bytes is half of a sample and
stays what the buffer held. -/
theorem heard_after_seek :
    (midSeek.act .flush).renderer.ring.Holds [blockOf 2 [0, 8]] ∧
    (midSeek.act .flush).renderer.playing = none ∧
    (sought.render stillClock ⟨2, 0⟩ 0.0 0.0 (List.replicate 5 0xaa)).output = [0, 4, 0, 0, 0xaa] ∧
    sought.Composed 2 (List.replicate 5 0xaa) [0, 4, 0, 0, 0xaa] ∧
    (sought.render stillClock ⟨2, 0⟩ 0.0 0.0 (List.replicate 4 0xaa)).output = [0, 4, 0, 0] ∧
    ∃ p n, sought.Playable p ∧ p.serial = 2 ∧ 4 ∈ voiced .i16 (0.5 : Float) false (p.rest.take n) := by
  have hintact : midSeek.renderer.ring.Intact := ⟨_, midSeek_holds⟩
  have hafter (out : Bytes) := (output_after_flush (R := Float)).2.2 midSeek
    [.deliver (.frame (blockOf 1 [5, 5])), .deliver (.frame (blockOf 2 [0, 0, 0, 0, 0, 0]))]
    stillClock 0 0.0 0.0 out hintact (by decide)
  have hfive : (sought.render stillClock ⟨2, 0⟩ 0.0 0.0 (List.replicate 5 0xaa)).output = [0, 4, 0, 0, 0xaa] := by
    decide +kernel
  have hfour : (sought.render stillClock ⟨2, 0⟩ 0.0 0.0 (List.replicate 4 0xaa)).output = [0, 4, 0, 0] := by
    decide +kernel
  have huncut : sought.NeverCuts (List.replicate 4 0xaa) :=
    .inr ⟨by decide +kernel, by decide +kernel, by decide +kernel⟩
  obtain ⟨hring, hplaying⟩ :=
    (output_after_flush (R := Float)).1 midSeek.renderer 2 _ midSeek_holds
  refine ⟨hring, hplaying, hfive, hfive ▸ (hafter _).1, hfour, ?_⟩
  exact (hafter (List.replicate 4 0xaa)).2 huncut 4 (hfour.symm ▸ by decide) (by decide)

end Playback
