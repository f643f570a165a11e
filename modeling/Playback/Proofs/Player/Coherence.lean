import Playback.Proofs.Player.Controls

/-!
# Output that follows

A player keeps the volume, the mute flag and whether it is playing for itself; the clocks and the renderers of a
session have their own settings. They are brought together by tasks that carry one change out later, and by the
turns of the state, which let everything run or stop it at once. `OutputView` is what of a player has to do with
this, and `OutputMove` are the rules by which it may move. They preserve `OutputView.Coherent`:

> what is asked for last is what the player wishes for; and a setting that no waiting task is about is the one
> that it should be (`OutputView.Coherent.move`).

So once nothing waits, the session is as it should be (`OutputView.Coherent.settled`). Volume and mute flag obey
one law, that of a `Setting`. Whether things run is another matter: the task for it says only that the player
should look again.
-/

namespace Playback

variable {R κa κv σ : Type}

/-! ## What is asked of the output -/

/-- What a task tells the output. -/
inductive Control (R : Type) where
  /-- To stand or to run, as the player does when the task is carried out. -/
  | apply
  | volume (value : R)
  | mute (muted : Bool)

def Control.volume? : Control R → Option R
  | .volume value => some value
  | _ => none

def Control.muted? : Control R → Option Bool
  | .mute muted => some muted
  | _ => none

/-- Volume and mute flag of a player. -/
structure Wishes (R : Type) where
  volume : R
  muted : Bool

def Wishes.on (w : Wishes R) : Control R → Wishes R
  | .apply => w
  | .volume volume => { w with volume }
  | .mute muted => { w with muted }

/-- What of a player has to do with its output. -/
structure OutputView (R : Type) where
  playing : Bool
  wishes : Wishes R
  /-- What waits to be carried out. -/
  asked : List (Control R)
  /-- The settings of the session, if there is one. -/
  controls : Option (Controls R)

variable [Scalar R]

/-- A control is carried out. -/
def AudioControls.on (a : AudioControls R) (playing : Bool) : Control R → AudioControls R
  | .apply => { a with paused := !playing }
  | .volume volume => { a with volume := Scalar.clamp volume 0.0 1.0 }
  | .mute muted => { a with muted }

def Controls.on (c : Controls R) (playing : Bool) : Control R → Controls R
  | .apply => c.setPaused (!playing)
  | control => { c with audio := c.audio.map fun a => a.on playing control }

/-- Everything stands, or runs. -/
structure Controls.Stand (c : Controls R) (paused : Bool) : Prop where
  clocks : ∀ x ∈ c.clocks, x = paused
  video : ∀ x ∈ c.video, x = paused
  audio : ∀ a ∈ c.audio, a.paused = paused

/-- What an act comes to for the output, given what it asks of it. -/
inductive OutputMove (v : OutputView R) : Option (Control R) → OutputView R → Prop where
  | same : OutputMove v none v
  | asks (c : Control R) (playing : Bool) (going : c = .apply ∨ playing = v.playing) :
      OutputMove v (some c) { v with playing, wishes := v.wishes.on c, asked := v.asked ++ [c] }
  | takes (c : Control R) (rest : List (Control R)) (first : v.asked = c :: rest) :
      OutputMove v none { v with asked := rest, controls := v.controls.map (·.on v.playing c) }
  /-- The state changes, and with it what runs. -/
  | turns (playing : Bool) :
      OutputMove v none { v with playing, controls := v.controls.map (·.setPaused !playing) }
  | opens (playing : Bool) (c : Controls R) (stand : c.Stand (!playing))
      (volume : ∀ a ∈ c.audio, a.volume = Scalar.clamp v.wishes.volume 0.0 1.0)
      (muted : ∀ a ∈ c.audio, a.muted = v.wishes.muted) :
      OutputMove v none { v with playing, controls := some c }
  | ends (asked? : Option (Control R)) (v' : OutputView R) (gone : v'.controls = none)
      (wishes : v'.wishes = asked?.elim v.wishes v.wishes.on)
      (waits : v'.asked = [] ∨ asked? = none ∧ v'.asked = v.asked) : OutputMove v asked? v'

theorem OutputMove.wishes {v v' : OutputView R} {asked? : Option (Control R)} (h : OutputMove v asked? v') :
    v'.wishes = asked?.elim v.wishes v.wishes.on := by
  cases h with
  | ends _ _ _ wishes => exact wishes
  | _ => rfl

/-! ## Coherence -/

omit [Scalar R] in
theorem Controls.setPaused_stand (c : Controls R) (paused : Bool) : (c.setPaused paused).Stand paused where
  clocks := fun x hx => by
    obtain ⟨_, -, rfl⟩ := List.mem_map.mp hx
    rfl
  video := fun x hx => by
    obtain ⟨_, -, rfl⟩ := Option.map_eq_some_iff.mp hx
    rfl
  audio := fun a ha => by
    obtain ⟨_, -, rfl⟩ := Option.map_eq_some_iff.mp ha
    rfl

/-- Only one control says what stands. -/
theorem Controls.Stand.on {c : Controls R} {paused : Bool} (h : c.Stand paused) (playing : Bool)
    {control : Control R} (other : control ≠ .apply) : (c.on playing control).Stand paused := by
  have haudio (f : AudioControls R → AudioControls R) (hf : ∀ a, (f a).paused = a.paused) :
      ({ c with audio := c.audio.map f } : Controls R).Stand paused := by
    refine ⟨h.clocks, h.video, fun a ha => ?_⟩
    obtain ⟨a, hmem, rfl⟩ := Option.map_eq_some_iff.mp ha
    rw [hf, h.audio a hmem]
  cases control with
  | apply => exact absurd rfl other
  | volume | mute => exact haudio _ fun _ => rfl

/-- A setting of the audio renderer: which controls are about it, what the renderer makes of a value, and
where it stands in the view. -/
structure Setting (R β : Type) [Scalar R] where
  pick : Control R → Option β
  adapt : β → β
  wish : Wishes R → β
  has : AudioControls R → β
  pick_apply : pick .apply = none
  wish_on : ∀ w c, wish (w.on c) = (pick c).getD (wish w)
  has_on : ∀ a playing c, has (a.on playing c) = ((pick c).map adapt).getD (has a)

namespace Setting

def volume : Setting R R where
  pick := Control.volume?
  adapt := fun x => Scalar.clamp x 0.0 1.0
  wish := (·.volume)
  has := (·.volume)
  pick_apply := rfl
  wish_on := fun _ c => by cases c <;> rfl
  has_on := fun _ _ c => by cases c <;> rfl

def muted : Setting R Bool where
  pick := Control.muted?
  adapt := id
  wish := (·.muted)
  has := (·.muted)
  pick_apply := rfl
  wish_on := fun _ c => by cases c <;> rfl
  has_on := fun _ _ c => by cases c <;> rfl

variable {β : Type} (s : Setting R β) {v v' : OutputView R}

/-- What is asked for last is what is wished for now; and if nothing is asked for, the renderer has it. -/
structure Agrees (v : OutputView R) : Prop where
  last : ∀ x, (v.asked.filterMap s.pick).getLast? = some x → x = s.wish v.wishes
  has : v.asked.filterMap s.pick = [] → ∀ c ∈ v.controls, ∀ a ∈ c.audio, s.has a = s.adapt (s.wish v.wishes)

variable {s}

theorem forall_map_on {controls : Option (Controls R)} {playing : Bool} {control : Control R} {x : β} :
    (∀ c ∈ controls.map (·.on playing control), ∀ a ∈ c.audio, s.has a = x) ↔
      ∀ c ∈ controls, ∀ a ∈ c.audio, ((s.pick control).map s.adapt).getD (s.has a) = x := by
  have haudio (c : Controls R) : (c.on playing control).audio = c.audio.map fun a => a.on playing control := by
    cases control <;> rfl
  simp [haudio, s.has_on]

theorem Agrees.asks (h : s.Agrees v) (c : Control R) (playing : Bool) :
    s.Agrees { v with playing, wishes := v.wishes.on c, asked := v.asked ++ [c] } := by
  cases hc : s.pick c with
  | none =>
    have hwish : s.wish (v.wishes.on c) = s.wish v.wishes := by rw [s.wish_on, hc]; rfl
    have hsame : (v.asked ++ [c]).filterMap s.pick = v.asked.filterMap s.pick := by simp [hc]
    refine ⟨?_, ?_⟩
    · rw [hsame, hwish]
      exact h.last
    · rw [hsame, hwish]
      exact h.has
  | some x =>
    have hwish : s.wish (v.wishes.on c) = x := by rw [s.wish_on, hc]; rfl
    have hmore : (v.asked ++ [c]).filterMap s.pick = v.asked.filterMap s.pick ++ [x] := by simp [hc]
    refine ⟨fun y hy => ?_, fun hnone => ?_⟩
    · rw [hmore, List.getLast?_concat, Option.some.injEq] at hy
      rw [← hy, hwish]
    · simp [hmore] at hnone

theorem Agrees.takes (h : s.Agrees v) {c : Control R} {rest : List (Control R)} (first : v.asked = c :: rest) :
    s.Agrees { v with asked := rest, controls := v.controls.map (·.on v.playing c) } := by
  have hlast := h.last
  have hhas := h.has
  rw [first, List.filterMap_cons] at hlast hhas
  cases hc : s.pick c with
  | none =>
    rw [hc] at hlast hhas
    refine ⟨hlast, fun hnone => forall_map_on.mpr ?_⟩
    simpa [hc] using hhas hnone
  | some x =>
    rw [hc] at hlast
    refine ⟨fun y hy => hlast y ?_, fun hnone => forall_map_on.mpr ?_⟩
    · rw [List.getLast?_cons, hy]
      rfl
    · -- the last of what was asked for is carried out
      have hx : x = s.wish v.wishes := hlast x (by rw [hnone]; rfl)
      simp [hc, hx]

/-- Every rule keeps the agreement, if a new session has what is wished for. -/
theorem Agrees.move (h : s.Agrees v) {asked? : Option (Control R)} (move : OutputMove v asked? v')
    (fresh : ∀ a : AudioControls R, a.volume = Scalar.clamp v.wishes.volume 0.0 1.0 →
      a.muted = v.wishes.muted → s.has a = s.adapt (s.wish v.wishes)) : s.Agrees v' := by
  cases move with
  | same => exact h
  | asks c playing => exact h.asks c playing
  | takes c rest first => exact h.takes first
  | turns playing =>
    -- a turn of the state does to the session what the control for it does
    have hon (hnone : v.asked.filterMap s.pick = []) : ∀ c ∈ v.controls.map (·.on playing .apply),
        ∀ a ∈ c.audio, s.has a = s.adapt (s.wish v.wishes) :=
      forall_map_on.mpr (by simpa [s.pick_apply] using h.has hnone)
    exact ⟨h.last, hon⟩
  | opens playing c _ volume muted =>
    exact ⟨h.last, fun _ c' hc' a ha => by cases hc'; exact fresh a (volume a ha) (muted a ha)⟩
  | ends asked? _ gone wishes waits =>
    refine ⟨fun x hx => ?_, fun _ c hc => by rw [gone] at hc; cases hc⟩
    rcases waits with hnone | ⟨hasked, hsame⟩
    · rw [hnone] at hx
      cases hx
    · rw [hsame] at hx
      rw [wishes, hasked]
      exact h.last x hx

end Setting

/-- What stands is what should, and volume and mute flag agree. -/
structure OutputView.Coherent (v : OutputView R) : Prop where
  stand : .apply ∉ v.asked → ∀ c ∈ v.controls, c.Stand (!v.playing)
  volume : Setting.volume.Agrees v
  muted : Setting.muted.Agrees v

namespace OutputView.Coherent

variable {v v' : OutputView R} {asked? : Option (Control R)}

theorem move_stand (h : v.Coherent) (move : OutputMove v asked? v') :
    .apply ∉ v'.asked → ∀ c ∈ v'.controls, c.Stand (!v'.playing) := by
  cases move with
  | same => exact h.stand
  | asks control playing going =>
    intro hnone
    simp only [List.mem_append, List.mem_singleton, not_or] at hnone
    obtain rfl : playing = v.playing := going.resolve_left (Ne.symm hnone.2)
    exact h.stand hnone.1
  | takes control rest first =>
    intro hnone c hc
    obtain ⟨c, hmem, rfl⟩ := Option.map_eq_some_iff.mp hc
    by_cases happly : control = .apply
    · rw [happly]
      exact c.setPaused_stand _
    · have hstand := h.stand (by simp [first, Ne.symm happly, hnone]) c hmem
      exact hstand.on v.playing happly
  | turns playing =>
    intro _ c hc
    obtain ⟨c, -, rfl⟩ := Option.map_eq_some_iff.mp hc
    exact c.setPaused_stand _
  | opens playing c stand =>
    intro _ c' hc'
    cases hc'
    exact stand
  | ends _ _ gone =>
    intro _ c hc
    rw [gone] at hc
    cases hc

theorem move (h : v.Coherent) (move : OutputMove v asked? v') : v'.Coherent :=
  ⟨h.move_stand move, h.volume.move move fun _ volume _ => volume, h.muted.move move fun _ _ muted => muted⟩

/-- With nothing left to carry out, the session is as it should be. -/
theorem settled (h : v.Coherent) (idle : v.asked = []) {c : Controls R} (hc : c ∈ v.controls) :
    c.Stand (!v.playing) ∧
      ∀ a ∈ c.audio, a.volume = Scalar.clamp v.wishes.volume 0.0 1.0 ∧ a.muted = v.wishes.muted := by
  refine ⟨h.stand (by rw [idle]; exact List.not_mem_nil) c hc, fun a ha => ⟨?_, ?_⟩⟩
  · exact h.volume.has (by rw [idle]; rfl) c hc a ha
  · exact h.muted.has (by rw [idle]; rfl) c hc a ha

end OutputView.Coherent

end Playback
