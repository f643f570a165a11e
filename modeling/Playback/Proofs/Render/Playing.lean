import Playback.Render.Audio

/-!
# What playing changes

An audio renderer that fills an output works on its data, on the position that is heard and on the correction
of the speed. Everything else is as it was before (`fill_plays`).
-/

namespace Playback.AudioRenderer

variable {R : Type}

/-- Two renderers differ in what playing works on, and in nothing else. -/
def Plays (a a' : AudioRenderer R) : Prop :=
  ∃ ring playing clockPts clockSerial diffSum diffCount compensator,
    a' = { a with ring, playing, clockPts, clockSerial, diffSum, diffCount, compensator }

theorem Plays.trans {a a' a'' : AudioRenderer R} (h : a.Plays a') (h' : a'.Plays a'') : a.Plays a'' := by
  obtain ⟨_, _, _, _, _, _, _, rfl⟩ := h
  obtain ⟨_, _, _, _, _, _, _, rfl⟩ := h'
  exact ⟨_, _, _, _, _, _, _, rfl⟩

variable [Scalar R]

theorem synchronize_plays (a : AudioRenderer R) (m : MediaClock R) (live : LiveSerials) (now : R)
    (sampleCount : Nat) (params : AudioParams) : a.Plays (a.synchronize m live now sampleCount params).2 := by
  unfold synchronize
  dsimp only
  repeat' split
  all_goals exact ⟨_, _, _, _, _, _, _, rfl⟩

theorem nextBlock_plays (a : AudioRenderer R) (m : MediaClock R) (live : LiveSerials) (now : R) :
    a.Plays (a.nextBlock m live now).2 := by
  unfold nextBlock
  split
  next => exact ⟨_, _, _, _, _, _, _, rfl⟩
  next block ring _ =>
    dsimp only
    split
    next => exact ⟨_, _, _, _, _, _, _, rfl⟩
    next =>
      have hring : a.Plays { a with ring } := ⟨_, _, _, _, _, _, _, rfl⟩
      have hsync := hring.trans (synchronize_plays { a with ring } m live now block.sampleCount block.params)
      exact hsync.trans ⟨_, _, _, _, _, _, _, rfl⟩

theorem fill_plays (a : AudioRenderer R) (m : MediaClock R) (live : LiveSerials) (now : R) (out : Bytes)
    (fuel : Nat) : a.Plays (a.fill m live now out fuel).2.2 := by
  induction fuel generalizing a out with
  | zero => exact ⟨_, _, _, _, _, _, _, rfl⟩
  | succ fuel ih =>
    unfold fill
    dsimp only
    generalize hplayed : ({ a with
      playing := a.playing.map fun p =>
        { p with rest := p.rest.drop (min a.unplayed.length out.length) } } : AudioRenderer R) = played
    have hsame : a.Plays played := by
      rw [← hplayed]
      exact ⟨_, _, _, _, _, _, _, rfl⟩
    split
    next => exact hsame
    next =>
      have hnext := hsame.trans (played.nextBlock_plays m live now)
      split
      next next heq => rw [heq] at hnext; exact hnext
      next next heq => rw [heq] at hnext; exact hnext.trans (ih _ _)

end Playback.AudioRenderer
