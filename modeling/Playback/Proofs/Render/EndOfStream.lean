import Playback.Proofs.Render.Playing
import Playback.Proofs.Render.VideoEnds

/-!
# The end of a generation is announced

`end_announced` says of both renderers when the end of the present generation, once it is delivered, is
announced. It is, when data runs out, *unless* `endReported` is still set from the generation before: only a
flush takes that back, and one that comes after the end was delivered does not. Then the end is never
announced. A video renderer that is paused moreover keeps pictures of past generations in its ring, and
waits until they are flushed.
-/

namespace Playback

variable {R : Type} [Scalar R]

/-! ## Audio -/

namespace AudioRenderer

/-- Two renderers agree about the ends. -/
def SameEnds (a a' : AudioRenderer R) : Prop :=
  a'.endSerial = a.endSerial ∧ a'.endReported = a.endReported

theorem fill_sameEnds (a : AudioRenderer R) (m : MediaClock R) (live : LiveSerials) (now : R)
    (out : Bytes) (fuel : Nat) : a.SameEnds (a.fill m live now out fuel).2.2 := by
  obtain ⟨_, _, _, _, _, _, _, heq⟩ := a.fill_plays m live now out fuel
  rw [heq]
  exact ⟨rfl, rfl⟩

/-- Whether a callback does not find as much data as is asked for. -/
def runsOut (a : AudioRenderer R) (m : MediaClock R) (live : LiveSerials) (now : R) (out : Bytes) : Bool :=
  !a.paused && !out.isEmpty
    && ({ a with requestSize := out.length }.fill m live now out (a.ring.length + 1)).2.1

theorem render_ends (a : AudioRenderer R) (m : MediaClock R) (live : LiveSerials) (now delay : R)
    (out : Bytes) :
    (a.render m live now delay out).ended
        = (a.runsOut m live now out && !a.endReported && a.endSerial = some live.audio) ∧
      (a.render m live now delay out).renderer.endSerial = a.endSerial ∧
      (a.render m live now delay out).renderer.endReported
        = (a.endReported || (a.render m live now delay out).ended) := by
  have hfill := fill_sameEnds { a with requestSize := out.length } m live now out (a.ring.length + 1)
  unfold render runsOut
  dsimp only
  generalize ({ a with requestSize := out.length } : AudioRenderer R).fill m live now out
    (a.ring.length + 1) = filled at hfill ⊢
  obtain ⟨output, missing, a'⟩ := filled
  obtain ⟨hserial, hreported⟩ := hfill
  dsimp only at hserial hreported ⊢
  by_cases hpaused : a.paused = true
  · simp [hpaused]
  · by_cases hempty : out.isEmpty = true
    · simp [hpaused, hempty]
    · simp [hpaused, hempty, hserial, hreported]

end AudioRenderer

/-- What happens to an audio renderer. -/
inductive AudioAct (R : Type) where
  /-- A new generation begins. -/
  | restart
  | deliver (result : ReadResult (AudioBlock R))
  /-- A request to the decoder is under way. -/
  | request
  | flush
  | render (clock : MediaClock R) (video : Serial) (now delay : R) (out : Bytes)
  | setPaused (paused : Bool)
  | setVolume (volume : R)
  | setMuted (muted : Bool)
  | stop

def AudioAct.event : AudioAct R → EndEvent
  | .restart => .restart
  | .deliver result => result.event
  | .flush => .flush
  | .render .. => .look
  | .request | .setPaused _ | .setVolume _ | .setMuted _ | .stop => .other

/-- An audio renderer with an account of the ends, newest first. -/
structure AudioWatch (R : Type) where
  renderer : AudioRenderer R
  live : Serial
  delivered : List Serial
  announced : List Serial

namespace AudioWatch

/-- A new renderer, before the first generation. -/
def new (config : AudioConfig R) (syncConfig : SyncConfig R) (capacity : Nat) (device : AudioDevice)
    (filter : RateFilter R) : AudioWatch R :=
  ⟨.new config syncConfig capacity device filter, 0, [], []⟩

def act (w : AudioWatch R) : AudioAct R → AudioWatch R
  | .restart => { w with live := w.live + 1 }
  | .deliver result => { w with
      renderer := (w.renderer.deliver w.live result).2
      delivered := result.end?.toList ++ w.delivered }
  | .request => { w with renderer := { w.renderer with reading := true } }
  | .flush => { w with renderer := w.renderer.flush w.live }
  | .render clock video now delay out =>
    let r := w.renderer.render clock ⟨w.live, video⟩ now delay out
    { w with
      renderer := r.renderer
      announced := if r.ended then w.live :: w.announced else w.announced }
  | .setPaused paused => { w with renderer := w.renderer.setPaused paused }
  | .setVolume volume => { w with renderer := w.renderer.setVolume volume }
  | .setMuted muted => { w with renderer := w.renderer.setMuted muted }
  | .stop => { w with renderer := w.renderer.stop }

def acts (w : AudioWatch R) (as : List (AudioAct R)) : AudioWatch R :=
  as.foldl act w

def view (w : AudioWatch R) : EndView :=
  ⟨w.live, w.renderer.endSerial, w.renderer.endReported, w.delivered, w.announced⟩

/-- A callback that runs out of data looks whether there is an end to announce. -/
theorem render_view (w : AudioWatch R) (clock : MediaClock R) (video : Serial) (now delay : R)
    (out : Bytes) :
    (w.act (.render clock video now delay out)).view
      = if w.renderer.runsOut clock ⟨w.live, video⟩ now out then w.view.look else w.view := by
  obtain ⟨hended, hserial, hreported⟩ := w.renderer.render_ends clock ⟨w.live, video⟩ now delay out
  have hview : (w.act (.render clock video now delay out)).view
      = w.view.after (w.renderer.render clock ⟨w.live, video⟩ now delay out).ended := by
    show _ = EndView.mk w.live w.renderer.endSerial (w.renderer.endReported || _) w.delivered _
    rw [← hserial, ← hreported]
    rfl
  rw [hview, hended, ← EndView.after_eq]
  rfl

theorem act_move (w : AudioWatch R) (a : AudioAct R) : EndMove w.view a.event (w.act a).view := by
  cases a with
  | restart => exact .restart
  | deliver result =>
    cases result with
    | frame block =>
      show EndMove w.view .other _
      unfold act AudioRenderer.deliver
      dsimp only
      split
      next => exact .other
      next => exact .other
    | endOfStream serial => exact .deliver serial
    | aborted => exact .other
    | error text => exact .other
  | flush =>
    show EndMove w.view .flush _
    unfold act AudioRenderer.flush
    dsimp only
    by_cases hmark : w.renderer.endSerial = some w.live
    · rw [if_pos hmark]
      split
      next => exact .keep hmark
      next => exact .keep hmark
    · rw [if_neg hmark]
      split
      next => exact .drop hmark
      next => exact .drop hmark
  | render clock video now delay out =>
    rw [w.render_view]
    split
    next => exact EndView.look_move _
    next => exact .silent
  | request | setPaused | setVolume | setMuted | stop => exact .other

theorem acts_preserves {P : EndView → Prop} {Q : EndEvent → Prop}
    (move : ∀ {v e v'}, P v → EndMove v e v' → Q e → P v') {w : AudioWatch R} (h : P w.view)
    {as : List (AudioAct R)} (hQ : ∀ a ∈ as, Q a.event) : P (w.acts as).view :=
  List.foldlRecOn (motive := fun w => P w.view) as act h fun w hP a ha => move hP (w.act_move a) (hQ a ha)

theorem acts_sound (config : AudioConfig R) (syncConfig : SyncConfig R) (capacity : Nat)
    (device : AudioDevice) (filter : RateFilter R) (as : List (AudioAct R)) :
    ((new config syncConfig capacity device filter).acts as).view.Sound :=
  acts_preserves (Q := fun _ => True) (fun h move _ => h.move move) EndView.new_sound fun _ _ => trivial

end AudioWatch

/-! ## Announced at most once, and when -/

/-- **The end of a generation is announced.** For a video renderer and for an audio renderer, in every run
from a new one, let the end of the present generation be delivered, let the generation stay and no end of
another one be delivered.

No end is announced more often than it was delivered, and none twice if ends are delivered in the order of
their generations. When nothing of the generation is left and the renderer is called back, its end has been
announced exactly if no end was reported before it was delivered; for video, pictures of past generations
must not be held back by a pause. A flush makes sure that none was reported, if it comes in the generation
before its end does. -/
theorem end_announced :
    (∀ (config : SyncConfig R) (capacity : Nat) (before later : List (VideoAct R)) (clock : MediaClock R)
      (audio : Serial) (now : R),
      let x := (VideoWatch.new config capacity).acts before
      let y := (x.act (.deliver (.endOfStream x.live))).acts later
      (∀ s, x.announced.count s ≤ x.delivered.count s) ∧
      (x.delivered.Pairwise (· ≥ ·) → x.announced.Nodup) ∧
      ((∀ a ∈ later, a.event.staysIn x.live = true) →
        (∀ frame ∈ y.renderer.ring.toList, frame.serial ≠ x.live) →
        (x.live ∈ (y.act (.refresh clock audio now)).announced ↔
          x.live ∈ x.announced ∨ (x.renderer.endReported = false ∧
            (x.live ∈ y.announced ∨ y.renderer.isHeldBack = false)))) ∧
      (x.renderer.endSerial ≠ some x.live → (∀ a ∈ later, a.event.staysBefore x.live = true) →
        ((x.act .flush).acts later).renderer.endReported = false)) ∧
    (∀ (config : AudioConfig R) (syncConfig : SyncConfig R) (capacity : Nat) (device : AudioDevice)
        (filter : RateFilter R) (before later : List (AudioAct R)) (clock : MediaClock R) (video : Serial)
        (now delay : R) (out : Bytes),
      let x := (AudioWatch.new config syncConfig capacity device filter).acts before
      let y := (x.act (.deliver (.endOfStream x.live))).acts later
      (∀ s, x.announced.count s ≤ x.delivered.count s) ∧
      (x.delivered.Pairwise (· ≥ ·) → x.announced.Nodup) ∧
      ((∀ a ∈ later, a.event.staysIn x.live = true) →
        y.renderer.runsOut clock ⟨x.live, video⟩ now out = true →
        (x.live ∈ (y.act (.render clock video now delay out)).announced ↔
          x.live ∈ x.announced ∨ x.renderer.endReported = false)) ∧
      (x.renderer.endSerial ≠ some x.live → (∀ a ∈ later, a.event.staysBefore x.live = true) →
        ((x.act .flush).acts later).renderer.endReported = false)) := by
  constructor
  · intro config capacity before later clock audio now x y
    obtain ⟨hsound, hring⟩ := VideoWatch.acts_sound config capacity before
    refine ⟨fun s => Nat.le_trans (Nat.le_add_right ..) (hsound.backed s),
      fun order => (hsound.once order).nodup, fun hstays hpast => ?_, fun hpending hstays => ?_⟩
    · have hsince : EndView.Since (x.act (.deliver (.endOfStream x.live))).view
          (x.act (.deliver (.endOfStream x.live))).view := .refl rfl
      obtain ⟨hy, hringy⟩ := VideoWatch.acts_preserves (Q := fun e => e.staysIn x.live = true)
        (fun h move hQ => h.move move hQ) (x.act_move hring _).2 hsince hstays
      have hlive : y.live = x.live := hy.live
      rw [← hlive] at hpast
      have hview := y.refresh_view clock audio now
      rw [VideoRenderer.chosen_isEmpty clock ⟨audio, y.live⟩ now hringy hpast] at hview
      show x.live ∈ (y.act (.refresh clock audio now)).view.announced ↔ _
      rw [hview]
      refine (hy.announced_iff (!y.renderer.isHeldBack)).trans ?_
      show x.live ∈ x.announced ∨ (x.renderer.endReported = false ∧
        (x.live ∈ y.announced ∨ (!y.renderer.isHeldBack) = true)) ↔ _
      rw [Bool.not_eq_true']
    · have hmove := (x.act_move hring .flush)
      have hcleared := EndView.cleared_of_flush hmove.1 hpending
      exact (VideoWatch.acts_preserves (Q := fun e => e.staysBefore x.live = true)
        (fun h move hQ => h.move move hQ) hmove.2 hcleared hstays).1.reported
  · intro config syncConfig capacity device filter before later clock video now delay out x y
    have hsound := AudioWatch.acts_sound config syncConfig capacity device filter before
    refine ⟨fun s => Nat.le_trans (Nat.le_add_right ..) (hsound.backed s),
      fun order => (hsound.once order).nodup, fun hstays hout => ?_, fun hpending hstays => ?_⟩
    · have hsince : EndView.Since (x.act (.deliver (.endOfStream x.live))).view
          (x.act (.deliver (.endOfStream x.live))).view := .refl rfl
      have hy := AudioWatch.acts_preserves (Q := fun e => e.staysIn x.live = true)
        (fun h move hQ => h.move move hQ) hsince hstays
      have hlive : y.live = x.live := hy.live
      have hview := y.render_view clock video now delay out
      rw [hlive, hout] at hview
      show x.live ∈ (y.act (.render clock video now delay out)).view.announced ↔ _
      rw [hview]
      refine (hy.announced_iff true).trans ?_
      show x.live ∈ x.announced ∨ (x.renderer.endReported = false ∧ _) ↔ _
      simp
    · have hcleared := EndView.cleared_of_flush (x.act_move .flush) hpending
      exact (AudioWatch.acts_preserves (Q := fun e => e.staysBefore x.live = true)
        (fun h move hQ => h.move move hQ) hcleared hstays).reported

/-! Runs in which the end of the first generation was announced, and that of the second one is delivered
before the flush. -/

/-- A clock for callbacks to which the time does not matter. -/
def stillClock : MediaClock Float :=
  .new .audioMaster id 0.0

def videoToSecond : List (VideoAct Float) :=
  [.restart, .deliver (.endOfStream 1), .refresh stillClock 1 0.0, .restart]

def audioToSecond : List (AudioAct Float) :=
  [.restart, .deliver (.endOfStream 1), .setPaused false, .render stillClock 1 0.0 0.0 [0], .restart]

theorem second_end_lost :
    (let x := (VideoWatch.new (.default : SyncConfig Float) 3).acts videoToSecond
      let y := (x.act (.deliver (.endOfStream x.live))).acts [.flush]
      x.live = 2 ∧ x.announced = [1] ∧ 2 ∉ (y.act (.refresh stillClock 2 0.0)).announced) ∧
    (let x := (AudioWatch.new (.default : AudioConfig Float) .default 9 .obliging .silent).acts audioToSecond
      let y := (x.act (.deliver (.endOfStream x.live))).acts [.flush]
      x.live = 2 ∧ x.announced = [1] ∧
        2 ∉ (y.act (.render stillClock 2 0.0 0.0 [0])).announced) := by
  constructor
  · intro x y
    have hlive : x.live = 2 := by decide +kernel
    have hannounced : x.announced = [1] := by decide +kernel
    have hreported : x.renderer.endReported = true := by decide +kernel
    have hring : y.renderer.ring.length = 0 := by decide +kernel
    have hempty : y.renderer.ring.toList = [] := by rw [Ring.toList, hring]; rfl
    have hiff := (end_announced.1 .default 3 videoToSecond [.flush] stillClock 2 0.0).2.2.1 (by decide)
      (by show ∀ frame ∈ y.renderer.ring.toList, _; rw [hempty]; exact List.forall_mem_nil _)
    change x.live ∈ _ ↔ x.live ∈ x.announced ∨ (x.renderer.endReported = false ∧ _) at hiff
    rw [hlive, hannounced, hreported] at hiff
    exact ⟨hlive, hannounced, fun h => by simpa using hiff.mp h⟩
  · intro x y
    have hlive : x.live = 2 := by decide +kernel
    have hannounced : x.announced = [1] := by decide +kernel
    have hreported : x.renderer.endReported = true := by decide +kernel
    have hout : y.renderer.runsOut stillClock ⟨x.live, 2⟩ 0.0 [0] = true := by decide +kernel
    have hiff := (end_announced.2 .default .default 9 .obliging .silent audioToSecond [.flush] stillClock 2 0.0 0.0
      [0]).2.2.1 (by decide) hout
    change x.live ∈ _ ↔ x.live ∈ x.announced ∨ x.renderer.endReported = false at hiff
    rw [hlive, hannounced, hreported] at hiff
    exact ⟨hlive, hannounced, fun h => by simpa using hiff.mp h⟩

end Playback
