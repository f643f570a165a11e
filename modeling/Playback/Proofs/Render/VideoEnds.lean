import Playback.Proofs.Render.Ends
import Playback.Proofs.Render.Passes
import Playback.Proofs.Ring

/-!
# Ends of generations in a video renderer

A refresh goes through the ring: `select_cases` says what becomes of the first picture. Pictures of past
generations are taken out (`select_drains`), unless a pause holds everything back. From this follows when a
refresh announces an end (`refresh_view`), and that a video renderer moves as `EndMove` says (`act_move`).
-/

namespace Playback

variable {R : Type} [Scalar R]

namespace VideoRenderer

/-- What a selection does with the first picture: it is passed over, waits, is left out or is shown. One is
left out or shown only while playing goes on, and left out only if another one follows and late pictures are
dropped. -/
inductive Selected (v : VideoRenderer R) (m : MediaClock R) (live : LiveSerials) (now wait : R)
    (fuel : Nat) (frame : VideoFrame R) : VideoRenderer R × MediaClock R × R → Prop where
  | past (other : frame.serial ≠ live.video) : Selected v m live now wait fuel frame
      (select { v with ring := v.ring.popFront.2 } m live now wait fuel)
  | waits (present : frame.serial = live.video) (timer wait' : R) : Selected v m live now wait fuel frame
      ({ v with frameTimer := timer }, m, wait')
  | late (present : frame.serial = live.video) (playing : v.paused = false)
      (followed : ∃ next, v.ring.get? 1 = some next) (drops : v.dropsLate m = true) (timer : R)
      (m' : MediaClock R) (master : m'.masterType = m.masterType) : Selected v m live now wait fuel frame
        (select { v with frameTimer := timer, ring := v.ring.popFront.2, dropped := v.dropped + 1 } m' live
          now wait fuel)
  | shown (present : frame.serial = live.video) (playing : v.paused = false) (timer : R)
      (m' : MediaClock R) : Selected v m live now wait fuel frame
        ({ v with
          frameTimer := timer, ring := v.ring.popFront.2, lastShown := some frame, forceRefresh := true },
          m', wait)

theorem select_cases {v : VideoRenderer R} {frame : VideoFrame R} (h : v.ring.front? = some frame)
    (m : MediaClock R) (live : LiveSerials) (now wait : R) (fuel : Nat) :
    Selected v m live now wait fuel frame (v.select m live now wait (fuel + 1)) := by
  obtain ⟨more, r, hpass, hselect⟩ := select_pass h m live now wait
  rw [hselect]
  cases hpass with
  | past other => exact .past other
  | held present => exact .waits present _ wait
  | early present => exact .waits present _ _
  | late present playing _ next followed drops _ =>
    exact .late present playing ⟨next, followed⟩ drops _ _ (v.updateClock_masterType m live now frame)
  | shown present playing => exact .shown present playing _ _

/-- A selection leaves the ends as they were. -/
theorem select_ends (fuel : Nat) (v : VideoRenderer R) (m : MediaClock R) (live : LiveSerials) (now wait : R) :
    (v.select m live now wait fuel).1.endSerial = v.endSerial ∧
      (v.select m live now wait fuel).1.endReported = v.endReported := by
  induction fuel generalizing v m with
  | zero => exact ⟨rfl, rfl⟩
  | succ fuel ih =>
    cases hfront : v.ring.front? with
    | none =>
      rw [select, hfront]
      exact ⟨rfl, rfl⟩
    | some frame =>
      have hcases := select_cases hfront m live now wait fuel
      generalize v.select m live now wait (fuel + 1) = result at hcases
      cases hcases with
      | past => exact ih _ m
      | waits => exact ⟨rfl, rfl⟩
      | late _ _ _ _ timer m' => exact ih _ m'
      | shown => exact ⟨rfl, rfl⟩

/-- A selection leaves a ring that holds something. -/
theorem select_intact (fuel : Nat) (v : VideoRenderer R) (m : MediaClock R) (live : LiveSerials)
    (now wait : R) (h : v.ring.Intact) : (v.select m live now wait fuel).1.ring.Intact := by
  induction fuel generalizing v m with
  | zero => exact h
  | succ fuel ih =>
    have hpop : v.ring.popFront.2.Intact := h.popFront
    cases hfront : v.ring.front? with
    | none =>
      rw [select, hfront]
      exact h
    | some frame =>
      have hcases := select_cases hfront m live now wait fuel
      generalize v.select m live now wait (fuel + 1) = result at hcases
      cases hcases with
      | past => exact ih _ m hpop
      | waits => exact h
      | late _ _ _ _ timer m' => exact ih _ m' hpop
      | shown => exact hpop

/-- Pictures of other generations are taken out of the ring by a selection. -/
theorem select_drains (fuel : Nat) (v : VideoRenderer R) (m : MediaClock R) (live : LiveSerials)
    (now wait : R) {l : List (VideoFrame R)} (h : v.ring.Holds l) (hfuel : l.length ≤ fuel)
    (past : ∀ frame ∈ l, frame.serial ≠ live.video) :
    (v.select m live now wait fuel).1.ring.Holds [] := by
  induction l generalizing fuel v with
  | nil =>
    have hnone : v.ring.front? = none := h.front?
    cases fuel with
    | zero => exact h
    | succ fuel =>
      rw [select, hnone]
      exact h
  | cons frame l ih =>
    have hsome : v.ring.front? = some frame := h.front?
    cases fuel with
    | zero => cases hfuel
    | succ fuel =>
      rw [select, hsome]
      dsimp only
      rw [if_pos (past frame (List.mem_cons_self ..))]
      exact ih fuel _ h.popFront_cons.2 (Nat.le_of_succ_le_succ hfuel)
        fun f hf => past f (List.mem_cons_of_mem _ hf)

/-- Whether a pause keeps pictures in the ring. -/
def isHeldBack (v : VideoRenderer R) : Bool :=
  v.paused && !v.forceRefresh && !v.ring.isEmpty

/-- The renderer after its choice in a refresh. -/
def chosen (v : VideoRenderer R) (m : MediaClock R) (live : LiveSerials) (now : R) : VideoRenderer R :=
  if v.paused && !v.forceRefresh then v
  else (v.select m live now v.config.refreshRate v.ring.length).1

theorem chosen_eq (v : VideoRenderer R) (m : MediaClock R) (live : LiveSerials) (now : R) :
    v.chosen m live now = (v.selection m live now).1 := by
  unfold chosen selection
  split <;> rfl

theorem chosen_ends (v : VideoRenderer R) (m : MediaClock R) (live : LiveSerials) (now : R) :
    (v.chosen m live now).endSerial = v.endSerial ∧ (v.chosen m live now).endReported = v.endReported := by
  unfold chosen
  split
  next => exact ⟨rfl, rfl⟩
  next => exact select_ends _ v m live now _

theorem chosen_intact {v : VideoRenderer R} (m : MediaClock R) (live : LiveSerials) (now : R)
    (h : v.ring.Intact) : (v.chosen m live now).ring.Intact := by
  unfold chosen
  split
  next => exact h
  next => exact select_intact _ v m live now _ h

/-- If only pictures of other generations are left, the choice leaves some of them exactly if they are held
back. -/
theorem chosen_isEmpty {v : VideoRenderer R} (m : MediaClock R) (live : LiveSerials) (now : R)
    (h : v.ring.Intact) (past : ∀ frame ∈ v.ring.toList, frame.serial ≠ live.video) :
    (v.chosen m live now).ring.isEmpty = !v.isHeldBack := by
  obtain ⟨l, hl⟩ := h
  rw [hl.toList] at past
  unfold chosen isHeldBack
  cases hpaused : v.paused && !v.forceRefresh with
  | true => simp
  | false =>
    rw [if_neg (by simp)]
    have hfuel : l.length ≤ v.ring.length := Nat.le_of_eq hl.length.symm
    have hdrained := select_drains v.ring.length v m live now v.config.refreshRate hl hfuel past
    rw [hdrained.isEmpty]
    rfl

omit [Scalar R] in
theorem display_keeps (v : VideoRenderer R) :
    v.display.2.endSerial = v.endSerial ∧ v.display.2.endReported = v.endReported ∧
      v.display.2.ring = v.ring ∧ v.display.2.dropped = v.dropped ∧ v.display.2.lastShown = v.lastShown ∧
      v.display.2.config = v.config := by
  unfold display
  split <;> exact ⟨rfl, rfl, rfl, rfl, rfl, rfl⟩

/-- After its choice a refresh displays, and looks whether there is an end to announce. -/
theorem refresh_displays (v : VideoRenderer R) (m : MediaClock R) (live : LiveSerials) (now : R) :
    let shown := (v.chosen m live now).display.2
    (v.refresh m live now).ended
        = (!shown.endReported && shown.endSerial = some live.video && shown.ring.isEmpty) ∧
      (v.refresh m live now).renderer
        = { shown with endReported := shown.endReported || (v.refresh m live now).ended } := by
  unfold refresh chosen
  cases v.paused && !v.forceRefresh <;> exact ⟨rfl, rfl⟩

theorem refresh_ends (v : VideoRenderer R) (m : MediaClock R) (live : LiveSerials) (now : R) :
    (v.refresh m live now).ended
        = (!v.endReported && v.endSerial = some live.video && (v.chosen m live now).ring.isEmpty) ∧
      (v.refresh m live now).renderer.endSerial = v.endSerial ∧
      (v.refresh m live now).renderer.endReported = (v.endReported || (v.refresh m live now).ended) ∧
      (v.refresh m live now).renderer.ring = (v.chosen m live now).ring := by
  obtain ⟨hended, hrenderer⟩ := v.refresh_displays m live now
  obtain ⟨hserial, hreported⟩ := v.chosen_ends m live now
  obtain ⟨hserial', hreported', hring', -⟩ := (v.chosen m live now).display_keeps
  rw [hserial', hreported', hring', hserial, hreported] at hended
  refine ⟨hended, ?_, ?_, ?_⟩
  · rw [hrenderer]
    exact hserial'.trans hserial
  · rw [hrenderer]
    exact congrArg (· || _) (hreported'.trans hreported)
  · rw [hrenderer]
    exact hring'

omit [Scalar R] in
/-- A flush drops pictures by their serials alone. -/
theorem flush_keeps (v : VideoRenderer R) (serial : Serial) :
    (v.flush serial).ring = v.ring.retain (·.serial = serial) ∧ (v.flush serial).dropped = v.dropped ∧
      (v.flush serial).lastShown = v.lastShown ∧ (v.flush serial).config = v.config := by
  unfold flush
  dsimp only
  split <;> exact ⟨rfl, rfl, rfl, rfl⟩

end VideoRenderer

/-- What happens to a video renderer. -/
inductive VideoAct (R : Type) where
  /-- A new generation begins. -/
  | restart
  | deliver (result : ReadResult (VideoFrame R))
  /-- A request to the decoder is under way. -/
  | request
  | flush
  | refresh (clock : MediaClock R) (audio : Serial) (now : R)
  | setPaused (clock : MediaClock R) (paused : Bool) (now : R)
  | stop

def VideoAct.event : VideoAct R → EndEvent
  | .restart => .restart
  | .deliver result => result.event
  | .flush => .flush
  | .refresh .. => .look
  | .request | .setPaused .. | .stop => .other

/-- A video renderer with an account of the ends, newest first. -/
structure VideoWatch (R : Type) where
  renderer : VideoRenderer R
  live : Serial
  delivered : List Serial
  announced : List Serial

namespace VideoWatch

/-- A new renderer, before the first generation. -/
def new (config : SyncConfig R) (capacity : Nat) : VideoWatch R :=
  ⟨.new config capacity, 0, [], []⟩

def act (w : VideoWatch R) : VideoAct R → VideoWatch R
  | .restart => { w with live := w.live + 1 }
  | .deliver result => { w with
      renderer := (w.renderer.deliver w.live result).2
      delivered := result.end?.toList ++ w.delivered }
  | .request => { w with renderer := { w.renderer with reading := true } }
  | .flush => { w with renderer := w.renderer.flush w.live }
  | .refresh clock audio now =>
    let r := w.renderer.refresh clock ⟨audio, w.live⟩ now
    { w with
      renderer := r.renderer
      announced := if r.ended then w.live :: w.announced else w.announced }
  | .setPaused clock paused now => { w with renderer := w.renderer.setPaused clock paused now }
  | .stop => { w with renderer := w.renderer.stop }

def acts (w : VideoWatch R) (as : List (VideoAct R)) : VideoWatch R :=
  as.foldl act w

def view (w : VideoWatch R) : EndView :=
  ⟨w.live, w.renderer.endSerial, w.renderer.endReported, w.delivered, w.announced⟩

/-- A refresh looks whether there is an end to announce, unless pictures are left. -/
theorem refresh_view (w : VideoWatch R) (clock : MediaClock R) (audio : Serial) (now : R) :
    (w.act (.refresh clock audio now)).view
      = if (w.renderer.chosen clock ⟨audio, w.live⟩ now).ring.isEmpty then w.view.look else w.view := by
  obtain ⟨hended, hserial, hreported, -⟩ := w.renderer.refresh_ends clock ⟨audio, w.live⟩ now
  have hview : (w.act (.refresh clock audio now)).view
      = w.view.after (w.renderer.refresh clock ⟨audio, w.live⟩ now).ended := by
    show _ = EndView.mk w.live w.renderer.endSerial (w.renderer.endReported || _) w.delivered _
    rw [← hserial, ← hreported]
    rfl
  rw [hview, hended, ← EndView.after_eq]
  congr 1
  exact (Bool.and_comm _ _).trans (Bool.and_assoc _ _ _).symm

theorem act_move (w : VideoWatch R) (h : w.renderer.ring.Intact) (a : VideoAct R) :
    EndMove w.view a.event (w.act a).view ∧ (w.act a).renderer.ring.Intact := by
  cases a with
  | restart => exact ⟨.restart, h⟩
  | deliver result =>
    cases result with
    | frame frame =>
      show EndMove w.view .other _ ∧ _
      unfold act VideoRenderer.deliver
      dsimp only
      split
      next => exact ⟨.other, h.pushBack frame⟩
      next => exact ⟨.other, h⟩
    | endOfStream serial => exact ⟨.deliver serial, h⟩
    | aborted => exact ⟨.other, h⟩
    | error text => exact ⟨.other, h⟩
  | request => exact ⟨.other, h⟩
  | flush =>
    have hkept := h.retain (·.serial = w.live)
    show EndMove w.view .flush _ ∧ _
    unfold act VideoRenderer.flush
    dsimp only
    by_cases hmark : w.renderer.endSerial = some w.live
    · rw [if_pos hmark]
      exact ⟨.keep hmark, hkept⟩
    · rw [if_neg hmark]
      exact ⟨.drop hmark, hkept⟩
  | refresh clock audio now =>
    constructor
    · rw [w.refresh_view]
      split
      next => exact EndView.look_move _
      next => exact .silent
    · show (w.renderer.refresh clock ⟨audio, w.live⟩ now).renderer.ring.Intact
      rw [(w.renderer.refresh_ends clock ⟨audio, w.live⟩ now).2.2.2]
      exact VideoRenderer.chosen_intact clock ⟨audio, w.live⟩ now h
  | setPaused clock paused now =>
    show EndMove w.view .other _ ∧ _
    unfold act VideoRenderer.setPaused
    dsimp only
    split
    next => exact ⟨.other, h⟩
    next =>
      split
      next => exact ⟨.other, h⟩
      next => exact ⟨.other, h⟩
  | stop => exact ⟨.other, [], w.renderer.ring.clear_holds⟩

/-- What every move preserves, a run preserves. -/
theorem acts_preserves {P : EndView → Prop} {Q : EndEvent → Prop}
    (move : ∀ {v e v'}, P v → EndMove v e v' → Q e → P v') {w : VideoWatch R}
    (hring : w.renderer.ring.Intact) (h : P w.view) {as : List (VideoAct R)} (hQ : ∀ a ∈ as, Q a.event) :
    P (w.acts as).view ∧ (w.acts as).renderer.ring.Intact := by
  refine List.foldlRecOn (motive := fun w => P w.view ∧ w.renderer.ring.Intact) as act ⟨h, hring⟩ ?_
  rintro w ⟨hP, hring⟩ a ha
  obtain ⟨hmove, hring'⟩ := w.act_move hring a
  exact ⟨move hP hmove (hQ a ha), hring'⟩

theorem acts_sound (config : SyncConfig R) (capacity : Nat) (as : List (VideoAct R)) :
    ((new config capacity).acts as).view.Sound ∧ ((new config capacity).acts as).renderer.ring.Intact :=
  acts_preserves (Q := fun _ => True) (fun h move _ => h.move move) ⟨[], Ring.new_holds capacity⟩
    EndView.new_sound fun _ _ => trivial

end VideoWatch

end Playback
