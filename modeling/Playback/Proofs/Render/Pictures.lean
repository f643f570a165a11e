import Playback.Proofs.Render.VideoEnds

/-!
# What becomes of pictures

A picture that enters the ring of a video renderer leaves it in its turn: it is shown, is left out because it
is late, is passed over because its generation is past, or is cleared away. `PictureBook` keeps an account by
observation alone: an act takes out as many pictures as the ring has fewer afterwards, and of those that a
refresh takes out, and that are not past, as many were late as the counter of late pictures has grown by.

`Takes` says what a refresh may take out of a list of pictures, one constructor for each way to go on
(`select_takes`). `passes` gathers what any act does, and `acts_balanced` carries it along a run. A late picture
has another one of its generation behind it because generations enter the ring in their order (`Ordered`).
-/

namespace Playback

variable {R : Type}

/-- How a picture leaves the ring. -/
inductive Fate where
  | shown
  | late
  | past
  | cleared
deriving Repr, DecidableEq

/-- What happens to a video renderer, the start and demands to show the last picture again included. -/
inductive PictureAct (R : Type) where
  | act (a : VideoAct R)
  | start
  | redraw

/-- Whether this is a refresh with a clock. -/
def PictureAct.RefreshesBy (clock : MediaClock R) (a : PictureAct R) : Prop :=
  ∃ audio now, a = .act (.refresh clock audio now)

/-- What became of pictures that a refresh took out, if so many of them were late: the first ones of the
present generation. -/
def fates (live : Serial) : Nat → List (VideoFrame R) → List (VideoFrame R × Fate)
  | _, [] => []
  | late, frame :: frames =>
    if frame.serial ≠ live then (frame, .past) :: fates live late frames
    else
      match late with
      | 0 => (frame, .shown) :: fates live 0 frames
      | late + 1 => (frame, .late) :: fates live late frames

namespace VideoWatch

variable [Scalar R]

def after (w : VideoWatch R) : PictureAct R → VideoWatch R
  | .act a => w.act a
  | .start => { w with
      renderer := { w.renderer with running := true, calls := .start :: w.renderer.calls } }
  | .redraw => { w with renderer := { w.renderer with forceRefresh := true } }

/-- The pictures in the ring. -/
def pictures (w : VideoWatch R) : List (VideoFrame R) :=
  w.renderer.ring.toList

/-- The pictures that an act puts into the ring. -/
def entering (w : VideoWatch R) (a : PictureAct R) : List (VideoFrame R) :=
  (w.after a).pictures.drop w.pictures.length

/-- The pictures that an act takes out of the ring, and what became of them. -/
def leaving (w : VideoWatch R) (a : PictureAct R) : List (VideoFrame R × Fate) :=
  let out := w.pictures.take (w.pictures.length - (w.after a).pictures.length)
  match a with
  | .act (.refresh ..) => fates w.live ((w.after a).renderer.dropped - w.renderer.dropped) out
  | _ => out.map (·, .cleared)

end VideoWatch

/-- A video renderer with an account of its pictures, oldest first. -/
structure PictureBook (R : Type) where
  watch : VideoWatch R
  entered : List (VideoFrame R)
  left : List (VideoFrame R × Fate)

namespace PictureBook

variable [Scalar R]

/-- A new renderer, before the first generation. -/
def new (config : SyncConfig R) (capacity : Nat) : PictureBook R :=
  ⟨.new config capacity, [], []⟩

def act (b : PictureBook R) (a : PictureAct R) : PictureBook R :=
  ⟨b.watch.after a, b.entered ++ b.watch.entering a, b.left ++ b.watch.leaving a⟩

def acts (b : PictureBook R) (as : List (PictureAct R)) : PictureBook R :=
  as.foldl act b

end PictureBook

/-! ## What a refresh takes out -/

/-- Pictures that leave a list, and those that stay: what is past or late is passed over, up to a picture that
is shown or left. -/
inductive Takes (live : Serial) (paused drops : Bool) :
    List (VideoFrame R) → List (VideoFrame R × Fate) → List (VideoFrame R) → Prop where
  | stay (l : List (VideoFrame R)) : Takes live paused drops l [] l
  | shown {frame : VideoFrame R} (l : List (VideoFrame R)) (present : frame.serial = live)
      (playing : paused = false) : Takes live paused drops (frame :: l) [(frame, .shown)] l
  | past {frame : VideoFrame R} {l rest : List (VideoFrame R)} {gone : List (VideoFrame R × Fate)}
      (other : frame.serial ≠ live) (more : Takes live paused drops l gone rest) :
      Takes live paused drops (frame :: l) ((frame, .past) :: gone) rest
  | late {frame next : VideoFrame R} {l rest : List (VideoFrame R)} {gone : List (VideoFrame R × Fate)}
      (present : frame.serial = live) (playing : paused = false) (may : drops = true)
      (more : Takes live paused drops (next :: l) gone rest) :
      Takes live paused drops (frame :: next :: l) ((frame, .late) :: gone) rest

/-- The picture that was shown. -/
def shownOf (gone : List (VideoFrame R × Fate)) : Option (VideoFrame R) :=
  (gone.find? (·.2 = .shown)).map (·.1)

theorem shownOf_cons {fate : Fate} (other : fate ≠ .shown) (frame : VideoFrame R)
    (gone : List (VideoFrame R × Fate)) : shownOf ((frame, fate) :: gone) = shownOf gone := by
  simp [shownOf, other]

/-- What a fate takes in a refresh that showed `shown`. -/
def Fate.Fits (live : Serial) (paused drops : Bool) (shown : Option (VideoFrame R)) (frame : VideoFrame R) :
    Fate → Prop
  | .shown => frame.serial = live ∧ paused = false ∧ shown = some frame
  | .late => frame.serial = live ∧ paused = false ∧ drops = true
  | .past => frame.serial ≠ live
  | .cleared => False

/-- The number of late pictures. -/
def lateOf (gone : List (VideoFrame R × Fate)) : Nat :=
  gone.countP (·.2 = .late)

theorem lateOf_cons (frame : VideoFrame R) (fate : Fate) (gone : List (VideoFrame R × Fate)) :
    lateOf ((frame, fate) :: gone) = lateOf gone + if fate = .late then 1 else 0 := by
  simp [lateOf, List.countP_cons]

namespace Takes

variable {live : Serial} {paused drops : Bool} {l rest : List (VideoFrame R)}
  {gone : List (VideoFrame R × Fate)}

theorem split (h : Takes live paused drops l gone rest) : l = gone.map Prod.fst ++ rest := by
  induction h with
  | stay | shown => rfl
  | past _ _ ih | late _ _ _ _ ih => exact congrArg (_ :: ·) ih

/-- The fates can be told from the number of late pictures. -/
theorem fates_eq (h : Takes live paused drops l gone rest) :
    fates live (lateOf gone) (gone.map Prod.fst) = gone := by
  induction h with
  | stay => rfl
  | shown _ present _ => simp [fates, lateOf, present]
  | past other _ ih => simpa [fates, lateOf_cons, other] using ih
  | late present _ _ _ ih => simpa [fates, lateOf_cons, present] using ih

theorem fits (h : Takes live paused drops l gone rest) {frame : VideoFrame R} {fate : Fate}
    (mem : (frame, fate) ∈ gone) : fate.Fits live paused drops (shownOf gone) frame := by
  induction h with
  | stay => cases mem
  | shown l present playing =>
    obtain ⟨rfl, rfl⟩ := Prod.mk.inj (List.mem_singleton.mp mem)
    exact ⟨present, playing, rfl⟩
  | past other _ ih =>
    rcases List.mem_cons.mp mem with heq | hmem
    · obtain ⟨rfl, rfl⟩ := Prod.mk.inj heq
      exact other
    · rw [shownOf_cons (by decide)]
      exact ih hmem
  | late present playing may _ ih =>
    rcases List.mem_cons.mp mem with heq | hmem
    · obtain ⟨rfl, rfl⟩ := Prod.mk.inj heq
      exact ⟨present, playing, may⟩
    · rw [shownOf_cons (by decide)]
      exact ih hmem

/-- Nothing is taken out behind a picture that is shown. -/
theorem shown_last (h : Takes live paused drops l gone rest) {frame : VideoFrame R}
    {behind : List (VideoFrame R × Fate)} (hmem : (frame, .shown) :: behind <:+ gone) : behind = [] := by
  induction h with
  | stay => exact absurd (List.suffix_nil.mp hmem) (List.cons_ne_nil _ _)
  | shown =>
    rcases List.suffix_cons_iff.mp hmem with heq | hsuffix
    · exact (List.cons.inj heq).2
    · exact absurd (List.suffix_nil.mp hsuffix) (List.cons_ne_nil _ _)
  | past _ _ ih | late _ _ _ _ ih =>
    rcases List.suffix_cons_iff.mp hmem with heq | hsuffix
    · cases heq
    · exact ih hsuffix

/-- Behind a late picture there is another one of its generation, if the generations come in their order. -/
theorem followed (h : Takes live paused drops l gone rest) (sorted : l.Pairwise (·.serial ≤ ·.serial))
    (bound : ∀ frame ∈ l, frame.serial ≤ live) {frame : VideoFrame R} {behind : List (VideoFrame R × Fate)}
    (hmem : (frame, .late) :: behind <:+ gone) :
    ∃ next ∈ behind.map Prod.fst ++ rest, next.serial = frame.serial := by
  induction h with
  | stay => exact absurd (List.suffix_nil.mp hmem) (List.cons_ne_nil _ _)
  | shown =>
    rcases List.suffix_cons_iff.mp hmem with heq | hsuffix
    · cases heq
    · exact absurd (List.suffix_nil.mp hsuffix) (List.cons_ne_nil _ _)
  | past _ _ ih =>
    rcases List.suffix_cons_iff.mp hmem with heq | hsuffix
    · cases heq
    · exact ih sorted.of_cons (fun f hf => bound f (List.mem_cons_of_mem _ hf)) hsuffix
  | @late first next l rest gone present _ _ more ih =>
    rcases List.suffix_cons_iff.mp hmem with heq | hsuffix
    · obtain ⟨hframe, rfl⟩ := List.cons.inj heq
      obtain ⟨rfl, -⟩ := Prod.mk.inj hframe
      have hnext : next.serial ≤ live := bound next (by simp)
      have hle : frame.serial ≤ next.serial := (List.pairwise_cons.mp sorted).1 next (by simp)
      refine ⟨next, more.split ▸ List.mem_cons_self .., ?_⟩
      exact Nat.le_antisymm (present ▸ hnext) hle
    · exact ih sorted.of_cons (fun f hf => bound f (List.mem_cons_of_mem _ hf)) hsuffix

end Takes

/-! ## Refreshes -/

namespace VideoRenderer

variable [Scalar R]

/-- What a selection changes, if it takes out `gone` and leaves `rest`. -/
structure Chose (v v' : VideoRenderer R) (gone : List (VideoFrame R × Fate)) (rest : List (VideoFrame R)) :
    Prop where
  ring : v'.ring.Holds rest
  dropped : v'.dropped = v.dropped + lateOf gone
  lastShown : v'.lastShown = (shownOf gone).or v.lastShown
  forceRefresh : (shownOf gone).isSome → v'.forceRefresh = true
  output : v'.calls = v.calls ∧ v'.rendered = v.rendered
  config : v'.config = v.config

omit [Scalar R] in
theorem Chose.nothing {v : VideoRenderer R} {l : List (VideoFrame R)} (h : v.ring.Holds l) : v.Chose v [] l :=
  ⟨h, rfl, rfl, nofun, ⟨rfl, rfl⟩, rfl⟩

omit [Scalar R] in
/-- A picture is taken out that is not shown, and the selection goes on. -/
theorem Chose.cons {v v' : VideoRenderer R} {timer : R} {ring : Ring (VideoFrame R)} {fate : Fate}
    {gone : List (VideoFrame R × Fate)} {rest : List (VideoFrame R)} (other : fate ≠ .shown)
    (frame : VideoFrame R)
    (h : { v with
      frameTimer := timer, ring, dropped := v.dropped + if fate = Fate.late then 1 else 0 }.Chose v' gone rest) :
    v.Chose v' ((frame, fate) :: gone) rest := by
  have hshown : shownOf ((frame, fate) :: gone) = shownOf gone := shownOf_cons other frame gone
  refine ⟨h.ring, ?_, ?_, ?_, h.output, h.config⟩
  · rw [lateOf_cons, h.dropped, Nat.add_assoc, Nat.add_comm (lateOf gone)]
  · rw [hshown]
    exact h.lastShown
  · rw [hshown]
    exact h.forceRefresh

theorem select_takes (fuel : Nat) (v : VideoRenderer R) (m : MediaClock R) (live : LiveSerials)
    (now wait : R) {l : List (VideoFrame R)} (h : v.ring.Holds l) :
    ∃ gone rest, Takes live.video v.paused (v.dropsLate m) l gone rest ∧
      v.Chose (v.select m live now wait fuel).1 gone rest := by
  induction fuel generalizing v m l with
  | zero => exact ⟨[], l, .stay l, .nothing h⟩
  | succ fuel ih =>
    cases l with
    | nil =>
      have hnone : v.ring.front? = none := h.front?
      rw [select, hnone]
      exact ⟨[], [], .stay [], .nothing h⟩
    | cons frame l =>
      have hfront : v.ring.front? = some frame := h.front?
      have hpop := h.popFront_cons.2
      have hcases := select_cases hfront m live now wait fuel
      generalize v.select m live now wait (fuel + 1) = result at hcases
      cases hcases with
      | past other =>
        obtain ⟨gone, rest, htakes, hchose⟩ := ih { v with ring := v.ring.popFront.2 } m hpop
        exact ⟨(frame, .past) :: gone, rest, .past other htakes, hchose.cons (by decide) frame⟩
      | waits => exact ⟨[], frame :: l, .stay _, h, rfl, rfl, (absurd · Bool.false_ne_true), ⟨rfl, rfl⟩, rfl⟩
      | late present playing followed drops timer m' master =>
        -- the picture behind a late one is the next to be looked at
        obtain ⟨next, hnext⟩ := followed
        rw [h.get?] at hnext
        cases l with
        | nil => cases hnext
        | cons next l =>
          obtain ⟨gone, rest, htakes, hchose⟩ := ih
            { v with frameTimer := timer, ring := v.ring.popFront.2, dropped := v.dropped + 1 } m' hpop
          have hmore : Takes live.video v.paused (v.dropsLate m) (next :: l) gone rest :=
            v.dropsLate_congr master ▸ htakes
          exact ⟨(frame, .late) :: gone, rest, .late present playing drops hmore,
            hchose.cons (by decide) frame⟩
      | shown present playing timer m' =>
        exact ⟨[(frame, .shown)], l, .shown l present playing, hpop, rfl, rfl, fun _ => rfl, ⟨rfl, rfl⟩, rfl⟩

theorem chosen_takes (v : VideoRenderer R) (m : MediaClock R) (live : LiveSerials) (now : R)
    {l : List (VideoFrame R)} (h : v.ring.Holds l) :
    ∃ gone rest, Takes live.video v.paused (v.dropsLate m) l gone rest ∧
      v.Chose (v.chosen m live now) gone rest := by
  unfold chosen
  split
  next => exact ⟨[], l, .stay l, .nothing h⟩
  next => exact select_takes _ v m live now _ h

omit [Scalar R] in
theorem display_shows {v : VideoRenderer R} {frame : VideoFrame R} (asked : v.forceRefresh = true)
    (last : v.lastShown = some frame) :
    v.display.2.calls = .show frame :: v.calls ∧ v.display.2.rendered = v.rendered + 1 := by
  unfold display
  rw [asked, last]
  exact ⟨rfl, rfl⟩

theorem setPaused_keeps (v : VideoRenderer R) (m : MediaClock R) (paused : Bool) (now : R) :
    (v.setPaused m paused now).ring = v.ring ∧ (v.setPaused m paused now).dropped = v.dropped ∧
      (v.setPaused m paused now).lastShown = v.lastShown ∧ (v.setPaused m paused now).config = v.config := by
  unfold setPaused
  split
  next => exact ⟨rfl, rfl, rfl, rfl⟩
  next => split <;> exact ⟨rfl, rfl, rfl, rfl⟩

/-- What a refresh changes, if it takes out `gone` and leaves `rest`. -/
structure Refreshes (v v' : VideoRenderer R) (gone : List (VideoFrame R × Fate)) (rest : List (VideoFrame R)) :
    Prop where
  ring : v'.ring.Holds rest
  dropped : v'.dropped = v.dropped + lateOf gone
  lastShown : v'.lastShown = (shownOf gone).or v.lastShown
  shows : ∀ frame, shownOf gone = some frame →
    v'.calls = .show frame :: v.calls ∧ v'.rendered = v.rendered + 1
  config : v'.config = v.config

theorem refresh_takes (v : VideoRenderer R) (m : MediaClock R) (live : LiveSerials) (now : R)
    {l : List (VideoFrame R)} (h : v.ring.Holds l) :
    ∃ gone rest, Takes live.video v.paused (v.dropsLate m) l gone rest ∧
      v.Refreshes (v.refresh m live now).renderer gone rest := by
  obtain ⟨gone, rest, htakes, hchose⟩ := chosen_takes v m live now h
  obtain ⟨-, hrenderer⟩ := v.refresh_displays m live now
  obtain ⟨-, -, hring, hdropped, hlast, hconfig⟩ := (v.chosen m live now).display_keeps
  refine ⟨gone, rest, htakes, ?_, ?_, ?_, fun frame hshown => ?_, ?_⟩
  · rw [hrenderer]
    exact hring ▸ hchose.ring
  · rw [hrenderer]
    exact hdropped.trans hchose.dropped
  · rw [hrenderer]
    exact hlast.trans hchose.lastShown
  · rw [hrenderer]
    have hnow : (v.chosen m live now).lastShown = some frame := by
      rw [hchose.lastShown, hshown]
      rfl
    obtain ⟨hcalls, hrendered⟩ := display_shows (hchose.forceRefresh (by rw [hshown]; rfl)) hnow
    exact ⟨hchose.output.1 ▸ hcalls, hchose.output.2 ▸ hrendered⟩
  · rw [hrenderer]
    exact hconfig.trans hchose.config

end VideoRenderer

/-! ## Acts -/

/-- What has to hold for a picture to leave the ring by a fate in an act. -/
def Fate.Due [Scalar R] (w : VideoWatch R) (a : PictureAct R) (frame : VideoFrame R) : Fate → Prop
  | .shown =>
    (∃ clock, a.RefreshesBy clock) ∧ frame.serial = w.live ∧ w.renderer.paused = false ∧
      (w.after a).renderer.lastShown = some frame ∧
      (w.after a).renderer.calls = .show frame :: w.renderer.calls ∧
      (w.after a).renderer.rendered = w.renderer.rendered + 1
  | .late =>
    ∃ clock, a.RefreshesBy clock ∧ frame.serial = w.live ∧ w.renderer.paused = false ∧
      w.renderer.config.frameDrop ≠ .never ∧
      (w.renderer.config.frameDrop = .auto → clock.masterType ≠ .videoMaster)
  | .past => (∃ clock, a.RefreshesBy clock) ∧ frame.serial ≠ w.live
  | .cleared => (a = .act .flush ∧ frame.serial ≠ w.live) ∨ a = .act .stop

namespace VideoWatch

variable [Scalar R]

/-- The pictures in the ring are of no later generation than the present one, and in the order of their
generations. -/
structure Ordered (w : VideoWatch R) (l : List (VideoFrame R)) : Prop where
  holds : w.renderer.ring.Holds l
  sorted : l.Pairwise (·.serial ≤ ·.serial)
  bound : ∀ frame ∈ l, frame.serial ≤ w.live

/-- What an act does to the pictures. What enters stands behind what was there, and what leaves is taken off the
front; the last picture on show changes only by one that is shown. -/
structure Passes (w : VideoWatch R) (a : PictureAct R) : Prop where
  balance : w.pictures ++ w.entering a = (w.leaving a).map Prod.fst ++ (w.after a).pictures
  entering : w.entering a = [] ∨
    ∃ frame, a = .act (.deliver (.frame frame)) ∧ frame.serial = w.live ∧ w.entering a = [frame]
  dropped : (w.after a).renderer.dropped = w.renderer.dropped + lateOf (w.leaving a)
  due : ∀ frame fate, (frame, fate) ∈ w.leaving a → fate.Due w a frame
  /-- A picture that is shown is the last one to leave. -/
  final : ∀ frame behind, (frame, .shown) :: behind <:+ w.leaving a → behind = []
  followed : ∀ frame behind, (frame, .late) :: behind <:+ w.leaving a →
    ∃ next ∈ behind.map Prod.fst ++ (w.after a).pictures, next.serial = frame.serial
  lastShown : (w.after a).renderer.lastShown = (shownOf (w.leaving a)).or w.renderer.lastShown
  config : (w.after a).renderer.config = w.renderer.config

omit [Scalar R] in
/-- What leaves the front of the ring is seen to be gone, and nothing to be new. -/
theorem Ordered.shrunk {w w' : VideoWatch R} {out rest : List (VideoFrame R)} (h : w.Ordered (out ++ rest))
    (h' : w'.Ordered rest) :
    w.pictures.take (w.pictures.length - w'.pictures.length) = out ∧ w'.pictures.drop w.pictures.length = [] := by
  rw [pictures, pictures, h.holds.toList, h'.holds.toList, List.length_append, Nat.add_sub_cancel]
  exact ⟨List.take_left .., List.drop_eq_nil_of_le (Nat.le_add_left ..)⟩

theorem Passes.refresh {w : VideoWatch R} {l : List (VideoFrame R)} (h : w.Ordered l)
    (clock : MediaClock R) (audio : Serial) (now : R) :
    w.Passes (.act (.refresh clock audio now)) ∧ ∃ l', (w.after (.act (.refresh clock audio now))).Ordered l' := by
  obtain ⟨gone, rest, htakes, hrefreshes⟩ := w.renderer.refresh_takes clock ⟨audio, w.live⟩ now h.holds
  have hafter : (w.after (.act (.refresh clock audio now))).renderer
      = (w.renderer.refresh clock ⟨audio, w.live⟩ now).renderer := rfl
  -- that a late picture is followed needs the order of all pictures, before they are split
  have hfollowed {frame behind} (hmem : (frame, .late) :: behind <:+ gone) :=
    htakes.followed h.sorted h.bound hmem
  rw [htakes.split] at h
  have h' : (w.after (.act (.refresh clock audio now))).Ordered rest :=
    ⟨hrefreshes.ring, (List.pairwise_append.mp h.sorted).2.1,
      fun frame hframe => h.bound frame (List.mem_append_right _ hframe)⟩
  obtain ⟨hout, hnew⟩ := h.shrunk h'
  have hleaving : w.leaving (.act (.refresh clock audio now)) = gone := by
    unfold leaving
    dsimp only
    rw [hout, hafter, hrefreshes.dropped, Nat.add_sub_cancel_left]
    exact htakes.fates_eq
  have hentering : w.entering (.act (.refresh clock audio now)) = [] := hnew
  have hpictures : w.pictures = gone.map Prod.fst ++ rest := h.holds.toList
  have hpictures' : (w.after (.act (.refresh clock audio now))).pictures = rest := h'.holds.toList
  refine ⟨⟨?_, .inl hentering, ?_, fun frame fate hmem => ?_, ?_, ?_, ?_, hrefreshes.config⟩, rest, h'⟩
  · rw [hentering, hleaving, hpictures, hpictures', List.append_nil]
  · rw [hleaving]
    exact hrefreshes.dropped
  · rw [hleaving] at hmem
    have hfits := htakes.fits hmem
    have hrefresh : (PictureAct.act (.refresh clock audio now)).RefreshesBy clock := ⟨audio, now, rfl⟩
    cases fate with
    | shown =>
      obtain ⟨hpresent, hplaying, hshown⟩ := hfits
      have hlast : (w.after (.act (.refresh clock audio now))).renderer.lastShown = some frame := by
        rw [hafter, hrefreshes.lastShown, hshown]
        rfl
      exact ⟨⟨clock, hrefresh⟩, hpresent, hplaying, hlast, hrefreshes.shows frame hshown⟩
    | late =>
      obtain ⟨hpresent, hplaying, hdrops⟩ := hfits
      refine ⟨clock, hrefresh, hpresent, hplaying, fun hnever => ?_, fun hauto hvideo => ?_⟩
      · simp [VideoRenderer.dropsLate, hnever] at hdrops
      · simp [VideoRenderer.dropsLate, hauto, hvideo] at hdrops
    | past => exact ⟨⟨clock, hrefresh⟩, hfits⟩
    | cleared => exact hfits.elim
  · rw [hleaving]
    exact fun frame behind hmem => htakes.shown_last hmem
  · rw [hleaving, hpictures']
    exact fun frame behind hmem => hfollowed hmem
  · rw [hleaving]
    exact hrefreshes.lastShown

/-- What an act does that is no refresh and takes pictures off the front of the ring, or none. -/
theorem Passes.clear {w : VideoWatch R} {a : PictureAct R} {out rest : List (VideoFrame R)}
    (h : w.Ordered (out ++ rest)) (h' : (w.after a).Ordered rest)
    (hother : ∀ clock audio now, a ≠ .act (.refresh clock audio now))
    (due : ∀ frame ∈ out, (a = .act .flush ∧ frame.serial ≠ w.live) ∨ a = .act .stop)
    (hdropped : (w.after a).renderer.dropped = w.renderer.dropped)
    (hlast : (w.after a).renderer.lastShown = w.renderer.lastShown)
    (hconfig : (w.after a).renderer.config = w.renderer.config) : w.Passes a := by
  obtain ⟨hout, hnew⟩ := h.shrunk h'
  have hleaving : w.leaving a = out.map (·, .cleared) := by
    unfold leaving
    dsimp only
    rw [hout]
    split
    next => exact absurd rfl (hother _ _ _)
    next => rfl
  have hentering : w.entering a = [] := hnew
  have hpictures : w.pictures = out ++ rest := h.holds.toList
  have hpictures' : (w.after a).pictures = rest := h'.holds.toList
  have hfst : (out.map (·, Fate.cleared)).map Prod.fst = out := by
    rw [List.map_map]
    exact List.map_id out
  have hcleared {frame fate behind} (hmem : (frame, fate) :: behind <:+ w.leaving a) : fate = .cleared := by
    have hin := hmem.subset (List.mem_cons_self ..)
    rw [hleaving] at hin
    obtain ⟨_, -, heq⟩ := List.mem_map.mp hin
    exact (Prod.mk.inj heq).2.symm
  refine ⟨?_, .inl hentering, ?_, ?_, ?_, ?_, ?_, hconfig⟩
  · rw [hentering, hleaving, hpictures, hpictures', List.append_nil, hfst]
  · rw [hdropped, hleaving]
    simp [lateOf]
  · rw [hleaving]
    intro frame fate hmem
    obtain ⟨f, hf, heq⟩ := List.mem_map.mp hmem
    obtain ⟨rfl, rfl⟩ := Prod.mk.inj heq
    exact due f hf
  · exact fun _ _ hmem => nomatch hcleared hmem
  · exact fun _ _ hmem => nomatch hcleared hmem
  · rw [hlast, hleaving]
    have hnone : shownOf (out.map (·, Fate.cleared)) = none := by simp [shownOf]
    rw [hnone]
    rfl

/-- What an act does that puts a picture behind the others. -/
theorem Passes.push {w : VideoWatch R} {l : List (VideoFrame R)} {frame : VideoFrame R}
    (h : w.Ordered l) (present : frame.serial = w.live)
    (h' : (w.after (.act (.deliver (.frame frame)))).Ordered (l ++ [frame]))
    (hdropped : (w.after (.act (.deliver (.frame frame)))).renderer.dropped = w.renderer.dropped)
    (hlast : (w.after (.act (.deliver (.frame frame)))).renderer.lastShown = w.renderer.lastShown)
    (hconfig : (w.after (.act (.deliver (.frame frame)))).renderer.config = w.renderer.config) :
    w.Passes (.act (.deliver (.frame frame))) := by
  have hpictures : w.pictures = l := h.holds.toList
  have hpictures' : (w.after (.act (.deliver (.frame frame)))).pictures = l ++ [frame] := h'.holds.toList
  have hentering : w.entering (.act (.deliver (.frame frame))) = [frame] := by
    unfold VideoWatch.entering
    rw [hpictures, hpictures', List.drop_left]
  have hleaving : w.leaving (.act (.deliver (.frame frame))) = [] := by
    unfold leaving
    rw [hpictures, hpictures', List.length_append, Nat.sub_add_eq, Nat.sub_self, Nat.zero_sub]
    rfl
  refine ⟨?_, .inr ⟨frame, rfl, present, hentering⟩, ?_, ?_, ?_, ?_, ?_, hconfig⟩
  · rw [hentering, hleaving, hpictures, hpictures']
    rfl
  · rw [hdropped, hleaving]
    rfl
  · rw [hleaving]
    exact nofun
  · rw [hleaving]
    exact fun _ _ hmem => absurd (List.suffix_nil.mp hmem) (List.cons_ne_nil _ _)
  · rw [hleaving]
    exact fun _ _ hmem => absurd (List.suffix_nil.mp hmem) (List.cons_ne_nil _ _)
  · rw [hlast, hleaving]
    rfl

/-- What an act does that leaves the ring as it is. -/
theorem Passes.quiet {w : VideoWatch R} {a : PictureAct R} {l : List (VideoFrame R)} (h : w.Ordered l)
    (hother : ∀ clock audio now, a ≠ .act (.refresh clock audio now))
    (hring : (w.after a).renderer.ring = w.renderer.ring) (hlive : w.live ≤ (w.after a).live)
    (hdropped : (w.after a).renderer.dropped = w.renderer.dropped)
    (hlast : (w.after a).renderer.lastShown = w.renderer.lastShown)
    (hconfig : (w.after a).renderer.config = w.renderer.config) :
    w.Passes a ∧ ∃ l', (w.after a).Ordered l' := by
  have h' : (w.after a).Ordered l :=
    ⟨hring ▸ h.holds, h.sorted, fun frame hframe => Nat.le_trans (h.bound frame hframe) hlive⟩
  have hnone : w.Ordered ([] ++ l) := h
  exact ⟨.clear hnone h' hother nofun hdropped hlast hconfig, l, h'⟩

omit [Scalar R] in
/-- In the order of generations, those below a bound stand before those at it. -/
theorem split_at_last {live : Serial} {l : List (VideoFrame R)} (sorted : l.Pairwise (·.serial ≤ ·.serial))
    (bound : ∀ frame ∈ l, frame.serial ≤ live) :
    l = l.filter (·.serial ≠ live) ++ l.filter (·.serial = live) := by
  induction l with
  | nil => rfl
  | cons frame l ih =>
    obtain ⟨hle, hsorted⟩ := List.pairwise_cons.mp sorted
    have hbound : ∀ f ∈ l, f.serial ≤ live := fun f hf => bound f (List.mem_cons_of_mem _ hf)
    by_cases hlast : frame.serial = live
    · have hall : ∀ f ∈ l, f.serial = live := fun f hf => Nat.le_antisymm (hbound f hf) (hlast ▸ hle f hf)
      have hnone : l.filter (·.serial ≠ live) = [] := List.filter_eq_nil_iff.mpr fun f hf => by simp [hall f hf]
      have hsame : l.filter (·.serial = live) = l := List.filter_eq_self.mpr fun f hf => by simp [hall f hf]
      rw [List.filter_cons_of_neg (by simpa using hlast), List.filter_cons_of_pos (by simpa using hlast), hnone, hsame]
      rfl
    · have hrest := ih hsorted hbound
      rw [List.filter_cons_of_pos (by simpa using hlast), List.filter_cons_of_neg (by simpa using hlast),
        List.cons_append, ← hrest]

theorem passes_deliver {w : VideoWatch R} {l : List (VideoFrame R)} (h : w.Ordered l) (frame : VideoFrame R) :
    w.Passes (.act (.deliver (.frame frame))) ∧ ∃ l', (w.after (.act (.deliver (.frame frame)))).Ordered l' := by
  by_cases hpresent : frame.serial = w.live
  · have hrenderer : (w.after (.act (.deliver (.frame frame)))).renderer
        = { w.renderer with reading := false, ring := (w.renderer.ring.pushBack frame).2 } := if_pos hpresent
    rcases Nat.lt_or_ge l.length w.renderer.ring.capacity with hroom | hfull
    · have h' : (w.after (.act (.deliver (.frame frame)))).Ordered (l ++ [frame]) := by
        refine ⟨?_, ?_, fun f hf => ?_⟩
        · rw [hrenderer]
          exact (h.holds.pushBack hroom frame).2.1
        · refine List.pairwise_append.mpr ⟨h.sorted, List.pairwise_singleton _ _, fun f hf g hg => ?_⟩
          rw [List.mem_singleton.mp hg, hpresent]
          exact h.bound f hf
        · rcases List.mem_append.mp hf with hf | hf
          · exact h.bound f hf
          · rw [List.mem_singleton.mp hf]
            exact Nat.le_of_eq hpresent
      exact ⟨Passes.push h hpresent h' (by rw [hrenderer]) (by rw [hrenderer]) (by rw [hrenderer]), _, h'⟩
    · have hsame := h.holds.pushBack_full (Nat.le_antisymm h.holds.bound hfull) frame
      refine Passes.quiet h nofun ?_ (Nat.le_refl _) (by rw [hrenderer]) (by rw [hrenderer]) (by rw [hrenderer])
      rw [hrenderer, hsame]
  · have hrenderer : (w.after (.act (.deliver (.frame frame)))).renderer = { w.renderer with reading := false } :=
      if_neg hpresent
    refine Passes.quiet h nofun ?_ (Nat.le_refl _) ?_ ?_ ?_ <;> rw [hrenderer]

theorem passes_flush {w : VideoWatch R} {l : List (VideoFrame R)} (h : w.Ordered l) :
    w.Passes (.act .flush) ∧ ∃ l', (w.after (.act .flush)).Ordered l' := by
  obtain ⟨hring, hdropped, hlast, hconfig⟩ := w.renderer.flush_keeps w.live
  have hkept := h.holds.retain (·.serial = w.live)
  have h' : (w.after (.act .flush)).Ordered (l.filter (·.serial = w.live)) :=
    ⟨hring ▸ hkept, h.sorted.filter _, fun frame hframe => h.bound frame (List.mem_filter.mp hframe).1⟩
  rw [split_at_last h.sorted h.bound] at h
  refine ⟨Passes.clear h h' nofun (fun frame hframe => .inl ⟨rfl, ?_⟩) hdropped hlast hconfig, _, h'⟩
  simpa using (List.mem_filter.mp hframe).2

theorem passes {w : VideoWatch R} {l : List (VideoFrame R)} (h : w.Ordered l) (a : PictureAct R) :
    w.Passes a ∧ ∃ l', (w.after a).Ordered l' := by
  cases a with
  | start | redraw => exact Passes.quiet h nofun rfl (Nat.le_refl _) rfl rfl rfl
  | act a =>
    cases a with
    | restart => exact Passes.quiet h nofun rfl (Nat.le_succ _) rfl rfl rfl
    | request => exact Passes.quiet h nofun rfl (Nat.le_refl _) rfl rfl rfl
    | refresh clock audio now => exact Passes.refresh h clock audio now
    | setPaused clock paused now =>
      obtain ⟨hring, hdropped, hlast, hconfig⟩ := w.renderer.setPaused_keeps clock paused now
      exact Passes.quiet h nofun hring (Nat.le_refl _) hdropped hlast hconfig
    | deliver result =>
      cases result with
      | frame frame => exact passes_deliver h frame
      | endOfStream | aborted | error => exact Passes.quiet h nofun rfl (Nat.le_refl _) rfl rfl rfl
    | flush => exact passes_flush h
    | stop =>
      have h' : (w.after (.act .stop)).Ordered [] := ⟨w.renderer.ring.clear_holds, .nil, nofun⟩
      rw [← List.append_nil l] at h
      exact ⟨Passes.clear h h' nofun (fun _ _ => .inr rfl) rfl rfl rfl, [], h'⟩

end VideoWatch

/-! ## Runs -/

namespace PictureBook

variable [Scalar R]

/-- The account is right, and every late picture has another one of its generation behind it. -/
structure Balanced (config : SyncConfig R) (b : PictureBook R) : Prop where
  ordered : ∃ l, b.watch.Ordered l
  balance : b.entered = b.left.map Prod.fst ++ b.watch.pictures
  dropped : b.watch.renderer.dropped = lateOf b.left
  followed : ∀ frame behind, (frame, .late) :: behind <:+ b.left →
    ∃ next ∈ behind.map Prod.fst ++ b.watch.pictures, next.serial = frame.serial
  config : b.watch.renderer.config = config

theorem new_balanced (config : SyncConfig R) (capacity : Nat) : (new config capacity).Balanced config where
  ordered := ⟨[], Ring.new_holds capacity, .nil, nofun⟩
  balance := (Ring.new_holds capacity).toList.symm
  dropped := rfl
  followed _ _ hmem := absurd (List.suffix_nil.mp hmem) (List.cons_ne_nil _ _)
  config := rfl

theorem act_balanced {config : SyncConfig R} {b : PictureBook R} (h : b.Balanced config) (a : PictureAct R) :
    (b.act a).Balanced config := by
  obtain ⟨l, hl⟩ := h.ordered
  obtain ⟨hpasses, hordered⟩ := VideoWatch.passes hl a
  have hpictures : (b.act a).watch.pictures = (b.watch.after a).pictures := rfl
  have hleft : (b.act a).left = b.left ++ b.watch.leaving a := rfl
  refine ⟨hordered, ?_, ?_, fun frame behind hmem => ?_, hpasses.config.trans h.config⟩
  · calc b.entered ++ b.watch.entering a
      _ = b.left.map Prod.fst ++ (b.watch.pictures ++ b.watch.entering a) := by
        rw [h.balance, List.append_assoc]
      _ = b.left.map Prod.fst ++ ((b.watch.leaving a).map Prod.fst ++ (b.watch.after a).pictures) := by
        rw [hpasses.balance]
      _ = (b.act a).left.map Prod.fst ++ (b.act a).watch.pictures := by
        rw [hleft, hpictures, List.map_append, List.append_assoc]
  · rw [hleft, lateOf, List.countP_append]
    exact hpasses.dropped.trans (congrArg (· + _) h.dropped)
  · -- a late picture left before this act, or in it
    obtain ⟨front, hsplit⟩ := hmem
    rw [hleft] at hsplit
    rcases List.append_eq_append_iff.mp hsplit with ⟨mid, hmid, hnow⟩ | ⟨mid, hmid, hbefore⟩
    · cases mid with
      | nil => exact hpasses.followed frame behind (by rw [hnow]; exact List.suffix_refl _)
      | cons first mid =>
        rw [List.cons_append] at hnow
        obtain ⟨rfl, rfl⟩ := List.cons.inj hnow
        obtain ⟨next, hnext, hserial⟩ := h.followed frame mid ⟨front, hmid.symm⟩
        refine ⟨next, ?_, hserial⟩
        rw [hpictures, List.map_append, List.append_assoc, ← hpasses.balance, ← List.append_assoc]
        exact List.mem_append_left _ hnext
    · exact hpasses.followed frame behind ⟨mid, hbefore.symm⟩

theorem acts_balanced (config : SyncConfig R) (capacity : Nat) (as : List (PictureAct R)) :
    ((new config capacity).acts as).Balanced config :=
  List.foldlRecOn as act (new_balanced config capacity) fun _ h a _ => act_balanced h a

end PictureBook

/-- **Every picture leaves the ring once, in its turn and for a reason.** In every run of a video renderer the
pictures that entered the ring are those that have left it, in the same order, and then those in it. As many
were late as the counter says, and each of these has another picture of its generation behind it. Whatever
happens next obeys `VideoWatch.Passes`; and a refresh of a paused renderer takes out nothing of the present
generation. -/
theorem pictures_accounted [Scalar R] (config : SyncConfig R) (capacity : Nat) (as : List (PictureAct R)) :
    let b := (PictureBook.new config capacity).acts as
    b.entered = b.left.map Prod.fst ++ b.watch.pictures ∧
    b.watch.renderer.dropped = b.left.countP (·.2 = .late) ∧
    (∀ frame behind, (frame, .late) :: behind <:+ b.left →
      ∃ next ∈ behind.map Prod.fst ++ b.watch.pictures, next.serial = frame.serial) ∧
    b.watch.renderer.config = config ∧
    (∀ a, b.watch.Passes a) ∧
    (b.watch.renderer.paused = true → ∀ clock audio now frame fate,
      (frame, fate) ∈ b.watch.leaving (.act (.refresh clock audio now)) → frame.serial ≠ b.watch.live) := by
  intro b
  have hb := PictureBook.acts_balanced config capacity as
  obtain ⟨l, hl⟩ := hb.ordered
  refine ⟨hb.balance, hb.dropped, hb.followed, hb.config, fun a => (VideoWatch.passes hl a).1, ?_⟩
  intro hpaused clock audio now frame fate hmem
  have hdue := (VideoWatch.passes hl (.act (.refresh clock audio now))).1.due frame fate hmem
  cases fate with
  | shown => exact absurd (hpaused.symm.trans hdue.2.2.1) (by decide)
  | late =>
    obtain ⟨_, _, _, hplaying, _⟩ := hdue
    exact absurd (hpaused.symm.trans hplaying) (by decide)
  | past => exact hdue.2
  | cleared => exact hdue.elim (fun hflush => nomatch hflush.1) nofun

def pictureOf (serial : Serial) (pts : Float) (width : Nat) : PictureAct Float :=
  .act (.deliver (.frame ⟨pts, 0.04, serial, width, 0, .rgba, []⟩))

/-- A clock by which video is two seconds behind. -/
def laggingClock : MediaClock Float :=
  ((MediaClock.new .externalClock id 0.0).setAt .video 0.0 1 0.0).setAt .external 2.0 1 0.0

example :
    let b := (PictureBook.new .default 3).acts
      [.act .restart, pictureOf 1 0.0 10, pictureOf 1 0.04 20, pictureOf 1 0.08 30,
        .act (.refresh laggingClock 1 0.0), .act (.refresh laggingClock 1 1.0), pictureOf 1 0.12 40,
        .act .restart, .act (.refresh laggingClock 1 1.0), pictureOf 2 0.0 50, .act .restart, .act .flush,
        pictureOf 3 0.0 60, .act .stop]
    b.left.map (fun (frame, fate) => (frame.width, fate))
      = [(10, .shown), (20, .late), (30, .shown), (40, .past), (50, .cleared), (60, .cleared)] := by
  decide +kernel

end Playback
