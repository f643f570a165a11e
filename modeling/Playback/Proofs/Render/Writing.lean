import Playback.Proofs.Render.Flush

/-!
# What a callback writes

A callback pours data into the buffer of the device piece by piece, one piece for each block that it comes to, and
silence behind the last one. What the pieces are does not hang on what the buffer holds (`AudioRenderer.pieces`), and
`poured` says what becomes of the buffer.

At silence and at the full volume all of it is written over. Any other volume works on whole samples, piece by piece:
the rest of a piece that is no whole sample leaves the buffer as it was. `overwritten_iff` says that nothing else is
left of it, and where that is.
-/

namespace Playback

variable {R : Type} [Scalar R]

/-! ## Pouring -/

/-- A place in a buffer where the rest of a piece falls that is no whole sample. -/
def CutAt (format : SampleFormat) : List Bytes → Nat → Prop
  | [], _ => False
  | data :: rest, i =>
    if i < data.length then wholeLength format data ≤ i else CutAt format rest (i - data.length)

section

variable (format : SampleFormat) (volume : R) (muted : Bool)

/-- A buffer after pieces of data were mixed into it, one behind the other, and silence behind them. -/
def poured : List Bytes → Bytes → Bytes
  | [], out => List.replicate out.length 0
  | data :: rest, out =>
    mix (out.take data.length) data format volume muted ++ poured rest (out.drop data.length)

variable {format} {pieces : List Bytes} {out : Bytes}

theorem poured_length (pieces : List Bytes) (out : Bytes) :
    (poured format volume muted pieces out).length = out.length := by
  induction pieces generalizing out with
  | nil => exact List.length_replicate
  | cons data rest ih =>
    rw [poured, List.length_append, mix_length, ih, ← List.length_append, List.take_append_drop]

/-- Behind the pieces there is silence. -/
theorem poured_drop (room : pieces.flatten.length ≤ out.length) :
    (poured format volume muted pieces out).drop pieces.flatten.length
      = List.replicate (out.length - pieces.flatten.length) 0 := by
  induction pieces generalizing out with
  | nil => rfl
  | cons data rest ih =>
    rw [List.flatten_cons, List.length_append] at room ⊢
    have hfront : (mix (out.take data.length) data format volume muted).length = data.length := by
      rw [mix_length, List.length_take_of_le (by omega)]
    have hrest := ih (by rw [List.length_drop]; omega : rest.flatten.length ≤ (out.drop data.length).length)
    rw [poured, ← List.drop_drop, List.drop_left' hfront, hrest, List.length_drop, Nat.sub_sub]

/-- There is a place where a sample is cut exactly if a piece is no whole samples. -/
theorem exists_cutAt_iff (pieces : List Bytes) :
    (∃ i, CutAt format pieces i) ↔ ∃ data ∈ pieces, ¬ format.size ∣ data.length := by
  induction pieces with
  | nil => simp [CutAt]
  | cons data rest ih =>
    simp only [List.mem_cons, exists_eq_or_imp]
    rw [← ih, ← wholeLength_eq_iff]
    have hle : wholeLength format data ≤ data.length := wholeLength_le data
    constructor
    · rintro ⟨i, hi⟩
      unfold CutAt at hi
      split at hi
      next hlt => exact .inl (by omega)
      next => exact .inr ⟨_, hi⟩
    · rintro (hcut | ⟨i, hi⟩)
      · have hin : wholeLength format data < data.length := by omega
        refine ⟨wholeLength format data, ?_⟩
        unfold CutAt
        simp [hin]
      · refine ⟨i + data.length, ?_⟩
        unfold CutAt
        rwa [if_neg (by omega), Nat.add_sub_cancel]

theorem CutAt.lt {i : Nat} (h : CutAt format pieces i) : i < pieces.flatten.length := by
  induction pieces generalizing i with
  | nil => cases h
  | cons data rest ih =>
    rw [List.flatten_cons, List.length_append]
    unfold CutAt at h
    split at h
    next hlt => omega
    next hge =>
      have hrest := ih h
      omega

/-- Where samples are scaled, a cut place is left as it was. -/
theorem poured_cut (scales : Scales volume muted) (room : pieces.flatten.length ≤ out.length) {i : Nat}
    (h : CutAt format pieces i) : (poured format volume muted pieces out)[i]? = out[i]? := by
  induction pieces generalizing out i with
  | nil => cases h
  | cons data rest ih =>
    rw [List.flatten_cons, List.length_append] at room
    have hfront : (out.take data.length).length = data.length := List.length_take_of_le (by omega)
    have hwhole : (voiced format volume muted (data.take (wholeLength format data))).length
        = wholeLength format data := by
      rw [voiced_length, List.length_take_of_le (wholeLength_le data)]
    unfold CutAt at h
    rw [poured]
    split at h
    next hlt =>
      rw [List.getElem?_append_left (by rwa [mix_length, hfront]), mix_scaled volume muted scales hfront,
        List.getElem?_append_right (by rwa [hwhole]), hwhole, List.getElem?_drop, Nat.add_sub_cancel' h,
        List.getElem?_take_of_lt hlt]
    next hge =>
      have hrest := ih (by rw [List.length_drop]; omega : rest.flatten.length ≤ (out.drop data.length).length) h
      rw [List.getElem?_append_right (by rw [mix_length, hfront]; omega), mix_length, hfront, hrest,
        List.getElem?_drop, Nat.add_sub_cancel' (by omega)]

/-- Every other place is written over, whatever it held. -/
theorem poured_uncut {out' : Bytes} (room : pieces.flatten.length ≤ out.length) (h : out'.length = out.length)
    {i : Nat} (uncut : ¬ (Scales volume muted ∧ CutAt format pieces i)) :
    (poured format volume muted pieces out)[i]? = (poured format volume muted pieces out')[i]? := by
  induction pieces generalizing out out' i with
  | nil => rw [poured, poured, h]
  | cons data rest ih =>
    rw [List.flatten_cons, List.length_append] at room
    have hfront : (out.take data.length).length = data.length := List.length_take_of_le (by omega)
    have hfront' : (out'.take data.length).length = data.length := List.length_take_of_le (by omega)
    have hlength : (out'.drop data.length).length = (out.drop data.length).length := by
      rw [List.length_drop, List.length_drop, h]
    unfold CutAt at uncut
    rw [poured, poured]
    by_cases hlt : i < data.length
    · rw [if_pos hlt] at uncut
      rw [List.getElem?_append_left (by rwa [mix_length, hfront]),
        List.getElem?_append_left (by rwa [mix_length, hfront'])]
      by_cases hscales : Scales volume muted
      · have hbefore : i < (voiced format volume muted (data.take (wholeLength format data))).length := by
          rw [voiced_length, List.length_take_of_le (wholeLength_le data)]
          exact Nat.lt_of_not_le fun hle => uncut ⟨hscales, hle⟩
        rw [mix_scaled volume muted hscales hfront, mix_scaled volume muted hscales hfront',
          List.getElem?_append_left hbefore, List.getElem?_append_left hbefore]
      · rw [mix_eq_voiced_of_not_scales volume muted hscales hfront,
          mix_eq_voiced_of_not_scales volume muted hscales hfront']
    · rw [if_neg hlt] at uncut
      rw [List.getElem?_append_right (by rw [mix_length, hfront]; omega),
        List.getElem?_append_right (by rw [mix_length, hfront']; omega), mix_length, mix_length, hfront, hfront']
      exact ih (by rw [List.length_drop]; omega) hlength uncut

/-- The buffer does not show exactly if nothing is scaled or no sample is cut. -/
theorem poured_same_iff {n : Nat} (room : pieces.flatten.length ≤ n) :
    (∀ out out' : Bytes, out.length = n → out'.length = n →
      poured format volume muted pieces out = poured format volume muted pieces out') ↔
      ¬ Scales volume muted ∨ ∀ data ∈ pieces, format.size ∣ data.length := by
  have hzeros : (List.replicate n (0 : UInt8)).length = n := List.length_replicate
  have hones : (List.replicate n (1 : UInt8)).length = n := List.length_replicate
  constructor
  · intro hsame
    by_cases hscales : Scales volume muted
    · refine .inr fun data hmem => Decidable.byContradiction fun hpart => ?_
      obtain ⟨i, hi⟩ := (exists_cutAt_iff pieces).mpr ⟨data, hmem, hpart⟩
      have hin : i < n := Nat.lt_of_lt_of_le hi.lt room
      -- two buffers that differ in every byte tell what is left of them
      have hzero := poured_cut volume muted hscales (hzeros.symm ▸ room) hi
      have hone := poured_cut volume muted hscales (hones.symm ▸ room) hi
      rw [hsame _ _ hzeros hones, hone] at hzero
      simp [hin] at hzero
    · exact .inl hscales
  · intro hwhole out out' h h'
    refine List.ext_getElem? fun i => poured_uncut volume muted (h.symm ▸ room) (h'.trans h.symm) ?_
    rintro ⟨hscales, hi⟩
    obtain ⟨data, hmem, hpart⟩ := (exists_cutAt_iff pieces).mp ⟨i, hi⟩
    exact hpart (hwhole.resolve_left (not_not_intro hscales) data hmem)

end

namespace AudioRenderer

variable {a : AudioRenderer R} {m : MediaClock R} {live : LiveSerials} {now : R}

/-! ## The next block -/

/-- What comes of the blocks of the generation when the next one is begun, where nothing else is in front. -/
inductive Begins (a : AudioRenderer R) (m : MediaClock R) : List (AudioBlock R) → Bool × AudioRenderer R → Prop where
  | nothing {ring : Ring (AudioBlock R)} (empty : ring.Holds []) :
      Begins a m [] (false, { a with ring, playing := none })
  | block {a' : AudioRenderer R} {block : AudioBlock R} {rest : List (AudioBlock R)} (ring : a'.ring.Holds rest)
      (clockPts : a'.clockPts = if Scalar.isNaN block.pts then Scalar.nan else block.pts + block.duration)
      (clockSerial : a'.clockSerial = some block.serial)
      (playing : m.masterType = .audioMaster → a'.playing = some ⟨block.data, block.serial⟩) :
      Begins a m (block :: rest) (true, a')

theorem nextBlock_begins {l : List (AudioBlock R)} (h : a.ring.Holds l) (m : MediaClock R) (live : LiveSerials)
    (now : R) : a.Begins m (l.dropWhile (·.serial ≠ live.audio)) (a.nextBlock m live now) := by
  obtain ⟨hblock, hring⟩ := takeBlock_eq live.audio h (Nat.le_of_eq h.length.symm)
  unfold nextBlock
  rcases htake : takeBlock live.audio a.ring.length a.ring with ⟨taken, ring⟩
  rw [htake] at hblock hring
  dsimp only at hblock hring
  generalize l.dropWhile (fun block => decide (block.serial ≠ live.audio)) = rest at *
  cases rest with
  | nil =>
    subst hblock
    exact .nothing hring
  | cons block rest =>
    subst hblock
    dsimp only [List.head?_cons]
    split
    next => exact .block hring rfl rfl fun _ => rfl
    next hmaster => exact .block ((synchronize_keeps (R := R) ..).1.symm ▸ hring) rfl rfl fun h => absurd h hmaster

/-! ## The pieces of a callback -/

/-- The renderer after some bytes of the present block were played. -/
def play (a : AudioRenderer R) (n : Nat) : AudioRenderer R :=
  { a with playing := a.playing.map fun p => { p with rest := p.rest.drop n } }

/-- The pieces of data that go into a buffer of so many bytes, where at most `fuel` blocks are begun. -/
def piecesFor (a : AudioRenderer R) (m : MediaClock R) (live : LiveSerials) (now : R) (n : Nat) :
    Nat → List Bytes
  | 0 => []
  | fuel + 1 =>
    let count := min a.unplayed.length n
    a.unplayed.take count ::
      if n ≤ count then []
      else
        match (a.play count).nextBlock m live now with
        | (false, _) => []
        | (true, next) => next.piecesFor m live now (n - count) fuel

/-- The pieces of data that a callback puts into a buffer of so many bytes. -/
def pieces (a : AudioRenderer R) (m : MediaClock R) (live : LiveSerials) (now : R) (n : Nat) : List Bytes :=
  if a.paused || n = 0 then [] else { a with requestSize := n }.piecesFor m live now n (a.ring.length + 1)

/-- How a buffer of so many bytes is filled: with which pieces, whether data is missing then, and what the renderer has
become. -/
inductive Fills (m : MediaClock R) (live : LiveSerials) (now : R) :
    AudioRenderer R → Nat → List Bytes → Bool → AudioRenderer R → Prop where
  /-- The present block is enough. -/
  | within (a : AudioRenderer R) (n : Nat) (enough : n ≤ a.unplayed.length) :
      Fills m live now a n [a.unplayed.take n] false (a.play n)
  /-- The present block is played to its end, and there is no other. -/
  | runsOut {a a' : AudioRenderer R} {n : Nat} (short : a.unplayed.length < n)
      (none : (a.play a.unplayed.length).nextBlock m live now = (false, a')) : Fills m live now a n [a.unplayed] true a'
  /-- The present block is played to its end, and the next one is begun. -/
  | goesOn {a next a' : AudioRenderer R} {n : Nat} {pieces : List Bytes} {missing : Bool}
      (short : a.unplayed.length < n) (begun : (a.play a.unplayed.length).nextBlock m live now = (true, next))
      (rest : Fills m live now next (n - a.unplayed.length) pieces missing a') :
      Fills m live now a n (a.unplayed :: pieces) missing a'

/-- The fuel lasts for as many blocks as the ring holds. -/
theorem fill_fills (m : MediaClock R) (live : LiveSerials) (now : R) (fuel : Nat) {l : List (AudioBlock R)}
    (h : a.ring.Holds l) (hfuel : l.length < fuel) (out : Bytes) :
    Fills m live now a out.length (a.piecesFor m live now out.length fuel) (a.fill m live now out fuel).2.1
        (a.fill m live now out fuel).2.2 ∧
      (a.fill m live now out fuel).1
        = poured a.tone.1 a.tone.2.1 a.tone.2.2 (a.piecesFor m live now out.length fuel) out := by
  induction fuel generalizing a l out with
  | zero => cases hfuel
  | succ fuel ih =>
    unfold fill piecesFor
    dsimp only
    generalize hn : min a.unplayed.length out.length = n
    generalize hplayed : ({ a with playing := a.playing.map fun p => { p with rest := p.rest.drop n } } :
      AudioRenderer R) = played
    have hplay : a.play n = played := hplayed
    have hring : played.ring.Holds l := by rw [← hplayed]; exact h
    have hpiece : (a.unplayed.take n).length = n := List.length_take_of_le (by omega)
    have hempty : (out.drop n).isEmpty = true ↔ out.length ≤ n := by simp
    rw [hplay]
    by_cases hends : out.length ≤ n
    · -- the request ends within the present block
      have hall : n = out.length := by omega
      rw [if_pos hends, if_pos (hempty.mpr hends), poured, hpiece, List.drop_eq_nil_of_le hends]
      refine ⟨?_, (List.append_nil _).symm⟩
      rw [← hall, ← hplay]
      exact .within a n (by omega)
    · -- the present block is played to its end
      have hshort : n = a.unplayed.length := by omega
      have hwhole : a.unplayed.take n = a.unplayed := by rw [hshort, List.take_length]
      have hbegins := nextBlock_begins hring m live now
      rw [if_neg hends, if_neg (mt hempty.mp hends), poured, hpiece, hwhole]
      rcases hnext : played.nextBlock m live now with ⟨found, next⟩
      rw [hnext] at hbegins
      rw [← hplay, hshort] at hnext
      cases found with
      | false => exact ⟨.runsOut (by omega) hnext, rfl⟩
      | true =>
        have htone : next.tone = a.tone := by
          have hsame := ((a.play a.unplayed.length).nextBlock_plays m live now).tone
          rw [hnext] at hsame
          exact hsame
        generalize hrest : l.dropWhile (fun block => decide (block.serial ≠ live.audio)) = rest at hbegins
        cases hbegins with
        | block hnextRing =>
          have hshorter := (List.dropWhile_suffix (l := l) fun block => decide (block.serial ≠ live.audio)).length_le
          rw [hrest, List.length_cons] at hshorter
          obtain ⟨hfills, hpoured⟩ := ih hnextRing (by omega) (out.drop n)
          rw [List.length_drop] at hfills hpoured
          rw [htone] at hpoured
          refine ⟨.goesOn (by omega) hnext (hshort ▸ hfills), ?_⟩
          dsimp only
          rw [hpoured]
          rfl

/-- The pieces fit into the buffer, and where they do not fill it the renderer has nothing left. -/
theorem Fills.ends {a a' : AudioRenderer R} {n : Nat} {pieces : List Bytes} {missing : Bool}
    (h : Fills m live now a n pieces missing a') (intact : a.ring.Intact) :
    pieces.flatten.length ≤ n ∧ (pieces.flatten.length < n → a'.playing = none ∧ a'.ring.Holds []) := by
  induction h with
  | within a n enough =>
    have hpiece : (a.unplayed.take n).length = n := List.length_take_of_le enough
    simp [hpiece]
  | @runsOut a a' n short none =>
    obtain ⟨l, hl⟩ := intact
    have hbegins := nextBlock_begins (a := a.play a.unplayed.length) hl m live now
    rw [none] at hbegins
    generalize l.dropWhile (fun block => decide (block.serial ≠ live.audio)) = rest at hbegins
    cases hbegins with
    | nothing empty => exact ⟨by simpa using Nat.le_of_lt short, fun _ => ⟨rfl, empty⟩⟩
  | @goesOn a next a' n pieces missing short begun rest ih =>
    obtain ⟨l, hl⟩ := intact
    have hbegins := nextBlock_begins (a := a.play a.unplayed.length) hl m live now
    rw [begun] at hbegins
    generalize l.dropWhile (fun block => decide (block.serial ≠ live.audio)) = rest at hbegins
    cases hbegins with
    | block ring =>
      obtain ⟨hle, hempty⟩ := ih ⟨_, ring⟩
      rw [List.flatten_cons, List.length_append]
      exact ⟨by omega, fun hlt => hempty (by omega)⟩

/-- A callback fills the buffer, unless it is paused or nothing is asked for. -/
theorem render_fills {l : List (AudioBlock R)} (h : a.ring.Holds l) (m : MediaClock R) (live : LiveSerials)
    (now delay : R) (out : Bytes) :
    let pieces := a.pieces m live now out.length
    let r := a.render m live now delay out
    ∃ missing filled endReported underruns, r.renderer = { filled with endReported, underruns } ∧
      r.output = poured a.deviceParams.format a.volume a.muted pieces out ∧
      ((a.paused = true ∨ out = []) ∧ pieces = [] ∧ filled = { a with requestSize := out.length } ∨
        Fills m live now { a with requestSize := out.length } out.length pieces missing filled) := by
  intro pieces r
  by_cases hidle : a.paused = true ∨ out = []
  · have hpieces : pieces = [] := if_pos (by rcases hidle with h | h <;> simp [h])
    have hrender : r.output = List.replicate out.length 0 ∧ ∃ endReported underruns,
        r.renderer = { a with requestSize := out.length, endReported, underruns } := by
      rcases hidle with hpaused | rfl
      · simp only [r, render, hpaused, if_true]
        exact ⟨trivial, _, _, rfl⟩
      · simp only [r, render, List.isEmpty_nil, if_true]
        split <;> exact ⟨rfl, _, _, rfl⟩
    obtain ⟨houtput, endReported, underruns, hrenderer⟩ := hrender
    exact ⟨false, _, endReported, underruns, hrenderer, by rw [hpieces]; exact houtput,
      .inl ⟨hidle, hpieces, rfl⟩⟩
  · obtain ⟨hpaused, hempty⟩ := not_or.mp hidle
    have hasked : ({ a with requestSize := out.length } : AudioRenderer R).ring.Holds l := h
    have hfuel : l.length < a.ring.length + 1 := by rw [h.length]; exact Nat.lt_succ_self _
    obtain ⟨hfills, hpoured⟩ := fill_fills m live now (a.ring.length + 1) hasked hfuel out
    have hpieces : pieces
        = ({ a with requestSize := out.length } : AudioRenderer R).piecesFor m live now out.length
          (a.ring.length + 1) := if_neg (by simp [hpaused, hempty])
    have hrender : r = a.render m live now delay out := rfl
    unfold render at hrender
    dsimp only at hrender
    rw [if_neg hpaused, if_neg (by simpa using hempty)] at hrender
    rw [hpieces, hrender]
    exact ⟨_, _, _, _, rfl, hpoured, .inr hfills⟩

/-- A callback pours its pieces into the buffer; they fit, and where they do not fill it the renderer is paused or has
nothing left. -/
theorem render_poured (intact : a.ring.Intact) (m : MediaClock R) (live : LiveSerials) (now delay : R) (out : Bytes) :
    let pieces := a.pieces m live now out.length
    let r := a.render m live now delay out
    r.output = poured a.deviceParams.format a.volume a.muted pieces out ∧
      pieces.flatten.length ≤ out.length ∧
      (pieces.flatten.length < out.length →
        a.paused = true ∨ r.renderer.playing = none ∧ r.renderer.ring.Holds []) := by
  obtain ⟨l, hl⟩ := intact
  obtain ⟨missing, filled, endReported, underruns, hrenderer, houtput, hfills⟩ :=
    render_fills hl m live now delay out
  refine ⟨houtput, ?_⟩
  rcases hfills with ⟨hidle, hpieces, -⟩ | hfills
  · rw [hpieces]
    refine ⟨Nat.zero_le _, fun hlt => hidle.imp id ?_⟩
    rintro rfl
    cases hlt
  · obtain ⟨hle, hends⟩ := hfills.ends ⟨l, hl⟩
    rw [hrenderer]
    exact ⟨hle, fun hlt => .inr (hends hlt)⟩

end AudioRenderer

/-- **A callback writes the whole buffer over, but for samples that are cut.** Where the pieces of data end, and during
a pause from the beginning, there is silence; and data ends only if there is a pause or the renderer has none left.
What the output is does not hang on what the buffer held exactly if it is silenced or at the full volume, or every
piece is whole samples. Otherwise those bytes stay as they were that belong to the rest of a piece which is no whole
sample, and no others. -/
theorem overwritten_iff (a : AudioRenderer R) (intact : a.ring.Intact) (m : MediaClock R) (live : LiveSerials)
    (now delay : R) (n : Nat) :
    let pieces := a.pieces m live now n
    let k := pieces.flatten.length
    let rendered (out : Bytes) := a.render m live now delay out
    (∀ out, out.length = n → (rendered out).output.length = n ∧
      (rendered out).output.drop k = List.replicate (n - k) 0 ∧
      (k < n → a.paused = true ∨ (rendered out).renderer.playing = none ∧ (rendered out).renderer.ring.toList = [])) ∧
    (a.paused = true → k = 0) ∧
    ((∀ out out', out.length = n → out'.length = n → (rendered out).output = (rendered out').output) ↔
      ¬ Scales a.volume a.muted ∨ ∀ data ∈ pieces, a.deviceParams.format.size ∣ data.length) ∧
    ∀ out i, out.length = n →
      (Scales a.volume a.muted ∧ CutAt a.deviceParams.format pieces i → (rendered out).output[i]? = out[i]?) ∧
      (¬ (Scales a.volume a.muted ∧ CutAt a.deviceParams.format pieces i) →
        ∀ out', out'.length = n → (rendered out).output[i]? = (rendered out').output[i]?) := by
  intro pieces k rendered
  have hpoured {out : Bytes} (h : out.length = n) : (rendered out).output
      = poured a.deviceParams.format a.volume a.muted pieces out ∧ k ≤ out.length ∧
      (k < out.length → a.paused = true ∨
        (rendered out).renderer.playing = none ∧ (rendered out).renderer.ring.Holds []) := by
    subst h
    exact AudioRenderer.render_poured intact m live now delay out
  have hzeros : (List.replicate n (0 : UInt8)).length = n := List.length_replicate
  have hroom : k ≤ n := hzeros ▸ (hpoured hzeros).2.1
  refine ⟨fun out h => ?_, fun hpaused => ?_, ?_, fun out i h => ⟨fun hi => ?_, fun hi out' h' => ?_⟩⟩
  · obtain ⟨houtput, hle, hends⟩ := hpoured h
    rw [houtput, poured_length, poured_drop a.volume a.muted hle, h]
    exact ⟨rfl, rfl, fun hlt => (hends (h ▸ hlt)).imp id fun hnone => ⟨hnone.1, hnone.2.toList⟩⟩
  · show (a.pieces m live now n).flatten.length = 0
    unfold AudioRenderer.pieces
    rw [hpaused]
    rfl
  · rw [← poured_same_iff a.volume a.muted hroom]
    constructor
    · intro hsame out out' h h'
      rw [← (hpoured h).1, ← (hpoured h').1]
      exact hsame out out' h h'
    · intro hsame out out' h h'
      rw [(hpoured h).1, (hpoured h').1]
      exact hsame out out' h h'
  · rw [(hpoured h).1]
    exact poured_cut a.volume a.muted hi.1 (hpoured h).2.1 hi.2
  · rw [(hpoured h).1, (hpoured h').1]
    exact poured_uncut a.volume a.muted (hpoured h).2.1 (h'.trans h.symm) hi

/-- A renderer at half the volume that has two samples left to play. -/
def halved : AudioRenderer Float :=
  { (AudioRenderer.new { (.default : AudioConfig Float) with volume := 0.5 } .default 4 .obliging .silent) with
    playing := some ⟨[0, 2, 0, 4], 1⟩
    paused := false }

/-- Of three bytes the last one is half of a sample and stays what the buffer held. Four bytes, and what is silent
behind them, are the same in every buffer. -/
theorem half_sample_kept :
    halved.ring.Intact ∧ halved.pieces stillClock ⟨1, 0⟩ 0.0 3 = [[0, 2, 0]] ∧
    (∀ byte, (halved.render stillClock ⟨1, 0⟩ 0.0 0.0 [0xaa, 0xaa, byte]).output[2]? = some byte) ∧
    (¬ ∀ out out', out.length = 3 → out'.length = 3 →
      (halved.render stillClock ⟨1, 0⟩ 0.0 0.0 out).output = (halved.render stillClock ⟨1, 0⟩ 0.0 0.0 out').output) ∧
    (∀ out, out.length = 6 → (halved.render stillClock ⟨1, 0⟩ 0.0 0.0 out).output = [0, 1, 0, 2, 0, 0]) := by
  have hintact : halved.ring.Intact := ⟨[], Ring.new_holds 4⟩
  have hthree : halved.pieces stillClock ⟨1, 0⟩ 0.0 3 = [[0, 2, 0]] := by decide +kernel
  have hsix : halved.pieces stillClock ⟨1, 0⟩ 0.0 6 = [[0, 2, 0, 4]] := by decide +kernel
  have hscales : Scales halved.volume halved.muted := ⟨by decide +kernel, by decide +kernel⟩
  have hformat : halved.deviceParams.format = .i16 := by decide +kernel
  have hcut (n : Nat) := overwritten_iff halved hintact stillClock ⟨1, 0⟩ 0.0 0.0 n
  refine ⟨hintact, hthree, fun byte => ?_, fun hsame => ?_, fun out hout => ?_⟩
  · refine ((hcut 3).2.2.2 [0xaa, 0xaa, byte] 2 rfl).1 ⟨hscales, ?_⟩
    rw [hthree, hformat, CutAt, if_pos (by decide)]
    decide
  · rcases (hcut 3).2.2.1.mp hsame with hnot | hwhole
    · exact hnot hscales
    · rw [hthree, hformat] at hwhole
      exact absurd (hwhole _ (List.mem_singleton_self _)) (by decide)
  · have hsame := (hcut 6).2.2.1.mpr (.inr (by rw [hsix, hformat]; decide)) out (List.replicate 6 0) hout rfl
    rw [hsame]
    decide +kernel

end Playback
