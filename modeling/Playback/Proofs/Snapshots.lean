import Playback.Player.Run
import Playback.Proofs.Json.Records
import Playback.Scripted.Player

/-!
# Snapshots read back

A snapshot is read back from its text exactly if all its scalars are finite (`snapshot_reads_back`). What is
not finite is written as `null`, and the reader wants a number there. So the snapshots that a player gives
while the duration is unknown cannot be read, those before anything is opened among them.

Two things are taken for granted: that the natural numbers of a snapshot fit their widths, and that a finite
double is read as itself from its own number.
-/

namespace Playback

open Json

/-! ## What a snapshot consists of -/

/-- Within the widths of its numbers. -/
structure MediaInfo.Fits {R : Type} (m : MediaInfo R) : Prop where
  width : m.width < 0x100000000
  height : m.height < 0x100000000
  sampleRate : m.sampleRate < 0x100000000
  channels : m.channels < 0x10000

/-- Within the widths of its numbers. -/
structure BufferStatus.Fits (b : BufferStatus) : Prop where
  videoPackets : b.videoPackets < 0x10000000000000000
  audioPackets : b.audioPackets < 0x10000000000000000
  videoFrames : b.videoFrames < 0x10000000000000000
  audioFrames : b.audioFrames < 0x10000000000000000
  framesDropped : b.framesDropped < 0x10000000000000000
  audioUnderruns : b.audioUnderruns < 0x10000000000000000

/-- Within the widths of its numbers. -/
structure PlayerState.Fits {R : Type} (s : PlayerState R) : Prop where
  mediaInfo : ∀ m ∈ s.mediaInfo, m.Fits
  buffer : s.buffer.Fits

def MediaInfo.scalars {R : Type} (m : MediaInfo R) : List R :=
  [m.duration, m.startTime, m.fps]

def PlayerState.scalars {R : Type} (s : PlayerState R) : List R :=
  [s.position, s.duration, s.volume] ++ (s.mediaInfo.map MediaInfo.scalars).getD []

/-! ## Its parts -/

namespace MediaInfo

variable {m : MediaInfo Float}

theorem toJson_legal (m : MediaInfo Float) : (m.toJson ofScalar).Legal := by
  simp [toJson, record, Legal, LegalEntries, ofScalar_legal, text, int, Number.ofInt_legal]

/-- It is read back if its scalars are finite. -/
theorem ofJson?_finite (fits : m.Fits) (reads : ∀ x ∈ m.scalars, ReadsBack x)
    (finite : ∀ x ∈ m.scalars, x.isFinite = true) : ofJson? (m.toJson ofScalar) = some m := by
  have hread : ∀ x ∈ m.scalars, readScalar (ofScalar x) = some x :=
    fun x hx => readScalar_finite (reads x hx) (finite x hx)
  simp only [scalars, List.forall_mem_cons] at hread
  obtain ⟨hduration, hstart, hfps, -⟩ := hread
  unfold ofJson? toJson
  rw [fields?_record (by rfl) (by decide)]
  simp [Fields.required, lookup, hduration, hstart, hfps, readNat_int 32 fits.width, readNat_int 32 fits.height,
    readNat_int 32 fits.sampleRate, readNat_int 16 fits.channels, readString_text, readBool]

/-- It is not read back if one of them is not. -/
theorem ofJson?_infinite {x : Float} (hx : x ∈ m.scalars) (infinite : x.isFinite = false) :
    (ofJson? (m.toJson ofScalar) : Option (MediaInfo Float)) = none := by
  have hnone := readScalar_infinite infinite
  unfold ofJson? toJson
  rw [fields?_record (by rfl) (by decide)]
  simp only [scalars, List.mem_cons, List.not_mem_nil, or_false] at hx
  rcases hx with rfl | rfl | rfl <;> simp [Fields.required, lookup, hnone]

end MediaInfo

namespace BufferStatus

theorem toJson_legal (b : BufferStatus) : b.toJson.Legal := by
  simp [toJson, record, Legal, LegalEntries, int, Number.ofInt_legal]

theorem ofJson?_toJson {b : BufferStatus} (fits : b.Fits) : ofJson? b.toJson = some b := by
  unfold ofJson? toJson
  rw [fields?_record (by rfl) (by decide)]
  simp [Fields.required, lookup, readNat_int 64 fits.videoPackets, readNat_int 64 fits.audioPackets,
    readNat_int 64 fits.videoFrames, readNat_int 64 fits.audioFrames, readNat_int 64 fits.framesDropped,
    readNat_int 64 fits.audioUnderruns]

end BufferStatus

theorem PlaybackState.readName_name (state : PlaybackState) :
    readName PlaybackState.name PlaybackState.all (text state.name) = some state :=
  readName_text (by decide) (by cases state <;> decide)

/-! ## The whole -/

namespace PlayerState

variable {s : PlayerState Float}

theorem toJson_legal (s : PlayerState Float) : (s.toJson ofScalar).Legal := by
  have hinfo : Json.Legal ((s.mediaInfo.map (·.toJson ofScalar)).getD Json.null) := by
    cases s.mediaInfo with
    | none => trivial
    | some m => exact m.toJson_legal
  simp [toJson, record, Legal, LegalEntries, ofScalar_legal, text, hinfo, BufferStatus.toJson_legal]

/-- What a text is read as is what its JSON value describes. -/
theorem ofText?_toText (s : PlayerState Float) :
    (ofText? s.toText : Option (PlayerState Float)) = ofJson? (s.toJson ofScalar) := by
  rw [ofText?, toText, parse?_compact s.toJson_legal, Option.bind_some]

theorem readOptional_mediaInfo (fits : s.Fits) (reads : ∀ x ∈ s.scalars, ReadsBack x)
    (finite : ∀ x ∈ s.scalars, x.isFinite = true) :
    readOptional MediaInfo.ofJson? ((s.mediaInfo.map (·.toJson ofScalar)).getD .null) = some s.mediaInfo := by
  cases hinfo : s.mediaInfo with
  | none => rfl
  | some m =>
    have hsub : ∀ x ∈ m.scalars, x ∈ s.scalars := by
      intro x hx
      simp [scalars, hinfo, hx]
    have hread := MediaInfo.ofJson?_finite (fits.mediaInfo m hinfo) (fun x hx => reads x (hsub x hx))
      fun x hx => finite x (hsub x hx)
    show (MediaInfo.ofJson? (m.toJson ofScalar)).map some = some (some m)
    rw [hread]
    rfl

theorem ofJson?_finite (fits : s.Fits) (reads : ∀ x ∈ s.scalars, ReadsBack x)
    (finite : ∀ x ∈ s.scalars, x.isFinite = true) : ofJson? (s.toJson ofScalar) = some s := by
  have hread : ∀ x ∈ s.scalars, readScalar (ofScalar x) = some x :=
    fun x hx => readScalar_finite (reads x hx) (finite x hx)
  have hinfo := readOptional_mediaInfo fits reads finite
  simp only [scalars, List.cons_append, List.forall_mem_cons] at hread
  obtain ⟨hposition, hduration, hvolume, -⟩ := hread
  unfold ofJson? toJson
  rw [fields?_record (by rfl) (by decide)]
  simp [Fields.required, Fields.default, lookup, hposition, hduration, hvolume, hinfo, readBool,
    PlaybackState.readName_name, BufferStatus.ofJson?_toJson fits.buffer]

theorem ofJson?_infinite {x : Float} (hx : x ∈ s.scalars) (infinite : x.isFinite = false) :
    (ofJson? (s.toJson ofScalar) : Option (PlayerState Float)) = none := by
  have hnone := readScalar_infinite infinite
  unfold ofJson? toJson
  rw [fields?_record (by rfl) (by decide)]
  simp only [scalars, List.mem_append, List.mem_cons, List.not_mem_nil, or_false] at hx
  rcases hx with (rfl | rfl | rfl) | hx
  · simp [Fields.required, lookup, hnone]
  · simp [Fields.required, lookup, hnone]
  · simp [Fields.required, lookup, hnone]
  · cases hinfo : s.mediaInfo with
    | none => simp [hinfo] at hx
    | some m =>
      have hmedia : (MediaInfo.ofJson? (m.toJson ofScalar) : Option (MediaInfo Float)) = none :=
        MediaInfo.ofJson?_infinite (by simpa [hinfo] using hx) infinite
      have hoptional :
          (readOptional MediaInfo.ofJson? (m.toJson ofScalar) : Option (Option (MediaInfo Float))) = none := by
        show (MediaInfo.ofJson? (m.toJson ofScalar)).map some = none
        rw [hmedia]
        rfl
      simp [Fields.required, Fields.default, lookup, hoptional]

/-- A value that is not finite makes the whole text unreadable. -/
theorem unreadable {x : Float} (hx : x ∈ s.scalars) (infinite : x.isFinite = false) :
    (ofText? s.toText : Option (PlayerState Float)) = none := by
  rw [ofText?_toText, ofJson?_infinite hx infinite]

end PlayerState

/-- While nothing is opened, or the duration is unknown, what a player reports about itself is not finite. -/
theorem Player.duration_infinite {κa κv σ : Type} {p : Player Float κa κv σ}
    (unknown : p.mediaInfo = none ∨ ∃ m ∈ p.mediaInfo, m.duration.isNaN = true) :
    p.snapshot.duration.isFinite = false := by
  have hundefined : p.duration.isNaN = true := by
    rcases unknown with hnone | ⟨m, hm, hnan⟩
    · rw [Player.duration, hnone]
      decide +kernel
    · rw [Player.duration, Option.mem_def.mp hm]
      exact hnan
  cases hfinite : p.snapshot.duration.isFinite with
  | false => rfl
  | true => exact absurd ((float_defined_of_isFinite hfinite).symm.trans hundefined) nofun

/-- **A snapshot is read back exactly if it is finite.** Let the numbers of a snapshot fit their widths, and
let each of its scalars be read back from its own number, if it has one. Then reading the text of the snapshot
gives the snapshot itself if all its scalars are finite, and nothing otherwise. So what a player reports about
itself before anything was opened, or whenever the duration is unknown, cannot be read. -/
theorem snapshot_reads_back (s : PlayerState Float) (fits : s.Fits) (reads : ∀ x ∈ s.scalars, ReadsBack x) :
    PlayerState.ofText? s.toText = (if ∀ x ∈ s.scalars, x.isFinite = true then some s else none) ∧
    ∀ (κa κv σ : Type) (p : Player Float κa κv σ), p.snapshot = s →
      p.mediaInfo = none ∨ (∃ m ∈ p.mediaInfo, m.duration.isNaN = true) →
      (PlayerState.ofText? s.toText : Option (PlayerState Float)) = none := by
  refine ⟨?_, ?_⟩
  · split
    next finite => rw [PlayerState.ofText?_toText, PlayerState.ofJson?_finite fits reads finite]
    next hsome =>
      obtain ⟨x, hx, infinite⟩ : ∃ x ∈ s.scalars, x.isFinite = false := by
        refine Decidable.byContradiction fun hall => hsome fun x hx => ?_
        exact (Bool.not_eq_false _).mp fun infinite => hall ⟨x, hx, infinite⟩
      exact PlayerState.unreadable hx infinite
  · rintro κa κv σ p rfl unknown
    exact PlayerState.unreadable (by simp [PlayerState.scalars]) (Player.duration_infinite unknown)

/-- The snapshot of a player in the middle of a film. -/
def midFilm : PlayerState Float where
  state := .ready
  playWhenReady := true
  position := 12.25
  duration := 5400.5
  volume := 0.3
  muted := false
  mediaInfo := some ⟨5400.5, -0.5, 1920, 1080, 23.976, "h264 \"high\"", "aac\n", 48000, 2, false⟩
  buffer := ⟨30, 42, 3, 9, 7, 0⟩

/-- It is read back; that of a player with nothing opened is not. -/
theorem midFilm_reads_back :
    PlayerState.ofText? midFilm.toText = some midFilm ∧
      (PlayerState.ofText? (Player.make .default .obliging .silent : ScriptedPlayer Float).snapshot.toText :
        Option (PlayerState Float)) = none := by
  have reads : ∀ s : PlayerState Float,
      (∀ x ∈ s.scalars, ∀ n ∈ Number.ofDouble? x, Number.toDouble? n = some x) → ∀ x ∈ s.scalars, ReadsBack x :=
    fun s h x hx n hn => h x hx n hn
  have hmid : midFilm.Fits :=
    ⟨fun m hm => by cases hm; exact ⟨by decide, by decide, by decide, by decide⟩,
      ⟨by decide, by decide, by decide, by decide, by decide, by decide⟩⟩
  have hnew : (Player.make .default .obliging .silent : ScriptedPlayer Float).snapshot.Fits :=
    ⟨fun m hm => (nomatch hm), ⟨by decide, by decide, by decide, by decide, by decide, by decide⟩⟩
  obtain ⟨hread, -⟩ := snapshot_reads_back midFilm hmid (reads _ (by decide +kernel))
  rw [if_pos (by decide +kernel)] at hread
  obtain ⟨-, hplayer⟩ := snapshot_reads_back _ hnew (reads _ (by decide +kernel))
  exact ⟨hread, hplayer _ _ _ _ rfl (.inl rfl)⟩

end Playback
