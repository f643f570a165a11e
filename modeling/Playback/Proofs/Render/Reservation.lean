import Playback.Decode.Decoder
import Playback.Proofs.Ring.Refinement
import Playback.Proofs.Schedule.Pending

/-!
# Room that is reserved for what was requested

A renderer requests a block or a picture when its ring has room, and puts it into the ring when it comes. What becomes
of the ring in between is up to others: the device takes blocks out, refreshes take pictures out, a flush or a stop
drops what is there. None of them puts anything in (`Ring.Loses`), and as long as a request is under way no other is
made. So the room that a request was made for is still there when its result comes (`Reserved`).

A request is under way from the moment at which the renderer is marked until the result is in its hands. First an
attempt has yet to ask the decoder; then a task waits at the decoder or is worked on (`Decoder.requests`); then the
result waits for the renderer's thread. `RequestView` counts all of them, and says what each step makes of them.
-/

namespace Playback

variable {α κ : Type}

/-! ## Rings that lose elements -/

namespace Ring

variable {r r' r'' : Ring α}

/-- One ring holds part of what another one of the same size holds. -/
def Loses (r r' : Ring α) : Prop :=
  ∀ l, r.Holds l → ∃ l', r'.Holds l' ∧ l'.Sublist l ∧ r'.capacity = r.capacity

theorem Loses.refl (r : Ring α) : r.Loses r :=
  fun l h => ⟨l, h, .refl l, rfl⟩

theorem Loses.trans (h : r.Loses r') (h' : r'.Loses r'') : r.Loses r'' := by
  intro l hl
  obtain ⟨l', hl', hsub, hcapacity⟩ := h l hl
  obtain ⟨l'', hl'', hsub', hcapacity'⟩ := h' l' hl'
  exact ⟨l'', hl'', hsub'.trans hsub, hcapacity'.trans hcapacity⟩

theorem Loses.intact (h : r.Loses r') (hr : r.Intact) : r'.Intact := by
  obtain ⟨l, hl⟩ := hr
  obtain ⟨l', hl', -, -⟩ := h l hl
  exact ⟨l', hl'⟩

theorem Holds.room_iff {l : List α} (h : r.Holds l) : r.isFull = false ↔ l.length < r.capacity := by
  have hbound := h.bound
  rw [Ring.isFull, h.full, decide_eq_false_iff_not]
  omega

/-- Where there was room there still is. -/
theorem Loses.room (h : r.Loses r') (hr : r.Intact) (room : r.isFull = false) : r'.isFull = false := by
  obtain ⟨l, hl⟩ := hr
  obtain ⟨l', hl', hsub, hcapacity⟩ := h l hl
  have hlt := hl.room_iff.mp room
  have hle := hsub.length_le
  exact hl'.room_iff.mpr (by omega)

theorem popFront_loses (r : Ring α) : r.Loses r.popFront.2 := by
  intro l hl
  cases l with
  | nil =>
    rw [hl.popFront_nil]
    exact ⟨[], hl, .refl _, rfl⟩
  | cons a l => exact ⟨l, hl.popFront_cons.2, List.sublist_cons_self a l, r.popFront_capacity⟩

theorem retain_loses (r : Ring α) (keep : α → Bool) : r.Loses (r.retain keep) :=
  fun _ hl => ⟨_, hl.retain keep, List.filter_sublist, rotate_capacity keep _ r⟩

theorem clear_loses (r : Ring α) : r.Loses r.clear := by
  intro l hl
  have hpos : 0 < r.capacity := Nat.lt_of_le_of_lt (Nat.zero_le _) hl.front
  have hcapacity : r.clear.capacity = max r.capacity 1 := Array.size_replicate
  exact ⟨[], r.clear_holds, List.nil_sublist l, hcapacity.trans (by omega)⟩

/-- An element for which there is room comes last. -/
theorem Intact.accepts (h : r.Intact) (room : r.isFull = false) (a : α) :
    (r.pushBack a).1 = true ∧ (r.pushBack a).2.toList = r.toList ++ [a] := by
  obtain ⟨l, hl⟩ := h
  obtain ⟨haccepted, hholds, -⟩ := hl.pushBack (hl.room_iff.mp room) a
  rw [hholds.toList, hl.toList]
  exact ⟨haccepted, rfl⟩

end Ring

/-! ## Room that is reserved -/

/-- There is room in the ring for what the requests under way will bring: at most one is under way, the renderer is
marked while it is, and the ring is not full. -/
structure Reserved (requests : Nat) (reading : Bool) (ring : Ring α) : Prop where
  single : requests ≤ 1
  marked : 0 < requests → reading = true
  room : 0 < requests → ring.isFull = false
  intact : ring.Intact

namespace Reserved

variable {n m : Nat} {reading : Bool} {ring ring' : Ring α}

theorem fewer (h : Reserved n reading ring) (hle : m ≤ n) : Reserved m reading ring where
  single := Nat.le_trans hle h.single
  marked hm := h.marked (Nat.lt_of_lt_of_le hm hle)
  room hm := h.room (Nat.lt_of_lt_of_le hm hle)
  intact := h.intact

theorem loses (h : Reserved n reading ring) (hring : ring.Loses ring') : Reserved n reading ring' where
  single := h.single
  marked := h.marked
  room hn := hring.room h.intact (h.room hn)
  intact := hring.intact h.intact

/-- Without a mark no request is under way. -/
theorem none (h : Reserved n false ring) : n = 0 := by
  by_contra hn
  exact absurd (h.marked (Nat.pos_of_ne_zero hn)) Bool.false_ne_true

/-- A request for which there is room. -/
theorem begun (h : Reserved n false ring) (room : ring.isFull = false) : Reserved (n + 1) true ring where
  single := Nat.le_of_eq (congrArg (· + 1) h.none)
  marked _ := rfl
  room _ := room
  intact := h.intact

/-- A request ends, whatever it puts into the ring. -/
theorem ended (h : Reserved (n + 1) reading ring) (intact : ring'.Intact) : Reserved n false ring' := by
  have hn : n = 0 := by
    have hsingle := h.single
    omega
  subst hn
  exact ⟨Nat.zero_le _, fun hpos => absurd hpos (Nat.lt_irrefl 0), fun hpos => absurd hpos (Nat.lt_irrefl 0), intact⟩

end Reserved

/-! ## Requests at a decoder -/

namespace Decoder

variable {φ τ : Type}

/-- The requests that wait at a decoder and the one that it works on. -/
def requests (d : Decoder κ φ τ) : Nat :=
  d.loop.waiting (fun _ => true) + d.current.isSome.toNat

theorem request_requests (d : Decoder κ φ τ) (handle : ReadHandle) (now : Nat) (tag : τ) :
    (d.request handle now tag).2.requests = d.requests + (d.request handle now tag).1.toNat := by
  cases handle with
  | none => rfl
  | some runner =>
    have hpost := d.loop.waiting_post (fun _ => true) now 0 tag (some runner) 0
    rw [Bool.and_true] at hpost
    show (d.loop.post now 0 tag (some runner)).2.waiting _ + _ = _
    rw [hpost, requests, Nat.add_right_comm]
    rfl

theorem cancel_requests_le (d : Decoder κ φ τ) (handle : ReadHandle) : (d.cancel handle).requests ≤ d.requests := by
  cases handle with
  | none => exact Nat.le_refl _
  | some runner => exact Nat.add_le_add_right (d.loop.waiting_remove_le _ runner .none) _

theorem abort_requests_le (d : Decoder κ φ τ) (q : PacketQueue) : (d.abort q).1.requests ≤ d.requests :=
  cancel_requests_le { d with core := { d.core with abort := true } } d.runner

theorem join_requests_le (d : Decoder κ φ τ) : d.join.requests ≤ d.requests := by
  unfold join
  split
  next => exact Nat.le_refl _
  next =>
    have hquit := (d.cancel d.runner).loop.waiting_quit_le fun _ => true
    exact Nat.le_trans (Nat.add_le_add_right hquit _) (d.cancel_requests_le d.runner)

end Decoder

def DecoderEvent.isFinished {Out τ : Type} : DecoderEvent Out τ → Bool
  | .finished .. => true
  | _ => false

/-- A step of a decoder's thread loses no request: one is less exactly if it is finished. -/
theorem Decoder.step_requests {φ Raw Out τ : Type} [Codec κ Raw] [Finisher φ Raw Out] (d : Decoder κ φ τ)
    (q : PacketQueue) (now : Nat) :
    (d.step q now).2.1.requests + (d.step q now).1.isFinished.toNat = d.requests := by
  unfold step
  cases hcurrent : d.current with
  | some working =>
    obtain ⟨tag, phase⟩ := working
    dsimp only
    rcases d.core.step q phase with ⟨progress, core, q'⟩
    cases progress with
    | go next => simp [requests, DecoderEvent.isFinished, hcurrent]
    | notify next => simp [requests, DecoderEvent.isFinished, hcurrent]
    | done result => simp [requests, DecoderEvent.isFinished, hcurrent]
  | none =>
    dsimp only
    cases hnext : d.loop.next? now with
    | none =>
      dsimp only
      split
      next => simp [requests, DecoderEvent.isFinished, hcurrent, Loop.finish, Loop.waiting]
      next => rfl
    | some taken =>
      -- the request that no longer waits is the one that is worked on
      obtain ⟨tag, loop⟩ := taken
      have hwaiting := Loop.waiting_next? (fun _ => true) hnext
      simp [requests, DecoderEvent.isFinished, hcurrent, hwaiting]

/-! ## What matters of a pipeline -/

/-- The requests of a pipeline, its renderer's mark and its ring. -/
structure RequestView (α : Type) where
  /-- Requests at the decoder. -/
  requests : Nat
  /-- Results that wait for the renderer's thread. -/
  results : Nat
  /-- Whether the renderer's thread takes no more tasks. -/
  quitting : Bool
  reading : Bool
  ring : Ring α

namespace RequestView

variable {v v' : RequestView α} {n : Nat}

/-- There is room for what the requests under way will bring, with so many attempts among them that have yet to ask the
decoder; and the renderer's thread takes the results. -/
structure Reserves (n : Nat) (v : RequestView α) : Prop where
  reserved : Reserved (v.requests + v.results + n) v.reading v.ring
  running : v.quitting = false

/-- What takes requests back and elements out of the ring leaves the room for the others. -/
theorem Reserves.keeps (h : v.Reserves n) (requests : v'.requests ≤ v.requests) (results : v'.results ≤ v.results)
    (quitting : v'.quitting = v.quitting) (reading : v'.reading = v.reading) (ring : v.ring.Loses v'.ring) :
    v'.Reserves n where
  reserved := by
    rw [reading]
    exact (h.reserved.loses ring).fewer (Nat.add_le_add_right (Nat.add_le_add requests results) n)
  running := quitting.trans h.running

/-- An attempt is begun. -/
theorem Reserves.begun (h : v.Reserves n) (idle : v.reading = false) (room : v.ring.isFull = false) :
    { v with reading := true }.Reserves (n + 1) := by
  have hreserved := h.reserved
  rw [idle] at hreserved
  exact ⟨hreserved.begun room, h.running⟩

/-- The decoder is asked; if it refuses, the mark is taken off. -/
theorem Reserves.submitted (h : v.Reserves (n + 1)) {requests : Nat} {accepted : Bool}
    (asked : requests = v.requests + accepted.toNat) :
    { v with requests, reading := accepted && v.reading }.Reserves n := by
  subst asked
  cases accepted with
  | true => exact ⟨h.reserved.fewer (by dsimp only [Bool.toNat_true]; omega), h.running⟩
  | false => exact ⟨h.reserved.ended h.reserved.intact, h.running⟩

/-- A request that is finished becomes a result. -/
theorem Reserves.decoded (h : v.Reserves n) {requests : Nat} {finished : Bool}
    (left : requests + finished.toNat = v.requests) :
    { v with requests, results := v.results + finished.toNat }.Reserves n :=
  ⟨h.reserved.fewer (by dsimp only; omega), h.running⟩

/-- A result comes into the renderer's hands. -/
theorem Reserves.delivered {results : Nat} (h : v.Reserves n) (some : v.results = results + 1) {ring : Ring α}
    (intact : ring.Intact) : { v with results, reading := false, ring }.Reserves n := by
  refine ⟨Reserved.ended (h.reserved.fewer ?_) intact, h.running⟩
  dsimp only
  omega

/-- The ring takes what a result brings. -/
theorem Reserves.takes {results : Nat} (h : v.Reserves n) (some : v.results = results + 1) (a : α) :
    (v.ring.pushBack a).1 = true ∧ (v.ring.pushBack a).2.toList = v.ring.toList ++ [a] :=
  h.reserved.intact.accepts (h.reserved.room (by omega)) a

/-- A pipeline without requests. -/
theorem Reserves.of_empty (ring : v.ring.Intact) (requests : v.requests = 0) (results : v.results = 0)
    (running : v.quitting = false) : v.Reserves 0 := by
  refine ⟨⟨?_, ?_, ?_, ring⟩, running⟩ <;> omega

end RequestView

/-- A pipeline on which several threads work. -/
structure Requesting (π : Type) where
  pipeline : π
  /-- How many attempts to request something have marked the renderer and have yet to ask the decoder. -/
  begun : Nat

end Playback
