import Playback.Demux.Source
import Playback.Media.Frame

/-!
# Scripted sources

A source with a given list of packets, which may fail at a place, refuse to seek, and pretend to be at its
end for a while. The seeks it gets are noted.
-/

namespace Playback

/-- A regular series of packets: packet `i` belongs to the stream `i mod k` of `k` streams, all packets with
the same quotient have the same time. -/
structure PacketSeries where
  count : Nat
  streams : List StreamKind
  /-- The ticks from one time to the next. -/
  step : Int
  duration : Int
  size : Nat
  /-- Whether the bytes count up from the number of the packet; otherwise they are zero. -/
  ramp : Bool
  timeBase : Ratio
deriving Repr

/-- The packets of a series. -/
def PacketSeries.packets (s : PacketSeries) : List Packet :=
  (List.range s.count).filterMap fun i =>
    s.streams[i % s.streams.length]?.map fun stream =>
      let pts : Int := (i / s.streams.length : Nat) * s.step
      { stream
        data := (List.range s.size).map fun j => if s.ramp then UInt8.ofNat (i + j) else 0
        pts := some pts
        dts := some pts
        duration := s.duration
        timeBase := s.timeBase
        isKey := false }

structure ScriptedSource (R : Type) where
  packets : Array Packet
  info : MediaInfo R
  audio : Option StreamInfo
  video : Option StreamInfo
  seekable : Bool
  /-- The index of the packet in whose place there is an error. -/
  failAt : Option (Nat × PlayerError)
  seekError : Option PlayerError
  /-- Before the packet of an index the source pretends to be at its end so often. -/
  gaps : List (Nat × Nat)
  /-- The index of the next packet. -/
  next : Nat
  /-- The positions of the seeks so far, newest first. -/
  seeks : List R
deriving Repr

namespace ScriptedSource

variable {R : Type} [Scalar R]

/-- Uses up one of the gaps at an index, if there is one. -/
def takeGap (index : Nat) : List (Nat × Nat) → Option (List (Nat × Nat))
  | [] => none
  | (i, count) :: rest =>
    if i = index ∧ 0 < count then some ((i, count - 1) :: rest)
    else (takeGap index rest).map ((i, count) :: ·)

def read (s : ScriptedSource R) : Except PlayerError (Option Packet) × ScriptedSource R :=
  match s.failAt.filter (·.1 = s.next) with
  | some (_, e) => (.error e, s)
  | none =>
    match takeGap s.next s.gaps with
    | some gaps => (.ok none, { s with gaps })
    | none =>
      match s.packets[s.next]? with
      | some p => (.ok (some p), { s with next := s.next + 1 })
      | none => (.ok none, s)

/-- Goes to the first packet that is not before a position. -/
def seek (s : ScriptedSource R) (position : R) : Except PlayerError Unit × ScriptedSource R :=
  let s := { s with seeks := position :: s.seeks }
  match s.seekError with
  | some e => (.error e, s)
  | none =>
    let reached (p : Packet) : Bool := (p.seconds? : Option R).any (position ≤ ·)
    (.ok (), { s with next := (s.packets.findIdx? reached).getD s.packets.size })

instance : Source (ScriptedSource R) R where
  read := read
  seek := seek
  info := info
  stream? s
    | .audio => s.audio
    | .video => s.video
  isSeekable := seekable

/-- The positions of the seeks so far, oldest first, and the source without them. -/
def takeSeeks (s : ScriptedSource R) : List R × ScriptedSource R :=
  (s.seeks.reverse, { s with seeks := [] })

end ScriptedSource
end Playback
