import Playback.Player.Run

/-!
# Registries

A registry gives players ids under which they can be found. It has to be opened before players are
registered; closing it releases all of them. A player is known by its number among all players of a
program (`PlayerTable`), since it may be registered more than once and lives on when it is unregistered.
Time goes by for all players alike.
-/

namespace Playback

structure PlayerTable (R κa κv σ : Type) where
  /-- All players, by number. -/
  players : List (Player R κa κv σ)
  /-- The registered players: id and number. -/
  entries : List (Nat × Nat)
  /-- The id that was given last. -/
  lastId : Nat
  opened : Bool
  /-- The present time in nanoseconds. -/
  now : Nat

namespace PlayerTable

variable {R κa κv σ : Type}

def empty : PlayerTable R κa κv σ := ⟨[], [], 0, false, 0⟩

/-- Applies a change to a player. -/
def update (t : PlayerTable R κa κv σ) (number : Nat) (f : Player R κa κv σ → Player R κa κv σ) :
    PlayerTable R κa κv σ :=
  { t with players := t.players.modify number f }

/-- Adds a new player, which is not registered yet; gives its number. -/
def add (t : PlayerTable R κa κv σ) (p : Player R κa κv σ) : Nat × PlayerTable R κa κv σ :=
  (t.players.length, { t with players := t.players ++ [{ p with now := t.now }] })

/-- Opens the registry. -/
def openUp (t : PlayerTable R κa κv σ) : PlayerTable R κa κv σ := { t with opened := true }

/-- The error of a registry that is not open. -/
def notOpen : PlayerError := .state "登记表未初始化"

/-- Registers a player under a new id. -/
def register (t : PlayerTable R κa κv σ) (number : Nat) :
    Except PlayerError Nat × PlayerTable R κa κv σ :=
  if t.opened then
    let id := t.lastId + 1
    (.ok id, { t with lastId := id, entries := t.entries ++ [(id, number)] })
  else (.error notOpen, t)

/-- Makes a player and registers it. -/
def create {R : Type} [TextScalar R] (t : PlayerTable R κa κv σ) (config : PlayerConfig R)
    (device : AudioDevice) (filter : RateFilter R := .silent) : Except PlayerError Nat × PlayerTable R κa κv σ :=
  if t.opened then
    match Player.new config device filter with
    | .error e => (.error e, t)
    | .ok p =>
      let (number, t) := t.add p
      t.register number
  else (.error notOpen, t)

/-- The number of the player with an id. -/
def get? (t : PlayerTable R κa κv σ) (id : Nat) : Option Nat := t.entries.lookup id

/-- The registered ids, in ascending order. -/
def ids (t : PlayerTable R κa κv σ) : List Nat := t.entries.map (·.1)

variable [Scalar R]

/-- Stops the player with an id and forgets the id; gives the number of the player. -/
def unregister (t : PlayerTable R κa κv σ) (id : Nat) : Option Nat × PlayerTable R κa κv σ :=
  match t.get? id with
  | none => (none, t)
  | some number =>
    (some number, { t with entries := t.entries.filter (·.1 != id) }.update number Player.stop)

/-- Releases all registered players and forgets them; the registry has to be opened again. -/
def shutDown (t : PlayerTable R κa κv σ) : PlayerTable R κa κv σ :=
  if t.opened then
    t.entries.foldl (fun t (_, number) => t.update number Player.release)
      { t with opened := false, entries := [] }
  else t

/-- Lets time pass. -/
def advance (t : PlayerTable R κa κv σ) (nanos : Nat) : PlayerTable R κa κv σ :=
  { t with now := t.now + nanos, players := t.players.map (·.advance nanos) }

/-- Lets the threads of all players work until they wait, each player for at most so many steps. -/
def settle [Codec κa RawAudioFrame] [Codec κv RawVideoFrame] [Source σ R] (t : PlayerTable R κa κv σ)
    (fuel : Nat) : PlayerTable R κa κv σ :=
  { t with players := t.players.map (·.settle fuel) }

end PlayerTable
end Playback
