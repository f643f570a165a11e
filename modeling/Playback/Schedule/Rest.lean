/-!
# Running until rest

Threads take small steps; `settle` lets them take steps for as long as one of them has something to do.
-/

namespace Playback

/-- Repeats a step until it has nothing to do, at most so often. -/
def settle {σ : Type} (step? : σ → Option σ) : Nat → σ → σ
  | 0, s => s
  | fuel + 1, s =>
    match step? s with
    | none => s
    | some s => settle step? fuel s

end Playback
