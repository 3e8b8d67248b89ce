/-!
When the loop of a watcher looks at the files.

A pass is due once the interval has gone by since the last one began. Until then the loop sleeps,
in slices if there is something it has to look out for. Times may be of any kind that can be
subtracted and compared.
-/

namespace TreeWatch.Schedule

universe u

variable {τ : Type u}

/-- What the loop does after a look at the clock. -/
inductive Decision (τ : Type u)
  | stop
  | tick
  | sleep (duration : τ)
  deriving DecidableEq, Repr

/-- The lesser of two times, or the first one where they cannot be compared. -/
def earlier [LT τ] [DecidableLT τ] (first second : τ) : τ :=
  if second < first then second else first

/-- The time that is left to sleep when the last pass began at `started`. -/
def remaining [Sub τ] (interval started now : τ) : τ := interval - (now - started)

/-- A set cancel flag is heeded at once; a stop is heeded where a pass would begin, and ends a
sleep before it starts. -/
def decide [Sub τ] [Zero τ] [LE τ] [DecidableLE τ] [LT τ] [DecidableLT τ] (interval : τ)
    (slice : Option τ) (cancelled stopped : Bool) (started now : τ) : Decision τ :=
  if cancelled then .stop
  else if remaining interval started now ≤ 0 then
    if stopped then .stop else .tick
  else if stopped then .stop
  else
    .sleep
      (match slice with
        | none => remaining interval started now
        | some slice => earlier (remaining interval started now) slice)

end TreeWatch.Schedule
