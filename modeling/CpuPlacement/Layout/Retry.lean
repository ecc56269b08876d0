import CpuPlacement.Layout.Grid

/-!
# Building with retries

A source of layouts may fail now and then, as a platform probe does. It is asked a number of times,
at least once; when every attempt fails, a flat layout takes the place of the real one, so that
there always is a layout.
-/

set_option autoImplicit false

namespace CpuPlacement.Layout

/-- Attempts for callers that have no better number. -/
def defaultAttempts : Nat := 3

/-- A layout and the number of times that the source was asked for it. -/
structure Built where
  layout : Layout
  calls : Nat

/-- Asks the source, which is told the number of the call, up to a number of times more. -/
def buildFrom {ε : Type} (source : Nat → Except ε Layout) (fallbackCpus : Nat) (call : Nat) :
    Nat → Built
  | 0 => ⟨flat fallbackCpus, call⟩
  | more + 1 =>
    match source call with
    | .ok layout => ⟨layout, call + 1⟩
    | .error _ => buildFrom source fallbackCpus (call + 1) more

/-- The layout of the first successful attempt, or a flat one. -/
def buildWithRetry {ε : Type} (source : Nat → Except ε Layout) (attempts fallbackCpus : Nat) :
    Built :=
  buildFrom source fallbackCpus 0 (max attempts 1)

end CpuPlacement.Layout
