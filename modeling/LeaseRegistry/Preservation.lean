import LeaseRegistry.Lease

/-!
# Self-preservation

Renewals are counted in windows of fixed length. If the renewals of the last complete window fall
too far short of what the registered instances promise, the fault is taken to lie in the network
of this server, and eviction is held back. Window numbers and counts stop at their 32-bit maximum.
-/

namespace LeaseRegistry

namespace Preservation

structure Settings where
  enabled : Bool
  /-- The fraction of the promised renewals that must be seen. -/
  threshold : Float
  window : Millis

def defaultThreshold : Float := 0.85

def Settings.standard : Settings := ⟨true, defaultThreshold, 60000⟩

/-- The number of a window and the renewals counted in it. -/
structure Window where
  index : Nat
  count : Nat
  deriving DecidableEq, Repr

namespace Window

/-- The largest window number and the largest count. -/
def limit : Nat := UInt32.size - 1

def make (index count : Nat) : Window := ⟨min index limit, min count limit⟩

/-- The later window, and of one window the larger count. -/
def latest (a b : Window) : Window :=
  if a.index < b.index ∨ (a.index = b.index ∧ a.count ≤ b.count) then b else a

end Window

structure Verdict where
  observed : Float
  expected : Float
  /-- Their ratio, if any are promised. -/
  ratio : Option Float
  /-- Eviction may go on. -/
  allowed : Bool

end Preservation

open Preservation

structure Preservation where
  settings : Settings
  startedAt : Time
  /-- The window that renewals are counted in. -/
  current : Window
  previous : Window
  /-- Renewals per minute that the registered instances promise. -/
  expected : Float
  anomalies : UInt64

namespace Preservation

def start (settings : Settings) (now : Time) : Preservation where
  settings := settings
  startedAt := now
  current := .make 0 0
  previous := .make 0 0
  expected := 0
  anomalies := 0

/-- The length of a window, at least one millisecond, in 64 bits. -/
def windowLength (p : Preservation) : UInt64 :=
  max (UInt64.ofNat p.settings.window) 1

def windowIndex (p : Preservation) (now : Time) : Nat :=
  ((p.startedAt.since now) / p.windowLength).toNat

/-- Counts a renewal in its window, or in the open one if it comes late. -/
def record (p : Preservation) (now : Time) : Preservation :=
  if p.current.index < p.windowIndex now then
    { p with current := .make (p.windowIndex now) 1, previous := p.previous.latest p.current }
  else
    { p with current := .make p.current.index (p.current.count + 1) }

/-- The renewals counted in window `index`; a window in which none was counted has none. -/
def countIn (p : Preservation) (index : Nat) : Nat :=
  if p.current.index = index then p.current.count
  else if p.previous.index = index then p.previous.count
  else 0

/-- The renewals counted in the last complete window before `now`. -/
def lastCount (p : Preservation) (now : Time) : Nat :=
  match p.windowIndex now with
  | 0 => 0
  | index + 1 => p.countIn index

def observed (p : Preservation) (now : Time) : Float :=
  (p.lastCount now).toUInt64.toFloat * 60000 / p.windowLength.toFloat

def setExpected (p : Preservation) (perMinute : Float) : Preservation :=
  { p with expected := perMinute }

/-- Eviction goes on if nothing is promised, if enough renewals were seen, or if the rule is
switched off. -/
def evaluate (p : Preservation) (now : Time) : Verdict :=
  let observed := p.observed now
  let ratio := if p.expected > 0 then some (observed / p.expected) else none
  let healthy := match ratio with
    | some r => decide (r ≥ p.settings.threshold)
    | none => true
  ⟨observed, p.expected, ratio, !p.settings.enabled || healthy⟩

def recordAnomaly (p : Preservation) : Preservation :=
  { p with anomalies := p.anomalies + 1 }

end Preservation

end LeaseRegistry
