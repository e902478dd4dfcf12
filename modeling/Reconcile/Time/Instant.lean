/-!
# Instants and spans

An instant is a point on the UTC time line to the nanosecond. Only the years -262143 to 262142 can
be written, so an instant carries the proof that it lies in that range, and moving an instant by a
span may have no result. A span is a signed number of nanoseconds and has no such bound.
-/

namespace Reconcile

def nanosPerSecond : Nat := 1000000000

structure Span where
  nanos : Int
deriving DecidableEq, Repr

namespace Span

/-- Whole seconds, the fraction dropped toward zero. -/
def wholeSeconds (s : Span) : Int :=
  s.nanos.tdiv nanosPerSecond

/-- What `wholeSeconds` drops; it has the sign of the span. -/
def restNanos (s : Span) : Int :=
  s.nanos.tmod nanosPerSecond

end Span

/-- Nanoseconds from the epoch to the first instant, the start of year -262143. -/
def firstNanos : Int := -8334601228800 * nanosPerSecond

/-- Nanoseconds from the epoch to the last instant, the end of year 262142. -/
def lastNanos : Int := 8210266876800 * nanosPerSecond - 1

/-- A point in time that can be written as a date. -/
@[ext]
structure Instant where
  nanos : Int
  inRange : firstNanos ≤ nanos ∧ nanos ≤ lastNanos
deriving DecidableEq, Repr

namespace Instant

instance : LE Instant := ⟨fun a b => a.nanos ≤ b.nanos⟩

instance : LT Instant := ⟨fun a b => a.nanos < b.nanos⟩

instance (a b : Instant) : Decidable (a ≤ b) := inferInstanceAs (Decidable (a.nanos ≤ b.nanos))

instance (a b : Instant) : Decidable (a < b) := inferInstanceAs (Decidable (a.nanos < b.nanos))

theorem le_def {a b : Instant} : a ≤ b ↔ a.nanos ≤ b.nanos := Iff.rfl

def ofNanos? (n : Int) : Option Instant :=
  if h : firstNanos ≤ n ∧ n ≤ lastNanos then some ⟨n, h⟩ else none

def ofSeconds? (s : Int) : Option Instant :=
  ofNanos? (s * nanosPerSecond)

def epoch : Instant := ⟨0, by decide⟩

/-- Whole seconds since the epoch, rounded down. -/
def seconds (t : Instant) : Int :=
  t.nanos / nanosPerSecond

def subsecond (t : Instant) : Nat :=
  (t.nanos % nanosPerSecond).toNat

/-- The span that lies between an earlier instant and this one. -/
def since (t earlier : Instant) : Span :=
  ⟨t.nanos - earlier.nanos⟩

def plus? (t : Instant) (s : Span) : Option Instant :=
  ofNanos? (t.nanos + s.nanos)

def minus? (t : Instant) (s : Span) : Option Instant :=
  ofNanos? (t.nanos - s.nanos)

theorem ofNanos?_eq_some_iff {n : Int} {t : Instant} : ofNanos? n = some t ↔ t.nanos = n := by
  unfold ofNanos?
  constructor
  · intro h
    split at h
    · cases h; rfl
    · cases h
  · rintro rfl
    rw [dif_pos t.inRange]

theorem ofNanos?_nanos (t : Instant) : ofNanos? t.nanos = some t :=
  ofNanos?_eq_some_iff.2 rfl

end Instant

end Reconcile
