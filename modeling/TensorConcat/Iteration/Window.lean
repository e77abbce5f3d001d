import TensorConcat.Axis
import TensorConcat.Numeric.Rounding

/-! Iteration windows: a range with a step along each axis. -/

namespace TensorConcat

/-- The points `start`, `start + step`, … before `stop`. -/
structure Span where
  start : Int
  stop : Int
  step : Int
  step_pos : 0 < step := by decide
deriving DecidableEq, Repr

namespace Span

def between (start stop : Int) : Span where
  start := start
  stop := stop
  step := 1

def unit : Span := between 0 1

def empty : Span := between 0 0

def single (i : Int) : Span := between i (i + 1)

def ofBounds? (start stop step : Int) : Option Span :=
  if h : 0 < step then some ⟨start, stop, step, h⟩ else none

def iterations (s : Span) : Int :=
  if s.stop ≤ s.start then 0 else stepsOver (s.stop - s.start) s.step

def wholeSteps (s : Span) : Nat :=
  (max (s.stop - s.start) 0 / s.step).toNat

/-- The range starts and ends in the other one and keeps to its points. -/
def IsWithin (s full : Span) : Prop :=
  full.start ≤ s.start ∧ s.stop ≤ full.stop ∧ s.step = full.step ∧
    (s.start - full.start) % s.step = 0

instance (s full : Span) : Decidable (s.IsWithin full) :=
  inferInstanceAs (Decidable (_ ∧ _ ∧ _ ∧ _))

def text (s : Span) : String :=
  s!"Dimension \x7b start: {s.start}, end: {s.stop}, step: {s.step} \x7d"

end Span

structure Window where
  spans : Vector Span 6
deriving DecidableEq, Repr

namespace Window

def span (w : Window) (a : Axis) : Span :=
  w.spans.get a

def ofSpans (f : Axis → Span) : Window :=
  ⟨Vector.ofFn f⟩

def set (w : Window) (a : Axis) (s : Span) : Window :=
  ofSpans fun b => if b = a then s else w.span b

def unit : Window :=
  ofSpans fun _ => .unit

def empty : Window :=
  ofSpans fun _ => .empty

def iterations (w : Window) : List Int :=
  (List.finRange 6).map fun a => (w.span a).iterations

def totalIterations (w : Window) : Int :=
  w.iterations.foldr (· * ·) 1

def IsWithin (w full : Window) : Prop :=
  ∀ a, (w.span a).IsWithin (full.span a)

instance (w full : Window) : Decidable (w.IsWithin full) :=
  Nat.decidableForallFin _

def text (w : Window) : String :=
  "Window \x7b dims: ["
    ++ ", ".intercalate ((List.finRange 6).map fun a => (w.span a).text) ++ "] \x7d"

@[simp] theorem span_ofSpans (f : Axis → Span) (a : Axis) : (ofSpans f).span a = f a := by
  simp only [ofSpans, span, Vector.get, Vector.toArray_ofFn, Array.getElem_ofFn]
  rfl

@[simp] theorem span_set (w : Window) (a b : Axis) (s : Span) :
    (w.set a s).span b = if b = a then s else w.span b := by
  simp [set]

theorem ext_span {v w : Window} (h : ∀ a, v.span a = w.span a) : v = w := by
  cases v with
  | mk vs =>
    cases w with
    | mk ws =>
      congr
      ext i hi : 1
      exact h ⟨i, hi⟩

end Window
end TensorConcat
