import TensorConcat.Iteration.Window

/-! Merging the outer axes of a window into one. -/

namespace TensorConcat
namespace Window

/-- An axis starts at zero in steps of one and ends where that of `full` does. -/
def CollapsibleAt (w full : Window) (a : Axis) : Prop :=
  (w.span a).start = 0 ∧ (full.span a).start = 0 ∧ (w.span a).step ≤ 1 ∧
    (full.span a).stop = (w.span a).stop

instance (w full : Window) (a : Axis) : Decidable (w.CollapsibleAt full a) :=
  inferInstanceAs (Decidable (_ ∧ _ ∧ _ ∧ _))

/-- Every axis after `first` can be merged into it. -/
def Collapsible (w full : Window) (first : Axis) : Prop :=
  ∀ a, first < a → w.CollapsibleAt full a

instance (w full : Window) (first : Axis) : Decidable (w.Collapsible full first) :=
  Nat.decidableForallFin _

def mergedStop (w : Window) (first : Axis) : Int :=
  (((List.finRange 6).filter (first ≤ ·)).map fun a => (w.span a).stop).foldr (· * ·) 1

/-- The window with the axes after `first` merged into it, if they can be. -/
def collapse? (w full : Window) (first : Axis) : Option Window :=
  if w.Collapsible full first then
    some (ofSpans fun a =>
      if a < first then w.span a
      else if a = first then { w.span a with stop := w.mergedStop first }
      else .unit)
  else none

end Window
end TensorConcat
