import TensorConcat.Iteration.Window

/-! Slices of a window: one point on each of the two outermost axes and the whole range on the four
others. They follow one another with the inner one of the two fastest. -/

namespace TensorConcat
namespace Window

def firstSlice (w : Window) : Window :=
  (w.set .outer (.single (w.span .outer).start)).set .outermost (.single (w.span .outermost).start)

def nextSlice? (w slice : Window) : Option Window :=
  let i := (slice.span .outer).start + 1
  let j := (slice.span .outermost).start + 1
  if i < (w.span .outer).stop then some (slice.set .outer (.single i))
  else if j < (w.span .outermost).stop then
    some ((slice.set .outermost (.single j)).set .outer (.single (w.span .outer).start))
  else none

/-- How far a slice is from the end of the window, on the outer and on the inner of its two axes. -/
def remaining (w slice : Window) (a : Axis) : Nat :=
  ((w.span a).stop - (slice.span a).start).toNat

theorem nextSlice?_lt {w slice next : Window} (h : w.nextSlice? slice = some next) :
    w.remaining next .outermost < w.remaining slice .outermost ∨
      w.remaining next .outermost = w.remaining slice .outermost ∧
        w.remaining next .outer < w.remaining slice .outer := by
  simp only [nextSlice?] at h
  split at h
  · obtain rfl := Option.some.inj h
    simp [remaining, Span.single, Span.between, Axis.outermost_ne_outer]
    omega
  · split at h
    · obtain rfl := Option.some.inj h
      simp [remaining, Span.single, Span.between, Axis.outermost_ne_outer]
      omega
    · simp at h

def forSlicesFrom {m : Type → Type} [Monad m] (w : Window) (action : Window → m Unit)
    (slice : Window) : m Unit := do
  action slice
  match _h : w.nextSlice? slice with
  | none => pure ()
  | some next => forSlicesFrom w action next
termination_by (w.remaining slice .outermost, w.remaining slice .outer)
decreasing_by
  rcases nextSlice?_lt _h with lt | ⟨eq, lt⟩
  · exact Prod.Lex.left _ _ lt
  · exact eq ▸ Prod.Lex.right _ lt

def forSlices {m : Type → Type} [Monad m] (w : Window) (action : Window → m Unit) : m Unit :=
  w.forSlicesFrom action w.firstSlice

end Window
end TensorConcat
