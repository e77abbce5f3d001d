import TensorConcat.Iteration.Window
import TensorConcat.Tensor.Descriptor

/-! Access patterns: the part of a tensor's plane that is touched while a window is walked. A tensor
that is not allocated yet gets the padding this needs; for one that is allocated, the window is
narrowed to what its padding admits. -/

namespace TensorConcat

/-- A rectangle of columns and rows, the ends excluded. -/
structure Box where
  left : Int
  right : Int
  top : Int
  bottom : Int
deriving DecidableEq, Repr

inductive AccessPattern where
  | fixed (box : Box)
  /-- The given number of columns from `offset` on, in the row where the window stands. -/
  | horizontal (offset width : Int)
deriving DecidableEq, Repr

namespace Descriptor

def paddedPlane (d : Descriptor) : Box where
  left := -signed64 d.padding.left
  right := signed64 (d.extent 0) + signed64 d.padding.right
  top := -signed64 d.padding.top
  bottom := signed64 (d.extent 1) + signed64 d.padding.bottom

end Descriptor

namespace Span

/-- The range without as many steps as cover `before` at its start and `after` at its end. -/
def narrow (s : Span) (before after : Int) : Span :=
  let start := if 0 < before then s.start + stepsOver before s.step * s.step else s.start
  let stop := if 0 < after then s.stop - stepsOver after s.step * s.step else s.stop
  ⟨start, max stop start, s.step, s.step_pos⟩

end Span

namespace AccessPattern

def box (p : AccessPattern) (w : Window) : Box :=
  match p with
  | .fixed b => b
  | .horizontal offset width =>
    let x := w.span Axis.x
    let y := w.span Axis.y
    ⟨x.start + offset, x.stop - x.step + offset + width, y.start, y.stop - y.step + 1⟩

def requiredPadding (p : AccessPattern) (w : Window) (d : Descriptor) : Padding :=
  let b := p.box w
  ⟨(-b.top).toNat, (b.right - signed64 (d.extent 0)).toNat,
    (b.bottom - signed64 (d.extent 1)).toNat, (-b.left).toNat⟩

/-- The part of the window whose accesses stay in the padded plane of an allocated tensor; none if
the window need not change. A fixed rectangle that does not fit leaves no point. -/
def narrow? (p : AccessPattern) (w : Window) (d : Descriptor) : Option Window :=
  if d.resizable then none
  else
    let b := p.box w
    let plane := d.paddedPlane
    match p with
    | .fixed _ =>
      if plane.left ≤ b.left ∧ b.right ≤ plane.right ∧ plane.top ≤ b.top ∧ b.bottom ≤ plane.bottom
      then none else some .empty
    | .horizontal .. =>
      let columns := (plane.left - b.left, b.right - plane.right)
      let rows := (plane.top - b.top, b.bottom - plane.bottom)
      let narrowX := 0 < columns.1 ∨ 0 < columns.2
      let narrowY := 0 < rows.1 ∨ 0 < rows.2
      if narrowX ∨ narrowY then
        let x := w.span Axis.x
        let y := w.span Axis.y
        some ((w.set Axis.x (if narrowX then x.narrow columns.1 columns.2 else x)).set Axis.y
          (if narrowY then y.narrow rows.1 rows.2 else y))
      else none

def extend (p : AccessPattern) (w : Window) (d : Descriptor) : Descriptor :=
  d.extend (p.requiredPadding w d)

end AccessPattern

structure Access where
  descriptor : Descriptor
  pattern : AccessPattern
deriving DecidableEq, Repr

namespace Access

def narrowAll (w : Window) : List Access → Window × Bool
  | [] => (w, false)
  | a :: rest =>
    match a.pattern.narrow? w a.descriptor with
    | none => narrowAll w rest
    | some narrower => ((narrowAll narrower rest).1, true)

/-- Narrows the window for all tensors, then extends their padding for what is left of it. -/
def merge (w : Window) (accesses : List Access) : Window × List Descriptor × Bool :=
  let (final, changed) := narrowAll w accesses
  (final, accesses.map fun a => a.pattern.extend final a.descriptor, changed)

end Access
end TensorConcat
