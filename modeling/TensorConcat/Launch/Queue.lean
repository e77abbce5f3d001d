import TensorConcat.Launch.Execution

/-! Queues of launches: they run in the order of their submission. -/

namespace TensorConcat

/-- A program with its arguments, to be run over a range, in groups of a size if one is given. -/
structure Launch where
  handle : Handle
  range : LaunchRange
  group? : Option LaunchRange
deriving DecidableEq, Repr

structure Queue where
  pending : List Launch
  completed : List Launch
deriving DecidableEq, Repr

namespace Queue

def empty : Queue := ⟨[], []⟩

def submit (q : Queue) (l : Launch) : Queue :=
  { q with pending := q.pending ++ [l] }

/-- Submits a launch for a window, unless it has nothing to do. A group size that does not fit the
range is dropped. -/
def submitWindow (q : Queue) (h : Handle) (w : Window) (hint? : Option LaunchRange) : Queue :=
  let range := LaunchRange.ofWindow w
  if range.isEmpty then q
  else q.submit ⟨h, range, hint?.filter (·.divides range)⟩

/-- Runs launches in order. The answer holds those that succeeded before the first failure, the
error if there was one, and the memory they left. -/
def runAll : List Launch → Memory → List Launch × Except Error Unit × Memory
  | [], m => ([], .ok (), m)
  | l :: rest, m =>
    match (l.handle.execute l.range).perform m with
    | (.ok (), m) =>
      let (done, answer, m) := runAll rest m
      (l :: done, answer, m)
    | (.error e, m) => ([], .error e, m)

/-- Runs everything that is pending and gives the number of launches. After a failure the failed
launch and all later ones are dropped. -/
def finish (q : Queue) (m : Memory) : Except Error Nat × Queue × Memory :=
  let (done, answer, m) := runAll q.pending m
  (answer.map fun _ => q.pending.length, ⟨[], q.completed ++ done⟩, m)

end Queue
end TensorConcat
