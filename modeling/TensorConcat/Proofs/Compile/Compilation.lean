import TensorConcat.Compile.Cache
import TensorConcat.Proofs.Compile.Options

/-! Which operands have a program, what it is, and that a cache hands out what its device compiles. -/

namespace TensorConcat

theorem ElementType.size_of_storage? {t : ElementType} {s : Storage} (h : t.storage? = some s) :
    t.size = s.size := by
  rw [size, h, Option.map_some, Option.getD_some]

theorem ElementType.range?_of_isAffine {t : ElementType} {s : Storage} (h : t.storage? = some s)
    (ha : t.isAffine = true) : s.range?.isSome = true := by
  cases t <;> simp [isAffine, storage?] at h ha <;> subst h <;> rfl

theorem ElementType.storage?_of_ne_unknown {t : ElementType} (h : t ≠ .unknown) :
    ∃ s, t.storage? = some s := by
  cases t <;> first | exact absurd rfl h | exact ⟨_, rfl⟩

namespace Operands

def program (o : Operands) (s : Storage) : Program where
  storage := s
  vectorSize := vectorWidth
  depth := o.first.extent 2
  firstWidth := o.first.extent 0
  elementSize := s.size
  requantization? := o.rescaling?.map Rescaling.requantization

/-- There is a plane to divide by, and every scale that takes part in a rescaling can be read. -/
structure Compilable (o : Operands) : Prop where
  depth_ne_zero : o.first.extent 2 ≠ 0
  readable : ∀ r ∈ o.rescaling?, r.Readable

variable {o : Operands} {s : Storage}

theorem isAffine_of_rescaling? {r : Rescaling} (h : o.rescaling? = some r) :
    o.first.type.isAffine = true := by
  rw [rescaling?] at h
  split at h
  next ha => exact (Bool.and_eq_true_iff.1 ha).1
  next => exact nomatch h

theorem requantization_options_eq_ok_iff {q : Option Requantization} :
    (o.options s).requantization = .ok q ↔
      (∀ r ∈ o.rescaling?, r.Readable) ∧ q = o.rescaling?.map Rescaling.requantization := by
  cases h : o.rescaling? with
  | none =>
    rw [requantization_options_of_none h]
    simp [eq_comm]
  | some r =>
    rw [requantization_options_of_some h]
    simp

theorem read_options_eq_ok_iff (h : o.first.type.storage? = some s) {p : Program} :
    Program.read (o.options s) = .ok p ↔
      (∀ r ∈ o.rescaling?, r.Readable) ∧ p = o.program s := by
  obtain ⟨type, vector, depth, width, size⟩ := get?_options o s
  have vectorSize (n : Nat) := BuildOptions.size_eq_ok_iff (m := n) vector (by decide)
  have depthSize (n : Nat) :=
    BuildOptions.size_eq_ok_iff (m := n) depth (o.first.shape.extent_lt 2)
  have widthSize (n : Nat) :=
    BuildOptions.size_eq_ok_iff (m := n) width (o.first.shape.extent_lt 0)
  have hs : o.first.elementSize = s.size := ElementType.size_of_storage? h
  have elementSize (n : Nat) := BuildOptions.size_eq_ok_iff (m := n) size (by
    rw [hs]
    cases s <;> decide)
  simp only [Program.read, BuildOptions.required, type, Answer.ok_bind, Storage.named?_name,
    Answer.bind_eq_ok_iff, vectorSize, depthSize, widthSize, elementSize,
    requantization_options_eq_ok_iff, pure, Except.pure, Except.ok.injEq, exists_eq_left]
  constructor
  · rintro ⟨q, ⟨readable, rfl⟩, rfl⟩
    exact ⟨readable, by rw [program, hs]⟩
  · rintro ⟨readable, rfl⟩
    exact ⟨_, ⟨readable, rfl⟩, by rw [program, hs]⟩

theorem check_program_eq_ok_iff (h : o.first.type.storage? = some s) :
    (o.program s).check = .ok () ↔ o.first.extent 2 ≠ 0 := by
  have range : ¬ ((o.program s).requantization?.isSome ∧ (o.program s).storage.range?.isNone) := by
    rintro ⟨rescaled, unranged⟩
    obtain ⟨r, hr⟩ := Option.isSome_iff_exists.1 (Option.isSome_map ▸ rescaled)
    have ranged := ElementType.range?_of_isAffine h (isAffine_of_rescaling? hr)
    rw [program, Option.isNone_iff_eq_none] at unranged
    simp [unranged] at ranged
  rw [Program.check, if_neg range]
  simp [program, vectorWidth]

theorem ofOptions_eq_ok_iff (h : o.first.type.storage? = some s) {p : Program} :
    Program.ofOptions (o.options s) = .ok p ↔ o.Compilable ∧ p = o.program s := by
  simp only [Program.ofOptions, Answer.bind_eq_ok_iff, read_options_eq_ok_iff h, pure, Except.pure,
    Except.ok.injEq]
  constructor
  · rintro ⟨_, ⟨readable, rfl⟩, _, checked, rfl⟩
    exact ⟨⟨(check_program_eq_ok_iff h).1 checked, readable⟩, rfl⟩
  · rintro ⟨hc, rfl⟩
    exact ⟨_, ⟨hc.readable, rfl⟩, (), (check_program_eq_ok_iff h).2 hc.depth_ne_zero, rfl⟩

end Operands

namespace CompileContext

variable {δ κ : Type} [BEq κ]

theorem request_eq (fingerprint : String → BuildOptions → κ)
    (compiler : String → BuildOptions → Action δ Handle) (c : CompileContext δ κ) (name : String)
    (o : BuildOptions) :
    request fingerprint compiler c name o =
      match c.entries.lookup (fingerprint name o) with
      | some h => (.ok h, { c with hits := c.hits + 1 })
      | none => { c with misses := c.misses + 1 }.compile (compiler name o) (fingerprint name o) := by
  simp only [request, lookUp]
  cases found : c.entries.lookup (fingerprint name o) <;> simp only [found]

end CompileContext

namespace ProgramCache

/-- Every handle in the cache is what the device compiles for its key. -/
def Sound (c : ProgramCache) : Prop :=
  ∀ key h, (key, h) ∈ c.entries → c.device.compile key.1 key.2 = .ok h

def after (d : Device) (requests : List (String × BuildOptions)) : ProgramCache :=
  requests.foldl (fun c r => (c.request r.1 r.2).2) (empty d)

variable {c : ProgramCache}

theorem request_eq (c : ProgramCache) (name : String) (b : BuildOptions) :
    c.request name b =
      match c.entries.lookup (name, b) with
      | some h => (.ok h, { c with hits := c.hits + 1 })
      | none =>
        match c.device.compile name b with
        | .ok h =>
          (.ok h, { c with entries := c.entries ++ [((name, b), h)], misses := c.misses + 1 })
        | .error e => (.error e, { c with misses := c.misses + 1 }) := by
  rw [request, CompileContext.request_eq, CompileContext.compile]
  cases c.entries.lookup (name, b) with
  | some h => rfl
  | none => cases compiled : c.device.compile name b <;> simp only [Action.perform, compiled]

theorem request_device (c : ProgramCache) (name : String) (b : BuildOptions) :
    (c.request name b).2.device = c.device := by
  rw [request_eq]
  split
  · rfl
  · split <;> rfl

theorem Sound.request_fst (hc : c.Sound) (name : String) (b : BuildOptions) :
    (c.request name b).1 = c.device.compile name b := by
  rw [request_eq]
  split
  next h found =>
    obtain ⟨before, rest, entries, -⟩ := List.lookup_eq_some_iff.1 found
    exact (hc (name, b) h (by simp [entries])).symm
  next =>
    split <;> simp_all

theorem Sound.request_snd (hc : c.Sound) (name : String) (b : BuildOptions) :
    (c.request name b).2.Sound := by
  intro key h mem
  rw [request_device]
  rw [request_eq] at mem
  split at mem
  · exact hc key h mem
  · split at mem
    next compiled =>
      rcases List.mem_append.1 mem with mem | mem
      · exact hc key h mem
      · obtain ⟨rfl, rfl⟩ := Prod.mk.inj (List.mem_singleton.1 mem)
        exact compiled
    next => exact hc key h mem

theorem after_sound (d : Device) (requests : List (String × BuildOptions)) :
    (after d requests).Sound ∧ (after d requests).device = d := by
  -- The fold carries any sound cache along, and not just an empty one.
  suffices h : ∀ c : ProgramCache, c.Sound → c.device = d →
      let c' := requests.foldl (fun c r => (c.request r.1 r.2).2) c
      c'.Sound ∧ c'.device = d from
    h (empty d) (fun _ _ mem => absurd mem (List.not_mem_nil)) rfl
  induction requests with
  | nil => exact fun c hc hd => ⟨hc, hd⟩
  | cons r rest ih =>
    intro c hc hd
    exact ih _ (hc.request_snd r.1 r.2) ((request_device c r.1 r.2).trans hd)

end ProgramCache
end TensorConcat
