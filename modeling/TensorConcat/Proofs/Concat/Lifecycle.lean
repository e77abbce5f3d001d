import TensorConcat.Proofs.Concat.Session

/-! The lifecycle of kernels. Through all commands a kernel stays what its last successful
configuration and the hints since then have made of it, and what fails changes nothing. -/

namespace TensorConcat

namespace Kernel

variable {k k' : Kernel} {c : Configuration} {t : TuningTable}

structure Rebound (k' k : Kernel) : Prop where
  unconfigured : k.configuration? = none → k'.configuration? = none
  configured : ∀ c, k.configuration? = some c →
    ∃ h, k'.configuration? = some { c with handle := h } ∧
      h.KeepsFrom c.handle Frame.paddingSlot

theorem Rebound.refl (k : Kernel) : k.Rebound k :=
  ⟨id, fun c hc => ⟨c.handle, hc, .refl _ _⟩⟩

theorem rebound_of_configuration {h : Handle} (hc : k.configuration? = some c)
    (kept : h.KeepsFrom c.handle Frame.paddingSlot) :
    (Kernel.mk (some { c with handle := h })).Rebound k where
  unconfigured none := absurd (hc.symm.trans none) (by simp)
  configured c' hc' := by
    obtain rfl := Option.some.inj (hc.symm.trans hc')
    exact ⟨h, rfl, kept⟩

theorem run_rebound (k : Kernel) (pack : TensorPack) (w : Window) (q : Queue) :
    (k.run pack w q).2.1.Rebound k := by
  have outcome := run_outcome k pack w q
  generalize k.run pack w q = r at outcome
  cases outcome with
  | refused => exact .refl k
  | tooLarge configured _ _ _ _ kept => exact rebound_of_configuration configured kept
  | submitted configured _ _ _ kept => exact rebound_of_configuration configured kept

theorem run_queue_of_error {pack : TensorPack} {w : Window} {q : Queue} {e : Error}
    (h : (k.run pack w q).1 = .error e) : (k.run pack w q).2.2 = q := by
  have outcome := run_outcome k pack w q
  generalize k.run pack w q = r at outcome h
  cases outcome with
  | refused => rfl
  | tooLarge => rfl
  | submitted => cases h

theorem configuration_of_none (hc : k.configuration? = none) :
    k.configuration = .error (.notConfigured Program.kernelName) := by
  rw [configuration, hc]

theorem setHint_of_some (hc : k.configuration? = some c) (hint? : Option LaunchRange) :
    k.setHint hint? = .ok ⟨some { c with hint? }⟩ := by
  rw [setHint, configuration_eq_ok_iff.2 hc]
  rfl

theorem setHint_of_none (hc : k.configuration? = none) (hint? : Option LaunchRange) :
    k.setHint hint? = .error (.notConfigured Program.kernelName) := by
  rw [setHint, configuration_of_none hc]
  rfl

theorem tune_of_found (hc : k.configuration? = some c) {size : LaunchRange}
    (found : t.get? c.configId = some size) :
    ∃ t', k.tune t = .ok (true, ⟨some { c with hint? := some size }⟩, t') := by
  rw [tune, configuration_eq_ok_iff.2 hc]
  simp only [Answer.ok_bind, TuningTable.lookup, found]
  exact ⟨_, rfl⟩

theorem tune_of_missing (hc : k.configuration? = some c) (missing : t.get? c.configId = none) :
    ∃ t', k.tune t = .ok (false, k, t') := by
  rw [tune, configuration_eq_ok_iff.2 hc]
  simp only [Answer.ok_bind, TuningTable.lookup, missing]
  exact ⟨_, rfl⟩

theorem tune_of_none (hc : k.configuration? = none) (t : TuningTable) :
    k.tune t = .error (.notConfigured Program.kernelName) := by
  rw [tune, configuration_of_none hc]
  rfl

end Kernel

/-- A kernel is what a log tells of it. -/
structure Recorded (log : List Event) (i : Nat) (k : Kernel) : Prop where
  fresh : (∀ e ∈ log, e.configured? i = none) → k.configuration? = none
  last : ∀ o since, LastConfigured log i o since →
    ∃ c, k.configuration? = some c ∧ c.Of o ∧ c.hint? = lastHint? i c.configId since

namespace Recorded

variable {log : List Event} {i : Nat} {k k' : Kernel} {e : Event} {c : Configuration}
  {o : Operands}

theorem idle (recorded : Recorded log i k) (unconfiguring : e.configured? i = none)
    (unhinting : ∀ c, k.configuration? = some c → e.hinted? i c.configId = none)
    (same : k'.Rebound k) :
    Recorded (log ++ [e]) i k' where
  fresh none := same.unconfigured (recorded.fresh (List.forall_mem_append.1 none).1)
  last o since h := by
    obtain ⟨rest, rfl, last⟩ := (lastConfigured_append_of_none unconfiguring).1 h
    obtain ⟨c, hc, of, hint⟩ := recorded.last o rest last
    obtain ⟨h', hc', kept⟩ := same.configured c hc
    refine ⟨_, hc', ⟨of.window, of.options, of.configId, of.handle.of_keepsFrom kept⟩, ?_⟩
    rw [lastHint?_append_of_none (unhinting c hc), hint]

theorem configured (configuring : e.configured? i = some o) (of : c.Of o)
    (unhinted : c.hint? = none) : Recorded (log ++ [e]) i ⟨some c⟩ where
  fresh none := absurd ((none e (by simp)).symm.trans configuring) (by simp)
  last o' since h := by
    obtain ⟨rfl, rfl⟩ := (lastConfigured_append_of_some configuring).1 h
    exact ⟨c, rfl, of, unhinted⟩

theorem hinted (recorded : Recorded log i k) (hc : k.configuration? = some c)
    (unconfiguring : e.configured? i = none) {hint? : Option LaunchRange}
    (hinting : e.hinted? i c.configId = some hint?) :
    Recorded (log ++ [e]) i ⟨some { c with hint? }⟩ where
  fresh none := by
    have unconfigured := recorded.fresh (List.forall_mem_append.1 none).1
    exact absurd (hc.symm.trans unconfigured) (by simp)
  last o since h := by
    obtain ⟨rest, rfl, last⟩ := (lastConfigured_append_of_none unconfiguring).1 h
    obtain ⟨c', hc', of, -⟩ := recorded.last o rest last
    obtain rfl := Option.some.inj (hc.symm.trans hc')
    refine ⟨_, rfl, ⟨of.window, of.options, of.configId, of.handle⟩, ?_⟩
    rw [lastHint?_append_of_some hinting]

theorem isSome_iff (recorded : Recorded log i k) :
    k.configuration?.isSome ↔ ∃ e ∈ log, (e.configured? i).isSome := by
  constructor
  · intro some
    apply Classical.byContradiction
    intro never
    have none := recorded.fresh fun e he =>
      Option.not_isSome_iff_eq_none.1 fun h => never ⟨e, he, h⟩
    rw [none] at some
    cases some
  · intro some
    obtain ⟨o, since, last⟩ := exists_lastConfigured_iff.2 some
    obtain ⟨c, hc, -⟩ := recorded.last o since last
    rw [hc]
    rfl

end Recorded

namespace Session

variable {s : Session}

structure Sound (s : Session) : Prop where
  cache : s.cache.Sound
  kernels : ∀ i, Recorded s.log i (s.kernels i)

theorem sound_start (half : Bool) : (start half).Sound where
  cache := fun _ _ h => absurd h List.not_mem_nil
  kernels _ :=
    { fresh := fun _ => rfl
      last := by
        rintro o since ⟨before, e, h, -⟩
        exact absurd h (by simp [start]) }

theorem recorded_put {log : List Event} {kernels : Nat → Kernel} {i : Nat} {k : Kernel} {e : Event}
    (recorded : ∀ j, Recorded log j (kernels j)) (own : Recorded (log ++ [e]) i k)
    (others : ∀ j, j ≠ i → e.configured? j = none ∧ ∀ id, e.hinted? j id = none) (j : Nat) :
    Recorded (log ++ [e]) j (put kernels i k j) := by
  by_cases hj : j = i
  · rw [hj, put_self]
    exact own
  · rw [put_of_ne kernels hj]
    exact (recorded j).idle (others j hj).1 (fun _ _ => (others j hj).2 _) (.refl _)

theorem Sound.configure (hs : s.Sound) (i : Nat) (inputs : List Nat) (output : Nat) :
    (s.perform (.configure i inputs output)).Sound := by
  have outcome := Operation.configure_outcome hs.cache .concatenateWidth
    (inputs.map s.descriptors) (s.descriptors output)
  have sound := Operation.configure_sound hs.cache .concatenateWidth
    (inputs.map s.descriptors) (s.descriptors output)
  simp only [perform, effect, reply, Session.configure]
  generalize Operation.concatenateWidth.configure s.cache _ _ = r at outcome sound ⊢
  cases outcome with
  | failed =>
    refine ⟨sound, fun j => (hs.kernels j).idle Event.configured?_configure_error (fun _ _ => rfl) ?_⟩
    exact .refl _
  | @configured o c _ inputs_eq output_eq of hint =>
    refine ⟨sound, recorded_put hs.kernels ?_ ?_⟩
    · refine .configured (o := o) ?_ of hint
      rw [inputs_eq, ← output_eq]
      exact if_pos rfl
    · intro j hj
      rw [inputs_eq]
      exact ⟨if_neg (Ne.symm hj), fun _ => rfl⟩

theorem Sound.setHint (hs : s.Sound) (i : Nat) (hint? : Option LaunchRange) :
    (s.perform (.setHint i hint?)).Sound := by
  simp only [perform, effect, reply]
  cases hc : (s.kernels i).configuration? with
  | none =>
    rw [Kernel.setHint_of_none hc]
    exact ⟨hs.cache, fun j => (hs.kernels j).idle rfl (fun _ _ => rfl) (.refl _)⟩
  | some c =>
    rw [Kernel.setHint_of_some hc]
    refine ⟨hs.cache, recorded_put hs.kernels ?_ fun j hj => ⟨rfl, fun _ => if_neg (Ne.symm hj)⟩⟩
    exact (hs.kernels i).hinted hc rfl (if_pos rfl)

theorem Sound.tune (hs : s.Sound) (i : Nat) (table : TuningTable) :
    (s.perform (.tune i table)).Sound := by
  have others (answer : Except Error Bool) (j : Nat) (hj : j ≠ i) :
      (Event.tune i table answer).configured? j = none ∧
        ∀ id, (Event.tune i table answer).hinted? j id = none :=
    ⟨rfl, fun _ => if_neg (Ne.symm hj)⟩
  simp only [perform, effect, reply]
  cases hc : (s.kernels i).configuration? with
  | none =>
    rw [Kernel.tune_of_none hc]
    have own := (hs.kernels i).idle (e := .tune i table (.error (.notConfigured Program.kernelName)))
      rfl (fun c hc' => absurd (hc.symm.trans hc') (by simp)) (.refl _)
    refine ⟨hs.cache, fun j => ?_⟩
    have recorded := recorded_put hs.kernels own (others _) j
    rwa [put_same] at recorded
  | some c =>
    cases entry : table.get? c.configId with
    | none =>
      obtain ⟨_, tuned⟩ := Kernel.tune_of_missing hc entry
      rw [tuned]
      refine ⟨hs.cache, recorded_put hs.kernels ((hs.kernels i).idle rfl ?_ (.refl _)) (others _)⟩
      intro c' hc'
      obtain rfl := Option.some.inj (hc.symm.trans hc')
      rw [Event.hinted?, if_pos rfl, entry, Option.map_none]
    | some size =>
      obtain ⟨_, tuned⟩ := Kernel.tune_of_found hc entry
      rw [tuned]
      refine ⟨hs.cache, recorded_put hs.kernels ((hs.kernels i).hinted hc rfl ?_) (others _)⟩
      rw [Event.hinted?, if_pos rfl, entry, Option.map_some]

theorem Sound.run (hs : s.Sound) (i : Nat) (pack : TensorPack) (w : Window) :
    (s.perform (.run i pack w)).Sound :=
  ⟨hs.cache, recorded_put hs.kernels
    ((hs.kernels i).idle rfl (fun _ _ => rfl) (Kernel.run_rebound _ pack w s.queue))
    fun _ _ => ⟨rfl, fun _ => rfl⟩⟩

theorem Sound.perform (hs : s.Sound) (command : Command) : (s.perform command).Sound := by
  cases command with
  | describe name d =>
    exact ⟨hs.cache, fun j => (hs.kernels j).idle rfl (fun _ _ => rfl) (.refl _)⟩
  | configure i inputs output => exact hs.configure i inputs output
  | setHint i hint? => exact hs.setHint i hint?
  | tune i table => exact hs.tune i table
  | run i pack w => exact hs.run i pack w

theorem after_induction {P : Session → Prop} {half : Bool} {commands : List Command}
    (start : P (start half))
    (step : ∀ s, ∀ command ∈ commands, P s → P (s.perform command)) : P (after half commands) := by
  suffices run : ∀ s, P s → P (commands.foldl Session.perform s) from run _ start
  clear start
  induction commands with
  | nil => exact fun s hs => hs
  | cons command rest ih =>
    intro s hs
    exact ih (fun s c hc => step s c (List.mem_cons_of_mem _ hc)) _
      (step s command (List.mem_cons_self ..) hs)

theorem after_append (half : Bool) (commands : List Command) (command : Command) :
    after half (commands ++ [command]) = (after half commands).perform command :=
  List.foldl_append

theorem sound_after (half : Bool) (commands : List Command) : (after half commands).Sound :=
  after_induction (sound_start half) fun _ command _ hs => hs.perform command

/-- The caller's descriptors, all kernels, the queue and the number of programs that are kept are the
same. -/
structure Unchanged (s' s : Session) : Prop where
  descriptors : s'.descriptors = s.descriptors
  kernels : s'.kernels = s.kernels
  queue : s'.queue = s.queue
  cached : s'.cache.size = s.cache.size

theorem perform_configure_of_error (hs : s.Sound) {i : Nat} {inputs : List Nat} {output : Nat}
    {e : Error} (failed : (s.reply (.configure i inputs output)).error? = some e) :
    e.kind ∈ [ErrorKind.invalidArgument, .runtime, .device] ∧
      (s.perform (.configure i inputs output)).Unchanged s := by
  have outcome := Operation.configure_outcome hs.cache .concatenateWidth
    (inputs.map s.descriptors) (s.descriptors output)
  simp only [reply, perform, effect, Session.configure] at failed ⊢
  generalize Operation.concatenateWidth.configure s.cache _ _ = r at outcome failed ⊢
  cases outcome with
  | failed kind size =>
    obtain rfl := Option.some.inj failed
    exact ⟨kind, rfl, rfl, rfl, size⟩
  | configured => cases failed

theorem perform_run_of_error {i : Nat} {pack : TensorPack} {w : Window} {e : Error}
    (failed : (s.reply (.run i pack w)).error? = some e) :
    (s.perform (.run i pack w)).queue = s.queue := by
  cases answer : ((s.kernels i).run pack w s.queue).1 with
  | error e' => exact Kernel.run_queue_of_error answer
  | ok =>
    rw [reply, answer] at failed
    cases failed

end Session

def Command.Uses (i : Nat) : Command → Prop
  | .setHint kernel _ | .tune kernel _ | .run kernel _ _ => kernel = i
  | .describe .. | .configure .. => False

namespace Session

variable {s : Session}

theorem perform_of_unconfigured {i : Nat} (unconfigured : (s.kernels i).configuration? = none)
    {command : Command} (uses : command.Uses i) :
    ∃ e, (s.reply command).error? = some e ∧ e.kind = .precondition ∧
      (s.perform command).Unchanged s := by
  cases command with
  | describe => exact uses.elim
  | configure => exact uses.elim
  | setHint kernel hint? =>
    obtain rfl := uses
    simp only [reply, perform, effect, Kernel.setHint_of_none unconfigured]
    exact ⟨_, rfl, rfl, rfl, rfl, rfl, rfl⟩
  | tune kernel table =>
    obtain rfl := uses
    simp only [reply, perform, effect, Kernel.tune_of_none unconfigured]
    exact ⟨_, rfl, rfl, rfl, rfl, rfl, rfl⟩
  | run kernel pack w =>
    obtain rfl := uses
    simp only [reply, perform, effect, Kernel.run_of_not_configured unconfigured]
    exact ⟨_, rfl, rfl, rfl, put_same _ _, rfl, rfl⟩

theorem setHint_of_configured {i : Nat} {c : Configuration}
    (hc : (s.kernels i).configuration? = some c) (hint? : Option LaunchRange) :
    s.reply (.setHint i hint?) = .setHint i hint? (.ok ()) ∧
      ((s.perform (.setHint i hint?)).kernels i).configuration? = some { c with hint? } := by
  simp only [reply, perform, effect, Kernel.setHint_of_some hc]
  exact ⟨rfl, congrArg Kernel.configuration? (put_self _ _ _)⟩

theorem tune_of_configured {i : Nat} {c : Configuration}
    (hc : (s.kernels i).configuration? = some c) (table : TuningTable) :
    s.reply (.tune i table) = .tune i table (.ok (table.get? c.configId).isSome) ∧
      ((s.perform (.tune i table)).kernels i).configuration? =
        some { c with hint? := (table.get? c.configId).or c.hint? } := by
  simp only [reply, perform, effect]
  cases entry : table.get? c.configId with
  | none =>
    obtain ⟨_, tuned⟩ := Kernel.tune_of_missing hc entry
    rw [tuned]
    exact ⟨rfl, (congrArg Kernel.configuration? (put_self _ _ _)).trans hc⟩
  | some size =>
    obtain ⟨_, tuned⟩ := Kernel.tune_of_found hc entry
    rw [tuned]
    exact ⟨rfl, congrArg Kernel.configuration? (put_self _ _ _)⟩

/-- After any commands a kernel is configured exactly if some configuration of it has succeeded. It
has the window, the build options and the configuration id of the last one that has, and the hint
that it has been given last since then. A configured kernel takes every hint, and from a table the
entry of its configuration id, if there is one, which is what the answer tells. A configuration that
fails changes nothing that can be seen, a run that fails leaves the queue as it was, and before the
first success all other commands fail. -/
theorem kernel_follows_log (half : Bool) (commands : List Command) (i : Nat) :
    (((after half commands).kernels i).configuration?.isSome ↔
        ∃ e ∈ (after half commands).log, (e.configured? i).isSome) ∧
      (∀ o since, LastConfigured (after half commands).log i o since →
        ∃ c, ((after half commands).kernels i).configuration? = some c ∧
          o.plan.1 = .ok c.window ∧ o.buildOptions = .ok c.options ∧ c.configId = o.configId ∧
          c.hint? = lastHint? i c.configId since) ∧
      (∀ c, ((after half commands).kernels i).configuration? = some c →
        (∀ hint?, (after half commands).reply (.setHint i hint?) = .setHint i hint? (.ok ()) ∧
          (((after half commands).perform (.setHint i hint?)).kernels i).configuration? =
            some { c with hint? }) ∧
        ∀ table, (after half commands).reply (.tune i table) =
            .tune i table (.ok (table.get? c.configId).isSome) ∧
          (((after half commands).perform (.tune i table)).kernels i).configuration? =
            some { c with hint? := (table.get? c.configId).or c.hint? }) ∧
      (∀ inputs output e,
        ((after half commands).reply (.configure i inputs output)).error? = some e →
          e.kind ∈ [ErrorKind.invalidArgument, .runtime, .device] ∧
          ((after half commands).perform (.configure i inputs output)).Unchanged
            (after half commands)) ∧
      (∀ pack w e, ((after half commands).reply (.run i pack w)).error? = some e →
        ((after half commands).perform (.run i pack w)).queue = (after half commands).queue) ∧
      ((∀ e ∈ (after half commands).log, e.configured? i = none) →
        ∀ command : Command, command.Uses i →
          ∃ e, ((after half commands).reply command).error? = some e ∧ e.kind = .precondition ∧
            ((after half commands).perform command).Unchanged (after half commands)) := by
  have sound := sound_after half commands
  generalize after half commands = s at sound
  refine ⟨(sound.kernels i).isSome_iff, ?_,
    fun _ hc => ⟨setHint_of_configured hc, tune_of_configured hc⟩,
    fun _ _ _ => perform_configure_of_error sound, fun _ _ _ => perform_run_of_error, ?_⟩
  · intro o since last
    obtain ⟨c, hc, of, hint⟩ := (sound.kernels i).last o since last
    exact ⟨c, hc, of.window, of.options, of.configId, hint⟩
  · intro never command uses
    exact perform_of_unconfigured ((sound.kernels i).fresh never) uses

def rows : Operands where
  first := .ofShape ⟨[8, 3], by decide⟩ .unsigned8
  second := .ofShape ⟨[5, 3], by decide⟩ .unsigned8
  output := .ofShape ⟨[13, 3], by decide⟩ .unsigned8

def rowsSetup : List Command :=
  [.describe 0 rows.first, .describe 1 rows.second, .describe 2 rows.output] ++ [.configure 0 [0, 1] 2]

def rowsTable : TuningTable :=
  TuningTable.empty.put rows.configId ⟨1, 3, 1⟩

theorem rowsSetup_configured : LastConfigured (after false rowsSetup).log 0 rows [] := by
  rw [rowsSetup, after_append]
  exact (lastConfigured_append_of_some (by decide +kernel)).2 ⟨rfl, rfl⟩

theorem kernel_follows_log_tuned :
    (after false rowsSetup).reply (.tune 0 rowsTable) = .tune 0 rowsTable (.ok true) ∧
      (after false rowsSetup).reply (.tune 0 .empty) = .tune 0 .empty (.ok false) ∧
      ∃ c, ((after false (rowsSetup ++ [.tune 0 rowsTable])).kernels 0).configuration? = some c ∧
        c.configId = rows.configId ∧ c.hint? = some ⟨1, 3, 1⟩ := by
  have entry : rowsTable.get? rows.configId = some ⟨1, 3, 1⟩ := by decide +kernel
  obtain ⟨-, configured, answers, -⟩ := kernel_follows_log false rowsSetup 0
  obtain ⟨c, hc, -, -, id, -⟩ := configured rows [] rowsSetup_configured
  have found := ((answers c hc).2 rowsTable).1
  have missing := ((answers c hc).2 .empty).1
  rw [id, entry] at found
  have hinted : (Event.tune 0 rowsTable (.ok true)).hinted? 0 rows.configId = some (some ⟨1, 3, 1⟩) := by
    rw [Event.hinted?, if_pos rfl, entry, Option.map_some]
  have last : LastConfigured (after false (rowsSetup ++ [.tune 0 rowsTable])).log 0 rows
      [.tune 0 rowsTable (.ok true)] := by
    rw [after_append, ← show _ = Event.tune 0 rowsTable (.ok true) from found]
    exact (lastConfigured_append_of_none rfl).2 ⟨[], rfl, rowsSetup_configured⟩
  obtain ⟨-, later, -⟩ := kernel_follows_log false (rowsSetup ++ [.tune 0 rowsTable]) 0
  obtain ⟨c', hc', -, -, id', hint⟩ := later rows _ last
  refine ⟨found, missing, c', hc', id', ?_⟩
  rw [hint, id']
  rw [← List.nil_append [Event.tune 0 rowsTable (.ok true)]]
  exact lastHint?_append_of_some hinted

/-- A kernel that is configured again has no hint any more. -/
example :
    ((after false (rowsSetup ++ [.setHint 0 (some ⟨1, 3, 1⟩)])).kernels 0).configuration?.map
        (·.hint?) = some (some ⟨1, 3, 1⟩) ∧
      ((after false (rowsSetup ++ [.setHint 0 (some ⟨1, 3, 1⟩), .configure 0 [0, 1] 2])).kernels
        0).configuration?.map (·.hint?) = some none := by
  decide +kernel

end Session
end TensorConcat
