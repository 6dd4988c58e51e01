import Mathlib.Control.Monad.Basic

/-!
Contract: reading off the result of a computation that changes a state and can
fail.

Owns:
- the outcome of a computation and the state that it leaves;
- how a sequence of two computations succeeds and how it fails;
- computations that keep a view of the state;
- computations that preserve a property of the state;
- computations whose failures are of a given kind;
- computations that keep a relation between two states;
- computations on a part of the state.

Nothing here is about the machine. The phases of a step, the dialogues with the
operator and the effects of instructions are all such computations.
-/

namespace MiniatureMachine.Effects

variable {ε σ ν α β : Type}

/-- The state that a result leaves behind. -/
def left : EStateM.Result ε σ α → σ
  | .ok _ after => after
  | .error _ after => after

@[simp] theorem left_ok (value : α) (after : σ) :
    left (.ok value after : EStateM.Result ε σ α) = after := rfl

@[simp] theorem left_error (cause : ε) (after : σ) :
    left (.error cause after : EStateM.Result ε σ α) = after := rfl

/-- What a result says, without the state it leaves. -/
def outcome : EStateM.Result ε σ α → Except ε α
  | .ok value _ => .ok value
  | .error cause _ => .error cause

theorem eq_ok_of_outcome {result : EStateM.Result ε σ α} {value : α}
    (succeeded : outcome result = .ok value) : result = .ok value (left result) := by
  cases result <;> cases succeeded
  rfl

theorem eq_error_of_outcome {result : EStateM.Result ε σ α} {cause : ε}
    (failed : outcome result = .error cause) : result = .error cause (left result) := by
  cases result <;> cases failed
  rfl

/-! ## Sequences -/

theorem except_bind_eq_ok_iff {first : Except ε α} {next : α → Except ε β} {value : β} :
    (first >>= next) = .ok value ↔ ∃ x, first = .ok x ∧ next x = .ok value := by
  cases first <;> simp [bind, Except.bind]

/-- A sequence succeeds when both of its parts do. -/
theorem bind_eq_ok_iff {first : EStateM ε σ α} {next : α → EStateM ε σ β}
    {before after : σ} {value : β} :
    (first >>= next) before = .ok value after ↔
      ∃ x middle, first before = .ok x middle ∧ next x middle = .ok value after := by
  simp only [bind, EStateM.bind]
  cases first before with
  | ok x middle =>
      constructor
      · exact fun finished => ⟨x, middle, rfl, finished⟩
      · rintro ⟨_, _, ⟨⟩, finished⟩
        exact finished
  | error cause middle => simp

/-- A sequence fails in its first part or, after that, in its second part. -/
theorem bind_eq_error_iff {first : EStateM ε σ α} {next : α → EStateM ε σ β}
    {before after : σ} {cause : ε} :
    (first >>= next) before = .error cause after ↔
      first before = .error cause after ∨
        ∃ x middle, first before = .ok x middle ∧ next x middle = .error cause after := by
  simp only [bind, EStateM.bind]
  cases first before with
  | ok x middle =>
      constructor
      · exact fun failed => .inr ⟨x, middle, rfl, failed⟩
      · rintro (⟨⟨⟩⟩ | ⟨_, _, ⟨⟩, failed⟩)
        exact failed
  | error cause middle => simp

theorem bind_of_ok {first : EStateM ε σ α} {next : α → EStateM ε σ β}
    {before middle : σ} {x : α} (succeeded : first before = .ok x middle) :
    (first >>= next) before = next x middle := by
  simp only [bind, EStateM.bind, succeeded]

theorem get_bind (next : σ → EStateM ε σ α) (before : σ) :
    (get >>= next) before = next before before :=
  rfl

/-! ## Views that are kept -/

/-- A computation that leaves a view of the state as it was, also when it
fails. -/
def Keeps (view : σ → ν) (effect : EStateM ε σ α) : Prop :=
  ∀ before, view (left (effect before)) = view before

theorem Keeps.of_ok {view : σ → ν} {effect : EStateM ε σ α} (keeps : Keeps view effect)
    {before after : σ} {value : α} (succeeded : effect before = .ok value after) :
    view after = view before := by
  have kept := keeps before
  rw [succeeded] at kept
  exact kept

theorem Keeps.of_error {view : σ → ν} {effect : EStateM ε σ α} (keeps : Keeps view effect)
    {before after : σ} {cause : ε} (failed : effect before = .error cause after) :
    view after = view before := by
  have kept := keeps before
  rw [failed] at kept
  exact kept

theorem Keeps.pure {view : σ → ν} (value : α) :
    Keeps view (Pure.pure value : EStateM ε σ α) :=
  fun _ => rfl

theorem Keeps.get {view : σ → ν} : Keeps view (MonadState.get : EStateM ε σ σ) :=
  fun _ => rfl

theorem Keeps.modify {view : σ → ν} {change : σ → σ}
    (kept : ∀ before, view (change before) = view before) :
    Keeps view (modify change : EStateM ε σ PUnit) :=
  kept

theorem Keeps.bind {view : σ → ν} {first : EStateM ε σ α} {next : α → EStateM ε σ β}
    (firstKeeps : Keeps view first) (nextKeeps : ∀ x, Keeps view (next x)) :
    Keeps view (first >>= next) := by
  intro before
  have kept := firstKeeps before
  simp only [Bind.bind, EStateM.bind]
  cases ran : first before with
  | ok x middle =>
      rw [ran] at kept
      exact (nextKeeps x middle).trans kept
  | error cause middle =>
      rw [ran] at kept
      exact kept

/-! ## Properties that are preserved -/

/-- A computation after which a property of the state still holds, also when it
fails. -/
def Preserves (held : σ → Prop) (effect : EStateM ε σ α) : Prop :=
  ∀ before, held before → held (left (effect before))

variable {held : σ → Prop}

theorem Preserves.of_ok {effect : EStateM ε σ α} (preserves : Preserves held effect)
    {before after : σ} {value : α} (succeeded : effect before = .ok value after)
    (holds : held before) : held after := by
  have preserved := preserves before holds
  rw [succeeded] at preserved
  exact preserved

theorem Preserves.of_error {effect : EStateM ε σ α} (preserves : Preserves held effect)
    {before after : σ} {cause : ε} (failed : effect before = .error cause after)
    (holds : held before) : held after := by
  have preserved := preserves before holds
  rw [failed] at preserved
  exact preserved

theorem Preserves.pure (value : α) : Preserves held (Pure.pure value : EStateM ε σ α) :=
  fun _ holds => holds

theorem Preserves.throw (cause : ε) :
    Preserves held (MonadExcept.throw cause : EStateM ε σ α) :=
  fun _ holds => holds

theorem Preserves.get : Preserves held (MonadState.get : EStateM ε σ σ) :=
  fun _ holds => holds

theorem Preserves.modify {change : σ → σ}
    (preserved : ∀ before, held before → held (change before)) :
    Preserves held (modify change : EStateM ε σ PUnit) :=
  preserved

theorem Preserves.bind {first : EStateM ε σ α} {next : α → EStateM ε σ β}
    (firstPreserves : Preserves held first) (nextPreserves : ∀ x, Preserves held (next x)) :
    Preserves held (first >>= next) := by
  intro before holds
  have preserved := firstPreserves before holds
  simp only [Bind.bind, EStateM.bind]
  cases ran : first before with
  | ok x middle =>
      rw [ran] at preserved
      exact nextPreserves x middle preserved
  | error cause middle =>
      rw [ran] at preserved
      exact preserved

/-! ## Kinds of failure -/

/-- A computation that fails only with causes of a given kind. -/
def FailsOnly (kind : ε → Prop) (effect : EStateM ε σ α) : Prop :=
  ∀ before cause after, effect before = .error cause after → kind cause

theorem FailsOnly.pure {kind : ε → Prop} (value : α) :
    FailsOnly kind (Pure.pure value : EStateM ε σ α) := by
  intro before cause after failed
  cases failed

theorem FailsOnly.bind {kind : ε → Prop} {first : EStateM ε σ α} {next : α → EStateM ε σ β}
    (firstFails : FailsOnly kind first) (nextFails : ∀ x, FailsOnly kind (next x)) :
    FailsOnly kind (first >>= next) := by
  intro before cause after failed
  rcases bind_eq_error_iff.mp failed with inFirst | ⟨x, middle, -, inNext⟩
  · exact firstFails before cause after inFirst
  · exact nextFails x middle cause after inNext

/-! ## Relations that are kept -/

/-- Two results that say the same and leave related states. -/
inductive SameUpTo (related : σ → σ → Prop) :
    EStateM.Result ε σ α → EStateM.Result ε σ α → Prop
  | ok (value : α) {first second : σ} (holds : related first second) :
      SameUpTo related (.ok value first) (.ok value second)
  | error (cause : ε) {first second : σ} (holds : related first second) :
      SameUpTo related (.error cause first) (.error cause second)

/-- A computation that does the same from related states. -/
def Respects (related : σ → σ → Prop) (effect : EStateM ε σ α) : Prop :=
  ∀ first second, related first second → SameUpTo related (effect first) (effect second)

/-! ## Parts of the state -/

/-- A part of a state, which can be looked at and replaced. -/
structure StatePart (σ τ : Type) where
  get : σ → τ
  put : τ → σ → σ
  get_put : ∀ after before, get (put after before) = after
  put_put : ∀ after middle before, put after (put middle before) = put after before

namespace StatePart

variable {δ τ : Type} (part : StatePart σ τ)

/-- Changes the part and nothing else. -/
def update (change : τ → τ) (state : σ) : σ :=
  part.put (change (part.get state)) state

/-- A computation on the part, as one on the whole state. -/
def lift (wrap : δ → ε) (effect : EStateM δ τ α) : EStateM ε σ α := fun before =>
  match effect (part.get before) with
  | .ok value after => .ok value (part.put after before)
  | .error cause after => .error (wrap cause) (part.put after before)

theorem update_put (change : τ → τ) (after : τ) (before : σ) :
    part.update change (part.put after before) = part.put (change after) before := by
  rw [update, part.get_put, part.put_put]

theorem put_update (change : τ → τ) (after : τ) (before : σ) :
    part.put after (part.update change before) = part.put after before :=
  part.put_put _ _ _

theorem get_update (change : τ → τ) (before : σ) :
    part.get (part.update change before) = change (part.get before) :=
  part.get_put _ _

end StatePart

variable {related : σ → σ → Prop}

theorem Respects.lift {δ τ : Type} {part : StatePart σ τ} {wrap : δ → ε} {effect : EStateM δ τ α}
    {inPart : τ → τ → Prop} (respects : Respects inPart effect)
    (sees : ∀ first second, related first second → inPart (part.get first) (part.get second))
    (puts : ∀ first second one other, related first second → inPart one other →
      related (part.put one first) (part.put other second)) :
    Respects related (part.lift wrap effect) := by
  intro first second holds
  have same := respects _ _ (sees first second holds)
  unfold StatePart.lift
  generalize effect (part.get first) = result at same ⊢
  generalize effect (part.get second) = result' at same ⊢
  cases same with
  | ok value after => exact .ok value (puts first second _ _ holds after)
  | error cause after => exact .error (wrap cause) (puts first second _ _ holds after)

theorem Preserves.lift {δ τ : Type} {part : StatePart σ τ} {wrap : δ → ε} {effect : EStateM δ τ α}
    {inPart : τ → Prop} (preserves : Preserves inPart effect)
    (shows : ∀ state, held state ↔ inPart (part.get state)) :
    Preserves held (part.lift wrap effect) := by
  intro before holds
  have preserved := preserves _ ((shows before).mp holds)
  unfold StatePart.lift
  cases ran : effect (part.get before) with
  | ok value after =>
      rw [ran] at preserved
      apply (shows _).mpr
      rw [left_ok, part.get_put]
      exact preserved
  | error cause after =>
      rw [ran] at preserved
      apply (shows _).mpr
      rw [left_error, part.get_put]
      exact preserved

end MiniatureMachine.Effects
