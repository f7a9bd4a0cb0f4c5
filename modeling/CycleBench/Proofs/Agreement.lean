import CycleBench.Proofs.FileSystem

/-!
Agreement of two computations. Two results agree if they fail alike, or succeed with values that
are related (`Agree`); two pieces of work agree if they do so on the same files and leave the same
files, whatever has been logged (`Work.Agrees`). So what depends on the log can have no say in a
result, and agreement is shown along the structure of the work, one rule for each way in which work
is put together.
-/

namespace CycleBench

/-- Both fail for the same reason, or both succeed with related values. -/
inductive Agree {ε α β : Type} (R : α → β → Prop) : Except ε α → Except ε β → Prop
  | error (reason : ε) : Agree R (.error reason) (.error reason)
  | ok {a : α} {b : β} (h : R a b) : Agree R (.ok a) (.ok b)

namespace Agree

variable {ε α β γ δ : Type} {R : α → β → Prop} {Q : γ → δ → Prop}
  {result : Except ε α} {result' : Except ε β}

theorem refl (result : Except ε α) : Agree Eq result result := by
  cases result with
  | error reason => exact .error reason
  | ok a => exact .ok rfl

theorem mono {R' : α → β → Prop} (h : Agree R result result') (hR : ∀ a b, R a b → R' a b) :
    Agree R' result result' := by
  cases h with
  | error reason => exact .error reason
  | ok h => exact .ok (hR _ _ h)

theorem bind (h : Agree R result result') {f : α → Except ε γ} {g : β → Except ε δ}
    (hfg : ∀ a b, R a b → Agree Q (f a) (g b)) : Agree Q (result >>= f) (result' >>= g) := by
  cases h with
  | error reason => exact .error reason
  | ok h => exact hfg _ _ h

theorem map (h : Agree R result result') {f : α → γ} {g : β → δ}
    (hfg : ∀ a b, R a b → Q (f a) (g b)) : Agree Q (result.map f) (result'.map g) := by
  cases h with
  | error reason => exact .error reason
  | ok h => exact .ok (hfg _ _ h)

theorem trans {P : α → γ → Prop} {result'' : Except ε γ} {R' : β → γ → Prop}
    (h : Agree R result result') (h' : Agree R' result' result'')
    (hP : ∀ a b c, R a b → R' b c → P a c) : Agree P result result'' := by
  cases h with
  | error reason =>
    cases h' with
    | error => exact .error reason
  | ok h =>
    cases h' with
    | ok h' => exact .ok (hP _ _ _ h h')

theorem of_map (result : Except ε α) (f : α → β) :
    Agree (fun a b => b = f a) result (result.map f) := by
  cases result with
  | error reason => exact .error reason
  | ok a => exact .ok rfl

theorem of_ok {a : α} (h : Agree R (.ok a : Except ε α) result') :
    ∃ b, result' = .ok b ∧ R a b := by
  cases h with
  | ok h => exact ⟨_, rfl, h⟩

end Agree

namespace Work

variable {S α β γ δ : Type}

/-- Whatever is in their logs, the two agree in their results and in the files they leave. -/
def Agrees (R : α → β → Prop) (work : Work (StateM S) α) (work' : Work (StateM S) β) : Prop :=
  ∀ (log log' : Log) (s : S),
    Agree R (work.on log s).1.1 (work'.on log' s).1.1 ∧ (work.on log s).2 = (work'.on log' s).2

namespace Agrees

variable {R : α → β → Prop} {Q : γ → δ → Prop}
  {work : Work (StateM S) α} {work' : Work (StateM S) β}

theorem pure {a : α} {b : β} (h : R a b) :
    Agrees R (Pure.pure a : Work (StateM S) α) (Pure.pure b) :=
  fun _ _ _ => ⟨.ok h, rfl⟩

theorem throw (failure : Failure) :
    Agrees R (MonadExcept.throw failure : Work (StateM S) α) (MonadExcept.throw failure) :=
  fun _ _ _ => ⟨.error failure, rfl⟩

theorem ofExcept {result : Except Failure α} {result' : Except Failure β}
    (h : Agree R result result') :
    Agrees R (Work.ofExcept result : Work (StateM S) α) (Work.ofExcept result') := by
  intro log log' s
  rw [on_ofExcept, on_ofExcept]
  exact ⟨h, rfl⟩

/-- Work goes on from related values and from the same files. -/
theorem bind (h : Agrees R work work') {next : α → Work (StateM S) γ}
    {next' : β → Work (StateM S) δ} (hnext : ∀ a b, R a b → Agrees Q (next a) (next' b)) :
    Agrees Q (work >>= next) (work' >>= next') := by
  intro log log' s
  obtain ⟨hresult, hfiles⟩ := h log log' s
  rcases hwork : work.on log s with ⟨⟨result, later⟩, s₁⟩
  rcases hwork' : work'.on log' s with ⟨⟨result', later'⟩, s₁'⟩
  rw [hwork, hwork'] at hresult hfiles
  simp only at hresult hfiles
  subst hfiles
  cases hresult with
  | error reason =>
    rw [on_bind_error hwork, on_bind_error hwork']
    exact ⟨.error reason, rfl⟩
  | ok h =>
    rw [on_bind_ok hwork, on_bind_ok hwork']
    exact hnext _ _ h later later' s₁

/-- Nothing is known of what two logs hold. -/
theorem get : Agrees (fun _ _ => True) (MonadState.get : Work (StateM S) Log) MonadState.get :=
  fun _ _ _ => ⟨.ok trivial, rfl⟩

theorem set (later later' : Log) :
    Agrees (fun _ _ => True) (MonadStateOf.set later : Work (StateM S) PUnit)
      (MonadStateOf.set later') :=
  fun _ _ _ => ⟨.ok trivial, rfl⟩

theorem emit (events events' : List Event) :
    Agrees (fun _ _ => True) (Work.emit events : Work (StateM S) Unit) (Work.emit events') :=
  fun _ _ _ => ⟨.ok trivial, rfl⟩

theorem onFile (path : String) (action : StateM S (Except FileFault α)) :
    Agrees Eq (Work.onFile path action) (Work.onFile path action) := by
  intro log log' s
  rw [on_onFile path log (rfl : action s = _), on_onFile path log' (rfl : action s = _)]
  exact ⟨.refl _, rfl⟩

variable [FileSystem S]

theorem readText (path : String) :
    Agrees Eq (Work.readText path : Work (StateM S) String) (Work.readText path) := by
  intro log log' s
  rw [on_readText, on_readText]
  exact ⟨.refl _, rfl⟩

theorem manifestFile (path : String) :
    Agrees Eq (Manifest.ofFile path : Work (StateM S) Manifest) (Manifest.ofFile path) := by
  refine (readText path).bind ?_
  rintro text _ rfl
  exact ofExcept (.refl _)

/-- How long it takes to compute related values is not known. -/
theorem timed {f : Unit → α} {g : Unit → β} (h : R (f ()) (g ())) :
    Agrees (fun timed timed' => R timed.1 timed'.1)
      (liftM (Host.timed f : StateM S _) : Work (StateM S) (α × Option Nat))
      (liftM (Host.timed g : StateM S _)) := by
  intro log log' s
  obtain ⟨elapsed, hf⟩ := FileSystem.timed_eq f s
  obtain ⟨elapsed', hg⟩ := FileSystem.timed_eq g s
  rw [on_lift log hf, on_lift log' hg]
  exact ⟨.ok h, rfl⟩

end Agrees

end Work

end CycleBench
