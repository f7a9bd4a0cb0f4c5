import CycleBench.Proofs.Agreement
import CycleBench.Proofs.Paths

/-!
Two pieces of work on two states of the files. `Work.Matches` starts both from the same log and
from files that are related, and asks for related results, for the same log and for files that are
related again. There is one rule for each way in which work is put together, and one for a report
that is saved where the two states agree (`Work.Matches.saveTo`).
-/

namespace CycleBench

namespace Work

variable {S α β γ δ : Type}

/-- From the same log and from files that `P` relates, both end alike, log the same and leave files
that `Q` relates. -/
def Matches (P Q : S → S → Prop) (R : α → β → Prop) (work : Work (StateM S) α)
    (work' : Work (StateM S) β) : Prop :=
  ∀ (log : Log) (s s' : S), P s s' →
    Agree R (work.on log s).1.1 (work'.on log s').1.1 ∧
      (work.on log s).1.2 = (work'.on log s').1.2 ∧ Q (work.on log s).2 (work'.on log s').2

namespace Matches

variable {P Q Q' : S → S → Prop} {R : α → β → Prop} {R' : γ → δ → Prop}
  {work : Work (StateM S) α} {work' : Work (StateM S) β}

theorem weaken (h : Matches P Q R work work') (hQ : ∀ s s', Q s s' → Q' s s') :
    Matches P Q' R work work' := fun log s s' hP =>
  have ⟨hresult, hlog, hfiles⟩ := h log s s' hP
  ⟨hresult, hlog, hQ _ _ hfiles⟩

/-- Work that reads only, with related results. -/
theorem of_steady {f : S → Except Failure α} {f' : S → Except Failure β}
    (h : ∀ log s, work.on log s = ((f s, log), s))
    (h' : ∀ log s, work'.on log s = ((f' s, log), s))
    (hR : ∀ s s', P s s' → Agree R (f s) (f' s')) : Matches P P R work work' := by
  intro log s s' hP
  rw [h, h']
  exact ⟨hR s s' hP, rfl, hP⟩

theorem pure {a : α} {b : β} (h : R a b) :
    Matches P P R (Pure.pure a : Work (StateM S) α) (Pure.pure b) :=
  fun _ _ _ hP => ⟨.ok h, rfl, hP⟩

theorem throw (failure : Failure) :
    Matches P P R (MonadExcept.throw failure : Work (StateM S) α) (MonadExcept.throw failure) :=
  fun _ _ _ hP => ⟨.error failure, rfl, hP⟩

theorem get : Matches P P Eq (MonadState.get : Work (StateM S) Log) MonadState.get :=
  fun _ _ _ hP => ⟨.ok rfl, rfl, hP⟩

theorem set (later : Log) :
    Matches P P (fun _ _ => True) (MonadStateOf.set later : Work (StateM S) PUnit)
      (MonadStateOf.set later) :=
  fun _ _ _ hP => ⟨.ok trivial, rfl, hP⟩

theorem emit (events : List Event) :
    Matches P P (fun _ _ => True) (Work.emit events : Work (StateM S) Unit) (Work.emit events) :=
  fun _ _ _ hP => ⟨.ok trivial, rfl, hP⟩

/-- Work goes on from related values and files; where it stops, the files are as they were left. -/
theorem bind (h : Matches P Q R work work') {next : α → Work (StateM S) γ}
    {next' : β → Work (StateM S) δ} (hQ : ∀ s s', Q s s' → Q' s s')
    (hnext : ∀ a b, R a b → Matches Q Q' R' (next a) (next' b)) :
    Matches P Q' R' (work >>= next) (work' >>= next') := by
  intro log s s' hP
  obtain ⟨hresult, hlog, hfiles⟩ := h log s s' hP
  rcases hwork : work.on log s with ⟨⟨result, later⟩, s₁⟩
  rcases hwork' : work'.on log s' with ⟨⟨result', later'⟩, s₁'⟩
  rw [hwork, hwork'] at hresult hlog hfiles
  simp only at hresult hlog hfiles
  subst hlog
  cases hresult with
  | error reason =>
    rw [on_bind_error hwork, on_bind_error hwork']
    exact ⟨.error reason, rfl, hQ _ _ hfiles⟩
  | ok h =>
    rw [on_bind_ok hwork, on_bind_ok hwork']
    exact hnext _ _ h later s₁ s₁' hfiles

/-- How long it takes to compute a value is not known. -/
theorem timed [FileSystem S] (f : Unit → α) :
    Matches P P (fun timed timed' => timed.1 = timed'.1)
      (liftM (Host.timed f : StateM S _) : Work (StateM S) (α × Option Nat))
      (liftM (Host.timed f : StateM S _)) := by
  intro log s s' hP
  obtain ⟨elapsed, h⟩ := FileSystem.timed_eq f s
  obtain ⟨elapsed', h'⟩ := FileSystem.timed_eq f s'
  rw [on_lift log h, on_lift log h']
  exact ⟨.ok rfl, rfl, hP⟩

variable [StablePaths S] {files : Set (FileSystem.File S)} {path : String} {append : Bool}

/-- A report goes to the same file with the same content, or to none for the same reason. -/
theorem saveTo (report : SuiteReport) (hcontent : ∀ s s', P s s' → SameOutside files s s')
    (htarget : ∀ s s', P s s' →
      FileSystem.target append s path = FileSystem.target append s' path)
    (hpath : ∀ s s', P s s' → ∀ file ∈ files, FileSystem.target append s path ≠ .ok file) :
    Matches P (SameOutside files) Eq (report.saveTo append path) (report.saveTo append path) := by
  intro log s s' hP
  have hsame := hcontent s s' hP
  have htarget := htarget s s' hP
  cases h : FileSystem.target append s path with
  | error fault =>
    rw [on_saveTo_of_error report h, on_saveTo_of_error report (htarget ▸ h)]
    exact ⟨.error _, rfl, hsame⟩
  | ok place =>
    have hnot : place ∉ files := fun hmem => hpath s s' hP place hmem h
    obtain ⟨s₁, hsave, hheld, hothers⟩ := on_saveTo_of_ok report h
    obtain ⟨s₁', hsave', hheld', hothers'⟩ := on_saveTo_of_ok report (htarget ▸ h)
    rw [hsave, hsave']
    refine ⟨.ok rfl, rfl, fun other hother => ?_⟩
    by_cases heq : other = place
    · rw [heq, hheld, hheld', hsame place hnot]
    · rw [hothers other heq, hothers' other heq, hsame other hother]

end Matches

end Work

end CycleBench
