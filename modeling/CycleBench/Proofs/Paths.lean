import CycleBench.Proofs.FileSystem
import Mathlib.Data.Set.Defs

/-!
Where paths lead. On a file system with stable paths a path is read from one file, and saving to a
file takes no path away from where it leads; the store in memory is such a file system.

* `SavedAs`: what has become of the files when one of them has been saved (`exists_savedAs`);
* `SameOutside`: two states of the files that hold the same but in certain files. What is read does
  not differ between them where a path leads to the same other file in both (`SameOutside.load_eq`).
-/

namespace CycleBench

/-- A file system in which the files that paths lead to do not depend on what is saved. -/
class StablePaths (S : Type) extends FileSystem S where
  /-- The file behind a path that is opened for reading, if there is one. -/
  source : S → String → Except FileFault File
  readFile_eq (path : String) (s : S) :
    readFile s path = (source s path).map fun file => (content s file).getD ByteArray.empty
  source_of_saved {append : Bool} {path other : String} {data : ByteArray} {s s' : S} {file : File}
    (hsave : (Host.save append path data : StateM S _) s = (.ok (), s'))
    (h : source s other = .ok file) : source s' other = .ok file
  /-- What has been saved can be added to. -/
  target_of_saved {append : Bool} {path : String} {data : ByteArray} {s s' : S} {file : File}
    (hsave : (Host.save append path data : StateM S _) s = (.ok (), s'))
    (h : target append s path = .ok file) : target true s' path = .ok file

/-! ## The store in memory -/

namespace FileStore

/-- The place behind a path that is opened for reading. -/
def source (store : FileStore) (path : String) : Except FileFault (List String) :=
  match store.find path with
  | .error fault => .error fault
  | .ok place =>
    match store.entry? place with
    | none => .error .notFound
    | some .directory => .error .isDirectory
    | some (.file _) => .ok place

theorem read_eq (store : FileStore) (path : String) :
    store.read path =
      (store.source path).map fun place => (store.content place).getD ByteArray.empty := by
  unfold read source content
  cases store.find path with
  | error fault => rfl
  | ok place => rcases h : store.entry? place with _ | _ | _ <;> simp [h, Except.map]

variable {store store' : FileStore}

/-- A file at a place that is no directory is on no way that could be walked. -/
theorem walk_put {place here names there : List String} {data : ByteArray}
    (hplace : store.entry? place ≠ some .directory) (h : store.walk here names = .ok there) :
    (store.put place (.file data)).walk here names = .ok there := by
  induction names generalizing here with
  | nil => exact h
  | cons name names ih =>
    rcases hentry : store.entry? here with _ | _ | _
    · simp [walk, hentry] at h
    · simp [walk, hentry] at h
    · have hne : here ≠ place := by
        rintro rfl
        exact hplace hentry
      simp only [walk, hentry] at h
      simpa only [walk, put, if_neg hne, hentry] using ih h

theorem source_eq_ok_iff {path : String} {place : List String} :
    store.source path = .ok place ↔
      store.find path = .ok place ∧ ∃ data, store.entry? place = some (.file data) := by
  unfold source
  cases store.find path with
  | error fault => simp
  | ok there =>
    dsimp only
    constructor
    · intro h
      split at h
      · cases h
      · cases h
      · next data hentry =>
        cases h
        exact ⟨rfl, data, hentry⟩
    · rintro ⟨⟨⟩, data, hentry⟩
      rw [hentry]

theorem target_eq_ok_iff {path : String} {place : List String} :
    store.target path = .ok place ↔
      store.findTarget path = .ok place ∧ store.entry? place ≠ some .directory := by
  unfold target
  cases store.findTarget path with
  | error fault => simp
  | ok there =>
    dsimp only
    constructor
    · intro h
      split at h
      · cases h
      · next hentry =>
        cases h
        exact ⟨rfl, hentry⟩
    · rintro ⟨⟨⟩, hentry⟩
      split
      · next hdirectory => exact absurd hdirectory hentry
      · rfl

/-- Saving puts a file at the place that the path leads to. -/
theorem eq_put_of_saved {append : Bool} {path : String} {data : ByteArray}
    (hsave : (Host.save append path data : StateM FileStore _) store = (.ok (), store')) :
    ∃ place content, store.target path = .ok place ∧
      store' = store.put place (.file content) := by
  rw [save_eq, change_eq] at hsave
  cases htarget : store.target path with
  | error fault =>
    rw [htarget] at hsave
    exact absurd (congrArg Prod.fst hsave) nofun
  | ok place =>
    rw [htarget] at hsave
    exact ⟨place, _, rfl, (congrArg Prod.snd hsave).symm⟩

/-- A place that can be walked to is walked to as before once a file has been put elsewhere. -/
theorem find_put {place there : List String} {path : String} {data : ByteArray}
    (hplace : store.entry? place ≠ some .directory) (h : store.find path = .ok there) :
    (store.put place (.file data)).find path = .ok there := by
  unfold find at h ⊢
  split at h
  · cases h
  · next hpath => exact (if_neg hpath).trans (walk_put hplace h)

theorem findTarget_put {place there : List String} {path : String} {data : ByteArray}
    (hplace : store.entry? place ≠ some .directory) (h : store.findTarget path = .ok there) :
    (store.put place (.file data)).findTarget path = .ok there := by
  unfold findTarget at h ⊢
  split at h
  · cases h
  · next hpath =>
    rw [if_neg hpath]
    split at h
    · cases h
    · next hwalk =>
      rw [walk_put hplace hwalk]
      exact h

instance : StablePaths FileStore where
  source := source
  readFile_eq path store := store.read_eq path
  source_of_saved {append path other data s s' file} hsave h := by
    obtain ⟨place, content, htarget, rfl⟩ := eq_put_of_saved hsave
    obtain ⟨-, hplace⟩ := target_eq_ok_iff.mp htarget
    obtain ⟨hfind, old, hentry⟩ := source_eq_ok_iff.mp h
    refine source_eq_ok_iff.mpr ⟨find_put hplace hfind, ?_⟩
    by_cases hfile : file = place
    · exact ⟨content, by simp [put, hfile]⟩
    · exact ⟨old, by simp [put, hfile, hentry]⟩
  target_of_saved {append path data s s' file} hsave h := by
    obtain ⟨place, content, htarget, rfl⟩ := eq_put_of_saved hsave
    obtain rfl : file = place := Except.ok.inj (h.symm.trans htarget)
    obtain ⟨hfind, hplace⟩ := target_eq_ok_iff.mp h
    exact target_eq_ok_iff.mpr ⟨findTarget_put hplace hfind, by simp [put]⟩

end FileStore

/-! ## Saved files -/

variable {S : Type} [StablePaths S]

/-- What has become of the files after data was saved: one of them holds it, the others are as
before, and every path leads where it led. -/
structure SavedAs (path : String) (file : FileSystem.File S) (held : ByteArray) (s s' : S) :
    Prop where
  content : FileSystem.content s' file = some held
  others : ∀ other, other ≠ file → FileSystem.content s' other = FileSystem.content s other
  source : ∀ {other place}, StablePaths.source s other = .ok place →
    StablePaths.source s' other = .ok place
  target : FileSystem.target true s' path = .ok file

variable {path : String} {file : FileSystem.File S} {s s' s'' : S} {held held' : ByteArray}

theorem SavedAs.trans (h : SavedAs path file held s s') (h' : SavedAs path file held' s' s'') :
    SavedAs path file held' s s'' where
  content := h'.content
  others other hne := (h'.others other hne).trans (h.others other hne)
  source hsource := h'.source (h.source hsource)
  target := h'.target

/-- What is read from another file is as before. -/
theorem SavedAs.loaded {α : Type} {parse : String → Except Failure α} {other : String} {value : α}
    (h : SavedAs path file held s s') (hother : StablePaths.source s other ≠ .ok file)
    (hload : Loaded parse s other value) : Loaded parse s' other value := by
  obtain ⟨bytes, text, hread, htext, hparse⟩ := hload
  refine ⟨bytes, text, ?_, htext, hparse⟩
  rw [StablePaths.readFile_eq] at hread ⊢
  cases hsource : StablePaths.source s other with
  | error fault => simp [hsource, Except.map] at hread
  | ok place =>
    have hne : place ≠ file := by
      rintro rfl
      exact hother hsource
    rw [hsource] at hread
    rw [h.source hsource, ← hread, Except.map, Except.map, h.others place hne]

theorem exists_savedAs {append : Bool} (report : SuiteReport)
    (h : FileSystem.target append s path = .ok file) :
    ∃ s', (∀ log, (report.saveTo append path : Work (StateM S) Unit).on log s =
        ((.ok (), log), s')) ∧
      SavedAs path file (Host.saved append (FileSystem.content s file) report.text.toUTF8)
        s s' := by
  obtain ⟨s', hsave, hcontent, hothers⟩ := FileSystem.save_of_ok report.text.toUTF8 h
  rw [report.saveTo_eq]
  exact ⟨s', fun log => Work.on_onFile path log hsave, hcontent, hothers,
    StablePaths.source_of_saved hsave, StablePaths.target_of_saved hsave h⟩

/-! ## Two states of the files -/

/-- Every file but certain ones holds the same. -/
def SameOutside (files : Set (FileSystem.File S)) (s s' : S) : Prop :=
  ∀ other, other ∉ files → FileSystem.content s other = FileSystem.content s' other

variable {files : Set (FileSystem.File S)}

theorem SameOutside.readFile_eq (h : SameOutside files s s')
    (hsource : StablePaths.source s path = StablePaths.source s' path)
    (hpath : ∀ file ∈ files, StablePaths.source s path ≠ .ok file) :
    readFile s path = readFile s' path := by
  rw [StablePaths.readFile_eq, StablePaths.readFile_eq, ← hsource]
  cases hplace : StablePaths.source s path with
  | error fault => rfl
  | ok place =>
    have hnot : place ∉ files := fun hmem => hpath place hmem hplace
    rw [Except.map, Except.map, h place hnot]

theorem SameOutside.load_eq {α : Type} {parse : String → Except Failure α}
    (h : SameOutside files s s')
    (hsource : StablePaths.source s path = StablePaths.source s' path)
    (hpath : ∀ file ∈ files, StablePaths.source s path ≠ .ok file) :
    load parse s path = load parse s' path := by
  unfold load
  rw [h.readFile_eq hsource hpath]

/-- A store in which a file has been put is the same outside its place. -/
theorem FileStore.sameOutside_put (store : FileStore) (place : List String) (data : ByteArray) :
    SameOutside (S := FileStore) {place} store (store.put place (.file data)) :=
  fun _ hne => (content_put_of_ne store hne _).symm

end CycleBench
