import CycleBench.Host.FileStore

/-!
File systems: hosts whose files are a state. Their laws are what the commands rely on, and the
store in memory is one of them. Work on a file system is a function of the log and the files:

* `Work.on_bind_ok`, `Work.on_bind_error`: work goes on after what succeeds and stops at what
  fails;
* `Loaded`, `LoadFails`: how a document is had from a file, and why it is not; exactly one of
  them applies (`load_eq_ok_iff`, `load_eq_error_iff`);
* `on_saveTo_of_ok`, `on_saveTo_of_error`: saving a report changes its file alone, or nothing.
-/

namespace CycleBench

/-- Replaces the content of a file, or adds to its end. -/
def Host.save {m : Type → Type} [Host m] (append : Bool) (path : String) (data : ByteArray) :
    m (Except FileFault Unit) :=
  if append then Host.append path data else Host.write path data

/-- What a file holds after data has been written to it. -/
def Host.saved (append : Bool) (old : Option ByteArray) (data : ByteArray) : ByteArray :=
  if append then old.getD ByteArray.empty ++ data else data

/-- A file system. Reading and running change nothing; writing fails when the file is opened,
and changes nothing, or completes, and changes that file alone. -/
class FileSystem (S : Type) extends Host (StateM S) where
  /-- The files, of which several paths may lead to the same. -/
  File : Type
  content : S → File → Option ByteArray
  /-- The file behind a path that is opened for writing, if it can be. -/
  target (append : Bool) : S → String → Except FileFault File
  read_snd (path : String) (s : S) : ((Host.read path : StateM S _) s).2 = s
  timed_eq {α : Type} (f : Unit → α) (s : S) :
    ∃ elapsed, (Host.timed f : StateM S _) s = ((f (), elapsed), s)
  save_of_error {append : Bool} {path : String} {s : S} {fault : FileFault} (data : ByteArray)
    (h : target append s path = .error fault) :
    (Host.save append path data : StateM S _) s = (.error fault, s)
  save_of_ok {append : Bool} {path : String} {s : S} {file : File} (data : ByteArray)
    (h : target append s path = .ok file) :
    ∃ s', (Host.save append path data : StateM S _) s = (.ok (), s') ∧
      content s' file = some (Host.saved append (content s file) data) ∧
      ∀ other, other ≠ file → content s' other = content s other

/-! ## The store in memory -/

namespace FileStore

def content (store : FileStore) (place : List String) : Option ByteArray :=
  match store.entry? place with
  | some (.file data) => some data
  | _ => none

/-- The place behind a path that is opened for writing; a directory cannot be. -/
def target (store : FileStore) (path : String) : Except FileFault (List String) :=
  match store.findTarget path with
  | .error fault => .error fault
  | .ok place =>
    match store.entry? place with
    | some .directory => .error .isDirectory
    | _ => .ok place

theorem content_put (store : FileStore) (place : List String) (data : ByteArray) :
    (store.put place (.file data)).content place = some data := by
  simp [content, put]

theorem content_put_of_ne (store : FileStore) {place other : List String} (h : other ≠ place)
    (entry : FileEntry) : (store.put place entry).content other = store.content other := by
  simp [content, put, h]

theorem change_eq (store : FileStore) (path : String) (f : ByteArray → ByteArray) :
    store.change path f = (store.target path).map fun place =>
      store.put place (.file (f ((store.content place).getD ByteArray.empty))) := by
  unfold change target content
  cases store.findTarget path with
  | error fault => rfl
  | ok place =>
    rcases h : store.entry? place with _ | _ | _ <;> simp [h, Except.map]

theorem save_eq (append : Bool) (path : String) (data : ByteArray) (store : FileStore) :
    (Host.save append path data : StateM FileStore _) store =
      update (store.change path fun old => if append then old ++ data else data) store := by
  cases append <;> rfl

instance : FileSystem FileStore where
  File := List String
  content := content
  target _ := target
  read_snd _ _ := rfl
  timed_eq _ _ := ⟨none, rfl⟩
  save_of_error {append path s fault} data h := by
    rw [save_eq, change_eq, h]
    rfl
  save_of_ok {append path s file} data h := by
    rw [save_eq, change_eq, h]
    refine ⟨_, rfl, ?_, fun other hne => content_put_of_ne s hne _⟩
    rw [content_put]
    cases append <;> rfl

end FileStore

/-! ## Work -/

namespace Work

variable {S α β : Type}

/-- Work carried out from a log and files. -/
def on (work : Work (StateM S) α) (log : Log) (s : S) : (Except Failure α × Log) × S :=
  (work.run.run log).run s

variable {log log' : Log} {s s' : S}

/-- What is done with the result of work. -/
theorem run_bind (work : Work (StateM S) α) (next : Except Failure α × Log → StateM S β) :
    (work.run.run log >>= next) s = next (work.on log s).1 (work.on log s).2 := rfl

theorem on_pure (value : α) : (pure value : Work (StateM S) α).on log s = ((.ok value, log), s) :=
  rfl

theorem on_bind_ok {work : Work (StateM S) α} {value : α}
    (h : work.on log s = ((.ok value, log'), s')) (next : α → Work (StateM S) β) :
    (work >>= next).on log s = (next value).on log' s' := by
  unfold on at h ⊢
  simp only [ExceptT.run_bind, StateT.run_bind, h]
  rfl

theorem on_bind_error {work : Work (StateM S) α} {failure : Failure}
    (h : work.on log s = ((.error failure, log'), s')) (next : α → Work (StateM S) β) :
    (work >>= next).on log s = ((.error failure, log'), s') := by
  unfold on at h ⊢
  simp only [ExceptT.run_bind, StateT.run_bind, h]
  rfl

/-- Work that touches neither the log nor the files, followed by more of the kind. -/
theorem on_bind_of_steady {work : Work (StateM S) α} {result : Except Failure α}
    {next : α → Work (StateM S) β} {f : α → Except Failure β}
    (h : work.on log s = ((result, log), s))
    (hnext : ∀ value, (next value).on log s = ((f value, log), s)) :
    (work >>= next).on log s = ((result.bind f, log), s) := by
  cases result with
  | error failure => exact on_bind_error h next
  | ok value => exact (on_bind_ok h next).trans (hnext value)

theorem on_ofExcept (result : Except Failure α) :
    (ofExcept result : Work (StateM S) α).on log s = ((result, log), s) := by
  cases result <;> rfl

theorem on_get (log : Log) (s : S) : (get : Work (StateM S) Log).on log s = ((.ok log, log), s) :=
  rfl

theorem on_set (later log : Log) (s : S) :
    (set later : Work (StateM S) PUnit).on log s = ((.ok ⟨⟩, later), s) :=
  rfl

/-- A call of the host leaves the log alone. -/
theorem on_lift (log : Log) {action : StateM S α} {value : α} (h : action s = (value, s')) :
    (liftM action : Work (StateM S) α).on log s = ((.ok value, log), s') := by
  change (fun p : α × S => ((Except.ok p.1, log), p.2)) (action s) = _
  rw [h]

theorem on_onFile (path : String) (log : Log) {action : StateM S (Except FileFault α)}
    {result : Except FileFault α} (h : action s = (result, s')) :
    (onFile path action).on log s = ((result.mapError (.file path), log), s') := by
  refine (on_bind_ok (on_lift log h) _).trans ?_
  cases result <;> rfl

end Work

/-! ## Documents in files -/

variable {S α : Type} [FileSystem S]

/-- What reading a file gives. -/
def readFile (s : S) (path : String) : Except FileFault ByteArray :=
  ((Host.read path : StateM S _) s).1

/-- A document that is read from a file. -/
def Loaded (parse : String → Except Failure α) (s : S) (path : String) (value : α) : Prop :=
  ∃ bytes text, readFile s path = .ok bytes ∧ String.fromUTF8? bytes = some text ∧
    parse text = .ok value

/-- Why a document cannot be read from a file: there is no content, the content is no text, or
the text is no such document. -/
inductive LoadFails (parse : String → Except Failure α) (s : S) (path : String) : Failure → Prop
  | file {fault : FileFault} (hread : readFile s path = .error fault) :
    LoadFails parse s path (.file path fault)
  | encoding {bytes : ByteArray} (hread : readFile s path = .ok bytes)
    (htext : String.fromUTF8? bytes = none) : LoadFails parse s path (.file path .invalidUtf8)
  | parse {bytes : ByteArray} {text : String} {failure : Failure}
    (hread : readFile s path = .ok bytes) (htext : String.fromUTF8? bytes = some text)
    (hparse : parse text = .error failure) : LoadFails parse s path failure

/-- The document in a file, or why it cannot be had. -/
def load (parse : String → Except Failure α) (s : S) (path : String) : Except Failure α :=
  match readFile s path with
  | .error fault => .error (.file path fault)
  | .ok bytes =>
    match String.fromUTF8? bytes with
    | none => .error (.file path .invalidUtf8)
    | some text => parse text

variable {parse : String → Except Failure α} {s : S} {path : String}

theorem load_eq_bind : load parse s path = (load .ok s path).bind parse := by
  unfold load
  cases readFile s path with
  | error fault => rfl
  | ok bytes =>
    simp only
    cases String.fromUTF8? bytes <;> rfl

theorem load_eq_ok_iff {value : α} : load parse s path = .ok value ↔ Loaded parse s path value := by
  unfold load Loaded
  constructor
  · intro h
    split at h
    · cases h
    · next bytes hread =>
      split at h
      · cases h
      · next text htext => exact ⟨bytes, text, hread, htext, h⟩
  · rintro ⟨bytes, text, hread, htext, hparse⟩
    simp only [hread, htext, hparse]

theorem load_eq_error_iff {failure : Failure} :
    load parse s path = .error failure ↔ LoadFails parse s path failure := by
  unfold load
  constructor
  · intro h
    split at h
    · next fault hread =>
      cases h
      exact .file hread
    · next bytes hread =>
      split at h
      · next htext =>
        cases h
        exact .encoding hread htext
      · next text htext => exact .parse hread htext h
  · rintro (hread | ⟨hread, htext⟩ | ⟨hread, htext, hparse⟩)
    · simp only [hread]
    · simp only [hread, htext]
    · simp only [hread, htext, hparse]

/-- To save a report is one call of the host, whether it is appended or not. -/
theorem SuiteReport.saveTo_eq {m : Type → Type} [Monad m] [Host m] (report : SuiteReport)
    (append : Bool) (path : String) : (report.saveTo append path : Work m Unit) =
      Work.onFile path (Host.save append path report.text.toUTF8) := by
  cases append <;> rfl

namespace Work

variable {log : Log}

theorem on_readText (path : String) :
    (readText path : Work (StateM S) String).on log s = ((load .ok s path, log), s) := by
  have hread : (Host.read path : StateM S _) s = (readFile s path, s) :=
    Prod.ext rfl (FileSystem.read_snd path s)
  have hfile := on_onFile path log hread
  unfold load
  cases h : readFile s path with
  | error fault =>
    rw [h] at hfile
    exact on_bind_error hfile _
  | ok bytes =>
    rw [h] at hfile
    refine (on_bind_ok hfile _).trans ?_
    simp only
    cases String.fromUTF8? bytes <;> rfl

/-- Reading a document touches neither the log nor the files. -/
theorem on_readText_bind (path : String) :
    ((readText path >>= fun text => ofExcept (parse text)) : Work (StateM S) α).on log s =
      ((load parse s path, log), s) := by
  rw [load_eq_bind]
  exact on_bind_of_steady (on_readText path) fun _ => on_ofExcept _

theorem on_configFile (path : String) :
    (Config.ofFile path : Work (StateM S) Config).on log s =
      ((load Config.ofJson s path, log), s) :=
  on_readText_bind path

theorem on_manifestFile (path : String) :
    (Manifest.ofFile path : Work (StateM S) Manifest).on log s =
      ((load Manifest.ofJson s path, log), s) :=
  on_readText_bind path

variable {append : Bool} (report : SuiteReport)

theorem on_saveTo_of_error {fault : FileFault}
    (h : FileSystem.target append s path = .error fault) :
    (report.saveTo append path : Work (StateM S) Unit).on log s =
      ((.error (.file path fault), log), s) := by
  rw [report.saveTo_eq]
  exact on_onFile path log (FileSystem.save_of_error _ h)

theorem on_saveTo_of_ok {file : FileSystem.File S}
    (h : FileSystem.target append s path = .ok file) :
    ∃ s', (∀ log, (report.saveTo append path : Work (StateM S) Unit).on log s =
        ((.ok (), log), s')) ∧
      FileSystem.content s' file =
        some (Host.saved append (FileSystem.content s file) report.text.toUTF8) ∧
      ∀ other, other ≠ file → FileSystem.content s' other = FileSystem.content s other := by
  obtain ⟨s', hsave, hchange⟩ := FileSystem.save_of_ok report.text.toUTF8 h
  rw [report.saveTo_eq]
  exact ⟨s', fun log => on_onFile path log hsave, hchange⟩

end Work

end CycleBench
