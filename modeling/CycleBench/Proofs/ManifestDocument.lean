import CycleBench.Document.Manifest
import CycleBench.Proofs.Json.Fields
import CycleBench.Proofs.Json.Sequences
import CycleBench.Proofs.Json.Unambiguous
import CycleBench.Proofs.Json.Writing

/-!
Manifests in documents.

* `Given`: what a value says of a program, of a case and of a manifest;
* `Flawed`: what keeps a value from being a manifest, deep inside as it may be;
* `value`: one way to write a manifest, with nothing left out;
* `ofJson_undoes_writing`: every text that spells a manifest is read as that manifest, and a text
  with a flaw in it is refused as a whole.
-/

namespace CycleBench

open Json

/-! ## What documents say -/

def Program.fieldNames : List String :=
  ["result_code", "cause_code", "latency"]

def Program.Given (x : Value) (program : Program) : Prop :=
  ∃ resultCode causeCode latency,
    Assigns Program.fieldNames x [resultCode, causeCode, latency] ∧
    Holds IsSignedByte (some 0) resultCode program.resultCode ∧
    Holds IsSignedByte (some 11) causeCode program.causeCode ∧
    Holds IsNatural64 (some 1000) latency program.latency

def SuiteCase.fieldNames : List String :=
  ["name", "group", "program"]

/-- A case needs a name; a group that is `null` is none. -/
def SuiteCase.Given (x : Value) (test : SuiteCase) : Prop :=
  ∃ name group program, Assigns SuiteCase.fieldNames x [name, group, program] ∧
    Holds IsString none name test.name ∧
    Holds (IsOptional IsString) (some none) group test.group ∧
    Holds Program.Given (some { resultCode := 0, causeCode := 11, latency := 1000 }) program
      test.program

def Manifest.fieldNames : List String :=
  ["cases"]

/-- The cases of a manifest stand in the order of the document. -/
def Manifest.Given (x : Value) (manifest : Manifest) : Prop :=
  ∃ cases, Assigns Manifest.fieldNames x [cases] ∧
    Holds (IsList SuiteCase.Given) (some []) cases manifest.cases

/-! ## Readers -/

namespace Program

def slots : List (Slot Program) := [
  { name := "result_code", reader := signedByte, Means := IsSignedByte, default := some 0,
    get := Program.resultCode, put := fun r program => { program with resultCode := r } },
  { name := "cause_code", reader := signedByte, Means := IsSignedByte, default := some 11,
    get := Program.causeCode, put := fun c program => { program with causeCode := c } },
  { name := "latency", reader := natural64, Means := IsNatural64, default := some 1000,
    get := Program.latency, put := fun n program => { program with latency := n } }]

theorem lawful_slots : Slot.Lawful slots {} where
  nodup := by decide
  denotes := by simp [slots, denotes_signedByte, denotes_natural64]
  unique := List.forall_mem_cons.mpr ⟨IsSignedByte.unique, List.forall_mem_cons.mpr
    ⟨IsSignedByte.unique, List.forall_mem_singleton.mpr IsNatural64.unique⟩⟩
  get_put := by simp [slots]
  get_put_of_ne := by simp [slots]
  get_initial := by simp [slots, TrapRecord.resultPass, Cause.environmentCallFromMMode]
  ext {a a'} h := by
    cases a
    cases a'
    simpa [slots] using h

theorem given_iff {x : Value} {program : Program} :
    Slot.Given slots x program ↔ Given x program := by
  simp [Slot.Given, slots, Given, fieldNames, List.forall₂_cons_left_iff]

theorem denotes_document : Program.document.Denotes Given :=
  (Slot.denotes_record lawful_slots "ScriptedProgram").congr fun _ _ => given_iff

theorem given_unique {x : Value} {program program' : Program} (h : Given x program)
    (h' : Given x program') : program = program' :=
  lawful_slots.given_unique (given_iff.mpr h) (given_iff.mpr h')

end Program

namespace SuiteCase

def slots : List (Slot SuiteCase) := [
  { name := "name", reader := string, Means := IsString, default := none,
    get := SuiteCase.name, put := fun name test => { test with name } },
  { name := "group", reader := optional string, Means := IsOptional IsString,
    default := some none, get := SuiteCase.group, put := fun group test => { test with group } },
  { name := "program", reader := Program.document, Means := Program.Given, default := some {},
    get := SuiteCase.program, put := fun program test => { test with program } }]

theorem denotes_group : (optional string).Denotes (IsOptional IsString) :=
  denotes_optional denotes_string nofun

theorem lawful_slots : Slot.Lawful slots { name := "" } where
  nodup := by decide
  denotes := by simp [slots, denotes_string, denotes_group, Program.denotes_document]
  unique := List.forall_mem_cons.mpr ⟨IsString.unique, List.forall_mem_cons.mpr
    ⟨IsOptional.unique IsString.unique nofun, List.forall_mem_singleton.mpr Program.given_unique⟩⟩
  get_put := by simp [slots]
  get_put_of_ne := by simp [slots]
  get_initial := by simp [slots]
  ext {a a'} h := by
    cases a
    cases a'
    simpa [slots] using h

theorem given_iff {x : Value} {test : SuiteCase} : Slot.Given slots x test ↔ Given x test := by
  simp [Slot.Given, slots, Given, fieldNames, List.forall₂_cons_left_iff, TrapRecord.resultPass,
    Cause.environmentCallFromMMode]

theorem denotes_document : SuiteCase.document.Denotes Given :=
  (Slot.denotes_record lawful_slots "SuiteCase").congr fun _ _ => given_iff

theorem given_unique {x : Value} {test test' : SuiteCase} (h : Given x test)
    (h' : Given x test') : test = test' :=
  lawful_slots.given_unique (given_iff.mpr h) (given_iff.mpr h')

end SuiteCase

namespace Manifest

def slots : List (Slot Manifest) := [
  { name := "cases", reader := sequence SuiteCase.document
    Means := fun x cases => IsList SuiteCase.Given x cases.toList, default := some #[]
    get := fun manifest => manifest.cases.toArray
    put := fun cases manifest => { manifest with cases := cases.toList } }]

theorem lawful_slots : Slot.Lawful slots {} where
  nodup := by decide
  denotes := by simp [slots, denotes_sequence SuiteCase.denotes_document]
  unique := List.forall_mem_singleton.mpr fun {x cases cases'} h h' => by
    have hcases : IsList SuiteCase.Given x cases.toList := h
    exact Array.toList_inj.mp (hcases.unique h' SuiteCase.given_unique)
  get_put := by simp [slots]
  get_put_of_ne := by simp [slots]
  get_initial := by simp [slots]
  ext {a a'} h := by
    cases a
    cases a'
    simpa [slots] using h

theorem given_iff {x : Value} {manifest : Manifest} :
    Slot.Given slots x manifest ↔ Given x manifest := by
  have hholds : ∀ cases : Option Value,
      Holds (fun x (cases : Array SuiteCase) => IsList SuiteCase.Given x cases.toList) (some #[])
        cases manifest.cases.toArray ↔
      Holds (IsList SuiteCase.Given) (some []) cases manifest.cases := by
    rintro (_ | x)
    · simp [Holds, eq_comm]
    · exact Iff.rfl
  simp [Slot.Given, slots, Given, fieldNames, List.forall₂_cons_left_iff, hholds]

theorem denotes_document : Manifest.document.Denotes Given :=
  (Slot.denotes_record lawful_slots "SuiteManifest").congr fun _ _ => given_iff

theorem given_unique {x : Value} {manifest manifest' : Manifest} (h : Given x manifest)
    (h' : Given x manifest') : manifest = manifest' :=
  lawful_slots.given_unique (given_iff.mpr h) (given_iff.mpr h')

end Manifest

/-! ## Flaws -/

/-- What keeps a value from being a case, whatever else is in it. -/
inductive SuiteCase.Flawed (x : Value) : Prop
  | nameless (h : ∀ y, ¬ Gives SuiteCase.fieldNames "name" x y)
  | repeats (h : Repeats SuiteCase.fieldNames x)
  | program {y} (hy : Gives SuiteCase.fieldNames "program" x y)
    (h : Repeats Program.fieldNames y)

/-- What keeps a value from being a manifest, whatever else is in it. -/
inductive Manifest.Flawed (x : Value) : Prop
  | repeats (h : Repeats Manifest.fieldNames x)
  | case {items item} (hitems : Gives Manifest.fieldNames "cases" x (.list items))
    (hitem : item ∈ items) (h : SuiteCase.Flawed item)

theorem SuiteCase.not_flawed {x : Value} {test : SuiteCase} (h : Given x test) : ¬ Flawed x := by
  obtain ⟨name, group, program, hassigns, hname, -, hprogram⟩ := h
  have hgives := hassigns.gives_iff (by decide)
  simp only [fieldNames, List.forall₂_cons, List.Forall₂.nil, and_true] at hgives
  obtain ⟨hgivesName, -, hgivesProgram⟩ := hgives
  rintro (hnameless | hrepeats | ⟨hy, hrepeats⟩)
  · cases name with
    | none => cases hname
    | some y => exact hnameless y ((hgivesName y).mpr rfl)
  · exact hassigns.not_repeats hrepeats
  · obtain rfl := (hgivesProgram _).mp hy
    obtain ⟨_, _, _, hassigns', -⟩ := hprogram
    exact hassigns'.not_repeats hrepeats

theorem Manifest.not_flawed {x : Value} {manifest : Manifest} (h : Given x manifest) :
    ¬ Flawed x := by
  obtain ⟨cases, hassigns, hcases⟩ := h
  have hgives := hassigns.gives_iff (by decide)
  simp only [fieldNames, List.forall₂_cons, List.Forall₂.nil, and_true] at hgives
  rintro (hrepeats | ⟨hitems, hitem, hflawed⟩)
  · exact hassigns.not_repeats hrepeats
  · obtain rfl := (hgives _).mp hitems
    obtain ⟨items, hlist, hall⟩ := hcases
    obtain rfl := Value.list.inj hlist
    obtain ⟨i, hi, rfl⟩ := List.mem_iff_getElem.mp hitem
    obtain ⟨hlength, hget⟩ := List.forall₂_iff_get.mp hall
    exact SuiteCase.not_flawed (hget i hi (hlength ▸ hi)) hflawed

/-! ## Writing -/

/-- A program with all its fields written out. -/
def Program.value (program : Program) : Value :=
  objectOf [("result_code", integerValue program.resultCode.toInt),
    ("cause_code", integerValue program.causeCode.toInt),
    ("latency", integerValue program.latency)]

/-- A case with all its fields written out. -/
def SuiteCase.value (test : SuiteCase) : Value :=
  objectOf [("name", .string (piecesOf test.name)),
    ("group", test.group.elim .null (.string <| piecesOf ·)),
    ("program", test.program.value)]

def Manifest.value (manifest : Manifest) : Value :=
  objectOf [("cases", .list (manifest.cases.map SuiteCase.value))]

theorem Program.given_value {program : Program} (h : program.latency < 2 ^ 64) :
    Given program.value program :=
  ⟨some _, some _, some _, assigns_objectOf (by simp [fieldNames, valuesOf]),
    isInteger_integerValue _, isInteger_integerValue _, isInteger_integerValue _, h⟩

theorem Program.writable_value (program : Program) : Writable program.value := by
  apply writable_objectOf
  simp [writable_integer]

theorem SuiteCase.given_value {test : SuiteCase} (h : test.program.latency < 2 ^ 64) :
    Given test.value test := by
  refine ⟨some (.string (piecesOf test.name)), some (test.group.elim .null (.string <| piecesOf ·)),
    some test.program.value, assigns_objectOf (by simp [fieldNames, valuesOf]),
    isString_piecesOf _, ?_, Program.given_value h⟩
  cases test.group with
  | none => exact rfl
  | some group => exact isString_piecesOf group

theorem SuiteCase.writable_value (test : SuiteCase) : Writable test.value := by
  apply writable_objectOf
  cases test.group <;> simp [writable_string, writable_null, Program.writable_value]

namespace Manifest

theorem given_value {manifest : Manifest}
    (h : ∀ test ∈ manifest.cases, test.program.latency < 2 ^ 64) :
    Given manifest.value manifest := by
  refine ⟨some (.list (manifest.cases.map SuiteCase.value)),
    assigns_objectOf (by simp [fieldNames, valuesOf]), _, rfl, ?_⟩
  rw [List.forall₂_map_left_iff, List.forall₂_same]
  exact fun test htest => SuiteCase.given_value (h test htest)

theorem writable_value (manifest : Manifest) : Writable manifest.value := by
  apply writable_objectOf
  simp [writable_list, SuiteCase.writable_value]

/-! ## Whole documents -/

theorem ofJson_eq_ok_iff {text : String} {manifest : Manifest} :
    ofJson text = .ok manifest ↔ ∃ x, IsDocument text.toList x ∧ Given x manifest := by
  rw [← parse_eq_ok_iff denotes_document, ofJson]
  cases parse document text <;> simp [Except.mapError]

/-- A text that spells no manifest is refused as no such document. -/
theorem exists_error_of_ne_ok {text : String} (h : ∀ manifest, ofJson text ≠ .ok manifest) :
    ∃ error, ofJson text = .error (.parse error) := by
  unfold ofJson at h ⊢
  cases hparse : parse document text with
  | ok manifest => exact absurd (by rw [hparse]; rfl) (h manifest)
  | error error => exact ⟨error, rfl⟩

/-- Nothing but blanks may follow the value, wherever it is taken to end. -/
theorem blanks_of_ofJson_eq_ok {text : String} {manifest : Manifest} {x : Value} {rest : List Char}
    (hok : ofJson text = .ok manifest) (hx : Padded text.toList x rest) : Blanks rest [] := by
  obtain ⟨x', ⟨behind, hx', hbehind⟩, _, hassigns, -⟩ := ofJson_eq_ok_iff.mp hok
  obtain rfl := hx'.rest_unique hx hassigns.not_isScalar
  exact hbehind

/-- **Reading a manifest undoes writing it.** A text is read as a manifest exactly when it spells
that manifest: with the members of the document, of a case and of a program in any order and among
others, in any spelling of the strings, and with a default written out or left out. Each manifest
has such a text. Where a case has no name, where a field of the document, of a case or of a program
is given twice, or where anything but blanks follows, nothing is read at all. -/
theorem ofJson_undoes_writing :
    (∀ (text : String) (manifest : Manifest), ofJson text = .ok manifest ↔
      ∃ x, IsDocument text.toList x ∧ Given x manifest) ∧
    (∀ manifest : Manifest, (∀ test ∈ manifest.cases, test.program.latency < 2 ^ 64) →
      ∃ text : String, IsDocument text.toList manifest.value ∧ ofJson text = .ok manifest) ∧
    (∀ (text : String) (x : Value), IsDocument text.toList x → Flawed x →
      ∃ error, ofJson text = .error (.parse error)) ∧
    ∀ (text : String) (x : Value) (rest : List Char), Padded text.toList x rest →
      ¬ Blanks rest [] → ∃ error, ofJson text = .error (.parse error) := by
  refine ⟨fun text manifest => ofJson_eq_ok_iff, fun manifest hlatency => ?_,
    fun text x hx hflawed => ?_, fun text x rest hx hrest => ?_⟩
  · obtain ⟨text, htext⟩ := manifest.writable_value.exists_document
    exact ⟨text, htext, ofJson_eq_ok_iff.mpr ⟨manifest.value, htext, given_value hlatency⟩⟩
  · refine exists_error_of_ne_ok fun manifest hok => ?_
    obtain ⟨x', hx', hgiven⟩ := ofJson_eq_ok_iff.mp hok
    obtain rfl := hx.unique hx'
    exact not_flawed hgiven hflawed
  · exact exists_error_of_ne_ok fun manifest hok => hrest (blanks_of_ofJson_eq_ok hok hx)

/-- An escaped key, a member without a meaning, and a group that is `null`. -/
example : ofJson "\x7b\"x\": [0], \"c\\u0061ses\": [\x7b\"group\": null, \"name\": \"a\"\x7d]\x7d" =
    .ok { cases := [{ name := "a" }] } := by
  decide +kernel

end Manifest

end CycleBench
