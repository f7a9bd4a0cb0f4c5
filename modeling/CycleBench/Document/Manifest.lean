import CycleBench.Failure
import CycleBench.Json.Sequence
import CycleBench.Suite

/-!
Manifests in documents. A case needs a name; its group and its program may be left out.
-/

namespace CycleBench

def Program.document : Json.Reader Program :=
  Json.Record.reader {
    name := "ScriptedProgram"
    initial := {}
    fields := [
      .optional "result_code" Json.signedByte fun r program => { program with resultCode := r },
      .optional "cause_code" Json.signedByte fun c program => { program with causeCode := c },
      .optional "latency" Json.natural64 fun n program => { program with latency := n }] }

def SuiteCase.document : Json.Reader SuiteCase :=
  Json.Record.reader {
    name := "SuiteCase"
    initial := { name := "" }
    fields := [
      .mandatory "name" Json.string fun name c => { c with name },
      .optional "group" (Json.optional Json.string) fun group c => { c with group },
      .optional "program" Program.document fun program c => { c with program }] }

namespace Manifest

def document : Json.Reader Manifest :=
  Json.Record.reader {
    name := "SuiteManifest"
    initial := {}
    fields := [
      .optional "cases" (Json.sequence SuiteCase.document)
        fun cases manifest => { manifest with cases := cases.toList }] }

def ofJson (text : String) : Except Failure Manifest :=
  (Json.parse document text).mapError .parse

end Manifest

end CycleBench
