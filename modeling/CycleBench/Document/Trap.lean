import CycleBench.Json.Choice
import CycleBench.Json.Sequence
import CycleBench.Verdict

/-!
Verdicts and trap records in documents.
-/

namespace CycleBench

def Verdict.choices : Json.Choices Verdict :=
  Verdict.all.map fun verdict => (verdict.name, verdict)

def Verdict.document : Json.Reader Verdict :=
  Verdict.choices.reader

def TrapRecord.document : Json.Reader TrapRecord :=
  Json.Record.reader {
    name := "TrapRecord"
    initial := ⟨0, 0⟩
    fields := [
      .mandatory "result_code" Json.signedByte fun r trap => { trap with resultCode := r },
      .mandatory "cause_code" Json.signedByte fun c trap => { trap with causeCode := c }] }

end CycleBench
