import CycleBench.Event
import CycleBench.Model.Scripted

/-!
Test suites: named cases, some of them in groups, and the selection of cases from a manifest.
-/

namespace CycleBench

structure SuiteCase where
  name : String
  group : Option String := none
  program : Program := {}
deriving DecidableEq, Inhabited

/-- Cases in their order. -/
structure Manifest where
  cases : List SuiteCase := []
deriving DecidableEq, Inhabited

namespace Manifest

def names (manifest : Manifest) : List String :=
  manifest.cases.map (·.name)

/-- The first case of a name. -/
def get? (manifest : Manifest) (name : String) : Option SuiteCase :=
  manifest.cases.find? (·.name = name)

/-- The cases of a group; a case without a group is in none. -/
def group (manifest : Manifest) (group : String) : List SuiteCase :=
  manifest.cases.filter (·.group = some group)

end Manifest

/-- Which cases of a manifest to run. -/
inductive Selection where
  | all
  | group (name : String)
  | single (name : String)
deriving DecidableEq

namespace Manifest

def select (manifest : Manifest) : Selection → List SuiteCase
  | .all => manifest.cases
  | .group name => manifest.group name
  | .single name => (manifest.get? name).toList

/-- What is reported about a selection: a group without cases. -/
def selectEvents (manifest : Manifest) : Selection → List Event
  | .group name => if (manifest.group name).isEmpty then [.unknownGroup name] else []
  | _ => []

end Manifest

end CycleBench
