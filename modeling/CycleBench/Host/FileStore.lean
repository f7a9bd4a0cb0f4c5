import CycleBench.Host
import CycleBench.Text.Split

/-!
A host in memory: a tree of files and directories below one root. A path is a list of names;
every name but the last has to be that of a directory. The time that a run takes is withheld.
-/

namespace CycleBench

inductive FileEntry where
  | file (content : ByteArray)
  | directory

/-- What stands at each place, a place being the names on the way from the root. -/
structure FileStore where
  entry? : List String → Option FileEntry

namespace FileStore

/-- The root alone. -/
def empty : FileStore where
  entry? place := if place = [] then some .directory else none

def put (store : FileStore) (place : List String) (entry : FileEntry) : FileStore where
  entry? other := if other = place then some entry else store.entry? other

/-- The place that one name leads to. -/
def move (here : List String) (name : String) : List String :=
  if name = "" || name = "." then here
  else if name = ".." then here.dropLast
  else here ++ [name]

/-- The place that names lead to; each is looked up in a directory. -/
def walk (store : FileStore) (here : List String) : List String → Except FileFault (List String)
  | [] => .ok here
  | name :: names =>
    match store.entry? here with
    | none => .error .notFound
    | some (.file _) => .error .notDirectory
    | some .directory => store.walk (move here name) names

def names (path : String) : List String :=
  Text.split '/' path

/-- The place of a path that is to be read. -/
def find (store : FileStore) (path : String) : Except FileFault (List String) :=
  if path = "" then .error .notFound else store.walk [] (names path)

/-- The names of a path without the empty ones at its end. -/
def trimmed (path : String) : List String :=
  ((names path).reverse.dropWhile (· = "")).reverse

/-- The place of a path that is to be written; a slash at its end asks for a directory. -/
def findTarget (store : FileStore) (path : String) : Except FileFault (List String) :=
  if path = "" then .error .notFound
  else
    match store.walk [] (trimmed path) with
    | .error fault => .error fault
    | .ok place => if trimmed path = names path then .ok place else .error .isDirectory

def read (store : FileStore) (path : String) : Except FileFault ByteArray :=
  match store.find path with
  | .error fault => .error fault
  | .ok place =>
    match store.entry? place with
    | none => .error .notFound
    | some .directory => .error .isDirectory
    | some (.file content) => .ok content

/-- Changes the content of a file, which is empty if there is none yet. -/
def change (store : FileStore) (path : String) (f : ByteArray → ByteArray) :
    Except FileFault FileStore :=
  match store.findTarget path with
  | .error fault => .error fault
  | .ok place =>
    match store.entry? place with
    | some .directory => .error .isDirectory
    | some (.file content) => .ok (store.put place (.file (f content)))
    | none => .ok (store.put place (.file (f ByteArray.empty)))

/-- Keeps the store as it was when a change fails. -/
def update (result : Except FileFault FileStore) : StateM FileStore (Except FileFault Unit) :=
  match result with
  | .ok store => do
    set store
    return .ok ()
  | .error fault => return .error fault

instance : Host (StateM FileStore) where
  read path := do return (← get).read path
  write path content := do update ((← get).change path fun _ => content)
  append path content := do update ((← get).change path fun old => old ++ content)
  timed f := return (f (), none)

end FileStore

end CycleBench
