import CodeAtlas.Generation.Provider
import CodeAtlas.Settings
import CodeAtlas.Store.Archive

/-!
# Starting the service

The service needs a directory for its store, a provider that it knows, and a store that can be opened. These are
seen to in this order, and the first that is missing is the fault.

* `launch`: the store and the provider that the service starts with.
* `Launch.Fault.chain`: the wording of a fault, from what was being done to what went wrong.
-/

namespace CodeAtlas

namespace Launch

/-- What keeps the service from starting. -/
inductive Fault where
  | directory (path message : String)
  | provider (name : String)
  | store (path : String) (error : StoreError)
deriving Repr, DecidableEq

def Fault.chain : Fault → List String
  | .directory path m => ["creating " ++ path, m]
  | .provider name => [Provider.unknown name]
  | .store path e => ["opening " ++ path, e.message]

/-- What is found on the disk. -/
structure Disk where
  /-- The directory of the store, made if it was missing. -/
  directory : Except String Unit := .ok ()
  /-- The text of the file of the store; nothing if there is no file. -/
  file : Option String := none

end Launch

/-- Starts the service from a disk. `fate` is what becomes of the store's first writing. -/
def launch (settings : Settings) (disk : Launch.Disk) (fate : Fate) (now : Instant) :
    Except Launch.Fault (Provider × Archive) :=
  match disk.directory with
  | .error m => .error (.directory settings.dataDirectory m)
  | .ok () =>
    match Provider.ofName? settings.generator.provider with
    | none => .error (.provider settings.generator.provider)
    | some p =>
      match Archive.load now fate disk.file with
      | .error e => .error (.store settings.storePath e)
      | .ok archive => .ok (p, archive)

end CodeAtlas
