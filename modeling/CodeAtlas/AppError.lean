import CodeAtlas.Generation.Basic
import CodeAtlas.Host.Basic
import CodeAtlas.Search.Query
import CodeAtlas.Store.Basic

/-!
# Errors of analyses and searches

* `AppError.message`: the wording of what ends an analysis or a search.
-/

namespace CodeAtlas

/-- What ends an analysis or a search. -/
inductive AppError where
  | notFound (entity : Entity) (id : Ident)
  | host (error : HostError)
  | patterns (failure : Failure)
  | store (error : StoreError)
  | invalidInput (message : String)
  | task (message : String)
deriving Repr, DecidableEq

def AppError.message : AppError → String
  | .notFound e id => e.text ++ " not found: " ++ id.text
  | .host e => "source browser error: " ++ e.message
  | .patterns f => "pattern generation failed: " ++ f.message
  | .store e => "store error: " ++ e.message
  | .invalidInput m => "invalid input: " ++ m
  | .task m => "background task failed: " ++ m

end CodeAtlas
