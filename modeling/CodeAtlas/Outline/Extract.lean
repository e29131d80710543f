import CodeAtlas.Grammar.PythonForms
import CodeAtlas.Grammar.RustForms
import CodeAtlas.Grammar.ScriptForms
import CodeAtlas.Language
import CodeAtlas.Outline.Python
import CodeAtlas.Outline.Rust
import CodeAtlas.Outline.Script
import CodeAtlas.SyntaxTree.Census

/-!
# Outlines of texts

A text is outlined if its label has a grammar, it is not too long, and its tree is neither too deep nor too
damaged. In every other case the outline says so and is empty.

* `outlineWith`: the outline of a text, for any reader of trees.
* `outline`: the same with the readers of the grammars.
-/

namespace CodeAtlas.Outline

open SyntaxTree

/-- The longest text that is parsed, in bytes. -/
def maxFileBytes : Nat := 500 * 1024

/-- The deepest tree that is looked at. -/
def maxNesting : Nat := 1024

/-- The share of error nodes above which a tree is not looked at. -/
def errorThreshold : Float := 0.30

/-- Why a text is not outlined. -/
inductive Refusal where
  | noGrammar
  | tooLong
  | noTree
  | tooDeep
  | tooDamaged
deriving Repr, DecidableEq

/-- What an import refers to: the first part of a Rust path unless it stays in the file's own crate, and the module
as written elsewhere. -/
def dependencyName (language : Language) (source : String) : String :=
  match language with
  | .rust =>
    let root := Text.trim ((Text.split source "::").headD source)
    if ["crate", "self", "super"].contains root then "" else root
  | _ => Text.trim source

/-- The members of a list, each at its first place. -/
def firstOnes : List String → List String → List String
  | seen, [] => seen.reverse
  | seen, a :: l => firstOnes (if seen.contains a then seen else a :: seen) l

/-- The findings in a tree, by language. -/
def findings (language : Language) (source : String) (root : Node) : List Finding :=
  match language with
  | .rust => survey (Rust.visit source) root
  | .python => survey (Python.visit source) root
  | .javaScript | .typeScript | .tsx => survey (Script.visit source) root

/-- The outline of a tree that is looked at. -/
def ofTree (path label : String) (size : Nat) (language : Language) (source : String) (root : Node) :
    Artifact :=
  let found := findings language source root
  let functions := Finding.functions found
  let classes := Finding.classes found
  let imports := Finding.imports found
  { path, language := label, size, parseSuccess := true
    functions
    -- methods are attached last, since a block of them may stand before its type
    classes := Rust.attach found classes
    imports
    exports := Finding.exports found ++ if language = .python then Python.exports root functions classes else []
    bindings := Finding.bindings found
    comments := Finding.comments found
    calls := Finding.calls found
    controlFlow := Finding.flows found
    literals := Finding.literals found
    dependencies := firstOnes [] ((imports.map fun i => dependencyName language i.source).filter (· ≠ "")) }

/-- The outline of a text, or the first reason why there is none. -/
def tryOutline (read : Language → String → Option Node) (path label content : String) :
    Except Refusal Artifact :=
  match Language.ofLabel? label with
  | none => .error .noGrammar
  | some language =>
    let size := content.utf8ByteSize
    if maxFileBytes < size then .error .tooLong
    else
      match read language content with
      | none => .error .noTree
      | some root =>
        let census := Census.collect root
        if maxNesting < census.depth then .error .tooDeep
        else if errorThreshold < Float.ofNat census.errors / Float.ofNat census.nodes then .error .tooDamaged
        else .ok (ofTree path label size language content root)

/-- The outline of a text, for any reader of trees. -/
def outlineWith (read : Language → String → Option Node) (path content : String) : Artifact :=
  let label := labelOfPath path
  match tryOutline read path label content with
  | .ok a => a
  | .error _ => Artifact.degraded path label content

/-- The tree of a text. -/
def readSource (language : Language) (source : String) : Option Node :=
  match language with
  | .rust => Grammar.readRust source
  | .python => Grammar.readPython source
  | .javaScript => Grammar.readScript Grammar.Script.javaScript source
  | .typeScript => Grammar.readScript Grammar.Script.typeScript source
  | .tsx => Grammar.readScript Grammar.Script.typeScriptMarkup source

/-- The outline of a text. -/
def outline (path content : String) : Artifact := outlineWith readSource path content

end CodeAtlas.Outline
