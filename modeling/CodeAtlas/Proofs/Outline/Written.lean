import CodeAtlas.Outline.Codec
import CodeAtlas.Proofs.Json.Forms

/-!
# Written outlines

What is written of an outline stands for it, provided that its numbers fit into
their words (`Fits`).

* `Artifact.stands`: **a written outline is read as the outline.**
-/

namespace CodeAtlas.Outline

open Json

/-- Whether both lines of a location fit into a word. -/
def Location.Fits (l : Location) : Prop := l.startLine < Nat.pow 2 64 ∧ l.endLine < Nat.pow 2 64

theorem Location.stands {l : Location} (h : l.Fits) (d : ℕ) : Stands (d + 1) Location.decode l.encode l :=
  (Form.Stands.start d Location.mk
    |>.req (Stands.natOfBits d "usize" (by omega) h.1)
    |>.req (Stands.natOfBits d "usize" (by omega) h.2)).record "Location" (by simp)

def FunctionInfo.Fits (f : FunctionInfo) : Prop := f.location.Fits ∧ f.complexity < Nat.pow 2 32

theorem FunctionInfo.stands {f : FunctionInfo} (h : f.Fits) (d : ℕ) :
    Stands (d + 2) FunctionInfo.decode f.encode f :=
  (Form.Stands.start (d + 1) FunctionInfo.mk
    |>.req (Stands.str _ f.name)
    |>.req (Stands.str _ f.snippet)
    |>.req (Location.stands h.1 d)
    |>.dflt (Stands.strings d f.parameters)
    |>.dflt (Stands.bool _ f.isAsync)
    |>.req (Stands.natOfBits _ "u32" (by omega) h.2)).record "FunctionInfo" (by simp)

theorem ClassKind.stands (k : ClassKind) (d : ℕ) : Stands d ClassKind.decode (.str k.label) k :=
  Stands.label d (by cases k <;> rfl)

theorem ClassInfo.stands {c : ClassInfo} (h : c.location.Fits) (d : ℕ) :
    Stands (d + 2) ClassInfo.decode c.encode c :=
  (Form.Stands.start (d + 1) ClassInfo.mk
    |>.req (Stands.str _ c.name)
    |>.req (c.kind.stands _)
    |>.req (Stands.str _ c.snippet)
    |>.req (Location.stands h d)
    |>.dflt (Stands.strings d c.methods)).record "ClassInfo" (by simp)

theorem ImportInfo.stands {i : ImportInfo} (h : i.location.Fits) (d : ℕ) :
    Stands (d + 2) ImportInfo.decode i.encode i :=
  (Form.Stands.start (d + 1) ImportInfo.mk
    |>.req (Stands.str _ i.source)
    |>.dflt (Stands.strings d i.specifiers)
    |>.req (Stands.str _ i.snippet)
    |>.req (Location.stands h d)).record "ImportInfo" (by simp)

theorem ExportInfo.stands {e : ExportInfo} (h : e.location.Fits) (d : ℕ) :
    Stands (d + 2) ExportInfo.decode e.encode e :=
  (Form.Stands.start (d + 1) ExportInfo.mk
    |>.req (Stands.str _ e.name)
    |>.req (Stands.str _ e.snippet)
    |>.req (Location.stands h d)).record "ExportInfo" (by simp)

theorem VariableInfo.stands {v : VariableInfo} (h : v.location.Fits) (d : ℕ) :
    Stands (d + 2) VariableInfo.decode v.encode v :=
  (Form.Stands.start (d + 1) VariableInfo.mk
    |>.req (Stands.str _ v.name)
    |>.req (Stands.str _ v.kind)
    |>.req (Stands.str _ v.snippet)
    |>.req (Location.stands h d)).record "VariableInfo" (by simp)

theorem CommentInfo.stands {c : CommentInfo} (h : c.location.Fits) (d : ℕ) :
    Stands (d + 2) CommentInfo.decode c.encode c :=
  (Form.Stands.start (d + 1) CommentInfo.mk
    |>.req (Stands.str _ c.text)
    |>.req (Stands.bool _ c.isDoc)
    |>.req (Location.stands h d)).record "CommentInfo" (by simp)

theorem CallInfo.stands {c : CallInfo} (h : c.location.Fits) (d : ℕ) :
    Stands (d + 2) CallInfo.decode c.encode c :=
  (Form.Stands.start (d + 1) CallInfo.mk
    |>.req (Stands.str _ c.callee)
    |>.req (Location.stands h d)).record "CallInfo" (by simp)

theorem ControlFlowInfo.stands {c : ControlFlowInfo} (h : c.location.Fits) (d : ℕ) :
    Stands (d + 2) ControlFlowInfo.decode c.encode c :=
  (Form.Stands.start (d + 1) ControlFlowInfo.mk
    |>.req (Stands.str _ c.kind)
    |>.req (Location.stands h d)).record "ControlFlowInfo" (by simp)

theorem LiteralInfo.stands {l : LiteralInfo} (h : l.location.Fits) (d : ℕ) :
    Stands (d + 2) LiteralInfo.decode l.encode l :=
  (Form.Stands.start (d + 1) LiteralInfo.mk
    |>.req (Stands.str _ l.value)
    |>.req (Location.stands h d)).record "LiteralInfo" (by simp)

/-- Whether all numbers of an outline fit into their words. -/
structure Artifact.Fits (a : Artifact) : Prop where
  size : a.size < Nat.pow 2 64
  functions : ∀ f ∈ a.functions, f.Fits
  classes : ∀ c ∈ a.classes, c.location.Fits
  imports : ∀ i ∈ a.imports, i.location.Fits
  exports : ∀ e ∈ a.exports, e.location.Fits
  bindings : ∀ v ∈ a.bindings, v.location.Fits
  comments : ∀ c ∈ a.comments, c.location.Fits
  calls : ∀ c ∈ a.calls, c.location.Fits
  controlFlow : ∀ c ∈ a.controlFlow, c.location.Fits
  literals : ∀ l ∈ a.literals, l.location.Fits

/-- **A written outline is read as the outline.** -/
theorem Artifact.stands {a : Artifact} (h : a.Fits) (d : ℕ) : Stands (d + 4) Artifact.decode a.encode a :=
  (Form.Stands.start (d + 3) Artifact.mk
    |>.req (Stands.str _ a.path)
    |>.req (Stands.str _ a.language)
    |>.req (Stands.natOfBits _ "usize" (by omega) h.size)
    |>.req (Stands.bool _ a.parseSuccess)
    |>.req (Stands.list fun f hf => FunctionInfo.stands (h.functions f hf) d)
    |>.req (Stands.list fun c hc => ClassInfo.stands (h.classes c hc) d)
    |>.req (Stands.list fun i hi => ImportInfo.stands (h.imports i hi) d)
    |>.req (Stands.list fun e he => ExportInfo.stands (h.exports e he) d)
    |>.req (Stands.list fun v hv => VariableInfo.stands (h.bindings v hv) d)
    |>.req (Stands.list fun c hc => CommentInfo.stands (h.comments c hc) d)
    |>.dflt (Stands.list fun c hc => CallInfo.stands (h.calls c hc) d)
    |>.dflt (Stands.list fun c hc => ControlFlowInfo.stands (h.controlFlow c hc) d)
    |>.dflt (Stands.list fun l hl => LiteralInfo.stands (h.literals l hl) d)
    |>.dflt (Stands.strings (d + 2) a.dependencies)).record "AstArtifact" (by simp)

end CodeAtlas.Outline
